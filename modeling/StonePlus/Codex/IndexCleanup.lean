import StonePlus.Codex.SessionIndex
import StonePlus.Lib.Except
import Mathlib.Tactic.Common

/-!
# StonePlus.Codex.IndexCleanup

What the clean-up of the session index must do, and when it does.

The index is a text in UTF-8 and its lines are texts.  The decoder drops a byte order mark, so
the lines are read from the text behind it.
-/

namespace StonePlus.Codex

open Lib
open Utf8Decoder (withoutBom)

/-! ## Which lines should go -/

/-- Ids are compared as they are, UUIDs without regard to the case of letters. -/
def sameThread (a b : JsString) : Bool :=
  a = b || (isUuid a && isUuid b && toLowerCase a = toLowerCase b)

/-- The thread ids of every record of type `session_meta` in a rollout. -/
def recordedIds (content : Bytes) : List JsString :=
  let (text, decoder) := TextDecoder.decode {} content
  (forEachLine (text ++ decoder.flush)).filterMap fun (line, _) => sessionMetaId line

/-- The threads that rollouts are named after or tell of, and that databases refer to. -/
def conversations (home : CodexHome) : List JsString :=
  ((home.files.getD []).filter (isRolloutName ·.name)).flatMap (fun file =>
    (rolloutThreadIdFromFilename file.name).toList ++ recordedIds file.content) ++
  (home.databases.getD []).flatMap fun database => (database.map databaseIds).getD []

def occurs (home : CodexHome) (id : JsString) : Bool := (conversations home).any (sameThread id)

/-- The id of a line that is a well-formed entry. -/
def entryId (line : List Char) : Option JsString :=
  (knownSessionIndexCandidate (splitEnding (encodeUtf16 line)).1).map (·.id)

/-- The byte order mark at the start of a text. -/
def bomOf (text : List Char) : List Char := if text.head? = some bom then [bom] else []

/-- The lines of an index. -/
def indexLines (text : List Char) : List (List Char) := segments '\n' (withoutBom text)

/-- The index without the entries that were confirmed and belong to no conversation. -/
def cleanedIndex (home : CodexHome) (confirmed : List JsString) (text : List Char) : List Char :=
  bomOf text ++ ((indexLines text).filter fun line =>
    !(entryId line).any fun id => id ∈ selectedIds confirmed && !occurs home id).flatten

/-- What a clean-up that returns must leave. -/
structure Cleaned (limits : ScanLimits) (home : CodexHome) (confirmed : List JsString)
    (text : List Char) (after : CodexHome) : Prop where
  index : after.index = .ok (some (encodeUtf8 (cleanedIndex home confirmed text)))
  preview : ∀ candidates, previewCandidates limits after = .ok candidates →
    ∀ candidate ∈ candidates, candidate.id ∉ selectedIds confirmed

/-- The lines that are not entries of a confirmed id. -/
def keptLines (confirmed : List JsString) (text : List Char) : List (List Char) :=
  (indexLines text).filter fun line => !(entryId line).any (· ∈ selectedIds confirmed)

/-- When the clean-up does it: nothing is confirmed, or the index has no byte order mark, each
confirmed id that occurs anywhere is found by the scan as it is written, and the first line that
stays is no byte order mark before an entry with a confirmed id. -/
def Cleanable (limits : ScanLimits) (home : CodexHome) (confirmed : List JsString)
    (text : List Char) : Prop :=
  selectedIds confirmed = [] ∨
    (text.head? ≠ some bom ∧
      (∀ id ∈ selectedIds confirmed, occurs home id →
        ∃ liveThreadIds, collectLiveThreadIds limits home = .ok liveThreadIds ∧
          id ∈ liveThreadIds) ∧
      ∀ line id, (keptLines confirmed text).head? = some (bom :: line) → entryId line = some id →
        id ∉ selectedIds confirmed)

/-! ## Lines of text -/

theorem append_splitEnding (segment : JsString) :
    (splitEnding segment).1 ++ (splitEnding segment).2 = segment := by
  unfold splitEnding
  split
  · rename_i h
    exact List.suffix_iff_eq_append.mp h
  · split
    · rename_i h
      exact List.suffix_iff_eq_append.mp h
    · exact List.append_nil segment

theorem segments_encodeUtf16 (text : List Char) :
    segments 0x0A (encodeUtf16 text) = (segments '\n' text).map encodeUtf16 := by
  have hnewline : JsString.utf16 ('\n').toNat = [0x0A] := by decide
  refine segments_flatMap (f := fun c : Char => JsString.utf16 c.toNat) hnewline ?_ ?_ text
  · intro c
    unfold JsString.utf16
    split <;> exact List.cons_ne_nil _ _
  · intro c hmem
    have hscalar := scalar c
    have hoctet : ∀ n, (10 : UInt16) = UInt16.ofNat n → n % 65536 = 10 := by
      intro n h
      have := congrArg UInt16.toNat h
      rw [UInt16.toNat_ofNat'] at this
      exact this.symm
    unfold JsString.utf16 at hmem
    split at hmem
    · have := hoctet _ (List.mem_singleton.mp hmem)
      exact Char.toNat_inj.mp (by simp; omega)
    · simp only [List.mem_cons, List.not_mem_nil, or_false] at hmem
      rcases hmem with h | h
      · have := hoctet _ h
        omega
      · have := hoctet _ h
        omega

theorem bufferFrom_encodeUtf16 (text : List Char) : bufferFrom (encodeUtf16 text) = encodeUtf8 text := by
  rw [bufferFrom, codePoints_encodeUtf16, encodeUtf8, List.flatMap_map]
  refine List.flatMap_congr fun c _ => ?_
  have hscalar := scalar c
  rw [if_neg (by omega)]

theorem encodeUtf8_injective : Function.Injective encodeUtf8 := by
  intro a b h
  have hpoints := congrArg (Utf8Decoder.decodeFrom Utf8Decoder.start) h
  rw [Utf8Decoder.decodeFrom_encodeUtf8, Utf8Decoder.decodeFrom_encodeUtf8] at hpoints
  exact List.map_injective_iff.mpr (fun _ _ => Char.toNat_inj.mp) (Option.some.inj hpoints)

/-- Keeping more of the lines, which are not empty, keeps more of the text. -/
theorem filter_flatten {α : Type} {l : List (List α)} {p q : List α → Bool}
    (hpq : ∀ a ∈ l, p a = true → q a = true) (hne : ∀ a ∈ l, a ≠ []) :
    (l.filter p).flatten.length ≤ (l.filter q).flatten.length ∧
      ((l.filter p).flatten.length = (l.filter q).flatten.length →
        ∀ a ∈ l, q a = true → p a = true) := by
  induction l with
  | nil => exact ⟨Nat.le_refl _, fun _ _ ha => absurd ha List.not_mem_nil⟩
  | cons a l ih =>
    obtain ⟨hle, heq⟩ := ih (fun b hb => hpq b (List.mem_cons_of_mem a hb))
      fun b hb => hne b (List.mem_cons_of_mem a hb)
    have ha := hpq a List.mem_cons_self
    have hpos : 0 < a.length := List.length_pos_iff.mpr (hne a List.mem_cons_self)
    cases hp : p a with
    | true =>
      have hq := ha hp
      simp only [List.filter_cons, hp, hq, if_true, List.flatten_cons, List.length_append]
      refine ⟨by omega, fun h b hb => ?_⟩
      rcases List.mem_cons.mp hb with rfl | hb
      · exact fun _ => hp
      · exact heq (by omega) b hb
    | false =>
      cases hq : q a with
      | true =>
        simp only [List.filter_cons, hp, hq, if_true, Bool.false_eq_true, if_false,
          List.flatten_cons, List.length_append]
        exact ⟨by omega, fun h => by omega⟩
      | false =>
        simp only [List.filter_cons, hp, hq, Bool.false_eq_true, if_false]
        refine ⟨hle, fun h b hb => ?_⟩
        rcases List.mem_cons.mp hb with rfl | hb
        · exact fun h => absurd (hq.symm.trans h) Bool.false_ne_true
        · exact heq h b hb

/-! ## What the code does with the lines -/

/-- The line is an entry of one of the ids. -/
def entryOf (ids : List JsString) (line : List Char) : Bool := (entryId line).any (· ∈ ids)

theorem encodeUtf16_append (a b : List Char) :
    encodeUtf16 (a ++ b) = encodeUtf16 a ++ encodeUtf16 b := List.flatMap_append

theorem filterSessionIndex_eq (text : List Char) (ids : List JsString) :
    filterSessionIndex (encodeUtf16 text) ids =
      (encodeUtf16 ((segments '\n' text).filter (!entryOf ids ·)).flatten,
        (segments '\n' text).countP (entryOf ids)) := by
  suffices hall : ∀ step : JsString × Nat → JsString × JsString → JsString × Nat,
      (∀ done (line : List Char), step done (splitEnding (encodeUtf16 line)) =
        if entryOf ids line then (done.1, done.2 + 1) else (done.1 ++ encodeUtf16 line, done.2)) →
      ∀ (lines : List (List Char)) done, ((lines.map encodeUtf16).map splitEnding).foldl step done =
        (done.1 ++ encodeUtf16 (lines.filter (!entryOf ids ·)).flatten,
          done.2 + lines.countP (entryOf ids)) by
    rw [filterSessionIndex, forEachLine, segments_encodeUtf16]
    refine (hall _ (fun done line => ?_) _ _).trans ?_
    · have hjoin := append_splitEnding (encodeUtf16 line)
      have hentry : entryOf ids line = ((knownSessionIndexCandidate
          (splitEnding (encodeUtf16 line)).1).map (·.id)).any (· ∈ ids) := rfl
      rw [hentry]
      simp only [hjoin]
      cases knownSessionIndexCandidate (splitEnding (encodeUtf16 line)).1 with
      | none => simp
      | some candidate => simp
    · rw [List.nil_append, Nat.zero_add]
  intro step hstep lines
  induction lines with
  | nil =>
    intro done
    simp [encodeUtf16]
  | cons line lines ih =>
    intro done
    rw [List.map_cons, List.map_cons, List.foldl_cons, ih, hstep, List.filter_cons,
      List.countP_cons]
    by_cases hentry : entryOf ids line = true
    · simp [hentry]
      omega
    · simp [hentry, encodeUtf16_append]

variable {liveThreadIds : List JsString}

/-- The candidates are the entries of no conversation. -/
theorem mem_ghosts {text : List Char} {id : JsString} :
    id ∈ (ghosts liveThreadIds (encodeUtf16 text)).map (·.id) ↔
      id ∉ liveThreadIds ∧ ∃ line ∈ segments '\n' text, entryId line = some id := by
  suffices hall : ∀ step : List SessionIndexCleanupCandidate → JsString × JsString →
      List SessionIndexCleanupCandidate,
      (∀ (done : List SessionIndexCleanupCandidate) (line : List Char),
        id ∈ (step done (splitEnding (encodeUtf16 line))).map (·.id) ↔
        id ∈ done.map (·.id) ∨ id ∉ liveThreadIds ∧ entryId line = some id) →
      ∀ (lines : List (List Char)) (done : List SessionIndexCleanupCandidate),
        id ∈ (((lines.map encodeUtf16).map splitEnding).foldl step done).map (·.id) ↔
        id ∈ done.map (·.id) ∨ id ∉ liveThreadIds ∧ ∃ line ∈ lines, entryId line = some id by
    rw [ghosts, forEachLine, segments_encodeUtf16]
    refine (hall _ (fun done line => ?_) _ _).trans ?_
    · have hid : entryId line =
          (knownSessionIndexCandidate (splitEnding (encodeUtf16 line)).1).map (·.id) := rfl
      rw [hid]
      dsimp only
      cases knownSessionIndexCandidate (splitEnding (encodeUtf16 line)).1 with
      | none => simp
      | some candidate =>
        simp only [Option.map_some, Option.some.injEq]
        split
        · rename_i hskip
          refine (or_iff_left_of_imp ?_).symm
          rintro ⟨hlive, rfl⟩
          exact hskip.resolve_left hlive
        · rename_i hnew
          obtain ⟨hlive, -⟩ := not_or.mp hnew
          rw [List.map_append, List.mem_append, List.map_singleton, List.mem_singleton]
          refine or_congr_right ⟨?_, fun h => h.2.symm⟩
          rintro rfl
          exact ⟨hlive, rfl⟩
    · rw [List.map_nil, or_iff_right List.not_mem_nil]
  intro step hstep lines
  induction lines with
  | nil => simp
  | cons line lines ih =>
    intro done
    rw [List.map_cons, List.map_cons, List.foldl_cons, ih, hstep]
    simp only [List.mem_cons, exists_eq_or_imp, and_or_left, or_assoc]

/-! ## What a clean-up that returns has checked -/

theorem ensure_eq_ok : ensure condition error = .ok u ↔ condition = true := by
  unfold ensure
  cases condition <;> simp

variable {sha256 : Bytes → JsString} {limits : ScanLimits} {checks : Checks}
  {expected : JsString} {confirmed : List JsString} {home : CodexHome} {text : List Char}

/-- The home with this index. -/
def withIndex (home : CodexHome) (text : List Char) : CodexHome :=
  { home with index := .ok (some (encodeUtf8 text)) }

theorem buildPlan_withIndex (limits : ScanLimits) (home : CodexHome) (text : List Char) :
    buildPlan limits (withIndex home text) = (collectLiveThreadIds limits home).map
      fun liveThreadIds => some
        { originalBytes := encodeUtf8 text
          originalText := encodeUtf16 (withoutBom text)
          candidates := ghosts liveThreadIds (encodeUtf16 (withoutBom text)) } := by
  have hlive : collectLiveThreadIds limits (withIndex home text) =
      collectLiveThreadIds limits home := rfl
  rw [buildPlan, hlive]
  cases collectLiveThreadIds limits home with
  | error e => rfl
  | ok liveThreadIds =>
    simp only [withIndex, Utf8Decoder.decode_encodeUtf8]
    rfl

/-- What was confirmed are candidates, and what is written is the lines that stay. -/
theorem approve_eq_ok {written : Option Bytes}
    (h : approve sha256 limits checks expected confirmed (withIndex home text) =
      .ok (pruned, written)) :
    ∃ liveThreadIds, collectLiveThreadIds limits home = .ok liveThreadIds ∧
      (∀ id ∈ selectedIds confirmed, id ∉ liveThreadIds ∧
        ∃ line ∈ indexLines text, entryId line = some id) ∧
      (written = none ∧ (indexLines text).countP (entryOf (selectedIds confirmed)) = 0 ∨
        written = some (encodeUtf8 (keptLines confirmed text).flatten) ∧
          (indexLines text).countP (entryOf (selectedIds confirmed)) ≠ 0) := by
  unfold approve at h
  simp only [buildPlan_withIndex] at h
  obtain ⟨_, -, h⟩ := bind_eq_ok.mp h
  obtain ⟨_, -, h⟩ := bind_eq_ok.mp h
  obtain ⟨_, -, h⟩ := bind_eq_ok.mp h
  obtain ⟨_, -, h⟩ := bind_eq_ok.mp h
  obtain ⟨_, -, h⟩ := bind_eq_ok.mp h
  obtain ⟨_, -, h⟩ := bind_eq_ok.mp h
  obtain ⟨plan, hplan, h⟩ := bind_eq_ok.mp h
  cases hlive : collectLiveThreadIds limits home with
  | error e =>
    rw [hlive] at hplan
    cases hplan
  | ok liveThreadIds =>
    rw [hlive] at hplan
    cases hplan
    obtain ⟨_, -, h⟩ := bind_eq_ok.mp h
    obtain ⟨_, hcandidates, h⟩ := bind_eq_ok.mp h
    refine ⟨liveThreadIds, rfl, fun id hid => ?_, ?_⟩
    · rw [ensure_eq_ok, List.all_eq_true] at hcandidates
      exact mem_ghosts.mp (of_decide_eq_true (hcandidates id hid))
    · simp only [filterSessionIndex_eq] at h
      split at h
      · rename_i hzero
        cases h
        exact .inl ⟨rfl, hzero⟩
      · rename_i hsome
        obtain ⟨_, -, h⟩ := bind_eq_ok.mp h
        obtain ⟨_, -, h⟩ := bind_eq_ok.mp h
        obtain ⟨_, -, h⟩ := bind_eq_ok.mp h
        obtain ⟨_, -, h⟩ := bind_eq_ok.mp h
        obtain ⟨_, -, h⟩ := bind_eq_ok.mp h
        obtain ⟨_, -, h⟩ := bind_eq_ok.mp h
        cases h
        exact .inr ⟨congrArg some (bufferFrom_encodeUtf16 _), hsome⟩

/-! ## When a clean-up does what it must -/

theorem text_eq (text : List Char) : bomOf text ++ (indexLines text).flatten = text := by
  rw [indexLines, flatten_segments, bomOf, withoutBom]
  split
  · rename_i hbom
    cases text with
    | nil => contradiction
    | cons c rest =>
      rw [List.head?_cons, Option.some.injEq] at hbom
      rw [hbom, List.tail_cons, List.singleton_append]
  · exact List.nil_append text

/-- The lines that stay are among those that must. -/
theorem kept_of_stays (confirmed : List JsString) (home : CodexHome) (line : List Char)
    (h : (!entryOf (selectedIds confirmed) line) = true) :
    (!(entryId line).any fun id => id ∈ selectedIds confirmed && !occurs home id) = true := by
  unfold entryOf at h
  cases hid : entryId line with
  | none => rfl
  | some id =>
    rw [hid] at h
    simp only [Option.any_some, Bool.not_eq_true', decide_eq_false_iff_not] at h
    simp [h]

/-- The text that is left is the one that must be. -/
theorem kept_eq_cleanedIndex_iff
    (hcandidates : ∀ id ∈ selectedIds confirmed, ∃ line ∈ indexLines text, entryId line = some id) :
    (keptLines confirmed text).flatten = cleanedIndex home confirmed text ↔
      text.head? ≠ some bom ∧ ∀ id ∈ selectedIds confirmed, occurs home id = false := by
  have hfilter := filter_flatten (l := indexLines text)
    (fun line _ => kept_of_stays confirmed home line)
    (segmented_segments _).ne_nil
  have hkept : keptLines confirmed text =
      (indexLines text).filter (!entryOf (selectedIds confirmed) ·) := rfl
  rw [hkept, cleanedIndex]
  constructor
  · intro h
    have hlength := congrArg List.length h
    rw [List.length_append] at hlength
    have hbom : text.head? ≠ some bom := by
      intro hbom
      rw [bomOf, if_pos hbom, List.length_singleton] at hlength
      omega
    refine ⟨hbom, fun id hid => ?_⟩
    rw [bomOf, if_neg hbom, List.length_nil, Nat.zero_add] at hlength
    obtain ⟨line, hline, hentry⟩ := hcandidates id hid
    by_contra hoccurs
    have hstays := hfilter.2 hlength line hline (by simp [hentry, hoccurs])
    simp [entryOf, hentry, hid] at hstays
  · rintro ⟨hbom, hoccurs⟩
    rw [bomOf, if_neg hbom, List.nil_append]
    congr 1
    refine List.filter_congr fun line _ => ?_
    unfold entryOf
    cases entryId line with
    | none => rfl
    | some id =>
      by_cases hid : id ∈ selectedIds confirmed
      · simp [hid, hoccurs id hid]
      · simp [hid]

/-- The candidates once the index is what was kept. -/
theorem mem_candidates_kept (hlive : ∀ id ∈ selectedIds confirmed, id ∉ liveThreadIds)
    {id : JsString} (hid : id ∈ selectedIds confirmed) : id ∈ (ghosts liveThreadIds
      (encodeUtf16 (withoutBom (keptLines confirmed text).flatten))).map (·.id) ↔
      ∃ line, (keptLines confirmed text).head? = some (bom :: line) ∧ entryId line = some id := by
  have hsegmented : Segmented '\n' (keptLines confirmed text) :=
    (segmented_segments _).filter _
  have hstays : ∀ line ∈ keptLines confirmed text, entryId line ≠ some id := by
    intro line hline hentry
    have h := (List.mem_filter.mp hline).2
    simp [hentry, hid] at h
  rw [mem_ghosts, and_iff_right (hlive id hid)]
  generalize keptLines confirmed text = lines at hsegmented hstays
  have hsame : withoutBom lines.flatten = lines.flatten →
      (∃ line ∈ segments '\n' (withoutBom lines.flatten), entryId line = some id) → False := by
    intro heq hex
    rw [heq, hsegmented.segments_flatten] at hex
    obtain ⟨line, hline, hentry⟩ := hex
    exact hstays line hline hentry
  cases lines with
  | nil =>
    refine ⟨fun h => (hsame rfl h).elim, ?_⟩
    rintro ⟨line, h, -⟩
    simp at h
  | cons first rest =>
    have hne := hsegmented.ne_nil first List.mem_cons_self
    obtain ⟨c, line, rfl⟩ := List.exists_cons_of_ne_nil hne
    by_cases hc : c = bom
    · subst hc
      have hdrop : withoutBom ((bom :: line) :: rest).flatten = line ++ rest.flatten := by
        rw [List.flatten_cons, List.cons_append, withoutBom, List.head?_cons, if_pos rfl,
          List.tail_cons]
      have hbom : bom ≠ '\n' := by decide
      rw [hdrop, hsegmented.segments_drop hbom]
      simp only [List.head?_cons, Option.some.injEq, List.cons.injEq, true_and, exists_eq_left']
      have hrest : ∀ l ∈ rest, entryId l ≠ some id := fun l hl =>
        hstays l (List.mem_cons_of_mem _ hl)
      split
      · rename_i hnil
        have hnone : entryId [] = none := by decide +kernel
        rw [hnil, hnone]
        refine ⟨?_, fun h => absurd h (by simp)⟩
        rintro ⟨l, hl, hentry⟩
        exact absurd hentry (hrest l hl)
      · refine ⟨?_, fun h => ⟨line, List.mem_cons_self, h⟩⟩
        rintro ⟨l, hl, hentry⟩
        rcases List.mem_cons.mp hl with rfl | hl
        · exact hentry
        · exact absurd hentry (hrest l hl)
    · have hkeep : withoutBom ((c :: line) :: rest).flatten = ((c :: line) :: rest).flatten := by
        rw [List.flatten_cons, List.cons_append, withoutBom, List.head?_cons,
          if_neg fun h => hc (Option.some.inj h)]
      refine ⟨fun h => (hsame hkeep h).elim, ?_⟩
      rintro ⟨line', h, -⟩
      simp [hc] at h

theorem previewCandidates_withIndex (hlive : collectLiveThreadIds limits home = .ok liveThreadIds)
    (text : List Char) : previewCandidates limits (withIndex home text) =
      .ok (ghosts liveThreadIds (encodeUtf16 (withoutBom text))) := by
  rw [previewCandidates, buildPlan_withIndex, hlive]
  rfl

theorem cleaned_withIndex_iff (hlive : collectLiveThreadIds limits home = .ok liveThreadIds)
    (left : List Char) : Cleaned limits home confirmed text (withIndex home left) ↔
      left = cleanedIndex home confirmed text ∧ ∀ id ∈ selectedIds confirmed,
        id ∉ (ghosts liveThreadIds (encodeUtf16 (withoutBom left))).map (·.id) := by
  have hpreview := previewCandidates_withIndex hlive left
  constructor
  · rintro ⟨hindex, hnone⟩
    refine ⟨encodeUtf8_injective (Option.some.inj (Except.ok.inj hindex)), fun id hid hmem => ?_⟩
    obtain ⟨candidate, hcandidate, rfl⟩ := List.mem_map.mp hmem
    exact hnone _ hpreview candidate hcandidate hid
  · rintro ⟨rfl, hnone⟩
    refine ⟨rfl, fun candidates hcandidates candidate hmem hid => ?_⟩
    rw [hpreview] at hcandidates
    obtain rfl := Except.ok.inj hcandidates
    exact hnone _ hid (List.mem_map.mpr ⟨candidate, hmem, rfl⟩)

/-- An index of one entry behind a byte order mark. -/
def markedText : List Char :=
  bom :: "\x7b\"id\":\"a\",\"thread_name\":\"\",\"updated_at\":\"b\"\x7d\n".toList

def emptyHome : CodexHome := { files := some [], databases := some [], index := .ok none }

/-- Nothing is aborted and nothing fails. -/
def passedChecks : Checks :=
  { abortedAtStart := false, abortedInScan := false, abortedAfter := false, active := false
    desktopStopped := true, lockAcquired := true, backupWritten := true
    currentBytes := some (encodeUtf8 markedText), finalBytes := some (encodeUtf8 markedText)
    desktopStillStopped := true, indexWritten := true }

def zeroDigest : JsString := List.replicate 64 0x30

end StonePlus.Codex
