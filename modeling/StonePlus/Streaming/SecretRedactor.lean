import StonePlus.Js.TextEncoder
import StonePlus.Lib.Chunks
import StonePlus.Lib.Replace
import Mathlib.Data.List.Sort

/-!
# StonePlus.Streaming.SecretRedactor

`StreamingSecretRedactor` of `server.ts`: the credential is taken out of a stream of
octets as its chunks pass.

A secret is replaced as soon as it is complete.  Against one pass over the whole stream that
is too early when a longer secret goes on behind it: the redactor and the pass agree on
every stream if and only if no secret occurs in another before its end.
-/

namespace StonePlus.Streaming

open Lib

/-! ## The secrets -/

/-- The octets of a secret, of which there are some. -/
abbrev Secret := { secret : Bytes // secret ≠ [] }

theorem utf8_ne_nil (codePoint : Nat) : utf8 codePoint ≠ [] := by
  unfold utf8
  split_ifs <;> exact List.cons_ne_nil _ _

theorem bufferFrom_ne_nil {value : JsString} (h : value ≠ []) : bufferFrom value ≠ [] := by
  have hpoints : value.codePoints ≠ [] := by
    unfold JsString.codePoints
    split
    · contradiction
    · simp
    · split <;> simp
  obtain ⟨c, cs, hcs⟩ := List.exists_cons_of_ne_nil hpoints
  simp [bufferFrom, hcs, utf8_ne_nil]

/-- `[...new Set(values.filter(Boolean))]`. -/
def nonEmptyValues (values : List JsString) : List JsString :=
  (values.filter (· ≠ [])).eraseDups

theorem ne_nil_of_mem_nonEmptyValues : ∀ value ∈ nonEmptyValues values, value ≠ [] := fun value h => by
  simpa using (List.mem_filter.mp (List.mem_eraseDups.mp h)).2

/-- The secrets of a redactor, the longest first. -/
def secretsOf (values : List JsString) : List Secret :=
  ((nonEmptyValues values).pmap (fun value h => ⟨bufferFrom value, bufferFrom_ne_nil h⟩)
    ne_nil_of_mem_nonEmptyValues).insertionSort fun left right =>
      right.val.length ≤ left.val.length

/-! ## The redactor -/

structure StreamingSecretRedactor where
  pending : Bytes
  secrets : List Secret

/-- `Buffer.from('[REDACTED]', 'utf8')`. -/
def replacement : Bytes := bufferFrom (js "[REDACTED]")

/-- `value.indexOf(secret)`, with `none` for -1. -/
def indexOf (value : Bytes) (secret : Secret) : Option Nat :=
  (List.range (value.length + 1)).find? fun i => secret.val <+: value.drop i

/-- The order of the matches: the first one, and of those at one place the longest. -/
def NoLater (left right : Secret × Nat) : Prop :=
  left.2 < right.2 ∨ (left.2 = right.2 ∧ right.1.val.length ≤ left.1.val.length)

instance : DecidableRel NoLater := fun _ _ => inferInstanceAs (Decidable (_ ∨ _))

/-- The secrets that occur, each with its first place. -/
def matchesIn (secrets : List Secret) (pending : Bytes) : List (Secret × Nat) :=
  secrets.filterMap fun secret => (indexOf pending secret).map (secret, ·)

/-- The match that is replaced next, with its place. -/
def firstMatch (secrets : List Secret) (pending : Bytes) : Option (Secret × Nat) :=
  ((matchesIn secrets pending).insertionSort NoLater).head?

/-- `longestSecretPrefixSuffix`'s loop over the lengths, from the longest down. -/
def longestFrom (value secret : Bytes) (retained : Nat) : Nat → Nat
  | 0 => retained
  | length + 1 =>
    if length + 1 ≤ retained then retained
    else
      let start := value.length - (length + 1)
      if value[start]? = secret[0]? ∧ value.drop start = secret.take (length + 1) then length + 1
      else longestFrom value secret retained length

/-- One secret of `longestSecretPrefixSuffix`. -/
def retain (value : Bytes) (retained : Nat) (secret : Secret) : Nat :=
  longestFrom value secret.val retained (min value.length (secret.val.length - 1))

def longestSecretPrefixSuffix (value : Bytes) (secrets : List Secret) : Nat :=
  secrets.foldl (retain value) 0

/-! ## Matches -/

theorem indexOf_eq_some (h : indexOf value secret = some i) :
    secret.val <+: value.drop i ∧ ∀ j, secret.val <+: value.drop j → i ≤ j := by
  obtain ⟨hi, -, hfirst⟩ := List.find?_range_eq_some.mp h
  refine ⟨by simpa using hi, fun j hj => ?_⟩
  by_contra hlt
  have := hfirst j (by omega)
  simp [hj] at this

theorem le_length_of_isPrefix_drop {value : Bytes} {secret : Secret}
    (h : secret.val <+: value.drop j) : j + secret.val.length ≤ value.length := by
  have hle := h.length_le
  have hpos := List.length_pos_iff.mpr secret.property
  rw [List.length_drop] at hle
  omega

theorem indexOf_eq_none {secret : Secret} (h : indexOf value secret = none) (j : Nat) :
    ¬secret.val <+: value.drop j := by
  intro hj
  have hlt := le_length_of_isPrefix_drop hj
  have := List.find?_range_eq_none.mp h j (by omega)
  simp [hj] at this

instance : Std.Total NoLater := ⟨fun a b => by unfold NoLater; omega⟩

instance : IsTrans (Secret × Nat) NoLater := ⟨fun a b c hab hbc => by
  unfold NoLater at *
  omega⟩

theorem mem_matchesIn :
    (secret, i) ∈ matchesIn secrets pending ↔ secret ∈ secrets ∧ indexOf pending secret = some i := by
  constructor
  · intro h
    obtain ⟨s, hs, hi⟩ := List.mem_filterMap.mp h
    obtain ⟨k, hk, heq⟩ := Option.map_eq_some_iff.mp hi
    cases heq
    exact ⟨hs, hk⟩
  · rintro ⟨hs, hi⟩
    exact List.mem_filterMap.mpr ⟨secret, hs, by rw [hi]; rfl⟩

/-- What is replaced next is a secret, no secret starts before it, and none longer with it. -/
theorem firstMatch_eq_some (h : firstMatch secrets pending = some (secret, i)) :
    secret ∈ secrets ∧ secret.val <+: pending.drop i ∧
      ∀ other ∈ secrets, ∀ j, other.val <+: pending.drop j → NoLater (secret, i) (other, j) := by
  have hmem : (secret, i) ∈ matchesIn secrets pending :=
    (List.mem_insertionSort NoLater).mp (List.mem_of_head? h)
  have hleast : ∀ other ∈ matchesIn secrets pending, NoLater (secret, i) other := by
    intro other hother
    have hsorted := List.pairwise_insertionSort NoLater (matchesIn secrets pending)
    obtain ⟨tail, htail⟩ := List.head?_eq_some_iff.mp h
    rw [htail, List.pairwise_cons] at hsorted
    rw [← List.mem_insertionSort NoLater, htail, List.mem_cons] at hother
    obtain rfl | hother := hother
    · exact .inr ⟨rfl, le_rfl⟩
    · exact hsorted.1 other hother
  obtain ⟨hs, hi⟩ := mem_matchesIn.mp hmem
  refine ⟨hs, (indexOf_eq_some hi).1, fun other hother j hj => ?_⟩
  cases hindex : indexOf pending other with
  | none => exact absurd hj (indexOf_eq_none hindex j)
  | some k =>
    have hle := (indexOf_eq_some hindex).2 j hj
    have := hleast (other, k) (mem_matchesIn.mpr ⟨hother, hindex⟩)
    unfold NoLater at *
    simp only at *
    omega

theorem firstMatch_eq_none (h : firstMatch secrets pending = none) (hsecret : secret ∈ secrets)
    (j : Nat) : ¬secret.val <+: pending.drop j := by
  have hnil : matchesIn secrets pending = [] := by
    have hperm := List.perm_insertionSort NoLater (matchesIn secrets pending)
    rw [List.head?_eq_none_iff.mp h] at hperm
    exact hperm.symm.eq_nil
  cases hindex : indexOf pending secret with
  | none => exact indexOf_eq_none hindex j
  | some i =>
    have := mem_matchesIn.mpr ⟨hsecret, hindex⟩
    simp [hnil] at this

/-! ## What is held back -/

theorem longestFrom_spec (value secret : Bytes) (retained length : Nat) :
    retained ≤ longestFrom value secret retained length ∧
      longestFrom value secret retained length ≤ max retained length ∧
      ∀ k ≤ length, 0 < k → value.drop (value.length - k) = secret.take k →
        k ≤ longestFrom value secret retained length := by
  induction length with
  | zero => exact ⟨le_rfl, le_max_left _ _, fun k hk hpos _ => by omega⟩
  | succ length ih =>
    obtain ⟨hle, hmax, hlongest⟩ := ih
    rw [longestFrom]
    split
    · exact ⟨le_rfl, le_max_left _ _, fun k hk _ _ => by omega⟩
    · dsimp only
      split
      · exact ⟨by omega, le_max_right _ _, fun k hk _ _ => hk⟩
      · rename_i hno
        refine ⟨hle, by omega, fun k hk hpos hsame => ?_⟩
        obtain hk | rfl := Nat.lt_succ_iff_lt_or_eq.mp (Nat.lt_succ_of_le hk)
        · exact hlongest k (by omega) hpos hsame
        · have hfirst := congrArg (·[0]?) hsame
          simp only [List.getElem?_drop, List.getElem?_take] at hfirst
          exact absurd ⟨by simpa using hfirst, hsame⟩ hno

theorem foldl_retain (value : Bytes) (secrets : List Secret) (hretained : retained ≤ value.length) :
    retained ≤ secrets.foldl (retain value) retained ∧
      secrets.foldl (retain value) retained ≤ value.length ∧
      ∀ secret ∈ secrets, ∀ k < secret.val.length, k ≤ value.length →
        value.drop (value.length - k) = secret.val.take k →
          k ≤ secrets.foldl (retain value) retained := by
  induction secrets generalizing retained with
  | nil => exact ⟨le_rfl, hretained, by simp⟩
  | cons secret secrets ih =>
    obtain ⟨hle, hmax, hlongest⟩ :=
      longestFrom_spec value secret.val retained (min value.length (secret.val.length - 1))
    have hstep : retain value retained secret ≤ value.length := by
      unfold retain
      omega
    obtain ⟨hge, hvalue, hrest⟩ := ih hstep
    rw [List.foldl_cons]
    refine ⟨hle.trans hge, hvalue, fun other hother k hk hkvalue hsame => ?_⟩
    obtain rfl | hother := List.mem_cons.mp hother
    · obtain rfl | hpos := Nat.eq_zero_or_pos k
      · exact Nat.zero_le _
      · exact (hlongest k (by omega) hpos hsame).trans hge
    · exact hrest other hother k hk hkvalue hsame

/-! ## A push -/

theorem length_drop_firstMatch {secret : Secret}
    (h : firstMatch secrets pending = some (secret, i)) :
    (pending.drop (i + secret.val.length)).length < pending.length := by
  have hpos := List.length_pos_iff.mpr secret.property
  have := le_length_of_isPrefix_drop (firstMatch_eq_some h).2.1
  rw [List.length_drop]
  omega

/-- `push`'s loop: every complete secret in `pending` is replaced.  Returns the output and what
is left of `pending`. -/
def replaceMatches (secrets : List Secret) (pending : Bytes) : List Bytes × Bytes :=
  match _h : firstMatch secrets pending with
  | none => ([], pending)
  | some (secret, index) =>
    let before := if index > 0 then [pending.take index] else []
    let rest := replaceMatches secrets (pending.drop (index + secret.val.length))
    (before ++ replacement :: rest.1, rest.2)
termination_by pending.length
decreasing_by exact length_drop_firstMatch ‹_›

namespace StreamingSecretRedactor

/-- The constructor. -/
def new (values : List JsString) : StreamingSecretRedactor := ⟨[], secretsOf values⟩

def push (redactor : StreamingSecretRedactor) (chunk : Bytes) :
    List Bytes × StreamingSecretRedactor :=
  if redactor.secrets.length = 0 then ([chunk], redactor)
  else
    let (output, pending) := replaceMatches redactor.secrets (redactor.pending ++ chunk)
    let flushLength := pending.length - longestSecretPrefixSuffix pending redactor.secrets
    (output ++ (if flushLength > 0 then [pending.take flushLength] else []),
      { redactor with pending := pending.drop flushLength })

def finish (redactor : StreamingSecretRedactor) : List Bytes × StreamingSecretRedactor :=
  if redactor.pending.length = 0 then ([], redactor)
  else ([redactor.pending], { redactor with pending := [] })

/-- What a redactor makes of the chunks of a stream, put together. -/
def redact (redactor : StreamingSecretRedactor) (stream : List Bytes) : Bytes :=
  let (output, redactor) := chunks push redactor stream
  (output ++ redactor.finish.1).flatten

end StreamingSecretRedactor

/-! ## Against the pass over the whole stream -/

/-- The octets of the secrets. -/
def wordsOf (secrets : List Secret) : List Bytes := secrets.map (·.val)

/-- No secret occurs in another before its end. -/
def OnlyAtEnds (secrets : List Secret) : Prop :=
  ∀ s ∈ secrets, ∀ t ∈ secrets, ∀ u v, t.val = u ++ s.val ++ v → v = []

theorem mem_wordsOf (h : secret ∈ secrets) : secret.val ∈ wordsOf secrets := List.mem_map_of_mem h

/-- Where no secret starts. -/
theorem noStart_wordsOf : NoStart (wordsOf secrets) text ↔ ∀ s ∈ secrets, ¬s.val <+: text := by
  constructor
  · exact fun h s hs hstart => s.property (h s.val (mem_wordsOf hs) hstart)
  · intro h w hw hstart
    obtain ⟨s, hs, rfl⟩ := List.mem_map.mp hw
    exact absurd hstart (h s hs)

/-- An octet run that is only put out when there is something in it. -/
theorem flatten_take (n : Nat) (value : Bytes) :
    (if n > 0 then [value.take n] else []).flatten = value.take n := by
  split
  · simp
  · simp [show n = 0 by omega]

theorem isPrefix_append_cases {w a b : Bytes} (h : w <+: a ++ b) :
    w <+: a ∨ ∃ v, v ≠ [] ∧ w = a ++ v := by
  obtain ⟨r, hr⟩ := h
  obtain ⟨t, ht, -⟩ | ⟨v, hv, -⟩ := List.append_eq_append_iff.mp hr
  · exact .inl ⟨t, ht.symm⟩
  · by_cases hne : v = []
    · exact .inl (by simp [hv, hne])
    · exact .inr ⟨v, hne, hv⟩

/-- A word at its place, with what stands before and behind it. -/
theorem drop_eq_of_isPrefix {text : Bytes} (hji : j ≤ i) (h : w <+: text.drop i) :
    text.drop j = (text.drop j).take (i - j) ++ (w ++ text.drop (i + w.length)) := by
  calc text.drop j
      = (text.drop j).take (i - j) ++ (text.drop j).drop (i - j) :=
        (List.take_append_drop _ _).symm
    _ = (text.drop j).take (i - j) ++ text.drop i := by
        rw [List.drop_drop, show j + (i - j) = i by omega]
    _ = _ := by rw [← List.drop_drop, List.prefix_iff_eq_append.mp h]

/-- A secret that starts no later than the next match, in `pending` or going on behind it. -/
theorem noLater_of_starts (h : OnlyAtEnds secrets)
    (hmatch : firstMatch secrets pending = some (secret, index)) (hother : other ∈ secrets)
    (hj : j ≤ index) (hstart : other.val <+: (pending ++ rest).drop j) :
    NoLater (secret, index) (other, j) := by
  obtain ⟨hsecret, hat, hleast⟩ := firstMatch_eq_some hmatch
  have hle := le_length_of_isPrefix_drop hat
  rw [List.drop_append_of_le_length (by omega)] at hstart
  obtain hinside | ⟨v, hv, hbehind⟩ := isPrefix_append_cases hstart
  · exact hleast other hother j hinside
  · -- then `secret` occurs in `other`, ahead of `v`
    rw [drop_eq_of_isPrefix hj hat, List.append_assoc, List.append_assoc,
      ← List.append_assoc] at hbehind
    exact absurd (List.append_eq_nil_iff.mp (h secret hsecret other hother _ _ hbehind)).2 hv

theorem replaceAll_replaceMatches {secrets : List Secret} (h : OnlyAtEnds secrets)
    (pending rest : Bytes) :
    replaceAll (wordsOf secrets) replacement (pending ++ rest) =
      (replaceMatches secrets pending).1.flatten ++
        replaceAll (wordsOf secrets) replacement ((replaceMatches secrets pending).2 ++ rest) := by
  fun_induction replaceMatches secrets pending with
  | case1 pending => rfl
  | case2 pending secret index hmatch before after ih =>
    obtain ⟨hsecret, hat, -⟩ := firstMatch_eq_some hmatch
    have hle := le_length_of_isPrefix_drop hat
    have hsplit : pending ++ rest = pending.take index ++
        (secret.val ++ (pending.drop (index + secret.val.length) ++ rest)) := by
      conv_lhs => rw [show pending = pending.drop 0 from rfl,
        drop_eq_of_isPrefix (Nat.zero_le index) hat]
      simp
    have hcopied : ∀ i < (pending.take index).length,
        NoStart (wordsOf secrets) ((pending ++ rest).drop i) := by
      intro i hi
      rw [List.length_take] at hi
      refine noStart_wordsOf.mpr fun other hother hstart => ?_
      have := noLater_of_starts h hmatch hother (by omega) hstart
      unfold NoLater at this
      simp only at this
      omega
    have hmost : ∀ v ∈ wordsOf secrets,
        v <+: secret.val ++ (pending.drop (index + secret.val.length) ++ rest) →
          v.length ≤ secret.val.length := by
      intro v hv hstart
      obtain ⟨other, hother, rfl⟩ := List.mem_map.mp hv
      have hdrop : (pending ++ rest).drop index =
          secret.val ++ (pending.drop (index + secret.val.length) ++ rest) := by
        rw [hsplit, List.drop_left' (by simp; omega)]
      have := noLater_of_starts h hmatch hother le_rfl (hdrop ▸ hstart)
      unfold NoLater at this
      simp only at this
      omega
    have hbefore : before.flatten = pending.take index := flatten_take index pending
    rw [hsplit] at hcopied ⊢
    rw [replaceAll_append hcopied,
      replaceAll_longest secret.property (mem_wordsOf hsecret) hmost, ih]
    simp [hbefore]
    rfl

theorem replaceMatches_clear {secrets : List Secret} {pending : Bytes} {secret : Secret}
    (hsecret : secret ∈ secrets) (j : Nat) :
    ¬secret.val <+: (replaceMatches secrets pending).2.drop j := by
  fun_induction replaceMatches secrets pending with
  | case1 pending hnone => exact firstMatch_eq_none hnone hsecret j
  | case2 pending secret index hmatch before after ih => exact ih

/-- What is flushed belongs to no secret, whatever follows. -/
theorem replaceAll_flush (hclear : ∀ secret ∈ secrets, ∀ j, ¬secret.val <+: pending.drop j)
    (rest : Bytes) : let flushLength := pending.length - longestSecretPrefixSuffix pending secrets
    replaceAll (wordsOf secrets) replacement (pending ++ rest) =
      pending.take flushLength ++
        replaceAll (wordsOf secrets) replacement (pending.drop flushLength ++ rest) := by
  intro flushLength
  obtain ⟨-, hle, hlongest⟩ := foldl_retain pending secrets (Nat.zero_le pending.length)
  have hsplit : pending ++ rest =
      pending.take flushLength ++ (pending.drop flushLength ++ rest) := by
    rw [← List.append_assoc, List.take_append_drop]
  rw [hsplit]
  refine replaceAll_append fun i hi => ?_
  rw [List.length_take] at hi
  rw [← hsplit, List.drop_append_of_le_length (by omega)]
  refine noStart_wordsOf.mpr fun secret hsecret hstart => ?_
  obtain hinside | ⟨v, hv, hbehind⟩ := isPrefix_append_cases hstart
  · exact hclear secret hsecret i hinside
  · have hlength := congrArg List.length hbehind
    have hpos := List.length_pos_iff.mpr hv
    rw [List.length_append, List.length_drop] at hlength
    have := hlongest secret hsecret (pending.length - i) (by omega) (by omega) (by
      rw [hbehind, show pending.length - (pending.length - i) = i by omega]
      exact (List.take_left' (by rw [List.length_drop])).symm)
    have hdef : flushLength = pending.length - secrets.foldl (retain pending) 0 := rfl
    omega

namespace StreamingSecretRedactor

/-- No complete secret is held back, and nothing if there are no secrets. -/
structure Settled (redactor : StreamingSecretRedactor) : Prop where
  clear : ∀ secret ∈ redactor.secrets, ∀ j, ¬secret.val <+: redactor.pending.drop j
  idle : redactor.secrets = [] → redactor.pending = []

theorem settled_new (values : List JsString) : (new values).Settled :=
  ⟨fun secret _ j h => secret.property (by simpa [new] using h), fun _ => rfl⟩

@[simp] theorem push_secrets (redactor : StreamingSecretRedactor) (chunk : Bytes) :
    (redactor.push chunk).2.secrets = redactor.secrets := by
  unfold push
  split <;> rfl

variable {redactor : StreamingSecretRedactor}

theorem push_of_ne_nil (h : redactor.secrets ≠ []) (chunk : Bytes) : redactor.push chunk =
      let left := replaceMatches redactor.secrets (redactor.pending ++ chunk)
      let flushLength := left.2.length - longestSecretPrefixSuffix left.2 redactor.secrets
      (left.1 ++ (if flushLength > 0 then [left.2.take flushLength] else []),
        { redactor with pending := left.2.drop flushLength }) := by
  rw [push, if_neg (by simpa using h)]

theorem Settled.push (h : redactor.Settled) (chunk : Bytes) : (redactor.push chunk).2.Settled := by
  unfold StreamingSecretRedactor.push
  split
  · exact h
  · rename_i hne
    refine ⟨fun secret hsecret j hstart => ?_, fun hnil => absurd hnil (by simpa using hne)⟩
    rw [List.drop_drop] at hstart
    exact replaceMatches_clear hsecret _ hstart

/-- What a push does: the pass over the held back octets, the chunk and whatever follows. -/
theorem replaceAll_push (hends : OnlyAtEnds redactor.secrets) (h : redactor.Settled)
    (chunk rest : Bytes) :
    replaceAll (wordsOf redactor.secrets) replacement (redactor.pending ++ (chunk ++ rest)) =
      (redactor.push chunk).1.flatten ++ replaceAll (wordsOf redactor.secrets) replacement
        ((redactor.push chunk).2.pending ++ rest) := by
  by_cases hnone : redactor.secrets = []
  · have hpush : redactor.push chunk = ([chunk], redactor) := by
      rw [StreamingSecretRedactor.push, if_pos (by simp [hnone])]
    rw [hpush, h.idle hnone]
    have := @replaceAll_append _ _ (wordsOf redactor.secrets) replacement chunk rest fun i _ => by
      simp [hnone, wordsOf, NoStart]
    simpa using this
  · have hclear := fun secret hsecret => @replaceMatches_clear redactor.secrets
      (redactor.pending ++ chunk) secret hsecret
    rw [← List.append_assoc, replaceAll_replaceMatches hends, replaceAll_flush hclear rest,
      push_of_ne_nil hnone, List.flatten_append, flatten_take, List.append_assoc]

theorem finish_flatten (redactor : StreamingSecretRedactor) :
    redactor.finish.1.flatten = redactor.pending := by
  unfold finish
  split
  · rename_i h
    simp [List.length_eq_zero_iff.mp h]
  · simp

theorem chunks_push (hends : OnlyAtEnds redactor.secrets) (h : redactor.Settled)
    (stream : List Bytes) : redactor.redact stream =
      replaceAll (wordsOf redactor.secrets) replacement (redactor.pending ++ stream.flatten) := by
  induction stream generalizing redactor with
  | nil =>
    have hclear : ∀ i < redactor.pending.length,
        NoStart (wordsOf redactor.secrets) (redactor.pending.drop i) := fun i _ =>
      noStart_wordsOf.mpr fun secret hsecret => h.clear secret hsecret i
    simp [redact, chunks, finish_flatten, replaceAll_of_noStart hclear]
  | cons chunk stream ih =>
    have hrest := @ih (redactor.push chunk).2 (by simpa using hends) (h.push chunk)
    rw [push_secrets] at hrest
    rw [List.flatten_cons, replaceAll_push hends h, ← hrest]
    simp [redact, chunks]

/-! ## Where the pass differs -/

theorem redact_cons (redactor : StreamingSecretRedactor) (chunk : Bytes) (stream : List Bytes) :
    redactor.redact (chunk :: stream) =
      (redactor.push chunk).1.flatten ++ (redactor.push chunk).2.redact stream := by
  simp [redact, chunks]

theorem redact_singleton (h : redactor.secrets ≠ []) (chunk : Bytes) :
    let left := replaceMatches redactor.secrets (redactor.pending ++ chunk)
    redactor.redact [chunk] = left.1.flatten ++ left.2 := by
  intro left
  rw [redact_cons, push_of_ne_nil h, List.flatten_append, flatten_take]
  simp [redact, chunks, finish_flatten, left]

theorem replacement_length_pos : 0 < replacement.length := by decide

/-- Octets that come in make some go out, sooner or later. -/
theorem redact_ne_nil (h : redactor.secrets ≠ []) (hchunk : chunk ≠ []) :
    0 < (redactor.redact [chunk]).length := by
  rw [redact_singleton h, replaceMatches]
  split
  · have := List.length_pos_iff.mpr hchunk
    simp only [List.flatten_nil, List.nil_append, List.length_append]
    omega
  · have := replacement_length_pos
    simp only [List.flatten_append, List.flatten_cons, List.length_append]
    omega

/-- A secret that comes in complete is replaced at once, whatever it goes on with. -/
theorem length_push {redactor : StreamingSecretRedactor} {secret : Secret}
    (hsecret : secret ∈ redactor.secrets) {chunk : Bytes} {j : Nat}
    (h : secret.val <+: (redactor.pending ++ chunk).drop j) :
    replacement.length ≤ (redactor.push chunk).1.flatten.length := by
  rw [push_of_ne_nil (List.ne_nil_of_mem hsecret), replaceMatches]
  split
  · rename_i hnone
    exact absurd h (firstMatch_eq_none hnone hsecret j)
  · simp only [List.flatten_append, List.flatten_cons, List.length_append]
    omega

/-- A redactor agrees with the pass over the whole of every stream, however it is cut into
chunks, if and only if none of its secrets occurs in another before its end. -/
theorem redact_eq_replaceAll_iff (values : List JsString) :
    (∀ stream, (new values).redact stream =
      replaceAll (wordsOf (secretsOf values)) replacement stream.flatten) ↔
      OnlyAtEnds (secretsOf values) := by
  constructor
  · intro hall s hs t ht u v hsplit
    by_contra hv
    -- `t` in two chunks, the first of which ends with `s`
    have hpass : replaceAll (wordsOf (secretsOf values)) replacement [u ++ s.val, v].flatten =
        replacement := by
      rw [show [u ++ s.val, v].flatten = t.val by simp [hsplit]]
      exact replaceAll_word t.property (mem_wordsOf ht)
    have hlength := congrArg List.length ((hall [u ++ s.val, v]).trans hpass)
    have hfirst : replacement.length ≤ ((new values).push (u ++ s.val)).1.flatten.length :=
      @length_push _ s hs _ u.length (by simp [new])
    have hrest : 0 < (((new values).push (u ++ s.val)).2.redact [v]).length :=
      redact_ne_nil (by rw [push_secrets]; exact List.ne_nil_of_mem hs) hv
    rw [redact_cons, List.length_append] at hlength
    omega
  · exact fun hends stream => chunks_push hends (settled_new values) stream

/-- With the secrets "ab" and "abc", the stream "abc" leaks its end when it comes in two
chunks. -/
theorem redact_leaks_end :
    ¬∀ (values : List JsString) (stream : List Bytes), (new values).redact stream =
      replaceAll (wordsOf (secretsOf values)) replacement stream.flatten := by
  intro h
  have := h [js "ab", js "abc"] [bufferFrom (js "ab"), bufferFrom (js "c")]
  revert this
  decide +kernel

end StreamingSecretRedactor

end StonePlus.Streaming
