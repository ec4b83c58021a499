import StonePlus.FrameGuard.Guards
import StonePlus.Lib.Except
import StonePlus.Streaming.JsonFramer

/-!
# StonePlus.FrameGuard.Json

What the guard of JSON counts, against the pieces of a stream: its values, what stands between
them, and what follows its root.

A value ends where `JsonFramer` finds the closing bracket (`valueEndBy_container`), at the closing
quote, or at what ends a scalar.  On values that are small enough the guard throws exactly for a
long gap (`accepts_iff_gaps`).  The bytes between two values contain a comma, so a gap may be
longer than its white space.
-/

namespace StonePlus.FrameGuard

open Streaming

/-! ## Pieces -/

/-- The bytes as code units: the text of ASCII bytes. -/
def units (bytes : Bytes) : JsString := bytes.map UInt8.toUInt16

/-- White space or a comma. -/
def isGapByte (byte : UInt8) : Bool := isAsciiWhitespaceByte byte || byte == 0x2C

/-- How many bytes a reader takes until it stops. -/
def valueEndBy {σ : Type} (step : σ → UInt8 → Option σ) (s : σ) : Bytes → Option Nat
  | [] => none
  | byte :: rest =>
    match step s byte with
    | none => some 1
    | some s => (valueEndBy step s rest).map (· + 1)

/-- A byte of a string behind its first quote; the state is whether it is escaped. -/
def stringStep (escaped : Bool) (byte : UInt8) : Option Bool :=
  if escaped then some false
  else if byte = 0x5C then some true
  else if byte = 0x22 then none
  else some false

/-- A scalar takes the white space or the comma behind it, but not a closing bracket. -/
def scalarEnd : Bytes → Option Nat
  | [] => none
  | byte :: rest =>
    if isGapByte byte then some 1
    else if byte = 0x5D then some 0
    else (scalarEnd rest).map (· + 1)

/-- The length of the value at the front of a stream, behind its first byte. -/
def valueEnd (first : UInt8) (rest : Bytes) : Option Nat :=
  if first = 0x7B ∨ first = 0x5B then
    valueEndBy (fun (s : Nesting) byte => s.step byte.toUInt16) { depth := 1 } rest
  else if first = 0x22 then valueEndBy stringStep false rest
  else scalarEnd rest

/-- A stream cut into pieces.  A value includes its delimiters; the last one may be unfinished. -/
structure JsonPieces where
  gaps : List Bytes
  values : List Bytes := []
  unfinished : Bytes := []
  behind : Bytes := []
  deriving DecidableEq

/-- A gap, perhaps a value, and more. -/
def JsonPieces.after (gap : Bytes) (values : List Bytes) (more : JsonPieces) : JsonPieces :=
  { more with gaps := gap :: more.gaps, values := values ++ more.values }

/-- The pieces behind the opening bracket of an array. -/
def arrayPieces (stream : Bytes) : JsonPieces :=
  let gap := stream.takeWhile isGapByte
  match h : stream.dropWhile isGapByte with
  | [] => { gaps := [gap] }
  | first :: rest =>
    if first = 0x5D then { gaps := [gap], behind := rest }
    else
      match valueEnd first rest with
      | none => { gaps := [gap], unfinished := first :: rest }
      | some n => (arrayPieces (rest.drop n)).after gap [first :: rest.take n]
termination_by stream.length
decreasing_by
  have := (List.dropWhile_sublist isGapByte (l := stream)).length_le
  rw [h, List.length_cons] at this
  rw [List.length_drop]
  omega

/-- The pieces of a stream that is an array or an object. -/
def jsonPieces (stream : Bytes) : JsonPieces :=
  let gap := stream.takeWhile isJsonPrefixByte
  match stream.dropWhile isJsonPrefixByte with
  | [] => { gaps := [gap] }
  | first :: rest =>
    if first = 0x5B then (arrayPieces rest).after gap []
    else
      match valueEnd first rest with
      | none => { gaps := [gap], unfinished := first :: rest }
      | some n => { gaps := [gap], values := [first :: rest.take n], behind := rest.drop n }

/-- Every value is small enough, so is the white space between them, and nothing but white space
follows the root. -/
structure JsonPieces.Within (maxFrameBytes : Nat) (p : JsonPieces) : Prop where
  values : ∀ value ∈ p.values, value.length ≤ maxFrameBytes
  unfinished : p.unfinished.length ≤ maxFrameBytes
  whitespace : ∀ gap ∈ p.gaps, (gap.filter fun byte => byte != 0x2C).length ≤ maxFrameBytes
  behind : p.behind.all isAsciiWhitespaceByte

/-- Every gap is small enough with its commas. -/
def JsonPieces.GapsWithin (maxFrameBytes : Nat) (p : JsonPieces) : Prop :=
  ∀ gap ∈ p.gaps, gap.length ≤ maxFrameBytes

/-! ## Gaps -/

namespace JsonStreamFrameGuard

/-- The guard reads bytes without throwing. -/
def Accepts (limits : Limits) (g : JsonStreamFrameGuard) (bytes : Bytes) : Prop :=
  ∃ g', g.push limits bytes = .ok g'

variable {limits : Limits} {g g' : JsonStreamFrameGuard}

theorem accepts_nil : g.Accepts limits [] := ⟨g, rfl⟩

theorem accepts_cons {byte : UInt8} (h : g.pushByte limits byte = .ok g') :
    g.Accepts limits (byte :: rest) ↔ g'.Accepts limits rest := by
  unfold Accepts push
  rw [List.foldlM_cons, h]
  rfl

theorem not_accepts_cons {byte : UInt8} (h : g.pushByte limits byte = .error e) :
    ¬ g.Accepts limits (byte :: rest) := by
  unfold Accepts push
  rw [List.foldlM_cons, h]
  rintro ⟨g', ⟨⟩⟩

/-- Bytes the guard counts as interstitial. -/
theorem accepts_gap {gap : Bytes} (rest : Bytes)
    (hgap : ∀ byte ∈ gap, ∀ n, { g with interstitialBytes := n }.pushByte limits byte =
      { g with interstitialBytes := n }.countInterstitial limits) (n : Nat) :
    { g with interstitialBytes := n }.Accepts limits (gap ++ rest) ↔
      (gap = [] ∨ n + gap.length ≤ limits.maxFrameBytes) ∧
        { g with interstitialBytes := n + gap.length }.Accepts limits rest := by
  induction gap generalizing n with
  | nil => simp
  | cons byte gap ih =>
      have hbyte := hgap byte List.mem_cons_self n
      have ih := ih (fun b hb => hgap b (List.mem_cons_of_mem _ hb)) (n + 1)
      unfold countInterstitial at hbyte
      rw [List.cons_append, List.length_cons]
      by_cases hover : limits.maxFrameBytes < n + 1
      · rw [if_pos hover] at hbyte
        have hlong : ¬ n + (gap.length + 1) ≤ limits.maxFrameBytes := by omega
        simp [not_accepts_cons hbyte, hlong]
      · rw [if_neg hover] at hbyte
        rw [accepts_cons hbyte, ih, show n + 1 + gap.length = n + (gap.length + 1) by omega]
        refine and_congr_left fun _ => ?_
        cases gap with
        | nil => simpa using hover
        | cons => simp

/-! ## Values -/

/-- Behind a value: an array goes on, a single root is complete. -/
def finished (root : JsonRoot) : JsonStreamFrameGuard :=
  { root := some root, rootComplete := root == .single }

/-- In an object or an array, of which so many bytes have been counted. -/
def inContainer (root : JsonRoot) (valueBytes : Nat) (s : Nesting) : JsonStreamFrameGuard :=
  { root := some root, valueKind := some .container, valueBytes, depth := s.depth,
    inString := s.inString, escaped := s.escaped }

/-- In a string of an array. -/
def inQuotes (valueBytes : Nat) (escaped : Bool) : JsonStreamFrameGuard :=
  { root := some .array, valueKind := some .string, valueBytes, escaped }

/-- In a scalar of an array. -/
def inScalar (valueBytes : Nat) : JsonStreamFrameGuard :=
  { root := some .array, valueKind := some .scalar, valueBytes }

theorem toUInt16_eq_iff {byte literal : UInt8} :
    byte.toUInt16 = literal.toUInt16 ↔ byte = literal := UInt8.toUInt16_inj

/-- A byte of a container moves the guard as it moves the framer. -/
theorem containerByte_inContainer (root : JsonRoot) (k : Nat) (s : Nesting) (byte : UInt8) :
    (inContainer root k s).containerByte byte =
      (s.step byte.toUInt16).elim (finished root) (inContainer root k) := by
  have h5c : byte.toUInt16 = 0x5C ↔ byte = 0x5C := @toUInt16_eq_iff byte 0x5C
  have h22 : byte.toUInt16 = 0x22 ↔ byte = 0x22 := @toUInt16_eq_iff byte 0x22
  have h7b : byte.toUInt16 = 0x7B ↔ byte = 0x7B := @toUInt16_eq_iff byte 0x7B
  have h5b : byte.toUInt16 = 0x5B ↔ byte = 0x5B := @toUInt16_eq_iff byte 0x5B
  have h7d : byte.toUInt16 = 0x7D ↔ byte = 0x7D := @toUInt16_eq_iff byte 0x7D
  have h5d : byte.toUInt16 = 0x5D ↔ byte = 0x5D := @toUInt16_eq_iff byte 0x5D
  simp only [Nesting.step, h5c, h22, h7b, h5b, h7d, h5d]
  unfold containerByte inContainer
  simp only [Bool.or_eq_true, beq_iff_eq]
  split_ifs <;> simp_all [finished, finishValue]

/-- The states of a guard in a value that ends with a byte of its own: each byte is counted, and
moves the reader of the value. -/
def Reads {σ : Type} (limits : Limits) (root : JsonRoot) (step : σ → UInt8 → Option σ)
    (state : Nat → σ → JsonStreamFrameGuard) : Prop :=
  ∀ k s byte, (state k s).pushByte limits byte =
    if limits.maxFrameBytes < k + 1 then .error limits.fail
    else .ok ((step s byte).elim (finished root) (state (k + 1)))

theorem reads_container (root : JsonRoot) :
    Reads limits root (fun (s : Nesting) byte => s.step byte.toUInt16) (inContainer root) := by
  intro k s byte
  beta_reduce
  rw [← containerByte_inContainer root (k + 1) s byte]
  unfold pushByte valueByte
  cases root <;> simp only [inContainer] <;> rfl

theorem stringByte_inQuotes (k : Nat) (escaped : Bool) (byte : UInt8) :
    (inQuotes k escaped).stringByte byte =
      (stringStep escaped byte).elim (finished .array) (inQuotes k) := by
  unfold stringByte stringStep inQuotes
  simp only [beq_iff_eq]
  split_ifs <;> simp_all [finished, finishValue]

theorem reads_quotes : Reads limits .array stringStep inQuotes := by
  intro k escaped byte
  rw [← stringByte_inQuotes (k + 1) escaped byte]
  rfl

section

variable {σ : Type} {root : JsonRoot} {step : σ → UInt8 → Option σ}
  {state : Nat → σ → JsonStreamFrameGuard}

/-- A value that ends is read if it is small enough. -/
theorem accepts_of_valueEndBy (hreads : Reads limits root step state)
    (h : valueEndBy step s bytes = some n) : (state k s).Accepts limits bytes ↔
      k + n ≤ limits.maxFrameBytes ∧ (finished root).Accepts limits (bytes.drop n) := by
  induction bytes generalizing k s n with
  | nil => cases h
  | cons byte rest ih =>
      have hbyte := hreads k s byte
      rw [valueEndBy] at h
      by_cases hover : limits.maxFrameBytes < k + 1
      · rw [if_pos hover] at hbyte
        have hpos : 0 < n := by
          cases hstep : step s byte with
          | none =>
              rw [hstep] at h
              cases h
              exact Nat.one_pos
          | some s' =>
              rw [hstep] at h
              obtain ⟨m, -, rfl⟩ := Option.map_eq_some_iff.mp h
              exact Nat.succ_pos m
        refine iff_of_false (not_accepts_cons hbyte) fun hfits => ?_
        omega
      · rw [if_neg hover] at hbyte
        rw [accepts_cons hbyte]
        cases hstep : step s byte with
        | none =>
            rw [hstep] at h
            cases h
            rw [Option.elim_none]
            have hfits : k + 1 ≤ limits.maxFrameBytes := by omega
            simp [hfits]
        | some s' =>
            rw [hstep] at h
            obtain ⟨m, hm, rfl⟩ := Option.map_eq_some_iff.mp h
            rw [Option.elim_some, ih hm, show k + 1 + m = k + (m + 1) by omega, List.drop_succ_cons]

/-- A value that does not end is read as long as it is small enough. -/
theorem accepts_of_valueEndBy_none (hreads : Reads limits root step state) {bytes : Bytes}
    (h : valueEndBy step s bytes = none) : (state k s).Accepts limits bytes ↔
      bytes = [] ∨ k + bytes.length ≤ limits.maxFrameBytes := by
  induction bytes generalizing k s with
  | nil => simp [accepts_nil]
  | cons byte rest ih =>
      have hbyte := hreads k s byte
      rw [valueEndBy] at h
      by_cases hover : limits.maxFrameBytes < k + 1
      · rw [if_pos hover] at hbyte
        refine iff_of_false (not_accepts_cons hbyte) ?_
        rw [List.length_cons]
        rintro (h | h)
        · cases h
        · omega
      · rw [if_neg hover] at hbyte
        rw [accepts_cons hbyte]
        cases hstep : step s byte with
        | none =>
            rw [hstep] at h
            cases h
        | some s' =>
            rw [hstep] at h
            rw [Option.elim_some, ih (Option.map_eq_none_iff.mp h), List.length_cons,
              show k + 1 + rest.length = k + (rest.length + 1) by omega]
            cases rest with
            | nil => simp; omega
            | cons => simp

end

theorem pushByte_inScalar (k : Nat) (byte : UInt8) :
    (inScalar k).pushByte limits byte =
      if isGapByte byte then .ok (finished .array)
      else if byte = 0x5D then .ok { finished .array with rootComplete := true }
      else if limits.maxFrameBytes < k + 1 then .error limits.fail
      else .ok (inScalar (k + 1)) := by
  unfold pushByte valueByte endsScalar inScalar isGapByte
  by_cases hgap : (isAsciiWhitespaceByte byte || byte == 0x2C) = true
  · have hbracket : byte ≠ 0x5D := by
      rintro rfl
      cases hgap
    simp [hgap, hbracket, finishValue, finished]
  · by_cases hbracket : byte = 0x5D
    · subst hbracket
      rfl
    · simp [hgap, hbracket]

/-- Behind a value of an array. -/
theorem pushByte_between (n : Nat) (byte : UInt8) :
    { finished .array with interstitialBytes := n }.pushByte limits byte =
      if isGapByte byte then { finished .array with interstitialBytes := n }.countInterstitial limits
      else if byte == 0x5D then
        .ok { finished .array with rootComplete := true, interstitialBytes := n }
      else .ok ((finished .array).startValue byte) := rfl

theorem accepts_of_scalarEnd {bytes : Bytes} (h : scalarEnd bytes = some n) :
    (k + n ≤ limits.maxFrameBytes → (finished .array).Accepts limits (bytes.drop n) →
        (inScalar k).Accepts limits bytes) ∧
      ((inScalar k).Accepts limits bytes → (finished .array).Accepts limits (bytes.drop n)) := by
  induction bytes generalizing n k with
  | nil => cases h
  | cons byte rest ih =>
      have hbyte := @pushByte_inScalar limits k byte
      rw [scalarEnd] at h
      by_cases hgap : isGapByte byte = true
      · rw [if_pos hgap] at h hbyte
        cases h
        rw [accepts_cons hbyte]
        exact ⟨fun _ => id, id⟩
      rw [if_neg hgap] at h hbyte
      by_cases hbracket : byte = 0x5D
      · rw [if_pos hbracket] at h hbyte
        cases h
        subst hbracket
        rw [List.drop_zero, accepts_cons hbyte,
          accepts_cons (show (finished .array).pushByte limits 0x5D = _ from pushByte_between 0 _)]
        exact ⟨fun _ => id, id⟩
      rw [if_neg hbracket] at h hbyte
      obtain ⟨m, hm, rfl⟩ := Option.map_eq_some_iff.mp h
      by_cases hover : limits.maxFrameBytes < k + 1
      · rw [if_pos hover] at hbyte
        exact ⟨fun hfits => by omega, fun haccepts => absurd haccepts (not_accepts_cons hbyte)⟩
      · rw [if_neg hover] at hbyte
        rw [accepts_cons hbyte, List.drop_succ_cons]
        obtain ⟨hread, hrest⟩ := @ih m (k + 1) hm
        exact ⟨fun hfits => hread (by omega), hrest⟩

theorem accepts_of_scalarEnd_none {bytes : Bytes} (h : scalarEnd bytes = none) :
    (inScalar k).Accepts limits bytes ↔
      bytes = [] ∨ k + bytes.length ≤ limits.maxFrameBytes := by
  induction bytes generalizing k with
  | nil => simp [accepts_nil]
  | cons byte rest ih =>
      have hbyte := @pushByte_inScalar limits k byte
      rw [scalarEnd] at h
      split_ifs at h with hgap hbracket
      rw [if_neg hgap, if_neg hbracket] at hbyte
      by_cases hover : limits.maxFrameBytes < k + 1
      · rw [if_pos hover] at hbyte
        refine iff_of_false (not_accepts_cons hbyte) ?_
        rw [List.length_cons]
        rintro (h | h)
        · cases h
        · omega
      · rw [if_neg hover] at hbyte
        rw [accepts_cons hbyte, ih (Option.map_eq_none_iff.mp h), List.length_cons,
          show k + 1 + rest.length = k + (rest.length + 1) by omega]
        cases rest with
        | nil => simp; omega
        | cons => simp

theorem valueEndBy_le {σ : Type} {step : σ → UInt8 → Option σ} {s : σ}
    (h : valueEndBy step s bytes = some n) : n ≤ bytes.length := by
  induction bytes generalizing s n with
  | nil => cases h
  | cons byte rest ih =>
      rw [valueEndBy] at h
      split at h
      · cases h
        simp
      · obtain ⟨m, hm, rfl⟩ := Option.map_eq_some_iff.mp h
        simpa using ih hm

theorem scalarEnd_le {bytes : Bytes} (h : scalarEnd bytes = some n) : n ≤ bytes.length := by
  induction bytes generalizing n with
  | nil => cases h
  | cons byte rest ih =>
      rw [scalarEnd] at h
      split_ifs at h
      · cases h
        simp
      · cases h
        simp
      · obtain ⟨m, hm, rfl⟩ := Option.map_eq_some_iff.mp h
        simpa using ih hm

theorem valueEnd_le {first : UInt8} (h : valueEnd first rest = some n) : n ≤ rest.length := by
  unfold valueEnd at h
  split_ifs at h
  · exact valueEndBy_le h
  · exact valueEndBy_le h
  · exact scalarEnd_le h

/-- A value of an array has its first byte counted, and not compared with the limit. -/
theorem pushByte_first {n : Nat} {first : UInt8} (hgap : isGapByte first = false)
    (hbracket : first ≠ 0x5D) :
    { finished .array with interstitialBytes := n }.pushByte limits first =
      .ok (if first = 0x7B ∨ first = 0x5B then inContainer .array 1 { depth := 1 }
        else if first = 0x22 then inQuotes 1 false
        else inScalar 1) := by
  rw [pushByte_between, hgap, if_neg (by decide), if_neg (by simpa using hbracket), startValue]
  simp only [Bool.or_eq_true, beq_iff_eq]
  split_ifs <;> rfl

theorem accepts_value {n m : Nat} {first : UInt8} {rest : Bytes} (hgap : isGapByte first = false)
    (hbracket : first ≠ 0x5D) (h : valueEnd first rest = some n) :
    (1 + n ≤ limits.maxFrameBytes → (finished .array).Accepts limits (rest.drop n) →
        { finished .array with interstitialBytes := m }.Accepts limits (first :: rest)) ∧
      ({ finished .array with interstitialBytes := m }.Accepts limits (first :: rest) →
        (finished .array).Accepts limits (rest.drop n)) := by
  have hfirst := @pushByte_first limits m first hgap hbracket
  unfold valueEnd at h
  rw [accepts_cons hfirst]
  split_ifs at h ⊢
  · rw [accepts_of_valueEndBy (reads_container .array) h]
    exact ⟨And.intro, And.right⟩
  · rw [accepts_of_valueEndBy reads_quotes h]
    exact ⟨And.intro, And.right⟩
  · exact accepts_of_scalarEnd h

theorem accepts_unfinished {m : Nat} {first : UInt8} {rest : Bytes}
    (hgap : isGapByte first = false) (hbracket : first ≠ 0x5D) (h : valueEnd first rest = none) :
    { finished .array with interstitialBytes := m }.Accepts limits (first :: rest) ↔
      rest = [] ∨ 1 + rest.length ≤ limits.maxFrameBytes := by
  have hfirst := @pushByte_first limits m first hgap hbracket
  unfold valueEnd at h
  rw [accepts_cons hfirst]
  split_ifs at h ⊢
  · exact accepts_of_valueEndBy_none (reads_container .array) h
  · exact accepts_of_valueEndBy_none reads_quotes h
  · exact accepts_of_scalarEnd_none h

/-! ## Arrays -/

/-- A gap of an array. -/
theorem accepts_arrayGap {gap : Bytes} (hgap : ∀ byte ∈ gap, isGapByte byte = true)
    (rest : Bytes) :
    (finished .array).Accepts limits (gap ++ rest) ↔
      gap.length ≤ limits.maxFrameBytes ∧
        { finished .array with interstitialBytes := gap.length }.Accepts limits rest := by
  have hbyte (byte : UInt8) (hmem : byte ∈ gap) (n : Nat) :
      { finished .array with interstitialBytes := n }.pushByte limits byte =
        { finished .array with interstitialBytes := n }.countInterstitial limits := by
    rw [pushByte_between, if_pos (hgap byte hmem)]
  have h := accepts_gap (g := finished .array) rest hbyte 0
  rw [Nat.zero_add] at h
  refine h.trans (and_congr_left fun _ => ⟨?_, .inr⟩)
  rintro (rfl | hle)
  · exact Nat.zero_le _
  · exact hle

/-- What follows the root is not counted as long as it is white space. -/
theorem accepts_behind (hcomplete : g.rootComplete = true) {behind : Bytes}
    (h : behind.all isAsciiWhitespaceByte) : g.Accepts limits behind := by
  induction behind with
  | nil => exact accepts_nil
  | cons byte rest ih =>
      rw [List.all_cons, Bool.and_eq_true] at h
      have hbyte : g.pushByte limits byte = .ok g := by
        rw [pushByte, if_pos hcomplete, if_pos h.1]
      exact (accepts_cons hbyte).mpr (ih h.2)

/-- The gap at the front of what is left of an array, and what follows it. -/
theorem accepts_arrayGap_dropWhile (stream : Bytes) :
    (finished .array).Accepts limits stream ↔
      (stream.takeWhile isGapByte).length ≤ limits.maxFrameBytes ∧
        { finished .array with
          interstitialBytes := (stream.takeWhile isGapByte).length }.Accepts limits
          (stream.dropWhile isGapByte) := by
  have h := @accepts_arrayGap limits (stream.takeWhile isGapByte)
    (fun _ hmem => List.mem_takeWhile_imp hmem) (stream.dropWhile isGapByte)
  rwa [List.takeWhile_append_dropWhile] at h

theorem isGapByte_of_dropWhile {stream : Bytes} (h : stream.dropWhile isGapByte = first :: rest) :
    isGapByte first = false := by
  have hhead := List.head_dropWhile_not isGapByte (l := stream) (by simp [h])
  simpa [h] using hhead

/-- The bracket behind a gap completes the array. -/
theorem accepts_bracket {n : Nat} {behind : Bytes} :
    { finished .array with interstitialBytes := n }.Accepts limits (0x5D :: behind) ↔
      { finished .array with rootComplete := true, interstitialBytes := n }.Accepts limits
        behind :=
  accepts_cons (pushByte_between n 0x5D)

/-- An array of small values is read as long as its gaps are small. -/
theorem accepts_array_iff {stream : Bytes}
    (hwithin : (arrayPieces stream).Within limits.maxFrameBytes) :
    (finished .array).Accepts limits stream ↔
      (arrayPieces stream).GapsWithin limits.maxFrameBytes := by
  fun_induction arrayPieces stream with
  | case1 stream gap hrest =>
      rw [accepts_arrayGap_dropWhile, hrest]
      simp [JsonPieces.GapsWithin, accepts_nil, gap]
  | case2 stream gap rest hrest =>
      have hbehind := @accepts_behind limits
        { finished .array with rootComplete := true, interstitialBytes := gap.length } rfl rest
        hwithin.behind
      rw [accepts_arrayGap_dropWhile, hrest, accepts_bracket]
      simp [JsonPieces.GapsWithin, hbehind, gap]
  | case3 stream gap first rest hrest hbracket hend =>
      have hfits := hwithin.unfinished
      rw [List.length_cons, Nat.add_comm] at hfits
      rw [accepts_arrayGap_dropWhile, hrest,
        accepts_unfinished (isGapByte_of_dropWhile hrest) hbracket hend]
      simp [JsonPieces.GapsWithin, hfits, gap]
  | case4 stream gap first rest hrest hbracket n hend ih =>
      have hmore : (arrayPieces (rest.drop n)).Within limits.maxFrameBytes :=
        ⟨fun value hvalue => hwithin.values value (List.mem_append_right _ hvalue),
          hwithin.unfinished,
          fun gap hgap => hwithin.whitespace gap (List.mem_cons_of_mem _ hgap), hwithin.behind⟩
      have hfits := hwithin.values (first :: rest.take n)
        (List.mem_append_left _ List.mem_cons_self)
      rw [List.length_cons, List.length_take, min_eq_left (valueEnd_le hend),
        Nat.add_comm] at hfits
      obtain ⟨hread, hrest'⟩ := @accepts_value limits n gap.length first rest
        (isGapByte_of_dropWhile hrest) hbracket hend
      rw [accepts_arrayGap_dropWhile, hrest, show stream.takeWhile isGapByte = gap from rfl,
        Iff.intro hrest' (hread hfits), ih hmore]
      simp [JsonPieces.GapsWithin, JsonPieces.after]

/-- An unfinished value of an array has at most one byte more than what was compared with the
limit: its first byte. -/
theorem length_unfinished_array {stream : Bytes} (h : (finished .array).Accepts limits stream) :
    (arrayPieces stream).unfinished.length ≤ max 1 limits.maxFrameBytes := by
  fun_induction arrayPieces stream with
  | case1 stream gap hrest => exact Nat.zero_le _
  | case2 stream gap rest hrest => exact Nat.zero_le _
  | case3 stream gap first rest hrest hbracket hend =>
      rw [accepts_arrayGap_dropWhile, hrest,
        accepts_unfinished (isGapByte_of_dropWhile hrest) hbracket hend] at h
      rw [List.length_cons]
      rcases h.2 with rfl | hfits
      · simp
      · omega
  | case4 stream gap first rest hrest hbracket n hend ih =>
      rw [accepts_arrayGap_dropWhile, hrest] at h
      exact ih ((accepts_value (isGapByte_of_dropWhile hrest) hbracket hend).2 h.2)

/-! ## Streams -/

/-- In front of the root. -/
theorem pushByte_start (n : Nat) (byte : UInt8) :
    { interstitialBytes := n : JsonStreamFrameGuard }.pushByte limits byte =
      if isJsonPrefixByte byte then
        { interstitialBytes := n : JsonStreamFrameGuard }.countInterstitial limits
      else if byte == 0x5B then .ok (finished .array)
      else .ok ({ root := some .single : JsonStreamFrameGuard }.startValue byte) := rfl

theorem accepts_blank (stream : Bytes) :
    Accepts limits {} stream ↔
      (stream.takeWhile isJsonPrefixByte).length ≤ limits.maxFrameBytes ∧
        Accepts limits { interstitialBytes := (stream.takeWhile isJsonPrefixByte).length }
          (stream.dropWhile isJsonPrefixByte) := by
  have hbyte (byte : UInt8) (hmem : byte ∈ stream.takeWhile isJsonPrefixByte) (n : Nat) :
      { interstitialBytes := n : JsonStreamFrameGuard }.pushByte limits byte =
        { interstitialBytes := n : JsonStreamFrameGuard }.countInterstitial limits := by
    rw [pushByte_start, if_pos (List.mem_takeWhile_imp hmem)]
  have h := accepts_gap (g := {}) (stream.dropWhile isJsonPrefixByte) hbyte 0
  rw [Nat.zero_add, List.takeWhile_append_dropWhile] at h
  refine h.trans (and_congr_left fun _ => ⟨?_, .inr⟩)
  rintro (hnil | hle)
  · rw [hnil]
    exact Nat.zero_le _
  · exact hle

theorem accepts_array {n : Nat} : Accepts limits { interstitialBytes := n } (0x5B :: rest) ↔
      (finished .array).Accepts limits rest :=
  accepts_cons (pushByte_start n 0x5B)

theorem accepts_object {n : Nat} : Accepts limits { interstitialBytes := n } (0x7B :: rest) ↔
      (inContainer .single 1 { depth := 1 }).Accepts limits rest :=
  accepts_cons (pushByte_start n 0x7B)

end JsonStreamFrameGuard

open JsonStreamFrameGuard

/-- The first byte that decides the framing, if there is one, opens an object or an array. -/
def IsJson (stream : Bytes) : Prop :=
  ∀ first rest, stream.dropWhile isJsonPrefixByte = first :: rest → first = 0x7B ∨ first = 0x5B

variable {limits : Limits} {stream : Bytes}

/-- **What the guard throws on, for small values**: a long gap. -/
theorem accepts_iff_gaps (hjson : IsJson stream)
    (hwithin : (jsonPieces stream).Within limits.maxFrameBytes) :
    Accepts limits {} stream ↔ (jsonPieces stream).GapsWithin limits.maxFrameBytes := by
  rw [accepts_blank]
  unfold jsonPieces at hwithin ⊢
  cases hrest : stream.dropWhile isJsonPrefixByte with
  | nil => simp [JsonPieces.GapsWithin, accepts_nil]
  | cons first rest =>
      simp only [hrest] at hwithin ⊢
      rcases hjson first rest hrest with rfl | rfl
      · rw [if_neg (by decide)] at hwithin ⊢
        rw [accepts_object]
        cases hend : valueEnd 0x7B rest with
        | none =>
            rw [hend] at hwithin
            have hfits : 1 + rest.length ≤ limits.maxFrameBytes := by
              rw [Nat.add_comm]
              exact hwithin.unfinished
            rw [accepts_of_valueEndBy_none (reads_container .single) hend]
            simp [JsonPieces.GapsWithin, hfits]
        | some n =>
            rw [hend] at hwithin
            have hfits := hwithin.values (0x7B :: rest.take n) List.mem_cons_self
            rw [List.length_cons, List.length_take, min_eq_left (valueEnd_le hend),
              Nat.add_comm] at hfits
            have hbehind := @accepts_behind limits (finished .single) rfl (rest.drop n)
              hwithin.behind
            rw [accepts_of_valueEndBy (reads_container .single) hend]
            simp [JsonPieces.GapsWithin, hfits, hbehind]
      · rw [if_pos rfl] at hwithin ⊢
        have hmore : (arrayPieces rest).Within limits.maxFrameBytes :=
          ⟨hwithin.values, hwithin.unfinished,
            fun gap hgap => hwithin.whitespace gap (List.mem_cons_of_mem _ hgap), hwithin.behind⟩
        rw [accepts_array, accepts_array_iff hmore]
        simp [JsonPieces.GapsWithin, JsonPieces.after]

theorem length_unfinished (hjson : IsJson stream) (h : Accepts limits {} stream) :
    (jsonPieces stream).unfinished.length ≤ max 1 limits.maxFrameBytes := by
  rw [accepts_blank] at h
  unfold jsonPieces
  cases hrest : stream.dropWhile isJsonPrefixByte with
  | nil => exact Nat.zero_le _
  | cons first rest =>
      rw [hrest] at h
      rcases hjson first rest hrest with rfl | rfl
      · simp only [if_neg (show (0x7B : UInt8) ≠ 0x5B by decide)]
        cases hend : valueEnd 0x7B rest with
        | some n => exact Nat.zero_le _
        | none =>
            rw [accepts_object,
              accepts_of_valueEndBy_none (reads_container .single) hend] at h
            simp only [List.length_cons]
            rcases h.2 with rfl | hfits
            · simp
            · omega
      · rw [accepts_array] at h
        exact length_unfinished_array h.2

/-! ## No bytes at all -/

/-- The first byte of a value stands at the front, or behind the bracket there. -/
def startsValue : Bytes → Bool
  | 0x7B :: _ => true
  | 0x5B :: first :: _ => !isGapByte first && first != 0x5D
  | _ => false

theorem dropWhile_eq_of_length {p : UInt8 → Bool} {bytes : Bytes}
    (h : (bytes.takeWhile p).length ≤ 0) : bytes.dropWhile p = bytes := by
  have hnil := List.eq_nil_of_length_eq_zero (Nat.le_zero.mp h)
  have hall := @List.takeWhile_append_dropWhile _ p bytes
  rwa [hnil, List.nil_append] at hall

theorem unfinished_arrayPieces_nil {bytes : Bytes} (h : bytes.dropWhile isGapByte = bytes)
    (hfirst : bytes = [] ∨ bytes.head? = some 0x5D) : (arrayPieces bytes).unfinished = [] := by
  unfold arrayPieces
  split
  · rfl
  · next first rest hrest =>
      rw [h] at hrest
      subst hrest
      rcases hfirst with hnil | hhead
      · cases hnil
      · rw [if_pos (Option.some.inj hhead)]

/-- With a limit of 0 nothing of a value is taken, unless one stands at the front. -/
theorem unfinished_eq_nil (hjson : IsJson stream) (h : Accepts limits {} stream)
    (hzero : limits.maxFrameBytes = 0) (hstart : startsValue stream = false) :
    (jsonPieces stream).unfinished = [] := by
  rw [accepts_blank, hzero] at h
  have hrest := dropWhile_eq_of_length h.1
  unfold jsonPieces
  cases stream with
  | nil => rfl
  | cons first rest =>
      rcases hjson first rest hrest with rfl | rfl
      · cases hstart
      · rw [hrest, accepts_array, accepts_arrayGap_dropWhile, hzero] at h
        have hgap := dropWhile_eq_of_length h.2.1
        simp only [hrest, if_true]
        refine unfinished_arrayPieces_nil hgap ?_
        cases rest with
        | nil => exact .inl rfl
        | cons first rest =>
            have hfirst : isGapByte first = false := isGapByte_of_dropWhile hgap
            refine .inr ?_
            simpa [startsValue, hfirst] using hstart

theorem valueEnd_nil (first : UInt8) : valueEnd first [] = none := by
  unfold valueEnd
  split_ifs <;> rfl

/-- One byte of a value at the front is taken whatever the limit. -/
theorem accepts_first (hstart : startsValue stream) :
    ∃ read, read <+: stream ∧ IsJson read ∧ Accepts limits {} read ∧
      (jsonPieces read).unfinished.length = 1 := by
  unfold startsValue at hstart
  split at hstart
  · next rest =>
      refine ⟨[0x7B], ⟨rest, rfl⟩, fun first rest h => ?_, ?_, rfl⟩
      · cases h
        exact .inl rfl
      · exact accepts_object.mpr accepts_nil
  · next first rest =>
      obtain ⟨hgap, hbracket⟩ : isGapByte first = false ∧ first ≠ 0x5D := by
        simpa using hstart
      refine ⟨[0x5B, first], ⟨rest, rfl⟩, fun first rest h => ?_, ?_, ?_⟩
      · cases h
        exact .inr rfl
      · refine accepts_array.mpr ?_
        exact (accepts_unfinished (m := 0) hgap hbracket (valueEnd_nil first)).mpr (.inl rfl)
      · show (arrayPieces [first]).unfinished.length = 1
        have hrest : [first].dropWhile isGapByte = [first] := by simp [hgap]
        unfold arrayPieces
        split
        · simp_all
        · next first' rest' hrest' =>
            rw [hrest] at hrest'
            cases hrest'
            rw [if_neg hbracket, valueEnd_nil]
            rfl
  · cases hstart

end StonePlus.FrameGuard
