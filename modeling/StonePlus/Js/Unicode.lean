import StonePlus.Js.Str

/-!
# StonePlus.Js.Unicode

Code points, UTF-16 and UTF-8, as strings, `Buffer.byteLength` and
`TextDecoder` use them.
-/

namespace StonePlus

/-- Octets, as in a `Uint8Array`. -/
abbrev Bytes := List UInt8

namespace JsString

/-- `0xD800` to `0xDBFF`: the first half of a surrogate pair. -/
def isHighSurrogate (c : UInt16) : Bool := 0xD800 ≤ c && c ≤ 0xDBFF

/-- `0xDC00` to `0xDFFF`: the second half of a surrogate pair. -/
def isLowSurrogate (c : UInt16) : Bool := 0xDC00 ≤ c && c ≤ 0xDFFF

/-- The code points string iteration yields: a surrogate pair is one code
point, a lone surrogate is itself. -/
def codePoints : JsString → List Nat
  | [] => []
  | [c] => [c.toNat]
  | c :: d :: rest =>
    if isHighSurrogate c && isLowSurrogate d then
      (0x10000 + (c.toNat - 0xD800) * 0x400 + (d.toNat - 0xDC00)) :: codePoints rest
    else c.toNat :: codePoints (d :: rest)

/-- The code units of a code point. -/
def utf16 (codePoint : Nat) : JsString :=
  if codePoint < 0x10000 then [UInt16.ofNat codePoint]
  else
    [UInt16.ofNat (0xD800 + (codePoint - 0x10000) / 0x400),
      UInt16.ofNat (0xDC00 + (codePoint - 0x10000) % 0x400)]

/-- A code point that is a lone surrogate. -/
def isSurrogate (codePoint : Nat) : Bool := 0xD800 ≤ codePoint && codePoint ≤ 0xDFFF

/-- The octets UTF-8 needs for a code point; a lone surrogate is written as
the replacement character, which takes three. -/
def utf8Length (codePoint : Nat) : Nat :=
  if codePoint < 0x80 then 1 else if codePoint < 0x800 then 2
  else if codePoint < 0x10000 then 3 else 4

/-- `Buffer.byteLength(s, 'utf8')`. -/
def byteLength (s : JsString) : Nat := (s.codePoints.map utf8Length).sum

/-- The boundary between two strings falls inside a surrogate pair. -/
def SplitsPair (s t : JsString) : Prop :=
  ∃ c ∈ s.getLast?, ∃ d ∈ t.head?, isHighSurrogate c = true ∧ isLowSurrogate d = true

theorem not_splitsPair_of_head (h : ∀ d ∈ t.head?, isLowSurrogate d = false) :
    ¬ SplitsPair s t := by
  rintro ⟨c, -, d, hd, -, hlow⟩
  rw [h d hd] at hlow
  cases hlow

theorem not_splitsPair_of_getLast (h : ∀ c ∈ s.getLast?, isHighSurrogate c = false) :
    ¬ SplitsPair s t := by
  rintro ⟨c, hc, d, -, hhigh, -⟩
  rw [h c hc] at hhigh
  cases hhigh

/-- Strings that meet between two code points have their code points one after
the other. -/
theorem codePoints_append (h : ¬ SplitsPair s t) :
    codePoints (s ++ t) = codePoints s ++ codePoints t := by
  fun_induction codePoints s with
  | case1 => rfl
  | case2 c =>
      cases t with
      | nil => rfl
      | cons d t =>
          have hpair : (isHighSurrogate c && isLowSurrogate d) = false := by
            rw [Bool.eq_false_iff, ne_eq, Bool.and_eq_true]
            exact fun hpair => h ⟨c, rfl, d, rfl, hpair⟩
          simp [codePoints, hpair]
  | case3 c d rest hpair ih =>
      have hrest : ¬ SplitsPair rest t := by
        rintro ⟨c', hc', hd⟩
        refine h ⟨c', ?_, hd⟩
        cases rest with
        | nil => cases hc'
        | cons e rest => simpa [List.getLast?_cons_cons] using hc'
      simp [codePoints, hpair, ih hrest]
  | case4 c d rest hpair ih =>
      have hrest : ¬ SplitsPair (d :: rest) t := by
        rintro ⟨c', hc', hd⟩
        exact h ⟨c', by simpa [List.getLast?_cons_cons] using hc', hd⟩
      have := ih hrest
      simp only [List.cons_append] at this ⊢
      rw [codePoints, if_neg hpair, this]

theorem byteLength_append (h : ¬ SplitsPair s t) :
    byteLength (s ++ t) = byteLength s + byteLength t := by
  rw [byteLength, codePoints_append h, List.map_append, List.sum_append, byteLength, byteLength]

theorem codePoints_ne_nil (h : s ≠ []) : codePoints s ≠ [] := by
  fun_cases codePoints s <;> simp_all

theorem byteLength_pos (h : s ≠ []) : 0 < byteLength s := by
  obtain ⟨c, cs, hpoints⟩ := List.exists_cons_of_ne_nil (codePoints_ne_nil h)
  have : 0 < utf8Length c := by
    unfold utf8Length
    split_ifs <;> omega
  rw [byteLength, hpoints, List.map_cons, List.sum_cons]
  omega

/-- A code point lies below `0x110000`. -/
theorem lt_of_mem_codePoints (h : c ∈ codePoints s) : c < 0x110000 := by
  fun_induction codePoints s with
  | case1 => cases h
  | case2 d =>
      have := d.toNat_lt
      simp only [List.mem_singleton] at h
      omega
  | case3 d e rest hpair ih =>
      simp only [Bool.and_eq_true, isHighSurrogate, isLowSurrogate, decide_eq_true_eq,
        UInt16.le_iff_toNat_le, UInt16.reduceToNat] at hpair
      rcases List.mem_cons.mp h with heq | h
      · omega
      · exact ih h
  | case4 d e rest hpair ih =>
      have := d.toNat_lt
      rcases List.mem_cons.mp h with heq | h
      · omega
      · exact ih h

end JsString

/-! ## TextDecoder -/

/-- The state of the UTF-8 decoder inside a sequence: the bits read, the
continuation octets still needed, and the bounds on the next one. -/
structure Utf8Decoder where
  codePoint : Nat
  needed : Nat
  lower : UInt8
  upper : UInt8

namespace Utf8Decoder

/-- The decoder between two sequences. -/
def start : Utf8Decoder := ⟨0, 0, 0x80, 0xBF⟩

/-- One octet: the code point it completes, if any, and the next state;
`none` when the octet is malformed. -/
def step (d : Utf8Decoder) (byte : UInt8) : Option (List Nat × Utf8Decoder) :=
  if d.needed = 0 then
    if byte ≤ 0x7F then some ([byte.toNat], start)
    else if 0xC2 ≤ byte ∧ byte ≤ 0xDF then some ([], ⟨byte.toNat % 0x20, 1, 0x80, 0xBF⟩)
    else if 0xE0 ≤ byte ∧ byte ≤ 0xEF then
      some ([], ⟨byte.toNat % 0x10, 2, if byte = 0xE0 then 0xA0 else 0x80,
        if byte = 0xED then 0x9F else 0xBF⟩)
    else if 0xF0 ≤ byte ∧ byte ≤ 0xF4 then
      some ([], ⟨byte.toNat % 0x08, 3, if byte = 0xF0 then 0x90 else 0x80,
        if byte = 0xF4 then 0x8F else 0xBF⟩)
    else none
  else if d.lower ≤ byte ∧ byte ≤ d.upper then
    let codePoint := d.codePoint * 0x40 + byte.toNat % 0x40
    if d.needed = 1 then some ([codePoint], start)
    else some ([], ⟨codePoint, d.needed - 1, 0x80, 0xBF⟩)
  else none

/-- All octets; the input may not end inside a sequence. -/
def decodeFrom (d : Utf8Decoder) : Bytes → Option (List Nat)
  | [] => if d.needed = 0 then some [] else none
  | byte :: rest => do
    let (completed, d') ← d.step byte
    let codePoints ← decodeFrom d' rest
    some (completed ++ codePoints)

/-- `new TextDecoder('utf-8', { fatal: true }).decode(bytes)`: a leading byte
order mark is dropped, malformed input throws (`none`). -/
def decode (bytes : Bytes) : Option JsString :=
  let body := if [0xEF, 0xBB, 0xBF] <+: bytes then bytes.drop 3 else bytes
  (decodeFrom start body).map fun codePoints => codePoints.flatMap JsString.utf16

example : decode [0xEF, 0xBB, 0xBF, 0x24, 0xC3, 0xA9, 0xF0, 0x9F, 0x98, 0x80] =
    some [0x24, 0xE9, 0xD83D, 0xDE00] := by decide

example : [[0xC0, 0x80], [0xED, 0xA0, 0x80], [0xE2, 0x82]].map decode = [none, none, none] := by
  decide

end Utf8Decoder

end StonePlus
