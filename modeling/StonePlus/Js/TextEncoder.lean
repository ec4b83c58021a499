import StonePlus.Js.Unicode
import Mathlib.Data.List.Basic

/-!
# StonePlus.Js.TextEncoder

UTF-8 as a text is written in it, and `TextDecoder` as its inverse.

A text is a list of Unicode scalar values, so it has no lone surrogates.  The decoder drops
a byte order mark at the start, which the encoder has written as it is: a text is read back
exactly when it does not start with one.
-/

namespace StonePlus

open JsString

/-! ## UTF-8 -/

/-- The octets of a code point in UTF-8. -/
def utf8 (codePoint : Nat) : Bytes :=
  if codePoint < 0x80 then [UInt8.ofNat codePoint]
  else if codePoint < 0x800 then
    [UInt8.ofNat (0xC0 + codePoint / 0x40), UInt8.ofNat (0x80 + codePoint % 0x40)]
  else if codePoint < 0x10000 then
    [UInt8.ofNat (0xE0 + codePoint / 0x1000), UInt8.ofNat (0x80 + codePoint / 0x40 % 0x40),
      UInt8.ofNat (0x80 + codePoint % 0x40)]
  else
    [UInt8.ofNat (0xF0 + codePoint / 0x40000), UInt8.ofNat (0x80 + codePoint / 0x1000 % 0x40),
      UInt8.ofNat (0x80 + codePoint / 0x40 % 0x40), UInt8.ofNat (0x80 + codePoint % 0x40)]

/-- `new TextEncoder().encode(text)`. -/
def encodeUtf8 (text : List Char) : Bytes := text.flatMap fun c => utf8 c.toNat

/-- `Buffer.from(text, 'utf8')`: a lone surrogate becomes U+FFFD. -/
def bufferFrom (text : JsString) : Bytes :=
  text.codePoints.flatMap fun c => utf8 (if 0xD800 ≤ c ∧ c ≤ 0xDFFF then 0xFFFD else c)

/-- The string of a text. -/
def encodeUtf16 (text : List Char) : JsString := text.flatMap fun c => utf16 c.toNat

/-- The byte order mark. -/
def bom : Char := Char.ofNat 0xFEFF

theorem scalar (c : Char) : c.toNat < 0xD800 ∨ (0xDFFF < c.toNat ∧ c.toNat < 0x110000) := by
  have := c.valid
  simpa [UInt32.isValidChar, Nat.isValidChar] using this

namespace Utf8Decoder

deriving instance DecidableEq for Utf8Decoder

theorem step_continue {d : Utf8Decoder} {b : Nat} (hneeded : d.needed ≠ 0) (hb : b < 0x40)
    (hlower : d.lower.toNat ≤ 0x80 + b) (hupper : 0x80 + b ≤ d.upper.toNat) :
    d.step (UInt8.ofNat (0x80 + b)) =
      if d.needed = 1 then some ([d.codePoint * 0x40 + b], start)
      else some ([], ⟨d.codePoint * 0x40 + b, d.needed - 1, 0x80, 0xBF⟩) := by
  have hbyte : (UInt8.ofNat (0x80 + b)).toNat = 0x80 + b := by
    rw [UInt8.toNat_ofNat']
    omega
  have hmod : (0x80 + b) % 0x40 = b := by omega
  have hin : d.lower ≤ UInt8.ofNat (0x80 + b) ∧ UInt8.ofNat (0x80 + b) ≤ d.upper := by
    rw [UInt8.le_iff_toNat_le, UInt8.le_iff_toNat_le, hbyte]
    exact ⟨hlower, hupper⟩
  simp only [step, hneeded, if_false, hin, and_self, if_true, hbyte, hmod]

/-- The first octet of a sequence of two, three or four. -/
theorem step_two (hlow : 2 ≤ a) (hhigh : a < 0x20) :
    start.step (UInt8.ofNat (0xC0 + a)) = some ([], ⟨a, 1, 0x80, 0xBF⟩) := by
  have hall : ∀ a : Fin 0x20, 2 ≤ a.val →
      start.step (UInt8.ofNat (0xC0 + a.val)) = some ([], ⟨a.val, 1, 0x80, 0xBF⟩) := by decide
  exact hall ⟨a, hhigh⟩ hlow

theorem step_three (h : a < 0x10) :
    start.step (UInt8.ofNat (0xE0 + a)) = some ([], ⟨a, 2, if a = 0 then 0xA0 else 0x80,
      if a = 0xD then 0x9F else 0xBF⟩) := by
  have hall : ∀ a : Fin 0x10, start.step (UInt8.ofNat (0xE0 + a.val)) =
      some ([], ⟨a.val, 2, if a.val = 0 then 0xA0 else 0x80,
        if a.val = 0xD then 0x9F else 0xBF⟩) := by decide
  exact hall ⟨a, h⟩

theorem step_four (h : a < 5) :
    start.step (UInt8.ofNat (0xF0 + a)) = some ([], ⟨a, 3, if a = 0 then 0x90 else 0x80,
      if a = 4 then 0x8F else 0xBF⟩) := by
  have hall : ∀ a : Fin 5, start.step (UInt8.ofNat (0xF0 + a.val)) =
      some ([], ⟨a.val, 3, if a.val = 0 then 0x90 else 0x80,
        if a.val = 4 then 0x8F else 0xBF⟩) := by decide
  exact hall ⟨a, h⟩

theorem step_one (h : n < 0x80) : start.step (UInt8.ofNat n) = some ([n], start) := by
  have hbyte : (UInt8.ofNat n).toNat = n := by
    rw [UInt8.toNat_ofNat']
    omega
  have hle : UInt8.ofNat n ≤ 0x7F := by
    rw [UInt8.le_iff_toNat_le, hbyte]
    exact Nat.le_of_lt_succ h
  simp only [step, start, if_true, hle, hbyte]

theorem decodeFrom_cons {d d' : Utf8Decoder} {byte : UInt8} {completed : List Nat} (rest : Bytes)
    (h : d.step byte = some (completed, d')) :
    decodeFrom d (byte :: rest) = (decodeFrom d' rest).map (completed ++ ·) := by
  simp only [decodeFrom, h, Option.bind_eq_bind, Option.bind_some]
  cases decodeFrom d' rest <;> rfl

theorem decodeFrom_lead (rest : Bytes) (h : d.step byte = some ([], d')) :
    decodeFrom d (byte :: rest) = decodeFrom d' rest := by
  simp [decodeFrom_cons rest h]

/-- The octets after the first, up to the last. -/
theorem decodeFrom_inner {lower upper : UInt8} (rest : Bytes) (hb : b < 0x40)
    (hlower : lower.toNat ≤ 0x80 + b) (hupper : 0x80 + b ≤ upper.toNat) :
    decodeFrom ⟨v, n + 2, lower, upper⟩ (UInt8.ofNat (0x80 + b) :: rest) =
      decodeFrom ⟨v * 0x40 + b, n + 1, 0x80, 0xBF⟩ rest := by
  have hstep := @step_continue ⟨v, n + 2, lower, upper⟩ b (Nat.succ_ne_zero _) hb hlower hupper
  rw [decodeFrom_lead rest (hstep.trans (if_neg (by simp)))]
  rfl

theorem decodeFrom_last {v b : Nat} {lower upper : UInt8} (rest : Bytes) (hb : b < 0x40)
    (hlower : lower.toNat ≤ 0x80 + b) (hupper : 0x80 + b ≤ upper.toNat) :
    decodeFrom ⟨v, 1, lower, upper⟩ (UInt8.ofNat (0x80 + b) :: rest) =
      (decodeFrom start rest).map ((v * 0x40 + b) :: ·) := by
  have hstep := @step_continue ⟨v, 1, lower, upper⟩ b Nat.one_ne_zero hb hlower hupper
  exact decodeFrom_cons rest (hstep.trans (if_pos rfl))

/-- A character is read back from its octets, whatever follows. -/
theorem decodeFrom_utf8 (c : Char) (rest : Bytes) :
    decodeFrom start (utf8 c.toNat ++ rest) = (decodeFrom start rest).map (c.toNat :: ·) := by
  have hscalar := scalar c
  generalize c.toNat = n at hscalar
  unfold utf8
  split
  · rename_i h
    exact decodeFrom_cons rest (step_one h)
  · split
    · have hvalue : n / 0x40 * 0x40 + n % 0x40 = n := by omega
      simp only [List.cons_append, List.nil_append]
      rw [decodeFrom_lead _ (step_two (by omega) (by omega)),
        decodeFrom_last _ (by omega) (by simp) (by simp; omega), hvalue]
    · split
      · have hvalue : (n / 0x1000 * 0x40 + n / 0x40 % 0x40) * 0x40 + n % 0x40 = n := by omega
        simp only [List.cons_append, List.nil_append]
        rw [decodeFrom_lead _ (step_three (by omega)),
          decodeFrom_inner _ (by omega) (by split <;> simp; omega) (by split <;> simp <;> omega),
          decodeFrom_last _ (by omega) (by simp) (by simp; omega), hvalue]
      · have hvalue : ((n / 0x40000 * 0x40 + n / 0x1000 % 0x40) * 0x40 + n / 0x40 % 0x40) * 0x40 +
            n % 0x40 = n := by omega
        simp only [List.cons_append, List.nil_append]
        rw [decodeFrom_lead _ (step_four (by omega)),
          decodeFrom_inner _ (by omega) (by split <;> simp; omega) (by split <;> simp <;> omega),
          decodeFrom_inner _ (by omega) (by simp) (by simp; omega),
          decodeFrom_last _ (by omega) (by simp) (by simp; omega), hvalue]

theorem decodeFrom_encodeUtf8 (text : List Char) :
    decodeFrom start (encodeUtf8 text) = some (text.map Char.toNat) := by
  induction text with
  | nil => rfl
  | cons c rest ih =>
      rw [encodeUtf8, List.flatMap_cons, decodeFrom_utf8, ← encodeUtf8, ih]
      rfl

/-- Only the byte order mark starts with its octets. -/
theorem isPrefix_utf8 (c : Char) (rest : Bytes) :
    [0xEF, 0xBB, 0xBF] <+: utf8 c.toNat ++ rest ↔ c = bom := by
  constructor
  · intro h
    have hscalar := scalar c
    have hoctet (a : Nat) (b : UInt8) (hab : b = UInt8.ofNat a) : b.toNat = a % 256 := by
      rw [hab, UInt8.toNat_ofNat']
    suffices hn : c.toNat = 0xFEFF from Char.toNat_inj.mp hn
    generalize c.toNat = n at h hscalar
    unfold utf8 at h
    split at h
    · have := hoctet _ _ (List.cons_prefix_cons.mp h).1
      simp at this
      omega
    · split at h
      · have := hoctet _ _ (List.cons_prefix_cons.mp h).1
        simp at this
        omega
      · split at h
        · simp only [List.cons_append, List.nil_append, List.cons_prefix_cons] at h
          have h₁ := hoctet _ _ h.1
          have h₂ := hoctet _ _ h.2.1
          have h₃ := hoctet _ _ h.2.2.1
          simp at h₁ h₂ h₃
          omega
        · have := hoctet _ _ (List.cons_prefix_cons.mp h).1
          simp at this
          omega
  · intro h
    subst h
    exact ⟨rest, rfl⟩

/-- What the decoder makes of a text: a leading byte order mark is gone. -/
def withoutBom (text : List Char) : List Char :=
  if text.head? = some bom then text.tail else text

theorem decode_encodeUtf8 (text : List Char) :
    decode (encodeUtf8 text) = some (encodeUtf16 (withoutBom text)) := by
  have hmap (cs : List Char) : (cs.map Char.toNat).flatMap utf16 = encodeUtf16 cs := by
    rw [encodeUtf16, List.flatMap_map]
  cases text with
  | nil => rfl
  | cons c rest =>
      have hbom := isPrefix_utf8 c (encodeUtf8 rest)
      have hcons : encodeUtf8 (c :: rest) = utf8 c.toNat ++ encodeUtf8 rest := rfl
      rw [decode, withoutBom, hcons]
      by_cases hc : c = bom
      · subst hc
        have hdrop : (utf8 bom.toNat ++ encodeUtf8 rest).drop 3 = encodeUtf8 rest := rfl
        rw [if_pos (hbom.mpr rfl), hdrop, decodeFrom_encodeUtf8, Option.map_some, hmap,
          List.head?_cons, if_pos rfl, List.tail_cons]
      · rw [if_neg (fun h => hc (hbom.mp h)), if_neg (by simpa using hc), ← hcons,
          decodeFrom_encodeUtf8, Option.map_some, hmap]

/-- A text without a leading byte order mark is read back, and no other. -/
theorem decode_encodeUtf8_iff :
    decode (encodeUtf8 text) = some (encodeUtf16 text) ↔ text.head? ≠ some bom := by
  rw [decode_encodeUtf8, Option.some.injEq, withoutBom]
  cases text with
  | nil => simp
  | cons c rest =>
      by_cases hc : c = bom
      · have hunit : utf16 bom.toNat ≠ [] := by decide
        simp [hc, encodeUtf16, hunit]
      · simp [hc]

end Utf8Decoder

/-! ## UTF-16 -/

theorem utf16_scalar (c : Char) :
    (∀ d ∈ (utf16 c.toNat).getLast?, isHighSurrogate d = false) ∧
      codePoints (utf16 c.toNat) = [c.toNat] := by
  have hscalar := scalar c
  generalize c.toNat = n at hscalar
  by_cases hn : n < 0x10000
  · have hunit : (UInt16.ofNat n).toNat = n := by
      rw [UInt16.toNat_ofNat']
      omega
    simp only [utf16, hn, if_true, List.getLast?_singleton, Option.mem_def, Option.some.injEq,
      forall_eq', codePoints, hunit, and_true]
    simp only [isHighSurrogate, Bool.and_eq_false_iff, decide_eq_false_iff_not,
      UInt16.le_iff_toNat_le, hunit, UInt16.reduceToNat]
    omega
  · have hhigh : (UInt16.ofNat (0xD800 + (n - 0x10000) / 0x400)).toNat =
        0xD800 + (n - 0x10000) / 0x400 := by
      rw [UInt16.toNat_ofNat']
      omega
    have hlow : (UInt16.ofNat (0xDC00 + (n - 0x10000) % 0x400)).toNat =
        0xDC00 + (n - 0x10000) % 0x400 := by
      rw [UInt16.toNat_ofNat']
      omega
    have hpair : (isHighSurrogate (UInt16.ofNat (0xD800 + (n - 0x10000) / 0x400)) &&
        isLowSurrogate (UInt16.ofNat (0xDC00 + (n - 0x10000) % 0x400))) = true := by
      simp only [isHighSurrogate, isLowSurrogate, Bool.and_eq_true, decide_eq_true_eq,
        UInt16.le_iff_toNat_le, hhigh, hlow, UInt16.reduceToNat]
      omega
    constructor
    · simp only [utf16, hn, if_false, List.getLast?_cons_cons, List.getLast?_singleton,
        Option.mem_def, Option.some.injEq, forall_eq', isHighSurrogate, Bool.and_eq_false_iff,
        decide_eq_false_iff_not, UInt16.le_iff_toNat_le, hlow, UInt16.reduceToNat]
      omega
    · simp only [utf16, hn, if_false, codePoints, hpair, if_true, hhigh, hlow, List.cons.injEq,
        and_true]
      omega

/-- The code points of a text's string are those of the text. -/
theorem codePoints_encodeUtf16 (text : List Char) :
    codePoints (encodeUtf16 text) = text.map Char.toNat := by
  induction text with
  | nil => rfl
  | cons c rest ih =>
      have hcons : encodeUtf16 (c :: rest) = utf16 c.toNat ++ encodeUtf16 rest := rfl
      obtain ⟨hlast, hpoints⟩ := utf16_scalar c
      rw [hcons, codePoints_append (not_splitsPair_of_getLast hlast), hpoints, ih]
      rfl

theorem encodeUtf16_injective : Function.Injective encodeUtf16 := by
  intro a b h
  have hpoints := congrArg codePoints h
  rw [codePoints_encodeUtf16, codePoints_encodeUtf16] at hpoints
  exact List.map_injective_iff.mpr (fun _ _ hab => Char.toNat_inj.mp hab) hpoints

end StonePlus
