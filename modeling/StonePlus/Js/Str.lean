import Mathlib.Algebra.GroupWithZero.Nat
import Mathlib.Data.List.Infix
import Mathlib.Data.List.TakeWhile

/-!
# StonePlus.Js.Str

ECMAScript strings: sequences of UTF-16 code units.

A string is the list of its code units, so `length` counts code units,
lone surrogates are ordinary values, and a split may fall inside a
surrogate pair, as in the language.  Only the operations the gateway uses
are here: `trim`, the `\s` class, decimal numerals and literals.
-/

namespace StonePlus

/-- A string: its UTF-16 code units. -/
abbrev JsString := List UInt16

instance : LawfulBEq JsString := List.instLawfulBEq

/-- The string of a literal whose characters lie in the Basic Multilingual
Plane (one code unit each), which all literals of the source do. -/
def js (s : String) : JsString := s.toList.map fun c => UInt16.ofNat c.toNat

/-- A string written in decimal, as `String(n)` does for a natural number. -/
def natToString (n : Nat) : JsString := (Nat.toDigits 10 n).map fun c => UInt16.ofNat c.toNat

theorem natToString_ne_nil (n : Nat) : natToString n ≠ [] := by
  simp [natToString, Nat.toDigits_ne_nil]

theorem natToString_injective (h : natToString m = natToString n) : m = n := by
  have hchar : ∀ k, (natToString k).map (fun u => Char.ofNat u.toNat) = Nat.toDigits 10 k := by
    intro k
    have hcongr : ∀ c ∈ Nat.toDigits 10 k, Char.ofNat (UInt16.ofNat c.toNat).toNat = id c := by
      intro c hc
      have hdigit := Nat.isDigit_of_mem_toDigits (by decide) (by decide) hc
      have hlt : c.toNat < 2 ^ 16 := by
        simp [Char.isDigit, UInt32.le_iff_toNat_le] at hdigit
        omega
      have hmod : (UInt16.ofNat c.toNat).toNat = c.toNat := Nat.mod_eq_of_lt hlt
      rw [hmod, Char.ofNat_toNat, id]
    rw [natToString, List.map_map]
    exact (List.map_congr_left hcongr).trans (List.map_id _)
  have hdigits := congrArg (List.map fun u => Char.ofNat u.toNat) h
  rw [hchar, hchar] at hdigits
  rw [← @Nat.ofDigitChars_ten_toDigits m, hdigits, Nat.ofDigitChars_ten_toDigits]

/-- `toLowerCase`, as far as comparison with lower-case ASCII words without
the letter k can tell. -/
def toLowerCase (s : JsString) : JsString :=
  s.map fun c => if 0x41 ≤ c ∧ c ≤ 0x5A then c + 0x20 else c

namespace JsString

/-- `WhiteSpace` and `LineTerminator`: what `trim` strips and `\s` matches. -/
def isWhitespace (c : UInt16) : Bool :=
  (9 ≤ c && c ≤ 13) || c == 0x20 || c == 0xA0 || c == 0x1680 || (0x2000 ≤ c && c ≤ 0x200A) ||
    c == 0x2028 || c == 0x2029 || c == 0x202F || c == 0x205F || c == 0x3000 || c == 0xFEFF

/-- `String.prototype.trim`. -/
def trim (s : JsString) : JsString :=
  ((s.dropWhile isWhitespace).reverse.dropWhile isWhitespace).reverse

/-- Trimming leaves nothing exactly when every code unit is white space. -/
theorem trim_eq_nil_iff {s : JsString} : s.trim = [] ↔ ∀ c ∈ s, isWhitespace c = true := by
  rw [trim, List.reverse_eq_nil_iff, List.dropWhile_eq_nil_iff]
  constructor
  · intro h
    by_contra hne
    have hdrop : s.dropWhile isWhitespace ≠ [] := fun h' => hne (List.dropWhile_eq_nil_iff.mp h')
    have hhead := List.head_dropWhile_not _ hdrop
    have := h _ (List.mem_reverse.mpr (List.head_mem hdrop))
    simp_all
  · intro h c hc
    exact h c (List.dropWhile_sublist _ |>.mem (List.mem_reverse.mp hc))

theorem trim_append_eq_nil_iff : trim (s ++ t) = [] ↔ trim s = [] ∧ trim t = [] := by
  simp only [trim_eq_nil_iff, List.mem_append, or_imp, forall_and]

end JsString

end StonePlus
