import StonePlus.Js.Str
import Mathlib.Data.Int.Log
import Mathlib.Data.Rat.Floor

/-!
# StonePlus.Js.Number

ECMAScript numbers: IEEE 754 doubles.

A number is a `Float`, whose logical model rounds to nearest even, so sums
and quotients are the language's own.  What `Float` leaves out is here:
decimal literals, `Number::toString` and the integer tests, all computed on
the exact rational a finite double denotes.
-/

namespace StonePlus

/-- A number of the language. -/
abbrev JsNumber := Float

namespace JsNumber

/-- The rational a finite double denotes. -/
def toRat? (x : JsNumber) : Option ℚ :=
  match x.toModel.unpack with
  | .infinity _ => none
  | .notANumber => none
  | .zero _ => some 0
  | .finite .positive m e _ => some (m * 2 ^ e)
  | .finite .negative m e _ => some (-(m * 2 ^ e))

/-- The double closest to an integer. -/
def ofInt (n : Int) : JsNumber := .ofModel (.ofInt n)

/-- The double closest to a natural number. -/
def ofNat (n : Nat) : JsNumber := ofInt n

/-- The value of the literal `digits * 10 ^ exponent`. -/
def ofDecimal (negative : Bool) (digits : Nat) (exponent : Int) : JsNumber :=
  let value : JsNumber := .ofModel (.ofScientific digits exponent)
  if negative then -value else value

/-- `Number.isInteger`. -/
def isInteger (x : JsNumber) : Bool := x.toRat?.any fun q => q.den == 1

/-- `Number.isSafeInteger`. -/
def isSafeInteger (x : JsNumber) : Bool :=
  x.toRat?.any fun q => q.den == 1 && decide (q.num.natAbs < 2 ^ 53)

/-- The natural number a double denotes, if it denotes one. -/
def toNat? (x : JsNumber) : Option Nat :=
  x.toRat?.bind fun q => if q.den = 1 ∧ 0 ≤ q.num then some q.num.toNat else none

/-- `Math.abs`. -/
def abs (x : JsNumber) : JsNumber := .ofModel x.toModel.abs

/-- `Math.round` of a finite double: the closest integer, ties upwards. -/
def round (x : JsNumber) : JsNumber :=
  match x.toRat? with
  | none => x
  | some q => ofInt ⌊q + 1 / 2⌋

/-- `Math.floor`. -/
def floor (x : JsNumber) : JsNumber :=
  match x.toRat? with
  | none => x
  | some q => ofInt ⌊q⌋

/-! ## Conversion to a string -/

/-- The decimals `s * 10 ^ (n - k)` with `k` digits next to the rational `r`,
the closer one first, as pairs of `s` and `n`. -/
def neighbours (r : ℚ) (n : Int) (k : Nat) : List (Nat × Int) :=
  let scaled := r * 10 ^ ((k : Int) - n)
  let low := ⌊scaled⌋.toNat
  let near := if scaled - low < low + 1 - scaled ∨
    (scaled - low = low + 1 - scaled ∧ low % 2 = 0) then [low, low + 1] else [low + 1, low]
  near.map fun s => if s = 10 ^ k then (s / 10, n + 1) else (s, n)

/-- The digits `s`, their number `k` and the point position `n` that
`Number::toString` picks for a positive double: the fewest digits that read
back as the double, the closest such decimal among them. -/
def shortest (x : JsNumber) (r : ℚ) : Option (Nat × Nat × Int) :=
  let n := Int.log 10 r + 1
  (List.range' 1 17).findSome? fun k =>
    ((neighbours r n k).find? fun d => ofDecimal false d.1 (d.2 - k) == x).map fun d => (d.1, k, d.2)

/-- A run of the digit zero. -/
def zeros (n : Nat) : JsString := List.replicate n 0x30

/-- The layout of `Number::toString` for the digits of a positive number. -/
def layout (digits : JsString) (n : Int) : JsString :=
  let k : Int := digits.length
  if k ≤ n ∧ n ≤ 21 then digits ++ zeros (n - k).toNat
  else if 0 < n ∧ n ≤ 21 then digits.take n.toNat ++ js "." ++ digits.drop n.toNat
  else if -6 < n ∧ n ≤ 0 then js "0." ++ zeros (-n).toNat ++ digits
  else
    let sign := if n - 1 < 0 then js "-" else js "+"
    let fraction := if k = 1 then [] else js "." ++ digits.drop 1
    digits.take 1 ++ fraction ++ js "e" ++ sign ++ natToString (n - 1).natAbs

/-- `Number::toString`. -/
def toJsString (x : JsNumber) : JsString :=
  match x.toRat? with
  | none => if x.isNaN then js "NaN" else if x < ofInt 0 then js "-Infinity" else js "Infinity"
  | some q =>
    if q = 0 then js "0"
    else
      let sign := if q < 0 then js "-" else []
      match shortest x.abs |q| with
      | some (s, _, n) => sign ++ layout (natToString s) n
      | none => js "0"

theorem layout_ne_nil (h : digits ≠ []) (n : Int) : layout digits n ≠ [] := by
  unfold layout
  dsimp only
  split_ifs <;> simp [h, js]

theorem toJsString_ne_nil (x : JsNumber) : toJsString x ≠ [] := by
  unfold toJsString
  split
  · split_ifs <;> decide
  · split_ifs
    · decide
    all_goals
      dsimp only
      split
      · exact List.append_ne_nil_of_right_ne_nil _ (layout_ne_nil (natToString_ne_nil _) _)
      · decide

example : [ofDecimal false 1 (-1), ofDecimal true 1000000 15, ofDecimal false 5 (-324),
    ofDecimal false 1 (-7), ofDecimal false 12345 (-3)].map toJsString =
    [js "0.1", js "-1e+21", js "5e-324", js "1e-7", js "12.345"] := by decide +kernel

end JsNumber

end StonePlus
