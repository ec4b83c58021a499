import StonePlus.Js.Json

/-!
# StonePlus.Replay.Budget

`jsonFitsByteBudget` of `gateway/request-replay.ts`: the octets of a value's
JSON text are charged one piece at a time, so an oversized value is rejected
before its text exists.

The charge is exact: the check accepts a value when the text
`JSON.stringify` writes for it fits (`jsonFitsByteBudget_iff`).
-/

namespace StonePlus.Replay

open JsString

/-- `add`: the octets used so far, unless they exceed the budget. -/
def add (budget used bytes : Nat) : Option Nat :=
  if used + bytes ≤ budget then some (used + bytes) else none

/-- What `jsonStringByteLength` charges for a code unit that is not half of a
surrogate pair. -/
def unitBytes (code : UInt16) : Nat :=
  if code = 0x22 ∨ code = 0x5C ∨ code = 0x08 ∨ code = 0x09 ∨ code = 0x0A ∨ code = 0x0C ∨
    code = 0x0D then 2
  else if code < 0x20 then 6
  else if code ≤ 0x7F then 1
  else if code ≤ 0x7FF then 2
  else if 0xD800 ≤ code ∧ code ≤ 0xDFFF then 6
  else 3

/-- The loop of `jsonStringByteLength`. -/
def stringLoop (budget bytes : Nat) : JsString → Option Nat
  | [] => some bytes
  | [code] => if budget < bytes + unitBytes code then none else some (bytes + unitBytes code)
  | code :: low :: rest =>
    if isHighSurrogate code && isLowSurrogate low then
      if budget < bytes + 4 then none else stringLoop budget (bytes + 4) rest
    else if budget < bytes + unitBytes code then none
    else stringLoop budget (bytes + unitBytes code) (low :: rest)

def jsonStringByteLength (value : JsString) (budget : Nat) : Option Nat :=
  stringLoop budget 2 value

mutual

/-- The octets used after a value. -/
def chargeValue (budget used : Nat) : Json → Option Nat
  | .null => add budget used 4
  | .string s => do
    let bytes ← jsonStringByteLength s (budget - used)
    add budget used bytes
  | .bool b => add budget used (if b then 4 else 5)
  | .number n => add budget used (if n.isFinite then byteLength n.toJsString else 4)
  | .array items => do
    let used ← add budget used 1
    chargeItems budget used true items
  | .object entries => do
    let used ← add budget used 1
    chargeEntries budget used true entries

/-- The octets used after the rest of an array. -/
def chargeItems (budget used : Nat) (first : Bool) : List Json → Option Nat
  | [] => add budget used 1
  | v :: vs => do
    let used ← if first then some used else add budget used 1
    let used ← chargeValue budget used v
    chargeItems budget used false vs

/-- The octets used after the rest of an object. -/
def chargeEntries (budget used : Nat) (first : Bool) : List (JsString × Json) → Option Nat
  | [] => add budget used 1
  | (key, child) :: es => do
    let used ← if first then some used else add budget used 1
    let keyBytes ← jsonStringByteLength key (budget - used)
    let used ← add budget used (keyBytes + 1)
    let used ← chargeValue budget used child
    chargeEntries budget used false es

end

def jsonFitsByteBudget (value : Json) (budget : Nat) : Bool := (chargeValue budget 0 value).isSome

/-! ## The length of a JSON text -/

/-- The octets of a value's JSON text. -/
def textBytes (v : Json) : Nat := byteLength v.stringify

theorem byteLength_cons (h : isHighSurrogate c = false) (s : JsString) :
    byteLength (c :: s) = utf8Length c.toNat + byteLength s := by
  have hsplit : ¬ SplitsPair [c] s := not_splitsPair_of_getLast (by simpa using h)
  have := byteLength_append hsplit
  simpa [byteLength, codePoints] using this

/-- The octets of parts that are joined by an ASCII character. -/
theorem byteLength_join (parts : List JsString)
    (hrest : ∀ d ∈ rest.head?, isLowSurrogate d = false) :
    byteLength (Json.join (js ",") parts ++ rest) =
      (parts.map byteLength).sum + (parts.length - 1) + byteLength rest := by
  induction parts with
  | nil => simp [Json.join]
  | cons p ps ih =>
      cases ps with
      | nil =>
          have := byteLength_append (not_splitsPair_of_head (s := p) hrest)
          simpa [Json.join] using this
      | cons q qs =>
          have hjoin : Json.join (js ",") (p :: q :: qs) ++ rest =
              p ++ (0x2C :: (Json.join (js ",") (q :: qs) ++ rest)) := by
            simp [Json.join, js, List.intercalate]
          rw [hjoin, byteLength_append (not_splitsPair_of_head (by simp; decide)),
            byteLength_cons (by decide), ih]
          simp only [List.map_cons, List.sum_cons, List.length_cons]
          have : utf8Length (0x2C : UInt16).toNat = 1 := by decide
          omega

/-- The octets of the text of an array or an object. -/
theorem byteLength_bracketed (opening closing : String) (parts : List JsString)
    (ho : byteLength (js opening) = 1) (hc : byteLength (js closing) = 1)
    (hlast : ∀ c ∈ (js opening).getLast?, isHighSurrogate c = false)
    (hhead : ∀ d ∈ (js closing).head?, isLowSurrogate d = false) :
    byteLength (js opening ++ Json.join (js ",") parts ++ js closing) =
      (parts.map byteLength).sum + (parts.length - 1) + 2 := by
  rw [List.append_assoc, byteLength_append (not_splitsPair_of_getLast hlast),
    byteLength_join parts hhead, ho, hc]
  omega

theorem stringifyItems_eq (items : List Json) :
    Json.stringifyItems items = items.map Json.stringify := by
  induction items with
  | nil => rfl
  | cons v vs ih => rw [Json.stringifyItems, ih, List.map_cons]

theorem stringifyEntries_eq (entries : List (JsString × Json)) :
    Json.stringifyEntries entries =
      entries.map fun e => Json.quote e.1 ++ js ":" ++ e.2.stringify := by
  induction entries with
  | nil => rfl
  | cons e es ih => rw [Json.stringifyEntries, ih, List.map_cons]

theorem textBytes_array (items : List Json) :
    textBytes (.array items) = (items.map textBytes).sum + (items.length - 1) + 2 := by
  rw [textBytes, Json.stringify, stringifyItems_eq,
    byteLength_bracketed "[" "]" _ (by decide) (by decide) (by simp [js]; decide) (by simp [js]; decide),
    List.map_map, List.length_map]
  rfl

/-- The octets of a property: its quoted key, a colon and its value. -/
def propertyBytes (e : JsString × Json) : Nat := byteLength (Json.quote e.1) + 1 + textBytes e.2

theorem byteLength_property (e : JsString × Json) :
    byteLength (Json.quote e.1 ++ js ":" ++ e.2.stringify) = propertyBytes e := by
  rw [byteLength_append (not_splitsPair_of_getLast (by simp [js]; decide)),
    byteLength_append (not_splitsPair_of_head (by simp [js]; decide))]
  rfl

theorem textBytes_object (entries : List (JsString × Json)) :
    textBytes (.object entries) = (entries.map propertyBytes).sum + (entries.length - 1) + 2 := by
  rw [textBytes, Json.stringify, stringifyEntries_eq,
    byteLength_bracketed "\x7b" "\x7d" _ (by decide) (by decide) (by simp [js]; decide) (by simp [js]; decide),
    List.map_map, List.length_map]
  simp only [Function.comp_def, byteLength_property]

/-- No JSON text is empty. -/
theorem textBytes_pos (v : Json) : 0 < textBytes v := by
  cases v with
  | null => decide
  | bool b => cases b <;> decide
  | number n =>
      rw [textBytes, Json.stringify, Json.stringifyNumber]
      split
      · exact byteLength_pos n.toJsString_ne_nil
      · decide
  | string s => exact byteLength_pos (by simp [Json.stringify, Json.quote, js])
  | array items => rw [textBytes_array]; omega
  | object entries => rw [textBytes_object]; omega

/-! ## Quoted strings -/

theorem hexDigit_ascii (n : Nat) (h : n < 16) :
    isHighSurrogate (Json.hexDigit n) = false ∧ utf8Length (Json.hexDigit n).toNat = 1 := by
  have hall : ∀ n < 16, isHighSurrogate (Json.hexDigit n) = false ∧
      utf8Length (Json.hexDigit n).toNat = 1 := by decide
  exact hall n h

/-- An escape `\uXXXX` takes six octets. -/
theorem byteLength_unicodeEscape (h : c < 0x10000) : byteLength (Json.unicodeEscape c) = 6 := by
  obtain ⟨h₀, b₀⟩ := hexDigit_ascii (c / 0x1000) (by omega)
  obtain ⟨h₁, b₁⟩ := hexDigit_ascii (c / 0x100 % 0x10) (by omega)
  obtain ⟨h₂, b₂⟩ := hexDigit_ascii (c / 0x10 % 0x10) (by omega)
  obtain ⟨h₃, b₃⟩ := hexDigit_ascii (c % 0x10) (by omega)
  have hescape : Json.unicodeEscape c = 0x5C :: 0x75 :: Json.hexDigit (c / 0x1000) ::
      Json.hexDigit (c / 0x100 % 0x10) :: Json.hexDigit (c / 0x10 % 0x10) ::
      Json.hexDigit (c % 0x10) :: [] := rfl
  have hback : utf8Length (0x5C : UInt16).toNat = 1 := by decide
  have hu : utf8Length (0x75 : UInt16).toNat = 1 := by decide
  rw [hescape, byteLength_cons (by decide), byteLength_cons (by decide), byteLength_cons h₀,
    byteLength_cons h₁, byteLength_cons h₂, byteLength_cons h₃, b₀, b₁, b₂, b₃, hback, hu]
  rfl

/-- What is charged for a single code unit is what it takes inside quotes. -/
theorem byteLength_quoteCodePoint_unit (code : UInt16) :
    byteLength (Json.quoteCodePoint code.toNat) = unitBytes code := by
  have hlt := code.toNat_lt
  have hcode : UInt16.ofNat code.toNat = code := UInt16.ofNat_toNat
  unfold unitBytes
  split_ifs with hshort hcontrol hascii htwo hsurrogate
  · rcases hshort with rfl | rfl | rfl | rfl | rfl | rfl | rfl <;> decide
  all_goals
    simp only [not_or, ← UInt16.toNat_inj, UInt16.reduceToNat] at hshort
    simp only [UInt16.lt_iff_toNat_lt, UInt16.le_iff_toNat_le, UInt16.reduceToNat] at *
    unfold Json.quoteCodePoint
    simp only [hshort, if_false]
  · rw [if_pos (by simp [hcontrol]), byteLength_unicodeEscape hlt]
  · have hsingle : JsString.isSurrogate code.toNat = false := by simp [isSurrogate]; omega
    rw [if_neg (by simp [hcontrol, hsingle]), utf16, if_pos hlt, hcode]
    simp only [byteLength, codePoints, List.map_cons, List.map_nil, List.sum_cons, List.sum_nil,
      utf8Length]
    split_ifs <;> omega
  · have hsingle : JsString.isSurrogate code.toNat = false := by simp [isSurrogate]; omega
    rw [if_neg (by simp [hcontrol, hsingle]), utf16, if_pos hlt, hcode]
    simp only [byteLength, codePoints, List.map_cons, List.map_nil, List.sum_cons, List.sum_nil,
      utf8Length]
    split_ifs <;> omega
  · rw [if_pos (by simp [isSurrogate, hsurrogate]), byteLength_unicodeEscape hlt]
  · have hsingle : JsString.isSurrogate code.toNat = false := by simp [isSurrogate]; omega
    rw [if_neg (by simp [hcontrol, hsingle]), utf16, if_pos hlt, hcode]
    simp only [byteLength, codePoints, List.map_cons, List.map_nil, List.sum_cons, List.sum_nil,
      utf8Length]
    split_ifs <;> omega

/-- A code unit below `0x10000` is the number it was made from. -/
theorem toNat_unit (h : n < 0x10000) : (UInt16.ofNat n).toNat = n :=
  UInt16.toNat_ofNat_of_lt (by simpa using h)

/-- A code point beyond the Basic Multilingual Plane is written as it is. -/
theorem quoteCodePoint_pair (h : 0x10000 ≤ c) : Json.quoteCodePoint c = utf16 c := by
  have hsingle : JsString.isSurrogate c = false := by
    simp only [isSurrogate, Bool.and_eq_false_iff, decide_eq_false_iff_not]
    omega
  unfold Json.quoteCodePoint
  rw [if_neg (by omega), if_neg (by omega), if_neg (by omega), if_neg (by omega),
    if_neg (by omega), if_neg (by omega), if_neg (by omega)]
  rw [if_neg]
  simp only [hsingle, Bool.or_false, decide_eq_true_eq]
  omega

/-- A surrogate pair is the code point it stands for. -/
theorem codePoints_pair (hhi : isHighSurrogate hi = true) (hlo : isLowSurrogate lo = true) :
    codePoints [hi, lo] = [0x10000 + (hi.toNat - 0xD800) * 0x400 + (lo.toNat - 0xDC00)] := by
  rw [codePoints, if_pos (by rw [hhi, hlo]; rfl), codePoints]

theorem utf8Length_of_le (h : 0x10000 ≤ c) : utf8Length c = 4 := by
  unfold utf8Length
  rw [if_neg (by omega), if_neg (by omega), if_neg (by omega)]

theorem byteLength_quoteCodePoint_pair (h : 0x10000 ≤ c) (hc : c < 0x110000) :
    byteLength (Json.quoteCodePoint c) = 4 := by
  have hhigh : isHighSurrogate (UInt16.ofNat (0xD800 + (c - 0x10000) / 0x400)) = true := by
    simp only [isHighSurrogate, Bool.and_eq_true, decide_eq_true_eq, UInt16.le_iff_toNat_le,
      UInt16.reduceToNat]
    rw [toNat_unit (by omega)]
    omega
  have hlow : isLowSurrogate (UInt16.ofNat (0xDC00 + (c - 0x10000) % 0x400)) = true := by
    simp only [isLowSurrogate, Bool.and_eq_true, decide_eq_true_eq, UInt16.le_iff_toNat_le,
      UInt16.reduceToNat]
    rw [toNat_unit (by omega)]
    omega
  rw [quoteCodePoint_pair h, utf16, if_neg (by omega), byteLength, codePoints_pair hhigh hlow,
    List.map_singleton, List.sum_singleton]
  exact utf8Length_of_le (Nat.le_add_right_of_le (Nat.le_add_right _ _))

/-- What stands in the place of a code point does not end inside a pair. -/
theorem not_splitsPair_quoteCodePoint (c : Nat) (t : JsString) :
    ¬ SplitsPair (Json.quoteCodePoint c) t := by
  apply not_splitsPair_of_getLast
  unfold Json.quoteCodePoint
  split_ifs with h₁ h₂ h₃ h₄ h₅ h₆ h₇ hescape
  · simp [js]; decide
  · simp [js]; decide
  · simp [js]; decide
  · simp [js]; decide
  · simp [js]; decide
  · simp [js]; decide
  · simp [js]; decide
  · intro d hd
    obtain rfl : Json.hexDigit (c % 0x10) = d := Option.some.inj hd
    exact (hexDigit_ascii _ (by omega)).1
  · intro d hd
    simp only [Bool.or_eq_true, decide_eq_true_eq, not_or, isSurrogate, Bool.and_eq_true] at hescape
    rw [Bool.eq_false_iff, ne_eq, isHighSurrogate, Bool.and_eq_true, decide_eq_true_eq,
      decide_eq_true_eq, UInt16.le_iff_toNat_le, UInt16.le_iff_toNat_le]
    simp only [UInt16.reduceToNat]
    unfold utf16 at hd
    split_ifs at hd with hplane
    · obtain rfl : UInt16.ofNat c = d := Option.some.inj hd
      rw [toNat_unit hplane]
      omega
    · obtain rfl : UInt16.ofNat (0xDC00 + (c - 0x10000) % 0x400) = d := Option.some.inj hd
      rw [toNat_unit (by omega)]
      omega

/-- The octets of the code points inside quotes. -/
def quotedBytes (s : JsString) : Nat :=
  ((codePoints s).map fun c => byteLength (Json.quoteCodePoint c)).sum

theorem byteLength_flatMap_quoteCodePoint (cs : List Nat) :
    byteLength (cs.flatMap Json.quoteCodePoint ++ rest) =
      (cs.map fun c => byteLength (Json.quoteCodePoint c)).sum + byteLength rest := by
  induction cs with
  | nil => simp
  | cons c cs ih =>
      rw [List.flatMap_cons, List.append_assoc,
        byteLength_append (not_splitsPair_quoteCodePoint c _), ih, List.map_cons, List.sum_cons]
      omega

theorem byteLength_quote (s : JsString) : byteLength (Json.quote s) = quotedBytes s + 2 := by
  have hquote : js "\"" = [0x22] := rfl
  have hone : utf8Length (0x22 : UInt16).toNat = 1 := by decide
  have hlast : byteLength [0x22] = 1 := by decide
  rw [Json.quote, hquote, List.append_assoc, List.singleton_append, byteLength_cons (by decide),
    byteLength_flatMap_quoteCodePoint, hone, hlast, quotedBytes]
  omega

theorem quotedBytes_pair (rest : JsString)
    (hpair : (isHighSurrogate code && isLowSurrogate low) = true) :
    quotedBytes (code :: low :: rest) = 4 + quotedBytes rest := by
  have hmem : 0x10000 + (code.toNat - 0xD800) * 0x400 + (low.toNat - 0xDC00) ∈
      codePoints (code :: low :: rest) := by
    rw [codePoints, if_pos hpair]
    exact List.mem_cons_self
  have hlt := lt_of_mem_codePoints hmem
  have hle : 0x10000 ≤ 0x10000 + (code.toNat - 0xD800) * 0x400 + (low.toNat - 0xDC00) :=
    Nat.le_add_right_of_le (Nat.le_add_right _ _)
  rw [quotedBytes, codePoints, if_pos hpair, List.map_cons, List.sum_cons,
    byteLength_quoteCodePoint_pair hle hlt, quotedBytes]

theorem quotedBytes_unit (rest : JsString)
    (hpair : ¬ (isHighSurrogate code && isLowSurrogate low) = true) :
    quotedBytes (code :: low :: rest) = unitBytes code + quotedBytes (low :: rest) := by
  rw [quotedBytes, codePoints, if_neg hpair, List.map_cons, List.sum_cons,
    byteLength_quoteCodePoint_unit, quotedBytes]

/-! ## The charge is exact -/

/-- The loop charges the octets inside the quotes, and gives up only over the
budget. -/
theorem stringLoop_eq (budget bytes : Nat) (s : JsString) :
    stringLoop budget bytes s =
      if s ≠ [] ∧ budget < bytes + quotedBytes s then none else some (bytes + quotedBytes s) := by
  fun_induction stringLoop budget bytes s with
  | case1 bytes => simp [quotedBytes, codePoints]
  | case2 bytes code hover =>
      simp [quotedBytes, codePoints, byteLength_quoteCodePoint_unit, hover]
  | case3 bytes code hfits =>
      simp [quotedBytes, codePoints, byteLength_quoteCodePoint_unit, hfits]
  | case4 bytes code low rest hpair hover =>
      have := quotedBytes_pair rest hpair
      rw [if_pos ⟨by simp, by omega⟩]
  | case5 bytes code low rest hpair hfits ih =>
      have := quotedBytes_pair rest hpair
      rw [ih, this]
      by_cases hrest : rest = []
      · subst hrest
        have hnil : quotedBytes [] = 0 := rfl
        rw [if_neg (by simp), if_neg (by simp; omega)]
        congr 1
      · simp only [hrest, ne_eq, not_false_eq_true, true_and, reduceCtorEq]
        congr 1
        · rw [eq_iff_iff]; omega
        · congr 1; omega
  | case6 bytes code low rest hpair hover =>
      have := quotedBytes_unit rest hpair
      rw [if_pos ⟨by simp, by omega⟩]
  | case7 bytes code low rest hpair hfits ih =>
      have := quotedBytes_unit rest hpair
      rw [ih, this]
      simp only [ne_eq, reduceCtorEq, not_false_eq_true, true_and]
      congr 1
      · rw [eq_iff_iff]; omega
      · congr 1; omega

/-- A quoted string and `bytes` more: charged in full, or over the budget. -/
theorem jsonStringByteLength_add (budget used bytes : Nat) (s : JsString) :
    ((jsonStringByteLength s (budget - used)).bind fun n => add budget used (n + bytes)) =
      add budget used (byteLength (Json.quote s) + bytes) := by
  rw [jsonStringByteLength, stringLoop_eq, byteLength_quote, Nat.add_comm 2]
  split_ifs with hover
  · rw [Option.bind_none, add, if_neg (by omega)]
  · rfl

/-- Charging twice is charging the sum. -/
theorem add_bind_add (budget used m n : Nat) :
    ((add budget used m).bind fun used => add budget used n) = add budget used (m + n) := by
  unfold add
  split_ifs with hm hmn hmn
  · rw [Option.bind_some, if_pos (by omega), Nat.add_assoc]
  · rw [Option.bind_some, if_neg (by omega)]
  · omega
  · rfl

/-- The commas and the items of the rest of an array. -/
theorem chargeItems_eq
    (h : ∀ v ∈ items, ∀ used, chargeValue budget used v = add budget used (textBytes v))
    (used : Nat) (first : Bool) : chargeItems budget used first items =
      if first then add budget used ((items.map textBytes).sum + (items.length - 1) + 1)
      else add budget used ((items.map textBytes).sum + items.length + 1) := by
  induction items generalizing used first with
  | nil => cases first <;> rfl
  | cons v vs ih =>
      have hv := h v List.mem_cons_self
      have hvs := ih fun w hw => h w (List.mem_cons_of_mem v hw)
      cases first with
      | true =>
          simp only [chargeItems, if_true, Option.bind_eq_bind, Option.bind_some, hv, hvs,
            Bool.false_eq_true, if_false, add_bind_add, List.map_cons, List.sum_cons,
            List.length_cons]
          congr 1; omega
      | false =>
          simp only [chargeItems, Bool.false_eq_true, if_false, Option.bind_eq_bind, hv, hvs,
            add_bind_add, List.map_cons, List.sum_cons, List.length_cons]
          congr 1; omega

/-- The commas and the properties of the rest of an object. -/
theorem chargeEntries_eq
    (h : ∀ e ∈ entries, ∀ used, chargeValue budget used e.2 = add budget used (textBytes e.2))
    (used : Nat) (first : Bool) : chargeEntries budget used first entries =
      if first then add budget used ((entries.map propertyBytes).sum + (entries.length - 1) + 1)
      else add budget used ((entries.map propertyBytes).sum + entries.length + 1) := by
  induction entries generalizing used first with
  | nil => cases first <;> rfl
  | cons e es ih =>
      have he := h e List.mem_cons_self
      have hes := ih fun w hw => h w (List.mem_cons_of_mem e hw)
      have hproperty (used : Nat) :
          ((jsonStringByteLength e.1 (budget - used)).bind fun keyBytes =>
            (add budget used (keyBytes + 1)).bind fun used =>
              (chargeValue budget used e.2).bind fun used =>
                chargeEntries budget used false es) =
          add budget used (propertyBytes e + ((es.map propertyBytes).sum + es.length + 1)) := by
        simp only [he, hes, Bool.false_eq_true, if_false, add_bind_add, Nat.add_assoc]
        rw [jsonStringByteLength_add, propertyBytes]
        congr 1; omega
      cases first with
      | true =>
          simp only [chargeEntries, if_true, Option.bind_eq_bind, Option.bind_some, hproperty,
            List.map_cons, List.sum_cons, List.length_cons]
          congr 1; omega
      | false =>
          simp only [chargeEntries, Bool.false_eq_true, if_false, Option.bind_eq_bind, hproperty,
            add_bind_add, List.map_cons, List.sum_cons, List.length_cons]
          congr 1; omega

/-- A value is charged the octets of its text. -/
theorem chargeValue_eq (budget used : Nat) (v : Json) :
    chargeValue budget used v = add budget used (textBytes v) := by
  induction v using Json.induction generalizing used with
  | null => rfl
  | bool b => cases b <;> rfl
  | number n =>
      rw [chargeValue, textBytes, Json.stringify, Json.stringifyNumber]
      split <;> rfl
  | string s =>
      rw [chargeValue]
      exact jsonStringByteLength_add budget used 0 s
  | array items ih =>
      rw [chargeValue, textBytes_array]
      simp only [Option.bind_eq_bind, chargeItems_eq ih, if_true, add_bind_add]
      congr 1; omega
  | object entries ih =>
      rw [chargeValue, textBytes_object]
      simp only [Option.bind_eq_bind, chargeEntries_eq ih, if_true, add_bind_add]
      congr 1; omega

/-- The preflight accepts exactly the values whose JSON text fits. -/
theorem jsonFitsByteBudget_iff (v : Json) (budget : Nat) :
    jsonFitsByteBudget v budget = true ↔ byteLength v.stringify ≤ budget := by
  rw [jsonFitsByteBudget, chargeValue_eq, add, Nat.zero_add, textBytes]
  split_ifs with h
  · exact iff_of_true rfl h
  · exact iff_of_false Bool.false_ne_true h

end StonePlus.Replay
