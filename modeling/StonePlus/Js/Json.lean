import StonePlus.Js.Number
import StonePlus.Js.Unicode

/-!
# StonePlus.Js.Json

JSON values and the language's `JSON` object: `parse`, `stringify`, property
order, and `String(value)` of a JSON value.

An object is the list of its own properties in the order the language
enumerates them.  `parse` reads the text as tokens and runs a stack machine
over them, so it is total.
-/

namespace StonePlus

/-- A value `JSON.parse` can return. -/
inductive Json
  | null
  | bool (value : Bool)
  | number (value : JsNumber)
  | string (value : JsString)
  | array (items : List Json)
  | object (entries : List (JsString × Json))
  deriving Inhabited

namespace Json

/-! ## Equality and induction -/

/-- Induction over a value: an array's items and an object's property values
satisfy the property before the array and the object do. -/
@[elab_as_elim]
theorem induction {motive : Json → Prop} (null : motive .null) (bool : ∀ b, motive (.bool b))
    (number : ∀ n, motive (.number n)) (string : ∀ s, motive (.string s))
    (array : ∀ items, (∀ v ∈ items, motive v) → motive (.array items))
    (object : ∀ entries, (∀ e ∈ entries, motive e.2) → motive (.object entries)) :
    ∀ v, motive v
  | .null => null
  | .bool b => bool b
  | .number n => number n
  | .string s => string s
  | .array items =>
      array items fun v _ => induction null bool number string array object v
  | .object entries =>
      object entries fun e _ => induction null bool number string array object e.2
termination_by v => sizeOf v
decreasing_by
  · simp_wf
    have := List.sizeOf_lt_of_mem ‹v ∈ items›
    omega
  · simp_wf
    have := List.sizeOf_lt_of_mem ‹e ∈ entries›
    obtain ⟨k, v⟩ := e
    simp only [Prod.mk.sizeOf_spec] at this ⊢
    omega

mutual

/-- Structural equality. -/
def beq : Json → Json → Bool
  | .null, .null => true
  | .bool a, .bool b => a == b
  | .number a, .number b => decide (a = b)
  | .string a, .string b => a == b
  | .array a, .array b => beqItems a b
  | .object a, .object b => beqEntries a b
  | _, _ => false

def beqItems : List Json → List Json → Bool
  | [], [] => true
  | a :: as, b :: bs => beq a b && beqItems as bs
  | _, _ => false

def beqEntries : List (JsString × Json) → List (JsString × Json) → Bool
  | [], [] => true
  | (k, a) :: as, (l, b) :: bs => k == l && beq a b && beqEntries as bs
  | _, _ => false

end

theorem beqItems_iff (h : ∀ a ∈ as, ∀ b, beq a b = true ↔ a = b) :
    beqItems as bs = true ↔ as = bs := by
  induction as generalizing bs with
  | nil => cases bs <;> simp [beqItems]
  | cons a as ih =>
      cases bs with
      | nil => simp [beqItems]
      | cons b bs =>
          have hhead := h a List.mem_cons_self b
          have htail : beqItems as bs = true ↔ as = bs :=
            ih fun x hx => h x (List.mem_cons_of_mem a hx)
          simp [beqItems, hhead, htail]

theorem beqEntries_iff (h : ∀ a ∈ as, ∀ b, beq a.2 b = true ↔ a.2 = b) :
    beqEntries as bs = true ↔ as = bs := by
  induction as generalizing bs with
  | nil => cases bs <;> simp [beqEntries]
  | cons a as ih =>
      cases bs with
      | nil => simp [beqEntries]
      | cons b bs =>
          have hhead := h a List.mem_cons_self b.2
          have htail : beqEntries as bs = true ↔ as = bs :=
            ih fun x hx => h x (List.mem_cons_of_mem a hx)
          simp [beqEntries, hhead, htail, Prod.ext_iff]

theorem beq_iff (a b : Json) : beq a b = true ↔ a = b := by
  induction a using Json.induction generalizing b with
  | null => cases b <;> simp [beq]
  | bool | number | string => cases b <;> simp [beq]
  | array items ih => cases b <;> simp [beq, beqItems_iff ih]
  | object entries ih => cases b <;> simp [beq, beqEntries_iff ih]

instance : DecidableEq Json := fun a b => decidable_of_iff _ (beq_iff a b)

/-! ## Properties -/

/-- A decimal digit. -/
def isDigit (c : UInt16) : Bool := 0x30 ≤ c && c ≤ 0x39

/-- The number a run of decimal digits denotes. -/
def digitsValue (digits : JsString) : Nat :=
  digits.foldl (fun n c => 10 * n + (c.toNat - 0x30)) 0

/-- The integer an array index key spells. -/
def arrayIndex? (key : JsString) : Option Nat :=
  let n := digitsValue key
  if key.all isDigit ∧ natToString n = key ∧ n < 2 ^ 32 - 1 then some n else none

/-- Whether an existing key is enumerated before a new one: array indices
come first and in ascending order, then the other keys in creation order. -/
def enumeratedBefore (existing key : JsString) : Bool :=
  match arrayIndex? existing, arrayIndex? key with
  | some m, some n => m < n
  | some _, none => true
  | none, some _ => false
  | none, none => true

/-- Create or overwrite an own property. -/
def setProperty (key : JsString) (value : Json) :
    List (JsString × Json) → List (JsString × Json)
  | [] => [(key, value)]
  | e :: es =>
    if e.1 = key then (key, value) :: es
    else if key ∈ es.map Prod.fst ∨ enumeratedBefore e.1 key then e :: setProperty key value es
    else (key, value) :: e :: es

/-- The own property of an entry list. -/
def property? (entries : List (JsString × Json)) (key : JsString) : Option Json :=
  (entries.find? fun e => e.1 == key).map Prod.snd

/-- The own property of a value; `none` is `undefined`. -/
def get? (v : Json) (key : JsString) : Option Json :=
  match v with
  | .object entries => property? entries key
  | _ => none

/-- `isJsonObject`: neither null, nor a scalar, nor an array. -/
def isJsonObject : Json → Bool
  | .object _ => true
  | _ => false

/-! ## JSON.stringify -/

/-- A lower-case hexadecimal digit. -/
def hexDigit (n : Nat) : UInt16 := UInt16.ofNat (if n < 10 then 0x30 + n else 0x57 + n)

/-- The escape `\uXXXX` of a code unit. -/
def unicodeEscape (c : Nat) : JsString :=
  js "\\u" ++ [hexDigit (c / 0x1000), hexDigit (c / 0x100 % 0x10), hexDigit (c / 0x10 % 0x10),
    hexDigit (c % 0x10)]

/-- How a code point stands inside a quoted string. -/
def quoteCodePoint (c : Nat) : JsString :=
  if c = 0x08 then js "\\b" else if c = 0x09 then js "\\t"
  else if c = 0x0A then js "\\n" else if c = 0x0C then js "\\f"
  else if c = 0x0D then js "\\r" else if c = 0x22 then js "\\\""
  else if c = 0x5C then js "\\\\"
  else if c < 0x20 || JsString.isSurrogate c then unicodeEscape c
  else JsString.utf16 c

/-- `JSON.stringify` of a string. -/
def quote (s : JsString) : JsString := js "\"" ++ s.codePoints.flatMap quoteCodePoint ++ js "\""

/-- `JSON.stringify` of a number: an infinity becomes `null`. -/
def stringifyNumber (n : JsNumber) : JsString := if n.isFinite then n.toJsString else js "null"

/-- `parts.join(separator)`. -/
def join (separator : JsString) (parts : List JsString) : JsString := separator.intercalate parts

mutual

/-- `JSON.stringify`. -/
def stringify : Json → JsString
  | .null => js "null"
  | .bool b => if b then js "true" else js "false"
  | .number n => stringifyNumber n
  | .string s => quote s
  | .array items => js "[" ++ join (js ",") (stringifyItems items) ++ js "]"
  | .object entries => js "\x7b" ++ join (js ",") (stringifyEntries entries) ++ js "\x7d"

def stringifyItems : List Json → List JsString
  | [] => []
  | v :: vs => stringify v :: stringifyItems vs

def stringifyEntries : List (JsString × Json) → List JsString
  | [] => []
  | (k, v) :: es => (quote k ++ js ":" ++ stringify v) :: stringifyEntries es

end

mutual

/-- `String(value)`. -/
def toJsString : Json → JsString
  | .null => js "null"
  | .bool b => if b then js "true" else js "false"
  | .number n => n.toJsString
  | .string s => s
  | .array items => join (js ",") (elementStrings items)
  | .object _ => js "[object Object]"

/-- The elements as `Array.prototype.join` writes them: null as nothing. -/
def elementStrings : List Json → List JsString
  | [] => []
  | .null :: vs => [] :: elementStrings vs
  | v :: vs => toJsString v :: elementStrings vs

end

/-! ## JSON.parse -/

/-- A token of a JSON text: a scalar, or a bracket, colon or comma. -/
inductive Token
  | scalar (value : Json)
  | punctuation (c : UInt16)

/-- The code unit a one-letter escape stands for. -/
def escaped? (c : UInt16) : Option UInt16 :=
  if c = 0x22 ∨ c = 0x5C ∨ c = 0x2F then some c
  else if c = 0x62 then some 0x08 else if c = 0x66 then some 0x0C
  else if c = 0x6E then some 0x0A else if c = 0x72 then some 0x0D
  else if c = 0x74 then some 0x09 else none

/-- The value of a hexadecimal digit. -/
def hexValue? (c : UInt16) : Option Nat :=
  if 0x30 ≤ c ∧ c ≤ 0x39 then some (c.toNat - 0x30)
  else if 0x61 ≤ c ∧ c ≤ 0x66 then some (c.toNat - 0x57)
  else if 0x41 ≤ c ∧ c ≤ 0x46 then some (c.toNat - 0x37) else none

/-- The code unit of four hexadecimal digits. -/
def hexUnit? (a b c d : UInt16) : Option UInt16 := do
  let a ← hexValue? a
  let b ← hexValue? b
  let c ← hexValue? c
  let d ← hexValue? d
  some (UInt16.ofNat (a * 0x1000 + b * 0x100 + c * 0x10 + d))

/-- The rest of a string literal after its opening quote: its value and the
text after its closing quote. -/
def scanString : JsString → Option (JsString × JsString)
  | [] => none
  | c :: rest =>
    if c = 0x22 then some ([], rest)
    else if c < 0x20 then none
    else if c ≠ 0x5C then (scanString rest).map fun (s, rest) => (c :: s, rest)
    else match rest with
      | 0x75 :: a :: b :: c :: d :: rest => do
        let unit ← hexUnit? a b c d
        let (s, rest) ← scanString rest
        some (unit :: s, rest)
      | e :: rest => do
        let unit ← escaped? e
        let (s, rest) ← scanString rest
        some (unit :: s, rest)
      | [] => none

theorem length_of_scanString (h : scanString text = some (s, rest)) :
    rest.length < text.length := by
  fun_induction scanString text generalizing s rest with
  | case1 => cases h
  | case2 => cases h; simp
  | case3 => cases h
  | case4 c tail hquote hcontrol hplain ih =>
      obtain ⟨⟨s', rest'⟩, hscan, heq⟩ := Option.map_eq_some_iff.mp h
      cases heq
      exact (ih hscan).trans (Nat.lt_succ_self _)
  | case5 c a b x d tail hquote hcontrol hplain ih =>
      obtain ⟨unit, -, h⟩ := Option.bind_eq_some_iff.mp h
      obtain ⟨⟨s', rest'⟩, hscan, heq⟩ := Option.bind_eq_some_iff.mp h
      cases heq
      have := ih hscan
      simp only [List.length_cons]
      omega
  | case6 c e tail hquote hcontrol hplain hescape ih =>
      obtain ⟨unit, -, h⟩ := Option.bind_eq_some_iff.mp h
      obtain ⟨⟨s', rest'⟩, hscan, heq⟩ := Option.bind_eq_some_iff.mp h
      cases heq
      have := ih hscan
      simp only [List.length_cons]
      omega
  | case7 => cases h

/-- A non-empty run of digits and what follows it. -/
def scanDigits (s : JsString) : Option (JsString × JsString) :=
  let digits := s.takeWhile isDigit
  if digits = [] then none else some (digits, s.dropWhile isDigit)

/-- The exponent part of a number literal, which ends the literal. -/
def scanExponent : JsString → Option Int
  | [] => some 0
  | c :: rest => do
    guard (c = 0x65 ∨ c = 0x45)
    let (negative, rest) := match rest with
      | 0x2B :: rest => (false, rest)
      | 0x2D :: rest => (true, rest)
      | rest => (false, rest)
    let (digits, rest) ← scanDigits rest
    guard (rest = [])
    some (if negative then -digitsValue digits else digitsValue digits)

/-- The value of a complete number literal. -/
def scanNumber (lexeme : JsString) : Option JsNumber := do
  let (negative, rest) := match lexeme with
    | 0x2D :: rest => (true, rest)
    | rest => (false, rest)
  let (integer, rest) ← scanDigits rest
  guard (integer.length = 1 ∨ integer.head? ≠ some 0x30)
  let (fraction, rest) ← match rest with
    | 0x2E :: rest => scanDigits rest
    | rest => some ([], rest)
  let exponent ← scanExponent rest
  some (JsNumber.ofDecimal negative (digitsValue (integer ++ fraction))
    (exponent - fraction.length))

/-- The code units of number literals.  No other token starts with one, so the
longest run of them is the literal or the text is malformed. -/
def isNumberPart (c : UInt16) : Bool :=
  isDigit c || c == 0x2B || c == 0x2D || c == 0x2E || c == 0x45 || c == 0x65

/-- A lower-case letter: the literals `true`, `false` and `null` are runs of them. -/
def isLetter (c : UInt16) : Bool := 0x61 ≤ c && c ≤ 0x7A

/-- The value of a literal name. -/
def literal? (lexeme : JsString) : Option Json :=
  if lexeme = js "true" then some (.bool true)
  else if lexeme = js "false" then some (.bool false)
  else if lexeme = js "null" then some .null
  else none

/-- White space between tokens. -/
def isJsonSpace (c : UInt16) : Bool := c == 0x20 || c == 0x09 || c == 0x0A || c == 0x0D

/-- Brackets, colon and comma. -/
def isPunctuation (c : UInt16) : Bool :=
  c == 0x5B || c == 0x5D || c == 0x7B || c == 0x7D || c == 0x3A || c == 0x2C

/-- The tokens of a text. -/
def tokens (text : JsString) : Option (List Token) :=
  match text with
  | [] => some []
  | c :: rest =>
    if isJsonSpace c then tokens rest
    else if isPunctuation c then (tokens rest).map (.punctuation c :: ·)
    else if c = 0x22 then
      match _h : scanString rest with
      | none => none
      | some (s, rest) => (tokens rest).map (.scalar (.string s) :: ·)
    else if isLetter c then do
      let value ← literal? (c :: rest.takeWhile isLetter)
      (tokens (rest.dropWhile isLetter)).map (.scalar value :: ·)
    else if isDigit c ∨ c = 0x2D then do
      let value ← scanNumber (c :: rest.takeWhile isNumberPart)
      (tokens (rest.dropWhile isNumberPart)).map (.scalar (.number value) :: ·)
    else none
termination_by text.length
decreasing_by
  · simp
  · simp
  · exact (length_of_scanString _h).trans (Nat.lt_succ_self _)
  · exact Nat.lt_succ_of_le (List.dropWhile_sublist _).length_le
  · exact Nat.lt_succ_of_le (List.dropWhile_sublist _).length_le

/-- An array or object whose end has not been read: its items so far, or its
properties so far and the key whose value comes next. -/
inductive Frame
  | array (items : List Json)
  | object (entries : List (JsString × Json)) (key : JsString)

/-- The states of the parser.  The enclosing arrays and objects are a stack. -/
inductive Parsing
  /-- A value comes next; right after `[` the array may also close. -/
  | value (closable : Bool) (stack : List Frame)
  /-- A key comes next; right after the opening brace the object may also close. -/
  | key (closable : Bool) (entries : List (JsString × Json)) (stack : List Frame)
  /-- The colon after a key comes next. -/
  | colon (entries : List (JsString × Json)) (key : JsString) (stack : List Frame)
  /-- A comma or the closing bracket comes next. -/
  | afterItem (items : List Json) (stack : List Frame)
  /-- A comma or the closing brace comes next. -/
  | afterProperty (entries : List (JsString × Json)) (stack : List Frame)
  /-- The text is complete. -/
  | finished (value : Json)

/-- A value is complete: it goes into the innermost open array or object. -/
def plug (value : Json) : List Frame → Parsing
  | [] => .finished value
  | .array items :: stack => .afterItem (items ++ [value]) stack
  | .object entries key :: stack => .afterProperty (setProperty key value entries) stack

/-- One token. -/
def parseToken : Parsing → Token → Option Parsing
  | .value _ stack, .scalar v => some (plug v stack)
  | .value closable stack, .punctuation c =>
    if c = 0x5B then some (.value true (.array [] :: stack))
    else if c = 0x7B then some (.key true [] stack)
    else if c = 0x5D ∧ closable then
      match stack with
      | .array items :: stack => some (plug (.array items) stack)
      | _ => none
    else none
  | .key _ entries stack, .scalar (.string key) => some (.colon entries key stack)
  | .key closable entries stack, .punctuation c =>
    if c = 0x7D ∧ closable then some (plug (.object entries) stack) else none
  | .colon entries key stack, .punctuation c =>
    if c = 0x3A then some (.value false (.object entries key :: stack)) else none
  | .afterItem items stack, .punctuation c =>
    if c = 0x2C then some (.value false (.array items :: stack))
    else if c = 0x5D then some (plug (.array items) stack)
    else none
  | .afterProperty entries stack, .punctuation c =>
    if c = 0x2C then some (.key false entries stack)
    else if c = 0x7D then some (plug (.object entries) stack)
    else none
  | _, _ => none

/-- `JSON.parse`; `none` is a SyntaxError. -/
def parse (text : JsString) : Option Json := do
  let tokens ← tokens text
  match ← tokens.foldlM parseToken (.value false []) with
  | .finished v => some v
  | _ => none

example : parse (js " [1.50, \x7b\"b\":null,\"7\":[],\"b\":\"\\u00e9\\n\"\x7d] ") =
    some (.array [.number 1.5, .object [(js "7", .array []), (js "b", .string [0xE9, 0x0A])]]) := by
  decide +kernel

example : [js "[1,]", js "01", js "\"\t\"", js "[1 2]", js ""].map parse =
    [none, none, none, none, none] := by decide +kernel

example : stringify (.object [(js "a", .array [.number 1, .bool true]), (js "b", .string [0x22, 1])]) =
    js "\x7b\"a\":[1,true],\"b\":\"\\\"\\u0001\"\x7d" := by decide +kernel

end Json

end StonePlus
