import StonePlus.Js.Json
import StonePlus.Js.Map
import StonePlus.Js.TextDecoder
import StonePlus.Types

/-!
# StonePlus.Replay.JsonValidator

`StreamingProtocolJsonValidator` of `gateway/request-replay.ts`, which reads a replayed
response as it arrives and keeps no more of it than the open containers and the fields of the
root object.

The token part (`consumeToken` and below) and the character part have a state each; the
validator has both and the decoder.
-/

namespace StonePlus.Replay

/-! ## Tokens -/

inductive JsonToken
  | string (value : JsString)
  | number
  | literal (value : JsString)
  | punctuation (value : UInt16)
  deriving DecidableEq, Repr

inductive ObjectState
  | key | colon | value | comma
  deriving DecidableEq, Repr

inductive ArrayState
  | value | comma
  deriving DecidableEq, Repr

inductive JsonContainer
  | object (state : ObjectState) (allowEnd : Bool) (key : Option JsString)
  | array (state : ArrayState) (allowEnd : Bool)
  deriving DecidableEq, Repr

inductive RootJsonField
  | string (value : JsString)
  | object | array | number | boolean | null
  deriving DecidableEq, Repr

/-- What the validator knows of the tokens read. The innermost container comes first. -/
structure TokenState where
  stack : List JsonContainer := []
  rootFields : JsMap JsString RootJsonField := ∅
  invalid : Bool := false
  rootStarted : Bool := false
  rootComplete : Bool := false
  deriving DecidableEq

namespace TokenState

def reject (s : TokenState) : TokenState := { s with invalid := true }

/-- `closeContainer`, where the kind is that of the container on top. -/
def closeContainer (s : TokenState) : TokenState :=
  { s with stack := s.stack.tail, rootComplete := s.rootComplete || s.stack.tail.isEmpty }

end TokenState

/-- The root field a value's first token makes. -/
def JsonToken.field? : JsonToken → Option RootJsonField
  | .string value => some (.string value)
  | .number => some .number
  | .literal value => some (if value = js "null" then .null else .boolean)
  | .punctuation c => if c = 0x7B then some .object else if c = 0x5B then some .array else none

/-- The container a value's first token opens. -/
def JsonToken.opened : JsonToken → List JsonContainer
  | .punctuation c =>
    if c = 0x7B then [.object .key true none] else if c = 0x5B then [.array .value true] else []
  | _ => []

/-- `context.state = 'comma'`. -/
def JsonContainer.afterValue : JsonContainer → JsonContainer
  | .object _ allowEnd key => .object .comma allowEnd key
  | .array _ allowEnd => .array .comma allowEnd

namespace TokenState

/-- The root field of a value in the root object. -/
def recordField (s : TokenState) (context : JsonContainer) (rest : List JsonContainer)
    (field : RootJsonField) : TokenState :=
  match context, rest with
  | .object _ _ (some key), [] =>
    if key ≠ [] then { s with rootFields := s.rootFields.set key field } else s
  | _, _ => s

def consumeValue (s : TokenState) (context : JsonContainer) (rest : List JsonContainer)
    (token : JsonToken) : TokenState :=
  match token.field? with
  | none => s.reject
  | some field =>
    { s.recordField context rest field with stack := token.opened ++ context.afterValue :: rest }

def consumeObjectToken (s : TokenState) (state : ObjectState) (allowEnd : Bool)
    (key : Option JsString) (rest : List JsonContainer) (token : JsonToken) : TokenState :=
  match state with
  | .key =>
    if token = .punctuation 0x7D ∧ allowEnd then s.closeContainer
    else
      match token with
      | .string value => { s with stack := .object .colon false (some value) :: rest }
      | _ => s.reject
  | .colon =>
    if token = .punctuation 0x3A then { s with stack := .object .value allowEnd key :: rest }
    else s.reject
  | .value => s.consumeValue (.object .value allowEnd key) rest token
  | .comma =>
    if token = .punctuation 0x2C then { s with stack := .object .key false key :: rest }
    else if token = .punctuation 0x7D then s.closeContainer
    else s.reject

def consumeArrayToken (s : TokenState) (state : ArrayState) (allowEnd : Bool)
    (rest : List JsonContainer) (token : JsonToken) : TokenState :=
  match state with
  | .value =>
    if token = .punctuation 0x5D ∧ allowEnd then s.closeContainer
    else s.consumeValue (.array .value false) rest token
  | .comma =>
    if token = .punctuation 0x2C then { s with stack := .array .value false :: rest }
    else if token = .punctuation 0x5D then s.closeContainer
    else s.reject

def consumeToken (s : TokenState) (token : JsonToken) : TokenState :=
  if s.invalid then s
  else
    match s.stack with
    | [] =>
      if s.rootStarted ∨ token ≠ .punctuation 0x7B then s.reject
      else { s with rootStarted := true, stack := [.object .key true none] }
    | .object state allowEnd key :: rest => s.consumeObjectToken state allowEnd key rest token
    | .array state allowEnd :: rest => s.consumeArrayToken state allowEnd rest token

end TokenState

/-! ## Characters -/

inductive ReadingMode
  | normal | string | number | literal
  deriving DecidableEq, Repr

inductive NumberState
  | minus | zero | integer | dot | fraction | exponent | exponentSign | exponentDigits
  deriving DecidableEq, Repr

/-- What the validator knows of the token being read, and of those before it. -/
structure TextState extends TokenState where
  mode : ReadingMode := .normal
  stringValue : JsString := []
  escaped : Bool := false
  unicodeRemaining : Nat := 0
  unicodeValue : Nat := 0
  numberState : NumberState := .integer
  literal : JsString := []
  literalIndex : Nat := 0
  deriving DecidableEq

/-- What a character does to a number: it goes on, it is malformed, or it ended before the
character. -/
inductive NumberStep
  | next (state : NumberState)
  | fail
  | finished
  deriving DecidableEq, Repr

def NumberState.step (state : NumberState) (c : UInt16) : NumberStep :=
  let digit := Json.isDigit c
  match state with
  | .minus => if !digit then .fail else .next (if c = 0x30 then .zero else .integer)
  | .zero =>
    if c = 0x2E then .next .dot
    else if c = 0x65 ∨ c = 0x45 then .next .exponent
    else if digit then .fail
    else .finished
  | .integer =>
    if digit then .next .integer
    else if c = 0x2E then .next .dot
    else if c = 0x65 ∨ c = 0x45 then .next .exponent
    else .finished
  | .dot => if !digit then .fail else .next .fraction
  | .fraction =>
    if digit then .next .fraction
    else if c = 0x65 ∨ c = 0x45 then .next .exponent
    else .finished
  | .exponent =>
    if c = 0x2B ∨ c = 0x2D then .next .exponentSign
    else if !digit then .fail
    else .next .exponentDigits
  | .exponentSign => if !digit then .fail else .next .exponentDigits
  | .exponentDigits => if digit then .next .exponentDigits else .finished

/-- The states in which a number may end. -/
def NumberState.complete : NumberState → Bool
  | .zero | .integer | .fraction | .exponentDigits => true
  | _ => false

namespace TextState

def reject (s : TextState) : TextState := { s with toTokenState := s.toTokenState.reject }

/-- `consumeToken`, back in normal mode. -/
def token (s : TextState) (token : JsonToken) : TextState :=
  { s with toTokenState := s.toTokenState.consumeToken token, mode := .normal }

def appendString (s : TextState) (value : JsString) : TextState :=
  if s.stringValue.length < 512 then
    { s with stringValue := s.stringValue ++ value.take (512 - s.stringValue.length) }
  else s

def consumeStringCharacter (s : TextState) (c : UInt16) : TextState :=
  if 0 < s.unicodeRemaining then
    match Json.hexValue? c with
    | none => s.reject
    | some digit =>
      let s := { s with
        unicodeValue := s.unicodeValue * 16 + digit, unicodeRemaining := s.unicodeRemaining - 1 }
      if s.unicodeRemaining = 0 then s.appendString [UInt16.ofNat s.unicodeValue] else s
  else if s.escaped then
    let s := { s with escaped := false }
    if c = 0x75 then { s with unicodeRemaining := 4, unicodeValue := 0 }
    else
      match Json.escaped? c with
      | none => s.reject
      | some unit => s.appendString [unit]
  else if c = 0x5C then { s with escaped := true }
  else if c = 0x22 then s.token (.string s.stringValue)
  else if c < 0x20 then s.reject
  else s.appendString [c]

def consumeLiteralCharacter (s : TextState) (c : UInt16) : TextState :=
  if s.literal[s.literalIndex]? ≠ some c then s.reject
  else
    let s := { s with literalIndex := s.literalIndex + 1 }
    if s.literalIndex ≠ s.literal.length then s else s.token (.literal s.literal)

def startNumber (s : TextState) (c : UInt16) : TextState :=
  { s with
    mode := .number
    numberState := if c = 0x2D then .minus else if c = 0x30 then .zero else .integer }

def finishNumber (s : TextState) : TextState :=
  if s.numberState.complete then s.token .number else s.reject

/-- A character between tokens. -/
def consumeNormalCharacter (s : TextState) (c : UInt16) : TextState :=
  if JsString.isWhitespace c then s
  else if c = 0x22 then
    { s with mode := .string, stringValue := [], escaped := false, unicodeRemaining := 0 }
  else if c = 0x2D ∨ Json.isDigit c then s.startNumber c
  else if c = 0x74 then { s with literal := js "true", literalIndex := 1, mode := .literal }
  else if c = 0x66 then { s with literal := js "false", literalIndex := 1, mode := .literal }
  else if c = 0x6E then { s with literal := js "null", literalIndex := 1, mode := .literal }
  else if Json.isPunctuation c then s.token (.punctuation c)
  else s.reject

/-- A character in a number.  One that is not part of it is read again, between tokens. -/
def consumeNumberCharacter (s : TextState) (c : UInt16) : TextState :=
  match s.numberState.step c with
  | .next state => { s with numberState := state }
  | .fail => s.reject
  | .finished =>
    let s := s.finishNumber
    if s.invalid then s else s.consumeNormalCharacter c

/-- One character; `consumeText` stops where the text is invalid. -/
def consumeCharacter (s : TextState) (c : UInt16) : TextState :=
  if s.invalid then s
  else
    match s.mode with
    | .string => s.consumeStringCharacter c
    | .literal => s.consumeLiteralCharacter c
    | .number => s.consumeNumberCharacter c
    | .normal => s.consumeNormalCharacter c

def consumeText (s : TextState) (text : JsString) : TextState := text.foldl consumeCharacter s

/-- The checks at the end of the text. -/
def finishText (s : TextState) : TextState :=
  if s.invalid then s
  else
    let s := match s.mode with
      | .number => s.finishNumber
      | .normal => s
      | _ => s.reject
    if !s.rootComplete || !s.stack.isEmpty then s.reject else s

end TextState

/-! ## The validator -/

structure StreamingProtocolJsonValidator extends TextState where
  decoder : TextDecoder := {}

namespace StreamingProtocolJsonValidator

/-- `try { consumeText(decoder.decode(…)) } catch { invalid = true }`. -/
def push (v : StreamingProtocolJsonValidator) (chunk : Bytes) : StreamingProtocolJsonValidator :=
  if v.invalid then v
  else
    match v.decoder.decodeFatal chunk with
    | none => { v with toTextState := v.toTextState.reject }
    | some (text, decoder) =>
      { v with toTextState := v.toTextState.consumeText text, decoder := decoder }

def finish (v : StreamingProtocolJsonValidator) : StreamingProtocolJsonValidator :=
  if v.invalid then v
  else if v.decoder.pending then { v with toTextState := v.toTextState.reject }
  else { v with toTextState := v.toTextState.finishText }

/-- `this.rootFields.get(key)?.type === 'array'`. -/
def hasField (v : StreamingProtocolJsonValidator) (key : String) (field : RootJsonField) : Bool :=
  v.rootFields.get? (js key) = some field

def isValid (protocol : Option Protocol) (compactResponse : Bool)
    (v : StreamingProtocolJsonValidator) : Bool :=
  if v.invalid || !v.rootComplete then false
  else
    match protocol with
    | none => true
    | some .openaiResponses =>
      if compactResponse then v.hasField "output" .array
      else v.hasField "status" (.string (js "completed")) ||
        v.hasField "status" (.string (js "incomplete"))
    | some .openaiChat => v.hasField "choices" .array
    | some .anthropicMessages => v.hasField "content" .array
    | some _ => v.hasField "candidates" .array || v.hasField "promptFeedback" .object ||
        v.hasField "prompt_feedback" .object

/-- A validator over a response that arrives in chunks. -/
def validate (protocol : Option Protocol) (compactResponse : Bool) (chunks : List Bytes) : Bool :=
  (chunks.foldl push {}).finish.isValid protocol compactResponse

end StreamingProtocolJsonValidator

end StonePlus.Replay
