import StonePlus.Js.Json
import StonePlus.Lib.Chunks

/-!
# StonePlus.Streaming.JsonFramer

`JsonFramer` of `gateway/streaming.ts`: one JSON value, or the values of one
array, from text that arrives in pieces.

As in the SSE framer the callbacks are the method's result.  The message of
the language's `SyntaxError` depends on the engine; it is a parameter.
-/

namespace StonePlus.Streaming

open Lib JsString

/-- A call of `onValue` or of `onError`. -/
inductive JsonItem
  | value (v : Json)
  | error (message : JsString)

inductive JsonMode
  | pending | single | array | complete
  deriving DecidableEq

inductive ArrayState
  | valueOrEnd | value | commaOrEnd
  deriving DecidableEq

/-- The mutable fields of `JsonFramer`. -/
structure JsonFramer where
  buffer : JsString := []
  mode : JsonMode := .pending
  arrayState : ArrayState := .valueOrEnd
  failed : Bool := false

/-- `String.prototype.trimStart`. -/
def trimStart (s : JsString) : JsString := s.dropWhile isWhitespace

/-- The variables of the loop in `findJsonValueBoundary`. -/
structure Nesting where
  depth : Int := 0
  inString : Bool := false
  escaped : Bool := false

/-- One character of the loop; `none` when it closes the value. -/
def Nesting.step (s : Nesting) (c : UInt16) : Option Nesting :=
  if s.inString then
    if s.escaped then some { s with escaped := false }
    else if c = 0x5C then some { s with escaped := true }
    else if c = 0x22 then some { s with inString := false }
    else some s
  else if c = 0x22 then some { s with inString := true }
  else if c = 0x7B ∨ c = 0x5B then some { s with depth := s.depth + 1 }
  else if c = 0x7D ∨ c = 0x5D then
    if s.depth - 1 = 0 then none else some { s with depth := s.depth - 1 }
  else some s

/-- The loop: the number of characters up to the bracket that closes the value. -/
def closingBracket (s : Nesting) : JsString → Option Nat
  | [] => none
  | c :: rest =>
    match s.step c with
    | none => some 1
    | some s => (closingBracket s rest).map (· + 1)

/-- `findJsonValueBoundary`. -/
def findJsonValueBoundary (value : JsString) : Option Nat :=
  if value.head? = some 0x7B ∨ value.head? = some 0x5B then closingBracket {} value
  else value.findIdx? fun c => isWhitespace c || c == 0x2C

namespace JsonFramer

/-- What one round of the loop in `drain` comes to. -/
inductive Round
  /-- Nothing is left to do without more input. -/
  | wait (f : JsonFramer)
  | fail (message : JsString)
  /-- Some of the buffer was consumed, and perhaps a value read. -/
  | go (f : JsonFramer) (values : List Json)

/-- `JSON value exceeded … buffered characters`. -/
def exceeded (maxBufferedCharacters : Nat) : JsString :=
  js "JSON value exceeded " ++ natToString maxBufferedCharacters ++ js " buffered characters"

def incomplete : JsString := js "Incomplete JSON value at end of stream"

/-- Read the value that ends at a boundary. -/
def takeValue (syntaxError : JsString → JsString) (maxBufferedCharacters : Nat) (f : JsonFramer)
    (boundary : Nat) : Round :=
  if maxBufferedCharacters < boundary then .fail (exceeded maxBufferedCharacters)
  else
    match Json.parse (f.buffer.take boundary) with
    | none => .fail (syntaxError (f.buffer.take boundary))
    | some v =>
      .go (if f.mode = .array
        then { f with buffer := f.buffer.drop boundary, arrayState := .commaOrEnd }
        else { f with buffer := f.buffer.drop boundary, mode := .complete }) [v]

/-- No value is complete: wait for more input, if there may be any. -/
def awaitValue (maxBufferedCharacters : Nat) (final : Bool) (f : JsonFramer) : Round :=
  if maxBufferedCharacters < f.buffer.length then .fail (exceeded maxBufferedCharacters)
  else if final then .fail incomplete
  else .wait f

/-- The end of a round: read a value from the front of the buffer. -/
def readValue (syntaxError : JsString → JsString) (maxBufferedCharacters : Nat) (final : Bool)
    (f : JsonFramer) : Round :=
  if f.buffer = [] then if final then .fail incomplete else .wait f
  else
    match findJsonValueBoundary f.buffer with
    | none => awaitValue maxBufferedCharacters final f
    | some boundary => takeValue syntaxError maxBufferedCharacters f boundary

/-- The checks inside an array, with its white space trimmed. -/
def readArray (syntaxError : JsString → JsString) (maxBufferedCharacters : Nat) (final : Bool)
    (f : JsonFramer) : Round :=
  if f.arrayState = .commaOrEnd then
    match f.buffer with
    | [] => .wait f
    | c :: rest =>
      if c = 0x2C then .go { f with buffer := rest, arrayState := .value } []
      else if c = 0x5D then .go { f with buffer := rest, mode := .complete } []
      else .fail (js "Expected a comma or closing bracket between JSON array values")
  else if f.arrayState = .valueOrEnd ∧ f.buffer.head? = some 0x5D then
    .go { f with buffer := f.buffer.drop 1, mode := .complete } []
  else if f.buffer.head? = some 0x2C then .fail (js "Unexpected leading comma in JSON array")
  else if f.arrayState = .value ∧ f.buffer.head? = some 0x5D then
    .fail (js "Unexpected trailing comma in JSON array")
  else readValue syntaxError maxBufferedCharacters final f

/-- The start of a round: skip white space and tell an array from a single
value. -/
def prepare (f : JsonFramer) : JsonFramer :=
  let buffer := trimStart f.buffer
  if f.mode = .pending then
    match buffer with
    | [] => { f with buffer := [] }
    | c :: rest =>
      if c = 0x5B then
        { f with mode := .array, arrayState := .valueOrEnd, buffer := trimStart rest }
      else { f with mode := .single, buffer := c :: rest }
  else { f with buffer := buffer }

/-- The rest of a round. -/
def proceed (syntaxError : JsString → JsString) (maxBufferedCharacters : Nat) (final : Bool)
    (f : JsonFramer) : Round :=
  match f.mode with
  | .complete =>
    if f.buffer = [] then .wait f
    else .fail (js "Unexpected JSON value after the completed stream root")
  | .pending => .wait f
  | .single => readValue syntaxError maxBufferedCharacters final f
  | .array => readArray syntaxError maxBufferedCharacters final f

theorem length_prepare_le (f : JsonFramer) : f.prepare.buffer.length ≤ f.buffer.length := by
  have htrim (s : JsString) : (trimStart s).length ≤ s.length :=
    (List.dropWhile_sublist _).length_le
  have := htrim f.buffer
  unfold prepare
  dsimp only
  split_ifs with hmode
  · cases hbuffer : trimStart f.buffer with
    | nil => simp
    | cons c rest =>
        rw [hbuffer, List.length_cons] at this
        dsimp only
        split_ifs
        · have := htrim rest
          dsimp only
          omega
        · simpa using this
  · exact this

theorem parse_nil : Json.parse [] = none := by decide +kernel

/-- A value takes up some of the buffer; no round that goes on fails. -/
theorem takeValue_go (hempty : f.buffer ≠ [])
    (h : takeValue syntaxError maxBufferedCharacters f boundary = .go f' values) :
    f'.buffer.length < f.buffer.length ∧ f'.failed = f.failed := by
  have hlength := List.length_pos_iff.mpr hempty
  unfold takeValue at h
  by_cases hover : maxBufferedCharacters < boundary
  · rw [if_pos hover] at h
    cases h
  rw [if_neg hover] at h
  cases hparse : Json.parse (f.buffer.take boundary) with
  | none => rw [hparse] at h; cases h
  | some v =>
      rw [hparse] at h
      have hpos : 0 < boundary := by
        rcases Nat.eq_zero_or_pos boundary with rfl | hpos
        · rw [List.take_zero, parse_nil] at hparse
          cases hparse
        · exact hpos
      have hdrop : (f.buffer.drop boundary).length < f.buffer.length := by
        rw [List.length_drop]
        omega
      cases h
      by_cases harray : f.mode = .array
      · rw [if_pos harray]; exact ⟨hdrop, rfl⟩
      · rw [if_neg harray]; exact ⟨hdrop, rfl⟩

theorem readValue_go (h : readValue syntaxError maxBufferedCharacters final f = .go f' values) :
    f'.buffer.length < f.buffer.length ∧ f'.failed = f.failed := by
  unfold readValue at h
  by_cases hempty : f.buffer = []
  · rw [if_pos hempty] at h
    cases final <;> cases h
  rw [if_neg hempty] at h
  cases hboundary : findJsonValueBoundary f.buffer with
  | none =>
      rw [hboundary] at h
      simp only [awaitValue] at h
      split_ifs at h
  | some boundary =>
      rw [hboundary] at h
      exact takeValue_go hempty h

theorem proceed_go (h : proceed syntaxError maxBufferedCharacters final f = .go f' values) :
    f'.buffer.length < f.buffer.length ∧ f'.failed = f.failed := by
  unfold proceed at h
  split at h
  · split_ifs at h
  · cases h
  · exact readValue_go h
  · unfold readArray at h
    split_ifs at h with hcomma hclose
    · cases hbuffer : f.buffer with
      | nil => rw [hbuffer] at h; cases h
      | cons c rest =>
          rw [hbuffer] at h
          dsimp only at h
          split_ifs at h <;> cases h <;> simp
    · cases h
      obtain ⟨-, hhead⟩ := hclose
      cases hbuffer : f.buffer with
      | nil => rw [hbuffer] at hhead; cases hhead
      | cons c rest => simp
    · exact readValue_go h

/-- `drain`. -/
def drain (syntaxError : JsString → JsString) (maxBufferedCharacters : Nat) (final : Bool)
    (f : JsonFramer) : List JsonItem × JsonFramer :=
  match _h : proceed syntaxError maxBufferedCharacters final f.prepare with
  | .wait f => ([], f)
  | .fail message => ([.error message], { failed := true })
  | .go f' values =>
    let rest := drain syntaxError maxBufferedCharacters final f'
    (values.map .value ++ rest.1, rest.2)
termination_by f.buffer.length
decreasing_by exact Nat.lt_of_lt_of_le (proceed_go _h).1 (length_prepare_le f)

/-- Append text and drain it. -/
def feed (syntaxError : JsString → JsString) (maxBufferedCharacters : Nat) (f : JsonFramer)
    (text : JsString) : List JsonItem × JsonFramer :=
  if f.failed then ([], f)
  else drain syntaxError maxBufferedCharacters false { f with buffer := f.buffer ++ text }

/-- `push`: no slice reaches further than one character beyond the limit. -/
def push (syntaxError : JsString → JsString) (maxBufferedCharacters : Nat) (f : JsonFramer)
    (text : JsString) : List JsonItem × JsonFramer :=
  slices (feed syntaxError maxBufferedCharacters) JsonFramer.failed
    (fun f => maxBufferedCharacters + 1 - f.buffer.length) f text

def finish (syntaxError : JsString → JsString) (maxBufferedCharacters : Nat) (f : JsonFramer) :
    List JsonItem × JsonFramer :=
  if f.failed then ([], f) else drain syntaxError maxBufferedCharacters true f

end JsonFramer

/-! ## More input -/

theorem trimStart_append (s more : JsString) :
    trimStart (s ++ more) = if trimStart s = [] then trimStart more else trimStart s ++ more := by
  induction s with
  | nil => simp [trimStart]
  | cons c s ih =>
      unfold trimStart at ih ⊢
      by_cases hc : isWhitespace c = true
      · rw [List.cons_append, List.dropWhile_cons_of_pos hc, List.dropWhile_cons_of_pos hc, ih]
      · rw [List.cons_append, List.dropWhile_cons_of_neg hc, List.dropWhile_cons_of_neg hc,
          if_neg (List.cons_ne_nil c s), List.cons_append]

theorem trimStart_trimStart (s : JsString) : trimStart (trimStart s) = trimStart s := by
  by_cases h : trimStart s = []
  · rw [h]; rfl
  · have := trimStart_append s []
    rw [if_neg h, List.append_nil, List.append_nil] at this
    obtain ⟨c, rest, hcons⟩ := List.exists_cons_of_ne_nil h
    have hhead := List.head_dropWhile_not isWhitespace h
    simp only [trimStart] at hcons hhead ⊢
    simp only [hcons, List.head_cons] at hhead ⊢
    rw [List.dropWhile_cons_of_neg (by simp [hhead])]

/-- A closed value stays closed where it is. -/
theorem closingBracket_append (h : closingBracket s text = some n) (more : JsString) :
    closingBracket s (text ++ more) = some n := by
  induction text generalizing s n with
  | nil => cases h
  | cons c rest ih =>
      rw [List.cons_append, closingBracket]
      rw [closingBracket] at h
      cases hstep : s.step c with
      | none => rwa [hstep] at h
      | some s' =>
          rw [hstep] at h
          obtain ⟨m, hm, rfl⟩ := Option.map_eq_some_iff.mp h
          simp only [ih hm, Option.map_some]

/-- A value that more input closes ends behind what was there. -/
theorem length_lt_of_closingBracket_append (h : closingBracket s text = none)
    (hmore : closingBracket s (text ++ more) = some n) : text.length < n := by
  induction text generalizing s n with
  | nil =>
      rw [List.nil_append] at hmore
      cases more with
      | nil => cases hmore
      | cons c rest =>
          rw [closingBracket] at hmore
          cases hstep : s.step c with
          | none => rw [hstep] at hmore; cases hmore; simp
          | some s' =>
              rw [hstep] at hmore
              obtain ⟨m, -, rfl⟩ := Option.map_eq_some_iff.mp hmore
              simp
  | cons c rest ih =>
      rw [List.cons_append, closingBracket] at hmore
      rw [closingBracket] at h
      cases hstep : s.step c with
      | none => rw [hstep] at h; cases h
      | some s' =>
          rw [hstep] at h hmore
          obtain ⟨m, hm, rfl⟩ := Option.map_eq_some_iff.mp hmore
          have := ih (Option.map_eq_none_iff.mp h) hm
          rw [List.length_cons]
          omega

theorem length_le_of_closingBracket (h : closingBracket s text = some n) : n ≤ text.length := by
  induction text generalizing s n with
  | nil => cases h
  | cons c rest ih =>
      rw [closingBracket] at h
      cases hstep : s.step c with
      | none => rw [hstep] at h; cases h; simp
      | some s' =>
          rw [hstep] at h
          obtain ⟨m, hm, rfl⟩ := Option.map_eq_some_iff.mp h
          have := ih hm
          rw [List.length_cons]
          omega

/-- Text behind a value does not change what it starts with. -/
theorem head?_append_of_ne_nil {s more : JsString} (hs : s ≠ []) : (s ++ more).head? = s.head? := by
  obtain ⟨c, rest, rfl⟩ := List.exists_cons_of_ne_nil hs
  rfl

theorem findJsonValueBoundary_le (h : findJsonValueBoundary s = some n) : n ≤ s.length := by
  unfold findJsonValueBoundary at h
  split_ifs at h
  · exact length_le_of_closingBracket h
  · obtain ⟨hlt, -⟩ := List.findIdx?_eq_some_iff_getElem.mp h
    omega

theorem findJsonValueBoundary_append (hs : s ≠ []) (h : findJsonValueBoundary s = some n)
    (more : JsString) : findJsonValueBoundary (s ++ more) = some n := by
  unfold findJsonValueBoundary at h ⊢
  rw [head?_append_of_ne_nil hs]
  split_ifs at h ⊢
  · exact closingBracket_append h more
  · rw [List.findIdx?_append, h]
    rfl

/-- A value that more input closes ends behind the buffer. -/
theorem length_le_of_findJsonValueBoundary_append (hs : s ≠ [])
    (h : findJsonValueBoundary s = none) (hmore : findJsonValueBoundary (s ++ more) = some n) :
    s.length ≤ n := by
  unfold findJsonValueBoundary at h hmore
  rw [head?_append_of_ne_nil hs] at hmore
  split_ifs at h hmore
  · exact Nat.le_of_lt (length_lt_of_closingBracket_append h hmore)
  · rw [List.findIdx?_append, h] at hmore
    obtain ⟨m, -, heq⟩ := Option.map_eq_some_iff.mp hmore
    omega

namespace JsonFramer

variable {syntaxError : JsString → JsString} {maxBufferedCharacters : Nat}

/-- The framer with more text behind its buffer. -/
def extend (f : JsonFramer) (more : JsString) : JsonFramer := { f with buffer := f.buffer ++ more }

/-- What a round comes to when there is more text behind the buffer. -/
def Round.extend (more : JsString) : Round → Round
  | .wait f => .wait (f.extend more)
  | .fail message => .fail message
  | .go f values => .go (f.extend more) values

/-- The round came to a decision that more input does not change. -/
def Round.Decided (r : Round) : Prop := ∀ f, r ≠ .wait f

theorem takeValue_extend (hle : boundary ≤ f.buffer.length) (more : JsString) :
    takeValue syntaxError maxBufferedCharacters (f.extend more) boundary =
      (takeValue syntaxError maxBufferedCharacters f boundary).extend more := by
  have htake : (f.extend more).buffer.take boundary = f.buffer.take boundary :=
    List.take_append_of_le_length hle
  have hdrop : (f.extend more).buffer.drop boundary = f.buffer.drop boundary ++ more :=
    List.drop_append_of_le_length hle
  unfold takeValue
  rw [htake, hdrop]
  by_cases hover : maxBufferedCharacters < boundary
  · rw [if_pos hover, if_pos hover]; rfl
  rw [if_neg hover, if_neg hover]
  cases Json.parse (f.buffer.take boundary) with
  | none => rfl
  | some v =>
      by_cases harray : f.mode = .array
      · rw [if_pos harray, if_pos (show (f.extend more).mode = .array from harray)]; rfl
      · rw [if_neg harray, if_neg (show ¬ (f.extend more).mode = .array from harray)]; rfl

theorem readValue_extend (h : (readValue syntaxError maxBufferedCharacters false f).Decided)
    (more : JsString) : readValue syntaxError maxBufferedCharacters false (f.extend more) =
      (readValue syntaxError maxBufferedCharacters false f).extend more := by
  unfold readValue at h ⊢
  by_cases hempty : f.buffer = []
  · rw [if_pos hempty] at h
    exact absurd rfl (h f)
  have hlonger : (f.extend more).buffer ≠ [] := by simp [extend, hempty]
  rw [if_neg hempty] at h ⊢
  rw [if_neg hlonger]
  cases hboundary : findJsonValueBoundary f.buffer with
  | some boundary =>
      have hmore : findJsonValueBoundary (f.extend more).buffer = some boundary :=
        findJsonValueBoundary_append hempty hboundary more
      rw [hmore]
      exact takeValue_extend (findJsonValueBoundary_le hboundary) more
  | none =>
      rw [hboundary] at h
      have hover : maxBufferedCharacters < f.buffer.length := by
        by_contra hfits
        refine h f ?_
        simp only [awaitValue]
        rw [if_neg hfits, if_neg Bool.false_ne_true]
      have hawait : awaitValue maxBufferedCharacters false f =
          .fail (exceeded maxBufferedCharacters) := by rw [awaitValue, if_pos hover]
      dsimp only
      rw [hawait]
      cases hmore : findJsonValueBoundary (f.extend more).buffer with
      | some boundary =>
          have := length_le_of_findJsonValueBoundary_append hempty hboundary hmore
          dsimp only
          rw [takeValue, if_pos (by omega)]
          rfl
      | none =>
          have hlength : maxBufferedCharacters < (f.extend more).buffer.length := by
            simp only [extend, List.length_append]
            omega
          dsimp only
          rw [awaitValue, if_pos hlength]
          rfl

theorem readArray_extend (h : (readArray syntaxError maxBufferedCharacters false f).Decided)
    (more : JsString) : readArray syntaxError maxBufferedCharacters false (f.extend more) =
      (readArray syntaxError maxBufferedCharacters false f).extend more := by
  cases hbuffer : f.buffer with
  | nil =>
      exfalso
      refine h f ?_
      unfold readArray readValue
      simp [hbuffer]
  | cons c rest =>
      have hextend : (f.extend more).buffer = c :: (rest ++ more) := by simp [extend, hbuffer]
      have hstate : (f.extend more).arrayState = f.arrayState := rfl
      unfold readArray at h ⊢
      rw [hstate, hextend, hbuffer]
      rw [hbuffer] at h
      by_cases hcomma : f.arrayState = .commaOrEnd
      · rw [if_pos hcomma, if_pos hcomma]
        dsimp only
        split_ifs <;> rfl
      rw [if_neg hcomma] at h
      rw [if_neg hcomma, if_neg hcomma]
      simp only [List.head?_cons, Option.some.injEq] at h ⊢
      by_cases hclose : f.arrayState = .valueOrEnd ∧ c = 0x5D
      · rw [if_pos hclose, if_pos hclose]; rfl
      by_cases hleading : c = 0x2C
      · rw [if_neg hclose, if_neg hclose, if_pos hleading, if_pos hleading]; rfl
      by_cases htrailing : f.arrayState = .value ∧ c = 0x5D
      · rw [if_neg hclose, if_neg hclose, if_neg hleading, if_neg hleading, if_pos htrailing,
          if_pos htrailing]
        rfl
      rw [if_neg hclose, if_neg hleading, if_neg htrailing] at h
      rw [if_neg hclose, if_neg hclose, if_neg hleading, if_neg hleading, if_neg htrailing,
        if_neg htrailing]
      exact readValue_extend h more

theorem proceed_extend (h : (proceed syntaxError maxBufferedCharacters false f).Decided)
    (more : JsString) : proceed syntaxError maxBufferedCharacters false (f.extend more) =
      (proceed syntaxError maxBufferedCharacters false f).extend more := by
  have hmode : (f.extend more).mode = f.mode := rfl
  unfold proceed at h ⊢
  rw [hmode]
  cases hf : f.mode with
  | pending => simp only [hf] at h; exact absurd rfl (h f)
  | single => simp only [hf] at h; exact readValue_extend h more
  | array => simp only [hf] at h; exact readArray_extend h more
  | complete =>
      simp only [hf] at h ⊢
      by_cases hempty : f.buffer = []
      · rw [if_pos hempty] at h
        exact absurd rfl (h f)
      · rw [if_neg hempty, if_neg (by simp [extend, hempty])]
        rfl

/-- A round that waits leaves the framer as the round found it. -/
theorem eq_of_proceed_wait (h : proceed syntaxError maxBufferedCharacters final f = .wait f') :
    f' = f := by
  have hvalue (h : readValue syntaxError maxBufferedCharacters final f = .wait f') : f' = f := by
    unfold readValue at h
    by_cases hempty : f.buffer = []
    · rw [if_pos hempty] at h
      cases final <;> cases h
      rfl
    rw [if_neg hempty] at h
    cases hboundary : findJsonValueBoundary f.buffer with
    | none =>
        rw [hboundary] at h
        simp only [awaitValue] at h
        split_ifs at h
        cases h
        rfl
    | some boundary =>
        rw [hboundary] at h
        dsimp only [takeValue] at h
        split at h
        · cases h
        · split at h <;> cases h
  unfold proceed at h
  split at h
  · split_ifs at h
    cases h
    rfl
  · cases h
    rfl
  · exact hvalue h
  · unfold readArray at h
    by_cases hcomma : f.arrayState = .commaOrEnd
    · rw [if_pos hcomma] at h
      cases hbuffer : f.buffer with
      | nil => rw [hbuffer] at h; cases h; rfl
      | cons c rest =>
          rw [hbuffer] at h
          dsimp only at h
          split_ifs at h
    · rw [if_neg hcomma] at h
      split_ifs at h
      exact hvalue h

/-- A round that decides something has some buffer to look at. -/
theorem ne_nil_of_proceed (h : (proceed syntaxError maxBufferedCharacters false f).Decided) :
    f.buffer ≠ [] := by
  intro hempty
  refine h f ?_
  unfold proceed readArray readValue
  cases f.mode with
  | pending => rfl
  | single => simp [hempty]
  | complete => simp [hempty]
  | array => simp [hempty]

variable {f : JsonFramer}

theorem prepare_of_ne (h : f.mode ≠ .pending) :
    f.prepare = { f with buffer := trimStart f.buffer } := by
  unfold prepare
  rw [if_neg h]

theorem prepare_nil (h : f.mode = .pending) (htrim : trimStart f.buffer = []) :
    f.prepare = { f with buffer := [] } := by
  unfold prepare
  rw [if_pos h, htrim]

theorem prepare_bracket (h : f.mode = .pending) (htrim : trimStart f.buffer = 0x5B :: rest) :
    f.prepare =
      { f with mode := .array, arrayState := .valueOrEnd, buffer := trimStart rest } := by
  unfold prepare
  rw [if_pos h, htrim]
  rfl

theorem prepare_single (h : f.mode = .pending) (htrim : trimStart f.buffer = c :: rest)
    (hc : c ≠ 0x5B) : f.prepare = { f with mode := .single, buffer := c :: rest } := by
  unfold prepare
  rw [if_pos h, htrim]
  exact if_neg hc

theorem trimStart_extend (h : trimStart f.buffer = c :: rest) (more : JsString) :
    trimStart (f.extend more).buffer = c :: (rest ++ more) := by
  show trimStart (f.buffer ++ more) = c :: (rest ++ more)
  rw [trimStart_append, h, if_neg (List.cons_ne_nil c rest), List.cons_append]

/-- More text behind a prepared buffer that is not empty is just appended. -/
theorem prepare_extend (h : f.prepare.buffer ≠ []) (more : JsString) :
    (f.extend more).prepare = f.prepare.extend more := by
  have hmode : (f.extend more).mode = f.mode := rfl
  by_cases hpending : f.mode = .pending
  · have hpending' := hmode.trans hpending
    cases htrim : trimStart f.buffer with
    | nil =>
        rw [prepare_nil hpending htrim] at h
        exact absurd rfl h
    | cons c rest =>
        have hlonger := trimStart_extend htrim more
        by_cases hc : c = 0x5B
        · subst hc
          rw [prepare_bracket hpending htrim] at h ⊢
          rw [prepare_bracket hpending' hlonger, trimStart_append, if_neg h]
          rfl
        · rw [prepare_single hpending htrim hc, prepare_single hpending' hlonger hc]
          rfl
  · rw [prepare_of_ne hpending] at h
    rw [prepare_of_ne hpending, prepare_of_ne (f := f.extend more) hpending]
    show { f with buffer := trimStart (f.buffer ++ more) } =
      { f with buffer := trimStart f.buffer ++ more }
    rw [trimStart_append, if_neg h]

/-- The white space at the front does not matter. -/
theorem prepare_trim (f : JsonFramer) :
    { f with buffer := trimStart f.buffer }.prepare = f.prepare := by
  unfold prepare
  rw [trimStart_trimStart]

/-- Preparing twice is preparing once. -/
theorem prepare_prepare_extend (f : JsonFramer) (more : JsString) :
    (f.prepare.extend more).prepare = (f.extend more).prepare := by
  have hmode : (f.extend more).mode = f.mode := rfl
  have hagain (s : JsString) : trimStart (trimStart s ++ more) = trimStart (s ++ more) := by
    rw [trimStart_append, trimStart_trimStart, trimStart_append]
  by_cases hpending : f.mode = .pending
  · have hpending' := hmode.trans hpending
    cases htrim : trimStart f.buffer with
    | nil =>
        have hmore : f.prepare.extend more = { f with buffer := more } := by
          rw [prepare_nil hpending htrim]
          rfl
        have hbuffer : trimStart (f.extend more).buffer = trimStart more := by
          show trimStart (f.buffer ++ more) = trimStart more
          rw [trimStart_append, htrim, if_pos rfl]
        rw [hmore, ← prepare_trim, ← prepare_trim (f.extend more), hbuffer]
        rfl
    | cons c rest =>
        have hlonger := trimStart_extend htrim more
        by_cases hc : c = 0x5B
        · subst hc
          rw [prepare_bracket hpending htrim, prepare_bracket hpending' hlonger,
            prepare_of_ne (by simp [extend])]
          show { f with mode := .array, arrayState := .valueOrEnd,
                        buffer := trimStart (trimStart rest ++ more) } = _
          rw [hagain]
          rfl
        · have htrimmed : trimStart (c :: rest ++ more) = c :: (rest ++ more) := by
            have := trimStart_trimStart (f.extend more).buffer
            rwa [hlonger] at this
          rw [prepare_single hpending htrim hc, prepare_single hpending' hlonger hc,
            prepare_of_ne (by simp [extend])]
          show { f with mode := .single, buffer := trimStart (c :: rest ++ more) } = _
          rw [htrimmed]
          rfl
  · rw [prepare_of_ne hpending, prepare_of_ne (f := f.extend more) hpending,
      prepare_of_ne (by exact hpending)]
    show { f with buffer := trimStart (trimStart f.buffer ++ more) } = _
    rw [hagain]
    rfl

theorem drain_wait (h : proceed syntaxError maxBufferedCharacters final f.prepare = .wait f') :
    drain syntaxError maxBufferedCharacters final f = ([], f') := by
  rw [drain]
  split <;> simp_all

theorem drain_fail (h : proceed syntaxError maxBufferedCharacters final f.prepare = .fail message) :
    drain syntaxError maxBufferedCharacters final f = ([.error message], { failed := true }) := by
  rw [drain]
  split <;> simp_all

theorem drain_go (h : proceed syntaxError maxBufferedCharacters final f.prepare = .go f' values) :
    drain syntaxError maxBufferedCharacters final f =
      (values.map .value ++ (drain syntaxError maxBufferedCharacters final f').1,
        (drain syntaxError maxBufferedCharacters final f').2) := by
  rw [drain]
  split <;> simp_all

/-- Only the prepared framer matters. -/
theorem drain_congr (h : f.prepare = f'.prepare) : drain syntaxError maxBufferedCharacters final f =
      drain syntaxError maxBufferedCharacters final f' := by
  cases hround : proceed syntaxError maxBufferedCharacters final f'.prepare with
  | wait r => rw [drain_wait hround, drain_wait (h ▸ hround)]
  | fail message => rw [drain_fail hround, drain_fail (h ▸ hround)]
  | go r values => rw [drain_go hround, drain_go (h ▸ hround)]

theorem failed_prepare (f : JsonFramer) : f.prepare.failed = f.failed := by
  unfold prepare
  dsimp only
  split
  · split
    · rfl
    · split <;> rfl
  · rfl

/-- Draining a longer buffer is draining its front part and then feeding the
rest. -/
theorem drain_append (hf : f.failed = false) (more : JsString) :
    drain syntaxError maxBufferedCharacters false (f.extend more) =
      ((drain syntaxError maxBufferedCharacters false f).1 ++
          (feed syntaxError maxBufferedCharacters
            (drain syntaxError maxBufferedCharacters false f).2 more).1,
        (feed syntaxError maxBufferedCharacters
          (drain syntaxError maxBufferedCharacters false f).2 more).2) := by
  generalize hlength : f.buffer.length = length
  induction length using Nat.strongRecOn generalizing f with
  | ind length ih =>
      cases hround : proceed syntaxError maxBufferedCharacters false f.prepare with
      | wait f' =>
          obtain rfl := eq_of_proceed_wait hround
          have hopen : ¬ f.prepare.failed = true := by simp [failed_prepare, hf]
          have hfeed : feed syntaxError maxBufferedCharacters f.prepare more =
              drain syntaxError maxBufferedCharacters false (f.prepare.extend more) := by
            rw [feed, if_neg hopen]
            rfl
          rw [drain_wait hround, hfeed, drain_congr (prepare_prepare_extend f more)]
          rfl
      | fail message =>
          have hdecided : (proceed syntaxError maxBufferedCharacters false f.prepare).Decided := by
            rw [hround]
            exact fun _ h => by cases h
          have hmore := proceed_extend hdecided more
          rw [hround, ← prepare_extend (ne_nil_of_proceed hdecided)] at hmore
          rw [drain_fail hround, drain_fail hmore]
          rfl
      | go f' values =>
          have hdecided : (proceed syntaxError maxBufferedCharacters false f.prepare).Decided := by
            rw [hround]
            exact fun _ h => by cases h
          have hmore := proceed_extend hdecided more
          rw [hround, ← prepare_extend (ne_nil_of_proceed hdecided)] at hmore
          have hshorter : f'.buffer.length < length := by
            have := (proceed_go hround).1
            have := length_prepare_le f
            omega
          have hopen : f'.failed = false :=
            (proceed_go hround).2.trans ((failed_prepare f).trans hf)
          have hrest := ih _ hshorter hopen rfl
          rw [drain_go hround, drain_go hmore, hrest, List.append_assoc]

/-- Text is read the same however it is cut. -/
theorem feed_additive : Additive (feed syntaxError maxBufferedCharacters) := by
  intro f a b _
  cases hf : f.failed with
  | true => simp [feed, hf]
  | false =>
      have hopen : ¬ f.failed = true := by simp [hf]
      rw [feed, if_neg hopen, feed, if_neg hopen, ← List.append_assoc]
      exact drain_append (f := f.extend a) hf b

theorem push_eq_feed (f : JsonFramer) (h : text ≠ []) :
    push syntaxError maxBufferedCharacters f text =
      feed syntaxError maxBufferedCharacters f text :=
  slices_eq_feed _ feed_additive (fun f text hf => by rw [feed, if_pos hf]) f h

end JsonFramer

end StonePlus.Streaming
