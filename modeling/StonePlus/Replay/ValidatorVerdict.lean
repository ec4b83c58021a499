import StonePlus.Replay.ValidatorText

/-!
# StonePlus.Replay.ValidatorVerdict

The validator's verdict on a response that arrives in chunks, against `JSON.parse`.

The verdict does not depend on the chunks, and it is that of `JSON.parse` on the text with
plain spaces.  It differs from the one on the text itself where white space that JSON does not
have stands between tokens.
-/

namespace StonePlus.Replay

open Json (Token tokens isLetter isNumberPart isJsonSpace scanString parseToken)

/-! ## What is asked of a response -/

/-- The root field a protocol asks for. -/
def hasRootField (protocol : Option Protocol) (compactResponse : Bool) (v : Json) : Bool :=
  match protocol with
  | none => true
  | some .openaiResponses =>
    if compactResponse then rootField v (js "output") = some .array
    else v.get? (js "status") = some (.string (js "completed")) ||
      v.get? (js "status") = some (.string (js "incomplete"))
  | some .openaiChat => rootField v (js "choices") = some .array
  | some .anthropicMessages => rootField v (js "content") = some .array
  | some _ => rootField v (js "candidates") = some .array ||
      rootField v (js "promptFeedback") = some .object ||
      rootField v (js "prompt_feedback") = some .object

/-- A JSON text with an object at its root, which has the root field of the protocol.  Where a
key occurs more than once, `JSON.parse` keeps the last value. -/
def acceptable (protocol : Option Protocol) (compactResponse : Bool) (text : JsString) : Bool :=
  (Json.parse text).any fun v => v.isJsonObject && hasRootField protocol compactResponse v

/-! ## One text -/

theorem parse_eq_valueOf (text : JsString) :
    Json.parse text =
      (tokens text).bind fun ts => valueOf (ts.foldlM parseToken (.value false [])) := by
  unfold Json.parse
  cases tokens text with
  | none => rfl
  | some ts =>
      cases h : ts.foldlM parseToken (.value false []) with
      | none => simp [h, valueOf]
      | some p => cases p <;> simp [h, valueOf]

theorem Verdict.closed (h : Verdict v? s) : Verdict v? s.closed := by
  cases v? with
  | none => exact fun hs => h (TokenState.accepts_closed.mp hs)
  | some v =>
      cases v with
      | object entries =>
          have hsame : s.closed = s := by simp [TokenState.closed, h.1.complete, h.1.closed]
          rwa [hsame]
      | _ => exact fun hs => h (TokenState.accepts_closed.mp hs)

/-- The validator's verdict on a text. -/
theorem text_verdict (text : JsString) :
    Verdict (Json.parse (plainSpaces .outside text)) (TextState.final {} text) := by
  have hreads := TextState.readsText (s := {}) rfl text
  rw [parse_eq_valueOf]
  cases htokens : tokens (plainSpaces .outside text) with
  | none =>
      rw [htokens] at hreads
      exact hreads
  | some ts =>
      rw [htokens] at hreads
      rw [show TextState.final {} text = _ from hreads]
      exact (tokens_verdict (lexed_of_tokens htokens)).closed

theorem accepts_closed_of_valid {s : TokenState} (h : s.closed.invalid = false) :
    s.closed.Accepts := by
  unfold TokenState.closed at h ⊢
  split at h
  · cases h
  · next hopen =>
    rw [if_neg hopen]
    simp only [Bool.or_eq_true, Bool.not_eq_true', not_or, Bool.not_eq_false,
      List.isEmpty_iff] at hopen
    exact ⟨h, hopen.1, hopen.2⟩

/-- At the end of a text a validator that has not refused it has read all of it. -/
theorem accepts_of_valid {s : TextState} {text : JsString} (h : (s.final text).invalid = false) :
    (s.final text).Accepts := by
  have hclosed (u : TextState) : (if !u.rootComplete || !u.stack.isEmpty then u.reject
      else u).toTokenState = u.toTokenState.closed := by
    unfold TokenState.closed
    split <;> rfl
  unfold TextState.final at h ⊢
  cases hinvalid : (s.consumeText text).invalid with
  | true =>
      rw [show (s.consumeText text).finishText = s.consumeText text from if_pos hinvalid] at h
      rw [hinvalid] at h
      cases h
  | false =>
      rw [TextState.finishText, if_neg (by simp [hinvalid]), hclosed] at h ⊢
      exact accepts_closed_of_valid h

/-! ## The root fields -/

namespace StreamingProtocolJsonValidator

variable {v : StreamingProtocolJsonValidator}

theorem hasField_eq (h : Records v.rootFields value) (hne : js key ≠ [])
    (hlt : (js key).length < 512) (field : RootJsonField) :
    v.hasField key field = decide (rootField value (js key) = some field) := by
  rw [hasField, h _ hne hlt]

/-- A word of fewer than 512 characters is recognised among the strings the validator keeps. -/
theorem rootField_string (hlt : word.length < 512) :
    rootField value key = some (.string word) ↔ value.get? key = some (.string word) := by
  unfold rootField
  cases value.get? key with
  | none => simp
  | some v =>
      cases v with
      | string s =>
          simp only [Option.map_some, fieldOf, Option.some.injEq, RootJsonField.string.injEq,
            Json.string.injEq]
          constructor
          · intro h
            have hlength := congrArg List.length h
            rw [List.length_take] at hlength
            rwa [List.take_of_length_le (by omega)] at h
          · rintro rfl
            exact List.take_of_length_le (by omega)
      | _ => simp [fieldOf]

theorem isValid_eq (hvalid : v.invalid = false) (hcomplete : v.rootComplete = true)
    (h : Records v.rootFields value) (protocol : Option Protocol) (compactResponse : Bool) :
    v.isValid protocol compactResponse = hasRootField protocol compactResponse value := by
  have hfield {key : String} (hne : js key ≠ []) (hlt : (js key).length < 512) :=
    hasField_eq h hne hlt
  unfold isValid hasRootField
  rw [hvalid, hcomplete]
  cases protocol with
  | none => rfl
  | some protocol =>
      cases protocol with
      | openaiResponses =>
          simp (disch := decide) only [hfield, rootField_string]
          rfl
      | _ =>
          simp (disch := decide) only [hfield]
          rfl

/-! ## Chunks -/

theorem push_of_invalid (h : v.invalid = true) (chunk : Bytes) : v.push chunk = v := if_pos h

theorem foldl_push_of_invalid (h : v.invalid = true) (chunks : List Bytes) :
    chunks.foldl push v = v := by
  induction chunks with
  | nil => rfl
  | cons chunk chunks ih => rwa [List.foldl_cons, push_of_invalid h]

theorem consumeText_of_invalid {s : TextState} (h : s.invalid = true) (text : JsString) :
    s.consumeText text = s := by
  induction text with
  | nil => rfl
  | cons c text ih =>
      rw [TextState.consumeText, List.foldl_cons, TextState.consumeCharacter_of_invalid h]
      exact ih

theorem consumeText_append (s : TextState) (text more : JsString) :
    s.consumeText (text ++ more) = (s.consumeText text).consumeText more :=
  List.foldl_append

/-- The chunks are read as their text, up to the first character that is refused. -/
theorem push_all {chunks : List Bytes} {decoder : TextDecoder}
    (h : v.decoder.decodeFatal chunks.flatten = some (text, decoder)) :
    (chunks.foldl push v).toTextState = v.toTextState.consumeText text ∧
      ((chunks.foldl push v).invalid = false → (chunks.foldl push v).decoder = decoder) := by
  induction chunks generalizing v text with
  | nil =>
      cases h
      exact ⟨rfl, fun _ => rfl⟩
  | cons chunk chunks ih =>
      cases hinvalid : v.invalid with
      | true =>
          rw [foldl_push_of_invalid hinvalid, consumeText_of_invalid hinvalid]
          exact ⟨rfl, fun hvalid => by rw [hinvalid] at hvalid; cases hvalid⟩
      | false =>
          rw [List.flatten_cons, TextDecoder.decodeFatal_append] at h
          obtain ⟨⟨first, between⟩, hfirst, h⟩ := Option.bind_eq_some_iff.mp h
          obtain ⟨⟨more, after⟩, hmore, heq⟩ := Option.map_eq_some_iff.mp h
          cases heq
          have hpush : v.push chunk =
              { v with toTextState := v.toTextState.consumeText first, decoder := between } := by
            rw [push, if_neg (by simp [hinvalid]), hfirst]
          rw [List.foldl_cons, hpush, consumeText_append]
          exact ih (v := { v with
            toTextState := v.toTextState.consumeText first, decoder := between }) hmore

/-- The verdict is that of the whole text. -/
theorem validate_eq {chunks : List Bytes} {text : JsString}
    (h : TextDecoder.decodedText chunks.flatten = some text) (protocol : Option Protocol)
    (compactResponse : Bool) :
    validate protocol compactResponse chunks =
      acceptable protocol compactResponse (plainSpaces .outside text) := by
  obtain ⟨⟨decoded, decoder⟩, hdecode, hend⟩ := Option.bind_eq_some_iff.mp h
  obtain ⟨hread, hdecoder⟩ := push_all (v := {}) hdecode
  have htext : decoder.pending = false ∧ decoded = text := by
    dsimp only at hend
    split at hend
    · cases hend
    · next hpending => exact ⟨by simpa using hpending, by simpa using hend⟩
  obtain ⟨hpending, rfl⟩ := htext
  have hfinish : ((chunks.foldl push {}).finish).toTokenState = TextState.final {} decoded := by
    unfold TextState.final
    rw [← hread]
    cases hinvalid : (chunks.foldl push {}).invalid with
    | true =>
        rw [show finish _ = _ from if_pos hinvalid]
        exact congrArg TextState.toTokenState (if_pos hinvalid).symm
    | false =>
        rw [finish, if_neg (by simp [hinvalid]), hdecoder hinvalid, hpending,
          if_neg Bool.false_ne_true]
  have hverdict := text_verdict decoded
  rw [← hfinish] at hverdict
  have haccepts := @accepts_of_valid {} decoded
  rw [← hfinish] at haccepts
  rw [validate, acceptable]
  generalize (chunks.foldl push {}).finish = v at hverdict haccepts ⊢
  have hrefused (hrefuses : ¬v.toTokenState.Accepts) :
      v.isValid protocol compactResponse = false := by
    cases hinvalid : v.invalid with
    | true => simp [isValid, hinvalid]
    | false => exact absurd (haccepts hinvalid) hrefuses
  cases hparse : Json.parse (plainSpaces .outside decoded) with
  | none =>
      rw [hparse] at hverdict
      exact hrefused hverdict
  | some value =>
      rw [hparse] at hverdict
      cases value with
      | object entries =>
          obtain ⟨haccepts, hrecords⟩ := hverdict
          exact isValid_eq haccepts.valid haccepts.complete hrecords protocol compactResponse
      | _ => exact hrefused hverdict

end StreamingProtocolJsonValidator

/-! ## Texts without foreign white space -/

theorem next_of_hexUnit (h : Json.hexUnit? a b c d = some unit) :
    Place.next .inside a = .inside ∧ Place.next .inside b = .inside ∧
      Place.next .inside c = .inside ∧ Place.next .inside d = .inside := by
  obtain ⟨va, ha, h⟩ := Option.bind_eq_some_iff.mp h
  obtain ⟨vb, hb, h⟩ := Option.bind_eq_some_iff.mp h
  obtain ⟨vc, hc, h⟩ := Option.bind_eq_some_iff.mp h
  obtain ⟨vd, hd, -⟩ := Option.bind_eq_some_iff.mp h
  exact ⟨next_of_hexValue ha, next_of_hexValue hb, next_of_hexValue hc, next_of_hexValue hd⟩

/-- What `JSON.parse` reads as a string stays as it is. -/
theorem plainSpaces_of_scanString (h : scanString text = some (value, rest))
    (hrest : plainSpaces .outside rest = rest) : plainSpaces .inside text = text := by
  fun_induction scanString text generalizing value rest with
  | case1 => cases h
  | case2 after =>
      cases h
      rw [plainSpaces_inside, Place.next, if_pos rfl, hrest]
  | case3 => cases h
  | case4 c after hquote hcontrol hplain ih =>
      obtain ⟨⟨value, rest⟩, hscan, heq⟩ := Option.map_eq_some_iff.mp h
      cases heq
      rw [plainSpaces_inside, Place.next, if_neg hquote, if_neg hplain, ih hscan hrest]
  | case5 c hquote hcontrol hplain a b x d after ih =>
      obtain rfl : c = 0x5C := not_not.mp hplain
      obtain ⟨unit, hunit, h⟩ := Option.bind_eq_some_iff.mp h
      obtain ⟨⟨value, rest⟩, hscan, heq⟩ := Option.bind_eq_some_iff.mp h
      cases heq
      obtain ⟨ha, hb, hx, hd⟩ := next_of_hexUnit hunit
      rw [plainSpaces_inside, show Place.next .inside 0x5C = .escaped from rfl, plainSpaces_escaped,
        plainSpaces_inside, ha, plainSpaces_inside, hb, plainSpaces_inside, hx, plainSpaces_inside,
        hd, ih hscan hrest]
  | case6 c hquote hcontrol hplain e after hescape ih =>
      obtain rfl : c = 0x5C := not_not.mp hplain
      obtain ⟨unit, hunit, h⟩ := Option.bind_eq_some_iff.mp h
      obtain ⟨⟨value, rest⟩, hscan, heq⟩ := Option.bind_eq_some_iff.mp h
      cases heq
      rw [plainSpaces_inside, show Place.next .inside 0x5C = .escaped from rfl, plainSpaces_escaped,
        ih hscan hrest]
  | case7 => cases h

theorem plainSpaces_outside (hspace : JsString.isWhitespace c = true → isJsonSpace c = true)
    (hquote : c ≠ 0x22) (text : JsString) :
    plainSpaces .outside (c :: text) = c :: plainSpaces .outside text := by
  have hforeign : Place.foreign .outside c = false := by
    cases hc : JsString.isWhitespace c with
    | true => simp [Place.foreign, hspace hc]
    | false => simp [Place.foreign, hc]
  rw [plainSpaces, hforeign, if_neg Bool.false_ne_true, Place.next, if_neg hquote]

/-- A scalar without quotes stays as it is. -/
theorem plainSpaces_of_scalar (hp : ∀ c, p c = true → isScalarPart c = true)
    (hc : isScalarPart c = true) (h : plainSpaces .outside (text.dropWhile p) = text.dropWhile p) :
    plainSpaces .outside (c :: text) = c :: text := by
  obtain ⟨hlo, hhi, hquote, -⟩ := isScalarPart_visible hc
  obtain ⟨htake, hdrop⟩ := takeWhile_plainSpaces hp text
  have hsame : plainSpaces .outside text = text := by
    rw [← List.takeWhile_append_dropWhile (p := p) (l := plainSpaces .outside text), htake, hdrop,
      h, List.takeWhile_append_dropWhile]
  rw [plainSpaces_outside (by simp [isWhitespace_of_visible hlo hhi]) hquote, hsame]

/-- A text that `JSON.parse` can read has no foreign white space between its tokens. -/
theorem plainSpaces_of_tokens (h : tokens text = some ts) : plainSpaces .outside text = text := by
  fun_induction tokens text generalizing ts with
  | case1 => rfl
  | case2 c rest hspace ih =>
      have hquote : c ≠ 0x22 := by rintro rfl; cases hspace
      rw [plainSpaces_outside (fun _ => hspace) hquote, ih h]
  | case3 c rest hspace hpunctuation ih =>
      obtain ⟨more, hmore, rfl⟩ := Option.map_eq_some_iff.mp h
      obtain ⟨hwhite, hquote, -⟩ := isPunctuation_cases hpunctuation
      rw [plainSpaces_outside (by simp [hwhite]) hquote, ih hmore]
  | case4 => cases h
  | case5 rest value after hscan hspace hpunctuation ih =>
      obtain ⟨more, hmore, rfl⟩ := Option.map_eq_some_iff.mp h
      have hinside := plainSpaces_of_scanString hscan (ih hmore)
      rw [plainSpaces, Place.next, if_pos rfl, hinside]
      rfl
  | case6 c rest hspace hpunctuation hquote hletter ih =>
      obtain ⟨value, hvalue, h⟩ := Option.bind_eq_some_iff.mp h
      obtain ⟨more, hmore, rfl⟩ := Option.map_eq_some_iff.mp h
      exact plainSpaces_of_scalar (p := isLetter) (fun c hc => by simp [isScalarPart, hc])
        (by simp [isScalarPart, hletter]) (ih hmore)
  | case7 c rest hspace hpunctuation hquote hletter hnumber ih =>
      obtain ⟨value, hvalue, h⟩ := Option.bind_eq_some_iff.mp h
      obtain ⟨more, hmore, rfl⟩ := Option.map_eq_some_iff.mp h
      exact plainSpaces_of_scalar (p := isNumberPart) (fun c hc => by simp [isScalarPart, hc])
        (isScalarPart_of_number hnumber.symm) (ih hmore)
  | case8 => cases h

theorem plainSpaces_of_acceptable (h : acceptable protocol compactResponse text = true) :
    plainSpaces .outside text = text := by
  rw [acceptable, parse_eq_valueOf] at h
  cases htokens : tokens text with
  | none => simp [htokens] at h
  | some ts => exact plainSpaces_of_tokens htokens

namespace StreamingProtocolJsonValidator

/-- The verdict is right exactly if no foreign white space stands between the tokens, or the
text is not acceptable even with spaces in its place. -/
theorem validate_exact_iff {chunks : List Bytes} {text : JsString}
    (h : TextDecoder.decodedText chunks.flatten = some text) (protocol : Option Protocol)
    (compactResponse : Bool) :
    (validate protocol compactResponse chunks = true ↔
        acceptable protocol compactResponse text = true) ↔
      plainSpaces .outside text = text ∨
        acceptable protocol compactResponse (plainSpaces .outside text) = false := by
  rw [validate_eq h]
  constructor
  · intro hiff
    by_cases hplain : plainSpaces .outside text = text
    · exact .inl hplain
    · right
      cases hacceptable : acceptable protocol compactResponse (plainSpaces .outside text) with
      | false => rfl
      | true => exact absurd (plainSpaces_of_acceptable (hiff.mp hacceptable)) hplain
  · rintro (hplain | hrefused)
    · rw [hplain]
    · rw [hrefused]
      refine iff_of_false Bool.false_ne_true fun hacceptable => ?_
      rw [plainSpaces_of_acceptable hacceptable, hacceptable] at hrefused
      cases hrefused

/-- A text in three chunks, one of them cut inside a key. -/
theorem validate_exact_keyAcrossChunks :
    let chunks := [js "\x7b\"choi", js "ces\":[", js "1]\x7d"].map
      fun text => text.map fun c => UInt8.ofNat c.toNat
    (validate (some .openaiChat) false chunks = true ↔
        acceptable (some .openaiChat) false (js "\x7b\"choices\":[1]\x7d") = true) ∧
      validate (some .openaiChat) false chunks = true :=
  ⟨(validate_exact_iff (by decide +kernel) _ _).mpr (.inl (by decide +kernel)), by decide +kernel⟩

/-- A no-break space between the braces. -/
theorem validate_noBreakSpace :
    TextDecoder.decodedText [[0x7B, 0xC2], [0xA0, 0x7D]].flatten = some [0x7B, 0xA0, 0x7D] ∧
      ¬(validate none false [[0x7B, 0xC2], [0xA0, 0x7D]] = true ↔
        acceptable none false [0x7B, 0xA0, 0x7D] = true) := by
  decide +kernel

end StreamingProtocolJsonValidator

end StonePlus.Replay
