import StonePlus.Replay.ValidatorTokens

/-!
# StonePlus.Replay.ValidatorScalars

How the validator reads a string, a number or a literal, against the scanners of `JSON.parse`.

Each run ends at the character after the scalar, with its token consumed (`Resumes`), or the
text is not accepted.  A scalar that `JSON.parse` refuses may be refused at the next one only:
after a scalar no other may follow (`Doomed`).
-/

namespace StonePlus.Replay

open Json (Token isDigit isLetter isNumberPart isJsonSpace isPunctuation scanString scanDigits
  scanExponent scanNumber literal? hexValue? hexUnit? escaped?)

/-! ## The end of a text -/

/-- The check that the root is complete. -/
def TokenState.closed (s : TokenState) : TokenState :=
  if !s.rootComplete || !s.stack.isEmpty then s.reject else s

theorem TokenState.closed_of_invalid {s : TokenState} (h : s.invalid = true) : s.closed = s := by
  have hsame : s.reject = s := by rw [reject, ← h]
  rw [closed, hsame, ite_self]

theorem TokenState.accepts_closed {s : TokenState} : s.closed.Accepts ↔ s.Accepts := by
  unfold closed
  split
  · next hopen =>
    refine iff_of_false (not_accepts_of_invalid rfl) fun h => ?_
    simp [h.complete, h.closed] at hopen
  · rfl

namespace TextState

/-- The token part after the rest of a text. -/
def final (s : TextState) (text : JsString) : TokenState :=
  (s.consumeText text).finishText.toTokenState

@[simp] theorem final_cons (s : TextState) (c : UInt16) (text : JsString) :
    s.final (c :: text) = (s.consumeCharacter c).final text := rfl

@[simp] theorem reject_invalid (s : TextState) : s.reject.invalid = true := rfl

variable {s : TextState}

theorem consumeCharacter_of_invalid (h : s.invalid = true) (c : UInt16) :
    s.consumeCharacter c = s := if_pos h

@[simp] theorem consumeCharacter_reject (s : TextState) (c : UInt16) :
    s.reject.consumeCharacter c = s.reject := consumeCharacter_of_invalid rfl c

theorem final_of_invalid (h : s.invalid = true) (text : JsString) :
    s.final text = s.toTokenState := by
  induction text with
  | nil => exact congrArg TextState.toTokenState (if_pos h)
  | cons c text ih => rw [final_cons, consumeCharacter_of_invalid h, ih]

theorem not_accepts_of_invalid (h : s.invalid = true) (text : JsString) :
    ¬(s.final text).Accepts := by
  rw [final_of_invalid h]
  exact Replay.not_accepts_of_invalid h

theorem final_nil_normal (hmode : s.mode = .normal) : s.final [] = s.toTokenState.closed := by
  rw [final, consumeText, List.foldl_nil, finishText, hmode]
  cases hinvalid : s.invalid with
  | true => exact (TokenState.closed_of_invalid hinvalid).symm
  | false =>
      rw [if_neg Bool.false_ne_true]
      dsimp only [TokenState.closed]
      split <;> rfl

theorem final_nil_number (hvalid : s.invalid = false) (hmode : s.mode = .number) :
    s.final [] = s.finishNumber.toTokenState.closed := by
  rw [final, consumeText, List.foldl_nil, finishText, hmode, hvalid, if_neg Bool.false_ne_true]
  dsimp only [TokenState.closed]
  split <;> rfl

/-- A text does not end inside a string or a literal. -/
theorem not_accepts_of_open (h : s.mode = .string ∨ s.mode = .literal) : ¬(s.final []).Accepts := by
  refine Replay.not_accepts_of_invalid ?_
  cases hinvalid : s.invalid with
  | true => rw [final_of_invalid hinvalid, hinvalid]
  | false =>
      have hreject : s.finishText = if !s.reject.rootComplete || !s.reject.stack.isEmpty then
          s.reject.reject else s.reject := by
        rcases h with h | h <;> simp [finishText, hinvalid, h]
      rw [final, consumeText, List.foldl_nil, hreject]
      split <;> rfl

end TextState

/-! ## After a scalar -/

/-- No scalar may come. -/
def RefusesScalars (s : TokenState) : Prop :=
  ∀ token, (∀ c, token ≠ .punctuation c) → (s.consumeToken token).invalid = true

theorem refusesScalars_of_invalid (h : s.invalid = true) : RefusesScalars s :=
  fun token _ => by rwa [consumeToken_of_invalid h]

/-- A container that waits for punctuation. -/
def JsonContainer.waits : JsonContainer → Bool
  | .object .colon _ _ | .object .comma _ _ | .array .comma _ => true
  | _ => false

theorem refusesScalars_of_waits {s : TokenState} {context : JsonContainer}
    {rest : List JsonContainer} (hstack : s.stack = context :: rest) (h : context.waits = true) :
    RefusesScalars s := by
  intro token htoken
  cases hinvalid : s.invalid with
  | true => rwa [consumeToken_of_invalid hinvalid]
  | false =>
      cases context with
      | object state allowEnd key =>
          rw [consumeToken_object hinvalid hstack]
          cases state <;>
            simp_all [JsonContainer.waits, TokenState.consumeObjectToken, TokenState.reject]
      | array state allowEnd =>
          rw [consumeToken_array hinvalid hstack]
          cases state <;>
            simp_all [JsonContainer.waits, TokenState.consumeArrayToken, TokenState.reject]

theorem refusesScalars_consumeValue (s : TokenState) (context : JsonContainer)
    (rest : List JsonContainer) (h : ∀ c, token ≠ .punctuation c) :
    RefusesScalars (s.consumeValue context rest token) := by
  have hopened : token.opened = [] := by
    cases token with
    | punctuation c => exact absurd rfl (h c)
    | _ => rfl
  unfold TokenState.consumeValue
  split
  · exact refusesScalars_of_invalid rfl
  · refine @refusesScalars_of_waits _ context.afterValue rest ?_ ?_
    · rw [hopened]
      rfl
    · cases context <;> rfl

/-- After a scalar there comes punctuation. -/
theorem refusesScalars_consumeToken (s : TokenState) {token : JsonToken}
    (h : ∀ c, token ≠ .punctuation c) : RefusesScalars (s.consumeToken token) := by
  cases hinvalid : s.invalid with
  | true =>
      rw [consumeToken_of_invalid hinvalid]
      exact refusesScalars_of_invalid hinvalid
  | false =>
      cases hstack : s.stack with
      | nil =>
          refine refusesScalars_of_invalid ?_
          simp [TokenState.consumeToken, hinvalid, hstack, h, TokenState.reject]
      | cons context rest =>
          cases context with
          | object state allowEnd key =>
              rw [consumeToken_object hinvalid hstack]
              cases state with
              | value => exact refusesScalars_consumeValue s _ rest h
              | key =>
                  cases token with
                  | string value =>
                      exact @refusesScalars_of_waits _ (.object .colon false (some value)) rest rfl
                        rfl
                  | punctuation c => exact absurd rfl (h c)
                  | _ => exact refusesScalars_of_invalid rfl
              | colon | comma =>
                  refine refusesScalars_of_invalid ?_
                  simp [TokenState.consumeObjectToken, h, TokenState.reject]
          | array state allowEnd =>
              rw [consumeToken_array hinvalid hstack]
              cases state with
              | value =>
                  simp only [TokenState.consumeArrayToken, h, false_and, if_false]
                  exact refusesScalars_consumeValue s _ rest h
              | comma =>
                  refine refusesScalars_of_invalid ?_
                  simp [TokenState.consumeArrayToken, h, TokenState.reject]

/-- A text that cannot be accepted any more: it is invalid, or the scalar that is read will
be refused. -/
def TextState.Doomed (s : TextState) : Prop :=
  s.invalid = true ∨ ((s.mode = .number ∨ s.mode = .literal) ∧ RefusesScalars s.toTokenState)

namespace TextState

theorem doomed_reject (s : TextState) : s.reject.Doomed := .inl rfl

theorem token_invalid {s : TextState} (h : RefusesScalars s.toTokenState) {token : JsonToken}
    (htoken : ∀ c, token ≠ .punctuation c) : (s.token token).invalid = true := h token htoken

theorem finishNumber_invalid {s : TextState} (h : RefusesScalars s.toTokenState) :
    s.finishNumber.invalid = true := by
  unfold finishNumber
  split
  · exact token_invalid h nofun
  · rfl

theorem doomed_step {s : TextState} (h : s.Doomed) (c : UInt16) :
    (s.consumeCharacter c).Doomed := by
  cases hinvalid : s.invalid with
  | true =>
      rw [consumeCharacter_of_invalid hinvalid]
      exact h
  | false =>
      obtain ⟨hmode, hrefuses⟩ := h.resolve_left (by simp [hinvalid])
      unfold consumeCharacter
      rw [if_neg (by simp [hinvalid])]
      rcases hmode with hmode | hmode
      · rw [hmode]
        dsimp only [consumeNumberCharacter]
        split
        · exact .inr ⟨.inl hmode, hrefuses⟩
        · exact doomed_reject s
        · rw [if_pos (finishNumber_invalid hrefuses)]
          exact .inl (finishNumber_invalid hrefuses)
      · rw [hmode]
        dsimp only [consumeLiteralCharacter]
        split
        · exact doomed_reject s
        · split
          · exact .inr ⟨.inr hmode, hrefuses⟩
          · exact .inl (hrefuses _ nofun)

theorem not_accepts_of_doomed {s : TextState} (h : s.Doomed) (text : JsString) :
    ¬(s.final text).Accepts := by
  induction text generalizing s with
  | cons c text ih => exact ih (doomed_step h c)
  | nil =>
      cases hinvalid : s.invalid with
      | true => exact not_accepts_of_invalid hinvalid []
      | false =>
          obtain ⟨hmode, hrefuses⟩ := h.resolve_left (by simp [hinvalid])
          rcases hmode with hmode | hmode
          · refine Replay.not_accepts_of_invalid ?_
            have hnumber := finishNumber_invalid hrefuses
            rw [final, consumeText, List.foldl_nil, finishText, if_neg (by simp [hinvalid]), hmode]
            dsimp only
            split
            · rfl
            · exact hnumber
          · exact not_accepts_of_open (.inr hmode)

end TextState

/-! ## Numbers -/

/-- What may follow the integer part of a number literal. -/
def fractionPart : JsString → Bool
  | 0x2E :: rest =>
    match scanDigits rest with
    | some (_, rest) => (scanExponent rest).isSome
    | none => false
  | rest => (scanExponent rest).isSome

/-- A number literal without its sign. -/
def integerPart (s : JsString) : Bool :=
  match scanDigits s with
  | some (integer, rest) =>
    (integer.length = 1 ∨ integer.head? ≠ some 0x30) && fractionPart rest
  | none => false

/-- What completes a number from a state on. -/
def NumberState.completes : NumberState → JsString → Bool
  | .minus, s => integerPart s
  | .zero, s => fractionPart s
  | .integer, s => fractionPart (s.dropWhile isDigit)
  | .dot, s =>
    match scanDigits s with
    | some (_, rest) => (scanExponent rest).isSome
    | none => false
  | .fraction, s => (scanExponent (s.dropWhile isDigit)).isSome
  | .exponent, s => (scanExponent (0x65 :: s)).isSome
  | .exponentSign, s =>
    match scanDigits s with
    | some (_, rest) => rest = []
    | none => false
  | .exponentDigits, s => s.dropWhile isDigit = []

theorem scanDigits_digit (h : isDigit c = true) (s : JsString) :
    scanDigits (c :: s) = some (c :: s.takeWhile isDigit, s.dropWhile isDigit) := by
  simp [scanDigits, h]

theorem scanDigits_other (h : isDigit c = false) (s : JsString) : scanDigits (c :: s) = none := by
  simp [scanDigits, h]

theorem fractionPart_cons (c : UInt16) (s : JsString) :
    fractionPart (c :: s) =
      if c = 0x2E then NumberState.completes .dot s else (scanExponent (c :: s)).isSome := by
  split
  · next h =>
    subst h
    rfl
  · next h =>
    unfold fractionPart
    split
    · next heq =>
      injection heq with hc
      exact absurd hc h
    · rfl

theorem isSome_scanExponent_cons (c : UInt16) (s : JsString) :
    (scanExponent (c :: s)).isSome =
      if c = 0x65 ∨ c = 0x45 then NumberState.completes .exponent s else false := by
  by_cases h : c = 0x65 ∨ c = 0x45
  · have hsame : scanExponent (c :: s) = scanExponent (0x65 :: s) := by
      rcases h with rfl | rfl <;> rfl
    rw [if_pos h, hsame]
    rfl
  · rw [if_neg h]
    simp [scanExponent, h]

theorem fractionPart_digit (h : isDigit c = true) (s : JsString) :
    fractionPart (c :: s) = false := by
  have hdot : c ≠ 0x2E := by rintro rfl; cases h
  have hexponent : ¬(c = 0x65 ∨ c = 0x45) := by rintro (rfl | rfl) <;> cases h
  rw [fractionPart_cons, if_neg hdot, isSome_scanExponent_cons, if_neg hexponent]

/-- Digits up to the end. -/
theorem isSome_exponentDigits (s : JsString) (negative : Bool) :
    ((scanDigits s).bind fun (digits, rest) => (guard (rest = []) : Option Unit).bind fun _ =>
        some (if negative then -(Json.digitsValue digits : Int)
          else Json.digitsValue digits)).isSome =
      NumberState.completes .exponentSign s := by
  simp only [NumberState.completes]
  rcases scanDigits s with _ | ⟨digits, rest⟩
  · rfl
  · by_cases h : rest = [] <;> simp [h]

theorem completes_exponent_cons (c : UInt16) (s : JsString) :
    NumberState.completes .exponent (c :: s) =
      if c = 0x2B ∨ c = 0x2D then NumberState.completes .exponentSign s
      else NumberState.completes .exponentSign (c :: s) := by
  by_cases hplus : c = 0x2B
  · subst hplus
    rw [if_pos (.inl rfl), ← isSome_exponentDigits s false]
    rfl
  · by_cases hminus : c = 0x2D
    · subst hminus
      rw [if_pos (.inr rfl), ← isSome_exponentDigits s true]
      rfl
    · rw [if_neg (by simp [hplus, hminus]), ← isSome_exponentDigits (c :: s) false]
      change (scanExponent (0x65 :: c :: s)).isSome = _
      simp only [scanExponent]
      split
      · simp_all
      · simp_all
      · simp

theorem NumberState.completes_nil (q : NumberState) : q.completes [] = q.complete := by
  cases q <;> rfl

theorem NumberState.completes_cons (q : NumberState) (c : UInt16) (s : JsString) :
    q.completes (c :: s) =
      match q.step c with
      | .next q' => q'.completes s
      | .fail => false
      | .finished => false := by
  cases hdigit : isDigit c with
  | true =>
      have hdot : c ≠ 0x2E := by rintro rfl; cases hdigit
      have hexponent : ¬(c = 0x65 ∨ c = 0x45) := by rintro (rfl | rfl) <;> cases hdigit
      have hsign : ¬(c = 0x2B ∨ c = 0x2D) := by rintro (rfl | rfl) <;> cases hdigit
      cases q with
      | minus =>
          change integerPart (c :: s) = _
          rw [integerPart, scanDigits_digit hdigit]
          by_cases hzero : c = 0x30
          · subst hzero
            cases s with
            | nil => rfl
            | cons d s =>
                cases hd : isDigit d with
                | true => simp [step, hdigit, completes, hd, fractionPart_digit hd]
                | false => simp [step, hdigit, completes, hd]
          · simp [step, hdigit, completes, hzero]
      | zero => simp [step, hdigit, hdot, hexponent, completes, fractionPart_digit hdigit]
      | integer => simp [step, hdigit, completes]
      | dot => simp [step, hdigit, completes, scanDigits_digit hdigit]
      | fraction => simp [step, hdigit, completes]
      | exponent =>
          rw [completes_exponent_cons, if_neg hsign]
          simp [step, hdigit, hsign, completes, scanDigits_digit hdigit]
      | exponentSign => simp [step, hdigit, completes, scanDigits_digit hdigit]
      | exponentDigits => simp [step, hdigit, completes]
  | false =>
      cases q with
      | minus => simp [step, hdigit, completes, integerPart, scanDigits_other hdigit]
      | zero =>
          change fractionPart (c :: s) = _
          rw [fractionPart_cons, isSome_scanExponent_cons]
          simp only [step, hdigit]
          split
          · rfl
          · split <;> rfl
      | integer =>
          change fractionPart ((c :: s).dropWhile isDigit) = _
          rw [List.dropWhile_cons_of_neg (by simp [hdigit]), fractionPart_cons,
            isSome_scanExponent_cons]
          simp only [step, hdigit]
          split
          · rfl
          · split <;> rfl
      | dot => simp [step, hdigit, completes, scanDigits_other hdigit]
      | fraction =>
          change (scanExponent ((c :: s).dropWhile isDigit)).isSome = _
          rw [List.dropWhile_cons_of_neg (by simp [hdigit]), isSome_scanExponent_cons]
          simp only [step, hdigit]
          split <;> rfl
      | exponent =>
          rw [completes_exponent_cons]
          by_cases hsign : c = 0x2B ∨ c = 0x2D
          · simp [step, hsign]
          · simp [step, hdigit, hsign, completes, scanDigits_other hdigit]
      | exponentSign => simp [step, hdigit, completes, scanDigits_other hdigit]
      | exponentDigits => simp [step, hdigit, completes]

/-- A number literal after its sign. -/
theorem isSome_unsigned (s : JsString) (value : JsString → JsString → Int → JsNumber) :
    (do
      let (integer, rest) ← scanDigits s
      guard (integer.length = 1 ∨ integer.head? ≠ some 0x30)
      let (fraction, rest) ← match rest with
        | 0x2E :: rest => scanDigits rest
        | rest => some ([], rest)
      let exponent ← scanExponent rest
      some (value integer fraction exponent)).isSome = integerPart s := by
  unfold integerPart
  rcases scanDigits s with _ | ⟨integer, rest⟩
  · rfl
  · by_cases h : integer.length = 1 ∨ integer.head? ≠ some 0x30
    · have hguard : (guard (integer.length = 1 ∨ integer.head? ≠ some 0x30) : Option Unit) =
          some () := if_pos h
      simp only [h, decide_true, Bool.true_and, fractionPart]
      split
      · next digits =>
        simp only [Option.bind_eq_bind, Option.bind_some, hguard]
        rcases scanDigits digits with _ | ⟨fraction, rest⟩
        · rfl
        · cases h : scanExponent rest <;> simp [h]
      · simp only [Option.bind_eq_bind, Option.bind_some, hguard]
        cases scanExponent rest <;> rfl
    · simp [h]

theorem isSome_scanNumber_minus (s : JsString) :
    (scanNumber (0x2D :: s)).isSome = NumberState.completes .minus s := by
  exact isSome_unsigned s fun integer fraction exponent =>
    JsNumber.ofDecimal true (Json.digitsValue (integer ++ fraction)) (exponent - fraction.length)

theorem isSome_scanNumber_digit (h : isDigit c = true) (s : JsString) :
    (scanNumber (c :: s)).isSome =
      NumberState.completes (if c = 0x30 then .zero else .integer) s := by
  have hunsigned := isSome_unsigned (c :: s) fun integer fraction exponent =>
    JsNumber.ofDecimal false (Json.digitsValue (integer ++ fraction)) (exponent - fraction.length)
  have hminus : c ≠ 0x2D := by rintro rfl; cases h
  have hscan : (scanNumber (c :: s)).isSome = integerPart (c :: s) := by
    rw [← hunsigned]
    unfold scanNumber
    split
    next negative rest heq =>
    split at heq
    · next hcons =>
      injection hcons with hc
      exact absurd hc hminus
    · cases heq
      rfl
  rw [hscan, show integerPart (c :: s) = NumberState.completes .minus (c :: s) from rfl,
    NumberState.completes_cons]
  simp [NumberState.step, h]

/-! ## The kinds of characters -/

theorem isWhitespace_of_visible (hlo : 0x21 ≤ c) (hhi : c ≤ 0x7E) :
    JsString.isWhitespace c = false := by
  simp only [UInt16.le_iff_toNat_le, UInt16.reduceToNat] at hlo hhi
  simp only [JsString.isWhitespace, Bool.or_eq_false_iff, Bool.and_eq_false_iff,
    decide_eq_false_iff_not, beq_eq_false_iff_ne, ne_eq, UInt16.le_iff_toNat_le,
    ← UInt16.toNat_inj, UInt16.reduceToNat]
  omega

/-- A character that can only go on with a scalar or begin one. -/
def isScalarPart (c : UInt16) : Bool := isNumberPart c || isLetter c

theorem isScalarPart_visible (h : isScalarPart c = true) :
    0x21 ≤ c ∧ c ≤ 0x7E ∧ c ≠ 0x22 ∧ isPunctuation c = false := by
  simp only [isScalarPart, isNumberPart, isLetter, isDigit, Bool.or_eq_true, Bool.and_eq_true,
    decide_eq_true_eq, beq_iff_eq, UInt16.le_iff_toNat_le, ← UInt16.toNat_inj,
    UInt16.reduceToNat] at h
  simp only [isPunctuation, Bool.or_eq_false_iff, beq_eq_false_iff_ne, ne_eq,
    UInt16.le_iff_toNat_le, ← UInt16.toNat_inj, UInt16.reduceToNat]
  omega

theorem TextState.doomed_consumeNormalCharacter {s : TextState}
    (h : RefusesScalars s.toTokenState) (hc : isScalarPart c = true) :
    (s.consumeNormalCharacter c).Doomed := by
  obtain ⟨hlo, hhi, hquote, hpunctuation⟩ := isScalarPart_visible hc
  unfold consumeNormalCharacter
  rw [isWhitespace_of_visible hlo hhi, if_neg Bool.false_ne_true, if_neg hquote]
  split
  · exact .inr ⟨.inl rfl, h⟩
  · split
    · exact .inr ⟨.inr rfl, h⟩
    · split
      · exact .inr ⟨.inr rfl, h⟩
      · split
        · exact .inr ⟨.inr rfl, h⟩
        · rw [hpunctuation, if_neg Bool.false_ne_true]
          exact doomed_reject s

/-! ## Reading a scalar -/

/-- Reading goes on between tokens after a token was consumed. -/
def TextState.Resumes (s : TextState) (text : JsString) (token : JsonToken) (rest : JsString) :
    Prop :=
  ∃ s' : TextState, s'.mode = .normal ∧ s'.toTokenState = s.toTokenState.consumeToken token ∧
    s.final text = s'.final rest

theorem TextState.Resumes.cons {s s' : TextState} {c : UInt16} {text rest : JsString}
    {token : JsonToken} (hstep : s.consumeCharacter c = s')
    (htoken : s'.toTokenState = s.toTokenState) (h : s'.Resumes text token rest) :
    s.Resumes (c :: text) token rest := by
  rw [Resumes, final_cons, hstep, ← htoken]
  exact h

theorem NumberState.complete_of_finished {q : NumberState} (h : q.step c = .finished) :
    q.complete = true ∧ isDigit c = false := by
  cases hdigit : isDigit c <;> cases q <;> simp_all [step, complete] <;> split_ifs at h

theorem NumberState.step_of_other {q : NumberState} (h : isNumberPart c = false) :
    q.step c = if q.complete then .finished else .fail := by
  simp only [isNumberPart, Bool.or_eq_false_iff, beq_eq_false_iff_ne] at h
  cases q <;> simp [step, complete, h]

/-- A number, up to the first character that cannot be part of one. -/
theorem TextState.number_run {s : TextState} (hvalid : s.invalid = false) (hmode : s.mode = .number)
    (text : JsString) :
    if s.numberState.completes (text.takeWhile isNumberPart) then
      s.Resumes text .number (text.dropWhile isNumberPart)
    else ¬(s.final text).Accepts := by
  induction text generalizing s with
  | nil =>
      rw [List.takeWhile_nil, NumberState.completes_nil, List.dropWhile_nil]
      split
      · next hcomplete =>
        refine ⟨s.token .number, rfl, rfl, ?_⟩
        rw [final_nil_number hvalid hmode, final_nil_normal rfl, finishNumber, if_pos hcomplete]
      · next hcomplete =>
        rw [final_nil_number hvalid hmode, finishNumber, if_neg hcomplete,
          TokenState.accepts_closed]
        exact Replay.not_accepts_of_invalid rfl
  | cons c text ih =>
      have hstep : s.consumeCharacter c = s.consumeNumberCharacter c := by
        rw [consumeCharacter, if_neg (by simp [hvalid]), hmode]
      cases hpart : isNumberPart c with
      | true =>
          rw [List.takeWhile_cons_of_pos hpart, List.dropWhile_cons_of_pos hpart,
            NumberState.completes_cons]
          unfold consumeNumberCharacter at hstep
          cases hnext : s.numberState.step c with
          | next q =>
              rw [hnext] at hstep
              have hrest := @ih { s with numberState := q } hvalid hmode
              dsimp only at hrest ⊢
              split
              · next hcompletes =>
                rw [if_pos hcompletes] at hrest
                exact hrest.cons hstep rfl
              · next hcompletes =>
                rw [if_neg hcompletes] at hrest
                rwa [final_cons, hstep]
          | fail =>
              rw [hnext] at hstep
              rw [final_cons, hstep]
              exact not_accepts_of_doomed (doomed_reject s) text
          | finished =>
              have hrefuses := @refusesScalars_consumeToken s.toTokenState .number nofun
              rw [hnext, finishNumber, if_pos (NumberState.complete_of_finished hnext).1] at hstep
              rw [final_cons, hstep]
              refine not_accepts_of_doomed ?_ text
              dsimp only
              split
              · next hinvalid => exact .inl hinvalid
              · exact doomed_consumeNormalCharacter hrefuses (by simp [isScalarPart, hpart])
      | false =>
          rw [List.takeWhile_cons_of_neg (by simp [hpart]),
            List.dropWhile_cons_of_neg (by simp [hpart]), NumberState.completes_nil]
          rw [consumeNumberCharacter, NumberState.step_of_other hpart, finishNumber] at hstep
          cases hcomplete : s.numberState.complete with
          | true =>
              rw [hcomplete] at hstep
              exact ⟨s.token .number, rfl, rfl, by rw [final_cons, hstep]; rfl⟩
          | false =>
              rw [hcomplete] at hstep
              rw [final_cons, hstep]
              exact not_accepts_of_doomed (doomed_reject s) text

/-- A literal, letter by letter. -/
theorem TextState.literal_run {s : TextState} (hvalid : s.invalid = false)
    (hmode : s.mode = .literal) {c : UInt16} {rest : JsString}
    (hrest : s.literal.drop s.literalIndex = c :: rest) (text : JsString) :
    if c :: rest <+: text then s.Resumes text (.literal s.literal) (text.drop (rest.length + 1))
    else ¬(s.final text).Accepts := by
  induction text generalizing s c rest with
  | nil =>
      rw [if_neg (by simp)]
      exact not_accepts_of_open (.inr hmode)
  | cons d text ih =>
      have hstep : s.consumeCharacter d = s.consumeLiteralCharacter d := by
        rw [consumeCharacter, if_neg (by simp [hvalid]), hmode]
      have hhead : s.literal[s.literalIndex]? = some c := by
        rw [← List.head?_drop, hrest, List.head?_cons]
      have hlength : s.literal.length = s.literalIndex + 1 + rest.length := by
        have := congrArg List.length hrest
        rw [List.length_drop, List.length_cons] at this
        omega
      rw [consumeLiteralCharacter, hhead] at hstep
      by_cases hcd : c = d
      · subst hcd
        rw [if_neg (by simp)] at hstep
        dsimp only at hstep
        cases rest with
        | nil =>
            rw [if_neg (by simp [hlength])] at hstep
            rw [if_pos (by simp)]
            exact ⟨_, rfl, rfl, by rw [final_cons, hstep]; rfl⟩
        | cons e rest =>
            rw [if_pos (by simp [hlength])] at hstep
            have hnext : s.literal.drop (s.literalIndex + 1) = e :: rest := by
              rw [← List.tail_drop, hrest, List.tail_cons]
            have hrun := @ih { s with literalIndex := s.literalIndex + 1 } hvalid hmode e rest hnext
            simp only [List.prefix_cons_inj, List.length_cons, List.drop_succ_cons] at hrun ⊢
            split
            · next hstart =>
              rw [if_pos hstart] at hrun
              exact hrun.cons hstep rfl
            · next hstart =>
              rw [if_neg hstart] at hrun
              rwa [final_cons, hstep]
      · rw [if_pos (by simpa using hcd)] at hstep
        rw [if_neg (by simp [hcd]), final_cons, hstep]
        exact not_accepts_of_doomed (doomed_reject s) text

/-! ## Strings -/

/-- In a string between two characters, having read some. -/
structure TextState.InString (s : TextState) (read : JsString) : Prop where
  valid : s.invalid = false
  mode : s.mode = .string
  kept : s.stringValue = read.take 512
  plain : s.escaped = false
  digits : s.unicodeRemaining = 0

namespace TextState

variable {read : JsString}

theorem appendString_kept {s : TextState} (h : s.stringValue = read.take 512) (c : UInt16) :
    (s.appendString [c]).stringValue = (read ++ [c]).take 512 := by
  unfold appendString
  have hlength := List.length_take (l := read) (i := 512)
  by_cases hlt : read.length < 512
  · rw [if_pos (by rw [h, hlength]; omega)]
    rw [h, List.take_of_length_le (by omega), List.take_of_length_le (by simp; omega),
      List.take_of_length_le (by simp; omega)]
  · rw [if_neg (by rw [h, hlength]; omega), h, List.take_append_of_le_length (by omega)]

theorem InString.append {s : TextState} (h : s.InString read) (c : UInt16) :
    (s.appendString [c]).InString (read ++ [c]) := by
  have hkept := appendString_kept h.kept c
  unfold appendString at hkept ⊢
  split at hkept
  · next hlt =>
    rw [if_pos hlt]
    exact ⟨h.valid, h.mode, hkept, h.plain, h.digits⟩
  · next hlt =>
    rw [if_neg hlt]
    exact ⟨h.valid, h.mode, hkept, h.plain, h.digits⟩

theorem appendString_toTokenState (s : TextState) (value : JsString) :
    (s.appendString value).toTokenState = s.toTokenState := by
  unfold appendString
  split <;> rfl

theorem consumeCharacter_string {s : TextState} (hvalid : s.invalid = false)
    (hmode : s.mode = .string) (c : UInt16) :
    s.consumeCharacter c = s.consumeStringCharacter c := by
  rw [consumeCharacter, if_neg (by simp [hvalid]), hmode]

/-- In a string, inside a unicode escape. -/
structure InEscape (s : TextState) (read : JsString) (remaining value : Nat) : Prop where
  valid : s.invalid = false
  mode : s.mode = .string
  kept : s.stringValue = read.take 512
  plain : s.escaped = false
  remaining : s.unicodeRemaining = remaining
  value : s.unicodeValue = value

theorem InEscape.bad_digit {s : TextState} (h : s.InEscape read (n + 1) v)
    (hc : hexValue? c = none) : s.consumeCharacter c = s.reject := by
  rw [consumeCharacter_string h.valid h.mode, consumeStringCharacter,
    if_pos (by rw [h.remaining]; omega), hc]

theorem InEscape.digit {s : TextState} (h : s.InEscape read (n + 2) v) (hc : hexValue? c = some d) :
    (s.consumeCharacter c).InEscape read (n + 1) (v * 16 + d) ∧
      (s.consumeCharacter c).toTokenState = s.toTokenState := by
  rw [consumeCharacter_string h.valid h.mode, consumeStringCharacter,
    if_pos (by rw [h.remaining]; omega), hc]
  dsimp only
  rw [if_neg (by rw [h.remaining]; omega)]
  exact ⟨⟨h.valid, h.mode, h.kept, h.plain, by simp [h.remaining], by simp [h.value]⟩, rfl⟩

theorem InEscape.last_digit {s : TextState} (h : s.InEscape read 1 v) (hc : hexValue? c = some d) :
    (s.consumeCharacter c).InString (read ++ [UInt16.ofNat (v * 16 + d)]) ∧
      (s.consumeCharacter c).toTokenState = s.toTokenState := by
  rw [consumeCharacter_string h.valid h.mode, consumeStringCharacter,
    if_pos (by rw [h.remaining]; omega), hc]
  dsimp only
  rw [if_pos (by rw [h.remaining]), h.value, h.remaining]
  refine ⟨InString.append ?_ _, appendString_toTokenState _ _⟩
  exact ⟨h.valid, h.mode, h.kept, h.plain, rfl⟩

/-- A text does not end inside an escape. -/
theorem InEscape.not_accepts {s : TextState} (h : s.InEscape read n v) (hshort : text.length < n) :
    ¬(s.final text).Accepts := by
  induction text generalizing s n v with
  | nil => exact not_accepts_of_open (.inl h.mode)
  | cons c text ih =>
      obtain ⟨m, rfl⟩ : ∃ m, n = m + 2 := ⟨n - 2, by rw [List.length_cons] at hshort; omega⟩
      rw [final_cons]
      cases hc : hexValue? c with
      | none =>
          rw [h.bad_digit hc]
          exact not_accepts_of_doomed (doomed_reject s) text
      | some d => exact ih (h.digit hc).1 (by rw [List.length_cons] at hshort; omega)

/-- The four digits of a unicode escape. -/
theorem InEscape.four_digits {s : TextState} (h : s.InEscape read 4 0) (a b c d : UInt16) :
    match hexUnit? a b c d with
    | some unit =>
      ((((s.consumeCharacter a).consumeCharacter b).consumeCharacter c).consumeCharacter d).InString
          (read ++ [unit]) ∧
        ((((s.consumeCharacter a).consumeCharacter b).consumeCharacter c).consumeCharacter
          d).toTokenState = s.toTokenState
    | none => ((((s.consumeCharacter a).consumeCharacter b).consumeCharacter c).consumeCharacter
        d).invalid = true := by
  unfold hexUnit?
  cases ha : hexValue? a with
  | none => simp [h.bad_digit ha]
  | some va =>
      obtain ⟨h1, ht1⟩ := h.digit ha
      cases hb : hexValue? b with
      | none => simp [h1.bad_digit hb]
      | some vb =>
          obtain ⟨h2, ht2⟩ := h1.digit hb
          cases hc : hexValue? c with
          | none => simp [h2.bad_digit hc]
          | some vc =>
              obtain ⟨h3, ht3⟩ := h2.digit hc
              cases hd : hexValue? d with
              | none => simp [h3.bad_digit hd]
              | some vd =>
                  obtain ⟨h4, ht4⟩ := h3.last_digit hd
                  have hvalue : (((0 * 16 + va) * 16 + vb) * 16 + vc) * 16 + vd =
                      va * 0x1000 + vb * 0x100 + vc * 0x10 + vd := by omega
                  rw [hvalue] at h4
                  exact ⟨h4, ht4.trans (ht3.trans (ht2.trans ht1))⟩

theorem InString.backslash {s : TextState} (h : s.InString read) :
    s.consumeCharacter 0x5C = { s with escaped := true } := by
  rw [consumeCharacter_string h.valid h.mode, consumeStringCharacter,
    if_neg (by simp [h.digits]), h.plain]
  rfl

/-- The backslash and the `u` of a unicode escape. -/
theorem InString.unicode {s : TextState} (h : s.InString read) :
    ((s.consumeCharacter 0x5C).consumeCharacter 0x75).InEscape read 4 0 ∧
      ((s.consumeCharacter 0x5C).consumeCharacter 0x75).toTokenState = s.toTokenState := by
  have hu : ({ s with escaped := true } : TextState).consumeCharacter 0x75 =
      { s with escaped := false, unicodeRemaining := 4, unicodeValue := 0 } := by
    rw [@consumeCharacter_string { s with escaped := true } h.valid h.mode,
      consumeStringCharacter, if_neg (by simp [h.digits])]
    rfl
  rw [h.backslash, hu]
  exact ⟨⟨h.valid, h.mode, h.kept, rfl, rfl, rfl⟩, rfl⟩

/-- The other escapes. -/
theorem InString.escape {s : TextState} (h : s.InString read) {e : UInt16} (he : e ≠ 0x75) :
    match escaped? e with
    | some unit =>
      ((s.consumeCharacter 0x5C).consumeCharacter e).InString (read ++ [unit]) ∧
        ((s.consumeCharacter 0x5C).consumeCharacter e).toTokenState = s.toTokenState
    | none => ((s.consumeCharacter 0x5C).consumeCharacter e).invalid = true := by
  rw [h.backslash, @consumeCharacter_string { s with escaped := true } h.valid h.mode,
    consumeStringCharacter, if_neg (by simp [h.digits]), if_pos rfl, if_neg he]
  cases escaped? e with
  | none => rfl
  | some unit =>
      refine ⟨InString.append ?_ _, appendString_toTokenState _ _⟩
      exact ⟨h.valid, h.mode, h.kept, rfl, h.digits⟩

/-- What a string's scan says of the run over it. -/
def ReadsString (s : TextState) (read text : JsString) : Option (JsString × JsString) → Prop
  | some (value, rest) => s.Resumes text (.string ((read ++ value).take 512)) rest
  | none => ¬(s.final text).Accepts

/-- A code unit of the string, however it is written. -/
theorem ReadsString.unit {s s' : TextState} {text rest : JsString} {unit : UInt16}
    (htoken : s'.toTokenState = s.toTokenState) (hfinal : s.final text = s'.final rest)
    {scanned : Option (JsString × JsString)} (h : s'.ReadsString (read ++ [unit]) rest scanned) :
    s.ReadsString read text (scanned.map fun (value, rest) => (unit :: value, rest)) := by
  rcases scanned with _ | ⟨value, after⟩
  · change ¬(s.final text).Accepts
    rw [hfinal]
    exact h
  · change s.Resumes text _ after
    rw [Resumes, hfinal, ← htoken, List.append_cons]
    exact h

theorem length_lt_four {rest : JsString}
    (h : ∀ a b x d tail, rest ≠ a :: b :: x :: d :: tail) : rest.length < 4 := by
  obtain _ | ⟨a, _ | ⟨b, _ | ⟨x, _ | ⟨d, tail⟩⟩⟩⟩ := rest
  · decide
  · exact Nat.succ_lt_succ (by decide)
  · exact Nat.succ_lt_succ (Nat.succ_lt_succ (by decide))
  · exact Nat.succ_lt_succ (Nat.succ_lt_succ (Nat.succ_lt_succ (by decide)))
  · exact (h a b x d tail rfl).elim

/-- A string, up to its closing quote. -/
theorem string_run {s : TextState} (h : s.InString read) (text : JsString) :
    s.ReadsString read text (scanString text) := by
  fun_induction scanString text generalizing s read with
  | case1 => exact not_accepts_of_open (.inl h.mode)
  | case2 rest =>
      have hstep : s.consumeCharacter 0x22 = s.token (.string (read.take 512)) := by
        rw [consumeCharacter_string h.valid h.mode, consumeStringCharacter,
          if_neg (by simp [h.digits]), h.plain, h.kept]
        rfl
      refine ⟨s.token (.string (read.take 512)), rfl, ?_, ?_⟩
      · rw [List.append_nil]
        rfl
      · rw [final_cons, hstep]
  | case3 c rest hquote hcontrol =>
      have hbackslash : c ≠ 0x5C := by rintro rfl; exact absurd hcontrol (by decide)
      have hstep : s.consumeCharacter c = s.reject := by
        rw [consumeCharacter_string h.valid h.mode, consumeStringCharacter,
          if_neg (by simp [h.digits]), h.plain, if_neg Bool.false_ne_true, if_neg hbackslash,
          if_neg hquote, if_pos hcontrol]
      change ¬((s.consumeCharacter c).final rest).Accepts
      rw [hstep]
      exact not_accepts_of_doomed (doomed_reject s) rest
  | case4 c rest hquote hcontrol hplain ih =>
      have hstep : s.consumeCharacter c = s.appendString [c] := by
        rw [consumeCharacter_string h.valid h.mode, consumeStringCharacter,
          if_neg (by simp [h.digits]), h.plain, if_neg Bool.false_ne_true, if_neg hplain,
          if_neg hquote, if_neg hcontrol]
      refine (ih (h.append c)).unit (appendString_toTokenState s [c]) ?_
      rw [final_cons, hstep]
  | case5 c hquote hcontrol hplain a b x d rest ih =>
      obtain rfl : c = 0x5C := not_not.mp hplain
      obtain ⟨hescape, htoken⟩ := h.unicode
      have hdigits := hescape.four_digits a b x d
      cases hunit : hexUnit? a b x d with
      | none =>
          rw [hunit] at hdigits
          exact not_accepts_of_invalid hdigits rest
      | some unit =>
          rw [hunit] at hdigits
          have hrest := (ih hdigits.1).unit (hdigits.2.trans htoken)
            (show s.final (0x5C :: 0x75 :: a :: b :: x :: d :: rest) = _ from rfl)
          simpa [Option.map_eq_bind, Function.comp_def] using hrest
  | case6 c hquote hcontrol hplain e rest hescape ih =>
      obtain rfl : c = 0x5C := not_not.mp hplain
      by_cases he : e = 0x75
      · subst he
        exact h.unicode.1.not_accepts (length_lt_four fun a b x d tail h => hescape a b x d tail rfl h)
      · have hstep := h.escape he
        cases hunit : escaped? e with
        | none =>
            rw [hunit] at hstep
            exact not_accepts_of_invalid hstep rest
        | some unit =>
            rw [hunit] at hstep
            have hrest := (ih hstep.1).unit hstep.2
              (show s.final (0x5C :: e :: rest) = _ from rfl)
            simpa [Option.map_eq_bind, Function.comp_def] using hrest
  | case7 c hquote hcontrol hplain =>
      obtain rfl : c = 0x5C := not_not.mp hplain
      change ¬((s.consumeCharacter 0x5C).final []).Accepts
      rw [h.backslash]
      exact not_accepts_of_open (.inl h.mode)

end TextState

end StonePlus.Replay
