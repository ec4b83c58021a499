import StonePlus.Replay.ValidatorScalars

/-!
# StonePlus.Replay.ValidatorText

What texts the validator accepts.

Between two tokens the validator skips whatever the language calls white space, so it reads
the tokens of the text in which such characters are spaces (`plainSpaces`).
-/

namespace StonePlus.Replay

open Json (Token tokens isDigit isLetter isNumberPart isJsonSpace isPunctuation scanString
  scanNumber literal? hexValue? hexUnit? escaped?)

/-! ## White space between tokens -/

/-- Where a character stands. -/
inductive Place
  | outside | inside | escaped
  deriving DecidableEq, Repr

def Place.next : Place → UInt16 → Place
  | .outside, c => if c = 0x22 then .inside else .outside
  | .inside, c => if c = 0x22 then .outside else if c = 0x5C then .escaped else .inside
  | .escaped, _ => .inside

/-- White space that JSON does not have, between tokens. -/
def Place.foreign (place : Place) (c : UInt16) : Bool :=
  place = .outside && JsString.isWhitespace c && !isJsonSpace c

/-- The text with a space for every foreign white-space character between tokens. -/
def plainSpaces (place : Place) : JsString → JsString
  | [] => []
  | c :: rest => (if place.foreign c then 0x20 else c) :: plainSpaces (place.next c) rest

@[simp] theorem plainSpaces_inside (c : UInt16) (text : JsString) :
    plainSpaces .inside (c :: text) = c :: plainSpaces (Place.next .inside c) text := rfl

@[simp] theorem plainSpaces_escaped (c : UInt16) (text : JsString) :
    plainSpaces .escaped (c :: text) = c :: plainSpaces .inside text := rfl

theorem scanString_quote (rest : JsString) : scanString (0x22 :: rest) = some ([], rest) := by
  conv_lhs => unfold scanString
  rfl

theorem scanString_control (hquote : ¬c = 0x22) (hcontrol : c < 0x20) (rest : JsString) :
    scanString (c :: rest) = none := by
  conv_lhs => unfold scanString
  simp only [if_neg hquote, if_pos hcontrol]

variable {c : UInt16}

theorem scanString_plain (hquote : ¬c = 0x22) (hcontrol : ¬c < 0x20) (hplain : c ≠ 0x5C)
    (rest : JsString) :
    scanString (c :: rest) = (scanString rest).map fun (value, rest) => (c :: value, rest) := by
  conv_lhs => unfold scanString
  simp only [if_neg hquote, if_neg hcontrol, if_pos hplain]

theorem scanString_unicode (a b c d : UInt16) (rest : JsString) :
    scanString (0x5C :: 0x75 :: a :: b :: c :: d :: rest) = (do
      let unit ← hexUnit? a b c d
      let (s, rest) ← scanString rest
      some (unit :: s, rest)) := by
  conv_lhs => unfold scanString
  rfl

theorem scanString_escape {e : UInt16} (he : e ≠ 0x75) (rest : JsString) :
    scanString (0x5C :: e :: rest) = (do
      let unit ← escaped? e
      let (s, rest) ← scanString rest
      some (unit :: s, rest)) := by
  conv_lhs => unfold scanString
  simp only [show ¬((0x5C : UInt16) = 0x22) by decide, show ¬((0x5C : UInt16) < 0x20) by decide,
    ne_eq, not_true_eq_false, if_false]
  split
  · simp_all
  · simp_all
  · simp_all

theorem scanString_short (h : rest.length < 4) : scanString (0x5C :: 0x75 :: rest) = none := by
  match rest, h with
  | [], _ | [_], _ | [_, _], _ | [_, _, _], _ => unfold scanString; rfl
  | _ :: _ :: _ :: _ :: _, h =>
      simp only [List.length_cons] at h
      omega
@[simp] theorem length_plainSpaces (place : Place) (text : JsString) :
    (plainSpaces place text).length = text.length := by
  induction text generalizing place with
  | nil => rfl
  | cons c text ih => simp [plainSpaces, ih]

theorem next_of_hexValue (h : hexValue? c = some v) : Place.next .inside c = .inside := by
  have hquote : c ≠ 0x22 := by rintro rfl; cases h
  have hbackslash : c ≠ 0x5C := by rintro rfl; cases h
  rw [Place.next, if_neg hquote, if_neg hbackslash]

/-- A string is read as it stands. -/
theorem scanString_plainSpaces (text : JsString) :
    scanString (plainSpaces .inside text) =
      (scanString text).map fun (value, rest) => (value, plainSpaces .outside rest) := by
  fun_induction scanString text with
  | case1 => rfl
  | case2 rest => exact scanString_quote _
  | case3 c rest hquote hcontrol => exact scanString_control hquote hcontrol _
  | case4 c rest hquote hcontrol hplain ih =>
      rw [plainSpaces_inside, Place.next, if_neg hquote, if_neg hplain,
        scanString_plain hquote hcontrol hplain, ih, Option.map_map, Option.map_map]
      rfl
  | case5 c hquote hcontrol hplain a b x d rest ih =>
      obtain rfl : c = 0x5C := not_not.mp hplain
      rw [plainSpaces_inside, show Place.next .inside 0x5C = .escaped from rfl, plainSpaces_escaped,
        plainSpaces_inside]
      cases ha : hexValue? a with
      | none => simp [plainSpaces, scanString_unicode, hexUnit?, ha]
      | some va =>
          rw [next_of_hexValue ha, plainSpaces_inside]
          cases hb : hexValue? b with
          | none => simp [plainSpaces, scanString_unicode, hexUnit?, ha, hb]
          | some vb =>
              rw [next_of_hexValue hb, plainSpaces_inside]
              cases hx : hexValue? x with
              | none => simp [plainSpaces, scanString_unicode, hexUnit?, ha, hb, hx]
              | some vx =>
                  rw [next_of_hexValue hx, plainSpaces_inside, scanString_unicode]
                  cases hd : hexValue? d with
                  | none => simp [hexUnit?, ha, hb, hx, hd]
                  | some vd =>
                      rw [next_of_hexValue hd, ih]
                      simp [hexUnit?, ha, hb, hx, hd, Option.map_eq_bind, Option.bind_assoc]
  | case6 c hquote hcontrol hplain e rest hescape ih =>
      obtain rfl : c = 0x5C := not_not.mp hplain
      by_cases he : e = 0x75
      · subst he
        have hshort : rest.length < 4 :=
          TextState.length_lt_four fun a b x d tail h => hescape a b x d tail rfl h
        rw [plainSpaces_inside, show Place.next .inside 0x5C = .escaped from rfl,
          plainSpaces_escaped, scanString_short (by rwa [length_plainSpaces])]
        rfl
      · change scanString (0x5C :: e :: plainSpaces .inside rest) = _
        rw [scanString_escape he, ih]
        cases escaped? e with
        | none => rfl
        | some unit => simp [Option.map_eq_bind, Option.bind_assoc]
  | case7 c hquote hcontrol hplain =>
      obtain rfl : c = 0x5C := not_not.mp hplain
      rfl

/-- Characters that can only belong to a scalar are read as they stand. -/
theorem takeWhile_plainSpaces (hp : ∀ c, p c = true → isScalarPart c = true) (text : JsString) :
    (plainSpaces .outside text).takeWhile p = text.takeWhile p ∧
      (plainSpaces .outside text).dropWhile p = plainSpaces .outside (text.dropWhile p) := by
  induction text with
  | nil => exact ⟨rfl, rfl⟩
  | cons c text ih =>
      cases hc : p c with
      | true =>
          obtain ⟨hlo, hhi, hquote, -⟩ := isScalarPart_visible (hp c hc)
          have hforeign : Place.foreign .outside c = false := by
            simp [Place.foreign, isWhitespace_of_visible hlo hhi]
          rw [plainSpaces, hforeign, if_neg Bool.false_ne_true, Place.next, if_neg hquote]
          simp [hc, ih]
      | false =>
          have hspace : p 0x20 = false := by
            by_contra hne
            have := isScalarPart_visible (hp 0x20 (by simpa using hne))
            exact absurd this.1 (by decide)
          rw [List.takeWhile_cons_of_neg (by simp [hc]), List.dropWhile_cons_of_neg (by simp [hc]),
            plainSpaces]
          split
          · exact ⟨List.takeWhile_cons_of_neg (by simp [hspace]),
              List.dropWhile_cons_of_neg (by simp [hspace])⟩
          · exact ⟨List.takeWhile_cons_of_neg (by simp [hc]),
              List.dropWhile_cons_of_neg (by simp [hc])⟩

/-! ## The tokens of a text -/

theorem tokens_space (h : isJsonSpace c = true) (rest : JsString) :
    tokens (c :: rest) = tokens rest := by
  rw [tokens, if_pos h]

theorem isWhitespace_of_isJsonSpace (h : isJsonSpace c = true) :
    JsString.isWhitespace c = true := by
  simp only [isJsonSpace, Bool.or_eq_true, beq_iff_eq] at h
  rcases h with ((rfl | rfl) | rfl) | rfl <;> rfl

theorem isPunctuation_cases (h : isPunctuation c = true) :
    JsString.isWhitespace c = false ∧ c ≠ 0x22 ∧ isScalarPart c = false := by
  simp only [isPunctuation, Bool.or_eq_true, beq_iff_eq] at h
  rcases h with ((((rfl | rfl) | rfl) | rfl) | rfl) | rfl <;> decide

theorem not_isJsonSpace (h : JsString.isWhitespace c = false) : ¬isJsonSpace c = true := fun hspace => by
  rw [isWhitespace_of_isJsonSpace hspace] at h
  cases h

theorem tokens_punctuation (h : isPunctuation c = true) (rest : JsString) :
    tokens (c :: rest) = (tokens rest).map (.punctuation c :: ·) := by
  rw [tokens, if_neg (not_isJsonSpace (isPunctuation_cases h).1), if_pos h]

theorem tokens_string (rest : JsString) :
    tokens (0x22 :: rest) = (scanString rest).bind fun (value, rest) =>
      (tokens rest).map (.scalar (.string value) :: ·) := by
  rw [tokens, if_neg (by decide), if_neg (by decide), if_pos rfl]
  split
  · next h => rw [h]; rfl
  · next h => rw [h]; rfl

theorem isScalarPart_of_number (h : c = 0x2D ∨ isDigit c = true) : isScalarPart c = true := by
  rcases h with rfl | h
  · rfl
  · simp [isScalarPart, isNumberPart, h]

theorem isLetter_of_number (h : c = 0x2D ∨ isDigit c = true) : isLetter c = false := by
  rcases h with rfl | h
  · rfl
  · simp only [isDigit, isLetter, Bool.and_eq_true, Bool.and_eq_false_iff, decide_eq_true_eq,
      decide_eq_false_iff_not, UInt16.le_iff_toNat_le, UInt16.reduceToNat] at h ⊢
    omega

/-- A scalar without quotes. -/
theorem tokens_scalar (h : isScalarPart c = true) (rest : JsString) : tokens (c :: rest) =
      if isLetter c then
        (literal? (c :: rest.takeWhile isLetter)).bind fun value =>
          (tokens (rest.dropWhile isLetter)).map (.scalar value :: ·)
      else if isDigit c ∨ c = 0x2D then
        (scanNumber (c :: rest.takeWhile isNumberPart)).bind fun value =>
          (tokens (rest.dropWhile isNumberPart)).map (.scalar (.number value) :: ·)
      else none := by
  obtain ⟨hlo, hhi, hquote, hpunctuation⟩ := isScalarPart_visible h
  rw [tokens, if_neg (not_isJsonSpace (isWhitespace_of_visible hlo hhi)),
    if_neg (by simp [hpunctuation]), if_neg hquote]
  rfl

theorem lexed_of_tokens (h : tokens text = some ts) : ∀ t ∈ ts, Lexed t := by
  fun_induction tokens text generalizing ts with
  | case1 =>
      cases h
      nofun
  | case2 c rest hspace ih => exact ih h
  | case3 c rest hspace hpunctuation ih =>
      obtain ⟨more, hmore, rfl⟩ := Option.map_eq_some_iff.mp h
      exact List.forall_mem_cons.mpr ⟨trivial, ih hmore⟩
  | case4 => cases h
  | case5 rest value after hscan hspace hpunctuation ih =>
      obtain ⟨more, hmore, rfl⟩ := Option.map_eq_some_iff.mp h
      exact List.forall_mem_cons.mpr ⟨trivial, ih hmore⟩
  | case6 c rest hspace hpunctuation hquote hletter ih =>
      obtain ⟨value, hvalue, h⟩ := Option.bind_eq_some_iff.mp h
      obtain ⟨more, hmore, rfl⟩ := Option.map_eq_some_iff.mp h
      refine List.forall_mem_cons.mpr ⟨?_, ih hmore⟩
      unfold literal? at hvalue
      split_ifs at hvalue <;> cases hvalue <;> trivial
  | case7 c rest hspace hpunctuation hquote hletter hnumber ih =>
      obtain ⟨value, hvalue, h⟩ := Option.bind_eq_some_iff.mp h
      obtain ⟨more, hmore, rfl⟩ := Option.map_eq_some_iff.mp h
      exact List.forall_mem_cons.mpr ⟨trivial, ih hmore⟩
  | case8 => cases h

/-! ## Reading a text -/

namespace TextState

/-- What the tokens of a text say of the run over it. -/
def ReadsText (s : TextState) (text : JsString) : Option (List Token) → Prop
  | some ts => s.final text = (consumeTokens s.toTokenState ts).closed
  | none => ¬(s.final text).Accepts

variable {s : TextState}

theorem readsText_of_invalid (h : s.invalid = true) (text : JsString) (ts? : Option (List Token)) :
    s.ReadsText text ts? := by
  cases ts? with
  | none => exact not_accepts_of_invalid h text
  | some ts =>
      rw [ReadsText, final_of_invalid h, consumeTokens_of_invalid h, TokenState.closed_of_invalid h]

/-- A token and what follows it. -/
theorem Resumes.readsText {s : TextState} {text rest : JsString} {t : Token}
    (h : s.Resumes text (tokenOf t) rest) {ts? : Option (List Token)}
    (hrest : ∀ s' : TextState, s'.mode = .normal → s'.ReadsText rest ts?) :
    s.ReadsText text (ts?.map (t :: ·)) := by
  obtain ⟨s', hmode, htoken, hfinal⟩ := h
  have hrun := hrest s' hmode
  cases ts? with
  | none =>
      change ¬(s.final text).Accepts
      rwa [hfinal]
  | some ts =>
      change s.final text = (consumeTokens s.toTokenState (t :: ts)).closed
      rw [hfinal, consumeTokens, List.foldl_cons, ← htoken]
      exact hrun

theorem consumeCharacter_normal (hvalid : s.invalid = false) (hmode : s.mode = .normal)
    (c : UInt16) : s.consumeCharacter c = s.consumeNormalCharacter c := by
  rw [consumeCharacter, if_neg (by simp [hvalid]), hmode]

/-- After a scalar a text does not go on with a part of one. -/
theorem Resumes.not_accepts {token : JsonToken} (h : s.Resumes text token (c :: rest))
    (htoken : ∀ c, token ≠ .punctuation c) (hc : isScalarPart c = true) :
    ¬(s.final text).Accepts := by
  obtain ⟨s', hmode, hstate, hfinal⟩ := h
  rw [hfinal, final_cons]
  refine not_accepts_of_doomed ?_ rest
  cases hinvalid : s'.invalid with
  | true =>
      rw [consumeCharacter_of_invalid hinvalid]
      exact .inl hinvalid
  | false =>
      rw [consumeCharacter_normal hinvalid hmode]
      refine doomed_consumeNormalCharacter ?_ hc
      rw [hstate]
      exact refusesScalars_consumeToken _ htoken

/-- What a literal's run says, the run of letters being longer or other than the word. -/
theorem literal_not_accepts {word : JsString} (hletters : ∀ c ∈ tail, isLetter c = true)
    (hother : rest.takeWhile isLetter ≠ tail)
    (hrun : if tail <+: rest then s.Resumes rest (.literal word) (rest.drop tail.length)
      else ¬(s.final rest).Accepts) : ¬(s.final rest).Accepts := by
  split at hrun
  · next hstart =>
    obtain ⟨after, rfl⟩ := hstart
    rw [List.drop_left] at hrun
    cases after with
    | nil =>
        refine absurd ?_ hother
        rw [List.append_nil, List.takeWhile_eq_self_iff]
        exact hletters
    | cons c after =>
        have hc : isLetter c = true := by
          by_contra hc
          refine hother ?_
          rw [List.takeWhile_append_of_pos hletters, List.takeWhile_cons_of_neg hc, List.append_nil]
        exact hrun.not_accepts nofun (by simp [isScalarPart, hc])
  · exact hrun

/-- The words, by their first letter. -/
structure IsWord (c : UInt16) (tail : JsString) (v : Json) : Prop where
  ne_nil : tail ≠ []
  letters : ∀ d ∈ tail, isLetter d = true
  value : literal? (c :: tail) = some v
  token : tokenOf (.scalar v) = .literal (c :: tail)
  unique : ∀ letters, letters ≠ tail → literal? (c :: letters) = none

theorem literal_reads (hvalid : s.invalid = false) {tail : JsString} {v : Json}
    (hword : IsWord c tail v)
    (hstep : s.consumeCharacter c =
      { s with literal := c :: tail, literalIndex := 1, mode := .literal }) (rest : JsString)
    (ih : ∀ s' : TextState, s'.mode = .normal → s'.ReadsText (rest.dropWhile isLetter)
      (tokens (plainSpaces .outside (rest.dropWhile isLetter)))) :
    s.ReadsText (c :: rest) ((literal? (c :: rest.takeWhile isLetter)).bind fun value =>
      (tokens (plainSpaces .outside (rest.dropWhile isLetter))).map (.scalar value :: ·)) := by
  obtain ⟨d, tail, rfl⟩ := List.exists_cons_of_ne_nil hword.ne_nil
  have hrun := @literal_run
    { s with literal := c :: d :: tail, literalIndex := 1, mode := .literal }
    hvalid rfl d tail rfl rest
  by_cases heq : rest.takeWhile isLetter = d :: tail
  · have hrest : rest = d :: tail ++ rest.dropWhile isLetter := by
      rw [← heq, List.takeWhile_append_dropWhile]
    have hdrop : rest.drop (tail.length + 1) = rest.dropWhile isLetter := by
      conv_lhs => rw [hrest]
      exact @List.drop_left _ (d :: tail) _
    rw [if_pos (by rw [hrest]; exact List.prefix_append _ _), hdrop] at hrun
    rw [heq, hword.value]
    refine Resumes.readsText ?_ ih
    rw [hword.token]
    exact hrun.cons hstep rfl
  · rw [hword.unique _ heq]
    change ¬(s.final (c :: rest)).Accepts
    rw [final_cons, hstep]
    exact literal_not_accepts hword.letters heq hrun

theorem isWord_true : IsWord 0x74 (js "rue") (.bool true) where
  ne_nil := by decide
  letters := List.all_eq_true.mp (by decide)
  value := if_pos rfl
  token := by decide
  unique := fun letters h => by
    have htrue : 0x74 :: letters ≠ js "true" := fun heq => h (List.cons.inj heq).2
    have hfalse : 0x74 :: letters ≠ js "false" := fun heq =>
      absurd (List.cons.inj heq).1 (by decide)
    have hnull : 0x74 :: letters ≠ js "null" := fun heq =>
      absurd (List.cons.inj heq).1 (by decide)
    rw [literal?, if_neg htrue, if_neg hfalse, if_neg hnull]

theorem isWord_false : IsWord 0x66 (js "alse") (.bool false) where
  ne_nil := by decide
  letters := List.all_eq_true.mp (by decide)
  value := (if_neg (by decide)).trans (if_pos rfl)
  token := by decide
  unique := fun letters h => by
    have htrue : 0x66 :: letters ≠ js "true" := fun heq =>
      absurd (List.cons.inj heq).1 (by decide)
    have hfalse : 0x66 :: letters ≠ js "false" := fun heq => h (List.cons.inj heq).2
    have hnull : 0x66 :: letters ≠ js "null" := fun heq =>
      absurd (List.cons.inj heq).1 (by decide)
    rw [literal?, if_neg htrue, if_neg hfalse, if_neg hnull]

theorem isWord_null : IsWord 0x6E (js "ull") .null where
  ne_nil := by decide
  letters := List.all_eq_true.mp (by decide)
  value := (if_neg (by decide)).trans ((if_neg (by decide)).trans (if_pos rfl))
  token := by decide
  unique := fun letters h => by
    have htrue : 0x6E :: letters ≠ js "true" := fun heq =>
      absurd (List.cons.inj heq).1 (by decide)
    have hfalse : 0x6E :: letters ≠ js "false" := fun heq =>
      absurd (List.cons.inj heq).1 (by decide)
    have hnull : 0x6E :: letters ≠ js "null" := fun heq => h (List.cons.inj heq).2
    rw [literal?, if_neg htrue, if_neg hfalse, if_neg hnull]

/-- Other letters begin no word. -/
theorem literal?_eq_none (ht : c ≠ 0x74) (hf : c ≠ 0x66) (hn : c ≠ 0x6E) (letters : JsString) :
    literal? (c :: letters) = none := by
  have htrue : c :: letters ≠ js "true" := fun heq => ht (List.cons.inj heq).1
  have hfalse : c :: letters ≠ js "false" := fun heq => hf (List.cons.inj heq).1
  have hnull : c :: letters ≠ js "null" := fun heq => hn (List.cons.inj heq).1
  rw [literal?, if_neg htrue, if_neg hfalse, if_neg hnull]

/-- A number, from its first character on. -/
theorem number_reads (hvalid : s.invalid = false) (hc : isDigit c = true ∨ c = 0x2D)
    (hstep : s.consumeCharacter c = s.startNumber c) (rest : JsString)
    (ih : ∀ s' : TextState, s'.mode = .normal → s'.ReadsText (rest.dropWhile isNumberPart)
      (tokens (plainSpaces .outside (rest.dropWhile isNumberPart)))) :
    s.ReadsText (c :: rest) ((scanNumber (c :: rest.takeWhile isNumberPart)).bind fun value =>
      (tokens (plainSpaces .outside (rest.dropWhile isNumberPart))).map
        (.scalar (.number value) :: ·)) := by
  have hrun := number_run (s := s.startNumber c) hvalid rfl rest
  have hscan : (scanNumber (c :: rest.takeWhile isNumberPart)).isSome =
      (s.startNumber c).numberState.completes (rest.takeWhile isNumberPart) := by
    by_cases hminus : c = 0x2D
    · subst hminus
      exact isSome_scanNumber_minus _
    · rw [isSome_scanNumber_digit (hc.resolve_right hminus)]
      simp [startNumber, hminus]
  rw [← hscan] at hrun
  cases hvalue : scanNumber (c :: rest.takeWhile isNumberPart) with
  | none =>
      rw [hvalue] at hrun
      change ¬(s.final (c :: rest)).Accepts
      rw [final_cons, hstep]
      exact hrun
  | some value =>
      rw [hvalue] at hrun
      have hresumes : s.Resumes (c :: rest) .number (rest.dropWhile isNumberPart) :=
        Resumes.cons hstep rfl hrun
      exact @Resumes.readsText s _ _ (.scalar (.number value)) hresumes _ ih

/-- A string, from its opening quote on. -/
theorem string_reads (hvalid : s.invalid = false)
    (hstep : s.consumeCharacter 0x22 =
      { s with mode := .string, stringValue := [], escaped := false, unicodeRemaining := 0 })
    (rest : JsString)
    (ih : ∀ after : JsString, after.length < rest.length → ∀ s' : TextState, s'.mode = .normal →
      s'.ReadsText after (tokens (plainSpaces .outside after))) :
    s.ReadsText (0x22 :: rest) (tokens (0x22 :: plainSpaces .inside rest)) := by
  have hopen : TextState.InString
      { s with mode := .string, stringValue := [], escaped := false, unicodeRemaining := 0 } [] :=
    ⟨hvalid, rfl, rfl, rfl, rfl⟩
  have hrun := string_run hopen rest
  rw [tokens_string, scanString_plainSpaces]
  rcases hscan : scanString rest with _ | ⟨value, after⟩
  · rw [hscan] at hrun
    change ¬(s.final (0x22 :: rest)).Accepts
    rw [final_cons, hstep]
    exact hrun
  · rw [hscan] at hrun
    have hresumes : s.Resumes (0x22 :: rest) (.string (value.take 512)) after :=
      Resumes.cons hstep rfl hrun
    exact @Resumes.readsText s _ _ (.scalar (.string value)) hresumes _
      (ih after (Json.length_of_scanString hscan))

/-- Between tokens the validator reads the tokens of the text with plain spaces. -/
theorem readsText {s : TextState} (hmode : s.mode = .normal) (text : JsString) :
    s.ReadsText text (tokens (plainSpaces .outside text)) := by
  induction hn : text.length using Nat.strong_induction_on generalizing text s with
  | _ n ih =>
  subst hn
  cases hinvalid : s.invalid with
  | true => exact readsText_of_invalid hinvalid text _
  | false =>
  cases text with
  | nil =>
      rw [plainSpaces, tokens]
      change s.final [] = _
      rw [final_nil_normal hmode]
      rfl
  | cons c rest =>
      have hstep := consumeCharacter_normal hinvalid hmode c
      have hshorter {after : JsString} (h : after.length < (c :: rest).length) (s' : TextState)
          (hmode' : s'.mode = .normal) := ih after.length h hmode' after rfl
      have hdrop (p : UInt16 → Bool) : (rest.dropWhile p).length < (c :: rest).length :=
        Nat.lt_succ_of_le (List.dropWhile_sublist p).length_le
      cases hspace : JsString.isWhitespace c with
      | true =>
          rw [consumeNormalCharacter, hspace, if_pos rfl] at hstep
          have hquote : c ≠ 0x22 := by rintro rfl; cases hspace
          have hskip : tokens (plainSpaces .outside (c :: rest)) =
              tokens (plainSpaces .outside rest) := by
            rw [plainSpaces, Place.next, if_neg hquote]
            cases hjson : isJsonSpace c with
            | true => simp [Place.foreign, hjson, tokens_space]
            | false => simp [Place.foreign, hjson, hspace, tokens_space (c := 0x20) rfl]
          have hrun := hshorter (Nat.lt_succ_self rest.length) s hmode
          rw [hskip]
          have hfinal : s.final (c :: rest) = s.final rest := by rw [final_cons, hstep]
          cases htokens : tokens (plainSpaces .outside rest) with
          | none =>
              rw [htokens] at hrun
              change ¬(s.final (c :: rest)).Accepts
              rwa [hfinal]
          | some ts =>
              rw [htokens] at hrun
              exact hfinal.trans hrun
      | false =>
          rw [consumeNormalCharacter, hspace, if_neg Bool.false_ne_true] at hstep
          have hforeign : Place.foreign .outside c = false := by simp [Place.foreign, hspace]
          rw [plainSpaces, hforeign, if_neg Bool.false_ne_true]
          by_cases hquote : c = 0x22
          · subst hquote
            exact string_reads hinvalid hstep rest fun after h =>
              hshorter (h.trans (Nat.lt_succ_self _))
          · rw [Place.next, if_neg hquote]
            rw [if_neg hquote] at hstep
            have hletters := takeWhile_plainSpaces (p := isLetter)
              (fun c hc => by simp [isScalarPart, hc]) rest
            have hparts := takeWhile_plainSpaces (p := isNumberPart)
              (fun c hc => by simp [isScalarPart, hc]) rest
            by_cases hnumber : c = 0x2D ∨ isDigit c = true
            · rw [if_pos hnumber] at hstep
              rw [tokens_scalar (isScalarPart_of_number hnumber),
                if_neg (by simp [isLetter_of_number hnumber]), if_pos hnumber.symm, hparts.1,
                hparts.2]
              exact number_reads hinvalid hnumber.symm hstep rest (hshorter (hdrop isNumberPart))
            · rw [if_neg hnumber] at hstep
              by_cases ht : c = 0x74
              · subst ht
                rw [tokens_scalar rfl, if_pos (by decide), hletters.1, hletters.2]
                exact literal_reads hinvalid isWord_true hstep rest (hshorter (hdrop isLetter))
              · by_cases hf : c = 0x66
                · subst hf
                  rw [tokens_scalar rfl, if_pos (by decide), hletters.1, hletters.2]
                  exact literal_reads hinvalid isWord_false hstep rest (hshorter (hdrop isLetter))
                · by_cases hn : c = 0x6E
                  · subst hn
                    rw [tokens_scalar rfl, if_pos (by decide), hletters.1, hletters.2]
                    exact literal_reads hinvalid isWord_null hstep rest
                      (hshorter (hdrop isLetter))
                  · rw [if_neg ht, if_neg hf, if_neg hn] at hstep
                    by_cases hpunctuation : isPunctuation c = true
                    · rw [if_pos hpunctuation] at hstep
                      rw [tokens_punctuation hpunctuation]
                      have hresumes : s.Resumes (c :: rest) (.punctuation c) rest :=
                        ⟨s.token (.punctuation c), rfl, rfl, by rw [final_cons, hstep]⟩
                      exact @Resumes.readsText s _ _ (.punctuation c) hresumes _
                        (hshorter (Nat.lt_succ_self rest.length))
                    · rw [if_neg hpunctuation] at hstep
                      have hnone : tokens (c :: plainSpaces .outside rest) = none := by
                        rw [tokens, if_neg (not_isJsonSpace hspace), if_neg hpunctuation,
                          if_neg hquote]
                        split
                        · rw [literal?_eq_none ht hf hn]
                          rfl
                        · rw [if_neg fun h => hnumber h.symm]
                      rw [hnone]
                      change ¬(s.final (c :: rest)).Accepts
                      rw [final_cons, hstep]
                      exact not_accepts_of_doomed (doomed_reject s) rest

end TextState

end StonePlus.Replay
