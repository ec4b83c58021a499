import StonePlus.Js.Object
import StonePlus.Replay.JsonValidator

/-!
# StonePlus.Replay.ValidatorTokens

The validator's token part against the stack machine of `JSON.parse`.

`soFar` closes everything a parser has open: the value read so far.  `Agrees` says that the
validator has the parser's containers on its stack and the fields of `soFar` in its map;
every token keeps it, or both refuse the token (`agrees_step`).
-/

namespace StonePlus.Replay

open Json (Token Parsing plug parseToken property? setProperty property?_setProperty)

/-! ## What a text's tokens are to the validator -/

/-- A token that a text can hold: no array or object. -/
def Lexed : Token → Prop
  | .scalar (.array _) => False
  | .scalar (.object _) => False
  | _ => True

/-- The validator keeps 512 code units of a string. -/
def tokenOf : Token → JsonToken
  | .scalar (.string s) => .string (s.take 512)
  | .scalar (.bool b) => .literal (if b then js "true" else js "false")
  | .scalar .null => .literal (js "null")
  | .scalar _ => .number
  | .punctuation c => .punctuation c

theorem tokenOf_eq_punctuation : tokenOf t = .punctuation c ↔ t = .punctuation c := by
  cases t with
  | punctuation d => simp [tokenOf]
  | scalar v => cases v <;> simp [tokenOf]

/-- What a root field says of its value. -/
def fieldOf : Json → RootJsonField
  | .null => .null
  | .bool _ => .boolean
  | .number _ => .number
  | .string s => .string (s.take 512)
  | .array _ => .array
  | .object _ => .object

theorem field?_tokenOf (h : Lexed (.scalar v)) :
    (tokenOf (.scalar v)).field? = some (fieldOf v) ∧ (tokenOf (.scalar v)).opened = [] := by
  cases v with
  | bool b => cases b <;> exact ⟨rfl, rfl⟩
  | array items => exact h.elim
  | object entries => exact h.elim
  | _ => exact ⟨rfl, rfl⟩

/-! ## The value read so far -/

/-- Close the open containers around a value. -/
def plugAll (v : Json) : List Json.Frame → Json
  | [] => v
  | .array items :: frames => plugAll (.array (items ++ [v])) frames
  | .object entries key :: frames => plugAll (.object (setProperty key v entries)) frames

/-- Close everything that is open. -/
def soFar : Parsing → Json
  | .value _ [] => .null
  | .value _ (.array items :: frames) => plugAll (.array items) frames
  | .value _ (.object entries _ :: frames) => plugAll (.object entries) frames
  | .key _ entries frames => plugAll (.object entries) frames
  | .colon entries _ frames => plugAll (.object entries) frames
  | .afterItem items frames => plugAll (.array items) frames
  | .afterProperty entries frames => plugAll (.object entries) frames
  | .finished v => v

@[simp] theorem soFar_plug (v : Json) (frames : List Json.Frame) :
    soFar (plug v frames) = plugAll v frames := by
  rcases frames with _ | ⟨_ | _, frames⟩ <;> rfl

/-- The root field of a key. -/
def rootField (v : Json) (k : JsString) : Option RootJsonField := (v.get? k).map fieldOf

theorem fieldOf_plugAll (h : fieldOf v = fieldOf w) (frames : List Json.Frame) :
    fieldOf (plugAll v frames) = fieldOf (plugAll w frames) := by
  induction frames generalizing v w with
  | nil => exact h
  | cons frame frames ih =>
      cases frame with
      | array items => exact ih rfl
      | object entries key => exact ih rfl

/-- Below the root object only the kind of a value shows. -/
theorem rootField_plugAll (h : fieldOf v = fieldOf w) (hframes : frames ≠ []) (k : JsString) :
    rootField (plugAll v frames) k = rootField (plugAll w frames) k := by
  induction frames generalizing v w with
  | nil => exact absurd rfl hframes
  | cons frame frames ih =>
      by_cases hnil : frames = []
      · subst hnil
        cases frame with
        | array items => rfl
        | object entries key =>
            simp only [plugAll, rootField, Json.get?, property?_setProperty]
            split
            · simp [h]
            · rfl
      · cases frame with
        | array items => exact ih rfl hnil
        | object entries key => exact ih rfl hnil

/-- A text has begun when its first token is read. -/
def started : Parsing → Prop
  | .value _ [] => False
  | _ => True

theorem started_plug (v : Json) (frames : List Json.Frame) : started (plug v frames) := by
  rcases frames with _ | ⟨_ | _, frames⟩ <;> trivial

theorem fieldOf_soFar_value (closable : Bool) (w : Json) (hframes : frames ≠ []) :
    fieldOf (soFar (.value closable frames)) = fieldOf (plugAll w frames) := by
  cases frames with
  | nil => exact absurd rfl hframes
  | cons frame frames =>
      cases frame with
      | array items =>
          exact fieldOf_plugAll (v := .array items) (w := .array (items ++ [w])) rfl frames
      | object entries key =>
          exact fieldOf_plugAll (v := .object entries)
            (w := .object (setProperty key w entries)) rfl frames

/-- The root's kind is settled by the first token. -/
theorem fieldOf_soFar_step (hp : started p) (h : parseToken p t = some p') :
    started p' ∧ fieldOf (soFar p') = fieldOf (soFar p) := by
  revert h
  fun_cases parseToken p t with
  | case1 closable frames v =>
      intro h
      cases h
      have hframes : frames ≠ [] := by
        rintro rfl
        exact hp
      exact ⟨started_plug v frames, by rw [soFar_plug, ← fieldOf_soFar_value closable v hframes]⟩
  | case2 closable frames =>
      intro h
      cases h
      have hframes : frames ≠ [] := by
        rintro rfl
        exact hp
      exact ⟨trivial, (fieldOf_soFar_value closable (.array []) hframes).symm⟩
  | case3 closable frames hc =>
      intro h
      cases h
      have hframes : frames ≠ [] := by
        rintro rfl
        exact hp
      exact ⟨trivial, (fieldOf_soFar_value closable (.object []) hframes).symm⟩
  | case4 | case8 | case13 | case16 =>
      intro h
      cases h
      exact ⟨started_plug _ _, by rw [soFar_plug]; rfl⟩
  | case7 | case10 | case12 | case15 =>
      intro h
      cases h
      exact ⟨trivial, rfl⟩
  | case5 | case6 | case9 | case11 | case14 | case17 | case18 => nofun

/-! ## The containers -/

/-- An open container around the one that is read. -/
def outer : Json.Frame → JsonContainer
  | .array _ => .array .comma false
  | .object _ key => .object .comma false (some (key.take 512))

/-- The validator's stack for a parser's state. -/
def stackOf : Parsing → List JsonContainer → Prop
  | .value _ [], _ => False
  | .value closable (.array _ :: frames), stack =>
    stack = .array .value closable :: frames.map outer
  | .value closable (.object _ key :: frames), stack =>
    closable = false ∧ stack = .object .value false (some (key.take 512)) :: frames.map outer
  | .key closable _ frames, stack => ∃ key, stack = .object .key closable key :: frames.map outer
  | .colon _ key frames, stack =>
    stack = .object .colon false (some (key.take 512)) :: frames.map outer
  | .afterItem _ frames, stack => stack = .array .comma false :: frames.map outer
  | .afterProperty _ frames, stack =>
    ∃ key, stack = .object .comma false key :: frames.map outer
  | .finished _, stack => stack = []

theorem stackOf_plug (v : Json) (frames : List Json.Frame) :
    stackOf (plug v frames) (frames.map outer) := by
  rcases frames with _ | ⟨_ | _, frames⟩
  · rfl
  · rfl
  · exact ⟨_, rfl⟩

def isFinished : Parsing → Bool
  | .finished _ => true
  | _ => false

theorem isFinished_plug (v : Json) (frames : List Json.Frame) :
    isFinished (plug v frames) = frames.isEmpty := by
  rcases frames with _ | ⟨_ | _, frames⟩ <;> rfl

/-- The fields the validator can be asked for: its map has the root fields with the shorter
keys. -/
def Records (fields : JsMap JsString RootJsonField) (v : Json) : Prop :=
  ∀ k, k ≠ [] → k.length < 512 → fields.get? k = rootField v k

/-- The validator has followed the parser through the tokens of a root object. -/
structure Agrees (p : Parsing) (s : TokenState) : Prop where
  valid : s.invalid = false
  begun : s.rootStarted = true
  stack : stackOf p s.stack
  complete : s.rootComplete = isFinished p
  fields : Records s.rootFields (soFar p)

variable {s : TokenState}

/-- Reading a value at the front of the open containers. -/
theorem records_recordField (h : Records s.rootFields (soFar (.value closable (frame :: frames))))
    (w : Json) (hcontext : context.afterValue = outer frame) :
    Records (s.recordField context (frames.map outer) (fieldOf w)).rootFields
      (plugAll w (frame :: frames)) := by
  intro k hne hlt
  have hold := h k hne hlt
  cases frame with
  | array items =>
      have hsame : s.recordField context (frames.map outer) (fieldOf w) = s := by
        cases context with
        | object state allowEnd key => cases hcontext
        | array state allowEnd => rfl
      rw [hsame, hold]
      cases frames with
      | nil => rfl
      | cons f frames =>
          exact rootField_plugAll (v := .array items) (w := .array (items ++ [w])) rfl
            (List.cons_ne_nil f frames) k
  | object entries key =>
      cases context with
      | array state allowEnd => cases hcontext
      | object state allowEnd key' =>
          obtain rfl : key' = some (key.take 512) := by injection hcontext
          cases frames with
          | cons f frames =>
              exact hold.trans (rootField_plugAll (v := .object entries)
                (w := .object (setProperty key w entries)) rfl (List.cons_ne_nil f frames) k)
          | nil =>
              have hkey : k = key.take 512 ↔ key = k := by
                constructor
                · rintro rfl
                  rw [List.length_take] at hlt
                  exact (List.take_of_length_le (by omega)).symm
                · rintro rfl
                  exact (List.take_of_length_le (by omega)).symm
              simp only [soFar, plugAll, rootField, Json.get?, property?_setProperty] at hold ⊢
              simp only [TokenState.recordField, List.map_nil]
              split
              · rw [JsMap.get?_set]
                simp only [hkey]
                split
                · rfl
                · exact hold
              · rename_i hempty
                have hother : key ≠ k := fun heq => hne (by
                  rw [← hkey.mpr heq] at hempty
                  simpa using hempty)
                rw [if_neg hother, hold]

/-- A token that begins a value. -/
theorem agrees_value (h : Agrees (.value closable (frame :: frames)) s)
    (hcontext : context.afterValue = outer frame) (hfield : token.field? = some (fieldOf w))
    (hsoFar : soFar p = plugAll w (frame :: frames)) (hfinished : isFinished p = false)
    (hstack : stackOf p (token.opened ++ (frame :: frames).map outer)) :
    Agrees p (s.consumeValue context (frames.map outer) token) := by
  have hfields := records_recordField h.fields w hcontext
  have hkeeps : ∀ field, (s.recordField context (frames.map outer) field).invalid = s.invalid ∧
      (s.recordField context (frames.map outer) field).rootStarted = s.rootStarted ∧
      (s.recordField context (frames.map outer) field).rootComplete = s.rootComplete := by
    intro field
    unfold TokenState.recordField
    split
    · split <;> exact ⟨rfl, rfl, rfl⟩
    · exact ⟨rfl, rfl, rfl⟩
  obtain ⟨hinvalid, hstarted, hcomplete⟩ := hkeeps (fieldOf w)
  rw [TokenState.consumeValue, hfield]
  exact {
    valid := hinvalid.trans h.valid
    begun := hstarted.trans h.begun
    stack := by rw [hcontext]; exact hstack
    complete := by rw [hfinished]; exact hcomplete.trans h.complete
    fields := by rw [hsoFar]; exact hfields }

/-- A token that closes the innermost container. -/
theorem agrees_close (h : Agrees p s) (hsoFar : soFar p = plugAll v frames)
    (hfinished : isFinished p = false) (hstack : s.stack.tail = frames.map outer) :
    Agrees (plug v frames) s.closeContainer where
  valid := h.valid
  begun := h.begun
  stack := by
    rw [TokenState.closeContainer, hstack]
    exact stackOf_plug v frames
  complete := by
    simp [TokenState.closeContainer, hstack, isFinished_plug, h.complete, hfinished]
  fields := by
    rw [soFar_plug, ← hsoFar]
    exact h.fields

theorem consumeToken_object (hvalid : s.invalid = false)
    (hstack : s.stack = .object state allowEnd key :: rest) (token : JsonToken) :
    s.consumeToken token = s.consumeObjectToken state allowEnd key rest token := by
  simp [TokenState.consumeToken, hvalid, hstack]

theorem consumeToken_array (hvalid : s.invalid = false)
    (hstack : s.stack = .array state allowEnd :: rest) (token : JsonToken) :
    s.consumeToken token = s.consumeArrayToken state allowEnd rest token := by
  simp [TokenState.consumeToken, hvalid, hstack]

/-- What a token does to the two. -/
def StepsTo (p? : Option Parsing) (s : TokenState) : Prop :=
  match p? with
  | some p => Agrees p s
  | none => s.invalid = true

/-- A token where a value is expected and nothing can be closed. -/
theorem agrees_consumeValue (h : Agrees (.value closable (frame :: frames)) s)
    (hcontext : context.afterValue = outer frame) (ht : Lexed t)
    (hclose : t = .punctuation 0x5D → closable = false) :
    StepsTo (parseToken (.value closable (frame :: frames)) t)
      (s.consumeValue context (frames.map outer) (tokenOf t)) := by
  cases t with
  | scalar v =>
      obtain ⟨hfield, hopened⟩ := field?_tokenOf ht
      refine agrees_value h hcontext hfield (soFar_plug v _) ?_ ?_
      · rw [isFinished_plug]
        rfl
      · rw [hopened]
        exact stackOf_plug v (frame :: frames)
  | punctuation c =>
      by_cases harray : c = 0x5B
      · subst harray
        exact agrees_value h hcontext (w := .array []) rfl rfl rfl rfl
      · by_cases hobject : c = 0x7B
        · subst hobject
          exact agrees_value h hcontext (w := .object []) rfl rfl rfl ⟨none, rfl⟩
        · have hnone : parseToken (.value closable (frame :: frames)) (.punctuation c) = none := by
            simp only [parseToken, if_neg harray, if_neg hobject]
            rw [if_neg]
            rintro ⟨rfl, hcl⟩
            rw [hclose rfl] at hcl
            cases hcl
          rw [hnone]
          simp [StepsTo, tokenOf, TokenState.consumeValue, JsonToken.field?, harray, hobject,
            TokenState.reject]

/-- A token keeps the two together, or both refuse it. -/
theorem agrees_step {p : Parsing} (h : Agrees p s) (ht : Lexed t) :
    StepsTo (parseToken p t) (s.consumeToken (tokenOf t)) := by
  have hvalid := h.valid
  have hstack := h.stack
  cases p with
  | value closable frames =>
      cases frames with
      | nil => exact hstack.elim
      | cons frame frames =>
          cases frame with
          | array items =>
              rw [consumeToken_array hvalid hstack, TokenState.consumeArrayToken]
              by_cases hend : tokenOf t = .punctuation 0x5D ∧ closable = true
              · rw [if_pos hend]
                obtain rfl := tokenOf_eq_punctuation.mp hend.1
                obtain rfl := hend.2
                exact agrees_close h rfl rfl (by rw [hstack]; rfl)
              · rw [if_neg hend]
                refine agrees_consumeValue h rfl ht fun hclose => ?_
                simpa [tokenOf_eq_punctuation, hclose] using hend
          | object entries key =>
              obtain ⟨hopen, hstack⟩ := hstack
              rw [consumeToken_object hvalid hstack, TokenState.consumeObjectToken]
              exact agrees_consumeValue h rfl ht fun _ => hopen
  | key closable entries frames =>
      obtain ⟨key, hstack⟩ := hstack
      rw [consumeToken_object hvalid hstack]
      unfold TokenState.consumeObjectToken
      dsimp only
      by_cases hend : tokenOf t = .punctuation 0x7D ∧ closable = true
      · rw [if_pos hend]
        obtain rfl := tokenOf_eq_punctuation.mp hend.1
        obtain rfl := hend.2
        exact agrees_close h rfl rfl (by rw [hstack]; rfl)
      · rw [if_neg hend]
        cases t with
        | scalar v =>
            cases v with
            | string key => exact ⟨hvalid, h.begun, rfl, h.complete, h.fields⟩
            | _ => rfl
        | punctuation c =>
            have hnone : parseToken (.key closable entries frames) (.punctuation c) = none :=
              if_neg fun hc => hend ⟨by rw [hc.1]; rfl, hc.2⟩
            rw [hnone]
            rfl
  | colon entries key frames =>
      rw [consumeToken_object hvalid hstack, TokenState.consumeObjectToken]
      by_cases hcolon : tokenOf t = .punctuation 0x3A
      · simp only [if_pos hcolon]
        obtain rfl := tokenOf_eq_punctuation.mp hcolon
        exact ⟨hvalid, h.begun, ⟨rfl, rfl⟩, h.complete, h.fields⟩
      · simp only [if_neg hcolon]
        cases t with
        | scalar v => rfl
        | punctuation c =>
            have hnone : parseToken (.colon entries key frames) (.punctuation c) = none :=
              if_neg fun hc => hcolon (by rw [hc]; rfl)
            rw [hnone]
            rfl
  | afterItem items frames =>
      rw [consumeToken_array hvalid hstack, TokenState.consumeArrayToken]
      by_cases hcomma : tokenOf t = .punctuation 0x2C
      · simp only [if_pos hcomma]
        obtain rfl := tokenOf_eq_punctuation.mp hcomma
        exact ⟨hvalid, h.begun, rfl, h.complete, h.fields⟩
      · by_cases hend : tokenOf t = .punctuation 0x5D
        · simp only [if_neg hcomma, if_pos hend]
          obtain rfl := tokenOf_eq_punctuation.mp hend
          exact agrees_close h rfl rfl (by rw [hstack]; rfl)
        · simp only [if_neg hcomma, if_neg hend]
          cases t with
          | scalar v => rfl
          | punctuation c =>
              have hnone : parseToken (.afterItem items frames) (.punctuation c) = none := by
                simp only [tokenOf, JsonToken.punctuation.injEq] at hcomma hend
                simp only [parseToken, if_neg hcomma, if_neg hend]
              rw [hnone]
              rfl
  | afterProperty entries frames =>
      obtain ⟨key, hstack⟩ := hstack
      rw [consumeToken_object hvalid hstack, TokenState.consumeObjectToken]
      by_cases hcomma : tokenOf t = .punctuation 0x2C
      · simp only [if_pos hcomma]
        obtain rfl := tokenOf_eq_punctuation.mp hcomma
        exact ⟨hvalid, h.begun, ⟨key, rfl⟩, h.complete, h.fields⟩
      · by_cases hend : tokenOf t = .punctuation 0x7D
        · simp only [if_neg hcomma, if_pos hend]
          obtain rfl := tokenOf_eq_punctuation.mp hend
          exact agrees_close h rfl rfl (by rw [hstack]; rfl)
        · simp only [if_neg hcomma, if_neg hend]
          cases t with
          | scalar v => rfl
          | punctuation c =>
              have hnone : parseToken (.afterProperty entries frames) (.punctuation c) = none := by
                simp only [tokenOf, JsonToken.punctuation.injEq] at hcomma hend
                simp only [parseToken, if_neg hcomma, if_neg hend]
              rw [hnone]
              rfl
  | finished v =>
      have hnone : parseToken (.finished v) t = none := by cases t <;> rfl
      rw [hnone]
      change (s.consumeToken (tokenOf t)).invalid = true
      simp [TokenState.consumeToken, hvalid, show s.stack = [] from hstack, h.begun,
        TokenState.reject]

/-! ## All tokens -/

/-- The tokens of a text, one after another. -/
def consumeTokens (s : TokenState) (ts : List Token) : TokenState :=
  ts.foldl (fun s t => s.consumeToken (tokenOf t)) s

theorem consumeToken_of_invalid (h : s.invalid = true) (token : JsonToken) :
    s.consumeToken token = s := if_pos h

theorem consumeTokens_of_invalid (h : s.invalid = true) (ts : List Token) :
    consumeTokens s ts = s := by
  induction ts with
  | nil => rfl
  | cons t ts ih =>
      rw [consumeTokens, List.foldl_cons, consumeToken_of_invalid h]
      exact ih

theorem agrees_run (h : Agrees p s) (hts : ∀ t ∈ ts, Lexed t) :
    StepsTo (ts.foldlM parseToken p) (consumeTokens s ts) := by
  induction ts generalizing p s with
  | nil => exact h
  | cons t ts ih =>
      have hstep := agrees_step h (hts t List.mem_cons_self)
      rw [List.foldlM_cons]
      cases hparse : parseToken p t with
      | none =>
          rw [hparse] at hstep
          have hsame := consumeTokens_of_invalid hstep ts
          rw [consumeTokens, List.foldl_cons]
          exact (congrArg TokenState.invalid hsame).trans hstep
      | some p' =>
          rw [hparse] at hstep
          exact ih hstep fun t ht => hts t (List.mem_cons_of_mem _ ht)

theorem fieldOf_soFar_run (hp : started p) {ts : List Token}
    (h : ts.foldlM parseToken p = some p') : fieldOf (soFar p') = fieldOf (soFar p) := by
  induction ts generalizing p with
  | nil => cases h; rfl
  | cons t ts ih =>
      rw [List.foldlM_cons] at h
      obtain ⟨q, hq, hrest⟩ := Option.bind_eq_some_iff.mp h
      obtain ⟨hstarted, hfield⟩ := fieldOf_soFar_step hp hq
      exact (ih hstarted hrest).trans hfield

/-- The value of a parser that has read everything. -/
def valueOf : Option Parsing → Option Json
  | some (.finished v) => some v
  | _ => none

theorem valueOf_eq_some (h : valueOf p? = some v) : p? = some (.finished v) := by
  unfold valueOf at h
  split at h
  · cases h
    rfl
  · cases h

/-- The token part when the text is over and was a JSON object. -/
structure TokenState.Accepts (s : TokenState) : Prop where
  valid : s.invalid = false
  complete : s.rootComplete = true
  closed : s.stack = []

/-- The validator's answer is the parser's, for a text with an object at its root. -/
def Verdict (v? : Option Json) (s : TokenState) : Prop :=
  match v? with
  | some (.object entries) => s.Accepts ∧ Records s.rootFields (.object entries)
  | _ => ¬s.Accepts

theorem not_accepts_of_invalid (h : s.invalid = true) : ¬s.Accepts := fun hs => by
  rw [hs.valid] at h
  cases h

theorem verdict_of_not_object (h : ∀ v, v? = some v → fieldOf v ≠ .object) (hs : ¬s.Accepts) :
    Verdict v? s := by
  unfold Verdict
  split
  · exact absurd rfl (h _ rfl)
  · exact hs

/-- A run from the opening brace of the root. -/
theorem verdict_of_agrees (h : Agrees p s) (hroot : started p ∧ fieldOf (soFar p) = .object)
    {ts : List Token} (hts : ∀ t ∈ ts, Lexed t) :
    Verdict (valueOf (ts.foldlM parseToken p)) (consumeTokens s ts) := by
  have hrun := agrees_run h hts
  cases hparse : ts.foldlM parseToken p with
  | none =>
      rw [hparse] at hrun
      exact not_accepts_of_invalid hrun
  | some p' =>
      rw [hparse] at hrun
      have hfield := (fieldOf_soFar_run hroot.1 hparse).trans hroot.2
      cases p' with
      | finished v =>
          cases v with
          | object entries => exact ⟨⟨hrun.valid, hrun.complete, hrun.stack⟩, hrun.fields⟩
          | _ => cases hfield
      | _ =>
          intro haccepts
          have hcomplete := hrun.complete
          rw [haccepts.complete] at hcomplete
          cases hcomplete

/-- A text that does not begin with an opening brace has no object at its root. -/
theorem first_not_object (ht : Lexed t) (hbrace : t ≠ .punctuation 0x7B)
    (h : parseToken (.value false []) t = some p) : started p ∧ fieldOf (soFar p) ≠ .object := by
  cases t with
  | scalar v =>
      cases h
      refine ⟨trivial, ?_⟩
      cases v with
      | object entries => exact ht.elim
      | _ => nofun
  | punctuation c =>
      have hother : c ≠ 0x7B := fun hc => hbrace (by rw [hc])
      by_cases harray : c = 0x5B
      · subst harray
        cases h
        exact ⟨trivial, nofun⟩
      · simp [parseToken, harray, hother] at h

theorem tokens_verdict {ts : List Token} (hts : ∀ t ∈ ts, Lexed t) :
    Verdict (valueOf (ts.foldlM parseToken (.value false []))) (consumeTokens {} ts) := by
  cases ts with
  | nil =>
      intro haccepts
      cases haccepts.complete
  | cons t ts =>
      have hrest : ∀ t ∈ ts, Lexed t := fun t ht => hts t (List.mem_cons_of_mem _ ht)
      by_cases hbrace : t = .punctuation 0x7B
      · subst hbrace
        have hagrees : Agrees (.key true [] []) (TokenState.consumeToken {} (.punctuation 0x7B)) :=
          ⟨rfl, rfl, ⟨none, rfl⟩, rfl, fun _ _ _ => rfl⟩
        exact verdict_of_agrees hagrees ⟨trivial, rfl⟩ hrest
      · have hinvalid : (TokenState.consumeToken {} (tokenOf t)).invalid = true := by
          have hother : tokenOf t ≠ .punctuation 0x7B := fun h =>
            hbrace (tokenOf_eq_punctuation.mp h)
          simp [TokenState.consumeToken, hother, TokenState.reject]
        refine verdict_of_not_object (fun v hv => ?_) (not_accepts_of_invalid ?_)
        · -- another root is never an object
          rw [List.foldlM_cons] at hv
          obtain ⟨p, hparse, hrun⟩ := Option.bind_eq_some_iff.mp (valueOf_eq_some hv)
          obtain ⟨hstarted, hfield⟩ := first_not_object (hts t List.mem_cons_self) hbrace hparse
          rwa [show v = soFar (.finished v) from rfl, fieldOf_soFar_run hstarted hrun]
        · rw [consumeTokens, List.foldl_cons]
          exact (congrArg TokenState.invalid (consumeTokens_of_invalid hinvalid ts)).trans hinvalid

end StonePlus.Replay
