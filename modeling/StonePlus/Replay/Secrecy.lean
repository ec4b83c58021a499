import Mathlib.Algebra.Order.BigOperators.Group.List
import StonePlus.Lib.Run
import StonePlus.Replay.Store

/-!
# StonePlus.Replay.Secrecy

What the templates of a replay store tell about the secrets in the captured
bodies.

A run is any list of calls on a new store; which body was captured last under
an id is recorded beside it.  `Shown` collects the templates a run can show
for a body, and `templates_agree_iff` says for which bodies they are the same
whatever the values under sensitive keys are.
-/

namespace StonePlus.Replay

open Lib

/-- A call that changes the store.  `replay` and `routeId` only prune it. -/
inductive Op
  | capture (input : RequestReplayCapture) (now : Int)
  | get (id : JsString) (includeContent : Bool) (now : Int)
  | routeId (id : JsString) (now : Int)
  | delete (id : JsString)
  | clear

/-- The options of the constructor. -/
structure Options where
  ttlMs : Option Int
  maxEntries : Option Nat
  maxPayloadBytes : Option Nat

/-- A store and the body last captured under each id. -/
structure Session where
  store : RequestReplayStore
  captured : JsMap JsString Json

namespace Session

def init (options : Options) : Session where
  store := .init options.ttlMs options.maxEntries options.maxPayloadBytes
  captured := ∅

def step (y : Session) : Op → Session
  | .capture input now =>
    let (accepted, store) := y.store.capture input now
    { store := store
      captured := if accepted then y.captured.set input.id input.body else y.captured }
  | .get id includeContent now => { y with store := (y.store.get id includeContent now).2 }
  | .routeId id now => { y with store := (y.store.routeId id now).2 }
  | .delete id => { y with store := y.store.delete id }
  | .clear => { y with store := y.store.clear }

end Session

/-- The largest JSON text a store with these options captures. -/
def payloadLimit (options : Options) : Nat := max 1024 (options.maxPayloadBytes.getD (1024 * 1024))

/-- A run after which the body last captured under an id is `body` and `get`
returns `template`. -/
def Shown (options : Options) (includeContent : Bool) (body template : Json) : Prop :=
  ∃ ops id now r, (run Session.step (.init options) ops).captured.get? id = some body ∧
    ((run Session.step (.init options) ops).store.get id includeContent now).1 = some r ∧
    r.body = template

/-- The two bodies differ only in the values under sensitive keys. -/
def SameOutsideSecrets (body body' : Json) : Prop := fillSecrets .null body = fillSecrets .null body'

instance (body body' : Json) : Decidable (SameOutsideSecrets body body') :=
  inferInstanceAs (Decidable (fillSecrets .null body = fillSecrets .null body'))

/-! ## Runs -/

/-- Every entry holds the body recorded for its id, which fits the limit. -/
structure Session.Inv (options : Options) (y : Session) : Prop where
  limit : y.store.maxPayloadBytes = payloadLimit options
  recorded : ∀ id entry, y.store.entries.get? id = some entry →
    ∃ body, y.captured.get? id = some body ∧ entry.body = clone body ∧
      textBytes body ≤ payloadLimit options

namespace Session

theorem inv_init (options : Options) : Inv options (.init options) where
  limit := rfl
  recorded := fun id entry h => by cases h

/-- Forgetting entries keeps the invariant. -/
theorem Inv.forget {store : RequestReplayStore} (hy : Inv options y)
    (hlimit : store.maxPayloadBytes = y.store.maxPayloadBytes)
    (h : ∀ id entry, store.entries.get? id = some entry → y.store.entries.get? id = some entry) :
    Inv options { y with store := store } where
  limit := hlimit.trans hy.limit
  recorded := fun id entry hentry => hy.recorded id entry (h id entry hentry)

theorem textBytes_le_of_accepts {s : RequestReplayStore} (h : s.accepts input = true) :
    textBytes input.body ≤ s.maxPayloadBytes := by
  unfold RequestReplayStore.accepts at h
  split_ifs at h
  exact of_decide_eq_true h

theorem maxPayloadBytes_capture (s : RequestReplayStore) (input : RequestReplayCapture) (now : Int) :
    (s.capture input now).2.maxPayloadBytes = s.maxPayloadBytes := by
  unfold RequestReplayStore.capture
  dsimp only
  split <;> rfl

theorem accepts_of_capture {s : RequestReplayStore} (h : (s.capture input now).1 = true) :
    (s.prune now).accepts input = true := by
  unfold RequestReplayStore.capture at h
  dsimp only at h
  split at h
  · assumption
  · cases h

theorem Inv.step (hy : Inv options y) (op : Op) : Inv options (y.step op) := by
  cases op with
  | capture input now =>
      refine ⟨(maxPayloadBytes_capture _ _ _).trans hy.limit, fun id entry hentry => ?_⟩
      simp only [Session.step] at hentry ⊢
      rcases RequestReplayStore.get?_capture hentry with ⟨rfl, haccepted, hbody⟩ | ⟨hother, hentry⟩
      · have hfits := textBytes_le_of_accepts (accepts_of_capture haccepted)
        exact ⟨input.body, by rw [if_pos haccepted, JsMap.get?_set_self], hbody,
          hfits.trans (Nat.le_of_eq hy.limit)⟩
      · obtain ⟨body, hcaptured, hbody⟩ := hy.recorded id entry hentry
        refine ⟨body, ?_, hbody⟩
        split
        · next haccepted =>
            rw [JsMap.get?_set_of_ne _ _ fun hid => hother ⟨hid, haccepted⟩, hcaptured]
        · exact hcaptured
  | get id includeContent now => exact hy.forget rfl fun _ _ => RequestReplayStore.get?_prune
  | routeId id now => exact hy.forget rfl fun _ _ => RequestReplayStore.get?_prune
  | delete id =>
      refine hy.forget rfl fun id' entry h => ?_
      rw [RequestReplayStore.delete, JsMap.get?_delete] at h
      split at h
      · cases h
      · exact h
  | clear => exact hy.forget rfl fun _ _ h => by cases h

theorem inv_run (options : Options) (ops : List Op) :
    Inv options (run Session.step (.init options) ops) :=
  invariant_run (Inv options) (fun _ op hy => hy.step op) (inv_init options) ops

end Session

/-! ## What is shown for a body -/

/-- A template is the redaction of the body read back from its text. -/
theorem Shown.template_eq (h : Shown options includeContent body template) :
    template = redactValue includeContent [] (clone body) ∧
      textBytes body ≤ payloadLimit options := by
  obtain ⟨ops, id, now, r, hcaptured, hget, rfl⟩ := h
  obtain ⟨entry, hentry, rfl⟩ := Option.map_eq_some_iff.mp hget
  obtain ⟨body', hcaptured', hbody, hfits⟩ :=
    (Session.inv_run options ops).recorded id entry (RequestReplayStore.get?_prune hentry)
  obtain rfl : body' = body := Option.some.inj (hcaptured'.symm.trans hcaptured)
  exact ⟨congrArg _ hbody, hfits⟩

/-- A capture of a body under some id, on a fresh store at time zero. -/
def sampleCapture (body : Json) : RequestReplayCapture where
  id := js "a"
  path := js "/"
  routeId := []
  body := body
  sourceByteLength := none
  headers := none
  createdAt := none

/-- The entry of the sample capture. -/
def sampleEntry (options : Options) (body : Json) : StoredReplay where
  id := js "a"
  path := js "/"
  routeId := []
  body := clone body
  headers := ∅
  createdAt := 0
  expiresAt := 0 + max 10000 (options.ttlMs.getD (30 * 60000))

/-- The sample capture succeeds when the body fits. -/
theorem capture_sample (options : Options) (h : textBytes body ≤ payloadLimit options) :
    ((Session.init options).store.capture (sampleCapture body) 0).1 = true ∧
      ((Session.init options).store.capture (sampleCapture body) 0).2.entries =
        JsMap.set ∅ (js "a") (sampleEntry options body) := by
  have haccepts : ((Session.init options).store.prune 0).accepts (sampleCapture body) = true := by
    have hfits : jsonFitsByteBudget body
        ((Session.init options).store.prune 0).maxPayloadBytes = true :=
      (jsonFitsByteBudget_iff body _).mpr h
    have hid : (js "a").trim ≠ [] := by decide
    have hpath : (js "/").isPrefixOf (js "/") = true := by decide
    unfold RequestReplayStore.accepts
    rw [if_neg (by simp [sampleCapture, hid, hpath]), if_neg (by simp [sampleCapture]),
      if_neg (by simpa [sampleCapture] using hfits)]
    exact decide_eq_true h
  unfold RequestReplayStore.capture
  dsimp only
  rw [if_pos haccepts]
  refine ⟨rfl, RequestReplayStore.evict_of_le ?_⟩
  exact Nat.le_max_left 1 _

/-- Every body that fits is shown by the run that captures it. -/
theorem shown_of_fits (options : Options) (includeContent : Bool)
    (h : textBytes body ≤ payloadLimit options) :
    Shown options includeContent body (redactValue includeContent [] (clone body)) := by
  obtain ⟨haccepted, hentries⟩ := capture_sample options h
  have hlive : ¬ (sampleEntry options body).expiresAt ≤ 0 := by
    simp only [sampleEntry]
    omega
  have hentry : ((run Session.step (.init options) [.capture (sampleCapture body) 0]).store.prune
      0).entries.get? (js "a") = some (sampleEntry options body) := by
    rw [RequestReplayStore.prune, JsMap.get?_filterKeys]
    simp only [run_cons, run_nil, Session.step, hentries, JsMap.get?_set_self, Option.any_some,
      decide_eq_false hlive, Bool.not_false, if_true]
  obtain ⟨r, hget, hbody⟩ := RequestReplayStore.get_of_entry includeContent hentry
  refine ⟨[.capture (sampleCapture body) 0], js "a", 0, r, ?_, hget, hbody⟩
  simp only [run_cons, run_nil, Session.step, if_pos haccepted]
  exact JsMap.get?_set_self _ _ _

/-! ## Secrets -/

theorem cloneItems_eq (items : List Json) : cloneItems items = items.map clone := by
  induction items with
  | nil => rfl
  | cons v vs ih => rw [cloneItems, ih, List.map_cons]

theorem cloneEntries_eq (entries : List (JsString × Json)) :
    cloneEntries entries = entries.map fun e => (e.1, clone e.2) := by
  induction entries with
  | nil => rfl
  | cons e es ih => rw [cloneEntries, ih, List.map_cons]

theorem clone_fillSecrets (x v : Json) :
    clone (fillSecrets x v) = fillSecrets (clone x) (clone v) := by
  induction v using Json.induction with
  | null | bool | string => rfl
  | number n =>
      rw [fillSecrets.eq_def, clone]
      split <;> rfl
  | array items ih =>
      simp only [fillSecrets, clone, fillItems_eq, cloneItems_eq, List.map_map, Json.array.injEq,
        List.map_inj_left]
      exact ih
  | object entries ih =>
      simp only [fillSecrets, clone, fillEntries_eq, cloneEntries_eq, List.map_map,
        Json.object.injEq, List.map_inj_left]
      intro e he
      by_cases hkey : isSensitiveKey e.1
      · simp [hkey]
      · simp [hkey, ih e he]

/-- Reading a body back from its text changes no key. -/
theorem hasSensitiveKey_clone (v : Json) : hasSensitiveKey (clone v) = hasSensitiveKey v := by
  rw [Bool.eq_iff_iff]
  induction v using Json.induction with
  | null | bool | string => rfl
  | number n => unfold clone; split <;> rfl
  | array items ih =>
      simp only [clone, cloneItems_eq, hasSensitiveKey, itemsHaveSensitiveKey_iff, List.mem_map,
        exists_exists_and_eq_and]
      exact exists_congr fun v => and_congr_right fun hv => ih v hv
  | object entries ih =>
      simp only [clone, cloneEntries_eq, hasSensitiveKey, entriesHaveSensitiveKey_iff, List.mem_map,
        exists_exists_and_eq_and]
      exact exists_congr fun e => and_congr_right fun he => or_congr_right (ih e he)

theorem exposesSecret_clone (includeContent : Bool) (key : JsString) (v : Json) :
    exposesSecret includeContent key (clone v) = exposesSecret includeContent key v := by
  rw [Bool.eq_iff_iff]
  induction v using Json.induction generalizing key with
  | null | bool | string => rfl
  | number n =>
      unfold clone
      split
      · unfold exposesSecret; rfl
      · unfold exposesSecret; rfl
  | array items ih =>
      unfold exposesSecret
      split_ifs with hkey hcontent
      · rfl
      · rw [hasSensitiveKey_clone]
      · simp only [clone, cloneItems_eq, itemsExposeSecret_iff, List.mem_map,
          exists_exists_and_eq_and]
        exact exists_congr fun v => and_congr_right fun hv => ih v hv key
  | object entries ih =>
      unfold exposesSecret
      split_ifs with hkey hcontent
      · rfl
      · rw [hasSensitiveKey_clone]
      · simp only [clone, cloneEntries_eq, entriesExposeSecret_iff, List.mem_map,
          exists_exists_and_eq_and]
        exact exists_congr fun e => and_congr_right fun he => ih e he e.1

/-- The smallest text fills in for any secret. -/
theorem textBytes_fillSecrets_le (hx : textBytes x = 1) (v : Json) :
    textBytes (fillSecrets x v) ≤ textBytes v := by
  induction v using Json.induction with
  | null | bool | number | string => exact Nat.le_refl _
  | array items ih =>
      rw [fillSecrets, fillItems_eq, textBytes_array, textBytes_array, List.length_map, List.map_map]
      have := List.sum_le_sum ih
      simp only [Function.comp_def]
      omega
  | object entries ih =>
      rw [fillSecrets, fillEntries_eq, textBytes_object, textBytes_object, List.length_map,
        List.map_map]
      have hproperty : ∀ e ∈ entries,
          propertyBytes (e.1, if isSensitiveKey e.1 then x else fillSecrets x e.2) ≤
            propertyBytes e := by
        intro e he
        have := ih e he
        have := textBytes_pos e.2
        simp only [propertyBytes]
        split <;> omega
      have := List.sum_le_sum hproperty
      simp only [Function.comp_def]
      omega

theorem redactValue_clone_congr (h : SameOutsideSecrets body body')
    (hbody : exposesSecret includeContent [] body = false) :
    redactValue includeContent [] (clone body) = redactValue includeContent [] (clone body') := by
  have hfill : fillSecrets .null (clone body) = fillSecrets .null (clone body') := by
    have := congrArg clone h
    rwa [clone_fillSecrets, clone_fillSecrets] at this
  have hbody' : exposesSecret includeContent [] body' = false := by
    rw [← exposesSecret_fillSecrets .null, ← h, exposesSecret_fillSecrets, hbody]
  have hclone := redactValue_fillSecrets .null ((exposesSecret_clone _ [] body).trans hbody)
  have hclone' := redactValue_fillSecrets .null ((exposesSecret_clone _ [] body').trans hbody')
  rw [← hclone, ← hclone', hfill]

/-- Filling the secrets of an exposed body with zero or with one shows. -/
theorem redactValue_clone_fillSecrets_ne (h : exposesSecret includeContent [] body = true) :
    redactValue includeContent [] (clone (fillSecrets (.number (.ofInt 0)) body)) ≠
      redactValue includeContent [] (clone (fillSecrets (.number (.ofInt 1)) body)) := by
  have hzero : clone (.number (.ofInt 0)) = .number (.ofInt 0) := by decide +kernel
  have hone : clone (.number (.ofInt 1)) = .number (.ofInt 1) := by decide +kernel
  have hne : redactContentShape (.number (.ofInt 0)) ≠ redactContentShape (.number (.ofInt 1)) := by
    decide +kernel
  rw [clone_fillSecrets, clone_fillSecrets, hzero, hone]
  exact redactValue_fillSecrets_ne hne ((exposesSecret_clone _ [] body).trans h)

/-- The templates of a captured body are the same for every choice of the
values under sensitive keys, in both captures and in every run, exactly when
the content is included or holds no sensitive key. -/
theorem templates_agree_iff (options : Options) (includeContent : Bool) (body : Json)
    (hshown : ∃ template, Shown options includeContent body template) :
    (∀ body' template template', SameOutsideSecrets body body' →
      Shown options includeContent body template →
      Shown options includeContent body' template' → template = template') ↔
    (includeContent = true ∨ exposesSecret false [] body = false) := by
  obtain ⟨template, hshown⟩ := hshown
  constructor
  · intro h
    by_contra hneither
    obtain ⟨hcontent, hexposed⟩ := not_or.mp hneither
    rw [Bool.not_eq_true] at hcontent
    rw [Bool.not_eq_false] at hexposed
    clear hneither
    subst hcontent
    have hfits := hshown.template_eq.2
    have hfilled (n : Int) (hn : textBytes (.number (.ofInt n)) = 1) :
        template = redactValue false [] (clone (fillSecrets (.number (.ofInt n)) body)) :=
      h _ template _ (fillSecrets_fillSecrets .null _ body).symm hshown
        (shown_of_fits options false ((textBytes_fillSecrets_le hn body).trans hfits))
    exact redactValue_clone_fillSecrets_ne hexposed
      ((hfilled 0 (by decide +kernel)).symm.trans (hfilled 1 (by decide +kernel)))
  · rintro h body' template template' hsame hbody hbody'
    have hexposed : exposesSecret includeContent [] body = false := by
      rcases h with rfl | h
      · exact exposesSecret_includeContent [] body
      · cases includeContent with
        | true => exact exposesSecret_includeContent [] body
        | false => exact h
    rw [hbody.template_eq.1, hbody'.template_eq.1]
    exact redactValue_clone_congr hsame hexposed

/-- A body with a password inside its content. -/
def passwordBody (password : Json) : Json :=
  .object [(js "input", .object [(js "password", password)])]

/-- The templates of two bodies tell which password was captured. -/
theorem template_shows_password :
    SameOutsideSecrets (passwordBody (.number (.ofInt 1))) (passwordBody (.number (.ofInt 2))) ∧
    ∃ template template', Shown ⟨none, none, none⟩ false (passwordBody (.number (.ofInt 1))) template ∧
      Shown ⟨none, none, none⟩ false (passwordBody (.number (.ofInt 2))) template' ∧
      template ≠ template' :=
  ⟨by decide +kernel, _, _, shown_of_fits _ _ (by decide +kernel),
    shown_of_fits _ _ (by decide +kernel), by decide +kernel⟩

/-- A password outside the content is hidden: two passwords, one template. -/
theorem templates_agree_outside_content :
    ∃ template template',
      Shown ⟨none, none, none⟩ false (.object [(js "password", .string (js "x"))]) template ∧
      Shown ⟨none, none, none⟩ false (.object [(js "password", .string (js "y"))]) template' ∧
      template = template' :=
  ⟨_, _, shown_of_fits _ _ (by decide +kernel), shown_of_fits _ _ (by decide +kernel),
    (templates_agree_iff ⟨none, none, none⟩ false (.object [(js "password", .string (js "x"))])
      ⟨_, shown_of_fits _ _ (by decide +kernel)⟩).mpr (.inr (by decide)) _ _ _ (by decide +kernel)
      (shown_of_fits _ _ (by decide +kernel)) (shown_of_fits _ _ (by decide +kernel))⟩

end StonePlus.Replay
