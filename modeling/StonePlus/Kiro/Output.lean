import StonePlus.Kiro.Handlers

/-!
# StonePlus.Kiro.Output

What the upstream has said about its tools, without the parser.

A `toolUseEvent` frame is a `ToolUse`; a `Ledger` folds them: the ids in
order of first appearance, and for each id the name it was given and the
concatenation of its input fragments.  `Valid` says when a completed call is
one the ledger and the downstream request justify.
-/

namespace StonePlus.Kiro

/-- The content of a `toolUseEvent`. -/
structure ToolUse where
  id : JsString
  name : Option JsString
  input : Option JsString
  deriving DecidableEq

/-- The text of an `input` field: a fragment as it is, an object as JSON. -/
def inputText : Json → Option JsString
  | .string part => some part
  | .object entries => some (Json.stringify (.object entries))
  | _ => none

/-- The tool use a payload describes; it needs an id. -/
def ToolUse.ofPayload (payload : Json) : Option ToolUse :=
  (optionalString (payload.get? (js "toolUseId"))).map fun id =>
    ⟨id, optionalString (payload.get? (js "name")), (payload.get? (js "input")).bind inputText⟩

/-- The tool use a frame carries, if it is a `toolUseEvent`. -/
def toolUse? (frame : ParsedFrame) : Option ToolUse := do
  let type ← (messageType frame).toOption
  let eventType ← (requiredStringHeader frame.headers ":event-type").toOption
  guard (type = js "event" ∧ eventType = js "toolUseEvent")
  let payload ← (parseJsonObject frame.payload eventType).toOption
  ToolUse.ofPayload payload

/-- The tool uses among some frames. -/
def toolUses (frames : List ParsedFrame) : List ToolUse := frames.filterMap toolUse?

/-! ## The ledger -/

/-- The tools heard of: their ids in order of first appearance, their names
and their inputs so far.  Nothing is known about an id not heard of. -/
structure Ledger where
  ids : List JsString
  name : JsString → Option JsString
  input : JsString → JsString
  nodup : ids.Nodup
  name_fresh : ∀ id, id ∉ ids → name id = none
  input_fresh : ∀ id, id ∉ ids → input id = []

namespace Ledger

/-- No tool heard of. -/
def empty : Ledger :=
  ⟨[], fun _ => none, fun _ => [], List.nodup_nil, fun _ _ => rfl, fun _ _ => rfl⟩

/-- Hear of an id, perhaps for the first time. -/
def hear (l : Ledger) (id : JsString) : Ledger :=
  if h : id ∈ l.ids then l
  else
    { l with
      ids := l.ids ++ [id]
      nodup := List.nodup_append'.mpr ⟨l.nodup, List.nodup_singleton id, by simpa using h⟩
      name_fresh := fun other hother => l.name_fresh other fun hmem =>
        hother (List.mem_append_left _ hmem)
      input_fresh := fun other hother => l.input_fresh other fun hmem =>
        hother (List.mem_append_left _ hmem) }

variable {id : JsString} {l : Ledger}

theorem hear_of_mem (h : id ∈ l.ids) : l.hear id = l := dif_pos h

theorem ids_hear_of_not_mem (h : id ∉ l.ids) : (l.hear id).ids = l.ids ++ [id] := by
  rw [hear, dif_neg h]

@[simp] theorem name_hear (l : Ledger) (id : JsString) : (l.hear id).name = l.name := by
  unfold hear
  split <;> rfl

@[simp] theorem input_hear (l : Ledger) (id : JsString) : (l.hear id).input = l.input := by
  unfold hear
  split <;> rfl

theorem ids_prefix_hear (l : Ledger) (id : JsString) : l.ids <+: (l.hear id).ids := by
  by_cases h : id ∈ l.ids
  · rw [hear_of_mem h]
  · rw [ids_hear_of_not_mem h]
    exact List.prefix_append _ _

/-- Learn the name of a tool heard of. -/
def setName (l : Ledger) (id : JsString) (name : Option JsString) : Ledger :=
  match name with
  | none => l
  | some name =>
    { l with
      name := fun other => if other = id ∧ id ∈ l.ids then some name else l.name other
      name_fresh := fun other hother => by
        have hother' : ¬(other = id ∧ id ∈ l.ids) := fun ⟨heq, hmem⟩ => hother (heq ▸ hmem)
        rw [if_neg hother']
        exact l.name_fresh other hother }

@[simp] theorem ids_setName (l : Ledger) (id : JsString) (name : Option JsString) :
    (l.setName id name).ids = l.ids := by
  cases name <;> rfl

@[simp] theorem input_setName (l : Ledger) (id : JsString) (name : Option JsString) :
    (l.setName id name).input = l.input := by
  cases name <;> rfl

theorem name_setName_self (h : id ∈ l.ids) (name : JsString) :
    (l.setName id (some name)).name id = some name := if_pos ⟨rfl, h⟩

theorem name_setName_of_ne (h : other ≠ id) (name : Option JsString) :
    (l.setName id name).name other = l.name other := by
  cases name with
  | none => rfl
  | some name => exact if_neg fun heq => h heq.1

/-- Append a fragment to the input of a tool heard of. -/
def append (l : Ledger) (id : JsString) (part : Option JsString) : Ledger :=
  match part with
  | none => l
  | some part =>
    { l with
      input := fun other => if other = id ∧ id ∈ l.ids then l.input id ++ part else l.input other
      input_fresh := fun other hother => by
        have hother' : ¬(other = id ∧ id ∈ l.ids) := fun ⟨heq, hmem⟩ => hother (heq ▸ hmem)
        rw [if_neg hother']
        exact l.input_fresh other hother }

@[simp] theorem ids_append (l : Ledger) (id : JsString) (part : Option JsString) :
    (l.append id part).ids = l.ids := by
  cases part <;> rfl

@[simp] theorem name_append (l : Ledger) (id : JsString) (part : Option JsString) :
    (l.append id part).name = l.name := by
  cases part <;> rfl

theorem input_append_self (h : id ∈ l.ids) (part : JsString) :
    (l.append id (some part)).input id = l.input id ++ part := if_pos ⟨rfl, h⟩

theorem input_append_of_ne (h : other ≠ id) (part : Option JsString) :
    (l.append id part).input other = l.input other := by
  cases part with
  | none => rfl
  | some part => exact if_neg fun heq => h heq.1

/-- Enter one tool use. -/
def add (l : Ledger) (use : ToolUse) : Ledger :=
  ((l.hear use.id).setName use.id use.name).append use.id use.input

/-- The ledger of some tool uses. -/
def of (uses : List ToolUse) : Ledger := uses.foldl add empty

theorem of_append (uses : List ToolUse) (use : ToolUse) :
    of (uses ++ [use]) = (of uses).add use := List.foldl_append

theorem ids_add (l : Ledger) (use : ToolUse) : (l.add use).ids = (l.hear use.id).ids := by
  rw [add, ids_append, ids_setName]

/-- More tool uses only add ids at the end. -/
theorem ids_prefix_of_prefix (h : uses <+: uses') : (of uses).ids <+: (of uses').ids := by
  obtain ⟨more, rfl⟩ := h
  induction more using List.reverseRecOn with
  | nil => rw [List.append_nil]
  | append_singleton more use ih =>
      rw [← List.append_assoc, of_append, ids_add]
      exact ih.trans (ids_prefix_hear _ _)

end Ledger

/-! ## Calls -/

/-- The input a tool is called with: the text received for it, or the empty
object if there is none. -/
def finalInput (input : JsString) : JsString :=
  match JsString.trim input with
  | [] => js "\x7b\x7d"
  | input => input

/-- A call the ledger and the request justify: its tool was declared, it has
the name the upstream gave, and its input is a JSON object that passes the
schema declared for the tool, if there is one. -/
structure Valid (cfg : KiroConfig) (l : Ledger) (call : CompletedToolState) : Prop where
  named : l.name call.id = some call.name
  declared : call.name ∈ cfg.declaredToolNames
  input : ∃ entries, Json.parse (finalInput (l.input call.id)) = some (.object entries) ∧
    call.arguments = Json.stringify (.object entries) ∧
    ∀ schema, cfg.declaredToolSchemas.get? call.name = some schema →
      validateSchemaValue cfg.regExps (maxSchemaValidationDepth + 1) (.object entries) schema
        (js "$") = none

/-- Only what is said about the call's own id matters. -/
theorem Valid.congr (h : Valid cfg l call) (hname : l'.name call.id = l.name call.id)
    (hinput : l'.input call.id = l.input call.id) : Valid cfg l' call :=
  ⟨hname.trans h.named, h.declared, by rw [hinput]; exact h.input⟩

end StonePlus.Kiro

/-!
## Output

The shape of the parser's output: tool calls as adjacent pairs of events
among other events.
-/

namespace StonePlus.Kiro

/-- The two events of a tool call. -/
def callEvents (call : CompletedToolState) : List CanonicalStreamEvent :=
  [.toolCallDelta call.index (some call.id) (some call.name) (some call.arguments) none none,
    .toolCallComplete call.index]

/-- An event that belongs to a tool call. -/
def isTool : CanonicalStreamEvent → Bool
  | .toolCallDelta .. | .toolCallComplete _ => true
  | _ => false

def isStop : CanonicalStreamEvent → Bool
  | .stop .. => true
  | _ => false

/-- Progress: text, reasoning and usage. -/
def isQuiet : CanonicalStreamEvent → Bool
  | .textDelta .. | .reasoningProgress | .usage _ => true
  | _ => false

/-- The events are the calls, in this order and each as an adjacent pair, with
other events between them. -/
inductive Interleaved : List CanonicalStreamEvent → List CompletedToolState → Prop
  | nil : Interleaved [] []
  | other {events calls e} (h : Interleaved events calls) (he : isTool e = false) :
      Interleaved (events ++ [e]) calls
  | call {events calls} (h : Interleaved events calls) (c : CompletedToolState) :
      Interleaved (events ++ callEvents c) (calls ++ [c])

theorem Interleaved.append_others (h : Interleaved events calls)
    (hmore : ∀ e ∈ more, isTool e = false) : Interleaved (events ++ more) calls := by
  induction more generalizing events with
  | nil => rwa [List.append_nil]
  | cons e more ih =>
      obtain ⟨he, hrest⟩ := List.forall_mem_cons.mp hmore
      rw [List.append_cons]
      exact ih (h.other he) hrest

/-- The events before the end of a stream: calls as adjacent pairs, and progress. -/
inductive Body : List CanonicalStreamEvent → List CompletedToolState → Prop
  | nil : Body [] []
  | quiet {events calls e} (h : Body events calls) (he : isQuiet e = true) :
      Body (events ++ [e]) calls
  | call {events calls} (h : Body events calls) (c : CompletedToolState) :
      Body (events ++ callEvents c) (calls ++ [c])

namespace Body

variable {events : List CanonicalStreamEvent} {calls : List CompletedToolState}

theorem append_quiet (h : Body events calls) (hmore : ∀ e ∈ more, isQuiet e = true) :
    Body (events ++ more) calls := by
  induction more generalizing events with
  | nil => rwa [List.append_nil]
  | cons e more ih =>
      obtain ⟨he, hrest⟩ := List.forall_mem_cons.mp hmore
      rw [List.append_cons]
      exact ih (h.quiet he) hrest

theorem append_calls (h : Body events calls) (more : List CompletedToolState) :
    Body (events ++ more.flatMap callEvents) (calls ++ more) := by
  induction more generalizing events calls with
  | nil => simpa using h
  | cons c more ih => simpa [List.append_assoc] using ih (h.call c)

theorem interleaved (h : Body events calls) : Interleaved events calls := by
  induction h with
  | nil => exact .nil
  | quiet _ he ih => exact ih.other (by revert he; rename_i e _; cases e <;> simp [isQuiet, isTool])
  | call _ c ih => exact ih.call c

/-- Before the end there is no stop, no error and no done. -/
theorem not_final (h : Body events calls) :
    ∀ e ∈ events, isStop e = false ∧ isError e = false ∧ e ≠ .done := by
  induction h with
  | nil => exact fun e he => by cases he
  | @quiet events calls last _ hlast ih =>
      intro e he
      rcases List.mem_append.mp he with he | he
      · exact ih e he
      · rw [List.mem_singleton.mp he]
        cases last <;> simp_all [isQuiet, isStop, isError]
  | call _ c ih =>
      intro e he
      rcases List.mem_append.mp he with he | he
      · exact ih e he
      · simp only [callEvents, List.mem_cons, List.not_mem_nil, or_false] at he
        rcases he with rfl | rfl <;> simp [isStop, isError]

end Body

end StonePlus.Kiro
