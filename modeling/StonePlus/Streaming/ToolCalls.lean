import StonePlus.Lib.Grouping
import StonePlus.Streaming.EncoderState

/-!
# StonePlus.Streaming.ToolCalls

The tool calls of a stream: what a consumer of canonical events collects of them.
-/

namespace StonePlus.Streaming

open Lib

def isToolDelta : StreamEvent → Bool
  | .toolCallDelta .. => true
  | _ => false

/-- The tools after an event, as `updateTool` files them. -/
def noteTool (tools : JsMap JsNumber EncodedToolState) : StreamEvent →
    JsMap JsNumber EncodedToolState
  | .toolCallDelta index id name arguments toolType _ =>
    tools.set (mapKey index)
      (mergeToolDelta ((tools.get? (mapKey index)).getD { index }) id name arguments toolType)
  | _ => tools

/-- The tools of a stream. -/
def foldTools (events : List StreamEvent) : JsMap JsNumber EncodedToolState :=
  events.foldl noteTool ∅

/-- Only the deltas of tool calls count. -/
theorem foldTools_filter (events : List StreamEvent) :
    foldTools (events.filter isToolDelta) = foldTools events := by
  have hskip : ∀ tools event, isToolDelta event = false → noteTool tools event = tools := by
    intro tools event h
    cases event with
    | toolCallDelta => simp [isToolDelta] at h
    | _ => rfl
  unfold foldTools
  generalize (∅ : JsMap JsNumber EncodedToolState) = tools
  induction events generalizing tools with
  | nil => rfl
  | cons event events ih =>
      cases h : isToolDelta event with
      | true => rw [List.filter_cons_of_pos h, List.foldl_cons, List.foldl_cons, ih]
      | false => rw [List.filter_cons_of_neg (by simp [h]), List.foldl_cons, hskip _ _ h, ih]

/-- Reading an entry and setting it changes the entry. -/
theorem entries_set {κ ν : Type} [DecidableEq κ] (m : JsMap κ ν) (k : κ) (f : Option ν → ν) :
    (m.set k (f (m.get? k))).entries = upsert k f m.entries := by
  show JsMap.setEntries k (f (JsMap.lookup k m.entries)) m.entries = _
  induction m.entries with
  | nil => rfl
  | cons e es ih =>
      unfold JsMap.setEntries JsMap.lookup upsert
      by_cases h : e.1 = k
      · simp [h]
      · simp [h, ih]

section

variable {α : Type} (index : α → JsNumber) (callId name arguments : α → Option JsString)

/-- The tools of deltas are collected under their indices. -/
theorem entries_foldTools (as : List α) :
    (foldTools (as.map fun a =>
      .toolCallDelta (index a) (callId a) (name a) (arguments a) none none)).entries =
      collect (fun a => mapKey (index a)) (fun a tool => mergeToolDelta
        (tool.getD { index := index a }) (callId a) (name a) (arguments a) none) as := by
  induction as using List.reverseRecOn with
  | nil => rfl
  | append_singleton as a ih =>
      rw [collect_append, ← ih, ← entries_set, List.map_append]
      simp [foldTools, noteTool]

/-- The name and the arguments of a call so far, and its next delta. -/
def mergeCall (call : Option (JsString × JsString)) (name arguments : Option JsString) :
    JsString × JsString :=
  let seen := call.getD ([], [])
  ((name.map (mergeStreamedIdentity seen.1)).getD seen.1, seen.2 ++ arguments.getD [])

/-- The name and the arguments of a call that comes in deltas. -/
def mergedCall (group : List α) : JsString × JsString :=
  group.foldl (fun call a => mergeCall (some call) (name a) (arguments a)) ([], [])

theorem mergedCall_append (group : List α) (a : α) :
    mergedCall name arguments (group ++ [a]) =
      mergeCall (some (mergedCall name arguments group)) (name a) (arguments a) := by
  simp [mergedCall]

/-- Names and arguments of the tools are merged index by index. -/
theorem values_foldTools (as : List α) :
    (foldTools (as.map fun a =>
      .toolCallDelta (index a) (callId a) (name a) (arguments a) none none)).values.map
        (fun tool => (tool.name, tool.arguments)) =
      (groups (fun a => mapKey (index a)) as).map (mergedCall name arguments) := by
  have hread := @map_collect α _ _ JsNumber JsNumber _ _ (fun a => mapKey (index a))
    (fun a tool => mergeToolDelta (tool.getD { index := index a }) (callId a) (name a)
      (arguments a) none)
    (fun a call => mergeCall call (name a) (arguments a)) id
    (fun tool : EncodedToolState => (tool.name, tool.arguments)) as
    (fun _ _ _ _ heq => heq) fun a tool => by cases tool <;> rfl
  have hvalues := @values_collect α (JsString × JsString) JsNumber _ (fun a => mapKey (index a))
    (fun a call => mergeCall call (name a) (arguments a)) (mergedCall name arguments)
    (fun a group => by
      cases group with
      | none => rfl
      | some group => exact mergedCall_append name arguments group a) as
  rw [← hvalues, JsMap.values, entries_foldTools, List.map_map]
  calc _ = ((collect _ _ as).map (Prod.map id fun tool : EncodedToolState =>
        (tool.name, tool.arguments))).map Prod.snd := by rw [List.map_map]; rfl
    _ = _ := by rw [hread]; rfl

end

end StonePlus.Streaming
