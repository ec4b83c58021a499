import StonePlus.Lib.WhileLoop
import StonePlus.Replay.Budget

/-!
# StonePlus.Replay.BudgetWalk

The loop of `jsonFitsByteBudget` with its explicit stack of frames.

A JSON value has no `undefined` or function below it and is a tree, so the frames that skip such
children and the set of ancestors are left out.  What the frames still have to charge and what
is charged add up to the value's text (`frameBytes`), and every other turn charges something, so
the walk ends.
-/

namespace StonePlus.Replay

open Lib JsString

/-- `Frame`: a value to charge, or an array or object whose children up to `index` are charged. -/
inductive Frame
  | value (value : Json)
  | array (value : List Json) (index : Nat)
  | object (value : List (JsString × Json)) (index : Nat) (emitted : Bool)

/-- The loop with its frames, the top of the stack first, or what it has returned. -/
inductive Walk
  | running (frames : List Frame) (used : Nat)
  | returned (fits : Bool)

/-- `if (!add(bytes)) return false`, and on with these frames. -/
def charge (budget used bytes : Nat) (frames : List Frame) : Walk :=
  match add budget used bytes with
  | some used => .running frames used
  | none => .returned false

/-- A turn whose top frame is a value. -/
def valueTurn (budget used : Nat) (frames : List Frame) : Json → Walk
  | .null => charge budget used 4 frames
  | .string s =>
    match jsonStringByteLength s (budget - used) with
    | some bytes => charge budget used bytes frames
    | none => .returned false
  | .bool b => charge budget used (if b then 4 else 5) frames
  | .number n => charge budget used (if n.isFinite then byteLength n.toJsString else 4) frames
  | .array items => charge budget used 1 (.array items 0 :: frames)
  | .object entries => charge budget used 1 (.object entries 0 false :: frames)

/-- A comma where one is due. -/
def comma (budget used : Nat) (due : Bool) : Option Nat :=
  if due then add budget used 1 else some used

/-- A turn whose top frame is an array that is at its next item. -/
def commaTurn (budget used : Nat) (due : Bool) (frames : List Frame) : Walk :=
  match comma budget used due with
  | none => .returned false
  | some used => .running frames used

/-- A turn whose top frame is an object that is at its next key. -/
def keyTurn (budget used : Nat) (emitted : Bool) (key : JsString) (frames : List Frame) : Walk :=
  match comma budget used emitted with
  | none => .returned false
  | some used =>
    match jsonStringByteLength key (budget - used) with
    | none => .returned false
    | some keyBytes => charge budget used (keyBytes + 1) frames

/-- A turn whose top frame is an array. -/
def arrayTurn (budget used : Nat) (items : List Json) (index : Nat) (frames : List Frame) : Walk :=
  match items[index]? with
  | none => charge budget used 1 frames
  | some child =>
    commaTurn budget used (0 < index) (.value child :: .array items (index + 1) :: frames)

/-- A turn whose top frame is an object. -/
def objectTurn (budget used : Nat) (entries : List (JsString × Json)) (index : Nat)
    (emitted : Bool) (frames : List Frame) : Walk :=
  match entries[index]? with
  | none => charge budget used 1 frames
  | some (key, child) =>
    keyTurn budget used emitted key (.value child :: .object entries (index + 1) true :: frames)

/-- One turn of `while (frames.length > 0)`. -/
def turn (budget : Nat) : Walk → Option Walk
  | .returned _ => none
  | .running [] _ => some (.returned true)
  | .running (.value v :: frames) used => some (valueTurn budget used frames v)
  | .running (.array items index :: frames) used =>
    some (arrayTurn budget used items index frames)
  | .running (.object entries index emitted :: frames) used =>
    some (objectTurn budget used entries index emitted frames)

/-- The walk that starts at a value. -/
def startWalk (v : Json) : Walk := .running [.value v] 0

/-! ## What is left to charge -/

/-- The octets of the rest of a bracketed list whose parts have these sizes. -/
def restBytes (started : Bool) (sizes : List Nat) : Nat :=
  sizes.sum + (if started then sizes.length else sizes.length - 1) + 1

@[simp] theorem restBytes_nil (started : Bool) : restBytes started [] = 1 := by
  cases started <;> rfl

@[simp] theorem restBytes_cons (started : Bool) (n : Nat) (sizes : List Nat) :
    restBytes started (n :: sizes) = (if started then 1 else 0) + n + restBytes true sizes := by
  cases started <;> simp [restBytes] <;> omega

def frameBytes : Frame → Nat
  | .value v => textBytes v
  | .array items index => restBytes (0 < index) ((items.drop index).map textBytes)
  | .object entries index emitted => restBytes emitted ((entries.drop index).map propertyBytes)

def framesBytes (frames : List Frame) : Nat := (frames.map frameBytes).sum

@[simp] theorem framesBytes_nil : framesBytes [] = 0 := rfl

@[simp] theorem framesBytes_cons (frame : Frame) (frames : List Frame) :
    framesBytes (frame :: frames) = frameBytes frame + framesBytes frames := rfl

/-- The turns that are left: two for every octet, and one to open a child. -/
def turnsLeft : Walk → Nat
  | .returned _ => 0
  | .running frames _ =>
    2 * framesBytes frames + 1 + match frames with
      | [] | .value _ :: _ => 0
      | _ => 1

/-- A walk through a text of `total` octets: nothing is charged twice or over the budget, and
the answer is right. -/
def Walks (budget total : Nat) : Walk → Prop
  | .running frames used => used ≤ budget ∧ used + framesBytes frames = total
  | .returned fits => fits = true ↔ total ≤ budget

/-! ## One turn -/

theorem turnsLeft_le (frames : List Frame) (used : Nat) :
    turnsLeft (.running frames used) ≤ 2 * framesBytes frames + 2 := by
  cases frames with
  | nil => simp [turnsLeft]
  | cons frame frames => cases frame <;> simp [turnsLeft]

/-- Charging `bytes` out of what is left. -/
theorem walks_charge (htotal : used + (bytes + framesBytes frames) = total) :
    Walks budget total (charge budget used bytes frames) := by
  unfold charge add
  split_ifs with hfits
  · exact ⟨hfits, by omega⟩
  · simp only [Walks, Bool.false_eq_true, false_iff]
    omega

/-- A charge of at least one octet takes a turn off. -/
theorem turnsLeft_charge {budget used bytes : Nat} (frames : List Frame) (hpos : 0 < bytes) :
    turnsLeft (charge budget used bytes frames) < 2 * (bytes + framesBytes frames) + 1 := by
  unfold charge
  split
  · next used' _ =>
    have := turnsLeft_le frames used'
    omega
  · simp [turnsLeft]

/-- A quoted string is charged in full, or it does not fit. -/
theorem charge_quoted (budget used bytes : Nat) (s : JsString) (frames : List Frame) :
    (match jsonStringByteLength s (budget - used) with
      | none => .returned false
      | some n => charge budget used (n + bytes) frames) =
      charge budget used (byteLength (Json.quote s) + bytes) frames := by
  have h := jsonStringByteLength_add budget used bytes s
  unfold charge
  rw [← h]
  cases jsonStringByteLength s (budget - used) <;> rfl

/-- What a value's turn charges is the text of the value but for its children. -/
theorem valueTurn_eq (budget used : Nat) (frames : List Frame) (v : Json) :
    ∃ bytes children, valueTurn budget used frames v = charge budget used bytes (children ++ frames)
      ∧ 0 < bytes ∧ textBytes v = bytes + framesBytes children := by
  cases v with
  | null => exact ⟨4, [], rfl, by decide, by decide⟩
  | bool b => exact ⟨if b then 4 else 5, [], rfl, by cases b <;> decide, by cases b <;> decide⟩
  | number n =>
      have htext : textBytes (.number n) = if n.isFinite then byteLength n.toJsString else 4 := by
        rw [textBytes, Json.stringify, Json.stringifyNumber]
        split <;> rfl
      refine ⟨textBytes (.number n), [], ?_, textBytes_pos _, by simp⟩
      rw [htext]
      rfl
  | string s =>
      refine ⟨textBytes (.string s), [], ?_, textBytes_pos _, by simp⟩
      have hquoted := charge_quoted budget used 0 s frames
      simp only [Nat.add_zero] at hquoted
      rw [List.nil_append, textBytes, Json.stringify, ← hquoted, valueTurn]
      cases jsonStringByteLength s (budget - used) <;> rfl
  | array items =>
      refine ⟨1, [.array items 0], rfl, by decide, ?_⟩
      simp [textBytes_array, frameBytes, restBytes]
      omega
  | object entries =>
      refine ⟨1, [.object entries 0 false], rfl, by decide, ?_⟩
      simp [textBytes_object, frameBytes, restBytes]
      omega

theorem commaTurn_true (budget used : Nat) (frames : List Frame) :
    commaTurn budget used true frames = charge budget used 1 frames := by
  unfold commaTurn comma charge
  cases add budget used 1 <;> rfl

/-- A comma where one is due, the key and the colon are one charge. -/
theorem keyTurn_eq (budget used : Nat) (emitted : Bool) (key : JsString) (frames : List Frame) :
    keyTurn budget used emitted key frames =
      charge budget used ((if emitted then 1 else 0) + (byteLength (Json.quote key) + 1))
        frames := by
  unfold keyTurn comma
  cases emitted with
  | false => simpa using charge_quoted budget used 1 key frames
  | true =>
      simp only [if_true, charge_quoted]
      have h := add_bind_add budget used 1 (byteLength (Json.quote key) + 1)
      unfold charge
      rw [← h]
      cases add budget used 1 <;> rfl

theorem map_drop_of_getElem? {α β : Type} {f : α → β} {l : List α} {a : α} (h : l[i]? = some a) :
    (l.drop i).map f = f a :: (l.drop (i + 1)).map f := by
  obtain ⟨hi, rfl⟩ := List.getElem?_eq_some_iff.mp h
  rw [List.drop_eq_getElem_cons hi, List.map_cons]

theorem map_drop_of_getElem?_none {α β : Type} {f : α → β} {l : List α} (h : l[i]? = none) :
    (l.drop i).map f = [] := by
  rw [List.drop_eq_nil_of_le (List.getElem?_eq_none_iff.mp h), List.map_nil]

/-- A turn charges what it takes off the frames, and leaves fewer turns. -/
theorem walks_turn {budget total : Nat} (w w' : Walk)
    (h : Walks budget total w) (hturn : turn budget w = some w') :
    Walks budget total w' ∧ turnsLeft w' < turnsLeft w := by
  -- A turn that charges `bytes` of what the top frame still has to.
  have hcharge : ∀ frame frames rest used bytes, 0 < bytes →
      frameBytes frame + framesBytes frames = bytes + framesBytes rest →
      Walks budget total (.running (frame :: frames) used) →
      Walks budget total (charge budget used bytes rest) ∧
        turnsLeft (charge budget used bytes rest) < turnsLeft (.running (frame :: frames) used) := by
    intro frame frames rest used bytes hbytes hleft hwalks
    have htotal := hwalks.2
    have hturns := @turnsLeft_charge budget used _ rest hbytes
    simp only [framesBytes_cons] at htotal
    refine ⟨walks_charge (by omega), ?_⟩
    simp only [turnsLeft, framesBytes_cons] at hturns ⊢
    omega
  match w with
  | .returned _ => cases hturn
  | .running [] used =>
      cases hturn
      simp [Walks, turnsLeft] at h ⊢
      omega
  | .running (.value v :: frames) used =>
      cases hturn
      obtain ⟨bytes, children, heq, hbytes, htext⟩ := valueTurn_eq budget used frames v
      rw [heq]
      refine hcharge _ _ _ used bytes hbytes ?_ h
      simp [frameBytes, framesBytes, htext, Nat.add_assoc]
  | .running (.array items index :: frames) used =>
      cases hturn
      unfold arrayTurn
      split
      · next hnone =>
        refine hcharge _ _ _ used 1 (by decide) ?_ h
        simp [frameBytes, map_drop_of_getElem?_none hnone]
      · next child hsome =>
        have hleft : frameBytes (.array items index) = (if 0 < index then 1 else 0) +
            (frameBytes (.value child) + frameBytes (.array items (index + 1))) := by
          simp [frameBytes, map_drop_of_getElem? hsome, Nat.add_assoc]
        by_cases hindex : 0 < index
        · rw [decide_eq_true hindex, commaTurn_true]
          refine hcharge _ _ _ used 1 (by decide) ?_ h
          simp [hleft, hindex]
          omega
        · rw [decide_eq_false hindex]
          simp [commaTurn, comma, Walks, turnsLeft, hleft, hindex] at h ⊢
          omega
  | .running (.object entries index emitted :: frames) used =>
      cases hturn
      unfold objectTurn
      split
      · next hnone =>
        refine hcharge _ _ _ used 1 (by decide) ?_ h
        simp [frameBytes, map_drop_of_getElem?_none hnone]
      · next key child hsome =>
        rw [keyTurn_eq]
        refine hcharge _ _ _ used _ (by omega) ?_ h
        simp [frameBytes, map_drop_of_getElem? hsome, propertyBytes]
        omega

/-! ## The whole walk -/

/-- With a turn for all that is left the walk has returned. -/
theorem run_walk (v : Json) (hfuel : turnsLeft (startWalk v) ≤ fuel) :
    ∃ fits, WhileLoop.run (turn budget) fuel (startWalk v) = .returned fits ∧
      (fits = true ↔ textBytes v ≤ budget) := by
  have hstart : Walks budget (textBytes v) (startWalk v) := ⟨by omega, by simp [frameBytes]⟩
  obtain ⟨hwalks, hend⟩ := WhileLoop.run_spec walks_turn hstart hfuel
  generalize WhileLoop.run (turn budget) fuel (startWalk v) = w at hwalks hend
  match w with
  | .returned fits => exact ⟨fits, rfl, hwalks⟩
  | .running [] used => cases hend
  | .running (.value v :: frames) used => cases hend
  | .running (.array items index :: frames) used => cases hend
  | .running (.object entries index emitted :: frames) used => cases hend

/-- The walk ends on every value, and answers whether the value's JSON text fits. -/
theorem walk_fits_iff (v : Json) (budget : Nat) :
    ∃ turns, ∀ fuel ≥ turns, ∃ fits,
      WhileLoop.run (turn budget) fuel (startWalk v) = .returned fits ∧
        (fits = true ↔ byteLength v.stringify ≤ budget) :=
  ⟨turnsLeft (startWalk v), fun _ hfuel => run_walk v hfuel⟩

end StonePlus.Replay
