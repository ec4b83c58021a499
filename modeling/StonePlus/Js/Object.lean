import StonePlus.Js.Json

/-!
# StonePlus.Js.Object

Writing and deleting the properties of an object, and reading them back.
-/

namespace StonePlus.Json

/-- `delete object[key]`. -/
def deleteProperty (key : JsString) (entries : List (JsString × Json)) : List (JsString × Json) :=
  entries.filter fun e => e.1 != key

variable {entries : List (JsString × Json)} {key key' : JsString} {value : Json}

theorem property?_cons (e : JsString × Json) :
    property? (e :: entries) key = if e.1 = key then some e.2 else property? entries key := by
  by_cases h : e.1 = key
  · simp [property?, h]
  · simp [property?, h]

theorem property?_eq_none (h : key ∉ entries.map Prod.fst) : property? entries key = none := by
  rw [property?, Option.map_eq_none_iff, List.find?_eq_none]
  intro e he heq
  exact h (List.mem_map.mpr ⟨e, he, by simpa using heq⟩)

theorem property?_setProperty :
    property? (setProperty key value entries) key' =
      if key = key' then some value else property? entries key' := by
  induction entries with
  | nil =>
      rw [setProperty, property?_cons]
  | cons e entries ih =>
      unfold setProperty
      split
      · next he =>
        rw [property?_cons, property?_cons, he]
        split <;> rfl
      · next he =>
        split
        · rw [property?_cons, ih, property?_cons]
          by_cases hk : key = key'
          · rw [if_pos hk, if_pos hk, if_neg (fun h => he (h.trans hk.symm))]
          · rw [if_neg hk, if_neg hk]
        · next hlater =>
          rw [property?_cons]

@[simp] theorem property?_setProperty_self :
    property? (setProperty key value entries) key = some value := by
  rw [property?_setProperty, if_pos rfl]

theorem property?_setProperty_of_ne (h : key ≠ key') :
    property? (setProperty key value entries) key' = property? entries key' := by
  rw [property?_setProperty, if_neg h]

theorem property?_deleteProperty :
    property? (deleteProperty key entries) key' =
      if key = key' then none else property? entries key' := by
  induction entries with
  | nil => simp [deleteProperty, property?]
  | cons e entries ih =>
      rw [property?_cons]
      by_cases he : e.1 = key
      · have hdrop : deleteProperty key (e :: entries) = deleteProperty key entries := by
          simp [deleteProperty, he]
        rw [hdrop, ih, he]
        split <;> rfl
      · have hkeep : deleteProperty key (e :: entries) = e :: deleteProperty key entries := by
          simp [deleteProperty, he]
        rw [hkeep, property?_cons, ih]
        by_cases hk : key = key'
        · rw [if_pos hk, if_pos hk, if_neg (fun h => he (h.trans hk.symm))]
        · rw [if_neg hk, if_neg hk]

@[simp] theorem property?_deleteProperty_self :
    property? (deleteProperty key entries) key = none := by
  rw [property?_deleteProperty, if_pos rfl]

/-! ## Distinct keys -/

mutual

/-- No object in the value has two properties of one name. -/
def distinctKeys : Json → Bool
  | .array items => distinctItems items
  | .object entries => decide (entries.map Prod.fst).Nodup && distinctEntries entries
  | _ => true

def distinctItems : List Json → Bool
  | [] => true
  | v :: vs => distinctKeys v && distinctItems vs

def distinctEntries : List (JsString × Json) → Bool
  | [] => true
  | (_, v) :: es => distinctKeys v && distinctEntries es

end

theorem distinctItems_iff : distinctItems items = true ↔ ∀ v ∈ items, distinctKeys v = true := by
  induction items with
  | nil => simp [distinctItems]
  | cons v vs ih => simp [distinctItems, ih]

theorem distinctEntries_iff :
    distinctEntries entries = true ↔ ∀ e ∈ entries, distinctKeys e.2 = true := by
  induction entries with
  | nil => simp [distinctEntries]
  | cons e es ih =>
      obtain ⟨k, v⟩ := e
      simp [distinctEntries, ih]

theorem distinctKeys_object :
    distinctKeys (.object entries) = true ↔
      (entries.map Prod.fst).Nodup ∧ ∀ e ∈ entries, distinctKeys e.2 = true := by
  simp [distinctKeys, distinctEntries_iff]

end StonePlus.Json
