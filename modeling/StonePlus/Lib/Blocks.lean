import Mathlib.Algebra.GroupWithZero.Nat
import Mathlib.Data.List.Induction
import Mathlib.Data.List.Perm.Basic
import Mathlib.Data.List.Nodup

/-!
# StonePlus.Lib.Blocks

A log of blocks: a block is started under the next index, grows piece by piece and is stopped.

`readBlocks` returns the blocks of a log, unless an entry starts a block under another index,
or grows or stops one that is not there or has been stopped.
-/

namespace StonePlus.Lib

variable {ι α : Type}

/-- An entry of the log. -/
inductive BlockEntry (ι α : Type)
  | start (index : Nat) (item : ι)
  | extend (index : Nat) (piece : α)
  | stop (index : Nat)

/-- A block that has been started. -/
structure Block (ι α : Type) where
  item : ι
  pieces : List α := []
  stopped : Bool := false

/-- The blocks after an entry. -/
def readEntry (blocks : List (Block ι α)) : BlockEntry ι α → Option (List (Block ι α))
  | .start index item => if index = blocks.length then some (blocks ++ [{ item }]) else none
  | .extend index piece =>
    match blocks[index]? with
    | some ⟨item, pieces, false⟩ => some (blocks.set index { item, pieces := pieces ++ [piece] })
    | _ => none
  | .stop index =>
    match blocks[index]? with
    | some ⟨item, pieces, false⟩ => some (blocks.set index { item, pieces, stopped := true })
    | _ => none

/-- The blocks of a log. -/
def readBlocks (log : List (BlockEntry ι α)) : Option (List (Block ι α)) := log.foldlM readEntry []

variable {log : List (BlockEntry ι α)} {blocks : List (Block ι α)}

theorem readBlocks_concat (h : readBlocks log = some blocks) (entry : BlockEntry ι α) :
    readBlocks (log ++ [entry]) = readEntry blocks entry := by
  unfold readBlocks at h ⊢
  rw [List.foldlM_append, h]
  show List.foldlM readEntry blocks [entry] = _
  rw [List.foldlM_cons]
  cases readEntry blocks entry <;> rfl

theorem readBlocks_start (h : readBlocks log = some blocks) (item : ι) :
    readBlocks (log ++ [.start blocks.length item]) = some (blocks ++ [⟨item, [], false⟩]) := by
  rw [readBlocks_concat h, readEntry, if_pos rfl]

theorem readBlocks_extend (h : readBlocks log = some blocks)
    (hblock : blocks[i]? = some ⟨item, pieces, false⟩) (piece : α) :
    readBlocks (log ++ [.extend i piece]) =
      some (blocks.set i ⟨item, pieces ++ [piece], false⟩) := by
  rw [readBlocks_concat h, readEntry, hblock]

theorem readBlocks_stop (h : readBlocks log = some blocks)
    (hblock : blocks[i]? = some ⟨item, pieces, false⟩) :
    readBlocks (log ++ [.stop i]) = some (blocks.set i ⟨item, pieces, true⟩) := by
  rw [readBlocks_concat h, readEntry, hblock]

/-! ## What a reader relies on -/

/-- The indices under which blocks are started, in order. -/
def startIndices (log : List (BlockEntry ι α)) : List Nat :=
  log.filterMap fun
    | .start index _ => some index
    | _ => none

/-- The indices of the blocks that are stopped, in order. -/
def stopIndices (log : List (BlockEntry ι α)) : List Nat :=
  log.filterMap fun
    | .stop index => some index
    | _ => none

theorem exists_readBlocks_of_concat (h : readBlocks (log ++ [entry]) = some blocks) :
    ∃ before, readBlocks log = some before ∧ readEntry before entry = some blocks := by
  cases hlog : readBlocks log with
  | none =>
    rw [readBlocks, List.foldlM_append, ← readBlocks, hlog] at h
    cases h
  | some before =>
    rw [readBlocks_concat hlog] at h
    exact ⟨before, rfl, h⟩

/-- Blocks are started under 0, 1, 2 and so on. -/
theorem startIndices_eq_range (h : readBlocks log = some blocks) :
    startIndices log = List.range blocks.length := by
  induction log using List.reverseRecOn generalizing blocks with
  | nil =>
    cases h
    rfl
  | append_singleton log entry ih =>
    obtain ⟨before, hbefore, h⟩ := exists_readBlocks_of_concat h
    rw [startIndices, List.filterMap_append, ← startIndices, ih hbefore]
    cases entry with
    | start index item =>
      simp only [readEntry] at h
      split at h
      · next hindex =>
        cases h
        simp [hindex, List.range_succ]
      · cases h
    | extend index piece | stop index =>
      simp only [readEntry] at h
      split at h
      · cases h
        simp
      · cases h

/-- The blocks that have been stopped have been stopped once. -/
theorem stopIndices_spec (h : readBlocks log = some blocks) :
    (stopIndices log).Nodup ∧
      ∀ i, i ∈ stopIndices log ↔ ∃ b, blocks[i]? = some b ∧ b.stopped = true := by
  induction log using List.reverseRecOn generalizing blocks with
  | nil =>
    cases h
    simp [stopIndices]
  | append_singleton log entry ih =>
    obtain ⟨before, hbefore, h⟩ := exists_readBlocks_of_concat h
    obtain ⟨hnodup, hmem⟩ := ih hbefore
    rw [stopIndices, List.filterMap_append, ← stopIndices]
    cases entry with
    | start index item =>
      simp only [readEntry] at h
      split at h
      · cases h
        refine ⟨by simpa using hnodup, fun i => ?_⟩
        simp only [List.filterMap_cons, List.filterMap_nil, List.append_nil, hmem]
        grind
      · cases h
    | extend index piece =>
      simp only [readEntry] at h
      split at h
      · next item pieces hblock =>
        cases h
        refine ⟨by simpa using hnodup, fun i => ?_⟩
        simp only [List.filterMap_cons, List.filterMap_nil, List.append_nil, hmem]
        grind
      · cases h
    | stop index =>
      simp only [readEntry] at h
      split at h
      · next item pieces hblock =>
        cases h
        have hnot : index ∉ stopIndices log := by
          intro hin
          obtain ⟨b, hb, hstopped⟩ := (hmem index).mp hin
          rw [hblock] at hb
          cases hb
          cases hstopped
        refine ⟨List.nodup_append'.mpr ⟨hnodup, List.nodup_singleton _, by simpa using hnot⟩, ?_⟩
        intro i
        simp only [List.filterMap_cons, List.filterMap_nil, List.mem_append, List.mem_singleton,
          hmem]
        have hindex := (List.getElem?_eq_some_iff.mp hblock).1
        by_cases heq : i = index
        · simp [heq, hindex]
        · simp [heq, Ne.symm heq, List.getElem?_set_ne]
      · cases h

/-- All blocks are stopped, each once. -/
theorem stopIndices_perm_range (h : readBlocks log = some blocks)
    (hall : ∀ b ∈ blocks, b.stopped = true) :
    (stopIndices log).Perm (List.range blocks.length) := by
  obtain ⟨hnodup, hmem⟩ := stopIndices_spec h
  rw [List.perm_ext_iff_of_nodup hnodup List.nodup_range]
  intro i
  rw [hmem, List.mem_range]
  constructor
  · rintro ⟨b, hb, -⟩
    exact (List.getElem?_eq_some_iff.mp hb).1
  · intro hi
    exact ⟨blocks[i], List.getElem?_eq_getElem hi, hall _ (List.getElem_mem hi)⟩

/-! ## What the entries say together -/

/-- The item an entry starts a block with. -/
def BlockEntry.item? : BlockEntry ι α → Option ι
  | .start _ item => some item
  | _ => none

/-- The piece by which an entry extends a block. -/
def BlockEntry.piece? : BlockEntry ι α → Option α
  | .extend _ piece => some piece
  | _ => none

theorem map_item_set (hblock : blocks[i]? = some ⟨item, pieces, stopped⟩) :
    (blocks.set i ⟨item, pieces', stopped'⟩).map Block.item = blocks.map Block.item := by
  obtain ⟨hi, hget⟩ := List.getElem?_eq_some_iff.mp hblock
  have hmap : i < (blocks.map Block.item).length := by simpa using hi
  have hitem : item = (blocks.map Block.item)[i] := by simp [hget]
  rw [List.map_set]
  simp only
  rw [hitem, List.set_getElem_self]

/-- The items, in order. -/
theorem map_item_eq (h : readBlocks log = some blocks) :
    blocks.map Block.item = log.filterMap BlockEntry.item? := by
  induction log using List.reverseRecOn generalizing blocks with
  | nil =>
    cases h
    rfl
  | append_singleton log entry ih =>
    obtain ⟨before, hbefore, h⟩ := exists_readBlocks_of_concat h
    rw [List.filterMap_append, ← ih hbefore]
    cases entry with
    | start index item =>
      simp only [readEntry] at h
      split at h
      · cases h
        simp [BlockEntry.item?]
      · cases h
    | extend index piece | stop index =>
      simp only [readEntry] at h
      split at h
      · next hblock =>
        cases h
        rw [map_item_set hblock]
        simp [BlockEntry.item?]
      · cases h

theorem sum_set (f : Block ι α → Nat) (hb : blocks[i]? = some b) (b' : Block ι α) :
    ((blocks.set i b').map f).sum + f b = (blocks.map f).sum + f b' := by
  induction blocks generalizing i with
  | nil => cases hb
  | cons first blocks ih =>
    cases i with
    | zero =>
      cases hb
      simp only [List.set_cons_zero, List.map_cons, List.sum_cons]
      omega
    | succ i =>
      have := ih hb
      simp only [List.set_cons_succ, List.map_cons, List.sum_cons]
      omega

/-- The pieces, whatever blocks they went to. -/
theorem sum_pieces_eq (h : readBlocks log = some blocks) (weight : α → Nat) :
    (blocks.map fun b => (b.pieces.map weight).sum).sum =
      ((log.filterMap BlockEntry.piece?).map weight).sum := by
  induction log using List.reverseRecOn generalizing blocks with
  | nil =>
    cases h
    rfl
  | append_singleton log entry ih =>
    obtain ⟨before, hbefore, h⟩ := exists_readBlocks_of_concat h
    rw [List.filterMap_append, List.map_append, List.sum_append, ← ih hbefore]
    cases entry with
    | start index item =>
      simp only [readEntry] at h
      split at h
      · cases h
        simp [List.filterMap_cons, BlockEntry.piece?]
      · cases h
    | extend index piece =>
      simp only [readEntry] at h
      split at h
      · next item pieces hblock =>
        cases h
        have hset := sum_set (fun b => (b.pieces.map weight).sum) hblock
          ⟨item, pieces ++ [piece], false⟩
        simp only [List.map_append, List.sum_append] at hset
        simp only [List.filterMap_cons, BlockEntry.piece?, List.filterMap_nil]
        omega
      · cases h
    | stop index =>
      simp only [readEntry] at h
      split at h
      · next item pieces hblock =>
        cases h
        have hset := sum_set (fun b => (b.pieces.map weight).sum) hblock
          ⟨item, pieces, true⟩
        dsimp only at hset
        simp only [List.filterMap_cons, BlockEntry.piece?, List.filterMap_nil, List.map_nil,
          List.sum_nil]
        omega
      · cases h

end StonePlus.Lib
