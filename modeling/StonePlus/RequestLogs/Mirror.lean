import StonePlus.RequestLogs.Store

/-!
# StonePlus.RequestLogs.Mirror

The table and the memory of the request logs never diverge.

A row that is inserted gets an ordinal below all others, and its object goes to
the front of the array; so both sides make the same list of logs, one log at a
time, and prune it at the same place.
-/

namespace StonePlus.RequestLogs

open Lib

variable {P L : Type} {table : List (Row P)}

/-! ## Tables -/

/-- A table whose list is in the order of its ordinals. -/
structure Ordered (table : List (Row P)) : Prop where
  sorted : table.Pairwise fun a b => a.ordinal < b.ordinal
  ids : (table.map Row.id).Nodup

theorem Ordered.inOrder (h : Ordered table) : inOrder table = table := by
  have hle : table.Pairwise fun a b => a.ordinal ≤ b.ordinal := h.sorted.imp fun hlt => hlt.le
  exact hle.insertionSort_eq

/-- The new log in front, or in the place of the one with its id. -/
def upsertLog (logs : List (Log P)) (log : Log P) : List (Log P) :=
  if log.id ∈ logs.map Log.id then logs.map fun old => if old.id = log.id then log else old
  else log :: logs

theorem map_id_updateRow (table : List (Row P)) (log : Log P) :
    (updateRow table log).map Row.id = table.map Row.id := by
  simp only [updateRow, List.map_map]
  apply List.map_congr_left
  intro row _
  simp only [Function.comp]
  split <;> rfl

theorem map_log_updateRow (table : List (Row P)) (log : Log P) :
    (updateRow table log).map Row.log =
      (table.map Row.log).map fun old => if old.id = log.id then log else old := by
  simp only [updateRow, List.map_map]
  apply List.map_congr_left
  intro row _
  simp only [Function.comp, Row.log]
  split
  · next h => simp [h]
  · next h => simp [h]

theorem Ordered.updateRow (h : Ordered table) (log : Log P) : Ordered (updateRow table log) := by
  constructor
  · rw [RequestLogs.updateRow, List.pairwise_map]
    apply h.sorted.imp
    intro a b hlt
    split <;> split <;> exact hlt
  · rw [map_id_updateRow]
    exact h.ids

/-- A row that is inserted comes before all others. -/
theorem nextOrdinal_lt (h : row ∈ table) : nextOrdinal table < row.ordinal := by
  have hmem : row.ordinal ∈ table.map Row.ordinal := List.mem_map_of_mem h
  unfold nextOrdinal
  cases hmin : (table.map Row.ordinal).min? with
  | none => simp_all
  | some least =>
      have := (List.min?_eq_some_iff.mp hmin).2 _ hmem
      simp only
      omega

theorem map_log_upsertRow (table : List (Row P)) (log : Log P) :
    (upsertRow table log).map Row.log = upsertLog (table.map Row.log) log := by
  have hids : log.id ∈ (table.map Row.log).map Log.id ↔ (table.any fun row => row.id = log.id) = true := by
    simp [Row.log]
  unfold upsertRow upsertLog
  by_cases h : (table.any fun row => row.id = log.id) = true
  · rw [if_pos h, if_pos (hids.mpr h), map_log_updateRow]
  · rw [if_neg h, if_neg (mt hids.mp h)]
    rfl

/-- The rows beyond the offset are the last ones. -/
theorem Ordered.deleteBeyond (h : Ordered table) (offset : Nat) :
    deleteBeyond table offset = table.take offset := by
  have hids := h.ids
  rw [← List.take_append_drop offset table, List.map_append, List.nodup_append'] at hids
  have hkept : ∀ row ∈ table.take offset, row.id ∉ (table.drop offset).map Row.id :=
    fun row hrow => hids.2.2 (List.mem_map_of_mem hrow)
  have hdropped : ∀ row ∈ table.drop offset, row.id ∈ (table.drop offset).map Row.id :=
    fun row hrow => List.mem_map_of_mem hrow
  have hfilter : table.filter (fun row => decide (row.id ∉ (table.drop offset).map Row.id)) =
      (table.take offset ++ table.drop offset).filter
        (fun row => decide (row.id ∉ (table.drop offset).map Row.id)) := by
    rw [List.take_append_drop]
  have hfront : (table.take offset).filter
      (fun row => decide (row.id ∉ (table.drop offset).map Row.id)) = table.take offset :=
    List.filter_eq_self.mpr fun row hrow => decide_eq_true (hkept row hrow)
  have hback : (table.drop offset).filter
      (fun row => decide (row.id ∉ (table.drop offset).map Row.id)) = [] :=
    List.filter_eq_nil_iff.mpr fun row hrow => by simpa using hdropped row hrow
  unfold RequestLogs.deleteBeyond
  rw [h.inOrder, hfilter, List.filter_append, hfront, hback, List.append_nil]

theorem Ordered.take (h : Ordered table) (n : Nat) : Ordered (table.take n) :=
  ⟨h.sorted.sublist (List.take_sublist n table),
    h.ids.sublist ((List.take_sublist n table).map Row.id)⟩

theorem replaceJsonRows_eq_some (h : replaceJsonRows logs = some table) :
    Ordered table ∧ table.map Row.log = logs := by
  unfold replaceJsonRows at h
  split at h
  · next hnodup =>
    injection h with h
    subst h
    have hlogs : (logs.mapIdx fun index log => (⟨log.id, index, log.payload⟩ : Row P)).map Row.log = logs := by
      apply List.ext_getElem
      · simp
      · simp [Row.log]
    have hids : (logs.mapIdx fun index log => (⟨log.id, index, log.payload⟩ : Row P)).map Row.id =
        logs.map Log.id := by
      apply List.ext_getElem
      · simp
      · simp
    refine ⟨⟨?_, by rwa [hids]⟩, hlogs⟩
    rw [List.pairwise_iff_getElem]
    simp
  · cases h

/-! ## Memory and table -/

/-- The memory shows the table: the array holds the objects of its rows in
order, and the index is the array'm. -/
structure Mirrors (table : List (Row P)) (m : Memory P) : Prop where
  ordered : Ordered table
  rows : m.requestLogs.map m.objects = table.map fun row => some row.log
  fresh : ∀ reference ∈ m.requestLogs, reference < m.nextObject
  index : ∀ id reference, m.requestLogsById id = some reference ↔
    reference ∈ m.requestLogs ∧ ∃ log, m.objects reference = some log ∧ log.id = id

theorem filterMap_eq_of_map {f : Nat → Option (Log P)} {references : List Nat} {logs : List (Log P)}
    (h : references.map f = logs.map some) : references.filterMap f = logs := by
  have hid : references.filterMap f = (references.map f).filterMap id := by simp [List.filterMap_map]
  rw [hid, h]
  simp [List.filterMap_map]

theorem Mirrors.logs {m : Memory P} (h : Mirrors table m) : m.logs = table.map Row.log := by
  apply filterMap_eq_of_map
  rw [h.rows, List.map_map]
  rfl

theorem Mirrors.length (h : Mirrors table m) : m.requestLogs.length = table.length := by
  have := congrArg List.length h.rows
  simpa using this

theorem Mirrors.ids (h : Mirrors table m) : m.logs.map Log.id = table.map Row.id := by
  rw [h.logs, List.map_map]
  rfl

/-- The object of an id in the index is the log with that id. -/
theorem Mirrors.object (h : Mirrors table m) (hmem : reference ∈ m.requestLogs) :
    ∃ row ∈ table, m.objects reference = some row.log := by
  have hobject : m.objects reference ∈ m.requestLogs.map m.objects := List.mem_map_of_mem hmem
  rw [h.rows] at hobject
  obtain ⟨row, hrow, heq⟩ := List.mem_map.mp hobject
  exact ⟨row, hrow, heq.symm⟩

/-- The index has exactly the ids of the rows. -/
theorem Mirrors.index_isNone (h : Mirrors table m) (id : JsString) :
    m.requestLogsById id = none ↔ id ∉ table.map Row.id := by
  constructor
  · intro hnone hmem
    obtain ⟨row, hrow, hid⟩ := List.mem_map.mp hmem
    have hlog : some row.log ∈ m.requestLogs.map m.objects := by
      rw [h.rows]
      exact List.mem_map_of_mem hrow
    obtain ⟨reference, href, hobject⟩ := List.mem_map.mp hlog
    have := (h.index id reference).mpr ⟨href, row.log, hobject, hid⟩
    rw [hnone] at this
    cases this
  · intro hnot
    cases hindex : m.requestLogsById id with
    | none => rfl
    | some reference =>
        obtain ⟨href, log, hobject, hid⟩ := (h.index id reference).mp hindex
        obtain ⟨row, hrow, hobject'⟩ := h.object href
        rw [hobject', Option.some.injEq] at hobject
        subst hobject
        exact absurd (hid ▸ List.mem_map_of_mem hrow) hnot

/-! ## One log at a time -/

/-- A log of a batch, in the array at once. -/
def insertLog (m : Memory P) (log : Log P) : Memory P :=
  match m.requestLogsById log.id with
  | some existing => { m with objects := Function.update m.objects existing (some log) }
  | none =>
      { m with
        objects := Function.update m.objects m.nextObject (some log)
        nextObject := m.nextObject + 1
        requestLogsById := Function.update m.requestLogsById log.id (some m.nextObject)
        requestLogs := m.nextObject :: m.requestLogs }

theorem requestLogs_absorb (m : Memory P) (inserted : List Nat) (log : Log P) :
    (absorb m inserted log).1.requestLogs = m.requestLogs := by
  unfold absorb
  split <;> rfl

theorem insertLog_combined (m : Memory P) (inserted : List Nat) (log : Log P) :
    insertLog { m with requestLogs := inserted ++ m.requestLogs } log =
      { (absorb m inserted log).1 with
        requestLogs := (absorb m inserted log).2 ++ m.requestLogs } := by
  unfold insertLog absorb
  cases m.requestLogsById log.id <;> simp

/-- The objects that a batch inserts go to the front of the array in the end. -/
theorem absorbAll_combined (m : Memory P) (inserted : List Nat) (logs : List (Log P)) :
    { (absorbAll m inserted logs).1 with
      requestLogs := (absorbAll m inserted logs).2 ++ m.requestLogs } =
      logs.foldl insertLog { m with requestLogs := inserted ++ m.requestLogs } := by
  induction logs generalizing m inserted with
  | nil => rfl
  | cons log logs ih =>
      have hnext := ih (absorb m inserted log).1 (absorb m inserted log).2
      rw [requestLogs_absorb] at hnext
      rw [List.foldl_cons, insertLog_combined]
      exact hnext

/-- An update in place replaces the object of exactly the row with that id. -/
theorem Mirrors.update_object (h : Mirrors table m)
    (hexisting : m.requestLogsById log.id = some existing) :
    m.requestLogs.map (Function.update m.objects existing (some log)) =
      (updateRow table log).map fun row => some row.log := by
  have hrows : (updateRow table log).map (fun row => some row.log) =
      ((updateRow table log).map Row.log).map some := by
    simp
  have htable : (table.map Row.log).map some = m.requestLogs.map m.objects := by
    rw [h.rows]
    simp
  rw [hrows, map_log_updateRow, List.map_map]
  have hcompose : (table.map Row.log).map (some ∘ fun old => if old.id = log.id then log else old) =
      ((table.map Row.log).map some).map
        (Option.map fun old : Log P => if old.id = log.id then log else old) := by
    simp
  rw [hcompose, htable, List.map_map]
  apply List.map_congr_left
  intro reference href
  obtain ⟨row, hrow, hobject⟩ := h.object href
  by_cases hsame : reference = existing
  · subst hsame
    obtain ⟨_, old, hold, hid⟩ := (h.index log.id reference).mp hexisting
    rw [hobject, Option.some.injEq] at hold
    subst hold
    simp [hobject, hid]
  · have hother : row.log.id ≠ log.id := by
      intro hid
      have := (h.index log.id reference).mpr ⟨href, row.log, hobject, hid⟩
      rw [hexisting, Option.some.injEq] at this
      exact hsame this.symm
    simp [hsame, hobject, hother]

/-- An update in place keeps the table and memory together. -/
theorem Mirrors.updateBoth (h : Mirrors table m)
    (hexisting : m.requestLogsById log.id = some existing) : Mirrors (updateRow table log)
      { m with objects := Function.update m.objects existing (some log) } := by
  obtain ⟨hmem, old, hold, hid⟩ := (h.index log.id existing).mp hexisting
  constructor
  · exact h.ordered.updateRow log
  · exact h.update_object hexisting
  · exact h.fresh
  · intro id reference
    rw [h.index id reference]
    by_cases hsame : reference = existing
    · subst hsame
      simp [hold, hid]
    · simp [hsame]

/-- A new object keeps the table and memory together. -/
theorem Mirrors.addBoth (h : Mirrors table m) (hnone : m.requestLogsById log.id = none) :
    Mirrors (⟨log.id, nextOrdinal table, log.payload⟩ :: table) { m with
      objects := Function.update m.objects m.nextObject (some log)
      nextObject := m.nextObject + 1
      requestLogsById := Function.update m.requestLogsById log.id (some m.nextObject)
      requestLogs := m.nextObject :: m.requestLogs } := by
  have habsent : log.id ∉ table.map Row.id := (h.index_isNone log.id).mp hnone
  have hold : ∀ reference ∈ m.requestLogs,
      Function.update m.objects m.nextObject (some log) reference = m.objects reference := by
    intro reference href
    have := h.fresh reference href
    exact Function.update_of_ne (by omega) _ _
  constructor
  · constructor
    · exact List.pairwise_cons.mpr ⟨fun row hrow => nextOrdinal_lt hrow, h.ordered.sorted⟩
    · exact List.nodup_cons.mpr ⟨habsent, h.ordered.ids⟩
  · have htail : m.requestLogs.map (Function.update m.objects m.nextObject (some log)) =
        table.map fun row => some row.log := by
      rw [← h.rows]
      exact List.map_congr_left hold
    simp [htail, Row.log]
  · intro reference href
    rcases List.mem_cons.mp href with rfl | href
    · exact Nat.lt_succ_self _
    · have := h.fresh reference href
      exact Nat.lt_succ_of_lt this
  · intro id reference
    by_cases hid : id = log.id
    · subst hid
      have hunique : ∀ r ∈ m.requestLogs, ¬∃ found, m.objects r = some found ∧ found.id = log.id := by
        intro r hr hfound
        have := (h.index log.id r).mpr ⟨hr, hfound⟩
        rw [hnone] at this
        cases this
      simp only [Function.update_self, Option.some.injEq, List.mem_cons]
      constructor
      · rintro rfl
        exact ⟨.inl rfl, log, by simp, rfl⟩
      · rintro ⟨rfl | href, found, hfound, hsame⟩
        · rfl
        · rw [hold reference href] at hfound
          exact absurd ⟨found, hfound, hsame⟩ (hunique reference href)
    · dsimp only
      rw [Function.update_of_ne hid, h.index id reference]
      constructor
      · rintro ⟨href, found, hfound, hsame⟩
        exact ⟨List.mem_cons_of_mem _ href, found, by rw [hold reference href, hfound], hsame⟩
      · rintro ⟨href, found, hfound, hsame⟩
        rcases List.mem_cons.mp href with rfl | href
        · rw [Function.update_self, Option.some.injEq] at hfound
          exact absurd (hsame.symm.trans (congrArg Log.id hfound.symm)) hid
        · exact ⟨href, found, by rw [← hold reference href, hfound], hsame⟩

theorem Mirrors.insert {m : Memory P} (h : Mirrors table m) (log : Log P) :
    Mirrors (upsertRow table log) (insertLog m log) := by
  have hindex := h.index_isNone log.id
  unfold insertLog upsertRow
  cases hfound : m.requestLogsById log.id with
  | some existing =>
      have hany : (table.any fun row => row.id = log.id) = true := by
        rw [hfound] at hindex
        simpa using hindex
      rw [if_pos hany]
      exact h.updateBoth hfound
  | none =>
      have hany : ¬(table.any fun row => row.id = log.id) = true := by
        rw [hfound] at hindex
        simpa using hindex
      rw [if_neg hany]
      exact h.addBoth hfound

theorem Mirrors.insertAll (h : Mirrors table m) (logs : List (Log P)) :
    Mirrors (logs.foldl upsertRow table) (logs.foldl insertLog m) := by
  induction logs generalizing table m with
  | nil => exact h
  | cons log logs ih => exact ih (h.insert log)

/-! ## Pruning -/

theorem forget_eq (m : Memory P) (removed : Nat) :
    forget m removed = { m with requestLogsById := (forget m removed).requestLogsById } := by
  unfold forget
  split
  · rfl
  · split <;> rfl

theorem foldl_forget_eq (m : Memory P) (removed : List Nat) :
    removed.foldl forget m =
      { m with requestLogsById := (removed.foldl forget m).requestLogsById } := by
  induction removed generalizing m with
  | nil => rfl
  | cons reference removed ih =>
      rw [List.foldl_cons, ih, forget_eq]

/-- What the index still holds of the objects that are removed. -/
theorem forget_index {m : Memory P}
    (h : ∀ id reference, m.requestLogsById id = some reference →
      ∃ log, m.objects reference = some log ∧ log.id = id) (removed : Nat) (id : JsString)
    (reference : Nat) :
    (forget m removed).requestLogsById id = some reference ↔
      m.requestLogsById id = some reference ∧ reference ≠ removed := by
  unfold forget
  split
  · next hnone =>
    constructor
    · intro hindex
      obtain ⟨log, hlog, -⟩ := h id reference hindex
      refine ⟨hindex, ?_⟩
      rintro rfl
      rw [hnone] at hlog
      cases hlog
    · exact And.left
  · next log hlog =>
    split
    · next hindexed =>
      by_cases hid : id = log.id
      · subst hid
        simp only [Function.update_self, hindexed, Option.some.injEq]
        grind
      · simp only [Function.update_of_ne hid]
        constructor
        · intro hindex
          obtain ⟨found, hfound, hsame⟩ := h id reference hindex
          refine ⟨hindex, ?_⟩
          rintro rfl
          rw [hlog, Option.some.injEq] at hfound
          exact hid (hsame.symm.trans (congrArg Log.id hfound.symm))
        · exact And.left
    · next hnot =>
      constructor
      · intro hindex
        obtain ⟨found, hfound, hsame⟩ := h id reference hindex
        refine ⟨hindex, ?_⟩
        rintro rfl
        rw [hlog, Option.some.injEq] at hfound
        subst hfound
        exact hnot (hsame ▸ hindex)
      · exact And.left

theorem foldl_forget_index {m : Memory P}
    (h : ∀ id reference, m.requestLogsById id = some reference →
      ∃ log, m.objects reference = some log ∧ log.id = id) (removed : List Nat) (id : JsString)
    (reference : Nat) :
    (removed.foldl forget m).requestLogsById id = some reference ↔
      m.requestLogsById id = some reference ∧ reference ∉ removed := by
  induction removed generalizing m with
  | nil => simp
  | cons first removed ih =>
      have hobjects : (forget m first).objects = m.objects := by rw [forget_eq]
      have hnext : ∀ id reference, (forget m first).requestLogsById id = some reference →
          ∃ log, (forget m first).objects reference = some log ∧ log.id = id := by
        intro id reference hindex
        rw [hobjects]
        exact h id reference ((forget_index h first id reference).mp hindex).1
      rw [List.foldl_cons, ih hnext, forget_index h]
      simp only [List.mem_cons, not_or, and_assoc]

theorem Mirrors.nodup (h : Mirrors table m) : m.requestLogs.Nodup := by
  have hlogs : (m.requestLogs.map m.objects).Nodup := by
    rw [h.rows]
    apply List.Nodup.of_map (Option.map Log.id)
    rw [List.map_map]
    have : (table.map Row.id).map some = table.map (Option.map Log.id ∘ fun row => some row.log) := by
      simp [Row.log]
    rw [← this]
    exact h.ordered.ids.map (Option.some_injective _)
  exact List.Nodup.of_map _ hlogs

/-- Pruning the array and the table at one place keeps them together. -/
theorem Mirrors.splice (h : Mirrors table m) (retainedRows : RowLimit) :
    Mirrors (table.take (retainedRows.spliceStart m.requestLogs.length))
      (spliceLogs m retainedRows) := by
  generalize hstart : retainedRows.spliceStart m.requestLogs.length = start
  unfold spliceLogs
  rw [hstart, foldl_forget_eq]
  have hparts := List.take_append_drop start m.requestLogs
  have hnodup := h.nodup
  rw [← hparts, List.nodup_append'] at hnodup
  constructor
  · exact h.ordered.take start
  · dsimp only
    rw [List.map_take, h.rows, List.map_take]
  · exact fun reference href => h.fresh reference (List.mem_of_mem_take href)
  · intro id reference
    dsimp only
    have hobjects : ∀ id reference, m.requestLogsById id = some reference →
        ∃ log, m.objects reference = some log ∧ log.id = id :=
      fun id reference hindex => ((h.index id reference).mp hindex).2
    have hforgotten := @foldl_forget_index P { m with requestLogs := m.requestLogs.take start }
      hobjects (m.requestLogs.drop start) id reference
    rw [hforgotten]
    dsimp only
    rw [h.index]
    constructor
    · rintro ⟨⟨href, hlog⟩, hkept⟩
      rw [← hparts, List.mem_append] at href
      exact ⟨href.resolve_right hkept, hlog⟩
    · rintro ⟨href, hlog⟩
      exact ⟨⟨List.mem_of_mem_take href, hlog⟩, fun hdropped => hnodup.2.2 href hdropped⟩

/-! ## Limits -/

theorem RowLimit.isCount_min {a : RowLimit} (ha : a.IsCount) (hb : b.IsCount) :
    (a.min b).IsCount := by
  cases a with
  | nan => exact ha.elim
  | infinity negative =>
      cases negative with
      | true => exact ha.elim
      | false =>
          cases b with
          | nan => exact hb.elim
          | infinity negative =>
              cases negative with
              | true => exact hb.elim
              | false => trivial
          | finite q => exact hb
  | finite p =>
      cases b with
      | nan => exact hb.elim
      | infinity negative =>
          cases negative with
          | true => exact hb.elim
          | false => exact ha
      | finite q =>
          simp only [RowLimit.min, RowLimit.IsCount] at ha hb ⊢
          split <;> assumption

theorem isCount_batchLimit {batch : List (PendingLog P)}
    (h : ∀ entry ∈ batch, entry.maximumRows.IsCount) : (batchLimit batch).IsCount := by
  have hfold : ∀ limit : RowLimit, limit.IsCount →
      (batch.foldl (fun limit entry => limit.min entry.maximumRows) limit).IsCount := by
    induction batch with
    | nil => exact fun _ => id
    | cons entry batch ih =>
        intro limit hlimit
        exact ih (fun e he => h e (List.mem_cons_of_mem _ he)) _
          (RowLimit.isCount_min hlimit (h entry List.mem_cons_self))
  exact hfold (.infinity false) trivial

theorem RowLimit.isExceededBy_of_le {limit : RowLimit} (hle : count ≤ count')
    (h : limit.isExceededBy count' = false) : limit.isExceededBy count = false := by
  cases limit with
  | nan => rfl
  | infinity negative =>
      cases negative with
      | true => cases h
      | false => rfl
  | finite q =>
      have hq : (count' : ℚ) ≤ q := by simpa [RowLimit.isExceededBy] using h
      have hcount : (count : ℚ) ≤ count' := by exact_mod_cast hle
      simpa [RowLimit.isExceededBy] using hcount.trans hq

/-- The statement prunes where `splice` does. -/
theorem RowLimit.spliceStart_of_isCount {limit : RowLimit} (h : limit.IsCount) (count : Nat) :
    (limit.isExceededBy count = false → limit.spliceStart count = count) ∧
      ∀ offset, limit.isExceededBy count = true → limit.offset? = some offset →
        limit.spliceStart count = offset ∧ limit.isExceededBy offset = false := by
  cases limit with
  | nan => exact h.elim
  | infinity negative =>
      cases negative with
      | true => exact h.elim
      | false => simp [RowLimit.isExceededBy, RowLimit.spliceStart]
  | finite q =>
      simp only [RowLimit.IsCount] at h
      have hfloor : 0 ≤ ⌊q⌋ := Int.floor_nonneg.mpr h
      constructor
      · intro hnot
        have hle : (count : ℚ) ≤ q := by simpa [RowLimit.isExceededBy] using hnot
        have hcount : (count : Int) ≤ ⌊q⌋ := Int.le_floor.mpr (by exact_mod_cast hle)
        simp only [RowLimit.spliceStart, if_pos h]
        rw [if_neg (by omega)]
        omega
      · intro offset hexceeds hoffset
        simp only [RowLimit.offset?] at hoffset
        split at hoffset
        · next hinteger =>
          injection hoffset with hoffset
          subst hoffset
          have hq : (q.num : ℚ) = q := Rat.coe_int_num_of_den_eq_one hinteger.1
          have hnum : 0 ≤ q.num := Rat.num_nonneg.mpr h
          have hlt : q < count := by simpa [RowLimit.isExceededBy] using hexceeds
          have hfloor' : ⌊q⌋ = q.num := by
            rw [← hq]
            simp
          have hcount : q.num < count := by
            rw [← hq] at hlt
            exact_mod_cast hlt
          constructor
          · simp only [RowLimit.spliceStart, if_pos h, hfloor']
            rw [if_neg (by omega)]
            omega
          · have htoNat : ((q.num.toNat : Nat) : ℚ) = q := by
              have : ((q.num.toNat : Int) : ℚ) = q := by rw [Int.toNat_of_nonneg hnum, hq]
              exact_mod_cast this
            simp [RowLimit.isExceededBy, htoNat]
        · cases hoffset

/-! ## A flush -/

theorem map_id_upsertRow (table : List (Row P)) (log : Log P) :
    (upsertRow table log).map Row.id =
      if log.id ∈ table.map Row.id then table.map Row.id else log.id :: table.map Row.id := by
  have hany : (table.any fun row => row.id = log.id) = true ↔ log.id ∈ table.map Row.id := by
    simp
  unfold upsertRow
  by_cases h : log.id ∈ table.map Row.id
  · rw [if_pos h, if_pos (hany.mpr h), map_id_updateRow]
  · rw [if_neg h, if_neg (mt hany.mp h)]
    rfl

/-- A batch inserts a row for each of its ids that has none. -/
theorem length_foldl_upsertRow {logs : List (Log P)} (hnodup : (logs.map Log.id).Nodup)
    (table : List (Row P)) :
    (logs.foldl upsertRow table).length =
      table.length + (logs.filter fun log => log.id ∉ table.map Row.id).length := by
  induction logs generalizing table with
  | nil => rfl
  | cons log logs ih =>
      rw [List.map_cons, List.nodup_cons] at hnodup
      have hlength : (upsertRow table log).length = ((upsertRow table log).map Row.id).length := by
        simp
      rw [List.foldl_cons, ih hnodup.2, hlength, map_id_upsertRow]
      by_cases hmem : log.id ∈ table.map Row.id
      · rw [if_pos hmem, List.filter_cons, if_neg (by simpa using hmem)]
        simp
      · have hsame : logs.filter (fun other => decide (other.id ∉ log.id :: table.map Row.id)) =
            logs.filter fun other => decide (other.id ∉ table.map Row.id) := by
          apply List.filter_congr
          intro other hother
          have hne : other.id ≠ log.id := by
            intro heq
            exact hnodup.1 (heq ▸ List.mem_map_of_mem hother)
          simp [hne]
        rw [if_neg hmem, hsame, List.filter_cons, if_pos (by simpa using hmem)]
        simp only [List.length_cons, List.length_map]
        omega

/-- A flush that commits inserts its batch and keeps the newest rows, on both sides. -/
theorem Mirrors.flush (h : Mirrors table m) {logs : List (Log P)}
    (hnodup : (logs.map Log.id).Nodup) (hlimit : limit.IsCount)
    (hflush : flushTable table m logs limit = some flushed) :
    Mirrors flushed (flushMemory m logs limit) ∧ limit.isExceededBy flushed.length = false ∧
      flushed = (logs.foldl upsertRow table).take
        (limit.spliceStart (logs.foldl upsertRow table).length) := by
  have hall := h.insertAll logs
  have hcombined : (logs.foldl insertLog m) =
      { (absorbAll m [] logs).1 with requestLogs := (absorbAll m [] logs).2 ++ m.requestLogs } :=
    (absorbAll_combined m [] logs).symm
  have hmemory : flushMemory m logs limit = spliceLogs (logs.foldl insertLog m) limit := by
    rw [hcombined]
    rfl
  have hcount : m.requestLogs.length +
      (logs.filter fun log => (m.requestLogsById log.id).isNone).length =
        (logs.foldl upsertRow table).length := by
    rw [length_foldl_upsertRow hnodup, h.length]
    congr 2
    apply List.filter_congr
    intro log _
    have := h.index_isNone log.id
    rw [← Option.isNone_iff_eq_none] at this
    exact Bool.eq_iff_iff.mpr (by simpa using this)
  have hsplice := hall.splice limit
  rw [← hmemory, hall.length] at hsplice
  have hprune := RowLimit.spliceStart_of_isCount hlimit (logs.foldl upsertRow table).length
  unfold flushTable at hflush
  dsimp only at hflush
  rw [hcount] at hflush
  split at hflush
  · next hexceeds =>
    obtain ⟨offset, hoffset, hdelete⟩ := Option.map_eq_some_iff.mp hflush
    obtain ⟨hstart, hwithin⟩ := hprune.2 offset hexceeds hoffset
    rw [hall.ordered.deleteBeyond] at hdelete
    rw [hstart] at hsplice ⊢
    have hlength : flushed.length ≤ offset := by
      rw [← hdelete, List.length_take]
      omega
    exact ⟨hdelete ▸ hsplice, RowLimit.isExceededBy_of_le hlength hwithin, hdelete.symm⟩
  · next hexceeds =>
    injection hflush with hflush
    have hstart := hprune.1 (by simpa using hexceeds)
    rw [hstart, List.take_length] at hsplice
    rw [hstart, List.take_length]
    exact ⟨hflush ▸ hsplice, by rw [← hflush]; simpa using hexceeds, hflush.symm⟩

/-! ## The other writes -/

theorem updateRow_of_absent (h : log.id ∉ table.map Row.id) : updateRow table log = table := by
  unfold updateRow
  conv_rhs => rw [← List.map_id table]
  apply List.map_congr_left
  intro row hrow
  have hne : row.id ≠ log.id := fun heq => h (heq ▸ List.mem_map_of_mem hrow)
  simp [hne]

theorem Mirrors.replace (h : Mirrors table m) (log : Log P) :
    Mirrors (updateRow table log) (replaceObject m log) := by
  unfold replaceObject
  cases hindex : m.requestLogsById log.id with
  | some existing => exact h.updateBoth hindex
  | none =>
      rw [updateRow_of_absent ((h.index_isNone log.id).mp hindex)]
      exact h

theorem Mirrors.replaceAll (h : Mirrors table m) (logs : List (Log P)) :
    Mirrors (logs.foldl updateRow table) (logs.foldl replaceObject m) := by
  induction logs generalizing table m with
  | nil => exact h
  | cons log logs ih => exact ih (h.replace log)

theorem length_foldl_updateRow (table : List (Row P)) (logs : List (Log P)) :
    (logs.foldl updateRow table).length = table.length := by
  induction logs generalizing table with
  | nil => rfl
  | cons log logs ih =>
      rw [List.foldl_cons, ih]
      simp [updateRow]

theorem mirrors_clear (m : Memory P) :
    Mirrors [] { m with
      requestLogs := []
      requestLogsById := fun _ => none } := by
  constructor
  · exact ⟨List.Pairwise.nil, List.nodup_nil⟩
  · rfl
  · simp
  · simp

/-- New objects for all rows of a table. -/
theorem mirrors_ofLogs (h : Ordered table) (objects : Nat → Option (Log P)) (first : Nat) :
    Mirrors table (.ofLogs objects first (table.map Row.log)) := by
  have hobject : ∀ i (hi : i < table.length),
      (Memory.ofLogs objects first (table.map Row.log)).objects (first + i) = some table[i].log := by
    intro i hi
    simp [Memory.ofLogs, hi]
  constructor
  · exact h
  · apply List.ext_getElem
    · simp [Memory.ofLogs]
    · intro i hi hi'
      have hlt : i < table.length := by simpa using hi'
      have := hobject i hlt
      simpa [Memory.ofLogs] using this
  · intro reference href
    simp only [Memory.ofLogs, List.length_map, List.mem_range'_1] at href ⊢
    omega
  · intro id reference
    have hfind : (Memory.ofLogs objects first (table.map Row.log)).requestLogsById id = some reference ↔
        ∃ i, ((table.map Row.log).findIdx? fun log => log.id = id) = some i ∧ first + i = reference := by
      simp [Memory.ofLogs, Option.map_eq_some_iff]
    rw [hfind]
    constructor
    · rintro ⟨i, hi, rfl⟩
      obtain ⟨hlt, hid, -⟩ := List.findIdx?_eq_some_iff_getElem.mp hi
      have hlt' : i < table.length := by simpa using hlt
      have hmem : first + i ∈ (Memory.ofLogs objects first (table.map Row.log)).requestLogs := by
        simp only [Memory.ofLogs, List.length_map, List.mem_range'_1]
        omega
      exact ⟨hmem, _, hobject i hlt', by simpa using hid⟩
    · rintro ⟨hmem, log, hlog, rfl⟩
      simp only [Memory.ofLogs, List.length_map, List.mem_range'_1] at hmem
      obtain ⟨i, rfl⟩ := Nat.exists_eq_add_of_le hmem.1
      have hlt : i < table.length := by omega
      rw [hobject i hlt, Option.some.injEq] at hlog
      subst hlog
      refine ⟨i, List.findIdx?_eq_some_iff_getElem.mpr ⟨by simpa using hlt, by simp, ?_⟩, rfl⟩
      intro j hj
      have hne : table[j].id ≠ table[i].id := by
        have := List.pairwise_iff_getElem.mp h.ids j i (by simp; omega) (by simpa using hlt) hj
        simpa using this
      simpa [Row.log] using hne

/-! ## Runs -/

/-- The store between two steps. -/
structure Inv (s : Store P L) : Prop where
  mirrors : Mirrors s.table s.memory
  pending : ∀ e ∈ s.pendingRequestLogs.entries, e.2.log.id = e.1 ∧ e.2.maximumRows.IsCount
  retained : ∀ limit, s.retainedRows = some limit → limit.isExceededBy s.table.length = false

/-- An append whose limit is not negative. -/
def LimitOk : Event P → Prop
  | .appendRequestLog _ maximumRows => maximumRows.IsCount
  | _ => True

instance : DecidablePred (LimitOk : Event P → Prop)
  | .appendRequestLog _ maximumRows => inferInstanceAs (Decidable maximumRows.IsCount)
  | .call _ | .run _ | .rearm => .isTrue trivial

variable {s : Store P L}

theorem Inv.congr {s' : Store P L} (h : Inv s) (htable : s'.table = s.table)
    (hmemory : s'.memory = s.memory) (hpending : s'.pendingRequestLogs = s.pendingRequestLogs)
    (hretained : s'.retainedRows = s.retainedRows) : Inv s' := by
  constructor
  · rw [htable, hmemory]
    exact h.mirrors
  · rw [hpending]
    exact h.pending
  · rw [hretained, htable]
    exact h.retained

theorem Inv.scheduleRequestLogFlush (h : Inv s) : Inv (RequestLogs.scheduleRequestLogFlush s) := by
  unfold RequestLogs.scheduleRequestLogFlush
  split
  · exact h
  · exact h.congr rfl rfl rfl rfl

theorem Inv.appendRequestLog (h : Inv s) (log : Log P) (hlimit : maximumRows.IsCount) :
    Inv (RequestLogs.appendRequestLog s log maximumRows) := by
  apply Inv.scheduleRequestLogFlush
  constructor
  · exact h.mirrors
  · intro e he
    rcases JsMap.mem_setEntries he with rfl | he
    · dsimp only
      split
      · next pending hpending =>
        have hmem := JsMap.get?_eq_some_iff.mp hpending
        exact ⟨rfl, RowLimit.isCount_min (h.pending _ hmem).2 hlimit⟩
      · exact ⟨rfl, hlimit⟩
    · exact h.pending e he
  · exact h.retained

theorem Inv.rearmFlush (h : Inv s) : Inv (RequestLogs.rearmFlush s) := by
  have hdown : Inv { s with requestLogFlushScheduled := false } := h.congr rfl rfl rfl rfl
  unfold RequestLogs.rearmFlush
  split
  · dsimp only
    split
    · exact hdown.scheduleRequestLogFlush
    · exact hdown
  · exact h

/-- The logs of a batch have the ids they are kept under. -/
theorem Inv.batch_ids (h : Inv s) :
    (s.pendingRequestLogs.values.map PendingLog.log).map Log.id = s.pendingRequestLogs.keys := by
  rw [JsMap.values, JsMap.keys, List.map_map, List.map_map]
  apply List.map_congr_left
  intro e he
  exact (h.pending e he).1

theorem Inv.batch_limit (h : Inv s) : (batchLimit s.pendingRequestLogs.values).IsCount := by
  apply isCount_batchLimit
  intro entry hentry
  obtain ⟨e, he, rfl⟩ := List.mem_map.mp hentry
  exact (h.pending e he).2

variable {accounting : Accounting P L}

theorem Inv.commitFlush (h : Inv s) (hnodup : ((batch.map PendingLog.log).map Log.id).Nodup)
    (hlimit : (batchLimit batch).IsCount)
    (hflush : flushTable s.table s.memory (batch.map PendingLog.log) (batchLimit batch) = some table) :
    Inv (RequestLogs.commitFlush accounting s batch table) := by
  obtain ⟨hmirrors, hwithin, -⟩ := h.mirrors.flush hnodup hlimit hflush
  constructor
  · exact hmirrors
  · exact h.pending
  · intro limit hretained
    cases hretained
    exact hwithin

theorem Inv.runFlush (h : Inv s) (succeeds : Bool) :
    Inv (RequestLogs.runFlush accounting s succeeds) := by
  have hnone : ∀ e ∈ (∅ : JsMap JsString (PendingLog P)).entries,
      e.2.log.id = e.1 ∧ e.2.maximumRows.IsCount := by
    simp [show (∅ : JsMap JsString (PendingLog P)).entries = [] from rfl]
  have htaken : Inv { s with pendingRequestLogs := ∅ } := ⟨h.mirrors, hnone, h.retained⟩
  have hids := h.batch_ids
  have hnodup := s.pendingRequestLogs.nodup_keys
  rw [← hids] at hnodup
  unfold RequestLogs.runFlush
  dsimp only
  split
  · exact htaken
  · cases succeeds with
    | false => exact htaken.congr rfl rfl rfl rfl
    | true =>
        simp only [if_true]
        split
        · next table hflush => exact htaken.commitFlush hnodup h.batch_limit hflush
        · exact htaken.congr rfl rfl rfl rfl

theorem Inv.runWrite (h : Inv s) (promise : Nat) (succeeds : Bool) (write : Write P) :
    Inv (RequestLogs.runWrite accounting s promise succeeds write) := by
  have hsettled : ∀ settlement, Inv (s.settle [promise] settlement) :=
    fun _ => h.congr rfl rfl rfl rfl
  cases write with
  | clearRequestLogs trackedIds =>
      simp only [RequestLogs.runWrite]
      split
      · have hlength : ∀ limit, s.retainedRows = some limit →
            limit.isExceededBy ([] : List (Row P)).length = false :=
          fun limit hretained =>
            RowLimit.isExceededBy_of_le (Nat.zero_le _) (h.retained limit hretained)
        exact ⟨mirrors_clear s.memory, h.pending, hlength⟩
      · exact hsettled _
  | replaceLifetimeRequestLogContribution next previous =>
      simp only [RequestLogs.runWrite]
      split
      · exact h.congr rfl rfl rfl rfl
      · exact hsettled _
  | updateRequestLogs transform =>
      simp only [RequestLogs.runWrite]
      split
      · next replaced _ =>
        split
        · unfold commitUpdate
          split
          · exact hsettled _
          · refine ⟨h.mirrors.replaceAll replaced, h.pending, ?_⟩
            intro limit hretained
            have hlength := length_foldl_updateRow s.table replaced
            have hwithin := h.retained limit hretained
            rw [← hlength] at hwithin
            exact hwithin
        · exact hsettled _
      · exact hsettled _
  | mutate mutator =>
      simp only [RequestLogs.runWrite]
      split
      · split
        · next logs _ table htable =>
          obtain ⟨hordered, hlogs⟩ := replaceJsonRows_eq_some htable
          refine ⟨?_, h.pending, ?_⟩
          · have := mirrors_ofLogs hordered s.memory.objects s.memory.nextObject
            rw [hlogs] at this
            exact this
          · rintro limit ⟨⟩
        · exact hsettled _
      · exact hsettled _
  | other => exact hsettled _

theorem Inv.step (h : Inv s) (hlimit : LimitOk event) : Inv (step accounting s event) := by
  cases event with
  | appendRequestLog log maximumRows => exact h.appendRequestLog log hlimit
  | call write => exact h.congr rfl rfl rfl rfl
  | rearm => exact h.rearmFlush
  | run succeeds =>
      have hchain : ∀ chain, Inv { s with chain } := fun _ => h.congr rfl rfl rfl rfl
      simp only [RequestLogs.step, runFirst]
      split
      · exact h
      · exact (hchain _).runFlush succeeds
      · exact (hchain _).runWrite _ succeeds _

theorem inv_load (h : Ordered table) (ledger : L) : Inv (.load table ledger) := by
  refine ⟨?_, ?_, ?_⟩
  · simp only [Store.load, h.inOrder]
    exact mirrors_ofLogs h (fun _ => none) 0
  · simp [Store.load, show (∅ : JsMap JsString (PendingLog P)).entries = [] from rfl]
  · rintro limit ⟨⟩

/-! ## The promises of the appends -/

/-- An append that is resolved has been written, or a newer one of its id has. -/
structure Answers (s : Store P L) : Prop where
  pending : ∀ e ∈ s.pendingRequestLogs.entries, s.appended e.2.version = some e.2.log ∧
    e.2.log.id = e.1 ∧ ∀ call ∈ e.2.completions, call ≤ e.2.version ∧
      ∃ log, s.appended call = some log ∧ log.id = e.1
  chain : ∀ promise write, (promise, .write write) ∈ s.chain →
    s.appended promise = none ∧ promise < s.nextPromise
  fresh : ∀ call, s.nextPromise ≤ call → s.appended call = none ∧ s.settled call = none
  answered : ∀ call log, s.appended call = some log → s.settled call = some .resolved →
    ∃ version ∈ s.written, call ≤ version ∧
      ∃ newer, s.appended version = some newer ∧ newer.id = log.id

theorem Answers.enqueue (h : Answers s) (operation : Operation P) :
    Answers (s.enqueue operation) := by
  constructor
  · exact h.pending
  · intro promise write hmem
    simp only [Store.enqueue, List.mem_append, List.mem_singleton, Prod.mk.injEq] at hmem ⊢
    rcases hmem with hmem | ⟨rfl, -⟩
    · have := h.chain promise write hmem
      exact ⟨this.1, by omega⟩
    · exact ⟨(h.fresh _ le_rfl).1, by omega⟩
  · intro call hcall
    simp only [Store.enqueue] at hcall ⊢
    exact h.fresh call (by omega)
  · exact h.answered

theorem Answers.scheduleRequestLogFlush (h : Answers s) :
    Answers (RequestLogs.scheduleRequestLogFlush s) := by
  unfold RequestLogs.scheduleRequestLogFlush
  split
  · exact h
  · have henqueued := h.enqueue .flush
    exact ⟨henqueued.pending, henqueued.chain, henqueued.fresh, henqueued.answered⟩

theorem Answers.appendRequestLog (h : Answers s) (log : Log P) (maximumRows : RowLimit) :
    Answers (RequestLogs.appendRequestLog s log maximumRows) := by
  have hnew := h.fresh s.nextPromise le_rfl
  have hold : ∀ call found, s.appended call = some found →
      Function.update s.appended s.nextPromise (some log) call = some found := by
    intro call found hfound
    have hne : call ≠ s.nextPromise := by
      rintro rfl
      rw [hnew.1] at hfound
      cases hfound
    rwa [Function.update_of_ne hne]
  apply Answers.scheduleRequestLogFlush
  constructor
  · intro e he
    rcases JsMap.mem_setEntries he with rfl | he
    · dsimp only
      split
      · next pending hpending =>
        obtain ⟨hversion, hid, hcalls⟩ := h.pending _ (JsMap.get?_eq_some_iff.mp hpending)
        refine ⟨Function.update_self .., rfl, ?_⟩
        intro call hcall
        rcases List.mem_append.mp hcall with hcall | hcall
        · obtain ⟨hle, found, hfound, hsame⟩ := hcalls call hcall
          have hlt : call < s.nextPromise := by
            by_contra hnot
            rw [(h.fresh call (by omega)).1] at hfound
            cases hfound
          exact ⟨by dsimp only; omega, found, hold call found hfound, hsame⟩
        · rw [List.mem_singleton] at hcall
          subst hcall
          exact ⟨le_rfl, log, Function.update_self .., rfl⟩
      · refine ⟨Function.update_self .., rfl, ?_⟩
        intro call hcall
        rw [List.mem_singleton] at hcall
        subst hcall
        exact ⟨le_rfl, log, Function.update_self .., rfl⟩
    · obtain ⟨hversion, hid, hcalls⟩ := h.pending e he
      refine ⟨hold _ _ hversion, hid, ?_⟩
      intro call hcall
      obtain ⟨hle, found, hfound, hsame⟩ := hcalls call hcall
      exact ⟨hle, found, hold call found hfound, hsame⟩
  · intro promise write hmem
    have := h.chain promise write hmem
    have hne : promise ≠ s.nextPromise := by omega
    exact ⟨by simp only [Function.update_of_ne hne]; exact this.1, by dsimp only; omega⟩
  · intro call hcall
    dsimp only at hcall ⊢
    have hne : call ≠ s.nextPromise := by omega
    rw [Function.update_of_ne hne]
    exact h.fresh call (by omega)
  · intro call found hfound hresolved
    dsimp only at hfound hresolved ⊢
    have hne : call ≠ s.nextPromise := by
      rintro rfl
      rw [hnew.2] at hresolved
      cases hresolved
    rw [Function.update_of_ne hne] at hfound
    obtain ⟨version, hwritten, hle, newer, hnewer, hsame⟩ := h.answered call found hfound hresolved
    exact ⟨version, hwritten, hle, newer, hold version newer hnewer, hsame⟩

theorem Answers.rearmFlush (h : Answers s) : Answers (RequestLogs.rearmFlush s) := by
  have hdown : Answers { s with requestLogFlushScheduled := false } :=
    ⟨h.pending, h.chain, h.fresh, h.answered⟩
  unfold RequestLogs.rearmFlush
  split
  · dsimp only
    split
    · exact hdown.scheduleRequestLogFlush
    · exact hdown
  · exact h

/-- A step that leaves the appends alone. -/
theorem Answers.congr {s' : Store P L} (h : Answers s)
    (hpending : s'.pendingRequestLogs = s.pendingRequestLogs) (hchain : s'.chain = s.chain)
    (hnext : s'.nextPromise = s.nextPromise) (happended : s'.appended = s.appended)
    (hsettled : s'.settled = s.settled) (hwritten : s'.written = s.written) : Answers s' := by
  constructor
  · rw [hpending, happended]
    exact h.pending
  · rw [hchain, happended, hnext]
    exact h.chain
  · rw [hnext, happended, hsettled]
    exact h.fresh
  · rw [happended, hsettled, hwritten]
    exact h.answered

/-- Promises are settled that are not resolved appends, or have been written. -/
theorem Answers.settle (h : Answers s) {settlement : Settlement P}
    (hlt : ∀ promise ∈ promises, promise < s.nextPromise)
    (hanswered : ∀ call ∈ promises, ∀ log, s.appended call = some log → settlement = .resolved →
      ∃ version ∈ s.written, call ≤ version ∧
        ∃ newer, s.appended version = some newer ∧ newer.id = log.id) :
    Answers (s.settle promises settlement) := by
  constructor
  · exact h.pending
  · exact h.chain
  · intro call hcall
    have hnot : call ∉ promises := by
      intro hmem
      have hbound : call < s.nextPromise := hlt call hmem
      have hstill : s.nextPromise ≤ call := hcall
      omega
    have := h.fresh call hcall
    exact ⟨this.1, by simpa [Store.settle, hnot] using this.2⟩
  · intro call log happended hresolved
    by_cases hmem : call ∈ promises
    · have hsettlement : some settlement = some .resolved := by
        simpa [Store.settle, hmem] using hresolved
      exact hanswered call hmem log happended (Option.some.inj hsettlement)
    · have hbefore : s.settled call = some .resolved := by
        simpa [Store.settle, hmem] using hresolved
      exact h.answered call log happended hbefore

/-- The calls of a batch. -/
theorem Answers.batch (h : Answers s)
    (hcall : call ∈ s.pendingRequestLogs.values.flatMap PendingLog.completions) :
    ∃ entry ∈ s.pendingRequestLogs.values, call ≤ entry.version ∧
      s.appended entry.version = some entry.log ∧
      ∃ log, s.appended call = some log ∧ log.id = entry.log.id := by
  obtain ⟨entry, hentry, hmem⟩ := List.mem_flatMap.mp hcall
  obtain ⟨e, he, rfl⟩ := List.mem_map.mp hentry
  obtain ⟨hversion, hid, hcalls⟩ := h.pending e he
  obtain ⟨hle, log, hlog, hsame⟩ := hcalls call hmem
  exact ⟨e.2, hentry, hle, hversion, log, hlog, hsame.trans hid.symm⟩

theorem Answers.runFlush (h : Answers s) (succeeds : Bool) :
    Answers (RequestLogs.runFlush accounting s succeeds) := by
  have htaken : Answers { s with pendingRequestLogs := ∅ } :=
    ⟨by simp [show (∅ : JsMap JsString (PendingLog P)).entries = [] from rfl], h.chain, h.fresh, h.answered⟩
  have hlt : ∀ call ∈ s.pendingRequestLogs.values.flatMap PendingLog.completions, call < s.nextPromise := by
    intro call hcall
    obtain ⟨_, _, _, _, log, hlog, _⟩ := h.batch hcall
    by_contra hnot
    rw [(h.fresh call (by omega)).1] at hlog
    cases hlog
  have hrejected : Answers (Store.settle { s with pendingRequestLogs := ∅ }
      (s.pendingRequestLogs.values.flatMap PendingLog.completions) .rejected) :=
    htaken.settle hlt fun _ _ _ _ hresolved => by cases hresolved
  unfold RequestLogs.runFlush
  dsimp only
  split
  · exact htaken
  · cases succeeds with
    | false => exact hrejected
    | true =>
        simp only [if_true]
        split
        · next table _ =>
          apply Answers.settle
          · refine ⟨htaken.pending, htaken.chain, htaken.fresh, ?_⟩
            intro call log happended hresolved
            obtain ⟨version, hwritten, hrest⟩ := h.answered call log happended hresolved
            exact ⟨version, List.mem_append_left _ hwritten, hrest⟩
          · exact hlt
          · intro call hcall log hlog _
            obtain ⟨entry, hentry, hle, hversion, found, hfound, hsame⟩ := h.batch hcall
            have hfoundLog : log = found := Option.some.inj (hlog.symm.trans hfound)
            exact ⟨entry.version, List.mem_append_right _ (List.mem_map_of_mem hentry), hle,
              entry.log, hversion, by rw [hfoundLog, hsame]⟩
        · exact hrejected

theorem Answers.runWrite (h : Answers s)
    (hpromise : s.appended promise = none ∧ promise < s.nextPromise) (succeeds : Bool)
    (write : Write P) : Answers (RequestLogs.runWrite accounting s promise succeeds write) := by
  have hsettle : ∀ (s' : Store P L) (settlement : Settlement P), Answers s' →
      s'.appended promise = none → promise < s'.nextPromise →
      Answers (s'.settle [promise] settlement) := by
    intro s' settlement h' hnone hlt
    apply h'.settle
    · simpa using hlt
    · intro call hcall log hlog
      rw [List.mem_singleton] at hcall
      subst hcall
      rw [hnone] at hlog
      cases hlog
  have hsame : ∀ s' : Store P L, s'.pendingRequestLogs = s.pendingRequestLogs →
      s'.chain = s.chain → s'.nextPromise = s.nextPromise → s'.appended = s.appended →
      s'.settled = s.settled → s'.written = s.written →
      ∀ settlement, Answers (s'.settle [promise] settlement) := by
    intro s' hpending hchain hnext happended hsettled hwritten settlement
    refine hsettle s' settlement (h.congr hpending hchain hnext happended hsettled hwritten) ?_ ?_
    · rw [happended]
      exact hpromise.1
    · rw [hnext]
      exact hpromise.2
  have hstill := hsame s rfl rfl rfl rfl rfl rfl
  cases write with
  | clearRequestLogs trackedIds =>
      simp only [RequestLogs.runWrite]
      split
      · apply hsame <;> rfl
      · exact hstill _
  | replaceLifetimeRequestLogContribution next previous =>
      simp only [RequestLogs.runWrite]
      split
      · apply hsame <;> rfl
      · exact hstill _
  | updateRequestLogs transform =>
      simp only [RequestLogs.runWrite]
      split
      · split
        · unfold commitUpdate
          split
          · exact hstill _
          · apply hsame <;> rfl
        · exact hstill _
      · exact hstill _
  | mutate mutator =>
      simp only [RequestLogs.runWrite]
      split
      · split
        · apply hsame <;> rfl
        · exact hstill _
      · exact hstill _
  | other => exact hstill _

theorem Answers.step (h : Answers s) (event : Event P) : Answers (step accounting s event) := by
  cases event with
  | appendRequestLog log maximumRows => exact h.appendRequestLog log maximumRows
  | call write => exact h.enqueue _
  | rearm => exact h.rearmFlush
  | run succeeds =>
      have hchain : ∀ first chain, s.chain = first :: chain → Answers { s with chain } := by
        intro first chain heq
        refine ⟨h.pending, ?_, h.fresh, h.answered⟩
        intro promise write hmem
        exact h.chain promise write (by rw [heq]; exact List.mem_cons_of_mem _ hmem)
      simp only [RequestLogs.step, runFirst]
      split
      · exact h
      · next promise chain heq => exact (hchain _ _ heq).runFlush succeeds
      · next promise write chain heq =>
        have hpromise := h.chain promise write (by rw [heq]; exact List.mem_cons_self)
        exact (hchain _ _ heq).runWrite hpromise succeeds write

theorem answers_load (table : List (Row P)) (ledger : L) : Answers (Store.load table ledger) := by
  constructor
  · simp [Store.load, show (∅ : JsMap JsString (PendingLog P)).entries = [] from rfl]
  · simp [Store.load]
  · simp [Store.load]
  · simp [Store.load]

/-! ## The result -/

/-- The rows of the table in order are the logs in memory, newest first and each
id once, and the index has exactly these. -/
structure Agrees (s : Store P L) : Prop where
  rows : (inOrder s.table).map Row.log = s.memory.logs
  nodup : (s.memory.logs.map Log.id).Nodup
  index : ∀ id, s.memory.logById id = s.memory.logs.find? fun log => log.id = id
  retained : ∀ limit, s.retainedRows = some limit → limit.isExceededBy s.memory.logs.length = false

theorem Inv.agrees (h : Inv s) : Agrees s := by
  have hlogs := h.mirrors.logs
  have hids := h.mirrors.ids
  have hnodup : (s.memory.logs.map Log.id).Nodup := by
    rw [hids]
    exact h.mirrors.ordered.ids
  constructor
  · rw [h.mirrors.ordered.inOrder, hlogs]
  · exact hnodup
  · intro id
    cases hfind : s.memory.logs.find? fun log => log.id = id with
    | some log =>
        have hid : log.id = id := by simpa using List.find?_some hfind
        obtain ⟨reference, href, hobject⟩ := List.mem_filterMap.mp (List.mem_of_find?_eq_some hfind)
        have hindex := (h.mirrors.index id reference).mpr ⟨href, log, hobject, hid⟩
        simp [Memory.logById, hindex, hobject]
    | none =>
        have hnone : ∀ log ∈ s.memory.logs, log.id ≠ id := by simpa using hfind
        have hindex : s.memory.requestLogsById id = none := by
          rw [h.mirrors.index_isNone, ← hids]
          simpa using hnone
        simp [Memory.logById, hindex]
  · intro limit hretained
    rw [hlogs, List.length_map]
    exact h.retained limit hretained

/-- What a run of the first write does to the logs if it is a flush: it puts the
new ones in front, newest first, and drops the last ones beyond the limit. -/
theorem Inv.flushed (h : Inv s) (hchain : s.chain = (promise, .flush) :: chain) (succeeds : Bool) :
    let upserted := (s.pendingRequestLogs.values.map PendingLog.log).foldl upsertLog s.memory.logs
    let limit := batchLimit s.pendingRequestLogs.values
    let s' := runFirst accounting s succeeds
    s'.memory.logs = s.memory.logs ∨
      (s'.memory.logs = upserted.take (limit.spliceStart upserted.length) ∧
        limit.isExceededBy s'.memory.logs.length = false) := by
  have hupserted : ∀ (logs : List (Log P)) (table : List (Row P)),
      (logs.foldl upsertRow table).map Row.log = logs.foldl upsertLog (table.map Row.log) := by
    intro logs
    induction logs with
    | nil => exact fun _ => rfl
    | cons log logs ih =>
        intro table
        rw [List.foldl_cons, List.foldl_cons, ih, map_log_upsertRow]
  have hids := h.batch_ids
  have hnodup := s.pendingRequestLogs.nodup_keys
  rw [← hids] at hnodup
  dsimp only
  rw [runFirst, hchain]
  simp only [RequestLogs.runFlush]
  split
  · exact .inl rfl
  · cases succeeds with
    | false => exact .inl rfl
    | true =>
        simp only [if_true]
        split
        · next table hflush =>
          obtain ⟨hmirrors, hwithin, htable⟩ := h.mirrors.flush hnodup h.batch_limit hflush
          have hlogs : (RequestLogs.commitFlush accounting { s with
              chain
              pendingRequestLogs := ∅ } s.pendingRequestLogs.values table).memory.logs =
              table.map Row.log := hmirrors.logs
          refine .inr ⟨?_, ?_⟩
          · rw [hlogs, htable, List.map_take, hupserted, h.mirrors.logs, ← hupserted, List.length_map]
          · rw [hlogs, List.length_map]
            exact hwithin
        · exact .inl rfl

end StonePlus.RequestLogs
