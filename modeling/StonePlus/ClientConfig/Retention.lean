import StonePlus.ClientConfig.Capture

/-!
# StonePlus.ClientConfig.Retention

Which backup sets a prune keeps.

The sets are counted from the latest on, by instant and then by sequence; what has just
been made is not singled out.  `mem_drop_groupIds` says which sets are dropped, and
`meets_pruneBackups` that these are removed and the others are not.
-/

namespace StonePlus.ClientConfig

open Lib

/-- A group is counted before another. -/
def GroupId.newer (left right : GroupId) : Prop :=
  right.createdAt < left.createdAt ∨
    right.createdAt = left.createdAt ∧ right.sequence < left.sequence

instance (left right : GroupId) : Decidable (left.newer right) := by
  unfold GroupId.newer
  infer_instance

theorem GroupId.newer_irrefl (id : GroupId) : ¬ id.newer id := by
  simp [GroupId.newer]

theorem GroupId.newer_asymm {right : GroupId} (h : left.newer right) : ¬ right.newer left := by
  unfold GroupId.newer at *
  omega

/-- Where a list is in a strict order, what is dropped is what enough comes before. -/
theorem mem_drop_iff_of_pairwise {α : Type} {r : α → α → Prop} [DecidableRel r]
    (hirrefl : ∀ a, ¬ r a a) (hasymm : ∀ a b, r a b → ¬ r b a) {l : List α} {x : α}
    (hl : l.Pairwise r) (hx : x ∈ l) : x ∈ l.drop n ↔ n ≤ (l.filter fun a => r a x).length := by
  induction l generalizing n with
  | nil => cases hx
  | cons a l ih =>
      rw [List.pairwise_cons] at hl
      rcases List.mem_cons.mp hx with rfl | hmem
      · -- nothing comes before the first
        have hnone : (x :: l).filter (fun a => r a x) = [] := by
          simp only [List.filter_eq_nil_iff, decide_eq_true_eq, List.mem_cons]
          rintro b (rfl | hb)
          · exact hirrefl b
          · exact hasymm _ _ (hl.1 b hb)
        rw [hnone, List.length_nil, Nat.le_zero]
        refine ⟨fun h => ?_, fun h => by simp [h]⟩
        cases n with
        | zero => rfl
        | succ n =>
            exact absurd (hl.1 x (List.mem_of_mem_drop (by simpa using h))) (hirrefl x)
      · have ha : r a x := hl.1 x hmem
        cases n with
        | zero => simp [hmem]
        | succ n =>
            rw [List.drop_succ_cons, ih hl.2 hmem]
            simp [ha]

theorem mem_groupIds {id : GroupId} :
    id ∈ groupIds backups ↔ ∃ backup ∈ backups, backup.groupId = id := by
  induction backups with
  | nil => simp [groupIds]
  | cons backup rest ih =>
      simp only [groupIds, List.mem_cons, List.mem_filter, decide_eq_true_eq, ih]
      grind

/-- The groups of a listing, in the order they are counted in. -/
theorem pairwise_groupIds (h : backups.Pairwise (BackupRecord.listedBefore collation)) :
    (groupIds backups).Pairwise GroupId.newer := by
  induction backups with
  | nil => exact List.Pairwise.nil
  | cons backup rest ih =>
      rw [List.pairwise_cons] at h
      rw [groupIds, List.pairwise_cons]
      refine ⟨fun id hid => ?_, (ih h.2).filter _⟩
      rw [List.mem_filter, mem_groupIds] at hid
      obtain ⟨⟨later, hlater, rfl⟩, hne⟩ := hid
      have hbefore := h.1 later hlater
      simp only [BackupRecord.listedBefore, decide_eq_true_eq] at hbefore hne
      have : later.groupId.createdAt ≠ backup.groupId.createdAt ∨
          later.groupId.sequence ≠ backup.groupId.sequence := by
        by_contra! hsame
        exact hne (by cases hl : later.groupId; cases hb : backup.groupId; simp_all)
      unfold GroupId.newer
      omega

namespace ClientConfigService

variable {service : ClientConfigService} {faulty : Bool} {s : Files} {client : SupportedClient}

theorem mem_listing : backup ∈ service.listing s client ↔
      backup.role ∈ service.clientFiles client ∧ ∃ content, s.backups.get? backup = some content := by
  simp only [listing, List.mem_insertionSort, List.mem_flatMap, backupsForFile, List.mem_filter,
    decide_eq_true_eq, JsMap.mem_keys_iff]
  grind

theorem nodup_listing : (service.listing s client).Nodup := by
  rw [listing, (List.perm_insertionSort _ _).nodup_iff, List.nodup_flatMap]
  refine ⟨fun role _ => s.backups.nodup_keys.filter _, ?_⟩
  refine (nodup_clientFiles client).imp ?_
  intro left right hne backup hleft hright
  simp only [backupsForFile, List.mem_filter, decide_eq_true_eq] at hleft hright
  exact hne (hleft.2.symm.trans hright.2)

instance (collation : BackupRecord → Nat) : Std.Total (BackupRecord.listedBefore collation) where
  total left right := by
    unfold BackupRecord.listedBefore
    omega

instance (collation : BackupRecord → Nat) :
    IsTrans BackupRecord (BackupRecord.listedBefore collation) where
  trans a b c hab hbc := by
    unfold BackupRecord.listedBefore at *
    omega

theorem pairwise_listing :
    (service.listing s client).Pairwise (BackupRecord.listedBefore service.collation) :=
  List.pairwise_insertionSort _ _

/-- **A prune drops a set exactly when as many sets as it keeps are newer.** -/
theorem mem_drop_groupIds {id : GroupId} {retention : Nat}
    (h : id ∈ groupIds (service.listing s client)) :
    id ∈ (groupIds (service.listing s client)).drop retention ↔
      retention ≤ ((groupIds (service.listing s client)).filter fun other =>
        other.newer id).length :=
  mem_drop_iff_of_pairwise GroupId.newer_irrefl (fun _ _ => GroupId.newer_asymm)
    (pairwise_groupIds pairwise_listing) h

/-- What is not of the groups `dropped` is as it was. -/
structure Untouched (dropped : List GroupId) (s s' : Files) : Prop where
  managed : s'.managed = s.managed
  backups : ∀ backup, backup.groupId ∉ dropped → s'.backups.get? backup = s.backups.get? backup
  manifests : ∀ client id, id ∉ dropped → s'.manifests client id = s.manifests client id

theorem mem_deletionOrder : backup ∈ deletionOrder group ↔ backup ∈ group := by
  simp only [deletionOrder, List.mem_append, List.mem_filter]
  cases backup.existed <;> simp

theorem nodup_deletionOrder (h : group.Nodup) : (deletionOrder group).Nodup := by
  refine List.nodup_append'.mpr ⟨h.filter _, h.filter _, ?_⟩
  intro backup hleft hright
  simp only [List.mem_filter] at hleft hright
  simp [hleft.2] at hright

/-- Removes the members of a group that is there. -/
theorem meets_removeGroup {id : GroupId} {backups : List BackupRecord} (hnodup : backups.Nodup)
    (hthere : ∀ backup ∈ backups, backup.groupId = id → (s.backups.get? backup).isSome) :
    Faulty.Meets faulty
      (fun _ s' => Untouched [id] s s' ∧ s'.manifests = (s.setManifest client id none).manifests ∧
        ∀ backup, s'.backups.get? backup =
          if backup ∈ backups ∧ backup.groupId = id then none else s.backups.get? backup)
      (fun _ s' => faulty = true ∧ Untouched [id] s s')
      (removeGroup client backups id) s := by
  have hmanifest : Untouched [id] s (s.setManifest client id none) :=
    ⟨rfl, fun _ _ => rfl, fun c g hg => by
      simp only [List.mem_singleton] at hg
      simp [Files.setManifest, hg]⟩
  rw [removeGroup, Faulty.meets_bind]
  simp only [removeManifest, Faulty.meets_perform]
  refine ⟨?_, fun hfaulty _ => ⟨hfaulty, ⟨rfl, fun _ _ => rfl, fun _ _ _ => rfl⟩⟩⟩
  have hnodup' : (deletionOrder (backups.filter (·.groupId = id))).Nodup :=
    nodup_deletionOrder (hnodup.filter _)
  have hmembers : ∀ backup, backup ∈ deletionOrder (backups.filter (·.groupId = id)) ↔
      backup ∈ backups ∧ backup.groupId = id := by
    intro backup
    simp [mem_deletionOrder]
  generalize deletionOrder (backups.filter (·.groupId = id)) = members at hnodup' hmembers ⊢
  refine (Faulty.meets_forEach (fun done s' => Untouched [id] s s' ∧
    s'.manifests = (s.setManifest client id none).manifests ∧
    ∀ backup, s'.backups.get? backup =
      if backup ∈ done then none else s.backups.get? backup) ?_ ?_).mono ?_ fun _ _ h => h
  · intro done backup rest s' hsplit hs'
    have hmem : backup ∈ backups ∧ backup.groupId = id :=
      (hmembers backup).mp (by simp [hsplit])
    have hnot : backup ∉ done := by
      rw [hsplit] at hnodup'
      intro h
      exact (List.nodup_append'.mp hnodup').2.2 h List.mem_cons_self
    have hhas : s'.backups.has backup = true := by
      rw [JsMap.has, hs'.2.2, if_neg hnot]
      exact hthere backup hmem.1 hmem.2
    simp only [removeBackup, Faulty.meets_perform, hhas, Bool.or_true, if_true]
    refine ⟨⟨⟨hs'.1.managed, fun other hother => ?_, hs'.1.manifests⟩, hs'.2.1, fun other => ?_⟩,
      fun hfaulty _ => ⟨hfaulty, hs'.1⟩⟩
    · have hne : other ≠ backup := by
        rintro rfl
        exact hother (by simp [hmem.2])
      simp only [Files.removeBackup]
      rw [JsMap.get?_delete_of_ne _ hne]
      exact hs'.1.backups other hother
    · simp only [Files.removeBackup, JsMap.get?_delete, List.mem_append, List.mem_singleton, hs'.2.2]
      grind
  · exact ⟨hmanifest, rfl, fun backup => by simp⟩
  · intro _ s' hs'
    refine ⟨hs'.1, hs'.2.1, fun backup => ?_⟩
    rw [hs'.2.2]
    simp only [hmembers]

theorem Untouched.mono (h : Untouched dropped s s') (hsub : dropped ⊆ dropped') :
    Untouched dropped' s s' :=
  ⟨h.managed, fun backup hb => h.backups backup fun hmem => hb (hsub hmem),
    fun c id hid => h.manifests c id fun hmem => hid (hsub hmem)⟩

theorem Untouched.trans (h : Untouched dropped s s') (h' : Untouched dropped s' s'') :
    Untouched dropped s s'' :=
  ⟨h'.managed.trans h.managed, fun backup hb => (h'.backups backup hb).trans (h.backups backup hb),
    fun c id hid => (h'.manifests c id hid).trans (h.manifests c id hid)⟩

/-- The groups that a prune drops. -/
def droppedGroups (service : ClientConfigService) (s : Files) (client : SupportedClient)
    (retention : Int) : List GroupId :=
  (groupIds (service.listing s client)).drop retention.toNat

/-- **A prune removes the groups it drops and touches nothing else**, and if it fails it has
touched nothing else. -/
theorem meets_pruneBackups {retention : Int} (hretention : 1 ≤ retention ∧ retention ≤ 100) :
    Faulty.Meets faulty
      (fun _ s' => Untouched (service.droppedGroups s client retention) s s' ∧
        ∀ id ∈ service.droppedGroups s client retention, service.occupied s' client id = false)
      (fun _ s' => faulty = true ∧ Untouched (service.droppedGroups s client retention) s s')
      (service.pruneBackups client retention) s := by
  have hvalid : validateBackupRetention retention = .ok () := by
    rw [validateBackupRetention, if_neg (by omega)]
  have hsame : Untouched (service.droppedGroups s client retention) s s :=
    ⟨rfl, fun _ _ => rfl, fun _ _ _ => rfl⟩
  rw [pruneBackups, Faulty.meets_bind, meets_check, hvalid]
  simp only [listBackups, Faulty.meets_bind, meets_io, Faulty.meets_get, Faulty.meets_pure]
  refine ⟨?_, fun hfaulty => ⟨hfaulty, hsame⟩⟩
  change Faulty.Meets faulty _ _ (Faulty.forEach (service.droppedGroups s client retention) _) s
  have hdropped : (service.droppedGroups s client retention).Nodup := by
    refine List.Nodup.sublist (List.drop_sublist _ _) ?_
    refine (pairwise_groupIds pairwise_listing).imp ?_
    rintro left _ h rfl
    exact GroupId.newer_irrefl _ h
  refine (Faulty.meets_forEach (fun done s' => Untouched done s s' ∧
      (∀ id ∈ done, s'.manifests client id = none) ∧
      ∀ backup, s'.backups.get? backup =
        if backup ∈ service.listing s client ∧ backup.groupId ∈ done then none
        else s.backups.get? backup) ?_ ?_).mono ?_ fun _ _ h => h
  · intro done id rest s' hsplit hs'
    have hnot : id ∉ done := by
      rw [hsplit] at hdropped
      intro h
      exact (List.nodup_append'.mp hdropped).2.2 h List.mem_cons_self
    refine (meets_removeGroup nodup_listing fun backup hbackup hid => ?_).mono ?_ ?_
    · obtain ⟨content, hcontent⟩ := (mem_listing.mp hbackup).2
      rw [hs'.2.2, if_neg (by simp [hid, hnot]), hcontent]
      rfl
    · rintro _ s'' ⟨htouched, hmanifests, hgone⟩
      refine ⟨(hs'.1.mono (by simp)).trans (htouched.mono (by simp)), fun id' hid' => ?_,
        fun backup => ?_⟩
      · rw [hmanifests]
        have := hs'.2.1 id'
        simp only [List.mem_append, List.mem_singleton] at hid'
        simp only [Files.setManifest]
        grind
      · rw [hgone, hs'.2.2]
        simp only [List.mem_append, List.mem_singleton]
        grind
    · rintro _ s'' ⟨hfaulty, htouched⟩
      refine ⟨hfaulty, (hs'.1.mono ?_).trans (htouched.mono ?_)⟩ <;> simp [hsplit]
  · exact ⟨⟨rfl, fun _ _ => rfl, fun _ _ _ => rfl⟩, by simp, fun backup => by simp⟩
  · rintro _ s' ⟨htouched, hmanifests, hgone⟩
    refine ⟨htouched, fun id hid => ?_⟩
    have hnone : ∀ backup, backup.role ∈ service.clientFiles client → backup.groupId = id →
        s'.backups.get? backup = none := by
      intro backup hrole hgroup
      rw [hgone]
      split
      · rfl
      · next hnot =>
        cases hget : s.backups.get? backup with
        | none => rfl
        | some content =>
            exact absurd ⟨mem_listing.mpr ⟨hrole, content, hget⟩, hgroup ▸ hid⟩ hnot
    simp only [occupied, Bool.or_eq_false_iff, List.any_eq_false, Bool.not_eq_true, JsMap.has,
      hmanifests id hid]
    exact ⟨fun role hrole => by simp [hnone ⟨role, _, id⟩ hrole rfl], rfl⟩

end ClientConfigService

end StonePlus.ClientConfig
