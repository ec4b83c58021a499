import StonePlus.Js.Object
import StonePlus.Store.Replacement

/-!
# StonePlus.Store.ReplacementSafety

A replacement of the database file that is cut short is recovered: the live
file is the previous database or the candidate.

`Pending` lists what a journaled replacement can leave behind; every operation
of the replacement and of its recovery keeps to this list, so a recovery may
itself be cut short any number of times.
-/

namespace StonePlus.Store

open Lib Lib.Durable

/-! ## The journal is read as it was written -/

theorem checkedString_of (s : { s : JsString // p s = true }) :
    checkedString p (some (.string s)) = some s := by
  obtain ⟨s, hs⟩ := s
  exact dif_pos hs

theorem checkedPrevious_of (previous : Option Sha256) (h : previous.isSome = hadPrevious) :
    checkedPrevious hadPrevious (previous.map fun sha : Sha256 => .string sha.1) = some ⟨previous, h⟩ := by
  cases previous with
  | none =>
      subst h
      rfl
  | some sha =>
      subst h
      change (checkedString isSha256 (some (.string sha))).map _ = _
      rw [checkedString_of]
      rfl

/-- Which properties a written journal has. -/
theorem checkedJournal_of (journal : DatabaseReplacementJournal)
    (hversion : Json.property? entries (js "version") = some (.number (.ofNat 1)))
    (hid : Json.property? entries (js "id") = some (.string journal.id))
    (hhad : Json.property? entries (js "hadPrevious") = some (.bool journal.hadPrevious))
    (hcandidate : Json.property? entries (js "candidateSha256") =
      some (.string journal.candidateSha256))
    (hprevious : Json.property? entries (js "previousSha256") =
      journal.previousSha256.map fun sha : Sha256 => .string sha.1)
    (hcreated : Json.property? entries (js "createdAt") = some (.number journal.createdAt)) :
    checkedJournal entries = some journal := by
  unfold checkedJournal
  have hknown := checkedPrevious_of _ journal.previous_known
  rw [hversion, hid, hhad, hcandidate, hprevious, hcreated, checkedString_of, checkedString_of,
    checkedTimestamp_of]
  simp only [Option.bind_eq_bind, Option.bind_some, hknown]
  simp

theorem parseDatabaseReplacementJournal_toJson (journal : DatabaseReplacementJournal) :
    parseDatabaseReplacementJournal journal.toJson = .ok journal := by
  have hchecked : ∀ entries, journal.toJson = .object entries →
      checkedJournal entries = some journal := by
    intro entries heq
    obtain ⟨id, hadPrevious, candidateSha256, previousSha256, createdAt, hknown⟩ := journal
    injection heq with heq
    subst heq
    apply checkedJournal_of <;> cases previousSha256 <;>
      simp [Json.property?, js]
  unfold DatabaseReplacementJournal.toJson at hchecked ⊢
  unfold parseDatabaseReplacementJournal
  dsimp only at hchecked ⊢
  rw [hchecked _ rfl]

/-! ## What a replacement leaves behind -/

section

variable (sqlite : Sqlite) (start : Files) (id : ReplacementId) (candidate : Bytes)
  (createdAt : Timestamp)

/-- The previous database, with its log checkpointed. -/
def checkpointed : Option Bytes :=
  match start .live with
  | some (.database bytes) => some (sqlite.checkpoint bytes (start .wal))
  | _ => none

/-- The live file is the previous database, untouched or checkpointed. -/
def IsPrevious (files : Files) : Prop :=
  (files .live = start .live ∧ files .wal = start .wal) ∨
    files .live = (checkpointed sqlite start).map .database

/-- The candidate has been renamed onto the live path. -/
def Installed (done : List FileOp) : Prop := .rename (.candidate id) .live ∈ done

/-- The live file has been moved aside. -/
def MovedAside (done : List FileOp) : Prop := .rename .live (.previous id) ∈ done

/-- What a replacement promises of the live file. -/
structure Settled (done : List FileOp) (files : Files) : Prop where
  live : IsPrevious sqlite start files ∨ files .live = some (.database candidate)
  installed : Installed id done → files .live = some (.database candidate)
  kept : (start .live).isSome → ¬MovedAside id done → IsPrevious sqlite start files

/-- The journal of the replacement. -/
def journalOf : DatabaseReplacementJournal where
  id := id
  hadPrevious := (checkpointed sqlite start).isSome
  candidateSha256 := sqlite.sha256 candidate
  previousSha256 := (checkpointed sqlite start).map sqlite.sha256
  createdAt := createdAt
  previous_known := Option.isSome_map

/-- The files of a journaled replacement. -/
inductive Pending (done : List FileOp) (files : Files) : Prop
  | kept {previous : Bytes} (hprevious : checkpointed sqlite start = some previous)
      (hlive : files .live = some (.database previous))
      (hcandidate : files (.candidate id) = none ∨
        files (.candidate id) = some (.database candidate))
      (hnot : ¬Installed id done)
  | moved {previous : Bytes} (hprevious : checkpointed sqlite start = some previous)
      (hlive : files .live = none) (haside : files (.previous id) = some (.database previous))
      (hcandidate : files (.candidate id) = some (.database candidate))
      (hnot : ¬Installed id done) (hmoved : MovedAside id done)
  | first (hprevious : checkpointed sqlite start = none) (hlive : files .live = none)
      (hcandidate : files (.candidate id) = some (.database candidate))
      (hnot : ¬Installed id done)
  | installed (hlive : files .live = some (.database candidate))
      (hcandidate : files (.candidate id) = none)
      (hmoved : (start .live).isSome → MovedAside id done)

/-- The files that a replacement or its recovery leaves when it is cut short. -/
def Left (done : List FileOp) (files : Files) : Prop :=
  (files .journal = none ∧ Settled sqlite start id candidate done files) ∨
    (files .journal = some (.json (journalOf sqlite start id candidate createdAt).toJson) ∧
      Pending sqlite start id candidate done files)

/-- What a recovery ends in. -/
def Recovers (r : Except StoreError DatabaseReplacementRecovery) (done : List FileOp)
    (files : Files) : Prop :=
  (∃ recovery, r = .ok recovery) ∧ files .journal = none ∧
    Settled sqlite start id candidate done files

end

/-! ## One operation -/

section

variable {sqlite : Sqlite} {post : Except StoreError Unit → List FileOp → Files → Prop}
  {crash : List FileOp → Files → Prop} {done : List FileOp} {files : Files}

@[simp] theorem meets_rmForce :
    Meets (FileOp.apply sqlite) post crash (perform (.rmForce path)) done files ↔
      crash done files ∧
        crash (done ++ [.rmForce path]) (Function.update files path none) ∧
        post (.ok ()) (done ++ [.rmForce path]) (Function.update files path none) :=
  meets_perform rfl

@[simp] theorem meets_syncDirectory :
    Meets (FileOp.apply sqlite) post crash (perform .syncDirectory) done files ↔
      crash done files ∧ crash (done ++ [.syncDirectory]) files ∧
        post (.ok ()) (done ++ [.syncDirectory]) files :=
  meets_perform rfl

theorem meets_rename (h : files origin = some content) :
    Meets (FileOp.apply sqlite) post crash (perform (.rename origin destination)) done files ↔
      crash done files ∧
        crash (done ++ [.rename origin destination])
          (Function.update (Function.update files destination (some content)) origin none) ∧
        post (.ok ()) (done ++ [.rename origin destination])
          (Function.update (Function.update files destination (some content)) origin none) :=
  meets_perform (by simp only [FileOp.apply, h])

theorem meets_chmodUnlessWin32 (h : (files path).isSome)
    (hpost : ∀ done', done' = done ∨ done' = done ++ [.chmod path] →
      crash done' files ∧ post (.ok ()) done' files) :
    Meets (FileOp.apply sqlite) post crash (chmodUnlessWin32 win32 path) done files := by
  unfold chmodUnlessWin32
  cases win32 with
  | true => exact hpost done (.inl rfl)
  | false =>
      have happly : FileOp.apply sqlite (.chmod path) files = .ok files := by
        simp only [FileOp.apply, Option.isNone_iff_eq_none, Option.isSome_iff_ne_none] at h ⊢
        rw [if_neg h]
      exact (meets_perform happly).mpr ⟨(hpost done (.inl rfl)).1, hpost _ (.inr rfl)⟩

theorem meets_assertDatabaseIntegrity (h : files path = some (.database bytes))
    (hintact : sqlite.intact bytes = true) :
    Meets (FileOp.apply sqlite) post crash (assertDatabaseIntegrity sqlite path) done files ↔
      crash done files ∧ post (.ok ()) done files := by
  have hsome : (files path).any (Content.isIntact sqlite) = true := by
    rw [h]
    exact hintact
  unfold assertDatabaseIntegrity
  rw [meets_get_bind, meets_ensure hsome]

@[simp] theorem installed_append {id : ReplacementId} :
    Installed id (done ++ [op]) ↔ Installed id done ∨ op = .rename (.candidate id) .live := by
  simp [Installed, eq_comm]

@[simp] theorem movedAside_append {id : ReplacementId} :
    MovedAside id (done ++ [op]) ↔ MovedAside id done ∨ op = .rename .live (.previous id) := by
  simp [MovedAside, eq_comm]

end

/-! ## Recovery -/

section

variable {sqlite : Sqlite} {start : Files} {id : ReplacementId} {candidate : Bytes}
  {createdAt : Timestamp} {done : List FileOp} {files : Files}

/-- A live file is there once the candidate or the previous database has been
put in its place. -/
structure Placed (sqlite : Sqlite) (start : Files) (id : ReplacementId) (candidate : Bytes)
    (createdAt : Timestamp) (done : List FileOp) (files : Files) : Prop where
  journal : files .journal = some (.json (journalOf sqlite start id candidate createdAt).toJson)
  pending : Pending sqlite start id candidate done files
  live : (files .live).isSome

theorem Placed.left (h : Placed sqlite start id candidate createdAt done files) :
    Left sqlite start id candidate createdAt done files := .inr ⟨h.journal, h.pending⟩

/-- A file that is there no longer matters once the live file is in place. -/
theorem Placed.remove (h : Placed sqlite start id candidate createdAt done files)
    {path : DatabasePath} (hpath : path = .candidate id ∨ path = .previous id) :
    Placed sqlite start id candidate createdAt (done ++ [.rmForce path])
      (Function.update files path none) := by
  obtain ⟨hjournal, hpending, hsome⟩ := h
  have hother : ∀ other, other = .journal ∨ other = .live →
      Function.update files path none other = files other := by
    rintro other hother
    apply Function.update_of_ne
    rcases hother with rfl | rfl <;> rcases hpath with rfl | rfl <;> simp
  have hcandidate : Function.update files path none (.candidate id) = none ∨
      Function.update files path none (.candidate id) = files (.candidate id) := by
    rcases hpath with rfl | rfl
    · exact .inl (by simp)
    · exact .inr (by simp)
  refine ⟨(hother _ (.inl rfl)).trans hjournal, ?_, ?_⟩
  · cases hpending with
    | kept hprevious hlive hcopy hnot =>
        refine .kept hprevious ((hother _ (.inr rfl)).trans hlive) ?_ (by simpa using hnot)
        rcases hcandidate with hgone | hsame
        · exact .inl hgone
        · rwa [hsame]
    | moved _ hlive =>
        rw [hlive] at hsome
        cases hsome
    | first _ hlive =>
        rw [hlive] at hsome
        cases hsome
    | installed hlive hcopy hmoved =>
        refine .installed ((hother _ (.inr rfl)).trans hlive) ?_ ?_
        · rcases hcandidate with hgone | hsame
          · exact hgone
          · rwa [hsame]
        · intro hstart
          simpa using hmoved hstart
  · rwa [hother _ (.inr rfl)]

/-- The journal is removed once the live file is in place. -/
theorem Placed.settled (h : Placed sqlite start id candidate createdAt done files) :
    Settled sqlite start id candidate (done ++ [.rmForce .journal])
      (Function.update files .journal none) := by
  have hlive : Function.update files .journal none .live = files .live := by simp
  have hwal : Function.update files .journal none .wal = files .wal := by simp
  cases h.pending with
  | kept hprevious hkept hcopy hnot =>
      have his : IsPrevious sqlite start (Function.update files .journal none) := by
        refine .inr ?_
        rw [hlive, hkept, hprevious]
        rfl
      exact ⟨.inl his, fun hinstalled => absurd hinstalled (by simpa using hnot), fun _ _ => his⟩
  | moved _ hnone =>
      have := h.live
      rw [hnone] at this
      cases this
  | first _ hnone =>
      have := h.live
      rw [hnone] at this
      cases this
  | installed hinstalled _ hmoved =>
      refine ⟨.inr (hlive.trans hinstalled), fun _ => hlive.trans hinstalled, ?_⟩
      intro hstart hnot
      exact absurd (hmoved hstart) (by simpa using hnot)

theorem Settled.syncDirectory (h : Settled sqlite start id candidate done files) :
    Settled sqlite start id candidate (done ++ [.syncDirectory]) files := by
  constructor
  · exact h.live
  · simpa using h.installed
  · simpa using h.kept

/-- The clean-up after a replacement or its recovery. -/
theorem meets_cleanup (h : Placed sqlite start id candidate createdAt done files) :
    Meets (FileOp.apply sqlite)
      (fun r done files => r = .ok () ∧ files .journal = none ∧
        Settled sqlite start id candidate done files)
      (Left sqlite start id candidate createdAt) (cleanupDatabaseReplacement id) done files := by
  have h₁ := h.remove (.inl rfl)
  have h₂ := h₁.remove (.inr rfl)
  have hsettled := h₂.settled
  have hgone : Function.update (Function.update (Function.update files (.candidate id) none)
      (.previous id) none) .journal none .journal = none := by simp
  unfold cleanupDatabaseReplacement
  simp only [meets_bind, meets_rmForce, meets_syncDirectory]
  exact ⟨h.left, h₁.left, h₁.left, h₂.left, h₂.left, .inl ⟨hgone, hsettled⟩, .inl ⟨hgone, hsettled⟩,
    .inl ⟨hgone, hsettled.syncDirectory⟩, trivial, hgone, hsettled.syncDirectory⟩

theorem meets_cleanupThen (h : Placed sqlite start id candidate createdAt done files)
    (recovery : DatabaseReplacementRecovery) :
    Meets (FileOp.apply sqlite) (Recovers sqlite start id candidate)
      (Left sqlite start id candidate createdAt)
      (cleanupDatabaseReplacement id >>= fun _ => pure recovery) done files := by
  rw [meets_bind]
  refine (meets_cleanup h).mono ?_ (fun _ _ hleft => hleft)
  rintro r done files ⟨rfl, hjournal, hsettled⟩
  exact meets_pure.mpr ⟨.inl ⟨hjournal, hsettled⟩, ⟨recovery, rfl⟩, hjournal, hsettled⟩

/-- The previous database is moved back where no file is live. -/
theorem meets_rollBack {previous : Bytes} (hprevious : checkpointed sqlite start = some previous)
    (hintact : sqlite.intact previous = true)
    (hjournal : files .journal =
      some (.json (journalOf sqlite start id candidate createdAt).toJson))
    (hlive : files .live = none) (haside : files (.previous id) = some (.database previous))
    (hcandidate : files (.candidate id) = some (.database candidate))
    (hnot : ¬Installed id done) (hmoved : MovedAside id done) :
    Meets (FileOp.apply sqlite) (Recovers sqlite start id candidate)
      (Left sqlite start id candidate createdAt) (rollBack sqlite id false) done files := by
  have hstart : Left sqlite start id candidate createdAt done files :=
    .inr ⟨hjournal, .moved hprevious hlive haside hcandidate hnot hmoved⟩
  have hplaced : ∀ done', (¬Installed id done') →
      Placed sqlite start id candidate createdAt done' (Function.update (Function.update files .live
        (some (.database previous))) (.previous id) none) := by
    intro done' hnot'
    refine ⟨by simpa using hjournal, ?_, by simp⟩
    exact .kept hprevious (by simp) (.inr (by simpa using hcandidate)) hnot'
  have h₁ := hplaced (done ++ [.rename (.previous id) .live]) (by simpa using hnot)
  have h₂ := hplaced (done ++ [.rename (.previous id) .live] ++ [.syncDirectory])
    (by
      rw [installed_append, installed_append]
      simpa using hnot)
  unfold rollBack
  rw [meets_bind, meets_whenever_false]
  refine ⟨hstart, ?_⟩
  rw [meets_bind, meets_rename haside]
  refine ⟨hstart, h₁.left, ?_⟩
  rw [meets_bind, meets_syncDirectory]
  refine ⟨h₁.left, h₂.left, ?_⟩
  rw [meets_bind, meets_assertDatabaseIntegrity (by simp) hintact]
  exact ⟨h₂.left, meets_cleanupThen h₂ .rolledBack⟩

/-- The candidate is installed where there was no database. -/
theorem meets_installFirst (hintact : sqlite.intact candidate = true)
    (hstart : (start .live).isSome = false) (hprevious : checkpointed sqlite start = none)
    (hjournal : files .journal =
      some (.json (journalOf sqlite start id candidate createdAt).toJson))
    (hlive : files .live = none) (hcandidate : files (.candidate id) = some (.database candidate))
    (hnot : ¬Installed id done) : Meets (FileOp.apply sqlite) (Recovers sqlite start id candidate)
      (Left sqlite start id candidate createdAt) (installFirst sqlite win32 id) done files := by
  have hbefore : Left sqlite start id candidate createdAt done files :=
    .inr ⟨hjournal, .first hprevious hlive hcandidate hnot⟩
  have hplaced : ∀ done', Placed sqlite start id candidate createdAt done' (Function.update
      (Function.update files .live (some (.database candidate))) (.candidate id) none) := by
    intro done'
    refine ⟨by simpa using hjournal, ?_, by simp⟩
    exact .installed (by simp) (by simp) (by simp [hstart])
  unfold installFirst
  rw [meets_bind, meets_rename hcandidate]
  refine ⟨hbefore, (hplaced _).left, ?_⟩
  rw [meets_bind]
  refine meets_chmodUnlessWin32 (by simp) (fun done' _ => ⟨(hplaced _).left, ?_⟩)
  rw [meets_bind, meets_syncDirectory]
  refine ⟨(hplaced _).left, (hplaced _).left, ?_⟩
  rw [meets_bind, meets_assertDatabaseIntegrity (by simp) hintact]
  exact ⟨(hplaced _).left, meets_cleanupThen (hplaced _) .installed⟩

/-- What a recovery does with the files of a journaled replacement. -/
theorem recoveryAction_of_placed (hcandidate : sqlite.intact candidate = true)
    (hchecked : ∀ previous, checkpointed sqlite start = some previous → sqlite.intact previous = true)
    (h : Placed sqlite start id candidate createdAt done files) :
    ∃ recovery, recoveryAction sqlite (journalOf sqlite start id candidate createdAt) files =
      .ok (.cleanUp recovery) := by
  cases h.pending with
  | @kept previous hprevious hlive hcopy hnot =>
      refine ⟨.rolledBack, ?_⟩
      have hintact := hchecked previous hprevious
      rcases hcopy with hnone | hsome
      · simp [recoveryAction, journalOf, hlive, hnone, hprevious, validSha256, Content.isIntact,
          hintact]
      · simp [recoveryAction, journalOf, hlive, hsome, hprevious, validSha256, Content.isIntact,
          hintact, hcandidate]
  | moved _ hnone =>
      have := h.live
      rw [hnone] at this
      cases this
  | first _ hnone =>
      have := h.live
      rw [hnone] at this
      cases this
  | installed hlive hcopy _ =>
      by_cases hsame : (checkpointed sqlite start).isSome = true ∧
          some (sqlite.sha256 candidate) = (checkpointed sqlite start).map sqlite.sha256
      · refine ⟨.rolledBack, ?_⟩
        simp [recoveryAction, journalOf, hlive, hcopy, validSha256, Content.isIntact, hcandidate,
          hsame.1, hsame.2]
      · refine ⟨.installed, ?_⟩
        have hnot : ((checkpointed sqlite start).isSome &&
            decide (some (sqlite.sha256 candidate) =
              (checkpointed sqlite start).map sqlite.sha256)) = false := by
          simpa using hsame
        simp only [recoveryAction, journalOf, hlive, hcopy, validSha256, Content.isIntact,
          hcandidate, Option.any_some, if_true, hnot]
        simp

/-- A recovery starts well from everything that it or the replacement leaves. -/
theorem meets_recoverDatabaseReplacement (hcandidate : sqlite.intact candidate = true)
    (hchecked : ∀ previous, checkpointed sqlite start = some previous → sqlite.intact previous = true)
    (hfirst : checkpointed sqlite start = none → (start .live).isSome = false)
    (h : Left sqlite start id candidate createdAt done files) :
    Meets (FileOp.apply sqlite) (Recovers sqlite start id candidate)
      (Left sqlite start id candidate createdAt) (recoverDatabaseReplacement sqlite win32) done
      files := by
  unfold recoverDatabaseReplacement
  rw [meets_get_bind]
  rcases h with ⟨hjournal, hsettled⟩ | ⟨hjournal, hpending⟩
  · rw [hjournal]
    exact meets_pure.mpr ⟨.inl ⟨hjournal, hsettled⟩, ⟨.none, rfl⟩, hjournal, hsettled⟩
  · rw [hjournal]
    dsimp only
    rw [readReplacementJournal, parseDatabaseReplacementJournal_toJson]
    change Meets _ _ _ (recoverJournaled sqlite win32 (journalOf sqlite start id candidate createdAt))
      done files
    unfold recoverJournaled
    rw [meets_get_bind]
    by_cases hlive : (files .live).isSome = true
    · have hplaced : Placed sqlite start id candidate createdAt done files :=
        ⟨hjournal, hpending, hlive⟩
      obtain ⟨recovery, haction⟩ := recoveryAction_of_placed hcandidate hchecked hplaced
      rw [haction]
      exact meets_cleanupThen hplaced recovery
    · cases hpending with
      | kept _ hsome => simp [hsome] at hlive
      | installed hsome => simp [hsome] at hlive
      | @moved previous hprevious hnone haside hcopy hnot hmoved =>
          have hintact := hchecked previous hprevious
          have haction : recoveryAction sqlite (journalOf sqlite start id candidate createdAt) files =
              .ok (.rollBack false) := by
            simp [recoveryAction, journalOf, hnone, hcopy, haside, hprevious, validSha256,
              Content.isIntact, hintact]
          rw [haction]
          exact meets_rollBack hprevious hintact hjournal hnone haside hcopy hnot hmoved
      | first hprevious hnone hcopy hnot =>
          have haction : recoveryAction sqlite (journalOf sqlite start id candidate createdAt) files =
              .ok .installFirst := by
            simp [recoveryAction, journalOf, hnone, hcopy, hprevious, validSha256,
              Content.isIntact, hcandidate]
          rw [haction]
          exact meets_installFirst hcandidate (hfirst hprevious) hprevious hjournal hnone hcopy hnot

end

/-! ## Replacement -/

/-- The files before a replacement: a valid live database or none, a valid
source, and names that no other replacement has used. -/
structure Startable (sqlite : Sqlite) (id temporary : ReplacementId) (candidate : Bytes)
    (start : Files) : Prop where
  source : start .source = some (.database candidate)
  valid : sqlite.intact candidate = true
  live : ∀ content, start .live = some content →
    ∃ bytes, content = .database bytes ∧ sqlite.intact bytes = true
  journal : start .journal = none
  candidate : start (.candidate id) = none
  temporary : start (.journalTemporary temporary) = none

section

variable {sqlite : Sqlite} {start : Files} {id temporary : ReplacementId} {candidate : Bytes}
  {createdAt : Timestamp} {done : List FileOp} {files : Files}

theorem Startable.checkpointed_intact (h : Startable sqlite id temporary candidate start)
    (hprevious : checkpointed sqlite start = some previous) : sqlite.intact previous = true := by
  unfold checkpointed at hprevious
  split at hprevious
  · next bytes hlive =>
    obtain ⟨bytes', heq, hintact⟩ := h.live _ hlive
    cases heq
    cases hprevious
    exact sqlite.intact_checkpoint bytes (start .wal) hintact
  · cases hprevious

theorem Startable.checkpointed_isSome (h : Startable sqlite id temporary candidate start) :
    (checkpointed sqlite start).isSome = (start .live).isSome := by
  unfold checkpointed
  cases hlive : start .live with
  | none => rfl
  | some content =>
      obtain ⟨bytes, rfl, -⟩ := h.live content hlive
      rfl

/-- The files while the candidate is prepared and the journal is not written. -/
structure Preparing (sqlite : Sqlite) (start : Files) (id : ReplacementId) (candidate : Bytes)
    (done : List FileOp) (files : Files) : Prop where
  journal : files .journal = none
  candidate : files (.candidate id) = some (.database candidate)
  live : IsPrevious sqlite start files
  notInstalled : ¬Installed id done

theorem Preparing.left (h : Preparing sqlite start id candidate done files) :
    Left sqlite start id candidate createdAt done files :=
  .inl ⟨h.journal, .inl h.live, fun hinstalled => absurd hinstalled h.notInstalled,
    fun _ _ => h.live⟩

theorem not_installed_append (h : ¬Installed id done) (hop : op ≠ .rename (.candidate id) .live) :
    ¬Installed id (done ++ [op]) := by
  rw [installed_append]
  rintro (hinstalled | heq)
  · exact h hinstalled
  · exact hop heq

/-- An operation on other files. -/
theorem Preparing.keep (h : Preparing sqlite start id candidate done files) (op : FileOp)
    (hop : op ≠ .rename (.candidate id) .live)
    (hsame : ∀ path, path = .journal ∨ path = .candidate id ∨ path = .live ∨ path = .wal →
      files' path = files path) : Preparing sqlite start id candidate (done ++ [op]) files' := by
  refine ⟨?_, ?_, ?_, not_installed_append h.notInstalled hop⟩
  · rw [hsame _ (.inl rfl), h.journal]
  · rw [hsame _ (.inr (.inl rfl)), h.candidate]
  · have hlive := hsame .live (by simp)
    have hwal := hsame .wal (by simp)
    unfold IsPrevious
    rw [hlive, hwal]
    exact h.live

/-- The files when the journal has just been written. -/
structure Journaled (sqlite : Sqlite) (start : Files) (id : ReplacementId) (candidate : Bytes)
    (createdAt : Timestamp) (done : List FileOp) (files : Files) : Prop where
  journal : files .journal = some (.json (journalOf sqlite start id candidate createdAt).toJson)
  live : files .live = (checkpointed sqlite start).map .database
  candidate : files (.candidate id) = some (.database candidate)
  notInstalled : ¬Installed id done

theorem Journaled.left (h : Journaled sqlite start id candidate createdAt done files) :
    Left sqlite start id candidate createdAt done files := by
  refine .inr ⟨h.journal, ?_⟩
  have hlive := h.live
  cases hprevious : checkpointed sqlite start with
  | none =>
      rw [hprevious] at hlive
      exact .first hprevious hlive h.candidate h.notInstalled
  | some previous =>
      rw [hprevious] at hlive
      exact .kept hprevious hlive (.inr h.candidate) h.notInstalled

/-- An operation on other files. -/
theorem Journaled.keep (h : Journaled sqlite start id candidate createdAt done files)
    (op : FileOp) (hop : op ≠ .rename (.candidate id) .live)
    (hsame : ∀ path, path = .journal ∨ path = .live ∨ path = .candidate id →
      files' path = files path) :
    Journaled sqlite start id candidate createdAt (done ++ [op]) files' := by
  constructor
  · rw [hsame _ (.inl rfl), h.journal]
  · rw [hsame _ (.inr (.inl rfl)), h.live]
  · rw [hsame _ (.inr (.inr rfl)), h.candidate]
  · exact not_installed_append h.notInstalled hop

/-- The journal is moved in. -/
theorem meets_moveJournalIn (h : Preparing sqlite start id candidate done files)
    (htemporary : files (.journalTemporary temporary) = none)
    (hlive : files .live = (checkpointed sqlite start).map .database) :
    Meets (FileOp.apply sqlite)
      (fun r done files => r = .ok () ∧ Journaled sqlite start id candidate createdAt done files)
      (Left sqlite start id candidate createdAt)
      (moveJournalIn temporary (journalOf sqlite start id candidate createdAt)) done files := by
  let written : Content := .json (journalOf sqlite start id candidate createdAt).toJson
  let files₁ := Function.update files (.journalTemporary temporary) (some written)
  have hwrite : FileOp.apply sqlite (.writeFileExcl (.journalTemporary temporary)
      (journalOf sqlite start id candidate createdAt).toJson) files = .ok files₁ := by
    simp [FileOp.apply, htemporary, files₁, written]
  have hsync : FileOp.apply sqlite (.syncFile (.journalTemporary temporary)) files₁ = .ok files₁ := by
    simp [FileOp.apply, files₁]
  have hsame : ∀ path, path = .journal ∨ path = .candidate id ∨ path = .live ∨ path = .wal →
      files₁ path = files path := by
    rintro path (rfl | rfl | rfl | rfl) <;> simp [files₁]
  have h₁ := h.keep (.writeFileExcl (.journalTemporary temporary)
    (journalOf sqlite start id candidate createdAt).toJson) (by simp) hsame
  have h₂ := h₁.keep (.syncFile (.journalTemporary temporary)) (by simp) fun _ _ => rfl
  have h₃ : Journaled sqlite start id candidate createdAt
      (done ++ [.writeFileExcl (.journalTemporary temporary)
        (journalOf sqlite start id candidate createdAt).toJson] ++
        [.syncFile (.journalTemporary temporary)] ++
        [.rename (.journalTemporary temporary) .journal])
      (Function.update (Function.update files₁ .journal (some written))
        (.journalTemporary temporary) none) := by
    refine ⟨by simp [written], ?_, ?_, not_installed_append h₂.notInstalled (by simp)⟩
    · simpa [files₁] using hlive
    · simpa [files₁] using h.candidate
  have h₄ := h₃.keep (.syncDirectory) (by simp) fun _ _ => rfl
  unfold moveJournalIn
  rw [meets_bind, meets_perform hwrite]
  refine ⟨h.left, h₁.left, ?_⟩
  rw [meets_bind, meets_perform hsync]
  refine ⟨h₁.left, h₂.left, ?_⟩
  have hwritten : files₁ (.journalTemporary temporary) = some written := by simp [files₁]
  rw [meets_bind, meets_rename hwritten]
  refine ⟨h₂.left, h₃.left, ?_⟩
  exact meets_syncDirectory.mpr ⟨h₃.left, h₄.left, rfl, h₄⟩

theorem meets_sha256File (h : files path = some (.database bytes)) :
    Meets (FileOp.apply sqlite) post crash (sha256File sqlite path) done files ↔
      crash done files ∧ post (.ok (sqlite.sha256 bytes)) done files := by
  unfold sha256File
  rw [meets_get_bind, h]
  exact meets_pure

/-- The journal is written, and says whether there was a previous database. -/
theorem meets_writeJournal (h : Preparing sqlite start id candidate done files)
    (htemporary : files (.journalTemporary temporary) = none)
    (hlive : files .live = (checkpointed sqlite start).map .database)
    {journal : DatabaseReplacementJournal} {hadPrevious : Bool}
    (hjournal : journal = journalOf sqlite start id candidate createdAt) :
    Meets (FileOp.apply sqlite)
      (fun r done files => r = .ok hadPrevious ∧
        Journaled sqlite start id candidate createdAt done files)
      (Left sqlite start id candidate createdAt)
      (writeDatabaseReplacementJournal temporary journal >>= fun _ => pure hadPrevious) done
      files := by
  subst hjournal
  unfold writeDatabaseReplacementJournal
  rw [meets_bind, meets_orElse]
  refine (meets_moveJournalIn h htemporary hlive).mono ?_ (fun _ _ hleft => hleft)
  rintro r done files ⟨rfl, hjournaled⟩
  exact meets_pure.mpr ⟨hjournaled.left, rfl, hjournaled⟩

/-- The previous database is checkpointed before its hash is taken. -/
theorem Preparing.checkpoint (h : Preparing sqlite start id candidate done files)
    (hstart : start .live = some (.database bytes)) :
    Preparing sqlite start id candidate (done ++ [.checkpointDatabase])
      (Function.update (Function.update (Function.update files .live
        (some (.database (sqlite.checkpoint bytes (start .wal))))) .wal none) .shm none) := by
  refine ⟨?_, ?_, .inr ?_, not_installed_append h.notInstalled (by simp)⟩
  · simpa using h.journal
  · simpa using h.candidate
  · simp [checkpointed, hstart]

/-- The files are hashed and the journal written. -/
theorem meets_journalHashes (hstart : Startable sqlite id temporary candidate start)
    (h : Preparing sqlite start id candidate done files) (hlive : files .live = start .live)
    (hwal : files .wal = start .wal) (htemporary : files (.journalTemporary temporary) = none) :
    Meets (FileOp.apply sqlite)
      (fun r done files => r = .ok (start .live).isSome ∧
        Journaled sqlite start id candidate createdAt done files)
      (Left sqlite start id candidate createdAt)
      (journalHashes sqlite id temporary createdAt (start .live).isSome) done files := by
  unfold journalHashes
  cases hprevious : start .live with
  | none =>
      have hnone : checkpointed sqlite start = none := by simp [checkpointed, hprevious]
      rw [Option.isSome_none, meets_bind, meets_whenever_false]
      refine ⟨h.left, ?_⟩
      rw [meets_bind, meets_sha256File h.candidate]
      refine ⟨h.left, ?_⟩
      refine meets_writeJournal h htemporary ?_ ?_
      · rw [hlive, hprevious, hnone]
        rfl
      · simp [journalOf, hnone]
  | some content =>
      obtain ⟨bytes, rfl, hintact⟩ := hstart.live content hprevious
      have hsome : checkpointed sqlite start = some (sqlite.checkpoint bytes (start .wal)) := by
        simp [checkpointed, hprevious]
      have h₁ := h.checkpoint hprevious
      have hcheckpoint : FileOp.apply sqlite .checkpointDatabase files =
          .ok (Function.update (Function.update (Function.update files .live
            (some (.database (sqlite.checkpoint bytes (start .wal))))) .wal none) .shm none) := by
        simp [FileOp.apply, hlive, hprevious, hwal]
      rw [Option.isSome_some, meets_bind, meets_whenever_true, meets_perform hcheckpoint]
      refine ⟨h.left, h₁.left, ?_⟩
      rw [meets_bind, meets_sha256File h₁.candidate]
      refine ⟨h₁.left, ?_⟩
      have hlive₁ : Function.update (Function.update (Function.update files .live
          (some (.database (sqlite.checkpoint bytes (start .wal))))) .wal none) .shm none .live =
          some (.database (sqlite.checkpoint bytes (start .wal))) := by simp
      dsimp only
      rw [meets_bind, previousSha256Of, meets_bind, meets_sha256File hlive₁]
      refine ⟨h₁.left, meets_pure.mpr ⟨h₁.left, ?_⟩⟩
      refine meets_writeJournal h₁ (by simpa using htemporary) ?_ ?_
      · simp [hsome]
      · simp [journalOf, hsome]

/-- The candidate is checked and the journal written. -/
theorem meets_journalReplacement (hstart : Startable sqlite id temporary candidate start)
    (h : Preparing sqlite start id candidate done files) (hlive : files .live = start .live)
    (hwal : files .wal = start .wal) (htemporary : files (.journalTemporary temporary) = none) :
    Meets (FileOp.apply sqlite)
      (fun r done files => r = .ok (start .live).isSome ∧
        Journaled sqlite start id candidate createdAt done files)
      (Left sqlite start id candidate createdAt)
      (journalReplacement sqlite win32 id temporary createdAt) done files := by
  unfold journalReplacement
  rw [meets_bind]
  refine meets_chmodUnlessWin32 (by simp [h.candidate]) ?_
  intro done₁ hdone₁
  have h₁ : Preparing sqlite start id candidate done₁ files := by
    rcases hdone₁ with rfl | rfl
    · exact h
    · exact h.keep _ (by simp) fun _ _ => rfl
  have h₂ := h₁.keep (.syncFile (.candidate id)) (by simp) fun _ _ => rfl
  have hsync : FileOp.apply sqlite (.syncFile (.candidate id)) files = .ok files := by
    simp [FileOp.apply, h.candidate]
  refine ⟨h₁.left, ?_⟩
  rw [meets_bind, meets_perform hsync]
  refine ⟨h₁.left, h₂.left, ?_⟩
  rw [meets_bind, meets_assertDatabaseIntegrity h₂.candidate hstart.valid]
  refine ⟨h₂.left, ?_⟩
  rw [meets_get_bind, hlive]
  exact meets_journalHashes hstart h₂ hlive hwal htemporary

/-- The previous database is moved aside, if there is one. -/
theorem Journaled.moveAside
    (h : Journaled sqlite start id candidate createdAt done files) {content : Content}
    (hlive : files .live = some content) :
    Left sqlite start id candidate createdAt (done ++ [.rename .live (.previous id)])
      (Function.update (Function.update files (.previous id) (some content)) .live none) := by
  have hchecked := h.live
  rw [hlive] at hchecked
  cases hprevious : checkpointed sqlite start with
  | none =>
      rw [hprevious] at hchecked
      cases hchecked
  | some previous =>
      rw [hprevious] at hchecked
      cases hchecked
      refine .inr ⟨by simpa using h.journal, .moved hprevious (by simp) (by simp) ?_ ?_ (by simp)⟩
      · simpa using h.candidate
      · exact not_installed_append h.notInstalled (by simp)

/-- The candidate is renamed onto the live path. -/
theorem placed_of_rename
    (hjournal : files .journal =
      some (.json (journalOf sqlite start id candidate createdAt).toJson))
    (hmoved : (start .live).isSome → MovedAside id done') :
    Placed sqlite start id candidate createdAt done' (Function.update
      (Function.update files .live (some (.database candidate))) (.candidate id) none) :=
  ⟨by simpa using hjournal, .installed (by simp) (by simp) hmoved, by simp⟩

/-- The candidate is renamed onto the live path, and the files cleaned up. -/
theorem meets_renameCandidate {win32 : Bool} (hvalid : sqlite.intact candidate = true)
    (hleft : Left sqlite start id candidate createdAt done files)
    (hjournal : files .journal =
      some (.json (journalOf sqlite start id candidate createdAt).toJson))
    (hcandidate : files (.candidate id) = some (.database candidate))
    (hmoved : (start .live).isSome → MovedAside id done) :
    Meets (FileOp.apply sqlite)
      (fun r done files => r = .ok () ∧ files .journal = none ∧
        Settled sqlite start id candidate done files)
      (Left sqlite start id candidate createdAt)
      (do
        perform (.rename (.candidate id) .live)
        chmodUnlessWin32 win32 .live
        perform .syncDirectory
        assertDatabaseIntegrity sqlite .live
        cleanupDatabaseReplacement id) done files := by
  have hplaced : ∀ done', ((start .live).isSome → MovedAside id done') →
      Placed sqlite start id candidate createdAt done' (Function.update
        (Function.update files .live (some (.database candidate))) (.candidate id) none) :=
    fun _ hmoved' => placed_of_rename hjournal hmoved'
  have h₁ := hplaced (done ++ [.rename (.candidate id) .live]) (by simpa using hmoved)
  rw [meets_bind, meets_rename hcandidate]
  refine ⟨hleft, h₁.left, ?_⟩
  rw [meets_bind]
  refine meets_chmodUnlessWin32 (by simp) ?_
  intro done₂ hdone₂
  have hmoved₂ : (start .live).isSome → MovedAside id done₂ := by
    intro hsome
    rcases hdone₂ with rfl | rfl
    · simpa using hmoved hsome
    · rw [movedAside_append, movedAside_append]
      exact .inl (.inl (hmoved hsome))
  have h₂ := hplaced done₂ hmoved₂
  have h₃ := hplaced (done₂ ++ [.syncDirectory]) (by simpa using hmoved₂)
  refine ⟨h₂.left, ?_⟩
  rw [meets_bind, meets_syncDirectory]
  refine ⟨h₂.left, h₃.left, ?_⟩
  rw [meets_bind, meets_assertDatabaseIntegrity (by simp) hvalid]
  exact ⟨h₃.left, meets_cleanup h₃⟩

/-- The candidate is installed. -/
theorem meets_installCandidate (hstart : Startable sqlite id temporary candidate start)
    (h : Journaled sqlite start id candidate createdAt done files) : Meets (FileOp.apply sqlite)
      (fun r done files => r = .ok () ∧ files .journal = none ∧
        Settled sqlite start id candidate done files)
      (Left sqlite start id candidate createdAt)
      (installCandidate sqlite win32 id (start .live).isSome) done files := by
  have hother : ∀ gone, gone = .wal ∨ gone = .shm → ∀ (f : Files) path,
      path = .journal ∨ path = .live ∨ path = .candidate id →
        Function.update f gone none path = f path := by
    rintro gone (rfl | rfl) f path (rfl | rfl | rfl) <;> simp
  have h₁ := h.keep (.rmForce .wal) (by simp) (hother .wal (.inl rfl) files)
  have h₂ := h₁.keep (.rmForce .shm) (by simp) (hother .shm (.inr rfl) _)
  have h₃ := h₂.keep .syncDirectory (by simp) fun _ _ => rfl
  unfold installCandidate
  rw [meets_bind, meets_rmForce]
  refine ⟨h.left, h₁.left, ?_⟩
  rw [meets_bind, meets_rmForce]
  refine ⟨h₁.left, h₂.left, ?_⟩
  rw [meets_bind, meets_syncDirectory]
  refine ⟨h₂.left, h₃.left, ?_⟩
  rw [meets_bind]
  cases hsome : (start .live).isSome with
  | false =>
      rw [meets_whenever_false]
      refine ⟨h₃.left, ?_⟩
      exact meets_renameCandidate hstart.valid h₃.left h₃.journal h₃.candidate (by simp [hsome])
  | true =>
      have hchecked : (checkpointed sqlite start).isSome = true :=
        hstart.checkpointed_isSome.trans hsome
      obtain ⟨previous, hprevious⟩ := Option.isSome_iff_exists.mp hchecked
      have hlive := h₃.live
      rw [hprevious] at hlive
      have hmoved := h₃.moveAside hlive
      rw [meets_whenever_true, meets_rename hlive]
      refine ⟨h₃.left, hmoved, ?_⟩
      refine meets_renameCandidate hstart.valid hmoved ?_ ?_ ?_
      · simpa using h₃.journal
      · simpa using h₃.candidate
      · intro _
        rw [movedAside_append]
        exact .inr rfl

/-- A replacement, wherever it is cut short. -/
theorem meets_replaceDatabaseFile (hstart : Startable sqlite id temporary candidate start) :
    Meets (FileOp.apply sqlite)
      (fun r done files => r = .ok () ∧ files .journal = none ∧
        Settled sqlite start id candidate done files)
      (Left sqlite start id candidate createdAt)
      (replaceDatabaseFile sqlite win32 id temporary createdAt) [] start := by
  have hbefore : Left sqlite start id candidate createdAt [] start := by
    refine .inl ⟨hstart.journal, .inl (.inl ⟨rfl, rfl⟩), ?_, fun _ _ => .inl ⟨rfl, rfl⟩⟩
    simp [Installed]
  have hcopy : FileOp.apply sqlite (.copyFileExcl .source (.candidate id)) start =
      .ok (Function.update start (.candidate id) (some (.database candidate))) := by
    simp [FileOp.apply, hstart.source, hstart.candidate]
  have hcopied : Preparing sqlite start id candidate [.copyFileExcl .source (.candidate id)]
      (Function.update start (.candidate id) (some (.database candidate))) := by
    refine ⟨by simpa using hstart.journal, by simp, .inl ⟨by simp, by simp⟩, ?_⟩
    simp [Installed]
  unfold replaceDatabaseFile recoverDatabaseReplacement
  rw [meets_bind, meets_get_bind, hstart.journal]
  refine meets_pure.mpr ⟨hbefore, ?_⟩
  rw [meets_get_bind, meets_bind, meets_ensure (by simp [hstart.source])]
  refine ⟨hbefore, ?_⟩
  rw [meets_bind, meets_assertDatabaseIntegrity hstart.source hstart.valid]
  refine ⟨hbefore, ?_⟩
  rw [meets_bind, meets_perform hcopy]
  refine ⟨hbefore, hcopied.left, ?_⟩
  rw [meets_bind, meets_orElse]
  refine (meets_journalReplacement hstart hcopied (by simp) (by simp)
    (by simpa using hstart.temporary)).mono ?_ (fun _ _ hleft => hleft)
  rintro r done files ⟨rfl, hjournaled⟩
  dsimp only
  rw [meets_orElse]
  refine (meets_installCandidate hstart hjournaled).mono ?_ (fun _ _ hleft => hleft)
  rintro r done files ⟨rfl, hended⟩
  exact ⟨rfl, hended⟩

/-- However a replacement is cut short, and however often its recovery is, the
recovery that runs to its end returns and leaves no journal, and the live file is
the previous database or the candidate. -/
theorem replacement_is_crash_safe {win32 : Bool}
    (hstart : Startable sqlite id temporary candidate start) {ops : List FileOp} {left : Files}
    (hstop : (ops, left) ∈ (replaceDatabaseFile sqlite win32 id temporary createdAt).stops
      (FileOp.apply sqlite) start)
    {r : Except StoreError DatabaseReplacementRecovery}
    (hrecovered : Recovered (FileOp.apply sqlite) (recoverDatabaseReplacement sqlite win32) ops left
      r done files) :
    (∃ recovery, r = .ok recovery) ∧ files .journal = none ∧
      (IsPrevious sqlite start files ∨ files .live = some (.database candidate)) ∧
      (Installed id done → files .live = some (.database candidate)) ∧
      ((start .live).isSome → ¬MovedAside id done → IsPrevious sqlite start files) := by
  have hleft : Left sqlite start id candidate createdAt ops left := by
    simpa using (meets_replaceDatabaseFile hstart).stops hstop
  have hrecover : ∀ done files, Left sqlite start id candidate createdAt done files →
      Meets (FileOp.apply sqlite) (Recovers sqlite start id candidate)
        (Left sqlite start id candidate createdAt) (recoverDatabaseReplacement sqlite win32) done
        files := by
    intro done files hfiles
    refine meets_recoverDatabaseReplacement hstart.valid ?_ ?_ hfiles
    · intro previous hprevious
      exact hstart.checkpointed_intact hprevious
    · intro hnone
      rw [← hstart.checkpointed_isSome, hnone]
      rfl
  obtain ⟨hreturns, hjournal, hsettled⟩ := recovered_of_meets hrecover hrecovered hleft
  exact ⟨hreturns, hjournal, hsettled.live, hsettled.installed, hsettled.kept⟩

end

/-- A SQLite for which every file but the empty one is intact. -/
def plainSqlite : Sqlite where
  intact bytes := !bytes.isEmpty
  checkpoint bytes _ := bytes
  intact_checkpoint _ _ h := h
  sha256 bytes := ⟨List.replicate 64 (if bytes.length = 1 then 0x31 else 0x32), by split <;> decide⟩

def firstId : ReplacementId := ⟨js "00000000-0000-4000-8000-000000000000", by decide⟩

/-- A live file of one byte and a source of two. -/
def twoFiles : Files
  | .live => some (.database [1])
  | .source => some (.database [2, 3])
  | _ => none

/-- A replacement of the one by the other. -/
def replaceTwo : FileProgram Unit :=
  replaceDatabaseFile plainSqlite false firstId firstId ⟨.ofNat 1, by decide +kernel⟩

theorem twoFiles_startable : Startable plainSqlite firstId firstId [2, 3] twoFiles where
  source := rfl
  valid := rfl
  live := by
    rintro content h
    cases h
    exact ⟨[1], rfl, rfl⟩
  journal := rfl
  candidate := rfl
  temporary := rfl

/-- Cut short when the live file has been moved aside, the replacement is
recovered. -/
theorem moved_aside_is_recovered :
    ∃ ops left, (ops, left) ∈ replaceTwo.stops (FileOp.apply plainSqlite) twoFiles ∧
      (left .live).isNone = true ∧
      ∃ r done files, Recovered (FileOp.apply plainSqlite)
          (recoverDatabaseReplacement plainSqlite false) ops left r done files ∧
        (∃ recovery, r = .ok recovery) ∧ files .journal = none ∧
        (IsPrevious plainSqlite twoFiles files ∨ files .live = some (.database [2, 3])) := by
  have hany : ((replaceTwo.stops (FileOp.apply plainSqlite) twoFiles).any fun stop =>
      (stop.2 .live).isNone) = true := by decide +kernel
  obtain ⟨⟨ops, left⟩, hmem, hmissing⟩ := List.any_eq_true.mp hany
  have hrecovered : Recovered (FileOp.apply plainSqlite)
      (recoverDatabaseReplacement plainSqlite false) ops left _ _ _ := .finished ops left
  have hsafe := replacement_is_crash_safe twoFiles_startable hmem hrecovered
  exact ⟨ops, left, hmem, hmissing, _, _, _, hrecovered, hsafe.1, hsafe.2.1, hsafe.2.2.1⟩

end StonePlus.Store
