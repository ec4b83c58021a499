import StonePlus.Backup.PortableReplace
import Mathlib.Tactic.Common

/-!
# StonePlus.Backup.ReplaceSafety

A replacement that is cut short, and recovered after any number of recoveries that were cut short
too, leaves the original or the candidate at the destination.

What is at the destination is the original until the candidate is renamed onto it, but for the time
in which only its copy is there; then the journal is there as well.
-/

namespace StonePlus.Backup.PortableReplace

open Lib Lib.Durable

variable {original candidate : Bytes} {done : List FileOp} {files : Files}

/-! ## What a replacement leaves behind -/

/-- The candidate was renamed onto the destination. -/
def Installed (done : List FileOp) : Prop := .rename .temporary .destination ∈ done

instance (done : List FileOp) : Decidable (Installed done) :=
  inferInstanceAs (Decidable (_ ∈ _))

theorem installed_append :
    Installed (done ++ [op]) ↔ Installed done ∨ op = .rename .temporary .destination := by
  simp [Installed, eq_comm]

/-- Every file is absent or holds what it should, and one of the two contents is there or can be
put back. -/
structure Left (original candidate : Bytes) (done : List FileOp) (files : Files) : Prop where
  journal : ∀ content ∈ files .journal, content = .journal ⟨original.length⟩
  rollback : ∀ content ∈ files .rollback, content = .data original
  temporary : ∀ content ∈ files .temporary, ¬ Installed done ∧ content = .data candidate
  installed : Installed done → files .destination = some (.data candidate)
  notInstalled : ¬ Installed done → files .destination = some (.data original) ∨
    files .destination = none ∧ files .rollback = some (.data original) ∧ (files .journal).isSome

/-- What holds when a file that is not the destination is removed. -/
theorem Left.rmForce (h : Left original candidate done files) (path : ReplacePath)
    (hpath : path ≠ .destination) (hdestination : (files .destination).isSome) :
    Left original candidate (done ++ [.rmForce path]) (Function.update files path none) := by
  have hstays : Installed (done ++ [.rmForce path]) ↔ Installed done := by simp [installed_append]
  have hsame : Function.update files path none .destination = files .destination :=
    Function.update_of_ne hpath.symm _ _
  have hsub : ∀ (other : ReplacePath), ∀ content ∈ Function.update files path none other,
      content ∈ files other := by
    intro other content hcontent
    by_cases hother : other = path
    · subst hother
      simp at hcontent
    · rwa [Function.update_of_ne hother] at hcontent
  constructor
  · exact fun content hcontent => h.journal content (hsub _ content hcontent)
  · exact fun content hcontent => h.rollback content (hsub _ content hcontent)
  · intro content hcontent
    rw [hstays]
    exact h.temporary content (hsub _ content hcontent)
  · intro hinstalled
    rw [hsame]
    exact h.installed (hstays.mp hinstalled)
  · intro hnot
    rw [hsame]
    refine .inl ((h.notInstalled (hstays.not.mp hnot)).resolve_right fun hnone => ?_)
    rw [hnone.1] at hdestination
    contradiction

theorem Left.destination (h : Left original candidate done files)
    (hjournal : files .journal = none) :
    files .destination = some (.data original) ∨ files .destination = some (.data candidate) := by
  by_cases hinstalled : Installed done
  · exact .inr (h.installed hinstalled)
  · refine .inl ((h.notInstalled hinstalled).resolve_right fun hnone => ?_)
    rw [hjournal] at hnone
    exact absurd hnone.2.2 (by simp)

/-! ## Recovery -/

theorem meets_rmForce : Meets FileOp.apply post crash (perform (.rmForce path)) done files ↔
      crash done files ∧
        crash (done ++ [.rmForce path]) (Function.update files path none) ∧
          post (.ok ()) (done ++ [.rmForce path]) (Function.update files path none) :=
  meets_perform rfl

/-- A recovery that returns has removed the journal. -/
def Cleared {α : Type} (original candidate : Bytes) (r : Except ReplaceError α)
    (done : List FileOp) (files : Files) : Prop :=
  Left original candidate done files ∧ ∀ a, r = .ok a → files .journal = none

theorem meets_cleanupReplacement (h : Left original candidate done files)
    (hdestination : (files .destination).isSome) :
    Meets FileOp.apply (Cleared original candidate) (Left original candidate) cleanupReplacement
      done files := by
  have h₁ := h.rmForce .temporary (by simp) hdestination
  have h₂ := h₁.rmForce .rollback (by simp) (by simpa using hdestination)
  have h₃ := h₂.rmForce .journal (by simp) (by simpa using hdestination)
  unfold cleanupReplacement
  rw [meets_bind, meets_rmForce]
  refine ⟨h, h₁, ?_⟩
  dsimp only
  rw [meets_bind, meets_rmForce]
  refine ⟨h₁, h₂, ?_⟩
  dsimp only
  rw [meets_rmForce]
  exact ⟨h₂, h₃, h₃, fun _ _ => by simp⟩

/-- The copy of the original takes the place of the destination. -/
theorem meets_restore (h : Left original candidate done files)
    (hnot : ¬ Installed done) (hrollback : files .rollback = some (.data original))
    (hjournal : (files .journal).isSome) :
    Meets FileOp.apply (Cleared original candidate) (Left original candidate)
      (do
        whenever (files .destination).isSome (perform (.rm .destination))
        perform (.rename .rollback .destination)
        perform (.rmForce .temporary)
        perform (.rmForce .journal)) done files := by
  -- With the destination gone, the copy is moved.
  have hmove : ∀ done files, Left original candidate done files → ¬ Installed done →
      files .destination = none → files .rollback = some (.data original) →
      Meets FileOp.apply (Cleared original candidate) (Left original candidate)
        (do
          perform (.rename .rollback .destination)
          perform (.rmForce .temporary)
          perform (.rmForce .journal)) done files := by
    intro done files h hnot hnone hrollback
    let files₁ := Function.update (Function.update files .destination (some (.data original)))
      .rollback none
    have hrename : FileOp.apply (.rename .rollback .destination) files = .ok files₁ := by
      simp [FileOp.apply, hrollback, files₁]
    have h₁ : Left original candidate (done ++ [.rename .rollback .destination]) files₁ := by
      have hstays : ¬ Installed (done ++ [.rename .rollback .destination]) := by
        simp [installed_append, hnot]
      refine ⟨?_, by simp [files₁], ?_, fun hi => absurd hi hstays, fun _ => .inl (by simp [files₁])⟩
      · simpa [files₁] using h.journal
      · intro content hcontent
        exact ⟨hstays, (h.temporary content (by simpa [files₁] using hcontent)).2⟩
    have hdestination : (files₁ .destination).isSome := by simp [files₁]
    have h₂ := h₁.rmForce .temporary (by simp) hdestination
    have h₃ := h₂.rmForce .journal (by simp) (by simpa using hdestination)
    rw [meets_bind, meets_perform hrename]
    refine ⟨h, h₁, ?_⟩
    dsimp only
    rw [meets_bind, meets_rmForce]
    refine ⟨h₁, h₂, ?_⟩
    dsimp only
    rw [meets_rmForce]
    exact ⟨h₂, h₃, h₃, fun _ _ => by simp⟩
  cases hdestination : files .destination with
  | none =>
    rw [Option.isSome_none, meets_bind, meets_whenever_false]
    exact ⟨h, hmove done files h hnot hdestination hrollback⟩
  | some content =>
    let files₁ := Function.update files .destination none
    have hrm : FileOp.apply (.rm .destination) files = .ok files₁ := by
      simp [FileOp.apply, hdestination, files₁]
    have h₁ : Left original candidate (done ++ [.rm .destination]) files₁ := by
      have hstays : ¬ Installed (done ++ [.rm .destination]) := by simp [installed_append, hnot]
      refine ⟨?_, ?_, ?_, fun hi => absurd hi hstays, fun _ => .inr ?_⟩
      · simpa [files₁] using h.journal
      · simpa [files₁] using h.rollback
      · intro content hcontent
        exact ⟨hstays, (h.temporary content (by simpa [files₁] using hcontent)).2⟩
      · simpa [files₁, hrollback] using hjournal
    rw [Option.isSome_some, meets_bind, meets_whenever_true, meets_perform hrm]
    refine ⟨h, h₁, ?_⟩
    refine hmove _ _ h₁ ?_ (by simp [files₁]) (by simpa [files₁] using hrollback)
    simp [installed_append, hnot]

theorem meets_recoverReplacement (h : Left original candidate done files)
    (hportable : isPortableBackup candidate = true) (hjournal : (files .journal).isSome) :
    Meets FileOp.apply (Cleared original candidate) (Left original candidate)
      (recoverReplacement ⟨original.length⟩) done files := by
  unfold recoverReplacement
  rw [meets_get_bind]
  split
  · rename_i hboth
    exact meets_cleanupReplacement h (by simp_all)
  · rename_i hboth
    split
    · rename_i hinstalled
      refine meets_cleanupReplacement h ?_
      rw [Bool.and_eq_true, Option.any_eq_true] at hinstalled
      obtain ⟨⟨content, hcontent, -⟩, -⟩ := hinstalled
      simp [hcontent]
    · rename_i hneither
      have hnot : ¬ Installed done := by
        intro hinstalled
        have hdestination := h.installed hinstalled
        cases htemporary : files .temporary with
        | none => simp [hdestination, htemporary, Content.isPortableBackup, hportable] at hneither
        | some content => exact (h.temporary content htemporary).1 hinstalled
      cases hrollback : files .rollback with
      | none =>
        rw [meets_bind]
        exact ⟨h, h, fun _ hr => nomatch hr⟩
      | some content =>
        obtain rfl := h.rollback content hrollback
        rw [meets_bind, meets_ensure (by simp [Content.hasSize])]
        exact ⟨h, meets_restore h hnot hrollback hjournal⟩

/-- A recovery that reports no failure leaves no journal. -/
def Recovers (original candidate : Bytes)
    (r : Except ReplaceError PortableReplacementRecoveryResult) (done : List FileOp)
    (files : Files) : Prop :=
  Left original candidate done files ∧
    ∃ result, r = .ok result ∧ (result.failures = [] → files .journal = none)

theorem meets_recover (h : Left original candidate done files)
    (hportable : isPortableBackup candidate = true) :
    Meets FileOp.apply (Recovers original candidate) (Left original candidate)
      recoverPortableBackupReplacements done files := by
  unfold recoverPortableBackupReplacements
  rw [meets_get_bind]
  cases hjournal : files .journal with
  | none => exact meets_pure.mpr ⟨h, h, _, rfl, fun _ => hjournal⟩
  | some content =>
    obtain rfl := h.journal content hjournal
    dsimp only
    unfold recoverOne recoverJournal
    rw [meets_orElse, meets_bind]
    refine (meets_recoverReplacement h hportable (by simp [hjournal])).mono ?_ fun _ _ hleft => hleft
    intro r done files hcleared
    cases r with
    | ok _ => exact meets_pure.mpr ⟨hcleared.1, hcleared.1, _, rfl, fun _ => hcleared.2 () rfl⟩
    | error e => exact meets_pure.mpr ⟨hcleared.1, hcleared.1, _, rfl, fun hnone => nomatch hnone⟩

/-! ## Replacement -/

/-- A replacement starts with the candidate next to the original, and with no journal. -/
structure Startable (original candidate : Bytes) (files : Files) : Prop where
  destination : files .destination = some (.data original)
  temporary : files .temporary = some (.data candidate)
  rollback : files .rollback = none
  journal : files .journal = none
  journalTemporary : files .journalTemporary = none

variable {refused : Bool} {start : Files}

/-- The candidate has not been installed, and what is there is where it belongs. -/
structure Waiting (original candidate : Bytes) (done : List FileOp) (files : Files) : Prop where
  notInstalled : ¬ Installed done
  destination : files .destination = some (.data original)
  temporary : files .temporary = some (.data candidate)
  rollback : ∀ content ∈ files .rollback, content = .data original
  journal : ∀ content ∈ files .journal, content = .journal ⟨original.length⟩

theorem Waiting.left (h : Waiting original candidate done files) :
    Left original candidate done files := by
  refine ⟨h.journal, h.rollback, fun content hcontent => ⟨h.notInstalled, ?_⟩,
    fun hi => absurd hi h.notInstalled, fun _ => .inl h.destination⟩
  rw [h.temporary] at hcontent
  exact (Option.some.inj hcontent).symm

theorem meets_prepareReplacement (hstart : Startable original candidate start) :
    Meets FileOp.apply (fun r done files => r = .ok () ∧ Waiting original candidate done files ∧
        files .rollback = some (.data original) ∧ (files .journal).isSome)
      (Left original candidate) (prepareReplacement ⟨original.length⟩) [] start := by
  let files₁ := Function.update start .rollback (some (.data original))
  let files₂ := Function.update files₁ .journalTemporary (some (.journal ⟨original.length⟩))
  let files₃ := Function.update (Function.update files₂ .journal
    (some (.journal ⟨original.length⟩))) .journalTemporary none
  have hcopy : FileOp.apply (.copyFileExcl .destination .rollback) start = .ok files₁ := by
    simp [FileOp.apply, hstart.destination, hstart.rollback, files₁]
  have hwrite : FileOp.apply (.writeFileExcl .journalTemporary (.journal ⟨original.length⟩)) files₁ =
      .ok files₂ := by
    simp [FileOp.apply, hstart.journalTemporary, files₁, files₂]
  have hrename : FileOp.apply (.rename .journalTemporary .journal) files₂ = .ok files₃ := by
    simp [FileOp.apply, files₂, files₃]
  have h₀ : Waiting original candidate [] start :=
    ⟨by simp [Installed], hstart.destination, hstart.temporary, by simp [hstart.rollback],
      by simp [hstart.journal]⟩
  have h₁ : Waiting original candidate [.copyFileExcl .destination .rollback] files₁ := by
    refine ⟨by simp [Installed], ?_, ?_, ?_, ?_⟩ <;>
      simp [files₁, hstart.destination, hstart.temporary, hstart.journal]
  have h₂ : Waiting original candidate ([.copyFileExcl .destination .rollback] ++
      [.writeFileExcl .journalTemporary (.journal ⟨original.length⟩)]) files₂ := by
    refine ⟨by simp [Installed], ?_, ?_, ?_, ?_⟩ <;>
      simp [files₁, files₂, hstart.destination, hstart.temporary, hstart.journal]
  have h₃ : Waiting original candidate ([.copyFileExcl .destination .rollback] ++
      [.writeFileExcl .journalTemporary (.journal ⟨original.length⟩)] ++
        [.rename .journalTemporary .journal]) files₃ := by
    refine ⟨by simp [Installed], ?_, ?_, ?_, ?_⟩ <;>
      simp [files₁, files₂, files₃, hstart.destination, hstart.temporary]
  unfold prepareReplacement copyOriginal writeReplacementJournal moveJournalIn
  rw [meets_orElse, meets_bind, meets_perform hcopy]
  refine ⟨h₀.left, h₁.left, ?_⟩
  dsimp only
  rw [meets_orElse, meets_bind, meets_perform hwrite]
  refine ⟨h₁.left, h₂.left, ?_⟩
  dsimp only
  rw [meets_perform hrename]
  exact ⟨h₂.left, h₃.left, rfl, h₃, by simp [files₁, files₂, files₃], by simp [files₃]⟩

/-- The candidate is at the destination, in either way. -/
theorem meets_installCandidate (hportable : isPortableBackup candidate = true)
    (h : Waiting original candidate done files) (hrollback : files .rollback = some (.data original))
    (hjournal : (files .journal).isSome) :
    Meets FileOp.apply (fun r done files => r = .ok () ∧ Left original candidate done files ∧
        (files .destination).isSome)
      (Left original candidate) (installCandidate refused original.length) done files := by
  -- The rename that installs it, from where the original may be gone.
  have hrename : ∀ done files, Left original candidate done files →
      files .temporary = some (.data candidate) →
      Meets FileOp.apply (fun r done files => r = .ok () ∧ Left original candidate done files ∧
          (files .destination).isSome)
        (Left original candidate)
        (do
          perform (.rename .temporary .destination)
          inspectDestination) done files := by
    intro done files h htemporary
    let files₁ := Function.update (Function.update files .destination (some (.data candidate)))
      .temporary none
    have happly : FileOp.apply (.rename .temporary .destination) files = .ok files₁ := by
      simp [FileOp.apply, htemporary, files₁]
    have hinstalled : Installed (done ++ [.rename .temporary .destination]) :=
      installed_append.mpr (.inr rfl)
    have h₁ : Left original candidate (done ++ [.rename .temporary .destination]) files₁ := by
      refine ⟨?_, ?_, by simp [files₁], fun _ => by simp [files₁], fun hn => absurd hinstalled hn⟩
      · simpa [files₁] using h.journal
      · simpa [files₁] using h.rollback
    have hinspected : (files₁ .destination).any Content.isPortableBackup = true := by
      simp [files₁, Content.isPortableBackup, hportable]
    rw [meets_bind, meets_perform happly]
    refine ⟨h, h₁, ?_⟩
    dsimp only
    unfold inspectDestination
    rw [meets_get_bind, meets_ensure hinspected]
    exact ⟨h₁, rfl, h₁, by simp [files₁]⟩
  unfold installCandidate renameOver
  cases refused with
  | false => exact hrename done files h.left h.temporary
  | true =>
    let files₁ := Function.update files .destination none
    have hrm : FileOp.apply (.rm .destination) files = .ok files₁ := by
      simp [FileOp.apply, h.destination, files₁]
    have hunchanged : (files .destination).any (Content.hasSize original.length) = true := by
      simp [h.destination, Content.hasSize]
    have h₁ : Left original candidate (done ++ [.rm .destination]) files₁ := by
      have hstays : ¬ Installed (done ++ [.rm .destination]) := by
        simp [installed_append, h.notInstalled]
      refine ⟨?_, ?_, ?_, fun hi => absurd hi hstays, fun _ => .inr ?_⟩
      · simpa [files₁] using h.journal
      · simpa [files₁] using h.rollback
      · intro content hcontent
        exact ⟨hstays, (h.left.temporary content (by simpa [files₁] using hcontent)).2⟩
      · simpa [files₁, hrollback] using hjournal
    simp only [if_true]
    rw [meets_bind, meets_get_bind, meets_bind, meets_ensure hunchanged]
    refine ⟨h.left, ?_⟩
    dsimp only
    rw [meets_bind, meets_perform hrm]
    refine ⟨h.left, h₁, ?_⟩
    dsimp only
    exact meets_bind.mp (hrename _ _ h₁ (by simpa [files₁] using h.temporary))

theorem meets_atomicReplace (hportable : isPortableBackup candidate = true)
    (hstart : Startable original candidate start) :
    Meets FileOp.apply (fun _ _ _ => True) (Left original candidate) (atomicReplace refused) []
      start := by
  have hleft : Left original candidate [] start :=
    Waiting.left ⟨by simp [Installed], hstart.destination, hstart.temporary,
      by simp [hstart.rollback], by simp [hstart.journal]⟩
  unfold atomicReplace recoverPortableBackupReplacements
  rw [meets_bind, meets_get_bind, hstart.journal]
  refine meets_pure.mpr ⟨hleft, ?_⟩
  dsimp only
  rw [meets_bind, meets_ensure rfl]
  refine ⟨hleft, ?_⟩
  dsimp only
  rw [meets_get_bind, hstart.destination]
  dsimp only
  rw [meets_bind]
  refine (meets_prepareReplacement hstart).mono ?_ fun _ _ hleft => hleft
  rintro r done files ⟨rfl, hwaiting, hrollback, hjournal⟩
  unfold installReplacement
  rw [meets_bind, meets_orElse]
  refine (meets_installCandidate hportable hwaiting hrollback hjournal).mono ?_
    fun _ _ hleft => hleft
  rintro r done files ⟨rfl, hleft, hdestination⟩
  dsimp only
  rw [meets_orElse]
  refine (meets_cleanupReplacement hleft hdestination).mono ?_ fun _ _ hleft => hleft
  intro r done files hcleared
  cases r with
  | ok _ => trivial
  | error e => exact ⟨hcleared.1, trivial⟩

/-- However a replacement is cut short, and however often its recovery is, a recovery that reports
no failure leaves the original or the candidate at the destination, the candidate if it had been
renamed onto it, and no journal. -/
theorem interrupted_replace_recovers (hportable : isPortableBackup candidate = true)
    (hstart : Startable original candidate start) {ops : List FileOp} {left : Files}
    (hstop : (ops, left) ∈ (atomicReplace refused).stops FileOp.apply start)
    {result : PortableReplacementRecoveryResult}
    (hrecovered : Recovered FileOp.apply recoverPortableBackupReplacements ops left (.ok result) done
      files) (hnone : result.failures = []) :
    (files .destination = some (.data original) ∨ files .destination = some (.data candidate)) ∧
      (Installed done → files .destination = some (.data candidate)) ∧ files .journal = none := by
  have hleft : Left original candidate ops left := by
    simpa using (meets_atomicReplace hportable hstart).stops hstop
  obtain ⟨hends, result', hresult, hjournal⟩ := recovered_of_meets
    (fun done files h => meets_recover h hportable) hrecovered hleft
  obtain rfl := Except.ok.inj hresult
  exact ⟨hends.destination (hjournal hnone), hends.installed, hjournal hnone⟩

/-- The header of a backup without a payload. -/
def sampleBackup : Bytes :=
  (("STONEPB1\n" ++ "\x7b\"format\":\"stone-portable-backup\",\"version\":2," ++
    "\"cipher\":\"aes-256-gcm\",\"kdf\":\"scrypt\",\"salt\":\"\",\"iv\":\"\"," ++
    "\"createdAt\":1,\"tag\":\"\"\x7d").toList.map fun c => UInt8.ofNat c.toNat) ++
    List.replicate 400 0

def sampleStart : Files
  | .destination => some (.data [1])
  | .temporary => some (.data sampleBackup)
  | _ => none

theorem isPortableBackup_sample : isPortableBackup sampleBackup = true := by decide +kernel

/-- The process dies when the candidate has been renamed onto the original. -/
def sampleStop : List FileOp × Files :=
  ((atomicReplace true).stops FileOp.apply sampleStart).getD 5 ([], sampleStart)

theorem sampleStop_mem : sampleStop ∈ (atomicReplace true).stops FileOp.apply sampleStart := by
  have hlength : 5 < ((atomicReplace true).stops FileOp.apply sampleStart).length := by
    decide +kernel
  rw [sampleStop, List.getD_eq_getElem?_getD, List.getElem?_eq_getElem hlength]
  exact List.getElem_mem hlength

/-- How the recovery ends. -/
def sampleEnd : Except ReplaceError PortableReplacementRecoveryResult × List FileOp × Files :=
  recoverPortableBackupReplacements.run FileOp.apply sampleStop.2

theorem interrupted_replace_recovers_sample :
    sampleEnd.2.2 .destination = some (.data sampleBackup) ∧ sampleEnd.2.2 .journal = none := by
  have hresult : sampleEnd.1 = .ok ⟨1, []⟩ := by decide +kernel
  have hinstalled : Installed (sampleStop.1 ++ sampleEnd.2.1) := by decide +kernel
  have hstart : Startable [1] sampleBackup sampleStart := ⟨rfl, rfl, rfl, rfl, rfl⟩
  have hstop := sampleStop_mem
  unfold sampleEnd at *
  generalize sampleStop = stop at *
  have hrecovered := @Recovered.finished _ _ _ _ FileOp.apply recoverPortableBackupReplacements
    stop.1 stop.2
  rw [hresult] at hrecovered
  obtain ⟨-, hcandidate, hjournal⟩ := interrupted_replace_recovers isPortableBackup_sample
    hstart hstop hrecovered rfl
  exact ⟨hcandidate hinstalled, hjournal⟩

end StonePlus.Backup.PortableReplace
