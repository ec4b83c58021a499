import StonePlus.Credentials.Rotation

/-!
# StonePlus.Credentials.RotationSafety

A rotation that has been journaled is not lost, as long as no recovery drops
its entry without the vault and the journal can be read back.

While the account still holds the source of the rotation, the journal has an
entry that redeems it; the entry goes only once the rotated credential is stored.
-/

namespace StonePlus.Credentials

open Lib

variable {crypto : Crypto}

/-! ## What the account holds -/

/-- The credential that an account of the type of a rotation has stored. -/
def storedCredential (rotation : Rotation crypto) (database : Database) : Option JsString :=
  match database.accounts rotation.accountId with
  | some account =>
    if account.credentialType = some rotation.credentialType then
      getCredential crypto true database account.credentialId
    else none
  | none => none

def HoldsSource (rotation : Rotation crypto) (database : Database) : Prop :=
  storedCredential rotation database = some rotation.source

def HoldsRotated (rotation : Rotation crypto) (database : Database) : Prop :=
  storedCredential rotation database = some rotation.serialized

instance (rotation : Rotation crypto) (database : Database) :
    Decidable (HoldsSource rotation database) :=
  inferInstanceAs (Decidable (_ = _))

instance (rotation : Rotation crypto) (database : Database) :
    Decidable (HoldsRotated rotation database) :=
  inferInstanceAs (Decidable (_ = _))

/-- The stored credential has not been replaced by anything else. -/
def Holds (rotation : Rotation crypto) (database : Database) : Prop :=
  HoldsSource rotation database ∨ HoldsRotated rotation database

instance (rotation : Rotation crypto) (database : Database) : Decidable (Holds rotation database) :=
  inferInstanceAs (Decidable (_ ∨ _))

/-- A step replaces the stored credential by something else. -/
def Replaces (rotation : Rotation crypto) (s : System crypto) (event : Event) : Prop :=
  Holds rotation s.database ∧ ¬Holds rotation (step s event).database

instance (rotation : Rotation crypto) (s : System crypto) (event : Event) :
    Decidable (Replaces rotation s event) :=
  inferInstanceAs (Decidable (_ ∧ _))

/-- A step puts the source back over the rotated credential. -/
def PutsBack (rotation : Rotation crypto) (s : System crypto) (event : Event) : Prop :=
  HoldsRotated rotation s.database ∧ ¬HoldsRotated rotation (step s event).database ∧
    HoldsSource rotation (step s event).database

instance (rotation : Rotation crypto) (s : System crypto) (event : Event) :
    Decidable (PutsBack rotation s event) :=
  inferInstanceAs (Decidable (_ ∧ _))

/-- The key of the entry that a recovery is about to look at without the vault. -/
def keyWithoutVault (s : System crypto) : Option JsString :=
  match s.process with
  | some ⟨false, _, .recovering ((key, _) :: _) _⟩ => some key
  | _ => none

/-- The recovery does not look at the entry without the vault before the
rotated credential is stored. -/
def RecoversWithVault (rotation : Rotation crypto) (s : System crypto) : Prop :=
  keyWithoutVault s = some rotation.key → HoldsRotated rotation s.database

instance (rotation : Rotation crypto) (s : System crypto) : Decidable (RecoversWithVault rotation s) :=
  inferInstanceAs (Decidable (_ → _))

/-- A rotation that is journaled leaves a journal that can be read back. -/
def journalsReadably (s : System crypto) : Bool :=
  match s.process with
  | some ⟨_, _, .journaling journal rotation⟩ =>
      (journal.set rotation.key rotation.record).size ≤ 10000 ∧ rotation.accountId ≠ []
  | _ => true

/-- A later rotation of the account does not hand the source back. -/
def RotatesAway (rotation : Rotation crypto) (request : Request) : Prop :=
  credentialRotationKey request.credentialType request.accountId = rotation.key →
    request.serialized = rotation.source → rotation.serialized = rotation.source

instance (rotation : Rotation crypto) (request : Request) : Decidable (RotatesAway rotation request) :=
  inferInstanceAs (Decidable (_ → _ → _))

/-- What the inputs of a run must keep to for a rotation not to be lost. -/
def InputOk (rotation : Rotation crypto) (s : System crypto) : Event → Prop
  | .next _ => RecoversWithVault rotation s
  | .commit => journalsReadably s = true
  | .rotate request => RotatesAway rotation request
  | _ => True

instance (rotation : Rotation crypto) (s : System crypto) : ∀ event, Decidable (InputOk rotation s event)
  | .next _ => inferInstanceAs (Decidable (RecoversWithVault rotation s))
  | .commit => inferInstanceAs (Decidable (_ = _))
  | .rotate request => inferInstanceAs (Decidable (RotatesAway rotation request))
  | .start _ | .crash | .reject | .change .. => .isTrue trivial

def Careful (rotation : Rotation crypto) (s : System crypto) (event : Event) : Prop :=
  ¬PutsBack rotation s event ∧ InputOk rotation s event

instance (rotation : Rotation crypto) (s : System crypto) (event : Event) :
    Decidable (Careful rotation s event) :=
  inferInstanceAs (Decidable (_ ∧ _))

/-! ## Journals in memory and on disk -/

/-- What the records of the code's own journals are. -/
def Genuine (crypto : Crypto) (record : CredentialRotationRecord) : Prop :=
  ∃ rotated, crypto.decryptString record.encryptedRotated = some rotated ∧
    record.rotatedSha256 = crypto.credentialSha256 rotated ∧
    crypto.accepts record.credentialType rotated = true

theorem Rotation.genuine (rotation : Rotation crypto) : Genuine crypto rotation.record :=
  ⟨rotation.serialized, rotation.decrypts, rfl, rotation.accepted⟩

theorem Rotation.readable (rotation : Rotation crypto) (h : rotation.accountId ≠ []) :
    EntryReadable rotation.key rotation.record :=
  ⟨h, rfl, crypto.isSha256_credentialSha256 _, crypto.isSha256_credentialSha256 _,
    rotation.encrypted_ne_nil⟩

/-- A journal that a stage carries is one that was read, less what has been dealt with. -/
def StageSound : Stage crypto → Prop
  | .recovering remaining journal | .dropping remaining journal =>
      journal.entries = remaining ∧ Sound (Genuine crypto) journal
  | .restoring key remaining journal _ =>
      (∃ record, journal.entries = (key, record) :: remaining) ∧ Sound (Genuine crypto) journal
  | .journaling journal _ | .cleaning journal => Sound (Genuine crypto) journal
  | _ => True

structure WellFormed (s : System crypto) : Prop where
  journal : ∃ journal, s.database.journal = writtenJournal journal ∧
    ∀ e ∈ journal.entries, Genuine crypto e.2
  stage : ∀ process, s.process = some process → StageSound process.stage

variable {s : System crypto}

/-- A journal that is read from the metadata. -/
theorem WellFormed.read (h : WellFormed s) {journal : CredentialRotationJournal}
    (hread : parseCredentialRotationJournal s.database.journal = some journal) :
    Sound (Genuine crypto) journal := by
  obtain ⟨written, hwritten, hgenuine⟩ := h.journal
  rw [hwritten, parse_writtenJournal] at hread
  obtain ⟨-, rfl, hsize, hreadable⟩ := hread
  exact ⟨hsize, hreadable, hgenuine⟩

theorem WellFormed.readOrEmpty (h : WellFormed s) :
    Sound (Genuine crypto) ((parseCredentialRotationJournal s.database.journal).getD ∅) := by
  cases hread : parseCredentialRotationJournal s.database.journal with
  | none => exact sound_empty
  | some journal => exact h.read hread

/-- Only the journal and the process matter. -/
theorem WellFormed.congr {s' : System crypto} (h : WellFormed s)
    (hjournal : s'.database.journal = s.database.journal)
    (hstage : ∀ process, s'.process = some process → StageSound process.stage) : WellFormed s' :=
  ⟨by rw [hjournal]; exact h.journal, hstage⟩

theorem delete_head {journal : CredentialRotationJournal}
    (h : journal.entries = (key, record) :: remaining) :
    (journal.delete key).entries = remaining := by
  have hnodup := journal.nodup
  rw [h, List.map_cons, List.nodup_cons] at hnodup
  have hkeep : ∀ e ∈ remaining, decide (e.1 ≠ key) = true := by
    intro e he
    have : e.1 ∈ remaining.map Prod.fst := List.mem_map_of_mem he
    exact decide_eq_true fun heq => hnodup.1 (heq ▸ this)
  change journal.entries.filter _ = remaining
  rw [h, List.filter_cons, if_neg (by simp), List.filter_eq_self.mpr hkeep]

/-- What a row update that is made has checked, and what it changes. -/
theorem Update.commit_eq_some {update : Update} : update.commit database = some written ↔
      ∃ account, database.accounts update.accountId = some account ∧
        account.credentialId = update.credentialId ∧
        database.credentials update.credentialId = some update.expectedEncryptedValue ∧
        account.credentialType = some update.credentialType ∧
        written = { database with
          credentials :=
            Function.update database.credentials update.credentialId (some update.encryptedValue) } := by
  simp only [Update.commit, Option.bind_eq_bind, Option.bind_eq_some_iff, guard_eq_some, exists_const,
    Option.pure_def, Option.some.injEq, @eq_comm _ written]

theorem Update.commit_journal {update : Update} (h : update.commit database = some written) :
    written.journal = database.journal := by
  obtain ⟨_, _, _, _, _, rfl⟩ := Update.commit_eq_some.mp h
  rfl

theorem recoverEntry_sound (h : journal.entries = (key, record) :: remaining)
    (hsound : Sound (Genuine crypto) journal) :
    StageSound (@recoverEntry crypto database vaultAvailable key record remaining journal salt) := by
  have hdrop : StageSound (.dropping remaining (journal.delete key) : Stage crypto) :=
    ⟨delete_head h, hsound.delete key⟩
  unfold recoverEntry
  dsimp only
  split
  · split
    · split
      · exact ⟨⟨record, h⟩, hsound⟩
      · trivial
    · exact hdrop
  · exact hdrop

theorem goOn_sound {process : Process crypto} (salt : Nat)
    (h : WellFormed ⟨database, some process⟩) : StageSound (goOn database process salt).stage := by
  have hstage := h.stage process rfl
  unfold goOn
  split
  · split
    · trivial
    · split
      · trivial
      · next journal hread => exact ⟨rfl, h.read hread⟩
  · trivial
  · next key record remaining journal heq =>
    rw [heq] at hstage
    exact recoverEntry_sound hstage.1 hstage.2
  · split <;> trivial
  · exact hstage

theorem beginRotation_sound (request : Request) (h : WellFormed ⟨database, some process⟩) :
    StageSound (beginRotation database process request).stage := by
  unfold beginRotation
  split
  · split
    · exact h.readOrEmpty
    · exact h.stage process rfl
  · exact h.stage process rfl

theorem reject_sound : StageSound process.stage → StageSound (reject process).stage := by
  intro h
  unfold reject
  split
  · trivial
  · trivial
  · trivial
  · trivial
  · trivial
  · trivial
  · exact h

theorem commit_wellFormed {process : Process crypto} (h : WellFormed ⟨database, some process⟩) :
    WellFormed ⟨(commit database process).1, some (commit database process).2⟩ := by
  have hstage := h.stage process rfl
  unfold commit
  split
  · exact ⟨⟨∅, rfl, by simp [show (∅ : CredentialRotationJournal).entries = [] from rfl]⟩, by simp [StageSound]⟩
  · next key remaining journal update heq =>
    rw [heq] at hstage
    obtain ⟨⟨record, hentries⟩, hsound⟩ := hstage
    split
    · next written hwritten =>
      refine h.congr (Update.commit_journal hwritten) ?_
      rintro _ ⟨⟩
      exact ⟨delete_head hentries, hsound.delete key⟩
    · refine h.congr rfl ?_
      rintro _ ⟨⟩
      trivial
  · next remaining journal heq =>
    rw [heq] at hstage
    refine ⟨⟨journal, rfl, hstage.2.records⟩, ?_⟩
    rintro _ ⟨⟩
    exact hstage
  · next journal rotation heq =>
    rw [heq] at hstage
    refine ⟨⟨_, rfl, ?_⟩, ?_⟩
    · intro e he
      rcases JsMap.mem_setEntries he with rfl | he
      · exact rotation.genuine
      · exact hstage.records e he
    · rintro _ ⟨⟩
      trivial
  · next rotation journaled update heq =>
    split
    · next written hwritten =>
      have hread : WellFormed ⟨written, some process⟩ :=
        h.congr (Update.commit_journal hwritten) (by rintro _ ⟨⟩; exact hstage)
      split
      · refine ⟨hread.journal, ?_⟩
        rintro _ ⟨⟩
        exact hread.readOrEmpty.delete _
      · refine ⟨hread.journal, ?_⟩
        rintro _ ⟨⟩
        trivial
    · refine h.congr rfl ?_
      rintro _ ⟨⟩
      trivial
  · next journal heq =>
    rw [heq] at hstage
    refine ⟨⟨journal, rfl, hstage.records⟩, ?_⟩
    rintro _ ⟨⟩
    trivial
  · exact h

/-- Every step keeps the journals well formed. -/
theorem WellFormed.step (h : WellFormed s) (event : Event) : WellFormed (step s event) := by
  obtain ⟨database, process⟩ := s
  cases process with
  | none =>
      cases event with
      | start vaultAvailable =>
          refine h.congr rfl ?_
          rintro _ ⟨⟩
          trivial
      | crash | next | rotate | commit | reject | change => exact h.congr rfl (by rintro _ ⟨⟩)
  | some process =>
      cases event with
      | start => exact h
      | crash => exact h.congr rfl (by rintro _ ⟨⟩)
      | next salt => exact h.congr rfl (by rintro _ ⟨⟩; exact goOn_sound salt h)
      | rotate request => exact h.congr rfl (by rintro _ ⟨⟩; exact beginRotation_sound request h)
      | commit => exact commit_wellFormed h
      | reject => exact h.congr rfl (by rintro _ ⟨⟩; exact reject_sound (h.stage process rfl))
      | change => exact h.congr rfl (by rintro _ ⟨⟩; exact h.stage process rfl)

/-- A state of some run of the app, which has no journal when it is first started. -/
def Reachable (s : System crypto) : Prop :=
  ∃ accounts credentials events, s = run step ⟨⟨none, accounts, credentials⟩, none⟩ events

theorem Reachable.wellFormed (h : Reachable s) : WellFormed s := by
  obtain ⟨accounts, credentials, events, rfl⟩ := h
  refine invariant_run WellFormed (fun s event hs => hs.step event) ?_ events
  exact ⟨⟨∅, rfl, by simp [show (∅ : CredentialRotationJournal).entries = [] from rfl]⟩, by rintro _ ⟨⟩⟩

/-! ## An entry that redeems the rotation -/

section

variable (rotation : Rotation crypto)

/-- An entry that recovers a rotation of the same source. -/
structure Redeems (record : CredentialRotationRecord) : Prop where
  account : record.accountId = rotation.accountId
  type : record.credentialType = rotation.credentialType
  source : record.sourceSha256 = crypto.credentialSha256 rotation.source
  away : crypto.decryptString record.encryptedRotated = some rotation.source →
    rotation.serialized = rotation.source

def Redeemable (journal : CredentialRotationJournal) : Prop :=
  ∃ record, journal.get? rotation.key = some record ∧ Redeems rotation record

/-- A row update after which the account no longer holds the source. -/
structure Stores (update : Update) : Prop where
  account : update.accountId = rotation.accountId
  type : update.credentialType = rotation.credentialType
  away : crypto.decryptString update.encryptedValue = some rotation.source →
    rotation.serialized = rotation.source

/-- What a stage owes the rotation while the account still holds the source. -/
def StageOk : Stage crypto → Prop
  | .idle | .starting => True
  | .removing => False
  | .recovering _ journal | .dropping _ journal | .cleaning journal => Redeemable rotation journal
  | .restoring key _ journal update =>
      Redeemable rotation journal ∧ (key = rotation.key → Stores rotation update)
  | .journaling journal later =>
      Redeemable rotation journal ∧ (later.key = rotation.key → Redeems rotation later.record)
  | .applying later _ =>
      later.key = rotation.key → later.serialized = rotation.source →
        rotation.serialized = rotation.source
  | .updating later _ update => later.key = rotation.key → Stores rotation update

/-- The account still holds the source, and the journal can redeem the rotation.
`fresh`: the process was started after the rotation was journaled. -/
structure Unsettled (fresh : Prop) (s : System crypto) : Prop where
  source : HoldsSource rotation s.database
  entry : ∃ journal, parseCredentialRotationJournal s.database.journal = some journal ∧
    Redeemable rotation journal
  stage : ∀ process, s.process = some process → StageOk rotation process.stage
  unrecovered : fresh → ∀ process, s.process = some process → process.recovered = false

end

variable {rotation later : Rotation crypto}

theorem Rotation.redeems_of (hkey : later.key = rotation.key)
    (hsource : later.source = rotation.source)
    (haway : later.serialized = rotation.source → rotation.serialized = rotation.source) :
    Redeems rotation later.record := by
  obtain ⟨htype, haccount⟩ := credentialRotationKey_inj hkey
  refine ⟨haccount, htype, congrArg _ hsource, ?_⟩
  intro h
  have hdecrypts : some later.serialized = some rotation.source := later.decrypts.symm.trans h
  exact haway (Option.some.inj hdecrypts)

theorem Redeemable.delete (h : Redeemable rotation journal) (hkey : key ≠ rotation.key) :
    Redeemable rotation (journal.delete key) := by
  obtain ⟨record, hget, hredeems⟩ := h
  exact ⟨record, by rwa [JsMap.get?_delete_of_ne _ hkey.symm], hredeems⟩

theorem Redeemable.set (h : Redeemable rotation journal)
    (hlater : later.key = rotation.key → Redeems rotation later.record) :
    Redeemable rotation (journal.set later.key later.record) := by
  by_cases hkey : later.key = rotation.key
  · exact ⟨later.record, by rw [hkey, JsMap.get?_set_self], hlater hkey⟩
  · obtain ⟨record, hget, hredeems⟩ := h
    exact ⟨record, by rwa [JsMap.get?_set_of_ne _ _ (Ne.symm hkey)], hredeems⟩

theorem Redeemable.entries_ne_nil (h : Redeemable rotation journal) : journal.entries ≠ [] := by
  obtain ⟨record, hget, -⟩ := h
  intro hnil
  rw [JsMap.get?, hnil] at hget
  cases hget

/-- A sound journal that redeems the rotation does so from the disk too. -/
theorem Redeemable.written (h : Redeemable rotation journal) (hsize : journal.size ≤ 10000)
    (hread : ∀ e ∈ journal.entries, EntryReadable e.1 e.2) :
    ∃ read, parseCredentialRotationJournal (writtenJournal journal) = some read ∧
      Redeemable rotation read :=
  ⟨journal, parse_writtenJournal.mpr ⟨h.entries_ne_nil, rfl, hsize, hread⟩, h⟩

/-! ## What the account holds after a step -/

/-- A rotated credential that is stored stays, unless it is replaced. -/
theorem HoldsRotated.step (h : HoldsRotated rotation s.database)
    (hcareful : ¬PutsBack rotation s event) (hkept : ¬Replaces rotation s event) :
    HoldsRotated rotation (step s event).database := by
  by_contra hnot
  have hholds : Holds rotation (Credentials.step s event).database := by
    by_contra hgone
    exact hkept ⟨.inr h, hgone⟩
  exact hcareful ⟨h, hnot, hholds.resolve_right hnot⟩

/-- After the row update the account holds the rotated credential, or another one. -/
theorem Stores.rotated (h : Stores rotation update)
    (hcommit : update.commit database = some written) (hholds : Holds rotation written) :
    HoldsRotated rotation written := by
  refine hholds.elim (fun hsource => ?_) id
  obtain ⟨account, haccount, hid, _, htype, rfl⟩ := Update.commit_eq_some.mp hcommit
  have hstored : crypto.decryptString update.encryptedValue = some rotation.source := by
    rw [h.account] at haccount
    rw [h.type] at htype
    unfold HoldsSource storedCredential at hsource
    simp only [haccount, htype, if_true, getCredential, hid, Function.update_self] at hsource
    simp only [Option.bind_eq_bind, Option.bind_some, Option.bind_eq_some_iff, decrypt, if_true] at hsource
    exact hsource.choose_spec.2
  unfold HoldsRotated
  rw [h.away hstored]
  exact hsource

/-! ## What a step owes the rotation -/

theorem applyCredentialRotation_eq_some :
    applyCredentialRotation crypto vaultAvailable database type accountId serialized expected salt =
        some update ↔
      crypto.accepts type serialized = true ∧
      ∃ account, database.accounts accountId = some account ∧ account.credentialType = some type ∧
      ∃ previous, database.credentials account.credentialId = some previous ∧
        decrypt crypto vaultAvailable previous = some expected ∧ vaultAvailable = true ∧
        update = ⟨type, accountId, account.credentialId, crypto.encryptString salt serialized, previous⟩ := by
  simp only [applyCredentialRotation, Option.bind_eq_bind, Option.bind_eq_some_iff, guard_eq_some,
    exists_const, Option.pure_def, Option.some.injEq, @eq_comm _ update]

/-- What an update of the same source leaves in the account. -/
theorem stores_of_apply
    (h : applyCredentialRotation crypto vaultAvailable database type accountId serialized expected salt =
      some update) (haccount : accountId = rotation.accountId)
    (htype : type = rotation.credentialType)
    (haway : serialized = rotation.source → rotation.serialized = rotation.source) :
    Stores rotation update := by
  obtain ⟨-, account, -, -, previous, -, -, -, rfl⟩ := applyCredentialRotation_eq_some.mp h
  refine ⟨haccount, htype, ?_⟩
  intro hdecrypt
  rw [crypto.decrypt_encrypt, Option.some.injEq] at hdecrypt
  exact haway hdecrypt

/-- What it means that the account holds the source. -/
theorem HoldsSource.stored (h : HoldsSource rotation database) :
    ∃ account encrypted, database.accounts rotation.accountId = some account ∧
      account.credentialType = some rotation.credentialType ∧
      database.credentials account.credentialId = some encrypted ∧ encrypted ≠ [] ∧
      crypto.decryptString encrypted = some rotation.source := by
  unfold HoldsSource storedCredential at h
  split at h
  · next account haccount =>
    split at h
    · next htype =>
      simp only [getCredential, Option.bind_eq_bind, Option.bind_eq_some_iff, guard_eq_some,
        exists_const, decrypt, if_true] at h
      obtain ⟨encrypted, hencrypted, hne, hdecrypt⟩ := h
      exact ⟨account, encrypted, haccount, htype, hencrypted, hne, hdecrypt⟩
    · cases h
  · cases h

/-- The recovery restores the rotated credential of an entry that redeems the rotation. -/
theorem recoverEntry_redeems (hsource : HoldsSource rotation database)
    (hredeems : Redeems rotation record) (hgenuine : Genuine crypto record) (key : JsString)
    (remaining : List (JsString × CredentialRotationRecord)) (journal : CredentialRotationJournal)
    (salt : Nat) : ∃ update, @recoverEntry crypto database true key record remaining journal salt =
      .restoring key remaining journal update ∧ Stores rotation update := by
  obtain ⟨account, encrypted, haccount, htype, hencrypted, hne, hdecrypt⟩ := hsource.stored
  obtain ⟨rotated, hrotated, hsha, haccepts⟩ := hgenuine
  have hrotatedNe : rotated ≠ [] := by
    rintro rfl
    rw [crypto.accepts_nil] at haccepts
    cases haccepts
  have hcurrent : getCredential crypto true database account.credentialId = some rotation.source := by
    simp [getCredential, hencrypted, hne, decrypt, hdecrypt, guard]
  have happly : applyCredentialRotation crypto true database record.credentialType record.accountId
      rotated rotation.source salt = some ⟨record.credentialType, record.accountId,
        account.credentialId, crypto.encryptString salt rotated, encrypted⟩ :=
    applyCredentialRotation_eq_some.mpr ⟨haccepts, account,
      (congrArg _ hredeems.account).trans haccount, htype.trans (congrArg some hredeems.type.symm),
      encrypted, hencrypted, hdecrypt, rfl, rfl⟩
  refine ⟨_, ?_, stores_of_apply happly hredeems.account hredeems.type ?_⟩
  · unfold recoverEntry
    simp only [decrypt, if_true, hrotated, hredeems.account, haccount, Option.bind_some, hcurrent]
    rw [if_pos ⟨hrotatedNe, rotation.source_ne_nil, htype.trans (congrArg some hredeems.type.symm),
      hsha.symm, hredeems.source.symm⟩]
    rw [hredeems.account] at happly
    rw [happly]
  · intro heq
    exact hredeems.away (by rw [hrotated, heq])

/-- An entry of another account leaves the entry that redeems the rotation alone. -/
theorem recoverEntry_other (salt : Nat) (hkey : key ≠ rotation.key)
    (h : Redeemable rotation journal) :
    StageOk rotation (recoverEntry database vaultAvailable key record remaining journal salt) := by
  unfold recoverEntry
  dsimp only
  split
  · split
    · split
      · exact ⟨h, fun heq => absurd heq hkey⟩
      · trivial
    · exact h.delete hkey
  · exact h.delete hkey

/-- The entry of the rotation at the head of a journal redeems it. -/
theorem Redeemable.head (h : Redeemable rotation journal)
    (hentries : journal.entries = (rotation.key, record) :: remaining) :
    Redeems rotation record := by
  obtain ⟨found, hget, hredeems⟩ := h
  have hhead : journal.get? rotation.key = some record :=
    JsMap.get?_eq_some_iff.mpr (by rw [hentries]; exact List.mem_cons_self)
  rw [hhead, Option.some.injEq] at hget
  rwa [hget]

theorem goOn_ok {fresh : Prop} (salt : Nat) (hw : WellFormed ⟨database, some process⟩)
    (h : Unsettled rotation fresh ⟨database, some process⟩)
    (hvault : RecoversWithVault rotation ⟨database, some process⟩) :
    HoldsRotated rotation database ∨
      (StageOk rotation (goOn database process salt).stage ∧
        (goOn database process salt).recovered = process.recovered) := by
  have hok := h.stage process rfl
  obtain ⟨journal, hread, hredeem⟩ := h.entry
  obtain ⟨vaultAvailable, recovered, stage⟩ := process
  unfold goOn
  split
  · next heq =>
    split
    · next hnone =>
      rw [Option.isNone_iff_eq_none] at hnone
      rw [hnone] at hread
      cases hread
    · refine .inr ?_
      rw [hread]
      exact ⟨hredeem, rfl⟩
  · next journal' heq =>
    have hsound := hw.stage _ rfl
    rw [heq] at hok hsound
    exact absurd hsound.1 (Redeemable.entries_ne_nil hok)
  · next key record remaining journal' heq =>
    have hsound := hw.stage _ rfl
    rw [heq] at hok hsound
    by_cases hkey : key = rotation.key
    · subst hkey
      cases vaultAvailable with
      | false =>
          dsimp only at heq
          subst heq
          exact .inl (hvault rfl)
      | true =>
          have hgenuine := hsound.2.records (rotation.key, record) (by rw [hsound.1]; exact List.mem_cons_self)
          obtain ⟨update, hrecover, hstores⟩ := recoverEntry_redeems h.source
            (Redeemable.head hok hsound.1) hgenuine rotation.key remaining journal' salt
          refine .inr ⟨?_, rfl⟩
          dsimp only
          rw [hrecover]
          exact ⟨hok, fun _ => hstores⟩
    · exact .inr ⟨recoverEntry_other salt hkey hok, rfl⟩
  · next later journaled heq =>
    rw [heq] at hok
    split
    · next update happly =>
      refine .inr ⟨fun hkey => ?_, rfl⟩
      obtain ⟨htype, haccount⟩ := credentialRotationKey_inj hkey
      exact stores_of_apply happly haccount htype (hok hkey)
    · exact .inr ⟨trivial, rfl⟩
  · exact .inr ⟨hok, rfl⟩

/-- What a rotation that passes the checks is. -/
theorem checkRotation_eq_some
    (h : checkRotation crypto vaultAvailable database request = some later) :
    later.credentialType = request.credentialType ∧ later.accountId = request.accountId ∧
      later.serialized = request.serialized ∧ storedCredential later database = some later.source := by
  unfold checkRotation at h
  split at h
  · cases h
  next account haccount =>
  split at h
  · cases h
  next htype =>
  split at h
  · cases h
  next source hsource =>
  split at h
  · cases h
  split at h
  · cases h
  split at h
  · split at h
    · next hvault =>
      injection h with h
      subst h
      refine ⟨rfl, rfl, rfl, ?_⟩
      unfold storedCredential
      rw [not_not] at htype
      simp only [haccount, htype, if_true]
      rwa [hvault] at hsource
    · cases h
  · cases h

theorem storedCredential_congr (htype : later.credentialType = rotation.credentialType)
    (haccount : later.accountId = rotation.accountId) :
    storedCredential later database = storedCredential rotation database := by
  unfold storedCredential
  rw [htype, haccount]

theorem beginRotation_ok {fresh : Prop} (h : Unsettled rotation fresh ⟨database, some process⟩)
    (haway : RotatesAway rotation request) :
    StageOk rotation (beginRotation database process request).stage ∧
      (beginRotation database process request).recovered = process.recovered := by
  have hok := h.stage process rfl
  obtain ⟨journal, hread, hredeem⟩ := h.entry
  unfold beginRotation
  split
  · split
    · next later hlater =>
      obtain ⟨htype, haccount, hserialized, hstored⟩ := checkRotation_eq_some hlater
      refine ⟨⟨?_, ?_⟩, rfl⟩
      · rw [hread]
        exact hredeem
      · intro hkey
        obtain ⟨htype', haccount'⟩ := credentialRotationKey_inj hkey
        have hsame : some later.source = some rotation.source := by
          rw [← hstored, storedCredential_congr htype' haccount']
          exact h.source
        refine Rotation.redeems_of hkey (Option.some.inj hsame) ?_
        intro hback
        refine haway ?_ (hserialized.symm.trans hback)
        rw [← htype, ← haccount]
        exact hkey
    · exact ⟨hok, rfl⟩
  · exact ⟨hok, rfl⟩

theorem reject_ok (h : StageOk rotation process.stage)
    (hserialized : ∀ journal later, process.stage = .journaling journal later →
      later.key = rotation.key → later.serialized = rotation.source →
        rotation.serialized = rotation.source) :
    StageOk rotation (reject process).stage ∧ (reject process).recovered = process.recovered := by
  unfold reject
  split
  · exact ⟨trivial, rfl⟩
  · exact ⟨trivial, rfl⟩
  · exact ⟨trivial, rfl⟩
  · exact ⟨trivial, rfl⟩
  · exact ⟨trivial, rfl⟩
  · next journal later heq => exact ⟨hserialized journal later heq, rfl⟩
  · exact ⟨h, rfl⟩

/-- What the record of a rotation says of the rotation. -/
theorem Redeems.serialized (h : Redeems rotation later.record) :
    later.serialized = rotation.source → rotation.serialized = rotation.source := by
  intro hback
  refine h.away ?_
  rw [← hback]
  exact later.decrypts

theorem commit_ok {fresh : Prop} (hw : WellFormed ⟨database, some process⟩)
    (h : Unsettled rotation fresh ⟨database, some process⟩)
    (hjournals : journalsReadably ⟨database, some process⟩ = true)
    (hholds : Holds rotation (commit database process).1) :
    HoldsRotated rotation (commit database process).1 ∨
      ((∃ journal, parseCredentialRotationJournal (commit database process).1.journal = some journal ∧
          Redeemable rotation journal) ∧
        StageOk rotation (commit database process).2.stage ∧
        (commit database process).2.recovered = process.recovered) := by
  have hok := h.stage process rfl
  have hsound := hw.stage process rfl
  obtain ⟨vaultAvailable, recovered, stage⟩ := process
  unfold commit at hholds ⊢
  dsimp only at hok hsound
  cases stage with
  | removing => exact hok.elim
  | restoring key remaining journal update =>
      dsimp only at hholds ⊢
      split
      · next written hwritten =>
        rw [hwritten] at hholds
        by_cases hkey : key = rotation.key
        · exact .inl ((hok.2 hkey).rotated hwritten hholds)
        · refine .inr ⟨?_, hok.1.delete hkey, rfl⟩
          rw [show written.journal = database.journal from Update.commit_journal hwritten]
          exact h.entry
      · exact .inr ⟨h.entry, trivial, rfl⟩
  | dropping remaining journal =>
      exact .inr ⟨Redeemable.written hok hsound.2.size hsound.2.readable, hok, rfl⟩
  | journaling journal later =>
      obtain ⟨hsize, haccount⟩ := of_decide_eq_true hjournals
      have hnew : Redeemable rotation (journal.set later.key later.record) := hok.1.set hok.2
      refine .inr ⟨hnew.written hsize ?_, fun hkey => (hok.2 hkey).serialized, rfl⟩
      intro e he
      rcases JsMap.mem_setEntries he with rfl | he
      · exact later.readable haccount
      · exact hsound.readable e he
  | updating later journaled update =>
      dsimp only at hholds ⊢
      split
      · next written hwritten =>
        rw [hwritten] at hholds
        have hentry : ∃ journal, parseCredentialRotationJournal written.journal = some journal ∧
            Redeemable rotation journal := by
          rw [show written.journal = database.journal from Update.commit_journal hwritten]
          exact h.entry
        split
        · next hjournaled =>
          dsimp only at hholds
          rw [if_pos hjournaled] at hholds
          by_cases hkey : later.key = rotation.key
          · exact .inl ((hok hkey).rotated hwritten hholds)
          · obtain ⟨journal, hread, hredeem⟩ := hentry
            refine .inr ⟨⟨journal, hread, hredeem⟩, ?_, rfl⟩
            change Redeemable rotation _
            rw [hread]
            exact hredeem.delete hkey
        · exact .inr ⟨hentry, trivial, rfl⟩
      · exact .inr ⟨h.entry, trivial, rfl⟩
  | cleaning journal =>
      exact .inr ⟨Redeemable.written hok hsound.size hsound.readable, trivial, rfl⟩
  | idle | starting => exact .inr ⟨h.entry, trivial, rfl⟩
  | recovering remaining journal => exact .inr ⟨h.entry, hok, rfl⟩
  | applying later journaled => exact .inr ⟨h.entry, hok, rfl⟩

/-- A step that leaves the database alone. -/
theorem Unsettled.congr {fresh : Prop} (h : Unsettled rotation fresh s)
    (hdatabase : s'.database = s.database)
    (hstage : ∀ process, s'.process = some process → StageOk rotation process.stage)
    (hrecovered : fresh → ∀ process, s'.process = some process → process.recovered = false) :
    Unsettled rotation fresh s' :=
  ⟨by rw [hdatabase]; exact h.source, by rw [hdatabase]; exact h.entry, hstage, hrecovered⟩

/-- Until the rotated credential is stored, the journal can redeem it. -/
theorem Unsettled.step {fresh : Prop} (hw : WellFormed s) (h : Unsettled rotation fresh s)
    (hcareful : Careful rotation s event) (hkept : ¬Replaces rotation s event) :
    HoldsRotated rotation (step s event).database ∨ Unsettled rotation fresh (step s event) := by
  have hholds : Holds rotation (Credentials.step s event).database := by
    by_contra hgone
    exact hkept ⟨.inl h.source, hgone⟩
  obtain ⟨database, process⟩ := s
  cases process with
  | none =>
      cases event with
      | start vaultAvailable =>
          refine .inr (h.congr rfl ?_ ?_)
          · rintro _ ⟨⟩
            trivial
          · rintro _ _ ⟨⟩
            rfl
      | change accounts credentials =>
          refine hholds.symm.imp id fun hsource => ⟨hsource, h.entry, ?_, ?_⟩
          · rintro _ ⟨⟩
          · rintro _ _ ⟨⟩
      | crash | next | rotate | commit | reject =>
          exact .inr (h.congr rfl (by rintro _ ⟨⟩) (by rintro _ _ ⟨⟩))
  | some process =>
      have hok := h.stage process rfl
      have hunrecovered := fun hfresh => h.unrecovered hfresh process rfl
      cases event with
      | start => exact .inr h
      | crash => exact .inr (h.congr rfl (by rintro _ ⟨⟩) (by rintro _ _ ⟨⟩))
      | change accounts credentials =>
          refine hholds.symm.imp id fun hsource => ⟨hsource, h.entry, ?_, ?_⟩
          · rintro _ ⟨⟩
            exact hok
          · rintro hfresh _ ⟨⟩
            exact hunrecovered hfresh
      | next salt =>
          refine (goOn_ok salt hw h hcareful.2).imp id fun hstep => h.congr rfl ?_ ?_
          · rintro _ ⟨⟩
            exact hstep.1
          · rintro hfresh _ ⟨⟩
            exact hstep.2.trans (hunrecovered hfresh)
      | rotate request =>
          have hstep := beginRotation_ok h hcareful.2
          refine .inr (h.congr rfl ?_ ?_)
          · rintro _ ⟨⟩
            exact hstep.1
          · rintro hfresh _ ⟨⟩
            exact hstep.2.trans (hunrecovered hfresh)
      | reject =>
          have hstep : StageOk rotation (Credentials.reject process).stage ∧
              (Credentials.reject process).recovered = process.recovered := by
            refine reject_ok hok fun journal later heq hkey => ?_
            rw [heq] at hok
            exact (hok.2 hkey).serialized
          refine .inr (h.congr rfl ?_ ?_)
          · rintro _ ⟨⟩
            exact hstep.1
          · rintro hfresh _ ⟨⟩
            exact hstep.2.trans (hunrecovered hfresh)
      | commit =>
          rcases commit_ok hw h hcareful.2 hholds with hrotated | ⟨hentry, hstage, hrecovered⟩
          · exact .inl hrotated
          · refine hholds.symm.imp id fun hsource => ⟨hsource, hentry, ?_, ?_⟩
            · rintro _ ⟨⟩
              exact hstage
            · rintro hfresh _ ⟨⟩
              exact hrecovered.trans (hunrecovered hfresh)

/-! ## Whole runs -/

/-- The rotated credential is stored, or the journal can redeem it. -/
def Settles (rotation : Rotation crypto) (fresh : Prop) (s : System crypto) : Prop :=
  WellFormed s ∧ (HoldsRotated rotation s.database ∨ Unsettled rotation fresh s)

/-- What the steps of a run must keep to. -/
def Keeps (rotation : Rotation crypto) (s : System crypto) (event : Event) : Prop :=
  Careful rotation s event ∧ ¬Replaces rotation s event

instance (rotation : Rotation crypto) (s : System crypto) (event : Event) :
    Decidable (Keeps rotation s event) :=
  inferInstanceAs (Decidable (_ ∧ _))

theorem Settles.step {fresh : Prop} (h : Settles rotation fresh s)
    (hkeeps : Keeps rotation s event) : Settles rotation fresh (step s event) := by
  refine ⟨h.1.step event, ?_⟩
  rcases h.2 with hrotated | hunsettled
  · exact .inl (hrotated.step hkeeps.1.1 hkeeps.2)
  · exact hunsettled.step h.1 hkeeps.1 hkeeps.2

theorem Settles.run {fresh : Prop} (h : Settles rotation fresh s)
    (hkeeps : Along Credentials.step (Keeps rotation) s events) :
    Settles rotation fresh (Lib.run Credentials.step s events) :=
  invariant_of_along (Settles rotation fresh) (fun _ _ hs hk => hs.step hk) h hkeeps

/-- The record has just been written to the journal. -/
theorem settles_of_journaled
    (hw : WellFormed ⟨database, some ⟨vaultAvailable, recovered, .journaling journal rotation⟩⟩)
    (hholds : Holds rotation database)
    (hkeeps : Keeps rotation
      ⟨database, some ⟨vaultAvailable, recovered, .journaling journal rotation⟩⟩ .commit) :
    Settles rotation False
      (step ⟨database, some ⟨vaultAvailable, recovered, .journaling journal rotation⟩⟩ .commit) := by
  refine ⟨hw.step .commit, hholds.symm.imp id fun hsource => ?_⟩
  obtain ⟨hsize, haccount⟩ := of_decide_eq_true hkeeps.1.2
  have hnew : Redeemable rotation (journal.set rotation.key rotation.record) :=
    ⟨rotation.record, JsMap.get?_set_self _ _ _, Rotation.redeems_of rfl rfl id⟩
  refine ⟨hsource, hnew.written hsize ?_, ?_, False.elim⟩
  · intro e he
    rcases JsMap.mem_setEntries he with rfl | he
    · exact rotation.readable haccount
    · exact (hw.stage _ rfl).readable e he
  · rintro _ ⟨⟩
    exact fun _ => id

/-- A new start of the app makes the process fresh. -/
theorem Settles.fresh {fresh : Prop} (h : Settles rotation fresh s) (hdown : s.process = none) :
    Settles rotation True s := by
  refine ⟨h.1, h.2.imp id fun hunsettled => ⟨hunsettled.source, hunsettled.entry, hunsettled.stage, ?_⟩⟩
  intro _ process hprocess
  rw [hdown] at hprocess
  cases hprocess

/-! ## A recovery that is left alone -/

/-- A process that goes on while nothing else happens and every write is made. -/
def uninterrupted (salt : Nat) : Nat → List Event
  | 0 => []
  | n + 1 => .next salt :: .commit :: uninterrupted salt n

theorem uninterrupted_add (salt m n : Nat) :
    uninterrupted salt (m + n) = uninterrupted salt m ++ uninterrupted salt n := by
  induction m with
  | zero => simp [uninterrupted]
  | succ m ih => simp [uninterrupted, Nat.succ_add, ih]

/-- With the vault, an entry is restored or dropped. -/
theorem recoverEntry_progress {record : CredentialRotationRecord} (hgenuine : Genuine crypto record)
    (database : Database) (key : JsString)
    (remaining : List (JsString × CredentialRotationRecord)) (journal : CredentialRotationJournal)
    (salt : Nat) :
    (∃ update written, @recoverEntry crypto database true key record remaining journal salt =
        .restoring key remaining journal update ∧ update.commit database = some written) ∨
      @recoverEntry crypto database true key record remaining journal salt =
        .dropping remaining (journal.delete key) := by
  obtain ⟨genuine, hdecrypts, -, haccepts⟩ := hgenuine
  unfold recoverEntry
  dsimp only
  split
  · next rotated current account hrotated hcurrent haccount =>
    split
    · next hcond =>
      obtain ⟨-, -, htype, -, -⟩ := hcond
      simp only [decrypt, if_true] at hrotated
      rw [hdecrypts, Option.some.injEq] at hrotated
      subst hrotated
      rw [haccount, Option.bind_some] at hcurrent
      simp only [getCredential, Option.bind_eq_bind, Option.bind_eq_some_iff, guard_eq_some,
        exists_const] at hcurrent
      obtain ⟨encrypted, hencrypted, -, hdecrypt⟩ := hcurrent
      have happly : applyCredentialRotation crypto true database record.credentialType
          record.accountId genuine current salt = some ⟨record.credentialType, record.accountId,
            account.credentialId, crypto.encryptString salt genuine, encrypted⟩ :=
        applyCredentialRotation_eq_some.mpr
          ⟨haccepts, account, haccount, htype, encrypted, hencrypted, hdecrypt, rfl, rfl⟩
      rw [happly]
      exact .inl ⟨_, _, rfl, Update.commit_eq_some.mpr ⟨account, haccount, rfl, hencrypted, htype, rfl⟩⟩
    · exact .inr rfl
  · exact .inr rfl

/-- With the vault, the recovery gets past an entry. -/
theorem recovering_advances (hgenuine : Genuine crypto record) (database : Database)
    (key : JsString) (remaining : List (JsString × CredentialRotationRecord))
    (journal : CredentialRotationJournal) (salt : Nat) : ∃ n database' journal', run step
        (⟨database, some ⟨true, false, .recovering ((key, record) :: remaining) journal⟩⟩ : System crypto)
        (uninterrupted salt n) =
      ⟨database', some ⟨true, false, .recovering remaining journal'⟩⟩ := by
  rcases recoverEntry_progress hgenuine database key remaining journal salt with
    ⟨update, written, hrecover, hcommit⟩ | hrecover
  · refine ⟨2, { written with journal := writtenJournal (journal.delete key) }, journal.delete key, ?_⟩
    simp only [uninterrupted, run_cons, run_nil, step, Option.map_some, goOn, hrecover, commit, hcommit]
  · refine ⟨1, { database with journal := writtenJournal (journal.delete key) }, journal.delete key, ?_⟩
    simp only [uninterrupted, run_cons, run_nil, step, Option.map_some, goOn, hrecover, commit]

theorem recovering_returns (hgenuine : ∀ e ∈ remaining, Genuine crypto e.2) (database : Database)
    (journal : CredentialRotationJournal) (salt : Nat) :
    ∃ n database', run step
        (⟨database, some ⟨true, false, .recovering remaining journal⟩⟩ : System crypto)
        (uninterrupted salt n) = ⟨database', some ⟨true, true, .idle⟩⟩ := by
  induction remaining generalizing database journal with
  | nil => exact ⟨1, database, rfl⟩
  | cons e remaining ih =>
      rw [List.forall_mem_cons] at hgenuine
      obtain ⟨m, database₁, journal₁, hfirst⟩ :=
        recovering_advances hgenuine.1 database e.1 remaining journal salt
      obtain ⟨n, database₂, hrest⟩ := ih hgenuine.2 database₁ journal₁
      exact ⟨m + n, database₂, by rw [uninterrupted_add, run_append, hfirst, hrest]⟩

/-- With the vault, the recovery of a start that is left alone returns. -/
theorem start_recovers (hw : WellFormed s) (hdown : s.process = none) (salt : Nat) :
    ∃ n database, run step s (.start true :: uninterrupted salt n) =
      ⟨database, some ⟨true, true, .idle⟩⟩ := by
  obtain ⟨database, process⟩ := s
  dsimp only at hdown
  subst hdown
  by_cases hnone : database.journal = none
  · refine ⟨1, database, ?_⟩
    simp [uninterrupted, step, goOn, hnone, commit]
  · cases hread : parseCredentialRotationJournal database.journal with
    | none =>
        refine ⟨1, { database with journal := none }, ?_⟩
        simp [uninterrupted, step, goOn, hnone, hread, commit]
    | some journal =>
        obtain ⟨n, database', hreturns⟩ := recovering_returns (hw.read hread).records database journal salt
        refine ⟨1 + n, database', ?_⟩
        rw [uninterrupted_add, run_cons, run_append]
        have hstart : run step (step (⟨database, none⟩ : System crypto) (.start true)) (uninterrupted salt 1) =
            ⟨database, some ⟨true, false, .recovering journal.entries journal⟩⟩ := by
          simp [uninterrupted, step, goOn, hnone, hread, commit]
        rw [hstart, hreturns]

/-- A rotation whose record has been written to the journal is not lost: the
entry goes only once the rotated credential is stored, and it is stored once the
recovery of any later start has returned, which it does if it has the vault. -/
theorem rotated_credential_is_kept (s : System crypto) (hreach : Reachable s)
    {vaultAvailable recovered : Bool} {journal : CredentialRotationJournal}
    (hstage : s.process = some ⟨vaultAvailable, recovered, .journaling journal rotation⟩)
    (hholds : Holds rotation s.database) (events : List Event)
    (hkeeps : Along step (Keeps rotation) s (.commit :: events)) :
    let s' := run step s (.commit :: events)
    ((∀ journal, parseCredentialRotationJournal s'.database.journal = some journal →
        journal.get? rotation.key = none) → HoldsRotated rotation s'.database) ∧
      (∀ before after, events = before ++ after → (run step s (.commit :: before)).process = none →
        (∃ process, s'.process = some process ∧ process.recovered = true) →
        HoldsRotated rotation s'.database) ∧
      (s'.process = none → ∀ salt, ∃ n database,
        run step s' (.start true :: uninterrupted salt n) = ⟨database, some ⟨true, true, .idle⟩⟩) := by
  obtain ⟨database, process⟩ := s
  dsimp only at hstage hholds
  subst hstage
  have hfirst := settles_of_journaled hreach.wellFormed hholds hkeeps.1
  have hend := hfirst.run hkeeps.2
  refine ⟨?_, ?_, ?_⟩
  · intro hgone
    refine hend.2.elim id fun hunsettled => ?_
    obtain ⟨journal, hread, record, hget, -⟩ := hunsettled.entry
    rw [hgone journal hread] at hget
    cases hget
  · rintro before after rfl hdown ⟨process, hprocess, hrecovered⟩
    have hparts := along_append.mp hkeeps.2
    have hlater := ((hfirst.run hparts.1).fresh hdown).run hparts.2
    rw [← run_append] at hlater
    refine hlater.2.elim id fun hunsettled => ?_
    rw [hunsettled.unrecovered trivial process hprocess] at hrecovered
    cases hrecovered
  · exact fun hdown salt => start_recovers hend.1 hdown salt

/-! ## Two runs -/

/-- A hash that keeps what it can of a short text. -/
def sampleSha256 (text : JsString) : JsString :=
  let padded := (text ++ List.replicate 43 0x41).take 43
  if isSha256Base64Url padded then padded else List.replicate 43 0x41

/-- A vault that marks what it has encrypted. -/
def sampleCrypto : Crypto where
  credentialSha256 := sampleSha256
  encryptString _ text := 0x65 :: text
  decryptString
    | 0x65 :: text => some text
    | _ => none
  accepts _ text := !text.isEmpty
  isSha256_credentialSha256 text := by
    unfold sampleSha256
    dsimp only
    split
    · assumption
    · decide
  decrypt_encrypt _ _ := rfl
  encrypt_ne_nil _ _ := List.cons_ne_nil _ _
  accepts_nil _ := rfl

def sampleRequest : Request :=
  { credentialType := .grokOauth
    accountId := js "a"
    serialized := js "new"
    expectedSourceSerialized := some (js "old")
    createdAt := ⟨.ofNat 0, Store.isInvalidTimestamp_zero⟩
    salt := 0 }

/-- One account with the credential that is rotated. -/
def sampleSystem : System sampleCrypto :=
  { database :=
      { journal := none
        accounts := fun id => if id = js "a" then some ⟨some .grokOauth, js "c"⟩ else none
        credentials := fun id => if id = js "c" then some (js "eold") else none }
    process := none }

/-- The app is started and a rotation is about to write its record. -/
def sampleJournaling : System sampleCrypto :=
  run step sampleSystem [.start true, .next 0, .rotate sampleRequest]

def sampleRotation : Rotation sampleCrypto :=
  { credentialType := .grokOauth
    accountId := js "a"
    source := js "old"
    serialized := js "new"
    encryptedRotated := js "enew"
    createdAt := ⟨.ofNat 0, Store.isInvalidTimestamp_zero⟩
    source_ne_nil := by decide
    accepted := by decide
    decrypts := by decide
    encrypted_ne_nil := by decide }

theorem sampleJournaling_stage :
    sampleJournaling.process = some ⟨true, true, .journaling ∅ sampleRotation⟩ := rfl

/-- Killed right after the record was written, the app stores the rotated
credential when it is started again with the vault. -/
theorem journaled_rotation_is_restored :
    HoldsRotated sampleRotation (run step sampleJournaling
      [.commit, .crash, .start true, .next 0, .next 0, .commit, .commit, .next 0]).database :=
  (rotated_credential_is_kept sampleJournaling ⟨_, _, [.start true, .next 0, .rotate sampleRequest], rfl⟩
    sampleJournaling_stage (by decide +kernel)
    [.crash, .start true, .next 0, .next 0, .commit, .commit, .next 0] (by decide +kernel)).2.1
    [.crash] [.start true, .next 0, .next 0, .commit, .commit, .next 0] rfl rfl ⟨_, rfl, rfl⟩

/-- Started without the vault in between, the app drops the entry, and the
rotated credential is gone for good: nothing has replaced the source, and the
recovery of the next start has the vault. -/
theorem vaultless_start_drops_rotation :
    ∃ (s : System sampleCrypto) (events : List Event),
      Reachable s ∧ s.process = some ⟨true, true, .journaling ∅ sampleRotation⟩ ∧
      Holds sampleRotation s.database ∧
      Along step (fun s event => ¬PutsBack sampleRotation s event ∧ ¬Replaces sampleRotation s event) s
        (.commit :: .crash :: events ++ [.crash, .start true, .next 0]) ∧
      let s' := run step s (.commit :: .crash :: events ++ [.crash, .start true, .next 0])
      (s'.process.map fun p => (p.vaultAvailable, p.recovered)) = some (true, true) ∧
        s'.database.journal = none ∧
        HoldsSource sampleRotation s'.database ∧ ¬HoldsRotated sampleRotation s'.database := by
  refine ⟨sampleJournaling, [.start false, .next 0, .next 0, .commit, .next 0],
    ⟨_, _, [.start true, .next 0, .rotate sampleRequest], rfl⟩, sampleJournaling_stage, ?_⟩
  decide +kernel

end StonePlus.Credentials
