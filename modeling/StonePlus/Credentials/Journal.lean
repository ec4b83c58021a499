import StonePlus.Js.Map
import StonePlus.Store.Replacement

/-!
# StonePlus.Credentials.Journal

The journal of credential rotations of `store/app-store.ts`: its records, the
checks of `parseCredentialRotationJournal`, and that a journal that passes them
is read back as it was written.
-/

namespace StonePlus.Credentials

open Store (matchesClasses Timestamp)

inductive RotatingCredentialType
  | chatgptOauth
  | grokOauth
  | chatgptAgentIdentity
  deriving DecidableEq

def RotatingCredentialType.text : RotatingCredentialType → JsString
  | .chatgptOauth => js "chatgpt-oauth"
  | .grokOauth => js "grok-oauth"
  | .chatgptAgentIdentity => js "chatgpt-agent-identity"

/-- `isRotatingCredentialType`, on a string. -/
def rotatingCredentialType? (value : JsString) : Option RotatingCredentialType :=
  [.chatgptOauth, .grokOauth, .chatgptAgentIdentity].find? fun type => type.text = value

/-- `[A-Za-z0-9_-]`. -/
def isBase64UrlUnit (c : UInt16) : Bool :=
  (0x41 ≤ c && c ≤ 0x5A) || (0x61 ≤ c && c ≤ 0x7A) || (0x30 ≤ c && c ≤ 0x39) || c == 0x5F || c == 0x2D

/-- `/^[A-Za-z0-9_-]{43}$/`. -/
def isSha256Base64Url (value : JsString) : Bool :=
  matchesClasses (List.replicate 43 isBase64UrlUnit) value

structure CredentialRotationRecord where
  accountId : JsString
  credentialType : RotatingCredentialType
  sourceSha256 : JsString
  rotatedSha256 : JsString
  encryptedRotated : JsString
  createdAt : Timestamp

/-- The entries of the journal, under their keys. -/
abbrev CredentialRotationJournal := JsMap JsString CredentialRotationRecord

def credentialRotationKey (type : RotatingCredentialType) (accountId : JsString) : JsString :=
  type.text ++ js ":" ++ accountId

def CredentialRotationRecord.toJson (record : CredentialRotationRecord) : Json :=
  .object
    [(js "version", .number (.ofNat 1)), (js "accountId", .string record.accountId),
      (js "credentialType", .string record.credentialType.text),
      (js "sourceSha256", .string record.sourceSha256),
      (js "rotatedSha256", .string record.rotatedSha256),
      (js "encryptedRotated", .string record.encryptedRotated),
      (js "createdAt", .number record.createdAt)]

def journalToJson (journal : CredentialRotationJournal) : Json :=
  .object
    [(js "version", .number (.ofNat 1)),
      (js "entries", .object (journal.entries.map fun e => (e.1, e.2.toJson)))]

/-- A property that is a string. -/
def stringField (fields : List (JsString × Json)) (name : String) : Option JsString :=
  match Json.property? fields (js name) with
  | some (.string text) => some text
  | _ => none

/-- `version` is the number 1. -/
def isVersionOne (fields : List (JsString × Json)) : Bool :=
  Json.property? fields (js "version") == some (.number (.ofNat 1))

/-- The checks of `parseCredentialRotationJournal` on one entry. -/
def parseFields (key : JsString) (fields : List (JsString × Json)) : Option CredentialRotationRecord := do
  guard (isVersionOne fields)
  let accountId ← stringField fields "accountId"
  guard (accountId ≠ [])
  let text ← stringField fields "credentialType"
  let credentialType ← rotatingCredentialType? text
  guard (key = credentialRotationKey credentialType accountId)
  let sourceSha256 ← stringField fields "sourceSha256"
  guard (isSha256Base64Url sourceSha256)
  let rotatedSha256 ← stringField fields "rotatedSha256"
  guard (isSha256Base64Url rotatedSha256)
  let encryptedRotated ← stringField fields "encryptedRotated"
  guard (encryptedRotated ≠ [])
  let createdAt ← Store.checkedTimestamp (Json.property? fields (js "createdAt"))
  pure ⟨accountId, credentialType, sourceSha256, rotatedSha256, encryptedRotated, createdAt⟩

def parseEntry (key : JsString) : Json → Option CredentialRotationRecord
  | .object fields => parseFields key fields
  | _ => none

def parseEntries : List (JsString × Json) → CredentialRotationJournal → Option CredentialRotationJournal
  | [], entries => some entries
  | (key, raw) :: rest, entries =>
    match parseEntry key raw with
    | some record => parseEntries rest (entries.set key record)
    | none => none

/-- `parseCredentialRotationJournal` on the value of the metadata. -/
def parseCredentialRotationJournal : Option Json → Option CredentialRotationJournal
  | some (.object fields) =>
    match isVersionOne fields, Json.property? fields (js "entries") with
    | true, some (.object rawEntries) =>
      if rawEntries.length ≤ 10000 then parseEntries rawEntries ∅ else none
    | _, _ => none
  | _ => none

/-- What `writeCredentialRotationJournal` leaves in the metadata. -/
def writtenJournal (journal : CredentialRotationJournal) : Option Json :=
  if journal.entries.isEmpty then none else some (journalToJson journal)

/-! ## Reading a journal back -/

theorem credentialRotationKey_inj
    (h : credentialRotationKey type accountId = credentialRotationKey type' accountId') :
    type = type' ∧ accountId = accountId' := by
  cases type <;> cases type' <;>
    simp_all [credentialRotationKey, RotatingCredentialType.text, js]

theorem rotatingCredentialType?_text (type : RotatingCredentialType) :
    rotatingCredentialType? type.text = some type := by
  cases type <;> decide

/-- What the parser asks of an entry. -/
structure EntryReadable (key : JsString) (record : CredentialRotationRecord) : Prop where
  accountId : record.accountId ≠ []
  key : key = credentialRotationKey record.credentialType record.accountId
  source : isSha256Base64Url record.sourceSha256 = true
  rotated : isSha256Base64Url record.rotatedSha256 = true
  encrypted : record.encryptedRotated ≠ []

theorem guard_eq_some {p : Prop} [Decidable p] : (guard p : Option Unit) = some u ↔ p := by
  by_cases h : p <;> simp [guard, h]

theorem parseFields_eq_some : parseFields key fields = some record ↔
      isVersionOne fields = true ∧
      stringField fields "accountId" = some record.accountId ∧
      (stringField fields "credentialType").bind rotatingCredentialType? = some record.credentialType ∧
      stringField fields "sourceSha256" = some record.sourceSha256 ∧
      stringField fields "rotatedSha256" = some record.rotatedSha256 ∧
      stringField fields "encryptedRotated" = some record.encryptedRotated ∧
      Store.checkedTimestamp (Json.property? fields (js "createdAt")) = some record.createdAt ∧
      EntryReadable key record := by
  obtain ⟨accountId, type, source, rotated, encrypted, createdAt⟩ := record
  simp only [parseFields, Option.bind_eq_bind, Option.bind_eq_some_iff, guard_eq_some,
    exists_const, Option.pure_def, Option.some.injEq, CredentialRotationRecord.mk.injEq]
  constructor
  · rintro ⟨hversion, _, haccount, hne, _, htext, _, htype, hkey, _, hsource, hsourceSha, _, hrotated,
      hrotatedSha, _, hencrypted, henc, _, hcreated, rfl, rfl, rfl, rfl, rfl, rfl⟩
    exact ⟨hversion, haccount, ⟨_, htext, htype⟩, hsource, hrotated, hencrypted, hcreated,
      ⟨hne, hkey, hsourceSha, hrotatedSha, henc⟩⟩
  · rintro ⟨hversion, haccount, ⟨text, htext, htype⟩, hsource, hrotated, hencrypted, hcreated, hread⟩
    exact ⟨hversion, _, haccount, hread.accountId, _, htext, _, htype, hread.key, _, hsource,
      hread.source, _, hrotated, hread.rotated, _, hencrypted, hread.encrypted, _, hcreated, rfl, rfl,
      rfl, rfl, rfl, rfl⟩

theorem parseEntry_toJson :
    parseEntry key record.toJson = some record' ↔ record' = record ∧ EntryReadable key record := by
  obtain ⟨accountId, type, source, rotated, encrypted, createdAt⟩ := record
  obtain ⟨accountId', type', source', rotated', encrypted', createdAt'⟩ := record'
  unfold CredentialRotationRecord.toJson parseEntry
  rw [parseFields_eq_some]
  have hversion : isVersionOne [(js "version", .number (.ofNat 1)), (js "accountId", .string accountId),
      (js "credentialType", .string type.text), (js "sourceSha256", .string source),
      (js "rotatedSha256", .string rotated), (js "encryptedRotated", .string encrypted),
      (js "createdAt", .number createdAt)] = true := by
    simp [isVersionOne, Json.property?, js]
  simp only [hversion, true_and]
  simp [stringField, Json.property?, js, rotatingCredentialType?_text, Store.checkedTimestamp_of]
  constructor
  · rintro ⟨rfl, rfl, rfl, rfl, rfl, rfl, h⟩
    exact ⟨⟨rfl, rfl, rfl, rfl, rfl, rfl⟩, h⟩
  · rintro ⟨⟨rfl, rfl, rfl, rfl, rfl, rfl⟩, h⟩
    exact ⟨rfl, rfl, rfl, rfl, rfl, rfl, h⟩

/-- What the parser makes of a list of entries that were written. -/
theorem parseEntries_toJson (hnodup : ((acc.entries ++ entries).map Prod.fst).Nodup) :
    parseEntries (entries.map fun e => (e.1, e.2.toJson)) acc = some journal ↔
      journal.entries = acc.entries ++ entries ∧ ∀ e ∈ entries, EntryReadable e.1 e.2 := by
  induction entries generalizing acc with
  | nil =>
      simp [parseEntries, JsMap.ext_iff, eq_comm]
  | cons e entries ih =>
      obtain ⟨key, record⟩ := e
      simp only [List.map_cons, parseEntries, List.forall_mem_cons]
      by_cases hread : EntryReadable key record
      · have hset : (acc.set key record).entries = acc.entries ++ [(key, record)] := by
          apply JsMap.setEntries_of_not_mem
          rw [List.map_append, List.nodup_append'] at hnodup
          exact fun hmem => hnodup.2.2 hmem List.mem_cons_self
        rw [parseEntry_toJson.mpr ⟨rfl, hread⟩]
        simp only
        rw [ih (by simpa [hset] using hnodup), hset]
        simp [hread]
      · have hnone : parseEntry key record.toJson = none := by
          cases h : parseEntry key record.toJson with
          | none => rfl
          | some record' => exact absurd (parseEntry_toJson.mp h).2 hread
        rw [hnone]
        simp [hread]

/-- When a journal that was written can be read back, and as what. -/
theorem parse_writtenJournal {read : CredentialRotationJournal} :
    parseCredentialRotationJournal (writtenJournal journal) = some read ↔
      journal.entries ≠ [] ∧ read = journal ∧ journal.size ≤ 10000 ∧
        ∀ e ∈ journal.entries, EntryReadable e.1 e.2 := by
  unfold writtenJournal
  by_cases hempty : journal.entries = []
  · simp [hempty, parseCredentialRotationJournal]
  · have hfields : ∀ entries,
        isVersionOne [(js "version", .number (.ofNat 1)), (js "entries", entries)] = true ∧
        Json.property? [(js "version", .number (.ofNat 1)), (js "entries", entries)] (js "entries") =
          some entries := by
      intro entries
      simp [isVersionOne, Json.property?, js]
    have hempty' : journal.entries.isEmpty = false := by simpa using hempty
    rw [hempty', if_neg Bool.false_ne_true, journalToJson, parseCredentialRotationJournal,
      (hfields _).1, (hfields _).2]
    simp only [List.length_map]
    split
    · next hsize =>
      rw [parseEntries_toJson (by simpa [show (∅ : CredentialRotationJournal).entries = [] from rfl]
        using journal.nodup)]
      rw [show (∅ : CredentialRotationJournal).entries = [] from rfl, List.nil_append, ← JsMap.ext_iff]
      simp [hempty, JsMap.size, hsize]
    · next hsize => simp [JsMap.size, hsize]

/-- What the code can read of a journal it has written. -/
structure Sound (p : CredentialRotationRecord → Prop) (journal : CredentialRotationJournal) : Prop where
  size : journal.size ≤ 10000
  readable : ∀ e ∈ journal.entries, EntryReadable e.1 e.2
  records : ∀ e ∈ journal.entries, p e.2

theorem sound_empty : Sound p ∅ :=
  ⟨by decide, by simp [show (∅ : CredentialRotationJournal).entries = [] from rfl],
    by simp [show (∅ : CredentialRotationJournal).entries = [] from rfl]⟩

theorem Sound.delete (h : Sound p journal) (key : JsString) : Sound p (journal.delete key) := by
  obtain ⟨hsize, hread, hrecords⟩ := h
  refine ⟨(List.length_filter_le _ _).trans hsize, ?_, ?_⟩
  · exact fun e he => hread e (List.mem_of_mem_filter he)
  · exact fun e he => hrecords e (List.mem_of_mem_filter he)

end StonePlus.Credentials
