import StonePlus.Credentials.Journal
import StonePlus.Lib.Run
import Mathlib.Logic.Function.Basic

/-!
# StonePlus.Credentials.Rotation

How a rotated credential is written, and how a rotation that was cut short is
recovered: `persistCredentialRotation` and
`recoverInterruptedCredentialRotations` of `store/app-store.ts`.

A write of the metadata or of an account's row is atomic; anything else may
happen to the accounts and the credentials while one is awaited, and the
process may be killed at any time.  Rotations and the recovery run one after
another.  The hash, the vault and the three readers of a credential are
parameters.
-/

namespace StonePlus.Credentials

open Store (Timestamp)

/-- The hash, the vault and the readers of credentials. -/
structure Crypto where
  credentialSha256 : JsString → JsString
  /-- `safeStorage.encryptString`, in base64; it is randomised. -/
  encryptString : Nat → JsString → JsString
  decryptString : JsString → Option JsString
  /-- Whether the reader of the type accepts a text. -/
  accepts : RotatingCredentialType → JsString → Bool
  isSha256_credentialSha256 : ∀ text, isSha256Base64Url (credentialSha256 text) = true
  decrypt_encrypt : ∀ salt text, decryptString (encryptString salt text) = some text
  encrypt_ne_nil : ∀ salt text, encryptString salt text ≠ []
  accepts_nil : ∀ type, accepts type [] = false

/-! ## Accounts and credentials -/

structure Account where
  /-- `none` for a type that does not rotate. -/
  credentialType : Option RotatingCredentialType
  credentialId : JsString

structure Database where
  /-- The metadata under the key of the journal. -/
  journal : Option Json
  accounts : JsString → Option Account
  credentials : JsString → Option JsString

variable (crypto : Crypto)

/-- `AppStore.decrypt`. -/
def decrypt (vaultAvailable : Bool) (encryptedCredential : JsString) : Option JsString :=
  if vaultAvailable then crypto.decryptString encryptedCredential else none

def getCredential (vaultAvailable : Bool) (database : Database) (credentialId : JsString) :
    Option JsString := do
  let encryptedCredential ← database.credentials credentialId
  guard (encryptedCredential ≠ [])
  decrypt crypto vaultAvailable encryptedCredential

/-- A row update that `store.updateAccountCredential` is to make. -/
structure Update where
  credentialType : RotatingCredentialType
  accountId : JsString
  credentialId : JsString
  encryptedValue : JsString
  expectedEncryptedValue : JsString

/-- What `updateChatGptCredential`, `updateGrokOAuthCredential` and
`updateChatGptAgentIdentityCredential` do before they wait for the store; `none` if they throw. -/
def applyCredentialRotation (vaultAvailable : Bool) (database : Database)
    (type : RotatingCredentialType) (accountId serialized expectedSourceSerialized : JsString)
    (salt : Nat) : Option Update := do
  guard (crypto.accepts type serialized)
  let account ← database.accounts accountId
  guard (account.credentialType = some type)
  let previousEncrypted ← database.credentials account.credentialId
  guard (decrypt crypto vaultAvailable previousEncrypted = some expectedSourceSerialized)
  guard vaultAvailable
  pure ⟨type, accountId, account.credentialId, crypto.encryptString salt serialized, previousEncrypted⟩

/-- The operation of `store.updateAccountCredential`: `none` if it throws. -/
def Update.commit (update : Update) (database : Database) : Option Database := do
  let account ← database.accounts update.accountId
  guard (account.credentialId = update.credentialId)
  guard (database.credentials update.credentialId = some update.expectedEncryptedValue)
  guard (account.credentialType = some update.credentialType)
  pure { database with
    credentials := Function.update database.credentials update.credentialId (some update.encryptedValue) }

/-! ## The two operations -/

/-- A rotation that has passed the checks of `persistCredentialRotation`. -/
structure Rotation where
  credentialType : RotatingCredentialType
  accountId : JsString
  source : JsString
  serialized : JsString
  encryptedRotated : JsString
  createdAt : Timestamp
  source_ne_nil : source ≠ []
  accepted : crypto.accepts credentialType serialized = true
  decrypts : crypto.decryptString encryptedRotated = some serialized
  encrypted_ne_nil : encryptedRotated ≠ []

variable {crypto}

def Rotation.key (rotation : Rotation crypto) : JsString :=
  credentialRotationKey rotation.credentialType rotation.accountId

def Rotation.record (rotation : Rotation crypto) : CredentialRotationRecord :=
  { accountId := rotation.accountId
    credentialType := rotation.credentialType
    sourceSha256 := crypto.credentialSha256 rotation.source
    rotatedSha256 := crypto.credentialSha256 rotation.serialized
    encryptedRotated := rotation.encryptedRotated
    createdAt := rotation.createdAt }

/-- A call of `persistCredentialRotation`. -/
structure Request where
  credentialType : RotatingCredentialType
  accountId : JsString
  serialized : JsString
  expectedSourceSerialized : Option JsString
  createdAt : Timestamp
  salt : Nat

variable (crypto)

/-- The checks of `persistCredentialRotation`; `none` if it throws. -/
def checkRotation (vaultAvailable : Bool) (database : Database) (request : Request) :
    Option (Rotation crypto) :=
  match database.accounts request.accountId with
  | none => none
  | some account =>
    if account.credentialType ≠ some request.credentialType then none
    else
      match getCredential crypto vaultAvailable database account.credentialId with
      | none => none
      | some source =>
        if hsource : source = [] then none
        else if request.expectedSourceSerialized.any (source ≠ ·) then none
        else if haccepted : crypto.accepts request.credentialType request.serialized = true then
          if vaultAvailable then
            some
              { credentialType := request.credentialType
                accountId := request.accountId
                source
                serialized := request.serialized
                encryptedRotated := crypto.encryptString request.salt request.serialized
                createdAt := request.createdAt
                source_ne_nil := hsource
                accepted := haccepted
                decrypts := crypto.decrypt_encrypt _ _
                encrypted_ne_nil := crypto.encrypt_ne_nil _ _ }
          else none
        else none

/-- Where the rotation or the recovery that has the turn is.  Every stage but
`idle`, `starting`, `recovering` and `applying` waits for a write. -/
inductive Stage
  | idle
  | starting
  | removing
  | recovering (remaining : List (JsString × CredentialRotationRecord))
      (journal : CredentialRotationJournal)
  | restoring (key : JsString) (remaining : List (JsString × CredentialRotationRecord))
      (journal : CredentialRotationJournal) (update : Update)
  | dropping (remaining : List (JsString × CredentialRotationRecord))
      (journal : CredentialRotationJournal)
  | journaling (journal : CredentialRotationJournal) (rotation : Rotation crypto)
  | applying (rotation : Rotation crypto) (journaled : Bool)
  | updating (rotation : Rotation crypto) (journaled : Bool) (update : Update)
  | cleaning (journal : CredentialRotationJournal)

structure Process where
  vaultAvailable : Bool
  /-- Whether the recovery at the start has returned. -/
  recovered : Bool
  stage : Stage crypto

structure System where
  database : Database
  process : Option (Process crypto)

inductive Event
  | start (vaultAvailable : Bool)
  | crash
  /-- The recovery or the rotation goes on without waiting for a write. -/
  | next (salt : Nat)
  | rotate (request : Request)
  /-- The write that is awaited is made. -/
  | commit
  /-- The write that is awaited fails. -/
  | reject
  /-- Anything else that changes the accounts and the credentials. -/
  | change (accounts : JsString → Option Account) (credentials : JsString → Option JsString)

variable {crypto}

/-- The recovery looks at the next entry. -/
def recoverEntry (database : Database) (vaultAvailable : Bool) (key : JsString)
    (record : CredentialRotationRecord) (remaining : List (JsString × CredentialRotationRecord))
    (journal : CredentialRotationJournal) (salt : Nat) : Stage crypto :=
  let rotated := decrypt crypto vaultAvailable record.encryptedRotated
  let account := database.accounts record.accountId
  let current := account.bind fun account =>
    getCredential crypto vaultAvailable database account.credentialId
  match rotated, current, account with
  | some rotated, some current, some account =>
    if rotated ≠ [] ∧ current ≠ [] ∧ account.credentialType = some record.credentialType ∧
        crypto.credentialSha256 rotated = record.rotatedSha256 ∧
        crypto.credentialSha256 current = record.sourceSha256 then
      match applyCredentialRotation crypto vaultAvailable database record.credentialType
          record.accountId rotated current salt with
      | some update => .restoring key remaining journal update
      | none => .idle
    else .dropping remaining (journal.delete key)
  | _, _, _ => .dropping remaining (journal.delete key)

/-- The step of a process that does not wait for a write. -/
def goOn (database : Database) (process : Process crypto) (salt : Nat) : Process crypto :=
  match process.stage with
  | .starting =>
    if database.journal.isNone then { process with
      recovered := true
      stage := .idle }
    else
      match parseCredentialRotationJournal database.journal with
      | none => { process with stage := .removing }
      | some journal => { process with stage := .recovering journal.entries journal }
  | .recovering [] _ => { process with
      recovered := true
      stage := .idle }
  | .recovering ((key, record) :: remaining) journal =>
      { process with
        stage := recoverEntry database process.vaultAvailable key record remaining journal salt }
  | .applying rotation journaled =>
    match applyCredentialRotation crypto process.vaultAvailable database rotation.credentialType
        rotation.accountId rotation.serialized rotation.source salt with
    | some update => { process with stage := .updating rotation journaled update }
    | none => { process with stage := .idle }
  | _ => process

/-- A rotation is asked for while no other has the turn. -/
def beginRotation (database : Database) (process : Process crypto) (request : Request) :
    Process crypto :=
  match process.stage with
  | .idle =>
    match checkRotation crypto process.vaultAvailable database request with
    | some rotation =>
        { process with
          stage := .journaling ((parseCredentialRotationJournal database.journal).getD ∅) rotation }
    | none => process
  | _ => process

/-- The write that a stage waits for is made. -/
def commit (database : Database) (process : Process crypto) : Database × Process crypto :=
  match process.stage with
  | .removing =>
      ({ database with journal := none }, { process with
        recovered := true
        stage := .idle })
  | .restoring key remaining journal update =>
    match update.commit database with
    | some database => (database, { process with stage := .dropping remaining (journal.delete key) })
    | none => (database, { process with stage := .idle })
  | .dropping remaining journal =>
      ({ database with journal := writtenJournal journal },
        { process with stage := .recovering remaining journal })
  | .journaling journal rotation =>
      ({ database with journal := writtenJournal (journal.set rotation.key rotation.record) },
        { process with stage := .applying rotation true })
  | .updating rotation journaled update =>
    match update.commit database with
    | some database =>
      if journaled then
        let latest := (parseCredentialRotationJournal database.journal).getD ∅
        (database, { process with stage := .cleaning (latest.delete rotation.key) })
      else (database, { process with stage := .idle })
    | none => (database, { process with stage := .idle })
  | .cleaning journal =>
      ({ database with journal := writtenJournal journal }, { process with stage := .idle })
  | _ => (database, process)

/-- The write that a stage waits for fails. -/
def reject (process : Process crypto) : Process crypto :=
  match process.stage with
  | .removing | .restoring .. | .dropping .. | .updating .. | .cleaning .. =>
      { process with stage := .idle }
  | .journaling _ rotation => { process with stage := .applying rotation false }
  | _ => process

def step (s : System crypto) : Event → System crypto
  | .start vaultAvailable =>
    match s.process with
    | none => { s with process := some ⟨vaultAvailable, false, .starting⟩ }
    | some _ => s
  | .crash => { s with process := none }
  | .change accounts credentials =>
      { s with database := { s.database with
        accounts
        credentials } }
  | .next salt => { s with process := s.process.map fun process => goOn s.database process salt }
  | .rotate request =>
      { s with process := s.process.map fun process => beginRotation s.database process request }
  | .reject => { s with process := s.process.map reject }
  | .commit =>
    match s.process with
    | none => s
    | some process =>
      let written := commit s.database process
      ⟨written.1, some written.2⟩

end StonePlus.Credentials
