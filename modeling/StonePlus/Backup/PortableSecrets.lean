import StonePlus.Credentials.Journal

/-!
# StonePlus.Backup.PortableSecrets

`backup/portable-secrets.ts`: the secrets of a database are taken out of the vault
of one device, wrapped under the password of an archive, and put into the vault of
another.

AES-GCM, scrypt, base64url and URLs are parameters.  A step that throws rolls its
transaction back, so only what is returned is a database.
-/

namespace StonePlus.Backup

open Credentials (stringField isVersionOne)

abbrev Result := Except JsString

/-! ## Databases and vaults -/

structure Database (σ : Type) where
  /-- The encrypted values, under the ids of their rows. -/
  credentials : JsMap JsString JsString
  /-- The rows of `app_metadata`; `none` is a text that is no JSON. -/
  metadata : JsMap JsString (Option Json)
  /-- All other tables. -/
  rest : σ

/-- `CredentialVaultLike`, on base64 texts.  Encryption is randomised. -/
structure Vault where
  /-- `isSecureCredentialVaultAvailable`. -/
  secure : Bool
  encryptString : Nat → JsString → JsString
  /-- `none` if it throws. -/
  decryptString : JsString → Option JsString

/-- A parsed URL. -/
structure Url where
  username : JsString
  password : JsString
  /-- `toString()` after both have been cleared. -/
  withoutCredentials : JsString

structure Platform where
  /-- scrypt. -/
  deriveSecretKey : JsString → Bytes → Bytes
  /-- AES-256-GCM with a key, an initialization vector and additional data: the tag
  and the ciphertext. -/
  encipher : Bytes → Bytes → JsString → JsString → Bytes × Bytes
  decipher : Bytes → Bytes → JsString → Bytes × Bytes → Option JsString
  base64url : Bytes → JsString
  fromBase64url : JsString → Bytes
  parseUrl : JsString → Option Url
  decodeURIComponent : JsString → Option JsString

/-- What `randomBytes` returns in an export and `encryptString` draws in an import:
one value for each locator. -/
structure Randomness where
  salt : Bytes
  iv : JsString → Bytes
  seed : JsString → Nat
  length_salt : salt.length = 16
  length_iv : ∀ locator, (iv locator).length = 12

variable (platform : Platform) {σ : Type}

/-! ## Wrapping -/

def portablePrefix : JsString := js "stoneportable:v2:"

/-- The additional data for a locator. -/
def additionalData (locator : JsString) : JsString := js "stone-portable-v2\x00" ++ locator

def wrapSecret (plaintext : JsString) (key iv : Bytes) (locator : JsString) : JsString :=
  let (tag, encrypted) := platform.encipher key iv (additionalData locator) plaintext
  portablePrefix ++ platform.base64url iv ++ js "." ++ platform.base64url tag ++ js "." ++
    platform.base64url encrypted

def unwrapSecret (value : JsString) (key : Bytes) (locator : JsString) : Result JsString :=
  if !portablePrefix.isPrefixOf value then
    .error (js "Portable credential " ++ locator ++ js " is not wrapped")
  else
    match (value.drop portablePrefix.length).splitOn 0x2E with
    | [c :: iv, d :: tag, encrypted] =>
      match platform.decipher key (platform.fromBase64url (c :: iv)) (additionalData locator)
          (platform.fromBase64url (d :: tag), platform.fromBase64url encrypted) with
      | some plaintext => .ok plaintext
      | none => .error (js "Portable credential " ++ locator ++ js " cannot be authenticated")
    | _ => .error (js "Portable credential " ++ locator ++ js " is malformed")

def decryptVault (vault : Vault) (encrypted locator : JsString) : Result JsString :=
  match vault.decryptString encrypted with
  | some plaintext => .ok plaintext
  | none => .error (js "Unable to migrate protected credential " ++ locator)

def requireVault : Option Vault → Result Vault
  | some vault =>
    if vault.secure then .ok vault
    else .error (js "System credential encryption is unavailable; portable secrets cannot be migrated")
  | none =>
    .error (js "System credential encryption is unavailable; portable secrets cannot be migrated")

/-! ## Metadata -/

def manifestKey : JsString := js "portable_secret_wrapping_v2"

def webDavKey : JsString := js "webdav_backup_configuration_v1"

/-- `CREDENTIAL_ROTATION_JOURNAL_KEY` of the store. -/
def rotationJournalKey : JsString := js "credential_rotation_recovery_v1"

/-- The JSON value of a row of `app_metadata`. -/
def Database.metadataValue (database : Database σ) (key : JsString) : Option Json :=
  (database.metadata.get? key).join

def Database.writeMetadata (database : Database σ) (key : JsString) (value : Json) : Database σ :=
  { database with metadata := database.metadata.set key (some value) }

def Database.deleteMetadata (database : Database σ) (key : JsString) : Database σ :=
  { database with metadata := database.metadata.delete key }

/-- `UPDATE credentials SET encrypted_value = ? WHERE id = ?`. -/
def Database.updateCredential (database : Database σ) (id encryptedValue : JsString) : Database σ :=
  { database with credentials := database.credentials.set id encryptedValue }

structure PortableWebDavConfiguration where
  baseUrl : JsString
  username : JsString
  encryptedPassword : Option JsString

def PortableWebDavConfiguration.toJson (configuration : PortableWebDavConfiguration) : Json :=
  .object ([(js "version", .number (.ofNat 1)), (js "baseUrl", .string configuration.baseUrl),
    (js "username", .string configuration.username)] ++
    configuration.encryptedPassword.toList.map fun text => (js "encryptedPassword", .string text))

/-- The password of a configuration, unless it is empty. -/
def PortableWebDavConfiguration.password? (configuration : PortableWebDavConfiguration) :
    Option JsString :=
  configuration.encryptedPassword.filter (!·.isEmpty)

def readWebDav (database : Database σ) : Option PortableWebDavConfiguration :=
  match database.metadataValue webDavKey with
  | some (.object fields) => do
    guard (isVersionOne fields)
    return ⟨← stringField fields "baseUrl", ← stringField fields "username",
      stringField fields "encryptedPassword"⟩
  | _ => none

def writeWebDav (database : Database σ) (configuration : PortableWebDavConfiguration) : Database σ :=
  database.writeMetadata webDavKey configuration.toJson

structure NormalizedPortableWebDav where
  configuration : PortableWebDavConfiguration
  embeddedPassword : Option JsString
  changed : Bool

def decodeUrlCredential (value : JsString) : Result JsString :=
  match platform.decodeURIComponent value with
  | some decoded => .ok decoded
  | none => .error (js "Legacy WebDAV credentials use invalid URL encoding")

def normalizePortableWebDav (value : PortableWebDavConfiguration) :
    Result NormalizedPortableWebDav :=
  match platform.parseUrl value.baseUrl with
  | none =>
    if 0x40 ∈ value.baseUrl then .error (js "Legacy WebDAV credentials could not be migrated safely")
    else .ok ⟨value, none, false⟩
  | some url =>
    if url.username = [] ∧ url.password = [] then .ok ⟨value, none, false⟩
    else do
      let embeddedUsername ← decodeUrlCredential platform url.username
      let embeddedPassword ← decodeUrlCredential platform url.password
      let username := if value.username = [] then embeddedUsername else value.username
      let embedded := if value.password? = none ∧ embeddedPassword ≠ [] then some embeddedPassword
        else none
      if embedded.isSome ∧ username = [] then
        .error (js "Legacy WebDAV password has no associated username")
      else if embedded.isSome ∧ value.username ≠ [] ∧ embeddedUsername ≠ [] ∧
          value.username ≠ embeddedUsername then
        .error (js "Legacy WebDAV credentials conflict with the configured username")
      else .ok ⟨{ value with baseUrl := url.withoutCredentials, username }, embedded, true⟩

def manifestJson (salt : Bytes) : Json :=
  .object [(js "version", .number (.ofNat 2)), (js "salt", .string (platform.base64url salt))]

/-- The salt of `readManifest`, decoded. -/
def readManifest (database : Database σ) : Result Bytes :=
  match database.metadataValue manifestKey with
  | some (.object fields) =>
    let salt := platform.fromBase64url ((stringField fields "salt").getD [])
    if Json.property? fields (js "version") == some (.number (.ofNat 2)) ∧
        (stringField fields "salt").isSome ∧ salt.length = 16 then .ok salt
    else .error (js "Portable secret manifest is missing or invalid")
  | _ => .error (js "Portable secret manifest is missing or invalid")

/-! ## Export and import -/

def credentialLocator (id : JsString) : JsString := js "credentials/" ++ id

def webDavLocator : JsString := js "webdav/password"

/-- Every encrypted value is replaced by another one, row by row. -/
def rewriteCredentials (rewrite : JsString → JsString → Result JsString) (database : Database σ) :
    Result (Database σ) :=
  database.credentials.entries.foldlM (fun rewritten row => do
    return rewritten.updateCredential row.1 (← rewrite row.1 row.2)) database

/-- `normalizePortableWebDav` of what `readWebDav` returns. -/
def readNormalizedWebDav (database : Database σ) : Result (Option NormalizedPortableWebDav) :=
  match readWebDav database with
  | some configuration => do return some (← normalizePortableWebDav platform configuration)
  | none => .ok none

/-- The password as it goes into an export. -/
def exportedPassword (vault : Vault) (key : Bytes) (random : Randomness)
    (webDav : NormalizedPortableWebDav) : Result (Option JsString) :=
  match webDav.configuration.password?, webDav.embeddedPassword with
  | some encrypted, _ => do
    return some (wrapSecret platform (← decryptVault vault encrypted webDavLocator) key
      (random.iv webDavLocator) webDavLocator)
  | none, some embedded =>
    .ok (some (wrapSecret platform embedded key (random.iv webDavLocator) webDavLocator))
  | none, none => .ok none

def wrapWebDav (vault : Vault) (key : Bytes) (random : Randomness) (database : Database σ) :
    Option NormalizedPortableWebDav → Result (Database σ)
  | some webDav => do
    let encryptedPassword ← exportedPassword platform vault key random webDav
    return writeWebDav database { webDav.configuration with
      encryptedPassword := encryptedPassword.or webDav.configuration.encryptedPassword }
  | none => .ok database

/-- A configuration whose address has been changed is written back. -/
def writeChangedWebDav (database : Database σ) (webDav : Option NormalizedPortableWebDav) :
    Database σ :=
  match webDav.filter NormalizedPortableWebDav.changed with
  | some webDav => writeWebDav database webDav.configuration
  | none => database

def preparePortableExportDatabase (source : Database σ) (password : JsString) (vault : Option Vault)
    (random : Randomness) : Result (Database σ) := do
  let webDav ← readNormalizedWebDav platform source
  let hasSecrets := !source.credentials.entries.isEmpty ||
    webDav.any fun w => w.configuration.password?.isSome || w.embeddedPassword.isSome
  if !hasSecrets then .ok (writeChangedWebDav source webDav)
  else
    let vault ← requireVault vault
    let key := platform.deriveSecretKey password random.salt
    let wrapped ← rewriteCredentials (fun id encrypted => do
      return wrapSecret platform (← decryptVault vault encrypted id) key
        (random.iv (credentialLocator id)) (credentialLocator id)) source
    let database ← wrapWebDav platform vault key random wrapped webDav
    return database.writeMetadata manifestKey (manifestJson platform random.salt)

/-- The password that an import has to store. -/
def importedPassword (key : Bytes) (webDav : NormalizedPortableWebDav) : Result (Option JsString) :=
  match webDav.configuration.password? with
  | some encrypted => do return some (← unwrapSecret platform encrypted key webDavLocator)
  | none => .ok webDav.embeddedPassword

def rewrapWebDav (vault : Vault) (key : Bytes) (random : Randomness) (database : Database σ) :
    Option NormalizedPortableWebDav → Result (Database σ)
  | some webDav => do
    let plaintext ← importedPassword platform key webDav
    return writeWebDav database { webDav.configuration with
      encryptedPassword := plaintext.map (vault.encryptString (random.seed webDavLocator)) }
  | none => .ok database

/-- `preparePortableImportedDatabase` with version 2. -/
def preparePortableImportedDatabase (database : Database σ) (password : JsString)
    (vault : Option Vault) (random : Randomness) : Result (Database σ) := do
  let webDav ← readNormalizedWebDav platform database
  let hasWrappedSecrets := !database.credentials.entries.isEmpty ||
    webDav.any (·.configuration.password?.isSome)
  let hasSecrets := hasWrappedSecrets || webDav.any (·.embeddedPassword.isSome)
  if !hasSecrets then
    if webDav.any NormalizedPortableWebDav.changed then
      .ok ((writeChangedWebDav database webDav).deleteMetadata manifestKey)
    else .ok database
  else
    let vault ← requireVault vault
    -- without a wrapped secret no key is used
    let salt ← if hasWrappedSecrets then readManifest platform database else .ok []
    let key := platform.deriveSecretKey password salt
    let rewrapped ← rewriteCredentials (fun id encrypted => do
      return vault.encryptString (random.seed (credentialLocator id))
        (← unwrapSecret platform encrypted key (credentialLocator id))) database
    let imported ← rewrapWebDav platform vault key random rewrapped webDav
    return imported.deleteMetadata manifestKey

end StonePlus.Backup
