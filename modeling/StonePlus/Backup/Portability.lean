import StonePlus.Backup.PortableSecrets
import StonePlus.Lib.Except

/-!
# StonePlus.Backup.Portability

A database that is exported under a password and imported on another device has
all its secrets in the vault of that device, but for the records of pending
credential rotations: these keep the ciphertext of the first vault.
-/

namespace StonePlus.Backup

open Credentials (stringField isVersionOne CredentialRotationJournal parseCredentialRotationJournal)

/-! ## What the parameters are relied on for -/

/-- `String.prototype.isWellFormed`. -/
def isWellFormed (s : JsString) : Bool := s.codePoints.all (!JsString.isSurrogate ·)

structure Platform.Correct (platform : Platform) : Prop where
  decipher_encipher : ∀ key iv additional plaintext, isWellFormed plaintext = true →
    platform.decipher key iv additional (platform.encipher key iv additional plaintext) =
      some plaintext
  tag_ne_nil : ∀ key iv additional plaintext,
    (platform.encipher key iv additional plaintext).1 ≠ []
  fromBase64url_base64url : ∀ bytes, platform.fromBase64url (platform.base64url bytes) = bytes
  base64url_ne_nil : ∀ bytes, bytes ≠ [] → platform.base64url bytes ≠ []
  dot_notMem_base64url : ∀ bytes, 0x2E ∉ platform.base64url bytes
  parse_withoutCredentials : ∀ text url, platform.parseUrl text = some url →
    platform.parseUrl url.withoutCredentials = some ⟨[], [], url.withoutCredentials⟩
  isWellFormed_decode : ∀ text decoded, platform.decodeURIComponent text = some decoded →
    isWellFormed decoded = true

structure Vault.Works (vault : Vault) : Prop where
  secure : vault.secure = true
  decrypt_encrypt : ∀ seed plaintext, isWellFormed plaintext = true →
    vault.decryptString (vault.encryptString seed plaintext) = some plaintext
  encrypt_ne_nil : ∀ seed plaintext, vault.encryptString seed plaintext ≠ []
  isWellFormed_decrypt : ∀ text plaintext, vault.decryptString text = some plaintext →
    isWellFormed plaintext = true

variable {platform : Platform} {σ : Type}

/-! ## Secrets -/

/-- The rotations that have not been completed. -/
def pendingRotations (database : Database σ) : Option CredentialRotationJournal :=
  parseCredentialRotationJournal (database.metadataValue rotationJournalKey)

/-- The password of a configuration, under a vault or in the URL. -/
def webDavPassword (platform : Platform) (vault : Vault)
    (configuration : PortableWebDavConfiguration) : Option JsString :=
  match configuration.password? with
  | some encrypted => vault.decryptString encrypted
  | none => (normalizePortableWebDav platform configuration).toOption.bind (·.embeddedPassword)

/-- Every secret that is encrypted decrypts. -/
structure SecretsDecrypt (vault : Vault) (database : Database σ) : Prop where
  credentials : ∀ id encrypted, database.credentials.get? id = some encrypted →
    (vault.decryptString encrypted).isSome = true
  webDav : ∀ configuration encrypted, readWebDav database = some configuration →
    configuration.password? = some encrypted → (vault.decryptString encrypted).isSome = true
  rotations : ∀ journal, pendingRotations database = some journal → ∀ entry ∈ journal.entries,
    (vault.decryptString entry.2.encryptedRotated).isSome = true

/-- The configuration has arrived: its password under the vault, and where it says
so its address without the credentials. -/
def WebDavCarried (platform : Platform) (source target : Vault) (database imported : Database σ) :
    Prop :=
  match readWebDav database with
  | none => imported.metadata.get? webDavKey = database.metadata.get? webDavKey
  | some configuration => ∃ normalized arrived,
      normalizePortableWebDav platform configuration = .ok normalized ∧
      readWebDav imported = some arrived ∧
      arrived.baseUrl = normalized.configuration.baseUrl ∧
      arrived.username = normalized.configuration.username ∧
      webDavPassword platform target arrived = webDavPassword platform source configuration

/-- Every secret is there, under the vault of the target, and all else is as it was. -/
structure Carried (platform : Platform) (source target : Vault) (database imported : Database σ) :
    Prop where
  credentials : ∀ id, (imported.credentials.get? id).map target.decryptString =
    (database.credentials.get? id).map source.decryptString
  webDav : WebDavCarried platform source target database imported
  rotations : ∀ journal, pendingRotations database = some journal →
    ∃ arrived, pendingRotations imported = some arrived ∧
      ∀ key, (arrived.get? key).map (target.decryptString ·.encryptedRotated) =
        (journal.get? key).map (source.decryptString ·.encryptedRotated)
  metadata : ∀ key, key ≠ webDavKey → key ≠ manifestKey → key ≠ rotationJournalKey →
    imported.metadata.get? key = database.metadata.get? key
  manifest : (imported.metadata.get? manifestKey).isSome = true →
    imported.metadata.get? manifestKey = database.metadata.get? manifestKey
  rest : imported.rest = database.rest

/-! ## Wrapping -/

theorem unwrapSecret_wrapSecret (h : platform.Correct) (key : Bytes) (locator : JsString)
    (hplaintext : isWellFormed plaintext = true) (hiv : iv.length = 12) :
    unwrapSecret platform (wrapSecret platform plaintext key iv locator) key locator =
      .ok plaintext := by
  have hivText := h.base64url_ne_nil iv (by rintro rfl; cases hiv)
  have htag := h.tag_ne_nil key iv (additionalData locator) plaintext
  have hopen := h.decipher_encipher key iv (additionalData locator) plaintext hplaintext
  generalize hsealed : platform.encipher key iv (additionalData locator) plaintext = sealed at *
  obtain ⟨tag, encrypted⟩ := sealed
  have htagText := h.base64url_ne_nil tag htag
  have hsplit : (platform.base64url iv ++ js "." ++ platform.base64url tag ++ js "." ++
      platform.base64url encrypted).splitOn 0x2E =
        [platform.base64url iv, platform.base64url tag, platform.base64url encrypted] := by
    have hpieces : ∀ piece ∈
        [platform.base64url iv, platform.base64url tag, platform.base64url encrypted],
        (0x2E : UInt16) ∉ piece := by
      simp [h.dot_notMem_base64url]
    rw [← List.splitOn_intercalate (0x2E : UInt16) hpieces (by simp)]
    simp [List.intercalate, js]
  have hwrap : wrapSecret platform plaintext key iv locator = portablePrefix ++
      (platform.base64url iv ++ js "." ++ platform.base64url tag ++ js "." ++
        platform.base64url encrypted) := by
    simp only [wrapSecret, hsealed, List.append_assoc]
  have hstart : portablePrefix.isPrefixOf (wrapSecret platform plaintext key iv locator) = true := by
    rw [hwrap]
    simp
  rw [unwrapSecret, hstart, hwrap, List.drop_left, hsplit]
  obtain ⟨c, ivText, hc⟩ := List.exists_cons_of_ne_nil hivText
  obtain ⟨d, tagText, hd⟩ := List.exists_cons_of_ne_nil htagText
  simp only [hc, hd]
  rw [← hc, ← hd, h.fromBase64url_base64url, h.fromBase64url_base64url, h.fromBase64url_base64url,
    hopen]
  rfl

theorem wrapSecret_ne_nil (plaintext : JsString) (key iv : Bytes) (locator : JsString) :
    wrapSecret platform plaintext key iv locator ≠ [] := by
  simp [wrapSecret, portablePrefix, js]

/-! ## Rows -/

/-- Rewriting rows one by one leaves each row with its own new value. -/
theorem foldlM_updateCredential {rewrite : JsString → JsString → Result JsString}
    {f : JsString → JsString → JsString} {rows : List (JsString × JsString)}
    (hrewrite : ∀ row ∈ rows, rewrite row.1 row.2 = .ok (f row.1 row.2))
    (hnodup : (rows.map Prod.fst).Nodup) (database : Database σ) :
    ∃ rewritten, rows.foldlM (fun rewritten row => do
        return rewritten.updateCredential row.1 (← rewrite row.1 row.2)) database = .ok rewritten ∧
      rewritten.metadata = database.metadata ∧ rewritten.rest = database.rest ∧
      ∀ id, rewritten.credentials.get? id =
        ((JsMap.lookup id rows).map (f id)).or (database.credentials.get? id) := by
  induction rows generalizing database with
  | nil => exact ⟨database, rfl, rfl, rfl, fun id => rfl⟩
  | cons row rows ih =>
      obtain ⟨hrow, hrows⟩ := List.forall_mem_cons.mp hrewrite
      obtain ⟨hnot, hrest⟩ := List.nodup_cons.mp hnodup
      obtain ⟨rewritten, hfold, hmetadata, hother, hget⟩ :=
        ih hrows hrest (database.updateCredential row.1 (f row.1 row.2))
      refine ⟨rewritten, ?_, hmetadata, hother, ?_⟩
      · rw [List.foldlM_cons, hrow]
        exact hfold
      · intro id
        rw [hget, Database.updateCredential, JsMap.get?_set, JsMap.lookup]
        by_cases hid : id = row.1
        · rw [hid, JsMap.lookup_eq_none_iff.mpr hnot]
          simp
        · simp [hid, Ne.symm hid]

theorem rewriteCredentials_eq_ok {rewrite : JsString → JsString → Result JsString}
    {f : JsString → JsString → JsString} {database : Database σ}
    (hrewrite : ∀ id value, database.credentials.get? id = some value →
      rewrite id value = .ok (f id value)) :
    ∃ rewritten, rewriteCredentials rewrite database = .ok rewritten ∧
      rewritten.metadata = database.metadata ∧ rewritten.rest = database.rest ∧
      ∀ id, rewritten.credentials.get? id = (database.credentials.get? id).map (f id) := by
  obtain ⟨rewritten, hfold, hmetadata, hrest, hget⟩ := foldlM_updateCredential
    (fun row hrow => hrewrite row.1 row.2 (JsMap.get?_eq_some_iff.mpr hrow))
    database.credentials.nodup database
  refine ⟨rewritten, hfold, hmetadata, hrest, fun id => ?_⟩
  rw [hget]
  change ((database.credentials.get? id).map (f id)).or (database.credentials.get? id) = _
  cases database.credentials.get? id <;> rfl

theorem isEmpty_of_get? {map map' : JsMap JsString JsString} {f : JsString → JsString → JsString}
    (h : ∀ id, map'.get? id = (map.get? id).map (f id)) :
    map'.entries.isEmpty = map.entries.isEmpty := by
  have hempty : ∀ m : JsMap JsString JsString, m.entries.isEmpty = true ↔ ∀ id, m.get? id = none := by
    intro m
    simp only [List.isEmpty_iff, JsMap.get?_eq_none_iff, JsMap.keys]
    constructor
    · intro hm
      simp [hm]
    · intro hm
      by_contra hne
      obtain ⟨e, rest, he⟩ := List.exists_cons_of_ne_nil hne
      exact hm e.1 (by simp [he])
  rw [Bool.eq_iff_iff, hempty, hempty]
  simp [h]

/-! ## Metadata -/

@[simp] theorem metadataValue_writeMetadata (database : Database σ) (key key' : JsString) (value : Json) :
    (database.writeMetadata key value).metadataValue key' =
      if key' = key then some value else database.metadataValue key' := by
  simp only [Database.metadataValue, Database.writeMetadata, JsMap.get?_set]
  split <;> rfl

@[simp] theorem metadataValue_deleteMetadata (database : Database σ) (key key' : JsString) :
    (database.deleteMetadata key).metadataValue key' =
      if key' = key then none else database.metadataValue key' := by
  simp only [Database.metadataValue, Database.deleteMetadata, JsMap.get?_delete]
  split <;> rfl

theorem get?_writeMetadata_of_ne (database : Database σ) (value : Json) (h : key' ≠ key) :
    (database.writeMetadata key value).metadata.get? key' = database.metadata.get? key' :=
  JsMap.get?_set_of_ne _ _ h

theorem get?_deleteMetadata_of_ne (database : Database σ) (h : key' ≠ key) :
    (database.deleteMetadata key).metadata.get? key' = database.metadata.get? key' :=
  JsMap.get?_delete_of_ne _ h

variable {database : Database σ}

theorem readWebDav_congr {database' : Database σ}
    (h : database'.metadataValue webDavKey = database.metadataValue webDavKey) :
    readWebDav database' = readWebDav database := by
  rw [readWebDav, readWebDav, h]

theorem readWebDav_of_value (h : database.metadataValue webDavKey = some configuration.toJson) :
    readWebDav database = some configuration := by
  obtain ⟨baseUrl, username, encryptedPassword⟩ := configuration
  rw [readWebDav, h]
  cases encryptedPassword <;>
    simp [PortableWebDavConfiguration.toJson, isVersionOne, stringField, Json.property?, js, guard]

theorem readWebDav_writeWebDav (database : Database σ) (configuration : PortableWebDavConfiguration) :
    readWebDav (writeWebDav database configuration) = some configuration :=
  readWebDav_of_value (by simp [writeWebDav])

theorem readManifest_of_value (h : platform.Correct)
    (hvalue : database.metadataValue manifestKey = some (manifestJson platform salt))
    (hsalt : salt.length = 16) : readManifest platform database = .ok salt := by
  rw [readManifest, hvalue]
  simp [manifestJson, stringField, Json.property?, js, h.fromBase64url_base64url, hsalt]

theorem webDavKey_ne_manifestKey : webDavKey ≠ manifestKey := by decide

theorem rotationJournalKey_ne_manifestKey : rotationJournalKey ≠ manifestKey := by decide

theorem rotationJournalKey_ne_webDavKey : rotationJournalKey ≠ webDavKey := by decide

/-! ## Configurations -/

/-- What normalization leaves. -/
structure IsNormalized (platform : Platform) (value : PortableWebDavConfiguration)
    (normalized : NormalizedPortableWebDav) : Prop where
  unchanged : normalized.changed = false → normalized.configuration = value
  encrypted : normalized.configuration.encryptedPassword = value.encryptedPassword
  embedded : ∀ password, normalized.embeddedPassword = some password →
    value.password? = none ∧ isWellFormed password = true
  again : ∀ encryptedPassword, normalizePortableWebDav platform
    { normalized.configuration with encryptedPassword := encryptedPassword } =
      .ok ⟨{ normalized.configuration with encryptedPassword := encryptedPassword }, none, false⟩

theorem isNormalized_of_eq_ok (h : platform.Correct)
    (hok : normalizePortableWebDav platform value = .ok normalized) :
    IsNormalized platform value normalized := by
  unfold normalizePortableWebDav at hok
  cases hparse : platform.parseUrl value.baseUrl with
  | none =>
      simp only [hparse] at hok
      split at hok
      · cases hok
      · rename_i hat
        injection hok with hok
        subst hok
        exact ⟨fun _ => rfl, rfl, by simp, by simp [normalizePortableWebDav, hparse, hat]⟩
  | some url =>
      simp only [hparse] at hok
      split at hok
      · rename_i hplain
        injection hok with hok
        subst hok
        exact ⟨fun _ => rfl, rfl, by simp, by simp [normalizePortableWebDav, hparse, hplain]⟩
      · obtain ⟨embeddedUsername, husername, hok⟩ := Lib.bind_eq_ok.mp hok
        obtain ⟨embeddedPassword, hpassword, hok⟩ := Lib.bind_eq_ok.mp hok
        generalize hembedded : (if value.password? = none ∧ embeddedPassword ≠ []
          then some embeddedPassword else none) = embedded at hok
        generalize (if value.username = [] then embeddedUsername else value.username) = username at hok
        split at hok
        · cases hok
        · split at hok
          · cases hok
          · injection hok with hok
            subst hok
            have hagain := h.parse_withoutCredentials _ _ hparse
            refine ⟨by simp, rfl, ?_, by simp [normalizePortableWebDav, hagain]⟩
            rintro password rfl
            split at hembedded
            · rename_i hcarried
              injection hembedded with hembedded
              subst hembedded
              refine ⟨hcarried.1, ?_⟩
              unfold decodeUrlCredential at hpassword
              split at hpassword
              · rename_i decoded hdecoded
                injection hpassword with hpassword
                rw [← hpassword]
                exact h.isWellFormed_decode _ _ hdecoded
              · cases hpassword
            · cases hembedded

/-- The password that a configuration has under a vault, after normalization. -/
def passwordOf (vault : Vault) (webDav : NormalizedPortableWebDav) : Option JsString :=
  match webDav.configuration.password? with
  | some encrypted => vault.decryptString encrypted
  | none => webDav.embeddedPassword

theorem readNormalizedWebDav_eq_ok (h : readNormalizedWebDav platform database = .ok webDav) :
    (readWebDav database = none ∧ webDav = none) ∨
      ∃ configuration normalized, readWebDav database = some configuration ∧
        normalizePortableWebDav platform configuration = .ok normalized ∧ webDav = some normalized := by
  unfold readNormalizedWebDav at h
  cases hread : readWebDav database with
  | none =>
      rw [hread] at h
      injection h with h
      exact .inl ⟨rfl, h.symm⟩
  | some configuration =>
      rw [hread] at h
      obtain ⟨normalized, hnormalized, h⟩ := Lib.bind_eq_ok.mp h
      injection h with h
      exact .inr ⟨configuration, normalized, rfl, hnormalized, h.symm⟩

/-! ## The archive -/

/-- The plaintext of a credential under a vault that decrypts it. -/
def plaintextOf (vault : Vault) (encrypted : JsString) : JsString :=
  (vault.decryptString encrypted).getD []

/-- A credential as it is in an archive. -/
def archivedCredential (platform : Platform) (source : Vault) (key : Bytes) (random : Randomness)
    (id encrypted : JsString) : JsString :=
  wrapSecret platform (plaintextOf source encrypted) key (random.iv (credentialLocator id))
    (credentialLocator id)

/-- What an archive holds of the configuration. -/
def WebDavArchived (platform : Platform) (source : Vault) (key : Bytes) (random : Randomness)
    (database exported : Database σ) : Option NormalizedPortableWebDav → Prop
  | none => exported.metadata.get? webDavKey = database.metadata.get? webDavKey
  | some webDav => ∃ encryptedPassword,
      readWebDav exported =
        some { webDav.configuration with encryptedPassword := encryptedPassword } ∧
      encryptedPassword.filter (!·.isEmpty) = (passwordOf source webDav).map fun password =>
        wrapSecret platform password key (random.iv webDavLocator) webDavLocator

def holdsSecrets (source : Vault) (database : Database σ) (webDav : Option NormalizedPortableWebDav) :
    Bool :=
  !database.credentials.entries.isEmpty || webDav.any fun w => (passwordOf source w).isSome

/-- The archive of a database: every secret is wrapped, and the manifest is there if
any secret is. -/
structure Archived (platform : Platform) (source : Vault) (password : JsString) (random : Randomness)
    (database exported : Database σ) (webDav : Option NormalizedPortableWebDav) : Prop where
  credentials : ∀ id, exported.credentials.get? id = (database.credentials.get? id).map
    (archivedCredential platform source (platform.deriveSecretKey password random.salt) random id)
  configuration : WebDavArchived platform source (platform.deriveSecretKey password random.salt)
    random database exported webDav
  manifest : holdsSecrets source database webDav = true →
    exported.metadataValue manifestKey = some (manifestJson platform random.salt)
  noManifest : holdsSecrets source database webDav = false →
    exported.metadata.get? manifestKey = database.metadata.get? manifestKey
  metadata : ∀ key, key ≠ webDavKey → key ≠ manifestKey →
    exported.metadata.get? key = database.metadata.get? key
  rest : exported.rest = database.rest

/-- Whether there is a password is seen without decrypting it. -/
theorem isSome_passwordOf (hsecrets : SecretsDecrypt source database)
    (hread : readWebDav database = some configuration)
    (hnormalized : IsNormalized platform configuration webDav) : (passwordOf source webDav).isSome =
      (webDav.configuration.password?.isSome || webDav.embeddedPassword.isSome) := by
  have hpassword : webDav.configuration.password? = configuration.password? := by
    rw [PortableWebDavConfiguration.password?, hnormalized.encrypted,
      ← PortableWebDavConfiguration.password?]
  unfold passwordOf
  cases hencrypted : webDav.configuration.password? with
  | none => simp
  | some encrypted =>
      simpa using hsecrets.webDav _ _ hread (hpassword ▸ hencrypted)

/-- The test of an export, which looks at what is encrypted. -/
theorem hasSecrets_eq (hplatform : platform.Correct) (hsecrets : SecretsDecrypt source database)
    (hwebDav : readNormalizedWebDav platform database = .ok webDav) :
    (!database.credentials.entries.isEmpty ||
        webDav.any fun w => w.configuration.password?.isSome || w.embeddedPassword.isSome) =
      holdsSecrets source database webDav := by
  rcases readNormalizedWebDav_eq_ok hwebDav with ⟨-, rfl⟩ | ⟨_, normalized, hread, hnormalized, rfl⟩
  · rfl
  · have hsome := isSome_passwordOf hsecrets hread (isNormalized_of_eq_ok hplatform hnormalized)
    simp only [holdsSecrets, Option.any_some, hsome]

theorem decryptVault_eq_ok (h : (source.decryptString encrypted).isSome = true) :
    decryptVault source encrypted locator = .ok (plaintextOf source encrypted) := by
  obtain ⟨plaintext, hplaintext⟩ := Option.isSome_iff_exists.mp h
  simp [decryptVault, plaintextOf, hplaintext]

/-- The configuration is written with what its password is wrapped as. -/
theorem wrapWebDav_eq_ok (hplatform : platform.Correct) (key : Bytes) (random : Randomness)
    (hsecrets : SecretsDecrypt source database)
    (hwebDav : readNormalizedWebDav platform database = .ok webDav)
    (hmetadata : wrapped.metadata = database.metadata) :
    ∃ written, wrapWebDav platform source key random wrapped webDav = .ok written ∧
      WebDavArchived platform source key random database written webDav ∧
      written.credentials = wrapped.credentials ∧ written.rest = wrapped.rest ∧
      ∀ key, key ≠ webDavKey → written.metadata.get? key = database.metadata.get? key := by
  rcases readNormalizedWebDav_eq_ok hwebDav with ⟨-, rfl⟩ | ⟨_, normalized, hread, hnormalized, rfl⟩
  · exact ⟨wrapped, rfl, by rw [WebDavArchived, hmetadata], rfl, rfl, fun _ _ => by rw [hmetadata]⟩
  · have hnormal := isNormalized_of_eq_ok hplatform hnormalized
    have hexported : exportedPassword platform source key random normalized = .ok
        ((passwordOf source normalized).map fun password =>
          wrapSecret platform password key (random.iv webDavLocator) webDavLocator) := by
      unfold exportedPassword passwordOf
      cases hencrypted : normalized.configuration.password? with
      | none => cases normalized.embeddedPassword <;> rfl
      | some encrypted =>
          have hdecrypts : (source.decryptString encrypted).isSome = true := by
            refine hsecrets.webDav _ _ hread ?_
            rw [← hencrypted, PortableWebDavConfiguration.password?, ← hnormal.encrypted,
              PortableWebDavConfiguration.password?]
          obtain ⟨plaintext, hplaintext⟩ := Option.isSome_iff_exists.mp hdecrypts
          simp only [decryptVault, hplaintext]
          rfl
    have hwritten : wrapWebDav platform source key random wrapped (some normalized) =
        .ok (writeWebDav wrapped { normalized.configuration with
          encryptedPassword := ((passwordOf source normalized).map fun password =>
            wrapSecret platform password key (random.iv webDavLocator) webDavLocator).or
              normalized.configuration.encryptedPassword }) := by
      rw [wrapWebDav, hexported]
      rfl
    refine ⟨_, hwritten, ⟨_, readWebDav_writeWebDav _ _, ?_⟩, rfl, rfl, ?_⟩
    · cases hpassword : passwordOf source normalized with
      | none =>
          -- a password that is kept as it is, is empty
          have hnone : normalized.configuration.password? = none := by
            cases hencrypted : normalized.configuration.password? with
            | none => rfl
            | some encrypted =>
                have := isSome_passwordOf hsecrets hread hnormal
                simp [hpassword, hencrypted] at this
          simpa [PortableWebDavConfiguration.password?] using hnone
      | some password => simp [wrapSecret_ne_nil]
    · intro key hkey
      rw [writeWebDav, get?_writeMetadata_of_ne _ _ hkey, hmetadata]

/-- Without secrets only the address of the configuration may have to be written. -/
theorem archived_of_not_holdsSecrets (hplatform : platform.Correct)
    (hsecrets : SecretsDecrypt source database) (password : JsString) (random : Randomness)
    (hwebDav : readNormalizedWebDav platform database = .ok webDav)
    (hholds : holdsSecrets source database webDav = false) :
    Archived platform source password random database (writeChangedWebDav database webDav) webDav := by
  have hempty : database.credentials.entries = [] := by
    simp only [holdsSecrets, Bool.or_eq_false_iff] at hholds
    simpa using hholds.1
  have hnone : ∀ id, database.credentials.get? id = none := by
    intro id
    rw [JsMap.get?_eq_none_iff, JsMap.keys, hempty]
    simp
  rcases readNormalizedWebDav_eq_ok hwebDav with ⟨-, rfl⟩ |
    ⟨configuration, normalized, hread, hnormalized, rfl⟩
  · exact ⟨fun id => by simp [writeChangedWebDav, hnone], rfl, by simp [hholds], fun _ => rfl,
      fun _ _ _ => rfl, rfl⟩
  · have hnormal := isNormalized_of_eq_ok hplatform hnormalized
    have hpassword : passwordOf source normalized = none := by
      simpa [holdsSecrets, hempty] using hholds
    have hsome := isSome_passwordOf hsecrets hread hnormal
    simp only [hpassword, Option.isSome_none, Bool.false_eq, Bool.or_eq_false_iff] at hsome
    have harchived : (normalized.configuration.encryptedPassword).filter (!·.isEmpty) =
        (passwordOf source normalized).map fun secret => wrapSecret platform secret
          (platform.deriveSecretKey password random.salt) (random.iv webDavLocator) webDavLocator := by
      rw [hpassword]
      exact Option.isNone_iff_eq_none.mp (Option.isSome_eq_false_iff.mp hsome.1)
    cases hchanged : normalized.changed with
    | false =>
        have hwrite : writeChangedWebDav database (some normalized) = database := by
          simp [writeChangedWebDav, Option.filter, hchanged]
        rw [hwrite]
        refine ⟨fun id => by simp [hnone], ⟨_, ?_, harchived⟩, by simp [hholds], fun _ => rfl,
          fun _ _ _ => rfl, rfl⟩
        rw [hread, hnormal.unchanged hchanged]
    | true =>
        have hwrite : writeChangedWebDav database (some normalized) =
            writeWebDav database normalized.configuration := by
          simp [writeChangedWebDav, Option.filter, hchanged]
        rw [hwrite]
        refine ⟨fun id => by simp [writeWebDav, Database.writeMetadata, hnone],
          ⟨_, readWebDav_writeWebDav _ _, harchived⟩, by simp [hholds], fun _ => ?_,
          fun key hkey _ => ?_, rfl⟩
        · exact get?_writeMetadata_of_ne _ _ webDavKey_ne_manifestKey.symm
        · exact get?_writeMetadata_of_ne _ _ hkey

theorem export_eq_ok (hplatform : platform.Correct) (hsource : source.Works)
    (hsecrets : SecretsDecrypt source database) (password : JsString) (random : Randomness)
    (hwebDav : readNormalizedWebDav platform database = .ok webDav) :
    ∃ exported, preparePortableExportDatabase platform database password (some source) random =
        .ok exported ∧
      Archived platform source password random database exported webDav := by
  have hhasSecrets := hasSecrets_eq hplatform hsecrets hwebDav
  unfold preparePortableExportDatabase
  rw [hwebDav]
  simp only [bind, Except.bind, hhasSecrets]
  cases hholds : holdsSecrets source database webDav with
  | false =>
      exact ⟨_, rfl, archived_of_not_holdsSecrets hplatform hsecrets password random hwebDav hholds⟩
  | true =>
      obtain ⟨wrapped, hwrapped, hmetadata, hrest, hcredentials⟩ :=
        @rewriteCredentials_eq_ok σ (fun id encrypted => do
          return wrapSecret platform (← decryptVault source encrypted id)
            (platform.deriveSecretKey password random.salt)
            (random.iv (credentialLocator id)) (credentialLocator id))
          (archivedCredential platform source (platform.deriveSecretKey password random.salt) random)
          database (fun id encrypted hget => by
            rw [decryptVault_eq_ok (hsecrets.credentials id encrypted hget)]
            rfl)
      obtain ⟨written, hwritten, ⟨hconfiguration, hsame, hother, hkept⟩⟩ :=
        wrapWebDav_eq_ok hplatform (platform.deriveSecretKey password random.salt) random
          hsecrets hwebDav hmetadata
      have hvault : requireVault (some source) = .ok source := by simp [requireVault, hsource.secure]
      simp only [bind, Except.bind] at hwrapped
      simp only [hvault, hwrapped, hwritten]
      refine ⟨_, rfl, ⟨fun id => ?_, ?_, fun _ => by simp, by simp [hholds], fun key hkey hmanifest => ?_, ?_⟩⟩
      · rw [Database.writeMetadata, hsame, hcredentials]
      · cases webDav with
        | none =>
            rw [WebDavArchived, ← hconfiguration]
            exact get?_writeMetadata_of_ne _ _ webDavKey_ne_manifestKey
        | some webDav =>
            obtain ⟨encryptedPassword, hread, hpassword⟩ := hconfiguration
            refine ⟨encryptedPassword, ?_, hpassword⟩
            rw [← hread]
            exact readWebDav_congr (by simp [webDavKey_ne_manifestKey])
      · rw [← hkept key hkey]
        exact get?_writeMetadata_of_ne _ _ hmanifest
      · rw [Database.writeMetadata, hother, hrest]

/-! ## The import -/

theorem isWellFormed_passwordOf (hplatform : platform.Correct) (hsource : source.Works)
    (hnormalized : normalizePortableWebDav platform configuration = .ok webDav)
    (h : passwordOf source webDav = some secret) : isWellFormed secret = true := by
  unfold passwordOf at h
  split at h
  · exact hsource.isWellFormed_decrypt _ _ h
  · exact ((isNormalized_of_eq_ok hplatform hnormalized).embedded _ h).2

theorem webDavPassword_eq (hnormal : IsNormalized platform configuration webDav)
    (hnormalized : normalizePortableWebDav platform configuration = .ok webDav) :
    webDavPassword platform source configuration = passwordOf source webDav := by
  have hsame : webDav.configuration.password? = configuration.password? := by
    rw [PortableWebDavConfiguration.password?, hnormal.encrypted,
      ← PortableWebDavConfiguration.password?]
  rw [webDavPassword, passwordOf, hsame, hnormalized]
  rfl

variable {target : Vault}

/-- A configuration has arrived with its address and its password. -/
theorem webDavCarried_of_read {source : Vault} {imported : Database σ}
    {configuration : PortableWebDavConfiguration} {webDav : NormalizedPortableWebDav}
    {encryptedPassword : Option JsString} (hread : readWebDav database = some configuration)
    (hnormal : IsNormalized platform configuration webDav)
    (hnormalized : normalizePortableWebDav platform configuration = .ok webDav)
    (himported : readWebDav imported =
      some { webDav.configuration with encryptedPassword := encryptedPassword })
    (hpassword : (encryptedPassword.filter (!·.isEmpty)).bind target.decryptString =
      passwordOf source webDav) : WebDavCarried platform source target database imported := by
  unfold WebDavCarried
  rw [hread]
  refine ⟨webDav, _, hnormalized, himported, rfl, rfl, ?_⟩
  rw [webDavPassword_eq hnormal hnormalized, ← hpassword, webDavPassword,
    PortableWebDavConfiguration.password?, hnormal.again]
  cases encryptedPassword.filter (!·.isEmpty) <;> rfl

theorem readNormalizedWebDav_of_read (hread : readWebDav database = some configuration)
    (hnormalized : normalizePortableWebDav platform configuration = .ok webDav) :
    readNormalizedWebDav platform database = .ok (some webDav) := by
  rw [readNormalizedWebDav, hread]
  change (normalizePortableWebDav platform configuration >>= _) = _
  rw [hnormalized]
  rfl

/-- What is read of the configuration of an archive. -/
theorem readNormalizedWebDav_of_archived (hplatform : platform.Correct) {source : Vault}
    {exported : Database σ} {password : JsString} {random : Randomness}
    {webDav : Option NormalizedPortableWebDav}
    (hwebDav : readNormalizedWebDav platform database = .ok webDav)
    (harchived : Archived platform source password random database exported webDav) :
    ∃ read, readNormalizedWebDav platform exported = .ok read ∧
      read.any (·.embeddedPassword.isSome) = false ∧ read.any (·.changed) = false ∧
      read.any (·.configuration.password?.isSome) =
        webDav.any (fun w => (passwordOf source w).isSome) ∧
      ∀ w, webDav = some w → ∃ encryptedPassword,
        read = some ⟨{ w.configuration with encryptedPassword := encryptedPassword }, none, false⟩ ∧
        readWebDav exported = some { w.configuration with encryptedPassword := encryptedPassword } ∧
        encryptedPassword.filter (!·.isEmpty) = (passwordOf source w).map fun secret =>
          wrapSecret platform secret (platform.deriveSecretKey password random.salt)
            (random.iv webDavLocator) webDavLocator := by
  have hconfiguration := harchived.configuration
  rcases readNormalizedWebDav_eq_ok hwebDav with ⟨hread, rfl⟩ |
    ⟨configuration, normalized, hread, hnormalized, rfl⟩
  · have hnone : readWebDav exported = none := by
      rw [← hread]
      refine readWebDav_congr ?_
      rw [Database.metadataValue, hconfiguration, Database.metadataValue]
    exact ⟨none, by rw [readNormalizedWebDav, hnone], rfl, rfl, rfl, by simp⟩
  · obtain ⟨encryptedPassword, hexported, hpassword⟩ := hconfiguration
    have hagain := (isNormalized_of_eq_ok hplatform hnormalized).again encryptedPassword
    refine ⟨_, readNormalizedWebDav_of_read hexported hagain, rfl, rfl, ?_, ?_⟩
    · simp only [Option.any_some, PortableWebDavConfiguration.password?, hpassword,
        Option.isSome_map]
    · intro w hw
      injection hw with hw
      subst hw
      exact ⟨encryptedPassword, rfl, hexported, hpassword⟩

/-- The configuration is written with its password under the vault. -/
theorem rewrapWebDav_eq_ok (hplatform : platform.Correct) {source : Vault}
    (hsource : source.Works) (htarget : target.Works) {exported rewrapped : Database σ}
    {password : JsString} {random : Randomness} (random' : Randomness)
    {webDav read : Option NormalizedPortableWebDav}
    (hwebDav : readNormalizedWebDav platform database = .ok webDav)
    (harchived : Archived platform source password random database exported webDav)
    (hread : readNormalizedWebDav platform exported = .ok read)
    (hmetadata : rewrapped.metadata = exported.metadata) :
    ∃ written, rewrapWebDav platform target (platform.deriveSecretKey password random.salt) random'
        rewrapped read = .ok written ∧
      written.credentials = rewrapped.credentials ∧ written.rest = rewrapped.rest ∧
      (∀ key, key ≠ webDavKey → written.metadata.get? key = exported.metadata.get? key) ∧
      ∀ imported : Database σ,
        imported.metadata.get? webDavKey = written.metadata.get? webDavKey →
        WebDavCarried platform source target database imported := by
  obtain ⟨read', hread', -, -, -, hsome⟩ :=
    readNormalizedWebDav_of_archived hplatform hwebDav harchived
  rw [hread] at hread'
  injection hread' with hread'
  subst hread'
  rcases readNormalizedWebDav_eq_ok hwebDav with ⟨hnone, rfl⟩ |
    ⟨configuration, normalized, hconfiguration, hnormalized, rfl⟩
  · have hreadNone : read = none := by
      rcases readNormalizedWebDav_eq_ok hread with ⟨-, rfl⟩ | ⟨configuration, _, hexported, -, -⟩
      · rfl
      · have : readWebDav exported = readWebDav database := readWebDav_congr (by
          rw [Database.metadataValue, harchived.configuration, Database.metadataValue])
        rw [this, hnone] at hexported
        cases hexported
    subst hreadNone
    refine ⟨rewrapped, rfl, rfl, rfl, fun _ _ => by rw [hmetadata], fun imported himported => ?_⟩
    unfold WebDavCarried
    rw [hnone]
    simp only
    rw [himported, hmetadata]
    exact harchived.configuration
  · obtain ⟨encryptedPassword, rfl, hexported, hpassword⟩ := hsome normalized rfl
    have himportedPassword : importedPassword platform (platform.deriveSecretKey password random.salt)
        ⟨{ normalized.configuration with encryptedPassword := encryptedPassword }, none, false⟩ =
          .ok (passwordOf source normalized) := by
      unfold importedPassword
      simp only [PortableWebDavConfiguration.password?, hpassword]
      cases hsecret : passwordOf source normalized with
      | none => rfl
      | some secret =>
          have hunwrap := unwrapSecret_wrapSecret hplatform
            (platform.deriveSecretKey password random.salt) webDavLocator
            (isWellFormed_passwordOf hplatform hsource hnormalized hsecret)
            (random.length_iv webDavLocator)
          simp only [Option.map_some, hunwrap]
          rfl
    have hwritten : rewrapWebDav platform target (platform.deriveSecretKey password random.salt) random'
        rewrapped (some ⟨{ normalized.configuration with encryptedPassword := encryptedPassword },
          none, false⟩) = .ok (writeWebDav rewrapped { normalized.configuration with
            encryptedPassword := (passwordOf source normalized).map
              (target.encryptString (random'.seed webDavLocator)) }) := by
      rw [rewrapWebDav, himportedPassword]
      rfl
    refine ⟨_, hwritten, rfl, rfl, fun key hkey => ?_, fun imported himported => ?_⟩
    · rw [writeWebDav, get?_writeMetadata_of_ne _ _ hkey, hmetadata]
    · have hread' : readWebDav imported = some { normalized.configuration with
          encryptedPassword := (passwordOf source normalized).map
            (target.encryptString (random'.seed webDavLocator)) } := by
        rw [← readWebDav_writeWebDav rewrapped]
        refine readWebDav_congr ?_
        rw [Database.metadataValue, himported, Database.metadataValue]
      refine webDavCarried_of_read hconfiguration (isNormalized_of_eq_ok hplatform hnormalized)
        hnormalized hread' ?_
      · cases hsecret : passwordOf source normalized with
        | none => rfl
        | some secret =>
            have hwell := isWellFormed_passwordOf hplatform hsource hnormalized hsecret
            simp [Option.filter, htarget.encrypt_ne_nil, htarget.decrypt_encrypt _ _ hwell]

/-- A credential arrives as it was. -/
theorem decryptString_rewrapped (hsource : source.Works) (htarget : target.Works)
    (hsecrets : SecretsDecrypt source database) {id : JsString}
    (h : database.credentials.get? id = some encrypted) (seed : Nat) :
    target.decryptString (target.encryptString seed (plaintextOf source encrypted)) =
      source.decryptString encrypted := by
  obtain ⟨plaintext, hplaintext⟩ := Option.isSome_iff_exists.mp (hsecrets.credentials id encrypted h)
  rw [plaintextOf, hplaintext, Option.getD_some,
    htarget.decrypt_encrypt _ _ (hsource.isWellFormed_decrypt _ _ hplaintext)]

/-- What an import makes of an archive. -/
theorem import_eq_ok (hplatform : platform.Correct) (hsource : source.Works)
    (htarget : target.Works) (hsecrets : SecretsDecrypt source database) (random' : Randomness)
    (hwebDav : readNormalizedWebDav platform database = .ok webDav)
    (harchived : Archived platform source password random database exported webDav) :
    ∃ imported, preparePortableImportedDatabase platform exported password (some target) random' =
        .ok imported ∧
      (∀ id, (imported.credentials.get? id).map target.decryptString =
        (database.credentials.get? id).map source.decryptString) ∧
      WebDavCarried platform source target database imported ∧
      (∀ key, key ≠ webDavKey → key ≠ manifestKey →
        imported.metadata.get? key = database.metadata.get? key) ∧
      ((imported.metadata.get? manifestKey).isSome = true →
        imported.metadata.get? manifestKey = database.metadata.get? manifestKey) ∧
      imported.rest = database.rest := by
  obtain ⟨read, hread, hembedded, hchanged, hwrapped, hsome⟩ :=
    readNormalizedWebDav_of_archived hplatform hwebDav harchived
  have hwrappedSecrets : (!exported.credentials.entries.isEmpty ||
      read.any (·.configuration.password?.isSome)) = holdsSecrets source database webDav := by
    rw [isEmpty_of_get? harchived.credentials, hwrapped]
    rfl
  unfold preparePortableImportedDatabase
  rw [hread]
  simp only [bind, Except.bind, hwrappedSecrets, hembedded, hchanged, Bool.or_false]
  cases hholds : holdsSecrets source database webDav with
  | false =>
      have hempty : database.credentials.entries = [] := by
        simp only [holdsSecrets, Bool.or_eq_false_iff] at hholds
        simpa using hholds.1
      have hnone : ∀ id, database.credentials.get? id = none := by
        intro id
        rw [JsMap.get?_eq_none_iff, JsMap.keys, hempty]
        simp
      refine ⟨exported, rfl, fun id => by simp [harchived.credentials, hnone], ?_, harchived.metadata,
        fun _ => harchived.noManifest hholds, harchived.rest⟩
      rcases readNormalizedWebDav_eq_ok hwebDav with ⟨hread', rfl⟩ |
        ⟨configuration, normalized, hread', hnormalized, rfl⟩
      · unfold WebDavCarried
        rw [hread']
        exact harchived.configuration
      · obtain ⟨encryptedPassword, -, hexported, hpassword⟩ := hsome normalized rfl
        have hsecret : passwordOf source normalized = none := by
          simpa [holdsSecrets, hempty] using hholds
        refine webDavCarried_of_read hread' (isNormalized_of_eq_ok hplatform hnormalized)
          hnormalized hexported ?_
        rw [hpassword, hsecret]
        rfl
  | true =>
      have hvault : requireVault (some target) = .ok target := by simp [requireVault, htarget.secure]
      have hmanifest := readManifest_of_value hplatform (harchived.manifest hholds) random.length_salt
      obtain ⟨rewrapped, hrewrapped, hmetadata, hrest, hcredentials⟩ :=
        @rewriteCredentials_eq_ok σ (fun id encrypted => do
          return target.encryptString (random'.seed (credentialLocator id))
            (← unwrapSecret platform encrypted (platform.deriveSecretKey password random.salt)
              (credentialLocator id)))
          (fun id _ => target.encryptString (random'.seed (credentialLocator id))
            (plaintextOf source ((database.credentials.get? id).getD []))) exported (by
          intro id value hvalue
          rw [harchived.credentials] at hvalue
          obtain ⟨encrypted, hencrypted, rfl⟩ := Option.map_eq_some_iff.mp hvalue
          obtain ⟨plaintext, hplaintext⟩ :=
            Option.isSome_iff_exists.mp (hsecrets.credentials id encrypted hencrypted)
          have hwellFormed : isWellFormed (plaintextOf source encrypted) = true := by
            rw [plaintextOf, hplaintext]
            exact hsource.isWellFormed_decrypt _ _ hplaintext
          have hunwrap := unwrapSecret_wrapSecret hplatform
            (platform.deriveSecretKey password random.salt) (credentialLocator id) hwellFormed
            (random.length_iv (credentialLocator id))
          rw [archivedCredential, hunwrap, hencrypted]
          rfl)
      obtain ⟨written, hwritten, hsame, hother, hkept, hcarried⟩ :=
        rewrapWebDav_eq_ok hplatform hsource htarget random' hwebDav harchived hread
          hmetadata
      simp only [bind, Except.bind] at hrewrapped
      simp only [hvault, hmanifest, if_true, hrewrapped, hwritten]
      refine ⟨_, rfl, fun id => ?_, hcarried _ ?_, fun key hkey hkey' => ?_, fun hsome => ?_, ?_⟩
      · rw [Database.deleteMetadata, hsame, hcredentials, harchived.credentials]
        cases hencrypted : database.credentials.get? id with
        | none => rfl
        | some encrypted =>
            simp only [Option.map_some, Option.getD_some,
              decryptString_rewrapped hsource htarget hsecrets hencrypted]
      · exact get?_deleteMetadata_of_ne _ webDavKey_ne_manifestKey
      · rw [get?_deleteMetadata_of_ne _ hkey', hkept key hkey, harchived.metadata key hkey hkey']
      · simp [Database.deleteMetadata] at hsome
      · rw [Database.deleteMetadata, hother, hrest, harchived.rest]

/-! ## From one device to another -/

/-- No ciphertext of one vault means the same to the other. -/
def Vault.Foreign (source target : Vault) : Prop :=
  ∀ text plaintext, source.decryptString text = some plaintext →
    target.decryptString text ≠ some plaintext

theorem pendingRotations_congr {imported : Database σ}
    (h : imported.metadata.get? rotationJournalKey = database.metadata.get? rotationJournalKey) :
    pendingRotations imported = pendingRotations database := by
  rw [pendingRotations, Database.metadataValue, h, pendingRotations, Database.metadataValue]

/-- The journal of rotations passes both ways untouched: its records are lost. -/
theorem entries_eq_nil_of_carried (hforeign : source.Foreign target)
    (hsecrets : SecretsDecrypt source database)
    (hmetadata : imported.metadata.get? rotationJournalKey = database.metadata.get? rotationJournalKey)
    (hcarried : Carried platform source target database imported) :
    ∀ journal, pendingRotations database = some journal → journal.entries = [] := by
  intro journal hjournal
  obtain ⟨arrived, harrived, hsame⟩ := hcarried.rotations journal hjournal
  rw [pendingRotations_congr hmetadata, hjournal] at harrived
  injection harrived with harrived
  subst harrived
  by_contra hne
  obtain ⟨entry, rest, hentries⟩ := List.exists_cons_of_ne_nil hne
  have hmem : entry ∈ journal.entries := by simp [hentries]
  obtain ⟨plaintext, hplaintext⟩ :=
    Option.isSome_iff_exists.mp (hsecrets.rotations journal hjournal entry hmem)
  have hget : journal.get? entry.1 = some entry.2 := JsMap.get?_eq_some_iff.mpr hmem
  have := hsame entry.1
  rw [hget, Option.map_some, Option.map_some, hplaintext] at this
  exact hforeign _ _ hplaintext (Option.some.inj this)

def bytesOf (text : JsString) : Bytes :=
  text.flatMap fun c => [UInt8.ofNat (c.toNat / 256), UInt8.ofNat (c.toNat % 256)]

def textOf : Bytes → JsString
  | a :: b :: rest => UInt16.ofNat (a.toNat * 256 + b.toNat) :: textOf rest
  | _ => []

theorem textOf_bytesOf (text : JsString) : textOf (bytesOf text) = text := by
  induction text with
  | nil => rfl
  | cons c text ih =>
      have hc : c.toNat < 65536 := c.toNat_lt
      have hunit : UInt16.ofNat ((UInt8.ofNat (c.toNat / 256)).toNat * 256 +
          (UInt8.ofNat (c.toNat % 256)).toNat) = c := by
        rw [UInt8.toNat_ofNat', UInt8.toNat_ofNat']
        have : c.toNat / 256 % 2 ^ 8 * 256 + c.toNat % 256 % 2 ^ 8 = c.toNat := by omega
        rw [this, UInt16.ofNat_toNat]
      simp only [bytesOf, List.flatMap_cons, List.cons_append, List.nil_append, textOf, hunit]
      exact congrArg _ ih

/-- Everything is written out in the clear. -/
def plainPlatform : Platform where
  deriveSecretKey _ salt := salt
  encipher _ _ _ plaintext := ([0], bytesOf plaintext)
  decipher _ _ _ sealed := if isWellFormed (textOf sealed.2) then some (textOf sealed.2) else none
  base64url bytes := bytes.map fun b => 0x100 + b.toUInt16
  fromBase64url text := text.map fun c => (c - 0x100).toUInt8
  parseUrl text := some ⟨[], [], text⟩
  decodeURIComponent text := if isWellFormed text then some text else none

theorem plainPlatform_correct : plainPlatform.Correct where
  decipher_encipher := by
    intro key iv additional plaintext hplaintext
    simp [plainPlatform, textOf_bytesOf, hplaintext]
  tag_ne_nil := by simp [plainPlatform]
  fromBase64url_base64url := by
    intro bytes
    have hunit : ∀ b : UInt8, (0x100 + b.toUInt16 - 0x100).toUInt8 = b := by
      intro b
      rw [UInt16.add_comm, UInt16.add_sub_cancel, UInt8.toUInt8_toUInt16]
    simp only [plainPlatform, List.map_map, Function.comp_def, hunit, List.map_id']
  base64url_ne_nil := by simp [plainPlatform]
  dot_notMem_base64url := by
    intro bytes hmem
    obtain ⟨b, -, hb⟩ := List.mem_map.mp hmem
    have hlt : b.toNat < 256 := b.toNat_lt
    have := congrArg UInt16.toNat hb
    simp at this
    omega
  parse_withoutCredentials := by
    intro text url hurl
    injection hurl with hurl
    subst hurl
    rfl
  isWellFormed_decode := by
    intro text decoded hdecoded
    simp only [plainPlatform] at hdecoded
    split at hdecoded
    · injection hdecoded with hdecoded
      rwa [← hdecoded]
    · cases hdecoded

/-- A vault that marks what it has encrypted. -/
def markingVault (mark : UInt16) : Vault where
  secure := true
  encryptString _ plaintext := mark :: plaintext
  decryptString
    | c :: plaintext => if c = mark ∧ isWellFormed plaintext = true then some plaintext else none
    | [] => none

theorem markingVault_works (mark : UInt16) : (markingVault mark).Works where
  secure := rfl
  decrypt_encrypt := by
    intro seed plaintext hplaintext
    simp [markingVault, hplaintext]
  encrypt_ne_nil := by simp [markingVault]
  isWellFormed_decrypt := by
    intro text plaintext htext
    cases text with
    | nil => cases htext
    | cons c text =>
        simp only [markingVault] at htext
        split at htext
        · rename_i hmark
          injection htext with htext
          rw [← htext]
          exact hmark.2
        · cases htext

theorem markingVault_foreign (h : mark ≠ mark') :
    (markingVault mark).Foreign (markingVault mark') := by
  intro text plaintext htext
  cases text with
  | nil => cases htext
  | cons c text =>
      have hmark : c = mark := by
        simp only [markingVault] at htext
        split at htext
        · rename_i hmark
          exact hmark.1
        · cases htext
      simp [markingVault, hmark, h]

def sampleRandomness : Randomness where
  salt := List.replicate 16 7
  iv _ := List.replicate 12 9
  seed _ := 0
  length_salt := rfl
  length_iv _ := rfl

/-- One credential and a WebDAV server. -/
def sampleDatabase : Database Unit where
  credentials := (∅ : JsMap JsString JsString).set (js "c1") (0x61 :: js "token")
  metadata := (∅ : JsMap JsString (Option Json)).set webDavKey
    (some (PortableWebDavConfiguration.toJson
      ⟨js "https://dav.example.com/", js "me", some (0x61 :: js "secret")⟩))
  rest := ()

theorem sampleDatabase_secretsDecrypt : SecretsDecrypt (markingVault 0x61) sampleDatabase where
  credentials := by
    intro id encrypted h
    have hmem := JsMap.get?_eq_some_iff.mp h
    rw [show sampleDatabase.credentials.entries = [(js "c1", 0x61 :: js "token")] from rfl] at hmem
    injection List.mem_singleton.mp hmem with _ hencrypted
    subst hencrypted
    decide
  webDav := by
    intro configuration encrypted hread hpassword
    rw [show readWebDav sampleDatabase = some ⟨js "https://dav.example.com/", js "me",
      some (0x61 :: js "secret")⟩ from readWebDav_of_value rfl] at hread
    injection hread with hread
    subst hread
    injection hpassword with hpassword
    subst hpassword
    decide
  rotations := by
    intro journal hjournal
    cases hjournal

/-- The credential has been rotated, which the journal alone knows. -/
def rotatingDatabase : Database Unit :=
  sampleDatabase.writeMetadata rotationJournalKey (Credentials.journalToJson
    ((∅ : CredentialRotationJournal).set (js "chatgpt-oauth:a1")
      { accountId := js "a1"
        credentialType := .chatgptOauth
        sourceSha256 := List.replicate 43 0x41
        rotatedSha256 := List.replicate 43 0x42
        encryptedRotated := 0x61 :: js "next token"
        createdAt := ⟨.ofNat 0, Store.isInvalidTimestamp_zero⟩ }))

/-- What the target can read of the first pending record, after the source has. -/
def rotatedSecrets (database : Database Unit) : Option (Option JsString × Option JsString) := do
  let exported ← (preparePortableExportDatabase plainPlatform database (js "password")
    (some (markingVault 0x61)) sampleRandomness).toOption
  let imported ← (preparePortableImportedDatabase plainPlatform exported (js "password")
    (some (markingVault 0x62)) sampleRandomness).toOption
  let journal ← pendingRotations database
  let record ← journal.get? (js "chatgpt-oauth:a1")
  let arrived ← (← pendingRotations imported).get? (js "chatgpt-oauth:a1")
  return ((markingVault 0x61).decryptString record.encryptedRotated,
    (markingVault 0x62).decryptString arrived.encryptedRotated)

end StonePlus.Backup
