import DnsManager.Api.Providers
import DnsManager.Core.Json
import DnsManager.ForStd.Except
import DnsManager.Spec.Sample

/-!
# Which stored bindings the worker can use

`create_provider` encrypts the text of any JSON value; the worker decrypts it and reads a map
of strings. The encryption is undone under the same key; the reading is not always possible.

## Key results
- `decrypt_encrypt`: `decrypt` inverts `encrypt` under the same key.
- `createProvider_usable_iff`: the worker has an adapter for a stored binding and decrypts its
  credentials to the submitted ones exactly when these are a JSON object of strings.
-/

namespace DnsManager

section Crypto

variable [CryptoLib]

/-- Decryption inverts encryption under the same key and nonce, and base64 is a code. -/
class LawfulCryptoLib : Prop where
  aesGcmDecrypt_of_encrypt : ∀ key nonce plaintext ciphertext,
    CryptoLib.aesGcmEncrypt key nonce plaintext = some ciphertext →
      CryptoLib.aesGcmDecrypt key nonce ciphertext = some plaintext
  base64Decode_encode : ∀ data, CryptoLib.base64Decode (CryptoLib.base64Encode data) = .ok data

variable [LawfulCryptoLib]

/-- The nonce in front is found again. -/
theorem aesGcmDecrypt_aesGcmEncrypt {key : CryptoKey} {nonceBytes plaintext data : List UInt8}
    (hnonce : nonceBytes.length = nonceLen)
    (h : aesGcmEncrypt key nonceBytes plaintext = .ok data) :
    aesGcmDecrypt key data = .ok plaintext := by
  unfold aesGcmEncrypt at h
  split at h
  · next ciphertext hc =>
    cases h
    have hlen : ¬ (nonceBytes ++ ciphertext).length < nonceLen := by
      rw [List.length_append]
      omega
    -- the nonce is cut off where it was put in front
    have hsplit : (nonceBytes ++ ciphertext).splitAt nonceLen = (nonceBytes, ciphertext) := by
      rw [List.splitAt_eq, ← hnonce, List.take_left, List.drop_left]
    simp only [aesGcmDecrypt, if_neg hlen, hsplit,
      LawfulCryptoLib.aesGcmDecrypt_of_encrypt _ _ _ _ hc]
  · cases h

theorem base64Decode_base64Encode (data : List UInt8) :
    base64Decode (CryptoLib.base64Encode data) = .ok data := by
  rw [base64Decode, LawfulCryptoLib.base64Decode_encode]
  rfl

omit [CryptoLib] [LawfulCryptoLib] in
/-- The bytes of a key are that key again. -/
theorem CryptoKey.ofBytes_bytes (key : CryptoKey) : CryptoKey.ofBytes key.bytes = .ok key :=
  dif_pos key.length_eq

/-- `decrypt` inverts `encrypt` under the same key, whatever data key and nonces it drew. -/
theorem decrypt_encrypt {provider : KeyProvider} {dek : CryptoKey}
    {blobNonce dekNonce plaintext : List UInt8} {blob : EncryptedBlob}
    (hblob : blobNonce.length = nonceLen) (hdek : dekNonce.length = nonceLen)
    (h : encrypt provider dek blobNonce dekNonce plaintext = .ok blob) :
    decrypt provider blob = .ok plaintext := by
  unfold encrypt at h
  obtain ⟨kek, hkek, h⟩ := Except.bind_eq_ok.mp h
  obtain ⟨blobRaw, hblobRaw, h⟩ := Except.bind_eq_ok.mp h
  obtain ⟨dekRaw, hdekRaw, h⟩ := Except.bind_eq_ok.mp h
  cases h
  -- the same key unwraps the data key, which opens the blob
  refine Except.bind_eq_ok.mpr ⟨kek, hkek, ?_⟩
  refine Except.bind_eq_ok.mpr ⟨dekRaw, base64Decode_base64Encode _, ?_⟩
  refine Except.bind_eq_ok.mpr ⟨dek.bytes, aesGcmDecrypt_aesGcmEncrypt hdek hdekRaw, ?_⟩
  refine Except.bind_eq_ok.mpr ⟨dek, dek.ofBytes_bytes, ?_⟩
  refine Except.bind_eq_ok.mpr ⟨blobRaw, base64Decode_base64Encode _, ?_⟩
  exact aesGcmDecrypt_aesGcmEncrypt hblob hblobRaw

end Crypto

section Binding

variable [CryptoLib] [SerdeJson]

/-- The row of an accepted request carries it, encrypted. -/
theorem bindingRow_ok {keyProvider : KeyProvider} {draws : ProviderDraws}
    {body : CreateProviderRequest} {row : ProviderBinding}
    (h : bindingRow keyProvider draws body = .ok row) :
    row.id = draws.id ∧ row.providerType = body.providerType ∧
      ∃ credsBytes, SerdeJson.valueToVec body.credentials = .ok credsBytes ∧
        encrypt keyProvider draws.dek draws.blobNonce draws.dekNonce credsBytes =
          .ok ⟨row.credentialsBlob, row.credentialsDek⟩ := by
  unfold bindingRow at h
  obtain ⟨credsBytes, hbytes, h⟩ := Except.bind_eq_ok.mp h
  obtain ⟨encrypted, hencrypted, h⟩ := Except.bind_eq_ok.mp h
  cases h
  exact ⟨rfl, rfl, credsBytes, Except.mapError_eq_ok.mp hbytes,
    Except.mapError_eq_ok.mp hencrypted⟩

/-- An accepted request has a registered type and has left its row in the database. -/
theorem createProvider_row {registeredProviders : List String} {keyProvider : KeyProvider}
    {db db' : Database} {draws : ProviderDraws} {body : CreateProviderRequest}
    (h : createProvider registeredProviders keyProvider db draws body = .ok db') :
    body.providerType ∈ registeredProviders ∧
      ∃ row, bindingRow keyProvider draws body = .ok row ∧
        db'.bindings.find? draws.id = some row := by
  unfold createProvider at h
  obtain ⟨_, hvalid, h⟩ := Except.bind_eq_ok.mp h
  split at h
  · cases h
  obtain ⟨row, hrow, h⟩ := Except.bind_eq_ok.mp h
  have hinsert := (Database.insertBinding_ok (Except.mapError_eq_ok.mp h)).1
  refine ⟨?_, row, hrow, Table.find?_eq_some.mpr
    ⟨(Table.mem_insert hinsert).mpr (.inr rfl), (bindingRow_ok hrow).1⟩⟩
  -- the last guard of the validation is that the type is registered
  unfold validateProviderRequest at hvalid
  split at hvalid
  · cases hvalid
  split at hvalid
  · cases hvalid
  · next hmem => exact not_not.mp hmem

variable [LawfulCryptoLib] [JsonValues] (worker : ReconcileWorker)

/-- What the worker reads of an encrypted value. -/
theorem decryptCredentials_iff {value : SerdeJson.Value} {credsBytes : List UInt8}
    {draws : ProviderDraws} {blob : EncryptedBlob}
    (hbytes : SerdeJson.valueToVec value = .ok credsBytes)
    (hblob : draws.blobNonce.length = nonceLen) (hdek : draws.dekNonce.length = nonceLen)
    (hencrypt : encrypt worker.keyProvider draws.dek draws.blobNonce draws.dekNonce credsBytes =
      .ok blob) :
    (∃ creds, worker.decryptCredentials blob.blob blob.dek = .ok creds ∧
      ∀ key, (creds.entries.lookup key).map Json.string = (JsonValues.json value).member? key) ↔
      (JsonValues.json value).IsStringMap := by
  have hdecrypt := decrypt_encrypt hblob hdek hencrypt
  -- the decryption gives back the bytes, so only serde decides
  have hread : worker.decryptCredentials blob.blob blob.dek =
      (SerdeJson.credentialsFromSlice credsBytes).mapError
        fun e => s!"credentials JSON parse failed: {e}" := by
    unfold ReconcileWorker.decryptCredentials
    rw [hdecrypt]
    rfl
  rw [hread]
  constructor
  · rintro ⟨creds, hcreds, -⟩
    by_contra hnot
    obtain ⟨e, he⟩ := JsonValues.credentialsFromSlice_error value credsBytes hbytes hnot
    rw [he] at hcreds
    cases hcreds
  · intro hmap
    obtain ⟨creds, hcreds, hlookup⟩ :=
      JsonValues.credentialsFromSlice_ok value credsBytes hbytes hmap
    exact ⟨creds, Except.mapError_eq_ok.mpr hcreds, hlookup⟩

/-- The worker has an adapter for the stored binding `id` and decrypts its credentials to the
    members of `credentials`. -/
def ReconcileWorker.UsableAs (db : Database) (id : String) (credentials : SerdeJson.Value) :
    Prop :=
  ∃ row, db.bindings.find? id = some row ∧ row.providerType ∈ worker.adapters ∧
    ∃ creds, worker.decryptCredentials row.credentialsBlob row.credentialsDek = .ok creds ∧
      ∀ key, (creds.entries.lookup key).map Json.string = (JsonValues.json credentials).member? key

/-- A worker with the adapters the API has registered and its key can use a stored binding as
    submitted exactly when the submitted credentials are a JSON object whose members are
    strings. -/
theorem createProvider_usable_iff {db db' : Database} {draws : ProviderDraws}
    {body : CreateProviderRequest}
    (hcreate : createProvider worker.adapters worker.keyProvider db draws body = .ok db')
    (hblob : draws.blobNonce.length = nonceLen) (hdek : draws.dekNonce.length = nonceLen) :
    worker.UsableAs db' draws.id body.credentials ↔
      (JsonValues.json body.credentials).IsStringMap := by
  obtain ⟨htype, row, hrow, hfind⟩ := createProvider_row hcreate
  obtain ⟨-, hrowType, credsBytes, hbytes, hencrypt⟩ := bindingRow_ok hrow
  rw [← decryptCredentials_iff worker hbytes hblob hdek hencrypt]
  constructor
  · rintro ⟨row', hfind', -, hcreds⟩
    obtain rfl := Option.some.inj (hfind.symm.trans hfind')
    exact hcreds
  · intro hcreds
    exact ⟨row, hfind, hrowType ▸ htype, hcreds⟩

end Binding

section Sample

open Sample (bytes credentialsBlob credentialsBytes credentialsDek credentialsText dek kek
  sealedCredentials sealedDek twoBindings worker)

/-- Credentials with a number. -/
def portText : String := "\x7b\"port\":5353\x7d"

def portBytes : List UInt8 := portText.toList.map fun c => c.toNat.toUInt8

/-- `portText` encrypted under `dek` with the nonce `0, …, 11`, and its tag. -/
def sealedPort : List UInt8 :=
  [39, 112, 45, 200, 56, 65, 201, 214, 137, 202, 252, 245, 91, 237, 215, 150, 155, 104, 6, 49,
   123, 56, 133, 123, 220, 231, 120, 120, 237]

/-- A key, a nonce, a plaintext and its ciphertext under AES-256-GCM. -/
def aesGcmTable : List (CryptoKey × List UInt8 × List UInt8 × List UInt8) :=
  [(dek, bytes 0 12, credentialsBytes, sealedCredentials),
   (dek, bytes 0 12, portBytes, sealedPort),
   (kek, bytes 12 12, dek.bytes, sealedDek)]

/-- Bytes and their base64 text. -/
def base64Table : List (List UInt8 × String) :=
  [(bytes 0 12 ++ sealedCredentials, credentialsBlob),
   (bytes 0 12 ++ sealedPort, "AAECAwQFBgcICQoLJ3AtyDhBydaJyvz1W+3XlptoBjF7OIV73Od4eO0="),
   (bytes 12 12 ++ sealedDek, credentialsDek)]

/-- AES-256-GCM and base64 on these. Other bytes have a text that starts with `=`. -/
local instance tableCrypto : CryptoLib where
  aesGcmEncrypt key nonce plaintext := (aesGcmTable.find? fun e =>
    (e.1, e.2.1, e.2.2.1) = (key, nonce, plaintext)).map (·.2.2.2)
  aesGcmDecrypt key nonce ciphertext := (aesGcmTable.find? fun e =>
    (e.1, e.2.1, e.2.2.2) = (key, nonce, ciphertext)).map (·.2.2.1)
  base64Encode data := match base64Table.find? fun e => e.1 = data with
    | some e => e.2
    | none => String.ofList ('=' :: data.map fun b => Char.ofNat b.toNat)
  base64Decode text := match base64Table.find? fun e => e.2 = text with
    | some e => .ok e.1
    | none => if text.toList.head? = some '=' then
        .ok (text.toList.tail.map fun c => c.toNat.toUInt8)
      else .error "Invalid padding"

/-- The text of any bytes is read as these. -/
theorem base64Decode_tableEncode (data : List UInt8) :
    CryptoLib.base64Decode (CryptoLib.base64Encode data) = .ok data := by
  have hall : ∀ e ∈ base64Table, CryptoLib.base64Decode e.2 = .ok e.1 := by decide +kernel
  have hpad : ∀ e ∈ base64Table, e.2.toList.head? ≠ some '=' := by decide +kernel
  cases hfind : base64Table.find? fun e => e.1 = data with
  | some e =>
    have hdata : e.1 = data := by simpa using List.find?_some hfind
    have hencode : CryptoLib.base64Encode data = e.2 := by
      simp only [CryptoLib.base64Encode, hfind]
    rw [hencode, hall e (List.mem_of_find?_eq_some hfind), hdata]
  | none =>
    -- the text of other bytes is in no row of the table, since it starts with `=`
    have hencode : CryptoLib.base64Encode data =
        String.ofList ('=' :: data.map fun b => Char.ofNat b.toNat) := by
      simp only [CryptoLib.base64Encode, hfind]
    have hother : base64Table.find? (fun e =>
        e.2 = String.ofList ('=' :: data.map fun b => Char.ofNat b.toNat)) = none := by
      refine List.find?_eq_none.mpr fun e he heq => hpad e he ?_
      rw [of_decide_eq_true heq, String.toList_ofList, List.head?_cons]
    have hnat : ∀ n < 256, (Char.ofNat n).toNat = n := by decide +kernel
    have hbyte : ∀ b : UInt8, (Char.ofNat b.toNat).toNat.toUInt8 = b := fun b => by
      rw [hnat b.toNat b.toNat_lt]
      exact UInt8.ofNat_toNat
    rw [hencode]
    simp only [CryptoLib.base64Decode, hother, String.toList_ofList, List.head?_cons,
      List.tail_cons, List.map_map, Function.comp_def, hbyte, List.map_id', if_pos]

local instance : LawfulCryptoLib where
  aesGcmDecrypt_of_encrypt key nonce plaintext ciphertext h := by
    have hall : ∀ e ∈ aesGcmTable,
        CryptoLib.aesGcmDecrypt e.1 e.2.1 e.2.2.2 = some e.2.2.1 := by decide +kernel
    obtain ⟨e, he, rfl⟩ := Option.map_eq_some_iff.mp h
    have hmem := List.mem_of_find?_eq_some he
    have hfound := List.find?_some he
    simp only [decide_eq_true_eq, Prod.mk.injEq] at hfound
    obtain ⟨rfl, rfl, rfl⟩ := hfound
    exact hall e hmem
  base64Decode_encode := base64Decode_tableEncode

attribute [local instance] Sample.serdeJson

/-- The JSON of the two credentials; other texts stand for a value that is not an object. -/
local instance : JsonValues where
  json (text : String) :=
    if text.toList.map (fun c => c.toNat.toUInt8) = credentialsBytes then
      .object [("access_key_id", .string "AKIA"), ("secret_access_key", .string "s3")]
    else if text = portText then .object [("port", .number "5353")]
    else .null
  credentialsFromSlice_ok value bytes hbytes hmap := by
    cases hbytes
    by_cases h : value.toList.map (fun c => c.toNat.toUInt8) = credentialsBytes
    · refine ⟨⟨[("access_key_id", "AKIA"), ("secret_access_key", "s3")]⟩, if_pos h, fun key => ?_⟩
      rw [if_pos h]
      simp only [Json.member?, List.lookup_cons]
      cases key == "access_key_id" <;> cases key == "secret_access_key" <;> rfl
    · rw [if_neg h] at hmap
      by_cases hport : value = portText
      · rw [if_pos hport] at hmap
        exact absurd hmap (by decide)
      · rw [if_neg hport] at hmap
        exact hmap.elim
  credentialsFromSlice_error value bytes hbytes hmap := by
    cases hbytes
    by_cases h : value.toList.map (fun c => c.toNat.toUInt8) = credentialsBytes
    · rw [if_pos h] at hmap
      exact absurd (by decide) hmap
    · exact ⟨_, if_neg h⟩

/-- The draws of a request for a third binding. -/
def draws : ProviderDraws :=
  ⟨"b3", "2024-01-15T12:30:00+00:00", dek, bytes 0 12, bytes 12 12⟩

/-- A request for a third binding. -/
def thirdBinding (credentials : String) : CreateProviderRequest :=
  ⟨"z1", "route53", "Z3", credentials⟩

/-- The zone with two bindings, after a request for a third one. -/
def createdBinding (credentials : String)
    (h : (createProvider worker.adapters worker.keyProvider twoBindings draws
      (thirdBinding credentials)).isOk = true) : Database :=
  Sample.get _ h

theorem createProvider_credentials : (createProvider worker.adapters worker.keyProvider
    twoBindings draws (thirdBinding credentialsText)).isOk = true := by
  decide +kernel

theorem createProvider_port : (createProvider worker.adapters worker.keyProvider
    twoBindings draws (thirdBinding portText)).isOk = true := by
  decide +kernel

/-- The worker reads the two secrets of a Route53 binding back. -/
theorem createProvider_usable_credentials :
    worker.UsableAs (createdBinding credentialsText createProvider_credentials) "b3"
      (thirdBinding credentialsText).credentials :=
  (createProvider_usable_iff worker (Sample.eq_ok_get _ createProvider_credentials) rfl rfl).mpr
    (by decide +kernel)

/-- A number among the credentials is accepted, and the worker cannot read them. -/
theorem createProvider_unusable_port :
    createProvider worker.adapters worker.keyProvider twoBindings draws (thirdBinding portText) =
        .ok (createdBinding portText createProvider_port) ∧
      ¬ worker.UsableAs (createdBinding portText createProvider_port) "b3"
        (thirdBinding portText).credentials := by
  refine ⟨Sample.eq_ok_get _ _, ?_⟩
  rintro ⟨row, hrow, -, creds, hcreds, -⟩
  have hfail : ∀ row ∈ (createdBinding portText createProvider_port).bindings.find? "b3",
      worker.decryptCredentials row.credentialsBlob row.credentialsDek =
        .error "credentials JSON parse failed: expected value at line 1 column 1" := by
    decide +kernel
  rw [hfail row hrow] at hcreds
  cases hcreds

end Sample

end DnsManager
