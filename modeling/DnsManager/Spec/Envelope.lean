import DnsManager.Spec.BindingCreation

/-!
# What envelope decryption accepts

`decrypt` reads two stored texts. When AES-256-GCM opens exactly the ciphertexts it makes
and base64 has one text for each byte string, `decrypt` opens exactly the pairs `encrypt`
can return. The functions that may panic are written a second time with their panics, to
show that no stored text reaches one.

## Key results
- `aesGcmDecrypt_eq_ok`, `decrypt_eq_ok`: the accepted texts, layer by layer.
- `decryptOrPanic_eq`: the length check in front of the nonce makes every split be in range.
- `decrypt_accepts_exactly`: all of it for one key encryption key.
-/

namespace DnsManager

section Accepted

variable [CryptoLib]

/-- AES-256-GCM opens a ciphertext exactly when it makes it from the plaintext, and base64
    reads exactly the texts it writes. -/
class ExactCryptoLib : Prop where
  aesGcmDecrypt_eq_some : ∀ key nonce ciphertext plaintext, nonce.length = nonceLen →
    (CryptoLib.aesGcmDecrypt key nonce ciphertext = some plaintext ↔
      CryptoLib.aesGcmEncrypt key nonce plaintext = some ciphertext)
  base64Decode_eq_ok : ∀ text data,
    CryptoLib.base64Decode text = .ok data ↔ text = CryptoLib.base64Encode data

/-- `blob` holds `plaintext` under a data key that it holds under `kek`. -/
def EncryptedBlob.Holds (kek : CryptoKey) (blob : EncryptedBlob) (plaintext : List UInt8) : Prop :=
  ∃ (key : CryptoKey) (blobNonce dekNonce blobCipher dekCipher : List UInt8),
    blobNonce.length = nonceLen ∧ dekNonce.length = nonceLen ∧
    CryptoLib.aesGcmEncrypt key blobNonce plaintext = some blobCipher ∧
    CryptoLib.aesGcmEncrypt kek dekNonce key.bytes = some dekCipher ∧
    blob.blob = CryptoLib.base64Encode (blobNonce ++ blobCipher) ∧
    blob.dek = CryptoLib.base64Encode (dekNonce ++ dekCipher)

/-- What `encrypt` returns holds the plaintext. -/
theorem holds_of_encrypt {kek dek : CryptoKey} {blobNonce dekNonce plaintext : List UInt8}
    {blob : EncryptedBlob} (hblob : blobNonce.length = nonceLen)
    (hdek : dekNonce.length = nonceLen)
    (h : encrypt ⟨.ok kek⟩ dek blobNonce dekNonce plaintext = .ok blob) :
    blob.Holds kek plaintext := by
  unfold encrypt at h
  obtain ⟨_, hkek, h⟩ := Except.bind_eq_ok.mp h
  cases hkek
  obtain ⟨blobRaw, hblobRaw, h⟩ := Except.bind_eq_ok.mp h
  obtain ⟨dekRaw, hdekRaw, h⟩ := Except.bind_eq_ok.mp h
  cases h
  unfold aesGcmEncrypt at hblobRaw hdekRaw
  split at hblobRaw
  · next blobCipher hblobCipher =>
    split at hdekRaw
    · next dekCipher hdekCipher =>
      cases hblobRaw
      cases hdekRaw
      exact ⟨dek, blobNonce, dekNonce, blobCipher, dekCipher, hblob, hdek, hblobCipher,
        hdekCipher, rfl, rfl⟩
    · cases hdekRaw
  · cases hblobRaw

/-- `encrypt` returns exactly when the cipher does on both layers. -/
theorem exists_encrypt_eq_ok {kek dek : CryptoKey} {blobNonce dekNonce plaintext : List UInt8} :
    (∃ blob, encrypt ⟨.ok kek⟩ dek blobNonce dekNonce plaintext = .ok blob) ↔
      (∃ c, CryptoLib.aesGcmEncrypt dek blobNonce plaintext = some c) ∧
        ∃ c, CryptoLib.aesGcmEncrypt kek dekNonce dek.bytes = some c := by
  cases hblob : CryptoLib.aesGcmEncrypt dek blobNonce plaintext <;>
    cases hdek : CryptoLib.aesGcmEncrypt kek dekNonce dek.bytes <;>
      simp [encrypt, aesGcmEncrypt, hblob, hdek, bind, Except.bind, pure, Except.pure]

variable [ExactCryptoLib]

/-- The accepted data are a nonce and what the cipher makes under it. -/
theorem aesGcmDecrypt_eq_ok {key : CryptoKey} {data plaintext : List UInt8} :
    aesGcmDecrypt key data = .ok plaintext ↔
      ∃ nonceBytes ciphertext, nonceBytes.length = nonceLen ∧
        CryptoLib.aesGcmEncrypt key nonceBytes plaintext = some ciphertext ∧
        data = nonceBytes ++ ciphertext := by
  constructor
  · intro h
    unfold aesGcmDecrypt at h
    split at h
    · cases h
    · next hlen =>
      simp only [List.splitAt_eq] at h
      split at h
      · next opened hopened =>
        cases h
        have hnonce : (data.take nonceLen).length = nonceLen := by
          rw [List.length_take]
          omega
        exact ⟨data.take nonceLen, data.drop nonceLen, hnonce,
          (ExactCryptoLib.aesGcmDecrypt_eq_some _ _ _ _ hnonce).mp hopened,
          (List.take_append_drop _ _).symm⟩
      · cases h
  · rintro ⟨nonceBytes, ciphertext, hnonce, hcipher, rfl⟩
    have hlen : ¬ (nonceBytes ++ ciphertext).length < nonceLen := by
      rw [List.length_append]
      omega
    -- the nonce is cut off where it was put in front
    have hsplit : (nonceBytes ++ ciphertext).splitAt nonceLen = (nonceBytes, ciphertext) := by
      rw [List.splitAt_eq, ← hnonce, List.take_left, List.drop_left]
    have hopened := (ExactCryptoLib.aesGcmDecrypt_eq_some _ _ _ _ hnonce).mpr hcipher
    simp only [aesGcmDecrypt, if_neg hlen, hsplit, hopened]

theorem base64Decode_eq_ok {text : String} {data : List UInt8} :
    base64Decode text = .ok data ↔ text = CryptoLib.base64Encode data := by
  rw [base64Decode, Except.mapError_eq_ok, ExactCryptoLib.base64Decode_eq_ok]

omit [CryptoLib] [ExactCryptoLib] in
theorem CryptoKey.ofBytes_eq_ok {bytes : List UInt8} {key : CryptoKey} :
    CryptoKey.ofBytes bytes = .ok key ↔ bytes = key.bytes := by
  constructor
  · intro h
    unfold CryptoKey.ofBytes at h
    split at h
    · cases h
      rfl
    · cases h
  · rintro rfl
    exact key.ofBytes_bytes

/-- `decrypt` accepts a pair of texts exactly when they hold the plaintext. -/
theorem decrypt_eq_ok {kek : CryptoKey} {blob : EncryptedBlob} {plaintext : List UInt8} :
    decrypt ⟨.ok kek⟩ blob = .ok plaintext ↔ blob.Holds kek plaintext := by
  constructor
  · intro h
    unfold decrypt at h
    obtain ⟨_, hkek, h⟩ := Except.bind_eq_ok.mp h
    cases hkek
    obtain ⟨dekRaw, hdekRaw, h⟩ := Except.bind_eq_ok.mp h
    obtain ⟨dekBytes, hdekBytes, h⟩ := Except.bind_eq_ok.mp h
    obtain ⟨key, hkey, h⟩ := Except.bind_eq_ok.mp h
    obtain ⟨blobRaw, hblobRaw, hopened⟩ := Except.bind_eq_ok.mp h
    -- each layer says where its text comes from
    obtain ⟨dekNonce, dekCipher, hdekNonce, hdekCipher, rfl⟩ := aesGcmDecrypt_eq_ok.mp hdekBytes
    obtain ⟨blobNonce, blobCipher, hblobNonce, hblobCipher, rfl⟩ :=
      aesGcmDecrypt_eq_ok.mp hopened
    obtain rfl := CryptoKey.ofBytes_eq_ok.mp hkey
    exact ⟨key, blobNonce, dekNonce, blobCipher, dekCipher, hblobNonce, hdekNonce, hblobCipher,
      hdekCipher, base64Decode_eq_ok.mp hblobRaw, base64Decode_eq_ok.mp hdekRaw⟩
  · rintro ⟨key, blobNonce, dekNonce, blobCipher, dekCipher, hblobNonce, hdekNonce, hblobCipher,
      hdekCipher, hblob, hdek⟩
    refine Except.bind_eq_ok.mpr ⟨kek, rfl, ?_⟩
    refine Except.bind_eq_ok.mpr ⟨_, base64Decode_eq_ok.mpr hdek, ?_⟩
    refine Except.bind_eq_ok.mpr ⟨key.bytes, ?_, ?_⟩
    · exact aesGcmDecrypt_eq_ok.mpr ⟨dekNonce, dekCipher, hdekNonce, hdekCipher, rfl⟩
    refine Except.bind_eq_ok.mpr ⟨key, key.ofBytes_bytes, ?_⟩
    refine Except.bind_eq_ok.mpr ⟨_, base64Decode_eq_ok.mpr hblob, ?_⟩
    exact aesGcmDecrypt_eq_ok.mpr ⟨blobNonce, blobCipher, hblobNonce, hblobCipher, rfl⟩

end Accepted

/-! ## Panics -/

section Panics

/-- A fallible computation that may also panic (`none`). -/
abbrev MayPanic := ExceptT CryptoError Option

/-- The computation that returns the result `r`, whichever it is, and does not panic. -/
def MayPanic.returns {α : Type} (r : Except CryptoError α) : MayPanic α := ExceptT.mk (some r)

/-- `<[u8]>::split_at` panics when `mid` is past the end. -/
def splitAtOrPanic (data : List UInt8) (mid : Nat) : MayPanic (List UInt8 × List UInt8) :=
  if mid ≤ data.length then .returns (.ok (data.splitAt mid)) else ExceptT.mk none

/-- `Nonce::from_slice` panics on a slice of another length. -/
def nonceFromSlice (nonceBytes : List UInt8) : MayPanic (List UInt8) :=
  if nonceBytes.length = nonceLen then .returns (.ok nonceBytes) else ExceptT.mk none

variable [CryptoLib]

/-- `aes_gcm_decrypt` with its panics. -/
def aesGcmDecryptOrPanic (key : CryptoKey) (data : List UInt8) : MayPanic (List UInt8) :=
  if data.length < nonceLen then .returns (.error .decryptionFailed)
  else do
    let (nonceBytes, ciphertext) ← splitAtOrPanic data nonceLen
    let nonce ← nonceFromSlice nonceBytes
    match CryptoLib.aesGcmDecrypt key nonce ciphertext with
    | some plaintext => .returns (.ok plaintext)
    | none => .returns (.error .decryptionFailed)

/-- `decrypt` with its panics. -/
def decryptOrPanic (provider : KeyProvider) (blob : EncryptedBlob) : MayPanic (List UInt8) := do
  let kek ← MayPanic.returns provider.getKek
  let dekRaw ← MayPanic.returns (base64Decode blob.dek)
  let dekBytes ← MayPanic.returns (CryptoKey.ofBytes (← aesGcmDecryptOrPanic kek dekRaw))
  let blobRaw ← MayPanic.returns (base64Decode blob.blob)
  aesGcmDecryptOrPanic dekBytes blobRaw

omit [CryptoLib] in
/-- A sequence of computations that do not panic does not. -/
theorem MayPanic.returns_bind {α β : Type} {r : Except CryptoError α} {f : α → MayPanic β}
    {g : α → Except CryptoError β} (h : ∀ a, f a = .returns (g a)) :
    MayPanic.returns r >>= f = .returns (r >>= g) := by
  cases r with
  | ok a => exact h a
  | error e => rfl

/-- After the length check the split is in range and the nonce has its length. -/
theorem aesGcmDecryptOrPanic_eq (key : CryptoKey) (data : List UInt8) :
    aesGcmDecryptOrPanic key data = .returns (aesGcmDecrypt key data) := by
  unfold aesGcmDecryptOrPanic aesGcmDecrypt
  split
  · rfl
  · next hlen =>
    have hsplit : splitAtOrPanic data nonceLen = .returns (.ok (data.splitAt nonceLen)) :=
      if_pos (Nat.le_of_not_lt hlen)
    have hnonce : nonceFromSlice (data.take nonceLen) = .returns (.ok (data.take nonceLen)) := by
      apply if_pos
      rw [List.length_take]
      omega
    rw [hsplit, List.splitAt_eq]
    show (nonceFromSlice (data.take nonceLen) >>= _) = _
    rw [hnonce]
    show (match CryptoLib.aesGcmDecrypt key (data.take nonceLen) (data.drop nonceLen) with
      | some plaintext => MayPanic.returns (.ok plaintext)
      | none => MayPanic.returns (.error .decryptionFailed)) =
      MayPanic.returns
        (match CryptoLib.aesGcmDecrypt key (data.take nonceLen) (data.drop nonceLen) with
        | some plaintext => .ok plaintext
        | none => .error .decryptionFailed)
    cases CryptoLib.aesGcmDecrypt key (data.take nonceLen) (data.drop nonceLen) <;> rfl

/-- `decrypt` does not panic. -/
theorem decryptOrPanic_eq (provider : KeyProvider) (blob : EncryptedBlob) :
    decryptOrPanic provider blob = .returns (decrypt provider blob) := by
  apply MayPanic.returns_bind
  intro kek
  apply MayPanic.returns_bind
  intro dekRaw
  rw [aesGcmDecryptOrPanic_eq]
  apply MayPanic.returns_bind
  intro dekBytes
  apply MayPanic.returns_bind
  intro key
  apply MayPanic.returns_bind
  intro blobRaw
  exact aesGcmDecryptOrPanic_eq key blobRaw

end Panics

section Exact

variable [CryptoLib] [ExactCryptoLib]

/-- Under a key encryption key, `decrypt` returns a plaintext for the texts that hold it and
    for no others; it so undoes `encrypt`, which fails only where the cipher does, fails on every
    other pair of texts, and panics on none. -/
theorem decrypt_accepts_exactly (kek : CryptoKey) :
    (∀ blob dek plaintext, decrypt ⟨.ok kek⟩ ⟨blob, dek⟩ = .ok plaintext ↔
      EncryptedBlob.Holds kek ⟨blob, dek⟩ plaintext) ∧
    (∀ key blobNonce dekNonce plaintext blob,
      blobNonce.length = nonceLen → dekNonce.length = nonceLen →
      encrypt ⟨.ok kek⟩ key blobNonce dekNonce plaintext = .ok blob →
      decrypt ⟨.ok kek⟩ blob = .ok plaintext) ∧
    (∀ key blobNonce dekNonce plaintext,
      (∃ blob, encrypt ⟨.ok kek⟩ key blobNonce dekNonce plaintext = .ok blob) ↔
        (∃ c, CryptoLib.aesGcmEncrypt key blobNonce plaintext = some c) ∧
          ∃ c, CryptoLib.aesGcmEncrypt kek dekNonce key.bytes = some c) ∧
    (∀ blob : EncryptedBlob, (∀ plaintext, ¬ blob.Holds kek plaintext) →
      ∃ e, decrypt ⟨.ok kek⟩ blob = .error e) ∧
    ∀ blob, decryptOrPanic ⟨.ok kek⟩ blob = .returns (decrypt ⟨.ok kek⟩ blob) := by
  refine ⟨fun blob dek plaintext => decrypt_eq_ok, ?_,
    fun key blobNonce dekNonce plaintext => exists_encrypt_eq_ok, ?_, decryptOrPanic_eq _⟩
  · intro key blobNonce dekNonce plaintext blob hblobNonce hdekNonce hencrypt
    exact decrypt_eq_ok.mpr (holds_of_encrypt hblobNonce hdekNonce hencrypt)
  · intro blob hother
    cases h : decrypt ⟨.ok kek⟩ blob with
    | ok plaintext => exact absurd (decrypt_eq_ok.mp h) (hother plaintext)
    | error e => exact ⟨e, rfl⟩

end Exact

section Sample

open Sample (bytes credentialsBlob credentialsBytes credentialsDek dek kek)

/-- `tableCrypto` with a base64 decoder that takes no text it would not write. -/
local instance checkedCrypto : CryptoLib where
  aesGcmEncrypt := tableCrypto.aesGcmEncrypt
  aesGcmDecrypt := tableCrypto.aesGcmDecrypt
  base64Encode := tableCrypto.base64Encode
  base64Decode text := do
    let data ← tableCrypto.base64Decode text
    if tableCrypto.base64Encode data = text then return data
    else throw "Invalid last symbol"

local instance : ExactCryptoLib where
  aesGcmDecrypt_eq_some key nonce ciphertext plaintext _ := by
    have hall : ∀ e ∈ aesGcmTable,
        tableCrypto.aesGcmEncrypt e.1 e.2.1 e.2.2.1 = some e.2.2.2 ∧
          tableCrypto.aesGcmDecrypt e.1 e.2.1 e.2.2.2 = some e.2.2.1 := by decide +kernel
    constructor
    · intro h
      obtain ⟨e, he, rfl⟩ := Option.map_eq_some_iff.mp h
      have hmem := List.mem_of_find?_eq_some he
      have hfound := List.find?_some he
      simp only [decide_eq_true_eq, Prod.mk.injEq] at hfound
      obtain ⟨rfl, rfl, rfl⟩ := hfound
      exact (hall e hmem).1
    · intro h
      obtain ⟨e, he, rfl⟩ := Option.map_eq_some_iff.mp h
      have hmem := List.mem_of_find?_eq_some he
      have hfound := List.find?_some he
      simp only [decide_eq_true_eq, Prod.mk.injEq] at hfound
      obtain ⟨rfl, rfl, rfl⟩ := hfound
      exact (hall e hmem).2
  base64Decode_eq_ok text data := by
    show (tableCrypto.base64Decode text >>= fun data' =>
      if tableCrypto.base64Encode data' = text then .ok data'
      else .error "Invalid last symbol") = .ok data ↔ text = tableCrypto.base64Encode data
    rw [Except.bind_eq_ok]
    constructor
    · rintro ⟨data', -, h⟩
      split at h
      · next htext =>
        cases h
        exact htext.symm
      · cases h
    · rintro rfl
      exact ⟨data, base64Decode_tableEncode data, if_pos rfl⟩

/-- The stored credentials of a binding are opened under its key, without a panic; the same
    blob with the wrapped key cut short is not. -/
theorem decrypt_accepts_exactly_credentials :
    decrypt ⟨.ok kek⟩ ⟨credentialsBlob, credentialsDek⟩ = .ok credentialsBytes ∧
      decryptOrPanic ⟨.ok kek⟩ ⟨credentialsBlob, "=\x00"⟩ =
        .returns (.error .decryptionFailed) := by
  obtain ⟨-, hencrypted, -, -, hpanic⟩ := decrypt_accepts_exactly kek
  have hencrypt : encrypt ⟨.ok kek⟩ dek (bytes 0 12) (bytes 12 12) credentialsBytes =
      .ok ⟨credentialsBlob, credentialsDek⟩ := by decide +kernel
  have hshort : decrypt ⟨.ok kek⟩ ⟨credentialsBlob, "=\x00"⟩ = .error .decryptionFailed := by
    decide +kernel
  exact ⟨hencrypted _ _ _ _ _ rfl rfl hencrypt, (hpanic _).trans (congrArg _ hshort)⟩

end Sample

end DnsManager
