import DnsManager.Core.Provider

/-!
# Envelope encryption (`core/src/crypto.rs`)

A credential blob is encrypted with a random data key (DEK), the DEK with the key
encryption key (KEK). Both ciphertexts carry their nonce in front and are stored in
base64. AES-256-GCM and base64 are third-party code, the fields of `CryptoLib`; the
random bytes are arguments.
-/

namespace DnsManager

/-- `NONCE_LEN` -/
def nonceLen : Nat := 12

/-- `KEY_LEN` -/
def keyLen : Nat := 32

/-- A key, `[u8; KEY_LEN]`. -/
structure CryptoKey where
  bytes : List UInt8
  length_eq : bytes.length = keyLen
deriving DecidableEq

/-- AES-256-GCM (`None` is its error) and the standard base64 alphabet. -/
class CryptoLib where
  aesGcmEncrypt : CryptoKey → (nonce plaintext : List UInt8) → Option (List UInt8)
  aesGcmDecrypt : CryptoKey → (nonce ciphertext : List UInt8) → Option (List UInt8)
  base64Encode : List UInt8 → String
  base64Decode : String → Except String (List UInt8)

/-- `CryptoError` -/
inductive CryptoError where
  | invalidKey (msg : String)
  | encryptionFailed
  | decryptionFailed
  | base64 (msg : String)
  | envVar (msg : String)
deriving DecidableEq, Repr

/-- The `Display` text of a crypto error. -/
def CryptoError.display : CryptoError → String
  | .invalidKey msg => s!"invalid key: {msg}"
  | .encryptionFailed => "encryption failed"
  | .decryptionFailed => "decryption failed"
  | .base64 msg => s!"base64 decode error: {msg}"
  | .envVar msg => s!"environment variable error: {msg}"

/-- `KeyProvider`: what `get_kek` returns. -/
structure KeyProvider where
  getKek : Except CryptoError CryptoKey

/-- `EncryptedBlob` -/
structure EncryptedBlob where
  blob : String
  dek : String
deriving DecidableEq, Repr

/-- `<[u8; KEY_LEN]>::try_from` -/
def CryptoKey.ofBytes (bytes : List UInt8) : Except CryptoError CryptoKey :=
  if h : bytes.length = keyLen then .ok ⟨bytes, h⟩ else .error .decryptionFailed

variable [CryptoLib]

/-- `aes_gcm_encrypt` with the random nonce it draws. -/
def aesGcmEncrypt (key : CryptoKey) (nonceBytes plaintext : List UInt8) :
    Except CryptoError (List UInt8) :=
  match CryptoLib.aesGcmEncrypt key nonceBytes plaintext with
  | some ciphertext => .ok (nonceBytes ++ ciphertext)
  | none => .error .encryptionFailed

/-- `aes_gcm_decrypt` -/
def aesGcmDecrypt (key : CryptoKey) (data : List UInt8) : Except CryptoError (List UInt8) :=
  if data.length < nonceLen then .error .decryptionFailed
  else
    let (nonceBytes, ciphertext) := data.splitAt nonceLen
    match CryptoLib.aesGcmDecrypt key nonceBytes ciphertext with
    | some plaintext => .ok plaintext
    | none => .error .decryptionFailed

/-- `encrypt` with the random DEK and the two random nonces it draws. -/
def encrypt (provider : KeyProvider) (dek : CryptoKey) (blobNonce dekNonce plaintext : List UInt8) :
    Except CryptoError EncryptedBlob := do
  let kek ← provider.getKek
  let blobRaw ← aesGcmEncrypt dek blobNonce plaintext
  let dekRaw ← aesGcmEncrypt kek dekNonce dek.bytes
  return { blob := CryptoLib.base64Encode blobRaw, dek := CryptoLib.base64Encode dekRaw }

/-- `B64.decode(..)?` -/
def base64Decode (text : String) : Except CryptoError (List UInt8) :=
  (CryptoLib.base64Decode text).mapError .base64

/-- `decrypt` -/
def decrypt (provider : KeyProvider) (blob : EncryptedBlob) : Except CryptoError (List UInt8) := do
  let kek ← provider.getKek
  let dekRaw ← base64Decode blob.dek
  let dekBytes ← CryptoKey.ofBytes (← aesGcmDecrypt kek dekRaw)
  let blobRaw ← base64Decode blob.blob
  aesGcmDecrypt dekBytes blobRaw

end DnsManager
