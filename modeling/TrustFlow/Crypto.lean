import TrustFlow.Exception

/-! # Cryptographic libraries

The primitives that the code calls in yacl and OpenSSL are parameters of the
model.  Each is a structure of functions; what a result relies on beyond the
types is a named hypothesis of that result. -/

namespace TrustFlow

/-- SHA-256 (`yacl::crypto::Sha256`, `yacl::crypto::SslHash`): 32 bytes for every message. -/
structure Sha256 where
  hash : Bytes → Bytes
  hash_length : ∀ message, (hash message).length = 32

/-- No two of the messages in `messages` have the same digest.  A digest is shorter than most
    messages, so collision freedom is only ever asked for the messages at hand. -/
def Sha256.CollisionFree (H : Sha256) (messages : List Bytes) : Prop :=
  ∀ m ∈ messages, ∀ m' ∈ messages, H.hash m = H.hash m' → m = m'

/-- A digest for evaluating the model: the first 32 bytes of the padded message. -/
def paddingSha256 : Sha256 where
  hash message := (message ++ List.replicate 32 0).take 32
  hash_length message := by simp

/-- One AES-GCM variant (`yacl::crypto::GcmCrypto`).  The caller hands over output buffers of
    the plaintext's length and of 16 bytes, which the library fills. -/
structure GcmCrypto where
  encrypt : (key iv plaintext aad : Bytes) → Bytes × Bytes
  decrypt : (key iv ciphertext aad mac : Bytes) → Except Exn Bytes
  ciphertext_length : ∀ key iv plaintext aad,
    (encrypt key iv plaintext aad).1.length = plaintext.length
  mac_length : ∀ key iv plaintext aad, (encrypt key iv plaintext aad).2.length = 16

def GcmCrypto.Inverts (c : GcmCrypto) : Prop :=
  ∀ key iv plaintext aad,
    c.decrypt key iv (c.encrypt key iv plaintext aad).1 aad (c.encrypt key iv plaintext aad).2 =
      .ok plaintext

/-- An ideal cipher under one key, for the pairs of an IV and a plaintext that were sealed: it
    opens exactly these, and a tag and an IV belong to one of them. -/
structure GcmCrypto.Ideal (c : GcmCrypto) (key : Bytes) (sealedPairs : List (Bytes × Bytes)) :
    Prop where
  opens_iff : ∀ iv ciphertext mac plaintext,
    c.decrypt key iv ciphertext [] mac = .ok plaintext ↔
      (iv, plaintext) ∈ sealedPairs ∧ c.encrypt key iv plaintext [] = (ciphertext, mac)
  tag_binds : ∀ iv plaintext plaintext', (iv, plaintext) ∈ sealedPairs →
    (iv, plaintext') ∈ sealedPairs →
    (c.encrypt key iv plaintext []).2 = (c.encrypt key iv plaintext' []).2 →
      plaintext = plaintext'

/-- What was given to AES-GCM to be opened. -/
structure GcmSealed where
  key : Bytes
  iv : Bytes
  aad : Bytes
  ciphertext : Bytes
  tag : Bytes
deriving DecidableEq

/-- An ideal cipher, under which one message was sealed. -/
def GcmCrypto.OpensOnly (c : GcmCrypto) (message : GcmSealed) : Prop :=
  ∀ s : GcmSealed, (∃ plain, c.decrypt s.key s.iv s.ciphertext s.aad s.tag = .ok plain) →
    s = message

/-- The two variants, told apart by the length of the key. -/
structure GcmLibrary where
  aes128 : GcmCrypto
  aes256 : GcmCrypto

def GcmLibrary.Inverts (gcm : GcmLibrary) : Prop := gcm.aes128.Inverts ∧ gcm.aes256.Inverts

end TrustFlow
