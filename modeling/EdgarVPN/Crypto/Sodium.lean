import Mathlib.Data.List.Basic

/-!
# The crypto library below `crypto.c`

`src/crypto.c` is a thin layer over libsodium, whose source is not part of the repository. `Sodium`
is the part of it that `crypto.c` calls, as functions of the call's inputs: a call that returns
nonzero is `none`. Key generation is the one call with no inputs; a caller receives the pair it
returned as an argument, so that a run says which pairs were drawn.

What the documentation of libsodium promises is stated here as named properties of a `Sodium`, for
the theorems that rely on it: `Sodium.Aead` (encryption of a message that is not too long succeeds,
adds 16 bytes and is undone by decryption), `Sodium.AeadExact` (decryption accepts nothing but
ciphertexts), `Sodium.Kx` (the client and the server of a key exchange derive the same two keys,
crosswise) and `Sodium.Base64` (decoding undoes encoding). No property of a whole run is here: that
a sender without the key cannot forge, and that drawn pairs are fresh, are conditions on runs.
-/

set_option autoImplicit false

namespace EdgarVPN

/-- A byte string. -/
abbrev Bytes := List UInt8

/-- An `unsigned char` array of a fixed size. -/
structure Block (n : Nat) where
  bytes : Bytes
  size : bytes.length = n
deriving DecidableEq, Repr

namespace Block

variable {n : Nat}

/-- The first `n` bytes of a string, when it has exactly `n`. -/
def ofBytes? (n : Nat) (bs : Bytes) : Option (Block n) :=
  if h : bs.length = n then some ⟨bs, h⟩ else none

/-- The block `memset` and `sodium_memzero` leave. -/
def zero (n : Nat) : Block n := ⟨List.replicate n 0, List.length_replicate⟩

@[simp] theorem ofBytes?_bytes (b : Block n) : ofBytes? n b.bytes = some b := by
  simp only [ofBytes?, b.size, ↓reduceDIte]

theorem ofBytes?_eq_some {bs : Bytes} {b : Block n} (h : ofBytes? n bs = some b) :
    b.bytes = bs := by
  unfold ofBytes? at h
  split at h
  · cases h; rfl
  · cases h

end Block

/-! ## Sizes and key types (`crypto.h`) -/

def cryptoPublicKeyBytes : Nat := 32
def cryptoSecretKeyBytes : Nat := 32
def cryptoSessionKeyBytes : Nat := 32
def cryptoCounterBytes : Nat := 8
def cryptoTagBytes : Nat := 16
def cryptoPacketOverhead : Nat := cryptoCounterBytes + cryptoTagBytes

/-- `crypto_public_key_t`. -/
abbrev PublicKey := Block cryptoPublicKeyBytes

/-- `crypto_secret_key_t`. -/
abbrev SecretKey := Block cryptoSecretKeyBytes

/-- One of the two keys of `crypto_session_keys_t`. -/
abbrev SessionKey := Block cryptoSessionKeyBytes

/-- `crypto_session_keys_t`: `rx` decrypts what the peer sends, `tx` encrypts what it is sent. -/
structure SessionKeys where
  rx : SessionKey
  tx : SessionKey
deriving DecidableEq, Repr

/-- The same two keys seen from the other side of the exchange. -/
def SessionKeys.swap (k : SessionKeys) : SessionKeys := ⟨k.tx, k.rx⟩

@[simp] theorem SessionKeys.swap_rx (k : SessionKeys) : k.swap.rx = k.tx := rfl
@[simp] theorem SessionKeys.swap_tx (k : SessionKeys) : k.swap.tx = k.rx := rfl

/-- `crypto_role_t`. -/
inductive CryptoRole where
  | initiator
  | responder
deriving DecidableEq, Repr

/-- A public key with its secret key. -/
structure KeyPair where
  pk : PublicKey
  sk : SecretKey
deriving DecidableEq, Repr

/-! ## The library -/

/-- The libsodium calls of `crypto.c`. -/
structure Sodium where
  /-- `crypto_scalarmult_base`. -/
  scalarmultBase : SecretKey → PublicKey
  /-- `crypto_kx_client_session_keys`, from the local pair and the remote public key. -/
  kxClientSessionKeys : PublicKey → SecretKey → PublicKey → Option SessionKeys
  /-- `crypto_kx_server_session_keys`, from the local pair and the remote public key. -/
  kxServerSessionKeys : PublicKey → SecretKey → PublicKey → Option SessionKeys
  /-- `crypto_aead_chacha20poly1305_ietf_encrypt`, of a plaintext under a nonce and a key, with no
  additional data. -/
  aeadEncrypt : Bytes → Bytes → SessionKey → Option Bytes
  /-- `crypto_aead_chacha20poly1305_ietf_MESSAGEBYTES_MAX`, the longest message to encrypt. -/
  aeadMessageBytesMax : Nat
  /-- `crypto_aead_chacha20poly1305_ietf_decrypt`, of a ciphertext with its tag. -/
  aeadDecrypt : Bytes → Bytes → SessionKey → Option Bytes
  /-- `sodium_base642bin`, of a text into a buffer of the given size: the decoded bytes. -/
  base642bin : Nat → Bytes → Option Bytes

/-- The pair is one that key generation can draw: its public key belongs to its secret key. -/
def KeyPair.Matches (S : Sodium) (kp : KeyPair) : Prop := S.scalarmultBase kp.sk = kp.pk

instance (S : Sodium) (kp : KeyPair) : Decidable (kp.Matches S) :=
  inferInstanceAs (Decidable (_ = _))

/-- What libsodium documents of the AEAD. Nothing is assumed of a plaintext beyond the longest
message. -/
structure Sodium.Aead (S : Sodium) : Prop where
  /-- No packet of a tunnel is too long: the documented maximum is near `2 ^ 38`. -/
  messageBytesMax_large : 65536 ≤ S.aeadMessageBytesMax
  /-- Encryption of a message that is not too long does not fail. -/
  encrypt_succeeds : ∀ {plaintext} nonce key, plaintext.length ≤ S.aeadMessageBytesMax →
    (S.aeadEncrypt plaintext nonce key).isSome
  /-- The ciphertext is the plaintext's length and a tag. -/
  encrypt_length : ∀ {plaintext nonce key ciphertext},
    S.aeadEncrypt plaintext nonce key = some ciphertext →
      ciphertext.length = plaintext.length + cryptoTagBytes
  /-- Decryption under the same nonce and key recovers the plaintext. -/
  decrypt_encrypt : ∀ {plaintext nonce key ciphertext},
    S.aeadEncrypt plaintext nonce key = some ciphertext →
      S.aeadDecrypt ciphertext nonce key = some plaintext

/-- Decryption accepts only what encryption gives, under the same nonce and key. -/
def Sodium.AeadExact (S : Sodium) : Prop :=
  ∀ {ciphertext nonce key plaintext}, S.aeadDecrypt ciphertext nonce key = some plaintext →
    S.aeadEncrypt plaintext nonce key = some ciphertext

/-- What libsodium documents of the key exchange: between two generated pairs it succeeds, and the
client's keys are the server's, crosswise. -/
structure Sodium.Kx (S : Sodium) : Prop where
  agree : ∀ client server : KeyPair, client.Matches S → server.Matches S →
    ∃ keys, S.kxClientSessionKeys client.pk client.sk server.pk = some keys ∧
      S.kxServerSessionKeys server.pk server.sk client.pk = some keys.swap

/-- What libsodium documents of base64, where `bin2base64` is `sodium_bin2base64` in the variant
with padding, which `crypto_encode_base64` calls. -/
structure Sodium.Base64 (S : Sodium) (bin2base64 : Bytes → Bytes) : Prop where
  /-- Four characters for each three bytes begun. -/
  length : ∀ data, (bin2base64 data).length = 4 * ((data.length + 2) / 3)
  /-- The characters are graphic. -/
  graphic : ∀ data, ∀ c ∈ bin2base64 data, 33 ≤ c ∧ c ≤ 126
  /-- Decoding into a buffer of the data's size recovers the data. -/
  decode_encode : ∀ data, S.base642bin data.length (bin2base64 data) = some data

end EdgarVPN
