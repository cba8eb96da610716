import EdgarVPN.Crypto.Packet
import Mathlib.Data.UInt

/-!
# A small library that keeps libsodium's promises

`reference` is a `Sodium` that can be run: it has every property this development states of
libsodium (`reference_aead`, `reference_aeadExact`, `reference_kx`, `reference_base64`), so none of
them contradicts another, and concrete runs of the model can be evaluated over it. It is no cipher.
Its public keys have the high bit of every byte set, so that the all-zero key is degenerate as it is
for X25519, and its base64 is the standard one.
-/

set_option autoImplicit false

namespace EdgarVPN

namespace Reference

/-- A block given byte by byte. -/
def block (n : Nat) (f : Nat → UInt8) : Block n := ⟨(List.range n).map f, by simp⟩

def scalarmultBase (sk : SecretKey) : PublicKey := block _ fun i => sk.bytes.getD i 0 ||| 128

/-- A key of an exchange: it depends on the secret shared by both sides and on both public keys. -/
def kxKey (shared client server : Block 32) (half : UInt8) : SessionKey :=
  block _ fun i =>
    let c := client.bytes.getD i 0
    let s := server.bytes.getD i 0
    2 * (16 * c + s) + half + (shared.bytes.getD i 0 - c - s)

def sharedSecret (sk : SecretKey) (remote : PublicKey) : Block 32 :=
  block _ fun i => (scalarmultBase sk).bytes.getD i 0 + remote.bytes.getD i 0

def kxClient (pk : PublicKey) (sk : SecretKey) (remote : PublicKey) : Option SessionKeys :=
  if remote = Block.zero _ then
    none
  else
    let q := sharedSecret sk remote
    some ⟨kxKey q pk remote 0, kxKey q pk remote 1⟩

def kxServer (pk : PublicKey) (sk : SecretKey) (remote : PublicKey) : Option SessionKeys :=
  if remote = Block.zero _ then
    none
  else
    let q := sharedSecret sk remote
    some ⟨kxKey q remote pk 1, kxKey q remote pk 0⟩

def tag (plaintext nonce : Bytes) (key : SessionKey) : Block 16 :=
  block _ fun i => key.bytes.getD i 0 + nonce.getD i 0 + plaintext.sum

def aeadEncrypt (plaintext nonce : Bytes) (key : SessionKey) : Option Bytes :=
  some (plaintext ++ (tag plaintext nonce key).bytes)

def aeadDecrypt (ciphertext nonce : Bytes) (key : SessionKey) : Option Bytes :=
  let plaintext := ciphertext.take (ciphertext.length - 16)
  if ciphertext = plaintext ++ (tag plaintext nonce key).bytes then some plaintext else none

/-- The six bits of a character of the base64 alphabet. -/
def sextet (c : UInt8) : Option Nat :=
  if 65 ≤ c ∧ c ≤ 90 then some (c.toNat - 65)
  else if 97 ≤ c ∧ c ≤ 122 then some (c.toNat - 71)
  else if 48 ≤ c ∧ c ≤ 57 then some (c.toNat + 4)
  else if c = 43 then some 62
  else if c = 47 then some 63
  else none

/-- Base64 with padding, and no unused bit set. -/
def base64Decode : Bytes → Option Bytes
  | [] => some []
  | [a, b, 61, 61] => do
    let x ← sextet a
    let y ← sextet b
    if y % 16 = 0 then some [UInt8.ofNat (x * 4 + y / 16)] else none
  | [a, b, c, 61] => do
    let x ← sextet a
    let y ← sextet b
    let z ← sextet c
    if z % 4 = 0 then some [UInt8.ofNat (x * 4 + y / 16), UInt8.ofNat (y * 16 + z / 4)] else none
  | a :: b :: c :: d :: rest => do
    let x ← sextet a
    let y ← sextet b
    let z ← sextet c
    let w ← sextet d
    let tail ← base64Decode rest
    some (UInt8.ofNat (x * 4 + y / 16) :: UInt8.ofNat (y * 16 + z / 4) ::
      UInt8.ofNat (z * 64 + w) :: tail)
  | _ => none

/-- The character of six bits. -/
def character (v : Nat) : UInt8 :=
  if v < 26 then UInt8.ofNat (v + 65)
  else if v < 52 then UInt8.ofNat (v + 71)
  else if v < 62 then UInt8.ofNat (v - 4)
  else if v = 62 then 43
  else 47

def base64Encode : Bytes → Bytes
  | [] => []
  | [a] => [character (a.toNat / 4), character (a.toNat % 4 * 16), 61, 61]
  | [a, b] =>
    [character (a.toNat / 4), character (a.toNat % 4 * 16 + b.toNat / 16),
      character (b.toNat % 16 * 4), 61]
  | a :: b :: c :: rest =>
    character (a.toNat / 4) :: character (a.toNat % 4 * 16 + b.toNat / 16) ::
      character (b.toNat % 16 * 4 + c.toNat / 64) :: character (c.toNat % 64) :: base64Encode rest

def base642bin (maxLen : Nat) (text : Bytes) : Option Bytes :=
  (base64Decode text).bind fun decoded => if decoded.length ≤ maxLen then some decoded else none

end Reference

/-- The library. -/
def reference : Sodium where
  scalarmultBase := Reference.scalarmultBase
  kxClientSessionKeys := Reference.kxClient
  kxServerSessionKeys := Reference.kxServer
  aeadEncrypt := Reference.aeadEncrypt
  aeadMessageBytesMax := 18446744073709551599
  aeadDecrypt := Reference.aeadDecrypt
  base642bin := Reference.base642bin

/-- The pair whose secret key repeats one byte. -/
def referencePair (b : UInt8) : KeyPair :=
  let sk : SecretKey := Reference.block _ fun _ => b
  ⟨Reference.scalarmultBase sk, sk⟩

theorem reference_aead : reference.Aead where
  messageBytesMax_large := by decide
  encrypt_succeeds _ _ _ := rfl
  encrypt_length := by
    intro plaintext nonce key ciphertext h
    cases h
    rw [List.length_append, (Reference.tag plaintext nonce key).size]
    rfl
  decrypt_encrypt := by
    intro plaintext nonce key ciphertext h
    cases h
    have hlen : (plaintext ++ (Reference.tag plaintext nonce key).bytes).length - 16 =
        plaintext.length := by
      rw [List.length_append, (Reference.tag plaintext nonce key).size]
      omega
    simp only [reference, Reference.aeadDecrypt, hlen, List.take_left, if_true]

theorem reference_aeadExact : reference.AeadExact := by
  intro ciphertext nonce key plaintext h
  simp only [reference, Reference.aeadDecrypt] at h
  split at h
  · next same =>
    cases h
    exact congrArg some same.symm
  · cases h

theorem scalarmultBase_ne_zero (sk : SecretKey) : Reference.scalarmultBase sk ≠ Block.zero _ := by
  intro h
  have hbyte := congrArg (fun b : PublicKey => b.bytes.getD 0 0 &&& 128) h
  have hzero : (Block.zero cryptoPublicKeyBytes).bytes.getD 0 0 &&& 128 = 0 := by decide
  have hset : (Reference.scalarmultBase sk).bytes.getD 0 0 &&& 128 = 128 := by
    simp only [Reference.scalarmultBase, Reference.block, cryptoPublicKeyBytes]
    change (sk.bytes.getD 0 0 ||| 128) &&& 128 = 128
    exact UInt8.toBitVec_inj.mp (by
      ext i hi
      simp only [UInt8.toBitVec_and, UInt8.toBitVec_or, BitVec.getElem_and, BitVec.getElem_or]
      cases (UInt8.toBitVec 128)[i] <;> simp)
  simp only [hzero, hset] at hbyte
  exact absurd hbyte (by decide)

theorem reference_kx : reference.Kx where
  agree := by
    intro client server hc hs
    have hc : Reference.scalarmultBase client.sk = client.pk := hc
    have hs : Reference.scalarmultBase server.sk = server.pk := hs
    have hq : Reference.sharedSecret client.sk server.pk =
        Reference.sharedSecret server.sk client.pk := by
      simp only [Reference.sharedSecret, hc, hs, UInt8.add_comm]
    have hcz : client.pk ≠ Block.zero _ := hc ▸ scalarmultBase_ne_zero client.sk
    have hsz : server.pk ≠ Block.zero _ := hs ▸ scalarmultBase_ne_zero server.sk
    refine ⟨⟨_, _⟩, if_neg hsz, ?_⟩
    simp only [reference, Reference.kxServer, if_neg hcz, hq, SessionKeys.swap]

/-! ## Base64 -/

namespace Reference

theorem character_table : ∀ v : Fin 64, sextet (character v) = some v.val ∧
    33 ≤ character v ∧ character v ≤ 126 ∧ character v ≠ 61 := by
  decide

theorem sextet_character {v : Nat} (h : v < 64) : sextet (character v) = some v :=
  (character_table ⟨v, h⟩).1

theorem character_graphic {v : Nat} (h : v < 64) : 33 ≤ character v ∧ character v ≤ 126 :=
  ⟨(character_table ⟨v, h⟩).2.1, (character_table ⟨v, h⟩).2.2.1⟩

theorem character_ne {v : Nat} (h : v < 64) : character v ≠ 61 := (character_table ⟨v, h⟩).2.2.2

/-- A byte written as its residue. -/
theorem ofNat_eq {n : Nat} {a : UInt8} (h : n % 256 = a.toNat) : UInt8.ofNat n = a := by
  apply UInt8.toNat_inj.mp
  rw [UInt8.toNat_ofNat']
  exact h

theorem base64Decode_encode (data : Bytes) : base64Decode (base64Encode data) = some data := by
  fun_induction base64Encode data with
  | case1 => rfl
  | case2 a =>
    have ha := a.toNat_lt
    rw [base64Decode, sextet_character (by omega), sextet_character (by omega)]
    simp only [Option.bind_eq_bind, Option.bind_some]
    rw [if_pos (by omega), ofNat_eq (a := a) (by omega)]
  | case3 a b =>
    have ha := a.toNat_lt
    have hb := b.toNat_lt
    have hpad := character_ne (v := b.toNat % 16 * 4) (by omega)
    rw [base64Decode, sextet_character (by omega), sextet_character (by omega),
      sextet_character (by omega)]
    · simp only [Option.bind_eq_bind, Option.bind_some]
      rw [if_pos (by omega), ofNat_eq (a := a) (by omega), ofNat_eq (a := b) (by omega)]
    · exact hpad
  | case4 a b c rest ih =>
    have ha := a.toNat_lt
    have hb := b.toNat_lt
    have hc := c.toNat_lt
    have hpad := character_ne (v := c.toNat % 64) (by omega)
    rw [base64Decode, sextet_character (by omega), sextet_character (by omega),
      sextet_character (by omega), sextet_character (by omega), ih]
    · simp only [Option.bind_eq_bind, Option.bind_some]
      rw [ofNat_eq (a := a) (by omega), ofNat_eq (a := b) (by omega), ofNat_eq (a := c) (by omega)]
    · exact fun _ pad => absurd pad hpad
    · exact fun pad => absurd pad hpad

theorem base64Encode_length (data : Bytes) :
    (base64Encode data).length = 4 * ((data.length + 2) / 3) := by
  fun_induction base64Encode data with
  | case1 => rfl
  | case2 a => simp
  | case3 a b => simp
  | case4 a b c rest ih =>
    simp only [List.length_cons, ih]
    omega

theorem base64Encode_graphic (data : Bytes) : ∀ c ∈ base64Encode data, 33 ≤ c ∧ c ≤ 126 := by
  fun_induction base64Encode data with
  | case1 => exact nofun
  | case2 a =>
    have ha := a.toNat_lt
    simp only [List.forall_mem_cons, List.not_mem_nil, false_imp_iff, implies_true, and_true]
    exact ⟨character_graphic (by omega), character_graphic (by omega), by decide⟩
  | case3 a b =>
    have ha := a.toNat_lt
    have hb := b.toNat_lt
    simp only [List.forall_mem_cons, List.not_mem_nil, false_imp_iff, implies_true, and_true]
    exact ⟨character_graphic (by omega), character_graphic (by omega),
      character_graphic (by omega), by decide⟩
  | case4 a b c rest ih =>
    have ha := a.toNat_lt
    have hb := b.toNat_lt
    have hc := c.toNat_lt
    simp only [List.forall_mem_cons]
    exact ⟨character_graphic (by omega), character_graphic (by omega),
      character_graphic (by omega), character_graphic (by omega), ih⟩

end Reference

theorem reference_base64 : reference.Base64 Reference.base64Encode where
  length := Reference.base64Encode_length
  graphic := Reference.base64Encode_graphic
  decode_encode := by
    intro data
    simp only [reference, Reference.base642bin, Reference.base64Decode_encode, Option.bind_some,
      Nat.le_refl, if_true]

end EdgarVPN
