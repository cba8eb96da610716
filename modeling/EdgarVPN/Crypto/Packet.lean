import EdgarVPN.Crypto.Sodium
import EdgarVPN.Lib.LittleEndian

/-!
# `src/crypto.c`: derivation and the packet format

A packet is an 8-byte little-endian counter, then the AEAD ciphertext with its tag; the counter is
also the low bytes of the nonce. Each of the three byte loops of the source keeps its own
definition here (`buildNonce`, `writeCounter`, `readCounter`), and they are proved to agree.

Calls that write to a caller's buffer return what they wrote, and take the buffer's size as
`outLen`; a call that returns -1 is `none`. Lengths are the lengths of the strings, and the sums the
source computes in `size_t` wrap at `2 ^ 64`.

**What is proved.** `cryptoOpen_cryptoSeal`: opening what was sealed under the same key returns the
plaintext and the counter. `cryptoSeal_length`: a sealed packet is 24 bytes longer.
`cryptoOpen_payload`: what a packet opens to under a key does not depend on the buffer it is opened
into, only whether it fits.
-/

set_option autoImplicit false

namespace EdgarVPN

variable (S : Sodium)

/-! ## Keys -/

/-- `crypto_derive_public_key`. -/
def cryptoDerivePublicKey (sk : SecretKey) : PublicKey := S.scalarmultBase sk

/-- `crypto_derive_session_keys`. -/
def cryptoDeriveSessionKeys (role : CryptoRole) (localPk : PublicKey) (localSk : SecretKey)
    (remotePk : PublicKey) : Option SessionKeys :=
  match role with
  | .initiator => S.kxClientSessionKeys localPk localSk remotePk
  | .responder => S.kxServerSessionKeys localPk localSk remotePk

/-- `crypto_decode_base64`: a text of exactly `expectedLen` bytes. -/
def cryptoDecodeBase64 (text : Bytes) (expectedLen : Nat) : Option (Block expectedLen) :=
  match S.base642bin expectedLen text with
  | none => none
  | some decoded => Block.ofBytes? expectedLen decoded

/-! ## The counter's three loops -/

/-- The loop of `crypto_seal` that writes the counter in front of the ciphertext. -/
def writeCounter (counter : UInt64) : Bytes :=
  (List.range cryptoCounterBytes).map fun i => (counter >>> UInt64.ofNat (8 * i)).toUInt8

/-- `build_nonce`: twelve zero bytes, the counter stored over the first eight. -/
def buildNonce (counter : UInt64) : Bytes :=
  (List.range 12).map fun i =>
    if i < cryptoCounterBytes then (counter >>> UInt64.ofNat (8 * i)).toUInt8 else 0

/-- The loop of `crypto_open` that reads the counter of a packet. -/
def readCounter (packet : Bytes) : UInt64 :=
  (List.range cryptoCounterBytes).foldl
    (fun counter i => counter ||| (packet.getD i 0).toUInt64 <<< UInt64.ofNat (8 * i)) 0

@[simp] theorem writeCounter_length (counter : UInt64) :
    (writeCounter counter).length = cryptoCounterBytes := by
  simp only [writeCounter, List.length_map, List.length_range]

/-- The write loop is the little-endian encoding. -/
theorem writeCounter_eq (counter : UInt64) :
    writeCounter counter = LittleEndian.toBytes cryptoCounterBytes counter.toNat := by
  rw [LittleEndian.toBytes_eq_map, writeCounter]
  refine List.map_congr_left fun i hi => ?_
  have hi : i < 8 := List.mem_range.mp hi
  apply UInt8.toNat_inj.mp
  simp only [UInt64.toNat_toUInt8, UInt64.toNat_shiftRight, UInt64.toNat_ofNat',
    UInt8.toNat_ofNat']
  rw [Nat.mod_eq_of_lt (show 8 * i < 2 ^ 64 by omega),
    Nat.mod_eq_of_lt (show 8 * i < 64 by omega)]

/-- The read loop is the little-endian value of the first eight bytes. -/
theorem readCounter_toNat {packet : Bytes} (long : cryptoCounterBytes ≤ packet.length) :
    (readCounter packet).toNat = LittleEndian.ofBytes (packet.take cryptoCounterBytes) := by
  rw [← LittleEndian.foldl_or_eq packet long]
  -- the accumulators agree at every step, because no shift leaves the 64 bits
  have agree : ∀ n, n ≤ 8 →
      ((List.range n).foldl (fun (counter : UInt64) i =>
          counter ||| (packet.getD i 0).toUInt64 <<< UInt64.ofNat (8 * i)) 0).toNat =
        (List.range n).foldl (fun acc i => acc ||| (packet.getD i 0).toNat <<< (8 * i)) 0 := by
    intro n hn
    induction n with
    | zero => rfl
    | succ n ih =>
      have hb := (packet.getD n 0).toNat_lt
      have hsmall : (packet.getD n 0).toNat <<< (8 * n) < 2 ^ 64 := by
        rw [Nat.shiftLeft_eq]
        calc (packet.getD n 0).toNat * 2 ^ (8 * n) < 2 ^ 8 * 2 ^ (8 * n) :=
              Nat.mul_lt_mul_of_pos_right hb (Nat.two_pow_pos _)
          _ = 2 ^ (8 + 8 * n) := (Nat.pow_add ..).symm
          _ ≤ 2 ^ 64 := Nat.pow_le_pow_right (by omega) (by omega)
      rw [List.range_succ, List.foldl_append, List.foldl_append, List.foldl_cons, List.foldl_nil,
        List.foldl_cons, List.foldl_nil, UInt64.toNat_or, ih (by omega), UInt64.toNat_shiftLeft,
        UInt64.toNat_ofNat', UInt8.toNat_toUInt64,
        Nat.mod_eq_of_lt (show 8 * n < 2 ^ 64 by omega),
        Nat.mod_eq_of_lt (show 8 * n < 64 by omega), Nat.mod_eq_of_lt hsmall]
  exact agree cryptoCounterBytes (Nat.le_refl _)

/-- Reading the counter of a packet that begins with a written one. -/
@[simp] theorem readCounter_writeCounter (counter : UInt64) (rest : Bytes) :
    readCounter (writeCounter counter ++ rest) = counter := by
  apply UInt64.toNat_inj.mp
  have long : cryptoCounterBytes ≤ (writeCounter counter ++ rest).length := by
    rw [List.length_append, writeCounter_length]; exact Nat.le_add_right _ _
  have fits : counter.toNat < 256 ^ cryptoCounterBytes := counter.toNat_lt
  rw [readCounter_toNat long, List.take_left' (writeCounter_length counter), writeCounter_eq,
    LittleEndian.ofBytes_toBytes fits]

/-! ## Sealing and opening -/

/-- The lengths an `ssize_t` holds. Both functions return one, converted from an unsigned length: a
longer one turns negative, and that is a failure to every caller. -/
def ssizeRange : Nat := 2 ^ 63

/-- `crypto_seal`: the packet written to `out`. -/
def cryptoSeal (key : SessionKey) (counter : UInt64) (plaintext : Bytes) (outLen : Nat) :
    Option Bytes :=
  if outLen < (plaintext.length + cryptoPacketOverhead) % 2 ^ 64 then
    none
  else
    match S.aeadEncrypt plaintext (buildNonce counter) key with
    | none => none
    | some ciphertext =>
      let packet := writeCounter counter ++ ciphertext
      if packet.length < ssizeRange then some packet else none

/-- `crypto_open`: the plaintext written to `out`, and the packet's counter. -/
def cryptoOpen (key : SessionKey) (input : Bytes) (outLen : Nat) : Option (Bytes × UInt64) :=
  if input.length < cryptoPacketOverhead then
    none
  else
    let counter := readCounter input
    let ciphertext := input.drop cryptoCounterBytes
    if outLen < ciphertext.length - cryptoTagBytes then
      none
    else
      match S.aeadDecrypt ciphertext (buildNonce counter) key with
      | none => none
      | some plaintext =>
        if plaintext.length < ssizeRange then some (plaintext, counter) else none

/-- The plaintext that `crypto_open` decrypts into `out`. -/
def cryptoDecrypts (key : SessionKey) (input : Bytes) (outLen : Nat) : Option Bytes :=
  if input.length < cryptoPacketOverhead then
    none
  else
    let ciphertext := input.drop cryptoCounterBytes
    if outLen < ciphertext.length - cryptoTagBytes then
      none
    else
      S.aeadDecrypt ciphertext (buildNonce (readCounter input)) key

/-- What `crypto_open` leaves in `out`. A plaintext whose length is then refused has been
written. -/
def cryptoOpenOut (key : SessionKey) (input out : Bytes) : Bytes :=
  match cryptoDecrypts S key input out.length with
  | none => out
  | some plaintext => plaintext ++ out.drop plaintext.length

/-- What a packet authenticates as under a key, whatever the buffer: its plaintext and counter. -/
def authenticates (key : SessionKey) (input : Bytes) : Option (Bytes × UInt64) :=
  cryptoOpen S key input input.length

variable {S}

/-- `crypto_open` returns what it decrypted, where an `ssize_t` holds its length. -/
theorem cryptoOpen_eq_some {key : SessionKey} {input plaintext : Bytes} {outLen : Nat}
    {counter : UInt64} : cryptoOpen S key input outLen = some (plaintext, counter) ↔
      cryptoDecrypts S key input outLen = some plaintext ∧ plaintext.length < ssizeRange ∧
        counter = readCounter input := by
  unfold cryptoOpen cryptoDecrypts
  dsimp only
  split
  · simp
  split
  · simp
  cases S.aeadDecrypt (input.drop cryptoCounterBytes) (buildNonce (readCounter input)) key with
  | none => simp
  | some opened =>
    dsimp only
    split
    · next fits =>
      simp only [Option.some.injEq, Prod.mk.injEq]
      constructor
      · rintro ⟨rfl, rfl⟩
        exact ⟨rfl, fits, rfl⟩
      · rintro ⟨rfl, -, rfl⟩
        exact ⟨rfl, rfl⟩
    · next long =>
      refine iff_of_false (by simp) ?_
      rintro ⟨h, fits, -⟩
      cases h
      exact long fits

/-- A larger buffer changes nothing: where a packet opens, it opens to what it authenticates as. -/
theorem cryptoOpen_payload {key : SessionKey} {input : Bytes} {outLen : Nat}
    {opened : Bytes × UInt64} (h : cryptoOpen S key input outLen = some opened) :
    authenticates S key input = some opened := by
  simp only [cryptoOpen] at h
  simp only [authenticates, cryptoOpen]
  split at h
  · cases h
  · next long =>
    split at h
    · cases h
    · rw [if_neg long, if_neg (by rw [List.length_drop]; omega)]
      exact h

/-- The counter a packet authenticates with is the one it carries. -/
theorem authenticates_counter {key : SessionKey} {input plaintext : Bytes} {counter : UInt64}
    (h : authenticates S key input = some (plaintext, counter)) : readCounter input = counter :=
  (cryptoOpen_eq_some.mp h).2.2.symm

/-- A packet that authenticates under no key opens into no buffer. -/
theorem cryptoOpen_eq_none {key : SessionKey} {input : Bytes}
    (h : authenticates S key input = none) (outLen : Nat) :
    cryptoOpen S key input outLen = none := by
  cases hopen : cryptoOpen S key input outLen with
  | none => rfl
  | some opened => rw [cryptoOpen_payload hopen] at h; cases h

/-- A sealed packet carries its counter in front of the ciphertext. -/
theorem cryptoSeal_eq_some {key : SessionKey} {counter : UInt64} {plaintext packet : Bytes}
    {outLen : Nat} (h : cryptoSeal S key counter plaintext outLen = some packet) :
    ∃ ciphertext, S.aeadEncrypt plaintext (buildNonce counter) key = some ciphertext ∧
      packet = writeCounter counter ++ ciphertext ∧ packet.length < ssizeRange := by
  simp only [cryptoSeal] at h
  split at h
  · cases h
  · split at h
    · cases h
    · next ciphertext henc =>
      split at h
      · next hsize => cases h; exact ⟨ciphertext, henc, rfl, hsize⟩
      · cases h

/-- Sealing a message that is not too long succeeds into a buffer that is large enough, where the
packet's length can be returned. -/
theorem cryptoSeal_isSome (aead : S.Aead) (key : SessionKey) (counter : UInt64)
    {plaintext : Bytes} {outLen : Nat} (message : plaintext.length ≤ S.aeadMessageBytesMax)
    (size : plaintext.length + cryptoPacketOverhead < ssizeRange)
    (room : plaintext.length + cryptoPacketOverhead ≤ outLen) :
    ∃ packet, cryptoSeal S key counter plaintext outLen = some packet := by
  obtain ⟨ciphertext, henc⟩ :=
    Option.isSome_iff_exists.mp (aead.encrypt_succeeds (buildNonce counter) key message)
  have hlen : (writeCounter counter ++ ciphertext).length < ssizeRange := by
    rw [List.length_append, writeCounter_length, aead.encrypt_length henc]
    rw [cryptoPacketOverhead] at size
    omega
  have hmod := Nat.mod_le (plaintext.length + cryptoPacketOverhead) (2 ^ 64)
  refine ⟨writeCounter counter ++ ciphertext, ?_⟩
  simp only [cryptoSeal, henc]
  rw [if_neg (by omega), if_pos hlen]

/-- A sealed packet is the plaintext's length and the overhead. -/
theorem cryptoSeal_length (aead : S.Aead) {key : SessionKey} {counter : UInt64}
    {plaintext packet : Bytes} {outLen : Nat}
    (h : cryptoSeal S key counter plaintext outLen = some packet) :
    packet.length = plaintext.length + cryptoPacketOverhead := by
  obtain ⟨ciphertext, henc, rfl, _⟩ := cryptoSeal_eq_some h
  rw [List.length_append, writeCounter_length, aead.encrypt_length henc, cryptoPacketOverhead]
  omega

/-- **Opening undoes sealing**: under the same key, into any buffer that holds the plaintext. -/
theorem cryptoOpen_cryptoSeal (aead : S.Aead) {key : SessionKey} {counter : UInt64}
    {plaintext packet : Bytes} {outLen : Nat}
    (h : cryptoSeal S key counter plaintext outLen = some packet) {openLen : Nat}
    (room : plaintext.length ≤ openLen) :
    cryptoOpen S key packet openLen = some (plaintext, counter) := by
  have hlen := cryptoSeal_length aead h
  obtain ⟨ciphertext, henc, rfl, hsize⟩ := cryptoSeal_eq_some h
  have hct := aead.encrypt_length henc
  have hplain : plaintext.length < ssizeRange := by omega
  simp only [cryptoOpen]
  rw [if_neg (by omega), List.drop_left' (writeCounter_length counter), readCounter_writeCounter,
    if_neg (by omega), aead.decrypt_encrypt henc]
  exact if_pos hplain

/-- A sealed packet authenticates as what was sealed. -/
theorem authenticates_cryptoSeal (aead : S.Aead) {key : SessionKey} {counter : UInt64}
    {plaintext packet : Bytes} {outLen : Nat}
    (h : cryptoSeal S key counter plaintext outLen = some packet) :
    authenticates S key packet = some (plaintext, counter) :=
  cryptoOpen_cryptoSeal aead h (by rw [cryptoSeal_length aead h]; exact Nat.le_add_right _ _)

/-- Matching pairs derive the same session keys, crosswise. -/
theorem cryptoDeriveSessionKeys_agree (kx : S.Kx) {client server : KeyPair}
    (hc : client.Matches S) (hs : server.Matches S) :
    ∃ keys, cryptoDeriveSessionKeys S .initiator client.pk client.sk server.pk = some keys ∧
      cryptoDeriveSessionKeys S .responder server.pk server.sk client.pk = some keys.swap :=
  kx.agree client server hc hs

end EdgarVPN
