import EdgarVPN.Crypto.Reference

/-!
# The packet codec is exact

Sealing and opening are inverse to each other, in both directions (`packetCodec`). That opening
undoes sealing is a round trip. The other direction says that a packet has one spelling: whatever
`crypto_open` accepts is the packet that `crypto_seal` writes for the plaintext and the counter it
returns, to the byte. It rests on the read loop of the counter and the write loop being inverse in
that direction too (`writeCounter_readCounter`), so that the counter a caller is told is the one the
nonce was made from.

`crypto_seal` returns a length, so its success is bounded by what an `ssize_t` holds, and by the
longest message of the AEAD; what it writes is not (`cryptoSealed`), and it is the bytes written
that a packet is compared with. That `crypto_open` subtracts no length from a shorter one is said of
the list of its subtractions (`cryptoOpenSubtractions`), and the list is tied to the function: where
it is empty the function refuses, and otherwise its two differences are the length of the ciphertext
that is decrypted and the room that the caller's buffer must have (`cryptoOpen_subtractions`).
-/

set_option autoImplicit false

namespace EdgarVPN

variable (S : Sodium)

/-- The bytes that `crypto_seal` writes to a buffer that is large enough. -/
def cryptoSealed (key : SessionKey) (counter : UInt64) (plaintext : Bytes) : Option Bytes :=
  match S.aeadEncrypt plaintext (buildNonce counter) key with
  | none => none
  | some ciphertext => some (writeCounter counter ++ ciphertext)

/-- The subtractions of lengths that `crypto_open` makes: what is left of the input after the
counter, and what is left of that without the tag. A short input is refused before them. -/
def cryptoOpenSubtractions (inLen : Nat) : List (Nat × Nat) :=
  if inLen < cryptoPacketOverhead then
    []
  else
    let ciphertextLen := inLen - cryptoCounterBytes
    [(inLen, cryptoCounterBytes), (ciphertextLen, cryptoTagBytes)]

/-- **The laws of the codec.** -/
structure PacketCodec : Prop where
  /-- A plaintext that the AEAD takes and whose packet an `ssize_t` counts is sealed in 24 bytes
  more, and opens to itself. -/
  seal_open : ∀ (key : SessionKey) (counter : UInt64) (plaintext : Bytes) (outLen : Nat),
    plaintext.length ≤ S.aeadMessageBytesMax → plaintext.length + 24 < 2 ^ 63 →
    plaintext.length + 24 ≤ outLen →
      ∃ packet, cryptoSeal S key counter plaintext outLen = some packet ∧
        packet.length = plaintext.length + 24 ∧
        ∀ openLen, plaintext.length ≤ openLen →
          cryptoOpen S key packet openLen = some (plaintext, counter)
  /-- A packet that opens is the one that is sealed. -/
  open_seal : ∀ (key : SessionKey) (input : Bytes) (outLen : Nat) (plaintext : Bytes)
    (counter : UInt64), cryptoOpen S key input outLen = some (plaintext, counter) →
      cryptoSealed S key counter plaintext = some input ∧ input.length = plaintext.length + 24
  /-- A nonce has twelve bytes, and no two counters share one. -/
  nonces : ∀ counter counter' : UInt64, (buildNonce counter).length = 12 ∧
    (counter ≠ counter' → buildNonce counter ≠ buildNonce counter')
  /-- A short input is refused. -/
  short : ∀ (key : SessionKey) (input : Bytes) (outLen : Nat), input.length < 24 →
    cryptoOpen S key input outLen = none
  /-- No subtraction of lengths wraps, and on a short input there is none. -/
  exact_lengths : ∀ inLen, (inLen < 24 → cryptoOpenSubtractions inLen = []) ∧
    ∀ terms ∈ cryptoOpenSubtractions inLen, terms.2 ≤ terms.1
  /-- The subtractions are those of the function. -/
  subtractions : ∀ (key : SessionKey) (input : Bytes) (outLen : Nat),
    (cryptoOpenSubtractions input.length = [] ∧ cryptoOpen S key input outLen = none) ∨
      ∃ ciphertextLen, ciphertextLen = input.length - 8 ∧ ciphertextLen = (input.drop 8).length ∧
        cryptoOpenSubtractions input.length = [(input.length, 8), (ciphertextLen, 16)] ∧
        cryptoOpen S key input outLen =
          if outLen < ciphertextLen - 16 then none else authenticates S key input

variable {S}

/-- `crypto_seal` returns what it wrote, where the buffer is large enough and an `ssize_t` holds the
length. -/
theorem cryptoSeal_eq_cryptoSealed {key : SessionKey} {counter : UInt64}
    {plaintext packet : Bytes} {outLen : Nat} :
    cryptoSeal S key counter plaintext outLen = some packet ↔
      (plaintext.length + cryptoPacketOverhead) % 2 ^ 64 ≤ outLen ∧
        cryptoSealed S key counter plaintext = some packet ∧ packet.length < ssizeRange := by
  unfold cryptoSeal cryptoSealed
  split
  · next small => exact iff_of_false (by simp) fun h => Nat.not_le_of_lt small h.1
  next room =>
  cases S.aeadEncrypt plaintext (buildNonce counter) key with
  | none => simp
  | some ciphertext =>
    dsimp only
    split
    · next fits =>
      constructor
      · intro h
        cases h
        exact ⟨Nat.le_of_not_lt room, rfl, fits⟩
      · exact fun h => h.2.1
    · next long =>
      refine iff_of_false (by simp) ?_
      rintro ⟨-, h, fits⟩
      cases h
      exact long fits

/-- A plaintext whose packet no `ssize_t` counts is not sealed. -/
theorem cryptoSeal_oversized (aead : S.Aead) (key : SessionKey) (counter : UInt64)
    {plaintext : Bytes} (outLen : Nat) (h : ssizeRange ≤ plaintext.length + cryptoPacketOverhead) :
    cryptoSeal S key counter plaintext outLen = none := by
  cases hseal : cryptoSeal S key counter plaintext outLen with
  | none => rfl
  | some packet =>
    have hlen := cryptoSeal_length aead hseal
    have hsize := (cryptoSeal_eq_cryptoSealed.mp hseal).2.2
    omega

/-- Writing the counter that was read. -/
theorem writeCounter_readCounter {packet : Bytes} (long : cryptoCounterBytes ≤ packet.length) :
    writeCounter (readCounter packet) = packet.take cryptoCounterBytes := by
  have hlen : (packet.take cryptoCounterBytes).length = cryptoCounterBytes := by
    rw [List.length_take, Nat.min_eq_left long]
  have back := LittleEndian.toBytes_ofBytes (packet.take cryptoCounterBytes)
  rwa [hlen, ← readCounter_toNat long, ← writeCounter_eq] at back

/-- The nonce begins with the counter, as it is written in front of the ciphertext. -/
theorem take_buildNonce (counter : UInt64) :
    (buildNonce counter).take cryptoCounterBytes = writeCounter counter := by
  unfold buildNonce writeCounter
  rw [← List.map_take, show (List.range 12).take cryptoCounterBytes = List.range cryptoCounterBytes
    from rfl]
  refine List.map_congr_left fun i hi => ?_
  rw [if_pos (List.mem_range.mp hi)]

theorem buildNonce_injective {counter counter' : UInt64}
    (h : buildNonce counter = buildNonce counter') : counter = counter' := by
  have same : writeCounter counter = writeCounter counter' := by
    rw [← take_buildNonce, h, take_buildNonce]
  calc counter = readCounter (writeCounter counter ++ []) := (readCounter_writeCounter ..).symm
    _ = readCounter (writeCounter counter' ++ []) := by rw [same]
    _ = counter' := readCounter_writeCounter ..

/-- What opens is what is sealed. -/
theorem cryptoSealed_of_cryptoOpen (aeadExact : S.AeadExact) {key : SessionKey}
    {input plaintext : Bytes} {outLen : Nat} {counter : UInt64}
    (h : cryptoOpen S key input outLen = some (plaintext, counter)) :
    cryptoSealed S key counter plaintext = some input := by
  obtain ⟨hdecrypt, -, rfl⟩ := cryptoOpen_eq_some.mp h
  unfold cryptoDecrypts at hdecrypt
  split at hdecrypt
  · cases hdecrypt
  next long =>
  have counted : cryptoCounterBytes ≤ input.length := by
    have := Nat.le_of_not_lt long
    rw [cryptoPacketOverhead] at this
    omega
  dsimp only at hdecrypt
  split at hdecrypt
  · cases hdecrypt
  simp only [cryptoSealed, aeadExact hdecrypt, writeCounter_readCounter counted,
    List.take_append_drop]

/-- `crypto_open` refuses an input from which it subtracts nothing. From any other it subtracts the
counter's length and then the tag's, and a buffer too small for the second difference is all that
keeps it from what the packet authenticates as. -/
theorem cryptoOpen_subtractions (key : SessionKey) (input : Bytes) (outLen : Nat) :
    (cryptoOpenSubtractions input.length = [] ∧ cryptoOpen S key input outLen = none) ∨
      ∃ ciphertextLen, ciphertextLen = input.length - 8 ∧ ciphertextLen = (input.drop 8).length ∧
        cryptoOpenSubtractions input.length = [(input.length, 8), (ciphertextLen, 16)] ∧
        cryptoOpen S key input outLen =
          if outLen < ciphertextLen - 16 then none else authenticates S key input := by
  unfold cryptoOpenSubtractions authenticates cryptoOpen
  by_cases small : input.length < cryptoPacketOverhead
  · rw [if_pos small, if_pos small]
    exact .inl ⟨rfl, rfl⟩
  · rw [if_neg small, if_neg small, if_neg small]
    refine .inr ⟨input.length - 8, rfl, List.length_drop.symm, rfl, ?_⟩
    have fits : ¬ input.length < (input.drop cryptoCounterBytes).length - cryptoTagBytes := by
      rw [List.length_drop]
      omega
    dsimp only
    rw [if_neg fits, List.length_drop]
    rfl

/-- **The packet codec is a bijection onto what it accepts.** Assumed of the AEAD: decryption undoes
encryption and accepts nothing else, and a plaintext up to its longest message is encrypted. Sealing
is bounded by that message and by the range of the returned length; the converse has no bound. -/
theorem packetCodec (aead : S.Aead) (aeadExact : S.AeadExact) : PacketCodec S where
  seal_open := by
    intro key counter plaintext outLen message size room
    obtain ⟨packet, hseal⟩ := cryptoSeal_isSome aead key counter message size room
    exact ⟨packet, hseal, cryptoSeal_length aead hseal,
      fun openLen fits => cryptoOpen_cryptoSeal aead hseal fits⟩
  open_seal := by
    intro key input outLen plaintext counter h
    have sealed := cryptoSealed_of_cryptoOpen aeadExact h
    refine ⟨sealed, ?_⟩
    unfold cryptoSealed at sealed
    split at sealed
    · cases sealed
    · next henc =>
      cases sealed
      rw [List.length_append, writeCounter_length, aead.encrypt_length henc, cryptoTagBytes,
        cryptoCounterBytes]
      omega
  nonces := by
    intro counter counter'
    refine ⟨by simp [buildNonce], fun different same => different (buildNonce_injective same)⟩
  short := by
    intro key input outLen h
    unfold cryptoOpen
    exact if_pos h
  exact_lengths := by
    intro inLen
    unfold cryptoOpenSubtractions
    by_cases small : inLen < cryptoPacketOverhead
    · rw [if_pos small]
      exact ⟨fun _ => rfl, by simp⟩
    · rw [if_neg small]
      have large : 24 ≤ inLen := Nat.le_of_not_lt small
      refine ⟨fun h => absurd h (Nat.not_lt_of_le large), ?_⟩
      simp only [List.forall_mem_cons, List.not_mem_nil, false_implies, implies_true, and_true,
        cryptoCounterBytes, cryptoTagBytes]
      omega
  subtractions := cryptoOpen_subtractions

/-- The packet of the plaintext 1, 2, 3 under the last counter. -/
def lastPacket : Bytes :=
  List.replicate 8 255 ++ [1, 2, 3] ++ List.replicate 8 5 ++ List.replicate 8 6

theorem packetCodec_lastPacket :
    cryptoOpen reference (Block.zero _) lastPacket 3 = some ([1, 2, 3], 0xFFFFFFFFFFFFFFFF) ∧
      cryptoSealed reference (Block.zero _) 0xFFFFFFFFFFFFFFFF [1, 2, 3] = some lastPacket ∧
      lastPacket.length = [1, 2, 3].length + 24 :=
  have opened : cryptoOpen reference (Block.zero _) lastPacket 3 =
      some ([1, 2, 3], 0xFFFFFFFFFFFFFFFF) := by decide +kernel
  ⟨opened, (packetCodec reference_aead reference_aeadExact).open_seal _ _ _ _ _ opened⟩

/-- **The longest plaintexts have no packet.** For a plaintext of `2 ^ 63 - 1` bytes and a buffer
for it and the overhead, `crypto_seal` returns a negative length. -/
theorem longest_packet_unsealed :
    (List.replicate (2 ^ 63 - 1) (0 : UInt8)).length < 2 ^ 63 ∧
      cryptoSeal reference (Block.zero _) 0 (List.replicate (2 ^ 63 - 1) 0) (2 ^ 63 - 1 + 24) =
        none := by
  refine ⟨by rw [List.length_replicate]; decide, cryptoSeal_oversized reference_aead _ _ _ ?_⟩
  rw [List.length_replicate]
  decide

end EdgarVPN
