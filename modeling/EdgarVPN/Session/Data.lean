import EdgarVPN.Session.Replay

/-!
# `src/session.c`: the data channel

`session_seal_data` and `session_open_data`. Opening decrypts straight into the caller's buffer
before the replay check, so the model returns the buffer as well as the session: on a replay the
buffer is overwritten although the call returns -1.
-/

set_option autoImplicit false

namespace EdgarVPN

variable (S : Sodium)

/-- What `session_seal_data` does up to its call of `crypto_seal`: the packet sealed. -/
def sessionSealPacket (s : Session) (plaintext : Bytes) (outLen : Nat) : Option Bytes :=
  if s.state ≠ .established then
    none
  else if outLen < (plaintext.length + sessionDataOverhead) % 2 ^ 64 then
    none
  else
    cryptoSeal S s.dataKeys.tx s.txCounter plaintext (outLen - 1)

/-- `session_seal_data`: the message written to `out`. The length returned is an `ssize_t`, one more
than the one `crypto_seal` returned: at the end of its range it overflows, after the counter was
spent, and the message is lost to every caller. -/
def sessionSealData (s : Session) (plaintext : Bytes) (outLen : Nat) : Session × Option Bytes :=
  match sessionSealPacket S s plaintext outLen with
  | none => (s, none)
  | some packet =>
    ({ s with txCounter := s.txCounter + 1 },
      if 1 + packet.length < ssizeRange then some (sessionMsgData :: packet) else none)

/-- What `session_open_data` leaves: the session, the caller's buffer, and the value returned. -/
structure Opened where
  session : Session
  out : Bytes
  ret : Option Nat
deriving DecidableEq

/-- `session_open_data`. -/
def sessionOpenData (s : Session) (input out : Bytes) : Opened :=
  if s.state ≠ .established then
    ⟨s, out, none⟩
  else
    match input with
    | [] => ⟨s, out, none⟩
    | type :: payload =>
      if type ≠ sessionMsgData then
        ⟨s, out, none⟩
      else
        match cryptoOpen S s.dataKeys.rx payload out.length with
        | none => ⟨s, cryptoOpenOut S s.dataKeys.rx payload out, none⟩
        | some (plaintext, counter) =>
          let out := plaintext ++ out.drop plaintext.length
          match replayCheckAndMark s counter with
          | (s, false) => ⟨s, out, none⟩
          | (s, true) => ⟨s, out, some plaintext.length⟩

/-- The plaintext of a packet that `session_open_data` accepts. -/
def Opened.plaintext? (o : Opened) : Option Bytes := o.ret.map o.out.take

/-! ## What each function can do -/

variable {S}

/-- Everything `session_seal_data` can do. -/
inductive SealOutcome (S : Sodium) (s : Session) (plaintext : Bytes) (outLen : Nat) :
    Session × Option Bytes → Prop
  | refused : SealOutcome S s plaintext outLen (s, none)
  | unreturned {packet : Bytes} (established : s.state = .established)
      (sealed : cryptoSeal S s.dataKeys.tx s.txCounter plaintext (outLen - 1) = some packet)
      (long : ssizeRange ≤ 1 + packet.length) :
      SealOutcome S s plaintext outLen ({ s with txCounter := s.txCounter + 1 }, none)
  | sealed {packet : Bytes} (established : s.state = .established)
      (sealed : cryptoSeal S s.dataKeys.tx s.txCounter plaintext (outLen - 1) = some packet) :
      SealOutcome S s plaintext outLen
        ({ s with txCounter := s.txCounter + 1 }, some (sessionMsgData :: packet))

/-- A packet is sealed by an established session only, with `crypto_seal` under its data key. -/
theorem sessionSealPacket_eq_some {s : Session} {plaintext packet : Bytes} {outLen : Nat}
    (h : sessionSealPacket S s plaintext outLen = some packet) : s.state = .established ∧
      cryptoSeal S s.dataKeys.tx s.txCounter plaintext (outLen - 1) = some packet := by
  unfold sessionSealPacket at h
  split at h
  · cases h
  · next hstate =>
    split at h
    · cases h
    · exact ⟨not_not.mp hstate, h⟩

theorem sessionSealData_outcome (s : Session) (plaintext : Bytes) (outLen : Nat) :
    SealOutcome S s plaintext outLen (sessionSealData S s plaintext outLen) := by
  unfold sessionSealData
  split
  · exact .refused
  · next packet hpacket =>
    obtain ⟨established, sealed⟩ := sessionSealPacket_eq_some hpacket
    split
    · exact .sealed established sealed
    · next long => exact .unreturned established sealed (Nat.le_of_not_lt long)

/-- Everything `session_open_data` can do. A refusal leaves the session; it may not leave the
buffer. -/
inductive OpenOutcome (S : Sodium) (s : Session) (input out : Bytes) : Opened → Prop
  | refused {out' : Bytes} : OpenOutcome S s input out ⟨s, out', none⟩
  | opened {payload plaintext : Bytes} {counter : UInt64} (established : s.state = .established)
      (data : input = sessionMsgData :: payload)
      (opened : cryptoOpen S s.dataKeys.rx payload out.length = some (plaintext, counter))
      (fresh : (replayCheckAndMark s counter).2 = true) :
      OpenOutcome S s input out
        ⟨(replayCheckAndMark s counter).1, plaintext ++ out.drop plaintext.length,
          some plaintext.length⟩

theorem sessionOpenData_outcome (s : Session) (input out : Bytes) :
    OpenOutcome S s input out (sessionOpenData S s input out) := by
  unfold sessionOpenData
  split
  · exact .refused
  · next hstate =>
    rw [not_not] at hstate
    cases input with
    | nil => exact .refused
    | cons type payload =>
      dsimp only
      split
      · exact .refused
      · next htype =>
        rw [not_not] at htype
        split
        · exact .refused
        · next plaintext counter hopen =>
          split
          · next s' hcheck =>
            have hs : s' = s := by
              rw [← replayCheckAndMark_rejects (congrArg Prod.snd hcheck), hcheck]
            rw [hs]
            exact .refused
          · next s' hcheck =>
            have hopened : OpenOutcome S s (type :: payload) out _ :=
              .opened hstate (by rw [htype]) hopen (by rw [hcheck])
            rwa [hcheck] at hopened

/-- What a call of `session_seal_data` that returned a message has done. -/
theorem sessionSealData_eq_some {s s' : Session} {plaintext message : Bytes} {outLen : Nat}
    (h : sessionSealData S s plaintext outLen = (s', some message)) :
    s' = { s with txCounter := s.txCounter + 1 } := by
  have outcome := sessionSealData_outcome (S := S) s plaintext outLen
  rw [h] at outcome
  cases outcome with
  | sealed => rfl

/-- What `session_seal_data` returns is a data message. -/
theorem sessionSealData_message {s s' : Session} {plaintext message : Bytes} {outLen : Nat}
    (h : sessionSealData S s plaintext outLen = (s', some message)) :
    ∃ packet, message = sessionMsgData :: packet := by
  have outcome := sessionSealData_outcome (S := S) s plaintext outLen
  rw [h] at outcome
  cases outcome with
  | sealed => exact ⟨_, rfl⟩

/-- Whatever `session_seal_data` returns, the data counter is all it may have moved. -/
theorem sessionSealData_session (s : Session) (plaintext : Bytes) (outLen : Nat) :
    ∃ txCounter, (sessionSealData S s plaintext outLen).1 = { s with txCounter := txCounter } := by
  have outcome := sessionSealData_outcome (S := S) s plaintext outLen
  generalize sessionSealData S s plaintext outLen = result at outcome
  cases outcome with
  | refused => exact ⟨s.txCounter, rfl⟩
  | unreturned => exact ⟨_, rfl⟩
  | sealed => exact ⟨_, rfl⟩

/-- What a call of `session_open_data` that returned a plaintext has done. -/
theorem sessionOpenData_eq_some {s : Session} {input out plaintext : Bytes}
    (h : (sessionOpenData S s input out).plaintext? = some plaintext) :
    s.state = .established ∧ ∃ payload opened counter, input = sessionMsgData :: payload ∧
      authenticates S s.dataKeys.rx payload = some (opened, counter) ∧
      (replayCheckAndMark s counter).2 = true ∧
      (sessionOpenData S s input out).session = (replayCheckAndMark s counter).1 := by
  have outcome := sessionOpenData_outcome (S := S) s input out
  generalize sessionOpenData S s input out = result at outcome h
  cases outcome with
  | refused => cases h
  | opened established data opened fresh =>
    exact ⟨established, _, _, _, data, cryptoOpen_payload opened, fresh, rfl⟩

/-- A session that is established with a key that opens the payload is all that opens a packet. -/
theorem sessionOpenData_unopened {s : Session} {input out : Bytes}
    (h : s.state = .established → cryptoOpen S s.dataKeys.rx input.tail out.length = none) :
    (sessionOpenData S s input out).plaintext? = none := by
  have outcome := sessionOpenData_outcome (S := S) s input out
  generalize sessionOpenData S s input out = result at outcome
  cases outcome with
  | refused => rfl
  | opened established data opened =>
    have hnone := h established
    rw [data, List.tail_cons, opened] at hnone
    cases hnone

/-- A call of `session_open_data` that returned no plaintext leaves the session. -/
theorem sessionOpenData_eq_none {s : Session} {input out : Bytes}
    (h : (sessionOpenData S s input out).plaintext? = none) :
    (sessionOpenData S s input out).session = s := by
  have outcome := sessionOpenData_outcome (S := S) s input out
  generalize sessionOpenData S s input out = result at outcome h
  cases outcome with
  | refused => rfl
  | opened => cases h

/-- On an established session a packet is sealed into a buffer that is large enough, where the AEAD
takes the plaintext and `crypto_seal` can return the length. -/
theorem sessionSealPacket_isSome (aead : S.Aead) {s : Session}
    (established : s.state = .established)
    {plaintext : Bytes} {outLen : Nat} (message : plaintext.length ≤ S.aeadMessageBytesMax)
    (size : plaintext.length + cryptoPacketOverhead < ssizeRange)
    (room : plaintext.length + sessionDataOverhead ≤ outLen) :
    ∃ packet, sessionSealPacket S s plaintext outLen = some packet ∧
      packet.length = plaintext.length + cryptoPacketOverhead := by
  have hmod := Nat.mod_le (plaintext.length + sessionDataOverhead) (2 ^ 64)
  have hover : sessionDataOverhead = 1 + cryptoPacketOverhead := rfl
  have hroom : plaintext.length + cryptoPacketOverhead ≤ outLen - 1 := by omega
  obtain ⟨packet, hseal⟩ := cryptoSeal_isSome aead s.dataKeys.tx s.txCounter message size hroom
  refine ⟨packet, ?_, cryptoSeal_length aead hseal⟩
  rw [sessionSealPacket, if_neg (not_not_intro established), if_neg (by omega), hseal]

/-- Sealing succeeds where, besides, the message's length can be returned. -/
theorem sessionSealData_isSome (aead : S.Aead) {s : Session} (established : s.state = .established)
    {plaintext : Bytes} {outLen : Nat} (message : plaintext.length ≤ S.aeadMessageBytesMax)
    (size : plaintext.length + sessionDataOverhead < ssizeRange)
    (room : plaintext.length + sessionDataOverhead ≤ outLen) :
    ∃ packet, sessionSealPacket S s plaintext outLen = some packet ∧
      sessionSealData S s plaintext outLen =
        ({ s with txCounter := s.txCounter + 1 }, some (sessionMsgData :: packet)) := by
  have hover : sessionDataOverhead = 1 + cryptoPacketOverhead := rfl
  obtain ⟨packet, hpacket, hlen⟩ :=
    sessionSealPacket_isSome aead established message (by omega) room
  refine ⟨packet, hpacket, ?_⟩
  simp only [sessionSealData, hpacket]
  rw [if_pos (by omega)]

/-- The daemon's buffer is large enough for every packet it reads. -/
theorem sessionSealData_packet (aead : S.Aead) {s : Session} (established : s.state = .established)
    {plaintext : Bytes} (size : plaintext.length ≤ maxPacketSize) :
    ∃ packet, sessionSealPacket S s plaintext sealedBufSize = some packet ∧
      sessionSealData S s plaintext sealedBufSize =
        ({ s with txCounter := s.txCounter + 1 }, some (sessionMsgData :: packet)) := by
  have hmax : maxPacketSize = 2048 := rfl
  have hover : sessionDataOverhead = 25 := rfl
  have hbuf : sealedBufSize = sessionDataOverhead + maxPacketSize := rfl
  have hrange : ssizeRange = 2 ^ 63 := rfl
  have hmessage := aead.messageBytesMax_large
  exact sessionSealData_isSome aead established (by omega) (by omega) (by omega)

/-- Opening a packet sealed under the receive key, with a counter the window accepts, into a buffer
that holds the plaintext. -/
theorem sessionOpenData_sealed (aead : S.Aead) {s : Session} (established : s.state = .established)
    {counter : UInt64} {plaintext packet out : Bytes} {sealLen : Nat}
    (sealed : cryptoSeal S s.dataKeys.rx counter plaintext sealLen = some packet)
    (room : plaintext.length ≤ out.length) (fresh : (replayCheckAndMark s counter).2 = true) :
    sessionOpenData S s (sessionMsgData :: packet) out =
      ⟨(replayCheckAndMark s counter).1, plaintext ++ out.drop plaintext.length,
        some plaintext.length⟩ := by
  have hopen := cryptoOpen_cryptoSeal aead sealed room
  simp only [sessionOpenData, established, ne_eq, not_true_eq_false, if_false, hopen]
  split
  · next s' hcheck => rw [hcheck] at fresh; cases fresh
  · next s' hcheck => rw [hcheck]

/-- Opening a packet sealed under the receive key, with a counter the window refuses: the buffer is
overwritten, and nothing else happens. -/
theorem sessionOpenData_replayed (aead : S.Aead) {s : Session}
    (established : s.state = .established) {counter : UInt64} {plaintext packet out : Bytes}
    {sealLen : Nat} (sealed : cryptoSeal S s.dataKeys.rx counter plaintext sealLen = some packet)
    (room : plaintext.length ≤ out.length) (stale : (replayCheckAndMark s counter).2 = false) :
    sessionOpenData S s (sessionMsgData :: packet) out =
      ⟨s, plaintext ++ out.drop plaintext.length, none⟩ := by
  have hopen := cryptoOpen_cryptoSeal aead sealed room
  have hsame := replayCheckAndMark_rejects stale
  simp only [sessionOpenData, established, ne_eq, not_true_eq_false, if_false, hopen]
  split
  · next s' hcheck =>
    rw [hcheck] at hsame
    cases hsame
    rfl
  · next s' hcheck => rw [hcheck] at stale; cases stale

end EdgarVPN
