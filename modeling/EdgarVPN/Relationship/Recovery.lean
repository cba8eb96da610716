import EdgarVPN.Relationship.Counters

/-!
# A handshake can always recover

One uninterrupted round (`handshakeRound`) is a start and an init on the initiator, the init handled
by the responder, and the response handled by the initiator. Whatever came before it, the round
succeeds: the order of the counters (`Ordered`) says that the responder has accepted no counter as
high as the next one, and that the pair either side derives from still has its secret.

**What is proved.** `handshakeRound_recovers`: from every state of a granted run the round ends with
both sides established on the same keys, crosswise, with an empty data channel each, and the first
packet either side seals is opened by the other.
-/

set_option autoImplicit false

namespace EdgarVPN

/-- One uninterrupted round of the handshake, or nothing if one of its steps fails. The pairs are
the ones drawn by the initiator and, if it was established, by the responder. -/
def handshakeRound (S : Sodium) (kpI kpR : KeyPair) (outLenI outLenR : Nat) (i s : Session) :
    Option (Session × Session) :=
  match sessionBuildInit S (sessionStartHandshake kpI i) outLenI with
  | (_, none) => none
  | (i, some init) =>
    match sessionHandleInit S kpR s init outLenR with
    | (_, none) => none
    | (s, some response) =>
      match sessionHandleResponse S i response with
      | (_, false) => none
      | (i, true) => some (i, s)

/-- The first packet the sender seals is opened by the receiver, whatever it carries (the AEAD must
take it, and its length must be one `session_seal_data` can return) and into whatever buffers hold
it. -/
def FirstDelivered (S : Sodium) (sender receiver : Session) : Prop :=
  ∀ (plaintext out : Bytes) (outLen : Nat), plaintext.length ≤ S.aeadMessageBytesMax →
    plaintext.length + sessionDataOverhead < ssizeRange →
    plaintext.length + sessionDataOverhead ≤ outLen → plaintext.length ≤ out.length →
    ∃ sender' message, sessionSealData S sender plaintext outLen = (sender', some message) ∧
      (sessionOpenData S receiver message out).plaintext? = some plaintext

/-- Both sides hold the same fresh data channel. -/
structure Recovered (S : Sodium) (i s : Session) : Prop where
  initiator : i.state = .established
  responder : s.state = .established
  keys : s.dataKeys = i.dataKeys.swap
  initiatorReset : i.DataReset
  responderReset : s.DataReset
  forward : FirstDelivered S i s
  backward : FirstDelivered S s i

variable {S : Sodium}

theorem replayCheckAndMark_reset {s : Session} (reset : s.DataReset) (counter : UInt64) :
    (replayCheckAndMark s counter).2 = true :=
  (replayCheckAndMark_accepts reset.seen counter).mpr
    ⟨Finset.notMem_empty _, fun _ hm => absurd hm (Finset.notMem_empty _)⟩

/-- A channel whose keys agree delivers its first packet. -/
theorem firstDelivered (aead : S.Aead) {sender receiver : Session}
    (hsender : sender.state = .established) (hreceiver : receiver.state = .established)
    (keys : receiver.dataKeys.rx = sender.dataKeys.tx) (reset : receiver.DataReset) :
    FirstDelivered S sender receiver := by
  intro plaintext out outLen message size room fits
  obtain ⟨packet, hpacket, hsealed⟩ := sessionSealData_isSome aead hsender message size room
  have hseal := (sessionSealPacket_eq_some hpacket).2
  refine ⟨_, _, hsealed, ?_⟩
  rw [sessionOpenData_sealed aead hreceiver (keys ▸ hseal) fits
    (replayCheckAndMark_reset reset sender.txCounter)]
  simp only [Opened.plaintext?, Option.map_some, List.take_left]

/-- **From an ordered state the round succeeds.** The next counter is above what the responder has
accepted, and each side derives from a pair whose secret it still holds. -/
theorem Ordered.round (aead : S.Aead) (kx : S.Kx) {keys : SessionKeys} {r : Relationship}
    (h : Ordered S keys r) {kpI kpR : KeyPair} (drawnI : kpI.Matches S) (drawnR : kpR.Matches S)
    {outLenI outLenR : Nat} (roomI : sessionHandshakeMsgLen ≤ outLenI)
    (roomR : sessionHandshakeMsgLen ≤ outLenR) :
    ∃ i s, handshakeRound S kpI kpR outLenI outLenR r.initiator.session r.responder.session =
        some (i, s) ∧ Recovered S i s := by
  obtain ⟨packet, hseal, hbuild⟩ := sessionBuildInit_isSome aead
    (s := sessionStartHandshake kpI r.initiator.session) h.initiatorRole rfl roomI
  -- the responder has seen no counter as high as this one
  have fresh : r.responder.session.haveSeenHandshake = true →
      r.responder.session.highestHandshakeCounterSeen < r.initiator.session.handshakeCounter := by
    intro hseen
    obtain ⟨m, hm, hcounter⟩ := h.seen hseen
    rw [← hcounter]
    exact (h.inits m hm).2.1
  have hread : sessionReadInit S r.responder.session (sessionMsgHandshakeInit :: packet) outLenR =
      some (kpI.pk, r.initiator.session.handshakeCounter) := by
    have hkey : r.responder.session.staticKeys.rx = r.initiator.session.staticKeys.tx := by
      rw [h.responderKeys, SessionKeys.swap_rx, h.initiatorKeys]
    exact sessionReadInit_sealed aead h.responderRole (hkey ▸ hseal) roomR fresh
  obtain ⟨hready, hreset⟩ := h.reattempt_ready drawnR
  obtain ⟨data, hderiveI, hderiveR⟩ := cryptoDeriveSessionKeys_agree kx drawnI hready
  rw [← h.responderRole, ← reattempt_role kpR r.responder.session] at hderiveR
  obtain ⟨packet', hseal', hanswer⟩ := sessionHandleInit_isSome aead hread hderiveR
  rw [h.responderKeys, SessionKeys.swap_tx, ← h.initiatorKeys] at hseal'
  have hawait := sessionReadResponse_sealed aead
    (s := (sessionStartHandshake kpI r.initiator.session).built) h.initiatorRole rfl hseal'
  rw [← h.initiatorRole] at hderiveI
  have hcomplete := sessionHandleResponse_isSome hawait hderiveI
  refine ⟨(sessionStartHandshake kpI r.initiator.session).built.completed data,
    (r.responder.session.reattempt kpR).answered data.swap r.initiator.session.handshakeCounter,
    ?_, ?_⟩
  · simp only [handshakeRound, hbuild, hanswer, hcomplete]
  · exact {
      initiator := rfl
      responder := rfl
      keys := rfl
      initiatorReset := start_dataReset kpI r.initiator.session
      responderReset := hreset
      forward := firstDelivered aead rfl rfl rfl hreset
      backward := firstDelivered aead rfl rfl rfl (start_dataReset kpI r.initiator.session) }

/-- **A handshake can always recover.** From every state that a relationship reaches in a granted
run, with any calls, any delivery and restarts of either side, one uninterrupted round succeeds, and
leaves both sides with the same fresh data channel. A run is granted when nothing is forged under
the static keys, the pairs drawn can be drawn, a restarted initiator's seed is above its counters,
and no counter wraps (`Move.Granted`); the round needs pairs that can be drawn and buffers that hold
a handshake message. -/
theorem handshakeRound_recovers (aead : S.Aead) (kx : S.Kx) {ids : Identities}
    (initiator : ids.initiator.Matches S) (responder : ids.responder.Matches S)
    {timeI timeR : UInt64} {kpI kpR : KeyPair} {r : Relationship}
    (started : r.Started S ids timeI timeR kpI kpR)
    (pairI : kpI.Matches S) (pairR : kpR.Matches S) (moves : List Move)
    (granted : Runs.Admitted (Relationship.step S ids) (fun r m => m.Granted S r) r moves)
    {kpI' kpR' : KeyPair} (drawnI : kpI'.Matches S) (drawnR : kpR'.Matches S)
    {outLenI outLenR : Nat} (roomI : sessionHandshakeMsgLen ≤ outLenI)
    (roomR : sessionHandshakeMsgLen ≤ outLenR) :
    ∃ i s, handshakeRound S kpI' kpR' outLenI outLenR
        (moves.foldl (Relationship.step S ids) r).initiator.session
        (moves.foldl (Relationship.step S ids) r).responder.session = some (i, s) ∧
      Recovered S i s := by
  obtain ⟨keys, derive⟩ := Identities.derive kx initiator responder
  have ordered := ordered_run aead derive (Ordered.started derive pairI pairR started) granted
  exact ordered.round aead kx drawnI drawnR roomI roomR

/-- A handshake, a packet, restarts of both sides, the first init replayed to the restarted
responder, and an attempt of the restarted initiator that never arrives. -/
def recoveryMoves : List Move :=
  [.initiate (referencePair 5),
    .responder (.handleInit (referencePair 9) (sampleInit 100 (referencePair 5)) 57),
    .initiator (.handleResponse (sampleResponse 100 (referencePair 4))),
    .initiator (.sealData [1, 2, 3] 40),
    .restartResponder 300 (referencePair 10),
    .responder (.handleInit (referencePair 11) (sampleInit 100 (referencePair 5)) 57),
    .restartInitiator 400 (referencePair 6),
    .initiate (referencePair 7)]

/-- A new round after `recoveryMoves`, in which the responder is ahead of the initiator. -/
theorem handshakeRound_recovers_recoveryMoves :
    (recoveryMoves.foldl (Relationship.step reference sampleIdentities)
      sampleStart).responder.session.state = .established ∧
    ∃ i s, handshakeRound reference (referencePair 2) (referencePair 12) 57 57
        (recoveryMoves.foldl (Relationship.step reference sampleIdentities)
          sampleStart).initiator.session
        (recoveryMoves.foldl (Relationship.step reference sampleIdentities)
          sampleStart).responder.session = some (i, s) ∧
      Recovered reference i s :=
  ⟨by decide +kernel, handshakeRound_recovers reference_aead reference_kx (by decide +kernel)
    (by decide +kernel) sampleStart_started (by decide +kernel) (by decide +kernel) recoveryMoves
    (by decide +kernel) (by decide +kernel) (by decide +kernel) (by decide) (by decide)⟩

end EdgarVPN
