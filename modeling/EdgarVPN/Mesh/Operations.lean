import EdgarVPN.Daemon.Routes
import EdgarVPN.Daemon.Sessions
import EdgarVPN.Relationship.System

/-!
# The session calls of an event

`Relationship` speaks of calls on two sessions, `World` of events of a daemon that has many. This
module says which calls an event of the loop makes on the session of one peer: `Daemon.ops` repeats
the decisions of the loop (routing, attribution, the search for a responder, the timers) and lists
what it then calls, as `Op`s. An `Op` is a call, the two calls of `initiate_handshake`, or the
`session_init` of a process that starts.

**What is proved.** `Daemon.step_ran`: the session that an event leaves a peer with is the one its
operations leave, and what those operations seal and open, keepalives apart, is what the event
forwarded from the TUN device to the peer, and what it wrote to the device for it.
`Daemon.step_writes`: an event writes to the device what it delivers for its peers, and nothing
else.
-/

set_option autoImplicit false

namespace EdgarVPN

/-! ## Operations -/

/-- What a process does with a session. -/
inductive Op where
  | call (c : Call)
  /-- The end of `initiate_handshake`: a new pair and its init. -/
  | initiate (kp : KeyPair)
  /-- `session_init`, in a process that starts. -/
  | restart (time : UInt64) (kp : KeyPair)
deriving DecidableEq

variable (S : Sodium)

/-- The session after an operation, of a process with this long-term pair. -/
def Traced.op (role : CryptoRole) (own : KeyPair) (peer : PublicKey) (t : Traced) : Op → Traced
  | .call c => t.call S c
  | .initiate kp => (t.call S (.startHandshake kp)).call S (.buildInit sealedBufSize)
  | .restart time kp => t.restart S role own peer time kp

/-! ## The operations of the loop's branches -/

/-- A packet routed to this peer. -/
def PeerSession.forwardOps (packet : Bytes) (ps : PeerSession) : List Op :=
  if ps.session.state ≠ .established then [] else [.call (.sealData packet sealedBufSize)]

/-- A datagram from this peer's address. -/
def PeerSession.receiveOps (datagram : Bytes) (kp : KeyPair) (ps : PeerSession) : List Op :=
  let type := datagram.getD 0 0
  if type = sessionMsgHandshakeInit ∧ ps.config.role = .responder then
    [.call (.handleInit kp datagram sessionHandshakeMsgLen)]
  else if type = sessionMsgHandshakeResponse ∧ ps.config.role = .initiator then
    [.call (.handleResponse datagram)]
  else if type = sessionMsgData then
    [.call (.openData datagram (List.replicate maxPacketSize 0))]
  else
    []

/-- An attempt: nothing if the address is not known and does not resolve. -/
def PeerSession.attemptOps (env : Attempt) (ps : PeerSession) : List Op :=
  if ps.addrResolved ∨ env.resolved.isSome then [.initiate env.kp] else []

/-- The keepalive of a timer pass. -/
def PeerSession.keepaliveOps (now : UInt64) (ps : PeerSession) : List Op :=
  if ps.addrResolved ∧ ps.session.state = .established ∧
      now - ps.lastTxActivityMs ≥ keepaliveIntervalMs then
    [.call (.sealData [] sealedBufSize)]
  else
    []

/-- The timeout and the key rotation of a timer pass. -/
def PeerSession.reconnectOps (now : UInt64) (env : Attempt) (ps : PeerSession) : List Op :=
  if ps.config.role = .initiator ∧ now - ps.lastRxActivityMs ≥ sessionTimeoutMs then
    ps.attemptOps env
  else if ps.config.role = .initiator ∧ ps.session.state = .established ∧
      now - ps.lastHandshakeCompletedMs ≥ keyRotationIntervalMs then
    ps.attemptOps env
  else
    []

/-- This peer's part of a timer pass. -/
def PeerSession.tickOps (i : Nat) (now : UInt64) (env : Tick) (ps : PeerSession) : List Op :=
  ps.keepaliveOps now ++
    (ps.keepalive S i now env.keepaliveSent).1.reconnectOps now env.toAttempt

/-- Whether the search for a responder comes as far as the peer at index `i`. -/
def Daemon.searches (i : Nat) (datagram : Bytes) (kps : Nat → KeyPair) (d : Daemon) : Bool :=
  (findResponderForInit S kps datagram sessionHandshakeMsgLen 0 (d.peers.take i)).2.isNone

/-- A datagram, for the peer at index `i`. -/
def Daemon.udpOps (i : Nat) (ps : PeerSession) (datagram : Bytes) (source : SockAddr)
    (kps : Nat → KeyPair) (d : Daemon) : List Op :=
  if datagram.length < 1 then
    []
  else
    match findPeerByAddr d.peers source with
    | none =>
      if datagram.getD 0 0 = sessionMsgHandshakeInit ∧ ps.config.role = .responder ∧
          d.searches S i datagram kps then
        [.call (.handleInit (kps i) datagram sessionHandshakeMsgLen)]
      else
        []
    | some j => if j = i then ps.receiveOps datagram (kps i) else []

/-- **The operations of an event** on the session of the peer at index `i`. -/
def Daemon.ops (host : Endian) (i : Nat) (d : Daemon) (e : Event) : List Op :=
  match d.peers[i]? with
  | none => []
  | some ps =>
    match e with
    | .tun packet _ _ =>
      if routingRoute host (d.peers.map PeerSession.config) (packet.take maxPacketSize) =
          some i then
        ps.forwardOps (packet.take maxPacketSize)
      else
        []
    | .udp datagram source _ kps _ _ =>
      d.udpOps S i ps (datagram.take sealedBufSize) source kps
    | .timer now env => ps.tickOps S i now (env i)

/-- The operations of a peer's start. -/
def startOps (boot : Boot) (config : ConfigPeer) : List Op :=
  .restart boot.time boot.initialPair ::
    match config.role with
    | .initiator => if boot.resolved.isSome then [.initiate boot.kp] else []
    | .responder => []

/-! ## The packets of the branches -/

/-- The packet of a `tun_write`. -/
def Effect.wrote? : Effect → Option Bytes
  | .wrote packet _ => some packet
  | _ => none

/-- The packets an event reads from the TUN device and seals for the peer at index `i`: at most
one. -/
def Daemon.forwards (host : Endian) (i : Nat) (d : Daemon) : Event → List Bytes
  | .tun packet _ _ =>
    match d.peers[i]? with
    | none => []
    | some ps =>
      if routingRoute host (d.peers.map PeerSession.config) (packet.take maxPacketSize) = some i ∧
          ps.session.state = .established then
        [packet.take maxPacketSize]
      else
        []
  | _ => []

/-- The packets an event writes to the TUN device for the peer at index `i`: at most one. -/
def Daemon.delivers (i : Nat) (d : Daemon) : Event → List Bytes
  | .udp datagram source clock kps sendOk tunOk =>
    match findPeerByAddr d.peers source, d.peers[i]? with
    | some j, some ps =>
      if j = i ∧ 1 ≤ (datagram.take sealedBufSize).length then
        (ps.receive S i (datagram.take sealedBufSize) clock (kps i) sendOk tunOk).2.filterMap
          Effect.wrote?
      else
        []
    | _, _ => []
  | _ => []

/-- The packet a session sealed; a keepalive is none. -/
def Act.sealedPacket? : Act → Option Bytes
  | .sealedData _ _ [] _ => none
  | .sealedData _ _ plaintext _ => some plaintext
  | _ => none

/-- The packet a session opened; a keepalive is none. -/
def Act.openedPacket? : Act → Option Bytes
  | .openedData _ _ [] => none
  | .openedData _ _ plaintext => some plaintext
  | _ => none

/-- The packets sealed, in order. -/
def sealedPackets (log : List Act) : List Bytes := log.filterMap Act.sealedPacket?

/-- The packets opened, in order. -/
def openedPackets (log : List Act) : List Bytes := log.filterMap Act.openedPacket?

/-! ## What a session does, and the packets in it -/

variable {S}

/-- From `t` to `t'`: the session that is left, and the packets sealed and opened on the way. -/
structure Ran (t t' : Traced) (session : Session) (sealed opened : List Bytes) : Prop where
  session : t'.session = session
  sealed : sealedPackets t'.log = sealedPackets t.log ++ sealed
  opened : openedPackets t'.log = openedPackets t.log ++ opened

section Ran

variable {t t' t'' : Traced} {s s' : Session} {sealed opened sealed' opened' : List Bytes}

theorem Ran.refl (t : Traced) : Ran t t t.session [] [] :=
  ⟨rfl, (List.append_nil _).symm, (List.append_nil _).symm⟩

theorem Ran.trans (h : Ran t t' s sealed opened) (h' : Ran t' t'' s' sealed' opened') :
    Ran t t'' s' (sealed ++ sealed') (opened ++ opened') := by
  refine ⟨h'.session, ?_, ?_⟩
  · rw [h'.sealed, h.sealed, List.append_assoc]
  · rw [h'.opened, h.opened, List.append_assoc]

/-- A call leaves what its log entries say. -/
theorem Ran.call (t : Traced) (c : Call) :
    Ran t (t.call S c) (sessionCall S t.session c) (sealedPackets (sessionActs S t.session c))
      (openedPackets (sessionActs S t.session c)) :=
  ⟨rfl, List.filterMap_append, List.filterMap_append⟩

end Ran

/-- A call of the handshake: it seals and opens no packet. -/
def Call.OfHandshake : Call → Prop
  | .sealData .. | .openData .. => False
  | .startHandshake _ | .buildInit _ | .handleInit .. | .handleResponse _ => True

theorem Did.packets {s s' : Session} {c : Call} {acts : List Act} (did : Did S s c s' acts)
    (handshake : c.OfHandshake) : sealedPackets acts = [] ∧ openedPackets acts = [] := by
  have redrawn : ∀ kp, sealedPackets (s.redrawn kp) = [] ∧ openedPackets (s.redrawn kp) = [] := by
    intro kp
    unfold Session.redrawn
    split <;> exact ⟨rfl, rfl⟩
  cases did with
  | sealed => exact handshake.elim
  | opened => exact handshake.elim
  | underived => exact redrawn _
  | unsealed => exact redrawn _
  | @answered kp =>
    constructor
    · exact List.filterMap_append.trans (by rw [← sealedPackets, (redrawn kp).1]; rfl)
    · exact List.filterMap_append.trans (by rw [← openedPackets, (redrawn kp).2]; rfl)
  | _ => exact ⟨rfl, rfl⟩

theorem Ran.handshake (t : Traced) {c : Call} (handshake : c.OfHandshake) :
    Ran t (t.call S c) (sessionCall S t.session c) [] [] := by
  have packets := (sessionCall_did (S := S) t.session c).packets handshake
  have ran := Ran.call (S := S) t c
  rwa [packets.1, packets.2] at ran

/-- Sealing a packet, or a keepalive, that the buffer has room for. -/
theorem Ran.sealData (aead : S.Aead) (t : Traced) (established : t.session.state = .established)
    {plaintext : Bytes} (size : plaintext.length ≤ maxPacketSize) :
    Ran t (t.call S (.sealData plaintext sealedBufSize))
      (sessionSealData S t.session plaintext sealedBufSize).1
      (if plaintext = [] then [] else [plaintext]) [] := by
  obtain ⟨packet, hpacket, hseal⟩ := sessionSealData_packet aead established size
  have ran := Ran.call (S := S) t (.sealData plaintext sealedBufSize)
  simp only [sessionActs, hpacket] at ran
  rw [hseal]
  cases plaintext with
  | nil => exact ⟨hseal ▸ rfl, ran.sealed, ran.opened⟩
  | cons b rest => exact ⟨hseal ▸ rfl, ran.sealed, ran.opened⟩

/-- Opening a packet, as the UDP branch does. -/
theorem Ran.openData (t : Traced) (datagram out : Bytes) :
    Ran t (t.call S (.openData datagram out)) (sessionOpenData S t.session datagram out).session []
      (match (sessionOpenData S t.session datagram out).plaintext? with
        | none => []
        | some [] => []
        | some plaintext => [plaintext]) := by
  have ran := Ran.call (S := S) t (.openData datagram out)
  have unsealed : sealedPackets (sessionActs S t.session (.openData datagram out)) = [] := by
    simp only [sessionActs]
    split <;> rfl
  rw [unsealed] at ran
  refine ⟨rfl, ran.sealed, ran.opened.trans (congrArg _ ?_)⟩
  cases hplain : (sessionOpenData S t.session datagram out).plaintext? with
  | none =>
    simp only [sessionActs, hplain]
    rfl
  | some plaintext =>
    simp only [sessionActs, hplain]
    cases plaintext <;> rfl

/-! ## The branches -/

section Branches

variable {role : CryptoRole} {own : KeyPair} {peer : PublicKey} {t : Traced} {ps : PeerSession}

theorem forward_ran (aead : S.Aead) (at_ : t.session = ps.session) (i : Nat) {packet : Bytes}
    (size : packet.length ≤ maxPacketSize) (some_ : packet ≠ []) (clock : UInt64) (sendOk : Bool) :
    Ran t ((ps.forwardOps packet).foldl (Traced.op S role own peer) t)
      (ps.forward S i packet clock sendOk).1.session
      (if ps.session.state = .established then [packet] else []) [] := by
  unfold PeerSession.forwardOps PeerSession.forward
  by_cases established : ps.session.state = .established
  · rw [if_neg (not_not_intro established), if_neg (not_not_intro established),
      if_pos established]
    have ran := Ran.sealData aead t (at_ ▸ established) size
    rw [if_neg some_, at_] at ran
    refine ⟨ran.session.trans ?_, ran.sealed, ran.opened⟩
    cases hseal : sessionSealData S ps.session packet sealedBufSize with
    | mk s message =>
      cases message with
      | none => rfl
      | some message => cases sendOk <;> rfl
  · rw [if_pos established, if_pos established, if_neg established]
    have ran := Ran.refl t
    rwa [at_] at ran

theorem receive_ran (at_ : t.session = ps.session) (i : Nat) (datagram : Bytes) (clock : UInt64)
    (kp : KeyPair) (sendOk tunOk : Bool) :
    Ran t ((ps.receiveOps datagram kp).foldl (Traced.op S role own peer) t)
      (ps.receive S i datagram clock kp sendOk tunOk).1.session []
      ((ps.receive S i datagram clock kp sendOk tunOk).2.filterMap Effect.wrote?) := by
  unfold PeerSession.receiveOps PeerSession.receive
  dsimp only
  split
  · have ran := Ran.handshake (S := S) t (c := .handleInit kp datagram sessionHandshakeMsgLen)
      trivial
    simp only [sessionCall, at_] at ran
    unfold PeerSession.receiveInit
    cases hinit : sessionHandleInit S kp ps.session datagram sessionHandshakeMsgLen with
    | mk s response =>
      rw [hinit] at ran
      cases response with
      | none => exact ran
      | some response => cases sendOk <;> exact ran
  · split
    · have ran := Ran.handshake (S := S) t (c := .handleResponse datagram) trivial
      simp only [sessionCall, at_] at ran
      unfold PeerSession.receiveResponse
      cases hresponse : sessionHandleResponse S ps.session datagram with
      | mk s accepted =>
        rw [hresponse] at ran
        cases accepted <;> exact ran
    · split
      · have ran := Ran.openData (S := S) t datagram (List.replicate maxPacketSize 0)
        rw [at_] at ran
        unfold PeerSession.receiveData
        dsimp only
        cases hplain : (sessionOpenData S ps.session datagram
            (List.replicate maxPacketSize 0)).plaintext? with
        | none =>
          rw [hplain] at ran
          exact ran
        | some plaintext =>
          rw [hplain] at ran
          cases plaintext with
          | nil => exact ran
          | cons b rest => cases tunOk <;> exact ran
      · have ran := Ran.refl t
        rwa [at_] at ran

theorem attempt_ran (at_ : t.session = ps.session) (now : UInt64) (env : Attempt) :
    Ran t ((ps.attemptOps env).foldl (Traced.op S role own peer) t)
      (initiateHandshake S now env ps).1.session [] [] := by
  have sends : ∀ ps' : PeerSession, ps'.session = ps.session →
      Ran t (t.op S role own peer (.initiate env.kp)) (ps'.sendInit S now env).1.session [] [] := by
    intro ps' hsession
    have started := Ran.handshake (S := S) t (c := .startHandshake env.kp) trivial
    have built := Ran.handshake (S := S) (t.call S (.startHandshake env.kp))
      (c := .buildInit sealedBufSize) trivial
    have ran := started.trans built
    refine ⟨ran.session.trans ?_, ran.sealed, ran.opened⟩
    simp only [sessionCall, Traced.call, at_, PeerSession.sendInit, hsession]
    cases sessionBuildInit S (sessionStartHandshake env.kp ps.session) sealedBufSize with
    | mk s message => cases message <;> rfl
  unfold PeerSession.attemptOps initiateHandshake
  by_cases known : ps.addrResolved = true
  · rw [if_pos (.inl known), if_pos known]
    exact sends ps rfl
  · rw [if_neg known]
    cases hresolved : env.resolved with
    | none =>
      rw [if_neg (fun h => h.elim known (by simp))]
      have ran := Ran.refl t
      rwa [at_] at ran
    | some ip =>
      rw [if_pos (.inr rfl)]
      exact sends _ rfl

theorem keepalive_ran (aead : S.Aead) (at_ : t.session = ps.session) (i : Nat) (now : UInt64)
    (sendOk : Bool) :
    Ran t ((ps.keepaliveOps now).foldl (Traced.op S role own peer) t)
      (ps.keepalive S i now sendOk).1.session [] [] := by
  unfold PeerSession.keepaliveOps PeerSession.keepalive
  split
  · next h =>
    have size : ([] : Bytes).length ≤ maxPacketSize := Nat.zero_le _
    have ran := Ran.sealData aead t (at_ ▸ h.2.1) size
    rw [if_pos rfl, at_] at ran
    refine ⟨ran.session.trans ?_, ran.sealed, ran.opened⟩
    cases sessionSealData S ps.session [] sealedBufSize with
    | mk s message =>
      cases message with
      | none => rfl
      | some message => cases sendOk <;> rfl
  · have ran := Ran.refl t
    rwa [at_] at ran

theorem reconnect_ran (at_ : t.session = ps.session) (now : UInt64) (env : Attempt) :
    Ran t ((ps.reconnectOps now env).foldl (Traced.op S role own peer) t)
      (ps.reconnect S now env).1.session [] [] := by
  unfold PeerSession.reconnectOps PeerSession.reconnect
  split
  · exact attempt_ran at_ now env
  · split
    · exact attempt_ran at_ now env
    · have ran := Ran.refl t
      rwa [at_] at ran

theorem tick_ran (aead : S.Aead) (at_ : t.session = ps.session) (i : Nat) (now : UInt64)
    (env : Tick) :
    Ran t ((ps.tickOps S i now env).foldl (Traced.op S role own peer) t)
      (ps.tick S i now env).1.session [] [] := by
  have kept : Ran t ((ps.keepaliveOps now).foldl (Traced.op S role own peer) t) _ _ _ :=
    keepalive_ran aead at_ i now env.keepaliveSent
  unfold PeerSession.tickOps
  rw [List.foldl_append]
  exact kept.trans (reconnect_ran kept.session now env.toAttempt)

end Branches

/-! ## One event -/

/-- The search for a responder calls `session_handle_init` once for each responder it reaches. -/
theorem findResponderForInit_get (kps : Nat → KeyPair) (datagram : Bytes) (outLen : Nat)
    {peers : List PeerSession} {n k : Nat} {ps : PeerSession} (get : peers[k]? = some ps) :
    (findResponderForInit S kps datagram outLen n peers).1[k]? =
      some (if ps.config.role = .responder ∧
          (findResponderForInit S kps datagram outLen n (peers.take k)).2.isNone then
        { ps with session := (sessionHandleInit S (kps (n + k)) ps.session datagram outLen).1 }
      else ps) := by
  induction peers generalizing n k with
  | nil => cases get
  | cons head rest ih =>
    cases k with
    | zero =>
      cases get
      simp only [findResponderForInit, List.take_zero, Option.isNone_none, and_true, Nat.add_zero]
      by_cases responder : ps.config.role = .responder
      · rw [if_neg (not_not_intro responder), if_pos responder]
        cases sessionHandleInit S (kps n) ps.session datagram outLen with
        | mk s response => cases response <;> rfl
      · rw [if_pos responder, if_neg responder]
        rfl
    | succ k =>
      have further := ih (n := n + 1) (show rest[k]? = some ps from get)
      rw [Nat.add_right_comm, Nat.add_assoc n k 1] at further
      simp only [findResponderForInit, List.take_succ_cons]
      by_cases responder : head.config.role = .responder
      · rw [if_neg (not_not_intro responder), if_neg (not_not_intro responder)]
        cases sessionHandleInit S (kps n) head.session datagram outLen with
        | mk s response =>
          cases response with
          | none => exact further
          | some response =>
            refine Eq.trans (show _ = rest[k]? from rfl) ?_
            rw [if_neg (fun h => by cases h.2)]
            exact get
      · rw [if_pos responder, if_pos responder]
        exact further

section Step

variable {role : CryptoRole} {own : KeyPair} {peer : PublicKey} {t : Traced} {d : Daemon}
  {i : Nat} {ps : PeerSession}

theorem tun_ran (aead : S.Aead) (host : Endian) (get : d.peers[i]? = some ps)
    (at_ : t.session = ps.session) (packet : Bytes) (clock : UInt64) (sendOk : Bool) :
    ∃ ps', (d.tun S host packet clock sendOk).1.peers[i]? = some ps' ∧
      Ran t ((d.ops S host i (.tun packet clock sendOk)).foldl (Traced.op S role own peer) t)
        ps'.session (d.forwards host i (.tun packet clock sendOk)) [] := by
  have idle : Ran t t ps.session [] [] := at_ ▸ Ran.refl t
  rw [Daemon.tun_route]
  simp only [Daemon.ops, Daemon.forwards, get]
  cases route : routingRoute host (d.peers.map PeerSession.config) (packet.take maxPacketSize) with
  | none =>
    rw [if_neg nofun, if_neg (fun h => by cases h.1)]
    exact ⟨ps, get, idle⟩
  | some j =>
    by_cases hij : j = i
    · subst hij
      have some_ : packet.take maxPacketSize ≠ [] := by
        intro hnil
        rw [hnil] at route
        cases route
      dsimp only
      rw [if_pos rfl, get]
      simp only [true_and]
      refine ⟨_, (set_get get).trans (by rw [if_pos rfl]), ?_⟩
      exact forward_ran aead at_ j (List.length_take_le _ _) some_ clock sendOk
    · dsimp only
      rw [if_neg (fun h => hij (Option.some.inj h)),
        if_neg (fun h => hij (Option.some.inj h.1))]
      cases hget : d.peers[j]? with
      | none => exact ⟨ps, get, idle⟩
      | some psj => exact ⟨ps, (set_get get).trans (by rw [if_neg hij]), idle⟩

/-- What the daemon adds to the peer that the search found leaves its session. -/
theorem unknownInit_session {kps : Nat → KeyPair} {datagram : Bytes} (source : SockAddr)
    (clock : UInt64) (sendOk : Bool)
    (get : (findResponderForInit S kps datagram sessionHandshakeMsgLen 0 d.peers).1[i]? = some ps) :
    ∃ ps', (d.unknownInit S datagram source clock kps sendOk).1.peers[i]? = some ps' ∧
      ps'.session = ps.session := by
  unfold Daemon.unknownInit
  cases search : findResponderForInit S kps datagram sessionHandshakeMsgLen 0 d.peers with
  | mk peers matched =>
    rw [search] at get
    cases matched with
    | none => exact ⟨ps, get, rfl⟩
    | some found =>
      obtain ⟨j, response⟩ := found
      dsimp only
      cases hj : peers[j]? with
      | none => exact ⟨ps, get, rfl⟩
      | some psj =>
        cases sendOk with
        | false => exact ⟨ps, get, rfl⟩
        | true =>
          refine ⟨_, set_get get, ?_⟩
          by_cases hij : j = i
          · subst hij
            cases get.symm.trans hj
            rw [if_pos rfl]
            rfl
          · rw [if_neg hij]

theorem udp_ran (host : Endian) (get : d.peers[i]? = some ps) (at_ : t.session = ps.session)
    (datagram : Bytes) (source : SockAddr) (clock : UInt64) (kps : Nat → KeyPair)
    (sendOk tunOk : Bool) :
    ∃ ps', (d.udp S datagram source clock kps sendOk tunOk).1.peers[i]? = some ps' ∧
      Ran t ((d.ops S host i (.udp datagram source clock kps sendOk tunOk)).foldl
        (Traced.op S role own peer) t) ps'.session []
        (d.delivers S i (.udp datagram source clock kps sendOk tunOk)) := by
  have idle : Ran t t ps.session [] [] := at_ ▸ Ran.refl t
  have peers : d.peers.length ≠ 0 := by
    have := (List.getElem?_eq_some_iff.mp get).1
    omega
  simp only [Daemon.ops, Daemon.udpOps, Daemon.delivers, Daemon.udp, get, peers, false_or]
  by_cases empty : (datagram.take sealedBufSize).length < 1
  · rw [if_pos empty, if_pos empty]
    cases findPeerByAddr d.peers source with
    | none => exact ⟨ps, get, idle⟩
    | some j =>
      dsimp only
      rw [if_neg (fun h => absurd h.2 (Nat.not_le.mpr empty))]
      exact ⟨ps, get, idle⟩
  · rw [if_neg empty, if_neg empty]
    cases findPeerByAddr d.peers source with
    | none =>
      dsimp only
      by_cases init : (datagram.take sealedBufSize).getD 0 0 = sessionMsgHandshakeInit
      · have found := findResponderForInit_get (S := S) kps (datagram.take sealedBufSize)
          sessionHandshakeMsgLen (n := 0) get
        obtain ⟨ps', get', session⟩ := unknownInit_session source clock sendOk found
        rw [if_pos init]
        refine ⟨ps', get', ?_⟩
        rw [session, Nat.zero_add]
        by_cases tried : ps.config.role = .responder ∧
            d.searches S i (datagram.take sealedBufSize) kps = true
        · have tries : ps.config.role = .responder ∧ (findResponderForInit S kps
              (datagram.take sealedBufSize) sessionHandshakeMsgLen 0 (d.peers.take i)).2.isNone :=
            tried
          rw [if_pos tries, if_pos ⟨init, tried⟩]
          have ran := Ran.handshake (S := S) t
            (c := .handleInit (kps i) (datagram.take sealedBufSize) sessionHandshakeMsgLen) trivial
          simp only [sessionCall, at_] at ran
          exact ran
        · have tries : ¬ (ps.config.role = .responder ∧ (findResponderForInit S kps
              (datagram.take sealedBufSize) sessionHandshakeMsgLen 0 (d.peers.take i)).2.isNone) :=
            tried
          rw [if_neg tries, if_neg (fun h => tried h.2)]
          exact idle
      · rw [if_neg init, if_neg (fun h => init h.1)]
        exact ⟨ps, get, idle⟩
    | some j =>
      dsimp only
      by_cases hij : j = i
      · subst hij
        rw [get, if_pos rfl, if_pos ⟨rfl, Nat.le_of_not_lt empty⟩]
        refine ⟨_, (set_get get).trans (by rw [if_pos rfl]), ?_⟩
        exact receive_ran at_ j _ clock (kps j) sendOk tunOk
      · rw [if_neg hij, if_neg (fun h => hij h.1)]
        cases hget : d.peers[j]? with
        | none => exact ⟨ps, get, idle⟩
        | some psj => exact ⟨ps, (set_get get).trans (by rw [if_neg hij]), idle⟩

/-- **The operations of an event leave its session**, and seal and open its packets. -/
theorem Daemon.step_ran (aead : S.Aead) (host : Endian) (get : d.peers[i]? = some ps)
    (at_ : t.session = ps.session) (e : Event) :
    ∃ ps', (d.step S host e).1.peers[i]? = some ps' ∧ ps'.config = ps.config ∧
      Ran t ((d.ops S host i e).foldl (Traced.op S role own peer) t) ps'.session
        (d.forwards host i e) (d.delivers S i e) := by
  obtain ⟨ps', effects, get', _, did⟩ := Daemon.step_get (S := S) host e get
  refine ⟨ps', get', did.config, ?_⟩
  cases e with
  | tun packet clock sendOk =>
    obtain ⟨_, hget, ran⟩ := tun_ran aead host get at_ packet clock sendOk
    cases hget.symm.trans get'
    exact ran
  | udp datagram source clock kps sendOk tunOk =>
    obtain ⟨_, hget, ran⟩ := udp_ran host get at_ datagram source clock kps sendOk tunOk
    cases hget.symm.trans get'
    exact ran
  | timer now env =>
    rw [Daemon.step, timer_get, get] at get'
    cases get'
    simp only [Daemon.ops, get]
    exact tick_ran aead at_ i now (env i)

end Step

/-! ## Start -/

theorem startPeer_ran {own : KeyPair} (derived : own.pk = cryptoDerivePublicKey S own.sk)
    {config : ConfigPeer} {boot : Boot} {ps : PeerSession} {effects : List Effect}
    (start : startPeer S own.sk config boot = some (ps, effects)) (t : Traced) :
    ps.config = config ∧
      Ran t ((startOps boot config).foldl (Traced.op S config.role own config.publicKey) t)
        ps.session [] [] := by
  obtain ⟨_, config₀, -, -, did⟩ := startPeer_did start
  refine ⟨did.config.trans config₀, ?_⟩
  unfold startPeer at start
  rw [← derived] at start
  cases init : sessionInit S config.role own.pk own.sk config.publicKey boot.time
      boot.initialPair with
  | none =>
    simp only [init] at start
    cases start
  | some s =>
    simp only [init] at start
    have restarted : Ran t (t.op S config.role own config.publicKey
        (.restart boot.time boot.initialPair)) s [] [] := by
      simp only [Traced.op, Traced.restart, init]
      exact ⟨rfl, List.filterMap_append, List.filterMap_append⟩
    unfold startOps
    rw [List.foldl_cons]
    cases role : config.role with
    | responder =>
      simp only [role] at start restarted
      cases start
      exact restarted
    | initiator =>
      simp only [role] at start restarted
      have fresh : Traced.session _ = (PeerSession.fresh config s boot.clock).session :=
        restarted.session
      have attempted : Ran _ (List.foldl (Traced.op S .initiator own config.publicKey) _ _) _ _ _ :=
        attempt_ran fresh boot.attemptClock boot.toAttempt
      rw [Option.some.inj start] at attempted
      have ran := restarted.trans attempted
      simp only [PeerSession.attemptOps, PeerSession.fresh, Bool.false_eq_true, false_or] at ran
      exact ran

/-! ## The TUN device -/

/-- Only a datagram makes the daemon write to its TUN device. -/
theorem SealDid.writes {i : Nat} {ps ps' : PeerSession} {effects : List Effect}
    (did : SealDid S i ps ps' effects) : effects.filterMap Effect.wrote? = [] := by
  cases did <;> rfl

theorem AttemptDid.writes {ps ps' : PeerSession} {effects : List Effect}
    (did : AttemptDid S ps ps' effects) : effects.filterMap Effect.wrote? = [] := by
  cases did with
  | idle => rfl
  | initiated _ _ _ _ _ sent =>
    refine List.filterMap_eq_nil_iff.mpr fun e he => ?_
    obtain ⟨_, _, rfl⟩ := sent e he
    rfl

theorem flatMap_range_single {α : Type} {n j : Nat} (hj : j < n) (f : Nat → List α)
    (others : ∀ i, i ≠ j → f i = []) : (List.range n).flatMap f = f j := by
  have before : ∀ m, m ≤ j → (List.range m).flatMap f = [] := by
    intro m hm
    refine List.flatMap_eq_nil_iff.mpr fun i hi => others i ?_
    have := List.mem_range.mp hi
    omega
  induction n with
  | zero => cases hj
  | succ n ih =>
    rw [List.range_succ, List.flatMap_append, List.flatMap_singleton]
    by_cases last : j = n
    · rw [← last, before j (Nat.le_refl j), List.nil_append]
    · rw [ih (by omega), others n (Ne.symm last), List.append_nil]

/-- **Everything an event writes to the TUN device, it delivers for some peer.** -/
theorem Daemon.step_writes (host : Endian) (d : Daemon) (e : Event) :
    (d.step S host e).2.filterMap Effect.wrote? =
      (List.range d.peers.length).flatMap fun i => d.delivers S i e := by
  have none_ : (List.range d.peers.length).flatMap (fun _ => ([] : List Bytes)) = [] :=
    List.flatMap_eq_nil_iff.mpr fun _ _ => rfl
  cases e with
  | tun packet clock sendOk =>
    simp only [Daemon.delivers, none_]
    obtain h | ⟨j, ps, _, h⟩ := tun_did (S := S) host packet clock sendOk d
    · rw [Daemon.step, h]
      rfl
    · rw [Daemon.step, h]
      exact (forward_did j clock ps _ sendOk).writes
  | udp datagram source clock kps sendOk tunOk =>
    simp only [Daemon.step, Daemon.udp, Daemon.delivers]
    by_cases empty : d.peers.length = 0 ∨ (datagram.take sealedBufSize).length < 1
    · rw [if_pos empty]
      refine (List.flatMap_eq_nil_iff.mpr fun i hi => ?_).symm
      have := List.mem_range.mp hi
      split
      · rw [if_neg (by omega)]
      · rfl
    · rw [if_neg empty]
      cases found : findPeerByAddr d.peers source with
      | none =>
        simp only [none_]
        split
        · unfold Daemon.unknownInit
          split
          · rfl
          · split
            · rfl
            · dsimp only
              split <;> rfl
        · rfl
      | some j =>
        have hj := (List.findIdx?_eq_some_iff_getElem.mp found).1
        have get := List.getElem?_eq_getElem hj
        rw [flatMap_range_single hj _ (fun i hij => ?_)]
        · simp only [get, true_and]
          rw [if_pos (by omega)]
        · split
          · next h _ =>
            cases h
            rw [if_neg (fun h => hij h.1.symm)]
          · rfl
  | timer now env =>
    simp only [Daemon.delivers, none_]
    rw [Daemon.step, timer_effects, List.filterMap_append, List.filterMap_flatMap]
    refine (List.append_nil _).trans (List.flatMap_eq_nil_iff.mpr fun p hp => ?_)
    obtain ⟨i, hi, rfl⟩ := List.mem_mapIdx.mp hp
    rw [PeerSession.tick, List.filterMap_append, (keepalive_did ..).writes,
      (reconnect_did ..).writes]
    rfl

end EdgarVPN
