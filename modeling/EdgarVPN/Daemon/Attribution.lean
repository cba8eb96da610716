import EdgarVPN.Daemon.Addresses
import EdgarVPN.Daemon.Sessions

/-!
# Whose init it is

A datagram is attributed by its source address first. Only an init from an address that no peer is
known by is tried against the keys of every peer this node answers.

**What is proved.** In every reachable state of a daemon whose peers have different public keys, an
init that the session of peer `j` would accept is accepted for `j`, answered to its source, and
leaves every other peer as it was, exactly when its source is unknown or is the address of `j`
itself (`init_accepted_iff`). From the known address of another peer it is refused for that peer and
`j` never sees it (`init_refused_at_stale_address`): a peer that moves to an address another one was
last seen at cannot connect.
-/

set_option autoImplicit false

namespace EdgarVPN

variable {S : Sodium} {d : Daemon} {i j : Nat} {ps : PeerSession}

/-! ## The search finds the peer -/

/-- A search in which no peer before `j` reads the init, and `j` accepts it, changes `j` only. -/
theorem findResponderForInit_only {kps : Nat → KeyPair} {input : Bytes} {outLen : Nat} {s : Session}
    {response : Bytes} {peers : List PeerSession} (get : peers[j]? = some ps)
    (role : ps.config.role = .responder)
    (accepts : sessionHandleInit S (kps (i + j)) ps.session input outLen = (s, some response))
    (others : ∀ k psk, k < j → peers[k]? = some psk → psk.config.role = .responder →
      sessionReadInit S psk.session input outLen = none) :
    findResponderForInit S kps input outLen i peers =
      (peers.set j { ps with session := s }, some (i + j, response)) := by
  induction peers generalizing i j with
  | nil => cases get
  | cons head peers ih =>
    cases j with
    | zero =>
      cases get
      rw [Nat.add_zero] at accepts
      simp only [findResponderForInit, role, ne_eq, not_true_eq_false, if_false, accepts,
        List.set_cons_zero, Nat.add_zero]
    | succ j =>
      have rest := ih (i := i + 1) get (by rw [Nat.add_assoc, Nat.add_comm 1]; exact accepts)
        fun k psk hk hget => others (k + 1) psk (Nat.succ_lt_succ hk) hget
      rw [Nat.add_assoc, Nat.add_comm 1] at rest
      simp only [findResponderForInit, rest, List.set_cons_succ]
      split
      · rfl
      · next hrole =>
        rw [not_not] at hrole
        have unread := others 0 head (Nat.succ_pos j) rfl hrole
        rw [sessionHandleInit_unread unread]

/-- An init that a peer does not read has no effect from that peer's address. -/
theorem receive_unread {clock : UInt64} {kp : KeyPair} {sendOk tunOk : Bool} {payload : Bytes}
    (unread : ps.config.role = .responder →
      sessionReadInit S ps.session (sessionMsgHandshakeInit :: payload) sessionHandshakeMsgLen =
        none) :
    (ps.receive S i (sessionMsgHandshakeInit :: payload) clock kp sendOk tunOk).2 = [] := by
  have hresponse : sessionMsgHandshakeInit ≠ sessionMsgHandshakeResponse := by decide
  have hdata : sessionMsgHandshakeInit ≠ sessionMsgData := by decide
  simp only [PeerSession.receive, List.getD_cons_zero, true_and, hresponse, hdata, false_and,
    if_false]
  split
  · next role => simp only [PeerSession.receiveInit, sessionHandleInit_unread (unread role)]
  · rfl

/-- An init that a peer accepts, from that peer's address, is answered to it. -/
theorem receive_accepts {clock : UInt64} {kp : KeyPair} {tunOk : Bool} {payload response : Bytes}
    {s : Session} (role : ps.config.role = .responder)
    (accepts : sessionHandleInit S kp ps.session (sessionMsgHandshakeInit :: payload)
      sessionHandshakeMsgLen = (s, some response)) :
    ps.receive S i (sessionMsgHandshakeInit :: payload) clock kp true tunOk =
      (PeerSession.responded clock { ps with session := s },
        [.accepted i (sessionMsgHandshakeInit :: payload) clock, .derived i s.dataKeys clock,
          .sent response ps.addr true]) := by
  simp only [PeerSession.receive, List.getD_cons_zero, role, and_self, if_true,
    PeerSession.receiveInit, accepts]

/-! ## Acceptance -/

/-- The init was accepted for peer `j`: its session is the one that accepted, its address is the
source, the response went there, and no other entry changed. -/
structure Daemon.AcceptedFor (d : Daemon) (result : Daemon × List Effect) (j : Nat)
    (source : SockAddr) (s : Session) (response : Bytes) : Prop where
  peer : ∃ ps', result.1.peers[j]? = some ps' ∧ ps'.session = s ∧
    ps'.session.state = .established ∧ ps'.addrResolved = true ∧ ps'.addr = source
  answered : .sent response source true ∈ result.2
  others : ∀ k, k ≠ j → result.1.peers[k]? = d.peers[k]?

/-- **An init is accepted wherever it comes from, except from another peer's known address.** Take
any state that a daemon reaches, and a datagram that the session of peer `j`, a responder's,
accepts. The daemon accepts it for `j`, answers its source and leaves the other peers alone, if and
only if no peer is known by the source, or `j` is. The premises are that the peers have different
public keys, and that the datagram authenticates under the static key toward one of them only. -/
theorem init_accepted_iff {host : Endian} {cfg : Config} {boots : Nat → Boot} {clock₀ : UInt64}
    {w : World} (start : World.start S cfg boots clock₀ = some w)
    (distinct : (cfg.peers.map (·.publicKey)).Nodup) (events : List Event)
    (reached : (events.foldl (World.step S host) w).daemon = d) (get : d.peers[j]? = some ps)
    (role : ps.config.role = .responder) {datagram : Bytes} {source : SockAddr} {clock : UInt64}
    {kps : Nat → KeyPair} {tunOk : Bool} {s : Session} {response : Bytes}
    (accepts : sessionHandleInit S (kps j) ps.session (datagram.take sealedBufSize)
      sessionHandshakeMsgLen = (s, some response))
    (separates : cfg.Separates S (datagram.take sealedBufSize).tail) :
    d.AcceptedFor (d.udp S datagram source clock kps true tunOk) j source s response ↔
      findPeerByAddr d.peers source = none ∨ findPeerByAddr d.peers source = some j := by
  have keyed : d.Keyed S cfg := by
    rw [← reached]
    exact (sessions_driven start events).keyed
  obtain ⟨peer, counter, keys, read, rfl⟩ := sessionHandleInit_eq_some accepts
  obtain ⟨_, _, payload, hinput, auth, _⟩ := sessionReadInit_eq_some read
  rw [hinput] at accepts separates
  have others : ∀ k psk, k ≠ j → d.peers[k]? = some psk → psk.config.role = .responder →
      sessionReadInit S psk.session (sessionMsgHandshakeInit :: payload) sessionHandshakeMsgLen =
        none := by
    intro k psk hk hget hrole
    exact sessionReadInit_unauthenticated (keyed.authenticates_one (Config.respondersApart distinct)
      separates get hget role hrole auth (Ne.symm hk)) _
  have hlt : j < d.peers.length := (List.getElem?_eq_some_iff.mp get).1
  have hbytes : datagram.take sealedBufSize ≠ [] := by
    rw [hinput]
    exact List.cons_ne_nil _ _
  have kept : ∀ (new : PeerSession) (k : Nat), k ≠ j → (d.peers.set j new)[k]? = d.peers[k]? :=
    fun new k hk => List.getElem?_set_ne (Ne.symm hk)
  constructor
  · intro accepted
    cases found : findPeerByAddr d.peers source with
    | none => exact .inl rfl
    | some k =>
      by_cases hk : k = j
      · exact .inr (congrArg some hk)
      · have klt := (List.findIdx?_eq_some_iff_getElem.mp found).1
        have getk := List.getElem?_eq_getElem klt
        have hanswered := accepted.answered
        rw [udp_known k clock found getk hbytes, hinput,
          receive_unread (others k _ hk getk)] at hanswered
        cases hanswered
  · rintro (unknown | found)
    · have search := findResponderForInit_only (i := 0) get role
        (by rw [Nat.zero_add]; exact accepts) fun k psk hk => others k psk (Nat.ne_of_lt hk)
      rw [Nat.zero_add, ← hinput] at search
      rw [udp_matched j clock unknown search (List.getElem?_set_self hlt), List.set_set]
      exact ⟨⟨_, List.getElem?_set_self hlt, rfl, rfl, rfl, rfl⟩,
        List.mem_cons_of_mem _ (List.mem_cons_of_mem _ (List.mem_singleton_self _)), kept _⟩
    · obtain ⟨resolved, hsource⟩ := findPeerByAddr_eq_some found get
      rw [udp_known j clock found get hbytes, hinput, receive_accepts role accepts, hsource]
      exact ⟨⟨_, List.getElem?_set_self hlt, rfl, rfl, resolved, rfl⟩,
        List.mem_cons_of_mem _ (List.mem_cons_of_mem _ (List.mem_singleton_self _)), kept _⟩

/-- The sample node after the peer that holds the pair of 1 connected from the address of 9. -/
def connected : Daemon :=
  ([.udp (peerInit 1 7 (referencePair 5)) (sampleSource 9) 10 (fun _ => referencePair 30) true
    true].foldl (World.step reference .little) sampleWorld).daemon

def connectedPeer : PeerSession :=
  connected.peers[0]?.getD (PeerSession.fresh ConfigPeer.zero Session.zero 0)

/-- What the peer's session makes of its next init. -/
def reconnected : Session × Option Bytes :=
  sessionHandleInit reference (referencePair 31) connectedPeer.session
    (peerInit 1 8 (referencePair 6)) sessionHandshakeMsgLen

/-- The peer moves to the address of 8 and connects again. -/
theorem init_accepted_iff_reconnected :
    findPeerByAddr connected.peers (sampleSource 8) = none ∧
    connected.AcceptedFor
      (connected.udp reference (peerInit 1 8 (referencePair 6)) (sampleSource 8) 20
        (fun _ => referencePair 31) true true) 0 (sampleSource 8) reconnected.1
      (reconnected.2.getD []) :=
  have get : connected.peers[0]? = some connectedPeer := by decide +kernel
  ⟨by decide +kernel, (init_accepted_iff sampleWorld_start (by decide +kernel) _ rfl get
    (by decide +kernel) (by decide +kernel) (by decide +kernel)).mpr (.inl (by decide +kernel))⟩

/-- **From another peer's known address an init is refused.** The session of the peer that holds the
pair of 3 would accept it, and nothing happens. -/
theorem init_refused_at_stale_address :
    World.start reference sampleConfig sampleBoots 0 = some sampleWorld ∧
    (sampleConfig.peers.map (·.publicKey)).Nodup ∧
    (connected.peers[1]?.map fun ps => (ps.config.role, (sessionHandleInit reference
      (referencePair 31) ps.session (peerInit 3 7 (referencePair 6))
      sessionHandshakeMsgLen).2.isSome)) = some (.responder, true) ∧
    (connected.udp reference (peerInit 3 7 (referencePair 6)) (sampleSource 9) 20
      (fun _ => referencePair 31) true true).2 = [] ∧
    (connected.udp reference (peerInit 3 7 (referencePair 6)) (sampleSource 9) 20
      (fun _ => referencePair 31) true true).1.peers.map (fun ps => (ps.session.state, ps.addr)) =
        [(.established, sampleSource 9), (.handshakePending, SockAddr.zero)] := by
  decide +kernel

end EdgarVPN
