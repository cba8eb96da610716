import EdgarVPN.Daemon.Loop

/-!
# What one event can do

The inversion lemmas of the event loop. `SealDid`, `AttemptDid` and `ReceiveDid` list everything
that sending, attempting a handshake and receiving can do to one peer, with what they do to the
outside; counters and activity times are left open where no statement depends on them. `Tried` is
what the search for a responder does to the peers it passes.

What an event as a whole does to the peer at one index is said twice. `PeerMove` names the function
of the loop that was run on the peer, with its result; `Daemon.step_move` says so of every event.
`StepDid` is what follows of the session and the outside (`PeerMove.did`), and most proofs need no
more (`Daemon.step_get`).
-/

set_option autoImplicit false

namespace EdgarVPN

variable {S : Sodium}

/-- The peer's address, its section of the configuration and the time of its last handshake are
unchanged. -/
structure PeerSession.Kept (ps ps' : PeerSession) : Prop where
  config : ps'.config = ps.config
  addr : ps'.addr = ps.addr
  addrResolved : ps'.addrResolved = ps.addrResolved
  completed : ps'.lastHandshakeCompletedMs = ps.lastHandshakeCompletedMs

/-- Everything the TUN branch and the keepalive can do to a peer. A call of `session_seal_data` that
returned no message may have spent a counter. -/
inductive SealDid (S : Sodium) (i : Nat) (ps : PeerSession) : PeerSession → List Effect → Prop
  | idle {ps' : PeerSession} (kept : ps.Kept ps') (session : ps'.session = ps.session) :
      SealDid S i ps ps' []
  | unreturned {ps' : PeerSession} {plaintext : Bytes} (kept : ps.Kept ps')
      (established : ps.session.state = .established)
      (session : sessionSealData S ps.session plaintext sealedBufSize = (ps'.session, none)) :
      SealDid S i ps ps' []
  | sealed {ps' : PeerSession} {plaintext message : Bytes} {ok : Bool} (kept : ps.Kept ps')
      (established : ps.session.state = .established)
      (session : sessionSealData S ps.session plaintext sealedBufSize =
        (ps'.session, some message)) :
      SealDid S i ps ps' [.sealed i ps.session.dataKeys, .sent message ps.addr ok]

/-- Everything an attempt, or what decides whether to make one, can do to a peer. -/
inductive AttemptDid (S : Sodium) (ps : PeerSession) : PeerSession → List Effect → Prop
  | idle {ps' : PeerSession} (kept : ps.Kept ps') (session : ps'.session = ps.session) :
      AttemptDid S ps ps' []
  | initiated {ps' : PeerSession} {kp : KeyPair} {sends : List Effect}
      (config : ps'.config = ps.config) (resolved : ps'.addrResolved = true)
      (completed : ps'.lastHandshakeCompletedMs = ps.lastHandshakeCompletedMs)
      (role : ps.config.role = .initiator)
      (session : ps'.session =
        (sessionBuildInit S (sessionStartHandshake kp ps.session) sealedBufSize).1)
      (sent : ∀ e ∈ sends, ∃ packet ok, e = .sent (sessionMsgHandshakeInit :: packet) ps'.addr ok) :
      AttemptDid S ps ps' sends

/-- Everything a datagram can do to the peer it is attributed to. -/
inductive ReceiveDid (S : Sodium) (i : Nat) (datagram : Bytes) (clock : UInt64)
    (ps : PeerSession) : PeerSession → List Effect → Prop
  | idle {ps' : PeerSession} (kept : ps.Kept ps') (session : ps'.session = ps.session) :
      ReceiveDid S i datagram clock ps ps' []
  | initRefused {ps' : PeerSession} {kp : KeyPair} (kept : ps.Kept ps')
      (role : ps.config.role = .responder)
      (session : sessionHandleInit S kp ps.session datagram sessionHandshakeMsgLen =
        (ps'.session, none)) :
      ReceiveDid S i datagram clock ps ps' []
  | initAccepted {ps' : PeerSession} {kp : KeyPair} {response : Bytes} {ok : Bool}
      (config : ps'.config = ps.config) (addr : ps'.addr = ps.addr)
      (resolved : ps'.addrResolved = ps.addrResolved) (role : ps.config.role = .responder)
      (session : sessionHandleInit S kp ps.session datagram sessionHandshakeMsgLen =
        (ps'.session, some response)) :
      ReceiveDid S i datagram clock ps ps' [.accepted i datagram clock,
        .derived i ps'.session.dataKeys clock, .sent response ps.addr ok]
  | responseAccepted {ps' : PeerSession} (config : ps'.config = ps.config)
      (addr : ps'.addr = ps.addr) (resolved : ps'.addrResolved = ps.addrResolved)
      (role : ps.config.role = .initiator)
      (session : sessionHandleResponse S ps.session datagram = (ps'.session, true))
      (completed : ps'.lastHandshakeCompletedMs = clock) :
      ReceiveDid S i datagram clock ps ps' [.accepted i datagram clock,
        .derived i ps'.session.dataKeys clock]
  | opened {ps' : PeerSession} {plaintext : Bytes} {writes : List Effect} (kept : ps.Kept ps')
      (session : (sessionOpenData S ps.session datagram
        (List.replicate maxPacketSize 0)).session = ps'.session)
      (plain : (sessionOpenData S ps.session datagram
        (List.replicate maxPacketSize 0)).plaintext? = some plaintext)
      (wrote : ∀ e ∈ writes, ∃ ok, e = .wrote plaintext ok) :
      ReceiveDid S i datagram clock ps ps' (.accepted i datagram clock :: writes)

theorem SealDid.kept {i : Nat} {ps ps' : PeerSession} {effects : List Effect}
    (did : SealDid S i ps ps' effects) : ps.Kept ps' := by
  cases did with
  | idle kept => exact kept
  | unreturned kept => exact kept
  | sealed kept => exact kept

theorem AttemptDid.config {ps ps' : PeerSession} {effects : List Effect}
    (did : AttemptDid S ps ps' effects) : ps'.config = ps.config := by
  cases did with
  | idle kept => exact kept.config
  | initiated config => exact config

/-- A session after it sealed: the data counter is all that may have moved. -/
theorem SealDid.session {i : Nat} {ps ps' : PeerSession} {effects : List Effect}
    (did : SealDid S i ps ps' effects) :
    ∃ txCounter, ps'.session = { ps.session with txCounter := txCounter } := by
  cases did with
  | idle _ session => exact ⟨_, session⟩
  | @unreturned plaintext _ _ session =>
    obtain ⟨txCounter, after⟩ := sessionSealData_session (S := S) ps.session plaintext sealedBufSize
    exact ⟨txCounter, (congrArg Prod.fst session).symm.trans after⟩
  | sealed _ _ session => exact ⟨_, sessionSealData_eq_some session⟩

variable (i : Nat) (clock : UInt64) (ps : PeerSession)

theorem forward_did (packet : Bytes) (sendOk : Bool) :
    SealDid S i ps (ps.forward S i packet clock sendOk).1
      (ps.forward S i packet clock sendOk).2 := by
  unfold PeerSession.forward
  split
  · exact .idle ⟨rfl, rfl, rfl, rfl⟩ rfl
  · next established =>
    rw [not_not] at established
    have outcome := sessionSealData_outcome (S := S) ps.session packet sealedBufSize
    generalize hseal : sessionSealData S ps.session packet sealedBufSize = result at outcome
    cases outcome with
    | refused => exact .idle ⟨rfl, rfl, rfl, rfl⟩ rfl
    | unreturned => exact .unreturned ⟨rfl, rfl, rfl, rfl⟩ established hseal
    | sealed =>
      dsimp only
      split
      · exact .sealed ⟨rfl, rfl, rfl, rfl⟩ established hseal
      · exact .sealed ⟨rfl, rfl, rfl, rfl⟩ established hseal

theorem receiveInit_did (datagram : Bytes) (kp : KeyPair) (sendOk : Bool)
    (role : ps.config.role = .responder) :
    ReceiveDid S i datagram clock ps (ps.receiveInit S i datagram clock kp sendOk).1
      (ps.receiveInit S i datagram clock kp sendOk).2 := by
  unfold PeerSession.receiveInit
  split
  · next s hrefused => exact .initRefused ⟨rfl, rfl, rfl, rfl⟩ role hrefused
  · next s response haccepted =>
    dsimp only
    split
    · exact .initAccepted rfl rfl rfl role haccepted
    · exact .initAccepted rfl rfl rfl role haccepted

theorem receiveResponse_did (datagram : Bytes) (role : ps.config.role = .initiator) :
    ReceiveDid S i datagram clock ps (ps.receiveResponse S i datagram clock).1
      (ps.receiveResponse S i datagram clock).2 := by
  unfold PeerSession.receiveResponse
  have outcome := sessionHandleResponse_outcome (S := S) ps.session datagram
  generalize hresponse : sessionHandleResponse S ps.session datagram = result at outcome
  cases outcome with
  | refused => exact .idle ⟨rfl, rfl, rfl, rfl⟩ rfl
  | accepted => exact .responseAccepted rfl rfl rfl role hresponse rfl

theorem receiveData_did (datagram : Bytes) (tunOk : Bool) :
    ReceiveDid S i datagram clock ps (ps.receiveData S i datagram clock tunOk).1
      (ps.receiveData S i datagram clock tunOk).2 := by
  unfold PeerSession.receiveData
  have outcome := sessionOpenData_outcome (S := S) ps.session datagram
    (List.replicate maxPacketSize 0)
  dsimp only
  split
  · next hnone =>
    generalize sessionOpenData S ps.session datagram (List.replicate maxPacketSize 0) = result
      at outcome hnone
    cases outcome with
    | refused => exact .idle ⟨rfl, rfl, rfl, rfl⟩ rfl
    | opened => cases hnone
  · next hempty => exact .opened ⟨rfl, rfl, rfl, rfl⟩ rfl hempty nofun
  · next packet _ hplain =>
    have wrote : ∀ e ∈ [Effect.wrote packet tunOk], ∃ ok, e = .wrote packet ok := by
      intro e he
      exact ⟨tunOk, List.mem_singleton.mp he⟩
    split
    · exact .opened ⟨rfl, rfl, rfl, rfl⟩ rfl hplain wrote
    · exact .opened ⟨rfl, rfl, rfl, rfl⟩ rfl hplain wrote

/-- The dispatch of the UDP branch on a known peer. -/
theorem receive_did (datagram : Bytes) (kp : KeyPair) (sendOk tunOk : Bool) :
    ReceiveDid S i datagram clock ps (ps.receive S i datagram clock kp sendOk tunOk).1
      (ps.receive S i datagram clock kp sendOk tunOk).2 := by
  unfold PeerSession.receive
  dsimp only
  split
  · next h => exact receiveInit_did i clock ps datagram kp sendOk h.2
  · split
    · next h => exact receiveResponse_did i clock ps datagram h.2
    · split
      · exact receiveData_did i clock ps datagram tunOk
      · exact .idle ⟨rfl, rfl, rfl, rfl⟩ rfl

theorem keepalive_did (sendOk : Bool) :
    SealDid S i ps (ps.keepalive S i clock sendOk).1 (ps.keepalive S i clock sendOk).2 := by
  unfold PeerSession.keepalive
  split
  · next h =>
    have outcome := sessionSealData_outcome (S := S) ps.session [] sealedBufSize
    generalize hseal : sessionSealData S ps.session [] sealedBufSize = result at outcome
    cases outcome with
    | refused => exact .idle ⟨rfl, rfl, rfl, rfl⟩ rfl
    | unreturned => exact .unreturned ⟨rfl, rfl, rfl, rfl⟩ h.2.1 hseal
    | sealed =>
      dsimp only
      split
      · exact .sealed ⟨rfl, rfl, rfl, rfl⟩ h.2.1 hseal
      · exact .sealed ⟨rfl, rfl, rfl, rfl⟩ h.2.1 hseal
  · exact .idle ⟨rfl, rfl, rfl, rfl⟩ rfl

theorem initiateHandshake_did (env : Attempt) (role : ps.config.role = .initiator) :
    AttemptDid S ps (initiateHandshake S clock env ps).1
      (initiateHandshake S clock env ps).2 := by
  have send : ∀ ps' : PeerSession, ps'.config = ps.config → ps'.addrResolved = true →
      ps'.lastHandshakeCompletedMs = ps.lastHandshakeCompletedMs → ps'.session = ps.session →
      AttemptDid S ps (ps'.sendInit S clock env).1 (ps'.sendInit S clock env).2 := by
    intro ps' hconfig hresolved hcompleted hsession
    unfold PeerSession.sendInit
    dsimp only
    split
    · next s hbuild =>
      rw [hsession] at hbuild
      exact .initiated hconfig hresolved hcompleted role (congrArg Prod.fst hbuild).symm nofun
    · next s message hbuild =>
      rw [hsession] at hbuild
      refine .initiated hconfig hresolved hcompleted role (congrArg Prod.fst hbuild).symm ?_
      intro e he
      obtain ⟨packet, rfl⟩ := sessionBuildInit_eq_some hbuild
      exact ⟨packet, env.sent, List.mem_singleton.mp he⟩
  unfold initiateHandshake
  split
  · next hresolved => exact send ps rfl hresolved rfl rfl
  · dsimp only
    split
    · exact .idle ⟨rfl, rfl, rfl, rfl⟩ rfl
    · exact send _ rfl rfl rfl rfl

theorem reconnect_did (env : Attempt) :
    AttemptDid S ps (ps.reconnect S clock env).1 (ps.reconnect S clock env).2 := by
  unfold PeerSession.reconnect
  split
  · next h => exact initiateHandshake_did clock ps env h.1
  · split
    · next h => exact initiateHandshake_did clock ps env h.1
    · exact .idle ⟨rfl, rfl, rfl, rfl⟩ rfl

/-! ## The search for a responder -/

/-- What the search from index `i` on does: peers it passes are initiators, or refuse; the one that
accepts is the last one it touches. -/
inductive Tried (S : Sodium) (kps : Nat → KeyPair) (datagram : Bytes) :
    Nat → List PeerSession → List PeerSession → Option (Nat × Bytes) → Prop
  | nil {i : Nat} : Tried S kps datagram i [] [] none
  | skip {i : Nat} {ps : PeerSession} {peers peers' : List PeerSession}
      {matched : Option (Nat × Bytes)} (role : ps.config.role = .initiator)
      (rest : Tried S kps datagram (i + 1) peers peers' matched) :
      Tried S kps datagram i (ps :: peers) (ps :: peers') matched
  | refuse {i : Nat} {ps : PeerSession} {s : Session} {peers peers' : List PeerSession}
      {matched : Option (Nat × Bytes)} (role : ps.config.role = .responder)
      (session : sessionHandleInit S (kps i) ps.session datagram sessionHandshakeMsgLen =
        (s, none))
      (rest : Tried S kps datagram (i + 1) peers peers' matched) :
      Tried S kps datagram i (ps :: peers) ({ ps with session := s } :: peers') matched
  | accept {i : Nat} {ps : PeerSession} {s : Session} {response : Bytes}
      {peers : List PeerSession} (role : ps.config.role = .responder)
      (session : sessionHandleInit S (kps i) ps.session datagram sessionHandshakeMsgLen =
        (s, some response)) :
      Tried S kps datagram i (ps :: peers) ({ ps with session := s } :: peers)
        (some (i, response))

theorem findResponderForInit_tried (kps : Nat → KeyPair) (datagram : Bytes)
    (peers : List PeerSession) (i : Nat) :
    Tried S kps datagram i peers
      (findResponderForInit S kps datagram sessionHandshakeMsgLen i peers).1
      (findResponderForInit S kps datagram sessionHandshakeMsgLen i peers).2 := by
  induction peers generalizing i with
  | nil => exact .nil
  | cons ps peers ih =>
    simp only [findResponderForInit]
    split
    · next hrole =>
      refine .skip ?_ (ih (i + 1))
      cases h : ps.config.role with
      | initiator => rfl
      | responder => exact absurd h hrole
    · next hrole =>
      rw [not_not] at hrole
      split
      · next s response h => exact .accept hrole h
      · next s h => exact .refuse hrole h (ih (i + 1))

/-- What the search does to one peer: nothing, or one call of `session_handle_init` that refuses or
accepts. -/
inductive TriedOne (S : Sodium) (kp : KeyPair) (datagram : Bytes) (ps : PeerSession) :
    PeerSession → Option Bytes → Prop
  | kept : TriedOne S kp datagram ps ps none
  | refused {s : Session} (role : ps.config.role = .responder)
      (session : sessionHandleInit S kp ps.session datagram sessionHandshakeMsgLen = (s, none)) :
      TriedOne S kp datagram ps { ps with session := s } none
  | accepted {s : Session} {response : Bytes} (role : ps.config.role = .responder)
      (session : sessionHandleInit S kp ps.session datagram sessionHandshakeMsgLen =
        (s, some response)) :
      TriedOne S kp datagram ps { ps with session := s } (some response)

section Tried

variable {kps : Nat → KeyPair} {datagram : Bytes} {i : Nat} {peers peers' : List PeerSession}
  {matched : Option (Nat × Bytes)}

theorem Tried.of_search
    (search : findResponderForInit S kps datagram sessionHandshakeMsgLen i peers =
      (peers', matched)) : Tried S kps datagram i peers peers' matched := by
  have tried := findResponderForInit_tried (S := S) kps datagram peers i
  rwa [search] at tried

theorem Tried.length (h : Tried S kps datagram i peers peers' matched) :
    peers'.length = peers.length := by
  induction h with
  | nil => rfl
  | skip _ _ ih => simp only [List.length_cons, ih]
  | refuse _ _ _ ih => simp only [List.length_cons, ih]
  | accept => simp only [List.length_cons]

/-- The match of a search is one of the indices it covers. -/
theorem Tried.bounds (h : Tried S kps datagram i peers peers' matched) {j : Nat}
    {response : Bytes} (hm : matched = some (j, response)) : i ≤ j ∧ j < i + peers.length := by
  induction h with
  | nil => cases hm
  | skip _ _ ih =>
    have := ih hm
    rw [List.length_cons]
    omega
  | refuse _ _ _ ih =>
    have := ih hm
    rw [List.length_cons]
    omega
  | accept =>
    cases hm
    rw [List.length_cons]
    omega

/-- Peer by peer: each is tried once at most, and the match is the one that accepted. -/
theorem Tried.get (h : Tried S kps datagram i peers peers' matched) {k : Nat} {ps : PeerSession}
    (hk : peers[k]? = some ps) :
    ∃ ps' reply, peers'[k]? = some ps' ∧ TriedOne S (kps (i + k)) datagram ps ps' reply ∧
      ∀ response, reply = some response ↔ matched = some (i + k, response) := by
  induction h generalizing k with
  | nil => cases hk
  | @skip i head _ _ matched role rest ih =>
    cases k with
    | zero =>
      cases hk
      refine ⟨_, none, rfl, .kept, fun response => ⟨nofun, fun hm => ?_⟩⟩
      exact absurd (rest.bounds hm).1 (Nat.not_succ_le_self i)
    | succ k =>
      obtain ⟨ps', reply, hget, hone, hreply⟩ := ih hk
      rw [Nat.add_right_comm] at hone hreply
      exact ⟨ps', reply, hget, hone, hreply⟩
  | @refuse i head s _ _ matched role session rest ih =>
    cases k with
    | zero =>
      cases hk
      refine ⟨_, none, rfl, .refused role session, fun response => ⟨nofun, fun hm => ?_⟩⟩
      exact absurd (rest.bounds hm).1 (Nat.not_succ_le_self i)
    | succ k =>
      obtain ⟨ps', reply, hget, hone, hreply⟩ := ih hk
      rw [Nat.add_right_comm] at hone hreply
      exact ⟨ps', reply, hget, hone, hreply⟩
  | @accept i head s response _ role session =>
    cases k with
    | zero =>
      cases hk
      refine ⟨_, some response, rfl, .accepted role session, fun response' => ?_⟩
      simp only [Nat.add_zero, Option.some.injEq, Prod.mk.injEq, true_and]
    | succ k =>
      refine ⟨ps, none, hk, .kept, fun response' => ⟨nofun, fun hm => ?_⟩⟩
      have := (Prod.mk.inj (Option.some.inj hm)).1
      omega

/-- The match is one of the peers, and it accepted. -/
theorem Tried.matched_get {response : Bytes}
    (h : Tried S kps datagram 0 peers peers' (some (i, response))) :
    ∃ ps s, peers[i]? = some ps ∧ ps.config.role = .responder ∧
      sessionHandleInit S (kps i) ps.session datagram sessionHandshakeMsgLen =
        (s, some response) ∧
      peers'[i]? = some { ps with session := s } := by
  have hlt : i < peers.length := by have := (h.bounds rfl).2; omega
  obtain ⟨ps', reply, hget, hone, hreply⟩ := h.get (List.getElem?_eq_getElem hlt)
  rw [Nat.zero_add] at hone hreply
  rw [(hreply response).mpr rfl] at hone
  cases hone with
  | @accepted s _ role session =>
    exact ⟨_, s, List.getElem?_eq_getElem hlt, role, session, hget⟩

end Tried

/-! ## The UDP branch -/

/-- A peer whose address was learned from the init it accepted. -/
def PeerSession.learned (source : SockAddr) (clock : UInt64) (ps : PeerSession) : PeerSession :=
  PeerSession.responded clock { ps with addr := source, addrResolved := true }

/-- Everything the UDP branch can do with the bytes it received. -/
inductive UdpDid (S : Sodium) (datagram : Bytes) (source : SockAddr) (clock : UInt64)
    (kps : Nat → KeyPair) (sendOk tunOk : Bool) (d : Daemon) : Daemon → List Effect → Prop
  | ignored : UdpDid S datagram source clock kps sendOk tunOk d d []
  | known {i : Nat} {ps : PeerSession} (found : findPeerByAddr d.peers source = some i)
      (get : d.peers[i]? = some ps) :
      UdpDid S datagram source clock kps sendOk tunOk d
        { d with
          peers := d.peers.set i (ps.receive S i datagram clock (kps i) sendOk tunOk).1 }
        (ps.receive S i datagram clock (kps i) sendOk tunOk).2
  | unmatched {peers : List PeerSession} (unknown : findPeerByAddr d.peers source = none)
      (search : findResponderForInit S kps datagram sessionHandshakeMsgLen 0 d.peers =
        (peers, none)) :
      UdpDid S datagram source clock kps sendOk tunOk d { d with peers := peers } []
  | matched {peers : List PeerSession} {i : Nat} {response : Bytes} {ps : PeerSession}
      (unknown : findPeerByAddr d.peers source = none)
      (search : findResponderForInit S kps datagram sessionHandshakeMsgLen 0 d.peers =
        (peers, some (i, response)))
      (get : peers[i]? = some ps) :
      UdpDid S datagram source clock kps sendOk tunOk d
        { d with peers := if sendOk then peers.set i (ps.learned source clock) else peers }
        [.accepted i datagram clock, .derived i ps.session.dataKeys clock,
          .sent response source sendOk]

theorem unknownInit_did (datagram : Bytes) (source : SockAddr) (kps : Nat → KeyPair)
    (sendOk tunOk : Bool) {d : Daemon} (unknown : findPeerByAddr d.peers source = none) :
    UdpDid S datagram source clock kps sendOk tunOk d
      (d.unknownInit S datagram source clock kps sendOk).1
      (d.unknownInit S datagram source clock kps sendOk).2 := by
  unfold Daemon.unknownInit
  generalize search : findResponderForInit S kps datagram sessionHandshakeMsgLen 0 d.peers = result
  obtain ⟨peers, matched⟩ := result
  cases matched with
  | none => exact .unmatched unknown search
  | some m =>
    obtain ⟨i, response⟩ := m
    obtain ⟨ps, s, _, _, _, hget⟩ := (Tried.of_search search).matched_get
    have did : UdpDid S datagram source clock kps sendOk tunOk d _ _ :=
      .matched unknown search hget
    simp only [hget]
    cases sendOk with
    | true => exact did
    | false => exact did

/-- **Everything the UDP branch can do.** -/
theorem udp_did (datagram : Bytes) (source : SockAddr) (kps : Nat → KeyPair) (sendOk tunOk : Bool)
    (d : Daemon) :
    UdpDid S (datagram.take sealedBufSize) source clock kps sendOk tunOk d
      (d.udp S datagram source clock kps sendOk tunOk).1
      (d.udp S datagram source clock kps sendOk tunOk).2 := by
  unfold Daemon.udp
  dsimp only
  split
  · exact .ignored
  · split
    · next unknown =>
      split
      · exact unknownInit_did clock _ source kps sendOk tunOk unknown
      · exact .ignored
    · next i found =>
      split
      · exact .ignored
      · next ps get => exact .known found get

/-- An init that some responder accepts reaches it from an unknown address. -/
theorem udp_matched {datagram : Bytes} {source : SockAddr} {kps : Nat → KeyPair}
    {sendOk tunOk : Bool} {d : Daemon} {peers : List PeerSession} {response : Bytes}
    {ps : PeerSession} (unknown : findPeerByAddr d.peers source = none)
    (search : findResponderForInit S kps (datagram.take sealedBufSize) sessionHandshakeMsgLen 0
      d.peers = (peers, some (i, response))) (get : peers[i]? = some ps) :
    d.udp S datagram source clock kps sendOk tunOk =
      ({ d with peers := if sendOk then peers.set i (ps.learned source clock) else peers },
        [.accepted i (datagram.take sealedBufSize) clock, .derived i ps.session.dataKeys clock,
          .sent response source sendOk]) := by
  obtain ⟨ps₀, s, hps₀, _, haccepted, _⟩ := (Tried.of_search search).matched_get
  obtain ⟨peer, counter, keys, hread, _⟩ := sessionHandleInit_eq_some haccepted
  obtain ⟨_, _, payload, hpayload, _⟩ := sessionReadInit_eq_some hread
  have hpeers : d.peers.length ≠ 0 := by
    intro hzero
    rw [List.length_eq_zero_iff.mp hzero] at hps₀
    cases hps₀
  have hbytes : ¬ (d.peers.length = 0 ∨ (datagram.take sealedBufSize).length < 1) := by
    rw [hpayload, List.length_cons]
    omega
  have htype : (datagram.take sealedBufSize).getD 0 0 = sessionMsgHandshakeInit := by
    rw [hpayload]
    rfl
  simp only [Daemon.udp, if_neg hbytes, unknown, htype, if_true, Daemon.unknownInit, search, get]
  cases sendOk <;> rfl

/-- A datagram that is not empty, from the address of a peer. -/
theorem udp_known {datagram : Bytes} {source : SockAddr} {kps : Nat → KeyPair} {sendOk tunOk : Bool}
    {d : Daemon} {ps : PeerSession} (found : findPeerByAddr d.peers source = some i)
    (get : d.peers[i]? = some ps) (nonempty : datagram.take sealedBufSize ≠ []) :
    d.udp S datagram source clock kps sendOk tunOk =
      ({ d with
          peers := d.peers.set i
            (ps.receive S i (datagram.take sealedBufSize) clock (kps i) sendOk tunOk).1 },
        (ps.receive S i (datagram.take sealedBufSize) clock (kps i) sendOk tunOk).2) := by
  obtain ⟨hlt, _⟩ := List.getElem?_eq_some_iff.mp get
  have hbytes : ¬ (d.peers.length = 0 ∨ (datagram.take sealedBufSize).length < 1) := by
    have := List.length_pos_iff.mpr nonempty
    omega
  simp only [Daemon.udp, if_neg hbytes, found, get]

/-! ## One peer, any event -/

/-- Everything an event can do to the peer at index `i`. -/
inductive StepDid (S : Sodium) (d : Daemon) (i : Nat) (ps : PeerSession) :
    Event → PeerSession → List Effect → Prop
  | untouched {e : Event} : StepDid S d i ps e ps []
  | forwarded {packet : Bytes} {clock : UInt64} {sendOk : Bool} {ps' : PeerSession}
      {effects : List Effect} (did : SealDid S i ps ps' effects) :
      StepDid S d i ps (.tun packet clock sendOk) ps' effects
  | received {datagram : Bytes} {source : SockAddr} {clock : UInt64} {kps : Nat → KeyPair}
      {sendOk tunOk : Bool} {ps' : PeerSession} {effects : List Effect}
      (found : findPeerByAddr d.peers source = some i)
      (did : ReceiveDid S i (datagram.take sealedBufSize) clock ps ps' effects) :
      StepDid S d i ps (.udp datagram source clock kps sendOk tunOk) ps' effects
  | refused {datagram : Bytes} {source : SockAddr} {clock : UInt64} {kps : Nat → KeyPair}
      {sendOk tunOk : Bool} {s : Session} (role : ps.config.role = .responder)
      (session : sessionHandleInit S (kps i) ps.session (datagram.take sealedBufSize)
        sessionHandshakeMsgLen = (s, none)) :
      StepDid S d i ps (.udp datagram source clock kps sendOk tunOk) { ps with session := s } []
  | matched {datagram : Bytes} {source : SockAddr} {clock : UInt64} {kps : Nat → KeyPair}
      {sendOk tunOk : Bool} {response : Bytes} {ps' : PeerSession}
      (unknown : findPeerByAddr d.peers source = none)
      (search : (findResponderForInit S kps (datagram.take sealedBufSize) sessionHandshakeMsgLen 0
        d.peers).2 = some (i, response))
      (config : ps'.config = ps.config) (resolved : ps'.addrResolved = (sendOk || ps.addrResolved))
      (role : ps.config.role = .responder)
      (session : sessionHandleInit S (kps i) ps.session (datagram.take sealedBufSize)
        sessionHandshakeMsgLen = (ps'.session, some response)) :
      StepDid S d i ps (.udp datagram source clock kps sendOk tunOk) ps'
        [.accepted i (datagram.take sealedBufSize) clock, .derived i ps'.session.dataKeys clock,
          .sent response source sendOk]
  | ticked {now : UInt64} {env : Nat → Tick} {mid ps' : PeerSession} {sent retried : List Effect}
      (keepalive : SealDid S i ps mid sent) (reconnect : AttemptDid S mid ps' retried) :
      StepDid S d i ps (.timer now env) ps' (sent ++ retried)

/-- What an event runs on the peer at index `i`, and its result. -/
inductive PeerMove (S : Sodium) (d : Daemon) (i : Nat) (ps : PeerSession) :
    Event → PeerSession → List Effect → Prop
  | untouched {e : Event} : PeerMove S d i ps e ps []
  | forwarded {packet : Bytes} {clock : UInt64} {sendOk : Bool} :
      PeerMove S d i ps (.tun packet clock sendOk)
        (ps.forward S i (packet.take maxPacketSize) clock sendOk).1
        (ps.forward S i (packet.take maxPacketSize) clock sendOk).2
  | received {datagram : Bytes} {source : SockAddr} {clock : UInt64} {kps : Nat → KeyPair}
      {sendOk tunOk : Bool} (found : findPeerByAddr d.peers source = some i) :
      PeerMove S d i ps (.udp datagram source clock kps sendOk tunOk)
        (ps.receive S i (datagram.take sealedBufSize) clock (kps i) sendOk tunOk).1
        (ps.receive S i (datagram.take sealedBufSize) clock (kps i) sendOk tunOk).2
  | refused {datagram : Bytes} {source : SockAddr} {clock : UInt64} {kps : Nat → KeyPair}
      {sendOk tunOk : Bool} {s : Session} (role : ps.config.role = .responder)
      (session : sessionHandleInit S (kps i) ps.session (datagram.take sealedBufSize)
        sessionHandshakeMsgLen = (s, none)) :
      PeerMove S d i ps (.udp datagram source clock kps sendOk tunOk) { ps with session := s } []
  | matched {datagram : Bytes} {source : SockAddr} {clock : UInt64} {kps : Nat → KeyPair}
      {sendOk tunOk : Bool} {response : Bytes} {s : Session}
      (unknown : findPeerByAddr d.peers source = none)
      (search : (findResponderForInit S kps (datagram.take sealedBufSize) sessionHandshakeMsgLen 0
        d.peers).2 = some (i, response))
      (role : ps.config.role = .responder)
      (session : sessionHandleInit S (kps i) ps.session (datagram.take sealedBufSize)
        sessionHandshakeMsgLen = (s, some response)) :
      PeerMove S d i ps (.udp datagram source clock kps sendOk tunOk)
        (if sendOk then PeerSession.learned source clock { ps with session := s }
          else { ps with session := s })
        [.accepted i (datagram.take sealedBufSize) clock, .derived i s.dataKeys clock,
          .sent response source sendOk]
  | ticked {now : UInt64} {env : Nat → Tick} :
      PeerMove S d i ps (.timer now env) (ps.tick S i now (env i)).1 (ps.tick S i now (env i)).2

variable {d : Daemon} {i : Nat} {ps : PeerSession}

theorem PeerMove.did {e : Event} {ps' : PeerSession} {effects : List Effect}
    (move : PeerMove S d i ps e ps' effects) : StepDid S d i ps e ps' effects := by
  cases move with
  | untouched => exact .untouched
  | forwarded => exact .forwarded (forward_did ..)
  | received found => exact .received found (receive_did ..)
  | refused role session => exact .refused role session
  | @matched _ _ _ _ sendOk _ _ _ unknown search role session =>
    cases sendOk with
    | true => exact .matched unknown search rfl rfl role session
    | false => exact .matched unknown search rfl rfl role session
  | ticked => exact .ticked (keepalive_did ..) (reconnect_did ..)

/-- A peer's part of the effects of an event: a stretch of them, with all that are about its
session. -/
structure OwnPart (i : Nat) (effects all : List Effect) : Prop where
  within : effects <:+: all
  whole : ∀ x ∈ all, x.peer? = some i → x ∈ effects

theorem OwnPart.refl (i : Nat) (effects : List Effect) : OwnPart i effects effects :=
  ⟨List.infix_rfl, fun _ hx _ => hx⟩

theorem OwnPart.sub {effects all : List Effect} (part : OwnPart i effects all) : effects ⊆ all :=
  part.within.subset

/-- What is about another session is none of a peer's part. -/
theorem OwnPart.other {j : Nat} {effects : List Effect} (hij : j ≠ i)
    (owned : ∀ x ∈ effects, x.peer? = none ∨ x.peer? = some j) : OwnPart i [] effects := by
  refine ⟨List.nil_infix, fun x hx hi => ?_⟩
  rcases owned x hx with h | h
  · rw [h] at hi
    cases hi
  · rw [h] at hi
    exact absurd (Option.some.inj hi) hij

/-- Everything a peer's part of an event can do to the outside. -/
inductive PartEffect (i : Nat) (ps : PeerSession) : Effect → Prop
  | sent {message : Bytes} {dest : SockAddr} {ok : Bool} : PartEffect i ps (.sent message dest ok)
  | wrote {packet : Bytes} {ok : Bool} : PartEffect i ps (.wrote packet ok)
  | accepted {datagram : Bytes} {clock : UInt64} : PartEffect i ps (.accepted i datagram clock)
  | derived {keys : SessionKeys} {clock : UInt64} : PartEffect i ps (.derived i keys clock)
  | sealed (established : ps.session.state = .established) :
      PartEffect i ps (.sealed i ps.session.dataKeys)

theorem SealDid.effect {ps' : PeerSession} {effects : List Effect}
    (did : SealDid S i ps ps' effects) : ∀ x ∈ effects, PartEffect i ps x := by
  cases did with
  | idle => exact nofun
  | unreturned => exact nofun
  | sealed _ established =>
    refine List.forall_mem_cons.mpr ⟨.sealed established, fun x hx => ?_⟩
    rw [List.mem_singleton.mp hx]
    exact .sent

theorem AttemptDid.effect {ps' : PeerSession} {effects : List Effect}
    (did : AttemptDid S ps ps' effects) :
    ∀ x ∈ effects, ∃ message dest ok, x = .sent message dest ok := by
  cases did with
  | idle => exact nofun
  | initiated _ _ _ _ _ sent =>
    intro x hx
    obtain ⟨_, _, rfl⟩ := sent x hx
    exact ⟨_, _, _, rfl⟩

theorem SealDid.unaccepted {ps' : PeerSession} {effects : List Effect}
    (did : SealDid S i ps ps' effects) (j : Nat) (datagram : Bytes) (t : UInt64) :
    .accepted j datagram t ∉ effects := by
  intro hx
  cases did with
  | idle => cases hx
  | unreturned => cases hx
  | sealed => simp only [List.mem_cons, List.not_mem_nil, or_false, reduceCtorEq] at hx

theorem AttemptDid.unaccepted {ps' : PeerSession} {effects : List Effect}
    (did : AttemptDid S ps ps' effects) (j : Nat) (datagram : Bytes) (t : UInt64) :
    .accepted j datagram t ∉ effects := by
  intro hx
  obtain ⟨_, _, _, h⟩ := did.effect _ hx
  cases h

theorem ReceiveDid.effect {datagram : Bytes} {clock : UInt64} {ps' : PeerSession}
    {effects : List Effect} (did : ReceiveDid S i datagram clock ps ps' effects) :
    ∀ x ∈ effects, PartEffect i ps x := by
  cases did with
  | idle => exact nofun
  | initRefused => exact nofun
  | initAccepted => simp [PartEffect.accepted, PartEffect.derived, PartEffect.sent]
  | responseAccepted => simp [PartEffect.accepted, PartEffect.derived]
  | opened _ _ _ wrote =>
    refine List.forall_mem_cons.mpr ⟨.accepted, fun x hx => ?_⟩
    obtain ⟨_, rfl⟩ := wrote x hx
    exact .wrote

theorem StepDid.effect {e : Event} {ps' : PeerSession} {effects : List Effect}
    (did : StepDid S d i ps e ps' effects) : ∀ x ∈ effects, PartEffect i ps x := by
  cases did with
  | untouched => exact nofun
  | forwarded did => exact did.effect
  | received _ did => exact did.effect
  | refused => exact nofun
  | matched => simp [PartEffect.accepted, PartEffect.derived, PartEffect.sent]
  | ticked keepalive reconnect =>
    intro x hx
    rcases List.mem_append.mp hx with hx | hx
    · exact keepalive.effect x hx
    · obtain ⟨_, _, _, rfl⟩ := reconnect.effect x hx
      exact .sent

/-- A peer's effects are about no other session. -/
theorem StepDid.owned {e : Event} {ps' : PeerSession} {effects : List Effect}
    (did : StepDid S d i ps e ps' effects) :
    ∀ x ∈ effects, x.peer? = none ∨ x.peer? = some i := by
  intro x hx
  cases did.effect x hx with
  | sent => exact .inl rfl
  | wrote => exact .inl rfl
  | accepted => exact .inr rfl
  | derived => exact .inr rfl
  | sealed => exact .inr rfl

/-- Where the TUN branch does anything, it forwards to one peer. -/
theorem tun_did (host : Endian) (packet : Bytes) (clock : UInt64) (sendOk : Bool) (d : Daemon) :
    d.tun S host packet clock sendOk = (d, []) ∨
      ∃ i ps, d.peers[i]? = some ps ∧
        d.tun S host packet clock sendOk =
          ({ d with
              peers := d.peers.set i
                (ps.forward S i (packet.take maxPacketSize) clock sendOk).1 },
            (ps.forward S i (packet.take maxPacketSize) clock sendOk).2) := by
  unfold Daemon.tun
  dsimp only
  split
  · exact .inl rfl
  · split
    · exact .inl rfl
    · next i _ =>
      split
      · exact .inl rfl
      · next ps get => exact .inr ⟨i, ps, get, rfl⟩

theorem timer_get (now : UInt64) (env : Nat → Tick) (d : Daemon) (i : Nat) :
    (d.timer S now env).1.peers[i]? =
      d.peers[i]?.map fun ps => (ps.tick S i now (env i)).1 := by
  unfold Daemon.timer
  split
  · simp only [List.getElem?_map, List.getElem?_mapIdx, Option.map_map]
    rfl
  · next h =>
    rw [Nat.not_lt, Nat.le_zero, List.length_eq_zero_iff] at h
    rw [h]
    rfl

theorem timer_effects (now : UInt64) (env : Nat → Tick) (d : Daemon) :
    (d.timer S now env).2 =
      (d.peers.mapIdx fun i ps => ps.tick S i now (env i)).flatMap Prod.snd ++ [.passed now] := by
  unfold Daemon.timer
  split
  · rfl
  · next h =>
    rw [Nat.not_lt, Nat.le_zero, List.length_eq_zero_iff] at h
    rw [h]
    rfl

/-- A peer's part of the effects of a timer pass. -/
theorem tick_part (now : UInt64) (env : Nat → Tick) (get : d.peers[i]? = some ps) :
    OwnPart i (ps.tick S i now (env i)).2 (d.timer S now env).2 := by
  obtain ⟨hlt, rfl⟩ := List.getElem?_eq_some_iff.mp get
  constructor
  · have ticked : ((d.peers[i]).tick S i now (env i)).2 ∈
        (d.peers.mapIdx fun i ps => ps.tick S i now (env i)).map Prod.snd :=
      List.mem_map_of_mem (List.mem_mapIdx.mpr ⟨i, hlt, rfl⟩)
    rw [timer_effects, List.flatMap_def]
    exact (List.infix_of_mem_flatten ticked).trans (List.prefix_append _ _).isInfix
  · intro x hx hi
    rw [timer_effects, List.mem_append, List.mem_flatMap, List.mem_singleton] at hx
    obtain ⟨p, hp, hx⟩ | rfl := hx
    · obtain ⟨j, hj, rfl⟩ := List.mem_mapIdx.mp hp
      have ticked : PeerMove S d j d.peers[j] (.timer now env) _ _ := .ticked
      rcases ticked.did.owned x hx with h | h
      · rw [h] at hi
        cases hi
      · cases h.symm.trans hi
        exact hx
    · cases hi

/-- A list with one place replaced, at any place. -/
theorem set_get {peers : List PeerSession} {j : Nat} {new : PeerSession}
    (get : peers[i]? = some ps) :
    (peers.set j new)[i]? = some (if j = i then new else ps) := by
  obtain ⟨hlt, _⟩ := List.getElem?_eq_some_iff.mp get
  rw [List.getElem?_set]
  split
  · next h => rw [if_pos (h ▸ hlt)]
  · exact get

section Udp

variable {clock : UInt64} {datagram : Bytes} {source : SockAddr} {kps : Nat → KeyPair}
  {sendOk tunOk : Bool} {d' : Daemon} {effects : List Effect}

/-- The peer an init from an unknown address was accepted for. -/
theorem matched_get {peers : List PeerSession} {response : Bytes}
    (unknown : findPeerByAddr d.peers source = none)
    (search : findResponderForInit S kps (datagram.take sealedBufSize) sessionHandshakeMsgLen 0
      d.peers = (peers, some (i, response))) (get : peers[i]? = some ps) :
    ∃ ps₀ ps', d.peers[i]? = some ps₀ ∧
      (if sendOk then peers.set i (ps.learned source clock) else peers)[i]? = some ps' ∧
      PeerMove S d i ps₀ (.udp datagram source clock kps sendOk tunOk) ps'
        [.accepted i (datagram.take sealedBufSize) clock, .derived i ps.session.dataKeys clock,
          .sent response source sendOk] := by
  obtain ⟨ps₀, s, hget, role, session, hs⟩ := (Tried.of_search search).matched_get
  cases get.symm.trans hs
  refine ⟨ps₀, _, hget, ?_, .matched unknown (congrArg Prod.snd search) role session⟩
  cases sendOk with
  | true => exact (set_get get).trans (by rw [if_pos rfl]; rfl)
  | false => exact get

/-- What a datagram does to one peer. -/
theorem UdpDid.get
    (did : UdpDid S (datagram.take sealedBufSize) source clock kps sendOk tunOk d d' effects)
    (get : d.peers[i]? = some ps) :
    ∃ ps' own, d'.peers[i]? = some ps' ∧ OwnPart i own effects ∧
      PeerMove S d i ps (.udp datagram source clock kps sendOk tunOk) ps' own := by
  cases did with
  | ignored => exact ⟨ps, [], get, .refl _ _, .untouched⟩
  | @known j psj found hj =>
    have received : PeerMove S d j psj (.udp datagram source clock kps sendOk tunOk) _ _ :=
      .received found
    by_cases hij : j = i
    · subst hij
      cases get.symm.trans hj
      exact ⟨_, _, (set_get get).trans (by rw [if_pos rfl]), .refl _ _, received⟩
    · exact ⟨ps, [], (set_get get).trans (by rw [if_neg hij]), .other hij received.did.owned,
        .untouched⟩
  | unmatched unknown search =>
    obtain ⟨ps', reply, hget, hone, hreply⟩ := (Tried.of_search search).get get
    rw [Nat.zero_add] at hone hreply
    refine ⟨ps', [], hget, .refl _ _, ?_⟩
    cases hone with
    | kept => exact .untouched
    | refused role session => exact .refused role session
    | accepted role session => cases (hreply _).mp rfl
  | @matched peers j response psj unknown search hj =>
    obtain ⟨ps₀, psm, hget₀, hget', move⟩ := matched_get unknown search hj
    by_cases hij : j = i
    · subst hij
      cases get.symm.trans hget₀
      exact ⟨psm, _, hget', .refl _ _, move⟩
    · obtain ⟨ps', reply, hget, hone, hreply⟩ := (Tried.of_search search).get get
      rw [Nat.zero_add] at hone hreply
      refine ⟨ps', [], ?_, .other hij move.did.owned, ?_⟩
      · cases sendOk with
        | true => exact (set_get hget).trans (by rw [if_neg hij])
        | false => exact hget
      · cases hone with
        | kept => exact .untouched
        | refused role session => exact .refused role session
        | accepted role session =>
          have heq := (hreply _).mp rfl
          exact absurd (Prod.mk.inj (Option.some.inj heq)).1 hij

theorem UdpDid.length
    (did : UdpDid S (datagram.take sealedBufSize) source clock kps sendOk tunOk d d' effects) :
    d'.peers.length = d.peers.length := by
  cases did with
  | ignored => rfl
  | known => rw [List.length_set]
  | unmatched _ search => exact (Tried.of_search search).length
  | matched _ search =>
    have hlength := (Tried.of_search search).length
    cases sendOk with
    | true => exact List.length_set.trans hlength
    | false => exact hlength

/-- What a datagram does to the outside, one peer does. -/
theorem UdpDid.actor {x : Effect}
    (did : UdpDid S (datagram.take sealedBufSize) source clock kps sendOk tunOk d d' effects)
    (hx : x ∈ effects) :
    ∃ i ps ps', d.peers[i]? = some ps ∧ d'.peers[i]? = some ps' ∧
      PeerMove S d i ps (.udp datagram source clock kps sendOk tunOk) ps' effects := by
  cases did with
  | ignored => cases hx
  | @known i ps found get =>
    exact ⟨i, ps, _, get, (set_get get).trans (by rw [if_pos rfl]), .received found⟩
  | unmatched => cases hx
  | @matched peers i response ps' unknown search get => exact ⟨i, matched_get unknown search get⟩

end Udp

/-- **What any event runs on one peer.** The effects of the event that are about this peer's session
stand together among its effects. -/
theorem Daemon.step_move (host : Endian) (e : Event) (get : d.peers[i]? = some ps) :
    ∃ ps' effects, (d.step S host e).1.peers[i]? = some ps' ∧
      OwnPart i effects (d.step S host e).2 ∧ PeerMove S d i ps e ps' effects := by
  cases e with
  | tun packet clock sendOk =>
    obtain h | ⟨j, psj, hj, h⟩ := tun_did (S := S) host packet clock sendOk d
    · rw [Daemon.step, h]
      exact ⟨ps, [], get, .refl _ _, .untouched⟩
    · rw [Daemon.step, h]
      have forwarded : PeerMove S d j psj (.tun packet clock sendOk) _ _ := .forwarded
      by_cases hij : j = i
      · subst hij
        cases get.symm.trans hj
        exact ⟨_, _, (set_get get).trans (by rw [if_pos rfl]), .refl _ _, forwarded⟩
      · exact ⟨ps, [], (set_get get).trans (by rw [if_neg hij]), .other hij forwarded.did.owned,
          .untouched⟩
  | udp datagram source clock kps sendOk tunOk =>
    exact (udp_did clock datagram source kps sendOk tunOk d).get get
  | timer now env =>
    refine ⟨(ps.tick S i now (env i)).1, _, ?_, tick_part now env get, .ticked⟩
    rw [Daemon.step, timer_get, get]
    rfl

/-- **What any event does to one peer**, in terms of its session, with the effects that are the
peer's own part of those of the event. -/
theorem Daemon.step_get (host : Endian) (e : Event) (get : d.peers[i]? = some ps) :
    ∃ ps' effects, (d.step S host e).1.peers[i]? = some ps' ∧
      OwnPart i effects (d.step S host e).2 ∧ StepDid S d i ps e ps' effects := by
  obtain ⟨ps', effects, get', part, move⟩ := Daemon.step_move (S := S) host e get
  exact ⟨ps', effects, get', part, move.did⟩

theorem Daemon.step_length (host : Endian) (e : Event) (d : Daemon) :
    (d.step S host e).1.peers.length = d.peers.length := by
  cases e with
  | tun packet clock sendOk =>
    obtain h | ⟨_, _, _, h⟩ := tun_did (S := S) host packet clock sendOk d
    · rw [Daemon.step, h]
    · rw [Daemon.step, h, List.length_set]
  | udp datagram source clock kps sendOk tunOk =>
    exact (udp_did clock datagram source kps sendOk tunOk d).length
  | timer now env =>
    rw [Daemon.step, Daemon.timer]
    split
    · rw [List.length_map, List.length_mapIdx]
    · rfl

/-- Where a peer after an event comes from. -/
theorem Daemon.move_from (host : Endian) (e : Event) {ps' : PeerSession}
    (get : (d.step S host e).1.peers[i]? = some ps') :
    ∃ ps effects, d.peers[i]? = some ps ∧ OwnPart i effects (d.step S host e).2 ∧
      PeerMove S d i ps e ps' effects := by
  obtain ⟨hlt, _⟩ := List.getElem?_eq_some_iff.mp get
  rw [Daemon.step_length] at hlt
  have before := List.getElem?_eq_getElem hlt
  obtain ⟨ps'', effects, hget, part, move⟩ := Daemon.step_move (S := S) host e before
  cases get.symm.trans hget
  exact ⟨_, effects, before, part, move⟩

theorem Daemon.step_from (host : Endian) (e : Event) {ps' : PeerSession}
    (get : (d.step S host e).1.peers[i]? = some ps') :
    ∃ ps effects, d.peers[i]? = some ps ∧ OwnPart i effects (d.step S host e).2 ∧
      StepDid S d i ps e ps' effects := by
  obtain ⟨ps, effects, before, part, move⟩ := Daemon.move_from host e get
  exact ⟨ps, effects, before, part, move.did⟩

/-- Where an effect of an event comes from. -/
theorem Daemon.move_effects (host : Endian) (e : Event) {x : Effect}
    (hx : x ∈ (d.step S host e).2) :
    (∃ now env, e = .timer now env ∧ x = .passed now) ∨
      ∃ i ps ps' effects, d.peers[i]? = some ps ∧ (d.step S host e).1.peers[i]? = some ps' ∧
        PeerMove S d i ps e ps' effects ∧ effects ⊆ (d.step S host e).2 ∧ x ∈ effects := by
  cases e with
  | tun packet clock sendOk =>
    obtain h | ⟨i, ps, hget, h⟩ := tun_did (S := S) host packet clock sendOk d
    · rw [Daemon.step, h] at hx
      cases hx
    · rw [Daemon.step, h] at hx ⊢
      exact .inr ⟨i, ps, _, _, hget, (set_get hget).trans (by rw [if_pos rfl]), .forwarded,
        List.Subset.refl _, hx⟩
  | udp datagram source clock kps sendOk tunOk =>
    obtain ⟨i, ps, ps', get, get', move⟩ :=
      (udp_did clock datagram source kps sendOk tunOk d).actor hx
    exact .inr ⟨i, ps, ps', _, get, get', move, List.Subset.refl _, hx⟩
  | timer now env =>
    rw [Daemon.step, timer_effects, List.mem_append, List.mem_flatMap, List.mem_singleton] at hx
    obtain ⟨p, hp, hx⟩ | rfl := hx
    · obtain ⟨i, hlt, rfl⟩ := List.mem_mapIdx.mp hp
      have get := List.getElem?_eq_getElem hlt
      refine .inr ⟨i, _, _, _, get, ?_, .ticked, fun y hy => ?_, hx⟩
      · rw [Daemon.step, timer_get, get]
        rfl
      · rw [Daemon.step, timer_effects]
        exact List.mem_append_left _ (List.mem_flatMap.mpr ⟨_, hp, hy⟩)
    · exact .inl ⟨now, env, rfl, rfl⟩

theorem Daemon.step_effects (host : Endian) (e : Event) {x : Effect}
    (hx : x ∈ (d.step S host e).2) :
    (∃ now env, e = .timer now env ∧ x = .passed now) ∨
      ∃ i ps ps' effects, d.peers[i]? = some ps ∧ (d.step S host e).1.peers[i]? = some ps' ∧
        StepDid S d i ps e ps' effects ∧ x ∈ effects := by
  obtain h | ⟨i, ps, ps', effects, get, get', move, _, hx⟩ := Daemon.move_effects host e hx
  · exact .inl h
  · exact .inr ⟨i, ps, ps', effects, get, get', move.did, hx⟩

/-! ## Start -/

theorem mapM_id_get {α : Type} {l : List (Option α)} {l' : List α} (h : l.mapM id = some l')
    {i : Nat} {x : α} (get : l'[i]? = some x) : l[i]? = some (some x) := by
  induction l generalizing l' i with
  | nil => cases h; cases get
  | cons o l ih =>
    rw [List.mapM_cons] at h
    obtain ⟨y, hy, h⟩ := Option.bind_eq_some_iff.mp h
    obtain ⟨rest, hrest, h⟩ := Option.bind_eq_some_iff.mp h
    cases h
    cases i with
    | zero => cases get; exact congrArg some hy
    | succ i => exact ih hrest get

theorem mapM_id_length {α : Type} {l : List (Option α)} {l' : List α} (h : l.mapM id = some l') :
    l'.length = l.length := by
  induction l generalizing l' with
  | nil => cases h; rfl
  | cons o l ih =>
    rw [List.mapM_cons] at h
    obtain ⟨y, _, h⟩ := Option.bind_eq_some_iff.mp h
    obtain ⟨rest, hrest, h⟩ := Option.bind_eq_some_iff.mp h
    cases h
    rw [List.length_cons, List.length_cons, ih hrest]

/-- How a peer starts: fresh, and, for an initiator, with one attempt made. -/
theorem startPeer_eq {privateKey : SecretKey} {config : ConfigPeer} {boot : Boot}
    {effects : List Effect} (h : startPeer S privateKey config boot = some (ps, effects)) :
    ∃ session, sessionInit S config.role (cryptoDerivePublicKey S privateKey) privateKey
        config.publicKey boot.time boot.initialPair = some session ∧
      ((config.role = .initiator ∧ (ps, effects) = initiateHandshake S boot.attemptClock
          boot.toAttempt (PeerSession.fresh config session boot.clock)) ∨
        (config.role = .responder ∧
          (ps, effects) = (PeerSession.fresh config session boot.clock, []))) := by
  simp only [startPeer] at h
  split at h
  · cases h
  · next session hinit =>
    refine ⟨session, hinit, ?_⟩
    split at h
    · next role => exact .inl ⟨role, (Option.some.inj h).symm⟩
    · next role => exact .inr ⟨role, (Option.some.inj h).symm⟩

/-- From a fresh session with nothing known of the address, a start is an attempt or nothing. -/
theorem startPeer_did {privateKey : SecretKey} {config : ConfigPeer} {boot : Boot}
    {effects : List Effect} (h : startPeer S privateKey config boot = some (ps, effects)) :
    ∃ ps₀, ps₀.config = config ∧ ps₀.addrResolved = false ∧
      sessionInit S config.role (cryptoDerivePublicKey S privateKey) privateKey config.publicKey
        boot.time boot.initialPair = some ps₀.session ∧
      AttemptDid S ps₀ ps effects := by
  obtain ⟨session, hinit, ⟨role, hattempt⟩ | ⟨_, hfresh⟩⟩ := startPeer_eq h
  · have did := initiateHandshake_did (S := S) boot.attemptClock
      (PeerSession.fresh config session boot.clock) boot.toAttempt role
    rw [← hattempt] at did
    exact ⟨_, rfl, rfl, hinit, did⟩
  · cases hfresh
    exact ⟨_, rfl, rfl, hinit, .idle ⟨rfl, rfl, rfl, rfl⟩ rfl⟩

theorem startPeer_pending {privateKey : SecretKey} {config : ConfigPeer} {boot : Boot}
    {effects : List Effect} (h : startPeer S privateKey config boot = some (ps, effects)) :
    ps.session.state = .handshakePending := by
  obtain ⟨ps₀, _, _, hinit, did⟩ := startPeer_did h
  cases did with
  | idle _ session =>
    obtain ⟨_, _, hsession⟩ := sessionInit_eq_some hinit
    rw [session, hsession]
    rfl
  | initiated _ _ _ _ session =>
    rw [session]
    exact sessionBuildInit_state ..

section WorldStart

variable {cfg : Config} {boots : Nat → Boot} {clock : UInt64} {w : World}

/-- Where a peer of a started daemon comes from. -/
theorem World.start_get (start : World.start S cfg boots clock = some w)
    (get : w.daemon.peers[i]? = some ps) :
    ∃ config effects, cfg.peers[i]? = some config ∧ effects ⊆ w.log ∧
      startPeer S cfg.privateKey config (boots i) = some (ps, effects) := by
  unfold World.start at start
  split at start
  · cases start
  · next started hstarted =>
    cases start
    rw [List.getElem?_map, Option.map_eq_some_iff] at get
    obtain ⟨⟨_, effects⟩, hget, rfl⟩ := get
    have hpeer := mapM_id_get hstarted hget
    rw [List.getElem?_mapIdx, Option.map_eq_some_iff] at hpeer
    obtain ⟨config, hconfig, hstart⟩ := hpeer
    refine ⟨config, effects, hconfig, fun x hx => ?_, hstart⟩
    exact List.mem_flatMap.mpr ⟨_, List.mem_of_getElem? hget, hx⟩

/-- A started daemon has a peer for each section of its configuration. -/
theorem World.start_length (start : World.start S cfg boots clock = some w) :
    w.daemon.peers.length = cfg.peers.length := by
  unfold World.start at start
  split at start
  · cases start
  · next started hstarted =>
    cases start
    rw [List.length_map, mapM_id_length hstarted, List.length_mapIdx]

/-- A started daemon has no established peer. -/
theorem World.start_pending (start : World.start S cfg boots clock = some w)
    (get : w.daemon.peers[i]? = some ps) : ps.session.state = .handshakePending := by
  obtain ⟨config, effects, _, _, hstart⟩ := World.start_get start get
  exact startPeer_pending hstart

/-- A started daemon has sent inits at most. -/
theorem World.start_log (start : World.start S cfg boots clock = some w) {x : Effect}
    (hx : x ∈ w.log) : ∃ packet dest ok, x = .sent (sessionMsgHandshakeInit :: packet) dest ok := by
  unfold World.start at start
  split at start
  · cases start
  · next started hstarted =>
    cases start
    obtain ⟨⟨ps, effects⟩, hp, hx⟩ := List.mem_flatMap.mp hx
    obtain ⟨i, hget⟩ := List.mem_iff_getElem?.mp hp
    have hpeer := mapM_id_get hstarted hget
    rw [List.getElem?_mapIdx, Option.map_eq_some_iff] at hpeer
    obtain ⟨config, _, hstart⟩ := hpeer
    obtain ⟨_, _, _, _, did⟩ := startPeer_did hstart
    cases did with
    | idle => cases hx
    | initiated _ _ _ _ _ sent =>
      obtain ⟨packet, ok, rfl⟩ := sent x hx
      exact ⟨packet, _, ok, rfl⟩

end WorldStart

end EdgarVPN
