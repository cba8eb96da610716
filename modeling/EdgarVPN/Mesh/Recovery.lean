import EdgarVPN.Daemon.Attribution
import EdgarVPN.Daemon.Pacing
import EdgarVPN.Mesh.Integrity
import EdgarVPN.Relationship.Recovery

/-!
# A link comes up from anywhere

`Relationship.Recovery` in terms of the loop. Wherever a mesh has got to, processes on either side
having ended and started at any time: when the initiator of a link comes to its next attempt, the
two datagrams of that attempt, if they arrive with nothing in between, bring the link up.

What the run must have granted is what `Move.Granted` says: nothing forged under the static keys,
pairs that can be drawn, a restarted initiator whose clock is ahead of the counters it used, and a
handshake counter that does not wrap. What the network must do is named too (`Daemon.Takes`): the
init reaches the responder from the address it knows the peer by, or from one that it knows nobody
by, and then the responder's sections have different public keys and the init authenticates for one
of them only; the response is sent, and reaches the initiator from the address it knows the peer by.
An init from the address of another peer is not attributed to its own, and nothing is said of it
here.

**What is proved.** `link_recovers`.
-/

set_option autoImplicit false

namespace EdgarVPN

variable {S : Sodium}

/-! ## The initiator's timer pass -/

theorem reconnect_due {ps : PeerSession} {now : UInt64} (role : ps.config.role = .initiator)
    (due : ps.Due now) (env : Attempt) :
    ps.reconnect S now env = initiateHandshake S now env ps := by
  unfold PeerSession.reconnect
  by_cases timeout : now - ps.lastRxActivityMs ≥ sessionTimeoutMs
  · rw [if_pos ⟨role, timeout⟩]
  · rw [if_neg (fun h => timeout h.2), if_pos ⟨role, due.resolve_left timeout⟩]

/-- The keepalive does not make an attempt less due. -/
theorem PeerSession.Due.keepalive {ps : PeerSession} {now : UInt64} (due : ps.Due now) (i : Nat)
    (sendOk : Bool) : (ps.keepalive S i now sendOk).1.Due now := by
  have did := keepalive_did (S := S) i now ps sendOk
  obtain ⟨txCounter, session⟩ := did.session
  unfold PeerSession.Due
  rw [keepalive_lastRx, session, did.kept.completed]
  exact due

/-- An attempt whose address is known, or resolves, starts with a new pair and sends the init. -/
theorem initiateHandshake_sends {ps : PeerSession} {env : Attempt} {s : Session} {init : Bytes}
    (address : ps.addrResolved = true ∨ env.resolved.isSome = true)
    (build : sessionBuildInit S (sessionStartHandshake env.kp ps.session) sealedBufSize =
      (s, some init)) (now : UInt64) :
    (initiateHandshake S now env ps).1.session = s ∧
      ∃ dest, .sent init dest env.sent ∈ (initiateHandshake S now env ps).2 := by
  have sends : ∀ ps' : PeerSession, ps'.session = ps.session →
      (ps'.sendInit S now env).1.session = s ∧
        ∃ dest, .sent init dest env.sent ∈ (ps'.sendInit S now env).2 := by
    intro ps' hsession
    rw [PeerSession.sendInit]
    dsimp only
    rw [hsession, build]
    exact ⟨rfl, _, List.mem_singleton_self _⟩
  unfold initiateHandshake
  by_cases known : ps.addrResolved = true
  · rw [if_pos known]
    exact sends ps rfl
  · rw [if_neg known]
    obtain ⟨ip, hip⟩ := Option.isSome_iff_exists.mp (address.resolve_left known)
    rw [hip]
    exact sends _ rfl

/-- Sealing leaves a relationship in order. -/
theorem Ordered.sealed (aead : S.Aead) {ids : Identities} {keys : SessionKeys} {r : Relationship}
    (derive : ids.Derive S keys) (ordered : Ordered S keys r) {i : Nat} {ps ps' : PeerSession}
    {effects : List Effect} (did : SealDid S i ps ps' effects)
    (at_ : ps.session = r.initiator.session) :
    ∃ r', Ordered S keys r' ∧ r'.initiator.session = ps'.session ∧
      r'.responder.session = r.responder.session := by
  cases did with
  | idle _ session => exact ⟨r, ordered, (session.trans at_).symm, rfl⟩
  | @unreturned plaintext _ _ session =>
    refine ⟨r.step S ids (.initiator (.sealData plaintext sealedBufSize)),
      ordered.step aead derive ⟨trivial, trivial, trivial, trivial⟩, ?_, rfl⟩
    rw [at_] at session
    exact congrArg Prod.fst session
  | @sealed plaintext message _ _ _ session =>
    refine ⟨r.step S ids (.initiator (.sealData plaintext sealedBufSize)),
      ordered.step aead derive ⟨trivial, trivial, trivial, trivial⟩, ?_, rfl⟩
    rw [at_] at session
    exact congrArg Prod.fst session

/-- **An attempt that is due**: the timer pass builds and sends an init, in a relationship that is
still in order. -/
theorem Ordered.tick_attempts (aead : S.Aead) {ids : Identities} {keys : SessionKeys}
    {r : Relationship} (derive : ids.Derive S keys) (ordered : Ordered S keys r)
    {ps : PeerSession} (at_ : ps.session = r.initiator.session)
    (role : ps.config.role = .initiator) {now : UInt64} (due : ps.Due now) {env : Tick}
    (address : ps.addrResolved = true ∨ env.resolved.isSome = true) (i : Nat) :
    ∃ r' packet, Ordered S keys r' ∧ r'.responder.session = r.responder.session ∧
      sessionBuildInit S (sessionStartHandshake env.kp r'.initiator.session) sealedBufSize =
        ((ps.tick S i now env).1.session, some (sessionMsgHandshakeInit :: packet)) ∧
      packet.length < sealedBufSize ∧ (ps.tick S i now env).1.config = ps.config ∧
      ∃ dest, .sent (sessionMsgHandshakeInit :: packet) dest env.sent ∈
        (ps.tick S i now env).2 := by
  -- the keepalive comes first
  have kept := keepalive_did (S := S) i now ps env.keepaliveSent
  obtain ⟨r', ordered', session', responder⟩ := ordered.sealed aead derive kept at_
  have room : sessionHandshakeMsgLen ≤ sealedBufSize := by decide
  obtain ⟨packet, sealed, build⟩ := sessionBuildInit_isSome aead
    (s := sessionStartHandshake env.kp r'.initiator.session) ordered'.initiatorRole rfl room
  have known : (ps.keepalive S i now env.keepaliveSent).1.addrResolved = true ∨
      env.resolved.isSome = true := by
    rw [kept.kept.addrResolved]
    exact address
  have build' := build
  rw [session'] at build'
  obtain ⟨sessionT, dest, sent⟩ := initiateHandshake_sends known build' now
  rw [← reconnect_due (kept.kept.config ▸ role) (due.keepalive _ _)] at sessionT sent
  have hlength := cryptoSeal_length aead sealed
  have hkey : (sessionStartHandshake env.kp r'.initiator.session).localEphPk.bytes.length =
      cryptoPublicKeyBytes := Block.size _
  have hbuf : sealedBufSize = 1 + cryptoPacketOverhead + 2048 := rfl
  have hpk : cryptoPublicKeyBytes = 32 := rfl
  refine ⟨r', packet, ordered', responder, ?_, by omega, ?_, dest, List.mem_append_right _ sent⟩
  · rw [build, session']
    exact congrArg (·, _) sessionT.symm
  · exact (reconnect_did (S := S) now _ env.toAttempt).config.trans kept.kept.config

/-- What follows of an init that was built in an ordered relationship, when it is answered. -/
theorem Ordered.answered_round (aead : S.Aead) (kx : S.Kx) {keys : SessionKeys} {r : Relationship}
    (ordered : Ordered S keys r) {kpI kpR : KeyPair} (pairI : kpI.Matches S)
    (pairR : kpR.Matches S) {i : Session} {init : Bytes}
    (build : sessionBuildInit S (sessionStartHandshake kpI r.initiator.session) sealedBufSize =
      (i, some init)) :
    ∃ s response i', sessionHandleInit S kpR r.responder.session init sessionHandshakeMsgLen =
        (s, some response) ∧
      sessionHandleResponse S i response = (i', true) ∧ Recovered S i' s := by
  have room : sessionHandshakeMsgLen ≤ sealedBufSize := by decide
  obtain ⟨_, _, round, recovered⟩ := ordered.round aead kx pairI pairR room
    (Nat.le_refl sessionHandshakeMsgLen)
  rw [handshakeRound, build] at round
  dsimp only at round
  split at round
  · cases round
  · next s response accepts =>
    split at round
    · cases round
    · next i' completes =>
      cases round
      exact ⟨_, response, _, accepts, completes, recovered⟩

/-! ## The responder's answer -/

/-- Where an init may come from, to be taken for that of the peer at index `j`. -/
def Daemon.Takes (S : Sodium) (cfg : Config) (d : Daemon) (j : Nat) (source : SockAddr)
    (init : Bytes) : Prop :=
  findPeerByAddr d.peers source = some j ∨
    findPeerByAddr d.peers source = none ∧ cfg.RespondersApart ∧ cfg.Separates S init.tail

theorem udp_answers {cfg : Config} {d : Daemon} {j : Nat} {ps : PeerSession} {init response : Bytes}
    {s : Session} {source : SockAddr} {kps : Nat → KeyPair} (keyed : d.Keyed S cfg)
    (get : d.peers[j]? = some ps) (role : ps.config.role = .responder)
    (fits : init.length ≤ sealedBufSize)
    (accepts : sessionHandleInit S (kps j) ps.session init sessionHandshakeMsgLen =
      (s, some response)) (takes : d.Takes S cfg j source init) (clock : UInt64)
    (tunOk : Bool) :
    (∃ ps', (d.udp S init source clock kps true tunOk).1.peers[j]? = some ps' ∧ ps'.session = s) ∧
      .sent response source true ∈ (d.udp S init source clock kps true tunOk).2 := by
  have whole : init.take sealedBufSize = init := List.take_of_length_le fits
  have hlt : j < d.peers.length := (List.getElem?_eq_some_iff.mp get).1
  obtain ⟨peer, counter, keys, read, -⟩ := sessionHandleInit_eq_some accepts
  obtain ⟨-, -, payload, rfl, auth, -⟩ := sessionReadInit_eq_some read
  rcases takes with found | ⟨unknown, apart, separates⟩
  · obtain ⟨-, hsource⟩ := findPeerByAddr_eq_some found get
    rw [udp_known j clock found get (by rw [whole]; exact List.cons_ne_nil _ _), whole,
      receive_accepts role accepts, hsource]
    exact ⟨⟨_, List.getElem?_set_self hlt, rfl⟩,
      List.mem_cons_of_mem _ (List.mem_cons_of_mem _ (List.mem_singleton_self _))⟩
  · have search := findResponderForInit_only (i := 0) get role
      (by rw [Nat.zero_add]; exact accepts) fun k psk hk hget hrole =>
        sessionReadInit_unauthenticated (keyed.authenticates_one apart separates get hget role hrole
          auth (Nat.ne_of_gt hk)) _
    rw [Nat.zero_add, ← whole] at search
    rw [udp_matched j clock unknown search (List.getElem?_set_self hlt), List.set_set]
    exact ⟨⟨_, List.getElem?_set_self hlt, rfl⟩,
      List.mem_cons_of_mem _ (List.mem_cons_of_mem _ (List.mem_singleton_self _))⟩

/-- The response to an init is of its type, and the receive buffer holds it. -/
theorem sessionHandleInit_response_fits (aead : S.Aead) {kp : KeyPair} {s s' : Session}
    {input response : Bytes} {outLen : Nat}
    (h : sessionHandleInit S kp s input outLen = (s', some response)) :
    ∃ packet, response = sessionMsgHandshakeResponse :: packet ∧
      packet.length < sealedBufSize := by
  have outcome := sessionHandleInit_outcome (S := S) kp s input outLen
  rw [h] at outcome
  cases outcome with
  | accepted _ _ sealed =>
    refine ⟨_, rfl, ?_⟩
    have hlength := cryptoSeal_length aead sealed
    have hkey : (s.reattempt kp).localEphPk.bytes.length = cryptoPublicKeyBytes :=
      (s.reattempt kp).localEphPk.size
    have hbuf : sealedBufSize = 1 + cryptoPacketOverhead + 2048 := rfl
    have hpk : cryptoPublicKeyBytes = 32 := rfl
    omega

/-- The UDP branch on the response that completes the handshake. -/
theorem udp_completes {d : Daemon} {i : Nat} {ps : PeerSession} {packet : Bytes} {s : Session}
    {source : SockAddr} (found : findPeerByAddr d.peers source = some i)
    (get : d.peers[i]? = some ps) (role : ps.config.role = .initiator)
    (fits : packet.length < sealedBufSize)
    (completes : sessionHandleResponse S ps.session (sessionMsgHandshakeResponse :: packet) =
      (s, true)) (clock : UInt64) (kps : Nat → KeyPair) (sendOk tunOk : Bool) :
    ∃ ps', (d.udp S (sessionMsgHandshakeResponse :: packet) source clock kps sendOk
      tunOk).1.peers[i]? = some ps' ∧ ps'.session = s := by
  have whole : (sessionMsgHandshakeResponse :: packet).take sealedBufSize =
      sessionMsgHandshakeResponse :: packet := List.take_of_length_le fits
  have hinit : sessionMsgHandshakeResponse ≠ sessionMsgHandshakeInit := by decide
  rw [udp_known i clock found get (by rw [whole]; exact List.cons_ne_nil _ _), whole]
  refine ⟨_, List.getElem?_set_self (List.getElem?_eq_some_iff.mp get).1, ?_⟩
  simp only [PeerSession.receive, List.getD_cons_zero, hinit, false_and, if_false, role, and_self,
    if_true, PeerSession.receiveResponse, completes]

/-! ## The round -/

section Recovery

variable {ι : Type} [DecidableEq ι] {mesh : Mesh ι} {boots : ι → Nat → Boot}
  {clocks : ι → UInt64} {nodes : ι → Option World} {events : List (ι × NodeEvent)}

theorem Link.ordered (aead : S.Aead) (booted : mesh.Booted S boots clocks nodes) {l : Link S mesh}
    {keys : SessionKeys} (derive : l.ids.Derive S keys)
    (drawn : ∀ role, (l.bootOf boots role).initialPair.Matches S)
    (granted : Runs.Admitted (Relationship.step S l.ids) (fun r m => m.Granted S r) (l.fresh boots)
      (l.history boots nodes events)) : Ordered S keys (l.relationship boots nodes events) :=
  ordered_run aead derive (Ordered.started derive (drawn _) (drawn _) (l.fresh_started booted))
    granted

/-- **A link comes up from anywhere.** After any granted run of a booted mesh, with restarts of
either side, that leaves both nodes of a link up: when an attempt of the initiator is due, and the
address of its peer is known or resolves, its timer pass sends an init; a responder that receives it
next, from an address from which it takes it for this peer's (`Daemon.Takes`), and whose `udp_send`
succeeds, answers; and an initiator that receives the answer next, from the address it knows the
peer by, is established. Both then hold the same fresh data channel. -/
theorem link_recovers (aead : S.Aead) (kx : S.Kx) (booted : mesh.Booted S boots clocks nodes)
    {l : Link S mesh} (drawn : ∀ role, (l.bootOf boots role).initialPair.Matches S)
    (granted : Runs.Admitted (Relationship.step S l.ids) (fun r m => m.Granted S r) (l.fresh boots)
      (l.history boots nodes events))
    {wI wR : World} (upI : events.foldl (mesh.step S) nodes (l.node .initiator) = some wI)
    (upR : events.foldl (mesh.step S) nodes (l.node .responder) = some wR)
    {ps : PeerSession} (get : wI.daemon.peers[l.index .initiator]? = some ps) {now : UInt64}
    (due : ps.Due now) {env : Nat → Tick}
    (address : ps.addrResolved = true ∨ (env (l.index .initiator)).resolved.isSome = true)
    (pairI : (env (l.index .initiator)).kp.Matches S) :
    ∃ init,
      (∃ dest, .sent init dest (env (l.index .initiator)).sent ∈
        (wI.daemon.step S (mesh.host (l.node .initiator)) (.timer now env)).2) ∧
      ∀ source clock kps tunOk, KeyPair.Matches S (kps (l.index .responder)) →
        wR.daemon.Takes S (mesh.config (l.node .responder)) (l.index .responder) source init →
        ∃ response,
          .sent response source true ∈ (wR.daemon.step S (mesh.host (l.node .responder))
            (.udp init source clock kps true tunOk)).2 ∧
          ∀ source' clock' kps' sendOk' tunOk',
            findPeerByAddr (wI.step S (mesh.host (l.node .initiator))
              (.timer now env)).daemon.peers source' = some (l.index .initiator) →
            ∃ psI psR,
              ((wI.step S (mesh.host (l.node .initiator)) (.timer now env)).daemon.step S
                (mesh.host (l.node .initiator))
                (.udp response source' clock' kps' sendOk' tunOk')).1.peers[l.index .initiator]? =
                  some psI ∧
              (wR.daemon.step S (mesh.host (l.node .responder))
                (.udp init source clock kps true tunOk)).1.peers[l.index .responder]? = some psR ∧
              Recovered S psI.session psR.session := by
  obtain ⟨keys, derive⟩ :=
    Identities.derive kx (l.ids_matches .initiator) (l.ids_matches .responder)
  have ordered := l.ordered aead booted derive drawn granted
  have follows := l.relationship_follows aead booted events
  have reached : mesh.Reached S (events.foldl (mesh.step S) nodes) := booted.reached.run events
  obtain ⟨_, getI, configI, sessionI⟩ := follows .initiator wI upI
  cases get.symm.trans getI
  obtain ⟨psR, getR, configR, sessionR⟩ := follows .responder wR upR
  have roleI : ps.config.role = .initiator := by rw [configI, l.role]
  have roleR : psR.config.role = .responder := by rw [configR, l.role]
  obtain ⟨r, packet, orderedT, responder, build, fits, configT, dest, sent⟩ :=
    ordered.tick_attempts aead derive sessionI roleI due address (l.index .initiator)
  refine ⟨sessionMsgHandshakeInit :: packet, ⟨dest, (tick_part now env get).sub sent⟩, ?_⟩
  intro source clock kps tunOk pairR takes
  obtain ⟨s, response, i, accepts, completes, recovered⟩ :=
    orderedT.answered_round aead kx pairI pairR build
  have session : (l.relationship boots nodes events).responder.session = psR.session :=
    sessionR.symm
  rw [responder, session] at accepts
  have whole : (sessionMsgHandshakeInit :: packet).length ≤ sealedBufSize := fits
  obtain ⟨⟨psR', getR', answered⟩, sent'⟩ :=
    udp_answers (reached.keyed upR) getR roleR whole accepts takes clock tunOk
  refine ⟨response, sent', ?_⟩
  intro source' clock' kps' sendOk' tunOk' found
  obtain ⟨packet', rfl, fits'⟩ := sessionHandleInit_response_fits aead accepts
  have getT : (wI.daemon.timer S now env).1.peers[l.index .initiator]? =
      some (ps.tick S (l.index .initiator) now (env (l.index .initiator))).1 := by
    rw [timer_get, get]
    rfl
  have roleT := congrArg ConfigPeer.role configT
  obtain ⟨psI, getI', completed⟩ := udp_completes found getT (roleT.trans roleI) fits' completes
    clock' kps' sendOk' tunOk'
  refine ⟨psI, psR', getI', getR', ?_⟩
  rw [completed, answered]
  exact recovered

end Recovery

/-- The first events of `meshEvents`: the responder's process has ended, and another has started. -/
def recoveryEvents : List (Bool × NodeEvent) := meshEvents.take 8

def recoveryTick (_ : Nat) : Tick where
  resolved := none
  kp := referencePair 7
  sent := true
  keepaliveSent := true

theorem link_recovers_recoveryEvents :
    ∃ wI wR init response psI psR,
      recoveryEvents.foldl (sampleMesh.step reference) meshStart false = some wI ∧
      recoveryEvents.foldl (sampleMesh.step reference) meshStart true = some wR ∧
      ((wI.step reference .little (.timer 15000 recoveryTick)).daemon.step reference .little
        (.udp response (sampleSource 2) 15002 (fun _ => referencePair 9) true true)).1.peers[0]? =
          some psI ∧
      (wR.daemon.step reference .little (.udp init (sampleSource 1) 15001 (fun _ => referencePair 9)
        true true)).1.peers[0]? = some psR ∧
      Recovered reference psI.session psR.session := by
  have up : ∀ k, (recoveryEvents.foldl (sampleMesh.step reference) meshStart k).isSome = true := by
    decide +kernel
  obtain ⟨wI, hI⟩ := Option.isSome_iff_exists.mp (up false)
  obtain ⟨wR, hR⟩ := Option.isSome_iff_exists.mp (up true)
  have peer : ((recoveryEvents.foldl (sampleMesh.step reference) meshStart false).bind
      fun w => w.daemon.peers[0]?.map fun ps => decide
        (15000 - ps.lastRxActivityMs ≥ sessionTimeoutMs ∧ ps.addrResolved = true)) = some true := by
    decide +kernel
  have known : ((recoveryEvents.foldl (sampleMesh.step reference) meshStart false).bind
      fun w => findPeerByAddr (w.step reference .little (.timer 15000
        recoveryTick)).daemon.peers (sampleSource 2)) = some 0 := by
    decide +kernel
  have unknown : ((recoveryEvents.foldl (sampleMesh.step reference) meshStart true).map
      fun w => findPeerByAddr w.daemon.peers (sampleSource 1)) = some none := by
    decide +kernel
  rw [hI] at peer known
  rw [hR] at unknown
  obtain ⟨ps, get, due⟩ := Option.map_eq_some_iff.mp peer
  obtain ⟨due, address⟩ := of_decide_eq_true due
  have pair : (recoveryTick (sampleLink.index .initiator)).kp.Matches reference := by
    decide +kernel
  obtain ⟨init, -, answers⟩ := link_recovers reference_aead reference_kx meshStart_booted
    (l := sampleLink) (fun role => by cases role <;> decide +kernel) (by decide +kernel) hI hR get
    (.inl due) (.inl address) pair
  have separates : (sampleMesh.config true).Separates reference init.tail := by
    intro p hp q hq _ _ differ
    exact absurd (congrArg ConfigPeer.publicKey
      ((List.mem_singleton.mp hp).trans (List.mem_singleton.mp hq).symm)) differ
  have takes : wR.daemon.Takes reference (sampleMesh.config true) 0 (sampleSource 1) init :=
    .inr ⟨Option.some.inj unknown, by decide +kernel, separates⟩
  obtain ⟨response, -, completes⟩ := answers (sampleSource 1) 15001 (fun _ => referencePair 9) true
    (by decide +kernel) takes
  obtain ⟨psI, psR, getI, getR, recovered⟩ := completes (sampleSource 2) 15002
    (fun _ => referencePair 9) true true known
  exact ⟨wI, wR, init, response, psI, psR, hI, hR, getI, getR, recovered⟩

end EdgarVPN
