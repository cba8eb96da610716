import EdgarVPN.Mesh.Integrity
import EdgarVPN.Relationship.Agreement
import EdgarVPN.Relationship.Channel

/-!
# A tunnel that is up works

What `Mesh.Integrity` leaves open is whether anything arrives. Here: where both ends of a link are
established with matching keys, the next packet that either node reads from its TUN device and
routes to the link comes out of the other node's TUN device, whatever happened before: lost and
repeated datagrams, interrupted attempts, restarts of either node. The receiver's window cannot
refuse it, because it holds nothing but counters of packets the sender sealed, and the sender is
past them.

That the keys match is not a fact about every state: a responder that restarts forgets them and the
initiator learns of it by silence only. While the responder's process stays up, an established
initiator is enough (`Link.Steady.up`).

**What is proved.** `tunnel_delivers`, for both directions.
-/

set_option autoImplicit false

namespace EdgarVPN

/-! ## The two branches -/

section Branches

variable {S : Sodium} {d : Daemon} {i : Nat} {ps : PeerSession}

/-- The TUN branch on a packet that is routed to an established peer. -/
theorem tun_sealed (host : Endian) {packet message : Bytes} {s : Session}
    (route : routingRoute host (d.peers.map PeerSession.config) (packet.take maxPacketSize) =
      some i)
    (get : d.peers[i]? = some ps) (established : ps.session.state = .established)
    (sealed : sessionSealData S ps.session (packet.take maxPacketSize) sealedBufSize =
      (s, some message)) (clock : UInt64) (sendOk : Bool) :
    (d.tun S host packet clock sendOk).2 =
      [.sealed i ps.session.dataKeys, .sent message ps.addr sendOk] := by
  rw [Daemon.tun_route, route]
  simp only [get, PeerSession.forward, established, ne_eq, not_true_eq_false, if_false, sealed]
  cases sendOk <;> rfl

/-- The UDP branch on a data packet that opens, from the address of its peer. -/
theorem udp_opened {payload plaintext : Bytes} {source : SockAddr}
    (found : findPeerByAddr d.peers source = some i) (get : d.peers[i]? = some ps)
    (fits : payload.length < sealedBufSize)
    (opened : (sessionOpenData S ps.session (sessionMsgData :: payload)
      (List.replicate maxPacketSize 0)).plaintext? = some plaintext) (some_ : plaintext ≠ [])
    (clock : UInt64) (kps : Nat → KeyPair) (sendOk tunOk : Bool) :
    (d.udp S (sessionMsgData :: payload) source clock kps sendOk tunOk).2 =
      [.accepted i (sessionMsgData :: payload) clock, .wrote plaintext tunOk] := by
  have whole : (sessionMsgData :: payload).take sealedBufSize = sessionMsgData :: payload :=
    List.take_of_length_le fits
  have hinit : sessionMsgData ≠ sessionMsgHandshakeInit := by decide
  have hresponse : sessionMsgData ≠ sessionMsgHandshakeResponse := by decide
  rw [udp_known i clock found get (by rw [whole]; exact List.cons_ne_nil _ _), whole]
  simp only [PeerSession.receive, List.getD_cons_zero, hinit, hresponse, false_and, if_false,
    if_true, PeerSession.receiveData, opened]
  cases plaintext with
  | nil => exact absurd rfl some_
  | cons b rest => cases tunOk <;> rfl

end Branches

/-! ## The tunnel -/

/-- Both ends are established, with the same data keys crosswise. -/
structure TunnelUp (ps : CryptoRole → PeerSession) : Prop where
  established : ∀ role, (ps role).session.state = .established
  keys : (ps .responder).session.dataKeys = (ps .initiator).session.dataKeys.swap

theorem TunnelUp.rx {ps : CryptoRole → PeerSession} (up : TunnelUp ps) (role : CryptoRole) :
    (ps role.other).session.dataKeys.rx = (ps role).session.dataKeys.tx := by
  cases role with
  | initiator => exact congrArg SessionKeys.rx up.keys
  | responder => exact (congrArg SessionKeys.tx up.keys).symm

section Tunnel

variable {S : Sodium} {ι : Type} [DecidableEq ι] {mesh : Mesh ι} {boots : ι → Nat → Boot}
  {clocks : ι → UInt64} {nodes : ι → Option World} {events : List (ι × NodeEvent)}

/-- A node of a link is up, with this peer session for it. -/
def Link.HeldBy (l : Link S mesh) (nodes : ι → Option World) (role : CryptoRole) (w : World)
    (ps : PeerSession) : Prop :=
  nodes (l.node role) = some w ∧ w.daemon.peers[l.index role]? = some ps

/-- The session a node holds for a link is that of the link's relationship. -/
theorem Link.held_session (aead : S.Aead) (booted : mesh.Booted S boots clocks nodes)
    (l : Link S mesh) {w : CryptoRole → World} {ps : CryptoRole → PeerSession}
    (held : ∀ role, l.HeldBy (events.foldl (mesh.step S) nodes) role (w role) (ps role))
    (role : CryptoRole) :
    (ps role).session = ((l.relationship boots nodes events).side role).session := by
  obtain ⟨ps', get, -, session⟩ := l.relationship_follows aead booted events role _ (held role).1
  cases (held role).2.symm.trans get
  exact session

theorem Channel.side {r : Relationship} (channel : Channel S r) (apart : r.KeysApart)
    (role : CryptoRole) : Delivered (r.side role.other) (r.side role) ∧ Epochs (r.side role) ∧
      KeysApart (r.side role).log ∧ (r.side role.other).MarksOpened := by
  cases role with
  | initiator =>
    exact ⟨channel.forward, channel.initiatorEpochs, apart.1.1, channel.responderMarks⟩
  | responder =>
    exact ⟨channel.backward, channel.responderEpochs, apart.2.1, channel.initiatorMarks⟩

/-- **A tunnel that is up works.** After any run of a booted mesh that leaves both nodes of a link
up and both of its sessions established with matching keys, restarts of either node included: a
packet that either node then reads from its TUN device and routes to the link is sealed and sent,
and the other node, if the next thing that happens to it is that datagram, from an address it knows
the link's peer by, writes the packet, byte for byte, to its own. Assumed of the run: no data packet
is forged under the keys of an established session of the link, and its keys are apart
(`Link.Sound`). -/
theorem tunnel_delivers (aead : S.Aead) (booted : mesh.Booted S boots clocks nodes)
    {l : Link S mesh} (sound : l.Sound boots nodes events) {w : CryptoRole → World}
    {ps : CryptoRole → PeerSession}
    (held : ∀ role, l.HeldBy (events.foldl (mesh.step S) nodes) role (w role) (ps role))
    (up : TunnelUp ps) (role : CryptoRole) {packet : Bytes}
    (route : routingRoute (mesh.host (l.node role)) (mesh.config (l.node role)).peers
      (packet.take maxPacketSize) = some (l.index role)) (clock : UInt64) (sendOk : Bool) :
    ∃ message,
      ((w role).daemon.step S (mesh.host (l.node role)) (.tun packet clock sendOk)).2 =
        [.sealed (l.index role) (ps role).session.dataKeys,
          .sent message (ps role).addr sendOk] ∧
      ∀ source clock' kps sendOk' tunOk,
        findPeerByAddr (w role.other).daemon.peers source = some (l.index role.other) →
        ((w role.other).daemon.step S (mesh.host (l.node role.other))
          (.udp message source clock' kps sendOk' tunOk)).2 =
            [.accepted (l.index role.other) message clock',
              .wrote (packet.take maxPacketSize) tunOk] := by
  have reached : mesh.Reached S (events.foldl (mesh.step S) nodes) := booted.reached.run events
  have channel : Channel S (l.relationship boots nodes events) :=
    (Channel.started (l.fresh_started booted)).run aead _ sound.unforged sound.apart
  obtain ⟨delivered, epochs, apart, marks⟩ := channel.side sound.apart role
  -- the sessions that the two nodes hold are those of the relationship
  have session := l.held_session aead booted held
  have size : (packet.take maxPacketSize).length ≤ maxPacketSize := List.length_take_le _ _
  obtain ⟨s, payload, sealed, length, opened⟩ := next_delivered aead delivered epochs apart marks
    (session role ▸ up.established role) (session role.other ▸ up.established role.other)
    (session role ▸ session role.other ▸ up.rx role) size
  rw [← session role] at sealed
  rw [← session role.other] at opened
  have some_ : packet.take maxPacketSize ≠ [] := by
    intro hnil
    rw [hnil] at route
    cases route
  refine ⟨sessionMsgData :: payload, ?_, ?_⟩
  · rw [← reached.config (held role).1] at route
    exact tun_sealed _ route (held role).2 (up.established role) sealed clock sendOk
  · intro source clock' kps sendOk' tunOk found
    have fits : payload.length < sealedBufSize := by
      have hbuf : sealedBufSize = 1 + cryptoPacketOverhead + maxPacketSize := rfl
      omega
    exact udp_opened found (held role.other).2 fits opened some_ clock' kps sendOk' tunOk

/-! ## When a tunnel is up -/

/-- What is assumed of a link's handshakes in a run: what every run of a relationship grants, and a
responder whose process stays up. -/
structure Link.Steady (l : Link S mesh) (boots : ι → Nat → Boot) (nodes : ι → Option World)
    (events : List (ι × NodeEvent)) : Prop where
  granted : Runs.Admitted (Relationship.step S l.ids) (fun r m => m.Scheduled ∧ m.Granted S r)
    (l.fresh boots) (l.history boots nodes events)
  drawn : ∀ role, (l.bootOf boots role).initialPair.Matches S
  seed : 0 < (l.bootOf boots .initiator).time
  split : l.ids.Split S

theorem Link.agreement (aead : S.Aead) (kx : S.Kx) (booted : mesh.Booted S boots clocks nodes)
    {l : Link S mesh} (steady : l.Steady boots nodes events) :
    ∃ keys, Agreement S keys (l.relationship boots nodes events) := by
  obtain ⟨keys, derive⟩ :=
    Identities.derive kx (l.ids_matches .initiator) (l.ids_matches .responder)
  refine ⟨keys, Runs.invariant_foldl
    (fun _ _ h g => h.step aead kx derive (steady.split keys derive.initiator) g.1 g.2) ?_
    steady.granted⟩
  exact Agreement.started derive (steady.drawn _) (steady.drawn _) steady.seed
    (l.fresh_started booted)

/-- **Where the initiator is established, the tunnel is up**: over a steady run, the responder then
is established too, and the two hold the same data keys, crosswise. -/
theorem Link.Steady.up (aead : S.Aead) (kx : S.Kx) (booted : mesh.Booted S boots clocks nodes)
    {l : Link S mesh} (steady : l.Steady boots nodes events) {w : CryptoRole → World}
    {ps : CryptoRole → PeerSession}
    (held : ∀ role, l.HeldBy (events.foldl (mesh.step S) nodes) role (w role) (ps role))
    (initiator : (ps .initiator).session.state = .established) : TunnelUp ps := by
  have session := l.held_session aead booted held
  obtain ⟨keys, agreement⟩ := l.agreement aead kx booted steady
  rw [session .initiator] at initiator
  obtain ⟨seen, _, agreed⟩ := agreement.agreed initiator
  refine ⟨fun role => ?_, ?_⟩
  · rw [session role]
    cases role with
    | initiator => exact initiator
    | responder => exact (agreement.answered seen).1
  · rw [session .initiator, session .responder]
    exact agreed

end Tunnel

/-- The events of `meshEvents` up to the last packet: the responder's process has ended and another
has started, and the nodes have come to new keys. -/
def tunnelEvents : List (Bool × NodeEvent) := meshEvents.take 13

theorem tunnel_delivers_tunnelEvents :
    ∃ message w w' ps, tunnelEvents.foldl (sampleMesh.step reference) meshStart true = some w ∧
      tunnelEvents.foldl (sampleMesh.step reference) meshStart false = some w' ∧
      w.daemon.peers[0]? = some ps ∧
      (w.daemon.step reference .little (.tun (meshPacket 1) 7 true)).2 =
        [.sealed 0 ps.session.dataKeys, .sent message ps.addr true] ∧
      (w'.daemon.step reference .little (.udp message (sampleSource 2) 8
        (fun _ => referencePair 9) true true)).2 =
          [.accepted 0 message 8, .wrote (meshPacket 1) true] := by
  let final := tunnelEvents.foldl (sampleMesh.step reference) meshStart
  have nodes : ∀ k, ((final k).bind fun w => w.daemon.peers[0]?).isSome = true := by
    decide +kernel
  have node (k : Bool) : ∃ w ps, final k = some w ∧ w.daemon.peers[0]? = some ps := by
    obtain ⟨ps, hps⟩ := Option.isSome_iff_exists.mp (nodes k)
    obtain ⟨w, hw, get⟩ := Option.bind_eq_some_iff.mp hps
    exact ⟨w, ps, hw, get⟩
  obtain ⟨wR, psR, hR, getR⟩ := node true
  obtain ⟨wI, psI, hI, getI⟩ := node false
  have sound : sampleLink.Sound meshBoots meshStart tunnelEvents :=
    ⟨by decide +kernel, by decide +kernel⟩
  have states : ∀ k, ((final k).bind fun w => w.daemon.peers[0]?.map fun ps => ps.session.state) =
      some .established := by
    decide +kernel
  have keys : ((final true).bind fun w => w.daemon.peers[0]?.map fun ps => ps.session.dataKeys) =
      (final false).bind fun w => w.daemon.peers[0]?.map fun ps => ps.session.dataKeys.swap := by
    decide +kernel
  have known : (final false).bind (fun w => findPeerByAddr w.daemon.peers (sampleSource 2)) =
      some 0 := by
    decide +kernel
  have stateR := states true
  have stateI := states false
  simp only [hR, Option.bind_some, getR, Option.map_some, Option.some.injEq] at stateR
  simp only [hI, Option.bind_some, getI, Option.map_some, Option.some.injEq] at stateI known
  simp only [hR, hI, Option.bind_some, getR, getI, Option.map_some, Option.some.injEq] at keys
  have held : ∀ role, sampleLink.HeldBy final role (if role = .responder then wR else wI)
      (if role = .responder then psR else psI) := by
    intro role
    cases role
    · exact ⟨hI, getI⟩
    · exact ⟨hR, getR⟩
  have up : TunnelUp fun role => if role = .responder then psR else psI :=
    ⟨fun role => by cases role; exacts [stateI, stateR], keys⟩
  have route : routingRoute .little (sampleMesh.config true).peers
      ((meshPacket 1).take maxPacketSize) = some 0 := by
    decide +kernel
  obtain ⟨message, sealed, opened⟩ := tunnel_delivers reference_aead meshStart_booted sound held up
    .responder route 7 true
  exact ⟨message, wR, wI, psR, hR, hI, getR, sealed, opened _ 8 _ true true known⟩

end EdgarVPN
