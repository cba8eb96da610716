import Mathlib.Data.List.Perm.Subperm
import EdgarVPN.Mesh.System
import EdgarVPN.Relationship.Lives

/-!
# The tunnels of a mesh are authentic

`Relationship.Lives` in terms of TUN devices. All that the network, the other nodes and their
restarts can do to a node is lose packets: what it writes to its TUN device, byte for byte, its
neighbours read from theirs and sealed for it, and none of it is written more often than it was
read.

What is assumed of a run is said of the links of the node: no data packet is forged under the keys
of a session that is established, every pair that was drawn is new, and different pairs give
different keys. A session that is not established may be handed anything, packets under the all-zero
key included. Nothing is assumed of handshakes, clocks, addresses, or of when processes end and
start.

**What is proved.** `Link.delivered_forwarded` of one link and either direction;
`written_forwarded` of everything a node writes, peer by peer.
-/

set_option autoImplicit false

namespace EdgarVPN

/-! ## The relationship of a link from the start -/

section History

variable {S : Sodium} {ι : Type} {mesh : Mesh ι} (l : Link S mesh)

/-- The start of one side. -/
def Link.bootOf (boots : ι → Nat → Boot) (role : CryptoRole) : Boot :=
  boots (l.node role) (l.index role)

/-- One side with its session just initialised. -/
def Link.freshSide (boots : ι → Nat → Boot) (role : CryptoRole) : Traced :=
  Traced.op S role (l.ids.own role) (l.ids.own role.other).pk ⟨Session.zero, []⟩
    (.restart (l.bootOf boots role).time (l.bootOf boots role).initialPair)

/-- The relationship with both sessions just initialised. -/
def Link.fresh (boots : ι → Nat → Boot) : Relationship :=
  ⟨l.freshSide boots .initiator, l.freshSide boots .responder⟩

/-- The initiator's attempt at its start. -/
def Link.firstMoves (boots : ι → Nat → Boot) : List Move :=
  if (l.bootOf boots .initiator).resolved.isSome then
    [.initiate (l.bootOf boots .initiator).kp]
  else
    []

/-- A side after the first moves is a side after its start. -/
theorem Link.first_side (boots : ι → Nat → Boot) (role : CryptoRole) :
    ((l.firstMoves boots).foldl (Relationship.step S l.ids) (l.fresh boots)).side role =
      (startOps (l.bootOf boots role) (l.peer role)).foldl
        (Traced.op S role (l.ids.own role) (l.ids.own role.other).pk) ⟨Session.zero, []⟩ := by
  unfold Link.firstMoves startOps
  rw [l.role role]
  cases role with
  | initiator => dsimp only; split <;> rfl
  | responder => split <;> rfl

variable {l} {boots : ι → Nat → Boot} {clocks : ι → UInt64} {nodes : ι → Option World}

/-- The start of a side, in a mesh that has booted. -/
theorem Link.booted_ran (booted : mesh.Booted S boots clocks nodes) (role : CryptoRole) :
    ∃ s, Holds (l.index role) (l.peer role) (nodes (l.node role)) s ∧
      Ran ⟨Session.zero, []⟩
        (((l.firstMoves boots).foldl (Relationship.step S l.ids) (l.fresh boots)).side role)
        s [] [] := by
  obtain ⟨w, start, hw⟩ := booted (l.node role)
  have starts := startsUpTo_of_start start (l.index role)
  obtain ⟨ps, effects, hpeer⟩ := startsUpTo_get (l.configured role) starts
  have derived : (l.ids.own role).pk = cryptoDerivePublicKey S (l.ids.own role).sk := by
    rw [l.ids_own]
    rfl
  have key : (mesh.config (l.node role)).privateKey = (l.ids.own role).sk := by
    rw [l.ids_own]
    rfl
  rw [key] at hpeer
  obtain ⟨hconfig, ran⟩ := startPeer_ran derived hpeer ⟨Session.zero, []⟩
  rw [l.role role, ← l.ids_peer role] at ran
  rw [l.first_side]
  refine ⟨ps.session, fun w' hw' => ?_, ran⟩
  cases hw.symm.trans hw'
  have hlt : l.index role < w.daemon.peers.length := by
    rw [World.start_length start]
    exact (List.getElem?_eq_some_iff.mp (l.configured role)).1
  obtain ⟨_, _, get, -, hstart⟩ := World.start_get start (List.getElem?_eq_getElem hlt)
  cases (l.configured role).symm.trans get
  rw [key] at hstart
  cases hpeer.symm.trans hstart
  exact ⟨_, List.getElem?_eq_getElem hlt, hconfig, rfl⟩

/-- A mesh that has booted holds the sessions of the first moves. -/
theorem Link.booted_follows (booted : mesh.Booted S boots clocks nodes) :
    l.Follows nodes ((l.firstMoves boots).foldl (Relationship.step S l.ids) (l.fresh boots)) := by
  intro role
  obtain ⟨s, holds, ran⟩ := l.booted_ran booted role
  rw [ran.session]
  exact holds

theorem Link.fresh_started (booted : mesh.Booted S boots clocks nodes) :
    (l.fresh boots).Started S l.ids (l.bootOf boots .initiator).time
      (l.bootOf boots .responder).time (l.bootOf boots .initiator).initialPair
      (l.bootOf boots .responder).initialPair := by
  have init : ∀ role, ∃ s, sessionInit S role (l.ids.own role).pk (l.ids.own role).sk
      (l.ids.own role.other).pk (l.bootOf boots role).time (l.bootOf boots role).initialPair =
        some s ∧ l.freshSide boots role = Traced.init s (l.bootOf boots role).initialPair := by
    intro role
    obtain ⟨w, start, -⟩ := booted (l.node role)
    obtain ⟨ps, effects, hpeer⟩ :=
      startsUpTo_get (l.configured role) (startsUpTo_of_start start (l.index role))
    obtain ⟨ps₀, -, -, hinit, -⟩ := startPeer_did hpeer
    rw [l.role role, ← l.ids_peer role] at hinit
    have own : sessionInit S role (l.ids.own role).pk (l.ids.own role).sk
        (l.ids.own role.other).pk (l.bootOf boots role).time (l.bootOf boots role).initialPair =
          some ps₀.session := by
      rw [l.ids_own role]
      exact hinit
    refine ⟨_, own, ?_⟩
    simp only [Link.freshSide, Traced.op, Traced.restart, own]
    rfl
  obtain ⟨i, hi, ti⟩ := init .initiator
  obtain ⟨s, hs, ts⟩ := init .responder
  refine ⟨i, s, hi, hs, ?_⟩
  rw [Link.fresh, ti, ts]

variable [DecidableEq ι]

variable (l) in
/-- All that a run of the mesh does to a link, the start included. -/
def Link.history (boots : ι → Nat → Boot) (nodes : ι → Option World)
    (events : List (ι × NodeEvent)) : List Move :=
  l.firstMoves boots ++ l.runMoves nodes events

variable (l) in
/-- The relationship of a link after a run. -/
def Link.relationship (boots : ι → Nat → Boot) (nodes : ι → Option World)
    (events : List (ι × NodeEvent)) : Relationship :=
  (l.history boots nodes events).foldl (Relationship.step S l.ids) (l.fresh boots)

/-- **A run of a mesh from its start refines each relationship from its start.** At the start every
node runs and has done nothing yet but start (`Mesh.Booted`). -/
theorem Link.relationship_follows (aead : S.Aead) (booted : mesh.Booted S boots clocks nodes)
    (events : List (ι × NodeEvent)) :
    l.Follows (events.foldl (mesh.step S) nodes) (l.relationship boots nodes events) := by
  rw [Link.relationship, Link.history, List.foldl_append]
  exact l.run_follows aead events (l.booted_follows booted)

theorem Link.relationship_packets (aead : S.Aead) (booted : mesh.Booted S boots clocks nodes)
    (events : List (ι × NodeEvent)) (role : CryptoRole) :
    sealedPackets ((l.relationship boots nodes events).side role).log =
        mesh.forwarded S (l.node role) (l.index role) nodes events ∧
      openedPackets ((l.relationship boots nodes events).side role).log =
        mesh.delivered S (l.node role) (l.index role) nodes events := by
  obtain ⟨s, _, ran⟩ := l.booted_ran booted role
  have packets := l.run_packets aead events (l.booted_follows booted) role
  rw [Link.relationship, Link.history, List.foldl_append, packets.1, packets.2, ran.sealed,
    ran.opened]
  exact ⟨rfl, rfl⟩

end History

/-! ## Authentic delivery -/

theorem subperm_filterMap {α β : Type} {l l' : List α} (h : l.Subperm l') (f : α → Option β) :
    (l.filterMap f).Subperm (l'.filterMap f) := by
  obtain ⟨m, perm, sub⟩ := h
  exact ⟨m.filterMap f, perm.filterMap f, sub.filterMap f⟩

/-- The packets that were opened are among those that were sealed. -/
theorem Delivered.packets_subperm {own other : Traced} (h : Delivered own other)
    (unique : (openedNonces own.log).Nodup) :
    (openedPackets own.log).Subperm (sealedPackets other.log) := by
  have opened : openedPackets own.log = (openings own.log).filterMap fun o =>
      if o.2.2 = [] then none else some o.2.2 := by
    rw [openings, List.filterMap_filterMap]
    refine List.filterMap_congr fun act _ => ?_
    cases act with
    | openedData key counter plaintext => cases plaintext <;> rfl
    | _ => rfl
  have sealed : sealedPackets other.log = (sealings other.log).filterMap fun o =>
      if o.2.2 = [] then none else some o.2.2 := by
    rw [sealings, List.filterMap_filterMap]
    refine List.filterMap_congr fun act _ => ?_
    cases act with
    | sealedData key counter plaintext packet => cases plaintext <;> rfl
    | _ => rfl
  rw [opened, sealed]
  exact subperm_filterMap (h.openings_subperm unique) _

section Integrity

variable {S : Sodium} {ι : Type} [DecidableEq ι] {mesh : Mesh ι} {boots : ι → Nat → Boot}
  {clocks : ι → UInt64} {nodes : ι → Option World} {events : List (ι × NodeEvent)}

/-- What is assumed of a link in a run. -/
structure Link.Sound (l : Link S mesh) (boots : ι → Nat → Boot) (nodes : ι → Option World)
    (events : List (ι × NodeEvent)) : Prop where
  /-- No data packet is forged under the data keys of an established session of the link. -/
  unforged : Runs.Admitted (Relationship.step S l.ids) (fun r m => m.DataUnforged S r)
    (l.fresh boots) (l.history boots nodes events)
  /-- Pairs are new, and different pairs give different keys. -/
  apart : (l.relationship boots nodes events).KeysApart

/-- **One direction of one link.** What a node has delivered for the peer of the link is, with
repetitions counted, among what the node at the other end has forwarded to it. -/
theorem Link.delivered_forwarded (aead : S.Aead) (booted : mesh.Booted S boots clocks nodes)
    {l : Link S mesh} (sound : l.Sound boots nodes events) (role : CryptoRole) :
    (mesh.delivered S (l.node role) (l.index role) nodes events).Subperm
      (mesh.forwarded S (l.node role.other) (l.index role.other) nodes events) := by
  have sides : Sides S (l.relationship boots nodes events) :=
    (Sides.started (l.fresh_started booted)).run aead _ sound.unforged sound.apart
  rw [← (l.relationship_packets aead booted events role).2,
    ← (l.relationship_packets aead booted events role.other).1]
  cases role with
  | initiator => exact sides.backward.packets_subperm sides.initiatorWindows.unique
  | responder => exact sides.forward.packets_subperm sides.responderWindows.unique

/-- What a node writes to its TUN device, sorted by the peer that it came from. -/
theorem Mesh.written_perm (booted : mesh.Booted S boots clocks nodes) (k : ι)
    (events : List (ι × NodeEvent)) :
    (mesh.written S k nodes events).Perm
      ((List.range (mesh.config k).peers.length).flatMap fun i =>
        mesh.delivered S k i nodes events) := by
  have sorted : mesh.written S k nodes events = Runs.outputs (mesh.step S) (fun nodes e =>
      (List.range (mesh.config k).peers.length).flatMap fun i =>
        if e.1 = k then nodeDelivers S i (nodes k) e.2 else []) nodes events := by
    refine Runs.outputs_congr (I := mesh.Reached S) (fun nodes e h => h.step e)
      (fun nodes e h => ?_) events booted.reached
    by_cases own : e.1 = k
    · simp only [if_pos own]
      exact nodeWrites_eq (fun w hw => h.length hw) e.2
    · simp only [if_neg own]
      exact (List.flatMap_eq_nil_iff.mpr fun _ _ => rfl).symm
  rw [sorted]
  exact Runs.outputs_flatMap _ _ events nodes

/-- **A node writes what its neighbours read.** Over any run of a mesh that has booted, with any
traffic and any ends and starts of processes: if each section of a node's configuration is an end of
a link, and no data packet is forged on those links (`Link.Sound`), then the packets the node has
written to its TUN device are those delivered by its peers, in some order, and those of one peer
are, with repetitions counted, among the packets the node at the other end of its link has read from
its own TUN device and sealed for this one. -/
theorem written_forwarded (aead : S.Aead) (booted : mesh.Booted S boots clocks nodes) (k : ι)
    (links : Nat → Link S mesh) (ends : Nat → CryptoRole)
    (covered : ∀ i < (mesh.config k).peers.length,
      (links i).node (ends i) = k ∧ (links i).index (ends i) = i)
    (sound : ∀ i < (mesh.config k).peers.length, (links i).Sound boots nodes events) :
    (mesh.written S k nodes events).Perm
        ((List.range (mesh.config k).peers.length).flatMap fun i =>
          mesh.delivered S k i nodes events) ∧
      ∀ i < (mesh.config k).peers.length, (mesh.delivered S k i nodes events).Subperm
        (mesh.forwarded S ((links i).node (ends i).other) ((links i).index (ends i).other) nodes
          events) := by
  refine ⟨Mesh.written_perm booted k events, fun i hi => ?_⟩
  obtain ⟨hnode, hindex⟩ := covered i hi
  have one := Link.delivered_forwarded aead booted (sound i hi) (ends i)
  rwa [hnode, hindex] at one

end Integrity

/-! ## A sample -/

/-- Two nodes that hold the pairs of 1 and 2; the first is the initiator. -/
def sampleMesh : Mesh Bool where
  config responder :=
    { Config.initial with
      hasPrivateKey := true
      privateKey := (referencePair (if responder then 2 else 1)).sk
      peers := [if responder then samplePeer .responder 1 else samplePeer .initiator 2] }
  host _ := .little

def sampleLink : Link reference sampleMesh where
  node role := role == .responder
  index _ := 0
  peer role := if role == .responder then samplePeer .responder 1 else samplePeer .initiator 2
  configured role := by cases role <;> rfl
  role role := by cases role <;> rfl
  publicKey role := by cases role <;> decide +kernel
  apart := by decide

/-- The initiator knows its peer's address; a process that starts draws these pairs. -/
def meshBoots (responder : Bool) (_ : Nat) : Boot where
  resolved := if responder then none else some ⟨192, 0, 2, 2⟩
  kp := referencePair 5
  sent := true
  time := 100
  initialPair := referencePair (if responder then 4 else 3)
  clock := 0
  attemptClock := 0

def meshStart (k : Bool) : Option World :=
  World.start reference (sampleMesh.config k) (meshBoots k) 0

theorem meshStart_booted : sampleMesh.Booted reference meshBoots (fun _ => 0) meshStart := by
  have starts : ∀ k, (meshStart k).isSome = true := by decide +kernel
  intro k
  obtain ⟨w, hw⟩ := Option.isSome_iff_exists.mp (starts k)
  exact ⟨w, hw, hw⟩

/-- A packet to the addresses behind the node that holds the pair of `b`. -/
def meshPacket (b : UInt8) : Bytes := 0x45 :: List.replicate 15 0 ++ [10, 0, b, 7]

/-- A datagram that reaches the responder from the initiator's address, or the other way. -/
def meshUdp (responder : Bool) (datagram : Bytes) (kp : KeyPair) : Bool × NodeEvent :=
  (responder, .loop (.udp datagram (sampleSource (if responder then 1 else 2)) 0 (fun _ => kp)
    true true))

/-- A packet under the all-zero key comes before the handshake. Then a handshake and a packet, which
is replayed. The responder's process ends and another starts, to
which the old init and the old packet are replayed; then a new attempt, and the packet once more. -/
def meshEvents : List (Bool × NodeEvent) :=
  let old := samplePacket (referencePair 5) (referencePair 4) 0 (meshPacket 2)
  let new := samplePacket (referencePair 7) (referencePair 8) 0 (meshPacket 2)
  let boot : Boot := { meshBoots true 0 with initialPair := referencePair 6 }
  let tick : Tick :=
    { resolved := none, kp := referencePair 7, sent := true, keepaliveSent := true }
  [meshUdp true zeroPacket (referencePair 9),
    meshUdp true (sampleInit 100 (referencePair 5)) (referencePair 9),
    meshUdp false (sampleResponse 100 (referencePair 4)) (referencePair 9),
    (false, .loop (.tun (meshPacket 2) 0 true)), meshUdp true old (referencePair 9),
    meshUdp true old (referencePair 9), (true, .halt), (true, .boot (fun _ => boot) 0),
    meshUdp true (sampleInit 100 (referencePair 5)) (referencePair 9),
    meshUdp true old (referencePair 9), (false, .loop (.timer 15000 fun _ => tick)),
    meshUdp true (sampleInit 101 (referencePair 7)) (referencePair 8),
    meshUdp false (sampleResponse 101 (referencePair 8)) (referencePair 9),
    (false, .loop (.tun (meshPacket 2) 0 true)), meshUdp true new (referencePair 9)]

theorem written_forwarded_meshEvents :
    sampleMesh.written reference true meshStart meshEvents = [meshPacket 2, meshPacket 2] ∧
      (sampleMesh.delivered reference true 0 meshStart meshEvents).Subperm
        (sampleMesh.forwarded reference false 0 meshStart meshEvents) := by
  have sound : sampleLink.Sound meshBoots meshStart meshEvents :=
    ⟨by decide +kernel, by decide +kernel⟩
  have length : (sampleMesh.config true).peers.length = 1 := rfl
  refine ⟨by decide +kernel, ?_⟩
  refine (written_forwarded reference_aead meshStart_booted true (fun _ => sampleLink)
    (fun _ => .responder) (fun i hi => ⟨rfl, ?_⟩) (fun _ _ => sound)).2 0 Nat.zero_lt_one
  rw [length, Nat.lt_one_iff] at hi
  exact hi.symm

end EdgarVPN
