import EdgarVPN.Daemon.Counted
import EdgarVPN.Mesh.Operations

/-!
# A mesh of daemons

A mesh is a family of nodes, each with its configuration and its byte order. A node is the daemon it
runs, or nothing while it is down. What happens to it is a branch of its loop, an end of its
process, or a start, which may fail; nothing else is kept over a restart. Nodes share no state. What
passes between them passes through the network, which is not a component: a datagram that a node
receives is whatever its event says.

A `Link` is two sections of two configurations that name each other: opposite roles, each with the
public key of the other node's private key. It is the relationship of `Relationship.System`, as
the two nodes hold it. `Link.moves` says what each event of the mesh does to it.

**What is proved.** `Link.run_follows`: along any run of the mesh, the sessions that the two nodes
hold for a link are those of the relationship after the moves of the run; what is proved of every
run of a relationship so holds of every link of every mesh. `Link.run_packets`: the packets sealed
and opened in the relationship are those the nodes read from and wrote to their TUN devices.
-/

set_option autoImplicit false

namespace EdgarVPN

/-! ## Nodes -/

/-- What happens to a node. -/
inductive NodeEvent where
  /-- A branch of the loop. -/
  | loop (e : Event)
  /-- `main` is run, and what ran before is gone. -/
  | boot (boots : Nat → Boot) (clock : UInt64)
  /-- The process ends. -/
  | halt

section Node

variable (S : Sodium) (host : Endian) (cfg : Config)

/-- The node after an event. -/
def nodeStep : Option World → NodeEvent → Option World
  | some w, .loop e => some (w.step S host e)
  | none, .loop _ => none
  | _, .boot boots clock => World.start S cfg boots clock
  | _, .halt => none

/-- Whether `main` starts the peers up to index `i`: it exits at the first session that does not
initialise, and the peers before have sent their inits by then. -/
def startsUpTo (boots : Nat → Boot) (i : Nat) : Bool :=
  ((cfg.peers.mapIdx fun j config => startPeer S cfg.privateKey config (boots j)).take (i + 1)).all
    Option.isSome

/-- The operations of an event on the session of the peer at index `i`. -/
def nodeOps (i : Nat) : Option World → NodeEvent → List Op
  | some w, .loop e => w.daemon.ops S host i e
  | none, .loop _ => []
  | _, .boot boots _ =>
    match cfg.peers[i]? with
    | none => []
    | some config => if startsUpTo S cfg boots i then startOps (boots i) config else []
  | _, .halt => []

/-- The packets a node reads from its TUN device and seals for the peer at index `i`. -/
def nodeForwards (i : Nat) : Option World → NodeEvent → List Bytes
  | some w, .loop e => w.daemon.forwards host i e
  | _, _ => []

/-- The packets a node writes to its TUN device for the peer at index `i`. -/
def nodeDelivers (i : Nat) : Option World → NodeEvent → List Bytes
  | some w, .loop e => w.daemon.delivers S i e
  | _, _ => []

/-- The packets a node writes to its TUN device. -/
def nodeWrites : Option World → NodeEvent → List Bytes
  | some w, .loop e => (w.daemon.step S host e).2.filterMap Effect.wrote?
  | _, _ => []

/-- The long-term pair of a configuration. -/
def Config.keyPair : KeyPair := ⟨cryptoDerivePublicKey S cfg.privateKey, cfg.privateKey⟩

end Node

/-! ## The mesh -/

/-- The nodes of a mesh: how each is configured, and its byte order. -/
structure Mesh (ι : Type) where
  config : ι → Config
  host : ι → Endian

section Mesh

variable (S : Sodium) {ι : Type} [DecidableEq ι] (mesh : Mesh ι)

/-- The mesh after an event of one node. -/
def Mesh.step (nodes : ι → Option World) (e : ι × NodeEvent) : ι → Option World :=
  Function.update nodes e.1 (nodeStep S (mesh.host e.1) (mesh.config e.1) (nodes e.1) e.2)

/-- Every node runs, and has done nothing yet but start. -/
def Mesh.Booted (boots : ι → Nat → Boot) (clocks : ι → UInt64) (nodes : ι → Option World) : Prop :=
  ∀ k, ∃ w, World.start S (mesh.config k) (boots k) (clocks k) = some w ∧ nodes k = some w

/-- The packets that node `k` reads from its TUN device and seals for its peer at index `i`. -/
def Mesh.forwarded (k : ι) (i : Nat) : (ι → Option World) → List (ι × NodeEvent) → List Bytes :=
  Runs.outputs (mesh.step S) fun nodes e =>
    if e.1 = k then nodeForwards (mesh.host k) i (nodes k) e.2 else []

/-- The packets that node `k` writes to its TUN device for its peer at index `i`. -/
def Mesh.delivered (k : ι) (i : Nat) : (ι → Option World) → List (ι × NodeEvent) → List Bytes :=
  Runs.outputs (mesh.step S) fun nodes e =>
    if e.1 = k then nodeDelivers S i (nodes k) e.2 else []

/-- The packets that node `k` writes to its TUN device. -/
def Mesh.written (k : ι) : (ι → Option World) → List (ι × NodeEvent) → List Bytes :=
  Runs.outputs (mesh.step S) fun nodes e =>
    if e.1 = k then nodeWrites S (mesh.host k) (nodes k) e.2 else []

end Mesh

/-! ## What a node that is up has come from -/

section Reached

variable {S : Sodium} {ι : Type} {mesh : Mesh ι} {nodes : ι → Option World}

/-- Every node that is up runs a daemon that came from a start, by events of its loop. -/
def Mesh.Reached (S : Sodium) (mesh : Mesh ι) (nodes : ι → Option World) : Prop :=
  ∀ k w, nodes k = some w → ∃ boots clock w₀ es,
    World.start S (mesh.config k) boots clock = some w₀ ∧
      List.foldl (World.step S (mesh.host k)) w₀ es = w

theorem Mesh.Booted.reached {boots : ι → Nat → Boot} {clocks : ι → UInt64}
    (booted : mesh.Booted S boots clocks nodes) : mesh.Reached S nodes := by
  intro k w hw
  obtain ⟨w₀, start, hw₀⟩ := booted k
  cases hw.symm.trans hw₀
  exact ⟨boots k, clocks k, w, [], start, rfl⟩

theorem Mesh.Reached.step [DecidableEq ι] (reached : mesh.Reached S nodes) (e : ι × NodeEvent) :
    mesh.Reached S (mesh.step S nodes e) := by
  obtain ⟨k, e⟩ := e
  intro k' w hw
  by_cases same : k' = k
  · subst same
    rw [Mesh.step, Function.update_self] at hw
    cases hn : nodes k' with
    | none =>
      rw [hn] at hw
      cases e with
      | loop e => cases hw
      | boot boots clock => exact ⟨boots, clock, w, [], hw, rfl⟩
      | halt => cases hw
    | some w₁ =>
      rw [hn] at hw
      cases e with
      | loop e =>
        cases hw
        obtain ⟨boots, clock, w₀, es, start, rfl⟩ := reached k' w₁ hn
        exact ⟨boots, clock, w₀, es ++ [e], start, List.foldl_append⟩
      | boot boots clock => exact ⟨boots, clock, w, [], hw, rfl⟩
      | halt => cases hw
  · rw [Mesh.step, Function.update_of_ne same] at hw
    exact reached k' w hw

theorem Mesh.Reached.run [DecidableEq ι] (reached : mesh.Reached S nodes)
    (events : List (ι × NodeEvent)) : mesh.Reached S (events.foldl (mesh.step S) nodes) := by
  induction events generalizing nodes with
  | nil => exact reached
  | cons e events ih => exact ih (reached.step e)

theorem Mesh.Reached.length (reached : mesh.Reached S nodes) {k : ι} {w : World}
    (up : nodes k = some w) : w.daemon.peers.length = (mesh.config k).peers.length := by
  obtain ⟨boots, clock, w₀, es, start, rfl⟩ := reached k w up
  rw [World.run_length, World.start_length start]

/-- A node that is up holds the static keys of its sections. -/
theorem Mesh.Reached.keyed (reached : mesh.Reached S nodes) {k : ι} {w : World}
    (up : nodes k = some w) : w.daemon.Keyed S (mesh.config k) := by
  obtain ⟨boots, clock, w₀, es, start, rfl⟩ := reached k w up
  exact (sessions_driven start es).keyed

/-- The peers of a node that is up are the sections of its configuration. -/
theorem Mesh.Reached.config (reached : mesh.Reached S nodes) {k : ι} {w : World}
    (up : nodes k = some w) : w.daemon.peers.map PeerSession.config = (mesh.config k).peers :=
  (reached.keyed up).configs (reached.length up)

end Reached

/-! ## The two sides of a relationship, by role -/

def CryptoRole.other : CryptoRole → CryptoRole
  | .initiator => .responder
  | .responder => .initiator

@[simp] theorem CryptoRole.other_other (role : CryptoRole) : role.other.other = role := by
  cases role <;> rfl

theorem CryptoRole.ne_iff {role role' : CryptoRole} : role' ≠ role ↔ role' = role.other := by
  cases role <;> cases role' <;> decide

def Relationship.side (r : Relationship) : CryptoRole → Traced
  | .initiator => r.initiator
  | .responder => r.responder

def Identities.own (ids : Identities) : CryptoRole → KeyPair
  | .initiator => ids.initiator
  | .responder => ids.responder

/-- An operation of one side, as moves of the relationship. -/
def Op.moves : CryptoRole → Op → List Move
  | .initiator, .call c => [.initiator c]
  | .initiator, .initiate kp => [.initiate kp]
  | .initiator, .restart time kp => [.restartInitiator time kp]
  | .responder, .call c => [.responder c]
  | .responder, .initiate kp =>
    [.responder (.startHandshake kp), .responder (.buildInit sealedBufSize)]
  | .responder, .restart time kp => [.restartResponder time kp]

section Sides

variable {S : Sodium} {ids : Identities}

theorem Op.moves_side (role : CryptoRole) (op : Op) (r : Relationship) :
    ((op.moves role).foldl (Relationship.step S ids) r).side role =
      (r.side role).op S role (ids.own role) (ids.own role.other).pk op := by
  cases role <;> cases op <;> rfl

theorem Op.moves_other (role : CryptoRole) (op : Op) (r : Relationship) :
    ((op.moves role).foldl (Relationship.step S ids) r).side role.other = r.side role.other := by
  cases role <;> cases op <;> rfl

/-- The operations of one side change that side, and leave the other. -/
theorem side_run (role : CryptoRole) (ops : List Op) (r : Relationship) :
    ((ops.flatMap (Op.moves role)).foldl (Relationship.step S ids) r).side role =
        ops.foldl (Traced.op S role (ids.own role) (ids.own role.other).pk) (r.side role) ∧
      ((ops.flatMap (Op.moves role)).foldl (Relationship.step S ids) r).side role.other =
        r.side role.other := by
  induction ops generalizing r with
  | nil => exact ⟨rfl, rfl⟩
  | cons op ops ih =>
    rw [List.flatMap_cons, List.foldl_append, List.foldl_cons]
    obtain ⟨own, other⟩ := ih ((op.moves role).foldl (Relationship.step S ids) r)
    rw [Op.moves_side] at own
    rw [Op.moves_other] at other
    exact ⟨own, other⟩

end Sides

/-! ## One node -/

section NodeRan

variable {S : Sodium} {host : Endian} {cfg : Config} {i : Nat} {config : ConfigPeer}
  {role : CryptoRole} {t : Traced} {n : Option World}

/-- While the node is up, its peer at index `i` is the section and holds the session. -/
def Holds (i : Nat) (config : ConfigPeer) (n : Option World) (s : Session) : Prop :=
  ∀ w, n = some w → ∃ ps, w.daemon.peers[i]? = some ps ∧ ps.config = config ∧ ps.session = s

theorem startsUpTo_get {boots : Nat → Boot} (get : cfg.peers[i]? = some config)
    (starts : startsUpTo S cfg boots i = true) :
    ∃ ps effects, startPeer S cfg.privateKey config (boots i) = some (ps, effects) := by
  have peer : ((cfg.peers.mapIdx fun j config =>
      startPeer S cfg.privateKey config (boots j)).take (i + 1))[i]? =
        some (startPeer S cfg.privateKey config (boots i)) := by
    rw [List.getElem?_take_of_lt (Nat.lt_succ_self i), List.getElem?_mapIdx, get]
    rfl
  have some_ := List.all_eq_true.mp starts _ (List.mem_of_getElem? peer)
  obtain ⟨⟨ps, effects⟩, h⟩ := Option.isSome_iff_exists.mp some_
  exact ⟨ps, effects, h⟩

/-- A `main` that comes to its loop has started every peer. -/
theorem startsUpTo_of_start {boots : Nat → Boot} {clock : UInt64} {w : World}
    (start : World.start S cfg boots clock = some w) (i : Nat) :
    startsUpTo S cfg boots i = true := by
  unfold World.start at start
  split at start
  · cases start
  · next started hstarted =>
    refine List.all_eq_true.mpr fun x hx => ?_
    obtain ⟨j, hj⟩ := List.mem_iff_getElem?.mp (List.mem_of_mem_take hx)
    have hlt : j < started.length := by
      rw [mapM_id_length hstarted]
      exact (List.getElem?_eq_some_iff.mp hj).1
    have := mapM_id_get hstarted (List.getElem?_eq_getElem hlt)
    cases hj.symm.trans this
    rfl

/-- **What an event does to one session of a node**, and the packets in it. -/
theorem node_ran (aead : S.Aead) (get : cfg.peers[i]? = some config) (hrole : config.role = role)
    (holds : Holds i config n t.session) (e : NodeEvent) :
    ∃ s, Holds i config (nodeStep S host cfg n e) s ∧
      Ran t ((nodeOps S host cfg i n e).foldl
        (Traced.op S role (cfg.keyPair S) config.publicKey) t) s
        (nodeForwards host i n e) (nodeDelivers S i n e) := by
  cases e with
  | loop e =>
    cases n with
    | none => exact ⟨t.session, nofun, Ran.refl t⟩
    | some w =>
      obtain ⟨ps, hget, hconfig, hsession⟩ := holds w rfl
      obtain ⟨ps', get', config', ran⟩ := Daemon.step_ran aead host hget hsession.symm e
      refine ⟨ps'.session, ?_, ran⟩
      intro w' hw'
      cases hw'
      exact ⟨ps', get', config'.trans hconfig, rfl⟩
  | halt =>
    refine ⟨t.session, ?_, ?_⟩
    · cases n <;> exact nofun
    · cases n <;> exact Ran.refl t
  | boot boots clock =>
    have hforwards : nodeForwards host i n (.boot boots clock) = [] := by cases n <;> rfl
    have hdelivers : nodeDelivers S i n (.boot boots clock) = [] := by cases n <;> rfl
    have hstep : nodeStep S host cfg n (.boot boots clock) = World.start S cfg boots clock := by
      cases n <;> rfl
    have hops : nodeOps S host cfg i n (.boot boots clock) =
        if startsUpTo S cfg boots i then startOps (boots i) config else [] := by
      cases n <;> simp only [nodeOps, get]
    rw [hforwards, hdelivers, hstep, hops]
    by_cases starts : startsUpTo S cfg boots i = true
    · obtain ⟨ps, effects, hstart⟩ := startsUpTo_get get starts
      have derived : (cfg.keyPair S).pk = cryptoDerivePublicKey S (cfg.keyPair S).sk := rfl
      obtain ⟨hconfig, ran⟩ := startPeer_ran derived hstart t
      rw [if_pos starts]
      rw [hrole] at ran
      refine ⟨ps.session, fun w hw => ?_, ran⟩
      have hlt : i < w.daemon.peers.length := by
        rw [World.start_length hw]
        exact (List.getElem?_eq_some_iff.mp get).1
      obtain ⟨config', effects', hconfig', -, hstart'⟩ :=
        World.start_get hw (List.getElem?_eq_getElem hlt)
      cases get.symm.trans hconfig'
      cases hstart.symm.trans hstart'
      exact ⟨_, List.getElem?_eq_getElem hlt, hconfig, rfl⟩
    · rw [if_neg starts]
      exact ⟨t.session, fun w hw => absurd (startsUpTo_of_start hw i) starts, Ran.refl t⟩

/-- What a node writes to its TUN device, it delivers for the peers of its configuration. -/
theorem nodeWrites_eq {peers : Nat} (length : ∀ w, n = some w → w.daemon.peers.length = peers)
    (e : NodeEvent) :
    nodeWrites S host n e = (List.range peers).flatMap fun i => nodeDelivers S i n e := by
  have none_ : (List.range peers).flatMap (fun _ => ([] : List Bytes)) = [] :=
    List.flatMap_eq_nil_iff.mpr fun _ _ => rfl
  cases n with
  | none => exact none_.symm
  | some w =>
    cases e with
    | loop e =>
      rw [← length w rfl]
      exact Daemon.step_writes host w.daemon e
    | boot => exact none_.symm
    | halt => exact none_.symm

end NodeRan

/-! ## Links -/

/-- Two sections of two configurations that name each other. -/
structure Link (S : Sodium) {ι : Type} (mesh : Mesh ι) where
  node : CryptoRole → ι
  index : CryptoRole → Nat
  peer : CryptoRole → ConfigPeer
  configured : ∀ role, (mesh.config (node role)).peers[index role]? = some (peer role)
  role : ∀ role, (peer role).role = role
  publicKey : ∀ role, (peer role).publicKey =
    cryptoDerivePublicKey S (mesh.config (node role.other)).privateKey
  apart : node .initiator ≠ node .responder

section Link

variable {S : Sodium} {ι : Type} {mesh : Mesh ι} (l : Link S mesh)

/-- The long-term pairs of a link's two nodes. -/
def Link.ids : Identities :=
  ⟨(mesh.config (l.node .initiator)).keyPair S, (mesh.config (l.node .responder)).keyPair S⟩

theorem Link.ids_own (role : CryptoRole) :
    l.ids.own role = (mesh.config (l.node role)).keyPair S := by
  cases role <;> rfl

theorem Link.ids_peer (role : CryptoRole) :
    (l.ids.own role.other).pk = (l.peer role).publicKey := by
  rw [l.ids_own, l.publicKey]
  rfl

theorem Link.ids_matches (role : CryptoRole) : (l.ids.own role).Matches S := by
  rw [l.ids_own]
  rfl

theorem Link.node_other (role : CryptoRole) : l.node role.other ≠ l.node role := by
  cases role with
  | initiator => exact l.apart.symm
  | responder => exact l.apart

variable [DecidableEq ι]

/-- The moves of one side in an event of the mesh. -/
def Link.sideMoves (role : CryptoRole) (nodes : ι → Option World) (e : ι × NodeEvent) :
    List Move :=
  if e.1 = l.node role then
    (nodeOps S (mesh.host e.1) (mesh.config e.1) (l.index role) (nodes e.1) e.2).flatMap
      (Op.moves role)
  else
    []

/-- **What an event of the mesh does to a link.** -/
def Link.moves (nodes : ι → Option World) (e : ι × NodeEvent) : List Move :=
  l.sideMoves .initiator nodes e ++ l.sideMoves .responder nodes e

/-- What a run of the mesh does to a link. -/
def Link.runMoves : (ι → Option World) → List (ι × NodeEvent) → List Move :=
  Runs.outputs (mesh.step S) l.moves

/-- The sessions that the two nodes hold for the link are those of the relationship. -/
def Link.Follows (nodes : ι → Option World) (r : Relationship) : Prop :=
  ∀ role, Holds (l.index role) (l.peer role) (nodes (l.node role)) (r.side role).session

/-- Only the side whose node an event is of moves. -/
theorem Link.moves_eq (nodes : ι → Option World) {e : ι × NodeEvent} {role : CryptoRole}
    (own : e.1 = l.node role) : l.moves nodes e = l.sideMoves role nodes e := by
  have other : l.sideMoves role.other nodes e = [] :=
    if_neg fun h => l.node_other role (h.symm.trans own)
  unfold Link.moves
  cases role with
  | initiator => rw [show l.sideMoves .responder nodes e = [] from other, List.append_nil]
  | responder => rw [show l.sideMoves .initiator nodes e = [] from other, List.nil_append]

theorem Link.moves_elsewhere (nodes : ι → Option World) {e : ι × NodeEvent}
    (elsewhere : ∀ role, e.1 ≠ l.node role) : l.moves nodes e = [] := by
  unfold Link.moves Link.sideMoves
  rw [if_neg (elsewhere _), if_neg (elsewhere _)]
  rfl

variable {l}

/-- **One event**: the sessions stay those of the relationship, and its packets are those of the
event. -/
theorem Link.step_ran (aead : S.Aead) {nodes : ι → Option World} {r : Relationship}
    (follows : l.Follows nodes r) (e : ι × NodeEvent) (role : CryptoRole) :
    ∃ s, Holds (l.index role) (l.peer role) (mesh.step S nodes e (l.node role)) s ∧
      Ran (r.side role) (((l.moves nodes e).foldl (Relationship.step S l.ids) r).side role) s
        (if e.1 = l.node role then
          nodeForwards (mesh.host (l.node role)) (l.index role) (nodes (l.node role)) e.2 else [])
        (if e.1 = l.node role then
          nodeDelivers S (l.index role) (nodes (l.node role)) e.2 else []) := by
  obtain ⟨k, e⟩ := e
  by_cases own : k = l.node role
  · subst own
    rw [l.moves_eq nodes rfl, Link.sideMoves, if_pos rfl, if_pos rfl, if_pos rfl]
    rw [(side_run role _ r).1, l.ids_own, l.ids_peer, Mesh.step, Function.update_self]
    exact node_ran aead (l.configured role) (l.role role) (follows role) e
  · rw [if_neg own, if_neg own]
    have kept : ((l.moves nodes (k, e)).foldl (Relationship.step S l.ids) r).side role =
        r.side role := by
      by_cases other : k = l.node role.other
      · rw [l.moves_eq nodes other, Link.sideMoves, if_pos other]
        have kept : ∀ ops : List Op, ((ops.flatMap (Op.moves role.other)).foldl
            (Relationship.step S l.ids) r).side role.other.other = r.side role.other.other :=
          fun ops => (side_run role.other ops r).2
        rw [role.other_other] at kept
        exact kept _
      · rw [l.moves_elsewhere nodes]
        · rfl
        · intro role'
          by_cases same : role' = role
          · exact same ▸ own
          · exact CryptoRole.ne_iff.mp same ▸ other
    rw [kept]
    refine ⟨(r.side role).session, ?_, Ran.refl _⟩
    rw [Mesh.step, Function.update_of_ne (Ne.symm own)]
    exact follows role

theorem Link.step_follows (aead : S.Aead) (nodes : ι → Option World) (r : Relationship)
    (e : ι × NodeEvent) (follows : l.Follows nodes r) :
    l.Follows (mesh.step S nodes e) ((l.moves nodes e).foldl (Relationship.step S l.ids) r) := by
  intro role
  obtain ⟨s, holds, ran⟩ := l.step_ran aead follows e role
  rw [ran.session]
  exact holds

/-- **A mesh refines each of its relationships.** -/
theorem Link.run_follows (aead : S.Aead) (events : List (ι × NodeEvent))
    {nodes : ι → Option World} {r : Relationship} (follows : l.Follows nodes r) :
    l.Follows (events.foldl (mesh.step S) nodes)
      ((l.runMoves nodes events).foldl (Relationship.step S l.ids) r) :=
  Runs.outputs_simulate (fun nodes r e => Link.step_follows aead nodes r e) events follows

/-- The packets of a run of the mesh are those of the run of the relationship. -/
theorem Link.run_packets (aead : S.Aead) (events : List (ι × NodeEvent))
    {nodes : ι → Option World} {r : Relationship} (follows : l.Follows nodes r)
    (role : CryptoRole) :
    sealedPackets (((l.runMoves nodes events).foldl (Relationship.step S l.ids) r).side role).log =
        sealedPackets (r.side role).log ++
          mesh.forwarded S (l.node role) (l.index role) nodes events ∧
      openedPackets
          (((l.runMoves nodes events).foldl (Relationship.step S l.ids) r).side role).log =
        openedPackets (r.side role).log ++
          mesh.delivered S (l.node role) (l.index role) nodes events := by
  constructor
  · refine Runs.outputs_observe (R := l.Follows) (fun r => sealedPackets (r.side role).log)
      (fun nodes r e => Link.step_follows aead nodes r e) ?_ events follows
    intro nodes r e follows
    obtain ⟨s, _, ran⟩ := Link.step_ran aead follows e role
    exact ran.sealed
  · refine Runs.outputs_observe (R := l.Follows) (fun r => openedPackets (r.side role).log)
      (fun nodes r e => Link.step_follows aead nodes r e) ?_ events follows
    intro nodes r e follows
    obtain ⟨s, _, ran⟩ := Link.step_ran aead follows e role
    exact ran.opened

end Link

end EdgarVPN
