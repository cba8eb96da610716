import EdgarVPN.Session.Calls
import EdgarVPN.Daemon.Did

/-!
# The sessions of a daemon

The event loop touches a session through the functions of `session.h` only. Here that is a theorem:
what an event does to a peer's session is a sequence of calls (`StepDid.calls`), so a session of a
running daemon is one that `session_init` made from the peer's section of the configuration, after
some sequence of calls (`sessions_driven`). What holds of every sequence of calls on a session holds
of the daemon's.

The first use of it: the peer at an index holds the static keys of its public key for good
(`Daemon.Keyed`). From there, where the sections for which this node is the responder have different
public keys, and a payload authenticates for one public key at most, an init is read by one peer at
most (`Daemon.Keyed.authenticates_one`).
-/

set_option autoImplicit false

namespace EdgarVPN

variable {S : Sodium} {d : Daemon} {i j : Nat} {ps ps' : PeerSession} {effects : List Effect}

/-! ## Events are calls -/

theorem SealDid.calls (did : SealDid S i ps ps' effects) :
    ∃ calls, ps'.session = List.foldl (sessionCall S) ps.session calls := by
  cases did with
  | idle _ session => exact ⟨[], session⟩
  | @unreturned plaintext _ _ session =>
    exact ⟨[.sealData plaintext sealedBufSize], (congrArg Prod.fst session).symm⟩
  | @sealed plaintext _ _ _ _ session =>
    exact ⟨[.sealData plaintext sealedBufSize], (congrArg Prod.fst session).symm⟩

theorem AttemptDid.calls (did : AttemptDid S ps ps' effects) :
    ∃ calls, ps'.session = List.foldl (sessionCall S) ps.session calls := by
  cases did with
  | idle _ session => exact ⟨[], session⟩
  | @initiated kp _ _ _ _ _ session =>
    exact ⟨[.startHandshake kp, .buildInit sealedBufSize], session⟩

theorem ReceiveDid.calls {datagram : Bytes} {clock : UInt64}
    (did : ReceiveDid S i datagram clock ps ps' effects) :
    ∃ calls, ps'.session = List.foldl (sessionCall S) ps.session calls := by
  cases did with
  | idle _ session => exact ⟨[], session⟩
  | @initRefused kp _ _ session =>
    exact ⟨[.handleInit kp datagram sessionHandshakeMsgLen], (congrArg Prod.fst session).symm⟩
  | @initAccepted kp _ _ _ _ _ _ session =>
    exact ⟨[.handleInit kp datagram sessionHandshakeMsgLen], (congrArg Prod.fst session).symm⟩
  | responseAccepted _ _ _ _ session =>
    exact ⟨[.handleResponse datagram], (congrArg Prod.fst session).symm⟩
  | opened _ session =>
    exact ⟨[.openData datagram (List.replicate maxPacketSize 0)], session.symm⟩

/-- **What an event does to a session is a sequence of calls.** So what every call keeps, a daemon
keeps for each of its sessions. -/
theorem StepDid.calls {e : Event} (did : StepDid S d i ps e ps' effects) :
    ∃ calls, ps'.session = List.foldl (sessionCall S) ps.session calls := by
  cases did with
  | untouched => exact ⟨[], rfl⟩
  | forwarded did => exact did.calls
  | received _ did => exact did.calls
  | @refused datagram _ _ kps _ _ _ _ session =>
    exact ⟨[.handleInit (kps i) (datagram.take sealedBufSize) sessionHandshakeMsgLen],
      (congrArg Prod.fst session).symm⟩
  | @matched datagram _ _ kps _ _ _ _ _ _ _ _ _ session =>
    exact ⟨[.handleInit (kps i) (datagram.take sealedBufSize) sessionHandshakeMsgLen],
      (congrArg Prod.fst session).symm⟩
  | ticked keepalive reconnect =>
    obtain ⟨calls, hcalls⟩ := keepalive.calls
    obtain ⟨calls', hcalls'⟩ := reconnect.calls
    exact ⟨calls ++ calls', by rw [List.foldl_append, ← hcalls, hcalls']⟩

/-- No event changes which section of the configuration a peer is. -/
theorem StepDid.config {e : Event} (did : StepDid S d i ps e ps' effects) :
    ps'.config = ps.config := by
  cases did with
  | untouched => rfl
  | forwarded did => exact did.kept.config
  | received _ did =>
    cases did with
    | idle kept => exact kept.config
    | initRefused kept => exact kept.config
    | initAccepted config => exact config
    | responseAccepted config => exact config
    | opened kept => exact kept.config
  | refused => rfl
  | matched _ _ config => exact config
  | ticked keepalive reconnect =>
    exact reconnect.config.trans keepalive.kept.config

/-! ## Runs are sequences of calls -/

/-- Peer `i` is section `i`, and its session is one `session_init` made from it, after some
calls. -/
def PeerSession.Driven (S : Sodium) (cfg : Config) (boots : Nat → Boot) (i : Nat)
    (ps : PeerSession) : Prop :=
  cfg.peers[i]? = some ps.config ∧
    ∃ s₀ calls, sessionInit S ps.config.role (cryptoDerivePublicKey S cfg.privateKey)
        cfg.privateKey ps.config.publicKey (boots i).time (boots i).initialPair = some s₀ ∧
      ps.session = List.foldl (sessionCall S) s₀ calls

theorem PeerSession.Driven.append {cfg : Config} {boots : Nat → Boot}
    (driven : ps.Driven S cfg boots i) (config : ps'.config = ps.config)
    (more : ∃ calls, ps'.session = List.foldl (sessionCall S) ps.session calls) :
    ps'.Driven S cfg boots i := by
  obtain ⟨hconfig, s₀, calls, hinit, hcalls⟩ := driven
  obtain ⟨calls', hcalls'⟩ := more
  unfold PeerSession.Driven
  rw [config]
  exact ⟨hconfig, s₀, calls ++ calls', hinit, by rw [List.foldl_append, ← hcalls, hcalls']⟩

/-- Every session of the daemon is one `session_init` made, after some calls. -/
def Daemon.Driven (S : Sodium) (cfg : Config) (boots : Nat → Boot) (d : Daemon) : Prop :=
  ∀ (i : Nat) (ps : PeerSession), d.peers[i]? = some ps → ps.Driven S cfg boots i

section Runs

variable {host : Endian} {cfg : Config} {boots : Nat → Boot} {clock : UInt64} {w : World}

theorem Daemon.Driven.step (driven : d.Driven S cfg boots) (e : Event) :
    (d.step S host e).1.Driven S cfg boots := by
  intro i ps' get'
  obtain ⟨ps, effects, get, _, did⟩ := Daemon.step_from host e get'
  exact (driven i ps get).append did.config did.calls

theorem World.start_driven (start : World.start S cfg boots clock = some w) :
    w.daemon.Driven S cfg boots := by
  intro i ps get
  obtain ⟨config, effects, hconfig, _, hstart⟩ := World.start_get start get
  obtain ⟨ps₀, rfl, _, hinit, did⟩ := startPeer_did hstart
  have driven : ps₀.Driven S cfg boots i := ⟨hconfig, ps₀.session, [], hinit, rfl⟩
  exact driven.append did.config did.calls

/-- **A session of a running daemon is one `session_init` made, after some calls.** -/
theorem sessions_driven (start : World.start S cfg boots clock = some w) (events : List Event) :
    (events.foldl (World.step S host) w).daemon.Driven S cfg boots := by
  refine List.foldlRecOn (motive := fun w : World => w.daemon.Driven S cfg boots) events _
    (World.start_driven start) ?_
  intro w driven e _
  exact driven.step e

end Runs

/-! ## Static keys -/

/-- The static keys toward a section of the configuration. -/
def Config.staticKeys (S : Sodium) (cfg : Config) (p : ConfigPeer) : Option SessionKeys :=
  cryptoDeriveSessionKeys S p.role (cryptoDerivePublicKey S cfg.privateKey) cfg.privateKey
    p.publicKey

/-- Peer `i` is section `i` and holds its static keys. -/
structure PeerSession.Keyed (S : Sodium) (cfg : Config) (i : Nat) (ps : PeerSession) : Prop where
  config : cfg.peers[i]? = some ps.config
  role : ps.session.role = ps.config.role
  static : cfg.staticKeys S ps.config = some ps.session.staticKeys

theorem sessionCalls_frame (s : Session) (calls : List Call) :
    (calls.foldl (sessionCall S) s).role = s.role ∧
      (calls.foldl (sessionCall S) s).staticKeys = s.staticKeys := by
  induction calls generalizing s with
  | nil => exact ⟨rfl, rfl⟩
  | cons c calls ih =>
    have here := (sessionCall_did (S := S) s c).frame
    exact ⟨(ih _).1.trans here.1, (ih _).2.trans here.2⟩

theorem PeerSession.Driven.keyed {cfg : Config} {boots : Nat → Boot}
    (driven : ps.Driven S cfg boots i) : ps.Keyed S cfg i := by
  obtain ⟨hconfig, s₀, calls, hinit, hcalls⟩ := driven
  obtain ⟨staticKeys, hstatic, rfl⟩ := sessionInit_eq_some hinit
  obtain ⟨hrole, hkeys⟩ := sessionCalls_frame (S := S)
    (sessionStartHandshake (boots i).initialPair { Session.zero with
      role := ps.config.role, staticKeys := staticKeys, handshakeCounter := (boots i).time }) calls
  rw [← hcalls] at hrole hkeys
  exact ⟨hconfig, hrole, by rw [hkeys]; exact hstatic⟩

/-- Every peer holds the static keys of its section. -/
def Daemon.Keyed (S : Sodium) (cfg : Config) (d : Daemon) : Prop :=
  ∀ (i : Nat) (ps : PeerSession), d.peers[i]? = some ps → ps.Keyed S cfg i

theorem Daemon.Driven.keyed {cfg : Config} {boots : Nat → Boot} (driven : d.Driven S cfg boots) :
    d.Keyed S cfg :=
  fun i ps get => (driven i ps get).keyed

/-- The peers of a daemon with a peer for each section are the sections. -/
theorem Daemon.Keyed.configs {cfg : Config} (keyed : d.Keyed S cfg)
    (length : d.peers.length = cfg.peers.length) :
    d.peers.map PeerSession.config = cfg.peers := by
  refine List.ext_getElem? fun i => ?_
  rw [List.getElem?_map]
  cases get : d.peers[i]? with
  | none =>
    rw [List.getElem?_eq_none_iff, length] at get
    exact (List.getElem?_eq_none get).symm
  | some ps => exact ((keyed i ps get).config).symm

/-- The sections for which this node is the responder have different public keys. -/
def Config.RespondersApart (cfg : Config) : Prop :=
  cfg.peers.Pairwise fun p q => p.role = .responder → q.role = .responder →
    p.publicKey ≠ q.publicKey

instance (cfg : Config) : Decidable cfg.RespondersApart :=
  inferInstanceAs (Decidable (List.Pairwise _ _))

/-- A payload that authenticates under the static key toward one public key does not under the one
toward another: a packet opens under the key it was sealed with only. -/
def Config.Separates (S : Sodium) (cfg : Config) (payload : Bytes) : Prop :=
  ∀ p ∈ cfg.peers, ∀ q ∈ cfg.peers, p.role = .responder → q.role = .responder →
    p.publicKey ≠ q.publicKey → ∀ kp ∈ cfg.staticKeys S p, ∀ kq ∈ cfg.staticKeys S q,
      (authenticates S kp.rx payload).isSome = true → authenticates S kq.rx payload = none

/-- The check of `Config.Separates`, pair by pair. -/
def Config.separates (S : Sodium) (cfg : Config) (payload : Bytes) : Bool :=
  cfg.peers.all fun p => cfg.peers.all fun q =>
    p.role != .responder || q.role != .responder || p.publicKey == q.publicKey ||
      (cfg.staticKeys S p).all fun kp => (cfg.staticKeys S q).all fun kq =>
        (authenticates S kp.rx payload).isNone || (authenticates S kq.rx payload).isNone

theorem Config.separates_iff (cfg : Config) (payload : Bytes) :
    cfg.separates S payload = true ↔ cfg.Separates S payload := by
  simp only [Config.separates, Config.Separates, List.all_eq_true, Bool.or_eq_true, bne_iff_ne,
    beq_iff_eq, Option.all_eq_true, Option.isNone_iff_eq_none]
  refine forall₄_congr fun p _ q _ => ?_
  constructor
  · intro h hp hq hne kp hkp kq hkq auth
    rcases h with ((notp | notq) | same) | apart
    · exact absurd hp notp
    · exact absurd hq notq
    · exact absurd same hne
    · rcases apart kp hkp kq hkq with none | none
      · rw [none] at auth
        cases auth
      · exact none
  · intro h
    by_cases hp : p.role = .responder
    · by_cases hq : q.role = .responder
      · by_cases same : p.publicKey = q.publicKey
        · exact .inl (.inr same)
        · refine .inr fun kp hkp kq hkq => ?_
          cases auth : authenticates S kp.rx payload with
          | none => exact .inl rfl
          | some opened => exact .inr (h hp hq same kp hkp kq hkq (by rw [auth]; rfl))
      · exact .inl (.inl (.inr hq))
    · exact .inl (.inl (.inl hp))

instance (cfg : Config) (payload : Bytes) : Decidable (cfg.Separates S payload) :=
  decidable_of_iff _ (cfg.separates_iff payload)

theorem Config.RespondersApart.index {cfg : Config} (apart : cfg.RespondersApart) {p q : ConfigPeer}
    (hp : cfg.peers[i]? = some p) (hq : cfg.peers[j]? = some q) (hprole : p.role = .responder)
    (hqrole : q.role = .responder) (same : p.publicKey = q.publicKey) : i = j := by
  obtain ⟨hi, rfl⟩ := List.getElem?_eq_some_iff.mp hp
  obtain ⟨hj, rfl⟩ := List.getElem?_eq_some_iff.mp hq
  have ordered := List.pairwise_iff_getElem.mp apart
  rcases Nat.lt_trichotomy i j with h | h | h
  · exact absurd same (ordered i j hi hj h hprole hqrole)
  · exact h
  · exact absurd same.symm (ordered j i hj hi h hqrole hprole)

/-- Different public keys for all sections are different ones for some. -/
theorem Config.respondersApart {cfg : Config} (distinct : (cfg.peers.map (·.publicKey)).Nodup) :
    cfg.RespondersApart := by
  have hpairs := List.pairwise_map.mp distinct
  exact hpairs.imp fun hne _ _ => hne

/-- A payload authenticates for one responder at most. -/
theorem Daemon.Keyed.authenticates_one {cfg : Config} {payload : Bytes} {opened : Bytes × UInt64}
    (keyed : d.Keyed S cfg) (apart : cfg.RespondersApart) (separates : cfg.Separates S payload)
    (geti : d.peers[i]? = some ps) (getj : d.peers[j]? = some ps')
    (rolei : ps.config.role = .responder) (rolej : ps'.config.role = .responder)
    (auth : authenticates S ps.session.staticKeys.rx payload = some opened) (hij : i ≠ j) :
    authenticates S ps'.session.staticKeys.rx payload = none := by
  have ki := keyed i ps geti
  have kj := keyed j ps' getj
  refine separates _ (List.mem_of_getElem? ki.config) _ (List.mem_of_getElem? kj.config) rolei rolej
    ?_ _ ki.static _ kj.static (by rw [auth]; rfl)
  exact fun same => hij (apart.index ki.config kj.config rolei rolej same)

end EdgarVPN
