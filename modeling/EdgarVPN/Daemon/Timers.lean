import EdgarVPN.Daemon.Rotation

/-!
# The timers

Each peer keeps three readings of the clock (the last time it was heard, the last time something was
sent to it, its last handshake), and the daemon one (its last statistics). A timer pass subtracts
them from its own reading, as unsigned numbers, and compares.

Everything here follows from what one event does to the readings (`PeerSession.Restamped`): each is
left alone, or becomes the event's own. So with a clock that does not go back no reading is ever
ahead of it (`World.Punctual`), and no difference wraps.

**What is proved.**

- `timer_pass`: no difference that a timer pass takes wraps; after the pass every established peer
  with a known address was sent something less than the keepalive interval ago, every initiator was
  heard or tried less than the timeout ago, and a pending initiator with a known address has an
  init outstanding, with the key it now holds.
- `timeout_after_silence`: an initiator that a pass declares dead had accepted nothing from its peer
  for the length of the timeout, exactly where `tun_write` took every packet accepted in that time.
  `live_peer_timed_out` is the other case: packets arrive and are accepted, `tun_write` fails, and
  the peer is declared dead.
-/

set_option autoImplicit false

namespace EdgarVPN

variable {S : Sodium} {d : Daemon} {i : Nat} {ps ps' : PeerSession} {effects : List Effect}
  {clock : UInt64}

/-! ## What an event does to the readings -/

/-- Each reading a peer keeps is the old one or this one. -/
structure PeerSession.Restamped (clock : UInt64) (ps ps' : PeerSession) : Prop where
  rx : ps'.lastRxActivityMs = ps.lastRxActivityMs ∨ ps'.lastRxActivityMs = clock
  tx : ps'.lastTxActivityMs = ps.lastTxActivityMs ∨ ps'.lastTxActivityMs = clock
  completed : ps'.lastHandshakeCompletedMs = ps.lastHandshakeCompletedMs ∨
    ps'.lastHandshakeCompletedMs = clock

theorem PeerSession.Restamped.refl (clock : UInt64) (ps : PeerSession) : ps.Restamped clock ps :=
  ⟨.inl rfl, .inl rfl, .inl rfl⟩

theorem PeerSession.Restamped.trans {ps'' : PeerSession} (h : ps.Restamped clock ps')
    (h' : ps'.Restamped clock ps'') : ps.Restamped clock ps'' where
  rx := h'.rx.elim (fun same => h.rx.imp same.trans same.trans) .inr
  tx := h'.tx.elim (fun same => h.tx.imp same.trans same.trans) .inr
  completed := h'.completed.elim (fun same => h.completed.imp same.trans same.trans) .inr

theorem forward_restamped (packet : Bytes) (sendOk : Bool) :
    ps.Restamped clock (ps.forward S i packet clock sendOk).1 := by
  unfold PeerSession.forward
  split
  · exact ⟨.inl rfl, .inl rfl, .inl rfl⟩
  · split
    · exact ⟨.inl rfl, .inl rfl, .inl rfl⟩
    · cases sendOk with
      | true => exact ⟨.inl rfl, .inr rfl, .inl rfl⟩
      | false => exact ⟨.inl rfl, .inl rfl, .inl rfl⟩

theorem receive_restamped (datagram : Bytes) (kp : KeyPair) (sendOk tunOk : Bool) :
    ps.Restamped clock (ps.receive S i datagram clock kp sendOk tunOk).1 := by
  unfold PeerSession.receive
  dsimp only
  split
  · unfold PeerSession.receiveInit
    split
    · exact ⟨.inl rfl, .inl rfl, .inl rfl⟩
    · cases sendOk with
      | true => exact ⟨.inr rfl, .inr rfl, .inr rfl⟩
      | false => exact ⟨.inl rfl, .inl rfl, .inl rfl⟩
  · split
    · unfold PeerSession.receiveResponse
      split
      · exact ⟨.inl rfl, .inl rfl, .inl rfl⟩
      · exact ⟨.inr rfl, .inl rfl, .inr rfl⟩
    · split
      · unfold PeerSession.receiveData
        dsimp only
        split
        · exact ⟨.inl rfl, .inl rfl, .inl rfl⟩
        · exact ⟨.inr rfl, .inl rfl, .inl rfl⟩
        · cases tunOk with
          | true => exact ⟨.inr rfl, .inl rfl, .inl rfl⟩
          | false => exact ⟨.inl rfl, .inl rfl, .inl rfl⟩
      · exact ⟨.inl rfl, .inl rfl, .inl rfl⟩

theorem keepalive_restamped (sendOk : Bool) :
    ps.Restamped clock (ps.keepalive S i clock sendOk).1 := by
  unfold PeerSession.keepalive
  split
  · split
    · exact ⟨.inl rfl, .inr rfl, .inl rfl⟩
    · cases sendOk with
      | true => exact ⟨.inl rfl, .inr rfl, .inl rfl⟩
      | false => exact ⟨.inl rfl, .inr rfl, .inl rfl⟩
  · exact .refl ..

theorem sendInit_restamped (env : Attempt) :
    ps.Restamped clock (ps.sendInit S clock env).1 := by
  unfold PeerSession.sendInit
  dsimp only
  split
  · exact ⟨.inr rfl, .inr rfl, .inl rfl⟩
  · exact ⟨.inr rfl, .inr rfl, .inl rfl⟩

theorem initiateHandshake_restamped (env : Attempt) :
    ps.Restamped clock (initiateHandshake S clock env ps).1 := by
  unfold initiateHandshake
  split
  · exact sendInit_restamped env
  · dsimp only
    split
    · exact ⟨.inr rfl, .inl rfl, .inl rfl⟩
    · next ip _ =>
      have found : ps.Restamped clock { ps with
          lastRxActivityMs := clock, addr := ⟨ip, ps.config.port⟩, addrResolved := true } :=
        ⟨.inr rfl, .inl rfl, .inl rfl⟩
      exact found.trans (sendInit_restamped env)

theorem reconnect_restamped (env : Attempt) :
    ps.Restamped clock (ps.reconnect S clock env).1 := by
  unfold PeerSession.reconnect
  split
  · exact initiateHandshake_restamped env
  · split
    · exact initiateHandshake_restamped env
    · exact .refl ..

/-- **An event leaves a reading alone, or replaces it by its own.** -/
theorem PeerMove.restamped {e : Event} (move : PeerMove S d i ps e ps' effects) :
    ps.Restamped e.clock ps' := by
  cases move with
  | untouched => exact .refl ..
  | forwarded => exact forward_restamped ..
  | received => exact receive_restamped ..
  | refused => exact ⟨.inl rfl, .inl rfl, .inl rfl⟩
  | @matched _ _ _ _ sendOk =>
    cases sendOk with
    | true => exact ⟨.inr rfl, .inr rfl, .inr rfl⟩
    | false => exact ⟨.inl rfl, .inl rfl, .inl rfl⟩
  | ticked => exact (keepalive_restamped _).trans (reconnect_restamped _)

/-! ## No reading is ahead of the clock -/

/-- The readings of a peer are not ahead of this one. -/
structure PeerSession.Punctual (clock : UInt64) (ps : PeerSession) : Prop where
  rx : ps.lastRxActivityMs ≤ clock
  tx : ps.lastTxActivityMs ≤ clock
  completed : ps.lastHandshakeCompletedMs ≤ clock

theorem PeerSession.Punctual.restamped {clock' : UInt64} (h : ps.Punctual clock)
    (later : clock ≤ clock') (moved : ps.Restamped clock' ps') : ps'.Punctual clock' where
  rx := by
    rcases moved.rx with same | new
    · rw [same]
      exact UInt64.le_trans h.rx later
    · rw [new]
      exact UInt64.le_refl _
  tx := by
    rcases moved.tx with same | new
    · rw [same]
      exact UInt64.le_trans h.tx later
    · rw [new]
      exact UInt64.le_refl _
  completed := by
    rcases moved.completed with same | new
    · rw [same]
      exact UInt64.le_trans h.completed later
    · rw [new]
      exact UInt64.le_refl _

/-- No reading of the daemon is ahead of its clock. -/
structure World.Punctual (w : World) : Prop where
  stats : w.daemon.lastStatsMs ≤ w.clock
  peers : ∀ (i : Nat) (ps : PeerSession), w.daemon.peers[i]? = some ps → ps.Punctual w.clock

theorem Daemon.step_stats (host : Endian) (e : Event) (d : Daemon) :
    (d.step S host e).1.lastStatsMs = d.lastStatsMs ∨
      (d.step S host e).1.lastStatsMs = e.clock := by
  cases e with
  | tun packet clock sendOk =>
    obtain h | ⟨_, _, _, h⟩ := tun_did (S := S) host packet clock sendOk d
    · rw [Daemon.step, h]
      exact .inl rfl
    · rw [Daemon.step, h]
      exact .inl rfl
  | udp datagram source clock kps sendOk tunOk =>
    have did := udp_did (S := S) clock datagram source kps sendOk tunOk d
    rw [Daemon.step]
    generalize d.udp S datagram source clock kps sendOk tunOk = result at did
    obtain ⟨d', effects⟩ := result
    cases did with
    | ignored => exact .inl rfl
    | known => exact .inl rfl
    | unmatched => exact .inl rfl
    | matched => exact .inl rfl
  | timer now env =>
    rw [Daemon.step, Daemon.timer]
    split
    · dsimp only
      split
      · exact .inr rfl
      · exact .inl rfl
    · exact .inl rfl

theorem World.Punctual.step {host : Endian} {w : World} {e : Event} (h : w.Punctual)
    (clocked : e.Clocked w) : (w.step S host e).Punctual where
  stats := by
    show (w.daemon.step S host e).1.lastStatsMs ≤ e.clock
    rcases Daemon.step_stats (S := S) host e w.daemon with same | new
    · rw [same]
      exact UInt64.le_trans h.stats clocked
    · rw [new]
      exact UInt64.le_refl _
  peers i ps' get' := by
    obtain ⟨ps, effects, get, _, move⟩ := Daemon.move_from host e get'
    exact (h.peers i ps get).restamped clocked move.restamped

/-- The readings made before the loop come one after the other. -/
def BootsOrdered (boots : Nat → Boot) (clock : UInt64) : Prop :=
  ∀ i, (boots i).clock ≤ (boots i).attemptClock ∧ (boots i).attemptClock ≤ clock

theorem World.start_clock {cfg : Config} {boots : Nat → Boot} {w : World}
    (start : World.start S cfg boots clock = some w) :
    w.clock = clock ∧ w.daemon.lastStatsMs = clock := by
  unfold World.start at start
  split at start
  · cases start
  · cases start
    exact ⟨rfl, rfl⟩

theorem World.start_punctual {cfg : Config} {boots : Nat → Boot} {w : World}
    (start : World.start S cfg boots clock = some w) (booted : BootsOrdered boots clock) :
    w.Punctual := by
  obtain ⟨hclock, hstats⟩ := World.start_clock start
  refine ⟨by rw [hstats, hclock]; exact UInt64.le_refl _, fun i ps get => ?_⟩
  rw [hclock]
  obtain ⟨config, effects, _, _, hstart⟩ := World.start_get start get
  obtain ⟨session, _, ended⟩ := startPeer_eq hstart
  have fresh : (PeerSession.fresh config session (boots i).clock).Punctual (boots i).attemptClock :=
    ⟨(booted i).1, UInt64.zero_le, UInt64.zero_le⟩
  have before : ps.Punctual (boots i).attemptClock := by
    rcases ended with ⟨_, hattempt⟩ | ⟨_, hfresh⟩
    · have hps : ps = _ := congrArg Prod.fst hattempt
      rw [hps]
      exact fresh.restamped (UInt64.le_refl _) (initiateHandshake_restamped _)
    · cases hfresh
      exact fresh
  exact before.restamped (booted i).2 (.refl ..)

/-! ## The outstanding init -/

/-- The peer's latest init was handed to `udp_send`: it carries the pending counter, the one before
the next, and the ephemeral key the session holds. -/
def InitOutstanding (S : Sodium) (log : List Effect) (s : Session) : Prop :=
  s.handshakeCounter = s.pendingHandshakeCounter + 1 ∧
    ∃ packet dest ok, .sent (sessionMsgHandshakeInit :: packet) dest ok ∈ log ∧
      cryptoSeal S s.staticKeys.tx s.pendingHandshakeCounter s.localEphPk.bytes
        (sealedBufSize - 1) = some packet

theorem InitOutstanding.mono {log log' : List Effect} {s : Session}
    (h : InitOutstanding S log s) (sub : log ⊆ log') : InitOutstanding S log' s := by
  obtain ⟨hcounter, packet, dest, ok, hsent, hsealed⟩ := h
  exact ⟨hcounter, packet, dest, ok, sub hsent, hsealed⟩

theorem sendInit_outstanding (aead : S.Aead) (role : ps.session.role = .initiator)
    (env : Attempt) :
    InitOutstanding S (ps.sendInit S clock env).2 (ps.sendInit S clock env).1.session := by
  have started : (sessionStartHandshake env.kp ps.session).role = .initiator := role
  have room : sessionHandshakeMsgLen ≤ sealedBufSize := by decide
  obtain ⟨packet, hseal, hbuild⟩ := sessionBuildInit_isSome aead started rfl room
  simp only [PeerSession.sendInit, hbuild]
  exact ⟨rfl, packet, _, _, List.mem_singleton_self _, hseal⟩

/-- After an attempt a peer whose address is known has an init outstanding. -/
theorem initiateHandshake_outstanding (aead : S.Aead) (role : ps.session.role = .initiator)
    (env : Attempt) (resolved : (initiateHandshake S clock env ps).1.addrResolved = true) :
    InitOutstanding S (initiateHandshake S clock env ps).2
      (initiateHandshake S clock env ps).1.session := by
  unfold initiateHandshake at resolved ⊢
  split
  · exact sendInit_outstanding aead role env
  · next unresolved =>
    rw [if_neg unresolved] at resolved
    cases hip : env.resolved with
    | none =>
      rw [hip] at resolved
      exact absurd resolved unresolved
    | some ip =>
      dsimp only
      apply sendInit_outstanding aead
      exact role

theorem reconnect_outstanding (aead : S.Aead) (log : List Effect) (env : Attempt)
    (role : ps.session.role = .initiator)
    (before : ps.addrResolved = true → ps.session.state = .handshakePending →
      InitOutstanding S log ps.session)
    (resolved : (ps.reconnect S clock env).1.addrResolved = true)
    (pending : (ps.reconnect S clock env).1.session.state = .handshakePending) :
    InitOutstanding S (log ++ (ps.reconnect S clock env).2)
      (ps.reconnect S clock env).1.session := by
  unfold PeerSession.reconnect at resolved pending ⊢
  split
  · next h =>
    rw [if_pos h] at resolved
    exact (initiateHandshake_outstanding aead role env resolved).mono
      (List.subset_append_right _ _)
  · next h =>
    rw [if_neg h] at resolved pending
    split
    · next h' =>
      rw [if_pos h'] at resolved
      exact (initiateHandshake_outstanding aead role env resolved).mono
        (List.subset_append_right _ _)
    · next h' =>
      rw [if_neg h'] at resolved pending
      exact (before resolved pending).mono (List.subset_append_left _ _)

/-- What else happens to a pending initiator leaves its attempt alone. -/
theorem ReceiveDid.pending {datagram : Bytes} (did : ReceiveDid S i datagram clock ps ps' effects)
    (role : ps.config.role = .initiator) (pending : ps'.session.state = .handshakePending) :
    ps'.session = ps.session ∧ ps'.addrResolved = ps.addrResolved := by
  cases did with
  | idle kept session => exact ⟨session, kept.addrResolved⟩
  | initRefused _ responder => rw [role] at responder; cases responder
  | initAccepted _ _ _ responder => rw [role] at responder; cases responder
  | responseAccepted _ _ _ _ session =>
    obtain ⟨_, _, _, hs⟩ := sessionHandleResponse_eq_true session
    rw [hs] at pending
    cases pending
  | opened _ session plain =>
    have established := (sessionOpenData_eq_some plain).1
    rw [← session, (openData_data rfl).1, established] at pending
    cases pending

theorem SealDid.pending (did : SealDid S i ps ps' effects)
    (pending : ps'.session.state = .handshakePending) : ps'.session = ps.session := by
  obtain ⟨_, hs⟩ := did.session
  cases did with
  | idle _ session => exact session
  | unreturned _ established =>
    rw [hs, established] at pending
    cases pending
  | sealed _ established =>
    rw [hs, established] at pending
    cases pending

/-- An event keeps a pending initiator's init outstanding. -/
theorem PeerMove.outstanding (aead : S.Aead) {e : Event} {log log' : List Effect}
    (move : PeerMove S d i ps e ps' effects) (role : ps.config.role = .initiator)
    (sessionRole : ps.session.role = .initiator)
    (before : ps.addrResolved = true → ps.session.state = .handshakePending →
      InitOutstanding S log ps.session)
    (sub : log ++ effects ⊆ log') (resolved : ps'.addrResolved = true)
    (pending : ps'.session.state = .handshakePending) : InitOutstanding S log' ps'.session := by
  have old : log ⊆ log' := fun x hx => sub (List.mem_append_left _ hx)
  have same : ps'.session = ps.session → ps'.addrResolved = ps.addrResolved →
      InitOutstanding S log' ps'.session := by
    intro session addr
    rw [session] at pending ⊢
    exact (before (addr ▸ resolved) pending).mono old
  cases move with
  | untouched => exact same rfl rfl
  | @forwarded packet now sendOk =>
    have did := forward_did (S := S) i now ps (packet.take maxPacketSize) sendOk
    exact same (did.pending pending) did.kept.addrResolved
  | received =>
    obtain ⟨session, addr⟩ := (receive_did (S := S) i _ ps _ _ _ _).pending role pending
    exact same session addr
  | refused responder => rw [role] at responder; cases responder
  | matched _ _ responder => rw [role] at responder; cases responder
  | @ticked now env =>
    have did := keepalive_did (S := S) i now ps (env i).keepaliveSent
    obtain ⟨_, hmid⟩ := did.session
    have midRole : (ps.keepalive S i now (env i).keepaliveSent).1.session.role = .initiator := by
      rw [hmid]
      exact sessionRole
    have after := reconnect_outstanding aead log (env i).toAttempt midRole
      (fun addr hpending => by
        have hsame := did.pending hpending
        rw [hsame] at hpending ⊢
        exact before (did.kept.addrResolved ▸ addr) hpending) resolved pending
    refine after.mono fun x hx => sub ?_
    rcases List.mem_append.mp hx with hx | hx
    · exact List.mem_append_left _ hx
    · exact List.mem_append_right _ (List.mem_append_right _ hx)

/-- Every pending initiator whose address is known has an init outstanding. -/
def World.Outstanding (S : Sodium) (w : World) : Prop :=
  ∀ (i : Nat) (ps : PeerSession), w.daemon.peers[i]? = some ps → ps.config.role = .initiator →
    ps.addrResolved = true → ps.session.state = .handshakePending →
      InitOutstanding S w.log ps.session

theorem World.Outstanding.step (aead : S.Aead) {host : Endian} {cfg : Config} {w : World}
    (h : w.Outstanding S) (keyed : w.daemon.Keyed S cfg) (e : Event) :
    (w.step S host e).Outstanding S := by
  intro i ps' get' role resolved pending
  obtain ⟨ps, effects, get, part, move⟩ := Daemon.move_from host e get'
  rw [move.did.config] at role
  refine move.outstanding aead role ((keyed i ps get).role.trans role) (h i ps get role) ?_ resolved
    pending
  intro x hx
  rcases List.mem_append.mp hx with hx | hx
  · exact List.mem_append_left _ hx
  · exact List.mem_append_right _ (part.sub hx)

theorem World.start_outstanding (aead : S.Aead) {cfg : Config} {boots : Nat → Boot} {w : World}
    (start : World.start S cfg boots clock = some w) : w.Outstanding S := by
  intro i ps get role resolved _
  obtain ⟨config, effects, _, sub, hstart⟩ := World.start_get start get
  obtain ⟨session, hinit, ⟨hrole, hattempt⟩ | ⟨_, hfresh⟩⟩ := startPeer_eq hstart
  · have hps : ps = _ := congrArg Prod.fst hattempt
    have heffects : effects = _ := congrArg Prod.snd hattempt
    obtain ⟨_, _, rfl⟩ := sessionInit_eq_some hinit
    rw [hps] at resolved ⊢
    rw [heffects] at sub
    exact (initiateHandshake_outstanding aead (by exact hrole) _ resolved).mono sub
  · cases hfresh
    cases resolved

/-! ## The timer pass -/

/-- The differences a timer pass takes: of the reading of a peer's last transmission, then, after
its keepalive, of the other two; and of the last statistics. -/
structure PassExact (S : Sodium) (w : World) (now : UInt64) (env : Nat → Tick) : Prop where
  keepalive : ∀ (i : Nat) (ps : PeerSession), w.daemon.peers[i]? = some ps →
    ps.lastTxActivityMs ≤ now
  timeout : ∀ (i : Nat) (ps : PeerSession), w.daemon.peers[i]? = some ps →
    (ps.keepalive S i now (env i).keepaliveSent).1.lastRxActivityMs ≤ now
  rotation : ∀ (i : Nat) (ps : PeerSession), w.daemon.peers[i]? = some ps →
    (ps.keepalive S i now (env i).keepaliveSent).1.lastHandshakeCompletedMs ≤ now
  stats : w.daemon.lastStatsMs ≤ now

/-- What a timer pass at `now` leaves of a peer. -/
structure PassLeaves (S : Sodium) (log : List Effect) (now : UInt64) (ps : PeerSession) : Prop where
  punctual : ps.Punctual now
  keepalive : ps.session.state = .established → ps.addrResolved = true →
    now - ps.lastTxActivityMs < keepaliveIntervalMs
  timeout : ps.config.role = .initiator → now - ps.lastRxActivityMs < sessionTimeoutMs
  outstanding : ps.config.role = .initiator → ps.addrResolved = true →
    ps.session.state = .handshakePending → InitOutstanding S log ps.session

/-- A timer pass subtracts exactly, and leaves every peer on time. -/
def Event.PassPunctual (S : Sodium) (host : Endian) (w : World) : Event → Prop
  | .timer now env => PassExact S w now env ∧
    ∀ (i : Nat) (ps : PeerSession), (w.step S host (.timer now env)).daemon.peers[i]? = some ps →
      PassLeaves S (w.step S host (.timer now env)).log now ps
  | _ => True

theorem World.Punctual.passExact {w : World} (h : w.Punctual) {now : UInt64}
    (later : w.clock ≤ now) (env : Nat → Tick) : PassExact S w now env where
  keepalive i ps get := UInt64.le_trans (h.peers i ps get).tx later
  timeout i ps get := ((h.peers i ps get).restamped later (keepalive_restamped _)).rx
  rotation i ps get := ((h.peers i ps get).restamped later (keepalive_restamped _)).completed
  stats := UInt64.le_trans h.stats later

theorem sub_self_lt {now interval : UInt64} (h : 0 < interval) : now - now < interval := by
  rw [UInt64.sub_self]
  exact h

/-- After the keepalive, whatever became of it, the peer was sent something recently. -/
theorem keepalive_recent (now : UInt64) (sendOk : Bool)
    (established : (ps.keepalive S i now sendOk).1.session.state = .established)
    (resolved : (ps.keepalive S i now sendOk).1.addrResolved = true) :
    now - (ps.keepalive S i now sendOk).1.lastTxActivityMs < keepaliveIntervalMs := by
  have did := keepalive_did (S := S) i now ps sendOk
  rw [did.data.1] at established
  rw [did.kept.addrResolved] at resolved
  unfold PeerSession.keepalive
  split
  · split
    · exact sub_self_lt (by decide)
    · cases sendOk with
      | true => exact sub_self_lt (by decide)
      | false => exact sub_self_lt (by decide)
  · next idle => exact UInt64.not_le.mp fun late => idle ⟨resolved, established, late⟩

theorem forward_lastRx (packet : Bytes) (clock : UInt64) (sendOk : Bool) :
    (ps.forward S i packet clock sendOk).1.lastRxActivityMs = ps.lastRxActivityMs := by
  unfold PeerSession.forward
  split
  · rfl
  · split
    · rfl
    · cases sendOk with
      | true => rfl
      | false => rfl

theorem keepalive_lastRx (now : UInt64) (sendOk : Bool) :
    (ps.keepalive S i now sendOk).1.lastRxActivityMs = ps.lastRxActivityMs := by
  unfold PeerSession.keepalive
  split
  · split
    · rfl
    · cases sendOk with
      | true => rfl
      | false => rfl
  · rfl

/-- An attempt counts as activity, whether or not the endpoint resolves. -/
theorem initiateHandshake_lastRx (now : UInt64) (env : Attempt) :
    (initiateHandshake S now env ps).1.lastRxActivityMs = now := by
  have send : ∀ ps' : PeerSession, (ps'.sendInit S now env).1.lastRxActivityMs = now := by
    intro ps'
    unfold PeerSession.sendInit
    dsimp only
    split <;> rfl
  unfold initiateHandshake
  split
  · exact send ps
  · dsimp only
    split
    · rfl
    · exact send _

theorem reconnect_recent (now : UInt64) (env : Attempt) (role : ps.config.role = .initiator) :
    now - (ps.reconnect S now env).1.lastRxActivityMs < sessionTimeoutMs := by
  unfold PeerSession.reconnect
  split
  · rw [initiateHandshake_lastRx]
    exact sub_self_lt (by decide)
  · next heard =>
    split
    · rw [initiateHandshake_lastRx]
      exact sub_self_lt (by decide)
    · exact UInt64.not_le.mp fun late => heard ⟨role, late⟩

/-- A peer that is established after the timeout and the rotation was left alone by them, unless its
address is not known. -/
theorem reconnect_idle {now : UInt64} {env : Attempt}
    (established : (ps.reconnect S now env).1.session.state = .established)
    (resolved : (ps.reconnect S now env).1.addrResolved = true) :
    (ps.reconnect S now env).1 = ps := by
  have attempted : (initiateHandshake S now env ps).1.session.state = .established →
      (initiateHandshake S now env ps).1.addrResolved ≠ true := by
    intro h
    rw [(initiateHandshake_established h).2.1]
    decide
  unfold PeerSession.reconnect at established resolved ⊢
  split
  · next h =>
    rw [if_pos h] at established resolved
    exact absurd resolved (attempted established)
  · next h =>
    rw [if_neg h] at established resolved
    split
    · next h' =>
      rw [if_pos h'] at established resolved
      exact absurd resolved (attempted established)
    · rfl

theorem tick_recent {now : UInt64} {env : Tick}
    (established : (ps.tick S i now env).1.session.state = .established)
    (resolved : (ps.tick S i now env).1.addrResolved = true) :
    now - (ps.tick S i now env).1.lastTxActivityMs < keepaliveIntervalMs := by
  have same : (ps.tick S i now env).1 = (ps.keepalive S i now env.keepaliveSent).1 :=
    reconnect_idle established resolved
  rw [same] at established resolved ⊢
  exact keepalive_recent now env.keepaliveSent established resolved

theorem tick_heard {now : UInt64} {env : Tick} (role : ps.config.role = .initiator) :
    now - (ps.tick S i now env).1.lastRxActivityMs < sessionTimeoutMs := by
  have did := keepalive_did (S := S) i now ps env.keepaliveSent
  have mid : (ps.keepalive S i now env.keepaliveSent).1.config.role = .initiator := by
    rw [did.kept.config]
    exact role
  exact reconnect_recent now env.toAttempt mid

/-- What a run on time carries. -/
structure World.OnTime (S : Sodium) (cfg : Config) (boots : Nat → Boot) (w : World) : Prop where
  punctual : w.Punctual
  outstanding : w.Outstanding S
  driven : w.daemon.Driven S cfg boots

theorem World.OnTime.step (aead : S.Aead) {host : Endian} {cfg : Config} {boots : Nat → Boot}
    {w : World} {e : Event} (h : w.OnTime S cfg boots) (clocked : e.Clocked w) :
    (w.step S host e).OnTime S cfg boots where
  punctual := h.punctual.step clocked
  outstanding := h.outstanding.step aead h.driven.keyed e
  driven := h.driven.step e

theorem World.OnTime.passPunctual (aead : S.Aead) {host : Endian} {cfg : Config}
    {boots : Nat → Boot} {w : World} {e : Event} (h : w.OnTime S cfg boots)
    (clocked : e.Clocked w) : e.PassPunctual S host w := by
  have after : (w.step S host e).OnTime S cfg boots := h.step aead clocked
  cases e with
  | tun => trivial
  | udp => trivial
  | timer now env =>
    refine ⟨h.punctual.passExact clocked env, fun i ps' get' => ?_⟩
    have get := get'
    rw [World.step, Daemon.step, timer_get, Option.map_eq_some_iff] at get
    obtain ⟨ps, get, rfl⟩ := get
    refine ⟨after.punctual.peers i _ get', tick_recent, fun role => ?_,
      after.outstanding i _ get'⟩
    have ticked : PeerMove S w.daemon i ps (.timer now env) _ _ := .ticked
    rw [ticked.did.config] at role
    exact tick_heard role

/-- **No timer difference wraps, and a timer pass leaves every peer on time.** The premise is that
the readings of the clock, from those before the loop on, do not go back. At every timer pass of
every run from start, each of the four readings subtracted is at most the pass's own. And after it,
of every peer: an established one with a known address was sent something less than the keepalive
interval ago, an initiator was heard or tried less than the timeout ago, and a pending initiator
with a known address has sent an init with the key it holds (`PassLeaves`). -/
theorem timer_pass (aead : S.Aead) {host : Endian} {cfg : Config} {boots : Nat → Boot} {w : World}
    (start : World.start S cfg boots clock = some w) (booted : BootsOrdered boots clock)
    (events : List Event)
    (clocked : Runs.Admitted (World.step S host) (fun w e => e.Clocked w) w events) :
    Runs.Admitted (World.step S host) (fun w e => e.PassPunctual S host w) w events := by
  have onTime : w.OnTime S cfg boots :=
    ⟨World.start_punctual start booted, World.start_outstanding aead start,
      World.start_driven start⟩
  exact Runs.Admitted.of_invariant (fun _ _ h clocked => h.step aead clocked)
    (fun _ _ h clocked => h.passPunctual aead clocked) onTime clocked

/-- The run of `rotationEvents`, and then silence until the timeout: the pass at 29000 finds the
peer established, sends a keepalive, and tries again. -/
theorem timer_pass_rotationEvents :
    (rotationEvents.foldl (World.step reference .little) rotationWorld).daemon.peers.map
      (fun ps => (ps.session.state, ps.lastTxActivityMs)) = [(.established, 10000)] ∧
    Runs.Admitted (World.step reference .little) (fun w e => e.PassPunctual reference .little w)
      rotationWorld (rotationEvents ++ [.timer 29000 fun _ => sampleTick]) :=
  have start : World.start reference rotationConfig rotationBoots 0 = some rotationWorld := by
    decide +kernel
  have booted : BootsOrdered rotationBoots 0 := fun _ => ⟨UInt64.le_refl _, UInt64.le_refl _⟩
  ⟨by decide +kernel, timer_pass reference_aead start booted _ (by decide +kernel)⟩

/-! ## The timeout -/

/-- The datagram accepted from peer `i` at this reading held a packet that `tun_write` did not
take. -/
def Unwritten (log : List Effect) (i : Nat) (datagram : Bytes) (heard : UInt64) : Prop :=
  ∃ packet, [.accepted i datagram heard, .wrote packet false] <:+: log

/-- What is accepted from the peer is accepted at this reading, and counts as activity unless
`tun_write` fails. -/
def HeardNow (i : Nat) (clock : UInt64) (ps' : PeerSession) (effects : List Effect) : Prop :=
  ∀ (datagram : Bytes) (heard : UInt64), .accepted i datagram heard ∈ effects →
    heard = clock ∧ (ps'.lastRxActivityMs = clock ∨ Unwritten effects i datagram heard)

theorem HeardNow.quiet (none : ∀ j datagram heard, .accepted j datagram heard ∉ effects) :
    HeardNow i clock ps' effects :=
  fun datagram heard h => absurd h (none i datagram heard)

theorem receiveResponse_heardNow (datagram : Bytes) :
    HeardNow i clock (ps.receiveResponse S i datagram clock).1
      (ps.receiveResponse S i datagram clock).2 := by
  unfold PeerSession.receiveResponse
  split
  · exact .quiet fun _ _ _ => List.not_mem_nil
  · intro bytes heard h
    rcases List.mem_cons.mp h with h | h
    · cases h
      exact ⟨rfl, .inl rfl⟩
    · cases List.mem_singleton.mp h

theorem receiveData_heardNow (datagram : Bytes) (tunOk : Bool) :
    HeardNow i clock (ps.receiveData S i datagram clock tunOk).1
      (ps.receiveData S i datagram clock tunOk).2 := by
  unfold PeerSession.receiveData
  dsimp only
  split
  · exact .quiet fun _ _ _ => List.not_mem_nil
  · intro bytes heard h
    cases List.mem_singleton.mp h
    exact ⟨rfl, .inl rfl⟩
  · next packet _ _ =>
    intro bytes heard h
    have accepted : bytes = datagram ∧ heard = clock := by
      cases tunOk <;>
      · rcases List.mem_cons.mp h with h | h
        · cases h
          exact ⟨rfl, rfl⟩
        · cases List.mem_singleton.mp h
    obtain ⟨rfl, rfl⟩ := accepted
    cases tunOk with
    | true => exact ⟨rfl, .inl rfl⟩
    | false => exact ⟨rfl, .inr ⟨packet, List.infix_rfl⟩⟩

theorem receive_heardNow (role : ps.config.role = .initiator) (datagram : Bytes) (kp : KeyPair)
    (sendOk tunOk : Bool) :
    HeardNow i clock (ps.receive S i datagram clock kp sendOk tunOk).1
      (ps.receive S i datagram clock kp sendOk tunOk).2 := by
  unfold PeerSession.receive
  dsimp only
  split
  · next responder =>
    rw [role] at responder
    cases responder.2
  · split
    · exact receiveResponse_heardNow datagram
    · split
      · exact receiveData_heardNow datagram tunOk
      · exact .quiet fun _ _ _ => List.not_mem_nil

theorem PeerMove.heardNow {e : Event} (move : PeerMove S d i ps e ps' effects)
    (role : ps.config.role = .initiator) : HeardNow i e.clock ps' effects := by
  cases move with
  | untouched => exact .quiet fun _ _ _ => List.not_mem_nil
  | @forwarded packet now sendOk =>
    exact .quiet (forward_did i now ps (packet.take maxPacketSize) sendOk).unaccepted
  | received => exact receive_heardNow role _ _ _ _
  | refused responder => rw [role] at responder; cases responder
  | matched _ _ responder => rw [role] at responder; cases responder
  | @ticked now env =>
    refine .quiet fun j datagram heard hx => ?_
    rcases List.mem_append.mp hx with hx | hx
    · exact (keepalive_did i now ps (env i).keepaliveSent).unaccepted j datagram heard hx
    · exact (reconnect_did now _ (env i).toAttempt).unaccepted j datagram heard hx

/-- What was accepted from an initiator's peer was accepted by the time of its last activity, unless
`tun_write` failed. -/
def World.Heard (w : World) : Prop :=
  ∀ (i : Nat) (ps : PeerSession), w.daemon.peers[i]? = some ps → ps.config.role = .initiator →
    ∀ (datagram : Bytes) (heard : UInt64), .accepted i datagram heard ∈ w.log →
      heard ≤ ps.lastRxActivityMs ∨ Unwritten w.log i datagram heard

theorem Unwritten.mono {log log' : List Effect} {datagram : Bytes} {heard : UInt64}
    (h : Unwritten log i datagram heard) (within : log <:+: log') :
    Unwritten log' i datagram heard := by
  obtain ⟨packet, hpacket⟩ := h
  exact ⟨packet, hpacket.trans within⟩

theorem World.Heard.step {host : Endian} {w : World} {e : Event} (h : w.Heard)
    (punctual : w.Punctual) (clocked : e.Clocked w) : (w.step S host e).Heard := by
  intro i ps' get' role datagram heard accepted
  obtain ⟨ps, effects, get, part, move⟩ := Daemon.move_from host e get'
  rw [move.did.config] at role
  rcases List.mem_append.mp accepted with old | new
  · rcases h i ps get role datagram heard old with before | unwritten
    · refine .inl (UInt64.le_trans before ?_)
      rcases move.restamped.rx with same | now
      · rw [same]
        exact UInt64.le_refl _
      · rw [now]
        exact UInt64.le_trans (punctual.peers i ps get).rx clocked
    · exact .inr (unwritten.mono (List.prefix_append _ _).isInfix)
  · obtain ⟨rfl, now | unwritten⟩ := move.heardNow role datagram heard (part.whole _ new rfl)
    · rw [now]
      exact .inl (UInt64.le_refl _)
    · exact .inr (unwritten.mono (part.within.trans (List.suffix_append _ _).isInfix))

theorem World.start_heard {cfg : Config} {boots : Nat → Boot} {w : World}
    (start : World.start S cfg boots clock = some w) : w.Heard := by
  intro i ps _ _ datagram heard accepted
  obtain ⟨_, _, _, h⟩ := World.start_log start accepted
  cases h

/-- A timer pass declares the peer dead. -/
def PeerSession.TimesOut (S : Sodium) (i : Nat) (now : UInt64) (env : Tick) (ps : PeerSession) :
    Prop :=
  (ps.keepalive S i now env.keepaliveSent).1.config.role = .initiator ∧
    now - (ps.keepalive S i now env.keepaliveSent).1.lastRxActivityMs ≥ sessionTimeoutMs

instance (i : Nat) (now : UInt64) (env : Tick) (ps : PeerSession) :
    Decidable (ps.TimesOut S i now env) :=
  inferInstanceAs (Decidable (_ ∧ _))

/-- Nothing was accepted from the peer for the length of the timeout. -/
def Silent (log : List Effect) (i : Nat) (now : UInt64) : Prop :=
  ∀ (datagram : Bytes) (heard : UInt64), .accepted i datagram heard ∈ log →
    heard.toNat + sessionTimeoutMs.toNat ≤ now.toNat

/-- No packet accepted from the peer in that time was lost at the TUN device. -/
def NoneLost (log : List Effect) (i : Nat) (now : UInt64) : Prop :=
  ∀ (datagram : Bytes) (heard : UInt64), Unwritten log i datagram heard →
    heard.toNat + sessionTimeoutMs.toNat ≤ now.toNat

/-- A peer that a timer pass declares dead was silent, exactly if no packet of it was lost. -/
def Event.DeadIffSilent (S : Sodium) (w : World) : Event → Prop
  | .timer now env => ∀ (i : Nat) (ps : PeerSession), w.daemon.peers[i]? = some ps →
      ps.TimesOut S i now (env i) → (Silent w.log i now ↔ NoneLost w.log i now)
  | _ => True

theorem World.Heard.deadIffSilent {w : World} {e : Event} (h : w.Heard) (punctual : w.Punctual)
    (clocked : e.Clocked w) : e.DeadIffSilent S w := by
  cases e with
  | tun => trivial
  | udp => trivial
  | timer now env =>
    intro i ps get timesOut
    obtain ⟨role, late⟩ := timesOut
    have did := keepalive_did (S := S) i now ps (env i).keepaliveSent
    rw [did.kept.config] at role
    rw [keepalive_lastRx] at late
    have past : ps.lastRxActivityMs ≤ now := UInt64.le_trans (punctual.peers i ps get).rx clocked
    have exact_ := UInt64.toNat_sub_of_le now ps.lastRxActivityMs past
    have late' := UInt64.le_iff_toNat_le.mp late
    constructor
    · intro silent datagram heard unwritten
      obtain ⟨packet, within⟩ := unwritten
      exact silent datagram heard (within.subset List.mem_cons_self)
    · intro noneLost datagram heard accepted
      rcases h i ps get role datagram heard accepted with before | unwritten
      · have before' := UInt64.le_iff_toNat_le.mp before
        have past' := UInt64.le_iff_toNat_le.mp past
        omega
      · exact noneLost datagram heard unwritten

/-- **A peer is declared dead after silence, exactly where `tun_write` took its packets.** With
readings of the clock that do not go back, and for every initiator that any timer pass of any run
from start finds timed out: nothing was accepted from its peer in the length of the timeout before
the pass, if and only if no packet accepted in that time was refused by `tun_write`. -/
theorem timeout_after_silence {host : Endian} {cfg : Config} {boots : Nat → Boot} {w : World}
    (start : World.start S cfg boots clock = some w) (booted : BootsOrdered boots clock)
    (events : List Event)
    (clocked : Runs.Admitted (World.step S host) (fun w e => e.Clocked w) w events) :
    Runs.Admitted (World.step S host) (fun w e => e.DeadIffSilent S w) w events :=
  Runs.Admitted.of_invariant (I := fun w => w.Punctual ∧ w.Heard)
    (fun _ _ h clocked => ⟨h.1.step clocked, h.2.step h.1 clocked⟩)
    (fun _ _ h clocked => h.2.deadIffSilent h.1 clocked)
    ⟨World.start_punctual start booted, World.start_heard start⟩ clocked

/-- The run of `rotationEvents`, and then silence: the pass at 29000 declares the peer dead. -/
theorem timeout_after_silence_rotationEvents :
    (∃ ps ∈ (rotationEvents.foldl (World.step reference .little) rotationWorld).daemon.peers[0]?,
      ps.TimesOut reference 0 29000 sampleTick) ∧
    Runs.Admitted (World.step reference .little) (fun w e => e.DeadIffSilent reference w)
      rotationWorld (rotationEvents ++ [.timer 29000 fun _ => sampleTick]) :=
  have start : World.start reference rotationConfig rotationBoots 0 = some rotationWorld := by
    decide +kernel
  have booted : BootsOrdered rotationBoots 0 := fun _ => ⟨UInt64.le_refl _, UInt64.le_refl _⟩
  ⟨by decide +kernel, timeout_after_silence start booted _ (by decide +kernel)⟩

/-- The first data packet of the peer that answered with the pair of 5. -/
def responderData (plaintext : Bytes) : Bytes :=
  let keys := cryptoDeriveSessionKeys reference .responder (referencePair 5).pk
    (referencePair 5).sk (referencePair 20).pk
  sessionMsgData :: (keys.bind fun k => cryptoSeal reference k.tx 0 plaintext 2048).getD []

/-- The run of `rotationEvents`, and then a packet that `tun_write` does not take. -/
def lostEvents : List Event :=
  rotationEvents ++ [.udp (responderData [1, 2, 3]) (sampleSource 9) 15000
    (fun _ => referencePair 30) true false]

/-- **A live peer is declared dead.** The packet of 15000 is authentic and fresh, and the timer pass
10 ms later starts over because it heard nothing since 10. -/
theorem live_peer_timed_out :
    World.start reference rotationConfig rotationBoots 0 = some rotationWorld ∧
    Runs.Admitted (World.step reference .little) (fun w e => e.Clocked w) rotationWorld
      (lostEvents ++ [.timer 15010 fun _ => sampleTick]) ∧
    (∃ ps ∈ (lostEvents.foldl (World.step reference .little) rotationWorld).daemon.peers[0]?,
      ps.session.state = .established ∧ ps.TimesOut reference 0 15010 sampleTick ∧
      (ps.tick reference 0 15010 sampleTick).1.session.state = .handshakePending) ∧
    .accepted 0 (responderData [1, 2, 3]) 15000 ∈
      (lostEvents.foldl (World.step reference .little) rotationWorld).log ∧
    ¬ Silent (lostEvents.foldl (World.step reference .little) rotationWorld).log 0 15010 := by
  have accepted : .accepted 0 (responderData [1, 2, 3]) 15000 ∈
      (lostEvents.foldl (World.step reference .little) rotationWorld).log := by
    decide +kernel
  refine ⟨by decide +kernel, by decide +kernel, by decide +kernel, accepted, fun silent => ?_⟩
  exact absurd (silent _ _ accepted) (by decide)

end EdgarVPN
