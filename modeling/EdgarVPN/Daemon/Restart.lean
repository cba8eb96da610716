import EdgarVPN.Daemon.Pacing
import EdgarVPN.Relationship.Counters

/-!
# A restarted initiator is fresher

The handshake counter of an initiator starts at a second of the wall clock and moves by one with
each init, so that, as `session.c` has it, a restarted process is ahead of everything the old one
sent. What makes it so is the spacing of the attempts: with the two clocks in step, the old process
has lived 15 seconds for every init after its first.

A `Life` is one process, from `main` to its end, with the instants at which it read the clocks. The
inits it built for a peer are read off what it handed to `udp_send` (`Life.builds`).

**What is proved.** `restarted_fresher`: along any number of restarts, each at a later second than
the one before, every init an earlier life built for a peer carries a counter below the second the
last life starts from; and a responder that accepted nothing but such inits, whatever else happened
to it, accepts the first init of the last life.
-/

set_option autoImplicit false

namespace EdgarVPN

variable {S : Sodium} {host : Endian} {d : Daemon} {w : World} {i : Nat} {ps ps' : PeerSession}
  {effects : List Effect}

/-! ## The inits built for a peer -/

/-- The inits among what was sent. -/
def initsSent (effects : List Effect) : List Bytes :=
  effects.filterMap fun
    | .sent message _ _ =>
      if message.head? = some sessionMsgHandshakeInit then some message else none
    | _ => none

/-- The counter an init carries. -/
def initCounter (init : Bytes) : UInt64 := readCounter init.tail

/-- The inits an event builds for peer `i`. Only `initiate_handshake` builds any, and in the loop
only the timer pass calls it. -/
def Event.builds (S : Sodium) (d : Daemon) (i : Nat) : Event → List Bytes
  | .timer now env =>
    match d.peers[i]? with
    | none => []
    | some ps => initsSent (ps.tick S i now (env i)).2
  | _ => []

/-- The inits a run of the loop builds for peer `i`. -/
def World.builds (S : Sodium) (host : Endian) (i : Nat) : World → List Event → List Bytes
  | _, [] => []
  | w, e :: events => e.builds S w.daemon i ++ World.builds S host i (w.step S host e) events

/-- No init, and the counter stays; or one init with this pair, and the counter moves. -/
inductive Built (S : Sodium) (kp : KeyPair) (s s' : Session) : List Bytes → Prop
  | none (counter : s'.handshakeCounter = s.handshakeCounter) : Built S kp s s' []
  | init {packet : Bytes} (counter : s'.handshakeCounter = s.handshakeCounter + 1)
      (sealed : cryptoSeal S s.staticKeys.tx s.handshakeCounter kp.pk.bytes (sealedBufSize - 1) =
        some packet) :
      Built S kp s s' [sessionMsgHandshakeInit :: packet]

theorem initsSent_append (effects effects' : List Effect) :
    initsSent (effects ++ effects') = initsSent effects ++ initsSent effects' :=
  List.filterMap_append

theorem sendInit_built (ps : PeerSession) (now : UInt64) (env : Attempt) :
    Built S env.kp ps.session (ps.sendInit S now env).1.session
      (initsSent (ps.sendInit S now env).2) := by
  have outcome := sessionBuildInit_outcome (S := S) (sessionStartHandshake env.kp ps.session)
    sealedBufSize
  unfold PeerSession.sendInit
  dsimp only
  generalize sessionBuildInit S (sessionStartHandshake env.kp ps.session) sealedBufSize = result
    at outcome
  cases outcome with
  | refused => exact .none rfl
  | built _ _ sealed => exact .init rfl sealed

theorem initiateHandshake_built (ps : PeerSession) (now : UInt64) (env : Attempt) :
    Built S env.kp ps.session (initiateHandshake S now env ps).1.session
      (initsSent (initiateHandshake S now env ps).2) := by
  unfold initiateHandshake
  split
  · exact sendInit_built ps now env
  · dsimp only
    split
    · exact .none rfl
    · next ip _ =>
      exact sendInit_built { ps with
        lastRxActivityMs := now, addr := ⟨ip, ps.config.port⟩, addrResolved := true } now env

theorem reconnect_built (ps : PeerSession) (now : UInt64) (env : Attempt) :
    Built S env.kp ps.session (ps.reconnect S now env).1.session
      (initsSent (ps.reconnect S now env).2) := by
  unfold PeerSession.reconnect
  split
  · exact initiateHandshake_built ps now env
  · split
    · exact initiateHandshake_built ps now env
    · exact .none rfl

theorem SealDid.noInits (did : SealDid S i ps ps' effects) : initsSent effects = [] := by
  cases did with
  | idle => rfl
  | unreturned => rfl
  | @sealed plaintext message ok _ _ session =>
    have outcome := sessionSealData_outcome (S := S) ps.session plaintext sealedBufSize
    generalize ps'.session = s' at session
    rw [session] at outcome
    cases outcome with
    | sealed => rfl

/-- A peer's part of a timer pass builds one init at most. -/
theorem tick_built (now : UInt64) (env : Tick) :
    Built S env.kp ps.session (ps.tick S i now env).1.session
      (initsSent (ps.tick S i now env).2) := by
  have did := keepalive_did (S := S) i now ps env.keepaliveSent
  have built := reconnect_built (S := S) (ps.keepalive S i now env.keepaliveSent).1 now
    env.toAttempt
  obtain ⟨txCounter, hsession⟩ := did.session
  change Built S env.kp ps.session
    ((ps.keepalive S i now env.keepaliveSent).1.reconnect S now env.toAttempt).1.session
    (initsSent ((ps.keepalive S i now env.keepaliveSent).2 ++
      ((ps.keepalive S i now env.keepaliveSent).1.reconnect S now env.toAttempt).2))
  rw [initsSent_append, did.noInits, List.nil_append]
  generalize initsSent _ = inits at built ⊢
  rw [hsession] at built
  cases built with
  | none counter => exact .none counter
  | init counter sealed => exact .init counter sealed

/-- The other events leave an initiator's counter alone. -/
theorem PeerMove.counter {e : Event} (move : PeerMove S d i ps e ps' effects)
    (role : ps.config.role = .initiator) (notTimer : ∀ now env, e ≠ .timer now env) :
    ps'.session.handshakeCounter = ps.session.handshakeCounter := by
  cases move with
  | untouched => rfl
  | @forwarded packet clock sendOk =>
    obtain ⟨_, hsession⟩ := (forward_did (S := S) i clock ps (packet.take maxPacketSize)
      sendOk).session
    rw [hsession]
  | @received datagram source clock kps sendOk tunOk =>
    have did := receive_did (S := S) i clock ps (datagram.take sealedBufSize) (kps i) sendOk tunOk
    generalize (ps.receive S i (datagram.take sealedBufSize) clock (kps i) sendOk tunOk).1 = ps'
      at did ⊢
    generalize (ps.receive S i (datagram.take sealedBufSize) clock (kps i) sendOk tunOk).2 = effects
      at did
    cases did with
    | idle _ session => rw [session]
    | initRefused _ responder => rw [role] at responder; cases responder
    | initAccepted _ _ _ responder => rw [role] at responder; cases responder
    | responseAccepted _ _ _ _ session =>
      obtain ⟨_, _, _, hs⟩ := sessionHandleResponse_eq_true session
      rw [hs]
      rfl
    | opened _ session =>
      obtain ⟨_, hs⟩ := openData_frame (S := S) (datagram.take sealedBufSize)
        (List.replicate maxPacketSize 0) ps.session
      rw [← session, hs]
      rfl
  | refused responder => rw [role] at responder; cases responder
  | matched _ _ responder => rw [role] at responder; cases responder
  | ticked => exact absurd rfl (notTimer _ _)

/-- **An event builds one init at most for a peer**, with the next counter. -/
theorem Daemon.step_built (host : Endian) (e : Event) (get : d.peers[i]? = some ps)
    (role : ps.config.role = .initiator) :
    ∃ ps' kp, (d.step S host e).1.peers[i]? = some ps' ∧ ps'.config = ps.config ∧
      ps'.session.staticKeys = ps.session.staticKeys ∧
      (∀ now env, e = .timer now env → kp = (env i).kp) ∧
      Built S kp ps.session ps'.session (e.builds S d i) := by
  obtain ⟨ps', effects, get', _, move⟩ := Daemon.step_move (S := S) host e get
  obtain ⟨calls, hcalls⟩ := move.did.calls
  have static : ps'.session.staticKeys = ps.session.staticKeys := by
    rw [hcalls]
    exact (sessionCalls_frame ps.session calls).2
  cases e with
  | tun packet clock sendOk =>
    exact ⟨ps', ps.session.ephemeral, get', move.did.config, static, nofun,
      .none (move.counter role nofun)⟩
  | udp datagram source clock kps sendOk tunOk =>
    exact ⟨ps', ps.session.ephemeral, get', move.did.config, static, nofun,
      .none (move.counter role nofun)⟩
  | timer now env =>
    have ticked : ps' = (ps.tick S i now (env i)).1 := by
      rw [Daemon.step, timer_get, get] at get'
      exact (Option.some.inj get').symm
    refine ⟨ps', (env i).kp, get', move.did.config, static, ?_, ?_⟩
    · intro now' env' h
      cases h
      rfl
    · rw [ticked]
      simp only [Event.builds, get]
      exact tick_built now (env i)

/-! ## How far the counter gets -/

/-- The counter of an init that was built. -/
theorem Built.counter {kp : KeyPair} {s s' : Session} {inits : List Bytes} {init : Bytes}
    (built : Built S kp s s' inits) (h : init ∈ inits) : initCounter init = s.handshakeCounter := by
  cases built with
  | none => cases h
  | init _ sealed =>
    cases List.mem_singleton.mp h
    obtain ⟨_, _, hpacket, _⟩ := cryptoSeal_eq_some sealed
    rw [initCounter, List.tail_cons, hpacket, readCounter_writeCounter]

theorem keepalive_due (now : UInt64) (sendOk : Bool)
    (due : (ps.keepalive S i now sendOk).1.Due now) : ps.Due now := by
  have did := keepalive_did (S := S) i now ps sendOk
  unfold PeerSession.Due at due ⊢
  rw [keepalive_lastRx, did.data.1, did.kept.completed] at due
  exact due

/-- An init is built only when an attempt is due. -/
theorem tick_due {now : UInt64} {env : Tick} {init : Bytes}
    (h : init ∈ initsSent (ps.tick S i now env).2) : ps.Due now := by
  have did := keepalive_did (S := S) i now ps env.keepaliveSent
  change init ∈ initsSent ((ps.keepalive S i now env.keepaliveSent).2 ++
    ((ps.keepalive S i now env.keepaliveSent).1.reconnect S now env.toAttempt).2) at h
  rw [initsSent_append, did.noInits, List.nil_append] at h
  apply keepalive_due (S := S) (i := i) now env.keepaliveSent
  unfold PeerSession.reconnect at h
  split at h
  · next late => exact .inl late.2
  · split at h
    · next old => exact .inr old.2
    · cases h

/-- `monotonic_ms` at an instant, where the clock started at `booted`. Instants are nanoseconds. -/
def monotonicMs (booted instant : Nat) : Nat := (instant - booted) / 10 ^ 6

/-- `time` at an instant. -/
def wallSecond (instant : Nat) : Nat := instant / 10 ^ 9

/-- The events come at instants that do not go back, up to `ended`, and read the clock there. -/
def InStep (booted : Nat) : Nat → List (Nat × Event) → Nat → Prop
  | now, [], ended => now ≤ ended
  | now, (instant, e) :: events, ended =>
    now ≤ instant ∧ e.clock.toNat = monotonicMs booted instant ∧
      InStep booted instant events ended

instance InStep.decidable (booted ended : Nat) :
    ∀ (now : Nat) (events : List (Nat × Event)), Decidable (InStep booted now events ended)
  | now, [] => inferInstanceAs (Decidable (now ≤ ended))
  | _, (instant, _) :: events =>
    haveI := InStep.decidable booted ended instant events
    inferInstanceAs (Decidable (_ ∧ _ ∧ _))

theorem InStep.le {booted ended : Nat} :
    ∀ {events : List (Nat × Event)} {now : Nat}, InStep booted now events ended → now ≤ ended
  | [], _, h => h
  | _ :: _, _, h => Nat.le_trans h.1 (InStep.le h.2.2)

/-- **Every init of a run is 15 seconds of it old**, for each it comes after the first. -/
theorem builds_spaced {base : Nat} {seed : UInt64} {booted ended : Nat}
    {events : List (Nat × Event)} :
    ∀ {w : World} {ps : PeerSession} {now : Nat}, w.daemon.peers[i]? = some ps →
      ps.config.role = .initiator → ps.PacedFrom base seed w.clock →
      w.clock.toNat = monotonicMs booted now → InStep booted now events ended →
      ∀ init ∈ w.builds S host i (events.map Prod.snd),
        sessionTimeoutMs.toNat * (initCounter init).toNat + base ≤
          sessionTimeoutMs.toNat * seed.toNat + monotonicMs booted ended := by
  induction events with
  | nil => exact fun _ _ _ _ _ _ h => nomatch h
  | cons timed events ih =>
    obtain ⟨instant, e⟩ := timed
    intro w ps now get role paced hclock inStep init hinit
    obtain ⟨hnow, hreading, rest⟩ := inStep
    have clocked : e.Clocked w := by
      apply UInt64.le_iff_toNat_le.mpr
      rw [hclock, hreading]
      exact Nat.div_le_div_right (Nat.sub_le_sub_right hnow booted)
    obtain ⟨ps', effects, get', _, move⟩ := Daemon.step_move (S := S) host e get
    rcases List.mem_append.mp hinit with here | later
    · obtain ⟨_, _, _, _, _, _, built⟩ := Daemon.step_built (S := S) host e get role
      rw [built.counter here]
      have due : ps.Due e.clock := by
        cases e with
        | tun => cases here
        | udp => cases here
        | timer now env =>
          simp only [Event.builds, get] at here
          exact tick_due here
      have bound := paced.due clocked due
      rw [hreading] at bound
      have : monotonicMs booted instant ≤ monotonicMs booted ended :=
        Nat.div_le_div_right (Nat.sub_le_sub_right rest.le booted)
      omega
    · exact ih get' (move.did.config ▸ role) (move.paced role paced clocked) hreading rest init
        later

/-! ## Lives -/

/-- One process of a node, from `main` to its end, and the instants at which it reads the clocks:
for each peer when `session_init` reads `time` and when the first attempt is made, then when the
loop begins, and each event of the loop. The monotonic clock started at `booted`. -/
structure Life where
  booted : Nat
  seeded : Nat → Nat
  attempted : Nat → Nat
  began : Nat
  ended : Nat
  boots : Nat → Boot
  clock : UInt64
  events : List (Nat × Event)

/-- The wall clock and the monotonic clock advance together: what is read is what they show. -/
structure Life.Steady (i : Nat) (l : Life) : Prop where
  order : l.booted ≤ l.seeded i ∧ l.seeded i ≤ l.attempted i ∧ l.attempted i ≤ l.began
  time : (l.boots i).time.toNat = wallSecond (l.seeded i)
  attempt : (l.boots i).attemptClock.toNat = monotonicMs l.booted (l.attempted i)
  clock : l.clock.toNat = monotonicMs l.booted l.began
  events : InStep l.booted l.began l.events l.ended

/-- The inits a life builds for peer `i`: the one of the start, and those of the loop. -/
def Life.builds (S : Sodium) (host : Endian) (cfg : Config) (i : Nat) (l : Life) : List Bytes :=
  match cfg.peers[i]? with
  | none => []
  | some config =>
    match startPeer S cfg.privateKey config (l.boots i) with
    | none => []
    | some (_, effects) =>
      initsSent effects ++
        match World.start S cfg l.boots l.clock with
        | none => []
        | some w => w.builds S host i (l.events.map Prod.snd)

/-- The process ended, and was started again at a later second. -/
structure Life.RestartedBy (i : Nat) (l l' : Life) : Prop where
  after : l.ended ≤ l'.seeded i
  later : (l.boots i).time < (l'.boots i).time

variable {cfg : Config} {config : ConfigPeer} {l l' last : Life}

/-- Where the inits of a life come from. -/
theorem Life.builds_eq (host : Endian) (peer : cfg.peers[i]? = some config) :
    l.builds S host cfg i = [] ∨
      ∃ ps effects, startPeer S cfg.privateKey config (l.boots i) = some (ps, effects) ∧
        (l.builds S host cfg i = initsSent effects ∨
          ∃ w, World.start S cfg l.boots l.clock = some w ∧ w.daemon.peers[i]? = some ps ∧
            l.builds S host cfg i =
              initsSent effects ++ w.builds S host i (l.events.map Prod.snd)) := by
  simp only [Life.builds, peer]
  split
  · exact .inl rfl
  · next ps effects hstart =>
    refine .inr ⟨ps, effects, hstart, ?_⟩
    split
    · exact .inl (List.append_nil _)
    · next w start =>
      refine .inr ⟨w, start, ?_, rfl⟩
      have hlt : i < w.daemon.peers.length := by
        rw [World.start_length start]
        exact (List.getElem?_eq_some_iff.mp peer).1
      have get := List.getElem?_eq_getElem hlt
      obtain ⟨config', effects', hconfig, _, hstart'⟩ := World.start_get start get
      cases peer.symm.trans hconfig
      cases hstart.symm.trans hstart'
      exact get

/-- The first attempt builds one init at most, with the second the session started from. -/
theorem startPeer_built {privateKey : SecretKey} {boot : Boot}
    (start : startPeer S privateKey config boot = some (ps, effects)) :
    ∃ session, sessionInit S config.role (cryptoDerivePublicKey S privateKey) privateKey
        config.publicKey boot.time boot.initialPair = some session ∧
      Built S boot.kp session ps.session (initsSent effects) := by
  obtain ⟨session, hinit, ⟨_, hattempt⟩ | ⟨_, hfresh⟩⟩ := startPeer_eq start
  · have built := initiateHandshake_built (S := S)
      (PeerSession.fresh config session boot.clock) boot.attemptClock boot.toAttempt
    rw [← hattempt] at built
    exact ⟨session, hinit, built⟩
  · cases hfresh
    exact ⟨session, hinit, .none rfl⟩

/-- Every init of a life is 15 seconds of it old, for each it comes after the first. -/
theorem Life.Steady.spaced (steady : l.Steady i) (peer : cfg.peers[i]? = some config)
    (role : config.role = .initiator) {init : Bytes} (h : init ∈ l.builds S host cfg i) :
    sessionTimeoutMs.toNat * (initCounter init).toNat + monotonicMs l.booted (l.attempted i) ≤
      sessionTimeoutMs.toNat * wallSecond (l.seeded i) + monotonicMs l.booted l.ended := by
  have ending : monotonicMs l.booted (l.attempted i) ≤ monotonicMs l.booted l.ended :=
    Nat.div_le_div_right (Nat.sub_le_sub_right
      (Nat.le_trans steady.order.2.2 steady.events.le) l.booted)
  obtain hnone | ⟨ps, effects, hstart, hbuilds⟩ := Life.builds_eq (S := S) host peer
  · rw [hnone] at h
    cases h
  · have first : ∀ init ∈ initsSent effects,
        (initCounter init).toNat = wallSecond (l.seeded i) := by
      intro init hinit
      obtain ⟨session, hsession, built⟩ := startPeer_built hstart
      obtain ⟨_, _, rfl⟩ := sessionInit_eq_some hsession
      rw [built.counter hinit, ← steady.time]
      rfl
    rcases hbuilds with hbuilds | ⟨w, start, get, hbuilds⟩
    · rw [hbuilds] at h
      rw [first init h]
      omega
    · rw [hbuilds] at h
      rcases List.mem_append.mp h with h | h
      · rw [first init h]
        omega
      · have hclock := (World.start_clock start).1
        have began : (l.boots i).attemptClock ≤ w.clock := by
          apply UInt64.le_iff_toNat_le.mpr
          rw [hclock, steady.attempt, steady.clock]
          exact Nat.div_le_div_right (Nat.sub_le_sub_right steady.order.2.2 l.booted)
        have hrole : ps.config.role = .initiator := by
          obtain ⟨ps₀, hconfig, _, _, did⟩ := startPeer_did hstart
          rw [did.config, hconfig]
          exact role
        have bound := builds_spaced get hrole ((startPeer_paced hstart role).wait began)
          (hclock ▸ steady.clock) steady.events init h
        rw [steady.attempt, steady.time] at bound
        exact bound

/-- **What a process built is below the second it is restarted at.** Its inits are a timeout apart,
so it has lived that long for each after the first, and the wall clock has moved on as much. -/
theorem Life.Steady.below (steady : l.Steady i) (steady' : l'.Steady i)
    (restart : l.RestartedBy i l') (peer : cfg.peers[i]? = some config)
    (role : config.role = .initiator) {init : Bytes} (h : init ∈ l.builds S host cfg i) :
    initCounter init < (l'.boots i).time := by
  have spaced := steady.spaced peer role h
  have later := UInt64.lt_iff_toNat_lt.mp restart.later
  have after := restart.after
  have ended := steady.events.le
  obtain ⟨booted, seeded, attempted⟩ := steady.order
  apply UInt64.lt_iff_toNat_lt.mpr
  rw [steady.time, steady'.time] at later
  rw [steady'.time]
  rw [sessionTimeoutMs_toNat] at spaced
  unfold wallSecond monotonicMs at *
  omega

/-- By induction over the restarts: every earlier life stays below the last. -/
theorem restarts_below (host : Endian) {lives : List Life} (peer : cfg.peers[i]? = some config)
    (role : config.role = .initiator) (steady : ∀ l ∈ lives ++ [last], l.Steady i)
    (restarts : (lives ++ [last]).IsChain (Life.RestartedBy i)) :
    ∀ l ∈ lives, (l.boots i).time < (last.boots i).time ∧
      ∀ init ∈ l.builds S host cfg i, initCounter init < (last.boots i).time := by
  induction lives with
  | nil => exact nofun
  | cons first rest ih =>
    have steadyFirst : first.Steady i := steady first List.mem_cons_self
    have steadyRest : ∀ l ∈ rest ++ [last], l.Steady i :=
      fun l hl => steady l (List.mem_cons_of_mem _ hl)
    cases rest with
    | nil =>
      have restart : first.RestartedBy i last := (List.isChain_cons_cons.mp restarts).1
      have steadyLast : last.Steady i := steadyRest last List.mem_cons_self
      intro l hl
      cases List.mem_singleton.mp hl
      exact ⟨restart.later, fun init => steadyFirst.below steadyLast restart peer role⟩
    | cons next rest =>
      obtain ⟨restart, more⟩ := List.isChain_cons_cons.mp restarts
      have steadyNext : next.Steady i := steadyRest next List.mem_cons_self
      have hlast := (ih steadyRest more next List.mem_cons_self).1
      intro l hl
      rcases List.mem_cons.mp hl with rfl | hl
      · refine ⟨UInt64.lt_trans restart.later hlast, fun init hinit => ?_⟩
        exact UInt64.lt_trans (steadyFirst.below steadyNext restart peer role hinit) hlast
      · exact ih steadyRest more l hl

/-! ## The first init -/

/-- The pairs a life draws for peer `i` are ones that key generation can draw. -/
structure Life.Drawn (S : Sodium) (i : Nat) (l : Life) : Prop where
  start : (l.boots i).kp.Matches S
  events : ∀ now env, .timer now env ∈ l.events.map Prod.snd → (env i).kp.Matches S

/-- An init with this counter under this static key, of a pair that can be drawn. -/
def SealedInit (S : Sodium) (key : SessionKey) (counter : UInt64) (init : Bytes) : Prop :=
  ∃ (kp : KeyPair) (packet : Bytes), kp.Matches S ∧ init = sessionMsgHandshakeInit :: packet ∧
    cryptoSeal S key counter kp.pk.bytes (sealedBufSize - 1) = some packet

/-- The first init of a run carries the counter the session had when the run began. -/
theorem builds_head {events : List Event}
    (drawn : ∀ now env, .timer now env ∈ events → (env i).kp.Matches S) :
    ∀ {w : World} {ps : PeerSession}, w.daemon.peers[i]? = some ps →
      ps.config.role = .initiator →
      ∀ init ∈ (w.builds S host i events).head?,
        SealedInit S ps.session.staticKeys.tx ps.session.handshakeCounter init := by
  induction events with
  | nil => exact fun _ _ _ h => nomatch h
  | cons e events ih =>
    intro w ps get role init hinit
    obtain ⟨ps', kp, get', config, static, hkp, built⟩ := Daemon.step_built (S := S) host e get role
    rw [World.builds] at hinit
    generalize hhere : e.builds S w.daemon i = here at built hinit
    cases built with
    | none counter =>
      have later := ih (fun now env h => drawn now env (List.mem_cons_of_mem _ h)) get'
        (config ▸ role) init hinit
      rw [static, counter] at later
      exact later
    | @init packet _ sealed =>
      have timer : ∃ now env, e = .timer now env := by
        cases e with
        | tun => cases hhere
        | udp => cases hhere
        | timer now env => exact ⟨now, env, rfl⟩
      obtain ⟨now, env, rfl⟩ := timer
      have matches_ : kp.Matches S := by
        rw [hkp now env rfl]
        exact drawn now env List.mem_cons_self
      cases hinit
      exact ⟨kp, packet, matches_, rfl, sealed⟩

/-- **The first init of a life carries the second its session started from.** -/
theorem Life.Drawn.first (drawn : l.Drawn S i) (peer : cfg.peers[i]? = some config)
    (role : config.role = .initiator) {keys : SessionKeys}
    (static : cfg.staticKeys S config = some keys) :
    ∀ init ∈ (l.builds S host cfg i).head?, SealedInit S keys.tx (l.boots i).time init := by
  intro init hinit
  obtain hnone | ⟨ps, effects, hstart, hbuilds⟩ := Life.builds_eq (S := S) host peer
  · rw [hnone] at hinit
    cases hinit
  · obtain ⟨session, hsession, built⟩ := startPeer_built hstart
    obtain ⟨staticKeys, hstatic, rfl⟩ := sessionInit_eq_some hsession
    cases static.symm.trans hstatic
    generalize initsSent effects = atStart at built hbuilds
    cases built with
    | none counter =>
      rcases hbuilds with hbuilds | ⟨w, start, get, hbuilds⟩
      · rw [hbuilds] at hinit
        cases hinit
      · rw [hbuilds, List.nil_append] at hinit
        obtain ⟨ps₀, hconfig, _, _, did⟩ := startPeer_did hstart
        have same : ps.config = config := did.config.trans hconfig
        have keyed := (World.start_driven start).keyed i ps get
        have head := builds_head drawn.events get (same ▸ role) init hinit
        have hkeys : ps.session.staticKeys = keys := by
          have hps := keyed.static
          rw [same] at hps
          exact Option.some.inj (hps.symm.trans static)
        rw [hkeys, counter] at head
        exact head
    | @init packet _ sealed =>
      have hhead : (l.builds S host cfg i).head? = some (sessionMsgHandshakeInit :: packet) := by
        rcases hbuilds with hbuilds | ⟨_, _, _, hbuilds⟩
        · rw [hbuilds]
          rfl
        · rw [hbuilds]
          rfl
      rw [hhead] at hinit
      cases hinit
      exact ⟨(l.boots i).kp, packet, drawn.start, rfl, sealed⟩

/-! ## The responder -/

/-- The inits a responder accepts are among these. -/
def Call.AcceptsOnly (S : Sodium) (inits : List Bytes) (s : Session) : Call → Prop
  | .handleInit kp input outLen =>
    (sessionHandleInit S kp s input outLen).2.isSome = true → input ∈ inits
  | _ => True

instance (inits : List Bytes) (s : Session) : ∀ c : Call, Decidable (c.AcceptsOnly S inits s)
  | .handleInit .. => inferInstanceAs (Decidable (_ → _))
  | .startHandshake _ | .buildInit _ | .handleResponse _ | .sealData .. | .openData .. =>
    inferInstanceAs (Decidable True)

/-- A responder that can answer an init with a counter from `below` on. -/
structure Session.Awaits (S : Sodium) (keys : SessionKeys) (below : UInt64) (s : Session) :
    Prop where
  role : s.role = .responder
  static : s.staticKeys = keys.swap
  ready : s.state = .handshakePending → s.ephemeral.Matches S
  seen : s.haveSeenHandshake = true → s.highestHandshakeCounterSeen < below

theorem Session.Awaits.reattempt {s : Session} {keys : SessionKeys} {below : UInt64}
    (h : s.Awaits S keys below) {kp : KeyPair} (drawn : kp.Matches S) :
    (s.reattempt kp).ephemeral.Matches S := by
  cases hstate : s.state with
  | handshakePending =>
    rw [reattempt_pending kp s hstate]
    exact h.ready hstate
  | established =>
    rw [reattempt_established kp s hstate]
    exact drawn

/-- What an accepted init carries is the counter it was accepted with. -/
theorem readInit_counter {s : Session} {input : Bytes} {outLen : Nat} {peer : PublicKey}
    {counter : UInt64} (read : sessionReadInit S s input outLen = some (peer, counter)) :
    initCounter input = counter := by
  obtain ⟨_, _, payload, rfl, hauth, _⟩ := sessionReadInit_eq_some read
  exact authenticates_counter hauth

theorem Session.Awaits.call (aead : S.Aead) {s : Session} {keys : SessionKeys} {below : UInt64}
    {inits : List Bytes} (h : s.Awaits S keys below)
    (old : ∀ init ∈ inits, initCounter init < below) {c : Call} (drawn : c.Drawn S)
    (only : c.AcceptsOnly S inits s) : (sessionCall S s c).Awaits S keys below := by
  have did := responderCall_did aead h.role c
  generalize hs' : sessionCall S s c = s' at did ⊢
  generalize handshakeSeals (sessionActs S s c) = seals at did
  cases did with
  | nothing => exact h
  | started kp => exact ⟨h.role, h.static, fun _ => drawn, h.seen⟩
  | @underived kp =>
    refine ⟨?_, ?_, fun _ => h.reattempt drawn, ?_⟩
    · rw [reattempt_role]
      exact h.role
    · rw [reattempt_staticKeys]
      exact h.static
    · rw [reattempt_haveSeenHandshake, reattempt_highestHandshakeCounterSeen]
      exact h.seen
  | @answered kp input outLen peer counter data packet read derived =>
    have hrole : (s.reattempt kp).role = .responder := (reattempt_role ..).trans h.role
    have accepted : (sessionHandleInit S kp s input outLen).2.isSome = true := by
      obtain ⟨_, _, hanswer⟩ := sessionHandleInit_isSome aead read (hrole ▸ derived)
      rw [hanswer]
      rfl
    refine ⟨hrole, (reattempt_staticKeys ..).trans h.static, nofun, fun _ => ?_⟩
    have below := old input (only accepted)
    rw [readInit_counter read] at below
    exact below
  | data established =>
    exact ⟨h.role, h.static, fun pending => (nomatch established.symm.trans pending), h.seen⟩

/-- A responder accepts an init with a counter it awaits. -/
theorem Session.Awaits.accepts (aead : S.Aead) (kx : S.Kx) {s : Session} {keys : SessionKeys}
    {counter : UInt64} (h : s.Awaits S keys counter) {init : Bytes}
    (sealed : SealedInit S keys.tx counter init) {kp : KeyPair} (drawn : kp.Matches S)
    {outLen : Nat} (room : sessionHandshakeMsgLen ≤ outLen) :
    ∃ s' response, sessionHandleInit S kp s init outLen = (s', some response) := by
  obtain ⟨kpI, packet, drawnI, rfl, hseal⟩ := sealed
  have hkey : s.staticKeys.rx = keys.tx := by
    rw [h.static, SessionKeys.swap_rx]
  have hread := sessionReadInit_sealed aead h.role (hkey ▸ hseal) room h.seen
  obtain ⟨data, _, hderive⟩ := cryptoDeriveSessionKeys_agree kx drawnI (h.reattempt drawn)
  rw [← (reattempt_role kp s).trans h.role] at hderive
  obtain ⟨packet', _, hanswer⟩ := sessionHandleInit_isSome aead hread hderive
  exact ⟨_, _, hanswer⟩

/-- **A restarted initiator is always fresher.** Take any number of lives of an initiator, each
started at a later second than the one before it and after its end. What an earlier life built for
the peer carries a counter below the second that the last one starts from. And a responder that runs
through all of it, on any calls with pairs that can be drawn, accepts the first init of the last
life, if the inits it has accepted are among those of the earlier ones. The premise on each life is
that its two clocks advance together (`Life.Steady`). -/
theorem restarted_fresher (aead : S.Aead) (kx : S.Kx) (host : Endian) {lives : List Life}
    (peer : cfg.peers[i]? = some config) (role : config.role = .initiator)
    (steady : ∀ l ∈ lives ++ [last], l.Steady i)
    (restarts : (lives ++ [last]).IsChain (Life.RestartedBy i)) :
    (∀ l ∈ lives, ∀ init ∈ l.builds S host cfg i, initCounter init < (last.boots i).time) ∧
    ∀ (responder kp₀ : KeyPair) (time : UInt64) (s₀ : Session) (calls : List Call),
      last.Drawn S i → responder.Matches S → kp₀.Matches S → config.publicKey = responder.pk →
      sessionInit S .responder responder.pk responder.sk (cryptoDerivePublicKey S cfg.privateKey)
        time kp₀ = some s₀ →
      Runs.Admitted (sessionCall S) (fun s c => c.Drawn S ∧
        c.AcceptsOnly S (lives.flatMap (Life.builds S host cfg i)) s) s₀ calls →
      ∀ init ∈ (last.builds S host cfg i).head?, ∀ (kp : KeyPair) (outLen : Nat),
        kp.Matches S → sessionHandshakeMsgLen ≤ outLen →
        ∃ s' response, sessionHandleInit S kp (calls.foldl (sessionCall S) s₀) init outLen =
          (s', some response) := by
  have below := restarts_below (S := S) host peer role steady restarts
  refine ⟨fun l hl => (below l hl).2, ?_⟩
  intro responder kp₀ time s₀ calls drawn hresponder hkp₀ hpk hinit admitted init hhead kp outLen
    hkp room
  have own : KeyPair.Matches S ⟨cryptoDerivePublicKey S cfg.privateKey, cfg.privateKey⟩ := rfl
  obtain ⟨keys, hi, hr⟩ := cryptoDeriveSessionKeys_agree kx own hresponder
  have static : cfg.staticKeys S config = some keys := by
    rw [Config.staticKeys, role, hpk]
    exact hi
  have start : s₀.Awaits S keys (last.boots i).time := by
    obtain ⟨_, hstatic, rfl⟩ := sessionInit_eq_some hinit
    cases hr.symm.trans hstatic
    exact ⟨rfl, rfl, fun _ => hkp₀, nofun⟩
  have old : ∀ init ∈ lives.flatMap (Life.builds S host cfg i),
      initCounter init < (last.boots i).time := by
    intro init hinit
    obtain ⟨l, hl, hinit⟩ := List.mem_flatMap.mp hinit
    exact (below l hl).2 init hinit
  have step : ∀ s c, s.Awaits S keys (last.boots i).time →
      (c.Drawn S ∧ c.AcceptsOnly S (lives.flatMap (Life.builds S host cfg i)) s) →
      (sessionCall S s c).Awaits S keys (last.boots i).time :=
    fun s c h guard => h.call aead old guard.1 guard.2
  have awaits := Runs.invariant_foldl step start admitted
  exact awaits.accepts aead kx (drawn.first peer role static init hhead) hkp room

/-- A process of the node that connects to the holder of the pair of 1, started at second 100 of a
system booted then; it attempts twice. -/
def firstLife : Life where
  booted := 100 * 10 ^ 9
  seeded _ := 100 * 10 ^ 9
  attempted _ := 100 * 10 ^ 9
  began := 100 * 10 ^ 9
  ended := 115 * 10 ^ 9
  boots := rotationBoots
  clock := 0
  events := [(115 * 10 ^ 9, .timer 15000 fun _ => sampleTick)]

/-- The process after it, started at second 116. -/
def secondLife : Life where
  booted := 100 * 10 ^ 9
  seeded _ := 116 * 10 ^ 9
  attempted _ := 116 * 10 ^ 9
  began := 116 * 10 ^ 9
  ended := 116 * 10 ^ 9
  boots i := { rotationBoots i with time := 116, clock := 16000, attemptClock := 16000 }
  clock := 16000
  events := []

/-- The responder that accepts both inits of the first process. -/
def firstLifeCalls : List Call :=
  (firstLife.builds reference .little rotationConfig 0).map fun init =>
    .handleInit (referencePair 9) init sessionHandshakeMsgLen

def restartResponder : Session :=
  (sessionInit reference .responder (referencePair 1).pk (referencePair 1).sk (referencePair 2).pk
    0 (referencePair 8)).getD Session.zero

theorem restarted_fresher_secondLife :
    (firstLife.builds reference .little rotationConfig 0).map initCounter = [100, 101] ∧
    (firstLifeCalls.foldl (sessionCall reference) restartResponder).highestHandshakeCounterSeen =
      101 ∧
    (∀ l ∈ [firstLife], ∀ init ∈ l.builds reference .little rotationConfig 0,
      initCounter init < 116) ∧
    ∀ init ∈ (secondLife.builds reference .little rotationConfig 0).head?, ∃ s' response,
      sessionHandleInit reference (referencePair 7)
        (firstLifeCalls.foldl (sessionCall reference) restartResponder) init
        sessionHandshakeMsgLen = (s', some response) := by
  have steadyFirst : firstLife.Steady 0 :=
    ⟨by decide, by decide, by decide, by decide, by decide⟩
  have steadySecond : secondLife.Steady 0 :=
    ⟨by decide, by decide, by decide, by decide, by decide⟩
  have steady : ∀ l ∈ [firstLife] ++ [secondLife], l.Steady 0 := by
    intro l hl
    rcases List.mem_cons.mp hl with rfl | hl
    · exact steadyFirst
    · cases List.mem_singleton.mp hl
      exact steadySecond
  have restarts : ([firstLife] ++ [secondLife]).IsChain (Life.RestartedBy 0) :=
    .cons_cons ⟨by decide, by decide⟩ (.singleton _)
  have drawn : secondLife.Drawn reference 0 := ⟨by decide +kernel, nofun⟩
  have peer : rotationConfig.peers[0]? = some (samplePeer .initiator 1) := rfl
  have fresher := restarted_fresher reference_aead reference_kx .little peer rfl steady restarts
  refine ⟨by decide +kernel, by decide +kernel, fresher.1, fun init hinit => ?_⟩
  exact fresher.2 (referencePair 1) (referencePair 8) 0 restartResponder firstLifeCalls drawn
    (by decide +kernel) (by decide +kernel) rfl (by decide +kernel) (by decide +kernel) init hinit
    (referencePair 7) sessionHandshakeMsgLen (by decide +kernel) (Nat.le_refl _)

end EdgarVPN
