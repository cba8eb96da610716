import EdgarVPN.Daemon.Timers
import EdgarVPN.Daemon.Remembered

/-!
# How often an initiator attempts

The 64-bit handshake counter of an initiator starts at a second of `time` and moves by one with each
attempt. An attempt in the timer pass comes no earlier than `SESSION_TIMEOUT_MS` after the last one:
every attempt sets `last_rx_activity_ms`, and both conditions for the next one are differences from
a reading at or after it. So a clock that does not go back, read as a 64-bit number of milliseconds,
leaves no room for the counter to wrap (`World.Paced.unwrapped`).
-/

set_option autoImplicit false

namespace EdgarVPN

variable {S : Sodium} {d : Daemon} {w : World} {i : Nat} {ps ps' : PeerSession}

/-! ## The bound -/

theorem sessionTimeoutMs_toNat : sessionTimeoutMs.toNat = 15000 := rfl

/-- The readings a peer keeps are not ahead of the clock, and since `base`, the reading of its first
attempt, its counter has not moved more often than once in `SESSION_TIMEOUT_MS`. -/
structure PeerSession.PacedFrom (base : Nat) (seed clock : UInt64) (ps : PeerSession) : Prop where
  rx : ps.lastRxActivityMs ≤ clock
  counter : sessionTimeoutMs.toNat * ps.session.handshakeCounter.toNat + base ≤
    sessionTimeoutMs.toNat * (seed.toNat + 1) + ps.lastRxActivityMs.toNat
  completed : ps.session.state = .established → ps.lastHandshakeCompletedMs ≤ clock ∧
    sessionTimeoutMs.toNat * ps.session.handshakeCounter.toNat + base ≤
      sessionTimeoutMs.toNat * (seed.toNat + 1) + ps.lastHandshakeCompletedMs.toNat

variable {base : Nat} {seed clock clock' : UInt64}

theorem PeerSession.PacedFrom.zero (paced : ps.PacedFrom base seed clock) :
    ps.PacedFrom 0 seed clock :=
  ⟨paced.rx, Nat.le_trans (Nat.le_add_right _ _) paced.counter, fun established =>
    (paced.completed established).imp_right fun bound =>
      Nat.le_trans (Nat.le_add_right _ _) bound⟩

/-- A peer that was heard, or not, and did not attempt. -/
theorem PeerSession.PacedFrom.kept (paced : ps.PacedFrom base seed clock) (later : clock ≤ clock')
    (counter : ps'.session.handshakeCounter = ps.session.handshakeCounter)
    (rx : ps'.lastRxActivityMs = ps.lastRxActivityMs ∨ ps'.lastRxActivityMs = clock')
    (completed : ps'.session.state = .established →
      (ps.session.state = .established ∧
        ps'.lastHandshakeCompletedMs = ps.lastHandshakeCompletedMs) ∨
      ps'.lastHandshakeCompletedMs = clock') : ps'.PacedFrom base seed clock' := by
  have hrx := UInt64.le_iff_toNat_le.mp (UInt64.le_trans paced.rx later)
  have hcounter := paced.counter
  refine ⟨?_, ?_, fun established => ?_⟩
  · rcases rx with h | h
    · rw [h]
      exact UInt64.le_trans paced.rx later
    · rw [h]
      exact UInt64.le_refl _
  · rcases rx with h | h <;> rw [counter, h] <;> omega
  · rcases completed established with ⟨before, h⟩ | h
    · obtain ⟨hle, hbound⟩ := paced.completed before
      rw [h, counter]
      exact ⟨UInt64.le_trans hle later, hbound⟩
    · rw [h, counter]
      exact ⟨UInt64.le_refl _, by omega⟩

/-- A peer nothing happened to. -/
theorem PeerSession.PacedFrom.wait (paced : ps.PacedFrom base seed clock) (later : clock ≤ clock') :
    ps.PacedFrom base seed clock' :=
  paced.kept later rfl (.inl rfl) fun established => .inl ⟨established, rfl⟩

/-- What lets a timer pass attempt: the timeout, or the age of the keys. -/
def PeerSession.Due (now : UInt64) (ps : PeerSession) : Prop :=
  now - ps.lastRxActivityMs ≥ sessionTimeoutMs ∨
    (ps.session.state = .established ∧
      now - ps.lastHandshakeCompletedMs ≥ keyRotationIntervalMs)

/-- An attempt is due no sooner than `SESSION_TIMEOUT_MS` after a reading that bounds the
counter. -/
theorem PeerSession.PacedFrom.due (paced : ps.PacedFrom base seed clock) (later : clock ≤ clock')
    (due : ps.Due clock') :
    sessionTimeoutMs.toNat * ps.session.handshakeCounter.toNat + base ≤
      sessionTimeoutMs.toNat * seed.toNat + clock'.toNat := by
  have since : ∀ reading : UInt64, reading ≤ clock → sessionTimeoutMs ≤ clock' - reading →
      sessionTimeoutMs.toNat * ps.session.handshakeCounter.toNat + base ≤
        sessionTimeoutMs.toNat * (seed.toNat + 1) + reading.toNat →
      sessionTimeoutMs.toNat * ps.session.handshakeCounter.toNat + base ≤
        sessionTimeoutMs.toNat * seed.toNat + clock'.toNat := by
    intro reading before waited bound
    have hle := UInt64.le_trans before later
    have hwait := UInt64.le_iff_toNat_le.mp waited
    rw [UInt64.toNat_sub_of_le clock' reading hle] at hwait
    rw [Nat.mul_succ] at bound
    have hreading := UInt64.le_iff_toNat_le.mp hle
    omega
  rcases due with silent | ⟨established, old⟩
  · exact since _ paced.rx silent paced.counter
  · obtain ⟨hle, hbound⟩ := paced.completed established
    exact since _ hle (UInt64.le_trans (by decide) old) hbound

theorem buildInit_counter_le (kp : KeyPair) (s : Session) (outLen : Nat) :
    (sessionBuildInit S (sessionStartHandshake kp s) outLen).1.handshakeCounter.toNat ≤
      s.handshakeCounter.toNat + 1 := by
  have outcome := sessionBuildInit_outcome (S := S) (sessionStartHandshake kp s) outLen
  generalize sessionBuildInit S (sessionStartHandshake kp s) outLen = result at outcome
  cases outcome with
  | refused => exact Nat.le_succ _
  | built =>
    change (s.handshakeCounter + 1).toNat ≤ _
    rw [UInt64.toNat_add]
    exact Nat.mod_le _ _

/-- A peer that attempted when an attempt was due. -/
theorem PeerSession.PacedFrom.attempted {effects : List Effect}
    (paced : ps.PacedFrom base seed clock) (later : clock ≤ clock')
    (did : AttemptDid S ps ps' effects) (rx : ps'.lastRxActivityMs = clock')
    (due : ps.Due clock') : ps'.PacedFrom base seed clock' := by
  have bound := paced.due later due
  cases did with
  | idle kept session =>
    refine paced.kept later (by rw [session]) (.inr rx) fun established => .inl ⟨?_, kept.completed⟩
    rw [← session]
    exact established
  | @initiated kp _ _ _ _ _ session =>
    have pending : ps'.session.state = .handshakePending := by
      rw [session]
      exact sessionBuildInit_state ..
    have counter : ps'.session.handshakeCounter.toNat ≤ ps.session.handshakeCounter.toNat + 1 := by
      rw [session]
      exact buildInit_counter_le ..
    have spent := Nat.mul_le_mul_left sessionTimeoutMs.toNat counter
    rw [Nat.mul_succ] at spent
    refine ⟨by rw [rx]; exact UInt64.le_refl _, ?_, fun established => ?_⟩
    · rw [rx, Nat.mul_succ]
      omega
    · cases pending.symm.trans established

theorem PeerSession.PacedFrom.reconnect {env : Attempt} (paced : ps.PacedFrom base seed clock)
    (later : clock ≤ clock') : (ps.reconnect S clock' env).1.PacedFrom base seed clock' := by
  unfold PeerSession.reconnect
  split
  · next h =>
    exact paced.attempted later (initiateHandshake_did clock' ps env h.1)
      (initiateHandshake_lastRx clock' env) (.inl h.2)
  · split
    · next h =>
      exact paced.attempted later (initiateHandshake_did clock' ps env h.1)
        (initiateHandshake_lastRx clock' env) (.inr h.2)
    · exact paced.wait later

theorem PeerSession.PacedFrom.sealed {effects : List Effect} (paced : ps.PacedFrom base seed clock)
    (later : clock ≤ clock') (did : SealDid S i ps ps' effects)
    (rx : ps'.lastRxActivityMs = ps.lastRxActivityMs) : ps'.PacedFrom base seed clock' := by
  obtain ⟨_, hs⟩ := did.session
  refine paced.kept later (by rw [hs]) (.inl rx) fun established => .inl ⟨?_, did.kept.completed⟩
  rw [hs] at established
  exact established

theorem PeerSession.PacedFrom.received {datagram : Bytes} {kp : KeyPair} {sendOk tunOk : Bool}
    (paced : ps.PacedFrom base seed clock) (later : clock ≤ clock')
    (role : ps.config.role = .initiator) :
    (ps.receive S i datagram clock' kp sendOk tunOk).1.PacedFrom base seed clock' := by
  have other : ps.config.role ≠ .responder := by rw [role]; decide
  unfold PeerSession.receive
  dsimp only
  split
  · next h => exact absurd h.2 other
  · split
    · unfold PeerSession.receiveResponse
      have outcome := sessionHandleResponse_outcome (S := S) ps.session datagram
      generalize sessionHandleResponse S ps.session datagram = result at outcome
      cases outcome with
      | refused => exact paced.kept later rfl (.inl rfl) fun established => .inl ⟨established, rfl⟩
      | accepted => exact paced.kept later rfl (.inr rfl) fun _ => .inr rfl
    · split
      · unfold PeerSession.receiveData
        obtain ⟨window, hwindow⟩ := openData_frame (S := S) datagram
          (List.replicate maxPacketSize 0) ps.session
        have counter : (sessionOpenData S ps.session datagram
            (List.replicate maxPacketSize 0)).session.handshakeCounter =
              ps.session.handshakeCounter := by
          rw [hwindow]
          rfl
        have state : (sessionOpenData S ps.session datagram
            (List.replicate maxPacketSize 0)).session.state = ps.session.state := by
          rw [hwindow]
          rfl
        dsimp only
        split
        · exact paced.kept later counter (.inl rfl) fun h => .inl ⟨state ▸ h, rfl⟩
        · exact paced.kept later counter (.inr rfl) fun h => .inl ⟨state ▸ h, rfl⟩
        · split
          · exact paced.kept later counter (.inr rfl) fun h => .inl ⟨state ▸ h, rfl⟩
          · exact paced.kept later counter (.inl rfl) fun h => .inl ⟨state ▸ h, rfl⟩
      · exact paced.kept later rfl (.inl rfl) fun established => .inl ⟨established, rfl⟩

/-- An event keeps an initiator paced. -/
theorem PeerMove.paced {e : Event} {effects : List Effect} (move : PeerMove S d i ps e ps' effects)
    (role : ps.config.role = .initiator) (paced : ps.PacedFrom base seed clock)
    (later : clock ≤ e.clock) : ps'.PacedFrom base seed e.clock := by
  cases move with
  | untouched => exact paced.wait later
  | forwarded => exact paced.sealed later (forward_did i _ ps _ _) (forward_lastRx ..)
  | received => exact paced.received later role
  | refused responder => rw [role] at responder; cases responder
  | matched _ _ responder => rw [role] at responder; cases responder
  | @ticked now env =>
    have mid := paced.sealed later (keepalive_did (S := S) i now ps (env i).keepaliveSent)
      (keepalive_lastRx ..)
    exact mid.reconnect (UInt64.le_refl _)

/-! ## Runs -/

/-- Every initiator is paced, from the second its session was seeded with. -/
def World.Paced (boots : Nat → Boot) (w : World) : Prop :=
  ∀ (i : Nat) (ps : PeerSession), w.daemon.peers[i]? = some ps → ps.config.role = .initiator →
    ps.PacedFrom 0 (boots i).time w.clock

theorem World.Paced.step {host : Endian} {boots : Nat → Boot} {e : Event} (paced : w.Paced boots)
    (clocked : e.Clocked w) : (w.step S host e).Paced boots := by
  intro i ps' get' role
  obtain ⟨ps, _, get, _, move⟩ := Daemon.move_from host e get'
  rw [move.did.config] at role
  exact move.paced role (paced i ps get role) clocked

/-- What `time` and the monotonic clock return before the loop: seconds of a signed 64-bit `time_t`,
and readings not after the loop's first. -/
def BootsClocked (boots : Nat → Boot) (clock : UInt64) : Prop :=
  ∀ i, (boots i).time.toNat < 2 ^ 63 ∧ (boots i).attemptClock ≤ clock

/-- The first attempt leaves an initiator paced, from that attempt on. -/
theorem startPeer_paced {privateKey : SecretKey} {config : ConfigPeer} {boot : Boot}
    {effects : List Effect} (start : startPeer S privateKey config boot = some (ps, effects))
    (role : config.role = .initiator) :
    ps.PacedFrom boot.attemptClock.toNat boot.time boot.attemptClock := by
  have rx : ps.lastRxActivityMs = boot.attemptClock := by
    obtain ⟨session, _, ⟨_, hattempt⟩ | ⟨responder, _⟩⟩ := startPeer_eq start
    · have hps : ps = _ := congrArg Prod.fst hattempt
      rw [hps]
      exact initiateHandshake_lastRx ..
    · rw [role] at responder
      cases responder
  have counter : ps.session.handshakeCounter.toNat ≤ boot.time.toNat + 1 := by
    obtain ⟨ps₀, _, _, hinit, did⟩ := startPeer_did start
    obtain ⟨_, _, hsession⟩ := sessionInit_eq_some hinit
    have seeded : ps₀.session.handshakeCounter = boot.time := by
      rw [hsession]
      rfl
    rw [← seeded]
    cases did with
    | idle _ session => rw [session]; exact Nat.le_succ _
    | initiated _ _ _ _ session => rw [session]; exact buildInit_counter_le ..
  refine ⟨by rw [rx]; exact UInt64.le_refl _, ?_, fun established => ?_⟩
  · rw [rx]
    exact Nat.add_le_add_right (Nat.mul_le_mul_left _ counter) _
  · rw [startPeer_pending start] at established
    cases established

theorem World.start_paced {cfg : Config} {boots : Nat → Boot}
    (start : World.start S cfg boots clock = some w) (booted : BootsClocked boots clock) :
    w.Paced boots := by
  intro i ps get role
  obtain ⟨config, effects, _, _, hstart⟩ := World.start_get start get
  have hrole : config.role = .initiator := by
    obtain ⟨ps₀, hconfig, _, _, did⟩ := startPeer_did hstart
    rw [← hconfig, ← did.config]
    exact role
  rw [(World.start_clock start).1]
  exact ((startPeer_paced hstart hrole).wait (booted i).2).zero

/-- **The handshake counter does not wrap.** From a seed below `2 ^ 63`, one attempt in
`SESSION_TIMEOUT_MS` reaches no further than the 64 bits of the millisecond clock let it. -/
theorem World.Paced.unwrapped {boots : Nat → Boot} (paced : w.Paced boots)
    (seeds : ∀ i, (boots i).time.toNat < 2 ^ 63) (e : Event) : e.Unwrapped w := by
  cases e with
  | tun => trivial
  | udp => trivial
  | timer now env =>
    intro ps hps role
    obtain ⟨i, get⟩ := List.mem_iff_getElem?.mp hps
    have bound := (paced i ps get role).counter
    rw [sessionTimeoutMs_toNat] at bound
    have hseed := seeds i
    have hrx := ps.lastRxActivityMs.toNat_lt
    omega

end EdgarVPN
