import EdgarVPN.Lib.Runs
import EdgarVPN.Daemon.Sessions
import EdgarVPN.Daemon.Addresses

/-!
# How long data keys live

An initiator replaces data keys that have reached the rotation interval at its next timer pass. The
times compared are the daemon's own: `last_handshake_completed_ms`, set where the response is
accepted.

**What is proved.** With a clock that does not go back, after every timer pass each established
initiator holds data keys derived less than the interval before it, and nothing is ever sealed under
an initiator's data keys that had reached that age at an earlier timer pass
(`initiator_keys_young`). The derivations are read off the log; `derivations_recorded` says that it
has them as they were. The peer on the other side rotates nothing by itself: a responder whose
initiator falls silent keeps its keys, and goes on sealing under them (`responder_keys_old`).
-/

set_option autoImplicit false

namespace EdgarVPN

variable {S : Sodium} {d : Daemon} {i : Nat} {ps ps' : PeerSession} {effects : List Effect}

/-! ## Statement -/

/-- When peer `i` came to hold these keys. -/
def derivationTimes (log : List Effect) (i : Nat) (keys : SessionKeys) : List UInt64 :=
  log.filterMap fun
    | .derived j k t => if j = i ∧ k = keys then some t else none
    | _ => none

/-- These keys of peer `i` were derived less than the rotation interval before `now`. -/
def KeysYoung (log : List Effect) (i : Nat) (keys : SessionKeys) (now : UInt64) : Prop :=
  ∃ t ∈ derivationTimes log i keys, now.toNat < t.toNat + keyRotationIntervalMs.toNat

instance (log : List Effect) (i : Nat) (keys : SessionKeys) (now : UInt64) :
    Decidable (KeysYoung log i keys now) :=
  inferInstanceAs (Decidable (∃ t ∈ derivationTimes log i keys, _))

/-- Every established initiator holds young keys. -/
def World.Rotated (w : World) (now : UInt64) : Prop :=
  ∀ (i : Nat) (ps : PeerSession), w.daemon.peers[i]? = some ps → ps.config.role = .initiator →
    ps.session.state = .established → KeysYoung w.log i ps.session.dataKeys now

/-- A timer pass ends with young keys. -/
def Event.PassRotates (S : Sodium) (host : Endian) (w : World) : Event → Prop
  | .timer now env => (w.step S host (.timer now env)).Rotated now
  | _ => True

/-- What the event seals for an initiator was young at every timer pass before it. -/
def Event.SealsYoung (S : Sodium) (host : Endian) (w : World) (e : Event) : Prop :=
  ∀ (i : Nat) (ps : PeerSession) (keys : SessionKeys), w.daemon.peers[i]? = some ps →
    ps.config.role = .initiator → .sealed i keys ∈ (w.daemon.step S host e).2 →
      ∀ now, .passed now ∈ w.log → KeysYoung w.log i keys now

/-- The clock has not gone back. -/
def Event.Clocked (w : World) (e : Event) : Prop := w.clock ≤ e.clock

instance Event.Clocked.decidable (w : World) (e : Event) : Decidable (e.Clocked w) :=
  inferInstanceAs (Decidable (_ ≤ _))

/-! ## What a step leaves of the data keys -/

theorem SealDid.data (did : SealDid S i ps ps' effects) :
    ps'.session.state = ps.session.state ∧ ps'.session.dataKeys = ps.session.dataKeys := by
  obtain ⟨_, hs⟩ := did.session
  rw [hs]
  exact ⟨rfl, rfl⟩

/-- Opening touches nothing but the replay state. -/
theorem openData_frame (datagram out : Bytes) (s : Session) :
    ∃ window, (sessionOpenData S s datagram out).session = s.withWindow window := by
  have outcome := sessionOpenData_outcome (S := S) s datagram out
  generalize sessionOpenData S s datagram out = result at outcome
  cases outcome with
  | refused => exact ⟨s.window, (Session.withWindow_window s).symm⟩
  | @opened _ _ counter => exact replayCheckAndMark_frame s counter

theorem openData_data {datagram out : Bytes} {s s' : Session}
    (session : (sessionOpenData S s datagram out).session = s') :
    s'.state = s.state ∧ s'.dataKeys = s.dataKeys := by
  obtain ⟨window, hwindow⟩ := openData_frame (S := S) datagram out s
  rw [← session, hwindow]
  exact ⟨rfl, rfl⟩

/-! ## The record of derivations -/

/-- A call on this datagram that completes a handshake. -/
inductive Session.Completes (S : Sodium) (s : Session) (datagram : Bytes) (s' : Session) : Prop
  | init {kp : KeyPair} {response : Bytes}
      (handled : sessionHandleInit S kp s datagram sessionHandshakeMsgLen = (s', some response))
  | response (handled : sessionHandleResponse S s datagram = (s', true))

/-- What an entry `.derived` says of the event that made it: the peer completed a handshake at this
reading, and these are the keys it then holds. -/
structure DerivedBy (S : Sodium) (e : Event) (ps ps' : PeerSession) (keys : SessionKeys)
    (t : UInt64) : Prop where
  clock : t = e.clock
  keys : keys = ps'.session.dataKeys
  completed : ∃ datagram, e.received? = some datagram ∧
    ps.session.Completes S datagram ps'.session

theorem SealDid.underived (did : SealDid S i ps ps' effects) (j : Nat) (keys : SessionKeys)
    (t : UInt64) : .derived j keys t ∉ effects := by
  intro entry
  cases did with
  | idle => cases entry
  | unreturned => cases entry
  | sealed => simp at entry

/-- The one derivation that a completed handshake records. -/
theorem derived_of_completed {datagram : Bytes} {held keys : SessionKeys} {clock t : UInt64}
    {rest : List Effect} (only : ∀ keys t, .derived i keys t ∉ rest)
    (entry : .derived i keys t ∈ .accepted i datagram clock :: .derived i held clock :: rest) :
    t = clock ∧ keys = held := by
  obtain entry | entry := List.mem_cons.mp entry
  · cases entry
  obtain entry | entry := List.mem_cons.mp entry
  · cases entry
    exact ⟨rfl, rfl⟩
  · exact absurd entry (only keys t)

theorem StepDid.derivedBy {e : Event} {keys : SessionKeys} {t : UInt64}
    (did : StepDid S d i ps e ps' effects) (entry : .derived i keys t ∈ effects) :
    DerivedBy S e ps ps' keys t := by
  cases did with
  | untouched => cases entry
  | forwarded did => exact absurd entry (did.underived i keys t)
  | received _ did =>
    cases did with
    | idle => cases entry
    | initRefused => cases entry
    | initAccepted _ _ _ _ handled =>
      obtain ⟨time, held⟩ := derived_of_completed (by simp) entry
      exact ⟨time, held, _, rfl, .init handled⟩
    | responseAccepted _ _ _ _ handled =>
      obtain ⟨time, held⟩ := derived_of_completed (by simp) entry
      exact ⟨time, held, _, rfl, .response handled⟩
    | opened _ _ _ wrote =>
      rcases List.mem_cons.mp entry with entry | entry
      · cases entry
      · obtain ⟨_, entry⟩ := wrote _ entry
        cases entry
  | refused => cases entry
  | matched _ _ _ _ _ handled =>
    obtain ⟨time, held⟩ := derived_of_completed (by simp) entry
    exact ⟨time, held, _, rfl, .init handled⟩
  | ticked keepalive reconnect =>
    rcases List.mem_append.mp entry with entry | entry
    · exact absurd entry (keepalive.underived i keys t)
    · obtain ⟨_, _, _, entry⟩ := reconnect.effect _ entry
      cases entry

/-- A peer that is established after its part of an event held its keys before, or derived them. -/
theorem StepDid.keys {e : Event} (did : StepDid S d i ps e ps' effects)
    (established : ps'.session.state = .established) :
    ps.session.state = .established ∧ ps'.session.dataKeys = ps.session.dataKeys ∨
      .derived i ps'.session.dataKeys e.clock ∈ effects := by
  cases did with
  | untouched => exact .inl ⟨established, rfl⟩
  | forwarded did => exact .inl ⟨did.data.1 ▸ established, did.data.2⟩
  | received _ did =>
    cases did with
    | idle _ session => exact .inl ⟨session ▸ established, by rw [session]⟩
    | initRefused _ _ handled =>
      have untouched := sessionHandleInit_refused handled established
      exact .inl ⟨untouched ▸ established, by rw [untouched]⟩
    | initAccepted => exact .inr (List.mem_cons_of_mem _ List.mem_cons_self)
    | responseAccepted => exact .inr (List.mem_cons_of_mem _ List.mem_cons_self)
    | opened _ session =>
      obtain ⟨state, keys⟩ := openData_data session
      exact .inl ⟨state ▸ established, keys⟩
  | refused _ handled =>
    have untouched := sessionHandleInit_refused handled established
    exact .inl ⟨untouched ▸ established, congrArg Session.dataKeys untouched⟩
  | matched => exact .inr (List.mem_cons_of_mem _ List.mem_cons_self)
  | ticked keepalive reconnect =>
    cases reconnect with
    | idle _ session =>
      rw [session] at established ⊢
      exact .inl ⟨keepalive.data.1 ▸ established, keepalive.data.2⟩
    | initiated _ _ _ _ session =>
      rw [session, sessionBuildInit_state] at established
      cases established

/-- **The record of derivations is that of the handshakes.** An event enters keys of a peer only
where one of the two handlers completed a handshake on the datagram it received, with the keys this
leaves in the session and the reading of that event. And an established peer whose keys are not
those it was established with before has them entered. -/
theorem derivations_recorded (host : Endian) (e : Event) (get : d.peers[i]? = some ps)
    (get' : (d.step S host e).1.peers[i]? = some ps') :
    (∀ keys t, .derived i keys t ∈ (d.step S host e).2 → DerivedBy S e ps ps' keys t) ∧
    (ps'.session.state = .established →
      ps.session.state = .established ∧ ps'.session.dataKeys = ps.session.dataKeys ∨
        .derived i ps'.session.dataKeys e.clock ∈ (d.step S host e).2) := by
  obtain ⟨_, effects, here, part, did⟩ := Daemon.step_from host e get'
  cases here.symm.trans get
  constructor
  · intro keys t entry
    exact did.derivedBy (part.whole _ entry rfl)
  · intro established
    exact (did.keys established).imp_right (part.sub ·)

/-! ## Timer passes -/

/-- An attempt that gets to know the peer's address ends pending. -/
theorem initiateHandshake_established {now : UInt64} {env : Attempt}
    (established : (initiateHandshake S now env ps).1.session.state = .established) :
    ps.addrResolved = false ∧ (initiateHandshake S now env ps).1.addrResolved = false ∧
      ps.session.state = .established := by
  have pending : ∀ ps' : PeerSession,
      (ps'.sendInit S now env).1.session.state = .handshakePending := by
    intro ps'
    have state := sessionBuildInit_state (S := S) (sessionStartHandshake env.kp ps'.session)
      sealedBufSize
    unfold PeerSession.sendInit
    dsimp only
    split
    · next h => rw [h] at state; exact state
    · next h => rw [h] at state; exact state
  unfold initiateHandshake at established ⊢
  split at established
  · rw [pending] at established
    cases established
  · next known =>
    have unresolved := Bool.eq_false_iff.mpr known
    rw [if_neg known]
    cases hip : env.resolved with
    | none =>
      rw [hip] at established
      exact ⟨unresolved, unresolved, established⟩
    | some ip =>
      rw [hip] at established
      dsimp only at established
      rw [pending] at established
      cases established

/-- An initiator that is established after its part of the timer pass was left alone, and its keys
have not reached the interval. -/
theorem reconnect_established {now : UInt64} {env : Attempt} (role : ps.config.role = .initiator)
    (addressed : ps.Addressed)
    (established : (ps.reconnect S now env).1.session.state = .established) :
    (ps.reconnect S now env).1 = ps ∧
      now - ps.lastHandshakeCompletedMs < keyRotationIntervalMs := by
  have silent : (initiateHandshake S now env ps).1.session.state ≠ .established := by
    intro h
    obtain ⟨unresolved, _, before⟩ := initiateHandshake_established h
    rw [addressed before] at unresolved
    cases unresolved
  unfold PeerSession.reconnect at established ⊢
  split
  · next h => rw [if_pos h] at established; exact absurd established silent
  · next h =>
    rw [if_neg h] at established
    split
    · next h' => rw [if_pos h'] at established; exact absurd established silent
    · next h' =>
      rw [if_neg h'] at established
      refine ⟨rfl, UInt64.not_le.mp fun hle => h' ⟨role, established, hle⟩⟩

/-! ## The invariant -/

/-- An established initiator: its address is known, its keys are the ones derived when its last
handshake completed, and every timer pass so far was less than the interval after that. -/
structure PeerSession.Timed (log : List Effect) (clock : UInt64) (i : Nat) (ps : PeerSession) :
    Prop where
  resolved : ps.addrResolved = true
  derived : .derived i ps.session.dataKeys ps.lastHandshakeCompletedMs ∈ log
  past : ps.lastHandshakeCompletedMs ≤ clock
  young : ∀ now, .passed now ∈ log →
    now.toNat < ps.lastHandshakeCompletedMs.toNat + keyRotationIntervalMs.toNat

structure World.Timed (w : World) : Prop where
  passed : ∀ now, .passed now ∈ w.log → now ≤ w.clock
  peers : ∀ (i : Nat) (ps : PeerSession), w.daemon.peers[i]? = some ps →
    ps.config.role = .initiator → ps.session.state = .established → ps.Timed w.log w.clock i

theorem PeerSession.Timed.keysYoung {log : List Effect} {clock now : UInt64}
    (timed : ps.Timed log clock i) (hnow : .passed now ∈ log) :
    KeysYoung log i ps.session.dataKeys now := by
  refine ⟨_, List.mem_filterMap.mpr ⟨_, timed.derived, ?_⟩, timed.young now hnow⟩
  exact if_pos ⟨rfl, rfl⟩

/-- What is kept of a peer keeps it timed, while no timer pass ends. -/
theorem PeerSession.Timed.keep {log more : List Effect} {clock clock' : UInt64}
    (timed : ps.Timed log clock i) (kept : ps.Kept ps')
    (keys : ps'.session.dataKeys = ps.session.dataKeys) (later : clock ≤ clock')
    (quiet : ∀ now, .passed now ∉ more) : ps'.Timed (log ++ more) clock' i where
  resolved := kept.addrResolved.trans timed.resolved
  derived := by
    rw [keys, kept.completed]
    exact List.mem_append_left _ timed.derived
  past := by
    rw [kept.completed]
    exact UInt64.le_trans timed.past later
  young := by
    intro now hnow
    rw [kept.completed]
    rcases List.mem_append.mp hnow with hnow | hnow
    · exact timed.young now hnow
    · exact absurd hnow (quiet now)

/-- Only the timer pass as a whole ends one. -/
theorem StepDid.unpassed {e : Event} (did : StepDid S d i ps e ps' effects) (now : UInt64) :
    .passed now ∉ effects := by
  intro h
  cases did.effect _ h

theorem Daemon.step_passed {host : Endian} {e : Event} {now : UInt64}
    (h : .passed now ∈ (d.step S host e).2) : ∃ env, e = .timer now env := by
  obtain ⟨_, env, rfl, heq⟩ | ⟨_, _, _, _, _, _, did, hx⟩ := Daemon.step_effects host e h
  · cases heq
    exact ⟨env, rfl⟩
  · exact absurd hx (did.unpassed now)

/-- An event that is no timer pass keeps a peer timed, or times it. -/
theorem StepDid.timed {e : Event} {w : World} {more : List Effect} (timed : w.Timed)
    (did : StepDid S w.daemon i ps e ps' effects) (get : w.daemon.peers[i]? = some ps)
    (sub : effects ⊆ more) (quiet : ∀ now, .passed now ∉ more) (clocked : e.Clocked w)
    (notTimer : ∀ now env, e ≠ .timer now env) (role : ps'.config.role = .initiator)
    (established : ps'.session.state = .established) : ps'.Timed (w.log ++ more) e.clock i := by
  have keep : ps.Kept ps' → ps'.session.state = ps.session.state →
      ps'.session.dataKeys = ps.session.dataKeys → ps'.Timed (w.log ++ more) e.clock i := by
    intro kept state keys
    exact (timed.peers i ps get (kept.config ▸ role) (state ▸ established)).keep kept keys clocked
      quiet
  cases did with
  | untouched => exact keep ⟨rfl, rfl, rfl, rfl⟩ rfl rfl
  | forwarded did => exact keep did.kept did.data.1 did.data.2
  | received found did =>
    cases did with
    | idle kept session => exact keep kept (by rw [session]) (by rw [session])
    | initRefused kept responder =>
      rw [kept.config, responder] at role
      cases role
    | initAccepted config _ _ responder =>
      rw [config, responder] at role
      cases role
    | responseAccepted _ _ resolved _ _ completed =>
      refine ⟨resolved.trans (findPeerByAddr_eq_some found get).1, ?_, ?_, ?_⟩
      · rw [completed]
        exact List.mem_append_right _ (sub (List.mem_cons_of_mem _ (List.mem_singleton_self _)))
      · rw [completed]
        exact UInt64.le_refl _
      · intro now hnow
        rw [completed]
        rcases List.mem_append.mp hnow with hnow | hnow
        · have hle := UInt64.le_iff_toNat_le.mp (UInt64.le_trans (timed.passed now hnow) clocked)
          exact Nat.lt_of_le_of_lt hle (Nat.lt_add_of_pos_right (by decide))
        · exact absurd hnow (quiet now)
    | opened kept session =>
      obtain ⟨state, keys⟩ := openData_data session
      exact keep kept state keys
  | refused responder => rw [responder] at role; cases role
  | matched _ _ config _ responder => rw [config, responder] at role; cases role
  | ticked => exact absurd rfl (notTimer _ _)

/-- A timer pass keeps established initiators timed: their keys have not reached the interval. -/
theorem tick_timed {w : World} {now : UInt64} {env : Nat → Tick} (timed : w.Timed)
    (get : w.daemon.peers[i]? = some ps) (clocked : w.clock ≤ now)
    (role : ps.config.role = .initiator)
    (established : (ps.tick S i now (env i)).1.session.state = .established) :
    (ps.tick S i now (env i)).1.Timed (w.log ++ (w.daemon.timer S now env).2) now i := by
  have did := keepalive_did (S := S) i now ps (env i).keepaliveSent
  change ((ps.keepalive S i now (env i).keepaliveSent).1.reconnect S now
    (env i).toAttempt).1.session.state = .established at established
  change ((ps.keepalive S i now (env i).keepaliveSent).1.reconnect S now
    (env i).toAttempt).1.Timed _ _ _
  generalize (ps.keepalive S i now (env i).keepaliveSent).1 = mid at did established ⊢
  have before : mid.session.state = .established → ps.Timed w.log w.clock i := by
    intro h
    exact timed.peers i ps get role (did.data.1 ▸ h)
  have addressed : mid.Addressed := fun h => did.kept.addrResolved.trans (before h).resolved
  obtain ⟨same, age⟩ := reconnect_established (did.kept.config ▸ role) addressed established
  rw [same] at established ⊢
  have timed' := before established
  have past : ps.lastHandshakeCompletedMs ≤ now := UInt64.le_trans timed'.past clocked
  refine ⟨did.kept.addrResolved.trans timed'.resolved, ?_, ?_, ?_⟩
  · rw [did.data.2, did.kept.completed]
    exact List.mem_append_left _ timed'.derived
  · rw [did.kept.completed]
    exact past
  · intro now' hnow'
    rw [did.kept.completed] at age ⊢
    rcases List.mem_append.mp hnow' with hnow' | hnow'
    · exact timed'.young now' hnow'
    · have hpass : .passed now' ∈ (w.daemon.step S .little (.timer now env)).2 := hnow'
      obtain ⟨_, heq⟩ := Daemon.step_passed hpass
      cases heq
      rw [UInt64.lt_iff_toNat_lt, UInt64.toNat_sub_of_le _ _ past] at age
      have := UInt64.le_iff_toNat_le.mp past
      omega

theorem World.Timed.step {host : Endian} {w : World} {e : Event} (timed : w.Timed)
    (clocked : e.Clocked w) : (w.step S host e).Timed := by
  constructor
  · intro now hnow
    rcases List.mem_append.mp hnow with hnow | hnow
    · exact UInt64.le_trans (timed.passed now hnow) clocked
    · obtain ⟨env, rfl⟩ := Daemon.step_passed hnow
      exact UInt64.le_refl _
  · intro i ps' get' role established
    by_cases timer : ∃ now env, e = .timer now env
    · obtain ⟨now, env, rfl⟩ := timer
      have get := get'
      rw [World.step, Daemon.step, timer_get, Option.map_eq_some_iff] at get
      obtain ⟨ps, get, rfl⟩ := get
      have ticked : PeerMove S w.daemon i ps (.timer now env) _ _ := .ticked
      have config : (ps.tick S i now (env i)).1.config = ps.config := ticked.did.config
      exact tick_timed timed get clocked (config ▸ role) established
    · obtain ⟨ps, effects, get, part, did⟩ := Daemon.step_from host e get'
      refine did.timed timed get part.sub ?_ clocked (fun now env h => timer ⟨now, env, h⟩) role
        established
      intro now hnow
      obtain ⟨env, h⟩ := Daemon.step_passed hnow
      exact timer ⟨now, env, h⟩

/-- What is sealed is sealed under the keys of an established session. -/
theorem StepDid.sealed_keys {e : Event} {j : Nat} {keys : SessionKeys}
    (did : StepDid S d i ps e ps' effects) (h : .sealed j keys ∈ effects) :
    j = i ∧ ps.session.state = .established ∧ keys = ps.session.dataKeys := by
  cases did.effect _ h with
  | sealed established => exact ⟨rfl, established, rfl⟩

theorem World.Timed.sealsYoung {host : Endian} {w : World} (timed : w.Timed) (e : Event) :
    e.SealsYoung S host w := by
  intro i ps keys get role hsealed now hnow
  obtain ⟨_, _, _, heq⟩ | ⟨j, ps₀, _, _, get₀, _, did, hx⟩ := Daemon.step_effects host e hsealed
  · cases heq
  · obtain ⟨rfl, established, rfl⟩ := did.sealed_keys hx
    cases get.symm.trans get₀
    exact (timed.peers i ps get role established).keysYoung hnow

theorem World.Timed.passRotates {host : Endian} {w : World} {e : Event} (timed : w.Timed)
    (clocked : e.Clocked w) : e.PassRotates S host w := by
  cases e with
  | tun => trivial
  | udp => trivial
  | timer now env =>
    intro i ps get role established
    apply ((timed.step clocked).peers i ps get role established).keysYoung
    refine List.mem_append_right _ ?_
    change .passed now ∈ (w.daemon.timer S now env).2
    rw [timer_effects]
    exact List.mem_append_right _ (List.mem_singleton_self _)

theorem World.start_timed {cfg : Config} {boots : Nat → Boot} {clock : UInt64} {w : World}
    (start : World.start S cfg boots clock = some w) : w.Timed := by
  constructor
  · intro now hnow
    obtain ⟨_, _, _, heq⟩ := World.start_log start hnow
    cases heq
  · intro i ps get _ established
    rw [World.start_pending start get] at established
    cases established

/-- **An initiator's data keys live less than the rotation interval, to the next timer pass.** The
only premise is that the readings of the clock do not go back. Then, at every timer pass of every
run from start, each established initiator's keys were derived less than the interval before the
pass; and whatever an event seals for an initiator is under keys of which that was so at every timer
pass before it. -/
theorem initiator_keys_young {host : Endian} {cfg : Config} {boots : Nat → Boot} {clock : UInt64}
    {w : World} (start : World.start S cfg boots clock = some w) (events : List Event)
    (clocked : Runs.Admitted (World.step S host) (fun w e => e.Clocked w) w events) :
    Runs.Admitted (World.step S host) (fun w e => e.PassRotates S host w ∧ e.SealsYoung S host w)
      w events :=
  Runs.Admitted.of_invariant (fun _ _ timed clocked => timed.step clocked)
    (fun _ e timed clocked => ⟨timed.passRotates clocked, timed.sealsYoung e⟩)
    (World.start_timed start) clocked

/-- A node that holds the pair of 2 and connects to the peer that holds the pair of 1. -/
def rotationConfig : Config := { sampleConfig with peers := [samplePeer .initiator 1] }

def rotationBoots (i : Nat) : Boot := { sampleBoots i with resolved := some ⟨192, 0, 2, 9⟩ }

def rotationWorld : World :=
  (World.start reference rotationConfig rotationBoots 0).getD ⟨⟨[], 0⟩, [], 0⟩

def sampleTick : Tick := ⟨⟨none, referencePair 40, true⟩, true⟩

/-- A handshake completes, and a timer pass finds nothing to do but a keepalive. -/
def rotationEvents : List Event :=
  [.udp (peerResponse 100 (referencePair 5)) (sampleSource 9) 10 (fun _ => referencePair 30) true
      true, .timer 10000 fun _ => sampleTick, .timer 14000 fun _ => sampleTick]

theorem initiator_keys_young_rotationEvents :
    (rotationEvents.foldl (World.step reference .little) rotationWorld).daemon.peers.map
      (fun ps => (ps.config.role, ps.session.state)) = [(.initiator, .established)] ∧
    Runs.Admitted (World.step reference .little)
      (fun w e => e.PassRotates reference .little w ∧ e.SealsYoung reference .little w)
      rotationWorld rotationEvents :=
  have start : World.start reference rotationConfig rotationBoots 0 = some rotationWorld := by
    decide +kernel
  ⟨by decide +kernel, initiator_keys_young start rotationEvents (by decide +kernel)⟩

/-- A responder's handshake completes at 10, and its initiator is not heard of again. -/
def silentEvents : List Event :=
  [.udp (peerInit 1 7 (referencePair 5)) (sampleSource 9) 10 (fun _ => referencePair 30) true true,
    .timer 45010 fun _ => sampleTick]

/-- **A responder's data keys live on.** After the timer pass at 45010 it is still established with
the keys of 10, and the next timer pass seals under them. -/
theorem responder_keys_old :
    World.start reference sampleConfig sampleBoots 0 = some sampleWorld ∧
    Runs.Admitted (World.step reference .little) (fun w e => e.Clocked w) sampleWorld
      (silentEvents ++ [.timer 50010 fun _ => sampleTick]) ∧
    ∃ ps ∈ (silentEvents.foldl (World.step reference .little) sampleWorld).daemon.peers[0]?,
      ps.config.role = .responder ∧ ps.session.state = .established ∧
      .passed 45010 ∈ (silentEvents.foldl (World.step reference .little) sampleWorld).log ∧
      ¬ KeysYoung (silentEvents.foldl (World.step reference .little) sampleWorld).log 0
        ps.session.dataKeys 45010 ∧
      .sealed 0 ps.session.dataKeys ∈ ((silentEvents.foldl (World.step reference .little)
        sampleWorld).daemon.step reference .little (.timer 50010 fun _ => sampleTick)).2 := by
  decide +kernel

end EdgarVPN
