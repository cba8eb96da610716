import EdgarVPN.Daemon.Addresses
import EdgarVPN.Daemon.InitReplay

/-!
# What a daemon remembers of what it accepted

A datagram is accepted once. What keeps it from being accepted again is different for each type: an
init is below the highest counter of its session (`World.InitsSpent`), a response echoes a counter
that is not awaited any more (`Session.Concluded`), and a data packet is marked in the replay
window, or was sealed under keys that are gone (`Session.Marked`). This module proves that a running
daemon keeps all of it in mind (`Remembers`), with the hypotheses on keys it takes
(`Config.KeysHeldApart`): that keys of different relationships and handshakes are different, and
that a packet that was accepted opens under one key of the daemon only.
-/

set_option autoImplicit false

namespace EdgarVPN

variable {S : Sodium} {d : Daemon} {w : World} {i j : Nat} {ps ps' : PeerSession}
  {effects : List Effect}

/-! ## Keys -/

/-- The receive key of data keys that a session came to hold. -/
def Effect.derivedRx? : Effect → Option SessionKey
  | .derived _ keys _ => some keys.rx
  | _ => none

def derivedRx (log : List Effect) : List SessionKey := log.filterMap Effect.derivedRx?

/-- Every receive key that a daemon with this log held. -/
def Config.heldRx (S : Sodium) (cfg : Config) (log : List Effect) : List SessionKey :=
  cfg.peers.filterMap (fun p => (cfg.staticKeys S p).map SessionKeys.rx) ++ derivedRx log

/-- The datagrams a log says were accepted, in order. -/
def acceptedIn (log : List Effect) : List Bytes := log.filterMap Effect.accepted?

/-- Static keys toward different public keys are different, no two handshakes gave the same receive
key, and what was accepted authenticates under one of the keys held. -/
structure Config.KeysHeldApart (S : Sodium) (cfg : Config) (log : List Effect) : Prop where
  static : ∀ p ∈ cfg.peers, ∀ q ∈ cfg.peers, p.publicKey ≠ q.publicKey →
    ∀ kp ∈ cfg.staticKeys S p, ∀ kq ∈ cfg.staticKeys S q, kp.rx ≠ kq.rx
  derived : (derivedRx log).Nodup
  opens : ∀ datagram ∈ acceptedIn log, ∀ k ∈ cfg.heldRx S log, ∀ k' ∈ cfg.heldRx S log,
    (authenticates S k datagram.tail).isSome = true →
      (authenticates S k' datagram.tail).isSome = true → k = k'

instance (cfg : Config) (log : List Effect) : Decidable (cfg.KeysHeldApart S log) :=
  decidable_of_iff
    ((∀ p ∈ cfg.peers, ∀ q ∈ cfg.peers, p.publicKey ≠ q.publicKey →
        ∀ kp ∈ cfg.staticKeys S p, ∀ kq ∈ cfg.staticKeys S q, kp.rx ≠ kq.rx) ∧
      (derivedRx log).Nodup ∧
      ∀ datagram ∈ acceptedIn log, ∀ k ∈ cfg.heldRx S log, ∀ k' ∈ cfg.heldRx S log,
        (authenticates S k datagram.tail).isSome = true →
          (authenticates S k' datagram.tail).isSome = true → k = k')
    ⟨fun h => ⟨h.1, h.2.1, h.2.2⟩, fun h => ⟨h.static, h.derived, h.opens⟩⟩

theorem Config.heldRx_mono {cfg : Config} (log more : List Effect) :
    cfg.heldRx S log ⊆ cfg.heldRx S (log ++ more) := by
  intro k hk
  rw [Config.heldRx, derivedRx, List.filterMap_append, ← List.append_assoc]
  exact List.mem_append_left _ hk

theorem Config.KeysHeldApart.of_append {cfg : Config} {log more : List Effect}
    (apart : cfg.KeysHeldApart S (log ++ more)) : cfg.KeysHeldApart S log where
  static := apart.static
  derived := by
    have h := apart.derived
    rw [derivedRx, List.filterMap_append] at h
    exact h.of_append_left
  opens := by
    intro datagram hdatagram k hk k' hk'
    refine apart.opens datagram ?_ k (Config.heldRx_mono log more hk) k'
      (Config.heldRx_mono log more hk')
    rw [acceptedIn, List.filterMap_append]
    exact List.mem_append_left _ hdatagram

theorem mem_derivedRx {log : List Effect} {keys : SessionKeys} {t : UInt64}
    (h : .derived i keys t ∈ log) : keys.rx ∈ derivedRx log :=
  List.mem_filterMap.mpr ⟨_, h, rfl⟩

theorem mem_heldRx_derived {cfg : Config} {log : List Effect} {k : SessionKey}
    (h : k ∈ derivedRx log) : k ∈ cfg.heldRx S log :=
  List.mem_append_right _ h

theorem PeerSession.Keyed.mem_heldRx {cfg : Config} (keyed : ps.Keyed S cfg i)
    (log : List Effect) : ps.session.staticKeys.rx ∈ cfg.heldRx S log := by
  refine List.mem_append_left _ (List.mem_filterMap.mpr ⟨_, List.mem_of_getElem? keyed.config, ?_⟩)
  rw [keyed.static]
  rfl

/-- Elements with the same image, where images do not repeat. -/
theorem filterMap_inj {α β : Type} {f : α → Option β} {l : List α} (nodup : (l.filterMap f).Nodup)
    {x y : α} (hx : x ∈ l) (hy : y ∈ l) {b : β} (fx : f x = some b) (fy : f y = some b) :
    x = y := by
  induction l with
  | nil => cases hx
  | cons a l ih =>
    have rest : (l.filterMap f).Nodup := by
      cases ha : f a with
      | none => rwa [List.filterMap_cons_none ha] at nodup
      | some c => exact (List.nodup_cons.mp (List.filterMap_cons_some ha ▸ nodup)).2
    have fresh : ∀ z ∈ l, f a = some b → f z ≠ some b := by
      intro z hz fa fz
      rw [List.filterMap_cons_some fa, List.nodup_cons] at nodup
      exact nodup.1 (List.mem_filterMap.mpr ⟨z, hz, fz⟩)
    rcases List.mem_cons.mp hx with hxa | hx <;> rcases List.mem_cons.mp hy with hya | hy
    · rw [hxa, hya]
    · exact absurd fy (fresh y hy (hxa ▸ fx))
    · exact absurd fx (fresh x hx (hya ▸ fy))
    · exact ih rest hx hy

/-- Two peers do not hold the same receive key. -/
theorem Config.KeysHeldApart.same_peer {cfg : Config} {log : List Effect}
    (apart : cfg.KeysHeldApart S log) {keys keys' : SessionKeys} {t t' : UInt64}
    (h : .derived i keys t ∈ log) (h' : .derived j keys' t' ∈ log) (same : keys.rx = keys'.rx) :
    i = j := by
  have heq := filterMap_inj apart.derived h h' (b := keys.rx) rfl (by rw [same]; rfl)
  cases heq
  rfl

/-! ## Responses -/

/-- The payload authenticates with a counter that was used and is not awaited. -/
def Session.Concluded (S : Sodium) (s : Session) (payload : Bytes) : Prop :=
  ∃ pk counter, authenticates S s.staticKeys.rx payload = some (pk, counter) ∧
    counter < s.handshakeCounter ∧
    (counter = s.pendingHandshakeCounter → s.state = .established)

theorem Session.Concluded.unread {s : Session} {payload : Bytes}
    (concluded : s.Concluded S payload) :
    sessionReadResponse S s (sessionMsgHandshakeResponse :: payload) = none := by
  obtain ⟨pk, counter, hauth, _, hawaited⟩ := concluded
  cases hread : sessionReadResponse S s (sessionMsgHandshakeResponse :: payload) with
  | none => rfl
  | some peer =>
    obtain ⟨_, hpending, _, hinput, hauth'⟩ := sessionReadResponse_eq_some hread
    cases hinput
    cases hauth.symm.trans hauth'
    rw [hawaited rfl] at hpending
    cases hpending

/-- What an event can do to the counters and the state of a peer this node initiates to. -/
inductive InitiatorStep (ps ps' : PeerSession) : Prop
  | kept (resolved : ps'.addrResolved = ps.addrResolved)
      (counter : ps'.session.handshakeCounter = ps.session.handshakeCounter)
      (pending : ps'.session.pendingHandshakeCounter = ps.session.pendingHandshakeCounter)
      (state : ps'.session.state = ps.session.state ∨ ps'.session.state = .established)
  | attempted (counter : ps.session.handshakeCounter < ps'.session.handshakeCounter)
      (pending : ps'.session.pendingHandshakeCounter = ps.session.handshakeCounter)

/-- The counter of the init that a peer with a known address awaits an answer to was used. -/
def PeerSession.Launched (ps : PeerSession) : Prop :=
  ps.config.role = .initiator → ps.addrResolved = true →
    ps.session.pendingHandshakeCounter < ps.session.handshakeCounter

theorem InitiatorStep.launched (step : InitiatorStep ps ps') (launched : ps.addrResolved = true →
      ps.session.pendingHandshakeCounter < ps.session.handshakeCounter)
    (resolved : ps'.addrResolved = true) :
    ps'.session.pendingHandshakeCounter < ps'.session.handshakeCounter := by
  cases step with
  | kept same counter pending =>
    rw [counter, pending]
    exact launched (same.symm.trans resolved)
  | attempted counter pending =>
    rw [pending]
    exact counter

theorem InitiatorStep.concluded {payload : Bytes} (step : InitiatorStep ps ps')
    (static : ps'.session.staticKeys = ps.session.staticKeys)
    (concluded : ps.session.Concluded S payload) : ps'.session.Concluded S payload := by
  obtain ⟨pk, c, auth, used, awaited⟩ := concluded
  refine ⟨pk, c, by rw [static]; exact auth, ?_⟩
  cases step with
  | kept _ counter pending state =>
    rw [counter, pending]
    refine ⟨used, fun hc => ?_⟩
    rcases state with h | h
    · exact h.trans (awaited hc)
    · exact h
  | attempted counter pending =>
    refine ⟨UInt64.lt_trans used counter, fun hc => ?_⟩
    rw [hc, pending] at used
    exact absurd used (UInt64.lt_irrefl _)

theorem SealDid.initiator (did : SealDid S i ps ps' effects) : InitiatorStep ps ps' := by
  obtain ⟨tx, hs⟩ := did.session
  refine .kept did.kept.addrResolved ?_ ?_ (.inl ?_) <;> rw [hs]

/-- An attempt uses the next counter. -/
theorem AttemptDid.initiator (aead : S.Aead) (did : AttemptDid S ps ps' effects)
    (role : ps.session.role = ps.config.role)
    (room : ps.session.handshakeCounter.toNat + 1 < 2 ^ 64) : InitiatorStep ps ps' := by
  cases did with
  | idle kept session =>
    refine .kept kept.addrResolved ?_ ?_ (.inl ?_) <;> rw [session]
  | @initiated kp _ _ _ _ initiator session =>
    obtain ⟨_, _, hbuilt⟩ := sessionBuildInit_isSome aead
      (s := sessionStartHandshake kp ps.session) (role.trans initiator) rfl
      (show sessionHandshakeMsgLen ≤ sealedBufSize by decide)
    rw [hbuilt] at session
    refine .attempted ?_ (by rw [session]; rfl)
    rw [session, UInt64.lt_iff_toNat_lt]
    change _ < (ps.session.handshakeCounter + 1).toNat
    rw [UInt64.toNat_add, show (1 : UInt64).toNat = 1 from rfl, Nat.mod_eq_of_lt room]
    exact Nat.lt_succ_self _

/-- The handshake counters of this node's attempts do not wrap in a timer pass. -/
def Event.Unwrapped (w : World) : Event → Prop
  | .timer _ _ => ∀ ps ∈ w.daemon.peers, ps.config.role = .initiator →
      ps.session.handshakeCounter.toNat + 1 < 2 ^ 64
  | _ => True

theorem ReceiveDid.initiator {datagram : Bytes} {clock : UInt64}
    (did : ReceiveDid S i datagram clock ps ps' effects) (role : ps.config.role ≠ .responder) :
    InitiatorStep ps ps' := by
  cases did with
  | idle kept session => refine .kept kept.addrResolved ?_ ?_ (.inl ?_) <;> rw [session]
  | initRefused _ responder => exact absurd responder role
  | initAccepted _ _ _ responder => exact absurd responder role
  | responseAccepted _ _ resolved _ session =>
    obtain ⟨_, _, _, hs⟩ := sessionHandleResponse_eq_true session
    refine .kept resolved ?_ ?_ (.inr ?_) <;> rw [hs] <;> rfl
  | opened kept session plain =>
    obtain ⟨_, _, _, counter, _, _, _, hs⟩ := sessionOpenData_eq_some plain
    obtain ⟨window, hw⟩ := replayCheckAndMark_frame ps.session counter
    rw [session, hw] at hs
    refine .kept kept.addrResolved ?_ ?_ (.inl ?_) <;> rw [hs] <;> rfl

theorem StepDid.initiator {e : Event} (aead : S.Aead) (unwrapped : e.Unwrapped w)
    (get : w.daemon.peers[i]? = some ps) (did : StepDid S w.daemon i ps e ps' effects)
    (role : ps.config.role = .initiator) (sessionRole : ps.session.role = ps.config.role) :
    InitiatorStep ps ps' := by
  have other : ps.config.role ≠ .responder := by rw [role]; decide
  cases did with
  | untouched => exact .kept rfl rfl rfl (.inl rfl)
  | forwarded did => exact did.initiator
  | received _ did => exact did.initiator other
  | refused responder => exact absurd responder other
  | matched _ _ _ _ responder => exact absurd responder other
  | @ticked _ _ mid _ _ _ keepalive reconnect =>
    obtain ⟨tx, hs⟩ := keepalive.session
    have room := unwrapped ps (List.mem_of_getElem? get) role
    have step := reconnect.initiator aead (by rw [hs, keepalive.kept.config]; exact sessionRole)
      (by rw [hs]; exact room)
    cases step with
    | kept resolved counter pending state =>
      rw [hs] at counter pending state
      exact .kept (resolved.trans keepalive.kept.addrResolved) counter pending state
    | attempted counter pending =>
      rw [hs] at counter pending
      exact .attempted counter pending

/-! ## Data -/

/-- No data packet was accepted. -/
def NoData (effects : List Effect) : Prop :=
  ∀ (j : Nat) (payload : Bytes) (t : UInt64), .accepted j (sessionMsgData :: payload) t ∉ effects

/-- What an event can do to the data channel of a peer. -/
inductive DataStep (S : Sodium) (i : Nat) (ps ps' : PeerSession) (effects : List Effect) : Prop
  | pending (state : ps'.session.state = .handshakePending) (none : NoData effects)
  | same (established : ps.session.state = .established)
      (keys : ps'.session.dataKeys = ps.session.dataKeys)
      (window : ps'.session.window = ps.session.window) (none : NoData effects)
  | opened {payload plaintext : Bytes} {counter : UInt64}
      (established : ps.session.state = .established)
      (auth : authenticates S ps.session.dataKeys.rx payload = some (plaintext, counter))
      (fresh : (replayCheckAndMark ps.session counter).2 = true)
      (session : ps'.session = (replayCheckAndMark ps.session counter).1)
      (only : ∀ (j : Nat) (other : Bytes) (t : UInt64),
        .accepted j (sessionMsgData :: other) t ∈ effects → other = payload)
  | renewed {t : UInt64} (derived : .derived i ps'.session.dataKeys t ∈ effects)
      (reset : ps'.session.DataReset) (none : NoData effects)

/-- A session that did not touch its data channel. -/
theorem DataStep.of_same (state : ps'.session.state = ps.session.state)
    (keys : ps'.session.dataKeys = ps.session.dataKeys)
    (window : ps'.session.window = ps.session.window) (none : NoData effects) :
    DataStep S i ps ps' effects := by
  cases h : ps.session.state with
  | handshakePending => exact .pending (state.trans h) none
  | established => exact .same h keys window none

/-- The session of an init that was refused: as before, or pending. -/
theorem DataStep.of_refused {kp : KeyPair} {datagram : Bytes} {outLen : Nat}
    (session : sessionHandleInit S kp ps.session datagram outLen = (ps'.session, none)) :
    DataStep S i ps ps' [] := by
  have none : NoData [] := fun _ _ _ hx => nomatch hx
  rcases sessionHandleInit_eq_none session with h | ⟨_, _, h⟩
  · exact .of_same (by rw [h]) (by rw [h]) (by rw [h]) none
  · exact .pending (by rw [h]; exact reattempt_state _ _) none

/-- The session of an init that was accepted has new keys and a reset data channel. -/
theorem reset_of_handleInit {kp : KeyPair} {datagram response : Bytes} {outLen : Nat}
    (reset : ps.session.state = .handshakePending → ps.session.DataReset)
    (session : sessionHandleInit S kp ps.session datagram outLen = (ps'.session, some response)) :
    ps'.session.DataReset ∧ ∃ payload, datagram = sessionMsgHandshakeInit :: payload := by
  obtain ⟨_, _, _, read, hs⟩ := sessionHandleInit_eq_some session
  obtain ⟨_, _, payload, hinput, _⟩ := sessionReadInit_eq_some read
  refine ⟨?_, payload, hinput⟩
  rw [hs]
  exact reattempt_dataReset kp ps.session reset

/-- What was accepted beside data keys is not a data packet. -/
theorem noData_of_derived {datagram payload : Bytes} {type : UInt8} {keys : SessionKeys}
    {t : UInt64} {sends : List Effect} (hinput : datagram = type :: payload)
    (htype : type ≠ sessionMsgData)
    (sent : ∀ x ∈ sends, ∃ message dest ok, x = .sent message dest ok) :
    NoData (.accepted i datagram t :: .derived i keys t :: sends) := by
  intro j other t' hx
  simp only [List.mem_cons, reduceCtorEq, false_or] at hx
  rcases hx with h | h
  · rw [hinput] at h
    cases h
    exact htype rfl
  · obtain ⟨_, _, _, h⟩ := sent _ h
    cases h

theorem ReceiveDid.data {datagram : Bytes} {clock : UInt64}
    (did : ReceiveDid S i datagram clock ps ps' effects)
    (reset : ps.session.state = .handshakePending → ps.session.DataReset) :
    DataStep S i ps ps' effects := by
  cases did with
  | idle _ session =>
    exact .of_same (by rw [session]) (by rw [session]) (by rw [session]) fun _ _ _ hx => nomatch hx
  | initRefused _ _ session => exact .of_refused session
  | initAccepted _ _ _ _ session =>
    obtain ⟨hreset, _, hinput⟩ := reset_of_handleInit reset session
    refine .renewed (List.mem_cons_of_mem _ List.mem_cons_self) hreset
      (noData_of_derived hinput (by decide) fun x hx => ?_)
    rw [List.mem_singleton] at hx
    exact ⟨_, _, _, hx⟩
  | responseAccepted _ _ _ _ session =>
    obtain ⟨_, _, read, hs⟩ := sessionHandleResponse_eq_true session
    obtain ⟨_, pending, _, hinput, _⟩ := sessionReadResponse_eq_some read
    refine .renewed (List.mem_cons_of_mem _ List.mem_cons_self) ?_
      (noData_of_derived hinput (by decide) fun _ hx => nomatch hx)
    rw [hs]
    exact reset pending
  | opened _ session plain wrote =>
    obtain ⟨established, payload, _, counter, rfl, auth, fresh, hs⟩ := sessionOpenData_eq_some plain
    refine .opened established auth fresh (session.symm.trans hs) fun j other t hx => ?_
    rcases List.mem_cons.mp hx with h | h
    · cases h
      rfl
    · obtain ⟨_, h⟩ := wrote _ h
      cases h

theorem StepDid.data {e : Event} (did : StepDid S d i ps e ps' effects)
    (reset : ps.session.state = .handshakePending → ps.session.DataReset) :
    DataStep S i ps ps' effects := by
  cases did with
  | untouched => exact .of_same rfl rfl rfl fun _ _ _ hx => nomatch hx
  | forwarded did =>
    obtain ⟨_, hs⟩ := did.session
    exact .of_same (by rw [hs]) (by rw [hs]) (by rw [hs]; rfl)
      fun j payload t => did.unaccepted j _ t
  | received _ did => exact did.data reset
  | refused _ session => exact .of_refused session
  | matched _ _ _ _ _ session =>
    obtain ⟨hreset, _, hinput⟩ := reset_of_handleInit reset session
    refine .renewed (List.mem_cons_of_mem _ List.mem_cons_self) hreset
      (noData_of_derived hinput (by decide) fun x hx => ?_)
    rw [List.mem_singleton] at hx
    exact ⟨_, _, _, hx⟩
  | ticked keepalive reconnect =>
    have none : NoData _ := fun j payload t hx => (List.mem_append.mp hx).elim
      (keepalive.unaccepted j _ t) (reconnect.unaccepted j _ t)
    obtain ⟨_, hs⟩ := keepalive.session
    cases reconnect with
    | idle _ session =>
      rw [hs] at session
      exact .of_same (by rw [session]) (by rw [session]) (by rw [session]; rfl) none
    | @initiated kp _ _ _ _ _ session =>
      refine .pending ?_ none
      rw [session]
      exact sessionBuildInit_state ..

/-! ## A pending session's data channel is reset -/

theorem Did.reset {s s' : Session} {c : Call} {acts : List Act} (did : Did S s c s' acts)
    (reset : s.state = .handshakePending → s.DataReset) (pending : s'.state = .handshakePending) :
    s'.DataReset := by
  cases did with
  | nothing => exact reset pending
  | started => exact start_dataReset ..
  | built _ before => exact reset before
  | @underived kp => exact reattempt_dataReset kp s reset
  | @unsealed kp => exact reattempt_dataReset kp s reset
  | answered => cases pending
  | completed => cases pending
  | sealed established => cases established.symm.trans pending
  | @opened _ _ _ counter established =>
    obtain ⟨window, hw⟩ := replayCheckAndMark_frame s counter
    rw [hw] at pending
    cases established.symm.trans pending

theorem PeerSession.Driven.reset {cfg : Config} {boots : Nat → Boot}
    (driven : ps.Driven S cfg boots i) (pending : ps.session.state = .handshakePending) :
    ps.session.DataReset := by
  obtain ⟨_, s₀, calls, hinit, hcalls⟩ := driven
  have run : ∀ (calls : List Call) (s : Session),
      (s.state = .handshakePending → s.DataReset) →
      (calls.foldl (sessionCall S) s).state = .handshakePending →
        (calls.foldl (sessionCall S) s).DataReset := by
    intro calls
    induction calls with
    | nil => exact fun _ reset => reset
    | cons c calls ih => exact fun s reset => ih _ fun h => (sessionCall_did s c).reset reset h
  rw [hcalls] at pending ⊢
  refine run calls s₀ (fun _ => ?_) pending
  obtain ⟨_, _, rfl⟩ := sessionInit_eq_some hinit
  exact start_dataReset ..

/-! ## The invariant -/

/-- Every data packet accepted that authenticates under the key held is marked in the window. -/
def Session.Marked (S : Sodium) (s : Session) (log : List Effect) : Prop :=
  ∃ seen, s.Seen seen ∧ ∀ (j : Nat) (payload plaintext : Bytes) (t counter : UInt64),
    .accepted j (sessionMsgData :: payload) t ∈ log →
      authenticates S s.dataKeys.rx payload = some (plaintext, counter) → counter.toNat ∈ seen

/-- What a daemon remembers of what it accepted. -/
structure Remembers (S : Sodium) (cfg : Config) (boots : Nat → Boot) (w : World) : Prop where
  driven : w.daemon.Driven S cfg boots
  inits : w.InitsSpent S
  launched : ∀ (i : Nat) (ps : PeerSession), w.daemon.peers[i]? = some ps → ps.Launched
  responses : ∀ (j : Nat) (payload : Bytes) (t : UInt64),
    .accepted j (sessionMsgHandshakeResponse :: payload) t ∈ w.log →
      ∃ ps, w.daemon.peers[j]? = some ps ∧ ps.config.role = .initiator ∧
        ps.session.Concluded S payload
  keys : ∀ (i : Nat) (ps : PeerSession), w.daemon.peers[i]? = some ps →
    ps.session.state = .established → ∃ t, .derived i ps.session.dataKeys t ∈ w.log
  data : ∀ (j : Nat) (payload : Bytes) (t : UInt64),
    .accepted j (sessionMsgData :: payload) t ∈ w.log →
      ∃ k ∈ derivedRx w.log, (authenticates S k payload).isSome = true
  windows : ∀ (i : Nat) (ps : PeerSession), w.daemon.peers[i]? = some ps →
    ps.session.state = .established → ps.session.Marked S w.log

section Step

variable {host : Endian} {cfg : Config} {boots : Nat → Boot} {e : Event}

theorem World.step_log (w : World) (e : Event) :
    (w.step S host e).log = w.log ++ (w.daemon.step S host e).2 := rfl

theorem Remembers.launched_step (rem : Remembers S cfg boots w) (aead : S.Aead)
    (unwrapped : e.Unwrapped w) (get' : (w.step S host e).daemon.peers[i]? = some ps') :
    ps'.Launched := by
  obtain ⟨ps, effects, get, _, did⟩ := Daemon.step_from host e get'
  intro role
  rw [did.config] at role
  have keyed := rem.driven.keyed i ps get
  exact (did.initiator aead unwrapped get role keyed.role).launched (rem.launched i ps get role)

/-- An init that was accepted is no response. -/
theorem handleInit_not_response {kp : KeyPair} {s s' : Session} {datagram response payload : Bytes}
    {outLen : Nat} (session : sessionHandleInit S kp s datagram outLen = (s', some response)) :
    sessionMsgHandshakeResponse :: payload ≠ datagram := by
  intro heq
  obtain ⟨_, _, _, read, _⟩ := sessionHandleInit_eq_some session
  obtain ⟨_, _, _, hinput, _⟩ := sessionReadInit_eq_some read
  rw [← heq] at hinput
  cases hinput

/-- A peer that accepts a response awaited it, and does not await it any more. -/
theorem ReceiveDid.response {datagram payload : Bytes} {clock t : UInt64}
    (did : ReceiveDid S i datagram clock ps ps' effects)
    (hx : .accepted j (sessionMsgHandshakeResponse :: payload) t ∈ effects)
    (launched : ps.config.role = .initiator →
      ps.session.pendingHandshakeCounter < ps.session.handshakeCounter) :
    j = i ∧ ps.config.role = .initiator ∧ ps'.session.Concluded S payload := by
  cases did with
  | idle => cases hx
  | initRefused => cases hx
  | initAccepted _ _ _ _ session =>
    simp only [List.mem_cons, List.not_mem_nil, or_false, reduceCtorEq, Effect.accepted.injEq] at hx
    exact absurd hx.2.1 (handleInit_not_response session)
  | responseAccepted _ _ _ role session =>
    simp only [List.mem_cons, List.not_mem_nil, or_false, reduceCtorEq, Effect.accepted.injEq] at hx
    obtain ⟨rfl, heq, _⟩ := hx
    obtain ⟨peer, keys, read, hs⟩ := sessionHandleResponse_eq_true session
    obtain ⟨_, _, payload', hinput, auth⟩ := sessionReadResponse_eq_some read
    rw [← heq] at hinput
    cases hinput
    refine ⟨rfl, role, peer.bytes, ps.session.pendingHandshakeCounter, ?_⟩
    rw [hs]
    exact ⟨auth, launched role, fun _ => rfl⟩
  | opened _ _ plain wrote =>
    obtain ⟨_, _, _, _, hinput, _⟩ := sessionOpenData_eq_some plain
    rcases List.mem_cons.mp hx with h | h
    · cases h
      cases hinput
    · obtain ⟨_, h⟩ := wrote _ h
      cases h

theorem StepDid.response {payload : Bytes} {t : UInt64} (get : d.peers[i]? = some ps)
    (did : StepDid S d i ps e ps' effects)
    (hx : .accepted j (sessionMsgHandshakeResponse :: payload) t ∈ effects)
    (launched : ps.Launched) :
    j = i ∧ ps.config.role = .initiator ∧ ps'.session.Concluded S payload := by
  cases did with
  | untouched => cases hx
  | forwarded did => exact absurd hx (did.unaccepted j _ t)
  | received found did =>
    exact did.response hx fun role => launched role (findPeerByAddr_eq_some found get).1
  | refused => cases hx
  | matched _ _ _ _ _ session =>
    simp only [List.mem_cons, List.not_mem_nil, or_false, reduceCtorEq, Effect.accepted.injEq] at hx
    exact absurd hx.2.1 (handleInit_not_response session)
  | ticked keepalive reconnect =>
    rcases List.mem_append.mp hx with h | h
    · exact absurd h (keepalive.unaccepted j _ t)
    · exact absurd h (reconnect.unaccepted j _ t)

theorem Remembers.responses_step {payload : Bytes} {t : UInt64} (rem : Remembers S cfg boots w)
    (aead : S.Aead) (unwrapped : e.Unwrapped w)
    (hx : .accepted j (sessionMsgHandshakeResponse :: payload) t ∈ (w.step S host e).log) :
    ∃ ps, (w.step S host e).daemon.peers[j]? = some ps ∧ ps.config.role = .initiator ∧
      ps.session.Concluded S payload := by
  rw [World.step_log, List.mem_append] at hx
  rcases hx with hold | hnew
  · obtain ⟨ps, get, role, concluded⟩ := rem.responses j payload t hold
    obtain ⟨ps', effects, get', _, did⟩ := Daemon.step_get (S := S) host e get
    have keyed := rem.driven.keyed j ps get
    have static : ps'.session.staticKeys = ps.session.staticKeys := by
      obtain ⟨calls, hcalls⟩ := did.calls
      rw [hcalls]
      exact (sessionCalls_frame ps.session calls).2
    have step := did.initiator aead unwrapped get role keyed.role
    exact ⟨ps', get', did.config ▸ role, step.concluded static concluded⟩
  · obtain ⟨_, _, _, h⟩ | ⟨i, ps, ps', effects, get, get', did, hx⟩ :=
      Daemon.step_effects (S := S) host e hnew
    · cases h
    · obtain ⟨rfl, role, concluded⟩ := did.response get hx (rem.launched i ps get)
      exact ⟨ps', get', did.config ▸ role, concluded⟩

theorem Remembers.keys_step (rem : Remembers S cfg boots w)
    (get' : (w.step S host e).daemon.peers[i]? = some ps')
    (established : ps'.session.state = .established) :
    ∃ t, .derived i ps'.session.dataKeys t ∈ (w.step S host e).log := by
  obtain ⟨ps, effects, get, part, did⟩ := Daemon.step_from host e get'
  have old : ps.session.state = .established → ps'.session.dataKeys = ps.session.dataKeys →
      ∃ t, .derived i ps'.session.dataKeys t ∈ (w.step S host e).log := by
    intro before keys
    obtain ⟨t, h⟩ := rem.keys i ps get before
    rw [keys]
    exact ⟨t, List.mem_append_left _ h⟩
  cases did.data (rem.driven i ps get).reset with
  | pending state => cases state.symm.trans established
  | same before keys => exact old before keys
  | @opened _ _ counter before _ _ session =>
    refine old before ?_
    obtain ⟨window, hw⟩ := replayCheckAndMark_frame ps.session counter
    rw [session, hw]
    rfl
  | renewed derived => exact ⟨_, List.mem_append_right _ (part.sub derived)⟩

/-- An accepted data packet authenticates under the data key of the peer that accepted it. -/
theorem Remembers.data_new {payload : Bytes} {t : UInt64} (rem : Remembers S cfg boots w)
    (hx : .accepted j (sessionMsgData :: payload) t ∈ (w.daemon.step S host e).2) :
    ∃ ps plaintext counter, w.daemon.peers[j]? = some ps ∧ ps.session.state = .established ∧
      authenticates S ps.session.dataKeys.rx payload = some (plaintext, counter) := by
  obtain ⟨_, _, _, h⟩ | ⟨i, ps, ps', effects, get, _, did, hx⟩ :=
    Daemon.step_effects (S := S) host e hx
  · cases h
  · have hij : j = i := by
      rcases did.owned _ hx with h | h
      · cases h
      · exact Option.some.inj h
    subst hij
    cases did.data (rem.driven j ps get).reset with
    | pending _ none => exact absurd hx (none j payload t)
    | same _ _ _ none => exact absurd hx (none j payload t)
    | opened before auth _ _ only =>
      rw [only j payload t hx]
      exact ⟨ps, _, _, get, before, auth⟩
    | renewed _ _ none => exact absurd hx (none j payload t)

theorem Remembers.data_step {payload : Bytes} {t : UInt64} (rem : Remembers S cfg boots w)
    (hx : .accepted j (sessionMsgData :: payload) t ∈ (w.step S host e).log) :
    ∃ k ∈ derivedRx (w.step S host e).log, (authenticates S k payload).isSome = true := by
  have mono : derivedRx w.log ⊆ derivedRx (w.step S host e).log := by
    rw [World.step_log, derivedRx, derivedRx, List.filterMap_append]
    exact List.subset_append_left _ _
  rw [World.step_log, List.mem_append] at hx
  rcases hx with hold | hnew
  · obtain ⟨k, hk, auth⟩ := rem.data j payload t hold
    exact ⟨k, mono hk, auth⟩
  · obtain ⟨ps, _, _, get, before, auth⟩ := rem.data_new hnew
    obtain ⟨t', derived⟩ := rem.keys j ps get before
    exact ⟨_, mono (mem_derivedRx derived), by rw [auth]; rfl⟩

theorem mem_acceptedIn {log : List Effect} {datagram : Bytes} {t : UInt64}
    (h : .accepted j datagram t ∈ log) : datagram ∈ acceptedIn log :=
  List.mem_filterMap.mpr ⟨_, h, rfl⟩

/-- Keys a step derived are none of those held before. -/
theorem Config.KeysHeldApart.fresh {keys : SessionKeys} {t : UInt64}
    (apart : cfg.KeysHeldApart S (w.step S host e).log)
    (h : .derived i keys t ∈ (w.daemon.step S host e).2) : keys.rx ∉ derivedRx w.log := by
  have nodup := apart.derived
  rw [World.step_log, derivedRx, List.filterMap_append, List.nodup_append] at nodup
  exact fun hold => nodup.2.2 _ hold _ (mem_derivedRx h) rfl

/-- A packet accepted in a step that opens under a peer's key was accepted by this peer. -/
theorem Remembers.accepted_own (rem : Remembers S cfg boots w)
    (apart : cfg.KeysHeldApart S (w.step S host e).log) {effects : List Effect}
    (part : OwnPart i effects (w.daemon.step S host e).2) {keys : SessionKeys} {t₀ : UInt64}
    (derived : .derived i keys t₀ ∈ (w.step S host e).log) (j : Nat) (payload : Bytes) (t : UInt64)
    (hnew : .accepted j (sessionMsgData :: payload) t ∈ (w.daemon.step S host e).2)
    (auth' : (authenticates S keys.rx payload).isSome = true) :
    .accepted j (sessionMsgData :: payload) t ∈ effects := by
  obtain ⟨psj, _, _, getj, before, auth⟩ := rem.data_new hnew
  obtain ⟨tj, derivedj⟩ := rem.keys j psj getj before
  have derivedj' : .derived j psj.session.dataKeys tj ∈ (w.step S host e).log :=
    List.mem_append_left _ derivedj
  have hrx := apart.opens _ (mem_acceptedIn (List.mem_append_right _ hnew)) _
    (mem_heldRx_derived (mem_derivedRx derivedj')) _ (mem_heldRx_derived (mem_derivedRx derived))
    (by change (authenticates S _ payload).isSome = true; rw [auth]; rfl) auth'
  have hij := apart.same_peer derivedj' derived hrx
  exact part.whole _ hnew (congrArg some hij)

/-- **The window of an established session has every data packet accepted under its key.** -/
theorem Remembers.windows_step (rem : Remembers S cfg boots w)
    (apart : cfg.KeysHeldApart S (w.step S host e).log)
    (get' : (w.step S host e).daemon.peers[i]? = some ps')
    (established : ps'.session.state = .established) :
    ps'.session.Marked S (w.step S host e).log := by
  obtain ⟨t, derived⟩ := rem.keys_step get' established
  obtain ⟨ps, effects, get, part, did⟩ := Daemon.step_from host e get'
  have own := rem.accepted_own apart part derived
  cases did.data (rem.driven i ps get).reset with
  | pending state => cases state.symm.trans established
  | same before keys window none =>
    obtain ⟨seen, hseen, marked⟩ := rem.windows i ps get before
    refine ⟨seen, by rw [Session.Seen, window]; exact hseen, ?_⟩
    intro j payload plaintext t counter hx auth
    rw [World.step_log, List.mem_append] at hx
    rcases hx with hold | hnew
    · exact marked j payload plaintext t counter hold (keys ▸ auth)
    · exact absurd (own j payload t hnew (by rw [auth]; rfl)) (none j payload t)
  | @opened payload₀ _ counter₀ before auth₀ fresh session only =>
    obtain ⟨seen, hseen, marked⟩ := rem.windows i ps get before
    have keys : ps'.session.dataKeys = ps.session.dataKeys := by
      obtain ⟨window, hw⟩ := replayCheckAndMark_frame ps.session counter₀
      rw [session, hw]
      rfl
    refine ⟨insert counter₀.toNat seen, by rw [session]; exact replayCheckAndMark_seen hseen fresh,
      ?_⟩
    intro j payload plaintext t counter hx auth
    rw [Finset.mem_insert]
    rw [World.step_log, List.mem_append] at hx
    rcases hx with hold | hnew
    · exact .inr (marked j payload plaintext t counter hold (keys ▸ auth))
    · have heq := only j payload t (own j payload t hnew (by rw [auth]; rfl))
      rw [heq, keys, auth₀] at auth
      cases auth
      exact .inl rfl
  | renewed derived' reset none =>
    refine ⟨∅, reset.seen, ?_⟩
    intro j payload plaintext t counter hx auth
    have auth' : (authenticates S ps'.session.dataKeys.rx payload).isSome = true := by
      rw [auth]
      rfl
    rw [World.step_log, List.mem_append] at hx
    rcases hx with hold | hnew
    · -- an old packet opens under an old key
      obtain ⟨k, hk, authk⟩ := rem.data j payload t hold
      have heq := apart.opens _ (mem_acceptedIn (List.mem_append_left _ hold)) k
        (Config.heldRx_mono _ _ (mem_heldRx_derived hk)) _
        (mem_heldRx_derived (mem_derivedRx derived)) authk auth'
      exact absurd (heq ▸ hk) (apart.fresh (part.sub derived'))
    · exact absurd (own j payload t hnew auth') (none j payload t)

/-- **A step keeps everything in mind.** The premises are that the handshake counter of no attempt
wraps in this step, and that the keys held after it are apart. -/
theorem Remembers.step (rem : Remembers S cfg boots w) (aead : S.Aead) (unwrapped : e.Unwrapped w)
    (apart : cfg.KeysHeldApart S (w.step S host e).log) :
    Remembers S cfg boots (w.step S host e) where
  driven := rem.driven.step e
  inits := rem.inits.step e
  launched _ _ := rem.launched_step aead unwrapped
  responses _ _ _ := rem.responses_step aead unwrapped
  keys _ _ := rem.keys_step
  data _ _ _ := rem.data_step
  windows _ _ := rem.windows_step apart

end Step

/-- A daemon that starts has nothing to remember. -/
theorem World.start_remembers {cfg : Config} {boots : Nat → Boot} {clock : UInt64}
    (aead : S.Aead) (seeds : ∀ i, (boots i).time.toNat + 1 < 2 ^ 64)
    (start : World.start S cfg boots clock = some w) : Remembers S cfg boots w := by
  have driven := World.start_driven start
  have unaccepted : ∀ (j : Nat) (datagram : Bytes) (t : UInt64),
      .accepted j datagram t ∉ w.log := by
    intro j datagram t hx
    obtain ⟨_, _, _, h⟩ := World.start_log start hx
    cases h
  have pending : ∀ (i : Nat) (ps : PeerSession), w.daemon.peers[i]? = some ps →
      ps.session.state ≠ .established := by
    intro i ps get
    rw [World.start_pending start get]
    decide
  refine ⟨driven, ?_, ?_, fun j _ t hx => absurd hx (unaccepted j _ t),
    fun i ps get h => absurd h (pending i ps get), fun j _ t hx => absurd hx (unaccepted j _ t),
    fun i ps get h => absurd h (pending i ps get)⟩
  · intro datagram hdatagram
    obtain ⟨x, hx, hinit⟩ := List.mem_filterMap.mp hdatagram
    obtain ⟨_, _, _, rfl⟩ := World.start_log start hx
    cases hinit
  · intro i ps get _ resolved
    obtain ⟨config, effects, _, _, hstart⟩ := World.start_get start get
    obtain ⟨ps₀, hconfig, unresolved, hinit, did⟩ := startPeer_did hstart
    obtain ⟨_, _, hsession⟩ := sessionInit_eq_some hinit
    have role : ps₀.session.role = ps₀.config.role := by
      rw [hsession, hconfig]
      rfl
    have room : ps₀.session.handshakeCounter.toNat + 1 < 2 ^ 64 := by
      rw [hsession]
      exact seeds i
    refine (did.initiator aead role room).launched (fun h => ?_) resolved
    rw [unresolved] at h
    cases h

end EdgarVPN
