import EdgarVPN.Session.Calls
import EdgarVPN.Crypto.Reference

/-!
# Which attempt a response completes

An initiator builds inits, and a response names the one it answers by its counter. What the response
is then combined with is the session's current ephemeral pair. The two belong together only if the
init with the pending counter was built from the current pair, and three functions have a hand in
that: `session_start_handshake` draws a new pair and leaves `pending_handshake_counter` alone,
`session_build_init` sets it, `session_init` clears it.

This module numbers the attempts of an initiator (a call of `session_start_handshake` begins one)
and keeps the inits it built with the number of their attempt (`Attempts`). `Answers` says what an
honest responder could have sent: a response sealed with the counter of one of these inits, from a
pair of its own, with the keys it derived for that init.

**What is proved.** `response_completes_iff`: when `session_handle_response` accepts such a
response, the init it answers is one of the current attempt, and the keys match the responder's,
exactly when the current attempt has built an init. `restarted_attempt_mismatched` is the other
case: a response that arrives between a restart and the next init is accepted, with keys that do not
match.

**What it assumes.** Pairs are drawn by key generation, and no init is built with the counter of an
earlier one (`InitiatorOp.Granted`): `session_init` takes its seed from the wall clock, and two in
one second would repeat it.
-/

set_option autoImplicit false

namespace EdgarVPN

/-- A function called on an initiator's session. -/
inductive InitiatorOp where
  | init (time : UInt64) (kp : KeyPair)
  | startHandshake (kp : KeyPair)
  | buildInit (outLen : Nat)
  | handleResponse (input : Bytes)
  | sealData (plaintext : Bytes) (outLen : Nat)
  | openData (input out : Bytes)
deriving DecidableEq

/-- An init that was built: in which attempt, with which counter, and from which pair. -/
structure Sent where
  attempt : Nat
  counter : UInt64
  pair : KeyPair
deriving DecidableEq

/-- An initiator's session, the number of attempts it has started, and the inits it has built. -/
structure Attempts where
  session : Session
  starts : Nat
  inits : List Sent
deriving DecidableEq

/-- The session after `session_init`, in its first attempt. -/
def Attempts.first (s : Session) : Attempts := ⟨s, 1, []⟩

/-- Make a call. `session_init` is called with the same long-term keys again; what was sent before
it remains sent. -/
def Attempts.step (S : Sodium) (own : KeyPair) (peer : PublicKey) (t : Attempts) :
    InitiatorOp → Attempts
  | .init time kp =>
    match sessionInit S .initiator own.pk own.sk peer time kp with
    | none => { t with session := { Session.zero with role := .initiator } }
    | some s => ⟨s, t.starts + 1, t.inits⟩
  | .startHandshake kp => ⟨sessionStartHandshake kp t.session, t.starts + 1, t.inits⟩
  | .buildInit outLen =>
    match sessionBuildInit S t.session outLen with
    | (s, none) => { t with session := s }
    | (s, some _) =>
      ⟨s, t.starts, t.inits ++ [⟨t.starts, t.session.handshakeCounter, t.session.ephemeral⟩]⟩
  | .handleResponse input => { t with session := (sessionHandleResponse S t.session input).1 }
  | .sealData plaintext outLen =>
    { t with session := (sessionSealData S t.session plaintext outLen).1 }
  | .openData input out => { t with session := (sessionOpenData S t.session input out).session }

/-- What key generation and the clock promise: a pair drawn is one that belongs together, and an
init is built with a counter that no earlier one has. -/
def InitiatorOp.Granted (S : Sodium) (t : Attempts) : InitiatorOp → Prop
  | .init _ kp => kp.Matches S
  | .startHandshake kp => kp.Matches S
  | .buildInit outLen => (sessionBuildInit S t.session outLen).2 ≠ none →
    ∀ sent ∈ t.inits, sent.counter ≠ t.session.handshakeCounter
  | _ => True

instance InitiatorOp.Granted.decidable (S : Sodium) (t : Attempts) :
    ∀ op : InitiatorOp, Decidable (op.Granted S t)
  | .init _ kp => inferInstanceAs (Decidable (kp.Matches S))
  | .startHandshake kp => inferInstanceAs (Decidable (kp.Matches S))
  | .buildInit outLen => inferInstanceAs (Decidable
      ((sessionBuildInit S t.session outLen).2 ≠ none →
        ∀ sent ∈ t.inits, sent.counter ≠ t.session.handshakeCounter))
  | .handleResponse _ => inferInstanceAs (Decidable True)
  | .sealData _ _ => inferInstanceAs (Decidable True)
  | .openData _ _ => inferInstanceAs (Decidable True)

/-- The message is a response that an honest responder could have produced for the init `sent`, from
the ephemeral pair `pair`, when it derived the data keys `keys` for that init. -/
structure Answers (S : Sodium) (t : Attempts) (message : Bytes) (sent : Sent) (pair : KeyPair)
    (keys : SessionKeys) : Prop where
  built : sent ∈ t.inits
  drawn : pair.Matches S
  derived : cryptoDeriveSessionKeys S .responder pair.pk pair.sk sent.pair.pk = some keys
  sealed : ∃ packet outLen, message = sessionMsgHandshakeResponse :: packet ∧
    cryptoSeal S t.session.staticKeys.rx sent.counter pair.pk.bytes outLen = some packet

/-- The current attempt has built an init. -/
def Attempts.Outstanding (t : Attempts) : Prop := ∃ built ∈ t.inits, built.attempt = t.starts

variable {S : Sodium}

/-! ## Counters and pairs stay together -/

/-- The pending counter is that of an init of the current attempt, if there is one, and the inits of
the current attempt were built from the current pair. -/
structure Attempts.Tied (S : Sodium) (t : Attempts) : Prop where
  past : ∀ sent ∈ t.inits, sent.attempt ≤ t.starts
  pending : t.Outstanding → ∃ built ∈ t.inits, built.attempt = t.starts ∧
    built.counter = t.session.pendingHandshakeCounter
  carried : t.session.state = .handshakePending →
    ∀ sent ∈ t.inits, sent.attempt = t.starts → sent.pair = t.session.ephemeral
  drawn : t.session.state = .handshakePending → t.session.ephemeral.Matches S
  distinct : (t.inits.map Sent.counter).Nodup

/-- A call that leaves the pair and the pending counter, or ends the attempt. -/
theorem Attempts.Tied.kept {t : Attempts} (h : t.Tied S) {s : Session}
    (counter : s.pendingHandshakeCounter = t.session.pendingHandshakeCounter)
    (pair : s.state = .handshakePending →
      t.session.state = .handshakePending ∧ s.ephemeral = t.session.ephemeral) :
    Attempts.Tied S { t with session := s } where
  past := h.past
  pending outstanding := by
    obtain ⟨built, hmem, hattempt, hcounter⟩ := h.pending outstanding
    exact ⟨built, hmem, hattempt, hcounter.trans counter.symm⟩
  carried hpending sent hmem hattempt := by
    rw [(pair hpending).2]
    exact h.carried (pair hpending).1 sent hmem hattempt
  drawn hpending := by
    rw [(pair hpending).2]
    exact h.drawn (pair hpending).1
  distinct := h.distinct

/-- A new attempt: no init is of it yet. -/
theorem Attempts.Tied.started {t : Attempts} (h : t.Tied S) {s : Session} {kp : KeyPair}
    (pair : s.ephemeral = kp) (drawn : kp.Matches S) :
    Attempts.Tied S ⟨s, t.starts + 1, t.inits⟩ where
  past sent hmem := Nat.le_succ_of_le (h.past sent hmem)
  pending := by
    rintro ⟨built, hmem, hattempt⟩
    have hpast := h.past built hmem
    have hattempt : built.attempt = t.starts + 1 := hattempt
    omega
  carried _ sent hmem hattempt := by
    have hpast := h.past sent hmem
    have hattempt : sent.attempt = t.starts + 1 := hattempt
    omega
  drawn _ := by
    rw [pair]
    exact drawn
  distinct := h.distinct

/-- An init built in the current attempt becomes the outstanding one. -/
theorem Attempts.Tied.built {t : Attempts} (h : t.Tied S)
    (pending : t.session.state = .handshakePending)
    (fresh : ∀ sent ∈ t.inits, sent.counter ≠ t.session.handshakeCounter) :
    Attempts.Tied S ⟨t.session.built, t.starts,
      t.inits ++ [⟨t.starts, t.session.handshakeCounter, t.session.ephemeral⟩]⟩ where
  past sent hmem := by
    rcases List.mem_append.mp hmem with hmem | hmem
    · exact h.past sent hmem
    · rw [List.mem_singleton.mp hmem]
  pending _ := ⟨_, List.mem_append_right _ (List.mem_singleton_self _), rfl, rfl⟩
  carried _ sent hmem hattempt := by
    rcases List.mem_append.mp hmem with hmem | hmem
    · exact h.carried pending sent hmem hattempt
    · rw [List.mem_singleton.mp hmem]
      rfl
  drawn _ := h.drawn pending
  distinct := by
    show ((t.inits ++ [_]).map Sent.counter).Nodup
    rw [List.map_append, List.map_singleton, List.nodup_append]
    refine ⟨h.distinct, List.nodup_singleton _, fun c hc c' hc' => ?_⟩
    obtain ⟨sent, hmem, rfl⟩ := List.mem_map.mp hc
    rw [List.mem_singleton.mp hc']
    exact fresh sent hmem

/-- Every call keeps them together. -/
theorem Attempts.Tied.step {own : KeyPair} {peer : PublicKey} {static : SessionKeys}
    (derived : cryptoDeriveSessionKeys S .initiator own.pk own.sk peer = some static)
    {t : Attempts} (h : t.Tied S) (op : InitiatorOp) (granted : op.Granted S t) :
    (t.step S own peer op).Tied S := by
  cases op with
  | init time kp =>
    have hinit : sessionInit S .initiator own.pk own.sk peer time kp =
        some (sessionStartHandshake kp { Session.zero with
          role := .initiator, staticKeys := static, handshakeCounter := time }) := by
      simp only [sessionInit, derived]
    simp only [Attempts.step, hinit]
    exact h.started (start_ephemeral kp _) granted
  | startHandshake kp => exact h.started (start_ephemeral kp _) granted
  | buildInit outLen =>
    have outcome := sessionBuildInit_outcome (S := S) t.session outLen
    simp only [InitiatorOp.Granted] at granted
    simp only [Attempts.step]
    generalize sessionBuildInit S t.session outLen = result at outcome granted
    cases outcome with
    | refused => exact h
    | built role pending => exact h.built pending (granted (Option.some_ne_none _))
  | handleResponse input =>
    have outcome := sessionHandleResponse_outcome (S := S) t.session input
    simp only [Attempts.step]
    generalize sessionHandleResponse S t.session input = result at outcome
    cases outcome with
    | refused => exact h
    | accepted => exact h.kept rfl fun pending => by cases pending
  | sealData plaintext outLen =>
    have outcome := sessionSealData_outcome (S := S) t.session plaintext outLen
    simp only [Attempts.step]
    generalize sessionSealData S t.session plaintext outLen = result at outcome
    cases outcome with
    | refused => exact h
    | unreturned => exact h.kept rfl fun pending => ⟨pending, rfl⟩
    | sealed => exact h.kept rfl fun pending => ⟨pending, rfl⟩
  | openData input out =>
    have outcome := sessionOpenData_outcome (S := S) t.session input out
    simp only [Attempts.step]
    generalize sessionOpenData S t.session input out = result at outcome
    cases outcome with
    | refused => exact h
    | @opened payload plaintext counter =>
      obtain ⟨w, hw⟩ := replayCheckAndMark_frame t.session counter
      simp only [hw]
      exact h.kept rfl fun pending => ⟨pending, rfl⟩

theorem Attempts.Tied.first {own : KeyPair} {peer : PublicKey} {time : UInt64} {kp : KeyPair}
    {s : Session} (init : sessionInit S .initiator own.pk own.sk peer time kp = some s)
    (drawn : kp.Matches S) : (Attempts.first s).Tied S := by
  obtain ⟨static, _, rfl⟩ := sessionInit_eq_some init
  exact {
    past := fun _ hmem => absurd hmem List.not_mem_nil
    pending := fun ⟨_, hmem, _⟩ => absurd hmem List.not_mem_nil
    carried := fun _ _ hmem => absurd hmem List.not_mem_nil
    drawn := fun _ => drawn
    distinct := List.nodup_nil }

/-! ## The response -/

/-- The init an accepted response answers is the one with the pending counter, and the key it
carries is the responder's. -/
theorem Answers.read (aead : S.Aead) {t : Attempts} {message : Bytes} {sent : Sent}
    {pair : KeyPair} {keys : SessionKeys} (answers : Answers S t message sent pair keys)
    {peer : PublicKey} (read : sessionReadResponse S t.session message = some peer) :
    sent.counter = t.session.pendingHandshakeCounter ∧ peer = pair.pk := by
  obtain ⟨packet, outLen, rfl, hseal⟩ := answers.sealed
  obtain ⟨-, -, payload, hmessage, hauth⟩ := sessionReadResponse_eq_some read
  cases hmessage
  rw [authenticates_cryptoSeal aead hseal] at hauth
  obtain ⟨hpk, hcounter⟩ := Prod.mk.inj (Option.some.inj hauth)
  refine ⟨hcounter, ?_⟩
  have hblock := congrArg (Block.ofBytes? cryptoPublicKeyBytes) hpk
  rw [Block.ofBytes?_bytes, Block.ofBytes?_bytes] at hblock
  exact (Option.some.inj hblock).symm

/-- **When a response completes the attempt it answers.** Take any calls on an initiator's session,
and then an honest response that `session_handle_response` accepts. The init it answers was built
after the latest `session_start_handshake`, and the data keys are those the responder derived for
it, exactly when an init was built after the latest `session_start_handshake`. -/
theorem response_completes_iff (aead : S.Aead) (kx : S.Kx) {own : KeyPair} {peer : PublicKey}
    {time : UInt64} {kp : KeyPair} {s : Session}
    (init : sessionInit S .initiator own.pk own.sk peer time kp = some s)
    (drawn : kp.Matches S) (ops : List InitiatorOp)
    (granted : Runs.Admitted (Attempts.step S own peer) (fun t op => op.Granted S t)
      (Attempts.first s) ops)
    {message : Bytes} {sent : Sent} {pair : KeyPair} {keys : SessionKeys}
    (answers : Answers S (ops.foldl (Attempts.step S own peer) (Attempts.first s)) message sent
      pair keys)
    (accepted : (sessionHandleResponse S
      (ops.foldl (Attempts.step S own peer) (Attempts.first s)).session message).2 = true) :
    (sent.attempt = (ops.foldl (Attempts.step S own peer) (Attempts.first s)).starts ∧
      (sessionHandleResponse S
        (ops.foldl (Attempts.step S own peer) (Attempts.first s)).session message).1.dataKeys =
        keys.swap) ↔
    (ops.foldl (Attempts.step S own peer) (Attempts.first s)).Outstanding := by
  obtain ⟨static, derived, -⟩ := sessionInit_eq_some init
  have tied : Attempts.Tied S (ops.foldl (Attempts.step S own peer) (Attempts.first s)) :=
    Runs.invariant_foldl (fun t op h g => h.step derived op g) (Attempts.Tied.first init drawn)
      granted
  generalize ops.foldl (Attempts.step S own peer) (Attempts.first s) = t at *
  constructor
  · intro ⟨hattempt, _⟩
    exact ⟨sent, answers.built, hattempt⟩
  · intro outstanding
    have outcome := sessionHandleResponse_outcome (S := S) t.session message
    generalize sessionHandleResponse S t.session message = result at outcome accepted
    cases outcome with
    | refused => cases accepted
    | @accepted remote dataKeys read hderive =>
      obtain ⟨hrole, hpending, -⟩ := sessionReadResponse_eq_some read
      obtain ⟨hcounter, rfl⟩ := answers.read aead read
      -- the init with the pending counter is of this attempt, and counters tell inits apart
      obtain ⟨built, hmem, hattempt, hbuilt⟩ := tied.pending outstanding
      have hsame : sent = built :=
        List.inj_on_of_nodup_map tied.distinct answers.built hmem (hcounter.trans hbuilt.symm)
      subst hsame
      refine ⟨hattempt, ?_⟩
      have hpair := tied.carried hpending sent hmem hattempt
      obtain ⟨agreed, hclient, hserver⟩ := cryptoDeriveSessionKeys_agree kx
        (tied.drawn hpending) answers.drawn
      have hkeys : some keys = some agreed.swap := by
        rw [← answers.derived, ← hserver, hpair]
      rw [hrole] at hderive
      have hdata : some dataKeys = some agreed := by
        rw [← hderive, ← hclient]
        rfl
      show dataKeys = keys.swap
      rw [Option.some.inj hkeys, Option.some.inj hdata]
      rfl

/-- An initiator over the reference library, in its first attempt. -/
def attemptsSession : Session :=
  (sessionInit reference .initiator (referencePair 1).pk (referencePair 1).sk (referencePair 2).pk
    100 (referencePair 3)).getD Session.zero

/-- The initiator after some calls. -/
def attemptsAfter (ops : List InitiatorOp) : Attempts :=
  ops.foldl (Attempts.step reference (referencePair 1) (referencePair 2).pk)
    (Attempts.first attemptsSession)

/-- A responder's answer to the init with a counter, from the pair 4. -/
def attemptsResponse (counter : UInt64) : Bytes :=
  sessionMsgHandshakeResponse ::
    (cryptoSeal reference attemptsSession.staticKeys.rx counter (referencePair 4).pk.bytes 56).getD
      []

/-- The keys the responder derives for an init that carries a key. -/
def attemptsKeys (pk : PublicKey) : SessionKeys :=
  (cryptoDeriveSessionKeys reference .responder (referencePair 4).pk (referencePair 4).sk
    pk).getD ⟨Block.zero _, Block.zero _⟩

theorem attemptsSession_init :
    sessionInit reference .initiator (referencePair 1).pk (referencePair 1).sk
      (referencePair 2).pk 100 (referencePair 3) = some attemptsSession := by
  decide +kernel

/-- A restart, and an init of the second attempt: its response completes it. -/
theorem response_completes_iff_second :
    (attemptsAfter [.buildInit 57, .startHandshake (referencePair 5), .buildInit 57]).Outstanding ∧
    (2 = (attemptsAfter [.buildInit 57, .startHandshake (referencePair 5), .buildInit 57]).starts ∧
      (sessionHandleResponse reference
        (attemptsAfter [.buildInit 57, .startHandshake (referencePair 5), .buildInit 57]).session
        (attemptsResponse 101)).1.dataKeys = (attemptsKeys (referencePair 5).pk).swap) := by
  have outstanding : (attemptsAfter [.buildInit 57, .startHandshake (referencePair 5),
      .buildInit 57]).Outstanding :=
    ⟨⟨2, 101, referencePair 5⟩, by decide +kernel, by decide +kernel⟩
  have answers : Answers reference (attemptsAfter [.buildInit 57,
      .startHandshake (referencePair 5), .buildInit 57]) (attemptsResponse 101)
      ⟨2, 101, referencePair 5⟩ (referencePair 4) (attemptsKeys (referencePair 5).pk) :=
    ⟨by decide +kernel, by decide +kernel, by decide +kernel, _, 56, rfl, by decide +kernel⟩
  exact ⟨outstanding, (response_completes_iff reference_aead reference_kx attemptsSession_init
    (by decide +kernel) _ (by decide +kernel) answers (by decide +kernel)).mpr outstanding⟩

/-- **A response can complete an attempt it does not answer.** The initiator builds its init with
counter 100, restarts, and receives the response to that init before it has built the next one: the
response is accepted, the init it answers is of the attempt before, and the data keys are not those
of the responder. -/
theorem restarted_attempt_mismatched :
    Runs.Admitted (Attempts.step reference (referencePair 1) (referencePair 2).pk)
      (fun t op => op.Granted reference t) (Attempts.first attemptsSession)
      [.buildInit 57, .startHandshake (referencePair 5)] ∧
    Answers reference (attemptsAfter [.buildInit 57, .startHandshake (referencePair 5)])
      (attemptsResponse 100) ⟨1, 100, referencePair 3⟩ (referencePair 4)
      (attemptsKeys (referencePair 3).pk) ∧
    (sessionHandleResponse reference
      (attemptsAfter [.buildInit 57, .startHandshake (referencePair 5)]).session
      (attemptsResponse 100)).2 = true ∧
    (attemptsAfter [.buildInit 57, .startHandshake (referencePair 5)]).starts = 2 ∧
    (sessionHandleResponse reference
      (attemptsAfter [.buildInit 57, .startHandshake (referencePair 5)]).session
      (attemptsResponse 100)).1.dataKeys ≠ (attemptsKeys (referencePair 3).pk).swap := by
  refine ⟨by decide +kernel, ⟨by decide +kernel, by decide +kernel, by decide +kernel, _, 56, rfl,
    by decide +kernel⟩, by decide +kernel, by decide +kernel, by decide +kernel⟩

end EdgarVPN
