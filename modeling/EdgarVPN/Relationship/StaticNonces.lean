import EdgarVPN.Relationship.Agreement

/-!
# Nonces under the static keys, across restarts

The static keys are the same in every life of a process. The initiator never seals two inits with
one counter, because a restart seeds its counter above all it used. The responder takes its counter
from the init it answers, and forgets which ones it answered when it restarts: replaying an init to
a restarted responder makes it seal a second, different ephemeral key under the same key and counter
(`restarted_responder_reuses_nonce`).

Within one life the check of `session_handle_init` is enough: every response of this life has a
counter at or below the highest one accepted, and an init has to be above it (`Answered`). What the
check cannot see is what was sealed before the latest restart. It is remembered here beside the run
(`earlierResponses`), and the condition of the theorem is about these responses only.

**What is proved.** `staticNonces_apart`: over any granted run, with restarts of both sides, no
static key seals two different ephemeral keys with one counter if every init that passes the
responder's checks has a counter no response sealed before its latest restart carries
(`Move.Unanswered`); where drawn pairs are fresh, only then; and a responder that does not restart
needs no condition.
-/

set_option autoImplicit false

namespace EdgarVPN

/-- No two handshake messages share a static key and a counter, unless they carry the same key. -/
def Relationship.NoncesApart (r : Relationship) : Prop :=
  ∀ m ∈ r.inits ++ r.responses, ∀ m' ∈ r.inits ++ r.responses,
    m.key = m'.key → m.counter = m'.counter → m.pk = m'.pk

instance (r : Relationship) : Decidable r.NoncesApart :=
  inferInstanceAs (Decidable (∀ m ∈ r.inits ++ r.responses, ∀ m' ∈ r.inits ++ r.responses, _))

/-- An init that passes the responder's checks has a counter that none of these responses
carries. -/
def Move.Unanswered (S : Sodium) (r : Relationship) (old : List HandshakeSeal) : Move → Prop
  | .responder (.handleInit _ input outLen) =>
    ∀ x ∈ sessionReadInit S r.responder.session input outLen, ∀ m ∈ old, m.counter ≠ x.2
  | _ => True

instance (S : Sodium) (r : Relationship) (old : List HandshakeSeal) :
    ∀ m : Move, Decidable (m.Unanswered S r old)
  | .responder (.handleInit _ input outLen) =>
    inferInstanceAs (Decidable (∀ x ∈ sessionReadInit S r.responder.session input outLen, _))
  | .responder (.startHandshake _) | .responder (.buildInit _) | .responder (.handleResponse _)
  | .responder (.sealData ..) | .responder (.openData ..) | .initiator _ | .initiate _
  | .restartInitiator .. | .restartResponder .. => inferInstanceAs (Decidable True)

/-- The responses sealed before the latest restart of the responder, after a move: a restart turns
all that were sealed into earlier ones. -/
def earlierResponses (r : Relationship) (earlier : List HandshakeSeal) : Move → List HandshakeSeal
  | .restartResponder .. => r.responses
  | .initiator _ | .responder _ | .initiate _ | .restartInitiator .. => earlier

/-- A move, with the responses of earlier lives of the responder remembered beside the
relationship. -/
def Relationship.stepLives (S : Sodium) (ids : Identities) :
    Relationship × List HandshakeSeal → Move → Relationship × List HandshakeSeal :=
  Runs.remember (Relationship.step S ids) earlierResponses

variable {S : Sodium} {ids : Identities} {keys : SessionKeys} {r : Relationship}
  {earlier : List HandshakeSeal}

/-! ## What a move adds to the responses -/

/-- The responses after a move are those before it, and one more if the responder answered. -/
inductive Responded (S : Sodium) (r r' : Relationship) (m : Move) : Prop
  | same (responses : r'.responses = r.responses)
  | answered {kp : KeyPair} {input : Bytes} {outLen : Nat} {peer : PublicKey} {counter : UInt64}
      {packet : Bytes} (move : m = .responder (.handleInit kp input outLen))
      (read : sessionReadInit S r.responder.session input outLen = some (peer, counter))
      (responses : r'.responses = r.responses ++ [⟨r.responder.session.staticKeys.tx, counter,
        (r.responder.session.reattempt kp).localEphPk, packet⟩])

theorem Relationship.step_responded (aead : S.Aead) (ids : Identities) (h : Ordered S keys r)
    (m : Move) :
    Responded S r (r.step S ids m) m := by
  cases m with
  | initiator c => exact .same rfl
  | responder c =>
    have hseals := Traced.call_handshakeSeals (S := S) r.responder c
    have did := responderCall_did aead h.responderRole c
    generalize hacts : handshakeSeals (sessionActs S r.responder.session c) = seals at did hseals
    generalize sessionCall S r.responder.session c = s' at did
    cases did with
    | answered read => exact .answered rfl read hseals
    | _ => exact .same (hseals.trans (List.append_nil _))
  | initiate kp => exact .same rfl
  | restartInitiator time kp => exact .same rfl
  | restartResponder time kp => exact .same (Traced.restart_handshakeSeals ..)

/-! ## Within one life -/

/-- What a responder sealed in a call is at or below the highest counter it accepted, and that one
never falls. -/
theorem ResponderDid.remembers {s s' : Session} {c : Call} {seals : List HandshakeSeal}
    (did : ResponderDid S s c s' seals) :
    (∀ m ∈ seals, s'.haveSeenHandshake = true ∧ m.counter ≤ s'.highestHandshakeCounterSeen) ∧
      (s.haveSeenHandshake = true → s'.haveSeenHandshake = true ∧
        s.highestHandshakeCounterSeen ≤ s'.highestHandshakeCounterSeen) := by
  cases did with
  | nothing => exact ⟨nofun, fun seen => ⟨seen, UInt64.le_refl _⟩⟩
  | started kp => exact ⟨nofun, fun seen => ⟨seen, UInt64.le_refl _⟩⟩
  | @underived kp =>
    refine ⟨nofun, fun seen => ?_⟩
    rw [reattempt_haveSeenHandshake, reattempt_highestHandshakeCounterSeen]
    exact ⟨seen, UInt64.le_refl _⟩
  | @answered kp input outLen peer counter keys packet read =>
    obtain ⟨_, _, _, _, _, above⟩ := sessionReadInit_eq_some read
    refine ⟨fun m hm => ?_, fun seen => ⟨rfl, UInt64.le_of_lt (above seen)⟩⟩
    cases List.mem_singleton.mp hm
    exact ⟨rfl, UInt64.le_refl _⟩
  | data => exact ⟨nofun, fun seen => ⟨seen, UInt64.le_refl _⟩⟩

/-- Every response is of an earlier life, or at or below the highest counter that this life has
accepted. -/
def Answered (r : Relationship) (earlier : List HandshakeSeal) : Prop :=
  ∀ m ∈ r.responses, m ∈ earlier ∨ (r.responder.session.haveSeenHandshake = true ∧
    m.counter ≤ r.responder.session.highestHandshakeCounterSeen)

theorem Answered.step (aead : S.Aead) (ids : Identities) (h : Ordered S keys r)
    (answered : Answered r earlier) (m : Move) :
    Answered (r.step S ids m) (earlierResponses r earlier m) := by
  cases m with
  | initiator c => exact answered
  | responder c =>
    have remembers := (responderCall_did aead h.responderRole c).remembers
    intro m (hm : m ∈ handshakeSeals (r.responder.call S c).log)
    rw [Traced.call_handshakeSeals] at hm
    rcases List.mem_append.mp hm with hm | hm
    · refine (answered m hm).imp_right fun old => ?_
      obtain ⟨seen, higher⟩ := remembers.2 old.1
      exact ⟨seen, UInt64.le_trans old.2 higher⟩
    · exact .inr (remembers.1 m hm)
  | initiate kp => exact answered
  | restartInitiator time kp => exact answered
  | restartResponder time kp =>
    intro m (hm : m ∈ handshakeSeals (r.responder.restart ..).log)
    rw [Traced.restart_handshakeSeals] at hm
    exact .inl hm

/-- **The check of one life.** An init that passes it is above every response of this life, so one
that meets no response of an earlier life meets none at all. -/
theorem Move.Unanswered.all {m : Move} (h : m.Unanswered S r earlier)
    (answered : Answered r earlier) : m.Unanswered S r r.responses := by
  unfold Move.Unanswered at h ⊢
  split
  · intro x read old hold heq
    rcases answered old hold with before | ⟨seen, low⟩
    · exact h x read old before heq
    · obtain ⟨_, _, _, _, _, above⟩ := sessionReadInit_eq_some read
      exact UInt64.not_le.mpr (above seen) (heq ▸ low)
  · trivial

theorem Move.Unanswered.of_subset {m : Move} {old : List HandshakeSeal}
    (h : m.Unanswered S r old) (sub : earlier ⊆ old) : m.Unanswered S r earlier := by
  unfold Move.Unanswered at h ⊢
  split
  · exact fun x read y hy => h x read y (sub hy)
  · trivial

/-! ## Enough -/

/-- Two responses with one counter carry one key. -/
def Relationship.ResponsesApart (r : Relationship) : Prop :=
  ∀ m ∈ r.responses, ∀ m' ∈ r.responses, m.counter = m'.counter → m.pk = m'.pk

theorem Relationship.ResponsesApart.step (aead : S.Aead) (h : Ordered S keys r)
    (apart : r.ResponsesApart) {m : Move} (unanswered : m.Unanswered S r r.responses) :
    (r.step S ids m).ResponsesApart := by
  have responded := Relationship.step_responded aead ids h m
  generalize r.step S ids m = r' at responded
  cases responded with
  | same responses =>
    unfold Relationship.ResponsesApart
    rw [responses]
    exact apart
  | answered move read responses =>
    subst move
    have new : ∀ x ∈ r.responses, x.counter ≠ _ := unanswered _ read
    intro x hx x' hx' hcounter
    rw [responses] at hx hx'
    rcases List.mem_append.mp hx with hx | hx <;> rcases List.mem_append.mp hx' with hx' | hx'
    · exact apart x hx x' hx' hcounter
    · cases List.mem_singleton.mp hx'
      exact absurd hcounter (new x hx)
    · cases List.mem_singleton.mp hx
      exact absurd hcounter.symm (new x' hx')
    · cases List.mem_singleton.mp hx
      cases List.mem_singleton.mp hx'
      rfl

/-- The keys of the two directions are apart, so only messages of one side can meet. -/
theorem Ordered.noncesApart_iff (split : keys.rx ≠ keys.tx) (h : Ordered S keys r) :
    r.NoncesApart ↔ r.ResponsesApart := by
  constructor
  · intro apart m hm m' hm' hcounter
    exact apart m (List.mem_append_right _ hm) m' (List.mem_append_right _ hm')
      ((h.responses m hm).1.trans (h.responses m' hm').1.symm) hcounter
  · intro apart m hm m' hm' hkey hcounter
    rcases List.mem_append.mp hm with hi | hr
    · have hi' := h.mem_inits split hm' (hkey.symm.trans (h.inits m hi).1)
      exact h.apart m hi m' hi' hcounter
    · have hr' := h.mem_responses split hm' (hkey.symm.trans (h.responses m hr).1)
      exact apart m hr m' hr' hcounter

/-! ## Necessary, where pairs are fresh -/

/-- The pairs of a responder enter one response each. -/
structure PairsSpent (t : Traced) : Prop where
  drawn : ∀ m ∈ handshakeSeals t.log, m.pk ∈ generatedKeys t.log
  current : t.session.localEphPk ∈ generatedKeys t.log
  unspent : t.session.state = .handshakePending →
    ∀ m ∈ handshakeSeals t.log, m.pk ≠ t.session.localEphPk

/-- A pair just drawn is in no response. -/
theorem PairsSpent.draw {s s' : Session} {log : List Act} (h : PairsSpent ⟨s, log⟩) {kp : KeyPair}
    (fresh : (generatedKeys (log ++ [.generated kp.pk])).Nodup) (pair : s'.localEphPk = kp.pk) :
    PairsSpent ⟨s', log ++ [.generated kp.pk]⟩ := by
  have hgen : generatedKeys (log ++ [.generated kp.pk]) = generatedKeys log ++ [kp.pk] :=
    generatedKeys_append ..
  have hseals : handshakeSeals (log ++ [.generated kp.pk]) = handshakeSeals log :=
    (handshakeSeals_append ..).trans (List.append_nil _)
  rw [hgen] at fresh
  refine ⟨fun m hm => ?_, ?_, fun _ m hm heq => ?_⟩
  · rw [hseals] at hm
    rw [hgen]
    exact List.mem_append_left _ (h.drawn m hm)
  · rw [hgen, pair]
    exact List.mem_append_right _ (List.mem_singleton_self _)
  · rw [hseals] at hm
    rw [pair] at heq
    exact (List.nodup_append.mp fresh).2.2 m.pk (h.drawn m hm) kp.pk
      (List.mem_singleton_self _) heq

theorem PairsSpent.reattempt {s : Session} {log : List Act} (h : PairsSpent ⟨s, log⟩) {kp : KeyPair}
    (fresh : (generatedKeys (log ++ s.redrawn kp)).Nodup) :
    PairsSpent ⟨s.reattempt kp, log ++ s.redrawn kp⟩ := by
  unfold Session.redrawn Session.reattempt at *
  split at fresh
  · next established =>
    simp only [established, if_true]
    exact h.draw fresh rfl
  · next pending =>
    simp only [pending, if_false, List.append_nil]
    exact h

/-- Log entries that draw no pair and seal no response leave the pairs as they were. -/
theorem PairsSpent.quiet {s s' : Session} {log acts : List Act} (h : PairsSpent ⟨s, log⟩)
    (generated : generatedKeys acts = []) (seals : handshakeSeals acts = [])
    (pair : s'.localEphPk = s.localEphPk)
    (state : s'.state = .handshakePending → s.state = .handshakePending) :
    PairsSpent ⟨s', log ++ acts⟩ := by
  have hgen : generatedKeys (log ++ acts) = generatedKeys log := by
    rw [generatedKeys_append, generated, List.append_nil]
  have hseals : handshakeSeals (log ++ acts) = handshakeSeals log := by
    rw [handshakeSeals_append, seals, List.append_nil]
  constructor
  · simp only [hgen, hseals]
    exact h.drawn
  · simp only [hgen, pair]
    exact h.current
  · intro hp
    simp only [hseals, pair]
    exact h.unspent (state hp)

theorem PairsSpent.call {t : Traced} (role : t.session.role = .responder) (h : PairsSpent t)
    {c : Call} (fresh : (generatedKeys (t.call S c).log).Nodup) : PairsSpent (t.call S c) := by
  obtain ⟨s, log⟩ := t
  simp only [Traced.call] at fresh ⊢
  have did := sessionCall_did (S := S) s c
  generalize sessionCall S s c = s' at did ⊢
  generalize sessionActs S s c = acts at did fresh ⊢
  cases did with
  | nothing => exact h.quiet rfl rfl rfl id
  | started kp => exact h.draw fresh rfl
  | built hrole => cases role.symm.trans hrole
  | underived => exact h.reattempt fresh
  | @unsealed kp =>
    have hre := h.reattempt fresh
    exact ⟨hre.drawn, hre.current, fun _ => hre.unspent (reattempt_state kp s)⟩
  | @answered kp input outLen peer counter keys packet =>
    rw [← List.append_assoc] at fresh ⊢
    have hgen : generatedKeys ((log ++ s.redrawn kp) ++
        [.derived (s.reattempt kp).localEphPk peer keys, .sealedHandshake s.staticKeys.tx counter
          (s.reattempt kp).localEphPk packet]) = generatedKeys (log ++ s.redrawn kp) :=
      (generatedKeys_append ..).trans (List.append_nil _)
    rw [hgen] at fresh
    have hre := h.reattempt fresh
    refine ⟨fun m hm => ?_, ?_, fun state => by cases state⟩
    · rw [hgen]
      rw [handshakeSeals_append] at hm
      rcases List.mem_append.mp hm with hm | hm
      · exact hre.drawn m hm
      · cases List.mem_singleton.mp hm
        exact hre.current
    · rw [hgen]
      exact hre.current
  | completed read => cases role.symm.trans (sessionReadResponse_eq_some read).1
  | sealed established => exact h.quiet rfl rfl rfl id
  | @opened payload plaintext out counter =>
    obtain ⟨w, hw⟩ := replayCheckAndMark_frame s counter
    rw [hw]
    exact h.quiet rfl rfl rfl id

theorem PairsSpent.step (h : Ordered S keys r) (spent : PairsSpent r.responder) {m : Move}
    (derive : ids.Derive S keys)
    (fresh : (generatedKeys (r.step S ids m).responder.log).Nodup) :
    PairsSpent (r.step S ids m).responder := by
  cases m with
  | initiator c => exact spent
  | responder c => exact spent.call h.responderRole fresh
  | initiate kp => exact spent
  | restartInitiator time kp => exact spent
  | restartResponder time kp =>
    have hsession := Traced.restart_session time kp r.responder derive.responder
    simp only [Relationship.step, Traced.restart, sessionInit, derive.responder] at fresh ⊢
    exact spent.draw fresh rfl

/-- An init that passes the checks is answered: its counter enters the responses, with the pair the
responder holds or draws. -/
theorem Ordered.answers (aead : S.Aead) (kx : S.Kx) (ids : Identities) (h : Ordered S keys r)
    {kp : KeyPair} {input : Bytes} {outLen : Nat} {peer : PublicKey} {counter : UInt64}
    (drawn : kp.Matches S) (genuine : r.Genuine S r.responder.session.staticKeys.rx input.tail)
    (read : sessionReadInit S r.responder.session input outLen = some (peer, counter)) :
    ∃ packet, (r.step S ids (.responder (.handleInit kp input outLen))).responses =
      r.responses ++ [⟨r.responder.session.staticKeys.tx, counter,
        (r.responder.session.reattempt kp).localEphPk, packet⟩] := by
  obtain ⟨m, hm, _, _, rfl⟩ := h.readInit read genuine
  obtain ⟨data, hdata⟩ := h.derives kx drawn (h.origin hm).2
  obtain ⟨packet, _, hanswer⟩ := sessionHandleInit_isSome aead read
    (by rw [reattempt_role, h.responderRole]; exact hdata)
  refine ⟨packet, (Traced.call_handshakeSeals ..).trans (congrArg _ ?_)⟩
  simp only [sessionActs, read, hanswer, handshakeSeals_append, answered_staticKeys,
    reattempt_staticKeys]
  change handshakeSeals (r.responder.session.redrawn kp) ++ _ = _
  rw [redrawn_handshakeSeals, List.nil_append]
  rfl

/-- A move that reuses no nonce answers no counter twice, where pairs are fresh. -/
theorem Ordered.unanswered (aead : S.Aead) (kx : S.Kx) (h : Ordered S keys r)
    (spent : PairsSpent r.responder) {m : Move} (granted : m.Granted S r)
    (fresh : (generatedKeys (r.step S ids m).responder.log).Nodup)
    (apart : (r.step S ids m).ResponsesApart) : m.Unanswered S r r.responses := by
  obtain ⟨unforged, drawn, _, _⟩ := granted
  cases m with
  | responder c =>
    cases c with
    | handleInit kp input outLen =>
      intro x hx old hold hcounter
      obtain ⟨packet, hresponses⟩ := h.answers aead kx ids drawn unforged hx
      have hsame := apart old (by rw [hresponses]; exact List.mem_append_left _ hold) _
        (by rw [hresponses]; exact List.mem_append_right _ (List.mem_singleton_self _)) hcounter
      have hredrawn :
          (generatedKeys (r.responder.log ++ r.responder.session.redrawn kp)).Nodup := by
        have hacts : ∃ rest, sessionActs S r.responder.session (.handleInit kp input outLen) =
            r.responder.session.redrawn kp ++ rest := by
          simp only [sessionActs, Option.mem_def.mp hx]
          exact ⟨_, rfl⟩
        obtain ⟨rest, hrest⟩ := hacts
        simp only [Relationship.step, Traced.call, hrest, ← List.append_assoc] at fresh
        rw [generatedKeys_append] at fresh
        exact fresh.of_append_left
      have hre := spent.reattempt hredrawn
      refine hre.unspent (reattempt_state ..) old ?_ hsame
      rw [handshakeSeals_append]
      exact List.mem_append_left _ hold
    | _ => trivial
  | _ => trivial

/-! ## Over runs -/

/-- Fresh pairs and separate responses reach back over a move. -/
theorem Relationship.step_back (S : Sodium) (ids : Identities) (r : Relationship) (m : Move)
    (h : (generatedKeys (r.step S ids m).responder.log).Nodup ∧ (r.step S ids m).ResponsesApart) :
    (generatedKeys r.responder.log).Nodup ∧ r.ResponsesApart := by
  obtain ⟨_, acts, hlog⟩ := r.step_log S ids m
  have sub : ∀ x ∈ r.responses, x ∈ (r.step S ids m).responses := fun x hx => by
    rw [Relationship.responses, hlog, handshakeSeals_append]
    exact List.mem_append_left _ hx
  refine ⟨?_, fun x hx x' hx' => h.2 x (sub x hx) x' (sub x' hx')⟩
  have fresh := h.1
  rw [hlog, generatedKeys_append] at fresh
  exact fresh.of_append_left

/-- The responses of earlier lives are among those sealed. -/
theorem earlierResponses_subset (S : Sodium) (ids : Identities) (sub : earlier ⊆ r.responses)
    (m : Move) : earlierResponses r earlier m ⊆ (r.step S ids m).responses := by
  obtain ⟨_, acts, hlog⟩ := r.step_log S ids m
  have kept : r.responses ⊆ (r.step S ids m).responses := by
    rw [Relationship.responses, Relationship.responses, hlog, handshakeSeals_append]
    exact List.subset_append_left ..
  cases m with
  | restartResponder time kp => exact kept
  | _ => exact List.Subset.trans sub kept

/-- Inits that repeat no counter of an earlier life's response lead to no shared nonce. -/
theorem Ordered.noncesApart_run (aead : S.Aead) (derive : ids.Derive S keys)
    (split : keys.rx ≠ keys.tx) (ordered : Ordered S keys r) (unsealed : r.responses = [])
    {moves : List Move}
    (granted : Runs.Admitted (Relationship.step S ids) (fun r m => m.Granted S r) r moves)
    (unanswered : Runs.Admitted (Relationship.stepLives S ids) (fun x m => m.Unanswered S x.1 x.2)
      (r, []) moves) :
    (moves.foldl (Relationship.step S ids) r).NoncesApart := by
  have hrun := Runs.invariant_foldl
    (I := fun x : Relationship × List HandshakeSeal =>
      Ordered S keys x.1 ∧ x.1.ResponsesApart ∧ Answered x.1 x.2)
    (fun x m h g => ⟨h.1.step aead derive g.1, h.2.1.step aead h.1 (g.2.all h.2.2),
      h.2.2.step aead ids h.1 m⟩)
    ⟨ordered, by rw [Relationship.ResponsesApart, unsealed]; exact nofun,
      by rw [Answered, unsealed]; exact nofun⟩
    ((Runs.admitted_remember earlierResponses [] granted).and unanswered)
  rw [Runs.foldl_remember] at hrun
  exact (hrun.1.noncesApart_iff split).mpr hrun.2.1

/-- The converse, where the responder's pairs are fresh: a second response under an old counter
would carry another key. -/
theorem Ordered.unanswered_run (aead : S.Aead) (kx : S.Kx) (derive : ids.Derive S keys)
    (split : keys.rx ≠ keys.tx) (ordered : Ordered S keys r) (spent : PairsSpent r.responder)
    {moves : List Move}
    (granted : Runs.Admitted (Relationship.step S ids) (fun r m => m.Granted S r) r moves)
    (fresh : (generatedKeys (moves.foldl (Relationship.step S ids) r).responder.log).Nodup)
    (apart : (moves.foldl (Relationship.step S ids) r).NoncesApart) :
    Runs.Admitted (Relationship.stepLives S ids) (fun x m => m.Unanswered S x.1 x.2) (r, [])
      moves := by
  have hend := ordered_run aead derive ordered granted
  have kept := Runs.admitted_of_end
    (Q := fun r : Relationship => (generatedKeys r.responder.log).Nodup ∧ r.ResponsesApart)
    (Relationship.step_back S ids) ⟨fresh, (hend.noncesApart_iff split).mp apart⟩
  exact Runs.Admitted.of_invariant
    (I := fun x => Ordered S keys x.1 ∧ PairsSpent x.1.responder ∧ x.2 ⊆ x.1.responses)
    (fun x m h g => ⟨h.1.step aead derive g.1, h.2.1.step h.1 derive g.2.1,
      earlierResponses_subset S ids h.2.2 m⟩)
    (fun x m h g => (h.1.unanswered aead kx h.2.1 g.1 g.2.1 g.2.2).of_subset h.2.2)
    ⟨ordered, spent, List.nil_subset _⟩
    (Runs.admitted_remember earlierResponses [] (granted.and kept))

/-- While the responder does not restart there are no earlier lives. -/
theorem unanswered_of_running {moves : List Move}
    (running : ∀ time kp, .restartResponder time kp ∉ moves) :
    Runs.Admitted (Relationship.stepLives S ids) (fun x m => m.Unanswered S x.1 x.2) (r, [])
      moves := by
  have other : Runs.Admitted (Relationship.stepLives S ids)
      (fun _ m => ∀ time kp, m ≠ .restartResponder time kp) (r, []) moves := by
    refine Runs.Admitted.of_mem (fun _ m hm time kp heq => ?_) _
    rw [heq] at hm
    exact running time kp hm
  refine Runs.Admitted.of_invariant (I := fun x => x.2 = []) ?_ ?_ rfl other
  · intro x m none other
    cases m with
    | restartResponder time kp => exact absurd rfl (other time kp)
    | _ => exact none
  · intro x m none _
    unfold Move.Unanswered
    split
    · rw [none]; exact fun _ _ => nofun
    · trivial

/-- **Static nonces across restarts.** Over any granted run no static key seals two different
ephemeral keys with one counter, if every init that passes the responder's checks carries a counter
that no response sealed before its latest restart carries. Where the responder's pairs are fresh
this condition is exact, and where it does not restart there is none. A run is granted when nothing
is forged under the static keys, the pairs drawn can be drawn, a restarted initiator's clock is
ahead of its counters, and the handshake counter does not wrap (`Move.Granted`). -/
theorem staticNonces_apart (aead : S.Aead) (kx : S.Kx) (initiator : ids.initiator.Matches S)
    (responder : ids.responder.Matches S) (split : ids.Split S) {timeI timeR : UInt64}
    {kpI kpR : KeyPair} (started : r.Started S ids timeI timeR kpI kpR)
    (drawnI : kpI.Matches S) (drawnR : kpR.Matches S) (moves : List Move)
    (granted : Runs.Admitted (Relationship.step S ids) (fun r m => m.Granted S r) r moves) :
    (Runs.Admitted (Relationship.stepLives S ids) (fun x m => m.Unanswered S x.1 x.2) (r, [])
        moves →
      (moves.foldl (Relationship.step S ids) r).NoncesApart) ∧
    ((generatedKeys (moves.foldl (Relationship.step S ids) r).responder.log).Nodup →
      (moves.foldl (Relationship.step S ids) r).NoncesApart →
      Runs.Admitted (Relationship.stepLives S ids) (fun x m => m.Unanswered S x.1 x.2) (r, [])
        moves) ∧
    ((∀ time kp, .restartResponder time kp ∉ moves) →
      (moves.foldl (Relationship.step S ids) r).NoncesApart) := by
  obtain ⟨keys, derive⟩ := Identities.derive kx initiator responder
  have split := split keys derive.initiator
  have ordered := Ordered.started derive drawnI drawnR started
  have unsealed : r.responses = [] := by obtain ⟨i, s, _, _, rfl⟩ := started; rfl
  have spent : PairsSpent r.responder := by
    obtain ⟨i, s, _, hs, rfl⟩ := started
    obtain ⟨_, _, rfl⟩ := sessionInit_eq_some hs
    exact ⟨nofun, List.mem_singleton_self _, nofun⟩
  refine ⟨fun unanswered => ?_, fun fresh apart => ?_, fun running => ?_⟩
  · exact ordered.noncesApart_run aead derive split unsealed granted unanswered
  · exact ordered.unanswered_run aead kx derive split spent granted fresh apart
  · exact ordered.noncesApart_run aead derive split unsealed granted
      (unanswered_of_running running)

/-- A handshake, whose init is shown to the responder once more, and after a restart of the
responder a reconnection: every init that passes the checks is new to its lives. -/
def freshInits : List Move :=
  [.initiate (referencePair 5),
    .responder (.handleInit (referencePair 9) (sampleInit 100 (referencePair 5)) 57),
    .responder (.handleInit (referencePair 12) (sampleInit 100 (referencePair 5)) 57),
    .restartResponder 300 (referencePair 10),
    .initiate (referencePair 6),
    .responder (.handleInit (referencePair 11) (sampleInit 101 (referencePair 6)) 57)]

/-- The same, but the restarted responder is shown the first init again. -/
def replayedInit : List Move :=
  [.initiate (referencePair 5),
    .responder (.handleInit (referencePair 9) (sampleInit 100 (referencePair 5)) 57),
    .restartResponder 300 (referencePair 10),
    .responder (.handleInit (referencePair 11) (sampleInit 100 (referencePair 5)) 57)]

theorem staticNonces_apart_freshInits :
    (freshInits.foldl (Relationship.step reference sampleIdentities)
      sampleStart).responses.length = 2 ∧
    (freshInits.foldl (Relationship.step reference sampleIdentities) sampleStart).NoncesApart :=
  ⟨by decide +kernel, (staticNonces_apart reference_aead reference_kx (by decide +kernel)
    (by decide +kernel) sampleIdentities_split sampleStart_started (by decide +kernel)
    (by decide +kernel) freshInits (by decide +kernel)).1 (by decide +kernel)⟩

/-- **A restarted responder reuses a nonce.** It seals counter 100 under its static key twice, with
two different ephemeral keys. -/
theorem restarted_responder_reuses_nonce :
    Runs.Admitted (Relationship.step reference sampleIdentities)
      (fun r m => m.Granted reference r) sampleStart replayedInit ∧
    ((replayedInit.foldl (Relationship.step reference sampleIdentities)
      sampleStart).responses.map fun m => (m.key, m.counter, m.pk)) =
        [(sampleKeys.rx, 100, (referencePair 4).pk), (sampleKeys.rx, 100, (referencePair 10).pk)] ∧
    ¬ (replayedInit.foldl (Relationship.step reference sampleIdentities)
      sampleStart).NoncesApart := by
  decide +kernel

end EdgarVPN
