import EdgarVPN.Relationship.Recovery

/-!
# Key agreement over any schedule

The schedule is the one the daemon makes: an attempt is started and its init built in one go
(`Move.Scheduled`), the initiator may restart on a later second, and everything else is delivery of
arbitrary bytes. The invariant (`Agreement`) adds to the order of the counters what each side's
current pair stands for: the responder's data keys come from the init with the highest counter, and
the initiator's pair is that of its last init, whose counter a response must echo. An old response
therefore never meets a new pair.

**What is proved.** `dataKeys_agree`: whenever the initiator is established, the responder is
established on the same attempt with the same data keys, crosswise.
-/

set_option autoImplicit false

namespace EdgarVPN

/-! ## The schedule -/

/-- Calls on network input and data calls. -/
def Call.Scheduled : Call → Prop
  | .startHandshake _ => False
  | .buildInit _ => False
  | .handleInit .. | .handleResponse _ | .sealData .. | .openData .. => True

/-- Moves of the schedule: an attempt starts with its init, the initiator may restart at a positive
second, and the responder stays up. -/
def Move.Scheduled : Move → Prop
  | .initiator c => c.Scheduled
  | .responder c => c.Scheduled
  | .initiate _ => True
  | .restartInitiator time _ => 0 < time
  | .restartResponder .. => False

instance : ∀ c : Call, Decidable c.Scheduled
  | .startHandshake _ | .buildInit _ => inferInstanceAs (Decidable False)
  | .handleInit .. | .handleResponse _ | .sealData .. | .openData .. =>
    inferInstanceAs (Decidable True)

instance : ∀ m : Move, Decidable m.Scheduled
  | .initiator c => inferInstanceAs (Decidable c.Scheduled)
  | .responder c => inferInstanceAs (Decidable c.Scheduled)
  | .initiate _ => inferInstanceAs (Decidable True)
  | .restartInitiator .. => inferInstanceAs (Decidable (_ < _))
  | .restartResponder .. => inferInstanceAs (Decidable False)

/-- The key exchange gives the identities two different static keys, one for each direction. -/
def Identities.Split (S : Sodium) (ids : Identities) : Prop :=
  ∀ keys, cryptoDeriveSessionKeys S .initiator ids.initiator.pk ids.initiator.sk
    ids.responder.pk = some keys → keys.rx ≠ keys.tx

/-! ## The invariant -/

/-- What the pairs and counters of the two sides stand for. -/
structure Agreement (S : Sodium) (keys : SessionKeys) (r : Relationship) : Prop
    extends Ordered S keys r where
  positive : 0 < r.initiator.session.handshakeCounter ∧ ∀ m ∈ r.inits, 0 < m.counter
  /-- The responder's data keys come from the init with the highest counter. -/
  answered : r.responder.session.haveSeenHandshake = true →
    r.responder.session.state = .established ∧
      ∃ m ∈ r.inits, m.counter = r.responder.session.highestHandshakeCounterSeen ∧
        ∃ sk, KeyPair.Matches S ⟨r.responder.session.localEphPk, sk⟩ ∧
          cryptoDeriveSessionKeys S .responder r.responder.session.localEphPk sk m.pk =
            some r.responder.session.dataKeys
  /-- The last response carries the responder's current pair. -/
  echoed : ∀ m ∈ r.responses, r.responder.session.haveSeenHandshake = true ∧
    m.counter ≤ r.responder.session.highestHandshakeCounterSeen ∧
      (m.counter = r.responder.session.highestHandshakeCounterSeen →
        m.pk = r.responder.session.localEphPk)
  /-- The outstanding counter is that of the init with the initiator's current pair. -/
  outstanding : r.initiator.session.state = .handshakePending →
    r.initiator.session.pendingHandshakeCounter = 0 ∨
      ∃ m ∈ r.inits, m.counter = r.initiator.session.pendingHandshakeCounter ∧
        m.pk = r.initiator.session.localEphPk
  /-- The outstanding counter is the last one used since the initiator started. -/
  latest : r.initiator.session.pendingHandshakeCounter ≠ 0 →
    ∀ m ∈ r.inits, m.counter ≤ r.initiator.session.pendingHandshakeCounter
  agreed : r.initiator.session.state = .established →
    r.responder.session.haveSeenHandshake = true ∧
      r.responder.session.highestHandshakeCounterSeen =
        r.initiator.session.pendingHandshakeCounter ∧
      r.responder.session.dataKeys = r.initiator.session.dataKeys.swap

variable {S : Sodium} {ids : Identities} {keys : SessionKeys} {r : Relationship}

/-- A sealed message under the initiator's key is an init. -/
theorem Ordered.mem_inits (h : Ordered S keys r) (split : keys.rx ≠ keys.tx) {m : HandshakeSeal}
    (hm : m ∈ r.inits ++ r.responses) (key : m.key = keys.tx) : m ∈ r.inits := by
  rcases List.mem_append.mp hm with hm | hm
  · exact hm
  · exact absurd ((h.responses m hm).1.symm.trans key) split

/-- A sealed message under the responder's key is a response. -/
theorem Ordered.mem_responses (h : Ordered S keys r) (split : keys.rx ≠ keys.tx)
    {m : HandshakeSeal} (hm : m ∈ r.inits ++ r.responses) (key : m.key = keys.rx) :
    m ∈ r.responses := by
  rcases List.mem_append.mp hm with hm | hm
  · exact absurd (key.symm.trans (h.inits m hm).1) split
  · exact hm

/-- The responder has accepted a counter, so the outstanding one it echoes is not zero. -/
theorem Agreement.pending_ne_zero (h : Agreement S keys r)
    (established : r.initiator.session.state = .established) :
    r.initiator.session.pendingHandshakeCounter ≠ 0 := by
  obtain ⟨hseen, hhigh, _⟩ := h.agreed established
  obtain ⟨m, hm, hcounter⟩ := h.seen hseen
  rw [← hhigh, ← hcounter]
  exact (UInt64.ne_of_lt (h.positive.2 m hm)).symm

/-- An init that passes the responder's checks meets no established initiator: it would have to be
newer than the last one sent. -/
theorem Agreement.pending_of_read (h : Agreement S keys r) {m : HandshakeSeal} (hm : m ∈ r.inits)
    (fresh : r.responder.session.haveSeenHandshake = true →
      r.responder.session.highestHandshakeCounterSeen < m.counter) :
    r.initiator.session.state = .handshakePending := by
  cases hstate : r.initiator.session.state with
  | handshakePending => rfl
  | established =>
    obtain ⟨hseen, hhigh, _⟩ := h.agreed hstate
    have hle := h.latest (h.pending_ne_zero hstate) m hm
    rw [← hhigh] at hle
    exact absurd (fresh hseen) (UInt64.not_lt.mpr hle)

/-! ## Every move -/

/-- Answering an init makes its pair and the responder's the current attempt. -/
theorem Agreement.answer (h : Agreement S keys r) {log : List Act} {kp : KeyPair}
    {counter : UInt64} {packet : Bytes} {data : SessionKeys} {m : HandshakeSeal}
    (ordered : Ordered S keys
      { r with responder := ⟨(r.responder.session.reattempt kp).answered data counter, log⟩ })
    (drawn : kp.Matches S) (hm : m ∈ r.inits) (echo : m.counter = counter)
    (fresh : r.responder.session.haveSeenHandshake = true →
      r.responder.session.highestHandshakeCounterSeen < counter)
    (derived : cryptoDeriveSessionKeys S .responder (r.responder.session.reattempt kp).localEphPk
      (r.responder.session.reattempt kp).localEphSk m.pk = some data)
    (seals : handshakeSeals log = r.responses ++ [⟨r.responder.session.staticKeys.tx, counter,
      (r.responder.session.reattempt kp).localEphPk, packet⟩]) :
    Agreement S keys
      { r with responder := ⟨(r.responder.session.reattempt kp).answered data counter, log⟩ } where
  toOrdered := ordered
  positive := h.positive
  answered := fun _ => ⟨rfl, m, hm, echo, _, (h.reattempt_ready drawn).1, derived⟩
  echoed := by
    intro x hx
    have hx : x ∈ handshakeSeals log := hx
    rw [seals] at hx
    rcases List.mem_append.mp hx with hx | hx
    · obtain ⟨hseen, hle, _⟩ := h.echoed x hx
      have hlt : x.counter < counter := UInt64.lt_of_le_of_lt hle (fresh hseen)
      exact ⟨rfl, UInt64.le_of_lt hlt, fun heq => absurd heq (UInt64.ne_of_lt hlt)⟩
    · cases List.mem_singleton.mp hx
      exact ⟨rfl, UInt64.le_refl _, fun _ => rfl⟩
  outstanding := h.outstanding
  latest := h.latest
  agreed := fun hest => by
    have hpending := h.pending_of_read hm (echo ▸ fresh)
    have hest : r.initiator.session.state = .established := hest
    rw [hpending] at hest
    cases hest

/-- Accepting a response puts the initiator on the responder's keys: the response echoes the last
init, so it is the responder's last one too. -/
theorem Agreement.complete (kx : S.Kx) (split : keys.rx ≠ keys.tx) (h : Agreement S keys r)
    {input : Bytes} {log : List Act} {peer : PublicKey} {data : SessionKeys}
    (ordered : Ordered S keys { r with initiator := ⟨r.initiator.session.completed data, log⟩ })
    (genuine : r.Genuine S r.initiator.session.staticKeys.rx input.tail)
    (read : sessionReadResponse S r.initiator.session input = some peer)
    (derived : cryptoDeriveSessionKeys S .initiator r.initiator.session.localEphPk
      r.initiator.session.localEphSk peer = some data)
    (seals : handshakeSeals log = r.inits) :
    Agreement S keys { r with initiator := ⟨r.initiator.session.completed data, log⟩ } := by
  have pending := (sessionReadResponse_eq_some read).2.1
  obtain ⟨x, hx, hkey, hecho, hpeer⟩ := h.readResponse read genuine
  have hx := h.mem_responses split hx hkey
  obtain ⟨hseen, hle, hcurrent⟩ := h.echoed x hx
  obtain ⟨_, m, hm, hhigh, sk, hpair, hdata⟩ := h.answered hseen
  have hpos : r.initiator.session.pendingHandshakeCounter ≠ 0 := by
    obtain ⟨m', hm', hcounter⟩ := (h.responses x hx).2.1
    rw [← hecho, ← hcounter]
    exact (UInt64.ne_of_lt (h.positive.2 m' hm')).symm
  -- the responder's highest counter is an init's, so it is not above the outstanding one
  have heq : x.counter = r.responder.session.highestHandshakeCounterSeen := by
    refine UInt64.le_antisymm hle ?_
    rw [hecho, ← hhigh]
    exact h.latest hpos m hm
  obtain ⟨m', hm', hcounter, hpk⟩ := (h.outstanding pending).resolve_left hpos
  have hinit : m.pk = r.initiator.session.localEphPk := by
    rw [← hpk]
    exact h.apart m hm m' hm' (by rw [hhigh, ← heq, hecho, hcounter])
  have hresponse : peer = r.responder.session.localEphPk := hpeer ▸ hcurrent heq
  obtain ⟨shared, hderiveI, hderiveR⟩ :=
    cryptoDeriveSessionKeys_agree kx (h.initiatorReady pending) hpair
  rw [hinit] at hdata
  rw [hresponse] at derived
  have hkeys := Option.some.inj (hdata.symm.trans hderiveR)
  cases hderiveI.symm.trans derived
  exact {
    toOrdered := ordered
    positive := ⟨h.positive.1, fun m hm => h.positive.2 m (seals ▸ hm)⟩
    answered := by
      simp only [Relationship.inits, seals]
      exact h.answered
    echoed := h.echoed
    outstanding := nofun
    latest := by
      simp only [Relationship.inits, seals]
      exact h.latest
    agreed := fun _ => ⟨hseen, by rw [← heq]; exact hecho, hkeys⟩ }

/-- A side that seals nothing and keeps what the invariant reads of it keeps the agreement. -/
theorem Agreement.responderQuiet (h : Agreement S keys r) {t : Traced}
    (ordered : Ordered S keys { r with responder := t })
    (seals : handshakeSeals t.log = r.responses)
    (seen : t.session.haveSeenHandshake = r.responder.session.haveSeenHandshake)
    (high : t.session.highestHandshakeCounterSeen =
      r.responder.session.highestHandshakeCounterSeen)
    (state : t.session.state = r.responder.session.state)
    (pair : t.session.localEphPk = r.responder.session.localEphPk)
    (data : t.session.dataKeys = r.responder.session.dataKeys) :
    Agreement S keys { r with responder := t } where
  toOrdered := ordered
  positive := h.positive
  answered := by
    simp only [seen, high, state, pair, data]
    exact h.answered
  echoed := by
    simp only [Relationship.responses, seals, seen, high, pair]
    exact h.echoed
  outstanding := h.outstanding
  latest := h.latest
  agreed := by
    simp only [seen, high, data]
    exact h.agreed

theorem Agreement.initiatorQuiet (h : Agreement S keys r) {t : Traced}
    (ordered : Ordered S keys { r with initiator := t })
    (seals : handshakeSeals t.log = r.inits)
    (next : t.session.handshakeCounter = r.initiator.session.handshakeCounter)
    (pending : t.session.pendingHandshakeCounter = r.initiator.session.pendingHandshakeCounter)
    (state : t.session.state = r.initiator.session.state)
    (pair : t.session.localEphPk = r.initiator.session.localEphPk)
    (data : t.session.dataKeys = r.initiator.session.dataKeys) :
    Agreement S keys { r with initiator := t } where
  toOrdered := ordered
  positive := by
    simp only [Relationship.inits, seals, next]
    exact h.positive
  answered := by
    simp only [Relationship.inits, seals]
    exact h.answered
  echoed := h.echoed
  outstanding := by
    simp only [Relationship.inits, seals, pending, state, pair]
    exact h.outstanding
  latest := by
    simp only [Relationship.inits, seals, pending]
    exact h.latest
  agreed := by
    simp only [pending, state, data]
    exact h.agreed

/-- The responder can always derive from an init that one of the two sides sealed. -/
theorem Ordered.derives (kx : S.Kx) (h : Ordered S keys r) {kp : KeyPair} (drawn : kp.Matches S)
    {peer : PublicKey} (peerDrawn : S.Draws peer) :
    ∃ data, cryptoDeriveSessionKeys S .responder (r.responder.session.reattempt kp).localEphPk
      (r.responder.session.reattempt kp).localEphSk peer = some data := by
  obtain ⟨sk, hsk⟩ := peerDrawn
  obtain ⟨data, _, hderive⟩ := cryptoDeriveSessionKeys_agree kx hsk (h.reattempt_ready drawn).1
  exact ⟨_, hderive⟩

theorem Agreement.responderCall (aead : S.Aead) (kx : S.Kx) (split : keys.rx ≠ keys.tx)
    (h : Agreement S keys r) {c : Call} (scheduled : c.Scheduled) (drawn : c.Drawn S)
    (unforged : c.Unforged S r r.responder.session) :
    Agreement S keys { r with responder := r.responder.call S c } := by
  have ordered := h.toOrdered.responderCall aead drawn unforged
  have hseals := Traced.call_handshakeSeals (S := S) r.responder c
  have did : ResponderDid S r.responder.session c (r.responder.call S c).session _ :=
    responderCall_did aead h.responderRole c
  generalize r.responder.call S c = t at ordered hseals did ⊢
  generalize handshakeSeals (sessionActs S r.responder.session c) = seals at did hseals
  obtain ⟨s', log⟩ := t
  dsimp only at did
  cases did with
  | nothing =>
    rw [List.append_nil] at hseals
    exact h.responderQuiet ordered hseals rfl rfl rfl rfl rfl
  | started => exact scheduled.elim
  | @underived kp input outLen peer counter read derived =>
    obtain ⟨m, hm, _, _, rfl⟩ := h.readInit read unforged
    obtain ⟨data, hdata⟩ := h.derives kx drawn (h.origin hm).2
    rw [hdata] at derived
    cases derived
  | answered read derived =>
    obtain ⟨m, hm, hkey, hcounter, rfl⟩ := h.readInit read unforged
    obtain ⟨_, _, _, _, _, fresh⟩ := sessionReadInit_eq_some read
    exact h.answer ordered drawn (h.mem_inits split hm hkey) hcounter fresh derived hseals
  | data =>
    rw [List.append_nil] at hseals
    exact h.responderQuiet ordered hseals rfl rfl rfl rfl rfl

theorem Agreement.initiatorCall (aead : S.Aead) (kx : S.Kx) (split : keys.rx ≠ keys.tx)
    (h : Agreement S keys r) {c : Call} (scheduled : c.Scheduled) (drawn : c.Drawn S)
    (unforged : c.Unforged S r r.initiator.session) :
    Agreement S keys { r with initiator := r.initiator.call S c } := by
  have ordered := h.toOrdered.initiatorCall aead drawn fun outLen hc => by
    subst hc
    exact scheduled.elim
  have hseals := Traced.call_handshakeSeals (S := S) r.initiator c
  have did : InitiatorDid S r.initiator.session c (r.initiator.call S c).session _ :=
    initiatorCall_did h.initiatorRole c
  generalize r.initiator.call S c = t at ordered hseals did ⊢
  generalize handshakeSeals (sessionActs S r.initiator.session c) = seals at did hseals
  obtain ⟨s', log⟩ := t
  dsimp only at did
  cases did with
  | nothing =>
    rw [List.append_nil] at hseals
    exact h.initiatorQuiet ordered hseals rfl rfl rfl rfl rfl
  | started => exact scheduled.elim
  | built => exact scheduled.elim
  | completed read derived =>
    rw [List.append_nil] at hseals
    exact h.complete kx split ordered unforged read derived hseals
  | data =>
    rw [List.append_nil] at hseals
    exact h.initiatorQuiet ordered hseals rfl rfl rfl rfl rfl

/-- What `initiate_handshake` leaves of an initiator: a new pair, and one more init with it. -/
theorem Traced.initiate_built (aead : S.Aead) {t : Traced} (role : t.session.role = .initiator)
    (kp : KeyPair) :
    ∃ packet log, (t.call S (.startHandshake kp)).call S (.buildInit sealedBufSize) =
        ⟨(sessionStartHandshake kp t.session).built, log⟩ ∧
      handshakeSeals log = handshakeSeals t.log ++
        [⟨t.session.staticKeys.tx, t.session.handshakeCounter, kp.pk, packet⟩] := by
  have room : sessionHandshakeMsgLen ≤ sealedBufSize := by decide
  obtain ⟨packet, _, hbuild⟩ := sessionBuildInit_isSome aead
    (s := sessionStartHandshake kp t.session) role rfl room
  refine ⟨packet, (t.log ++ [.generated kp.pk]) ++ [.sealedHandshake t.session.staticKeys.tx
    t.session.handshakeCounter kp.pk packet], ?_, ?_⟩
  · simp only [Traced.call, sessionCall, sessionActs, hbuild]
    rfl
  · rw [handshakeSeals_append, handshakeSeals_append]
    exact congrArg (· ++ _) (List.append_nil _)

/-- A new attempt: its init is the last one sent and carries the current pair. -/
theorem Agreement.initiate (aead : S.Aead) (h : Agreement S keys r) {kp : KeyPair}
    (ordered : Ordered S keys (r.step S ids (.initiate kp))) :
    Agreement S keys (r.step S ids (.initiate kp)) := by
  obtain ⟨packet, log, hinitiate, hseals⟩ := Traced.initiate_built aead h.initiatorRole kp
  simp only [Relationship.step, hinitiate] at ordered ⊢
  have sub : ∀ m ∈ r.inits, m ∈ handshakeSeals log := fun m hm => by
    rw [hseals]; exact List.mem_append_left _ hm
  have mem : ∀ m ∈ handshakeSeals log, m ∈ r.inits ∨ m = ⟨r.initiator.session.staticKeys.tx,
      r.initiator.session.handshakeCounter, kp.pk, packet⟩ := fun m hm => by
    rw [hseals] at hm
    exact (List.mem_append.mp hm).imp id List.mem_singleton.mp
  have new : ⟨r.initiator.session.staticKeys.tx, r.initiator.session.handshakeCounter, kp.pk,
      packet⟩ ∈ handshakeSeals log := by
    rw [hseals]; exact List.mem_append_right _ (List.mem_singleton_self _)
  have next := (ordered.inits _ new).2.1
  exact {
    toOrdered := ordered
    positive := by
      refine ⟨UInt64.lt_trans h.positive.1 next, fun m hm => ?_⟩
      rcases mem m hm with hm | rfl
      · exact h.positive.2 m hm
      · exact h.positive.1
    answered := fun hseen => by
      obtain ⟨hstate, m, hm, hrest⟩ := h.answered hseen
      exact ⟨hstate, m, sub m hm, hrest⟩
    echoed := h.echoed
    outstanding := fun _ => .inr ⟨_, new, rfl, rfl⟩
    latest := fun _ m hm => by
      rcases mem m hm with hm | rfl
      · exact UInt64.le_of_lt (h.inits m hm).2.1
      · exact UInt64.le_refl _
    agreed := nofun }

/-- **A granted move of the schedule keeps the agreement.** An init or a response that is read was
sealed by the other side, so it carries that side's pair, for the counter it echoes. -/
theorem Agreement.step (aead : S.Aead) (kx : S.Kx) (derive : ids.Derive S keys)
    (split : keys.rx ≠ keys.tx) (h : Agreement S keys r) {m : Move} (scheduled : m.Scheduled)
    (granted : m.Granted S r) : Agreement S keys (r.step S ids m) := by
  have ordered := h.toOrdered.step aead derive granted
  obtain ⟨unforged, drawn, _, _⟩ := granted
  cases m with
  | initiator c => exact h.initiatorCall aead kx split scheduled drawn unforged
  | responder c => exact h.responderCall aead kx split scheduled drawn unforged
  | initiate kp => exact h.initiate aead ordered
  | restartInitiator time kp =>
    have hsession := Traced.restart_session time kp r.initiator derive.initiator
    have hseals : handshakeSeals (r.initiator.restart S .initiator ids.initiator
        ids.responder.pk time kp).log = r.inits := Traced.restart_handshakeSeals ..
    simp only [Relationship.step] at ordered ⊢
    generalize r.initiator.restart S .initiator ids.initiator ids.responder.pk time kp = t
      at ordered hsession hseals ⊢
    obtain ⟨s', log⟩ := t
    dsimp only at hsession hseals
    subst hsession
    exact {
      toOrdered := ordered
      positive := ⟨scheduled, fun m hm => h.positive.2 m (hseals ▸ hm)⟩
      answered := by
        simp only [Relationship.inits, hseals]
        exact h.answered
      echoed := h.echoed
      outstanding := fun _ => .inl rfl
      latest := fun hne => absurd rfl hne
      agreed := nofun }
  | restartResponder => exact scheduled.elim

theorem Agreement.started {timeI timeR : UInt64} {kpI kpR : KeyPair} (derive : ids.Derive S keys)
    (drawnI : kpI.Matches S) (drawnR : kpR.Matches S) (seed : 0 < timeI)
    (started : r.Started S ids timeI timeR kpI kpR) : Agreement S keys r := by
  have ordered := Ordered.started derive drawnI drawnR started
  obtain ⟨i, s, hi, hs, rfl⟩ := started
  obtain ⟨_, _, rfl⟩ := sessionInit_eq_some hi
  obtain ⟨_, _, rfl⟩ := sessionInit_eq_some hs
  exact {
    toOrdered := ordered
    positive := ⟨seed, nofun⟩
    answered := nofun
    echoed := nofun
    outstanding := fun _ => .inl rfl
    latest := nofun
    agreed := nofun }

/-- **Key agreement.** Along any granted schedule, whenever the initiator is established, the
responder is established too, on the attempt of the initiator's outstanding counter, and their data
keys are the same two, crosswise. In a schedule an attempt is started and its init built in one go,
and the initiator may restart (`Move.Scheduled`); it is granted when nothing is forged under the
static keys, the pairs drawn can be drawn, a restarted initiator's seed is above its counters, and
no counter wraps (`Move.Granted`). The long-term keys are those of two pairs, different in the two
directions, and the first seed is not 0. -/
theorem dataKeys_agree (aead : S.Aead) (kx : S.Kx) (initiator : ids.initiator.Matches S)
    (responder : ids.responder.Matches S) (split : ids.Split S) {timeI timeR : UInt64}
    {kpI kpR : KeyPair} (started : r.Started S ids timeI timeR kpI kpR) (seed : 0 < timeI)
    (drawnI : kpI.Matches S) (drawnR : kpR.Matches S) (moves : List Move)
    (granted : Runs.Admitted (Relationship.step S ids)
      (fun r m => m.Scheduled ∧ m.Granted S r) r moves)
    (established : (moves.foldl (Relationship.step S ids) r).initiator.session.state =
      .established) :
    (moves.foldl (Relationship.step S ids) r).responder.session.state = .established ∧
      (moves.foldl (Relationship.step S ids) r).responder.session.highestHandshakeCounterSeen =
        (moves.foldl (Relationship.step S ids) r).initiator.session.pendingHandshakeCounter ∧
      (moves.foldl (Relationship.step S ids) r).initiator.session.dataKeys.tx =
        (moves.foldl (Relationship.step S ids) r).responder.session.dataKeys.rx ∧
      (moves.foldl (Relationship.step S ids) r).initiator.session.dataKeys.rx =
        (moves.foldl (Relationship.step S ids) r).responder.session.dataKeys.tx := by
  obtain ⟨keys, derive⟩ := Identities.derive kx initiator responder
  have agreement : Agreement S keys (moves.foldl (Relationship.step S ids) r) :=
    Runs.invariant_foldl
      (fun _ _ h g => h.step aead kx derive (split keys derive.initiator) g.1 g.2)
      (Agreement.started derive drawnI drawnR seed started) granted
  obtain ⟨hseen, hhigh, hkeys⟩ := agreement.agreed established
  exact ⟨(agreement.answered hseen).1, hhigh, by rw [hkeys, SessionKeys.swap_rx],
    by rw [hkeys, SessionKeys.swap_tx]⟩

theorem sampleIdentities_split : sampleIdentities.Split reference := by
  intro keys hkeys
  have hsample : cryptoDeriveSessionKeys reference .initiator sampleIdentities.initiator.pk
      sampleIdentities.initiator.sk sampleIdentities.responder.pk = some sampleKeys := by
    decide +kernel
  cases hsample.symm.trans hkeys
  decide +kernel

/-- Two attempts of which the first is answered but superseded, its late response, a restart of the
initiator, and a third attempt that completes. -/
def agreementMoves : List Move :=
  [.initiate (referencePair 5),
    .responder (.handleInit (referencePair 9) (sampleInit 100 (referencePair 5)) 57),
    .initiate (referencePair 6),
    .initiator (.handleResponse (sampleResponse 100 (referencePair 4))),
    .responder (.handleInit (referencePair 9) (sampleInit 100 (referencePair 5)) 57),
    .restartInitiator 400 (referencePair 7),
    .initiate (referencePair 2),
    .responder (.handleInit (referencePair 10) (sampleInit 400 (referencePair 2)) 57),
    .initiator (.handleResponse (sampleResponse 400 (referencePair 10)))]

theorem dataKeys_agree_agreementMoves :
    let r := agreementMoves.foldl (Relationship.step reference sampleIdentities) sampleStart
    r.initiator.session.state = .established ∧ r.responder.session.state = .established ∧
      r.responder.session.highestHandshakeCounterSeen =
        r.initiator.session.pendingHandshakeCounter ∧
      r.initiator.session.dataKeys.tx = r.responder.session.dataKeys.rx ∧
      r.initiator.session.dataKeys.rx = r.responder.session.dataKeys.tx := by
  have established : (agreementMoves.foldl (Relationship.step reference sampleIdentities)
      sampleStart).initiator.session.state = .established := by decide +kernel
  exact ⟨established, dataKeys_agree reference_aead reference_kx (by decide +kernel)
    (by decide +kernel) sampleIdentities_split sampleStart_started (by decide) (by decide +kernel)
    (by decide +kernel) agreementMoves (by decide +kernel) established⟩

end EdgarVPN
