import EdgarVPN.Relationship.System

/-!
# Handshake counters over any run

What either side can do to the handshake is a short list once its role is known (`InitiatorDid`,
`ResponderDid`). The invariant read off it, `Ordered`, attributes every counter to an init: each
counter a response echoes, and the highest one the responder accepted, is the counter of some init
the initiator sealed, and every one of those lies below the initiator's next counter. Restarts of
either side keep it, because a restarted initiator starts above what it sent and a restarted
responder remembers less.

**What is proved.** `ordered_run`: the invariant holds in every state of a granted run, with
restarts of both sides and any delivery.
-/

set_option autoImplicit false

namespace EdgarVPN

variable {S : Sodium}

/-! ## The handshake side of a call -/

/-- A session with another counter and another replay state: what data calls change. -/
def Session.withData (s : Session) (tx high : UInt64) (any : Bool) (window : ReplayWindow) :
    Session :=
  { s with
    txCounter := tx
    highestRxCounter := high
    haveReceivedAny := any
    replayWindow := window }

/-- What a call can do on an initiator, with the handshake messages it seals. -/
inductive InitiatorDid (S : Sodium) (s : Session) : Call → Session → List HandshakeSeal → Prop
  | nothing {c : Call} : InitiatorDid S s c s []
  | started (kp : KeyPair) :
      InitiatorDid S s (.startHandshake kp) (sessionStartHandshake kp s) []
  | built {outLen : Nat} {packet : Bytes} (pending : s.state = .handshakePending) :
      InitiatorDid S s (.buildInit outLen) s.built
        [⟨s.staticKeys.tx, s.handshakeCounter, s.localEphPk, packet⟩]
  | completed {input : Bytes} {peer : PublicKey} {keys : SessionKeys}
      (read : sessionReadResponse S s input = some peer)
      (derived : cryptoDeriveSessionKeys S .initiator s.localEphPk s.localEphSk peer =
        some keys) :
      InitiatorDid S s (.handleResponse input) (s.completed keys) []
  | data {c : Call} {tx high : UInt64} {any : Bool} {window : ReplayWindow}
      (established : s.state = .established) :
      InitiatorDid S s c (s.withData tx high any window) []

/-- What a call can do on a responder, with the handshake messages it seals. -/
inductive ResponderDid (S : Sodium) (s : Session) : Call → Session → List HandshakeSeal → Prop
  | nothing {c : Call} : ResponderDid S s c s []
  | started (kp : KeyPair) :
      ResponderDid S s (.startHandshake kp) (sessionStartHandshake kp s) []
  | underived {kp : KeyPair} {input : Bytes} {outLen : Nat} {peer : PublicKey} {counter : UInt64}
      (read : sessionReadInit S s input outLen = some (peer, counter))
      (derived : cryptoDeriveSessionKeys S .responder (s.reattempt kp).localEphPk
        (s.reattempt kp).localEphSk peer = none) :
      ResponderDid S s (.handleInit kp input outLen) (s.reattempt kp) []
  | answered {kp : KeyPair} {input : Bytes} {outLen : Nat} {peer : PublicKey} {counter : UInt64}
      {keys : SessionKeys} {packet : Bytes}
      (read : sessionReadInit S s input outLen = some (peer, counter))
      (derived : cryptoDeriveSessionKeys S .responder (s.reattempt kp).localEphPk
        (s.reattempt kp).localEphSk peer = some keys) :
      ResponderDid S s (.handleInit kp input outLen) ((s.reattempt kp).answered keys counter)
        [⟨s.staticKeys.tx, counter, (s.reattempt kp).localEphPk, packet⟩]
  | data {c : Call} {tx high : UInt64} {any : Bool} {window : ReplayWindow}
      (established : s.state = .established) :
      ResponderDid S s c (s.withData tx high any window) []

theorem initiatorCall_did {s : Session} (role : s.role = .initiator) (c : Call) :
    InitiatorDid S s c (sessionCall S s c) (handshakeSeals (sessionActs S s c)) := by
  have noInit : ∀ {input outLen peer counter},
      sessionReadInit S s input outLen = some (peer, counter) → False := by
    intro input outLen peer counter read
    have hrole := (sessionReadInit_eq_some read).1
    rw [role] at hrole
    cases hrole
  have did := sessionCall_did (S := S) s c
  generalize sessionCall S s c = s' at did
  generalize sessionActs S s c = acts at did
  cases did with
  | nothing => exact .nothing
  | started kp => exact .started kp
  | built _ pending => exact .built pending
  | underived read => exact (noInit read).elim
  | unsealed read => exact (noInit read).elim
  | answered read => exact (noInit read).elim
  | completed read derived => exact .completed read (role ▸ derived)
  | sealed established => exact .data established
  | @opened payload plaintext out counter established =>
    obtain ⟨w, hw⟩ := replayCheckAndMark_frame s counter
    rw [hw]
    exact .data established

theorem redrawn_handshakeSeals (s : Session) (kp : KeyPair) :
    handshakeSeals (s.redrawn kp) = [] := by
  unfold Session.redrawn
  split <;> rfl

theorem responderCall_did (aead : S.Aead) {s : Session} (role : s.role = .responder) (c : Call) :
    ResponderDid S s c (sessionCall S s c) (handshakeSeals (sessionActs S s c)) := by
  have did := sessionCall_did (S := S) s c
  generalize sessionCall S s c = s' at did
  generalize sessionActs S s c = acts at did
  cases did with
  | nothing => exact .nothing
  | started kp => exact .started kp
  | built hrole => rw [role] at hrole; cases hrole
  | @underived kp input outLen peer counter read derived =>
    rw [reattempt_role, role] at derived
    rw [redrawn_handshakeSeals]
    exact .underived read derived
  | @unsealed kp input outLen peer counter keys read sealed =>
    -- the buffer was checked to hold a response, so sealing it does not fail
    obtain ⟨packet, hpacket⟩ := handshakeSeal_isSome aead (s.reattempt kp).staticKeys.tx counter
      (s.reattempt kp).localEphPk (sessionReadInit_eq_some read).2.1
    rw [hpacket] at sealed
    cases sealed
  | @answered kp input outLen peer counter keys packet read derived =>
    rw [reattempt_role, role] at derived
    rw [handshakeSeals_append, redrawn_handshakeSeals]
    exact .answered read derived
  | completed read =>
    have hrole := (sessionReadResponse_eq_some read).1
    rw [role] at hrole
    cases hrole
  | sealed established => exact .data established
  | @opened payload plaintext out counter established =>
    obtain ⟨w, hw⟩ := replayCheckAndMark_frame s counter
    rw [hw]
    exact .data established

/-! ## The invariant -/

/-- The public key is one that key generation can draw. -/
def Sodium.Draws (S : Sodium) (pk : PublicKey) : Prop := ∃ sk, KeyPair.Matches S ⟨pk, sk⟩

/-- The static keys that the identities derive, as the initiator has them. -/
structure Identities.Derive (S : Sodium) (ids : Identities) (keys : SessionKeys) : Prop where
  initiator : cryptoDeriveSessionKeys S .initiator ids.initiator.pk ids.initiator.sk
    ids.responder.pk = some keys
  responder : cryptoDeriveSessionKeys S .responder ids.responder.pk ids.responder.sk
    ids.initiator.pk = some keys.swap

/-- Every counter in use is that of an init, below the initiator's next one. -/
structure Ordered (S : Sodium) (keys : SessionKeys) (r : Relationship) : Prop where
  initiatorRole : r.initiator.session.role = .initiator
  initiatorKeys : r.initiator.session.staticKeys = keys
  responderRole : r.responder.session.role = .responder
  responderKeys : r.responder.session.staticKeys = keys.swap
  honest : r.Honest S
  /-- An init is sealed under the initiator's key, below its next counter. -/
  inits : ∀ h ∈ r.inits, h.key = keys.tx ∧
    h.counter < r.initiator.session.handshakeCounter ∧ S.Draws h.pk
  /-- No two inits share a counter. -/
  apart : ∀ h ∈ r.inits, ∀ h' ∈ r.inits, h.counter = h'.counter → h.pk = h'.pk
  /-- A response is sealed under the responder's key and echoes the counter of an init. -/
  responses : ∀ h ∈ r.responses, h.key = keys.rx ∧
    (∃ h' ∈ r.inits, h'.counter = h.counter) ∧ S.Draws h.pk
  /-- The highest counter accepted is that of an init. -/
  seen : r.responder.session.haveSeenHandshake = true →
    ∃ h ∈ r.inits, h.counter = r.responder.session.highestHandshakeCounterSeen
  /-- A pending session still holds the secret of its pair. -/
  initiatorReady : r.initiator.session.state = .handshakePending →
    r.initiator.session.ephemeral.Matches S
  responderReady : r.responder.session.state = .handshakePending →
    r.responder.session.ephemeral.Matches S ∧ r.responder.session.DataReset

variable {ids : Identities} {keys : SessionKeys} {r : Relationship}

/-- Whatever was sealed carries the counter of an init, and a key that can be drawn. -/
theorem Ordered.origin (h : Ordered S keys r) {m : HandshakeSeal}
    (hm : m ∈ r.inits ++ r.responses) :
    (∃ h' ∈ r.inits, h'.counter = m.counter) ∧ S.Draws m.pk := by
  rcases List.mem_append.mp hm with hm | hm
  · exact ⟨⟨m, hm, rfl⟩, (h.inits m hm).2.2⟩
  · exact (h.responses m hm).2

/-- An init that passes the responder's checks was sealed by one of the two sides. -/
theorem Ordered.readInit (h : Ordered S keys r) {input : Bytes} {outLen : Nat} {peer : PublicKey}
    {counter : UInt64}
    (read : sessionReadInit S r.responder.session input outLen = some (peer, counter))
    (genuine : r.Genuine S r.responder.session.staticKeys.rx input.tail) :
    ∃ m ∈ r.inits ++ r.responses, m.key = keys.tx ∧ m.counter = counter ∧ m.pk = peer := by
  obtain ⟨_, _, payload, rfl, hauth, _⟩ := sessionReadInit_eq_some read
  obtain ⟨m, hm, hkey, hcounter, hpk⟩ := Relationship.Genuine.sealed h.honest genuine hauth
  refine ⟨m, hm, ?_, hcounter, hpk⟩
  rw [hkey, h.responderKeys, SessionKeys.swap_rx]

/-- A response that passes the initiator's checks was sealed by one of the two sides. -/
theorem Ordered.readResponse (h : Ordered S keys r) {input : Bytes} {peer : PublicKey}
    (read : sessionReadResponse S r.initiator.session input = some peer)
    (genuine : r.Genuine S r.initiator.session.staticKeys.rx input.tail) :
    ∃ m ∈ r.inits ++ r.responses, m.key = keys.rx ∧
      m.counter = r.initiator.session.pendingHandshakeCounter ∧ m.pk = peer := by
  obtain ⟨_, _, payload, rfl, hauth⟩ := sessionReadResponse_eq_some read
  obtain ⟨m, hm, hkey, hcounter, hpk⟩ := Relationship.Genuine.sealed h.honest genuine hauth
  refine ⟨m, hm, ?_, hcounter, hpk⟩
  rw [hkey, h.initiatorKeys]

/-! ## One side changes -/

/-- The initiator changed and sealed no init: what it sent must still lie below its counter. -/
theorem Ordered.initiatorQuiet (h : Ordered S keys r) {t : Traced}
    (honest : ∀ a ∈ t.log, a.Honest S) (role : t.session.role = .initiator)
    (static : t.session.staticKeys = keys) (seals : handshakeSeals t.log = r.inits)
    (above : ∀ m ∈ r.inits, m.counter < t.session.handshakeCounter)
    (ready : t.session.state = .handshakePending → t.session.ephemeral.Matches S) :
    Ordered S keys { r with initiator := t } where
  initiatorRole := role
  initiatorKeys := static
  responderRole := h.responderRole
  responderKeys := h.responderKeys
  honest := ⟨honest, h.honest.2⟩
  inits := fun m hm => by
    have hm : m ∈ r.inits := seals ▸ hm
    exact ⟨(h.inits m hm).1, above m hm, (h.inits m hm).2.2⟩
  apart := by
    intro m hm m' hm'
    exact h.apart m (seals ▸ hm) m' (seals ▸ hm')
  responses := by
    simp only [Relationship.inits, seals]
    exact h.responses
  seen := by
    simp only [Relationship.inits, seals]
    exact h.seen
  initiatorReady := ready
  responderReady := h.responderReady

/-- The initiator sealed an init with its next counter. -/
theorem Ordered.initiatorBuilt (h : Ordered S keys r) {log : List Act} {packet : Bytes}
    (honest : ∀ a ∈ log, a.Honest S) (pending : r.initiator.session.state = .handshakePending)
    (seals : handshakeSeals log = r.inits ++ [⟨r.initiator.session.staticKeys.tx,
      r.initiator.session.handshakeCounter, r.initiator.session.localEphPk, packet⟩])
    (room : r.initiator.session.handshakeCounter.toNat + 1 < 2 ^ 64) :
    Ordered S keys { r with initiator := ⟨r.initiator.session.built, log⟩ } := by
  have ready := h.initiatorReady pending
  have next : r.initiator.session.handshakeCounter < r.initiator.session.handshakeCounter + 1 := by
    rw [UInt64.lt_iff_toNat_lt, UInt64.toNat_add, UInt64.toNat_one]
    omega
  have sub : ∀ m ∈ r.inits, m ∈ handshakeSeals log := fun m hm => by
    rw [seals]; exact List.mem_append_left _ hm
  have old : ∀ m ∈ handshakeSeals log, m ∈ r.inits ∨
      m = ⟨r.initiator.session.staticKeys.tx, r.initiator.session.handshakeCounter,
        r.initiator.session.localEphPk, packet⟩ := fun m hm => by
    rw [seals] at hm
    exact (List.mem_append.mp hm).imp id List.mem_singleton.mp
  constructor
  case initiatorRole => exact h.initiatorRole
  case initiatorKeys => exact h.initiatorKeys
  case responderRole => exact h.responderRole
  case responderKeys => exact h.responderKeys
  case honest => exact ⟨honest, h.honest.2⟩
  case inits =>
    intro m hm
    rcases old m hm with hm | rfl
    · obtain ⟨hkey, hlt, hdraws⟩ := h.inits m hm
      exact ⟨hkey, UInt64.lt_trans hlt next, hdraws⟩
    · exact ⟨by rw [h.initiatorKeys], next, _, ready⟩
  case apart =>
    intro m hm m' hm' hcounter
    rcases old m hm with hm | rfl <;> rcases old m' hm' with hm' | rfl
    · exact h.apart m hm m' hm' hcounter
    · exact absurd hcounter (UInt64.ne_of_lt (h.inits m hm).2.1)
    · exact absurd hcounter.symm (UInt64.ne_of_lt (h.inits m' hm').2.1)
    · rfl
  case responses =>
    intro m hm
    obtain ⟨hkey, ⟨m', hm', hcounter⟩, hdraws⟩ := h.responses m hm
    exact ⟨hkey, ⟨m', sub m' hm', hcounter⟩, hdraws⟩
  case seen =>
    intro hseen
    obtain ⟨m, hm, hcounter⟩ := h.seen hseen
    exact ⟨m, sub m hm, hcounter⟩
  case initiatorReady => exact fun _ => ready
  case responderReady => exact h.responderReady

/-- The responder changed and sealed nothing: it has seen what it had seen, or nothing. -/
theorem Ordered.responderQuiet (h : Ordered S keys r) {t : Traced}
    (honest : ∀ a ∈ t.log, a.Honest S) (role : t.session.role = .responder)
    (static : t.session.staticKeys = keys.swap) (seals : handshakeSeals t.log = r.responses)
    (seen : t.session.haveSeenHandshake = true →
      r.responder.session.haveSeenHandshake = true ∧
        t.session.highestHandshakeCounterSeen = r.responder.session.highestHandshakeCounterSeen)
    (ready : t.session.state = .handshakePending →
      t.session.ephemeral.Matches S ∧ t.session.DataReset) :
    Ordered S keys { r with responder := t } where
  initiatorRole := h.initiatorRole
  initiatorKeys := h.initiatorKeys
  responderRole := role
  responderKeys := static
  honest := ⟨h.honest.1, honest⟩
  inits := h.inits
  apart := h.apart
  responses := fun m hm => h.responses m (seals ▸ hm)
  seen := fun hseen => by
    obtain ⟨hold, hhigh⟩ := seen hseen
    rw [hhigh]
    exact h.seen hold
  initiatorReady := h.initiatorReady
  responderReady := ready

/-- A pending responder, or one that starts over to answer, holds a pair it can derive from. -/
theorem Ordered.reattempt_ready (h : Ordered S keys r) {kp : KeyPair} (drawn : kp.Matches S) :
    (r.responder.session.reattempt kp).ephemeral.Matches S ∧
      (r.responder.session.reattempt kp).DataReset := by
  cases hstate : r.responder.session.state with
  | handshakePending =>
    rw [reattempt_pending kp _ hstate]
    exact h.responderReady hstate
  | established =>
    rw [reattempt_established kp _ hstate]
    exact ⟨drawn, start_dataReset kp _⟩

/-- The responder answered an init one of the two sides sealed. -/
theorem Ordered.responderAnswered (h : Ordered S keys r) {log : List Act} {kp : KeyPair}
    {counter : UInt64} {packet : Bytes} {data : SessionKeys} {m : HandshakeSeal}
    (honest : ∀ a ∈ log, a.Honest S) (drawn : kp.Matches S) (hm : m ∈ r.inits ++ r.responses)
    (echo : m.counter = counter)
    (seals : handshakeSeals log = r.responses ++ [⟨r.responder.session.staticKeys.tx, counter,
      (r.responder.session.reattempt kp).localEphPk, packet⟩]) :
    Ordered S keys
      { r with responder := ⟨(r.responder.session.reattempt kp).answered data counter, log⟩ } := by
  obtain ⟨⟨m', hm', hcounter⟩, _⟩ := h.origin hm
  constructor
  case initiatorRole => exact h.initiatorRole
  case initiatorKeys => exact h.initiatorKeys
  case responderRole => exact (reattempt_role ..).trans h.responderRole
  case responderKeys => exact (reattempt_staticKeys ..).trans h.responderKeys
  case honest => exact ⟨h.honest.1, honest⟩
  case inits => exact h.inits
  case apart => exact h.apart
  case responses =>
    intro x hx
    have hx : x ∈ handshakeSeals log := hx
    rw [seals] at hx
    rcases List.mem_append.mp hx with hx | hx
    · exact h.responses x hx
    · cases List.mem_singleton.mp hx
      refine ⟨?_, ⟨m', hm', hcounter.trans echo⟩, _, (h.reattempt_ready drawn).1⟩
      rw [h.responderKeys, SessionKeys.swap_tx]
  case seen => exact fun _ => ⟨m', hm', hcounter.trans echo⟩
  case initiatorReady => exact h.initiatorReady
  case responderReady => exact nofun

/-! ## Every move -/

theorem Traced.call_handshakeSeals (t : Traced) (c : Call) :
    handshakeSeals (t.call S c).log =
      handshakeSeals t.log ++ handshakeSeals (sessionActs S t.session c) :=
  handshakeSeals_append ..

/-- A call on the initiator keeps the order, unless it builds an init at the end of the
counter. -/
theorem Ordered.initiatorCall (aead : S.Aead) (h : Ordered S keys r) {c : Call}
    (drawn : c.Drawn S)
    (room : ∀ outLen, c = .buildInit outLen →
      r.initiator.session.handshakeCounter.toNat + 1 < 2 ^ 64) :
    Ordered S keys { r with initiator := r.initiator.call S c } := by
  have above : ∀ m ∈ r.inits, m.counter < r.initiator.session.handshakeCounter :=
    fun m hm => (h.inits m hm).2.1
  have honest := Traced.call_honest aead h.honest.1 c
  have hseals := Traced.call_handshakeSeals (S := S) r.initiator c
  have did : InitiatorDid S r.initiator.session c (r.initiator.call S c).session _ :=
    initiatorCall_did h.initiatorRole c
  generalize r.initiator.call S c = t at honest hseals did ⊢
  generalize handshakeSeals (sessionActs S r.initiator.session c) = seals at did hseals
  obtain ⟨s', log⟩ := t
  dsimp only at did
  cases did with
  | nothing =>
    rw [List.append_nil] at hseals
    exact h.initiatorQuiet honest h.initiatorRole h.initiatorKeys hseals above h.initiatorReady
  | started kp =>
    rw [List.append_nil] at hseals
    exact h.initiatorQuiet honest h.initiatorRole h.initiatorKeys hseals above fun _ => drawn
  | built pending => exact h.initiatorBuilt honest pending hseals (room _ rfl)
  | completed =>
    rw [List.append_nil] at hseals
    exact h.initiatorQuiet honest h.initiatorRole h.initiatorKeys hseals above nofun
  | data =>
    rw [List.append_nil] at hseals
    exact h.initiatorQuiet honest h.initiatorRole h.initiatorKeys hseals above h.initiatorReady

/-- A call on the responder keeps the order when what it delivers was not forged. -/
theorem Ordered.responderCall (aead : S.Aead) (h : Ordered S keys r) {c : Call}
    (drawn : c.Drawn S) (unforged : c.Unforged S r r.responder.session) :
    Ordered S keys { r with responder := r.responder.call S c } := by
  have honest := Traced.call_honest aead h.honest.2 c
  have hseals := Traced.call_handshakeSeals (S := S) r.responder c
  have did : ResponderDid S r.responder.session c (r.responder.call S c).session _ :=
    responderCall_did aead h.responderRole c
  generalize r.responder.call S c = t at honest hseals did ⊢
  generalize handshakeSeals (sessionActs S r.responder.session c) = seals at did hseals
  obtain ⟨s', log⟩ := t
  dsimp only at did
  cases did with
  | nothing =>
    rw [List.append_nil] at hseals
    exact h.responderQuiet honest h.responderRole h.responderKeys hseals
      (fun hseen => ⟨hseen, rfl⟩) h.responderReady
  | started kp =>
    rw [List.append_nil] at hseals
    exact h.responderQuiet honest h.responderRole h.responderKeys hseals
      (fun hseen => ⟨hseen, rfl⟩) fun _ => ⟨drawn, start_dataReset kp _⟩
  | @underived kp =>
    rw [List.append_nil] at hseals
    refine h.responderQuiet honest ?_ ?_ hseals ?_ fun _ => h.reattempt_ready drawn
    · simpa only [reattempt_role] using h.responderRole
    · simpa only [reattempt_staticKeys] using h.responderKeys
    · intro hseen
      simp only [reattempt_haveSeenHandshake] at hseen
      exact ⟨hseen, reattempt_highestHandshakeCounterSeen ..⟩
  | answered read =>
    obtain ⟨m, hm, _, hcounter, _⟩ := h.readInit read unforged
    exact h.responderAnswered honest drawn hm hcounter hseals
  | data established =>
    rw [List.append_nil] at hseals
    exact h.responderQuiet honest h.responderRole h.responderKeys hseals
      (fun hseen => ⟨hseen, rfl⟩) fun hp => nomatch established.symm.trans hp

theorem Traced.restart_handshakeSeals (role : CryptoRole) (own : KeyPair) (peer : PublicKey)
    (time : UInt64) (kp : KeyPair) (t : Traced) :
    handshakeSeals (t.restart S role own peer time kp).log = handshakeSeals t.log := by
  unfold Traced.restart
  split
  · rfl
  · rw [handshakeSeals_append]
    exact List.append_nil _

/-- What a restart leaves: `session_init` of the same identities. -/
theorem Traced.restart_session {role : CryptoRole} {own : KeyPair} {peer : PublicKey}
    {static : SessionKeys} (time : UInt64) (kp : KeyPair) (t : Traced)
    (derived : cryptoDeriveSessionKeys S role own.pk own.sk peer = some static) :
    (t.restart S role own peer time kp).session = sessionStartHandshake kp { Session.zero with
      role := role, staticKeys := static, handshakeCounter := time } := by
  simp only [Traced.restart, sessionInit, derived]

/-- **A granted move keeps the order.** Only the initiator chooses counters, and it moves its own
past each; what the responder seals or remembers it has read from the initiator. -/
theorem Ordered.step (aead : S.Aead) (derive : ids.Derive S keys) (h : Ordered S keys r)
    {m : Move} (granted : m.Granted S r) : Ordered S keys (r.step S ids m) := by
  obtain ⟨unforged, drawn, clocked, room⟩ := granted
  cases m with
  | initiator c =>
    refine h.initiatorCall aead drawn fun outLen hc => ?_
    subst hc
    exact room
  | responder c => exact h.responderCall aead drawn unforged
  | initiate kp =>
    have started := h.initiatorCall (c := .startHandshake kp) aead drawn nofun
    exact started.initiatorCall aead trivial fun _ _ => room
  | restartInitiator time kp =>
    have hsession := Traced.restart_session time kp r.initiator derive.initiator
    refine h.initiatorQuiet (Traced.restart_honest h.honest.1 _ _ _ _ _) ?_ ?_
      (Traced.restart_handshakeSeals ..) ?_ ?_
    · rw [hsession, start_role]
    · rw [hsession, start_staticKeys]
    · rw [hsession, start_handshakeCounter]
      exact clocked
    · rw [hsession, start_ephemeral]
      exact fun _ => drawn
  | restartResponder time kp =>
    have hsession := Traced.restart_session time kp r.responder derive.responder
    refine h.responderQuiet (Traced.restart_honest h.honest.2 _ _ _ _ _) ?_ ?_
      (Traced.restart_handshakeSeals ..) ?_ ?_
    · rw [hsession, start_role]
    · rw [hsession, start_staticKeys]
    · rw [hsession, start_haveSeenHandshake]
      exact nofun
    · rw [hsession, start_ephemeral]
      exact fun _ => ⟨drawn, start_dataReset kp _⟩

/-- Two processes just started are in order. -/
theorem Ordered.started {timeI timeR : UInt64} {kpI kpR : KeyPair} (derive : ids.Derive S keys)
    (drawnI : kpI.Matches S) (drawnR : kpR.Matches S)
    (started : r.Started S ids timeI timeR kpI kpR) : Ordered S keys r := by
  obtain ⟨i, s, hi, hs, rfl⟩ := started
  obtain ⟨_, hkeysI, rfl⟩ := sessionInit_eq_some hi
  obtain ⟨_, hkeysR, rfl⟩ := sessionInit_eq_some hs
  cases derive.initiator.symm.trans hkeysI
  cases derive.responder.symm.trans hkeysR
  exact {
    initiatorRole := rfl
    initiatorKeys := rfl
    responderRole := rfl
    responderKeys := rfl
    honest := ⟨fun a ha => by cases List.mem_singleton.mp ha; trivial,
      fun a ha => by cases List.mem_singleton.mp ha; trivial⟩
    inits := nofun
    apart := nofun
    responses := nofun
    seen := nofun
    initiatorReady := fun _ => drawnI
    responderReady := fun _ => ⟨drawnR, start_dataReset kpR _⟩ }

/-- **The order holds in every state of a granted run.** -/
theorem ordered_run (aead : S.Aead) (derive : ids.Derive S keys) (h : Ordered S keys r)
    {moves : List Move}
    (granted : Runs.Admitted (Relationship.step S ids) (fun r m => m.Granted S r) r moves) :
    Ordered S keys (moves.foldl (Relationship.step S ids) r) :=
  Runs.invariant_foldl (fun _ _ h g => h.step aead derive g) h granted

/-- Identities whose long-term pairs match derive static keys. -/
theorem Identities.derive (kx : S.Kx) (initiator : ids.initiator.Matches S)
    (responder : ids.responder.Matches S) : ∃ keys, ids.Derive S keys := by
  obtain ⟨keys, hi, hr⟩ := cryptoDeriveSessionKeys_agree kx initiator responder
  exact ⟨keys, hi, hr⟩

end EdgarVPN
