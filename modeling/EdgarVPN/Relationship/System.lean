import EdgarVPN.Session.Nonces

/-!
# One relationship: two sessions and the network between them

A relationship is an initiator and a responder, each a session with its log, initialised from each
other's long-term keys. A `Move` is one thing that happens to it: a call on either side, with
whatever bytes the network delivers; an `initiate`, which starts and sends an attempt as
`initiate_handshake` of `src/main.c` does; or a restart of either process, which runs
`session_init` again with the same long-term keys and keeps nothing but the log of what was sent.

The network is not a component. It drops, duplicates, reorders and injects at will because the
input of a call is arbitrary. What it cannot do is said by guards on moves:

- `Move.Unforged`: a payload that authenticates under the static receive key of the side it is
  delivered to was sealed under that key, by one of the two sides, in a handshake message;
- `Move.DataUnforged`: the same of data packets and the data key of an established session; a
  session that is not established is handed any bytes at all;
- `Move.Drawn`: every pair drawn is one that key generation can draw;
- `Move.Clocked`: a restarted initiator is seeded with a second above every counter it used;
- `Move.NoWrap`: the 64-bit handshake counter is not at its end when an init is built.
-/

set_option autoImplicit false

namespace EdgarVPN

/-! ## What was sealed -/

/-- A handshake message sealed: an ephemeral public key under a static key. -/
structure HandshakeSeal where
  key : SessionKey
  counter : UInt64
  pk : PublicKey
  packet : Bytes
deriving DecidableEq

/-- The handshake messages sealed, in order. -/
def handshakeSeals (log : List Act) : List HandshakeSeal :=
  log.filterMap fun
    | .sealedHandshake key counter pk packet => some ⟨key, counter, pk, packet⟩
    | _ => none

/-- A data packet sealed and returned. -/
structure DataSeal where
  key : SessionKey
  counter : UInt64
  plaintext : Bytes
  packet : Bytes
deriving DecidableEq

/-- The data packets sealed, in order, of which `session_seal_data` returned the message
(`sealedData_returned`). -/
def dataSeals (log : List Act) : List DataSeal :=
  log.filterMap fun
    | .sealedData key counter plaintext packet =>
      if 1 + packet.length < ssizeRange then some ⟨key, counter, plaintext, packet⟩ else none
    | _ => none

theorem handshakeSeals_append (log acts : List Act) :
    handshakeSeals (log ++ acts) = handshakeSeals log ++ handshakeSeals acts :=
  List.filterMap_append

theorem mem_handshakeSeals {log : List Act} {h : HandshakeSeal} :
    h ∈ handshakeSeals log ↔ Act.sealedHandshake h.key h.counter h.pk h.packet ∈ log := by
  constructor
  · intro hm
    obtain ⟨act, hact, heq⟩ := List.mem_filterMap.mp hm
    split at heq
    · cases heq; exact hact
    · cases heq
  · intro hact
    exact List.mem_filterMap.mpr ⟨_, hact, rfl⟩

theorem mem_dataSeals {log : List Act} {d : DataSeal} :
    d ∈ dataSeals log ↔ Act.sealedData d.key d.counter d.plaintext d.packet ∈ log ∧
      1 + d.packet.length < ssizeRange := by
  constructor
  · intro hm
    obtain ⟨act, hact, heq⟩ := List.mem_filterMap.mp hm
    split at heq
    · split at heq
      · next returned => cases heq; exact ⟨hact, returned⟩
      · cases heq
    · cases heq
  · rintro ⟨hact, returned⟩
    exact List.mem_filterMap.mpr ⟨_, hact, if_pos returned⟩

/-! ## The system -/

/-- The long-term pairs of the two sides. -/
structure Identities where
  initiator : KeyPair
  responder : KeyPair

/-- A relationship: its two sides. -/
structure Relationship where
  initiator : Traced
  responder : Traced
deriving DecidableEq

/-- One thing that happens to a relationship. -/
inductive Move where
  | initiator (c : Call)
  | responder (c : Call)
  | initiate (kp : KeyPair)
  | restartInitiator (time : UInt64) (kp : KeyPair)
  | restartResponder (time : UInt64) (kp : KeyPair)
deriving DecidableEq

variable (S : Sodium) (ids : Identities)

/-- `session_init` of a process that runs with this long-term pair; what it sent before stays
sent. -/
def Traced.restart (role : CryptoRole) (own : KeyPair) (peer : PublicKey) (time : UInt64)
    (kp : KeyPair) (t : Traced) : Traced :=
  match sessionInit S role own.pk own.sk peer time kp with
  | none => t
  | some s => ⟨s, t.log ++ [.generated kp.pk]⟩

/-- The relationship after a move. -/
def Relationship.step (r : Relationship) : Move → Relationship
  | .initiator c => { r with initiator := r.initiator.call S c }
  | .responder c => { r with responder := r.responder.call S c }
  | .initiate kp =>
    let started := r.initiator.call S (.startHandshake kp)
    { r with initiator := started.call S (.buildInit sealedBufSize) }
  | .restartInitiator time kp =>
    let restarted := r.initiator.restart S .initiator ids.initiator ids.responder.pk time kp
    { r with initiator := restarted }
  | .restartResponder time kp =>
    let restarted := r.responder.restart S .responder ids.responder ids.initiator.pk time kp
    { r with responder := restarted }

/-- Both processes started: `session_init` on each side. -/
def Relationship.Started (timeI timeR : UInt64) (kpI kpR : KeyPair) (r : Relationship) : Prop :=
  ∃ i s, sessionInit S .initiator ids.initiator.pk ids.initiator.sk ids.responder.pk timeI kpI =
      some i ∧
    sessionInit S .responder ids.responder.pk ids.responder.sk ids.initiator.pk timeR kpR =
      some s ∧
    r = ⟨Traced.init i kpI, Traced.init s kpR⟩

/-- The inits the initiator sealed. -/
def Relationship.inits (r : Relationship) : List HandshakeSeal := handshakeSeals r.initiator.log

/-- The responses the responder sealed. -/
def Relationship.responses (r : Relationship) : List HandshakeSeal :=
  handshakeSeals r.responder.log

/-- Every data packet that either side sealed and returned. -/
def Relationship.dataSeals (r : Relationship) : List DataSeal :=
  EdgarVPN.dataSeals r.initiator.log ++ EdgarVPN.dataSeals r.responder.log

/-! ## Guards -/

/-- The payload was not forged under the static key: if it authenticates under it, one of the two
sides sealed it under it. -/
def Relationship.Genuine (r : Relationship) (key : SessionKey) (payload : Bytes) : Prop :=
  (authenticates S key payload).isSome = true →
    ∃ h ∈ r.inits ++ r.responses, h.key = key ∧ h.packet = payload

/-- The payload was not forged under the data key. -/
def Relationship.DataGenuine (r : Relationship) (key : SessionKey) (payload : Bytes) : Prop :=
  (authenticates S key payload).isSome = true →
    ∃ d ∈ r.dataSeals, d.key = key ∧ d.packet = payload

instance (r : Relationship) (key : SessionKey) (payload : Bytes) :
    Decidable (r.Genuine S key payload) := inferInstanceAs (Decidable (_ → _))

instance (r : Relationship) (key : SessionKey) (payload : Bytes) :
    Decidable (r.DataGenuine S key payload) := inferInstanceAs (Decidable (_ → _))

/-- The handshake message a call hands to a session is genuine under its static key. -/
def Call.Unforged (r : Relationship) (s : Session) : Call → Prop
  | .handleInit _ input _ => r.Genuine S s.staticKeys.rx input.tail
  | .handleResponse input => r.Genuine S s.staticKeys.rx input.tail
  | _ => True

/-- The data packet a call hands to an established session is genuine under its data key. Of a
session that is not established nothing is granted: its keys are the last handshake's, or the zeros
of `memset` that anyone can seal under, and it has to refuse whatever it is handed. -/
def Call.DataUnforged (r : Relationship) (s : Session) : Call → Prop
  | .openData input _ => s.state = .established → r.DataGenuine S s.dataKeys.rx input.tail
  | _ => True

/-- The pair a call may draw is one that can be drawn. -/
def Call.Drawn : Call → Prop
  | .startHandshake kp => kp.Matches S
  | .handleInit kp _ _ => kp.Matches S
  | _ => True

instance (r : Relationship) (s : Session) : ∀ c : Call, Decidable (c.Unforged S r s)
  | .handleInit .. | .handleResponse .. => inferInstanceAs (Decidable (Relationship.Genuine ..))
  | .startHandshake _ | .buildInit _ | .sealData .. | .openData .. =>
    inferInstanceAs (Decidable True)

instance (r : Relationship) (s : Session) : ∀ c : Call, Decidable (c.DataUnforged S r s)
  | .openData .. => inferInstanceAs (Decidable (_ → Relationship.DataGenuine ..))
  | .startHandshake _ | .buildInit _ | .sealData .. | .handleInit .. | .handleResponse _ =>
    inferInstanceAs (Decidable True)

instance : ∀ c : Call, Decidable (c.Drawn S)
  | .startHandshake _ | .handleInit .. => inferInstanceAs (Decidable (KeyPair.Matches ..))
  | .buildInit _ | .sealData .. | .openData .. | .handleResponse _ =>
    inferInstanceAs (Decidable True)

def Move.Unforged (r : Relationship) : Move → Prop
  | .initiator c => c.Unforged S r r.initiator.session
  | .responder c => c.Unforged S r r.responder.session
  | _ => True

def Move.DataUnforged (r : Relationship) : Move → Prop
  | .initiator c => c.DataUnforged S r r.initiator.session
  | .responder c => c.DataUnforged S r r.responder.session
  | _ => True

def Move.Drawn : Move → Prop
  | .initiator c => c.Drawn S
  | .responder c => c.Drawn S
  | .initiate kp => kp.Matches S
  | .restartInitiator _ kp => kp.Matches S
  | .restartResponder _ kp => kp.Matches S

/-- A restarted initiator reads a second above every counter it used. -/
def Move.Clocked (r : Relationship) : Move → Prop
  | .restartInitiator time _ =>
    ∀ h ∈ r.inits, h.counter < time
  | _ => True

/-- The handshake counter has room for one more init. -/
def Move.NoWrap (r : Relationship) : Move → Prop
  | .initiator (.buildInit _) => r.initiator.session.handshakeCounter.toNat + 1 < 2 ^ 64
  | .initiate _ => r.initiator.session.handshakeCounter.toNat + 1 < 2 ^ 64
  | _ => True

instance (r : Relationship) : ∀ m : Move, Decidable (m.Unforged S r)
  | .initiator _ | .responder _ => inferInstanceAs (Decidable (Call.Unforged ..))
  | .initiate _ | .restartInitiator .. | .restartResponder .. => inferInstanceAs (Decidable True)

instance (r : Relationship) : ∀ m : Move, Decidable (m.DataUnforged S r)
  | .initiator _ | .responder _ => inferInstanceAs (Decidable (Call.DataUnforged ..))
  | .initiate _ | .restartInitiator .. | .restartResponder .. => inferInstanceAs (Decidable True)

instance : ∀ m : Move, Decidable (m.Drawn S)
  | .initiator _ | .responder _ => inferInstanceAs (Decidable (Call.Drawn ..))
  | .initiate _ | .restartInitiator .. | .restartResponder .. =>
    inferInstanceAs (Decidable (KeyPair.Matches ..))

instance (r : Relationship) : ∀ m : Move, Decidable (m.Clocked r)
  | .restartInitiator .. => inferInstanceAs (Decidable (∀ _ ∈ _, _))
  | .initiator _ | .responder _ | .initiate _ | .restartResponder .. =>
    inferInstanceAs (Decidable True)

instance (r : Relationship) : ∀ m : Move, Decidable (m.NoWrap r)
  | .initiator (.buildInit _) | .initiate _ => inferInstanceAs (Decidable (_ < _))
  | .initiator (.startHandshake _) | .initiator (.handleInit ..) | .initiator (.handleResponse _)
  | .initiator (.sealData ..) | .initiator (.openData ..) | .responder _ | .restartInitiator ..
  | .restartResponder .. => inferInstanceAs (Decidable True)

/-- What every run grants: nothing is forged under the static keys, drawn pairs can be drawn, a
restarted initiator's clock is ahead, and the handshake counter does not wrap. -/
def Move.Granted (r : Relationship) (m : Move) : Prop :=
  m.Unforged S r ∧ m.Drawn S ∧ m.Clocked r ∧ m.NoWrap r

instance (r : Relationship) (m : Move) : Decidable (m.Granted S r) :=
  inferInstanceAs (Decidable (_ ∧ _ ∧ _ ∧ _))

/-! ## The logs -/

theorem Traced.restart_log (role : CryptoRole) (own : KeyPair) (peer : PublicKey) (time : UInt64)
    (kp : KeyPair) (t : Traced) :
    ∃ acts, (t.restart S role own peer time kp).log = t.log ++ acts := by
  unfold Traced.restart
  split
  · exact ⟨[], (List.append_nil _).symm⟩
  · exact ⟨_, rfl⟩

/-- A move only adds to the logs. -/
theorem Relationship.step_log (r : Relationship) (m : Move) :
    (∃ acts, (r.step S ids m).initiator.log = r.initiator.log ++ acts) ∧
      ∃ acts, (r.step S ids m).responder.log = r.responder.log ++ acts := by
  have same : ∀ log : List Act, ∃ acts, log = log ++ acts :=
    fun log => ⟨[], (List.append_nil log).symm⟩
  cases m with
  | initiator c => exact ⟨⟨_, rfl⟩, same _⟩
  | responder c => exact ⟨same _, ⟨_, rfl⟩⟩
  | initiate kp => exact ⟨⟨_, List.append_assoc ..⟩, same _⟩
  | restartInitiator time kp => exact ⟨Traced.restart_log .., same _⟩
  | restartResponder time kp => exact ⟨same _, Traced.restart_log ..⟩

/-! ## What the log says is what was sealed -/

variable {S}

/-- A sealed packet in the log authenticates as what the log says it carries. -/
def Act.Honest (S : Sodium) : Act → Prop
  | .sealedHandshake key counter pk packet =>
    authenticates S key packet = some (pk.bytes, counter)
  | .sealedData key counter plaintext packet =>
    authenticates S key packet = some (plaintext, counter)
  | _ => True

/-- An entry that stands for a call that was made is honest, because opening undoes sealing. -/
theorem Act.Made.honest (aead : S.Aead) {s s' : Session} {c : Call} {a : Act}
    (made : a.Made S s c s') : a.Honest S := by
  cases a with
  | sealedHandshake key counter pk packet =>
    obtain ⟨_, _, _, sealed⟩ := made
    exact authenticates_cryptoSeal aead sealed
  | sealedData key counter plaintext packet =>
    obtain ⟨_, _, _, sealed⟩ := made
    exact authenticates_cryptoSeal aead sealed
  | generated => trivial
  | derived => trivial
  | openedData => trivial

/-- Every entry of both logs is honest. -/
def Relationship.Honest (S : Sodium) (r : Relationship) : Prop :=
  (∀ a ∈ r.initiator.log, a.Honest S) ∧ ∀ a ∈ r.responder.log, a.Honest S

theorem Traced.call_honest (aead : S.Aead) {t : Traced} (h : ∀ a ∈ t.log, a.Honest S) (c : Call) :
    ∀ a ∈ (t.call S c).log, a.Honest S := by
  intro a ha
  rcases List.mem_append.mp ha with ha | ha
  · exact h a ha
  · exact (sessionActs_made t.session c a ha).honest aead

theorem Traced.restart_honest {t : Traced} (h : ∀ a ∈ t.log, a.Honest S) (role : CryptoRole)
    (own : KeyPair) (peer : PublicKey) (time : UInt64) (kp : KeyPair) :
    ∀ a ∈ (t.restart S role own peer time kp).log, a.Honest S := by
  unfold Traced.restart
  split
  · exact h
  · intro a ha
    rcases List.mem_append.mp ha with ha | ha
    · exact h a ha
    · cases List.mem_singleton.mp ha; trivial

/-- A genuine payload that authenticates carries what some side sealed in it. -/
theorem Relationship.Genuine.sealed {r : Relationship} (honest : r.Honest S) {key : SessionKey}
    {payload : Bytes} (genuine : r.Genuine S key payload) {pk : PublicKey} {counter : UInt64}
    (opens : authenticates S key payload = some (pk.bytes, counter)) :
    ∃ h ∈ r.inits ++ r.responses, h.key = key ∧ h.counter = counter ∧ h.pk = pk := by
  obtain ⟨h, hmem, rfl, rfl⟩ := genuine (by rw [opens]; rfl)
  have hauth : authenticates S h.key h.packet = some (h.pk.bytes, h.counter) := by
    rcases List.mem_append.mp hmem with hm | hm
    · exact honest.1 _ (mem_handshakeSeals.mp hm)
    · exact honest.2 _ (mem_handshakeSeals.mp hm)
  rw [opens] at hauth
  obtain ⟨hpk, hcounter⟩ := Prod.mk.inj (Option.some.inj hauth)
  refine ⟨h, hmem, rfl, hcounter.symm, ?_⟩
  have := congrArg (Block.ofBytes? cryptoPublicKeyBytes) hpk
  rw [Block.ofBytes?_bytes, Block.ofBytes?_bytes] at this
  exact (Option.some.inj this).symm

/-! ## A sample -/

/-- Two identities over the reference library, and the static keys they derive. -/
def sampleIdentities : Identities := ⟨referencePair 1, referencePair 2⟩

def sampleKeys : SessionKeys :=
  (cryptoDeriveSessionKeys reference .initiator (referencePair 1).pk (referencePair 1).sk
    (referencePair 2).pk).getD ⟨Block.zero _, Block.zero _⟩

/-- Their relationship just started: the initiator at second 100. -/
def sampleStart : Relationship where
  initiator := Traced.init ((sessionInit reference .initiator (referencePair 1).pk
    (referencePair 1).sk (referencePair 2).pk 100 (referencePair 3)).getD Session.zero)
    (referencePair 3)
  responder := Traced.init ((sessionInit reference .responder (referencePair 2).pk
    (referencePair 2).sk (referencePair 1).pk 100 (referencePair 4)).getD Session.zero)
    (referencePair 4)

theorem sampleStart_started :
    sampleStart.Started reference sampleIdentities 100 100 (referencePair 3) (referencePair 4) :=
  ⟨_, _, by decide +kernel, by decide +kernel, rfl⟩

/-- The messages the two sides send with a counter and an ephemeral pair. -/
def sampleInit (counter : UInt64) (kp : KeyPair) : Bytes :=
  sessionMsgHandshakeInit ::
    (cryptoSeal reference sampleKeys.tx counter kp.pk.bytes 56).getD []

def sampleResponse (counter : UInt64) (kp : KeyPair) : Bytes :=
  sessionMsgHandshakeResponse ::
    (cryptoSeal reference sampleKeys.rx counter kp.pk.bytes 56).getD []

end EdgarVPN
