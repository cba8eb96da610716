import EdgarVPN.Relationship.System

/-!
# Data delivery across rekeys

`session_start_handshake` clears the replay window and sets the counter back, so a packet of an
older epoch could be taken for a new one if the keys did not change with them. The invariant of one
side (`Windows`) says that every packet it opened belongs to an earlier epoch, whose key is gone, or
is remembered by the window; that of the two sides (`Delivered`) says that what one opened the other
sealed.

**What is proved.** `data_delivered`: over any calls on two running sides, with any delivery, every
packet opened was sealed by the other side with that plaintext, and no packet is opened twice. Bytes
are withheld from the network only where a session is established: nothing it delivers there
authenticates under the session's data key unless a side sealed it. A session that is still pending
holds the zeros of `session_init`, or old keys, and is handed whatever the network likes.
-/

set_option autoImplicit false

namespace EdgarVPN

/-! ## Reading the log -/

/-- The key and counter of every data packet opened, in order. -/
def openedNonces (log : List Act) : List (SessionKey × UInt64) :=
  log.filterMap fun
    | .openedData key counter _ => some (key, counter)
    | _ => none

theorem openedNonces_append (log acts : List Act) :
    openedNonces (log ++ acts) = openedNonces log ++ openedNonces acts :=
  List.filterMap_append

theorem mem_openedNonces {log : List Act} {key : SessionKey} {counter : UInt64} :
    (key, counter) ∈ openedNonces log ↔ ∃ plaintext,
      Act.openedData key counter plaintext ∈ log := by
  constructor
  · intro h
    obtain ⟨act, hact, heq⟩ := List.mem_filterMap.mp h
    split at heq
    · cases heq; exact ⟨_, hact⟩
    · cases heq
  · rintro ⟨plaintext, hact⟩
    exact List.mem_filterMap.mpr ⟨_, hact, rfl⟩

/-- What a run assumes of one side's pairs and keys: every pair drawn is new, derivations from
different combinations of pairs give different keys, and no key of one direction is one of the
other. -/
structure KeysApart (log : List Act) : Prop where
  fresh : (generatedKeys log).Nodup
  combinations : ∀ d ∈ derivations log, ∀ d' ∈ derivations log,
    (d.localPk, d.remotePk) ≠ (d'.localPk, d'.remotePk) →
      d.keys.tx ≠ d'.keys.tx ∧ d.keys.rx ≠ d'.keys.rx
  directions : ∀ d ∈ derivations log, ∀ d' ∈ derivations log, d.keys.tx ≠ d'.keys.rx

instance (log : List Act) : Decidable (KeysApart log) :=
  decidable_of_iff ((generatedKeys log).Nodup ∧
      (∀ d ∈ derivations log, ∀ d' ∈ derivations log,
        (d.localPk, d.remotePk) ≠ (d'.localPk, d'.remotePk) →
          d.keys.tx ≠ d'.keys.tx ∧ d.keys.rx ≠ d'.keys.rx) ∧
      ∀ d ∈ derivations log, ∀ d' ∈ derivations log, d.keys.tx ≠ d'.keys.rx)
    ⟨fun h => ⟨h.1, h.2.1, h.2.2⟩, fun h => ⟨h.1, h.2, h.3⟩⟩

theorem KeysApart.of_append {log acts : List Act} (h : KeysApart (log ++ acts)) :
    KeysApart log := by
  have hsub : ∀ d ∈ derivations log, d ∈ derivations (log ++ acts) := fun d hd =>
    mem_derivations.mpr (List.mem_append_left _ (mem_derivations.mp hd))
  have fresh := h.fresh
  rw [generatedKeys_append] at fresh
  exact ⟨fresh.of_append_left, fun d hd d' hd' => h.combinations d (hsub d hd) d' (hsub d' hd'),
    fun d hd d' hd' => h.directions d (hsub d hd) d' (hsub d' hd')⟩

theorem KeysApart.pairs {log : List Act} (h : KeysApart log) {d d' : Derivation}
    (hd : d ∈ derivations log) (hd' : d' ∈ derivations log) (hne : d.localPk ≠ d'.localPk) :
    d.keys.tx ≠ d'.keys.tx ∧ d.keys.rx ≠ d'.keys.rx :=
  h.combinations d hd d' hd' fun heq => hne (Prod.mk.inj heq).1

theorem KeysApart.freshPairs {log : List Act} (h : KeysApart log) : FreshPairs log :=
  ⟨h.fresh, fun _ hd _ hd' hne => (h.pairs hd hd' hne).1⟩

/-! ## One side -/

/-- Every packet opened is of an earlier epoch, or remembered by the window. -/
structure Windows (t : Traced) : Prop where
  behind : ∃ seen, t.session.Seen seen ∧ ∀ {key counter plaintext},
    Act.openedData key counter plaintext ∈ t.log →
      t.Spent SessionKeys.rx (fun c => c.toNat ∈ seen) key counter
  unique : (openedNonces t.log).Nodup

section Windows

variable {s s' : Session} {log acts : List Act}

theorem openedData_mem_append (quiet : openedNonces acts = []) {key : SessionKey}
    {counter : UInt64} {plaintext : Bytes}
    (h : Act.openedData key counter plaintext ∈ log ++ acts) :
    Act.openedData key counter plaintext ∈ log := by
  rcases List.mem_append.mp h with h | h
  · exact h
  · have := mem_openedNonces.mpr ⟨plaintext, h⟩
    rw [quiet] at this
    cases this

/-- A call that opens nothing and leaves the epoch and its window. -/
theorem Windows.quiet (h : Windows ⟨s, log⟩) (opened : openedNonces acts = [])
    (hpk : s'.localEphPk = s.localEphPk) (hstate : s'.state = s.state)
    (hkeys : s.state = .established → s'.dataKeys = s.dataKeys) (hwindow : s'.window = s.window) :
    Windows ⟨s', log ++ acts⟩ := by
  obtain ⟨seen, hseen, hbehind⟩ := h.behind
  refine ⟨⟨seen, ?_, fun hmem => ?_⟩, ?_⟩
  · unfold Session.Seen at hseen ⊢
    rw [hwindow]
    exact hseen
  · exact (hbehind (openedData_mem_append opened hmem)).quiet hpk hstate hkeys id
  · rw [openedNonces_append, opened, List.append_nil]
    exact h.unique

/-- A call that leaves every derivation behind and holds a reset channel. -/
theorem Windows.earlier (h : Windows ⟨s, log⟩) (opened : openedNonces acts = [])
    (apart : ∀ {l r k}, Act.derived l r k ∈ log → l ≠ s'.localEphPk) (reset : s'.DataReset) :
    Windows ⟨s', log ++ acts⟩ := by
  obtain ⟨seen, _, hbehind⟩ := h.behind
  refine ⟨⟨∅, reset.seen, fun hmem => ?_⟩, ?_⟩
  · exact (hbehind (openedData_mem_append opened hmem)).earlier apart
  · rw [openedNonces_append, opened, List.append_nil]
    exact h.unique

/-- Opening a packet with a counter the window takes for fresh. -/
theorem Windows.open (h : Windows ⟨s, log⟩) (epochs : Epochs ⟨s, log⟩) (apart : KeysApart log)
    (established : s.state = .established) {counter : UInt64} (plaintext : Bytes)
    (fresh : (replayCheckAndMark s counter).2 = true) :
    Windows ⟨(replayCheckAndMark s counter).1,
      log ++ [.openedData s.dataKeys.rx counter plaintext]⟩ := by
  obtain ⟨seen, hseen, hbehind⟩ := h.behind
  obtain ⟨r₀, hcur⟩ := epochs.inUse established
  obtain ⟨w, hw⟩ := replayCheckAndMark_frame s counter
  have new : counter.toNat ∉ seen := ((replayCheckAndMark_accepts hseen counter).mp fresh).1
  refine ⟨⟨insert counter.toNat seen, replayCheckAndMark_seen hseen fresh, fun hmem => ?_⟩, ?_⟩
  · rw [hw]
    rcases List.mem_append.mp hmem with hmem | hmem
    · exact (hbehind hmem).quiet rfl rfl (fun _ => rfl) (Finset.mem_insert_of_mem)
    · cases List.mem_singleton.mp hmem
      exact ⟨_, r₀, _, List.mem_append_left _ hcur, rfl,
        .inr ⟨established, rfl, Finset.mem_insert_self ..⟩⟩
  · rw [openedNonces_append, List.nodup_append]
    refine ⟨h.unique, List.nodup_singleton _, fun a ha b hb heq => ?_⟩
    cases List.mem_singleton.mp hb
    subst heq
    obtain ⟨_, hopened⟩ := mem_openedNonces.mp ha
    exact new ((hbehind hopened).in_epoch hcur fun d hd d' hd' hne => (apart.pairs hd hd' hne).2)

theorem Windows.reattempt (h : Windows ⟨s, log⟩) (epochs : Epochs ⟨s, log⟩) {kp : KeyPair}
    (rest : List Act) (fresh : FreshPairs (log ++ (s.redrawn kp ++ rest))) :
    Windows ⟨s.reattempt kp, log ++ s.redrawn kp⟩ := by
  cases hstate : s.state with
  | handshakePending =>
    have hnone : s.redrawn kp = [] := if_neg (by rw [hstate]; exact nofun)
    rw [hnone, reattempt_pending kp s hstate, List.append_nil]
    exact h
  | established =>
    have hone : s.redrawn kp = [.generated kp.pk] := if_pos hstate
    rw [hone] at fresh
    rw [hone, reattempt_established kp s hstate]
    refine h.earlier rfl (fun hd heq => ?_) (start_dataReset kp s)
    rw [start_localEphPk] at heq
    exact fresh.not_mem (heq ▸ epochs.derived_drawn hd)

end Windows

/-- **A call keeps what was opened behind the session.** A packet opened under the key in use is in
the replay window; one opened under an earlier key is past, since keys that were derived later
differ. -/
theorem Windows.call {S : Sodium} {t : Traced} (h : Windows t) (epochs : Epochs t) (c : Call)
    (apart : KeysApart (t.call S c).log) : Windows (t.call S c) := by
  obtain ⟨s, log⟩ := t
  simp only [Traced.call] at apart ⊢
  have did := sessionCall_did (S := S) s c
  generalize sessionCall S s c = s' at did ⊢
  generalize sessionActs S s c = acts at did apart ⊢
  have fresh := apart.freshPairs
  cases did with
  | nothing => exact h.quiet rfl rfl rfl (fun _ => rfl) rfl
  | started kp =>
    refine h.earlier rfl (fun hd heq => ?_) (start_dataReset kp s)
    rw [start_localEphPk] at heq
    exact fresh.not_mem (heq ▸ epochs.derived_drawn hd)
  | built => exact h.quiet rfl rfl rfl (fun _ => rfl) rfl
  | underived => exact h.reattempt epochs [] (by rwa [List.append_nil])
  | @unsealed kp input outLen peer counter keys =>
    have hre := h.reattempt epochs [] (by rwa [List.append_nil])
    have hquiet : Windows ⟨{ s.reattempt kp with dataKeys := keys, localEphSk := Block.zero _ },
        (log ++ s.redrawn kp) ++ []⟩ :=
      hre.quiet rfl rfl rfl (fun he => by rw [reattempt_state] at he; cases he) rfl
    rwa [List.append_nil] at hquiet
  | @answered kp input outLen peer counter keys packet =>
    have hre := h.reattempt epochs _ fresh
    have hepochs := epochs.reattempt _ fresh
    rw [← List.append_assoc]
    exact hre.earlier rfl (hepochs.unused (reattempt_state kp s))
      (hepochs.reset (reattempt_state kp s))
  | completed read =>
    have pending := (sessionReadResponse_eq_some read).2.1
    exact h.earlier rfl (epochs.unused pending) (epochs.reset pending)
  | sealed established => exact h.quiet rfl rfl rfl (fun _ => rfl) rfl
  | opened established _ check => exact h.open epochs apart.of_append established _ check

/-! ## Two sides -/

/-- What one side opened, the other sealed and returned. -/
def Delivered (own other : Traced) : Prop :=
  ∀ key counter plaintext, Act.openedData key counter plaintext ∈ own.log →
    ∃ packet, Act.sealedData key counter plaintext packet ∈ other.log ∧
      1 + packet.length < ssizeRange

variable {S : Sodium} {ids : Identities} {r : Relationship}

theorem Delivered.other_call {own other : Traced} (h : Delivered own other) (c : Call) :
    Delivered own (other.call S c) := by
  intro key counter plaintext hopened
  obtain ⟨packet, hsealed, returned⟩ := h key counter plaintext hopened
  exact ⟨packet, List.mem_append_left _ hsealed, returned⟩

/-- A packet opened was sealed by the other side: its key is one this side only receives with. -/
theorem Delivered.own_call {own other : Traced} (h : Delivered own other)
    (honest : ∀ a ∈ own.log ++ other.log, a.Honest S) (epochs : Epochs own)
    (apart : KeysApart own.log) {c : Call}
    (genuine : ∀ input out, c = .openData input out → own.session.state = .established →
      (authenticates S own.session.dataKeys.rx input.tail).isSome = true →
        ∃ d ∈ dataSeals (own.log ++ other.log), d.key = own.session.dataKeys.rx ∧
          d.packet = input.tail) :
    Delivered (own.call S c) other := by
  obtain ⟨s, log⟩ := own
  intro key counter plaintext hopened
  have did := sessionCall_did (S := S) s c
  simp only [Traced.call] at hopened
  generalize sessionCall S s c = s' at did
  generalize sessionActs S s c = acts at did hopened
  rcases List.mem_append.mp hopened with hopened | hnew
  · exact h key counter plaintext hopened
  have opens : openedNonces acts ≠ [] := by
    intro hnil
    have := mem_openedNonces.mpr ⟨plaintext, hnew⟩
    rw [hnil] at this
    cases this
  have redrawn : ∀ kp, openedNonces (s.redrawn kp) = [] := by
    intro kp
    unfold Session.redrawn
    split <;> rfl
  cases did with
  | opened established authentic fresh =>
    cases List.mem_singleton.mp hnew
    obtain ⟨d, hd, hkey, hpacket⟩ := genuine _ _ rfl established
      (by rw [List.tail_cons, authentic]; rfl)
    obtain ⟨hsealed, returned⟩ := mem_dataSeals.mp hd
    have hhonest : authenticates S d.key d.packet = some (d.plaintext, d.counter) :=
      honest _ hsealed
    rw [hkey, hpacket, List.tail_cons, authentic] at hhonest
    obtain ⟨rfl, rfl⟩ := Prod.mk.inj (Option.some.inj hhonest)
    rcases List.mem_append.mp hsealed with hown | hother
    · obtain ⟨l, p, k, hderived, htx, _⟩ := epochs.nonce hown
      obtain ⟨p', hcurrent⟩ := epochs.inUse established
      exact absurd (htx.trans hkey) (apart.directions ⟨l, p, k⟩ (mem_derivations.mpr hderived)
        ⟨_, p', _⟩ (mem_derivations.mpr hcurrent))
    · rw [hkey] at hother
      exact ⟨d.packet, hother, returned⟩
  | underived => exact absurd (redrawn _) opens
  | unsealed => exact absurd (redrawn _) opens
  | answered =>
    rw [openedNonces_append, redrawn] at opens
    exact absurd rfl opens
  | _ => exact absurd rfl opens

/-- The two sides of a relationship: each opens what the other sealed, at most once. -/
structure Sides (S : Sodium) (r : Relationship) : Prop where
  honest : r.Honest S
  initiatorEpochs : Epochs r.initiator
  responderEpochs : Epochs r.responder
  initiatorWindows : Windows r.initiator
  responderWindows : Windows r.responder
  forward : Delivered r.responder r.initiator
  backward : Delivered r.initiator r.responder

/-- What a run assumes of both sides' logs. -/
def Relationship.KeysApart (r : Relationship) : Prop :=
  (EdgarVPN.KeysApart r.initiator.log ∧ SealsBounded r.initiator.log) ∧
    EdgarVPN.KeysApart r.responder.log ∧ SealsBounded r.responder.log

instance (r : Relationship) : Decidable r.KeysApart :=
  inferInstanceAs (Decidable ((_ ∧ _) ∧ _ ∧ _))

/-- A move of two processes that stay up. -/
def Move.Running : Move → Prop
  | .restartInitiator .. | .restartResponder .. => False
  | .initiator _ | .responder _ | .initiate _ => True

instance : ∀ m : Move, Decidable m.Running
  | .restartInitiator .. | .restartResponder .. => inferInstanceAs (Decidable False)
  | .initiator _ | .responder _ | .initiate _ => inferInstanceAs (Decidable True)

theorem Sides.initiatorCall (aead : S.Aead) (h : Sides S r) {c : Call}
    (genuine : c.DataUnforged S r r.initiator.session)
    (apart : KeysApart (r.initiator.call S c).log)
    (bounded : SealsBounded (r.initiator.call S c).log) :
    Sides S { r with initiator := r.initiator.call S c } where
  honest := ⟨Traced.call_honest aead h.honest.1 c, h.honest.2⟩
  initiatorEpochs := h.initiatorEpochs.call c apart.freshPairs bounded
  responderEpochs := h.responderEpochs
  initiatorWindows := h.initiatorWindows.call h.initiatorEpochs c apart
  responderWindows := h.responderWindows
  forward := h.forward.other_call c
  backward := by
    refine h.backward.own_call (fun a ha => ?_) h.initiatorEpochs apart.of_append ?_
    · exact (List.mem_append.mp ha).elim (h.honest.1 a) (h.honest.2 a)
    · rintro input out rfl established hauth
      obtain ⟨d, hd, hrest⟩ := genuine established hauth
      refine ⟨d, ?_, hrest⟩
      rwa [dataSeals, List.filterMap_append]

theorem Sides.responderCall (aead : S.Aead) (h : Sides S r) {c : Call}
    (genuine : c.DataUnforged S r r.responder.session)
    (apart : KeysApart (r.responder.call S c).log)
    (bounded : SealsBounded (r.responder.call S c).log) :
    Sides S { r with responder := r.responder.call S c } where
  honest := ⟨h.honest.1, Traced.call_honest aead h.honest.2 c⟩
  initiatorEpochs := h.initiatorEpochs
  responderEpochs := h.responderEpochs.call c apart.freshPairs bounded
  initiatorWindows := h.initiatorWindows
  responderWindows := h.responderWindows.call h.responderEpochs c apart
  forward := by
    refine h.forward.own_call (fun a ha => ?_) h.responderEpochs apart.of_append ?_
    · exact (List.mem_append.mp ha).elim (h.honest.2 a) (h.honest.1 a)
    · rintro input out rfl established hauth
      obtain ⟨d, hd, hrest⟩ := genuine established hauth
      refine ⟨d, ?_, hrest⟩
      rw [dataSeals, List.filterMap_append, List.mem_append, or_comm]
      exact List.mem_append.mp hd
  backward := h.backward.other_call c

/-- **A move of two running sides keeps both deliveries.** -/
theorem Sides.step (aead : S.Aead) (h : Sides S r) {m : Move} (running : m.Running)
    (genuine : m.DataUnforged S r) (apart : (r.step S ids m).KeysApart) :
    Sides S (r.step S ids m) := by
  cases m with
  | initiator c => exact h.initiatorCall aead genuine apart.1.1 apart.1.2
  | responder c => exact h.responderCall aead genuine apart.2.1 apart.2.2
  | initiate kp =>
    have started : Sides S { r with initiator := r.initiator.call S (.startHandshake kp) } :=
      h.initiatorCall aead trivial apart.1.1.of_append apart.1.2.of_append
    exact started.initiatorCall aead trivial apart.1.1 apart.1.2
  | restartInitiator => exact running.elim
  | restartResponder => exact running.elim

theorem Relationship.KeysApart.back (r : Relationship) (m : Move)
    (h : (r.step S ids m).KeysApart) : r.KeysApart := by
  obtain ⟨⟨acts, hacts⟩, acts', hacts'⟩ := r.step_log S ids m
  unfold Relationship.KeysApart at h
  rw [hacts, hacts'] at h
  exact ⟨⟨h.1.1.of_append, h.1.2.of_append⟩, h.2.1.of_append, h.2.2.of_append⟩

theorem Windows.init {role : CryptoRole} {localPk peerPk : PublicKey} {localSk : SecretKey}
    {time : UInt64} {kp : KeyPair} {s : Session}
    (h : sessionInit S role localPk localSk peerPk time kp = some s) :
    Windows (Traced.init s kp) := by
  obtain ⟨_, _, rfl⟩ := sessionInit_eq_some h
  refine ⟨⟨∅, (start_dataReset kp _).seen, fun hmem => ?_⟩, List.nodup_nil⟩
  cases List.mem_singleton.mp hmem

theorem Sides.started {timeI timeR : UInt64} {kpI kpR : KeyPair}
    (started : r.Started S ids timeI timeR kpI kpR) : Sides S r := by
  obtain ⟨i, s, hi, hs, rfl⟩ := started
  exact {
    honest := ⟨fun a ha => by cases List.mem_singleton.mp ha; trivial,
      fun a ha => by cases List.mem_singleton.mp ha; trivial⟩
    initiatorEpochs := Epochs.init hi
    responderEpochs := Epochs.init hs
    initiatorWindows := Windows.init hi
    responderWindows := Windows.init hs
    forward := fun _ _ _ hopened => by cases List.mem_singleton.mp hopened
    backward := fun _ _ _ hopened => by cases List.mem_singleton.mp hopened }

/-- The openings of the two sides are under different keys. -/
theorem Sides.openings_nodup (h : Sides S r) (apart : r.KeysApart) :
    (openedNonces r.initiator.log ++ openedNonces r.responder.log).Nodup := by
  rw [List.nodup_append]
  refine ⟨h.initiatorWindows.unique, h.responderWindows.unique, fun a ha b hb heq => ?_⟩
  subst heq
  obtain ⟨p, hopenedI⟩ := mem_openedNonces.mp ha
  obtain ⟨p', hopenedR⟩ := mem_openedNonces.mp hb
  -- what the initiator opened, the responder sealed: its own receive key would be a send key
  obtain ⟨packet, hsealed, -⟩ := h.backward _ _ _ hopenedI
  obtain ⟨l, q, k, hd, hk, _⟩ := h.responderEpochs.nonce hsealed
  obtain ⟨_, _, hbehind⟩ := h.responderWindows.behind
  obtain ⟨l', q', k', hd', hk', _⟩ := hbehind hopenedR
  exact apart.2.1.directions ⟨l, q, k⟩ (mem_derivations.mpr hd) ⟨l', q', k'⟩
    (mem_derivations.mpr hd') (hk.trans hk'.symm)

/-- **Authentic delivery, at most once.** Over any run of two running sides in which no data packet
is forged under the key of an established session: what a side opened, the other sealed and
returned, with that counter and plaintext; no nonce is opened twice, by one side or by both; and no
nonce was sealed twice, so a nonce names one packet. Assumed of the keys of the run: pairs drawn are
fresh, derivations from different pairs give different keys, the two directions differ, and fewer
than `2 ^ 64` packets are sealed after one handshake (`Relationship.KeysApart`). -/
theorem data_delivered (aead : S.Aead) {timeI timeR : UInt64} {kpI kpR : KeyPair}
    (started : r.Started S ids timeI timeR kpI kpR) (moves : List Move)
    (admitted : Runs.Admitted (Relationship.step S ids)
      (fun r m => m.Running ∧ m.DataUnforged S r) r moves)
    (apart : (moves.foldl (Relationship.step S ids) r).KeysApart) :
    let final := moves.foldl (Relationship.step S ids) r
    Delivered final.responder final.initiator ∧ Delivered final.initiator final.responder ∧
      (openedNonces final.initiator.log ++ openedNonces final.responder.log).Nodup ∧
      (dataNonces final.initiator.log).Nodup ∧ (dataNonces final.responder.log).Nodup := by
  have kept : Runs.Admitted (Relationship.step S ids)
      (fun r m => (r.step S ids m).KeysApart) r moves :=
    Runs.admitted_of_end Relationship.KeysApart.back apart
  have sides : Sides S (moves.foldl (Relationship.step S ids) r) :=
    Runs.invariant_foldl (fun r m h g => h.step aead g.1.1 g.1.2 g.2) (Sides.started started)
      (admitted.and kept)
  exact ⟨sides.forward, sides.backward, sides.openings_nodup apart, sides.initiatorEpochs.unique,
    sides.responderEpochs.unique⟩

/-- The data packets of the sample, under the keys of an attempt. -/
def samplePacket (initiator responder : KeyPair) (counter : UInt64) (plaintext : Bytes) : Bytes :=
  let keys := (cryptoDeriveSessionKeys reference .initiator initiator.pk initiator.sk
    responder.pk).getD ⟨Block.zero _, Block.zero _⟩
  sessionMsgData :: (cryptoSeal reference keys.tx counter plaintext 100).getD []

/-- A packet that anyone can make: it is sealed under the zeros that a session holds before its
first handshake. -/
def zeroPacket : Bytes :=
  sessionMsgData :: (cryptoSeal reference (Block.zero _) 0 [9] 100).getD []

/-- Two handshakes with the same counters and plaintexts in each; the packet of the first is
replayed before and after the second. While both sides are pending they are handed a packet sealed
under the all-zero key. -/
def deliveryMoves : List Move :=
  let old := samplePacket (referencePair 5) (referencePair 4) 0 [1, 2]
  let new := samplePacket (referencePair 6) (referencePair 9) 0 [1, 2]
  let buffer := List.replicate 8 0
  [.responder (.openData zeroPacket buffer), .initiate (referencePair 5),
    .initiator (.openData zeroPacket buffer),
    .responder (.handleInit (referencePair 8) (sampleInit 100 (referencePair 5)) 57),
    .initiator (.handleResponse (sampleResponse 100 (referencePair 4))),
    .initiator (.sealData [1, 2] 40), .responder (.openData old buffer),
    .responder (.openData old buffer),
    .initiate (referencePair 6),
    .responder (.handleInit (referencePair 9) (sampleInit 101 (referencePair 6)) 57),
    .responder (.openData old buffer),
    .initiator (.handleResponse (sampleResponse 101 (referencePair 9))),
    .initiator (.sealData [1, 2] 40), .responder (.openData new buffer)]

theorem data_delivered_deliveryMoves :
    let final := deliveryMoves.foldl (Relationship.step reference sampleIdentities) sampleStart
    (openedNonces final.responder.log).map Prod.snd = [0, 0] ∧
      Delivered final.responder final.initiator ∧ Delivered final.initiator final.responder ∧
      (openedNonces final.initiator.log ++ openedNonces final.responder.log).Nodup ∧
      (dataNonces final.initiator.log).Nodup ∧ (dataNonces final.responder.log).Nodup :=
  ⟨by decide +kernel, data_delivered reference_aead sampleStart_started deliveryMoves
    (by decide +kernel) (by decide +kernel)⟩

end EdgarVPN
