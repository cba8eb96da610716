import EdgarVPN.Session.Calls
import EdgarVPN.Crypto.Reference

/-!
# Data keys and nonces over any sequence of calls

`session_start_handshake` sets `tx_counter` back to 0 while the old data keys stay in the struct, so
nonces are unique only because every way back to an established session derives new keys first.

An **epoch** is what lies between two drawn pairs. The invariant (`Epochs`) says that the pair of
the current epoch has entered no derivation while the session is pending and exactly the current
data keys once it is established, and that every nonce used so far belongs to an earlier epoch, or
to this one below the counter. It is proved from the inversion lemma of a call, and holds after any
sequence of calls (`epochs_run`).

**What is proved.** `dataNonces_unique`: no two successful `session_seal_data` calls share a key and
a counter.
-/

set_option autoImplicit false

namespace EdgarVPN

/-! ## Reading the log -/

/-- The pairs drawn, by their public keys, in order. -/
def generatedKeys (log : List Act) : List PublicKey :=
  log.filterMap fun
    | .generated pk => some pk
    | _ => none

/-- The key and counter of every data packet sealed, in order. -/
def dataNonces (log : List Act) : List (SessionKey × UInt64) :=
  log.filterMap fun
    | .sealedData key counter _ _ => some (key, counter)
    | _ => none

/-- A derivation of data keys. -/
structure Derivation where
  localPk : PublicKey
  remotePk : PublicKey
  keys : SessionKeys
deriving DecidableEq

/-- The derivations made, in order. -/
def derivations (log : List Act) : List Derivation :=
  log.filterMap fun
    | .derived localPk remotePk keys => some ⟨localPk, remotePk, keys⟩
    | _ => none

/-- How many data packets were sealed since the last pair was drawn. -/
def sealsSinceStart (log : List Act) : Nat :=
  log.foldl (fun n act =>
    match act with
    | .generated _ => 0
    | .sealedData .. => n + 1
    | _ => n) 0

theorem generatedKeys_append (log acts : List Act) :
    generatedKeys (log ++ acts) = generatedKeys log ++ generatedKeys acts :=
  List.filterMap_append

theorem dataNonces_append (log acts : List Act) :
    dataNonces (log ++ acts) = dataNonces log ++ dataNonces acts :=
  List.filterMap_append

theorem mem_dataNonces {log : List Act} {key : SessionKey} {counter : UInt64} :
    (key, counter) ∈ dataNonces log ↔ ∃ plaintext packet,
      Act.sealedData key counter plaintext packet ∈ log := by
  constructor
  · intro h
    obtain ⟨act, hact, heq⟩ := List.mem_filterMap.mp h
    split at heq
    · cases heq; exact ⟨_, _, hact⟩
    · cases heq
  · rintro ⟨plaintext, packet, hact⟩
    exact List.mem_filterMap.mpr ⟨_, hact, rfl⟩

theorem mem_derivations {log : List Act} {d : Derivation} :
    d ∈ derivations log ↔ Act.derived d.localPk d.remotePk d.keys ∈ log := by
  constructor
  · intro h
    obtain ⟨act, hact, heq⟩ := List.mem_filterMap.mp h
    split at heq
    · cases heq; exact hact
    · cases heq
  · intro hact
    exact List.mem_filterMap.mpr ⟨_, hact, rfl⟩

/-! ## What a run assumes of its pairs -/

/-- Every pair drawn is new, and derivations from different local pairs give different send keys. -/
structure FreshPairs (log : List Act) : Prop where
  fresh : (generatedKeys log).Nodup
  distinct : ∀ d ∈ derivations log, ∀ d' ∈ derivations log,
    d.localPk ≠ d'.localPk → d.keys.tx ≠ d'.keys.tx

instance (log : List Act) : Decidable (FreshPairs log) :=
  decidable_of_iff ((generatedKeys log).Nodup ∧ ∀ d ∈ derivations log, ∀ d' ∈ derivations log,
    d.localPk ≠ d'.localPk → d.keys.tx ≠ d'.keys.tx) ⟨fun h => ⟨h.1, h.2⟩, fun h => ⟨h.1, h.2⟩⟩

/-- Fewer than `2 ^ 64` data packets are sealed between two starts. -/
def SealsBounded (log : List Act) : Prop := ∀ pre, pre <+: log → sealsSinceStart pre < 2 ^ 64

instance (log : List Act) : Decidable (SealsBounded log) :=
  decidable_of_iff (∀ pre ∈ log.inits, sealsSinceStart pre < 2 ^ 64)
    (forall_congr' fun _ => by rw [List.mem_inits])

theorem FreshPairs.of_append {log acts : List Act} (h : FreshPairs (log ++ acts)) :
    FreshPairs log := by
  have hsub : ∀ d ∈ derivations log, d ∈ derivations (log ++ acts) := fun d hd =>
    mem_derivations.mpr (List.mem_append_left _ (mem_derivations.mp hd))
  refine ⟨?_, fun d hd d' hd' => h.distinct d (hsub d hd) d' (hsub d' hd')⟩
  have := h.fresh
  rw [generatedKeys_append] at this
  exact this.of_append_left

theorem SealsBounded.of_append {log acts : List Act} (h : SealsBounded (log ++ acts)) :
    SealsBounded log :=
  fun pre hpre => h pre (hpre.trans (List.prefix_append _ _))

/-- A drawn pair is not one of those drawn before. -/
theorem FreshPairs.not_mem {log rest : List Act} {pk : PublicKey}
    (h : FreshPairs (log ++ .generated pk :: rest)) : pk ∉ generatedKeys log := by
  have hnodup := h.fresh
  rw [generatedKeys_append, List.nodup_append] at hnodup
  exact fun hmem => hnodup.2.2 pk hmem pk (List.mem_cons_self ..) rfl

/-! ## Nonces behind the session -/

/-- The key and counter were used in an earlier epoch, or in this one with a marked counter. The
key is one side of the data keys then derived. -/
def Traced.Spent (t : Traced) (side : SessionKeys → SessionKey) (marked : UInt64 → Prop)
    (key : SessionKey) (counter : UInt64) : Prop :=
  ∃ l r k, Act.derived l r k ∈ t.log ∧ side k = key ∧
    (l ≠ t.session.localEphPk ∨
      t.session.state = .established ∧ k = t.session.dataKeys ∧ marked counter)

section Spent

variable {s s' : Session} {log acts : List Act} {side : SessionKeys → SessionKey}
  {marked marked' : UInt64 → Prop} {key : SessionKey} {counter : UInt64}

/-- While the epoch goes on, what was used stays used. -/
theorem Traced.Spent.quiet (h : Traced.Spent ⟨s, log⟩ side marked key counter)
    (hpk : s'.localEphPk = s.localEphPk) (hstate : s'.state = s.state)
    (hkeys : s.state = .established → s'.dataKeys = s.dataKeys)
    (more : marked counter → marked' counter) :
    Traced.Spent ⟨s', log ++ acts⟩ side marked' key counter := by
  obtain ⟨l, r, k, hd, hk, hor⟩ := h
  refine ⟨l, r, k, List.mem_append_left _ hd, hk, ?_⟩
  rcases hor with hne | ⟨he, hke, hm⟩
  · exact .inl (by rw [hpk]; exact hne)
  · exact .inr ⟨by rw [hstate]; exact he, by rw [hkeys he]; exact hke, more hm⟩

/-- What was used is of an earlier epoch as soon as no derivation has the session's pair. -/
theorem Traced.Spent.earlier (h : Traced.Spent ⟨s, log⟩ side marked key counter)
    (apart : ∀ {l r k}, Act.derived l r k ∈ log → l ≠ s'.localEphPk) :
    Traced.Spent ⟨s', log ++ acts⟩ side marked' key counter := by
  obtain ⟨l, r, k, hd, hk, _⟩ := h
  exact ⟨l, r, k, List.mem_append_left _ hd, hk, .inl (apart hd)⟩

/-- Where different pairs derive different keys, only a marked counter was used with the current
key. -/
theorem Traced.Spent.in_epoch {t : Traced} {r₀ : PublicKey}
    (h : t.Spent side marked (side t.session.dataKeys) counter)
    (current : Act.derived t.session.localEphPk r₀ t.session.dataKeys ∈ t.log)
    (distinct : ∀ d ∈ derivations t.log, ∀ d' ∈ derivations t.log,
      d.localPk ≠ d'.localPk → side d.keys ≠ side d'.keys) : marked counter := by
  obtain ⟨l, r, k, hd, hk, hor⟩ := h
  rcases hor with hne | ⟨_, _, hm⟩
  · exact absurd hk (distinct ⟨l, r, k⟩ (mem_derivations.mpr hd) ⟨_, r₀, _⟩
      (mem_derivations.mpr current) hne)
  · exact hm

end Spent

/-! ## The invariant -/

/-- The epochs of a session are apart. -/
structure Epochs (t : Traced) : Prop where
  /-- The current pair was drawn. -/
  current : t.session.localEphPk ∈ generatedKeys t.log
  /-- Only drawn pairs enter derivations. -/
  derived_drawn : ∀ {l r k}, Act.derived l r k ∈ t.log → l ∈ generatedKeys t.log
  /-- While the session is pending its pair has entered no derivation. -/
  unused : t.session.state = .handshakePending →
    ∀ {l r k}, Act.derived l r k ∈ t.log → l ≠ t.session.localEphPk
  /-- Established data keys were derived from the current pair. -/
  inUse : t.session.state = .established →
    ∃ r, Act.derived t.session.localEphPk r t.session.dataKeys ∈ t.log
  /-- A pending session's data channel is reset. -/
  reset : t.session.state = .handshakePending → t.session.DataReset
  /-- The counter counts the packets of the epoch. -/
  count : t.session.txCounter.toNat = sealsSinceStart t.log
  /-- Every nonce used belongs to an earlier epoch, or to this one below the counter. -/
  nonce : ∀ {key counter plaintext packet},
    Act.sealedData key counter plaintext packet ∈ t.log →
      t.Spent SessionKeys.tx (fun c => c.toNat < t.session.txCounter.toNat) key counter
  /-- No nonce was used twice. -/
  unique : (dataNonces t.log).Nodup

/-- Log entries that seal no data and derive nothing. -/
def Act.quiet : Act → Prop
  | .generated _ => False
  | .derived .. => False
  | .sealedData .. => False
  | _ => True

theorem generatedKeys_quiet {acts : List Act} (h : ∀ a ∈ acts, a.quiet) :
    generatedKeys acts = [] := by
  refine List.filterMap_eq_nil_iff.mpr fun a ha => ?_
  cases a with
  | generated pk => exact (h _ ha).elim
  | _ => rfl

theorem dataNonces_quiet {acts : List Act} (h : ∀ a ∈ acts, a.quiet) : dataNonces acts = [] := by
  refine List.filterMap_eq_nil_iff.mpr fun a ha => ?_
  cases a with
  | sealedData => exact (h _ ha).elim
  | _ => rfl

theorem sealsSinceStart_quiet (log : List Act) {acts : List Act} (h : ∀ a ∈ acts, a.quiet) :
    sealsSinceStart (log ++ acts) = sealsSinceStart log := by
  induction acts generalizing log with
  | nil => rw [List.append_nil]
  | cons a acts ih =>
    have hrest := ih (log ++ [a]) fun b hb => h b (List.mem_cons_of_mem _ hb)
    rw [List.append_assoc, List.singleton_append] at hrest
    rw [hrest]
    have ha := h a List.mem_cons_self
    cases a with
    | generated pk => exact ha.elim
    | sealedData => exact ha.elim
    | _ => simp only [sealsSinceStart, List.foldl_append, List.foldl_cons, List.foldl_nil]

/-- A call that changes none of the fields the invariant reads, and logs nothing it reads, keeps
it. -/
theorem Epochs.quiet {s s' : Session} {log acts : List Act} (h : Epochs ⟨s, log⟩)
    (hacts : ∀ a ∈ acts, a.quiet) (hpk : s'.localEphPk = s.localEphPk)
    (hstate : s'.state = s.state) (hkeys : s.state = .established → s'.dataKeys = s.dataKeys)
    (htx : s'.txCounter = s.txCounter) (hreset : s.state = .handshakePending → s'.DataReset) :
    Epochs ⟨s', log ++ acts⟩ := by
  have hderived : ∀ {l r k}, Act.derived l r k ∈ log ++ acts → Act.derived l r k ∈ log :=
    fun hmem => (List.mem_append.mp hmem).elim id fun ha => (hacts _ ha).elim
  have hsealed : ∀ {key counter plaintext packet},
      Act.sealedData key counter plaintext packet ∈ log ++ acts →
        Act.sealedData key counter plaintext packet ∈ log :=
    fun hmem => (List.mem_append.mp hmem).elim id fun ha => (hacts _ ha).elim
  constructor
  · rw [hpk, generatedKeys_append, generatedKeys_quiet hacts, List.append_nil]
    exact h.current
  · intro l r k hd
    rw [generatedKeys_append, generatedKeys_quiet hacts, List.append_nil]
    exact h.derived_drawn (hderived hd)
  · intro hp l r k hd
    rw [hpk]
    exact h.unused (hstate ▸ hp) (hderived hd)
  · intro he
    obtain ⟨r, hr⟩ := h.inUse (hstate ▸ he)
    rw [hpk, hkeys (hstate ▸ he)]
    exact ⟨r, List.mem_append_left _ hr⟩
  · intro hp
    exact hreset (hstate ▸ hp)
  · rw [sealsSinceStart_quiet log hacts, htx]
    exact h.count
  · intro key counter plaintext packet hs
    exact (h.nonce (hsealed hs)).quiet hpk hstate hkeys fun hlt => by rw [htx]; exact hlt
  · rw [dataNonces_append, dataNonces_quiet hacts, List.append_nil]
    exact h.unique

/-- Drawing a new pair opens a new epoch: all that was used lies behind it. -/
theorem Epochs.start {s s' : Session} {log : List Act} (h : Epochs ⟨s, log⟩) {kp : KeyPair}
    (fresh : kp.pk ∉ generatedKeys log) (hpk : s'.localEphPk = kp.pk)
    (hstate : s'.state = .handshakePending) (hreset : s'.DataReset) :
    Epochs ⟨s', log ++ [.generated kp.pk]⟩ := by
  have hgen : generatedKeys (log ++ [.generated kp.pk]) = generatedKeys log ++ [kp.pk] :=
    generatedKeys_append ..
  have hold : ∀ {l r k}, Act.derived l r k ∈ log ++ [.generated kp.pk] →
      Act.derived l r k ∈ log := fun hmem => by simpa using hmem
  have hne : ∀ {l r k}, Act.derived l r k ∈ log → l ≠ kp.pk :=
    fun hd heq => fresh (heq ▸ h.derived_drawn hd)
  constructor
  · rw [hgen, hpk]
    exact List.mem_append_right _ (List.mem_singleton_self _)
  · intro l r k hd
    rw [hgen]
    exact List.mem_append_left _ (h.derived_drawn (hold hd))
  · intro _ l r k hd
    rw [hpk]
    exact hne (hold hd)
  · intro he
    simp only [hstate] at he
    cases he
  · intro _
    exact hreset
  · simp only [sealsSinceStart, List.foldl_append, List.foldl_cons, List.foldl_nil, hreset.1]
    rfl
  · intro key counter plaintext packet hs
    exact (h.nonce (by simpa using hs)).earlier fun hd => by rw [hpk]; exact hne hd
  · rw [dataNonces_append]
    exact (List.append_nil (dataNonces log)).symm ▸ h.unique

/-- Deriving data keys from the current pair puts it in use. -/
theorem Epochs.derive {s s' : Session} {log : List Act} (h : Epochs ⟨s, log⟩)
    (pending : s.state = .handshakePending) {peer : PublicKey} {keys : SessionKeys}
    (hpk : s'.localEphPk = s.localEphPk) (hstate : s'.state = .established)
    (hkeys : s'.dataKeys = keys) (htx : s'.txCounter = s.txCounter) :
    Epochs ⟨s', log ++ [.derived s.localEphPk peer keys]⟩ := by
  have hgen : generatedKeys (log ++ [.derived s.localEphPk peer keys]) = generatedKeys log := by
    rw [generatedKeys_append]
    exact List.append_nil _
  constructor
  · rw [hgen, hpk]
    exact h.current
  · intro l r k hd
    rw [hgen]
    rcases List.mem_append.mp hd with hd | hd
    · exact h.derived_drawn hd
    · cases List.mem_singleton.mp hd
      exact h.current
  · intro hp
    simp only [hstate] at hp
    cases hp
  · intro _
    rw [hpk, hkeys]
    exact ⟨peer, List.mem_append_right _ (List.mem_singleton_self _)⟩
  · intro hp
    simp only [hstate] at hp
    cases hp
  · simp only [sealsSinceStart, List.foldl_append, List.foldl_cons, List.foldl_nil, htx]
    exact h.count
  · intro key counter plaintext packet hs
    -- the old session was pending, so its pair is in no derivation and the nonce is an older one
    exact (h.nonce (by simpa using hs)).earlier fun hd => by rw [hpk]; exact h.unused pending hd
  · rw [dataNonces_append]
    exact (List.append_nil (dataNonces log)).symm ▸ h.unique

/-- Sealing uses a nonce no packet had. -/
theorem Epochs.seal {s : Session} {log : List Act} (h : Epochs ⟨s, log⟩)
    (established : s.state = .established) {plaintext packet : Bytes}
    (fresh : FreshPairs log)
    (bounded : sealsSinceStart (log ++
      [.sealedData s.dataKeys.tx s.txCounter plaintext packet]) < 2 ^ 64) :
    Epochs ⟨{ s with txCounter := s.txCounter + 1 },
      log ++ [.sealedData s.dataKeys.tx s.txCounter plaintext packet]⟩ := by
  have hseals : sealsSinceStart (log ++ [.sealedData s.dataKeys.tx s.txCounter plaintext packet]) =
      sealsSinceStart log + 1 := by
    simp only [sealsSinceStart, List.foldl_append, List.foldl_cons, List.foldl_nil]
  have hcount : s.txCounter.toNat = sealsSinceStart log := h.count
  have hsucc : (s.txCounter + 1).toNat = s.txCounter.toNat + 1 := by
    rw [UInt64.toNat_add, UInt64.toNat_one]
    omega
  have hgen : generatedKeys (log ++ [.sealedData s.dataKeys.tx s.txCounter plaintext packet]) =
      generatedKeys log := by
    rw [generatedKeys_append]
    exact List.append_nil _
  obtain ⟨r₀, hcur⟩ := h.inUse established
  constructor
  · rw [hgen]
    exact h.current
  · intro l r k hd
    rw [hgen]
    exact h.derived_drawn (by simpa using hd)
  · intro hp
    simp only [established] at hp
    cases hp
  · intro _
    exact ⟨r₀, List.mem_append_left _ hcur⟩
  · intro hp
    simp only [established] at hp
    cases hp
  · simp only [hsucc, hseals, hcount]
  · intro key counter plaintext' packet' hs
    simp only [hsucc]
    rcases List.mem_append.mp hs with hs | hs
    · exact (h.nonce hs).quiet rfl rfl (fun _ => rfl) Nat.lt_succ_of_lt
    · cases List.mem_singleton.mp hs
      exact ⟨_, r₀, _, List.mem_append_left _ hcur, rfl,
        .inr ⟨established, rfl, Nat.lt_succ_self _⟩⟩
  · rw [dataNonces_append, List.nodup_append]
    refine ⟨h.unique, List.nodup_singleton _, fun a ha b hb heq => ?_⟩
    cases List.mem_singleton.mp hb
    subst heq
    obtain ⟨_, _, hs⟩ := mem_dataNonces.mp ha
    exact Nat.lt_irrefl _ ((h.nonce hs).in_epoch hcur fresh.distinct)

/-- The reset of an answered init opens a new epoch if the session was established, and is nothing
otherwise. -/
theorem Epochs.reattempt {s : Session} {log : List Act} (h : Epochs ⟨s, log⟩) {kp : KeyPair}
    (rest : List Act) (fresh : FreshPairs (log ++ (s.redrawn kp ++ rest))) :
    Epochs ⟨s.reattempt kp, log ++ s.redrawn kp⟩ := by
  cases hstate : s.state with
  | handshakePending =>
    have hnone : s.redrawn kp = [] := if_neg (by rw [hstate]; exact nofun)
    rw [hnone, reattempt_pending kp s hstate, List.append_nil]
    exact h
  | established =>
    have hone : s.redrawn kp = [.generated kp.pk] := if_pos hstate
    rw [hone] at fresh
    rw [hone, reattempt_established kp s hstate]
    exact h.start fresh.not_mem rfl rfl (start_dataReset kp s)

/-- **A call keeps the epochs apart.** A seal moves the counter within its epoch; keys that are
derived open a new one, at counter 0. -/
theorem Epochs.call {S : Sodium} {t : Traced} (h : Epochs t) (c : Call)
    (fresh : FreshPairs (t.call S c).log) (bounded : SealsBounded (t.call S c).log) :
    Epochs (t.call S c) := by
  obtain ⟨s, log⟩ := t
  simp only [Traced.call] at fresh bounded ⊢
  have did := sessionCall_did (S := S) s c
  generalize sessionCall S s c = s' at did fresh bounded ⊢
  generalize sessionActs S s c = acts at did fresh bounded ⊢
  cases did with
  | nothing => exact h.quiet nofun rfl rfl (fun _ => rfl) rfl h.reset
  | started kp => exact h.start fresh.not_mem rfl rfl (start_dataReset kp s)
  | built =>
    refine h.quiet (fun a ha => ?_) rfl rfl (fun _ => rfl) rfl h.reset
    cases List.mem_singleton.mp ha
    trivial
  | underived => exact h.reattempt [] (by rwa [List.append_nil])
  | @unsealed kp input outLen peer counter keys =>
    have hre := h.reattempt [] (by rwa [List.append_nil])
    have hquiet : Epochs ⟨{ s.reattempt kp with dataKeys := keys, localEphSk := Block.zero _ },
        (log ++ s.redrawn kp) ++ []⟩ :=
      hre.quiet nofun rfl rfl (fun he => by rw [reattempt_state] at he; cases he) rfl hre.reset
    rwa [List.append_nil] at hquiet
  | @answered kp input outLen peer counter keys packet =>
    have hre := h.reattempt _ fresh
    have hderived : Epochs ⟨(s.reattempt kp).answered keys counter,
        (log ++ s.redrawn kp) ++ [.derived (s.reattempt kp).localEphPk peer keys]⟩ :=
      hre.derive (reattempt_state kp s) rfl rfl rfl rfl
    have hquiet : Epochs ⟨(s.reattempt kp).answered keys counter,
        ((log ++ s.redrawn kp) ++ [.derived (s.reattempt kp).localEphPk peer keys]) ++
          [.sealedHandshake s.staticKeys.tx counter (s.reattempt kp).localEphPk packet]⟩ :=
      hderived.quiet (fun a ha => by cases List.mem_singleton.mp ha; trivial) rfl rfl
        (fun _ => rfl) rfl (fun hp => by cases hp)
    rwa [List.append_assoc, List.append_assoc] at hquiet
  | completed read =>
    exact h.derive (sessionReadResponse_eq_some read).2.1 rfl rfl rfl rfl
  | sealed established =>
    exact h.seal established fresh.of_append (bounded _ (List.prefix_refl _))
  | @opened payload plaintext out counter established =>
    obtain ⟨w, hw⟩ := replayCheckAndMark_frame s counter
    rw [hw]
    refine h.quiet (fun a ha => ?_) rfl rfl (fun _ => rfl) rfl (fun hp => ?_)
    · cases List.mem_singleton.mp ha
      trivial
    · rw [established] at hp
      cases hp

/-- A freshly initialised session, with the pair `session_init` drew. -/
def Traced.init (s : Session) (kp : KeyPair) : Traced := ⟨s, [.generated kp.pk]⟩

theorem Epochs.init {S : Sodium} {role : CryptoRole} {localPk peerPk : PublicKey}
    {localSk : SecretKey} {time : UInt64} {kp : KeyPair} {s : Session}
    (h : sessionInit S role localPk localSk peerPk time kp = some s) :
    Epochs (Traced.init s kp) := by
  obtain ⟨staticKeys, _, rfl⟩ := sessionInit_eq_some h
  exact {
    current := List.mem_cons_self
    derived_drawn := fun hd => by cases List.mem_singleton.mp hd
    unused := fun _ _ _ _ hd => by cases List.mem_singleton.mp hd
    inUse := fun he => by cases he
    reset := fun _ => start_dataReset kp _
    count := rfl
    nonce := fun hs => by cases List.mem_singleton.mp hs
    unique := List.nodup_nil }

/-- The epochs stay apart over any sequence of calls. -/
theorem epochs_run {S : Sodium} {t : Traced} (h : Epochs t) {calls : List Call}
    (fresh : FreshPairs (calls.foldl (Traced.call S) t).log)
    (bounded : SealsBounded (calls.foldl (Traced.call S) t).log) :
    Epochs (calls.foldl (Traced.call S) t) := by
  have admitted : Runs.Admitted (Traced.call S)
      (fun t c => FreshPairs (t.call S c).log ∧ SealsBounded (t.call S c).log) t calls :=
    Runs.admitted_of_end (Q := fun t : Traced => FreshPairs t.log ∧ SealsBounded t.log)
      (fun t c h => ⟨h.1.of_append, h.2.of_append⟩) ⟨fresh, bounded⟩
  exact Runs.invariant_foldl (fun t c hi hq => hi.call c hq.1 hq.2) h admitted

/-- **No data nonce is used twice.** For a session after `session_init` and any calls in any order
with any inputs: if the pairs drawn are fresh, and fewer than `2 ^ 64` packets are sealed between
two starts, no two successful `session_seal_data` calls seal under the same key and counter. -/
theorem dataNonces_unique {S : Sodium} {role : CryptoRole} {localPk peerPk : PublicKey}
    {localSk : SecretKey} {time : UInt64} {kp : KeyPair} {s : Session}
    (init : sessionInit S role localPk localSk peerPk time kp = some s) (calls : List Call)
    (fresh : FreshPairs (calls.foldl (Traced.call S) (Traced.init s kp)).log)
    (bounded : SealsBounded (calls.foldl (Traced.call S) (Traced.init s kp)).log) :
    (dataNonces (calls.foldl (Traced.call S) (Traced.init s kp)).log).Nodup :=
  (epochs_run (Epochs.init init) fresh bounded).unique

/-- An initiator over the reference library. -/
def nonceSession : Session :=
  (sessionInit reference .initiator (referencePair 1).pk (referencePair 1).sk (referencePair 2).pk
    100 (referencePair 3)).getD Session.zero

/-- Calls that take it through two handshakes, with data sealed after each. -/
def nonceCalls : List Call :=
  let response (counter : UInt64) (b : UInt8) : Bytes := sessionMsgHandshakeResponse ::
    (cryptoSeal reference nonceSession.staticKeys.rx counter (referencePair b).pk.bytes 56).getD []
  [.buildInit 57, .handleResponse (response 100 4), .sealData [1, 2] 30, .sealData [] 30,
    .startHandshake (referencePair 5), .buildInit 57, .handleResponse (response 101 6),
    .sealData [1, 2] 30]

/-- Three packets in two epochs: the first of each has counter 0. -/
theorem dataNonces_unique_nonceCalls :
    (dataNonces (nonceCalls.foldl (Traced.call reference)
      (Traced.init nonceSession (referencePair 3))).log).map Prod.snd = [0, 1, 0] ∧
    (dataNonces (nonceCalls.foldl (Traced.call reference)
      (Traced.init nonceSession (referencePair 3))).log).Nodup := by
  have init : sessionInit reference .initiator (referencePair 1).pk (referencePair 1).sk
      (referencePair 2).pk 100 (referencePair 3) = some nonceSession := by decide +kernel
  exact ⟨by decide +kernel,
    dataNonces_unique init nonceCalls (by decide +kernel) (by decide +kernel)⟩

end EdgarVPN
