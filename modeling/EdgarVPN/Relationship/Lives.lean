import EdgarVPN.Relationship.Delivery

/-!
# Delivery over restarts

A restarted process has lost its replay window. It has lost its data keys as well: `session_init`
draws a new pair, and no packet opens before a handshake has derived keys from it. So a restart is
one more start of an epoch, and what `Relationship.Delivery` proves of two processes that stay up
holds of processes that end and start again at any time.

**What is proved.** `Sides.run`: along any run, restarts of either side included, in which no data
packet is forged, what a side opens the other has sealed, and no nonce is opened twice.
`Delivered.openings_subperm`: what a side opened, as a list with repetitions, is part of what the
other sealed.
-/

set_option autoImplicit false

namespace EdgarVPN

variable {S : Sodium} {ids : Identities} {r : Relationship} {t : Traced}

/-- A restart leaves the session as it was, or opens an epoch with the pair it drew. -/
theorem Traced.restart_cases (role : CryptoRole) (own : KeyPair) (peer : PublicKey) (time : UInt64)
    (kp : KeyPair) (t : Traced) :
    t.restart S role own peer time kp = t ∨
      ∃ s, t.restart S role own peer time kp = ⟨s, t.log ++ [.generated kp.pk]⟩ ∧
        s.localEphPk = kp.pk ∧ s.state = .handshakePending ∧ s.DataReset := by
  unfold Traced.restart
  cases init : sessionInit S role own.pk own.sk peer time kp with
  | none => exact .inl rfl
  | some s =>
    obtain ⟨_, _, rfl⟩ := sessionInit_eq_some init
    exact .inr ⟨_, rfl, rfl, rfl, start_dataReset kp _⟩

section Restart

variable {role : CryptoRole} {own : KeyPair} {peer : PublicKey} {time : UInt64} {kp : KeyPair}

theorem Epochs.restart (h : Epochs t) (apart : KeysApart (t.restart S role own peer time kp).log) :
    Epochs (t.restart S role own peer time kp) := by
  obtain ⟨s, log⟩ := t
  rcases Traced.restart_cases (S := S) role own peer time kp ⟨s, log⟩ with same | ⟨s', new, hs⟩
  · rw [same]
    exact h
  · rw [new] at apart ⊢
    exact h.start apart.freshPairs.not_mem hs.1 hs.2.1 hs.2.2

theorem Windows.restart (h : Windows t) (epochs : Epochs t)
    (apart : KeysApart (t.restart S role own peer time kp).log) :
    Windows (t.restart S role own peer time kp) := by
  obtain ⟨s, log⟩ := t
  rcases Traced.restart_cases (S := S) role own peer time kp ⟨s, log⟩ with same | ⟨s', new, hs⟩
  · rw [same]
    exact h
  · rw [new] at apart ⊢
    refine h.earlier rfl (fun derived heq => ?_) hs.2.2
    -- the pair of a derivation was drawn before, and this one is new
    refine apart.freshPairs.not_mem ?_
    rw [← hs.1, ← heq]
    exact epochs.derived_drawn derived

/-- A restart opens and seals nothing. -/
theorem Traced.restart_mem {act : Act} (quiet : ∀ pk, act ≠ .generated pk)
    (mem : act ∈ (t.restart S role own peer time kp).log) : act ∈ t.log := by
  rcases Traced.restart_cases (S := S) role own peer time kp t with same | ⟨s', new, _⟩
  · rwa [same] at mem
  · rw [new, List.mem_append, List.mem_singleton] at mem
    exact mem.resolve_right (quiet _)

theorem Delivered.own_restart {other : Traced} (h : Delivered t other) :
    Delivered (t.restart S role own peer time kp) other :=
  fun key counter plaintext opened => h key counter plaintext (Traced.restart_mem nofun opened)

theorem Delivered.other_restart {receiver : Traced} (h : Delivered receiver t) :
    Delivered receiver (t.restart S role own peer time kp) := by
  intro key counter plaintext opened
  obtain ⟨packet, sealed, returned⟩ := h key counter plaintext opened
  obtain ⟨acts, hlog⟩ := Traced.restart_log S role own peer time kp t
  exact ⟨packet, by rw [hlog]; exact List.mem_append_left _ sealed, returned⟩

end Restart

/-- **Any move keeps both deliveries**, a restart too. -/
theorem Sides.move (aead : S.Aead) (h : Sides S r) {m : Move} (genuine : m.DataUnforged S r)
    (apart : (r.step S ids m).KeysApart) : Sides S (r.step S ids m) := by
  cases m with
  | initiator c => exact h.step aead trivial genuine apart
  | responder c => exact h.step aead trivial genuine apart
  | initiate kp => exact h.step aead trivial genuine apart
  | restartInitiator time kp =>
    exact {
      honest := ⟨Traced.restart_honest h.honest.1 _ _ _ _ _, h.honest.2⟩
      initiatorEpochs := h.initiatorEpochs.restart apart.1.1
      responderEpochs := h.responderEpochs
      initiatorWindows := h.initiatorWindows.restart h.initiatorEpochs apart.1.1
      responderWindows := h.responderWindows
      forward := h.forward.other_restart
      backward := h.backward.own_restart }
  | restartResponder time kp =>
    exact {
      honest := ⟨h.honest.1, Traced.restart_honest h.honest.2 _ _ _ _ _⟩
      initiatorEpochs := h.initiatorEpochs
      responderEpochs := h.responderEpochs.restart apart.2.1
      initiatorWindows := h.initiatorWindows
      responderWindows := h.responderWindows.restart h.responderEpochs apart.2.1
      forward := h.forward.own_restart
      backward := h.backward.other_restart }

/-- **Any run keeps both deliveries.** -/
theorem Sides.run (aead : S.Aead) (h : Sides S r) (moves : List Move)
    (unforged : Runs.Admitted (Relationship.step S ids) (fun r m => m.DataUnforged S r) r moves)
    (apart : (moves.foldl (Relationship.step S ids) r).KeysApart) :
    Sides S (moves.foldl (Relationship.step S ids) r) := by
  have every := Runs.admitted_of_end Relationship.KeysApart.back apart
  exact Runs.invariant_foldl (fun _ _ sides g => sides.move aead g.1 g.2) h (unforged.and every)

/-! ## As lists -/

/-- The key, counter and plaintext of every data packet opened, in order. -/
def openings (log : List Act) : List (SessionKey × UInt64 × Bytes) :=
  log.filterMap fun
    | .openedData key counter plaintext => some (key, counter, plaintext)
    | _ => none

/-- The key, counter and plaintext of every data packet sealed, in order. -/
def sealings (log : List Act) : List (SessionKey × UInt64 × Bytes) :=
  log.filterMap fun
    | .sealedData key counter plaintext _ => some (key, counter, plaintext)
    | _ => none

theorem mem_openings {log : List Act} {key : SessionKey} {counter : UInt64} {plaintext : Bytes} :
    (key, counter, plaintext) ∈ openings log ↔ Act.openedData key counter plaintext ∈ log := by
  constructor
  · intro h
    obtain ⟨act, hact, heq⟩ := List.mem_filterMap.mp h
    split at heq
    · cases heq
      exact hact
    · cases heq
  · exact fun h => List.mem_filterMap.mpr ⟨_, h, rfl⟩

theorem openings_nodup {log : List Act} (h : (openedNonces log).Nodup) : (openings log).Nodup := by
  have nonces : openedNonces log = (openings log).map fun o => (o.1, o.2.1) := by
    rw [openings, List.map_filterMap]
    refine List.filterMap_congr fun act _ => ?_
    cases act <;> rfl
  rw [nonces] at h
  exact h.of_map

/-- **What a side opened is part of what the other sealed**, with repetitions counted. -/
theorem Delivered.openings_subperm {own other : Traced} (h : Delivered own other)
    (unique : (openedNonces own.log).Nodup) : (openings own.log).Subperm (sealings other.log) := by
  refine List.subperm_of_subset (openings_nodup unique) ?_
  rintro ⟨key, counter, plaintext⟩ hopened
  obtain ⟨packet, hsealed, -⟩ := h key counter plaintext (mem_openings.mp hopened)
  exact List.mem_filterMap.mpr ⟨_, hsealed, rfl⟩

end EdgarVPN
