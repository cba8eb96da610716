import Mathlib.Data.Finset.Insert

/-!
# Sliding replay windows

A receiver that must accept each number at most once, with bounded memory, keeps the highest number
it accepted and one bit for each of the last `W` numbers. This module separates what such a window
is for from how it is kept.

- **What it is for.** `Fresh W seen n`: against the finite set `seen` of numbers accepted so far,
  `n` is new and less than `W` behind every number in it.
- **How it is kept.** A `BitRing` is any store of bits addressed modulo `W`. `check` is the usual
  algorithm over one: mark the first number, slide on a higher one (wipe the ring, or clear the
  slots passed), test the bit of a lower one.

`Tracks` relates the two, and the algorithm refines the set: `check_accepts` (it accepts exactly the
fresh numbers), `check_tracks` (the relation is kept), `check_rejects` (a rejected number leaves the
window as it was).

`Covers` compares the numbers accepted with all the numbers offered: against either set the same
numbers are fresh (`Covers.fresh_iff`), so a sender may count what it sent and not what arrived.
-/

set_option autoImplicit false

namespace SlidingWindow

/-- Against the numbers accepted so far, `n` is new and not too old. -/
def Fresh (W : ℕ) (seen : Finset ℕ) (n : ℕ) : Prop := n ∉ seen ∧ ∀ m ∈ seen, m < n + W

/-- A store of bits addressed modulo `W`. -/
structure BitRing (β : Type*) (W : ℕ) where
  empty : β
  get : β → ℕ → Bool
  set : β → ℕ → β
  clear : β → ℕ → β
  get_empty : ∀ n, get empty n = false
  get_set : ∀ b m n, get (set b m) n = (decide (m % W = n % W) || get b n)
  get_clear : ∀ b m n, get (clear b m) n = (!decide (m % W = n % W) && get b n)

/-- A window: whether anything was accepted, the highest number accepted, and the bits. -/
structure Window (β : Type*) where
  any : Bool
  high : ℕ
  bits : β

variable {β : Type*} {W : ℕ} (R : BitRing β W)

/-- Accept a number and mark it, or reject it. -/
def check (w : Window β) (n : ℕ) : Window β × Bool :=
  if w.any = false then
    (⟨true, n, R.set w.bits n⟩, true)
  else if w.high < n then
    let bits :=
      if W ≤ n - w.high then R.empty
      else (List.range' (w.high + 1) (n - (w.high + 1))).foldl R.clear w.bits
    (⟨true, n, R.set bits n⟩, true)
  else if W ≤ w.high - n then
    (w, false)
  else if R.get w.bits n then
    (w, false)
  else
    (⟨true, w.high, R.set w.bits n⟩, true)

/-- The window holds the set: the highest number is its maximum, and inside the window the bits are
its members. Outside the window a bit means nothing. -/
structure Tracks (w : Window β) (seen : Finset ℕ) : Prop where
  none : w.any = false → seen = ∅ ∧ ∀ n, R.get w.bits n = false
  high_mem : w.any = true → w.high ∈ seen
  le_high : w.any = true → ∀ m ∈ seen, m ≤ w.high
  bit : w.any = true → ∀ n, n ≤ w.high → w.high < n + W → (R.get w.bits n = true ↔ n ∈ seen)

variable {R}

theorem get_foldl_clear (ns : List ℕ) (b : β) (n : ℕ) :
    R.get (ns.foldl R.clear b) n = true ↔ (∀ m ∈ ns, m % W ≠ n % W) ∧ R.get b n = true := by
  induction ns generalizing b with
  | nil => simp only [List.foldl_nil, List.not_mem_nil, false_implies, implies_true, true_and]
  | cons m ns ih =>
    rw [List.foldl_cons, ih, R.get_clear]
    simp only [Bool.and_eq_true, Bool.not_eq_true', decide_eq_false_iff_not, List.mem_cons,
      forall_eq_or_imp]
    tauto

/-- Two numbers less than a full turn apart stand in different slots. -/
theorem mod_ne_of_lt {m n : ℕ} (hlt : n < m) (hnear : m < n + W) : m % W ≠ n % W := by
  intro heq
  have hzero := Nat.sub_mod_eq_zero_of_mod_eq heq
  rw [Nat.mod_eq_of_lt (by omega)] at hzero
  omega

/-- The bits after sliding to a higher number: exactly the members still inside the window. -/
theorem get_slide {w : Window β} {seen : Finset ℕ} (h : Tracks R w seen) (hany : w.any = true)
    {n : ℕ} (hn : w.high < n) {k : ℕ} (hk : k < n) (hnear : n < k + W) :
    R.get (if W ≤ n - w.high then R.empty
      else (List.range' (w.high + 1) (n - (w.high + 1))).foldl R.clear w.bits) k = true ↔
      k ∈ seen := by
  by_cases far : W ≤ n - w.high
  · rw [if_pos far, R.get_empty]
    -- the whole old window has left: what is still near `n` lies above the old maximum
    refine ⟨fun hf => absurd hf (by simp), fun hmem => ?_⟩
    have := h.le_high hany k hmem
    omega
  · rw [if_neg far, get_foldl_clear]
    by_cases hkh : k ≤ w.high
    · rw [← h.bit hany k hkh (by omega)]
      refine ⟨fun hb => hb.2, fun hb => ⟨fun m hm => ?_, hb⟩⟩
      rw [List.mem_range'_1] at hm
      exact mod_ne_of_lt (by omega) (by omega)
    · refine ⟨fun hb => ?_, fun hmem => ?_⟩
      · -- a number between the old and the new maximum was cleared on the way
        exact absurd rfl (hb.1 k (List.mem_range'_1.mpr (by omega)))
      · have := h.le_high hany k hmem
        omega

/-- **The algorithm accepts exactly the fresh numbers.** -/
theorem check_accepts {w : Window β} {seen : Finset ℕ} (h : Tracks R w seen)
    (hW : 0 < W) (n : ℕ) : (check R w n).2 = true ↔ Fresh W seen n := by
  unfold check Fresh
  by_cases hany : w.any = false
  · obtain ⟨rfl, _⟩ := h.none hany
    simp [hany]
  · have hany' : w.any = true := by simpa using hany
    rw [if_neg hany]
    by_cases hn : w.high < n
    · rw [if_pos hn]
      refine ⟨fun _ => ⟨fun hmem => ?_, fun m hm => ?_⟩, fun _ => rfl⟩
      · have := h.le_high hany' n hmem
        omega
      · have := h.le_high hany' m hm
        omega
    · rw [if_neg hn]
      by_cases old : W ≤ w.high - n
      · rw [if_pos old]
        refine ⟨fun hf => absurd hf (by simp), fun hfresh => ?_⟩
        have := hfresh.2 _ (h.high_mem hany')
        omega
      · rw [if_neg old]
        have hbit := h.bit hany' n (by omega) (by omega)
        by_cases hget : R.get w.bits n = true
        · rw [if_pos hget]
          exact ⟨fun hf => absurd hf (by simp), fun hfresh => absurd (hbit.mp hget) hfresh.1⟩
        · rw [if_neg hget]
          refine ⟨fun _ => ⟨fun hmem => hget (hbit.mpr hmem), fun m hm => ?_⟩, fun _ => rfl⟩
          have := h.le_high hany' m hm
          omega

/-- A rejected number leaves the window as it was. -/
theorem check_rejects {w : Window β} {n : ℕ} (h : (check R w n).2 = false) :
    (check R w n).1 = w := by
  unfold check at h ⊢
  by_cases hany : w.any = false
  · simp [hany] at h
  · rw [if_neg hany] at h ⊢
    by_cases hn : w.high < n
    · simp [hn] at h
    · rw [if_neg hn] at h ⊢
      by_cases old : W ≤ w.high - n
      · rw [if_pos old]
      · rw [if_neg old] at h ⊢
        by_cases hget : R.get w.bits n = true
        · rw [if_pos hget]
        · simp [hget] at h

/-- The highest number is the old one or the number checked. -/
theorem check_high (w : Window β) (n : ℕ) :
    (check R w n).1.high = n ∨ (check R w n).1.high = w.high := by
  unfold check
  split_ifs
  · exact .inl rfl
  · exact .inl rfl
  · exact .inl rfl
  · exact .inr rfl
  · exact .inr rfl
  · exact .inr rfl

/-- **Accepting a number keeps the relation**, with the number added to the set. -/
theorem check_tracks {w : Window β} {seen : Finset ℕ} (h : Tracks R w seen) {n : ℕ}
    (acc : (check R w n).2 = true) : Tracks R (check R w n).1 (insert n seen) := by
  unfold check at acc ⊢
  by_cases hany : w.any = false
  · obtain ⟨rfl, hbits⟩ := h.none hany
    rw [if_pos hany]
    refine ⟨fun hf => by simp at hf, fun _ => by simp, fun _ m hm => ?_, fun _ k hk hnear => ?_⟩
    · simp only [insert_empty_eq, Finset.mem_singleton] at hm
      exact hm.le
    · simp only at hk hnear ⊢
      rw [R.get_set, hbits, Bool.or_false, decide_eq_true_eq, insert_empty_eq,
        Finset.mem_singleton]
      refine ⟨fun heq => ?_, fun heq => by rw [heq]⟩
      by_contra hne
      exact mod_ne_of_lt (by omega) hnear heq
  · have hany' : w.any = true := by simpa using hany
    rw [if_neg hany] at acc ⊢
    by_cases hn : w.high < n
    · rw [if_pos hn]
      refine ⟨fun hf => by simp at hf, fun _ => by simp, fun _ m hm => ?_, fun _ k hk hnear => ?_⟩
      · rcases Finset.mem_insert.mp hm with rfl | hm
        · exact Nat.le_refl _
        · exact (Nat.le_of_lt (Nat.lt_of_le_of_lt (h.le_high hany' m hm) hn))
      · simp only at hk hnear ⊢
        rw [R.get_set, Bool.or_eq_true, decide_eq_true_eq, Finset.mem_insert]
        rcases Nat.lt_or_eq_of_le hk with hlt | rfl
        · rw [get_slide h hany' hn hlt hnear]
          refine or_congr_left ⟨fun heq => absurd heq (mod_ne_of_lt hlt hnear), fun heq => ?_⟩
          omega
        · simp only [true_or]
    · rw [if_neg hn] at acc ⊢
      by_cases old : W ≤ w.high - n
      · simp [old] at acc
      · rw [if_neg old] at acc ⊢
        by_cases hget : R.get w.bits n = true
        · simp [hget] at acc
        · rw [if_neg hget]
          refine ⟨fun hf => by simp at hf, fun _ => ?_, fun _ m hm => ?_, fun _ k hk hnear => ?_⟩
          · exact Finset.mem_insert_of_mem (h.high_mem hany')
          · rcases Finset.mem_insert.mp hm with rfl | hm
            · exact Nat.le_of_not_lt hn
            · exact h.le_high hany' m hm
          · simp only at hk hnear ⊢
            rw [R.get_set, Bool.or_eq_true, decide_eq_true_eq, Finset.mem_insert,
              h.bit hany' k hk hnear]
            refine or_congr_left ⟨fun heq => ?_, fun heq => by rw [heq]⟩
            rcases Nat.lt_trichotomy n k with hlt | heq' | hlt
            · exact absurd heq.symm (mod_ne_of_lt hlt (by omega))
            · exact heq'.symm
            · exact absurd heq (mod_ne_of_lt hlt (by omega))

/-! ## Numbers offered and numbers accepted -/

/-- Every number offered was accepted, or fell behind a number that was. -/
structure Covers (W : ℕ) (seen offered : Finset ℕ) : Prop where
  subset : seen ⊆ offered
  behind : ∀ n ∈ offered, n ∈ seen ∨ ∃ m ∈ seen, n + W ≤ m

theorem Covers.empty (W : ℕ) : Covers W ∅ ∅ :=
  ⟨Finset.Subset.refl _, fun _ hn => absurd hn (Finset.notMem_empty _)⟩

/-- Fresh against what was accepted is fresh against what was offered. -/
theorem Covers.fresh_iff {seen offered : Finset ℕ} (h : Covers W seen offered) (n : ℕ) :
    Fresh W seen n ↔ Fresh W offered n := by
  constructor
  · intro ⟨hnew, hnear⟩
    refine ⟨fun hmem => ?_, fun k hk => ?_⟩
    · rcases h.behind n hmem with hseen | ⟨m, hm, hle⟩
      · exact hnew hseen
      · have := hnear m hm
        omega
    · rcases h.behind k hk with hseen | ⟨m, hm, hle⟩
      · exact hnear k hseen
      · have := hnear m hm
        omega
  · intro ⟨hnew, hnear⟩
    exact ⟨fun hmem => hnew (h.subset hmem), fun m hm => hnear m (h.subset hm)⟩

theorem Covers.accept {seen offered : Finset ℕ} (h : Covers W seen offered) (n : ℕ) :
    Covers W (insert n seen) (insert n offered) := by
  refine ⟨Finset.insert_subset_insert n h.subset, fun k hk => ?_⟩
  rcases Finset.mem_insert.mp hk with rfl | hk
  · exact .inl (Finset.mem_insert_self _ _)
  · rcases h.behind k hk with hseen | ⟨m, hm, hle⟩
    · exact .inl (Finset.mem_insert_of_mem hseen)
    · exact .inr ⟨m, Finset.mem_insert_of_mem hm, hle⟩

theorem Covers.reject {seen offered : Finset ℕ} (h : Covers W seen offered) {n : ℕ}
    (stale : ¬ Fresh W seen n) : Covers W seen (insert n offered) := by
  refine ⟨h.subset.trans (Finset.subset_insert n offered), fun k hk => ?_⟩
  rcases Finset.mem_insert.mp hk with rfl | hk
  · by_cases hseen : k ∈ seen
    · exact .inl hseen
    · right
      by_contra hnone
      refine stale ⟨hseen, fun m hm => ?_⟩
      by_contra hle
      exact hnone ⟨m, hm, Nat.not_lt.mp hle⟩
  · exact h.behind k hk

end SlidingWindow
