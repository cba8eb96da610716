import Mathlib.Data.Finset.Max
import EdgarVPN.Session.Replay

/-!
# The replay window against its specification

`replay_check_and_mark` is called on one counter after another. What it should answer is a fact
about the set of counters accepted so far (`WindowAccepts`): the counter is new, and it is above the
highest of them or less than 1024 below it. This module runs the bitmap beside that history
(`replayStep`) and compares the two at every call.

**What is proved.** `replayWindow_refines`: after `session_start_handshake`, whatever the old
`highest_rx_counter`, every call of every sequence answers as the specification does; a call that
answers 0 changes nothing; and the 64-bit arithmetic of the call is that of the numbers, the values
of its clearing loop included (`ReplayExact`).

The bitmap's relation to the set is the library's (`SlidingWindow.Tracks`, here `Session.Seen`).
Only its translation to the words of the specification is new (`fresh_iff_windowAccepts`).
-/

set_option autoImplicit false

namespace EdgarVPN

/-- The specification of the check, against the counters accepted so far. -/
def WindowAccepts (accepted : List UInt64) (counter : UInt64) : Prop :=
  counter ∉ accepted ∧
    (accepted = [] ∨ ∃ m ∈ accepted, (∀ k ∈ accepted, k ≤ m) ∧
      (m < counter ∨ m.toNat - counter.toNat < sessionReplayWindowBits))

/-- One call of `replay_check_and_mark`, beside the counters it has accepted. -/
def replayStep (t : Session × List UInt64) (counter : UInt64) : Session × List UInt64 :=
  match replayCheckAndMark t.1 counter with
  | (s, true) => (s, counter :: t.2)
  | (s, false) => (s, t.2)

/-- The calls on a sequence of counters: the session after them, and the counters accepted. -/
def replayRun (s : Session) (counters : List UInt64) : Session × List UInt64 :=
  counters.foldl replayStep (s, [])

/-- The arithmetic on counters that a call makes does not wrap: the two differences, and each value
the variable of the clearing loop takes, the one that ends the loop included. The loop is the one
that `replay_check_and_mark` runs: the slots it has cleared are those of the values visited. -/
structure ReplayExact (s : Session) (counter : UInt64) : Prop where
  advance : s.haveReceivedAny = true → s.highestRxCounter < counter →
    (counter - s.highestRxCounter).toNat + s.highestRxCounter.toNat = counter.toNat
  loop : s.haveReceivedAny = true → s.highestRxCounter < counter →
    ∀ round, s.highestRxCounter.toNat + 1 + round ≤ counter.toNat →
      (s.highestRxCounter + 1 + UInt64.ofNat round).toNat = s.highestRxCounter.toNat + 1 + round
  visited : s.haveReceivedAny = true → s.highestRxCounter < counter →
    counter - s.highestRxCounter < UInt64.ofNat sessionReplayWindowBits →
      ∃ values : List UInt64, (replayCheckAndMark s counter).1.replayWindow =
          replayBitSet (values.foldl replayBitClear s.replayWindow) counter ∧
        values.map UInt64.toNat = List.range' (s.highestRxCounter.toNat + 1)
          (counter.toNat - (s.highestRxCounter.toNat + 1))
  age : s.haveReceivedAny = true → counter ≤ s.highestRxCounter →
    (s.highestRxCounter - counter).toNat + counter.toNat = s.highestRxCounter.toNat

/-- The numbers between two counters, as the loop holds them. -/
theorem replayLoop_toNat {high counter : UInt64} (h : high < counter) :
    (replayLoop counter (counter - high).toNat (high + 1)).map UInt64.toNat =
      List.range' (high.toNat + 1) (counter.toNat - (high.toNat + 1)) := by
  have hlt := counter.toNat_lt
  rw [replayLoop_between h, List.map_map]
  refine (List.map_congr_left fun n hn => ?_).trans (List.map_id _)
  rw [List.mem_range'_1] at hn
  rw [Function.comp_apply, UInt64.toNat_ofNat', id_eq]
  omega

theorem replayExact (s : Session) (counter : UInt64) : ReplayExact s counter where
  advance _ hup := by
    have hle := UInt64.le_iff_toNat_le.mp (UInt64.le_of_lt hup)
    rw [UInt64.toNat_sub_of_le _ _ (UInt64.le_of_lt hup)]
    omega
  loop _ _ round hround := by
    have hlt := counter.toNat_lt
    have hone : (1 : UInt64).toNat = 1 := rfl
    rw [UInt64.toNat_add, UInt64.toNat_add, UInt64.toNat_ofNat', hone]
    omega
  visited hany hup hnear := by
    refine ⟨replayLoop counter (counter - s.highestRxCounter).toNat (s.highestRxCounter + 1), ?_,
      replayLoop_toNat hup⟩
    unfold replayCheckAndMark
    rw [if_neg (by rw [hany]; decide), if_pos hup]
    dsimp only
    rw [if_neg (UInt64.not_le.mpr hnear)]
  age _ hdown := by
    have hle := UInt64.le_iff_toNat_le.mp hdown
    rw [UInt64.toNat_sub_of_le _ _ hdown]
    omega

/-! ## The set and its words -/

/-- The counters accepted, as the set of numbers the window tracks. -/
def acceptedSet (accepted : List UInt64) : Finset ℕ := (accepted.map UInt64.toNat).toFinset

@[simp] theorem acceptedSet_nil : acceptedSet [] = ∅ := rfl

@[simp] theorem acceptedSet_cons (c : UInt64) (accepted : List UInt64) :
    acceptedSet (c :: accepted) = insert c.toNat (acceptedSet accepted) := by
  simp only [acceptedSet, List.map_cons, List.toFinset_cons]

theorem mem_acceptedSet {c : UInt64} {accepted : List UInt64} :
    c.toNat ∈ acceptedSet accepted ↔ c ∈ accepted := by
  simp only [acceptedSet, List.mem_toFinset, List.mem_map, UInt64.toNat_inj, exists_eq_right]

/-- A history that is not empty has a highest counter. -/
theorem exists_highest {accepted : List UInt64} (hne : accepted ≠ []) :
    ∃ m ∈ accepted, ∀ k ∈ accepted, k ≤ m := by
  obtain ⟨c, hc⟩ := List.exists_mem_of_ne_nil accepted hne
  obtain ⟨n, hn, hmax⟩ :=
    (acceptedSet accepted).exists_max_image id ⟨c.toNat, mem_acceptedSet.mpr hc⟩
  simp only [acceptedSet, List.mem_toFinset, List.mem_map] at hn
  obtain ⟨m, hm, rfl⟩ := hn
  refine ⟨m, hm, fun k hk => ?_⟩
  exact UInt64.le_iff_toNat_le.mpr (hmax k.toNat (mem_acceptedSet.mpr hk))

/-- Being fresh against the set is what the specification says. -/
theorem fresh_iff_windowAccepts (accepted : List UInt64) (counter : UInt64) :
    SlidingWindow.Fresh sessionReplayWindowBits (acceptedSet accepted) counter.toNat ↔
      WindowAccepts accepted counter := by
  unfold SlidingWindow.Fresh WindowAccepts
  rw [mem_acceptedSet]
  apply and_congr_right
  intro _
  constructor
  · intro near
    by_cases hnil : accepted = []
    · exact .inl hnil
    · obtain ⟨m, hm, hmax⟩ := exists_highest hnil
      have hnear := near m.toNat (mem_acceptedSet.mpr hm)
      refine .inr ⟨m, hm, hmax, ?_⟩
      by_cases hup : m < counter
      · exact .inl hup
      · have hle := UInt64.le_iff_toNat_le.mp (UInt64.not_lt.mp hup)
        right
        omega
  · rintro (rfl | ⟨m, hm, hmax, hnear⟩) n hn
    · simp at hn
    · simp only [acceptedSet, List.mem_toFinset, List.mem_map] at hn
      obtain ⟨k, hk, rfl⟩ := hn
      have hkm := UInt64.le_iff_toNat_le.mp (hmax k hk)
      have hbits : 0 < sessionReplayWindowBits := by decide
      rcases hnear with hup | hnear
      · have := UInt64.lt_iff_toNat_lt.mp hup
        omega
      · omega

/-! ## Every call of every sequence -/

/-- The bitmap of a session holds the counters accepted beside it. -/
def Recorded (t : Session × List UInt64) : Prop := t.1.Seen (acceptedSet t.2)

/-- A call keeps the bitmap and the history together. -/
theorem Recorded.step {t : Session × List UInt64} (h : Recorded t) (counter : UInt64) :
    Recorded (replayStep t counter) := by
  unfold replayStep
  split
  · next s hcheck =>
    have hseen := replayCheckAndMark_seen h (show (replayCheckAndMark t.1 counter).2 = true by
      rw [hcheck])
    rw [hcheck] at hseen
    rw [Recorded, acceptedSet_cons]
    exact hseen
  · next s hcheck =>
    have hsame := replayCheckAndMark_rejects (show (replayCheckAndMark t.1 counter).2 = false by
      rw [hcheck])
    rw [hcheck] at hsame
    rw [Recorded, hsame]
    exact h

theorem Recorded.run (counters : List UInt64) :
    ∀ {t : Session × List UInt64}, Recorded t → Recorded (counters.foldl replayStep t) := by
  induction counters with
  | nil => intro t h; exact h
  | cons c counters ih => intro t h; exact ih (h.step c)

/-- **The bitmap window is the set-based specification.** Start after `session_start_handshake` and
let any counters have been checked: the next call answers 1 exactly when the specification accepts
the counter against those accepted so far, an answer of 0 leaves the session as it was, and nothing
the call computes wraps. -/
theorem replayWindow_refines (kp : KeyPair) (s : Session) (earlier : List UInt64)
    (counter : UInt64) :
    let t := replayRun (sessionStartHandshake kp s) earlier
    ((replayCheckAndMark t.1 counter).2 = true ↔ WindowAccepts t.2 counter) ∧
      ((replayCheckAndMark t.1 counter).2 = false → (replayCheckAndMark t.1 counter).1 = t.1) ∧
      ReplayExact t.1 counter := by
  intro t
  have start : Recorded (sessionStartHandshake kp s, []) := (start_dataReset kp s).seen
  have recorded : Recorded t := Recorded.run earlier start
  refine ⟨?_, replayCheckAndMark_rejects, replayExact t.1 counter⟩
  rw [replayCheckAndMark_accepts recorded, fresh_iff_windowAccepts]

end EdgarVPN
