import EdgarVPN.Session.State
import EdgarVPN.Lib.SlidingWindow

/-!
# `src/session.c`: the replay window

`replay_check_and_mark` keeps 1024 bits in 128 bytes, bit `counter % 1024` for each counter, and
slides them. The three bit functions are modelled on the bytes, as the source writes them; they form
a bit ring (`replayRing`), so the check is the library's sliding window on that ring
(`replayCheckAndMark_eq`) and inherits its meaning: it accepts exactly the counters that are fresh
against the set of those accepted since the last reset.
-/

set_option autoImplicit false

namespace EdgarVPN

/-- The bit a counter stands at. -/
def replaySlot (counter : UInt64) : Nat := counter.toNat % sessionReplayWindowBits

theorem replaySlot_byte_lt (counter : UInt64) :
    replaySlot counter / 8 < sessionReplayWindowBytes := by
  have : replaySlot counter < 1024 := Nat.mod_lt _ (by decide)
  exact Nat.div_lt_of_lt_mul this

/-- `replay_bit_get`. -/
def replayBitGet (window : ReplayWindow) (counter : UInt64) : Bool :=
  let slot := replaySlot counter
  (window.get ⟨slot / 8, replaySlot_byte_lt counter⟩ >>> UInt8.ofNat (slot % 8)) &&& 1 != 0

/-- `replay_bit_set`. -/
def replayBitSet (window : ReplayWindow) (counter : UInt64) : ReplayWindow :=
  let slot := replaySlot counter
  let byte := window.get ⟨slot / 8, replaySlot_byte_lt counter⟩
  window.set (slot / 8) (byte ||| 1 <<< UInt8.ofNat (slot % 8)) (replaySlot_byte_lt counter)

/-- `replay_bit_clear`. -/
def replayBitClear (window : ReplayWindow) (counter : UInt64) : ReplayWindow :=
  let slot := replaySlot counter
  let byte := window.get ⟨slot / 8, replaySlot_byte_lt counter⟩
  window.set (slot / 8) (byte &&& ~~~(1 <<< UInt8.ofNat (slot % 8))) (replaySlot_byte_lt counter)

/-- The values that the variable of `for (c = ...; c < counter; c++)` takes inside the loop, over at
most `fuel` rounds. -/
def replayLoop (counter : UInt64) : Nat → UInt64 → List UInt64
  | 0, _ => []
  | fuel + 1, c => if c < counter then c :: replayLoop counter fuel (c + 1) else []

/-- `replay_check_and_mark`: whether it returned 1. -/
def replayCheckAndMark (s : Session) (counter : UInt64) : Session × Bool :=
  if s.haveReceivedAny = false then
    ({ s with
        replayWindow := replayBitSet s.replayWindow counter
        highestRxCounter := counter
        haveReceivedAny := true }, true)
  else if counter > s.highestRxCounter then
    let advance := counter - s.highestRxCounter
    let window :=
      if advance ≥ UInt64.ofNat sessionReplayWindowBits then
        ReplayWindow.zero
      else
        -- the loop starts above the highest counter, so it makes fewer rounds than the advance
        (replayLoop counter advance.toNat (s.highestRxCounter + 1)).foldl replayBitClear
          s.replayWindow
    ({ s with
        replayWindow := replayBitSet window counter
        highestRxCounter := counter }, true)
  else
    let age := s.highestRxCounter - counter
    if age ≥ UInt64.ofNat sessionReplayWindowBits then
      (s, false)
    else if replayBitGet s.replayWindow counter then
      (s, false)
    else
      ({ s with replayWindow := replayBitSet s.replayWindow counter }, true)

/-! ## The clearing loop -/

/-- Below another counter, the next one does not wrap. -/
theorem toNat_add_one_of_lt {c counter : UInt64} (h : c < counter) :
    (c + 1).toNat = c.toNat + 1 := by
  have below := UInt64.lt_iff_toNat_lt.mp h
  have hlt := counter.toNat_lt
  have one : (1 : UInt64).toNat = 1 := rfl
  rw [UInt64.toNat_add, one]
  omega

/-- With a round for each number below `counter`, the loop ends by its own condition, and the values
it has visited are those numbers. -/
theorem replayLoop_eq (counter : UInt64) (fuel : Nat) :
    ∀ {c : UInt64}, counter.toNat - c.toNat ≤ fuel → replayLoop counter fuel c =
      (List.range' c.toNat (counter.toNat - c.toNat)).map UInt64.ofNat := by
  induction fuel with
  | zero =>
    intro c enough
    rw [Nat.le_zero.mp enough]
    rfl
  | succ fuel ih =>
    intro c enough
    unfold replayLoop
    by_cases h : c < counter
    · have below := UInt64.lt_iff_toNat_lt.mp h
      have next := toNat_add_one_of_lt h
      have rounds : counter.toNat - c.toNat = counter.toNat - (c + 1).toNat + 1 := by omega
      rw [if_pos h, ih (by omega), rounds, List.range'_succ, List.map_cons, UInt64.ofNat_toNat,
        next]
    · have above := UInt64.le_iff_toNat_le.mp (UInt64.not_lt.mp h)
      rw [if_neg h, Nat.sub_eq_zero_of_le above]
      rfl

/-- The loop of `replay_check_and_mark` visits the numbers between the two counters. -/
theorem replayLoop_between {high counter : UInt64} (h : high < counter) :
    replayLoop counter (counter - high).toNat (high + 1) =
      (List.range' (high.toNat + 1) (counter.toNat - (high.toNat + 1))).map UInt64.ofNat := by
  have below := UInt64.lt_iff_toNat_lt.mp h
  have first := toNat_add_one_of_lt h
  have rounds := UInt64.toNat_sub_of_le _ _ (UInt64.le_of_lt h)
  rw [replayLoop_eq counter _ (by omega), first]

/-! ## The bits of a byte -/

theorem byte_bit (b : UInt8) {j : Nat} (hj : j < 8) :
    ((b >>> UInt8.ofNat j) &&& 1 != 0) = b.toBitVec.getLsbD j := by
  change _ = b.toNat.testBit j
  rw [Nat.testBit, Bool.eq_iff_iff, bne_iff_ne, bne_iff_ne, not_iff_not, ← UInt8.toNat_inj]
  simp only [UInt8.toNat_and, UInt8.toNat_shiftRight, UInt8.toNat_ofNat', UInt8.reduceToNat]
  rw [Nat.mod_eq_of_lt (show j < 2 ^ 8 by omega), Nat.mod_eq_of_lt hj, Nat.and_comm]

theorem one_shiftLeft_bit {i j : Nat} (hi : i < 8) (hj : j < 8) :
    ((1 : UInt8) <<< UInt8.ofNat i).toBitVec.getLsbD j = decide (i = j) := by
  change ((1 : UInt8) <<< UInt8.ofNat i).toNat.testBit j = _
  simp only [UInt8.toNat_shiftLeft, UInt8.toNat_ofNat', UInt8.reduceToNat]
  rw [Nat.mod_eq_of_lt (show i < 2 ^ 8 by omega), Nat.mod_eq_of_lt hi, Nat.testBit_mod_two_pow,
    Nat.one_shiftLeft, Nat.testBit_two_pow, decide_eq_true hj, Bool.true_and]

theorem window_get (window : ReplayWindow) {i : Nat} (h : i < sessionReplayWindowBytes) :
    window.get ⟨i, h⟩ = window[i] := rfl

/-- Two counters share a slot exactly when they share its byte and its bit. -/
theorem replaySlot_eq_iff (c d : UInt64) : replaySlot c = replaySlot d ↔
    replaySlot c / 8 = replaySlot d / 8 ∧ replaySlot c % 8 = replaySlot d % 8 := by omega

theorem replayBitGet_replayBitSet (window : ReplayWindow) (c d : UInt64) :
    replayBitGet (replayBitSet window c) d =
      (decide (replaySlot c = replaySlot d) || replayBitGet window d) := by
  have hc : replaySlot c % 8 < 8 := Nat.mod_lt _ (by decide)
  have hd : replaySlot d % 8 < 8 := Nat.mod_lt _ (by decide)
  simp only [replayBitGet, replayBitSet, byte_bit _ hd, window_get, Vector.getElem_set]
  by_cases hbyte : replaySlot c / 8 = replaySlot d / 8
  · simp only [hbyte, if_true, UInt8.toBitVec_or, BitVec.getLsbD_or, one_shiftLeft_bit hc hd,
      replaySlot_eq_iff, true_and, Bool.or_comm]
  · simp only [hbyte, if_false, replaySlot_eq_iff, false_and, decide_false, Bool.false_or]

theorem replayBitGet_replayBitClear (window : ReplayWindow) (c d : UInt64) :
    replayBitGet (replayBitClear window c) d =
      (!decide (replaySlot c = replaySlot d) && replayBitGet window d) := by
  have hc : replaySlot c % 8 < 8 := Nat.mod_lt _ (by decide)
  have hd : replaySlot d % 8 < 8 := Nat.mod_lt _ (by decide)
  simp only [replayBitGet, replayBitClear, byte_bit _ hd, window_get,
    Vector.getElem_set]
  by_cases hbyte : replaySlot c / 8 = replaySlot d / 8
  · simp only [hbyte, if_true, UInt8.toBitVec_and, UInt8.toBitVec_not, BitVec.getLsbD_and,
      BitVec.getLsbD_not, one_shiftLeft_bit hc hd, replaySlot_eq_iff, true_and, hd, decide_true,
      Bool.true_and, Bool.and_comm]
  · simp only [hbyte, if_false, replaySlot_eq_iff, false_and, decide_false, Bool.not_false,
      Bool.true_and]

theorem replayBitGet_zero (c : UInt64) : replayBitGet ReplayWindow.zero c = false := by
  have hc : replaySlot c % 8 < 8 := Nat.mod_lt _ (by decide)
  simp only [replayBitGet, byte_bit _ hc, ReplayWindow.zero, window_get,
    Vector.getElem_replicate, UInt8.toBitVec_zero, BitVec.getLsbD_zero]

/-! ## The window as the library's -/

theorem replaySlot_ofNat (n : Nat) :
    replaySlot (UInt64.ofNat n) = n % sessionReplayWindowBits := by
  rw [replaySlot, UInt64.toNat_ofNat', sessionReplayWindowBits]
  omega

/-- The bitmap is a ring of 1024 bits. -/
def replayRing : SlidingWindow.BitRing ReplayWindow sessionReplayWindowBits where
  empty := ReplayWindow.zero
  get window n := replayBitGet window (UInt64.ofNat n)
  set window n := replayBitSet window (UInt64.ofNat n)
  clear window n := replayBitClear window (UInt64.ofNat n)
  get_empty _ := replayBitGet_zero _
  get_set b m n := by
    rw [replayBitGet_replayBitSet, replaySlot_ofNat, replaySlot_ofNat]
  get_clear b m n := by
    rw [replayBitGet_replayBitClear, replaySlot_ofNat, replaySlot_ofNat]

/-- The replay state of a session, as the library's window. -/
def Session.window (s : Session) : SlidingWindow.Window ReplayWindow :=
  ⟨s.haveReceivedAny, s.highestRxCounter.toNat, s.replayWindow⟩

/-- A session with its replay state replaced. -/
def Session.withWindow (s : Session) (w : SlidingWindow.Window ReplayWindow) : Session :=
  { s with
    haveReceivedAny := w.any
    highestRxCounter := UInt64.ofNat w.high
    replayWindow := w.bits }

/-- **`replay_check_and_mark` is the library's check on the bitmap.** The two subtractions of the
source are made only where they do not wrap, so the comparisons are those of the numbers. -/
theorem replayCheckAndMark_eq (s : Session) (counter : UInt64) :
    replayCheckAndMark s counter =
      (s.withWindow (SlidingWindow.check replayRing s.window counter.toNat).1,
        (SlidingWindow.check replayRing s.window counter.toNat).2) := by
  have bits : (UInt64.ofNat sessionReplayWindowBits).toNat = sessionReplayWindowBits := rfl
  have marked : UInt64.ofNat counter.toNat = counter := UInt64.ofNat_toNat
  have kept : UInt64.ofNat s.highestRxCounter.toNat = s.highestRxCounter := UInt64.ofNat_toNat
  unfold replayCheckAndMark SlidingWindow.check
  by_cases hany : s.haveReceivedAny = false
  · simp only [hany, if_true, Session.window, Session.withWindow, replayRing, marked]
  · have hany' : s.haveReceivedAny = true := by simpa using hany
    by_cases hup : counter > s.highestRxCounter
    · have hup' : s.highestRxCounter.toNat < counter.toNat := UInt64.lt_iff_toNat_lt.mp hup
      have hadv : counter - s.highestRxCounter ≥ UInt64.ofNat sessionReplayWindowBits ↔
          sessionReplayWindowBits ≤ counter.toNat - s.highestRxCounter.toNat := by
        rw [ge_iff_le, UInt64.le_iff_toNat_le, bits,
          UInt64.toNat_sub_of_le _ _ (UInt64.le_of_lt hup)]
      simp only [hany', hup, hup', hadv, if_true, Session.window, Session.withWindow, replayRing,
        marked, reduceCtorEq, if_false, replayLoop_between hup, List.foldl_map]
    · have hup' : ¬ s.highestRxCounter.toNat < counter.toNat :=
        fun h => hup (UInt64.lt_iff_toNat_lt.mpr h)
      have hage : s.highestRxCounter - counter ≥ UInt64.ofNat sessionReplayWindowBits ↔
          sessionReplayWindowBits ≤ s.highestRxCounter.toNat - counter.toNat := by
        rw [ge_iff_le, UInt64.le_iff_toNat_le, bits,
          UInt64.toNat_sub_of_le _ _ (UInt64.not_lt.mp hup)]
      by_cases hold : sessionReplayWindowBits ≤ s.highestRxCounter.toNat - counter.toNat
      · simp only [hany', hup, hup', hage, hold, if_true, if_false, Session.window,
          Session.withWindow, kept, reduceCtorEq]
        rw [← hany']
      · by_cases hbit : replayBitGet s.replayWindow counter = true
        · simp only [hany', hup, hup', hage, hold, hbit, if_true, if_false, Session.window,
            Session.withWindow, replayRing, marked, kept, reduceCtorEq]
          rw [← hany']
        · simp only [hany', hup, hup', hage, hold, hbit, if_false, Session.window,
            Session.withWindow, replayRing, marked, kept, reduceCtorEq]

/-- The replay state of a session holds the set of counters accepted since the last reset. -/
def Session.Seen (s : Session) (seen : Finset ℕ) : Prop :=
  SlidingWindow.Tracks replayRing s.window seen

/-- A reset data channel has seen nothing. -/
theorem Session.DataReset.seen {s : Session} (h : s.DataReset) : s.Seen ∅ := by
  have hany : s.window.any = false := h.2.1
  refine ⟨fun _ => ⟨rfl, fun n => ?_⟩, fun ht => ?_, fun ht => ?_, fun ht => ?_⟩
  · change replayBitGet s.replayWindow _ = false
    rw [h.2.2]
    exact replayBitGet_zero _
  all_goals rw [hany] at ht; cases ht

/-- A check touches nothing but the replay state. -/
theorem replayCheckAndMark_frame (s : Session) (counter : UInt64) :
    ∃ w, (replayCheckAndMark s counter).1 = s.withWindow w :=
  ⟨_, by rw [replayCheckAndMark_eq]⟩

theorem Session.window_withWindow (s : Session) {w : SlidingWindow.Window ReplayWindow}
    (small : w.high < 2 ^ 64) : (s.withWindow w).window = w := by
  simp only [Session.window, Session.withWindow, UInt64.toNat_ofNat', Nat.mod_eq_of_lt small]

theorem Session.withWindow_window (s : Session) : s.withWindow s.window = s := by
  simp only [Session.withWindow, Session.window, UInt64.ofNat_toNat]

/-- The replay state after a check is the library's. -/
theorem replayCheckAndMark_window (s : Session) (counter : UInt64) :
    (replayCheckAndMark s counter).1.window =
      (SlidingWindow.check replayRing s.window counter.toNat).1 := by
  have hlt : (SlidingWindow.check replayRing s.window counter.toNat).1.high < 2 ^ 64 := by
    rcases SlidingWindow.check_high (R := replayRing) s.window counter.toNat with h | h
    · rw [h]; exact counter.toNat_lt
    · rw [h]; exact s.highestRxCounter.toNat_lt
  rw [replayCheckAndMark_eq]
  exact Session.window_withWindow s hlt

/-- The check accepts exactly the counters that are fresh against those accepted. -/
theorem replayCheckAndMark_accepts {s : Session} {seen : Finset ℕ} (h : s.Seen seen)
    (counter : UInt64) : (replayCheckAndMark s counter).2 = true ↔
      SlidingWindow.Fresh sessionReplayWindowBits seen counter.toNat := by
  rw [replayCheckAndMark_eq]
  exact SlidingWindow.check_accepts h (by decide) counter.toNat

theorem replayCheckAndMark_seen {s : Session} {seen : Finset ℕ} (h : s.Seen seen)
    {counter : UInt64} (acc : (replayCheckAndMark s counter).2 = true) :
    (replayCheckAndMark s counter).1.Seen (insert counter.toNat seen) := by
  rw [replayCheckAndMark_eq] at acc
  rw [Session.Seen, replayCheckAndMark_window]
  exact SlidingWindow.check_tracks h acc

/-- A rejected counter leaves the session as it was. -/
theorem replayCheckAndMark_rejects {s : Session} {counter : UInt64}
    (rej : (replayCheckAndMark s counter).2 = false) : (replayCheckAndMark s counter).1 = s := by
  rw [replayCheckAndMark_eq] at rej ⊢
  rw [SlidingWindow.check_rejects rej]
  simp only [Session.withWindow, Session.window, UInt64.ofNat_toNat]

end EdgarVPN
