import Mathlib.Data.Nat.Bitwise
import Mathlib.Tactic.Ring

/-!
# Little-endian integers

The byte-level tools behind a fixed-width little-endian field: the encoding of a natural number in
`n` bytes, the value of a byte string, and the fact that each undoes the other. Programs write these
as loops of shifts, so the two loop forms are here too: a write loop stores `v >> 8i` at position
`i` (`toBytes_eq_map`), a read loop ors `b << 8i` into an accumulator (`foldl_or_eq`).
-/

set_option autoImplicit false

namespace LittleEndian

/-- The low `n` bytes of a number, least significant first. -/
def toBytes : Nat → Nat → List UInt8
  | 0, _ => []
  | n + 1, v => UInt8.ofNat v :: toBytes n (v / 256)

/-- The number a byte string spells, least significant byte first. -/
def ofBytes : List UInt8 → Nat
  | [] => 0
  | b :: bs => b.toNat + 256 * ofBytes bs

/-- Reading back what was written, for a number that fits. -/
theorem ofBytes_toBytes {n v : Nat} (fits : v < 256 ^ n) : ofBytes (toBytes n v) = v := by
  induction n generalizing v with
  | zero => simp only [Nat.pow_zero] at fits; simp only [toBytes, ofBytes]; omega
  | succ n ih =>
    have hdiv : v / 256 < 256 ^ n := by
      rw [Nat.pow_succ] at fits
      exact Nat.div_lt_of_lt_mul (by omega)
    simp only [toBytes, ofBytes, ih hdiv, UInt8.toNat_ofNat']
    omega

/-- Writing back what was read. -/
theorem toBytes_ofBytes (bs : List UInt8) : toBytes bs.length (ofBytes bs) = bs := by
  induction bs with
  | nil => rfl
  | cons b bs ih =>
    have hb := b.toNat_lt
    have hdiv : (b.toNat + 256 * ofBytes bs) / 256 = ofBytes bs := by omega
    have hlow : UInt8.ofNat (b.toNat + 256 * ofBytes bs) = b := by
      apply UInt8.toNat_inj.mp
      simp only [UInt8.toNat_ofNat']
      omega
    simp only [List.length_cons, ofBytes, toBytes, hdiv, ih, hlow]

/-- A byte string of length `n` spells a number that fits in `n` bytes. -/
theorem ofBytes_lt (bs : List UInt8) : ofBytes bs < 256 ^ bs.length := by
  induction bs with
  | nil => simp only [ofBytes, List.length_nil, Nat.pow_zero, Nat.zero_lt_one]
  | cons b bs ih =>
    have hb := b.toNat_lt
    simp only [ofBytes, List.length_cons, Nat.pow_succ]
    omega

/-- One more byte at the end stands above all the others. -/
theorem ofBytes_snoc (bs : List UInt8) (b : UInt8) :
    ofBytes (bs ++ [b]) = ofBytes bs + b.toNat * 256 ^ bs.length := by
  induction bs with
  | nil => simp only [List.nil_append, ofBytes, List.length_nil, Nat.pow_zero]; omega
  | cons a bs ih =>
    simp only [List.cons_append, ofBytes, ih, List.length_cons, Nat.pow_succ]
    ring

/-! ## The loop forms -/

/-- The write loop: position `i` holds the byte at shift `8i`. -/
theorem toBytes_eq_map (n v : Nat) :
    toBytes n v = (List.range n).map fun i => UInt8.ofNat (v >>> (8 * i)) := by
  induction n generalizing v with
  | zero => rfl
  | succ n ih =>
    have hshift : ∀ i, (v / 256) >>> (8 * i) = v >>> (8 * (i + 1)) := fun i => by
      rw [show 8 * (i + 1) = 8 + 8 * i from by ring, Nat.shiftRight_add,
        Nat.shiftRight_eq_div_pow v 8]
    rw [List.range_succ_eq_map, List.map_cons, List.map_map, toBytes, ih]
    simp only [Nat.mul_zero, Nat.shiftRight_zero, hshift, Function.comp_def, Nat.succ_eq_add_one]

/-- The read loop: or-ing each byte in at its shift is the value of the bytes read, because the
accumulator never reaches the bits the next byte sets. -/
theorem foldl_or_eq (bs : List UInt8) {n : Nat} (long : n ≤ bs.length) :
    (List.range n).foldl (fun acc i => acc ||| (bs.getD i 0).toNat <<< (8 * i)) 0 =
      ofBytes (bs.take n) := by
  induction n with
  | zero => rfl
  | succ n ih =>
    have hlen : (bs.take n).length = n := by rw [List.length_take]; omega
    have hlt : ofBytes (bs.take n) < 2 ^ (8 * n) := by
      have := ofBytes_lt (bs.take n)
      rwa [hlen, show (256 : Nat) = 2 ^ 8 from rfl, ← Nat.pow_mul] at this
    have hget : bs.getD n 0 = bs[n] := by
      rw [List.getD_eq_getElem?_getD, List.getElem?_eq_getElem long, Option.getD_some]
    rw [List.range_succ, List.foldl_append, ih (by omega), List.foldl_cons, List.foldl_nil,
      List.take_add_one, List.getElem?_eq_getElem long, Option.toList_some, ofBytes_snoc, hget,
      Nat.or_comm, ← Nat.shiftLeft_add_eq_or_of_lt hlt, hlen, Nat.shiftLeft_eq,
      show (256 : Nat) = 2 ^ 8 from rfl, ← Nat.pow_mul, Nat.add_comm]

end LittleEndian
