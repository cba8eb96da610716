import EdgarVPN.Lib.Dotted
import Mathlib.Tactic.IntervalCases

/-!
# Prefixes of addresses

Two addresses agree on a prefix when their first bits are equal (`Agree`), counted from the most
significant bit of the first byte. A program compares words instead: it reads the four bytes as
`s_addr`, in the byte order of its host, and masks both sides. The two are the same on every host
(`masked_eq_iff`), for two reasons. Masking and reading commute (`sAddr_and`), since reading only
places bytes. And the word of a mask is the reading of an address as well (`htonl_eq`), the one
whose first bits are ones.
-/

set_option autoImplicit false

namespace InAddr

/-! ## Words and bytes -/

/-- The bits of a word, byte by byte. -/
theorem getLsbD_word (a b c d : UInt8) {i : Nat} (h : i < 8) :
    (word a b c d).toBitVec.getLsbD i = d.toBitVec.getLsbD i ∧
      (word a b c d).toBitVec.getLsbD (i + 8) = c.toBitVec.getLsbD i ∧
      (word a b c d).toBitVec.getLsbD (i + 16) = b.toBitVec.getLsbD i ∧
      (word a b c d).toBitVec.getLsbD (i + 24) = a.toBitVec.getLsbD i := by
  unfold word
  simp only [UInt32.toBitVec_or, UInt32.toBitVec_shiftLeft, UInt8.toBitVec_toUInt32]
  interval_cases i <;> simp

/-- Words with the same bits in each byte are equal. -/
theorem word_ext {u v : UInt32}
    (h : ∀ i < 8, u.toBitVec.getLsbD i = v.toBitVec.getLsbD i ∧
      u.toBitVec.getLsbD (i + 8) = v.toBitVec.getLsbD (i + 8) ∧
      u.toBitVec.getLsbD (i + 16) = v.toBitVec.getLsbD (i + 16) ∧
      u.toBitVec.getLsbD (i + 24) = v.toBitVec.getLsbD (i + 24)) : u = v := by
  apply UInt32.toBitVec_inj.mp
  apply BitVec.eq_of_getLsbD_eq
  intro k hk
  obtain ⟨h₀, h₁, h₂, h₃⟩ := h (k % 8) (Nat.mod_lt _ (by decide))
  have split : k = k % 8 ∨ k = k % 8 + 8 ∨ k = k % 8 + 16 ∨ k = k % 8 + 24 := by omega
  rcases split with hk' | hk' | hk' | hk'
  · rwa [← hk'] at h₀
  · rwa [← hk'] at h₁
  · rwa [← hk'] at h₂
  · rwa [← hk'] at h₃

theorem word_and (a b c d a' b' c' d' : UInt8) :
    word a b c d &&& word a' b' c' d' = word (a &&& a') (b &&& b') (c &&& c') (d &&& d') := by
  apply word_ext
  intro i hi
  simp only [UInt32.toBitVec_and, UInt8.toBitVec_and, BitVec.getLsbD_and, getLsbD_word _ _ _ _ hi,
    and_self]

theorem word_injective {a b c d a' b' c' d' : UInt8} (h : word a b c d = word a' b' c' d') :
    a = a' ∧ b = b' ∧ c = c' ∧ d = d' := by
  have bits {x y : UInt8} (hxy : ∀ i < 8, x.toBitVec.getLsbD i = y.toBitVec.getLsbD i) : x = y :=
    UInt8.toBitVec_inj.mp (BitVec.eq_of_getLsbD_eq hxy)
  refine ⟨bits fun i hi => ?_, bits fun i hi => ?_, bits fun i hi => ?_, bits fun i hi => ?_⟩
  · rw [← (getLsbD_word a b c d hi).2.2.2, h, (getLsbD_word a' b' c' d' hi).2.2.2]
  · rw [← (getLsbD_word a b c d hi).2.2.1, h, (getLsbD_word a' b' c' d' hi).2.2.1]
  · rw [← (getLsbD_word a b c d hi).2.1, h, (getLsbD_word a' b' c' d' hi).2.1]
  · rw [← (getLsbD_word a b c d hi).1, h, (getLsbD_word a' b' c' d' hi).1]

/-- A word is the word of its bytes. -/
theorem word_bytes (v : UInt32) :
    word (v >>> 24).toUInt8 (v >>> 16).toUInt8 (v >>> 8).toUInt8 (v >>> 0).toUInt8 = v := by
  apply word_ext
  intro i hi
  simp only [getLsbD_word _ _ _ _ hi]
  simp [hi, Nat.add_comm]

/-! ## Addresses -/

/-- The bytes of an address, as they lie in memory. -/
def bytes (x : InAddr) : List UInt8 := [x.a, x.b, x.c, x.d]

/-- Bit `k` of a byte string. Bit 0 is the most significant bit of the first byte. -/
def bitAt (s : List UInt8) (k : Nat) : Bool := (s.getD (k / 8) 0).toBitVec.getMsbD (k % 8)

/-- Two byte strings have the same first `length` bits. -/
def Agree (length : Nat) (s t : List UInt8) : Prop := ∀ k < length, bitAt s k = bitAt t k

instance (length : Nat) (s t : List UInt8) : Decidable (Agree length s t) :=
  inferInstanceAs (Decidable (∀ k < length, bitAt s k = bitAt t k))

/-- The bytes of two addresses, masked with each other. -/
def and (x y : InAddr) : InAddr := ⟨x.a &&& y.a, x.b &&& y.b, x.c &&& y.c, x.d &&& y.d⟩

theorem sAddr_and (host : Endian) (x y : InAddr) :
    x.sAddr host &&& y.sAddr host = (x.and y).sAddr host := by
  cases host with
  | little => exact word_and ..
  | big => exact word_and ..

theorem sAddr_injective (host : Endian) {x y : InAddr} (h : x.sAddr host = y.sAddr host) :
    x = y := by
  obtain ⟨a, b, c, d⟩ := x
  obtain ⟨a', b', c', d'⟩ := y
  cases host with
  | little =>
    obtain ⟨rfl, rfl, rfl, rfl⟩ := word_injective h
    rfl
  | big =>
    obtain ⟨rfl, rfl, rfl, rfl⟩ := word_injective h
    rfl

/-- `htonl` gives the word that the host reads where the bytes lie most significant first. -/
theorem htonl_eq (host : Endian) (value : UInt32) :
    htonl host value = (ofSAddr .big value).sAddr host := by
  cases host with
  | little => rfl
  | big => exact (word_bytes value).symm

/-! ## Bits of addresses -/

theorem bitAt_byte {x : InAddr} {j i : Nat} (h : i < 8) :
    bitAt x.bytes (8 * j + i) = (x.bytes.getD j 0).toBitVec.getMsbD i := by
  rw [bitAt, Nat.mul_add_div (by decide), Nat.div_eq_of_lt h, Nat.add_zero, Nat.mul_add_mod,
    Nat.mod_eq_of_lt h]

/-- Addresses with the same 32 bits are equal. -/
theorem eq_of_bitAt {x y : InAddr} (h : ∀ k < 32, bitAt x.bytes k = bitAt y.bytes k) : x = y := by
  have byte (j : Nat) (hj : j < 4) : x.bytes.getD j 0 = y.bytes.getD j 0 := by
    apply UInt8.toBitVec_inj.mp
    apply BitVec.eq_of_getMsbD_eq
    intro i hi
    rw [← bitAt_byte hi, ← bitAt_byte hi]
    exact h _ (by omega)
  obtain ⟨a, b, c, d⟩ := x
  obtain ⟨a', b', c', d'⟩ := y
  obtain rfl : a = a' := byte 0 (by decide)
  obtain rfl : b = b' := byte 1 (by decide)
  obtain rfl : c = c' := byte 2 (by decide)
  obtain rfl : d = d' := byte 3 (by decide)
  rfl

theorem bitAt_and (x y : InAddr) {k : Nat} (h : k < 32) :
    bitAt (x.and y).bytes k = (bitAt x.bytes k && bitAt y.bytes k) := by
  have byte : (x.and y).bytes.getD (k / 8) 0 =
      x.bytes.getD (k / 8) 0 &&& y.bytes.getD (k / 8) 0 := by
    have : k / 8 < 4 := by omega
    interval_cases k / 8 <;> rfl
  rw [bitAt, byte, UInt8.toBitVec_and, BitVec.getMsbD_and]
  rfl

/-- The bits of a netmask are ones up to its length. -/
theorem bitAt_netmask : ∀ (length : Fin 33) (k : Fin 32),
    bitAt (netmask length).bytes k = decide (k.val < length.val) := by
  decide +kernel

/-- **Masked words are equal exactly where the addresses agree on the prefix.** -/
theorem masked_eq_iff (host : Endian) (x y : InAddr) {length : Nat} (h : length ≤ 32) :
    x.sAddr host &&& (netmask length).sAddr host = y.sAddr host &&& (netmask length).sAddr host ↔
      Agree length x.bytes y.bytes := by
  have masked (z : InAddr) (k : Nat) (hk : k < 32) :
      bitAt (z.and (netmask length)).bytes k = (bitAt z.bytes k && decide (k < length)) := by
    rw [bitAt_and _ _ hk, bitAt_netmask ⟨length, Nat.lt_succ_of_le h⟩ ⟨k, hk⟩]
  rw [sAddr_and, sAddr_and]
  constructor
  · intro equal k hk
    have bit := congrArg (fun z => bitAt z.bytes k) (sAddr_injective host equal)
    have hk' : k < 32 := Nat.lt_of_lt_of_le hk h
    simpa [masked _ k hk', hk] using bit
  · intro agree
    apply congrArg
    apply eq_of_bitAt
    intro k hk
    rw [masked x k hk, masked y k hk]
    by_cases hlength : k < length
    · rw [agree k hlength]
    · rw [decide_eq_false hlength, Bool.and_false, Bool.and_false]

end InAddr
