import EdgarVPN.Lib.CString

/-!
# Dotted quads

`inet_pton` and `inet_ntop` are inverse to each other: the texts `inet_pton` accepts are exactly the
ones `inet_ntop` writes (`inetPton_eq_some`). The scan is followed octet by octet
(`ptonScan_number`): from a number it has begun to read, it reads the rest of the decimal text of
some byte, and then the end of the text or a dot.

A netmask is the address whose first bits are ones (`netmask`).
-/

set_option autoImplicit false

namespace InAddr

open CString

/-! ## One octet -/

/-- A first digit. -/
theorem decimal_digit : ∀ d : Fin 10, decimal (UInt8.ofNat d) = [UInt8.ofNat (48 + d)] := by
  decide

/-- One more digit. -/
theorem decimal_append : ∀ (n : Fin 26) (d : Fin 10), n.val ≠ 0 → 10 * n.val + d.val ≤ 255 →
    decimal (UInt8.ofNat (10 * n + d)) = decimal (UInt8.ofNat n) ++ [UInt8.ofNat (48 + d)] := by
  decide

/-- A digit and its value. -/
theorem digit_eq {ch : UInt8} (h : isdigit ch = true) :
    ch.toNat - 48 < 10 ∧ ch = UInt8.ofNat (48 + (ch.toNat - 48)) := by
  simp only [isdigit, Bool.and_eq_true, decide_eq_true_eq, UInt8.le_iff_toNat_le] at h
  obtain ⟨h1, h2⟩ := h
  have h1 : 48 ≤ ch.toNat := h1
  have h2 : ch.toNat ≤ 57 := h2
  refine ⟨by omega, ?_⟩
  rw [Nat.add_sub_of_le h1, UInt8.ofNat_toNat]

/-- From a number begun, the scan reads the rest of a byte's text, and then the end or a dot. -/
theorem ptonScan_number {text : List UInt8} {octets res : List Nat} :
    ∀ {n : Nat}, n ≤ 255 → ptonScan text octets (some n) = some res →
      ∃ m digits, m ≤ 255 ∧ decimal (UInt8.ofNat m) = decimal (UInt8.ofNat n) ++ digits ∧
        ((text = digits ∧ res = m :: octets) ∨
          ∃ rest, text = digits ++ 46 :: rest ∧ octets.length ≠ 3 ∧
            ptonScan rest (m :: octets) none = some res) := by
  induction text with
  | nil =>
    intro n small h
    cases h
    exact ⟨n, [], small, (List.append_nil _).symm, .inl ⟨rfl, rfl⟩⟩
  | cons ch text ih =>
    intro n small h
    rw [ptonScan] at h
    by_cases hdigit : isdigit ch = true
    · rw [if_pos hdigit] at h
      dsimp only at h
      split at h
      · cases h
      · next next_ =>
        rw [not_or, Nat.not_lt] at next_
        obtain ⟨hd, hch⟩ := digit_eq hdigit
        obtain ⟨m, digits, hm, hdigits, ending⟩ := ih next_.2 h
        have more := decimal_append ⟨n, by omega⟩ ⟨ch.toNat - 48, hd⟩ next_.1 next_.2
        dsimp only at more
        rw [← hch] at more
        refine ⟨m, ch :: digits, hm, by rw [hdigits, more, List.append_assoc]; rfl, ?_⟩
        rcases ending with ⟨rfl, hres⟩ | ⟨rest, rfl, hlength, hrest⟩
        · exact .inl ⟨rfl, hres⟩
        · exact .inr ⟨rest, rfl, hlength, hrest⟩
    · rw [if_neg hdigit] at h
      split at h
      · next hdot =>
        split at h
        · cases h
        · next hlength =>
          rw [hdot]
          exact ⟨n, [], small, (List.append_nil _).symm, .inr ⟨text, rfl, hlength, h⟩⟩
      · cases h

/-- The scan reads the text of a byte, and then the end or a dot. -/
theorem ptonScan_octet {text : List UInt8} {octets res : List Nat}
    (h : ptonScan text octets none = some res) :
    ∃ m, m ≤ 255 ∧ ((text = decimal (UInt8.ofNat m) ∧ res = m :: octets) ∨
      ∃ rest, text = decimal (UInt8.ofNat m) ++ 46 :: rest ∧ octets.length ≠ 3 ∧
        ptonScan rest (m :: octets) none = some res) := by
  cases text with
  | nil => cases h
  | cons ch text =>
    rw [ptonScan] at h
    by_cases hdigit : isdigit ch = true
    · rw [if_pos hdigit] at h
      obtain ⟨hd, hch⟩ := digit_eq hdigit
      obtain ⟨m, digits, hm, hdigits, ending⟩ := ptonScan_number (by omega) h
      have first := decimal_digit ⟨ch.toNat - 48, hd⟩
      dsimp only at first
      rw [← hch] at first
      rw [first] at hdigits
      refine ⟨m, hm, ?_⟩
      rw [hdigits]
      rcases ending with ⟨rfl, hres⟩ | ⟨rest, rfl, hlength, hrest⟩
      · exact .inl ⟨rfl, hres⟩
      · exact .inr ⟨rest, rfl, hlength, hrest⟩
    · rw [if_neg hdigit] at h
      split at h
      · cases h
      · cases h

/-- The character of a digit. -/
theorem isdigit_add {d : UInt8} (h : d.toNat < 10) :
    isdigit (48 + d) = true ∧ (48 + d).toNat - 48 = d.toNat := by
  have hsum : (48 + d).toNat = 48 + d.toNat := by
    rw [UInt8.toNat_add]
    exact Nat.mod_eq_of_lt (show 48 + d.toNat < 256 by omega)
  simp only [isdigit, Bool.and_eq_true, decide_eq_true_eq, UInt8.le_iff_toNat_le, hsum]
  refine ⟨⟨Nat.le_add_right _ _, ?_⟩, Nat.add_sub_cancel_left ..⟩
  show 48 + d.toNat ≤ 57
  omega

theorem ptonScan_first {d : UInt8} (h : d.toNat < 10) (text : List UInt8) (octets : List Nat) :
    ptonScan ((48 + d) :: text) octets none = ptonScan text octets (some d.toNat) := by
  rw [ptonScan, if_pos (isdigit_add h).1]
  dsimp only
  rw [(isdigit_add h).2]

theorem ptonScan_next {d : UInt8} (h : d.toNat < 10) {n : Nat} (pos : n ≠ 0)
    (small : 10 * n + d.toNat ≤ 255) (text : List UInt8) (octets : List Nat) :
    ptonScan ((48 + d) :: text) octets (some n) =
      ptonScan text octets (some (10 * n + d.toNat)) := by
  rw [ptonScan, if_pos (isdigit_add h).1]
  dsimp only
  rw [(isdigit_add h).2, if_neg (by omega)]

/-- The scan of a byte's text. -/
theorem ptonScan_decimal (x : UInt8) (text : List UInt8) (octets : List Nat) :
    ptonScan (decimal x ++ text) octets none = ptonScan text octets (some x.toNat) := by
  have hx := x.toNat_lt
  unfold decimal
  split
  · next h => exact ptonScan_first (UInt8.lt_iff_toNat_lt.mp h) text octets
  · next h =>
    have h : 10 ≤ x.toNat := UInt8.le_iff_toNat_le.mp (UInt8.not_lt.mp h)
    have tens : (x / 10).toNat = x.toNat / 10 := UInt8.toNat_div ..
    have ones : (x % 10).toNat = x.toNat % 10 := UInt8.toNat_mod ..
    split
    · next h' =>
      have h' : x.toNat < 100 := UInt8.lt_iff_toNat_lt.mp h'
      rw [List.cons_append, List.cons_append, List.nil_append, ptonScan_first (by omega),
        ptonScan_next (by omega) (by omega) (by omega), tens, ones]
      congr 2
      omega
    · next h' =>
      have h' : 100 ≤ x.toNat := UInt8.le_iff_toNat_le.mp (UInt8.not_lt.mp h')
      have hundreds : (x / 100).toNat = x.toNat / 100 := UInt8.toNat_div ..
      have middle : (x / 10 % 10).toNat = x.toNat / 10 % 10 := by
        rw [UInt8.toNat_mod, tens]
        rfl
      rw [List.cons_append, List.cons_append, List.cons_append, List.nil_append,
        ptonScan_first (by omega), ptonScan_next (by omega) (by omega) (by omega),
        ptonScan_next (by omega) (by omega) (by omega), hundreds, middle, ones]
      congr 2
      omega

/-! ## Four octets -/

theorem ptonScan_dot {text : List UInt8} {octets : List Nat} {n : Nat} (h : octets.length ≠ 3) :
    ptonScan (46 :: text) octets (some n) = ptonScan text (n :: octets) none := by
  rw [ptonScan, if_neg (by decide), if_pos rfl]
  exact if_neg h

theorem inetPton_inetNtop (x : InAddr) : inetPton (inetNtop x) = some x := by
  have scan : ptonScan (inetNtop x) [] none =
      some [x.d.toNat, x.c.toNat, x.b.toNat, x.a.toNat] := by
    simp only [inetNtop, List.append_assoc, List.cons_append]
    rw [ptonScan_decimal, ptonScan_dot (by simp), ptonScan_decimal, ptonScan_dot (by simp),
      ptonScan_decimal, ptonScan_dot (by simp), ← List.append_nil (decimal x.d),
      ptonScan_decimal]
    rfl
  simp only [inetPton, scan, UInt8.ofNat_toNat]

/-- **`inet_pton` accepts the texts that `inet_ntop` writes, and no other.** -/
theorem inetPton_eq_some {text : List UInt8} {x : InAddr} :
    inetPton text = some x ↔ text = inetNtop x := by
  constructor
  · intro h
    unfold inetPton at h
    split at h
    · next d c b a scan =>
      cases h
      obtain ⟨m₁, _, ⟨_, hres⟩ | ⟨rest₁, rfl, _, scan⟩⟩ := ptonScan_octet scan
      · cases hres
      obtain ⟨m₂, _, ⟨_, hres⟩ | ⟨rest₂, rfl, _, scan⟩⟩ := ptonScan_octet scan
      · cases hres
      obtain ⟨m₃, _, ⟨_, hres⟩ | ⟨rest₃, rfl, _, scan⟩⟩ := ptonScan_octet scan
      · cases hres
      obtain ⟨m₄, _, ⟨rfl, hres⟩ | ⟨_, _, full, _⟩⟩ := ptonScan_octet scan
      · cases hres
        simp only [inetNtop, List.append_assoc, List.cons_append]
      · exact absurd rfl full
    · cases h
  · rintro rfl
    exact inetPton_inetNtop x

/-! ## Characters and lengths -/

theorem decimal_length (x : UInt8) : (decimal x).length ≤ 3 := by
  unfold decimal
  split
  · exact Nat.le_add_left 1 2
  · split
    · exact Nat.le_succ 2
    · exact Nat.le_refl 3

/-- A dotted quad fits the 16 bytes of `INET_ADDRSTRLEN`. -/
theorem inetNtop_length (x : InAddr) : (inetNtop x).length < 16 := by
  have ha := decimal_length x.a
  have hb := decimal_length x.b
  have hc := decimal_length x.c
  have hd := decimal_length x.d
  simp only [inetNtop, List.length_append, List.length_cons]
  omega

theorem decimal_isdigit {x : UInt8} : ∀ ch ∈ decimal x, isdigit ch = true := by
  have hx := x.toNat_lt
  have tens : (x / 10).toNat = x.toNat / 10 := UInt8.toNat_div ..
  have ones : (x % 10).toNat = x.toNat % 10 := UInt8.toNat_mod ..
  unfold decimal
  split
  · next h => simp [isdigit_add (UInt8.lt_iff_toNat_lt.mp h)]
  · split
    · next h =>
      have h : x.toNat < 100 := UInt8.lt_iff_toNat_lt.mp h
      simp [isdigit_add (show (x / 10).toNat < 10 by omega),
        isdigit_add (show (x % 10).toNat < 10 by omega)]
    · have hundreds : (x / 100).toNat = x.toNat / 100 := UInt8.toNat_div ..
      have middle : (x / 10 % 10).toNat = x.toNat / 10 % 10 := by
        rw [UInt8.toNat_mod, tens]
        rfl
      simp [isdigit_add (show (x / 100).toNat < 10 by omega),
        isdigit_add (show (x / 10 % 10).toNat < 10 by omega),
        isdigit_add (show (x % 10).toNat < 10 by omega)]

/-- A dotted quad is digits and dots. -/
theorem inetNtop_chars (x : InAddr) : ∀ ch ∈ inetNtop x, isdigit ch = true ∨ ch = 46 := by
  intro ch h
  simp only [inetNtop, List.mem_append, List.mem_cons] at h
  rcases h with ((h | h | h) | h | h) | h | h
  · exact .inl (decimal_isdigit ch h)
  · exact .inr h
  · exact .inl (decimal_isdigit ch h)
  · exact .inr h
  · exact .inl (decimal_isdigit ch h)
  · exact .inr h
  · exact .inl (decimal_isdigit ch h)

/-! ## Netmasks -/

/-- The mask of a prefix length: its first bits are ones. -/
def netmask (length : Nat) : InAddr := ofSAddr .big (UInt32.ofNat (2 ^ 32 - 2 ^ (32 - length)))

end InAddr
