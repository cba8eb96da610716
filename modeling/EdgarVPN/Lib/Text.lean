import EdgarVPN.Lib.CString
import Mathlib.Data.List.TakeWhile

/-!
# Reading back what was written

The functions of the C library that split, convert and read text, applied to text that was put
together from its parts: the searches find the separator (`strchr_append`, `strrchr_append`),
`strtol` reads the decimal text of a number (`strtol_decimalText`), and `fgets` returns the lines of
a file one by one (`fgetsLines_lines`).
-/

set_option autoImplicit false

namespace CString

/-! ## Searching -/

theorem strchr_append {c : UInt8} {before : List UInt8} (after : List UInt8) (h : c ∉ before) :
    strchr c (before ++ c :: after) = some (before, after) := by
  induction before with
  | nil => simp only [List.nil_append, strchr, if_true]
  | cons x before ih =>
    rw [List.mem_cons, not_or] at h
    simp only [List.cons_append, strchr, ih h.2]
    exact if_neg (Ne.symm h.1)

theorem strrchr_eq_none {c : UInt8} {s : List UInt8} (h : c ∉ s) : strrchr c s = none := by
  induction s with
  | nil => rfl
  | cons x s ih =>
    rw [List.mem_cons, not_or] at h
    simp only [strrchr, ih h.2]
    exact if_neg (Ne.symm h.1)

theorem strrchr_append {c : UInt8} (before : List UInt8) {after : List UInt8} (h : c ∉ after) :
    strrchr c (before ++ c :: after) = some (before, after) := by
  induction before with
  | nil => simp only [List.nil_append, strrchr, strrchr_eq_none h, if_true]
  | cons x before ih => simp only [List.cons_append, strrchr, ih]

/-- What `strchr` found. -/
theorem strchr_eq_some {c : UInt8} {s before after : List UInt8}
    (h : strchr c s = some (before, after)) : s = before ++ c :: after ∧ c ∉ before := by
  induction s generalizing before with
  | nil => cases h
  | cons x s ih =>
    rw [strchr] at h
    split at h
    · next here =>
      cases h
      exact ⟨by rw [here]; rfl, List.not_mem_nil⟩
    · next elsewhere =>
      split at h
      · cases h
      · next found =>
        cases h
        obtain ⟨rfl, absent⟩ := ih found
        refine ⟨rfl, ?_⟩
        rw [List.mem_cons, not_or]
        exact ⟨Ne.symm elsewhere, absent⟩

theorem not_mem_of_strrchr {c : UInt8} {s : List UInt8} (h : strrchr c s = none) : c ∉ s := by
  induction s with
  | nil => exact List.not_mem_nil
  | cons x s ih =>
    rw [strrchr] at h
    split at h
    · cases h
    · next absent =>
      split at h
      · cases h
      · next elsewhere =>
        rw [List.mem_cons, not_or]
        exact ⟨Ne.symm elsewhere, ih absent⟩

/-- What `strrchr` found. -/
theorem strrchr_eq_some {c : UInt8} {s before after : List UInt8}
    (h : strrchr c s = some (before, after)) : s = before ++ c :: after ∧ c ∉ after := by
  induction s generalizing before after with
  | nil => cases h
  | cons x s ih =>
    rw [strrchr] at h
    split at h
    · next found =>
      cases h
      obtain ⟨rfl, absent⟩ := ih found
      exact ⟨rfl, absent⟩
    · next absent =>
      split at h
      · next here =>
        cases h
        exact ⟨by rw [here]; rfl, not_mem_of_strrchr absent⟩
      · cases h

theorem ofBuffer_eq_self {s : List UInt8} (h : 0 ∉ s) : ofBuffer s = s := by
  apply List.takeWhile_eq_self_iff.mpr
  intro c hc
  simp only [ne_eq, decide_not, Bool.not_eq_eq_eq_not, Bool.not_true, decide_eq_false_iff_not]
  rintro rfl
  exact h hc

/-! ## Numbers -/

/-- The decimal digits of a number, at most `fuel` of them. -/
def decimalDigits : Nat → Nat → List UInt8
  | 0, _ => []
  | fuel + 1, n =>
    if n < 10 then [UInt8.ofNat (48 + n)]
    else decimalDigits fuel (n / 10) ++ [UInt8.ofNat (48 + n % 10)]

/-- The decimal text of a number. -/
def decimalText (n : Nat) : List UInt8 := decimalDigits (n + 1) n

theorem toNat_digit {d : Nat} (h : d < 10) : (UInt8.ofNat (48 + d)).toNat = 48 + d := by
  rw [UInt8.toNat_ofNat']
  exact Nat.mod_eq_of_lt (by omega)

theorem isdigit_digit {d : Nat} (h : d < 10) : isdigit (UInt8.ofNat (48 + d)) = true := by
  simp only [isdigit, Bool.and_eq_true, decide_eq_true_eq, UInt8.le_iff_toNat_le, toNat_digit h]
  refine ⟨Nat.le_add_right _ _, ?_⟩
  show 48 + d ≤ 57
  omega

theorem decimalDigits_isdigit (fuel n : Nat) : ∀ c ∈ decimalDigits fuel n, isdigit c = true := by
  induction fuel generalizing n with
  | zero => exact nofun
  | succ fuel ih =>
    intro c hc
    rw [decimalDigits] at hc
    split at hc
    · next small =>
      cases List.mem_singleton.mp hc
      exact isdigit_digit small
    · rcases List.mem_append.mp hc with hc | hc
      · exact ih (n / 10) c hc
      · cases List.mem_singleton.mp hc
        exact isdigit_digit (Nat.mod_lt n (by decide))

theorem decimalText_isdigit (n : Nat) : ∀ c ∈ decimalText n, isdigit c = true :=
  decimalDigits_isdigit (n + 1) n

theorem decimalText_ne_nil (n : Nat) : decimalText n ≠ [] := by
  rw [decimalText, decimalDigits]
  split
  · exact List.cons_ne_nil _ _
  · exact List.append_ne_nil_of_right_ne_nil _ (List.cons_ne_nil _ _)

/-- A number below `10 ^ k` has at most `k` digits. -/
theorem decimalDigits_length {fuel n k : Nat} (pos : 0 < k) (h : n < 10 ^ k) :
    (decimalDigits fuel n).length ≤ k := by
  induction fuel generalizing n k with
  | zero => exact Nat.zero_le k
  | succ fuel ih =>
    rw [decimalDigits]
    split
    · exact pos
    · next large =>
      obtain ⟨k, rfl⟩ := Nat.exists_eq_succ_of_ne_zero (Nat.ne_of_gt pos)
      rw [Nat.pow_succ] at h
      have hk : 0 < k := by
        rcases Nat.eq_zero_or_pos k with rfl | hk
        · omega
        · exact hk
      rw [List.length_append, List.length_singleton]
      exact Nat.succ_le_succ (ih hk (Nat.div_lt_of_lt_mul (by omega)))

theorem decimalText_length {n k : Nat} (pos : 0 < k) (h : n < 10 ^ k) :
    (decimalText n).length ≤ k :=
  decimalDigits_length pos h

/-- The digits of a number add up to it. -/
theorem foldl_decimalDigits {fuel n : Nat} (h : n < fuel) :
    (decimalDigits fuel n).foldl (fun (m : Int) c => 10 * m + (c.toNat - 48)) 0 = n := by
  induction fuel generalizing n with
  | zero => exact absurd h (Nat.not_lt_zero n)
  | succ fuel ih =>
    rw [decimalDigits]
    split
    · next small =>
      rw [List.foldl_cons, List.foldl_nil, toNat_digit small]
      omega
    · next large =>
      rw [List.foldl_append, ih (by omega), List.foldl_cons, List.foldl_nil,
        toNat_digit (Nat.mod_lt n (by decide))]
      omega

/-- A character that leaves a mark is no white space. -/
theorem isspace_eq_false {c : UInt8} (h : 33 ≤ c) : isspace c = false := by
  have h : 33 ≤ c.toNat := UInt8.le_iff_toNat_le.mp h
  simp only [isspace, Bool.or_eq_false_iff, beq_eq_false_iff_ne, ne_eq, Bool.and_eq_false_iff,
    decide_eq_false_iff_not, UInt8.le_iff_toNat_le]
  refine ⟨?_, .inr ?_⟩
  · rintro rfl
    exact absurd h (by decide)
  · intro hle
    have hle : c.toNat ≤ 13 := hle
    omega

/-- A letter. -/
def isalpha (c : UInt8) : Bool := (65 ≤ c && c ≤ 90) || (97 ≤ c && c ≤ 122)

theorem le_of_isalpha {c : UInt8} (h : isalpha c = true) : 65 ≤ c ∧ c ≤ 122 := by
  simp only [isalpha, Bool.or_eq_true, Bool.and_eq_true, decide_eq_true_eq] at h
  rcases h with ⟨hlow, hhigh⟩ | ⟨hlow, hhigh⟩
  · exact ⟨hlow, UInt8.le_trans hhigh (by decide)⟩
  · exact ⟨UInt8.le_trans (by decide) hlow, hhigh⟩

theorem le_of_isdigit {c : UInt8} (h : isdigit c = true) : 48 ≤ c ∧ c ≤ 57 := by
  rwa [isdigit, Bool.and_eq_true, decide_eq_true_eq, decide_eq_true_eq] at h

/-- **`strtol` reads the decimal text of a number**, and nothing after it. -/
theorem strtol_decimalText {n : Nat} (h : n < 2 ^ 63) :
    strtol (decimalText n) = some ((n : Int), []) := by
  have digits := decimalText_isdigit n
  have value := foldl_decimalDigits (Nat.lt_succ_self n)
  rw [← decimalText] at value
  obtain ⟨c, text, htext⟩ := List.exists_cons_of_ne_nil (decimalText_ne_nil n)
  rw [htext] at digits value ⊢
  obtain ⟨hlow, -⟩ := le_of_isdigit (digits c List.mem_cons_self)
  have hspace : isspace c = false := isspace_eq_false (UInt8.le_trans (by decide) hlow)
  have hminus : c ≠ 45 := by
    rintro rfl
    exact absurd hlow (by decide)
  have hplus : c ≠ 43 := by
    rintro rfl
    exact absurd hlow (by decide)
  have run : (c :: text).takeWhile isdigit = c :: text := List.takeWhile_eq_self_iff.mpr digits
  have drop : (c :: text).dropWhile isspace = c :: text := by
    rw [List.dropWhile_cons, hspace]
    rfl
  unfold strtol
  rw [drop]
  dsimp only
  split
  · next heq => exact absurd (List.cons.inj heq).1 hminus
  · next heq => exact absurd (List.cons.inj heq).1 hplus
  · simp only [run, value, List.isEmpty_cons, Bool.false_eq_true, if_false, List.drop_length]
    congr 2
    omega

/-- A text of decimal digits. -/
def Digits (text : List UInt8) : Prop := text ≠ [] ∧ text.all isdigit = true

instance (text : List UInt8) : Decidable (Digits text) := inferInstanceAs (Decidable (_ ∧ _))

/-- The number that digits spell. -/
def digitsValue (text : List UInt8) : Nat := text.foldl (fun n c => 10 * n + (c.toNat - 48)) 0

/-- What `strtol` passes over before the digits: white space and a sign. -/
def strtolLead (c : UInt8) : Bool := isspace c || c == 43 || c == 45

theorem Digits.head {text : List UInt8} (h : Digits text) : text.head?.any strtolLead = false := by
  obtain ⟨c, text, rfl⟩ := List.exists_cons_of_ne_nil h.1
  obtain ⟨hlow, -⟩ := le_of_isdigit (List.all_eq_true.mp h.2 c List.mem_cons_self)
  have hspace : isspace c = false := isspace_eq_false (UInt8.le_trans (by decide) hlow)
  have hplus : (c == 43) = false := by
    rw [beq_eq_false_iff_ne]
    rintro rfl
    exact absurd hlow (by decide)
  have hminus : (c == 45) = false := by
    rw [beq_eq_false_iff_ne]
    rintro rfl
    exact absurd hlow (by decide)
  simp only [List.head?_cons, Option.any_some, strtolLead, hspace, hplus, hminus, Bool.or_self]

theorem cast_digitsValue {text : List UInt8} (digits : text.all isdigit = true) :
    text.foldl (fun (n : Int) c => 10 * n + (c.toNat - 48)) 0 = digitsValue text := by
  have sums : ∀ (text : List UInt8) (n : Nat), text.all isdigit = true →
      text.foldl (fun (n : Int) c => 10 * n + (c.toNat - 48)) n =
        (text.foldl (fun n c => 10 * n + (c.toNat - 48)) n : Nat) := by
    intro text
    induction text with
    | nil => intro n _; rfl
    | cons c text ih =>
      intro n digits
      rw [List.all_cons, Bool.and_eq_true] at digits
      have hc : 48 ≤ c.toNat := UInt8.le_iff_toNat_le.mp (le_of_isdigit digits.1).1
      rw [List.foldl_cons, List.foldl_cons, ← ih _ digits.2]
      congr 1
      omega
  exact sums text 0 digits

/-- **`strtol` takes all of a text without a lead only if it is digits.** Its value is then the
number they spell, unless that is out of range. -/
theorem strtol_digits {text : List UInt8} {value : Int} (h : strtol text = some (value, []))
    (plain : text.head?.any strtolLead = false) :
    Digits text ∧ value = max (-2 ^ 63) (min (digitsValue text : Int) (2 ^ 63 - 1)) := by
  cases text with
  | nil => cases h
  | cons c text =>
    have plain : (isspace c || c == 43 || c == 45) = false := plain
    rw [Bool.or_eq_false_iff, Bool.or_eq_false_iff, beq_eq_false_iff_ne, beq_eq_false_iff_ne]
      at plain
    obtain ⟨⟨hspace, hplus⟩, hminus⟩ := plain
    have drop : (c :: text).dropWhile isspace = c :: text := by
      rw [List.dropWhile_cons, hspace]
      rfl
    unfold strtol at h
    rw [drop] at h
    dsimp only at h
    split at h
    · next heq => exact absurd (List.cons.inj heq).1 hminus
    · next heq => exact absurd (List.cons.inj heq).1 hplus
    · dsimp only at h
      split at h
      · cases h
      · next nonempty =>
        obtain ⟨hvalue, hrest⟩ := Prod.mk.inj (Option.some.inj h)
        -- nothing is left after the run of digits, so the run is the whole text
        have whole : (c :: text).takeWhile isdigit = c :: text := by
          have hsplit := List.take_append_drop ((c :: text).takeWhile isdigit).length (c :: text)
          rwa [hrest, List.append_nil, ← List.prefix_iff_eq_take.mp (List.takeWhile_prefix isdigit)]
            at hsplit
        have digits : (c :: text).all isdigit = true :=
          List.all_eq_true.mpr (List.takeWhile_eq_self_iff.mp whole)
        refine ⟨⟨List.cons_ne_nil _ _, digits⟩, ?_⟩
        rw [← hvalue, whole, cast_digitsValue digits]
        rfl

/-! ## Lines -/

theorem readLine_line {line : List UInt8} (rest : List UInt8) (h : 10 ∉ line) :
    ∀ {room : Nat}, line.length < room →
      readLine room (line ++ 10 :: rest) = (line ++ [10], rest) := by
  induction line with
  | nil =>
    intro room hroom
    obtain ⟨room, rfl⟩ := Nat.exists_eq_succ_of_ne_zero (Nat.ne_of_gt hroom)
    rfl
  | cons c line ih =>
    intro room hroom
    obtain ⟨room, rfl⟩ := Nat.exists_eq_succ_of_ne_zero (Nat.ne_of_gt (Nat.zero_lt_of_lt hroom))
    rw [List.mem_cons, not_or] at h
    rw [List.cons_append, readLine, if_neg (Ne.symm h.1)]
    rw [ih h.2 (Nat.lt_of_succ_lt_succ hroom)]
    rfl

/-- **`fgets` returns the lines of a file**, where each fits the buffer. -/
theorem fgetsLines_lines {size : Nat} {lines : List (List UInt8)}
    (plain : ∀ line ∈ lines, 10 ∉ line) (short : ∀ line ∈ lines, line.length + 1 < size) :
    ∀ {fuel : Nat}, (lines.flatMap (· ++ [10])).length ≤ fuel →
      fgetsLines size fuel (lines.flatMap (· ++ [10])) = lines.map (· ++ [10]) := by
  induction lines with
  | nil =>
    intro fuel _
    cases fuel with
    | zero => rfl
    | succ fuel => rfl
  | cons line lines ih =>
    intro fuel hfuel
    rw [List.flatMap_cons, List.append_assoc, List.cons_append, List.nil_append] at hfuel ⊢
    rw [List.length_append, List.length_cons] at hfuel
    obtain ⟨fuel, rfl⟩ := Nat.exists_eq_succ_of_ne_zero (show fuel ≠ 0 by omega)
    have room : line.length < size - 1 := by
      have := short line List.mem_cons_self
      omega
    have hline := readLine_line (lines.flatMap (· ++ [10])) (plain line List.mem_cons_self) room
    have nonempty : (line ++ 10 :: lines.flatMap (· ++ [10])).isEmpty = false := by
      cases line with
      | nil => rfl
      | cons c line => rfl
    have rest := ih (fun l hl => plain l (List.mem_cons_of_mem _ hl))
      (fun l hl => short l (List.mem_cons_of_mem _ hl)) (show _ ≤ fuel by omega)
    simp only [fgetsLines, fgets, nonempty, Bool.false_eq_true, if_false, hline, rest,
      List.map_cons]

end CString
