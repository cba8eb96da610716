import EdgarVPN.Lib.Text

/-!
# Lines of a file and what `fgets` returns

A line of a file ends at its newline, or with the file. What `fgets` returns is something else: it
fills its buffer and stops there, so that a line longer than the buffer comes in pieces, and only
the last of them ends in the newline. `fgetsAll` is what a loop over `fgets` sees, from the first
call to the end of the file.

The pieces of a file are the pieces of its lines in order (`fgetsAll_line`), since a newline always
ends a piece. A line that fits the buffer is one piece (`fgetsAll_short`); of a longer one the first
piece is a full buffer (`fgetsAll_long`). `line_induction` takes a file apart line by line.
-/

set_option autoImplicit false

namespace CString

/-- What successive calls of `fgets` return, until the end of the file. -/
def fgetsAll (size : Nat) (file : List UInt8) : List (List UInt8) :=
  fgetsLines size file.length file

/-- More calls than there are bytes return nothing more. -/
theorem fgetsLines_fuel {size : Nat} (large : 1 < size) :
    ∀ {fuel fuel' : Nat} {file : List UInt8}, file.length ≤ fuel → file.length ≤ fuel' →
      fgetsLines size fuel file = fgetsLines size fuel' file := by
  intro fuel
  induction fuel with
  | zero =>
    intro fuel' file h _
    rw [List.length_eq_zero_iff.mp (Nat.le_zero.mp h)]
    cases fuel' with
    | zero => rfl
    | succ fuel' => rfl
  | succ fuel ih =>
    intro fuel' file h h'
    cases file with
    | nil =>
      cases fuel' with
      | zero => rfl
      | succ fuel' => rfl
    | cons c file =>
      obtain ⟨fuel', rfl⟩ := Nat.exists_eq_succ_of_ne_zero (Nat.ne_of_gt (Nat.zero_lt_of_lt h'))
      have shrinks := readLine_shrinks (show 0 < size - 1 by omega) c file
      rw [List.length_cons] at h h'
      simp only [fgetsLines, fgets, List.isEmpty_cons, Bool.false_eq_true, if_false]
      rw [ih (Nat.le_trans shrinks (Nat.le_of_succ_le_succ h))
        (Nat.le_trans shrinks (Nat.le_of_succ_le_succ h'))]

@[simp] theorem fgetsAll_nil (size : Nat) : fgetsAll size [] = [] := rfl

/-- The first call, and the calls after it. -/
theorem fgetsAll_eq {size : Nat} (large : 1 < size) {file : List UInt8} (nonempty : file ≠ []) :
    fgetsAll size file =
      (readLine (size - 1) file).1 :: fgetsAll size (readLine (size - 1) file).2 := by
  cases file with
  | nil => exact absurd rfl nonempty
  | cons c file =>
    have shrinks := readLine_shrinks (show 0 < size - 1 by omega) c file
    unfold fgetsAll
    rw [List.length_cons]
    simp only [fgetsLines, fgets, List.isEmpty_cons, Bool.false_eq_true, if_false]
    rw [fgetsLines_fuel large shrinks (Nat.le_refl _)]

/-- A buffer that no newline stops is filled. -/
theorem readLine_full {line : List UInt8} (rest : List UInt8) (h : 10 ∉ line) :
    ∀ {room : Nat}, room ≤ line.length →
      readLine room (line ++ rest) = (line.take room, line.drop room ++ rest) := by
  induction line with
  | nil =>
    intro room hroom
    rw [Nat.le_zero.mp hroom]
    rfl
  | cons c line ih =>
    intro room hroom
    rw [List.mem_cons, not_or] at h
    cases room with
    | zero => rfl
    | succ room =>
      rw [List.cons_append, readLine, if_neg (Ne.symm h.1), ih h.2 (Nat.le_of_succ_le_succ hroom)]
      rfl

/-- The end of the file stops a line as well. -/
theorem readLine_last {line : List UInt8} (h : 10 ∉ line) :
    ∀ {room : Nat}, line.length ≤ room → readLine room line = (line, []) := by
  induction line with
  | nil =>
    intro room _
    cases room with
    | zero => rfl
    | succ room => rfl
  | cons c line ih =>
    intro room hroom
    rw [List.mem_cons, not_or] at h
    obtain ⟨room, rfl⟩ := Nat.exists_eq_succ_of_ne_zero (Nat.ne_of_gt (Nat.zero_lt_of_lt hroom))
    rw [readLine, if_neg (Ne.symm h.1), ih h.2 (Nat.le_of_succ_le_succ hroom)]

variable {size : Nat} {line : List UInt8}

/-- The first piece of a line that does not fit the buffer. -/
theorem fgetsAll_long (large : 1 < size) (plain : 10 ∉ line) (long : size - 1 ≤ line.length)
    (rest : List UInt8) : fgetsAll size (line ++ rest) =
      line.take (size - 1) :: fgetsAll size (line.drop (size - 1) ++ rest) := by
  have nonempty : line ++ rest ≠ [] := by
    intro h
    rw [(List.append_eq_nil_iff.mp h).1, List.length_nil] at long
    omega
  rw [fgetsAll_eq large nonempty, readLine_full rest plain long]

/-- A line that fits the buffer with its newline. -/
theorem fgetsAll_short (plain : 10 ∉ line) (short : line.length + 1 < size)
    (rest : List UInt8) :
    fgetsAll size (line ++ 10 :: rest) = (line ++ [10]) :: fgetsAll size rest := by
  rw [fgetsAll_eq (by omega) (by simp), readLine_line rest plain (by omega)]

/-- The last line, where it has no newline and fits the buffer. -/
theorem fgetsAll_last (large : 1 < size) (plain : 10 ∉ line) (short : line.length < size)
    (nonempty : line ≠ []) : fgetsAll size line = [line] := by
  rw [fgetsAll_eq large nonempty, readLine_last plain (by omega), fgetsAll_nil]

/-- **The pieces of a file are the pieces of its lines, in order.** -/
theorem fgetsAll_line (large : 1 < size) (plain : 10 ∉ line) (rest : List UInt8) :
    fgetsAll size (line ++ 10 :: rest) = fgetsAll size (line ++ [10]) ++ fgetsAll size rest := by
  -- a piece is taken off the line, until what is left of it fits the buffer
  induction hn : line.length using Nat.strong_induction_on generalizing line with
  | _ n ih =>
    by_cases short : line.length + 1 < size
    · rw [fgetsAll_short plain short, fgetsAll_short plain short]
      rfl
    · have long : size - 1 ≤ line.length := by omega
      have plain' : 10 ∉ line.drop (size - 1) := fun h => plain (List.mem_of_mem_drop h)
      have shorter : (line.drop (size - 1)).length < n := by
        rw [List.length_drop]
        omega
      rw [fgetsAll_long large plain long, fgetsAll_long large plain long,
        ih _ shorter plain' rfl]
      rfl

/-- A file is a line without a newline, or a line, a newline and a file. -/
theorem line_induction {motive : List UInt8 → Prop} (last : ∀ line, 10 ∉ line → motive line)
    (step : ∀ line rest, 10 ∉ line → motive rest → motive (line ++ 10 :: rest)) :
    ∀ file, motive file := by
  intro file
  induction hn : file.length using Nat.strong_induction_on generalizing file with
  | _ n ih =>
    by_cases newline : 10 ∈ file
    · obtain ⟨line, rest, rfl, plain⟩ := List.eq_append_cons_of_mem newline
      rw [List.length_append, List.length_cons] at hn
      exact step line rest plain (ih rest.length (by omega) rest rfl)
    · exact last file newline

end CString
