import EdgarVPN.Lib.CString
import Mathlib.Data.List.TakeWhile

/-!
# JSON texts

`parse` reads a JSON text over bytes: objects, arrays, strings, numbers and literals, with white
space between them. It is a function, so a text that it reads has one reading.

In a string the bytes from 0x20 on are characters, those from 0x80 on included: a string is the
bytes between its quotes with the escapes replaced, and whether they are UTF-8 is not asked. `\u`
stands for the UTF-8 bytes of its code point; a surrogate that is not half of a pair stands for none
and is refused.

What is written is described apart from the reader: `Quoted` says which texts write a string,
`Members` which write the members of an object whose values are strings. Both are read back as what
they write (`Quoted.string`, `Members.parse`), so a writer is right as soon as it keeps to them.
-/

set_option autoImplicit false

namespace Json

open CString (isdigit)

/-- A JSON value. A number is its text, a string its bytes. -/
inductive Value where
  | null
  | bool (b : Bool)
  | number (text : List UInt8)
  | string (bytes : List UInt8)
  | array (elements : List Value)
  | object (members : List (List UInt8 × Value))

/-! ## Reading strings -/

def isWhite (c : UInt8) : Bool := c == 32 || c == 9 || c == 10 || c == 13

/-- The text after the white space it begins with. -/
def skip (text : List UInt8) : List UInt8 := text.dropWhile isWhite

def hexDigit (c : UInt8) : Option Nat :=
  if isdigit c then some (c.toNat - 48)
  else if 97 ≤ c ∧ c ≤ 102 then some (c.toNat - 87)
  else if 65 ≤ c ∧ c ≤ 70 then some (c.toNat - 55)
  else none

/-- Four hexadecimal digits, and the text after them. -/
def codeUnit : List UInt8 → Option (Nat × List UInt8)
  | a :: b :: c :: d :: rest => do
    let a ← hexDigit a
    let b ← hexDigit b
    let c ← hexDigit c
    let d ← hexDigit d
    some (((a * 16 + b) * 16 + c) * 16 + d, rest)
  | _ => none

/-- The UTF-8 bytes of a code point. -/
def utf8 (code : Nat) : List UInt8 :=
  let tail (shift : Nat) : UInt8 := UInt8.ofNat (0x80 + code / shift % 64)
  if code < 0x80 then [UInt8.ofNat code]
  else if code < 0x800 then [UInt8.ofNat (0xC0 + code / 64), tail 1]
  else if code < 0x10000 then [UInt8.ofNat (0xE0 + code / 4096), tail 64, tail 1]
  else [UInt8.ofNat (0xF0 + code / 262144), tail 4096, tail 64, tail 1]

/-- What follows `\u`: a code point, or the two halves of one. -/
def unicode (text : List UInt8) : Option (List UInt8 × List UInt8) := do
  let (unit, rest) ← codeUnit text
  if unit < 0xD800 ∨ 0xE000 ≤ unit then
    some (utf8 unit, rest)
  else
    match rest with
    | 92 :: 117 :: rest =>
      let (low, rest) ← codeUnit rest
      if unit < 0xDC00 ∧ 0xDC00 ≤ low ∧ low < 0xE000 then
        some (utf8 (0x10000 + (unit - 0xD800) * 0x400 + (low - 0xDC00)), rest)
      else
        none
    | _ => none

/-- The character of an escape of one letter. -/
def letter (c : UInt8) : Option UInt8 :=
  if c = 34 ∨ c = 92 ∨ c = 47 then some c
  else if c = 98 then some 8
  else if c = 102 then some 12
  else if c = 110 then some 10
  else if c = 114 then some 13
  else if c = 116 then some 9
  else none

/-- What follows a backslash. -/
def escape : List UInt8 → Option (List UInt8 × List UInt8)
  | [] => none
  | c :: rest => if c = 117 then unicode rest else (letter c).map fun c => ([c], rest)

/-- A string after its opening quote, and the text after its closing one. -/
def string : Nat → List UInt8 → Option (List UInt8 × List UInt8)
  | 0, _ => none
  | _, [] => none
  | fuel + 1, c :: rest =>
    if c = 34 then
      some ([], rest)
    else if c = 92 then do
      let (bytes, rest) ← escape rest
      let (more, rest) ← string fuel rest
      some (bytes ++ more, rest)
    else if c < 32 then
      none
    else do
      let (more, rest) ← string fuel rest
      some (c :: more, rest)

/-! ## Reading values -/

/-- At least one digit. -/
def digits (text : List UInt8) : Option (List UInt8 × List UInt8) :=
  let run := text.takeWhile isdigit
  if run.isEmpty then none else some (run, text.drop run.length)

/-- The digits before the point: a leading zero stands alone. -/
def integer : List UInt8 → Option (List UInt8 × List UInt8)
  | 48 :: rest => some ([48], rest)
  | text => digits text

def fraction : List UInt8 → Option (List UInt8 × List UInt8)
  | 46 :: rest => (digits rest).map fun (run, rest) => (46 :: run, rest)
  | text => some ([], text)

def exponent : List UInt8 → Option (List UInt8 × List UInt8)
  | [] => some ([], [])
  | e :: rest =>
    if e = 101 ∨ e = 69 then
      match rest with
      | [] => none
      | sign :: tail =>
        if sign = 43 ∨ sign = 45 then
          (digits tail).map fun (run, rest) => (e :: sign :: run, rest)
        else
          (digits rest).map fun (run, rest) => (e :: run, rest)
    else
      some ([], e :: rest)

def number (text : List UInt8) : Option (Value × List UInt8) := do
  let (sign, text) : List UInt8 × List UInt8 := match text with
    | 45 :: rest => ([45], rest)
    | rest => ([], rest)
  let (int, text) ← integer text
  let (frac, text) ← fraction text
  let (exp, text) ← exponent text
  some (.number (sign ++ int ++ frac ++ exp), text)

/-- A literal name. -/
def literal (name : List UInt8) (value : Value) (text : List UInt8) : Option (Value × List UInt8) :=
  if text.take name.length = name then some (value, text.drop name.length) else none

mutual

/-- A value, and the text after it. -/
def value : Nat → List UInt8 → Option (Value × List UInt8)
  | 0, _ => none
  | _, [] => none
  | fuel + 1, c :: rest =>
    if c = 34 then do
      let (bytes, rest) ← string fuel rest
      some (.string bytes, rest)
    else if c = 123 then
      if (skip rest).head? = some 125 then
        some (.object [], (skip rest).tail)
      else do
        let (found, rest) ← members fuel (skip rest)
        some (.object found, rest)
    else if c = 91 then
      if (skip rest).head? = some 93 then
        some (.array [], (skip rest).tail)
      else do
        let (found, rest) ← elements fuel (skip rest)
        some (.array found, rest)
    else if c = 116 then literal (CString.ascii "true") (.bool true) (c :: rest)
    else if c = 102 then literal (CString.ascii "false") (.bool false) (c :: rest)
    else if c = 110 then literal (CString.ascii "null") .null (c :: rest)
    else number (c :: rest)

/-- The members of an object, from the first key to the closing brace. -/
def members : Nat → List UInt8 → Option (List (List UInt8 × Value) × List UInt8)
  | 0, _ => none
  | _, [] => none
  | fuel + 1, c :: rest =>
    if c = 34 then do
      let (key, rest) ← string fuel rest
      match skip rest with
      | [] => none
      | colon :: rest =>
        if colon = 58 then do
          let (found, rest) ← value fuel (skip rest)
          match skip rest with
          | [] => none
          | d :: rest =>
            if d = 125 then
              some ([(key, found)], rest)
            else if d = 44 then do
              let (more, rest) ← members fuel (skip rest)
              some ((key, found) :: more, rest)
            else
              none
        else
          none
    else
      none

/-- The elements of an array, from the first to the closing bracket. -/
def elements : Nat → List UInt8 → Option (List Value × List UInt8)
  | 0, _ => none
  | fuel + 1, text => do
    let (found, rest) ← value fuel text
    match skip rest with
    | [] => none
    | d :: rest =>
      if d = 93 then
        some ([found], rest)
      else if d = 44 then do
        let (more, rest) ← elements fuel (skip rest)
        some (found :: more, rest)
      else
        none

end

/-- The value that a whole text is. -/
def parse (text : List UInt8) : Option Value := do
  let (found, rest) ← value text.length (skip text)
  if (skip rest).isEmpty then some found else none

example :
    (parse (CString.ascii "\x7b \"a\" : [ -1.5e+3 , true ] , \"b\":null\x7d\n")).isSome = true := by
  decide +kernel

example : (parse (CString.ascii "\x7b\"a\":\"b\"\x7d,")).isNone = true := by decide +kernel

/-! ## Written strings -/

/-- A character that stands for itself in a string. -/
def Plain (c : UInt8) : Prop := 32 ≤ c ∧ c ≠ 34 ∧ c ≠ 92

instance : DecidablePred Plain := fun c => inferInstanceAs (Decidable (32 ≤ c ∧ c ≠ 34 ∧ c ≠ 92))

/-- Text that writes a string, between the quotes. -/
inductive Quoted : List UInt8 → List UInt8 → Prop
  | nil : Quoted [] []
  | char {c : UInt8} {text bytes : List UInt8} : Plain c → Quoted text bytes →
      Quoted (c :: text) (c :: bytes)
  | escape {written text found bytes : List UInt8} :
      (∀ rest, Json.escape (written ++ rest) = some (found, rest)) → Quoted text bytes →
      Quoted (92 :: (written ++ text)) (found ++ bytes)

/-- A text of plain characters writes itself. -/
theorem Quoted.plain {text : List UInt8} (h : ∀ c ∈ text, Plain c) : Quoted text text := by
  induction text with
  | nil => exact .nil
  | cons c text ih =>
    exact .char (h c List.mem_cons_self) (ih fun c hc => h c (List.mem_cons_of_mem _ hc))

/-- An escape of one letter. -/
theorem Quoted.letter {c found : UInt8} {text bytes : List UInt8} (hc : c ≠ 117)
    (hfound : Json.letter c = some found) (rest : Quoted text bytes) :
    Quoted (92 :: c :: text) (found :: bytes) := by
  have stands (tail : List UInt8) : Json.escape ([c] ++ tail) = some ([found], tail) := by
    rw [List.singleton_append, Json.escape, if_neg hc, hfound]
    rfl
  exact .escape stands rest

/-- **A written string is read back.** -/
theorem Quoted.string {text bytes : List UInt8} (h : Quoted text bytes) (rest : List UInt8) :
    ∀ {fuel : Nat}, text.length < fuel → string fuel (text ++ 34 :: rest) = some (bytes, rest) := by
  induction h with
  | nil =>
    intro fuel enough
    obtain ⟨fuel, rfl⟩ := Nat.exists_eq_succ_of_ne_zero (Nat.ne_of_gt enough)
    rfl
  | @char c text bytes plain _ ih =>
    intro fuel enough
    obtain ⟨printable, quote, backslash⟩ := plain
    obtain ⟨fuel, rfl⟩ := Nat.exists_eq_succ_of_ne_zero (Nat.ne_of_gt (Nat.zero_lt_of_lt enough))
    have control : ¬ c < 32 := by
      rw [UInt8.not_lt]
      exact printable
    rw [List.cons_append, Json.string, if_neg quote, if_neg backslash, if_neg control,
      ih (Nat.lt_of_succ_lt_succ enough)]
    rfl
  | @escape written text found bytes stands _ ih =>
    intro fuel enough
    obtain ⟨fuel, rfl⟩ := Nat.exists_eq_succ_of_ne_zero (Nat.ne_of_gt (Nat.zero_lt_of_lt enough))
    rw [List.length_cons, List.length_append] at enough
    have backslash : ¬ (92 : UInt8) = 34 := by decide
    rw [List.cons_append, List.append_assoc, Json.string, if_neg backslash, if_pos rfl, stands]
    simp only [Option.bind_eq_bind, Option.bind_some]
    rw [ih (by omega)]
    rfl

/-! ## Written objects -/

/-- Text that writes the members of an object, each `"key":"value"`, with commas between them. -/
inductive Members : List UInt8 → List (List UInt8 × Value) → Prop
  | last {k v key bytes : List UInt8} : Quoted k key → Quoted v bytes →
      Members (34 :: (k ++ 34 :: 58 :: 34 :: (v ++ [34]))) [(key, .string bytes)]
  | more {k v key bytes text : List UInt8} {rest : List (List UInt8 × Value)} :
      Quoted k key → Quoted v bytes → Members text rest →
      Members (34 :: (k ++ 34 :: 58 :: 34 :: (v ++ 34 :: 44 :: text)))
        ((key, .string bytes) :: rest)

theorem skip_cons {c : UInt8} (h : isWhite c = false) (text : List UInt8) :
    skip (c :: text) = c :: text := by
  rw [skip, List.dropWhile_cons, h]
  rfl

/-- Members begin with the quote of a key. -/
theorem Members.head {text : List UInt8} {found : List (List UInt8 × Value)}
    (h : Members text found) : ∃ rest, text = 34 :: rest := by
  cases h with
  | last => exact ⟨_, rfl⟩
  | more => exact ⟨_, rfl⟩

/-- A string as a value. -/
theorem Quoted.value {text bytes : List UInt8} (h : Quoted text bytes) (rest : List UInt8)
    {fuel : Nat} (enough : text.length + 1 < fuel) :
    value fuel (34 :: (text ++ 34 :: rest)) = some (.string bytes, rest) := by
  obtain ⟨fuel, rfl⟩ := Nat.exists_eq_succ_of_ne_zero (Nat.ne_of_gt (Nat.zero_lt_of_lt enough))
  rw [Json.value, if_pos rfl, h.string rest (Nat.lt_of_succ_lt_succ enough)]
  rfl

/-- One member, with the text after its value. -/
theorem members_cons {k v key bytes : List UInt8} (hk : Quoted k key) (hv : Quoted v bytes)
    (c : UInt8) (rest : List UInt8) (visible : isWhite c = false) {fuel : Nat}
    (enough : k.length + v.length + 2 < fuel) :
    members (fuel + 1) (34 :: (k ++ 34 :: 58 :: 34 :: (v ++ 34 :: c :: rest))) =
      if c = 125 then
        some ([(key, .string bytes)], rest)
      else if c = 44 then do
        let (more, rest) ← members fuel (skip rest)
        some ((key, .string bytes) :: more, rest)
      else
        none := by
  rw [members, if_pos rfl, hk.string _ (by omega)]
  simp only [Option.bind_eq_bind, Option.bind_some]
  rw [skip_cons rfl]
  simp only [if_true]
  rw [skip_cons rfl, hv.value _ (by omega)]
  simp only [Option.bind_some]
  rw [skip_cons visible]

/-- **Written members are read back.** -/
theorem Members.members {text : List UInt8} {found : List (List UInt8 × Value)}
    (h : Members text found) (rest : List UInt8) :
    ∀ {fuel : Nat}, text.length < fuel →
      members fuel (text ++ 125 :: rest) = some (found, rest) := by
  induction h with
  | @last k v key bytes hk hv =>
    intro fuel enough
    obtain ⟨fuel, rfl⟩ := Nat.exists_eq_succ_of_ne_zero (Nat.ne_of_gt (Nat.zero_lt_of_lt enough))
    simp only [List.length_cons, List.length_append, List.length_nil] at enough
    simp only [List.cons_append, List.append_assoc, List.nil_append]
    rw [members_cons hk hv 125 rest rfl (by omega), if_pos rfl]
  | @more k v key bytes text _ hk hv more ih =>
    intro fuel enough
    obtain ⟨fuel, rfl⟩ := Nat.exists_eq_succ_of_ne_zero (Nat.ne_of_gt (Nat.zero_lt_of_lt enough))
    simp only [List.length_cons, List.length_append] at enough
    simp only [List.cons_append, List.append_assoc]
    obtain ⟨tail, htail⟩ := more.head
    have comma : ¬ (44 : UInt8) = 125 := by decide
    have unskipped : skip (text ++ 125 :: rest) = text ++ 125 :: rest := by
      rw [htail]
      exact skip_cons rfl _
    rw [members_cons hk hv 44 _ rfl (by omega), if_neg comma, if_pos rfl, unskipped, ih (by omega)]
    rfl

/-- **A written object is read back**, with white space after it or none. -/
theorem Members.parse {text white : List UInt8} {found : List (List UInt8 × Value)}
    (h : Members text found) (hwhite : white.all isWhite = true) :
    parse (123 :: (text ++ 125 :: white)) = some (.object found) := by
  obtain ⟨tail, htail⟩ := h.head
  have unskipped : skip (text ++ 125 :: white) = text ++ 125 :: white := by
    rw [htail]
    exact skip_cons rfl _
  have nonempty : ¬ (text ++ 125 :: white).head? = some 125 := by
    rw [htail, List.cons_append, List.head?_cons, Option.some_inj]
    decide
  have blank : skip white = [] := List.dropWhile_eq_nil_iff.mpr (List.all_eq_true.mp hwhite)
  have brace : ¬ (123 : UInt8) = 34 := by decide
  rw [Json.parse, skip_cons rfl, List.length_cons, value, if_neg brace, if_pos rfl, unskipped,
    if_neg nonempty, h.members white (by rw [List.length_append, List.length_cons]; omega)]
  simp only [Option.bind_eq_bind, Option.bind_some, blank]
  rfl

end Json
