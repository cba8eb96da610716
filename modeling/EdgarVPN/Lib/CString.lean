import Mathlib.Algebra.Order.Ring.Int
import Mathlib.Data.List.Basic

/-!
# C strings, line reading and IPv4 addresses

The functions of the C library that text parsers are written with, over lists of bytes. A C string
is its bytes without the terminator. A function that returns a pointer into its argument returns the
text before and after that point instead, and a search that finds nothing is `none`. The locale is
"C", `long` has 64 bits.

An IPv4 address is its four bytes in memory, which is network order; its integer value `s_addr`
depends on the host, so the functions that see it take the host's byte order.
-/

set_option autoImplicit false

namespace CString

/-- The bytes of an ASCII text. -/
def ascii (text : String) : List UInt8 := text.toList.map fun c => UInt8.ofNat c.toNat

/-! ## Characters and strings -/

def isspace (c : UInt8) : Bool := c == 32 || (9 ≤ c && c ≤ 13)

def isdigit (c : UInt8) : Bool := 48 ≤ c && c ≤ 57

def tolower (c : UInt8) : UInt8 := if 65 ≤ c && c ≤ 90 then c + 32 else c

/-- The C string at the start of a buffer: the bytes before the first NUL. -/
def ofBuffer (buffer : List UInt8) : List UInt8 := buffer.takeWhile (· ≠ 0)

/-- Whether `strcasecmp` returns 0. -/
def strcasecmp (s t : List UInt8) : Bool := s.map tolower == t.map tolower

/-- `strchr`: the text before and after the first `c`. -/
def strchr (c : UInt8) : List UInt8 → Option (List UInt8 × List UInt8)
  | [] => none
  | x :: s =>
    if x = c then
      some ([], s)
    else
      match strchr c s with
      | none => none
      | some (before, after) => some (x :: before, after)

/-- `strrchr`: the text before and after the last `c`. -/
def strrchr (c : UInt8) : List UInt8 → Option (List UInt8 × List UInt8)
  | [] => none
  | x :: s =>
    match strrchr c s with
    | some (before, after) => some (x :: before, after)
    | none => if x = c then some ([], s) else none

/-- `strtol` in base 10: the value and the text after it, or `none` where `*end` is left at the
start because there is no digit. Out of range the value is the nearest `long`. -/
def strtol (s : List UInt8) : Option (Int × List UInt8) :=
  let s := s.dropWhile isspace
  let (negative, digits) := match s with
    | 45 :: rest => (true, rest)
    | 43 :: rest => (false, rest)
    | rest => (false, rest)
  let run := digits.takeWhile isdigit
  if run.isEmpty then
    none
  else
    let magnitude : Int := run.foldl (fun n c => 10 * n + (c.toNat - 48)) 0
    let value := if negative then -magnitude else magnitude
    some (max (-2 ^ 63) (min value (2 ^ 63 - 1)), digits.drop run.length)

/-! ## Reading lines -/

/-- At most `room` bytes of the file, up to and with the first newline, and the rest of it. -/
def readLine : Nat → List UInt8 → List UInt8 × List UInt8
  | 0, file => ([], file)
  | _, [] => ([], [])
  | room + 1, c :: file =>
    if c = 10 then
      ([c], file)
    else
      let (line, rest) := readLine room file
      (c :: line, rest)

/-- `fgets` into a buffer of `size` bytes. -/
def fgets (size : Nat) (file : List UInt8) : Option (List UInt8 × List UInt8) :=
  if file.isEmpty then none else some (readLine (size - 1) file)

/-- What successive calls of `fgets` return until the end of the file, at most `fuel` of them. -/
def fgetsLines (size : Nat) : Nat → List UInt8 → List (List UInt8)
  | 0, _ => []
  | fuel + 1, file =>
    match fgets size file with
    | none => []
    | some (line, rest) => line :: fgetsLines size fuel rest

theorem readLine_append (room : Nat) (file : List UInt8) :
    (readLine room file).1 ++ (readLine room file).2 = file := by
  induction room generalizing file with
  | zero => rfl
  | succ room ih =>
    cases file with
    | nil => rfl
    | cons c file =>
      simp only [readLine]
      split
      · rfl
      · exact congrArg (c :: ·) (ih file)

theorem readLine_shrinks {room : Nat} (pos : 0 < room) (c : UInt8) (file : List UInt8) :
    (readLine room (c :: file)).2.length ≤ file.length := by
  obtain ⟨room, rfl⟩ := Nat.exists_eq_succ_of_ne_zero (Nat.ne_of_gt pos)
  simp only [readLine]
  split
  · exact Nat.le_refl _
  · have h := congrArg List.length (readLine_append room file)
    rw [List.length_append] at h
    dsimp only
    omega

/-- As many calls as the file has bytes read all of it. -/
theorem flatten_fgetsLines {size : Nat} (large : 1 < size) :
    ∀ {fuel : Nat} {file : List UInt8}, file.length ≤ fuel →
      (fgetsLines size fuel file).flatten = file := by
  intro fuel
  induction fuel with
  | zero =>
    intro file h
    rw [List.length_eq_zero_iff.mp (Nat.le_zero.mp h)]
    rfl
  | succ fuel ih =>
    intro file h
    cases file with
    | nil => rfl
    | cons c file =>
      have hrest := readLine_shrinks (show 0 < size - 1 by omega) c file
      simp only [fgetsLines, fgets, List.isEmpty_cons, Bool.false_eq_true, if_false,
        List.flatten_cons]
      rw [ih (by rw [List.length_cons] at h; omega)]
      exact readLine_append (size - 1) (c :: file)

end CString

/-! ## IPv4 addresses -/

/-- `struct in_addr`: the four bytes, the most significant first. -/
structure InAddr where
  a : UInt8
  b : UInt8
  c : UInt8
  d : UInt8
deriving DecidableEq, Repr

/-- The byte order of the host. -/
inductive Endian where
  | little
  | big
deriving DecidableEq, Repr

namespace InAddr

/-- The integer of four bytes, the first of them the most significant. -/
def word (a b c d : UInt8) : UInt32 :=
  a.toUInt32 <<< 24 ||| b.toUInt32 <<< 16 ||| c.toUInt32 <<< 8 ||| d.toUInt32

/-- The address `0.0.0.0`. -/
def zero : InAddr := ⟨0, 0, 0, 0⟩

/-- `s_addr`, read by the host from the four bytes. -/
def sAddr (host : Endian) (x : InAddr) : UInt32 :=
  match host with
  | .little => word x.d x.c x.b x.a
  | .big => word x.a x.b x.c x.d

/-- The address after `s_addr` is written. -/
def ofSAddr (host : Endian) (value : UInt32) : InAddr :=
  let byte (k : UInt32) : UInt8 := (value >>> k).toUInt8
  match host with
  | .little => ⟨byte 0, byte 8, byte 16, byte 24⟩
  | .big => ⟨byte 24, byte 16, byte 8, byte 0⟩

/-- `htonl`. -/
def htonl (host : Endian) (value : UInt32) : UInt32 :=
  let byte (k : UInt32) : UInt8 := (value >>> k).toUInt8
  match host with
  | .little => word (byte 0) (byte 8) (byte 16) (byte 24)
  | .big => value

/-- The scan of `inet_pton`: the octets before the last dot, in reverse, and the one being read. -/
def ptonScan : List UInt8 → List Nat → Option Nat → Option (List Nat)
  | [], octets, some n => some (n :: octets)
  | [], _, none => none
  | ch :: text, octets, current =>
    if CString.isdigit ch then
      let digit := ch.toNat - 48
      match current with
      | none => ptonScan text octets (some digit)
      | some n =>
        -- an octet has no leading zero and does not exceed 255
        if n = 0 ∨ 10 * n + digit > 255 then none else ptonScan text octets (some (10 * n + digit))
    else if ch = 46 then
      match current with
      | none => none
      | some n => if octets.length = 3 then none else ptonScan text (n :: octets) none
    else
      none

/-- `inet_pton(AF_INET, ...)`: four decimal octets separated by dots. -/
def inetPton (text : List UInt8) : Option InAddr :=
  match ptonScan text [] none with
  | some [d, c, b, a] => some ⟨UInt8.ofNat a, UInt8.ofNat b, UInt8.ofNat c, UInt8.ofNat d⟩
  | _ => none

/-- The decimal digits of a byte. -/
def decimal (x : UInt8) : List UInt8 :=
  if x < 10 then [48 + x]
  else if x < 100 then [48 + x / 10, 48 + x % 10]
  else [48 + x / 100, 48 + x / 10 % 10, 48 + x % 10]

/-- `inet_ntop(AF_INET, ...)` into a buffer that is large enough. -/
def inetNtop (x : InAddr) : List UInt8 :=
  decimal x.a ++ 46 :: decimal x.b ++ 46 :: decimal x.c ++ 46 :: decimal x.d

end InAddr
