import EdgarVPN.Crypto.Sodium
import EdgarVPN.Lib.Text

/-!
# The log: `src/log.c`

The static variables of the module and the two streams it writes to are one state, `Log`; a line is
appended to a stream by `log_at`, after its level has passed `log_level_enabled`. What comes from
outside is a parameter: the environment that `log_init` reads, the broken-down time that `gmtime_r`
makes of the clock, and the text that a format and its arguments stand for.

`gmtime_r` returns fields in their ranges, which is why `Tm` carries them. So the timestamp always
fits its buffer (`strftime_fits`), and `strftime` never leaves it undefined.
-/

set_option autoImplicit false

namespace EdgarVPN

open CString

/-! ## Levels and formats -/

/-- `log_level_t`. -/
inductive LogLevel where
  | debug
  | info
  | warn
  | error
deriving DecidableEq

/-- The value of the enumerator. -/
def LogLevel.value : LogLevel → Nat
  | .debug => 0
  | .info => 1
  | .warn => 2
  | .error => 3

/-- `log_format_t`. -/
inductive LogFormat where
  | text
  | json
deriving DecidableEq

inductive LogStream where
  | stdout
  | stderr
deriving DecidableEq

/-- What `getenv` returns for the variables of the module. -/
structure LogEnv where
  logLevel : Option Bytes
  logFormat : Option Bytes

/-- The static variables of the module, and what has been written to the streams. -/
structure Log where
  level : LogLevel
  format : LogFormat
  initialized : Bool
  written : LogStream → Bytes

/-- The static variables as they are initialised, before anything is written. -/
def Log.start : Log :=
  { level := .info, format := .text, initialized := false, written := fun _ => [] }

/-- The level that `LOG_LEVEL` names: the default, where it is unset or names none. -/
def envLevel : Option Bytes → LogLevel
  | none => .info
  | some name =>
    if strcasecmp name (ascii "debug") then .debug
    else if strcasecmp name (ascii "info") then .info
    else if strcasecmp name (ascii "warn") then .warn
    else if strcasecmp name (ascii "error") then .error
    else .info

def envFormat : Option Bytes → LogFormat
  | none => .text
  | some name => if strcasecmp name (ascii "json") then .json else .text

def logInit (env : LogEnv) (log : Log) : Log :=
  { log with
    level := envLevel env.logLevel
    format := envFormat env.logFormat
    initialized := true }

def ensureInitialized (env : LogEnv) (log : Log) : Log :=
  if log.initialized then log else logInit env log

def logLevelEnabled (env : LogEnv) (log : Log) (level : LogLevel) : Bool × Log :=
  let log := ensureInitialized env log
  (level.value ≥ log.level.value, log)

def levelName : LogLevel → Bytes
  | .debug => ascii "DEBUG"
  | .info => ascii "INFO"
  | .warn => ascii "WARN"
  | .error => ascii "ERROR"

/-! ## The timestamp -/

/-- `struct tm`, as `gmtime_r` fills it in. A leap second is second 60. -/
structure Tm where
  year : Int
  mon : Nat
  mday : Nat
  hour : Nat
  min : Nat
  sec : Nat
  year_ge : -2 ^ 31 ≤ year
  year_lt : year < 2 ^ 31
  mon_lt : mon < 12
  mday_pos : 1 ≤ mday
  mday_le : mday ≤ 31
  hour_lt : hour < 24
  min_lt : min < 60
  sec_le : sec ≤ 60

/-- `%d` of an integer. -/
def signedText (n : Int) : Bytes :=
  if n < 0 then 45 :: decimalText n.natAbs else decimalText n.natAbs

/-- `%02d` of a number below 100. -/
def twoDigits (n : Nat) : Bytes := [UInt8.ofNat (48 + n / 10), UInt8.ofNat (48 + n % 10)]

/-- The text of `%Y-%m-%dT%H:%M:%SZ`. `tm_year` counts from 1900 and `tm_mon` from 0. -/
def timestampText (tm : Tm) : Bytes :=
  signedText (tm.year + 1900) ++ 45 :: twoDigits (tm.mon + 1) ++ 45 :: twoDigits tm.mday ++
    84 :: twoDigits tm.hour ++ 58 :: twoDigits tm.min ++ 58 :: twoDigits tm.sec ++ [90]

/-- `strftime`: `none` where the text and its terminator do not fit, and the buffer is undefined. -/
def strftime (len : Nat) (tm : Tm) : Option Bytes :=
  if (timestampText tm).length < len then some (timestampText tm) else none

theorem signedText_length {n : Int} (h : n.natAbs < 10 ^ 10) : (signedText n).length ≤ 11 := by
  have digits := decimalText_length (show 0 < 10 by decide) h
  unfold signedText
  split
  · exact Nat.succ_le_succ digits
  · exact Nat.le_succ_of_le digits

/-- The buffer of `emit` holds every timestamp. -/
theorem strftime_fits (tm : Tm) : (strftime 32 tm).isSome = true := by
  have year : (signedText (tm.year + 1900)).length ≤ 11 := by
    apply signedText_length
    have := tm.year_ge
    have := tm.year_lt
    omega
  have short : (timestampText tm).length < 32 := by
    simp only [timestampText, twoDigits, List.length_append, List.length_cons, List.length_nil]
    omega
  rw [strftime, if_pos short]
  rfl

def formatTimestamp (now : Tm) : Bytes := (strftime 32 now).get (strftime_fits now)

/-! ## Lines -/

/-- A hexadecimal digit, in lower case. -/
def lowerHex (n : Nat) : UInt8 := if n < 10 then UInt8.ofNat (48 + n) else UInt8.ofNat (87 + n)

/-- `%04x` of a byte. -/
def hexText (c : UInt8) : Bytes := [48, 48, lowerHex (c.toNat / 16), lowerHex (c.toNat % 16)]

/-- What `write_json_escaped` writes for a character. -/
def jsonEscape (c : UInt8) : Bytes :=
  if c = 34 then [92, 34]
  else if c = 92 then [92, 92]
  else if c = 10 then [92, 110]
  else if c = 13 then [92, 114]
  else if c = 9 then [92, 116]
  else if c < 0x20 then 92 :: 117 :: hexText c
  else [c]

/-- What `write_json_escaped` writes. -/
def writeJsonEscaped : Bytes → Bytes
  | [] => []
  | c :: rest => if c = 0 then [] else jsonEscape c ++ writeJsonEscaped rest

/-- `%-5s`: blanks after a text shorter than the field. -/
def padRight (width : Nat) (text : Bytes) : Bytes :=
  text ++ List.replicate (width - text.length) 32

/-- What `emit` writes, and to which stream. -/
def emit (format : LogFormat) (now : Tm) (level : LogLevel) (component message : Bytes) :
    LogStream × Bytes :=
  let timestamp := formatTimestamp now
  let out := if level.value ≥ LogLevel.warn.value then LogStream.stderr else .stdout
  if format = .json then
    (out, ascii "\x7b\"time\":\"" ++ timestamp ++ ascii "\",\"level\":\"" ++ levelName level ++
      ascii "\",\"component\":\"" ++ writeJsonEscaped component ++
      ascii "\",\"message\":\"" ++ writeJsonEscaped message ++ ascii "\"\x7d\n")
  else
    (out, timestamp ++ 32 :: padRight 5 (levelName level) ++ ascii " [" ++ ofBuffer component ++
      ascii "] " ++ ofBuffer message ++ [10])

/-- Bytes appended to a stream. -/
def Log.write (log : Log) (line : LogStream × Bytes) : Log :=
  { log with
    written := fun stream =>
      if stream = line.1 then log.written stream ++ line.2 else log.written stream }

/-- `log_at`, with the text that `fmt` stands for with its arguments. `vsnprintf` keeps what fits
the buffer of the message. -/
def logAt (env : LogEnv) (log : Log) (now : Tm) (level : LogLevel) (component formatted : Bytes) :
    Log :=
  let (enabled, log) := logLevelEnabled env log level
  if enabled then
    let message := formatted.take 1023
    log.write (emit log.format now level component message)
  else
    log

def logDebug (env : LogEnv) (log : Log) (now : Tm) (component formatted : Bytes) : Log :=
  logAt env log now .debug component formatted

def logInfo (env : LogEnv) (log : Log) (now : Tm) (component formatted : Bytes) : Log :=
  logAt env log now .info component formatted

def logWarn (env : LogEnv) (log : Log) (now : Tm) (component formatted : Bytes) : Log :=
  logAt env log now .warn component formatted

def logError (env : LogEnv) (log : Log) (now : Tm) (component formatted : Bytes) : Log :=
  logAt env log now .error component formatted

end EdgarVPN
