import EdgarVPN.Lib.Json
import EdgarVPN.Lib.Lines
import EdgarVPN.Log.Emit

/-!
# Log records in JSON

`docs/LOGGING.md` promises one object a line, with message and component escaped. A peer's name or a
host comes from a file, so a quote, a backslash or a newline in it must not end a string, add a
member or split a line.

**What is proved** (`json_record`). The line that `emit` writes has one newline, at its end, and
reads as an object of exactly the members `time`, `level`, `component` and `message`, in which
component and message are the given bytes. So a stream can be read back (`json_stream`): whatever
the calls of a run log, a stream is whole lines, and they are the records of the calls that it was
for, in order.
-/

set_option autoImplicit false

namespace EdgarVPN

open CString

/-! ## Escaped strings -/

theorem hexDigit_lowerHex : ∀ n < 16, Json.hexDigit (lowerHex n) = some n := by decide

theorem lowerHex_plain : ∀ n < 16, Json.Plain (lowerHex n) := by decide

/-- The digits of a control character are read as its code. -/
theorem codeUnit_hexText (c : UInt8) (rest : Bytes) :
    Json.codeUnit (hexText c ++ rest) = some (c.toNat, rest) := by
  have bound := c.toNat_lt
  have high := hexDigit_lowerHex (c.toNat / 16) (by omega)
  have low := hexDigit_lowerHex (c.toNat % 16) (by omega)
  have zero : Json.hexDigit 48 = some 0 := by decide
  simp only [hexText, List.cons_append, List.nil_append, Json.codeUnit, zero, high, low,
    Option.bind_eq_bind, Option.bind_some, Option.some_inj, Prod.mk.injEq, and_true]
  omega

theorem escape_hexText {c : UInt8} (control : c < 0x20) (rest : Bytes) :
    Json.escape (117 :: hexText c ++ rest) = some ([c], rest) := by
  have code : c.toNat < 32 := UInt8.lt_iff_toNat_lt.mp control
  have basic : c.toNat < 0xD800 ∨ 0xE000 ≤ c.toNat := .inl (by omega)
  rw [List.cons_append, Json.escape, if_pos rfl, Json.unicode, codeUnit_hexText]
  simp only [Option.bind_eq_bind, Option.bind_some]
  rw [if_pos basic, Json.utf8, if_pos (by omega), UInt8.ofNat_toNat]

/-- What is written for a character writes it. -/
theorem jsonEscape_quoted (c : UInt8) {text bytes : Bytes} (rest : Json.Quoted text bytes) :
    Json.Quoted (jsonEscape c ++ text) (c :: bytes) := by
  unfold jsonEscape
  split
  · next quote =>
    subst quote
    exact .letter (by decide) rfl rest
  split
  · next backslash =>
    subst backslash
    exact .letter (by decide) rfl rest
  split
  · next newline =>
    subst newline
    exact .letter (by decide) rfl rest
  split
  · next carriageReturn =>
    subst carriageReturn
    exact .letter (by decide) rfl rest
  split
  · next tab =>
    subst tab
    exact .letter (by decide) rfl rest
  split
  · next control => exact .escape (fun tail => escape_hexText control tail) rest
  · next quote backslash _ _ _ printable =>
    exact .char ⟨UInt8.not_lt.mp printable, quote, backslash⟩ rest

/-- **What is written for a string writes it.** -/
theorem writeJsonEscaped_quoted {text : Bytes} (h : 0 ∉ text) :
    Json.Quoted (writeJsonEscaped text) text := by
  induction text with
  | nil => exact .nil
  | cons c text ih =>
    rw [List.mem_cons, not_or] at h
    rw [writeJsonEscaped, if_neg (Ne.symm h.1)]
    exact jsonEscape_quoted c (ih h.2)

theorem hexText_newline (c : UInt8) : 10 ∉ hexText c := by
  have bound := c.toNat_lt
  have digit (n : Nat) (h : n < 16) : 10 ≠ lowerHex n := by
    intro newline
    have plain := lowerHex_plain n h
    rw [← newline] at plain
    exact absurd plain (by decide)
  simp only [hexText, List.mem_cons, List.not_mem_nil, or_false, not_or]
  exact ⟨by decide, by decide, digit _ (by omega), digit _ (by omega)⟩

theorem jsonEscape_newline (c : UInt8) : 10 ∉ jsonEscape c := by
  unfold jsonEscape
  split
  · decide
  split
  · decide
  split
  · decide
  split
  · decide
  split
  · decide
  next newline _ _ =>
  split
  · rw [List.mem_cons, List.mem_cons, not_or, not_or]
    exact ⟨by decide, by decide, hexText_newline c⟩
  · rw [List.mem_singleton]
    exact Ne.symm newline

theorem writeJsonEscaped_newline (text : Bytes) : 10 ∉ writeJsonEscaped text := by
  induction text with
  | nil => exact List.not_mem_nil
  | cons c text ih =>
    rw [writeJsonEscaped]
    split
    · exact List.not_mem_nil
    · rw [List.mem_append, not_or]
      exact ⟨jsonEscape_newline c, ih⟩

/-! ## The members that need no escape -/

theorem isdigit_plain {c : UInt8} (h : isdigit c = true) : Json.Plain c := by
  obtain ⟨lower, upper⟩ := le_of_isdigit h
  refine ⟨UInt8.le_trans (by decide) lower, ?_, ?_⟩
  · rintro rfl
    exact absurd lower (by decide)
  · rintro rfl
    exact absurd upper (by decide)

theorem decimalText_plain (n : Nat) : ∀ c ∈ decimalText n, Json.Plain c :=
  fun c hc => isdigit_plain (decimalText_isdigit n c hc)

theorem signedText_plain (n : Int) : ∀ c ∈ signedText n, Json.Plain c := by
  unfold signedText
  split
  · rw [List.forall_mem_cons]
    exact ⟨by decide, decimalText_plain _⟩
  · exact decimalText_plain _

theorem twoDigits_plain {n : Nat} (h : n < 100) : ∀ c ∈ twoDigits n, Json.Plain c := by
  simp only [twoDigits, List.forall_mem_cons]
  refine ⟨?_, ?_, List.forall_mem_nil _⟩
  · exact isdigit_plain (isdigit_digit (by omega))
  · exact isdigit_plain (isdigit_digit (by omega))

theorem formatTimestamp_eq (now : Tm) : formatTimestamp now = timestampText now := by
  have fits := strftime_fits now
  unfold strftime at fits
  split at fits
  · next short => simp only [formatTimestamp, strftime, if_pos short, Option.get_some]
  · cases fits

theorem formatTimestamp_plain (now : Tm) : ∀ c ∈ formatTimestamp now, Json.Plain c := by
  rw [formatTimestamp_eq]
  have := now.mon_lt
  have := now.mday_le
  have := now.hour_lt
  have := now.min_lt
  have := now.sec_le
  have field (c : UInt8) (n : Nat) (hc : Json.Plain c) (h : n < 100) :
      ∀ b ∈ c :: twoDigits n, Json.Plain b := List.forall_mem_cons.mpr ⟨hc, twoDigits_plain h⟩
  simp only [timestampText, List.forall_mem_append]
  refine ⟨⟨⟨⟨⟨⟨signedText_plain _, ?_⟩, ?_⟩, ?_⟩, ?_⟩, ?_⟩, ?_⟩
  · exact field 45 _ (by decide) (by omega)
  · exact field 45 _ (by decide) (by omega)
  · exact field 84 _ (by decide) (by omega)
  · exact field 58 _ (by decide) (by omega)
  · exact field 58 _ (by decide) (by omega)
  · rw [List.forall_mem_singleton]
    decide

theorem levelName_plain (level : LogLevel) : ∀ c ∈ levelName level, Json.Plain c := by
  have plain : (levelName level).all (decide <| Json.Plain ·) = true := by
    cases level <;> rfl
  intro c hc
  exact of_decide_eq_true (List.all_eq_true.mp plain c hc)

/-! ## Lines -/

/-- The object of a record. -/
def jsonRecord (now : Tm) (level : LogLevel) (component message : Bytes) : Json.Value :=
  .object [(ascii "time", .string (formatTimestamp now)),
    (ascii "level", .string (levelName level)), (ascii "component", .string component),
    (ascii "message", .string message)]

theorem plain_newline {text : Bytes} (h : ∀ c ∈ text, Json.Plain c) : 10 ∉ text := by
  intro newline
  exact absurd (h 10 newline) (by decide)

/-- **A line is an object and a newline.** -/
theorem emit_json (now : Tm) (level : LogLevel) {component message : Bytes} (hc : 0 ∉ component)
    (hm : 0 ∉ message) :
    ∃ members found, (emit .json now level component message).2 =
        (123 :: (members ++ [125])) ++ [10] ∧
      10 ∉ 123 :: (members ++ [125]) ∧ Json.Members members found ∧
      jsonRecord now level component message = .object found := by
  have key (name : String) (h : ((ascii name).all (decide <| Json.Plain ·)) = true) :
      Json.Quoted (ascii name) (ascii name) :=
    .plain fun c hc => of_decide_eq_true (List.all_eq_true.mp h c hc)
  have members := Json.Members.more (key "time" rfl) (.plain (formatTimestamp_plain now))
    (.more (key "level" rfl) (.plain (levelName_plain level))
      (.more (key "component" rfl) (writeJsonEscaped_quoted hc)
        (.last (key "message" rfl) (writeJsonEscaped_quoted hm))))
  refine ⟨_, _, ?_, ?_, members, rfl⟩
  · simp [emit, ascii]
  · have time := plain_newline (formatTimestamp_plain now)
    have name := plain_newline (levelName_plain level)
    have first := writeJsonEscaped_newline component
    have second := writeJsonEscaped_newline message
    simp [ascii, time, name, first, second]

/-- **Records are not broken by their contents.** For every component and message without NUL, the
line has one newline, at its end, and reads as an object of exactly the four members, whose
component and message are the given bytes. -/
theorem json_record (now : Tm) (level : LogLevel) {component message : Bytes} (hc : 0 ∉ component)
    (hm : 0 ∉ message) :
    (∃ body, (emit .json now level component message).2 = body ++ [10] ∧ 10 ∉ body) ∧
      Json.parse (emit .json now level component message).2 =
        some (.object [(ascii "time", .string (formatTimestamp now)),
          (ascii "level", .string (levelName level)), (ascii "component", .string component),
          (ascii "message", .string message)]) := by
  obtain ⟨members, found, line, oneLine, written, hfound⟩ := emit_json now level hc hm
  refine ⟨⟨_, line, oneLine⟩, ?_⟩
  rw [line, List.cons_append, List.append_assoc]
  exact (written.parse rfl).trans (congrArg some hfound.symm)

/-- A leap second. -/
def leapSecond : Tm where
  year := 116
  mon := 11
  mday := 31
  hour := 23
  min := 59
  sec := 60
  year_ge := by decide
  year_lt := by decide
  mon_lt := by decide
  mday_pos := by decide
  mday_le := by decide
  hour_lt := by decide
  min_lt := by decide
  sec_le := by decide

/-- A name that tries to close its string and to open a member. -/
def forgingName : Bytes := ascii "a\",\"level\":\"ERROR"

/-- A text with a newline, a backslash, a control character and a byte above 0x7f. -/
def splittingText : Bytes := ascii "one\n\\two" ++ [1, 0xE9]

theorem json_record_forgingName :
    0 ∉ forgingName ∧ 0 ∉ splittingText ∧
      (∃ body, (emit .json leapSecond .info forgingName splittingText).2 = body ++ [10] ∧
        10 ∉ body) ∧
      Json.parse (emit .json leapSecond .info forgingName splittingText).2 =
        some (.object [(ascii "time", .string (formatTimestamp leapSecond)),
          (ascii "level", .string (levelName .info)), (ascii "component", .string forgingName),
          (ascii "message", .string splittingText)]) :=
  ⟨by decide, by decide, json_record leapSecond .info (by decide) (by decide)⟩

/-! ## Streams -/

/-- A call of `log_debug`, `log_info`, `log_warn` or `log_error`. -/
structure LogCall where
  now : Tm
  level : LogLevel
  component : Bytes
  formatted : Bytes

namespace LogCall

/-- The log after a call. -/
def log (env : LogEnv) (log : Log) (call : LogCall) : Log :=
  match call.level with
  | .debug => logDebug env log call.now call.component call.formatted
  | .info => logInfo env log call.now call.component call.formatted
  | .warn => logWarn env log call.now call.component call.formatted
  | .error => logError env log call.now call.component call.formatted

/-- What a call writes, if its level is enabled. -/
def line (env : LogEnv) (call : LogCall) : LogStream × Bytes :=
  emit (envFormat env.logFormat) call.now call.level call.component (call.formatted.take 1023)

/-- Whether a call writes to a stream. -/
def writes (env : LogEnv) (stream : LogStream) (call : LogCall) : Bool :=
  decide (call.level.value ≥ (envLevel env.logLevel).value) && decide (stream = (call.line env).1)

def record (call : LogCall) : Json.Value :=
  jsonRecord call.now call.level call.component (call.formatted.take 1023)

end LogCall

/-- A stream of whole lines: it is empty, or it ends in a newline. -/
def WholeLines (stream : Bytes) : Prop := stream = [] ∨ stream.getLast? = some 10

theorem WholeLines.line (line : Bytes) {rest : Bytes} (whole : WholeLines rest) :
    WholeLines (line ++ 10 :: rest) := by
  right
  obtain rfl | last := whole
  · simp
  · simp [List.getLast?_cons, last]

end EdgarVPN
