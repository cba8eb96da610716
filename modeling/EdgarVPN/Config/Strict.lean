import EdgarVPN.Config.Lines
import EdgarVPN.Config.Values
import EdgarVPN.Crypto.Reference
import EdgarVPN.Lib.Lines
import EdgarVPN.Lib.Runs

/-!
# How strict the parser is

`docs/CONFIGURATION.md` calls the parser not silently tolerant of typos. `WellFormedLine` is the
grammar that this leaves for a line: empty, a comment, exactly a header, or a key of its section
with a well-formed value, in which numbers are decimal digits. The parser accepts a little more. It
reads a header up to its bracket and drops the rest of the line, and it reads numbers with `strtol`,
which passes over white space and takes a sign.

**What is proved** (`accepted_strict_iff`). In a file of short lines that loads, all lines are well
formed exactly when none has text after the bracket of its header and no number begins with white
space or a sign. So these two are all that the parser tolerates. `tolerated_typos` is a file with
both.
-/

set_option autoImplicit false

namespace EdgarVPN

open CString

/-! ## The grammar of a line -/

/-- A port in decimal digits. -/
def PortText (text : Bytes) : Prop :=
  Digits text ∧ 1 ≤ digitsValue text ∧ digitsValue text ≤ 65535

/-- A prefix length in decimal digits. -/
def PrefixText (text : Bytes) : Prop := Digits text ∧ digitsValue text ≤ 32

/-- `a.b.c.d/prefix`. -/
def CidrText (text : Bytes) : Prop :=
  ∃ addr length, text = InAddr.inetNtop addr ++ 47 :: length ∧ PrefixText length

/-- `host:port`. -/
def EndpointText (text : Bytes) : Prop :=
  ∃ name port, text = name ++ 58 :: port ∧ name ≠ [] ∧ text.length < configMaxHost ∧ PortText port

/-- The text of a key of 32 bytes. -/
def Base64Text (S : Sodium) (text : Bytes) : Prop := ∃ key, cryptoDecodeBase64 S text 32 = some key

/-- A key of its section, with a value that is well formed. -/
inductive WellFormedPair (S : Sodium) : Section → Bytes → Bytes → Prop
  | name {key value : Bytes} : strcasecmp key (ascii "Name") = true →
      value.length < configMaxName → WellFormedPair S .interface key value
  | deviceName {key value : Bytes} : strcasecmp key (ascii "DeviceName") = true →
      value.length < ifNameSize → WellFormedPair S .interface key value
  | address {key value : Bytes} : strcasecmp key (ascii "Address") = true →
      CidrText value → WellFormedPair S .interface key value
  | listenPort {key value : Bytes} : strcasecmp key (ascii "ListenPort") = true →
      PortText value → WellFormedPair S .interface key value
  | privateKey {key value : Bytes} : strcasecmp key (ascii "PrivateKey") = true →
      Base64Text S value → WellFormedPair S .interface key value
  | endpoint {key value : Bytes} : strcasecmp key (ascii "Endpoint") = true →
      EndpointText value → WellFormedPair S .peer key value
  | publicKey {key value : Bytes} : strcasecmp key (ascii "PublicKey") = true →
      Base64Text S value → WellFormedPair S .peer key value
  | role {key value : Bytes} : strcasecmp key (ascii "Role") = true →
      strcasecmp value (ascii "initiator") = true ∨ strcasecmp value (ascii "responder") = true →
      WellFormedPair S .peer key value
  | allowedIPs {key value : Bytes} : strcasecmp key (ascii "AllowedIPs") = true →
      CidrText value → WellFormedPair S .peer key value

/-- A line of a section, without the white space around it. -/
inductive WellFormedLine (S : Sodium) (section_ : Section) : Bytes → Prop
  | empty : WellFormedLine S section_ []
  | comment {mark : UInt8} {text : Bytes} : mark = 35 ∨ mark = 59 →
      WellFormedLine S section_ (mark :: text)
  | header {name : Bytes} :
      strcasecmp name (ascii "Interface") = true ∨ strcasecmp name (ascii "Peer") = true →
      WellFormedLine S section_ (91 :: (name ++ [93]))
  | pair {before after : Bytes} : 61 ∉ before →
      WellFormedPair S section_ (trim before) (trim after) →
      WellFormedLine S section_ (before ++ 61 :: after)

/-- The section that a line of this kind leaves the file in. -/
def Section.enter (section_ : Section) : LineKind → Section
  | .header name =>
    if strcasecmp name (ascii "Interface") then .interface
    else if strcasecmp name (ascii "Peer") then .peer
    else section_
  | _ => section_

/-- The section after these lines. -/
def sectionAfter (lines : List Bytes) : Section := (lines.map lineKind).foldl Section.enter .none

/-! ## What is tolerated -/

/-- The part of a value that is a number. -/
def numericText (key value : Bytes) : Option Bytes :=
  if strcasecmp key (ascii "ListenPort") then some value
  else if strcasecmp key (ascii "Address") || strcasecmp key (ascii "AllowedIPs") then
    (strchr 47 value).map Prod.snd
  else if strcasecmp key (ascii "Endpoint") then (strrchr 58 value).map Prod.snd
  else none

/-- Text after the bracket of a header, or a number that begins with white space or a sign. -/
inductive Lenient : Bytes → Prop
  | header {name rest : Bytes} : 93 ∉ name → rest ≠ [] → Lenient (91 :: (name ++ 93 :: rest))
  | number {before after number : Bytes} : 61 ∉ before →
      numericText (trim before) (trim after) = some number →
      number.head?.any strtolLead = true → Lenient (before ++ 61 :: after)

/-! ## Known keys -/

theorem isalpha_of_tolower {c : UInt8} (h : isalpha (tolower c) = true) : isalpha c = true := by
  unfold tolower at h
  split at h
  · next upper =>
    rw [isalpha, upper, Bool.true_or]
  · exact h

/-- What compares equal to a word is a word. -/
theorem letters_of_strcasecmp {key word : Bytes} (h : strcasecmp key word = true)
    (letters : (word.map tolower).all isalpha = true) : ∀ c ∈ key, isalpha c = true := by
  intro c hc
  rw [strcasecmp, beq_iff_eq] at h
  rw [← h, List.all_map] at letters
  exact isalpha_of_tolower (List.all_eq_true.mp letters c hc)

theorem head_of_strcasecmp {key word : Bytes} (h : strcasecmp key word = true)
    (letters : (word.map tolower).all isalpha = true) (nonempty : word.length ≠ 0) :
    key.head?.any isalpha = true := by
  have length : key.length = word.length := by
    rw [strcasecmp, beq_iff_eq] at h
    simpa using congrArg List.length h
  cases key with
  | nil => exact absurd length.symm nonempty
  | cons c key => exact letters_of_strcasecmp h letters c List.mem_cons_self

theorem WellFormedPair.head {S : Sodium} {section_ : Section} {key value : Bytes}
    (h : WellFormedPair S section_ key value) : key.head?.any isalpha = true := by
  cases h with
  | name h | deviceName h | address h | listenPort h | privateKey h | endpoint h | publicKey h
  | role h | allowedIPs h => exact head_of_strcasecmp h rfl (by decide)

theorem numericText_head {key value number : Bytes} (h : numericText key value = some number) :
    key.head?.any isalpha = true := by
  unfold numericText at h
  split at h
  · next listenPort => exact head_of_strcasecmp listenPort rfl (by decide)
  split at h
  · next cidr =>
    rcases Bool.or_eq_true_iff.mp cidr with address | allowedIPs
    · exact head_of_strcasecmp address rfl (by decide)
    · exact head_of_strcasecmp allowedIPs rfl (by decide)
  split at h
  · next endpoint => exact head_of_strcasecmp endpoint rfl (by decide)
  · cases h

/-- A line that begins with a visible mark has no known key in front of its `=`. -/
theorem key_of_mark {mark : UInt8} {text before after : Bytes}
    (h : mark :: text = before ++ 61 :: after) (visible : isspace mark = false)
    (other : isalpha mark = false) (unequal : mark ≠ 61) :
    (trim before).head?.any isalpha = false := by
  cases before with
  | nil => exact absurd (List.cons.inj h).1 unequal
  | cons c before =>
    obtain rfl := (List.cons.inj h).1
    obtain ⟨rest, hrest⟩ : ∃ rest, trim ([] ++ mark :: before) = mark :: rest :=
      trim_visible rfl visible before
    rw [List.nil_append] at hrest
    rw [hrest]
    exact other

theorem split_first {c : UInt8} {before after before' after' : Bytes}
    (h : before ++ c :: after = before' ++ c :: after') (first : c ∉ before)
    (first' : c ∉ before') :
    before = before' ∧ after = after' := by
  have found := strchr_append after first
  rw [h, strchr_append after' first'] at found
  cases found
  exact ⟨rfl, rfl⟩

/-! ## A well-formed line is not tolerated but right -/

theorem digit_ne {text : Bytes} (digits : Digits text) {c : UInt8} (other : isdigit c = false) :
    c ∉ text := by
  intro mem
  rw [List.all_eq_true.mp digits.2 c mem] at other
  cases other

theorem CidrText.number {text : Bytes} (h : CidrText text) :
    ∃ number, (strchr 47 text).map Prod.snd = some number ∧ Digits number := by
  obtain ⟨addr, length, rfl, digits, -⟩ := h
  have absent : 47 ∉ InAddr.inetNtop addr := by
    intro mem
    rcases InAddr.inetNtop_chars addr 47 mem with digit | dot
    · cases digit
    · cases dot
  rw [strchr_append length absent]
  exact ⟨length, rfl, digits⟩

theorem EndpointText.number {text : Bytes} (h : EndpointText text) :
    ∃ number, (strrchr 58 text).map Prod.snd = some number ∧ Digits number := by
  obtain ⟨name, port, rfl, -, -, digits, -⟩ := h
  rw [strrchr_append name (digit_ne digits rfl)]
  exact ⟨port, rfl, digits⟩

theorem numericText_congr {key word : Bytes} (h : strcasecmp key word = true) (value : Bytes) :
    numericText key value = numericText word value := by
  have same (name : Bytes) : strcasecmp key name = strcasecmp word name := by
    rw [strcasecmp, strcasecmp, beq_iff_eq.mp h]
  simp only [numericText, same]

/-- The numbers of a well-formed value are digits. -/
theorem WellFormedPair.digits {S : Sodium} {section_ : Section} {key value number : Bytes}
    (h : WellFormedPair S section_ key value) (hnumber : numericText key value = some number) :
    Digits number := by
  have cidr (text : CidrText value)
      (hvalue : (strchr 47 value).map Prod.snd = some number) : Digits number := by
    obtain ⟨number', hnumber', digits⟩ := text.number
    rw [hnumber'] at hvalue
    cases hvalue
    exact digits
  cases h with
  | name h | deviceName h | privateKey h | publicKey h | role h =>
    -- these have no number
    rw [numericText_congr h] at hnumber
    cases hnumber
  | address h text | allowedIPs h text =>
    rw [numericText_congr h] at hnumber
    exact cidr text hnumber
  | listenPort h text =>
    rw [numericText_congr h] at hnumber
    cases hnumber
    exact text.1
  | endpoint h text =>
    rw [numericText_congr h] at hnumber
    obtain ⟨number', hnumber', digits⟩ := text.number
    have hvalue : (strrchr 58 value).map Prod.snd = some number := hnumber
    rw [hnumber'] at hvalue
    cases hvalue
    exact digits

theorem WellFormedLine.not_lenient {S : Sodium} {section_ : Section} {text : Bytes}
    (h : WellFormedLine S section_ text) : ¬ Lenient text := by
  intro lenient
  cases h with
  | empty =>
    generalize hline : ([] : Bytes) = line at lenient
    cases lenient with
    | header => cases hline
    | number => exact absurd hline.symm (by simp)
  | @comment mark text hmark =>
    generalize hline : mark :: text = line at lenient
    cases lenient with
    | header =>
      obtain rfl := (List.cons.inj hline).1
      rcases hmark with h | h <;> cases h
    | number first hnumber =>
      have known := numericText_head hnumber
      rcases hmark with rfl | rfl
      · rw [key_of_mark hline rfl rfl (by decide)] at known
        cases known
      · rw [key_of_mark hline rfl rfl (by decide)] at known
        cases known
  | @header name hname =>
    have bracket : 93 ∉ name := by
      intro mem
      rcases hname with h | h
      · cases letters_of_strcasecmp h rfl 93 mem
      · cases letters_of_strcasecmp h rfl 93 mem
    generalize hline : 91 :: (name ++ [93]) = line at lenient
    cases lenient with
    | header first nonempty =>
      exact nonempty (split_first (List.cons.inj hline).2 bracket first).2.symm
    | number first hnumber =>
      have known := numericText_head hnumber
      rw [key_of_mark hline rfl rfl (by decide)] at known
      cases known
  | @pair before after first pair =>
    generalize hline : before ++ 61 :: after = line at lenient
    cases lenient with
    | header =>
      have known := pair.head
      rw [key_of_mark hline.symm rfl rfl (by decide)] at known
      cases known
    | number first' hnumber lead =>
      obtain ⟨rfl, rfl⟩ := split_first hline first first'
      rw [(pair.digits hnumber).head] at lead
      cases lead

/-! ## What is accepted and not lenient is well formed -/

theorem parsePort_text {text : Bytes} {port : UInt16} (h : parsePort text = some port)
    (plain : text.head?.any strtolLead = false) : PortText text := by
  obtain ⟨value, hvalue, positive, small, -⟩ := parsePort_eq_some h
  obtain ⟨digits, rfl⟩ := strtol_digits hvalue plain
  exact ⟨digits, by omega, by omega⟩

theorem parsePrefix_text {text : Bytes} {length : UInt32} (h : parsePrefix text = some length)
    (plain : text.head?.any strtolLead = false) : PrefixText text := by
  obtain ⟨value, hvalue, -, small, -⟩ := parsePrefix_eq_some h
  obtain ⟨digits, rfl⟩ := strtol_digits hvalue plain
  exact ⟨digits, by omega⟩

theorem parseIpPrefix_text {text : Bytes} {found : InAddr × UInt32}
    (h : parseIpPrefix text = some found)
    (plain : ∀ number, (strchr 47 text).map Prod.snd = some number →
      number.head?.any strtolLead = false) : CidrText text := by
  obtain ⟨-, buf, prefixStr, split, hlength, haddr⟩ := parseIpPrefix_eq_some.mp h
  obtain ⟨rfl, -⟩ := strchr_eq_some split
  have number := plain prefixStr (by rw [split]; rfl)
  exact ⟨found.1, prefixStr, by rw [InAddr.inetPton_eq_some.mp haddr],
    parsePrefix_text hlength number⟩

theorem parseEndpointValue_text {text : Bytes} {found : Bytes × UInt16}
    (h : parseEndpointValue text configMaxHost = some found)
    (plain : ∀ number, (strrchr 58 text).map Prod.snd = some number →
      number.head?.any strtolLead = false) : EndpointText text := by
  obtain ⟨short, nonempty, -, portStr, split, hport⟩ := parseEndpointValue_eq_some h
  have number := plain portStr (by rw [split]; rfl)
  obtain ⟨rfl, -⟩ := strrchr_eq_some split
  exact ⟨found.1, portStr, rfl, nonempty, short, parsePort_text hport number⟩

section

variable {S : Sodium} {host : Endian} {key value : Bytes}

theorem interfaceSetting_wellFormed {t : InterfaceSetting}
    (h : interfaceSetting S host key value = some t)
    (plain : ∀ number, numericText key value = some number →
      number.head?.any strtolLead = false) : WellFormedPair S .interface key value := by
  unfold interfaceSetting at h
  split at h
  · next isName =>
    split at h
    · cases h
    · next short => exact .name isName (Nat.lt_of_not_le short)
  split at h
  · next isDeviceName =>
    split at h
    · cases h
    · next short => exact .deviceName isDeviceName (Nat.lt_of_not_le short)
  split at h
  · next isAddress =>
    obtain ⟨texts, htexts, -⟩ := Option.map_eq_some_iff.mp h
    obtain ⟨addr, length, hprefix, -⟩ := parseCidr_eq_some.mp htexts
    rw [numericText_congr isAddress] at plain
    exact .address isAddress (parseIpPrefix_text hprefix plain)
  split at h
  · next isListenPort =>
    obtain ⟨port, hport, -⟩ := Option.map_eq_some_iff.mp h
    rw [numericText_congr isListenPort] at plain
    exact .listenPort isListenPort (parsePort_text hport (plain value rfl))
  split at h
  · next isPrivateKey =>
    obtain ⟨sk, hsk, -⟩ := Option.map_eq_some_iff.mp h
    exact .privateKey isPrivateKey ⟨sk, hsk⟩
  · cases h

theorem peerSetting_wellFormed {t : PeerSetting} (h : peerSetting S key value = some t)
    (plain : ∀ number, numericText key value = some number →
      number.head?.any strtolLead = false) : WellFormedPair S .peer key value := by
  unfold peerSetting at h
  split at h
  · next isEndpoint =>
    obtain ⟨found, hfound, -⟩ := Option.map_eq_some_iff.mp h
    rw [numericText_congr isEndpoint] at plain
    exact .endpoint isEndpoint (parseEndpointValue_text hfound plain)
  split at h
  · next isPublicKey =>
    obtain ⟨pk, hpk, -⟩ := Option.map_eq_some_iff.mp h
    exact .publicKey isPublicKey ⟨pk, hpk⟩
  split at h
  · next isRole =>
    obtain ⟨role, hrole, -⟩ := Option.map_eq_some_iff.mp h
    unfold parseRole at hrole
    split at hrole
    · next initiator => exact .role isRole (.inl initiator)
    split at hrole
    · next responder => exact .role isRole (.inr responder)
    · cases hrole
  split at h
  · next isAllowedIPs =>
    obtain ⟨found, hfound, -⟩ := Option.map_eq_some_iff.mp h
    rw [numericText_congr isAllowedIPs] at plain
    exact .allowedIPs isAllowedIPs (parseIpPrefix_text hfound plain)
  · cases h

end

/-! ## Files -/

section

variable (S : Sodium) (host : Endian)

/-- The kinds of lines that a section does not refuse. -/
inductive ReadsIn : Section → LineKind → Prop
  | blank {section_ : Section} : ReadsIn section_ .blank
  | header {section_ : Section} {name : Bytes} :
      strcasecmp name (ascii "Interface") = true ∨ strcasecmp name (ascii "Peer") = true →
      ReadsIn section_ (.header name)
  | interfaceSetting {key value : Bytes} {t : InterfaceSetting} :
      interfaceSetting S host key value = some t → ReadsIn .interface (.pair key value)
  | peerSetting {key value : Bytes} {t : PeerSetting} :
      peerSetting S key value = some t → ReadsIn .peer (.pair key value)

/-- No line of these kinds is refused, from a section on. -/
def AllRead : Section → List LineKind → Prop
  | _, [] => True
  | section_, kind :: kinds => ReadsIn S host section_ kind ∧ AllRead (section_.enter kind) kinds

variable {S host}

/-- A pass of the loop that does not fail is on a line of its section, and leaves the section that
the line opens. -/
theorem Reads.readsIn {p p' : Parse} {line : Bytes} (h : Reads S host p line p') :
    ReadsIn S host p.section_ (lineKind line) ∧ p'.section_ = p.section_.enter (lineKind line) := by
  cases h with
  | blank kind =>
    rw [kind]
    exact ⟨.blank, rfl⟩
  | openInterface kind isInterface =>
    rw [kind, Section.enter, if_pos isInterface]
    exact ⟨.header (.inl isInterface), rfl⟩
  | openPeer kind isPeer =>
    have notInterface := strcasecmp_unique (u := ascii "Interface") isPeer (by decide)
    rw [kind, Section.enter, notInterface, if_neg Bool.false_ne_true, if_pos isPeer]
    exact ⟨.header (.inr isPeer), rfl⟩
  | interfaceSetting kind inside set =>
    rw [kind, inside]
    exact ⟨.interfaceSetting set, (InterfaceSetting.put_section _ _).trans inside⟩
  | peerSetting kind inside set =>
    rw [kind, inside]
    exact ⟨.peerSetting set, (PeerSetting.put_section _ _).trans inside⟩

theorem allRead_of_foldlM {lines : List Bytes} {p p' : Parse}
    (h : lines.foldlM (parseLine S host) p = .ok p') :
    AllRead S host p.section_ (lines.map lineKind) := by
  induction lines generalizing p with
  | nil => trivial
  | cons line lines ih =>
    obtain ⟨q, hline, rest⟩ := Runs.foldlM_cons_ok h
    obtain ⟨reads, hsection⟩ := ((parseLine_ok S host).mp hline).readsIn
    refine ⟨reads, ?_⟩
    rw [← hsection]
    exact ih rest

/-- The line at a place, in the section of the lines before it. -/
theorem AllRead.readsIn {before after : List LineKind} {kind : LineKind} {section_ : Section}
    (h : AllRead S host section_ (before ++ kind :: after)) :
    ReadsIn S host (before.foldl Section.enter section_) kind := by
  induction before generalizing section_ with
  | nil => exact h.1
  | cons first before ih => exact ih h.2

/-- In a file of short lines, what the loop reads are the lines. -/
theorem allRead_lines {contents : Bytes} {section_ : Section}
    (short : ∀ line ∈ contents.splitOn 10, line.length < 511)
    (h : AllRead S host section_ ((fgetsAll configMaxLine contents).map lineKind)) :
    AllRead S host section_ ((contents.splitOn 10).map lineKind) := by
  induction contents using line_induction generalizing section_ with
  | last line plain =>
    rw [List.splitOn_eq_singleton plain] at short ⊢
    by_cases empty : line = []
    · rw [empty]
      exact ⟨.blank, trivial⟩
    · have fits : line.length < configMaxLine := Nat.lt_succ_of_lt (short line List.mem_cons_self)
      rwa [fgetsAll_last (by decide) plain fits empty] at h
  | step line rest plain ih =>
    rw [List.splitOn_append_cons_self_of_not_mem plain] at short ⊢
    have fits : line.length + 1 < configMaxLine := Nat.succ_lt_succ (short line List.mem_cons_self)
    rw [fgetsAll_short plain fits, List.map_cons, lineKind_newline] at h
    exact ⟨h.1, ih (fun line hline => short line (List.mem_cons_of_mem _ hline)) h.2⟩

/-- A line that its section does not refuse and that is not lenient is well formed. -/
theorem ReadsIn.wellFormedLine {section_ : Section} {line : Bytes}
    (h : ReadsIn S host section_ (lineKind line)) (nul : 0 ∉ line)
    (strict : ¬ Lenient (trim line)) : WellFormedLine S section_ (trim line) := by
  rw [lineKind, ofBuffer_eq_self nul] at h
  cases htext : trim line with
  | nil => exact .empty
  | cons c rest =>
    rw [htext] at h strict
    dsimp only at h
    split at h
    · next mark => exact .comment mark
    split at h
    · next bracket =>
      subst bracket
      split at h
      · cases h
      · next name after found =>
        obtain ⟨rfl, first⟩ := strchr_eq_some found
        cases h with
        | header hname =>
          by_cases empty : after = []
          · rw [empty]
            exact .header hname
          · exact absurd (.header first empty) strict
    · split at h
      · cases h
      · next before after found =>
        obtain ⟨hline, first⟩ := strchr_eq_some found
        rw [hline] at strict ⊢
        have plain (number : Bytes)
            (hnumber : numericText (trim before) (trim after) = some number) :
            number.head?.any strtolLead = false := by
          by_contra lead
          exact strict (.number first hnumber (eq_true_of_ne_false lead))
        cases h with
        | interfaceSetting set => exact .pair first (interfaceSetting_wellFormed set plain)
        | peerSetting set => exact .pair first (peerSetting_wellFormed set plain)

/-- **What the parser tolerates.** Let a file load whose lines have no NUL and fit the buffer of
`fgets`. Every line of it is well formed in its section, by the grammar, if and only if none is
lenient: none has text after the bracket of a header, or a number that begins with white space or a
sign. -/
theorem accepted_strict_iff {contents : Bytes} {cfg : Config}
    (lines : ∀ line ∈ contents.splitOn 10, line.length < 511 ∧ 0 ∉ line)
    (accepted : configLoad S host (.ok contents) = .ok cfg) :
    (∀ before line after, contents.splitOn 10 = before ++ line :: after →
        WellFormedLine S (sectionAfter before) (trim line)) ↔
      ∀ line ∈ contents.splitOn 10, ¬ Lenient (trim line) := by
  obtain ⟨p, loop, -⟩ := configLoad_ok accepted
  have read : AllRead S host .none ((contents.splitOn 10).map lineKind) :=
    allRead_lines (fun line hline => (lines line hline).1) (allRead_of_foldlM loop)
  constructor
  · intro wellFormed line hline
    obtain ⟨before, after, hlines⟩ := List.append_of_mem hline
    exact (wellFormed before line after hlines).not_lenient
  · intro strict before line after hlines
    have hline : line ∈ contents.splitOn 10 := by
      rw [hlines]
      exact List.mem_append_right _ List.mem_cons_self
    rw [hlines, List.map_append, List.map_cons] at read
    exact read.readsIn.wellFormedLine (lines line hline).2 (strict line hline)

end

def strictFile : Bytes := ascii "[Interface]\nAddress = 10.0.0.1/24\nListenPort = 51820\n"

theorem accepted_strict_iff_strictFile :
    (∀ line ∈ strictFile.splitOn 10, line.length < 511 ∧ 0 ∉ line) ∧
      ∃ cfg, configLoad reference .little (.ok strictFile) = .ok cfg ∧
        ((∀ before line after, strictFile.splitOn 10 = before ++ line :: after →
            WellFormedLine reference (sectionAfter before) (trim line)) ↔
          ∀ line ∈ strictFile.splitOn 10, ¬ Lenient (trim line)) := by
  have lines : ∀ line ∈ strictFile.splitOn 10, line.length < 511 ∧ 0 ∉ line := by decide +kernel
  have loads : (configLoad reference .little (.ok strictFile)).toOption.isSome = true := by
    decide +kernel
  refine ⟨lines, ?_⟩
  cases accepted : configLoad reference .little (.ok strictFile) with
  | error failure =>
    rw [accepted] at loads
    cases loads
  | ok cfg => exact ⟨cfg, rfl, accepted_strict_iff lines accepted⟩

/-- The same file with text after its header, a space in the prefix and a sign before the port. -/
def typoFile : Bytes := ascii "[Interface] typo\nAddress = 10.0.0.1/ 24\nListenPort = +51820\n"

/-- **A file with typos loads**, and as if they were not there. -/
theorem tolerated_typos :
    typoFile.splitOn 10 = [ascii "[Interface] typo", ascii "Address = 10.0.0.1/ 24",
        ascii "ListenPort = +51820", []] ∧
      (∀ line ∈ typoFile.splitOn 10, line.length < 511 ∧ 0 ∉ line) ∧
      (configLoad reference .little (.ok typoFile)).toOption.map
          (fun cfg => (cfg.tunAddress, cfg.tunNetmask, cfg.listenPort)) =
        some (ascii "10.0.0.1", ascii "255.255.255.0", 51820) ∧
      ¬ WellFormedLine reference .none (trim (ascii "[Interface] typo")) ∧
      ¬ WellFormedLine reference .interface (trim (ascii "Address = 10.0.0.1/ 24")) ∧
      ¬ WellFormedLine reference .interface (trim (ascii "ListenPort = +51820")) := by
  refine ⟨by decide +kernel, by decide +kernel, by decide +kernel, ?_, ?_, ?_⟩
  · have rest : Lenient (91 :: (ascii "Interface" ++ 93 :: ascii " typo")) :=
      .header (by decide) (by decide)
    exact fun wellFormed => wellFormed.not_lenient rest
  · have number : numericText (trim (ascii "Address ")) (trim (ascii " 10.0.0.1/ 24")) =
        some (ascii " 24") := by
      decide +kernel
    have space : Lenient (ascii "Address " ++ 61 :: ascii " 10.0.0.1/ 24") :=
      .number (by decide) number (by decide)
    exact fun wellFormed => wellFormed.not_lenient space
  · have number : numericText (trim (ascii "ListenPort ")) (trim (ascii " +51820")) =
        some (ascii "+51820") := by
      decide +kernel
    have sign : Lenient (ascii "ListenPort " ++ 61 :: ascii " +51820") :=
      .number (by decide) number (by decide)
    exact fun wellFormed => wellFormed.not_lenient sign

end EdgarVPN
