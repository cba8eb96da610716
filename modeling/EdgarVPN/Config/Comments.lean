import EdgarVPN.Config.Lines
import EdgarVPN.Crypto.Reference
import EdgarVPN.Lib.Lines
import EdgarVPN.Lib.Runs

/-!
# Comments and blank lines

Whether a file loads, and what it loads as, depends only on the kinds of the lines that the loop
reads, blank ones left out (`configLoad_toOption`): the line number is read by error messages alone.
So inserting lines is harmless as long as the loop takes them for blank. It does not read lines of
the file, though, but what `fgets` cuts them into, and a comment of more than 511 bytes comes in
pieces of which only the first begins with its `#` or `;`.

**What is proved.** `comments_ignored_iff`: inserting lines of a class of comments and blank lines,
at any line boundaries of any file, never changes what is loaded exactly when each piece of each
line of the class is blank or a comment itself. That is so for all lines of up to 511 bytes, and for
white space of any length. For the converse two files are enough, one that loads and one that lacks
a section header: whatever a comment hides after its first 511 bytes shows in one of them.
`long_comment_parsed` is a comment whose end is taken for a setting.
-/

set_option autoImplicit false

namespace EdgarVPN

open CString

variable (S : Sodium) (host : Endian)

/-! ## The loop without line numbers -/

/-- The state of the loop apart from the line number. -/
def Parse.core (p : Parse) : Parse := { p with lineno := 0 }

/-- A pass of the loop on a line of this kind. -/
def readKind (p : Parse) : LineKind → Except ConfigError Parse
  | .blank => .ok p
  | .header name => enterSection p name
  | .unterminated => .error (.unterminatedHeader p.lineno)
  | .pair key value =>
    match p.section_ with
    | .interface => parseInterfaceKey S host p key value
    | .peer => parsePeerKey S p key value
    | .none => .error (.keyOutsideSection p.lineno)
  | .other => .error (.expectedKeyValue p.lineno)

/-- What is loaded from a state of the loop and lines of these kinds. -/
def loadKinds (p : Parse) (kinds : List LineKind) : Option Config :=
  ((kinds.foldlM (readKind S host) p).toOption.map Parse.core).bind fun p => (parseEnd p).toOption

/-- The kinds of the lines that are not blank. -/
def significant (lines : List Bytes) : List LineKind := (lines.map lineKind).filter (· ≠ .blank)

/-- The kinds of what the loop reads from a file, blank lines left out. -/
def fileKinds (file : Bytes) : List LineKind := significant (fgetsAll configMaxLine file)

variable {S host}

theorem parseInterfaceKey_toOption (p : Parse) (key value : Bytes) :
    (parseInterfaceKey S host p key value).toOption =
      (interfaceSetting S host key value).map fun s => s.put p := by
  cases h : parseInterfaceKey S host p key value with
  | ok p' =>
    obtain ⟨s, hs, rfl⟩ := (parseInterfaceKey_ok S host).mp h
    rw [hs]
    rfl
  | error failure =>
    cases hs : interfaceSetting S host key value with
    | none => rfl
    | some s =>
      have := (parseInterfaceKey_ok S host (p := p)).mpr ⟨s, hs, rfl⟩
      rw [h] at this
      cases this

theorem parsePeerKey_toOption (p : Parse) (key value : Bytes) :
    (parsePeerKey S p key value).toOption = (peerSetting S key value).map fun s => s.put p := by
  cases h : parsePeerKey S p key value with
  | ok p' =>
    obtain ⟨s, hs, rfl⟩ := (parsePeerKey_ok S).mp h
    rw [hs]
    rfl
  | error failure =>
    cases hs : peerSetting S key value with
    | none => rfl
    | some s =>
      have := (parsePeerKey_ok S (p := p)).mpr ⟨s, hs, rfl⟩
      rw [h] at this
      cases this

theorem enterSection_core (p : Parse) (name : Bytes) :
    (enterSection p name).toOption.map Parse.core =
      (enterSection p.core name).toOption.map Parse.core := by
  have incomplete : p.core.incomplete = p.incomplete := rfl
  have peers : p.core.cfg.peers = p.cfg.peers := rfl
  unfold enterSection
  rw [incomplete, peers]
  split
  · rfl
  split
  · rfl
  split
  · split
    · rfl
    · rfl
  · rfl

/-- Only errors depend on the line number. -/
theorem readKind_core (p : Parse) (kind : LineKind) :
    (readKind S host p kind).toOption.map Parse.core =
      (readKind S host p.core kind).toOption.map Parse.core := by
  cases kind with
  | blank => rfl
  | header name => exact enterSection_core p name
  | unterminated => rfl
  | other => rfl
  | pair key value =>
    have inside : p.core.section_ = p.section_ := rfl
    unfold readKind
    rw [inside]
    cases p.section_ with
    | none => rfl
    | interface =>
      dsimp only
      rw [parseInterfaceKey_toOption, parseInterfaceKey_toOption, Option.map_map, Option.map_map]
      congr 1
      funext s
      cases s <;> rfl
    | peer =>
      dsimp only
      rw [parsePeerKey_toOption, parsePeerKey_toOption, Option.map_map, Option.map_map]
      congr 1
      funext s
      cases s <;> rfl

theorem readKind_alike {p q : Parse} (same : p.core = q.core) (kind : LineKind) :
    (readKind S host p kind).toOption.map Parse.core =
      (readKind S host q kind).toOption.map Parse.core := by
  rw [readKind_core p, readKind_core q, same]

theorem parseLine_readKind (p : Parse) (line : Bytes) :
    parseLine S host p line = readKind S host p.nextLine (lineKind line) := by
  rw [parseLine_eq]
  rfl

/-- A run over lines is a run over the kinds of those that are not blank. -/
theorem foldlM_significant (lines : List Bytes) : ∀ {p q : Parse}, p.core = q.core →
    (lines.foldlM (parseLine S host) p).toOption.map Parse.core =
      ((significant lines).foldlM (readKind S host) q).toOption.map Parse.core := by
  induction lines with
  | nil =>
    intro p q same
    exact congrArg some same
  | cons line lines ih =>
    intro p q same
    have next : p.nextLine.core = q.core := same
    rw [List.foldlM_cons, parseLine_readKind]
    by_cases blank : lineKind line = .blank
    · rw [blank]
      have skip : significant (line :: lines) = significant lines := by
        simp only [significant, List.map_cons, blank, ne_eq, not_true_eq_false, decide_false,
          Bool.false_eq_true, not_false_eq_true, List.filter_cons_of_neg]
      rw [skip]
      exact ih next
    · have keep : significant (line :: lines) = lineKind line :: significant lines := by
        simp only [significant, List.map_cons]
        exact List.filter_cons_of_pos (by simpa using blank)
      rw [keep, List.foldlM_cons]
      have alike : (readKind S host p.nextLine (lineKind line)).toOption.map Parse.core =
          (readKind S host q (lineKind line)).toOption.map Parse.core :=
        readKind_alike next (lineKind line)
      cases hp : readKind S host p.nextLine (lineKind line) with
      | error failure =>
        rw [hp] at alike
        cases hq : readKind S host q (lineKind line) with
        | error failure' => rfl
        | ok q' => rw [hq] at alike; cases alike
      | ok p' =>
        rw [hp] at alike
        cases hq : readKind S host q (lineKind line) with
        | error failure' => rw [hq] at alike; cases alike
        | ok q' =>
          rw [hq] at alike
          exact ih (Option.some.inj alike)

/-- **What is loaded depends on the kinds of the lines alone.** The pieces `fgets` returns of a file
are classified one by one, and the loop runs over the kinds; errors and their texts apart, nothing
else of the file matters. -/
theorem configLoad_toOption (file : Bytes) :
    (configLoad S host (.ok file)).toOption = loadKinds S host Parse.initial (fileKinds file) := by
  have run : ((fgetsAll configMaxLine file).foldlM (parseLine S host)
        Parse.initial).toOption.map Parse.core =
      ((significant (fgetsAll configMaxLine file)).foldlM (readKind S host)
        Parse.initial).toOption.map Parse.core :=
    foldlM_significant _ rfl
  unfold loadKinds fileKinds
  rw [← run]
  show (((fgetsAll configMaxLine file).foldlM (parseLine S host) Parse.initial) >>=
    parseEnd).toOption = _
  cases (fgetsAll configMaxLine file).foldlM (parseLine S host) Parse.initial with
  | error failure => rfl
  | ok p => rfl

/-! ## The lines of a file -/

theorem significant_append (lines lines' : List Bytes) :
    significant (lines ++ lines') = significant lines ++ significant lines' := by
  rw [significant, List.map_append, List.filter_append]
  rfl

/-- The newline at its end makes no difference to a line. If it is cut off into a piece of its own,
that piece is blank. -/
theorem fileKinds_newline {line : Bytes} (plain : 10 ∉ line) :
    fileKinds (line ++ [10]) = fileKinds line := by
  have large : 1 < configMaxLine := by decide
  unfold fileKinds
  induction hn : line.length using Nat.strong_induction_on generalizing line with
  | _ n ih =>
    by_cases short : line.length + 1 < configMaxLine
    · rw [fgetsAll_short plain short, fgetsAll_nil]
      by_cases empty : line = []
      · subst empty
        decide
      · rw [fgetsAll_last large plain (Nat.lt_of_succ_lt short) empty]
        simp only [significant, List.map_cons, List.map_nil, lineKind_newline]
    · have long : configMaxLine - 1 ≤ line.length := by omega
      have plain' : 10 ∉ line.drop (configMaxLine - 1) := fun h => plain (List.mem_of_mem_drop h)
      have shorter : (line.drop (configMaxLine - 1)).length < n := by
        rw [List.length_drop]
        omega
      have first := fgetsAll_long large plain long []
      rw [List.append_nil, List.append_nil] at first
      rw [fgetsAll_long large plain long, first]
      have rest := ih _ shorter plain' rfl
      rw [← List.singleton_append, significant_append, rest, ← significant_append]
      rfl

/-- The kinds of a file are those of its lines, in order. -/
theorem fileKinds_line {line : Bytes} (plain : 10 ∉ line) (rest : Bytes) :
    fileKinds (line ++ 10 :: rest) = fileKinds line ++ fileKinds rest := by
  rw [← fileKinds_newline plain]
  unfold fileKinds
  rw [fgetsAll_line (by decide) plain, significant_append]

/-! ## Inserted lines -/

/-- A blank line, or a comment: white space, `#` or `;`, and any text. -/
structure Quiet (line : Bytes) : Prop where
  oneLine : 10 ∉ line
  terminated : 0 ∉ line
  quiet : line.all isspace = true ∨
    ∃ space mark text, line = space ++ mark :: text ∧ space.all isspace = true ∧
      (mark = 35 ∨ mark = 59)

/-- The second file is the first with lines of a class inserted, any number of them at any line
boundaries. Each has its newline, but for one at the very end; and where the first file ends in the
middle of a line, that line may be given its newline. -/
inductive Inserted (P : Bytes → Prop) : Bytes → Bytes → Prop
  | same (file : Bytes) : Inserted P file file
  | keep {line file file' : Bytes} : 10 ∉ line → Inserted P file file' →
      Inserted P (line ++ 10 :: file) (line ++ 10 :: file')
  | insert {line file file' : Bytes} : P line → Inserted P file file' →
      Inserted P file (line ++ 10 :: file')
  | last {line : Bytes} : P line → Inserted P [] line
  | close {line file' : Bytes} : 10 ∉ line → Inserted P [] file' →
      Inserted P line (line ++ 10 :: file')

/-- What the loop reads of a line is blank or a comment, piece by piece. -/
def Unread (line : Bytes) : Prop :=
  ∀ piece ∈ fgetsAll configMaxLine line, lineKind piece = .blank

theorem unread_iff {line : Bytes} : Unread line ↔ fileKinds line = [] := by
  unfold Unread fileKinds significant
  rw [List.filter_eq_nil_iff]
  simp

/-- Lines that are not read can be inserted anywhere. -/
theorem Inserted.fileKinds_eq {P : Bytes → Prop} (plain : ∀ line, P line → 10 ∉ line)
    (unread : ∀ line, P line → Unread line) {file file' : Bytes} (h : Inserted P file file') :
    fileKinds file' = fileKinds file := by
  induction h with
  | same => rfl
  | keep hline _ ih => rw [fileKinds_line hline, fileKinds_line hline, ih]
  | insert hline _ ih =>
    rw [fileKinds_line (plain _ hline), unread_iff.mp (unread _ hline), ih]
    rfl
  | last hline => exact unread_iff.mp (unread _ hline)
  | close hline _ ih =>
    rw [fileKinds_line hline, ih]
    exact List.append_nil _

theorem lineKind_white {line : Bytes} (white : ∀ c ∈ line, isspace c = true) :
    lineKind line = .blank := by
  have text : trim (ofBuffer line) = [] := by
    have blank : (ofBuffer line).dropWhile isspace = [] :=
      List.dropWhile_eq_nil_iff.mpr fun c hc => white c (List.takeWhile_subset _ hc)
    rw [trim, blank]
    rfl
  rw [lineKind, text]

/-- A quiet line, as one piece, is blank. -/
theorem Quiet.lineKind {line : Bytes} (h : Quiet line) : lineKind line = .blank := by
  rcases h.quiet with white | ⟨space, mark, text, hline, white, hmark⟩
  · exact lineKind_white (List.all_eq_true.mp white)
  · have visible : isspace mark = false := by rcases hmark with rfl | rfl <;> decide
    obtain ⟨rest, hrest⟩ := trim_visible white visible text
    rw [EdgarVPN.lineKind, ofBuffer_eq_self h.terminated, hline, hrest]
    exact if_pos hmark

/-- Quiet lines that fit the buffer are not read. -/
theorem Quiet.unread_short {line : Bytes} (h : Quiet line) (short : line.length < configMaxLine) :
    Unread line := by
  intro piece hpiece
  by_cases empty : line = []
  · subst empty
    cases hpiece
  · rw [fgetsAll_last (by decide) h.oneLine short empty, List.mem_singleton] at hpiece
    rw [hpiece, h.lineKind]

/-- White space is not read, however much of it there is. -/
theorem unread_white {line : Bytes} (white : line.all isspace = true) : Unread line := by
  intro piece hpiece
  apply lineKind_white
  intro c hc
  have whole : (fgetsAll configMaxLine line).flatten = line :=
    flatten_fgetsLines (by decide) (Nat.le_refl _)
  apply List.all_eq_true.mp white
  rw [← whole]
  exact List.mem_flatten.mpr ⟨piece, hpiece, hc⟩

/-! ## Two files that show what is read -/

/-- A file that loads. -/
def plainFile : Bytes := ascii "[Interface]\nAddress = 10.0.0.1/24\n"

/-- A file that lacks its section header. -/
def headlessFile : Bytes := ascii "Address = 10.0.0.1/24\n"

def plainAddress : LineKind := .pair (ascii "Address") (ascii "10.0.0.1/24")

theorem fileKinds_plainFile :
    fileKinds plainFile = [.header (ascii "Interface"), plainAddress] := by
  decide +kernel

theorem fileKinds_headlessFile : fileKinds headlessFile = [plainAddress] := by
  decide +kernel

/-- Everything a pass of the loop can do to its state. -/
theorem readKind_ok {p p' : Parse} {kind : LineKind} (h : readKind S host p kind = .ok p') :
    (kind = .blank ∧ p' = p) ∨ p' = p.openInterface ∨ p' = p.openPeer ∨
      (p.section_ = .interface ∧ ∃ s : InterfaceSetting, p' = s.put p) ∨
      (p.section_ = .peer ∧ ∃ s : PeerSetting, p' = s.put p) := by
  cases kind with
  | blank =>
    cases h
    exact .inl ⟨rfl, rfl⟩
  | header name =>
    simp only [readKind, enterSection] at h
    split at h
    · cases h
    split at h
    · cases h
      exact .inr (.inl rfl)
    split at h
    · split at h
      · cases h
      · cases h
        exact .inr (.inr (.inl rfl))
    · cases h
  | unterminated => cases h
  | other => cases h
  | pair key value =>
    unfold readKind at h
    cases inside : p.section_ with
    | none =>
      rw [inside] at h
      cases h
    | interface =>
      rw [inside] at h
      obtain ⟨s, -, hs⟩ := (parseInterfaceKey_ok S host).mp h
      exact .inr (.inr (.inr (.inl ⟨rfl, s, hs⟩)))
    | peer =>
      rw [inside] at h
      obtain ⟨s, -, hs⟩ := (parsePeerKey_ok S).mp h
      exact .inr (.inr (.inr (.inr ⟨rfl, s, hs⟩)))

theorem InterfaceSetting.put_peers (s : InterfaceSetting) (p : Parse) :
    (s.put p).cfg.peers = p.cfg.peers := by
  cases s <;> rfl

theorem PeerSetting.put_peers (s : PeerSetting) {p : Parse} (h : p.cfg.peers ≠ []) :
    (s.put p).cfg.peers ≠ [] := by
  rw [PeerSetting.put_cfg]
  intro empty
  apply h
  rw [← List.length_eq_zero_iff] at empty ⊢
  rwa [List.length_modify] at empty

/-- After a line that is not blank the loop is in a section, and in [Peer] only with a peer. -/
structure InSection (kinds : List LineKind) (p : Parse) : Prop where
  entered : (∃ kind ∈ kinds, kind ≠ .blank) → p.section_ ≠ .none
  peers : p.section_ = .peer → p.cfg.peers ≠ []

theorem InSection.step {kinds : List LineKind} {p p' : Parse} {kind : LineKind}
    (inv : InSection kinds p) (h : readKind S host p kind = .ok p') :
    InSection (kinds ++ [kind]) p' := by
  rcases readKind_ok h with
    ⟨rfl, rfl⟩ | rfl | rfl | ⟨inside, s, rfl⟩ | ⟨inside, s, rfl⟩
  · refine ⟨fun ⟨kind, mem, visible⟩ => inv.entered ?_, inv.peers⟩
    rcases List.mem_append.mp mem with mem | mem
    · exact ⟨kind, mem, visible⟩
    · exact absurd (List.mem_singleton.mp mem) visible
  · refine ⟨fun _ outside => ?_, fun peer => ?_⟩
    · cases outside
    · cases peer
  · refine ⟨fun _ outside => ?_, fun _ => ?_⟩
    · cases outside
    · exact List.append_ne_nil_of_right_ne_nil _ (List.cons_ne_nil _ _)
  · refine ⟨fun _ => ?_, fun peer => ?_⟩
    · rw [InterfaceSetting.put_section, inside]
      decide
    · rw [InterfaceSetting.put_section, inside] at peer
      cases peer
  · refine ⟨fun _ => ?_, fun _ => s.put_peers (inv.peers inside)⟩
    rw [PeerSetting.put_section, inside]
    decide

/-- A peer is never taken back. -/
theorem readKind_peers {p p' : Parse} {kind : LineKind} (h : readKind S host p kind = .ok p')
    (nonempty : p.cfg.peers ≠ []) : p'.cfg.peers ≠ [] := by
  rcases readKind_ok h with ⟨-, rfl⟩ | rfl | rfl | ⟨-, s, rfl⟩ | ⟨-, s, rfl⟩
  · exact nonempty
  · exact nonempty
  · exact List.append_ne_nil_of_right_ne_nil _ (List.cons_ne_nil _ _)
  · rwa [InterfaceSetting.put_peers]
  · exact s.put_peers nonempty

theorem foldlM_peers {kinds : List LineKind} :
    ∀ {p p' : Parse}, kinds.foldlM (readKind S host) p = .ok p' → p.cfg.peers ≠ [] →
      p'.cfg.peers ≠ [] := by
  induction kinds with
  | nil =>
    intro p p' h nonempty
    cases h
    exact nonempty
  | cons kind kinds ih =>
    intro p p' h nonempty
    obtain ⟨next, hstep, rest⟩ := Runs.foldlM_cons_ok h
    exact ih rest (readKind_peers hstep nonempty)

/-- What is loaded has the peers the loop collected. -/
theorem parseEnd_peers {p : Parse} {cfg : Config} (h : parseEnd p = .ok cfg) :
    cfg.peers = p.cfg.peers := by
  unfold parseEnd at h
  split at h
  · cases h
  split at h
  · cases h
  split at h
  · cases h
  split at h
  · cases h; rfl
  · cases h; rfl

theorem loadKinds_peers {p : Parse} {kinds : List LineKind} {cfg : Config}
    (h : loadKinds S host p kinds = some cfg) (nonempty : p.cfg.peers ≠ []) : cfg.peers ≠ [] := by
  unfold loadKinds at h
  cases run : kinds.foldlM (readKind S host) p with
  | error failure =>
    rw [run] at h
    cases h
  | ok p' =>
    rw [run] at h
    have collected := foldlM_peers run nonempty
    cases hend : parseEnd p'.core with
    | error failure =>
      have h : (parseEnd p'.core).toOption = some cfg := h
      rw [hend] at h
      cases h
    | ok cfg' =>
      have h : (parseEnd p'.core).toOption = some cfg := h
      rw [hend] at h
      cases h
      rw [parseEnd_peers hend]
      exact collected

theorem loadKinds_append {p p' : Parse} {kinds : List LineKind}
    (run : kinds.foldlM (readKind S host) p = .ok p') (rest : List LineKind) :
    loadKinds S host p (kinds ++ rest) = loadKinds S host p' rest := by
  rw [loadKinds, List.foldlM_append, run]
  rfl

theorem loadKinds_failed {p : Parse} {kinds : List LineKind} {failure : ConfigError}
    (run : kinds.foldlM (readKind S host) p = .error failure) (rest : List LineKind) :
    loadKinds S host p (kinds ++ rest) = none := by
  rw [loadKinds, List.foldlM_append, run]
  rfl

/-- From within [Interface] an address is all that a configuration without peers needs. -/
theorem loadKinds_plainAddress {p : Parse} (inside : p.section_ = .interface)
    (nobody : p.cfg.peers = []) :
    ∃ cfg, loadKinds S host p [plainAddress] = some cfg ∧ cfg.peers = [] := by
  have set : interfaceSetting S host (ascii "Address") (ascii "10.0.0.1/24") =
      some (.address (ascii "10.0.0.1") (ascii "255.255.255.0")) := by
    cases host <;> rfl
  have run : [plainAddress].foldlM (readKind S host) p =
      .ok (InterfaceSetting.put p (.address (ascii "10.0.0.1") (ascii "255.255.255.0"))) := by
    rw [List.foldlM_cons, plainAddress, readKind, inside,
      (parseInterfaceKey_ok S host).mpr ⟨_, set, rfl⟩]
    rfl
  generalize hput : InterfaceSetting.put p (.address (ascii "10.0.0.1") (ascii "255.255.255.0")) = q
    at run
  have complete : q.core.incomplete = false := by
    rw [← hput]
    show (p.section_ == .peer && _) = false
    rw [inside]
    rfl
  have address : q.core.haveAddress = true := by rw [← hput]; rfl
  have peers : q.core.cfg.peers = [] := by rw [← hput]; exact nobody
  have loaded : ∃ cfg, parseEnd q.core = .ok cfg := by
    simp only [parseEnd, complete, address, peers, List.length_nil, gt_iff_lt, Nat.lt_irrefl,
      false_and, if_false, Bool.not_true, Bool.false_eq_true]
    split
    · exact ⟨_, rfl⟩
    · exact ⟨_, rfl⟩
  obtain ⟨cfg, hcfg⟩ := loaded
  refine ⟨cfg, ?_, (parseEnd_peers hcfg).trans peers⟩
  rw [loadKinds, run]
  exact congrArg Except.toOption hcfg

/-- The first file loads, without a peer. -/
theorem loadKinds_plainFile :
    ∃ cfg, loadKinds S host Parse.initial (fileKinds plainFile) = some cfg ∧ cfg.peers = [] := by
  have header : [LineKind.header (ascii "Interface")].foldlM (readKind S host) Parse.initial =
      .ok Parse.initial.openInterface := rfl
  rw [fileKinds_plainFile, ← List.singleton_append, loadKinds_append header]
  exact loadKinds_plainAddress rfl rfl

/-- The second does not. -/
theorem loadKinds_headlessFile :
    loadKinds S host Parse.initial (fileKinds headlessFile) = none := by
  rw [fileKinds_headlessFile]
  rfl

/-- **Whatever a line hides shows in one of the two files.** Pieces that are not all blank change
what is loaded when they stand before a complete file, or before one that has a key of [Interface]
and no header. -/
theorem loadKinds_probe {kinds : List LineKind} (visible : ∃ kind ∈ kinds, kind ≠ .blank) :
    loadKinds S host Parse.initial (kinds ++ fileKinds plainFile) ≠
        loadKinds S host Parse.initial (fileKinds plainFile) ∨
      loadKinds S host Parse.initial (kinds ++ fileKinds headlessFile) ≠
        loadKinds S host Parse.initial (fileKinds headlessFile) := by
  obtain ⟨cfg, loaded, nobody⟩ : ∃ cfg,
    loadKinds S host Parse.initial (fileKinds plainFile) = some cfg ∧ cfg.peers = [] :=
    loadKinds_plainFile
  cases run : kinds.foldlM (readKind S host) Parse.initial with
  | error failure =>
    -- the line makes the first file fail
    left
    rw [loaded, loadKinds_failed run]
    exact fun h => by cases h
  | ok p =>
    have start : InSection [] Parse.initial := by
      refine ⟨fun ⟨_, mem, _⟩ => ?_, fun peer => ?_⟩
      · cases mem
      · cases peer
    have step : ∀ kinds p kind p', InSection kinds p → readKind S host p kind = .ok p' →
        InSection (kinds ++ [kind]) p' := fun _ _ _ _ inv h => inv.step h
    have inv := Runs.invariant_foldlM step start run
    rw [List.nil_append] at inv
    by_cases peers : p.cfg.peers = []
    · -- the line leaves the loop in [Interface]: it is the header that the second file lacks
      right
      have inside : p.section_ = .interface := by
        cases hsection : p.section_ with
        | none => exact absurd hsection (inv.entered visible)
        | interface => rfl
        | peer => exact absurd peers (inv.peers hsection)
      obtain ⟨cfg', loaded', -⟩ : ∃ cfg, loadKinds S host p [plainAddress] = some cfg ∧
        cfg.peers = [] := loadKinds_plainAddress inside peers
      rw [loadKinds_append run, loadKinds_headlessFile, fileKinds_headlessFile, loaded']
      exact fun h => by cases h
    · -- the line adds a peer to the first file
      left
      intro same
      rw [loadKinds_append run, loaded] at same
      exact loadKinds_peers same peers nobody

/-! ## The law -/

/-- **When comments and blank lines do not matter.** Take any class of them. Inserting lines of the
class, at any line boundaries of any file, never changes what the file loads as exactly when the
loop takes every piece of every line of the class for blank. It does so for all that fit its buffer,
and for all blank lines. -/
theorem comments_ignored_iff (P : Bytes → Prop) (quiet : ∀ line, P line → Quiet line) :
    ((∀ file file', 0 ∉ file → Inserted P file file' →
        (configLoad S host (.ok file')).toOption = (configLoad S host (.ok file)).toOption) ↔
      ∀ line, P line → Unread line) ∧
    (∀ line, Quiet line → line.length ≤ 511 → Unread line) ∧
    ∀ line, line.all isspace = true → Unread line := by
  refine ⟨⟨fun ignored line hline => ?_, fun unread file file' _ inserted => ?_⟩,
    fun line hquiet short => hquiet.unread_short (Nat.lt_succ_of_le short),
    fun line white => unread_white white⟩
  · by_contra read
    have visible : ∃ kind ∈ fileKinds line, kind ≠ .blank := by
      rw [unread_iff, fileKinds, significant, List.filter_eq_nil_iff] at read
      simp only [not_forall, not_not] at read
      obtain ⟨kind, mem, shown⟩ := read
      exact ⟨kind, List.mem_filter.mpr ⟨mem, shown⟩, by simpa using shown⟩
    have plain := (quiet line hline).oneLine
    have probe (file : Bytes) (terminated : 0 ∉ file) :
        loadKinds S host Parse.initial (fileKinds line ++ fileKinds file) =
          loadKinds S host Parse.initial (fileKinds file) := by
      have same := ignored file (line ++ 10 :: file) terminated (.insert hline (.same file))
      rwa [configLoad_toOption, configLoad_toOption, fileKinds_line plain] at same
    rcases loadKinds_probe visible with changed | changed
    · exact changed (probe plainFile (by decide))
    · exact changed (probe headlessFile (by decide))
  · rw [configLoad_toOption, configLoad_toOption,
      inserted.fileKinds_eq (fun line hline => (quiet line hline).oneLine) unread]

/-- A comment that fits the buffer. -/
def shortComment : Bytes := ascii "  # ListenPort = 1"

theorem shortComment_quiet : Quiet shortComment where
  oneLine := by decide
  terminated := by decide
  quiet := .inr ⟨ascii "  ", 35, ascii " ListenPort = 1", rfl, rfl, .inl rfl⟩

theorem comments_ignored_iff_shortComment :
    Quiet shortComment ∧
      ((∀ file file', 0 ∉ file → Inserted (· = shortComment) file file' →
          (configLoad reference .little (.ok file')).toOption =
            (configLoad reference .little (.ok file)).toOption) ↔
        ∀ line, line = shortComment → Unread line) ∧
      (∀ line, Quiet line → line.length ≤ 511 → Unread line) ∧
      ∀ line, line.all isspace = true → Unread line :=
  ⟨shortComment_quiet, comments_ignored_iff _ fun line h => by rw [h]; exact shortComment_quiet⟩

/-- The same comment, with the setting moved past the end of the buffer. -/
def longComment : Bytes := 35 :: List.replicate 510 32 ++ ascii "ListenPort = 1"

def commentedFile : Bytes :=
  ascii "[Interface]" ++ 10 :: (longComment ++ 10 :: ascii "Address = 10.0.0.1/24\n")

/-- **The end of a long comment is read as a line of its own.** With the comment, the file sets a
port that it does not set without. -/
theorem long_comment_parsed :
    Quiet longComment ∧ Inserted (· = longComment) plainFile commentedFile ∧
      (configLoad reference .little (.ok plainFile)).toOption.map Config.listenPort = some 51820 ∧
      (configLoad reference .little (.ok commentedFile)).toOption.map Config.listenPort =
        some 1 := by
  refine ⟨⟨by decide +kernel, by decide +kernel, ?_⟩, ?_, by decide +kernel, by decide +kernel⟩
  · exact .inr ⟨[], 35, List.replicate 510 32 ++ ascii "ListenPort = 1", rfl, rfl, .inl rfl⟩
  · have plain : 10 ∉ ascii "[Interface]" := by decide
    have first : plainFile = ascii "[Interface]" ++ 10 :: ascii "Address = 10.0.0.1/24\n" := by
      decide
    rw [first]
    exact .keep plain (.insert rfl (.same _))

end EdgarVPN
