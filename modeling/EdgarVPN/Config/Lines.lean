import EdgarVPN.Config.Load
import EdgarVPN.Lib.Text

/-!
# What the lines of a configuration file say

`lineKind` is what a line is and `interfaceSetting`, `peerSetting` are what a key and its value set,
apart from the state of the loop. A pass of the loop that does not fail does what its line says:
`Reads` has one constructor for each way to pass, and `parseLine_ok` says that there are no others.
-/

set_option autoImplicit false

namespace EdgarVPN

open CString

/-! ## Lines -/

/-- What a line is to the loop. -/
inductive LineKind where
  /-- Empty, or a comment. -/
  | blank
  | header (name : Bytes)
  | unterminated
  | pair (key value : Bytes)
  | other
deriving DecidableEq

/-- The kind of the line in the buffer. -/
def lineKind (line : Bytes) : LineKind :=
  match trim (ofBuffer line) with
  | [] => .blank
  | c :: rest =>
    if c = 35 ∨ c = 59 then
      .blank
    else if c = 91 then
      match strchr 93 rest with
      | none => .unterminated
      | some (name, _) => .header name
    else
      match strchr 61 (c :: rest) with
      | none => .other
      | some (before, after) => .pair (trim before) (trim after)

/-- The newline is white space. -/
theorem trim_newline (s : Bytes) : trim (s ++ [10]) = trim s := by
  have space : isspace 10 = true := by decide
  unfold trim
  rw [List.dropWhile_append]
  split
  · next empty =>
    rw [List.isEmpty_iff.mp empty, List.dropWhile_cons, space]
    rfl
  · rw [List.reverse_append, List.reverse_singleton, List.singleton_append, List.dropWhile_cons,
      space]
    rfl

/-- `trim` keeps a text from its first visible character on. -/
theorem trim_visible {space : Bytes} {c : UInt8} (white : space.all isspace = true)
    (visible : isspace c = false) (text : Bytes) :
    ∃ rest, trim (space ++ c :: text) = c :: rest := by
  rw [trim, List.dropWhile_append_of_pos (List.all_eq_true.mp white), List.dropWhile_cons, visible]
  simp only [Bool.false_eq_true, if_false, List.reverse_cons]
  rw [List.dropWhile_append]
  split
  · rw [List.dropWhile_cons, visible]
    exact ⟨[], rfl⟩
  · rw [List.reverse_append]
    exact ⟨_, rfl⟩

/-- A line is the same with its newline and without. -/
theorem lineKind_newline (line : Bytes) : lineKind (line ++ [10]) = lineKind line := by
  have text : trim (ofBuffer (line ++ [10])) = trim (ofBuffer line) := by
    by_cases terminated : 0 ∈ line
    · obtain ⟨before, after, rfl, plain⟩ := List.eq_append_cons_of_mem terminated
      have cut (rest : Bytes) : ofBuffer (before ++ 0 :: rest) = before := by
        unfold ofBuffer
        rw [List.takeWhile_append_of_pos]
        · simp
        · intro c hc
          simp only [ne_eq, decide_not, Bool.not_eq_eq_eq_not, Bool.not_true,
            decide_eq_false_iff_not]
          rintro rfl
          exact plain hc
      rw [List.append_assoc, List.cons_append, cut, cut]
    · have terminated' : 0 ∉ line ++ [10] := by simpa using terminated
      rw [ofBuffer_eq_self terminated, ofBuffer_eq_self terminated', trim_newline]
  rw [lineKind, lineKind, text]

/-- The name of the section a line opens. -/
def headerName (line : Bytes) : Option Bytes :=
  match lineKind line with
  | .header name => some name
  | _ => none

/-- A line opens a section of the given name, in any case. -/
def opens (name line : Bytes) : Bool := (headerName line).any (strcasecmp · name)

theorem opens_of_header {name found line : Bytes} (h : lineKind line = .header found) :
    opens name line = strcasecmp found name := by
  rw [opens, headerName, h]
  rfl

theorem headerName_eq_none (line : Bytes) (h : ∀ name, lineKind line ≠ .header name) :
    headerName line = none := by
  unfold headerName
  split
  · next name hname => exact absurd hname (h name)
  · rfl

theorem opens_eq_false {name line : Bytes} (h : headerName line = none) :
    opens name line = false := by
  rw [opens, h]
  rfl

/-- A text is compared to at most one of two different names. -/
theorem strcasecmp_unique {s t u : Bytes} (h : strcasecmp s t = true)
    (hne : strcasecmp t u = false) : strcasecmp s u = false := by
  simp only [strcasecmp, beq_iff_eq, beq_eq_false_iff_ne] at *
  rw [h]
  exact hne

/-! ## Settings -/

/-- What a key of [Interface] sets. -/
inductive InterfaceSetting where
  | name (value : Bytes)
  | deviceName (value : Bytes)
  | address (addr mask : Bytes)
  | listenPort (port : UInt16)
  | privateKey (sk : SecretKey)

/-- What a key of [Peer] sets. -/
inductive PeerSetting where
  | endpoint (host : Bytes) (port : UInt16)
  | publicKey (pk : PublicKey)
  | role (role : CryptoRole)
  | allowedIPs (addr : InAddr) (length : UInt32)

def parseRole (value : Bytes) : Option CryptoRole :=
  if strcasecmp value (ascii "initiator") then some .initiator
  else if strcasecmp value (ascii "responder") then some .responder
  else none

variable (S : Sodium) (host : Endian)

/-- The setting of a key of [Interface] and its value. -/
def interfaceSetting (key value : Bytes) : Option InterfaceSetting :=
  if strcasecmp key (ascii "Name") then
    if value.length ≥ configMaxName then none else some (.name value)
  else if strcasecmp key (ascii "DeviceName") then
    if value.length ≥ ifNameSize then none else some (.deviceName value)
  else if strcasecmp key (ascii "Address") then
    (parseCidr host value inetAddrStrLen inetAddrStrLen).map fun (addr, mask) => .address addr mask
  else if strcasecmp key (ascii "ListenPort") then
    (parsePort value).map .listenPort
  else if strcasecmp key (ascii "PrivateKey") then
    (cryptoDecodeBase64 S value cryptoSecretKeyBytes).map .privateKey
  else
    none

/-- The setting of a key of [Peer] and its value. -/
def peerSetting (key value : Bytes) : Option PeerSetting :=
  if strcasecmp key (ascii "Endpoint") then
    (parseEndpointValue value configMaxHost).map fun (name, port) => .endpoint name port
  else if strcasecmp key (ascii "PublicKey") then
    (cryptoDecodeBase64 S value cryptoPublicKeyBytes).map .publicKey
  else if strcasecmp key (ascii "Role") then
    (parseRole value).map .role
  else if strcasecmp key (ascii "AllowedIPs") then
    (parseIpPrefix value).map fun (addr, length) => .allowedIPs addr length
  else
    none

/-- The state after a key of [Interface]. -/
def InterfaceSetting.put (p : Parse) : InterfaceSetting → Parse
  | .name value => { p with cfg := { p.cfg with name := value } }
  | .deviceName value => { p with cfg := { p.cfg with tunName := value } }
  | .address addr mask =>
    { p with cfg := { p.cfg with tunAddress := addr, tunNetmask := mask }, haveAddress := true }
  | .listenPort port => { p with cfg := { p.cfg with listenPort := port } }
  | .privateKey sk => { p with cfg := { p.cfg with privateKey := sk, hasPrivateKey := true } }

/-- The peer after a key of [Peer]. -/
def PeerSetting.set : PeerSetting → ConfigPeer → ConfigPeer
  | .endpoint name port, q => { q with host := name, port := port }
  | .publicKey pk, q => { q with publicKey := pk }
  | .role r, q => { q with role := r }
  | .allowedIPs addr length, q => { q with allowedAddress := addr, allowedPrefix := length }

/-- The flags after a key of [Peer]. -/
def PeerSetting.flag (p : Parse) : PeerSetting → Parse
  | .endpoint _ _ => { p with haveEndpoint := true }
  | .publicKey _ => { p with havePubkey := true }
  | .role _ => { p with haveRole := true }
  | .allowedIPs _ _ => { p with haveAllowed := true }

/-- The state after a key of [Peer]. -/
def PeerSetting.put (p : Parse) (s : PeerSetting) : Parse := s.flag (p.modifyCur s.set)

theorem PeerSetting.put_cfg (s : PeerSetting) (p : Parse) : (s.put p).cfg =
    { p.cfg with peers := p.cfg.peers.modify (p.cfg.peers.length - 1) s.set } := by
  cases s <;> rfl

theorem InterfaceSetting.put_section (s : InterfaceSetting) (p : Parse) :
    (s.put p).section_ = p.section_ := by
  cases s <;> rfl

theorem PeerSetting.put_section (s : PeerSetting) (p : Parse) :
    (s.put p).section_ = p.section_ := by
  cases s <;> rfl

theorem PeerSetting.put_haveAddress (s : PeerSetting) (p : Parse) :
    (s.put p).haveAddress = p.haveAddress := by
  cases s <;> rfl

/-- The open peer is the last. -/
theorem modify_last {α : Type} (xs : List α) (x : α) (f : α → α) :
    (xs ++ [x]).modify ((xs ++ [x]).length - 1) f = xs ++ [f x] := by
  rw [List.length_append, List.length_singleton, Nat.add_sub_cancel]
  induction xs with
  | nil => rfl
  | cons y ys ih => exact congrArg (y :: ·) ih

/-- A key sets what its value reads as, or fails. -/
theorem ok_iff_setting {σ : Type} {f : σ → Parse} {q p' : Parse} (t : σ) (h : q = f t) :
    (Except.ok q : Except ConfigError Parse) = .ok p' ↔ ∃ s, some t = some s ∧ p' = f s := by
  constructor
  · rintro ⟨⟩
    exact ⟨t, rfl, h⟩
  · rintro ⟨s, ⟨⟩, rfl⟩
    rw [h]

theorem error_iff_setting {σ : Type} {f : σ → Parse} {e : ConfigError} {p' : Parse} :
    (Except.error e : Except ConfigError Parse) = .ok p' ↔ ∃ s, none = some s ∧ p' = f s := by
  constructor
  · exact nofun
  · rintro ⟨s, ⟨⟩, -⟩

theorem parseInterfaceKey_ok {p p' : Parse} {key value : Bytes} :
    parseInterfaceKey S host p key value = .ok p' ↔
      ∃ s, interfaceSetting S host key value = some s ∧ p' = s.put p := by
  unfold parseInterfaceKey interfaceSetting
  split
  · split
    · exact error_iff_setting
    · exact ok_iff_setting (InterfaceSetting.name value) rfl
  split
  · split
    · exact error_iff_setting
    · exact ok_iff_setting (InterfaceSetting.deviceName value) rfl
  split
  · cases parseCidr host value inetAddrStrLen inetAddrStrLen with
    | none => exact error_iff_setting
    | some found => exact ok_iff_setting (InterfaceSetting.address found.1 found.2) rfl
  split
  · cases parsePort value with
    | none => exact error_iff_setting
    | some port => exact ok_iff_setting (InterfaceSetting.listenPort port) rfl
  split
  · cases cryptoDecodeBase64 S value cryptoSecretKeyBytes with
    | none => exact error_iff_setting
    | some sk => exact ok_iff_setting (InterfaceSetting.privateKey sk) rfl
  · exact error_iff_setting

theorem parsePeerKey_ok {p p' : Parse} {key value : Bytes} :
    parsePeerKey S p key value = .ok p' ↔
      ∃ s, peerSetting S key value = some s ∧ p' = s.put p := by
  unfold parsePeerKey peerSetting
  split
  · cases parseEndpointValue value configMaxHost with
    | none => exact error_iff_setting
    | some found => exact ok_iff_setting (PeerSetting.endpoint found.1 found.2) rfl
  split
  · cases cryptoDecodeBase64 S value cryptoPublicKeyBytes with
    | none => exact error_iff_setting
    | some pk => exact ok_iff_setting (PeerSetting.publicKey pk) rfl
  split
  · unfold parseRole
    split
    · exact ok_iff_setting (PeerSetting.role .initiator) rfl
    · split
      · exact ok_iff_setting (PeerSetting.role .responder) rfl
      · exact error_iff_setting
  split
  · cases parseIpPrefix value with
    | none => exact error_iff_setting
    | some found => exact ok_iff_setting (PeerSetting.allowedIPs found.1 found.2) rfl
  · exact error_iff_setting

/-! ## A pass of the loop -/

def Parse.nextLine (p : Parse) : Parse := { p with lineno := p.lineno + 1 }

/-- The state after the header of an [Interface] section. -/
def Parse.openInterface (p : Parse) : Parse := { p with section_ := .interface }

/-- The state after the header of a [Peer] section. -/
def Parse.openPeer (p : Parse) : Parse :=
  { p with
    section_ := .peer
    cfg := { p.cfg with peers := p.cfg.peers ++ [ConfigPeer.zero] }
    haveEndpoint := false
    havePubkey := false
    haveRole := false
    haveAllowed := false }

/-- `parseHeader` after it has found the name. -/
def enterSection (p : Parse) (name : Bytes) : Except ConfigError Parse :=
  if p.incomplete then
    .error (.previousPeerIncomplete p.lineno)
  else if strcasecmp name (ascii "Interface") then
    .ok p.openInterface
  else if strcasecmp name (ascii "Peer") then
    if p.cfg.peers.length ≥ configMaxPeers then .error (.tooManyPeers p.lineno) else .ok p.openPeer
  else
    .error (.unknownSection p.lineno name)

/-- A pass of the loop, by the kind of its line. -/
theorem parseLine_eq (p : Parse) (line : Bytes) : parseLine S host p line =
    match lineKind line with
    | .blank => .ok p.nextLine
    | .header name => enterSection p.nextLine name
    | .unterminated => .error (.unterminatedHeader p.nextLine.lineno)
    | .pair key value =>
      match p.section_ with
      | .interface => parseInterfaceKey S host p.nextLine key value
      | .peer => parsePeerKey S p.nextLine key value
      | .none => .error (.keyOutsideSection p.nextLine.lineno)
    | .other => .error (.expectedKeyValue p.nextLine.lineno) := by
  unfold parseLine lineKind
  cases trim (ofBuffer line) with
  | nil => rfl
  | cons c rest =>
    dsimp only
    by_cases comment : c = 35 ∨ c = 59
    · rw [if_pos comment, if_pos comment]
      rfl
    rw [if_neg comment, if_neg comment]
    by_cases bracket : c = 91
    · rw [if_pos bracket, if_pos bracket, parseHeader]
      cases strchr 93 rest with
      | none => rfl
      | some found => rfl
    rw [if_neg bracket, if_neg bracket]
    cases strchr 61 (c :: rest) with
    | none => rfl
    | some found => rfl

/-- A pass of the loop that does not fail, from `p` on a line. -/
inductive Reads (p : Parse) (line : Bytes) : Parse → Prop where
  | blank : lineKind line = .blank → Reads p line p.nextLine
  | openInterface {name : Bytes} :
      lineKind line = .header name → strcasecmp name (ascii "Interface") = true →
      p.incomplete = false → Reads p line p.nextLine.openInterface
  | openPeer {name : Bytes} :
      lineKind line = .header name → strcasecmp name (ascii "Peer") = true →
      p.incomplete = false → p.cfg.peers.length < configMaxPeers → Reads p line p.nextLine.openPeer
  | interfaceSetting {key value : Bytes} {s : InterfaceSetting} :
      lineKind line = .pair key value → p.section_ = .interface →
      interfaceSetting S host key value = some s → Reads p line (s.put p.nextLine)
  | peerSetting {key value : Bytes} {s : PeerSetting} :
      lineKind line = .pair key value → p.section_ = .peer →
      peerSetting S key value = some s → Reads p line (s.put p.nextLine)

theorem enterSection_reads {p p' : Parse} {line name : Bytes} (kind : lineKind line = .header name)
    (h : enterSection p.nextLine name = .ok p') : Reads S host p line p' := by
  unfold enterSection at h
  split at h
  · cases h
  next complete =>
  have complete : p.incomplete = false := eq_false_of_ne_true complete
  split at h
  · next isInterface =>
    cases h
    exact .openInterface kind isInterface complete
  split at h
  · next isPeer =>
    split at h
    · cases h
    · next room =>
      cases h
      exact .openPeer kind isPeer complete (Nat.lt_of_not_le room)
  · cases h

theorem parseLine_reads {p p' : Parse} {line : Bytes} (h : parseLine S host p line = .ok p') :
    Reads S host p line p' := by
  rw [parseLine_eq] at h
  cases kind : lineKind line with
  | blank =>
    rw [kind] at h
    cases h
    exact .blank kind
  | header name =>
    rw [kind] at h
    exact enterSection_reads S host kind h
  | unterminated =>
    rw [kind] at h
    cases h
  | other =>
    rw [kind] at h
    cases h
  | pair key value =>
    rw [kind] at h
    dsimp only at h
    split at h
    · next inside =>
      obtain ⟨s, hs, rfl⟩ := (parseInterfaceKey_ok S host).mp h
      exact .interfaceSetting kind inside hs
    · next inside =>
      obtain ⟨s, hs, rfl⟩ := (parsePeerKey_ok S).mp h
      exact .peerSetting kind inside hs
    · cases h

theorem Reads.parseLine {p p' : Parse} {line : Bytes} (h : Reads S host p line p') :
    parseLine S host p line = .ok p' := by
  rw [parseLine_eq]
  cases h with
  | blank kind => rw [kind]
  | openInterface kind isInterface complete =>
    rw [kind]
    have complete : p.nextLine.incomplete = false := complete
    simp only [enterSection, complete, isInterface, Bool.false_eq_true, if_false, if_true]
  | openPeer kind isPeer complete room =>
    rw [kind]
    have complete : p.nextLine.incomplete = false := complete
    have room : ¬ p.nextLine.cfg.peers.length ≥ configMaxPeers := Nat.not_le_of_lt room
    have notInterface := strcasecmp_unique (u := ascii "Interface") isPeer (by decide)
    simp only [enterSection, complete, isPeer, notInterface, if_neg room, Bool.false_eq_true,
      if_false, if_true]
  | interfaceSetting kind inside set =>
    rw [kind, inside]
    exact (parseInterfaceKey_ok S host).mpr ⟨_, set, rfl⟩
  | peerSetting kind inside set =>
    rw [kind, inside]
    exact (parsePeerKey_ok S).mpr ⟨_, set, rfl⟩

/-- **A pass of the loop that does not fail does what its line says.** -/
theorem parseLine_ok {p p' : Parse} {line : Bytes} :
    parseLine S host p line = .ok p' ↔ Reads S host p line p' :=
  ⟨parseLine_reads S host, Reads.parseLine S host⟩

variable {S host}

/-- A file that is accepted passes the loop and then the last checks. -/
theorem configLoad_ok {contents : Bytes} {cfg : Config}
    (h : configLoad S host (.ok contents) = .ok cfg) :
    ∃ p, (fgetsLines configMaxLine contents.length contents).foldlM (parseLine S host)
        Parse.initial = .ok p ∧ parseEnd p = .ok cfg := by
  rw [configLoad] at h
  cases hp : (fgetsLines configMaxLine contents.length contents).foldlM (parseLine S host)
      Parse.initial with
  | error failure =>
    rw [hp] at h
    cases h
  | ok p =>
    rw [hp] at h
    exact ⟨p, rfl, h⟩

end EdgarVPN
