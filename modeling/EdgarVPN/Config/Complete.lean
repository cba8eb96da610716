import EdgarVPN.Config.Lines
import EdgarVPN.Config.Values
import EdgarVPN.Lib.Runs
import EdgarVPN.Crypto.Reference
import EdgarVPN.Daemon.Routing

/-!
# An accepted configuration is complete and in range

**What is proved** (`accepted_complete`). Whatever the file holds, the record `configLoad` returns
has its address, mask, port, device name and keys in range, and every peer of it was given each of
its four keys by a line of its own [Peer] section.

The loop's invariant is in two parts. `InterfaceSound` is about the keys of [Interface].
`PeersSound` is about the peers: one whose section is behind the loop was given all four keys there,
and the one whose section is open has been given the keys its flags say, by lines after its header.
A section is closed by a header or by the end of the file, and both are let through only where the
flags are all set (`PeersSound.given`); they are cleared with the header that opens the next.

Lines are those the loop reads, which `fgets` has cut at 511 bytes.
-/

set_option autoImplicit false

namespace EdgarVPN

open CString

/-! ## Values in range -/

/-- The range of what a key of [Interface] sets. -/
def InterfaceSetting.InRange : InterfaceSetting → Prop
  | .name value => value.length < configMaxName
  | .deviceName value => value.length < ifNameSize
  | .address addr mask => (∃ a, addr = InAddr.inetNtop a) ∧
      ∃ length, length ≤ 32 ∧ mask = InAddr.inetNtop (InAddr.netmask length)
  | .listenPort port => 1 ≤ port.toNat
  | .privateKey _ => True

/-- The range of what a key of [Peer] sets. -/
def PeerSetting.InRange : PeerSetting → Prop
  | .endpoint name port => name ≠ [] ∧ name.length < configMaxHost ∧ 1 ≤ port.toNat
  | .publicKey _ => True
  | .role _ => True
  | .allowedIPs _ length => length.toNat ≤ 32

theorem interfaceSetting_inRange {S : Sodium} {host : Endian} {key value : Bytes}
    {s : InterfaceSetting} (h : interfaceSetting S host key value = some s) : s.InRange := by
  unfold interfaceSetting at h
  split at h
  · split at h
    · cases h
    · next short =>
      cases h
      exact Nat.lt_of_not_le short
  split at h
  · split at h
    · cases h
    · next short =>
      cases h
      exact Nat.lt_of_not_le short
  split at h
  · obtain ⟨found, hfound, rfl⟩ := Option.map_eq_some_iff.mp h
    obtain ⟨addr, length, hprefix, haddr, hmask⟩ := parseCidr_eq_some.mp hfound
    exact ⟨⟨addr, haddr⟩, length.toNat, parseIpPrefix_le hprefix, hmask⟩
  split at h
  · obtain ⟨port, hport, rfl⟩ := Option.map_eq_some_iff.mp h
    exact parsePort_pos hport
  split at h
  · obtain ⟨sk, -, rfl⟩ := Option.map_eq_some_iff.mp h
    trivial
  · cases h

theorem peerSetting_inRange {S : Sodium} {key value : Bytes} {s : PeerSetting}
    (h : peerSetting S key value = some s) : s.InRange := by
  unfold peerSetting at h
  split at h
  · obtain ⟨found, hfound, rfl⟩ := Option.map_eq_some_iff.mp h
    obtain ⟨-, nonempty, fits, portStr, -, hport⟩ := parseEndpointValue_eq_some hfound
    exact ⟨nonempty, fits, parsePort_pos hport⟩
  split at h
  · obtain ⟨pk, -, rfl⟩ := Option.map_eq_some_iff.mp h
    trivial
  split at h
  · obtain ⟨role, -, rfl⟩ := Option.map_eq_some_iff.mp h
    trivial
  split at h
  · obtain ⟨found, hfound, rfl⟩ := Option.map_eq_some_iff.mp h
    exact parseIpPrefix_le hfound
  · cases h

/-! ## Sections -/

/-- The lines end inside a section: `before` are those before its header, `body` those after it. -/
structure OpenSection (name : Bytes) (lines before body : List Bytes) : Prop where
  header : ∃ header, opens name header = true ∧ lines = before ++ header :: body
  inside : ∀ line ∈ body, headerName line = none

/-- A section of the file, up to the next header or the end. -/
def HasSection (name : Bytes) (lines before body : List Bytes) : Prop :=
  ∃ read after, lines = read ++ after ∧ OpenSection name read before body ∧
    ∀ next ∈ after.head?, (headerName next).isSome

theorem OpenSection.new {name line : Bytes} (lines : List Bytes) (h : opens name line = true) :
    OpenSection name (lines ++ [line]) lines [] :=
  ⟨⟨line, h, rfl⟩, nofun⟩

theorem OpenSection.snoc {name line : Bytes} {lines before body : List Bytes}
    (h : OpenSection name lines before body) (hline : headerName line = none) :
    OpenSection name (lines ++ [line]) before (body ++ [line]) := by
  obtain ⟨⟨header, hopens, rfl⟩, inside⟩ := h
  refine ⟨⟨header, hopens, by rw [List.append_assoc, List.cons_append]⟩, ?_⟩
  intro l hl
  rcases List.mem_append.mp hl with hl | hl
  · exact inside l hl
  · cases List.mem_singleton.mp hl
    exact hline

theorem OpenSection.hasSection {name : Bytes} {lines before body : List Bytes}
    (h : OpenSection name lines before body) : HasSection name lines before body :=
  ⟨lines, [], (List.append_nil lines).symm, h, nofun⟩

/-- A section stays where it is, and keeps its lines, when one more line is read. -/
theorem HasSection.snoc {name : Bytes} {lines before body : List Bytes} (line : Bytes)
    (h : HasSection name lines before body) :
    ∃ body', body ⊆ body' ∧ HasSection name (lines ++ [line]) before body' := by
  obtain ⟨read, after, rfl, hopen, ended⟩ := h
  cases after with
  | cons next after =>
    refine ⟨body, List.Subset.refl body, read, next :: after ++ [line], ?_, hopen, ended⟩
    rw [List.append_assoc]
  | nil =>
    rw [List.append_nil]
    cases hline : headerName line with
    | none =>
      exact ⟨body ++ [line], List.subset_append_left body [line], (hopen.snoc hline).hasSection⟩
    | some found =>
      refine ⟨body, List.Subset.refl body, read, [line], rfl, hopen, ?_⟩
      rintro next ⟨⟩
      rw [hline]
      rfl

/-! ## What was given -/

/-- The keys of [Peer]. -/
inductive PeerKey where
  | endpoint
  | publicKey
  | role
  | allowedIPs
deriving DecidableEq

/-- The key that makes a setting. -/
def PeerSetting.key : PeerSetting → PeerKey
  | .endpoint _ _ => .endpoint
  | .publicKey _ => .publicKey
  | .role _ => .role
  | .allowedIPs _ _ => .allowedIPs

/-- What the record holds for a key. -/
def ConfigPeer.setting (q : ConfigPeer) : PeerKey → PeerSetting
  | .endpoint => .endpoint q.host q.port
  | .publicKey => .publicKey q.publicKey
  | .role => .role q.role
  | .allowedIPs => .allowedIPs q.allowedAddress q.allowedPrefix

/-- The flag of a key. -/
def Parse.has (p : Parse) : PeerKey → Bool
  | .endpoint => p.haveEndpoint
  | .publicKey => p.havePubkey
  | .role => p.haveRole
  | .allowedIPs => p.haveAllowed

theorem PeerSetting.setting_set (s : PeerSetting) (q : ConfigPeer) (key : PeerKey) :
    (s.set q).setting key = if key = s.key then s else q.setting key := by
  cases s <;> cases key <;> rfl

theorem PeerSetting.has_put (s : PeerSetting) (p : Parse) (key : PeerKey) :
    (s.put p).has key = if key = s.key then true else p.has key := by
  cases s <;> cases key <;> rfl

/-- Outside of an incomplete section: no [Peer] section is open, or it has all its keys. -/
theorem Parse.has_of_complete {p : Parse} (h : p.incomplete = false) (inside : p.section_ = .peer)
    (key : PeerKey) : p.has key = true := by
  simp only [Parse.incomplete, inside, beq_self_eq_true, Bool.true_and, Bool.or_eq_false_iff,
    Bool.not_eq_eq_eq_not, Bool.not_false] at h
  obtain ⟨⟨⟨hendpoint, hpubkey⟩, hrole⟩, hallowed⟩ := h
  cases key with
  | endpoint => exact hendpoint
  | publicKey => exact hpubkey
  | role => exact hrole
  | allowedIPs => exact hallowed

variable (S : Sodium) (host : Endian)

/-- A line of a [Peer] section makes a setting. -/
def MakesPeer (s : PeerSetting) (line : Bytes) : Prop :=
  ∃ key value, lineKind line = .pair key value ∧ peerSetting S key value = some s

/-- A line of an [Interface] section makes a setting. -/
def MakesInterface (s : InterfaceSetting) (line : Bytes) : Prop :=
  ∃ key value, lineKind line = .pair key value ∧ interfaceSetting S host key value = some s

/-- The number of [Peer] headers. -/
def peerHeaders (lines : List Bytes) : Nat := lines.countP (opens (ascii "Peer"))

/-- What the record holds for each key of a peer was set by a line of the peer's section, the one
after `i` others. -/
def PeerGiven (lines : List Bytes) (i : Nat) (q : ConfigPeer) : Prop :=
  ∃ before body, HasSection (ascii "Peer") lines before body ∧ peerHeaders before = i ∧
    ∀ key, ∃ line ∈ body, MakesPeer S (q.setting key) line

/-- The address and the mask were set by a line of an [Interface] section. -/
def AddressGiven (lines : List Bytes) (cfg : Config) : Prop :=
  ∃ before body, HasSection (ascii "Interface") lines before body ∧
    ∃ line ∈ body, MakesInterface S host (.address cfg.tunAddress cfg.tunNetmask) line

variable {S host}

theorem PeerGiven.snoc {lines : List Bytes} {i : Nat} {q : ConfigPeer} (line : Bytes)
    (h : PeerGiven S lines i q) : PeerGiven S (lines ++ [line]) i q := by
  obtain ⟨before, body, hsection, hi, given⟩ := h
  obtain ⟨body', hsub, hsection'⟩ := hsection.snoc line
  refine ⟨before, body', hsection', hi, fun key => ?_⟩
  obtain ⟨l, hl, makes⟩ := given key
  exact ⟨l, hsub hl, makes⟩

theorem AddressGiven.snoc {lines : List Bytes} {cfg : Config} (line : Bytes)
    (h : AddressGiven S host lines cfg) : AddressGiven S host (lines ++ [line]) cfg := by
  obtain ⟨before, body, hsection, l, hl, makes⟩ := h
  obtain ⟨body', hsub, hsection'⟩ := hsection.snoc line
  exact ⟨before, body', hsection', l, hsub hl, makes⟩

/-- Every value of a peer that was given its keys is in range. -/
theorem PeerGiven.inRange {lines : List Bytes} {i : Nat} {q : ConfigPeer}
    (h : PeerGiven S lines i q) (key : PeerKey) : (q.setting key).InRange := by
  obtain ⟨_, _, _, _, given⟩ := h
  obtain ⟨_, _, _, _, _, makes⟩ := given key
  exact peerSetting_inRange makes

/-! ## The keys of [Interface] -/

/-- The part of the loop's invariant that is about [Interface]. -/
structure InterfaceSound (S : Sodium) (host : Endian) (lines : List Bytes) (p : Parse) : Prop where
  port : 1 ≤ p.cfg.listenPort.toNat
  device : p.cfg.tunName.length < ifNameSize
  address : p.haveAddress = true → AddressGiven S host lines p.cfg
  inside : p.section_ = .interface → ∃ before body,
    OpenSection (ascii "Interface") lines before body

theorem InterfaceSound.initial : InterfaceSound S host [] Parse.initial :=
  ⟨by decide, by decide, nofun, nofun⟩

theorem InterfaceSound.step {lines : List Bytes} {line : Bytes} {p p' : Parse}
    (inv : InterfaceSound S host lines p) (h : Reads S host p line p') :
    InterfaceSound S host (lines ++ [line]) p' := by
  cases h with
  | blank kind =>
    refine ⟨inv.port, inv.device, fun have_ => (inv.address have_).snoc line, fun inside => ?_⟩
    obtain ⟨before, body, hopen⟩ := inv.inside inside
    exact ⟨before, body ++ [line], hopen.snoc (headerName_eq_none line (by rw [kind]; exact nofun))⟩
  | openInterface kind isInterface complete =>
    refine ⟨inv.port, inv.device, fun have_ => (inv.address have_).snoc line, fun _ => ?_⟩
    exact ⟨lines, [], OpenSection.new lines (by rw [opens_of_header kind]; exact isInterface)⟩
  | openPeer kind isPeer complete room =>
    exact ⟨inv.port, inv.device, fun have_ => (inv.address have_).snoc line, nofun⟩
  | @peerSetting key value s kind inside set =>
    have hcfg := s.put_cfg p.nextLine
    refine ⟨by rw [hcfg]; exact inv.port, by rw [hcfg]; exact inv.device, fun have_ => ?_, ?_⟩
    · rw [PeerSetting.put_haveAddress] at have_
      rw [hcfg]
      exact (inv.address have_).snoc line
    · intro hinside
      rw [PeerSetting.put_section] at hinside
      exact absurd (hinside.symm.trans inside) nofun
  | @interfaceSetting key value s kind inside set =>
    have inRange := interfaceSetting_inRange set
    obtain ⟨before, body, hopen⟩ := inv.inside inside
    have hopen := hopen.snoc (headerName_eq_none line (by rw [kind]; exact nofun))
    have hinside : (s.put p.nextLine).section_ = .interface → ∃ before body,
        OpenSection (ascii "Interface") (lines ++ [line]) before body :=
      fun _ => ⟨before, body ++ [line], hopen⟩
    cases s with
    | name value =>
      exact ⟨inv.port, inv.device, fun have_ => (inv.address have_).snoc line, hinside⟩
    | deviceName value =>
      exact ⟨inv.port, inRange, fun have_ => (inv.address have_).snoc line, hinside⟩
    | address addr mask =>
      refine ⟨inv.port, inv.device, fun _ => ?_, hinside⟩
      exact ⟨before, body ++ [line], hopen.hasSection, line,
        List.mem_append_right body List.mem_cons_self, key, value, kind, set⟩
    | listenPort port =>
      exact ⟨inRange, inv.device, fun have_ => (inv.address have_).snoc line, hinside⟩
    | privateKey sk =>
      exact ⟨inv.port, inv.device, fun have_ => (inv.address have_).snoc line, hinside⟩

/-! ## The peers -/

/-- The part of the loop's invariant that is about the peers. -/
structure PeersSound (S : Sodium) (lines : List Bytes) (p : Parse) : Prop where
  counted : p.cfg.peers.length = peerHeaders lines
  few : p.cfg.peers.length ≤ configMaxPeers
  closed : ∀ i q, p.cfg.peers[i]? = some q → p.section_ ≠ .peer ∨ i + 1 < p.cfg.peers.length →
    PeerGiven S lines i q
  inside : p.section_ = .peer → ∃ behind cur before body, p.cfg.peers = behind ++ [cur] ∧
    OpenSection (ascii "Peer") lines before body ∧ peerHeaders before = behind.length ∧
    ∀ key, p.has key = true → ∃ line ∈ body, MakesPeer S (cur.setting key) line

theorem PeersSound.initial : PeersSound S [] Parse.initial :=
  ⟨rfl, Nat.zero_le _, nofun, nofun⟩

/-- Where the open section is complete, every peer was given its keys. -/
theorem PeersSound.given {lines : List Bytes} {p : Parse} (inv : PeersSound S lines p)
    (complete : p.incomplete = false) {i : Nat} {q : ConfigPeer}
    (hq : p.cfg.peers[i]? = some q) : PeerGiven S lines i q := by
  by_cases inside : p.section_ = .peer
  · obtain ⟨behind, cur, before, body, hpeers, hopen, hbefore, given⟩ := inv.inside inside
    by_cases hi : i + 1 < p.cfg.peers.length
    · exact inv.closed i q hq (.inr hi)
    · obtain ⟨hlt, -⟩ := List.getElem?_eq_some_iff.mp hq
      rw [hpeers, List.length_append, List.length_singleton] at hi hlt
      have hlast : i = behind.length := by omega
      rw [hpeers, hlast, List.getElem?_concat_length] at hq
      cases hq
      rw [hlast]
      exact ⟨before, body, hopen.hasSection, hbefore,
        fun key => given key (Parse.has_of_complete complete inside key)⟩
  · exact inv.closed i q hq (.inl inside)

theorem peerHeaders_snoc (lines : List Bytes) {line : Bytes} :
    peerHeaders (lines ++ [line]) = peerHeaders lines + (opens (ascii "Peer") line).toNat := by
  rw [peerHeaders, List.countP_append, List.countP_singleton]
  cases opens (ascii "Peer") line <;> rfl

/-- A line that is no header, and leaves the peers alone. -/
theorem PeersSound.keep {lines : List Bytes} {line : Bytes} {p p' : Parse}
    (inv : PeersSound S lines p) (hline : headerName line = none)
    (hpeers : p'.cfg.peers = p.cfg.peers) (hsection : p'.section_ = p.section_)
    (hhas : p'.has = p.has) : PeersSound S (lines ++ [line]) p' where
  counted := by
    rw [hpeers, inv.counted, peerHeaders_snoc, opens_eq_false hline]
    rfl
  few := by
    rw [hpeers]
    exact inv.few
  closed := by
    rw [hpeers, hsection]
    exact fun i q hq behind => (inv.closed i q hq behind).snoc line
  inside := by
    rw [hpeers, hsection, hhas]
    intro inside
    obtain ⟨behind, cur, before, body, hcur, hopen, hbefore, given⟩ := inv.inside inside
    refine ⟨behind, cur, before, body ++ [line], hcur, hopen.snoc hline, hbefore, ?_⟩
    intro key hkey
    obtain ⟨l, hl, makes⟩ := given key hkey
    exact ⟨l, List.mem_append_left [line] hl, makes⟩

/-- A [Peer] header opens the next section, with no flag set. -/
theorem PeersSound.openPeer {lines : List Bytes} {line : Bytes} {p : Parse}
    (inv : PeersSound S lines p) (isPeer : opens (ascii "Peer") line = true)
    (complete : p.incomplete = false) (room : p.cfg.peers.length < configMaxPeers) :
    PeersSound S (lines ++ [line]) p.nextLine.openPeer := by
  have hlength : p.nextLine.openPeer.cfg.peers.length = p.cfg.peers.length + 1 :=
    List.length_append
  refine ⟨?_, ?_, ?_, fun _ => ?_⟩
  · rw [hlength, peerHeaders_snoc, isPeer, inv.counted]
    rfl
  · rw [hlength]
    exact room
  · intro i q hq hi
    rw [hlength] at hi
    have hi : i < p.cfg.peers.length := by
      rcases hi with notInside | hi
      · exact absurd rfl notInside
      · exact Nat.lt_of_succ_lt_succ hi
    have hq : (p.cfg.peers ++ [ConfigPeer.zero])[i]? = some q := hq
    rw [List.getElem?_append_left hi] at hq
    exact (inv.given complete hq).snoc line
  · refine ⟨p.cfg.peers, ConfigPeer.zero, lines, [], rfl, OpenSection.new lines isPeer,
      inv.counted.symm, ?_⟩
    intro key hkey
    cases key <;> cases hkey

/-- A key of the open section sets a value and its flag. -/
theorem PeersSound.setPeer {lines : List Bytes} {line : Bytes} {p : Parse} {s : PeerSetting}
    (inv : PeersSound S lines p) (hline : headerName line = none) (inside : p.section_ = .peer)
    (makes : MakesPeer S s line) : PeersSound S (lines ++ [line]) (s.put p.nextLine) := by
  obtain ⟨behind, cur, before, body, hcur, hopen, hbefore, given⟩ := inv.inside inside
  have hpeers : (s.put p.nextLine).cfg.peers = behind ++ [s.set cur] := by
    rw [PeerSetting.put_cfg]
    show p.cfg.peers.modify (p.cfg.peers.length - 1) s.set = _
    rw [hcur, modify_last]
  have hlength : (s.put p.nextLine).cfg.peers.length = p.cfg.peers.length := by
    rw [hpeers, hcur, List.length_append, List.length_append]
    rfl
  refine ⟨?_, ?_, ?_, fun _ => ?_⟩
  · rw [hlength, peerHeaders_snoc, opens_eq_false hline]
    exact inv.counted
  · rw [hlength]
    exact inv.few
  · intro i q hq hi
    rw [hlength, PeerSetting.put_section] at hi
    have hbehind : i + 1 < p.cfg.peers.length := hi.resolve_left (fun h => h inside)
    have hlt : i < behind.length := by
      rw [hcur, List.length_append, List.length_singleton] at hbehind
      exact Nat.lt_of_succ_lt_succ hbehind
    rw [hpeers, List.getElem?_append_left hlt] at hq
    have hq : p.cfg.peers[i]? = some q := by rw [hcur, List.getElem?_append_left hlt, hq]
    exact (inv.closed i q hq (.inr hbehind)).snoc line
  · refine ⟨behind, s.set cur, before, body ++ [line], hpeers, hopen.snoc hline, hbefore, ?_⟩
    intro key hkey
    rw [PeerSetting.has_put] at hkey
    rw [PeerSetting.setting_set]
    by_cases this : key = s.key
    · rw [if_pos this]
      exact ⟨line, List.mem_append_right body List.mem_cons_self, makes⟩
    · rw [if_neg this] at hkey ⊢
      obtain ⟨l, hl, makes⟩ := given key hkey
      exact ⟨l, List.mem_append_left [line] hl, makes⟩

theorem PeersSound.step {lines : List Bytes} {line : Bytes} {p p' : Parse}
    (inv : PeersSound S lines p) (h : Reads S host p line p') :
    PeersSound S (lines ++ [line]) p' := by
  cases h with
  | blank kind => exact inv.keep (headerName_eq_none line (by rw [kind]; exact nofun)) rfl rfl rfl
  | @interfaceSetting key value s kind inside set =>
    have hline := headerName_eq_none line (by rw [kind]; exact nofun)
    cases s with
    | name value => exact inv.keep hline rfl rfl rfl
    | deviceName value => exact inv.keep hline rfl rfl rfl
    | address addr mask => exact inv.keep hline rfl rfl rfl
    | listenPort port => exact inv.keep hline rfl rfl rfl
    | privateKey sk => exact inv.keep hline rfl rfl rfl
  | openInterface kind isInterface complete =>
    have notPeer : opens (ascii "Peer") line = false := by
      rw [opens_of_header kind]
      exact strcasecmp_unique isInterface (by decide)
    refine ⟨?_, inv.few, fun i q hq _ => (inv.given complete hq).snoc line, nofun⟩
    rw [peerHeaders_snoc, notPeer]
    exact inv.counted
  | openPeer kind isPeer complete room =>
    exact inv.openPeer (by rw [opens_of_header kind]; exact isPeer) complete room
  | @peerSetting key value s kind inside set =>
    have hline := headerName_eq_none line (by rw [kind]; exact nofun)
    exact inv.setPeer hline inside ⟨key, value, kind, set⟩

/-! ## The whole file -/

/-- What the checks after the last line let through, and the record they return. -/
theorem parseEnd_ok {p : Parse} {cfg : Config} (h : parseEnd p = .ok cfg) :
    p.incomplete = false ∧ p.haveAddress = true ∧
      (0 < p.cfg.peers.length → p.cfg.hasPrivateKey = true) ∧
      ∃ device, device ≠ [] ∧ (device = p.cfg.tunName ∨ device = configDefaultDevice) ∧
        cfg = { p.cfg with tunName := device } := by
  unfold parseEnd at h
  split at h
  · cases h
  next complete =>
  split at h
  · cases h
  next address =>
  split at h
  · cases h
  next hkey =>
  refine ⟨eq_false_of_ne_true complete, ?_, ?_, ?_⟩
  · exact eq_true_of_ne_false fun no => address (by rw [no]; rfl)
  · exact fun hpeers => eq_true_of_ne_false fun no => hkey ⟨hpeers, no⟩
  · split at h
    · cases h
      exact ⟨configDefaultDevice, by decide, .inr rfl, rfl⟩
    · next given =>
      cases h
      refine ⟨p.cfg.tunName, ?_, .inl rfl, rfl⟩
      intro empty
      exact given (by rw [empty]; rfl)

/-- A record that is complete and in range, with the lines it was read from. -/
structure Config.Complete (S : Sodium) (host : Endian) (lines : List Bytes) (cfg : Config) :
    Prop where
  few : cfg.peers.length ≤ 8
  addressGiven : AddressGiven S host lines cfg
  address : ∃ a, cfg.tunAddress = InAddr.inetNtop a
  netmask : ∃ length, length ≤ 32 ∧ cfg.tunNetmask = InAddr.inetNtop (InAddr.netmask length)
  port : 1 ≤ cfg.listenPort.toNat ∧ cfg.listenPort.toNat ≤ 65535
  device : cfg.tunName ≠ [] ∧ cfg.tunName.length < ifNameSize
  privateKey : 0 < cfg.peers.length → cfg.hasPrivateKey = true
  host : ∀ q ∈ cfg.peers, q.host ≠ [] ∧ q.host.length < 256
  peerPort : ∀ q ∈ cfg.peers, 1 ≤ q.port.toNat ∧ q.port.toNat ≤ 65535
  allowed : ∀ q ∈ cfg.peers, q.allowedPrefix.toNat ≤ 32
  given : ∀ i q, cfg.peers[i]? = some q → PeerGiven S lines i q

/-- A prefix length in range never shifts by the width of the word. -/
theorem routingShift_lt {length shift : UInt32} (h : length.toNat ≤ 32)
    (hshift : routingShift length = some shift) : shift < 32 := by
  unfold routingShift at hshift
  split at hshift
  · cases hshift
  · next positive =>
    cases hshift
    have hle : length ≤ 32 := UInt32.le_iff_toNat_le.mpr h
    have hpos : length.toNat ≠ 0 := fun zero => positive (UInt32.toNat_inj.mp zero)
    rw [UInt32.lt_iff_toNat_lt, UInt32.toNat_sub_of_le _ _ hle]
    show 32 - length.toNat < 32
    omega

/-- What the two parts of the invariant and the last checks say about the record. -/
theorem Parse.complete_of_sound {lines : List Bytes} {p : Parse} {cfg : Config}
    (interface : InterfaceSound S host lines p) (peers : PeersSound S lines p)
    (h : parseEnd p = .ok cfg) : cfg.Complete S host lines := by
  obtain ⟨complete, haveAddress, hkey, device, nonempty, hdevice, rfl⟩ := parseEnd_ok h
  have given := fun i q (hq : p.cfg.peers[i]? = some q) => peers.given complete hq
  have inRange : ∀ q ∈ p.cfg.peers, ∀ key, (q.setting key).InRange := by
    intro q hq key
    obtain ⟨i, hi⟩ := List.mem_iff_getElem?.mp hq
    exact (given i q hi).inRange key
  have address := interface.address haveAddress
  obtain ⟨_, _, _, _, _, _, _, _, makes⟩ := interface.address haveAddress
  have dotted := interfaceSetting_inRange makes
  refine ⟨peers.few, address, dotted.1, dotted.2, ⟨interface.port, ?_⟩, ⟨nonempty, ?_⟩, hkey,
    fun q hq => ?_, fun q hq => ?_, fun q hq => ?_, given⟩
  · exact Nat.le_of_lt_succ p.cfg.listenPort.toNat_lt
  · rcases hdevice with rfl | rfl
    · exact interface.device
    · show configDefaultDevice.length < ifNameSize
      decide
  · obtain ⟨hhost, hlength, -⟩ := inRange q hq .endpoint
    exact ⟨hhost, hlength⟩
  · obtain ⟨-, -, hport⟩ := inRange q hq .endpoint
    exact ⟨hport, Nat.le_of_lt_succ q.port.toNat_lt⟩
  · exact inRange q hq .allowedIPs

/-- **An accepted configuration is complete and in range.** Whatever bytes the file holds: if it
loads, the values of [Interface] are in range, and every peer of the record has its four values from
lines of its own [Peer] section, in range too (`Config.Complete`). So `routing_matches` never shifts
by the width of the word for a peer of it. -/
theorem accepted_complete {contents : Bytes} {cfg : Config}
    (h : configLoad S host (.ok contents) = .ok cfg) :
    cfg.Complete S host (fgetsLines configMaxLine contents.length contents) ∧
      ∀ q ∈ cfg.peers, ∀ shift, routingShift q.allowedPrefix = some shift → shift < 32 := by
  have sound : ∀ lines p line p',
      InterfaceSound S host lines p ∧ PeersSound S lines p → parseLine S host p line = .ok p' →
        InterfaceSound S host (lines ++ [line]) p' ∧ PeersSound S (lines ++ [line]) p' := by
    intro lines p line p' inv hline
    have reads := (parseLine_ok S host).mp hline
    exact ⟨inv.1.step reads, inv.2.step reads⟩
  obtain ⟨p, hp, hend⟩ := configLoad_ok h
  have inv := Runs.invariant_foldlM sound
    ⟨InterfaceSound.initial, PeersSound.initial⟩ hp
  rw [List.nil_append] at inv
  have complete := Parse.complete_of_sound inv.1 inv.2 hend
  exact ⟨complete, fun q hq shift hshift => routingShift_lt (complete.allowed q hq) hshift⟩

/-- Two [Peer] sections around the [Interface], their keys in different orders, one given twice. -/
def interleavedFile : Bytes :=
  ["[Peer]", "Role = responder", "Endpoint = old:1", "AllowedIPs = 10.8.0.2/32",
    "PublicKey = AAAAAAAAAAAAAAAAAAAAAAAAAAAAAAAAAAAAAAAAAAA=", "endpoint=vpn:51820", "",
    "[interface]  # the second section", "Address = 10.8.0.1/24",
    "PrivateKey = AAAAAAAAAAAAAAAAAAAAAAAAAAAAAAAAAAAAAAAAAAA=",
    "[Peer]", "PublicKey = AAAAAAAAAAAAAAAAAAAAAAAAAAAAAAAAAAAAAAAAAAA=",
    "AllowedIPs = 0.0.0.0/0", "Role = Initiator", "Endpoint = fe80::1:7"].flatMap
      fun line => ascii line ++ [10]

def interleavedConfig : Config where
  name := ascii "unnamed-peer"
  tunName := ascii "edgar0"
  tunAddress := ascii "10.8.0.1"
  tunNetmask := ascii "255.255.255.0"
  listenPort := 51820
  hasPrivateKey := true
  privateKey := Block.zero _
  peers :=
    [⟨ascii "vpn", 51820, Block.zero _, .responder, ⟨10, 8, 0, 2⟩, 32⟩,
      ⟨ascii "fe80::1", 7, Block.zero _, .initiator, ⟨0, 0, 0, 0⟩, 0⟩]

theorem accepted_complete_interleaved :
    configLoad reference .little (.ok interleavedFile) = .ok interleavedConfig ∧
      interleavedConfig.Complete reference .little
        (fgetsLines configMaxLine interleavedFile.length interleavedFile) ∧
      ∀ q ∈ interleavedConfig.peers, ∀ shift,
        routingShift q.allowedPrefix = some shift → shift < 32 :=
  have loaded : configLoad reference .little (.ok interleavedFile) = .ok interleavedConfig := by
    decide +kernel
  ⟨loaded, accepted_complete loaded⟩

end EdgarVPN
