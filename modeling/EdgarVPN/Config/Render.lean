import EdgarVPN.Config.Complete
import EdgarVPN.Lib.Text

/-!
# The parser reads back every valid configuration

`ValidConfig` is a record of `config.h` whose values a file can hold, and `ValidConfig.render`
writes it in the format of `docs/CONFIGURATION.md`: the [Interface] section and one [Peer] section
for each peer, one `Key = value` line for each key.

**What is proved** (`configLoad_render`). `configLoad` on the rendered file returns the record. It
is proved from the inside out. A written line is read as what was written (`Written`), a written
value as its value, and a whole run over written lines (`Reading`) is put together from these: six
lines for the interface, then six for each peer, by induction on the peers.
-/

set_option autoImplicit false

namespace EdgarVPN

open CString

/-! ## Trimming -/

/-- No white space at either end. -/
def Trimmed (s : Bytes) : Prop := s.head?.any isspace = false ∧ s.getLast?.any isspace = false

instance (s : Bytes) : Decidable (Trimmed s) := inferInstanceAs (Decidable (_ ∧ _))

theorem dropWhile_isspace {s : Bytes} (h : s.head?.any isspace = false) :
    s.dropWhile isspace = s := by
  cases s with
  | nil => rfl
  | cons c s =>
    have h : isspace c = false := h
    rw [List.dropWhile_cons, h]
    rfl

/-- `trim` takes away the white space around a text, and nothing else. -/
theorem trim_pad (left right : Bytes) {s : Bytes} (hleft : left.all isspace = true)
    (hright : right.all isspace = true) (h : Trimmed s) : trim (left ++ (s ++ right)) = s := by
  rw [List.all_eq_true] at hleft hright
  rw [trim, List.dropWhile_append_of_pos hleft]
  cases s with
  | nil =>
    rw [List.nil_append, List.dropWhile_eq_nil_iff.mpr hright]
    rfl
  | cons c s =>
    have head : (c :: s ++ right).head?.any isspace = false := h.1
    have last : (c :: s).reverse.head?.any isspace = false := by
      rw [List.head?_reverse]
      exact h.2
    rw [dropWhile_isspace head, List.reverse_append, List.dropWhile_append_of_pos,
      dropWhile_isspace last, List.reverse_reverse]
    intro x hx
    exact hright x (List.mem_reverse.mp hx)

theorem Trimmed.append {s t : Bytes} (hs : s ≠ []) (ht : t ≠ [])
    (head : s.head?.any isspace = false) (last : t.getLast?.any isspace = false) :
    Trimmed (s ++ t) := by
  rw [Trimmed, List.head?_append_of_ne_nil s hs, List.getLast?_append_of_ne_nil s ht]
  exact ⟨head, last⟩

/-! ## Written lines -/

/-- The text of a value: a C string without newline, with no white space around it. -/
@[mk_iff] structure ValueText (value : Bytes) : Prop where
  terminated : 0 ∉ value
  oneLine : 10 ∉ value
  trimmed : Trimmed value

instance (value : Bytes) : Decidable (ValueText value) :=
  decidable_of_iff _ (valueText_iff value).symm

/-- Characters that leave a mark. -/
def Graphic (text : Bytes) : Prop := ∀ c ∈ text, 33 ≤ c ∧ c ≤ 126

theorem Graphic.value {text : Bytes} (h : Graphic text) : ValueText text where
  terminated := fun mem => absurd (h 0 mem).1 (by decide)
  oneLine := fun mem => absurd (h 10 mem).1 (by decide)
  trimmed := by
    rw [Trimmed, Option.any_eq_false, Option.any_eq_false]
    exact ⟨fun c hc => isspace_eq_false (h c (List.mem_of_mem_head? hc)).1,
      fun c hc => isspace_eq_false (h c (List.mem_of_getLast? hc)).1⟩

/-- The name of a key: letters. -/
def KeyText (key : Bytes) : Prop := key ≠ [] ∧ key.all isalpha = true

instance (key : Bytes) : Decidable (KeyText key) := inferInstanceAs (Decidable (_ ∧ _))

theorem KeyText.isalpha {key : Bytes} (h : KeyText key) {c : UInt8} (hc : c ∈ key) :
    isalpha c = true :=
  List.all_eq_true.mp h.2 c hc

theorem KeyText.graphic {key : Bytes} (h : KeyText key) : Graphic key := by
  intro c hc
  obtain ⟨hlow, hhigh⟩ := le_of_isalpha (h.isalpha hc)
  exact ⟨UInt8.le_trans (by decide) hlow, UInt8.le_trans hhigh (by decide)⟩

/-- A line of the file, before its newline, and what the loop takes it for. -/
structure Written (line : Bytes) (kind : LineKind) : Prop where
  plain : 10 ∉ line
  short : line.length + 1 < configMaxLine
  kind : lineKind (line ++ [10]) = kind

/-- The line of a key and its value. -/
def pairLine (key value : Bytes) : Bytes := key ++ (ascii " = " ++ value)

theorem pairLine_eq (key value : Bytes) : pairLine key value = key ++ 32 :: 61 :: 32 :: value := rfl

/-- A line that begins with a key, a space and an equals sign. -/
theorem lineKind_of_trim {line key after : Bytes} (hkey : KeyText key)
    (text : trim (ofBuffer line) = key ++ 32 :: 61 :: after) :
    lineKind line = .pair key (trim after) := by
  have noEquals : 61 ∉ key ++ [32] := by
    intro mem
    rcases List.mem_append.mp mem with mem | mem
    · exact absurd (hkey.isalpha mem) (by decide)
    · exact absurd mem (by decide)
  have found : strchr 61 (key ++ 32 :: 61 :: after) = some (key ++ [32], after) := by
    have := strchr_append after noEquals
    rwa [List.append_assoc] at this
  have before : trim (key ++ [32]) = key :=
    trim_pad [] [32] rfl rfl hkey.graphic.value.trimmed
  obtain ⟨c, key, rfl⟩ := List.exists_cons_of_ne_nil hkey.1
  have hc := hkey.isalpha List.mem_cons_self
  have comment : ¬ (c = 35 ∨ c = 59) := by
    rintro (rfl | rfl)
    · exact absurd hc (by decide)
    · exact absurd hc (by decide)
  have bracket : c ≠ 91 := by
    rintro rfl
    exact absurd hc (by decide)
  rw [List.cons_append] at text found
  rw [lineKind, text]
  simp only [if_neg comment, if_neg bracket, found, before]

/-- A written line is cut where its key ends, also when the value is empty. -/
theorem lineKind_pairLine {key value : Bytes} (hkey : KeyText key) (hvalue : ValueText value) :
    lineKind (pairLine key value ++ [10]) = .pair key value := by
  have terminated : 0 ∉ pairLine key value ++ [10] := by
    simp only [pairLine, List.mem_append, not_or]
    exact ⟨⟨hkey.graphic.value.terminated, by decide, hvalue.terminated⟩, by decide⟩
  have head := hkey.graphic.value.trimmed.1
  cases value with
  | nil =>
    have trimmed : Trimmed (key ++ [32, 61]) := .append hkey.1 nofun head rfl
    have text : trim (ofBuffer (pairLine key [] ++ [10])) = key ++ [32, 61] := by
      have := trim_pad [] [32, 10] rfl rfl trimmed
      rw [List.nil_append, List.append_assoc] at this
      rw [ofBuffer_eq_self terminated, pairLine_eq, List.append_assoc]
      exact this
    rw [lineKind_of_trim hkey text]
    rfl
  | cons v vs =>
    have trimmed : Trimmed (key ++ 32 :: 61 :: 32 :: v :: vs) :=
      .append hkey.1 nofun head hvalue.trimmed.2
    have text : trim (ofBuffer (pairLine key (v :: vs) ++ [10])) =
        key ++ 32 :: 61 :: 32 :: v :: vs := by
      rw [ofBuffer_eq_self terminated, pairLine_eq]
      exact trim_pad [] [10] rfl rfl trimmed
    have after := trim_pad [32] [] rfl rfl hvalue.trimmed
    rw [List.append_nil] at after
    rw [lineKind_of_trim hkey text]
    exact congrArg (LineKind.pair key) after

theorem Written.pair {key value : Bytes} (hkey : KeyText key) (keyShort : key.length ≤ 10)
    (hvalue : ValueText value) (valueShort : value.length < 256) :
    Written (pairLine key value) (.pair key value) where
  plain := by
    simp only [pairLine, List.mem_append, not_or]
    exact ⟨hkey.graphic.value.oneLine, by decide, hvalue.oneLine⟩
  short := by
    rw [pairLine_eq, List.length_append]
    show key.length + (value.length + 1 + 1 + 1) + 1 < 512
    omega
  kind := lineKind_pairLine hkey hvalue

theorem Written.blank : Written [] .blank := ⟨nofun, by decide, rfl⟩

theorem Written.interface : Written (ascii "[Interface]") (.header (ascii "Interface")) :=
  ⟨by decide, by decide, rfl⟩

theorem Written.peer : Written (ascii "[Peer]") (.header (ascii "Peer")) :=
  ⟨by decide, by decide, rfl⟩

/-! ## Written values -/

theorem graphic_of_isdigit {c : UInt8} (h : isdigit c = true) : 33 ≤ c ∧ c ≤ 126 := by
  obtain ⟨hlow, hhigh⟩ := le_of_isdigit h
  exact ⟨UInt8.le_trans (by decide) hlow, UInt8.le_trans hhigh (by decide)⟩

theorem graphic_decimalText (n : Nat) : Graphic (decimalText n) :=
  fun c hc => graphic_of_isdigit (decimalText_isdigit n c hc)

theorem not_mem_decimalText {c : UInt8} (n : Nat) (h : isdigit c = false) : c ∉ decimalText n := by
  intro mem
  rw [decimalText_isdigit n c mem] at h
  cases h

theorem parsePort_decimalText {port : UInt16} (h : port ≠ 0) :
    parsePort (decimalText port.toNat) = some port := by
  have hlt : port.toNat < 65536 := port.toNat_lt
  have hpos : port.toNat ≠ 0 := fun zero => h (UInt16.toNat_inj.mp zero)
  rw [parsePort, strtol_decimalText (by omega)]
  dsimp only
  rw [if_neg (by omega), Int.toNat_natCast, UInt16.ofNat_toNat]

theorem parsePrefix_decimalText {length : UInt32} (h : length.toNat ≤ 32) :
    parsePrefix (decimalText length.toNat) = some length := by
  rw [parsePrefix, strtol_decimalText (by omega)]
  dsimp only
  rw [if_neg (by omega), Int.toNat_natCast, UInt32.ofNat_toNat]

/-- The text of an address and a prefix length. -/
def cidrText (addr : InAddr) (length : UInt32) : Bytes :=
  InAddr.inetNtop addr ++ 47 :: decimalText length.toNat

theorem graphic_cidrText (addr : InAddr) (length : UInt32) : Graphic (cidrText addr length) := by
  intro c hc
  rcases List.mem_append.mp hc with hc | hc
  · rcases InAddr.inetNtop_chars addr c hc with hc | rfl
    · exact graphic_of_isdigit hc
    · decide
  · rcases List.mem_cons.mp hc with rfl | hc
    · decide
    · exact graphic_decimalText _ c hc

theorem strchr_cidrText (addr : InAddr) (length : UInt32) :
    strchr 47 (cidrText addr length) = some (InAddr.inetNtop addr, decimalText length.toNat) := by
  apply strchr_append
  intro mem
  rcases InAddr.inetNtop_chars addr 47 mem with digit | dot
  · cases digit
  · cases dot

theorem cidrText_length (addr : InAddr) {length : UInt32} (h : length.toNat ≤ 32) :
    (cidrText addr length).length < 20 := by
  have haddr := InAddr.inetNtop_length addr
  have hlength := decimalText_length (n := length.toNat) (k := 2) (by omega) (by omega)
  rw [cidrText, List.length_append, List.length_cons]
  omega

theorem parseCidr_cidrText (host : Endian) (addr : InAddr) {length : UInt32}
    (h : length.toNat ≤ 32) :
    parseCidr host (cidrText addr length) inetAddrStrLen inetAddrStrLen =
      some (InAddr.inetNtop addr, InAddr.inetNtop (InAddr.netmask length.toNat)) := by
  have short := cidrText_length addr h
  have haddr : ¬ (InAddr.inetNtop addr).length ≥ inetAddrStrLen :=
    Nat.not_le_of_lt (InAddr.inetNtop_length addr)
  have hmask : ¬ (InAddr.inetNtop (InAddr.netmask length.toNat)).length ≥ inetAddrStrLen :=
    Nat.not_le_of_lt (InAddr.inetNtop_length _)
  have hline : ¬ (cidrText addr length).length ≥ configMaxLine :=
    Nat.not_le_of_lt (Nat.lt_trans short (by decide))
  simp only [parseCidr, if_neg hline, strchr_cidrText, parsePrefix_decimalText h,
    InAddr.inetPton_inetNtop, if_neg haddr, ofSAddr_prefixMask host h, if_neg hmask]

theorem parseIpPrefix_cidrText (addr : InAddr) {length : UInt32} (h : length.toNat ≤ 32) :
    parseIpPrefix (cidrText addr length) = some (addr, length) := by
  have short := cidrText_length addr h
  have hline : ¬ (cidrText addr length).length ≥ configMaxLine :=
    Nat.not_le_of_lt (Nat.lt_trans short (by decide))
  simp only [parseIpPrefix, if_neg hline, strchr_cidrText, parsePrefix_decimalText h,
    InAddr.inetPton_inetNtop]

/-- The text of a host and a port. -/
def endpointText (name : Bytes) (port : UInt16) : Bytes := name ++ 58 :: decimalText port.toNat

/-- The last colon is the one before the port, whatever the host has. -/
theorem parseEndpointValue_endpointText {name : Bytes} {port : UInt16} (nonempty : name ≠ [])
    (short : (endpointText name port).length < configMaxHost) (hport : port ≠ 0) :
    parseEndpointValue (endpointText name port) configMaxHost = some (name, port) := by
  have hlength : name.length < configMaxHost := by
    rw [endpointText, List.length_append] at short
    omega
  have found : strrchr 58 (endpointText name port) = some (name, decimalText port.toNat) :=
    strrchr_append name (not_mem_decimalText _ rfl)
  obtain ⟨c, rest, rfl⟩ := List.exists_cons_of_ne_nil nonempty
  simp only [parseEndpointValue, if_neg (Nat.not_le_of_lt short), found,
    parsePort_decimalText hport, if_neg (Nat.not_le_of_lt hlength)]

/-! ## Valid records -/

/-- A peer that a file can name. The host may hold anything that is no NUL or newline, but does not
begin with white space. -/
@[mk_iff] structure ConfigPeer.Valid (q : ConfigPeer) : Prop where
  nonempty : q.host ≠ []
  terminated : 0 ∉ q.host
  oneLine : 10 ∉ q.host
  head : q.host.head?.any isspace = false
  short : (endpointText q.host q.port).length < 256
  port : q.port ≠ 0
  allowed : q.allowedPrefix.toNat ≤ 32

instance (q : ConfigPeer) : Decidable q.Valid := decidable_of_iff _ (q.valid_iff).symm

/-- A record that a file can hold, with the address and the prefix length that its `tunAddress` and
`tunNetmask` stand for. -/
structure ValidConfig where
  cfg : Config
  address : InAddr
  length : UInt32
  name : ValueText cfg.name
  nameShort : cfg.name.length ≤ 63
  device : ValueText cfg.tunName
  deviceNonempty : 1 ≤ cfg.tunName.length
  deviceShort : cfg.tunName.length ≤ 15
  length_le : length.toNat ≤ 32
  tunAddress : cfg.tunAddress = InAddr.inetNtop address
  tunNetmask : cfg.tunNetmask = InAddr.inetNtop (InAddr.netmask length.toNat)
  port : cfg.listenPort ≠ 0
  hasPrivateKey : cfg.hasPrivateKey = true
  few : cfg.peers.length ≤ 8
  peers : ∀ q ∈ cfg.peers, q.Valid

def roleText : CryptoRole → Bytes
  | .initiator => ascii "initiator"
  | .responder => ascii "responder"

variable (bin2base64 : Bytes → Bytes)

/-- The lines of a [Peer] section, after an empty one. -/
def peerLines (q : ConfigPeer) : List Bytes :=
  [[], ascii "[Peer]",
    pairLine (ascii "Endpoint") (endpointText q.host q.port),
    pairLine (ascii "PublicKey") (bin2base64 q.publicKey.bytes),
    pairLine (ascii "Role") (roleText q.role),
    pairLine (ascii "AllowedIPs") (cidrText q.allowedAddress q.allowedPrefix)]

/-- The lines of the [Interface] section. -/
def ValidConfig.interfaceLines (v : ValidConfig) : List Bytes :=
  [ascii "[Interface]",
    pairLine (ascii "Name") v.cfg.name,
    pairLine (ascii "DeviceName") v.cfg.tunName,
    pairLine (ascii "Address") (cidrText v.address v.length),
    pairLine (ascii "ListenPort") (decimalText v.cfg.listenPort.toNat),
    pairLine (ascii "PrivateKey") (bin2base64 v.cfg.privateKey.bytes)]

/-- The lines of the file. -/
def ValidConfig.lines (v : ValidConfig) : List Bytes :=
  v.interfaceLines bin2base64 ++ v.cfg.peers.flatMap (peerLines bin2base64)

/-- The file. -/
def ValidConfig.render (v : ValidConfig) : Bytes := (v.lines bin2base64).flatMap (· ++ [10])

/-! ## Reading -/

/-- The loop goes over the written lines from one state to another. -/
structure Reading (S : Sodium) (host : Endian) (p : Parse) (lines : List Bytes) (p' : Parse) :
    Prop where
  plain : ∀ line ∈ lines, 10 ∉ line
  short : ∀ line ∈ lines, line.length + 1 < configMaxLine
  run : (lines.map (· ++ [10])).foldlM (parseLine S host) p = .ok p'

variable {S : Sodium} {host : Endian} {p p₁ p' : Parse} {lines : List Bytes}

theorem Reading.nil (p : Parse) : Reading S host p [] p := ⟨nofun, nofun, rfl⟩

theorem Reading.cons {line : Bytes} {kind : LineKind} (written : Written line kind)
    (reads : Reads S host p (line ++ [10]) p₁) (rest : Reading S host p₁ lines p') :
    Reading S host p (line :: lines) p' where
  plain := List.forall_mem_cons.mpr ⟨written.plain, rest.plain⟩
  short := List.forall_mem_cons.mpr ⟨written.short, rest.short⟩
  run := by
    rw [List.map_cons, List.foldlM_cons, (parseLine_ok S host).mpr reads]
    exact rest.run

theorem Reading.append {lines' : List Bytes} (first : Reading S host p lines p₁)
    (rest : Reading S host p₁ lines' p') : Reading S host p (lines ++ lines') p' where
  plain := List.forall_mem_append.mpr ⟨first.plain, rest.plain⟩
  short := List.forall_mem_append.mpr ⟨first.short, rest.short⟩
  run := by
    rw [List.map_append, List.foldlM_append, first.run]
    exact rest.run

theorem Reading.setInterface {key value : Bytes} {s : InterfaceSetting}
    (written : Written (pairLine key value) (.pair key value)) (inside : p.section_ = .interface)
    (set : interfaceSetting S host key value = some s)
    (rest : Reading S host (s.put p.nextLine) lines p') :
    Reading S host p (pairLine key value :: lines) p' :=
  .cons written (.interfaceSetting written.kind inside set) rest

theorem Reading.setPeer {key value : Bytes} {s : PeerSetting}
    (written : Written (pairLine key value) (.pair key value)) (inside : p.section_ = .peer)
    (set : peerSetting S key value = some s) (rest : Reading S host (s.put p.nextLine) lines p') :
    Reading S host p (pairLine key value :: lines) p' :=
  .cons written (.peerSetting written.kind inside set) rest

/-- A file of written lines is read line by line. -/
theorem Reading.configLoad (h : Reading S host Parse.initial lines p') :
    configLoad S host (.ok (lines.flatMap (· ++ [10]))) = parseEnd p' := by
  rw [EdgarVPN.configLoad, fgetsLines_lines h.plain h.short (Nat.le_refl _), h.run]
  rfl

theorem cryptoDecodeBase64_encode {bin2base64 : Bytes → Bytes} (b64 : S.Base64 bin2base64)
    {n : Nat} (key : Block n) : cryptoDecodeBase64 S (bin2base64 key.bytes) n = some key := by
  have := b64.decode_encode key.bytes
  rw [key.size] at this
  rw [cryptoDecodeBase64, this]
  exact Block.ofBytes?_bytes key

theorem base64_short {bin2base64 : Bytes → Bytes} (b64 : S.Base64 bin2base64) (key : Block 32) :
    (bin2base64 key.bytes).length < 256 := by
  rw [b64.length, key.size]
  decide

theorem portText_length (port : UInt16) : (decimalText port.toNat).length ≤ 5 := by
  have hlt : port.toNat < 65536 := port.toNat_lt
  exact decimalText_length (by decide) (by omega)

/-- The [Interface] section is read back. -/
theorem reading_interface (host : Endian) {bin2base64 : Bytes → Bytes} (b64 : S.Base64 bin2base64)
    (v : ValidConfig) :
    ∃ p, Reading S host Parse.initial (v.interfaceLines bin2base64) p ∧
      p.cfg = { v.cfg with peers := [] } ∧ p.incomplete = false ∧ p.haveAddress = true := by
  have nameSet : interfaceSetting S host (ascii "Name") v.cfg.name = some (.name v.cfg.name) :=
    if_neg (Nat.not_le_of_lt (Nat.lt_succ_of_le v.nameShort))
  have deviceSet : interfaceSetting S host (ascii "DeviceName") v.cfg.tunName =
      some (.deviceName v.cfg.tunName) :=
    if_neg (Nat.not_le_of_lt (Nat.lt_succ_of_le v.deviceShort))
  have addressSet : interfaceSetting S host (ascii "Address") (cidrText v.address v.length) =
      some (.address v.cfg.tunAddress v.cfg.tunNetmask) := by
    rw [v.tunAddress, v.tunNetmask]
    exact congrArg (Option.map _) (parseCidr_cidrText host v.address v.length_le)
  have portSet : interfaceSetting S host (ascii "ListenPort")
      (decimalText v.cfg.listenPort.toNat) = some (.listenPort v.cfg.listenPort) :=
    congrArg (Option.map _) (parsePort_decimalText v.port)
  have keySet : interfaceSetting S host (ascii "PrivateKey")
      (bin2base64 v.cfg.privateKey.bytes) = some (.privateKey v.cfg.privateKey) :=
    congrArg (Option.map _) (cryptoDecodeBase64_encode b64 v.cfg.privateKey)
  have nameLine : Written (pairLine (ascii "Name") v.cfg.name) _ :=
    .pair (by decide) (by decide) v.name (Nat.lt_of_le_of_lt v.nameShort (by decide))
  have deviceLine : Written (pairLine (ascii "DeviceName") v.cfg.tunName) _ :=
    .pair (by decide) (by decide) v.device (Nat.lt_of_le_of_lt v.deviceShort (by decide))
  have addressLine : Written (pairLine (ascii "Address") (cidrText v.address v.length)) _ :=
    .pair (by decide) (by decide) (graphic_cidrText _ _).value
      (Nat.lt_trans (cidrText_length v.address v.length_le) (by decide))
  have portLine : Written (pairLine (ascii "ListenPort") (decimalText v.cfg.listenPort.toNat)) _ :=
    .pair (by decide) (by decide) (graphic_decimalText _).value
      (Nat.lt_of_le_of_lt (portText_length v.cfg.listenPort) (by decide))
  have keyLine : Written (pairLine (ascii "PrivateKey") (bin2base64 v.cfg.privateKey.bytes)) _ :=
    .pair (by decide) (by decide) (Graphic.value (b64.graphic _))
      (base64_short b64 v.cfg.privateKey)
  refine ⟨_, .cons .interface (.openInterface Written.interface.kind rfl rfl)
    (.setInterface nameLine rfl nameSet (.setInterface deviceLine rfl deviceSet
      (.setInterface addressLine rfl addressSet (.setInterface portLine rfl portSet
        (.setInterface keyLine rfl keySet (.nil _)))))), ?_, rfl, rfl⟩
  dsimp only
  rw [v.hasPrivateKey]
  rfl

/-! ## The peers -/

theorem Parse.incomplete_eq_false {p : Parse} (h : ∀ key, p.has key = true) :
    p.incomplete = false := by
  have hendpoint : p.haveEndpoint = true := h .endpoint
  have hpubkey : p.havePubkey = true := h .publicKey
  have hrole : p.haveRole = true := h .role
  have hallowed : p.haveAllowed = true := h .allowedIPs
  simp only [Parse.incomplete, hendpoint, hpubkey, hrole, hallowed, Bool.not_true, Bool.or_false,
    Bool.and_false]

theorem ConfigPeer.Valid.endpoint {q : ConfigPeer} (h : q.Valid) :
    ValueText (endpointText q.host q.port) where
  terminated := by
    rw [endpointText, List.mem_append, List.mem_cons, not_or, not_or]
    exact ⟨h.terminated, by decide, (graphic_decimalText _).value.terminated⟩
  oneLine := by
    rw [endpointText, List.mem_append, List.mem_cons, not_or, not_or]
    exact ⟨h.oneLine, by decide, (graphic_decimalText _).value.oneLine⟩
  trimmed := by
    refine .append h.nonempty (List.cons_ne_nil _ _) h.head ?_
    rw [List.getLast?_cons_of_ne_nil (decimalText_ne_nil _)]
    exact (graphic_decimalText _).value.trimmed.2

theorem graphic_roleText (role : CryptoRole) : Graphic (roleText role) := by
  apply KeyText.graphic
  cases role <;> decide

/-- A [Peer] section was opened in the state `base`, and its peer is `cur` so far. -/
structure Parse.Current (p base : Parse) (cur : ConfigPeer) : Prop where
  inside : p.section_ = .peer
  cfg : p.cfg = { base.cfg with peers := base.cfg.peers ++ [cur] }
  haveAddress : p.haveAddress = base.haveAddress

theorem Parse.Current.put {p base : Parse} {cur : ConfigPeer} (h : p.Current base cur)
    (s : PeerSetting) : (s.put p.nextLine).Current base (s.set cur) where
  inside := (s.put_section p.nextLine).trans h.inside
  cfg := by
    have hcfg : p.nextLine.cfg = { base.cfg with peers := base.cfg.peers ++ [cur] } := h.cfg
    rw [s.put_cfg, hcfg, modify_last]
  haveAddress := (s.put_haveAddress p.nextLine).trans h.haveAddress

/-- A [Peer] section is read back. -/
theorem reading_peer (host : Endian) {bin2base64 : Bytes → Bytes} (b64 : S.Base64 bin2base64)
    {q : ConfigPeer} (h : q.Valid) (p : Parse) (complete : p.incomplete = false)
    (room : p.cfg.peers.length < configMaxPeers) :
    ∃ p', Reading S host p (peerLines bin2base64 q) p' ∧
      p'.cfg = { p.cfg with peers := p.cfg.peers ++ [q] } ∧ p'.incomplete = false ∧
      p'.haveAddress = p.haveAddress := by
  have endpointSet : peerSetting S (ascii "Endpoint") (endpointText q.host q.port) =
      some (.endpoint q.host q.port) :=
    congrArg (Option.map _) (parseEndpointValue_endpointText h.nonempty h.short h.port)
  have keySet : peerSetting S (ascii "PublicKey") (bin2base64 q.publicKey.bytes) =
      some (.publicKey q.publicKey) :=
    congrArg (Option.map _) (cryptoDecodeBase64_encode b64 q.publicKey)
  have roleSet : peerSetting S (ascii "Role") (roleText q.role) = some (.role q.role) := by
    cases q.role <;> rfl
  have allowedSet : peerSetting S (ascii "AllowedIPs")
      (cidrText q.allowedAddress q.allowedPrefix) =
        some (.allowedIPs q.allowedAddress q.allowedPrefix) :=
    congrArg (Option.map _) (parseIpPrefix_cidrText q.allowedAddress h.allowed)
  have endpointLine : Written (pairLine (ascii "Endpoint") (endpointText q.host q.port)) _ :=
    .pair (by decide) (by decide) h.endpoint h.short
  have keyLine : Written (pairLine (ascii "PublicKey") (bin2base64 q.publicKey.bytes)) _ :=
    .pair (by decide) (by decide) (Graphic.value (b64.graphic _)) (base64_short b64 q.publicKey)
  have roleLine : Written (pairLine (ascii "Role") (roleText q.role)) _ :=
    .pair (by decide) (by decide) (graphic_roleText q.role).value (by cases q.role <;> decide)
  have allowedLine : Written (pairLine (ascii "AllowedIPs")
      (cidrText q.allowedAddress q.allowedPrefix)) _ :=
    .pair (by decide) (by decide) (graphic_cidrText _ _).value
      (Nat.lt_trans (cidrText_length q.allowedAddress h.allowed) (by decide))
  have opened : p.nextLine.nextLine.openPeer.Current p ConfigPeer.zero := ⟨rfl, rfl, rfl⟩
  have endpointPut := opened.put (.endpoint q.host q.port)
  have keyPut := endpointPut.put (.publicKey q.publicKey)
  have rolePut := keyPut.put (.role q.role)
  have allowedPut := rolePut.put (.allowedIPs q.allowedAddress q.allowedPrefix)
  refine ⟨_, .cons .blank (.blank Written.blank.kind) (.cons .peer
    (.openPeer Written.peer.kind rfl complete room)
    (.setPeer endpointLine opened.inside endpointSet (.setPeer keyLine endpointPut.inside keySet
      (.setPeer roleLine keyPut.inside roleSet (.setPeer allowedLine rolePut.inside allowedSet
        (.nil _)))))), allowedPut.cfg, ?_, allowedPut.haveAddress⟩
  apply Parse.incomplete_eq_false
  intro key
  cases key with
  | endpoint => rfl
  | publicKey => rfl
  | role => rfl
  | allowedIPs => rfl

/-- The [Peer] sections are read back, in order. -/
theorem reading_peers (host : Endian) {bin2base64 : Bytes → Bytes} (b64 : S.Base64 bin2base64)
    (qs : List ConfigPeer) (valid : ∀ q ∈ qs, q.Valid) (p : Parse)
    (complete : p.incomplete = false) (room : p.cfg.peers.length + qs.length ≤ configMaxPeers) :
    ∃ p', Reading S host p (qs.flatMap (peerLines bin2base64)) p' ∧
      p'.cfg = { p.cfg with peers := p.cfg.peers ++ qs } ∧ p'.incomplete = false ∧
      p'.haveAddress = p.haveAddress := by
  induction qs generalizing p with
  | nil => exact ⟨p, .nil p, by rw [List.append_nil], complete, rfl⟩
  | cons q qs ih =>
    rw [List.length_cons] at room
    obtain ⟨p₁, first, hcfg, complete, haddress⟩ := reading_peer host b64
      (valid q List.mem_cons_self) p complete (by omega)
    have hpeers : p₁.cfg.peers = p.cfg.peers ++ [q] := by rw [hcfg]
    obtain ⟨p', rest, hcfg', complete', haddress'⟩ := ih
      (fun q hq => valid q (List.mem_cons_of_mem _ hq)) p₁ complete
      (by rw [hpeers, List.length_append, List.length_singleton]; omega)
    refine ⟨p', first.append rest, ?_, complete', haddress'.trans haddress⟩
    rw [hcfg', hpeers, hcfg, List.append_assoc]
    rfl

/-- **The parser reads back every valid configuration.** Whatever record can be written in the
format (`ValidConfig`), up to the limits of its buffers, and on either kind of host: `config_load`
accepts the file that is written for it, and returns that record, field by field and peer by peer.
The premise on libsodium is that its base64 decoder undoes the encoder the keys were written
with. -/
theorem configLoad_render (S : Sodium) (host : Endian) {bin2base64 : Bytes → Bytes}
    (b64 : S.Base64 bin2base64) (v : ValidConfig) :
    configLoad S host (.ok (v.render bin2base64)) = .ok v.cfg := by
  obtain ⟨p, interface, hcfg, complete, haddress⟩ := reading_interface host b64 v
  have hnone : p.cfg.peers = [] := by rw [hcfg]
  obtain ⟨p', peers, hcfg', complete', haddress'⟩ := reading_peers host b64 v.cfg.peers
    v.peers p complete (by rw [hnone]; exact (Nat.zero_add _).trans_le v.few)
  have hrecord : p'.cfg = v.cfg := by
    rw [hcfg', hnone, hcfg]
    rfl
  have hdevice : v.cfg.tunName.isEmpty = false := by
    rw [List.isEmpty_eq_false_iff, ← List.length_pos_iff]
    exact v.deviceNonempty
  rw [ValidConfig.render, ValidConfig.lines, (interface.append peers).configLoad]
  simp only [parseEnd, complete', haddress', haddress, hrecord, v.hasPrivateKey, hdevice,
    Bool.not_true, Bool.false_eq_true, if_false, Bool.true_eq_false, and_false]

/-- An empty name, a device name of full length, and hosts with separators in them. -/
def boundaryConfig : ValidConfig where
  cfg :=
    { name := []
      tunName := ascii "edgar0123456789"
      tunAddress := ascii "10.8.0.11"
      tunNetmask := ascii "0.0.0.0"
      listenPort := 65535
      hasPrivateKey := true
      privateKey := Reference.block _ UInt8.ofNat
      peers :=
        [⟨ascii "a=b:c ", 1, Block.zero _, .responder, ⟨255, 0, 10, 200⟩, 32⟩,
          ⟨ascii "peer3", 51820, Block.zero _, .initiator, ⟨0, 0, 0, 0⟩, 0⟩] }
  address := ⟨10, 8, 0, 11⟩
  length := 0
  name := by decide
  nameShort := by decide
  device := by decide
  deviceNonempty := by decide
  deviceShort := by decide
  length_le := by decide
  tunAddress := by decide
  tunNetmask := by decide
  port := by decide
  hasPrivateKey := rfl
  few := by decide
  peers := by decide

theorem configLoad_render_boundary :
    boundaryConfig.render Reference.base64Encode =
      ["[Interface]", "Name = ", "DeviceName = edgar0123456789", "Address = 10.8.0.11/0",
        "ListenPort = 65535", "PrivateKey = AAECAwQFBgcICQoLDA0ODxAREhMUFRYXGBkaGxwdHh8=", "",
        "[Peer]", "Endpoint = a=b:c :1", "PublicKey = AAAAAAAAAAAAAAAAAAAAAAAAAAAAAAAAAAAAAAAAAAA=",
        "Role = responder", "AllowedIPs = 255.0.10.200/32", "",
        "[Peer]", "Endpoint = peer3:51820",
        "PublicKey = AAAAAAAAAAAAAAAAAAAAAAAAAAAAAAAAAAAAAAAAAAA=",
        "Role = initiator", "AllowedIPs = 0.0.0.0/0"].flatMap (fun line => ascii line ++ [10]) ∧
      configLoad reference .little (.ok (boundaryConfig.render Reference.base64Encode)) =
        .ok boundaryConfig.cfg :=
  ⟨by decide +kernel, configLoad_render reference .little reference_base64 boundaryConfig⟩

end EdgarVPN
