import EdgarVPN.Crypto.Packet
import EdgarVPN.Lib.CString

/-!
# `src/config.c`: the configuration file

`configLoad` is `config_load` on the contents of the file, byte by byte: lines are what `fgets`
returns with a 512-byte buffer, each cut at its first NUL. The state of the loop (`Parse`) is the
record under construction, the section, the `have_*` flags and the line number; `cur` is the last
peer of the record. A failure is the value printed to stderr, in the order of the source's checks.
-/

set_option autoImplicit false

namespace EdgarVPN

open CString

/-! ## The record (`config.h`) -/

def configMaxName : Nat := 64
def configMaxHost : Nat := 256
def configMaxPeers : Nat := 8
def configMaxLine : Nat := 512
def ifNameSize : Nat := 16
def inetAddrStrLen : Nat := 16
def configDefaultPort : UInt16 := 51820
def configDefaultDevice : Bytes := ascii "edgar0"

/-- `config_peer_t`. -/
structure ConfigPeer where
  host : Bytes
  port : UInt16
  publicKey : PublicKey
  role : CryptoRole
  allowedAddress : InAddr
  allowedPrefix : UInt32
deriving DecidableEq

/-- `edgarvpn_config_t`; `peer_count` is the length of `peers`. -/
structure Config where
  name : Bytes
  tunName : Bytes
  tunAddress : Bytes
  tunNetmask : Bytes
  listenPort : UInt16
  hasPrivateKey : Bool
  privateKey : SecretKey
  peers : List ConfigPeer
deriving DecidableEq

/-- The peer that `memset` leaves. -/
def ConfigPeer.zero : ConfigPeer where
  host := []
  port := 0
  publicKey := Block.zero _
  role := .initiator
  allowedAddress := InAddr.zero
  allowedPrefix := 0

/-- The record before the first line. -/
def Config.initial : Config where
  name := ascii "unnamed-peer"
  tunName := []
  tunAddress := []
  tunNetmask := []
  listenPort := configDefaultPort
  hasPrivateKey := false
  privateKey := Block.zero _
  peers := []

/-! ## Values -/

/-- `trim`. The second loop stops before the first character, which is not a space. -/
def trim (s : Bytes) : Bytes := ((s.dropWhile isspace).reverse.dropWhile isspace).reverse

/-- A prefix length: all of the text is a number from 0 to 32. -/
def parsePrefix (text : Bytes) : Option UInt32 :=
  match strtol text with
  | some (value, []) => if value < 0 ∨ value > 32 then none else some (UInt32.ofNat value.toNat)
  | _ => none

/-- A port: all of the text is a number from 1 to 65535. -/
def parsePort (text : Bytes) : Option UInt16 :=
  match strtol text with
  | some (value, []) => if value ≤ 0 ∨ value > 65535 then none else some (UInt16.ofNat value.toNat)
  | _ => none

/-- The mask of a prefix length, most significant bits first. A shift by 32 is avoided. -/
def prefixMask (length : UInt32) : UInt32 :=
  if length = 0 then 0 else 0xFFFFFFFF <<< (32 - length)

/-- `parse_cidr`: the address and the mask as dotted texts. -/
def parseCidr (host : Endian) (cidr : Bytes) (addrLen maskLen : Nat) : Option (Bytes × Bytes) :=
  if cidr.length ≥ configMaxLine then
    none
  else
    match strchr 47 cidr with
    | none => none
    | some (buf, prefixStr) =>
      match parsePrefix prefixStr with
      | none => none
      | some length =>
        match InAddr.inetPton buf with
        | none => none
        | some _ =>
          if buf.length ≥ addrLen then
            none
          else
            let mask :=
              InAddr.inetNtop (InAddr.ofSAddr host (InAddr.htonl host (prefixMask length)))
            if mask.length ≥ maskLen then none else some (buf, mask)

/-- `parse_ip_prefix`: the address and the prefix length. -/
def parseIpPrefix (text : Bytes) : Option (InAddr × UInt32) :=
  if text.length ≥ configMaxLine then
    none
  else
    match strchr 47 text with
    | none => none
    | some (buf, prefixStr) =>
      match parsePrefix prefixStr with
      | none => none
      | some length =>
        match InAddr.inetPton buf with
        | none => none
        | some addr => some (addr, length)

/-- `parse_endpoint_value`: the host and the port. -/
def parseEndpointValue (value : Bytes) (hostLen : Nat) : Option (Bytes × UInt16) :=
  if value.length ≥ configMaxHost then
    none
  else
    match strrchr 58 value with
    | none => none
    | some ([], _) => none
    | some (buf, portStr) =>
      match parsePort portStr with
      | none => none
      | some port => if buf.length ≥ hostLen then none else some (buf, port)

/-! ## Failures -/

/-- What `config_load` prints before it returns -1. -/
inductive ConfigError where
  | failedToOpen (reason : Bytes)
  | unterminatedHeader (line : Nat)
  | previousPeerIncomplete (line : Nat)
  | tooManyPeers (line : Nat)
  | unknownSection (line : Nat) (name : Bytes)
  | expectedKeyValue (line : Nat)
  | nameTooLong (line : Nat)
  | deviceNameTooLong (line : Nat)
  | invalidAddress (line : Nat) (value : Bytes)
  | invalidListenPort (line : Nat) (value : Bytes)
  | invalidPrivateKey (line : Nat)
  | unknownInterfaceKey (line : Nat) (key : Bytes)
  | invalidEndpoint (line : Nat) (value : Bytes)
  | invalidPublicKey (line : Nat)
  | invalidRole (line : Nat) (value : Bytes)
  | invalidAllowedIPs (line : Nat) (value : Bytes)
  | unknownPeerKey (line : Nat) (key : Bytes)
  | keyOutsideSection (line : Nat)
  | finalPeerIncomplete
  | missingAddress
  | missingPrivateKey
deriving DecidableEq

/-- The text of a failure, with the path the file was opened by. -/
def ConfigError.message (path : Bytes) (error : ConfigError) : Bytes :=
  let at_ (line : Nat) : Bytes :=
    ascii "config: " ++ path ++ ascii ":" ++ ascii (toString line) ++ ascii ": "
  let quoted (text : Bytes) : Bytes := ascii "'" ++ text ++ ascii "'"
  let whole : Bytes := ascii "config: " ++ path ++ ascii ": "
  let text := match error with
    | .failedToOpen reason => ascii "config: failed to open " ++ quoted path ++ ascii ": " ++ reason
    | .unterminatedHeader line => at_ line ++ ascii "unterminated section header"
    | .previousPeerIncomplete line => at_ line ++
        ascii "previous [Peer] section is incomplete (needs Endpoint, PublicKey, Role, AllowedIPs)"
    | .tooManyPeers line => at_ line ++ ascii "too many [Peer] sections (max 8)"
    | .unknownSection line name => at_ line ++ ascii "unknown section " ++ quoted name
    | .expectedKeyValue line => at_ line ++ ascii "expected 'key = value'"
    | .nameTooLong line => at_ line ++ ascii "Name is too long"
    | .deviceNameTooLong line => at_ line ++ ascii "DeviceName is too long"
    | .invalidAddress line value => at_ line ++ ascii "invalid Address " ++ quoted value ++
        ascii " (expected a.b.c.d/prefix)"
    | .invalidListenPort line value => at_ line ++ ascii "invalid ListenPort " ++ quoted value
    | .invalidPrivateKey line => at_ line ++
        ascii "invalid PrivateKey (not valid base64 or wrong length)"
    | .unknownInterfaceKey line key => at_ line ++ ascii "unknown key " ++ quoted key ++
        ascii " in [Interface]"
    | .invalidEndpoint line value => at_ line ++ ascii "invalid Endpoint " ++ quoted value ++
        ascii " (expected host:port)"
    | .invalidPublicKey line => at_ line ++
        ascii "invalid PublicKey (not valid base64 or wrong length)"
    | .invalidRole line value => at_ line ++ ascii "invalid Role " ++ quoted value ++
        ascii " (expected initiator or responder)"
    | .invalidAllowedIPs line value => at_ line ++ ascii "invalid AllowedIPs " ++ quoted value ++
        ascii " (expected a.b.c.d/prefix)"
    | .unknownPeerKey line key => at_ line ++ ascii "unknown key " ++ quoted key ++
        ascii " in [Peer]"
    | .keyOutsideSection line => at_ line ++ ascii "key outside of a section"
    | .finalPeerIncomplete => whole ++
        ascii "final [Peer] section is incomplete (needs Endpoint, PublicKey, Role, AllowedIPs)"
    | .missingAddress => whole ++ ascii "missing required Address in [Interface]"
    | .missingPrivateKey => whole ++ ascii ("[Interface] is missing PrivateKey, required when " ++
        "at least one [Peer] section is present")
  text ++ [10]

/-! ## The loop -/

/-- `section_t`. -/
inductive Section where
  | none
  | interface
  | peer
deriving DecidableEq

/-- The state of the loop. -/
structure Parse where
  cfg : Config
  section_ : Section
  haveAddress : Bool
  haveEndpoint : Bool
  havePubkey : Bool
  haveRole : Bool
  haveAllowed : Bool
  lineno : Nat
deriving DecidableEq

def Parse.initial : Parse where
  cfg := Config.initial
  section_ := .none
  haveAddress := false
  haveEndpoint := false
  havePubkey := false
  haveRole := false
  haveAllowed := false
  lineno := 0

/-- A [Peer] section is open and has not been given all four keys. -/
def Parse.incomplete (p : Parse) : Bool :=
  p.section_ == .peer && (!p.haveEndpoint || !p.havePubkey || !p.haveRole || !p.haveAllowed)

/-- Change `*cur`, the peer of the open section. -/
def Parse.modifyCur (f : ConfigPeer → ConfigPeer) (p : Parse) : Parse :=
  { p with cfg := { p.cfg with peers := p.cfg.peers.modify (p.cfg.peers.length - 1) f } }

/-- A section header; `trimmed` is the line after its `[`. -/
def parseHeader (p : Parse) (trimmed : Bytes) : Except ConfigError Parse :=
  match strchr 93 trimmed with
  | none => .error (.unterminatedHeader p.lineno)
  | some (sectionName, _) =>
    if p.incomplete then
      .error (.previousPeerIncomplete p.lineno)
    else if strcasecmp sectionName (ascii "Interface") then
      .ok { p with section_ := .interface }
    else if strcasecmp sectionName (ascii "Peer") then
      if p.cfg.peers.length ≥ configMaxPeers then
        .error (.tooManyPeers p.lineno)
      else
        .ok { p with
          section_ := .peer
          cfg := { p.cfg with peers := p.cfg.peers ++ [ConfigPeer.zero] }
          haveEndpoint := false
          havePubkey := false
          haveRole := false
          haveAllowed := false }
    else
      .error (.unknownSection p.lineno sectionName)

variable (S : Sodium) (host : Endian)

/-- A key of [Interface]. -/
def parseInterfaceKey (p : Parse) (key value : Bytes) : Except ConfigError Parse :=
  if strcasecmp key (ascii "Name") then
    if value.length ≥ configMaxName then
      .error (.nameTooLong p.lineno)
    else
      .ok { p with cfg := { p.cfg with name := value } }
  else if strcasecmp key (ascii "DeviceName") then
    if value.length ≥ ifNameSize then
      .error (.deviceNameTooLong p.lineno)
    else
      .ok { p with cfg := { p.cfg with tunName := value } }
  else if strcasecmp key (ascii "Address") then
    match parseCidr host value inetAddrStrLen inetAddrStrLen with
    | none => .error (.invalidAddress p.lineno value)
    | some (addr, mask) =>
      .ok { p with
        cfg := { p.cfg with tunAddress := addr, tunNetmask := mask }, haveAddress := true }
  else if strcasecmp key (ascii "ListenPort") then
    match parsePort value with
    | none => .error (.invalidListenPort p.lineno value)
    | some port => .ok { p with cfg := { p.cfg with listenPort := port } }
  else if strcasecmp key (ascii "PrivateKey") then
    match cryptoDecodeBase64 S value cryptoSecretKeyBytes with
    | none => .error (.invalidPrivateKey p.lineno)
    | some sk => .ok { p with cfg := { p.cfg with privateKey := sk, hasPrivateKey := true } }
  else
    .error (.unknownInterfaceKey p.lineno key)

/-- A key of [Peer]. -/
def parsePeerKey (p : Parse) (key value : Bytes) : Except ConfigError Parse :=
  if strcasecmp key (ascii "Endpoint") then
    match parseEndpointValue value configMaxHost with
    | none => .error (.invalidEndpoint p.lineno value)
    | some (name, port) =>
      .ok { p.modifyCur fun c => { c with host := name, port := port } with haveEndpoint := true }
  else if strcasecmp key (ascii "PublicKey") then
    match cryptoDecodeBase64 S value cryptoPublicKeyBytes with
    | none => .error (.invalidPublicKey p.lineno)
    | some pk => .ok { p.modifyCur fun c => { c with publicKey := pk } with havePubkey := true }
  else if strcasecmp key (ascii "Role") then
    if strcasecmp value (ascii "initiator") then
      .ok { p.modifyCur fun c => { c with role := .initiator } with haveRole := true }
    else if strcasecmp value (ascii "responder") then
      .ok { p.modifyCur fun c => { c with role := .responder } with haveRole := true }
    else
      .error (.invalidRole p.lineno value)
  else if strcasecmp key (ascii "AllowedIPs") then
    match parseIpPrefix value with
    | none => .error (.invalidAllowedIPs p.lineno value)
    | some (addr, length) =>
      .ok { p.modifyCur fun c => { c with allowedAddress := addr, allowedPrefix := length } with
        haveAllowed := true }
  else
    .error (.unknownPeerKey p.lineno key)

/-- One pass of the loop, on the buffer `fgets` filled. -/
def parseLine (p : Parse) (line : Bytes) : Except ConfigError Parse :=
  let p := { p with lineno := p.lineno + 1 }
  match trim (ofBuffer line) with
  | [] => .ok p
  | c :: rest =>
    if c = 35 ∨ c = 59 then
      .ok p -- a comment
    else if c = 91 then
      parseHeader p rest
    else
      match strchr 61 (c :: rest) with
      | none => .error (.expectedKeyValue p.lineno)
      | some (before, after) =>
        let key := trim before
        let value := trim after
        match p.section_ with
        | .interface => parseInterfaceKey S host p key value
        | .peer => parsePeerKey S p key value
        | .none => .error (.keyOutsideSection p.lineno)

/-- The checks after the last line. -/
def parseEnd (p : Parse) : Except ConfigError Config :=
  if p.incomplete then
    .error .finalPeerIncomplete
  else if !p.haveAddress then
    .error .missingAddress
  else if p.cfg.peers.length > 0 ∧ p.cfg.hasPrivateKey = false then
    .error .missingPrivateKey
  else if p.cfg.tunName.isEmpty then
    .ok { p.cfg with tunName := configDefaultDevice }
  else
    .ok p.cfg

/-- `config_load`, of the contents of the file or the reason it did not open. -/
def configLoad (file : Except Bytes Bytes) : Except ConfigError Config :=
  match file with
  | .error reason => .error (.failedToOpen reason)
  | .ok contents => do
    let p ← (fgetsLines configMaxLine contents.length contents).foldlM (parseLine S host)
      Parse.initial
    parseEnd p

end EdgarVPN
