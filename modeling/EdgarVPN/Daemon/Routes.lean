import EdgarVPN.Lib.Prefix
import EdgarVPN.Config.Complete
import EdgarVPN.Daemon.Loop

/-!
# Routes: what AllowedIPs means

The prefix of a peer is written once in the file and read three times in the code: `parse_cidr`
makes a dotted netmask of it, `parse_ip_prefix` keeps its length, and `routing_matches` makes the
mask again from the length. Here all three are the same prefix.

- `routingMatches_iff`: `routing_matches` compares the first bits of two addresses, on either kind
  of host.
- `cidr_parsers_agree`: the two parsers accept the same texts, and the router masks with the netmask
  that the first of them wrote.
- `routes_to_first_cover`: a packet goes to the first peer whose prefix its destination begins with.
-/

set_option autoImplicit false

namespace EdgarVPN

open CString

/-! ## The mask of the router -/

/-- The two places where a mask is made from a prefix length make the same one. -/
theorem routingMatches_prefixMask (host : Endian) (addr network : InAddr) (length : UInt32) :
    routingMatches host addr network length =
      (addr.sAddr host &&& InAddr.htonl host (prefixMask length) ==
        network.sAddr host &&& InAddr.htonl host (prefixMask length)) := by
  unfold routingMatches prefixMask
  by_cases zero : length = 0
  · rw [if_pos zero, if_pos zero]
    cases host <;> rfl
  · rw [if_neg zero, if_neg zero]

/-- The word that the router masks with is the netmask, as the host reads it. -/
theorem htonl_prefixMask (host : Endian) {length : UInt32} (h : length.toNat ≤ 32) :
    InAddr.htonl host (prefixMask length) = (InAddr.netmask length.toNat).sAddr host := by
  rw [← ofSAddr_prefixMask .big h]
  exact InAddr.htonl_eq host (prefixMask length)

/-- `routing_matches` in terms of the netmask. -/
theorem routingMatches_netmask (host : Endian) (addr network : InAddr) {length : UInt32}
    (h : length.toNat ≤ 32) : routingMatches host addr network length = true ↔
      addr.sAddr host &&& (InAddr.netmask length.toNat).sAddr host =
        network.sAddr host &&& (InAddr.netmask length.toNat).sAddr host := by
  rw [routingMatches_prefixMask, htonl_prefixMask host h, beq_iff_eq]

/-- `routing_matches` in terms of the addresses' bits. -/
theorem routingMatches_iff (host : Endian) (addr network : InAddr) {length : UInt32}
    (h : length.toNat ≤ 32) : routingMatches host addr network length = true ↔
      InAddr.Agree length.toNat addr.bytes network.bytes := by
  rw [routingMatches_netmask host addr network h, InAddr.masked_eq_iff host addr network h]

/-! ## The two parsers -/

/-- **The two parsers and the router agree**, on every text and both kinds of host. `parse_cidr`
accepts the texts that `parse_ip_prefix` accepts. Of such a text both read the same address, the
netmask that the first writes is that of the length the second returns, and `routing_matches`
compares two addresses under exactly this mask. -/
theorem cidr_parsers_agree (host : Endian) (text : Bytes) :
    ((parseCidr host text inetAddrStrLen inetAddrStrLen).isSome = true ↔
        (parseIpPrefix text).isSome = true) ∧
      ∀ addrText maskText addr length,
        parseCidr host text inetAddrStrLen inetAddrStrLen = some (addrText, maskText) →
        parseIpPrefix text = some (addr, length) →
          InAddr.inetPton addrText = some addr ∧
            ∃ mask, InAddr.inetPton maskText = some mask ∧ mask = InAddr.netmask length.toNat ∧
              ∀ x, routingMatches host x addr length = true ↔
                x.sAddr host &&& mask.sAddr host = addr.sAddr host &&& mask.sAddr host := by
  refine ⟨⟨fun h => ?_, fun h => ?_⟩, fun addrText maskText addr length hcidr hprefix => ?_⟩
  · obtain ⟨⟨addrText, maskText⟩, hcidr⟩ := Option.isSome_iff_exists.mp h
    obtain ⟨addr, length, hprefix, -, -⟩ := parseCidr_eq_some.mp hcidr
    exact Option.isSome_iff_exists.mpr ⟨_, hprefix⟩
  · obtain ⟨⟨addr, length⟩, hprefix⟩ := Option.isSome_iff_exists.mp h
    exact Option.isSome_iff_exists.mpr
      ⟨_, parseCidr_eq_some.mpr ⟨addr, length, hprefix, rfl, rfl⟩⟩
  · obtain ⟨addr', length', hprefix', rfl, rfl⟩ := parseCidr_eq_some.mp hcidr
    obtain ⟨rfl, rfl⟩ := Prod.mk.inj (Option.some.inj (hprefix'.symm.trans hprefix))
    refine ⟨InAddr.inetPton_inetNtop _, _, InAddr.inetPton_inetNtop _, rfl, fun x => ?_⟩
    exact routingMatches_netmask host x addr' (parseIpPrefix_le hprefix)

/-- A prefix length that is no multiple of 8, written with a sign. -/
theorem cidr_parsers_agree_signed :
    parseCidr .little (ascii "10.8.77.1/+20") inetAddrStrLen inetAddrStrLen =
        some (ascii "10.8.77.1", ascii "255.255.240.0") ∧
      parseIpPrefix (ascii "10.8.77.1/+20") = some (⟨10, 8, 77, 1⟩, 20) ∧
      InAddr.inetPton (ascii "10.8.77.1") = some ⟨10, 8, 77, 1⟩ ∧
      ∃ mask, InAddr.inetPton (ascii "255.255.240.0") = some mask ∧
        mask = InAddr.netmask (20 : UInt32).toNat ∧
        ∀ x, routingMatches .little x ⟨10, 8, 77, 1⟩ 20 = true ↔
          x.sAddr .little &&& mask.sAddr .little =
            InAddr.sAddr .little ⟨10, 8, 77, 1⟩ &&& mask.sAddr .little :=
  have cidr : parseCidr .little (ascii "10.8.77.1/+20") inetAddrStrLen inetAddrStrLen =
      some (ascii "10.8.77.1", ascii "255.255.240.0") := by decide +kernel
  have split : parseIpPrefix (ascii "10.8.77.1/+20") = some (⟨10, 8, 77, 1⟩, 20) := by
    decide +kernel
  ⟨cidr, split, (cidr_parsers_agree .little (ascii "10.8.77.1/+20")).2 _ _ _ _ cidr split⟩

/-! ## The peer of a packet -/

/-- `routing_parse_ipv4_dest` and then `routing_find_peer_for_dest`, as the TUN branch calls
them. -/
def routingRoute (host : Endian) (peers : List ConfigPeer) (packet : Bytes) : Option Nat :=
  match routingParseIpv4Dest packet with
  | none => none
  | some dest => routingFindPeerForDest host peers dest

/-- The TUN branch hands the packet to the peer it is routed to. -/
theorem Daemon.tun_route (S : Sodium) (host : Endian) (d : Daemon) (packet : Bytes) (clock : UInt64)
    (sendOk : Bool) : d.tun S host packet clock sendOk =
      match routingRoute host (d.peers.map PeerSession.config) (packet.take maxPacketSize) with
      | none => (d, [])
      | some i =>
        match d.peers[i]? with
        | none => (d, [])
        | some ps =>
          let (ps, effects) := ps.forward S i (packet.take maxPacketSize) clock sendOk
          ({ d with peers := d.peers.set i ps }, effects) := by
  unfold Daemon.tun routingRoute
  dsimp only
  cases routingParseIpv4Dest (packet.take maxPacketSize) with
  | none => rfl
  | some dest => rfl

/-- A whole header, of version 4. -/
def IsIpv4 (packet : Bytes) : Prop := 20 ≤ packet.length ∧ (packet.getD 0 0).toNat / 16 = 4

/-- The destination of the packet, at its bytes 16 to 19, begins with the peer's prefix. -/
def ConfigPeer.Covers (q : ConfigPeer) (packet : Bytes) : Prop :=
  InAddr.Agree q.allowedPrefix.toNat ((packet.drop 16).take 4) q.allowedAddress.bytes

theorem version_iff (x : UInt8) : x >>> 4 = 4 ↔ x.toNat / 16 = 4 := by
  rw [← UInt8.toNat_inj, UInt8.toNat_shiftRight]
  show x.toNat >>> (4 % 8) = 4 ↔ _
  rw [Nat.shiftRight_eq_div_pow]

/-- The four bytes that `routing_parse_ipv4_dest` copies. -/
theorem bytes_dest {packet : Bytes} (h : 20 ≤ packet.length) :
    InAddr.bytes ⟨packet.getD 16 0, packet.getD 17 0, packet.getD 18 0, packet.getD 19 0⟩ =
      (packet.drop 16).take 4 := by
  apply List.ext_getElem
  · simp only [InAddr.bytes, List.length_cons, List.length_nil, List.length_take, List.length_drop]
    omega
  · intro k hk _
    have hk : k < 4 := hk
    have there : 16 + k < packet.length := by omega
    rw [List.getElem_take, List.getElem_drop]
    interval_cases k <;> exact List.getD_eq_getElem _ _ there

theorem routingParseIpv4Dest_ipv4 {packet : Bytes} (h : IsIpv4 packet) :
    ∃ dest, routingParseIpv4Dest packet = some dest ∧ dest.bytes = (packet.drop 16).take 4 := by
  refine ⟨_, ?_, bytes_dest h.1⟩
  rw [routingParseIpv4Dest, if_neg (Nat.not_lt_of_le h.1),
    if_neg (not_not_intro ((version_iff _).mpr h.2))]

theorem routingParseIpv4Dest_other {packet : Bytes} (h : ¬ IsIpv4 packet) :
    routingParseIpv4Dest packet = none := by
  unfold routingParseIpv4Dest
  by_cases short : packet.length < 20
  · rw [if_pos short]
  · have version : packet.getD 0 0 >>> 4 ≠ 4 := fun version =>
      h ⟨Nat.le_of_not_lt short, (version_iff _).mp version⟩
    rw [if_neg short, if_pos version]

/-- **A packet goes to the first peer that covers it**, and to none if it is no IPv4 packet or no
peer covers it. A peer covers the packets whose destination begins with the bits of its prefix, on
either kind of host; the premise, that prefixes have at most 32 bits, is met by every configuration
that loads. -/
theorem routes_to_first_cover (host : Endian) (cfg : Config)
    (inRange : ∀ q ∈ cfg.peers, q.allowedPrefix.toNat ≤ 32) (packet : Bytes) :
    (∀ i, routingRoute host cfg.peers packet = some i ↔
      IsIpv4 packet ∧ (∃ q, cfg.peers[i]? = some q ∧ q.Covers packet) ∧
        ∀ j < i, ∀ q, cfg.peers[j]? = some q → ¬ q.Covers packet) ∧
    (routingRoute host cfg.peers packet = none ↔
      ¬ IsIpv4 packet ∨ ∀ q ∈ cfg.peers, ¬ q.Covers packet) := by
  by_cases ipv4 : IsIpv4 packet
  · obtain ⟨dest, hdest, hbytes⟩ := routingParseIpv4Dest_ipv4 ipv4
    have covers {q : ConfigPeer} (hq : q ∈ cfg.peers) :
        routingMatches host dest q.allowedAddress q.allowedPrefix = true ↔ q.Covers packet := by
      rw [routingMatches_iff host dest q.allowedAddress (inRange q hq), hbytes]
      rfl
    have route : routingRoute host cfg.peers packet =
        routingFindPeerForDest host cfg.peers dest := by
      simp only [routingRoute, hdest]
    rw [route, routingFindPeerForDest]
    refine ⟨fun i => ?_, ?_⟩
    · rw [List.findIdx?_eq_some_iff_getElem]
      constructor
      · rintro ⟨hi, first, others⟩
        refine ⟨ipv4, ⟨_, List.getElem?_eq_getElem hi, (covers (List.getElem_mem hi)).mp first⟩, ?_⟩
        intro j hj q hq
        obtain ⟨hj', rfl⟩ := List.getElem?_eq_some_iff.mp hq
        exact fun h => others j hj ((covers (List.getElem_mem hj')).mpr h)
      · rintro ⟨-, ⟨q, hq, first⟩, others⟩
        obtain ⟨hi, rfl⟩ := List.getElem?_eq_some_iff.mp hq
        refine ⟨hi, (covers (List.getElem_mem hi)).mpr first, fun j hj h => ?_⟩
        have hj' : j < cfg.peers.length := Nat.lt_trans hj hi
        exact others j hj _ (List.getElem?_eq_getElem hj') ((covers (List.getElem_mem hj')).mp h)
    · rw [List.findIdx?_eq_none_iff, or_iff_right (not_not_intro ipv4)]
      refine forall₂_congr fun q hq => ?_
      rw [← covers hq, Bool.not_eq_true]
  · have route : routingRoute host cfg.peers packet = none := by
      simp only [routingRoute, routingParseIpv4Dest_other ipv4]
    rw [route]
    exact ⟨fun i => iff_of_false (by simp) fun h => ipv4 h.1, iff_of_true rfl (.inl ipv4)⟩

/-- Four peers: the destination `10.8.0.2` is covered by all but the first of them. -/
def routesConfig : Config :=
  { interleavedConfig with
    peers :=
      [⟨ascii "other", 1, Block.zero _, .responder, ⟨10, 8, 0, 4⟩, 30⟩,
        ⟨ascii "net", 1, Block.zero _, .responder, ⟨10, 8, 0, 0⟩, 30⟩,
        ⟨ascii "all", 1, Block.zero _, .responder, ⟨0, 0, 0, 0⟩, 0⟩,
        ⟨ascii "host", 1, Block.zero _, .responder, ⟨10, 8, 0, 2⟩, 32⟩] }

def coveredPacket : Bytes := 0x45 :: List.replicate 15 0 ++ [10, 8, 0, 2]

theorem routes_to_first_cover_network :
    routingRoute .little routesConfig.peers coveredPacket = some 1 ∧
      IsIpv4 coveredPacket ∧ (∃ q, routesConfig.peers[1]? = some q ∧ q.Covers coveredPacket) ∧
        ∀ j < 1, ∀ q, routesConfig.peers[j]? = some q → ¬ q.Covers coveredPacket :=
  have route : routingRoute .little routesConfig.peers coveredPacket = some 1 := by
    decide +kernel
  ⟨route,
    ((routes_to_first_cover .little routesConfig (by decide +kernel) coveredPacket).1 1).mp route⟩

end EdgarVPN
