import EdgarVPN.Config.Load

/-!
# `src/routing.c`: which peer a packet is for

The destination of an IPv4 packet, and the first peer whose AllowedIPs covers it. Addresses are
compared as the host reads them from memory, under a mask in network order.
-/

set_option autoImplicit false

namespace EdgarVPN

/-- `routing_parse_ipv4_dest`. -/
def routingParseIpv4Dest (packet : Bytes) : Option InAddr :=
  if packet.length < 20 then
    none
  else if packet.getD 0 0 >>> 4 ≠ 4 then
    none
  else
    some ⟨packet.getD 16 0, packet.getD 17 0, packet.getD 18 0, packet.getD 19 0⟩

/-- `routing_matches`. -/
def routingMatches (host : Endian) (addr network : InAddr) (length : UInt32) : Bool :=
  let mask := if length = 0 then 0 else InAddr.htonl host (0xFFFFFFFF <<< (32 - length))
  addr.sAddr host &&& mask == network.sAddr host &&& mask

/-- The shift that `routing_matches` makes. C leaves a shift by 32 or more undefined. -/
def routingShift (length : UInt32) : Option UInt32 :=
  if length = 0 then none else some (32 - length)

theorem routingMatches_eq (host : Endian) (addr network : InAddr) (length : UInt32) :
    routingMatches host addr network length =
      let mask := match routingShift length with
        | none => 0
        | some shift => InAddr.htonl host (0xFFFFFFFF <<< shift)
      addr.sAddr host &&& mask == network.sAddr host &&& mask := by
  unfold routingMatches routingShift
  by_cases none : length = 0
  · rw [if_pos none, if_pos none]
  · rw [if_neg none, if_neg none]

/-- `routing_find_peer_for_dest`. -/
def routingFindPeerForDest (host : Endian) (peers : List ConfigPeer) (dest : InAddr) : Option Nat :=
  peers.findIdx? fun p => routingMatches host dest p.allowedAddress p.allowedPrefix

end EdgarVPN
