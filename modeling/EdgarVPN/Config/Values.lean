import EdgarVPN.Config.Load
import EdgarVPN.Lib.Dotted
import EdgarVPN.Lib.Text

/-!
# What the value parsers accept

One lemma for each parser of `src/config.c` that takes a value apart: the texts it accepts, and what
it makes of them. `parse_cidr` and `parse_ip_prefix` accept the same texts, because the buffers that
`config_load` passes hold every dotted quad (`parseCidr_eq_some`).
-/

set_option autoImplicit false

namespace EdgarVPN

open CString

/-! ## Numbers -/

theorem parsePort_eq_some {text : Bytes} {port : UInt16} (h : parsePort text = some port) :
    ∃ value, strtol text = some (value, []) ∧ 0 < value ∧ value ≤ 65535 ∧
      port = UInt16.ofNat value.toNat := by
  unfold parsePort at h
  split at h
  · next value hvalue =>
    split at h
    · cases h
    · next inRange =>
      cases h
      exact ⟨value, hvalue, by omega, by omega, rfl⟩
  · cases h

theorem parsePrefix_eq_some {text : Bytes} {length : UInt32} (h : parsePrefix text = some length) :
    ∃ value, strtol text = some (value, []) ∧ 0 ≤ value ∧ value ≤ 32 ∧
      length = UInt32.ofNat value.toNat := by
  unfold parsePrefix at h
  split at h
  · next value hvalue =>
    split at h
    · cases h
    · next inRange =>
      cases h
      exact ⟨value, hvalue, by omega, by omega, rfl⟩
  · cases h

theorem parsePort_pos {text : Bytes} {port : UInt16} (h : parsePort text = some port) :
    1 ≤ port.toNat := by
  obtain ⟨value, -, positive, small, rfl⟩ := parsePort_eq_some h
  rw [UInt16.toNat_ofNat']
  omega

theorem parsePrefix_le {text : Bytes} {length : UInt32} (h : parsePrefix text = some length) :
    length.toNat ≤ 32 := by
  obtain ⟨value, -, natural, small, rfl⟩ := parsePrefix_eq_some h
  rw [UInt32.toNat_ofNat']
  omega

/-! ## Addresses with a prefix length -/

/-- What `parse_ip_prefix` accepts. -/
theorem parseIpPrefix_eq_some {text : Bytes} {addr : InAddr} {length : UInt32} :
    parseIpPrefix text = some (addr, length) ↔
      text.length < configMaxLine ∧ ∃ buf prefixStr, strchr 47 text = some (buf, prefixStr) ∧
        parsePrefix prefixStr = some length ∧ InAddr.inetPton buf = some addr := by
  constructor
  · intro h
    unfold parseIpPrefix at h
    split at h
    · cases h
    next short =>
    split at h
    · cases h
    next buf prefixStr found =>
    split at h
    · cases h
    next hlength =>
    split at h
    · cases h
    next haddr =>
    cases h
    exact ⟨Nat.lt_of_not_le short, buf, prefixStr, found, hlength, haddr⟩
  · rintro ⟨short, buf, prefixStr, found, hlength, haddr⟩
    simp only [parseIpPrefix, if_neg (Nat.not_le_of_lt short), found, hlength, haddr]

theorem parseIpPrefix_le {text : Bytes} {addr : InAddr} {length : UInt32}
    (h : parseIpPrefix text = some (addr, length)) : length.toNat ≤ 32 := by
  obtain ⟨-, _, _, -, hlength, -⟩ := parseIpPrefix_eq_some.mp h
  exact parsePrefix_le hlength

/-- The mask that `parse_cidr` writes is the netmask of the prefix length, on both kinds of host. -/
theorem netmask_eq : ∀ (host : Endian) (length : Fin 33),
    InAddr.ofSAddr host (InAddr.htonl host (prefixMask (UInt32.ofNat length))) =
      InAddr.netmask length := by
  intro host
  cases host <;> decide

theorem ofSAddr_prefixMask (host : Endian) {length : UInt32} (h : length.toNat ≤ 32) :
    InAddr.ofSAddr host (InAddr.htonl host (prefixMask length)) = InAddr.netmask length.toNat := by
  have := netmask_eq host ⟨length.toNat, Nat.lt_succ_of_le h⟩
  rwa [UInt32.ofNat_toNat] at this

/-- With buffers for a dotted quad, `parse_cidr` accepts what `parse_ip_prefix` accepts: the address
is a dotted quad already, so its length is never the reason to refuse. -/
theorem parseCidr_eq_some {host : Endian} {text addrText maskText : Bytes} :
    parseCidr host text inetAddrStrLen inetAddrStrLen = some (addrText, maskText) ↔
      ∃ addr length, parseIpPrefix text = some (addr, length) ∧
        addrText = InAddr.inetNtop addr ∧
        maskText = InAddr.inetNtop (InAddr.netmask length.toNat) := by
  constructor
  · intro h
    unfold parseCidr at h
    split at h
    · cases h
    next short =>
    split at h
    · cases h
    next buf prefixStr found =>
    split at h
    · cases h
    next length hlength =>
    split at h
    · cases h
    next addr haddr =>
    split at h
    · cases h
    dsimp only at h
    split at h
    · cases h
    cases h
    refine ⟨addr, length, ?_, InAddr.inetPton_eq_some.mp haddr, ?_⟩
    · exact parseIpPrefix_eq_some.mpr
        ⟨Nat.lt_of_not_le short, addrText, prefixStr, found, hlength, haddr⟩
    · rw [ofSAddr_prefixMask host (parsePrefix_le hlength)]
  · rintro ⟨addr, length, h, rfl, rfl⟩
    have hle := parseIpPrefix_le h
    obtain ⟨short, buf, prefixStr, found, hlength, haddr⟩ := parseIpPrefix_eq_some.mp h
    obtain rfl := InAddr.inetPton_eq_some.mp haddr
    have addrFits := Nat.not_le_of_lt (InAddr.inetNtop_length addr)
    have maskFits := Nat.not_le_of_lt (InAddr.inetNtop_length (InAddr.netmask length.toNat))
    simp only [parseCidr, if_neg (Nat.not_le_of_lt short), found, hlength, haddr, inetAddrStrLen,
      if_neg addrFits, ofSAddr_prefixMask host hle, if_neg maskFits]

/-! ## Endpoints -/

/-- What `parse_endpoint_value` accepts. -/
theorem parseEndpointValue_eq_some {value name : Bytes} {hostLen : Nat} {port : UInt16}
    (h : parseEndpointValue value hostLen = some (name, port)) :
    value.length < configMaxHost ∧ name ≠ [] ∧ name.length < hostLen ∧
      ∃ portStr, strrchr 58 value = some (name, portStr) ∧ parsePort portStr = some port := by
  unfold parseEndpointValue at h
  split at h
  · cases h
  next short =>
  split at h
  · cases h
  · cases h
  next buf portStr nonempty found =>
  split at h
  · cases h
  next hport =>
  split at h
  · cases h
  next fits =>
  cases h
  refine ⟨Nat.lt_of_not_le short, ?_, Nat.lt_of_not_le fits, portStr, found, hport⟩
  rintro rfl
  exact nonempty rfl

end EdgarVPN
