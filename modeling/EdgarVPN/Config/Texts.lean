import EdgarVPN.Config.Complete

/-!
# The texts of a configuration

What the rest of the daemon does with the texts of a configuration rests on two facts about them.
They are C strings: a line is cut at its first NUL before anything is taken from it, so what
`printf` shows of a text is all of it. And the address and the mask are texts that `inet_pton`
reads, since they are only stored after it has read them.

**What is proved** (`configLoad_texts`): both, for every file that `config_load` accepts.
-/

set_option autoImplicit false

namespace EdgarVPN

open CString

/-- The texts of a configuration: C strings, with dotted addresses. -/
structure Config.Texts (cfg : Config) : Prop where
  name : 0 ∉ cfg.name
  device : 0 ∉ cfg.tunName
  address : ∃ addr, cfg.tunAddress = InAddr.inetNtop addr
  netmask : ∃ mask, cfg.tunNetmask = InAddr.inetNtop mask
  hosts : ∀ q ∈ cfg.peers, 0 ∉ q.host

/-! ## Values -/

theorem nul_not_mem_ofBuffer (line : Bytes) : 0 ∉ ofBuffer line := by
  intro nul
  have := List.mem_takeWhile_imp nul
  simp at this

theorem mem_of_mem_trim {c : UInt8} {s : Bytes} (h : c ∈ trim s) : c ∈ s := by
  have inner := (List.dropWhile_sublist _).mem (List.mem_reverse.mp h)
  exact (List.dropWhile_sublist _).mem (List.mem_reverse.mp inner)

/-- A value is taken from a C string. -/
theorem lineKind_value {line key value : Bytes} (kind : lineKind line = .pair key value) :
    0 ∉ value := by
  have text : 0 ∉ trim (ofBuffer line) := fun nul =>
    nul_not_mem_ofBuffer line (mem_of_mem_trim nul)
  unfold lineKind at kind
  split at kind
  · cases kind
  next c rest htext =>
  rw [htext] at text
  split at kind
  · cases kind
  split at kind
  · split at kind
    · cases kind
    · cases kind
  split at kind
  · cases kind
  next before after found =>
  cases kind
  obtain ⟨whole, _⟩ := strchr_eq_some found
  intro nul
  apply text
  rw [whole]
  exact List.mem_append_right _ (List.mem_cons_of_mem _ (mem_of_mem_trim nul))

theorem inetNtop_text (addr : InAddr) : 0 ∉ InAddr.inetNtop addr := by
  intro nul
  rcases InAddr.inetNtop_chars addr 0 nul with digit | dot
  · exact absurd digit (by decide)
  · exact absurd dot (by decide)

theorem peerSetting_text {S : Sodium} {key value name : Bytes} {port : UInt16} (text : 0 ∉ value)
    (h : peerSetting S key value = some (.endpoint name port)) : 0 ∉ name := by
  unfold peerSetting at h
  split at h
  · obtain ⟨found, hfound, here⟩ := Option.map_eq_some_iff.mp h
    cases here
    obtain ⟨_, _, _, portStr, hfound, _⟩ := parseEndpointValue_eq_some hfound
    obtain ⟨whole, _⟩ := strrchr_eq_some hfound
    intro nul
    apply text
    rw [whole]
    exact List.mem_append_left _ nul
  split at h
  · obtain ⟨_, _, here⟩ := Option.map_eq_some_iff.mp h
    cases here
  split at h
  · obtain ⟨_, _, here⟩ := Option.map_eq_some_iff.mp h
    cases here
  split at h
  · obtain ⟨_, _, here⟩ := Option.map_eq_some_iff.mp h
    cases here
  · cases h

/-! ## The loop -/

/-- The invariant of the loop. -/
structure Parse.Texts (p : Parse) : Prop where
  name : 0 ∉ p.cfg.name
  device : 0 ∉ p.cfg.tunName
  address : p.haveAddress = true → (∃ addr, p.cfg.tunAddress = InAddr.inetNtop addr) ∧
    ∃ mask, p.cfg.tunNetmask = InAddr.inetNtop mask
  hosts : ∀ q ∈ p.cfg.peers, 0 ∉ q.host

theorem Parse.Texts.initial : Parse.initial.Texts :=
  ⟨by decide, by decide, nofun, nofun⟩

theorem Parse.Texts.interfaceSetting {S : Sodium} {host : Endian} {p : Parse} (texts : p.Texts)
    {key value : Bytes} (text : 0 ∉ value) {s : InterfaceSetting}
    (set : interfaceSetting S host key value = some s) : (s.put p).Texts := by
  unfold EdgarVPN.interfaceSetting at set
  split at set
  · split at set
    · cases set
    · cases set
      exact ⟨text, texts.device, texts.address, texts.hosts⟩
  split at set
  · split at set
    · cases set
    · cases set
      exact ⟨texts.name, text, texts.address, texts.hosts⟩
  split at set
  · obtain ⟨found, hfound, rfl⟩ := Option.map_eq_some_iff.mp set
    obtain ⟨addr, length, _, haddr, hmask⟩ := parseCidr_eq_some.mp hfound
    exact ⟨texts.name, texts.device, fun _ => ⟨⟨_, haddr⟩, ⟨_, hmask⟩⟩, texts.hosts⟩
  split at set
  · obtain ⟨port, _, rfl⟩ := Option.map_eq_some_iff.mp set
    exact ⟨texts.name, texts.device, texts.address, texts.hosts⟩
  split at set
  · obtain ⟨sk, _, rfl⟩ := Option.map_eq_some_iff.mp set
    exact ⟨texts.name, texts.device, texts.address, texts.hosts⟩
  · cases set

theorem Parse.Texts.peerSetting {S : Sodium} {p : Parse} (texts : p.Texts) {key value : Bytes}
    (text : 0 ∉ value) {s : PeerSetting} (set : peerSetting S key value = some s) :
    (s.put p).Texts := by
  have hcfg := s.put_cfg p
  refine ⟨by rw [hcfg]; exact texts.name, by rw [hcfg]; exact texts.device, ?_, ?_⟩
  · rw [PeerSetting.put_haveAddress, hcfg]
    exact texts.address
  · rw [hcfg]
    intro q hq
    obtain ⟨i, hi⟩ := List.mem_iff_getElem?.mp hq
    rw [List.getElem?_modify] at hi
    obtain ⟨q₀, hq₀, rfl⟩ := Option.map_eq_some_iff.mp hi
    have before := texts.hosts q₀ (List.mem_of_getElem? hq₀)
    split
    · cases s with
      | endpoint name port => exact peerSetting_text text set
      | publicKey pk => exact before
      | role role => exact before
      | allowedIPs addr length => exact before
    · exact before

theorem Parse.Texts.step {S : Sodium} {host : Endian} {p p' : Parse} {line : Bytes}
    (texts : p.Texts) (h : Reads S host p line p') : p'.Texts := by
  cases h with
  | blank kind => exact ⟨texts.name, texts.device, texts.address, texts.hosts⟩
  | openInterface kind isInterface complete =>
    exact ⟨texts.name, texts.device, texts.address, texts.hosts⟩
  | openPeer kind isPeer complete room =>
    refine ⟨texts.name, texts.device, texts.address, fun q hq => ?_⟩
    rcases List.mem_append.mp hq with hq | hq
    · exact texts.hosts q hq
    · rw [List.mem_singleton.mp hq]
      decide
  | interfaceSetting kind inside set =>
    have next : p.nextLine.Texts := ⟨texts.name, texts.device, texts.address, texts.hosts⟩
    exact next.interfaceSetting (lineKind_value kind) set
  | peerSetting kind inside set =>
    have next : p.nextLine.Texts := ⟨texts.name, texts.device, texts.address, texts.hosts⟩
    exact next.peerSetting (lineKind_value kind) set

/-- The texts of every configuration that is accepted. -/
theorem configLoad_texts {S : Sodium} {host : Endian} {contents : Bytes} {cfg : Config}
    (h : configLoad S host (.ok contents) = .ok cfg) : cfg.Texts := by
  obtain ⟨p, hp, hend⟩ := configLoad_ok h
  have kept : ∀ (_ : List Bytes) p line p', p.Texts → parseLine S host p line = .ok p' → p'.Texts :=
    fun _ _ _ _ texts hline => texts.step ((parseLine_ok S host).mp hline)
  have texts : p.Texts := @Runs.invariant_foldlM _ _ _ _ _ kept _ [] _ _ Parse.Texts.initial hp
  obtain ⟨_, haveAddress, _, device, _, hdevice, rfl⟩ := parseEnd_ok hend
  obtain ⟨address, netmask⟩ := texts.address haveAddress
  refine ⟨texts.name, ?_, address, netmask, texts.hosts⟩
  rcases hdevice with rfl | rfl
  · exact texts.device
  · show 0 ∉ configDefaultDevice
    decide

end EdgarVPN
