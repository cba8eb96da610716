import EdgarVPN.Daemon.Loop

/-!
# What the failure counters do

`stat_auth_failures` and `stat_drops` are written and printed and never read. `observed` forgets
them; every part of the event loop does the same thing to what is observed and the same thing to the
outside, whatever they hold (`Daemon.step_observed`).
-/

set_option autoImplicit false

namespace EdgarVPN

/-- The peer without the counters of failures. -/
def PeerSession.observed (ps : PeerSession) : PeerSession :=
  { ps with statAuthFailures := 0, statDrops := 0 }

def Daemon.observed (d : Daemon) : Daemon := { d with peers := d.peers.map PeerSession.observed }

/-- What is observed of a peer's part of an event. -/
def observedPart (r : PeerSession × List Effect) : PeerSession × List Effect := (r.1.observed, r.2)

variable (S : Sodium) (host : Endian) (i : Nat) (ps : PeerSession)

@[simp] theorem observed_session : ps.observed.session = ps.session := rfl

/-- Branches that agree on what is observed, under the same condition. -/
theorem observedPart_ite {p q : Prop} [Decidable p] [Decidable q]
    {a b a' b' : PeerSession × List Effect} (same : p ↔ q)
    (hthen : observedPart a = observedPart a') (helse : observedPart b = observedPart b') :
    observedPart (if p then a else b) = observedPart (if q then a' else b') := by
  by_cases h : q
  · rw [if_pos h, if_pos (same.mpr h)]
    exact hthen
  · rw [if_neg h, if_neg fun hp => h (same.mp hp)]
    exact helse

/-! ## One peer -/

theorem forward_observed (packet : Bytes) (clock : UInt64) (sendOk : Bool) :
    observedPart (ps.observed.forward S i packet clock sendOk) =
      observedPart (ps.forward S i packet clock sendOk) := by
  refine observedPart_ite Iff.rfl rfl ?_
  rw [observed_session]
  cases sessionSealData S ps.session packet sealedBufSize with
  | mk s message =>
    cases message with
    | none => rfl
    | some message => cases sendOk <;> rfl

theorem receiveInit_observed (datagram : Bytes) (clock : UInt64) (kp : KeyPair) (sendOk : Bool) :
    observedPart (ps.observed.receiveInit S i datagram clock kp sendOk) =
      observedPart (ps.receiveInit S i datagram clock kp sendOk) := by
  unfold PeerSession.receiveInit
  simp only [observed_session]
  cases sessionHandleInit S kp ps.session datagram sessionHandshakeMsgLen with
  | mk s response =>
    cases response with
    | none => rfl
    | some response => cases sendOk <;> rfl

theorem receiveResponse_observed (datagram : Bytes) (clock : UInt64) :
    observedPart (ps.observed.receiveResponse S i datagram clock) =
      observedPart (ps.receiveResponse S i datagram clock) := by
  unfold PeerSession.receiveResponse
  simp only [observed_session]
  cases sessionHandleResponse S ps.session datagram with
  | mk s ok => cases ok <;> rfl

theorem receiveData_observed (datagram : Bytes) (clock : UInt64) (tunOk : Bool) :
    observedPart (ps.observed.receiveData S i datagram clock tunOk) =
      observedPart (ps.receiveData S i datagram clock tunOk) := by
  unfold PeerSession.receiveData
  simp only [observed_session]
  cases (sessionOpenData S ps.session datagram (List.replicate maxPacketSize 0)).plaintext? with
  | none => rfl
  | some packet =>
    cases packet with
    | nil => rfl
    | cons => cases tunOk <;> rfl

theorem receive_observed (datagram : Bytes) (clock : UInt64) (kp : KeyPair) (sendOk tunOk : Bool) :
    observedPart (ps.observed.receive S i datagram clock kp sendOk tunOk) =
      observedPart (ps.receive S i datagram clock kp sendOk tunOk) := by
  refine observedPart_ite Iff.rfl (receiveInit_observed S i ps datagram clock kp sendOk) ?_
  refine observedPart_ite Iff.rfl (receiveResponse_observed S i ps datagram clock) ?_
  exact observedPart_ite Iff.rfl (receiveData_observed S i ps datagram clock tunOk) rfl

theorem keepalive_observed (now : UInt64) (sendOk : Bool) :
    observedPart (ps.observed.keepalive S i now sendOk) =
      observedPart (ps.keepalive S i now sendOk) := by
  refine observedPart_ite Iff.rfl ?_ rfl
  rw [observed_session]
  cases sessionSealData S ps.session [] sealedBufSize with
  | mk s message =>
    cases message with
    | none => rfl
    | some message => cases sendOk <;> rfl

theorem sendInit_observed (now : UInt64) (env : Attempt) :
    observedPart (ps.observed.sendInit S now env) = observedPart (ps.sendInit S now env) := by
  unfold PeerSession.sendInit
  simp only [observed_session]
  cases sessionBuildInit S (sessionStartHandshake env.kp ps.session) sealedBufSize with
  | mk s message => cases message <;> rfl

theorem initiateHandshake_observed (now : UInt64) (env : Attempt) :
    observedPart (initiateHandshake S now env ps.observed) =
      observedPart (initiateHandshake S now env ps) := by
  refine observedPart_ite Iff.rfl (sendInit_observed S ps now env) ?_
  cases env.resolved with
  | none => rfl
  | some ip =>
    have resolved := sendInit_observed S
      { ps with lastRxActivityMs := now, addr := ⟨ip, ps.config.port⟩, addrResolved := true }
      now env
    exact resolved

theorem reconnect_observed (now : UInt64) (env : Attempt) :
    observedPart (ps.observed.reconnect S now env) = observedPart (ps.reconnect S now env) := by
  have attempt := initiateHandshake_observed S ps now env
  exact observedPart_ite Iff.rfl attempt (observedPart_ite Iff.rfl attempt rfl)

theorem tick_observed (now : UInt64) (env : Tick) :
    observedPart (ps.observed.tick S i now env) = observedPart (ps.tick S i now env) := by
  have first := keepalive_observed S i ps now env.keepaliveSent
  have second : ∀ {x y : PeerSession}, x.observed = y.observed →
      observedPart (x.reconnect S now env.toAttempt) =
        observedPart (y.reconnect S now env.toAttempt) := by
    intro x y h
    rw [← reconnect_observed S x, h, reconnect_observed S y]
  obtain ⟨hps, hsent⟩ := Prod.mk.inj first
  obtain ⟨hps', hretried⟩ := Prod.mk.inj (second hps)
  exact Prod.ext hps' (congrArg₂ (· ++ ·) hsent hretried)

/-! ## The daemon -/

theorem findPeerByAddr_observed (peers : List PeerSession) (source : SockAddr) :
    findPeerByAddr (peers.map PeerSession.observed) source = findPeerByAddr peers source := by
  unfold findPeerByAddr
  rw [List.findIdx?_map]
  rfl

theorem findResponderForInit_observed (kps : Nat → KeyPair) (input : Bytes) (outLen : Nat)
    (peers : List PeerSession) (i : Nat) :
    findResponderForInit S kps input outLen i (peers.map PeerSession.observed) =
      ((findResponderForInit S kps input outLen i peers).1.map PeerSession.observed,
        (findResponderForInit S kps input outLen i peers).2) := by
  induction peers generalizing i with
  | nil => rfl
  | cons ps peers ih =>
    simp only [List.map_cons, findResponderForInit, ih, observed_session]
    by_cases h : ps.config.role ≠ .responder
    · have h' : ps.observed.config.role ≠ .responder := h
      rw [if_pos h, if_pos h']
      rfl
    · have h' : ¬ ps.observed.config.role ≠ .responder := h
      rw [if_neg h, if_neg h']
      cases sessionHandleInit S (kps i) ps.session input outLen with
      | mk s response => cases response <;> rfl

/-- What is observed of an event. -/
def observedEvent (r : Daemon × List Effect) : Daemon × List Effect := (r.1.observed, r.2)

theorem map_set_observed {peers : List PeerSession} {j : Nat} {new new' : PeerSession}
    (h : new.observed = new'.observed) :
    ((peers.map PeerSession.observed).set j new).map PeerSession.observed =
      (peers.set j new').map PeerSession.observed := by
  rw [List.map_set, List.map_set, List.map_map, h]
  rfl

/-- One peer replaced, by peers that look the same. -/
theorem observedEvent_set {d : Daemon} {j : Nat} {r r' : PeerSession × List Effect}
    (h : observedPart r = observedPart r') :
    observedEvent ({ d.observed with peers := d.observed.peers.set j r.1 }, r.2) =
      observedEvent ({ d with peers := d.peers.set j r'.1 }, r'.2) := by
  obtain ⟨hps, heffects⟩ := Prod.mk.inj h
  refine Prod.ext ?_ heffects
  have hpeers : (d.observed.peers.set j r.1).map PeerSession.observed =
      (d.peers.set j r'.1).map PeerSession.observed := map_set_observed hps
  exact congrArg (Daemon.mk · d.lastStatsMs) hpeers

variable (d : Daemon)

theorem observed_get (i : Nat) : d.observed.peers[i]? = d.peers[i]?.map PeerSession.observed :=
  List.getElem?_map

theorem observed_observed : d.observed.observed = d.observed := by
  have hpeers : (d.peers.map PeerSession.observed).map PeerSession.observed =
      d.peers.map PeerSession.observed := List.map_map
  exact congrArg (Daemon.mk · d.lastStatsMs) hpeers

theorem tun_observed (packet : Bytes) (clock : UInt64) (sendOk : Bool) :
    observedEvent (d.observed.tun S host packet clock sendOk) =
      observedEvent (d.tun S host packet clock sendOk) := by
  have idle : observedEvent (d.observed, []) = observedEvent (d, []) :=
    Prod.ext (observed_observed d) rfl
  have configs : d.observed.peers.map PeerSession.config = d.peers.map PeerSession.config :=
    List.map_map
  unfold Daemon.tun
  dsimp only
  rw [configs]
  cases routingParseIpv4Dest (packet.take maxPacketSize) with
  | none => exact idle
  | some dest =>
    dsimp only
    cases routingFindPeerForDest host (d.peers.map PeerSession.config) dest with
    | none => exact idle
    | some i =>
      dsimp only
      rw [observed_get]
      cases d.peers[i]? with
      | none => exact idle
      | some ps => exact observedEvent_set (forward_observed S i ps _ clock sendOk)

theorem unknownInit_observed (datagram : Bytes) (source : SockAddr) (clock : UInt64)
    (kps : Nat → KeyPair) (sendOk : Bool) :
    observedEvent (d.observed.unknownInit S datagram source clock kps sendOk) =
      observedEvent (d.unknownInit S datagram source clock kps sendOk) := by
  have search := findResponderForInit_observed S kps datagram sessionHandshakeMsgLen d.peers 0
  have peers : d.observed.peers = d.peers.map PeerSession.observed := rfl
  unfold Daemon.unknownInit
  rw [peers, search]
  cases findResponderForInit S kps datagram sessionHandshakeMsgLen 0 d.peers with
  | mk peers matched =>
    have tried : observedEvent ({ d.observed with peers := peers.map PeerSession.observed }, []) =
        observedEvent ({ d with peers := peers }, []) :=
      Prod.ext (observed_observed { d with peers := peers }) rfl
    cases matched with
    | none => exact tried
    | some m =>
      obtain ⟨i, response⟩ := m
      dsimp only
      rw [List.getElem?_map]
      cases peers[i]? with
      | none => exact tried
      | some ps =>
        cases sendOk with
        | true =>
          have learned : ∀ effects : List Effect,
              observedPart (PeerSession.responded clock
                { ps.observed with addr := source, addrResolved := true }, effects) =
              observedPart (PeerSession.responded clock
                { ps with addr := source, addrResolved := true }, effects) := fun _ => rfl
          exact observedEvent_set (d := { d with peers := peers }) (learned _)
        | false => exact Prod.ext (observed_observed { d with peers := peers }) rfl

theorem udp_observed (datagram : Bytes) (source : SockAddr) (clock : UInt64) (kps : Nat → KeyPair)
    (sendOk tunOk : Bool) :
    observedEvent (d.observed.udp S datagram source clock kps sendOk tunOk) =
      observedEvent (d.udp S datagram source clock kps sendOk tunOk) := by
  have idle : observedEvent (d.observed, []) = observedEvent (d, []) :=
    Prod.ext (observed_observed d) rfl
  have length : d.observed.peers.length = d.peers.length := List.length_map ..
  have found : findPeerByAddr d.observed.peers source = findPeerByAddr d.peers source :=
    findPeerByAddr_observed d.peers source
  unfold Daemon.udp
  dsimp only
  rw [length, found]
  split
  · exact idle
  · cases findPeerByAddr d.peers source with
    | none =>
      dsimp only
      split
      · exact unknownInit_observed S d _ source clock kps sendOk
      · exact idle
    | some i =>
      dsimp only
      rw [observed_get]
      cases d.peers[i]? with
      | none => exact idle
      | some ps => exact observedEvent_set (receive_observed S i ps _ clock (kps i) sendOk tunOk)

theorem timer_observed (now : UInt64) (env : Nat → Tick) :
    observedEvent (d.observed.timer S now env) = observedEvent (d.timer S now env) := by
  have length : d.observed.peers.length = d.peers.length := List.length_map ..
  have ticked : (d.observed.peers.mapIdx fun i ps => ps.tick S i now (env i)).map observedPart =
      (d.peers.mapIdx fun i ps => ps.tick S i now (env i)).map observedPart := by
    apply List.ext_getElem?
    intro i
    rw [List.getElem?_map, List.getElem?_map, List.getElem?_mapIdx, List.getElem?_mapIdx,
      observed_get]
    cases d.peers[i]? with
    | none => rfl
    | some ps => exact congrArg some (tick_observed S i ps now (env i))
  have peers := congrArg (List.map Prod.fst) ticked
  rw [List.map_map, List.map_map] at peers
  have effects := congrArg (List.flatMap Prod.snd) ticked
  rw [List.flatMap_map, List.flatMap_map] at effects
  unfold Daemon.timer
  rw [length]
  split
  · refine Prod.ext ?_ (congrArg (· ++ [Effect.passed now]) effects)
    unfold observedEvent Daemon.observed
    dsimp only
    rw [List.map_map, List.map_map]
    exact congrArg (Daemon.mk · _) peers
  · exact Prod.ext (observed_observed d) rfl

/-- **The counters of failures change nothing that is observed.** An event does the same, up to
these counters and with the same effects, to two daemons that differ in them only. -/
theorem Daemon.step_observed (e : Event) :
    observedEvent (d.observed.step S host e) = observedEvent (d.step S host e) := by
  cases e with
  | tun packet clock sendOk => exact tun_observed S host d packet clock sendOk
  | udp datagram source clock kps sendOk tunOk =>
    exact udp_observed S d datagram source clock kps sendOk tunOk
  | timer now env => exact timer_observed S d now env

end EdgarVPN
