import EdgarVPN.Daemon.Did
import EdgarVPN.Daemon.Routes
import EdgarVPN.Lib.Runs

/-!
# Discarded packets and the counters of a peer

`stat_drops` and `stat_auth_failures` are incremented by hand where the loop discards a packet.
There are four such places (`Discard`), and they do not increment alike: a refused data packet
counts as a drop and as an authentication failure, a refused handshake message as an authentication
failure only, and the other two as a drop only.

**What is proved.** `Daemon.step_counts`: an event changes the two counters of a peer by what its
discard of that event adds, and by nothing if it discards none; so after a run they are the numbers
of discards, modulo the width of the counter (`World.run_counts`). From these, `refused_counted`: a
datagram refused for a peer adds one to its drops exactly when it is no handshake message, and
touches no other peer; and a peer's authentication failures stay within its drops exactly as long as
its refused handshake messages stay within the drops that are no authentication failures.
`replayed_init_uncounted` is a run in which they do not.
-/

set_option autoImplicit false

namespace EdgarVPN

variable (S : Sodium) (host : Endian)

/-! ## What is discarded -/

/-- Why the loop discards a packet of a peer. -/
inductive Discard where
  /-- A packet routed to a peer whose session is not established. -/
  | unestablished
  /-- A message of a type that is unexpected for the peer's role. -/
  | unexpected
  /-- A data packet that `session_open_data` refuses. -/
  | data
  /-- An init or a response that the session refuses. -/
  | handshake
deriving DecidableEq

/-- What a discard adds to `stat_drops`. -/
def Discard.drops : Discard → Nat
  | .handshake => 0
  | _ => 1

/-- What a discard adds to `stat_auth_failures`. -/
def Discard.authFailures : Discard → Nat
  | .data => 1
  | .handshake => 1
  | _ => 0

/-- Why a datagram from the peer's address is refused, if it is. -/
def PeerSession.refuses (datagram : Bytes) (kp : KeyPair) (ps : PeerSession) : Option Discard :=
  let type := datagram.getD 0 0
  if type = sessionMsgHandshakeInit ∧ ps.config.role = .responder then
    match (sessionHandleInit S kp ps.session datagram sessionHandshakeMsgLen).2 with
    | none => some .handshake
    | some _ => none
  else if type = sessionMsgHandshakeResponse ∧ ps.config.role = .initiator then
    if (sessionHandleResponse S ps.session datagram).2 then none else some .handshake
  else if type = sessionMsgData then
    match (sessionOpenData S ps.session datagram (List.replicate maxPacketSize 0)).ret with
    | none => some .data
    | some _ => none
  else
    some .unexpected

/-- Why an event discards a packet of the peer at index `i`, if it does. A datagram is a peer's when
`find_peer_by_addr` says so. -/
def Daemon.discards (i : Nat) (d : Daemon) : Event → Option Discard
  | .tun packet _ _ =>
    if routingRoute host (d.peers.map PeerSession.config) (packet.take maxPacketSize) = some i then
      match d.peers[i]? with
      | none => none
      | some ps => if ps.session.state = .established then none else some .unestablished
    else
      none
  | .udp datagram source _ kps _ _ =>
    if datagram.take sealedBufSize ≠ [] ∧ findPeerByAddr d.peers source = some i then
      match d.peers[i]? with
      | none => none
      | some ps => ps.refuses S (datagram.take sealedBufSize) (kps i)
    else
      none
  | .timer _ _ => none

/-- How many packets of the peer at index `i` a run discards for a reason. -/
def World.discarded (i : Nat) (reason : Discard) : World → List Event → Nat
  | _, [] => 0
  | w, e :: es =>
    (if w.daemon.discards S host i e = some reason then 1 else 0) +
      World.discarded i reason (w.step S host e) es

variable {S host}

/-! ## The counters -/

/-- The two counters after a discard, or without one. -/
structure PeerSession.Counts (ps : PeerSession) (discard : Option Discard) (ps' : PeerSession) :
    Prop where
  drops : ps'.statDrops = ps.statDrops + UInt64.ofNat ((discard.map Discard.drops).getD 0)
  authFailures : ps'.statAuthFailures =
    ps.statAuthFailures + UInt64.ofNat ((discard.map Discard.authFailures).getD 0)

variable {ps ps' ps'' : PeerSession} {discard : Option Discard}

/-- Functions that leave the counters count nothing. -/
theorem PeerSession.Counts.same (drops : ps'.statDrops = ps.statDrops)
    (authFailures : ps'.statAuthFailures = ps.statAuthFailures) : ps.Counts none ps' where
  drops := drops.trans (UInt64.add_zero _).symm
  authFailures := authFailures.trans (UInt64.add_zero _).symm

theorem PeerSession.Counts.refl (ps : PeerSession) : ps.Counts none ps := .same rfl rfl

theorem PeerSession.Counts.trans (h : ps.Counts none ps') (h' : ps'.Counts discard ps'') :
    ps.Counts discard ps'' where
  drops := by rw [h'.drops, h.drops]; simp
  authFailures := by rw [h'.authFailures, h.authFailures]; simp

theorem sendInit_counts (now : UInt64) (env : Attempt) (ps : PeerSession) :
    ps.Counts none (ps.sendInit S now env).1 := by
  unfold PeerSession.sendInit
  dsimp only
  split
  · exact .same rfl rfl
  · exact .same rfl rfl

theorem initiateHandshake_counts (now : UInt64) (env : Attempt) (ps : PeerSession) :
    ps.Counts none (initiateHandshake S now env ps).1 := by
  unfold initiateHandshake
  split
  · exact sendInit_counts now env ps
  · dsimp only
    split
    · exact .same rfl rfl
    · refine .trans ?_ (sendInit_counts now env _)
      exact .same rfl rfl

theorem keepalive_counts (i : Nat) (now : UInt64) (sendOk : Bool) (ps : PeerSession) :
    ps.Counts none (ps.keepalive S i now sendOk).1 := by
  unfold PeerSession.keepalive
  split
  · split
    · exact .same rfl rfl
    · dsimp only
      split
      · exact .same rfl rfl
      · exact .same rfl rfl
  · exact .refl ps

theorem reconnect_counts (now : UInt64) (env : Attempt) (ps : PeerSession) :
    ps.Counts none (ps.reconnect S now env).1 := by
  unfold PeerSession.reconnect
  split
  · exact initiateHandshake_counts now env ps
  · split
    · exact initiateHandshake_counts now env ps
    · exact .refl ps

/-- The timer pass counts nothing. -/
theorem tick_counts (i : Nat) (now : UInt64) (env : Tick) (ps : PeerSession) :
    ps.Counts none (ps.tick S i now env).1 :=
  .trans (keepalive_counts i now env.keepaliveSent ps) (reconnect_counts now env.toAttempt _)

/-- The TUN branch drops before the session is established, and then never again. -/
theorem forward_counts (i : Nat) (packet : Bytes) (clock : UInt64) (sendOk : Bool)
    (ps : PeerSession) :
    ps.Counts (if ps.session.state = .established then none else some .unestablished)
      (ps.forward S i packet clock sendOk).1 := by
  unfold PeerSession.forward
  by_cases established : ps.session.state = .established
  · rw [if_neg (not_not_intro established), if_pos established]
    split
    · exact .same rfl rfl
    · dsimp only
      split
      · exact .same rfl rfl
      · exact .same rfl rfl
  · rw [if_pos established, if_neg established]
    exact ⟨rfl, (UInt64.add_zero _).symm⟩

/-- The dispatch of a datagram counts what it refuses. -/
theorem receive_counts (i : Nat) (datagram : Bytes) (clock : UInt64) (kp : KeyPair)
    (sendOk tunOk : Bool) (ps : PeerSession) :
    ps.Counts (ps.refuses S datagram kp) (ps.receive S i datagram clock kp sendOk tunOk).1 := by
  unfold PeerSession.receive PeerSession.refuses
  dsimp only
  split
  · unfold PeerSession.receiveInit
    cases hinit : sessionHandleInit S kp ps.session datagram sessionHandshakeMsgLen with
    | mk s reply =>
      cases reply with
      | none => exact ⟨(UInt64.add_zero _).symm, rfl⟩
      | some response =>
        dsimp only
        split
        · exact .same rfl rfl
        · exact .same rfl rfl
  split
  · unfold PeerSession.receiveResponse
    cases hresponse : sessionHandleResponse S ps.session datagram with
    | mk s accepted =>
      cases accepted with
      | false => exact ⟨(UInt64.add_zero _).symm, rfl⟩
      | true => exact .same rfl rfl
  split
  · unfold PeerSession.receiveData
    dsimp only
    cases hret : (sessionOpenData S ps.session datagram (List.replicate maxPacketSize 0)).ret with
    | none =>
      rw [Opened.plaintext?, hret]
      exact ⟨rfl, rfl⟩
    | some length =>
      rw [Opened.plaintext?, hret]
      dsimp only [Option.map_some]
      split
      · next h => cases h
      · exact .same rfl rfl
      · split
        · exact .same rfl rfl
        · exact .same rfl rfl
  · exact ⟨rfl, (UInt64.add_zero _).symm⟩

/-! ## One event -/

variable (host)

section Step

variable {d : Daemon} {i : Nat}

theorem tun_counts (packet : Bytes) (clock : UInt64) (sendOk : Bool)
    (get : d.peers[i]? = some ps) :
    ∃ ps', (d.tun S host packet clock sendOk).1.peers[i]? = some ps' ∧
      ps.Counts (d.discards S host i (.tun packet clock sendOk)) ps' := by
  rw [Daemon.tun_route, Daemon.discards]
  generalize routingRoute host (d.peers.map PeerSession.config) (packet.take maxPacketSize) = route
  cases route with
  | none => exact ⟨ps, get, .refl ps⟩
  | some j =>
    dsimp only
    by_cases hij : j = i
    · subst hij
      rw [if_pos rfl, get]
      exact ⟨_, (set_get get).trans (by rw [if_pos rfl]), forward_counts ..⟩
    · rw [if_neg (mt Option.some.inj hij)]
      refine ⟨ps, ?_, .refl ps⟩
      cases d.peers[j]? with
      | none => exact get
      | some psj => exact (set_get get).trans (by rw [if_neg hij])

/-- The search for a responder, and the learning of an address, count nothing. -/
theorem PeerMove.counts_of_unknown {datagram : Bytes} {source : SockAddr} {clock : UInt64}
    {kps : Nat → KeyPair} {sendOk tunOk : Bool} {effects : List Effect}
    (move : PeerMove S d i ps (.udp datagram source clock kps sendOk tunOk) ps' effects)
    (other : findPeerByAddr d.peers source ≠ some i) : ps.Counts none ps' := by
  cases move with
  | untouched => exact .refl ps
  | received found => exact absurd found other
  | refused => exact .same rfl rfl
  | matched =>
    split
    · exact .same rfl rfl
    · exact .same rfl rfl

theorem udp_counts (datagram : Bytes) (source : SockAddr) (clock : UInt64) (kps : Nat → KeyPair)
    (sendOk tunOk : Bool) (get : d.peers[i]? = some ps) :
    ∃ ps', (d.udp S datagram source clock kps sendOk tunOk).1.peers[i]? = some ps' ∧
      ps.Counts (d.discards S host i (.udp datagram source clock kps sendOk tunOk)) ps' := by
  rw [Daemon.discards]
  by_cases found : findPeerByAddr d.peers source = some i
  · by_cases empty : datagram.take sealedBufSize = []
    · rw [if_neg fun h => h.1 empty]
      refine ⟨ps, ?_, .refl ps⟩
      rw [Daemon.udp, empty, if_pos (.inr Nat.zero_lt_one)]
      exact get
    · rw [if_pos ⟨empty, found⟩, get, udp_known i clock found get empty]
      exact ⟨_, (set_get get).trans (by rw [if_pos rfl]), receive_counts ..⟩
  · rw [if_neg fun h => found h.2]
    obtain ⟨ps', effects, get', -, move⟩ :=
      (udp_did (S := S) clock datagram source kps sendOk tunOk d).get get
    exact ⟨ps', get', move.counts_of_unknown found⟩

/-- **What an event adds to the counters of a peer** is what its discard adds. -/
theorem Daemon.step_counts (e : Event) (get : d.peers[i]? = some ps) :
    ∃ ps', (d.step S host e).1.peers[i]? = some ps' ∧
      ps.Counts (d.discards S host i e) ps' := by
  cases e with
  | tun packet clock sendOk => exact tun_counts host packet clock sendOk get
  | udp datagram source clock kps sendOk tunOk =>
    exact udp_counts host datagram source clock kps sendOk tunOk get
  | timer now env =>
    refine ⟨(ps.tick S i now (env i)).1, ?_, tick_counts i now (env i) ps⟩
    rw [Daemon.step, timer_get, get]
    rfl

/-- A discard of one peer leaves all others. -/
theorem Daemon.step_others {e : Event} {reason : Discard}
    (h : d.discards S host i e = some reason) {j : Nat} (other : j ≠ i) :
    (d.step S host e).1.peers[j]? = d.peers[j]? := by
  cases e with
  | tun packet clock sendOk =>
    rw [Daemon.step, Daemon.tun_route]
    rw [Daemon.discards] at h
    split at h
    · next route =>
      rw [route]
      dsimp only
      cases d.peers[i]? with
      | none => rfl
      | some ps => exact List.getElem?_set_ne other.symm
    · cases h
  | udp datagram source clock kps sendOk tunOk =>
    rw [Daemon.discards] at h
    split at h
    · next attributed =>
      cases hget : d.peers[i]? with
      | none => rw [hget] at h; cases h
      | some ps =>
        rw [Daemon.step, udp_known i clock attributed.2 hget attributed.1]
        exact List.getElem?_set_ne other.symm
    · cases h
  | timer now env => cases h

end Step

/-! ## Whole runs -/

section Runs

variable {w : World} {i : Nat}

/-- What a run adds to `stat_drops`, as a number. -/
def World.dropped (S : Sodium) (host : Endian) (i : Nat) (w : World) (es : List Event) : Nat :=
  w.discarded S host i .data es + w.discarded S host i .unexpected es +
    w.discarded S host i .unestablished es

/-- What a run adds to `stat_auth_failures`, as a number. -/
def World.unauthenticated (S : Sodium) (host : Endian) (i : Nat) (w : World) (es : List Event) :
    Nat :=
  w.discarded S host i .data es + w.discarded S host i .handshake es

/-- One event's part of the numbers. -/
theorem World.dropped_cons (e : Event) (es : List Event) :
    w.dropped S host i (e :: es) =
        ((w.daemon.discards S host i e).map Discard.drops).getD 0 +
          (w.step S host e).dropped S host i es ∧
      w.unauthenticated S host i (e :: es) =
        ((w.daemon.discards S host i e).map Discard.authFailures).getD 0 +
          (w.step S host e).unauthenticated S host i es := by
  have cons (reason : Discard) : w.discarded S host i reason (e :: es) =
      (if w.daemon.discards S host i e = some reason then 1 else 0) +
        (w.step S host e).discarded S host i reason es := rfl
  simp only [World.dropped, World.unauthenticated, cons]
  cases w.daemon.discards S host i e with
  | none => simp
  | some reason => cases reason <;> simp [Discard.drops, Discard.authFailures] <;> omega

/-- **The counters after a run** are the numbers of what it discarded. -/
theorem World.run_counts (es : List Event) (get : w.daemon.peers[i]? = some ps) :
    ∃ ps', (es.foldl (World.step S host) w).daemon.peers[i]? = some ps' ∧
      ps'.statDrops = ps.statDrops + UInt64.ofNat (w.dropped S host i es) ∧
      ps'.statAuthFailures =
        ps.statAuthFailures + UInt64.ofNat (w.unauthenticated S host i es) := by
  induction es generalizing w ps with
  | nil => exact ⟨ps, get, (UInt64.add_zero _).symm, (UInt64.add_zero _).symm⟩
  | cons e es ih =>
    obtain ⟨ps', get', counts⟩ := Daemon.step_counts (S := S) host e get
    have hstep : (w.step S host e).daemon.peers[i]? = some ps' := get'
    obtain ⟨ps'', get'', hdrops, hauth⟩ := ih hstep
    obtain ⟨hdropped, hunauthenticated⟩ := World.dropped_cons (S := S) (i := i) host e es
    refine ⟨ps'', get'', ?_, ?_⟩
    · rw [hdrops, counts.drops, hdropped, UInt64.ofNat_add, UInt64.add_assoc]
    · rw [hauth, counts.authFailures, hunauthenticated, UInt64.ofNat_add, UInt64.add_assoc]

/-- An event discards at most one packet of a peer. -/
theorem World.dropped_le (es : List Event) : w.dropped S host i es ≤ es.length := by
  induction es generalizing w with
  | nil => exact Nat.le_refl 0
  | cons e es ih =>
    have one : ((w.daemon.discards S host i e).map Discard.drops).getD 0 ≤ 1 := by
      cases w.daemon.discards S host i e with
      | none => exact Nat.zero_le 1
      | some reason => cases reason <;> decide
    have rest := ih (w := w.step S host e)
    rw [(World.dropped_cons host e es).1, List.length_cons]
    omega

/-- A daemon starts with its counters at zero. -/
theorem World.start_counts {cfg : Config} {boots : Nat → Boot} {clock : UInt64}
    (start : World.start S cfg boots clock = some w) (get : w.daemon.peers[i]? = some ps) :
    ps.statDrops = 0 ∧ ps.statAuthFailures = 0 := by
  obtain ⟨config, effects, -, -, hstart⟩ := World.start_get start get
  obtain ⟨session, -, ⟨-, attempt⟩ | ⟨-, fresh⟩⟩ := startPeer_eq hstart
  · have counts := initiateHandshake_counts (S := S) (boots i).attemptClock (boots i).toAttempt
      (PeerSession.fresh config session (boots i).clock)
    rw [← attempt] at counts
    exact ⟨counts.drops, counts.authFailures⟩
  · cases fresh
    exact ⟨rfl, rfl⟩

theorem World.run_length (es : List Event) (w : World) :
    (es.foldl (World.step S host) w).daemon.peers.length = w.daemon.peers.length := by
  induction es generalizing w with
  | nil => rfl
  | cons e es ih => exact (ih (w.step S host e)).trans (Daemon.step_length host e w.daemon)

/-- The counters that a run from the start has reached. -/
theorem World.reached_counts {cfg : Config} {boots : Nat → Boot} {clock : UInt64}
    (start : World.start S cfg boots clock = some w) {es : List Event}
    (get : (es.foldl (World.step S host) w).daemon.peers[i]? = some ps) :
    ps.statDrops = UInt64.ofNat (w.dropped S host i es) ∧
      ps.statAuthFailures = UInt64.ofNat (w.unauthenticated S host i es) := by
  obtain ⟨hlt, -⟩ := List.getElem?_eq_some_iff.mp get
  rw [World.run_length] at hlt
  have first := List.getElem?_eq_getElem hlt
  obtain ⟨hdrops, hauth⟩ := World.start_counts start first
  obtain ⟨ps', get', counted⟩ := World.run_counts (S := S) host es first
  cases get.symm.trans get'
  rwa [hdrops, hauth, UInt64.zero_add, UInt64.zero_add] at counted

/-- A packet that an event discards for a peer adds one to the drops of that peer exactly when it is
no handshake message, and changes nothing of any other peer. -/
def World.Counted (S : Sodium) (host : Endian) (w : World) (e : Event) : Prop :=
  ∀ i ps reason, w.daemon.peers[i]? = some ps → w.daemon.discards S host i e = some reason →
    ∃ ps', (w.step S host e).daemon.peers[i]? = some ps' ∧
      (ps'.statDrops = ps.statDrops + 1 ↔ reason ≠ .handshake) ∧
      ∀ j, j ≠ i → (w.step S host e).daemon.peers[j]? = w.daemon.peers[j]?

theorem World.counted (w : World) (e : Event) : w.Counted S host e := by
  intro i ps reason get discards
  obtain ⟨ps', get', counts⟩ := Daemon.step_counts (S := S) host e get
  refine ⟨ps', get', ?_, fun j other => Daemon.step_others host discards other⟩
  rw [counts.drops, discards, UInt64.add_right_inj]
  cases reason <;> decide

/-- **When discarded datagrams are counted.** In every run from the start, a datagram that is
refused for a peer adds one to its drops exactly when it is no handshake message, and leaves every
other peer. In every state reached, a peer's authentication failures are at most its drops exactly
when the numbers of what was discarded say so, counted modulo `2 ^ 64`; and so they are where no
handshake message of the peer was refused, for runs too short to wrap a counter. -/
theorem refused_counted {cfg : Config} {boots : Nat → Boot} {clock : UInt64}
    (start : World.start S cfg boots clock = some w) (es : List Event) :
    Runs.Admitted (World.step S host) (World.Counted S host) w es ∧
      ∀ i ps, (es.foldl (World.step S host) w).daemon.peers[i]? = some ps →
        (ps.statAuthFailures ≤ ps.statDrops ↔
          (w.discarded S host i .data es + w.discarded S host i .handshake es) % 2 ^ 64 ≤
            (w.discarded S host i .data es + w.discarded S host i .unexpected es +
              w.discarded S host i .unestablished es) % 2 ^ 64) ∧
        (w.discarded S host i .handshake es = 0 → es.length < 2 ^ 64 →
          ps.statAuthFailures ≤ ps.statDrops) := by
  refine ⟨Runs.Admitted.of_forall (World.counted host) es w, fun i ps get => ?_⟩
  have exact_ : ps.statAuthFailures ≤ ps.statDrops ↔
      w.unauthenticated S host i es % 2 ^ 64 ≤ w.dropped S host i es % 2 ^ 64 := by
    obtain ⟨hdrops, hauth⟩ := World.reached_counts host start get
    rw [hdrops, hauth, UInt64.le_iff_toNat_le, UInt64.toNat_ofNat', UInt64.toNat_ofNat']
  refine ⟨exact_, fun none_ short => exact_.mpr ?_⟩
  have hle := World.dropped_le (S := S) (w := w) (i := i) host es
  have hauth : w.unauthenticated S host i es ≤ w.dropped S host i es := by
    unfold World.unauthenticated World.dropped
    omega
  rw [Nat.mod_eq_of_lt (by omega), Nat.mod_eq_of_lt (by omega)]
  exact hauth

/-- An init, the same init again from the same address, and a message of no known type. -/
def repeatedInit : List Event :=
  [.udp (peerInit 1 7 (referencePair 5)) (sampleSource 9) 10 (fun _ => referencePair 30) true true,
    .udp (peerInit 1 7 (referencePair 5)) (sampleSource 9) 20 (fun _ => referencePair 31) true true,
    .udp [9] (sampleSource 9) 30 (fun _ => referencePair 31) true true]

theorem refused_counted_repeatedInit :
    World.start reference sampleConfig sampleBoots 0 = some sampleWorld ∧
      sampleWorld.discarded reference .little 0 .handshake repeatedInit = 1 ∧
      sampleWorld.discarded reference .little 0 .unexpected repeatedInit = 1 ∧
      Runs.Admitted (World.step reference .little) (World.Counted reference .little) sampleWorld
        repeatedInit ∧
      ∀ i ps, (repeatedInit.foldl (World.step reference .little) sampleWorld).daemon.peers[i]? =
          some ps →
        (ps.statAuthFailures ≤ ps.statDrops ↔
          (sampleWorld.discarded reference .little i .data repeatedInit +
            sampleWorld.discarded reference .little i .handshake repeatedInit) % 2 ^ 64 ≤
            (sampleWorld.discarded reference .little i .data repeatedInit +
              sampleWorld.discarded reference .little i .unexpected repeatedInit +
              sampleWorld.discarded reference .little i .unestablished repeatedInit) % 2 ^ 64) ∧
        (sampleWorld.discarded reference .little i .handshake repeatedInit = 0 →
          repeatedInit.length < 2 ^ 64 → ps.statAuthFailures ≤ ps.statDrops) :=
  ⟨sampleWorld_start, by decide +kernel, by decide +kernel,
    refused_counted .little sampleWorld_start repeatedInit⟩

/-- **A replayed init is refused and no drop.** Of the run above, after its second event: the
datagram was refused for the peer it came from, which has one authentication failure and no drop. -/
theorem replayed_init_uncounted :
    World.start reference sampleConfig sampleBoots 0 = some sampleWorld ∧
      sampleWorld.discarded reference .little 0 .handshake (repeatedInit.take 2) = 1 ∧
      ((repeatedInit.take 2).foldl (World.step reference .little) sampleWorld).daemon.peers[0]?.map
        (fun ps => (ps.statAuthFailures, ps.statDrops)) = some (1, 0) :=
  ⟨sampleWorld_start, by decide +kernel, by decide +kernel⟩

end Runs

end EdgarVPN
