import EdgarVPN.Daemon.Observed
import EdgarVPN.Daemon.Pacing

/-!
# Garbage and replays are invisible

What a datagram can do depends on whether a session reads it. One that no session of the daemon
reads moves `stat_auth_failures` and `stat_drops` at most, from whatever address it comes
(`udp_ignored`). No session reads a payload that opens under none of its keys, and, by what the
daemon remembers (`Remembers`), none reads a copy of what was accepted before.

**What is proved.** Insert any number of such datagrams at any points of any run: the two runs end
with the same peers up to those two counters, and with the same log, so with the same datagrams sent
and the same packets written (`inserted_invisible`). The clock enters because a response that was
accepted must not be awaited again: the counters of a run do not wrap (`World.Paced`).
-/

set_option autoImplicit false

namespace EdgarVPN

variable {S : Sodium} {d : Daemon} {w : World} {i j : Nat} {ps ps' : PeerSession}

/-! ## What no session reads -/

/-- No function of the session accepts the datagram. -/
structure PeerSession.Ignores (S : Sodium) (ps : PeerSession) (datagram : Bytes) : Prop where
  init : sessionReadInit S ps.session datagram sessionHandshakeMsgLen = none
  response : sessionReadResponse S ps.session datagram = none
  data : (sessionOpenData S ps.session datagram (List.replicate maxPacketSize 0)).plaintext? = none

/-- A datagram that a peer ignores moves the counters of failures at most. -/
theorem receive_ignored {datagram : Bytes} (ignores : ps.Ignores S datagram) (clock : UInt64)
    (kp : KeyPair) (sendOk tunOk : Bool) :
    observedPart (ps.receive S i datagram clock kp sendOk tunOk) = (ps.observed, []) := by
  unfold PeerSession.receive
  dsimp only
  split
  · unfold PeerSession.receiveInit
    rw [sessionHandleInit_unread ignores.init]
    rfl
  · split
    · unfold PeerSession.receiveResponse
      rw [sessionHandleResponse_unread ignores.response]
      rfl
    · split
      · unfold PeerSession.receiveData
        dsimp only
        rw [ignores.data, sessionOpenData_eq_none ignores.data]
        rfl
      · rfl

/-- A search in which no peer reads the init finds none and changes none. -/
theorem findResponderForInit_ignored {datagram : Bytes} {kps : Nat → KeyPair}
    {peers : List PeerSession} (ignores : ∀ ps ∈ peers, ps.Ignores S datagram) (i : Nat) :
    findResponderForInit S kps datagram sessionHandshakeMsgLen i peers = (peers, none) := by
  induction peers generalizing i with
  | nil => rfl
  | cons ps peers ih =>
    have rest := ih (fun p hp => ignores p (List.mem_cons_of_mem _ hp)) (i + 1)
    have here : sessionHandleInit S (kps i) ps.session datagram sessionHandshakeMsgLen = _ :=
      sessionHandleInit_unread (ignores ps List.mem_cons_self).init
    simp only [findResponderForInit, rest, here]
    split <;> rfl

/-- **A datagram that every peer ignores is invisible**: from any address, it changes the two
counters of failures at most, and sends and writes nothing. -/
theorem udp_ignored {datagram : Bytes} {source : SockAddr} {clock : UInt64} {kps : Nat → KeyPair}
    {sendOk tunOk : Bool} (ignores : ∀ ps ∈ d.peers, ps.Ignores S (datagram.take sealedBufSize)) :
    observedEvent (d.udp S datagram source clock kps sendOk tunOk) = (d.observed, []) := by
  unfold Daemon.udp
  dsimp only
  split
  · rfl
  · cases findPeerByAddr d.peers source with
    | none =>
      dsimp only
      split
      · unfold Daemon.unknownInit
        rw [findResponderForInit_ignored ignores]
        rfl
      · rfl
    | some j =>
      dsimp only
      cases get : d.peers[j]? with
      | none => rfl
      | some ps =>
        have here := receive_ignored (i := j) (ignores ps (List.mem_of_getElem? get)) clock (kps j)
          sendOk tunOk
        obtain ⟨hps, heffects⟩ := Prod.mk.inj here
        refine Prod.ext ?_ heffects
        have hpeers : (d.peers.set j (ps.receive S j (datagram.take sealedBufSize) clock (kps j)
            sendOk tunOk).1).map PeerSession.observed = d.peers.map PeerSession.observed := by
          rw [List.map_set, hps, ← List.map_set]
          congr 1
          obtain ⟨hlt, rfl⟩ := List.getElem?_eq_some_iff.mp get
          exact List.set_getElem_self hlt
        exact congrArg (Daemon.mk · d.lastStatsMs) hpeers

/-! ## Garbage -/

/-- `crypto_open` accepts the payload under no static receive key, and under no data receive key of
an established session. -/
def Daemon.Garbage (S : Sodium) (d : Daemon) (datagram : Bytes) : Prop :=
  ∀ ps ∈ d.peers,
    cryptoOpen S ps.session.staticKeys.rx datagram.tail cryptoPublicKeyBytes = none ∧
    (ps.session.state = .established →
      cryptoOpen S ps.session.dataKeys.rx datagram.tail maxPacketSize = none)

instance (datagram : Bytes) : Decidable (d.Garbage S datagram) := by
  unfold Daemon.Garbage
  infer_instance

theorem Daemon.Garbage.ignored {datagram : Bytes} (garbage : d.Garbage S datagram)
    (hps : ps ∈ d.peers) : ps.Ignores S datagram := by
  obtain ⟨static, data⟩ := garbage ps hps
  refine ⟨sessionReadInit_unopened static _, sessionReadResponse_unopened static,
    sessionOpenData_unopened ?_⟩
  rw [List.length_replicate]
  exact data

/-! ## Copies -/

section Copies

variable {cfg : Config} {boots : Nat → Boot} {datagram : Bytes}

/-- An accepted payload authenticates for one peer at most. -/
theorem Remembers.static_one (rem : Remembers S cfg boots w) (apart : cfg.KeysHeldApart S w.log)
    (distinct : (cfg.peers.map (·.publicKey)).Nodup) (copy : datagram ∈ acceptedIn w.log)
    (geti : w.daemon.peers[i]? = some ps) (getj : w.daemon.peers[j]? = some ps')
    (authi : (authenticates S ps.session.staticKeys.rx datagram.tail).isSome = true)
    (authj : (authenticates S ps'.session.staticKeys.rx datagram.tail).isSome = true) : i = j := by
  have ki := rem.driven.keyed i ps geti
  have kj := rem.driven.keyed j ps' getj
  have same := apart.opens datagram copy _ (ki.mem_heldRx w.log) _ (kj.mem_heldRx w.log) authi authj
  have hpk : ps.config.publicKey = ps'.config.publicKey := by
    by_contra hne
    exact apart.static _ (List.mem_of_getElem? ki.config) _ (List.mem_of_getElem? kj.config) hne _
      ki.static _ kj.static same
  obtain ⟨hlt, _⟩ := List.getElem?_eq_some_iff.mp ki.config
  refine (List.getElem?_inj (by rw [List.length_map]; exact hlt) distinct).mp ?_
  rw [List.getElem?_map, List.getElem?_map, ki.config, kj.config]
  exact congrArg some hpk

/-- **No peer reads a copy of what was accepted.** The peer that accepted it has it behind its
counter or in its window, or the key is gone; another peer holds other keys. -/
theorem Remembers.ignores (rem : Remembers S cfg boots w) (apart : cfg.KeysHeldApart S w.log)
    (distinct : (cfg.peers.map (·.publicKey)).Nodup) (copy : datagram ∈ acceptedIn w.log)
    (get : w.daemon.peers[i]? = some ps) : ps.Ignores S datagram := by
  obtain ⟨x, hx, hcopy⟩ := List.mem_filterMap.mp copy
  obtain ⟨j, t, rfl⟩ : ∃ j t, x = .accepted j datagram t := by
    cases x with
    | accepted j datagram' t => cases hcopy; exact ⟨j, t, rfl⟩
    | _ => cases hcopy
  constructor
  · by_contra hread
    obtain ⟨⟨peer, counter⟩, hread⟩ := Option.ne_none_iff_exists'.mp hread
    obtain ⟨_, _, payload, rfl, auth, _⟩ := sessionReadInit_eq_some hread
    obtain ⟨k, psk, _, getk, _, heq, stale⟩ := rem.inits _ (List.mem_filterMap.mpr ⟨_, hx, rfl⟩)
    cases heq
    have hik := rem.static_one apart distinct copy get getk
        (by rw [List.tail_cons, auth]; rfl) <| by
      obtain ⟨_, _, authk, _⟩ := stale
      rw [List.tail_cons, authk]
      rfl
    subst hik
    cases get.symm.trans getk
    rw [stale.unread] at hread
    cases hread
  · by_contra hread
    obtain ⟨peer, hread⟩ := Option.ne_none_iff_exists'.mp hread
    obtain ⟨_, _, payload, rfl, auth⟩ := sessionReadResponse_eq_some hread
    obtain ⟨psj, getj, _, concluded⟩ := rem.responses j payload t hx
    have hij := rem.static_one apart distinct copy get getj
        (by rw [List.tail_cons, auth]; rfl) <| by
      obtain ⟨_, _, authj, _⟩ := concluded
      rw [List.tail_cons, authj]
      rfl
    subst hij
    cases get.symm.trans getj
    rw [concluded.unread] at hread
    cases hread
  · by_contra hopened
    obtain ⟨plaintext, hopened⟩ := Option.ne_none_iff_exists'.mp hopened
    obtain ⟨established, payload, _, counter, rfl, auth, fresh, _⟩ :=
      sessionOpenData_eq_some hopened
    obtain ⟨seen, hseen, marked⟩ := rem.windows i ps get established
    have hmem := marked j payload _ t counter hx auth
    exact ((replayCheckAndMark_accepts hseen counter).mp fresh).1 hmem

end Copies

/-! ## Runs -/

/-- The event is a datagram that is garbage, or a copy of one accepted before. -/
def Event.Inert (S : Sodium) (w : World) (e : Event) : Prop :=
  ∃ datagram ∈ e.received?, w.daemon.Garbage S datagram ∨ datagram ∈ acceptedIn w.log

theorem Event.Inert.invisible {host : Endian} {cfg : Config} {boots : Nat → Boot} {e : Event}
    (inert : e.Inert S w) (rem : Remembers S cfg boots w) (apart : cfg.KeysHeldApart S w.log)
    (distinct : (cfg.peers.map (·.publicKey)).Nodup) :
    observedEvent (w.daemon.step S host e) = (w.daemon.observed, []) := by
  obtain ⟨bytes, received, inert⟩ := inert
  have ignores : ∀ ps ∈ w.daemon.peers, ps.Ignores S bytes := by
    intro ps hps
    rcases inert with garbage | copy
    · exact garbage.ignored hps
    · obtain ⟨i, get⟩ := List.mem_iff_getElem?.mp hps
      exact rem.ignores apart distinct copy get
  cases e with
  | tun => cases received
  | timer => cases received
  | udp =>
    cases received
    exact udp_ignored ignores

/-- The two worlds look the same from outside. -/
def World.Alike (v w : World) : Prop := v.daemon.observed = w.daemon.observed ∧ v.log = w.log

theorem World.Alike.step {host : Endian} {v : World} (alike : v.Alike w) (e : Event) :
    (v.step S host e).Alike (w.step S host e) := by
  have same : observedEvent (v.daemon.step S host e) = observedEvent (w.daemon.step S host e) := by
    rw [← Daemon.step_observed S host v.daemon, alike.1, Daemon.step_observed]
  obtain ⟨hdaemon, heffects⟩ := Prod.mk.inj same
  exact ⟨hdaemon, congrArg₂ (· ++ ·) alike.2 heffects⟩

theorem World.Alike.inert {host : Endian} {v : World} {e : Event} (alike : v.Alike w)
    (invisible : observedEvent (w.daemon.step S host e) = (w.daemon.observed, [])) :
    v.Alike (w.step S host e) := by
  obtain ⟨hdaemon, heffects⟩ := Prod.mk.inj invisible
  refine ⟨alike.1.trans hdaemon.symm, ?_⟩
  rw [World.step_log, heffects, List.append_nil]
  exact alike.2

/-- **Garbage and replays are invisible.** Insert, anywhere in a run from start, datagrams that open
under no key of the daemon, or copies of ones it has accepted, from any address: the peers end as
they would have without them, up to `stat_auth_failures` and `stat_drops`, and the log is the same,
so nothing else is sent or written. The premises are that the peers have different public keys, that
the clock does not go back, from the readings before the loop on (`BootsClocked`), and that the keys
are apart (`Config.KeysHeldApart`). -/
theorem inserted_invisible {host : Endian} {cfg : Config} {boots : Nat → Boot} {clock : UInt64}
    (aead : S.Aead) (distinct : (cfg.peers.map (·.publicKey)).Nodup)
    (booted : BootsClocked boots clock) (start : World.start S cfg boots clock = some w)
    {events inserted : List Event}
    (weave : Runs.Weave (World.step S host) (Event.Inert S) w events inserted)
    (clocked : Runs.Admitted (World.step S host) (fun w e => e.Clocked w) w inserted)
    (apart : cfg.KeysHeldApart S (inserted.foldl (World.step S host) w).log) :
    (events.foldl (World.step S host) w).daemon.observed =
        (inserted.foldl (World.step S host) w).daemon.observed ∧
      (events.foldl (World.step S host) w).log = (inserted.foldl (World.step S host) w).log := by
  have seeds : ∀ i, (boots i).time.toNat < 2 ^ 63 := fun i => (booted i).1
  have room : ∀ i, (boots i).time.toNat + 1 < 2 ^ 64 := fun i => by
    have := seeds i
    omega
  have guarded := clocked.and (Runs.admitted_of_end (Q := fun w => cfg.KeysHeldApart S w.log)
    (fun _ _ h => Config.KeysHeldApart.of_append h) apart)
  refine weave.similar (I := fun w => Remembers S cfg boots w ∧ w.Paced boots) (R := World.Alike)
    ?_ ?_ ?_ ⟨rfl, rfl⟩ ⟨World.start_remembers aead room start, World.start_paced start booted⟩
    guarded
  · rintro w e ⟨rem, paced⟩ guard
    exact ⟨rem.step aead (paced.unwrapped seeds e) guard.2, paced.step guard.1⟩
  · intro v w e _ alike _
    exact alike.step e
  · rintro v w e ⟨rem, _⟩ alike guard inert
    exact alike.inert (inert.invisible rem guard.2.of_append distinct)

instance (e : Event) : Decidable (e.Inert S w) :=
  inferInstanceAs (Decidable (∃ datagram ∈ e.received?, _))

/-- A node that connects to the peer that holds the pair of 1 and answers the one with that of 3. -/
def insertionConfig : Config :=
  { sampleConfig with peers := [samplePeer .initiator 1, samplePeer .responder 3] }

def insertionBoots (i : Nat) : Boot := { sampleBoots i with resolved := some ⟨192, 0, 2, 9⟩ }

def insertionWorld : World :=
  (World.start reference insertionConfig insertionBoots 0).getD ⟨⟨[], 0⟩, [], 0⟩

/-- The first data packet of the peer whose init carried the pair of 6. -/
def peerData (plaintext : Bytes) : Bytes :=
  let keys := cryptoDeriveSessionKeys reference .initiator (referencePair 6).pk
    (referencePair 6).sk (referencePair 11).pk
  sessionMsgData :: (keys.bind fun k => cryptoSeal reference k.tx 0 plaintext 2048).getD []

/-- This datagram, from the address that ends in `b`. -/
def datagramFrom (b : UInt8) (datagram : Bytes) (clock : UInt64) : Event :=
  .udp datagram (sampleSource b) clock (fun _ => referencePair 30) true true

/-- Both handshakes, a data packet, and a timer pass that attempts anew. -/
def insertionEvents : List Event :=
  [datagramFrom 9 (peerResponse 100 (referencePair 5)) 10,
    datagramFrom 8 (peerInit 3 7 (referencePair 6)) 20,
    datagramFrom 8 (peerData [1, 2, 3]) 30,
    .timer 20000 fun _ => ⟨⟨none, referencePair 40, true⟩, true⟩]

/-- The same with garbage, with the init from the other peer's address and from nowhere, with the
data packet twice, and with the old response when a new one is awaited. -/
def insertedEvents : List Event :=
  [datagramFrom 9 [2, 0, 0] 5,
    datagramFrom 9 (peerResponse 100 (referencePair 5)) 10,
    datagramFrom 8 (peerInit 3 7 (referencePair 6)) 20,
    datagramFrom 9 (peerInit 3 7 (referencePair 6)) 21,
    datagramFrom 7 (peerInit 3 7 (referencePair 6)) 22,
    datagramFrom 8 (peerData [1, 2, 3]) 30,
    datagramFrom 8 (peerData [1, 2, 3]) 31,
    .timer 20000 fun _ => ⟨⟨none, referencePair 40, true⟩, true⟩,
    datagramFrom 9 (peerResponse 100 (referencePair 5)) 20001]

theorem inserted_invisible_insertedEvents :
    (insertionEvents.foldl (World.step reference .little) insertionWorld).log.filterMap
        Effect.accepted? =
      [peerResponse 100 (referencePair 5), peerInit 3 7 (referencePair 6), peerData [1, 2, 3]] ∧
    (insertionEvents.foldl (World.step reference .little) insertionWorld).daemon.observed =
      (insertedEvents.foldl (World.step reference .little) insertionWorld).daemon.observed ∧
    (insertionEvents.foldl (World.step reference .little) insertionWorld).log =
      (insertedEvents.foldl (World.step reference .little) insertionWorld).log :=
  have start : World.start reference insertionConfig insertionBoots 0 = some insertionWorld := by
    decide +kernel
  have booted : BootsClocked insertionBoots 0 := by
    intro i
    change (100 : UInt64).toNat < 2 ^ 63 ∧ (0 : UInt64) ≤ 0
    decide
  have weave : Runs.Weave (World.step reference .little) (Event.Inert reference) insertionWorld
      insertionEvents insertedEvents :=
    .insert (by decide +kernel) (.keep (.keep (.insert (by decide +kernel)
      (.insert (by decide +kernel) (.keep (.insert (by decide +kernel)
        (.keep (.insert (by decide +kernel) (.nil _)))))))))
  ⟨by decide +kernel,
    inserted_invisible reference_aead (by decide +kernel) booted start weave
      (by decide +kernel) (by decide +kernel)⟩

end EdgarVPN
