import EdgarVPN.Lib.Runs
import EdgarVPN.Daemon.Did

/-!
# An established peer and its address

The TUN branch looks at a peer's session only and sends to whatever its address is; the keepalive
looks at both. So an established session needs a known address.

**What is proved.** In a run from start, every established peer has a known address in every state,
and the TUN branch sends to known addresses only, exactly when every init accepted from an unknown
address was either answered or accepted for a peer whose address was known already
(`established_addressed`). The branch that accepts such an init learns its source only after
`udp_send` succeeded, while `session_handle_init` has established the session before it. One failed
send is enough: the next packet for that peer goes to the address `memset` left
(`unanswered_init_unaddressed`).
-/

set_option autoImplicit false

namespace EdgarVPN

variable {S : Sodium} {d : Daemon} {i : Nat} {ps ps' : PeerSession}

/-- Established peers have a known address. -/
def PeerSession.Addressed (ps : PeerSession) : Prop :=
  ps.session.state = .established → ps.addrResolved = true

instance (ps : PeerSession) : Decidable ps.Addressed := inferInstanceAs (Decidable (_ → _))

def Daemon.Addressed (d : Daemon) : Prop := ∀ ps ∈ d.peers, ps.Addressed

instance (d : Daemon) : Decidable d.Addressed := inferInstanceAs (Decidable (∀ ps ∈ d.peers, _))

/-- An init from an unknown address that a peer accepts is answered, or the peer's address is known
already. -/
def Event.Answered (S : Sodium) (d : Daemon) : Event → Prop
  | .udp datagram source _ kps sendOk _ =>
    findPeerByAddr d.peers source = none →
      ∀ m ∈ (findResponderForInit S kps (datagram.take sealedBufSize) sessionHandshakeMsgLen 0
        d.peers).2, ∀ ps ∈ d.peers[m.1]?, sendOk = true ∨ ps.addrResolved = true
  | _ => True

instance (e : Event) : Decidable (e.Answered S d) := by
  cases e <;> unfold Event.Answered <;> infer_instance

/-- What the TUN branch sends, it sends to the known address of a peer. -/
def Event.SentToKnown (S : Sodium) (host : Endian) (d : Daemon) : Event → Prop
  | .tun packet clock sendOk =>
    ∀ message dest ok, .sent message dest ok ∈ (d.tun S host packet clock sendOk).2 →
      ∃ ps ∈ d.peers, ps.addrResolved = true ∧ ps.addr = dest
  | _ => True

/-! ## One step -/

theorem findPeerByAddr_eq_some {peers : List PeerSession} {source : SockAddr}
    (found : findPeerByAddr peers source = some i) (get : peers[i]? = some ps) :
    ps.addrResolved = true ∧ ps.addr = source := by
  obtain ⟨hlt, hmatch, _⟩ := List.findIdx?_eq_some_iff_getElem.mp found
  obtain ⟨_, rfl⟩ := List.getElem?_eq_some_iff.mp get
  rwa [Bool.and_eq_true, beq_iff_eq] at hmatch

theorem SealDid.addressed {effects : List Effect} (did : SealDid S i ps ps' effects)
    (addressed : ps.Addressed) : ps'.Addressed := by
  intro established
  cases did with
  | idle kept session =>
    rw [kept.addrResolved]
    exact addressed (session ▸ established)
  | unreturned kept before => exact kept.addrResolved.trans (addressed before)
  | sealed kept before => exact kept.addrResolved.trans (addressed before)

theorem AttemptDid.addressed {effects : List Effect} (did : AttemptDid S ps ps' effects)
    (addressed : ps.Addressed) : ps'.Addressed := by
  intro established
  cases did with
  | idle kept session =>
    rw [kept.addrResolved]
    exact addressed (session ▸ established)
  | initiated _ resolved => exact resolved

/-- No datagram makes the daemon forget the address of the peer it came from. -/
theorem ReceiveDid.addrResolved {datagram : Bytes} {clock : UInt64} {effects : List Effect}
    (did : ReceiveDid S i datagram clock ps ps' effects) : ps'.addrResolved = ps.addrResolved := by
  cases did with
  | idle kept => exact kept.addrResolved
  | initRefused kept => exact kept.addrResolved
  | initAccepted _ _ resolved => exact resolved
  | responseAccepted _ _ resolved => exact resolved
  | opened kept => exact kept.addrResolved

theorem StepDid.addressed {e : Event} {effects : List Effect} (did : StepDid S d i ps e ps' effects)
    (get : d.peers[i]? = some ps) (addressed : ps.Addressed) (answered : e.Answered S d) :
    ps'.Addressed := by
  cases did with
  | untouched => exact addressed
  | forwarded did => exact did.addressed addressed
  | received found did =>
    intro _
    exact did.addrResolved.trans (findPeerByAddr_eq_some found get).1
  | refused role session =>
    intro established
    have untouched := sessionHandleInit_refused session established
    exact addressed (untouched ▸ established)
  | matched unknown search _ resolved =>
    intro _
    rw [resolved, Bool.or_eq_true]
    exact answered unknown _ search _ get
  | ticked keepalive reconnect => exact reconnect.addressed (keepalive.addressed addressed)

/-- An init accepted and not answered leaves its peer established, with the address as it was. -/
theorem Daemon.Addressed.answered {host : Endian} {e : Event}
    (addressed : (d.step S host e).1.Addressed) : e.Answered S d := by
  cases e with
  | tun => trivial
  | timer => trivial
  | udp datagram source clock kps sendOk tunOk =>
    rintro unknown ⟨j, response⟩ search ps get
    cases sendOk with
    | true => exact .inl rfl
    | false =>
      right
      have search' : findResponderForInit S kps (datagram.take sealedBufSize)
          sessionHandshakeMsgLen 0 d.peers = (_, some (j, response)) := Prod.ext rfl search
      obtain ⟨ps₀, s, hget, _, accepted, hget'⟩ := (Tried.of_search search').matched_get
      cases hget.symm.trans get
      obtain ⟨_, _, _, _, rfl⟩ := sessionHandleInit_eq_some accepted
      have step : d.udp S datagram source clock kps false tunOk = _ :=
        udp_matched j clock unknown search' hget'
      rw [Daemon.step, step] at addressed
      have unaddressed := addressed _ (List.mem_of_getElem? hget')
      exact unaddressed rfl

theorem Daemon.Addressed.step_iff {host : Endian} {e : Event} (addressed : d.Addressed) :
    (d.step S host e).1.Addressed ↔ e.Answered S d := by
  constructor
  · exact Daemon.Addressed.answered
  · intro answered ps' hps'
    obtain ⟨i, get'⟩ := List.mem_iff_getElem?.mp hps'
    obtain ⟨ps, effects, get, _, did⟩ := Daemon.step_from host e get'
    exact did.addressed get (addressed ps (List.mem_of_getElem? get)) answered

/-- The TUN branch sends on established sessions only. -/
theorem Daemon.Addressed.sentToKnown {host : Endian} (addressed : d.Addressed) (e : Event) :
    e.SentToKnown S host d := by
  cases e with
  | udp => trivial
  | timer => trivial
  | tun packet clock sendOk =>
    intro message dest ok hsent
    obtain h | ⟨i, ps, get, h⟩ := tun_did (S := S) host packet clock sendOk d
    · rw [h] at hsent
      cases hsent
    · rw [h] at hsent
      have hps := List.mem_of_getElem? get
      have did := forward_did (S := S) i clock ps (packet.take maxPacketSize) sendOk
      generalize ps.forward S i (packet.take maxPacketSize) clock sendOk = result at did hsent
      obtain ⟨ps', effects⟩ := result
      dsimp only at did hsent
      cases did with
      | idle => cases hsent
      | unreturned => cases hsent
      | sealed kept established =>
        obtain hsent | hsent := List.mem_cons.mp hsent
        · cases hsent
        · cases List.mem_singleton.mp hsent
          exact ⟨ps, hps, addressed ps hps established, rfl⟩

/-! ## Runs -/

theorem World.start_addressed {cfg : Config} {boots : Nat → Boot} {clock : UInt64} {w : World}
    (start : World.start S cfg boots clock = some w) : w.daemon.Addressed := by
  intro ps hps established
  obtain ⟨i, get⟩ := List.mem_iff_getElem?.mp hps
  rw [World.start_pending start get] at established
  cases established

/-- **An established peer has a known address, where every accepted init is answered.** For every
run from start: all its states have only addressed peers established, and the TUN branch sends to
known addresses only, if and only if each init accepted from an unknown address was answered by a
`udp_send` that succeeded, or was for a peer whose address was known. -/
theorem established_addressed {host : Endian} {cfg : Config} {boots : Nat → Boot} {clock : UInt64}
    {w : World} (start : World.start S cfg boots clock = some w) (events : List Event) :
    ((∀ pre, pre <+: events → (pre.foldl (World.step S host) w).daemon.Addressed) ∧
      Runs.Admitted (World.step S host) (fun w e => e.SentToKnown S host w.daemon) w events) ↔
    Runs.Admitted (World.step S host) (fun w e => e.Answered S w.daemon) w events := by
  have first := World.start_addressed start
  have whole : Runs.Always (World.step S host) (fun w => w.daemon.Addressed) w events ↔
      Runs.Admitted (World.step S host) (fun w e => e.Answered S w.daemon) w events :=
    Runs.always_iff_admitted (fun w e addressed => addressed.step_iff) first
  rw [Runs.always_iff_prefix] at whole
  constructor
  · intro h
    exact whole.mp h.1
  · intro answered
    refine ⟨whole.mpr answered, ?_⟩
    exact Runs.Admitted.of_invariant (I := fun w => w.daemon.Addressed)
      (fun w e addressed good => addressed.step_iff.mpr good)
      (fun w e addressed _ => addressed.sentToKnown e) first answered

/-- Where a datagram was sent. -/
def Effect.dest? : Effect → Option SockAddr
  | .sent _ dest _ => some dest
  | _ => none

/-- An init from an unknown address, then a packet for its sender. -/
def addressEvents (sendOk : Bool) : List Event :=
  [.udp (peerInit 1 7 (referencePair 5)) (sampleSource 9) 10 (fun _ => referencePair 30) sendOk
      true,
    .tun routedPacket 20 true]

theorem established_addressed_addressEvents :
    ((addressEvents true).foldl (World.step reference .little) sampleWorld).log.filterMap
        Effect.dest? = [sampleSource 9, sampleSource 9] ∧
    ((addressEvents true).foldl (World.step reference .little) sampleWorld).daemon.Addressed :=
  ⟨by decide +kernel, ((established_addressed sampleWorld_start (addressEvents true)).mpr
    (by decide +kernel)).1 _ (List.prefix_refl _)⟩

/-- **A failed response leaves an established peer with no address.** The packet for it goes to
the zero address. -/
theorem unanswered_init_unaddressed :
    World.start reference sampleConfig sampleBoots 0 = some sampleWorld ∧
    ((addressEvents false).foldl (World.step reference .little) sampleWorld).daemon.peers.map
        (fun ps => (ps.session.state, ps.addrResolved)) =
      [(.established, false), (.handshakePending, false)] ∧
    ¬ ((addressEvents false).foldl (World.step reference .little) sampleWorld).daemon.Addressed ∧
    ((addressEvents false).foldl (World.step reference .little) sampleWorld).log.filterMap
        Effect.dest? = [sampleSource 9, SockAddr.zero] := by
  decide +kernel

end EdgarVPN
