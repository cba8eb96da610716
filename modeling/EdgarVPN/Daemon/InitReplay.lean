import EdgarVPN.Lib.Runs
import EdgarVPN.Daemon.Sessions

/-!
# No init is accepted twice

Freshness of inits is kept per session, while an init from an unknown address is tried against every
peer this node answers. An accepted init is stale for the peer that accepted it, for good
(`Session.Stale`, `World.InitsSpent`); what keeps another peer from accepting it is that its static
key is another one.

**What is proved.** Where the sections for which this node is the responder have different public
keys, no init is accepted twice in any run, by whichever peer and from whatever addresses; and the
responses that are sent are one to one with the accepted inits, in their order
(`inits_accepted_once`). `config_load` accepts two such sections with the same key, and then the
second peer accepts what the first one has accepted already (`init_replayed_to_second_section`).
-/

set_option autoImplicit false

namespace EdgarVPN

open CString (ascii)

variable {S : Sodium} {d : Daemon} {i j : Nat} {ps ps' : PeerSession} {effects : List Effect}

/-! ## Stale inits -/

/-- The payload authenticates with a counter not above the highest accepted. -/
def Session.Stale (S : Sodium) (s : Session) (payload : Bytes) : Prop :=
  ∃ pk counter, authenticates S s.staticKeys.rx payload = some (pk, counter) ∧
    s.haveSeenHandshake = true ∧ counter ≤ s.highestHandshakeCounterSeen

theorem Session.Stale.unread {s : Session} {payload : Bytes} (stale : s.Stale S payload)
    (outLen : Nat) : sessionReadInit S s (sessionMsgHandshakeInit :: payload) outLen = none := by
  obtain ⟨pk, counter, hauth, hseen, hle⟩ := stale
  cases hread : sessionReadInit S s (sessionMsgHandshakeInit :: payload) outLen with
  | none => rfl
  | some read =>
    obtain ⟨_, _, _, hinput, hauth', hfresh⟩ := sessionReadInit_eq_some hread
    cases hinput
    cases hauth.symm.trans hauth'
    exact absurd hle (UInt64.not_le.mpr (hfresh hseen))

/-- The highest counter accepted never falls. -/
theorem Did.highest_le {s s' : Session} {c : Call} {acts : List Act} (h : Did S s c s' acts)
    (seen : s.haveSeenHandshake = true) :
    s'.haveSeenHandshake = true ∧
      s.highestHandshakeCounterSeen ≤ s'.highestHandshakeCounterSeen := by
  cases h with
  | nothing => exact ⟨seen, UInt64.le_refl _⟩
  | started => exact ⟨seen, UInt64.le_refl _⟩
  | built => exact ⟨seen, UInt64.le_refl _⟩
  | underived =>
    rw [reattempt_haveSeenHandshake, reattempt_highestHandshakeCounterSeen]
    exact ⟨seen, UInt64.le_refl _⟩
  | @unsealed kp =>
    refine ⟨(reattempt_haveSeenHandshake kp s).trans seen, ?_⟩
    exact (reattempt_highestHandshakeCounterSeen kp s).symm ▸ UInt64.le_refl _
  | answered read =>
    obtain ⟨_, _, _, _, _, hfresh⟩ := sessionReadInit_eq_some read
    exact ⟨rfl, UInt64.le_of_lt (hfresh seen)⟩
  | completed => exact ⟨seen, UInt64.le_refl _⟩
  | sealed => exact ⟨seen, UInt64.le_refl _⟩
  | @opened _ _ _ counter =>
    obtain ⟨w, hw⟩ := replayCheckAndMark_frame s counter
    rw [hw]
    exact ⟨seen, UInt64.le_refl _⟩

/-- Once stale, stale for good. -/
theorem Session.Stale.calls {s : Session} {payload : Bytes} (stale : s.Stale S payload)
    (calls : List Call) : (calls.foldl (sessionCall S) s).Stale S payload := by
  induction calls generalizing s with
  | nil => exact stale
  | cons c calls ih =>
    apply ih
    obtain ⟨pk, counter, hauth, hseen, hle⟩ := stale
    have did := sessionCall_did (S := S) s c
    obtain ⟨hseen', hle'⟩ := did.highest_le hseen
    exact ⟨pk, counter, by rw [did.frame.2]; exact hauth, hseen', UInt64.le_trans hle hle'⟩

theorem StepDid.stale {e : Event} {payload : Bytes} (did : StepDid S d i ps e ps' effects)
    (stale : ps.session.Stale S payload) : ps'.session.Stale S payload := by
  obtain ⟨calls, hcalls⟩ := did.calls
  rw [hcalls]
  exact stale.calls calls

/-! ## Accepted inits -/

/-- The init that was accepted. -/
def Effect.init? : Effect → Option Bytes
  | .accepted _ datagram _ =>
    if datagram.head? = some sessionMsgHandshakeInit then some datagram else none
  | _ => none

/-- The response that was sent. -/
def Effect.response? : Effect → Option Bytes
  | .sent message _ _ =>
    if message.head? = some sessionMsgHandshakeResponse then some message else none
  | _ => none

/-- No init was accepted and no response sent. -/
def NoExchange (effects : List Effect) : Prop :=
  ∀ x ∈ effects, x.init? = none ∧ x.response? = none

theorem NoExchange.inits (none : NoExchange effects) : effects.filterMap Effect.init? = [] :=
  List.filterMap_eq_nil_iff.mpr fun x hx => (none x hx).1

theorem NoExchange.responses (none : NoExchange effects) :
    effects.filterMap Effect.response? = [] :=
  List.filterMap_eq_nil_iff.mpr fun x hx => (none x hx).2

/-- An accepted init: the peer that read it, with what it answered, and what it made of it. -/
structure ReadBy (S : Sodium) (ps ps' : PeerSession) (payload response : Bytes) : Prop where
  role : ps.config.role = .responder
  answered : ∃ kp, sessionHandleInit S kp ps.session (sessionMsgHandshakeInit :: payload)
    sessionHandshakeMsgLen = (ps'.session, some response)
  read : ∃ peer counter, sessionReadInit S ps.session (sessionMsgHandshakeInit :: payload)
    sessionHandshakeMsgLen = some (peer, counter)
  stale : ps'.session.Stale S payload

theorem readBy_of_handleInit {datagram response : Bytes} {kp : KeyPair}
    (role : ps.config.role = .responder)
    (session : sessionHandleInit S kp ps.session datagram sessionHandshakeMsgLen =
      (ps'.session, some response)) :
    ∃ payload, datagram = sessionMsgHandshakeInit :: payload ∧
      ReadBy S ps ps' payload response := by
  obtain ⟨peer, counter, keys, read, hs⟩ := sessionHandleInit_eq_some session
  obtain ⟨_, _, payload, rfl, auth, _⟩ := sessionReadInit_eq_some read
  refine ⟨payload, rfl, role, ⟨kp, session⟩, ⟨peer, counter, read⟩, peer.bytes, counter, ?_, ?_, ?_⟩
  · rw [hs, answered_staticKeys, reattempt_staticKeys]
    exact auth
  · rw [hs]
    rfl
  · rw [hs]
    exact UInt64.le_refl _

/-- The init of these effects, and the response to it. -/
structure Exchange (S : Sodium) (ps ps' : PeerSession) (payload : Bytes) (effects : List Effect) :
    Prop where
  init : effects.filterMap Effect.init? = [sessionMsgHandshakeInit :: payload]
  response : ∃ response, effects.filterMap Effect.response? = [response] ∧
    ReadBy S ps ps' payload response

theorem Exchange.of_handleInit {datagram response : Bytes} {kp : KeyPair} {keys : SessionKeys}
    {dest : SockAddr} {clock : UInt64} {ok : Bool} (role : ps.config.role = .responder)
    (session : sessionHandleInit S kp ps.session datagram sessionHandshakeMsgLen =
      (ps'.session, some response)) :
    ∃ payload, datagram = sessionMsgHandshakeInit :: payload ∧ Exchange S ps ps' payload
      [.accepted i datagram clock, .derived i keys clock, .sent response dest ok] := by
  obtain ⟨payload, rfl, readBy⟩ := readBy_of_handleInit role session
  obtain ⟨packet, rfl⟩ := sessionHandleInit_response session
  exact ⟨payload, rfl, rfl, _, rfl, readBy⟩

theorem SealDid.noExchange (did : SealDid S i ps ps' effects) : NoExchange effects := by
  cases did with
  | idle => exact nofun
  | unreturned => exact nofun
  | sealed _ _ session =>
    obtain ⟨packet, rfl⟩ := sessionSealData_message session
    simp [NoExchange, Effect.init?, Effect.response?, sessionMsgData, sessionMsgHandshakeResponse]

theorem AttemptDid.noExchange (did : AttemptDid S ps ps' effects) : NoExchange effects := by
  cases did with
  | idle => exact nofun
  | initiated _ _ _ _ _ sent =>
    intro x hx
    obtain ⟨_, _, rfl⟩ := sent x hx
    exact ⟨rfl, rfl⟩

/-- A datagram from a peer's address that it accepted is an init it answered, or no init. -/
theorem ReceiveDid.exchange {datagram : Bytes} {clock : UInt64}
    (did : ReceiveDid S i datagram clock ps ps' effects) :
    NoExchange effects ∨ ∃ payload, datagram = sessionMsgHandshakeInit :: payload ∧
      Exchange S ps ps' payload effects := by
  cases did with
  | idle => exact .inl nofun
  | initRefused => exact .inl nofun
  | initAccepted _ _ _ role session => exact .inr (Exchange.of_handleInit role session)
  | responseAccepted _ _ _ _ session =>
    obtain ⟨_, _, read, _⟩ := sessionHandleResponse_eq_true session
    obtain ⟨_, _, payload, rfl, _⟩ := sessionReadResponse_eq_some read
    left
    simp [NoExchange, Effect.init?, Effect.response?, sessionMsgHandshakeInit,
      sessionMsgHandshakeResponse]
  | opened _ _ plain wrote =>
    obtain ⟨_, _, _, _, rfl, _⟩ := sessionOpenData_eq_some plain
    left
    rintro x (_ | ⟨_, hx⟩)
    · exact ⟨rfl, rfl⟩
    · obtain ⟨_, rfl⟩ := wrote x hx
      exact ⟨rfl, rfl⟩

/-- A peer's part of an event: one init at most, from a datagram, that the peer answered. -/
theorem StepDid.exchange {e : Event} (did : StepDid S d i ps e ps' effects) :
    NoExchange effects ∨
      ∃ payload, e.received? = some (sessionMsgHandshakeInit :: payload) ∧
        Exchange S ps ps' payload effects := by
  cases did with
  | untouched => exact .inl nofun
  | forwarded did => exact .inl did.noExchange
  | received _ did =>
    obtain none | ⟨payload, hdatagram, exchange⟩ := did.exchange
    · exact .inl none
    · exact .inr ⟨payload, congrArg some hdatagram, exchange⟩
  | refused => exact .inl nofun
  | matched _ _ _ _ role session =>
    obtain ⟨payload, hdatagram, exchange⟩ := Exchange.of_handleInit role session
    exact .inr ⟨payload, congrArg some hdatagram, exchange⟩
  | ticked keepalive reconnect =>
    left
    intro x hx
    rcases List.mem_append.mp hx with hx | hx
    · exact keepalive.noExchange x hx
    · exact reconnect.noExchange x hx

/-- An event: one init at most, from a datagram, that a peer answered. -/
theorem Daemon.step_exchange (host : Endian) (e : Event) :
    NoExchange (d.step S host e).2 ∨
      ∃ (i : Nat) (ps ps' : PeerSession) (payload : Bytes),
        e.received? = some (sessionMsgHandshakeInit :: payload) ∧
        d.peers[i]? = some ps ∧ (d.step S host e).1.peers[i]? = some ps' ∧
        ps'.config = ps.config ∧ Exchange S ps ps' payload (d.step S host e).2 := by
  cases received : e.received? with
  | none =>
    left
    intro x hx
    obtain ⟨_, _, _, rfl⟩ | ⟨i, ps, ps', effects, _, _, did, hx⟩ := Daemon.step_effects host e hx
    · exact ⟨rfl, rfl⟩
    · obtain none | ⟨_, hreceived, _⟩ := did.exchange
      · exact none x hx
      · cases received.symm.trans hreceived
  | some bytes =>
    cases e with
    | tun => cases received
    | timer => cases received
    | udp datagram source clock kps sendOk tunOk =>
      have udp := udp_did (S := S) clock datagram source kps sendOk tunOk d
      cases hall : (d.udp S datagram source clock kps sendOk tunOk).2 with
      | nil =>
        left
        rw [Daemon.step, hall]
        exact fun x hx => absurd hx List.not_mem_nil
      | cons x rest =>
        have hx : x ∈ (d.udp S datagram source clock kps sendOk tunOk).2 := by
          rw [hall]
          exact List.mem_cons_self
        obtain ⟨i, ps, ps', get, get', move⟩ := udp.actor hx
        obtain none | ⟨payload, hreceived, exchange⟩ := move.did.exchange
        · exact .inl none
        · rw [← received, hreceived]
          exact .inr ⟨i, ps, ps', payload, rfl, get, get', move.did.config, exchange⟩

/-! ## Runs -/

/-- The inits a daemon accepted, in order. -/
def World.inits (w : World) : List Bytes := w.log.filterMap Effect.init?

/-- The responses it sent, in order. -/
def World.responses (w : World) : List Bytes := w.log.filterMap Effect.response?

/-- A session of section `i`, a responder's, answers the init with this response. -/
def Responds (S : Sodium) (cfg : Config) (i : Nat) (init response : Bytes) : Prop :=
  ∃ config kp s s', cfg.peers[i]? = some config ∧ config.role = .responder ∧
    cfg.staticKeys S config = some s.staticKeys ∧
    sessionHandleInit S kp s init sessionHandshakeMsgLen = (s', some response)

/-- Every accepted init is stale for a peer this node answers. -/
def World.InitsSpent (S : Sodium) (w : World) : Prop :=
  ∀ datagram ∈ w.inits, ∃ (i : Nat) (ps : PeerSession) (payload : Bytes),
    w.daemon.peers[i]? = some ps ∧ ps.config.role = .responder ∧
    datagram = sessionMsgHandshakeInit :: payload ∧ ps.session.Stale S payload

theorem World.step_inits {host : Endian} (w : World) (e : Event) :
    (w.step S host e).inits = w.inits ++ (w.daemon.step S host e).2.filterMap Effect.init? :=
  List.filterMap_append

theorem World.step_responses {host : Endian} (w : World) (e : Event) :
    (w.step S host e).responses =
      w.responses ++ (w.daemon.step S host e).2.filterMap Effect.response? :=
  List.filterMap_append

theorem World.InitsSpent.step {host : Endian} {w : World} (spent : w.InitsSpent S) (e : Event) :
    (w.step S host e).InitsSpent S := by
  intro datagram hdatagram
  rw [World.step_inits, List.mem_append] at hdatagram
  rcases hdatagram with hold | hnew
  · obtain ⟨i, ps, payload, get, role, hpayload, stale⟩ := spent datagram hold
    obtain ⟨ps', effects, get', _, did⟩ := Daemon.step_get (S := S) host e get
    exact ⟨i, ps', payload, get', did.config ▸ role, hpayload, did.stale stale⟩
  · obtain none | ⟨i, ps, ps', payload, _, _, get', config, exchange⟩ :=
      Daemon.step_exchange (S := S) (d := w.daemon) host e
    · rw [none.inits] at hnew
      cases hnew
    · rw [exchange.init, List.mem_singleton] at hnew
      obtain ⟨_, _, readBy⟩ := exchange.response
      exact ⟨i, ps', payload, get', config ▸ readBy.role, hnew, readBy.stale⟩

/-- The payload of a datagram received authenticates for one public key of the configuration at
most. -/
def Event.Separated (S : Sodium) (cfg : Config) (e : Event) : Prop :=
  ∀ datagram ∈ e.received?, cfg.Separates S datagram.tail

instance (cfg : Config) (e : Event) : Decidable (e.Separated S cfg) :=
  inferInstanceAs (Decidable (∀ datagram ∈ e.received?, _))

/-- An init that was accepted is read by no peer. -/
theorem World.InitsSpent.fresh {w : World} {cfg : Config} {payload response : Bytes}
    (spent : w.InitsSpent S) (keyed : w.daemon.Keyed S cfg) (apart : cfg.RespondersApart)
    (separates : cfg.Separates S payload) (get : w.daemon.peers[i]? = some ps)
    (readBy : ReadBy S ps ps' payload response) :
    sessionMsgHandshakeInit :: payload ∉ w.inits := by
  intro hin
  obtain ⟨j, psj, payload', getj, rolej, heq, stale⟩ := spent _ hin
  cases heq
  obtain ⟨peer, counter, read⟩ := readBy.read
  by_cases hij : j = i
  · subst hij
    cases get.symm.trans getj
    rw [stale.unread] at read
    cases read
  · obtain ⟨pk, c, auth, _⟩ := stale
    have hnone := keyed.authenticates_one apart separates getj get rolej readBy.role auth hij
    rw [sessionReadInit_unauthenticated hnone] at read
    cases read

theorem World.inits_nodup_step {host : Endian} {w : World} {cfg : Config} {e : Event}
    (nodup : w.inits.Nodup) (spent : w.InitsSpent S) (keyed : w.daemon.Keyed S cfg)
    (apart : cfg.RespondersApart) (separated : e.Separated S cfg) :
    (w.step S host e).inits.Nodup := by
  rw [World.step_inits]
  obtain none | ⟨i, ps, ps', payload, received, get, _, _, exchange⟩ :=
    Daemon.step_exchange (S := S) (d := w.daemon) host e
  · rw [none.inits, List.append_nil]
    exact nodup
  · obtain ⟨_, _, readBy⟩ := exchange.response
    rw [exchange.init, List.nodup_append]
    refine ⟨nodup, List.nodup_singleton _, ?_⟩
    rintro old hold new hnew rfl
    rw [List.mem_singleton] at hnew
    exact spent.fresh keyed apart (separated _ received) get readBy (hnew ▸ hold)

/-- The responses that were sent are those to the accepted inits, one each and in order. -/
def World.Answered (S : Sodium) (cfg : Config) (w : World) : Prop :=
  List.Forall₂ (fun init response => ∃ i, Responds S cfg i init response) w.inits w.responses

theorem World.Answered.step {host : Endian} {w : World} {cfg : Config} (answered : w.Answered S cfg)
    (keyed : w.daemon.Keyed S cfg) (e : Event) : (w.step S host e).Answered S cfg := by
  unfold World.Answered
  rw [World.step_inits, World.step_responses]
  obtain none | ⟨i, ps, ps', payload, _, get, _, _, exchange⟩ :=
    Daemon.step_exchange (S := S) (d := w.daemon) host e
  · rw [none.inits, none.responses, List.append_nil, List.append_nil]
    exact answered
  · obtain ⟨response, sent, readBy⟩ := exchange.response
    obtain ⟨kp, handled⟩ := readBy.answered
    rw [exchange.init, sent]
    have here := keyed i ps get
    have responds : Responds S cfg i (sessionMsgHandshakeInit :: payload) response :=
      ⟨ps.config, kp, ps.session, ps'.session, here.config, readBy.role, here.static, handled⟩
    exact List.rel_append answered (.cons ⟨i, responds⟩ .nil)

/-- **No init is accepted twice, where responder sections have different public keys.** The premises
are that condition on the configuration, and that no datagram of the run authenticates under the
static keys of two of them (`Event.Separated`). Then the accepted inits are all different, and each
has exactly one response: the responses sent are, in order, what `session_handle_init` answered to
them. -/
theorem inits_accepted_once {host : Endian} {cfg : Config} {boots : Nat → Boot} {clock : UInt64}
    {w : World} (apart : cfg.RespondersApart) (start : World.start S cfg boots clock = some w)
    (events : List Event)
    (separated : Runs.Admitted (World.step S host) (fun _ e => e.Separated S cfg) w events) :
    (events.foldl (World.step S host) w).inits.Nodup ∧
      List.Forall₂ (fun init response => ∃ i, Responds S cfg i init response)
        (events.foldl (World.step S host) w).inits
        (events.foldl (World.step S host) w).responses := by
  have none : NoExchange w.log := by
    intro x hx
    obtain ⟨_, _, _, rfl⟩ := World.start_log start hx
    exact ⟨rfl, rfl⟩
  have unread : w.inits = [] := none.inits
  have unsent : w.responses = [] := none.responses
  have run := Runs.invariant_foldl (I := fun w => w.inits.Nodup ∧ w.Answered S cfg ∧
    w.InitsSpent S ∧ w.daemon.Driven S cfg boots) ?_ ?_ separated
  · exact ⟨run.1, run.2.1⟩
  · rintro w e ⟨nodup, answered, spent, driven⟩ separated
    exact ⟨World.inits_nodup_step nodup spent driven.keyed apart separated,
      answered.step driven.keyed e, spent.step e, driven.step e⟩
  · refine ⟨by rw [unread]; exact List.nodup_nil, ?_, ?_, World.start_driven start⟩
    · rw [World.Answered, unread, unsent]
      exact .nil
    · intro datagram hdatagram
      rw [unread] at hdatagram
      cases hdatagram

/-- An init, the same init from elsewhere, and the next one. -/
def replayEvents : List Event :=
  [.udp (peerInit 1 7 (referencePair 5)) (sampleSource 9) 10 (fun _ => referencePair 30) true true,
    .udp (peerInit 1 7 (referencePair 5)) (sampleSource 8) 20 (fun _ => referencePair 31) true true,
    .udp (peerInit 1 8 (referencePair 6)) (sampleSource 8) 30 (fun _ => referencePair 32) true true]

theorem inits_accepted_once_replayEvents :
    (replayEvents.foldl (World.step reference .little) sampleWorld).inits =
      [peerInit 1 7 (referencePair 5), peerInit 1 8 (referencePair 6)] ∧
    (replayEvents.foldl (World.step reference .little) sampleWorld).inits.Nodup ∧
    List.Forall₂ (fun init response => ∃ i, Responds reference sampleConfig i init response)
      (replayEvents.foldl (World.step reference .little) sampleWorld).inits
      (replayEvents.foldl (World.step reference .little) sampleWorld).responses :=
  ⟨by decide +kernel,
    inits_accepted_once (by decide +kernel) sampleWorld_start replayEvents (by decide +kernel)⟩

/-- A [Peer] section with the public key of the pair of 1. -/
def duplicateSection (allowed : String) : Bytes :=
  ascii "[Peer]\nEndpoint = a:51820\n" ++ ascii "PublicKey = " ++
    (List.replicate 10 (ascii "gYGB")).flatten ++ ascii "gYE=\nRole = responder\n" ++
    ascii "AllowedIPs = " ++ ascii allowed ++ ascii "\n"

/-- A configuration file with that section twice. -/
def duplicateText : Bytes :=
  ascii "[Interface]\nAddress = 10.0.0.2/24\n" ++ ascii "PrivateKey = " ++
    (List.replicate 10 (ascii "AgIC")).flatten ++ ascii "AgI=\n" ++
    duplicateSection "10.0.1.0/24" ++ duplicateSection "10.0.3.0/24"

def duplicateConfig : Config :=
  (configLoad reference .little (.ok duplicateText)).toOption.getD Config.initial

def duplicateWorld : World :=
  (World.start reference duplicateConfig sampleBoots 0).getD ⟨⟨[], 0⟩, [], 0⟩

/-- **A second section with the same key accepts the init again.** The file loads, the daemon
starts, and the two datagrams are the same bytes from two addresses: both are accepted, each is
answered, and both sections are established. -/
theorem init_replayed_to_second_section :
    configLoad reference .little (.ok duplicateText) = .ok duplicateConfig ∧
    World.start reference duplicateConfig sampleBoots 0 = some duplicateWorld ∧
    Runs.Admitted (World.step reference .little) (fun _ e => e.Separated reference duplicateConfig)
      duplicateWorld (replayEvents.take 2) ∧
    ((replayEvents.take 2).foldl (World.step reference .little) duplicateWorld).inits =
      [peerInit 1 7 (referencePair 5), peerInit 1 7 (referencePair 5)] ∧
    ((replayEvents.take 2).foldl (World.step reference .little) duplicateWorld).responses.length =
      2 ∧
    ((replayEvents.take 2).foldl (World.step reference .little) duplicateWorld).daemon.peers.map
      (fun ps => (ps.session.state, ps.addr)) =
        [(.established, sampleSource 9), (.established, sampleSource 8)] := by
  decide +kernel

end EdgarVPN
