import EdgarVPN.Crypto.Codec
import EdgarVPN.Daemon.Remembered
import EdgarVPN.Daemon.Rotation
import Mathlib.Algebra.Order.BigOperators.Group.List

/-!
# Where datagrams go

A node sends for three reasons: a handshake it starts, a packet or a keepalive of an established
session, and a response to an init. The destination is each time what the peer's `addr` holds, or
the source of the init. `Known` says where such an address can come from: `udp_resolve` of the
endpoint of a section for which this node is the initiator, or an init that authenticated under the
static key of a section for which it is the responder.

**What is proved.** Over every run from start, each datagram goes to an address that is known in
this sense for some section; the one exception is the all-zero address, and then an authenticated
init of that section was accepted and the `udp_send` of the response to it failed (`sent_to_known`).
A datagram a stranger sends causes none to anyone but its source, and only if it authenticates
(`replies_bounded`): what is sent in reply to an address is no more, in datagrams or in bytes, than
what came from it.
-/

set_option autoImplicit false

namespace EdgarVPN

/-- The source of the datagram a pass of the loop received. -/
def Event.source? : Event → Option SockAddr
  | .udp _ source _ _ _ _ => some source
  | _ => none

/-- Whether `udp_send` succeeds for the response to the datagram. -/
def Event.replySent : Event → Bool
  | .udp _ _ _ _ sendOk _ => sendOk
  | _ => true

/-- What `udp_resolve` answers for the peer at index `i` in a timer pass. -/
def Event.resolves (i : Nat) : Event → Option InAddr
  | .timer _ env => (env i).resolved
  | _ => none

variable (S : Sodium) (cfg : Config)

/-- An address of the endpoint of section `i`, an initiator's, that `udp_resolve` gave at start or
in a timer pass. -/
def Resolved (boots : Nat → Boot) (events : List Event) (i : Nat) (dest : SockAddr) : Prop :=
  ∃ config ip, cfg.peers[i]? = some config ∧ config.role = .initiator ∧
    dest = ⟨ip, config.port⟩ ∧
    ((boots i).resolved = some ip ∨ ∃ e ∈ events, e.resolves i = some ip)

/-- A datagram is an init that authenticates for section `i`, a responder's. -/
def InitFor (i : Nat) (datagram : Bytes) : Prop :=
  ∃ config keys payload, cfg.peers[i]? = some config ∧ config.role = .responder ∧
    cfg.staticKeys S config = some keys ∧ (authenticates S keys.rx payload).isSome = true ∧
    datagram = sessionMsgHandshakeInit :: payload

/-- The loop received such an init. -/
def Introduces (i : Nat) (e : Event) : Prop :=
  ∃ datagram, e.received? = some datagram ∧ InitFor S cfg i datagram

/-- An address this node may send to on behalf of section `i`. -/
def Known (boots : Nat → Boot) (events : List Event) (i : Nat) (dest : SockAddr) : Prop :=
  Resolved cfg boots events i dest ∨
    ∃ e ∈ events, e.source? = some dest ∧ Introduces S cfg i e

/-- An init of section `i` was accepted, and the `udp_send` of the response to its source failed. -/
def Unanswered (events : List Event) (log : List Effect) (i : Nat) : Prop :=
  ∃ e ∈ events, e.replySent = false ∧ ∃ init source response, e.received? = some init ∧
    e.source? = some source ∧ InitFor S cfg i init ∧ Responds S cfg i init response ∧
    .sent response source false ∈ log

variable {S cfg} {boots : Nat → Boot} {events events' : List Event} {log log' : List Effect}
  {i : Nat}

theorem Resolved.mono {dest : SockAddr} (h : Resolved cfg boots events i dest)
    (more : events ⊆ events') : Resolved cfg boots events' i dest := by
  obtain ⟨config, ip, hconfig, role, hdest, boot | ⟨e, he, hip⟩⟩ := h
  · exact ⟨config, ip, hconfig, role, hdest, .inl boot⟩
  · exact ⟨config, ip, hconfig, role, hdest, .inr ⟨e, more he, hip⟩⟩

theorem Known.mono {dest : SockAddr} (h : Known S cfg boots events i dest)
    (more : events ⊆ events') : Known S cfg boots events' i dest := by
  rcases h with resolved | ⟨e, he, introduced⟩
  · exact .inl (resolved.mono more)
  · exact .inr ⟨e, more he, introduced⟩

theorem Unanswered.mono (h : Unanswered S cfg events log i) (more : events ⊆ events')
    (longer : log ⊆ log') : Unanswered S cfg events' log' i := by
  obtain ⟨e, he, failed, init, source, response, received, hsource, initFor, responds, sent⟩ := h
  exact ⟨e, more he, failed, init, source, response, received, hsource, initFor, responds,
    longer sent⟩

/-! ## The addresses peers hold -/

/-- What a peer's address is after a run: known, or still blank. An established session without an
address has accepted an init whose response was not sent. -/
structure PeerSession.Placed (S : Sodium) (cfg : Config) (boots : Nat → Boot) (events : List Event)
    (log : List Effect) (i : Nat) (ps : PeerSession) : Prop where
  known : ps.addrResolved = true → Known S cfg boots events i ps.addr
  blank : ps.addrResolved = false → ps.addr = SockAddr.zero
  unanswered : ps.addrResolved = false → ps.session.state = .established →
    Unanswered S cfg events log i

/-- Where a datagram for section `i` may go. -/
def Allowed (S : Sodium) (cfg : Config) (boots : Nat → Boot) (events : List Event)
    (log : List Effect) (i : Nat) (dest : SockAddr) : Prop :=
  Known S cfg boots events i dest ∨ dest = SockAddr.zero ∧ Unanswered S cfg events log i

variable {d : Daemon} {ps ps' : PeerSession} {effects : List Effect}

theorem PeerSession.Placed.mono (placed : ps.Placed S cfg boots events log i)
    (more : events ⊆ events') (longer : log ⊆ log') : ps.Placed S cfg boots events' log' i where
  known h := (placed.known h).mono more
  blank := placed.blank
  unanswered h established := (placed.unanswered h established).mono more longer

/-- The address of an established peer is one it may send to. -/
theorem PeerSession.Placed.allowed (placed : ps.Placed S cfg boots events log i)
    (established : ps.session.state = .established) : Allowed S cfg boots events log i ps.addr := by
  cases hresolved : ps.addrResolved with
  | true => exact .inl (placed.known hresolved)
  | false => exact .inr ⟨placed.blank hresolved, placed.unanswered hresolved established⟩

/-- A peer whose address is kept, and whose session is established only if it was. -/
theorem PeerSession.Placed.kept (placed : ps.Placed S cfg boots events log i)
    (addr : ps'.addr = ps.addr) (resolved : ps'.addrResolved = ps.addrResolved)
    (established : ps'.session.state = .established → ps.session.state = .established) :
    ps'.Placed S cfg boots events log i where
  known h := by
    rw [addr]
    exact placed.known (resolved ▸ h)
  blank h := by
    rw [addr]
    exact placed.blank (resolved ▸ h)
  unanswered h hestablished := placed.unanswered (resolved ▸ h) (established hestablished)

/-- A peer at a known address. -/
theorem PeerSession.Placed.at (resolved : ps.addrResolved = true)
    (known : Known S cfg boots events i ps.addr) : ps.Placed S cfg boots events log i where
  known _ := known
  blank h := by rw [resolved] at h; cases h
  unanswered h := by rw [resolved] at h; cases h

/-- What sealing sends goes to the peer's address, and the address stays. -/
theorem SealDid.placed (did : SealDid S i ps ps' effects)
    (placed : ps.Placed S cfg boots events log i) :
    ps'.Placed S cfg boots events log i ∧ ∀ message dest ok, .sent message dest ok ∈ effects →
      Allowed S cfg boots events log i dest := by
  have kept := did.kept
  obtain ⟨txCounter, session⟩ := did.session
  refine ⟨placed.kept kept.addr kept.addrResolved fun h => by rw [session] at h; exact h, ?_⟩
  intro message dest ok sent
  cases did with
  | idle => cases sent
  | unreturned => cases sent
  | sealed _ established =>
    rcases List.mem_cons.mp sent with h | h
    · cases h
    · cases List.mem_singleton.mp h
      exact placed.allowed established

/-! ## Attempts -/

/-- The address of a peer after an attempt is the one it had, or the one `udp_resolve` answered. -/
inductive AttemptAt (env : Attempt) (ps ps' : PeerSession) : Prop
  | kept (addr : ps'.addr = ps.addr) (resolved : ps'.addrResolved = ps.addrResolved)
  | resolved {ip : InAddr} (answer : env.resolved = some ip) (unknown : ps.addrResolved = false)
      (addr : ps'.addr = ⟨ip, ps.config.port⟩)

theorem sendInit_addr (now : UInt64) (env : Attempt) (ps : PeerSession) :
    (ps.sendInit S now env).1.addr = ps.addr ∧
      (ps.sendInit S now env).1.addrResolved = ps.addrResolved := by
  unfold PeerSession.sendInit
  dsimp only
  split
  · exact ⟨rfl, rfl⟩
  · exact ⟨rfl, rfl⟩

theorem initiateHandshake_at (now : UInt64) (env : Attempt) (ps : PeerSession) :
    AttemptAt env ps (initiateHandshake S now env ps).1 := by
  unfold initiateHandshake
  by_cases known : ps.addrResolved = true
  · rw [if_pos known]
    have kept := sendInit_addr (S := S) now env ps
    exact .kept kept.1 kept.2
  · rw [if_neg known]
    dsimp only
    split
    · exact .kept rfl rfl
    · next ip answer =>
      exact .resolved answer (Bool.eq_false_iff.mpr known) (sendInit_addr now env _).1

theorem reconnect_at (now : UInt64) (env : Attempt) (ps : PeerSession) :
    AttemptAt env ps (ps.reconnect S now env).1 := by
  unfold PeerSession.reconnect
  split
  · exact initiateHandshake_at now env ps
  · split
    · exact initiateHandshake_at now env ps
    · exact .kept rfl rfl

/-- What an attempt sends goes to the address it leaves the peer with. -/
theorem AttemptDid.placed {env : Attempt} (did : AttemptDid S ps ps' effects)
    (located : AttemptAt env ps ps') (placed : ps.Placed S cfg boots events log i)
    (config : cfg.peers[i]? = some ps.config)
    (answers : ∀ ip, env.resolved = some ip →
      (boots i).resolved = some ip ∨ ∃ e ∈ events, e.resolves i = some ip) :
    ps'.Placed S cfg boots events log i ∧ ∀ message dest ok, .sent message dest ok ∈ effects →
      Allowed S cfg boots events log i dest := by
  cases did with
  | idle kept session =>
    refine ⟨placed.kept kept.addr kept.addrResolved fun h => by rw [session] at h; exact h, ?_⟩
    exact nofun
  | initiated hconfig resolved completed role session sent =>
    have known : Known S cfg boots events i ps'.addr := by
      cases located with
      | kept addr hresolved =>
        rw [addr]
        exact placed.known (hresolved ▸ resolved)
      | resolved answer unknown addr =>
        exact .inl ⟨ps.config, _, config, role, addr, answers _ answer⟩
    refine ⟨.at resolved known, fun message dest ok hsent => ?_⟩
    obtain ⟨_, _, h⟩ := sent _ hsent
    cases h
    exact .inl known

/-! ## One event -/

/-- An init that a peer's session accepts authenticates for its section. -/
theorem PeerSession.Keyed.initFor (keyed : ps.Keyed S cfg i) {kp : KeyPair} {s : Session}
    {response datagram : Bytes} {outLen : Nat} (role : ps.config.role = .responder)
    (accepted : sessionHandleInit S kp ps.session datagram outLen = (s, some response)) :
    InitFor S cfg i datagram := by
  obtain ⟨peer, counter, keys, read, _⟩ := sessionHandleInit_eq_some accepted
  obtain ⟨_, _, payload, rfl, auth, _⟩ := sessionReadInit_eq_some read
  exact ⟨ps.config, _, payload, keyed.config, role, keyed.static, by rw [auth]; rfl, rfl⟩

/-- What a datagram from a peer's address sends goes back to it, and the address stays. -/
theorem ReceiveDid.placed {datagram : Bytes} {clock : UInt64}
    (did : ReceiveDid S i datagram clock ps ps' effects) (resolved : ps.addrResolved = true)
    (known : Known S cfg boots events i ps.addr) :
    ps'.Placed S cfg boots events log i ∧ ∀ message dest ok, .sent message dest ok ∈ effects →
      Allowed S cfg boots events log i dest := by
  have stays : ps'.addr = ps.addr → ps'.addrResolved = ps.addrResolved →
      ps'.Placed S cfg boots events log i := fun addr hresolved =>
    .at (hresolved.trans resolved) (addr ▸ known)
  cases did with
  | idle kept => exact ⟨stays kept.addr kept.addrResolved, nofun⟩
  | initRefused kept => exact ⟨stays kept.addr kept.addrResolved, nofun⟩
  | initAccepted _ addr hresolved =>
    refine ⟨stays addr hresolved, fun message dest ok sent => ?_⟩
    simp only [List.mem_cons, reduceCtorEq, Effect.sent.injEq, List.not_mem_nil, or_false,
      false_or] at sent
    rw [sent.2.1]
    exact .inl known
  | responseAccepted _ addr hresolved =>
    refine ⟨stays addr hresolved, fun message dest ok sent => ?_⟩
    simp at sent
  | opened kept _ _ wrote =>
    refine ⟨stays kept.addr kept.addrResolved, fun message dest ok sent => ?_⟩
    rcases List.mem_cons.mp sent with h | h
    · cases h
    · obtain ⟨_, h⟩ := wrote _ h
      cases h

/-- **One event**: a peer's address stays known or blank, and what is sent for the peer goes where
it may. -/
theorem PeerMove.placed {e : Event} (move : PeerMove S d i ps e ps' effects)
    (get : d.peers[i]? = some ps) (keyed : ps.Keyed S cfg i)
    (placed : ps.Placed S cfg boots events log i) (here : e ∈ events) (logged : effects ⊆ log) :
    ps'.Placed S cfg boots events log i ∧ ∀ message dest ok, .sent message dest ok ∈ effects →
      Allowed S cfg boots events log i dest := by
  cases move with
  | untouched => exact ⟨placed, nofun⟩
  | forwarded => exact (forward_did ..).placed placed
  | @received datagram source clock kps sendOk tunOk found =>
    obtain ⟨resolved, _⟩ := findPeerByAddr_eq_some found get
    exact (receive_did ..).placed resolved (placed.known resolved)
  | refused role session =>
    refine ⟨placed.kept rfl rfl fun established => ?_, nofun⟩
    rw [← sessionHandleInit_refused session established]
    exact established
  | @matched datagram source clock kps sendOk tunOk response s unknown search role session =>
    have introduces : Introduces S cfg i (.udp datagram source clock kps sendOk tunOk) :=
      ⟨_, rfl, keyed.initFor role session⟩
    have known : Known S cfg boots events i source := .inr ⟨_, here, rfl, introduces⟩
    constructor
    · cases sendOk with
      | true => exact .at rfl known
      | false =>
        have responds : Responds S cfg i (datagram.take sealedBufSize) response :=
          ⟨ps.config, _, _, _, keyed.config, role, keyed.static, session⟩
        have failed : .sent response source false ∈ log := logged (by simp)
        exact ⟨placed.known, placed.blank, fun _ _ => ⟨_, here, rfl, _, source, response, rfl, rfl,
          keyed.initFor role session, responds, failed⟩⟩
    · intro message dest ok sent
      simp only [List.mem_cons, reduceCtorEq, Effect.sent.injEq, List.not_mem_nil, or_false,
        false_or] at sent
      rw [sent.2.1]
      exact .inl known
  | @ticked now env =>
    have kept := keepalive_did (S := S) i now ps (env i).keepaliveSent
    obtain ⟨mid, sentMid⟩ := kept.placed placed
    have tried := reconnect_did (S := S) now (ps.keepalive S i now (env i).keepaliveSent).1
      (env i).toAttempt
    obtain ⟨last, sentLast⟩ := tried.placed (reconnect_at ..) mid
      (by rw [kept.kept.config]; exact keyed.config)
      (fun ip answer => .inr ⟨_, here, answer⟩)
    refine ⟨last, fun message dest ok sent => ?_⟩
    rcases List.mem_append.mp sent with sent | sent
    · exact sentMid message dest ok sent
    · exact sentLast message dest ok sent

/-! ## What is sent is sealed -/

/-- A datagram is sealed for section `i`: a handshake message under the static key toward it, with
nothing but an ephemeral public key in it, or a data packet under data keys derived with it. -/
inductive SealedFor (S : Sodium) (cfg : Config) (log : List Effect) (i : Nat) : Bytes → Prop
  | handshake {type : UInt8} {config : ConfigPeer} {keys : SessionKeys} {counter : UInt64}
      {ephemeral : PublicKey} {packet : Bytes} {outLen : Nat}
      (types : type = sessionMsgHandshakeInit ∨ type = sessionMsgHandshakeResponse)
      (configured : cfg.peers[i]? = some config) (static : cfg.staticKeys S config = some keys)
      (sealed : cryptoSeal S keys.tx counter ephemeral.bytes outLen = some packet) :
      SealedFor S cfg log i (type :: packet)
  | data {keys : SessionKeys} {t : UInt64} {counter : UInt64} {plaintext packet : Bytes}
      {outLen : Nat} (derived : .derived i keys t ∈ log)
      (sealed : cryptoSeal S keys.tx counter plaintext outLen = some packet) :
      SealedFor S cfg log i (sessionMsgData :: packet)

theorem SealedFor.mono {message : Bytes} (h : SealedFor S cfg log i message)
    (more : log ⊆ log') : SealedFor S cfg log' i message := by
  cases h with
  | handshake types configured static sealed => exact .handshake types configured static sealed
  | data derived sealed => exact .data (more derived) sealed

/-- A session that seals data does so under its data keys. -/
theorem SealDid.sealedFor (did : SealDid S i ps ps' effects)
    (keys : ps.session.state = .established → ∃ t, .derived i ps.session.dataKeys t ∈ log)
    {message : Bytes} {dest : SockAddr} {ok : Bool} (sent : .sent message dest ok ∈ effects) :
    SealedFor S cfg log i message := by
  cases did with
  | idle => cases sent
  | unreturned => cases sent
  | @sealed plaintext _ _ _ established session =>
    rcases List.mem_cons.mp sent with h | h
    · cases h
    · cases List.mem_singleton.mp h
      obtain ⟨t, derived⟩ := keys established
      have outcome := sessionSealData_outcome (S := S) ps.session plaintext sealedBufSize
      rw [session] at outcome
      generalize ps'.session = s at outcome
      cases outcome with
      | sealed _ sealed => exact .data derived sealed

/-- The response to an init is sealed under the static key. -/
theorem PeerSession.Keyed.response_sealedFor (keyed : ps.Keyed S cfg i) {kp : KeyPair}
    {s : Session} {input response : Bytes} {outLen : Nat}
    (accepted : sessionHandleInit S kp ps.session input outLen = (s, some response)) :
    SealedFor S cfg log i response := by
  have outcome := sessionHandleInit_outcome (S := S) kp ps.session input outLen
  rw [accepted] at outcome
  cases outcome with
  | accepted _ _ sealed =>
    rw [reattempt_staticKeys] at sealed
    exact .handshake (.inr rfl) keyed.config keyed.static sealed

/-- An init is sealed under the static key. -/
theorem sendInit_sealedFor {config : ConfigPeer} (configured : cfg.peers[i]? = some config)
    (static : cfg.staticKeys S config = some ps.session.staticKeys) (now : UInt64) (env : Attempt)
    {message : Bytes} {dest : SockAddr} {ok : Bool}
    (sent : .sent message dest ok ∈ (ps.sendInit S now env).2) :
    SealedFor S cfg log i message := by
  unfold PeerSession.sendInit at sent
  dsimp only at sent
  have outcome := sessionBuildInit_outcome (S := S) (sessionStartHandshake env.kp ps.session)
    sealedBufSize
  generalize sessionBuildInit S (sessionStartHandshake env.kp ps.session) sealedBufSize = result
    at outcome sent
  cases outcome with
  | refused => cases sent
  | built _ _ sealed =>
    cases List.mem_singleton.mp sent
    exact .handshake (.inl rfl) configured static sealed

theorem initiateHandshake_sealedFor {config : ConfigPeer} (configured : cfg.peers[i]? = some config)
    (static : cfg.staticKeys S config = some ps.session.staticKeys) (now : UInt64) (env : Attempt)
    {message : Bytes} {dest : SockAddr} {ok : Bool}
    (sent : .sent message dest ok ∈ (initiateHandshake S now env ps).2) :
    SealedFor S cfg log i message := by
  unfold initiateHandshake at sent
  split at sent
  · exact sendInit_sealedFor configured static now env sent
  · dsimp only at sent
    split at sent
    · cases sent
    · refine sendInit_sealedFor configured ?_ now env sent
      exact static

theorem reconnect_sealedFor {config : ConfigPeer} (configured : cfg.peers[i]? = some config)
    (static : cfg.staticKeys S config = some ps.session.staticKeys) (now : UInt64) (env : Attempt)
    {message : Bytes} {dest : SockAddr} {ok : Bool}
    (sent : .sent message dest ok ∈ (ps.reconnect S now env).2) :
    SealedFor S cfg log i message := by
  unfold PeerSession.reconnect at sent
  split at sent
  · exact initiateHandshake_sealedFor configured static now env sent
  · split at sent
    · exact initiateHandshake_sealedFor configured static now env sent
    · cases sent

theorem ReceiveDid.sealedFor {datagram : Bytes} {clock : UInt64}
    (did : ReceiveDid S i datagram clock ps ps' effects) (keyed : ps.Keyed S cfg i)
    {message : Bytes} {dest : SockAddr} {ok : Bool} (sent : .sent message dest ok ∈ effects) :
    SealedFor S cfg log i message := by
  cases did with
  | idle => cases sent
  | initRefused => cases sent
  | initAccepted _ _ _ _ session =>
    simp only [List.mem_cons, reduceCtorEq, Effect.sent.injEq, List.not_mem_nil, or_false,
      false_or] at sent
    rw [sent.1]
    exact keyed.response_sealedFor session
  | responseAccepted => simp at sent
  | opened _ _ _ wrote =>
    rcases List.mem_cons.mp sent with h | h
    · cases h
    · obtain ⟨_, h⟩ := wrote _ h
      cases h

/-- **One event**: what is sent for a peer is sealed for it. -/
theorem PeerMove.sealedFor {e : Event} (move : PeerMove S d i ps e ps' effects)
    (keyed : ps.Keyed S cfg i)
    (keys : ps.session.state = .established → ∃ t, .derived i ps.session.dataKeys t ∈ log)
    {message : Bytes} {dest : SockAddr} {ok : Bool} (sent : .sent message dest ok ∈ effects) :
    SealedFor S cfg log i message := by
  cases move with
  | untouched => cases sent
  | forwarded => exact (forward_did ..).sealedFor keys sent
  | received => exact (receive_did ..).sealedFor keyed sent
  | refused => cases sent
  | matched _ _ _ session =>
    simp only [List.mem_cons, reduceCtorEq, Effect.sent.injEq, List.not_mem_nil, or_false,
      false_or] at sent
    rw [sent.1]
    exact keyed.response_sealedFor session
  | @ticked now env =>
    have did := keepalive_did (S := S) i now ps (env i).keepaliveSent
    rcases List.mem_append.mp sent with sent | sent
    · exact did.sealedFor keys sent
    · obtain ⟨txCounter, session⟩ := did.session
      have static : cfg.staticKeys S ps.config =
          some (ps.keepalive S i now (env i).keepaliveSent).1.session.staticKeys := by
        rw [session]
        exact keyed.static
      exact reconnect_sealedFor keyed.config static _ _ sent

/-! ## Runs -/

variable {host : Endian} {clock : UInt64} {w : World}

/-- The data keys of an established session are ones it derived. -/
def World.KeysLogged (w : World) : Prop :=
  ∀ (i : Nat) (ps : PeerSession), w.daemon.peers[i]? = some ps →
    ps.session.state = .established → ∃ t, .derived i ps.session.dataKeys t ∈ w.log

theorem World.KeysLogged.step (logged : w.KeysLogged) (e : Event) :
    (w.step S host e).KeysLogged := by
  intro i ps' get' established
  obtain ⟨ps, effects, get, _, _⟩ := Daemon.step_from host e get'
  obtain ⟨before, same⟩ | derived := (derivations_recorded host e get get').2 established
  · obtain ⟨t, entry⟩ := logged i ps get before
    rw [same]
    exact ⟨t, List.mem_append_left _ entry⟩
  · exact ⟨_, List.mem_append_right _ derived⟩

/-- A datagram for section `i`, sealed for it and sent where it may. -/
def Dispatched (S : Sodium) (cfg : Config) (boots : Nat → Boot) (events : List Event)
    (log : List Effect) (message : Bytes) (dest : SockAddr) : Prop :=
  ∃ i, SealedFor S cfg log i message ∧ Allowed S cfg boots events log i dest

theorem Dispatched.mono {message : Bytes} {dest : SockAddr}
    (h : Dispatched S cfg boots events log message dest) (more : events ⊆ events')
    (longer : log ⊆ log') : Dispatched S cfg boots events' log' message dest := by
  obtain ⟨i, sealed, known | ⟨zero, unanswered⟩⟩ := h
  · exact ⟨i, sealed.mono longer, .inl (known.mono more)⟩
  · exact ⟨i, sealed.mono longer, .inr ⟨zero, unanswered.mono more longer⟩⟩

/-- A world in which everything sent was sealed for a section and sent where it may. -/
structure World.Posted (S : Sodium) (cfg : Config) (boots : Nat → Boot) (events : List Event)
    (w : World) : Prop where
  driven : w.daemon.Driven S cfg boots
  placed : ∀ (i : Nat) (ps : PeerSession), w.daemon.peers[i]? = some ps →
    ps.Placed S cfg boots events w.log i
  keys : w.KeysLogged
  sent : ∀ message dest ok, .sent message dest ok ∈ w.log →
    Dispatched S cfg boots events w.log message dest

theorem World.Posted.step (posted : w.Posted S cfg boots events) (e : Event) :
    (w.step S host e).Posted S cfg boots (events ++ [e]) := by
  have here : e ∈ events ++ [e] := List.mem_append_right _ (List.mem_singleton_self e)
  have placed : ∀ (i : Nat) (ps : PeerSession), w.daemon.peers[i]? = some ps →
      ps.Placed S cfg boots (events ++ [e]) (w.step S host e).log i := fun i ps get =>
    (posted.placed i ps get).mono (List.subset_append_left _ _) (List.subset_append_left _ _)
  have keyed := posted.driven.keyed
  refine ⟨posted.driven.step e, fun i ps' get' => ?_, posted.keys.step e, ?_⟩
  · obtain ⟨ps, effects, get, part, move⟩ := Daemon.move_from host e get'
    have logged : effects ⊆ (w.step S host e).log := fun x hx =>
      List.mem_append_right _ (part.sub hx)
    exact (move.placed get (keyed i ps get) (placed i ps get) here logged).1
  · intro message dest ok sent
    rcases List.mem_append.mp sent with earlier | now
    · exact (posted.sent message dest ok earlier).mono (List.subset_append_left _ _)
        (List.subset_append_left _ _)
    · obtain ⟨_, _, _, h⟩ | ⟨i, ps, ps', effects, get, _, move, within, now⟩ :=
        Daemon.move_effects host e now
      · cases h
      · have logged : effects ⊆ (w.step S host e).log := fun x hx =>
          List.mem_append_right _ (within hx)
        have sealed := move.sealedFor (keyed i ps get) (posted.keys i ps get) now
        refine ⟨i, sealed.mono (List.subset_append_left _ _), ?_⟩
        exact (move.placed get (keyed i ps get) (placed i ps get) here logged).2 message dest ok now

/-- A start leaves a peer placed, and sends where it may. -/
theorem startPeer_placed (log : List Effect) {config : ConfigPeer}
    (hconfig : cfg.peers[i]? = some config)
    (h : startPeer S cfg.privateKey config (boots i) = some (ps, effects)) :
    ps.Placed S cfg boots [] log i ∧ ∀ message dest ok, .sent message dest ok ∈ effects →
      SealedFor S cfg log i message ∧ Allowed S cfg boots [] log i dest := by
  obtain ⟨session, hinit, started⟩ := startPeer_eq h
  obtain ⟨staticKeys, hstatic, hsession⟩ := sessionInit_eq_some hinit
  have fresh : (PeerSession.fresh config session (boots i).clock).Placed S cfg boots [] log i := by
    rw [hsession]
    exact ⟨nofun, fun _ => rfl, fun _ => nofun⟩
  obtain ⟨role, attempt⟩ | ⟨_, idle⟩ := started
  · have did := initiateHandshake_did (S := S) (boots i).attemptClock
      (PeerSession.fresh config session (boots i).clock) (boots i).toAttempt role
    have located := initiateHandshake_at (S := S) (boots i).attemptClock (boots i).toAttempt
      (PeerSession.fresh config session (boots i).clock)
    have static : cfg.staticKeys S config =
        some (PeerSession.fresh config session (boots i).clock).session.staticKeys := by
      rw [hsession]
      exact hstatic
    obtain ⟨placed, allowed⟩ := did.placed located fresh hconfig fun ip answer => .inl answer
    rw [← attempt] at placed allowed
    refine ⟨placed, fun message dest ok sent => ⟨?_, allowed message dest ok sent⟩⟩
    rw [show effects = (ps, effects).2 from rfl, attempt] at sent
    exact initiateHandshake_sealedFor hconfig static _ _ sent
  · cases idle
    exact ⟨fresh, nofun⟩

theorem World.start_posted (start : World.start S cfg boots clock = some w) :
    w.Posted S cfg boots [] where
  driven := World.start_driven start
  placed i ps get := by
    obtain ⟨config, effects, hconfig, _, hstart⟩ := World.start_get start get
    exact (startPeer_placed _ hconfig hstart).1
  keys i ps get established := by
    rw [World.start_pending start get] at established
    cases established
  sent message dest ok sent := by
    -- which peer's start sent it
    unfold World.start at start
    split at start
    · cases start
    · next started hstarted =>
      cases start
      obtain ⟨⟨ps, effects⟩, hp, hx⟩ := List.mem_flatMap.mp sent
      obtain ⟨i, hget⟩ := List.mem_iff_getElem?.mp hp
      have hpeer := mapM_id_get hstarted hget
      rw [List.getElem?_mapIdx, Option.map_eq_some_iff] at hpeer
      obtain ⟨config, hconfig, hstart⟩ := hpeer
      exact ⟨i, (startPeer_placed _ hconfig hstart).2 message dest ok hx⟩

theorem World.run_posted (start : World.start S cfg boots clock = some w) (events : List Event) :
    (events.foldl (World.step S host) w).Posted S cfg boots events := by
  induction events using List.reverseRecOn with
  | nil => exact World.start_posted start
  | append_singleton events e ih =>
    rw [List.foldl_append, List.foldl_cons, List.foldl_nil]
    exact ih.step e

/-- **Everything a node sends is sealed for a section of its configuration and goes to an address
known for that section.** This holds of every datagram of every run from start, whether `udp_send`
succeeds or not, with no assumption about the keys or the clock. The one exception is the all-zero
address: then this node is the section's responder, it accepted an init, and the `udp_send` of the
response to it, to the source of the init, failed. -/
theorem sent_to_known (start : World.start S cfg boots clock = some w) (events : List Event)
    {message : Bytes} {dest : SockAddr} {ok : Bool}
    (sent : .sent message dest ok ∈ (events.foldl (World.step S host) w).log) :
    ∃ i, SealedFor S cfg (events.foldl (World.step S host) w).log i message ∧
      (Known S cfg boots events i dest ∨ dest = SockAddr.zero ∧
        Unanswered S cfg events (events.foldl (World.step S host) w).log i) :=
  (World.run_posted start events).sent message dest ok sent

/-- A datagram sent to `dest`. -/
def Effect.messageTo? (dest : SockAddr) : Effect → Option Bytes
  | .sent message dest' _ => if dest' = dest then some message else none
  | _ => none

/-- The node's log after an init that it could not answer, and a packet for its sender. -/
def unansweredLog : List Effect :=
  ((addressEvents false).foldl (World.step reference .little) sampleWorld).log

def unaddressedMessage : Bytes :=
  (unansweredLog.filterMap (Effect.messageTo? SockAddr.zero)).headD []

theorem sent_to_known_addressEvents :
    .sent unaddressedMessage SockAddr.zero true ∈ unansweredLog ∧
      ∃ i, SealedFor reference sampleConfig unansweredLog i unaddressedMessage ∧
        (Known reference sampleConfig sampleBoots (addressEvents false) i SockAddr.zero ∨
          SockAddr.zero = SockAddr.zero ∧
            Unanswered reference sampleConfig (addressEvents false) unansweredLog i) :=
  have sent : .sent unaddressedMessage SockAddr.zero true ∈ unansweredLog := by decide +kernel
  ⟨sent, sent_to_known sampleWorld_start (addressEvents false) sent⟩

/-! ## Replies -/

/-- What the loop sends to `dest` because of a datagram it received. -/
def World.repliesTo (S : Sodium) (host : Endian) (dest : SockAddr) (w : World) : Event → List Bytes
  | .udp datagram source clock kps sendOk tunOk =>
    (w.daemon.step S host (.udp datagram source clock kps sendOk tunOk)).2.filterMap
      (Effect.messageTo? dest)
  | _ => []

/-- The bytes the loop received from `source`. -/
def Event.receivedFrom (source : SockAddr) : Event → List Bytes
  | .udp datagram source' _ _ _ _ =>
    if source' = source then [datagram.take sealedBufSize] else []
  | _ => []

/-- What opens has the length of what was sealed and the overhead. -/
theorem cryptoOpen_length (aead : S.Aead) (aeadExact : S.AeadExact) {key : SessionKey}
    {input plaintext : Bytes} {outLen : Nat} {counter : UInt64}
    (h : cryptoOpen S key input outLen = some (plaintext, counter)) :
    input.length = plaintext.length + cryptoPacketOverhead := by
  have sealed := cryptoSealed_of_cryptoOpen aeadExact h
  unfold cryptoSealed at sealed
  split at sealed
  · cases sealed
  · next henc =>
    cases sealed
    rw [List.length_append, writeCounter_length, aead.encrypt_length henc, cryptoPacketOverhead]
    omega

/-- A response is as long as the init it answers. -/
theorem sessionHandleInit_length (aead : S.Aead) (aeadExact : S.AeadExact) {kp : KeyPair}
    {s s' : Session} {input response : Bytes} {outLen : Nat}
    (accepted : sessionHandleInit S kp s input outLen = (s', some response)) :
    response.length = input.length := by
  have outcome := sessionHandleInit_outcome (S := S) kp s input outLen
  rw [accepted] at outcome
  cases outcome with
  | accepted read _ sealed =>
    obtain ⟨_, _, payload, rfl, auth, _⟩ := sessionReadInit_eq_some read
    rw [List.length_cons, List.length_cons, cryptoSeal_length aead sealed,
      cryptoOpen_length aead aeadExact auth, Block.size, Block.size]

/-- A reply and the datagram it replies to. -/
def Replies (S : Sodium) (cfg : Config) (reply datagram : Bytes) : Prop :=
  reply.length = datagram.length ∧ ∃ i, InitFor S cfg i datagram

/-- The effects of a datagram from `source`, as far as they are sent to `dest`, reply to it. -/
def RepliesWithin (S : Sodium) (cfg : Config) (dest source : SockAddr) (datagram : Bytes)
    (effects : List Effect) : Prop :=
  List.SublistForall₂ (Replies S cfg) (effects.filterMap (Effect.messageTo? dest))
    (if source = dest then [datagram] else [])

/-- Nothing sent is no reply. -/
theorem RepliesWithin.silent {dest source : SockAddr} {datagram : Bytes}
    (silent : ∀ x ∈ effects, x.messageTo? dest = none) :
    RepliesWithin S cfg dest source datagram effects := by
  unfold RepliesWithin
  rw [List.filterMap_eq_nil_iff.mpr silent]
  exact .nil

/-- The response to an init, back to where it came from. -/
theorem RepliesWithin.response (aead : S.Aead) (aeadExact : S.AeadExact)
    (keyed : ps.Keyed S cfg i) (role : ps.config.role = .responder) {kp : KeyPair} {s : Session}
    {datagram response : Bytes} {outLen : Nat}
    (accepted : sessionHandleInit S kp ps.session datagram outLen = (s, some response))
    (dest source : SockAddr) (keys : SessionKeys) (clock : UInt64) (ok : Bool) :
    RepliesWithin S cfg dest source datagram [.accepted i datagram clock, .derived i keys clock,
      .sent response source ok] := by
  have replies : Replies S cfg response datagram :=
    ⟨sessionHandleInit_length aead aeadExact accepted, i, keyed.initFor role accepted⟩
  unfold RepliesWithin
  by_cases here : source = dest
  · simp only [List.filterMap_cons, Effect.messageTo?, if_pos here, List.filterMap_nil]
    exact .cons replies .nil
  · simp only [List.filterMap_cons, Effect.messageTo?, if_neg here, List.filterMap_nil]
    exact .nil

/-- A datagram from a peer's address is answered at most by the response to an init. -/
theorem ReceiveDid.replies (aead : S.Aead) (aeadExact : S.AeadExact) {datagram : Bytes}
    {clock : UInt64} (did : ReceiveDid S i datagram clock ps ps' effects)
    (keyed : ps.Keyed S cfg i) (dest : SockAddr) :
    RepliesWithin S cfg dest ps.addr datagram effects := by
  cases did with
  | idle => exact .silent nofun
  | initRefused => exact .silent nofun
  | initAccepted _ _ _ role session => exact .response aead aeadExact keyed role session ..
  | responseAccepted =>
    refine .silent fun x hx => ?_
    simp only [List.mem_cons, List.not_mem_nil, or_false] at hx
    rcases hx with rfl | rfl <;> rfl
  | opened _ _ _ wrote =>
    refine .silent (List.forall_mem_cons.mpr ⟨rfl, fun x hx => ?_⟩)
    obtain ⟨_, rfl⟩ := wrote x hx
    rfl

/-- **One datagram**: what it makes the loop send goes back to its source, is as long, and is sent
for an init that authenticates. -/
theorem udp_replies (aead : S.Aead) (aeadExact : S.AeadExact) (keyed : d.Keyed S cfg)
    (datagram : Bytes) (source : SockAddr) (clock : UInt64) (kps : Nat → KeyPair)
    (sendOk tunOk : Bool) (dest : SockAddr) :
    RepliesWithin S cfg dest source (datagram.take sealedBufSize)
      (d.udp S datagram source clock kps sendOk tunOk).2 := by
  have did := udp_did (S := S) clock datagram source kps sendOk tunOk d
  generalize d.udp S datagram source clock kps sendOk tunOk = result at did
  obtain ⟨d', effects⟩ := result
  dsimp only at did ⊢
  cases did with
  | ignored => exact .silent nofun
  | known found get =>
    rw [← (findPeerByAddr_eq_some found get).2]
    exact (receive_did ..).replies aead aeadExact (keyed _ _ get) dest
  | unmatched => exact .silent nofun
  | matched _ search _ =>
    obtain ⟨ps, s, get, role, session, _⟩ := (Tried.of_search search).matched_get
    exact .response aead aeadExact (keyed _ _ get) role session ..

/-- **No reflection, no amplification.** Over every run, the datagrams a node sends to an address in
reply to what it receives can be matched, in order, with different datagrams received from that same
address: each an init that authenticates under the static key of a section, and each as long as the
reply. So they are no more bytes in total. -/
theorem replies_bounded (aead : S.Aead) (aeadExact : S.AeadExact)
    (start : World.start S cfg boots clock = some w) (events : List Event) (dest : SockAddr) :
    List.SublistForall₂
      (fun reply init => reply.length = init.length ∧ ∃ i, InitFor S cfg i init)
      (Runs.outputs (World.step S host) (World.repliesTo S host dest) w events)
      (events.flatMap (Event.receivedFrom dest)) ∧
    ((Runs.outputs (World.step S host) (World.repliesTo S host dest) w events).map
        List.length).sum ≤
      ((events.flatMap (Event.receivedFrom dest)).map List.length).sum := by
  have one : ∀ (w : World) (e : Event), w.daemon.Driven S cfg boots →
      List.SublistForall₂ (Replies S cfg) (w.repliesTo S host dest e) (e.receivedFrom dest) := by
    intro w e driven
    cases e with
    | tun => exact .nil
    | udp datagram source clock kps sendOk tunOk =>
      exact udp_replies aead aeadExact driven.keyed datagram source clock kps sendOk tunOk dest
    | timer => exact .nil
  have kept : ∀ (w : World) (e : Event), w.daemon.Driven S cfg boots →
      (w.step S host e).daemon.Driven S cfg boots := fun w e driven => driven.step e
  have matched := Runs.outputs_matched kept one events (World.start_driven start)
  refine ⟨matched, ?_⟩
  obtain ⟨answered, replies, sub⟩ := List.sublistForall₂_iff.mp matched
  have lengths : List.Forall₂ (· ≤ ·)
      ((Runs.outputs (World.step S host) (World.repliesTo S host dest) w events).map List.length)
      (answered.map List.length) := by
    rw [List.forall₂_map_left_iff, List.forall₂_map_right_iff]
    exact replies.imp fun _ _ h => h.1.le
  calc _ ≤ (answered.map List.length).sum := lengths.sum_le_sum
    _ ≤ _ := (sub.map List.length).sum_le_sum fun _ _ => Nat.zero_le _

/-- Two inits and an unknown message from one address, and an init from another. -/
def repliedEvents : List Event :=
  [.udp (peerInit 1 7 (referencePair 5)) (sampleSource 9) 10 (fun _ => referencePair 30) true true,
    .udp (peerInit 1 8 (referencePair 6)) (sampleSource 9) 20 (fun _ => referencePair 31) true true,
    .udp [9, 1, 2, 3] (sampleSource 9) 30 (fun _ => referencePair 32) true true,
    .udp (peerInit 3 7 (referencePair 7)) (sampleSource 8) 40 (fun _ => referencePair 33) true true]

/-- Two inits from one address are answered once each, the third datagram not at all. -/
theorem replies_bounded_repliedEvents :
    (Runs.outputs (World.step reference .little)
      (World.repliesTo reference .little (sampleSource 9))
      sampleWorld repliedEvents).map List.length = [57, 57] ∧
    (repliedEvents.flatMap (Event.receivedFrom (sampleSource 9))).map List.length = [57, 57, 4] ∧
    List.SublistForall₂
      (fun reply init => reply.length = init.length ∧ ∃ i, InitFor reference sampleConfig i init)
      (Runs.outputs (World.step reference .little)
        (World.repliesTo reference .little (sampleSource 9)) sampleWorld repliedEvents)
      (repliedEvents.flatMap (Event.receivedFrom (sampleSource 9))) :=
  ⟨by decide +kernel, by decide +kernel,
    (replies_bounded reference_aead reference_aeadExact sampleWorld_start repliedEvents
      (sampleSource 9)).1⟩

end EdgarVPN
