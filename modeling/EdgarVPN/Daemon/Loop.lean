import EdgarVPN.Crypto.Reference
import EdgarVPN.Daemon.Peer

/-!
# `src/main.c`: the event loop

The daemon is its peers and the time of the last statistics. One pass of the loop is up to three
events, each its own here: a packet read from the TUN device, a datagram received, and a timer pass.
Events the loop only logs (a failed read, an interrupted `poll`) are not events. `World` keeps
beside the daemon everything it did so far and the last clock reading.
-/

set_option autoImplicit false

namespace EdgarVPN

/-- The state of `main`. -/
structure Daemon where
  peers : List PeerSession
  lastStatsMs : UInt64
deriving DecidableEq

/-- One branch of the loop, with what it reads and what its calls return. -/
inductive Event where
  | tun (packet : Bytes) (clock : UInt64) (sendOk : Bool)
  | udp (datagram : Bytes) (source : SockAddr) (clock : UInt64) (kps : Nat → KeyPair)
      (sendOk tunOk : Bool)
  | timer (now : UInt64) (env : Nat → Tick)

/-- The reading of `monotonic_ms` in the branch. -/
def Event.clock : Event → UInt64
  | .tun _ clock _ => clock
  | .udp _ _ clock _ _ _ => clock
  | .timer now _ => now

/-- The bytes `udp_recv` put into the buffer. -/
def Event.received? : Event → Option Bytes
  | .udp datagram _ _ _ _ _ => some (datagram.take sealedBufSize)
  | _ => none

variable (S : Sodium) (host : Endian)

/-! ## Attribution -/

/-- `find_peer_by_addr`. -/
def findPeerByAddr (peers : List PeerSession) (source : SockAddr) : Option Nat :=
  peers.findIdx? fun ps => ps.addrResolved && ps.addr == source

/-- `find_responder_for_init`, from index `i` on: the peers after the sessions tried, and the peer
that accepted with its response. The pair of an index is the one its session draws. -/
def findResponderForInit (kps : Nat → KeyPair) (input : Bytes) (outLen : Nat) :
    Nat → List PeerSession → List PeerSession × Option (Nat × Bytes)
  | _, [] => ([], none)
  | i, ps :: rest =>
    if ps.config.role ≠ .responder then
      let (rest, matched) := findResponderForInit kps input outLen (i + 1) rest
      (ps :: rest, matched)
    else
      match sessionHandleInit S (kps i) ps.session input outLen with
      | (s, some response) => ({ ps with session := s } :: rest, some (i, response))
      | (s, none) =>
        let (rest, matched) := findResponderForInit kps input outLen (i + 1) rest
        ({ ps with session := s } :: rest, matched)

/-! ## The branches -/

/-- The TUN branch. -/
def Daemon.tun (packet : Bytes) (clock : UInt64) (sendOk : Bool) (d : Daemon) :
    Daemon × List Effect :=
  let packet := packet.take maxPacketSize
  match routingParseIpv4Dest packet with
  | none => (d, [])
  | some dest =>
    match routingFindPeerForDest host (d.peers.map PeerSession.config) dest with
    | none => (d, [])
    | some i =>
      match d.peers[i]? with
      | none => (d, [])
      | some ps =>
        let (ps, effects) := ps.forward S i packet clock sendOk
        ({ d with peers := d.peers.set i ps }, effects)

/-- An init from an address no peer is known by. -/
def Daemon.unknownInit (datagram : Bytes) (source : SockAddr) (clock : UInt64)
    (kps : Nat → KeyPair) (sendOk : Bool) (d : Daemon) : Daemon × List Effect :=
  match findResponderForInit S kps datagram sessionHandshakeMsgLen 0 d.peers with
  | (peers, none) => ({ d with peers := peers }, [])
  | (peers, some (i, response)) =>
    match peers[i]? with
    | none => ({ d with peers := peers }, [])
    | some ps =>
      let effects := [.accepted i datagram clock, .derived i ps.session.dataKeys clock,
        .sent response source sendOk]
      if sendOk then
        let ps := PeerSession.responded clock { ps with addr := source, addrResolved := true }
        ({ d with peers := peers.set i ps }, effects)
      else
        ({ d with peers := peers }, effects)

/-- The UDP branch. -/
def Daemon.udp (datagram : Bytes) (source : SockAddr) (clock : UInt64) (kps : Nat → KeyPair)
    (sendOk tunOk : Bool) (d : Daemon) : Daemon × List Effect :=
  let datagram := datagram.take sealedBufSize
  if d.peers.length = 0 ∨ datagram.length < 1 then
    (d, [])
  else
    match findPeerByAddr d.peers source with
    | none =>
      if datagram.getD 0 0 = sessionMsgHandshakeInit then
        d.unknownInit S datagram source clock kps sendOk
      else
        (d, [])
    | some i =>
      match d.peers[i]? with
      | none => (d, [])
      | some ps =>
        let (ps, effects) := ps.receive S i datagram clock (kps i) sendOk tunOk
        ({ d with peers := d.peers.set i ps }, effects)

/-- The timer pass. -/
def Daemon.timer (now : UInt64) (env : Nat → Tick) (d : Daemon) : Daemon × List Effect :=
  if d.peers.length > 0 then
    let ticked := d.peers.mapIdx fun i ps => ps.tick S i now (env i)
    let lastStatsMs := if now - d.lastStatsMs ≥ statsIntervalMs then now else d.lastStatsMs
    (⟨ticked.map Prod.fst, lastStatsMs⟩, ticked.flatMap Prod.snd ++ [.passed now])
  else
    (d, [.passed now])

/-- One event. -/
def Daemon.step (d : Daemon) : Event → Daemon × List Effect
  | .tun packet clock sendOk => d.tun S host packet clock sendOk
  | .udp datagram source clock kps sendOk tunOk => d.udp S datagram source clock kps sendOk tunOk
  | .timer now env => d.timer S now env

/-! ## Start -/

/-- What the environment decides of a peer's start: the second `session_init` reads and the pair it
draws, the clock, and, for an initiator, the clock of its first attempt and what becomes of it. -/
structure Boot extends Attempt where
  time : UInt64
  initialPair : KeyPair
  clock : UInt64
  attemptClock : UInt64

/-- A peer before its first attempt. -/
def PeerSession.fresh (config : ConfigPeer) (session : Session) (clock : UInt64) : PeerSession where
  config := config
  addrResolved := false
  addr := SockAddr.zero
  session := session
  lastRxActivityMs := clock
  lastTxActivityMs := 0
  lastHandshakeCompletedMs := 0
  statPacketsTx := 0
  statBytesTx := 0
  statPacketsRx := 0
  statBytesRx := 0
  statHandshakes := 0
  statAuthFailures := 0
  statDrops := 0

/-- A peer's start; `none` if its session does not initialise. -/
def startPeer (privateKey : SecretKey) (config : ConfigPeer) (boot : Boot) :
    Option (PeerSession × List Effect) :=
  let localPk := cryptoDerivePublicKey S privateKey
  match sessionInit S config.role localPk privateKey config.publicKey boot.time
      boot.initialPair with
  | none => none
  | some session =>
    let ps := PeerSession.fresh config session boot.clock
    match config.role with
    | .initiator => some (initiateHandshake S boot.attemptClock boot.toAttempt ps)
    | .responder => some (ps, [])

/-- The daemon with all it did and the last clock reading. -/
structure World where
  daemon : Daemon
  log : List Effect
  clock : UInt64
deriving DecidableEq

/-- `main` up to its loop, at a clock not before the peers'; `none` if it exits. -/
def World.start (cfg : Config) (boots : Nat → Boot) (clock : UInt64) : Option World :=
  match (cfg.peers.mapIdx fun i config => startPeer S cfg.privateKey config (boots i)).mapM id with
  | none => none
  | some started =>
    some ⟨⟨started.map Prod.fst, clock⟩, started.flatMap Prod.snd, clock⟩

/-- The world after an event. -/
def World.step (w : World) (e : Event) : World :=
  let (daemon, effects) := w.daemon.step S host e
  ⟨daemon, w.log ++ effects, e.clock⟩

/-! ## A sample -/

/-- A peer that holds the pair of `b`, with the addresses 10.0.`b`.0/24 behind it. -/
def samplePeer (role : CryptoRole) (b : UInt8) : ConfigPeer where
  host := []
  port := 51820
  publicKey := (referencePair b).pk
  role := role
  allowedAddress := ⟨10, 0, b, 0⟩
  allowedPrefix := 24

/-- A node that holds the pair of 2 and answers two peers. -/
def sampleConfig : Config :=
  { Config.initial with
    hasPrivateKey := true
    privateKey := (referencePair 2).sk
    peers := [samplePeer .responder 1, samplePeer .responder 3] }

def sampleBoots (i : Nat) : Boot where
  resolved := none
  kp := referencePair 20
  sent := true
  time := 100
  initialPair := referencePair (UInt8.ofNat (10 + i))
  clock := 0
  attemptClock := 0

/-- The node when its loop begins. -/
def sampleWorld : World := (World.start reference sampleConfig sampleBoots 0).getD ⟨⟨[], 0⟩, [], 0⟩

theorem sampleWorld_start :
    World.start reference sampleConfig sampleBoots 0 = some sampleWorld := by
  decide +kernel

/-- The init with this counter and ephemeral pair of the peer that holds the pair of `b`. -/
def peerInit (b : UInt8) (counter : UInt64) (kp : KeyPair) : Bytes :=
  let keys := cryptoDeriveSessionKeys reference .initiator (referencePair b).pk
    (referencePair b).sk (referencePair 2).pk
  sessionMsgHandshakeInit ::
    (keys.bind fun k => cryptoSeal reference k.tx counter kp.pk.bytes 56).getD []

/-- The response of the peer that holds the pair of 1 to the init with this counter. -/
def peerResponse (counter : UInt64) (kp : KeyPair) : Bytes :=
  let keys := cryptoDeriveSessionKeys reference .responder (referencePair 1).pk
    (referencePair 1).sk (referencePair 2).pk
  sessionMsgHandshakeResponse ::
    (keys.bind fun k => cryptoSeal reference k.tx counter kp.pk.bytes 56).getD []

/-- The address this ends in. -/
def sampleSource (b : UInt8) : SockAddr := ⟨⟨192, 0, 2, b⟩, 51820⟩

/-- An IPv4 packet for the peer that holds the pair of 1. -/
def routedPacket : Bytes := 0x45 :: List.replicate 15 0 ++ [10, 0, 1, 7]

end EdgarVPN
