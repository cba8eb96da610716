import EdgarVPN.Process.System

/-!
# `src/main.c` as a process

`main`, call by call: from `log_init` to the last `close`, with the lines it logs. `Daemon.Peer` and
`Daemon.Loop` are the same functions with the answers of the system as arguments; here the calls are
made where the source makes them, and only there. So a clock that is read only after a successful
send is read only then, and a pair is drawn only where `session_start_handshake` is reached.

The loop of `main` ends by a signal or an error of `poll` only, so `mainLoop` is given a number of
passes; `none` says that they did not end it.
-/

set_option autoImplicit false

namespace EdgarVPN

open CString Programs

namespace Process

def defaultConfigPath : Bytes := ascii "/etc/edgarvpn/edgarvpn.conf"
def pollTimeoutMs : Nat := 1000

variable (S : Sodium) (host : Endian)

/-! ## Sessions -/

/-- `session_init`: the second is read and the pair drawn after the keys are derived. -/
def sessionInit (role : CryptoRole) (localPk : PublicKey) (localSk : SecretKey)
    (peerPk : PublicKey) : Proc (Option Session) := do
  match cryptoDeriveSessionKeys S role localPk localSk peerPk with
  | none => return none
  | some _ =>
    let time ← sys .time
    let kp ← sys .kxKeypair
    return EdgarVPN.sessionInit S role localPk localSk peerPk time kp

/-- `session_handle_init`: an established session that reads the init starts over with a new
pair. -/
def sessionHandleInit (s : Session) (input : Bytes) (outLen : Nat) :
    Proc (Session × Option Bytes) := do
  if (sessionReadInit S s input outLen).isSome ∧ s.state = .established then
    let kp ← sys .kxKeypair
    return EdgarVPN.sessionHandleInit S kp s input outLen
  else
    return EdgarVPN.sessionHandleInit S s.ephemeral s input outLen

/-! ## Attempts -/

/-- The end of `initiate_handshake`, with the address known. -/
def sendInit (localName : Bytes) (udp : Int) (now : UInt64) (ps : PeerSession) :
    Proc PeerSession := do
  let kp ← sys .kxKeypair
  let ps := { ps with
    session := sessionStartHandshake kp ps.session
    lastRxActivityMs := now
    lastTxActivityMs := now }
  match sessionBuildInit S ps.session sealedBufSize with
  | (s, none) =>
    logError localName [.str "failed to send handshake init to '", .text ps.config.host, .str "'"]
    return { ps with session := s }
  | (s, some init) =>
    if ← udpSend udp init ps.addr then
      logInfo localName
        [.str "sent handshake init to '", .text ps.config.host, .str "', awaiting response"]
      return { ps with session := s }
    else
      logError localName [.str "failed to send handshake init to '", .text ps.config.host, .str "'"]
      return { ps with session := s }

/-- `initiate_handshake`. -/
def initiateHandshake (localName : Bytes) (udp : Int) (now : UInt64) (ps : PeerSession) :
    Proc PeerSession := do
  if ps.addrResolved then
    sendInit S localName udp now ps
  else
    let ps := { ps with lastRxActivityMs := now }
    match ← udpResolve ps.config.host ps.config.port with
    | none =>
      logWarn localName
        [.str "'", .text ps.config.host, .str "' not resolvable yet, will keep retrying"]
      return ps
    | some addr => sendInit S localName udp now { ps with addr := addr, addrResolved := true }

/-! ## The TUN branch -/

/-- A packet routed to this peer. -/
def forward (localName : Bytes) (udp : Int) (packet : Bytes) (ps : PeerSession) :
    Proc PeerSession := do
  if ps.session.state ≠ .established then
    logDebug localName [.str "session with '", .text ps.config.host,
      .str "' not established yet, dropping ", .num packet.length, .str "-byte packet"]
    return { ps with statDrops := ps.statDrops + 1 }
  else
    match sessionSealData S ps.session packet sealedBufSize with
    | (s, none) =>
      logError localName [.str "failed to encrypt a ", .num packet.length,
        .str "-byte packet for '", .text ps.config.host, .str "'"]
      return { ps with session := s }
    | (s, some message) =>
      let ps := { ps with session := s }
      if ← udpSend udp message ps.addr then
        let clock ← monotonicMs
        let ps := { ps with
          lastTxActivityMs := clock
          statPacketsTx := ps.statPacketsTx + 1
          statBytesTx := ps.statBytesTx + UInt64.ofNat message.length }
        logDebug localName [.str "tun -> udp (", .text ps.config.host, .str "): ",
          .num packet.length, .str " bytes (sealed to ", .num message.length, .str ")"]
        return ps
      else
        let error ← errno
        logWarn localName
          [.str "udp_send to '", .text ps.config.host, .str "' error: ", .strerror error]
        return ps

/-- What `main` does not change in its loop. -/
structure Node where
  cfg : Config
  tun : TunDevice
  udp : Int
deriving DecidableEq

/-- The daemon with one peer replaced. -/
def setPeer (d : Daemon) (i : Nat) (ps : PeerSession) : Daemon :=
  { d with peers := d.peers.set i ps }

/-- The branch for a readable TUN device. -/
def tunBranch (node : Node) (d : Daemon) : Proc Daemon := do
  match ← tunRead node.tun maxPacketSize with
  | none =>
    let error ← errno
    if error ≠ eintr then
      logWarn node.cfg.name [.str "tun_read error: ", .strerror error]
    return d
  | some packet =>
    if node.cfg.peers.length = 0 then
      logInfo node.cfg.name [.str "captured packet: ", .num packet.length, .str " bytes"]
      return d
    else
      let idx := (routingParseIpv4Dest packet).bind (routingFindPeerForDest host node.cfg.peers)
      match idx.bind fun i => d.peers[i]?.map fun ps => (i, ps) with
      | none =>
        logDebug node.cfg.name
          [.str "no route for a ", .num packet.length, .str "-byte outbound packet, dropping"]
        return d
      | some (i, ps) =>
        let ps ← forward S node.cfg.name node.udp packet ps
        return setPeer d i ps

/-! ## The UDP branch -/

/-- `find_responder_for_init`, from index `i` on: the peers after the sessions tried, and the peer
that accepted with its response. -/
def findResponderForInit (input : Bytes) (outLen : Nat) :
    Nat → List PeerSession → Proc (List PeerSession × Option (Nat × Bytes))
  | _, [] => return ([], none)
  | i, ps :: rest => do
    if ps.config.role ≠ .responder then
      let (rest, matched) ← findResponderForInit input outLen (i + 1) rest
      return (ps :: rest, matched)
    else
      match ← sessionHandleInit S ps.session input outLen with
      | (s, some response) => return ({ ps with session := s } :: rest, some (i, response))
      | (s, none) =>
        let (rest, matched) ← findResponderForInit input outLen (i + 1) rest
        return ({ ps with session := s } :: rest, matched)

/-- `%s:%u` of an address. -/
def endpoint (source : SockAddr) : List Piece :=
  [.text (InAddr.inetNtop source.addr), .str ":", .num source.port.toNat]

/-- An init from an address no peer is known by. -/
def unknownInit (node : Node) (datagram : Bytes) (source : SockAddr) (d : Daemon) :
    Proc Daemon := do
  let (peers, matched) ← findResponderForInit S datagram sessionHandshakeMsgLen 0 d.peers
  let d := { d with peers := peers }
  match matched.bind fun m => peers[m.1]?.map fun ps => (m.1, m.2, ps) with
  | none =>
    logWarn node.cfg.name (.str "handshake init from " :: endpoint source ++
      [.str " did not authenticate against any configured peer, dropping"])
    return d
  | some (i, response, ps) =>
    if ← udpSend node.udp response source then
      let clock ← monotonicMs
      logInfo node.cfg.name ([.str "handshake complete with '", .text ps.config.host,
        .str "' (learned endpoint "] ++ endpoint source ++ [.str "), session established"])
      return setPeer d i
        (PeerSession.responded clock { ps with addr := source, addrResolved := true })
    else
      let error ← errno
      logError node.cfg.name [.str "failed to send handshake response to '", .text ps.config.host,
        .str "': ", .strerror error]
      return d

/-- A handshake init from this peer's address. -/
def receiveInit (localName : Bytes) (udp : Int) (datagram : Bytes) (ps : PeerSession) :
    Proc PeerSession := do
  match ← sessionHandleInit S ps.session datagram sessionHandshakeMsgLen with
  | (s, none) =>
    logWarn localName [.str "rejected a malformed, unauthenticated, or stale handshake init from '",
      .text ps.config.host, .str "'"]
    return { ps with session := s, statAuthFailures := ps.statAuthFailures + 1 }
  | (s, some response) =>
    let ps := { ps with session := s }
    if ← udpSend udp response ps.addr then
      let clock ← monotonicMs
      logInfo localName
        [.str "handshake complete with '", .text ps.config.host, .str "', session established"]
      return ps.responded clock
    else
      let error ← errno
      logError localName [.str "failed to send handshake response to '", .text ps.config.host,
        .str "': ", .strerror error]
      return ps

/-- A handshake response from this peer's address. -/
def receiveResponse (localName : Bytes) (datagram : Bytes) (ps : PeerSession) :
    Proc PeerSession := do
  match sessionHandleResponse S ps.session datagram with
  | (s, false) =>
    logWarn localName
      [.str "rejected a malformed, unauthenticated, or stale handshake response from '",
        .text ps.config.host, .str "'"]
    return { ps with session := s, statAuthFailures := ps.statAuthFailures + 1 }
  | (s, true) =>
    let clock ← monotonicMs
    logInfo localName
      [.str "handshake complete with '", .text ps.config.host, .str "', session established"]
    return { ps with
      session := s
      lastRxActivityMs := clock
      lastHandshakeCompletedMs := clock
      statHandshakes := ps.statHandshakes + 1 }

/-- A data packet from this peer's address. -/
def receiveData (localName : Bytes) (tun : TunDevice) (datagram : Bytes) (ps : PeerSession) :
    Proc PeerSession := do
  let opened := sessionOpenData S ps.session datagram (List.replicate maxPacketSize 0)
  let ps := { ps with session := opened.session }
  match opened.plaintext? with
  | none =>
    logWarn localName [.str "dropping a data packet from '", .text ps.config.host,
      .str "' (not established, failed authentication, or replayed)"]
    return { ps with
      statAuthFailures := ps.statAuthFailures + 1
      statDrops := ps.statDrops + 1 }
  | some [] =>
    let clock ← monotonicMs
    logDebug localName [.str "received keepalive from '", .text ps.config.host, .str "'"]
    return { ps with lastRxActivityMs := clock }
  | some packet =>
    if ← tunWrite tun packet then
      let clock ← monotonicMs
      logDebug localName [.str "udp -> tun (", .text ps.config.host, .str "): ", .num packet.length,
        .str " bytes (opened from ", .num datagram.length, .str ")"]
      return { ps with
        lastRxActivityMs := clock
        statPacketsRx := ps.statPacketsRx + 1
        statBytesRx := ps.statBytesRx + UInt64.ofNat datagram.length }
    else
      let error ← errno
      logError localName [.str "tun_write error: ", .strerror error]
      return ps

/-- A datagram from this peer's address: the dispatch on its type and the peer's role. -/
def receive (localName : Bytes) (tun : TunDevice) (udp : Int) (datagram : Bytes)
    (ps : PeerSession) : Proc PeerSession := do
  let type := datagram.getD 0 0
  if type = sessionMsgHandshakeInit ∧ ps.config.role = .responder then
    receiveInit S localName udp datagram ps
  else if type = sessionMsgHandshakeResponse ∧ ps.config.role = .initiator then
    receiveResponse S localName datagram ps
  else if type = sessionMsgData then
    receiveData S localName tun datagram ps
  else
    logWarn localName [.str "dropping unexpected message (type ", .num type.toNat, .str ") from '",
      .text ps.config.host, .str "' for its role/state"]
    return { ps with statDrops := ps.statDrops + 1 }

/-- The branch for a readable UDP socket. -/
def udpBranch (node : Node) (d : Daemon) : Proc Daemon := do
  match ← udpRecv node.udp sealedBufSize with
  | none =>
    let error ← errno
    if error ≠ eintr then
      logWarn node.cfg.name [.str "udp_recv error: ", .strerror error]
    return d
  | some (datagram, source) =>
    if node.cfg.peers.length = 0 ∨ datagram.length < 1 then
      logDebug node.cfg.name [.str "received ", .num datagram.length,
        .str " bytes on UDP with no session, dropping"]
      return d
    else
      match (findPeerByAddr d.peers source).bind fun i =>
          d.peers[i]?.map fun ps => (i, ps) with
      | none =>
        if datagram.getD 0 0 = sessionMsgHandshakeInit then
          unknownInit S node datagram source d
        else
          logWarn node.cfg.name (.str "received a datagram from unrecognized " :: endpoint source ++
            [.str ", dropping"])
          return d
      | some (i, ps) =>
        let ps ← receive S node.cfg.name node.tun node.udp datagram ps
        return setPeer d i ps

/-! ## The timer pass -/

/-- The keepalive of a timer pass. -/
def keepalive (localName : Bytes) (udp : Int) (now : UInt64) (ps : PeerSession) :
    Proc PeerSession := do
  if ps.addrResolved ∧ ps.session.state = .established ∧
      now - ps.lastTxActivityMs ≥ keepaliveIntervalMs then
    match sessionSealData S ps.session [] sealedBufSize with
    | (s, none) =>
      logError localName [.str "failed to build keepalive for '", .text ps.config.host, .str "'"]
      return { ps with session := s, lastTxActivityMs := now }
    | (s, some message) =>
      let ps := { ps with session := s, lastTxActivityMs := now }
      if ← udpSend udp message ps.addr then
        logDebug localName [.str "sent keepalive to '", .text ps.config.host, .str "'"]
        return { ps with
          statPacketsTx := ps.statPacketsTx + 1
          statBytesTx := ps.statBytesTx + UInt64.ofNat message.length }
      else
        let error ← errno
        logWarn localName [.str "failed to send keepalive to '", .text ps.config.host, .str "': ",
          .strerror error]
        return ps
  else
    return ps

/-- The timeout and the key rotation of a timer pass. -/
def reconnect (localName : Bytes) (udp : Int) (now : UInt64) (ps : PeerSession) :
    Proc PeerSession := do
  if ps.config.role = .initiator ∧ now - ps.lastRxActivityMs ≥ sessionTimeoutMs then
    if ps.addrResolved then
      logWarn localName [.str "heard nothing from '", .text ps.config.host, .str "' in ",
        .num (now - ps.lastRxActivityMs).toUInt32.toNat, .str "ms, re-handshaking"]
    initiateHandshake S localName udp now ps
  else if ps.config.role = .initiator ∧ ps.session.state = .established ∧
      now - ps.lastHandshakeCompletedMs ≥ keyRotationIntervalMs then
    logInfo localName [.str "rotating session keys with '", .text ps.config.host, .str "' after ",
      .num (now - ps.lastHandshakeCompletedMs).toUInt32.toNat, .str "ms"]
    initiateHandshake S localName udp now ps
  else
    return ps

/-- The peers of a timer pass, one after another. -/
def tickAll (localName : Bytes) (udp : Int) (now : UInt64) :
    List PeerSession → Proc (List PeerSession)
  | [] => return []
  | ps :: rest => do
    let ps ← keepalive S localName udp now ps
    let ps ← reconnect S localName udp now ps
    let rest ← tickAll localName udp now rest
    return ps :: rest

/-- A line of `log_stats`. -/
def statsLine (ps : PeerSession) : List Piece :=
  [.str "stats peer=", .text ps.config.host, .str " established=",
    if ps.session.state = .established then .str "yes" else .str "no",
    .str " tx_packets=", .num ps.statPacketsTx.toNat, .str " tx_bytes=", .num ps.statBytesTx.toNat,
    .str " rx_packets=", .num ps.statPacketsRx.toNat, .str " rx_bytes=", .num ps.statBytesRx.toNat,
    .str " handshakes=", .num ps.statHandshakes.toNat,
    .str " auth_failures=", .num ps.statAuthFailures.toNat, .str " drops=", .num ps.statDrops.toNat]

/-- `log_stats`. -/
def logStats (localName : Bytes) : List PeerSession → Proc PUnit
  | [] => return
  | ps :: rest => do
    logInfo localName (statsLine ps)
    logStats localName rest

/-- The timer pass. -/
def timerPass (node : Node) (d : Daemon) : Proc Daemon := do
  if node.cfg.peers.length > 0 then
    let now ← monotonicMs
    let peers ← tickAll S node.cfg.name node.udp now d.peers
    if now - d.lastStatsMs ≥ statsIntervalMs then
      logStats node.cfg.name peers
      return ⟨peers, now⟩
    else
      return ⟨peers, d.lastStatsMs⟩
  else
    return d

/-! ## The loop -/

/-- A branch of the loop, for a descriptor that is ready. -/
def onReady (ready : Prop) [Decidable ready] (branch : Daemon → Proc Daemon) (d : Daemon) :
    Proc Daemon :=
  if ready then branch d else pure d

/-- One pass of the loop: the daemon, and whether the loop goes on. -/
def pass (node : Node) (d : Daemon) : Proc (Daemon × Bool) := do
  let polled ← sys (.poll node.tun.fd node.udp pollTimeoutMs)
  if polled.ready < 0 then
    let error ← errno
    if error = eintr then
      return (d, true)
    else
      logError node.cfg.name [.str "poll error: ", .strerror error]
      return (d, false)
  else
    let d ← onReady (polled.ready > 0 ∧ polled.tunIn) (tunBranch S host node) d
    let d ← onReady (polled.ready > 0 ∧ polled.udpIn) (udpBranch S node) d
    let d ← timerPass S node d
    return (d, true)

/-- The loop, for so many passes: the daemon, and whether the loop ended. -/
def mainLoop (node : Node) : Nat → Daemon → Proc (Daemon × Bool)
  | 0, d => return (d, false)
  | passes + 1, d => do
    if ← sys .running then
      let (d, more) ← pass S host node d
      if more then mainLoop node passes d else return (d, true)
    else
      return (d, true)

/-! ## Start -/

/-- A peer with its session: an initiator makes its first attempt. -/
def launch (cfg : Config) (udp : Int) (config : ConfigPeer) (ps : PeerSession) :
    Proc PeerSession := do
  match config.role with
  | .initiator =>
    let now ← monotonicMs
    initiateHandshake S cfg.name udp now ps
  | .responder =>
    logInfo cfg.name [.str "awaiting handshake init from '", .text config.host, .str "'"]
    return ps

/-- The sessions of the peers, one after another; `none` if one does not initialise. -/
def startPeers (cfg : Config) (udp : Int) : List ConfigPeer → Proc (Option (List PeerSession))
  | [] => return some []
  | config :: rest => do
    match ← sessionInit S config.role (cryptoDerivePublicKey S cfg.privateKey) cfg.privateKey
        config.publicKey with
    | none =>
      logError cfg.name [.str "failed to initialize session with '", .text config.host,
        .str "' (its PublicKey may be invalid)"]
      return none
    | some session =>
      let clock ← monotonicMs
      let ps ← launch S cfg udp config (PeerSession.fresh config session clock)
      match ← startPeers cfg udp rest with
      | none => return none
      | some peers => return some (ps :: peers)

/-- The line `main` logs before its loop. -/
def upLine (cfg : Config) (tun : TunDevice) : List Piece :=
  [.str "up: interface '", .text tun.name, .str "' (", .text cfg.tunAddress, .str "/",
    .text cfg.tunNetmask, .str "), UDP :", .num cfg.listenPort.toNat] ++
  if cfg.peers.length > 0 then
    [.str ", ", .num cfg.peers.length, .str " peer(s) configured"]
  else
    [.str ", no peers configured (capture-only)"]

variable (strerror : Errno → Bytes)

/-- `config_load`, with the file read and a failure printed. -/
def configLoad (path : Bytes) : Proc (Option Config) := do
  let contents ← sys (.readFile path)
  let error ← errno
  let file : Except Bytes Bytes := match contents with
    | none => .error (strerror error)
    | some contents => .ok contents
  match EdgarVPN.configLoad S host file with
  | .error error =>
    sys (.printError (error.message path))
    return none
  | .ok cfg => return some cfg

/-- The part of `main` with the device and the socket open, for so many passes: the exit status, or
`none` if the passes did not end it. -/
def serve (passes : Nat) (cfg : Config) (tun : TunDevice) (udp : Int) : Proc (Option Nat) := do
  match ← startPeers S cfg udp cfg.peers with
  | none =>
    let _ ← udpClose udp
    let _ ← tunClose tun
    return some 1
  | some peers =>
    logInfo cfg.name (upLine cfg tun)
    let lastStatsMs ← monotonicMs
    let (_, ended) ← mainLoop S host ⟨cfg, tun, udp⟩ passes ⟨peers, lastStatsMs⟩
    if ended then
      logInfo cfg.name [.str "shutting down"]
      let _ ← udpClose udp
      let _ ← tunClose tun
      return some 0
    else
      return none

/-- The part of `main` with a configuration. -/
def withConfig (passes : Nat) (cfg : Config) : Proc (Option Nat) := do
  let (tun, opened) ← tunOpen cfg.tunName
  if ¬ opened then
    let error ← errno
    logError cfg.name
      [.str "failed to open TUN device '", .text cfg.tunName, .str "': ", .strerror error]
    return some 1
  else if ¬ (← tunConfigure tun cfg.tunAddress cfg.tunNetmask) then
    let error ← errno
    logError cfg.name
      [.str "failed to configure TUN device '", .text tun.name, .str "': ", .strerror error]
    let _ ← tunClose tun
    return some 1
  else
    let (udp, bound) ← udpBind cfg.listenPort
    if ¬ bound then
      let error ← errno
      logError cfg.name
        [.str "failed to bind UDP port ", .num cfg.listenPort.toNat, .str ": ", .strerror error]
      let _ ← tunClose tun
      return some 1
    else
      serve S host passes cfg tun udp

/-- The file `main` reads, by the value of `CONFIG_FILE`. -/
def configPath : Option Bytes → Bytes
  | none => defaultConfigPath
  | some [] => defaultConfigPath
  | some path => path

/-- `main`, with the value of `CONFIG_FILE`. -/
def main (configFile : Option Bytes) (passes : Nat) : Proc (Option Nat) := do
  let _ ← sys (.sigaction .sigint)
  let _ ← sys (.sigaction .sigterm)
  let initialized ← sys .sodiumInit
  if initialized < 0 then
    logError (ascii "edgarvpn") [.str "failed to initialize crypto library"]
    return some 1
  else
    match ← configLoad S host strerror (configPath configFile) with
    | none => return some 1
    | some cfg => withConfig S host passes cfg

/-- A run of `main` on a system, from a value of `errno`: the calls it made, and its exit status
with the last value of `errno`. -/
def run (configFile : Option Bytes) (passes : Nat) (errno : Errno) (os : Os) :
    List (Entry Sys Sys.Answer) × Option Nat × Errno :=
  Prog.exec os [] (main S host strerror configFile passes errno)

end Process

end EdgarVPN
