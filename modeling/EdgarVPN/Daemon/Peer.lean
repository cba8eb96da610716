import EdgarVPN.Daemon.Routing
import EdgarVPN.Session.Handshake
import EdgarVPN.Session.Data

/-!
# `src/main.c`: one peer of the daemon

`PeerSession` is `peer_session_t`. The functions here are the parts of the event loop that concern
one peer: `initiateHandshake`, the TUN branch after routing, the UDP branch after attribution, and
the timer pass. What the environment decides is an argument: clock readings, drawn pairs, and
whether `udp_send`, `udp_resolve` and `tun_write` succeed. Log lines are left out; the counters they
print are kept.

A function returns the peer and what it did to the outside, in order (`Effect`): datagrams handed to
`udp_send`, packets handed to `tun_write`, and, for statements about runs, messages accepted, data
keys derived and data packets sealed.
-/

set_option autoImplicit false

namespace EdgarVPN

def keepaliveIntervalMs : UInt64 := 5000
def sessionTimeoutMs : UInt64 := 15000
def keyRotationIntervalMs : UInt64 := 45000
def statsIntervalMs : UInt64 := 30000

/-- `struct sockaddr_in`. -/
structure SockAddr where
  addr : InAddr
  port : UInt16
deriving DecidableEq, Repr

/-- The address `memset` leaves. -/
def SockAddr.zero : SockAddr := ⟨InAddr.zero, 0⟩

/-- `peer_session_t`. -/
structure PeerSession where
  config : ConfigPeer
  addrResolved : Bool
  addr : SockAddr
  session : Session
  lastRxActivityMs : UInt64
  lastTxActivityMs : UInt64
  lastHandshakeCompletedMs : UInt64
  statPacketsTx : UInt64
  statBytesTx : UInt64
  statPacketsRx : UInt64
  statBytesRx : UInt64
  statHandshakes : UInt64
  statAuthFailures : UInt64
  statDrops : UInt64
deriving DecidableEq

/-- What the daemon did. A peer is named by its index. -/
inductive Effect where
  /-- `udp_send`, and whether it succeeded. -/
  | sent (message : Bytes) (dest : SockAddr) (ok : Bool)
  /-- `tun_write`, and whether it succeeded. -/
  | wrote (packet : Bytes) (ok : Bool)
  /-- A session function accepted a datagram. -/
  | accepted (peer : Nat) (datagram : Bytes) (clock : UInt64)
  /-- A session came to hold these data keys. -/
  | derived (peer : Nat) (keys : SessionKeys) (clock : UInt64)
  /-- `session_seal_data` succeeded with these data keys. -/
  | sealed (peer : Nat) (keys : SessionKeys)
  /-- A timer pass ended. -/
  | passed (now : UInt64)
deriving DecidableEq

/-- The peer whose session an effect is about. -/
def Effect.peer? : Effect → Option Nat
  | .accepted peer _ _ => some peer
  | .derived peer _ _ => some peer
  | .sealed peer _ => some peer
  | _ => none

/-- The datagram that was accepted. -/
def Effect.accepted? : Effect → Option Bytes
  | .accepted _ datagram _ => some datagram
  | _ => none

variable (S : Sodium)

/-! ## Starting an attempt -/

/-- What the environment decides of an attempt: the address the endpoint resolves to, if it does,
the pair drawn, and whether the init is sent. -/
structure Attempt where
  resolved : Option InAddr
  kp : KeyPair
  sent : Bool

/-- The end of `initiate_handshake`, with the address known. -/
def PeerSession.sendInit (now : UInt64) (env : Attempt) (ps : PeerSession) :
    PeerSession × List Effect :=
  let ps := { ps with
    session := sessionStartHandshake env.kp ps.session
    lastRxActivityMs := now
    lastTxActivityMs := now }
  match sessionBuildInit S ps.session sealedBufSize with
  | (s, none) => ({ ps with session := s }, [])
  | (s, some init) => ({ ps with session := s }, [.sent init ps.addr env.sent])

/-- `initiate_handshake`. -/
def initiateHandshake (now : UInt64) (env : Attempt) (ps : PeerSession) :
    PeerSession × List Effect :=
  if ps.addrResolved then
    ps.sendInit S now env
  else
    -- set whatever the outcome, so that a failure is not retried before the timeout
    let ps := { ps with lastRxActivityMs := now }
    match env.resolved with
    | none => (ps, [])
    | some ip =>
      PeerSession.sendInit S now env
        { ps with addr := ⟨ip, ps.config.port⟩, addrResolved := true }

/-! ## The TUN branch -/

/-- A packet routed to this peer. -/
def PeerSession.forward (i : Nat) (packet : Bytes) (clock : UInt64) (sendOk : Bool)
    (ps : PeerSession) : PeerSession × List Effect :=
  if ps.session.state ≠ .established then
    ({ ps with statDrops := ps.statDrops + 1 }, [])
  else
    match sessionSealData S ps.session packet sealedBufSize with
    | (s, none) => ({ ps with session := s }, [])
    | (s, some message) =>
      let effects := [.sealed i ps.session.dataKeys, .sent message ps.addr sendOk]
      let ps := { ps with session := s }
      if sendOk then
        ({ ps with
            lastTxActivityMs := clock
            statPacketsTx := ps.statPacketsTx + 1
            statBytesTx := ps.statBytesTx + UInt64.ofNat message.length }, effects)
      else
        (ps, effects)

/-! ## The UDP branch -/

/-- The peer after a handshake completed as responder and its response was sent. -/
def PeerSession.responded (clock : UInt64) (ps : PeerSession) : PeerSession :=
  { ps with
    lastRxActivityMs := clock
    lastTxActivityMs := clock
    lastHandshakeCompletedMs := clock
    statHandshakes := ps.statHandshakes + 1 }

/-- A handshake init from this peer's address. -/
def PeerSession.receiveInit (i : Nat) (datagram : Bytes) (clock : UInt64) (kp : KeyPair)
    (sendOk : Bool) (ps : PeerSession) : PeerSession × List Effect :=
  match sessionHandleInit S kp ps.session datagram sessionHandshakeMsgLen with
  | (s, none) => ({ ps with session := s, statAuthFailures := ps.statAuthFailures + 1 }, [])
  | (s, some response) =>
    let effects := [.accepted i datagram clock, .derived i s.dataKeys clock,
      .sent response ps.addr sendOk]
    let ps := { ps with session := s }
    if sendOk then (ps.responded clock, effects) else (ps, effects)

/-- A handshake response from this peer's address. -/
def PeerSession.receiveResponse (i : Nat) (datagram : Bytes) (clock : UInt64)
    (ps : PeerSession) : PeerSession × List Effect :=
  match sessionHandleResponse S ps.session datagram with
  | (s, false) => ({ ps with session := s, statAuthFailures := ps.statAuthFailures + 1 }, [])
  | (s, true) =>
    ({ ps with
        session := s
        lastRxActivityMs := clock
        lastHandshakeCompletedMs := clock
        statHandshakes := ps.statHandshakes + 1 },
      [.accepted i datagram clock, .derived i s.dataKeys clock])

/-- A data packet from this peer's address. What the plaintext buffer held before does not matter:
only what was written to it is used. -/
def PeerSession.receiveData (i : Nat) (datagram : Bytes) (clock : UInt64) (tunOk : Bool)
    (ps : PeerSession) : PeerSession × List Effect :=
  let opened := sessionOpenData S ps.session datagram (List.replicate maxPacketSize 0)
  let ps := { ps with session := opened.session }
  match opened.plaintext? with
  | none =>
    ({ ps with
        statAuthFailures := ps.statAuthFailures + 1
        statDrops := ps.statDrops + 1 }, [])
  | some [] => ({ ps with lastRxActivityMs := clock }, [.accepted i datagram clock]) -- a keepalive
  | some packet =>
    let effects := [.accepted i datagram clock, .wrote packet tunOk]
    if tunOk then
      ({ ps with
          lastRxActivityMs := clock
          statPacketsRx := ps.statPacketsRx + 1
          statBytesRx := ps.statBytesRx + UInt64.ofNat datagram.length }, effects)
    else
      (ps, effects)

/-- A datagram from this peer's address: the dispatch on its type and the peer's role. -/
def PeerSession.receive (i : Nat) (datagram : Bytes) (clock : UInt64) (kp : KeyPair)
    (sendOk tunOk : Bool) (ps : PeerSession) : PeerSession × List Effect :=
  let type := datagram.getD 0 0
  if type = sessionMsgHandshakeInit ∧ ps.config.role = .responder then
    ps.receiveInit S i datagram clock kp sendOk
  else if type = sessionMsgHandshakeResponse ∧ ps.config.role = .initiator then
    ps.receiveResponse S i datagram clock
  else if type = sessionMsgData then
    ps.receiveData S i datagram clock tunOk
  else
    ({ ps with statDrops := ps.statDrops + 1 }, [])

/-! ## The timer pass -/

/-- What the environment decides of a peer's part of a timer pass. -/
structure Tick extends Attempt where
  keepaliveSent : Bool

/-- The keepalive of a timer pass. -/
def PeerSession.keepalive (i : Nat) (now : UInt64) (sendOk : Bool) (ps : PeerSession) :
    PeerSession × List Effect :=
  if ps.addrResolved ∧ ps.session.state = .established ∧
      now - ps.lastTxActivityMs ≥ keepaliveIntervalMs then
    match sessionSealData S ps.session [] sealedBufSize with
    | (s, none) => ({ ps with session := s, lastTxActivityMs := now }, [])
    | (s, some message) =>
      let effects := [.sealed i ps.session.dataKeys, .sent message ps.addr sendOk]
      let ps := { ps with session := s, lastTxActivityMs := now }
      if sendOk then
        ({ ps with
            statPacketsTx := ps.statPacketsTx + 1
            statBytesTx := ps.statBytesTx + UInt64.ofNat message.length }, effects)
      else
        (ps, effects)
  else
    (ps, [])

/-- The timeout and the key rotation of a timer pass. -/
def PeerSession.reconnect (now : UInt64) (env : Attempt) (ps : PeerSession) :
    PeerSession × List Effect :=
  if ps.config.role = .initiator ∧ now - ps.lastRxActivityMs ≥ sessionTimeoutMs then
    initiateHandshake S now env ps
  else if ps.config.role = .initiator ∧ ps.session.state = .established ∧
      now - ps.lastHandshakeCompletedMs ≥ keyRotationIntervalMs then
    initiateHandshake S now env ps
  else
    (ps, [])

/-- This peer's part of a timer pass. -/
def PeerSession.tick (i : Nat) (now : UInt64) (env : Tick) (ps : PeerSession) :
    PeerSession × List Effect :=
  let (ps, sent) := ps.keepalive S i now env.keepaliveSent
  let (ps, retried) := ps.reconnect S now env.toAttempt
  (ps, sent ++ retried)

end EdgarVPN
