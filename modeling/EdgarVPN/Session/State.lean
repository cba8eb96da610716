import EdgarVPN.Crypto.Packet

/-!
# `include/session.h`: the session and its two resets

`Session` is `session_t`, field for field. `sessionInit` and `sessionStartHandshake` are the only
functions that reset it; the pair they generate, and the second `time(NULL)` reads, are arguments.
-/

set_option autoImplicit false

namespace EdgarVPN

/-- `session_state_t`. -/
inductive SessionState where
  | handshakePending
  | established
deriving DecidableEq, Repr

/-! ## Message types and sizes -/

def sessionMsgHandshakeInit : UInt8 := 1
def sessionMsgHandshakeResponse : UInt8 := 2
def sessionMsgData : UInt8 := 3

def sessionHandshakeMsgLen : Nat := 1 + cryptoPacketOverhead + cryptoPublicKeyBytes
def sessionDataOverhead : Nat := 1 + cryptoPacketOverhead
def sessionReplayWindowBits : Nat := 1024

/-- `MAX_PACKET_SIZE` and `SEALED_BUF_SIZE` of `src/main.c`. -/
def maxPacketSize : Nat := 2048
def sealedBufSize : Nat := sessionDataOverhead + maxPacketSize

def sessionReplayWindowBytes : Nat := sessionReplayWindowBits / 8

/-- `replay_window`: the bitmap of the data channel. -/
abbrev ReplayWindow := Vector UInt8 sessionReplayWindowBytes

/-- `session_t`. -/
structure Session where
  role : CryptoRole
  state : SessionState
  /-- Protects handshake messages only. -/
  staticKeys : SessionKeys
  localEphPk : PublicKey
  localEphSk : SecretKey
  /-- Counter of our next INIT. -/
  handshakeCounter : UInt64
  /-- Counter of our outstanding INIT. -/
  pendingHandshakeCounter : UInt64
  /-- Responder: seen at least one INIT. -/
  haveSeenHandshake : Bool
  /-- Responder: highest INIT counter accepted. -/
  highestHandshakeCounterSeen : UInt64
  /-- Forward-secret; valid once established. -/
  dataKeys : SessionKeys
  txCounter : UInt64
  highestRxCounter : UInt64
  haveReceivedAny : Bool
  replayWindow : ReplayWindow
deriving DecidableEq

/-- The all-zero window. -/
def ReplayWindow.zero : ReplayWindow := Vector.replicate sessionReplayWindowBytes 0

/-- `memset(s, 0, sizeof(*s))`. -/
def Session.zero : Session where
  role := .initiator
  state := .handshakePending
  staticKeys := ⟨Block.zero _, Block.zero _⟩
  localEphPk := Block.zero _
  localEphSk := Block.zero _
  handshakeCounter := 0
  pendingHandshakeCounter := 0
  haveSeenHandshake := false
  highestHandshakeCounterSeen := 0
  dataKeys := ⟨Block.zero _, Block.zero _⟩
  txCounter := 0
  highestRxCounter := 0
  haveReceivedAny := false
  replayWindow := ReplayWindow.zero

/-- `session_start_handshake`, with the pair `crypto_generate_keypair` draws. -/
def sessionStartHandshake (kp : KeyPair) (s : Session) : Session :=
  { s with
    localEphPk := kp.pk
    localEphSk := kp.sk
    state := .handshakePending
    txCounter := 0
    haveReceivedAny := false
    replayWindow := ReplayWindow.zero }

/-- `session_init`, with the second `time(NULL)` reads and the pair drawn. -/
def sessionInit (S : Sodium) (role : CryptoRole) (localPk : PublicKey) (localSk : SecretKey)
    (peerPk : PublicKey) (time : UInt64) (kp : KeyPair) : Option Session :=
  let s := { Session.zero with role := role }
  match cryptoDeriveSessionKeys S role localPk localSk peerPk with
  | none => none
  | some staticKeys =>
    some (sessionStartHandshake kp { s with staticKeys := staticKeys, handshakeCounter := time })

/-- The local ephemeral pair of a session. -/
def Session.ephemeral (s : Session) : KeyPair := ⟨s.localEphPk, s.localEphSk⟩

/-- The data channel is as `session_start_handshake` leaves it. -/
def Session.DataReset (s : Session) : Prop :=
  s.txCounter = 0 ∧ s.haveReceivedAny = false ∧ s.replayWindow = ReplayWindow.zero

instance (s : Session) : Decidable s.DataReset := inferInstanceAs (Decidable (_ ∧ _ ∧ _))

section Start

variable (kp : KeyPair) (s : Session)

@[simp] theorem start_role : (sessionStartHandshake kp s).role = s.role := rfl
@[simp] theorem start_staticKeys : (sessionStartHandshake kp s).staticKeys = s.staticKeys := rfl
@[simp] theorem start_localEphPk : (sessionStartHandshake kp s).localEphPk = kp.pk := rfl
@[simp] theorem start_ephemeral : (sessionStartHandshake kp s).ephemeral = kp := rfl
@[simp] theorem start_handshakeCounter :
    (sessionStartHandshake kp s).handshakeCounter = s.handshakeCounter := rfl
@[simp] theorem start_haveSeenHandshake :
    (sessionStartHandshake kp s).haveSeenHandshake = s.haveSeenHandshake := rfl
theorem start_dataReset : (sessionStartHandshake kp s).DataReset := ⟨rfl, rfl, rfl⟩

end Start

/-- What a successful `session_init` leaves: a pending session with the derived static keys, the
clock's counter, the drawn pair, and nothing accepted yet. -/
theorem sessionInit_eq_some {S : Sodium} {role : CryptoRole} {localPk peerPk : PublicKey}
    {localSk : SecretKey} {time : UInt64} {kp : KeyPair} {s : Session}
    (h : sessionInit S role localPk localSk peerPk time kp = some s) :
    ∃ staticKeys, cryptoDeriveSessionKeys S role localPk localSk peerPk = some staticKeys ∧
      s = sessionStartHandshake kp { Session.zero with
        role := role, staticKeys := staticKeys, handshakeCounter := time } := by
  simp only [sessionInit] at h
  split at h
  · cases h
  · next staticKeys hkeys => cases h; exact ⟨staticKeys, hkeys, rfl⟩

end EdgarVPN
