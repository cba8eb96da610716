import EdgarVPN.Session.Calls
import EdgarVPN.Crypto.Reference

/-!
# What a refused message leaves behind

`session_handle_init` has five exits that return -1. Four of them are before the first change to the
session. The fifth is not: an established session has already been restarted
(`session_start_handshake`) when the key derivation fails, and a sender that holds the static key
can make it fail, with an ephemeral public key that X25519 rejects.

`session_open_data` never changes the session where it returns -1, but it lets `crypto_open` decrypt
into the caller's buffer before it asks the replay window.

**What is proved.** `refused_init_unchanged`: a refused init leaves the session as it was exactly
when the session was pending or the init failed one of the checks. `degenerate_init_restarts` is the
other case: an established session that is sending data is left pending, with its data channel
reset. `refused_data_unchanged`: a refused data packet leaves the session, and it leaves the buffer
exactly when the packet did not decrypt or the buffer began with its plaintext.
`replay_overwrites_buffer` is the other case.
-/

set_option autoImplicit false

namespace EdgarVPN

variable {S : Sodium}

/-! ## Handshake inits -/

/-- **When a refused init changes nothing.** Let `session_handle_init` return -1, on any session,
for any datagram and any output buffer. Then the session is what it was exactly when it was pending
or the datagram failed a check made before the restart. -/
theorem refused_init_unchanged (aead : S.Aead) (kp : KeyPair) (s : Session) (input : Bytes)
    (outLen : Nat) (refused : (sessionHandleInit S kp s input outLen).2 = none) :
    (sessionHandleInit S kp s input outLen).1 = s ↔
      s.state = .handshakePending ∨ sessionReadInit S s input outLen = none := by
  have outcome := sessionHandleInit_outcome (S := S) kp s input outLen
  generalize sessionHandleInit S kp s input outLen = result at outcome refused
  cases outcome with
  | refused read => exact ⟨fun _ => .inr read, fun _ => rfl⟩
  | underived read derived =>
    constructor
    · -- the session is left pending, so it is the old one only if that was pending too
      intro same
      left
      rw [← same]
      exact reattempt_state kp s
    · rintro (pending | unread)
      · exact reattempt_pending kp s pending
      · rw [read] at unread
        cases unread
  | unsealed read derived sealed =>
    -- the buffer passed the length check, so the response is sealed
    obtain ⟨packet, hseal⟩ := handshakeSeal_isSome aead (s.reattempt kp).staticKeys.tx _
      (s.reattempt kp).localEphPk (sessionReadInit_eq_some read).2.1
    rw [hseal] at sealed
    cases sealed
  | accepted => cases refused

/-- A responder over the reference library. -/
def refusalSession : Session :=
  (sessionInit reference .responder (referencePair 2).pk (referencePair 2).sk (referencePair 1).pk
    100 (referencePair 4)).getD Session.zero

/-- An init sealed under its static key, with any ephemeral public key. -/
def refusalInit (counter : UInt64) (pk : PublicKey) : Bytes :=
  sessionMsgHandshakeInit ::
    (cryptoSeal reference refusalSession.staticKeys.rx counter pk.bytes 56).getD []

/-- A handshake, and a packet sent. -/
def refusalCalls : List Call :=
  [.handleInit (referencePair 9) (refusalInit 100 (referencePair 5).pk) 57, .sealData [1, 2, 3] 40]

/-- While the session is pending, the init with the degenerate key leaves it as it was. -/
theorem refused_init_unchanged_pending :
    (sessionHandleInit reference (referencePair 9) refusalSession
      (refusalInit 100 (Block.zero _)) 57).2 = none ∧
    ((sessionHandleInit reference (referencePair 9) refusalSession
        (refusalInit 100 (Block.zero _)) 57).1 = refusalSession ↔
      refusalSession.state = .handshakePending ∨
        sessionReadInit reference refusalSession (refusalInit 100 (Block.zero _)) 57 = none) :=
  ⟨by decide +kernel, refused_init_unchanged reference_aead _ _ _ _ (by decide +kernel)⟩

/-- **A refused init can end an established session.** The session has answered an init and sent a
packet; an init with a fresh counter and the all-zero key is refused, and leaves it pending with its
counter back at 0. -/
theorem degenerate_init_restarts :
    sessionInit reference .responder (referencePair 2).pk (referencePair 2).sk
      (referencePair 1).pk 100 (referencePair 4) = some refusalSession ∧
    (refusalCalls.foldl (sessionCall reference) refusalSession).state = .established ∧
    (refusalCalls.foldl (sessionCall reference) refusalSession).txCounter = 1 ∧
    (sessionHandleInit reference (referencePair 11)
      (refusalCalls.foldl (sessionCall reference) refusalSession)
      (refusalInit 101 (Block.zero _)) 57).2 = none ∧
    (sessionHandleInit reference (referencePair 11)
      (refusalCalls.foldl (sessionCall reference) refusalSession)
      (refusalInit 101 (Block.zero _)) 57).1.state = .handshakePending ∧
    (sessionHandleInit reference (referencePair 11)
      (refusalCalls.foldl (sessionCall reference) refusalSession)
      (refusalInit 101 (Block.zero _)) 57).1.txCounter = 0 := by
  decide +kernel

/-! ## Data packets -/

/-- The plaintext that `session_open_data` has decrypted into its buffer when it asks the replay
window: `none` in a session that is not established, for another type of message, a short one, a
buffer that is too small or a tag that is wrong. -/
def sessionDecrypts (S : Sodium) (s : Session) (input : Bytes) (outLen : Nat) : Option Bytes :=
  match input with
  | [] => none
  | type :: payload =>
    if s.state = .established ∧ type = sessionMsgData then
      cryptoDecrypts S s.dataKeys.rx payload outLen
    else
      none

/-- The buffer after a call, whatever it returns. -/
theorem sessionOpenData_out (s : Session) (input out : Bytes) :
    (sessionOpenData S s input out).out =
      match sessionDecrypts S s input out.length with
      | none => out
      | some plaintext => plaintext ++ out.drop plaintext.length := by
  unfold sessionOpenData sessionDecrypts
  by_cases established : s.state = .established
  · rw [if_neg (not_not_intro established)]
    cases input with
    | nil => rfl
    | cons type payload =>
      dsimp only
      by_cases data : type = sessionMsgData
      · rw [if_neg (not_not_intro data), if_pos ⟨established, data⟩]
        cases hopen : cryptoOpen S s.dataKeys.rx payload out.length with
        | none => rfl
        | some opened =>
          obtain ⟨plaintext, counter⟩ := opened
          rw [(cryptoOpen_eq_some.mp hopen).1]
          dsimp only
          split
          · rfl
          · rfl
      · rw [if_pos data, if_neg fun h => data h.2]
  · rw [if_pos established]
    cases input with
    | nil => rfl
    | cons type payload =>
      dsimp only
      rw [if_neg fun h => established h.1]

theorem sessionOpenData_refused {s : Session} {input out : Bytes}
    (h : (sessionOpenData S s input out).ret = none) :
    (sessionOpenData S s input out).session = s := by
  apply sessionOpenData_eq_none
  rw [Opened.plaintext?, h]
  rfl

/-- **What a refused data packet changes.** Let `session_open_data` return -1, on any session, for
any datagram and any output buffer. The session is what it was. The buffer is what it was exactly
when the datagram was not decrypted, or to a plaintext that the buffer already began with. -/
theorem refused_data_unchanged (s : Session) (input out : Bytes)
    (refused : (sessionOpenData S s input out).ret = none) :
    (sessionOpenData S s input out).session = s ∧
      ((sessionOpenData S s input out).out = out ↔
        ∀ plaintext, sessionDecrypts S s input out.length = some plaintext →
          plaintext <+: out) := by
  refine ⟨sessionOpenData_refused refused, ?_⟩
  rw [sessionOpenData_out]
  cases sessionDecrypts S s input out.length with
  | none => exact iff_of_true rfl fun plaintext h => by cases h
  | some plaintext =>
    dsimp only
    rw [← List.prefix_iff_eq_append]
    constructor
    · intro begins plaintext' same
      cases same
      exact begins
    · exact fun h => h plaintext rfl

/-- The session of `refusalCalls`, established. -/
def refusalEstablished : Session := refusalCalls.foldl (sessionCall reference) refusalSession

/-- A data packet for it. -/
def refusalData : Bytes :=
  sessionMsgData :: (cryptoSeal reference refusalEstablished.dataKeys.rx 0 [1, 2, 3] 27).getD []

/-- With its last byte changed, the packet is refused and the buffer is left. -/
theorem refused_data_unchanged_forged :
    (sessionOpenData reference refusalEstablished (refusalData.dropLast ++ [0]) [9, 9, 9, 9]).ret =
      none ∧
    (sessionOpenData reference refusalEstablished (refusalData.dropLast ++ [0])
      [9, 9, 9, 9]).session = refusalEstablished ∧
    ((sessionOpenData reference refusalEstablished (refusalData.dropLast ++ [0])
        [9, 9, 9, 9]).out = [9, 9, 9, 9] ↔
      ∀ plaintext, sessionDecrypts reference refusalEstablished (refusalData.dropLast ++ [0])
        [(9 : UInt8), 9, 9, 9].length = some plaintext → plaintext <+: [9, 9, 9, 9]) :=
  ⟨by decide +kernel, refused_data_unchanged _ _ _ (by decide +kernel)⟩

/-- **A replayed packet is refused after it has been written out.** The packet is accepted once. The
same packet is then refused, and its plaintext stands in the caller's buffer. -/
theorem replay_overwrites_buffer :
    (sessionOpenData reference refusalEstablished refusalData [0, 0, 0]).ret = some 3 ∧
    (sessionOpenData reference
      (sessionOpenData reference refusalEstablished refusalData [0, 0, 0]).session refusalData
      [9, 9, 9, 9]).ret = none ∧
    (sessionOpenData reference
      (sessionOpenData reference refusalEstablished refusalData [0, 0, 0]).session refusalData
      [9, 9, 9, 9]).out = [1, 2, 3, 9] := by
  decide +kernel

end EdgarVPN
