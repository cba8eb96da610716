import EdgarVPN.Session.State

/-!
# `src/session.c`: the handshake

The three handshake functions, in the order of their checks. `session_handle_init` and
`session_handle_response` are cut where they stop checking and start changing the session:
`sessionReadInit` and `sessionReadResponse` are the checks, and what follows them is written out in
the function itself.

Each function has one lemma that says everything it can do (`BuildOutcome`, `InitOutcome`,
`ResponseOutcome`); no later proof opens the definitions. What no handshake function touches is
said once, in the frame lemmas.
-/

set_option autoImplicit false

namespace EdgarVPN

variable (S : Sodium)

/-- `session_build_init`: the message written to `out`. -/
def sessionBuildInit (s : Session) (outLen : Nat) : Session × Option Bytes :=
  if s.role ≠ .initiator ∨ s.state ≠ .handshakePending then
    (s, none)
  else if outLen < sessionHandshakeMsgLen then
    (s, none)
  else
    match cryptoSeal S s.staticKeys.tx s.handshakeCounter s.localEphPk.bytes (outLen - 1) with
    | none => (s, none)
    | some packet =>
      ({ s with
          pendingHandshakeCounter := s.handshakeCounter
          handshakeCounter := s.handshakeCounter + 1 },
        some (sessionMsgHandshakeInit :: packet))

/-- The checks of `session_handle_init`: the peer's ephemeral key and the counter of an init that
is addressed to a responder, authenticates under the static key and is fresh. -/
def sessionReadInit (s : Session) (input : Bytes) (outLen : Nat) : Option (PublicKey × UInt64) :=
  if s.role ≠ .responder then
    none
  else
    match input with
    | [] => none
    | type :: payload =>
      if type ≠ sessionMsgHandshakeInit ∨ outLen < sessionHandshakeMsgLen then
        none
      else
        match cryptoOpen S s.staticKeys.rx payload cryptoPublicKeyBytes with
        | none => none
        | some (opened, counter) =>
          match Block.ofBytes? cryptoPublicKeyBytes opened with
          | none => none
          | some peerEphPk =>
            if s.haveSeenHandshake = true ∧ counter ≤ s.highestHandshakeCounterSeen then
              none -- stale or replayed init
            else
              some (peerEphPk, counter)

/-- The session `session_handle_init` answers from: an established one starts a fresh attempt, so
that its old ephemeral pair is not used again. -/
def Session.reattempt (kp : KeyPair) (s : Session) : Session :=
  if s.state = .established then sessionStartHandshake kp s else s

/-- `session_handle_init`: the response written to `out`. The pair is the one drawn if the session
was established. -/
def sessionHandleInit (kp : KeyPair) (s : Session) (input : Bytes) (outLen : Nat) :
    Session × Option Bytes :=
  match sessionReadInit S s input outLen with
  | none => (s, none)
  | some (peerEphPk, counter) =>
    let s := s.reattempt kp
    match cryptoDeriveSessionKeys S s.role s.localEphPk s.localEphSk peerEphPk with
    | none => (s, none)
    | some dataKeys =>
      let s := { s with dataKeys := dataKeys, localEphSk := Block.zero _ }
      match cryptoSeal S s.staticKeys.tx counter s.localEphPk.bytes (outLen - 1) with
      | none => (s, none)
      | some packet =>
        ({ s with
            haveSeenHandshake := true
            highestHandshakeCounterSeen := counter
            state := .established },
          some (sessionMsgHandshakeResponse :: packet))

/-- The checks of `session_handle_response`: the peer's ephemeral key, of a response that a pending
initiator awaits, authenticates and echoes the counter of the outstanding init. -/
def sessionReadResponse (s : Session) (input : Bytes) : Option PublicKey :=
  if s.role ≠ .initiator ∨ s.state ≠ .handshakePending then
    none
  else
    match input with
    | [] => none
    | type :: payload =>
      if type ≠ sessionMsgHandshakeResponse then
        none
      else
        match cryptoOpen S s.staticKeys.rx payload cryptoPublicKeyBytes with
        | none => none
        | some (opened, counter) =>
          match Block.ofBytes? cryptoPublicKeyBytes opened with
          | none => none
          | some peerEphPk =>
            if counter ≠ s.pendingHandshakeCounter then
              none -- stale response from an earlier attempt
            else
              some peerEphPk

/-- `session_handle_response`: whether it returned 0. -/
def sessionHandleResponse (s : Session) (input : Bytes) : Session × Bool :=
  match sessionReadResponse S s input with
  | none => (s, false)
  | some peerEphPk =>
    match cryptoDeriveSessionKeys S s.role s.localEphPk s.localEphSk peerEphPk with
    | none => (s, false)
    | some dataKeys =>
      ({ s with dataKeys := dataKeys, localEphSk := Block.zero _, state := .established }, true)

/-! ## What each function can do -/

variable {S}

/-- The session after an init was built. -/
def Session.built (s : Session) : Session :=
  { s with
    pendingHandshakeCounter := s.handshakeCounter
    handshakeCounter := s.handshakeCounter + 1 }

/-- Everything `session_build_init` can do. -/
inductive BuildOutcome (S : Sodium) (s : Session) (outLen : Nat) : Session × Option Bytes → Prop
  | refused : BuildOutcome S s outLen (s, none)
  | built {packet : Bytes} (role : s.role = .initiator) (pending : s.state = .handshakePending)
      (sealed : cryptoSeal S s.staticKeys.tx s.handshakeCounter s.localEphPk.bytes (outLen - 1) =
        some packet) :
      BuildOutcome S s outLen (s.built, some (sessionMsgHandshakeInit :: packet))

theorem sessionBuildInit_outcome (s : Session) (outLen : Nat) :
    BuildOutcome S s outLen (sessionBuildInit S s outLen) := by
  unfold sessionBuildInit
  split
  · exact .refused
  · next hrole =>
    rw [not_or, not_not, not_not] at hrole
    split
    · exact .refused
    · split
      · exact .refused
      · next packet hseal => exact .built hrole.1 hrole.2 hseal

theorem sessionBuildInit_eq_some {s s' : Session} {message : Bytes} {outLen : Nat}
    (h : sessionBuildInit S s outLen = (s', some message)) :
    ∃ packet, message = sessionMsgHandshakeInit :: packet := by
  have outcome := sessionBuildInit_outcome (S := S) s outLen
  rw [h] at outcome
  cases outcome with
  | built => exact ⟨_, rfl⟩

theorem sessionBuildInit_state (s : Session) (outLen : Nat) :
    (sessionBuildInit S s outLen).1.state = s.state := by
  have outcome := sessionBuildInit_outcome (S := S) s outLen
  generalize sessionBuildInit S s outLen = result at outcome
  cases outcome with
  | refused => rfl
  | built => rfl

/-- The session after an init was accepted. -/
def Session.answered (s : Session) (keys : SessionKeys) (counter : UInt64) : Session :=
  { s with
    dataKeys := keys
    localEphSk := Block.zero _
    haveSeenHandshake := true
    highestHandshakeCounterSeen := counter
    state := .established }

/-- Everything `session_handle_init` can do. -/
inductive InitOutcome (S : Sodium) (kp : KeyPair) (s : Session) (input : Bytes) (outLen : Nat) :
    Session × Option Bytes → Prop
  | refused (read : sessionReadInit S s input outLen = none) :
      InitOutcome S kp s input outLen (s, none)
  | underived {peer : PublicKey} {counter : UInt64}
      (read : sessionReadInit S s input outLen = some (peer, counter))
      (derived : cryptoDeriveSessionKeys S (s.reattempt kp).role (s.reattempt kp).localEphPk
        (s.reattempt kp).localEphSk peer = none) :
      InitOutcome S kp s input outLen (s.reattempt kp, none)
  | unsealed {peer : PublicKey} {counter : UInt64} {keys : SessionKeys}
      (read : sessionReadInit S s input outLen = some (peer, counter))
      (derived : cryptoDeriveSessionKeys S (s.reattempt kp).role (s.reattempt kp).localEphPk
        (s.reattempt kp).localEphSk peer = some keys)
      (sealed : cryptoSeal S (s.reattempt kp).staticKeys.tx counter
        (s.reattempt kp).localEphPk.bytes (outLen - 1) = none) :
      InitOutcome S kp s input outLen
        ({ s.reattempt kp with dataKeys := keys, localEphSk := Block.zero _ }, none)
  | accepted {peer : PublicKey} {counter : UInt64} {keys : SessionKeys} {packet : Bytes}
      (read : sessionReadInit S s input outLen = some (peer, counter))
      (derived : cryptoDeriveSessionKeys S (s.reattempt kp).role (s.reattempt kp).localEphPk
        (s.reattempt kp).localEphSk peer = some keys)
      (sealed : cryptoSeal S (s.reattempt kp).staticKeys.tx counter
        (s.reattempt kp).localEphPk.bytes (outLen - 1) = some packet) :
      InitOutcome S kp s input outLen
        ((s.reattempt kp).answered keys counter, some (sessionMsgHandshakeResponse :: packet))

theorem sessionHandleInit_outcome (kp : KeyPair) (s : Session) (input : Bytes) (outLen : Nat) :
    InitOutcome S kp s input outLen (sessionHandleInit S kp s input outLen) := by
  unfold sessionHandleInit
  split
  · next hread => exact .refused hread
  · next peer counter hread =>
    dsimp only
    split
    · next hkeys => exact .underived hread hkeys
    · next keys hkeys =>
      split
      · next hseal => exact .unsealed hread hkeys hseal
      · next packet hseal => exact .accepted hread hkeys hseal

/-- The session after a response was accepted. -/
def Session.completed (s : Session) (keys : SessionKeys) : Session :=
  { s with dataKeys := keys, localEphSk := Block.zero _, state := .established }

/-- What a call of `session_handle_init` that returned a response has done. -/
theorem sessionHandleInit_eq_some {kp : KeyPair} {s s' : Session} {input response : Bytes}
    {outLen : Nat} (h : sessionHandleInit S kp s input outLen = (s', some response)) :
    ∃ peer counter keys, sessionReadInit S s input outLen = some (peer, counter) ∧
      s' = (s.reattempt kp).answered keys counter := by
  have outcome := sessionHandleInit_outcome (S := S) kp s input outLen
  rw [h] at outcome
  cases outcome with
  | accepted read => exact ⟨_, _, _, read, rfl⟩

/-- What `session_handle_init` answers is a response. -/
theorem sessionHandleInit_response {kp : KeyPair} {s s' : Session} {input response : Bytes}
    {outLen : Nat} (h : sessionHandleInit S kp s input outLen = (s', some response)) :
    ∃ packet, response = sessionMsgHandshakeResponse :: packet := by
  have outcome := sessionHandleInit_outcome (S := S) kp s input outLen
  rw [h] at outcome
  cases outcome with
  | accepted => exact ⟨_, rfl⟩

/-- What a call of `session_handle_init` that returned -1 has done: nothing, or the reset of an
established session and perhaps new data keys that are not used. -/
theorem sessionHandleInit_eq_none {kp : KeyPair} {s s' : Session} {input : Bytes} {outLen : Nat}
    (h : sessionHandleInit S kp s input outLen = (s', none)) :
    s' = s ∨ ∃ keys sk, s' = { s.reattempt kp with dataKeys := keys, localEphSk := sk } := by
  have outcome := sessionHandleInit_outcome (S := S) kp s input outLen
  rw [h] at outcome
  cases outcome with
  | refused => exact .inl rfl
  | underived => exact .inr ⟨_, _, rfl⟩
  | unsealed => exact .inr ⟨_, _, rfl⟩

/-- Everything `session_handle_response` can do. -/
inductive ResponseOutcome (S : Sodium) (s : Session) (input : Bytes) : Session × Bool → Prop
  | refused : ResponseOutcome S s input (s, false)
  | accepted {peer : PublicKey} {keys : SessionKeys}
      (read : sessionReadResponse S s input = some peer)
      (derived : cryptoDeriveSessionKeys S s.role s.localEphPk s.localEphSk peer = some keys) :
      ResponseOutcome S s input (s.completed keys, true)

theorem sessionHandleResponse_outcome (s : Session) (input : Bytes) :
    ResponseOutcome S s input (sessionHandleResponse S s input) := by
  unfold sessionHandleResponse
  split
  · exact .refused
  · next peer hread =>
    split
    · exact .refused
    · next keys hkeys => exact .accepted hread hkeys

/-- What a call of `session_handle_response` that returned 0 has done. -/
theorem sessionHandleResponse_eq_true {s s' : Session} {input : Bytes}
    (h : sessionHandleResponse S s input = (s', true)) :
    ∃ peer keys, sessionReadResponse S s input = some peer ∧ s' = s.completed keys := by
  have outcome := sessionHandleResponse_outcome (S := S) s input
  rw [h] at outcome
  cases outcome with
  | accepted read => exact ⟨_, _, read, rfl⟩

/-! ## What the checks let through -/

/-- An init that passes the checks: a type byte, then a payload that authenticates under the static
receive key as a public key, with a counter above every one accepted. -/
theorem sessionReadInit_eq_some {s : Session} {input : Bytes} {outLen : Nat} {peer : PublicKey}
    {counter : UInt64} (h : sessionReadInit S s input outLen = some (peer, counter)) :
    s.role = .responder ∧ sessionHandshakeMsgLen ≤ outLen ∧
      ∃ payload, input = sessionMsgHandshakeInit :: payload ∧
        authenticates S s.staticKeys.rx payload = some (peer.bytes, counter) ∧
        (s.haveSeenHandshake = true → s.highestHandshakeCounterSeen < counter) := by
  unfold sessionReadInit at h
  split at h
  · cases h
  · next hrole =>
    rw [not_not] at hrole
    cases input with
    | nil => cases h
    | cons type payload =>
      dsimp only at h
      split at h
      · cases h
      · next htype =>
        rw [not_or, not_not, Nat.not_lt] at htype
        split at h
        · cases h
        · next opened counter' hopen =>
          split at h
          · cases h
          · next peer' hblock =>
            split at h
            · cases h
            · next hfresh =>
              cases h
              refine ⟨hrole, htype.2, payload, by rw [htype.1], ?_, fun hseen => ?_⟩
              · rw [Block.ofBytes?_eq_some hblock]
                exact cryptoOpen_payload hopen
              · rw [not_and] at hfresh
                exact UInt64.not_le.mp (hfresh hseen)

/-- An init whose payload does not open does not pass the checks. -/
theorem sessionReadInit_unopened {s : Session} {input : Bytes}
    (h : cryptoOpen S s.staticKeys.rx input.tail cryptoPublicKeyBytes = none) (outLen : Nat) :
    sessionReadInit S s input outLen = none := by
  cases input with
  | nil =>
    unfold sessionReadInit
    split <;> rfl
  | cons type payload =>
    rw [List.tail_cons] at h
    simp only [sessionReadInit, h]
    split
    · rfl
    · split <;> rfl

theorem sessionReadInit_unauthenticated {s : Session} {type : UInt8} {payload : Bytes}
    (h : authenticates S s.staticKeys.rx payload = none) (outLen : Nat) :
    sessionReadInit S s (type :: payload) outLen = none :=
  sessionReadInit_unopened (cryptoOpen_eq_none h _) outLen

/-- An init that does not pass the checks changes nothing. -/
theorem sessionHandleInit_unread {kp : KeyPair} {s : Session} {input : Bytes} {outLen : Nat}
    (h : sessionReadInit S s input outLen = none) :
    sessionHandleInit S kp s input outLen = (s, none) := by
  simp only [sessionHandleInit, h]

/-- The checks let through an init sealed for this session with a fresh counter. -/
theorem sessionReadInit_sealed (aead : S.Aead) {s : Session} (role : s.role = .responder)
    {counter : UInt64} {peer : PublicKey} {packet : Bytes} {sealLen outLen : Nat}
    (sealed : cryptoSeal S s.staticKeys.rx counter peer.bytes sealLen = some packet)
    (room : sessionHandshakeMsgLen ≤ outLen)
    (fresh : s.haveSeenHandshake = true → s.highestHandshakeCounterSeen < counter) :
    sessionReadInit S s (sessionMsgHandshakeInit :: packet) outLen = some (peer, counter) := by
  have hopen : cryptoOpen S s.staticKeys.rx packet cryptoPublicKeyBytes =
      some (peer.bytes, counter) := cryptoOpen_cryptoSeal aead sealed peer.size.le
  have hstale : ¬ (s.haveSeenHandshake = true ∧ counter ≤ s.highestHandshakeCounterSeen) :=
    fun h => UInt64.not_le.mpr (fresh h.1) h.2
  simp only [sessionReadInit, role, hopen, Block.ofBytes?_bytes, ne_eq, not_true_eq_false,
    false_or, if_neg (Nat.not_lt.mpr room), if_neg hstale, if_false]

/-- A response that passes the checks: awaited, and a payload that authenticates under the static
receive key as a public key with the counter of the outstanding init. -/
theorem sessionReadResponse_eq_some {s : Session} {input : Bytes} {peer : PublicKey}
    (h : sessionReadResponse S s input = some peer) :
    s.role = .initiator ∧ s.state = .handshakePending ∧
      ∃ payload, input = sessionMsgHandshakeResponse :: payload ∧
        authenticates S s.staticKeys.rx payload =
          some (peer.bytes, s.pendingHandshakeCounter) := by
  unfold sessionReadResponse at h
  split at h
  · cases h
  · next hrole =>
    rw [not_or, not_not, not_not] at hrole
    cases input with
    | nil => cases h
    | cons type payload =>
      dsimp only at h
      split at h
      · cases h
      · next htype =>
        rw [not_not] at htype
        split at h
        · cases h
        · next opened counter hopen =>
          split at h
          · cases h
          · next peer' hblock =>
            split at h
            · cases h
            · next hcounter =>
              cases h
              rw [not_not] at hcounter
              refine ⟨hrole.1, hrole.2, payload, by rw [htype], ?_⟩
              rw [Block.ofBytes?_eq_some hblock, ← hcounter]
              exact cryptoOpen_payload hopen

/-- A response whose payload does not open does not pass the checks. -/
theorem sessionReadResponse_unopened {s : Session} {input : Bytes}
    (h : cryptoOpen S s.staticKeys.rx input.tail cryptoPublicKeyBytes = none) :
    sessionReadResponse S s input = none := by
  cases input with
  | nil =>
    unfold sessionReadResponse
    split <;> rfl
  | cons type payload =>
    rw [List.tail_cons] at h
    simp only [sessionReadResponse, h]
    split
    · rfl
    · split <;> rfl

/-- A response that does not pass the checks changes nothing. -/
theorem sessionHandleResponse_unread {s : Session} {input : Bytes}
    (h : sessionReadResponse S s input = none) : sessionHandleResponse S s input = (s, false) := by
  simp only [sessionHandleResponse, h]

/-- The checks let through a response sealed for this session with the outstanding counter. -/
theorem sessionReadResponse_sealed (aead : S.Aead) {s : Session} (role : s.role = .initiator)
    (pending : s.state = .handshakePending) {peer : PublicKey} {packet : Bytes} {sealLen : Nat}
    (sealed : cryptoSeal S s.staticKeys.rx s.pendingHandshakeCounter peer.bytes sealLen =
      some packet) :
    sessionReadResponse S s (sessionMsgHandshakeResponse :: packet) = some peer := by
  have hopen : cryptoOpen S s.staticKeys.rx packet cryptoPublicKeyBytes =
      some (peer.bytes, s.pendingHandshakeCounter) := cryptoOpen_cryptoSeal aead sealed peer.size.le
  simp only [sessionReadResponse, role, pending, hopen, Block.ofBytes?_bytes, ne_eq,
    not_true_eq_false, or_self, if_false]

/-! ## What succeeds -/

/-- A buffer that passes the length check of a handshake function holds the sealed message. -/
theorem handshakeSeal_isSome (aead : S.Aead) (key : SessionKey) (counter : UInt64)
    (pk : PublicKey) {outLen : Nat} (room : sessionHandshakeMsgLen ≤ outLen) :
    ∃ packet, cryptoSeal S key counter pk.bytes (outLen - 1) = some packet := by
  have hsize := pk.size
  simp only [sessionHandshakeMsgLen, cryptoPacketOverhead, cryptoCounterBytes, cryptoTagBytes,
    cryptoPublicKeyBytes] at room hsize
  apply cryptoSeal_isSome aead
  · rw [hsize]
    exact Nat.le_trans (by decide) aead.messageBytesMax_large
  · rw [hsize]
    decide
  · rw [hsize]
    change 56 ≤ outLen - 1
    omega

/-- A pending initiator builds its init. -/
theorem sessionBuildInit_isSome (aead : S.Aead) {s : Session} (role : s.role = .initiator)
    (pending : s.state = .handshakePending) {outLen : Nat}
    (room : sessionHandshakeMsgLen ≤ outLen) :
    ∃ packet, cryptoSeal S s.staticKeys.tx s.handshakeCounter s.localEphPk.bytes (outLen - 1) =
        some packet ∧
      sessionBuildInit S s outLen = (s.built, some (sessionMsgHandshakeInit :: packet)) := by
  obtain ⟨packet, hseal⟩ := handshakeSeal_isSome aead s.staticKeys.tx s.handshakeCounter
    s.localEphPk room
  refine ⟨packet, hseal, ?_⟩
  simp only [sessionBuildInit, role, pending, ne_eq, not_true_eq_false, or_self, if_false,
    if_neg (Nat.not_lt.mpr room), hseal, Session.built]

/-- An init that passes the checks is answered when its key can be derived from. -/
theorem sessionHandleInit_isSome (aead : S.Aead) {kp : KeyPair} {s : Session} {input : Bytes}
    {outLen : Nat} {peer : PublicKey} {counter : UInt64} {keys : SessionKeys}
    (read : sessionReadInit S s input outLen = some (peer, counter))
    (derived : cryptoDeriveSessionKeys S (s.reattempt kp).role (s.reattempt kp).localEphPk
      (s.reattempt kp).localEphSk peer = some keys) :
    ∃ packet, cryptoSeal S s.staticKeys.tx counter (s.reattempt kp).localEphPk.bytes (outLen - 1) =
        some packet ∧
      sessionHandleInit S kp s input outLen = ((s.reattempt kp).answered keys counter,
        some (sessionMsgHandshakeResponse :: packet)) := by
  obtain ⟨packet, hseal⟩ := handshakeSeal_isSome aead s.staticKeys.tx counter
    (s.reattempt kp).localEphPk (sessionReadInit_eq_some read).2.1
  refine ⟨packet, hseal, ?_⟩
  have hstatic : (s.reattempt kp).staticKeys = s.staticKeys := by
    unfold Session.reattempt; split <;> rfl
  simp only [sessionHandleInit, read, derived, hstatic, hseal, Session.answered]

/-- An awaited response completes the handshake when its key can be derived from. -/
theorem sessionHandleResponse_isSome {s : Session} {input : Bytes} {peer : PublicKey}
    {keys : SessionKeys} (read : sessionReadResponse S s input = some peer)
    (derived : cryptoDeriveSessionKeys S s.role s.localEphPk s.localEphSk peer = some keys) :
    sessionHandleResponse S s input = (s.completed keys, true) := by
  simp only [sessionHandleResponse, read, derived, Session.completed]

/-! ## Frames -/

section Reattempt

variable (kp : KeyPair) (s : Session)

@[simp] theorem reattempt_role : (s.reattempt kp).role = s.role := by
  unfold Session.reattempt; split <;> rfl

@[simp] theorem reattempt_staticKeys : (s.reattempt kp).staticKeys = s.staticKeys := by
  unfold Session.reattempt; split <;> rfl

@[simp] theorem reattempt_haveSeenHandshake :
    (s.reattempt kp).haveSeenHandshake = s.haveSeenHandshake := by
  unfold Session.reattempt; split <;> rfl

@[simp] theorem reattempt_highestHandshakeCounterSeen :
    (s.reattempt kp).highestHandshakeCounterSeen = s.highestHandshakeCounterSeen := by
  unfold Session.reattempt; split <;> rfl

/-- After the reset an answer is always given from a pending session. -/
@[simp] theorem reattempt_state : (s.reattempt kp).state = .handshakePending := by
  unfold Session.reattempt
  split
  · rfl
  · next h =>
    cases hs : s.state with
    | handshakePending => rfl
    | established => exact absurd hs h

theorem reattempt_pending (h : s.state = .handshakePending) : s.reattempt kp = s := by
  unfold Session.reattempt
  rw [if_neg (by rw [h]; exact nofun)]

theorem reattempt_established (h : s.state = .established) :
    s.reattempt kp = sessionStartHandshake kp s := if_pos h

/-- An answer is given from a reset data channel. -/
theorem reattempt_dataReset (reset : s.state = .handshakePending → s.DataReset) :
    (s.reattempt kp).DataReset := by
  cases h : s.state with
  | handshakePending =>
    rw [reattempt_pending kp s h]
    exact reset h
  | established =>
    rw [reattempt_established kp s h]
    exact start_dataReset ..

end Reattempt

/-- A session that refused an init and is established was not touched. -/
theorem sessionHandleInit_refused {kp : KeyPair} {s s' : Session} {input : Bytes} {outLen : Nat}
    (h : sessionHandleInit S kp s input outLen = (s', none))
    (established : s'.state = .established) : s' = s := by
  obtain same | ⟨keys, sk, reset⟩ := sessionHandleInit_eq_none h
  · exact same
  · have pending : s'.state = .handshakePending := by rw [reset]; exact reattempt_state kp s
    rw [pending] at established
    cases established

section Answered

variable (s : Session) (keys : SessionKeys) (counter : UInt64)

@[simp] theorem answered_staticKeys : (s.answered keys counter).staticKeys = s.staticKeys := rfl
@[simp] theorem answered_localEphPk : (s.answered keys counter).localEphPk = s.localEphPk := rfl
@[simp] theorem answered_dataKeys : (s.answered keys counter).dataKeys = keys := rfl
end Answered

end EdgarVPN
