import EdgarVPN.Session.Handshake
import EdgarVPN.Session.Data
import EdgarVPN.Lib.Runs

/-!
# Sequences of calls on a session

The functions of `session.h` as one step function: a `Call` is a function with its arguments, and
`sessionCall` makes it. Beside the session stands a log of the calls it made into `crypto.c` that
keys and nonces depend on (`Act`): pairs generated, data keys derived, packets sealed and opened.
Whether there is an entry is read off the function's result, and so are its packet or plaintext
(`sessionActs`). The keys and the counter of an entry are written down beside it, as the source
passes them; that each entry is a call the function made, with these arguments and that result, is
`sessionActs_made`.

`sessionCall_did` is the inversion lemma: it lists every pair of a next session and new log entries
a call can produce. Invariants of sessions are proved from it alone.
-/

set_option autoImplicit false

namespace EdgarVPN

/-- A call of the session API, after `session_init`. A pair is the one drawn if the call draws
one. -/
inductive Call where
  | startHandshake (kp : KeyPair)
  | buildInit (outLen : Nat)
  | handleInit (kp : KeyPair) (input : Bytes) (outLen : Nat)
  | handleResponse (input : Bytes)
  | sealData (plaintext : Bytes) (outLen : Nat)
  | openData (input out : Bytes)
deriving DecidableEq

/-- What a session did with its keys. -/
inductive Act where
  /-- `crypto_generate_keypair`, in `session_start_handshake`. -/
  | generated (pk : PublicKey)
  /-- `crypto_seal` under a static key, of an ephemeral public key. -/
  | sealedHandshake (key : SessionKey) (counter : UInt64) (pk : PublicKey) (packet : Bytes)
  /-- `crypto_derive_session_keys`, of the data keys a session then uses. -/
  | derived (localPk remotePk : PublicKey) (keys : SessionKeys)
  /-- `crypto_seal` under a data key. -/
  | sealedData (key : SessionKey) (counter : UInt64) (plaintext packet : Bytes)
  /-- `crypto_open` under a data key, of a packet then found fresh. -/
  | openedData (key : SessionKey) (counter : UInt64) (plaintext : Bytes)
deriving DecidableEq

variable (S : Sodium)

/-- Make a call: the session after it. -/
def sessionCall (s : Session) : Call → Session
  | .startHandshake kp => sessionStartHandshake kp s
  | .buildInit outLen => (sessionBuildInit S s outLen).1
  | .handleInit kp input outLen => (sessionHandleInit S kp s input outLen).1
  | .handleResponse input => (sessionHandleResponse S s input).1
  | .sealData plaintext outLen => (sessionSealData S s plaintext outLen).1
  | .openData input out => (sessionOpenData S s input out).session

/-- The entries a call adds to the log. -/
def sessionActs (s : Session) : Call → List Act
  | .startHandshake kp => [.generated kp.pk]
  | .buildInit outLen =>
    match (sessionBuildInit S s outLen).2 with
    | some (_ :: packet) =>
      [.sealedHandshake s.staticKeys.tx s.handshakeCounter s.localEphPk packet]
    | _ => []
  | .handleInit kp input outLen =>
    match sessionReadInit S s input outLen with
    | none => []
    | some (peer, counter) =>
      (if s.state = .established then [.generated kp.pk] else []) ++
        match sessionHandleInit S kp s input outLen with
        | (s', some (_ :: packet)) =>
          [.derived s'.localEphPk peer s'.dataKeys,
            .sealedHandshake s'.staticKeys.tx counter s'.localEphPk packet]
        | _ => []
  | .handleResponse input =>
    match sessionReadResponse S s input, sessionHandleResponse S s input with
    | some peer, (s', true) => [.derived s'.localEphPk peer s'.dataKeys]
    | _, _ => []
  | .sealData plaintext outLen =>
    match sessionSealPacket S s plaintext outLen with
    | some packet => [.sealedData s.dataKeys.tx s.txCounter plaintext packet]
    | none => []
  | .openData input out =>
    match (sessionOpenData S s input out).plaintext? with
    | some plaintext => [.openedData s.dataKeys.rx (readCounter input.tail) plaintext]
    | none => []

/-- A session with its log. -/
structure Traced where
  session : Session
  log : List Act
deriving DecidableEq

/-- Make a call and log it. -/
def Traced.call (t : Traced) (c : Call) : Traced :=
  ⟨sessionCall S t.session c, t.log ++ sessionActs S t.session c⟩

/-! ## Inversion -/

/-- The pair a session draws while it answers an init. -/
def Session.redrawn (s : Session) (kp : KeyPair) : List Act :=
  if s.state = .established then [.generated kp.pk] else []

/-- Everything a call can do: the session and the log entries it leaves. -/
inductive Did (S : Sodium) (s : Session) : Call → Session → List Act → Prop
  | nothing {c : Call} : Did S s c s []
  | started (kp : KeyPair) :
      Did S s (.startHandshake kp) (sessionStartHandshake kp s) [.generated kp.pk]
  | built {outLen : Nat} {packet : Bytes} (role : s.role = .initiator)
      (pending : s.state = .handshakePending)
      (sealed : cryptoSeal S s.staticKeys.tx s.handshakeCounter s.localEphPk.bytes (outLen - 1) =
        some packet) :
      Did S s (.buildInit outLen) s.built
        [.sealedHandshake s.staticKeys.tx s.handshakeCounter s.localEphPk packet]
  | underived {kp : KeyPair} {input : Bytes} {outLen : Nat} {peer : PublicKey} {counter : UInt64}
      (read : sessionReadInit S s input outLen = some (peer, counter))
      (derived : cryptoDeriveSessionKeys S (s.reattempt kp).role (s.reattempt kp).localEphPk
        (s.reattempt kp).localEphSk peer = none) :
      Did S s (.handleInit kp input outLen) (s.reattempt kp) (s.redrawn kp)
  | unsealed {kp : KeyPair} {input : Bytes} {outLen : Nat} {peer : PublicKey} {counter : UInt64}
      {keys : SessionKeys} (read : sessionReadInit S s input outLen = some (peer, counter))
      (sealed : cryptoSeal S (s.reattempt kp).staticKeys.tx counter
        (s.reattempt kp).localEphPk.bytes (outLen - 1) = none) :
      Did S s (.handleInit kp input outLen)
        { s.reattempt kp with dataKeys := keys, localEphSk := Block.zero _ } (s.redrawn kp)
  | answered {kp : KeyPair} {input : Bytes} {outLen : Nat} {peer : PublicKey} {counter : UInt64}
      {keys : SessionKeys} {packet : Bytes}
      (read : sessionReadInit S s input outLen = some (peer, counter))
      (derived : cryptoDeriveSessionKeys S (s.reattempt kp).role (s.reattempt kp).localEphPk
        (s.reattempt kp).localEphSk peer = some keys)
      (sealed : cryptoSeal S (s.reattempt kp).staticKeys.tx counter
        (s.reattempt kp).localEphPk.bytes (outLen - 1) = some packet) :
      Did S s (.handleInit kp input outLen) ((s.reattempt kp).answered keys counter)
        (s.redrawn kp ++ [.derived (s.reattempt kp).localEphPk peer keys,
          .sealedHandshake s.staticKeys.tx counter (s.reattempt kp).localEphPk packet])
  | completed {input : Bytes} {peer : PublicKey} {keys : SessionKeys}
      (read : sessionReadResponse S s input = some peer)
      (derived : cryptoDeriveSessionKeys S s.role s.localEphPk s.localEphSk peer = some keys) :
      Did S s (.handleResponse input) (s.completed keys)
        [.derived s.localEphPk peer keys]
  | sealed {plaintext packet : Bytes} {outLen : Nat} (established : s.state = .established)
      (sealed : cryptoSeal S s.dataKeys.tx s.txCounter plaintext (outLen - 1) = some packet) :
      Did S s (.sealData plaintext outLen) { s with txCounter := s.txCounter + 1 }
        [.sealedData s.dataKeys.tx s.txCounter plaintext packet]
  | opened {payload plaintext out : Bytes} {counter : UInt64}
      (established : s.state = .established)
      (opened : authenticates S s.dataKeys.rx payload = some (plaintext, counter))
      (fresh : (replayCheckAndMark s counter).2 = true) :
      Did S s (.openData (sessionMsgData :: payload) out) (replayCheckAndMark s counter).1
        [.openedData s.dataKeys.rx counter plaintext]

variable {S}

theorem handleInit_did (s : Session) (kp : KeyPair) (input : Bytes) (outLen : Nat) :
    Did S s (.handleInit kp input outLen) (sessionCall S s (.handleInit kp input outLen))
      (sessionActs S s (.handleInit kp input outLen)) := by
  have outcome := sessionHandleInit_outcome (S := S) kp s input outLen
  simp only [sessionCall, sessionActs]
  generalize sessionHandleInit S kp s input outLen = result at outcome
  cases outcome with
  | refused read => rw [read]; exact .nothing
  | underived read derived =>
    rw [read]
    simp only [List.append_nil]
    exact .underived read derived
  | unsealed read _ sealed =>
    rw [read]
    simp only [List.append_nil]
    exact .unsealed read sealed
  | accepted read derived sealed =>
    rw [read]
    simp only [answered_localEphPk, answered_dataKeys, answered_staticKeys, reattempt_staticKeys]
    exact .answered read derived sealed

theorem openData_did (s : Session) (input out : Bytes) :
    Did S s (.openData input out) (sessionCall S s (.openData input out))
      (sessionActs S s (.openData input out)) := by
  have outcome := sessionOpenData_outcome (S := S) s input out
  simp only [sessionCall, sessionActs]
  generalize sessionOpenData S s input out = result at outcome
  cases outcome with
  | refused => exact .nothing
  | @opened payload plaintext counter established data opened fresh =>
    subst data
    have hauth := cryptoOpen_payload opened
    simp only [List.tail_cons, authenticates_counter hauth, Opened.plaintext?, Option.map_some,
      List.take_left]
    exact .opened established hauth fresh

theorem sealData_did (s : Session) (plaintext : Bytes) (outLen : Nat) :
    Did S s (.sealData plaintext outLen) (sessionCall S s (.sealData plaintext outLen))
      (sessionActs S s (.sealData plaintext outLen)) := by
  simp only [sessionCall, sessionActs, sessionSealData]
  cases hpacket : sessionSealPacket S s plaintext outLen with
  | none => exact .nothing
  | some packet =>
    obtain ⟨established, sealed⟩ := sessionSealPacket_eq_some hpacket
    exact .sealed established sealed

/-- **Everything a call can do**, on any session and with any arguments: the state it leaves, with
the checks that let it get there, and what it logs. -/
theorem sessionCall_did (s : Session) (c : Call) :
    Did S s c (sessionCall S s c) (sessionActs S s c) := by
  cases c with
  | startHandshake kp => exact .started kp
  | buildInit outLen =>
    have outcome := sessionBuildInit_outcome (S := S) s outLen
    simp only [sessionCall, sessionActs]
    generalize sessionBuildInit S s outLen = result at outcome
    cases outcome with
    | refused => exact .nothing
    | built role pending sealed => exact .built role pending sealed
  | handleInit kp input outLen => exact handleInit_did s kp input outLen
  | handleResponse input =>
    have outcome := sessionHandleResponse_outcome (S := S) s input
    simp only [sessionCall, sessionActs]
    generalize sessionHandleResponse S s input = result at outcome
    cases outcome with
    | refused => cases sessionReadResponse S s input <;> exact .nothing
    | accepted read derived => rw [read]; exact .completed read derived
  | sealData plaintext outLen => exact sealData_did s plaintext outLen
  | openData input out => exact openData_did s input out

/-- Static keys and role are fixed once and for all by `session_init`. -/
theorem Did.frame {s s' : Session} {c : Call} {acts : List Act} (h : Did S s c s' acts) :
    s'.role = s.role ∧ s'.staticKeys = s.staticKeys := by
  cases h with
  | nothing => exact ⟨rfl, rfl⟩
  | started => exact ⟨rfl, rfl⟩
  | built => exact ⟨rfl, rfl⟩
  | underived => exact ⟨reattempt_role .., reattempt_staticKeys ..⟩
  | unsealed => exact ⟨reattempt_role .., reattempt_staticKeys ..⟩
  | answered => exact ⟨reattempt_role .., reattempt_staticKeys ..⟩
  | completed => exact ⟨rfl, rfl⟩
  | sealed => exact ⟨rfl, rfl⟩
  | @opened payload plaintext out counter =>
    obtain ⟨w, hw⟩ := replayCheckAndMark_frame s counter
    rw [hw]
    exact ⟨rfl, rfl⟩

/-! ## The log's entries are calls that were made -/

/-- The call into `crypto.c` that an entry stands for was made by `c`, which led from the session
`s` to `s'`. -/
def Act.Made (S : Sodium) (s : Session) (c : Call) (s' : Session) : Act → Prop
  | .generated pk => s'.localEphPk = pk
  | .sealedHandshake key counter pk packet =>
    key = s.staticKeys.tx ∧ s'.localEphPk = pk ∧
      ∃ outLen, cryptoSeal S key counter pk.bytes outLen = some packet
  | .derived localPk remotePk keys =>
    s'.localEphPk = localPk ∧ s'.dataKeys = keys ∧
      ∃ sk, cryptoDeriveSessionKeys S s.role localPk sk remotePk = some keys
  | .sealedData key counter plaintext packet =>
    key = s.dataKeys.tx ∧ counter = s.txCounter ∧
      ∃ outLen, cryptoSeal S key counter plaintext outLen = some packet
  | .openedData key counter plaintext =>
    key = s.dataKeys.rx ∧ ∃ input out, c = .openData input out ∧
      authenticates S key input.tail = some (plaintext, counter)

theorem Session.redrawn_made (s : Session) (c : Call) (kp : KeyPair) {s' : Session}
    (same : s'.localEphPk = (s.reattempt kp).localEphPk) :
    ∀ a ∈ s.redrawn kp, a.Made S s c s' := by
  intro a ha
  unfold Session.redrawn at ha
  split at ha
  · next established =>
    cases List.mem_singleton.mp ha
    exact same.trans (by rw [Session.reattempt, if_pos established]; rfl)
  · cases ha

theorem Did.made {s s' : Session} {c : Call} {acts : List Act} (h : Did S s c s' acts) :
    ∀ a ∈ acts, a.Made S s c s' := by
  intro a ha
  cases h with
  | nothing => cases ha
  | started => cases List.mem_singleton.mp ha; exact rfl
  | built _ _ sealed =>
    cases List.mem_singleton.mp ha
    exact ⟨rfl, rfl, _, sealed⟩
  | @underived kp => exact s.redrawn_made _ kp rfl a ha
  | @unsealed kp =>
    refine s.redrawn_made _ kp ?_ a ha
    rfl
  | @answered kp _ _ _ _ _ _ _ derived sealed =>
    rcases List.mem_append.mp ha with ha | ha
    · exact s.redrawn_made _ kp (answered_localEphPk ..) a ha
    · rw [reattempt_staticKeys] at sealed
      rw [reattempt_role] at derived
      simp only [List.mem_cons, List.not_mem_nil, or_false] at ha
      rcases ha with rfl | rfl
      · exact ⟨answered_localEphPk .., answered_dataKeys .., _, derived⟩
      · exact ⟨rfl, answered_localEphPk .., _, sealed⟩
  | completed _ derived =>
    cases List.mem_singleton.mp ha
    exact ⟨rfl, rfl, _, derived⟩
  | sealed _ sealed =>
    cases List.mem_singleton.mp ha
    exact ⟨rfl, rfl, _, sealed⟩
  | opened _ opened =>
    cases List.mem_singleton.mp ha
    exact ⟨rfl, _, _, rfl, opened⟩

/-- What `session_seal_data` returned of a packet it sealed: the message, where its length is in the
range of the result. -/
theorem sealedData_returned {s : Session} {plaintext : Bytes} {outLen : Nat} {key : SessionKey}
    {counter : UInt64} {p packet : Bytes}
    (h : Act.sealedData key counter p packet ∈ sessionActs S s (.sealData plaintext outLen)) :
    (sessionSealData S s plaintext outLen).2 =
      if 1 + packet.length < ssizeRange then some (sessionMsgData :: packet) else none := by
  simp only [sessionActs] at h
  split at h
  · next packet' hpacket =>
    cases List.mem_singleton.mp h
    simp only [sessionSealData, hpacket]
  · cases h

/-- **Every entry of the log is a call that was made**, by the function that logs it: with the key
and the counter that the entry names, and the result it records. -/
theorem sessionActs_made (s : Session) (c : Call) :
    ∀ a ∈ sessionActs S s c, a.Made S s c (sessionCall S s c) :=
  (sessionCall_did s c).made

end EdgarVPN
