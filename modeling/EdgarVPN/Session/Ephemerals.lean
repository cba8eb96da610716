import EdgarVPN.Session.Calls
import EdgarVPN.Crypto.Reference

/-!
# Ephemeral secrets live for one exchange

Forward secrecy rests on what becomes of the secrets `crypto_generate_keypair` draws. This module
numbers the draws of a session: beside the session stand all pairs drawn so far, the one of
`session_init` first, and for each `crypto_derive_session_keys` of data keys that returned 0 the
secret it was given, with the number of the latest draw at that moment (`Keying`).

A call does one of three things to them: it leaves them alone (`Once.quiet`), it draws a new pair
and resets the data channel (`Once.redraw`), or it derives from the current pair and wipes its
secret (`Once.spend`). An init accepted by an established session is the second and then the third.

**What is proved.** `ephemeral_secrets_once`: after any calls, an established session holds no
secret; a pending one holds the secret of the latest draw, with which nothing was derived, and a
reset data channel; and every derivation was made with the secret of the draw it is numbered by, no
two with the same number.

What is recorded is what the session shows (`keysRecorded`): after a call it holds the public key of
the pair recorded last, its data keys are unchanged if no derivation is recorded, and otherwise they
are those that the recorded secret derives.
-/

set_option autoImplicit false

namespace EdgarVPN

variable (S : Sodium)

/-- The pairs a call draws. -/
def pairsDrawn (s : Session) : Call → List KeyPair
  | .startHandshake kp => [kp]
  | .handleInit kp input outLen =>
    match sessionReadInit S s input outLen with
    | none => []
    | some _ => if s.state = .established then [kp] else []
  | _ => []

/-- The secret of the local pair, if data keys were derived from it. -/
def secretUsed (s : Session) (peer : PublicKey) : List SecretKey :=
  match cryptoDeriveSessionKeys S s.role s.localEphPk s.localEphSk peer with
  | none => []
  | some _ => [s.localEphSk]

/-- The secrets a call derives data keys from. -/
def secretsUsed (s : Session) : Call → List SecretKey
  | .handleInit kp input outLen =>
    match sessionReadInit S s input outLen with
    | none => []
    | some (peer, _) => secretUsed S (s.reattempt kp) peer
  | .handleResponse input =>
    match sessionReadResponse S s input with
    | none => []
    | some peer => secretUsed S s peer
  | _ => []

/-- What a call leaves of the pair and of the data keys, in terms of what is recorded for it. -/
structure KeysRecorded (s : Session) (c : Call) : Prop where
  pair : (sessionCall S s c).localEphPk = ((pairsDrawn S s c).getLast?.getD s.ephemeral).pk
  kept : secretsUsed S s c = [] → (sessionCall S s c).dataKeys = s.dataKeys
  derived : ∀ sk ∈ secretsUsed S s c, ∃ peer, cryptoDeriveSessionKeys S s.role
    (sessionCall S s c).localEphPk sk peer = some (sessionCall S s c).dataKeys

/-- A session with the pairs it has drawn, and its derivations: the number of the draw that was the
latest, and the secret used. -/
structure Keying where
  session : Session
  drawn : List KeyPair
  derivations : List (Nat × SecretKey)
deriving DecidableEq

/-- Make a call. A pair it draws is drawn before it derives. -/
def Keying.call (t : Keying) (c : Call) : Keying :=
  let drawn := t.drawn ++ pairsDrawn S t.session c
  { session := sessionCall S t.session c
    drawn := drawn
    derivations := t.derivations ++
      (secretsUsed S t.session c).map fun sk => (drawn.length - 1, sk) }

/-- A session after `session_init`, which draws the first pair. -/
def Keying.init (s : Session) (kp : KeyPair) : Keying := ⟨s, [kp], []⟩

/-- Every secret is used for one exchange. -/
structure Once (t : Keying) : Prop where
  wiped : t.session.state = .established → t.session.localEphSk = Block.zero _
  current : t.session.state = .handshakePending → t.drawn.getLast? = some t.session.ephemeral
  unspent : t.session.state = .handshakePending → ∀ d ∈ t.derivations, d.1 + 1 < t.drawn.length
  reset : t.session.state = .handshakePending → t.session.DataReset
  genuine : ∀ d ∈ t.derivations, ∃ kp, t.drawn[d.1]? = some kp ∧ d.2 = kp.sk
  once : (t.derivations.map Prod.fst).Nodup

variable {S}

/-! ## The record is the session's -/

theorem reattempt_localEphPk (kp : KeyPair) (s : Session) : (s.reattempt kp).localEphPk =
    ((if s.state = .established then [kp] else []).getLast?.getD s.ephemeral).pk := by
  unfold Session.reattempt
  split <;> rfl

theorem reattempt_dataKeys (kp : KeyPair) (s : Session) :
    (s.reattempt kp).dataKeys = s.dataKeys := by
  unfold Session.reattempt
  split <;> rfl

/-- A call that neither draws nor derives. -/
theorem KeysRecorded.quiet {s : Session} {c : Call} (drawn : pairsDrawn S s c = [])
    (used : secretsUsed S s c = []) (pair : (sessionCall S s c).localEphPk = s.localEphPk)
    (keys : (sessionCall S s c).dataKeys = s.dataKeys) : KeysRecorded S s c where
  pair := by rw [drawn]; exact pair
  kept _ := keys
  derived := by rw [used]; exact fun _ => nofun

/-- A call that derives data keys from the pair it leaves. -/
theorem KeysRecorded.spending {s : Session} {c : Call} {sk : SecretKey} (peer : PublicKey)
    (used : secretsUsed S s c = [sk])
    (pair : (sessionCall S s c).localEphPk = ((pairsDrawn S s c).getLast?.getD s.ephemeral).pk)
    (derived : cryptoDeriveSessionKeys S s.role (sessionCall S s c).localEphPk sk peer =
      some (sessionCall S s c).dataKeys) : KeysRecorded S s c where
  pair := pair
  kept none := by rw [used] at none; cases none
  derived sk' hsk := by
    rw [used] at hsk
    cases List.mem_singleton.mp hsk
    exact ⟨peer, derived⟩

theorem keysRecorded_handleInit (s : Session) (kp : KeyPair) (input : Bytes) (outLen : Nat) :
    KeysRecorded S s (.handleInit kp input outLen) := by
  have outcome := sessionHandleInit_outcome (S := S) kp s input outLen
  have hpair := reattempt_localEphPk kp s
  generalize hcall : sessionHandleInit S kp s input outLen = result at outcome
  cases outcome with
  | refused read =>
    apply KeysRecorded.quiet <;> simp only [pairsDrawn, secretsUsed, sessionCall, hcall, read]
  | underived read derived =>
    have used : secretsUsed S s (.handleInit kp input outLen) = [] := by
      simp only [secretsUsed, secretUsed, read, derived]
    refine ⟨?_, fun _ => ?_, fun sk hsk => ?_⟩
    · simp only [pairsDrawn, sessionCall, hcall, read, hpair]
    · simp only [sessionCall, hcall, reattempt_dataKeys]
    · rw [used] at hsk
      cases hsk
  | @unsealed peer _ _ read derived =>
    have used : secretsUsed S s (.handleInit kp input outLen) = [(s.reattempt kp).localEphSk] := by
      simp only [secretsUsed, secretUsed, read, derived]
    rw [reattempt_role] at derived
    refine .spending peer used ?_ ?_
    · simp only [pairsDrawn, sessionCall, hcall, read, hpair]
    · simp only [sessionCall, hcall, derived]
  | @accepted peer _ _ _ read derived =>
    have used : secretsUsed S s (.handleInit kp input outLen) = [(s.reattempt kp).localEphSk] := by
      simp only [secretsUsed, secretUsed, read, derived]
    rw [reattempt_role] at derived
    refine .spending peer used ?_ ?_
    · simp only [pairsDrawn, sessionCall, hcall, read, answered_localEphPk, hpair]
    · simp only [sessionCall, hcall, answered_localEphPk, answered_dataKeys, derived]

theorem keysRecorded_handleResponse (s : Session) (input : Bytes) :
    KeysRecorded S s (.handleResponse input) := by
  cases read : sessionReadResponse S s input with
  | none =>
    apply KeysRecorded.quiet <;>
      simp only [pairsDrawn, secretsUsed, sessionCall, sessionHandleResponse, read]
  | some peer =>
    cases derived : cryptoDeriveSessionKeys S s.role s.localEphPk s.localEphSk peer with
    | none =>
      apply KeysRecorded.quiet <;>
        simp only [pairsDrawn, secretsUsed, secretUsed, sessionCall, sessionHandleResponse, read,
          derived]
    | some keys =>
      have completed : (sessionHandleResponse S s input).1 = s.completed keys := by
        simp only [sessionHandleResponse, read, derived]
        rfl
      have used : secretsUsed S s (.handleResponse input) = [s.localEphSk] := by
        simp only [secretsUsed, secretUsed, read, derived]
      refine .spending peer used ?_ ?_
      · rw [sessionCall, completed]
        rfl
      · rw [sessionCall, completed]
        exact derived

/-- **The draws and derivations recorded are those of the session.** -/
theorem keysRecorded (s : Session) (c : Call) : KeysRecorded S s c := by
  cases c with
  | startHandshake kp => exact ⟨rfl, fun _ => rfl, fun _ => nofun⟩
  | handleInit kp input outLen => exact keysRecorded_handleInit s kp input outLen
  | handleResponse input => exact keysRecorded_handleResponse s input
  | buildInit outLen =>
    have outcome := sessionBuildInit_outcome (S := S) s outLen
    generalize hcall : sessionBuildInit S s outLen = result at outcome
    cases outcome with
    | refused => exact .quiet rfl rfl (by rw [sessionCall, hcall]) (by rw [sessionCall, hcall])
    | built =>
      exact .quiet rfl rfl (by rw [sessionCall, hcall]; rfl) (by rw [sessionCall, hcall]; rfl)
  | sealData plaintext outLen =>
    obtain ⟨tx, hsession⟩ := sessionSealData_session (S := S) s plaintext outLen
    exact .quiet rfl rfl (by rw [sessionCall, hsession]) (by rw [sessionCall, hsession])
  | openData input out =>
    have outcome := sessionOpenData_outcome (S := S) s input out
    generalize hcall : sessionOpenData S s input out = result at outcome
    cases outcome with
    | refused => exact .quiet rfl rfl (by rw [sessionCall, hcall]) (by rw [sessionCall, hcall])
    | @opened payload plaintext counter =>
      obtain ⟨w, hw⟩ := replayCheckAndMark_frame s counter
      have opened : sessionCall S s (.openData input out) = s.withWindow w := by
        rw [sessionCall, hcall, hw]
      exact .quiet rfl rfl (by rw [opened]; rfl) (by rw [opened]; rfl)

/-! ## The three things a call does -/

/-- A call that neither draws nor derives, and leaves the pair where it is. -/
theorem Once.quiet {t : Keying} (h : Once t) {s : Session} (state : s.state = t.session.state)
    (pair : s.ephemeral = t.session.ephemeral)
    (reset : s.state = .handshakePending → s.DataReset) : Once ⟨s, t.drawn, t.derivations⟩ where
  wiped established := by
    rw [← h.wiped (state ▸ established)]
    exact congrArg KeyPair.sk pair
  current pending := by
    show t.drawn.getLast? = some s.ephemeral
    rw [pair]
    exact h.current (state ▸ pending)
  unspent pending := h.unspent (state ▸ pending)
  reset := reset
  genuine := h.genuine
  once := h.once

/-- A fresh pair is drawn, and the data channel is reset. -/
theorem Once.redraw {t : Keying} (h : Once t) (kp : KeyPair) :
    Once ⟨sessionStartHandshake kp t.session, t.drawn ++ [kp], t.derivations⟩ where
  wiped established := by cases established
  current _ := List.getLast?_concat
  unspent _ d hd := by
    obtain ⟨kp', hget, _⟩ := h.genuine d hd
    have hlt := (List.getElem?_eq_some_iff.mp hget).1
    show d.1 + 1 < (t.drawn ++ [kp]).length
    rw [List.length_append, List.length_singleton]
    omega
  reset _ := start_dataReset kp t.session
  genuine d hd := by
    obtain ⟨kp', hget, hsk⟩ := h.genuine d hd
    refine ⟨kp', ?_, hsk⟩
    show (t.drawn ++ [kp])[d.1]? = some kp'
    rw [List.getElem?_append_left (List.getElem?_eq_some_iff.mp hget).1, hget]
  once := h.once

/-- Data keys are derived from the pair of a pending session, and its secret is wiped. -/
theorem Once.spend {t : Keying} (h : Once t) (pending : t.session.state = .handshakePending)
    {s : Session} (established : s.state = .established) (wiped : s.localEphSk = Block.zero _) :
    Once ⟨s, t.drawn, t.derivations ++ [(t.drawn.length - 1, t.session.localEphSk)]⟩ where
  wiped _ := wiped
  current pending' := by rw [established] at pending'; cases pending'
  unspent pending' := by rw [established] at pending'; cases pending'
  reset pending' := by rw [established] at pending'; cases pending'
  genuine d hd := by
    rcases List.mem_append.mp hd with hd | hd
    · exact h.genuine d hd
    · rw [List.mem_singleton] at hd
      subst hd
      have hlast := h.current pending
      rw [List.getLast?_eq_getElem?] at hlast
      exact ⟨t.session.ephemeral, hlast, rfl⟩
  once := by
    show ((t.derivations ++ [(t.drawn.length - 1, t.session.localEphSk)]).map Prod.fst).Nodup
    rw [List.map_append, List.map_singleton, List.nodup_append]
    refine ⟨h.once, List.nodup_singleton _, fun n hn m hm => ?_⟩
    obtain ⟨d, hd, rfl⟩ := List.mem_map.mp hn
    rw [List.mem_singleton] at hm
    have := h.unspent pending d hd
    omega

/-! ## Every call -/

/-- An init that passes the checks is answered from the current pair of a pending session. -/
theorem Once.reattempt {t : Keying} (h : Once t) (kp : KeyPair) :
    Once ⟨t.session.reattempt kp,
      t.drawn ++ (if t.session.state = .established then [kp] else []), t.derivations⟩ := by
  cases hstate : t.session.state with
  | established =>
    rw [reattempt_established kp _ hstate, if_pos rfl]
    exact h.redraw kp
  | handshakePending =>
    rw [reattempt_pending kp _ hstate, if_neg (by decide), List.append_nil]
    exact h

theorem Once.handleInit (aead : S.Aead) {t : Keying} (h : Once t) (kp : KeyPair) (input : Bytes)
    (outLen : Nat) : Once (t.call S (.handleInit kp input outLen)) := by
  have outcome := sessionHandleInit_outcome (S := S) kp t.session input outLen
  simp only [Keying.call, sessionCall, pairsDrawn, secretsUsed, secretUsed]
  generalize sessionHandleInit S kp t.session input outLen = result at outcome
  have hready := h.reattempt kp
  cases outcome with
  | refused read =>
    simp only [read, List.map_nil, List.append_nil]
    exact h
  | underived read derived =>
    simp only [read, derived, List.map_nil, List.append_nil]
    exact hready
  | unsealed read derived sealed =>
    obtain ⟨packet, hseal⟩ := handshakeSeal_isSome aead (t.session.reattempt kp).staticKeys.tx _
      (t.session.reattempt kp).localEphPk (sessionReadInit_eq_some read).2.1
    rw [hseal] at sealed
    cases sealed
  | accepted read derived =>
    simp only [read, derived, List.map_cons, List.map_nil]
    exact hready.spend (reattempt_state kp t.session) rfl rfl

theorem Once.handleResponse {t : Keying} (h : Once t) (input : Bytes) :
    Once (t.call S (.handleResponse input)) := by
  simp only [Keying.call, sessionCall, pairsDrawn, secretsUsed, secretUsed, sessionHandleResponse,
    List.append_nil]
  cases read : sessionReadResponse S t.session input with
  | none =>
    simp only [List.map_nil, List.append_nil]
    exact h
  | some peer =>
    have hpending := (sessionReadResponse_eq_some read).2.1
    cases derived : cryptoDeriveSessionKeys S t.session.role t.session.localEphPk
        t.session.localEphSk peer with
    | none =>
      simp only [derived, List.map_nil, List.append_nil]
      exact h
    | some keys =>
      simp only [derived, List.map_cons, List.map_nil]
      exact h.spend hpending rfl rfl

/-- A call keeps the discipline. -/
theorem Once.call (aead : S.Aead) {t : Keying} (h : Once t) (c : Call) : Once (t.call S c) := by
  cases c with
  | startHandshake kp =>
    simp only [Keying.call, sessionCall, pairsDrawn, secretsUsed, List.map_nil, List.append_nil]
    exact h.redraw kp
  | handleInit kp input outLen => exact h.handleInit aead kp input outLen
  | handleResponse input => exact h.handleResponse input
  | buildInit outLen =>
    have outcome := sessionBuildInit_outcome (S := S) t.session outLen
    simp only [Keying.call, sessionCall, pairsDrawn, secretsUsed, List.map_nil, List.append_nil]
    generalize sessionBuildInit S t.session outLen = result at outcome
    cases outcome with
    | refused => exact h
    | built => exact h.quiet rfl rfl h.reset
  | sealData plaintext outLen =>
    have outcome := sessionSealData_outcome (S := S) t.session plaintext outLen
    simp only [Keying.call, sessionCall, pairsDrawn, secretsUsed, List.map_nil, List.append_nil]
    generalize sessionSealData S t.session plaintext outLen = result at outcome
    have spent (established : t.session.state = .established) :
        Once ⟨{ t.session with txCounter := t.session.txCounter + 1 }, t.drawn, t.derivations⟩ := by
      refine h.quiet rfl rfl fun pending => ?_
      rw [established] at pending
      cases pending
    cases outcome with
    | refused => exact h
    | unreturned established => exact spent established
    | sealed established => exact spent established
  | openData input out =>
    have outcome := sessionOpenData_outcome (S := S) t.session input out
    simp only [Keying.call, sessionCall, pairsDrawn, secretsUsed, List.map_nil, List.append_nil]
    generalize sessionOpenData S t.session input out = result at outcome
    cases outcome with
    | refused => exact h
    | @opened payload plaintext counter established =>
      obtain ⟨w, hw⟩ := replayCheckAndMark_frame t.session counter
      simp only [hw]
      refine h.quiet rfl rfl fun pending => ?_
      rw [show (t.session.withWindow w).state = t.session.state from rfl, established] at pending
      cases pending

theorem Once.init {role : CryptoRole} {localPk peerPk : PublicKey} {localSk : SecretKey}
    {time : UInt64} {kp : KeyPair} {s : Session}
    (h : sessionInit S role localPk localSk peerPk time kp = some s) : Once (Keying.init s kp) := by
  obtain ⟨staticKeys, _, rfl⟩ := sessionInit_eq_some h
  exact {
    wiped := fun established => by cases established
    current := fun _ => rfl
    unspent := fun _ _ hd => absurd hd List.not_mem_nil
    reset := fun _ => start_dataReset kp _
    genuine := fun _ hd => absurd hd List.not_mem_nil
    once := List.nodup_nil }

theorem once_run (aead : S.Aead) (calls : List Call) :
    ∀ {t : Keying}, Once t → Once (calls.foldl (Keying.call S) t) := by
  induction calls with
  | nil => intro t h; exact h
  | cons c calls ih => intro t h; exact ih (h.call aead c)

/-- **Ephemeral secrets live for exactly one exchange.** After `session_init` and any calls, in any
order and with any inputs: an established session has wiped its secret; a pending one holds the pair
of the latest draw, from which nothing was derived, and a reset data channel; every derivation used
the secret of the draw that was the latest, and no draw was used by two. -/
theorem ephemeral_secrets_once (aead : S.Aead) {role : CryptoRole} {localPk peerPk : PublicKey}
    {localSk : SecretKey} {time : UInt64} {kp : KeyPair} {s : Session}
    (init : sessionInit S role localPk localSk peerPk time kp = some s) (calls : List Call) :
    let t := calls.foldl (Keying.call S) (Keying.init s kp)
    (t.session.state = .established → t.session.localEphSk = Block.zero _) ∧
      (t.session.state = .handshakePending →
        t.drawn.getLast? = some t.session.ephemeral ∧
        t.drawn.length - 1 ∉ t.derivations.map Prod.fst ∧
        t.session.txCounter = 0 ∧ t.session.haveReceivedAny = false ∧
        t.session.replayWindow = ReplayWindow.zero) ∧
      (t.derivations.map Prod.fst).Nodup ∧
      ∀ d ∈ t.derivations, ∃ pair, t.drawn[d.1]? = some pair ∧ d.2 = pair.sk := by
  intro t
  have h : Once t := once_run aead calls (Once.init init)
  refine ⟨h.wiped, fun pending => ⟨h.current pending, fun hmem => ?_, h.reset pending⟩, h.once,
    h.genuine⟩
  obtain ⟨d, hd, hnumber⟩ := List.mem_map.mp hmem
  have := h.unspent pending d hd
  omega

/-- A responder over the reference library. -/
def keyingSession : Session :=
  (sessionInit reference .responder (referencePair 2).pk (referencePair 2).sk (referencePair 1).pk
    100 (referencePair 4)).getD Session.zero

/-- Calls that take it through two handshakes. An init with the all-zero key in between is refused,
and leaves the pair of the second draw unspent. -/
def keyingCalls : List Call :=
  let init (counter : UInt64) (pk : PublicKey) : Bytes := sessionMsgHandshakeInit ::
    (cryptoSeal reference keyingSession.staticKeys.rx counter pk.bytes 56).getD []
  [.handleInit (referencePair 9) (init 100 (referencePair 5).pk) 57, .sealData [1, 2] 30,
    .handleInit (referencePair 10) (init 101 (Block.zero _)) 57,
    .handleInit (referencePair 11) (init 102 (referencePair 6).pk) 57]

/-- Two secrets drawn, each used once. -/
theorem ephemeral_secrets_once_keyingCalls :
    (keyingCalls.foldl (Keying.call reference)
      (Keying.init keyingSession (referencePair 4))).derivations =
      [(0, (referencePair 4).sk), (1, (referencePair 10).sk)] ∧
    (keyingCalls.foldl (Keying.call reference)
      (Keying.init keyingSession (referencePair 4))).session.localEphSk = Block.zero _ := by
  have init : sessionInit reference .responder (referencePair 2).pk (referencePair 2).sk
      (referencePair 1).pk 100 (referencePair 4) = some keyingSession := by decide +kernel
  exact ⟨by decide +kernel,
    (ephemeral_secrets_once reference_aead init keyingCalls).1 (by decide +kernel)⟩

end EdgarVPN
