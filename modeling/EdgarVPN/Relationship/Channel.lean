import EdgarVPN.Relationship.Lives

/-!
# An established channel takes the next packet

`Relationship.Delivery` says that nothing is opened that should not be. Here the converse: the
window of a receiver holds nothing but counters of packets that it opened under its current key
(`Traced.MarksOpened`), and the sender, who sealed them, is past them all. So the next packet that
is sealed is fresh to the receiver, however many were lost, repeated or reordered before.
-/

set_option autoImplicit false

namespace EdgarVPN

variable {S : Sodium} {ids : Identities} {r : Relationship}

/-- Every counter in the window of an established session is that of a packet it opened. -/
def Traced.MarksOpened (t : Traced) : Prop :=
  t.session.state = .established → ∃ seen, t.session.Seen seen ∧
    ∀ n ∈ seen, ∃ counter plaintext, UInt64.toNat counter = n ∧
      Act.openedData t.session.dataKeys.rx counter plaintext ∈ t.log

theorem Traced.MarksOpened.of_pending {t : Traced} (pending : t.session.state = .handshakePending) :
    t.MarksOpened := by
  intro established
  rw [pending] at established
  cases established

/-- A reset window holds nothing. -/
theorem Traced.MarksOpened.of_reset {t : Traced} (reset : t.session.DataReset) : t.MarksOpened :=
  fun _ => ⟨∅, reset.seen, fun _ hn => absurd hn (Finset.notMem_empty _)⟩

theorem Traced.MarksOpened.call {t : Traced} (h : t.MarksOpened) (epochs : Epochs t) (c : Call) :
    (t.call S c).MarksOpened := by
  obtain ⟨s, log⟩ := t
  have did := sessionCall_did (S := S) s c
  simp only [Traced.call]
  generalize sessionCall S s c = s' at did ⊢
  generalize sessionActs S s c = acts at did ⊢
  cases did with
  | nothing => rwa [List.append_nil]
  | started kp => exact .of_pending rfl
  | built _ pending => exact .of_pending pending
  | underived => exact .of_pending (reattempt_state _ _)
  | unsealed => exact .of_pending (reattempt_state _ _)
  | @answered kp =>
    have reset : (s.reattempt kp).DataReset := by
      cases hstate : s.state with
      | handshakePending =>
        rw [reattempt_pending kp s hstate]
        exact epochs.reset hstate
      | established =>
        rw [reattempt_established kp s hstate]
        exact start_dataReset kp s
    exact .of_reset reset
  | completed read =>
    exact .of_reset (epochs.reset (sessionReadResponse_eq_some read).2.1)
  | sealed established =>
    intro _
    obtain ⟨seen, hseen, marked⟩ := h established
    refine ⟨seen, hseen, fun n hn => ?_⟩
    obtain ⟨counter, plaintext, hcounter, hopened⟩ := marked n hn
    exact ⟨counter, plaintext, hcounter, List.mem_append_left _ hopened⟩
  | @opened payload plaintext out counter established authentic fresh =>
    intro _
    obtain ⟨seen, hseen, marked⟩ := h established
    obtain ⟨w, hw⟩ := replayCheckAndMark_frame s counter
    have keys : (replayCheckAndMark s counter).1.dataKeys = s.dataKeys := by
      rw [hw]
      rfl
    refine ⟨insert counter.toNat seen, replayCheckAndMark_seen hseen fresh, fun n hn => ?_⟩
    rw [keys]
    rcases Finset.mem_insert.mp hn with rfl | hn
    · exact ⟨counter, plaintext, rfl, List.mem_append_right _ (List.mem_singleton_self _)⟩
    · obtain ⟨counter', plaintext', hcounter, hopened⟩ := marked n hn
      exact ⟨counter', plaintext', hcounter, List.mem_append_left _ hopened⟩

theorem Traced.MarksOpened.restart {t : Traced} (h : t.MarksOpened) (role : CryptoRole)
    (own : KeyPair) (peer : PublicKey) (time : UInt64) (kp : KeyPair) :
    (t.restart S role own peer time kp).MarksOpened := by
  rcases Traced.restart_cases (S := S) role own peer time kp t with same | ⟨s', new, hs⟩
  · rwa [same]
  · rw [new]
    exact .of_pending hs.2.1

/-- Both deliveries, and both windows. -/
structure Channel (S : Sodium) (r : Relationship) : Prop extends Sides S r where
  initiatorMarks : r.initiator.MarksOpened
  responderMarks : r.responder.MarksOpened

/-- **Any move keeps the channel.** -/
theorem Channel.move (aead : S.Aead) (h : Channel S r) {m : Move} (genuine : m.DataUnforged S r)
    (apart : (r.step S ids m).KeysApart) : Channel S (r.step S ids m) := by
  refine ⟨h.toSides.move aead genuine apart, ?_, ?_⟩
  · cases m with
    | initiator c => exact h.initiatorMarks.call h.initiatorEpochs c
    | responder c => exact h.initiatorMarks
    | initiate kp =>
      have started : Epochs (r.initiator.call S (.startHandshake kp)) :=
        h.initiatorEpochs.call _ apart.1.1.of_append.freshPairs apart.1.2.of_append
      exact (h.initiatorMarks.call h.initiatorEpochs _).call started _
    | restartInitiator time kp => exact h.initiatorMarks.restart _ _ _ _ _
    | restartResponder time kp => exact h.initiatorMarks
  · cases m with
    | initiator c => exact h.responderMarks
    | responder c => exact h.responderMarks.call h.responderEpochs c
    | initiate kp => exact h.responderMarks
    | restartInitiator time kp => exact h.responderMarks
    | restartResponder time kp => exact h.responderMarks.restart _ _ _ _ _

theorem Channel.started {timeI timeR : UInt64} {kpI kpR : KeyPair}
    (started : r.Started S ids timeI timeR kpI kpR) : Channel S r := by
  refine ⟨Sides.started started, ?_, ?_⟩
  all_goals
    obtain ⟨i, s, hi, hs, rfl⟩ := started
    obtain ⟨_, _, rfl⟩ := sessionInit_eq_some hi
    obtain ⟨_, _, rfl⟩ := sessionInit_eq_some hs
    exact .of_pending rfl

theorem Channel.run (aead : S.Aead) (h : Channel S r) (moves : List Move)
    (unforged : Runs.Admitted (Relationship.step S ids) (fun r m => m.DataUnforged S r) r moves)
    (apart : (moves.foldl (Relationship.step S ids) r).KeysApart) :
    Channel S (moves.foldl (Relationship.step S ids) r) := by
  have every := Runs.admitted_of_end Relationship.KeysApart.back apart
  exact Runs.invariant_foldl (fun _ _ channel g => channel.move aead g.1 g.2) h (unforged.and every)

/-! ## The next packet -/

/-- Where the receiver holds the sender's key, the sender's counter is above its whole window. -/
theorem next_fresh {sender receiver : Traced} (delivered : Delivered receiver sender)
    (epochs : Epochs sender) (apart : KeysApart sender.log) (marks : receiver.MarksOpened)
    (sending : sender.session.state = .established)
    (receiving : receiver.session.state = .established)
    (keys : receiver.session.dataKeys.rx = sender.session.dataKeys.tx) :
    (replayCheckAndMark receiver.session sender.session.txCounter).2 = true := by
  obtain ⟨seen, hseen, marked⟩ := marks receiving
  obtain ⟨_, current⟩ := epochs.inUse sending
  have below : ∀ n ∈ seen, n < sender.session.txCounter.toNat := by
    intro n hn
    obtain ⟨counter, plaintext, rfl, hopened⟩ := marked n hn
    obtain ⟨packet, hsealed, -⟩ := delivered _ _ _ hopened
    rw [keys] at hsealed
    exact (epochs.nonce hsealed).in_epoch current fun d hd d' hd' hne => (apart.pairs hd hd' hne).1
  refine (replayCheckAndMark_accepts hseen _).mpr ⟨fun hmem => ?_, fun m hm => ?_⟩
  · exact Nat.lt_irrefl _ (below _ hmem)
  · exact Nat.lt_of_lt_of_le (below m hm) (Nat.le_add_right _ _)

/-- **The next packet is delivered**: sealed by one side, it is opened by the other, and is what was
sealed. -/
theorem next_delivered (aead : S.Aead) {sender receiver : Traced}
    (delivered : Delivered receiver sender) (epochs : Epochs sender) (apart : KeysApart sender.log)
    (marks : receiver.MarksOpened) (sending : sender.session.state = .established)
    (receiving : receiver.session.state = .established)
    (keys : receiver.session.dataKeys.rx = sender.session.dataKeys.tx) {plaintext : Bytes}
    (size : plaintext.length ≤ maxPacketSize) :
    ∃ sealed packet, sessionSealData S sender.session plaintext sealedBufSize =
        (sealed, some (sessionMsgData :: packet)) ∧
      packet.length = plaintext.length + cryptoPacketOverhead ∧
      (sessionOpenData S receiver.session (sessionMsgData :: packet)
        (List.replicate maxPacketSize 0)).plaintext? = some plaintext := by
  obtain ⟨packet, hpacket, hsealed⟩ := sessionSealData_packet aead sending size
  have hseal := (sessionSealPacket_eq_some hpacket).2
  have fresh := next_fresh delivered epochs apart marks sending receiving keys
  have fits : plaintext.length ≤ (List.replicate maxPacketSize (0 : UInt8)).length := by
    rwa [List.length_replicate]
  refine ⟨_, packet, hsealed, cryptoSeal_length aead hseal, ?_⟩
  rw [sessionOpenData_sealed aead receiving (keys ▸ hseal) fits fresh]
  simp only [Opened.plaintext?, Option.map_some, List.take_left]

end EdgarVPN
