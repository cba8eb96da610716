import EdgarVPN.Session.Data
import EdgarVPN.Crypto.Reference

/-!
# A stream of packets over a network that loses, repeats and reorders

One side seals a list of plaintexts in order (`sealAll`). The network then delivers the messages to
the other side in any order, any of them any number of times (`Delivery`: which message, and the
buffer it is opened into). A delivery is `Timely` when the message was not delivered before and is
less than 1024 behind every message that was.

**What is proved.** `stream_delivered`: every seal succeeds, message `i` is its plaintext's length
and 25 bytes, and whatever was delivered before it, a delivery of message `i` returns the plaintext
when it is timely and -1 when it is not.

The argument has two parts. Message `i` is sealed with counter `i` (`sealAll_sealed`). The
receiver's window holds the numbers it accepted, and what was delivered and refused has fallen
behind one of them (`SlidingWindow.Covers`), so that the window can be read as a fact about
deliveries (`Receiving.step`).

**The length.** `session_seal_data` returns an `ssize_t`. A plaintext whose packet is longer than
that holds is not sealed (`sessionSealData_oversized`), although a buffer for it can be named. One
length is left between: the packet's length is the last of the range, and the message's is one more.
Such a plaintext is sealed and its counter spent, and the caller is told a failure
(`sessionSealData_overflow`).
-/

set_option autoImplicit false

namespace EdgarVPN

/-- Seal plaintexts in order, each into a buffer of its own size: what each call returned. -/
def sealAll (S : Sodium) : Session → List (Bytes × Nat) → List (Option Bytes)
  | _, [] => []
  | s, (plaintext, outLen) :: items =>
    let (s', message) := sessionSealData S s plaintext outLen
    message :: sealAll S s' items

/-- A message that arrives: its number, and the buffer it is opened into. -/
structure Delivery where
  number : Nat
  out : Bytes
deriving DecidableEq

/-- Open a message that arrives. -/
def deliver (S : Sodium) (messages : List Bytes) (s : Session) (d : Delivery) : Opened :=
  sessionOpenData S s (messages.getD d.number []) d.out

/-- The receiver after a sequence of deliveries. -/
def deliverAll (S : Sodium) (messages : List Bytes) (s : Session) (ds : List Delivery) : Session :=
  ds.foldl (fun s d => (deliver S messages s d).session) s

/-- A delivery of a message that exists, into a buffer that holds its plaintext. -/
def Delivery.Fits (items : List (Bytes × Nat)) (d : Delivery) : Prop :=
  ∃ plaintext outLen, items[d.number]? = some (plaintext, outLen) ∧
    plaintext.length ≤ d.out.length

/-- The first delivery of a message, while it is less than the window behind the highest one
delivered. -/
def Timely (earlier : List Delivery) (number : Nat) : Prop :=
  (∀ d ∈ earlier, d.number ≠ number) ∧
    ∀ d ∈ earlier, d.number < number + sessionReplayWindowBits

variable {S : Sodium}

/-! ## Sealing -/

/-- Messages sealed one after another from a counter on. -/
def SealedFrom (S : Sodium) (key : SessionKey) (counter : UInt64) (items : List (Bytes × Nat))
    (messages : List Bytes) : Prop :=
  messages.length = items.length ∧
    ∀ (i : Nat) (plaintext : Bytes) (outLen : Nat), items[i]? = some (plaintext, outLen) →
      ∃ packet, messages[i]? = some (sessionMsgData :: packet) ∧
        cryptoSeal S key (counter + UInt64.ofNat i) plaintext (outLen - 1) = some packet

/-- Sealing in order succeeds, with one counter after the other. -/
theorem sealAll_sealed (aead : S.Aead) (items : List (Bytes × Nat)) :
    ∀ {s : Session}, s.state = .established →
      (∀ item ∈ items, item.1.length ≤ S.aeadMessageBytesMax) →
      (∀ item ∈ items, item.1.length + sessionDataOverhead < ssizeRange) →
      (∀ item ∈ items, item.1.length + sessionDataOverhead ≤ item.2) →
      ∃ messages, sealAll S s items = messages.map some ∧
        SealedFrom S s.dataKeys.tx s.txCounter items messages := by
  induction items with
  | nil =>
    intro s _ _ _ _
    exact ⟨[], rfl, rfl, fun i _ _ h => by simp at h⟩
  | cons item items ih =>
    obtain ⟨plaintext, outLen⟩ := item
    intro s established message size room
    obtain ⟨packet, hpacket, hcall⟩ := sessionSealData_isSome aead established
      (message _ List.mem_cons_self) (size _ List.mem_cons_self) (room _ List.mem_cons_self)
    obtain ⟨messages, hall, hlen, hsealed⟩ := ih
      (s := { s with txCounter := s.txCounter + 1 }) established
      (fun item h => message item (List.mem_cons_of_mem _ h))
      (fun item h => size item (List.mem_cons_of_mem _ h))
      (fun item h => room item (List.mem_cons_of_mem _ h))
    refine ⟨(sessionMsgData :: packet) :: messages, ?_, ?_, ?_⟩
    · simp only [sealAll, hcall, hall, List.map_cons]
    · simp only [List.length_cons, hlen]
    · intro i plaintext' outLen' hitem
      cases i with
      | zero =>
        cases hitem
        refine ⟨packet, rfl, ?_⟩
        rw [show s.txCounter + UInt64.ofNat 0 = s.txCounter from UInt64.add_zero _]
        exact (sessionSealPacket_eq_some hpacket).2
      | succ i =>
        obtain ⟨packet', hget, hseal'⟩ := hsealed i plaintext' outLen' hitem
        refine ⟨packet', hget, ?_⟩
        rw [← hseal', UInt64.ofNat_add, UInt64.add_comm (UInt64.ofNat i), ← UInt64.add_assoc]
        rfl

/-- A plaintext whose sealed packet has no `ssize_t` length is not sealed. -/
theorem sessionSealData_oversized (aead : S.Aead) (s : Session) {plaintext : Bytes}
    (size : ssizeRange ≤ plaintext.length + cryptoPacketOverhead) (outLen : Nat) :
    sessionSealData S s plaintext outLen = (s, none) := by
  have hnone : sessionSealPacket S s plaintext outLen = none := by
    cases hpacket : sessionSealPacket S s plaintext outLen with
    | none => rfl
    | some packet =>
      obtain ⟨-, hseal⟩ := sessionSealPacket_eq_some hpacket
      have hlen := cryptoSeal_length aead hseal
      obtain ⟨_, _, _, hrange⟩ := cryptoSeal_eq_some hseal
      omega
  simp only [sessionSealData, hnone]

/-- At the end of the range the packet is sealed and the sum that is returned overflows: the counter
is spent, and no caller has the message. -/
theorem sessionSealData_overflow (aead : S.Aead) {s : Session}
    (established : s.state = .established)
    {plaintext : Bytes} {outLen : Nat} (message : plaintext.length ≤ S.aeadMessageBytesMax)
    (size : plaintext.length + sessionDataOverhead = ssizeRange)
    (room : plaintext.length + sessionDataOverhead ≤ outLen) :
    sessionSealData S s plaintext outLen = ({ s with txCounter := s.txCounter + 1 }, none) := by
  have hover : sessionDataOverhead = 1 + cryptoPacketOverhead := rfl
  obtain ⟨packet, hpacket, hlen⟩ :=
    sessionSealPacket_isSome aead established message (by omega) room
  simp only [sessionSealData, hpacket]
  rw [if_neg (by omega)]

/-! ## Delivering -/

/-- A receiver to which messages with these numbers were delivered. -/
structure Receiving (key : SessionKey) (numbers : Finset ℕ) (s : Session) : Prop where
  established : s.state = .established
  keyed : s.dataKeys.rx = key
  window : ∃ seen, s.Seen seen ∧ SlidingWindow.Covers sessionReplayWindowBits seen numbers

/-- One delivery: what it returns, and that the receiver goes on. -/
theorem Receiving.step (aead : S.Aead) {key : SessionKey} {numbers : Finset ℕ} {s : Session}
    (h : Receiving key numbers s) {n : Nat} (hn : n < 2 ^ 64) {plaintext packet out : Bytes}
    {sealLen : Nat} (sealed : cryptoSeal S key (UInt64.ofNat n) plaintext sealLen = some packet)
    (room : plaintext.length ≤ out.length) :
    Receiving key (insert n numbers) (sessionOpenData S s (sessionMsgData :: packet) out).session ∧
    (SlidingWindow.Fresh sessionReplayWindowBits numbers n →
      (sessionOpenData S s (sessionMsgData :: packet) out).ret = some plaintext.length ∧
      (sessionOpenData S s (sessionMsgData :: packet) out).plaintext? = some plaintext) ∧
    (¬ SlidingWindow.Fresh sessionReplayWindowBits numbers n →
      (sessionOpenData S s (sessionMsgData :: packet) out).ret = none) := by
  obtain ⟨seen, hseen, hcovers⟩ := h.window
  have hnat : (UInt64.ofNat n).toNat = n := by
    rw [UInt64.toNat_ofNat']
    exact Nat.mod_eq_of_lt hn
  have hcheck := replayCheckAndMark_accepts hseen (UInt64.ofNat n)
  rw [hnat, hcovers.fresh_iff] at hcheck
  rw [← h.keyed] at sealed
  by_cases hfresh : SlidingWindow.Fresh sessionReplayWindowBits numbers n
  · rw [sessionOpenData_sealed aead h.established sealed room (hcheck.mpr hfresh)]
    refine ⟨?_, fun _ => ⟨rfl, ?_⟩, fun stale => absurd hfresh stale⟩
    · have hnext := replayCheckAndMark_seen hseen (hcheck.mpr hfresh)
      rw [hnat] at hnext
      obtain ⟨w, hw⟩ := replayCheckAndMark_frame s (UInt64.ofNat n)
      refine ⟨?_, ?_, insert n seen, hnext, hcovers.accept n⟩
      · simp only [hw]
        exact h.established
      · simp only [hw]
        exact h.keyed
    · simp only [Opened.plaintext?, Option.map_some, List.take_left]
  · have hrej : (replayCheckAndMark s (UInt64.ofNat n)).2 = false := by
      cases hb : (replayCheckAndMark s (UInt64.ofNat n)).2 with
      | false => rfl
      | true => exact absurd (hcheck.mp hb) hfresh
    rw [sessionOpenData_replayed aead h.established sealed room hrej]
    refine ⟨⟨h.established, h.keyed, seen, hseen, hcovers.reject ?_⟩,
      fun fresh => absurd fresh hfresh, fun _ => rfl⟩
    rw [hcovers.fresh_iff]
    exact hfresh

/-- The numbers of a sequence of deliveries. -/
def deliveredNumbers (ds : List Delivery) : Finset ℕ := (ds.map Delivery.number).toFinset

theorem fresh_iff_timely (earlier : List Delivery) (n : Nat) :
    SlidingWindow.Fresh sessionReplayWindowBits (deliveredNumbers earlier) n ↔
      Timely earlier n := by
  simp only [SlidingWindow.Fresh, Timely, deliveredNumbers, List.mem_toFinset, List.mem_map,
    not_exists, not_and, forall_exists_index, and_imp, forall_apply_eq_imp_iff₂, ne_eq]

theorem deliveredNumbers_concat (ds : List Delivery) (d : Delivery) :
    deliveredNumbers (ds ++ [d]) = insert d.number (deliveredNumbers ds) := by
  ext n
  simp only [deliveredNumbers, List.map_append, List.map_cons, List.map_nil, List.mem_toFinset,
    List.mem_append, List.mem_singleton, Finset.mem_insert, or_comm]

section Delivering

variable {key : SessionKey} {items : List (Bytes × Nat)} {messages : List Bytes}

/-- A delivery opens the message of its number, sealed with that number. -/
theorem SealedFrom.deliver (sealed : SealedFrom S key 0 items messages) (s : Session)
    {d : Delivery} {plaintext : Bytes} {outLen : Nat}
    (hitem : items[d.number]? = some (plaintext, outLen)) :
    ∃ packet, deliver S messages s d = sessionOpenData S s (sessionMsgData :: packet) d.out ∧
      cryptoSeal S key (UInt64.ofNat d.number) plaintext (outLen - 1) = some packet := by
  obtain ⟨packet, hget, hseal⟩ := sealed.2 d.number plaintext outLen hitem
  rw [UInt64.zero_add] at hseal
  refine ⟨packet, ?_, hseal⟩
  rw [EdgarVPN.deliver, List.getD_eq_getElem?_getD, hget, Option.getD_some]

/-- The receiver keeps receiving, whatever is delivered. -/
theorem Receiving.run (aead : S.Aead) (few : items.length < 2 ^ 64)
    (sealed : SealedFrom S key 0 items messages) {s : Session} (h : Receiving key ∅ s)
    (ds : List Delivery) (fits : ∀ d ∈ ds, d.Fits items) :
    Receiving key (deliveredNumbers ds) (deliverAll S messages s ds) := by
  induction ds using List.reverseRecOn with
  | nil => exact h
  | append_singleton ds d ih =>
    have hbefore := ih fun d' hd' => fits d' (List.mem_append_left _ hd')
    obtain ⟨plaintext, outLen, hitem, room⟩ := fits d (List.mem_append_right _ (by simp))
    have hlt := (List.getElem?_eq_some_iff.mp hitem).1
    rw [deliveredNumbers_concat, deliverAll, List.foldl_append, List.foldl_cons, List.foldl_nil]
    obtain ⟨packet, hdeliver, hseal⟩ := sealed.deliver
      (ds.foldl (fun s d => (EdgarVPN.deliver S messages s d).session) s) hitem
    rw [hdeliver]
    exact (hbefore.step aead (by omega) hseal room).1

end Delivering

/-- **No loss within the window.** Two established sessions hold the same data keys crosswise, with
their data channels reset. One seals plaintexts in order, fewer than `2 ^ 64` of them, none longer
than the AEAD's longest message or than the returned length can say, each into a buffer that is
large enough. Then every seal succeeds, message `i` is 25 bytes longer than its plaintext, and,
after any deliveries in any order, a delivery of message `i` into a buffer that holds the plaintext
returns it when the delivery is timely, and -1 when it is not. -/
theorem stream_delivered (aead : S.Aead) {sender receiver : Session}
    (sending : sender.state = .established) (receiving : receiver.state = .established)
    (keys : receiver.dataKeys = sender.dataKeys.swap) (senderReset : sender.DataReset)
    (receiverReset : receiver.DataReset) (items : List (Bytes × Nat))
    (few : items.length < 2 ^ 64)
    (message : ∀ item ∈ items, item.1.length ≤ S.aeadMessageBytesMax)
    (size : ∀ item ∈ items, item.1.length + sessionDataOverhead < ssizeRange)
    (room : ∀ item ∈ items, item.1.length + sessionDataOverhead ≤ item.2) :
    ∃ messages, sealAll S sender items = messages.map some ∧
      messages.map List.length = items.map (fun item => item.1.length + 25) ∧
      ∀ (earlier : List Delivery), (∀ d ∈ earlier, d.Fits items) →
      ∀ (d : Delivery) (plaintext : Bytes) (outLen : Nat),
        items[d.number]? = some (plaintext, outLen) → plaintext.length ≤ d.out.length →
        ((deliver S messages (deliverAll S messages receiver earlier) d).ret =
            some plaintext.length ∧
          (deliver S messages (deliverAll S messages receiver earlier) d).plaintext? =
            some plaintext ↔ Timely earlier d.number) ∧
        (¬ Timely earlier d.number →
          (deliver S messages (deliverAll S messages receiver earlier) d).ret = none) := by
  obtain ⟨messages, hall, sealed⟩ := sealAll_sealed aead items sending message size room
  have hkey : receiver.dataKeys.rx = sender.dataKeys.tx := by rw [keys, SessionKeys.swap_rx]
  rw [senderReset.1] at sealed
  have start : Receiving sender.dataKeys.tx ∅ receiver :=
    ⟨receiving, hkey, ∅, receiverReset.seen, SlidingWindow.Covers.empty _⟩
  refine ⟨messages, hall, ?_, fun earlier fits d plaintext outLen hitem hroom => ?_⟩
  · apply List.ext_getElem?
    intro i
    rw [List.getElem?_map, List.getElem?_map]
    cases hitem : items[i]? with
    | none =>
      rw [List.getElem?_eq_none_iff] at hitem
      rw [List.getElem?_eq_none_iff.mpr (by rw [sealed.1]; exact hitem)]
      rfl
    | some item =>
      obtain ⟨packet, hget, hseal⟩ := sealed.2 i item.1 item.2 hitem
      rw [hget, Option.map_some, Option.map_some, List.length_cons, cryptoSeal_length aead hseal]
      rfl
  · have hlt := (List.getElem?_eq_some_iff.mp hitem).1
    have hreceiving := start.run aead few sealed earlier fits
    obtain ⟨packet, hdeliver, hseal⟩ :=
      sealed.deliver (deliverAll S messages receiver earlier) hitem
    obtain ⟨-, hfresh, hstale⟩ := hreceiving.step aead (by omega) hseal hroom
    rw [fresh_iff_timely] at hfresh hstale
    rw [hdeliver]
    refine ⟨⟨fun returned => ?_, hfresh⟩, hstale⟩
    by_contra late
    rw [hstale late] at returned
    cases returned.1

/-- Two ends of a channel over the reference library. -/
def streamSender : Session :=
  { Session.zero with
    state := .established
    dataKeys := ⟨Reference.block _ fun _ => 1, Reference.block _ fun _ => 2⟩ }

def streamReceiver : Session :=
  { Session.zero with
    role := .responder
    state := .established
    dataKeys := streamSender.dataKeys.swap }

/-- Three plaintexts, one of them empty, each with the size of its buffer. -/
def streamItems : List (Bytes × Nat) := [([1, 2, 3], 28), ([], 25), ([7], 100)]

/-- After the last message and the first: the second still arrives, the first does not arrive
again. -/
theorem stream_delivered_streamItems :
    ∃ messages, sealAll reference streamSender streamItems = messages.map some ∧
      messages.map List.length = [28, 25, 26] ∧
      (deliver reference messages (deliverAll reference messages streamReceiver
        [⟨2, [0]⟩, ⟨0, [0, 0, 0]⟩]) ⟨1, []⟩).plaintext? = some [] ∧
      (deliver reference messages (deliverAll reference messages streamReceiver
        [⟨2, [0]⟩, ⟨0, [0, 0, 0]⟩]) ⟨0, [0, 0, 0]⟩).ret = none := by
  have sending : streamSender.state = .established := rfl
  have receiving : streamReceiver.state = .established := rfl
  obtain ⟨messages, hall, hlen, hdeliver⟩ := stream_delivered reference_aead sending receiving rfl
    ⟨rfl, rfl, rfl⟩ ⟨rfl, rfl, rfl⟩ streamItems (by decide) (by decide) (by decide) (by decide)
  have fits : ∀ d ∈ [Delivery.mk 2 [0], Delivery.mk 0 [0, 0, 0]], d.Fits streamItems := by
    simp only [List.forall_mem_cons, List.not_mem_nil, false_implies, implies_true, and_true]
    exact ⟨⟨[7], 100, rfl, by decide⟩, ⟨[1, 2, 3], 28, rfl, by decide⟩⟩
  have second := hdeliver _ fits ⟨1, []⟩ [] 25 rfl (by decide)
  have again := hdeliver _ fits ⟨0, [0, 0, 0]⟩ [1, 2, 3] 28 rfl (by decide)
  refine ⟨messages, hall, hlen, (second.1.mpr ?_).2, again.2 ?_⟩
  · simp [Timely, sessionReplayWindowBits]
  · simp [Timely]

/-- **The longest plaintexts are refused.** A plaintext of `2 ^ 63 - 1` bytes, with a buffer 25
bytes longer: the packet's length does not fit the `ssize_t` that `crypto_seal` returns. -/
theorem longest_plaintext_unsealed :
    (List.replicate (2 ^ 63 - 1) (0 : UInt8)).length < 2 ^ 63 ∧
    (sessionSealData reference streamSender (List.replicate (2 ^ 63 - 1) 0)
      (2 ^ 63 - 1 + sessionDataOverhead)).2 = none := by
  refine ⟨by rw [List.length_replicate]; decide, ?_⟩
  rw [sessionSealData_oversized reference_aead]
  rw [List.length_replicate]
  decide

end EdgarVPN
