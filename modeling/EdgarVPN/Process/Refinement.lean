import EdgarVPN.Daemon.Counted
import EdgarVPN.Daemon.Timers
import EdgarVPN.Log.Records
import EdgarVPN.Process.Main

/-!
# The process runs the event loop

`Daemon.Loop` is the daemon as a machine of events, each with the answers of the system in it;
almost everything this development proves is about runs of that machine. `Process.Main` is `main`
with its calls. Here the second is shown to be a run of the first.

**What is proved** (`main_refines`). Whatever the system answers, the datagrams that a run of `main`
hands to `sendto` and the packets that it hands to `write`, with their results and in their order,
are those of a run of the machine, started with the configuration that was read from the file. If
the clock never goes back, the events of that run are in the order of the clock. So what holds of
every run of `World.step` holds of the calls of the process.

Each function of the process is matched with the function of the machine it stands for, given some
answers (`Matches`, and `Observed` where the clock is among them). The induction over the passes
carries `Follows`: the daemon is the one that a run of the machine ends with.
-/

set_option autoImplicit false

namespace EdgarVPN

open CString Programs

/-- What the process hands to the kernel: a datagram or a packet. -/
def Effect.isOutside : Effect → Bool
  | .sent _ _ _ => true
  | .wrote _ _ => true
  | _ => false

/-- What a run of the machine hands to the kernel. -/
def outside (effects : List Effect) : List Effect := effects.filter Effect.isOutside

@[simp] theorem outside_nil : outside [] = [] := rfl

@[simp] theorem outside_sent {message : Bytes} {dest : SockAddr} {ok : Bool}
    {effects : List Effect} :
    outside (.sent message dest ok :: effects) = .sent message dest ok :: outside effects := rfl

@[simp] theorem outside_wrote {packet : Bytes} {ok : Bool} {effects : List Effect} :
    outside (.wrote packet ok :: effects) = .wrote packet ok :: outside effects := rfl

@[simp] theorem outside_accepted {i : Nat} {datagram : Bytes} {clock : UInt64}
    {effects : List Effect} :
    outside (.accepted i datagram clock :: effects) = outside effects := rfl

@[simp] theorem outside_derived {i : Nat} {keys : SessionKeys} {clock : UInt64}
    {effects : List Effect} :
    outside (.derived i keys clock :: effects) = outside effects := rfl

@[simp] theorem outside_sealed {i : Nat} {keys : SessionKeys} {effects : List Effect} :
    outside (.sealed i keys :: effects) = outside effects := rfl

@[simp] theorem outside_passed {now : UInt64} {effects : List Effect} :
    outside (.passed now :: effects) = outside effects := rfl

theorem outside_append (effects more : List Effect) :
    outside (effects ++ more) = outside effects ++ outside more := List.filter_append ..

/-- What the process reads: its file, packets from the device, and datagrams. -/
inductive Input where
  | file (path contents : Bytes)
  | packet (packet : Bytes)
  | datagram (datagram : Bytes) (source : SockAddr)
deriving DecidableEq

/-- What an event of the machine reads. -/
def Event.input? : Event → Option Input
  | .tun packet _ _ => some (.packet packet)
  | .udp datagram source _ _ _ _ => some (.datagram datagram source)
  | .timer _ _ => none

namespace Process

/-- What a call hands to the kernel, and whether it succeeded. -/
def effect? : Entry Sys Sys.Answer → Option Effect
  | ⟨.sendto _ message dest, (ret, _)⟩ => some (.sent message dest (decide (ret ≥ 0)))
  | ⟨.write _ packet, (ret, _)⟩ => some (.wrote packet (decide (ret ≥ 0)))
  | _ => none

/-- A reading of the clock. -/
def reading? : Entry Sys Sys.Answer → Option UInt64
  | ⟨.clockGettime, (ts, _)⟩ => some (Timespec.ms ts)
  | _ => none

/-- What a call read. -/
def input? : Entry Sys Sys.Answer → Option Input
  | ⟨.readFile path, (some contents, _)⟩ => some (.file path contents)
  | ⟨.read _ _, (some packet, _)⟩ => some (.packet packet)
  | ⟨.recvfrom _ _, (some (datagram, source), _)⟩ => some (.datagram datagram source)
  | _ => none

/-- What is observed of a run: what was handed to the kernel, the readings of the clock, and what
was read. -/
abbrev Seen := List Effect × List UInt64 × List Input

def observe : Seen → Entry Sys Sys.Answer → Option Seen :=
  both (record effect?) (both (record reading?) (record input?))

/-- What is observed of the calls that were made. -/
def Seen.of (trace : List (Entry Sys Sys.Answer)) : Seen :=
  (trace.filterMap effect?, trace.filterMap reading?, trace.filterMap input?)

theorem foldlM_observe {trace : List (Entry Sys Sys.Answer)} {m : Seen}
    (watched : trace.foldlM observe ([], [], []) = some m) : m = Seen.of trace := by
  obtain ⟨effects, watched⟩ := foldlM_both.mp watched
  obtain ⟨readings, inputs⟩ := foldlM_both.mp watched
  rw [foldlM_record, Option.some.injEq, List.nil_append] at effects readings inputs
  exact Prod.ext effects.symm (Prod.ext readings.symm inputs.symm)

variable {S : Sodium} {host : Endian} {s : Errno}
  {fx : List Effect} {rd : List UInt64} {ins : List Input}

/-! ## Calls -/

/-- A call that is none of these. -/
def Sys.Unseen (c : Sys) : Prop :=
  ∀ answer, effect? ⟨c, answer⟩ = none ∧ reading? ⟨c, answer⟩ = none ∧ input? ⟨c, answer⟩ = none

theorem observe_unseen {c : Sys} (unseen : Sys.Unseen c) (answer : c.Answer) :
    observe (fx, rd, ins) ⟨c, answer⟩ = some (fx, rd, ins) := by
  obtain ⟨effect, reading, input⟩ := unseen answer
  simp [observe, both, record, effect, reading, input]

section Calls

variable {α : Type} {Q : α → Errno → Seen → Prop}

theorem sys_observe {c : Sys} {next : c.Ret → Proc α} (unseen : Sys.Unseen c)
    (rest : ∀ ret error, Cmd.wp observe (next ret) Q error (fx, rd, ins)) :
    Cmd.wp observe (sys c >>= next) Q s (fx, rd, ins) :=
  Cmd.wp_bind.mpr (wp_sys_quiet (observe_unseen unseen) rest)

/-- A line of the log. -/
theorem log_observe {level : LogLevel} {component : Bytes} {message : List Piece}
    {next : PUnit → Proc α} (rest : ∀ error, Cmd.wp observe (next ⟨⟩) Q error (fx, rd, ins)) :
    Cmd.wp observe ((do let _ ← sys (.log level component message)) >>= next) Q s (fx, rd, ins) :=
  Cmd.wp_bind.mpr (sys_observe (fun _ => ⟨rfl, rfl, rfl⟩) fun _ error => rest error)

/-- Calls none of which is seen. -/
theorem unseen_observe {β : Type} {p : Proc β} {next : β → Proc α} (calls : Cmd.Calls Sys.Unseen p)
    (rest : ∀ b error, Cmd.wp observe (next b) Q error (fx, rd, ins)) :
    Cmd.wp observe (p >>= next) Q s (fx, rd, ins) := by
  refine Cmd.wp_seq (calls.wp (fun _ unseen => observe_unseen unseen) s) ?_
  rintro b error _ rfl
  exact rest b error

theorem errno_observe {next : Errno → Proc α}
    (rest : ∀ error, Cmd.wp observe (next error) Q error (fx, rd, ins)) :
    Cmd.wp observe (errno >>= next) Q s (fx, rd, ins) :=
  Cmd.wp_bind.mpr (wp_errno.mpr (rest s))

theorem monotonicMs_observe {next : UInt64 → Proc α}
    (rest : ∀ now error, Cmd.wp observe (next now) Q error (fx, rd ++ [now], ins)) :
    Cmd.wp observe (monotonicMs >>= next) Q s (fx, rd, ins) := by
  refine Cmd.wp_bind.mpr (Cmd.wp_bind.mpr (wp_sys.mpr fun ts error => ?_))
  refine ⟨(fx, rd ++ [Timespec.ms ts], ins), ?_, rest (Timespec.ms ts) error⟩
  simp [observe, both, record, effect?, reading?, input?]

theorem udpSend_observe {fd : Int} {message : Bytes} {dest : SockAddr} {next : Bool → Proc α}
    (rest : ∀ ok error, Cmd.wp observe (next ok) Q error (fx ++ [.sent message dest ok], rd, ins)) :
    Cmd.wp observe (udpSend fd message dest >>= next) Q s (fx, rd, ins) := by
  refine Cmd.wp_bind.mpr (Cmd.wp_bind.mpr (wp_sys.mpr fun ret error => ?_))
  refine ⟨(fx ++ [Effect.sent message dest (decide (ret ≥ 0))], rd, ins), ?_, rest _ error⟩
  simp [observe, both, record, effect?, reading?, input?]

theorem udpResolve_observe {name : Bytes} {port : UInt16} {next : Option SockAddr → Proc α}
    (rest : ∀ (resolved : Option InAddr) error,
      Cmd.wp observe (next (resolved.map (SockAddr.mk · port))) Q error (fx, rd, ins)) :
    Cmd.wp observe (udpResolve name port >>= next) Q s (fx, rd, ins) := by
  refine Cmd.wp_bind.mpr (sys_observe (fun _ => ⟨rfl, rfl, rfl⟩) fun resolved error => ?_)
  cases resolved with
  | none => exact rest none error
  | some ip => exact rest (some ip) error

theorem tunWrite_observe {dev : TunDevice} {packet : Bytes} {next : Bool → Proc α}
    (rest : ∀ ok error, Cmd.wp observe (next ok) Q error (fx ++ [.wrote packet ok], rd, ins)) :
    Cmd.wp observe (tunWrite dev packet >>= next) Q s (fx, rd, ins) := by
  refine Cmd.wp_bind.mpr (Cmd.wp_bind.mpr (wp_sys.mpr fun ret error => ?_))
  refine ⟨(fx ++ [Effect.wrote packet (decide (ret ≥ 0))], rd, ins), ?_, rest _ error⟩
  simp [observe, both, record, effect?, reading?, input?]

end Calls

theorem unseen_log (level : LogLevel) (component : Bytes) (message : List Piece) :
    Sys.Unseen (.log level component message) := fun _ => ⟨rfl, rfl, rfl⟩

/-! ## Functions without the clock -/

/-- The value is that of a function of the machine for some answers, and so is what was handed to
the kernel. -/
def Matches {α ι : Type} (fx : List Effect) (rd : List UInt64)
    (ins : List Input) (run : ι → α × List Effect) (a : α)
    (m : Seen) : Prop :=
  ∃ answers, a = (run answers).1 ∧ m = (fx ++ outside (run answers).2, rd, ins)

theorem sendInit_observe (name : Bytes) (udp : Int) (now : UInt64) (resolved : Option InAddr)
    (ps : PeerSession) :
    Cmd.wp observe (sendInit S name udp now ps) (fun ps' _ m =>
      Matches fx rd ins (fun (env : KeyPair × Bool) =>
        ps.sendInit S now ⟨resolved, env.1, env.2⟩) ps' m) s (fx, rd, ins) := by
  unfold sendInit
  refine sys_observe (fun _ => ⟨rfl, rfl, rfl⟩) fun kp error => ?_
  dsimp only
  split
  · next s' built =>
    refine log_observe fun error => Cmd.wp_pure.mpr ⟨(kp, false), ?_⟩
    simp [PeerSession.sendInit, built]
  · next s' init built =>
    refine udpSend_observe fun ok error => ?_
    have sent : Matches fx rd ins
        (fun (env : KeyPair × Bool) => ps.sendInit S now ⟨resolved, env.1, env.2⟩)
        { ps with session := s', lastRxActivityMs := now, lastTxActivityMs := now }
        (fx ++ [.sent init ps.addr ok], rd, ins) :=
      ⟨(kp, ok), by simp [PeerSession.sendInit, built]⟩
    split
    · exact log_observe fun error => sent
    · exact log_observe fun error => sent

theorem initiateHandshake_observe (name : Bytes) (udp : Int) (now : UInt64) (ps : PeerSession) :
    Cmd.wp observe (initiateHandshake S name udp now ps) (fun ps' _ m =>
      Matches fx rd ins (fun env => EdgarVPN.initiateHandshake S now env ps) ps' m) s
      (fx, rd, ins) := by
  unfold initiateHandshake
  split
  · next known =>
    refine Cmd.wp_mono (sendInit_observe name udp now none ps) ?_
    rintro ps' error m ⟨env, rfl, rfl⟩
    exact ⟨⟨none, env.1, env.2⟩, by simp [EdgarVPN.initiateHandshake, known]⟩
  · next unknown =>
    refine udpResolve_observe fun resolved error => ?_
    cases resolved with
    | none =>
      refine log_observe fun error => Cmd.wp_pure.mpr ⟨⟨none, ps.session.ephemeral, false⟩, ?_⟩
      simp [EdgarVPN.initiateHandshake, unknown]
    | some ip =>
      refine Cmd.wp_mono (sendInit_observe name udp now (some ip) _) ?_
      rintro ps' error m ⟨env, rfl, rfl⟩
      exact ⟨⟨some ip, env.1, env.2⟩, by simp [EdgarVPN.initiateHandshake, unknown]⟩

theorem keepalive_observe (name : Bytes) (udp : Int) (i : Nat) (now : UInt64) (ps : PeerSession) :
    Cmd.wp observe (keepalive S name udp now ps) (fun ps' _ m =>
      Matches fx rd ins (fun ok => ps.keepalive S i now ok) ps' m) s (fx, rd, ins) := by
  unfold keepalive
  split
  · next due =>
    split
    · next s' failed =>
      refine log_observe fun error => Cmd.wp_pure.mpr ⟨false, ?_⟩
      simp [PeerSession.keepalive, due, failed]
    · next s' message built =>
      refine udpSend_observe fun ok error => ?_
      cases ok with
      | true =>
        refine log_observe fun error => Cmd.wp_pure.mpr ⟨true, ?_⟩
        simp [PeerSession.keepalive, due, built]
      | false =>
        refine errno_observe fun error => log_observe fun error => Cmd.wp_pure.mpr ⟨false, ?_⟩
        simp [PeerSession.keepalive, due, built]
  · next quiet =>
    refine Cmd.wp_pure.mpr ⟨false, ?_⟩
    simp [PeerSession.keepalive, quiet]

theorem reconnect_observe (name : Bytes) (udp : Int) (now : UInt64) (ps : PeerSession) :
    Cmd.wp observe (reconnect S name udp now ps) (fun ps' _ m =>
      Matches fx rd ins (fun env => ps.reconnect S now env) ps' m) s (fx, rd, ins) := by
  have attempt (due : ∀ env, ps.reconnect S now env = EdgarVPN.initiateHandshake S now env ps)
      (s : Errno) :
      Cmd.wp observe (initiateHandshake S name udp now ps) (fun ps' _ m =>
        Matches fx rd ins (fun env => ps.reconnect S now env) ps' m) s (fx, rd, ins) := by
    simp only [due]
    exact initiateHandshake_observe name udp now ps
  unfold reconnect
  split
  · next timedOut =>
    have due := attempt fun env => by rw [PeerSession.reconnect, if_pos timedOut]
    split
    · exact log_observe fun error => due error
    · exact due s
  · next heard =>
    split
    · next old =>
      have due := attempt fun env => by rw [PeerSession.reconnect, if_neg heard, if_pos old]
      exact log_observe fun error => due error
    · next young =>
      refine Cmd.wp_pure.mpr ⟨⟨none, ps.session.ephemeral, false⟩, ?_⟩
      simp [PeerSession.reconnect, heard, young]

theorem tickAll_observe (name : Bytes) (udp : Int) (now : UInt64) (peers : List PeerSession)
    (i : Nat) :
    Cmd.wp observe (tickAll S name udp now peers) (fun peers' _ m =>
      Matches fx rd ins (fun env : Nat → Tick =>
        let ticked := peers.mapIdx fun j ps => ps.tick S (i + j) now (env j)
        (ticked.map Prod.fst, ticked.flatMap Prod.snd)) peers' m) s (fx, rd, ins) := by
  induction peers generalizing i s fx with
  | nil => exact ⟨fun _ => ⟨⟨none, ⟨Block.zero _, Block.zero _⟩, false⟩, false⟩, rfl, by simp⟩
  | cons ps peers ih =>
    unfold tickAll
    refine Cmd.wp_seq (keepalive_observe name udp i now ps) ?_
    rintro _ error _ ⟨sent, rfl, rfl⟩
    refine Cmd.wp_seq (reconnect_observe name udp now _) ?_
    rintro _ error _ ⟨attempt, rfl, rfl⟩
    refine Cmd.wp_seq (ih (i + 1)) ?_
    rintro _ error _ ⟨env, rfl, rfl⟩
    refine Cmd.wp_pure.mpr ⟨fun | 0 => ⟨attempt, sent⟩ | j + 1 => env j, ?_⟩
    simp [PeerSession.tick, outside_append, List.mapIdx_cons, Nat.add_assoc, Nat.add_comm 1]

/-! ## Functions with the clock -/

/-- The clock was not read, and the machine is given the last reading, or it was read once. -/
def ReadsClock (last : UInt64) (readings : List UInt64) (clock : UInt64) : Prop :=
  readings = [] ∧ clock = last ∨ readings = [clock]

/-- `Matches` at a reading of the clock. -/
def Observed {α ι : Type} (last : UInt64) (fx : List Effect) (rd : List UInt64)
    (ins : List Input)
    (run : UInt64 → ι → α × List Effect) (a : α) (m : Seen) : Prop :=
  ∃ clock readings, ReadsClock last readings clock ∧ Matches fx (rd ++ readings) ins (run clock) a m

section Clock

variable (last : UInt64)

theorem Observed.unread {last : UInt64} {α ι : Type} {run : UInt64 → ι → α × List Effect} {a : α}
    {m : Seen} (h : Matches fx rd ins (run last) a m) :
    Observed last fx rd ins run a m := ⟨last, [], .inl ⟨rfl, rfl⟩, by rwa [List.append_nil]⟩

theorem Observed.read {last : UInt64} {α ι : Type} {run : UInt64 → ι → α × List Effect} {a : α}
    {m : Seen} (clock : UInt64)
    (h : Matches fx (rd ++ [clock]) ins (run clock) a m) : Observed last fx rd ins run a m :=
  ⟨clock, [clock], .inr rfl, h⟩

theorem forward_observe (name : Bytes) (udp : Int) (i : Nat) (packet : Bytes) (ps : PeerSession) :
    Cmd.wp observe (forward S name udp packet ps) (fun ps' _ m =>
      Observed last fx rd ins (fun clock ok => ps.forward S i packet clock ok) ps' m) s
      (fx, rd, ins) := by
  unfold forward
  split
  · next pending =>
    refine log_observe fun error => Cmd.wp_pure.mpr (.unread ⟨false, ?_⟩)
    simp [PeerSession.forward, pending]
  · next established =>
    split
    · next s' failed =>
      refine log_observe fun error => Cmd.wp_pure.mpr (.unread ⟨false, ?_⟩)
      simp [PeerSession.forward, established, failed]
    · next s' message built =>
      refine udpSend_observe fun ok error => ?_
      cases ok with
      | true =>
        refine monotonicMs_observe fun clock error => log_observe fun error => ?_
        refine Cmd.wp_pure.mpr (.read clock ⟨true, ?_⟩)
        simp [PeerSession.forward, established, built]
      | false =>
        refine errno_observe fun error => log_observe fun error => ?_
        refine Cmd.wp_pure.mpr (.unread ⟨false, ?_⟩)
        simp [PeerSession.forward, established, built]

theorem sessionHandleInit_observe {α : Type} {Q : α → Errno → Seen → Prop}
    {session : Session} {input : Bytes} {outLen : Nat} {next : Session × Option Bytes → Proc α}
    (rest : ∀ kp error, Cmd.wp observe
      (next (EdgarVPN.sessionHandleInit S kp session input outLen)) Q error (fx, rd, ins)) :
    Cmd.wp observe (sessionHandleInit S session input outLen >>= next) Q s (fx, rd, ins) := by
  unfold sessionHandleInit
  refine Cmd.wp_bind.mpr ?_
  split
  · exact sys_observe (fun _ => ⟨rfl, rfl, rfl⟩) fun kp error => rest kp error
  · exact rest session.ephemeral s

theorem receiveInit_observe (name : Bytes) (udp : Int) (i : Nat) (datagram : Bytes)
    (ps : PeerSession) :
    Cmd.wp observe (receiveInit S name udp datagram ps) (fun ps' _ m =>
      Observed last fx rd ins (fun clock (answers : KeyPair × Bool) =>
        ps.receiveInit S i datagram clock answers.1 answers.2) ps' m) s (fx, rd, ins) := by
  unfold receiveInit
  refine sessionHandleInit_observe fun kp error => ?_
  split
  · next s' refused =>
    refine log_observe fun error => Cmd.wp_pure.mpr (.unread ⟨(kp, false), ?_⟩)
    simp [PeerSession.receiveInit, refused]
  · next s' response handled =>
    refine udpSend_observe fun ok error => ?_
    cases ok with
    | true =>
      refine monotonicMs_observe fun clock error => log_observe fun error => ?_
      refine Cmd.wp_pure.mpr (.read clock ⟨(kp, true), ?_⟩)
      simp [PeerSession.receiveInit, handled]
    | false =>
      refine errno_observe fun error => log_observe fun error => ?_
      refine Cmd.wp_pure.mpr (.unread ⟨(kp, false), ?_⟩)
      simp [PeerSession.receiveInit, handled]

theorem receiveResponse_observe (name : Bytes) (i : Nat) (datagram : Bytes) (ps : PeerSession) :
    Cmd.wp observe (receiveResponse S name datagram ps) (fun ps' _ m =>
      Observed last fx rd ins (fun clock (_ : Unit) => ps.receiveResponse S i datagram clock) ps' m)
      s
      (fx, rd, ins) := by
  unfold receiveResponse
  split
  · next s' refused =>
    refine log_observe fun error => Cmd.wp_pure.mpr (.unread ⟨(), ?_⟩)
    simp [PeerSession.receiveResponse, refused]
  · next s' handled =>
    refine monotonicMs_observe fun clock error => log_observe fun error => ?_
    refine Cmd.wp_pure.mpr (.read clock ⟨(), ?_⟩)
    simp [PeerSession.receiveResponse, handled]

theorem receiveData_observe (name : Bytes) (tun : TunDevice) (i : Nat) (datagram : Bytes)
    (ps : PeerSession) :
    Cmd.wp observe (receiveData S name tun datagram ps) (fun ps' _ m =>
      Observed last fx rd ins (fun clock tunOk => ps.receiveData S i datagram clock tunOk) ps' m) s
      (fx, rd, ins) := by
  unfold receiveData
  dsimp only
  split
  · next refused =>
    refine log_observe fun error => Cmd.wp_pure.mpr (.unread ⟨false, ?_⟩)
    simp [PeerSession.receiveData, refused]
  · next keepalive =>
    refine monotonicMs_observe fun clock error => log_observe fun error => ?_
    refine Cmd.wp_pure.mpr (.read clock ⟨true, ?_⟩)
    simp [PeerSession.receiveData, keepalive]
  · next packet some opened =>
    refine tunWrite_observe fun ok error => ?_
    cases ok with
    | true =>
      refine monotonicMs_observe fun clock error => log_observe fun error => ?_
      refine Cmd.wp_pure.mpr (.read clock ⟨true, ?_⟩)
      simp [PeerSession.receiveData, opened]
    | false =>
      refine errno_observe fun error => log_observe fun error => ?_
      refine Cmd.wp_pure.mpr (.unread ⟨false, ?_⟩)
      simp [PeerSession.receiveData, opened]

theorem receive_observe (name : Bytes) (tun : TunDevice) (udp : Int) (i : Nat) (datagram : Bytes)
    (ps : PeerSession) :
    Cmd.wp observe (receive S name tun udp datagram ps) (fun ps' _ m =>
      Observed last fx rd ins (fun clock (answers : KeyPair × Bool × Bool) =>
        ps.receive S i datagram clock answers.1 answers.2.1 answers.2.2) ps' m) s
      (fx, rd, ins) := by
  have kp : KeyPair := ps.session.ephemeral
  unfold receive
  dsimp only
  split
  · next init =>
    refine Cmd.wp_mono (receiveInit_observe last name udp i datagram ps) ?_
    rintro ps' error m ⟨clock, readings, reads, answers, rfl, rfl⟩
    refine ⟨clock, readings, reads, (answers.1, answers.2, false), ?_⟩
    simp only [PeerSession.receive, if_pos init, and_self]
  · next notInit =>
    split
    · next response =>
      refine Cmd.wp_mono (receiveResponse_observe last name i datagram ps) ?_
      rintro ps' error m ⟨clock, readings, reads, _, rfl, rfl⟩
      refine ⟨clock, readings, reads, (kp, false, false), ?_⟩
      simp only [PeerSession.receive, if_neg notInit, if_pos response, and_self]
    · next notResponse =>
      split
      · next data =>
        refine Cmd.wp_mono (receiveData_observe last name tun i datagram ps) ?_
        rintro ps' error m ⟨clock, readings, reads, tunOk, rfl, rfl⟩
        refine ⟨clock, readings, reads, (kp, false, tunOk), ?_⟩
        simp only [PeerSession.receive, if_neg notInit, if_neg notResponse, if_pos data, and_self]
      · next other =>
        refine log_observe fun error => Cmd.wp_pure.mpr (.unread ⟨(kp, false, false), ?_⟩)
        simp only [PeerSession.receive, if_neg notInit, if_neg notResponse, if_neg other,
          outside_nil, List.append_nil, and_self]

/-- The search draws a pair for an index it reaches, and does not look at those before. -/
theorem findResponderForInit_congr {kps kps' : Nat → KeyPair} {input : Bytes} {outLen : Nat}
    {peers : List PeerSession} {i : Nat} (agree : ∀ j, i ≤ j → kps j = kps' j) :
    EdgarVPN.findResponderForInit S kps input outLen i peers =
      EdgarVPN.findResponderForInit S kps' input outLen i peers := by
  induction peers generalizing i with
  | nil => rfl
  | cons ps peers ih =>
    have later := ih fun j (hj : i + 1 ≤ j) => agree j (Nat.le_of_succ_le hj)
    simp only [EdgarVPN.findResponderForInit, later, agree i (Nat.le_refl i)]

theorem findResponderForInit_observe (input : Bytes) (outLen : Nat) (peers : List PeerSession)
    (i : Nat) :
    Cmd.wp observe (findResponderForInit S input outLen i peers) (fun r _ m =>
      (∃ kps, r = EdgarVPN.findResponderForInit S kps input outLen i peers) ∧
        m = (fx, rd, ins)) s (fx, rd, ins) := by
  induction peers generalizing i s with
  | nil => exact ⟨⟨fun _ => ⟨Block.zero _, Block.zero _⟩, rfl⟩, rfl⟩
  | cons ps peers ih =>
    unfold findResponderForInit
    split
    · next initiator =>
      refine Cmd.wp_seq (ih (i + 1)) ?_
      rintro _ error _ ⟨⟨kps, rfl⟩, rfl⟩
      refine Cmd.wp_pure.mpr ⟨⟨kps, ?_⟩, rfl⟩
      rw [EdgarVPN.findResponderForInit, if_pos initiator]
    · next responder =>
      refine sessionHandleInit_observe fun kp error => ?_
      split
      · next s' response handled =>
        refine Cmd.wp_pure.mpr ⟨⟨fun _ => kp, ?_⟩, rfl⟩
        rw [EdgarVPN.findResponderForInit, if_neg responder, handled]
      · next s' refused =>
        refine Cmd.wp_seq (ih (i + 1)) ?_
        rintro _ error _ ⟨⟨kps, rfl⟩, rfl⟩
        refine Cmd.wp_pure.mpr ⟨⟨Function.update kps i kp, ?_⟩, rfl⟩
        have same : ∀ j, i + 1 ≤ j → Function.update kps i kp j = kps j :=
          fun j hj => Function.update_of_ne (Nat.ne_of_gt hj) ..
        rw [EdgarVPN.findResponderForInit, if_neg responder, Function.update_self, refused,
          findResponderForInit_congr same]

theorem unknownInit_observe (node : Node) (datagram : Bytes) (source : SockAddr) (d : Daemon) :
    Cmd.wp observe (unknownInit S node datagram source d) (fun d' _ m =>
      Observed last fx rd ins (fun clock (answers : (Nat → KeyPair) × Bool) =>
        d.unknownInit S datagram source clock answers.1 answers.2) d' m) s (fx, rd, ins) := by
  unfold unknownInit
  refine Cmd.wp_seq (findResponderForInit_observe datagram sessionHandshakeMsgLen d.peers 0) ?_
  rintro ⟨peers, matched⟩ error _ ⟨⟨kps, search⟩, rfl⟩
  dsimp only
  split
  · next unmatched =>
    refine log_observe fun error => Cmd.wp_pure.mpr (.unread ⟨(kps, false), ?_⟩)
    cases matched with
    | none => simp [Daemon.unknownInit, ← search]
    | some found =>
      have none : peers[found.1]? = none := by simpa using unmatched
      simp [Daemon.unknownInit, ← search, none]
  · next matched =>
    obtain ⟨found, rfl, get⟩ := Option.bind_eq_some_iff.mp matched
    obtain ⟨ps, get, here⟩ := Option.map_eq_some_iff.mp get
    cases here
    refine udpSend_observe fun ok error => ?_
    cases ok with
    | true =>
      refine monotonicMs_observe fun clock error => log_observe fun error => ?_
      refine Cmd.wp_pure.mpr (.read clock ⟨(kps, true), ?_⟩)
      simp [Daemon.unknownInit, ← search, get, setPeer]
    | false =>
      refine errno_observe fun error => log_observe fun error => ?_
      refine Cmd.wp_pure.mpr (.unread ⟨(kps, false), ?_⟩)
      simp [Daemon.unknownInit, ← search, get]

end Clock

/-! ## Runs -/

/-- A run of the machine that ends with this daemon, has handed to the kernel what was seen, and
read what was seen after the start. Its events are in the order of the clock if the readings are. -/
structure Tracks (S : Sodium) (host : Endian) (cfg : Config) (load : List Input)
    (boots : Nat → Boot) (clock : UInt64) (w : World) (events : List Event) (d : Daemon)
    (seen : Seen) : Prop where
  start : World.start S cfg boots clock = some w
  daemon : (events.foldl (World.step S host) w).daemon = d
  outside : outside (events.foldl (World.step S host) w).log = seen.1
  inputs : seen.2.2 = load ++ events.filterMap Event.input?
  reading : (events.foldl (World.step S host) w).clock ∈ seen.2.1
  ordered : seen.2.1.Pairwise (· ≤ ·) →
    BootsOrdered boots clock ∧ Runs.Admitted (World.step S host) (fun w e => e.Clocked w) w events

/-- The daemon is that of some run. -/
def Follows (S : Sodium) (host : Endian) (cfg : Config) (load : List Input) (d : Daemon)
    (seen : Seen) : Prop :=
  ∃ boots clock w events, Tracks S host cfg load boots clock w events d seen

variable {cfg : Config} {d : Daemon} {seen : Seen} {node : Node} {load : List Input}

theorem Follows.configs (follows : Follows S host cfg load d seen) :
    d.peers.map PeerSession.config = cfg.peers := by
  obtain ⟨boots, clock, w, events, tracks⟩ := follows
  rw [← tracks.daemon]
  refine (sessions_driven tracks.start events).keyed.configs ?_
  rw [World.run_length, World.start_length tracks.start]

theorem Follows.length (follows : Follows S host cfg load d seen) :
    d.peers.length = cfg.peers.length := by
  rw [← follows.configs, List.length_map]

/-- One event more: at the last reading, or at a new one. -/
theorem Follows.event (follows : Follows S host cfg load d (fx, rd, ins)) :
    ∃ last, ∀ (e : Event) readings, ReadsClock last readings e.clock →
      Follows S host cfg load (d.step S host e).1
        (fx ++ outside (d.step S host e).2, rd ++ readings, ins ++ e.input?.toList) := by
  obtain ⟨boots, clock, w, events, start, rfl, log, inputs, reading, ordered⟩ := follows
  refine ⟨(events.foldl (World.step S host) w).clock, fun e readings reads => ?_⟩
  have run : (events ++ [e]).foldl (World.step S host) w =
      (events.foldl (World.step S host) w).step S host e := by rw [List.foldl_append]; rfl
  refine ⟨boots, clock, w, events ++ [e], start, ?_, ?_, ?_, ?_, fun pairwise => ?_⟩
  · rw [run]; rfl
  · rw [run]
    exact (outside_append ..).trans (congrArg (· ++ _) log)
  · show ins ++ _ = _
    rw [show ins = _ from inputs, List.filterMap_append, List.append_assoc]
    cases e <;> rfl
  · rw [run]
    show e.clock ∈ _
    rcases reads with ⟨rfl, hclock⟩ | rfl
    · rw [hclock]
      exact List.mem_append_left _ reading
    · exact List.mem_append_right _ (List.mem_singleton_self _)
  · obtain ⟨before, _, across⟩ := List.pairwise_append.mp pairwise
    obtain ⟨booted, admitted⟩ := ordered before
    refine ⟨booted, admitted.snoc ?_⟩
    show _ ≤ e.clock
    rcases reads with ⟨_, hclock⟩ | rfl
    · exact hclock ▸ UInt64.le_refl _
    · exact across _ reading _ (List.mem_singleton_self _)

/-- An event that does nothing. -/
theorem Follows.idle (follows : Follows S host cfg load d (fx, rd, ins)) {input : Input}
    (e : UInt64 → Event) (clock : ∀ t, (e t).clock = t) (reads : ∀ t, (e t).input? = some input)
    (idle : ∀ t, d.step S host (e t) = (d, [])) :
    Follows S host cfg load d (fx, rd, ins ++ [input]) := by
  obtain ⟨last, event⟩ := follows.event
  have next := event (e last) [] (.inl ⟨rfl, clock last⟩)
  rw [idle, reads] at next
  simpa using next

/-- A peer that was looked up, with its index. -/
theorem indexed_eq_some {α : Type} {found : Option Nat} {l : List α} {i : Nat} {a : α} :
    (found.bind fun i => l[i]?.map fun a => (i, a)) = some (i, a) ↔
      found = some i ∧ l[i]? = some a := by
  rw [Option.bind_eq_some_iff]
  constructor
  · rintro ⟨j, hj, get⟩
    obtain ⟨b, hb, here⟩ := Option.map_eq_some_iff.mp get
    cases here
    exact ⟨hj, hb⟩
  · rintro ⟨hi, get⟩
    exact ⟨i, hi, by rw [get]; rfl⟩

theorem findPeerByAddr_get {peers : List PeerSession} {source : SockAddr} {i : Nat}
    (found : findPeerByAddr peers source = some i) : ∃ ps, peers[i]? = some ps := by
  obtain ⟨bound, _⟩ := List.findIdx?_eq_some_iff_getElem.mp found
  exact ⟨peers[i], List.getElem?_eq_getElem bound⟩

/-- A read that failed is no event. -/
theorem readFailed_follows {component : Bytes} {line : Errno → List Piece}
    (follows : Follows S host cfg load d (fx, rd, ins)) :
    Cmd.wp observe (do
      let error ← errno
      if error ≠ eintr then
        logWarn component (line error)
      return d : Proc Daemon) (fun d' _ m => Follows S host cfg load d' m) s (fx, rd, ins) := by
  refine errno_observe fun error => ?_
  split
  · exact log_observe fun error => follows
  · exact follows

/-- A packet that no peer is found for. -/
theorem tun_unrouted {packet : Bytes} {clock : UInt64} {ok : Bool}
    (unrouted : (((routingParseIpv4Dest (packet.take maxPacketSize)).bind
      (routingFindPeerForDest host (d.peers.map PeerSession.config))).bind fun i =>
        d.peers[i]?.map fun ps => (i, ps)) = none) : d.tun S host packet clock ok = (d, []) := by
  unfold Daemon.tun
  dsimp only
  cases hdest : routingParseIpv4Dest (packet.take maxPacketSize) with
  | none => rfl
  | some dest =>
    cases hroute : routingFindPeerForDest host (d.peers.map PeerSession.config) dest with
    | none => simp only [hroute]
    | some i =>
      have none : d.peers[i]? = none := by simpa [hdest, hroute] using unrouted
      simp only [hroute, none]

theorem tunBranch_follows (follows : Follows S host node.cfg load d (fx, rd, ins)) :
    Cmd.wp observe (tunBranch S host node d)
      (fun d' _ m => Follows S host node.cfg load d' m) s (fx, rd, ins) := by
  unfold tunBranch
  refine Cmd.wp_bind.mpr (Cmd.wp_bind.mpr (wp_sys.mpr fun packet error => ?_))
  cases packet with
  | none =>
    refine ⟨(fx, rd, ins), ?_, readFailed_follows follows⟩
    simp [observe, both, record, effect?, reading?, input?]
  | some packet =>
    refine ⟨(fx, rd, ins ++ [.packet packet]), ?_, ?_⟩
    · simp [observe, both, record, effect?, reading?, input?]
    refine Cmd.wp_pure.mpr ?_
    dsimp only [Option.map_some]
    rw [← follows.configs]
    split
    · next empty =>
      refine log_observe fun error => follows.idle (.tun packet · false) (fun _ => rfl)
        (fun _ => rfl) fun _ => tun_unrouted ?_
      simp only [List.length_map, List.length_eq_zero_iff] at empty
      simp [empty]
    · split
      · next unrouted =>
        exact log_observe fun error => follows.idle (.tun packet · false) (fun _ => rfl)
          (fun _ => rfl) fun _ => tun_unrouted unrouted
      · next i ps routed =>
        obtain ⟨route, get⟩ := indexed_eq_some.mp routed
        obtain ⟨dest, hdest, route⟩ := Option.bind_eq_some_iff.mp route
        obtain ⟨last, event⟩ := follows.event
        refine Cmd.wp_seq (forward_observe last node.cfg.name node.udp i _ ps) ?_
        rintro _ error _ ⟨clock, readings, reads, ok, rfl, rfl⟩
        have next := event (.tun packet clock ok) readings reads
        refine Cmd.wp_pure.mpr ?_
        simpa only [Daemon.step, Daemon.tun, hdest, route, get, setPeer, Event.input?,
          Option.toList_some] using next

theorem udpBranch_follows (follows : Follows S host node.cfg load d (fx, rd, ins)) :
    Cmd.wp observe (udpBranch S node d)
      (fun d' _ m => Follows S host node.cfg load d' m) s (fx, rd, ins) := by
  unfold udpBranch
  refine Cmd.wp_bind.mpr (Cmd.wp_bind.mpr (wp_sys.mpr fun received error => ?_))
  cases received with
  | none =>
    refine ⟨(fx, rd, ins), ?_, readFailed_follows follows⟩
    simp [observe, both, record, effect?, reading?, input?]
  | some received =>
    obtain ⟨datagram, source⟩ := received
    refine ⟨(fx, rd, ins ++ [.datagram datagram source]), ?_, ?_⟩
    · simp [observe, both, record, effect?, reading?, input?]
    refine Cmd.wp_pure.mpr ?_
    dsimp only [Option.map_some]
    rw [← follows.length]
    -- what the branch does with the datagram if it does nothing
    have idle (kps : Nat → KeyPair) (h : ∀ t, d.udp S datagram source t kps false false = (d, [])) :
        Follows S host node.cfg load d (fx, rd, ins ++ [.datagram datagram source]) :=
      follows.idle (.udp datagram source · kps false false) (fun _ => rfl) (fun _ => rfl) h
    have kps : Nat → KeyPair := fun _ => ⟨Block.zero _, Block.zero _⟩
    split
    · next nobody =>
      exact log_observe fun error => idle kps fun t => by simp only [Daemon.udp, if_pos nobody]
    · next someone =>
      obtain ⟨last, event⟩ := follows.event
      split
      · next unattributed =>
        have unknown : findPeerByAddr d.peers source = none := by
          cases found : findPeerByAddr d.peers source with
          | none => rfl
          | some i =>
            obtain ⟨ps, get⟩ := findPeerByAddr_get found
            rw [indexed_eq_some.mpr ⟨found, get⟩] at unattributed
            cases unattributed
        split
        · next init =>
          refine Cmd.wp_mono (unknownInit_observe last node _ source d) ?_
          rintro _ error _ ⟨clock, readings, reads, ⟨kps, ok⟩, rfl, rfl⟩
          have next := event (.udp datagram source clock kps ok false) readings reads
          simpa only [Daemon.step, Daemon.udp, if_neg someone, unknown, if_pos init,
            Event.input?, Option.toList_some] using next
        · next other =>
          exact log_observe fun error => idle kps fun t => by
            simp only [Daemon.udp, if_neg someone, unknown, if_neg other]
      · next i ps attributed =>
        obtain ⟨found, get⟩ := indexed_eq_some.mp attributed
        refine Cmd.wp_seq (receive_observe last node.cfg.name node.tun node.udp i _ ps) ?_
        rintro _ error _ ⟨clock, readings, reads, ⟨kp, ok, tunOk⟩, rfl, rfl⟩
        have next := event (.udp datagram source clock (fun _ => kp) ok tunOk) readings reads
        refine Cmd.wp_pure.mpr ?_
        simpa only [Daemon.step, Daemon.udp, if_neg someone, found, get, setPeer, Event.input?,
          Option.toList_some] using next

theorem udpClose_unseen (fd : Int) : Cmd.Calls Sys.Unseen (udpClose fd) := by
  unfold udpClose
  split
  · exact .bind (sys_calls fun _ => ⟨rfl, rfl, rfl⟩) fun _ => .pure _
  · exact .pure _

theorem tunClose_unseen (dev : TunDevice) : Cmd.Calls Sys.Unseen (tunClose dev) := by
  unfold tunClose
  split
  · exact .bind (sys_calls fun _ => ⟨rfl, rfl, rfl⟩) fun _ => .pure _
  · exact .pure _

theorem logStats_unseen (name : Bytes) (peers : List PeerSession) :
    Cmd.Calls Sys.Unseen (logStats name peers) := by
  induction peers with
  | nil => exact .pure _
  | cons ps peers ih => exact .bind (logInfo_calls unseen_log ..) fun _ => ih

theorem timerPass_follows (follows : Follows S host node.cfg load d (fx, rd, ins)) :
    Cmd.wp observe (timerPass S node d)
      (fun d' _ m => Follows S host node.cfg load d' m) s (fx, rd, ins) := by
  unfold timerPass
  rw [← follows.length]
  split
  · next peered =>
    refine monotonicMs_observe fun now error => ?_
    refine Cmd.wp_seq (tickAll_observe node.cfg.name node.udp now d.peers 0) ?_
    rintro _ error _ ⟨env, rfl, rfl⟩
    obtain ⟨last, event⟩ := follows.event
    have next := event (.timer now env) [now] (.inr rfl)
    simp only [Daemon.step, Daemon.timer, if_pos peered, outside_append] at next
    split
    · next due =>
      refine unseen_observe (logStats_unseen ..) fun _ error => Cmd.wp_pure.mpr ?_
      simpa [due, Event.input?] using next
    · next early =>
      refine Cmd.wp_pure.mpr ?_
      simpa [early, Event.input?] using next
  · exact follows

theorem onReady_follows {ready : Prop} [Decidable ready] {branch : Daemon → Proc Daemon}
    (h : Follows S host node.cfg load d seen → Cmd.wp observe (branch d)
      (fun d' _ m => Follows S host node.cfg load d' m) s seen)
    (follows : Follows S host node.cfg load d seen) :
    Cmd.wp observe (onReady ready branch d)
      (fun d' _ m => Follows S host node.cfg load d' m) s seen := by
  unfold onReady
  split
  · exact h follows
  · exact follows

/-- One pass of the loop: up to three events. -/
theorem pass_follows (follows : Follows S host node.cfg load d seen) :
    Cmd.wp observe (pass S host node d)
      (fun r _ m => Follows S host node.cfg load r.1 m) s seen := by
  obtain ⟨fx, rd, ins⟩ := seen
  unfold pass
  refine sys_observe (fun _ => ⟨rfl, rfl, rfl⟩) fun polled error => ?_
  split
  · refine errno_observe fun error => ?_
    split
    · exact follows
    · exact log_observe fun error => follows
  · refine Cmd.wp_seq (onReady_follows tunBranch_follows follows) fun d error seen packet => ?_
    refine Cmd.wp_seq (onReady_follows udpBranch_follows packet) fun d error seen datagram => ?_
    exact Cmd.wp_seq (timerPass_follows datagram) fun d error seen timer => timer

/-- The loop, by induction over its passes. -/
theorem mainLoop_follows (node : Node) (passes : Nat)
    (follows : Follows S host node.cfg load d seen) :
    Cmd.wp observe (mainLoop S host node passes d)
      (fun r _ m => Follows S host node.cfg load r.1 m) s seen := by
  induction passes generalizing d s seen with
  | zero => exact follows
  | succ passes ih =>
    obtain ⟨fx, rd, ins⟩ := seen
    unfold mainLoop
    refine sys_observe (fun _ => ⟨rfl, rfl, rfl⟩) fun running error => ?_
    split
    · refine Cmd.wp_seq (pass_follows follows) fun r error seen passed => ?_
      obtain ⟨d, more⟩ := r
      dsimp only
      split
      · exact ih passed
      · exact passed
    · exact follows

/-! ## The start -/

/-- The answers where a peer was not reached. -/
def unreached : Boot where
  resolved := none
  kp := ⟨Block.zero _, Block.zero _⟩
  sent := false
  time := 0
  initialPair := ⟨Block.zero _, Block.zero _⟩
  clock := 0
  attemptClock := 0

/-- The first `n` sections were started, with these readings of the clock. -/
structure Started (S : Sodium) (privateKey : SecretKey) (sections : List ConfigPeer)
    (boots : Nat → Boot) (started : List (PeerSession × List Effect)) (readings : List UInt64) :
    Prop where
  start : (sections.mapIdx fun i config => startPeer S privateKey config (boots i)).mapM id =
    some started
  ordered : readings.Pairwise (· ≤ ·) → ∀ i, (boots i).clock ≤ (boots i).attemptClock ∧
    ((boots i).attemptClock = 0 ∨ (boots i).attemptClock ∈ readings)

theorem Started.nil (S : Sodium) (privateKey : SecretKey) :
    Started S privateKey [] (fun _ => unreached) [] [] :=
  ⟨rfl, fun _ _ => ⟨UInt64.le_refl _, .inl rfl⟩⟩

theorem Started.cons {privateKey : SecretKey} {config : ConfigPeer} {sections : List ConfigPeer}
    {boot : Boot} {boots : Nat → Boot} {started : List (PeerSession × List Effect)}
    {here readings : List UInt64} {first : PeerSession × List Effect}
    (start : startPeer S privateKey config boot = some first)
    (ordered : here.Pairwise (· ≤ ·) → boot.clock ≤ boot.attemptClock ∧ boot.attemptClock ∈ here)
    (rest : Started S privateKey sections boots started readings) :
    Started S privateKey (config :: sections) (fun | 0 => boot | i + 1 => boots i)
      (first :: started) (here ++ readings) := by
  constructor
  · simp [List.mapIdx_cons, List.mapM_cons, start, rest.start]
  · intro pairwise i
    obtain ⟨now, later, _⟩ := List.pairwise_append.mp pairwise
    cases i with
    | zero =>
      obtain ⟨le, mem⟩ := ordered now
      exact ⟨le, .inr (List.mem_append_left _ mem)⟩
    | succ i =>
      obtain ⟨le, mem⟩ := rest.ordered later i
      exact ⟨le, mem.imp_right (List.mem_append_right _)⟩

theorem Started.world {sections : List ConfigPeer} {boots : Nat → Boot}
    {started : List (PeerSession × List Effect)} {readings : List UInt64}
    (h : Started S cfg.privateKey sections boots started readings) (clock : UInt64) :
    World.start S { cfg with peers := sections } boots clock =
      some ⟨⟨started.map Prod.fst, clock⟩, started.flatMap Prod.snd, clock⟩ := by
  simp only [World.start, h.start]

theorem Started.booted {privateKey : SecretKey} {sections : List ConfigPeer} {boots : Nat → Boot}
    {started : List (PeerSession × List Effect)} {readings : List UInt64}
    (h : Started S privateKey sections boots started readings)
    (pairwise : readings.Pairwise (· ≤ ·))
    {clock : UInt64} (last : ∀ reading ∈ readings, reading ≤ clock) : BootsOrdered boots clock := by
  intro i
  obtain ⟨le, zero | mem⟩ := h.ordered pairwise i
  · exact ⟨le, zero ▸ UInt64.zero_le⟩
  · exact ⟨le, last _ mem⟩

/-- A peer's start, after its session. -/
theorem launch_observe (udp : Int) (config : ConfigPeer) {session : Session} {time : UInt64}
    {kp : KeyPair} {clock : UInt64}
    (init : EdgarVPN.sessionInit S config.role (cryptoDerivePublicKey S cfg.privateKey)
      cfg.privateKey config.publicKey time kp = some session) :
    Cmd.wp observe (launch S cfg udp config (PeerSession.fresh config session clock))
      (fun ps _ m => ∃ boot effects readings,
        startPeer S cfg.privateKey config boot = some (ps, effects) ∧
        m = (fx ++ outside effects, rd ++ readings, ins) ∧
        ((clock :: readings).Pairwise (· ≤ ·) →
          boot.clock ≤ boot.attemptClock ∧ boot.attemptClock ∈ clock :: readings)) s
      (fx, rd, ins) := by
  unfold launch
  split
  · next initiator =>
    refine monotonicMs_observe fun now error => ?_
    refine Cmd.wp_mono (initiateHandshake_observe cfg.name udp now _) ?_
    rintro _ error _ ⟨env, rfl, rfl⟩
    refine ⟨⟨env, time, kp, clock, now⟩, _, [now], ?_, rfl, fun ordered => ?_⟩
    · simp only [startPeer, init]
      rw [initiator]
    · exact ⟨(List.pairwise_cons.mp ordered).1 now (List.mem_singleton_self _),
        List.mem_cons_of_mem _ (List.mem_singleton_self _)⟩
  · next responder =>
    refine log_observe fun error => Cmd.wp_pure.mpr ?_
    refine ⟨⟨⟨none, kp, false⟩, time, kp, clock, clock⟩, [], [], ?_, by simp, fun _ => ?_⟩
    · simp only [startPeer, init]
      rw [responder]
    · exact ⟨UInt64.le_refl _, List.mem_cons_self ..⟩

/-- No keys can be derived with the peer of this section: `session_init` fails. -/
def Underivable (S : Sodium) (privateKey : SecretKey) (sections : List ConfigPeer) (n : Nat) :
    Prop :=
  ∃ config, sections[n]? = some config ∧
    cryptoDeriveSessionKeys S config.role (cryptoDerivePublicKey S privateKey) privateKey
      config.publicKey = none

/-- The peers, one after another: all of them, or those before the first whose session does not
initialise. -/
theorem startPeers_observe (udp : Int) (sections : List ConfigPeer) :
    Cmd.wp observe (startPeers S cfg udp sections) (fun r _ m =>
      ∃ n boots started readings,
        Started S cfg.privateKey (sections.take n) boots started readings ∧
        m = (fx ++ outside (started.flatMap Prod.snd), rd ++ readings, ins) ∧
        (∀ peers, r = some peers → n = sections.length ∧ peers = started.map Prod.fst) ∧
        (r = none → Underivable S cfg.privateKey sections n)) s
      (fx, rd, ins) := by
  induction sections generalizing s fx rd with
  | nil => exact ⟨0, _, [], [], .nil S cfg.privateKey, by simp, by simp, by simp⟩
  | cons config sections ih =>
    unfold startPeers sessionInit
    refine Cmd.wp_bind.mpr ?_
    split
    · next underivable =>
      refine Cmd.wp_pure.mpr (log_observe fun error => Cmd.wp_pure.mpr ?_)
      exact ⟨0, _, [], [], .nil S cfg.privateKey, by simp, by simp,
        fun _ => ⟨config, rfl, underivable⟩⟩
    · next keys derived =>
      refine sys_observe (fun _ => ⟨rfl, rfl, rfl⟩) fun time error => ?_
      refine sys_observe (fun _ => ⟨rfl, rfl, rfl⟩) fun kp error => Cmd.wp_pure.mpr ?_
      split
      · next failed => simp [EdgarVPN.sessionInit, derived] at failed
      · next session init =>
        refine monotonicMs_observe fun clock error => ?_
        refine Cmd.wp_seq (launch_observe udp config init) ?_
        rintro ps error _ ⟨boot, effects, here, start, rfl, ordered⟩
        refine Cmd.wp_seq ih ?_
        rintro peers error _ ⟨n, boots, started, readings, rest, rfl, all, gaveUp⟩
        have first := Started.cons start ordered rest
        cases peers with
        | none =>
          obtain ⟨section_, get, underivable⟩ := gaveUp rfl
          exact ⟨n + 1, _, _, _, first, by simp [outside_append], by simp,
            fun _ => ⟨section_, get, underivable⟩⟩
        | some peers =>
          obtain ⟨hn, hpeers⟩ := all peers rfl
          refine ⟨n + 1, _, _, _, first, by simp [outside_append], ?_, by simp⟩
          rintro _ ⟨⟩
          exact ⟨by rw [hn, List.length_cons], by rw [hpeers]; rfl⟩

/-! ## Serving -/

/-- What was handed to the kernel, and what was read after the start, are those of a run of the
machine: a run with all the peers of the configuration, or, where no keys can be derived with a
peer, the start of those before it, with the exit status 1 and no event. -/
def Refines (S : Sodium) (host : Endian) (cfg : Config) (load : List Input) (status : Option Nat)
    (seen : Seen) : Prop :=
  ∃ n boots clock w events,
    World.start S { cfg with peers := cfg.peers.take n } boots clock = some w ∧
    seen.1 = outside (events.foldl (World.step S host) w).log ∧
    seen.2.2 = load ++ events.filterMap Event.input? ∧
    (n < cfg.peers.length →
      events = [] ∧ status = some 1 ∧ Underivable S cfg.privateKey cfg.peers n) ∧
    (seen.2.1.Pairwise (· ≤ ·) → BootsOrdered boots clock ∧
      Runs.Admitted (World.step S host) (fun w e => e.Clocked w) w events)

theorem Follows.refines (follows : Follows S host cfg load d seen) (status : Option Nat) :
    Refines S host cfg load status seen := by
  obtain ⟨boots, clock, w, events, tracks⟩ := follows
  refine ⟨cfg.peers.length, boots, clock, w, events, ?_, tracks.outside.symm, tracks.inputs,
    fun lt => absurd lt (Nat.lt_irrefl _), tracks.ordered⟩
  rw [List.take_length]
  exact tracks.start

/-- The start gave up at a section. -/
theorem Started.refines {n : Nat} {boots : Nat → Boot} {started : List (PeerSession × List Effect)}
    {readings : List UInt64}
    (h : Started S cfg.privateKey (cfg.peers.take n) boots started readings)
    (underivable : Underivable S cfg.privateKey cfg.peers n) :
    Refines S host cfg load (some 1) (outside (started.flatMap Prod.snd), readings, load) := by
  -- no reading is after the last clock there is
  have last (reading : UInt64) : reading ≤ UInt64.ofNat (2 ^ 64 - 1) :=
    UInt64.le_iff_toNat_le.mpr (Nat.le_of_lt_succ reading.toNat_lt)
  exact ⟨n, boots, _, _, [], h.world _, rfl, (List.append_nil _).symm,
    fun _ => ⟨rfl, rfl, underivable⟩, fun pairwise =>
      ⟨h.booted pairwise fun reading _ => last reading, trivial⟩⟩

/-- The start went through, and the loop begins. -/
theorem Started.follows {boots : Nat → Boot} {started : List (PeerSession × List Effect)}
    {readings : List UInt64} (h : Started S cfg.privateKey cfg.peers boots started readings)
    (clock : UInt64) :
    Follows S host cfg load ⟨started.map Prod.fst, clock⟩
      (outside (started.flatMap Prod.snd), readings ++ [clock], load) := by
  refine ⟨boots, clock, _, [], h.world clock, rfl, rfl, (List.append_nil _).symm, ?_,
    fun pairwise => ?_⟩
  · exact List.mem_append_right _ (List.mem_singleton_self _)
  · obtain ⟨before, _, last⟩ := List.pairwise_append.mp pairwise
    exact ⟨h.booted before fun reading mem => last reading mem clock (List.mem_singleton_self _),
      trivial⟩

theorem serve_refines (passes : Nat) (tun : TunDevice) (udp : Int) :
    Cmd.wp observe (serve S host passes cfg tun udp)
      (fun status _ m => Refines S host cfg load status m) s ([], [], load) := by
  have close {seen} (s : Errno) (status : Nat)
      (refined : Refines S host cfg load (some status) seen) :
      Cmd.wp observe (do
        let _ ← udpClose udp
        let _ ← tunClose tun
        return some status : Proc (Option Nat))
        (fun status _ m => Refines S host cfg load status m) s seen := by
    refine unseen_observe (udpClose_unseen udp) fun _ error => ?_
    exact unseen_observe (tunClose_unseen tun) fun _ error => refined
  unfold serve
  refine Cmd.wp_seq (startPeers_observe udp cfg.peers) ?_
  rintro peers error _ ⟨n, boots, started, readings, here, rfl, all, gaveUp⟩
  cases peers with
  | none => exact close error 1 (here.refines (gaveUp rfl))
  | some peers =>
    obtain ⟨rfl, rfl⟩ := all peers rfl
    rw [List.take_length] at here
    refine log_observe fun error => monotonicMs_observe fun clock error => ?_
    refine Cmd.wp_seq (mainLoop_follows ⟨cfg, tun, udp⟩ passes (here.follows clock)) ?_
    rintro ⟨d, ended⟩ error ⟨fx, rd, ins⟩ follows
    dsimp only
    split
    · exact log_observe fun error => close error 0 (follows.refines _)
    · exact follows.refines _

/-! ## `main` -/

theorem failClosing_unseen (fd : Int) : Cmd.Calls Sys.Unseen (failClosing fd) :=
  .bind errno_calls fun _ => .bind (sys_calls fun _ => ⟨rfl, rfl, rfl⟩) fun _ => setErrno_calls

theorem tunOpen_unseen (nameHint : Bytes) : Cmd.Calls Sys.Unseen (tunOpen nameHint) := by
  unfold tunOpen
  refine .bind (sys_calls fun _ => ⟨rfl, rfl, rfl⟩) fun fd => ?_
  split
  · exact .pure _
  · refine .bind (sys_calls fun _ => ⟨rfl, rfl, rfl⟩) fun result => ?_
    split
    split
    · exact .bind (failClosing_unseen _) fun _ => .pure _
    · exact .pure _

theorem setIfreqIpv4_unseen (text : Bytes) : Cmd.Calls Sys.Unseen (setIfreqIpv4 text) := by
  unfold setIfreqIpv4
  split
  · exact .bind setErrno_calls fun _ => .pure _
  · exact .pure _

theorem tunConfigure_unseen (dev : TunDevice) (ipv4Address netmask : Bytes) :
    Cmd.Calls Sys.Unseen (tunConfigure dev ipv4Address netmask) := by
  have fail (sock : Int) : Cmd.Calls Sys.Unseen (do failClosing sock; return false : Proc Bool) :=
    .bind (failClosing_unseen sock) fun _ => .pure _
  unfold tunConfigure
  refine .bind (sys_calls fun _ => ⟨rfl, rfl, rfl⟩) fun sock => ?_
  split
  · exact .pure _
  refine .bind (setIfreqIpv4_unseen _) fun addr => ?_
  cases addr with
  | none => exact fail sock
  | some addr =>
    refine .bind (sys_calls fun _ => ⟨rfl, rfl, rfl⟩) fun result => ?_
    dsimp only
    split
    · exact fail sock
    refine .bind (setIfreqIpv4_unseen _) fun mask => ?_
    cases mask with
    | none => exact fail sock
    | some mask =>
      refine .bind (sys_calls fun _ => ⟨rfl, rfl, rfl⟩) fun result => ?_
      split
      · exact fail sock
      refine .bind (sys_calls fun _ => ⟨rfl, rfl, rfl⟩) fun flags => ?_
      split
      · exact fail sock
      refine .bind (sys_calls fun _ => ⟨rfl, rfl, rfl⟩) fun result => ?_
      split
      · exact fail sock
      exact .bind (sys_calls fun _ => ⟨rfl, rfl, rfl⟩) fun _ => .pure _

theorem udpBind_unseen (port : UInt16) : Cmd.Calls Sys.Unseen (udpBind port) := by
  unfold udpBind
  refine .bind (sys_calls fun _ => ⟨rfl, rfl, rfl⟩) fun fd => ?_
  split
  · exact .pure _
  · refine .bind (sys_calls fun _ => ⟨rfl, rfl, rfl⟩) fun ret => ?_
    split
    · exact .bind (failClosing_unseen _) fun _ => .pure _
    · exact .pure _

theorem withConfig_refines (passes : Nat) (cfg : Config) :
    Cmd.wp observe (withConfig S host passes cfg)
      (fun status _ m => status = some 1 ∧ m = ([], [], load) ∨ Refines S host cfg load status m)
      s ([], [], load) := by
  unfold withConfig
  refine unseen_observe (tunOpen_unseen cfg.tunName) fun result error => ?_
  obtain ⟨tun, opened⟩ := result
  dsimp only
  split
  · exact errno_observe fun error => log_observe fun error => .inl ⟨rfl, rfl⟩
  refine unseen_observe (tunConfigure_unseen tun cfg.tunAddress cfg.tunNetmask) fun ok error => ?_
  split
  · refine errno_observe fun error => log_observe fun error => ?_
    exact unseen_observe (tunClose_unseen tun) fun _ error => .inl ⟨rfl, rfl⟩
  refine unseen_observe (udpBind_unseen cfg.listenPort) fun result error => ?_
  obtain ⟨udp, bound⟩ := result
  dsimp only
  split
  · refine errno_observe fun error => log_observe fun error => ?_
    exact unseen_observe (tunClose_unseen tun) fun _ error => .inl ⟨rfl, rfl⟩
  exact Cmd.wp_mono (serve_refines passes tun udp) fun _ _ _ refined => .inr refined

/-- The process gave up before its peers: it ends with the exit status 1, and it has sent and
written nothing, has not looked at the clock, and has read nothing but, at most, its file. -/
structure GaveUp (path : Bytes) (status : Option Nat) (seen : Seen) : Prop where
  status : status = some 1
  silent : seen.1 = []
  unclocked : seen.2.1 = []
  unread : ∀ input ∈ seen.2.2, ∃ contents, input = .file path contents

theorem main_observe (S : Sodium) (host : Endian) (strerror : Errno → Bytes)
    (configFile : Option Bytes) (passes : Nat) :
    Cmd.wp observe (main S host strerror configFile passes) (fun status _ m =>
      GaveUp (configPath configFile) status m ∨
      ∃ contents cfg, EdgarVPN.configLoad S host (.ok contents) = .ok cfg ∧
        Refines S host cfg [.file (configPath configFile) contents] status m) s ([], [], []) := by
  have nothing : GaveUp (configPath configFile) (some 1) ([], [], []) :=
    ⟨rfl, rfl, rfl, fun _ mem => absurd mem List.not_mem_nil⟩
  have loaded (contents : Bytes) : GaveUp (configPath configFile) (some 1)
      ([], [], [.file (configPath configFile) contents]) :=
    ⟨rfl, rfl, rfl, fun _ mem => ⟨contents, List.mem_singleton.mp mem⟩⟩
  unfold main
  refine sys_observe (fun _ => ⟨rfl, rfl, rfl⟩) fun _ error => ?_
  refine sys_observe (fun _ => ⟨rfl, rfl, rfl⟩) fun _ error => ?_
  refine sys_observe (fun _ => ⟨rfl, rfl, rfl⟩) fun initialized error => ?_
  split
  · exact log_observe fun error => .inl nothing
  unfold configLoad
  refine Cmd.wp_bind.mpr (Cmd.wp_bind.mpr (wp_sys.mpr fun contents error => ?_))
  cases contents with
  | none =>
    refine ⟨([], [], []), rfl, errno_observe fun error => ?_⟩
    exact sys_observe (fun _ => ⟨rfl, rfl, rfl⟩) fun _ error => Cmd.wp_pure.mpr (.inl nothing)
  | some contents =>
    refine ⟨([], [], [.file (configPath configFile) contents]), rfl, errno_observe fun error => ?_⟩
    dsimp only
    split
    · refine sys_observe (fun _ => ⟨rfl, rfl, rfl⟩) fun _ error => ?_
      exact Cmd.wp_pure.mpr (.inl (loaded contents))
    · next cfg load =>
      refine Cmd.wp_pure.mpr (Cmd.wp_mono (withConfig_refines passes cfg) ?_)
      rintro _ _ _ (⟨rfl, rfl⟩ | refined)
      · exact .inl (loaded contents)
      · exact .inr ⟨contents, cfg, load, refined⟩

end Process

open Process in
/-- **The process runs the event loop.** Whatever the system answers, and for every number of
passes: the configuration file was read and loads, and the process is a run of the machine of
`Daemon.Loop`. It hands to `sendto` and `write` what that run hands to them, with the results and in
order, and the packets and datagrams it reads are those of the run's events. If the readings of the
clock do not go back, neither do the events.

There are two exceptions, and both end with the exit status 1. Before its peers are started the
process may give up (`GaveUp`): then nothing was sent or written, the clock was not read, and no
packet or datagram was. And where no keys can be derived with a peer, the run is the start of the
peers before it, without an event. -/
theorem main_refines (S : Sodium) (host : Endian) (strerror : Errno → Bytes)
    (configFile : Option Bytes) (passes : Nat) (errno : Errno) (os : Os) :
    let trace := (run S host strerror configFile passes errno os).1
    let status := (run S host strerror configFile passes errno os).2.1
    GaveUp (configPath configFile) status (Seen.of trace) ∨
      ∃ contents cfg, configLoad S host (.ok contents) = .ok cfg ∧
        Refines S host cfg [.file (configPath configFile) contents] status (Seen.of trace) := by
  intro trace status
  obtain ⟨made, m, htrace, watched, post⟩ :=
    Prog.wp_exec os [] (main_observe (s := errno) S host strerror configFile passes)
  have same : trace = made := htrace
  rw [foldlM_observe watched, ← same] at post
  exact post

/-- The file of a node with one peer, which it responds to. -/
def servingFile : Bytes :=
  [ascii "[Interface]", ascii "Address = 10.8.0.1/24",
    ascii "PrivateKey = " ++ Reference.base64Encode (referencePair 2).sk.bytes, ascii "[Peer]",
    ascii "Endpoint = peer:51820",
    ascii "PublicKey = " ++ Reference.base64Encode (referencePair 1).pk.bytes,
    ascii "Role = responder", ascii "AllowedIPs = 10.0.1.0/24"].flatMap fun line => line ++ [10]

/-- The passes of the loop so far. -/
def passesMade (past : List (Entry Sys Sys.Answer)) : Nat :=
  past.countP fun entry => decide (entry.1 = .running)

/-- A system on which everything succeeds. The first pass has an init of the peer, the second a
packet for it, and then a signal ends the loop. -/
def servingOs : Os := fun past c => match c with
  | .sigaction _ => (0, 0)
  | .sodiumInit => (0, 0)
  | .readFile _ => (some servingFile, 0)
  | .printError _ => ((), 0)
  | .openTun => (3, 0)
  | .ioctl _ (.tunSetIff name _) => ((0, name), 0)
  | .ioctl _ (.siocSIfAddr _ _) => ((0, ()), 0)
  | .ioctl _ (.siocSIfNetmask _ _) => ((0, ()), 0)
  | .ioctl _ (.siocGIfFlags _) => ((0, 0), 0)
  | .ioctl _ (.siocSIfFlags _ _) => ((0, ()), 0)
  | .socket => (4, 0)
  | .bind _ _ => (0, 0)
  | .close _ => (0, 0)
  | .getaddrinfo _ => (none, 0)
  | .sendto _ message _ => (message.length, 0)
  | .recvfrom _ _ => (some (peerInit 1 7 (referencePair 5), sampleSource 9), 0)
  | .read _ _ => (some routedPacket, 0)
  | .write _ packet => (packet.length, 0)
  | .poll _ _ _ => (⟨1, passesMade past = 2, passesMade past = 1⟩, 0)
  | .clockGettime => (⟨past.length, 0⟩, 0)
  | .time => (100, 0)
  | .kxKeypair => (referencePair 30, 0)
  | .running => (passesMade past < 2, 0)
  | .log _ _ _ => (leapSecond, 0)

/-- The type of a message that was sent, where it was sent, and the result. -/
def Effect.sentAs? : Effect → Option (Option UInt8 × SockAddr × Bool)
  | .sent message dest ok => some (message.head?, dest, ok)
  | _ => none

open Process in
/-- It answers the init, forwards the packet, and its run is one of the machine. -/
theorem main_refines_serving :
    let trace := (run reference .little (fun _ => []) none 3 0 servingOs).1
    let status := (run reference .little (fun _ => []) none 3 0 servingOs).2.1
    status = some 0 ∧
    (Seen.of trace).1.filterMap Effect.sentAs? =
      [(some sessionMsgHandshakeResponse, sampleSource 9, true),
        (some sessionMsgData, sampleSource 9, true)] ∧
    ∃ contents cfg, configLoad reference .little (.ok contents) = .ok cfg ∧
      Refines reference .little cfg [.file (configPath none) contents] status (Seen.of trace) := by
  intro trace status
  have ended : status = some 0 := by decide +kernel
  refine ⟨ended, by decide +kernel, ?_⟩
  refine (main_refines reference .little (fun _ => []) none 3 0 servingOs).resolve_left ?_
  intro gaveUp
  cases gaveUp.status.symm.trans ended

end EdgarVPN
