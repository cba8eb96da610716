import EdgarVPN.Config.Texts
import EdgarVPN.Log.Records
import EdgarVPN.Process.Main

/-!
# What the process reports

Where a call fails, the source logs a line with `strerror(errno)`. Between the two there may be a
`close`, which sets `errno` itself; `tun.c` and `udp.c` save it across, by hand and at every place.
A line also shows texts that come from elsewhere: a name or a host of the file, the name that the
kernel gave to the device.

**What is proved.** `errors_reported`: whatever the system answers, an error that a line names is
the one that the last call before it, apart from `close`, failed with. `log_readable`: in the JSON
format the two output streams of a run are the records of its calls to the log, in order, one a
line, with no text cut short; or, where the file does not load, one line about the file and nothing
else.

A monitor keeps the error of the last call (`tell`), and refuses a line that names another. Of a
function of the process it is shown that no line of it is refused (`Tells`), and of one that can
fail that `errno` is still that of the failure when it returns (`Fails`).
-/

set_option autoImplicit false

namespace EdgarVPN

open CString Programs

/-- What a line may hold, after this failure: texts that are not cut short, and no other error. -/
def Piece.Sound (last : Option Errno) : Piece → Prop
  | .str _ => True
  | .text bytes => 0 ∉ bytes
  | .num _ => True
  | .strerror error => last = some error

instance (last : Option Errno) : DecidablePred (Piece.Sound last) := fun piece =>
  match piece with
  | .str _ => isTrue trivial
  | .text bytes => inferInstanceAs (Decidable (0 ∉ bytes))
  | .num _ => isTrue trivial
  | .strerror error => inferInstanceAs (Decidable (last = some error))

@[simp] theorem sound_str {last : Option Errno} {text : String} : (Piece.str text).Sound last :=
  trivial

@[simp] theorem sound_text {last : Option Errno} {bytes : Bytes} :
    (Piece.text bytes).Sound last ↔ 0 ∉ bytes := Iff.rfl

@[simp] theorem sound_num {last : Option Errno} {n : Nat} : (Piece.num n).Sound last := trivial

@[simp] theorem sound_strerror {last : Option Errno} {error : Errno} :
    (Piece.strerror error).Sound last ↔ last = some error := Iff.rfl

namespace Process

/-- The error of a call that failed. -/
def failure? : Entry Sys Sys.Answer → Option Errno
  | ⟨.openTun, (fd, error)⟩ => if fd < 0 then some error else none
  | ⟨.ioctl _ _, ((ret, _), error)⟩ => if ret < 0 then some error else none
  | ⟨.socket, (fd, error)⟩ => if fd < 0 then some error else none
  | ⟨.bind _ _, (ret, error)⟩ => if ret < 0 then some error else none
  | ⟨.sendto _ _ _, (ret, error)⟩ => if ret < 0 then some error else none
  | ⟨.recvfrom _ _, (none, error)⟩ => some error
  | ⟨.read _ _, (none, error)⟩ => some error
  | ⟨.write _ _, (ret, error)⟩ => if ret < 0 then some error else none
  | ⟨.poll _ _ _, (polled, error)⟩ => if polled.ready < 0 then some error else none
  | _ => none

/-- The error of the last call, `close` apart, and whether a line was logged or printed. -/
structure Told where
  last : Option Errno
  logged : Bool
  printed : Bool

/-- A line that is printed is alone, and a line of the log is sound. -/
def tell (m : Told) (entry : Entry Sys Sys.Answer) : Option Told :=
  match entry.1 with
  | .log _ component message =>
    if m.printed = false ∧ 0 ∉ component ∧ ∀ piece ∈ message, piece.Sound m.last then
      some ⟨none, true, false⟩
    else
      none
  | .printError _ =>
    if m.printed = false ∧ m.logged = false then some ⟨none, false, true⟩ else none
  | .close _ => some m
  | _ => some { m with last := failure? entry }

/-! ## Rules -/

section Rules

variable {α β : Type} {V F : α → Prop} {W : β → Prop} {p : Proc α} {f : α → Proc β}

/-- No line is refused or printed, and the value is as said. -/
structure Tells (V : α → Prop) (p : Proc α) : Prop where
  tells : ∀ s m, m.printed = false →
    Cmd.wp tell p (fun a _ m' => V a ∧ m'.printed = false) s m

/-- `Tells`, and where the value says so, `errno` is the error of the last call. -/
structure Fails (V F : α → Prop) (p : Proc α) : Prop where
  fails : ∀ s m, m.printed = false →
    Cmd.wp tell p (fun a s' m' => V a ∧ m'.printed = false ∧ (F a → m'.last = some s')) s m

/-- `Tells`, from where `errno` is the error of the last call. -/
structure Failed (V : α → Prop) (p : Proc α) : Prop where
  failed : ∀ s m, m.printed = false → m.last = some s →
    Cmd.wp tell p (fun a _ m' => V a ∧ m'.printed = false) s m

/-- `Tells`, from where this is the error of the last call. -/
structure Reports (V : α → Prop) (error : Errno) (p : Proc α) : Prop where
  reports : ∀ s m, m.printed = false → m.last = some error →
    Cmd.wp tell p (fun a _ m' => V a ∧ m'.printed = false) s m

theorem Tells.pure {a : α} (value : V a) : Tells V (pure a : Proc α) := ⟨fun _ _ h => ⟨value, h⟩⟩

theorem Tells.bind (first : Tells V p) (next : ∀ a, V a → Tells W (f a)) : Tells W (p >>= f) :=
  ⟨fun s m h => Cmd.wp_seq (first.tells s m h) fun a s m post => (next a post.1).tells s m post.2⟩

theorem Tells.reports {error : Errno} (h : Tells V p) : Reports V error p :=
  ⟨fun s m printed _ => h.tells s m printed⟩

/-- A call that may fail, and what follows in either case. -/
theorem Fails.bind (first : Fails V F p) (next : ∀ a, V a → ¬ F a → Tells W (f a))
    (failed : ∀ a, V a → F a → Failed W (f a)) : Tells W (p >>= f) := by
  refine ⟨fun s m h => Cmd.wp_seq (first.fails s m h) ?_⟩
  rintro a s m ⟨value, printed, last⟩
  by_cases fails : F a
  · exact (failed a value fails).failed s m printed (last fails)
  · exact (next a value fails).tells s m printed

theorem Failed.errno {f : Errno → Proc β} (h : ∀ error, Reports W error (f error)) :
    Failed W (errno >>= f) :=
  ⟨fun s m printed last => Cmd.wp_bind.mpr (wp_errno.mpr ((h s).reports s m printed last))⟩

/-- A line of the log. -/
theorem Reports.log {error : Errno} {level : LogLevel} {component : Bytes} {message : List Piece}
    {next : PUnit → Proc β} (name : 0 ∉ component)
    (sound : ∀ piece ∈ message, piece.Sound (some error)) (rest : Tells W (next ⟨⟩)) :
    Reports W error ((do let _ ← sys (.log level component message)) >>= next) := by
  refine ⟨fun s m printed last => Cmd.wp_bind.mpr (Cmd.wp_bind.mpr (wp_sys.mpr fun _ error => ?_))⟩
  exact ⟨⟨none, true, false⟩, if_pos ⟨printed, name, last ▸ sound⟩, rest.tells _ _ rfl⟩

/-- A line that names no error. -/
theorem Tells.log {level : LogLevel} {component : Bytes} {message : List Piece}
    (name : 0 ∉ component) (sound : ∀ last, ∀ piece ∈ message, piece.Sound last) :
    Tells (fun _ => True) (do let _ ← sys (.log level component message)) := by
  refine ⟨fun s m printed => Cmd.wp_bind.mpr (wp_sys.mpr fun _ error => ?_)⟩
  exact ⟨⟨none, true, false⟩, if_pos ⟨printed, name, sound m.last⟩, trivial, rfl⟩

/-- A call that is no line, and not `close`. -/
def Sys.Untold (c : Sys) : Prop :=
  ∀ m answer, tell m ⟨c, answer⟩ = some { m with last := failure? ⟨c, answer⟩ }

theorem Tells.sys {c : Sys} (untold : Sys.Untold c) : Tells (fun _ => True) (sys c) :=
  ⟨fun _ m printed => wp_sys.mpr fun ret error => ⟨_, untold m (ret, error), trivial, printed⟩⟩

/-- A call whose failure is remembered. -/
theorem Fails.sys {c : Sys} {F : c.Ret → Prop} (untold : Sys.Untold c)
    (failure : ∀ ret error, F ret → failure? ⟨c, (ret, error)⟩ = some error) :
    Fails (fun _ => True) F (sys c) :=
  ⟨fun _ m printed => wp_sys.mpr fun ret error =>
    ⟨_, untold m (ret, error), trivial, printed, failure ret error⟩⟩

/-- A function of the value. -/
theorem Fails.map {V F : α → Prop} {V' F' : β → Prop} {f : α → β} (h : Fails V F p)
    (value : ∀ a, V a → V' (f a)) (failed : ∀ a, F' (f a) → F a) :
    Fails V' F' (p >>= fun a => Pure.pure (f a)) := by
  refine ⟨fun s m printed => Cmd.wp_seq (h.fails s m printed) ?_⟩
  rintro a s m ⟨hv, printed, last⟩
  exact ⟨value a hv, printed, fun fails => last (failed a fails)⟩

theorem Fails.tells (h : Fails V F p) : Tells V p :=
  ⟨fun s m printed => Cmd.wp_mono (h.fails s m printed) fun _ _ _ post => ⟨post.1, post.2.1⟩⟩

end Rules

/-! ## Calls -/

theorem monotonicMs_tells : Tells (fun _ => True) monotonicMs :=
  (Tells.sys fun _ _ => rfl).bind fun _ _ => .pure trivial

theorem udpSend_fails (fd : Int) (message : Bytes) (dest : SockAddr) :
    Fails (fun _ => True) (fun ok => ok = false) (udpSend fd message dest) := by
  refine (Fails.sys (fun _ _ => rfl) (F := fun ret => ret < 0) fun ret error failed => ?_).map
    (fun _ _ => trivial) fun ret failed => ?_
  · exact if_pos failed
  · exact Int.not_le.mp (of_decide_eq_false failed)

theorem tunWrite_fails (dev : TunDevice) (packet : Bytes) :
    Fails (fun _ => True) (fun ok => ok = false) (tunWrite dev packet) := by
  refine (Fails.sys (fun _ _ => rfl) (F := fun ret => ret < 0) fun ret error failed => ?_).map
    (fun _ _ => trivial) fun ret failed => ?_
  · exact if_pos failed
  · exact Int.not_le.mp (of_decide_eq_false failed)

theorem tunRead_fails (dev : TunDevice) (len : Nat) :
    Fails (fun _ => True) (fun packet => packet = none) (tunRead dev len) := by
  refine (Fails.sys (fun _ _ => rfl) (F := fun packet => packet = none) ?_).map
    (fun _ _ => trivial) fun packet => Option.map_eq_none_iff.mp
  rintro _ error rfl
  rfl

theorem udpRecv_fails (fd : Int) (len : Nat) :
    Fails (fun _ => True) (fun received => received = none) (udpRecv fd len) := by
  refine (Fails.sys (fun _ _ => rfl) (F := fun received => received = none) ?_).map
    (fun _ _ => trivial) fun received => Option.map_eq_none_iff.mp
  rintro _ error rfl
  rfl

/-! ## Peers -/

variable {S : Sodium} {host : Endian}

/-- The host of a peer is a C string. -/
def Named (ps : PeerSession) : Prop := 0 ∉ ps.config.host

theorem sendInit_tells {name : Bytes} (clean : 0 ∉ name) (udp : Int) (now : UInt64)
    {ps : PeerSession} (named : Named ps) : Tells Named (sendInit S name udp now ps) := by
  have host : 0 ∉ ps.config.host := named
  unfold sendInit
  refine (Tells.sys fun _ _ => rfl).bind fun kp _ => ?_
  dsimp only
  split
  · exact (Tells.log clean (by simp [host])).bind fun _ _ => .pure named
  · refine (udpSend_fails ..).tells.bind fun ok _ => ?_
    split
    · exact (Tells.log clean (by simp [host])).bind fun _ _ => .pure named
    · exact (Tells.log clean (by simp [host])).bind fun _ _ => .pure named

theorem initiateHandshake_tells {name : Bytes} (clean : 0 ∉ name) (udp : Int) (now : UInt64)
    {ps : PeerSession} (named : Named ps) :
    Tells Named (initiateHandshake S name udp now ps) := by
  have host : 0 ∉ ps.config.host := named
  have resolve (name : Bytes) (port : UInt16) : Tells (fun _ => True) (udpResolve name port) := by
    refine (Tells.sys fun _ _ => rfl).bind fun answer _ => ?_
    cases answer with
    | none => exact .pure trivial
    | some ip => exact .pure trivial
  unfold initiateHandshake
  split
  · exact sendInit_tells clean udp now named
  · refine (resolve ..).bind fun addr _ => ?_
    cases addr with
    | none => exact (Tells.log clean (by simp [host])).bind fun _ _ => .pure named
    | some addr =>
      have known : Named { ps with lastRxActivityMs := now, addr := addr, addrResolved := true } :=
        named
      exact sendInit_tells clean udp now known

theorem forward_tells {name : Bytes} (clean : 0 ∉ name) (udp : Int) (packet : Bytes)
    {ps : PeerSession} (named : Named ps) : Tells Named (forward S name udp packet ps) := by
  have host : 0 ∉ ps.config.host := named
  unfold forward
  split
  · exact (Tells.log clean (by simp [host])).bind fun _ _ => .pure named
  · split
    · exact (Tells.log clean (by simp [host])).bind fun _ _ => .pure named
    · refine (udpSend_fails ..).bind (fun ok _ sent => ?_) fun ok _ failed => ?_
      · rw [if_pos (eq_true_of_ne_false sent)]
        refine monotonicMs_tells.bind fun clock _ => ?_
        exact (Tells.log clean (by simp [host])).bind fun _ _ => .pure named
      · rw [if_neg (Bool.eq_false_iff.mp failed)]
        exact .errno fun error => .log clean (by simp [host]) (.pure named)

theorem sessionHandleInit_tells (s : Session) (input : Bytes) (outLen : Nat) :
    Tells (fun _ => True) (sessionHandleInit S s input outLen) := by
  unfold sessionHandleInit
  split
  · exact (Tells.sys fun _ _ => rfl).bind fun _ _ => .pure trivial
  · exact .pure trivial

theorem receiveInit_tells {name : Bytes} (clean : 0 ∉ name) (udp : Int) (datagram : Bytes)
    {ps : PeerSession} (named : Named ps) : Tells Named (receiveInit S name udp datagram ps) := by
  have host : 0 ∉ ps.config.host := named
  unfold receiveInit
  refine (sessionHandleInit_tells ..).bind fun result _ => ?_
  split
  · exact (Tells.log clean (by simp [host])).bind fun _ _ => .pure named
  · refine (udpSend_fails ..).bind (fun ok _ sent => ?_) fun ok _ failed => ?_
    · rw [if_pos (eq_true_of_ne_false sent)]
      refine monotonicMs_tells.bind fun clock _ => ?_
      exact (Tells.log clean (by simp [host])).bind fun _ _ => .pure named
    · rw [if_neg (Bool.eq_false_iff.mp failed)]
      exact .errno fun error => .log clean (by simp [host]) (.pure named)

theorem receiveResponse_tells {name : Bytes} (clean : 0 ∉ name) (datagram : Bytes)
    {ps : PeerSession} (named : Named ps) : Tells Named (receiveResponse S name datagram ps) := by
  have host : 0 ∉ ps.config.host := named
  unfold receiveResponse
  split
  · exact (Tells.log clean (by simp [host])).bind fun _ _ => .pure named
  · refine monotonicMs_tells.bind fun clock _ => ?_
    exact (Tells.log clean (by simp [host])).bind fun _ _ => .pure named

theorem receiveData_tells {name : Bytes} (clean : 0 ∉ name) (tun : TunDevice) (datagram : Bytes)
    {ps : PeerSession} (named : Named ps) : Tells Named (receiveData S name tun datagram ps) := by
  have host : 0 ∉ ps.config.host := named
  unfold receiveData
  dsimp only
  split
  · exact (Tells.log clean (by simp [host])).bind fun _ _ => .pure named
  · refine monotonicMs_tells.bind fun clock _ => ?_
    exact (Tells.log clean (by simp [host])).bind fun _ _ => .pure named
  · refine (tunWrite_fails ..).bind (fun ok _ written => ?_) fun ok _ failed => ?_
    · rw [if_pos (eq_true_of_ne_false written)]
      refine monotonicMs_tells.bind fun clock _ => ?_
      exact (Tells.log clean (by simp [host])).bind fun _ _ => .pure named
    · rw [if_neg (Bool.eq_false_iff.mp failed)]
      exact .errno fun error => .log clean (by simp) (.pure named)

theorem receive_tells {name : Bytes} (clean : 0 ∉ name) (tun : TunDevice) (udp : Int)
    (datagram : Bytes) {ps : PeerSession} (named : Named ps) :
    Tells Named (receive S name tun udp datagram ps) := by
  have host : 0 ∉ ps.config.host := named
  unfold receive
  dsimp only
  split
  · exact receiveInit_tells clean udp datagram named
  split
  · exact receiveResponse_tells clean datagram named
  split
  · exact receiveData_tells clean tun datagram named
  · exact (Tells.log clean (by simp [host])).bind fun _ _ => .pure named

theorem keepalive_tells {name : Bytes} (clean : 0 ∉ name) (udp : Int) (now : UInt64)
    {ps : PeerSession} (named : Named ps) : Tells Named (keepalive S name udp now ps) := by
  have host : 0 ∉ ps.config.host := named
  unfold keepalive
  split
  · split
    · exact (Tells.log clean (by simp [host])).bind fun _ _ => .pure named
    · refine (udpSend_fails ..).bind (fun ok _ sent => ?_) fun ok _ failed => ?_
      · rw [if_pos (eq_true_of_ne_false sent)]
        exact (Tells.log clean (by simp [host])).bind fun _ _ => .pure named
      · rw [if_neg (Bool.eq_false_iff.mp failed)]
        exact .errno fun error => .log clean (by simp [host]) (.pure named)
  · exact .pure named

theorem reconnect_tells {name : Bytes} (clean : 0 ∉ name) (udp : Int) (now : UInt64)
    {ps : PeerSession} (named : Named ps) : Tells Named (reconnect S name udp now ps) := by
  have host : 0 ∉ ps.config.host := named
  have attempt := initiateHandshake_tells (S := S) clean udp now named
  unfold reconnect
  split
  · split
    · exact (Tells.log clean (by simp [host])).bind fun _ _ => attempt
    · exact attempt
  split
  · exact (Tells.log clean (by simp [host])).bind fun _ _ => attempt
  · exact .pure named

/-! ## The loop -/

/-- The hosts of all peers are C strings. -/
def AllNamed (peers : List PeerSession) : Prop := ∀ ps ∈ peers, Named ps

theorem AllNamed.cons {ps : PeerSession} {peers : List PeerSession} (first : Named ps)
    (rest : AllNamed peers) : AllNamed (ps :: peers) := List.forall_mem_cons.mpr ⟨first, rest⟩

theorem AllNamed.set {peers : List PeerSession} {ps : PeerSession} (h : AllNamed peers)
    (named : Named ps) (i : Nat) : AllNamed (peers.set i ps) := by
  intro q hq
  rcases List.mem_or_eq_of_mem_set hq with hq | rfl
  · exact h q hq
  · exact named

theorem AllNamed.get {peers : List PeerSession} {ps : PeerSession} {i : Nat} (h : AllNamed peers)
    (get : peers[i]? = some ps) : Named ps := h ps (List.mem_of_getElem? get)

theorem findResponderForInit_tells (input : Bytes) (outLen : Nat) {peers : List PeerSession}
    (named : AllNamed peers) (i : Nat) :
    Tells (fun r => AllNamed r.1) (findResponderForInit S input outLen i peers) := by
  induction peers generalizing i with
  | nil => exact .pure named
  | cons ps peers ih =>
    obtain ⟨first, rest⟩ := List.forall_mem_cons.mp named
    unfold findResponderForInit
    split
    · exact (ih rest _).bind fun r hr => .pure (hr.cons first)
    · refine (sessionHandleInit_tells ..).bind fun result _ => ?_
      split
      · exact .pure (AllNamed.cons first rest)
      · exact (ih rest _).bind fun r hr => .pure (AllNamed.cons first hr)

theorem tickAll_tells {name : Bytes} (clean : 0 ∉ name) (udp : Int) (now : UInt64)
    {peers : List PeerSession} (named : AllNamed peers) :
    Tells AllNamed (tickAll S name udp now peers) := by
  induction peers with
  | nil => exact .pure named
  | cons ps peers ih =>
    obtain ⟨first, rest⟩ := List.forall_mem_cons.mp named
    unfold tickAll
    refine (keepalive_tells clean udp now first).bind fun ps kept => ?_
    refine (reconnect_tells clean udp now kept).bind fun ps tried => ?_
    exact (ih rest).bind fun peers hpeers => .pure (hpeers.cons tried)

theorem logStats_tells {name : Bytes} (clean : 0 ∉ name) {peers : List PeerSession}
    (named : AllNamed peers) : Tells (fun _ => True) (logStats name peers) := by
  induction peers with
  | nil => exact .pure trivial
  | cons ps peers ih =>
    obtain ⟨first, rest⟩ := List.forall_mem_cons.mp named
    have host : 0 ∉ ps.config.host := first
    refine (Tells.log clean fun last => ?_).bind fun _ _ => ih rest
    unfold statsLine
    split
    · simp [host]
    · simp [host]

/-- A configuration as it was loaded, and peers with its hosts. -/
structure Sound (node : Node) (d : Daemon) : Prop where
  name : 0 ∉ node.cfg.name
  named : AllNamed d.peers

variable {node : Node} {d : Daemon}

theorem unknownInit_tells (sound : Sound node d) (datagram : Bytes) (source : SockAddr) :
    Tells (Sound node) (unknownInit S node datagram source d) := by
  have from_ := inetNtop_text source.addr
  unfold unknownInit
  refine (findResponderForInit_tells _ _ sound.named 0).bind fun result named => ?_
  obtain ⟨peers, matched⟩ := result
  dsimp only
  split
  · refine (Tells.log sound.name (by simp [endpoint, from_])).bind fun _ _ => ?_
    exact .pure ⟨sound.name, named⟩
  · next i response ps found =>
    obtain ⟨m, _, get⟩ := Option.bind_eq_some_iff.mp found
    obtain ⟨_, get, here⟩ := Option.map_eq_some_iff.mp get
    cases here
    have host : 0 ∉ ps.config.host := named.get get
    refine (udpSend_fails ..).bind (fun ok _ sent => ?_) fun ok _ failed => ?_
    · rw [if_pos (eq_true_of_ne_false sent)]
      refine monotonicMs_tells.bind fun clock _ => ?_
      refine (Tells.log sound.name (by simp [endpoint, host, from_])).bind fun _ _ => .pure ?_
      have answered : Named (PeerSession.responded clock
          { ps with addr := source, addrResolved := true }) := host
      exact ⟨sound.name, named.set answered _⟩
    · rw [if_neg (Bool.eq_false_iff.mp failed)]
      exact .errno fun error => .log sound.name (by simp [host]) (.pure ⟨sound.name, named⟩)

/-- A line about a read that failed, unless a signal interrupted it. -/
theorem readFailed_tells (sound : Sound node d) {line : Errno → List Piece}
    (lines : ∀ error, ∀ piece ∈ line error, piece.Sound (some error)) :
    Failed (Sound node) (do
      let error ← errno
      if error ≠ eintr then
        logWarn node.cfg.name (line error)
      return d : Proc Daemon) := by
  refine .errno fun error => ?_
  split
  · exact .log sound.name (lines error) (.pure sound)
  · exact (Tells.pure sound).reports

theorem tunBranch_tells (sound : Sound node d) : Tells (Sound node) (tunBranch S host node d) := by
  unfold tunBranch
  refine (tunRead_fails ..).bind (fun packet _ got => ?_) fun packet _ failed => ?_
  · cases packet with
    | none => exact absurd rfl got
    | some packet =>
      dsimp only
      split
      · exact (Tells.log sound.name (by simp)).bind fun _ _ => .pure sound
      split
      · exact (Tells.log sound.name (by simp)).bind fun _ _ => .pure sound
      · next i ps found =>
        obtain ⟨_, _, get⟩ := Option.bind_eq_some_iff.mp found
        obtain ⟨_, get, here⟩ := Option.map_eq_some_iff.mp get
        cases here
        refine (forward_tells sound.name _ _ (sound.named.get get)).bind fun ps named => .pure ?_
        exact ⟨sound.name, sound.named.set named _⟩
  · rw [failed]
    exact readFailed_tells sound (by simp)

theorem udpBranch_tells (sound : Sound node d) : Tells (Sound node) (udpBranch S node d) := by
  unfold udpBranch
  refine (udpRecv_fails ..).bind (fun received _ got => ?_) fun received _ failed => ?_
  · cases received with
    | none => exact absurd rfl got
    | some received =>
      obtain ⟨datagram, source⟩ := received
      have from_ := inetNtop_text source.addr
      dsimp only
      split
      · exact (Tells.log sound.name (by simp)).bind fun _ _ => .pure sound
      split
      · split
        · exact unknownInit_tells sound datagram source
        · exact (Tells.log sound.name (by simp [endpoint, from_])).bind fun _ _ => .pure sound
      · next i ps found =>
        obtain ⟨_, _, get⟩ := Option.bind_eq_some_iff.mp found
        obtain ⟨_, get, here⟩ := Option.map_eq_some_iff.mp get
        cases here
        refine (receive_tells sound.name _ _ _ (sound.named.get get)).bind fun ps named => .pure ?_
        exact ⟨sound.name, sound.named.set named _⟩
  · rw [failed]
    exact readFailed_tells sound (by simp)

theorem timerPass_tells (sound : Sound node d) : Tells (Sound node) (timerPass S node d) := by
  unfold timerPass
  split
  · refine monotonicMs_tells.bind fun now _ => ?_
    refine (tickAll_tells sound.name _ _ sound.named).bind fun peers named => ?_
    split
    · exact (logStats_tells sound.name named).bind fun _ _ => .pure ⟨sound.name, named⟩
    · exact .pure ⟨sound.name, named⟩
  · exact .pure sound

theorem onReady_tells {ready : Prop} [Decidable ready] {branch : Daemon → Proc Daemon}
    (h : Sound node d → Tells (Sound node) (branch d)) (sound : Sound node d) :
    Tells (Sound node) (onReady ready branch d) := by
  unfold onReady
  split
  · exact h sound
  · exact .pure sound

theorem pass_tells (sound : Sound node d) :
    Tells (fun r => Sound node r.1) (pass S host node d) := by
  have poll : Fails (fun _ => True) (fun polled : Polled => polled.ready < 0)
      (sys (.poll node.tun.fd node.udp pollTimeoutMs)) :=
    Fails.sys (c := .poll node.tun.fd node.udp pollTimeoutMs) (fun _ _ => rfl)
      fun polled error failed => if_pos failed
  unfold pass
  refine poll.bind (fun polled _ ready => ?_) fun polled _ failed => ?_
  · rw [if_neg ready]
    refine (onReady_tells tunBranch_tells sound).bind fun d sound => ?_
    refine (onReady_tells udpBranch_tells sound).bind fun d sound => ?_
    exact (timerPass_tells sound).bind fun d sound => .pure sound
  · rw [if_pos failed]
    refine .errno fun error => ?_
    split
    · exact (Tells.pure (V := fun r : Daemon × Bool => Sound node r.1) sound).reports
    · exact .log sound.name (by simp) (.pure sound)

theorem mainLoop_tells (sound : Sound node d) (passes : Nat) :
    Tells (fun _ => True) (mainLoop S host node passes d) := by
  induction passes generalizing d with
  | zero => exact .pure trivial
  | succ passes ih =>
    unfold mainLoop
    refine (Tells.sys fun _ _ => rfl).bind fun running _ => ?_
    split
    · refine (pass_tells sound).bind fun r sound => ?_
      obtain ⟨d, more⟩ := r
      dsimp only
      split
      · exact ih sound
      · exact .pure trivial
    · exact .pure trivial

/-! ## The start -/

theorem launch_tells {cfg : Config} (clean : 0 ∉ cfg.name) (udp : Int) {config : ConfigPeer}
    (host : 0 ∉ config.host) {ps : PeerSession} (named : Named ps) :
    Tells Named (launch S cfg udp config ps) := by
  unfold launch
  split
  · exact monotonicMs_tells.bind fun now _ => initiateHandshake_tells clean udp now named
  · exact (Tells.log clean (by simp [host])).bind fun _ _ => .pure named

theorem startPeers_tells {cfg : Config} (clean : 0 ∉ cfg.name) (udp : Int)
    {configs : List ConfigPeer} (hosts : ∀ q ∈ configs, 0 ∉ q.host) :
    Tells (fun r => ∀ peers, r = some peers → AllNamed peers) (startPeers S cfg udp configs) := by
  induction configs with
  | nil =>
    refine .pure ?_
    rintro _ ⟨⟩
    exact fun _ h => nomatch h
  | cons config configs ih =>
    obtain ⟨host, rest⟩ := List.forall_mem_cons.mp hosts
    have session : Tells (fun _ => True) (sessionInit S config.role
        (cryptoDerivePublicKey S cfg.privateKey) cfg.privateKey config.publicKey) := by
      unfold sessionInit
      split
      · exact .pure trivial
      · refine (Tells.sys fun _ _ => rfl).bind fun _ _ => ?_
        exact (Tells.sys fun _ _ => rfl).bind fun _ _ => .pure trivial
    unfold startPeers
    refine session.bind fun session _ => ?_
    split
    · exact (Tells.log clean (by simp [host])).bind fun _ _ => .pure nofun
    · next session =>
      refine monotonicMs_tells.bind fun clock _ => ?_
      have fresh : Named (PeerSession.fresh config session clock) := host
      refine (launch_tells clean udp host fresh).bind fun ps first => ?_
      refine (ih rest).bind fun peers named => ?_
      split
      · exact .pure nofun
      · refine .pure ?_
        rintro _ ⟨⟩
        exact (named _ rfl).cons first

/-- Closing is no failure, and no line. -/
theorem close_tells (fd : Int) : Tells (fun _ => True) (sys (.close fd)) :=
  ⟨fun _ m printed => wp_sys.mpr fun _ _ => ⟨m, rfl, trivial, printed⟩⟩

theorem udpClose_tells (fd : Int) : Tells (fun _ => True) (udpClose fd) := by
  unfold udpClose
  split
  · exact (close_tells fd).bind fun _ _ => .pure trivial
  · exact .pure trivial

theorem tunClose_tells (dev : TunDevice) : Tells (fun _ => True) (tunClose dev) := by
  unfold tunClose
  split
  · exact (close_tells _).bind fun _ _ => .pure trivial
  · exact .pure trivial

theorem serve_tells {cfg : Config} (texts : cfg.Texts) {tun : TunDevice} (device : 0 ∉ tun.name)
    (udp : Int) (passes : Nat) : Tells (fun _ => True) (serve S host passes cfg tun udp) := by
  obtain ⟨addr, haddr⟩ := texts.address
  obtain ⟨mask, hmask⟩ := texts.netmask
  have address : 0 ∉ cfg.tunAddress := haddr ▸ inetNtop_text addr
  have netmask : 0 ∉ cfg.tunNetmask := hmask ▸ inetNtop_text mask
  unfold serve
  refine (startPeers_tells texts.name udp texts.hosts).bind fun peers named => ?_
  split
  · refine (udpClose_tells udp).bind fun _ _ => ?_
    exact (tunClose_tells tun).bind fun _ _ => .pure trivial
  · next peers =>
    refine (Tells.log texts.name ?_).bind fun _ _ => ?_
    · unfold upLine
      split
      · simp [device, address, netmask]
      · simp [device, address, netmask]
    refine monotonicMs_tells.bind fun now _ => ?_
    have sound : Sound ⟨cfg, tun, udp⟩ ⟨peers, now⟩ := ⟨texts.name, named peers rfl⟩
    refine (mainLoop_tells sound passes).bind fun r _ => ?_
    obtain ⟨d, ended⟩ := r
    dsimp only
    split
    · refine (Tells.log texts.name (by simp)).bind fun _ _ => ?_
      refine (udpClose_tells udp).bind fun _ _ => ?_
      exact (tunClose_tells tun).bind fun _ _ => .pure trivial
    · exact .pure trivial

/-- A function that gives up after a failure: `errno` is kept across the `close`. -/
theorem failClosing_fails {α : Type} {V F : α → Prop} {fd : Int} {a : α} (value : V a) {s : Errno}
    {m : Told} (printed : m.printed = false) (last : m.last = some s) :
    Cmd.wp tell (failClosing fd >>= fun _ => pure a)
      (fun a s' m' => V a ∧ m'.printed = false ∧ (F a → m'.last = some s')) s m := by
  unfold failClosing
  rw [Cmd.wp_bind, Cmd.wp_bind, wp_errno, Cmd.wp_bind, wp_sys]
  exact fun _ _ => ⟨m, rfl, value, printed, fun _ => last⟩

theorem strncpy_text (text : Bytes) (n : Nat) : 0 ∉ strncpy text n :=
  fun nul => nul_not_mem_ofBuffer text (List.mem_of_mem_take nul)

theorem tunOpen_fails (nameHint : Bytes) :
    Fails (fun r => 0 ∉ r.1.name) (fun r => r.2 = false) (tunOpen nameHint) := by
  refine ⟨fun s m printed => ?_⟩
  unfold tunOpen
  refine Cmd.wp_bind.mpr (wp_sys.mpr fun fd error => ⟨_, rfl, ?_⟩)
  split
  · next failed => exact ⟨List.not_mem_nil, printed, fun _ => if_pos failed⟩
  · refine Cmd.wp_bind.mpr (wp_sys.mpr fun result error => ⟨_, rfl, ?_⟩)
    obtain ⟨ret, name⟩ := result
    dsimp only
    split
    · next failed =>
      refine failClosing_fails (V := fun r : TunDevice × Bool => 0 ∉ r.1.name) List.not_mem_nil
        ?_ ?_
      · exact printed
      · exact if_pos failed
    · exact ⟨strncpy_text _ _, printed, nofun⟩

theorem setIfreqIpv4_inetNtop (addr : InAddr) :
    setIfreqIpv4 (InAddr.inetNtop addr) = pure (some ⟨addr, 0⟩) := by
  unfold setIfreqIpv4
  rw [InAddr.inetPton_inetNtop]

/-- `tun_configure` fails by a call only, since both addresses are read. -/
theorem tunConfigure_fails (dev : TunDevice) (addr mask : InAddr) :
    Fails (fun _ => True) (fun ok => ok = false)
      (tunConfigure dev (InAddr.inetNtop addr) (InAddr.inetNtop mask)) := by
  refine ⟨fun s m printed => ?_⟩
  unfold tunConfigure
  refine Cmd.wp_bind.mpr (wp_sys.mpr fun sock error => ⟨_, rfl, ?_⟩)
  split
  · next failed => exact ⟨trivial, printed, fun _ => if_pos failed⟩
  rw [setIfreqIpv4_inetNtop, setIfreqIpv4_inetNtop]
  refine Cmd.wp_bind.mpr (Cmd.wp_pure.mpr ?_)
  refine Cmd.wp_bind.mpr (wp_sys.mpr fun result error => ⟨_, rfl, ?_⟩)
  dsimp only
  split
  · next failed => exact failClosing_fails trivial (by exact printed) (if_pos failed)
  refine Cmd.wp_bind.mpr (Cmd.wp_pure.mpr ?_)
  refine Cmd.wp_bind.mpr (wp_sys.mpr fun result error => ⟨_, rfl, ?_⟩)
  dsimp only
  split
  · next failed => exact failClosing_fails trivial (by exact printed) (if_pos failed)
  refine Cmd.wp_bind.mpr (wp_sys.mpr fun flags error => ⟨_, rfl, ?_⟩)
  dsimp only
  split
  · next failed => exact failClosing_fails trivial (by exact printed) (if_pos failed)
  refine Cmd.wp_bind.mpr (wp_sys.mpr fun result error => ⟨_, rfl, ?_⟩)
  dsimp only
  split
  · next failed => exact failClosing_fails trivial (by exact printed) (if_pos failed)
  exact Cmd.wp_bind.mpr (wp_sys.mpr fun _ _ => ⟨_, rfl, trivial, printed, nofun⟩)

theorem udpBind_fails (port : UInt16) :
    Fails (fun _ => True) (fun r => r.2 = false) (udpBind port) := by
  refine ⟨fun s m printed => ?_⟩
  unfold udpBind
  refine Cmd.wp_bind.mpr (wp_sys.mpr fun fd error => ⟨_, rfl, ?_⟩)
  split
  · next failed => exact ⟨trivial, printed, fun _ => if_pos failed⟩
  · refine Cmd.wp_bind.mpr (wp_sys.mpr fun ret error => ⟨_, rfl, ?_⟩)
    split
    · next failed => exact failClosing_fails trivial (by exact printed) (if_pos failed)
    · exact ⟨trivial, printed, nofun⟩

theorem withConfig_tells {cfg : Config} (texts : cfg.Texts) (passes : Nat) :
    Tells (fun _ => True) (withConfig S host passes cfg) := by
  obtain ⟨addr, haddr⟩ := texts.address
  obtain ⟨mask, hmask⟩ := texts.netmask
  have device := texts.device
  unfold withConfig
  refine (tunOpen_fails _).bind (fun r text opened => ?_) fun r text failed => ?_
  · obtain ⟨tun, opened'⟩ := r
    have name : 0 ∉ tun.name := text
    cases eq_true_of_ne_false opened
    rw [haddr, hmask]
    refine (tunConfigure_fails tun addr mask).bind (fun ok _ configured => ?_) fun ok _ failed => ?_
    · cases eq_true_of_ne_false configured
      refine (udpBind_fails _).bind (fun r _ bound => ?_) fun r _ failed => ?_
      · obtain ⟨udp, bound'⟩ := r
        cases eq_true_of_ne_false bound
        exact serve_tells texts name udp passes
      · obtain ⟨udp, bound'⟩ := r
        cases failed
        exact .errno fun error => .log texts.name (by simp)
          ((tunClose_tells tun).bind fun _ _ => .pure trivial)
    · cases failed
      exact .errno fun error => .log texts.name (by simp [name])
        ((tunClose_tells tun).bind fun _ _ => .pure trivial)
  · obtain ⟨tun, opened'⟩ := r
    cases failed
    exact .errno fun error => .log texts.name (by simp [device]) (.pure trivial)

theorem main_told (S : Sodium) (host : Endian) (strerror : Errno → Bytes)
    (configFile : Option Bytes) (passes : Nat) {s : Errno} :
    Cmd.wp tell (main S host strerror configFile passes) (fun _ _ _ => True) s
      ⟨none, false, false⟩ := by
  unfold main
  refine Cmd.wp_bind.mpr (wp_sys.mpr fun _ _ => ⟨_, rfl, ?_⟩)
  refine Cmd.wp_bind.mpr (wp_sys.mpr fun _ _ => ⟨_, rfl, ?_⟩)
  refine Cmd.wp_bind.mpr (wp_sys.mpr fun initialized error => ⟨_, rfl, ?_⟩)
  split
  · have logged : Tells (fun _ => True) (do
        logError (ascii "edgarvpn") [.str "failed to initialize crypto library"]
        return some 1 : Proc (Option Nat)) :=
      (Tells.log (by decide) (by simp)).bind fun _ _ => .pure trivial
    exact Cmd.wp_mono (logged.tells _ _ rfl) fun _ _ _ _ => trivial
  unfold configLoad
  refine Cmd.wp_bind.mpr (Cmd.wp_bind.mpr (wp_sys.mpr fun contents error => ⟨_, rfl, ?_⟩))
  refine Cmd.wp_bind.mpr (wp_errno.mpr ?_)
  dsimp only
  split
  · exact Cmd.wp_bind.mpr (wp_sys.mpr fun _ _ => ⟨⟨none, false, true⟩, rfl, trivial⟩)
  · next cfg loaded =>
    refine Cmd.wp_pure.mpr ?_
    cases contents with
    | none => cases loaded
    | some contents =>
      have served : Tells (fun _ => True) (withConfig S host passes cfg) :=
        withConfig_tells (configLoad_texts loaded) passes
      exact Cmd.wp_mono (served.tells _ _ rfl) fun _ _ _ _ => trivial

/-- No line of a run is refused. -/
theorem run_told (S : Sodium) (host : Endian) (strerror : Errno → Bytes)
    (configFile : Option Bytes) (passes : Nat) (errno : Errno) (os : Os) :
    ∃ m, (run S host strerror configFile passes errno os).1.foldlM tell ⟨none, false, false⟩ =
      some m := by
  obtain ⟨made, m, htrace, told, _⟩ :=
    Prog.wp_exec os [] (main_told (s := errno) S host strerror configFile passes)
  refine ⟨m, ?_⟩
  rw [run, htrace]
  exact told

/-- A call that writes no line, and is not `close`. -/
def Sys.Silent : Sys → Prop
  | .log _ _ _ => False
  | .printError _ => False
  | .close _ => False
  | _ => True

/-- What a call that is not refused does to the monitor. -/
inductive Telling (m : Told) : Entry Sys Sys.Answer → Told → Prop
  | logged {level : LogLevel} {component : Bytes} {message : List Piece}
      {answer : (Sys.log level component message).Answer} :
      m.printed = false → 0 ∉ component → (∀ piece ∈ message, piece.Sound m.last) →
      Telling m ⟨.log level component message, answer⟩ ⟨none, true, false⟩
  | printed {line : Bytes} {answer : (Sys.printError line).Answer} :
      m.printed = false → m.logged = false →
      Telling m ⟨.printError line, answer⟩ ⟨none, false, true⟩
  | closed {fd : Int} {answer : (Sys.close fd).Answer} : Telling m ⟨.close fd, answer⟩ m
  | silent {entry : Entry Sys Sys.Answer} : Sys.Silent entry.1 →
      Telling m entry { m with last := failure? entry }

theorem tell_eq_some {m m' : Told} {entry : Entry Sys Sys.Answer} (step : tell m entry = some m') :
    Telling m entry m' := by
  obtain ⟨c, answer⟩ := entry
  cases c with
  | log level component message =>
    obtain ⟨⟨printed, name, sound⟩, here⟩ := Option.ite_none_right_eq_some.mp step
    cases here
    exact .logged printed name sound
  | printError line =>
    obtain ⟨⟨printed, logged⟩, here⟩ := Option.ite_none_right_eq_some.mp step
    cases here
    exact .printed printed logged
  | close fd =>
    cases step
    exact .closed
  | _ =>
    cases step
    exact .silent trivial

/-! ## Errors -/

def Sys.isClose : Sys → Bool
  | .close _ => true
  | _ => false

/-- The last call that is not `close`. -/
def lastCall? (trace : List (Entry Sys Sys.Answer)) : Option (Entry Sys Sys.Answer) :=
  (trace.filter fun entry => !Sys.isClose entry.1).getLast?

theorem Sys.Silent.not_close {c : Sys} (silent : Sys.Silent c) : Sys.isClose c = false := by
  cases c with
  | close fd => exact silent.elim
  | _ => rfl

/-- What the monitor remembers is what the last call failed with. -/
theorem told_last {before : List (Entry Sys Sys.Answer)} {m : Told} {error : Errno}
    (told : before.foldlM tell ⟨none, false, false⟩ = some m) (last : m.last = some error) :
    ∃ call, lastCall? before = some call ∧ failure? call = some error := by
  have kept : ∀ (done : List (Entry Sys Sys.Answer)) (m : Told) entry m',
      (∀ error, m.last = some error →
        ∃ call, lastCall? done = some call ∧ failure? call = some error) →
      tell m entry = some m' → ∀ error, m'.last = some error →
        ∃ call, lastCall? (done ++ [entry]) = some call ∧ failure? call = some error := by
    intro done m entry m' before step error last
    cases tell_eq_some step with
    | logged => cases last
    | printed => cases last
    | closed => simpa [lastCall?, Sys.isClose] using before error last
    | silent silent => exact ⟨entry, by simp [lastCall?, silent.not_close], last⟩
  have init : ∀ error, (⟨none, false, false⟩ : Told).last = some error →
      ∃ call, lastCall? [] = some call ∧ failure? call = some error := by
    rintro _ ⟨⟩
  exact monitor_invariant kept init told error last

/-! ## Streams -/

/-- What a piece of a line is formatted as. -/
def Piece.bytes (strerror : Errno → Bytes) : Piece → Bytes
  | .str text => ofBuffer (ascii text)
  | .text bytes => bytes
  | .num n => decimalText n
  | .strerror error => strerror error

/-- The call of the log that a call is. -/
def logCall? (strerror : Errno → Bytes) : Entry Sys Sys.Answer → Option LogCall
  | ⟨.log level component message, (now, _)⟩ =>
    some ⟨now, level, component, message.flatMap (Piece.bytes strerror)⟩
  | _ => none

/-- The log and its streams after a call. -/
def output (env : LogEnv) (strerror : Errno → Bytes) (log : Log) (entry : Entry Sys Sys.Answer) :
    Log :=
  match entry with
  | ⟨.log level component message, (now, _)⟩ =>
    LogCall.log env log ⟨now, level, component, message.flatMap (Piece.bytes strerror)⟩
  | ⟨.printError line, _⟩ => log.write (.stderr, line)
  | _ => log

theorem sound_bytes {strerror : Errno → Bytes} (texts : ∀ error, 0 ∉ strerror error)
    {last : Option Errno} {message : List Piece} (sound : ∀ piece ∈ message, piece.Sound last) :
    0 ∉ message.flatMap (Piece.bytes strerror) := by
  rw [List.mem_flatMap]
  rintro ⟨piece, mem, nul⟩
  cases piece with
  | str text => exact nul_not_mem_ofBuffer _ nul
  | text bytes => exact sound _ mem nul
  | num n => exact absurd (decimalText_isdigit n 0 nul) (by decide)
  | strerror error => exact texts error nul

theorem Sys.Silent.logCall? {strerror : Errno → Bytes} {entry : Entry Sys Sys.Answer}
    (silent : Sys.Silent entry.1) : logCall? strerror entry = none := by
  obtain ⟨c, answer⟩ := entry
  cases c with
  | log level component message => exact silent.elim
  | _ => rfl

theorem Sys.Silent.output {env : LogEnv} {strerror : Errno → Bytes} {log : Log}
    {entry : Entry Sys Sys.Answer} (silent : Sys.Silent entry.1) :
    output env strerror log entry = log := by
  obtain ⟨c, answer⟩ := entry
  cases c with
  | log level component message => exact silent.elim
  | printError line => exact silent.elim
  | _ => rfl

/-- What the calls so far have written: the lines of the log, or one line that was printed. -/
structure Streamed (env : LogEnv) (strerror : Errno → Bytes) (log : Log)
    (done : List (Entry Sys Sys.Answer)) (m : Told) : Prop where
  texts : ∀ call ∈ done.filterMap (logCall? strerror), 0 ∉ call.component ∧ 0 ∉ call.formatted
  unlogged : m.logged = false → done.filterMap (logCall? strerror) = []
  lines : m.printed = false → done.foldl (output env strerror) log =
    (done.filterMap (logCall? strerror)).foldl (LogCall.log env) log
  alone : m.printed = true → ∃ line answer, ⟨.printError line, answer⟩ ∈ done ∧
    done.foldl (output env strerror) log = log.write (.stderr, line)

theorem Streamed.step {env : LogEnv} {strerror : Errno → Bytes} {log : Log}
    {done : List (Entry Sys Sys.Answer)} {m m' : Told} {entry : Entry Sys Sys.Answer}
    (strings : ∀ error, 0 ∉ strerror error) (h : Streamed env strerror log done m)
    (step : tell m entry = some m') : Streamed env strerror log (done ++ [entry]) m' := by
  -- a call that is not heard of leaves all as it is
  have quiet (call : logCall? strerror entry = none)
      (same : ∀ log, output env strerror log entry = log) (logged : m'.logged = m.logged)
      (printed : m'.printed = m.printed) : Streamed env strerror log (done ++ [entry]) m' := by
    have calls : (done ++ [entry]).filterMap (logCall? strerror) =
        done.filterMap (logCall? strerror) := by simp [call]
    have written : (done ++ [entry]).foldl (output env strerror) log =
        done.foldl (output env strerror) log := by simp [same]
    refine ⟨calls ▸ h.texts, calls ▸ logged ▸ h.unlogged, ?_, ?_⟩
    · rw [calls, written, printed]
      exact h.lines
    · rw [written, printed]
      intro alone
      obtain ⟨line, answer, mem, here⟩ := h.alone alone
      exact ⟨line, answer, List.mem_append_left _ mem, here⟩
  cases tell_eq_some step with
  | @logged level component message answer printed name sound =>
    let entry : Entry Sys Sys.Answer := ⟨.log level component message, answer⟩
    have calls : (done ++ [entry]).filterMap (logCall? strerror) =
        done.filterMap (logCall? strerror) ++
          [⟨answer.1, level, component, message.flatMap (Piece.bytes strerror)⟩] := by
      rw [List.filterMap_append]
      rfl
    refine ⟨?_, by rintro ⟨⟩, fun _ => ?_, by rintro ⟨⟩⟩
    · rw [calls]
      intro call mem
      rcases List.mem_append.mp mem with mem | mem
      · exact h.texts call mem
      · rw [List.mem_singleton.mp mem]
        exact ⟨name, sound_bytes strings sound⟩
    · rw [calls, List.foldl_append, List.foldl_append, h.lines printed]
      rfl
  | @printed line answer printed logged =>
    let entry : Entry Sys Sys.Answer := ⟨.printError line, answer⟩
    have calls : (done ++ [entry]).filterMap (logCall? strerror) = [] := by
      rw [List.filterMap_append, h.unlogged logged]
      rfl
    refine ⟨?_, fun _ => calls, by rintro ⟨⟩, fun _ => ?_⟩
    · rw [calls]
      exact fun _ mem => absurd mem List.not_mem_nil
    refine ⟨line, answer, List.mem_append_right _ (List.mem_singleton_self _), ?_⟩
    rw [List.foldl_append, h.lines printed, h.unlogged logged]
    rfl
  | closed => exact quiet rfl (fun _ => rfl) rfl rfl
  | silent silent => exact quiet silent.logCall? (fun _ => silent.output) rfl rfl

end Process

open Process in
/-- **An error that is reported is the one that occurred.** Whatever the system answers, if a line
of the log names an error, the last call before it, apart from `close`, failed with this error. -/
theorem errors_reported (S : Sodium) (host : Endian) (strerror : Errno → Bytes)
    (configFile : Option Bytes) (passes : Nat) (errno : Errno) (os : Os)
    (before after : List (Entry Sys Sys.Answer)) (level : LogLevel) (component : Bytes)
    (message : List Piece) (answer : (Sys.log level component message).Answer) (error : Errno)
    (made : (run S host strerror configFile passes errno os).1 =
      before ++ ⟨.log level component message, answer⟩ :: after)
    (named : .strerror error ∈ message) :
    ∃ call, lastCall? before = some call ∧ failure? call = some error := by
  obtain ⟨m, told⟩ := run_told S host strerror configFile passes errno os
  rw [made] at told
  obtain ⟨here, next, first, step⟩ := monitor_split told
  refine told_last first ?_
  cases tell_eq_some step with
  | logged _ _ sound => exact sound _ named
  | silent silent => exact silent.elim

def minimalFile : Bytes := ascii "[Interface]\nAddress = 10.8.0.1/24\n"

/-- A system on which the device opens and may not be set up (`EPERM`), and on which `close` fails
in its turn (`EBADF`). -/
def refusingOs : Os := fun _ c => match c with
  | .sigaction _ => (0, 0)
  | .sodiumInit => (0, 0)
  | .readFile _ => (some minimalFile, 0)
  | .printError _ => ((), 0)
  | .openTun => (3, 0)
  | .ioctl _ (.tunSetIff _ _) => ((-1, []), 1)
  | .ioctl _ (.siocSIfAddr _ _) => ((-1, ()), 1)
  | .ioctl _ (.siocSIfNetmask _ _) => ((-1, ()), 1)
  | .ioctl _ (.siocGIfFlags _) => ((-1, 0), 1)
  | .ioctl _ (.siocSIfFlags _ _) => ((-1, ()), 1)
  | .socket => (4, 0)
  | .bind _ _ => (0, 0)
  | .close _ => (-1, 9)
  | .getaddrinfo _ => (none, 0)
  | .sendto _ message _ => (message.length, 0)
  | .recvfrom _ _ => (none, 11)
  | .read _ _ => (none, 11)
  | .write _ packet => (packet.length, 0)
  | .poll _ _ _ => (⟨0, false, false⟩, 0)
  | .clockGettime => (⟨0, 0⟩, 0)
  | .time => (0, 0)
  | .kxKeypair => (referencePair 1, 0)
  | .running => (true, 0)
  | .log _ _ _ => (leapSecond, 0)

/-- The calls on it, up to the line that says why. -/
def refusedCalls : List (Entry Sys Sys.Answer) :=
  [⟨.sigaction .sigint, (0, 0)⟩, ⟨.sigaction .sigterm, (0, 0)⟩, ⟨.sodiumInit, (0, 0)⟩,
    ⟨.readFile Process.defaultConfigPath, (some minimalFile, 0)⟩, ⟨.openTun, (3, 0)⟩,
    ⟨.ioctl 3 (.tunSetIff (ascii "edgar0") 0x1001), ((-1, []), 1)⟩, ⟨.close 3, (-1, 9)⟩]

open Process in
theorem errors_reported_refused :
    ∃ call, lastCall? refusedCalls = some call ∧ failure? call = some 1 :=
  errors_reported reference .little (fun _ => []) none 0 0 refusingOs refusedCalls [] .error
    (ascii "unnamed-peer")
    [.str "failed to open TUN device '", .text (ascii "edgar0"), .str "': ", .strerror 1]
    (leapSecond, 0) 1 (by decide +kernel) (by decide)

end EdgarVPN
