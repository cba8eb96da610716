import EdgarVPN.Daemon.Loop
import EdgarVPN.Lib.Programs
import EdgarVPN.Log.Emit

/-!
# The daemon and its system: `src/tun.c`, `src/udp.c`

What `main.c` is made of below the level of events: the calls it makes to the kernel and to the
libraries, with what they return (`Sys`). A descriptor is an `int`, -1 where there is none, and a
result below 0 is a failure, as in the source. Every call leaves some value in `errno`, also one
that succeeds, and so does a call of the log; a process is a program over the calls that keeps
`errno` (`Proc`).

A line of the log is kept as its pieces, so that a statement can be about the error a line reports
and not only about its text (`Piece`). What `log.c` makes of it is `Log.Emit`.
-/

set_option autoImplicit false

namespace EdgarVPN

open CString Programs

/-! ## Calls -/

/-- A value of `errno`. -/
abbrev Errno := Int

def eintr : Errno := 4
def einval : Errno := 22

/-- The signals `main` handles. -/
inductive Signal where
  | sigint
  | sigterm
deriving DecidableEq

/-- A piece of a formatted line: text of the format, `%s` of a text, `%zd`, `%u` or `%llu` of a
number, or `%s` of what `strerror` returns for an error. -/
inductive Piece where
  | str (text : String)
  | text (bytes : Bytes)
  | num (n : Nat)
  | strerror (error : Errno)
deriving DecidableEq

/-- A request of `ioctl`, with the members of `struct ifreq` that the kernel reads for it. -/
inductive Request where
  | tunSetIff (name : Bytes) (flags : UInt16)
  | siocSIfAddr (name : Bytes) (addr : SockAddr)
  | siocSIfNetmask (name : Bytes) (addr : SockAddr)
  | siocGIfFlags (name : Bytes)
  | siocSIfFlags (name : Bytes) (flags : UInt16)
deriving DecidableEq

/-- The member of `struct ifreq` that the kernel writes for a request: the name of the device, or
its flags. -/
@[reducible] def Request.Written : Request → Type
  | .tunSetIff _ _ => Bytes
  | .siocGIfFlags _ => UInt16
  | _ => Unit

/-- `struct timespec`. -/
structure Timespec where
  sec : Int
  nsec : Int
deriving DecidableEq

/-- What `poll` returns: the result, and whether `POLLIN` is set for each of the two descriptors. -/
structure Polled where
  ready : Int
  tunIn : Bool
  udpIn : Bool
deriving DecidableEq

/-- A call. -/
inductive Sys where
  | sigaction (signal : Signal)
  | sodiumInit
  /-- `fopen`, `fgets` to the end, and `fclose`: the stream is not held across calls. -/
  | readFile (path : Bytes)
  /-- `fprintf(stderr, ...)`. -/
  | printError (line : Bytes)
  /-- `open("/dev/net/tun", O_RDWR)`. -/
  | openTun
  | ioctl (fd : Int) (request : Request)
  /-- `socket(AF_INET, SOCK_DGRAM, 0)`. -/
  | socket
  | bind (fd : Int) (addr : SockAddr)
  | close (fd : Int)
  | getaddrinfo (host : Bytes)
  | sendto (fd : Int) (message : Bytes) (dest : SockAddr)
  | recvfrom (fd : Int) (len : Nat)
  | read (fd : Int) (len : Nat)
  | write (fd : Int) (packet : Bytes)
  | poll (tun udp : Int) (timeout : Nat)
  | clockGettime
  | time
  | kxKeypair
  /-- The value of `g_running` that the loop reads: 0 after a signal. -/
  | running
  /-- `log_debug`, `log_info`, `log_warn` or `log_error`. -/
  | log (level : LogLevel) (component : Bytes) (message : List Piece)
deriving DecidableEq

/-- What a call returns. Bytes are `none` where the call returned -1, or `fopen` or `getaddrinfo`
had no result. The log returns nothing; the time is that of its line. -/
@[reducible] def Sys.Ret : Sys → Type
  | .sigaction _ => Int
  | .sodiumInit => Int
  | .readFile _ => Option Bytes
  | .printError _ => Unit
  | .openTun => Int
  | .ioctl _ request => Int × request.Written
  | .socket => Int
  | .bind _ _ => Int
  | .close _ => Int
  | .getaddrinfo _ => Option InAddr
  | .sendto _ _ _ => Int
  | .recvfrom _ _ => Option (Bytes × SockAddr)
  | .read _ _ => Option Bytes
  | .write _ _ => Int
  | .poll _ _ _ => Polled
  | .clockGettime => Timespec
  | .time => UInt64
  | .kxKeypair => KeyPair
  | .running => Bool
  | .log _ _ _ => Tm

deriving instance DecidableEq for Tm

instance (request : Request) : DecidableEq request.Written := match request with
  | .tunSetIff _ _ => inferInstanceAs (DecidableEq Bytes)
  | .siocSIfAddr _ _ => inferInstanceAs (DecidableEq Unit)
  | .siocSIfNetmask _ _ => inferInstanceAs (DecidableEq Unit)
  | .siocGIfFlags _ => inferInstanceAs (DecidableEq UInt16)
  | .siocSIfFlags _ _ => inferInstanceAs (DecidableEq Unit)

instance (c : Sys) : DecidableEq c.Ret := match c with
  | .sigaction _ => inferInstanceAs (DecidableEq Int)
  | .sodiumInit => inferInstanceAs (DecidableEq Int)
  | .readFile _ => inferInstanceAs (DecidableEq (Option Bytes))
  | .printError _ => inferInstanceAs (DecidableEq Unit)
  | .openTun => inferInstanceAs (DecidableEq Int)
  | .ioctl _ request => inferInstanceAs (DecidableEq (Int × request.Written))
  | .socket => inferInstanceAs (DecidableEq Int)
  | .bind _ _ => inferInstanceAs (DecidableEq Int)
  | .close _ => inferInstanceAs (DecidableEq Int)
  | .getaddrinfo _ => inferInstanceAs (DecidableEq (Option InAddr))
  | .sendto _ _ _ => inferInstanceAs (DecidableEq Int)
  | .recvfrom _ _ => inferInstanceAs (DecidableEq (Option (Bytes × SockAddr)))
  | .read _ _ => inferInstanceAs (DecidableEq (Option Bytes))
  | .write _ _ => inferInstanceAs (DecidableEq Int)
  | .poll _ _ _ => inferInstanceAs (DecidableEq Polled)
  | .clockGettime => inferInstanceAs (DecidableEq Timespec)
  | .time => inferInstanceAs (DecidableEq UInt64)
  | .kxKeypair => inferInstanceAs (DecidableEq KeyPair)
  | .running => inferInstanceAs (DecidableEq Bool)
  | .log _ _ _ => inferInstanceAs (DecidableEq Tm)

/-- The answer to a call: what it returns, and `errno` after it. -/
abbrev Sys.Answer (c : Sys) : Type := c.Ret × Errno

/-- A process: calls, and `errno`. -/
abbrev Proc := Cmd Sys Sys.Answer Errno

/-- An operating system, with the network and everything else around the process. -/
abbrev Os := Env Sys Sys.Answer

namespace Process

/-- Make a call. -/
def sys (c : Sys) : Proc c.Ret := fun _ => .call c .ret

def errno : Proc Errno := get

def setErrno (error : Errno) : Proc PUnit := set error

def logDebug (component : Bytes) (message : List Piece) : Proc PUnit := do
  let _ ← sys (.log .debug component message)

def logInfo (component : Bytes) (message : List Piece) : Proc PUnit := do
  let _ ← sys (.log .info component message)

def logWarn (component : Bytes) (message : List Piece) : Proc PUnit := do
  let _ ← sys (.log .warn component message)

def logError (component : Bytes) (message : List Piece) : Proc PUnit := do
  let _ ← sys (.log .error component message)

/-- The milliseconds of a reading, in 64 bits. -/
def Timespec.ms (ts : Timespec) : UInt64 :=
  UInt64.ofNat (ts.sec % 2 ^ 64).toNat * 1000 +
    UInt64.ofNat ((ts.nsec.tdiv 1000000) % 2 ^ 64).toNat

/-- `monotonic_ms`. -/
def monotonicMs : Proc UInt64 := do
  let ts ← sys .clockGettime
  return Timespec.ms ts

/-! ## `src/tun.c` -/

def iffTun : UInt16 := 0x0001
def iffNoPi : UInt16 := 0x1000
def iffUp : UInt16 := 0x1
def iffRunning : UInt16 := 0x40

/-- `strncpy` of `n` bytes into a larger buffer of zeros. -/
def strncpy (text : Bytes) (n : Nat) : Bytes := (ofBuffer text).take n

/-- `tun_device_t`. -/
structure TunDevice where
  fd : Int
  name : Bytes
deriving DecidableEq

/-- The end of every failed function that holds a descriptor: `close` does not change what `errno`
says of the failure. -/
def failClosing (fd : Int) : Proc PUnit := do
  let savedErrno ← errno
  let _ ← sys (.close fd)
  setErrno savedErrno

/-- `tun_open`: the device, and whether it returned 0. -/
def tunOpen (nameHint : Bytes) : Proc (TunDevice × Bool) := do
  let dev : TunDevice := ⟨-1, []⟩
  let fd ← sys .openTun
  if fd < 0 then
    return (dev, false)
  let name := if nameHint ≠ [] then strncpy nameHint (ifNameSize - 1) else []
  let (ret, name) ← sys (.ioctl fd (.tunSetIff name (iffTun ||| iffNoPi)))
  if ret < 0 then
    failClosing fd
    return (dev, false)
  return (⟨fd, strncpy name (ifNameSize - 1)⟩, true)

/-- `set_ifreq_ipv4`: the address, or `none` where it returned -1. -/
def setIfreqIpv4 (text : Bytes) : Proc (Option SockAddr) := do
  match InAddr.inetPton text with
  | none =>
    setErrno einval
    return none
  | some addr => return some ⟨addr, 0⟩

/-- `tun_configure`: whether it returned 0. -/
def tunConfigure (dev : TunDevice) (ipv4Address netmask : Bytes) : Proc Bool := do
  let sock ← sys .socket
  if sock < 0 then
    return false
  let name := strncpy dev.name (ifNameSize - 1)
  let some addr ← setIfreqIpv4 ipv4Address
    | do failClosing sock; return false
  let (ret, _) ← sys (.ioctl sock (.siocSIfAddr name addr))
  if ret < 0 then
    failClosing sock
    return false
  let some mask ← setIfreqIpv4 netmask
    | do failClosing sock; return false
  let (ret, _) ← sys (.ioctl sock (.siocSIfNetmask name mask))
  if ret < 0 then
    failClosing sock
    return false
  let (ret, flags) ← sys (.ioctl sock (.siocGIfFlags name))
  if ret < 0 then
    failClosing sock
    return false
  let (ret, _) ← sys (.ioctl sock (.siocSIfFlags name (flags ||| (iffUp ||| iffRunning))))
  if ret < 0 then
    failClosing sock
    return false
  let _ ← sys (.close sock)
  return true

/-- `tun_close`. -/
def tunClose (dev : TunDevice) : Proc TunDevice := do
  if dev.fd ≥ 0 then
    let _ ← sys (.close dev.fd)
    return { dev with fd := -1 }
  else
    return dev

/-! ## `src/udp.c` -/

/-- `udp_bind`: the descriptor, and whether it returned 0. -/
def udpBind (port : UInt16) : Proc (Int × Bool) := do
  let fd ← sys .socket
  if fd < 0 then
    return (-1, false)
  let ret ← sys (.bind fd ⟨InAddr.zero, port⟩)
  if ret < 0 then
    failClosing fd
    return (-1, false)
  return (fd, true)

/-- `udp_resolve`: the address, or `none` where it returned -1. -/
def udpResolve (host : Bytes) (port : UInt16) : Proc (Option SockAddr) := do
  match ← sys (.getaddrinfo host) with
  | none => return none
  | some ip => return some ⟨ip, port⟩

/-- `udp_send`: whether it returned a length. -/
def udpSend (fd : Int) (message : Bytes) (dest : SockAddr) : Proc Bool := do
  let ret ← sys (.sendto fd message dest)
  return decide (ret ≥ 0)

/-- `tun_write`: whether it returned a length. -/
def tunWrite (dev : TunDevice) (packet : Bytes) : Proc Bool := do
  let ret ← sys (.write dev.fd packet)
  return decide (ret ≥ 0)

/-- `tun_read`: the packet in the buffer, or `none` where it returned -1. -/
def tunRead (dev : TunDevice) (len : Nat) : Proc (Option Bytes) := do
  let packet ← sys (.read dev.fd len)
  return packet.map (List.take len)

/-- `udp_recv`: the datagram in the buffer with its source, or `none` where it returned -1. -/
def udpRecv (fd : Int) (len : Nat) : Proc (Option (Bytes × SockAddr)) := do
  let received ← sys (.recvfrom fd len)
  return received.map fun (datagram, source) => (datagram.take len, source)

/-- `udp_close`. -/
def udpClose (fd : Int) : Proc Int := do
  if fd ≥ 0 then
    let _ ← sys (.close fd)
    return -1
  else
    return fd

/-! ## Rules -/

section Rules

variable {M : Type} {step : M → Entry Sys Sys.Answer → Option M} {s : Errno} {m : M}

/-- A call, whatever its answer. -/
theorem wp_sys {c : Sys} {Q : c.Ret → Errno → M → Prop} : Cmd.wp step (sys c) Q s m ↔
    ∀ ret error, ∃ m', step m ⟨c, (ret, error)⟩ = some m' ∧ Q ret error m' :=
  ⟨fun h ret error => h (ret, error), fun h answer => h answer.1 answer.2⟩

theorem wp_errno {Q : Errno → Errno → M → Prop} : Cmd.wp step errno Q s m ↔ Q s s m := Iff.rfl

/-- A call that the monitor passes over. -/
theorem wp_sys_quiet {c : Sys} {Q : c.Ret → Errno → M → Prop}
    (quiet : ∀ answer, step m ⟨c, answer⟩ = some m) (post : ∀ ret error, Q ret error m) :
    Cmd.wp step (sys c) Q s m :=
  wp_sys.mpr fun ret error => ⟨m, quiet (ret, error), post ret error⟩

end Rules

section Calls

variable {P : Sys → Prop}

theorem sys_calls {c : Sys} (h : P c) : Cmd.Calls P (sys c) := ⟨fun _ => ⟨h, fun _ => trivial⟩⟩

theorem errno_calls : Cmd.Calls P errno := ⟨fun _ => trivial⟩

theorem setErrno_calls {error : Errno} : Cmd.Calls P (setErrno error) := ⟨fun _ => trivial⟩

variable (logs : ∀ level component message, P (.log level component message))
include logs

theorem logInfo_calls (component : Bytes) (message : List Piece) :
    Cmd.Calls P (logInfo component message) := .bind (sys_calls (logs ..)) fun _ => .pure _

end Calls

end Process

end EdgarVPN
