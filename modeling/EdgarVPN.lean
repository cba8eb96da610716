import EdgarVPN.Lib.Runs
import EdgarVPN.Lib.LittleEndian
import EdgarVPN.Lib.SlidingWindow
import EdgarVPN.Lib.CString
import EdgarVPN.Lib.Text
import EdgarVPN.Lib.Lines
import EdgarVPN.Lib.Dotted
import EdgarVPN.Lib.Prefix
import EdgarVPN.Lib.Json
import EdgarVPN.Crypto.Sodium
import EdgarVPN.Crypto.Packet
import EdgarVPN.Crypto.Reference
import EdgarVPN.Crypto.Codec
import EdgarVPN.Session.State
import EdgarVPN.Session.Handshake
import EdgarVPN.Session.Replay
import EdgarVPN.Session.Data
import EdgarVPN.Session.Calls
import EdgarVPN.Session.Nonces
import EdgarVPN.Session.Refusal
import EdgarVPN.Session.Stream
import EdgarVPN.Session.Window
import EdgarVPN.Session.Attempts
import EdgarVPN.Session.Ephemerals
import EdgarVPN.Relationship.System
import EdgarVPN.Relationship.Counters
import EdgarVPN.Relationship.Recovery
import EdgarVPN.Relationship.Agreement
import EdgarVPN.Relationship.StaticNonces
import EdgarVPN.Relationship.Delivery
import EdgarVPN.Relationship.Lives
import EdgarVPN.Relationship.Channel
import EdgarVPN.Config.Load
import EdgarVPN.Config.Lines
import EdgarVPN.Config.Values
import EdgarVPN.Config.Complete
import EdgarVPN.Config.Render
import EdgarVPN.Config.Comments
import EdgarVPN.Config.Strict
import EdgarVPN.Config.Texts
import EdgarVPN.Daemon.Routing
import EdgarVPN.Daemon.Peer
import EdgarVPN.Daemon.Loop
import EdgarVPN.Daemon.Did
import EdgarVPN.Daemon.Addresses
import EdgarVPN.Daemon.Sessions
import EdgarVPN.Daemon.Attribution
import EdgarVPN.Daemon.InitReplay
import EdgarVPN.Daemon.Rotation
import EdgarVPN.Daemon.Observed
import EdgarVPN.Daemon.Remembered
import EdgarVPN.Daemon.Destinations
import EdgarVPN.Daemon.Timers
import EdgarVPN.Daemon.Pacing
import EdgarVPN.Daemon.Insertion
import EdgarVPN.Daemon.Restart
import EdgarVPN.Daemon.Routes
import EdgarVPN.Daemon.Counted
import EdgarVPN.Log.Emit
import EdgarVPN.Log.Records
import EdgarVPN.Mesh.Operations
import EdgarVPN.Mesh.System
import EdgarVPN.Mesh.Integrity
import EdgarVPN.Mesh.Tunnel
import EdgarVPN.Mesh.Recovery
import EdgarVPN.Lib.Programs
import EdgarVPN.Process.System
import EdgarVPN.Process.Main
import EdgarVPN.Process.Descriptors
import EdgarVPN.Process.Refinement
import EdgarVPN.Process.Reports
