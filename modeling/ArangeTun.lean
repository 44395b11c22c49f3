import ArangeTun.Ports.Theorems
import ArangeTun.Admission.Theorems
import ArangeTun.Client.Theorems
import ArangeTun.Pck.Theorems
import ArangeTun.Mux.Theorems
import ArangeTun.Forward.Theorems
import ArangeTun.Wire.Theorems
import ArangeTun.Handshake.Theorems
import ArangeTun.Packet.Theorems
import ArangeTun.Spoof.Kcp
import ArangeTun.Spoof.Theorems
import ArangeTun.Xdi.Theorems
import ArangeTun.Steering.Theorems
import ArangeTun.UdpForward.Theorems
import ArangeTun.Quic.Theorems
import ArangeTun.UdpTransport.Theorems
import ArangeTun.Frp.Theorems
import ArangeTun.Sessions.Theorems
import ArangeTun.Rathole.Theorems
import ArangeTun.Rathole.Obfs
import ArangeTun.Metrics.Theorems
import ArangeTun.Relay.Handler
import ArangeTun.Socks.Agreement
import ArangeTun.Spoof.PipeTheorems
import ArangeTun.Manage.Backup
import ArangeTun.Client.PoolCount
import ArangeTun.Client.Isolation
import ArangeTun.Cmd.Edits
import ArangeTun.Manage.Restore
import ArangeTun.Tunnels.Failure
import ArangeTun.Tunnels.Ownership
import ArangeTun.Tunnels.Unchanged
import ArangeTun.Panel.TwoFactor
import ArangeTun.Panel.PasswordChange
import ArangeTun.Manage.Extract
import ArangeTun.Packet.Verifies
import ArangeTun.Spoof.Tiling
import ArangeTun.Pck.Growth
import ArangeTun.Pck.Send
import ArangeTun.Backends.Balance
import ArangeTun.Backends.Targets
import ArangeTun.UdpForward.Framed
import ArangeTun.Steering.Rotation
import ArangeTun.Socks.UdpHeader
import ArangeTun.Schedule.Crontab
import ArangeTun.Telegram.Alerts
import ArangeTun.Client.PoolLoop
import ArangeTun.Manage.Watchdog
import ArangeTun.Panel.Attempts
import ArangeTun.Panel.Rates
import ArangeTun.AlertHist.History
import ArangeTun.Manage.Announce
import ArangeTun.Network.CertReloader
import ArangeTun.Pck.Guard
import ArangeTun.Spoof.EchoSuppression
import ArangeTun.WireGuard.Server
import ArangeTun.WireGuard.Paste
import ArangeTun.Web.Sniffer
import ArangeTun.Manage.Rollback
import ArangeTun.Manage.Stopped
import ArangeTun.Pck.FrameTheorems
