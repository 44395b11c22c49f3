import ArangeTun.Go.Str

/-!
# A tunnel and its presets

`TunnelSpec` with the predicates on transports of internal/manage/config.go, `validName` of validate.go, and preset.go.
-/

namespace ArangeTun.Tunnels

open Go

/-! ## internal/manage/config.go -/

structure TunnelSpec where
  name : Str := []
  role : Str := []
  transport : Str := []
  preset : Str := []
  bindAddr : Str := []
  remoteAddr : Str := []
  token : Str := []
  ports : List Str := []
  loadBalance : Bool := false
  healthFailover : Bool := false
  fallbackAddrs : List Str := []
  nodelay : Bool := false
  heartbeat : Int := 0
  keepAlive : Int := 0
  channelSize : Int := 0
  connectionPool : Int := 0
  aggressivePool : Bool := false
  acceptUDP : Bool := false
  logLevel : Str := []
  logFormat : Str := []
  muxCon : Int := 0
  muxVersion : Int := 0
  muxFrameSize : Int := 0
  muxRecvBuffer : Int := 0
  muxStreamBuffer : Int := 0
  kcpMTU : Int := 0
  kcpInterval : Int := 0
  kcpResend : Int := 0
  kcpNoDelay : Int := 0
  kcpNoCongestion : Int := 0
  kcpSndWnd : Int := 0
  kcpRcvWnd : Int := 0
  kcpAckNoDelay : Bool := false
  kcpDataShards : Int := 0
  kcpParityShards : Int := 0
  spoofProfile : Str := []
  spoofUplink : Str := []
  spoofDownlink : Str := []
  spoofSrcIP : Str := []
  spoofSrcPool : List Str := []
  spoofPeerIP : Str := []
  spoofDstIP : Str := []
  spoofInterface : Str := []
  spoofPipe : Bool := false
  spoofPipeAddr : Str := []
  spoofSockBuf : Int := 0
  spoofPeerSrcIP : Str := []
  spoofICMPReply : Bool := false
  spoofMTU : Int := 0
  spoofTTLJitter : Bool := false
  spoofRandomDSCP : Bool := false
  spoofShufflePort : Bool := false
  spoofPortMin : Int := 0
  spoofPortMax : Int := 0
  spoofPadding : Bool := false
  spoofPaddingMax : Int := 0
  spoofFakeTLS : Bool := false
  pckInterface : Str := []
  pckGatewayMAC : Str := []
  pckFlags : List Str := []
  mss : Int := 0
  soRcvBuf : Int := 0
  soSndBuf : Int := 0
  proxyProtocol : Bool := false
  obfs : Str := []
  tlsSni : Str := []
  maxConnections : Int := 0
  bandwidthMbps : Int := 0
  sniffer : Bool := false
  webPort : Int := 0
  webBind : Str := []
  tlsCert : Str := []
  tlsKey : Str := []
  acmeDomain : Str := []
  acmeEmail : Str := []
  edgeIP : Str := []
  simpleAuth : Bool := false
  proxy : Str := []
  localAddr : Str := []
  interface : Str := []
  soMark : Int := 0
  zeroCopy : Bool := false
  deriving DecidableEq

def isMux (t : Str) : Bool :=
  t ∈ [lit "tcpmux", lit "wsmux", lit "wssmux", lit "kcp", lit "xdi", lit "spoof", lit "pck"]

def isKCP (t : Str) : Bool := t ∈ [lit "kcp", lit "xdi", lit "spoof", lit "pck"]

def isDatagram (t : Str) : Bool := t ∈ [lit "udp", lit "kcp", lit "xdi", lit "quic", lit "spoof", lit "pck"]

def supportsProxyProtocol (t : Str) : Bool :=
  t ∈ [lit "tcp", lit "tcpmux", lit "kcp", lit "pck", lit "wsmux", lit "wssmux", lit "stealth", lit "quic"]

def supportsMSS (t : Str) : Bool :=
  t ∈ [lit "tcp", lit "tcpmux", lit "stealth", lit "ws", lit "wss", lit "wsmux", lit "wssmux"]

def isWS (t : Str) : Bool := t ∈ [lit "ws", lit "wss", lit "wsmux", lit "wssmux"]

def needsTLS (t : Str) : Bool := t ∈ [lit "wss", lit "wssmux"]

def isReverseProxy (t : Str) : Bool := t ∈ [lit "frp", lit "frpu", lit "rathole", lit "ratholeu"]

def validTransport (t : Str) : Bool :=
  t ∈ [lit "tcp", lit "tcpmux", lit "udp", lit "kcp", lit "quic", lit "ws", lit "wss", lit "wsmux", lit "wssmux",
    lit "stealth", lit "xdi", lit "spoof", lit "pck", lit "frp", lit "frpu", lit "rathole", lit "ratholeu"]

theorem not_needsTLS_of_isReverseProxy {t : Str} (h : isReverseProxy t = true) : needsTLS t = false := by
  have hall : ∀ t ∈ [lit "frp", lit "frpu", lit "rathole", lit "ratholeu"], needsTLS t = false := by decide +kernel
  exact hall t (of_decide_eq_true h)

/-! ## internal/manage/validate.go -/

def nameByte (b : UInt8) : Bool :=
  (65 ≤ b ∧ b ≤ 90) ∨ (97 ≤ b ∧ b ≤ 122) ∨ (48 ≤ b ∧ b ≤ 57) ∨ b = byte '.' ∨ b = byte '_' ∨ b = byte '-'

def validName (name : Str) : Bool := name ≠ [] ∧ name.length ≤ 40 ∧ ∀ b ∈ name, nameByte b = true

/-! ## internal/manage/preset.go -/

def presetBalance : Str := lit "balance"
def presetTurbo : Str := lit "turbo"
def presetAggressive : Str := lit "aggressive"
def presetThroughput : Str := lit "throughput"

def validPreset (p : Str) : Bool := p ∈ [presetBalance, presetTurbo, presetAggressive, presetThroughput]

def presetSuitsTransport (preset transport : Str) : Bool := preset ≠ presetThroughput ∨ isKCP transport = true

structure Profile where
  keepAlive : Int
  heartbeat : Int
  channelSize : Int
  connectionPool : Int
  aggressivePool : Bool
  soRcvBuf : Int
  soSndBuf : Int
  muxCon : Int
  muxVersion : Int
  muxFrameSize : Int
  muxRecvBuffer : Int
  muxStreamBuffer : Int
  kcpInterval : Int
  kcpResend : Int
  kcpNoDelay : Int
  kcpNoCongestion : Int
  kcpSndWnd : Int
  kcpRcvWnd : Int
  kcpAckNoDelay : Bool
  kcpDataShards : Int
  kcpParityShards : Int
  deriving DecidableEq

def balance : Profile where
  keepAlive := 75
  heartbeat := 40
  channelSize := 2048
  connectionPool := 4
  aggressivePool := false
  soRcvBuf := 4 * 1024 * 1024
  soSndBuf := 4 * 1024 * 1024
  muxCon := 4
  muxVersion := 2
  muxFrameSize := 32768
  muxRecvBuffer := 4 * 1024 * 1024
  muxStreamBuffer := 256 * 1024
  kcpInterval := 30
  kcpResend := 2
  kcpNoDelay := 1
  kcpNoCongestion := 1
  kcpSndWnd := 1024
  kcpRcvWnd := 1024
  kcpAckNoDelay := false
  kcpDataShards := 0
  kcpParityShards := 0

def turbo : Profile where
  keepAlive := 75
  heartbeat := 40
  channelSize := 4096
  connectionPool := 8
  aggressivePool := false
  soRcvBuf := 8 * 1024 * 1024
  soSndBuf := 8 * 1024 * 1024
  muxCon := 8
  muxVersion := 2
  muxFrameSize := 32768
  muxRecvBuffer := 16 * 1024 * 1024
  muxStreamBuffer := 2 * 1024 * 1024
  kcpInterval := 10
  kcpResend := 2
  kcpNoDelay := 1
  kcpNoCongestion := 1
  kcpSndWnd := 2048
  kcpRcvWnd := 2048
  kcpAckNoDelay := true
  kcpDataShards := 10
  kcpParityShards := 2

def aggressive : Profile where
  keepAlive := 60
  heartbeat := 25
  channelSize := 8192
  connectionPool := 16
  aggressivePool := true
  soRcvBuf := 16 * 1024 * 1024
  soSndBuf := 16 * 1024 * 1024
  muxCon := 16
  muxVersion := 2
  muxFrameSize := 65535
  muxRecvBuffer := 32 * 1024 * 1024
  muxStreamBuffer := 8 * 1024 * 1024
  kcpInterval := 10
  kcpResend := 2
  kcpNoDelay := 1
  kcpNoCongestion := 1
  kcpSndWnd := 8192
  kcpRcvWnd := 8192
  kcpAckNoDelay := true
  kcpDataShards := 10
  kcpParityShards := 3

def throughput : Profile where
  keepAlive := 75
  heartbeat := 40
  channelSize := 8192
  connectionPool := 16
  aggressivePool := false
  soRcvBuf := 32 * 1024 * 1024
  soSndBuf := 32 * 1024 * 1024
  muxCon := 8
  muxVersion := 2
  muxFrameSize := 65535
  muxRecvBuffer := 32 * 1024 * 1024
  muxStreamBuffer := 16 * 1024 * 1024
  kcpInterval := 20
  kcpResend := 2
  kcpNoDelay := 1
  kcpNoCongestion := 1
  kcpSndWnd := 4096
  kcpRcvWnd := 4096
  kcpAckNoDelay := false
  kcpDataShards := 10
  kcpParityShards := 1

def profile (preset : Str) : Profile :=
  if preset = presetBalance then balance
  else if preset = presetAggressive then aggressive
  else if preset = presetThroughput then throughput
  else turbo

def applyKCPPreset (s : TunnelSpec) (preset : Str) : TunnelSpec :=
  { s with
    kcpMTU := 1350
    kcpInterval := (profile preset).kcpInterval
    kcpResend := (profile preset).kcpResend
    kcpNoDelay := (profile preset).kcpNoDelay
    kcpNoCongestion := (profile preset).kcpNoCongestion
    kcpSndWnd := (profile preset).kcpSndWnd
    kcpRcvWnd := (profile preset).kcpRcvWnd
    kcpAckNoDelay := (profile preset).kcpAckNoDelay
    kcpDataShards := (profile preset).kcpDataShards
    kcpParityShards := (profile preset).kcpParityShards }

def applyPreset (s : TunnelSpec) (preset : Str) : TunnelSpec :=
  let preset := if validPreset preset then preset else presetTurbo
  applyKCPPreset
    { s with
      preset := preset
      logLevel := lit "info"
      nodelay := true
      keepAlive := (profile preset).keepAlive
      heartbeat := (profile preset).heartbeat
      channelSize := (profile preset).channelSize
      connectionPool := (profile preset).connectionPool
      aggressivePool := (profile preset).aggressivePool
      soRcvBuf := (profile preset).soRcvBuf
      soSndBuf := (profile preset).soSndBuf
      muxCon := (profile preset).muxCon
      muxVersion := (profile preset).muxVersion
      muxFrameSize := (profile preset).muxFrameSize
      muxRecvBuffer := (profile preset).muxRecvBuffer
      muxStreamBuffer := (profile preset).muxStreamBuffer } preset

end ArangeTun.Tunnels
