import ArangeTun.Go.Binary
import ArangeTun.Go.Decoder

/-!
# Messages with their length in front

The messages of internal/rathole/rathole.go and internal/frp/frp.go, and the datagrams of
internal/utils/network/udpframe.go: two bytes of length, then the payload.
-/

namespace ArangeTun.Framing

open Go

def maxFrame : Nat := 65535

def sizeHeader (b : Str) : Str := putUint16 (UInt16.ofNat b.length)

def readSized : Decoder Str := do
  let hdr ← .take 2
  .take (be16 hdr 0).toNat

def writeSized (w : Sink) (b : Str) : Except Error Sink := do
  let w ← w.write (sizeHeader b)
  w.write b

/-! ## rathole -/

namespace Rathole

def protoVersion : UInt8 := 1

abbrev Digest := Vector UInt8 32

def writeHello (w : Sink) (variant : UInt32) (d : Digest) : Except Error Sink :=
  w.write (putUint32LE variant ++ [protoVersion] ++ d.toList)

def digestAt (buf : Str) (off : Nat) : Digest := Vector.ofFn fun i => buf.getD (off + i.val) 0

def readHello : Decoder (UInt32 × Digest) := do
  let buf ← .take 37
  .ret (le32 buf 0, digestAt buf 5)

def writeU32 (w : Sink) (v : UInt32) : Except Error Sink := w.write (putUint32LE v)

def readU32 : Decoder UInt32 := do
  let buf ← .take 4
  .ret (le32 buf 0)

def writeAuth (w : Sink) (d : Digest) : Except Error Sink := w.write d.toList

def readAuth : Decoder Digest := do
  let buf ← .take 32
  .ret (digestAt buf 0)

def writeFrame (w : Sink) (b : Str) : Except Error Sink :=
  if b.length > 65535 then .error (.other (lit "frame too large: " ++ itoa b.length)) else writeSized w b

def readFrame : Decoder Str := readSized

def writeUDP (w : Sink) (source data : Str) : Except Error Sink :=
  if source.length > 65535 ∨ data.length > 65535 then .error (.other (lit "udp frame too large"))
  else do
    let w ← writeSized w source
    writeSized w data

def readUDP : Decoder (Str × Str) := do
  let source ← readSized
  let data ← readSized
  .ret (source, data)

inductive Message
  | hello (variant : UInt32) (digest : Digest)
  | u32 (v : UInt32)
  | auth (digest : Digest)
  | frame (b : Str)
  | udp (source data : Str)
  deriving DecidableEq

def Message.write (w : Sink) : Message → Except Error Sink
  | .hello variant digest => writeHello w variant digest
  | .u32 v => writeU32 w v
  | .auth digest => writeAuth w digest
  | .frame b => writeFrame w b
  | .udp source data => writeUDP w source data

inductive Kind
  | hello
  | u32
  | auth
  | frame
  | udp
  deriving DecidableEq

def Message.kind : Message → Kind
  | .hello _ _ => .hello
  | .u32 _ => .u32
  | .auth _ => .auth
  | .frame _ => .frame
  | .udp _ _ => .udp

def Kind.read : Kind → Decoder Message
  | .hello => do
      let r ← readHello
      .ret (.hello r.1 r.2)
  | .u32 => do
      let v ← readU32
      .ret (.u32 v)
  | .auth => do
      let d ← readAuth
      .ret (.auth d)
  | .frame => do
      let b ← readFrame
      .ret (.frame b)
  | .udp => do
      let r ← readUDP
      .ret (.udp r.1 r.2)

end Rathole

namespace Frp

def writeFrame (w : Sink) (b : Str) : Except Error Sink :=
  if b.length > maxFrame then .error (.other (lit "frame too large: " ++ itoa b.length)) else writeSized w b

def readFrame : Decoder Str := do
  let hdr ← .take 2
  let n := (be16 hdr 0).toNat
  if n > maxFrame then .fail (.other (lit "frame too large: " ++ itoa n)) else .take n

end Frp

def maxDatagram : Nat := 65535

def writeDatagram (w : Sink) (payload : Str) : Except Error Sink :=
  if payload.length > maxDatagram then
    .error (.other (lit "datagram of " ++ itoa payload.length ++ lit " bytes is too large to forward"))
  else w.write (sizeHeader payload ++ payload)

def readDatagram (len : Nat) : Decoder Str := do
  let hdr ← .take 2
  let size := (be16 hdr 0).toNat
  if size > len then
    .fail (.other (lit "datagram of " ++ itoa size ++ lit " bytes does not fit in a " ++ itoa len ++ lit " byte buffer"))
  else if size = 0 then .ret []
  else .take size

end ArangeTun.Framing
