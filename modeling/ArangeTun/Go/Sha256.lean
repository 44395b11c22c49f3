import ArangeTun.Go.Str

/-!
# `crypto/sha256`
-/

namespace Go.Sha256

def roundConstants : List UInt32 :=
  [0x428a2f98, 0x71374491, 0xb5c0fbcf, 0xe9b5dba5, 0x3956c25b, 0x59f111f1, 0x923f82a4, 0xab1c5ed5,
   0xd807aa98, 0x12835b01, 0x243185be, 0x550c7dc3, 0x72be5d74, 0x80deb1fe, 0x9bdc06a7, 0xc19bf174,
   0xe49b69c1, 0xefbe4786, 0x0fc19dc6, 0x240ca1cc, 0x2de92c6f, 0x4a7484aa, 0x5cb0a9dc, 0x76f988da,
   0x983e5152, 0xa831c66d, 0xb00327c8, 0xbf597fc7, 0xc6e00bf3, 0xd5a79147, 0x06ca6351, 0x14292967,
   0x27b70a85, 0x2e1b2138, 0x4d2c6dfc, 0x53380d13, 0x650a7354, 0x766a0abb, 0x81c2c92e, 0x92722c85,
   0xa2bfe8a1, 0xa81a664b, 0xc24b8b70, 0xc76c51a3, 0xd192e819, 0xd6990624, 0xf40e3585, 0x106aa070,
   0x19a4c116, 0x1e376c08, 0x2748774c, 0x34b0bcb5, 0x391c0cb3, 0x4ed8aa4a, 0x5b9cca4f, 0x682e6ff3,
   0x748f82ee, 0x78a5636f, 0x84c87814, 0x8cc70208, 0x90befffa, 0xa4506ceb, 0xbef9a3f7, 0xc67178f2]

def rotateRight (x n : UInt32) : UInt32 := (x >>> n) ||| (x <<< (32 - n))

def pad (msg : Str) : Str :=
  msg ++ 0x80 :: List.replicate ((119 - msg.length % 64) % 64) 0 ++
    (List.range 8).map fun i => UInt8.ofNat (8 * msg.length / 256 ^ (7 - i))

def word (bytes : Str) : UInt32 := bytes.foldl (fun acc b => acc * 256 + b.toUInt32) 0

/-- The words of the schedule, the last one first, after `n` more. -/
def schedule : Nat → List UInt32 → List UInt32
  | 0, ws => ws
  | n + 1, ws =>
    let w15 := ws.getD 14 0
    let w2 := ws.getD 1 0
    let s0 := rotateRight w15 7 ^^^ rotateRight w15 18 ^^^ (w15 >>> 3)
    let s1 := rotateRight w2 17 ^^^ rotateRight w2 19 ^^^ (w2 >>> 10)
    schedule n ((s1 + ws.getD 6 0 + s0 + ws.getD 15 0) :: ws)

structure Digest where
  a : UInt32
  b : UInt32
  c : UInt32
  d : UInt32
  e : UInt32
  f : UInt32
  g : UInt32
  h : UInt32

def Digest.initial : Digest :=
  ⟨0x6a09e667, 0xbb67ae85, 0x3c6ef372, 0xa54ff53a, 0x510e527f, 0x9b05688c, 0x1f83d9ab, 0x5be0cd19⟩

def round (s : Digest) (kw : UInt32 × UInt32) : Digest :=
  let s1 := rotateRight s.e 6 ^^^ rotateRight s.e 11 ^^^ rotateRight s.e 25
  let ch := (s.e &&& s.f) ^^^ (~~~s.e &&& s.g)
  let t1 := s.h + s1 + ch + kw.1 + kw.2
  let s0 := rotateRight s.a 2 ^^^ rotateRight s.a 13 ^^^ rotateRight s.a 22
  let maj := (s.a &&& s.b) ^^^ (s.a &&& s.c) ^^^ (s.b &&& s.c)
  ⟨t1 + s0 + maj, s.a, s.b, s.c, s.d + t1, s.e, s.f, s.g⟩

def compress (s : Digest) (block : Str) : Digest :=
  let first := (List.range 16).map fun i => word ((block.drop (4 * i)).take 4)
  let ws := (schedule 48 first.reverse).reverse
  let t := (roundConstants.zip ws).foldl round s
  ⟨s.a + t.a, s.b + t.b, s.c + t.c, s.d + t.d, s.e + t.e, s.f + t.f, s.g + t.g, s.h + t.h⟩

def bytesOf (w : UInt32) : Str := ([24, 16, 8, 0] : List UInt32).map fun n => (w >>> n).toUInt8

def sum256 (msg : Str) : Str :=
  let padded := pad msg
  let d := (List.range (padded.length / 64)).foldl
    (fun s i => compress s ((padded.drop (64 * i)).take 64)) Digest.initial
  [d.a, d.b, d.c, d.d, d.e, d.f, d.g, d.h].flatMap bytesOf

end Go.Sha256
