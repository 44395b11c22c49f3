import Mathlib

/-!
# Strings of the standard library

A Go string is a sequence of bytes. The functions of `strings`, `strconv`, `fmt` and `net` are written on bytes as
their source has them, with separators of one byte.
-/

namespace Go

/-- A string: any sequence of bytes. -/
abbrev Str := List UInt8

def lit (s : String) : Str := s.toList.map fun c => UInt8.ofNat c.toNat

def byte (c : Char) : UInt8 := UInt8.ofNat c.toNat

/-- The comparison of strings is equality, under one name in every definition that looks one up in a list. -/
instance : LawfulBEq Str := inferInstance

/-- A condition on the bytes of a string is decided along the string, not over the 256 bytes. -/
instance (priority := high) decidableForallBytes (p : UInt8 → Prop) [DecidablePred p] (s : Str) :
    Decidable (∀ b ∈ s, p b) :=
  List.decidableBAll p s

/-! ## `strings.TrimSpace` -/

/-- The UTF-8 encodings of the code points that `unicode.IsSpace` accepts. -/
def spaceCodes : List Str :=
  [[0x09], [0x0a], [0x0b], [0x0c], [0x0d], [0x20], [0xc2, 0x85], [0xc2, 0xa0], [0xe1, 0x9a, 0x80],
   [0xe2, 0x80, 0x80], [0xe2, 0x80, 0x81], [0xe2, 0x80, 0x82], [0xe2, 0x80, 0x83],
   [0xe2, 0x80, 0x84], [0xe2, 0x80, 0x85], [0xe2, 0x80, 0x86], [0xe2, 0x80, 0x87],
   [0xe2, 0x80, 0x88], [0xe2, 0x80, 0x89], [0xe2, 0x80, 0x8a], [0xe2, 0x80, 0xa8],
   [0xe2, 0x80, 0xa9], [0xe2, 0x80, 0xaf], [0xe2, 0x81, 0x9f], [0xe3, 0x80, 0x80]]

section

variable {α : Type*} [DecidableEq α]

/-- What follows the code of `codes` that the list starts with. -/
def dropCode (codes : List (List α)) (s : List α) : Option (List α) :=
  (codes.find? fun w => w.isPrefixOf s).map fun w => s.drop w.length

/-- Drop codes from the front, at most `fuel` of them. -/
def dropCodes (codes : List (List α)) : Nat → List α → List α
  | 0, s => s
  | fuel + 1, s =>
    match dropCode codes s with
    | none => s
    | some rest => dropCodes codes fuel rest

/-- Drop codes from the front as long as the list starts with one. -/
def trimLeftCodes (codes : List (List α)) (s : List α) : List α := dropCodes codes s.length s

def trimRightCodes (codes : List (List α)) (s : List α) : List α :=
  (trimLeftCodes (codes.map List.reverse) s.reverse).reverse

end

def trimLeftSpace (s : Str) : Str := trimLeftCodes spaceCodes s

def trimRightSpace (s : Str) : Str := trimRightCodes spaceCodes s

def trimSpace (s : Str) : Str := trimRightSpace (trimLeftSpace s)

def split (s : Str) (sep : UInt8) : List Str := s.splitOn sep

/-- `strings.Cut(s, sep)`: what stands before and after the first separator, and whether there is
one. -/
def cut (s : Str) (sep : UInt8) : Str × Str × Bool :=
  if sep ∈ s then (s.takeWhile (· ≠ sep), (s.dropWhile (· ≠ sep)).drop 1, true) else (s, [], false)

def splitN2 (s : Str) (sep : UInt8) : List Str :=
  match cut s sep with
  | (before, after, true) => [before, after]
  | (_, _, false) => [s]

def join (parts : List Str) (sep : UInt8) : Str := [sep].intercalate parts

/-! ## `strconv.Atoi` and `strconv.Itoa` -/

def digits : Nat → Str → Option Nat
  | n, [] => some n
  | n, c :: cs => if 48 ≤ c ∧ c ≤ 57 then digits (10 * n + (c.toNat - 48)) cs else none

def parseInt : Str → Option Int
  | [] => none
  | c :: cs =>
    if c = byte '-' then if cs = [] then none else (digits 0 cs).map fun n : Nat => -(n : Int)
    else if c = byte '+' then if cs = [] then none else (digits 0 cs).map fun n : Nat => (n : Int)
    else (digits 0 (c :: cs)).map fun n : Nat => (n : Int)

/-- `strconv.Atoi`, `none` for an error. -/
def atoi (s : Str) : Option Int :=
  (parseInt s).filter fun n => -(2 ^ 63) ≤ n ∧ n < 2 ^ 63

/-- The digits are read up to the first number that no `uint64` holds; an invalid one before that makes it 0. -/
def magnitude : Nat → Str → Nat
  | n, [] => n
  | n, c :: cs =>
    if 48 ≤ c ∧ c ≤ 57 then
      let n := 10 * n + (c.toNat - 48)
      if 2 ^ 64 ≤ n then n else magnitude n cs
    else 0

/-- The number of `n, _ := strconv.Atoi(s)`: the error goes, and a number out of range has become the nearest in it. -/
def atoiValue : Str → Int
  | [] => 0
  | c :: cs =>
    if c = byte '-' then max (-(2 ^ 63)) (-(magnitude 0 cs : Int))
    else min (magnitude 0 (if c = byte '+' then cs else c :: cs) : Int) (2 ^ 63 - 1)

def decimal (n : Nat) : Str :=
  if n = 0 then [48] else (Nat.digits 10 n).reverse.map fun d => UInt8.ofNat (48 + d)

def itoa : Int → Str
  | .ofNat n => decimal n
  | .negSucc n => byte '-' :: decimal (n + 1)

def lastIndex (c : UInt8) : Str → Option Nat
  | [] => none
  | b :: s =>
    match lastIndex c s with
    | some i => some (i + 1)
    | none => if b = c then some 0 else none

def splitHostPort (hostport : Str) : Option (Str × Str) :=
  match lastIndex (byte ':') hostport with
  | none => none
  | some i =>
    if hostport.head? = some (byte '[') then
      match hostport.idxOf? (byte ']') with
      | none => none
      | some e =>
        -- the first ']' has to stand just before the last ':'
        if e + 1 ≠ i then none
        else if byte '[' ∈ hostport.drop 1 then none
        else if byte ']' ∈ hostport.drop (e + 1) then none
        else some ((hostport.take e).drop 1, hostport.drop (i + 1))
    else
      let host := hostport.take i
      if byte ':' ∈ host then none
      else if byte '[' ∈ hostport then none
      else if byte ']' ∈ hostport then none
      else some (host, hostport.drop (i + 1))

def joinHostPort (host port : Str) : Str :=
  if byte ':' ∈ host then lit "[" ++ host ++ lit "]:" ++ port else host ++ lit ":" ++ port

end Go
