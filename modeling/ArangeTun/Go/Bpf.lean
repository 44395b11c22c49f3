import ArangeTun.Go.Binary

/-!
# Classic BPF

The instructions of golang.org/x/net/bpf that the filters use, their assembled form, and the kernel's machine for it.
A packet is accepted when the program returns a length other than zero.
-/

namespace Go.Bpf

inductive Size
  | byte
  | half
  deriving DecidableEq

inductive JumpTest
  | equal
  | notEqual
  | bitsSet
  deriving DecidableEq

inductive Instruction
  | loadAbsolute (off : Nat) (size : Size)
  | loadIndirect (off : Nat) (size : Size)
  | loadMemShift (off : Nat)
  | aluAnd (val : Nat)
  | jumpIf (cond : JumpTest) (val : Nat) (skipTrue skipFalse : UInt8)
  | retConstant (val : Nat)
  deriving DecidableEq

structure RawInstruction where
  op : Nat
  jt : UInt8
  jf : UInt8
  k : Nat
  deriving DecidableEq

def Size.code : Size → Nat
  | .byte => 0x10
  | .half => 0x08

/-- There is no opcode for "not equal": it is "equal" with the two distances exchanged. -/
def Instruction.assemble : Instruction → RawInstruction
  | .loadAbsolute off size => ⟨0x20 + size.code, 0, 0, off⟩
  | .loadIndirect off size => ⟨0x40 + size.code, 0, 0, off⟩
  | .loadMemShift off => ⟨0xb1, 0, 0, off⟩
  | .aluAnd val => ⟨0x54, 0, 0, val⟩
  | .jumpIf .equal val skipTrue skipFalse => ⟨0x15, skipTrue, skipFalse, val⟩
  | .jumpIf .notEqual val skipTrue skipFalse => ⟨0x15, skipFalse, skipTrue, val⟩
  | .jumpIf .bitsSet val skipTrue skipFalse => ⟨0x45, skipTrue, skipFalse, val⟩
  | .retConstant val => ⟨0x06, 0, 0, val⟩

def assemble (prog : List Instruction) : List RawInstruction := prog.map Instruction.assemble

/-! ## The machine -/

/-- What an instruction does: skip instructions with new values of the registers, or return. -/
inductive Effect
  | next (skip a x : Nat)
  | ret (val : Nat)
  deriving DecidableEq

def load (pkt : Str) (off : Nat) : Size → Option Nat
  | .byte => pkt[off]?.map UInt8.toNat
  | .half => (uint16At pkt off).map UInt16.toNat

def loadInto (pkt : Str) (off : Nat) (size : Size) (x : Nat) : Effect :=
  match load pkt off size with
  | none => .ret 0
  | some v => .next 0 v x

/-- An instruction of the machine. -/
def RawInstruction.effect (r : RawInstruction) (pkt : Str) (a x : Nat) : Effect :=
  match r.op with
  | 0x28 => loadInto pkt r.k .half x
  | 0x30 => loadInto pkt r.k .byte x
  | 0x48 => loadInto pkt (r.k + x) .half x
  | 0x50 => loadInto pkt (r.k + x) .byte x
  | 0xb1 =>
    match load pkt r.k .byte with
    | none => .ret 0
    | some v => .next 0 a (4 * (v % 16))
  | 0x54 => .next 0 (a &&& r.k) x
  | 0x15 => .next (if a = r.k then r.jt.toNat else r.jf.toNat) a x
  | 0x45 => .next (if a &&& r.k ≠ 0 then r.jt.toNat else r.jf.toNat) a x
  | 0x06 => .ret r.k
  | _ => .ret 0

/-- The program from where it stands. -/
def exec (pkt : Str) : Nat → List RawInstruction → Nat → Nat → Nat
  | 0, _, _, _ => 0
  | _, [], _, _ => 0
  | n + 1, r :: rest, a, x =>
    match r.effect pkt a x with
    | .ret val => val
    | .next skip a x => exec pkt n (rest.drop skip) a x

def run (prog : List RawInstruction) (pkt : Str) : Nat := exec pkt prog.length prog 0 0

def Accepts (prog : List RawInstruction) (pkt : Str) : Prop := run prog pkt ≠ 0

/-! ## One instruction at a time -/

section

variable {pkt : Str} {n a x off val : Nat} {r : RawInstruction} {rest : List RawInstruction}

theorem exec_next {skip a' x' : Nat} (h : r.effect pkt a x = .next skip a' x') :
    exec pkt (n + 1) (r :: rest) a x = exec pkt n (rest.drop skip) a' x' := by
  change (match r.effect pkt a x with | .ret val => val | .next skip a x => exec pkt n (rest.drop skip) a x) = _
  rw [h]

theorem loadInto_some {size : Size} {v : Nat} (h : load pkt off size = some v) :
    loadInto pkt off size x = .next 0 v x := by
  change (match load pkt off size with | none => Effect.ret 0 | some v => .next 0 v x) = _
  rw [h]

theorem exec_loadAbsolute {size : Size} {v : Nat} (h : load pkt off size = some v) :
    exec pkt (n + 1) ((Instruction.loadAbsolute off size).assemble :: rest) a x = exec pkt n rest v x := by
  cases size <;> exact @exec_next pkt n a x _ rest 0 v x (loadInto_some h)

theorem exec_loadIndirect {size : Size} {v : Nat} (h : load pkt (off + x) size = some v) :
    exec pkt (n + 1) ((Instruction.loadIndirect off size).assemble :: rest) a x = exec pkt n rest v x := by
  cases size <;> exact @exec_next pkt n a x _ rest 0 v x (loadInto_some h)

theorem exec_loadMemShift {v : Nat} (h : load pkt off .byte = some v) :
    exec pkt (n + 1) ((Instruction.loadMemShift off).assemble :: rest) a x = exec pkt n rest a (4 * (v % 16)) := by
  refine @exec_next pkt n a x _ rest 0 a (4 * (v % 16)) ?_
  change (match load pkt off .byte with | none => Effect.ret 0 | some v => .next 0 a (4 * (v % 16))) = _
  rw [h]

theorem exec_aluAnd :
    exec pkt (n + 1) ((Instruction.aluAnd val).assemble :: rest) a x = exec pkt n rest (a &&& val) x :=
  @exec_next pkt n a x _ rest 0 (a &&& val) x rfl

theorem exec_jumpEqual {skipTrue skipFalse : UInt8} (h : a = val) :
    exec pkt (n + 1) ((Instruction.jumpIf .equal val skipTrue skipFalse).assemble :: rest) a x =
      exec pkt n (rest.drop skipTrue.toNat) a x :=
  exec_next (congrArg (Effect.next · a x) (if_pos h))

theorem exec_jumpNotEqual {skipTrue skipFalse : UInt8} (h : a = val) :
    exec pkt (n + 1) ((Instruction.jumpIf .notEqual val skipTrue skipFalse).assemble :: rest) a x =
      exec pkt n (rest.drop skipFalse.toNat) a x :=
  exec_next (congrArg (Effect.next · a x) (if_pos h))

theorem exec_jumpBitsSet {skipTrue skipFalse : UInt8} (h : a &&& val = 0) :
    exec pkt (n + 1) ((Instruction.jumpIf .bitsSet val skipTrue skipFalse).assemble :: rest) a x =
      exec pkt n (rest.drop skipFalse.toNat) a x :=
  exec_next (congrArg (Effect.next · a x) (if_neg (not_not_intro h)))

theorem exec_retConstant : exec pkt (n + 1) ((Instruction.retConstant val).assemble :: rest) a x = val := rfl

theorem load_byte (h : off < pkt.length) : load pkt off .byte = some (pkt.getD off 0).toNat := by
  rw [load, getElem?_of_lt h, Option.map_some]

theorem load_half (h : off + 2 ≤ pkt.length) : load pkt off .half = some (be16 pkt off).toNat := by
  rw [load, uint16At_of_le h, Option.map_some]

end

end Go.Bpf
