import ArangeTun.Pck.Lemmas.Parse
import ArangeTun.Spoof.Filter

/-!
# The filter of the pck carrier

`pckBPFProgram` of internal/utils/network/pckframe.go.
-/

namespace ArangeTun.Pck

open Go Packet Bpf
open Spoof (bpfAccept)

def pckFilter (port : UInt16) (linkLen : Nat) : List Instruction :=
  (if linkLen = pckEthHeaderLen then
    [.loadAbsolute 12 .half, .jumpIf .notEqual etherTypeIPv4.toNat 0 0]
  else [.loadAbsolute 0 .byte, .aluAnd 0xf0, .jumpIf .notEqual 0x40 0 0]) ++
  [.loadAbsolute (linkLen + 9) .byte, .jumpIf .notEqual 6 0 0, .loadAbsolute (linkLen + 6) .half,
   .jumpIf .bitsSet 0x1fff 0 0, .loadMemShift linkLen, .loadIndirect (linkLen + 2) .half,
   .jumpIf .notEqual port.toNat 0 0, .retConstant bpfAccept, .retConstant 0]

def patchJump (reject i : Nat) : Instruction → Option Instruction
  | .jumpIf cond val _ skipFalse =>
    let skip : Int := reject - i - 1
    if skip < 0 ∨ skip > 255 then none else some (.jumpIf cond val (UInt8.ofNat skip.toNat) skipFalse)
  | ins => some ins

def patchJumps (prog : List Instruction) : Option (List Instruction) :=
  (prog.mapIdx (patchJump (prog.length - 1))).mapM id

def pckBPFProgram (port : UInt16) (linkLen : Nat) : Option (List RawInstruction) :=
  (patchJumps (pckFilter port linkLen)).map assemble

theorem pckBPFProgram_ethernet (port : UInt16) :
    pckBPFProgram port 14 = some (assemble
      [.loadAbsolute 12 .half, .jumpIf .notEqual 0x0800 8 0, .loadAbsolute 23 .byte, .jumpIf .notEqual 6 6 0,
       .loadAbsolute 20 .half, .jumpIf .bitsSet 0x1fff 4 0, .loadMemShift 14, .loadIndirect 16 .half,
       .jumpIf .notEqual port.toNat 1 0, .retConstant bpfAccept, .retConstant 0]) := by rfl

theorem pckBPFProgram_no_link (port : UInt16) :
    pckBPFProgram port 0 = some (assemble
      [.loadAbsolute 0 .byte, .aluAnd 0xf0, .jumpIf .notEqual 0x40 8 0, .loadAbsolute 9 .byte,
       .jumpIf .notEqual 6 6 0, .loadAbsolute 6 .half, .jumpIf .bitsSet 0x1fff 4 0, .loadMemShift 0,
       .loadIndirect 2 .half, .jumpIf .notEqual port.toNat 1 0, .retConstant bpfAccept, .retConstant 0]) := by rfl

section

variable {frame : Str} {linkLen : Nat} {port : UInt16}

theorem exec_pckFilter_end (h : IsIPv4 (frame.drop linkLen) port) (n a x : Nat) (s₁ s₂ s₃ : UInt8)
    (rest : List RawInstruction) :
    exec frame (n + 8) ((Instruction.loadAbsolute (linkLen + 9) .byte).assemble ::
      (Instruction.jumpIf .notEqual 6 s₁ 0).assemble :: (Instruction.loadAbsolute (linkLen + 6) .half).assemble ::
      (Instruction.jumpIf .bitsSet 0x1fff s₂ 0).assemble :: (Instruction.loadMemShift linkLen).assemble ::
      (Instruction.loadIndirect (linkLen + 2) .half).assemble ::
      (Instruction.jumpIf .notEqual port.toNat s₃ 0).assemble :: (Instruction.retConstant bpfAccept).assemble ::
      rest) a x = bpfAccept := by
  have hroom := h.tcp_in_packet
  have htotal := h.total.2
  have hihl := h.header
  rw [List.length_drop] at htotal
  have hproto : load frame (linkLen + 9) .byte = some 6 := by
    rw [load_byte (by omega), ← getD_drop, h.protocol]
    rfl
  have hfrag : load frame (linkLen + 6) .half = some (be16 (frame.drop linkLen) 6).toNat := by
    rw [load_half (by omega), be16_drop]
  have hoffset : (be16 (frame.drop linkLen) 6).toNat &&& 0x1fff = 0 := by
    have := Nat.and_two_pow_sub_one_eq_mod (be16 (frame.drop linkLen) 6).toNat 13
    rw [show (0x1fff : Nat) = 2 ^ 13 - 1 from rfl, this]
    exact h.first
  have hfirst : load frame linkLen .byte = some ((frame.drop linkLen).getD 0 0).toNat := by
    rw [load_byte (by omega), getD_drop, Nat.add_zero]
  have hport : load frame (linkLen + 2 + ihl (frame.drop linkLen)) .half = some port.toNat := by
    rw [load_half (by omega), Nat.add_assoc, ← be16_drop, Nat.add_comm 2, h.port_field]
  rw [exec_loadAbsolute hproto, exec_jumpNotEqual rfl]
  show exec frame (n + 6) ((Instruction.loadAbsolute (linkLen + 6) .half).assemble :: _) _ _ = _
  rw [exec_loadAbsolute hfrag, exec_jumpBitsSet hoffset]
  show exec frame (n + 4) ((Instruction.loadMemShift linkLen).assemble :: _) _ _ = _
  rw [exec_loadMemShift hfirst, ← ihl, exec_loadIndirect hport, exec_jumpNotEqual rfl]
  exact exec_retConstant

theorem high_nibble_eq (b : UInt8) (h : b.toNat / 16 = 4) : b.toNat &&& 0xf0 = 0x40 := by
  have hall : ∀ n : Fin 256, n.val / 16 = 4 → n.val &&& 0xf0 = 0x40 := by decide +kernel
  exact hall ⟨b.toNat, b.toNat_lt⟩ h

theorem pckBPFProgram_accepts (hlink : linkLen = 0 ∨ linkLen = 14) (h : IsSegment frame linkLen port) :
    ∃ prog, pckBPFProgram port linkLen = some prog ∧ Accepts prog frame := by
  have hlen := h.length
  rcases hlink with rfl | rfl
  · refine ⟨_, pckBPFProgram_no_link port, ?_⟩
    have hversion : load frame 0 .byte = some (frame.getD 0 0).toNat := load_byte (by omega)
    have hnibble : (frame.getD 0 0).toNat &&& 0xf0 = 0x40 := high_nibble_eq _ h.ip.version
    have hrun : exec frame 12 (assemble
        [.loadAbsolute 0 .byte, .aluAnd 0xf0, .jumpIf .notEqual 0x40 8 0, .loadAbsolute 9 .byte,
         .jumpIf .notEqual 6 6 0, .loadAbsolute 6 .half, .jumpIf .bitsSet 0x1fff 4 0, .loadMemShift 0,
         .loadIndirect 2 .half, .jumpIf .notEqual port.toNat 1 0, .retConstant bpfAccept, .retConstant 0]) 0 0 =
        bpfAccept := by
      simp only [assemble, List.map_cons, List.map_nil]
      rw [exec_loadAbsolute hversion, exec_aluAnd, exec_jumpNotEqual hnibble]
      exact exec_pckFilter_end h.ip 1 _ _ 6 4 1 _
    exact fun hz => absurd (hrun.symm.trans hz) (by decide)
  · refine ⟨_, pckBPFProgram_ethernet port, ?_⟩
    have hether : load frame 12 .half = some 0x0800 := by
      rw [load_half (by omega), h.etherType rfl]
      rfl
    have hrun : exec frame 11 (assemble
        [.loadAbsolute 12 .half, .jumpIf .notEqual 0x0800 8 0, .loadAbsolute 23 .byte, .jumpIf .notEqual 6 6 0,
         .loadAbsolute 20 .half, .jumpIf .bitsSet 0x1fff 4 0, .loadMemShift 14, .loadIndirect 16 .half,
         .jumpIf .notEqual port.toNat 1 0, .retConstant bpfAccept, .retConstant 0]) 0 0 = bpfAccept := by
      simp only [assemble, List.map_cons, List.map_nil]
      rw [exec_loadAbsolute hether, exec_jumpNotEqual rfl]
      exact exec_pckFilter_end h.ip 1 _ _ 6 4 1 _
    exact fun hz => absurd (hrun.symm.trans hz) (by decide)

end

end ArangeTun.Pck
