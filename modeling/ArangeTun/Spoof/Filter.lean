import ArangeTun.Go.Bpf
import ArangeTun.Spoof.Model

/-!
# The filter of the spoof carrier

`spoofBPFProgram` of internal/utils/network/spoofbpf.go runs on the packet from its IP header on.
-/

namespace ArangeTun.Spoof

open Go Packet Bpf

def bpfAccept : Nat := 262144

def spoofBPFProgram (profile : SpoofProfile) (port : UInt16) (wantType : UInt8) : Option (List RawInstruction) :=
  if profile = .tcp then
    some (assemble
      [.loadMemShift 0, .loadIndirect 2 .half, .jumpIf .equal port.toNat 0 1, .retConstant bpfAccept,
       .retConstant 0])
  else if profile.isICMPFamily then
    some (assemble
      [.loadMemShift 0, .loadIndirect 0 .byte, .jumpIf .notEqual wantType.toNat 3 0, .loadIndirect 4 .half,
       .jumpIf .notEqual port.toNat 1 0, .retConstant bpfAccept, .retConstant 0])
  else none

structure IsHeader (header : Str) : Prop where
  ne_nil : header ≠ []
  length : header.length = 4 * ((header.getD 0 0).toNat % 16)

section

variable {header body inner : Str} {port : UInt16} {wantType : UInt8}

theorem exec_header (h : IsHeader header) (n : Nat) (rest : List RawInstruction) :
    exec (header ++ body) (n + 1) ((Instruction.loadMemShift 0).assemble :: rest) 0 0 =
      exec (header ++ body) n rest 0 header.length := by
  have hpos : 0 < header.length := List.length_pos_of_ne_nil h.ne_nil
  have hfirst : (header ++ body).getD 0 0 = header.getD 0 0 := getD_append_left body hpos
  rw [exec_loadMemShift (load_byte (by rw [List.length_append]; omega)), hfirst, ← h.length]

theorem spoofBPFProgram_tcp (h : IsHeader header) (hs : stripSpoofShim .tcp port body = some inner) :
    ∃ prog, spoofBPFProgram .tcp port wantType = some prog ∧ Accepts prog (header ++ body) := by
  have hbody : 20 ≤ body.length ∧ be16 body 2 = port := by
    unfold stripSpoofShim at hs
    rw [if_pos rfl] at hs
    split at hs
    · cases hs
    · rename_i hc
      simpa [not_or] using hc
  refine ⟨_, if_pos rfl, ?_⟩
  have hload : load (header ++ body) (2 + header.length) .half = some port.toNat := by
    rw [Nat.add_comm, load_half (by rw [List.length_append]; omega), be16_append_length, hbody.2]
  have hrun : exec (header ++ body) 5 (assemble
      [.loadMemShift 0, .loadIndirect 2 .half, .jumpIf .equal port.toNat 0 1, .retConstant bpfAccept,
       .retConstant 0]) 0 0 = bpfAccept := by
    simp only [assemble, List.map_cons, List.map_nil]
    rw [exec_header h, exec_loadIndirect hload, exec_jumpEqual rfl]
    exact exec_retConstant
  exact fun hz => absurd (hrun.symm.trans hz) (by decide)

theorem spoofBPFProgram_icmp {profile : SpoofProfile} (hp : profile.isICMPFamily = true) (h : IsHeader header)
    (hs : parseICMPEcho wantType port body = some inner) :
    ∃ prog, spoofBPFProgram profile port wantType = some prog ∧ Accepts prog (header ++ body) := by
  have hbody : 8 ≤ body.length ∧ body.getD 0 0 = wantType ∧ be16 body 4 = port := by
    unfold parseICMPEcho icmpEchoHeaderLen at hs
    split at hs
    · cases hs
    · split at hs
      · cases hs
      · split at hs
        · cases hs
        · rename_i hlen htype hid
          exact ⟨not_lt.mp hlen, not_not.mp htype, not_not.mp hid⟩
  have htcp : profile ≠ .tcp := by
    rintro rfl
    cases hp
  refine ⟨_, (if_neg htcp).trans (if_pos hp), ?_⟩
  have htype : load (header ++ body) (0 + header.length) .byte = some wantType.toNat := by
    rw [Nat.add_comm, load_byte (by rw [List.length_append]; omega), getD_append_length, hbody.2.1]
  have hid : load (header ++ body) (4 + header.length) .half = some port.toNat := by
    rw [Nat.add_comm, load_half (by rw [List.length_append]; omega), be16_append_length, hbody.2.2]
  have hrun : exec (header ++ body) 7 (assemble
      [.loadMemShift 0, .loadIndirect 0 .byte, .jumpIf .notEqual wantType.toNat 3 0, .loadIndirect 4 .half,
       .jumpIf .notEqual port.toNat 1 0, .retConstant bpfAccept, .retConstant 0]) 0 0 = bpfAccept := by
    simp only [assemble, List.map_cons, List.map_nil]
    rw [exec_header h, exec_loadIndirect htype, exec_jumpNotEqual rfl]
    show exec (header ++ body) 4 ((Instruction.loadIndirect 4 .half).assemble :: _) _ _ = _
    rw [exec_loadIndirect hid, exec_jumpNotEqual rfl]
    exact exec_retConstant
  exact fun hz => absurd (hrun.symm.trans hz) (by decide)

end

end ArangeTun.Spoof
