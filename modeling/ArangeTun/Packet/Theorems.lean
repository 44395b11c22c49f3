import ArangeTun.Pck.Filter

/-! # The kernel filters drop nothing that the readers want -/

namespace ArangeTun.Packet

open Go Bpf

/-- What `parsePckFrame`, `stripSpoofShim` or `parseICMPEcho` accepts passes the filter of its carrier. -/
theorem filters_accept_what_readers_accept :
    (∀ (frame : Str) (linkLen : Nat) (port : UInt16) (seg : Pck.PckSegment), linkLen = 0 ∨ linkLen = 14 →
      Pck.parsePckFrame frame linkLen port = some (some seg) →
      ∃ prog, Pck.pckBPFProgram port linkLen = some prog ∧ Accepts prog frame) ∧
    (∀ (header body inner : Str) (port : UInt16) (wantType : UInt8), Spoof.IsHeader header →
      Spoof.stripSpoofShim .tcp port body = some inner →
      ∃ prog, Spoof.spoofBPFProgram .tcp port wantType = some prog ∧ Accepts prog (header ++ body)) ∧
    (∀ (header body inner : Str) (port : UInt16) (wantType : UInt8) (profile : Spoof.SpoofProfile),
      Spoof.IsHeader header → profile.isICMPFamily = true →
      Spoof.parseICMPEcho wantType port body = some inner →
      ∃ prog, Spoof.spoofBPFProgram profile port wantType = some prog ∧ Accepts prog (header ++ body)) := by
  refine ⟨?_, ?_, ?_⟩
  · intro frame linkLen port seg hlink hparse
    exact Pck.pckBPFProgram_accepts hlink ((Pck.parsePckFrame_accepts_iff frame linkLen port).mp ⟨seg, hparse⟩)
  · intro header body inner port wantType hheader hstrip
    exact Spoof.spoofBPFProgram_tcp hheader hstrip
  · intro header body inner port wantType profile hheader hfamily hparse
    exact Spoof.spoofBPFProgram_icmp hfamily hheader hparse

/-- A ping of type 8 with identifier 0x1234 behind a header of 20 bytes. -/
theorem filters_accept_what_readers_accept_ping :
    ∃ prog, Spoof.spoofBPFProgram .icmp 0x1234 8 = some prog ∧
      Accepts prog (0x45 :: List.replicate 19 0 ++ [8, 0, 0, 0, 0x12, 0x34, 0, 1, 7]) :=
  filters_accept_what_readers_accept.2.2 (0x45 :: List.replicate 19 0) [8, 0, 0, 0, 0x12, 0x34, 0, 1, 7] [7] 0x1234 8
    .icmp ⟨by decide, by decide⟩ (by decide) (by decide +kernel)

end ArangeTun.Packet
