import ArangeTun.Framing.Model

/-! # Messages are read back -/

namespace ArangeTun.Framing

open Go

/-! ## Payloads -/

section

variable {b : Str}

theorem toNat_sizeHeader (h : b.length ≤ 65535) : (be16 (sizeHeader b) 0).toNat = b.length := by
  have hread := be16_putUint16 (UInt16.ofNat b.length) []
  rw [List.append_nil] at hread
  rw [sizeHeader, hread, UInt16.toNat_ofNat']
  omega

theorem decodes_sized (h : b.length ≤ 65535) : Decodes readSized (sizeHeader b ++ b) b := by
  refine Decodes.bind (Decodes.take (sizeHeader b)) ?_
  rw [toNat_sizeHeader h]
  exact .take b

theorem write_bytes {w w' : Sink} (h : w.write b = .ok w') : w'.bytes = w.bytes ++ b := by
  unfold Sink.write at h
  split at h
  · cases h
  · cases h
    rfl

theorem writeSized_bytes {w w' : Sink} (h : writeSized w b = .ok w') : w'.bytes = w.bytes ++ (sizeHeader b ++ b) := by
  obtain ⟨w₁, hheader, hbody⟩ := bind_eq_ok.mp h
  rw [write_bytes hbody, write_bytes hheader, List.append_assoc]

end

/-! ## rathole -/

namespace Rathole

theorem digestAt_toList (pre : Str) (d : Digest) : digestAt (pre ++ d.toList) pre.length = d := by
  refine Vector.ext fun i hi => ?_
  rw [digestAt, Vector.getElem_ofFn, getD_append_length]
  simp [hi]

theorem decodes_hello (variant : UInt32) (d : Digest) :
    Decodes readHello (putUint32LE variant ++ [protoVersion] ++ d.toList) (variant, d) := by
  have hlen : (putUint32LE variant ++ [protoVersion] ++ d.toList).length = 37 := by simp
  have hbuf := Decodes.take (putUint32LE variant ++ [protoVersion] ++ d.toList)
  rw [hlen] at hbuf
  refine hbuf.map (Prod.ext ?_ ?_)
  · simp only [List.append_assoc, le32_putUint32LE]
  · exact digestAt_toList (putUint32LE variant ++ [protoVersion]) d

theorem decodes_u32 (v : UInt32) : Decodes readU32 (putUint32LE v) v := by
  have hbuf : Decodes (.take 4) (putUint32LE v) _ := Decodes.take (putUint32LE v)
  refine hbuf.map ?_
  rw [← List.append_nil (putUint32LE v), le32_putUint32LE]

theorem decodes_auth (d : Digest) : Decodes readAuth d.toList d := by
  have hbuf := Decodes.take d.toList
  rw [Vector.length_toList] at hbuf
  exact hbuf.map (digestAt_toList [] d)

theorem decodes_udp {source data : Str} (hs : source.length ≤ 65535) (hd : data.length ≤ 65535) :
    Decodes readUDP ((sizeHeader source ++ source) ++ (sizeHeader data ++ data)) (source, data) :=
  (decodes_sized hs).bind ((decodes_sized hd).map rfl)

theorem writes_message (m : Message) : Writes (m.write ·) m.kind.read m := by
  intro w w' hw
  cases m with
  | hello variant d => exact ⟨_, write_bytes hw, (decodes_hello variant d).map rfl⟩
  | u32 v => exact ⟨_, write_bytes hw, (decodes_u32 v).map rfl⟩
  | auth d => exact ⟨_, write_bytes hw, (decodes_auth d).map rfl⟩
  | frame b =>
    simp only [Message.write, writeFrame] at hw
    split at hw
    · cases hw
    · exact ⟨_, writeSized_bytes hw, (decodes_sized (by omega)).map rfl⟩
  | udp source data =>
    simp only [Message.write, writeUDP] at hw
    split at hw
    · cases hw
    · obtain ⟨w₁, hsource, hdata⟩ := bind_eq_ok.mp hw
      have hdecodes := @decodes_udp source data (by omega) (by omega)
      exact ⟨_, by rw [writeSized_bytes hdata, writeSized_bytes hsource, List.append_assoc], hdecodes.map rfl⟩

end Rathole

namespace Frp

theorem decodes_frame {b : Str} (h : b.length ≤ 65535) : Decodes readFrame (sizeHeader b ++ b) b := by
  refine Decodes.bind (Decodes.take (sizeHeader b)) ?_
  simp only [toNat_sizeHeader h, maxFrame, if_neg (Nat.not_lt.mpr h)]
  exact .take b

theorem writes_frame (b : Str) : Writes (writeFrame · b) readFrame b := by
  intro w w' hw
  simp only [writeFrame] at hw
  split at hw
  · cases hw
  · rename_i hle
    exact ⟨_, writeSized_bytes hw, decodes_frame (Nat.not_lt.mp hle)⟩

end Frp

/-- Messages that were all written without an error are read from a connection that delivers what was written, in any
chunks and with anything after it. -/
def ReadBack {α : Type} (write : Sink → α → Except Error Sink) (reader : α → Decoder α) : Prop :=
  ∀ (ms : List α) (failing : Option Error) (w : Sink) (conn : Chunked) (rest : Str),
    ms.foldlM write ⟨[], failing⟩ = .ok w → conn.chunks.flatten = w.bytes ++ rest →
      ∃ conn', (Decoder.all (ms.map reader)).run Chunked.readFull conn = .ok (ms, conn') ∧
        conn'.chunks.flatten = rest

theorem readBack_of_writes {α : Type} {write : Sink → α → Except Error Sink} {reader : α → Decoder α}
    (h : ∀ a, Writes (write · a) (reader a) a) : ReadBack write reader := by
  intro ms failing w conn rest hw hconn
  obtain ⟨bytes, hbytes, hdecodes⟩ := Writes.all h ms _ _ hw
  rw [hbytes, List.nil_append] at hconn
  obtain ⟨conn', hrun, hrest, -⟩ := Chunked.run_of_decodes hdecodes hconn
  exact ⟨conn', hrun, hrest⟩

theorem messages_read_back :
    ReadBack (fun w m => Rathole.Message.write w m) (fun m => m.kind.read) ∧
      ReadBack Frp.writeFrame fun _ => Frp.readFrame :=
  ⟨readBack_of_writes Rathole.writes_message, readBack_of_writes Frp.writes_frame⟩

end ArangeTun.Framing
