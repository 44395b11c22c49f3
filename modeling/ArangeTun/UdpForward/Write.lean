import ArangeTun.Framing.Theorems
import ArangeTun.UdpForward.Model

/-!
# Datagrams for the source of a flow

`Write` of `udpFlow` (internal/server/transport/udpforward.go) gets the frames of `WriteDatagram` in any chunks, and
sends each datagram when it is complete.
-/

namespace ArangeTun.UdpForward

open Go List

/-! ## `Write` -/

structure Writer where
  hdr : Str
  want : Nat
  body : Str
  sent : List Str

def Writer.fresh : Writer := ⟨[], 0, [], []⟩

structure Outside where
  closed : Bool
  sendErr : Option Error

def Outside.fine : Outside := ⟨false, none⟩

def errClosed : Error := .other (lit "use of closed network connection")

/-- The next turn with what is left of the chunk, or the end of the call. -/
inductive Turn
  | more (w : Writer) (rest : Str)
  | stop (w : Writer) (rest : Str) (err : Option Error)

namespace Writer

def send (w : Writer) (o : Outside) (payload rest : Str) : Turn :=
  match o.sendErr with
  | some err => .stop w rest (some err)
  | none => .more ⟨[], 0, [], w.sent ++ [payload]⟩ rest

def turn (w : Writer) (o : Outside) (p : Str) : Turn :=
  if o.closed then .stop w p (some errClosed)
  else if w.hdr.length < 2 then
    let hdr := w.hdr ++ p.take (2 - w.hdr.length)
    let rest := p.drop (2 - w.hdr.length)
    if hdr.length < 2 then .stop { w with hdr } rest none
    else
      let w := { w with hdr, want := (be16 hdr 0).toNat, body := [] }
      if w.want = 0 then w.send o [] rest else .more w rest
  else
    let need := min (w.want - w.body.length) p.length
    let w := { w with body := w.body ++ p.take need }
    if w.body.length = w.want then w.send o w.body (p.drop need) else .more w (p.drop need)

/-- Every turn takes a byte or ends the call, so the length of the chunk bounds the turns. -/
def loop (out : Nat → Outside) : Nat → Writer → Str → Writer × Str × Option Error
  | 0, w, p => (w, p, none)
  | fuel + 1, w, p =>
    if p = [] then (w, p, none)
    else
      match w.turn (out p.length) p with
      | .more w rest => loop out fuel w rest
      | .stop w rest err => (w, rest, err)

def write (out : Nat → Outside) (w : Writer) (p : Str) : Writer × Nat × Option Error :=
  let r := loop out p.length w p
  (r.1, p.length - r.2.1.length, r.2.2)

def writes (out : Nat → Nat → Outside) : Writer → List Str → Writer × List (Nat × Option Error)
  | w, [] => (w, [])
  | w, p :: ps =>
    let r := w.write (out ps.length) p
    let rs := writes out r.1 ps
    (rs.1, r.2 :: rs.2)

end Writer

section

variable {b hdr body rest : Str} {ds ds' : List Str}

theorem be16_frame (h : b.length ≤ 65535) (rest : Str) : (be16 (frame b ++ rest) 0).toNat = b.length := by
  rw [frame, append_assoc, be16_putUint16, UInt16.toNat_ofNat']
  omega

theorem frame_of_header (hhdr : hdr.length = 2) (hbody : body.length = (be16 hdr 0).toNat) : frame body = hdr ++ body := by
  obtain ⟨x, y, rfl⟩ := length_eq_two.mp hhdr
  have hx := x.toNat_lt
  have hy := y.toNat_lt
  have hlen : body.length = 256 * x.toNat + y.toNat := by rw [hbody, toNat_be16]; rfl
  have hhigh : UInt8.ofNat ((UInt16.ofNat body.length).toNat / 256) = x := by
    apply UInt8.toNat_inj.mp
    rw [UInt8.toNat_ofNat', UInt16.toNat_ofNat']
    omega
  have hlow : UInt8.ofNat (UInt16.ofNat body.length).toNat = y := by
    apply UInt8.toNat_inj.mp
    rw [UInt8.toNat_ofNat', UInt16.toNat_ofNat']
    omega
  rw [frame, putUint16, hhigh, hlow]

def Incomplete (rest : Str) : Prop := rest.length < 2 ∨ rest.length < 2 + (be16 rest 0).toNat

theorem not_incomplete_frame (h : b.length ≤ 65535) (rest : Str) : ¬ Incomplete (frame b ++ rest) := by
  have hlen : (frame b ++ rest).length = 2 + (b.length + rest.length) := by simp [frame]
  rintro (hlt | hlt)
  · omega
  · rw [be16_frame h] at hlt
    omega

theorem frames_unique (hds : ∀ d ∈ ds, d.length ≤ 65535) (hds' : ∀ d ∈ ds', d.length ≤ 65535) (hrest : Incomplete rest)
    (h : ds.flatMap frame = ds'.flatMap frame ++ rest) : ds' = ds ∧ rest = [] := by
  induction ds' generalizing ds with
  | nil =>
    cases ds with
    | nil => exact ⟨rfl, h.symm⟩
    | cons d ds =>
      rw [flatMap_cons, flatMap_nil, nil_append] at h
      rw [← h] at hrest
      exact absurd hrest (not_incomplete_frame (hds d mem_cons_self) _)
  | cons d' ds' ih =>
    rw [forall_mem_cons] at hds'
    rw [flatMap_cons, append_assoc] at h
    cases ds with
    | nil => simp [frame, putUint16] at h
    | cons d ds =>
      rw [forall_mem_cons] at hds
      rw [flatMap_cons] at h
      have hsize := congrArg (fun s => (be16 s 0).toNat) h
      simp only [be16_frame hds.1, be16_frame hds'.1] at hsize
      obtain ⟨hframe, hmore⟩ := append_inj h (by simp [frame, hsize])
      obtain ⟨-, hd⟩ := append_inj hframe rfl
      obtain ⟨hrec, hnil⟩ := ih hds.2 hds'.2 hmore
      exact ⟨by rw [hd, hrec], hnil⟩

end

/-! ## Chunks -/

namespace Writer

variable {w : Writer} {bytes p : Str} {out : Nat → Outside}

/-- What has come in is what was sent, framed, and the beginning of the next frame. -/
structure Fed (w : Writer) (bytes : Str) : Prop where
  taken : bytes = w.sent.flatMap frame ++ (w.hdr ++ w.body)
  small : ∀ d ∈ w.sent, d.length ≤ 65535
  shape : (w.hdr.length < 2 ∧ w.body = []) ∨
    (w.hdr.length = 2 ∧ w.want = (be16 w.hdr 0).toNat ∧ w.body.length < w.want)

theorem Fed.fresh : Fed .fresh [] := ⟨rfl, nofun, .inl ⟨by decide, rfl⟩⟩

theorem Fed.incomplete (h : Fed w bytes) : Incomplete (w.hdr ++ w.body) := by
  obtain ⟨hlt, hbody⟩ | ⟨hhdr, hwant, hlt⟩ := h.shape
  · rw [hbody, append_nil]
    exact .inl hlt
  · refine .inr ?_
    have hbe : be16 (w.hdr ++ w.body) 0 = be16 w.hdr 0 := by
      rw [be16, be16, getD_append_left _ (by omega), getD_append_left _ (by omega)]
    rw [hbe, ← hwant, length_append, hhdr]
    omega

theorem Fed.send (h : bytes = w.sent.flatMap frame ++ (w.hdr ++ w.body)) (hsmall : ∀ d ∈ w.sent, d.length ≤ 65535)
    (hhdr : w.hdr.length = 2) (hbody : w.body.length = (be16 w.hdr 0).toNat) :
    Fed ⟨[], 0, [], w.sent ++ [w.body]⟩ bytes := by
  have hlt := (be16 w.hdr 0).toNat_lt
  refine ⟨?_, ?_, .inl ⟨Nat.zero_lt_two, rfl⟩⟩
  · rw [h, flatMap_append, flatMap_singleton, frame_of_header hhdr hbody]
    simp
  · rw [forall_mem_append, forall_mem_singleton]
    exact ⟨hsmall, by omega⟩

/-- What a turn does while the flow is open: it takes some bytes, or the rest of the chunk. -/
def Advances (bytes p : Str) : Turn → Prop
  | .more w rest => ∃ taken, p = taken ++ rest ∧ taken ≠ [] ∧ Fed w (bytes ++ taken)
  | .stop w rest err => rest = [] ∧ err = none ∧ Fed w (bytes ++ p)

theorem take_ne_nil {n : Nat} (hn : n ≠ 0) (hp : p ≠ []) : p.take n ≠ [] := by
  rw [ne_eq, take_eq_nil_iff, not_or]
  exact ⟨hn, hp⟩

theorem turn_advances_header (h : Fed w bytes) (hp : p ≠ []) (hlt : w.hdr.length < 2) (hbody : w.body = []) :
    Advances bytes p (w.turn .fine p) := by
  have htaken := h.taken
  rw [hbody, append_nil] at htaken
  have hne : p.take (2 - w.hdr.length) ≠ [] := take_ne_nil (by omega) hp
  simp only [turn, Outside.fine, Bool.false_eq_true, if_false, if_pos hlt]
  by_cases hshort : (w.hdr ++ p.take (2 - w.hdr.length)).length < 2
  · -- the chunk ends in the header
    have hlen : p.length ≤ 2 - w.hdr.length := by
      rw [length_append, length_take] at hshort
      omega
    rw [if_pos hshort]
    refine ⟨drop_eq_nil_of_le hlen, rfl, ?_, h.small, .inl ⟨hshort, hbody⟩⟩
    simp only [htaken, hbody, take_of_length_le hlen, append_nil, append_assoc]
  · have hfull : (w.hdr ++ p.take (2 - w.hdr.length)).length = 2 := by
      rw [length_append, length_take] at hshort ⊢
      omega
    rw [if_neg hshort]
    have hfed : bytes ++ p.take (2 - w.hdr.length) =
        w.sent.flatMap frame ++ ((w.hdr ++ p.take (2 - w.hdr.length)) ++ []) := by
      rw [htaken, append_nil, append_assoc]
    by_cases hzero : (be16 (w.hdr ++ p.take (2 - w.hdr.length)) 0).toNat = 0
    · rw [if_pos hzero]
      refine ⟨_, (take_append_drop _ p).symm, hne, ?_⟩
      exact @Fed.send ⟨w.hdr ++ p.take (2 - w.hdr.length), 0, [], w.sent⟩ _ hfed h.small hfull hzero.symm
    · rw [if_neg hzero]
      exact ⟨_, (take_append_drop _ p).symm, hne, hfed, h.small, .inr ⟨hfull, rfl, Nat.pos_of_ne_zero hzero⟩⟩

theorem turn_advances_body (h : Fed w bytes) (hp : p ≠ []) (hhdr : w.hdr.length = 2)
    (hwant : w.want = (be16 w.hdr 0).toNat) (hlt : w.body.length < w.want) : Advances bytes p (w.turn .fine p) := by
  have hpos := length_pos_of_ne_nil hp
  have hne : p.take (min (w.want - w.body.length) p.length) ≠ [] := take_ne_nil (by omega) hp
  have hfed : bytes ++ p.take (min (w.want - w.body.length) p.length) =
      w.sent.flatMap frame ++ (w.hdr ++ (w.body ++ p.take (min (w.want - w.body.length) p.length))) := by
    rw [h.taken]
    simp only [append_assoc]
  simp only [turn, Outside.fine, Bool.false_eq_true, if_false, if_neg (show ¬ w.hdr.length < 2 by omega)]
  split
  next hfull =>
    refine ⟨_, (take_append_drop _ p).symm, hne, ?_⟩
    exact @Fed.send { w with body := w.body ++ p.take (min (w.want - w.body.length) p.length) } _ hfed h.small hhdr
      (hfull.trans hwant)
  next hpart =>
    refine ⟨_, (take_append_drop _ p).symm, hne, hfed, h.small, .inr ⟨hhdr, hwant, ?_⟩⟩
    simp only [length_append, length_take] at hpart ⊢
    omega

theorem turn_advances (h : Fed w bytes) (hp : p ≠ []) : Advances bytes p (w.turn .fine p) := by
  obtain ⟨hlt, hbody⟩ | ⟨hhdr, hwant, hlt⟩ := h.shape
  · exact turn_advances_header h hp hlt hbody
  · exact turn_advances_body h hp hhdr hwant hlt

theorem loop_fed {fuel : Nat} (hout : ∀ k, out k = .fine) (h : Fed w bytes) (hfuel : p.length ≤ fuel) :
    ∃ w', loop out fuel w p = (w', [], none) ∧ Fed w' (bytes ++ p) := by
  induction fuel generalizing w bytes p with
  | zero =>
    obtain rfl := length_eq_zero_iff.mp (Nat.le_zero.mp hfuel)
    exact ⟨w, rfl, by rwa [append_nil]⟩
  | succ fuel ih =>
    by_cases hp : p = []
    · subst hp
      exact ⟨w, rfl, by rwa [append_nil]⟩
    · have hturn := turn_advances h hp
      rw [loop, if_neg hp, hout]
      cases ht : w.turn .fine p with
      | more w' rest =>
        rw [ht] at hturn
        obtain ⟨taken, rfl, hne, hfed⟩ := hturn
        have hlen := length_pos_of_ne_nil hne
        rw [length_append] at hfuel
        rw [← append_assoc]
        exact ih hfed (by omega)
      | stop w' rest err =>
        rw [ht] at hturn
        obtain ⟨rfl, rfl, hfed⟩ := hturn
        exact ⟨w', rfl, hfed⟩

theorem writes_fed {out : Nat → Nat → Outside} (hout : ∀ i k, out i k = .fine) (ps : List Str) (h : Fed w bytes) :
    ∃ w', writes out w ps = (w', ps.map fun p => (p.length, none)) ∧ Fed w' (bytes ++ ps.flatten) := by
  induction ps generalizing w bytes with
  | nil => exact ⟨w, rfl, by rwa [flatten_nil, append_nil]⟩
  | cons p ps ih =>
    obtain ⟨w₁, hloop, hfed⟩ := loop_fed (hout ps.length) h (Nat.le_refl p.length)
    obtain ⟨w', hwrites, hfed'⟩ := ih hfed
    refine ⟨w', ?_, by rwa [flatten_cons, ← append_assoc]⟩
    simp only [writes, write, hloop, hwrites, map_cons, length_nil, Nat.sub_zero]

theorem writes_frames {out : Nat → Nat → Outside} {ds ps : List Str} (hout : ∀ i k, out i k = .fine)
    (hds : ∀ d ∈ ds, d.length ≤ 65535) (hps : ps.flatten = ds.flatMap frame) :
    ∃ w', writes out .fresh ps = (w', ps.map fun p => (p.length, none)) ∧ w'.sent = ds := by
  obtain ⟨w', hwrites, hfed⟩ := writes_fed hout ps Fed.fresh
  have hall := hfed.taken
  rw [nil_append, hps] at hall
  exact ⟨w', hwrites, (frames_unique hds hfed.small hfed.incomplete hall).1⟩

end Writer

end ArangeTun.UdpForward
