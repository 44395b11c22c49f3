import ArangeTun.Go.Encoder

/-!
# Backups

`WriteBackup` of internal/manage/backup.go.
-/

namespace ArangeTun.Manage

open Go Layer

/-! ## The directory -/

inductive Kind
  | regular
  | directory
  | symlink
  | device
  | pipe
  | socket
  deriving DecidableEq

structure Info where
  kind : Kind
  mode : Nat
  size : Nat
  deriving DecidableEq

/-- What `io.Copy` reads from an open file: its bytes in pieces, and the error after them if it is not `io.EOF`. -/
structure File where
  chunks : List Str
  ending : Option Error
  deriving DecidableEq

structure Visit where
  rel : Str
  err : Option Error
  info : Info
  file : Except Error File
  deriving DecidableEq

structure Header where
  name : Str
  kind : Kind
  mode : Nat
  size : Nat
  deriving DecidableEq

def fileInfoHeader (info : Info) (name : Str) : Except Error Header :=
  match info.kind with
  | .socket => .error (.other (lit "archive/tar: sockets not supported"))
  | .regular => .ok ⟨name, .regular, info.mode, info.size⟩
  | kind => .ok ⟨name, kind, info.mode, 0⟩

inductive TarOp
  | header (h : Header)
  | data (b : Str)
  deriving DecidableEq

/-! ## The function -/

section

variable (tar : Encoder TarOp Str) (gz : Encoder Str Str)

abbrev GzipWriter := Layer gz Dest

abbrev TarWriter := Layer tar (GzipWriter gz)

def gzWrite : GzipWriter gz → Str → GzipWriter gz × Option Error := Layer.push Dest.write

def twWrite : TarWriter tar gz → TarOp → TarWriter tar gz × Option Error := Layer.push (gzWrite gz)

def copy (tw : TarWriter tar gz) (f : File) : TarWriter tar gz × Option Error :=
  match writeAll (twWrite tar gz) tw (f.chunks.map .data) with
  | (tw, some err) => (tw, some err)
  | (tw, none) => (tw, f.ending)

def visit (tw : TarWriter tar gz) (v : Visit) : TarWriter tar gz × Option Error :=
  match v.err with
  | some err => (tw, some err)
  | none =>
    if v.rel = lit "." then (tw, none)
    else
      match fileInfoHeader v.info (if v.info.kind = .directory then v.rel ++ lit "/" else v.rel) with
      | .error err => (tw, some err)
      | .ok hdr =>
        match twWrite tar gz tw (.header hdr) with
        | (tw, some err) => (tw, some err)
        | (tw, none) =>
          if v.info.kind ≠ .regular then (tw, none)
          else
            match v.file with
            | .error err => (tw, some err)
            | .ok f => copy tar gz tw f

def walk (tw : TarWriter tar gz) : List Visit → TarWriter tar gz × Option Error
  | [] => (tw, none)
  | v :: vs =>
    match visit tar gz tw v with
    | (tw, some err) => (tw, some err)
    | (tw, none) => walk tw vs

def metaHeader (metaJSON : Str) : Header :=
  ⟨lit ".arange-tun-backup.json", .regular, 0o600, metaJSON.length⟩

def backupBody (tw : TarWriter tar gz) (metaJSON : Str) (vs : List Visit) : TarWriter tar gz × Option Error :=
  match twWrite tar gz tw (.header (metaHeader metaJSON)) with
  | (tw, some err) => (tw, some err)
  | (tw, none) =>
    match twWrite tar gz tw (.data metaJSON) with
    | (tw, some err) => (tw, some err)
    | (tw, none) => walk tar gz tw vs

def newWriter (fault : Nat → Option (Nat × Error)) : TarWriter tar gz :=
  ⟨tar.start, none, gz.start, none, .new fault⟩

/-- The result of `WriteBackup`, and the writer as the deferred `tw.Close()` and `gz.Close()` leave it. -/
def writeBackup (metaJSON : Str) (vs : List Visit) (fault : Nat → Option (Nat × Error)) : Dest × Option Error :=
  let r := backupBody tar gz (newWriter tar gz fault) metaJSON vs
  let tw := (r.1.close (gzWrite gz)).1
  let gw := (tw.below.close Dest.write).1
  (gw.below, r.2)

end

/-! ## What is written, apart from the writers -/

/-- What the walk has for the tar writer, and the error that it ends with on its own. -/
structure Script where
  ops : List TarOp
  err : Option Error

def Script.append (a b : Script) : Script :=
  match a.err with
  | some _ => a
  | none => ⟨a.ops ++ b.ops, b.err⟩

def Visit.script (v : Visit) : Script :=
  match v.err with
  | some err => ⟨[], some err⟩
  | none =>
    if v.rel = lit "." then ⟨[], none⟩
    else
      match fileInfoHeader v.info (if v.info.kind = .directory then v.rel ++ lit "/" else v.rel) with
      | .error err => ⟨[], some err⟩
      | .ok hdr =>
        if v.info.kind ≠ .regular then ⟨[.header hdr], none⟩
        else
          match v.file with
          | .error err => ⟨[.header hdr], some err⟩
          | .ok f => ⟨.header hdr :: f.chunks.map .data, f.ending⟩

def scripts (vs : List Visit) : Script := (vs.map Visit.script).foldr Script.append ⟨[], none⟩

def backupScript (metaJSON : Str) (vs : List Visit) : Script :=
  (Script.mk [.header (metaHeader metaJSON), .data metaJSON] none).append (scripts vs)

section

variable {tar : Encoder TarOp Str} {gz : Encoder Str Str} {tw : TarWriter tar gz}

def play (tw : TarWriter tar gz) (s : Script) : TarWriter tar gz × Option Error :=
  match writeAll (twWrite tar gz) tw s.ops with
  | (tw, some err) => (tw, some err)
  | (tw, none) => (tw, s.err)

theorem play_append (a b : Script) :
    play tw (a.append b) = match play tw a with
      | (tw', some err) => (tw', some err)
      | (tw', none) => play tw' b := by
  unfold play Script.append
  rcases hw : writeAll (twWrite tar gz) tw a.ops with ⟨tw', _ | err⟩
  · cases ha : a.err with
    | some err => simp [hw, ha]
    | none => simp [writeAll_append_ok hw]
  · cases ha : a.err with
    | some err' => simp [hw]
    | none => simp [writeAll_append_error hw]

theorem visit_eq_play (v : Visit) : visit tar gz tw v = play tw v.script := by
  unfold visit Visit.script
  split
  · rfl
  split
  · rfl
  split
  · rfl
  rename_i hdr _
  rcases hw : twWrite tar gz tw (.header hdr) with ⟨tw', _ | err⟩
  · dsimp only
    split
    · simp [play, writeAll, hw]
    split
    · simp [play, writeAll, hw]
    · simp [play, copy, writeAll, hw]
  · dsimp only
    split
    · simp [play, writeAll, hw]
    split <;> simp [play, writeAll, hw]

theorem walk_eq_play (vs : List Visit) : walk tar gz tw vs = play tw (scripts vs) := by
  induction vs generalizing tw with
  | nil => rfl
  | cons v vs ih =>
    have hcons : scripts (v :: vs) = v.script.append (scripts vs) := rfl
    rw [hcons, play_append, walk, visit_eq_play]
    split
    · rfl
    · exact ih

theorem backupBody_eq_play (metaJSON : Str) (vs : List Visit) :
    backupBody tar gz tw metaJSON vs = play tw (backupScript metaJSON vs) := by
  unfold backupBody backupScript
  rw [play_append]
  rcases h₁ : twWrite tar gz tw (.header (metaHeader metaJSON)) with ⟨tw₁, _ | err⟩
  · rcases h₂ : twWrite tar gz tw₁ (.data metaJSON) with ⟨tw₂, _ | err⟩
    · simp [play, writeAll, h₁, h₂, walk_eq_play]
    · simp [play, writeAll, h₁, h₂]
  · simp [play, writeAll, h₁]

end

/-! ## Completeness -/

section

variable (tar : Encoder TarOp Str) (gz : Encoder Str Str) (metaJSON : Str) (vs : List Visit)

def bodyWrites (ops : List TarOp) : Except Error (List Str) :=
  match tar.pushAll tar.start ops with
  | .error err => .error err
  | .ok (_, ts) =>
    match gz.pushAll gz.start ts with
    | .error err => .error err
    | .ok (_, gs) => .ok gs

/-- The `Write` calls on `w` for the complete gzip stream of the complete tar archive. -/
def archive (ops : List TarOp) : Except Error (List Str) :=
  match tar.encode ops with
  | .error err => .error err
  | .ok ts => gz.encode ts

/-- No `Write` failed, and what was accepted is the compressed archive of the whole directory. -/
def Complete (w : Dest) : Prop :=
  w.failed = false ∧ (backupScript metaJSON vs).err = none ∧
    ∃ gs, archive tar gz (backupScript metaJSON vs).ops = .ok gs ∧ w.accepted = gs.flatten

/-- Either the function gets to see an error, of the directory or of a `Write`, or the deferred calls get all
of their `Write` calls through. -/
def ClosesThrough (fault : Nat → Option (Nat × Error)) : Prop :=
  (backupScript metaJSON vs).err ≠ none ∨
    ∀ body, bodyWrites tar gz (backupScript metaJSON vs).ops = .ok body →
      (∃ k < body.length, fault k ≠ none) ∨
        ∃ gs, archive tar gz (backupScript metaJSON vs).ops = .ok gs ∧
          ∀ k, body.length ≤ k → k < gs.length → fault k = none

end

section

variable {tar : Encoder TarOp Str} {gz : Encoder Str Str} {metaJSON : Str} {vs : List Visit}
  {fault : Nat → Option (Nat × Error)} {tst : tar.State} {gst : gz.State} {ops : List TarOp} {ts body rest : List Str}

def closeWrites (tar : Encoder TarOp Str) (gz : Encoder Str Str) (tst : tar.State) (gst : gz.State) :
    Except Error (List Str) :=
  match tar.finish tst with
  | .error err => .error err
  | .ok tail =>
    match gz.pushAll gst tail with
    | .error err => .error err
    | .ok (gst', os) => (gz.finish gst').map (os ++ ·)

theorem archive_eq (ht : tar.pushAll tar.start ops = .ok (tst, ts)) (hg : gz.pushAll gz.start ts = .ok (gst, body)) :
    archive tar gz ops = (closeWrites tar gz tst gst).map (body ++ ·) := by
  unfold archive Encoder.encode closeWrites
  rw [ht]
  cases htail : tar.finish tst with
  | error err => simp [Except.map, htail]
  | ok tail =>
    simp only [Except.map, htail, Encoder.pushAll_append hg]
    cases hpush : gz.pushAll gst tail with
    | error err => simp
    | ok r => cases hfin : gz.finish r.1 <;> simp [hfin]

def closeAll (tw : TarWriter tar gz) : Dest := ((tw.close (gzWrite gz)).1.below.close Dest.write).1.below

theorem closeAll_eq {w : Dest} (h : closeWrites tar gz tst gst = .ok rest) :
    closeAll ⟨tst, none, gst, none, w⟩ = (writeAll Dest.write w rest).1 := by
  unfold closeWrites at h
  split at h
  · cases h
  rename_i tail htail
  split at h
  · cases h
  rename_i gst' os hpush
  obtain ⟨os', hfin, rfl⟩ : ∃ os', gz.finish gst' = .ok os' ∧ os ++ os' = rest := by
    cases hfin : gz.finish gst' with
    | error err => simp [hfin, Except.map] at h
    | ok os' => exact ⟨os', rfl, by simpa [hfin, Except.map] using h⟩
  have hgz : closeAll ⟨tst, none, gst, none, w⟩ =
      (close Dest.write (writeAll (gzWrite gz) ⟨gst, none, w⟩ tail).1).1.below := by
    simp [closeAll, close, hand, htail, Except.map]
  obtain ⟨st', hall, hst⟩ := writeAll_push Dest.write ⟨gst, none, w⟩ rfl hpush
  have hall' : (writeAll (gzWrite gz) ⟨gst, none, w⟩ tail).1 = _ := congrArg Prod.fst hall
  rw [hgz, hall']
  rcases hw : writeAll Dest.write w os with ⟨w', _ | err⟩
  · rw [writeAll_append_ok hw]
    obtain rfl : st' = gst' := hst (by rw [hw])
    simp [close, hand, hfin, Except.map]
  · rw [writeAll_append_error hw]
    simp [close, hand]

theorem writeBackup_eq : writeBackup tar gz metaJSON vs fault =
    (closeAll (play (newWriter tar gz fault) (backupScript metaJSON vs)).1,
      (play (newWriter tar gz fault) (backupScript metaJSON vs)).2) := by
  rw [← backupBody_eq_play]
  rfl

theorem writeAll_body (ht : tar.pushAll tar.start ops = .ok (tst, ts)) (hg : gz.pushAll gz.start ts = .ok (gst, body)) :
    (writeAll (twWrite tar gz) (newWriter tar gz fault) ops).2 = (writeAll Dest.write (.new fault) body).2 ∧
      ((writeAll Dest.write (.new fault) body).2 = none →
        (writeAll (twWrite tar gz) (newWriter tar gz fault) ops).1 =
          ⟨tst, none, gst, none, (writeAll Dest.write (.new fault) body).1⟩) := by
  obtain ⟨tst', htw, htst⟩ := writeAll_push (gzWrite gz) (newWriter tar gz fault) rfl ht
  obtain ⟨gst', hgw, hgst⟩ := writeAll_push Dest.write ⟨gz.start, none, .new fault⟩ rfl hg
  have hgw' : writeAll (gzWrite gz) (newWriter tar gz fault).below ts = _ := hgw
  rw [hgw'] at htw htst
  have htw' : writeAll (twWrite tar gz) (newWriter tar gz fault) ops = _ := htw
  rw [htw']
  refine ⟨rfl, fun h => ?_⟩
  obtain rfl := htst h
  obtain rfl := hgst h
  rw [h]

theorem exists_of_bodyWrites (h : bodyWrites tar gz ops = .ok body) :
    ∃ tst ts, tar.pushAll tar.start ops = .ok (tst, ts) ∧ ∃ gst, gz.pushAll gz.start ts = .ok (gst, body) := by
  unfold bodyWrites at h
  split at h
  · cases h
  rename_i tst ts ht
  split at h
  · cases h
  rename_i gst gs hg
  cases h
  exact ⟨tst, ts, ht, gst, hg⟩

theorem writeAll_body_error {err : Error} (h : bodyWrites tar gz ops = .error err) :
    (writeAll (twWrite tar gz) (newWriter tar gz fault) ops).2 ≠ none := by
  unfold bodyWrites at h
  split at h
  · rename_i ht
    exact writeAll_push_error rfl ht
  rename_i tst ts ht
  split at h
  · rename_i hg
    obtain ⟨tst', htw, _⟩ := writeAll_push (gzWrite gz) (newWriter tar gz fault) rfl ht
    have htw' : writeAll (twWrite tar gz) (newWriter tar gz fault) ops = _ := htw
    rw [htw']
    exact writeAll_push_error rfl hg
  · cases h

theorem play_of_ok {tw tw' : TarWriter tar gz} {s : Script} (h : writeAll (twWrite tar gz) tw s.ops = (tw', none)) :
    play tw s = (tw', s.err) := by
  rw [play, h]

theorem play_ne_none {tw : TarWriter tar gz} {s : Script}
    (h : (writeAll (twWrite tar gz) tw s.ops).2 ≠ none ∨ s.err ≠ none) : (play tw s).2 ≠ none := by
  rcases hw : writeAll (twWrite tar gz) tw s.ops with ⟨tw', _ | err⟩
  · rw [play_of_ok hw]
    simpa [hw] using h
  · simp [play, hw]

theorem closeAll_complete_iff (ht : tar.pushAll tar.start ops = .ok (tst, ts))
    (hg : gz.pushAll gz.start ts = .ok (gst, body)) (hfault : ∀ k < body.length, fault k = none) :
    ((closeAll (writeAll (twWrite tar gz) (newWriter tar gz fault) ops).1).failed = false ∧
      ∃ gs, archive tar gz ops = .ok gs ∧
        (closeAll (writeAll (twWrite tar gz) (newWriter tar gz fault) ops).1).accepted = gs.flatten) ↔
    ∃ gs, archive tar gz ops = .ok gs ∧ ∀ k, body.length ≤ k → k < gs.length → fault k = none := by
  have hok : writeAll Dest.write (.new fault) body = _ := Dest.writeAll_ok (by simpa [Dest.new] using hfault)
  rw [(writeAll_body ht hg).2 (by rw [hok]), archive_eq ht hg]
  cases hclose : closeWrites tar gz tst gst with
  | error err => simp [Except.map]
  | ok rest =>
    have hdest : closeAll ⟨tst, none, gst, none, (writeAll Dest.write (.new fault) body).1⟩ =
        (writeAll Dest.write (.new fault) (body ++ rest)).1 := by
      rw [closeAll_eq hclose, hok, writeAll_append_ok hok]
    have hall := Dest.writeAll_new_iff fault (body ++ rest)
    have hsplit : (∀ k < (body ++ rest).length, fault k = none) ↔
        ∀ k, body.length ≤ k → k < (body ++ rest).length → fault k = none := by
      refine ⟨fun h k _ => h k, fun h k hk => ?_⟩
      rcases Nat.lt_or_ge k body.length with hlt | hge
      · exact hfault k hlt
      · exact h k hge hk
    rw [hdest]
    simpa [Except.map] using hall.trans hsplit

/-- A backup that is reported as a success is complete, exactly when the deferred calls do not meet the first
error. -/
theorem writeBackup_complete_iff :
    ((writeBackup tar gz metaJSON vs fault).2 = none →
      Complete tar gz metaJSON vs (writeBackup tar gz metaJSON vs fault).1) ↔
    ClosesThrough tar gz metaJSON vs fault := by
  rw [writeBackup_eq]
  generalize hS : backupScript metaJSON vs = S
  unfold Complete ClosesThrough
  rw [hS]
  by_cases herr : S.err = none
  swap
  · exact iff_of_true (fun h => absurd h (play_ne_none (.inr herr))) (.inl herr)
  cases hbody : bodyWrites tar gz S.ops with
  | error err =>
    exact iff_of_true (fun h => absurd h (play_ne_none (.inl (writeAll_body_error hbody)))) (.inr (by simp))
  | ok body =>
    obtain ⟨tst, ts, ht, gst, hg⟩ := exists_of_bodyWrites hbody
    by_cases hfault : ∃ k < body.length, fault k ≠ none
    · have hfails := (Dest.writeAll_failed (d := .new fault) (by simpa [Dest.new] using hfault)).1
      rw [← (writeAll_body ht hg).1] at hfails
      refine iff_of_true (fun h => absurd h (play_ne_none (.inl hfails))) (.inr fun body' hbody' => ?_)
      cases hbody'
      exact .inl hfault
    · have hnone : ∀ k < body.length, fault k = none := by simpa using hfault
      have hwrote : (writeAll (twWrite tar gz) (newWriter tar gz fault) S.ops).2 = none := by
        rw [(writeAll_body ht hg).1, Dest.writeAll_ok (by simpa [Dest.new] using hnone)]
      have hplay : play (newWriter tar gz fault) S =
          ((writeAll (twWrite tar gz) (newWriter tar gz fault) S.ops).1, none) := by
        rw [play_of_ok (Prod.ext rfl hwrote), herr]
      simp only [hplay, herr, forall_const, true_and, ne_eq, not_true_eq_false, false_or]
      refine (closeAll_complete_iff ht hg hnone).trans ⟨fun h body' hbody' => ?_, fun h => ?_⟩
      · cases hbody'
        exact .inr h
      · exact (h body rfl).resolve_left hfault

end

/-! ## A disk that is full after the header -/

section

variable (block : Header → Str) (deflate sum : Str → Str)

/-- `archive/tar` hands on what it is given: a header after the padding of the file before it, and the two empty blocks of
the end when it is closed. Its state is that padding. -/
def tarWriter : Encoder TarOp Str where
  State := Nat
  start := 0
  push pad
    | .header h => .ok ((512 - h.size % 512) % 512, [.replicate pad 0, block h])
    | .data b => .ok (pad, [b])
  finish pad := .ok [.replicate pad 0, .replicate 1024 0]

def gzipHeader : Str := [0x1f, 0x8b, 8, 0, 0, 0, 0, 0, 0, 255]

/-- `compress/gzip` writes its header with the first `Write`. Of so little input, the compressed bytes and the checksum
come when it is closed. -/
def gzipWriter : Encoder Str Str where
  State := Option Str
  start := none
  push
    | none, b => .ok (some b, [gzipHeader])
    | some held, b => .ok (some (held ++ b), [])
  finish
    | none => .ok [gzipHeader, deflate [], sum []]
    | some held => .ok [deflate held, sum held]

def configVisit : Visit :=
  ⟨lit "tunnel.toml", none, ⟨.regular, 0o600, 8⟩, .ok ⟨[lit "[server]"], none⟩⟩

def fullDisk (k : Nat) : Option (Nat × Error) :=
  if k = 0 then none else some (0, .other (lit "no space left on device"))

end

/-- The second `Write` is one of the deferred `gz.Close()`, and fails unnoticed: whatever the header of a file is and
however it is compressed, ten bytes are a success. -/
theorem backup_header_reported : (fullDisk 0 = none ∧ fullDisk 1 ≠ none) ∧
    ∀ (block : Header → Str) (deflate sum : Str → Str),
      let r := writeBackup (tarWriter block) (gzipWriter deflate sum) (lit "\x7b\x7d") [configVisit] fullDisk
      r.2 = none ∧ r.1.failed = true ∧ r.1.accepted = gzipHeader :=
  ⟨⟨rfl, nofun⟩, fun _ _ _ => ⟨rfl, rfl, rfl⟩⟩

end ArangeTun.Manage
