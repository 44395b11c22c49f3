import ArangeTun.Tunnels.Generated

/-!
# Updates and snapshots

snapshot.go, update.go and updatesource.go of internal/manage, and `List` and `RestartAll` of tunnel.go.
-/

namespace ArangeTun.Manage

open Go Tunnels

/-! ## Files -/

structure Tree where
  entries : List (Str × Str)
  nodup : (entries.map Prod.fst).Nodup

namespace Tree

def empty : Tree := ⟨[], List.nodup_nil⟩

variable (t src dst : Tree) (p : Str)

def get : Option Str := (t.entries.find? (·.1 = p)).map Prod.snd

def remove : Tree := ⟨t.entries.filter (·.1 ≠ p), t.nodup.sublist (List.filter_sublist.map _)⟩

theorem not_mem_remove : p ∉ (t.remove p).entries.map Prod.fst := by
  simp [remove]

def put (c : Str) : Tree := ⟨(p, c) :: (t.remove p).entries, List.nodup_cons.mpr ⟨t.not_mem_remove p, (t.remove p).nodup⟩⟩

def write (text : Str) (r : Write) : Tree :=
  match r.left text with
  | some c => t.put p c
  | none => t.remove p

def copyTree : Tree where
  entries := src.entries ++ dst.entries.filter fun e => e.1 ∉ src.entries.map Prod.fst
  nodup := by
    rw [List.map_append, List.nodup_append]
    refine ⟨src.nodup, dst.nodup.sublist (List.filter_sublist.map _), ?_⟩
    rintro p hsrc q hdst rfl
    obtain ⟨e, he, rfl⟩ := List.mem_map.mp hdst
    exact of_decide_eq_true (List.mem_filter.mp he).2 hsrc

end Tree

inductive Copy
  | whole
  | broken (left : Tree)

structure Folder where
  binary : Option Str := none
  config : Option Tree := none
  metaJson : Option Str := none

structure Host where
  binary : Option Str
  config : Option Tree
  snapshots : List (Str × Folder)
  units : Str → Bool
  active : Str → Bool

def tomlSuffix : Str := lit ".toml"

def installedCommitFile : Str := lit "installed_commit"

/-- What becomes of a service, and the files that it writes into the directory while it stops and starts: a tunnel its
metrics, the monitor its histories. None of them is a configuration or the record of the commit. -/
structure Restart extends Ctl where
  files : Tree := .empty
  runtime : ∀ e ∈ files.entries, ¬ tomlSuffix <:+ e.1 ∧ e.1 ≠ installedCommitFile := by exact fun _ => nofun

/-! ## internal/manage/tunnel.go -/

def tunnelName (decode : Str → Option Sections) (entry : Str × Str) : Option Str :=
  if byte '/' ∉ entry.1 ∧ tomlSuffix <:+ entry.1 ∧ ((decode entry.2).bind Sections.tunnel).isSome = true then
    some (entry.1.take (entry.1.length - tomlSuffix.length))
  else none

section

variable (decode : Str → Option Sections) (h : Host)

/-- The tunnels in the order of their files. -/
def Host.list : List Str :=
  (((h.config.getD .empty).entries.filter fun e => (tunnelName decode e).isSome).mergeSort
    fun a b => decide (a.1 ≤ b.1)).filterMap (tunnelName decode)

def Host.ctl (name : Str) (r : Restart) : Host :=
  { h with
    active := Function.update h.active name r.active
    config := if r.files.entries = [] then h.config else some (r.files.copyTree (h.config.getD .empty)) }

def restartAll (restart : Str → Restart) : Host × Nat × Nat :=
  (h.list decode).foldl
    (fun (h, ok, failed) name =>
      if (restart name).ok then (h.ctl name (restart name), ok + 1, failed)
      else (h.ctl name (restart name), ok, failed + 1))
    (h, 0, 0)

/-! ## internal/manage/snapshot.go -/

def snapshotRetention : Nat := 5

inductive SnapshotError
  | mkdir
  | binary
  | config
  | writeMeta
  deriving DecidableEq

structure SnapshotOutcomes where
  stamp : Str
  metaJson : Str
  mkdir : Bool := true
  copyBinary : Bool := true
  copyConfig : Bool := true
  writeMeta : Bool := true

def Host.folder (dir : Str) : Option Folder := (h.snapshots.find? (·.1 = dir)).map Prod.snd

def Host.removeAll (dir : Str) : Host := { h with snapshots := h.snapshots.filter (·.1 ≠ dir) }

def Host.putFolder (dir : Str) (f : Folder) : Host := { h with snapshots := (dir, f) :: (h.removeAll dir).snapshots }

def Host.listSnapshots : List Str := (h.snapshots.map Prod.fst).mergeSort fun a b => decide (b ≤ a)

def pruneSnapshots : Host := (h.listSnapshots.drop snapshotRetention).foldl Host.removeAll h

def snapshotDir (reason stamp : Str) : Str := reason ++ lit "-" ++ stamp

def takeSnapshot (reason : Str) (o : SnapshotOutcomes) : Host × Except SnapshotError Str :=
  let dir := snapshotDir reason o.stamp
  if o.mkdir = false then (h, .error .mkdir)
  else
    -- a folder of the same second is used again
    let f := (h.folder dir).getD {}
    if h.binary.isSome ∧ o.copyBinary = false then (h.removeAll dir, .error .binary)
    else
      let f := { f with binary := h.binary.or f.binary }
      match h.config with
      | none => (h.removeAll dir, .error .config)
      | some tree =>
        if o.copyConfig = false then (h.removeAll dir, .error .config)
        else
          let f := { f with config := some (tree.copyTree (f.config.getD .empty)) }
          if o.writeMeta = false then (h.removeAll dir, .error .writeMeta)
          else (pruneSnapshots (h.putFolder dir { f with metaJson := some o.metaJson }), .ok dir)

def Restart.well : Restart := { ok := true, active := true }

structure Restarts where
  panel : Restart := .well
  monitor : Restart := .well
  monitorUnit : Bool := true
  tunnels : Str → Restart := fun _ => .well

def panelName : Str := lit "webui"

def monitorName : Str := lit "monitor"

def restartServices (r : Restarts) : Host :=
  let h := h.ctl panelName r.panel
  let h := { h.ctl monitorName r.monitor with units := Function.update h.units monitorName r.monitorUnit }
  (restartAll decode h r.tunnels).1

inductive RestoreError
  | incomplete (dir : Str)
  | binary
  | rename
  | config
  deriving DecidableEq

structure RestoreOutcomes where
  copyBinary : Bool := true
  rename : Bool := true
  copyConfig : Copy := .whole
  unit : Str → Bool := fun _ => true
  restarts : Restarts := {}

def Host.writeUnits (names : List Str) (unit : Str → Bool) : Host :=
  { h with units := fun name => if name ∈ names then unit name else h.units name }

def restoreSnapshot (dir : Str) (o : RestoreOutcomes) : Host × Except RestoreError Unit :=
  match h.folder dir with
  | none => (h, .error (.incomplete dir))
  | some f =>
    if f.metaJson = none then (h, .error (.incomplete dir))
    else if f.binary.isSome ∧ o.copyBinary = false then (h, .error .binary)
    else if f.binary.isSome ∧ o.rename = false then (h, .error .rename)
    else
      let h := { h with binary := f.binary.or h.binary }
      let restore := fun h : Host =>
        (restartServices decode (h.writeUnits (h.list decode) o.unit) o.restarts, Except.ok ())
      match f.config with
      | none => restore h
      | some tree =>
        match o.copyConfig with
        | .broken left => ({ h with config := some left }, .error .config)
        | .whole => restore { h with config := some (tree.copyTree (h.config.getD .empty)) }

/-! ## internal/manage/updatesource.go -/

def installedCommitSHA : Str := trimSpace ((h.config.bind (·.get installedCommitFile)).getD [])

def writeInstalledCommit (sha : Str) (r : Write) : Host :=
  if trimSpace sha = [] then h
  else { h with config := some ((h.config.getD .empty).write installedCommitFile (trimSpace sha ++ lit "\n") r) }

structure BuildOutcomes where
  binary : Option Str
  latest : Option Str
  record : Write := .whole

def buildFromSource (o : BuildOutcomes) : Host × Bool :=
  match o.binary with
  | none => (h, false)
  | some b =>
    let h := { h with binary := some b }
    match o.latest with
    | none => (h, true)
    | some sha => (writeInstalledCommit h sha o.record, true)

/-! ## internal/manage/update.go -/

/-- Whether there is something newer, by `latestCommitSHA` or else by the versions. -/
def checkUpdate (latest : Option Str) (newerTag : Option Bool) : Option Bool :=
  match latest with
  | none => newerTag
  | some remote =>
    let sha := installedCommitSHA h
    some (decide (sha = [] ∨ Cmd.toLower sha ≠ Cmd.toLower remote))

def installPathFile : Str := lit "install_path"

def installDir : Str := lit "/root/Arange-tun"

def recordInstallPath (r : Write) : Host :=
  if trimSpace ((h.config.bind (·.get installPathFile)).getD []) ≠ [] then h
  else { h with config := some ((h.config.getD .empty).write installPathFile (installDir ++ lit "\n") r) }

def Host.judged : List Str :=
  ([panelName, monitorName] ++ h.list decode).filter fun name => h.units name

def unhealthyAfterUpdate (settled : Str → Bool) : List Str := (h.judged decode).filter fun name => !settled name

def Host.settle (settled : Str → Bool) : Host :=
  { h with active := fun name => if name ∈ h.judged decode then settled name else h.active name }

structure UpdateOutcomes where
  snapshot : SnapshotOutcomes
  build : BuildOutcomes
  installPath : Write := .whole
  restarts : Restarts := {}
  settled : Str → Bool
  rollback : RestoreOutcomes := {}

inductive UpdateError
  | snapshot (err : SnapshotError)
  | build
  | rollbackFailed (bad : List Str) (err : RestoreError)
  | rolledBack (bad : List Str)
  deriving DecidableEq

def preUpdate : Str := lit "pre-update"

def applyUpdate (o : UpdateOutcomes) : Host × Except UpdateError Unit :=
  match takeSnapshot h preUpdate o.snapshot with
  | (h, .error e) => (h, .error (.snapshot e))
  | (h, .ok dir) =>
    match buildFromSource h o.build with
    | (h, false) => (h, .error .build)
    | (h, true) =>
      let h := recordInstallPath h o.installPath
      let h := restartServices decode h o.restarts
      let bad := unhealthyAfterUpdate decode h o.settled
      let h := h.settle decode o.settled
      if bad = [] then (h, .ok ())
      else
        match restoreSnapshot decode h dir o.rollback with
        | (h, .error e) => (h, .error (.rollbackFailed bad e))
        | (h, .ok ()) => (h, .error (.rolledBack bad))

end

end ArangeTun.Manage
