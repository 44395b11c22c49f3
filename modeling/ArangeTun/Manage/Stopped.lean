import ArangeTun.Manage.Rollback
import ArangeTun.Manage.Watchdog

/-! # A tunnel that was stopped -/

namespace ArangeTun.Manage

open Go Transition Tunnels List Option

/-- What a pass of the watchdog meets: the health of each tunnel, the clock before and after its restart, and what the
restart leads to. -/
structure Pass where
  healthy : Str → Bool
  since : Str → Int
  now : Str → Int
  restart : Str → Restart := fun _ => .well

def watchTunnel (p : Pass) (s : Host × Watchdog.Memory) (name : Str) : Host × Watchdog.Memory :=
  let r := Watchdog.look s.2 ⟨name, s.1.active name, p.healthy name, p.since name, p.now name⟩
  (if r.2 then s.1.ctl name (p.restart name) else s.1, r.1)

def watchdogPass (decode : Str → Option Sections) (p : Pass) (h : Host) (v : Watchdog.Memory) :
    Host × Watchdog.Memory :=
  (h.list decode).foldl (watchTunnel p) (h, v)

structure State where
  host : Host
  watch : Watchdog.Memory := Watchdog.State.initial.memory

inductive Action
  | handleTunnelStop (name : Str) (r : Restart)
  | handleTunnelStart (name : Str) (r : Restart)
  | handleTunnelRestart (name : Str) (r : Restart)
  -- the configuration is written anew, and the tunnel restarted
  | edit (name text : Str) (unit : Bool) (r : Restart)
  | applyUpdate (o : UpdateOutcomes)
  | restoreSnapshot (dir : Str) (o : RestoreOutcomes)
  | restartAll (restart : Str → Restart)
  | watchdog (p : Pass)

section

variable (decode : Str → Option Sections) (s : State)

def State.command (name : Str) (r : Restart) : State :=
  if name ∈ s.host.list decode then { s with host := s.host.ctl name r } else s

def State.edit (name text : Str) (unit : Bool) (r : Restart) : State :=
  { s with
    host :=
      { s.host.ctl name r with
        config := some ((s.host.config.getD .empty).put (name ++ tomlSuffix) text)
        units := Function.update s.host.units name unit } }

def State.step : Action → Option State
  | .handleTunnelStop name r | .handleTunnelStart name r | .handleTunnelRestart name r => some (s.command decode name r)
  | .edit name text unit r => some (s.edit name text unit r)
  | .applyUpdate o => some { s with host := (Manage.applyUpdate decode s.host o).1 }
  | .restoreSnapshot dir o => some { s with host := (Manage.restoreSnapshot decode s.host dir o).1 }
  | .restartAll restart => some { s with host := (Manage.restartAll decode s.host restart).1 }
  | .watchdog p =>
    let (h, v) := watchdogPass decode p s.host s.watch
    some ⟨h, v⟩

end

/-! ## What a step leaves alone -/

def Tree.Lists (decode : Str → Option Sections) (name : Str) (t : Tree) : Prop :=
  name ∈ t.entries.filterMap (tunnelName decode)

instance (decode : Str → Option Sections) (name : Str) (t : Tree) : Decidable (t.Lists decode name) :=
  inferInstanceAs (Decidable (_ ∈ _))

/-- Neither the configurations nor the folder of a snapshot have the tunnel, and the name is not one of the program's own
services. -/
structure Host.Absent (decode : Str → Option Sections) (name dir : Str) (h : Host) : Prop where
  own : name ≠ panelName ∧ name ≠ monitorName
  config : ¬ (h.config.getD .empty).Lists decode name
  snapshot : ∀ f tree, h.folder dir = some f → f.config = some tree → ¬ tree.Lists decode name

/-- The snapshot cannot be taken, or the build fails. -/
def UpdateOutcomes.EndsEarly (o : UpdateOutcomes) (h : Host) : Prop :=
  o.snapshot.mkdir = false ∨ (h.binary.isSome = true ∧ o.snapshot.copyBinary = false) ∨ h.config = none ∨
    o.snapshot.copyConfig = false ∨ o.snapshot.writeMeta = false ∨ o.build.binary = none

def RestoreOutcomes.EndsEarly (o : RestoreOutcomes) (f : Folder) : Prop :=
  f.metaJson = none ∨ (f.binary.isSome = true ∧ (o.copyBinary = false ∨ o.rename = false)) ∨
    (f.config.isSome = true ∧ o.copyConfig ≠ .whole)

/-- The steps before the tunnel is started, restarted or edited, with no configuration of the tunnel in place where all
tunnels are restarted. -/
def Spared (decode : Str → Option Sections) (name : Str) (s : State) : Action → Prop
  | .handleTunnelStop other r => other = name → r.active = false
  | .handleTunnelStart other _ | .handleTunnelRestart other _ | .edit other _ _ _ => other ≠ name
  | .applyUpdate o => o.EndsEarly s.host ∨ s.host.Absent decode name (snapshotDir preUpdate o.snapshot.stamp)
  | .restoreSnapshot dir o => (∀ f ∈ s.host.folder dir, o.EndsEarly f) ∨ s.host.Absent decode name dir
  | .restartAll _ => ¬ (s.host.config.getD .empty).Lists decode name
  | .watchdog _ => True

variable {decode : Str → Option Sections} {h h' : Host} {name dir : Str} {s s₀ : State}

theorem mem_list : name ∈ h.list decode ↔ (h.config.getD .empty).Lists decode name := by
  unfold Host.list Tree.Lists
  simp only [mem_filterMap, mem_mergeSort, mem_filter]
  refine exists_congr fun e => ⟨fun he => ⟨he.1.1, he.2⟩, fun he => ⟨⟨he.1, ?_⟩, he.2⟩⟩
  rw [he.2]
  rfl

theorem ctl_active_of_ne {other : Str} (r : Restart) (hne : name ≠ other) : (h.ctl other r).active name = h.active name :=
  Function.update_of_ne hne ..

theorem restartAll_active (restart : Str → Restart) (hnot : name ∉ h.list decode) :
    (restartAll decode h restart).1.active name = h.active name := by
  unfold restartAll
  refine List.foldlRecOn (motive := fun s : Host × Nat × Nat => s.1.active name = h.active name) _ _ rfl ?_
  intro s hs other hother
  have hne : name ≠ other := (ne_of_mem_of_not_mem hother hnot).symm
  dsimp only
  split <;> exact (ctl_active_of_ne _ hne).trans hs

theorem watchdogPass_active (p : Pass) (v : Watchdog.Memory) (hdown : h.active name = false) :
    (watchdogPass decode p h v).1.active name = false := by
  unfold watchdogPass
  refine List.foldlRecOn (motive := fun s : Host × Watchdog.Memory => s.1.active name = false) _ _ hdown ?_
  intro s hs other _
  unfold watchTunnel
  dsimp only
  split
  next hrestarts =>
    have hup : s.1.active other = true := (Watchdog.look_restarts hrestarts).1.1
    have hne : name ≠ other := by
      rintro rfl
      rw [hs] at hup
      cases hup
    exact (ctl_active_of_ne _ hne).trans hs
  · exact hs

/-! ## An update and a rollback -/

theorem Tree.lists_copyTree {src dst : Tree} (hlists : (src.copyTree dst).Lists decode name) :
    src.Lists decode name ∨ dst.Lists decode name := by
  unfold Tree.Lists Tree.copyTree at *
  rw [filterMap_append, mem_append] at hlists
  refine hlists.imp_right fun hdst => ?_
  obtain ⟨e, he, hname⟩ := mem_filterMap.mp hdst
  exact mem_filterMap.mpr ⟨e, mem_of_mem_filter he, hname⟩

theorem Tree.lists_write {t : Tree} {p text : Str} {r : Write} (hp : ¬ tomlSuffix <:+ p)
    (hlists : (t.write p text r).Lists decode name) : t.Lists decode name := by
  have hremove : (t.remove p).Lists decode name → t.Lists decode name := by
    intro hrest
    obtain ⟨e, he, hname⟩ := mem_filterMap.mp hrest
    exact mem_filterMap.mpr ⟨e, mem_of_mem_filter he, hname⟩
  unfold Tree.write at hlists
  split at hlists
  next c =>
    obtain ⟨e, he, hname⟩ := mem_filterMap.mp hlists
    obtain rfl | hrest := mem_cons.mp he
    · rw [tunnelName, if_neg fun hcfg => hp hcfg.2.1] at hname
      cases hname
    · exact hremove (mem_filterMap.mpr ⟨e, hrest, hname⟩)
  next => exact hremove hlists

theorem Tree.not_lists_empty : ¬ Tree.empty.Lists decode name := not_mem_nil

theorem pruneSnapshots_active (g : Host) : (pruneSnapshots g).active = g.active := by
  unfold pruneSnapshots
  generalize g.listSnapshots.drop snapshotRetention = dirs
  induction dirs generalizing g with
  | nil => rfl
  | cons d dirs ih => exact ih (g.removeAll d)

theorem takeSnapshot_active (reason : Str) (o : SnapshotOutcomes) : (takeSnapshot h reason o).1.active = h.active := by
  unfold takeSnapshot
  dsimp only
  split
  · rfl
  split
  · rfl
  split
  · rfl
  split
  · rfl
  split
  · rfl
  · exact pruneSnapshots_active _

theorem Host.Absent.takeSnapshot {o : SnapshotOutcomes} (h₀ : h.Absent decode name (snapshotDir preUpdate o.stamp))
    (htake : takeSnapshot h preUpdate o = (h', .ok dir)) : h'.Absent decode name dir := by
  obtain ⟨tree, hconfig, rfl, -, hsame, hfolder⟩ := takeSnapshot_ok htake
  refine ⟨h₀.own, by rw [hsame]; exact h₀.config, fun f tree' hf htree hlists => ?_⟩
  obtain ⟨-, hcopy⟩ := hfolder f hf
  rw [htree, Option.some.injEq] at hcopy
  subst hcopy
  have hnew := h₀.config
  rw [hconfig] at hnew
  obtain hsrc | hdst := Tree.lists_copyTree hlists
  · exact hnew hsrc
  · unfold Host.oldFolder at hdst
    cases hold : h.folder (snapshotDir preUpdate o.stamp) with
    | none => rw [hold] at hdst; exact Tree.not_lists_empty hdst
    | some old =>
      rw [hold, getD_some] at hdst
      cases htree : old.config with
      | none => rw [htree] at hdst; exact Tree.not_lists_empty hdst
      | some t =>
        rw [htree] at hdst
        exact h₀.snapshot old t hold htree hdst

theorem Host.Absent.of_config (h₀ : h.Absent decode name dir) (hsnapshots : h'.snapshots = h.snapshots)
    (hconfig : (h'.config.getD .empty).Lists decode name → (h.config.getD .empty).Lists decode name) :
    h'.Absent decode name dir := by
  refine ⟨h₀.own, fun hlists => h₀.config (hconfig hlists), ?_⟩
  unfold Host.folder
  rw [hsnapshots]
  exact h₀.snapshot

theorem Host.Absent.buildFromSource (h₀ : h.Absent decode name dir) (o : BuildOutcomes) :
    (buildFromSource h o).1.Absent decode name dir ∧ (buildFromSource h o).1.active = h.active := by
  have hfile : ¬ tomlSuffix <:+ installedCommitFile := by decide +kernel
  unfold Manage.buildFromSource
  split
  · exact ⟨h₀, rfl⟩
  · dsimp only
    split
    · exact ⟨h₀.of_config rfl id, rfl⟩
    · unfold writeInstalledCommit
      split
      · exact ⟨h₀.of_config rfl id, rfl⟩
      · exact ⟨h₀.of_config rfl (Tree.lists_write hfile), rfl⟩

theorem Host.Absent.recordInstallPath (h₀ : h.Absent decode name dir) (r : Write) :
    (recordInstallPath h r).Absent decode name dir ∧ (recordInstallPath h r).active = h.active := by
  have hfile : ¬ tomlSuffix <:+ installPathFile := by decide +kernel
  unfold Manage.recordInstallPath
  split
  · exact ⟨h₀, rfl⟩
  · exact ⟨h₀.of_config rfl (Tree.lists_write hfile), rfl⟩

theorem Host.Absent.restartServices (h₀ : h.Absent decode name dir) (r : Restarts) :
    (restartServices decode h r).Absent decode name dir ∧ (restartServices decode h r).active name = h.active name := by
  have hback := @restartServices_restarted decode h r
  have hnot : name ∉ h.list decode := fun hmem => h₀.config (mem_list.mp hmem)
  refine ⟨h₀.of_config hback.snapshots fun hlists => ?_, ?_⟩
  · rw [← mem_list, ← hback.list]
    exact mem_list.mpr hlists
  unfold Manage.restartServices
  refine (@restartAll_active decode _ name r.tunnels fun hmem => hnot ?_).trans ?_
  · have hlist := (@list_ctl decode (h.ctl panelName r.panel) monitorName r.monitor).trans (list_ctl r.panel)
    rw [← hlist]
    exact hmem
  exact (ctl_active_of_ne _ h₀.own.2).trans (ctl_active_of_ne _ h₀.own.1)

theorem Host.Absent.writeUnits (h₀ : h.Absent decode name dir) (names : List Str) (unit : Str → Bool) (r : Restarts) :
    (Manage.restartServices decode (h.writeUnits names unit) r).active name = h.active name := by
  have habsent : (h.writeUnits names unit).Absent decode name dir := h₀.of_config rfl id
  exact (habsent.restartServices r).2

theorem Host.Absent.not_judged (h₀ : h.Absent decode name dir) : name ∉ h.judged decode := by
  intro hmem
  have hall := mem_of_mem_filter hmem
  simp only [cons_append, nil_append, mem_cons] at hall
  obtain hpanel | hmonitor | hlist := hall
  · exact h₀.own.1 hpanel
  · exact h₀.own.2 hmonitor
  · exact h₀.config (mem_list.mp hlist)

theorem Host.Absent.restoreSnapshot (h₀ : h.Absent decode name dir) (o : RestoreOutcomes) :
    (restoreSnapshot decode h dir o).1.active name = h.active name := by
  unfold Manage.restoreSnapshot
  split
  · rfl
  next f hf =>
    split
    · rfl
    split
    · rfl
    split
    · rfl
    dsimp only
    split
    · have hbinary : ({ h with binary := f.binary.or h.binary } : Host).Absent decode name dir := h₀.of_config rfl id
      exact hbinary.writeUnits _ _ _
    next tree htree =>
      split
      · rfl
      · have hcopy : ({ h with
            binary := f.binary.or h.binary
            config := some (tree.copyTree (h.config.getD .empty)) } : Host).Absent decode name dir := by
          refine ⟨h₀.own, fun hlists => ?_, h₀.snapshot⟩
          obtain hsrc | hdst := Tree.lists_copyTree hlists
          · exact h₀.snapshot f tree hf htree hsrc
          · exact h₀.config hdst
        exact hcopy.writeUnits _ _ _

theorem restoreSnapshot_endsEarly {o : RestoreOutcomes} (hearly : ∀ f ∈ h.folder dir, o.EndsEarly f) :
    (restoreSnapshot decode h dir o).1.active = h.active := by
  unfold restoreSnapshot
  split
  · rfl
  next f hf =>
    have hf := hearly f hf
    split
    · rfl
    next hmeta =>
      split
      · rfl
      next hcopy =>
        split
        · rfl
        next hrename =>
          dsimp only
          obtain hno | ⟨hbinary, hno | hno⟩ | ⟨hsome, hbroken⟩ := hf
          · exact absurd hno hmeta
          · exact absurd ⟨hbinary, hno⟩ hcopy
          · exact absurd ⟨hbinary, hno⟩ hrename
          · obtain ⟨tree, htree⟩ := isSome_iff_exists.mp hsome
            rw [htree]
            dsimp only
            split
            · rfl
            next hwhole => exact absurd hwhole hbroken

theorem takeSnapshot_fails {reason : Str} {o : SnapshotOutcomes}
    (hfails : o.mkdir = false ∨ (h.binary.isSome = true ∧ o.copyBinary = false) ∨ h.config = none ∨
      o.copyConfig = false ∨ o.writeMeta = false) :
    ∃ e, (takeSnapshot h reason o).2 = .error e := by
  unfold takeSnapshot
  dsimp only
  split
  · exact ⟨_, rfl⟩
  next hmkdir =>
    split
    · exact ⟨_, rfl⟩
    next hbinary =>
      split
      · exact ⟨_, rfl⟩
      next tree hconfig =>
        split
        · exact ⟨_, rfl⟩
        next hcopy =>
          split
          · exact ⟨_, rfl⟩
          next hwrite =>
            obtain hno | hno | hno | hno | hno := hfails
            · exact absurd hno hmkdir
            · exact absurd hno hbinary
            · rw [hno] at hconfig
              cases hconfig
            · exact absurd hno hcopy
            · exact absurd hno hwrite

theorem applyUpdate_endsEarly {o : UpdateOutcomes} (hearly : o.EndsEarly h) :
    (applyUpdate decode h o).1.active = h.active ∧ ∀ bad err,
      (applyUpdate decode h o).2 ≠ .error (.rolledBack bad) ∧
        (applyUpdate decode h o).2 ≠ .error (.rollbackFailed bad err) := by
  have htaken := @takeSnapshot_active h preUpdate o.snapshot
  have hok : ∀ dir, (takeSnapshot h preUpdate o.snapshot).2 = .ok dir → o.build.binary = none := by
    intro dir hdir
    by_contra hbuild
    obtain ⟨e, he⟩ := @takeSnapshot_fails h preUpdate o.snapshot (by
      unfold UpdateOutcomes.EndsEarly at hearly
      tauto)
    rw [he] at hdir
    cases hdir
  unfold applyUpdate
  generalize takeSnapshot h preUpdate o.snapshot = taken at *
  obtain ⟨h₁, e | dir⟩ := taken
  · exact ⟨htaken, fun _ _ => ⟨nofun, nofun⟩⟩
  · have hbuild : buildFromSource h₁ o.build = (h₁, false) := by
      unfold buildFromSource
      rw [hok dir rfl]
    dsimp only
    rw [hbuild]
    exact ⟨htaken, fun _ _ => ⟨nofun, nofun⟩⟩

theorem Host.Absent.applyUpdate {o : UpdateOutcomes}
    (h₀ : h.Absent decode name (snapshotDir preUpdate o.snapshot.stamp)) :
    (applyUpdate decode h o).1.active name = h.active name ∧
      ((∀ other, other ≠ name → o.settled other = true) → ∀ bad err,
        (applyUpdate decode h o).2 ≠ .error (.rolledBack bad) ∧
          (applyUpdate decode h o).2 ≠ .error (.rollbackFailed bad err)) := by
  unfold Manage.applyUpdate
  have htaken := @takeSnapshot_active h preUpdate o.snapshot
  generalize htake : Manage.takeSnapshot h preUpdate o.snapshot = taken at *
  obtain ⟨h₁, e | dir⟩ := taken
  · exact ⟨congrFun htaken name, fun _ _ _ => ⟨nofun, nofun⟩⟩
  have habsent₁ := h₀.takeSnapshot htake
  obtain ⟨habsent₂, hactive₂⟩ := habsent₁.buildFromSource o.build
  dsimp only at htaken ⊢
  generalize Manage.buildFromSource h₁ o.build = built at *
  obtain ⟨h₂, _ | _⟩ := built
  · exact ⟨congrFun (hactive₂.trans htaken) name, fun _ _ _ => ⟨nofun, nofun⟩⟩
  dsimp only at hactive₂ habsent₂ ⊢
  obtain ⟨habsent₃, hactive₃⟩ := habsent₂.recordInstallPath o.installPath
  obtain ⟨habsent₄, hactive₄⟩ := habsent₃.restartServices o.restarts
  generalize Manage.recordInstallPath h₂ o.installPath = h₃ at *
  generalize Manage.restartServices decode h₃ o.restarts = h₄ at *
  have hactive : (h₄.settle decode o.settled).active name = h.active name := by
    have hnot := habsent₄.not_judged
    change (if name ∈ h₄.judged decode then o.settled name else h₄.active name) = _
    rw [if_neg hnot, hactive₄, hactive₃, hactive₂, htaken]
  have hsettled : (∀ other, other ≠ name → o.settled other = true) → unhealthyAfterUpdate decode h₄ o.settled = [] := by
    intro hall
    unfold unhealthyAfterUpdate
    rw [filter_eq_nil_iff]
    intro other hmem
    have hne : other ≠ name := by
      rintro rfl
      exact habsent₄.not_judged hmem
    simp [hall other hne]
  split
  · exact ⟨hactive, fun _ _ _ => ⟨nofun, nofun⟩⟩
  next hbad =>
    have habsent₅ : (h₄.settle decode o.settled).Absent decode name dir := habsent₄.of_config rfl id
    have hrestored := habsent₅.restoreSnapshot o.rollback
    generalize Manage.restoreSnapshot decode (h₄.settle decode o.settled) dir o.rollback = restored at *
    refine ⟨?_, fun hall => absurd (hsettled hall) hbad⟩
    obtain ⟨h₅, e | ⟨⟩⟩ := restored
    · exact hrestored.trans hactive
    · exact hrestored.trans hactive

theorem step_down {a : Action} {s' : State} (hdown : s.host.active name = false) (ha : Spared decode name s a)
    (hs : s.step decode a = some s') : s'.host.active name = false := by
  have hcommand : ∀ (other : Str) (r : Restart), (other = name → r.active = false) →
      (s.command decode other r).host.active name = false := by
    intro other r hr
    unfold State.command
    split
    · by_cases hname : other = name
      · rw [hname]
        exact (Function.update_self ..).trans (hr hname)
      · exact (ctl_active_of_ne r (Ne.symm hname)).trans hdown
    · exact hdown
  cases a with
  | handleTunnelStop other r =>
    cases hs
    exact hcommand other r ha
  | handleTunnelStart other r =>
    cases hs
    exact hcommand other r fun hname => absurd hname ha
  | handleTunnelRestart other r =>
    cases hs
    exact hcommand other r fun hname => absurd hname ha
  | edit other text unit r =>
    cases hs
    exact (ctl_active_of_ne r (Ne.symm ha)).trans hdown
  | applyUpdate o =>
    cases hs
    obtain hearly | habsent := ha
    · exact (congrFun (applyUpdate_endsEarly hearly).1 name).trans hdown
    · exact habsent.applyUpdate.1.trans hdown
  | restoreSnapshot dir o =>
    cases hs
    obtain hearly | habsent := ha
    · exact (congrFun (restoreSnapshot_endsEarly hearly) name).trans hdown
    · exact (habsent.restoreSnapshot o).trans hdown
  | restartAll restart =>
    cases hs
    exact (restartAll_active restart fun hmem => ha (mem_list.mp hmem)).trans hdown
  | watchdog p =>
    cases hs
    exact watchdogPass_active p s.watch hdown

/-- A stopped tunnel stays down until it is started, restarted or edited, unless a step restarts all tunnels. -/
theorem stopped_stays_down {r : Restart} (hfound : name ∈ s₀.host.list decode) (hstop : r.active = false)
    (hr : Reach (State.step decode) (Spared decode name) (s₀.command decode name r) s) :
    s.host.active name = false ∧
      ∀ o : UpdateOutcomes, Spared decode name s (.applyUpdate o) → (∀ other, other ≠ name → o.settled other = true) →
        ∀ bad err, (applyUpdate decode s.host o).2 ≠ .error (.rolledBack bad) ∧
          (applyUpdate decode s.host o).2 ≠ .error (.rollbackFailed bad err) := by
  have hstart : (s₀.command decode name r).host.active name = false := by
    unfold State.command
    rw [if_pos hfound]
    exact (Function.update_self ..).trans hstop
  refine ⟨hr.invariant hstart fun s a s' hdown ha hs => step_down hdown ha hs, fun o ha hall bad err => ?_⟩
  obtain hearly | habsent := ha
  · exact (applyUpdate_endsEarly hearly).2 bad err
  · exact habsent.applyUpdate.2 hall bad err

def anyServer (_ : Str) : Option Sections := some { bindAddr := lit "0.0.0.0:1" }

def tunnelHost : State where
  host :=
    { binary := some (lit "old"), config := some (Tree.empty.put (lit "a.toml") []), snapshots := []
      units := fun name => decide (name = lit "a"), active := fun name => decide (name = lit "a") }

def stoppedTunnel : State := tunnelHost.command anyServer (lit "a") { Restart.well with active := false }

def brokenBuild : UpdateOutcomes where
  snapshot := { stamp := lit "20260714-221000", metaJson := lit "m" }
  build := { binary := none, latest := none }
  settled := fun _ => true

/-- The watchdog passes, an update fails to build, the copy of its snapshot breaks off and leaves nothing, and all tunnels
that are left are restarted. -/
def sparedRun : List Action :=
  [.watchdog { healthy := fun _ => false, since := fun _ => 0, now := fun _ => 0 }, .applyUpdate brokenBuild,
    .restoreSnapshot (snapshotDir preUpdate brokenBuild.snapshot.stamp) { copyConfig := .broken .empty },
    .restartAll fun _ => .well]

theorem stopped_spared :
    lit "a" ∈ tunnelHost.host.list anyServer ∧
      ∃ s, Reach (State.step anyServer) (Spared anyServer (lit "a")) stoppedTunnel s ∧
        s.host.snapshots.length = 1 ∧ s.host.list anyServer = [] ∧ s.host.active (lit "a") = false := by
  have hfound : lit "a" ∈ tunnelHost.host.list anyServer := by decide +kernel
  have hr : ∃ s, Reach (State.step anyServer) (Spared anyServer (lit "a")) stoppedTunnel s ∧
      (s.host.snapshots.length = 1 ∧ s.host.list anyServer = []) := by
    refine ⟨_, .next (a := sparedRun[3]) (.next (a := sparedRun[2]) (.next (a := sparedRun[1])
      (.next (a := sparedRun[0]) .init trivial rfl) (.inl ?_) rfl) (.inl ?_) rfl) ?_ rfl, ?_⟩
    · simp [UpdateOutcomes.EndsEarly, brokenBuild]
    · intro f hf
      exact .inr (.inr ⟨(Option.all_eq_true (fun f : Folder => f.config.isSome) _).mp (by decide +kernel) f hf, nofun⟩)
    · show ¬ Tree.Lists _ _ _
      decide +kernel
    · decide +kernel
  obtain ⟨s, hr, hsnapshots, hlist⟩ := hr
  exact ⟨hfound, s, hr, hsnapshots, hlist, (stopped_stays_down hfound rfl hr).1⟩

/-- The stopped tunnel is started with all the others, and an update is taken back because it does not come up. -/
theorem stopped_restarted :
    lit "a" ∈ tunnelHost.host.list anyServer ∧ stoppedTunnel.host.active (lit "a") = false ∧
      (restartAll anyServer stoppedTunnel.host fun _ => .well).1.active (lit "a") = true ∧
      (applyUpdate anyServer stoppedTunnel.host
        { snapshot := { stamp := lit "20260714-221000", metaJson := lit "m" }
          build := { binary := some (lit "new"), latest := none }
          settled := fun name => decide (name ≠ lit "a") }).2 = .error (.rolledBack [lit "a"]) := by
  decide +kernel

end ArangeTun.Manage
