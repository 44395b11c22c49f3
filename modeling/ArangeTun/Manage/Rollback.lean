import ArangeTun.Manage.Update

/-! # A rolled-back update -/

namespace ArangeTun.Manage

open Go Tunnels List Option

variable {decode : Str → Option Sections} {h h' : Host} {o : UpdateOutcomes} {dir p q : Str}

/-! ## Files -/

theorem find?_removed {α : Type} (l : List (Str × α)) : (l.filter (·.1 ≠ p)).find? (·.1 = p) = none := by
  rw [find?_eq_none]
  intro e he
  have hne := (mem_filter.mp he).2
  simpa using hne

theorem find?_of_ne {α : Type} (l : List (Str × α)) (hne : q ≠ p) :
    (l.filter (·.1 ≠ p)).find? (·.1 = q) = l.find? (·.1 = q) := by
  rw [find?_filter]
  refine congrArg (List.find? · l) (funext fun e => ?_)
  by_cases he : e.1 = q
  · simp [he, hne]
  · simp [he]

namespace Tree

variable {t src dst : Tree} {c : Str}

theorem get_remove_self : (t.remove p).get p = none := congrArg (Option.map Prod.snd) (find?_removed t.entries)

theorem get_remove_of_ne (hne : q ≠ p) : (t.remove p).get q = t.get q :=
  congrArg (Option.map Prod.snd) (find?_of_ne t.entries hne)

theorem get_put_self : (t.put p c).get p = some c := by
  simp [get, put]

theorem get_put_of_ne (hne : q ≠ p) : (t.put p c).get q = t.get q := by
  rw [← @get_remove_of_ne p q t hne]
  unfold get put
  rw [find?_cons_of_neg (by simpa using hne.symm)]

theorem get_write_self {text : Str} (r : Write) : (t.write p text r).get p = r.left text := by
  unfold write
  split
  next hleft => rw [get_put_self, hleft]
  next hleft => rw [get_remove_self, hleft]

theorem get_write_of_ne {text : Str} (r : Write) (hne : q ≠ p) : (t.write p text r).get q = t.get q := by
  unfold write
  split
  · exact get_put_of_ne hne
  · exact get_remove_of_ne hne

theorem get_copyTree : (src.copyTree dst).get p = (src.get p).or (dst.get p) := by
  unfold get copyTree
  rw [find?_append, find?_filter]
  cases hsrc : src.entries.find? (fun e => decide (e.1 = p)) with
  | some e => rfl
  | none =>
    have hnot : ∀ e : Str × Str, e.1 = p → e.1 ∉ src.entries.map Prod.fst := by
      rintro e rfl hmem
      obtain ⟨e', he', heq⟩ := List.mem_map.mp hmem
      exact absurd (by simpa using heq) (find?_eq_none.mp hsrc e' he')
    rw [none_or, map_none, none_or]
    refine congrArg (fun f => (dst.entries.find? f).map Prod.snd) (funext fun e => ?_)
    by_cases he : e.1 = p
    · have hmem := hnot e he
      simp only [hmem, decide_eq_true he, not_false_eq_true, decide_true, and_self]
    · simp only [he, decide_false, Bool.false_eq_true, and_false]

end Tree

def Host.file (h : Host) (p : Str) : Option Str := h.config.bind (·.get p)

theorem getD_config_get : (h.config.getD .empty).get p = h.file p := by
  unfold Host.file
  cases h.config <;> rfl

/-! ## Services that are restarted -/

/-- What the last of the services to write the file leaves in it. -/
def written (p : Str) : List Restart → Option Str
  | [] => none
  | r :: rs => (written p rs).or (r.files.get p)

def Restarts.services (r : Restarts) (names : List Str) : List Restart := r.panel :: r.monitor :: names.map r.tunnels

theorem file_ctl {name : Str} (r : Restart) : (h.ctl name r).file p = (r.files.get p).or (h.file p) := by
  unfold Host.ctl
  split
  · rename_i hnone
    simp [Tree.get, hnone, Host.file]
  · rw [Host.file, bind_some, Tree.get_copyTree, getD_config_get]

theorem Tree.get_eq_none {t : Tree} (hp : ∀ e ∈ t.entries, e.1 ≠ p) : t.get p = none := by
  unfold get
  rw [map_eq_none_iff, find?_eq_none]
  exact fun e he => by simpa using hp e he

theorem written_commit (rs : List Restart) : written installedCommitFile rs = none := by
  induction rs with
  | nil => rfl
  | cons r rs ih => rw [written, ih, Tree.get_eq_none fun e he => (r.runtime e he).2, none_or]

theorem tunnelName_runtime {e : Str × Str} (he : ¬ tomlSuffix <:+ e.1) : tunnelName decode e = none :=
  if_neg fun h => he h.2.1

theorem list_ctl {name : Str} (r : Restart) : (h.ctl name r).list decode = h.list decode := by
  unfold Host.ctl
  split
  · rfl
  · unfold Host.list Tree.copyTree
    rw [getD_some, filter_append, List.filter_filter]
    have hfiles : r.files.entries.filter (fun e => (tunnelName decode e).isSome) = [] := by
      rw [filter_eq_nil_iff]
      intro e he
      rw [tunnelName_runtime (r.runtime e he).1]
      exact Bool.false_ne_true
    have hkept (e : Str × Str) : ((tunnelName decode e).isSome && decide (e.1 ∉ r.files.entries.map Prod.fst)) =
        (tunnelName decode e).isSome := by
      rw [Bool.and_eq_left_iff_imp]
      intro hsome
      rw [decide_eq_true_eq]
      intro hmem
      obtain ⟨e', he', heq⟩ := List.mem_map.mp hmem
      rw [tunnelName_runtime (heq ▸ (r.runtime e' he').1)] at hsome
      cases hsome
    rw [hfiles, nil_append, filter_congr fun e _ => hkept e]

/-- Services that are restarted leave the binary, the snapshots and the tunnels alone, and of the files those that they do
not write. -/
structure Host.Restarted (decode : Str → Option Sections) (h : Host) (rs : List Restart) (h' : Host) : Prop where
  binary : h'.binary = h.binary
  snapshots : h'.snapshots = h.snapshots
  list : h'.list decode = h.list decode
  file : ∀ p, h'.file p = (written p rs).or (h.file p)

theorem Host.Restarted.cons {r : Restart} {rs : List Restart} {name : Str}
    (hrest : (h.ctl name r).Restarted decode rs h') : h.Restarted decode (r :: rs) h' := by
  refine ⟨hrest.binary, hrest.snapshots, hrest.list.trans (list_ctl r), fun p => ?_⟩
  rw [hrest.file, file_ctl, written, Option.or_assoc]

theorem restartAll_restarted (restart : Str → Restart) :
    h.Restarted decode ((h.list decode).map restart) (restartAll decode h restart).1 := by
  unfold restartAll
  generalize h.list decode = names
  generalize (0, 0) = counts
  induction names generalizing h counts with
  | nil => exact ⟨rfl, rfl, rfl, fun _ => rfl⟩
  | cons name names ih =>
    rw [foldl_cons, map_cons]
    dsimp only
    split <;> exact .cons (ih _)

theorem restartServices_restarted (r : Restarts) :
    h.Restarted decode (r.services (h.list decode)) (restartServices decode h r) := by
  have hlist := (@list_ctl decode (h.ctl panelName r.panel) monitorName r.monitor).trans (list_ctl r.panel)
  refine @Host.Restarted.cons decode h _ _ _ panelName (@Host.Restarted.cons decode _ _ _ _ monitorName ?_)
  rw [← hlist]
  -- the unit of the monitor is written in between
  have hall := @restartAll_restarted decode { (h.ctl panelName r.panel).ctl monitorName r.monitor with
    units := Function.update h.units monitorName r.monitorUnit } r.tunnels
  exact ⟨hall.binary, hall.snapshots, hall.list, hall.file⟩

theorem folder_removeAll {f : Folder} {dir' : Str} (hf : (h.removeAll dir').folder dir = some f) :
    h.folder dir = some f := by
  unfold Host.folder Host.removeAll at *
  by_cases hne : dir = dir'
  · subst hne
    rw [find?_removed] at hf
    cases hf
  · rwa [find?_of_ne _ hne] at hf

theorem folder_pruneSnapshots {f : Folder} (hf : (pruneSnapshots h).folder dir = some f) : h.folder dir = some f := by
  unfold pruneSnapshots at hf
  generalize h.listSnapshots.drop snapshotRetention = dirs at hf
  induction dirs generalizing h with
  | nil => exact hf
  | cons d dirs ih => exact folder_removeAll (ih hf)

theorem folder_putFolder {f : Folder} : (h.putFolder dir f).folder dir = some f := by
  simp [Host.folder, Host.putFolder]

def Host.oldFolder (h : Host) (o : SnapshotOutcomes) : Folder := (h.folder (snapshotDir preUpdate o.stamp)).getD {}

theorem takeSnapshot_ok {so : SnapshotOutcomes} (htake : takeSnapshot h preUpdate so = (h', .ok dir)) :
    ∃ tree, h.config = some tree ∧ dir = snapshotDir preUpdate so.stamp ∧ h'.binary = h.binary ∧ h'.config = h.config ∧
      ∀ f, h'.folder dir = some f → f.binary = h.binary.or (h.oldFolder so).binary ∧
        f.config = some (tree.copyTree ((h.oldFolder so).config.getD .empty)) := by
  unfold takeSnapshot at htake
  dsimp only at htake
  split at htake
  · cases htake
  split at htake
  · cases htake
  cases hconfig : h.config with
  | none => rw [hconfig] at htake; cases htake
  | some tree =>
    rw [hconfig] at htake
    dsimp only at htake
    split at htake
    · cases htake
    split at htake
    · cases htake
    cases htake
    refine ⟨tree, rfl, rfl, ?_⟩
    have hprune : ∀ g : Host, (pruneSnapshots g).binary = g.binary ∧ (pruneSnapshots g).config = g.config := by
      intro g
      unfold pruneSnapshots
      generalize g.listSnapshots.drop snapshotRetention = dirs
      induction dirs generalizing g with
      | nil => exact ⟨rfl, rfl⟩
      | cons d dirs ih => exact ih (g.removeAll d)
    refine ⟨(hprune _).1, (hprune _).2.trans hconfig, fun f hf => ?_⟩
    have hput := folder_pruneSnapshots hf
    rw [folder_putFolder] at hput
    cases hput
    exact ⟨rfl, rfl⟩

/-! ## The update -/

/-- What the build leaves in the record of its commit, if there was none before. -/
def BuildOutcomes.recorded (o : BuildOutcomes) : Option Str :=
  match o.latest with
  | none => none
  | some sha => if trimSpace sha = [] then none else o.record.left (trimSpace sha ++ lit "\n")

theorem buildFromSource_ok {bo : BuildOutcomes} (hbuild : buildFromSource h bo = (h', true)) :
    h'.binary.isSome = true ∧ h'.snapshots = h.snapshots ∧
      (h.file installedCommitFile = none → h'.file installedCommitFile = bo.recorded) := by
  unfold buildFromSource at hbuild
  unfold BuildOutcomes.recorded
  cases hbin : bo.binary with
  | none => rw [hbin] at hbuild; cases hbuild
  | some b =>
    rw [hbin] at hbuild
    dsimp only at hbuild
    cases hlatest : bo.latest with
    | none =>
      rw [hlatest] at hbuild
      cases hbuild
      exact ⟨rfl, rfl, id⟩
    | some sha =>
      rw [hlatest] at hbuild
      cases hbuild
      unfold writeInstalledCommit
      dsimp only
      split
      · exact ⟨rfl, rfl, id⟩
      · refine ⟨rfl, rfl, fun _ => ?_⟩
        rw [Host.file, bind_some, Tree.get_write_self]

theorem recordInstallPath_frame (r : Write) :
    (recordInstallPath h r).binary = h.binary ∧ (recordInstallPath h r).snapshots = h.snapshots ∧
      (recordInstallPath h r).file installedCommitFile = h.file installedCommitFile := by
  have hne : installedCommitFile ≠ installPathFile := by decide +kernel
  unfold recordInstallPath
  split
  · exact ⟨rfl, rfl, rfl⟩
  · refine ⟨rfl, rfl, ?_⟩
    rw [Host.file, bind_some, Tree.get_write_of_ne _ hne, getD_config_get]

theorem restoreSnapshot_ok {ro : RestoreOutcomes} (hrestore : restoreSnapshot decode h dir ro = (h', .ok ())) :
    ∃ f, h.folder dir = some f ∧ h'.binary = f.binary.or h.binary ∧
      ∀ tree, f.config = some tree → ∀ p,
        h'.file p = (written p (ro.restarts.services (h'.list decode))).or ((tree.get p).or (h.file p)) := by
  unfold restoreSnapshot at hrestore
  cases hfolder : h.folder dir with
  | none => rw [hfolder] at hrestore; cases hrestore
  | some f =>
    rw [hfolder] at hrestore
    dsimp only at hrestore
    split at hrestore
    · cases hrestore
    split at hrestore
    · cases hrestore
    split at hrestore
    · cases hrestore
    refine ⟨f, rfl, ?_⟩
    cases hconfig : f.config with
    | none =>
      rw [hconfig] at hrestore
      cases hrestore
      exact ⟨(restartServices_restarted ro.restarts).binary, nofun⟩
    | some tree =>
      rw [hconfig] at hrestore
      dsimp only at hrestore
      split at hrestore
      · cases hrestore
      · cases hrestore
        generalize hg : Host.writeUnits _ _ _ = g
        have hback := @restartServices_restarted decode g ro.restarts
        refine ⟨hback.binary.trans (by rw [← hg]; rfl), fun tree' htree p => ?_⟩
        cases htree
        rw [hback.file, hback.list, ← @getD_config_get h, ← Tree.get_copyTree, ← hg]
        rfl

structure RolledBack (decode : Str → Option Sections) (h : Host) (o : UpdateOutcomes) (h' : Host) : Prop where
  kept : ((takeSnapshot h preUpdate o.snapshot).1.folder (snapshotDir preUpdate o.snapshot.stamp)).isSome = true
  binary : ∃ b, h'.binary = (h.binary.or (h.oldFolder o.snapshot).binary).or (some b)
  file : ∀ p c, h.file p = some c →
    h'.file p = (written p (o.rollback.restarts.services (h'.list decode))).or (some c)
  commit : h.file installedCommitFile = none →
    h'.file installedCommitFile =
      ((h.oldFolder o.snapshot).config.bind (·.get installedCommitFile)).or o.build.recorded

theorem applyUpdate_rolledBack {bad : List Str} (hrun : applyUpdate decode h o = (h', .error (.rolledBack bad))) :
    RolledBack decode h o h' := by
  unfold applyUpdate at hrun
  generalize htake : takeSnapshot h preUpdate o.snapshot = taken at hrun
  obtain ⟨h₁, e | dir⟩ := taken
  · cases hrun
  dsimp only at hrun
  generalize hbuild : buildFromSource h₁ o.build = built at hrun
  obtain ⟨h₂, _ | _⟩ := built
  · cases hrun
  dsimp only at hrun
  split at hrun
  · cases hrun
  obtain ⟨hbinary₃, hsnapshots₃, hcommit₃⟩ := @recordInstallPath_frame h₂ o.installPath
  have hbetween := @restartServices_restarted decode (recordInstallPath h₂ o.installPath) o.restarts
  have hcommit₄ := hbetween.file installedCommitFile
  rw [written_commit, none_or, hcommit₃] at hcommit₄
  have hbinary₄ := hbetween.binary.trans hbinary₃
  have hsnapshots₄ := hbetween.snapshots.trans hsnapshots₃
  generalize hback : restoreSnapshot decode _ dir o.rollback = restored at hrun
  obtain ⟨h₅, e | ⟨⟩⟩ := restored
  · cases hrun
  cases hrun
  obtain ⟨tree, hconfig, rfl, hbinary₁, hconfig₁, hfolder₁⟩ := takeSnapshot_ok htake
  obtain ⟨hbinary₂, hsnapshots₂, hcommit₂⟩ := buildFromSource_ok hbuild
  obtain ⟨f, hfolder, hbinary, hfiles⟩ := restoreSnapshot_ok hback
  have hfolder' : h₁.folder (snapshotDir preUpdate o.snapshot.stamp) = some f := by
    rw [← hfolder]
    unfold Host.folder Host.settle
    rw [hsnapshots₄, hsnapshots₂]
  obtain ⟨hfbinary, hfconfig⟩ := hfolder₁ f hfolder'
  have hget := hfiles _ hfconfig
  have hold : ∀ p, h.file p = tree.get p := by
    intro p
    rw [Host.file, hconfig, bind_some]
  have hold₁ : ∀ p, h₁.file p = h.file p := by
    intro p
    rw [Host.file, Host.file, hconfig₁]
  obtain ⟨b, hb⟩ := isSome_iff_exists.mp hbinary₂
  refine ⟨?_, ⟨b, ?_⟩, fun p c hp => ?_, fun hnone => ?_⟩
  · rw [htake, hfolder']
    rfl
  · rw [hbinary, hfbinary]
    exact congrArg _ (hbinary₄.trans hb)
  · rw [hold] at hp
    rw [hget, Tree.get_copyTree, hp]
    rfl
  · have hrecorded := hcommit₄.trans (hcommit₂ ((hold₁ _).trans hnone))
    rw [hold] at hnone
    rw [hget, written_commit, none_or, Tree.get_copyTree, hnone, none_or]
    refine congr (congrArg _ ?_) hrecorded
    cases (h.oldFolder o.snapshot).config <;> rfl

structure Undone (h h' : Host) : Prop where
  binary : h'.binary = h.binary
  commit : installedCommitSHA h' = installedCommitSHA h
  files : ∀ p c, h.file p = some c → h'.file p = some c
  check : ∀ latest newerTag, checkUpdate h' latest newerTag = checkUpdate h latest newerTag

/-- The record of the commit was there, or there is none after the update either: no commit was recorded, or nothing but
space is left of it. -/
def CommitSafe (h : Host) (o : UpdateOutcomes) : Prop :=
  (h.file installedCommitFile).isSome = true ∨
    trimSpace ((((h.oldFolder o.snapshot).config.bind (·.get installedCommitFile)).or o.build.recorded).getD []) = []

theorem RolledBack.commit_iff (hback : RolledBack decode h o h') :
    installedCommitSHA h' = installedCommitSHA h ↔ CommitSafe h o := by
  have hfile : ∀ g : Host, installedCommitSHA g = trimSpace ((g.file installedCommitFile).getD []) := fun _ => rfl
  unfold CommitSafe
  rw [hfile, hfile]
  cases hold : h.file installedCommitFile with
  | some c =>
    rw [hback.file _ _ hold, written_commit]
    exact iff_of_true rfl (.inl rfl)
  | none =>
    have hempty : trimSpace (Option.getD none []) = [] := rfl
    rw [hback.commit hold, hempty]
    simp

/-- No service that the rollback restarts leaves something else in a file that was there before the update. -/
def RuntimeSafe (decode : Str → Option Sections) (h : Host) (o : UpdateOutcomes) (h' : Host) : Prop :=
  ∀ p c, h.file p = some c → ∀ c' ∈ written p (o.rollback.restarts.services (h'.list decode)), c' = c

theorem RolledBack.file_iff (hback : RolledBack decode h o h') :
    (∀ p c, h.file p = some c → h'.file p = some c) ↔ RuntimeSafe decode h o h' := by
  refine forall₃_congr fun p c hp => ?_
  rw [hback.file p c hp]
  cases written p (o.rollback.restarts.services (h'.list decode)) <;> simp

/-- A machine with a panel, and with these files in the directory of the configuration. -/
def panelHost (config : Tree) : Host where
  binary := some (lit "old")
  config := some config
  snapshots := []
  units := fun name => decide (name = panelName)
  active := fun _ => true

/-- The monitor keeps a history of the tunnels from its start on. -/
def monitorStarts : Restart where
  ok := true
  active := true
  files := Tree.empty.put (lit "history.json") (lit "[]")
  runtime := by decide +kernel

def panelFails : UpdateOutcomes where
  snapshot := { stamp := lit "20260714-221000", metaJson := lit "m" }
  build := { binary := some (lit "new"), latest := some (lit "abc") }
  settled := fun _ => false
  rollback := { restarts := { monitor := monitorStarts } }

def failedUpdate (config : Tree) : Host × Except UpdateError Unit :=
  applyUpdate (fun _ => none) (panelHost config) panelFails

def recordedTree : Tree := Tree.empty.put installedCommitFile (lit "0ff\n")

end ArangeTun.Manage
