import ArangeTun.Go.Path
import ArangeTun.Tunnels.Service

/-!
# Extracting archives

`Restore` of internal/manage/backup.go up to the end of the archive, and `extractTarGz` of updatesource.go.
-/

namespace ArangeTun.Manage.Extract

open Go Path Tunnels List

/-! ## Entries -/

inductive Typeflag
  | dir
  | reg
  | other
  deriving DecidableEq

structure Entry where
  name : Str
  typeflag : Typeflag
  mode : Nat := 0
  data : Str := []
  deriving DecidableEq

structure Archive where
  entries : List Entry
  ending : Option Error := none

structure Calls where
  installPathExists : Bool := false
  mkdirAll : Option Error := none
  openFile : Option Error := none
  copy : Option Error := none
  copied : Nat := 0

abbrev Step := Entry × Calls

def Archive.steps (a : Archive) (calls : Nat → Calls) : List Step := a.entries.mapIdx fun i e => (e, calls i)

/-- What is done to the file system. A file that is opened is created or emptied at once. -/
inductive Effect
  | mkdirAll (path : Str)
  | write (path : Str) (mode : Nat) (data : Str) (installPathExists : Bool)
  deriving DecidableEq

def writeEntry (target : Str) (mode : Nat) (x : Step) : List Effect × Option Error :=
  match x.1.typeflag with
  | .dir => ([.mkdirAll target], x.2.mkdirAll)
  | .reg =>
    match x.2.mkdirAll, x.2.openFile with
    | some err, _ => ([.mkdirAll (dir target)], some err)
    | none, some err => ([.mkdirAll (dir target)], some err)
    | none, none =>
      let data := if x.2.copy = none then x.1.data else x.1.data.take x.2.copied
      ([.mkdirAll (dir target), .write target mode data x.2.installPathExists], x.2.copy)
  | .other => ([], none)

/-! ## internal/manage/backup.go -/

def backupMetaName : Str := lit ".arange-tun-backup.json"

def webUIConfig : Str := configDir ++ lit "/webui.json"

def telegramConfig : Str := configDir ++ lit "/telegram.json"

def installPathFile : Str := configDir ++ lit "/install_path"

structure Restored where
  effects : List Effect := []
  files : Nat := 0
  webUIConfig : Bool := false
  telegramConfig : Bool := false
  autoRefreshHours : Int := 0
  sawConfig : Bool := false
  deriving DecidableEq

def unsafeName (name : Str) : Bool :=
  clean name = dot || dotdot.isPrefixOf (clean name) || isAbs (clean name)

def skipped (x : Step) : Bool := clean x.1.name = base installPathFile && x.2.installPathExists

def fileMode (mode : Nat) : Nat := if mode % 0o1000 = 0 then 0o600 else mode % 0o1000

def Restored.wrote (res : Restored) (target : Str) : Restored :=
  let res := { res with files := res.files + 1 }
  if base target = base Extract.webUIConfig then { res with webUIConfig := true }
  else if base target = base Extract.telegramConfig then { res with telegramConfig := true }
  else if (lit ".toml").isSuffixOf (base target) then { res with sawConfig := true }
  else res

section

-- the table of `strconv.Quote`, and the hours in the sidecar as `json.Unmarshal` reads them
variable (isPrint : Char → Bool) (hours : Str → Int)

def unsafePath (name : Str) : Error := .other (lit "refusing unsafe path in archive: " ++ quote isPrint name)

def restoreEntry (res : Restored) (x : Step) : Restored × Option Error :=
  let name := x.1.name
  if name = backupMetaName then
    (if x.2.copy = none then { res with autoRefreshHours := hours x.1.data } else res, none)
  else if unsafeName name then (res, some (unsafePath isPrint name))
  else if skipped x then (res, none)
  else
    let target := joinPath configDir (clean name)
    match rel configDir target with
    | none => (res, some (unsafePath isPrint name))
    | some r =>
      if dotdot.isPrefixOf r then (res, some (unsafePath isPrint name))
      else
        match writeEntry target (fileMode x.1.mode) x with
        | (effects, err) =>
          let res := { res with effects := res.effects ++ effects }
          (if x.1.typeflag = .reg ∧ err = none then res.wrote target else res, err)

def restoreEntries : List Step → Restored → Restored × Option Error
  | [], res => (res, none)
  | x :: xs, res =>
    match restoreEntry isPrint hours res x with
    | (res, some err) => (res, some err)
    | (res, none) => restoreEntries xs res

variable (untar : Str → Except Error Archive)

def restore (made : Option Error) (calls : Nat → Calls) (bytes : Str) : Restored × Option Error :=
  match untar bytes, made with
  | .error err, _ => ({}, some (.wrapped (lit "not a valid backup archive: ") err))
  | .ok _, some err => ({}, some err)
  | .ok a, none =>
    match restoreEntries isPrint hours (a.steps calls) {} with
    | (res, some err) => (res, some err)
    | (res, none) => (res, a.ending.map (.wrapped (lit "reading archive: ")))

/-! ## internal/manage/updatesource.go -/

def stripped (name : Str) : Option Str :=
  match cut name slash with
  | (_, rest, true) => if rest = [] then none else some rest
  | (_, _, false) => none

def inDest (destDir r : Str) : Bool := (clean destDir ++ [slash]).isPrefixOf (joinPath destDir r)

def sourceEntry (destDir : Str) (x : Step) : List Effect × Option Error :=
  match stripped x.1.name with
  | none => ([], none)
  | some r =>
    if inDest destDir r then writeEntry (joinPath destDir r) 0o644 x
    else ([], some (.other (lit "unsafe path in archive: " ++ x.1.name)))

def sourceEntries (destDir : Str) : List Step → List Effect × Option Error
  | [] => ([], none)
  | x :: xs =>
    match sourceEntry destDir x with
    | (effects, some err) => (effects, some err)
    | (effects, none) =>
      let (more, err) := sourceEntries destDir xs
      (effects ++ more, err)

def extractTarGz (destDir : Str) (calls : Nat → Calls) (bytes : Str) : List Effect × Option Error :=
  match untar bytes with
  | .error err => ([], some err)
  | .ok a =>
    match sourceEntries destDir (a.steps calls) with
    | (effects, some err) => (effects, some err)
    | (effects, none) => (effects, a.ending)

end

/-! ## What one entry does -/

variable {isPrint : Char → Bool} {hours : Str → Int} {destDir target : Str} {mode : Nat} {x : Step} {xs : List Step}
  {res : Restored}

def CallsFail (x : Step) : Prop :=
  (x.1.typeflag = .dir ∧ x.2.mkdirAll ≠ none) ∨
    (x.1.typeflag = .reg ∧ (x.2.mkdirAll ≠ none ∨ x.2.openFile ≠ none ∨ x.2.copy ≠ none))

theorem writeEntry_err : (writeEntry target mode x).2 ≠ none ↔ CallsFail x := by
  unfold writeEntry CallsFail
  cases x.1.typeflag with
  | dir => simp
  | reg => cases x.2.mkdirAll <;> cases x.2.openFile <;> simp
  | other => simp

def Opens (x : Step) : Prop := x.1.typeflag = .reg ∧ x.2.mkdirAll = none ∧ x.2.openFile = none

theorem mem_writeEntry {path data : Str} {m : Nat} {known : Bool}
    (h : .write path m data known ∈ (writeEntry target mode x).1) :
    Opens x ∧ path = target ∧ known = x.2.installPathExists := by
  unfold writeEntry at h
  unfold Opens
  cases hx : x.1.typeflag with
  | dir => simp [hx] at h
  | reg =>
    rw [hx] at h
    cases hm : x.2.mkdirAll <;> cases ho : x.2.openFile <;> rw [hm, ho] at h <;> simp at h
    exact ⟨⟨rfl, rfl, rfl⟩, h.1, h.2.2.2⟩
  | other => simp [hx] at h

theorem writeEntry_opens (h : Opens x) :
    ∃ data, .write target mode data x.2.installPathExists ∈ (writeEntry target mode x).1 := by
  obtain ⟨hx, hm, ho⟩ := h
  unfold writeEntry
  rw [hx, hm, ho]
  exact ⟨_, mem_cons_of_mem _ mem_cons_self⟩

def Reached (halts : Step → Prop) (xs : List Step) (x : Step) : Prop :=
  ∃ before after, xs = before ++ x :: after ∧ ∀ y ∈ before, ¬ halts y

theorem reached_cons {halts : Step → Prop} {y : Step} :
    Reached halts (y :: xs) x ↔ x = y ∨ ¬ halts y ∧ Reached halts xs x := by
  constructor
  · rintro ⟨before, after, heq, hbefore⟩
    cases before with
    | nil => exact .inl (List.cons.inj heq).1.symm
    | cons z before =>
      obtain ⟨rfl, rfl⟩ := List.cons.inj heq
      exact .inr ⟨hbefore y mem_cons_self, before, after, rfl,
        fun w hw => hbefore w (mem_cons_of_mem _ hw)⟩
  · rintro (rfl | ⟨hy, before, after, rfl, hbefore⟩)
    · exact ⟨[], xs, rfl, nofun⟩
    · refine ⟨y :: before, after, rfl, fun w hw => ?_⟩
      rcases mem_cons.mp hw with rfl | hw
      · exact hy
      · exact hbefore w hw

/-! ## Names that `Restore` accepts -/

/-- The cleaned name of an entry leads out of the directory it is extracted to. -/
def Leaves (name : Str) : Prop := isAbs name = true ∨ dotdot ∈ resolved name

theorem names_of_safe {name : Str} (h : unsafeName name = false) :
    isAbs name = false ∧ resolved name ≠ [] ∧ ∀ n ∈ resolved name, Name n := by
  simp only [unsafeName, isAbs_clean, Bool.or_eq_false_iff, decide_eq_false_iff_not] at h
  obtain ⟨⟨hdot, hup⟩, habs⟩ := h
  obtain ⟨k, ns, heq, hns, -⟩ := normal_resolved name
  have hclean : clean name = unparse false (resolved name) := by rw [clean, habs]
  refine ⟨habs, fun hnil => hdot (by rw [hclean, hnil]; rfl), ?_⟩
  cases k with
  | zero =>
    rw [heq]
    exact hns
  | succ k =>
    -- a path that leads up begins with its two dots
    have hcons : resolved name = dotdot :: (List.replicate k dotdot ++ ns) := by
      rw [heq, replicate_succ]
      rfl
    rw [clean_of_not_abs habs (by simp [hcons]), hcons, isPrefixOf_join] at hup
    cases hup

theorem unsafeName_of_leaves {name : Str} (h : Leaves name) : unsafeName name = true := by
  by_contra hsafe
  obtain ⟨habs, -, hnames⟩ := names_of_safe (Bool.not_eq_true _ ▸ hsafe)
  rcases h with h | h
  · rw [habs] at h
    cases h
  · exact (hnames _ h).ne_dotdot rfl

def restoreTarget (x : Step) : Str := joinPath configDir (clean x.1.name)

theorem configDir_ne_nil : configDir ≠ [] := by decide

theorem restoreTarget_resolved (h : unsafeName x.1.name = false) :
    isAbs (restoreTarget x) = isAbs configDir ∧ resolved (restoreTarget x) = resolved configDir ++ resolved x.1.name := by
  obtain ⟨-, -, hnames⟩ := names_of_safe h
  refine ⟨isAbs_joinPath configDir_ne_nil, ?_⟩
  rw [restoreTarget, resolved_joinPath configDir_ne_nil, elements_clean, foldl_push_names hnames]

theorem restoreTarget_under (h : unsafeName x.1.name = false) : Under configDir (restoreTarget x) := by
  obtain ⟨habs, hr⟩ := restoreTarget_resolved h
  obtain ⟨-, hne, hnames⟩ := names_of_safe h
  exact ⟨habs, _, hne, fun hmem => (hnames _ hmem).ne_dotdot rfl, hr⟩

theorem clean_of_restoreTarget {m : Str} (h : unsafeName x.1.name = false)
    (hm : resolved (configDir ++ slash :: m) = resolved configDir ++ [m])
    (ht : restoreTarget x = configDir ++ slash :: m) : clean x.1.name = m := by
  obtain ⟨habs, hne, -⟩ := names_of_safe h
  have hr := (restoreTarget_resolved h).2
  rw [ht, hm] at hr
  rw [clean_of_not_abs habs hne, ← append_cancel_left hr]
  simp [join, List.intercalate]

theorem rel_restoreTarget (h : unsafeName x.1.name = false) :
    ∃ r, rel configDir (restoreTarget x) = some r ∧ dotdot.isPrefixOf r = false := by
  obtain ⟨habs, hne, -⟩ := names_of_safe h
  obtain ⟨habs', hr⟩ := restoreTarget_resolved h
  refine ⟨_, rel_of_under habs' hne hr, ?_⟩
  rw [← clean_of_not_abs habs hne]
  simp only [unsafeName, Bool.or_eq_false_iff] at h
  exact h.1.2

/-! ## `Restore` -/

def Goes (x : Step) : Prop := x.1.name ≠ backupMetaName ∧ unsafeName x.1.name = false ∧ skipped x = false

def RestoreHalts (x : Step) : Prop :=
  x.1.name ≠ backupMetaName ∧ (unsafeName x.1.name = true ∨ skipped x = false ∧ CallsFail x)

theorem restoreEntry_refused (hname : x.1.name ≠ backupMetaName) (h : unsafeName x.1.name = true) :
    restoreEntry isPrint hours res x = (res, some (unsafePath isPrint x.1.name)) := by
  unfold restoreEntry
  dsimp only
  rw [if_neg hname, if_pos h]

theorem restoreEntry_goes (h : Goes x) :
    (restoreEntry isPrint hours res x).1.effects =
        res.effects ++ (writeEntry (restoreTarget x) (fileMode x.1.mode) x).1 ∧
      (restoreEntry isPrint hours res x).2 = (writeEntry (restoreTarget x) (fileMode x.1.mode) x).2 := by
  obtain ⟨hname, hsafe, hskip⟩ := h
  obtain ⟨r, hr, hup⟩ := rel_restoreTarget hsafe
  unfold restoreTarget at hr
  unfold restoreEntry
  dsimp only
  rw [if_neg hname, hsafe, hskip, if_neg Bool.false_ne_true, if_neg Bool.false_ne_true, hr]
  dsimp only
  rw [hup, if_neg Bool.false_ne_true]
  refine ⟨?_, rfl⟩
  split
  · unfold Restored.wrote
    dsimp only
    split
    · rfl
    · split
      · rfl
      · split <;> rfl
  · rfl

theorem restoreEntry_spec :
    (∀ eff, eff ∈ (restoreEntry isPrint hours res x).1.effects ↔ eff ∈ res.effects ∨
        Goes x ∧ eff ∈ (writeEntry (restoreTarget x) (fileMode x.1.mode) x).1) ∧
      ((restoreEntry isPrint hours res x).2 ≠ none ↔ RestoreHalts x) := by
  by_cases hname : x.1.name = backupMetaName
  · unfold restoreEntry Goes RestoreHalts
    dsimp only
    rw [if_pos hname]
    constructor
    · intro eff
      split <;> simp [hname]
    · simp [hname]
  · by_cases hunsafe : unsafeName x.1.name = true
    · rw [restoreEntry_refused hname hunsafe]
      simp [Goes, RestoreHalts, hunsafe, hname]
    · have hsafe : unsafeName x.1.name = false := Bool.not_eq_true _ ▸ hunsafe
      by_cases hskip : skipped x = true
      · unfold restoreEntry Goes RestoreHalts
        dsimp only
        rw [if_neg hname, if_neg hunsafe, if_pos hskip]
        simp [hsafe, hskip]
      · have hgoes : Goes x := ⟨hname, hsafe, Bool.not_eq_true _ ▸ hskip⟩
        obtain ⟨heff, herr⟩ := @restoreEntry_goes isPrint hours x res hgoes
        rw [heff, herr, writeEntry_err]
        simp [hgoes, RestoreHalts, hname, hsafe, hgoes.2.2]

theorem mem_restoreEntries {eff : Effect} :
    eff ∈ (restoreEntries isPrint hours xs res).1.effects ↔ eff ∈ res.effects ∨
      ∃ x, Reached RestoreHalts xs x ∧ Goes x ∧ eff ∈ (writeEntry (restoreTarget x) (fileMode x.1.mode) x).1 := by
  induction xs generalizing res with
  | nil =>
    simp [restoreEntries, Reached]
  | cons y xs ih =>
    obtain ⟨heff, herr⟩ := @restoreEntry_spec isPrint hours y res
    rw [restoreEntries]
    rcases hy : restoreEntry isPrint hours res y with ⟨res', _ | err⟩
    · rw [hy] at heff herr
      have hgo : ¬ RestoreHalts y := fun h => absurd rfl (herr.mpr h)
      simp only [ih, heff, reached_cons, hgo, not_false_eq_true, true_and, or_and_right, exists_or,
        exists_eq_left, or_assoc]
    · rw [hy] at heff herr
      have hhalt : RestoreHalts y := herr.mp (by simp)
      simp only [heff, reached_cons, hhalt, not_true_eq_false, false_and, or_false, exists_eq_left]

theorem restoreEntries_append {ys : List Step} :
    restoreEntries isPrint hours (xs ++ ys) res =
      match restoreEntries isPrint hours xs res with
      | (res, some err) => (res, some err)
      | (res, none) => restoreEntries isPrint hours ys res := by
  induction xs generalizing res with
  | nil => rfl
  | cons x xs ih =>
    rw [cons_append, restoreEntries, restoreEntries]
    rcases restoreEntry isPrint hours res x with ⟨res', _ | err⟩
    · exact ih
    · rfl

def sidecarPath : Str := configDir ++ slash :: backupMetaName

/-- The entry is the sidecar under another name than its own, and its file is opened. -/
def WritesSidecar (x : Step) : Prop := x.1.name ≠ backupMetaName ∧ clean x.1.name = backupMetaName ∧ Opens x

theorem goes_of_writesSidecar (h : WritesSidecar x) : Goes x ∧ restoreTarget x = sidecarPath := by
  obtain ⟨hname, hclean, -⟩ := h
  refine ⟨⟨hname, ?_, ?_⟩, ?_⟩
  · rw [unsafeName, hclean]
    decide
  · rw [skipped, hclean]
    have : decide (backupMetaName = base installPathFile) = false := by decide
    rw [this, Bool.false_and]
  · rw [restoreTarget, hclean]
    decide

/-- A file that is written is in the directory, is not install_path when that is there, and is the sidecar only for one
name. -/
theorem goes_file (h : Goes x) (ho : Opens x) :
    Under configDir (restoreTarget x) ∧ (restoreTarget x = sidecarPath → WritesSidecar x) ∧
      (x.2.installPathExists = true → restoreTarget x ≠ installPathFile) := by
  obtain ⟨hname, hsafe, hskip⟩ := h
  refine ⟨restoreTarget_under hsafe, fun ht => ⟨hname, ?_, ho⟩, fun hexists ht => ?_⟩
  · exact clean_of_restoreTarget hsafe (by decide) ht
  · have hclean : clean x.1.name = lit "install_path" := clean_of_restoreTarget hsafe (by decide) ht
    have hbase : base installPathFile = lit "install_path" := by decide
    rw [skipped, hclean, hbase, hexists] at hskip
    simp at hskip

variable {untar : Str → Except Error Archive} {made : Option Error} {calls : Nat → Calls} {bytes : Str}

structure RestoreInside (isPrint : Char → Bool) (hours : Str → Int) (untar : Str → Except Error Archive)
    (made : Option Error) (calls : Nat → Calls) (bytes : Str) : Prop where
  files : ∀ path mode data known,
    .write path mode data known ∈ (restore isPrint hours untar made calls bytes).1.effects →
      Under configDir path ∧ path ≠ sidecarPath ∧ (known = true → path ≠ installPathFile)
  stops : ∀ a, untar bytes = .ok a → made = none → ∀ before x after, a.steps calls = before ++ x :: after →
    Leaves x.1.name → ∃ err,
      restore isPrint hours untar made calls bytes = ((restoreEntries isPrint hours before {}).1, some err) ∧
      restoreEntries isPrint hours (before ++ [x]) {} = ((restoreEntries isPrint hours before {}).1, some err)

def SidecarNamed (untar : Str → Except Error Archive) (made : Option Error) (calls : Nat → Calls) (bytes : Str) : Prop :=
  ∀ a, untar bytes = .ok a → made = none → ∀ x, Reached RestoreHalts (a.steps calls) x → ¬ WritesSidecar x

theorem mem_restore {eff : Effect} :
    eff ∈ (restore isPrint hours untar made calls bytes).1.effects ↔
      ∃ a, untar bytes = .ok a ∧ made = none ∧ ∃ x, Reached RestoreHalts (a.steps calls) x ∧ Goes x ∧
        eff ∈ (writeEntry (restoreTarget x) (fileMode x.1.mode) x).1 := by
  unfold restore
  rcases untar bytes with err | a
  · simp
  · cases made with
    | some err => simp
    | none =>
      have hmem := @mem_restoreEntries isPrint hours (a.steps calls) {} eff
      dsimp only
      generalize restoreEntries isPrint hours (a.steps calls) {} = out at *
      obtain ⟨res, _ | err⟩ := out <;> simpa using hmem

theorem restore_stops {a : Archive} {before after : List Step} (ha : untar bytes = .ok a)
    (hsteps : a.steps calls = before ++ x :: after) (hx : Leaves x.1.name) : ∃ err,
      restore isPrint hours untar none calls bytes = ((restoreEntries isPrint hours before {}).1, some err) ∧
      restoreEntries isPrint hours (before ++ [x]) {} = ((restoreEntries isPrint hours before {}).1, some err) := by
  have hname : x.1.name ≠ backupMetaName := by
    intro heq
    rw [heq] at hx
    exact absurd (unsafeName_of_leaves hx) (by decide)
  have hentry := fun res => @restoreEntry_refused isPrint hours x res hname (unsafeName_of_leaves hx)
  unfold restore
  rw [ha]
  dsimp only
  rw [hsteps, restoreEntries_append, restoreEntries_append]
  rcases restoreEntries isPrint hours before {} with ⟨res, _ | err⟩
  · dsimp only
    rw [restoreEntries, restoreEntries, hentry]
    exact ⟨_, rfl, rfl⟩
  · exact ⟨err, rfl, rfl⟩

theorem restoreInside_iff : RestoreInside isPrint hours untar made calls bytes ↔ SidecarNamed untar made calls bytes := by
  constructor
  · intro h a ha hmade x hreached hx
    obtain ⟨hgoes, htarget⟩ := goes_of_writesSidecar hx
    obtain ⟨data, hmem⟩ := @writeEntry_opens (restoreTarget x) (fileMode x.1.mode) x hx.2.2
    have hwrite := (@mem_restore isPrint hours untar made calls bytes _).mpr ⟨a, ha, hmade, x, hreached, hgoes, hmem⟩
    exact (h.files _ _ _ _ hwrite).2.1 htarget
  · intro h
    refine ⟨fun path mode data known hmem => ?_, fun a ha hmade before x after hsteps hx => ?_⟩
    · obtain ⟨a, ha, hmade, x, hreached, hgoes, hmem⟩ := mem_restore.mp hmem
      obtain ⟨ho, rfl, rfl⟩ := mem_writeEntry hmem
      obtain ⟨hunder, hsidecar, hinstall⟩ := goes_file hgoes ho
      exact ⟨hunder, fun heq => h a ha hmade x hreached (hsidecar heq), hinstall⟩
    · subst hmade
      exact restore_stops ha hsteps hx

/-! ## `extractTarGz` -/

def SourceHalts (destDir : Str) (x : Step) : Prop :=
  ∃ r, stripped x.1.name = some r ∧ (inDest destDir r = false ∨ CallsFail x)

def SourceLeaves (destDir : Str) (x : Step) : Prop :=
  ∃ r, stripped x.1.name = some r ∧ ¬ Within destDir (joinPath destDir r)

theorem stripped_ne_nil {name r : Str} (h : stripped name = some r) : r ≠ [] := by
  unfold stripped at h
  split at h
  · split at h
    · cases h
    next hne =>
      cases h
      exact hne
  · cases h

theorem under_of_accepted {r : Str} (hr : r ≠ []) (hup : ¬ OnlyUp destDir)
    (h : inDest destDir r = true) : Under destDir (joinPath destDir r) := by
  by_cases hd : destDir = []
  · -- the cleaned directory is ".", which nothing begins with
    subst hd
    obtain ⟨u, hu⟩ := isPrefixOf_iff_prefix.mp h
    rw [joinPath, if_pos rfl, if_neg hr] at hu
    have hdot : clean [] = dot := by decide
    rw [hdot, append_assoc] at hu
    exact absurd hu.symm (not_dot_slash (normal_resolved r))
  · exact under_of_isPrefixOf hd hup h

theorem sourceEntry_spec :
    (∀ eff, eff ∈ (sourceEntry destDir x).1 ↔ ∃ r, stripped x.1.name = some r ∧
        inDest destDir r = true ∧ eff ∈ (writeEntry (joinPath destDir r) 0o644 x).1) ∧
      ((sourceEntry destDir x).2 ≠ none ↔ SourceHalts destDir x) := by
  unfold sourceEntry SourceHalts
  cases hs : stripped x.1.name with
  | none => simp
  | some r =>
    dsimp only
    cases hp : inDest destDir r with
    | true =>
      rw [if_pos rfl, writeEntry_err]
      simp [hp]
    | false =>
      rw [if_neg Bool.false_ne_true]
      simp [hp]

theorem mem_sourceEntries {eff : Effect} :
    eff ∈ (sourceEntries destDir xs).1 ↔ ∃ x, Reached (SourceHalts destDir) xs x ∧ eff ∈ (sourceEntry destDir x).1 := by
  induction xs with
  | nil => simp [sourceEntries, Reached]
  | cons y xs ih =>
    obtain ⟨-, herr⟩ := @sourceEntry_spec destDir y
    rw [sourceEntries]
    rcases hy : sourceEntry destDir y with ⟨effs, _ | err⟩
    · rw [hy] at herr
      have hgo : ¬ SourceHalts destDir y := fun h => absurd rfl (herr.mpr h)
      simp only [mem_append, ih, reached_cons, hgo, not_false_eq_true, true_and, or_and_right, exists_or,
        exists_eq_left, hy]
    · rw [hy] at herr
      have hhalt : SourceHalts destDir y := herr.mp (by simp)
      simp only [reached_cons, hhalt, not_true_eq_false, false_and, or_false, exists_eq_left, hy]

theorem sourceEntries_append {ys : List Step} :
    sourceEntries destDir (xs ++ ys) =
      match sourceEntries destDir xs with
      | (effects, some err) => (effects, some err)
      | (effects, none) => (effects ++ (sourceEntries destDir ys).1, (sourceEntries destDir ys).2) := by
  induction xs with
  | nil => simp [sourceEntries]
  | cons x xs ih =>
    rw [cons_append, sourceEntries, sourceEntries]
    rcases sourceEntry destDir x with ⟨effs, _ | err⟩
    · dsimp only
      rw [ih]
      rcases sourceEntries destDir xs with ⟨effs', _ | err⟩
      · dsimp only
        rw [append_assoc]
      · rfl
    · rfl

theorem sourceEntries_none_iff : (sourceEntries destDir xs).2 = none ↔ ∀ y ∈ xs, ¬ SourceHalts destDir y := by
  induction xs with
  | nil => simp [sourceEntries]
  | cons x xs ih =>
    obtain ⟨-, herr⟩ := @sourceEntry_spec destDir x
    rw [sourceEntries, forall_mem_cons, ← ih]
    rcases hy : sourceEntry destDir x with ⟨effs, _ | err⟩
    · rw [hy] at herr
      have hgo : ¬ SourceHalts destDir x := fun h => absurd rfl (herr.mpr h)
      simp [hgo]
    · rw [hy] at herr
      have hhalt : SourceHalts destDir x := herr.mp (by simp)
      simp [hhalt]

structure SourceInside (untar : Str → Except Error Archive) (destDir : Str) (calls : Nat → Calls) (bytes : Str) :
    Prop where
  files : ∀ path mode data known, .write path mode data known ∈ (extractTarGz untar destDir calls bytes).1 →
    Under destDir path
  stops : ∀ a, untar bytes = .ok a → ∀ before x after, a.steps calls = before ++ x :: after → SourceLeaves destDir x →
    ∃ err, extractTarGz untar destDir calls bytes = ((sourceEntries destDir before).1, some err) ∧
      sourceEntries destDir (before ++ [x]) = ((sourceEntries destDir before).1, some err)

/-- A directory that leads only up gets an archive of which no entry that is reached leads out. -/
def UpHarmless (untar : Str → Except Error Archive) (destDir : Str) (calls : Nat → Calls) (bytes : Str) : Prop :=
  OnlyUp destDir → ∀ a, untar bytes = .ok a → ∀ x, Reached (SourceHalts destDir) (a.steps calls) x →
    ¬ SourceLeaves destDir x

theorem mem_extractTarGz {eff : Effect} :
    eff ∈ (extractTarGz untar destDir calls bytes).1 ↔
      ∃ a, untar bytes = .ok a ∧ ∃ x, Reached (SourceHalts destDir) (a.steps calls) x ∧
        eff ∈ (sourceEntry destDir x).1 := by
  unfold extractTarGz
  rcases untar bytes with err | a
  · simp
  · have hmem := @mem_sourceEntries destDir (a.steps calls) eff
    dsimp only
    generalize sourceEntries destDir (a.steps calls) = out at *
    obtain ⟨effs, _ | err⟩ := out <;> simpa using hmem

theorem writeEntry_nil (h : (writeEntry target mode x).1 = []) : (writeEntry target mode x).2 = none := by
  revert h
  unfold writeEntry
  cases x.1.typeflag with
  | dir => simp
  | reg => cases x.2.mkdirAll <;> cases x.2.openFile <;> simp
  | other => simp

theorem source_stops {a : Archive} {before after : List Step} (hup : ¬ OnlyUp destDir) (ha : untar bytes = .ok a)
    (hsteps : a.steps calls = before ++ x :: after) (hx : SourceLeaves destDir x) :
    ∃ err, extractTarGz untar destDir calls bytes = ((sourceEntries destDir before).1, some err) ∧
      sourceEntries destDir (before ++ [x]) = ((sourceEntries destDir before).1, some err) := by
  obtain ⟨r, hr, hout⟩ := hx
  have hdest : inDest destDir r = false := by
    by_contra hin
    exact hout (under_of_accepted (stripped_ne_nil hr) hup (Bool.not_eq_false _ ▸ hin)).within
  have hentry : sourceEntry destDir x = ([], some (.other (lit "unsafe path in archive: " ++ x.1.name))) := by
    rw [sourceEntry, hr]
    dsimp only
    rw [hdest, if_neg Bool.false_ne_true]
  unfold extractTarGz
  rw [ha]
  dsimp only
  rw [hsteps, sourceEntries_append, sourceEntries_append]
  rcases sourceEntries destDir before with ⟨effs, _ | err⟩
  · dsimp only
    rw [sourceEntries, sourceEntries, hentry]
    dsimp only
    rw [append_nil]
    exact ⟨_, rfl, rfl⟩
  · exact ⟨err, rfl, rfl⟩

theorem sourceInside_iff : SourceInside untar destDir calls bytes ↔ UpHarmless untar destDir calls bytes := by
  constructor
  · rintro h hup a ha x ⟨before, after, hsteps, hbefore⟩ hx
    obtain ⟨err, -, hstop⟩ := h.stops a ha before x after hsteps hx
    obtain ⟨r, hr, hout⟩ := hx
    have hentry : sourceEntry destDir x = writeEntry (joinPath destDir r) 0o644 x := by
      rw [sourceEntry, hr]
      dsimp only
      rw [inDest, isPrefixOf_of_onlyUp hup hout, if_pos rfl]
    have hnone := sourceEntries_none_iff.mpr hbefore
    rw [sourceEntries_append] at hstop
    rcases hrun : sourceEntries destDir before with ⟨effs, _ | err'⟩
    · rw [hrun] at hstop
      have hone : sourceEntries destDir [x] = writeEntry (joinPath destDir r) 0o644 x := by
        rw [sourceEntries, hentry]
        rcases writeEntry (joinPath destDir r) 0o644 x with ⟨effs', _ | err'⟩
        · simp [sourceEntries]
        · rfl
      rw [hone, Prod.mk.injEq] at hstop
      obtain ⟨heff, herr⟩ := hstop
      rw [writeEntry_nil (append_right_eq_self.mp heff)] at herr
      cases herr
    · rw [hrun] at hnone
      cases hnone
  · intro h
    by_cases hup : OnlyUp destDir
    · refine ⟨fun path mode data known hmem => ?_, fun a ha before x after hsteps hx => ?_⟩
      · obtain ⟨a, ha, x, hreached, hmem⟩ := mem_extractTarGz.mp hmem
        obtain ⟨r, hr, hdest, hmem⟩ := (sourceEntry_spec.1 _).mp hmem
        obtain ⟨-, rfl, -⟩ := mem_writeEntry hmem
        have hin : Within destDir (joinPath destDir r) := by
          by_contra hout
          exact h hup a ha x hreached ⟨r, hr, hout⟩
        exact hin.under hup.ne_nil hdest
      · -- such an entry is not reached
        have herr : (sourceEntries destDir before).2 ≠ none := by
          intro hnone
          exact h hup a ha x ⟨before, after, hsteps, sourceEntries_none_iff.mp hnone⟩ hx
        unfold extractTarGz
        rw [ha]
        dsimp only
        rw [hsteps, sourceEntries_append, sourceEntries_append]
        generalize sourceEntries destDir before = out at *
        obtain ⟨effs, _ | err⟩ := out
        · exact absurd rfl herr
        · exact ⟨err, rfl, rfl⟩
    · refine ⟨fun path mode data known hmem => ?_, fun a ha before x after hsteps hx => source_stops hup ha hsteps hx⟩
      obtain ⟨a, -, x, -, hmem⟩ := mem_extractTarGz.mp hmem
      obtain ⟨r, hr, hdest, hmem⟩ := (sourceEntry_spec.1 _).mp hmem
      obtain ⟨-, rfl, -⟩ := mem_writeEntry hmem
      exact under_of_accepted (stripped_ne_nil hr) hup hdest

/-- Both stay inside exactly when no entry of a backup is the sidecar under another name than its own, and a directory that
leads only up gets no source that leads out of it. -/
theorem extraction_inside_iff {sourceCalls : Nat → Calls} {source : Str} :
    RestoreInside isPrint hours untar made calls bytes ∧ SourceInside untar destDir sourceCalls source ↔
      SidecarNamed untar made calls bytes ∧ UpHarmless untar destDir sourceCalls source :=
  and_congr restoreInside_iff sourceInside_iff

def dottedBackup : Archive where
  entries := [⟨lit "./.arange-tun-backup.json", .reg, 0o600, lit "x"⟩, ⟨lit "./a.toml", .reg, 0o600, lit "y"⟩]

/-- The sidecar of that backup is written to disk. -/
theorem sidecar_written :
    Effect.write sidecarPath 0o600 (lit "x") false ∈
        (restore (fun _ => true) (fun _ => 0) (fun _ => .ok dottedBackup) none (fun _ => {}) []).1.effects ∧
      ¬ RestoreInside (fun _ => true) (fun _ => 0) (fun _ => .ok dottedBackup) none (fun _ => {}) [] := by
  have hmem : Effect.write sidecarPath 0o600 (lit "x") false ∈
      (restore (fun _ => true) (fun _ => 0) (fun _ => .ok dottedBackup) none (fun _ => {}) []).1.effects := by
    decide
  exact ⟨hmem, fun h => (h.files _ _ _ _ hmem).2.1 rfl⟩

end ArangeTun.Manage.Extract
