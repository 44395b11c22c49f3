import ArangeTun.Tunnels.Service

/-! # What a save leaves -/

namespace ArangeTun.Tunnels

open Go

variable {o : Outcomes} {w : World} {name text path service : Str}

theorem configPath_ne_unitPath (a b : Str) : configPath a ≠ unitPath b := by
  intro h
  have hdiff : (configPath a)[5]? = (unitPath b)[5]? := by rw [h]
  simp only [configPath, unitPath, List.append_assoc] at hdiff
  rw [List.getElem?_append_left (by decide +kernel), List.getElem?_append_left (by decide +kernel)] at hdiff
  exact absurd hdiff (by decide +kernel)

namespace World

@[simp] theorem write_files_self (r : Write) : (w.write path text r).files path = r.left text :=
  Function.update_self ..

theorem write_files_of_ne {path' : Str} (r : Write) (h : path' ≠ path) :
    (w.write path text r).files path' = w.files path' := Function.update_of_ne h ..

@[simp] theorem write_active (r : Write) : (w.write path text r).active = w.active := rfl

@[simp] theorem ctl_files (r : Ctl) : (w.ctl service r).files = w.files := rfl

@[simp] theorem ctl_active_self (r : Ctl) : (w.ctl service r).active service = r.active := Function.update_self ..

end World

def World.one (path text : Str) (active : Bool) : World :=
  { files := Function.update (fun _ => none) path (some text), active := fun _ => active, writes := [] }

@[simp] theorem World.one_files (path text : Str) (active : Bool) : (World.one path text active).files path = some text :=
  Function.update_self (f := fun _ => none) ..

def Outcomes.failure (o : Outcomes) : Option SaveError :=
  if o.mkdir = false then some .mkdir
  else if o.config ≠ .whole then some .config
  else if o.unit ≠ .whole then some .unit
  else if o.reload = false then some .reload
  else if o.start.ok = false then some .start
  else none

theorem Outcomes.config_eq_whole (hmkdir : o.failure ≠ some .mkdir) (hconfig : o.failure ≠ some .config) :
    o.config = .whole := by
  unfold Outcomes.failure at *
  by_contra hne
  split at hmkdir
  · exact hmkdir rfl
  · exact hconfig (by rw [if_neg ‹_›, if_pos hne])

theorem Outcomes.config_ne_whole (h : o.failure = some .config) : o.config ≠ .whole := by
  rintro heq
  unfold Outcomes.failure at h
  rw [heq] at h
  split_ifs at h <;> simp_all

def saved (w : World) (name text : Str) : World :=
  (w.write (configPath name) text .whole).write (unitPath name) (unitText name) .whole

@[simp] theorem saved_files : (saved w name text).files (configPath name) = some text := by
  rw [saved, World.write_files_of_ne _ (configPath_ne_unitPath _ _), World.write_files_self]
  rfl

@[simp] theorem saved_active : (saved w name text).active = w.active := rfl

inductive SaveStops (o : Outcomes) (w : World) (name text : Str) (r : World × Except SaveError Unit) : Prop
  | mkdir (h : o.failure = some .mkdir) (hr : r = (w, .error .mkdir))
  | config (h : o.failure = some .config) (hr : r = (w.write (configPath name) text o.config, .error .config))
  | unit (h : o.failure = some .unit) (hr : r =
      ((w.write (configPath name) text .whole).write (unitPath name) (unitText name) o.unit, .error .unit))
  | reload (h : o.failure = some .reload) (hr : r = (saved w name text, .error .reload))
  | start (h : o.failure = some .start) (hr : r = ((saved w name text).ctl (serviceName name) o.start, .error .start))
  | done (h : o.failure = none) (hr : r = ((saved w name text).ctl (serviceName name) o.start, .ok ()))

theorem save_stops (o : Outcomes) (w : World) (name text : Str) :
    SaveStops o w name text (save o w name text) := by
  unfold save writeFiles
  by_cases hmkdir : o.mkdir = false
  · rw [if_pos hmkdir]
    exact .mkdir (if_pos hmkdir) rfl
  rw [if_neg hmkdir]
  by_cases hconfig : o.config = .whole
  case neg =>
    dsimp only
    rw [if_pos hconfig]
    exact .config (by simp [Outcomes.failure, hmkdir, hconfig]) rfl
  by_cases hunit : o.unit = .whole
  case neg =>
    dsimp only
    rw [if_neg (not_not_intro hconfig), if_pos hunit, hconfig]
    exact .unit (by simp [Outcomes.failure, hmkdir, hconfig, hunit]) rfl
  dsimp only
  rw [if_neg (not_not_intro hconfig), if_neg (not_not_intro hunit), hconfig, hunit]
  by_cases hreload : o.reload = false
  · rw [if_pos hreload]
    exact .reload (by simp [Outcomes.failure, hmkdir, hconfig, hunit, hreload]) rfl
  rw [if_neg hreload]
  by_cases hstart : o.start.ok = true
  · dsimp only
    rw [if_pos hstart]
    exact .done (by simp [Outcomes.failure, hmkdir, hconfig, hunit, hreload, hstart]) rfl
  · dsimp only
    rw [if_neg hstart]
    exact .start (by simp [Outcomes.failure, hmkdir, hconfig, hunit, hreload, Bool.eq_false_iff.mpr hstart]) rfl

end ArangeTun.Tunnels
