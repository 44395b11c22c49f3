import ArangeTun.Tunnels.Lemmas.Save
import ArangeTun.Tunnels.ParsesBack

/-! # A change that fails -/

namespace ArangeTun.Tunnels

open Go World

variable {isPrint : Char → Bool} {m : Machine} {o : Outcomes} {w : World} {s : TunnelSpec} {req : TunnelRequest}

/-! ## What is to hold -/

structure Restores (o : Outcomes) : Prop where
  file : o.restore = .whole
  again : o.again.active = true
  stop : o.stop.active = false

def World.same (w w' : World) (name : Str) : Prop :=
  w'.files (configPath name) = w.files (configPath name) ∧ w'.active (serviceName name) = w.active (serviceName name)

/-- Unless the change went through and the tunnel runs, nothing has changed. -/
def Kept {ε α : Type} (w : World) (name : Str) (r : World × Except ε α) : Prop :=
  (∀ x, r.2 ≠ .ok x) ∨ r.1.active (serviceName name) = false → w.same r.1 name

def NothingLeft {ε α : Type} (name : Str) (r : World × Except ε α) : Prop :=
  (∀ x, r.2 ≠ .ok x) → r.1.files (configPath name) = none ∧ r.1.files (unitPath name) = none

theorem kept_of_same {ε α : Type} {name : Str} {w' : World} {r : Except ε α} (h : w.same w' name) :
    Kept w name (w', r) := fun _ => h

theorem kept_error {ε α : Type} {name : Str} {w' : World} {e : ε} :
    Kept w name (w', (.error e : Except ε α)) ↔ w.same w' name :=
  ⟨fun h => h (.inl nofun), kept_of_same⟩

theorem kept_ok {ε α : Type} {name : Str} {w' : World} {x : α} :
    Kept w name (w', (.ok x : Except ε α)) ↔ (w'.active (serviceName name) = false → w.same w' name) := by
  refine ⟨fun h hdown => h (.inr hdown), fun h => ?_⟩
  rintro (herr | hdown)
  · exact absurd rfl (herr x)
  · exact h hdown

theorem nothingLeft_error {ε α : Type} {name : Str} {w' : World} {e : ε} :
    NothingLeft name (w', (.error e : Except ε α)) ↔
      w'.files (configPath name) = none ∧ w'.files (unitPath name) = none :=
  ⟨fun h => h nofun, fun h _ => h⟩

def ApplySafe (o : Outcomes) (w : World) (name : Str) : Prop :=
  o.read = true → (w.files (configPath name)).isSome = true → o.failure = some .start →
    o.start.active = w.active (serviceName name)

theorem revertSpec_same (hr : Restores o) {w' : World} {name prev : Str} (h : w.files (configPath name) = some prev) :
    w.same (revertSpec o w' (configPath name) prev (serviceName name) (w.active (serviceName name))) name := by
  unfold revertSpec same
  rw [ctl_files, write_files_self, ctl_active_self, hr.file, h]
  refine ⟨rfl, ?_⟩
  cases w.active (serviceName name) with
  | true => exact hr.again
  | false => exact hr.stop

theorem applySpec_kept_iff (hr : Restores o) :
    Kept w s.name (applySpec isPrint o w s) ↔ ApplySafe o w s.name := by
  unfold applySpec
  dsimp only
  cases hprev : (if o.read then w.files (configPath s.name) else none) with
  | none =>
    refine iff_of_true (fun _ => ⟨rfl, rfl⟩) fun hread hsome => ?_
    rw [if_pos hread] at hprev
    rw [hprev] at hsome
    cases hsome
  | some prev =>
    obtain ⟨hread, hfile⟩ : o.read = true ∧ w.files (configPath s.name) = some prev := by
      split at hprev
      · exact ⟨‹_›, hprev⟩
      · cases hprev
    -- the file is put back whatever step of the save failed
    have hback : ∀ w' : World, (w'.write (configPath s.name) prev o.restore).files (configPath s.name) =
        w.files (configPath s.name) := by
      intro w'
      rw [write_files_self, hr.file, hfile]
      rfl
    have hother : ∀ e, o.failure = e → e ≠ some .start → ApplySafe o w s.name :=
      fun e he hne _ _ hstart => absurd (he.symm.trans hstart) hne
    dsimp only
    cases save_stops o w s.name (s.render isPrint) with
    | mkdir h hsave =>
      rw [hsave]
      exact iff_of_true (kept_of_same ⟨hback _, rfl⟩) (hother _ h nofun)
    | config h hsave =>
      rw [hsave]
      exact iff_of_true (kept_of_same ⟨hback _, rfl⟩) (hother _ h nofun)
    | unit h hsave =>
      rw [hsave]
      exact iff_of_true (kept_of_same ⟨hback _, rfl⟩) (hother _ h nofun)
    | reload h hsave =>
      rw [hsave]
      exact iff_of_true (kept_of_same ⟨hback _, rfl⟩) (hother _ h nofun)
    | start h hsave =>
      rw [hsave]
      dsimp only
      rw [kept_error, same, hback, write_active, ctl_active_self]
      exact ⟨fun hsame _ _ _ => hsame.2, fun hsafe => ⟨rfl, hsafe hread (by rw [hfile]; rfl) h⟩⟩
    | done h hsave =>
      rw [hsave]
      refine iff_of_true ?_ (hother _ h nofun)
      dsimp only
      split
      · exact kept_of_same (revertSpec_same hr hfile)
      · split
        · rw [kept_ok, ctl_active_self]
          exact fun hdown => absurd hdown (by simpa using ‹o.settled = true›)
        · exact kept_of_same (revertSpec_same hr hfile)

def UpdateSafe (o : Outcomes) (w : World) (name text : Str) : Prop :=
  match o.failure with
  | some .mkdir => True
  | some .config => o.config.left text = w.files (configPath name)
  | some .unit => w.files (configPath name) = some text
  | some .reload => w.files (configPath name) = some text
  | some .start => w.files (configPath name) = some text ∧ o.start.active = w.active (serviceName name)
  | none =>
    o.restart.ok = true ∧ o.restart.active = true ∨
      w.files (configPath name) = some text ∧ o.restart.active = w.active (serviceName name)

theorem updateTunnel_kept_iff :
    Kept w (trimSpace req.name) (updateTunnel isPrint m o w req) ↔
      ((w.files (configPath (trimSpace req.name))).isSome = true → ∀ s, buildSpec m req = .ok s →
        UpdateSafe o w (trimSpace req.name) (s.render isPrint)) := by
  unfold updateTunnel
  dsimp only
  cases hfile : w.files (configPath (trimSpace req.name)) with
  | none => exact iff_of_true (kept_of_same ⟨rfl, rfl⟩) nofun
  | some prev =>
    cases hbuild : buildSpec m req with
    | error e => exact iff_of_true (kept_of_same ⟨rfl, rfl⟩) fun _ _ => nofun
    | ok s =>
      rw [← buildSpec_name hbuild] at hfile ⊢
      have hsafe : ((some prev).isSome = true → ∀ t, Except.ok s = Except.ok (ε := BuildError) t →
          UpdateSafe o w s.name (t.render isPrint)) ↔ UpdateSafe o w s.name (s.render isPrint) := by
        refine ⟨fun h => h rfl s rfl, fun h _ t ht => ?_⟩
        cases ht
        exact h
      rw [hsafe]
      simp only [Option.isNone_some, Bool.false_eq_true, if_false]
      unfold UpdateSafe
      cases save_stops o w s.name (s.render isPrint) with
      | mkdir h hsave =>
        rw [h, hsave]
        exact iff_of_true (kept_of_same ⟨rfl, rfl⟩) trivial
      | config h hsave =>
        rw [h, hsave]
        simp only [kept_error, same, write_files_self, write_active, and_true]
      | unit h hsave =>
        rw [h, hsave]
        simp only [kept_error, same, write_active, and_true]
        rw [write_files_of_ne _ (configPath_ne_unitPath _ _), write_files_self]
        exact eq_comm
      | reload h hsave =>
        rw [h, hsave]
        simp only [kept_error, same, saved_files, saved_active, and_true]
        exact eq_comm
      | start h hsave =>
        rw [h, hsave]
        simp only [kept_error, same, ctl_files, ctl_active_self, saved_files]
        rw [eq_comm]
      | done h hsave =>
        rw [h, hsave]
        have hsame : w.same (((saved w s.name (s.render isPrint)).ctl (serviceName s.name) o.start).ctl
            (serviceName s.name) o.restart) s.name ↔
            w.files (configPath s.name) = some (s.render isPrint) ∧
              o.restart.active = w.active (serviceName s.name) := by
          simp only [same, ctl_files, ctl_active_self, saved_files]
          rw [eq_comm]
        dsimp only
        split
        next hok =>
          rw [kept_ok, hsame, ctl_active_self]
          cases o.restart.active <;> simp [hok]
        next hok =>
          rw [kept_error, hsame]
          simp [hok]

def CreateSafe (m : Machine) (o : Outcomes) (w : World) (req : TunnelRequest) : Prop :=
  w.files (configPath (trimSpace req.name)) = none ∧
    if o.failure = none ∧ (buildSpec m req).isOk = true then True
    else
      w.files (unitPath (trimSpace req.name)) = none ∧
        ((buildSpec m req).isOk = true → o.failure = some .mkdir ∨ o.config = .broken none)

theorem createTunnel_nothingLeft_iff :
    NothingLeft (trimSpace req.name) (createTunnel isPrint m o w req) ↔ CreateSafe m o w req := by
  unfold createTunnel CreateSafe
  dsimp only
  by_cases htaken : trimSpace req.name ≠ [] ∧ (w.files (configPath (trimSpace req.name))).isSome = true
  · have hsome : w.files (configPath (trimSpace req.name)) ≠ none := Option.isSome_iff_ne_none.mp htaken.2
    rw [if_pos htaken, nothingLeft_error]
    exact iff_of_false (fun h => hsome h.1) fun h => hsome h.1
  rw [if_neg htaken]
  cases hbuild : buildSpec m req with
  | error e => simp [nothingLeft_error, Except.isOk, Except.toBool]
  | ok s =>
    have hne : trimSpace req.name ≠ [] := (of_decide_eq_true (buildSpec_eq_ok hbuild).name).1
    have hfile : w.files (configPath (trimSpace req.name)) = none :=
      Option.not_isSome_iff_eq_none.mp fun hsome => htaken ⟨hne, hsome⟩
    rw [← buildSpec_name hbuild] at hfile ⊢
    dsimp only
    -- the text is there, and a save that fails now does not take it away
    have hleft : o.failure ≠ some .mkdir → o.failure ≠ some .config → o.failure ≠ none →
        ¬ (w.files (configPath s.name) = none ∧
          if o.failure = none ∧ (Except.ok (ε := BuildError) s).isOk = true then True
          else w.files (unitPath s.name) = none ∧
            ((Except.ok (ε := BuildError) s).isOk = true → o.failure = some .mkdir ∨ o.config = .broken none)) := by
      intro hmkdir hconfig hnone
      simp [hnone, hmkdir, Outcomes.config_eq_whole hmkdir hconfig, Except.isOk, Except.toBool]
    cases save_stops o w s.name (s.render isPrint) with
    | mkdir h hsave =>
      rw [hsave]
      simp [nothingLeft_error, h]
    | config h hsave =>
      rw [hsave]
      have hunit := (configPath_ne_unitPath s.name s.name).symm
      have hbroken := Outcomes.config_ne_whole h
      cases hcfg : o.config with
      | whole => exact absurd hcfg hbroken
      | broken left =>
        simp [nothingLeft_error, h, hfile, write_files_of_ne _ hunit, Except.isOk, Except.toBool, Write.left,
          and_comm]
    | unit h hsave =>
      refine iff_of_false ?_ (hleft (by rw [h]; nofun) (by rw [h]; nofun) (by rw [h]; nofun))
      rw [hsave]
      dsimp only
      rw [nothingLeft_error, write_files_of_ne _ (configPath_ne_unitPath _ _), write_files_self]
      exact fun hnone => nomatch hnone.1
    | reload h hsave =>
      refine iff_of_false ?_ (hleft (by rw [h]; nofun) (by rw [h]; nofun) (by rw [h]; nofun))
      rw [hsave]
      dsimp only
      rw [nothingLeft_error, saved_files]
      exact fun hnone => nomatch hnone.1
    | start h hsave =>
      refine iff_of_false ?_ (hleft (by rw [h]; nofun) (by rw [h]; nofun) (by rw [h]; nofun))
      rw [hsave]
      dsimp only
      rw [nothingLeft_error, ctl_files, saved_files]
      exact fun hnone => nomatch hnone.1
    | done h hsave =>
      rw [hsave]
      refine iff_of_true (fun herr => absurd rfl (herr _)) ⟨hfile, ?_⟩
      rw [if_pos ⟨h, rfl⟩]
      trivial

/-- When a failed change costs nothing: for an edit in the terminal, an edit in the panel and a new tunnel. -/
theorem failed_change_iff (hr : Restores o) :
    (Kept w s.name (applySpec isPrint o w s) ↔ ApplySafe o w s.name) ∧
      (Kept w (trimSpace req.name) (updateTunnel isPrint m o w req) ↔
        ((w.files (configPath (trimSpace req.name))).isSome = true → ∀ s, buildSpec m req = .ok s →
          UpdateSafe o w (trimSpace req.name) (s.render isPrint))) ∧
      (NothingLeft (trimSpace req.name) (createTunnel isPrint m o w req) ↔ CreateSafe m o w req) :=
  ⟨applySpec_kept_iff hr, updateTunnel_kept_iff, createTunnel_nothingLeft_iff⟩

/-- A restart that fails, with the reverting steps in order. -/
theorem failed_restart_kept :
    Restores { restart := ⟨false, false⟩ } ∧
      Kept (.one (configPath (lit "a")) [] true) (lit "a")
        (applySpec (fun _ => true) { restart := ⟨false, false⟩ } (.one (configPath (lit "a")) [] true)
          { name := lit "a" }) := by
  have hr : Restores { restart := ⟨false, false⟩ } := ⟨rfl, rfl, rfl⟩
  have hiff := @failed_change_iff (fun _ => true) .blank _ (.one (configPath (lit "a")) [] true) { name := lit "a" } {} hr
  exact ⟨hr, hiff.1.mpr fun _ _ hstart => absurd hstart (by decide)⟩

/-- The panel saves an edit after which the tunnel is down, and leaves it so. -/
theorem failed_change_costs :
    ¬ Kept (.one (configPath (lit "a")) [] true) (trimSpace (lit "a"))
        (updateTunnel (fun _ => true) .blank { restart := ⟨true, false⟩ } (.one (configPath (lit "a")) [] true)
          (clientRequest (lit "t"))) ∧
      ¬ Kept (.one (configPath (lit "a")) [] false) (lit "a")
        (applySpec (fun _ => true) { start := ⟨false, true⟩ } (.one (configPath (lit "a")) [] false)
          { name := lit "a" }) ∧
      ¬ NothingLeft (trimSpace (lit "a"))
        (createTunnel (fun _ => true) .blank { start := ⟨false, false⟩ } ⟨fun _ => none, fun _ => false, []⟩
          (clientRequest (lit "t"))) := by
  have hbuilt : buildSpec .blank (clientRequest (lit "t")) = .ok (clientOf (lit "t")) := by decide +kernel
  have hname : trimSpace (lit "a") = lit "a" := by decide +kernel
  refine ⟨fun h => ?_, fun h => ?_, fun h => ?_⟩
  · have hthere : ((one (configPath (lit "a")) [] true).files
        (configPath (trimSpace (clientRequest (lit "t")).name))).isSome = true := by
      rw [show (clientRequest (lit "t")).name = lit "a" from rfl, hname, one_files]
      rfl
    have hsafe := updateTunnel_kept_iff.mp h hthere _ hbuilt
    obtain ⟨-, hup⟩ | ⟨-, hdown⟩ := hsafe
    · cases hup
    · cases hdown
  · have hsafe := (applySpec_kept_iff ⟨rfl, rfl, rfl⟩).mp h rfl (by rw [one_files]; rfl) (by decide)
    cases hsafe
  · have hsafe := (createTunnel_nothingLeft_iff.mp h).2
    rw [if_neg (by decide), hbuilt] at hsafe
    obtain hmkdir | hconfig := hsafe.2 rfl
    · exact absurd hmkdir (by decide)
    · cases hconfig

end ArangeTun.Tunnels
