import ArangeTun.Frp.Lemmas.Flows

/-! # Teardown of a flow and the newer flows of its source -/

namespace ArangeTun.Frp

open Go Transition Option

variable {s : State}

def Tears (s : State) (i : Nat) : Action → Prop
  | .replyRemove j | .replyClose j => j = i
  | .remove => s.main = .removing i
  | .close => ∃ found, s.main = .closing i found
  | .reap | .closeAll => ∃ key, s.m key = some i
  | _ => False

/-- Flow `j` keeps its entry, if it has one, and its stream is not closed. -/
def Spared (s s' : State) (j : Nat) (g : Flow) : Prop :=
  (s.m g.key = some j → s'.m g.key = some j) ∧ ∃ g' : Flow, s'.flows[j]? = some g' ∧ g'.closed = g.closed

/-- No step of the teardown of a flow touches a newer flow of the same source. -/
def SparesNewer (s : State) : Prop :=
  ∀ (i j : Nat) (f g : Flow) (a : Action) (s' : State), s.flows[i]? = some f → s.flows[j]? = some g →
    g.key = f.key → i < j → Tears s i a → step s a = some s' → Spared s s' j g

theorem spared_of_delete {i j : Nat} {g : Flow} {s' : State} (hij : i < j)
    (hown : ∀ k, s.m g.key = some k → k = i) (hflows : ∃ g' : Flow, s'.flows[j]? = some g' ∧ g'.closed = g.closed) :
    Spared s s' j g := by
  refine ⟨fun hj => ?_, hflows⟩
  have := hown j hj
  omega

theorem spared_sweep {i j : Nat} {f g : Flow} {p : Flow → Bool} (hinv : Inv s) (hf : s.flows[i]? = some f)
    (hg : s.flows[j]? = some g) (hkey : g.key = f.key) (hij : i < j) (hentry : ∃ key, s.m key = some i) :
    Spared s (s.sweep p) j g := by
  obtain ⟨key, hm⟩ := hentry
  obtain ⟨f', hf', rfl⟩ := hinv.entry key i hm
  rw [hf, Option.some.injEq] at hf'
  subst hf'
  have hne : s.m g.key ≠ some j := by
    rw [hkey, hm, ne_eq, Option.some.injEq]
    omega
  refine ⟨fun hj => absurd hj hne, g, ?_, rfl⟩
  rw [sweep_getElem?, hg, map_some, if_neg fun h => hne h.1]

theorem Inv.sparesNewer (hinv : Inv s) : SparesNewer s := by
  intro i j f g a s' hf hg hkey hij htears hstep
  have hne : i ≠ j := Nat.ne_of_lt hij
  have hsame {l : List Flow} (hl : l[j]? = some g) : ∃ g' : Flow, l[j]? = some g' ∧ g'.closed = g.closed := ⟨g, hl, rfl⟩
  cases a with
  | replyRemove k =>
    cases htears
    simp only [Frp.step, hf, bind_eq_bind, bind_some, ite_none_right_eq_some,
      Option.some.injEq] at hstep
    obtain ⟨hremoving, rfl⟩ := hstep
    refine spared_of_delete hij ?_ (hsame ((getElem?_set_ne hne).trans hg))
    rw [hkey]
    exact hinv.reply i f hf (by rw [hremoving]; rfl)
  | replyClose k =>
    cases htears
    simp only [Frp.step, hf, bind_eq_bind, bind_some] at hstep
    split at hstep
    · rename_i found hclosing
      obtain rfl := hinv.replyClosing i f hf found hclosing
      obtain ⟨f', -, hstep⟩ := bind_eq_some_iff.mp hstep
      cases hstep
      exact ⟨id, hsame ((getElem?_set_ne hne).trans ((getElem?_set_ne hne).trans hg))⟩
    · cases hstep
  | remove =>
    have hmain : s.main = .removing i := htears
    simp only [Frp.step, hmain, hf, bind_eq_bind, bind_some, Option.some.injEq] at hstep
    subst hstep
    refine spared_of_delete hij ?_ (hsame hg)
    rw [hkey]
    exact hinv.main i f (by rw [hmain]; rfl) hf
  | close =>
    obtain ⟨found, hmain⟩ := htears
    obtain rfl := hinv.mainClosing i found hmain
    simp only [Frp.step, hmain, hf, bind_eq_bind, bind_some, Option.some.injEq] at hstep
    subst hstep
    exact ⟨id, hsame ((getElem?_set_ne hne).trans hg)⟩
  | reap =>
    cases hstep
    exact spared_sweep hinv hf hg hkey hij htears
  | closeAll =>
    obtain ⟨-, rfl⟩ := enabled hstep
    have hspared := spared_sweep (p := fun _ => true) hinv hf hg hkey hij htears
    refine ⟨fun hj => ?_, hspared.2⟩
    have := hspared.1 hj
    simp [State.sweep, hj, hg] at this
  | pass | receive | openStream | add | write | reply | replyEnds => exact htears.elim

/-- Any interleaving of datagrams, the reaper and the reply goroutines in which every new flow is added after its
older ones are settled. -/
theorem sparesNewer_of_addsSettled (h : Reach step AddsSettled initial s) : SparesNewer s := by
  have hinv : Inv s := h.invariant inv_initial fun _ _ _ hs hc hstep => hs.step hc hstep
  exact hinv.sparesNewer

def settledComeback : List Action :=
  [.receive (lit "a"), .openStream true, .add, .write true, .pass (61 * 10 ^ 9), .reap, .replyEnds 0, .replyRemove 0,
    .receive (lit "a"), .openStream true, .add, .write true, .replyEnds 1]

theorem sparesNewer_settledComeback : ∃ s, Reach step AddsSettled initial s ∧
    (s.m (lit "a") = some 1 ∧ s.flows.map (fun f => (f.closed, f.reply)) =
      [(true, .returned), (false, .removing)]) ∧ SparesNewer s := by
  have hrun : ∃ s, Reach step AddsSettled initial s ∧
      (s.m (lit "a") = some 1 ∧ s.flows.map (fun f => (f.closed, f.reply)) =
        [(true, .returned), (false, .removing)]) :=
    exists_reach settledComeback (by decide +kernel)
  obtain ⟨s, hreach, hs⟩ := hrun
  exact ⟨s, hreach, hs, sparesNewer_of_addsSettled hreach⟩

/-- The source comes back between the reap of its flow and the `remove` of that flow's goroutine. -/
def earlyComeback : List Action :=
  [.receive (lit "a"), .openStream true, .add, .write true, .pass (61 * 10 ^ 9), .reap, .receive (lit "a"),
    .openStream true, .add, .write true, .replyEnds 0]

/-- The goroutine of flow 0 removes the entry of flow 1 and closes its stream. -/
theorem newer_flow_removed : ∃ s, Reach step Any initial s ∧ (s.m (lit "a") = some 1 ∧
    s.flows.map (·.closed) = [true, false] ∧
    ((step s (.replyRemove 0)).map fun s' => s'.m (lit "a")) = some none ∧
    (((step s (.replyRemove 0)).bind (step · (.replyClose 0))).map fun s' => s'.flows.map (·.closed)) =
      some [true, true]) :=
  exists_reach earlyComeback (by decide +kernel)

end ArangeTun.Frp
