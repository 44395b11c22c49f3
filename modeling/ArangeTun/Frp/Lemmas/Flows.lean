import ArangeTun.Frp.Model
import ArangeTun.Transition.Table

/-! # The flow table of the frp server -/

namespace ArangeTun.Frp

open Go Transition List Option

variable {s s' : State} {i : Nat} {f f' : Flow}

structure Inv (s : State) : Prop where
  entry : ∀ (k : Str) (i : Nat), s.m k = some i → ∃ f : Flow, s.flows[i]? = some f ∧ f.key = k
  reply : ∀ (i : Nat) (f : Flow), s.flows[i]? = some f → f.reply.pending = true → ∀ j, s.m f.key = some j → j = i
  replyClosing : ∀ (i : Nat) (f : Flow), s.flows[i]? = some f → ∀ j, f.reply = .closing j → j = i
  main : ∀ (i : Nat) (f : Flow), s.main.flow = some i → s.flows[i]? = some f → ∀ j, s.m f.key = some j → j = i
  mainClosing : ∀ i j : Nat, s.main = .closing i j → j = i

theorem inv_initial : Inv initial where
  entry _ _ h := by cases h
  reply _ _ h := by simp [initial] at h
  replyClosing _ _ h := by simp [initial] at h
  main _ _ h := by cases h
  mainClosing _ _ h := by cases h

theorem Inv.setFlow (f' : Flow) (h : Inv s) (hf : s.flows[i]? = some f) (hkey : f'.key = f.key)
    (hpending : f'.reply.pending = true → f.reply.pending = true) (hclosing : ∀ j, f'.reply = .closing j → j = i) :
    Inv (s.setFlow i f') where
  entry k j hj := exists_set (h.entry k j hj) hf fun hk => hkey.trans hk
  reply := by
    refine forall_set h.reply fun hp j hj => ?_
    rw [hkey] at hj
    exact h.reply i f hf (hpending hp) j hj
  replyClosing := forall_set h.replyClosing hclosing
  main j g hj hg k hk := by
    rcases getElem?_set_cases hg with ⟨rfl, rfl⟩ | ⟨-, hg⟩
    · rw [hkey] at hk
      exact h.main i f hj hf k hk
    · exact h.main j g hj hg k hk
  mainClosing := h.mainClosing

theorem Inv.shrink {m : Map Str Nat} (h : Inv s) (hm : ∀ k j, m k = some j → s.m k = some j) :
    Inv { s with m := m } where
  entry k j hj := h.entry k j (hm k j hj)
  reply j g hg hp k hk := h.reply j g hg hp k (hm _ k hk)
  replyClosing := h.replyClosing
  main j g hj hg k hk := h.main j g hj hg k (hm _ k hk)
  mainClosing := h.mainClosing

theorem Inv.setMain {pc : MainPc} (h : Inv s)
    (hflow : ∀ j, pc.flow = some j → s.main.flow = some j ∨ ∃ k, s.m k = some j)
    (hclosing : ∀ i j, pc = .closing i j → j = i) : Inv { s with main := pc } where
  entry := h.entry
  reply := h.reply
  replyClosing := h.replyClosing
  main j g hj hg k hk := by
    rcases hflow j hj with hj | ⟨key, hkey⟩
    · exact h.main j g hj hg k hk
    · obtain ⟨g', hg', rfl⟩ := h.entry key j hkey
      rw [hg, Option.some.injEq] at hg'
      rw [hg', hkey, Option.some.injEq] at hk
      exact hk.symm
  mainClosing := hclosing

theorem Inv.leave {pc : MainPc} (h : Inv s) (hflow : pc.flow = none) (hclosing : ∀ i j, pc ≠ .closing i j) :
    Inv { s with main := pc } := by
  apply h.setMain
  · intro j hj
    rw [hflow] at hj
    cases hj
  · exact fun i j hpc => absurd hpc (hclosing i j)

theorem sweep_getElem? {p : Flow → Bool} {j : Nat} : (s.sweep p).flows[j]? =
    s.flows[j]?.map fun f => if s.m f.key = some j ∧ p f = true then { f with closed := true } else f :=
  getElem?_mapIdx

theorem sweep_cases {p : Flow → Bool} {j : Nat} {g : Flow} (h : (s.sweep p).flows[j]? = some g) :
    ∃ f : Flow, s.flows[j]? = some f ∧ g.key = f.key ∧ g.reply = f.reply := by
  rw [sweep_getElem?, map_eq_some_iff] at h
  obtain ⟨f, hf, rfl⟩ := h
  refine ⟨f, hf, ?_, ?_⟩ <;> split <;> rfl

theorem Inv.sweep (p : Flow → Bool) (h : Inv s) : Inv (s.sweep p) where
  entry k j hj := by
    obtain ⟨f, hf, hkey⟩ := h.entry k j (filter_eq_some_iff.mp hj).1
    refine ⟨if s.m f.key = some j ∧ p f = true then { f with closed := true } else f, ?_, ?_⟩
    · rw [sweep_getElem?, hf, map_some]
    · rw [← hkey]
      split <;> rfl
  reply j g hg hp k hk := by
    obtain ⟨f, hf, hkey, hreply⟩ := sweep_cases hg
    rw [hreply] at hp
    rw [hkey] at hk
    exact h.reply j f hf hp k (filter_eq_some_iff.mp hk).1
  replyClosing j g hg k hk := by
    obtain ⟨f, hf, -, hreply⟩ := sweep_cases hg
    rw [hreply] at hk
    exact h.replyClosing j f hf k hk
  main j g hj hg k hk := by
    obtain ⟨f, hf, hkey, -⟩ := sweep_cases hg
    rw [hkey] at hk
    exact h.main j f hj hf k (filter_eq_some_iff.mp hk).1
  mainClosing := h.mainClosing

/-- No reply goroutine of the source has its `remove` still before it. -/
def State.Settled (s : State) (src : Str) : Prop := ∀ f ∈ s.flows, f.key = src → f.reply.pending = false

theorem Inv.add {src : Str} (h : Inv s) (hsrc : s.Settled src) :
    Inv { s with
      flows := s.flows ++ [⟨src, s.now, false, .copying⟩]
      m := s.m.set src s.flows.length
      main := .writing s.flows.length } where
  entry k j hj := by
    rcases Map.set_eq_some.mp hj with ⟨rfl, rfl⟩ | ⟨-, hj⟩
    · exact ⟨_, getElem?_concat_length .., rfl⟩
    · exact exists_concat (h.entry k j hj)
  reply := by
    apply forall_concat
    · intro j g hg hp k hk
      rcases Map.set_eq_some.mp hk with ⟨hkey, -⟩ | ⟨-, hk⟩
      · rw [hsrc g (mem_of_getElem? hg) hkey] at hp
        cases hp
      · exact h.reply j g hg hp k hk
    · intro _ k hk
      simp only [Map.set_self, Option.some.injEq] at hk
      exact hk.symm
  replyClosing := forall_concat h.replyClosing fun _ hj => by cases hj
  main j g hj hg k hk := by
    cases hj
    rw [getElem?_concat_length, Option.some.injEq] at hg
    subst hg
    simp only [Map.set_self, Option.some.injEq] at hk
    exact hk.symm
  mainClosing _ _ hj := by cases hj

/-- A new flow of a source is added only when the reply goroutines of its older flows have done their `remove`. -/
def AddsSettled (s : State) : Action → Prop
  | .add => ∀ src, s.main = .adding src → s.Settled src
  | _ => True

instance (s : State) (src : Str) : Decidable (s.Settled src) := inferInstanceAs (Decidable (∀ f ∈ s.flows, _))

instance (s : State) : (a : Action) → Decidable (AddsSettled s a)
  | .add =>
    match h : s.main with
    | .adding src => decidable_of_iff (s.Settled src) (by simp [AddsSettled, h])
    | .reading | .opening _ | .writing _ | .removing _ | .closing _ _ | .returned => isTrue (by simp [AddsSettled, h])
  | .pass _ | .receive _ | .openStream _ | .write _ | .remove | .close | .reply _ | .replyEnds _ | .replyRemove _
  | .replyClose _ | .reap | .closeAll => isTrue trivial

theorem Inv.step {a : Action} (h : Inv s) (hc : AddsSettled s a) (hstep : step s a = some s') : Inv s' := by
  cases a with
  | pass nanos =>
    cases hstep
    exact ⟨h.entry, h.reply, h.replyClosing, h.main, h.mainClosing⟩
  | receive src =>
    obtain ⟨-, hstep⟩ := ite_none_right_eq_some.mp hstep
    split at hstep
    · rename_i j hj
      cases hstep
      refine h.setMain (fun k hk => ?_) fun _ _ hpc => by cases hpc
      cases hk
      exact .inr ⟨src, hj⟩
    · cases hstep
      exact h.leave rfl fun _ _ => MainPc.noConfusion
  | openStream ok =>
    simp only [Frp.step] at hstep
    split at hstep
    · cases hstep
      cases ok with
      | true => exact h.leave rfl fun _ _ => MainPc.noConfusion
      | false => exact h.leave rfl fun _ _ => MainPc.noConfusion
    · cases hstep
  | add =>
    simp only [Frp.step] at hstep
    split at hstep
    · rename_i src hmain
      cases hstep
      exact h.add (hc src hmain)
    · cases hstep
  | write ok =>
    simp only [Frp.step] at hstep
    split at hstep
    · rename_i i hmain
      obtain ⟨f, hf, hstep⟩ := bind_eq_some_iff.mp hstep
      cases hstep
      have hset := h.setFlow { f with last := s.now } hf rfl id (h.replyClosing i f hf)
      cases ok with
      | true => exact hset.leave rfl fun _ _ => MainPc.noConfusion
      | false =>
        refine hset.setMain (fun j hj => .inl ?_) fun _ _ hpc => by cases hpc
        cases hj
        show s.main.flow = some i
        rw [hmain]
        rfl
    · cases hstep
  | remove =>
    simp only [Frp.step] at hstep
    split at hstep
    · rename_i i hmain
      obtain ⟨f, hf, hstep⟩ := bind_eq_some_iff.mp hstep
      cases hstep
      have hown : ∀ j, s.m f.key = some j → j = i := h.main i f (by rw [hmain]; rfl) hf
      split
      · rename_i found hfound
        have hclosing : Inv { s with main := .closing i found } :=
          h.setMain (fun _ hj => by cases hj) fun _ _ hpc => by cases hpc; exact hown found hfound
        exact hclosing.shrink fun _ _ hj => (Map.delete_eq_some.mp hj).2
      · have hreading : Inv { s with main := .reading } := h.leave rfl fun _ _ => MainPc.noConfusion
        exact hreading.shrink fun _ _ hj => (Map.delete_eq_some.mp hj).2
    · cases hstep
  | close =>
    simp only [Frp.step] at hstep
    split at hstep
    · rename_i found hmain
      obtain ⟨g, hg, hstep⟩ := bind_eq_some_iff.mp hstep
      cases hstep
      have hset := h.setFlow { g with closed := true } hg rfl id (h.replyClosing found g hg)
      exact hset.leave rfl fun _ _ => MainPc.noConfusion
    · cases hstep
  | reply i =>
    obtain ⟨f, hf, hstep⟩ := bind_eq_some_iff.mp hstep
    obtain ⟨-, rfl⟩ := enabled hstep
    exact h.setFlow _ hf rfl id (h.replyClosing i f hf)
  | replyEnds i =>
    obtain ⟨f, hf, hstep⟩ := bind_eq_some_iff.mp hstep
    obtain ⟨hcopying, rfl⟩ := enabled hstep
    refine h.setFlow _ hf rfl (fun _ => ?_) fun _ hj => by cases hj
    rw [hcopying]
    rfl
  | replyRemove i =>
    obtain ⟨f, hf, hstep⟩ := bind_eq_some_iff.mp hstep
    obtain ⟨hremoving, rfl⟩ := enabled hstep
    have hown : ∀ j, s.m f.key = some j → j = i := h.reply i f hf (by rw [hremoving]; rfl)
    split
    · rename_i found hfound
      have hset := h.setFlow { f with reply := .closing found } hf rfl (fun hp => by cases hp) fun _ hj => by
        cases hj
        exact hown _ hfound
      exact hset.shrink fun _ _ hj => (Map.delete_eq_some.mp hj).2
    · have hset := h.setFlow { f with reply := .returned } hf rfl (fun hp => by cases hp) fun _ hj => by cases hj
      exact hset.shrink fun _ _ hj => (Map.delete_eq_some.mp hj).2
  | replyClose i =>
    obtain ⟨f, hf, hstep⟩ := bind_eq_some_iff.mp hstep
    split at hstep
    · rename_i found hclosing
      obtain ⟨g, hg, hstep⟩ := bind_eq_some_iff.mp hstep
      cases hstep
      have hset := h.setFlow { f with reply := .returned } hf rfl (fun hp => by cases hp) fun _ hj => by cases hj
      exact hset.setFlow _ hg rfl id (hset.replyClosing found g hg)
    · cases hstep
  | reap =>
    cases hstep
    exact h.sweep _
  | closeAll =>
    obtain ⟨-, rfl⟩ := enabled hstep
    have hempty : Inv { s.sweep fun _ => true with m := .empty } := (h.sweep _).shrink fun _ _ hj => by cases hj
    exact hempty.leave rfl fun _ _ => MainPc.noConfusion

end ArangeTun.Frp
