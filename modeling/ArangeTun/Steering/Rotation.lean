import ArangeTun.Steering.Endpoints

/-! # Endpoints in turn -/

namespace ArangeTun.Steering

open Go Transition List Option Cells

/-! ## `Next` in turn -/

section

variable {list : List Str} {sh : Shared Cells Call (Option Str)} {c : Call}

theorem results_concat (c d : Call) (returns : List (Call × Option Str)) (a : Option Str) :
    results c (returns ++ [(d, a)]) = results c returns ++ if d = c then [a] else [] := by
  rw [results, filterMap_append]
  congr 1
  split <;> simp_all

/-- With steering off and spread on, the calls of `Next` took the endpoints in turn. -/
structure Spreading (list : List Str) (m : Cells) (taken : List (Option Str)) : Prop where
  steer : m.steer = false
  spread : m.spread = true
  turns : taken = (List.range taken.length).map (spreadTurn list)
  cursor : 1 < list.length → m.spreadIdx = count taken.length

theorem Spreading.concat {m m' : Cells} {taken : List (Option Str)} (h : Spreading list m taken)
    (hsteer : m'.steer = m.steer) (hspread : m'.spread = m.spread)
    (hcursor : 1 < list.length → m'.spreadIdx = count (taken.length + 1)) :
    Spreading list m' (taken ++ [spreadTurn list taken.length]) where
  steer := hsteer.trans h.steer
  spread := hspread.trans h.spread
  turns := by
    rw [length_append, length_singleton, range_succ, map_append, ← h.turns]
    rfl
  cursor := by
    rw [length_append, length_singleton]
    exact hcursor

def SpreadingIn (list : List Str) (sh : Shared Cells Call (Option Str)) : Prop :=
  Spreading list sh.memory (results .next sh.returns)

theorem index_one (hlist : list.length = 1) (v : Int) (k : Nat) :
    index list (v.tmod list.length) = spreadTurn list k := by
  simp [spreadTurn, spreadIndex, hlist]

theorem current_running (hlist : list ≠ []) : (current list).returned = false := by
  rw [current, if_neg fun h0 => hlist (length_eq_zero_iff.mp h0)]
  rfl

theorem method_running (hlist : list ≠ []) (c : Call) : (method list c).returned = false := by
  cases c with
  | current => exact current_running hlist
  | rotate =>
    simp only [method, rotate]
    split
    · exact current_running hlist
    · rfl
  | next =>
    rw [method, next, if_neg fun h0 => hlist (length_eq_zero_iff.mp h0)]
    rfl

theorem current_safe (hlist : list ≠ []) (hc : c = .next → list.length = 1) :
    interleaved.Safe Cells.exec (SpreadingIn list) c (current list) := by
  have hne : list.length ≠ 0 := fun h0 => hlist (length_eq_zero_iff.mp h0)
  rw [current, if_neg hne]
  intro sh h
  simp only [exec, h.steer]
  refine ⟨h, fun sh h => ⟨?_, trivial⟩⟩
  change Spreading list sh.memory
    (results .next (sh.returns ++ [(c, index list (sh.memory.idx.tmod list.length))]))
  rw [results_concat]
  split
  · rename_i hnext
    rw [index_one (hc hnext) _ (results .next sh.returns).length]
    exact Spreading.concat h rfl rfl fun h1 => absurd (hc hnext) (by omega)
  · rw [append_nil]
    exact h

theorem rotate_safe (hlist : list ≠ []) : interleaved.Safe Cells.exec (SpreadingIn list) .rotate (rotate list) := by
  unfold rotate
  split
  · exact current_safe hlist nofun
  · intro sh h
    simp only [exec, h.steer]
    refine ⟨h, fun sh h => ⟨?_, current_safe hlist nofun⟩⟩
    rw [Shared.note_of_running (current_running hlist)]
    exact ⟨h.steer, h.spread, h.turns, h.cursor⟩

theorem next_safe (hlist : list ≠ []) : interleaved.Safe Cells.exec (SpreadingIn list) .next (next list) := by
  have hne : list.length ≠ 0 := fun h0 => hlist (length_eq_zero_iff.mp h0)
  rw [next, if_neg hne]
  intro sh h
  simp only [exec, h.steer]
  refine ⟨h, fun sh h => ?_⟩
  simp only [exec, h.spread, Bool.true_eq_false, false_or]
  by_cases hone : list.length = 1
  · rw [if_pos hone, Shared.note_of_running (current_running hlist)]
    exact ⟨h, current_safe hlist fun _ => hone⟩
  · rw [if_neg hone]
    refine ⟨h, fun sh h => ⟨?_, trivial⟩⟩
    have hnew : (sh.memory.spreadIdx + 1).bmod (2 ^ 64) = count ((results .next sh.returns).length + 1) := by
      rw [h.cursor (by omega), count_succ]
    change Spreading list { sh.memory with spreadIdx := (sh.memory.spreadIdx + 1).bmod (2 ^ 64) }
      (results .next (sh.returns ++
        [(.next, index list (spreadIndex list.length ((sh.memory.spreadIdx + 1).bmod (2 ^ 64))))]))
    rw [hnew, results_concat, if_pos rfl]
    exact Spreading.concat h rfl rfl fun _ => by dsimp only

theorem spreading_in (hlist : list ≠ []) {s : Calls} (h : Reach (calls list) Any (fresh true) s) :
    SpreadingIn list s.shared := by
  refine interleaved.invariant h ⟨rfl, rfl, rfl, fun _ => count_zero.symm⟩ rfl
    (fun c => ?_) fun c sh hsh => ?_
  · cases c with
    | current => exact current_safe hlist nofun
    | rotate => exact rotate_safe hlist
    | next => exact next_safe hlist
  · rw [Shared.note_of_running (method_running hlist c)]
    exact hsh

theorem results_length_lt {C : Calls → Act Call Unit Empty → Prop} {spread : Bool} {s : Calls}
    (h : Reach (calls list) C (fresh spread) s) (hcalls : s.threads.length < 2 ^ 63) (c : Call) :
    (results c s.shared.returns).length < 2 ^ 63 := calc
  (results c s.shared.returns).length ≤ s.shared.returns.length := length_filterMap_le _ _
  _ ≤ s.threads.length := interleaved.returns_length_le h rfl rfl
  _ < 2 ^ 63 := hcalls

theorem next_rounds (hlist : list ≠ []) {s : Calls} (h : Reach (calls list) Any (fresh true) s)
    (hcalls : s.threads.length < 2 ^ 63) : Rounds list (results .next s.shared.returns) := by
  have hle : (results .next s.shared.returns).length < 2 ^ 63 := results_length_lt h hcalls .next
  rw [(spreading_in hlist h).turns]
  exact rounds_of_turns hlist fun k hk => spreadTurn_of_lt (by omega) list

end

/-! ## `Rotate` in turn -/

section

variable {list : List Str} {k : Nat} {m : Cells}

/-- A `Rotate` under way that will be the `k`-th one to return: before its `Add` or after it. -/
inductive Rotating (list : List Str) (k : Nat) (idx : Int) : Method → Prop
  | entered (h1 : 1 < list.length) (h : idx = count k) : Rotating list k idx (rotate list)
  | adding (h1 : 1 < list.length) (h : idx = count k) : Rotating list k idx (.op .addIdx fun _ => current list)
  | added (h : 1 < list.length → idx = count (k + 1)) : Rotating list k idx (current list)
  | loading (h : 1 < list.length → idx = count (k + 1)) :
      Rotating list k idx (.op .loadIdx fun (v : Int) => .ret (index list (v.tmod list.length)))

theorem Rotating.start (h : 1 < list.length → m.idx = count k) :
    Rotating list k m.idx (rotate list) := by
  by_cases h1 : 1 < list.length
  · exact .entered h1 (h h1)
  · rw [rotate, if_pos (by omega)]
    exact .added fun hlt => absurd hlt h1

theorem current_eq (hlist : list ≠ []) : current list = .op .loadSteer fun (steer : Bool) =>
    if steer = true then .op .loadPreferred fun (v : Int) => .ret (index list (clampIdx list.length v))
    else .op .loadIdx fun (v : Int) => .ret (index list (v.tmod list.length)) :=
  if_neg fun h0 => hlist (length_eq_zero_iff.mp h0)

theorem Rotating.step {o : Op} {p : o.Reply → Method} (h : Rotating list k m.idx (.op o p)) (hlist : list ≠ [])
    (hsteer : m.steer = false) :
    (m.exec o).1.steer = false ∧
      ((p (m.exec o).2).returned = false ∧ Rotating list k (m.exec o).1.idx (p (m.exec o).2) ∨
        p (m.exec o).2 = .ret (turn list (k + 1)) ∧ (1 < list.length → (m.exec o).1.idx = count (k + 1))) := by
  generalize hq : Code.op o p = q at h
  cases h with
  | entered h1 h =>
    rw [rotate, if_neg (by omega)] at hq
    cases hq
    simp only [exec, hsteer]
    exact ⟨trivial, .inl ⟨rfl, .adding h1 h⟩⟩
  | adding h1 h =>
    cases hq
    refine ⟨hsteer, .inl ⟨current_running hlist, .added fun _ => ?_⟩⟩
    rw [← count_succ, ← h]
    rfl
  | added h =>
    rw [current_eq hlist] at hq
    cases hq
    simp only [exec, hsteer]
    exact ⟨trivial, .inl ⟨rfl, .loading h⟩⟩
  | loading h =>
    cases hq
    refine ⟨hsteer, .inr ⟨congrArg Code.ret ?_, h⟩⟩
    change index list (m.idx.tmod list.length) = turn list (k + 1)
    by_cases h1 : 1 < list.length
    · rw [h h1, turn]
    · have hone : list.length = 1 := by
        have := length_pos_iff.mpr hlist
        omega
      simp [turn, hone]

variable {s s' : Calls}

def ReturnedBut (i : Option Nat) (s : Calls) : Prop :=
  ∀ (j : Nat) (p : Method), some j ≠ i → s.threads[j]? = some (Call.rotate, p) → p.returned = true

/-- At most one `Rotate` is under way, and the others returned the endpoints in turn. -/
structure Turning (list : List Str) (k : Nat) (s : Calls) : Prop where
  steer : s.shared.memory.steer = false
  turns : results .rotate s.shared.returns = (List.range k).map fun j => turn list (j + 1)
  under_way : ReturnedBut none s ∧ (1 < list.length → s.shared.memory.idx = count k) ∨
    ∃ i p, s.threads[i]? = some (.rotate, p) ∧ p.returned = false ∧ Rotating list k s.shared.memory.idx p ∧
      ReturnedBut (some i) s

theorem ReturnedBut.enter {i : Option Nat} (h : ReturnedBut i s) {sh : Shared Cells Call (Option Str)} {c : Call}
    {p : Method} (hc : c = .rotate → i = some s.threads.length) : ReturnedBut i ⟨sh, s.threads ++ [(c, p)]⟩ := by
  intro j q hj hq
  rcases getElem?_concat_cases hq with hq | ⟨rfl, hlast⟩
  · exact h j q hj hq
  · cases hlast
    exact absurd (hc rfl).symm hj

theorem ReturnedBut.move {i : Option Nat} (h : ReturnedBut i s) {sh : Shared Cells Call (Option Str)} {j : Nat}
    {c : Call} {p : Method} (hc : c = .rotate → some j ≠ i → p.returned = true) :
    ReturnedBut i ⟨sh, s.threads.set j (c, p)⟩ := by
  intro l q hl hq
  rcases getElem?_set_cases hq with ⟨rfl, hset⟩ | ⟨-, hq⟩
  · cases hset
    exact hc rfl hl
  · exact h l q hl hq

theorem Turning.enter (h : Turning list k s) (hlist : list ≠ []) {c : Call} (hc : InTurn s (.enter c)) :
    Turning list k ⟨s.shared, s.threads ++ [(c, method list c)]⟩ := by
  refine ⟨h.steer, h.turns, ?_⟩
  by_cases hrotate : c = .rotate
  · -- nothing is under way, so the new call is the one that is
    subst hrotate
    rcases h.under_way with ⟨hall, hidx⟩ | ⟨i, p, hi, hp, -⟩
    · have hrunning : (rotate list).returned = false := method_running hlist .rotate
      refine .inr ⟨s.threads.length, rotate list, getElem?_concat_length, hrunning, .start hidx, ?_⟩
      exact ReturnedBut.enter (fun j q _ hq => hall j q nofun hq) fun _ => rfl
    · rw [hc rfl i p hi] at hp
      cases hp
  · rcases h.under_way with ⟨hall, hidx⟩ | ⟨i, p, hi, hp, hrot, hbut⟩
    · exact .inl ⟨hall.enter fun hr => absurd hr hrotate, hidx⟩
    · refine .inr ⟨i, p, ?_, hp, hrot, hbut.enter fun hr => absurd hr hrotate⟩
      exact (getElem?_append_left (List.getElem?_eq_some_iff.mp hi).1).trans hi

theorem Turning.other (h : Turning list k s) {i : Nat} {c : Call} {p : Method} {sh : Shared Cells Call (Option Str)}
    (hc : c ≠ .rotate) (hi : ∀ q, s.threads[i]? ≠ some (.rotate, q))
    (hpointer : sh.memory.pointer = s.shared.memory.pointer)
    (hreturns : results .rotate sh.returns = results .rotate s.shared.returns) :
    Turning list k ⟨sh, s.threads.set i (c, p)⟩ := by
  simp only [pointer, Prod.mk.injEq] at hpointer
  obtain ⟨hsteer, -, hidx⟩ := hpointer
  refine ⟨hsteer.trans h.steer, hreturns.trans h.turns, ?_⟩
  rcases h.under_way with ⟨hall, hk⟩ | ⟨j, q, hj, hq, hrot, hbut⟩
  · exact .inl ⟨hall.move fun hr => absurd hr hc, fun h1 => hidx.trans (hk h1)⟩
  · refine .inr ⟨j, q, ?_, hq, hidx ▸ hrot, hbut.move fun hr => absurd hr hc⟩
    have hne : i ≠ j := fun hij => hi q (hij ▸ hj)
    rw [List.getElem?_set_ne hne, hj]

theorem Turning.rotate (h : Turning list k s) (hlist : list ≠ []) {i : Nat} {o : Op} {p : o.Reply → Method}
    (hi : s.threads[i]? = some (.rotate, .op o p)) :
    ∃ k, Turning list k ⟨Shared.note { s.shared with memory := (s.shared.memory.exec o).1 } .rotate
        (p (s.shared.memory.exec o).2), s.threads.set i (.rotate, p (s.shared.memory.exec o).2)⟩ := by
  rcases h.under_way with ⟨hall, -⟩ | ⟨j, q, hj, hq, hrot, hbut⟩
  · cases hall i _ nofun hi
  · obtain rfl : i = j := by
      by_contra hne
      cases hbut i _ (fun hij => hne (Option.some.inj hij)) hi
    rw [hi] at hj
    cases hj
    obtain ⟨hsteer, hstep⟩ := hrot.step hlist h.steer
    have hset : (s.threads.set i (.rotate, p (s.shared.memory.exec o).2))[i]? =
        some (.rotate, p (s.shared.memory.exec o).2) := by
      rw [List.getElem?_set_self (List.getElem?_eq_some_iff.mp hi).1]
    rcases hstep with ⟨hon, hrot⟩ | ⟨hret, hidx⟩
    · rw [Shared.note_of_running hon]
      exact ⟨k, hsteer, h.turns, .inr ⟨i, _, hset, hon, hrot, hbut.move fun _ hne => absurd rfl hne⟩⟩
    · rw [hret]
      refine ⟨k + 1, hsteer, ?_, .inl ⟨?_, hidx⟩⟩
      · change results .rotate (s.shared.returns ++ [(.rotate, turn list (k + 1))]) = _
        rw [results_concat, if_pos rfl, h.turns, range_succ, map_append]
        rfl
      · intro j q _ hj
        rcases getElem?_set_cases hj with ⟨rfl, hq⟩ | ⟨hne, hj⟩
        · cases hq
          rfl
        · exact hbut j q (fun hij => hne (Option.some.inj hij).symm) hj

theorem results_note {c : Call} (hc : c ≠ .rotate) (sh : Shared Cells Call (Option Str)) (p : Method) :
    results .rotate (sh.note c p).returns = results .rotate sh.returns := by
  cases p with
  | ret a => exact (results_concat .rotate c sh.returns a).trans (by rw [if_neg hc, append_nil])
  | op o k => rfl

theorem method_idle (list : List Str) (c : Call) : (method list c).Only fun o => c ≠ .rotate → o.Idle := by
  cases c with
  | current => exact (current_idle list).mono fun _ h _ => h
  | rotate => exact (rotate list).only_true.mono fun _ _ h => absurd rfl h
  | next => exact (next_idle list).mono fun _ h _ => h

theorem thread_idle {C : Calls → Act Call Unit Empty → Prop} {spread : Bool} (h : Reach (calls list) C (fresh spread) s)
    {i : Nat} {c : Call} {o : Op} {p : o.Reply → Method} (hi : s.threads[i]? = some (c, .op o p)) (hc : c ≠ .rotate) :
    o.Idle :=
  (interleaved.thread_only h rfl (method_idle list) hi).1 hc

theorem turning (hlist : list ≠ []) {spread : Bool} (h : Reach (calls list) InTurn (fresh spread) s) :
    ∃ k, Turning list k s := by
  refine h.invariant_with (I := fun s => ∃ k, Turning list k s) (fun _ hs => hs) ⟨0, ?_⟩ ?_
  · exact ⟨rfl, rfl, .inl ⟨nofun, fun _ => count_zero.symm⟩⟩
  · rintro s a s' hs ⟨k, hk⟩ hc hstep
    cases a with
    | enter c =>
      cases hstep
      rw [Shared.note_of_running (method_running hlist c)]
      exact ⟨k, hk.enter hlist hc⟩
    | move i x =>
      obtain ⟨c, o, p, hi, rfl⟩ := interleaved.move_cases hstep
      by_cases hrotate : c = .rotate
      · subst hrotate
        exact hk.rotate hlist hi
      · refine ⟨k, hk.other hrotate (fun q hq => ?_) ?_ ?_⟩
        · rw [hi] at hq
          exact hrotate (congrArg Prod.fst (Option.some.inj hq))
        · rw [Shared.note_memory]
          exact thread_idle hs hi hrotate _
        · exact results_note hrotate _ _
    | env e => cases e

theorem currentOf_eq (hlist : list ≠ []) : currentOf list s = index list
    (if s.shared.memory.steer = true then clampIdx list.length s.shared.memory.preferred
      else s.shared.memory.idx.tmod list.length) := by
  cases hsteer : s.shared.memory.steer <;> simp [currentOf, current_eq hlist, Code.run, exec, hsteer]

theorem rotate_cycles (hlist : list ≠ []) {spread : Bool} (h : Reach (calls list) InTurn (fresh spread) s)
    (hcalls : s.threads.length < 2 ^ 63) :
    Cycles list (currentOf list (fresh spread) :: results .rotate s.shared.returns) := by
  obtain ⟨k, hk⟩ := turning hlist h
  have hle : (results .rotate s.shared.returns).length < 2 ^ 63 := results_length_lt h hcalls .rotate
  have hstart : currentOf list (fresh spread) = turn list 0 := by
    rw [currentOf_eq hlist, turn, count_zero]
    rfl
  have hvisited : currentOf list (fresh spread) :: results .rotate s.shared.returns =
      (List.range (k + 1)).map (turn list) := by
    rw [hstart, hk.turns, range_succ_eq_map, map_cons, List.map_map, Function.comp_def]
  rw [hk.turns, length_map, length_range] at hle
  have hturn : ∀ j, j < k + 1 → turn list j = list[j % list.length]? := fun j hj => turn_of_lt (by omega) list
  rw [hvisited]
  refine ⟨rounds_of_turns hlist hturn, fun j hj => ?_⟩
  rw [length_map, length_range] at hj
  rw [getElem?_map, getElem?_map, getElem?_range hj, getElem?_range (by omega), map_some,
    map_some, hturn _ hj, hturn j (by omega), Nat.add_mod_right]

theorem currentOf_congr (h : s'.shared.memory.pointer = s.shared.memory.pointer) :
    currentOf list s' = currentOf list s := by
  simp only [pointer, Prod.mk.injEq] at h
  obtain ⟨hsteer, hpreferred, hidx⟩ := h
  by_cases hlist : list = []
  · subst hlist
    rfl
  · rw [currentOf_eq hlist, currentOf_eq hlist, hsteer, hpreferred, hidx]

theorem next_keeps_current {spread : Bool} {a : Act Call Unit Empty} (h : Reach (calls list) Any (fresh spread) s)
    (ha : OfNext s a) (hstep : calls list s a = some s') : currentOf list s' = currentOf list s := by
  refine currentOf_congr ?_
  rcases ha with rfl | ⟨i, p, rfl, hp⟩
  · cases hstep
    rw [Shared.note_memory]
  · obtain ⟨c, o, k, hi, rfl⟩ := interleaved.move_cases hstep
    rw [Shared.note_memory]
    have hc : c ≠ .rotate := by
      rintro rfl
      rw [hi] at hp
      cases hp
    exact thread_idle h hi hc _

end

theorem call_returns (hlist : list ≠ []) (s : Calls) (c : Call) :
    ∃ n s', run (calls list) s (.enter c :: replicate n (.move s.threads.length ())) = some s' ∧
      s'.shared.returns = s.shared.returns ++ [(c, ((method list c).run Cells.exec s.shared.memory).2)] := by
  have hrunning := method_running hlist c
  let s₁ : Calls := ⟨s.shared, s.threads ++ [(c, method list c)]⟩
  have henter : calls list s (.enter c) = some s₁ := by
    simp [calls, Program.step, interleaved, Shared.note_of_running hrunning, s₁]
  have hthread : s₁.threads[s.threads.length]? = some (c, method list c) := by simp [s₁]
  obtain ⟨n, s', hrun, hret⟩ := interleaved.returns_alone hthread hrunning
  refine ⟨n, s', ?_, hret⟩
  rw [run, henter]
  exact hrun

/-- The list has each address once, and calls of `Rotate`, or of `Next` with spread on, go through it in order. -/
theorem endpoints_in_turn (primary : Str) (fallbacks : List Str) (list : List Str) :
    newEndpoints primary fallbacks = list → list ≠ [] →
    (list = (addresses primary fallbacks).eraseDups ∧ list.Nodup) ∧
    (∀ spread s, Reach (calls list) InTurn (fresh spread) s → s.threads.length < 2 ^ 63 →
      Cycles list (currentOf list (fresh spread) :: results .rotate s.shared.returns)) ∧
    (∀ s, Reach (calls list) Any (fresh true) s → s.threads.length < 2 ^ 63 →
      Rounds list (results .next s.shared.returns)) ∧
    (∀ spread s s' a, Reach (calls list) Any (fresh spread) s → OfNext s a → calls list s a = some s' →
      currentOf list s' = currentOf list s) ∧
    -- every call can be made and returns, and so does every call that others have interrupted
    (∀ s c, ∃ n s' r, run (calls list) s (.enter c :: replicate n (.move s.threads.length ())) = some s' ∧
      s'.shared.returns = s.shared.returns ++ [(c, r)]) ∧
    ∀ s i c p, s.threads[i]? = some (c, p) → p.returned = false →
      ∃ n s' r, run (calls list) s (replicate n (.move i ())) = some s' ∧
        s'.shared.returns = s.shared.returns ++ [(c, r)] := by
  rintro rfl hlist
  refine ⟨⟨newEndpoints_eq primary fallbacks, newEndpoints_nodup primary fallbacks⟩, ?_, ?_, ?_, ?_, ?_⟩
  · exact fun _ _ h hcalls => rotate_cycles hlist h hcalls
  · exact fun _ h hcalls => next_rounds hlist h hcalls
  · exact fun _ _ _ _ h ha hstep => next_keeps_current h ha hstep
  · intro s c
    obtain ⟨n, s', hrun, hret⟩ := call_returns hlist s c
    exact ⟨n, s', _, hrun, hret⟩
  · intro s i c p hi hp
    obtain ⟨n, s', hrun, hret⟩ := interleaved.returns_alone hi hp
    exact ⟨n, s', _, hrun, hret⟩

instance (s : Calls) (a : Act Call Unit Empty) : Decidable (InTurn s a) :=
  match a with
  | .enter .rotate => decidable_of_iff (∀ t ∈ s.threads, t.1 = .rotate → t.2.returned = true) (by
      simp only [InTurn, true_implies, Prod.forall]
      exact ⟨fun h i p hi => h _ _ (mem_of_getElem? hi) rfl, fun h c p hmem hc => by
        obtain ⟨i, hi⟩ := mem_iff_getElem?.mp hmem
        exact h i p (hc ▸ hi)⟩)
  | .enter .current | .enter .next | .move _ _ => isTrue fun h => nomatch h

/-- Two calls of `Next` that overlap and one after them. -/
def overlapping : List (Act Call Unit Empty) :=
  [.enter .next, .enter .next] ++ [0, 1, 1, 0, 1, 0].map (.move · ()) ++ .enter .next :: [2, 2, 2].map (.move · ())

/-- `Rotate` twice, with a call of `Next` under way. -/
def rotating : List (Act Call Unit Empty) :=
  [.enter .rotate, .enter .next] ++ [0, 1, 0, 0, 0, 1].map (.move · ()) ++
    .enter .rotate :: [2, 2, 2, 1, 2].map (.move · ())

theorem two_endpoints_in_turn :
    newEndpoints (lit "a:1") [lit " b:2 ", lit "", lit "a:1"] = [lit "a:1", lit "b:2"] ∧
    (∃ s, Reach (calls [lit "a:1", lit "b:2"]) Any (fresh true) s ∧
      (s.threads.length < 2 ^ 63 ∧ results .next s.shared.returns = [lit "a:1", lit "b:2", lit "a:1"].map some) ∧
      Rounds [lit "a:1", lit "b:2"] (results .next s.shared.returns)) ∧
    ∃ s, Reach (calls [lit "a:1", lit "b:2"]) InTurn (fresh true) s ∧
      (s.threads.length < 2 ^ 63 ∧ results .rotate s.shared.returns = [lit "b:2", lit "a:1"].map some) ∧
      Cycles [lit "a:1", lit "b:2"]
        (currentOf [lit "a:1", lit "b:2"] (fresh true) :: results .rotate s.shared.returns) := by
  have h : newEndpoints (lit "a:1") [lit " b:2 ", lit "", lit "a:1"] = [lit "a:1", lit "b:2"] := by decide +kernel
  have hall := endpoints_in_turn _ _ _ h (by decide)
  obtain ⟨s, hs, hnext⟩ : ∃ s, Reach (calls [lit "a:1", lit "b:2"]) Any (fresh true) s ∧
      (s.threads.length < 2 ^ 63 ∧ results .next s.shared.returns = [lit "a:1", lit "b:2", lit "a:1"].map some) :=
    exists_reach overlapping (by decide +kernel)
  obtain ⟨t, ht, hrotate⟩ : ∃ s, Reach (calls [lit "a:1", lit "b:2"]) InTurn (fresh true) s ∧
      (s.threads.length < 2 ^ 63 ∧ results .rotate s.shared.returns = [lit "b:2", lit "a:1"].map some) :=
    exists_reach rotating (by decide +kernel)
  exact ⟨h, ⟨s, hs, hnext, hall.2.2.1 s hs hnext.1⟩, t, ht, hrotate, hall.2.1 true t ht hrotate.1⟩

end ArangeTun.Steering
