import ArangeTun.Go.Lemmas.Decimal
import ArangeTun.Go.Lemmas.Split
import ArangeTun.Transition.Run

/-!
# The firewall rules of the pck carriers

`installPckGuard` and `remove` of internal/utils/network/pckguard_linux.go, with `pckRules` of pckport.go, where
iptables does what it is told.
-/

namespace ArangeTun.Pck

open Go Transition List

abbrev Rule := List Str

structure Range where
  lo : UInt16
  hi : UInt16
  deriving DecidableEq

def portSpec (r : Range) : Str :=
  if r.lo = r.hi then itoa r.lo.toNat else itoa r.lo.toNat ++ byte ':' :: itoa r.hi.toNat

def pckRules (r : Range) : List Rule :=
  let p := portSpec r
  let tag := [lit "-m", lit "comment", lit "--comment", lit "arange-tun-pck-" ++ p]
  [[lit "filter", lit "OUTPUT", lit "-p", lit "tcp", lit "--sport", p, lit "--tcp-flags", lit "RST", lit "RST",
      lit "-j", lit "DROP"] ++ tag,
    [lit "raw", lit "PREROUTING", lit "-p", lit "tcp", lit "--dport", p, lit "-j", lit "NOTRACK"] ++ tag,
    [lit "raw", lit "OUTPUT", lit "-p", lit "tcp", lit "--sport", p, lit "-j", lit "NOTRACK"] ++ tag]

structure SharedGuard where
  added : List Rule
  ref : Nat
  deriving DecidableEq

/-- `live` counts the guards that were not removed, and `used` has the ranges that were installed. -/
structure Guards where
  guardShared : Range → Option SharedGuard
  table : List Rule
  live : Range → Nat
  used : List Range

def sweepPckRule : Nat → Rule → List Rule → List Rule
  | 0, _, table => table
  | n + 1, rule, table => if rule ∈ table then sweepPckRule n rule (table.erase rule) else table

def insertRule (table : List Rule) (rule : Rule) : List Rule := rule :: sweepPckRule 1024 rule table

inductive GuardCall
  | installPckGuard (r : Range)
  | remove (r : Range)
  deriving DecidableEq

def Guards.install (g : Guards) (r : Range) : Guards :=
  match g.guardShared r with
  | some sh => { g with guardShared := Function.update g.guardShared r (some { sh with ref := sh.ref + 1 }) }
  | none => { g with
      guardShared := Function.update g.guardShared r (some ⟨pckRules r, 1⟩)
      table := (pckRules r).foldl insertRule g.table }

def Guards.remove (g : Guards) (r : Range) : Guards :=
  match g.guardShared r with
  | none => g
  | some sh =>
    if sh.ref - 1 > 0 then
      { g with guardShared := Function.update g.guardShared r (some { sh with ref := sh.ref - 1 }) }
    else { g with guardShared := Function.update g.guardShared r none, table := sh.added.foldl List.erase g.table }

def Guards.step (g : Guards) : GuardCall → Option Guards
  | .installPckGuard r =>
    some { g.install r with live := Function.update g.live r (g.live r + 1), used := r :: g.used }
  | .remove r => if 0 < g.live r then
      some { g.remove r with live := Function.update g.live r (g.live r - 1) } else none

/-! ## The rules of a range -/

theorem colon_not_mem (n : Int) : byte ':' ∉ itoa n := fun h => absurd (itoa_mem h) (by decide +kernel)

theorem portSpec_inj {r r' : Range} (h : portSpec r = portSpec r') : r = r' := by
  obtain ⟨lo, hi⟩ := r
  obtain ⟨lo', hi'⟩ := r'
  have hnat : ∀ {a b : UInt16}, itoa a.toNat = itoa b.toNat → a = b :=
    fun h => UInt16.toNat_inj.mp (Int.ofNat_inj.mp (itoa_inj h))
  unfold portSpec at h
  dsimp only at h
  split at h <;> split at h
  · subst_vars
    rw [hnat h]
  · exact absurd (h ▸ by simp) (colon_not_mem lo.toNat)
  · exact absurd (h ▸ by simp) (colon_not_mem lo'.toNat)
  · have hcut := congrArg (cut · (byte ':')) h
    simp only [cut_append (colon_not_mem _), Prod.mk.injEq, and_true] at hcut
    rw [hnat hcut.1, hnat hcut.2]

theorem pckRules_nodup (r : Range) : (pckRules r).Nodup := by
  have htable : lit "filter" ≠ lit "raw" := by decide +kernel
  have hchain : lit "PREROUTING" ≠ lit "OUTPUT" := by decide +kernel
  simp [pckRules, htable, hchain]

theorem eq_of_mem_pckRules {r r' : Range} {rule : Rule} (h : rule ∈ pckRules r) (h' : rule ∈ pckRules r') : r = r' := by
  have hlast : ∀ {q : Range}, rule ∈ pckRules q → rule.getLast? = some (lit "arange-tun-pck-" ++ portSpec q) := by
    intro q hq
    simp only [pckRules, mem_cons, not_mem_nil, or_false] at hq
    obtain rfl | rfl | rfl := hq <;> rfl
  exact portSpec_inj (append_cancel_left (Option.some.inj ((hlast h).symm.trans (hlast h'))))

theorem count_sweepPckRule (n : Nat) (rule : Rule) (table : List Rule) :
    (sweepPckRule n rule table).count rule = table.count rule - n := by
  induction n generalizing table with
  | zero => rfl
  | succ n ih =>
    unfold sweepPckRule
    split
    · rw [ih, count_erase_self, Nat.sub_sub, Nat.add_comm]
    next h => rw [count_eq_zero_of_not_mem h, Nat.zero_sub]

theorem count_sweepPckRule_of_ne (n : Nat) {rule rule' : Rule} (hne : rule' ≠ rule) (table : List Rule) :
    (sweepPckRule n rule table).count rule' = table.count rule' := by
  induction n generalizing table with
  | zero => rfl
  | succ n ih =>
    unfold sweepPckRule
    split
    · rw [ih, count_erase_of_ne hne]
    · rfl

theorem count_insertRule {rule rule' : Rule} (table : List Rule) : (insertRule table rule).count rule' =
    if rule' = rule then table.count rule' - 1024 + 1 else table.count rule' := by
  unfold insertRule
  split
  next h => rw [h, count_cons_self, count_sweepPckRule]
  next h => rw [count_cons_of_ne (Ne.symm h), count_sweepPckRule_of_ne _ h]

theorem count_install {rules : List Rule} (hnodup : rules.Nodup) (rule : Rule) (table : List Rule) :
    (rules.foldl insertRule table).count rule =
      if rule ∈ rules then table.count rule - 1024 + 1 else table.count rule := by
  induction rules generalizing table with
  | nil => rfl
  | cons x rules ih =>
    obtain ⟨hx, hnodup⟩ := nodup_cons.mp hnodup
    rw [foldl_cons, ih hnodup, count_insertRule]
    by_cases heq : rule = x
    · subst heq
      simp [hx]
    · simp [heq]

theorem count_remove {rules : List Rule} (hnodup : rules.Nodup) (rule : Rule) (table : List Rule) :
    (rules.foldl List.erase table).count rule = table.count rule - if rule ∈ rules then 1 else 0 := by
  induction rules generalizing table with
  | nil => rfl
  | cons x rules ih =>
    obtain ⟨hx, hnodup⟩ := nodup_cons.mp hnodup
    rw [foldl_cons, ih hnodup, count_erase]
    by_cases heq : rule = x
    · subst heq
      simp [hx]
    · simp [heq, Ne.symm heq]

/-! ## The counts -/

structure Counted (table : List Rule) (g : Guards) : Prop where
  shared : ∀ r, g.guardShared r = if g.live r = 0 then none else some ⟨pckRules r, g.live r⟩
  used : ∀ r, 0 < g.live r → r ∈ g.used
  count : ∀ r, ∀ rule ∈ pckRules r, g.table.count rule =
    if 0 < g.live r then 1 else if r ∈ g.used then 0 else table.count rule

variable {table : List Rule} {g : Guards}

/-- A call changes what belongs to its own range. -/
theorem Counted.update {r : Range} {n : Nat} {g' : Guards} (h : Counted table g)
    (hshared : g'.guardShared = Function.update g.guardShared r (if n = 0 then none else some ⟨pckRules r, n⟩))
    (hlive : g'.live = Function.update g.live r n) (hused : ∀ q, q ∈ g'.used ↔ q = r ∨ q ∈ g.used)
    (hothers : ∀ rule ∉ pckRules r, g'.table.count rule = g.table.count rule)
    (hcount : ∀ rule ∈ pckRules r, g'.table.count rule = if 0 < n then 1 else 0) : Counted table g' := by
  have hother : ∀ {q}, q ≠ r → g'.guardShared q = g.guardShared q ∧ g'.live q = g.live q := by
    intro q hne
    rw [hshared, hlive, Function.update_of_ne hne, Function.update_of_ne hne]
    exact ⟨rfl, rfl⟩
  have hself : g'.guardShared r = (if n = 0 then none else some ⟨pckRules r, n⟩) ∧ g'.live r = n := by
    rw [hshared, hlive, Function.update_self, Function.update_self]
    exact ⟨rfl, rfl⟩
  refine ⟨fun q => ?_, fun q hq => ?_, fun q rule hrule => ?_⟩ <;> by_cases heq : q = r
  · rw [heq, hself.1, hself.2]
  · rw [(hother heq).1, (hother heq).2, h.shared q]
  · exact (hused q).mpr (.inl heq)
  · exact (hused q).mpr (.inr (h.used q ((hother heq).2 ▸ hq)))
  · subst heq
    rw [hcount rule hrule, hself.2, if_pos ((hused q).mpr (.inl rfl))]
  · rw [hothers rule fun hmem => heq (eq_of_mem_pckRules hrule hmem), h.count q rule hrule, (hother heq).2]
    simp only [hused q, heq, false_or]

theorem Counted.install (h : Counted table g) (hstale : ∀ r, ∀ rule ∈ pckRules r, table.count rule ≤ 1024) (r : Range) :
    Counted table { g.install r with live := Function.update g.live r (g.live r + 1), used := r :: g.used } := by
  have hused : ∀ q, q ∈ r :: g.used ↔ q = r ∨ q ∈ g.used := fun q => mem_cons
  have hcount := h.count r
  have hshared := h.shared r
  unfold Guards.install
  by_cases hlive : g.live r = 0
  · rw [hshared, if_pos hlive]
    refine h.update (by rw [hlive]; rfl) rfl hused (fun rule hrule => ?_) fun rule hrule => ?_
    · exact (count_install (pckRules_nodup r) rule g.table).trans (if_neg hrule)
    · have hle := hstale r rule hrule
      have hbefore := hcount rule hrule
      rw [if_pos (Nat.succ_pos _)]
      refine (count_install (pckRules_nodup r) rule g.table).trans ?_
      rw [if_pos hrule]
      rw [if_neg (by omega)] at hbefore
      split at hbefore <;> omega
  · rw [hshared, if_neg hlive]
    refine h.update (by rw [if_neg (Nat.succ_ne_zero _)]) rfl hused (fun _ _ => rfl) fun rule hrule => ?_
    rw [if_pos (Nat.succ_pos _)]
    exact (hcount rule hrule).trans (if_pos (Nat.pos_of_ne_zero hlive))

theorem Counted.remove {r : Range} (h : Counted table g) (hlive : 0 < g.live r) :
    Counted table { g.remove r with live := Function.update g.live r (g.live r - 1) } := by
  have hcount : ∀ rule ∈ pckRules r, g.table.count rule = 1 := fun rule hrule => (h.count r rule hrule).trans (if_pos hlive)
  have hshared := h.shared r
  rw [if_neg hlive.ne'] at hshared
  unfold Guards.remove
  rw [hshared]
  by_cases hmore : g.live r - 1 > 0
  · simp only [hmore, if_true]
    refine h.update (by rw [if_neg hmore.ne']) rfl (by simp [h.used r hlive]) (fun _ _ => rfl) fun rule hrule => ?_
    rw [if_pos hmore]
    exact hcount rule hrule
  · simp only [hmore, if_false]
    have hzero : g.live r - 1 = 0 := by omega
    refine h.update (by rw [if_pos hzero]) rfl (by simp [h.used r hlive]) (fun rule hrule => ?_) fun rule hrule => ?_
    · exact (count_remove (pckRules_nodup r) rule g.table).trans (by rw [if_neg hrule, Nat.sub_zero])
    · refine (count_remove (pckRules_nodup r) rule g.table).trans ?_
      rw [if_pos hrule, hcount rule hrule, if_neg hmore]

/-- Whatever an earlier process has left in the table, up to the cap: the rules of a range are there once while a guard of
it is live, and are gone after the last one. -/
theorem rules_counted (hstale : ∀ r, ∀ rule ∈ pckRules r, table.count rule ≤ 1024)
    (h : Reach Guards.step Any ⟨fun _ => none, table, fun _ => 0, []⟩ g) (r : Range) :
    ∀ rule ∈ pckRules r, g.table.count rule =
      if 0 < g.live r then 1 else if r ∈ g.used then 0 else table.count rule := by
  refine (h.invariant (I := Counted table) ⟨fun _ => rfl, nofun, fun _ _ _ => rfl⟩ ?_).count r
  intro g call g' hg _ hstep
  cases call with
  | installPckGuard r =>
    cases hstep
    exact hg.install hstale r
  | remove r =>
    obtain ⟨hlive, rfl⟩ := enabled hstep
    exact hg.remove hlive

def web : Range := ⟨443, 443⟩

/-- A crashed process has left the rules twice, and of two guards one is removed. -/
theorem rules_counted_web : ∃ g, Reach Guards.step Any ⟨fun _ => none, pckRules web ++ pckRules web, fun _ => 0, []⟩ g ∧
    g.live web = 1 ∧ ∀ rule ∈ pckRules web, g.table.count rule = 1 := by
  obtain ⟨g, hg, hlive⟩ : ∃ g, Reach Guards.step Any
      ⟨fun _ => none, pckRules web ++ pckRules web, fun _ => 0, []⟩ g ∧ g.live web = 1 :=
    exists_reach [.installPckGuard web, .installPckGuard web, .remove web] (by decide +kernel)
  refine ⟨g, hg, hlive, ?_⟩
  have hcount := rules_counted (fun r rule _ => count_le_length.trans (by decide)) hg web
  simpa only [hlive, Nat.one_pos, if_true] using hcount

end ArangeTun.Pck
