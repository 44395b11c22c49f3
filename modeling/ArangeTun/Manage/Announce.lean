import ArangeTun.Go.Str
import ArangeTun.Transition.Threads

/-!
# The announcement of a release

`refreshUpdateCheck` and `MarkUpdateNotified` of internal/manage/updatecheck.go, called by three processes over one
file, and `releaseMessages` of internal/telegram/alerts.go.
-/

namespace ArangeTun.Manage.Announce

open Go Transition

structure UpdateState where
  tag : Str
  checked : Nat
  notified : Str
  deriving DecidableEq

inductive Process
  | cli | panel | monitor
  deriving DecidableEq

/-- Where `releaseMessages` stands, with the tag it was told and, inside `MarkUpdateNotified`, what that has read. -/
inductive Releasing
  | idle
  | available (tag : Str)
  | needsNotifying (tag : Str)
  | marking (tag : Str) (loaded : UpdateState)
  deriving DecidableEq

inductive Refresh
  | asked (p : Process) (tag : Str)
  | saving (p : Process) (tag : Str) (now : Nat) (loaded : UpdateState)
  | returned
  deriving DecidableEq

/-- `announced` is what was announced since the newest release is the newest. -/
structure Shared where
  file : UpdateState
  locked : List Process
  releasing : Releasing
  newest : Str
  announced : List Str
  deriving DecidableEq

structure Outcome where
  now : Nat
  saved : Bool

inductive Env
  | release (tag : Str)
  | releaseMessages (x : Outcome)

def Shared.releaseMessages (newer : Str → Bool) (st : Shared) (x : Outcome) : Option Shared :=
  match st.releasing with
  | .idle => if .monitor ∉ st.locked then
      some (if st.file.tag ≠ [] ∧ newer st.file.tag then { st with releasing := .available st.file.tag } else st)
    else none
  | .available tag => if .monitor ∉ st.locked then
      some { st with releasing := if st.file.notified = tag then .idle else .needsNotifying tag }
    else none
  | .needsNotifying tag => if .monitor ∉ st.locked then
      some { st with locked := .monitor :: st.locked, releasing := .marking tag st.file }
    else none
  | .marking tag loaded => some { st with
      file := if x.saved then { loaded with notified := tag } else st.file
      locked := st.locked.erase .monitor, releasing := .idle, announced := st.announced ++ [tag] }

def checks (newer : Str → Bool) : Program Shared Refresh Process Outcome Env where
  -- The answer of `latestTag` is the newest release; without one the call returns.
  enter st _ p := some (st, if st.newest = [] then .returned else .asked p st.newest)
  move st _ pc x :=
    match pc with
    | .asked p tag => if p ∉ st.locked then
        some ({ st with locked := p :: st.locked }, .saving p tag x.now st.file)
      else none
    | .saving p tag now loaded => some ({ st with
        file := if x.saved then { loaded with tag, checked := now } else st.file
        locked := st.locked.erase p }, .returned)
    | .returned => none
  env st
    | .release tag => some { st with newest := tag, announced := if tag = st.newest then st.announced else [] }
    | .releaseMessages x => st.releaseMessages newer x

/-- A save finds the file as it was read, and what is marked as announced is the newest release. -/
def Ordered (s : Threads Shared Refresh) : Act Process Outcome Env → Prop
  | .move i _ => match s.threads[i]? with
    | some (.saving _ tag _ loaded) => loaded = s.shared.file ∧ tag = s.shared.newest
    | _ => True
  | .env (.releaseMessages x) => match s.shared.releasing with
    | .marking tag loaded => loaded = s.shared.file ∧ x.saved ∧ (tag = s.shared.newest → loaded.tag = tag)
    | _ => True
  | _ => True

instance (s : Threads Shared Refresh) (a : Act Process Outcome Env) : Decidable (Ordered s a) := by
  unfold Ordered
  repeat' split
  all_goals infer_instance

structure Once (st : Shared) : Prop where
  count : st.announced.count st.newest ≤ 1
  marked : st.newest ∈ st.announced → st.file.tag = st.newest ∧ st.file.notified = st.newest ∧
    (st.releasing = .idle ∨ st.releasing = .available st.newest)

variable {newer : Str → Bool} {st st' : Shared}

theorem Once.releaseMessages {x : Outcome} (h : Once st) (hstep : st.releaseMessages newer x = some st')
    (hmark : ∀ tag loaded, st.releasing = .marking tag loaded →
      loaded = st.file ∧ x.saved ∧ (tag = st.newest → loaded.tag = tag)) : Once st' := by
  unfold Shared.releaseMessages at hstep
  cases hr : st.releasing with
  | idle =>
    rw [hr] at hstep
    obtain ⟨-, rfl⟩ := enabled hstep
    split
    · refine ⟨h.count, fun hm => ⟨(h.marked hm).1, (h.marked hm).2.1, .inr ?_⟩⟩
      exact congrArg Releasing.available (h.marked hm).1
    · exact h
  | available tag =>
    rw [hr] at hstep
    obtain ⟨-, rfl⟩ := enabled hstep
    refine ⟨h.count, fun hm => ⟨(h.marked hm).1, (h.marked hm).2.1, .inl (if_pos ?_)⟩⟩
    -- What the loop has read is the newest release, which is marked.
    obtain ⟨-, hnotified, hidle | htag⟩ := h.marked hm
    · exact absurd (hr.symm.trans hidle) nofun
    · rw [hnotified, Releasing.available.inj (hr.symm.trans htag)]
  | needsNotifying tag =>
    rw [hr] at hstep
    obtain ⟨-, rfl⟩ := enabled hstep
    refine ⟨h.count, fun hm => ?_⟩
    obtain ⟨-, -, hidle | htag⟩ := h.marked hm
    · exact absurd (hr.symm.trans hidle) nofun
    · exact absurd (hr.symm.trans htag) nofun
  | marking tag loaded =>
    rw [hr] at hstep
    cases hstep
    obtain ⟨rfl, hsaved, htag⟩ := hmark tag loaded hr
    have hnew : st.newest ∉ st.announced := by
      intro hm
      obtain ⟨-, -, hidle | havailable⟩ := h.marked hm
      · exact absurd (hr.symm.trans hidle) nofun
      · exact absurd (hr.symm.trans havailable) nofun
    refine ⟨?_, fun hm => ?_⟩
    · dsimp only
      rw [List.count_append, List.count_eq_zero_of_not_mem hnew, Nat.zero_add]
      exact List.count_le_length
    · have heq : st.newest = tag := by simpa [hnew] using hm
      dsimp only
      rw [if_pos hsaved]
      exact ⟨(htag heq.symm).trans heq.symm, heq.symm, .inl rfl⟩

/-- While a release is the newest, it is announced at most once. -/
theorem announced_once {file : UpdateState} {newest : Str} {s : Threads Shared Refresh}
    (h : Reach (checks newer).step Ordered ⟨⟨file, [], .idle, newest, []⟩, []⟩ s) :
    s.shared.announced.count s.shared.newest ≤ 1 := by
  refine (Program.invariant (J := Once) (I := fun _ _ _ => True) h
    ⟨⟨Nat.zero_le _, nofun⟩, fun _ _ _ => trivial⟩ ?_ ?_ ?_).shared.count
  · intro s p st pc hs _ henter
    cases henter
    exact ⟨hs.shared, trivial, fun _ _ _ _ => trivial⟩
  · intro s i pc x st pc' hs hordered hi _ hmove
    refine ⟨?_, trivial, fun _ _ _ _ _ => trivial⟩
    cases pc with
    | asked p tag =>
      obtain ⟨-, hst⟩ := enabled hmove
      cases hst
      exact ⟨hs.shared.count, hs.shared.marked⟩
    | saving p tag now loaded =>
      cases hmove
      simp only [Ordered, hi] at hordered
      obtain ⟨rfl, rfl⟩ := hordered
      refine ⟨hs.shared.count, fun hm => ?_⟩
      obtain ⟨htag, hnotified, hreleasing⟩ := hs.shared.marked hm
      dsimp only
      split
      · exact ⟨rfl, hnotified, hreleasing⟩
      · exact ⟨htag, hnotified, hreleasing⟩
    | returned => cases hmove
  · intro s e st hs hordered henv
    refine ⟨?_, fun _ _ _ _ => trivial⟩
    cases e with
    | release tag =>
      cases henv
      by_cases heq : tag = s.shared.newest
      · subst heq
        rw [if_pos rfl]
        exact hs.shared
      · rw [if_neg heq]
        exact ⟨Nat.zero_le _, nofun⟩
    | releaseMessages x =>
      refine hs.shared.releaseMessages henv fun tag loaded hr => ?_
      simpa only [Ordered, hr] using hordered

def found : Threads Shared Refresh := ⟨⟨⟨lit "v2", 0, []⟩, [], .idle, lit "v2", []⟩, []⟩

def announce : Act Process Outcome Env := .env (.releaseMessages ⟨0, true⟩)

theorem announced_beside_refresh : ∃ s, Reach (checks fun _ => true).step Ordered found s ∧
    s.shared.announced = [lit "v2"] ∧ s.shared.announced.count s.shared.newest ≤ 1 := by
  obtain ⟨s, hs, ha⟩ : ∃ s, Reach (checks fun _ => true).step Ordered found s ∧ s.shared.announced = [lit "v2"] :=
    exists_reach (List.replicate 4 announce ++ [.enter .cli, .move 0 ⟨9, true⟩, .move 0 ⟨9, true⟩, announce, announce])
      (by decide +kernel)
  exact ⟨s, hs, ha, announced_once hs⟩

/-- The command line has read the file before the mark, and writes it after that. -/
theorem announced_twice : ∃ s, Reach (checks fun _ => true).step Any found s ∧
    (s.shared.newest = lit "v2" ∧ s.shared.announced = [lit "v2", lit "v2"]) :=
  exists_reach ([.enter .cli, .move 0 ⟨9, true⟩] ++ List.replicate 4 announce ++ [.move 0 ⟨9, true⟩] ++
    List.replicate 4 announce) (by decide +kernel)

end ArangeTun.Manage.Announce
