import ArangeTun.Go.Lemmas.Trim
import ArangeTun.Steering.Model
import ArangeTun.Transition.Atomic
import ArangeTun.Transition.Cursor

/-!
# Endpoints

`NewEndpoints`, `Current`, `Rotate` and `Next` of internal/utils/network/endpoints.go.
-/

namespace ArangeTun.Steering

open Go Transition List

/-! ## The list -/

def add (list : List Str) (a : Str) : List Str :=
  let a := trimSpace a
  -- `seen` holds the addresses of the list
  if a = [] ∨ a ∈ list then list else list ++ [a]

def newEndpoints (primary : Str) (fallbacks : List Str) : List Str := fallbacks.foldl add (add [] primary)

/-! ## The methods -/

structure Cells where
  idx : Int
  spreadIdx : Int
  spread : Bool
  steer : Bool
  preferred : Int
  deriving DecidableEq

inductive Op
  | loadIdx
  | addIdx
  | addSpreadIdx
  | loadSpread
  | loadSteer
  | loadPreferred
  | storePreferred (v : Int)

abbrev Op.Reply : Op → Type
  | loadSpread | loadSteer => Bool
  | storePreferred _ => Unit
  | _ => Int

def Cells.exec (m : Cells) : (o : Op) → Cells × o.Reply
  | .loadIdx => (m, m.idx)
  | .addIdx => let v := (m.idx + 1).bmod (2 ^ 64); ({ m with idx := v }, v)
  | .addSpreadIdx => let v := (m.spreadIdx + 1).bmod (2 ^ 64); ({ m with spreadIdx := v }, v)
  | .loadSpread => (m, m.spread)
  | .loadSteer => (m, m.steer)
  | .loadPreferred => (m, m.preferred)
  | .storePreferred v => ({ m with preferred := v }, ())

/-- What a method returns; `none` where the index is out of range and it panics. -/
abbrev Method := Code Op Op.Reply (Option Str)

def index (list : List Str) (i : Int) : Option Str := if i < 0 then none else list[i.toNat]?

def current (list : List Str) : Method :=
  if list.length = 0 then .ret (some [])
  else .op .loadSteer fun (steer : Bool) =>
    if steer = true then .op .loadPreferred fun (v : Int) => .ret (index list (clampIdx list.length v))
    else .op .loadIdx fun (v : Int) => .ret (index list (v.tmod list.length))

def rotate (list : List Str) : Method :=
  if list.length ≤ 1 then current list
  else .op .loadSteer fun (steer : Bool) =>
    if steer = true then
      .op .loadPreferred fun (v : Int) =>
        .op (.storePreferred (clampIdx list.length ((v + 1).bmod (2 ^ 64)))) fun _ => current list
    else .op .addIdx fun _ => current list

def spreadIndex (len : Nat) (v : Int) : Int :=
  let i := ((v - 1).bmod (2 ^ 64)).tmod len
  if i < 0 then 0 else i

def next (list : List Str) : Method :=
  if list.length = 0 then .ret (some [])
  else .op .loadSteer fun (steer : Bool) =>
    if steer = true then .op .loadPreferred fun (v : Int) => .ret (index list (clampIdx list.length v))
    else .op .loadSpread fun (spread : Bool) =>
      if spread = false ∨ list.length = 1 then current list
      else .op .addSpreadIdx fun (v : Int) => .ret (index list (spreadIndex list.length v))

inductive Call
  | current
  | rotate
  | next
  deriving DecidableEq

def method (list : List Str) : Call → Method
  | .current => current list
  | .rotate => rotate list
  | .next => next list

abbrev Calls := Threads (Shared Cells Call (Option Str)) (Call × Method)

def calls (list : List Str) : Calls → Act Call Unit Empty → Option Calls :=
  (interleaved Cells.exec (method list)).step

def fresh (spread : Bool) : Calls := ⟨⟨⟨0, 0, spread, false, 0⟩, []⟩, []⟩

def results (c : Call) (returns : List (Call × Option Str)) : List (Option Str) :=
  returns.filterMap fun r => if r.1 = c then some r.2 else none

def Rounds (list : List Str) (xs : List (Option Str)) : Prop :=
  ∀ k, k + list.length ≤ xs.length → ((xs.drop k).take list.length).Perm (list.map some)

/-- Any `n` in a row are the `n` endpoints, and the one after them is the first of them again. -/
def Cycles (list : List Str) (visited : List (Option Str)) : Prop :=
  Rounds list visited ∧ ∀ k, k + list.length < visited.length → visited[k + list.length]? = visited[k]?

def currentOf (list : List Str) (s : Calls) : Option Str := ((current list).run Cells.exec s.shared.memory).2

def OfNext (s : Calls) (a : Act Call Unit Empty) : Prop :=
  a = .enter .next ∨ ∃ (i : Nat) (p : Method), a = .move i () ∧ s.threads[i]? = some (Call.next, p)

def InTurn (s : Calls) (a : Act Call Unit Empty) : Prop :=
  a = .enter .rotate → ∀ (i : Nat) (p : Method), s.threads[i]? = some (Call.rotate, p) → p.returned = true

/-! ## The list has each address once -/

def addresses (primary : Str) (fallbacks : List Str) : List Str :=
  ((primary :: fallbacks).map trimSpace).filter (· ≠ [])

theorem add_eraseDups (l : List Str) (a : Str) :
    add l.eraseDups a = (l ++ [trimSpace a].filter (· ≠ [])).eraseDups := by
  rw [eraseDups_append, add]
  by_cases hempty : trimSpace a = []
  · simp [hempty]
  · by_cases hmem : trimSpace a ∈ l
    · simp [hempty, hmem, List.removeAll]
    · simp [hempty, hmem, List.removeAll, eraseDups_cons]

theorem foldl_add (l : List Str) (fallbacks : List Str) :
    fallbacks.foldl add l.eraseDups = (l ++ (fallbacks.map trimSpace).filter (· ≠ [])).eraseDups := by
  induction fallbacks generalizing l with
  | nil => simp
  | cons a fallbacks ih =>
    rw [foldl_cons, add_eraseDups, ih, append_assoc, ← filter_append]
    rfl

theorem newEndpoints_eq (primary : Str) (fallbacks : List Str) :
    newEndpoints primary fallbacks = (addresses primary fallbacks).eraseDups := by
  have hfirst := add_eraseDups [] primary
  rw [eraseDups_nil, nil_append] at hfirst
  rw [newEndpoints, hfirst, foldl_add, ← filter_append]
  rfl

theorem add_nodup {list : List Str} (h : list.Nodup) (a : Str) : (add list a).Nodup := by
  simp only [add]
  split
  · exact h
  · rename_i hnew
    exact nodup_append.mpr ⟨h, nodup_singleton _, fun b hb c hc hbc =>
      hnew (.inr (mem_singleton.mp hc ▸ hbc ▸ hb))⟩

theorem newEndpoints_nodup (primary : Str) (fallbacks : List Str) : (newEndpoints primary fallbacks).Nodup := by
  suffices h : ∀ list : List Str, list.Nodup → (fallbacks.foldl add list).Nodup from h _ (add_nodup nodup_nil _)
  induction fallbacks with
  | nil => exact fun _ h => h
  | cons a fallbacks ih => exact fun list h => ih _ (add_nodup h a)

/-! ## Counters -/

def count (k : Nat) : Int := (k : Int).bmod (2 ^ 64)

theorem count_succ (k : Nat) : (count k + 1).bmod (2 ^ 64) = count (k + 1) := Int.bmod_add_bmod

theorem count_pred (k : Nat) : (count (k + 1) - 1).bmod (2 ^ 64) = count k := by
  have hpred : ((k + 1 : Nat) : Int) - 1 = k := by omega
  unfold count
  rw [Int.bmod_sub_bmod, hpred]

theorem count_of_lt {k : Nat} (h : k < 2 ^ 63) : count k = k := Int.bmod_eq_of_le (by omega) (by omega)

theorem count_zero : count 0 = 0 := @count_of_lt 0 (by omega)

def turn (list : List Str) (k : Nat) : Option Str := index list ((count k).tmod list.length)

def spreadTurn (list : List Str) (k : Nat) : Option Str := index list (spreadIndex list.length (count (k + 1)))

theorem tmod_count {k : Nat} (h : k < 2 ^ 63) (n : Nat) : (count k).tmod n = (k % n : Nat) := by
  rw [count_of_lt h, Int.ofNat_tmod]

theorem index_nat (list : List Str) (i : Nat) : index list i = list[i]? := if_neg (by omega)

theorem turn_of_lt {k : Nat} (h : k < 2 ^ 63) (list : List Str) : turn list k = list[k % list.length]? := by
  rw [turn, tmod_count h, index_nat]

theorem spreadTurn_of_lt {k : Nat} (h : k < 2 ^ 63) (list : List Str) :
    spreadTurn list k = list[k % list.length]? := by
  rw [spreadTurn, spreadIndex, count_pred, tmod_count h]
  exact (congrArg (index list) (if_neg (by omega))).trans (index_nat list _)

theorem rounds_of_turns {f : Nat → Option Str} {list : List Str} {m : Nat} (hlist : list ≠ [])
    (hf : ∀ k, k < m → f k = list[k % list.length]?) : Rounds list ((List.range m).map f) := by
  have hmap : (List.range m).map f = (List.range m).map fun j => list[j % list.length]? :=
    map_congr_left fun j hj => hf j (mem_range.mp hj)
  intro k hk
  rw [hmap]
  rw [length_map, length_range] at hk
  exact Cursor.turns_perm hlist hk

def Cells.pointer (m : Cells) : Bool × Int × Int := (m.steer, m.preferred, m.idx)

def Op.Idle (o : Op) : Prop := ∀ m : Cells, (m.exec o).1.pointer = m.pointer

theorem current_idle (list : List Str) : (current list).Only Op.Idle := by
  unfold current
  split
  · trivial
  · refine ⟨fun _ => rfl, fun steer => ?_⟩
    cases steer with
    | true => exact ⟨fun _ => rfl, fun _ => trivial⟩
    | false => exact ⟨fun _ => rfl, fun _ => trivial⟩

theorem next_idle (list : List Str) : (next list).Only Op.Idle := by
  unfold next
  split
  · trivial
  · refine ⟨fun _ => rfl, fun steer => ?_⟩
    cases steer with
    | true => exact ⟨fun _ => rfl, fun _ => trivial⟩
    | false =>
      refine ⟨fun _ => rfl, fun spread => ?_⟩
      beta_reduce
      split
      · exact current_idle list
      · exact ⟨fun _ => rfl, fun _ => trivial⟩

end ArangeTun.Steering
