import ArangeTun.Go.Str
import ArangeTun.Transition.Threads

/-!
# The history of the alerts

`Record` and `RecordEvent` of internal/alerthist/alerthist.go, in the goroutines of the monitor.
-/

namespace ArangeTun.AlertHist

open Go Transition List Option

def maxEvents : Nat := 100

structure Event where
  time : Nat
  message : Str
  deriving DecidableEq

structure State where
  updated : Option Nat := none
  active : List Str := []
  events : List Event := []
  deriving DecidableEq

inductive Call
  | record (now : Nat) (msgs active : List Str)
  | recordEvent (now : Nat) (msg : Str)
  deriving DecidableEq

namespace Call

def recorded : Call → List Event
  | record now msgs _ => msgs.map (⟨now, ·⟩)
  | recordEvent now msg => [⟨now, msg⟩]

def time : Call → Nat
  | record now .. | recordEvent now .. => now

def newActive (active : List Str) : Call → List Str
  | record _ _ active => active
  | recordEvent .. => active

end Call

def newest (events : List Event) : List Event :=
  if maxEvents < events.length then events.drop (events.length - maxEvents) else events

def State.write (st : State) (call : Call) : State :=
  ⟨some call.time, call.newActive st.active, newest (st.events ++ call.recorded)⟩

def State.stores (st : State) : Call → Bool
  | .record _ msgs active => !(msgs.isEmpty && active == st.active && st.updated.isSome)
  | .recordEvent .. => true

/-- The file, and beside it the messages in the order of the writes and what the last `Record` stored. -/
structure Store where
  file : State
  messages : List Event
  active : List Str
  deriving DecidableEq

structure Writing where
  call : Call
  loaded : State
  deriving DecidableEq

def monitor : Program Store (Option Writing) Call Unit Unit where
  enter st _ call := some (st, if st.file.stores call then some ⟨call, st.file⟩ else none)
  move st _ pc _ := pc.map fun w =>
    (⟨w.loaded.write w.call, st.messages ++ w.call.recorded, w.call.newActive st.active⟩, none)
  env _ _ := none

def Unraced (s : Threads Store (Option Writing)) : Act Call Unit Unit → Prop
  | .move i _ => ∀ w ∈ (s.threads[i]?).join, w.loaded = s.shared.file
  | _ => True

instance (s : Threads Store (Option Writing)) (a : Act Call Unit Unit) : Decidable (Unraced s a) := by
  unfold Unraced
  split
  · exact inferInstanceAs (Decidable (∀ w, _ = some w → _))
  · infer_instance

theorem newest_eq_drop (l : List Event) : newest l = l.drop (l.length - maxEvents) := by
  unfold newest
  split
  · rfl
  next h => rw [Nat.sub_eq_zero_of_le (Nat.not_lt.mp h), drop_zero]

theorem newest_suffix (l : List Event) : newest l <:+ l := by
  rw [newest_eq_drop]
  exact drop_suffix ..

theorem newest_suffix_newest (l m : List Event) : newest m <:+ newest (l ++ m) := by
  refine suffix_of_suffix_length_le ((newest_suffix m).trans (suffix_append l m)) (newest_suffix _) ?_
  simp only [newest_eq_drop, length_drop, length_append]
  omega

theorem newest_newest_append (l m : List Event) : newest (newest l ++ m) = newest (l ++ m) := by
  have hsplit : newest l ++ m = (l ++ m).drop (l.length - maxEvents) := by
    rw [newest_eq_drop, drop_append_of_le_length (Nat.sub_le ..)]
  rw [hsplit, newest_eq_drop, newest_eq_drop, drop_drop, length_drop, length_append]
  generalize maxEvents = k
  congr 1
  omega

theorem newest_newest (l : List Event) : newest (newest l) = newest l := by
  simpa only [append_nil] using newest_newest_append l []

/-- The file ends in the newest of the messages written, and has the conditions that the last `Record` stored. -/
theorem history_complete {file : State} {s : Threads Store (Option Writing)}
    (h : Reach monitor.step Unraced ⟨⟨file, [], file.active⟩, []⟩ s) :
    newest s.shared.messages <:+ s.shared.file.events ∧ s.shared.file.active = s.shared.active := by
  have hholds := Program.invariant (I := fun _ _ _ => True)
    (J := fun st : Store => newest st.file.events = newest (file.events ++ st.messages) ∧ st.file.active = st.active)
    h ⟨⟨by rw [append_nil], rfl⟩, fun _ _ _ => trivial⟩ ?_ ?_ nofun
  · refine ⟨(newest_suffix_newest file.events _).trans ?_, hholds.shared.2⟩
    rw [← hholds.shared.1]
    exact newest_suffix _
  · intro s call st pc hs _ henter
    obtain ⟨rfl, rfl⟩ := Prod.mk.inj (Option.some.inj henter)
    exact ⟨hs.shared, trivial, fun _ _ _ _ => trivial⟩
  · intro s i pc _ st pc' hs hraced hi _ hmove
    obtain ⟨w, rfl, hst⟩ := map_eq_some_iff.mp hmove
    obtain ⟨rfl, rfl⟩ := Prod.mk.inj hst
    have hloaded : w.loaded = s.shared.file := hraced w (by rw [hi]; rfl)
    refine ⟨⟨?_, ?_⟩, trivial, fun _ _ _ _ _ => trivial⟩
    · calc newest (newest (w.loaded.events ++ w.call.recorded))
          = newest (newest s.shared.file.events ++ w.call.recorded) := by
            rw [hloaded, newest_newest, newest_newest_append]
        _ = newest (file.events ++ (s.shared.messages ++ w.call.recorded)) := by
            rw [hs.shared.1, newest_newest_append, append_assoc]
    · simp only [State.write, hloaded, hs.shared.2]

def restarted : Call := .recordEvent 1 (lit "restarted")

def diskFull : Call := .record 2 [lit "disk"] [lit "disk"]

theorem two_calls_complete : ∃ s, Reach monitor.step Unraced ⟨⟨{}, [], []⟩, []⟩ s ∧
    s.shared.messages = restarted.recorded ++ diskFull.recorded ∧
    newest s.shared.messages <:+ s.shared.file.events := by
  obtain ⟨s, hs, hm⟩ : ∃ s, Reach monitor.step Unraced ⟨⟨{}, [], []⟩, []⟩ s ∧
      s.shared.messages = restarted.recorded ++ diskFull.recorded :=
    exists_reach [.enter restarted, .move 0 (), .enter diskFull, .move 1 ()] (by decide +kernel)
  exact ⟨s, hs, hm, (history_complete hs).1⟩

/-- The watchdog writes between the read and the write of the alert loop. -/
theorem restart_lost : ∃ s, Reach monitor.step Any ⟨⟨{}, [], []⟩, []⟩ s ∧ (s.threads = [none, none] ∧
    s.shared.messages = restarted.recorded ++ diskFull.recorded ∧ s.shared.file.events = diskFull.recorded) :=
  exists_reach [.enter diskFull, .enter restarted, .move 1 (), .move 0 ()] (by decide +kernel)

end ArangeTun.AlertHist
