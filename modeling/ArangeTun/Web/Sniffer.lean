import ArangeTun.Transition.Threads

/-!
# The usage of the ports

`Usage` of internal/web/sniffer.go. `saveUsageData` reads the file, takes what is in memory under `mu`, and writes the
sums; these are three steps, and `getUsageFromFile` has two. A map of ports is a function, zero where it has no entry.
-/

namespace ArangeTun.Sniffer

open Transition

abbrev File := Option (Option (Int → Nat))

def total (file : File) (port : Int) : Nat := (file.join.map (· port)).getD 0

/-- `inProgress` has the calls that have not returned, with whether they save, and `recorded` what `AddOrUpdatePort` was
given. -/
structure Usage where
  file : File
  dataStore : Int → Nat
  recorded : Int → Nat
  inProgress : List (Nat × Bool)

def Usage.saving (st : Usage) : Bool := st.inProgress.any (·.2)

inductive Call
  | addOrUpdatePort (port : Int) (usage : Nat)
  /-- Whether the file can be opened, if it is there. -/
  | saveUsageData (opened : Bool)
  | getUsageFromFile

inductive Pc
  | opened (existing : Int → Nat)
  | collected (existing current : Int → Nat)
  | creating
  | returned

def Pc.saves : Pc → Bool
  | .opened _ | .collected .. => true
  | .creating | .returned => false

abbrev Write := Option File

def add64 (m n : Nat) : Nat := (m + n) % 2 ^ 64

def Usage.add (st : Usage) (port : Int) (usage : Nat) : Usage :=
  { st with
    dataStore := Function.update st.dataStore port (add64 (st.dataStore port) usage)
    recorded := Function.update st.recorded port (st.recorded port + usage) }

def Usage.begin (st : Usage) (i : Nat) (saves : Bool) : Usage :=
  { st with inProgress := (i, saves) :: st.inProgress }

def Usage.return (st : Usage) (i : Nat) (saves : Bool) (file : File) : Usage :=
  { st with file, inProgress := st.inProgress.erase (i, saves) }

def sniffer : Program Usage Pc Call Write Empty where
  enter st i
    | .addOrUpdatePort port usage => some (st.add port usage, .returned)
    | .saveUsageData opened =>
      match st.file with
      | none => some (st.begin i true, .opened fun _ => 0)
      | some (some existing) => some (if opened then (st.begin i true, .opened existing) else (st, .returned))
      | some none => some (st, .returned)
    | .getUsageFromFile => some (if st.file.isNone then (st.begin i false, .creating) else (st, .returned))
  move st i pc x :=
    match pc with
    | .opened existing => some ({ st with dataStore := fun _ => 0 }, .collected existing st.dataStore)
    | .collected existing current =>
      some (st.return i true (x.getD (some (some fun port => add64 (existing port) (current port)))), .returned)
    | .creating => some (st.return i false (x.getD (some (some fun _ => 0))), .returned)
    | .returned => none
  env _ e := nomatch e

/-- A call that may write the file begins when no other is in progress, the writes of the sums succeed, and a sum is a
`uint64`. A file that could not be created is empty. -/
def OneByOne (s : Threads Usage Pc) : Act Call Write Empty → Prop
  | .enter (.addOrUpdatePort port usage) => s.shared.recorded port + usage < 2 ^ 64
  | .enter _ => s.shared.inProgress = []
  | .move i x => match s.threads[i]? with
    | some (.collected ..) => x = none
    | some .creating => ∀ file ∈ x, file.join.isNone
    | _ => True
  | .env _ => True

def Balanced (st : Usage) (inHand : Int → Nat) : Prop :=
  ∀ port, total st.file port + st.dataStore port + inHand port = st.recorded port ∧ st.recorded port < 2 ^ 64

def PcInv (st : Usage) : Pc → Prop
  | .opened existing => Balanced st (fun _ => 0) ∧ existing = total st.file
  | .collected existing current => Balanced st current ∧ existing = total st.file
  | .creating => Balanced st (fun _ => 0) ∧ total st.file = fun _ => 0
  | .returned => True

theorem Balanced.add {st : Usage} {inHand : Int → Nat} {port : Int} {usage : Nat} (h : Balanced st inHand)
    (hfits : st.recorded port + usage < 2 ^ 64) : Balanced (st.add port usage) inHand := by
  intro q
  obtain ⟨hq, hlt⟩ := h q
  by_cases heq : q = port
  · subst heq
    simp only [Usage.add, Function.update_self, add64]
    rw [Nat.mod_eq_of_lt (by omega)]
    omega
  · simp only [Usage.add, Function.update_of_ne heq]
    exact ⟨hq, hlt⟩

theorem PcInv.add {st : Usage} {pc : Pc} {port : Int} {usage : Nat} (h : PcInv st pc)
    (hfits : st.recorded port + usage < 2 ^ 64) : PcInv (st.add port usage) pc := by
  cases pc with
  | opened | collected | creating => exact ⟨h.1.add hfits, h.2⟩
  | returned => trivial

def Inv (st : Usage) (i : Nat) (pc : Pc) : Prop := pc = .returned ∨ st.inProgress = [(i, pc.saves)] ∧ PcInv st pc

variable {st st' : Usage} {i : Nat} {pc pc' : Pc}

/-- The first step of a call that is alone. -/
theorem Inv.enter {call : Call} (hst : Balanced st fun _ => 0) (hidle : st.inProgress = [])
    (hcall : ∀ port usage, call ≠ .addOrUpdatePort port usage) (hstep : sniffer.enter st i call = some (st', pc)) :
    (st'.saving = false → Balanced st' fun _ => 0) ∧ Inv st' i pc := by
  have hbegin (saves : Bool) : (st.begin i saves).inProgress = [(i, saves)] := congrArg ((i, saves) :: ·) hidle
  have hbusy : ¬ (st.begin i true).saving = false := nofun
  cases call with
  | addOrUpdatePort port usage => exact absurd rfl (hcall port usage)
  | saveUsageData opened =>
    dsimp only [sniffer] at hstep
    cases hfile : st.file with
    | none =>
      simp only [hfile] at hstep
      cases hstep
      exact ⟨fun h => absurd h hbusy, .inr ⟨hbegin true, hst, by rw [Usage.begin, hfile]; rfl⟩⟩
    | some contents =>
      cases contents with
      | none =>
        simp only [hfile] at hstep
        cases hstep
        exact ⟨fun _ => hst, .inl rfl⟩
      | some existing =>
        simp only [hfile] at hstep
        cases opened with
        | false =>
          cases hstep
          exact ⟨fun _ => hst, .inl rfl⟩
        | true =>
          cases hstep
          exact ⟨fun h => absurd h hbusy, .inr ⟨hbegin true, hst, by rw [Usage.begin, hfile]; rfl⟩⟩
  | getUsageFromFile =>
    dsimp only [sniffer] at hstep
    cases hfile : st.file with
    | none =>
      rw [hfile] at hstep
      cases hstep
      exact ⟨fun _ => hst, .inr ⟨hbegin false, hst, by rw [Usage.begin, hfile]; rfl⟩⟩
    | some contents =>
      rw [hfile] at hstep
      cases hstep
      exact ⟨fun _ => hst, .inl rfl⟩

theorem Inv.move {x : Write} (hbusy : st.inProgress = [(i, pc.saves)]) (hpc : PcInv st pc)
    (hsaved : ∀ existing current, pc = .collected existing current → x = none)
    (hcreated : pc = .creating → ∀ file ∈ x, file.join.isNone) (hstep : sniffer.move st i pc x = some (st', pc')) :
    (st'.saving = false → Balanced st' fun _ => 0) ∧ Inv st' i pc' := by
  cases pc with
  | opened existing =>
    cases hstep
    refine ⟨fun h => absurd h (by rw [Usage.saving, hbusy]; nofun), .inr ⟨hbusy, fun port => ?_, hpc.2⟩⟩
    have hport := hpc.1 port
    dsimp only at hport ⊢
    omega
  | collected existing current =>
    cases hsaved existing current rfl
    cases hstep
    obtain ⟨hbalanced, rfl⟩ := hpc
    refine ⟨fun _ port => ?_, .inl rfl⟩
    obtain ⟨hport, hlt⟩ := hbalanced port
    refine ⟨?_, hlt⟩
    show add64 (total st.file port) (current port) + st.dataStore port + 0 = st.recorded port
    rw [add64, Nat.mod_eq_of_lt (by omega)]
    omega
  | creating =>
    cases hstep
    obtain ⟨hbalanced, hzero⟩ := hpc
    refine ⟨fun _ port => ?_, .inl rfl⟩
    have hnull : total (x.getD (some (some fun _ => 0))) port = total st.file port := by
      rw [hzero]
      cases x with
      | none => rfl
      | some file => rw [Option.getD_some, total, Option.isNone_iff_eq_none.mp (hcreated rfl file rfl)]; rfl
    have hport := hbalanced port
    rw [← hnull] at hport
    exact hport
  | returned => cases hstep

/-- While no save is in progress, what is in the file and in memory is what was recorded. -/
theorem usage_conserved {file : File} {s : Threads Usage Pc} (hfile : ∀ port, total file port < 2 ^ 64)
    (h : Reach sniffer.step OneByOne ⟨⟨file, fun _ => 0, total file, []⟩, []⟩ s) (hdone : s.shared.saving = false)
    (port : Int) : total s.shared.file port + s.shared.dataStore port = s.shared.recorded port := by
  have hinv := Program.invariant (J := fun st : Usage => st.saving = false → Balanced st fun _ => 0) (I := Inv)
    h ⟨fun _ port => ⟨rfl, hfile port⟩, nofun⟩ ?_ ?_ nofun
  · exact (hinv.shared hdone port).1
  · intro s call st pc hs hcall henter
    cases call with
    | addOrUpdatePort port usage =>
      cases henter
      refine ⟨fun hp => (hs.shared hp).add hcall, .inl rfl, fun j q _ hq => hq.imp id fun hq => ⟨hq.1, hq.2.add hcall⟩⟩
    | saveUsageData | getUsageFromFile =>
      obtain ⟨hJ, hI⟩ := Inv.enter (hs.shared (by rw [Usage.saving, hcall]; rfl)) hcall (fun _ _ h => by cases h) henter
      refine ⟨hJ, hI, fun j q _ hq => .inl (hq.resolve_right fun hq => ?_)⟩
      exact absurd (hcall.symm.trans hq.1) nofun
  · intro s i pc x st pc' hs hone hi hpc hmove
    rcases hpc with rfl | ⟨hbusy, hpc⟩
    · cases hmove
    have hsaved : ∀ existing current, pc = .collected existing current → x = none := by
      rintro existing current rfl
      simpa only [OneByOne, hi] using hone
    have hcreated : pc = .creating → ∀ file ∈ x, file.join.isNone := by
      rintro rfl
      simpa only [OneByOne, hi] using hone
    obtain ⟨hJ, hI⟩ := Inv.move hbusy hpc hsaved hcreated hmove
    refine ⟨hJ, hI, fun j q hne _ hq => .inl (hq.resolve_right fun hq => hne ?_)⟩
    exact congrArg Prod.fst (List.cons.inj (hq.1.symm.trans hbusy)).1

instance (s : Threads Usage Pc) (a : Act Call Write Empty) : Decidable (OneByOne s a) := by
  unfold OneByOne
  repeat' split
  all_goals infer_instance

def empty : Threads Usage Pc := ⟨⟨none, fun _ => 0, fun _ => 0, []⟩, []⟩

def save (i : Nat) : List (Act Call Write Empty) := [.move i none, .move i none]

theorem usage_saved : ∃ s, Reach sniffer.step OneByOne empty s ∧ s.shared.recorded 443 = 7 ∧
    total s.shared.file 443 + s.shared.dataStore 443 = s.shared.recorded 443 := by
  obtain ⟨s, hs, hdone, hr⟩ : ∃ s, Reach sniffer.step OneByOne empty s ∧
      (s.shared.saving = false ∧ s.shared.recorded 443 = 7) :=
    exists_reach ([.enter (.addOrUpdatePort 443 7), .enter (.saveUsageData true)] ++ save 1) (by decide +kernel)
  exact ⟨s, hs, hr, @usage_conserved none s (fun _ => Nat.two_pow_pos 64) hs hdone 443⟩

/-- Two saves have read the missing file, and the second write leaves out what the first one has collected. -/
theorem usage_lost : ∃ s, Reach sniffer.step Any empty s ∧ (s.shared.saving = false ∧
    s.shared.recorded 443 = 7 ∧ total s.shared.file 443 + s.shared.dataStore 443 = 0) :=
  exists_reach ([.enter (.addOrUpdatePort 443 7), .enter (.saveUsageData true), .enter (.saveUsageData true)] ++
    save 1 ++ save 2) (by decide +kernel)

end ArangeTun.Sniffer
