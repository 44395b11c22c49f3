import ArangeTun.Go.Reader
import ArangeTun.Go.Lemmas.Decimal
import ArangeTun.Go.Lemmas.Split

/-!
# The auto-refresh job

internal/schedule/schedule.go, and the schedule in a backup (internal/manage/backup.go).
-/

namespace ArangeTun.Schedule

open Go List Option

def hourlySpec (hours : Int) : Str :=
  if hours ≤ 0 then []
  else if hours = 1 then lit "0 * * * *"
  else if hours < 24 then lit "0 */" ++ itoa hours ++ lit " * * *"
  else if hours = 24 then lit "0 0 * * *"
  else lit "0 0 */" ++ itoa (hours.tdiv 24) ++ lit " * *"

def readCrontab (tab : Option Str) : List Str :=
  match tab with
  | none => []
  | some out => (split out (byte '\n')).filter (trimSpace · ≠ [])

def crontabText (lines : List Str) : Str := join lines (byte '\n') ++ [byte '\n']

def carries (marker l : Str) : Bool := decide ((lit "# " ++ marker) <:+: l)

def setCron (run : Option Error) (marker spec command : Str) (tab : Option Str) : Option Str × Option Error :=
  let kept := (readCrontab tab).filter (!carries marker ·)
  let kept := if spec = [] then kept else kept ++ [spec ++ lit " " ++ command ++ lit " # " ++ marker]
  match run with
  | none => (some (crontabText kept), none)
  | some err => (tab, some err)

def isDigit (c : UInt8) : Bool := decide (48 ≤ c ∧ c ≤ 57)

def matchInterval (s : Str) : Option Str :=
  let ds := (s.drop 4).takeWhile isDigit
  if (lit "0 */").isPrefixOf s ∧ ds ≠ [] ∧ (lit " * * *").isPrefixOf (s.drop (4 + ds.length)) then some ds else none

def findInterval : Str → Option Str
  | [] => none
  | c :: s => (matchInterval (c :: s)).or (findInterval s)

def intervalOf (l : Str) : Option Int :=
  if (lit "0 * * * *").isPrefixOf l then some 1
  else if (lit "0 0 * * *").isPrefixOf l then some 24
  else (findInterval l).map atoiValue

def getIntervalHours (marker : Str) (tab : Option Str) : Int :=
  (((readCrontab tab).filter (carries marker)).findSome? intervalOf).getD 0

def binPath : Str := lit "/usr/local/bin/arange-tun"

def autoRefreshMarker : Str := lit "arange-tun-auto-refresh"

def setAutoRefresh (run : Option Error) (hours : Int) (tab : Option Str) : Option Str × Option Error :=
  setCron run autoRefreshMarker (hourlySpec hours) (binPath ++ lit " --restart-all") tab

def autoRefreshHours (tab : Option Str) : Int := getIntervalHours autoRefreshMarker tab

def restoreSchedule (run : Option Error) (hours : Int) (tab : Option Str) : Option Str :=
  if 0 < hours then (setAutoRefresh run hours tab).1 else tab

/-! ## The round trip -/

/-- After `SetAutoRefresh` succeeds the interval is read back, the other lines stand as they did, and one line carries
the marker, or none for an interval of zero. -/
structure RoundTrip (tab : Option Str) (h : Nat) (tab' : Option Str) : Prop where
  hours : autoRefreshHours tab' = h
  others : (readCrontab tab').filter (!carries autoRefreshMarker ·) =
    (readCrontab tab).filter (!carries autoRefreshMarker ·)
  marked : ((readCrontab tab').filter (carries autoRefreshMarker)).length = if h = 0 then 0 else 1

/-- Whatever the crontab of the other machine, a backup of this one restored there brings the interval along. -/
def Reinstated (h : Nat) (tab' : Option Str) : Prop :=
  ∀ other, autoRefreshHours (restoreSchedule none (autoRefreshHours tab') other) = h

section

variable {tab : Option Str} {marker l : Str} {lines : List Str}

theorem mem_readCrontab (h : l ∈ readCrontab tab) : byte '\n' ∉ l ∧ trimSpace l ≠ [] := by
  cases tab with
  | none => cases h
  | some out =>
    simp only [readCrontab, mem_filter, decide_eq_true_eq] at h
    exact ⟨(mem_split h.1).1, h.2⟩

theorem readCrontab_text (h : ∀ l ∈ lines, byte '\n' ∉ l ∧ trimSpace l ≠ []) :
    readCrontab (some (crontabText lines)) = lines := by
  have hempty : split [] (byte '\n') = [[]] := split_of_not_mem (by simp)
  have hends : readCrontab (some (crontabText lines)) =
      (split (join lines (byte '\n')) (byte '\n')).filter (trimSpace · ≠ []) := by
    rw [readCrontab, crontabText, split_append_cons, filter_append, hempty]
    simp [show trimSpace [] = [] from rfl]
  rw [hends]
  by_cases hnil : lines = []
  · subst hnil
    rw [show join [] (byte '\n') = [] from rfl, hempty]
    rfl
  · rw [split_join (fun l hl => (h l hl).1) hnil]
    exact filter_eq_self.mpr fun l hl => decide_eq_true (h l hl).2

end

/-! ## The line of the job -/

def jobLine (h : Nat) : Str :=
  hourlySpec h ++ lit " " ++ (binPath ++ lit " --restart-all") ++ lit " # " ++ autoRefreshMarker

theorem carries_jobLine (h : Nat) : carries autoRefreshMarker (jobLine h) = true := by
  refine decide_eq_true ⟨hourlySpec h ++ lit " " ++ (binPath ++ lit " --restart-all") ++ lit " ", [], ?_⟩
  rw [jobLine, append_nil, show lit " # " = lit " " ++ lit "# " from rfl]
  simp only [append_assoc]

theorem hourlySpec_days {h : Nat} (h24 : 24 < h) :
    hourlySpec h = lit "0 0 */" ++ decimal (h / 24) ++ lit " * *" := by
  rw [hourlySpec, if_neg (by omega), if_neg (by omega), if_neg (by omega), if_neg (by omega)]
  exact congrArg (fun n : Int => lit "0 0 */" ++ itoa n ++ lit " * *") (Int.ofNat_tdiv h 24).symm

theorem hourlySpec_eq_nil {h : Nat} : hourlySpec h = [] ↔ h = 0 := by
  by_cases h24 : 24 < h
  · rw [hourlySpec_days h24]
    exact iff_of_false (by simp [lit]) (by omega)
  · have hall : ∀ h ∈ List.range 25, hourlySpec h = [] ↔ h = 0 := by decide
    exact hall h (mem_range.mpr (by omega))

theorem newline_not_mem_jobLine (h : Nat) : byte '\n' ∉ jobLine h := by
  by_cases h24 : 24 < h
  · have hdigits : byte '\n' ∉ decimal (h / 24) := fun hmem => absurd (decimal_mem hmem) (by decide)
    have hrest : byte '\n' ∉ lit "0 0 */" ∧ byte '\n' ∉ lit " * *" ∧
        byte '\n' ∉ lit " " ++ (binPath ++ lit " --restart-all") ++ lit " # " ++ autoRefreshMarker := by decide
    rw [jobLine, hourlySpec_days h24]
    simp only [mem_append, not_or] at hrest ⊢
    tauto
  · have hall : ∀ h ∈ List.range 25, byte '\n' ∉ jobLine h := by decide
    exact hall h (mem_range.mpr (by omega))

theorem trimSpace_jobLine (h : Nat) : trimSpace (jobLine h) ≠ [] := by
  have hmem : byte '#' ∈ jobLine h := by
    rw [jobLine]
    exact mem_append_left _ (mem_append_right _ (by decide))
  exact ne_nil_of_mem ((mem_trimSpace (by decide)).mpr hmem)

theorem intervalOf_jobLine {h : Nat} (h0 : 0 < h) (h24 : h ≤ 24) : intervalOf (jobLine h) = some (h : Int) := by
  have hall : ∀ h ∈ List.range 25, 0 < h → intervalOf (jobLine h) = some (h : Int) := by decide
  exact hall h (mem_range.mpr (by omega)) h0

/-! An interval of more than a day is written in days, and the pattern does not match it anywhere. -/

def jobTail : Str := lit " * * /usr/local/bin/arange-tun --restart-all # arange-tun-auto-refresh"

theorem findInterval_skip {c : UInt8} {s : Str} (h : (lit "0 */").isPrefixOf (c :: s) = false) :
    findInterval (c :: s) = findInterval s := by
  have hmatch : matchInterval (c :: s) = none := if_neg fun hs => by rw [h] at hs; cases hs.1
  rw [findInterval, hmatch, none_or]

theorem findInterval_digits {ds : Str} (h : ∀ c ∈ ds, isDigit c = true) : findInterval (ds ++ jobTail) = none := by
  induction ds with
  | nil => decide
  | cons c ds ih =>
    have hprefix : (lit "0 */").isPrefixOf (c :: (ds ++ jobTail)) = false := by
      cases ds with
      | nil =>
        change [48, 32, 42, 47].isPrefixOf (c :: 32 :: 42 :: 32 :: jobTail.drop 3) = false
        simp [List.isPrefixOf]
      | cons d ds =>
        have hd : d ≠ 32 := fun hd => absurd (h d (by simp)) (by rw [hd]; decide)
        change [48, 32, 42, 47].isPrefixOf (c :: d :: (ds ++ jobTail)) = false
        simp [List.isPrefixOf, hd.symm]
    have hrest := ih fun c hc => h c (mem_cons_of_mem _ hc)
    rw [cons_append, findInterval_skip hprefix, hrest]

theorem intervalOf_days {h : Nat} (h24 : 24 < h) : intervalOf (jobLine h) = none := by
  have hline : jobLine h = lit "0 0 */" ++ (decimal (h / 24) ++ jobTail) := by
    rw [jobLine, hourlySpec_days h24]
    simp only [append_assoc]
    rfl
  have hdigits : ∀ c ∈ decimal (h / 24), isDigit c = true := fun c hc => decide_eq_true (decimal_mem hc)
  -- the pattern begins to match at the second field, and ends one asterisk short
  have hfield : matchInterval (lit "0 */" ++ (decimal (h / 24) ++ jobTail)) = none := by
    have htake : (decimal (h / 24) ++ jobTail).takeWhile isDigit = decimal (h / 24) := by
      rw [takeWhile_append_of_pos hdigits]
      exact append_nil _
    have hdrop : (lit "0 */" ++ (decimal (h / 24) ++ jobTail)).drop (4 + (decimal (h / 24)).length) = jobTail := by
      rw [← append_assoc]
      exact drop_left' (by rw [length_append]; rfl)
    rw [matchInterval, drop_left' (show (lit "0 */").length = 4 from rfl), htake, hdrop]
    exact if_neg fun hs => absurd hs.2.2 (by decide)
  have hfind : findInterval (jobLine h) = none := by
    rw [hline]
    change findInterval (48 :: 32 :: (lit "0 */" ++ (decimal (h / 24) ++ jobTail))) = none
    rw [findInterval_skip (by rfl), findInterval_skip (by rfl)]
    change (matchInterval (lit "0 */" ++ (decimal (h / 24) ++ jobTail))).or
      (findInterval (32 :: 42 :: 47 :: (decimal (h / 24) ++ jobTail))) = none
    rw [hfield, none_or, findInterval_skip (by rfl), findInterval_skip (by rfl), findInterval_skip (by rfl),
      findInterval_digits hdigits]
  have hhourly : (lit "0 * * * *").isPrefixOf (lit "0 0 */" ++ (decimal (h / 24) ++ jobTail)) = false := rfl
  have hdaily : (lit "0 0 * * *").isPrefixOf (lit "0 0 */" ++ (decimal (h / 24) ++ jobTail)) = false := rfl
  rw [intervalOf, hfind, hline, hhourly, hdaily]
  rfl

/-! ## What `SetAutoRefresh` does -/

section

variable {tab tab' : Option Str} {h : Nat} {run : Option Error}

theorem readCrontab_setAutoRefresh (hset : setAutoRefresh run h tab = (tab', none)) :
    readCrontab tab' = (readCrontab tab).filter (!carries autoRefreshMarker ·) ++
      if h = 0 then [] else [jobLine h] := by
  cases run with
  | some err => cases hset
  | none =>
    have hlines : ∀ l ∈ (readCrontab tab).filter (!carries autoRefreshMarker ·) ++ (if h = 0 then [] else [jobLine h]),
        byte '\n' ∉ l ∧ trimSpace l ≠ [] := by
      intro l hl
      rcases mem_append.mp hl with hl | hl
      · exact mem_readCrontab (mem_filter.mp hl).1
      · split at hl
        · cases hl
        · cases mem_singleton.mp hl
          exact ⟨newline_not_mem_jobLine h, trimSpace_jobLine h⟩
    rw [← readCrontab_text hlines]
    cases hset
    by_cases h0 : h = 0
    · simp only [hourlySpec_eq_nil, h0, if_true, append_nil]
    · simp only [hourlySpec_eq_nil, h0, if_false]
      rfl

theorem marked_setAutoRefresh (hset : setAutoRefresh run h tab = (tab', none)) :
    (readCrontab tab').filter (carries autoRefreshMarker) = if h = 0 then [] else [jobLine h] := by
  rw [readCrontab_setAutoRefresh hset, filter_append, List.filter_filter]
  split <;> simp [carries_jobLine]

theorem unmarked_setAutoRefresh (hset : setAutoRefresh run h tab = (tab', none)) :
    (readCrontab tab').filter (!carries autoRefreshMarker ·) =
      (readCrontab tab).filter (!carries autoRefreshMarker ·) := by
  rw [readCrontab_setAutoRefresh hset, filter_append, List.filter_filter]
  split <;> simp [carries_jobLine]

theorem hours_setAutoRefresh (hset : setAutoRefresh run h tab = (tab', none)) :
    autoRefreshHours tab' = if h ≤ 24 then (h : Int) else 0 := by
  rw [autoRefreshHours, getIntervalHours, marked_setAutoRefresh hset]
  by_cases h0 : h = 0
  · simp [h0]
  · by_cases h24 : h ≤ 24
    · rw [if_neg h0, if_pos h24, findSome?_cons, intervalOf_jobLine (by omega) h24]
      rfl
    · rw [if_neg h0, if_neg h24, findSome?_cons, intervalOf_days (by omega)]
      rfl

theorem roundTrip_iff (hset : setAutoRefresh run h tab = (tab', none)) : RoundTrip tab h tab' ↔ h ≤ 24 := by
  constructor
  · intro hround
    have hhours := hround.hours
    rw [hours_setAutoRefresh hset] at hhours
    split at hhours <;> omega
  · intro h24
    refine ⟨?_, unmarked_setAutoRefresh hset, ?_⟩
    · rw [hours_setAutoRefresh hset, if_pos h24]
    · rw [marked_setAutoRefresh hset]
      split <;> rfl

def scheduledElsewhere : Option Str := (setAutoRefresh none 6 none).1

theorem reinstated_iff (hset : setAutoRefresh run h tab = (tab', none)) : Reinstated h tab' ↔ 0 < h ∧ h ≤ 24 := by
  have hhours := hours_setAutoRefresh hset
  constructor
  · intro hre
    have hother := hre scheduledElsewhere
    have hsix : autoRefreshHours scheduledElsewhere = 6 := @hours_setAutoRefresh none _ 6 none rfl
    by_cases h24 : h ≤ 24
    · refine ⟨Nat.pos_of_ne_zero fun h0 => ?_, h24⟩
      rw [hhours, if_pos h24, h0, restoreSchedule, if_neg (by decide), hsix] at hother
      cases hother
    · rw [hhours, if_neg h24, restoreSchedule, if_neg (by decide), hsix] at hother
      omega
  · rintro ⟨h0, h24⟩ other
    rw [hhours, if_pos h24, restoreSchedule, if_pos (by omega)]
    exact (@hours_setAutoRefresh other _ h none rfl).trans (if_pos h24)

end

/-- For every crontab: the interval comes back exactly when it is at most a day, and a backup brings it to every other
machine exactly when it is not zero either. -/
theorem auto_refresh_round_trip (tab : Option Str) (h : Nat) :
    ((∀ run tab', setAutoRefresh run h tab = (tab', none) → RoundTrip tab h tab') ↔ h ≤ 24) ∧
      ((∀ run tab', setAutoRefresh run h tab = (tab', none) → RoundTrip tab h tab' ∧ Reinstated h tab') ↔
        0 < h ∧ h ≤ 24) := by
  have hok : setAutoRefresh none h tab = ((setAutoRefresh none h tab).1, none) := rfl
  constructor
  · exact ⟨fun hall => (roundTrip_iff hok).mp (hall _ _ hok), fun h24 _ _ hset => (roundTrip_iff hset).mpr h24⟩
  · constructor
    · exact fun hall => (reinstated_iff hok).mp (hall _ _ hok).2
    · exact fun hh _ _ hset => ⟨(roundTrip_iff hset).mpr hh.2, (reinstated_iff hset).mpr hh⟩

/-- Two days are written as days, and read as no schedule at all. -/
theorem two_days_not_read_back :
    (setAutoRefresh none 48 none).2 = none ∧ autoRefreshHours (setAutoRefresh none 48 none).1 = 0 ∧
      (readCrontab (setAutoRefresh none 48 none).1).map (carries autoRefreshMarker) = [true] := by decide

end ArangeTun.Schedule
