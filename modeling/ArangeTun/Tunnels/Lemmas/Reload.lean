import ArangeTun.Tunnels.Lemmas.ReadBack

/-! # What is loaded from a rendered file -/

namespace ArangeTun.Tunnels

open Go Toml TunnelSpec

/-! ## One field -/

def strOf : Option Value → Str
  | some (.str x) => x
  | _ => []

def intOf : Option Value → Int
  | some (.int n) => n
  | _ => 0

def boolOf : Option Value → Bool
  | some (.bool b) => b
  | _ => false

def strsOf : Option Value → List Str
  | some (.strs l) => l
  | _ => []

def kept {α : Type} [Inhabited α] (c : Prop) [Decidable c] (x : α) : α := if c then x else default

section

variable {c : Prop} [Decidable c] {o : Option Value}

@[simp] theorem strOf_some (x : Str) : strOf (some (.str x)) = x := rfl

@[simp] theorem intOf_some (n : Int) : intOf (some (.int n)) = n := rfl

@[simp] theorem boolOf_some (b : Bool) : boolOf (some (.bool b)) = b := rfl

@[simp] theorem strsOf_some (l : List Str) : strsOf (some (.strs l)) = l := rfl

@[simp] theorem strOf_nonempty (x : Str) : strOf (nonempty x) = x := by cases x <;> rfl

@[simp] theorem intOf_positive (n : Int) : intOf (positive n) = max n 0 := by
  unfold positive within
  split
  · exact (max_eq_left (Int.le_of_lt ‹_›)).symm
  · exact (max_eq_right (Int.not_lt.mp ‹_›)).symm

@[simp] theorem boolOf_flag (b : Bool) : boolOf (flag b) = b := by cases b <;> rfl

@[simp] theorem strsOf_nonemptyList (l : List Str) : strsOf (nonemptyList l) = l := by cases l <;> rfl

@[simp] theorem strOf_within : strOf (within c o) = kept c (strOf o) := by
  unfold within kept
  split <;> rfl

@[simp] theorem intOf_within : intOf (within c o) = kept c (intOf o) := by
  unfold within kept
  split <;> rfl

@[simp] theorem boolOf_within : boolOf (within c o) = kept c (boolOf o) := by
  unfold within kept
  split <;> rfl

@[simp] theorem strsOf_within : strsOf (within c o) = kept c (strsOf o) := by
  unfold within kept
  split <;> rfl

@[simp] theorem positive_max (n : Int) : positive (max n 0) = positive n := by
  unfold positive within
  by_cases h : 0 < n
  · rw [max_eq_left (Int.le_of_lt h)]
  · rw [if_neg h, if_neg (by omega)]

@[congr] theorem within_congr {c c' : Prop} {_ : Decidable c} [Decidable c'] {o o' : Option Value} (hc : c = c')
    (ho : c' → o = o') : within c o = within c' o' := by
  subst hc
  unfold within
  split
  · exact ho ‹_›
  · rfl

end

@[simp] theorem within_false {o : Option Value} : within False o = none := if_neg not_false

@[simp] theorem lit_tls_ne : lit "tls" ≠ [] := by decide

@[simp] theorem monitorBind_monitorBind (x : Str) : monitorBind (monitorBind x) = monitorBind x := by
  cases x with
  | nil => decide
  | cons b x => rfl

@[simp] theorem default_default (d x : Str) :
    (if (if x = [] then d else x) = [] then d else if x = [] then d else x) = if x = [] then d else x := by
  split <;> simp_all

section

variable {s : TunnelSpec} {prints : Key → Bool} {k : Key}

theorem str_sectionFor : (s.sectionFor prints).str k = strOf (if prints k then s.item k else none) := by
  unfold Section.str sectionFor strOf
  generalize (if prints k then s.item k else none) = o
  cases o with
  | none => cases k.kind <;> rfl
  | some v => cases v <;> rfl

theorem int_sectionFor : (s.sectionFor prints).int k = intOf (if prints k then s.item k else none) := by
  unfold Section.int sectionFor intOf
  generalize (if prints k then s.item k else none) = o
  cases o with
  | none => cases k.kind <;> rfl
  | some v => cases v <;> rfl

theorem bool_sectionFor : (s.sectionFor prints).bool k = boolOf (if prints k then s.item k else none) := by
  unfold Section.bool sectionFor boolOf
  generalize (if prints k then s.item k else none) = o
  cases o with
  | none => cases k.kind <;> rfl
  | some v => cases v <;> rfl

theorem strs_sectionFor : (s.sectionFor prints).strs k = strsOf (if prints k then s.item k else none) := by
  unfold Section.strs sectionFor strsOf
  generalize (if prints k then s.item k else none) = o
  cases o with
  | none => cases k.kind <;> rfl
  | some v => cases v <;> rfl

theorem item_serverSpec (name : Str) (hk : k.serverPrints = true) :
    (serverSpec name (s.sectionFor Key.serverPrints)).item k = { s with obfs := [] }.item k := by
  cases k <;> try cases hk
  all_goals
    dsimp only [item, serverSpec]
    try simp only [str_sectionFor, int_sectionFor, bool_sectionFor, strs_sectionFor, Key.serverPrints, if_true]
    try dsimp only [item]
    try simp +contextual [kept]

theorem item_clientSpec (name : Str) (hk : k.clientPrints = true) :
    (clientSpec name (s.sectionFor Key.clientPrints)).item k = { s with obfs := [] }.item k := by
  cases k <;> try cases hk
  all_goals
    dsimp only [item, clientSpec]
    try simp only [str_sectionFor, int_sectionFor, bool_sectionFor, strs_sectionFor, Key.clientPrints, if_true]
    try dsimp only [item]
    try simp +contextual [kept]

end

end ArangeTun.Tunnels
