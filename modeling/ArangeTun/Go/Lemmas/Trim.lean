import ArangeTun.Go.Str

/-!
# Trimming

What `strings.TrimSpace` does to a string that is cut at a separator afterwards. White space is a set of codes of
which none starts with another one, and whose first byte cannot stand inside a code.
-/

namespace Go

open List Option

section

variable {α : Type*} {codes : List (List α)} {s t l r w : List α} {x : α}

inductive Coded (codes : List (List α)) : List α → Prop
  | nil : Coded codes []
  | cons {w s : List α} : w ∈ codes → Coded codes s → Coded codes (w ++ s)

/-- No code is empty, and no code starts with another one. -/
structure PrefixFree (codes : List (List α)) : Prop where
  nonempty : [] ∉ codes
  eq_of_prefix : ∀ v ∈ codes, ∀ w ∈ codes, v <+: w → v = w

theorem Coded.append (hl : Coded codes l) (hr : Coded codes r) : Coded codes (l ++ r) := by
  induction hl with
  | nil => exact hr
  | cons hw _ ih => rw [append_assoc]; exact .cons hw ih

theorem Coded.of_reverse (h : Coded (codes.map List.reverse) s) : Coded codes s.reverse := by
  induction h with
  | nil => exact .nil
  | cons hw _ ih =>
    obtain ⟨v, hv, rfl⟩ := List.mem_map.mp hw
    have hcode : Coded codes (v ++ []) := .cons hv .nil
    rw [append_nil] at hcode
    rw [reverse_append, reverse_reverse]
    exact ih.append hcode

theorem Coded.not_mem (h : Coded codes s) (hx : ∀ w ∈ codes, x ∉ w) : x ∉ s := by
  induction h with
  | nil => simp
  | cons hw _ ih => simp [hx _ hw, ih]

theorem nil_not_mem_reverse (hne : [] ∉ codes) : [] ∉ codes.map List.reverse := by
  simpa using hne

def Started (start : α → Prop) (codes : List (List α)) : Prop :=
  ∀ w ∈ codes, ∃ a u, w = a :: u ∧ start a ∧ ∀ b ∈ u, ¬ start b

theorem Started.head {start : α → Prop} (hs : Started start codes) (hr : Coded codes (x :: r)) :
    start x := by
  generalize hxr : x :: r = y at hr
  induction hr with
  | nil => cases hxr
  | cons hw _ _ =>
    obtain ⟨a, u, rfl, ha, _⟩ := hs _ hw
    cases hxr
    exact ha

/-! ## One code -/

theorem find?_congr {β : Type*} {p q : β → Bool} {l : List β} (h : ∀ a ∈ l, p a = q a) :
    l.find? p = l.find? q := by
  induction l with
  | nil => rfl
  | cons a l ih =>
    rw [find?_cons, find?_cons, h a (by simp), ih fun b hb => h b (by simp [hb])]

variable [DecidableEq α]

theorem dropCode_eq_none : dropCode codes s = none ↔ ∀ w ∈ codes, ¬ w <+: s := by
  simp [dropCode, isPrefixOf_iff_prefix]

theorem dropCode_eq_some (h : dropCode codes s = some r) : ∃ w ∈ codes, s = w ++ r := by
  simp only [dropCode, map_eq_some_iff] at h
  obtain ⟨w, hw, rfl⟩ := h
  have hpre := find?_some hw
  replace hpre := isPrefixOf_iff_prefix.mp hpre
  obtain ⟨r, rfl⟩ := hpre
  exact ⟨w, mem_of_find?_eq_some hw, by simp⟩

theorem dropCode_length (hne : [] ∉ codes) (h : dropCode codes s = some r) : r.length < s.length := by
  obtain ⟨w, hw, rfl⟩ := dropCode_eq_some h
  have hpos : w ≠ [] := fun h0 => hne (h0 ▸ hw)
  have := length_pos_iff.mpr hpos
  simp only [length_append]; omega

theorem PrefixFree.dropCode_append (hp : PrefixFree codes) (hw : w ∈ codes) :
    dropCode codes (w ++ s) = some s := by
  cases hd : dropCode codes (w ++ s) with
  | none => exact absurd (prefix_append w s) (dropCode_eq_none.mp hd w hw)
  | some r =>
    obtain ⟨v, hv, he⟩ := dropCode_eq_some hd
    have hvw : v = w := by
      rcases prefix_or_prefix_of_prefix (prefix_append v r)
        (he ▸ prefix_append w s) with h | h
      · exact hp.eq_of_prefix v hv w hw h
      · exact (hp.eq_of_prefix w hw v hv h).symm
    subst hvw
    rw [append_cancel_left he]

theorem dropCode_barrier (hx : ∀ w ∈ codes, x ∉ w) :
    dropCode codes (s ++ x :: t) = (dropCode codes s).map (· ++ x :: t) := by
  have hpre : ∀ w ∈ codes, (w <+: s ++ x :: t ↔ w <+: s) := by
    intro w hw
    constructor
    · intro h
      rcases prefix_or_prefix_of_prefix h (prefix_append s (x :: t)) with h' | ⟨q, rfl⟩
      · exact h'
      · cases q with
        | nil => simp
        | cons y q =>
          rw [prefix_append_right_inj] at h
          have hy : y = x := (cons_prefix_cons.mp h).1
          exact absurd (by simp [hy]) (hx _ hw)
    · exact fun h => h.trans (prefix_append s _)
  cases hd : dropCode codes s with
  | none =>
    rw [dropCode_eq_none] at hd
    simp only [map_none, dropCode_eq_none]
    exact fun w hw h => hd w hw ((hpre w hw).mp h)
  | some r =>
    simp only [dropCode, map_eq_some_iff] at hd
    obtain ⟨w, hw, rfl⟩ := hd
    have hfind : codes.find? (fun w => w.isPrefixOf (s ++ x :: t)) =
        codes.find? (fun w => w.isPrefixOf s) := by
      apply find?_congr
      intro v hv
      rw [Bool.eq_iff_iff, isPrefixOf_iff_prefix, isPrefixOf_iff_prefix]
      exact hpre v hv
    have hws := find?_some hw
    replace hws := isPrefixOf_iff_prefix.mp hws
    simp only [dropCode, hfind, hw, map_some, Option.some.injEq]
    rw [drop_append_of_le_length hws.length_le]

/-! ## All codes at the front -/

theorem dropCodes_eq (hne : [] ∉ codes) {n m : Nat} (hn : s.length ≤ n) (hm : s.length ≤ m) :
    dropCodes codes n s = dropCodes codes m s := by
  induction n generalizing m s with
  | zero =>
    have hs : s = [] := length_eq_zero_iff.mp (by omega)
    subst hs
    cases m with
    | zero => rfl
    | succ m =>
      cases hd : dropCode codes [] with
      | none => simp [dropCodes, hd]
      | some r => have := dropCode_length hne hd; simp at this
  | succ n ih =>
    cases hd : dropCode codes s with
    | none => cases m <;> simp [dropCodes, hd]
    | some r =>
      have hlt := dropCode_length hne hd
      cases m with
      | zero => omega
      | succ m =>
        simp only [dropCodes, hd]
        exact ih (by omega) (by omega)

theorem trimLeftCodes_of_none (h : dropCode codes s = none) : trimLeftCodes codes s = s := by
  unfold trimLeftCodes
  cases s <;> simp [dropCodes, h]

theorem trimLeftCodes_of_some (hne : [] ∉ codes) (h : dropCode codes s = some r) :
    trimLeftCodes codes s = trimLeftCodes codes r := by
  have hlt := dropCode_length hne h
  unfold trimLeftCodes
  obtain ⟨n, hn⟩ : ∃ n, s.length = n + 1 := ⟨s.length - 1, by omega⟩
  rw [hn]
  simp only [dropCodes, h]
  exact dropCodes_eq hne (by omega) (Nat.le_refl _)

theorem trimLeftCodes_induction (hne : [] ∉ codes) {P : List α → Prop}
    (stop : ∀ s, dropCode codes s = none → P s)
    (drop : ∀ s r, dropCode codes s = some r → P r → P s) (s : List α) : P s := by
  induction hn : s.length using Nat.strong_induction_on generalizing s with
  | _ n ih =>
    cases hd : dropCode codes s with
    | none => exact stop s hd
    | some r => exact drop s r hd (ih r.length (hn ▸ dropCode_length hne hd) r rfl)

theorem trimLeftCodes_idem (hne : [] ∉ codes) (s : List α) :
    trimLeftCodes codes (trimLeftCodes codes s) = trimLeftCodes codes s := by
  induction s using trimLeftCodes_induction hne with
  | stop s h => rw [trimLeftCodes_of_none h, trimLeftCodes_of_none h]
  | drop s r h ih => rw [trimLeftCodes_of_some hne h, ih]

theorem trimLeftCodes_split (hne : [] ∉ codes) (s : List α) :
    ∃ l, Coded codes l ∧ s = l ++ trimLeftCodes codes s := by
  induction s using trimLeftCodes_induction hne with
  | stop s h => exact ⟨[], .nil, by rw [trimLeftCodes_of_none h]; rfl⟩
  | drop s r h ih =>
    obtain ⟨l, hl, he⟩ := ih
    obtain ⟨w, hw, rfl⟩ := dropCode_eq_some h
    refine ⟨w ++ l, .cons hw hl, ?_⟩
    rw [trimLeftCodes_of_some hne h, append_assoc, ← he]

theorem trimLeftCodes_barrier (hne : [] ∉ codes) (hx : ∀ w ∈ codes, x ∉ w) (s t : List α) :
    trimLeftCodes codes (s ++ x :: t) = trimLeftCodes codes s ++ x :: t := by
  induction s using trimLeftCodes_induction hne with
  | stop s h =>
    rw [trimLeftCodes_of_none h, trimLeftCodes_of_none]
    rw [dropCode_barrier hx, h]; rfl
  | drop s r h ih =>
    rw [trimLeftCodes_of_some hne h, ← ih]
    apply trimLeftCodes_of_some hne
    rw [dropCode_barrier hx, h]; rfl

theorem PrefixFree.trimLeftCodes_append (hp : PrefixFree codes) (hl : Coded codes l) (s : List α) :
    trimLeftCodes codes (l ++ s) = trimLeftCodes codes s := by
  induction hl with
  | nil => rfl
  | cons hw _ ih =>
    rw [append_assoc, trimLeftCodes_of_some hp.nonempty (hp.dropCode_append hw), ih]

/-! ## Both ends -/

theorem trimLeftCodes_append_coded {start : α → Prop} (hp : PrefixFree codes)
    (hs : Started start codes) (hr : Coded codes r) (s : List α) :
    trimLeftCodes codes (s ++ r) =
      if trimLeftCodes codes s = [] then [] else trimLeftCodes codes s ++ r := by
  induction s using trimLeftCodes_induction hp.nonempty with
  | drop s q h ih =>
    obtain ⟨w, hw, rfl⟩ := dropCode_eq_some h
    rw [trimLeftCodes_of_some hp.nonempty h, append_assoc,
      trimLeftCodes_of_some hp.nonempty (hp.dropCode_append hw), ih]
  | stop s h =>
    rw [trimLeftCodes_of_none h]
    have hnil : trimLeftCodes codes ([] : List α) = [] := rfl
    cases s with
    | nil =>
      have := hp.trimLeftCodes_append hr []
      rwa [append_nil, hnil] at this
    | cons y s =>
      apply trimLeftCodes_of_none
      rw [dropCode_eq_none] at h ⊢
      intro w hw hpre
      rcases prefix_or_prefix_of_prefix hpre (prefix_append (y :: s) r) with h' | ⟨q, rfl⟩
      · exact h w hw h'
      · -- the code would reach from the last part of `s` into the first code of `r`
        obtain ⟨a, u, he, _, htail⟩ := hs _ hw
        cases he
        cases q with
        | nil => exact h _ hw (by simp)
        | cons b q =>
          rw [prefix_append_right_inj] at hpre
          obtain ⟨r', rfl⟩ := hpre
          exact htail b (by simp) (hs.head hr)

variable (codes) in
theorem trimRightCodes_eq (s : List α) :
    trimRightCodes codes s = (trimLeftCodes (codes.map List.reverse) s.reverse).reverse := rfl

theorem trimRightCodes_split (hne : [] ∉ codes) (s : List α) :
    ∃ r, Coded codes r ∧ s = trimRightCodes codes s ++ r := by
  obtain ⟨l, hl, he⟩ := trimLeftCodes_split (nil_not_mem_reverse hne) s.reverse
  refine ⟨l.reverse, hl.of_reverse, ?_⟩
  rw [trimRightCodes_eq, ← reverse_append, ← he, reverse_reverse]

theorem trimRightCodes_barrier (hne : [] ∉ codes) (hx : ∀ w ∈ codes, x ∉ w) (s t : List α) :
    trimRightCodes codes (s ++ x :: t) = s ++ x :: trimRightCodes codes t := by
  have hx' : ∀ w ∈ codes.map List.reverse, x ∉ w := by
    intro w hw
    obtain ⟨v, hv, rfl⟩ := List.mem_map.mp hw
    simpa using hx v hv
  rw [trimRightCodes_eq, trimRightCodes_eq]
  have := trimLeftCodes_barrier (nil_not_mem_reverse hne) hx' t.reverse s.reverse
  simp only [reverse_append, reverse_cons, append_assoc, singleton_append] at this ⊢
  rw [this]; simp

theorem trimRightCodes_append (hp : PrefixFree (codes.map List.reverse)) (hr : Coded codes r)
    (s : List α) : trimRightCodes codes (s ++ r) = trimRightCodes codes s := by
  have hr' : Coded (codes.map List.reverse) r.reverse := by
    apply Coded.of_reverse
    simpa [Function.comp_def] using hr
  rw [trimRightCodes_eq, trimRightCodes_eq, reverse_append, hp.trimLeftCodes_append hr']

theorem trimRight_trimLeft_trimRight {start : α → Prop} (hp : PrefixFree codes)
    (hp' : PrefixFree (codes.map List.reverse)) (hs : Started start codes) (s : List α) :
    trimRightCodes codes (trimLeftCodes codes (trimRightCodes codes s)) =
      trimRightCodes codes (trimLeftCodes codes s) := by
  obtain ⟨r, hr, he⟩ := trimRightCodes_split hp.nonempty s
  have happ := trimLeftCodes_append_coded hp hs hr (trimRightCodes codes s)
  rw [← he] at happ
  rw [happ]
  split
  · rename_i h0; rw [h0]
  · rw [trimRightCodes_append hp' hr]

end

/-! ## `trimSpace` -/

theorem spaceCodes_prefixFree : PrefixFree spaceCodes := ⟨by decide, by decide⟩

theorem spaceCodes_reverse_prefixFree : PrefixFree (spaceCodes.map List.reverse) :=
  ⟨by decide, by decide⟩

theorem spaceCodes_started : Started (fun b : UInt8 => b < 0x80 ∨ 0xc0 ≤ b) spaceCodes := by
  have h : ∀ w ∈ spaceCodes, ∃ a ∈ w.head?, (a < 0x80 ∨ 0xc0 ≤ a) ∧
      ∀ b ∈ w.tail, ¬ (b < 0x80 ∨ 0xc0 ≤ b) := by decide +kernel
  intro w hw
  obtain ⟨a, ha, hstart, htail⟩ := h w hw
  exact ⟨a, w.tail, by rw [cons_head?_tail ha], hstart, htail⟩

/-- A byte that no white space contains. The separators and the digits are such bytes. -/
def Solid (x : UInt8) : Prop := ∀ w ∈ spaceCodes, x ∉ w

instance : DecidablePred Solid := fun x => inferInstanceAs (Decidable (∀ w ∈ spaceCodes, x ∉ w))

theorem trimLeftSpace_barrier {x : UInt8} (hx : Solid x) (s t : Str) :
    trimLeftSpace (s ++ x :: t) = trimLeftSpace s ++ x :: t :=
  trimLeftCodes_barrier spaceCodes_prefixFree.nonempty hx s t

theorem trimRightSpace_barrier {x : UInt8} (hx : Solid x) (s t : Str) :
    trimRightSpace (s ++ x :: t) = s ++ x :: trimRightSpace t :=
  trimRightCodes_barrier spaceCodes_prefixFree.nonempty hx s t

theorem trimSpace_barrier {x : UInt8} (hx : Solid x) (s t : Str) :
    trimSpace (s ++ x :: t) = trimLeftSpace s ++ x :: trimRightSpace t := by
  rw [trimSpace, trimLeftSpace_barrier hx, trimRightSpace_barrier hx]

@[simp] theorem trimSpace_trimLeftSpace (s : Str) : trimSpace (trimLeftSpace s) = trimSpace s := by
  rw [trimSpace, trimSpace, trimLeftSpace, trimLeftSpace,
    trimLeftCodes_idem spaceCodes_prefixFree.nonempty]

@[simp] theorem trimSpace_trimRightSpace (s : Str) : trimSpace (trimRightSpace s) = trimSpace s :=
  trimRight_trimLeft_trimRight spaceCodes_prefixFree spaceCodes_reverse_prefixFree
    spaceCodes_started s

@[simp] theorem trimSpace_trimSpace (s : Str) : trimSpace (trimSpace s) = trimSpace s := by
  conv_lhs => rw [trimSpace.eq_1 s]
  rw [trimSpace_trimRightSpace, trimSpace_trimLeftSpace]

theorem trimSpace_split (s : Str) :
    ∃ l r, Coded spaceCodes l ∧ Coded spaceCodes r ∧ s = l ++ trimSpace s ++ r := by
  obtain ⟨l, hl, he⟩ := trimLeftCodes_split spaceCodes_prefixFree.nonempty s
  obtain ⟨r, hr, he'⟩ := trimRightCodes_split spaceCodes_prefixFree.nonempty (trimLeftSpace s)
  refine ⟨l, r, hl, hr, ?_⟩
  rw [append_assoc, trimSpace, trimRightSpace, ← he']
  exact he

theorem mem_of_mem_trimSpace {x : UInt8} {s : Str} (h : x ∈ trimSpace s) : x ∈ s := by
  obtain ⟨l, r, _, _, he⟩ := trimSpace_split s
  rw [he]; simp [h]

theorem mem_trimSpace {x : UInt8} (hx : Solid x) {s : Str} : x ∈ trimSpace s ↔ x ∈ s := by
  refine ⟨mem_of_mem_trimSpace, fun h => ?_⟩
  obtain ⟨l, r, hl, hr, he⟩ := trimSpace_split s
  rw [he] at h
  simpa [hl.not_mem hx, hr.not_mem hx] using h

end Go
