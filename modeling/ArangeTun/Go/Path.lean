import ArangeTun.Go.Lemmas.Split

/-!
# `path/filepath`

Paths with `/` as the separator. `Clean` takes out what is empty or `.`, and each `..` together with the name before
it.
-/

namespace Go

open List

namespace Path

def slash : UInt8 := byte '/'

def dot : Str := lit "."

def dotdot : Str := lit ".."

/-! ## The functions -/

def isAbs (p : Str) : Bool := p.head? = some slash

def elements (p : Str) : List Str := (split p slash).filter fun e => decide (e ≠ [] ∧ e ≠ dot)

def push (rooted : Bool) (es : List Str) (e : Str) : List Str :=
  if e = dotdot then
    match es.getLast? with
    | none => if rooted then [] else [dotdot]
    | some l => if l = dotdot then es ++ [dotdot] else es.dropLast
  else es ++ [e]

def resolve (rooted : Bool) (es : List Str) : List Str := es.foldl (push rooted) []

def unparse (rooted : Bool) (es : List Str) : Str :=
  if rooted then slash :: join es slash else if es = [] then dot else join es slash

def resolved (p : Str) : List Str := resolve (isAbs p) (elements p)

def clean (p : Str) : Str := unparse (isAbs p) (resolved p)

def joinPath (a b : Str) : Str :=
  if a = [] then if b = [] then [] else clean b else clean (a ++ slash :: b)

def base (p : Str) : Str :=
  if p = [] then dot
  else
    match (p.reverse.dropWhile (· = slash)).takeWhile (· ≠ slash) with
    | [] => [slash]
    | l => l.reverse

def dir (p : Str) : Str := clean (p.reverse.dropWhile (· ≠ slash)).reverse

def dropCommon {α : Type*} [DecidableEq α] : List α → List α → List α × List α
  | a :: as, b :: bs => if a = b then dropCommon as bs else (a :: as, b :: bs)
  | as, bs => (as, bs)

/-- `filepath.Rel`, `none` for an error -/
def rel (basepath targpath : Str) : Option Str :=
  if clean targpath = clean basepath then some dot
  else if isAbs basepath ≠ isAbs targpath then none
  else
    match dropCommon (resolved basepath) (resolved targpath) with
    | (up, down) =>
      if up.head? = some dotdot then none
      else some (join (List.replicate up.length dotdot ++ down) slash)

/-! ## Elements -/

structure Element (e : Str) : Prop where
  ne_nil : e ≠ []
  ne_dot : e ≠ dot
  no_slash : slash ∉ e

structure Name (e : Str) : Prop extends Element e where
  ne_dotdot : e ≠ dotdot

variable {p a b e : Str} {es ns : List Str} {rooted : Bool}

theorem element_of_mem (h : e ∈ elements p) : Element e := by
  obtain ⟨hs, hne⟩ := mem_filter.mp h
  obtain ⟨h₁, h₂⟩ := of_decide_eq_true hne
  exact ⟨h₁, h₂, (mem_split hs).1⟩

theorem element_dotdot : Element dotdot := ⟨by decide, by decide, by decide⟩

theorem elements_append (a b : Str) : elements (a ++ slash :: b) = elements a ++ elements b := by
  rw [elements, split_append_cons, filter_append]
  rfl

theorem isAbs_append (h : a ≠ []) : isAbs (a ++ b) = isAbs a := by
  cases a with
  | nil => exact absurd rfl h
  | cons => rfl

theorem elements_nil : elements [] = [] := by decide

theorem elements_join (h : ∀ e ∈ es, Element e) : elements (join es slash) = es := by
  cases es with
  | nil => decide
  | cons e es =>
    rw [elements, split_join (fun e he => (h e he).no_slash) (cons_ne_nil _ _)]
    refine filter_eq_self.mpr fun e he => decide_eq_true ⟨(h e he).ne_nil, (h e he).ne_dot⟩

theorem join_cons (e : Str) (hes : es ≠ []) : join (e :: es) slash = e ++ slash :: join es slash := by
  cases es with
  | nil => exact absurd rfl hes
  | cons e' es => simp [join, List.intercalate]

theorem join_append {as bs : List Str} (ha : as ≠ []) (hb : bs ≠ []) :
    join (as ++ bs) slash = join as slash ++ slash :: join bs slash := by
  induction as with
  | nil => exact absurd rfl ha
  | cons a as ih =>
    cases as with
    | nil =>
      rw [singleton_append, join_cons a hb]
      simp [join, List.intercalate]
    | cons a' as =>
      rw [cons_append, join_cons a (by simp), ih (cons_ne_nil _ _), join_cons a (cons_ne_nil _ _),
        append_assoc]
      rfl

theorem isPrefixOf_join (e : Str) (es : List Str) : e.isPrefixOf (join (e :: es) slash) = true := by
  refine isPrefixOf_iff_prefix.mpr ?_
  cases es with
  | nil => exact ⟨[], by simp [join, List.intercalate]⟩
  | cons e' es => exact ⟨_, (join_cons e (cons_ne_nil e' es)).symm⟩

theorem isAbs_join (h : ∀ e ∈ es, Element e) : isAbs (join es slash) = false := by
  cases es with
  | nil => decide
  | cons e es =>
    obtain ⟨hne, -, hslash⟩ := h e mem_cons_self
    cases e with
    | nil => exact absurd rfl hne
    | cons c cs =>
      have hc : c ≠ slash := fun hc => hslash (hc ▸ mem_cons_self)
      have hhead : (join ((c :: cs) :: es) slash).head? = some c := by
        cases es with
        | nil => simp [join, List.intercalate]
        | cons e' es => rw [join_cons _ (cons_ne_nil _ _)]; rfl
      simp [isAbs, hhead, hc]

theorem elements_unparse (h : ∀ e ∈ es, Element e) : elements (unparse rooted es) = es := by
  unfold unparse
  split
  · have := elements_append [] (join es slash)
    rw [nil_append, elements_nil, nil_append, elements_join h] at this
    exact this
  · split
    next hnil =>
      rw [hnil]
      decide
    next => exact elements_join h

theorem isAbs_unparse (h : ∀ e ∈ es, Element e) : isAbs (unparse rooted es) = rooted := by
  unfold unparse
  cases rooted with
  | true => simp [isAbs]
  | false =>
    rw [if_neg (by simp)]
    split
    · decide
    · exact isAbs_join h

/-! ## Clean paths -/

/-- The `..` stand in front, and an absolute path has none. -/
def Normal (rooted : Bool) (es : List Str) : Prop :=
  ∃ k ns, es = List.replicate k dotdot ++ ns ∧ (∀ n ∈ ns, Name n) ∧ (rooted = true → k = 0)

theorem Normal.element (h : Normal rooted es) (he : e ∈ es) : Element e := by
  obtain ⟨k, ns, rfl, hns, -⟩ := h
  rcases mem_append.mp he with he | he
  · rw [eq_of_mem_replicate he]
    exact element_dotdot
  · exact (hns e he).toElement

theorem normal_of_names (h : ∀ n ∈ ns, Name n) : Normal rooted ns := ⟨0, ns, rfl, h, fun _ => rfl⟩

theorem normal_push (h : Normal rooted es) (he : Element e) : Normal rooted (push rooted es e) := by
  obtain ⟨k, ns, rfl, hns, hk⟩ := h
  unfold push
  split
  next hup =>
    rcases eq_nil_or_concat' ns with rfl | ⟨ns, n, rfl⟩
    · rw [append_nil]
      cases k with
      | zero =>
        show Normal rooted (if rooted then [] else [dotdot])
        split
        · exact normal_of_names nofun
        next hr => exact ⟨1, [], rfl, nofun, fun h => absurd h hr⟩
      | succ k =>
        rw [replicate_succ', getLast?_concat]
        dsimp only
        rw [if_pos rfl, ← replicate_succ', ← replicate_succ']
        exact ⟨k + 2, [], (append_nil _).symm, nofun, fun h => absurd (hk h) (Nat.succ_ne_zero k)⟩
    · have hn := hns n (by simp)
      rw [← append_assoc, getLast?_concat, dropLast_concat]
      dsimp only
      rw [if_neg hn.ne_dotdot]
      exact ⟨k, ns, rfl, fun m hm => hns m (by simp [hm]), hk⟩
  next hne =>
    refine ⟨k, ns ++ [e], append_assoc .., fun n hn => ?_, hk⟩
    rcases mem_append.mp hn with hn | hn
    · exact hns n hn
    · rw [mem_singleton.mp hn]
      exact ⟨he, hne⟩

theorem normal_foldl (h : Normal rooted es) (hns : ∀ e ∈ ns, Element e) : Normal rooted (ns.foldl (push rooted) es) := by
  induction ns generalizing es with
  | nil => exact h
  | cons n ns ih =>
    exact ih (normal_push h (hns n mem_cons_self)) fun e he => hns e (mem_cons_of_mem _ he)

theorem normal_resolved (p : Str) : Normal (isAbs p) (resolved p) :=
  normal_foldl (normal_of_names nofun) fun _ he => element_of_mem he

theorem foldl_push_names (h : ∀ n ∈ ns, Name n) : ns.foldl (push rooted) es = es ++ ns := by
  induction ns generalizing es with
  | nil => rw [foldl_nil, append_nil]
  | cons n ns ih =>
    have hn := (h n mem_cons_self).ne_dotdot
    rw [foldl_cons, ih fun m hm => h m (mem_cons_of_mem _ hm), push, if_neg hn, append_assoc]
    rfl

theorem foldl_push_dotdot (k m : Nat) :
    (List.replicate m dotdot).foldl (push false) (List.replicate k dotdot) = List.replicate (k + m) dotdot := by
  induction m generalizing k with
  | zero => rfl
  | succ m ih =>
    have hpush : push false (List.replicate k dotdot) dotdot = List.replicate (k + 1) dotdot := by
      cases k with
      | zero => rfl
      | succ k =>
        rw [push, if_pos rfl, replicate_succ', getLast?_concat]
        dsimp only
        rw [if_pos rfl, ← replicate_succ', ← replicate_succ']
    rw [replicate_succ, foldl_cons, hpush, ih]
    congr 1
    omega

theorem push_dotdot_append (k : Nat) (e : Str) :
    push false (List.replicate k dotdot ++ es) e = List.replicate k dotdot ++ push false es e := by
  unfold push
  split
  next =>
    rcases eq_nil_or_concat' es with rfl | ⟨es, l, rfl⟩
    · cases k with
      | zero => rfl
      | succ k =>
        rw [append_nil, replicate_succ', getLast?_concat]
        dsimp only
        rw [if_pos rfl]
        rfl
    · rw [← append_assoc, getLast?_concat, getLast?_concat, dropLast_concat, dropLast_concat]
      dsimp only
      split
      · simp only [append_assoc]
      · rfl
  next => exact append_assoc ..

theorem foldl_push_dotdot_append (k : Nat) :
    ns.foldl (push false) (List.replicate k dotdot ++ es) = List.replicate k dotdot ++ ns.foldl (push false) es := by
  induction ns generalizing es with
  | nil => rfl
  | cons n ns ih => rw [foldl_cons, push_dotdot_append, ih, foldl_cons]

theorem resolve_of_normal (h : Normal rooted es) : resolve rooted es = es := by
  obtain ⟨k, ns, rfl, hns, hk⟩ := h
  rw [resolve, foldl_append, foldl_push_names hns]
  cases rooted with
  | true =>
    rw [hk rfl]
    rfl
  | false =>
    have := foldl_push_dotdot 0 k
    rw [replicate_zero, Nat.zero_add] at this
    rw [this]

@[simp] theorem isAbs_clean (p : Str) : isAbs (clean p) = isAbs p :=
  isAbs_unparse fun _ he => (normal_resolved p).element he

@[simp] theorem elements_clean (p : Str) : elements (clean p) = resolved p :=
  elements_unparse fun _ he => (normal_resolved p).element he

@[simp] theorem resolved_clean (p : Str) : resolved (clean p) = resolved p := by
  rw [resolved, isAbs_clean, elements_clean, resolve_of_normal (normal_resolved p)]

theorem clean_clean (p : Str) : clean (clean p) = clean p := by
  rw [clean, isAbs_clean, resolved_clean]
  rfl

theorem clean_eq_of_resolved (hp : isAbs a = isAbs b) (hr : resolved a = resolved b) : clean a = clean b := by
  rw [clean, clean, hp, hr]

theorem isAbs_joinPath (ha : a ≠ []) : isAbs (joinPath a b) = isAbs a := by
  rw [joinPath, if_neg ha, isAbs_clean, isAbs_append ha]

theorem resolved_joinPath (ha : a ≠ []) :
    resolved (joinPath a b) = (elements b).foldl (push (isAbs a)) (resolved a) := by
  rw [joinPath, if_neg ha, resolved_clean, resolved, isAbs_append ha, elements_append, resolve, foldl_append]
  rfl

theorem clean_joinPath (ha : a ≠ []) : clean (joinPath a b) = joinPath a b := by
  rw [joinPath, if_neg ha, clean_clean]

theorem clean_of_not_abs (h : isAbs p = false) (hne : resolved p ≠ []) : clean p = join (resolved p) slash := by
  rw [clean, h, unparse, if_neg (by simp), if_neg hne]

/-! ## Inside a directory -/

def Within (directory path : Str) : Prop :=
  isAbs path = isAbs directory ∧ ∃ rest, dotdot ∉ rest ∧ resolved path = resolved directory ++ rest

def Under (directory path : Str) : Prop :=
  isAbs path = isAbs directory ∧ ∃ rest, rest ≠ [] ∧ dotdot ∉ rest ∧ resolved path = resolved directory ++ rest

theorem Under.within (h : Under a p) : Within a p := by
  obtain ⟨habs, rest, -, hrest, hr⟩ := h
  exact ⟨habs, rest, hrest, hr⟩

/-- The directory is one above the working directory. -/
def OnlyUp (directory : Str) : Prop := ∃ k, isAbs directory = false ∧ resolved directory = List.replicate (k + 1) dotdot

theorem Normal.no_dotdot {rest : List Str} (h : Normal rooted (es ++ rest))
    (hn : rooted = true ∨ ∃ n ∈ es, n ≠ dotdot) : dotdot ∉ rest := by
  obtain ⟨k, ns, heq, hns, hk⟩ := h
  have hnd : dotdot ∉ ns := fun hmem => (hns _ hmem).ne_dotdot rfl
  rcases append_eq_append_iff.mp heq with ⟨as, hrep, -⟩ | ⟨bs, -, rfl⟩
  · -- the directory is a part of the `..` in front
    rcases hn with hr | ⟨n, hmem, hne⟩
    · rw [hk hr, replicate_zero] at heq hrep
      rw [nil_append] at heq
      intro hmem
      exact hnd (heq ▸ mem_append_right _ hmem)
    · exact absurd (eq_of_mem_replicate (hrep ▸ mem_append_left _ hmem)) hne
  · exact fun hmem => hnd (mem_append_right _ hmem)

theorem not_dot_slash {u : Str} (h : Normal rooted es) : unparse rooted es ≠ dot ++ slash :: u := by
  intro heq
  have hsplit : split (dot ++ slash :: u) slash = dot :: split u slash := split_append (by decide)
  unfold unparse at heq
  split at heq
  · exact absurd (List.cons.inj heq).1 (by decide)
  · split at heq
    · exact absurd (congrArg List.length heq) (by simp [dot, lit])
    next hne =>
      rw [← heq, split_join (fun e he => (h.element he).no_slash) hne] at hsplit
      exact (h.element (hsplit ▸ mem_cons_self)).ne_dot rfl

theorem resolved_of_isPrefixOf (ha : a ≠ []) (h : (clean a ++ [slash]).isPrefixOf (joinPath a b) = true) :
    ∃ u, u ≠ [] ∧ resolved (joinPath a b) = resolved a ++ u := by
  obtain ⟨u, hu⟩ := isPrefixOf_iff_prefix.mp h
  rw [append_assoc, singleton_append] at hu
  have hres : resolved (joinPath a b) = resolved a ++ elements u := by
    rw [← elements_clean, clean_joinPath ha, ← hu, elements_append, elements_clean]
  refine ⟨elements u, fun hnil => ?_, hres⟩
  have hclean : joinPath a b = clean a := by
    rw [← clean_joinPath ha]
    refine clean_eq_of_resolved (isAbs_joinPath ha) ?_
    rw [hres, hnil, append_nil]
  rw [hclean] at hu
  have := congrArg List.length hu
  simp at this

theorem under_of_isPrefixOf (ha : a ≠ []) (hup : ¬ OnlyUp a)
    (h : (clean a ++ [slash]).isPrefixOf (joinPath a b) = true) : Under a (joinPath a b) := by
  have habs := isAbs_joinPath (b := b) ha
  have hnorm : Normal (isAbs a) (resolved (joinPath a b)) := habs ▸ normal_resolved _
  obtain ⟨rest, hne, hres⟩ := resolved_of_isPrefixOf ha h
  refine ⟨habs, rest, hne, ?_, hres⟩
  rw [hres] at hnorm
  obtain ⟨k, ns, heq, hns, -⟩ := normal_resolved a
  cases ns with
  | cons n ns =>
    refine hnorm.no_dotdot (.inr ⟨n, ?_, (hns n mem_cons_self).ne_dotdot⟩)
    rw [heq]
    exact mem_append_right _ mem_cons_self
  | nil =>
    cases hr : isAbs a with
    | true => exact hnorm.no_dotdot (.inl hr)
    | false =>
      cases k with
      | succ k => exact absurd ⟨k, hr, by rw [heq, append_nil]⟩ hup
      | zero =>
        -- the directory is ".", and no clean path begins with "./"
        have hdot : clean a = dot := by
          rw [clean, heq, hr]
          rfl
        obtain ⟨u, hu⟩ := isPrefixOf_iff_prefix.mp h
        rw [hdot, ← clean_joinPath ha, append_assoc] at hu
        exact absurd hu.symm (not_dot_slash (normal_resolved _))

theorem Within.under (ha : a ≠ []) (hw : Within a (joinPath a b))
    (h : (clean a ++ [slash]).isPrefixOf (joinPath a b) = true) : Under a (joinPath a b) := by
  obtain ⟨habs, rest, hrest, hres⟩ := hw
  obtain ⟨rest', hne, hres'⟩ := resolved_of_isPrefixOf ha h
  rw [append_cancel_left (hres.symm.trans hres')] at hrest
  exact ⟨habs, rest', hne, hrest, hres'⟩

theorem OnlyUp.ne_nil (h : OnlyUp a) : a ≠ [] := by
  rintro rfl
  obtain ⟨k, -, hres⟩ := h
  exact absurd hres (by simp [resolved, elements_nil, resolve, replicate_succ])

theorem isPrefixOf_of_onlyUp (hup : OnlyUp a) (h : ¬ Within a (joinPath a b)) :
    (clean a ++ [slash]).isPrefixOf (joinPath a b) = true := by
  have ha := hup.ne_nil
  obtain ⟨k, habs, hres⟩ := hup
  have hjoin : resolved (joinPath a b) = resolved a ++ resolve false (elements b) := by
    have := @foldl_push_dotdot_append [] (elements b) (k + 1)
    rw [append_nil] at this
    rw [resolved_joinPath ha, hres, habs, this]
    rfl
  have hne : resolve false (elements b) ≠ [] := by
    intro hnil
    exact h ⟨isAbs_joinPath ha, [], nofun, by rw [hjoin, hnil]⟩
  have hane : resolved a ≠ [] := by simp [hres, replicate_succ]
  refine isPrefixOf_iff_prefix.mpr ?_
  rw [← clean_joinPath ha, clean_of_not_abs habs hane,
    clean_of_not_abs ((isAbs_joinPath ha).trans habs) (by simp [hjoin, hane]), hjoin, join_append hane hne]
  exact ⟨_, append_assoc ..⟩

theorem dropCommon_append {α : Type*} [DecidableEq α] (as bs : List α) : dropCommon as (as ++ bs) = ([], bs) := by
  induction as with
  | nil => cases bs <;> rfl
  | cons a as ih => rw [cons_append, dropCommon, if_pos rfl, ih]

theorem rel_of_under {rest : List Str} (habs : isAbs p = isAbs a) (hne : rest ≠ [])
    (hr : resolved p = resolved a ++ rest) : rel a p = some (join rest slash) := by
  have hclean : clean p ≠ clean a := by
    intro h
    have := congrArg elements h
    rw [elements_clean, elements_clean, hr] at this
    exact hne (append_right_eq_self.mp this)
  rw [rel, if_neg hclean, if_neg (not_not.mpr habs.symm), hr, dropCommon_append]
  rfl

end Path

end Go
