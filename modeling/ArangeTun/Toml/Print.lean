import ArangeTun.Go.Lemmas.Decimal
import ArangeTun.Toml.Machine

/-! # Writing TOML with quoted strings -/

namespace Toml

open Go List Option

/-! ## The text -/

inductive Line
  | comment (text : Str)
  | blank
  | header (name : Str)
  | entry (key : Str) (v : Value)
  -- an array with one element on each line
  | block (key : Str) (items : List Str)
  deriving DecidableEq

section

variable (isPrint : Char → Bool)

def Value.text : Value → Str
  | .str s => quote isPrint s
  | .int n => itoa n
  | .bool b => if b then lit "true" else lit "false"
  | .strs l => byte '[' :: (lit ", ").intercalate (l.map (quote isPrint)) ++ [byte ']']

def Line.text : Line → Str
  | .comment t => byte '#' :: t ++ [newline]
  | .blank => [newline]
  | .header name => byte '[' :: name ++ [byte ']', newline]
  | .entry key v => key ++ lit " = " ++ v.text isPrint ++ [newline]
  | .block key items =>
    key ++ lit " = " ++ [byte '[', newline] ++
      items.flatMap (fun s => lit "    " ++ quote isPrint s ++ [byte ',', newline]) ++ [byte ']', newline]

def text (ls : List Line) : Str := ls.flatMap (Line.text isPrint)

end

def Value.strings : Value → List Str
  | .str s => [s]
  | .strs l => l
  | _ => []

def Line.strings : Line → List Str
  | .entry _ v => v.strings
  | .block _ items => items
  | _ => []

/-- Keys and table names are bare, and a comment is on one line. -/
def Line.WF : Line → Prop
  | .comment t => ∀ b ∈ t, ¬ Control b ∧ b ≠ newline
  | .blank => True
  | .header name => name ≠ [] ∧ ∀ b ∈ name, Bare b
  | .entry key _ => key ≠ [] ∧ ∀ b ∈ key, Bare b
  | .block key _ => key ≠ [] ∧ ∀ b ∈ key, Bare b

def Line.read (l : Line) (s : State) : Option State :=
  match l with
  | .comment _ | .blank => some s
  | .header name => (s.openTable name).map ({ · with mode := .line })
  | .entry key v => s.define key v .line
  | .block key items => s.define key (.strs items) .line

namespace State

variable {s s' : State} {b : UInt8} {u v : Str}

theorem run_cons : s.run (b :: v) = (s.step b).bind (run · v) := rfl

theorem run_collect {P : UInt8 → Prop} {t : Str} {d : Doc} (mode : Str → Mode)
    (h : ∀ acc b, P b → step ⟨mode acc, t, d⟩ b = some ⟨mode (acc ++ [b]), t, d⟩) (acc : Str) (hu : ∀ b ∈ u, P b) :
    run ⟨mode acc, t, d⟩ (u ++ v) = run ⟨mode (acc ++ u), t, d⟩ v := by
  induction u generalizing acc with
  | nil => rw [append_nil, nil_append]
  | cons b u ih =>
    rw [cons_append, run_cons, h acc b (hu b mem_cons_self), bind_some,
      ih _ fun x hx => hu x (mem_cons_of_mem _ hx), append_assoc, singleton_append]

end State

/-! ## Strings -/

theorem hexDigit_lowerHex : ∀ n, n < 16 → hexDigit (lowerHex n) = some n := by decide

/-- A byte that stands for itself in a string. -/
def Ordinary (b : UInt8) : Prop := b ≠ byte '"' ∧ b ≠ byte '\\' ∧ ¬ Control b

section

variable {isPrint : Char → Bool} {slot : Slot} {acc v : Str} {t : Str} {d : Doc} {c : Char} {b : UInt8}

theorem run_string_bytes {u : Str} (h : ∀ b ∈ u, Ordinary b) :
    State.run ⟨.string slot acc, t, d⟩ (u ++ v) = State.run ⟨.string slot (acc ++ u), t, d⟩ v := by
  refine State.run_collect (.string slot) (fun acc b hb => ?_) acc h
  simp only [State.step, if_neg hb.1, if_neg hb.2.1, if_neg hb.2.2]

theorem run_unicode (w code n : Nat) :
    State.run ⟨.unicode slot acc (w + 1) code, t, d⟩ (hex (w + 1) n ++ v) =
      if (code * 16 ^ (w + 1) + n % 16 ^ (w + 1)).isValidChar then
        State.run ⟨.string slot (acc ++ encodeRune (Char.ofNat (code * 16 ^ (w + 1) + n % 16 ^ (w + 1)))), t, d⟩ v
      else none := by
  induction w generalizing code with
  | zero =>
    have hcode : 16 * code + n / 16 ^ 0 % 16 = code * 16 ^ (0 + 1) + n % 16 ^ (0 + 1) := by
      rw [pow_zero, Nat.div_one, zero_add, pow_one, mul_comm]
    rw [hex, hex, singleton_append, State.run_cons, State.step]
    simp only [State.stepUnicode, hexDigit_lowerHex _ (Nat.mod_lt _ (by decide)), hcode]
    rw [if_pos (Nat.le_refl _)]
    split <;> rfl
  | succ w ih =>
    have hcode : code * 16 ^ (w + 1 + 1) + n % 16 ^ (w + 1 + 1) =
        (16 * code + n / 16 ^ (w + 1) % 16) * 16 ^ (w + 1) + n % 16 ^ (w + 1) := by
      rw [Nat.mod_pow_succ, pow_succ 16 (w + 1)]
      ring
    rw [hex, cons_append, State.run_cons, State.step]
    simp only [State.stepUnicode, hexDigit_lowerHex _ (Nat.mod_lt _ (by decide))]
    rw [if_neg (by omega), bind_some, Nat.add_sub_cancel, ih, hcode]

theorem run_unicode_rune (w : Nat) (hw : c.toNat < 16 ^ (w + 1)) :
    State.run ⟨.unicode slot acc (w + 1) 0, t, d⟩ (hex (w + 1) c.toNat ++ v) =
      State.run ⟨.string slot (acc ++ encodeRune c), t, d⟩ v := by
  rw [run_unicode, Nat.zero_mul, Nat.zero_add, Nat.mod_eq_of_lt hw, if_pos (show c.toNat.isValidChar from c.valid), Char.ofNat_toNat]

theorem ordinary_of_toNat (hlo : 0x20 ≤ b.toNat) (hq : b.toNat ≠ 34) (hb : b.toNat ≠ 92) (hd : b.toNat ≠ 127) :
    Ordinary b := by
  refine ⟨?_, ?_, ?_⟩
  · rintro rfl
    exact hq rfl
  · rintro rfl
    exact hb rfl
  · rintro (⟨h, -⟩ | rfl)
    · exact absurd (UInt8.lt_iff_toNat_lt.mp h) (Nat.not_lt.mpr hlo)
    · exact hd rfl

theorem ordinary_of_printable (hp : printable isPrint c) (hq : c ≠ '"') (hb : c ≠ '\\') :
    ∀ b ∈ encodeRune c, Ordinary b := by
  intro b hmem
  by_cases hc : c.toNat < 0x80
  · rw [encodeRune_ascii hc, mem_singleton] at hmem
    rw [printable, if_pos hc, decide_eq_true_eq] at hp
    have hbyte : b.toNat = c.toNat := by rw [hmem, UInt8.toNat_ofNat_of_lt' (Nat.lt_trans hc (by decide))]
    have hne : ∀ e : Char, c ≠ e → c.toNat ≠ e.toNat := fun e he h => he (Char.toNat_inj.mp h)
    rw [← hbyte] at hne hp
    exact ordinary_of_toNat hp.1 (hne _ hq) (hne _ hb) (by omega)
  · have hge := UInt8.le_iff_toNat_le.mp (ge_of_mem_encodeRune (Nat.not_lt.mp hc) hmem)
    change 128 ≤ b.toNat at hge
    exact ordinary_of_toNat (by omega) (by omega) (by omega) (by omega)

theorem char_lt (c : Char) : c.toNat < 0x110000 := by
  have h : c.toNat.isValidChar := c.valid
  unfold Nat.isValidChar at h
  omega

theorem run_escapeRune (h : Plain c) :
    State.run ⟨.string slot acc, t, d⟩ (escapeRune isPrint c ++ v) =
      State.run ⟨.string slot (acc ++ encodeRune c), t, d⟩ v := by
  have heq : ∀ e : Char, c.toNat = e.toNat → c = e := fun e => Char.toNat_inj.mp
  obtain hmem | ⟨hlo, hdel⟩ := h
  · simp only [mem_cons, not_mem_nil, or_false] at hmem
    obtain hn | hn | hn | hn | hn := hmem
    · rw [heq '\x08' hn]; rfl
    · rw [heq '\t' hn]; rfl
    · rw [heq '\n' hn]; rfl
    · rw [heq '\x0c' hn]; rfl
    · rw [heq '\r' hn]; rfl
  by_cases hq : c = '"'
  · rw [hq]; rfl
  by_cases hb : c = '\\'
  · rw [hb]; rfl
  by_cases hp : printable isPrint c
  · rw [escapeRune, if_neg hq, if_neg hb, if_pos hp]
    exact run_string_bytes (ordinary_of_printable hp hq hb)
  -- beyond ASCII, so none of the escapes for a single character
  have hge : 0x80 ≤ c.toNat := by
    by_contra hc
    exact hp (by rw [printable, if_pos (Nat.not_le.mp hc)]; exact decide_eq_true ⟨hlo, by omega⟩)
  have hmax : c.toNat < 16 ^ 8 := Nat.lt_trans (char_lt c) (by decide)
  rw [escapeRune, if_neg hq, if_neg hb, if_neg hp]
  iterate 7 rw [if_neg (by omega)]
  rw [if_neg (by omega)]
  by_cases hw : c.toNat < 0x10000
  · rw [if_pos hw]
    exact run_unicode_rune 3 hw
  · rw [if_neg hw]
    exact run_unicode_rune 7 hmax

theorem run_hex_escape : State.run ⟨.string slot acc, t, d⟩ (lit "\\x" ++ v) = none := rfl

theorem run_escapeRune_of_not (h : ¬ Plain c) :
    State.run ⟨.string slot acc, t, d⟩ (escapeRune isPrint c ++ v) = none := by
  have hnot : ∀ e : Char, Plain e → c ≠ e := by
    rintro e he rfl
    exact h he
  simp only [Plain, mem_cons, not_mem_nil, or_false, not_or, not_and, not_not] at h
  obtain ⟨⟨h8, h9, ha, hc, hd⟩, hdel⟩ := h
  have hp : ¬ printable isPrint c := by
    rw [printable, if_pos (by omega), decide_eq_true_eq]
    omega
  rw [escapeRune, if_neg (hnot '"' (by decide)), if_neg (hnot '\\' (by decide)), if_neg hp]
  by_cases h7 : c.toNat = 0x07
  · rw [if_pos h7]; rfl
  rw [if_neg h7, if_neg h8, if_neg hc, if_neg ha, if_neg hd, if_neg h9]
  by_cases hb : c.toNat = 0x0b
  · rw [if_pos hb]; rfl
  rw [if_neg hb, if_pos (by omega), append_assoc]
  exact run_hex_escape

theorem run_escape {s' : State} (s acc : Str) :
    State.run ⟨.string slot acc, t, d⟩ (escape isPrint 0 s ++ byte '"' :: v) = some s' ↔
      Quotable s ∧ ∃ s₁, (State.mk .rest t d).close slot (acc ++ s) = some s₁ ∧ s₁.run v = some s' := by
  induction s using rune_induction generalizing acc with
  | nil =>
    rw [append_nil]
    simp only [quotable_nil, true_and]
    exact bind_eq_some_iff
  | rune c s ih =>
    rw [escape_rune, append_assoc, quotable_rune]
    by_cases hc : Plain c
    · rw [run_escapeRune hc, ih, append_assoc]
      simp only [hc, true_and]
    · rw [run_escapeRune_of_not hc]
      simp only [hc, false_and, reduceCtorEq]
  | invalid b s hb =>
    rw [escape_invalid hb, append_assoc, append_assoc, run_hex_escape]
    simp only [not_quotable_of_invalid hb, false_and, reduceCtorEq]

end

/-! ## Values -/

section

variable {isPrint : Char → Bool} {key t v : Str} {d : Doc} {s' : State}

theorem run_rest {val : Value} :
    (∃ s₁, (State.mk .rest t d).define key val .rest = some s₁ ∧ s₁.run (newline :: v) = some s') ↔
      ∃ s₁, (State.mk .rest t d).define key val .line = some s₁ ∧ s₁.run v = some s' := by
  unfold State.define
  split
  · simp only [reduceCtorEq, false_and, exists_false]
  · simp only [Option.some.injEq, exists_eq_left']
    rfl

theorem run_element (items : List Str) (x : Str) :
    State.run ⟨.items key items, t, d⟩ (quote isPrint x ++ v) = some s' ↔
      Quotable x ∧ State.run ⟨.comma key (items ++ [x]), t, d⟩ v = some s' := by
  rw [quote, append_assoc, cons_append, singleton_append]
  change State.run ⟨.string (.element key items) [], t, d⟩ _ = _ ↔ _
  rw [run_escape]
  simp only [State.close, nil_append, Option.some.injEq, exists_eq_left']

theorem run_elements (items : List Str) (x : Str) (xs : List Str) :
    State.run ⟨.items key items, t, d⟩ ((lit ", ").intercalate ((x :: xs).map (quote isPrint)) ++ byte ']' :: v) = some s' ↔
      (∀ y ∈ x :: xs, Quotable y) ∧
        ∃ s₁, (State.mk .rest t d).define key (.strs (items ++ x :: xs)) .rest = some s₁ ∧ s₁.run v = some s' := by
  induction xs generalizing items x with
  | nil =>
    rw [map_singleton, intercalate_singleton, run_element, forall_mem_singleton]
    exact and_congr_right fun _ => bind_eq_some_iff
  | cons y xs ih =>
    rw [map_cons, map_cons, intercalate_cons_cons, append_assoc, append_assoc, run_element,
      forall_mem_cons, and_assoc]
    refine and_congr_right fun _ => ?_
    have h := ih (items ++ [x]) y
    rw [append_assoc, singleton_append] at h
    exact h

theorem run_block (items xs : List Str) :
    State.run ⟨.items key items, t, d⟩
        (xs.flatMap (fun x => lit "    " ++ quote isPrint x ++ [byte ',', newline]) ++ byte ']' :: v) = some s' ↔
      (∀ x ∈ xs, Quotable x) ∧
        ∃ s₁, (State.mk .rest t d).define key (.strs (items ++ xs)) .rest = some s₁ ∧ s₁.run v = some s' := by
  induction xs generalizing items with
  | nil =>
    rw [append_nil]
    simp only [not_mem_nil, false_imp_iff, implies_true, true_and]
    exact bind_eq_some_iff
  | cons x xs ih =>
    rw [flatMap_cons, append_assoc, append_assoc, append_assoc]
    change State.run ⟨.items key items, t, d⟩ (quote isPrint x ++ _) = _ ↔ _
    rw [run_element, forall_mem_cons, and_assoc]
    refine and_congr_right fun _ => ?_
    have h := ih (items ++ [x])
    rw [append_assoc, singleton_append] at h
    exact h

/-! A number or a boolean -/

theorem run_bare_bytes {acc u : Str} (h : ∀ b ∈ u, Bare b) :
    State.run ⟨.bare key acc, t, d⟩ (u ++ v) = State.run ⟨.bare key (acc ++ u), t, d⟩ v :=
  State.run_collect (.bare key) (fun _ _ hb => if_pos hb) acc h

theorem not_bare_newline : ¬ Bare newline := by decide

theorem run_bare {u : Str} {val : Value} (hne : u ≠ []) (h : ∀ b ∈ u, Bare b) (hval : bareValue u = some val) :
    State.run ⟨.value key, t, d⟩ (u ++ newline :: v) = some s' ↔
      ∃ s₁, (State.mk .rest t d).define key val .line = some s₁ ∧ s₁.run v = some s' := by
  obtain ⟨b, u, rfl⟩ := exists_cons_of_ne_nil hne
  have hb : Bare b := h b mem_cons_self
  have hblank : ¬ Blank b := by
    rintro (rfl | rfl) <;> exact absurd hb (by decide)
  have hq : b ≠ byte '"' := by
    rintro rfl
    exact absurd hb (by decide)
  have hopen : b ≠ byte '[' := by
    rintro rfl
    exact absurd hb (by decide)
  rw [cons_append, State.run_cons, State.step]
  simp only [if_neg hblank, if_neg hq, if_neg hopen, hb, true_or, if_true, bind_some]
  rw [run_bare_bytes fun x hx => h x (mem_cons_of_mem _ hx), singleton_append, State.run_cons, State.step]
  simp only [if_neg not_bare_newline, if_true, State.endBare, hval, bind_some]
  exact bind_eq_some_iff

theorem bare_of_digit {b : UInt8} (h : 48 ≤ b ∧ b ≤ 57) : Bare b := .inr (.inr (.inl h))

theorem bare_of_mem_itoa {n : Int} {b : UInt8} (h : b ∈ itoa n) : Bare b := by
  cases n with
  | ofNat n => exact bare_of_digit (decimal_mem h)
  | negSucc n =>
    obtain rfl | h := mem_cons.mp h
    · decide
    · exact bare_of_digit (decimal_mem h)

theorem itoa_ne_nil (n : Int) : itoa n ≠ [] := by
  cases n with
  | ofNat n => exact decimal_ne_nil n
  | negSucc n => exact cons_ne_nil _ _

theorem bareValue_itoa (n : Int) : bareValue (itoa n) = some (.int n) := by
  have hne : ∀ b ∈ itoa n, Numeral b := fun b => itoa_mem
  rw [bareValue, if_neg, if_neg, parseInt_itoa]
  · rfl
  · intro h
    exact absurd (hne (byte 'f') (by rw [h]; decide)) (by decide)
  · intro h
    exact absurd (hne (byte 't') (by rw [h]; decide)) (by decide)

theorem run_value (val : Value) :
    State.run ⟨.value key, t, d⟩ (val.text isPrint ++ newline :: v) = some s' ↔
      (∀ x ∈ val.strings, Quotable x) ∧
        ∃ s₁, (State.mk .rest t d).define key val .line = some s₁ ∧ s₁.run v = some s' := by
  cases val with
  | str s =>
    rw [Value.text, quote, append_assoc, cons_append, singleton_append]
    change State.run ⟨.string (.value key) [], t, d⟩ _ = _ ↔ _
    rw [run_escape, nil_append, Value.strings, forall_mem_singleton]
    exact and_congr_right fun _ => run_rest
  | int n =>
    rw [Value.text, run_bare (itoa_ne_nil n) (fun b => bare_of_mem_itoa) (bareValue_itoa n)]
    simp [Value.strings]
  | bool b =>
    have hread : ∀ w : Bool, let u := if w then lit "true" else lit "false"
        u ≠ [] ∧ (∀ x ∈ u, Bare x) ∧ bareValue u = some (.bool w) := by decide +kernel
    obtain ⟨hne, hbare, hval⟩ := hread b
    rw [Value.text, run_bare hne hbare hval]
    simp [Value.strings]
  | strs l =>
    cases l with
    | nil =>
      simp only [Value.strings, not_mem_nil, false_imp_iff, implies_true, true_and]
      rw [← run_rest]
      change State.run ⟨.items key [], t, d⟩ (byte ']' :: newline :: v) = _ ↔ _
      exact bind_eq_some_iff
    | cons x xs =>
      rw [Value.text, append_assoc, cons_append, singleton_append]
      change State.run ⟨.items key [], t, d⟩ _ = _ ↔ _
      rw [run_elements, nil_append, run_rest, Value.strings]

end

/-! ## Lines -/

section

variable {isPrint : Char → Bool} {t v : Str} {d : Doc} {s' : State}

theorem run_comment_bytes {u : Str} (h : ∀ b ∈ u, ¬ Control b ∧ b ≠ newline) :
    State.run ⟨.comment, t, d⟩ (u ++ v) = State.run ⟨.comment, t, d⟩ v := by
  induction u with
  | nil => rfl
  | cons b u ih =>
    obtain ⟨hc, hn⟩ := h b mem_cons_self
    rw [cons_append, State.run_cons, State.step]
    simp only [if_neg hn, if_neg hc, bind_some]
    exact ih fun x hx => h x (mem_cons_of_mem _ hx)

theorem run_header_bytes {acc u : Str} (h : ∀ b ∈ u, Bare b) :
    State.run ⟨.header acc, t, d⟩ (u ++ v) = State.run ⟨.header (acc ++ u), t, d⟩ v :=
  State.run_collect .header (fun _ _ hb => if_pos hb) acc h

theorem run_key_bytes {acc u : Str} (h : ∀ b ∈ u, Bare b) :
    State.run ⟨.key acc, t, d⟩ (u ++ v) = State.run ⟨.key (acc ++ u), t, d⟩ v :=
  State.run_collect .key (fun _ _ hb => if_pos hb) acc h

theorem run_key {key : Str} (hne : key ≠ []) (h : ∀ b ∈ key, Bare b) :
    State.run ⟨.line, t, d⟩ (key ++ (lit " = " ++ v)) = State.run ⟨.value key, t, d⟩ v := by
  obtain ⟨b, u, rfl⟩ := exists_cons_of_ne_nil hne
  have hb : Bare b := h b mem_cons_self
  have hblank : ¬ (b = newline ∨ Blank b) := by
    rintro (rfl | rfl | rfl) <;> exact absurd hb (by decide)
  have hhash : b ≠ byte '#' := by
    rintro rfl
    exact absurd hb (by decide)
  have hopen : b ≠ byte '[' := by
    rintro rfl
    exact absurd hb (by decide)
  rw [cons_append, State.run_cons, State.step]
  simp only [if_neg hblank, if_neg hhash, if_neg hopen, if_pos hb, bind_some]
  rw [run_key_bytes fun x hx => h x (mem_cons_of_mem _ hx)]
  rfl

theorem run_line (l : Line) (hl : l.WF) :
    State.run ⟨.line, t, d⟩ (l.text isPrint ++ v) = some s' ↔
      (∀ x ∈ l.strings, Quotable x) ∧ ∃ s₁, l.read ⟨.line, t, d⟩ = some s₁ ∧ s₁.run v = some s' := by
  cases l with
  | comment u =>
    rw [Line.text, append_assoc, cons_append]
    change State.run ⟨.comment, t, d⟩ _ = _ ↔ _
    rw [run_comment_bytes hl]
    simp [Line.strings, Line.read]
    rfl
  | blank =>
    simp [Line.strings, Line.read]
    rfl
  | header name =>
    obtain ⟨hne, hbare⟩ := hl
    have hclose : ¬ Bare (byte ']') := by decide
    rw [Line.text, append_assoc, cons_append]
    change State.run ⟨.header [], t, d⟩ _ = _ ↔ _
    rw [run_header_bytes hbare, nil_append, cons_append, State.run_cons, State.step]
    simp only [if_neg hclose, hne, ne_eq, not_false_eq_true, and_self, if_true, Line.strings, not_mem_nil,
      false_imp_iff, implies_true, true_and, Line.read]
    unfold State.openTable
    split
    · simp only [bind_none, map_none, reduceCtorEq, false_and, exists_false]
    · simp only [bind_some, map_some, Option.some.injEq, exists_eq_left']
      rfl
  | entry key val =>
    rw [Line.text, append_assoc, append_assoc, append_assoc, run_key hl.1 hl.2, singleton_append,
      run_value]
    rfl
  | block key items =>
    rw [Line.text, append_assoc, append_assoc, append_assoc, append_assoc, run_key hl.1 hl.2]
    change State.run ⟨.items key [], t, d⟩ (_ ++ byte ']' :: newline :: v) = _ ↔ _
    rw [run_block, nil_append, run_rest]
    rfl

theorem define_eq_some {s : State} {key : Str} {val : Value} {m : Mode} :
    s.define key val m = some s' ↔ (s.table, key) ∉ s.doc.entries.map Prod.fst ∧
      s' = ⟨m, s.table, { s.doc with entries := s.doc.entries ++ [((s.table, key), val)] }⟩ := by
  unfold State.define
  split <;> simp_all [eq_comm]

theorem read_mode {l : Line} {s s₁ : State} (hs : s.mode = .line) (h : l.read s = some s₁) : s₁.mode = .line := by
  cases l with
  | comment u =>
    rw [Line.read, Option.some.injEq] at h
    rw [← h, hs]
  | blank =>
    rw [Line.read, Option.some.injEq] at h
    rw [← h, hs]
  | header name =>
    obtain ⟨s₂, -, rfl⟩ := map_eq_some_iff.mp h
    rfl
  | entry key val =>
    obtain ⟨-, rfl⟩ := define_eq_some.mp h
    rfl
  | block key items =>
    obtain ⟨-, rfl⟩ := define_eq_some.mp h
    rfl

theorem run_text {ls : List Line} (hls : ∀ l ∈ ls, l.WF) {s : State} (hs : s.mode = .line) :
    s.run (text isPrint ls) = some s' ↔
      (∀ l ∈ ls, ∀ x ∈ l.strings, Quotable x) ∧ ls.foldlM (fun s l => l.read s) s = some s' := by
  induction ls generalizing s with
  | nil => simp [text, State.run]
  | cons l ls ih =>
    obtain ⟨m, t, d⟩ := s
    obtain rfl : m = .line := hs
    rw [text, flatMap_cons, run_line l (hls l mem_cons_self), forall_mem_cons, and_assoc]
    refine and_congr_right fun _ => ?_
    rw [foldlM_cons, bind_eq_bind, bind_eq_some_iff, ← exists_and_left]
    refine exists_congr fun s₁ => ?_
    rw [and_left_comm]
    refine and_congr_right fun hread => ?_
    exact ih (fun x hx => hls x (mem_cons_of_mem _ hx)) (read_mode rfl hread)

end

/-! ## A file with one table -/

section

variable {isPrint : Char → Bool} {t : Str} {d : Doc} {s' : State}

def Line.item : Line → Option (Str × Value)
  | .entry key val => some (key, val)
  | .block key items => some (key, .strs items)
  | _ => none

theorem read_of_item {l : Line} {s : State} {kv : Str × Value} (h : l.item = some kv) :
    l.read s = s.define kv.1 kv.2 .line := by
  cases l <;> cases h <;> rfl

theorem strings_of_item {l : Line} {kv : Str × Value} (h : l.item = some kv) : l.strings = kv.2.strings := by
  cases l <;> cases h <;> rfl

variable {κ : Type*} {keyName : κ → Str} {line : κ × Value → Line}

theorem foldlM_read (hline : ∀ kv, (line kv).item = some (keyName kv.1, kv.2)) (kvs : List (κ × Value)) :
    (kvs.map line).foldlM (fun s l => l.read s) (State.mk .line t d) = some s' ↔
      (∀ kv ∈ kvs, (t, keyName kv.1) ∉ d.entries.map Prod.fst) ∧ (kvs.map fun kv => keyName kv.1).Nodup ∧
        s' = ⟨.line, t, { d with entries := d.entries ++ kvs.map fun kv => ((t, keyName kv.1), kv.2) }⟩ := by
  induction kvs generalizing d with
  | nil => simp [eq_comm]
  | cons kv kvs ih =>
    rw [map_cons, foldlM_cons, read_of_item (hline kv), bind_eq_bind, bind_eq_some_iff]
    simp only [define_eq_some, and_assoc, exists_and_left, exists_eq_left, ih, map_cons, nodup_cons,
      forall_mem_cons, map_append, map_nil, mem_append, mem_singleton, Prod.mk.injEq,
      true_and, not_or, append_assoc, singleton_append, List.mem_map, not_exists, not_and]
    refine and_congr_right fun _ => ?_
    constructor
    · rintro ⟨hnew, hnd, hs⟩
      exact ⟨fun x hx => (hnew x hx).1, fun x hx => (hnew x hx).2, hnd, hs⟩
    · rintro ⟨hnew, hkv, hnd, hs⟩
      exact ⟨fun x hx => ⟨hnew x hx, hkv x hx⟩, hnd, hs⟩

theorem foldlM_comments {ls : List Line} (h : ∀ l ∈ ls, ∀ s : State, l.read s = some s) (s : State) :
    ls.foldlM (fun s l => l.read s) s = some s := by
  induction ls with
  | nil => rfl
  | cons l ls ih =>
    rw [foldlM_cons, h l mem_cons_self, bind_eq_bind, bind_some]
    exact ih fun x hx => h x (mem_cons_of_mem _ hx)

theorem parse_table {intro : List Line} {name : Str} {kvs : List (κ × Value)} {doc : Doc}
    (hintro : ∀ l ∈ intro, l.strings = [] ∧ ∀ s : State, l.read s = some s)
    (hline : ∀ kv, (line kv).item = some (keyName kv.1, kv.2)) (hwf : ∀ l ∈ intro ++ .header name :: kvs.map line, l.WF) :
    parse (text isPrint (intro ++ .header name :: kvs.map line)) = some doc ↔
      (∀ kv ∈ kvs, ∀ x ∈ kv.2.strings, Quotable x) ∧ (kvs.map fun kv => keyName kv.1).Nodup ∧
        doc = ⟨[name], kvs.map fun kv => ((name, keyName kv.1), kv.2)⟩ := by
  have hstr : (∀ l ∈ intro ++ .header name :: kvs.map line, ∀ x ∈ l.strings, Quotable x) ↔
      ∀ kv ∈ kvs, ∀ x ∈ kv.2.strings, Quotable x := by
    have hnone : ∀ l ∈ intro, ∀ x ∈ l.strings, Quotable x := by
      intro l hl x hx
      rw [(hintro l hl).1] at hx
      cases hx
    simp only [forall_mem_append, forall_mem_cons, List.forall_mem_map, strings_of_item (hline _)]
    exact ⟨fun h => h.2.2, fun h => ⟨hnone, forall_mem_nil _, h⟩⟩
  have hfold : ∀ s, (intro ++ .header name :: kvs.map line).foldlM (fun s l => l.read s) ({} : State) = some s ↔
      (kvs.map fun kv => keyName kv.1).Nodup ∧
        s = ⟨.line, name, ⟨[name], kvs.map fun kv => ((name, keyName kv.1), kv.2)⟩⟩ := by
    intro s
    rw [foldlM_append, foldlM_comments fun l hl => (hintro l hl).2]
    exact (foldlM_read hline kvs).trans (and_iff_right fun k _ => not_mem_nil)
  rw [parse, bind_eq_some_iff]
  constructor
  · rintro ⟨s, hrun, hdoc⟩
    obtain ⟨hq, hs⟩ := (run_text hwf rfl).mp hrun
    obtain ⟨hnd, rfl⟩ := (hfold s).mp hs
    exact ⟨hstr.mp hq, hnd, (Option.some.inj hdoc).symm⟩
  · rintro ⟨hq, hnd, rfl⟩
    exact ⟨_, (run_text hwf rfl).mpr ⟨hstr.mpr hq, (hfold _).mpr ⟨hnd, rfl⟩⟩, rfl⟩

end

end Toml
