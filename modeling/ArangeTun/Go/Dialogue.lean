import ArangeTun.Go.Reader
import ArangeTun.Transition.Run

/-!
# Sequential code over a connection

`Proc ε σ ρ` is a goroutine that talks over one connection: it reads with `io.ReadFull`, writes, and calls out of the
connection (`ε` names the call). It ends with a result `ρ`, or hands the connection on as a byte stream (`σ` says to
whom). What it does is a list of labels, and `Ensures p input Q` is about all of them: as long as what arrives is a
beginning of `input`, the labels and where it stands meet `Q`. A `Dialogue` joins two such goroutines.
-/

namespace Go

open List Option

inductive Proc (ε σ ρ : Type)
  | ret (r : ρ)
  | stream (t : σ)
  | readFull (n : Nat) (k : Except Error Str → Proc ε σ ρ)
  | write (b : Str) (k : Option Error → Proc ε σ ρ)
  | call (e : ε) (k : Bool → Proc ε σ ρ)

/-- What a goroutine does in one step. -/
inductive Label (ε : Type)
  | read (data : Str)
  | readFails (part : Str) (err : Error)
  | write (b : Str)
  | writeFails (part : Str) (err : Error)
  | call (e : ε) (ok : Bool)
  | put (b : Str)
  | take (b : Str)
  deriving DecidableEq

namespace Proc

variable {ε σ ρ τ : Type}

def bind : Proc ε σ ρ → (ρ → Proc ε σ τ) → Proc ε σ τ
  | ret r, f => f r
  | stream t, _ => stream t
  | readFull n k, f => readFull n fun x => (k x).bind f
  | write b k, f => write b fun x => (k x).bind f
  | call e k, f => call e fun x => (k x).bind f

instance : Monad (Proc ε σ) where
  pure := ret
  bind := bind

protected theorem bind_pure (p : Proc ε σ ρ) : p.bind ret = p := by
  induction p with
  | ret r => rfl
  | stream t => rfl
  | readFull n k ih => exact congrArg (readFull n) (funext ih)
  | write b k ih => exact congrArg (write b) (funext ih)
  | call e k ih => exact congrArg (call e) (funext ih)

protected theorem bind_assoc {υ : Type} (p : Proc ε σ ρ) (f : ρ → Proc ε σ τ) (g : τ → Proc ε σ υ) :
    (p.bind f).bind g = p.bind fun r => (f r).bind g := by
  induction p with
  | ret r => rfl
  | stream t => rfl
  | readFull n k ih => exact congrArg (readFull n) (funext ih)
  | write b k ih => exact congrArg (write b) (funext ih)
  | call e k ih => exact congrArg (call e) (funext ih)

instance : LawfulMonad (Proc ε σ) :=
  .mk' _ Proc.bind_pure (fun _ _ => rfl) Proc.bind_assoc

def handedTo : Proc ε σ ρ → Option σ
  | stream t => some t
  | _ => none

@[simp] theorem handedTo_stream (t : σ) : (stream t : Proc ε σ ρ).handedTo = some t := rfl

@[simp] theorem handedTo_pure (r : ρ) : (pure r : Proc ε σ ρ).handedTo = none := rfl

def step [DecidableEq ε] : Proc ε σ ρ → Label ε → Option (Proc ε σ ρ)
  | readFull n k, .read data => if data.length = n then some (k (.ok data)) else none
  | readFull n k, .readFails part err => if part.length < n then some (k (.error err)) else none
  | write b k, .write b' => if b' = b then some (k none) else none
  | write b k, .writeFails part err => if part <+: b then some (k (some err)) else none
  | call e k, .call e' ok => if e' = e then some (k ok) else none
  | stream t, .put _ => some (stream t)
  | stream t, .take _ => some (stream t)
  | _, _ => none

end Proc

namespace Conn

variable {ε σ : Type}

def readFull (n : Nat) : Proc ε σ (Except Error Str) := .readFull n .ret

def write (b : Str) : Proc ε σ (Option Error) := .write b .ret

def call (e : ε) : Proc ε σ Bool := .call e .ret

variable {ρ : Type}

@[simp] theorem handedTo_readFull (n : Nat) (f : Except Error Str → Proc ε σ ρ) :
    (readFull n >>= f).handedTo = none := rfl

@[simp] theorem handedTo_write (b : Str) (f : Option Error → Proc ε σ ρ) : (write b >>= f).handedTo = none := rfl

end Conn

/-! ## What the labels have moved -/

namespace Label

variable {ε : Type}

def received : Label ε → Str
  | read data => data
  | readFails part _ => part
  | take b => b
  | _ => []

def sent : Label ε → Str
  | write b => b
  | writeFails part _ => part
  | put b => b
  | _ => []

@[simp] theorem sent_read (data : Str) : (read data : Label ε).sent = [] := rfl

@[simp] theorem sent_readFails (part : Str) (err : Error) : (readFails part err : Label ε).sent = [] := rfl

@[simp] theorem sent_write (b : Str) : (write b : Label ε).sent = b := rfl

@[simp] theorem sent_call (e : ε) (ok : Bool) : (call e ok).sent = [] := rfl

@[simp] theorem received_read (data : Str) : (read data : Label ε).received = data := rfl

@[simp] theorem received_write (b : Str) : (write b : Label ε).received = [] := rfl

@[simp] theorem received_call (e : ε) (ok : Bool) : (call e ok).received = [] := rfl

def isWriteFails : Label ε → Bool
  | writeFails _ _ => true
  | _ => false

@[simp] theorem isWriteFails_read (data : Str) : (read data : Label ε).isWriteFails = false := rfl

@[simp] theorem isWriteFails_readFails (part : Str) (err : Error) :
    (readFails part err : Label ε).isWriteFails = false := rfl

@[simp] theorem isWriteFails_write (b : Str) : (write b : Label ε).isWriteFails = false := rfl

@[simp] theorem isWriteFails_call (e : ε) (ok : Bool) : (call e ok).isWriteFails = false := rfl

def isRaw : Label ε → Bool
  | put _ | take _ => true
  | _ => false

@[simp] theorem isRaw_read (data : Str) : (read data : Label ε).isRaw = false := rfl

@[simp] theorem isRaw_write (b : Str) : (write b : Label ε).isRaw = false := rfl

@[simp] theorem isRaw_call (e : ε) (ok : Bool) : (call e ok).isRaw = false := rfl

def called? : Label ε → Option ε
  | call e _ => some e
  | _ => none

end Label

section

variable {ε : Type}

def received (ls : List (Label ε)) : Str := ls.flatMap Label.received

def sent (ls : List (Label ε)) : Str := ls.flatMap Label.sent

def calls (ls : List (Label ε)) : List ε := ls.filterMap Label.called?

def taken (ls : List (Label ε)) : Str := received (ls.filter Label.isRaw)

def given (ls : List (Label ε)) : Str := sent (ls.filter Label.isRaw)

def WritesAll (ls : List (Label ε)) : Prop := ∀ l ∈ ls, l.isWriteFails = false

instance (ls : List (Label ε)) : Decidable (WritesAll ls) := inferInstanceAs (Decidable (∀ l ∈ ls, _))

/-- Labels of the time before the connection is handed on. -/
def Quiet (ls : List (Label ε)) : Prop := ∀ l ∈ ls, l.isRaw = false

def Traffic (ls : List (Label ε)) : Prop := ∀ l ∈ ls, l.isRaw = true

variable {l : Label ε} {ls : List (Label ε)}

@[simp] theorem received_nil : received ([] : List (Label ε)) = [] := rfl

@[simp] theorem sent_nil : sent ([] : List (Label ε)) = [] := rfl

@[simp] theorem calls_nil : calls ([] : List (Label ε)) = [] := rfl

@[simp] theorem received_cons : received (l :: ls) = l.received ++ received ls := flatMap_cons

@[simp] theorem sent_cons : sent (l :: ls) = l.sent ++ sent ls := flatMap_cons

theorem calls_cons (h : l.called? = none) : calls (l :: ls) = calls ls := filterMap_cons_none h

@[simp] theorem calls_read (data : Str) : calls (.read data :: ls) = calls ls := rfl

@[simp] theorem calls_readFails (part : Str) (err : Error) : calls (.readFails part err :: ls) = calls ls := rfl

@[simp] theorem calls_write (b : Str) : calls (.write b :: ls) = calls ls := rfl

@[simp] theorem calls_call (e : ε) (ok : Bool) : calls (.call e ok :: ls) = e :: calls ls := rfl

@[simp] theorem writesAll_cons : WritesAll (l :: ls) ↔ l.isWriteFails = false ∧ WritesAll ls := forall_mem_cons

theorem calls_append (ls ls' : List (Label ε)) : calls (ls ++ ls') = calls ls ++ calls ls' := filterMap_append

theorem sent_append (ls ls' : List (Label ε)) : sent (ls ++ ls') = sent ls ++ sent ls' := flatMap_append

theorem writesAll_append (ls ls' : List (Label ε)) : WritesAll (ls ++ ls') ↔ WritesAll ls ∧ WritesAll ls' :=
  forall_mem_append

theorem received_append (ls ls' : List (Label ε)) : received (ls ++ ls') = received ls ++ received ls' :=
  flatMap_append

@[simp] theorem quiet_nil : Quiet ([] : List (Label ε)) := forall_mem_nil _

@[simp] theorem quiet_cons : Quiet (l :: ls) ↔ l.isRaw = false ∧ Quiet ls := forall_mem_cons

@[simp] theorem quiet_append {ls' : List (Label ε)} : Quiet (ls ++ ls') ↔ Quiet ls ∧ Quiet ls' :=
  forall_mem_append

theorem Traffic.calls (h : Traffic ls) : calls ls = [] := by
  refine filterMap_eq_nil_iff.mpr fun l hl => ?_
  have hraw := h l hl
  cases l <;> simp_all [Label.isRaw, Label.called?]

theorem filter_isRaw_append {raw : List (Label ε)} (h : Quiet ls) (hraw : Traffic raw) :
    (ls ++ raw).filter Label.isRaw = raw := by
  rw [filter_append, filter_eq_nil_iff.mpr (by simpa [Quiet] using h), filter_eq_self.mpr hraw,
    nil_append]

end

/-! ## Rules for what a goroutine has done so far -/

namespace Proc

variable {ε σ ρ : Type} [DecidableEq ε] {input : Str} {Q : List (Label ε) → Proc ε σ ρ → Prop}

def Ensures (p : Proc ε σ ρ) (input : Str) (Q : List (Label ε) → Proc ε σ ρ → Prop) : Prop :=
  ∀ ls p', Transition.run step p ls = some p' → received ls <+: input → Q ls p'

theorem Ensures.intro {p : Proc ε σ ρ} (hnil : Q [] p)
    (hcons : ∀ l p₁, step p l = some p₁ → l.received <+: input →
      Ensures p₁ (input.drop l.received.length) fun ls => Q (l :: ls)) :
    Ensures p input Q := by
  intro ls p' hrun hin
  cases ls with
  | nil =>
    simp only [Transition.run, Option.some.injEq] at hrun
    subst hrun
    exact hnil
  | cons l ls =>
    simp only [Transition.run, bind_eq_some_iff] at hrun
    obtain ⟨p₁, hstep, hrest⟩ := hrun
    rw [received_cons] at hin
    have hl : l.received <+: input := (prefix_append ..).trans hin
    refine hcons l p₁ hstep hl ls p' hrest ?_
    obtain ⟨rest, rfl⟩ := hl
    simpa using hin

theorem Ensures.pure {r : ρ} (h : Q [] (Pure.pure r)) : Ensures (Pure.pure r) input Q :=
  .intro h fun l p₁ hstep => by cases l <;> simp [Pure.pure, step] at hstep

theorem Ensures.of_forall {p : Proc ε σ ρ} (h : ∀ ls p', Q ls p') : Ensures p input Q := fun ls p' _ _ => h ls p'

theorem run_stream {t : σ} {ls : List (Label ε)} {p' : Proc ε σ ρ}
    (h : Transition.run step (.stream t) ls = some p') : Traffic ls ∧ p' = .stream t := by
  induction ls with
  | nil =>
    simp only [Transition.run, Option.some.injEq] at h
    exact ⟨by simp [Traffic], h.symm⟩
  | cons l ls ih =>
    cases l <;> simp only [Transition.run, step, bind_none, bind_some, reduceCtorEq] at h
    all_goals simpa [Traffic, Label.isRaw] using ih h

theorem Ensures.stream {t : σ} (h : ∀ ls, Traffic ls → Q ls (.stream t)) :
    Ensures (.stream t) input Q := by
  intro ls p' hrun _
  obtain ⟨hraw, rfl⟩ := run_stream hrun
  exact h ls hraw

theorem Ensures.readFull {n : Nat} {f : Except Error Str → Proc ε σ ρ} (hwait : Q [] (Conn.readFull n >>= f))
    (hok : ∀ data rest, input = data ++ rest → data.length = n →
      Ensures (f (.ok data)) rest fun ls => Q (.read data :: ls))
    (hfail : ∀ part err rest, Ensures (f (.error err)) rest fun ls => Q (.readFails part err :: ls)) :
    Ensures (Conn.readFull n >>= f) input Q := by
  refine .intro hwait fun l p₁ hstep hl => ?_
  cases l <;> simp only [Conn.readFull, Bind.bind, Proc.bind, step, ite_none_right_eq_some, Option.some.injEq,
    reduceCtorEq] at hstep
  case read data =>
    obtain ⟨hlen, rfl⟩ := hstep
    obtain ⟨rest, rfl⟩ := hl
    simpa [Label.received] using hok data rest rfl hlen
  case readFails part err =>
    obtain ⟨_, rfl⟩ := hstep
    exact hfail part err _

theorem Ensures.readFull_append {n : Nat} {known rest : Str} {f : Except Error Str → Proc ε σ ρ}
    (hknown : known.length = n) (hwait : Q [] (Conn.readFull n >>= f))
    (hfail : ∀ part err rest, Ensures (f (.error err)) rest fun ls => Q (.readFails part err :: ls))
    (hok : Ensures (f (.ok known)) rest fun ls => Q (.read known :: ls)) :
    Ensures (Conn.readFull n >>= f) (known ++ rest) Q := by
  refine .readFull hwait (fun data rest' hin hlen => ?_) hfail
  obtain ⟨rfl, rfl⟩ := append_inj hin (hknown.trans hlen.symm)
  exact hok

theorem Ensures.write {b : Str} {f : Option Error → Proc ε σ ρ} (hwait : Q [] (Conn.write b >>= f))
    (hok : Ensures (f none) input fun ls => Q (.write b :: ls))
    (hfail : ∀ part err, Ensures (f (some err)) input fun ls => Q (.writeFails part err :: ls)) :
    Ensures (Conn.write b >>= f) input Q := by
  refine .intro hwait fun l p₁ hstep hl => ?_
  cases l <;> simp only [Conn.write, Bind.bind, Proc.bind, step, ite_none_right_eq_some, Option.some.injEq,
    reduceCtorEq] at hstep
  case write b' =>
    obtain ⟨rfl, rfl⟩ := hstep
    exact hok
  case writeFails part err =>
    obtain ⟨_, rfl⟩ := hstep
    exact hfail part err

theorem Ensures.write_ {b : Str} {p : Proc ε σ ρ} (hwait : Q [] (Conn.write b >>= fun _ => p))
    (h : ∀ l, l = .write b ∨ l.isWriteFails = true → l.called? = none → l.received = [] →
      Ensures p input fun ls => Q (l :: ls)) :
    Ensures (Conn.write b >>= fun _ => p) input Q :=
  .write hwait (h _ (.inl rfl) rfl rfl) fun _ _ => h _ (.inr rfl) rfl rfl

theorem Ensures.write_pure {b : Str} {r : ρ} (hwait : ∀ p, Q [] p)
    (h : ∀ l, l = .write b ∨ l.isWriteFails = true → l.called? = none → Q [l] (Pure.pure r)) :
    Ensures (Conn.write b >>= fun _ => Pure.pure r) input Q :=
  .write_ (hwait _) fun l hl hcalled _ => .pure (h l hl hcalled)

theorem Ensures.call {e : ε} {f : Bool → Proc ε σ ρ} (hwait : Q [] (Conn.call e >>= f))
    (h : ∀ ok, Ensures (f ok) input fun ls => Q (.call e ok :: ls)) : Ensures (Conn.call e >>= f) input Q := by
  refine .intro hwait fun l p₁ hstep hl => ?_
  cases l <;> simp only [Conn.call, Bind.bind, Proc.bind, step, ite_none_right_eq_some, Option.some.injEq,
    reduceCtorEq] at hstep
  case call e' ok =>
    obtain ⟨rfl, rfl⟩ := hstep
    exact h ok

end Proc

/-! ## Two goroutines on one connection -/

structure Dialogue (ε σ ρ ε' σ' ρ' : Type) where
  client : Proc ε σ ρ
  server : Proc ε' σ' ρ'
  toServer : Str
  toClient : Str

inductive Move (ε ε' : Type)
  | client (l : Label ε)
  | server (l : Label ε')
  deriving DecidableEq

namespace Dialogue

variable {ε σ ρ ε' σ' ρ' : Type} [DecidableEq ε] [DecidableEq ε']

def start (p : Proc ε σ ρ) (q : Proc ε' σ' ρ') : Dialogue ε σ ρ ε' σ' ρ' :=
  { client := p, server := q, toServer := [], toClient := [] }

def step (d : Dialogue ε σ ρ ε' σ' ρ') : Move ε ε' → Option (Dialogue ε σ ρ ε' σ' ρ')
  | .client l =>
    if l.received <+: d.toClient then
      (d.client.step l).map fun p =>
        { d with
          client := p
          toClient := d.toClient.drop l.received.length
          toServer := d.toServer ++ l.sent }
    else none
  | .server l =>
    if l.received <+: d.toServer then
      (d.server.step l).map fun q =>
        { d with
          server := q
          toServer := d.toServer.drop l.received.length
          toClient := d.toClient ++ l.sent }
    else none

def clientLabels (ms : List (Move ε ε')) : List (Label ε) :=
  ms.filterMap fun
    | .client l => some l
    | .server _ => none

def serverLabels (ms : List (Move ε ε')) : List (Label ε') :=
  ms.filterMap fun
    | .client _ => none
    | .server l => some l

/-- A run of the dialogue is a run of each side, and what one side sent is what the other received and what
is still under way. -/
structure Joined (d d' : Dialogue ε σ ρ ε' σ' ρ') (ms : List (Move ε ε')) : Prop where
  client : Transition.run Proc.step d.client (clientLabels ms) = some d'.client
  server : Transition.run Proc.step d.server (serverLabels ms) = some d'.server
  toServer : d.toServer ++ sent (clientLabels ms) = received (serverLabels ms) ++ d'.toServer
  toClient : d.toClient ++ sent (serverLabels ms) = received (clientLabels ms) ++ d'.toClient

theorem run_joined {d d' : Dialogue ε σ ρ ε' σ' ρ'} {ms : List (Move ε ε')}
    (h : Transition.run step d ms = some d') : Joined d d' ms := by
  induction ms generalizing d with
  | nil =>
    simp only [Transition.run, Option.some.injEq] at h
    subst h
    exact ⟨rfl, rfl, by simp [clientLabels, serverLabels], by simp [clientLabels, serverLabels]⟩
  | cons m ms ih =>
    simp only [Transition.run, bind_eq_some_iff] at h
    obtain ⟨d₁, hstep, hrest⟩ := h
    obtain ⟨hc, hs, hts, htc⟩ := ih hrest
    cases m with
    | client l =>
      obtain ⟨⟨rest, hl⟩, hstep⟩ := ite_none_right_eq_some.mp hstep
      obtain ⟨p, hp, rfl⟩ := map_eq_some_iff.mp hstep
      refine ⟨?_, hs, ?_, ?_⟩
      · exact bind_eq_some_iff.mpr ⟨p, hp, hc⟩
      · simpa [clientLabels, serverLabels] using hts
      · simp only [← hl, drop_left] at htc
        simp only [← hl, clientLabels, serverLabels, filterMap_cons, received_cons, append_assoc] at htc ⊢
        rw [htc]
    | server l =>
      obtain ⟨⟨rest, hl⟩, hstep⟩ := ite_none_right_eq_some.mp hstep
      obtain ⟨q, hq, rfl⟩ := map_eq_some_iff.mp hstep
      refine ⟨hc, ?_, ?_, ?_⟩
      · exact bind_eq_some_iff.mpr ⟨q, hq, hs⟩
      · simp only [← hl, drop_left] at hts
        simp only [← hl, clientLabels, serverLabels, filterMap_cons, received_cons, append_assoc] at hts ⊢
        rw [hts]
      · simpa [clientLabels, serverLabels] using htc

end Dialogue
end Go
