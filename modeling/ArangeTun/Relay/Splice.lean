import ArangeTun.Relay.Copy
import ArangeTun.Transition.Run

/-!
# The zero-copy relay

`spliceRelay` of internal/utils/handlers/splice_linux.go, and `transferData`, which falls back to the buffered copy.
-/

namespace ArangeTun.Relay

open Go Transition List Option

def spliceChunk : Nat := 2 ^ 20

inductive SpliceEvent
  -- `SyscallConn` of both sockets and `Pipe2`
  | setup (ok : Bool)
  -- EINTR, or EAGAIN and a wait that ends well
  | retry
  -- splice(2) fails, or the wait for the socket does
  | fail (err : Error)
  -- from the source into the pipe
  | drain (data : Str)
  -- from the pipe into the destination
  | pump (n : Nat)
  deriving DecidableEq

inductive SplicePc
  | starting
  | draining
  | pumping
  | returned (handled : Bool) (err : Option Error)
  deriving DecidableEq

/-- `pipe` is what the kernel has in the pipe, and `inPipe` what the loop counts. -/
structure Splice where
  pc : SplicePc
  handled : Bool
  inPipe : Nat
  pipe : Str
  taken : Str
  delivered : Str
  chunks : List Nat
  deriving DecidableEq

def Splice.init : Splice := ⟨.starting, false, 0, [], [], [], []⟩

def Splice.return (s : Splice) (handled : Bool) (err : Option Error) : Splice :=
  { s with pc := .returned handled err }

def spliceStep (s : Splice) : SpliceEvent → Option Splice
  | .setup ok =>
    if s.pc = .starting then
      if ok then some { s with pc := .draining } else some (s.return false none)
    else none
  | .retry =>
    match s.pc with
    | .draining | .pumping => some s
    | _ => none
  | .fail err =>
    match s.pc with
    | .draining => if s.handled then some (s.return true (some err)) else some (s.return false none)
    | .pumping => some (s.return true (some err))
    | _ => none
  | .drain data =>
    if s.pc = .draining ∧ data.length ≤ spliceChunk then
      -- nothing to read means that the source is at its end
      if data = [] then some (s.return true none)
      else
        some { s with
          pc := .pumping, handled := true, inPipe := data.length
          pipe := s.pipe ++ data, taken := s.taken ++ data }
    else none
  | .pump n =>
    if s.pc = .pumping ∧ n ≤ s.inPipe ∧ n ≤ s.pipe.length then
      if n = 0 then some (s.return true (some .unexpectedEOF))
      else
        some { s with
          pc := if s.inPipe - n = 0 then .draining else .pumping
          inPipe := s.inPipe - n, pipe := s.pipe.drop n
          delivered := s.delivered ++ s.pipe.take n, chunks := s.chunks ++ [n] }
    else none

/-! ## `transferData` -/

inductive TransferAction
  | splice (e : SpliceEvent)
  | copy (e : TransferEvent)
  | close
  deriving DecidableEq

inductive Ending
  | open
  | fromClosed
  | returned
  deriving DecidableEq

/-- One direction of a connection, with what the kernel and the buffered copy have moved. -/
structure Transfer where
  splice : Option Splice
  copy : Option TransferPc
  copyTaken : Str
  copyDelivered : Str
  ending : Ending
  deriving DecidableEq

def Transfer.taken (t : Transfer) : Str :=
  match t.splice with
  | some s => s.taken ++ t.copyTaken
  | none => t.copyTaken

def Transfer.delivered (t : Transfer) : Str :=
  match t.splice with
  | some s => s.delivered ++ t.copyDelivered
  | none => t.copyDelivered

def uncount : Conn → Conn × Bool
  | .countedConn conn => (conn, true)
  | conn => (conn, false)

def isTCPConn : Conn → Bool
  | .tcpConn _ _ => true
  | .udpFlow _ _ | .limitedConn _ | .countedConn _ => false

def spliceable (zeroCopy : Bool) (src dst : Conn) : Bool :=
  zeroCopy && isTCPConn (uncount src).1 && isTCPConn (uncount dst).1

def Transfer.start (zeroCopy : Bool) (src dst : Conn) : Transfer :=
  if spliceable zeroCopy src dst then ⟨some .init, none, [], [], .open⟩ else ⟨none, some .reading, [], [], .open⟩

def Transfer.done (t : Transfer) : Bool :=
  match t.copy with
  | some (.readFailed _) | some (.writeFailed _) => true
  | some .reading | some (.writing _) => false
  | none =>
    match t.splice with
    | some s =>
      match s.pc with
      | .returned _ _ => true
      | .starting | .draining | .pumping => false
    | none => false

def Transfer.step (t : Transfer) : TransferAction → Option Transfer
  | .splice e =>
    match t.splice, t.copy with
    | some s, none => do
        let s' ← spliceStep s e
        some { t with
          splice := some s'
          copy := match s'.pc with
            | .returned false _ => some .reading
            | _ => none }
    | _, _ => none
  | .copy e =>
    match t.copy with
    | some pc => do
        let r ← transferStep pc e
        some { t with copy := some r.2, copyTaken := t.copyTaken ++ e.data, copyDelivered := t.copyDelivered ++ r.1 }
    | none => none
  | .close =>
    if t.done then
      match t.ending with
      | .open => some { t with ending := .fromClosed }
      | .fromClosed => some { t with ending := .returned }
      | .returned => none
    else none

/-! ## What `spliceRelay` moves -/

namespace Splice

/-- No step takes a byte out of the order, and the pipe is empty whenever the source is read. -/
structure Inv (s : Splice) : Prop where
  stream : s.delivered ++ s.pipe = s.taken
  counted : s.chunks.sum = s.delivered.length
  pumping : s.pc = .pumping → s.handled = true ∧ s.inPipe = s.pipe.length
  empty : (s.pc = .starting ∨ s.pc = .draining ∨ ∃ handled, s.pc = .returned handled none) → s.pipe = []
  untouched : (s.handled = false ∨ s.pc = .starting ∨ ∃ err, s.pc = .returned false err) → s.taken = []

theorem inv_init : Inv .init where
  stream := rfl
  counted := rfl
  pumping h := by cases h
  empty _ := rfl
  untouched _ := rfl

variable {s s' : Splice} {e : SpliceEvent}

theorem Inv.return {handled : Bool} {err : Option Error} (h : Inv s) (hempty : err = none → s.pipe = [])
    (htaken : handled = false → s.taken = []) : Inv (s.return handled err) where
  stream := h.stream
  counted := h.counted
  pumping hpc := by cases hpc
  empty hpc := by
    rcases hpc with hpc | hpc | ⟨_, hpc⟩
    · cases hpc
    · cases hpc
    · cases hpc
      exact hempty rfl
  untouched hpc := by
    rcases hpc with hpc | hpc | ⟨_, hpc⟩
    · exact h.untouched (.inl hpc)
    · cases hpc
    · cases hpc
      exact htaken rfl

theorem Inv.drain {data : Str} (h : Inv s) (hpc : s.pc = .draining) :
    Inv { s with
      pc := .pumping, handled := true, inPipe := data.length, pipe := s.pipe ++ data, taken := s.taken ++ data } where
  stream := by
    simp only
    rw [← append_assoc, h.stream]
  counted := h.counted
  pumping _ := by
    simp [h.empty (.inr (.inl hpc))]
  empty hpc := by
    rcases hpc with hpc | hpc | ⟨_, hpc⟩ <;> cases hpc
  untouched hpc := by
    rcases hpc with hpc | hpc | ⟨_, hpc⟩ <;> cases hpc

theorem Inv.pump {n : Nat} (h : Inv s) (hpc : s.pc = .pumping) (hle : n ≤ s.inPipe) :
    Inv { s with
      pc := if s.inPipe - n = 0 then .draining else .pumping
      inPipe := s.inPipe - n, pipe := s.pipe.drop n
      delivered := s.delivered ++ s.pipe.take n, chunks := s.chunks ++ [n] } where
  stream := by
    simp only
    rw [append_assoc, take_append_drop, h.stream]
  counted := by
    have := (h.pumping hpc).2
    simp only [sum_append, sum_cons, sum_nil, length_append, length_take, h.counted]
    omega
  pumping _ := by
    obtain ⟨hhandled, hlen⟩ := h.pumping hpc
    simp [hhandled, hlen]
  empty hpc' := by
    simp only at hpc'
    split at hpc'
    · rename_i hzero
      rw [(h.pumping hpc).2] at hzero
      exact drop_eq_nil_of_le (by omega)
    · rcases hpc' with hpc' | hpc' | ⟨_, hpc'⟩ <;> cases hpc'
  untouched hpc' := by
    rcases hpc' with hpc' | hpc' | ⟨_, hpc'⟩
    · simp only [(h.pumping hpc).1] at hpc'
      cases hpc'
    · simp only at hpc'
      split at hpc' <;> cases hpc'
    · simp only at hpc'
      split at hpc' <;> cases hpc'

theorem Inv.step (h : Inv s) (hstep : spliceStep s e = some s') : Inv s' := by
  cases e with
  | setup ok =>
    obtain ⟨hpc, hstep⟩ := ite_none_right_eq_some.mp hstep
    have hempty := h.empty (.inl hpc)
    have htaken := h.untouched (.inr (.inl hpc))
    split at hstep
    · cases hstep
      exact ⟨h.stream, h.counted, fun hpc' => (nomatch hpc'), fun _ => hempty, fun _ => htaken⟩
    · cases hstep
      exact h.return (fun _ => hempty) fun _ => htaken
  | retry =>
    simp only [spliceStep] at hstep
    split at hstep
    · cases hstep
      exact h
    · cases hstep
      exact h
    · cases hstep
  | fail err =>
    simp only [spliceStep] at hstep
    split at hstep
    · rename_i hpc
      split at hstep
      · cases hstep
        exact h.return (fun herr => by cases herr) fun hhandled => by cases hhandled
      · rename_i hhandled
        cases hstep
        exact h.return (fun _ => h.empty (.inr (.inl hpc)))
          fun _ => h.untouched (.inl (Bool.not_eq_true _ ▸ hhandled))
    · cases hstep
      exact h.return (fun herr => by cases herr) fun hhandled => by cases hhandled
    · cases hstep
  | drain data =>
    obtain ⟨⟨hpc, -⟩, hstep⟩ := ite_none_right_eq_some.mp hstep
    split at hstep
    · cases hstep
      exact h.return (fun _ => h.empty (.inr (.inl hpc))) fun hhandled => by cases hhandled
    · cases hstep
      exact h.drain hpc
  | pump n =>
    obtain ⟨⟨hpc, hle, -⟩, hstep⟩ := ite_none_right_eq_some.mp hstep
    split at hstep
    · cases hstep
      exact h.return (fun herr => by cases herr) fun hhandled => by cases hhandled
    · cases hstep
      exact h.pump hpc hle

/-- A refusal has consumed nothing, what was delivered is the start of what was taken, and all of it after a normal end,
and it is what `onChunk` was told. -/
structure Exact (s : Splice) : Prop where
  refused : ∀ err, s.pc = .returned false err → s.taken = [] ∧ s.delivered = []
  ordered : s.delivered <+: s.taken
  whole : s.pc = .returned true none → s.delivered = s.taken
  counted : s.chunks.sum = s.delivered.length

theorem Inv.exact (h : Inv s) : s.Exact where
  refused err hpc := by
    have htaken := h.untouched (.inr (.inr ⟨err, hpc⟩))
    have hstream := h.stream
    rw [htaken, append_eq_nil_iff] at hstream
    exact ⟨htaken, hstream.1⟩
  ordered := ⟨s.pipe, h.stream⟩
  whole hpc := by
    have hstream := h.stream
    rwa [h.empty (.inr (.inr ⟨true, hpc⟩)), append_nil] at hstream
  counted := h.counted

end Splice

/-! ## The fallback -/

namespace Transfer

def PlainReads (_ : Transfer) : TransferAction → Prop
  | .copy e => e.lost = []
  | .splice _ | .close => True

instance (t : Transfer) : (a : TransferAction) → Decidable (PlainReads t a)
  | .copy e => inferInstanceAs (Decidable (e.lost = []))
  | .splice _ | .close => isTrue trivial

def Finished (t : Transfer) : Prop :=
  (∃ s, t.splice = some s ∧ s.pc = .returned true none) ∨ ∃ err, t.copy = some (.readFailed err)

structure Inv (t : Transfer) : Prop where
  spliced : ∀ s, t.splice = some s → s.Inv
  moving : t.copy = none → t.copyTaken = [] ∧ t.copyDelivered = []
  fallback : ∀ pc s, t.copy = some pc → t.splice = some s → ∃ err, s.pc = .returned false err
  copied : ∀ pc, t.copy = some pc → (∀ err, pc ≠ .writeFailed err) → t.copyDelivered ++ pc.pending = t.copyTaken
  failed : t.copyDelivered <+: t.copyTaken

variable {t t' : Transfer} {zeroCopy : Bool} {src dst : Conn}

theorem inv_start (zeroCopy : Bool) (src dst : Conn) : Inv (.start zeroCopy src dst) := by
  unfold start
  split
  · refine ⟨?_, fun _ => ⟨rfl, rfl⟩, fun _ _ hcopy => (nomatch hcopy), fun _ hcopy => (nomatch hcopy), prefix_rfl⟩
    intro s hs
    cases hs
    exact Splice.inv_init
  · refine ⟨fun _ hs => (nomatch hs), fun _ => ⟨rfl, rfl⟩, fun _ _ _ hs => (nomatch hs), ?_, prefix_rfl⟩
    intro _ hcopy _
    cases hcopy
    rfl

theorem Inv.splice {s s' : Splice} {e : SpliceEvent} (h : Inv t) (hs : t.splice = some s) (hcopy : t.copy = none)
    (hstep : spliceStep s e = some s') : Inv { t with
      splice := some s'
      copy := match s'.pc with
        | .returned false _ => some .reading
        | _ => none } := by
  obtain ⟨htaken, hdelivered⟩ := h.moving hcopy
  refine ⟨?_, fun _ => ⟨htaken, hdelivered⟩, ?_, ?_, h.failed⟩
  · intro s₁ hs₁
    cases hs₁
    exact (h.spliced s hs).step hstep
  · intro pc s₁ hpc hs₁
    cases hs₁
    simp only at hpc
    split at hpc
    · rename_i err herr
      exact ⟨err, herr⟩
    · cases hpc
  · intro pc hpc _
    simp only at hpc ⊢
    split at hpc
    · cases hpc
      rw [htaken, hdelivered]
      rfl
    · cases hpc

theorem Inv.copy {pc pc' : TransferPc} {e : TransferEvent} {out : Str} (h : Inv t) (hpc : t.copy = some pc)
    (hlost : e.lost = []) (hstep : transferStep pc e = some (out, pc')) : Inv { t with
      copy := some pc', copyTaken := t.copyTaken ++ e.data, copyDelivered := t.copyDelivered ++ out } := by
  have hlive : ∀ err, pc ≠ .writeFailed err := by
    rintro err rfl
    cases hstep
  have hbefore := h.copied pc hpc hlive
  refine ⟨h.spliced, fun hcopy => (nomatch hcopy), fun _ s _ hs => h.fallback pc s hpc hs, ?_, ?_⟩
  · intro pc₁ hpc₁ hwrite
    cases hpc₁
    rcases transferStep_pending hstep with ⟨err, rfl⟩ | hpending
    · exact absurd rfl (hwrite err)
    · rw [hlost, append_nil] at hpending
      simp only
      rw [append_assoc, ← hpending, ← append_assoc, hbefore]
  · simp only
    rw [← hbefore, append_assoc]
    exact (prefix_append_right_inj _).mpr (transferStep_out hstep)

theorem Inv.step {a : TransferAction} (h : Inv t) (hc : PlainReads t a) (hstep : t.step a = some t') : Inv t' := by
  cases a with
  | splice e =>
    simp only [Transfer.step] at hstep
    split at hstep
    · rename_i s hs hcopy
      obtain ⟨s', hs', hstep⟩ := bind_eq_some_iff.mp hstep
      cases hstep
      exact h.splice hs hcopy hs'
    · cases hstep
  | copy e =>
    simp only [Transfer.step] at hstep
    split at hstep
    · rename_i pc hpc
      obtain ⟨r, hr, hstep⟩ := bind_eq_some_iff.mp hstep
      cases hstep
      exact h.copy hpc hc hr
    · cases hstep
  | close =>
    obtain ⟨-, hstep⟩ := ite_none_right_eq_some.mp hstep
    split at hstep
    · cases hstep
      exact ⟨h.spliced, h.moving, h.fallback, h.copied, h.failed⟩
    · cases hstep
      exact ⟨h.spliced, h.moving, h.fallback, h.copied, h.failed⟩
    · cases hstep

/-- Each byte taken from the source is delivered once, in order, until a write fails. -/
structure OnceEach (t : Transfer) : Prop where
  ordered : t.delivered <+: t.taken
  whole : t.Finished → t.delivered = t.taken

theorem Inv.splice_exact {s : Splice} (h : Inv t) (hs : t.splice = some s) :
    (t.copyTaken = [] ∧ t.copyDelivered = []) ∨ (s.taken = [] ∧ s.delivered = []) := by
  cases hcopy : t.copy with
  | none => exact .inl (h.moving hcopy)
  | some pc =>
    obtain ⟨err, hpc⟩ := h.fallback pc s hcopy hs
    exact .inr ((h.spliced s hs).exact.refused err hpc)

theorem Inv.ordered (h : Inv t) : t.delivered <+: t.taken := by
  unfold delivered taken
  cases hs : t.splice with
  | none => exact h.failed
  | some s =>
    simp only
    rcases h.splice_exact hs with ⟨htaken, hdelivered⟩ | ⟨htaken, hdelivered⟩
    · rw [htaken, hdelivered, append_nil, append_nil]
      exact (h.spliced s hs).exact.ordered
    · rw [htaken, hdelivered]
      exact h.failed

theorem Inv.whole (h : Inv t) (hfinished : t.Finished) : t.delivered = t.taken := by
  unfold delivered taken
  rcases hfinished with ⟨s, hs, hpc⟩ | ⟨err, hcopy⟩
  · rw [hs]
    simp only
    cases hcopy : t.copy with
    | none =>
      obtain ⟨htaken, hdelivered⟩ := h.moving hcopy
      rw [htaken, hdelivered, (h.spliced s hs).exact.whole hpc]
    | some pc =>
      obtain ⟨err, hrefused⟩ := h.fallback pc s hcopy hs
      rw [hpc] at hrefused
      cases hrefused
  · have hcopied := h.copied _ hcopy fun _ => TransferPc.noConfusion
    rw [TransferPc.pending_readFailed, append_nil] at hcopied
    cases hs : t.splice with
    | none => exact hcopied
    | some s =>
      obtain ⟨err', hrefused⟩ := h.fallback _ s hcopy hs
      obtain ⟨htaken, hdelivered⟩ := (h.spliced s hs).exact.refused err' hrefused
      simp only
      rw [htaken, hdelivered, hcopied]

end Transfer

variable {zeroCopy : Bool} {src dst : Conn} {s : Splice} {t : Transfer}

/-- Any outcomes of the pipe and of the calls of splice(2), and any fallback after them. -/
theorem zeroCopy_exact (hs : Reach spliceStep Any .init s)
    (ht : Reach Transfer.step Transfer.PlainReads (.start zeroCopy src dst) t) : s.Exact ∧ t.OnceEach := by
  have hsplice : s.Inv := hs.invariant Splice.inv_init fun _ _ _ h _ hstep => h.step hstep
  have htransfer : t.Inv := ht.invariant (Transfer.inv_start zeroCopy src dst) fun _ _ _ h hc hstep => h.step hc hstep
  exact ⟨hsplice.exact, htransfer.ordered, htransfer.whole⟩

def twoPumps : List SpliceEvent :=
  [.setup true, .retry, .drain (lit "hello"), .pump 2, .retry, .pump 3, .drain []]

def refusal : List TransferAction :=
  [.splice (.setup true), .splice (.fail (.other (lit "invalid argument"))), .copy (.read (lit "hello") none),
    .copy (.write 5 none), .copy (.read [] (some .eof)), .close, .close]

theorem zeroCopy_exact_refusal : ∃ s t, Reach spliceStep Any .init s ∧
    (s.pc = .returned true none ∧ s.delivered = lit "hello" ∧ s.chunks = [2, 3]) ∧
    Reach Transfer.step Transfer.PlainReads
      (.start true (.tcpConn (.tcp [] 0) (.tcp [] 0)) (.countedConn (.tcpConn (.tcp [] 0) (.tcp [] 0)))) t ∧
    (t.ending = .returned ∧ t.delivered = lit "hello") ∧ s.Exact ∧ t.OnceEach := by
  have hsplice : ∃ s, Reach spliceStep Any .init s ∧
      (s.pc = .returned true none ∧ s.delivered = lit "hello" ∧ s.chunks = [2, 3]) :=
    exists_reach twoPumps (by decide)
  have htransfer : ∃ t, Reach Transfer.step Transfer.PlainReads
      (.start true (.tcpConn (.tcp [] 0) (.tcp [] 0)) (.countedConn (.tcpConn (.tcp [] 0) (.tcp [] 0)))) t ∧
      (t.ending = .returned ∧ t.delivered = lit "hello") :=
    exists_reach refusal (by decide)
  obtain ⟨s, hs, hspliced⟩ := hsplice
  obtain ⟨t, ht, htransferred⟩ := htransfer
  exact ⟨s, t, hs, hspliced, ht, htransferred, zeroCopy_exact hs ht⟩

end ArangeTun.Relay
