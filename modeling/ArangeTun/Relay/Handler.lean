import ArangeTun.Relay.Splice

/-!
# A forwarded connection

`TCPConnectionHandler` of internal/utils/handlers/tcp_handler.go.
-/

namespace ArangeTun.Relay

open Go Transition List Option

namespace Handler

structure Config where
  proxyProtocol : Bool
  zeroCopy : Bool
  src : Conn
  dst : Conn

inductive MainPc
  | header
  -- the header was not written
  | failing
  | failingTo
  | relaying
  -- in the branch of `ctx.Done()`
  | leaving
  | leavingTo
  | returned
  deriving DecidableEq

/-- `worker` is the goroutine, `own` the handler's call of `transferData`, `header` what `to` took of the PROXY header.
-/
structure State where
  main : MainPc
  header : Str
  worker : Option Transfer
  own : Option Transfer
  fromClosed : Bool
  toClosed : Bool
  cancelled : Bool
  deriving DecidableEq

inductive Action
  | cancel
  -- no header is due, or there is none to write
  | skip
  -- the `Write` of the header
  | header (n : Nat) (err : Option Error)
  | worker (a : TransferAction)
  | own (a : TransferAction)
  | close
  | selectDone
  | selectCancel
  deriving DecidableEq

def initial : State := ⟨.header, [], none, none, false, false, false⟩

def State.spawn (config : Config) (s : State) : State :=
  { s with
    main := .relaying, worker := some (.start config.zeroCopy config.src config.dst)
    own := some (.start config.zeroCopy config.dst config.src) }

def State.ownReturned (s : State) : Bool := s.own.any (·.ending = .returned)

def State.workerReturned (s : State) : Bool := s.worker.any (·.ending = .returned)

def step (config : Config) (s : State) : Action → Option State
  | .cancel => some { s with cancelled := true }
  | .skip =>
    if s.main = .header then
      if config.proxyProtocol then
        match proxyHeader config.src with
        | .error _ => some { s with main := .failing }
        | .ok _ => none
      else some (s.spawn config)
    else none
  | .header n err =>
    if s.main = .header ∧ config.proxyProtocol then
      match proxyHeader config.src with
      | .error _ => none
      | .ok header =>
        if n ≤ header.length then
          match err with
          | none => some ({ s with header := header.take n }.spawn config)
          | some _ => some { s with header := header.take n, main := .failing }
        else none
    else none
  | .worker a => do
      let t ← s.worker
      let t' ← t.step a
      some { s with
        worker := some t'
        fromClosed := s.fromClosed || t'.ending ≠ .open
        toClosed := s.toClosed || t'.ending = .returned }
  | .own a => do
      let t ← s.own
      let t' ← t.step a
      some { s with
        own := some t'
        toClosed := s.toClosed || t'.ending ≠ .open
        fromClosed := s.fromClosed || t'.ending = .returned }
  | .close =>
    match s.main with
    | .failing => some { s with fromClosed := true, main := .failingTo }
    | .failingTo => some { s with toClosed := true, main := .returned }
    | .leaving => some { s with fromClosed := true, main := .leavingTo }
    | .leavingTo => some { s with toClosed := true, main := .returned }
    | _ => none
  | .selectDone =>
    if s.main = .relaying ∧ s.ownReturned ∧ s.workerReturned then some { s with main := .returned } else none
  | .selectCancel =>
    if s.main = .relaying ∧ s.ownReturned ∧ s.cancelled then some { s with main := .leaving } else none

/-! ## What is written -/

def delivers : TransferAction → Nat
  | .copy (.write n _) => n
  | .splice (.pump n) => n
  | _ => 0

/-- `net.Conn`: once a connection is closed, blocked and later writes return an error and write nothing. -/
def RespectsClose (s : State) : Action → Prop
  | .header n _ => s.toClosed = true → n = 0
  | .worker a => s.toClosed = true → delivers a = 0
  | .own a => s.fromClosed = true → delivers a = 0
  | .cancel | .skip | .close | .selectDone | .selectCancel => True

instance (s : State) : (a : Action) → Decidable (RespectsClose s a)
  | .header n _ => inferInstanceAs (Decidable (_ → n = 0))
  | .worker a | .own a => inferInstanceAs (Decidable (_ → delivers a = 0))
  | .cancel | .skip | .close | .selectDone | .selectCancel => isTrue trivial

def State.writtenTo (s : State) : Str := s.header ++ (s.worker.map Transfer.delivered).getD []

def State.writtenFrom (s : State) : Str := (s.own.map Transfer.delivered).getD []

/-- The handler has closed both connections, and whatever of it still runs writes to neither of them. -/
structure TornDown (config : Config) (s : State) : Prop where
  fromClosed : s.fromClosed = true
  toClosed : s.toClosed = true
  silent : ∀ s', Reach (step config) RespectsClose s s' →
    s'.writtenFrom = s.writtenFrom ∧ s'.writtenTo = s.writtenTo

section

variable {config : Config} {s s' : State} {a : Action}

theorem splice_delivered {p p' : Splice} {e : SpliceEvent} (h : spliceStep p e = some p')
    (hzero : delivers (.splice e) = 0) : p'.delivered = p.delivered := by
  cases e with
  | setup ok =>
    obtain ⟨-, h⟩ := ite_none_right_eq_some.mp h
    split at h <;> cases h <;> rfl
  | retry =>
    simp only [spliceStep] at h
    split at h <;> cases h <;> rfl
  | fail err =>
    simp only [spliceStep] at h
    split at h
    · split at h <;> cases h <;> rfl
    · cases h
      rfl
    · cases h
  | drain data =>
    obtain ⟨-, h⟩ := ite_none_right_eq_some.mp h
    split at h <;> cases h <;> rfl
  | pump n =>
    have hn : n = 0 := hzero
    simp only [spliceStep, ite_none_right_eq_some, hn, if_true, Option.some.injEq] at h
    obtain ⟨-, rfl⟩ := h
    rfl

theorem copy_delivered {pc pc' : TransferPc} {e : TransferEvent} {out : Str} (h : transferStep pc e = some (out, pc'))
    (hzero : delivers (.copy e) = 0) : out = [] := by
  cases e with
  | read data err =>
    cases pc <;> cases err <;> simp only [transferStep, Option.some.injEq, Prod.mk.injEq, reduceCtorEq] at h
    · exact h.1.symm
    · exact h.1.symm
  | write n err =>
    have hn : n = 0 := hzero
    subst hn
    cases pc <;> cases err <;> simp only [transferStep, ite_none_right_eq_some, Option.some.injEq,
      Prod.mk.injEq, take_zero, reduceCtorEq] at h
    · exact h.2.1.symm
    · exact h.2.1.symm

theorem transfer_delivered {t t' : Transfer} {a : TransferAction} (h : t.step a = some t') (hzero : delivers a = 0) :
    t'.delivered = t.delivered := by
  cases a with
  | splice e =>
    simp only [Transfer.step] at h
    split at h
    · rename_i p hp _
      obtain ⟨p', hp', h⟩ := bind_eq_some_iff.mp h
      cases h
      simp only [Transfer.delivered, hp, splice_delivered hp' hzero]
    · cases h
  | copy e =>
    simp only [Transfer.step] at h
    split at h
    · obtain ⟨⟨out, pc'⟩, hr, h⟩ := bind_eq_some_iff.mp h
      cases h
      simp only [Transfer.delivered, copy_delivered hr hzero, append_nil]
    · cases h
  | close =>
    obtain ⟨-, h⟩ := ite_none_right_eq_some.mp h
    split at h <;> cases h <;> rfl

theorem start_ending (zeroCopy : Bool) (src dst : Conn) : (Transfer.start zeroCopy src dst).ending = .open := by
  unfold Transfer.start
  split <;> rfl

/-- The handler's own direction closes `to` first, and the handler goes on after it has closed both. -/
structure Inv (s : State) : Prop where
  half : ∀ t, s.own = some t → t.ending ≠ .open → s.toClosed = true
  full : ∀ t, s.own = some t → t.ending = .returned → s.fromClosed = true
  failing : s.main = .failingTo → s.fromClosed = true
  leaving : (s.main = .leaving ∨ s.main = .leavingTo ∨ s.main = .returned) → s.fromClosed = true ∧ s.toClosed = true

theorem inv_initial : Inv initial where
  half _ h := by cases h
  full _ h := by cases h
  failing h := by cases h
  leaving h := by rcases h with h | h | h <;> cases h

theorem inv_spawn : Inv (s.spawn config) where
  half t ht hopen := by
    cases ht
    exact absurd (start_ending ..) hopen
  full t ht hret := by
    cases ht
    rw [start_ending] at hret
    cases hret
  failing hmain := by cases hmain
  leaving hmain := by rcases hmain with hmain | hmain | hmain <;> cases hmain

theorem Inv.ownReturned (h : Inv s) (hown : s.ownReturned = true) : s.fromClosed = true ∧ s.toClosed = true := by
  obtain ⟨t, ht, hret⟩ := (Option.any_eq_true _ _).mp hown
  have hret : t.ending = .returned := of_decide_eq_true hret
  exact ⟨h.full t ht hret, h.half t ht (by rw [hret]; exact Ending.noConfusion)⟩

theorem Inv.step (h : Inv s) (hstep : step config s a = some s') : Inv s' := by
  cases a with
  | cancel =>
    cases hstep
    exact ⟨h.half, h.full, h.failing, h.leaving⟩
  | skip =>
    obtain ⟨-, hstep⟩ := ite_none_right_eq_some.mp hstep
    split at hstep
    · split at hstep
      · cases hstep
        exact ⟨h.half, h.full, fun hmain => (nomatch hmain), fun hmain => by simp at hmain⟩
      · cases hstep
    · cases hstep
      exact inv_spawn
  | header n err =>
    obtain ⟨-, hstep⟩ := ite_none_right_eq_some.mp hstep
    split at hstep
    · cases hstep
    · rw [ite_none_right_eq_some] at hstep
      obtain ⟨-, hstep⟩ := hstep
      split at hstep
      · cases hstep
        exact inv_spawn
      · cases hstep
        exact ⟨h.half, h.full, fun hmain => (nomatch hmain), fun hmain => by simp at hmain⟩
  | worker a =>
    obtain ⟨t, -, hstep⟩ := bind_eq_some_iff.mp hstep
    obtain ⟨t', -, hstep⟩ := bind_eq_some_iff.mp hstep
    cases hstep
    refine ⟨fun t ht hopen => ?_, fun t ht hret => ?_, fun hmain => ?_, fun hmain => ?_⟩
    · simp [h.half t ht hopen]
    · simp [h.full t ht hret]
    · simp [h.failing hmain]
    · simp [h.leaving hmain]
  | own a =>
    obtain ⟨t, -, hstep⟩ := bind_eq_some_iff.mp hstep
    obtain ⟨t', -, hstep⟩ := bind_eq_some_iff.mp hstep
    cases hstep
    refine ⟨fun t ht hopen => ?_, fun t ht hret => ?_, fun hmain => ?_, fun hmain => ?_⟩
    · cases ht
      simp [hopen]
    · cases ht
      simp [hret]
    · simp [h.failing hmain]
    · simp [h.leaving hmain]
  | close =>
    simp only [Handler.step] at hstep
    split at hstep
    · cases hstep
      exact ⟨h.half, fun _ _ _ => rfl, fun _ => rfl, fun hmain => by simp at hmain⟩
    · rename_i hmain
      cases hstep
      exact ⟨fun _ _ _ => rfl, h.full, fun hmain => (nomatch hmain), fun _ => ⟨h.failing hmain, rfl⟩⟩
    · rename_i hmain
      cases hstep
      exact ⟨h.half, fun _ _ _ => rfl, fun hmain => (nomatch hmain), fun _ => ⟨rfl, (h.leaving (.inl hmain)).2⟩⟩
    · rename_i hmain
      cases hstep
      refine ⟨fun _ _ _ => rfl, h.full, fun hmain => (nomatch hmain), fun _ => ⟨?_, rfl⟩⟩
      exact (h.leaving (.inr (.inl hmain))).1
    · cases hstep
  | selectDone =>
    obtain ⟨⟨-, hown, -⟩, rfl⟩ := enabled hstep
    exact ⟨h.half, h.full, fun hmain => (nomatch hmain), fun _ => h.ownReturned hown⟩
  | selectCancel =>
    obtain ⟨⟨-, hown, -⟩, rfl⟩ := enabled hstep
    exact ⟨h.half, h.full, fun hmain => (nomatch hmain), fun _ => h.ownReturned hown⟩

/-- After the return both connections are closed for good, and only the goroutine is left. -/
structure Over (s : State) : Prop where
  main : s.main = .returned
  fromClosed : s.fromClosed = true
  toClosed : s.toClosed = true

theorem Over.step (h : Over s) (hc : RespectsClose s a) (hstep : step config s a = some s') :
    Over s' ∧ s'.writtenFrom = s.writtenFrom ∧ s'.writtenTo = s.writtenTo := by
  have hmain := h.main
  cases a with
  | cancel =>
    cases hstep
    exact ⟨⟨hmain, h.fromClosed, h.toClosed⟩, rfl, rfl⟩
  | skip | header | close | selectDone | selectCancel => simp [Handler.step, hmain] at hstep
  | worker a =>
    simp only [Handler.step, bind_eq_bind, bind_eq_some_iff, Option.some.injEq] at hstep
    obtain ⟨t, ht, t', hstep, rfl⟩ := hstep
    refine ⟨⟨hmain, ?_, ?_⟩, rfl, ?_⟩
    · simp [h.fromClosed]
    · simp [h.toClosed]
    · simp [State.writtenTo, ht, transfer_delivered hstep (hc h.toClosed)]
  | own a =>
    simp only [Handler.step, bind_eq_bind, bind_eq_some_iff, Option.some.injEq] at hstep
    obtain ⟨t, ht, t', hstep, rfl⟩ := hstep
    refine ⟨⟨hmain, ?_, ?_⟩, ?_, rfl⟩
    · simp [h.fromClosed]
    · simp [h.toClosed]
    · simp [State.writtenFrom, ht, transfer_delivered hstep (hc h.fromClosed)]

theorem Over.silent (h : Over s) (hreach : Reach (Handler.step config) RespectsClose s s') :
    s'.writtenFrom = s.writtenFrom ∧ s'.writtenTo = s.writtenTo := by
  have hinv : Over s' ∧ s'.writtenFrom = s.writtenFrom ∧ s'.writtenTo = s.writtenTo := by
    apply hreach.invariant
    · exact ⟨h, rfl, rfl⟩
    · intro s₁ a s₂ ⟨hover, hfrom, hto⟩ hc hstep
      obtain ⟨hover', hfrom', hto'⟩ := hover.step hc hstep
      exact ⟨hover', hfrom'.trans hfrom, hto'.trans hto⟩
  exact hinv.2

end

/-- Any two connections, any outcomes of their reads and writes, and a cancellation at any moment. -/
theorem tornDown_of_returned {config : Config} {s : State} (h : Reach (step config) RespectsClose initial s)
    (hreturned : s.main = .returned) : TornDown config s := by
  have hinv : Inv s := h.invariant inv_initial fun _ _ _ hs _ hstep => hs.step hstep
  obtain ⟨hfrom, hto⟩ := hinv.leaving (.inr (.inr hreturned))
  exact ⟨hfrom, hto, fun _ => Over.silent ⟨hreturned, hfrom, hto⟩⟩

def plainConfig : Config :=
  ⟨true, false, .tcpConn (.tcp [10, 0, 0, 1] 443) (.tcp [10, 0, 0, 2] 5000), .udpFlow (.udp [] 0) (.udp [] 0)⟩

/-- The peer of `to` is gone while the goroutine has bytes of `from` in hand, and the tunnel is shut down. -/
def cancelled : List Action :=
  [.header 28 none, .worker (.copy (.read (lit "hello") none)), .worker (.copy (.write 2 none)),
    .own (.copy (.read [] (some .eof))), .cancel, .own .close, .own .close, .selectCancel, .close, .close]

theorem tornDown_cancelled : ∃ s, Reach (step plainConfig) RespectsClose initial s ∧
    (s.main = .returned ∧ s.worker.map (·.copy) = some (some (.writing (lit "llo")))) ∧ TornDown plainConfig s := by
  have hrun : ∃ s, Reach (step plainConfig) RespectsClose initial s ∧
      (s.main = .returned ∧ s.worker.map (·.copy) = some (some (.writing (lit "llo")))) :=
    exists_reach cancelled (by decide)
  obtain ⟨s, hreach, hs⟩ := hrun
  exact ⟨s, hreach, hs, tornDown_of_returned hreach hs.1⟩

end Handler

end ArangeTun.Relay
