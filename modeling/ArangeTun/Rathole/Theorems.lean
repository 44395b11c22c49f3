import ArangeTun.Rathole.Lemmas.Routing

/-! # Where the data connections of a closed control channel end -/

namespace ArangeTun.Rathole

open Go Transition

variable {s s' : State} {c ch v : Nat} {conn : Conn} {x : Channel}

def State.Drained (s : State) (ch : Nat) : Prop := ∀ x ∈ s.channels[ch]?, x.dataCh.buf = [] ∨ s.Waited ch

/-- When the visitor stops waiting, its control channel is open, has at most `left` connections, or another visitor
waits for it. -/
def State.Relieved (s : State) (v left : Nat) : Prop :=
  ∀ pc ∈ s.visitors[v]?, ∀ ch ∈ pc.channel, ∀ x ∈ s.channels[ch]?,
    x.closed = false ∨ x.dataCh.buf.length ≤ left ∨ (s.setVisitor v .returned).Waited ch

/-- Nothing happens after which a data connection is left in `dataCh` and nobody waits for it. -/
def Drains (s : State) : Action → Prop
  | .publish _ => ∀ ch ∈ s.current, s.Drained ch
  | .close ch => s.Drained ch
  | .send c => ∀ conn ∈ s.conns[c]?, ∀ ch ∈ conn.router.offered, ∀ x ∈ s.channels[ch]?,
      x.closed = false ∨ s.Waited ch
  | .receive v => s.Relieved v 1
  | .giveUp v => s.Relieved v 0
  | _ => True

instance (s : State) (ch : Nat) : Decidable (s.Drained ch) :=
  inferInstanceAs (Decidable (∀ x ∈ s.channels[ch]?, _))

instance (s : State) (v left : Nat) : Decidable (s.Relieved v left) :=
  inferInstanceAs (Decidable (∀ pc ∈ s.visitors[v]?, ∀ ch ∈ pc.channel, ∀ x ∈ s.channels[ch]?, _))

instance (s : State) : (a : Action) → Decidable (Drains s a)
  | .publish _ => inferInstanceAs (Decidable (∀ ch ∈ s.current, s.Drained ch))
  | .close ch => inferInstanceAs (Decidable (s.Drained ch))
  | .send c => inferInstanceAs (Decidable (∀ conn ∈ s.conns[c]?, ∀ ch ∈ conn.router.offered, ∀ x ∈ s.channels[ch]?, _))
  | .receive v => inferInstanceAs (Decidable (s.Relieved v 1))
  | .giveUp v => inferInstanceAs (Decidable (s.Relieved v 0))
  | .retire _ | .arrive _ | .route _ | .refuse _ | .visit | .seek _ | .finish _ => isTrue trivial

/-- A closed control channel with data connections in `dataCh` has a visitor that waits for one. -/
def Attended (s : State) : Prop :=
  ∀ (ch : Nat) (x : Channel), s.channels[ch]? = some x → x.closed = true → x.dataCh.buf ≠ [] → s.Waited ch

theorem State.Waited.setVisitor {pc pc' : VisitorPc} (h : s.Waited ch) (hv : s.visitors[v]? = some pc)
    (hpc : pc ≠ .waiting ch) : (s.setVisitor v pc').Waited ch := by
  obtain ⟨y, hy, rfl⟩ := exists_mem_set (b := pc') hv (fun heq => absurd heq.symm hpc) ⟨_, h, rfl⟩
  exact hy

theorem State.Waited.of_returned {pc : VisitorPc} (h : (s.setVisitor v .returned).Waited ch)
    (hv : ∃ old, s.visitors[v]? = some old) : (s.setVisitor v pc).Waited ch := by
  obtain ⟨old, hold⟩ := hv
  have hset : (s.visitors.set v .returned)[v]? = some VisitorPc.returned := getElem?_set_self hold
  have : ((s.setVisitor v .returned).setVisitor v pc).Waited ch := h.setVisitor hset VisitorPc.noConfusion
  simpa only [State.setVisitor, List.set_set] using this

theorem Attended.mono (h : Attended s) (hchannels : s'.channels = s.channels)
    (hwaited : ∀ ch, s.Waited ch → s'.Waited ch) : Attended s' := by
  intro ch x hx hclosed hne
  rw [hchannels] at hx
  exact hwaited ch (h ch x hx hclosed hne)

theorem State.Waited.leave {d : Nat} {pc : VisitorPc} (h : s.Waited d) (hv : s.visitors[v]? = some (.waiting ch))
    (hd : d ≠ ch) : (s.setVisitor v pc).Waited d := by
  apply h.setVisitor hv
  rw [ne_eq, VisitorPc.waiting.injEq]
  exact hd.symm

theorem Attended.giveUp (h : Attended s) (hv : s.visitors[v]? = some (.waiting ch)) (hrelieved : s.Relieved v 0) :
    Attended (s.setVisitor v .returned) := by
  intro d y hy hclosed hne
  by_cases hd : d = ch
  · subst hd
    rcases hrelieved _ hv d rfl y hy with hopen | hfew | hother
    · rw [hopen] at hclosed
      cases hclosed
    · exact absurd (List.length_eq_zero_iff.mp (Nat.le_zero.mp hfew)) hne
    · exact hother
  · exact (h d y hy hclosed hne).leave hv hd

theorem Attended.receive {dataCh : Chan Nat dataChSize} (h : Attended s) (hv : s.visitors[v]? = some (.waiting ch))
    (hrelieved : s.Relieved v 1) (hx : s.channels[ch]? = some x) (hrecv : x.dataCh.tryRecv = some (c, dataCh)) :
    Attended (((s.setChannel ch { x with dataCh }).setConn c conn).setVisitor v (.holding ch c)) := by
  have hwaited {d : Nat} (hd : (s.setVisitor v (.holding ch c)).Waited d) :
      (((s.setChannel ch { x with dataCh }).setConn c conn).setVisitor v (.holding ch c)).Waited d := hd
  intro d y hy hclosed hne
  rcases getElem?_set_cases hy with ⟨rfl, rfl⟩ | ⟨hd, hy⟩
  · rcases hrelieved _ hv ch rfl x hx with hopen | hfew | hother
    · change x.closed = true at hclosed
      rw [hopen] at hclosed
      cases hclosed
    · rw [Chan.tryRecv_eq_some hrecv, List.length_cons] at hfew
      have hzero : dataCh.buf.length = 0 := by omega
      exact absurd (List.length_eq_zero_iff.mp hzero) hne
    · exact hwaited (hother.of_returned ⟨_, hv⟩)
  · exact hwaited ((h d y hy hclosed hne).leave hv (Ne.symm hd))

theorem Attended.publish {key : Str} {current : Option Nat} (h : Attended s)
    (hdrained : ∀ ch ∈ s.current, s.Drained ch) :
    Attended { s with channels := s.closeOld ++ [⟨key, .make, false⟩], current } := by
  intro d y hy hclosed hne
  rcases getElem?_concat_cases hy with hy | ⟨-, rfl⟩
  · obtain ⟨x, hx, -, hdata, hcl⟩ := closeOld_cases hy
    rw [hdata] at hne
    rcases hcl hclosed with hcl | hcurrent
    · exact h d x hx hcl hne
    · exact (hdrained d hcurrent x hx).resolve_left hne
  · cases hclosed

theorem Attended.close (h : Attended s) (hx : s.channels[ch]? = some x) (hdrained : s.Drained ch) :
    Attended (s.setChannel ch { x with closed := true }) := by
  intro d y hy hclosed hne
  rcases getElem?_set_cases hy with ⟨rfl, rfl⟩ | ⟨-, hy⟩
  · exact (hdrained x hx).resolve_left hne
  · exact h d y hy hclosed hne

theorem Attended.send {dataCh : Chan Nat dataChSize} (h : Attended s) (hopen : x.closed = false ∨ s.Waited ch) :
    Attended ((s.setConn c conn).setChannel ch { x with dataCh }) := by
  intro d y hy hclosed hne
  rcases getElem?_set_cases hy with ⟨rfl, rfl⟩ | ⟨-, hy⟩
  · change x.closed = true at hclosed
    rw [hclosed] at hopen
    exact hopen.resolve_left Bool.noConfusion
  · exact h d y hy hclosed hne

theorem Attended.step {a : Action} (h : Attended s) (hc : Drains s a) (hstep : step s a = some s') : Attended s' := by
  cases step_sound hstep with
  | publish => exact h.publish hc
  | close hx => exact h.close hx hc
  | retire | superseded | arrive | offer | reject | refuse => exact h
  | send hconn hrouter hx => exact h.send (hc _ hconn _ (by rw [hrouter]; rfl) _ hx)
  | visit => exact h.mono rfl fun _ hw => List.mem_append_left _ hw
  | seek hv | noClient hv | finish hv => exact h.mono rfl fun _ hw => hw.setVisitor hv VisitorPc.noConfusion
  | receive hv hx hrecv => exact h.receive hv hc hx hrecv
  | giveUp hv => exact h.giveUp hv hc

structure Delivered (s : State) : Prop where
  /-- A visitor is given a connection that presented the key of the visitor's control channel. -/
  matched : ∀ v ch c : Nat, s.visitors[v]? = some (.holding ch c) → ∃ (x : Channel) (conn : Conn),
    s.channels[ch]? = some x ∧ s.conns[c]? = some conn ∧ conn.key = x.key
  /-- Nothing is left of a control channel that is closed and has no visitors any more. -/
  none_left : ∀ (ch : Nat) (x : Channel), s.channels[ch]? = some x → x.closed = true →
    (∀ pc ∈ s.visitors, pc.channel ≠ some ch) → x.dataCh.buf = [] ∧
      ∀ (c : Nat) (conn : Conn), s.conns[c]? = some conn → conn.router = .sent ch → conn.handed = true
  /-- A connection that was not sent to a control channel was closed. -/
  refused : ∀ (c : Nat) (conn : Conn), s.conns[c]? = some conn → conn.router = .refused → conn.closed = true

theorem inv_of_reach {C : State → Action → Prop} (h : Reach step C initial s) : Inv s :=
  h.invariant inv_initial fun _ _ _ hs _ hstep => hs.step hstep

theorem attended_of_reach (h : Reach step Drains initial s) : Attended s := by
  apply h.invariant
  · intro ch x hx
    simp [initial] at hx
  · exact fun _ _ _ hs hc hstep => hs.step hc hstep

theorem Inv.matched (h : Inv s) (hv : s.visitors[v]? = some (.holding ch c)) : ∃ (x : Channel) (conn : Conn),
    s.channels[ch]? = some x ∧ s.conns[c]? = some conn ∧ conn.key = x.key := by
  obtain ⟨key, hch, hconn⟩ := h.held v _ hv ch c rfl
  simp only [State.channelKey, State.connKey, List.getElem?_map, Option.map_eq_some_iff] at hch hconn
  obtain ⟨x, hx, rfl⟩ := hch
  obtain ⟨conn, hc, hkey⟩ := hconn
  exact ⟨x, conn, hx, hc, hkey⟩

theorem delivered_of_drains (h : Reach step Drains initial s) : Delivered s := by
  have hinv := inv_of_reach h
  refine ⟨fun v ch c hv => hinv.matched hv, ?_, hinv.refused⟩
  intro ch x hx hclosed hgone
  have hempty : x.dataCh.buf = [] := by
    by_contra hne
    exact hgone _ (attended_of_reach h ch x hx hclosed hne) rfl
  refine ⟨hempty, fun c conn hc hsent => ?_⟩
  rcases hinv.sent c conn hc ch hsent with hhanded | ⟨y, hy, hmem⟩
  · exact hhanded
  · rw [hx, Option.some.injEq] at hy
    rw [← hy, hempty] at hmem
    cases hmem

/-- A control channel is replaced while its visitor waits, and its data connection arrives late. -/
def attendedTakeover : List Action :=
  [.publish (lit "k"), .visit, .seek 0, .arrive (lit "k"), .route 0, .publish (lit "l"), .send 0, .receive 0,
    .arrive (lit "k"), .route 1, .finish 0]

theorem delivered_attendedTakeover : ∃ s, Reach step Drains initial s ∧
    (s.channels.map (fun x => (x.closed, x.dataCh.buf)) = [(true, []), (false, [])] ∧
      s.conns.map (fun conn => (conn.handed, conn.closed)) = [(true, true), (false, true)]) ∧ Delivered s := by
  have hrun : ∃ s, Reach step Drains initial s ∧
      (s.channels.map (fun x => (x.closed, x.dataCh.buf)) = [(true, []), (false, [])] ∧
        s.conns.map (fun conn => (conn.handed, conn.closed)) = [(true, true), (false, true)]) :=
    exists_reach attendedTakeover (by decide +kernel)
  obtain ⟨s, hreach, hs⟩ := hrun
  exact ⟨s, hreach, hs, delivered_of_drains hreach⟩

def warmTakeover : List Action := [.publish (lit "k"), .arrive (lit "k"), .route 0, .send 0, .publish (lit "l")]

/-- The data connection is left in the `dataCh` of the closed control channel, which no visitor reads any more. -/
theorem warm_connection_stranded : ∃ s, Reach step Any initial s ∧
    (s.channels.map (fun x => (x.closed, x.dataCh.buf)) = [(true, [0]), (false, [])] ∧ s.visitors = [] ∧
      s.conns = [⟨lit "k", .sent 0, false, false⟩]) :=
  exists_reach warmTakeover (by decide +kernel)

end ArangeTun.Rathole
