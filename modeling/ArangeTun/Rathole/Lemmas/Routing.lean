import ArangeTun.Rathole.Model
import ArangeTun.Transition.Table

/-! # Which data connections a control channel is given -/

namespace ArangeTun.Rathole

open Go Transition

variable {s s' : State} {c ch v : Nat} {conn : Conn} {x : Channel}

/-! ## What a step can do -/

inductive Step : State → Action → State → Prop
  | publish {s : State} {key : Str} : Step s (.publish key)
      { s with channels := s.closeOld ++ [⟨key, .make, false⟩], current := some s.channels.length }
  | retire {s : State} {ch : Nat} (hcurrent : s.current = some ch) : Step s (.retire ch) { s with current := none }
  | superseded {s : State} {ch : Nat} (hcurrent : s.current ≠ some ch) : Step s (.retire ch) s
  | close {s : State} {ch : Nat} {x : Channel} (hx : s.channels[ch]? = some x) (hcurrent : s.current ≠ some ch) :
      Step s (.close ch) (s.setChannel ch { x with closed := true })
  | arrive {s : State} {key : Str} : Step s (.arrive key) { s with conns := s.conns ++ [⟨key, .looking, false, false⟩] }
  | offer {s : State} {c ch : Nat} {conn : Conn} {x : Channel} (hc : s.conns[c]? = some conn)
      (hrouter : conn.router = .looking) (hcurrent : s.current = some ch) (hx : s.channels[ch]? = some x)
      (hkey : x.key = conn.key) : Step s (.route c) (s.setConn c { conn with router := .offering ch })
  | reject {s : State} {c : Nat} {conn : Conn} (hc : s.conns[c]? = some conn) (hrouter : conn.router = .looking)
      (hkey : ∀ ch ∈ s.current, ∀ x ∈ s.channels[ch]?, x.key ≠ conn.key) :
      Step s (.route c) (s.setConn c { conn with router := .refused, closed := true })
  | send {s : State} {c ch : Nat} {conn : Conn} {x : Channel} {dataCh : Chan Nat dataChSize}
      (hc : s.conns[c]? = some conn) (hrouter : conn.router = .offering ch) (hx : s.channels[ch]? = some x)
      (hsend : x.dataCh.trySend c = some dataCh) :
      Step s (.send c) ((s.setConn c { conn with router := .sent ch }).setChannel ch { x with dataCh })
  | refuse {s : State} {c ch : Nat} {conn : Conn} (hc : s.conns[c]? = some conn)
      (hrouter : conn.router = .offering ch) :
      Step s (.refuse c) (s.setConn c { conn with router := .refused, closed := true })
  | visit {s : State} : Step s .visit { s with visitors := s.visitors ++ [.looking] }
  | seek {s : State} {v ch : Nat} (hv : s.visitors[v]? = some .looking) (hcurrent : s.current = some ch) :
      Step s (.seek v) (s.setVisitor v (.waiting ch))
  | noClient {s : State} {v : Nat} (hv : s.visitors[v]? = some .looking) (hcurrent : s.current = none) :
      Step s (.seek v) (s.setVisitor v .returned)
  | receive {s : State} {v c ch : Nat} {conn : Conn} {x : Channel} {dataCh : Chan Nat dataChSize}
      (hv : s.visitors[v]? = some (.waiting ch)) (hx : s.channels[ch]? = some x)
      (hrecv : x.dataCh.tryRecv = some (c, dataCh)) (hc : s.conns[c]? = some conn) : Step s (.receive v)
        (((s.setChannel ch { x with dataCh }).setConn c { conn with handed := true }).setVisitor v (.holding ch c))
  | giveUp {s : State} {v ch : Nat} (hv : s.visitors[v]? = some (.waiting ch)) :
      Step s (.giveUp v) (s.setVisitor v .returned)
  | finish {s : State} {v c ch : Nat} {conn : Conn} (hv : s.visitors[v]? = some (.holding ch c))
      (hc : s.conns[c]? = some conn) :
      Step s (.finish v) ((s.setConn c { conn with closed := true }).setVisitor v .returned)

theorem step_sound {a : Action} (h : step s a = some s') : Step s a s' := by
  cases a with
  | publish key =>
    cases h
    exact .publish
  | retire ch =>
    simp only [step] at h
    split at h
    · cases h
      exact .retire ‹_›
    · cases h
      exact .superseded ‹_›
  | close ch =>
    simp only [step, Option.bind_eq_bind, Option.bind_eq_some_iff, Option.ite_none_left_eq_some,
      Option.some.injEq] at h
    obtain ⟨x, hx, hcurrent, rfl⟩ := h
    exact .close hx hcurrent
  | arrive key =>
    cases h
    exact .arrive
  | route c =>
    simp only [step, Option.bind_eq_bind, Option.bind_eq_some_iff, Option.ite_none_right_eq_some] at h
    obtain ⟨conn, hc, hrouter, h⟩ := h
    split at h
    · rename_i ch hcurrent
      simp only [Option.bind_eq_some_iff] at h
      obtain ⟨x, hx, h⟩ := h
      split at h
      · cases h
        exact .offer hc hrouter hcurrent hx ‹_›
      · cases h
        refine .reject hc hrouter ?_
        simpa [hcurrent, hx]
    · cases h
      refine .reject hc hrouter ?_
      simp [*]
  | send c =>
    simp only [step, Option.bind_eq_bind, Option.bind_eq_some_iff] at h
    obtain ⟨conn, hc, h⟩ := h
    split at h
    · rename_i ch hrouter
      simp only [Option.bind_eq_some_iff, Option.some.injEq] at h
      obtain ⟨x, hx, dataCh, hsend, rfl⟩ := h
      exact .send hc hrouter hx hsend
    · cases h
  | refuse c =>
    simp only [step, Option.bind_eq_bind, Option.bind_eq_some_iff] at h
    obtain ⟨conn, hc, h⟩ := h
    split at h
    · cases h
      exact .refuse hc ‹_›
    · cases h
  | visit =>
    cases h
    exact .visit
  | seek v =>
    simp only [step, Option.ite_none_right_eq_some] at h
    obtain ⟨hv, h⟩ := h
    split at h
    · cases h
      exact .seek hv ‹_›
    · cases h
      exact .noClient hv ‹_›
  | receive v =>
    simp only [step, Option.bind_eq_bind, Option.bind_eq_some_iff] at h
    obtain ⟨pc, hv, h⟩ := h
    split at h
    · simp only [Option.bind_eq_some_iff, Option.some.injEq] at h
      obtain ⟨x, hx, r, hr, conn, hc, rfl⟩ := h
      exact .receive hv hx hr hc
    · cases h
  | giveUp v =>
    simp only [step, Option.bind_eq_bind, Option.bind_eq_some_iff] at h
    obtain ⟨pc, hv, h⟩ := h
    split at h
    · cases h
      exact .giveUp hv
    · cases h
  | finish v =>
    simp only [step, Option.bind_eq_bind, Option.bind_eq_some_iff] at h
    obtain ⟨pc, hv, h⟩ := h
    split at h
    · simp only [Option.bind_eq_some_iff, Option.some.injEq] at h
      obtain ⟨conn, hc, rfl⟩ := h
      exact .finish hv hc
    · cases h

/-! ## Keys -/

def State.channelKey (s : State) (ch : Nat) : Option Str := (s.channels.map Channel.key)[ch]?

def State.connKey (s : State) (c : Nat) : Option Str := (s.conns.map Conn.key)[c]?

theorem channelKey_of_some (h : s.channels[ch]? = some x) : s.channelKey ch = some x.key := by
  rw [State.channelKey, List.getElem?_map, h, Option.map_some]

theorem connKey_of_some (h : s.conns[c]? = some conn) : s.connKey c = some conn.key := by
  rw [State.connKey, List.getElem?_map, h, Option.map_some]

structure Inv (s : State) : Prop where
  queued : ∀ (ch : Nat) (x : Channel), s.channels[ch]? = some x → ∀ c ∈ x.dataCh.buf, s.connKey c = some x.key
  offered : ∀ (c : Nat) (conn : Conn), s.conns[c]? = some conn → ∀ ch, conn.router = .offering ch →
    s.channelKey ch = some conn.key
  held : ∀ (v : Nat) (pc : VisitorPc), s.visitors[v]? = some pc → ∀ ch c, pc = .holding ch c →
    ∃ key, s.channelKey ch = some key ∧ s.connKey c = some key
  /-- A connection that was sent is in `dataCh` until a visitor has it. -/
  sent : ∀ (c : Nat) (conn : Conn), s.conns[c]? = some conn → ∀ ch, conn.router = .sent ch →
    conn.handed = true ∨ ∃ x : Channel, s.channels[ch]? = some x ∧ c ∈ x.dataCh.buf
  refused : ∀ (c : Nat) (conn : Conn), s.conns[c]? = some conn → conn.router = .refused → conn.closed = true

theorem inv_initial : Inv initial where
  queued _ _ h := by simp [initial] at h
  offered _ _ h := by simp [initial] at h
  held _ _ h := by simp [initial] at h
  sent _ _ h := by simp [initial] at h
  refused _ _ h := by simp [initial] at h

theorem Inv.setConn (conn' : Conn) (h : Inv s) (hc : s.conns[c]? = some conn) (hkey : conn'.key = conn.key)
    (hoffered : ∀ ch, conn'.router = .offering ch → s.channelKey ch = some conn.key)
    (hsent : ∀ ch, conn'.router = .sent ch →
      conn'.handed = true ∨ ∃ x : Channel, s.channels[ch]? = some x ∧ c ∈ x.dataCh.buf)
    (hrefused : conn'.router = .refused → conn'.closed = true) : Inv (s.setConn c conn') := by
  have hkeys (d : Nat) : (s.setConn c conn').connKey d = s.connKey d :=
    congrArg (fun l : List Str => l[d]?) (map_set_eq hc hkey)
  refine ⟨?_, ?_, ?_, forall_set h.sent hsent, forall_set h.refused hrefused⟩
  · intro ch x hx d hd
    rw [hkeys]
    exact h.queued ch x hx d hd
  · apply forall_set h.offered
    intro ch hch
    rw [hkey]
    exact hoffered ch hch
  · intro v pc hv ch d hpc
    rw [hkeys]
    exact h.held v pc hv ch d hpc

theorem Inv.refuse (h : Inv s) (hc : s.conns[c]? = some conn) :
    Inv (s.setConn c { conn with router := .refused, closed := true }) :=
  h.setConn _ hc rfl (fun _ hr => by cases hr) (fun _ hr => by cases hr) fun _ => rfl

theorem Inv.setChannel (x' : Channel) (h : Inv s) (hx : s.channels[ch]? = some x) (hkey : x'.key = x.key)
    (hqueued : ∀ c ∈ x'.dataCh.buf, s.connKey c = some x.key)
    (hsent : ∀ (c : Nat) (conn : Conn), s.conns[c]? = some conn → conn.router = .sent ch → c ∈ x.dataCh.buf →
      conn.handed = true ∨ c ∈ x'.dataCh.buf) : Inv (s.setChannel ch x') := by
  have hkeys (d : Nat) : (s.setChannel ch x').channelKey d = s.channelKey d :=
    congrArg (fun l : List Str => l[d]?) (map_set_eq hx hkey)
  refine ⟨?_, ?_, ?_, ?_, h.refused⟩
  · apply forall_set h.queued
    intro c hc
    rw [hkey]
    exact hqueued c hc
  · intro c conn hc d hd
    rw [hkeys]
    exact h.offered c conn hc d hd
  · intro v pc hv d c hpc
    rw [hkeys]
    exact h.held v pc hv d c hpc
  · intro c conn hc d hd
    rcases h.sent c conn hc d hd with hhanded | ⟨y, hy, hmem⟩
    · exact .inl hhanded
    · by_cases hd' : ch = d
      · subst hd'
        rw [hx, Option.some.injEq] at hy
        subst hy
        exact (hsent c conn hc hd hmem).imp_right fun hmem => ⟨x', getElem?_set_self hx, hmem⟩
      · exact .inr ⟨y, (getElem?_set_ne hd').trans hy, hmem⟩

theorem Inv.setVisitor {pc : VisitorPc} (h : Inv s)
    (hheld : ∀ ch c, pc = .holding ch c → ∃ key, s.channelKey ch = some key ∧ s.connKey c = some key) :
    Inv (s.setVisitor v pc) where
  queued := h.queued
  offered := h.offered
  held := forall_set h.held hheld
  sent := h.sent
  refused := h.refused

theorem closeOld_getElem? (d : Nat) : s.closeOld[d]? =
    s.channels[d]?.map fun x => if s.current = some d then { x with closed := true } else x := by
  unfold State.closeOld
  cases hcurrent : s.current with
  | none => simp
  | some old =>
    simp only [List.getElem?_modify, Option.some.injEq]
    cases s.channels[d]? with
    | none => rfl
    | some x => simp [Option.map_some]

theorem closeOld_cases {d : Nat} {y : Channel} (h : s.closeOld[d]? = some y) :
    ∃ x : Channel, s.channels[d]? = some x ∧ y.key = x.key ∧ y.dataCh = x.dataCh ∧
      (y.closed = true → x.closed = true ∨ s.current = some d) := by
  rw [closeOld_getElem?, Option.map_eq_some_iff] at h
  obtain ⟨x, hx, rfl⟩ := h
  refine ⟨x, hx, ?_⟩
  split
  · rename_i hcurrent
    exact ⟨rfl, rfl, fun _ => .inr hcurrent⟩
  · exact ⟨rfl, rfl, .inl⟩

theorem exists_closeOld {d : Nat} (h : s.channels[d]? = some x) :
    ∃ y : Channel, s.closeOld[d]? = some y ∧ y.key = x.key ∧ y.dataCh = x.dataCh := by
  rw [closeOld_getElem?, h, Option.map_some]
  refine ⟨_, rfl, ?_⟩
  split
  · exact ⟨rfl, rfl⟩
  · exact ⟨rfl, rfl⟩

theorem Inv.publish (key : Str) (current : Option Nat) (h : Inv s) :
    Inv { s with channels := s.closeOld ++ [⟨key, .make, false⟩], current } := by
  have hkeys {d : Nat} {k : Str} (hk : s.channelKey d = some k) :
      ({ s with channels := s.closeOld ++ [⟨key, .make, false⟩], current } : State).channelKey d = some k := by
    simp only [State.channelKey, List.getElem?_map, Option.map_eq_some_iff] at hk ⊢
    obtain ⟨x, hx, rfl⟩ := hk
    obtain ⟨y, hy, hkey, -⟩ := exists_closeOld hx
    exact ⟨y, getElem?_concat_of_some hy, hkey⟩
  refine ⟨?_, ?_, ?_, ?_, h.refused⟩
  · apply forall_concat
    · intro d y hy c hc
      obtain ⟨x, hx, hkey, hdata, -⟩ := closeOld_cases hy
      rw [hdata] at hc
      rw [hkey]
      exact h.queued d x hx c hc
    · intro c hc
      cases hc
  · exact fun c conn hc d hd => hkeys (h.offered c conn hc d hd)
  · intro v pc hv d c hpc
    obtain ⟨k, hk, hc⟩ := h.held v pc hv d c hpc
    exact ⟨k, hkeys hk, hc⟩
  · intro c conn hc d hd
    refine (h.sent c conn hc d hd).imp_right ?_
    rintro ⟨x, hx, hmem⟩
    obtain ⟨y, hy, -, hdata⟩ := exists_closeOld hx
    exact ⟨y, getElem?_concat_of_some hy, hdata ▸ hmem⟩

theorem Inv.arrive {key : Str} (h : Inv s) :
    Inv { s with conns := s.conns ++ [⟨key, .looking, false, false⟩] } := by
  have hkeys {d : Nat} {k : Str} (hk : s.connKey d = some k) :
      ({ s with conns := s.conns ++ [⟨key, .looking, false, false⟩] } : State).connKey d = some k := by
    simp only [State.connKey, List.getElem?_map, Option.map_eq_some_iff] at hk ⊢
    obtain ⟨conn, hconn, rfl⟩ := hk
    exact ⟨conn, getElem?_concat_of_some hconn, rfl⟩
  refine ⟨?_, ?_, ?_, ?_, ?_⟩
  · exact fun d x hx c hc => hkeys (h.queued d x hx c hc)
  · exact forall_concat h.offered fun _ hr => by cases hr
  · intro v pc hv d c hpc
    obtain ⟨k, hk, hc⟩ := h.held v pc hv d c hpc
    exact ⟨k, hk, hkeys hc⟩
  · exact forall_concat h.sent fun _ hr => by cases hr
  · exact forall_concat h.refused fun hr => by cases hr

theorem Inv.send {dataCh : Chan Nat dataChSize} (h : Inv s) (hc : s.conns[c]? = some conn)
    (hrouter : conn.router = .offering ch) (hx : s.channels[ch]? = some x) (hsend : x.dataCh.trySend c = some dataCh) :
    Inv ((s.setConn c { conn with router := .sent ch }).setChannel ch { x with dataCh }) := by
  have hbuf := (Chan.trySend_eq_some hsend).2
  have hkey : x.key = conn.key := by
    have := h.offered c conn hc ch hrouter
    rw [channelKey_of_some hx, Option.some.injEq] at this
    exact this
  have hqueued : Inv (s.setChannel ch { x with dataCh }) := by
    apply h.setChannel { x with dataCh } hx rfl
    · intro d hd
      rw [hbuf, List.mem_append, List.mem_singleton] at hd
      rcases hd with hd | rfl
      · exact h.queued ch x hx d hd
      · rw [connKey_of_some hc, hkey]
    · intro d _ _ _ hd
      right
      rw [hbuf]
      exact List.mem_append_left _ hd
  refine hqueued.setConn _ hc rfl (fun _ hr => by cases hr) ?_ fun hr => by cases hr
  intro d hd
  cases hd
  refine .inr ⟨_, getElem?_set_self hx, ?_⟩
  rw [hbuf]
  exact List.mem_append_right _ List.mem_cons_self

theorem Inv.receive {dataCh : Chan Nat dataChSize} (h : Inv s) (hx : s.channels[ch]? = some x)
    (hrecv : x.dataCh.tryRecv = some (c, dataCh)) (hc : s.conns[c]? = some conn) :
    Inv (((s.setChannel ch { x with dataCh }).setConn c { conn with handed := true }).setVisitor v (.holding ch c)) := by
  have hbuf := Chan.tryRecv_eq_some hrecv
  have hkey : s.connKey c = some x.key := h.queued ch x hx c (by rw [hbuf]; exact List.mem_cons_self)
  have hhanded : Inv (s.setConn c { conn with handed := true }) :=
    h.setConn _ hc rfl (h.offered c conn hc) (fun _ _ => .inl rfl) (h.refused c conn hc)
  have hshrunk : Inv ((s.setConn c { conn with handed := true }).setChannel ch { x with dataCh }) := by
    apply hhanded.setChannel { x with dataCh } hx rfl
    · exact fun d hd => hhanded.queued ch x hx d (by rw [hbuf]; exact List.mem_cons_of_mem _ hd)
    · intro d conn' hd _ hmem
      rw [hbuf, List.mem_cons] at hmem
      rcases hmem with rfl | hmem
      · have hself := getElem?_set_self (b := { conn with handed := true }) hc
        cases hself.symm.trans hd
        exact .inl rfl
      · exact .inr hmem
  apply hshrunk.setVisitor
  intro d e hpc
  cases hpc
  refine ⟨x.key, channelKey_of_some (x := { x with dataCh }) (getElem?_set_self hx), ?_⟩
  rw [connKey_of_some (getElem?_set_self hc)]
  rw [connKey_of_some hc] at hkey
  exact hkey

theorem Inv.finish (h : Inv s) (hc : s.conns[c]? = some conn) :
    Inv ((s.setConn c { conn with closed := true }).setVisitor v .returned) := by
  have hclosed : Inv (s.setConn c { conn with closed := true }) :=
    h.setConn _ hc rfl (h.offered c conn hc) (h.sent c conn hc) fun _ => rfl
  exact hclosed.setVisitor fun _ _ hpc => by cases hpc

theorem Inv.step {a : Action} (h : Inv s) (hstep : step s a = some s') : Inv s' := by
  cases step_sound hstep with
  | publish => exact h.publish _ _
  | retire => exact ⟨h.queued, h.offered, h.held, h.sent, h.refused⟩
  | superseded => exact h
  | close hx =>
    have hqueued := h.queued _ _ hx
    exact h.setChannel _ hx rfl hqueued fun _ _ _ _ => .inr
  | arrive => exact h.arrive
  | offer hc _ _ hx hkey =>
    refine h.setConn _ hc rfl (fun d hd => ?_) (fun _ hr => by cases hr) fun hr => by cases hr
    cases hd
    rw [channelKey_of_some hx, hkey]
  | reject hc | refuse hc => exact h.refuse hc
  | send hc hrouter hx hsend => exact h.send hc hrouter hx hsend
  | visit =>
    refine ⟨h.queued, h.offered, forall_concat h.held ?_, h.sent, h.refused⟩
    intro _ _ hpc
    cases hpc
  | receive _ hx hrecv hc => exact h.receive hx hrecv hc
  | seek | noClient | giveUp => exact h.setVisitor fun _ _ hpc => by cases hpc
  | finish _ hc => exact h.finish hc

end ArangeTun.Rathole
