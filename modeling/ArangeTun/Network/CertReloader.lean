import ArangeTun.Go.Str
import ArangeTun.Transition.Threads

/-!
# Certificates from files

`certReloader` of internal/utils/network/tlsconf.go, with its calls of `get` beside rewrites of the two files.
-/

namespace ArangeTun.CertReloader

open Go Transition Option

variable {Cert : Type}

/-- `modTime` is that of the certificate file, also when the last change has removed it. -/
structure Disk where
  cert : Option Str
  key : Option Str
  modTime : Nat
  deriving DecidableEq

def Disk.stat (d : Disk) : Option Nat := d.cert.map fun _ => d.modTime

def Disk.pair (pair : Str → Str → Option Cert) (d : Disk) : Option Cert :=
  d.cert.bind fun x => d.key.bind (pair x)

/-- `modTime` is `none` for the zero time. `writes` counts the rewrites. -/
structure Shared (Cert : Type) where
  disk : Disk
  cert : Option Cert
  modTime : Option Nat
  writes : Nat
  deriving DecidableEq

/-- Where `get` stands. A call that has returned has its result beside the pair that was on disk. -/
inductive Pc (Cert : Type)
  | read (cert : Option Cert) (known : Option Nat)
  | load (cert : Option Cert)
  | loadKey (cert : Option Cert) (contents : Str) (time : Nat)
  | loaded (fresh : Cert) (contents : Str) (time : Nat)
  | store (fresh : Cert) (mod : Option Nat)
  | returned (result onDisk : Option Cert)
  deriving DecidableEq

/-- `ready` says that a certificate had been loaded when the call began. -/
structure Get (Cert : Type) where
  start : Nat
  ready : Bool
  pc : Pc Cert
  deriving DecidableEq

inductive Rewrite
  | cert (contents : Option Str) (modTime : Nat)
  | key (contents : Option Str)

section

variable (pair : Str → Str → Option Cert)

def Get.return (st : Shared Cert) (g : Get Cert) (result : Option Cert) : Get Cert :=
  { g with pc := .returned result (if g.start = st.writes then st.disk.pair pair else none) }

def get (st : Shared Cert) (g : Get Cert) : Option (Shared Cert × Get Cert) :=
  match g.pc with
  | .read cert known =>
    match st.disk.stat with
    | some t => if known.all (· < t) then some (st, { g with pc := .load cert }) else some (st, g.return pair st cert)
    | none => some (st, g.return pair st cert)
  | .load cert =>
    match st.disk.cert with
    | some x => some (st, { g with pc := .loadKey cert x st.disk.modTime })
    | none => some (st, g.return pair st cert)
  | .loadKey cert x time =>
    match st.disk.key.bind (pair x) with
    | some fresh => some (st, { g with pc := .loaded fresh x time })
    | none => some (st, g.return pair st cert)
  | .loaded fresh _ _ => some (st, { g with pc := .store fresh st.disk.stat })
  | .store fresh mod =>
    some ({ st with cert := some fresh, modTime := mod }, g.return pair st (some fresh))
  | .returned .. => none

def reloader : Program (Shared Cert) (Get Cert) Unit Unit Rewrite where
  enter st _ _ := some (st, ⟨st.writes, st.cert.isSome, .read st.cert st.modTime⟩)
  move st _ g _ := get pair st g
  env st
    | .cert x t => if st.disk.modTime < t then
        some { st with disk := { st.disk with cert := x, modTime := t }, writes := st.writes + 1 }
      else none
    | .key x => some { st with disk := { st.disk with key := x }, writes := st.writes + 1 }

end

/-- The certificate file is not written between the read of a `load` and its `os.Stat`. -/
def Untouched (s : Threads (Shared Cert) (Get Cert)) : Act Unit Unit Rewrite → Prop
  | .move i _ => match s.threads[i]?.map Get.pc with
    | some (.loaded _ _ time) => time = s.shared.disk.modTime
    | _ => True
  | _ => True

instance (s : Threads (Shared Cert) (Get Cert)) (a : Act Unit Unit Rewrite) : Decidable (Untouched s a) := by
  unfold Untouched
  repeat' split
  all_goals infer_instance

variable {pair : Str → Str → Option Cert}

/-- A time that is that of the file goes with a certificate of what is in the file. -/
def Current (pair : Str → Str → Option Cert) (d : Disk) (mod : Option Nat) (cert : Option Cert) : Prop :=
  ∀ t, mod = some t → t ≤ d.modTime ∧
    (t = d.modTime → ∃ x k c, d.cert = some x ∧ pair x k = some c ∧ cert = some c)

def Valid (pair : Str → Str → Option Cert) (cert : Option Cert) : Prop := ∀ c, cert = some c → ∃ x k, pair x k = some c

def Contents (d : Disk) (x : Str) (time : Nat) : Prop := time ≤ d.modTime ∧ (time = d.modTime → d.cert = some x)

def PcInv (pair : Str → Str → Option Cert) (st : Shared Cert) (g : Get Cert) : Pc Cert → Prop
  | .read cert known => Current pair st.disk known cert ∧ Valid pair cert ∧ (g.ready → cert.isSome)
  | .load cert => Valid pair cert ∧ (g.ready → cert.isSome)
  | .loadKey cert x time => Contents st.disk x time ∧ Valid pair cert ∧ (g.ready → cert.isSome) ∧
      (g.start = st.writes → st.disk.cert = some x)
  | .loaded fresh x time => Contents st.disk x time ∧ (∃ k, pair x k = some fresh) ∧
      (g.start = st.writes → st.disk.pair pair = some fresh)
  | .store fresh mod => Current pair st.disk mod (some fresh) ∧ Valid pair (some fresh) ∧
      (g.start = st.writes → st.disk.pair pair = some fresh)
  | .returned result onDisk => (∀ c, onDisk = some c → result = some c) ∧ Valid pair result ∧ (g.ready → result.isSome)

structure Inv (pair : Str → Str → Option Cert) (st : Shared Cert) (g : Get Cert) : Prop where
  start : g.start ≤ st.writes
  pc : PcInv pair st g g.pc

/-- Two valid pairs with one certificate are the same: its key is the one that belongs to it. -/
def OneKey (pair : Str → Str → Option Cert) : Prop :=
  ∀ x k k' c c', pair x k = some c → pair x k' = some c' → c = c'

theorem Current.later {d d' : Disk} {mod : Option Nat} {cert : Option Cert} (h : Current pair d mod cert)
    (hlater : d.modTime < d'.modTime) : Current pair d' mod cert := by
  intro t ht
  have hle := (h t ht).1
  exact ⟨by omega, fun heq => absurd heq (by omega)⟩

theorem Contents.later {d d' : Disk} {x : Str} {time : Nat} (h : Contents d x time)
    (hlater : d.modTime < d'.modTime) : Contents d' x time :=
  ⟨h.1.trans hlater.le, fun heq => absurd h.1 (by omega)⟩

variable {st st' : Shared Cert} {g g' : Get Cert}

theorem Inv.rewrite (h : Inv pair st g) (hwrites : st'.writes = st.writes + 1)
    (hcurrent : ∀ mod cert, Current pair st.disk mod cert → Current pair st'.disk mod cert)
    (hcontents : ∀ x time, Contents st.disk x time → Contents st'.disk x time) : Inv pair st' g := by
  have hstart : g.start ≠ st'.writes := by
    have := h.start
    omega
  refine ⟨by have := h.start; omega, ?_⟩
  have hpc := h.pc
  generalize g.pc = pc at hpc
  cases pc with
  | read => exact ⟨hcurrent _ _ hpc.1, hpc.2⟩
  | load => exact hpc
  | loadKey => exact ⟨hcontents _ _ hpc.1, hpc.2.1, hpc.2.2.1, fun h => absurd h hstart⟩
  | loaded => exact ⟨hcontents _ _ hpc.1, hpc.2.1, fun h => absurd h hstart⟩
  | store => exact ⟨hcurrent _ _ hpc.1, hpc.2.1, fun h => absurd h hstart⟩
  | returned => exact hpc

theorem Inv.return {result : Option Cert} (h : Inv pair st g)
    (hresult : g.start = st.writes → ∀ c, st.disk.pair pair = some c → result = some c) (hvalid : Valid pair result)
    (hready : g.ready → result.isSome) : Inv pair st (g.return pair st result) := by
  refine ⟨h.start, fun c hc => ?_, hvalid, hready⟩
  obtain ⟨hstart, hpair⟩ := ite_none_right_eq_some.mp hc
  exact hresult hstart c hpair

theorem Disk.pair_eq {d : Disk} {x : Str} (h : d.cert = some x) : d.pair pair = d.key.bind (pair x) := by
  rw [Disk.pair, h]
  rfl

theorem Inv.get (hone : OneKey pair) (h : Inv pair st g)
    (hst : Current pair st.disk st.modTime st.cert ∧ Valid pair st.cert)
    (htouched : ∀ fresh x time, g.pc = .loaded fresh x time → time = st.disk.modTime)
    (hstep : CertReloader.get pair st g = some (st', g')) :
    (Current pair st'.disk st'.modTime st'.cert ∧ Valid pair st'.cert) ∧ Inv pair st' g' ∧
      st'.disk = st.disk ∧ st'.writes = st.writes := by
  have hpc := h.pc
  unfold CertReloader.get at hstep
  generalize hg : g.pc = pc at hpc hstep
  cases pc with
  | read cert known =>
    obtain ⟨hcurrent, hvalid, hready⟩ := hpc
    cases hcert : st.disk.cert with
    | none =>
      simp only [Disk.stat, hcert, map_none] at hstep
      cases hstep
      refine ⟨hst, h.return (fun _ c hc => ?_) hvalid hready, rfl, rfl⟩
      rw [Disk.pair, hcert] at hc
      cases hc
    | some x =>
      simp only [Disk.stat, hcert, map_some] at hstep
      split at hstep
      · cases hstep
        exact ⟨hst, ⟨h.start, hvalid, hready⟩, rfl, rfl⟩
      next hknown =>
        cases hstep
        refine ⟨hst, h.return (fun _ c hc => ?_) hvalid hready, rfl, rfl⟩
        -- The time in memory is that of the file, so the certificate is that of its contents.
        obtain ⟨t, rfl, ht⟩ : ∃ t, known = some t ∧ ¬ t < st.disk.modTime := by
          cases known with
          | none => exact absurd rfl hknown
          | some t => exact ⟨t, rfl, by simpa using hknown⟩
        obtain ⟨x', k, c', hx', hpair, rfl⟩ := (hcurrent t rfl).2 (le_antisymm (hcurrent t rfl).1 (Nat.not_lt.mp ht))
        rw [Disk.pair_eq hx'] at hc
        obtain ⟨k', -, hc⟩ := bind_eq_some_iff.mp hc
        rw [hone _ _ _ _ _ hpair hc]
  | load cert =>
    obtain ⟨hvalid, hready⟩ := hpc
    cases hcert : st.disk.cert with
    | none =>
      rw [hcert] at hstep
      cases hstep
      refine ⟨hst, h.return (fun _ c hc => ?_) hvalid hready, rfl, rfl⟩
      rw [Disk.pair, hcert] at hc
      cases hc
    | some x =>
      rw [hcert] at hstep
      cases hstep
      exact ⟨hst, ⟨h.start, ⟨le_rfl, fun _ => hcert⟩, hvalid, hready, fun _ => hcert⟩, rfl, rfl⟩
  | loadKey cert x time =>
    obtain ⟨hcontents, hvalid, hready, hdisk⟩ := hpc
    cases hkey : st.disk.key.bind (pair x) with
    | none =>
      simp only [hkey] at hstep
      cases hstep
      refine ⟨hst, h.return (fun hstart c hc => ?_) hvalid hready, rfl, rfl⟩
      rw [Disk.pair_eq (hdisk hstart), hkey] at hc
      cases hc
    | some fresh =>
      simp only [hkey] at hstep
      cases hstep
      obtain ⟨k, -, hpair⟩ := bind_eq_some_iff.mp hkey
      exact ⟨hst, ⟨h.start, hcontents, ⟨k, hpair⟩, fun hstart => (Disk.pair_eq (hdisk hstart)).trans hkey⟩, rfl, rfl⟩
  | loaded fresh x time =>
    obtain ⟨hcontents, ⟨k, hpair⟩, hfresh⟩ := hpc
    cases hstep
    refine ⟨hst, ⟨h.start, fun t ht => ?_, fun c hc => ⟨x, k, hpair.trans hc⟩, hfresh⟩, rfl, rfl⟩
    obtain ⟨-, -, rfl⟩ := map_eq_some_iff.mp ht
    exact ⟨le_rfl, fun _ => ⟨x, k, fresh, hcontents.2 (htouched fresh x time hg), hpair, rfl⟩⟩
  | store fresh mod =>
    obtain ⟨hcurrent, hvalid, hfresh⟩ := hpc
    cases hstep
    have hreturn : Inv pair st (g.return pair st (some fresh)) :=
      h.return (fun hstart c hc => (hfresh hstart).symm.trans hc) hvalid fun _ => rfl
    exact ⟨⟨hcurrent, hvalid⟩, ⟨hreturn.start, hreturn.pc⟩, rfl, rfl⟩
  | returned => cases hstep

/-- A call during which nothing is written returns the pair on disk, and once a certificate has been loaded every call
returns one that was valid. -/
theorem get_returns (hone : OneKey pair) {disk : Disk} {s : Threads (Shared Cert) (Get Cert)}
    (h : Reach (reloader pair).step Untouched ⟨⟨disk, none, none, 0⟩, []⟩ s) {i start : Nat} {ready : Bool}
    {result onDisk : Option Cert} (hi : s.threads[i]? = some ⟨start, ready, .returned result onDisk⟩) :
    (∀ c, onDisk = some c → result = some c) ∧ (ready → ∃ c x k, result = some c ∧ pair x k = some c) := by
  have hinv := Program.invariant (I := fun st _ g => Inv pair st g)
    (J := fun st : Shared Cert => Current pair st.disk st.modTime st.cert ∧ Valid pair st.cert)
    h ⟨⟨nofun, nofun⟩, nofun⟩ ?_ ?_ ?_
  · obtain ⟨hdisk, hvalid, hready⟩ := (hinv.thread i _ hi).pc
    refine ⟨hdisk, fun hr => ?_⟩
    obtain ⟨c, rfl⟩ := isSome_iff_exists.mp (hready hr)
    obtain ⟨x, k, hpair⟩ := hvalid c rfl
    exact ⟨c, x, k, rfl, hpair⟩
  · intro s _ st g hs _ henter
    cases henter
    exact ⟨hs.shared, ⟨le_rfl, hs.shared.1, hs.shared.2, id⟩, fun _ _ _ h => h⟩
  · intro s i g _ st g' hs huntouched hi hg hmove
    have htouched : ∀ fresh x time, g.pc = .loaded fresh x time → time = s.shared.disk.modTime := by
      intro fresh x time hpc
      simpa only [Untouched, hi, map_some, hpc] using huntouched
    obtain ⟨hst, hg', hdisk, hwrites⟩ := hg.get hone hs.shared htouched hmove
    refine ⟨hst, hg', fun _ q _ _ hq => ⟨hwrites ▸ hq.start, ?_⟩⟩
    have hpc := hq.pc
    unfold PcInv at hpc ⊢
    rw [hdisk, hwrites]
    exact hpc
  · intro s e st hs _ henv
    cases e with
    | cert x t =>
      obtain ⟨hlater, rfl⟩ := enabled henv
      exact ⟨⟨hs.shared.1.later hlater, hs.shared.2⟩,
        fun _ _ _ hq => hq.rewrite rfl (fun _ _ h => h.later hlater) (fun _ _ h => h.later hlater)⟩
    | key x =>
      cases henv
      exact ⟨hs.shared, fun _ _ _ hq => hq.rewrite rfl (fun _ _ h => h) (fun _ _ h => h)⟩

/-- A pair is valid when its parts are the same, and the first one is on disk. -/
def matching (x k : Str) : Option Str := if x = k then some x else none

def first : Threads (Shared Str) (Get Str) := ⟨⟨⟨some (lit "a"), some (lit "a"), 1⟩, none, none, 0⟩, []⟩

theorem matching_oneKey : OneKey matching := by
  intro x k k' c c' h h'
  exact (enabled h).2.symm.trans (enabled h').2

def renewal : List (Act Unit Unit Rewrite) := [.env (.cert (some (lit "b")) 2), .env (.key (some (lit "b")))]

def loading : List (Act Unit Unit Rewrite) := [.enter (), .move 0 (), .move 0 (), .move 0 ()]

theorem renewed_pair_returned : ∃ s, Reach (reloader matching).step Untouched first s ∧
    s.threads[1]? = some ⟨2, true, .returned (some (lit "b")) (some (lit "b"))⟩ ∧
    ∃ c x k, some (lit "b") = some c ∧ matching x k = some c := by
  obtain ⟨s, hs, hi⟩ : ∃ s, Reach (reloader matching).step Untouched first s ∧
      s.threads[1]? = some ⟨2, true, .returned (some (lit "b")) (some (lit "b"))⟩ :=
    exists_reach (loading ++ [.move 0 (), .move 0 ()] ++ renewal ++ [.enter (), .move 1 (), .move 1 (), .move 1 (),
      .move 1 (), .move 1 ()]) (by decide +kernel)
  exact ⟨s, hs, hi, (get_returns matching_oneKey hs hi).2 rfl⟩

theorem old_pair_returned : ∃ s, Reach (reloader matching).step Any first s ∧
    s.threads[1]? = some ⟨2, true, .returned (some (lit "a")) (some (lit "b"))⟩ :=
  exists_reach (loading ++ renewal ++ [.move 0 (), .move 0 (), .enter (), .move 1 ()]) (by decide +kernel)

end ArangeTun.CertReloader
