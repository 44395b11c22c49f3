import ArangeTun.Pck.Conn

/-!
# The send path of the pck carrier

`openTx`, and the end of `WriteTo` with `sendFrame`, of internal/utils/network/pckconn_linux.go.
-/

namespace ArangeTun.Pck

open Go Packet

structure SysError where
  permission : Bool
  text : Str

structure TxCalls where
  socket : Bool
  setNonblock : Bool
  syscallConn : Bool
  listenPacket : Except SysError Unit
  newRawConn : Except SysError Unit

structure SockaddrLinklayer where
  protocol : UInt16
  ifindex : Nat
  halen : UInt8
  addr : Vector UInt8 8
  deriving DecidableEq

structure Tx where
  txFile : Option Unit
  txConn : Option Unit
  txAddr : Option SockaddrLinklayer
  txRaw : Option Unit
  txRawPC : Option Unit
  deriving DecidableEq

def Tx.closed : Tx := ⟨none, none, none, none, none⟩

def htons (v : UInt16) : UInt16 := (v <<< 8) ||| (v >>> 8)

def openRaw (o : TxCalls) : Except Str Tx :=
  match o.listenPacket with
  | .error err =>
    if err.permission then .error (lit "pck: the raw send socket needs root or CAP_NET_RAW: " ++ err.text)
    else .error (lit "pck: could not open the raw send socket: " ++ err.text)
  | .ok _ =>
    match o.newRawConn with
    | .error err => .error (lit "pck: could not take control of the IP header: " ++ err.text)
    | .ok _ => .ok { Tx.closed with txRawPC := some (), txRaw := some () }

def openTx (e : PckEgress) (o : TxCalls) : Option (Except Str Tx) :=
  match e.ethernet, e.nextHop with
  | true, some nextHop =>
    if o.socket && o.setNonblock then
      if o.syscallConn then
        e.iface.map fun iface => .ok
          { Tx.closed with
            txFile := some ()
            txConn := some ()
            txAddr := some ⟨htons etherTypeIPv4, iface.index, 6, Layers.fresh 8 (nextHop.take 6)⟩ }
      else
        -- the file is closed again, and the raw socket below is not reached
        some (.ok Tx.closed)
    else some (openRaw o)
  | _, _ => some (openRaw o)

structure RawHeader where
  tos : UInt8
  totalLen : Nat
  id : UInt16
  dontFragment : Bool
  ttl : UInt8
  protocol : UInt8
  src : Str
  dst : Str
  deriving DecidableEq

inductive Sent
  | frame (b : Str) (sll : SockaddrLinklayer)
  | packet (h : RawHeader) (tcp : Str)
  | errClosed
  deriving DecidableEq

def sendFrame (tx : Tx) (frame : Str) : Option Sent :=
  match tx.txConn with
  | none => some .errClosed
  | some _ => tx.txAddr.map (.frame frame)

def sendAssembled (c : PckConn) (tx : Tx) (dst : UDPAddr) (id : UInt16) (frame : Str) : Option Sent :=
  match tx.txFile with
  | some _ => sendFrame tx frame
  | none => do
      let tcp ← slice frame pckTCPOffset frame.length
      let h : RawHeader := ⟨0xb8, ipv4HeaderLen + tcp.length, id, true, 64, 6, c.egress.localIP, Layers.ip4 dst.ip⟩
      tx.txRaw.map fun _ => .packet h tcp

/-! ## Opening leaves a way to send -/

def Tx.CanSend (tx : Tx) : Prop :=
  (tx.txFile.isSome ∧ tx.txConn.isSome ∧ tx.txAddr.isSome) ∨ tx.txRaw.isSome

instance (tx : Tx) : Decidable tx.CanSend := inferInstanceAs (Decidable (_ ∨ _))

/-- `SyscallConn` fails on a packet socket that was opened for a link with a next hop. -/
def GivesUp (e : PckEgress) (o : TxCalls) : Prop :=
  e.ethernet = true ∧ e.nextHop.isSome = true ∧ o.socket = true ∧ o.setNonblock = true ∧ o.syscallConn = false

def Tx.link (sll : SockaddrLinklayer) : Tx := ⟨some (), some (), some sll, none, none⟩

def Tx.raw : Tx := ⟨none, none, none, some (), some ()⟩

theorem openRaw_eq_ok {o : TxCalls} {tx : Tx} (h : openRaw o = .ok tx) : tx = Tx.raw := by
  unfold openRaw at h
  split at h
  · split at h <;> cases h
  · split at h
    · cases h
    · cases h
      rfl

section

variable {e : PckEgress} {o : TxCalls} {tx : Tx}

theorem openTx_of_givesUp (h : GivesUp e o) : openTx e o = some (.ok Tx.closed) := by
  obtain ⟨hether, hhop, hsocket, hnonblock, hconn⟩ := h
  obtain ⟨nextHop, hhop⟩ := Option.isSome_iff_exists.mp hhop
  simp only [openTx, hether, hhop, hsocket, hnonblock, hconn]
  rfl

theorem openTx_eq_ok (hnot : ¬ GivesUp e o) (h : openTx e o = some (.ok tx)) : (∃ sll, tx = .link sll) ∨ tx = .raw := by
  unfold openTx at h
  split at h
  · rename_i nextHop hether hhop
    split at h
    · rename_i hsocket
      rw [Bool.and_eq_true] at hsocket
      split at h
      · obtain ⟨iface, _, htx⟩ := Option.map_eq_some_iff.mp h
        cases htx
        exact .inl ⟨_, rfl⟩
      · rename_i hconn
        exact absurd ⟨hether, by rw [hhop]; rfl, hsocket.1, hsocket.2, Bool.eq_false_iff.mpr hconn⟩ hnot
    · exact .inr (openRaw_eq_ok (Option.some.inj h))
  · exact .inr (openRaw_eq_ok (Option.some.inj h))

end

/-- A carrier that opened can send, and `WriteTo` meets no nil on its way out, exactly unless `SyscallConn` has failed. -/
theorem opened_can_send_iff (c : PckConn) (o : TxCalls) :
    (∀ tx, openTx c.egress o = some (.ok tx) → tx.CanSend ∧
      ∀ dst id frame, pckTCPOffset ≤ frame.length → sendAssembled c tx dst id frame ≠ none) ↔
      ¬ GivesUp c.egress o := by
  constructor
  · intro h hgives
    have hcan := (h _ (openTx_of_givesUp hgives)).1
    revert hcan
    decide
  · intro hnot tx hopen
    rcases openTx_eq_ok hnot hopen with ⟨sll, rfl⟩ | rfl
    · exact ⟨.inl ⟨rfl, rfl, rfl⟩, fun dst id frame _ => nofun⟩
    · refine ⟨.inr rfl, fun dst id frame hframe => ?_⟩
      rw [sendAssembled, Tx.raw, slice_to_end hframe]
      exact nofun

/-- The next hop is known and the packet socket opens, but its `SyscallConn` fails. -/
theorem no_send_path_after_syscallConn :
    let c : PckConn := ⟨⟨some ⟨2, lit "eth0"⟩, [10, 0, 0, 1], [2, 0, 0, 0, 0, 1], some [2, 0, 0, 0, 0, 2], 14, true⟩, 443,
      [0x18], by decide, 0⟩
    ∃ tx, openTx c.egress ⟨true, true, false, .ok (), .ok ()⟩ = some (.ok tx) ∧ ¬ tx.CanSend ∧
      sendAssembled c tx ⟨[10, 0, 0, 2], 443, []⟩ 1 (List.replicate 70 0) = none :=
  ⟨Tx.closed, rfl, by decide, by decide⟩

end ArangeTun.Pck
