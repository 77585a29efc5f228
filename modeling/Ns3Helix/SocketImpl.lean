import Mathlib.Data.Nat.Notation
import Ns3Helix.RustInterface

/-!
# HelixSocketImpl

Every method of the wrapper is a program: it reads and writes the fields of
its own object, and it leaves the object to call the UDP socket or to invoke
a callback of the application. The methods follow the source line by line.
What they have in common is `method_forwards`: one call of the same
operation on the UDP socket, whose result is returned.
-/

set_option autoImplicit false

namespace Ns3Helix.SocketImpl
open Ns3Helix.InteractionProgram Ns3Helix.SocketInterface Ns3Helix.RustInterface

inductive SocketRef (η ι : Type)
  | helix (h : η)
  | udp (u : ι)
  deriving DecidableEq, Repr

/-- What a callback of a slot can be bound to: a function of the application,
or `HandleRecv` and `HandleSend` of a Helix socket. -/
inductive Target (A η : Type) : Slot → Type
  | app {s : Slot} (cb : A) : Target A η s
  | handleRecv (h : η) : Target A η .recv
  | handleSend (h : η) : Target A η .send

/-- `m_helix_rs_interface` is left out: it is never null and has no state. -/
structure HelixSocketImpl (P : Platform) (ι : Type) where
  mNode : Option ℕ
  mUdpSocket : Option ι
  mHelix : Option ℕ
  mHandleRecv : Option P.AppCallback
  mHandleSend : Option P.AppCallback
  base : SocketFields P (fun _ => P.AppCallback)

def HelixSocketImpl.fresh {P : Platform} {ι : Type} : HelixSocketImpl P ι where
  mNode := none
  mUdpSocket := none
  mHelix := none
  mHandleRecv := none
  mHandleSend := none
  base := .fresh

def HelixSocketImpl.setNode {P : Platform} {ι : Type} (d : HelixSocketImpl P ι)
    (node : Option ℕ) : HelixSocketImpl P ι :=
  { d with mNode := node }

def HelixSocketImpl.setHelix {P : Platform} {ι : Type} (d : HelixSocketImpl P ι)
    (helix : Option ℕ) : HelixSocketImpl P ι :=
  { d with mHelix := helix }

def HelixSocketImpl.setUdpSocket {P : Platform} {ι : Type} (d : HelixSocketImpl P ι)
    (udpSocket : Option ι) : HelixSocketImpl P ι :=
  { d with mUdpSocket := udpSocket }

inductive Fault
  | nullCallback
  | nullSocket
  deriving DecidableEq, Repr

inductive FieldOp (P : Platform)
  | getUdpSocket
  | getHandleRecv
  | getHandleSend
  | setHandleRecv (cb : Option P.AppCallback)
  | setHandleSend (cb : Option P.AppCallback)
  | callee (cb : Option P.AppCallback)
  | print (line : String)

inductive OutsideOp (P : Platform) (η ι : Type)
  | udp (u : ι) (o : Op P (Target P.AppCallback η))
  | invoke (cb : P.AppCallback) (socket : SocketRef η ι) (e : Event)

@[reducible] def OutsideOp.ty {P : Platform} {η ι : Type} : OutsideOp P η ι → Ty
  | .udp _ o => o.ty
  | .invoke _ _ _ => .void

@[reducible] def fieldSignature (P : Platform) (ι : Type) : Signature where
  Op := FieldOp P
  Answer
    | .getUdpSocket => ι
    | .getHandleRecv => Option P.AppCallback
    | .getHandleSend => Option P.AppCallback
    | .callee _ => P.AppCallback
    | .setHandleRecv _ => Unit
    | .setHandleSend _ => Unit
    | .print _ => Unit

@[reducible] def outsideSignature (P : Platform) (η ι : Type) : Signature where
  Op := OutsideOp P η ι
  Answer o := o.ty.denote P

abbrev Fields (P : Platform) (ι : Type) := HelixSocketImpl P ι × List String

def fields (P : Platform) (ι : Type) : Handler (fieldSignature P ι) (Fields P ι) Fault
  | .getUdpSocket, (d,out) => match d.mUdpSocket with
    | some u => .ok (u,d,out)
    | none => .error .nullSocket
  | .getHandleRecv, (d,out) => .ok (d.mHandleRecv,d,out)
  | .getHandleSend, (d,out) => .ok (d.mHandleSend,d,out)
  | .setHandleRecv cb, (d,out) => .ok ((),{ d with mHandleRecv := cb },out)
  | .setHandleSend cb, (d,out) => .ok ((),{ d with mHandleSend := cb },out)
  | .callee cb, (d,out) => match cb with
    | some f => .ok (f,d,out)
    | none => .error .nullCallback
  | .print line, (d,out) => .ok ((),d,out ++ [line])

abbrev SocketM (P : Platform) (η ι α : Type) :=
  Program (fieldSignature P ι) (outsideSignature P η ι) α

section Methods

variable {P : Platform} {η ι : Type}

def field (o : FieldOp P) : SocketM P η ι ((fieldSignature P ι).Answer o) :=
  .perform o .pure

def outside (o : OutsideOp P η ι) : SocketM P η ι (o.ty.denote P) :=
  .external o .pure

def print (line : String) : SocketM P η ι Unit := field (.print line)

def mUdpSocket (o : Op P (Target P.AppCallback η)) : SocketM P η ι (o.ty.denote P) := do
  let u ← field .getUdpSocket
  outside (.udp u o)

def invoke (cb : Option P.AppCallback) (socket : SocketRef η ι) (e : Event) :
    SocketM P η ι Unit := do
  let f ← field (.callee cb)
  outside (.invoke f socket e)

def getErrno : SocketM P η ι P.SocketErrno := mUdpSocket .getErrno

def getSocketType : SocketM P η ι P.SocketType := mUdpSocket .getSocketType

def getNode : SocketM P η ι (Option P.Node) := mUdpSocket .getNode

def setRecvCallback (this : η) (receivedData : Option P.AppCallback) : SocketM P η ι Unit := do
  field (.setHandleRecv receivedData)
  mUdpSocket (.setRecvCallback (some (.handleRecv this)))

def setSendCallback (this : η) (sendCb : Option P.AppCallback) : SocketM P η ι Unit := do
  field (.setHandleSend sendCb)
  mUdpSocket (.setSendCallback (some (.handleSend this)))

def handleRecv (this : η) (_socket : SocketRef η ι) : SocketM P η ι Unit := do
  let mHandleRecv ← field .getHandleRecv
  -- this socket is passed on, not the UDP socket
  invoke mHandleRecv (.helix this) .recv

def handleSend (this : η) (_socket : SocketRef η ι) (numBytes : UInt32) :
    SocketM P η ι Unit := do
  let mHandleSend ← field .getHandleSend
  invoke mHandleSend (.helix this) (.send numBytes)

def bindToNetDevice (netdevice : Option P.NetDevice) : SocketM P η ι Unit := do
  let _ ← HelixRsInterface.bind print P.noAddress
  mUdpSocket (.bindToNetDevice netdevice)

def bind : SocketM P η ι Int32 := do
  let _ ← HelixRsInterface.bind print P.noAddress
  mUdpSocket .bind

def bind6 : SocketM P η ι Int32 := do
  let _ ← HelixRsInterface.bind print P.noAddress
  mUdpSocket .bind6

def bindAddress (address : P.Address) : SocketM P η ι Int32 := do
  let _ ← HelixRsInterface.bind print P.noAddress
  mUdpSocket (.bindAddress address)

def connect (address : P.Address) : SocketM P η ι Int32 := do
  let _ ← HelixRsInterface.connect print P.noAddress
  mUdpSocket (.connect address)

def listen : SocketM P η ι Int32 := do
  let _ ← HelixRsInterface.listen print
  mUdpSocket .listen

def send (p : Option P.Packet) (flags : UInt32) : SocketM P η ι Int32 := do
  let _ ← HelixRsInterface.send print p
  mUdpSocket (.send p flags)

def sendTo (p : Option P.Packet) (flags : UInt32) (address : P.Address) :
    SocketM P η ι Int32 := do
  let _ ← HelixRsInterface.send print p
  mUdpSocket (.sendTo p flags address)

def recv (maxSize flags : UInt32) : SocketM P η ι (Option P.Packet) := do
  let p ← mUdpSocket (.recv maxSize flags)
  HelixRsInterface.recv print p

def recvFrom (maxSize flags : UInt32) (fromAddress : P.Address) :
    SocketM P η ι (Option P.Packet × P.Address) := do
  let (p,fromAddress) ← mUdpSocket (.recvFrom maxSize flags fromAddress)
  let p ← HelixRsInterface.recv print p
  return (p,fromAddress)

def close : SocketM P η ι Int32 := do
  let _ ← HelixRsInterface.close print
  mUdpSocket .close

def shutdownSend : SocketM P η ι Int32 := mUdpSocket .shutdownSend

def shutdownRecv : SocketM P η ι Int32 := mUdpSocket .shutdownRecv

def getTxAvailable : SocketM P η ι UInt32 := mUdpSocket .getTxAvailable

def getRxAvailable : SocketM P η ι UInt32 := mUdpSocket .getRxAvailable

def getSockName (address : P.Address) : SocketM P η ι (Int32 × P.Address) :=
  mUdpSocket (.getSockName address)

def getPeerName (address : P.Address) : SocketM P η ι (Int32 × P.Address) :=
  mUdpSocket (.getPeerName address)

def setAllowBroadcast (allowBroadcast : Bool) : SocketM P η ι Bool :=
  mUdpSocket (.setAllowBroadcast allowBroadcast)

def getAllowBroadcast : SocketM P η ι Bool := mUdpSocket .getAllowBroadcast

def ipv6JoinGroup (address : P.Ipv6Address) (filterMode : P.Ipv6MulticastFilterMode)
    (sourceAddresses : List P.Ipv6Address) : SocketM P η ι Unit :=
  mUdpSocket (.ipv6JoinGroup address filterMode sourceAddresses)

def method (this : η) : (o : Op P (fun _ => P.AppCallback)) → SocketM P η ι (o.ty.denote P)
  | .getErrno => getErrno
  | .getSocketType => getSocketType
  | .getNode => getNode
  | .setRecvCallback cb => setRecvCallback this cb
  | .setSendCallback cb => setSendCallback this cb
  | .bindToNetDevice d => bindToNetDevice d
  | .connect a => connect a
  | .bind => bind
  | .bind6 => bind6
  | .bindAddress a => bindAddress a
  | .listen => listen
  | .send p flags => send p flags
  | .sendTo p flags a => sendTo p flags a
  | .recv n flags => recv n flags
  | .recvFrom n flags a => recvFrom n flags a
  | .close => close
  | .shutdownSend => shutdownSend
  | .shutdownRecv => shutdownRecv
  | .getTxAvailable => getTxAvailable
  | .getRxAvailable => getRxAvailable
  | .getSockName a => getSockName a
  | .getPeerName a => getPeerName a
  | .setAllowBroadcast b => setAllowBroadcast b
  | .getAllowBroadcast => getAllowBroadcast
  | .ipv6JoinGroup a m s => ipv6JoinGroup a m s

/-- What the UDP socket runs when it invokes a callback stored in it that is
bound to a method of a Helix socket. -/
def trampoline (socket : SocketRef η ι) :
    (e : Event) → Target P.AppCallback η e.slot → P.AppCallback ⊕ (η × SocketM P η ι Unit)
  | .recv => fun
    | .app cb => .inl cb
    | .handleRecv h => .inr (h,handleRecv h socket)
  | .send n => fun
    | .app cb => .inl cb
    | .handleSend h => .inr (h,handleSend h socket n)
  | .connectionSucceeded => fun | .app cb => .inl cb
  | .connectionFailed => fun | .app cb => .inl cb
  | .normalClose => fun | .app cb => .inl cb
  | .errorClose => fun | .app cb => .inl cb
  | .dataSent _ => fun | .app cb => .inl cb

end Methods

abbrev Val (P : Platform) := Σ t : Ty, t.denote P

section Specifications

variable {P : Platform} {η ι : Type}

/-- The operation that reaches the UDP socket: a callback is replaced by the
trampoline of its kind, also where it is null. -/
def forwarded (this : η) : Op P (fun _ => P.AppCallback) → Op P (Target P.AppCallback η) :=
  Op.map (fun _ => some (.handleRecv this)) (fun _ => some (.handleSend this))

def HelixSocketImpl.register (d : HelixSocketImpl P ι) :
    Op P (fun _ => P.AppCallback) → HelixSocketImpl P ι
  | .setRecvCallback cb => { d with mHandleRecv := cb }
  | .setSendCallback cb => { d with mHandleSend := cb }
  | _ => d

section
variable (d : HelixSocketImpl P ι) (o : Op P (fun _ => P.AppCallback))

@[simp] theorem register_udpSocket : (d.register o).mUdpSocket = d.mUdpSocket := by
  cases o <;> rfl
end

def Echoes (t t' : Ty) (k : t.denote P → SocketM P η ι (t'.denote P)) : Prop :=
  ∀ v d out, ∃ v' out', advance (fields P ι) (k v) (d,out) = .done (d,out') v' ∧
    (⟨t',v'⟩ : Val P) = ⟨t,v⟩

theorem echoes_pure (t : Ty) : Echoes t t (.pure : t.denote P → SocketM P η ι (t.denote P)) :=
  fun v _ out => ⟨v,out,rfl,rfl⟩

/-- Every override calls the UDP socket once, with the same arguments, after
it has stored a callback and printed, and returns what the call returns. -/
theorem method_forwards (this : η) (o : Op P (fun _ => P.AppCallback))
    (d : HelixSocketImpl P ι) (out : List String) (u : ι) (hu : d.mUdpSocket = some u) :
    ∃ out' k, advance (fields P ι) (method this o) (d,out) =
        .suspended (d.register o,out') (.udp u (forwarded this o)) k ∧
      Echoes (forwarded this o).ty o.ty k := by
  obtain ⟨node,udpSocket,helix,handleRecv,handleSend,base⟩ := d
  obtain rfl : udpSocket = some u := hu
  cases o
  case recv n flags => exact ⟨_,_,rfl,fun v d out => ⟨v,_,rfl,rfl⟩⟩
  case recvFrom n flags a => exact ⟨_,_,rfl,fun v d out => ⟨v,_,rfl,rfl⟩⟩
  all_goals exact ⟨_,_,rfl,echoes_pure _⟩

theorem method_nullSocket (this : η) (o : Op P (fun _ => P.AppCallback))
    (d : HelixSocketImpl P ι) (out : List String) (hu : d.mUdpSocket = none) :
    advance (fields P ι) (method this o) (d,out) = .fault .nullSocket := by
  obtain ⟨node,udpSocket,helix,handleRecv,handleSend,base⟩ := d
  obtain rfl : udpSocket = none := hu
  cases o <;> rfl

def HelixSocketImpl.kept (d : HelixSocketImpl P ι) : Event → Option P.AppCallback
  | .recv => d.mHandleRecv
  | .send _ => d.mHandleSend
  | _ => none

def Target.owner {A : Type} {s : Slot} : Target A η s → Option η
  | .app _ => none
  | .handleRecv h => some h
  | .handleSend h => some h

theorem target_cases {A : Type} {s : Slot} (target : Target A η s) :
    (∃ cb, target = .app cb) ∨ ∃ h, target.owner = some h := by
  cases target with
  | app cb => exact .inl ⟨cb,rfl⟩
  | handleRecv h => exact .inr ⟨h,rfl⟩
  | handleSend h => exact .inr ⟨h,rfl⟩

/-- A trampoline invokes the callback kept for the application with the Helix
socket, and is a null call where none is kept. -/
theorem handleRecv_invokes (this : η) (socket : SocketRef η ι) (d : HelixSocketImpl P ι)
    (out : List String) :
    advance (fields P ι) (handleRecv this socket) (d,out) = match d.mHandleRecv with
      | some cb => .suspended (d,out) (.invoke cb (.helix this) .recv) .pure
      | none => .fault .nullCallback := by
  obtain ⟨node,udpSocket,helix,_ | cb,handleSend,base⟩ := d <;> rfl

theorem handleSend_invokes (this : η) (socket : SocketRef η ι) (n : UInt32)
    (d : HelixSocketImpl P ι) (out : List String) :
    advance (fields P ι) (handleSend this socket n) (d,out) = match d.mHandleSend with
      | some cb => .suspended (d,out) (.invoke cb (.helix this) (.send n)) .pure
      | none => .fault .nullCallback := by
  obtain ⟨node,udpSocket,helix,handleRecv,_ | cb,base⟩ := d <;> rfl

end Specifications

end Ns3Helix.SocketImpl
