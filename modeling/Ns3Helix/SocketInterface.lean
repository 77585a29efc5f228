import Mathlib.Logic.Function.Basic

/-!
# The socket interface of ns-3

The part of `ns3::Socket` the module uses: the operations a socket class
overrides, the fields and options every socket object carries in its base
class, and the events a socket raises through the callbacks stored in those
fields. Packets, addresses, devices and nodes are passed through unread, so
they stay arbitrary types.
-/

set_option autoImplicit false

namespace Ns3Helix.SocketInterface

/-- What the module takes from ns-3 without looking inside. A `Ptr` that may
be null is an `Option`. -/
structure Platform where
  Packet : Type
  Address : Type
  Ipv6Address : Type
  NetDevice : Type
  Node : Type
  SocketErrno : Type
  SocketType : Type
  Ipv6MulticastFilterMode : Type
  AppCallback : Type
  noAddress : Address
  /-- The TOS an `InetSocketAddress` carries; no other address has one. -/
  tosOf : Address → Option UInt8
  isUnicast : Address → Bool
  ipTos2Priority : UInt8 → UInt8

def Platform.unit : Platform where
  Packet := Unit
  Address := Unit
  Ipv6Address := Unit
  NetDevice := Unit
  Node := Unit
  SocketErrno := Unit
  SocketType := Unit
  Ipv6MulticastFilterMode := Unit
  AppCallback := Unit
  noAddress := ()
  tosOf _ := none
  isUnicast _ := true
  ipTos2Priority _ := 0

inductive Slot
  | recv
  | send
  | connectionSucceeded
  | connectionFailed
  | normalClose
  | errorClose
  | connectionRequest
  | newConnectionCreated
  | dataSent
  deriving DecidableEq, Repr

inductive Event
  | recv
  | send (numBytes : UInt32)
  | connectionSucceeded
  | connectionFailed
  | normalClose
  | errorClose
  | dataSent (size : UInt32)
  deriving DecidableEq, Repr

def Event.slot : Event → Slot
  | .recv => .recv
  | .send _ => .send
  | .connectionSucceeded => .connectionSucceeded
  | .connectionFailed => .connectionFailed
  | .normalClose => .normalClose
  | .errorClose => .errorClose
  | .dataSent _ => .dataSent

inductive Ty
  | void
  | int
  | uint32
  | bool
  | packet
  | intAddress
  | packetAddress
  | node
  | socketErrno
  | socketType
  deriving DecidableEq, Repr

@[reducible] def Ty.denote (P : Platform) : Ty → Type
  | .void => Unit
  | .int => Int32
  | .uint32 => UInt32
  | .bool => Bool
  | .packet => Option P.Packet
  | .intAddress => Int32 × P.Address
  | .packetAddress => Option P.Packet × P.Address
  | .node => Option P.Node
  | .socketErrno => P.SocketErrno
  | .socketType => P.SocketType

/-- The operations `HelixSocketImpl` overrides. `κ` is what a callback of a
slot is; a null callback is `none`. -/
inductive Op (P : Platform) (κ : Slot → Type)
  | getErrno
  | getSocketType
  | getNode
  | setRecvCallback (receivedData : Option (κ .recv))
  | setSendCallback (sendCb : Option (κ .send))
  | bindToNetDevice (netdevice : Option P.NetDevice)
  | connect (address : P.Address)
  | bind
  | bind6
  | bindAddress (address : P.Address)
  | listen
  | send (p : Option P.Packet) (flags : UInt32)
  | sendTo (p : Option P.Packet) (flags : UInt32) (address : P.Address)
  | recv (maxSize flags : UInt32)
  | recvFrom (maxSize flags : UInt32) (fromAddress : P.Address)
  | close
  | shutdownSend
  | shutdownRecv
  | getTxAvailable
  | getRxAvailable
  | getSockName (address : P.Address)
  | getPeerName (address : P.Address)
  | setAllowBroadcast (allowBroadcast : Bool)
  | getAllowBroadcast
  | ipv6JoinGroup (address : P.Ipv6Address) (filterMode : P.Ipv6MulticastFilterMode)
      (sourceAddresses : List P.Ipv6Address)

variable {P : Platform} {κ κ' κ'' : Slot → Type}

def Op.ty : Op P κ → Ty
  | .getErrno => .socketErrno
  | .getSocketType => .socketType
  | .getNode => .node
  | .setRecvCallback _ => .void
  | .setSendCallback _ => .void
  | .bindToNetDevice _ => .void
  | .connect _ => .int
  | .bind => .int
  | .bind6 => .int
  | .bindAddress _ => .int
  | .listen => .int
  | .send _ _ => .int
  | .sendTo _ _ _ => .int
  | .recv _ _ => .packet
  | .recvFrom _ _ _ => .packetAddress
  | .close => .int
  | .shutdownSend => .int
  | .shutdownRecv => .int
  | .getTxAvailable => .uint32
  | .getRxAvailable => .uint32
  | .getSockName _ => .intAddress
  | .getPeerName _ => .intAddress
  | .setAllowBroadcast _ => .bool
  | .getAllowBroadcast => .bool
  | .ipv6JoinGroup _ _ _ => .void

def Op.map (f : Option (κ .recv) → Option (κ' .recv)) (g : Option (κ .send) → Option (κ' .send)) :
    Op P κ → Op P κ'
  | .getErrno => .getErrno
  | .getSocketType => .getSocketType
  | .getNode => .getNode
  | .setRecvCallback cb => .setRecvCallback (f cb)
  | .setSendCallback cb => .setSendCallback (g cb)
  | .bindToNetDevice d => .bindToNetDevice d
  | .connect a => .connect a
  | .bind => .bind
  | .bind6 => .bind6
  | .bindAddress a => .bindAddress a
  | .listen => .listen
  | .send p flags => .send p flags
  | .sendTo p flags a => .sendTo p flags a
  | .recv n flags => .recv n flags
  | .recvFrom n flags a => .recvFrom n flags a
  | .close => .close
  | .shutdownSend => .shutdownSend
  | .shutdownRecv => .shutdownRecv
  | .getTxAvailable => .getTxAvailable
  | .getRxAvailable => .getRxAvailable
  | .getSockName a => .getSockName a
  | .getPeerName a => .getPeerName a
  | .setAllowBroadcast b => .setAllowBroadcast b
  | .getAllowBroadcast => .getAllowBroadcast
  | .ipv6JoinGroup a m s => .ipv6JoinGroup a m s

@[simp] theorem map_ty (f : Option (κ .recv) → Option (κ' .recv))
    (g : Option (κ .send) → Option (κ' .send)) (o : Op P κ) : (o.map f g).ty = o.ty := by
  cases o <;> rfl

def Op.erase : Op P κ → Op P (fun _ => Unit) :=
  Op.map (Option.map fun _ => ()) (Option.map fun _ => ())

def Op.NonNull : Op P κ → Prop
  | .setRecvCallback cb => cb.isSome
  | .setSendCallback cb => cb.isSome
  | _ => True

inductive OptionName
  | recvPktInfo
  | priority
  | ipTos
  | ipRecvTos
  | ipv6Tclass
  | ipv6RecvTclass
  | ipTtl
  | ipRecvTtl
  | ipv6HopLimit
  | ipv6RecvHopLimit
  deriving DecidableEq, Repr

/-- A TTL, a traffic class or a hop limit goes on a packet if it was set by
hand. -/
structure Options where
  value : OptionName → UInt8
  manual : OptionName → Bool

def Options.fresh : Options where
  value _ := 0
  manual _ := false

def Options.set (options : Options) (name : OptionName) (value : UInt8) (manual : Bool) :
    Options where
  value := Function.update options.value name value
  manual := Function.update options.manual name manual

def setOption (P : Platform) (name : OptionName) (value : UInt8) (options : Options) : Options :=
  match name with
  | .ipTos => (options.set .ipTos value true).set .priority (P.ipTos2Priority value) true
  | name => options.set name value true

structure SendTags where
  ipTos : Option UInt8
  priority : Option UInt8
  ipTtl : Option UInt8
  ipv6Tclass : Option UInt8
  ipv6HopLimit : Option UInt8
  deriving DecidableEq, Repr

def nonZero (value : UInt8) : Option UInt8 := if value = 0 then none else some value

def Options.hops (options : Options) (name : OptionName) (unicast : Bool) : Option UInt8 :=
  if options.manual name && unicast then nonZero (options.value name) else none

/-- The tags of a packet sent to `address`. A connected socket uses its own
TOS, and otherwise the TOS in the address passed to `SendTo` is used. A TOS
that is not null decides the priority. -/
def sendTags (P : Platform) (connected : Bool) (address : P.Address) (options : Options) :
    SendTags :=
  match P.tosOf address with
  | some addressTos =>
    let tos := if connected then options.value .ipTos else addressTos
    { ipTos := nonZero tos
      priority := nonZero (if tos = 0 then options.value .priority else P.ipTos2Priority tos)
      ipTtl := options.hops .ipTtl (P.isUnicast address)
      ipv6Tclass := none
      ipv6HopLimit := none }
  | none =>
    { ipTos := none
      priority := nonZero (options.value .priority)
      ipTtl := none
      ipv6Tclass := if options.manual .ipv6Tclass then some (options.value .ipv6Tclass) else none
      ipv6HopLimit := options.hops .ipv6HopLimit (P.isUnicast address) }

def recvOptions (P : Platform) (address : P.Address) : List OptionName :=
  match P.tosOf address with
  | some _ => [.recvPktInfo,.ipRecvTos,.ipRecvTtl]
  | none => [.recvPktInfo,.ipv6RecvTclass,.ipv6RecvHopLimit]

def recvTags (P : Platform) (address : P.Address) (options : Options) : List OptionName :=
  (recvOptions P address).filter fun name => options.value name ≠ 0

structure SocketFields (P : Platform) (κ : Slot → Type) where
  callback : (s : Slot) → Option (κ s)
  options : Options
  boundNetDevice : Option P.NetDevice

def SocketFields.fresh : SocketFields P κ where
  callback _ := none
  options := .fresh
  boundNetDevice := none

def SocketFields.setCallback (d : SocketFields P κ) (s : Slot) (cb : Option (κ s)) :
    SocketFields P κ :=
  { d with callback := Function.update d.callback s cb }

def setAddressTos (P : Platform) (address : P.Address) (options : Options) : Options :=
  match P.tosOf address with
  | some tos => setOption P .ipTos tos options
  | none => options

/-- An address sets nothing but the TOS and the priority that goes with it. -/
theorem setAddressTos_other (P : Platform) (address : P.Address) (options : Options)
    {name : OptionName} (htos : name ≠ .ipTos) (hpriority : name ≠ .priority) :
    (setAddressTos P address options).value name = options.value name := by
  rw [setAddressTos]
  cases P.tosOf address with
  | none => rfl
  | some tos => simp [setOption,Options.set,htos,hpriority]

theorem recvOptions_asks (P : Platform) {address : P.Address} {name : OptionName}
    (h : name ∈ recvOptions P address) : name ≠ .ipTos ∧ name ≠ .priority := by
  rw [recvOptions] at h
  cases ht : P.tosOf address with
  | none =>
    rw [ht] at h
    simp only [List.mem_cons,List.not_mem_nil,or_false] at h
    rcases h with rfl | rfl | rfl <;> simp
  | some tos =>
    rw [ht] at h
    simp only [List.mem_cons,List.not_mem_nil,or_false] at h
    rcases h with rfl | rfl | rfl <;> simp

/-- What an operation called on a UDP socket does to the base-class fields of
that socket. Everything else an operation does is the UDP socket's own. -/
def Op.effect (d : SocketFields P κ) : Op P κ → SocketFields P κ
  | .setRecvCallback cb => d.setCallback .recv cb
  | .setSendCallback cb => d.setCallback .send cb
  | .bindToNetDevice netdevice => { d with boundNetDevice := netdevice }
  | .bindAddress address => { d with options := setAddressTos P address d.options }
  | .connect address => { d with options := setAddressTos P address d.options }
  | _ => d

/-- The members of `ns3::Socket` that `HelixSocketImpl` inherits. They read
and write the fields of the object they are called on. -/
inductive Inherited (κ : Slot → Type)
  | setConnectCallback (connectionSucceeded : Option (κ .connectionSucceeded))
      (connectionFailed : Option (κ .connectionFailed))
  | setCloseCallbacks (normalClose : Option (κ .normalClose))
      (errorClose : Option (κ .errorClose))
  | setAcceptCallback (connectionRequest : Option (κ .connectionRequest))
      (newConnectionCreated : Option (κ .newConnectionCreated))
  | setDataSentCallback (dataSent : Option (κ .dataSent))
  | setOption (name : OptionName) (value : UInt8)
  -- SetIpv6Tclass with -1 or a value out of range
  | unsetIpv6Tclass
  | getOption (name : OptionName)
  | getBoundNetDevice

def Inherited.effect (d : SocketFields P κ) : Inherited κ → SocketFields P κ
  | .setConnectCallback succeeded failed =>
      (d.setCallback .connectionSucceeded succeeded).setCallback .connectionFailed failed
  | .setCloseCallbacks normal error =>
      (d.setCallback .normalClose normal).setCallback .errorClose error
  | .setAcceptCallback request created =>
      (d.setCallback .connectionRequest request).setCallback .newConnectionCreated created
  | .setDataSentCallback dataSent => d.setCallback .dataSent dataSent
  | .setOption name value => { d with options := SocketInterface.setOption P name value d.options }
  | .unsetIpv6Tclass => { d with options := d.options.set .ipv6Tclass 0 false }
  | .getOption _ => d
  | .getBoundNetDevice => d

section
variable (d : SocketFields P κ) (s : Slot) (cb : Option (κ s))

@[simp] theorem setCallback_device :
    (d.setCallback s cb).boundNetDevice = d.boundNetDevice := rfl

@[simp] theorem setCallback_same : (d.setCallback s cb).callback s = cb := by
  simp [SocketFields.setCallback]

@[simp] theorem setCallback_other {t : Slot} (h : t ≠ s) :
    (d.setCallback s cb).callback t = d.callback t := by
  simp [SocketFields.setCallback,h]

end

end Ns3Helix.SocketInterface
