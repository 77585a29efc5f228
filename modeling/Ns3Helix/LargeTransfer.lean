import Ns3Helix.FunctionStack

/-!
# The large transfer example

A sender that writes 2000000 bytes through a Helix socket, 1040 at a time,
and a receiver that reads them. Neither is a loop that runs by itself: the
functions stop at each call of a socket method, and any of them may be
entered again while it waits, because the socket may invoke a callback from
within the call. What runs is a stack of functions, each at one of its calls,
around one counter they share.
-/

set_option autoImplicit false

namespace Ns3Helix.LargeTransfer
open Ns3Helix.SocketInterface Ns3Helix.SocketImpl Ns3Helix.SocketMachine
open Ns3Helix.TransitionSystem

inductive Callback
  | handleRead
  | writeUntilBufferFull
  deriving DecidableEq, Repr

@[reducible] def platform (P : Platform) : Platform := { P with AppCallback := Callback }

section Data

def totalTxBytes : UInt32 := 2000000

def writeSize : UInt32 := 1040

def toascii (c : UInt32) : UInt8 := (c &&& 0x7f).toUInt8

def data : List UInt8 :=
  (List.range writeSize.toNat).map fun i => toascii (97 + UInt32.ofNat i % 26)

def written (dataOffset toWrite : UInt32) : List UInt8 :=
  (data.drop dataOffset.toNat).take toWrite.toNat

end Data

structure Example (P : Platform) (η : Type) where
  localSocket : η
  remoteSocket : η
  distinct : localSocket ≠ remoteSocket
  servAddress : P.Address
  createPacket : List UInt8 → P.Packet

/-- A call a function of the example makes, with the locals it still needs. -/
inductive Location (P : Platform) (η ι : Type)
  -- main
  | bindRemote
  | listenRemote
  | hookRemote
  | bindLocal
  -- StartFlow
  | connect
  | hookLocal
  | txSpace
  -- WriteUntilBufferFull: in the test of the loop, in the bound, and `Send`
  | condition (localSocket : SocketRef η ι)
  | room (localSocket : SocketRef η ι) (dataOffset toWrite : UInt32)
  | sending (localSocket : SocketRef η ι) (dataOffset toWrite : UInt32)
  -- HandleRead
  | recvFrom (socket : SocketRef η ι) (fromAddress : P.Address)
  -- CloseSocket
  | close (socket : SocketRef η ι)
  | unhookRecv (socket : SocketRef η ι)
  | unhookSend (socket : SocketRef η ι)

variable {P : Platform} {η ι : Type}

section Functions

variable (E : Example P η)

def Location.socket : Location P η ι → SocketRef η ι
  | .bindRemote => .helix E.remoteSocket
  | .listenRemote => .helix E.remoteSocket
  | .hookRemote => .helix E.remoteSocket
  | .bindLocal => .helix E.localSocket
  | .connect => .helix E.localSocket
  | .hookLocal => .helix E.localSocket
  | .txSpace => .helix E.localSocket
  | .condition localSocket => localSocket
  | .room localSocket _ _ => localSocket
  | .sending localSocket _ _ => localSocket
  | .recvFrom socket _ => socket
  | .close socket => socket
  | .unhookRecv socket => socket
  | .unhookSend socket => socket

@[reducible] def Location.op : Location P η ι → Op (platform P) (fun _ => Callback)
  | .bindRemote => .bindAddress E.servAddress
  | .listenRemote => .listen
  | .hookRemote => .setRecvCallback (some .handleRead)
  | .bindLocal => .bind
  | .connect => .connect E.servAddress
  | .hookLocal => .setSendCallback (some .writeUntilBufferFull)
  | .txSpace => .getTxAvailable
  | .condition _ => .getTxAvailable
  | .room _ _ _ => .getTxAvailable
  | .sending _ dataOffset toWrite => .send (some (E.createPacket (written dataOffset toWrite))) 0
  | .recvFrom _ fromAddress => .recvFrom 0xffffffff 0 fromAddress
  | .close _ => .close
  | .unhookRecv _ => .setRecvCallback none
  | .unhookSend _ => .setSendCallback none

def closeSocket (socket : SocketRef η ι) : Location P η ι := .close socket

def handleRead (socket : SocketRef η ι) : Location P η ι := .recvFrom socket P.noAddress

/-- What follows the loop of `WriteUntilBufferFull`. A function that makes no
more calls has returned. -/
def afterLoop (currentTxBytes : UInt32) (localSocket : SocketRef η ι) :
    Option (Location P η ι) :=
  if currentTxBytes ≥ totalTxBytes then some (closeSocket localSocket) else none

def writeUntilBufferFull (currentTxBytes : UInt32) (localSocket : SocketRef η ι) :
    Option (Location P η ι) :=
  if currentTxBytes < totalTxBytes then some (.condition localSocket)
  else afterLoop currentTxBytes localSocket

def Callback.start (currentTxBytes : UInt32) (socket : SocketRef η ι) :
    Callback → Option (Location P η ι)
  | .handleRead => some (LargeTransfer.handleRead socket)
  | .writeUntilBufferFull => LargeTransfer.writeUntilBufferFull currentTxBytes socket

def resume (currentTxBytes : UInt32) :
    (l : Location P η ι) → (l.op E).ty.denote (platform P) → UInt32 × Option (Location P η ι)
  | .bindRemote, _ => (currentTxBytes,some .listenRemote)
  | .listenRemote, _ => (currentTxBytes,some .hookRemote)
  | .hookRemote, _ => (currentTxBytes,some .bindLocal)
  | .bindLocal, _ => (currentTxBytes,none)
  | .connect, _ => (currentTxBytes,some .hookLocal)
  | .hookLocal, _ => (currentTxBytes,some .txSpace)
  | .txSpace, _ => (currentTxBytes,writeUntilBufferFull currentTxBytes (.helix E.localSocket))
  | .condition localSocket, (txAvailable : UInt32) =>
    if txAvailable > 0 then
      let left := totalTxBytes - currentTxBytes
      let dataOffset := currentTxBytes % writeSize
      let toWrite := writeSize - dataOffset
      (currentTxBytes,some (.room localSocket dataOffset (min toWrite left)))
    else (currentTxBytes,afterLoop currentTxBytes localSocket)
  | .room localSocket dataOffset toWrite, (txAvailable : UInt32) =>
    (currentTxBytes,some (.sending localSocket dataOffset (min toWrite txAvailable)))
  | .sending localSocket _ _, (amountSent : Int32) =>
    -- the counter is read again: it may have moved while `Send` was in progress
    if amountSent < 0 then (currentTxBytes,none)
    else (currentTxBytes + amountSent.toUInt32,
      writeUntilBufferFull (currentTxBytes + amountSent.toUInt32) localSocket)
  | .recvFrom socket _, ((packet,fromAddress) : Option P.Packet × P.Address) =>
    match packet with
    | some _ => (currentTxBytes,some (.recvFrom socket fromAddress))
    | none => (currentTxBytes,none)
  | .close socket, _ => (currentTxBytes,some (.unhookRecv socket))
  | .unhookRecv socket, _ => (currentTxBytes,some (.unhookSend socket))
  | .unhookSend _, _ => (currentTxBytes,none)

end Functions

abbrev Phase (P : Platform) (η ι : Type) := FunctionStack.Phase (Location P η ι) (Location P η ι)

abbrev Function (P : Platform) (η ι : Type) :=
  FunctionStack.Function Callback (Location P η ι) (Location P η ι)

inductive SimulatorEvent
  | main
  | startFlow
  | closeSocket
  deriving DecidableEq, Repr

def SimulatorEvent.start (E : Example P η) : SimulatorEvent → Location P η ι
  | .main => .bindRemote
  | .startFlow => .connect
  | .closeSocket => LargeTransfer.closeSocket (.helix E.remoteSocket)

def SimulatorEvent.schedules : SimulatorEvent → List SimulatorEvent
  | .main => [.startFlow,.closeSocket]
  | .startFlow => []
  | .closeSocket => []

structure Process (P : Platform) (η ι : Type) where
  currentTxBytes : UInt32
  functions : List (Function P η ι)
  scheduled : List SimulatorEvent

namespace Process

def initial : Process P η ι where
  currentTxBytes := 0
  functions := []
  scheduled := [.main]

def invoke (p : Process P η ι) (socket : SocketRef η ι) (cb : Callback) : Process P η ι :=
  { p with
    functions := FunctionStack.proceed (some cb) p.functions (cb.start p.currentTxBytes socket) }

def proceed (p : Process P η ι) (callback : Option Callback) (rest : List (Function P η ι))
    (r : UInt32 × Option (Location P η ι)) : Process P η ι :=
  { p with
    currentTxBytes := r.1
    functions := FunctionStack.proceed callback rest r.2 }

end Process

def Unnoticed : Seen (platform P) η ι → Prop
  | .nothing => True
  | .stamped _ => True
  | .informed _ => True
  | .crashed _ => True
  | _ => False

inductive ProcessStep (E : Example P η) :
    Process P η ι → Label (platform P) η ι → Process P η ι → Prop
  | begin {p : Process P η ι} (e : SimulatorEvent) (scheduled : e ∈ p.scheduled)
      (idle : p.functions = []) :
      ProcessStep E p (.call ((e.start E).socket E) ((e.start E : Location P η ι).op E),.nothing)
        { p with
          functions := [⟨none,.waiting (e.start E)⟩]
          scheduled := e.schedules ++ p.scheduled.erase e }
  | call {p : Process P η ι} (callback : Option Callback) (l : Location P η ι)
      (rest : List (Function P η ι)) (hp : p.functions = ⟨callback,.calling l⟩ :: rest) :
      ProcessStep E p (.call (l.socket E) (l.op E),.nothing)
        { p with functions := ⟨callback,.waiting l⟩ :: rest }
  | returned {p : Process P η ι} (callback : Option Callback) (l : Location P η ι)
      (rest : List (Function P η ι)) (hp : p.functions = ⟨callback,.waiting l⟩ :: rest)
      (v : (l.op E).ty.denote (platform P)) :
      ProcessStep E p (.udp (.return ⟨_,v⟩),.returned (l.socket E) ⟨_,v⟩)
        (p.proceed callback rest (resume E p.currentTxBytes l v))
  | invoked {p : Process P η ι} (u : ι) (e : Event) (cb : Callback) (socket : SocketRef η ι) :
      ProcessStep E p (.udp (.raise u e),.invoked cb socket e) (p.invoke socket cb)
  | callbackReturn {p : Process P η ι} (cb : Callback) (rest : List (Function P η ι))
      (hp : p.functions = ⟨some cb,.returning⟩ :: rest) :
      ProcessStep E p (.callbackReturn,.nothing) { p with functions := rest }
  | udp {p : Process P η ι} (move : UdpMove (platform P) ι) (seen : Seen (platform P) η ι)
      (h : Unnoticed seen) : ProcessStep E p (.udp move,seen) p

abbrev Joint [DecidableEq η] [DecidableEq ι] (E : Example P η) (M : UdpMachine (platform P) ι) :
    Config (platform P) η ι M × Process P η ι → Label (platform P) η ι →
      Config (platform P) η ι M × Process P η ι → Prop :=
  Together (Step M) (ProcessStep E)

end Ns3Helix.LargeTransfer
