import Mathlib.Data.List.Sort
import Ns3Helix.FunctionStack
import Ns3Helix.SystemSteps

/-!
# The echo example

A script over the whole system: `main` sets Helix up on two nodes, and two
functions the simulator runs later each take the Helix socket factory of their
node, make a socket of it, connect it to the other one and schedule its
closing. The simulator runs what is due first, and nothing is due before its
time; callbacks may be invoked from within any call and between two events.
-/

set_option autoImplicit false

namespace Ns3Helix.HelixExample
open Ns3Helix.SocketInterface Ns3Helix.SocketImpl Ns3Helix.SocketMachine
open Ns3Helix.HelixSystem Ns3Helix.TransitionSystem
open Ns3Helix.HelixStack (Abort TypeId World)

inductive Callback
  | handleRead
  deriving DecidableEq, Repr

@[reducible] def platform (P : Platform) : Platform := { P with AppCallback := Callback }

inductive Role
  | client
  | server
  deriving DecidableEq, Repr

structure Example (P : Platform) where
  node : Role → ℕ
  distinct : node .client ≠ node .server
  clientAddress : P.Address
  serverAddress : P.Address
  createPacket : UInt16 → P.Packet

variable {P : Platform}

section Functions

def pktSize : UInt16 := 10

def Example.localAddress (E : Example P) : Role → P.Address
  | .client => E.clientAddress
  | .server => E.serverAddress

def Example.peerAddress (E : Example P) : Role → P.Address
  | .client => E.serverAddress
  | .server => E.clientAddress

inductive Call (P : Platform)
  -- createServerHelixSocket and sendPacket
  | bind (role : Role) (socket : ℕ)
  | connect (role : Role) (socket : ℕ)
  | hook (role : Role) (socket : ℕ)
  | send (socket : ℕ)
  -- handleRead
  | recvFrom (socket : SocketRef ℕ ℕ) (fromAddress : P.Address)
  -- closeSocket
  | close (socket : ℕ)
  | unhook (socket : ℕ)

def Call.socket : Call P → SocketRef ℕ ℕ
  | .bind _ socket => .helix socket
  | .connect _ socket => .helix socket
  | .hook _ socket => .helix socket
  | .send socket => .helix socket
  | .recvFrom socket _ => socket
  | .close socket => .helix socket
  | .unhook socket => .helix socket

@[reducible] def Call.op (E : Example P) : Call P → Op (platform P) (fun _ => Callback)
  | .bind role _ => .bindAddress (E.localAddress role)
  | .connect role _ => .connect (E.peerAddress role)
  | .hook _ _ => .setRecvCallback (some .handleRead)
  | .send _ => .send (some (E.createPacket pktSize)) 0
  | .recvFrom _ fromAddress => .recvFrom 0xffffffff 0 fromAddress
  | .close _ => .close
  | .unhook _ => .setRecvCallback none

/-- What a function does next: a step of the set-up in `main`, `CreateSocket`
of the factory of a node, a call of a socket method, or letting go of the last
reference to a socket. -/
inductive Point (P : Platform)
  | createHelix
  | createHelix2 (helix : ℕ)
  | addHelix (helix helix2 : ℕ)
  | addHelix2 (helix2 : ℕ)
  | createSocket (role : Role)
  | call (l : Call P)
  | release (socket : ℕ)

inductive SimulatorEvent
  | createServerHelixSocket
  | sendPacket
  | closeSocket (socket : ℕ)
  deriving DecidableEq, Repr

def SimulatorEvent.start : SimulatorEvent → Point P
  | .createServerHelixSocket => .createSocket .server
  | .sendPacket => .createSocket .client
  | .closeSocket socket => .call (.close socket)

def handleRead (socket : SocketRef ℕ ℕ) : Point P := .call (.recvFrom socket P.noAddress)

def Call.resume (E : Example P) :
    (l : Call P) → (l.op E).ty.denote (platform P) → Option (Point P)
  | .bind role socket, _ => some (.call (.connect role socket))
  | .connect role socket, _ => some (.call (.hook role socket))
  | .hook .server _, _ => none
  | .hook .client socket, _ => some (.call (.send socket))
  | .send _, _ => none
  | .recvFrom socket _, ((packet,fromAddress) : Option P.Packet × P.Address) =>
    match packet with
    | some _ => some (.call (.recvFrom socket fromAddress))
    | none => none
  | .close socket, _ => some (.call (.unhook socket))
  | .unhook socket, _ => some (.release socket)

def Call.schedules : Call P → Option SimulatorEvent
  | .hook .server socket => some (.closeSocket socket)
  | .send socket => some (.closeSocket socket)
  | _ => none

end Functions

abbrev Phase (P : Platform) := FunctionStack.Phase (Point P) (Call P)

abbrev Function (P : Platform) := FunctionStack.Function Callback (Point P) (Call P)

/-- The functions in progress, innermost first, and what is scheduled, first
what is due first. The clock shows the time of the last event. -/
structure Process (P : Platform) where
  functions : List (Function P)
  scheduled : List (ℕ × SimulatorEvent)
  now : ℕ

namespace Process

def initial : Process P where
  functions := [⟨none,.calling .createHelix⟩]
  scheduled := []
  now := 0

variable (p : Process P)

/-- Of two events due at one time the earlier scheduled comes first. -/
def schedule (delay : ℕ) (e : SimulatorEvent) : Process P :=
  { p with scheduled := p.scheduled.orderedInsert (fun a b => a.1 < b.1) (p.now+delay,e) }

def proceed (callback : Option Callback) (rest : List (Function P)) (next : Option (Point P)) :
    Process P :=
  { p with functions := FunctionStack.proceed callback rest next }

def returned (E : Example P) (callback : Option Callback) (rest : List (Function P)) (l : Call P)
    (v : (l.op E).ty.denote (platform P)) : Process P :=
  ((l.schedules).elim p (p.schedule 10)).proceed callback rest (l.resume E v)

end Process

/-- What is to be done next, with the functions below: the innermost function
is at it, or it begins what the simulator runs next. `p'` is then the rest. -/
inductive Ready (p : Process P) : Point P → Option Callback → Process P → Prop
  | calling {callback : Option Callback} {l : Point P} {rest : List (Function P)}
      (hp : p.functions = ⟨callback,.calling l⟩ :: rest) :
      Ready p l callback { p with functions := rest }
  | begin {time : ℕ} {e : SimulatorEvent} {later : List (ℕ × SimulatorEvent)}
      (idle : p.functions = []) (due : p.scheduled = (time,e) :: later) :
      Ready p e.start none { p with scheduled := later, now := time }

/-- The nodes as `InternetStackHelper` leaves them. -/
structure Installed (E : Example P) (w : World) : Prop where
  node : ∀ role, w.objects.typeOf (E.node role) = some .node
  udp : ∀ role, (w.objects.getObject (E.node role) .udpSocketFactory).isSome

def Foreign : StackMachine.Event → Prop
  | .create t => t ≠ .helixL4Protocol
  | .addHelix _ _ => False
  | _ => True

def Notifies : StackMachine.Event → Prop
  | .proceed => True
  | .publish _ => True
  | _ => False

def Unnoticed : Seen (platform P) ℕ ℕ → Prop
  | .nothing => True
  | .stamped _ => True
  | .informed _ => True
  | .crashed _ => True
  | _ => False

inductive ProcessStep {M : UdpMachine (platform P) ℕ} (E : Example P)
    (c : System (platform P) M) :
    Process P → SystemLabel (platform P) → Process P → Prop
  -- main, before the first line about Helix
  | install {p : Process P} (e : StackMachine.Event) (foreign : Foreign e)
      (hp : p.functions = [⟨none,.calling .createHelix⟩]) :
      ProcessStep E c p (.stack e,.nothing) p
  | createHelix {p : Process P} (installed : Installed E c.wiring.world)
      (hp : p.functions = [⟨none,.calling .createHelix⟩]) :
      ProcessStep E c p (.stack (.create .helixL4Protocol),.nothing)
        { p with functions := [⟨none,.calling (.createHelix2 c.wiring.world.objects.next)⟩] }
  | createHelix2 {p : Process P} (helix : ℕ)
      (hp : p.functions = [⟨none,.calling (.createHelix2 helix)⟩]) :
      ProcessStep E c p (.stack (.create .helixL4Protocol),.nothing)
        { p with functions := [⟨none,.calling (.addHelix helix c.wiring.world.objects.next)⟩] }
  | addHelix {p : Process P} (helix helix2 : ℕ)
      (hp : p.functions = [⟨none,.calling (.addHelix helix helix2)⟩]) :
      ProcessStep E c p (.stack (.addHelix (E.node .client) (some helix)),.nothing)
        { p with functions := [⟨none,.calling (.addHelix2 helix2)⟩] }
  | addHelix2 {p : Process P} (helix2 : ℕ)
      (hp : p.functions = [⟨none,.calling (.addHelix2 helix2)⟩]) :
      ProcessStep E c p (.stack (.addHelix (E.node .server) (some helix2)),.nothing)
        (({ p with functions := [] }.schedule 1 .createServerHelixSocket).schedule 3 .sendPacket)
  | notify {p : Process P} (e : StackMachine.Event) (notifies : Notifies e) :
      ProcessStep E c p (.stack e,.nothing) p
  -- `GetObject` on the node, and `CreateSocket` of the factory that is found
  | createSocket {p q : Process P} (role : Role) (callback : Option Callback)
      (ready : Ready p (.createSocket role) callback q) (factory : ℕ)
      (found : c.getObject (E.node role) .helixSocketFactory = some factory) (socket : ℕ) :
      ProcessStep E c p (.createSocket (.factory factory),.created socket)
        (q.proceed callback q.functions (some (.call (.bind role socket))))
  | refused {p q : Process P} (role : Role) (callback : Option Callback)
      (ready : Ready p (.createSocket role) callback q) (factory : ℕ)
      (found : c.getObject (E.node role) .helixSocketFactory = some factory) (e : Abort) :
      ProcessStep E c p (.createSocket (.factory factory),.aborted e) p
  | call {p q : Process P} (l : Call P) (callback : Option Callback)
      (ready : Ready p (.call l) callback q) (seen : Seen (platform P) ℕ ℕ)
      (h : Unnoticed seen) :
      ProcessStep E c p (.socket (.call l.socket (l.op E)),.socket seen)
        { q with functions := ⟨callback,.waiting l⟩ :: q.functions }
  | returned {p : Process P} (callback : Option Callback) (l : Call P) (rest : List (Function P))
      (hp : p.functions = ⟨callback,.waiting l⟩ :: rest)
      (v : (l.op E).ty.denote (platform P)) :
      ProcessStep E c p (.socket (.udp (.return ⟨_,v⟩)),.socket (.returned l.socket ⟨_,v⟩))
        (p.returned E callback rest l v)
  | invoked {p : Process P} (u : ℕ) (e : Event) (socket : SocketRef ℕ ℕ) :
      ProcessStep E c p (.socket (.udp (.raise u e)),.socket (.invoked .handleRead socket e))
        { p with functions := ⟨some .handleRead,.calling (handleRead socket)⟩ :: p.functions }
  | callbackReturn {p : Process P} (cb : Callback) (rest : List (Function P))
      (hp : p.functions = ⟨some cb,.returning⟩ :: rest) :
      ProcessStep E c p (.socket .callbackReturn,.socket .nothing) { p with functions := rest }
  | udp {p : Process P} (move : UdpMove (platform P) ℕ) (seen : Seen (platform P) ℕ ℕ)
      (h : Unnoticed seen) : ProcessStep E c p (.socket (.udp move),.socket seen) p
  | release {p q : Process P} (socket : ℕ) (callback : Option Callback)
      (ready : Ready p (.release socket) callback q) :
      ProcessStep E c p (.drop socket,.nothing) (q.proceed callback q.functions none)

abbrev Joint (E : Example P) (M : UdpMachine (platform P) ℕ) :
    System (platform P) M × Process P → SystemLabel (platform P) →
      System (platform P) M × Process P → Prop :=
  Beside Step (ProcessStep E)

end Ns3Helix.HelixExample
