import Ns3Helix.SocketMachine
import Ns3Helix.StackMachine

/-!
# Sockets on a wired stack

The wiring and the sockets meet in `CreateSocket`, which builds a Helix socket
from the node and the UDP socket factory of its protocol, and in `DoDispose`.
The application may drop its references to a socket at any time; the protocol
keeps one in its registry. Disposal ends a run.
-/

set_option autoImplicit false

namespace Ns3Helix.HelixSystem
open Ns3Helix.SocketInterface Ns3Helix.SocketImpl Ns3Helix.SocketMachine
open Ns3Helix.HelixStack (Abort HelixL4Protocol HelixSocketFactoryImpl TypeId World)
open Ns3Helix.StackMachine (Wiring)

/-- Sockets are numbered as they are created. `held` has an entry for each
reference of the application to a Helix socket. -/
structure System (P : Platform) (M : UdpMachine P ℕ) where
  wiring : Wiring
  sockets : Config P ℕ ℕ M
  nextSocket : ℕ
  nextUdpSocket : ℕ
  held : List ℕ
  disposed : List ℕ

abbrev SystemM (P : Platform) (M : UdpMachine P ℕ) := StateT (System P M) (Except Abort)

variable {P : Platform} {M : UdpMachine P ℕ}

namespace System

def initial (M : UdpMachine P ℕ) : System P M where
  wiring := .initial
  sockets := bare M
  nextSocket := 0
  nextUdpSocket := 0
  held := []
  disposed := []

variable (c : System P M)

def helix (p : ℕ) : HelixL4Protocol := c.wiring.world.helix p

def factory (f : ℕ) : HelixSocketFactoryImpl := c.wiring.world.factory f

def typeOf (o : ℕ) : Option TypeId := c.wiring.world.objects.typeOf o

def getObject (o : ℕ) (t : TypeId) : Option ℕ := c.wiring.world.objects.getObject o t

def withWorld (w : World) : System P M := { c with wiring := { c.wiring with world := w } }

def setSocket (s : ℕ) (d : HelixSocketImpl P ℕ) : System P M :=
  { c with sockets := c.sockets.setSocket s d }

def newSocket : System P M :=
  { c.setSocket c.nextSocket .fresh with nextSocket := c.nextSocket+1 }

def newUdpSocket : System P M := { c with nextUdpSocket := c.nextUdpSocket+1 }

def addSocket (p s : ℕ) : System P M :=
  c.withWorld (c.wiring.world.setHelixFields p ((c.helix p).addSocket s))

def hold (s : ℕ) : System P M := { c with held := s :: c.held }

def drop (s : ℕ) : System P M := { c with held := c.held.erase s }

def abort (e : Abort) : System P M := { c with wiring := { c.wiring with aborted := some e } }

def dispose (o : ℕ) : System P M :=
  { c.withWorld (c.wiring.world.dispose o) with disposed := c.wiring.world.objects.members o }

end System

section CreateSocket

def mNode (p : ℕ) : SystemM P M (Option ℕ) := do return ((← get).helix p).mNode

def mHelix (f : ℕ) : SystemM P M (Option ℕ) := do return ((← get).factory f).mHelix

def getObject (o : ℕ) (t : TypeId) : SystemM P M (Option ℕ) := do return (← get).getObject o t

def dereference : Option ℕ → SystemM P M ℕ
  | some o => return o
  | none => throw .nullDereference

def createHelixSocket : SystemM P M ℕ :=
  modifyGet fun c => (c.nextSocket,c.newSocket)

/-- `CreateSocket` of a `UdpSocketFactory`: a socket nobody else has. -/
def createUdpSocket : SystemM P M ℕ :=
  modifyGet fun c => (c.nextUdpSocket,c.newUdpSocket)

def setNode (s : ℕ) (node : Option ℕ) : SystemM P M Unit :=
  modify fun c => c.setSocket s ((c.sockets.socket s).setNode node)

def setHelix (s : ℕ) (helix : Option ℕ) : SystemM P M Unit :=
  modify fun c => c.setSocket s ((c.sockets.socket s).setHelix helix)

def setUdpSocket (s : ℕ) (udpSocket : Option ℕ) : SystemM P M Unit :=
  modify fun c => c.setSocket s ((c.sockets.socket s).setUdpSocket udpSocket)

def addSocket (p s : ℕ) : SystemM P M Unit := modify fun c => c.addSocket p s

def helixCreateSocket (this : ℕ) : SystemM P M ℕ := do
  let socket ← createHelixSocket
  setNode socket (← mNode this)
  setHelix socket (some this)
  let node ← dereference (← mNode this)
  let _udpSocketFactory ← dereference (← getObject node .udpSocketFactory)
  let udpSocket ← createUdpSocket
  setUdpSocket socket (some udpSocket)
  addSocket this socket
  return socket

def factoryCreateSocket (this : ℕ) : SystemM P M ℕ := do
  let helix ← dereference (← mHelix this)
  helixCreateSocket helix

end CreateSocket

inductive Creator
  | helix (p : ℕ)
  | factory (f : ℕ)
  deriving DecidableEq, Repr

def createSocket : Creator → SystemM P M ℕ
  | .helix p => helixCreateSocket p
  | .factory f => factoryCreateSocket f

inductive SystemEvent (P : Platform)
  | stack (e : StackMachine.Event)
  | socket (a : Action P ℕ ℕ)
  | createSocket (r : Creator)
  | createUdpSocket (factory : ℕ)
  | drop (s : ℕ)
  | dispose (o : ℕ)

inductive SystemResult (P : Platform)
  | nothing
  | socket (seen : Seen P ℕ ℕ)
  | created (s : ℕ)
  | aborted (e : Abort)

abbrev SystemLabel (P : Platform) := SystemEvent P × SystemResult P

namespace System

variable (c : System P M)

def Provides : Creator → Prop
  | .helix p => c.typeOf p = some .helixL4Protocol
  | .factory f => c.typeOf f = some .helixSocketFactory

def serves : Creator → Option ℕ
  | .helix p => some p
  | .factory f => (c.factory f).mHelix

def Owned (s : ℕ) : Prop := ∃ (p : ℕ) (k : UInt64), (c.helix p).mSockets[k]? = some (some s)

def Alive (s : ℕ) : Prop := s ∈ c.held ∨ c.Owned s

def Refers : Action P ℕ ℕ → Prop
  | .call (.helix s) _ => c.Alive s
  | .inherited (.helix s) _ => c.Alive s
  | .call (.udp u) _ => u < c.nextUdpSocket
  | .inherited (.udp u) _ => u < c.nextUdpSocket
  | _ => True

structure Idle : Prop where
  alive : c.wiring.aborted = none
  tasks : c.wiring.tasks = []
  undisposed : c.disposed = []

end System

inductive Step : System P M → SystemLabel P → System P M → Prop
  | stack {c : System P M} {e : StackMachine.Event} {w : Wiring} (undisposed : c.disposed = [])
      (runs : c.sockets.appRuns = true) (h : StackMachine.Step c.wiring e w) :
      Step c (.stack e,.nothing) { c with wiring := w }
  | socket {c : System P M} {a : Action P ℕ ℕ} {seen : Seen P ℕ ℕ} {d : Config P ℕ ℕ M}
      (idle : c.Idle) (refers : c.Refers a) (h : SocketMachine.Step M c.sockets (a,seen) d) :
      Step c (.socket a,.socket seen) { c with sockets := d }
  | created {c c' : System P M} {r : Creator} {s : ℕ} (idle : c.Idle)
      (runs : c.sockets.appRuns = true) (provides : c.Provides r)
      (h : (createSocket r).run c = .ok (s,c')) :
      Step c (.createSocket r,.created s) (c'.hold s)
  | aborted {c : System P M} {r : Creator} {e : Abort} (idle : c.Idle)
      (runs : c.sockets.appRuns = true) (provides : c.Provides r)
      (h : (createSocket r).run c = .error e) :
      Step c (.createSocket r,.aborted e) (c.abort e)
  | createUdpSocket {c : System P M} {f : ℕ} (idle : c.Idle)
      (runs : c.sockets.appRuns = true) (provides : c.typeOf f = some .udpSocketFactory) :
      Step c (.createUdpSocket f,.created c.nextUdpSocket) c.newUdpSocket
  | drop {c : System P M} {s : ℕ} (idle : c.Idle) (runs : c.sockets.appRuns = true)
      (held : s ∈ c.held) : Step c (.drop s,.nothing) (c.drop s)
  | dispose {c : System P M} {o : ℕ} (idle : c.Idle) (runs : c.sockets.appRuns = true) :
      Step c (.dispose o,.nothing) (c.dispose o)

end Ns3Helix.HelixSystem
