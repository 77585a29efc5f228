import Mathlib.Logic.Embedding.Basic
import Ns3Helix.SocketImpl
import Ns3Helix.TransitionSystem

/-!
# Sockets, the UDP layer below and the application above

One call stack is shared by three parties: the application, the methods of
Helix sockets and an arbitrary UDP layer. The application runs at the bottom
of the stack and inside its callbacks, and issues operations from either
place. The UDP layer runs during the operations it is called with and on its
own between them, and may raise any event at any moment it runs: the socket
the event is raised on looks at the callback in its field and ignores the
event when there is none.
-/

set_option autoImplicit false

namespace Ns3Helix.SocketMachine
open Ns3Helix.InteractionProgram Ns3Helix.SocketInterface Ns3Helix.SocketImpl
open Ns3Helix.TransitionSystem

/-- What the UDP layer can do while it runs. `wake` starts it on its own and
`sleep` ends that. -/
inductive UdpMove (P : Platform) (ι : Type)
  | return (v : Val P)
  | raise (u : ι) (e : Event)
  -- a packet leaves, for the peer of a connected socket or as `SendTo` says
  | transmit (u : ι) (connected : Bool) (address : P.Address)
  | receive (u : ι) (fromAddress : P.Address)
  | wake
  | sleep

/-- An arbitrary UDP layer. It is told of every call and of every return of a
callback it invoked, but not what a callback is. -/
structure UdpMachine (P : Platform) (ι : Type) where
  State : Type
  init : State
  enter : State → ι → Op P (fun _ => Unit) → State
  resume : State → State
  move : State → UdpMove P ι → State → Prop

def UdpMachine.scripted {P : Platform} {ι : Type}
    (reply : ι → Op P (fun _ => Unit) → List (UdpMove P ι)) : UdpMachine P ι where
  State := List (UdpMove P ι)
  init := []
  enter script u o := reply u o ++ script
  resume script := script
  move script next script' := script = next :: script'

def arbitrary {P : Platform} {ι : Type} : UdpMachine P ι where
  State := Unit
  init := ()
  enter _ _ _ := ()
  resume _ := ()
  move _ _ _ := True

def UdpMachine.silent {P : Platform} {ι : Type} : UdpMachine P ι := .scripted fun _ _ => []

def UdpMachine.prompt : UdpMachine .unit Unit :=
  .scripted fun u o => match o with
    | .setRecvCallback _ => [.return ⟨.void,()⟩]
    | .setSendCallback _ => [.return ⟨.void,()⟩]
    | .send _ _ => [.raise u (.send 0),.return ⟨.int,0⟩]
    | .connect _ => [.raise u .connectionSucceeded,.return ⟨.int,0⟩]
    | _ => []

structure Waiting (P : Platform) (η ι : Type) (t : Ty) where
  socket : η
  result : Ty
  rest : t.denote P → SocketM P η ι (result.denote P)

/-- `udp` is an operation of a UDP socket in progress, called by the
application or by a waiting method. `app` is a callback of the application
in progress, invoked by a UDP socket or by a waiting method. -/
inductive Frame (P : Platform) (η ι : Type)
  | udp (u : ι) (t : Ty) (caller : Option (Waiting P η ι t))
  | app (caller : Option (Waiting P η ι .void))
  | spontaneous
  | dead

structure Config (P : Platform) (η ι : Type) (M : UdpMachine P ι) where
  socket : η → HelixSocketImpl P ι
  udp : ι → SocketFields P (Target P.AppCallback η)
  machine : M.State
  stack : List (Frame P η ι)
  printed : List String

inductive Action (P : Platform) (η ι : Type)
  | call (s : SocketRef η ι) (o : Op P (fun _ => P.AppCallback))
  | inherited (s : SocketRef η ι) (i : Inherited (fun _ => P.AppCallback))
  | callbackReturn
  | udp (move : UdpMove P ι)

inductive Seen (P : Platform) (η ι : Type)
  | nothing
  | returned (s : SocketRef η ι) (v : Val P)
  | invoked (cb : P.AppCallback) (s : SocketRef η ι) (e : Event)
  | option (value : UInt8)
  | device (d : Option P.NetDevice)
  | stamped (tags : SendTags)
  | informed (tags : List OptionName)
  | crashed (fault : Fault)

abbrev Label (P : Platform) (η ι : Type) := Action P η ι × Seen P η ι

variable {P : Platform} {η ι : Type} {M : UdpMachine P ι}

def inheritedSeen {κ κ' : Slot → Type} (d : SocketFields P κ) : Inherited κ' → Seen P η ι
  | .getOption name => .option (d.options.value name)
  | .getBoundNetDevice => .device d.boundNetDevice
  | _ => .nothing

def appCallback {s : Slot} (cb : Option P.AppCallback) : Option (Target P.AppCallback η s) :=
  cb.map .app

def appOp : Op P (fun _ => P.AppCallback) → Op P (Target P.AppCallback η) :=
  Op.map appCallback appCallback

def appInherited : Inherited (fun _ => P.AppCallback) → Inherited (Target P.AppCallback η)
  | .setConnectCallback succeeded failed =>
      .setConnectCallback (appCallback succeeded) (appCallback failed)
  | .setCloseCallbacks normal error => .setCloseCallbacks (appCallback normal) (appCallback error)
  | .setAcceptCallback request created =>
      .setAcceptCallback (appCallback request) (appCallback created)
  | .setDataSentCallback dataSent => .setDataSentCallback (appCallback dataSent)
  | .setOption name value => .setOption name value
  | .unsetIpv6Tclass => .unsetIpv6Tclass
  | .getOption name => .getOption name
  | .getBoundNetDevice => .getBoundNetDevice

namespace Config

def appRuns (c : Config P η ι M) : Bool :=
  match c.stack with
  | [] => true
  | .app _ :: _ => true
  | _ => false

def udpRuns (c : Config P η ι M) : Bool :=
  match c.stack with
  | .udp _ _ _ :: _ => true
  | .spontaneous :: _ => true
  | _ => false

def push (c : Config P η ι M) (f : Frame P η ι) : Config P η ι M :=
  { c with stack := f :: c.stack }

def unwind (c : Config P η ι M) (rest : List (Frame P η ι)) : Config P η ι M :=
  { c with stack := rest }

def crash (c : Config P η ι M) : Config P η ι M := c.push .dead

def withMachine (c : Config P η ι M) (s : M.State) : Config P η ι M := { c with machine := s }

def resume (c : Config P η ι M) : Config P η ι M := c.withMachine (M.resume c.machine)

variable [DecidableEq η] [DecidableEq ι]

def setSocket (c : Config P η ι M) (h : η) (d : HelixSocketImpl P ι) : Config P η ι M :=
  { c with socket := Function.update c.socket h d }

def setUdp (c : Config P η ι M) (u : ι) (d : SocketFields P (Target P.AppCallback η)) :
    Config P η ι M :=
  { c with udp := Function.update c.udp u d }

def store (c : Config P η ι M) (h : η) (d : Fields P ι) : Config P η ι M :=
  { c.setSocket h d.1 with printed := d.2 }

def enterUdp (c : Config P η ι M) (u : ι) (o : Op P (Target P.AppCallback η))
    (caller : Option (Waiting P η ι o.ty)) : Config P η ι M :=
  { (c.setUdp u (o.effect (c.udp u))).push (.udp u o.ty caller) with
    machine := M.enter c.machine u o.erase }

def giveBack (c : Config P η ι M) (s : SocketRef η ι) (v : Val P) :
    Config P η ι M × Seen P η ι :=
  if c.appRuns then (c,.returned s v) else (c.resume,.nothing)

def land (c : Config P η ι M) (h : η) {t : Ty} :
    Outcome (fieldSignature P ι) (outsideSignature P η ι) (Fields P ι) Fault (t.denote P) →
      Config P η ι M × Seen P η ι
  | .done d v => (c.store h d).giveBack (.helix h) ⟨t,v⟩
  | .suspended d (.udp u o) k => ((c.store h d).enterUdp u o (some ⟨h,t,k⟩),.nothing)
  | .suspended d (.invoke cb s e) k => ((c.store h d).push (.app (some ⟨h,t,k⟩)),.invoked cb s e)
  | .fault f => (c.crash,.crashed f)

def run (c : Config P η ι M) (h : η) (t : Ty) (m : SocketM P η ι (t.denote P)) :
    Config P η ι M × Seen P η ι :=
  c.land h (advance (fields P ι) m (c.socket h,c.printed))

def call (c : Config P η ι M) :
    SocketRef η ι → Op P (fun _ => P.AppCallback) → Config P η ι M × Seen P η ι
  | .helix h, o => c.run h o.ty (method h o)
  | .udp u, o => (c.enterUdp u (appOp o) none,.nothing)

def inherited (c : Config P η ι M) :
    SocketRef η ι → Inherited (fun _ => P.AppCallback) → Config P η ι M × Seen P η ι
  | .helix h, i => (c.setSocket h { c.socket h with base := i.effect (c.socket h).base },
      inheritedSeen (c.socket h).base i)
  | .udp u, i => (c.setUdp u ((appInherited i).effect (c.udp u)),inheritedSeen (c.udp u) i)

/-- The UDP socket tests its own field for null before it invokes it. -/
def raise (c : Config P η ι M) (u : ι) (e : Event) : Config P η ι M × Seen P η ι :=
  match (c.udp u).callback e.slot with
  | none => (c,.nothing)
  | some target => match trampoline (.udp u) e target with
    | .inl cb => (c.push (.app none),.invoked cb (.udp u) e)
    | .inr (h,m) => c.run h .void m

def handOver (c : Config P η ι M) (s : SocketRef η ι) (t : Ty) (v : t.denote P) :
    Option (Waiting P η ι t) → Config P η ι M × Seen P η ι
  | some w => c.run w.socket w.result (w.rest v)
  | none => c.giveBack s ⟨t,v⟩

def exec (c : Config P η ι M) : Action P η ι → Option (Config P η ι M × Seen P η ι)
  | .call s o => if c.appRuns then some (c.call s o) else none
  | .inherited s i => if c.appRuns then some (c.inherited s i) else none
  | .callbackReturn => match c.stack with
    | .app (some w) :: rest => some ((c.unwind rest).run w.socket w.result (w.rest ()))
    | .app none :: rest => some ((c.unwind rest).resume,.nothing)
    | _ => none
  | .udp (.return v) => match c.stack with
    | .udp u t caller :: rest =>
      if h : v.1 = t then some ((c.unwind rest).handOver (.udp u) t (h ▸ v.2) caller)
      else none
    | _ => none
  | .udp (.raise u e) => if c.udpRuns then some (c.raise u e) else none
  | .udp (.transmit u connected address) =>
    if c.udpRuns then some (c,.stamped (sendTags P connected address (c.udp u).options)) else none
  | .udp (.receive u fromAddress) =>
    if c.udpRuns then some (c,.informed (recvTags P fromAddress (c.udp u).options)) else none
  | .udp .wake => if c.appRuns then some (c.push .spontaneous,.nothing) else none
  | .udp .sleep => match c.stack with
    | .spontaneous :: rest => some (c.unwind rest,.nothing)
    | _ => none

/-- `m_udp_socket` is private to its Helix socket. -/
def Admits (c : Config P η ι M) : Action P η ι → Prop
  | .call (.udp u) _ => ∀ h, (c.socket h).mUdpSocket ≠ some u
  | .inherited (.udp u) _ => ∀ h, (c.socket h).mUdpSocket ≠ some u
  | _ => True

end Config

/-- The UDP layer chooses its own moves; the application's actions leave its
state alone until they enter it. -/
def Moves (M : UdpMachine P ι) (s : M.State) : Action P η ι → M.State → Prop
  | .udp move, s' => M.move s move s'
  | _, s' => s' = s

def Step [DecidableEq η] [DecidableEq ι] (M : UdpMachine P ι) (c : Config P η ι M)
    (l : Label P η ι) (c' : Config P η ι M) : Prop :=
  c.Admits l.1 ∧ ∃ s, Moves M c.machine l.1 s ∧ (c.withMachine s).exec l.1 = some (c',l.2)

def initial (M : UdpMachine P ι) (f : η ↪ ι) : Config P η ι M where
  socket h := HelixSocketImpl.fresh.setUdpSocket (some (f h))
  udp _ := .fresh
  machine := M.init
  stack := []
  printed := []

def bare (M : UdpMachine P ι) : Config P η ι M where
  socket _ := .fresh
  udp _ := .fresh
  machine := M.init
  stack := []
  printed := []

end Ns3Helix.SocketMachine
