import Ns3Helix.ExampleCalls
import Ns3Helix.FunctionStack

/-!
# The example goes on to its end

The functions in progress mirror the calls and callbacks that are open, the
sockets they work on exist, and the references held are those still needed.
So the example takes part in all the UDP layer does, is never stuck before its
end, and has then done everything and given up every reference.
-/

set_option autoImplicit false

namespace Ns3Helix.ExampleProgress
open Ns3Helix.SocketInterface Ns3Helix.SocketImpl Ns3Helix.SocketMachine
open Ns3Helix.SocketCalls Ns3Helix.FunctionStack Ns3Helix.HelixSystem
open Ns3Helix.HelixExample Ns3Helix.ExampleThread Ns3Helix.ExampleSchedule
open Ns3Helix.ExampleSetUp Ns3Helix.ExampleCalls
open Ns3Helix.SocketRegistry Ns3Helix.SystemProjection Ns3Helix.SystemRealization
open Ns3Helix.StackWiring Ns3Helix.TransitionSystem

section Conversation

variable {P : Platform} {M : UdpMachine P ℕ} {c c' : System P M}
  {tr : List (System P M × SystemLabel P)} {l : SystemLabel P}

theorem socket_continues (hrun : Run Step (.initial M) tr c)
    (hturns : Alternating (activities c.sockets)) {a : Action P ℕ ℕ} {seen : Seen P ℕ ℕ}
    (hstep : Step c (.socket a,.socket seen) c') :
    Continues (activities c.sockets) (a,seen) (activities c'.sockets) := by
  obtain ⟨f,_,hf⟩ := fits_exists (run_paired hrun) (run_ordered hrun)
  obtain ⟨d,hprojects,htracks⟩ := run_tracked hrun hf
  obtain ⟨x,hrefers,hs,rfl⟩ := step_socketLabel hstep rfl
  obtain ⟨y,⟨_,t,_,hexec⟩,hprojects'⟩ := projects_socket hprojects hf hrefers hs
  have before : activities c.sockets = activities d := by
    rw [activities,hprojects.similar.stack]
    rfl
  have after : activities x = activities y := by
    rw [activities,show x.stack = y.stack from hprojects'.similar.stack]
    rfl
  rw [before] at hturns
  show Continues _ _ (activities x)
  rw [before,after]
  exact exec_continues (SocketHistory.tracks_machine htracks t) hturns hexec

theorem socketLabel_some {k : Label P ℕ ℕ} (h : socketLabel l = some k) :
    l = (.socket k.1,.socket k.2) := by
  obtain ⟨e,r⟩ := l
  cases e with
  | socket a =>
    cases r with
    | socket seen =>
      obtain rfl := Option.some.inj h
      rfl
    | nothing | created | aborted => cases h
  | stack | createSocket | createUdpSocket | drop | dispose => cases h

theorem other_activities (hstep : Step c l c') (hl : socketLabel l = none) :
    activities c'.sockets = activities c.sockets ∧ AppTurn (activities c.sockets) = true := by
  rw [activities_appTurn]
  cases hstep with
  | stack _ runs | aborted _ runs | createUdpSocket _ runs | drop _ runs | dispose _ runs =>
    exact ⟨rfl,runs⟩
  | socket => cases hl
  | created _ runs _ hs =>
    obtain ⟨_,p,n,_,_,rfl,rfl⟩ := createSocket_ok c hs
    exact ⟨rfl,runs⟩

end Conversation

variable {P : Platform} {M : UdpMachine (platform P) ℕ} {E : Example P}
  {c c' : System (platform P) M} {p q : Process P} {l : SystemLabel (platform P)}

section Functions

abbrev Following (E : Example P) (as : List (Activity ℕ ℕ)) (p : Process P) : Prop :=
  Follows (P := platform P) Call.socket (Call.op E) as p.functions

variable {as as' : List (Activity ℕ ℕ)}

theorem ready_inv {l : Point P} {cb : Option Callback} (h : HelixExample.Ready p l cb q) :
    (∃ fs, p.functions = ⟨cb,.calling l⟩ :: fs ∧ q = { p with functions := fs }) ∨
      ∃ time e later, p.functions = [] ∧ p.scheduled = (time,e) :: later ∧ l = e.start ∧
        cb = none ∧ q = { p with scheduled := later, now := time } := by
  cases h with
  | calling hp => exact .inl ⟨_,hp,rfl⟩
  | begin idle due => exact .inr ⟨_,_,_,idle,due,rfl,rfl,rfl⟩

theorem process_turns {a : Action (platform P) ℕ ℕ} {seen : Seen (platform P) ℕ ℕ}
    (hstep : ProcessStep E c p (.socket a,.socket seen) q)
    (hcontinues : Continues as (a,seen) as') :
    Turns (P := platform P) Call.socket (Call.op E) p.functions (a,seen) q.functions := by
  cases hstep with
  | call k callback ready seen hseen =>
    obtain rfl : seen = .nothing := by
      cases hcontinues
      rfl
    obtain ⟨fs,hp,rfl⟩ | ⟨_,_,_,idle,_,hl,rfl,rfl⟩ := ready_inv ready
    · rw [hp]
      exact .call (P := platform P) callback _ k
    · rw [idle]
      exact .begin (.call k) k
  | returned callback k fs hp v =>
    rw [hp]
    exact .returned callback k v (k.resume E v)
  | invoked u e s => exact .invoked u e _ s (some (HelixExample.handleRead s))
  | callbackReturn cb fs hp =>
    rw [hp]
    exact .callbackReturn (P := platform P) cb
  | udp move seen hseen =>
    refine .udp move seen ?_ ?_
    · rintro s v rfl
      cases hseen
    · rintro cb s e rfl
      cases hseen

theorem ready_follows (h : Following E as p) (turn : AppTurn as = true) {l : Point P}
    {cb : Option Callback} (hr : HelixExample.Ready p l cb q) (next : Option (Point P)) :
    Following E as (q.proceed cb q.functions next) := by
  obtain ⟨fs,hp,rfl⟩ | ⟨_,_,_,idle,_,_,rfl,rfl⟩ := ready_inv hr
  · exact follows_proceed hp h next
  · rw [Following,idle] at h
    obtain rfl := follows_idle h turn
    rw [Following,Process.proceed,idle]
    exact follows_proceed rfl (.start l) next

theorem other_follows (h : Following E as p) (turn : AppTurn as = true)
    (hstep : ProcessStep E c p l q) (hl : socketLabel l = none) : Following E as q := by
  cases hstep with
  | install | notify | refused => exact h
  | createHelix _ hp | createHelix2 _ hp | addHelix _ _ hp => exact follows_proceed hp h (some _)
  | addHelix2 helix2 hp => exact follows_proceed hp h none
  | createSocket role callback ready factory found socket => exact ready_follows h turn ready _
  | release socket callback ready => exact ready_follows h turn ready none
  | call | returned | invoked | callbackReturn | udp => cases hl

theorem run_follows {tr : List ((System (platform P) M × Process P) × SystemLabel (platform P))}
    {x : System (platform P) M × Process P} (hrun : Run (Joint E M) (.initial M,.initial) tr x) :
    Alternating (activities x.1.sockets) ∧ Following E (activities x.1.sockets) x.2 := by
  induction hrun with
  | nil => exact ⟨trivial,.start _⟩
  | @snoc tr x y l run last ih =>
    obtain ⟨hturns,hfollows⟩ := ih
    cases hl : socketLabel l with
    | none =>
      obtain ⟨hsame,turn⟩ := other_activities last.1 hl
      rw [hsame]
      exact ⟨hturns,other_follows hfollows turn last.2 hl⟩
    | some k =>
      obtain rfl := socketLabel_some hl
      have hcontinues := socket_continues (beside_left run) hturns last.1
      exact ⟨continues_alternating hcontinues hturns,
        follows_step hfollows hcontinues (process_turns last.2 hcontinues)⟩

end Functions

section Sockets

def Made (c : System (platform P) M) (s : SocketRef ℕ ℕ) : Prop :=
  ∃ g, s = .helix g ∧ g < c.nextSocket

def phaseSocket : Phase P → Option (SocketRef ℕ ℕ)
  | .calling (.call k) => some k.socket
  | .waiting k => some k.socket
  | _ => none

/-- What the functions in progress and the scheduled ones work on is there, and
only Helix sockets have callbacks registered. -/
structure Tied (c : System (platform P) M) (p : Process P) : Prop where
  functions : ∀ f ∈ p.functions, ∀ s, phaseSocket f.phase = some s → Made c s
  scheduled : ∀ e ∈ p.scheduled, ∀ g, closes e.2 = some g → g < c.nextSocket
  bound : ∀ u s target, (c.sockets.udp u).callback s = some target → ∃ g, target.owner = some g

theorem tied_initial : Tied (.initial M) (.initial : Process P) where
  functions f hf s hs := by
    obtain rfl := List.mem_singleton.mp hf
    cases hs
  scheduled e he := by cases he
  bound u s target ht := by cases ht

theorem made_mono (hnext : c.nextSocket ≤ c'.nextSocket) {s : SocketRef ℕ ℕ} (h : Made c s) :
    Made c' s := by
  obtain ⟨g,rfl,hg⟩ := h
  exact ⟨g,rfl,Nat.lt_of_lt_of_le hg hnext⟩

theorem tied_mono (h : Tied c p) (hnext : c.nextSocket ≤ c'.nextSocket)
    (hudp : c'.sockets.udp = c.sockets.udp) : Tied c' p where
  functions f hf s hs := made_mono hnext (h.functions f hf s hs)
  scheduled e he g hg := Nat.lt_of_lt_of_le (h.scheduled e he g hg) hnext
  bound := by
    rw [hudp]
    exact h.bound

theorem tied_push (h : Tied c p) {f : Function P}
    (hf : ∀ s, phaseSocket f.phase = some s → Made c s) :
    Tied c { p with functions := f :: p.functions } := by
  refine ⟨fun f' hf' => ?_,h.scheduled,h.bound⟩
  rcases List.mem_cons.mp hf' with rfl | hf'
  · exact hf
  · exact h.functions f' hf'

theorem tied_rest (h : Tied c p) {f : Function P} {fs : List (Function P)}
    (hp : p.functions = f :: fs) : Tied c { p with functions := fs } ∧
      ∀ s, phaseSocket f.phase = some s → Made c s :=
  ⟨⟨fun f' hf' => h.functions f' (by rw [hp]; exact List.mem_cons_of_mem _ hf'),h.scheduled,
    h.bound⟩,h.functions f (by rw [hp]; exact List.mem_cons_self)⟩

theorem tied_proceed (h : Tied c p) {fs : List (Function P)} (hp : p.functions = fs)
    (cb : Option Callback) {next : Option (Point P)}
    (hnext : ∀ k, next = some (.call k) → Made c k.socket) : Tied c (p.proceed cb fs next) := by
  subst hp
  cases next with
  | some l =>
    refine tied_push h fun s hs => ?_
    cases l with
    | call k =>
      obtain rfl := Option.some.inj hs
      exact hnext k rfl
    | createHelix | createHelix2 | addHelix | addHelix2 | createSocket | release => cases hs
  | none =>
    cases cb with
    | some cb => exact tied_push h fun s hs => by cases hs
    | none => exact h

theorem tied_schedule (h : Tied c p) (delay : ℕ) {e : SimulatorEvent}
    (he : ∀ g, closes e = some g → g < c.nextSocket) : Tied c (p.schedule delay e) := by
  refine ⟨h.functions,fun e' he' g hg => ?_,h.bound⟩
  rcases (List.mem_orderedInsert _).mp he' with rfl | he'
  · exact he g hg
  · exact h.scheduled e' he' g hg

theorem ready_tied (h : Tied c p) {l : Point P} {cb : Option Callback}
    (hr : HelixExample.Ready p l cb q) : Tied c q ∧ ∀ k, l = .call k → Made c k.socket := by
  obtain ⟨fs,hp,rfl⟩ | ⟨time,e,later,idle,hs,rfl,rfl,rfl⟩ := ready_inv hr
  · obtain ⟨hrest,htop⟩ := tied_rest h hp
    refine ⟨hrest,?_⟩
    rintro k rfl
    exact htop _ rfl
  · have hmem : ∀ e' ∈ later, e' ∈ p.scheduled := by
      rw [hs]
      exact fun e' he' => List.mem_cons_of_mem _ he'
    refine ⟨⟨h.functions,fun e' he' => h.scheduled e' (hmem e' he'),h.bound⟩,fun k hk => ?_⟩
    cases e with
    | closeSocket g =>
      obtain rfl := Point.call.inj hk
      exact ⟨g,rfl,h.scheduled (time,.closeSocket g) (by rw [hs]; exact List.mem_cons_self) g rfl⟩
    | createServerHelixSocket | sendPacket => cases hk

theorem resume_socket (k : Call P) (v : (k.op E).ty.denote (platform P)) {k' : Call P}
    (h : k.resume E v = some (.call k')) : k'.socket = k.socket := by
  cases k with
  | bind | connect | close =>
    obtain rfl := Point.call.inj (Option.some.inj h)
    rfl
  | hook role socket =>
    cases role with
    | server => cases h
    | client =>
      obtain rfl := Point.call.inj (Option.some.inj h)
      rfl
  | send => cases h
  | recvFrom socket fromAddress =>
    obtain ⟨packet,fromAddress'⟩ : Option P.Packet × P.Address := v
    cases packet with
    | some packet =>
      obtain rfl := Point.call.inj (Option.some.inj h)
      rfl
    | none => cases h
  | unhook => cases Option.some.inj h

theorem schedules_socket {k : Call P} {e : SimulatorEvent} (h : k.schedules = some e) {g : ℕ}
    (hg : closes e = some g) : k.socket = .helix g := by
  cases k with
  | bind | connect | recvFrom | close | unhook => cases h
  | hook role socket =>
    cases role with
    | server =>
      obtain rfl := Option.some.inj h
      obtain rfl := Option.some.inj hg
      rfl
    | client => cases h
  | send socket =>
    obtain rfl := Option.some.inj h
    obtain rfl := Option.some.inj hg
    rfl

theorem tied_returned (h : Tied c p) {cb : Option Callback} {k : Call P} {fs : List (Function P)}
    (hp : p.functions = ⟨cb,.waiting k⟩ :: fs) (v : (k.op E).ty.denote (platform P)) :
    Tied c (p.returned E cb fs k v) := by
  obtain ⟨hrest,htop⟩ := tied_rest h hp
  have hmade : Made c k.socket := htop _ rfl
  have hnext : ∀ k', k.resume E v = some (.call k') → Made c k'.socket := by
    intro k' hk'
    rw [resume_socket k v hk']
    exact hmade
  rw [Process.returned]
  cases hs : k.schedules with
  | none => exact tied_proceed hrest rfl cb hnext
  | some e =>
    have hlater := tied_schedule hrest 10 (e := e) fun g hg => by
      obtain ⟨g',hg',hlt⟩ := hmade
      obtain rfl := SocketRef.helix.inj ((schedules_socket hs hg).symm.trans hg')
      exact hlt
    exact tied_proceed hlater rfl cb hnext

theorem forwarded_bound {x : SocketFields (platform P) (Target Callback ℕ)}
    (h : ∀ s target, x.callback s = some target → ∃ g, target.owner = some g) (g : ℕ)
    (o : Operation P) : ∀ s target, ((forwarded g o).effect x).callback s = some target →
      ∃ g, target.owner = some g := by
  have stored : ∀ {slot : Slot} (new : Target Callback ℕ slot), new.owner = some g →
      ∀ s target, (x.setCallback slot (some new)).callback s = some target →
        ∃ g, target.owner = some g := by
    intro slot new hnew s target ht
    by_cases hs : s = slot
    · subst hs
      rw [setCallback_same] at ht
      obtain rfl := Option.some.inj ht
      exact ⟨g,hnew⟩
    · rw [setCallback_other x slot _ hs] at ht
      exact h s target ht
  cases o
  case setRecvCallback cb => exact stored (.handleRecv g) rfl
  case setSendCallback cb => exact stored (.handleSend g) rfl
  all_goals exact h

theorem call_bound (h : Tied c p) (hpaired : Paired c) {k : Call P} {seen : Seen (platform P) ℕ ℕ}
    (hmade : Made c k.socket)
    (hstep : Step c (.socket (.call k.socket (k.op E)),.socket seen) c') : Tied c' p := by
  obtain ⟨g,hg,_⟩ := hmade
  cases hstep with
  | socket _ _ hs =>
    obtain ⟨_,hudp,_⟩ := step_after hpaired.echoing hs
    refine ⟨h.functions,h.scheduled,?_⟩
    rw [hudp,hg]
    simp only [Config.udpAfter]
    cases (c.sockets.socket g).mUdpSocket with
    | none => exact h.bound
    | some v =>
      intro u s target ht
      by_cases hu : u = v
      · subst hu
        simp only [Function.update_self] at ht
        exact forwarded_bound (h.bound u) g _ s target ht
      · simp only [Function.update_of_ne hu] at ht
        exact h.bound u s target ht

/-- A callback is invoked with a Helix socket that is there. -/
theorem invoked_made (h : Tied c p) (hpaired : Paired c) {u : ℕ} {e : Event} {cb : Callback}
    {s : SocketRef ℕ ℕ}
    (hstep : Step c (.socket (.udp (.raise u e)),.socket (.invoked cb s e)) c') : Made c s := by
  cases hstep with
  | socket _ _ hs =>
    obtain ⟨_,t,_,hexec⟩ := hs
    have hraise := Config.exec_raise hexec
    cases hcb : ((c.sockets.withMachine t).udp u).callback e.slot with
    | none =>
      rw [Config.raise_none hcb] at hraise
      cases congrArg Prod.snd hraise
    | some target =>
      obtain ⟨g,hg⟩ := h.bound u e.slot target hcb
      have howner := hpaired.carries u g ⟨e.slot,target,hcb,hg⟩
      rw [Config.raise_bound hcb hg,Config.reach] at hraise
      cases hk : ((c.sockets.withMachine t).socket g).kept e with
      | none =>
        rw [hk] at hraise
        cases congrArg Prod.snd hraise
      | some kept =>
        rw [hk] at hraise
        cases congrArg Prod.snd hraise
        exact ⟨g,rfl,(hpaired.wrapped g).mp (Option.isSome_iff_exists.mpr ⟨u,howner⟩)⟩

theorem quiet_udp (hpaired : Paired c) {a : Action (platform P) ℕ ℕ}
    {seen : Seen (platform P) ℕ ℕ} (ha : c.sockets.udpAfter a = c.sockets.udp)
    (hstep : Step c (.socket a,.socket seen) c') (h : Tied c p) : Tied c' p := by
  cases hstep with
  | socket _ _ hs =>
    obtain ⟨_,hudp,_⟩ := step_after hpaired.echoing hs
    exact tied_mono h (Nat.le_refl _) (hudp.trans ha)

theorem step_tied (h : Tied c p) (hpaired : Paired c) (hstep : Step c l c')
    (hprocess : ProcessStep E c p l q) : Tied c' q := by
  have wired : ∀ {e}, Step c (.stack e,.nothing) c' → c'.nextSocket = c.nextSocket ∧
      c'.sockets.udp = c.sockets.udp := by
    rintro e ⟨⟩
    exact ⟨rfl,rfl⟩
  cases hprocess with
  | install | notify =>
    obtain ⟨hnext,hudp⟩ := wired hstep
    exact tied_mono h (Nat.le_of_eq hnext.symm) hudp
  | createHelix _ hp | createHelix2 _ hp | addHelix _ _ hp =>
    obtain ⟨hnext,hudp⟩ := wired hstep
    have hrest := (tied_rest (tied_mono h (Nat.le_of_eq hnext.symm) hudp) hp).1
    exact tied_push hrest fun s hs => by cases hs
  | addHelix2 helix2 hp =>
    obtain ⟨hnext,hudp⟩ := wired hstep
    have hrest := (tied_rest (tied_mono h (Nat.le_of_eq hnext.symm) hudp) hp).1
    exact tied_schedule (tied_schedule hrest 1 fun g hg => by cases hg) 3 fun g hg => by cases hg
  | createSocket role callback ready factory found socket =>
    obtain ⟨rfl,hnext⟩ := created_next hstep
    have hudp : c'.sockets.udp = c.sockets.udp := by
      cases hstep with
      | created _ _ _ hs =>
        obtain ⟨_,p,n,_,_,_,rfl⟩ := createSocket_ok c hs
        rfl
    have hready := tied_mono (ready_tied h ready).1 (by omega) hudp
    refine tied_proceed hready rfl callback fun k hk => ?_
    obtain rfl := Point.call.inj (Option.some.inj hk)
    exact ⟨c.nextSocket,rfl,by omega⟩
  | refused =>
    cases hstep with
    | aborted => exact tied_mono h (Nat.le_refl _) rfl
  | call k callback ready seen =>
    obtain ⟨hready,hcall⟩ := ready_tied h ready
    have hmade := hcall k rfl
    have hnext : c.nextSocket ≤ c'.nextSocket := Nat.le_of_eq (next_same hstep (by simp)).symm
    refine tied_push (call_bound hready hpaired hmade hstep) fun s hs => ?_
    obtain rfl := Option.some.inj hs
    exact made_mono hnext hmade
  | returned callback k fs hp v => exact quiet_udp hpaired rfl hstep (tied_returned h hp v)
  | invoked u e s =>
    have hmade := invoked_made h hpaired hstep
    refine quiet_udp hpaired rfl hstep (tied_push h fun s' hs => ?_)
    obtain rfl := Option.some.inj hs
    exact hmade
  | callbackReturn cb fs hp => exact quiet_udp hpaired rfl hstep (tied_rest h hp).1
  | udp => exact quiet_udp hpaired rfl hstep h
  | release s callback ready =>
    have hready := (ready_tied h ready).1
    cases hstep with
    | drop =>
      have hdropped : Tied (c.drop s) _ := tied_mono hready (Nat.le_refl _) rfl
      exact tied_proceed hdropped rfl callback fun k hk => by cases hk

theorem run_tied {tr : List ((System (platform P) M × Process P) × SystemLabel (platform P))}
    {x : System (platform P) M × Process P} (hrun : Run (Joint E M) (.initial M,.initial) tr x) :
    Tied x.1 x.2 := by
  induction hrun with
  | nil => exact tied_initial
  | snoc run last ih => exact step_tied ih (run_paired (beside_left run)) last.1 last.2

theorem two_sockets {tr : List ((System (platform P) M × Process P) × SystemLabel (platform P))}
    {x : System (platform P) M × Process P} (hrun : Run (Joint E M) (.initial M,.initial) tr x) :
    x.1.nextSocket ≤ 2 := by
  by_contra hmore
  obtain ⟨role,hrole,_⟩ := socket_lives hrun (s := 2) (by omega)
  cases hrole

/-- What has been made is there as long as the example runs, and its UDP socket
is. -/
theorem made_alive {tr : List ((System (platform P) M × Process P) × SystemLabel (platform P))}
    {x : System (platform P) M × Process P} (hrun : Run (Joint E M) (.initial M,.initial) tr x)
    (hdisposed : x.1.disposed = []) {s : SocketRef ℕ ℕ} (hs : Made x.1 s) :
    ∃ g u, s = .helix g ∧ x.1.Alive g ∧ (x.1.sockets.socket g).mUdpSocket = some u := by
  obtain ⟨g,rfl,hg⟩ := hs
  have hledger := run_ledger (beside_left hrun)
  have hlength := congrArg List.length hledger.numbered
  rw [List.length_map,List.length_range] at hlength
  have hfew : (creations (onLeft tr)).length < UInt64.size := by
    rw [hlength]
    exact Nat.lt_of_le_of_lt (two_sockets hrun) (by decide)
  obtain ⟨p,hp⟩ := created_exists hledger hg
  obtain ⟨u,hu⟩ := Option.isSome_iff_exists.mp (((run_paired (beside_left hrun)).wrapped g).mpr hg)
  exact ⟨g,u,rfl,.inr (created_owned hledger hdisposed hfew hp),hu⟩

end Sockets

section References

def callHandle : Call P → Option ℕ
  | .bind _ s => some s
  | .connect _ s => some s
  | .hook _ s => some s
  | .send s => some s
  | .recvFrom _ _ => none
  | .close s => some s
  | .unhook s => some s

def current (t : Thread P) : Option ℕ :=
  match t.phase with
  | some (.calling (.call k)) => callHandle k
  | some (.calling (.release s)) => some s
  | some (.waiting k) => callHandle k
  | _ => none

/-- The references held are those that are in use or scheduled for closing. -/
structure Holding (t : Thread P) (held : List ℕ) : Prop where
  nodup : held.Nodup
  fresh : ∀ s, current t = some s → s ∉ toClose t
  mem : ∀ s, s ∈ held ↔ current t = some s ∨ s ∈ toClose t

variable {t t' : Thread P} {held : List ℕ} {g : ℕ}

theorem holding_initial : Holding (.initial : Thread P) [] where
  nodup := .nil
  fresh s hs := by cases hs
  mem s := by simp [current,Thread.initial,toClose]

theorem holding_same (h : Holding t held) (hc : current t' = current t)
    (hp : (toClose t').Perm (toClose t)) : Holding t' held := by
  refine ⟨h.nodup,fun s hs => ?_,fun s => ?_⟩
  · rw [hp.mem_iff]
    exact h.fresh s (hc.symm.trans hs)
  · rw [hp.mem_iff,hc]
    exact h.mem s

theorem holding_takes (h : Holding t held) (hnodup : (toClose t).Nodup) (hc : current t = none)
    (hc' : current t' = some g) (hp : toClose t = g :: toClose t') : Holding t' held := by
  rw [hp] at hnodup
  obtain ⟨hfresh,_⟩ := List.nodup_cons.mp hnodup
  refine ⟨h.nodup,fun s hs => ?_,fun s => ?_⟩
  · obtain rfl := Option.some.inj (hc'.symm.trans hs)
    exact hfresh
  · rw [h.mem,hc,hc',hp,List.mem_cons]
    simp [eq_comm]

theorem holding_leaves (h : Holding t held) (hc : current t = some g) (hc' : current t' = none)
    (hp : (toClose t').Perm (g :: toClose t)) : Holding t' held := by
  refine ⟨h.nodup,fun s hs => ?_,fun s => ?_⟩
  · cases hc'.symm.trans hs
  · rw [h.mem,hc,hc',hp.mem_iff,List.mem_cons]
    simp [eq_comm]

theorem holding_gains (h : Holding t held) (hc : current t = none) (hc' : current t' = some g)
    (hp : toClose t' = toClose t) (hg : g ∉ toClose t) : Holding t' (g :: held) := by
  refine ⟨List.nodup_cons.mpr ⟨?_,h.nodup⟩,fun s hs => ?_,fun s => ?_⟩
  · rw [h.mem,hc]
    simpa using hg
  · obtain rfl := Option.some.inj (hc'.symm.trans hs)
    rwa [hp]
  · rw [List.mem_cons,h.mem,hc,hc',hp]
    simp [eq_comm]

theorem holding_drops (h : Holding t held) (hc : current t = some g) (hc' : current t' = none)
    (hp : toClose t' = toClose t) : Holding t' (held.erase g) := by
  refine ⟨h.nodup.erase g,fun s hs => ?_,fun s => ?_⟩
  · cases hc'.symm.trans hs
  · have hfresh := h.fresh g hc
    rw [h.nodup.mem_erase_iff,h.mem,hc,hc',hp]
    constructor
    · rintro ⟨hne,hs | hs⟩
      · exact absurd (Option.some.inj hs).symm hne
      · exact .inr hs
    · rintro (hs | hs)
      · cases hs
      · exact ⟨fun he => hfresh (he ▸ hs),.inr hs⟩

theorem holding_returned (h : Holding t held) {k : Call P} (ht : t.phase = some (.waiting k))
    (v : (k.op E).ty.denote (platform P)) : Holding (t.returned E k v) held := by
  have hc : current t = callHandle k := by rw [current,ht]
  cases k with
  | bind | connect | close | unhook => exact holding_same h hc.symm .rfl
  | hook role s =>
    cases role with
    | server => exact holding_leaves h hc rfl (toClose_schedule t 10 _)
    | client => exact holding_same h hc.symm .rfl
  | send s => exact holding_leaves h hc rfl (toClose_schedule t 10 _)
  | recvFrom socket fromAddress =>
    obtain ⟨packet,fromAddress'⟩ : Option P.Packet × P.Address := v
    cases packet <;> exact holding_same h hc.symm .rfl

theorem held_same (hstep : Step c l c') (hl : ∀ r s, l ≠ (.createSocket r,.created s))
    (hd : ∀ s, l ≠ (.drop s,.nothing)) : c'.held = c.held := by
  cases hstep with
  | created => exact absurd rfl (hl _ _)
  | drop => exact absurd rfl (hd _)
  | stack | socket | aborted | createUdpSocket | dispose => rfl

theorem holding_created (h : Holding t held) (ho : Orderly t g) {role : Role} {t'' : Thread P}
    (due : Due t (.createSocket role) t'') :
    Holding (t''.proceed (some (.call (.bind role g)))) (g :: held) := by
  have hfresh : g ∉ toClose t := fun hm => Nat.lt_irrefl _ (ho.toClose g hm)
  obtain ⟨ht,rfl⟩ | ⟨time,e,later,ht,hs,he,rfl⟩ := due_inv due
  · exact holding_gains h (by rw [current,ht]) rfl rfl hfresh
  · refine holding_gains h (by rw [current,ht]) rfl ?_ hfresh
    cases e with
    | createServerHelixSocket | sendPacket => simp [toClose,Thread.proceed,hs,closes]
    | closeSocket => cases he

theorem holding_called (h : Holding t held) (ho : Orderly t g) {k : Call P}
    (due : Due t (.call k) t') : Holding { t' with phase := some (.waiting k) } held := by
  obtain ⟨ht,rfl⟩ | ⟨time,e,later,ht,hs,he,rfl⟩ := due_inv due
  · exact holding_same h (by rw [current,current,ht]) .rfl
  · cases e with
    | closeSocket s =>
      obtain rfl := Point.call.inj he
      exact holding_takes h ho.nodup (by rw [current,ht]) rfl (by simp [toClose,hs,closes])
    | createServerHelixSocket | sendPacket => cases he

theorem step_holding (h : Holding t c.held) (ho : Orderly t c.nextSocket) (hstep : Step c l c')
    (hthread : ThreadStep E c t l t') : Holding t' c'.held := by
  cases hthread with
  | aside hl =>
    rw [held_same hstep (by rintro r s rfl; cases hl) (by rintro s rfl; cases hl)]
    exact h
  | install | refused =>
    rw [held_same hstep (by simp) (by simp)]
    exact h
  | createHelix _ ht | createHelix2 _ ht | addHelix _ _ ht =>
    rw [held_same hstep (by simp) (by simp)]
    exact holding_same h (by rw [current,current,ht]; rfl) .rfl
  | addHelix2 helix2 ht =>
    rw [held_same hstep (by simp) (by simp)]
    refine holding_same h (by rw [current,current,ht]; rfl) ?_
    exact (toClose_schedule _ 3 _).trans (toClose_schedule _ 1 _)
  | createSocket role due factory found socket =>
    cases hstep with
    | created _ _ _ hs =>
      obtain ⟨_,p,n,_,_,rfl,rfl⟩ := createSocket_ok c hs
      exact holding_created h ho due
  | call k due seen =>
    rw [held_same hstep (by simp) (by simp)]
    exact holding_called h ho due
  | returned k ht v =>
    rw [held_same hstep (by simp) (by simp)]
    exact holding_returned h ht v
  | release s due =>
    cases hstep with
    | drop =>
      obtain ⟨ht,rfl⟩ | ⟨time,e,later,ht,hs,he,rfl⟩ := due_inv due
      · exact holding_drops h (by rw [current,ht]) rfl rfl
      · cases e <;> cases he

theorem run_holding {tr : List ((System (platform P) M × Thread P) × SystemLabel (platform P))}
    {x : System (platform P) M × Thread P} (hrun : Run (Threaded E M) (.initial M,.initial) tr x) :
    Holding x.2 x.1.held := by
  induction hrun with
  | nil => exact holding_initial
  | snoc run last ih => exact step_holding ih (run_life run).orderly last.1 last.2

end References

section Progress

variable {t : Thread P}

theorem process_accepts {as as' : List (Activity ℕ ℕ)} {move : UdpMove (platform P) ℕ}
    {seen : Seen (platform P) ℕ ℕ} (h : Following E as p)
    (hcontinues : Continues as (.udp move,seen) as') :
    ∃ q, ProcessStep E c p (.socket (.udp move),.socket seen) q := by
  cases hcontinues with
  | returned s v =>
    obtain ⟨callback,k,_,fs,hp,rfl,ht,_⟩ := follows_call h rfl
    obtain ⟨t,v⟩ := v
    obtain rfl : t = (k.op E).ty := ht
    exact ⟨_,.returned callback k fs hp v⟩
  | invoked turn u e cb s =>
    cases cb
    exact ⟨_,.invoked u e s⟩
  | ignored | crashed | transmit | receive | wake | sleep => exact ⟨p,.udp _ _ trivial⟩

/-- A step that brings the example on in system `c`: it is not the UDP layer's,
and one that has nothing to do with Helix belongs to notifications that are
under way, unless the nodes are still to be installed. -/
structure Own (E : Example P) (c : System (platform P) M) (l : SystemLabel (platform P)) :
    Prop where
  socket : ∀ move r, l ≠ (.socket (.udp move),r)
  stack : ∀ e r, l = (.stack e,r) → Foreign e → Notifies e ∨ ¬ Installed E c.wiring.world

theorem own_socket {a : Action (platform P) ℕ ℕ} {r : SystemResult (platform P)}
    (h : ∀ move, a ≠ .udp move) : Own E c (.socket a,r) where
  socket move r' hl := h move (SystemEvent.socket.inj (Prod.mk.inj hl).1)
  stack e r' hl := by cases hl

theorem own_stack {e : StackMachine.Event} {r : SystemResult (platform P)}
    (h : Foreign e → Notifies e ∨ ¬ Installed E c.wiring.world) : Own E c (.stack e,r) where
  socket move r' hl := by cases hl
  stack e' r' hl := by
    cases hl
    exact h

theorem ready_main (h : Runs p t) {k : Point P} {callback : Option Callback}
    (hr : HelixExample.Ready p k callback q) (hk : Main k) :
    p.functions = [⟨none,.calling k⟩] ∧ t.phase = some (.calling k) := by
  obtain ⟨fs,hp,rfl⟩ | ⟨time,e,later,_,_,rfl,_,_⟩ := ready_inv hr
  · cases callback with
    | none =>
      obtain ⟨ht,rfl⟩ := runs_top h hp
      exact ⟨hp,ht⟩
    | some cb =>
      obtain ⟨handles,_⟩ := runs_above h hp
      cases handles
      cases hk
  · cases e <;> cases hk

section Main

open Ns3Helix.HelixStack (TypeId)
open Ns3Helix.StackMachine (Wiring Accepts)

theorem create_proceeds (idle : c.Idle) (hruns : c.sockets.appRuns = true) {x : TypeId}
    (hx : x ≠ .helixSocketFactory) : ∃ c', Step c (.stack (.create x),.nothing) c' := by
  have hexec : c.wiring.exec .forward (.create x) =
      some { c.wiring with world := c.wiring.world.create x } := by
    simp [Wiring.exec,Wiring.idle,idle.tasks,hx]
  exact ⟨_,.stack idle.undisposed hruns ⟨idle.alive,.forward,hexec⟩⟩

theorem addHelix_proceeds (idle : c.Idle) (hruns : c.sockets.appRuns = true) {n h : ℕ}
    (ha : Accepts c.wiring.world n (some h)) :
    ∃ c', Step c (.stack (.addHelix n (some h)),.nothing) c' := by
  have hcallable : StackMachine.Callable c.wiring.world n (some h) :=
    ⟨ha.1,fun g hg => (ha.2.2 g hg).1⟩
  have hexec : c.wiring.exec .forward (.addHelix n (some h)) =
      some { c.wiring with tasks := [.resume (HelixStack.addHelix n (some h))] } := by
    simp [Wiring.exec,Wiring.idle,idle.tasks,hcallable]
  exact ⟨_,.stack idle.undisposed hruns ⟨idle.alive,.forward,hexec⟩⟩

theorem main_proceeds (idle : c.Idle) (hruns : c.sockets.appRuns = true) {k : Point P}
    (hk : Main k) (hp : p.functions = [⟨none,.calling k⟩]) (stage : SettingUp E c.wiring t)
    (ht : t.phase = some (.calling k)) : ∃ l y, Own E c l ∧ Joint E M (c,p) l y := by
  have reached := settingUp_reached stage ht
  cases k with
  | createHelix =>
    by_cases installed : Installed E c.wiring.world
    · obtain ⟨c',hstep⟩ := create_proceeds idle hruns (x := .helixL4Protocol) (by decide)
      exact ⟨(.stack (.create .helixL4Protocol),_),(c',_),own_stack (by simp [Foreign]),hstep,
        .createHelix installed hp⟩
    · obtain ⟨c',hstep⟩ := create_proceeds idle hruns (x := .node) (by decide)
      exact ⟨(.stack (.create .node),_),(c',p),own_stack fun _ => .inr installed,hstep,
        .install _ (by simp [Foreign]) hp⟩
  | createHelix2 helix =>
    obtain ⟨c',hstep⟩ := create_proceeds idle hruns (x := .helixL4Protocol) (by decide)
    exact ⟨(.stack (.create .helixL4Protocol),_),(c',_),own_stack (by simp [Foreign]),hstep,
      .createHelix2 helix hp⟩
  | addHelix helix helix2 =>
    obtain ⟨_,_,accepts,_⟩ := reached
    obtain ⟨c',hstep⟩ := addHelix_proceeds idle hruns accepts
    exact ⟨(.stack (.addHelix _ _),_),(c',_),own_stack (by simp [Foreign]),hstep,
      .addHelix helix helix2 hp⟩
  | addHelix2 helix2 =>
    obtain ⟨_,waits,_⟩ := reached
    obtain ⟨c',hstep⟩ := addHelix_proceeds idle hruns waits.accepts
    exact ⟨(.stack (.addHelix _ _),_),(c',_),own_stack (by simp [Foreign]),hstep,
      .addHelix2 helix2 hp⟩
  | createSocket | call | release => exact absurd hk id

end Main

variable {tr : List ((System (platform P) M × Process P) × SystemLabel (platform P))}
  {x : System (platform P) M × Process P}

theorem run_idle (hrun : Run (Joint E M) (.initial M,.initial) tr x)
    (htasks : x.1.wiring.tasks = []) : x.1.Idle := by
  obtain ⟨tr',t,hrun',_,_⟩ := run_thread hrun
  have hunharmed := (run_setUp hrun').1.unharmed
  exact ⟨unharmed_alive (beside_left hrun') hunharmed,htasks,hunharmed.undisposed⟩

theorem call_proceeds (hrun : Run (Joint E M) (.initial M,.initial) tr x) (idle : x.1.Idle)
    (hruns : x.1.sockets.appRuns = true) {k : Call P} {callback : Option Callback}
    (hr : HelixExample.Ready x.2 (.call k) callback q) : ∃ l y, Own E x.1 l ∧ Joint E M x l y := by
  have hmade := (ready_tied (run_tied hrun) hr).2 k rfl
  obtain ⟨g,u,hg,alive,hu⟩ := made_alive hrun idle.undisposed hmade
  obtain ⟨out,cont,hcall,_⟩ := Config.call_helix x.1.sockets g (k.op E) u hu
  have hexec : x.1.sockets.exec (.call (.helix g) (k.op E)) = some (_,.nothing) :=
    (if_pos hruns).trans (congrArg some hcall)
  have hstep : Step x.1 (.socket (.call (.helix g) (k.op E)),.socket .nothing) _ :=
    .socket idle alive ⟨trivial,x.1.sockets.machine,rfl,hexec⟩
  rw [← hg] at hstep
  exact ⟨_,(_,_),own_socket (by simp),hstep,.call k callback hr .nothing trivial⟩

theorem release_proceeds (hrun : Run (Joint E M) (.initial M,.initial) tr x) (idle : x.1.Idle)
    (hruns : x.1.sockets.appRuns = true) {s : ℕ} {callback : Option Callback}
    (hr : HelixExample.Ready x.2 (.release s) callback q) :
    ∃ l y, Own E x.1 l ∧ Joint E M x l y := by
  obtain ⟨tr',t,hrun',_,hthread⟩ := run_thread hrun
  rcases ready_due hthread hr with ⟨t',due,_⟩ | ⟨_,_,_,_,hl,_⟩
  · have hcurrent : current t = some s := by
      obtain ⟨ht,_⟩ | ⟨_,e,_,_,_,he,_⟩ := due_inv due
      · rw [current,ht]
      · cases e <;> cases he
    have held : s ∈ x.1.held := ((run_holding hrun').mem s).mpr (.inl hcurrent)
    exact ⟨_,(_,_),⟨by simp,by simp⟩,.drop idle hruns held,.release s callback hr⟩
  · cases hl

theorem callback_proceeds (hrun : Run (Joint E M) (.initial M,.initial) tr x) (idle : x.1.Idle)
    {cb : Callback} {fs : List (Function P)} {as : List (Activity ℕ ℕ)}
    (hp : x.2.functions = ⟨some cb,.returning⟩ :: fs)
    (has : activities x.1.sockets = .callback :: as) : ∃ l y, Own E x.1 l ∧ Joint E M x l y := by
  obtain ⟨r,hr⟩ := callback_returns x.1.sockets has
  have hstep : Step x.1 (.socket .callbackReturn,.socket r.2) { x.1 with sockets := r.1 } :=
    .socket idle trivial ⟨trivial,x.1.sockets.machine,rfl,hr⟩
  have hcontinues := socket_continues (beside_left hrun) (run_follows hrun).1 hstep
  rw [has] at hcontinues
  obtain ⟨d,seen⟩ := r
  cases hcontinues with
  | callbackReturn => exact ⟨_,(_,_),own_socket (by simp),hstep,.callbackReturn cb fs hp⟩

/-- What is ready can be done. -/
theorem ready_proceeds (hrun : Run (Joint E M) (.initial M,.initial) tr x) (idle : x.1.Idle)
    (hruns : x.1.sockets.appRuns = true) {k : Point P} {callback : Option Callback}
    (hr : HelixExample.Ready x.2 k callback q) : ∃ l y, Own E x.1 l ∧ Joint E M x l y := by
  have main : Main k → ∃ l y, Own E x.1 l ∧ Joint E M x l y := by
    intro hk
    obtain ⟨tr',t,hrun',_,hthread⟩ := run_thread hrun
    obtain ⟨hp,ht⟩ := ready_main hthread hr hk
    exact main_proceeds idle hruns hk hp (run_setUp hrun').1.stage ht
  cases k with
  | createHelix | createHelix2 | addHelix | addHelix2 => exact main trivial
  | createSocket role =>
    obtain ⟨f,_,_,_,hstep⟩ := socket_makes hrun role hr idle.tasks hruns
    exact ⟨_,_,⟨by simp,by simp⟩,hstep⟩
  | call k => exact call_proceeds hrun idle hruns hr
  | release s => exact release_proceeds hrun idle hruns hr

/-- On its turn the example goes on unless it has come to its end. -/
theorem example_proceeds (hrun : Run (Joint E M) (.initial M,.initial) tr x)
    (hruns : x.1.sockets.appRuns = true) (hmore : x.2.functions ≠ [] ∨ x.2.scheduled ≠ []) :
    ∃ l y, Own E x.1 l ∧ Joint E M x l y := by
  by_cases htasks : x.1.wiring.tasks = []
  · have idle := run_idle hrun htasks
    have turn : AppTurn (activities x.1.sockets) = true := (activities_appTurn _).trans hruns
    rcases follows_turn (run_follows hrun).2 turn with
      hidle | ⟨callback,l,fs,hp⟩ | ⟨cb,fs,as,hp,has⟩
    · obtain ⟨⟨time,e⟩,later,hlater⟩ :=
        List.exists_cons_of_ne_nil (hmore.resolve_left (not_not_intro hidle))
      exact ready_proceeds hrun idle hruns (.begin hidle hlater)
    · exact ready_proceeds hrun idle hruns (.calling hp)
    · exact callback_proceeds hrun idle hp has
  · obtain ⟨tr',t,hrun',_,_⟩ := run_thread hrun
    have hunharmed := (run_setUp hrun').1.unharmed
    obtain ⟨w,hw⟩ := pending_proceeds (unharmed_alive (beside_left hrun') hunharmed) htasks
    exact ⟨(.stack .proceed,_),(_,x.2),own_stack fun _ => .inl trivial,
      .stack hunharmed.undisposed hruns hw,.notify .proceed trivial⟩

/-- At its end the example has made both sockets, called everything that was to
be called on them, and given up its references. -/
theorem ended_whole (hrun : Run (Joint E M) (.initial M,.initial) tr x)
    (hfunctions : x.2.functions = []) (hscheduled : x.2.scheduled = []) :
    x.1.nextSocket = 2 ∧ calledOn 0 (labels tr) = calls E .server ∧
      calledOn 1 (labels tr) = calls E .client ∧ x.1.held = [] := by
  obtain ⟨tr',t,hrun',hleft,hthread⟩ := run_thread hrun
  have hlabels : labels tr' = labels tr := by rw [← labels_onLeft,hleft,labels_onLeft]
  have hphase : t.phase = none := by
    obtain ⟨above,_,happend⟩ := hthread.functions
    have hnone := (List.append_eq_nil_iff.mp (happend.symm.trans hfunctions)).2
    rw [Thread.functions] at hnone
    cases ht : t.phase with
    | none => rfl
    | some ph => simp [ht] at hnone
  have hlater : t.scheduled = [] := hthread.scheduled.symm.trans hscheduled
  have hnext : x.1.nextSocket = 2 := by
    cases (run_setUp hrun').2.1 with
    | setUp l ht => cases hphase.symm.trans ht
    | running _ later =>
      have hdone : roles.length ≤ x.1.nextSocket := by
        rw [← List.drop_eq_nil_iff,← later,toCreate,hlater]
        rfl
      exact Nat.le_antisymm (two_sockets hrun) hdone
  have life := run_life hrun'
  have called : ∀ s role, s < x.1.nextSocket → roles[s]? = some role →
      calledOn s (labels tr) = calls E role := by
    intro s role hs hrole
    rw [← life.whole s role hs hrole,hlabels]
    simp [owes,doing,hphase,toClose,hlater]
  refine ⟨hnext,called 0 .server (by omega) rfl,called 1 .client (by omega) rfl,?_⟩
  refine List.eq_nil_iff_forall_not_mem.mpr fun s hs => ?_
  rcases ((run_holding hrun').mem s).mp hs with hcurrent | hclose
  · simp [current,hphase] at hcurrent
  · simp [toClose,hlater] at hclose

/-- Whatever the UDP layer does the example takes part in it. When it is its
turn there is always a step it can take, until nothing is left to be done; and
then both sockets have been made and used from beginning to end, and every
reference has been given up. -/
theorem example_goes_on (hrun : Run (Joint E M) (.initial M,.initial) tr x) :
    (∀ move seen c', Step x.1 (.socket (.udp move),.socket seen) c' →
      ∃ q, Joint E M x (.socket (.udp move),.socket seen) (c',q)) ∧
    (x.1.sockets.appRuns = true → x.2.functions ≠ [] ∨ x.2.scheduled ≠ [] →
      ∃ l y, Own E x.1 l ∧ Joint E M x l y) ∧
    (x.2.functions = [] → x.2.scheduled = [] → x.1.nextSocket = 2 ∧
      calledOn 0 (labels tr) = calls E .server ∧ calledOn 1 (labels tr) = calls E .client ∧
      x.1.held = []) := by
  obtain ⟨hturns,hfollows⟩ := run_follows hrun
  refine ⟨fun move seen c' hstep => ?_,example_proceeds hrun,ended_whole hrun⟩
  obtain ⟨q,hq⟩ := process_accepts hfollows (socket_continues (beside_left hrun) hturns hstep)
  exact ⟨q,hstep,hq⟩

/-- The example can come to its end. -/
theorem example_ends : ∃ tr x, Run (Joint twoNodes arbitrary) (.initial arbitrary,.initial) tr x ∧
    calledOn 0 (labels tr) = calls twoNodes .server ∧
    calledOn 1 (labels tr) = calls twoNodes .client ∧ x.1.held = [] := by
  obtain ⟨_,tr,x,hrun,hfunctions,hscheduled⟩ := echo_runs
  obtain ⟨_,hserver,hclient,hheld⟩ := (example_goes_on hrun).2.2 hfunctions hscheduled
  exact ⟨tr,x,hrun,hserver,hclient,hheld⟩

end Progress

end Ns3Helix.ExampleProgress
