import Ns3Helix.SetUpSafety
import Ns3Helix.SetUpVerdict

/-!
# Where a socket belongs

A socket that the factory of a node returns is the work of that node's
protocol, and stays bound to both, however the objects are wired, used and
grouped afterwards.
-/

set_option autoImplicit false

namespace Ns3Helix.SocketPlacement
open Ns3Helix.SocketInterface Ns3Helix.SocketImpl Ns3Helix.SocketMachine
open Ns3Helix.HelixSystem Ns3Helix.SocketRegistry Ns3Helix.SetUpSafety
open Ns3Helix.SetUpVerdict
open Ns3Helix.StackInvariant Ns3Helix.StackSteps Ns3Helix.StackWiring
open Ns3Helix.TransitionSystem

section Wiring

variable {tr : List (StackMachine.Wiring × StackMachine.Event)} {x x' : StackMachine.Wiring}
  {e : StackMachine.Event}

theorem course_evolves (h : Course tr x) (hstep : StackMachine.Step x e x')
    (halive : x'.aborted = none) : ∃ A, Evolves x.world x'.world A := by
  obtain ⟨ss,sound⟩ | ⟨_,reason⟩ | ⟨_,_,state⟩ := h
  · have nested : StackMachine.Nested x x' → ∃ A, Evolves x.world x'.world A := fun hn => by
      rcases nested_advances sound.between hn with ⟨_,ha⟩ | ⟨hreason,_⟩
      · exact ⟨_,ha.evolves⟩
      · cases halive.symm.trans hreason
    have hnow := hstep
    obtain ⟨_,order,hexec⟩ := hstep
    cases StackMachine.exec_executes hexec with
    | create t => exact ⟨_,evolves_create _ t fun _ => True⟩
    | aggregate a b idle hc =>
      rw [aggregate_accepted order x [] hc]
      exact ⟨_,evolves_merge hc fun _ => True⟩
    | addHelix | allow => exact ⟨_,evolves_refl _ fun _ => True⟩
    | publish t => exact nested (.inr ⟨t,hnow⟩)
    | notify | skip | resume => exact nested (.inl hnow)
  · cases hstep.1.symm.trans reason
  · cases halive.symm.trans (refusing_aborts state hstep)

end Wiring

variable {P : Platform} {M : UdpMachine P ℕ}
variable {tr : List (System P M × SystemLabel P)} {c c' : System P M} {l : SystemLabel P}
variable {s p n : ℕ}

structure Belongs (c : System P M) (s p n : ℕ) : Prop where
  helix : (c.sockets.socket s).mHelix = some p
  node : (c.sockets.socket s).mNode = some n
  served : c.wiring.aborted = none → c.typeOf n = some .node ∧
    c.getObject n .helixL4Protocol = some p
  known : c.wiring.aborted = none → p ∉ c.disposed → (c.helix p).mNode = some n

theorem socketAfter_owners {η ι : Type} [DecidableEq η] [DecidableEq ι] {M : UdpMachine P ι}
    (c : Config P η ι M) (a : Action P η ι) (h : η) :
    (c.socketAfter a h).mHelix = (c.socket h).mHelix ∧
      (c.socketAfter a h).mNode = (c.socket h).mNode := by
  cases a with
  | call t o =>
    cases t with
    | udp u => exact ⟨rfl,rfl⟩
    | helix g =>
      simp only [Config.socketAfter]
      cases (c.socket g).mUdpSocket with
      | none => exact ⟨rfl,rfl⟩
      | some u =>
        by_cases hg : h = g
        · subst hg
          cases o <;> simp [HelixSocketImpl.register]
        · simp [hg]
  | inherited t i =>
    cases t with
    | udp u => exact ⟨rfl,rfl⟩
    | helix g =>
      by_cases hg : h = g
      · subst hg
        simp [Config.socketAfter]
      · simp [Config.socketAfter,hg]
  | callbackReturn => exact ⟨rfl,rfl⟩
  | udp move => exact ⟨rfl,rfl⟩

theorem belongs_same (h : Belongs c s p n) (hsocket : c'.sockets.socket s = c.sockets.socket s)
    (hwiring : c'.wiring = c.wiring) (hdisposed : c'.disposed = c.disposed) :
    Belongs c' s p n where
  helix := by rw [hsocket]; exact h.helix
  node := by rw [hsocket]; exact h.node
  served := by
    rw [System.typeOf,System.getObject,hwiring]
    exact h.served
  known := by
    rw [System.helix,hwiring,hdisposed]
    exact h.known

theorem belongs_evolves {w : StackMachine.Wiring} (h : Belongs c s p n)
    (hc : c.wiring.aborted = none)
    (hev : w.aborted = none → ∃ A, Evolves c.wiring.world w.world A) :
    Belongs { c with wiring := w } s p n where
  helix := h.helix
  node := h.node
  served halive := by
    obtain ⟨A,hev⟩ := hev halive
    obtain ⟨htype,hserved⟩ := h.served hc
    obtain ⟨hmem,hp⟩ := c.wiring.world.objects.getObject_eq_some.mp hserved
    exact ⟨hev.typeOf htype,w.world.objects.getObject_eq_some.mpr
      ⟨hev.members hmem,hev.typeOf hp⟩⟩
  known halive hp := by
    obtain ⟨A,hev⟩ := hev halive
    exact hev.kept p n (h.known hc hp)

theorem belongs_socket {a : Action P ℕ ℕ} {seen : Seen P ℕ ℕ} {d : Config P ℕ ℕ M}
    (h : Belongs c s p n) (hecho : c.sockets.Echoing)
    (hstep : SocketMachine.Step M c.sockets (a,seen) d) :
    Belongs { c with sockets := d } s p n := by
  obtain ⟨hsocket,_,_⟩ := step_after hecho hstep
  obtain ⟨hhelix,hnode⟩ := socketAfter_owners c.sockets a s
  refine ⟨?_,?_,h.served,h.known⟩
  · show (d.socket s).mHelix = some p
    rw [hsocket,hhelix,h.helix]
  · show (d.socket s).mNode = some n
    rw [hsocket,hnode,h.node]

theorem belongs_created {q m : ℕ} (h : Belongs c s p n) (hs : s < c.nextSocket) :
    Belongs (c.created q m) s p n := by
  have hsocket : (c.created q m).sockets.socket s = c.sockets.socket s := by
    rw [created_socket,if_neg (Nat.ne_of_lt hs)]
  refine ⟨by rw [hsocket]; exact h.helix,by rw [hsocket]; exact h.node,h.served,?_⟩
  intro halive hp
  have hknown := h.known halive hp
  rw [created_helix]
  split
  next hpq =>
    subst hpq
    exact hknown
  next => exact hknown

theorem step_belongs (hrun : Run Step (.initial M) tr c) (h : Belongs c s p n)
    (hs : s < c.nextSocket) (hstep : Step c l c') : Belongs c' s p n ∧ s < c'.nextSocket := by
  have halive := step_unaborted hstep
  have hstatus := run_status hrun (step_undisposed hstep)
  cases hstep with
  | @stack e w undisposed _ hx =>
    obtain ⟨course,_⟩ | ⟨reason,_⟩ := hstatus
    · exact ⟨belongs_evolves h halive fun hw => course_evolves course hx hw,hs⟩
    · cases halive.symm.trans reason
  | socket _ _ hx => exact ⟨belongs_socket h (run_paired hrun).echoing hx,hs⟩
  | created _ _ _ hx =>
    obtain ⟨_,q,m,_,_,rfl,rfl⟩ := createSocket_ok c hx
    exact ⟨belongs_same (belongs_created h hs) rfl rfl rfl,Nat.lt_succ_of_lt hs⟩
  | aborted _ _ _ _ =>
    have hreason : ∀ e, (c.abort e).wiring.aborted ≠ none := fun e => by simp [System.abort]
    exact ⟨⟨h.helix,h.node,fun hc => absurd hc (hreason _),
      fun hc => absurd hc (hreason _)⟩,hs⟩
  | createUdpSocket _ _ _ => exact ⟨belongs_same h rfl rfl rfl,hs⟩
  | drop _ _ _ => exact ⟨belongs_same h rfl rfl rfl,hs⟩
  | @dispose o idle _ =>
    have hobjects := dispose_objects c.wiring.world o
    refine ⟨⟨h.helix,h.node,fun hc => ?_,fun hc hp => ?_⟩,hs⟩
    · obtain ⟨htype,hserved⟩ := h.served hc
      refine ⟨?_,?_⟩
      · show (c.wiring.world.dispose o).objects.typeOf n = _
        rw [hobjects]
        exact htype
      · show (c.wiring.world.dispose o).objects.getObject n _ = _
        rw [hobjects]
        exact hserved
    · show ((c.wiring.world.dispose o).helix p).mNode = some n
      rw [dispose_helix,if_neg fun hm => hp hm.1]
      have hnone : p ∉ c.disposed := by simp [idle.undisposed]
      exact h.known hc hnone

theorem created_belongs (hrun : Run Step (.initial M) tr c) {r : Creator}
    (hstep : Step c (.createSocket r,.created s) c') : ∃ p n, c.serves r = some p ∧
      (c.helix p).mNode = some n ∧ Belongs c' s p n ∧ s < c'.nextSocket := by
  have hstatus := run_status hrun (step_undisposed hstep)
  cases hstep with
  | created idle _ provides hx =>
    obtain ⟨_,p,n,hp,hn,rfl,rfl⟩ := createSocket_ok c hx
    have wired := (idle_sound hstatus idle).1.between.wired
    obtain ⟨hpt,hmem,hnt⟩ := wired.node p n hn
    have hnew := created_socket c p n c.nextSocket
    rw [if_pos rfl] at hnew
    refine ⟨p,n,hp,hn,⟨?_,?_,fun _ => ⟨hnt,?_⟩,fun _ _ => ?_⟩,Nat.lt_succ_self _⟩
    · show ((c.created p n).sockets.socket c.nextSocket).mHelix = some p
      rw [hnew]
      rfl
    · show ((c.created p n).sockets.socket c.nextSocket).mNode = some n
      rw [hnew]
      rfl
    · exact c.wiring.world.objects.getObject_eq_some.mpr
        ⟨c.wiring.world.objects.mem_symm hmem,hpt⟩
    · show ((c.created p n).helix p).mNode = some n
      rw [created_helix,if_pos rfl]
      exact hn

theorem run_belongs (hrun : Run Step (.initial M) tr c) {e : System P M × SystemLabel P}
    (he : e ∈ tr) {r : Creator} (hr : e.2 = (.createSocket r,.created s)) :
    ∃ p n, e.1.serves r = some p ∧ (e.1.helix p).mNode = some n ∧ Belongs c s p n ∧
      s < c.nextSocket := by
  induction hrun with
  | nil => cases he
  | snoc run last ih =>
    rcases List.mem_append.mp he with he | he
    · obtain ⟨p,n,hp,hn,hbelongs,hs⟩ := ih he
      exact ⟨p,n,hp,hn,step_belongs run hbelongs hs last⟩
    · obtain rfl := List.mem_singleton.mp he
      obtain rfl : _ = _ := hr
      exact created_belongs run last

/-- The factory of a node serves the protocol of that node. -/
theorem factory_node {ts : List (StackMachine.Wiring × StackMachine.Event)}
    {ss : List StackMachine.Stage} (h : Sound ts c.wiring ss) {f m : ℕ}
    (hm : c.typeOf m = some .node)
    (hf : c.getObject m .helixSocketFactory = some f) (hp : (c.factory f).mHelix = some p)
    (hn : (c.helix p).mNode = some n) : n = m ∧ c.getObject m .helixL4Protocol = some p := by
  let g := c.wiring.world.objects
  have wired := h.between.wired
  obtain ⟨hfm,hft⟩ := g.getObject_eq_some.mp hf
  obtain ⟨q,hq,hqt,hfq,_⟩ := wired.owner f hft
  obtain rfl : p = q := Option.some.inj (hp.symm.trans hfq)
  obtain ⟨_,hnp,hnt⟩ := wired.node p n hn
  have hpm : p ∈ g.members m := g.mem_trans hfm hq
  have hnm : n ∈ g.members m := g.mem_trans hpm hnp
  exact ⟨g.distinct hnm (g.self_mem m) hnt hm,g.getObject_eq_some.mpr ⟨hpm,hqt⟩⟩

/-- A socket made by the factory that is found on a node is one of the node's
own Helix protocol, and stays so to the end of every run. -/
theorem node_socket_placed (hrun : Run Step (.initial M) tr c) {t : System P M} {f m : ℕ}
    (h : (t,(.createSocket (.factory f),.created s)) ∈ tr) (hm : t.typeOf m = some .node)
    (hf : t.getObject m .helixSocketFactory = some f) :
    ∃ p, t.getObject m .helixL4Protocol = some p ∧ s ∈ createdBy tr p ∧
      (c.sockets.socket s).mHelix = some p ∧ (c.sockets.socket s).mNode = some m ∧
      (c.wiring.aborted = none → c.getObject m .helixL4Protocol = some p ∧
        (p ∉ c.disposed → (c.helix p).mNode = some m)) := by
  obtain ⟨p,n,hp,hn,hbelongs,_⟩ := run_belongs hrun h rfl
  have hmade : s ∈ createdBy tr p := by
    have hentry : (some p,s) ∈ creations tr := List.mem_filterMap.mpr ⟨_,h,by rw [← hp]⟩
    exact List.mem_map_of_mem (f := Prod.snd) (List.mem_filter.mpr ⟨hentry,by simp⟩)
  obtain ⟨pre,post,rfl⟩ := List.append_of_mem h
  obtain ⟨hpre,_,hstep,_⟩ := run_at pre post hrun
  obtain ⟨idle,_,_⟩ := creator_idle hstep
  have sound := (idle_sound (run_status hpre idle.undisposed) idle).1
  obtain ⟨rfl,hserved⟩ := factory_node sound hm hf hp hn
  exact ⟨p,hserved,hmade,hbelongs.helix,hbelongs.node,fun hc =>
    ⟨(hbelongs.served hc).2,hbelongs.known hc⟩⟩

/-- A node with UDP is set up and its factory asked for a socket, which the
application forgets at once. -/
theorem forgotten_socket_placed : ∃ tr c,
    Run Step (.initial (.silent : UdpMachine .unit ℕ)) tr c ∧ c.held = [] ∧
    ∃ p, c.getObject 0 .helixL4Protocol = some p ∧ (c.sockets.socket 0).mNode = some 0 ∧
      (c.helix p).mNode = some 0 := by
  have wired := play_runs (.initial (.silent : UdpMachine .unit ℕ))
    ([.create .node,.create .udpSocketFactory,.aggregate 0 1,.proceed,.proceed,
      .addHelix 0 none] ++ List.replicate 10 .proceed) rfl rfl rfl
  have made := run_then wired (.createSocket (.factory 3),.created 0)
    (.created ⟨rfl,rfl,rfl⟩ rfl rfl rfl)
  have hrun := run_then made (.drop 0,.nothing) (.drop ⟨rfl,rfl,rfl⟩ rfl (by decide))
  obtain ⟨p,_,_,_,hnode,hlater⟩ := node_socket_placed hrun (f := 3) (s := 0) (m := 0)
    (List.mem_append_left _ (List.mem_append_right _ List.mem_cons_self)) rfl rfl
  exact ⟨_,_,hrun,rfl,p,(hlater rfl).1,hnode,(hlater rfl).2 List.not_mem_nil⟩

end Ns3Helix.SocketPlacement
