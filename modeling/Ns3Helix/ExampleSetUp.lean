import Ns3Helix.ExampleSchedule
import Ns3Helix.SocketPlacement
import Ns3Helix.StackIsolation

/-!
# The set-up of the example

`main` makes two protocols and hands each to its own node. By the time a
socket is asked for, both nodes have their protocol and its factory, whatever
the order of the notifications and whatever else is on the nodes.
-/

set_option autoImplicit false

namespace Ns3Helix.ExampleSetUp
open Ns3Helix.SocketInterface Ns3Helix.SocketMachine Ns3Helix.HelixSystem
open Ns3Helix.HelixStack (World addHelix addHelix_runs)
open Ns3Helix.StackMachine (Wiring Accepts Task)
open Ns3Helix.StackInvariant Ns3Helix.StackSteps Ns3Helix.StackWiring
open Ns3Helix.SocketRegistry Ns3Helix.SetUpSafety Ns3Helix.SetUpVerdict
open Ns3Helix.HelixExample Ns3Helix.ExampleThread Ns3Helix.ExampleSchedule
open Ns3Helix.TransitionSystem

variable {P : Platform} {M : UdpMachine (platform P) ℕ} {E : Example P}

section Wiring

variable {w w' : Wiring} {e : StackMachine.Event} {n h : ℕ}

/-- No Helix protocol, and nothing under way that could bring one. -/
structure Bare (w : Wiring) : Prop where
  types : ∀ o, w.world.objects.typeOf o ≠ some .helixL4Protocol
  tasks : ∀ k ∈ w.tasks, ∃ o, k = .notify o

theorem bare_aggregate (order : StackMachine.Order) (hw : Bare w) (a b : ℕ) {rest : List Task}
    (hrest : ∀ k ∈ rest, ∃ o, k = .notify o) : Bare (w.aggregate order a b rest) := by
  simp only [Wiring.aggregate,World.aggregate]
  by_cases hc : w.world.objects.Compatible a b
  · rw [dif_pos hc]
    refine ⟨hw.types,fun k hk => ?_⟩
    rcases List.mem_append.mp hk with hk | hk
    · obtain ⟨o,_,rfl⟩ := List.mem_map.mp hk
      exact ⟨o,rfl⟩
    · exact hrest k hk
  · rw [dif_neg hc]
    exact ⟨hw.types,hw.tasks⟩

theorem bare_create (hw : Bare w) {t : HelixStack.TypeId} (ht : t ≠ .helixL4Protocol) (budget : ℕ) :
    Bare { w with world := w.world.create t, budget := budget } := by
  refine ⟨fun o ho => ?_,hw.tasks⟩
  rcases w.world.objects.create_typeOf.mp ho with ho | ⟨_,ho⟩
  · exact hw.types o ho
  · exact ht ho

/-- Nothing foreign brings a Helix protocol. -/
theorem foreign_bare (hw : Bare w) (he : Foreign e) (hstep : StackMachine.Step w e w') :
    Bare w' := by
  obtain ⟨_,order,hexec⟩ := hstep
  cases StackMachine.exec_executes hexec with
  | create t => exact bare_create hw he w.budget
  | aggregate a b => exact bare_aggregate order hw a b (by simp)
  | addHelix => cases he
  | allow => exact ⟨hw.types,hw.tasks⟩
  | publish t o rest hs _ ht =>
    have hother : t ≠ .helixL4Protocol := by
      rintro rfl
      cases ht
    exact bare_aggregate order (bare_create hw hother _) o _ hw.tasks
  | notify o rest hs ho => exact absurd ho (hw.types o)
  | skip o rest hs =>
    exact ⟨hw.types,fun k hk => hw.tasks k (by rw [hs]; exact List.mem_cons_of_mem _ hk)⟩
  | resume p rest hs =>
    obtain ⟨o,ho⟩ := hw.tasks (.resume p) (by rw [hs]; exact List.mem_cons_self)
    cases ho

def Joined (w : Wiring) (n h : ℕ) : Prop :=
  w.tasks = [.resume (addHelix n (some h))] ∨ (w.world.helix h).mNode = some n

theorem aggregate_helix (order : StackMachine.Order) (w : Wiring) (a b : ℕ) (rest : List Task) :
    (w.aggregate order a b rest).world.helix = w.world.helix := by
  simp only [Wiring.aggregate,World.aggregate]
  by_cases hc : w.world.objects.Compatible a b
  · rw [dif_pos hc]
  · rw [dif_neg hc]

theorem joined_step (hj : Joined w n h) (he : Notifies e) (hstep : StackMachine.Step w e w')
    (hev : ∃ A, Evolves w.world w'.world A) : Joined w' n h := by
  obtain hs | hset := hj
  · obtain ⟨_,order,hexec⟩ := hstep
    cases StackMachine.exec_executes hexec with
    | create | aggregate | addHelix | allow => cases he
    | publish t o rest hs' => cases hs.symm.trans hs'
    | notify o rest hs' => cases hs.symm.trans hs'
    | skip o rest hs' => cases hs.symm.trans hs'
    | resume p rest hs' =>
      obtain ⟨rfl,rfl⟩ : addHelix n (some h) = p ∧ [] = rest := by simpa [hs] using hs'
      refine .inr ?_
      have hset := aggregate_helix order { w with world := w.world.setNode h (some n) } n h
        [.resume (HelixStack.addFactory n h)]
      rw [addHelix_runs]
      exact (congrArg (fun d => (d h).mNode) hset).trans (setNode_same w.world h (some n))
  · obtain ⟨A,hev⟩ := hev
    exact .inr (hev.kept h n hset)

theorem joined_idle (hj : Joined w n h) (hidle : w.tasks = []) :
    (w.world.helix h).mNode = some n := by
  obtain hs | hset := hj
  · cases hidle.symm.trans hs
  · exact hset

structure Waits (w : Wiring) (n h : ℕ) : Prop where
  accepts : Accepts w.world n (some h)
  node : ∃ ss, StackIsolation.Aside n w ss
  helix : ∃ ss, StackIsolation.Aside h w ss

theorem accepts_unchanged {v v' : World} (ha : Accepts v n (some h))
    (hn : StackIsolation.Unchanged v v' n) (hh : StackIsolation.Unchanged v v' h) :
    Accepts v' n (some h) := by
  obtain ⟨hnode,hnone,hfresh⟩ := ha
  obtain ⟨hhelix,halone⟩ := hfresh h rfl
  refine ⟨?_,?_,fun g hg => ?_⟩
  · rw [hn.typeOf n (v.objects.self_mem n),hnode]
  · rw [ObjectAggregation.Aggregation.getObject_eq_none] at hnone ⊢
    intro p hp
    rw [hn.members] at hp
    rw [hn.typeOf p hp]
    exact hnone p hp
  · obtain rfl := Option.some.inj hg
    refine ⟨?_,?_⟩
    · rw [hh.typeOf h (v.objects.self_mem h),hhelix]
    · rw [hh.members]
      exact halone

theorem waits_step (hw : Waits w n h) (he : Notifies e) (hstep : StackMachine.Step w e w') :
    Waits w' n h := by
  have avoids : ∀ o, StackIsolation.Avoids w.world o e := by
    intro o
    cases e with
    | proceed | publish => trivial
    | create | aggregate | addHelix | allow => cases he
  obtain ⟨ss,hnode⟩ := hw.node
  obtain ⟨ss',hhelix⟩ := hw.helix
  obtain ⟨hnode',hn⟩ := StackIsolation.step_aside hnode (avoids n) hstep
  obtain ⟨hhelix',hh⟩ := StackIsolation.step_aside hhelix (avoids h) hstep
  exact ⟨accepts_unchanged hw.accepts hn hh,hnode',hhelix'⟩

theorem waits_called {m g : ℕ} (ha : Accepts w.world n (some h)) (hb : Accepts w.world m (some g))
    (hnm : n ≠ m) (hhg : h ≠ g) :
    Waits { w with tasks := [.resume (addHelix m (some g))] } n h := by
  obtain ⟨hnode,hnone,hfresh⟩ := ha
  obtain ⟨hnode',_,hfresh'⟩ := hb
  obtain ⟨hhelix,halone⟩ := hfresh h rfl
  obtain ⟨hhelix',_⟩ := hfresh' g rfl
  have clash : ∀ {o}, w.world.objects.typeOf o = some .node →
      w.world.objects.typeOf o ≠ some .helixL4Protocol := by
    intro o ho ho'
    cases ho.symm.trans ho'
  have apart : ∀ {o}, StackIsolation.Apart w.world o m → StackIsolation.Apart w.world o g →
      ∀ s ∈ [StackMachine.Stage.addHelix m (some g)], StackIsolation.Stage.Apart w.world o s := by
    intro o hm hg s hs
    obtain rfl := List.mem_singleton.mp hs
    exact ⟨hm,fun p hp => Option.some.inj hp ▸ hg⟩
  refine ⟨⟨hnode,hnone,hfresh⟩,⟨[.addHelix m (some g)],w.world.objects.typed_lt hnode,rfl,?_⟩,
    [.addHelix m (some g)],w.world.objects.typed_lt hhelix,rfl,?_⟩
  · refine apart (fun hm => ?_) fun hg => ?_
    · exact hnm (w.world.objects.distinct hm (w.world.objects.self_mem n) hnode' hnode).symm
    · exact w.world.objects.getObject_eq_none.mp hnone g hg hhelix'
  · refine apart (fun hm => ?_) fun hg => hhg (halone g hg).symm
    obtain rfl := halone m hm
    exact clash hnode' hhelix

end Wiring

section Stages

/-- How far `main` is, and what there is by then. -/
inductive SettingUp (E : Example P) (w : Wiring) (t : Thread P) : Prop
  | installing (ht : t.phase = some (.calling .createHelix)) (bare : Bare w)
  | first (helix : ℕ) (ht : t.phase = some (.calling (.createHelix2 helix)))
      (installed : Installed E w.world) (idle : w.tasks = [])
      (accepts : ∀ role, Accepts w.world (E.node role) (some helix))
  | both (helix helix2 : ℕ) (ht : t.phase = some (.calling (.addHelix helix helix2)))
      (installed : Installed E w.world) (idle : w.tasks = []) (distinct : helix ≠ helix2)
      (accepts : Accepts w.world (E.node .client) (some helix))
      (accepts2 : Accepts w.world (E.node .server) (some helix2))
  | client (helix helix2 : ℕ) (ht : t.phase = some (.calling (.addHelix2 helix2)))
      (installed : Installed E w.world) (joined : Joined w (E.node .client) helix)
      (waits : Waits w (E.node .server) helix2)
  | after (main : ∀ l, t.phase = some (.calling l) → ¬ Main l) (installed : Installed E w.world)
      (joined : ∀ role, ∃ helix, Joined w (E.node role) helix)

def Reached (E : Example P) (w : Wiring) : Point P → Prop
  | .createHelix => Bare w
  | .createHelix2 helix => Installed E w.world ∧
      ∀ role, Accepts w.world (E.node role) (some helix)
  | .addHelix helix helix2 => Installed E w.world ∧ helix ≠ helix2 ∧
      Accepts w.world (E.node .client) (some helix) ∧
      Accepts w.world (E.node .server) (some helix2)
  | .addHelix2 helix2 => Installed E w.world ∧ Waits w (E.node .server) helix2 ∧
      ∃ helix, Joined w (E.node .client) helix
  | _ => True

variable {w w' : Wiring} {e : StackMachine.Event} {t t' : Thread P} {l : Point P}

theorem settingUp_reached (h : SettingUp E w t) (ht : t.phase = some (.calling l)) :
    Reached E w l := by
  cases h with
  | installing ht' bare =>
    cases ht.symm.trans ht'
    exact bare
  | first helix ht' installed _ accepts =>
    cases ht.symm.trans ht'
    exact ⟨installed,accepts⟩
  | both helix helix2 ht' installed _ distinct accepts accepts2 =>
    cases ht.symm.trans ht'
    exact ⟨installed,distinct,accepts,accepts2⟩
  | client helix helix2 ht' installed joined waits =>
    cases ht.symm.trans ht'
    exact ⟨installed,waits,helix,joined⟩
  | after main =>
    cases l with
    | createHelix | createHelix2 helix | addHelix helix helix2 | addHelix2 helix2 =>
      exact absurd trivial (main _ ht)
    | createSocket | call | release => trivial

theorem installed_evolves (h : Installed E w.world) (hev : ∃ A, Evolves w.world w'.world A) :
    Installed E w'.world := by
  obtain ⟨A,hev⟩ := hev
  refine ⟨fun role => hev.typeOf (h.node role),fun role => ?_⟩
  obtain ⟨u,hu⟩ := Option.isSome_iff_exists.mp (h.udp role)
  obtain ⟨hmem,hut⟩ := w.world.objects.getObject_eq_some.mp hu
  exact Option.isSome_iff_exists.mpr ⟨u,w'.world.objects.getObject_eq_some.mpr
    ⟨hev.members hmem,hev.typeOf hut⟩⟩

theorem notified_settingUp (h : SettingUp E w t) (he : Notifies e)
    (hstep : StackMachine.Step w e w') (hev : ∃ A, Evolves w.world w'.world A) :
    SettingUp E w' t := by
  have busy : w.tasks ≠ [] := by
    obtain ⟨_,order,hexec⟩ := hstep
    cases StackMachine.exec_executes hexec with
    | create | aggregate | addHelix | allow => cases he
    | publish t o rest hs | notify o rest hs | skip o rest hs | resume p rest hs => simp [hs]
  cases h with
  | installing ht bare =>
    refine .installing ht (foreign_bare bare ?_ hstep)
    cases e with
    | proceed | publish => trivial
    | create | aggregate | addHelix | allow => cases he
  | first helix ht installed idle => exact absurd idle busy
  | both helix helix2 ht installed idle => exact absurd idle busy
  | client helix helix2 ht installed joined waits =>
    exact .client helix helix2 ht (installed_evolves installed hev)
      (joined_step joined he hstep hev) (waits_step waits he hstep)
  | after main installed joined =>
    refine .after main (installed_evolves installed hev) fun role => ?_
    obtain ⟨helix,hj⟩ := joined role
    exact ⟨helix,joined_step hj he hstep hev⟩

theorem due_over (h : SettingUp E w t) (hdue : Due t l t') (hl : ¬ Main l) :
    Installed E w.world ∧ ∀ role, ∃ helix, Joined w (E.node role) helix := by
  have phase : t.phase = none ∨ t.phase = some (.calling l) := by
    cases hdue with
    | calling ht => exact .inr ht
    | begin ht => exact .inl ht
  have other : ∀ k, t.phase = some (.calling k) → k = l := by
    intro k hk
    rcases phase with ht | ht
    · cases ht.symm.trans hk
    · cases ht.symm.trans hk
      rfl
  cases h with
  | after main installed joined => exact ⟨installed,joined⟩
  | installing ht | first helix ht | both helix helix2 ht | client helix helix2 ht =>
    exact absurd (other _ ht ▸ trivial) hl

end Stages

section Runs

variable {tr : List (System (platform P) M × SystemLabel (platform P))}
  {c c' : System (platform P) M} {t t' : Thread P} {l : SystemLabel (platform P)}

structure Unharmed (tr : List (System (platform P) M × SystemLabel (platform P)))
    (c : System (platform P) M) : Prop where
  homed : ¬ Stranded (wiringTrace tr)
  accepted : ¬ Refused (wiringTrace tr)
  ready : AllReady tr
  undisposed : c.disposed = []

theorem unharmed_course (hrun : Run Step (.initial M) tr c) (h : Unharmed tr c) :
    Course (wiringTrace tr) c.wiring := by
  obtain ⟨course,_⟩ | ⟨_,cause⟩ := run_status hrun h.undisposed
  · exact course
  · exact absurd h.ready cause

theorem unharmed_alive (hrun : Run Step (.initial M) tr c) (h : Unharmed tr c) :
    c.wiring.aborted = none := by
  obtain ⟨ss,sound⟩ | ⟨stranded,_⟩ | ⟨refused,_⟩ := unharmed_course hrun h
  · exact sound.between.alive
  · exact absurd stranded h.homed
  · exact absurd refused h.accepted

structure Harmless (w : World) (e : StackMachine.Event) : Prop where
  strands : ∀ a b, e = .aggregate a b → ¬ Strands w a b
  accepts : ∀ n helix, e = .addHelix n helix → Accepts w n helix

theorem unharmed_stack (hrun : Run Step (.initial M) tr c) (h : Unharmed tr c)
    {e : StackMachine.Event} (hstep : Step c (.stack e,.nothing) c')
    (he : Harmless c.wiring.world e) : Unharmed (tr++[(c,(.stack e,.nothing))]) c' ∧
      ∃ w, StackMachine.Step c.wiring e w ∧ c' = { c with wiring := w } ∧
        ∃ A, Evolves c.wiring.world w.world A := by
  have hafter := run_then hrun _ hstep
  cases hstep with
  | @stack _ w undisposed runs hw =>
    have hunharmed : Unharmed (tr++[(c,(.stack e,.nothing))]) { c with wiring := w } := by
      refine ⟨?_,?_,?_,undisposed⟩
      · rw [wiringTrace_stack,stranded_snoc]
        rintro (hs | ⟨a,b,rfl,hs⟩)
        · exact h.homed hs
        · exact he.strands a b rfl hs
      · rw [wiringTrace_stack,refused_snoc]
        rintro (hs | ⟨n,helix,rfl,hs⟩)
        · exact h.accepted hs
        · exact hs (he.accepts n helix rfl)
      · exact allReady_snoc.mpr ⟨h.ready,fun r hr => by cases hr⟩
    exact ⟨hunharmed,w,hw,rfl,SocketPlacement.course_evolves (unharmed_course hrun h) hw
      (unharmed_alive hafter hunharmed)⟩

theorem unharmed_other (h : Unharmed tr c) (hl : ∀ e, l.1 ≠ .stack e)
    (hready : ∀ r, l.1 = .createSocket r → c.Ready r) (hc' : c'.disposed = []) :
    Unharmed (tr++[(c,l)]) c' := by
  refine ⟨?_,?_,allReady_snoc.mpr ⟨h.ready,hready⟩,hc'⟩
  · rw [wiringTrace_other hl]
    exact h.homed
  · rw [wiringTrace_other hl]
    exact h.accepted

theorem notifies_harmless {w : World} {e : StackMachine.Event} (he : Notifies e) :
    Harmless w e := by
  constructor
  · rintro a b rfl
    cases he
  · rintro n helix rfl
    cases he

theorem foreign_harmless {w : Wiring} {e : StackMachine.Event} (bare : Bare w) (he : Foreign e) :
    Harmless w.world e := by
  constructor
  · rintro a b rfl ⟨g,_,hg,_⟩
    exact bare.types g hg
  · rintro n helix rfl
    cases he

/-- On a node that is set up the factory is found, and it can make a socket. -/
theorem factory_found (hrun : Run Step (.initial M) tr c) (h : Unharmed tr c) (hidle : c.Idle)
    (installed : Installed E c.wiring.world) {role : Role} {helix : ℕ}
    (hj : Joined c.wiring (E.node role) helix) :
    ∃ f, c.getObject (E.node role) .helixSocketFactory = some f ∧
      c.typeOf f = some .helixSocketFactory ∧ c.Ready (.factory f) := by
  have sound := (idle_sound (run_status hrun h.undisposed) hidle).1
  have hset := joined_idle hj hidle.tasks
  obtain ⟨hhelix,hmem,_⟩ := sound.between.wired.node helix _ hset
  obtain ⟨f,hf,_⟩ := settled_factory sound hhelix hset
  have hfound : c.getObject (E.node role) .helixSocketFactory = some f := by
    rw [← hf]
    exact c.wiring.world.objects.getObject_same _ hmem
  obtain ⟨hfn,hft⟩ := c.wiring.world.objects.getObject_eq_some.mp hfound
  refine ⟨f,hfound,hft,(ready_iff (r := .factory f) sound hft).mpr ?_⟩
  show (c.wiring.world.objects.getObject f .udpSocketFactory).isSome
  rw [c.wiring.world.objects.getObject_same _ hfn]
  exact installed.udp role

structure SetUp (E : Example P) (tr : List (System (platform P) M × SystemLabel (platform P)))
    (c : System (platform P) M) (t : Thread P) : Prop where
  unharmed : Unharmed tr c
  stage : SettingUp E c.wiring t

theorem setUp_initial : SetUp E [] (.initial M) .initial where
  unharmed := {
    homed := by
      rintro ⟨_,_,_,h,_⟩
      cases h
    accepted := by
      rintro ⟨_,_,_,h,_⟩
      cases h
    ready := fun _ h => by cases h
    undisposed := rfl }
  stage := .installing rfl ⟨fun o ho => (by cases ho),fun k hk => (by cases hk)⟩

theorem accepts_new {w : World} {n : ℕ} (hn : w.objects.typeOf n = some .node)
    (hnone : w.objects.getObject n .helixL4Protocol = none) :
    Accepts (w.create .helixL4Protocol) n (some w.objects.next) := by
  refine ⟨w.objects.create_typeOf.mpr (.inl hn),?_,fun g hg => ?_⟩
  · rw [ObjectAggregation.Aggregation.getObject_eq_none] at hnone ⊢
    intro p hp hpt
    rcases w.objects.create_typeOf.mp hpt with hpt | ⟨rfl,_⟩
    · exact hnone p hp hpt
    · exact Nat.lt_irrefl _ (w.objects.member_lt (w.objects.typed_lt hn) hp)
  · obtain rfl := Option.some.inj hg
    exact ⟨w.objects.create_typeOf_new _,w.objects.members_next⟩

theorem create_inv {w w' : Wiring} {x : HelixStack.TypeId}
    (h : StackMachine.Step w (.create x) w') :
    w.tasks = [] ∧ w' = { w with world := w.world.create x } := by
  obtain ⟨_,order,hexec⟩ := h
  cases StackMachine.exec_executes hexec with
  | create _ idle => exact ⟨idle,rfl⟩

theorem waiting_over {w : Wiring} (h : SettingUp E w t) {k : Call P}
    (ht : t.phase = some (.waiting k)) :
    Installed E w.world ∧ ∀ role, ∃ helix, Joined w (E.node role) helix := by
  cases h with
  | after main installed joined => exact ⟨installed,joined⟩
  | installing ht' | first helix ht' | both helix helix2 ht' | client helix helix2 ht' =>
    cases ht.symm.trans ht'

theorem setUp_other (h : Unharmed tr c) (hl : ∀ e, l.1 ≠ .stack e)
    (hready : ∀ r, l.1 = .createSocket r → c.Ready r) (hundisposed : c'.disposed = [])
    (hwiring : c'.wiring = c.wiring) (stage : SettingUp E c.wiring t') :
    SetUp E (tr++[(c,l)]) c' t' :=
  ⟨unharmed_other h hl hready hundisposed,hwiring ▸ stage⟩

theorem socket_same {a : Action (platform P) ℕ ℕ} {seen : Seen (platform P) ℕ ℕ}
    (h : Step c (.socket a,.socket seen) c') : c'.wiring = c.wiring ∧ c'.disposed = [] := by
  cases h with
  | socket idle _ _ => exact ⟨rfl,idle.undisposed⟩

theorem aside_setUp (hrun : Run Step (.initial M) tr c) (h : SetUp E tr c t)
    (hstep : Step c l c') (hl : Aside l) : SetUp E (tr++[(c,l)]) c' t := by
  cases hl with
  | notify e he =>
    obtain ⟨hunharmed,w,hw,rfl,hev⟩ := unharmed_stack hrun h.unharmed hstep (notifies_harmless he)
    exact ⟨hunharmed,notified_settingUp h.stage he hw hev⟩
  | recvFrom | callbackReturn | udp =>
    obtain ⟨hwiring,hundisposed⟩ := socket_same hstep
    exact setUp_other h.unharmed (by simp) (by simp) hundisposed hwiring h.stage

theorem called_setUp (hrun : Run Step (.initial M) tr c) (h : SetUp E tr c t) {n g : ℕ}
    (hstep : Step c (.stack (.addHelix n (some g)),.nothing) c')
    (ha : Accepts c.wiring.world n (some g)) : c.wiring.tasks = [] ∧
      Unharmed (tr++[(c,(.stack (.addHelix n (some g)),.nothing))]) c' ∧
      c'.wiring = { c.wiring with tasks := [.resume (addHelix n (some g))] } := by
  have harmless : Harmless c.wiring.world (.addHelix n (some g)) := by
    refine ⟨fun a b he => (by cases he),fun m helix he => ?_⟩
    obtain ⟨rfl,rfl⟩ := StackMachine.Event.addHelix.inj he
    exact ha
  obtain ⟨hunharmed,w,hw,rfl,_⟩ := unharmed_stack hrun h.unharmed hstep harmless
  obtain ⟨idle,_,rfl⟩ := addHelix_called hw
  exact ⟨idle,hunharmed,rfl⟩

theorem created_setUp (hrun : Run Step (.initial M) tr c) (h : SetUp E tr c t)
    (hstep : Step c (.stack (.create .helixL4Protocol),.nothing) c') : c.wiring.tasks = [] ∧
      Unharmed (tr++[(c,(.stack (.create .helixL4Protocol),.nothing))]) c' ∧
      c'.wiring = { c.wiring with world := c.wiring.world.create .helixL4Protocol } ∧
      ∃ A, Evolves c.wiring.world c'.wiring.world A := by
  have harmless : Harmless c.wiring.world (.create .helixL4Protocol) :=
    ⟨fun a b he => (by cases he),fun n helix he => (by cases he)⟩
  obtain ⟨hunharmed,w,hw,rfl,hev⟩ := unharmed_stack hrun h.unharmed hstep harmless
  obtain ⟨idle,rfl⟩ := create_inv hw
  exact ⟨idle,hunharmed,rfl,hev⟩

theorem made_setUp (h : Unharmed tr c) {f socket : ℕ}
    (hstep : Step c (.createSocket (.factory f),.created socket) c')
    (installed : Installed E c.wiring.world)
    (joined : ∀ role, ∃ helix, Joined c.wiring (E.node role) helix)
    (hmain : ∀ l, t'.phase = some (.calling l) → ¬ Main l) :
    SetUp E (tr++[(c,(.createSocket (.factory f),.created socket))]) c' t' := by
  cases hstep with
  | created idle _ provides hs =>
    obtain ⟨hready,p,n,_,_,_,rfl⟩ := createSocket_ok c hs
    have installed' : Installed E ((c.created p n).hold socket).wiring.world :=
      ⟨installed.node,installed.udp⟩
    refine ⟨unharmed_other h (by simp) ?_ idle.undisposed,.after hmain installed' ?_⟩
    · rintro r hr
      obtain rfl := SystemEvent.createSocket.inj hr
      exact hready
    · intro role
      obtain ⟨helix,hj⟩ := joined role
      refine ⟨helix,.inr ?_⟩
      have hset := joined_idle hj idle.tasks
      show ((c.created p n).helix helix).mNode = _
      rw [created_helix]
      split
      next hp =>
        obtain rfl := hp
        exact hset
      next => exact hset

theorem step_setUp (hrun : Run Step (.initial M) tr c) (h : SetUp E tr c t)
    (hstep : Step c l c') (hthread : ThreadStep E c t l t') : SetUp E (tr++[(c,l)]) c' t' := by
  have hunharmed := h.unharmed
  cases hthread with
  | aside hl => exact aside_setUp hrun h hstep hl
  | install e foreign ht =>
    have bare : Bare c.wiring := settingUp_reached h.stage ht
    obtain ⟨hunharmed',w,hw,rfl,_⟩ :=
      unharmed_stack hrun hunharmed hstep (foreign_harmless bare foreign)
    exact ⟨hunharmed',.installing ht (foreign_bare bare foreign hw)⟩
  | createHelix installed ht =>
    have bare : Bare c.wiring := settingUp_reached h.stage ht
    obtain ⟨idle,hunharmed',hwiring,hev⟩ := created_setUp hrun h hstep
    have installed' := installed_evolves installed hev
    rw [hwiring] at installed'
    refine ⟨hunharmed',hwiring ▸ .first c.wiring.world.objects.next rfl installed' idle ?_⟩
    intro role
    refine accepts_new (installed.node role) ?_
    exact c.wiring.world.objects.getObject_eq_none.mpr fun p _ => bare.types p
  | createHelix2 helix ht =>
    obtain ⟨installed,accepts⟩ := settingUp_reached h.stage ht
    obtain ⟨idle,hunharmed',hwiring,hev⟩ := created_setUp hrun h hstep
    have installed' := installed_evolves installed hev
    rw [hwiring] at installed'
    have hlt := c.wiring.world.objects.typed_lt ((accepts .client).2.2 helix rfl).1
    refine ⟨hunharmed',hwiring ▸ .both helix c.wiring.world.objects.next rfl installed' idle
      (Nat.ne_of_lt hlt) (accepts_create _ (accepts .client)) ?_⟩
    exact accepts_new (installed.node .server) (accepts .server).2.1
  | addHelix helix helix2 ht =>
    obtain ⟨installed,distinct,accepts,accepts2⟩ := settingUp_reached h.stage ht
    obtain ⟨_,hunharmed',hwiring⟩ := called_setUp hrun h hstep accepts
    refine ⟨hunharmed',hwiring ▸ .client helix helix2 rfl installed (.inl rfl) ?_⟩
    exact waits_called accepts2 accepts E.distinct.symm distinct.symm
  | addHelix2 helix2 ht =>
    obtain ⟨installed,waits,helix,joined⟩ := settingUp_reached h.stage ht
    obtain ⟨idle,hunharmed',hwiring⟩ := called_setUp hrun h hstep waits.accepts
    have hset := joined_idle joined idle
    refine ⟨hunharmed',hwiring ▸ .after (fun k hk => by cases hk) installed fun role => ?_⟩
    cases role with
    | client => exact ⟨helix,.inr hset⟩
    | server => exact ⟨helix2,.inl rfl⟩
  | createSocket role due factory found socket =>
    obtain ⟨installed,joined⟩ := due_over h.stage due id
    refine made_setUp hunharmed hstep installed joined fun k hk => ?_
    obtain rfl : .call (.bind role socket) = k := by simpa [Thread.proceed] using hk
    exact id
  | refused role due factory found e =>
    obtain ⟨installed,joined⟩ := due_over h.stage due id
    cases hstep with
    | aborted idle _ _ hs =>
      obtain ⟨helix,hj⟩ := joined role
      obtain ⟨f,hf,_,hready⟩ := factory_found hrun hunharmed idle installed hj
      obtain rfl := Option.some.inj (found.symm.trans hf)
      exact absurd hready (createSocket_error c hs).1
  | call k due seen =>
    obtain ⟨installed,joined⟩ := due_over h.stage due id
    obtain ⟨hwiring,hundisposed⟩ := socket_same hstep
    refine setUp_other hunharmed (by simp) (by simp) hundisposed hwiring ?_
    exact .after (fun k hk => by cases hk) installed joined
  | returned k ht v =>
    obtain ⟨installed,joined⟩ := waiting_over h.stage ht
    obtain ⟨hwiring,hundisposed⟩ := socket_same hstep
    refine setUp_other hunharmed (by simp) (by simp) hundisposed hwiring ?_
    refine .after (fun p hp => ?_) installed joined
    obtain ⟨p',hp',hk⟩ := Option.map_eq_some_iff.mp hp
    obtain rfl := FunctionStack.Phase.calling.inj hk
    exact onSocket_main (resume_onSocket k v hp')
  | release socket due =>
    obtain ⟨installed,joined⟩ := due_over h.stage due id
    cases hstep with
    | drop idle =>
      refine setUp_other hunharmed (by simp) (by simp) idle.undisposed rfl ?_
      exact .after (fun k hk => by cases hk) installed joined

def Placed (E : Example P) (c : System (platform P) M) : Prop :=
  ∀ s, s < c.nextSocket → ∃ role p, roles[s]? = some role ∧
    SocketPlacement.Belongs c s p (E.node role)

theorem created_placed (hrun : Run Step (.initial M) tr c) {role : Role} {f s : ℕ}
    (installed : Installed E c.wiring.world)
    (found : c.getObject (E.node role) .helixSocketFactory = some f)
    (hstep : Step c (.createSocket (.factory f),.created s) c') :
    ∃ p, SocketPlacement.Belongs c' s p (E.node role) := by
  obtain ⟨p,n,hserves,hn,hbelongs,_⟩ := SocketPlacement.created_belongs hrun hstep
  have idle := (creator_idle hstep).1
  have sound := (idle_sound (run_status hrun idle.undisposed) idle).1
  obtain ⟨rfl,_⟩ := SocketPlacement.factory_node sound (installed.node role) found hserves hn
  exact ⟨p,hbelongs⟩

theorem created_next {r : Creator} {s : ℕ} (hstep : Step c (.createSocket r,.created s) c') :
    s = c.nextSocket ∧ c'.nextSocket = c.nextSocket+1 := by
  cases hstep with
  | created _ _ _ hcreated =>
    obtain ⟨_,p,n,_,_,rfl,rfl⟩ := createSocket_ok c hcreated
    exact ⟨rfl,rfl⟩

theorem next_same (hstep : Step c l c') (hl : ∀ r s, l ≠ (.createSocket r,.created s)) :
    c'.nextSocket = c.nextSocket := by
  cases hstep with
  | created => exact absurd rfl (hl _ _)
  | stack | socket | aborted | createUdpSocket | drop | dispose => rfl

theorem step_placed (hrun : Run Step (.initial M) tr c) (h : SetUp E tr c t)
    (hm : Making t c.nextSocket) (hp : Placed E c) (hstep : Step c l c')
    (hthread : ThreadStep E c t l t') : Making t' c'.nextSocket ∧ Placed E c' := by
  have kept : ∀ s, s < c.nextSocket → ∃ role p, roles[s]? = some role ∧
      SocketPlacement.Belongs c' s p (E.node role) := by
    intro s hs
    obtain ⟨role,p,hrole,hold⟩ := hp s hs
    exact ⟨role,p,hrole,(SocketPlacement.step_belongs hrun hold hs hstep).1⟩
  -- only `CreateSocket` adds a socket
  by_cases hl : ∀ r s, l ≠ (.createSocket r,.created s)
  · have hnext := next_same hstep hl
    refine ⟨hnext ▸ keeps_making hm hthread hl,fun s hs => kept s ?_⟩
    rwa [← hnext]
  · push Not at hl
    obtain ⟨r,new,rfl⟩ := hl
    obtain ⟨rfl,hnext⟩ := created_next hstep
    obtain ⟨role,f,t'',due,hrole,rfl,found,_,making⟩ := creates_making hm hthread
    refine ⟨hnext ▸ making,fun s hs => ?_⟩
    by_cases hlt : s < c.nextSocket
    · exact kept s hlt
    · obtain rfl : s = c.nextSocket := by omega
      have installed := (due_over h.stage due id).1
      obtain ⟨p,hbelongs⟩ := created_placed hrun installed found hstep
      exact ⟨role,p,hrole,hbelongs⟩

end Runs

section Sockets

variable {tr : List ((System (platform P) M × Thread P) × SystemLabel (platform P))}
  {x : System (platform P) M × Thread P}

theorem run_setUp (hrun : Run (Threaded E M) (.initial M,.initial) tr x) :
    SetUp E (onLeft tr) x.1 x.2 ∧ Making x.2 x.1.nextSocket ∧ Placed E x.1 := by
  induction hrun with
  | nil => exact ⟨setUp_initial,making_initial,fun s hs => absurd hs (Nat.not_lt_zero s)⟩
  | snoc run last ih =>
    obtain ⟨setUp,making,placed⟩ := ih
    rw [onLeft_append]
    exact ⟨step_setUp (beside_left run) setUp last.1 last.2,
      step_placed (beside_left run) setUp making placed last.1 last.2⟩

theorem unharmed_ends {c : System (platform P) M}
    {ts : List (System (platform P) M × SystemLabel (platform P))}
    (hrun : Run Step (.initial M) ts c) (h : Unharmed ts c) :
    Acc (fun w' w => StackMachine.Nested w w') c.wiring := by
  obtain ⟨ss,sound⟩ | ⟨stranded,_⟩ | ⟨refused,_⟩ := unharmed_course hrun h
  · exact nested_terminates sound.between
  · exact absurd stranded h.homed
  · exact absurd refused h.accepted

theorem createSocket_step {c : System (platform P) M} {f : ℕ} (idle : c.Idle)
    (hruns : c.sockets.appRuns = true) (hf : c.typeOf f = some .helixSocketFactory)
    (hready : c.Ready (.factory f)) : ∃ p n, Step c
      (.createSocket (.factory f),.created c.nextSocket) ((c.created p n).hold c.nextSocket) := by
  rcases createSocket_cases c (.factory f) with ⟨p,n,_,_,_,hs⟩ | ⟨hnot,_⟩
  · exact ⟨p,n,.created idle hruns hf hs⟩
  · exact absurd hready hnot

variable {tr : List ((System (platform P) M × Process P) × SystemLabel (platform P))}
  {x : System (platform P) M × Process P}

/-- A function that asks for a socket gets one. -/
theorem socket_makes (hrun : Run (Joint E M) (.initial M,.initial) tr x) (role : Role)
    {callback : Option Callback} {q : Process P}
    (ready : HelixExample.Ready x.2 (.createSocket role) callback q)
    (htasks : x.1.wiring.tasks = []) (happ : x.1.sockets.appRuns = true) :
    ∃ f p n, x.1.getObject (E.node role) .helixSocketFactory = some f ∧
      Joint E M x (.createSocket (.factory f),.created x.1.nextSocket)
        ((x.1.created p n).hold x.1.nextSocket,
          q.proceed callback q.functions (some (.call (.bind role x.1.nextSocket)))) := by
  obtain ⟨tr',t,hrun',hleft,hruns⟩ := run_thread hrun
  obtain ⟨⟨hunharmed,stage⟩,_⟩ := run_setUp hrun'
  have hsystem := beside_left hrun'
  have idle : x.1.Idle := ⟨unharmed_alive hsystem hunharmed,htasks,hunharmed.undisposed⟩
  rcases ready_due hruns ready with ⟨t',due,_⟩ | ⟨_,_,_,_,hl,_⟩
  · obtain ⟨installed,joined⟩ := due_over stage due id
    obtain ⟨helix,hj⟩ := joined role
    obtain ⟨f,hf,hft,hready⟩ := factory_found hsystem hunharmed idle installed hj
    obtain ⟨p,n,hstep⟩ := createSocket_step idle happ hft hready
    exact ⟨f,p,n,hf,hstep,.createSocket role callback ready f hf _⟩
  · cases hl

/-- The set-up of the example does not abort and its notifications come to an
end; whenever a function of the example then asks the node for the factory, it
is there and makes a socket. At most two sockets are made, the server's first,
and each is bound to its node, to the protocol of that node and to a UDP
socket. -/
theorem sockets_obtained (hrun : Run (Joint E M) (.initial M,.initial) tr x) :
    x.1.wiring.aborted = none ∧ Acc (fun w' w => StackMachine.Nested w w') x.1.wiring ∧
      (∀ role callback q, HelixExample.Ready x.2 (.createSocket role) callback q →
        x.1.wiring.tasks = [] → x.1.sockets.appRuns = true →
        ∃ f y, x.1.getObject (E.node role) .helixSocketFactory = some f ∧
          Joint E M x (.createSocket (.factory f),.created x.1.nextSocket) y) ∧
      ∀ s, s < x.1.nextSocket → ∃ role p, [Role.server,.client][s]? = some role ∧
        (x.1.sockets.socket s).mNode = some (E.node role) ∧
        (x.1.sockets.socket s).mHelix = some p ∧
        x.1.getObject (E.node role) .helixL4Protocol = some p ∧
        (x.1.sockets.socket s).mUdpSocket.isSome := by
  obtain ⟨tr',t,hrun',_,_⟩ := run_thread hrun
  obtain ⟨⟨hunharmed,_⟩,_,hplaced⟩ := run_setUp hrun'
  have hsystem := beside_left hrun'
  have halive := unharmed_alive hsystem hunharmed
  refine ⟨halive,unharmed_ends hsystem hunharmed,?_,fun s hs => ?_⟩
  · intro role callback q ready htasks happ
    obtain ⟨f,p,n,hf,hstep⟩ := socket_makes hrun role ready htasks happ
    exact ⟨f,_,hf,hstep⟩
  · obtain ⟨role,p,hrole,hbelongs⟩ := hplaced s hs
    exact ⟨role,p,hrole,hbelongs.node,hbelongs.helix,(hbelongs.served halive).2,
      ((run_paired hsystem).wrapped s).mpr hs⟩

end Sockets

section Playing

theorem played {c : System (platform P) M} {p : Process P} (es : List StackMachine.Event)
    {tr : List (Wiring × StackMachine.Event)} {w : Wiring} (hc : c.disposed = [])
    (hruns : c.sockets.appRuns = true) (h : play Wiring.next c.wiring es = some (tr,w))
    (hes : ∀ e ∈ es, ∀ c : System (platform P) M, ProcessStep E c p (.stack e,.nothing) p) :
    Run (Joint E M) (c,p)
      (tr.map fun x => (({ c with wiring := x.1 },p),(.stack x.2,.nothing)))
      ({ c with wiring := w },p) := by
  have unnoticed : ∀ e ∈ tr.map fun x => ({ c with wiring := x.1 },(.stack x.2,.nothing)),
      ProcessStep E e.1 p e.2 p := by
    intro e he
    obtain ⟨x,hx,rfl⟩ := List.mem_map.mp he
    have hl : x.2 ∈ labels tr := List.mem_map_of_mem hx
    rw [(StackMachine.play_wires es h).2] at hl
    exact hes x.2 hl _
  have hstill := beside_still (play_runs c es hc hruns h) unnoticed
  rwa [List.map_map] at hstill

end Playing

def twoNodes : Example .unit where
  node
    | .client => 0
    | .server => 1
  distinct := by decide
  clientAddress := ()
  serverAddress := ()
  createPacket _ := ()

theorem main_runs : ∃ tr w, Run (Joint twoNodes arbitrary) (.initial arbitrary,.initial) tr
      ({ System.initial arbitrary with wiring := w },
        ⟨[],[(1,.createServerHelixSocket),(3,.sendPacket)],0⟩) ∧
    w.aborted = none ∧ w.tasks = [] := by
  have wired := played (E := twoNodes) (c := .initial arbitrary) (p := .initial)
    [.create .node,.create .node,.create .udpSocketFactory,.create .udpSocketFactory,
      .aggregate 0 2,.proceed,.proceed,.aggregate 1 3,.proceed,.proceed] rfl rfl rfl
    fun e he c => by
      refine .install e ?_ rfl
      simp only [List.mem_cons,List.not_mem_nil,or_false] at he
      rcases he with rfl | rfl | rfl | rfl | rfl | rfl | rfl | rfl | rfl | rfl <;>
        simp [Foreign]
  have first := beside_then wired (.stack (.create .helixL4Protocol),.nothing)
    (.stack rfl rfl ⟨rfl,.forward,rfl⟩)
    (.createHelix ⟨fun role => by cases role <;> rfl,fun role => by cases role <;> rfl⟩ rfl)
  have both := beside_then first (.stack (.create .helixL4Protocol),.nothing)
    (.stack rfl rfl ⟨rfl,.forward,rfl⟩) (.createHelix2 _ rfl)
  have client := beside_then both (.stack (.addHelix 0 (some 4)),.nothing)
    (.stack rfl rfl ⟨rfl,.forward,rfl⟩) (.addHelix _ _ rfl)
  have notifies : ∀ p : Process .unit, ∀ e ∈ List.replicate 10 StackMachine.Event.proceed,
      ∀ c : System (platform .unit) arbitrary, ProcessStep twoNodes c p (.stack e,.nothing) p := by
    intro p e he c
    obtain rfl := List.eq_of_mem_replicate he
    exact .notify _ trivial
  have joined := run_append client (played (List.replicate 10 .proceed) rfl rfl rfl (notifies _))
  have server := beside_then joined (.stack (.addHelix 1 (some 5)),.nothing)
    (.stack rfl rfl ⟨rfl,.forward,rfl⟩) (.addHelix2 _ rfl)
  have wiredUp := run_append server (played (List.replicate 10 .proceed) rfl rfl rfl (notifies _))
  exact ⟨_,_,wiredUp,rfl,rfl⟩

/-- The server's socket is made. -/
theorem server_socket_obtained : ∃ tr x,
    Run (Joint twoNodes arbitrary) (.initial arbitrary,.initial) tr x ∧ x.1.nextSocket = 1 ∧
    ∃ p, (x.1.sockets.socket 0).mNode = some (twoNodes.node .server) ∧
      (x.1.sockets.socket 0).mHelix = some p := by
  obtain ⟨tr,w,hrun,_,htasks⟩ := main_runs
  obtain ⟨f,p,n,_,hstep⟩ := socket_makes hrun .server
    (.begin (e := .createServerHelixSocket) rfl rfl) htasks rfl
  have made := run_then hrun _ hstep
  obtain ⟨_,_,_,hsockets⟩ := sockets_obtained made
  obtain ⟨role,p,hrole,hnode,hhelix,_⟩ := hsockets 0 Nat.zero_lt_one
  obtain rfl : Role.server = role := Option.some.inj hrole
  exact ⟨_,_,made,rfl,p,hnode,hhelix⟩

end Ns3Helix.ExampleSetUp
