import Ns3Helix.HelixSystem
import Ns3Helix.StackWiring

/-!
# What `CreateSocket` does, and what it leaves to the wiring

`CreateSocket` either stops at a null pointer or adds one socket. It changes
nothing the wiring looks at, so a run of the system is a run of the wiring
with sockets created in between.
-/

set_option autoImplicit false

namespace Ns3Helix.HelixSystem
open Ns3Helix.SocketInterface Ns3Helix.SocketImpl Ns3Helix.SocketMachine
open Ns3Helix.HelixStack (Abort TypeId World target)
open Ns3Helix.StackMachine (Wiring Stage)
open Ns3Helix.StackInvariant Ns3Helix.StackSteps Ns3Helix.StackWiring
open Ns3Helix.TransitionSystem

variable {P : Platform} {M : UdpMachine P ℕ}

namespace System

variable (c : System P M)

def Ready (r : Creator) : Prop :=
  ∃ p n f, c.serves r = some p ∧ (c.helix p).mNode = some n ∧
    c.getObject n .udpSocketFactory = some f

def created (p n : ℕ) : System P M :=
  (c.newSocket.newUdpSocket.setSocket c.nextSocket (((HelixSocketImpl.fresh.setNode
    (some n)).setHelix (some p)).setUdpSocket (some c.nextUdpSocket))).addSocket p c.nextSocket

section
variable (s : ℕ) (d d' : HelixSocketImpl P ℕ)

@[simp] theorem newSocket_helix : c.newSocket.helix = c.helix := rfl
@[simp] theorem setSocket_helix : (c.setSocket s d).helix = c.helix := rfl
@[simp] theorem newSocket_getObject : c.newSocket.getObject = c.getObject := rfl
@[simp] theorem setSocket_getObject : (c.setSocket s d).getObject = c.getObject := rfl
@[simp] theorem newSocket_socket : c.newSocket.sockets.socket c.nextSocket = .fresh := by
  simp [newSocket,setSocket,Config.setSocket]

@[simp] theorem setSocket_socket : (c.setSocket s d).sockets.socket s = d := by
  simp [setSocket,Config.setSocket]

@[simp] theorem setSocket_setSocket : (c.setSocket s d).setSocket s d' = c.setSocket s d' := by
  simp [setSocket,Config.setSocket]

@[simp] theorem setSocket_newUdpSocket :
    (c.setSocket s d).newUdpSocket = c.newUdpSocket.setSocket s d := rfl

end

end System

section CreateSocket

variable (c : System P M)

@[simp] theorem mNode_run (p : ℕ) : (mNode p).run c = pure ((c.helix p).mNode,c) := rfl

@[simp] theorem mHelix_run (f : ℕ) : (mHelix f).run c = pure ((c.factory f).mHelix,c) := rfl

@[simp] theorem getObject_run (o : ℕ) (t : TypeId) :
    (getObject o t).run c = pure (c.getObject o t,c) := rfl

@[simp] theorem dereference_run (o : ℕ) : (dereference (some o)).run c = pure (o,c) := rfl

@[simp] theorem dereference_null_run :
    (dereference none).run c = .error .nullDereference := rfl

@[simp] theorem createHelixSocket_run :
    createHelixSocket.run c = pure (c.nextSocket,c.newSocket) := rfl

@[simp] theorem createUdpSocket_run :
    createUdpSocket.run c = pure (c.nextUdpSocket,c.newUdpSocket) := rfl

@[simp] theorem setNode_run (s : ℕ) (node : Option ℕ) : (setNode s node).run c =
    pure ((),c.setSocket s ((c.sockets.socket s).setNode node)) := rfl

@[simp] theorem setHelix_run (s : ℕ) (helix : Option ℕ) : (setHelix s helix).run c =
    pure ((),c.setSocket s ((c.sockets.socket s).setHelix helix)) := rfl

@[simp] theorem setUdpSocket_run (s : ℕ) (u : Option ℕ) : (setUdpSocket s u).run c =
    pure ((),c.setSocket s ((c.sockets.socket s).setUdpSocket u)) := rfl

@[simp] theorem addSocket_run (p s : ℕ) : (addSocket p s).run c = pure ((),c.addSocket p s) := rfl

theorem helixCreateSocket_runs {p n f : ℕ} (hn : (c.helix p).mNode = some n)
    (hf : c.getObject n .udpSocketFactory = some f) :
    (helixCreateSocket p).run c = .ok (c.nextSocket,c.created p n) := by
  simp [helixCreateSocket,hn,hf,System.created]
  rfl

theorem helixCreateSocket_null {p : ℕ} (hn : (c.helix p).mNode = none) :
    (helixCreateSocket p).run c = .error .nullDereference := by
  simp [helixCreateSocket,hn]
  rfl

theorem helixCreateSocket_noUdp {p n : ℕ} (hn : (c.helix p).mNode = some n)
    (hf : c.getObject n .udpSocketFactory = none) :
    (helixCreateSocket p).run c = .error .nullDereference := by
  simp [helixCreateSocket,hn,hf]

theorem createSocket_serves {r : Creator} {p : ℕ} (h : c.serves r = some p) :
    (createSocket r).run c = (helixCreateSocket p).run c := by
  cases r with
  | helix q =>
    obtain rfl : q = p := Option.some.inj h
    rfl
  | factory f =>
    have hf : (c.factory f).mHelix = some p := h
    simp [createSocket,factoryCreateSocket,hf]

theorem createSocket_unserved {r : Creator} (h : c.serves r = none) :
    (createSocket r).run c = .error .nullDereference := by
  cases r with
  | helix q => cases h
  | factory f =>
    have hf : (c.factory f).mHelix = none := h
    simp [createSocket,factoryCreateSocket,hf]
    rfl

/-- `CreateSocket` adds a socket when every pointer it follows is set, and is
a null dereference otherwise. -/
theorem createSocket_cases (r : Creator) :
    (∃ p n, c.Ready r ∧ c.serves r = some p ∧ (c.helix p).mNode = some n ∧
      (createSocket r).run c = .ok (c.nextSocket,c.created p n)) ∨
    (¬ c.Ready r ∧ (createSocket r).run c = .error .nullDereference) := by
  cases hp : c.serves r with
  | none =>
    refine .inr ⟨?_,createSocket_unserved c hp⟩
    rintro ⟨p,n,f,hserves,_⟩
    cases hp.symm.trans hserves
  | some p =>
    rw [createSocket_serves c hp]
    cases hn : (c.helix p).mNode with
    | none =>
      refine .inr ⟨?_,helixCreateSocket_null c hn⟩
      rintro ⟨p',n,f,hserves,hnode,_⟩
      obtain rfl := Option.some.inj (hp.symm.trans hserves)
      cases hn.symm.trans hnode
    | some n =>
      cases hf : c.getObject n .udpSocketFactory with
      | none =>
        refine .inr ⟨?_,helixCreateSocket_noUdp c hn hf⟩
        rintro ⟨p',n',f,hserves,hnode,hudp⟩
        obtain rfl := Option.some.inj (hp.symm.trans hserves)
        obtain rfl := Option.some.inj (hn.symm.trans hnode)
        cases hf.symm.trans hudp
      | some f =>
        exact .inl ⟨p,n,⟨p,n,f,hp,hn,hf⟩,rfl,hn,helixCreateSocket_runs c hn hf⟩

theorem createSocket_ok {r : Creator} {s : ℕ} {c' : System P M}
    (h : (createSocket r).run c = .ok (s,c')) : c.Ready r ∧ ∃ p n, c.serves r = some p ∧
      (c.helix p).mNode = some n ∧ s = c.nextSocket ∧ c' = c.created p n := by
  rcases createSocket_cases c r with ⟨p,n,hready,hp,hn,hrun⟩ | ⟨_,hrun⟩
  · obtain ⟨rfl,rfl⟩ := by simpa [hrun] using h
    exact ⟨hready,p,n,hp,hn,rfl,rfl⟩
  · cases hrun.symm.trans h

theorem createSocket_error {r : Creator} {e : Abort}
    (h : (createSocket r).run c = .error e) : ¬ c.Ready r ∧ e = .nullDereference := by
  rcases createSocket_cases c r with ⟨p,n,_,_,_,hrun⟩ | ⟨hready,hrun⟩
  · cases hrun.symm.trans h
  · exact ⟨hready,Except.error.inj (h.symm.trans hrun)⟩

end CreateSocket

def wiringTrace (tr : List (System P M × SystemLabel P)) :
    List (Wiring × StackMachine.Event) :=
  tr.filterMap fun e => match e.2.1 with
    | .stack x => some (e.1.wiring,x)
    | _ => none

section Wiring

def withSocket (w : World) (p s : ℕ) : World := w.setHelixFields p ((w.helix p).addSocket s)

section
variable (w : World) (p s : ℕ)

@[simp] theorem withSocket_factory : (withSocket w p s).factory = w.factory := rfl

@[simp] theorem withSocket_wires : (withSocket w p s).wires = w.wires := rfl

theorem withSocket_retargets (t : TypeId) : Retargets w (withSocket w p s) p t none where
  objects := rfl
  factory := rfl
  mNode o := by
    by_cases ho : o = p
    · subst ho
      simp [withSocket,World.setHelixFields,HelixStack.HelixL4Protocol.addSocket]
    · simp [withSocket,World.setHelixFields,ho]
  target o t' := by
    have htarget : target (withSocket w p s) o t' = target w o t' := by
      by_cases ho : o = p
      · subst ho
        cases t' <;> simp [target,withSocket,World.setHelixFields,
          HelixStack.HelixL4Protocol.addSocket]
      · cases t' <;> simp [target,withSocket,World.setHelixFields,ho]
    rw [htarget]
    split <;> simp

end

variable {tr : List (Wiring × StackMachine.Event)} {x : Wiring} {ss : List Stage} {p s : ℕ}

theorem recorded_withSocket {w : World} (h : Recorded w) : Recorded (withSocket w p s) where
  once := h.once
  exact y := by
    have hre := withSocket_retargets w p s .node
    have htarget : ∀ o t, target (withSocket w p s) o t = target w o t := by
      intro o t
      rw [hre.target]
      split <;> simp
    rw [withSocket_wires,h.exact]
    cases y <;> simp [Holds,hre.mNode,htarget]

theorem sound_withSocket (h : Sound tr x ss) (hp : x.world.objects.typeOf p =
    some .helixL4Protocol) : Sound tr { x with world := withSocket x.world p s } ss where
  between := {
    alive := h.between.alive
    tasks := h.between.tasks
    wired := wired_retarget h.between.wired (withSocket_retargets x.world p s .ipv4) hp
      fun v hv => by cases hv
    recorded := recorded_withSocket h.between.recorded }
  origin := {
    set o n ho := by
      rw [(withSocket_retargets x.world p s .ipv4).mNode] at ho
      exact h.origin.set o n ho
    helped o ho := by
      rw [(withSocket_retargets x.world p s .ipv4).mNode]
      exact h.origin.helped o ho
    helping := h.origin.helping }
  homes := h.homes.imp id fun ⟨hs,g,hg⟩ => ⟨hs,g,hg.type,hg.pending,hg.alone⟩

end Wiring

section Registries

def SameRegistries (w w' : World) : Prop :=
  ∀ p, (w'.helix p).mSockets = (w.helix p).mSockets ∧
    (w'.helix p).mSocketIndex = (w.helix p).mSocketIndex

theorem registries_refl (w : World) : SameRegistries w w := fun _ => ⟨rfl,rfl⟩

theorem registries_trans {w w' w'' : World} (h : SameRegistries w w')
    (h' : SameRegistries w' w'') : SameRegistries w w'' := fun p =>
  ⟨(h' p).1.trans (h p).1,(h' p).2.trans (h p).2⟩

theorem setHelixFields_registries (w : World) {o : ℕ} {d : HelixStack.HelixL4Protocol}
    (hm : d.mSockets = (w.helix o).mSockets) (hi : d.mSocketIndex = (w.helix o).mSocketIndex) :
    SameRegistries w (w.setHelixFields o d) := by
  intro p
  by_cases hp : p = o
  · subst hp
    simpa [World.setHelixFields] using ⟨hm,hi⟩
  · simp [World.setHelixFields,hp]

theorem operations_registries {o : HelixStack.WorldOp} {w w' : World}
    {r : HelixStack.worldSignature.Answer o} (h : HelixStack.operations o w = .ok (r,w')) :
    SameRegistries w w' := by
  cases o with
  | dereference p =>
    cases p with
    | none => cases h
    | some o =>
      cases h
      exact registries_refl w
  | setNode | setDownTarget | setDownTarget6 =>
    cases h
    exact setHelixFields_registries w rfl rfl
  | getObject | createObject | mNode | mDownTarget | mDownTarget6 | setHelix | insert | insert6 =>
    cases h
    exact registries_refl w

theorem advance_registries {α : Type} (p : HelixStack.StackM α) {w w' : World}
    (h : (InteractionProgram.advance HelixStack.operations p w).state = some w') :
    SameRegistries w w' :=
  InteractionProgram.advance_keeps _ (SameRegistries w)
    (fun _ _ _ _ ho hw => registries_trans hw (operations_registries ho)) p h (registries_refl w)

theorem aggregate_registries (order : StackMachine.Order) (x : Wiring) (a b : ℕ)
    (rest : List StackMachine.Task) :
    SameRegistries x.world (x.aggregate order a b rest).world := by
  unfold Wiring.aggregate
  split
  next w hw =>
    unfold World.aggregate at hw
    split at hw
    · cases hw
      exact registries_refl _
    · cases hw
  next => exact registries_refl _

theorem land_registries (order : StackMachine.Order) (x : Wiring) (rest : List StackMachine.Task)
    (p : HelixStack.StackM Unit) : SameRegistries x.world
      (x.land order rest (InteractionProgram.advance HelixStack.operations p x.world)).world := by
  have hp : ∀ w, (InteractionProgram.advance HelixStack.operations p x.world).state = some w →
      SameRegistries x.world w := fun w => advance_registries p
  cases hout : InteractionProgram.advance HelixStack.operations p x.world with
  | done w a => exact hp w (by rw [hout]; rfl)
  | suspended w o k =>
    exact registries_trans (hp w (by rw [hout]; rfl)) (aggregate_registries order _ _ _ _)
  | fault e => exact registries_refl _

theorem wiring_registries {x x' : Wiring} {e : StackMachine.Event}
    (h : StackMachine.Step x e x') : SameRegistries x.world x'.world := by
  obtain ⟨_,order,hexec⟩ := h
  cases StackMachine.exec_executes hexec with
  | create | addHelix | allow | skip => exact registries_refl _
  | aggregate a b _ _ => exact aggregate_registries order x a b []
  | publish t o rest _ _ _ _ _ =>
    exact aggregate_registries order { x with
      world := x.world.create t
      budget := x.budget-1 } o x.world.objects.next x.tasks
  | notify o rest _ _ => exact land_registries order x rest _
  | resume p rest _ => exact land_registries order x rest p

end Registries

section Disposal

variable (w : World)

theorem doDispose_objects (o : ℕ) : (w.doDispose o).objects = w.objects := by
  unfold World.doDispose
  split <;> rfl

theorem doDispose_helix (o p : ℕ) : (w.doDispose o).helix p =
    if p = o ∧ w.objects.typeOf p = some .helixL4Protocol then (w.helix p).doDispose
    else w.helix p := by
  unfold World.doDispose
  by_cases hp : p = o
  · subst hp
    split <;> simp_all [World.setHelixFields]
  · split <;> simp [World.setHelixFields,hp]

theorem doDispose_factory (o f : ℕ) : (w.doDispose o).factory f =
    if f = o ∧ w.objects.typeOf f = some .helixSocketFactory then (w.factory f).doDispose
    else w.factory f := by
  unfold World.doDispose
  by_cases hf : f = o
  · subst hf
    split <;> simp_all [World.setHelixFields]
  · split <;> simp [World.setHelixFields,hf]

theorem foldl_doDispose (l : List ℕ) : (l.foldl World.doDispose w).objects = w.objects ∧
    (∀ p, (l.foldl World.doDispose w).helix p =
      if p ∈ l ∧ w.objects.typeOf p = some .helixL4Protocol then (w.helix p).doDispose
      else w.helix p) ∧
    ∀ f, (l.foldl World.doDispose w).factory f =
      if f ∈ l ∧ w.objects.typeOf f = some .helixSocketFactory then (w.factory f).doDispose
      else w.factory f := by
  induction l generalizing w with
  | nil => simp
  | cons o l ih =>
    obtain ⟨hobjects,hhelix,hfactory⟩ := ih (w.doDispose o)
    rw [doDispose_objects] at hobjects hhelix hfactory
    refine ⟨hobjects,fun p => ?_,fun f => ?_⟩
    · have twice : (w.helix p).doDispose.doDispose = (w.helix p).doDispose := rfl
      rw [List.foldl_cons,hhelix,doDispose_helix]
      by_cases hp : p = o
      · subst hp
        by_cases hl : p ∈ l <;> by_cases ht : w.objects.typeOf p = some .helixL4Protocol <;>
          simp [hl,ht,twice]
      · simp [hp]
    · have twice : (w.factory f).doDispose.doDispose = (w.factory f).doDispose := rfl
      rw [List.foldl_cons,hfactory,doDispose_factory]
      by_cases hf : f = o
      · subst hf
        by_cases hl : f ∈ l <;> by_cases ht : w.objects.typeOf f = some .helixSocketFactory <;>
          simp [hl,ht,twice]
      · simp [hf]

theorem dispose_objects (o : ℕ) : (w.dispose o).objects = w.objects :=
  (foldl_doDispose w (w.objects.members o)).1

theorem dispose_helix (o p : ℕ) : (w.dispose o).helix p =
    if p ∈ w.objects.members o ∧ w.objects.typeOf p = some .helixL4Protocol then
      (w.helix p).doDispose
    else w.helix p := (foldl_doDispose w (w.objects.members o)).2.1 p

theorem dispose_factory (o f : ℕ) : (w.dispose o).factory f =
    if f ∈ w.objects.members o ∧ w.objects.typeOf f = some .helixSocketFactory then
      (w.factory f).doDispose
    else w.factory f := (foldl_doDispose w (w.objects.members o)).2.2 f

end Disposal

section Runs

variable {tr : List (System P M × SystemLabel P)} {c c' : System P M} {l : SystemLabel P}

def AllReady (tr : List (System P M × SystemLabel P)) : Prop :=
  ∀ e ∈ tr, ∀ r, e.2.1 = .createSocket r → e.1.Ready r

theorem wiringTrace_stack {e : StackMachine.Event} {o : SystemResult P} :
    wiringTrace (tr++[(c,(.stack e,o))]) = wiringTrace tr ++ [(c.wiring,e)] := by
  simp [wiringTrace]

theorem wiringTrace_other (h : ∀ e, l.1 ≠ .stack e) :
    wiringTrace (tr++[(c,l)]) = wiringTrace tr := by
  obtain ⟨e,o⟩ := l
  cases e with
  | stack e => exact absurd rfl (h e)
  | socket | createSocket | createUdpSocket | drop | dispose => simp [wiringTrace]

theorem allReady_snoc : AllReady (tr++[(c,l)]) ↔
    AllReady tr ∧ ∀ r, l.1 = .createSocket r → c.Ready r := by
  simp [AllReady,or_imp,forall_and]

/-- A run follows the course of its wiring until `CreateSocket` finds a null
pointer. -/
inductive Status (tr : List (System P M × SystemLabel P)) (c : System P M) : Prop
  | wiring (course : Course (wiringTrace tr) c.wiring) (ready : AllReady tr)
  | unready (reason : c.wiring.aborted = some .nullDereference) (cause : ¬ AllReady tr)

theorem step_undisposed (h : Step c l c') : c.disposed = [] := by
  cases h with
  | stack undisposed _ _ => exact undisposed
  | socket idle _ _ => exact idle.undisposed
  | created idle _ _ _ => exact idle.undisposed
  | aborted idle _ _ _ => exact idle.undisposed
  | createUdpSocket idle _ _ => exact idle.undisposed
  | drop idle _ _ => exact idle.undisposed
  | dispose idle _ => exact idle.undisposed

theorem step_unaborted (h : Step c l c') : c.wiring.aborted = none := by
  cases h with
  | stack _ _ h => exact h.1
  | socket idle _ _ => exact idle.alive
  | created idle _ _ _ => exact idle.alive
  | aborted idle _ _ _ => exact idle.alive
  | createUdpSocket idle _ _ => exact idle.alive
  | drop idle _ _ => exact idle.alive
  | dispose idle _ => exact idle.alive

theorem serves_type {ts : List (Wiring × StackMachine.Event)} {ss : List Stage} {r : Creator}
    {p : ℕ} (hs : Sound ts c.wiring ss) (hr : c.Provides r) (hp : c.serves r = some p) :
    c.typeOf p = some .helixL4Protocol := by
  cases r with
  | helix q =>
    obtain rfl : q = p := Option.some.inj hp
    exact hr
  | factory f =>
    obtain ⟨q,_,hq,hfq,_⟩ := hs.between.wired.owner f hr
    obtain rfl : p = q := Option.some.inj (hp.symm.trans hfq)
    exact hq

/-- Between two events of a run that goes on, the wiring is sound. -/
theorem idle_sound (h : Status tr c) (hidle : c.Idle) :
    Sound (wiringTrace tr) c.wiring [] ∧ AllReady tr := by
  obtain ⟨course,ready⟩ | ⟨reason,_⟩ := h
  · obtain ⟨ss,sound⟩ | ⟨_,reason⟩ | ⟨_,_,state⟩ := course
    · obtain rfl := idle_stages sound.between hidle.tasks
      exact ⟨sound,ready⟩
    · cases reason.symm.trans hidle.alive
    · obtain ⟨n,helix,_,tasks,_⟩ | ⟨reason⟩ := state
      · cases tasks.symm.trans hidle.tasks
      · cases reason.symm.trans hidle.alive
  · cases reason.symm.trans hidle.alive

theorem step_status (h : Status tr c) (hstep : Step c l c') (hc' : c'.disposed = []) :
    Status (tr++[(c,l)]) c' := by
  obtain ⟨course,ready⟩ | ⟨reason,_⟩ := h
  · have other : (∀ e, l.1 ≠ .stack e) → (∀ r, l.1 ≠ .createSocket r) → c'.wiring = c.wiring →
        Status (tr++[(c,l)]) c' := by
      intro hstack hcreate hwiring
      refine .wiring ?_ (allReady_snoc.mpr ⟨ready,fun r hr => absurd hr (hcreate r)⟩)
      rwa [wiringTrace_other hstack,hwiring]
    cases hstep with
    | stack _ _ h =>
      have hcourse := step_course course h
      exact .wiring (wiringTrace_stack ▸ hcourse) (by simpa [allReady_snoc] using ready)
    | socket _ _ _ => exact other (by simp) (by simp) rfl
    | created idle _ provides h =>
      obtain ⟨hr,p,n,hp,_,rfl,rfl⟩ := createSocket_ok c h
      have sound := (idle_sound (.wiring course ready) idle).1
      refine .wiring ?_ (by simpa [allReady_snoc] using ⟨ready,hr⟩)
      rw [wiringTrace_other (by simp)]
      exact .sound [] (sound_withSocket sound (serves_type sound provides hp))
    | @aborted r e _ _ _ h =>
      obtain ⟨hr,rfl⟩ := createSocket_error c h
      exact .unready rfl fun hall => hr ((allReady_snoc.mp hall).2 r rfl)
    | createUdpSocket _ _ _ => exact other (by simp) (by simp) rfl
    | drop _ _ _ => exact other (by simp) (by simp) rfl
    | @dispose o _ _ =>
      have hmem := c.wiring.world.objects.self_mem o
      cases List.ne_nil_of_mem hmem hc'
  · cases reason.symm.trans (step_unaborted hstep)

theorem initial_status : Status ([] : List (System P M × SystemLabel P)) (.initial M) :=
  .wiring (.sound [] initial_sound) (by simp [AllReady])

theorem run_status (hrun : Run Step (.initial M) tr c) (hc : c.disposed = []) :
    Status tr c := by
  induction hrun with
  | nil => exact initial_status
  | snoc run last ih => exact step_status (ih (step_undisposed last)) last hc

theorem wiring_runs {w w' : Wiring} {tr : List (Wiring × StackMachine.Event)} {c : System P M}
    (hw : c.wiring = w) (hc : c.disposed = []) (hruns : c.sockets.appRuns = true)
    (h : Run StackMachine.Step w tr w') :
    Run Step c (tr.map fun x => ({ c with wiring := x.1 },(.stack x.2,.nothing)))
      { c with wiring := w' } := by
  subst hw
  induction h with
  | nil => exact .nil
  | snoc run last ih =>
    rw [List.map_append]
    exact .snoc ih (.stack hc hruns last)

theorem play_runs (c : System P M) (es : List StackMachine.Event) (hc : c.disposed = [])
    (hruns : c.sockets.appRuns = true) {tr : List (Wiring × StackMachine.Event)} {w : Wiring}
    (h : play Wiring.next c.wiring es = some (tr,w)) :
    Run Step c (tr.map fun x => ({ c with wiring := x.1 },(.stack x.2,.nothing)))
      { c with wiring := w } :=
  wiring_runs rfl hc hruns (StackMachine.play_wires es h).1

end Runs

end Ns3Helix.HelixSystem
