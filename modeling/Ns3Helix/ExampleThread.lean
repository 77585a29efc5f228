import Ns3Helix.HelixExample

/-!
# The thread below the callbacks

Of the functions in progress at most one was run by the simulator. It lies
below all others, and these are invocations of `handleRead`, which only reads.
What the example does is what that one function does, in the order in which
the simulator runs it, with reading in between.
-/

set_option autoImplicit false

namespace Ns3Helix.ExampleThread
open Ns3Helix.SocketInterface Ns3Helix.SocketImpl Ns3Helix.SocketMachine
open Ns3Helix.HelixSystem Ns3Helix.HelixExample Ns3Helix.TransitionSystem
open Ns3Helix.HelixStack (Abort)

variable {P : Platform} {M : UdpMachine (platform P) ℕ}

/-- Where the function is that the simulator runs. -/
structure Thread (P : Platform) where
  phase : Option (Phase P)
  scheduled : List (ℕ × SimulatorEvent)
  now : ℕ

namespace Thread

def initial : Thread P := ⟨some (.calling .createHelix),[],0⟩

variable (t : Thread P)

def schedule (delay : ℕ) (e : SimulatorEvent) : Thread P :=
  { t with scheduled := t.scheduled.orderedInsert (fun a b => a.1 < b.1) (t.now+delay,e) }

def proceed (l : Option (Point P)) : Thread P := { t with phase := l.map .calling }

def returned (E : Example P) (l : Call P) (v : (l.op E).ty.denote (platform P)) : Thread P :=
  ((l.schedules).elim t (t.schedule 10)).proceed (l.resume E v)

end Thread

inductive Due (t : Thread P) : Point P → Thread P → Prop
  | calling {l : Point P} (h : t.phase = some (.calling l)) : Due t l { t with phase := none }
  | begin {time : ℕ} {e : SimulatorEvent} {later : List (ℕ × SimulatorEvent)}
      (idle : t.phase = none) (due : t.scheduled = (time,e) :: later) :
      Due t e.start { t with scheduled := later, now := time }

theorem due_inv {t t' : Thread P} {l : Point P} (h : Due t l t') :
    (t.phase = some (.calling l) ∧ t' = { t with phase := none }) ∨
      ∃ time e later, t.phase = none ∧ t.scheduled = (time,e) :: later ∧ l = e.start ∧
        t' = { t with scheduled := later, now := time } := by
  cases h with
  | calling ht => exact .inl ⟨ht,rfl⟩
  | begin idle due => exact .inr ⟨_,_,_,idle,due,rfl,rfl⟩

inductive Aside : SystemLabel (platform P) → Prop
  | notify (e : StackMachine.Event) (h : Notifies e) : Aside (.stack e,.nothing)
  | recvFrom (s : SocketRef ℕ ℕ) (maxSize flags : UInt32) (fromAddress : P.Address)
      (seen : Seen (platform P) ℕ ℕ) :
      Aside (.socket (.call s (.recvFrom maxSize flags fromAddress)),.socket seen)
  | callbackReturn (seen : Seen (platform P) ℕ ℕ) : Aside (.socket .callbackReturn,.socket seen)
  | udp (move : UdpMove (platform P) ℕ) (seen : Seen (platform P) ℕ ℕ) :
      Aside (.socket (.udp move),.socket seen)

inductive ThreadStep (E : Example P) (c : System (platform P) M) :
    Thread P → SystemLabel (platform P) → Thread P → Prop
  | aside {t : Thread P} {l : SystemLabel (platform P)} (h : Aside l) : ThreadStep E c t l t
  | install {t : Thread P} (e : StackMachine.Event) (foreign : Foreign e)
      (ht : t.phase = some (.calling .createHelix)) : ThreadStep E c t (.stack e,.nothing) t
  | createHelix {t : Thread P} (installed : Installed E c.wiring.world)
      (ht : t.phase = some (.calling .createHelix)) :
      ThreadStep E c t (.stack (.create .helixL4Protocol),.nothing)
        (t.proceed (some (.createHelix2 c.wiring.world.objects.next)))
  | createHelix2 {t : Thread P} (helix : ℕ)
      (ht : t.phase = some (.calling (.createHelix2 helix))) :
      ThreadStep E c t (.stack (.create .helixL4Protocol),.nothing)
        (t.proceed (some (.addHelix helix c.wiring.world.objects.next)))
  | addHelix {t : Thread P} (helix helix2 : ℕ)
      (ht : t.phase = some (.calling (.addHelix helix helix2))) :
      ThreadStep E c t (.stack (.addHelix (E.node .client) (some helix)),.nothing)
        (t.proceed (some (.addHelix2 helix2)))
  | addHelix2 {t : Thread P} (helix2 : ℕ)
      (ht : t.phase = some (.calling (.addHelix2 helix2))) :
      ThreadStep E c t (.stack (.addHelix (E.node .server) (some helix2)),.nothing)
        (((t.proceed none).schedule 1 .createServerHelixSocket).schedule 3 .sendPacket)
  | createSocket {t t' : Thread P} (role : Role) (due : Due t (.createSocket role) t')
      (factory : ℕ)
      (found : c.getObject (E.node role) .helixSocketFactory = some factory) (socket : ℕ) :
      ThreadStep E c t (.createSocket (.factory factory),.created socket)
        (t'.proceed (some (.call (.bind role socket))))
  | refused {t t' : Thread P} (role : Role) (due : Due t (.createSocket role) t') (factory : ℕ)
      (found : c.getObject (E.node role) .helixSocketFactory = some factory) (e : Abort) :
      ThreadStep E c t (.createSocket (.factory factory),.aborted e) t
  | call {t t' : Thread P} (l : Call P) (due : Due t (.call l) t')
      (seen : Seen (platform P) ℕ ℕ) :
      ThreadStep E c t (.socket (.call l.socket (l.op E)),.socket seen)
        { t' with phase := some (.waiting l) }
  | returned {t : Thread P} (l : Call P) (ht : t.phase = some (.waiting l))
      (v : (l.op E).ty.denote (platform P)) :
      ThreadStep E c t (.socket (.udp (.return ⟨_,v⟩)),.socket (.returned l.socket ⟨_,v⟩))
        (t.returned E l v)
  | release {t t' : Thread P} (socket : ℕ) (due : Due t (.release socket) t') :
      ThreadStep E c t (.drop socket,.nothing) (t'.proceed none)

inductive Handles : Function P → Prop
  | calling (cb : Callback) (socket : SocketRef ℕ ℕ) (fromAddress : P.Address) :
      Handles ⟨some cb,.calling (.call (.recvFrom socket fromAddress))⟩
  | waiting (cb : Callback) (socket : SocketRef ℕ ℕ) (fromAddress : P.Address) :
      Handles ⟨some cb,.waiting (.recvFrom socket fromAddress)⟩
  | returning (cb : Callback) : Handles ⟨some cb,.returning⟩

def Thread.functions (t : Thread P) : List (Function P) :=
  (t.phase.map (FunctionStack.Function.mk none)).toList

structure Runs (p : Process P) (t : Thread P) : Prop where
  functions : ∃ above, (∀ f ∈ above, Handles f) ∧ p.functions = above ++ t.functions
  scheduled : p.scheduled = t.scheduled
  now : p.now = t.now

variable {E : Example P} {p q : Process P} {t t' : Thread P} {c : System (platform P) M}

theorem runs_initial : Runs (.initial : Process P) .initial :=
  ⟨⟨[],by simp,rfl⟩,rfl,rfl⟩

theorem runs_top (h : Runs p t) {ph : Phase P} {rest : List (Function P)}
    (hp : p.functions = ⟨none,ph⟩ :: rest) : t.phase = some ph ∧ rest = [] := by
  obtain ⟨above,handles,hfunctions⟩ := h.functions
  cases above with
  | nil =>
    have ht := hfunctions.symm.trans hp
    rw [Thread.functions,List.nil_append] at ht
    cases hphase : t.phase with
    | none => simp [hphase] at ht
    | some ph' =>
      obtain ⟨rfl,rfl⟩ : ph' = ph ∧ rest = [] := by simpa [hphase] using ht
      exact ⟨rfl,rfl⟩
  | cons f above =>
    obtain ⟨rfl,_⟩ := List.cons.inj (hfunctions.symm.trans hp)
    cases handles _ List.mem_cons_self

theorem runs_above (h : Runs p t) {cb : Callback} {ph : Phase P} {rest : List (Function P)}
    (hp : p.functions = ⟨some cb,ph⟩ :: rest) :
    Handles ⟨some cb,ph⟩ ∧ Runs { p with functions := rest } t := by
  obtain ⟨above,handles,hfunctions⟩ := h.functions
  cases above with
  | nil =>
    have ht := hfunctions.symm.trans hp
    rw [Thread.functions,List.nil_append] at ht
    cases hphase : t.phase <;> simp [hphase] at ht
  | cons f above =>
    obtain ⟨rfl,rfl⟩ := List.cons.inj (hfunctions.symm.trans hp)
    exact ⟨handles _ List.mem_cons_self,
      ⟨above,fun g hg => handles g (List.mem_cons_of_mem _ hg),rfl⟩,h.scheduled,h.now⟩

theorem runs_push (h : Runs p t) {f : Function P} (hf : Handles f) :
    Runs { p with functions := f :: p.functions } t := by
  obtain ⟨above,handles,hfunctions⟩ := h.functions
  refine ⟨⟨f :: above,fun g hg => ?_,by rw [hfunctions]; rfl⟩,h.scheduled,h.now⟩
  rcases List.mem_cons.mp hg with rfl | hg
  · exact hf
  · exact handles g hg

theorem runs_alone (ph : Option (Phase P)) (hs : p.scheduled = t.scheduled) (hn : p.now = t.now) :
    Runs { p with functions := (ph.map (FunctionStack.Function.mk none)).toList }
      { t with phase := ph } :=
  ⟨⟨[],by simp,rfl⟩,hs,hn⟩

theorem runs_proceed (l : Option (Point P)) (hs : p.scheduled = t.scheduled) (hn : p.now = t.now) :
    Runs (p.proceed none [] l) (t.proceed l) := by
  cases l with
  | some l => exact ⟨⟨[],by simp,rfl⟩,hs,hn⟩
  | none => exact ⟨⟨[],by simp,rfl⟩,hs,hn⟩

theorem runs_schedule (h : Runs p t) (delay : ℕ) (e : SimulatorEvent) :
    Runs (p.schedule delay e) (t.schedule delay e) := by
  refine ⟨h.functions,?_,h.now⟩
  rw [Process.schedule,Thread.schedule,h.scheduled,h.now]

/-- What is ready is due in the thread, or `handleRead` goes on reading. -/
theorem ready_due (h : Runs p t) {l : Point P} {callback : Option Callback}
    (hr : Ready p l callback q) :
    (∃ t', Due t l t' ∧ callback = none ∧ q.functions = [] ∧ Runs q t' ∧ t'.phase = none) ∨
      ∃ cb socket fromAddress, callback = some cb ∧ l = .call (.recvFrom socket fromAddress) ∧
        Runs q t := by
  cases hr with
  | @calling callback l rest hp =>
    cases callback with
    | none =>
      obtain ⟨ht,rfl⟩ := runs_top h hp
      exact .inl ⟨_,.calling ht,rfl,rfl,⟨⟨[],by simp,rfl⟩,h.scheduled,h.now⟩,rfl⟩
    | some cb =>
      obtain ⟨handles,hruns⟩ := runs_above h hp
      cases handles with
      | calling cb socket fromAddress => exact .inr ⟨cb,socket,fromAddress,rfl,rfl,hruns⟩
  | @begin time e later idle due =>
    obtain ⟨above,_,hfunctions⟩ := h.functions
    obtain ⟨rfl,hnone⟩ := List.append_eq_nil_iff.mp (hfunctions.symm.trans idle)
    have ht : t.phase = none := by
      rw [Thread.functions] at hnone
      cases hphase : t.phase with
      | none => rfl
      | some ph => simp [hphase] at hnone
    refine .inl ⟨_,.begin ht (h.scheduled ▸ due),rfl,idle,⟨⟨[],by simp,?_⟩,rfl,rfl⟩,ht⟩
    simpa [Thread.functions,ht] using idle

/-- The process does what its thread does. -/
theorem step_thread {l : SystemLabel (platform P)} (h : Runs p t) (hstep : ProcessStep E c p l q) :
    ∃ t', Runs q t' ∧ ThreadStep E c t l t' := by
  cases hstep with
  | install e foreign hp => exact ⟨t,h,.install e foreign (runs_top h hp).1⟩
  | createHelix installed hp =>
    exact ⟨_,runs_alone (some _) h.scheduled h.now,.createHelix installed (runs_top h hp).1⟩
  | createHelix2 helix hp =>
    exact ⟨_,runs_alone (some _) h.scheduled h.now,.createHelix2 helix (runs_top h hp).1⟩
  | addHelix helix helix2 hp =>
    exact ⟨_,runs_alone (some _) h.scheduled h.now,.addHelix helix helix2 (runs_top h hp).1⟩
  | addHelix2 helix2 hp =>
    have hdone := runs_alone (p := p) (t := t) none h.scheduled h.now
    exact ⟨_,runs_schedule (runs_schedule hdone 1 _) 3 _,.addHelix2 helix2 (runs_top h hp).1⟩
  | notify e notifies => exact ⟨t,h,.aside (.notify e notifies)⟩
  | createSocket role callback ready factory found socket =>
    rcases ready_due h ready with ⟨t',due,rfl,hq,hruns,_⟩ | ⟨_,_,_,_,hl,_⟩
    · rw [hq]
      exact ⟨_,runs_proceed _ hruns.scheduled hruns.now,
        .createSocket role due factory found socket⟩
    · cases hl
  | refused role callback ready factory found e =>
    rcases ready_due h ready with ⟨t',due,_⟩ | ⟨_,_,_,_,hl,_⟩
    · exact ⟨t,h,.refused role due factory found e⟩
    · cases hl
  | @call q l callback ready seen _ =>
    rcases ready_due h ready with ⟨t',due,rfl,hq,hruns,_⟩ | ⟨cb,socket,fromAddress,rfl,hl,hruns⟩
    · rw [hq]
      exact ⟨_,runs_alone (some (.waiting l)) hruns.scheduled hruns.now,.call l due seen⟩
    · cases hl
      exact ⟨t,runs_push hruns (.waiting cb socket fromAddress),.aside (.recvFrom ..)⟩
  | returned callback l rest hp v =>
    cases callback with
    | none =>
      obtain ⟨ht,rfl⟩ := runs_top h hp
      refine ⟨_,?_,.returned l ht v⟩
      rw [Process.returned,Thread.returned]
      cases hs : l.schedules with
      | none => exact runs_proceed _ h.scheduled h.now
      | some e =>
        have hruns := runs_schedule h 10 e
        exact runs_proceed _ hruns.scheduled hruns.now
    | some cb =>
      obtain ⟨handles,hruns⟩ := runs_above h hp
      refine ⟨t,?_,.aside (.udp ..)⟩
      cases handles with
      | waiting cb socket fromAddress =>
        obtain ⟨packet,fromAddress'⟩ : Option P.Packet × P.Address := v
        cases packet with
        | some packet => exact runs_push hruns (.calling cb socket fromAddress')
        | none => exact runs_push hruns (.returning cb)
  | invoked u e socket => exact ⟨t,runs_push h (.calling _ socket P.noAddress),.aside (.udp ..)⟩
  | callbackReturn cb rest hp => exact ⟨t,(runs_above h hp).2,.aside (.callbackReturn _)⟩
  | udp move seen hseen => exact ⟨t,h,.aside (.udp ..)⟩
  | release socket callback ready =>
    rcases ready_due h ready with ⟨t',due,rfl,hq,hruns,_⟩ | ⟨_,_,_,_,hl,_⟩
    · rw [hq]
      exact ⟨_,runs_proceed none hruns.scheduled hruns.now,.release socket due⟩
    · cases hl

abbrev Threaded (E : Example P) (M : UdpMachine (platform P) ℕ) :
    System (platform P) M × Thread P → SystemLabel (platform P) →
      System (platform P) M × Thread P → Prop :=
  Beside Step (ThreadStep E)

variable {tr : List ((System (platform P) M × Process P) × SystemLabel (platform P))}
  {x : System (platform P) M × Process P}

theorem run_thread (hrun : Run (Joint E M) (.initial M,.initial) tr x) :
    ∃ tr' t, Run (Threaded E M) (.initial M,.initial) tr' (x.1,t) ∧ onLeft tr' = onLeft tr ∧
      Runs x.2 t := by
  refine beside_run (R := Runs) (y := x) ?_ runs_initial hrun
  intro s p l q t
  exact step_thread

end Ns3Helix.ExampleThread
