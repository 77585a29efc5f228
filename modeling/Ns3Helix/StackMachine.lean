import Ns3Helix.HelixStack
import Ns3Helix.TransitionSystem

/-!
# Aggregation with nested notifications

`AggregateObject` merges two aggregates and then notifies every member, in an
order nothing is assumed about. A notification may aggregate again, so the
notifications and the calls they interrupt form a stack of tasks. Objects of
other classes may aggregate new objects of their own while they are notified.
-/

set_option autoImplicit false

namespace Ns3Helix.StackMachine
open Ns3Helix.InteractionProgram Ns3Helix.ObjectAggregation Ns3Helix.HelixStack

structure Order where
  arrange : List ℕ → List ℕ
  perm : ∀ l, (arrange l).Perm l

def Order.forward : Order := ⟨id,fun _ => .rfl⟩

inductive Task
  | notify (o : ℕ)
  | resume (p : StackM Unit)

/-- `budget` is the number of objects that objects of other classes may still
aggregate while they are notified. -/
structure Wiring where
  world : World
  tasks : List Task
  aborted : Option Abort
  budget : ℕ

inductive Event
  | create (t : TypeId)
  | aggregate (a b : ℕ)
  | addHelix (node : ℕ) (helix : Option ℕ)
  | allow (budget : ℕ)
  | publish (t : TypeId)
  | proceed
  deriving DecidableEq, Repr

def Published (t : TypeId) : Bool :=
  t ≠ .node && t ≠ .helixL4Protocol && t ≠ .helixSocketFactory

def Callable (w : World) (node : ℕ) (helix : Option ℕ) : Prop :=
  w.objects.typeOf node = some .node ∧ ∀ h ∈ helix, w.objects.typeOf h = some .helixL4Protocol

instance (w : World) (node : ℕ) (helix : Option ℕ) : Decidable (Callable w node helix) :=
  inferInstanceAs (Decidable (_ ∧ _))

/-- Helix is set up once: the node has no Helix protocol yet, and the protocol
that is passed is new. -/
def Accepts (w : World) (node : ℕ) (helix : Option ℕ) : Prop :=
  w.objects.typeOf node = some .node ∧ w.objects.getObject node .helixL4Protocol = none ∧
    ∀ h ∈ helix, w.objects.typeOf h = some .helixL4Protocol ∧ ∀ p ∈ w.objects.members h, p = h

instance (w : World) (node : ℕ) (helix : Option ℕ) : Decidable (Accepts w node helix) :=
  inferInstanceAs (Decidable (_ ∧ _ ∧ _))

namespace Wiring

def initial : Wiring := ⟨.initial,[],none,0⟩

variable (order : Order) (c : Wiring)

def aggregate (a b : ℕ) (rest : List Task) : Wiring :=
  match c.world.aggregate a b with
  | .ok w => { c with
      world := w
      tasks := (order.arrange (c.world.objects.joined a b)).map .notify ++ rest }
  | .error e => { c with aborted := some e }

def land (rest : List Task) :
    Outcome worldSignature aggregateSignature World Abort Unit → Wiring
  | .done w _ => { c with world := w, tasks := rest }
  | .suspended w (a,b) k => { c with world := w }.aggregate order a b (.resume (k ()) :: rest)
  | .fault e => { c with aborted := some e }

def idle : Bool := c.tasks.isEmpty

def exec : Event → Option Wiring
  | .create t => if c.idle && t ≠ .helixSocketFactory then
      some { c with world := c.world.create t } else none
  | .aggregate a b => if c.idle && decide (c.world.objects.Compatible a b) then
      some (c.aggregate order a b []) else none
  | .addHelix node helix => if c.idle && decide (Callable c.world node helix) then
      some { c with tasks := [.resume (addHelix node helix)] } else none
  | .allow budget => if c.idle then some { c with budget := budget } else none
  | .publish t => match c.tasks with
    | .notify o :: _ =>
      if c.world.objects.typeOf o ≠ some .helixL4Protocol && Published t && 0 < c.budget &&
          decide ((c.world.create t).objects.Compatible o c.world.objects.next) then
        some ({ c with world := c.world.create t, budget := c.budget-1 }.aggregate order o
          c.world.objects.next c.tasks)
      else none
    | _ => none
  | .proceed => match c.tasks with
    | .notify o :: rest =>
      if c.world.objects.typeOf o = some .helixL4Protocol then
        some (c.land order rest (advance operations (notifyNewAggregate o) c.world))
      else some { c with tasks := rest }
    | .resume p :: rest => some (c.land order rest (advance operations p c.world))
    | [] => none

end Wiring

def Step (c : Wiring) (e : Event) (c' : Wiring) : Prop :=
  c.aborted = none ∧ ∃ order, c.exec order e = some c'

def Wiring.next (c : Wiring) (e : Event) : Option Wiring :=
  if c.aborted = none then c.exec .forward e else none

theorem next_step {c c' : Wiring} {e : Event} (h : c.next e = some c') : Step c e c' := by
  rw [Wiring.next,Option.ite_none_right_eq_some] at h
  exact ⟨h.1,.forward,h.2⟩

theorem play_wires {c c' : Wiring} (es : List Event) {tr : List (Wiring × Event)}
    (h : TransitionSystem.play Wiring.next c es = some (tr,c')) :
    TransitionSystem.Run Step c tr c' ∧ TransitionSystem.labels tr = es :=
  TransitionSystem.play_run (fun _ _ _ => next_step) h

def Nested (c c' : Wiring) : Prop :=
  Step c .proceed c' ∨ ∃ t, Step c (.publish t) c'

inductive Executes (order : Order) (c : Wiring) : Event → Wiring → Prop
  | create (t : TypeId) (idle : c.tasks = []) (ht : t ≠ .helixSocketFactory) :
      Executes order c (.create t) { c with world := c.world.create t }
  | aggregate (a b : ℕ) (idle : c.tasks = []) (h : c.world.objects.Compatible a b) :
      Executes order c (.aggregate a b) (c.aggregate order a b [])
  | addHelix (node : ℕ) (helix : Option ℕ) (idle : c.tasks = [])
      (h : Callable c.world node helix) :
      Executes order c (.addHelix node helix)
        { c with tasks := [.resume (HelixStack.addHelix node helix)] }
  | allow (budget : ℕ) (idle : c.tasks = []) :
      Executes order c (.allow budget) { c with budget := budget }
  | publish (t : TypeId) (o : ℕ) (rest : List Task) (hs : c.tasks = .notify o :: rest)
      (ho : c.world.objects.typeOf o ≠ some .helixL4Protocol) (ht : Published t = true)
      (hb : 0 < c.budget)
      (hc : (c.world.create t).objects.Compatible o c.world.objects.next) :
      Executes order c (.publish t) ({ c with
        world := c.world.create t
        budget := c.budget-1 }.aggregate order o c.world.objects.next c.tasks)
  | notify (o : ℕ) (rest : List Task) (hs : c.tasks = .notify o :: rest)
      (ho : c.world.objects.typeOf o = some .helixL4Protocol) :
      Executes order c .proceed
        (c.land order rest (advance operations (notifyNewAggregate o) c.world))
  | skip (o : ℕ) (rest : List Task) (hs : c.tasks = .notify o :: rest)
      (ho : c.world.objects.typeOf o ≠ some .helixL4Protocol) :
      Executes order c .proceed { c with tasks := rest }
  | resume (p : StackM Unit) (rest : List Task) (hs : c.tasks = .resume p :: rest) :
      Executes order c .proceed (c.land order rest (advance operations p c.world))

theorem exec_executes {order : Order} {c c' : Wiring} {e : Event}
    (h : c.exec order e = some c') : Executes order c e c' := by
  cases e with
  | create t =>
    obtain ⟨hg,rfl⟩ := by simpa [Wiring.exec,Wiring.idle] using h
    exact .create t hg.1 hg.2
  | aggregate a b =>
    obtain ⟨hg,rfl⟩ := by simpa [Wiring.exec,Wiring.idle] using h
    exact .aggregate a b hg.1 hg.2
  | addHelix node helix =>
    obtain ⟨hg,rfl⟩ := by simpa [Wiring.exec,Wiring.idle] using h
    exact .addHelix node helix hg.1 hg.2
  | allow budget =>
    obtain ⟨hg,rfl⟩ := by simpa [Wiring.exec,Wiring.idle] using h
    exact .allow budget hg
  | publish t =>
    simp only [Wiring.exec] at h
    split at h
    next o rest hs =>
      obtain ⟨⟨⟨⟨ho,ht⟩,hb⟩,hc⟩,rfl⟩ := by simpa using h
      exact .publish t o rest hs ho ht hb hc
    next => simp at h
  | proceed =>
    simp only [Wiring.exec] at h
    split at h
    next o rest hs =>
      split at h
      next ho =>
        obtain rfl := Option.some.inj h
        exact .notify o rest hs ho
      next ho =>
        obtain rfl := Option.some.inj h
        exact .skip o rest hs ho
    next p rest hs =>
      obtain rfl := Option.some.inj h
      exact .resume p rest hs
    next => simp at h

/-- What waits on the stack: a notification, or the rest of one of the two
programs behind an `AggregateObject`. -/
inductive Stage
  | notify (o : ℕ)
  | connect (h : ℕ) (ipv4 ipv6 : Option ℕ)
  | addHelix (node : ℕ) (helix : Option ℕ)
  | addFactory (node h : ℕ)
  | finish
  deriving DecidableEq, Repr

def Stage.task : Stage → Task
  | .notify o => .notify o
  | .connect h ipv4 ipv6 => .resume (connectDownTargets h ipv4 ipv6)
  | .addHelix node helix => .resume (HelixStack.addHelix node helix)
  | .addFactory node h => .resume (HelixStack.addFactory node h)
  | .finish => .resume (.pure ())

end Ns3Helix.StackMachine
