import Std.Data.HashMap.Lemmas
import Ns3Helix.InteractionProgram
import Ns3Helix.ObjectAggregation

/-!
# HelixL4Protocol, its socket factory and the stack helper

The part of the module that wires the protocol to the other objects of a
node. `NotifyNewAggregate` and `AddHelix` are programs over the fields of
these objects and over ns-3's aggregates; they leave control at
`AggregateObject`, because that notifies every member before it returns.
-/

set_option autoImplicit false

namespace Ns3Helix.HelixStack
open Ns3Helix.InteractionProgram Ns3Helix.ObjectAggregation

inductive TypeId
  | node
  | ipv4
  | ipv6
  | helixL4Protocol
  | helixSocketFactory
  | udpSocketFactory
  | other (n : ℕ)
  deriving DecidableEq, Repr

/-- A down target is `MakeCallback(&Ipv4::Send, ipv4)` or its counterpart, and
is known by the object it is bound to. -/
structure HelixL4Protocol where
  mNode : Option ℕ
  mSockets : Std.HashMap UInt64 (Option ℕ)
  mSocketIndex : UInt64
  mDownTarget : Option ℕ
  mDownTarget6 : Option ℕ

def HelixL4Protocol.fresh : HelixL4Protocol where
  mNode := none
  mSockets := ∅
  mSocketIndex := 0
  mDownTarget := none
  mDownTarget6 := none

def HelixL4Protocol.addSocket (d : HelixL4Protocol) (socket : ℕ) : HelixL4Protocol :=
  { d with
    mSockets := d.mSockets.insert d.mSocketIndex (some socket)
    mSocketIndex := d.mSocketIndex+1 }

def HelixL4Protocol.doDispose (d : HelixL4Protocol) : HelixL4Protocol :=
  let nulled := { d with mSockets := d.mSockets.map fun _ _ => none }
  -- the down targets stay: what would reset them is left in a comment
  { nulled with mSockets := ∅, mNode := none }

structure HelixSocketFactoryImpl where
  mHelix : Option ℕ

def HelixSocketFactoryImpl.fresh : HelixSocketFactoryImpl where
  mHelix := none

def HelixSocketFactoryImpl.doDispose (d : HelixSocketFactoryImpl) : HelixSocketFactoryImpl :=
  { d with mHelix := none }

inductive Wire
  | setNode (helix : ℕ) (node : Option ℕ)
  | setHelix (factory : ℕ) (helix : Option ℕ)
  | insert (ipv4 helix : ℕ)
  | insert6 (ipv6 helix : ℕ)
  | setDownTarget (helix ipv4 : ℕ)
  | setDownTarget6 (helix ipv6 : ℕ)
  deriving DecidableEq, Repr

structure World where
  objects : Aggregation TypeId
  helix : ℕ → HelixL4Protocol
  factory : ℕ → HelixSocketFactoryImpl
  wires : List Wire

inductive Abort
  | nullDereference
  | multipleAggregation
  deriving DecidableEq, Repr

namespace World

def initial : World where
  objects := .empty
  helix _ := .fresh
  factory _ := .fresh
  wires := []

variable (w : World)

def create (t : TypeId) : World := { w with objects := w.objects.create t }

def setHelixFields (h : ℕ) (d : HelixL4Protocol) : World :=
  { w with helix := Function.update w.helix h d }

def record (wire : Wire) : World := { w with wires := w.wires++[wire] }

def setNode (h : ℕ) (node : Option ℕ) : World :=
  (w.setHelixFields h { w.helix h with mNode := node }).record (.setNode h node)

def setHelix (f : ℕ) (helix : Option ℕ) : World :=
  { w with factory := Function.update w.factory f ⟨helix⟩ }.record (.setHelix f helix)

def setDownTarget (h ip : ℕ) : World :=
  (w.setHelixFields h { w.helix h with mDownTarget := some ip }).record (.setDownTarget h ip)

def setDownTarget6 (h ip : ℕ) : World :=
  (w.setHelixFields h { w.helix h with mDownTarget6 := some ip }).record (.setDownTarget6 h ip)

def doDispose (o : ℕ) : World :=
  match w.objects.typeOf o with
  | some .helixL4Protocol => w.setHelixFields o (w.helix o).doDispose
  | some .helixSocketFactory =>
      { w with factory := Function.update w.factory o (w.factory o).doDispose }
  | _ => w

def dispose (o : ℕ) : World := (w.objects.members o).foldl doDispose w

def aggregate (a b : ℕ) : Except Abort World :=
  if h : w.objects.Compatible a b then .ok { w with objects := w.objects.merge a b h }
  else .error .multipleAggregation

end World

inductive WorldOp
  | getObject (o : ℕ) (t : TypeId)
  | dereference (p : Option ℕ)
  | createObject (t : TypeId)
  | mNode (h : ℕ)
  | mDownTarget (h : ℕ)
  | mDownTarget6 (h : ℕ)
  | setNode (h : ℕ) (node : Option ℕ)
  | setHelix (f : ℕ) (helix : Option ℕ)
  | insert (ip h : ℕ)
  | insert6 (ip h : ℕ)
  | setDownTarget (h ip : ℕ)
  | setDownTarget6 (h ip : ℕ)

@[reducible] def worldSignature : Signature where
  Op := WorldOp
  Answer
    | .getObject _ _ => Option ℕ
    | .dereference _ => ℕ
    | .createObject _ => ℕ
    | .mNode _ => Option ℕ
    | .mDownTarget _ => Option ℕ
    | .mDownTarget6 _ => Option ℕ
    | .setNode _ _ => Unit
    | .setHelix _ _ => Unit
    | .insert _ _ => Unit
    | .insert6 _ _ => Unit
    | .setDownTarget _ _ => Unit
    | .setDownTarget6 _ _ => Unit

@[reducible] def aggregateSignature : Signature where
  Op := ℕ × ℕ
  Answer _ := Unit

def operations : Handler worldSignature World Abort
  | .getObject o t, w => .ok (w.objects.getObject o t,w)
  | .dereference p, w => match p with
    | some o => .ok (o,w)
    | none => .error .nullDereference
  | .createObject t, w => .ok (w.objects.next,w.create t)
  | .mNode h, w => .ok ((w.helix h).mNode,w)
  | .mDownTarget h, w => .ok ((w.helix h).mDownTarget,w)
  | .mDownTarget6 h, w => .ok ((w.helix h).mDownTarget6,w)
  | .setNode h node, w => .ok ((),w.setNode h node)
  | .setHelix f helix, w => .ok ((),w.setHelix f helix)
  | .insert ip h, w => .ok ((),w.record (.insert ip h))
  | .insert6 ip h, w => .ok ((),w.record (.insert6 ip h))
  | .setDownTarget h ip, w => .ok ((),w.setDownTarget h ip)
  | .setDownTarget6 h ip, w => .ok ((),w.setDownTarget6 h ip)

abbrev StackM (α : Type) := Program worldSignature aggregateSignature α

section Operations

def getObject (o : ℕ) (t : TypeId) : StackM (Option ℕ) := .perform (.getObject o t) .pure
def dereference (p : Option ℕ) : StackM ℕ := .perform (.dereference p) .pure
def createObject (t : TypeId) : StackM ℕ := .perform (.createObject t) .pure
def mNode (h : ℕ) : StackM (Option ℕ) := .perform (.mNode h) .pure
def mDownTarget (h : ℕ) : StackM (Option ℕ) := .perform (.mDownTarget h) .pure
def mDownTarget6 (h : ℕ) : StackM (Option ℕ) := .perform (.mDownTarget6 h) .pure
def setNode (h : ℕ) (node : Option ℕ) : StackM Unit := .perform (.setNode h node) .pure
def setHelix (f : ℕ) (helix : Option ℕ) : StackM Unit := .perform (.setHelix f helix) .pure
def insert (ip h : ℕ) : StackM Unit := .perform (.insert ip h) .pure
def insert6 (ip h : ℕ) : StackM Unit := .perform (.insert6 ip h) .pure
def setDownTarget (h ip : ℕ) : StackM Unit := .perform (.setDownTarget h ip) .pure
def setDownTarget6 (h ip : ℕ) : StackM Unit := .perform (.setDownTarget6 h ip) .pure
def aggregateObject (a b : ℕ) : StackM Unit := .external (a,b) .pure

end Operations

def connectDown (downTarget : StackM (Option ℕ)) (connect : ℕ → StackM Unit)
    (ip : Option ℕ) : StackM Unit := do
  if let some v := ip then
    if (← downTarget).isNone then
      connect v

/-- The end of `NotifyNewAggregate`. -/
def connectDownTargets (this : ℕ) (ipv4 ipv6 : Option ℕ) : StackM Unit := do
  connectDown (mDownTarget this) (fun v => do insert v this; setDownTarget this v) ipv4
  connectDown (mDownTarget6 this) (fun v => do insert6 v this; setDownTarget6 this v) ipv6

def notifyNewAggregate (this : ℕ) : StackM Unit := do
  let node ← getObject this .node
  let ipv4 ← getObject this .ipv4
  -- `node->` comes before `node` is tested
  let n ← dereference node
  let ipv6 ← getObject n .ipv6
  if (← mNode this).isNone then
    if node.isSome && (ipv4.isSome || ipv6.isSome) then
      setNode this node
      let helixFactory ← createObject .helixSocketFactory
      setHelix helixFactory (some this)
      aggregateObject n helixFactory
  connectDownTargets this ipv4 ipv6

/-- The end of `AddHelix`. -/
def addFactory (node helix : ℕ) : StackM Unit := do
  let helixFactoryImpl ← createObject .helixSocketFactory
  setHelix helixFactoryImpl (some helix)
  aggregateObject node helixFactoryImpl

def addHelix (node : ℕ) (helix : Option ℕ) : StackM Unit := do
  let helix ← match helix with
    | some h => pure h
    | none => createObject .helixL4Protocol
  setNode helix (some node)
  aggregateObject node helix
  addFactory node helix

section Specifications

def target (w : World) (h : ℕ) : TypeId → Option ℕ
  | .ipv4 => (w.helix h).mDownTarget
  | .ipv6 => (w.helix h).mDownTarget6
  | _ => none

namespace World

variable (w : World)

def bindTarget (t : TypeId) (h ip : ℕ) : World :=
  match t with
  | .ipv4 => (w.record (.insert ip h)).setDownTarget h ip
  | .ipv6 => (w.record (.insert6 ip h)).setDownTarget6 h ip
  | _ => w

def connectIp (t : TypeId) (h : ℕ) : Option ℕ → World
  | some v => if (target w h t).isNone then w.bindTarget t h v else w
  | none => w

def connect (h : ℕ) (ipv4 ipv6 : Option ℕ) : World :=
  (w.connectIp .ipv4 h ipv4).connectIp .ipv6 h ipv6

def createFactory (h : ℕ) : World :=
  (w.create .helixSocketFactory).setHelix w.objects.next (some h)

end World

section
variable {α : Type} (w : World) (h : ℕ)

@[simp] theorem advance_getObject (t : TypeId) (k : Option ℕ → StackM α) :
    advance operations (getObject h t >>= k) w =
      advance operations (k (w.objects.getObject h t)) w := rfl

@[simp] theorem advance_dereference (n : ℕ) (k : ℕ → StackM α) :
    advance operations (dereference (some n) >>= k) w = advance operations (k n) w := rfl

@[simp] theorem advance_dereference_null (k : ℕ → StackM α) :
    advance operations (dereference none >>= k) w = .fault .nullDereference := rfl

@[simp] theorem advance_mNode (k : Option ℕ → StackM α) :
    advance operations (mNode h >>= k) w = advance operations (k (w.helix h).mNode) w := rfl

end

theorem connectDown_runs (w : World) (t : TypeId) (h : ℕ) {downTarget : StackM (Option ℕ)}
    {connect : ℕ → StackM Unit}
    (hread : ∀ k : Option ℕ → StackM Unit, advance operations (downTarget >>= k) w =
      advance operations (k (target w h t)) w)
    (hconnect : ∀ v, advance operations (connect v) w = .done (w.bindTarget t h v) ())
    (ip : Option ℕ) : advance operations (connectDown downTarget connect ip) w =
      .done (w.connectIp t h ip) () := by
  cases ip with
  | none => rfl
  | some v =>
    simp only [connectDown,hread,World.connectIp]
    by_cases hd : (target w h t).isNone = true
    · rw [if_pos hd,if_pos hd]
      exact hconnect v
    · rw [if_neg hd,if_neg hd]
      rfl

theorem connectDownTargets_runs (w : World) (h : ℕ) (ipv4 ipv6 : Option ℕ) :
    advance operations (connectDownTargets h ipv4 ipv6) w = .done (w.connect h ipv4 ipv6) () := by
  rw [connectDownTargets,advance_bind,
    connectDown_runs w .ipv4 h (fun _ => rfl) (fun _ => rfl) ipv4,Outcome.andThen,
    connectDown_runs _ .ipv6 h (fun _ => rfl) (fun _ => rfl) ipv6,World.connect]

theorem addFactory_runs (w : World) (n h : ℕ) :
    advance operations (addFactory n h) w =
      .suspended (w.createFactory h) (n,w.objects.next) .pure := rfl

theorem addHelix_runs (w : World) (n h : ℕ) :
    advance operations (addHelix n (some h)) w =
      .suspended (w.setNode h (some n)) (n,h) (fun _ => addFactory n h) := rfl

theorem addHelix_null_runs (w : World) (n : ℕ) :
    advance operations (addHelix n none) w =
      .suspended ((w.create .helixL4Protocol).setNode w.objects.next (some n))
        (n,w.objects.next) (fun _ => addFactory n w.objects.next) := rfl

theorem notify_null (w : World) (h : ℕ) (hn : w.objects.getObject h .node = none) :
    advance operations (notifyNewAggregate h) w = .fault .nullDereference := by
  simp [notifyNewAggregate,hn]

theorem notify_connects (w : World) (h n : ℕ) (hn : w.objects.getObject h .node = some n)
    (hw : (w.helix h).mNode.isSome ∨
      (w.objects.getObject h .ipv4 = none ∧ w.objects.getObject n .ipv6 = none)) :
    advance operations (notifyNewAggregate h) w = .done
      (w.connect h (w.objects.getObject h .ipv4) (w.objects.getObject n .ipv6)) () := by
  simp only [notifyNewAggregate,advance_getObject,advance_dereference,advance_mNode,hn]
  cases hm : (w.helix h).mNode with
  | some n' => exact connectDownTargets_runs w h _ _
  | none =>
    obtain ⟨h4,h6⟩ : _ ∧ _ := by simpa [hm] using hw
    rw [h4,h6]
    exact connectDownTargets_runs w h none none

theorem notify_publishes (w : World) (h n : ℕ) (hn : w.objects.getObject h .node = some n)
    (hm : (w.helix h).mNode = none)
    (hip : (w.objects.getObject h .ipv4).isSome ∨ (w.objects.getObject n .ipv6).isSome) :
    advance operations (notifyNewAggregate h) w = .suspended
      ((w.setNode h (some n)).createFactory h) (n,w.objects.next)
      (fun _ => connectDownTargets h (w.objects.getObject h .ipv4)
        (w.objects.getObject n .ipv6)) := by
  simp only [notifyNewAggregate,advance_getObject,advance_dereference,advance_mNode,hn,hm]
  have htest : ((w.objects.getObject h .ipv4).isSome || (w.objects.getObject n .ipv6).isSome) =
      true := by simpa using hip
  simp only [htest]
  rfl

end Specifications

end Ns3Helix.HelixStack
