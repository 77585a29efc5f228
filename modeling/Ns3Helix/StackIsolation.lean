import Ns3Helix.StackSteps

/-!
# One node is wired without another

Whatever is created, grouped, set up and notified elsewhere, an aggregate that
takes no part in it keeps its members and their fields, and no call that wires
objects names any of them.
-/

set_option autoImplicit false

namespace Ns3Helix.StackIsolation
open Ns3Helix.InteractionProgram Ns3Helix.ObjectAggregation Ns3Helix.HelixStack
open Ns3Helix.StackMachine Ns3Helix.StackSteps Ns3Helix.TransitionSystem
open Ns3Helix.StackInvariant (connect_objects)

def Wire.named : Wire → List ℕ
  | .setNode h node => h :: node.toList
  | .setHelix f helix => f :: helix.toList
  | .insert ip h => [ip,h]
  | .insert6 ip h => [ip,h]
  | .setDownTarget h ip => [h,ip]
  | .setDownTarget6 h ip => [h,ip]

def Apart (w : World) (o x : ℕ) : Prop := x ∉ w.objects.members o

instance (w : World) (o x : ℕ) : Decidable (Apart w o x) := inferInstanceAs (Decidable (x ∉ _))

structure Unchanged (w w' : World) (o : ℕ) : Prop where
  members : w'.objects.members o = w.objects.members o
  typeOf : ∀ m ∈ w.objects.members o, w'.objects.typeOf m = w.objects.typeOf m
  helix : ∀ m ∈ w.objects.members o, w'.helix m = w.helix m
  factory : ∀ m ∈ w.objects.members o, w'.factory m = w.factory m
  wires : ∃ new, w'.wires = w.wires++new ∧ ∀ x ∈ new, ∀ m ∈ Wire.named x, Apart w o m

section Changes

variable {w w' w'' : World} {o : ℕ}

theorem unchanged_refl (w : World) (o : ℕ) : Unchanged w w o :=
  ⟨rfl,fun _ _ => rfl,fun _ _ => rfl,fun _ _ => rfl,[],by simp,by simp⟩

theorem unchanged_trans (h : Unchanged w w' o) (h' : Unchanged w' w'' o) : Unchanged w w'' o := by
  obtain ⟨new,hnew,hnamed⟩ := h.wires
  obtain ⟨new',hnew',hnamed'⟩ := h'.wires
  have hmem : ∀ m ∈ w.objects.members o, m ∈ w'.objects.members o := by
    rw [h.members]
    exact fun _ hm => hm
  refine ⟨h'.members.trans h.members,fun m hm => ?_,fun m hm => ?_,fun m hm => ?_,
    new++new',?_,fun x hx m hm => ?_⟩
  · rw [h'.typeOf m (hmem m hm),h.typeOf m hm]
  · rw [h'.helix m (hmem m hm),h.helix m hm]
  · rw [h'.factory m (hmem m hm),h.factory m hm]
  · rw [hnew',hnew,List.append_assoc]
  · rcases List.mem_append.mp hx with hx | hx
    · exact hnamed x hx m hm
    · have happart := hnamed' x hx m hm
      rwa [Apart,h.members] at happart

theorem apart_member {x y : ℕ} (hx : Apart w o x) (hy : y ∈ w.objects.members x) : Apart w o y :=
  fun h => hx (w.objects.mem_trans h (w.objects.mem_symm hy))

theorem apart_ne {x m : ℕ} (hx : Apart w o x) (hm : m ∈ w.objects.members o) : m ≠ x := by
  rintro rfl
  exact hx hm

theorem apart_next (ho : o < w.objects.next) : Apart w o w.objects.next :=
  fun h => Nat.lt_irrefl _ (w.objects.member_lt ho h)

theorem unchanged_create (t : TypeId) (ho : o < w.objects.next) : Unchanged w (w.create t) o where
  members := rfl
  typeOf m hm := w.objects.create_typeOf_old t (w.objects.member_lt ho hm)
  helix _ _ := rfl
  factory _ _ := rfl
  wires := ⟨[],by simp [World.create],by simp⟩

theorem unchanged_merged {a b : ℕ} (hc : w.objects.Compatible a b) (ha : Apart w o a)
    (hb : Apart w o b) : Unchanged w { w with objects := w.objects.merge a b hc } o where
  members := by
    refine w.objects.merge_unjoined hc fun ho => ?_
    rcases List.mem_append.mp ho with ho | ho
    · exact ha (w.objects.mem_symm ho)
    · exact hb (w.objects.mem_symm ho)
  typeOf _ _ := rfl
  helix _ _ := rfl
  factory _ _ := rfl
  wires := ⟨[],by simp,by simp⟩

theorem unchanged_set {g : ℕ} (hg : Apart w o g) (d : HelixL4Protocol) {x : Wire}
    (hx : ∀ m ∈ Wire.named x, Apart w o m) :
    Unchanged w ((w.setHelixFields g d).record x) o where
  members := rfl
  typeOf _ _ := rfl
  helix m hm := Function.update_of_ne (apart_ne hg hm) _ _
  factory _ _ := rfl
  wires := ⟨[x],rfl,by simpa using hx⟩

theorem unchanged_setHelix {f g : ℕ} (hf : Apart w o f) (hg : Apart w o g) :
    Unchanged w (w.setHelix f (some g)) o where
  members := rfl
  typeOf _ _ := rfl
  helix _ _ := rfl
  factory m hm := Function.update_of_ne (apart_ne hf hm) _ _
  wires := ⟨[.setHelix f (some g)],rfl,by simp [Wire.named,hf,hg]⟩

theorem unchanged_setNode {g n : ℕ} (hg : Apart w o g) (hn : Apart w o n) :
    Unchanged w (w.setNode g (some n)) o := unchanged_set hg _ (by simp [Wire.named,hg,hn])

theorem pair_apart {x y : ℕ} (hx : Apart w o x) (hy : Apart w o y) : ∀ m ∈ [x,y], Apart w o m := by
  simp [hx,hy]

theorem unchanged_record {x : Wire} (hx : ∀ m ∈ Wire.named x, Apart w o m) :
    Unchanged w (w.record x) o :=
  ⟨rfl,fun _ _ => rfl,fun _ _ => rfl,fun _ _ => rfl,[x],rfl,by simpa using hx⟩

theorem unchanged_bindTarget {t : TypeId} {g v : ℕ} (hg : Apart w o g) (hv : Apart w o v) :
    Unchanged w (w.bindTarget t g v) o := by
  cases t with
  | ipv4 =>
    refine unchanged_trans (unchanged_record (x := .insert v g) (pair_apart hv hg)) ?_
    exact unchanged_set (w := w.record (.insert v g)) hg _ (pair_apart hg hv)
  | ipv6 =>
    refine unchanged_trans (unchanged_record (x := .insert6 v g) (pair_apart hv hg)) ?_
    exact unchanged_set (w := w.record (.insert6 v g)) hg _ (pair_apart hg hv)
  | _ => exact unchanged_refl w o

theorem unchanged_connectIp {t : TypeId} {g : ℕ} {ip : Option ℕ} (hg : Apart w o g)
    (hip : ∀ v ∈ ip, Apart w o v) : Unchanged w (w.connectIp t g ip) o := by
  cases ip with
  | none => exact unchanged_refl w o
  | some v =>
    rw [World.connectIp]
    split
    · exact unchanged_bindTarget hg (hip v rfl)
    · exact unchanged_refl w o

theorem unchanged_connect {g : ℕ} {ipv4 ipv6 : Option ℕ} (hg : Apart w o g)
    (h4 : ∀ v ∈ ipv4, Apart w o v) (h6 : ∀ v ∈ ipv6, Apart w o v) :
    Unchanged w (w.connect g ipv4 ipv6) o := by
  have hfirst := unchanged_connectIp (t := .ipv4) hg h4
  refine unchanged_trans hfirst (unchanged_connectIp ?_ ?_)
  · rwa [Apart,hfirst.members]
  · intro v hv
    rw [Apart,hfirst.members]
    exact h6 v hv

theorem unchanged_createFactory {g : ℕ} (ho : o < w.objects.next) (hg : Apart w o g) :
    Unchanged w (w.createFactory g) o := by
  refine unchanged_trans (unchanged_create .helixSocketFactory ho) (unchanged_setHelix ?_ hg)
  exact apart_next ho

end Changes

section Steps

variable {order : Order} {c c' : Wiring} {e : Event} {o : ℕ} {ss : List Stage}

def Stage.Apart (w : World) (o : ℕ) : Stage → Prop
  | .notify x => StackIsolation.Apart w o x
  | .connect h ipv4 ipv6 => StackIsolation.Apart w o h ∧
      (∀ v ∈ ipv4, StackIsolation.Apart w o v) ∧ ∀ v ∈ ipv6, StackIsolation.Apart w o v
  | .addHelix node helix => StackIsolation.Apart w o node ∧ ∀ h ∈ helix, StackIsolation.Apart w o h
  | .addFactory node h => StackIsolation.Apart w o node ∧ StackIsolation.Apart w o h
  | .finish => True

def Avoids (w : World) (o : ℕ) : Event → Prop
  | .aggregate a b => Apart w o a ∧ Apart w o b
  | .addHelix node helix => Apart w o node ∧ ∀ h ∈ helix, Apart w o h
  | _ => True

structure Aside (o : ℕ) (c : Wiring) (ss : List Stage) : Prop where
  allocated : o < c.world.objects.next
  tasks : c.tasks = ss.map Stage.task
  apart : ∀ s ∈ ss, Stage.Apart c.world o s

def Elsewhere (o : ℕ) (c c' : Wiring) : Prop :=
  (∃ ss, Aside o c' ss) ∧ Unchanged c.world c'.world o

theorem stage_unchanged {w w' : World} (h : Unchanged w w' o) {s : Stage}
    (hs : Stage.Apart w o s) : Stage.Apart w' o s := by
  have same : StackIsolation.Apart w' o = StackIsolation.Apart w o := by
    funext x
    rw [StackIsolation.Apart,StackIsolation.Apart,h.members]
  cases s with
  | finish => trivial
  | notify | connect | addHelix | addFactory => simpa only [Stage.Apart,same] using hs

theorem apart_unchanged {w w' : World} (h : Unchanged w w' o) {x : ℕ} (hx : Apart w o x) :
    Apart w' o x := by rwa [Apart,h.members]

variable (order) in
theorem aggregate_aside {w : World} {a b : ℕ} (rest : List Stage) (h : Aside o c ss)
    (hw : Unchanged c.world w o) (hnext : o < w.objects.next) (ha : Apart w o a)
    (hb : Apart w o b) (hrest : ∀ s ∈ rest, Stage.Apart w o s) :
    Elsewhere o c ({ c with world := w }.aggregate order a b (rest.map Stage.task)) := by
  simp only [Elsewhere,Wiring.aggregate,World.aggregate]
  by_cases hc : w.objects.Compatible a b
  · have hmerged := unchanged_merged hc ha hb
    rw [dif_pos hc]
    refine ⟨⟨(order.arrange (w.objects.joined a b)).map .notify ++ rest,hnext,?_,?_⟩,
      unchanged_trans hw hmerged⟩
    · simp [Stage.task]
    · intro s hs
      refine stage_unchanged hmerged ?_
      rcases List.mem_append.mp hs with hs | hs
      · obtain ⟨x,hx,rfl⟩ := List.mem_map.mp hs
        rcases List.mem_append.mp ((order.perm _).mem_iff.mp hx) with hx | hx
        · exact apart_member ha hx
        · exact apart_member hb hx
      · exact hrest s hs
  · rw [dif_neg hc]
    exact ⟨⟨ss,hnext,h.tasks,fun s hs => stage_unchanged hw (h.apart s hs)⟩,hw⟩

theorem done_aside {w : World} {s : Stage} (h : Aside o c (s :: ss)) (hw : Unchanged c.world w o)
    (hnext : o < w.objects.next) :
    Elsewhere o c { c with world := w, tasks := ss.map Stage.task } :=
  ⟨⟨ss,hnext,rfl,fun s' hs' =>
    stage_unchanged hw (h.apart s' (List.mem_cons_of_mem _ hs'))⟩,hw⟩

theorem notify_aside {g : ℕ} (h : Aside o c (.notify g :: ss)) :
    Elsewhere o c (c.land order (ss.map Stage.task)
      (advance operations (notifyNewAggregate g) c.world)) := by
  have hg : Apart c.world o g := h.apart _ List.mem_cons_self
  have hfound {x : ℕ} {t : TypeId} (hx : Apart c.world o x) :
      ∀ v ∈ c.world.objects.getObject x t, Apart c.world o v :=
    fun v hv => apart_member hx (c.world.objects.getObject_eq_some.mp hv).1
  cases hn : c.world.objects.getObject g .node with
  | none =>
    rw [notify_null c.world g hn]
    exact ⟨⟨_,h.allocated,h.tasks,h.apart⟩,unchanged_refl _ o⟩
  | some n =>
    have hnode := hfound hg n hn
    by_cases hset : (c.world.helix g).mNode.isSome ∨
      (c.world.objects.getObject g .ipv4 = none ∧ c.world.objects.getObject n .ipv6 = none)
    · rw [notify_connects c.world g n hn hset]
      have hconnect := unchanged_connect hg (hfound (t := .ipv4) hg) (hfound (t := .ipv6) hnode)
      refine done_aside h hconnect ?_
      rw [connect_objects]
      exact h.allocated
    · rw [not_or,not_and_or] at hset
      have hunset : (c.world.helix g).mNode = none := by simpa using hset.1
      have hip : (c.world.objects.getObject g .ipv4).isSome ∨
          (c.world.objects.getObject n .ipv6).isSome := by
        simpa [Option.isSome_iff_ne_none] using hset.2
      rw [notify_publishes c.world g n hn hunset hip]
      have hset' := unchanged_setNode (w := c.world) hg hnode
      have hnew : Apart (c.world.setNode g (some n)) o c.world.objects.next :=
        apart_next (w := c.world) h.allocated
      have hmade := unchanged_trans hset' (unchanged_createFactory h.allocated hg)
      refine aggregate_aside order (.connect g _ _ :: ss) h hmade
        (Nat.lt_succ_of_lt h.allocated) (apart_unchanged hmade hnode) hnew ?_
      intro s hs
      refine stage_unchanged hmade ?_
      rcases List.mem_cons.mp hs with rfl | hs
      · exact ⟨hg,hfound hg,hfound hnode⟩
      · exact h.apart s (List.mem_cons_of_mem _ hs)

theorem join_aside {w : World} {n g : ℕ} {helix : Option ℕ}
    (h : Aside o c (.addHelix n helix :: ss)) (hw : Unchanged c.world w o)
    (hnext : o < w.objects.next) (hn : Apart w o n) (hg : Apart w o g) :
    Elsewhere o c (({ c with world := w.setNode g (some n) } : Wiring).aggregate order n g
      (.resume (addFactory n g) :: ss.map Stage.task)) := by
  have hset := unchanged_trans hw (unchanged_setNode hg hn)
  refine aggregate_aside order (.addFactory n g :: ss) h hset hnext hn hg ?_
  intro s hs
  rcases List.mem_cons.mp hs with rfl | hs
  · exact ⟨hn,hg⟩
  · exact stage_unchanged hset (h.apart s (List.mem_cons_of_mem _ hs))

/-- The program of a stage elsewhere goes on. -/
theorem resume_aside {s : Stage} {p : StackM Unit} (h : Aside o c (s :: ss))
    (hs : s.task = .resume p) :
    Elsewhere o c (c.land order (ss.map Stage.task) (advance operations p c.world)) := by
  have hstage := h.apart s List.mem_cons_self
  cases s with
  | notify x => cases hs
  | connect g ipv4 ipv6 =>
    obtain rfl := Task.resume.inj hs
    obtain ⟨hg,h4,h6⟩ := hstage
    rw [connectDownTargets_runs]
    refine done_aside h (unchanged_connect hg h4 h6) ?_
    rw [connect_objects]
    exact h.allocated
  | addHelix n helix =>
    obtain rfl := Task.resume.inj hs
    obtain ⟨hn,hhelix⟩ := hstage
    cases helix with
    | some g =>
      rw [addHelix_runs]
      exact join_aside h (unchanged_refl _ o) h.allocated hn (hhelix g rfl)
    | none =>
      rw [addHelix_null_runs]
      have hcreate := unchanged_create .helixL4Protocol h.allocated
      exact join_aside h hcreate (Nat.lt_succ_of_lt h.allocated) hn
        (apart_next (w := c.world) h.allocated)
  | addFactory n g =>
    obtain rfl := Task.resume.inj hs
    obtain ⟨hn,hg⟩ := hstage
    rw [addFactory_runs]
    have hmade := unchanged_createFactory h.allocated hg
    exact aggregate_aside order (.finish :: ss) h hmade (Nat.lt_succ_of_lt h.allocated) hn
      (apart_next (w := c.world) h.allocated) (by
        rintro s hs
        rcases List.mem_cons.mp hs with rfl | hs
        · trivial
        · exact stage_unchanged hmade (h.apart s (List.mem_cons_of_mem _ hs)))
  | finish =>
    obtain rfl := Task.resume.inj hs
    exact done_aside h (unchanged_refl _ o) h.allocated

theorem step_aside (h : Aside o c ss) (he : Avoids c.world o e) (hstep : Step c e c') :
    Elsewhere o c c' := by
  obtain ⟨_,order,hexec⟩ := hstep
  have htasks := h.tasks
  cases exec_executes hexec with
  | create t idle =>
    have hcreate := unchanged_create t h.allocated
    exact ⟨⟨ss,Nat.lt_succ_of_lt h.allocated,h.tasks,fun s hs =>
      stage_unchanged hcreate (h.apart s hs)⟩,hcreate⟩
  | aggregate a b idle =>
    exact aggregate_aside order [] h (unchanged_refl _ o) h.allocated he.1 he.2 (by simp)
  | addHelix node helix idle =>
    refine ⟨⟨[.addHelix node helix],h.allocated,rfl,?_⟩,unchanged_refl _ o⟩
    intro s hs
    obtain rfl := List.mem_singleton.mp hs
    exact he
  | allow budget idle => exact ⟨⟨ss,h.allocated,h.tasks,h.apart⟩,unchanged_refl _ o⟩
  | publish t x rest hs =>
    obtain ⟨s,ss',rfl,hx,rfl⟩ := head_stage (htasks.symm.trans hs)
    obtain rfl := head_notify hx
    have hcreate := unchanged_create t h.allocated
    have hx : Apart c.world o x := h.apart _ List.mem_cons_self
    have hspent : Aside o { c with budget := c.budget-1 } (.notify x :: ss') :=
      ⟨h.allocated,h.tasks,h.apart⟩
    have haside := aggregate_aside order (.notify x :: ss') hspent hcreate
      (Nat.lt_succ_of_lt h.allocated) (apart_unchanged hcreate hx)
      (apart_next (w := c.world) h.allocated) fun s hs => stage_unchanged hcreate (h.apart s hs)
    rwa [← htasks] at haside
  | notify x rest hs =>
    obtain ⟨s,ss',rfl,hx,rfl⟩ := head_stage (htasks.symm.trans hs)
    obtain rfl := head_notify hx
    exact notify_aside h
  | skip x rest hs =>
    obtain ⟨s,ss',rfl,_,rfl⟩ := head_stage (htasks.symm.trans hs)
    exact done_aside h (unchanged_refl _ o) h.allocated
  | resume p rest hs =>
    obtain ⟨s,ss',rfl,hx,rfl⟩ := head_stage (htasks.symm.trans hs)
    exact resume_aside h hx

theorem run_aside {tr : List (Wiring × Event)} (h : Aside o c ss) (hrun : Run Step c tr c')
    (he : ∀ x ∈ tr, Avoids x.1.world o x.2) : Elsewhere o c c' := by
  induction hrun with
  | nil => exact ⟨⟨ss,h⟩,unchanged_refl _ o⟩
  | snoc _ hstep ih =>
    obtain ⟨⟨ss',haside⟩,hbefore⟩ := ih fun x hx => he x (List.mem_append_left _ hx)
    have hlast := he _ (List.mem_append_right _ List.mem_cons_self)
    obtain ⟨hafter,hunchanged⟩ := step_aside haside hlast hstep
    exact ⟨hafter,unchanged_trans hbefore hunchanged⟩

/-- From a state with nothing pending, whatever is created, grouped, set up and
notified elsewhere leaves an aggregate as it is. -/
theorem wiring_isolated {tr : List (Wiring × Event)} (hidle : c.tasks = [])
    (ho : o < c.world.objects.next) (hrun : Run Step c tr c')
    (he : ∀ x ∈ tr, Avoids x.1.world o x.2) : Unchanged c.world c'.world o :=
  (run_aside (show Aside o c [] from ⟨ho,hidle,by simp⟩) hrun he).2

/-- Of two nodes, Helix is set up on the second. -/
theorem second_node_aside : ∃ tr c', Run Step { Wiring.initial with
      world := (World.initial.create .node).create .node } tr c' ∧
    c'.tasks = [] ∧ c'.world.objects.getObject 1 .helixL4Protocol = some 2 ∧
    Unchanged ((World.initial.create .node).create .node) c'.world 0 := by
  have start : Run Step { Wiring.initial with
    world := (World.initial.create .node).create .node } [] _ := .nil
  have called := run_then start (.addHelix 1 none) ⟨rfl,.forward,rfl⟩
  have joined := run_then called .proceed ⟨rfl,.forward,rfl⟩
  have notified := run_then (run_then joined .proceed ⟨rfl,.forward,rfl⟩) .proceed
    ⟨rfl,.forward,rfl⟩
  have published := run_then notified .proceed ⟨rfl,.forward,rfl⟩
  have nested := run_then (run_then published .proceed ⟨rfl,.forward,rfl⟩) .proceed
    ⟨rfl,.forward,rfl⟩
  have hrun := run_then (run_then nested .proceed ⟨rfl,.forward,rfl⟩) .proceed
    ⟨rfl,.forward,rfl⟩
  refine ⟨_,_,hrun,rfl,rfl,wiring_isolated rfl (by decide) hrun fun x hx => ?_⟩
  have hcalled : x.2 = .addHelix 1 none ∧ x.1 = { Wiring.initial with
      world := (World.initial.create .node).create .node } ∨ x.2 = .proceed := by
    simp only [List.nil_append,List.cons_append,List.mem_cons,List.not_mem_nil,or_false] at hx
    rcases hx with rfl | rfl | rfl | rfl | rfl | rfl | rfl | rfl | rfl
    · exact .inl ⟨rfl,rfl⟩
    all_goals exact .inr rfl
  rcases hcalled with ⟨hx,hw⟩ | hx
  · rw [hx,hw]
    exact ⟨by decide,by simp⟩
  · rw [hx]
    trivial

end Steps

end Ns3Helix.StackIsolation
