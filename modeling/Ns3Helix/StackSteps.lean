import Mathlib.Data.Finset.Card
import Mathlib.Data.Finset.Range
import Ns3Helix.StackInvariant

/-!
# What one step of the wiring does

Every step keeps the invariant and the record of calls, and every nested step
lowers a rank: it uses up the budget of the other classes, sets a node, adds a
factory or ends a stage. Protocols that have a node in their aggregate, or
stand alone, are told apart from those whose notification will look for one
in vain.
-/

set_option autoImplicit false

namespace Ns3Helix.StackSteps
open Ns3Helix.InteractionProgram Ns3Helix.ObjectAggregation Ns3Helix.HelixStack
open Ns3Helix.StackMachine Ns3Helix.StackInvariant

def Holds (w : World) : Wire → Prop
  | .setNode h node => node.isSome ∧ (w.helix h).mNode = node
  | .setHelix f helix => helix.isSome ∧ (w.factory f).mHelix = helix
  | .insert ipv4 h => target w h .ipv4 = some ipv4
  | .setDownTarget h ipv4 => target w h .ipv4 = some ipv4
  | .insert6 ipv6 h => target w h .ipv6 = some ipv6
  | .setDownTarget6 h ipv6 => target w h .ipv6 = some ipv6

/-- Every wiring call was made once for each wire in place, and no other. -/
structure Recorded (w : World) : Prop where
  once : w.wires.Nodup
  exact : ∀ x, x ∈ w.wires ↔ Holds w x

theorem recorded_extend {w w' : World} {xs : List Wire} (h : Recorded w)
    (hwires : w'.wires = w.wires++xs) (hxs : xs.Nodup) (hnew : ∀ x ∈ xs, ¬ Holds w x)
    (hholds : ∀ x, Holds w' x ↔ Holds w x ∨ x ∈ xs) : Recorded w' where
  once := by
    rw [hwires,List.nodup_append]
    refine ⟨h.once,hxs,?_⟩
    rintro x hx y hy rfl
    exact hnew x hy ((h.exact x).mp hx)
  exact x := by rw [hwires,List.mem_append,h.exact,hholds]

theorem recorded_initial : Recorded .initial where
  once := by simp [World.initial]
  exact x := by
    cases x with
    | setNode h node => cases node <;> simp [World.initial,Holds,HelixL4Protocol.fresh]
    | setHelix f helix => cases helix <;> simp [World.initial,Holds,HelixSocketFactoryImpl.fresh]
    | insert | insert6 | setDownTarget | setDownTarget6 =>
      simp [World.initial,Holds,target,HelixL4Protocol.fresh]

theorem recorded_setNode {w : World} {g n : ℕ} (h : Recorded w)
    (hunset : (w.helix g).mNode = none) : Recorded (w.setNode g (some n)) := by
  apply recorded_extend h rfl (List.nodup_singleton (Wire.setNode g (some n)))
  · simp [Holds,hunset]
  · intro x
    cases x with
    | setNode o node =>
      by_cases ho : o = g
      · subst ho
        cases node <;> simp [Holds,setNode_same,hunset,eq_comm]
      · simp [Holds,setNode_other w _ ho,ho]
    | setHelix f helix => simp [Holds]
    | insert | insert6 | setDownTarget | setDownTarget6 => simp [Holds]

theorem recorded_createFactory {w : World} {g : ℕ} (h : Recorded w)
    (hunset : (w.factory w.objects.next).mHelix = none) : Recorded (w.createFactory g) := by
  apply recorded_extend h rfl (List.nodup_singleton (Wire.setHelix w.objects.next (some g)))
  · simp [Holds,hunset]
  · intro x
    cases x with
    | setHelix f helix =>
      by_cases hf : f = w.objects.next
      · subst hf
        cases helix <;> simp [Holds,createFactory_new,hunset,eq_comm]
      · simp [Holds,createFactory_old hf,hf]
    | setNode | insert | insert6 | setDownTarget | setDownTarget6 =>
      simp [Holds,target,createFactory_helix]

def wiredTarget : Wire → Option (TypeId × ℕ × ℕ)
  | .insert ipv4 h => some (.ipv4,h,ipv4)
  | .setDownTarget h ipv4 => some (.ipv4,h,ipv4)
  | .insert6 ipv6 h => some (.ipv6,h,ipv6)
  | .setDownTarget6 h ipv6 => some (.ipv6,h,ipv6)
  | _ => none

theorem holds_target {w : World} {x : Wire} {t : TypeId} {h v : ℕ}
    (hx : wiredTarget x = some (t,h,v)) : Holds w x ↔ target w h t = some v := by
  cases x with
  | setNode | setHelix => cases hx
  | insert | insert6 | setDownTarget | setDownTarget6 =>
    cases hx
    rfl

/-- The calls that connect a down target are recorded where it is set. -/
theorem recorded_retarget {w w' : World} {g v : ℕ} {t : TypeId} {xs : List Wire} (h : Recorded w)
    (hre : Retargets w w' g t (some v)) (hunset : target w g t = none)
    (hwires : w'.wires = w.wires++xs) (hnodup : xs.Nodup)
    (hxs : ∀ x, x ∈ xs ↔ wiredTarget x = some (t,g,v)) : Recorded w' := by
  refine recorded_extend h hwires hnodup (fun x hx => ?_) fun x => ?_
  · rw [holds_target ((hxs x).mp hx),hunset]
    simp
  · rw [hxs]
    cases hx : wiredTarget x with
    | none =>
      cases x with
      | setNode o node => simp [Holds,hre.mNode]
      | setHelix f helix => simp [Holds,hre.factory]
      | insert | insert6 | setDownTarget | setDownTarget6 => cases hx
    | some y =>
      obtain ⟨t',o,u⟩ := y
      rw [holds_target hx,holds_target hx,hre.target]
      by_cases ho : o = g ∧ t' = t
      · obtain ⟨rfl,rfl⟩ := ho
        simp [hunset,eq_comm]
      · rw [if_neg ho]
        simp only [Option.some.injEq,Prod.mk.injEq]
        exact ⟨.inl,fun hor => hor.elim id fun e => absurd ⟨e.2.1,e.1⟩ ho⟩

theorem recorded_connectIp {w : World} {t : TypeId} (ht : Ip t) (h : Recorded w) (g : ℕ)
    (ip : Option ℕ) : Recorded (w.connectIp t g ip) := by
  cases ip with
  | none => exact h
  | some v =>
    cases hd : target w g t with
    | some v' => simpa [World.connectIp,hd] using h
    | none =>
      have hbind : w.connectIp t g (some v) = w.bindTarget t g v := by simp [World.connectIp,hd]
      have hre := connectIp_retargets ht w g (some v)
      rw [hbind] at hre ⊢
      rcases ht with rfl | rfl
      all_goals
        refine recorded_retarget h hre hd (List.append_assoc w.wires _ _) (by simp) fun x => ?_
        cases x <;> simp [wiredTarget,and_comm]

theorem recorded_connect {w : World} (h : Recorded w) (g : ℕ) (ipv4 ipv6 : Option ℕ) :
    Recorded (w.connect g ipv4 ipv6) :=
  recorded_connectIp (.inr rfl) (recorded_connectIp (.inl rfl) h g ipv4) g ipv6

theorem recorded_objects {w : World} (h : Recorded w) (g : Aggregation TypeId) :
    Recorded { w with objects := g } where
  once := h.once
  exact x := by
    rw [h.exact]
    cases x <;> rfl

section Rank

def Unwired (w : World) (o : ℕ) : Prop :=
  w.objects.typeOf o = some .helixL4Protocol ∧ (w.helix o).mNode = none

instance (w : World) (o : ℕ) : Decidable (Unwired w o) := inferInstanceAs (Decidable (_ ∧ _))

def unwired (w : World) : ℕ := ((Finset.range w.objects.next).filter (Unwired w)).card

theorem unwired_lt {w : World} {o : ℕ} (h : Unwired w o) : o < w.objects.next :=
  w.objects.typed_lt h.1

theorem unwired_le {w w' : World} (h : ∀ o, Unwired w' o → Unwired w o) :
    unwired w' ≤ unwired w := by
  refine Finset.card_le_card fun o ho => ?_
  rw [Finset.mem_filter] at ho ⊢
  exact ⟨Finset.mem_range.mpr (unwired_lt (h o ho.2)),h o ho.2⟩

theorem unwired_less {w w' : World} (g : ℕ) (h : ∀ o, Unwired w' o → Unwired w o)
    (hg : Unwired w g) (hg' : ¬ Unwired w' g) : unwired w' < unwired w := by
  refine Finset.card_lt_card ⟨fun o ho => ?_,fun hsub => hg' ?_⟩
  · have ho' := Finset.mem_filter.mp ho
    exact Finset.mem_filter.mpr ⟨Finset.mem_range.mpr (unwired_lt (h o ho'.2)),h o ho'.2⟩
  · have hmem := hsub (Finset.mem_filter.mpr ⟨Finset.mem_range.mpr (unwired_lt hg),hg⟩)
    exact (Finset.mem_filter.mp hmem).2

def weight : Stage → ℕ
  | .addHelix _ _ => 2
  | .addFactory _ _ => 1
  | _ => 0

def weights : List Stage → ℕ
  | [] => 0
  | s :: ss => weight s + weights ss

@[simp] theorem weights_cons (s : Stage) (ss : List Stage) :
    weights (s :: ss) = weight s + weights ss := rfl

@[simp] theorem weights_notes (notes : List ℕ) (ss : List Stage) :
    weights (notes.map .notify ++ ss) = weights ss := by
  induction notes with
  | nil => rfl
  | cons o notes ih => simpa [weight] using ih

def rank (c : Wiring) (ss : List Stage) : ℕ × ℕ :=
  (c.budget + unwired c.world + weights ss,ss.length)

def Lower (c : Wiring) (ss : List Stage) (c' : Wiring) (ss' : List Stage) : Prop :=
  Prod.Lex (· < ·) (· < ·) (rank c' ss') (rank c ss)

theorem lower_first {c c' : Wiring} {ss ss' : List Stage}
    (h : c'.budget + unwired c'.world + weights ss' < c.budget + unwired c.world + weights ss) :
    Lower c ss c' ss' := .left _ _ h

theorem lower_second {c c' : Wiring} {s : Stage} {ss : List Stage} (hs : weight s = 0)
    (hb : c'.budget = c.budget) (hu : unwired c'.world = unwired c.world) :
    Lower c (s :: ss) c' ss := by
  have hfirst : (rank c' ss).1 = (rank c (s :: ss)).1 := by simp [rank,hs,hb,hu]
  have hsecond : (rank c' ss).2 < (rank c (s :: ss)).2 := by simp [rank]
  exact Prod.lex_def.mpr (.inr ⟨hfirst,hsecond⟩)

end Rank

section Homes

/-- Every protocol stands alone or has a node in its aggregate, and is not
notified as long as it stands alone. -/
def Housed (w : World) (ss : List Stage) : Prop :=
  ∀ h, w.objects.typeOf h = some .helixL4Protocol →
    (∃ n ∈ w.objects.members h, w.objects.typeOf n = some .node) ∨
      ((∀ p ∈ w.objects.members h, p = h) ∧ .notify h ∉ ss)

structure Homeless (w : World) (ss : List Stage) (h : ℕ) : Prop where
  type : w.objects.typeOf h = some .helixL4Protocol
  pending : .notify h ∈ ss
  alone : ∀ n ∈ w.objects.members h, w.objects.typeOf n ≠ some .node

variable {w : World} {ss : List Stage}

theorem housed_restage {ss' : List Stage} (h : Housed w ss)
    (hss : ∀ g, .notify g ∈ ss' → .notify g ∈ ss) : Housed w ss' := fun g hg =>
  (h g hg).imp id fun hp => ⟨hp.1,fun hs => hp.2 (hss g hs)⟩

theorem housed_create {t : TypeId} (h : Housed w ss)
    (hnext : t = .helixL4Protocol → .notify w.objects.next ∉ ss) : Housed (w.create t) ss := by
  intro g hg
  rcases w.objects.create_typeOf.mp hg with hg | ⟨rfl,rfl⟩
  · exact (h g hg).imp (fun ⟨n,hn,hnt⟩ => ⟨n,hn,create_keeps t hnt⟩) id
  · exact .inr ⟨w.objects.members_next,hnext rfl⟩

theorem housed_merge {a b : ℕ} (h : Housed w ss) (hc : w.objects.Compatible a b)
    {notes : List ℕ} (hnotes : ∀ o ∈ notes, o ∈ w.objects.joined a b)
    (hnode : ∀ g ∈ w.objects.joined a b, w.objects.typeOf g = some .helixL4Protocol →
      ∃ n ∈ w.objects.joined a b, w.objects.typeOf n = some .node) :
    Housed (merged w a b hc) (notes.map .notify ++ ss) := by
  intro g hg
  by_cases hj : g ∈ w.objects.joined a b
  · obtain ⟨n,hn,hnt⟩ := hnode g hj hg
    exact .inl ⟨n,w.objects.merge_joined hc hj hn,hnt⟩
  · refine (h g hg).imp (fun ⟨n,hn,hnt⟩ => ⟨n,w.objects.merge_grows hc hn,hnt⟩) fun hp => ?_
    refine ⟨fun p hp' => hp.1 p ?_,?_⟩
    · have hsame : (merged w a b hc).objects.members g = w.objects.members g :=
        w.objects.merge_unjoined hc hj
      rwa [hsame] at hp'
    · simpa using ⟨fun hn => hj (hnotes g hn),hp.2⟩

theorem homeless_restage {ss' : List Stage} {g : ℕ} (h : Homeless w ss g)
    (hss : .notify g ∈ ss → .notify g ∈ ss') : Homeless w ss' g :=
  ⟨h.type,hss h.pending,h.alone⟩

theorem homeless_create {g : ℕ} (t : TypeId) (h : Homeless w ss g) :
    Homeless (w.create t) ss g where
  type := create_keeps t h.type
  pending := h.pending
  alone n hn := by
    have hlt := w.objects.member_lt (w.objects.typed_lt h.type) hn
    show (w.objects.create t).typeOf n ≠ _
    rw [w.objects.create_typeOf_old t hlt]
    exact h.alone n hn

theorem homeless_merge {a b g : ℕ} (h : Homeless w ss g) (hc : w.objects.Compatible a b)
    (notes : List ℕ) (hnode : g ∈ w.objects.joined a b →
      ∀ n ∈ w.objects.joined a b, w.objects.typeOf n ≠ some .node) :
    Homeless (merged w a b hc) (notes.map .notify ++ ss) g where
  type := h.type
  pending := List.mem_append_right _ h.pending
  alone n hn := by
    rcases (w.objects.merge_mem hc).mp hn with hn | ⟨hg,hn⟩
    · exact h.alone n hn
    · exact hnode hg n hn

end Homes

structure Between (c : Wiring) (ss : List Stage) : Prop where
  alive : c.aborted = none
  tasks : c.tasks = ss.map Stage.task
  wired : Wired c.world ss
  recorded : Recorded c.world

def Helping (w : World) (ss : List Stage) (h : ℕ) : Prop :=
  ∃ n helix, .addHelix n helix ∈ ss ∧ helix.getD w.objects.next = h

structure Advances (c : Wiring) (ss : List Stage) (c' : Wiring) (ss' : List Stage) : Prop where
  between : Between c' ss'
  lower : Lower c ss c' ss'
  housed : Housed c.world ss → Housed c'.world ss'
  homeless : ∀ g, Homeless c.world ss g → Homeless c'.world ss' g
  evolves : Evolves c.world c'.world fun h => HasIp c.world h ∨ Helping c.world ss h
  helped : ∀ h, Helping c.world ss h → (c'.world.helix h).mNode ≠ none
  begun : ∀ n helix, .addHelix n helix ∉ ss'

section Stages

variable {order : Order} {c : Wiring} {ss : List Stage}

theorem aggregate_accepted (order : Order) (c : Wiring) {a b : ℕ} (rest : List Task)
    (hc : c.world.objects.Compatible a b) : c.aggregate order a b rest = { c with
      world := merged c.world a b hc
      tasks := (order.arrange (c.world.objects.joined a b)).map .notify ++ rest } := by
  simp only [Wiring.aggregate,World.aggregate,dif_pos hc]
  rfl

theorem head_unhelping {w : World} {s : Stage} {P : Prop} {h : ℕ} (hw : Wired w (s :: ss))
    (hs : ∀ n helix, s ≠ .addHelix n helix) (hh : Helping w (s :: ss) h) : P := by
  obtain ⟨n,helix,hmem,_⟩ := hh
  have hss := (hw.addHelix n helix hmem).1
  exact absurd (List.cons.inj hss).1 (hs n helix)

theorem arranged (order : Order) {l : List ℕ} (o : ℕ) : o ∈ order.arrange l ↔ o ∈ l :=
  (order.perm l).mem_iff

theorem notes_tasks (notes : List ℕ) (ss : List Stage) :
    (notes.map Stage.notify ++ ss).map Stage.task =
      notes.map Task.notify ++ ss.map Stage.task := by
  simp [Function.comp_def,Stage.task]

theorem head_plain {w : World} {s : Stage} (h : Wired w (s :: ss))
    (hs : ∀ n helix, s ≠ .addHelix n helix) : ∀ n helix, .addHelix n helix ∉ ss := by
  intro n helix hmem
  have hss := (h.addHelix n helix (List.mem_cons_of_mem s hmem)).1
  exact hs n helix (List.cons.inj hss).1

theorem wired_pop {w : World} {s : Stage} (h : Wired w (s :: ss))
    (hs : ∀ n helix, .addHelix n helix ∉ ss) (hf : ∀ n g, s ≠ .addFactory n g)
    (ho : ∀ g, s = .notify g → w.objects.typeOf g = some .helixL4Protocol → ¬ Owes w g) :
    Wired w ss := by
  refine wired_restage h ?_ (fun g v4 v6 hg => h.connect g v4 v6 (List.mem_cons_of_mem s hg)) ?_ hs
  · intro g hg howes hmem
    rcases List.mem_cons.mp hmem with e | hmem
    · exact absurd howes (ho g e.symm hg)
    · exact hmem
  · intro n g
    rw [List.count_cons_of_ne (hf n g)]

theorem skip_advances {o : ℕ} (h : Between c (.notify o :: ss))
    (ho : c.world.objects.typeOf o ≠ some .helixL4Protocol) :
    Advances c (.notify o :: ss) { c with tasks := ss.map Stage.task } ss where
  between := {
    alive := h.alive
    tasks := rfl
    wired := by
      apply wired_pop h.wired (head_plain h.wired (by simp)) (by simp)
      rintro g e hg
      cases e
      exact absurd hg ho
    recorded := h.recorded }
  lower := lower_second rfl rfl rfl
  housed hh := housed_restage hh fun g hg => List.mem_cons_of_mem _ hg
  homeless g hg := homeless_restage hg fun hmem => by
    rcases List.mem_cons.mp hmem with e | hmem
    · cases e
      exact absurd hg.type ho
    · exact hmem
  evolves := evolves_refl _ _
  helped _ hh := head_unhelping h.wired (by simp) hh
  begun := head_plain h.wired (by simp)

theorem finish_advances (h : Between c (.finish :: ss)) :
    Advances c (.finish :: ss) { c with tasks := ss.map Stage.task } ss where
  between := {
    alive := h.alive
    tasks := rfl
    wired := wired_pop h.wired (head_plain h.wired (by simp)) (by simp) (by simp)
    recorded := h.recorded }
  lower := lower_second rfl rfl rfl
  housed hh := housed_restage hh fun g hg => List.mem_cons_of_mem _ hg
  homeless g hg := homeless_restage hg fun hmem => by simpa using hmem
  evolves := evolves_refl _ _
  helped _ hh := head_unhelping h.wired (by simp) hh
  begun := head_plain h.wired (by simp)

theorem unwired_connect (w : World) (g : ℕ) (ipv4 ipv6 : Option ℕ) :
    unwired (w.connect g ipv4 ipv6) = unwired w := by
  apply Nat.le_antisymm
  · exact unwired_le fun o => by simp [Unwired]
  · exact unwired_le fun o => by simp [Unwired]

theorem homeless_objects {w w' : World} {g : ℕ} (h : Homeless w ss g)
    (hw : w'.objects = w.objects) : Homeless w' ss g :=
  ⟨hw ▸ h.type,h.pending,hw ▸ h.alone⟩

theorem housed_objects {w w' : World} (h : Housed w ss) (hw : w'.objects = w.objects) :
    Housed w' ss := by
  unfold Housed
  rw [hw]
  exact h

theorem connect_advances {g : ℕ} {ipv4 ipv6 : Option ℕ}
    (h : Between c (.connect g ipv4 ipv6 :: ss)) :
    Advances c (.connect g ipv4 ipv6 :: ss)
      { c with world := c.world.connect g ipv4 ipv6, tasks := ss.map Stage.task } ss where
  between := {
    alive := h.alive
    tasks := rfl
    wired := by
      obtain ⟨hg,h4,h6⟩ := h.wired.connect g ipv4 ipv6 (by simp)
      have hw := wired_connect h.wired hg h4 h6
      exact wired_pop hw (head_plain h.wired (by simp)) (by simp) (by simp)
    recorded := recorded_connect h.recorded g ipv4 ipv6 }
  lower := lower_second rfl rfl (unwired_connect c.world g ipv4 ipv6)
  housed hh := housed_objects (housed_restage hh fun o ho => List.mem_cons_of_mem _ ho)
    (connect_objects c.world g ipv4 ipv6)
  homeless o ho := homeless_objects (homeless_restage ho fun hmem => by simpa using hmem)
    (connect_objects c.world g ipv4 ipv6)
  evolves := evolves_connect _ _ _ _ _
  helped _ hh := head_unhelping h.wired (by simp) hh
  begun := head_plain h.wired (by simp)

theorem getObject_bound (w : World) (g : ℕ) (t : TypeId) :
    Bound w g t (w.objects.getObject g t) := fun _ hv => w.objects.getObject_eq_some.mp hv

/-- A notification that finds nothing to publish connects what is there. -/
theorem notify_advances {g n : ℕ} (h : Between c (.notify g :: ss))
    (hg : c.world.objects.typeOf g = some .helixL4Protocol)
    (hn : c.world.objects.getObject g .node = some n)
    (hset : (c.world.helix g).mNode.isSome ∨ (c.world.objects.getObject g .ipv4 = none ∧
      c.world.objects.getObject g .ipv6 = none)) :
    Advances c (.notify g :: ss) { c with
      world := c.world.connect g (c.world.objects.getObject g .ipv4)
        (c.world.objects.getObject g .ipv6)
      tasks := ss.map Stage.task } ss where
  between := {
    alive := h.alive
    tasks := rfl
    wired := by
      have hw := wired_connect h.wired hg (getObject_bound _ g .ipv4) (getObject_bound _ g .ipv6)
      apply wired_pop hw (head_plain h.wired (by simp)) (by simp)
      rintro o e _ ⟨t,v,hip,hv,hvt,hor⟩
      obtain rfl : g = o := Stage.notify.inj e
      rw [connect_objects] at hv hvt
      have hfound : c.world.objects.getObject g t = some v :=
        c.world.objects.getObject_eq_some.mpr ⟨hv,hvt⟩
      rcases hor with hor | hor
      · rw [connect_target,if_pos rfl] at hor
        have hmissed := (Option.or_eq_none_iff.mp hor).2
        rcases hip with rfl | rfl <;> rw [hfound] at hmissed <;> cases hmissed
      · rw [connect_mNode] at hor
        rcases hset with hset | ⟨h4,h6⟩
        · rw [hor] at hset
          cases hset
        · rcases hip with rfl | rfl
          · rw [h4] at hfound
            cases hfound
          · rw [h6] at hfound
            cases hfound
    recorded := recorded_connect h.recorded g _ _ }
  lower := lower_second rfl rfl (unwired_connect c.world g _ _)
  housed hh := housed_objects (housed_restage hh fun o ho => List.mem_cons_of_mem _ ho)
    (connect_objects c.world g _ _)
  homeless o ho := by
    refine homeless_objects (homeless_restage ho fun hmem => ?_) (connect_objects c.world g _ _)
    rcases List.mem_cons.mp hmem with e | hmem
    · obtain rfl : o = g := Stage.notify.inj e
      obtain ⟨hmem,hnt⟩ := c.world.objects.getObject_eq_some.mp hn
      exact absurd hnt (ho.alone n hmem)
    · exact hmem
  evolves := evolves_connect _ _ _ _ _
  helped _ hh := head_unhelping h.wired (by simp) hh
  begun := head_plain h.wired (by simp)

theorem factory_unset {w : World} (h : Wired w ss) :
    (w.factory w.objects.next).mHelix = none := by
  cases hf : (w.factory w.objects.next).mHelix with
  | none => rfl
  | some g =>
    have hlt := w.objects.typed_lt (h.typed _ g hf)
    omega

theorem housed_factory {w : World} {n g : ℕ} (h : Housed w ss)
    (hn : w.objects.typeOf n = some .node)
    (hc : (w.createFactory g).objects.Compatible n w.objects.next) {notes : List ℕ}
    (hnotes : ∀ o ∈ notes, o ∈ (w.createFactory g).objects.joined n w.objects.next) :
    Housed (merged (w.createFactory g) n w.objects.next hc) (notes.map .notify ++ ss) := by
  have hcreated : Housed (w.createFactory g) ss :=
    housed_objects (housed_create h fun e => by cases e) rfl
  refine housed_merge hcreated hc hnotes fun _ _ _ => ⟨n,Aggregation.left_joined _,?_⟩
  exact (createFactory_typeOf g).mpr (.inl hn)

theorem homeless_factory {w : World} {n g o : ℕ} (h : Homeless w ss o)
    (hn : w.objects.typeOf n = some .node)
    (hc : (w.createFactory g).objects.Compatible n w.objects.next) (notes : List ℕ) :
    Homeless (merged (w.createFactory g) n w.objects.next hc) (notes.map .notify ++ ss) o := by
  have hcreated : Homeless (w.createFactory g) ss o :=
    homeless_objects (homeless_create .helixSocketFactory h) rfl
  refine homeless_merge hcreated hc notes fun hj => ?_
  rcases List.mem_append.mp hj with hj | hj
  · exact absurd hn (h.alone n (w.objects.mem_symm hj))
  · have ho := w.objects.members_next o hj
    have hlt := w.objects.typed_lt h.type
    omega

theorem unwired_factory (w : World) (n g : ℕ)
    (hc : (w.createFactory g).objects.Compatible n w.objects.next) :
    unwired (merged (w.createFactory g) n w.objects.next hc) ≤ unwired w := by
  refine unwired_le fun o ho => ⟨?_,ho.2⟩
  rcases (createFactory_typeOf g).mp ho.1 with ht | ⟨_,e⟩
  · exact ht
  · cases e

theorem addFactory_advances {n g : ℕ} (h : Between c (.addFactory n g :: ss)) :
    ∃ ss', Advances c (.addFactory n g :: ss)
      (({ c with world := c.world.createFactory g } : Wiring).aggregate order n
        c.world.objects.next (.resume (.pure ()) :: ss.map Stage.task)) ss' := by
  have hc := factory_compatible h.wired
  have hnt := (h.wired.node g n (h.wired.addFactory n g (by simp))).2.2
  rw [aggregate_accepted order _ _ hc]
  refine ⟨(order.arrange ((c.world.createFactory g).objects.joined n
    c.world.objects.next)).map .notify ++ .finish :: ss,?between,?lower,?housed,?homeless,
    evolves_factory hc _,
    fun o ho => head_unhelping h.wired (by simp) ho,
    by simpa using head_plain h.wired (by simp)⟩
  case between =>
    refine ⟨h.alive,?_,?_,
      recorded_objects (recorded_createFactory h.recorded (factory_unset h.wired)) _⟩
    · rw [notes_tasks]
      rfl
    · have hfinish : Wired c.world (.addFactory n g :: .finish :: ss) :=
        wired_restage h.wired (fun o _ _ ho => by simpa using ho)
          (fun o v4 v6 ho => h.wired.connect o v4 v6 (by simpa using ho))
          (fun m o => by simp [List.count_cons])
          (fun m helix hs => head_plain h.wired (by simp) m helix (by simpa using hs))
      exact wired_addFactory hfinish (by simpa using head_plain h.wired (by simp)) hc
        fun o ho => (arranged order o).mpr ho
  case lower =>
    apply lower_first
    have hu := unwired_factory c.world n g hc
    simp only [weights_notes,weights_cons,weight]
    omega
  case housed =>
    intro hh
    exact housed_factory (housed_restage hh fun o ho => by simpa using ho) hnt hc
      fun o ho => (arranged order o).mp ho
  case homeless =>
    intro o ho
    exact homeless_factory (homeless_restage ho fun hs => by simpa using hs) hnt hc _

theorem unwired_setNode {w : World} {g : ℕ} (n : ℕ)
    (hg : w.objects.typeOf g = some .helixL4Protocol) (hunset : (w.helix g).mNode = none) :
    unwired (w.setNode g (some n)) < unwired w := by
  refine unwired_less g (fun o ho => ⟨ho.1,?_⟩) ⟨hg,hunset⟩ ?_
  · by_cases hog : o = g
    · exact hog ▸ hunset
    · rw [← setNode_other w (some n) hog]
      exact ho.2
  · rintro ⟨_,ho⟩
    rw [setNode_same] at ho
    cases ho

theorem wired_publishing {w : World} {g n : ℕ} (h : Wired w (.notify g :: ss))
    (hg : w.objects.typeOf g = some .helixL4Protocol)
    (hn : w.objects.getObject g .node = some n) (hunset : (w.helix g).mNode = none) :
    Wired (w.setNode g (some n)) (.addFactory n g :: .notify g ::
      .connect g (w.objects.getObject g .ipv4) (w.objects.getObject g .ipv6) :: ss) := by
  obtain ⟨hmem,hnt⟩ := w.objects.getObject_eq_some.mp hn
  have hplain := head_plain h (by simp)
  have hconnect : Wired w (.notify g :: .connect g (w.objects.getObject g .ipv4)
      (w.objects.getObject g .ipv6) :: ss) := by
    refine wired_restage h (fun o _ _ ho => by simpa using ho) ?_
      (fun m o => by simp) (by simpa using hplain)
    intro o v4 v6 ho
    have ho' : (o = g ∧ v4 = w.objects.getObject g .ipv4 ∧
        v6 = w.objects.getObject g .ipv6) ∨ .connect o v4 v6 ∈ ss := by simpa using ho
    rcases ho' with ⟨rfl,rfl,rfl⟩ | ho
    · exact ⟨hg,getObject_bound _ o .ipv4,getObject_bound _ o .ipv6⟩
    · exact h.connect o v4 v6 (List.mem_cons_of_mem _ ho)
  exact wired_setNode hconnect (by simpa using hplain) hg hmem hnt hunset

/-- The factory joins the aggregate of its protocol, whose notification is then
due again: the one in progress may end. -/
theorem wired_published (order : Order) {w : World} {g n : ℕ}
    (h : Wired w (.addFactory n g :: .notify g :: ss)) (hno : ∀ m helix, .addHelix m helix ∉ ss)
    (hc : (w.createFactory g).objects.Compatible n w.objects.next) :
    Wired (merged (w.createFactory g) n w.objects.next hc)
      ((order.arrange ((w.createFactory g).objects.joined n w.objects.next)).map .notify ++
        ss) := by
  obtain ⟨_,hmem,_⟩ := h.node g n (h.addFactory n g (by simp))
  have hjoin : g ∈ (w.createFactory g).objects.joined n w.objects.next :=
    List.mem_append_left _ (w.objects.mem_symm hmem)
  have hw := wired_addFactory h (by simpa using hno) hc fun o ho => (arranged order o).mpr ho
  refine wired_restage hw ?_ ?_ ?_ (by simpa using hno)
  · intro o _ _ ho
    rcases List.mem_append.mp ho with ho | ho
    · exact List.mem_append_left _ ho
    · rcases List.mem_cons.mp ho with e | ho
      · obtain rfl : o = g := Stage.notify.inj e
        exact List.mem_append_left _ (List.mem_map_of_mem ((arranged order o).mpr hjoin))
      · exact List.mem_append_right _ ho
  · intro o v4 v6 ho
    exact hw.connect o v4 v6 (by simpa using ho)
  · intro m o
    simp

/-- A notification that publishes a factory first. -/
theorem publish_advances {g n : ℕ} (h : Between c (.notify g :: ss))
    (hg : c.world.objects.typeOf g = some .helixL4Protocol)
    (hn : c.world.objects.getObject g .node = some n) (hunset : (c.world.helix g).mNode = none)
    (hip : HasIp c.world g) : ∃ ss', Advances c (.notify g :: ss)
      (({ c with
        world := (c.world.setNode g (some n)).createFactory g } : Wiring).aggregate order n
          c.world.objects.next (.resume (connectDownTargets g (c.world.objects.getObject g .ipv4)
            (c.world.objects.getObject g .ipv6)) :: ss.map Stage.task)) ss' := by
  obtain ⟨hmem,hnt⟩ := c.world.objects.getObject_eq_some.mp hn
  have hplain := head_plain h.wired (by simp)
  have hnode := wired_publishing h.wired hg hn hunset
  have hc := factory_compatible hnode
  rw [aggregate_accepted order _ _ hc]
  refine ⟨(order.arrange (((c.world.setNode g (some n)).createFactory g).objects.joined n
    c.world.objects.next)).map .notify ++ .connect g (c.world.objects.getObject g .ipv4)
      (c.world.objects.getObject g .ipv6) :: ss,?between,?lower,?housed,?homeless,
    evolves_trans (evolves_setNode hunset (.inl hip)) (evolves_factory hc _),
    fun o ho => head_unhelping h.wired (by simp) ho,by simpa using hplain⟩
  case between =>
    refine ⟨h.alive,?_,?_,recorded_objects (recorded_createFactory
      (recorded_setNode h.recorded hunset) (factory_unset hnode)) _⟩
    · rw [notes_tasks]
      rfl
    · exact wired_published order hnode (by simpa using hplain) hc
  case lower =>
    apply lower_first
    have hset := unwired_setNode n hg hunset
    have hu : unwired (merged ((c.world.setNode g (some n)).createFactory g) n
        c.world.objects.next hc) ≤ unwired (c.world.setNode g (some n)) :=
      unwired_factory _ n g hc
    simp only [weights_notes,weights_cons,weight]
    omega
  case housed =>
    intro hh
    have hstart : Housed (c.world.setNode g (some n)) (.connect g
        (c.world.objects.getObject g .ipv4) (c.world.objects.getObject g .ipv6) :: ss) :=
      housed_objects (housed_restage hh fun o ho => List.mem_cons_of_mem _ (by simpa using ho)) rfl
    exact housed_factory hstart hnt hc fun o ho => (arranged order o).mp ho
  case homeless =>
    intro o ho
    have hstart : Homeless (c.world.setNode g (some n)) (.connect g
        (c.world.objects.getObject g .ipv4) (c.world.objects.getObject g .ipv6) :: ss) o := by
      refine homeless_objects (homeless_restage ho fun hs => ?_) rfl
      rcases List.mem_cons.mp hs with e | hs
      · obtain rfl : o = g := Stage.notify.inj e
        exact absurd hnt (ho.alone n hmem)
      · exact List.mem_cons_of_mem _ hs
    exact homeless_factory hstart hnt hc _

theorem other_advances {o : ℕ} {t : TypeId} (h : Between c (.notify o :: ss))
    (ho : c.world.objects.typeOf o ≠ some .helixL4Protocol) (ht : Published t = true)
    (hb : 0 < c.budget) (hc : (c.world.create t).objects.Compatible o c.world.objects.next) :
    ∃ ss', Advances c (.notify o :: ss) (({ c with
      world := c.world.create t
      budget := c.budget-1 } : Wiring).aggregate order o c.world.objects.next c.tasks) ss' := by
  obtain ⟨⟨htn,hth⟩,htf⟩ : (t ≠ .node ∧ t ≠ .helixL4Protocol) ∧ t ≠ .helixSocketFactory := by
    simpa [Published] using ht
  have hplain : ∀ n helix, .addHelix n helix ∉ Stage.notify o :: ss := by
    simpa using head_plain h.wired (by simp)
  have old : ∀ {p t'}, t ≠ t' → (c.world.create t).objects.typeOf p = some t' →
      c.world.objects.typeOf p = some t' := fun hne hp =>
    (c.world.objects.create_typeOf.mp hp).elim id fun e => absurd e.2 hne
  have side : ∀ {g}, g ∈ (c.world.create t).objects.joined o c.world.objects.next →
      c.world.objects.typeOf g = some .helixL4Protocol → g ∈ c.world.objects.members o := by
    intro g hj hg
    refine (List.mem_append.mp hj).elim id fun hnew => ?_
    have hnext := c.world.objects.members_next g hnew
    have hlt := c.world.objects.typed_lt hg
    omega
  rw [aggregate_accepted order _ _ hc]
  refine ⟨(order.arrange ((c.world.create t).objects.joined o
    c.world.objects.next)).map .notify ++ .notify o :: ss,?between,?lower,?housed,?homeless,
    evolves_trans (evolves_create _ t _) (evolves_merge hc _),
    fun g hg => head_unhelping h.wired (by simp) hg,by simpa using hplain⟩
  case between =>
    refine ⟨h.alive,?_,?_,recorded_objects h.recorded _⟩
    · rw [notes_tasks,← h.tasks]
    · exact wired_merge (wired_create h.wired htf) hc hplain fun p hp => (arranged order p).mpr hp
  case lower =>
    apply lower_first
    have hu : unwired (merged (c.world.create t) o c.world.objects.next hc) ≤
        unwired c.world := unwired_le fun p hp => ⟨old hth hp.1,hp.2⟩
    simp only [weights_notes,weights_cons,weight]
    omega
  case housed =>
    intro hh
    refine housed_merge (housed_create hh fun e => absurd e hth) hc
      (fun p hp => (arranged order p).mp hp) fun g hj hg => ?_
    have hg' := old hth hg
    rcases hh g hg' with ⟨n,hn,hnt⟩ | ⟨halone,_⟩
    · exact ⟨n,List.mem_append_left _ (c.world.objects.mem_trans (side hj hg') hn),
        create_keeps t hnt⟩
    · have hog := halone o (c.world.objects.mem_symm (side hj hg'))
      exact absurd (hog ▸ hg') ho
  case homeless =>
    intro g hg
    refine homeless_merge (homeless_create t hg) hc _ fun hj n hn hnt => ?_
    have hnt' := old htn hnt
    rcases List.mem_append.mp hn with hn | hn
    · exact hg.alone n (c.world.objects.mem_trans
        (c.world.objects.mem_symm (side hj hg.type)) hn) hnt'
    · have hnext := c.world.objects.members_next n hn
      have hlt := c.world.objects.typed_lt hnt'
      omega

section AddHelix

variable {w : World} {n g : ℕ}

theorem accepts_compatible {w : World} {n g : ℕ} (h : Accepts w n (some g)) :
    w.objects.Compatible n g where
  left := w.objects.typed_lt h.1
  right := w.objects.typed_lt (h.2.2 g rfl).1
  types p hp q hq := by
    obtain ⟨hgt,halone⟩ := h.2.2 g rfl
    obtain rfl := halone q hq
    rw [hgt]
    exact w.objects.getObject_eq_none.mp h.2.1 p hp

theorem accepts_unset {w : World} {n g : ℕ} (hw : Wired w []) (h : Accepts w n (some g)) :
    (w.helix g).mNode = none := by
  obtain ⟨hgt,halone⟩ := h.2.2 g rfl
  cases hm : (w.helix g).mNode with
  | none => rfl
  | some m =>
    obtain ⟨_,hmem,hmt⟩ := hw.node g m hm
    obtain rfl := halone m hmem
    rw [hgt] at hmt
    cases hmt

/-- The first half of `AddHelix`: the new protocol is told its node and joins
its aggregate, and the factory is still to come. -/
theorem wired_addHelix (hw : Wired w []) (ha : Accepts w n (some g))
    (hc : (w.setNode g (some n)).objects.Compatible n g) {notes : List ℕ}
    (hnotes : ∀ o ∈ w.objects.joined n g, o ∈ notes) :
    Wired (merged (w.setNode g (some n)) n g hc) (notes.map .notify ++ [.addFactory n g]) := by
  have hjoined := wired_merge hw hc (by simp) hnotes
  have hmem : n ∈ (merged w n g hc).objects.members g :=
    w.objects.merge_joined hc (w.objects.right_joined) (w.objects.left_joined)
  have hunset : (w.helix g).mNode = none := accepts_unset hw ha
  have hset : Wired (merged (w.setNode g (some n)) n g hc)
      (.addFactory n g :: (notes.map .notify ++ [])) :=
    wired_setNode hjoined (by simp) (ha.2.2 g rfl).1 hmem ha.1 hunset
  have hperm : (notes.map Stage.notify ++ [Stage.addFactory n g]).Perm
      (Stage.addFactory n g :: (notes.map Stage.notify ++ [])) := by
    rw [List.append_nil]
    exact List.perm_append_singleton _ _
  refine wired_restage hset (fun o _ _ ho => hperm.mem_iff.mpr ho)
    (fun o v4 v6 ho => hset.connect o v4 v6 (hperm.mem_iff.mp ho)) (fun m o => hperm.count_eq _)
    (by simp)

theorem housed_addHelix (hh : Housed w []) (ha : Accepts w n (some g))
    (hc : (w.setNode g (some n)).objects.Compatible n g) {notes : List ℕ}
    (hnotes : ∀ o ∈ notes, o ∈ w.objects.joined n g) :
    Housed (merged (w.setNode g (some n)) n g hc) (notes.map .notify ++ [.addFactory n g]) := by
  have hstart : Housed (w.setNode g (some n)) [.addFactory n g] :=
    housed_objects (housed_restage hh fun o ho => by simp at ho) rfl
  exact housed_merge hstart hc hnotes fun _ _ _ => ⟨n,w.objects.left_joined,ha.1⟩

theorem unwired_addHelix (w : World) (n g : ℕ)
    (hc : (w.setNode g (some n)).objects.Compatible n g) :
    ∀ o, Unwired (merged (w.setNode g (some n)) n g hc) o → Unwired w o ∧ o ≠ g := by
  rintro o ⟨hot,hom⟩
  have hog : o ≠ g := by
    rintro rfl
    have hset := setNode_same w o (some n)
    cases hset.symm.trans hom
  refine ⟨⟨hot,?_⟩,hog⟩
  have hother := setNode_other w (some n) hog
  exact hother ▸ hom

end AddHelix

theorem join_advances {w : World} {n g : ℕ} {helix : Option ℕ}
    (h : Between c [.addHelix n helix]) (hw : Wired w []) (hr : Recorded w)
    (ha : Accepts w n (some g)) (hu : ∀ o, Unwired w o → o ≠ g → Unwired c.world o)
    (hh : Housed c.world [.addHelix n helix] → Housed w [])
    (hwho : helix.getD c.world.objects.next = g) (hevolves : ∀ A, Evolves c.world w A) :
    ∃ ss', Advances c [.addHelix n helix]
      (({ c with world := w.setNode g (some n) } : Wiring).aggregate order n g
        [.resume (addFactory n g)]) ss' := by
  have hc : (w.setNode g (some n)).objects.Compatible n g := accepts_compatible ha
  rw [aggregate_accepted order { c with world := w.setNode g (some n) } _ hc]
  refine ⟨(order.arrange (w.objects.joined n g)).map .notify ++ [.addFactory n g],?between,?lower,
    ?housed,?homeless,?evolves,?helped,by simp⟩
  case between =>
    refine ⟨h.alive,?_,?_,recorded_objects (recorded_setNode hr (accepts_unset hw ha)) _⟩
    · rw [notes_tasks]
      rfl
    · exact wired_addHelix hw ha hc fun o ho => (arranged order o).mpr ho
  case lower =>
    apply lower_first
    have hless : unwired (merged (w.setNode g (some n)) n g hc) ≤ unwired c.world := by
      refine unwired_le fun o ho => ?_
      obtain ⟨ho,hog⟩ := unwired_addHelix w n g hc o ho
      exact hu o ho hog
    simp only [weights_notes,weights_cons,weight]
    omega
  case housed =>
    intro hhoused
    exact housed_addHelix (hh hhoused) ha hc fun o ho => (arranged order o).mp ho
  case homeless =>
    intro o ho
    have hpending := ho.pending
    simp at hpending
  case evolves =>
    exact evolves_trans (hevolves _) (evolves_trans (evolves_setNode (accepts_unset hw ha)
      (.inr ⟨n,helix,by simp,hwho⟩)) (evolves_merge hc _))
  case helped =>
    rintro o ⟨m,helix',hs,ho⟩
    obtain ⟨rfl,rfl⟩ : m = n ∧ helix' = helix := by simpa using hs
    obtain rfl : o = g := ho.symm.trans hwho
    exact fun hm => by cases (setNode_same w o (some m)).symm.trans hm

theorem addHelix_advances {n : ℕ} {helix : Option ℕ} (h : Between c (.addHelix n helix :: ss)) :
    ∃ ss', Advances c (.addHelix n helix :: ss)
      (c.land order (ss.map Stage.task) (advance operations (addHelix n helix) c.world)) ss' := by
  obtain ⟨hss,ha⟩ := h.wired.addHelix n helix (by simp)
  obtain rfl : ss = [] := (List.cons.inj hss).2
  have hidle : Wired c.world [] := wired_pop h.wired (by simp) (by simp) (by simp)
  have hhoused : Housed c.world [.addHelix n helix] → Housed c.world [] :=
    fun hh => housed_restage hh fun o ho => by simp at ho
  cases helix with
  | some g =>
    exact join_advances h hidle h.recorded ha (fun o ho _ => ho) hhoused rfl (evolves_refl _)
  | none =>
    have hcreated : Wired (c.world.create .helixL4Protocol) [] := wired_create hidle (by simp)
    obtain ⟨hnt,hnone,_⟩ := accepts_create .helixL4Protocol ha
    have ha' : Accepts (c.world.create .helixL4Protocol) n (some c.world.objects.next) := by
      refine ⟨hnt,hnone,?_⟩
      rintro _ ⟨rfl⟩
      exact ⟨Aggregation.create_typeOf_new _ _,c.world.objects.members_next⟩
    refine join_advances h hcreated (recorded_objects h.recorded _) ha' ?_ ?_ rfl
      (evolves_create _ _)
    · rintro o ⟨hot,hom⟩ hog
      exact ⟨(c.world.objects.create_typeOf.mp hot).elim id fun e => absurd e.1 hog,hom⟩
    · exact fun hh => housed_create (hhoused hh) fun _ => by simp

theorem head_stage {x : Task} {rest : List Task} (h : ss.map Stage.task = x :: rest) :
    ∃ s ss', ss = s :: ss' ∧ s.task = x ∧ ss'.map Stage.task = rest := by
  cases ss with
  | nil => cases h
  | cons s ss' => exact ⟨s,ss',rfl,(List.cons.inj h).1,(List.cons.inj h).2⟩

theorem head_notify {s : Stage} {o : ℕ} (h : s.task = .notify o) : s = .notify o := by
  cases s with
  | notify p => exact congrArg _ (Task.notify.inj h)
  | connect | addHelix | addFactory | finish => cases h

/-- A notified protocol either goes on or has no node. -/
theorem protocol_advances {g : ℕ} (h : Between c (.notify g :: ss))
    (hg : c.world.objects.typeOf g = some .helixL4Protocol) :
    (∃ ss', Advances c (.notify g :: ss) (c.land order (ss.map Stage.task)
      (advance operations (notifyNewAggregate g) c.world)) ss') ∨
    ((c.land order (ss.map Stage.task)
      (advance operations (notifyNewAggregate g) c.world)).aborted = some .nullDereference ∧
      Homeless c.world (.notify g :: ss) g) := by
  cases hn : c.world.objects.getObject g .node with
  | none =>
    rw [notify_null c.world g hn]
    refine .inr ⟨rfl,hg,by simp,?_⟩
    exact c.world.objects.getObject_eq_none.mp hn
  | some n =>
    have hmem := (c.world.objects.getObject_eq_some.mp hn).1
    have hsame := c.world.objects.getObject_same .ipv6 hmem
    by_cases hset : (c.world.helix g).mNode.isSome ∨
      (c.world.objects.getObject g .ipv4 = none ∧ c.world.objects.getObject g .ipv6 = none)
    · rw [notify_connects c.world g n hn (by rwa [hsame]),hsame]
      exact .inl ⟨ss,notify_advances h hg hn hset⟩
    · rw [not_or,not_and_or] at hset
      have hunset : (c.world.helix g).mNode = none := by simpa using hset.1
      have hip : (c.world.objects.getObject g .ipv4).isSome ∨
          (c.world.objects.getObject n .ipv6).isSome := by
        rw [hsame]
        simpa [Option.isSome_iff_ne_none] using hset.2
      have hhas : HasIp c.world g := by
        rw [hsame] at hip
        rcases hip with hip | hip
        · obtain ⟨v,hv⟩ := Option.isSome_iff_exists.mp hip
          exact ⟨.ipv4,v,.inl rfl,c.world.objects.getObject_eq_some.mp hv⟩
        · obtain ⟨v,hv⟩ := Option.isSome_iff_exists.mp hip
          exact ⟨.ipv6,v,.inr rfl,c.world.objects.getObject_eq_some.mp hv⟩
      rw [notify_publishes c.world g n hn hunset hip,hsame]
      exact .inl (publish_advances h hg hn hunset hhas)

/-- A nested step goes on, unless it notifies a protocol that has no node. -/
theorem nested_advances {c' : Wiring} (h : Between c ss) (hstep : Nested c c') :
    (∃ ss', Advances c ss c' ss') ∨ (c'.aborted = some .nullDereference ∧
      ∃ g, Homeless c.world ss g) := by
  have htasks := h.tasks
  rcases hstep with ⟨_,order,hexec⟩ | ⟨t,_,order,hexec⟩
  · cases exec_executes hexec with
    | notify g rest hs hg =>
      obtain ⟨s,ss',rfl,hx,rfl⟩ := head_stage (htasks.symm.trans hs)
      obtain rfl := head_notify hx
      exact (protocol_advances h hg).imp id fun ha => ⟨ha.1,g,ha.2⟩
    | skip o rest hs ho =>
      obtain ⟨s,ss',rfl,hx,rfl⟩ := head_stage (htasks.symm.trans hs)
      obtain rfl := head_notify hx
      exact .inl ⟨ss',skip_advances h ho⟩
    | resume p rest hs =>
      obtain ⟨s,ss',rfl,hx,rfl⟩ := head_stage (htasks.symm.trans hs)
      cases s with
      | notify o => cases hx
      | connect g ipv4 ipv6 =>
        obtain rfl := Task.resume.inj hx
        rw [connectDownTargets_runs]
        exact .inl ⟨ss',connect_advances h⟩
      | addHelix n helix =>
        obtain rfl := Task.resume.inj hx
        exact .inl (addHelix_advances h)
      | addFactory n g =>
        obtain rfl := Task.resume.inj hx
        rw [addFactory_runs]
        exact .inl (addFactory_advances h)
      | finish =>
        obtain rfl := Task.resume.inj hx
        exact .inl ⟨ss',finish_advances h⟩
  · cases exec_executes hexec with
    | publish t o rest hs ho ht hb hc =>
      obtain ⟨s,ss',rfl,hx,rfl⟩ := head_stage (htasks.symm.trans hs)
      obtain rfl := head_notify hx
      exact .inl (other_advances h ho ht hb hc)

end Stages

end Ns3Helix.StackSteps
