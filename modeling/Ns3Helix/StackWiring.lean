import Ns3Helix.StackSteps

/-!
# The stack is wired exactly once

Runs of the wiring, from no objects at all: objects are created, grouped and
set up in any order, and every grouping is followed by its notifications.
-/

set_option autoImplicit false

namespace Ns3Helix.StackWiring
open Ns3Helix.ObjectAggregation Ns3Helix.HelixStack Ns3Helix.StackMachine
open Ns3Helix.StackInvariant Ns3Helix.StackSteps Ns3Helix.TransitionSystem

def Strands (w : World) (a b : ℕ) : Prop :=
  ∃ g ∈ w.objects.joined a b, w.objects.typeOf g = some .helixL4Protocol ∧
    ∀ n ∈ w.objects.joined a b, w.objects.typeOf n ≠ some .node

instance (w : World) (a b : ℕ) : Decidable (Strands w a b) :=
  inferInstanceAs (Decidable (∃ g ∈ w.objects.joined a b, _ ∧
    ∀ n ∈ w.objects.joined a b, w.objects.typeOf n ≠ some .node))

def Stranded (tr : List (Wiring × Event)) : Prop :=
  ∃ s a b, (s,.aggregate a b) ∈ tr ∧ Strands s.world a b

def Event.strands (w : World) : Event → Bool
  | .aggregate a b => decide (Strands w a b)
  | _ => false

theorem stranded_iff {tr : List (Wiring × Event)} :
    Stranded tr ↔ ∃ x ∈ tr, Event.strands x.1.world x.2 = true := by
  constructor
  · rintro ⟨s,a,b,hmem,hs⟩
    exact ⟨_,hmem,decide_eq_true hs⟩
  · rintro ⟨⟨s,e⟩,hmem,hs⟩
    cases e with
    | aggregate a b => exact ⟨s,a,b,hmem,of_decide_eq_true hs⟩
    | create | addHelix | allow | publish | proceed => cases hs

instance (tr : List (Wiring × Event)) : Decidable (Stranded tr) :=
  decidable_of_iff _ stranded_iff.symm

def Refused (tr : List (Wiring × Event)) : Prop :=
  ∃ s n helix, (s,.addHelix n helix) ∈ tr ∧ ¬ Accepts s.world n helix

def Event.refuses (w : World) : Event → Bool
  | .addHelix n helix => decide (¬ Accepts w n helix)
  | _ => false

theorem refused_iff {tr : List (Wiring × Event)} :
    Refused tr ↔ ∃ x ∈ tr, Event.refuses x.1.world x.2 = true := by
  constructor
  · rintro ⟨s,n,helix,hmem,hs⟩
    exact ⟨_,hmem,decide_eq_true hs⟩
  · rintro ⟨⟨s,e⟩,hmem,hs⟩
    cases e with
    | addHelix n helix => exact ⟨s,n,helix,hmem,of_decide_eq_true hs⟩
    | create | aggregate | allow | publish | proceed => cases hs

instance (tr : List (Wiring × Event)) : Decidable (Refused tr) :=
  decidable_of_iff _ refused_iff.symm

def Helped (tr : List (Wiring × Event)) (h : ℕ) : Prop :=
  ∃ s n helix, (s,Event.addHelix n helix) ∈ tr ∧ helix.getD s.world.objects.next = h

structure Origin (tr : List (Wiring × Event)) (w : World) (ss : List Stage) : Prop where
  set : ∀ h n, (w.helix h).mNode = some n → Helped tr h ∨ HasIp w h
  helped : ∀ h, Helped tr h → (w.helix h).mNode ≠ none ∨ Helping w ss h
  helping : ∀ h, Helping w ss h → Helped tr h

theorem hasIp_evolves {w w' : World} {A : ℕ → Prop} (h : Evolves w w' A) {g : ℕ}
    (hg : HasIp w g) : HasIp w' g := by
  obtain ⟨t,v,hip,hv,hvt⟩ := hg
  exact ⟨t,v,hip,h.members hv,h.typeOf hvt⟩

section Origins

variable {tr : List (Wiring × Event)} {c c' : Wiring} {e : Event} {ss ss' : List Stage}

theorem helped_snoc (h : ℕ) : Helped (tr++[(c,e)]) h ↔
    Helped tr h ∨ ∃ n helix, e = .addHelix n helix ∧ helix.getD c.world.objects.next = h := by
  constructor
  · rintro ⟨s,n,helix,hmem,hh⟩
    rcases List.mem_append.mp hmem with hmem | hmem
    · exact .inl ⟨s,n,helix,hmem,hh⟩
    · obtain ⟨rfl,rfl⟩ : s = c ∧ .addHelix n helix = e := by simpa using hmem
      exact .inr ⟨n,helix,rfl,hh⟩
  · rintro (⟨s,n,helix,hmem,hh⟩ | ⟨n,helix,rfl,hh⟩)
    · exact ⟨s,n,helix,List.mem_append_left _ hmem,hh⟩
    · exact ⟨c,n,helix,by simp,hh⟩

theorem stranded_snoc : Stranded (tr++[(c,e)]) ↔
    Stranded tr ∨ ∃ a b, e = .aggregate a b ∧ Strands c.world a b := by
  constructor
  · rintro ⟨s,a,b,hmem,hh⟩
    rcases List.mem_append.mp hmem with hmem | hmem
    · exact .inl ⟨s,a,b,hmem,hh⟩
    · obtain ⟨rfl,rfl⟩ : s = c ∧ .aggregate a b = e := by simpa using hmem
      exact .inr ⟨a,b,rfl,hh⟩
  · rintro (⟨s,a,b,hmem,hh⟩ | ⟨a,b,rfl,hh⟩)
    · exact ⟨s,a,b,List.mem_append_left _ hmem,hh⟩
    · exact ⟨c,a,b,by simp,hh⟩

theorem origin_step (h : Origin tr c.world ss)
    (hev : Evolves c.world c'.world fun g => HasIp c.world g ∨ Helping c.world ss g)
    (hdone : ∀ g, Helping c.world ss g → (c'.world.helix g).mNode ≠ none)
    (hnew : ∀ g, Helping c'.world ss' g ↔
      ∃ n helix, e = .addHelix n helix ∧ helix.getD c.world.objects.next = g) :
    Origin (tr++[(c,e)]) c'.world ss' where
  set g n hg := by
    rw [helped_snoc]
    rcases hev.cause g n hg with hg | hip | hg
    · exact (h.set g n hg).imp .inl (hasIp_evolves hev)
    · exact .inr (hasIp_evolves hev hip)
    · exact .inl (.inl (h.helping g hg))
  helped g hg := by
    rw [helped_snoc] at hg
    rcases hg with hg | hg
    · rcases h.helped g hg with hset | hhelp
      · obtain ⟨n,hn⟩ := Option.ne_none_iff_exists'.mp hset
        exact .inl (by rw [hev.kept g n hn]; simp)
      · exact .inl (hdone g hhelp)
    · exact .inr ((hnew g).mpr hg)
  helping g hg := by
    rw [helped_snoc]
    exact .inr ((hnew g).mp hg)

end Origins

theorem housed_homed {w : World} {ss : List Stage} (h : Housed w ss) (g : ℕ) :
    ¬ Homeless w ss g := by
  intro hg
  rcases h g hg.type with ⟨n,hn,hnt⟩ | ⟨_,hs⟩
  · exact hg.alone n hn hnt
  · exact hs hg.pending

/-- A run so far: no aggregate was stranded and every protocol has a home, or
one was and its notification is still to come. -/
structure Sound (tr : List (Wiring × Event)) (c : Wiring) (ss : List Stage) : Prop where
  between : Between c ss
  origin : Origin tr c.world ss
  homes : (¬ Stranded tr ∧ Housed c.world ss) ∨ (Stranded tr ∧ ∃ g, Homeless c.world ss g)

section Steps

variable {tr : List (Wiring × Event)} {c c' : Wiring} {e : Event} {ss : List Stage}

theorem nested_sound (h : Sound tr c ss) (hstep : Nested c c') (he : ∀ a b, e ≠ .aggregate a b)
    (he' : ∀ n helix, e ≠ .addHelix n helix) :
    (∃ ss', Sound (tr++[(c,e)]) c' ss') ∨
      (Stranded (tr++[(c,e)]) ∧ c'.aborted = some .nullDereference) := by
  have hsame : Stranded (tr++[(c,e)]) ↔ Stranded tr := by simp [stranded_snoc,he]
  rw [hsame]
  rcases nested_advances h.between hstep with ⟨ss',ha⟩ | ⟨habort,g,hg⟩
  · refine .inl ⟨ss',ha.between,?_,?_⟩
    · refine origin_step h.origin ha.evolves ha.helped fun g => ?_
      simp only [he',false_and,exists_const,iff_false]
      rintro ⟨n,helix,hs,_⟩
      exact ha.begun n helix hs
    · rw [hsame]
      exact h.homes.imp (fun hh => ⟨hh.1,ha.housed hh.2⟩)
        fun hh => ⟨hh.1,hh.2.imp fun g => ha.homeless g⟩
  · refine .inr ⟨?_,habort⟩
    rcases h.homes with ⟨_,hh⟩ | ⟨hs,_⟩
    · exact absurd hg (housed_homed hh g)
    · exact hs

theorem wired_accept {w : World} {n : ℕ} {helix : Option ℕ} (h : Wired w [])
    (ha : Accepts w n helix) : Wired w [.addHelix n helix] where
  node := h.node
  target := h.target
  owner f hf := by
    obtain ⟨g,hg,hgt,hfg,hset,_⟩ := h.owner f hf
    exact ⟨g,hg,hgt,hfg,hset,by simp⟩
  typed := h.typed
  factory g m hg := (h.factory g m hg).imp id (by simp)
  pending g hg ho := absurd (h.pending g hg ho) (by simp)
  connect g ipv4 ipv6 hs := by simp at hs
  addFactory m g hs := by simp at hs
  once m g := by simp
  addHelix m helix' hs := by
    obtain ⟨rfl,rfl⟩ : m = n ∧ helix' = helix := by simpa using hs
    exact ⟨rfl,ha⟩

theorem idle_stages (h : Between c ss) (hidle : c.tasks = []) : ss = [] :=
  List.map_eq_nil_iff.mp (h.tasks.symm.trans hidle)

theorem unhelping (w : World) (g : ℕ) : ¬ Helping w [] g := by
  rintro ⟨n,helix,hs,_⟩
  cases hs

theorem notes_unhelping (w : World) (notes : List ℕ) (g : ℕ) :
    ¬ Helping w (notes.map .notify) g := by
  rintro ⟨n,helix,hs,_⟩
  simp at hs

theorem create_sound {t : TypeId} (h : Sound tr c []) (hidle : c.tasks = [])
    (ht : t ≠ .helixSocketFactory) :
    Sound (tr++[(c,.create t)]) { c with world := c.world.create t } [] where
  between := ⟨h.between.alive,hidle,wired_create h.between.wired ht,
    recorded_objects h.between.recorded _⟩
  origin := origin_step h.origin (evolves_create _ t _) (fun g hg => (unhelping _ g hg).elim)
    fun g => by simpa using unhelping _ g
  homes := by
    rw [stranded_snoc]
    rcases h.homes with ⟨hs,hh⟩ | ⟨_,g,hg⟩
    · exact .inl ⟨by simpa using hs,housed_create hh fun _ => by simp⟩
    · cases hg.pending

theorem merge_sound (order : Order) {a b : ℕ} (h : Sound tr c [])
    (hc : c.world.objects.Compatible a b) :
    ∃ ss', Sound (tr++[(c,.aggregate a b)]) (c.aggregate order a b []) ss' := by
  rw [aggregate_accepted order c [] hc]
  refine ⟨(order.arrange (c.world.objects.joined a b)).map .notify,?_,?_,?_⟩
  · have hwired := wired_merge h.between.wired hc (by simp)
      fun o ho => (arranged order o).mpr ho
    refine ⟨h.between.alive,?_,by simpa using hwired,recorded_objects h.between.recorded _⟩
    simp [Function.comp_def,Stage.task]
  · exact origin_step h.origin (evolves_merge hc _) (fun g hg => (unhelping _ g hg).elim)
      fun g => by simpa using notes_unhelping _ _ g
  · rw [stranded_snoc]
    rcases h.homes with ⟨hs,hh⟩ | ⟨_,g,hg⟩
    · by_cases hstrands : Strands c.world a b
      · obtain ⟨g,hj,hg,hnone⟩ := hstrands
        refine .inr ⟨.inr ⟨a,b,rfl,g,hj,hg,hnone⟩,g,hg,?_,fun n hn => ?_⟩
        · exact List.mem_map_of_mem ((arranged order g).mpr hj)
        · rcases (c.world.objects.merge_mem hc).mp hn with hn | ⟨_,hn⟩
          · exact hnone n (c.world.objects.joined_same hj hn)
          · exact hnone n hn
      · refine .inl ⟨?_,?_⟩
        · rintro (hs' | ⟨a',b',e,hs'⟩)
          · exact hs hs'
          · obtain ⟨rfl,rfl⟩ := Event.aggregate.inj e
            exact hstrands hs'
        · have hmerged := housed_merge hh hc (fun o ho => (arranged order o).mp ho)
            fun g hj hg => by
              by_contra hnone
              exact hstrands ⟨g,hj,hg,fun n hn hnt => hnone ⟨n,hn,hnt⟩⟩
          simpa using hmerged
    · cases hg.pending

theorem accept_sound {n : ℕ} {helix : Option ℕ} (h : Sound tr c [])
    (ha : Accepts c.world n helix) : Sound (tr++[(c,.addHelix n helix)])
      { c with tasks := [.resume (HelixStack.addHelix n helix)] } [.addHelix n helix] where
  between := ⟨h.between.alive,rfl,wired_accept h.between.wired ha,h.between.recorded⟩
  origin := by
    refine origin_step h.origin (evolves_refl _ _) (fun g hg => (unhelping _ g hg).elim) fun g => ?_
    constructor
    · rintro ⟨m,helix',hs,hg⟩
      obtain ⟨rfl,rfl⟩ : m = n ∧ helix' = helix := by simpa using hs
      exact ⟨m,helix',rfl,hg⟩
    · rintro ⟨m,helix',e,hg⟩
      obtain ⟨rfl,rfl⟩ := Event.addHelix.inj e
      exact ⟨n,helix,by simp,hg⟩
  homes := by
    rw [stranded_snoc]
    rcases h.homes with ⟨hs,hh⟩ | ⟨_,g,hg⟩
    · exact .inl ⟨by simpa using hs,housed_restage hh fun g hg => by simp at hg⟩
    · cases hg.pending

theorem allow_sound {budget : ℕ} (h : Sound tr c []) (hidle : c.tasks = []) :
    Sound (tr++[(c,.allow budget)]) { c with budget := budget } [] where
  between := ⟨h.between.alive,hidle,h.between.wired,h.between.recorded⟩
  origin := origin_step h.origin (evolves_refl _ _) (fun g hg => (unhelping _ g hg).elim)
    fun g => by simpa using unhelping _ g
  homes := by
    rw [stranded_snoc]
    simpa using h.homes

def Clashes (w : World) (n : ℕ) : Option ℕ → Prop
  | some g => ¬ w.objects.Compatible n g
  | none => ¬ (w.objects.create .helixL4Protocol).Compatible n w.objects.next

/-- A call of `AddHelix` that is not accepted clashes at its first aggregation. -/
theorem unaccepted_clashes {w : World} {n : ℕ} {helix : Option ℕ} (hh : Housed w [])
    (hcall : Callable w n helix) (hnot : ¬ Accepts w n helix) : Clashes w n helix := by
  obtain ⟨hn,hhelix⟩ := hcall
  cases hfound : w.objects.getObject n .helixL4Protocol with
  | some p =>
    obtain ⟨hp,hpt⟩ := w.objects.getObject_eq_some.mp hfound
    cases helix with
    | some g =>
      intro hc
      exact hc.types p hp g (w.objects.self_mem g) (hpt.trans (hhelix g rfl).symm)
    | none =>
      intro hc
      apply hc.types p hp _ (w.objects.self_mem _)
      rw [w.objects.create_typeOf_new]
      exact w.objects.create_typeOf.mpr (.inl hpt)
  | none =>
    cases helix with
    | none => exact absurd ⟨hn,hfound,fun g hg => by cases hg⟩ hnot
    | some g =>
      have hgt := hhelix g rfl
      rcases hh g hgt with ⟨m,hm,hmt⟩ | ⟨halone,_⟩
      · exact fun hc => hc.types n (w.objects.self_mem n) m hm (hn.trans hmt.symm)
      · refine absurd ⟨hn,hfound,fun p hp => ?_⟩ hnot
        obtain rfl := Option.some.inj hp
        exact ⟨hgt,halone⟩

inductive Refusing (c : Wiring) : Prop
  | called (n : ℕ) (helix : Option ℕ) (alive : c.aborted = none)
      (tasks : c.tasks = [.resume (HelixStack.addHelix n helix)])
      (clashes : Clashes c.world n helix)
  | aborted (reason : c.aborted = some .multipleAggregation)

theorem aggregate_refused (order : Order) (c : Wiring) {a b : ℕ} (rest : List Task)
    (hc : ¬ c.world.objects.Compatible a b) :
    (c.aggregate order a b rest).aborted = some .multipleAggregation := by
  simp only [Wiring.aggregate,World.aggregate,dif_neg hc]

theorem refusing_step (h : Refusing c) (hstep : Step c e c') :
    Refusing c' ∧ (∀ a b, e ≠ .aggregate a b) := by
  obtain ⟨halive,order,hexec⟩ := hstep
  obtain ⟨n,helix,_,htasks,hclash⟩ | ⟨hreason⟩ := h
  · have busy : c.tasks ≠ [] := by simp [htasks]
    cases exec_executes hexec with
    | create t hidle _ => exact absurd hidle busy
    | aggregate a b hidle _ => exact absurd hidle busy
    | addHelix n' helix' hidle _ => exact absurd hidle busy
    | allow budget hidle => exact absurd hidle busy
    | publish t o rest hs _ _ _ _ => simp [htasks] at hs
    | notify o rest hs _ => simp [htasks] at hs
    | skip o rest hs _ => simp [htasks] at hs
    | resume p rest hs =>
      obtain ⟨rfl,rfl⟩ : HelixStack.addHelix n helix = p ∧ [] = rest := by simpa [htasks] using hs
      refine ⟨.aborted ?_,by simp⟩
      cases helix with
      | some g =>
        rw [addHelix_runs]
        exact aggregate_refused order { c with world := c.world.setNode g (some n) } _ hclash
      | none =>
        rw [addHelix_null_runs]
        exact aggregate_refused order { c with
          world := (c.world.create .helixL4Protocol).setNode c.world.objects.next (some n) }
          _ hclash
  · cases halive.symm.trans hreason

/-- A run is sound, or it has been aborted: by a stranded protocol with a null
dereference, or by a second set-up with a multiple aggregation. -/
inductive Course (tr : List (Wiring × Event)) (c : Wiring) : Prop
  | sound (ss : List Stage) (h : Sound tr c ss)
  | stranded (cause : Stranded tr) (reason : c.aborted = some .nullDereference)
  | refused (cause : Refused tr) (homed : ¬ Stranded tr) (state : Refusing c)

/-- With nothing pending, every protocol has a home. -/
theorem idle_housed (h : Sound tr c []) : ¬ Stranded tr ∧ Housed c.world [] := by
  rcases h.homes with hh | ⟨_,g,hg⟩
  · exact hh
  · cases hg.pending

theorem addHelix_course {n : ℕ} {helix : Option ℕ} (h : Sound tr c [])
    (hcall : Callable c.world n helix) : Course (tr++[(c,.addHelix n helix)])
      { c with tasks := [.resume (HelixStack.addHelix n helix)] } := by
  by_cases ha : Accepts c.world n helix
  · exact .sound _ (accept_sound h ha)
  · obtain ⟨hs,hh⟩ := idle_housed h
    refine .refused ⟨c,n,helix,by simp,ha⟩ (by simpa [stranded_snoc] using hs) ?_
    exact .called n helix h.between.alive rfl (unaccepted_clashes hh hcall ha)

theorem sound_course (h : Sound tr c ss) (hstep : Step c e c') : Course (tr++[(c,e)]) c' := by
  obtain ⟨halive,order,hexec⟩ := hstep
  have hsame : c.tasks = [] → Sound tr c [] := fun hidle => idle_stages h.between hidle ▸ h
  have nested : Nested c c' → (∀ a b, e ≠ .aggregate a b) → (∀ n helix, e ≠ .addHelix n helix) →
      Course (tr++[(c,e)]) c' := fun hn he he' =>
    (nested_sound h hn he he').elim (fun ⟨ss',hs⟩ => .sound ss' hs) fun hs => .stranded hs.1 hs.2
  cases exec_executes hexec with
  | create t hidle ht => exact .sound [] (create_sound (hsame hidle) hidle ht)
  | aggregate a b hidle hc =>
    obtain ⟨ss',hs⟩ := merge_sound order (hsame hidle) hc
    exact .sound ss' hs
  | addHelix n helix hidle hcall => exact addHelix_course (hsame hidle) hcall
  | allow budget hidle => exact .sound [] (allow_sound (hsame hidle) hidle)
  | publish t o rest hs ho ht hb hc =>
    exact nested (.inr ⟨t,halive,order,hexec⟩) (by simp) (by simp)
  | notify g rest hs hg => exact nested (.inl ⟨halive,order,hexec⟩) (by simp) (by simp)
  | skip o rest hs ho => exact nested (.inl ⟨halive,order,hexec⟩) (by simp) (by simp)
  | resume p rest hs => exact nested (.inl ⟨halive,order,hexec⟩) (by simp) (by simp)

theorem step_course (h : Course tr c) (hstep : Step c e c') : Course (tr++[(c,e)]) c' := by
  obtain ⟨ss,hs⟩ | ⟨_,hreason⟩ | ⟨⟨s,n,helix,hmem,hnot⟩,homed,hstate⟩ := h
  · exact sound_course hs hstep
  · cases hstep.1.symm.trans hreason
  · obtain ⟨hstate',he⟩ := refusing_step hstate hstep
    exact .refused ⟨s,n,helix,List.mem_append_left _ hmem,hnot⟩
      (by simpa [stranded_snoc,he] using homed) hstate'

theorem initial_sound : Sound [] .initial [] where
  between := ⟨rfl,rfl,wired_initial,recorded_initial⟩
  origin := {
    set _ _ hg := by cases hg
    helped _ := by
      rintro ⟨s,n,helix,hs,_⟩
      cases hs
    helping g hg := (unhelping _ g hg).elim }
  homes := by
    refine .inl ⟨?_,fun g hg => by cases hg⟩
    rintro ⟨s,a,b,hs,_⟩
    cases hs

theorem run_course (hrun : Run Step .initial tr c) : Course tr c := by
  induction hrun with
  | nil => exact .sound [] initial_sound
  | snoc run last ih => exact step_course ih last

/-- The nested notifications terminate. -/
theorem nested_terminates (h : Between c ss) : Acc (fun c' c => Nested c c') c := by
  refine acc_of_rank (Prod.lex Nat.lt_wfRel Nat.lt_wfRel).wf
    (fun c x => ∃ ss, Between c ss ∧ rank c ss = x) ?_ ⟨ss,h,rfl⟩
  rintro c _ c' ⟨ss,h,rfl⟩ hstep
  rcases nested_advances h hstep with ⟨ss',ha⟩ | ⟨habort,_⟩
  · exact .inl ⟨_,⟨ss',ha.between,rfl⟩,ha.lower⟩
  · refine .inr fun c'' hstep' => ?_
    rcases hstep' with ⟨halive,_⟩ | ⟨t,halive,_⟩ <;> cases halive.symm.trans habort

/-- As long as anything is pending, there is a next step. -/
theorem pending_proceeds (halive : c.aborted = none) (hpending : c.tasks ≠ []) :
    ∃ c', Step c .proceed c' := by
  have hexec : ∃ c', c.exec .forward .proceed = some c' := by
    cases htasks : c.tasks with
    | nil => exact absurd htasks hpending
    | cons x rest =>
      cases x with
      | notify o =>
        simp only [Wiring.exec,htasks]
        split <;> exact ⟨_,rfl⟩
      | resume p =>
        simp only [Wiring.exec,htasks]
        exact ⟨_,rfl⟩
  obtain ⟨c',hc'⟩ := hexec
  exact ⟨c',halive,.forward,hc'⟩

end Steps

/-- Protocol `h` has been set up for its node: by `AddHelix`, or because an IP
layer is there. -/
def SetUp (tr : List (Wiring × Event)) (w : World) (h : ℕ) : Prop := Helped tr h ∨ HasIp w h

structure WiredOnce (tr : List (Wiring × Event)) (w : World) (h n : ℕ) : Prop where
  insert : ∀ v, w.wires.count (.insert v h) =
    if w.objects.getObject h .ipv4 = some v then 1 else 0
  insert6 : ∀ v, w.wires.count (.insert6 v h) =
    if w.objects.getObject h .ipv6 = some v then 1 else 0
  setDownTarget : ∀ v, w.wires.count (.setDownTarget h v) =
    if w.objects.getObject h .ipv4 = some v then 1 else 0
  setDownTarget6 : ∀ v, w.wires.count (.setDownTarget6 h v) =
    if w.objects.getObject h .ipv6 = some v then 1 else 0
  downTarget : (w.helix h).mDownTarget = w.objects.getObject h .ipv4
  downTarget6 : (w.helix h).mDownTarget6 = w.objects.getObject h .ipv6
  factory : SetUp tr w h → ∃ f, w.objects.getObject h .helixSocketFactory = some f ∧
    (w.factory f).mHelix = some h ∧ w.wires.count (.setHelix f (some h)) = 1 ∧
    ∀ f', (w.factory f').mHelix = some h → f' = f
  node : SetUp tr w h → (w.helix h).mNode = some n ∧ w.wires.count (.setNode h (some n)) = 1
  unused : ¬ SetUp tr w h → (w.helix h).mNode = none ∧
    w.objects.getObject h .helixSocketFactory = none ∧
    (∀ x, w.wires.count (.setNode h x) = 0) ∧ ∀ f, w.wires.count (.setHelix f (some h)) = 0

section Settled

variable {tr : List (Wiring × Event)} {c : Wiring} {h n : ℕ}

theorem recorded_count {w : World} (hr : Recorded w) (x : Wire) [Decidable (Holds w x)] :
    w.wires.count x = if Holds w x then 1 else 0 := by
  by_cases hx : Holds w x
  · rw [if_pos hx]
    exact List.count_eq_one_of_mem hr.once ((hr.exact x).mpr hx)
  · rw [if_neg hx]
    exact List.count_eq_zero_of_not_mem ((hr.exact x).not.mpr hx)

theorem settled_target (hs : Sound tr c []) (hh : c.world.objects.typeOf h =
    some .helixL4Protocol) {t : TypeId} (ht : Ip t) :
    target c.world h t = c.world.objects.getObject h t := by
  cases hg : c.world.objects.getObject h t with
  | some v =>
    obtain ⟨hv,hvt⟩ := c.world.objects.getObject_eq_some.mp hg
    cases htarget : target c.world h t with
    | none => cases hs.between.wired.pending h hh ⟨t,v,ht,hv,hvt,.inl htarget⟩
    | some v' =>
      obtain ⟨_,hv',hvt'⟩ := hs.between.wired.target h t v' htarget
      rw [c.world.objects.distinct hv' hv hvt' hvt]
  | none =>
    cases htarget : target c.world h t with
    | none => rfl
    | some v =>
      obtain ⟨_,hv,hvt⟩ := hs.between.wired.target h t v htarget
      exact absurd hvt (c.world.objects.getObject_eq_none.mp hg v hv)

/-- With nothing pending, the protocols that have been set up know their node. -/
theorem settled_setUp (hs : Sound tr c []) (hh : c.world.objects.typeOf h =
    some .helixL4Protocol) : SetUp tr c.world h ↔ (c.world.helix h).mNode ≠ none := by
  constructor
  · rintro (hset | ⟨t,v,ht,hv,hvt⟩)
    · exact (hs.origin.helped h hset).elim id fun hp => (unhelping _ h hp).elim
    · intro hnone
      cases hs.between.wired.pending h hh ⟨t,v,ht,hv,hvt,.inr hnone⟩
  · intro hne
    obtain ⟨m,hm⟩ := Option.ne_none_iff_exists'.mp hne
    exact hs.origin.set h m hm

theorem settled_node (hs : Sound tr c []) (hh : c.world.objects.typeOf h = some .helixL4Protocol)
    (hn : n ∈ c.world.objects.members h) (hnt : c.world.objects.typeOf n = some .node) :
    (SetUp tr c.world h → (c.world.helix h).mNode = some n) ∧
      (¬ SetUp tr c.world h → (c.world.helix h).mNode = none) := by
  rw [settled_setUp hs hh]
  refine ⟨fun hne => ?_,not_not.mp⟩
  obtain ⟨m,hm⟩ := Option.ne_none_iff_exists'.mp hne
  obtain ⟨_,hmem,hmt⟩ := hs.between.wired.node h m hm
  rw [hm,c.world.objects.distinct hmem hn hmt hnt]

theorem owned_factory (hs : Sound tr c []) {f : ℕ} (hf : (c.world.factory f).mHelix = some h) :
    f ∈ c.world.objects.members h ∧ c.world.objects.typeOf f = some .helixSocketFactory ∧
      (c.world.helix h).mNode ≠ none := by
  have hft := hs.between.wired.typed f h hf
  obtain ⟨g,hg,_,hfg,hset,_⟩ := hs.between.wired.owner f hft
  obtain rfl : h = g := Option.some.inj (hf.symm.trans hfg)
  exact ⟨c.world.objects.mem_symm hg,hft,hset⟩

theorem settled_factory (hs : Sound tr c []) (hh : c.world.objects.typeOf h =
    some .helixL4Protocol) (hset : (c.world.helix h).mNode = some n) :
    ∃ f, c.world.objects.getObject h .helixSocketFactory = some f ∧
      (c.world.factory f).mHelix = some h ∧
      ∀ f', (c.world.factory f').mHelix = some h → f' = f := by
  obtain ⟨f,hf,hft⟩ := (hs.between.wired.factory h n hset).elim id fun hp => by cases hp
  obtain ⟨g,hg,hgt,hfg,_⟩ := hs.between.wired.owner f hft
  obtain rfl := c.world.objects.distinct (c.world.objects.mem_trans hf hg)
    (c.world.objects.self_mem h) hgt hh
  refine ⟨f,c.world.objects.getObject_eq_some.mpr ⟨hf,hft⟩,hfg,fun f' hf' => ?_⟩
  obtain ⟨hmem,hft',_⟩ := owned_factory hs hf'
  exact c.world.objects.distinct hmem hf hft' hft

theorem settled_wired (hs : Sound tr c []) (hh : c.world.objects.typeOf h = some .helixL4Protocol)
    (hn : n ∈ c.world.objects.members h) (hnt : c.world.objects.typeOf n = some .node) :
    WiredOnce tr c.world h n := by
  classical
  have hr := hs.between.recorded
  have h4 := settled_target hs hh (.inl rfl)
  have h6 := settled_target hs hh (.inr rfl)
  obtain ⟨hset,hunset⟩ := settled_node hs hh hn hnt
  refine ⟨?insert,?insert6,?setDownTarget,?setDownTarget6,h4,h6,?factory,?node,?unused⟩
  case insert | setDownTarget =>
    intro v
    simp [recorded_count hr,Holds,h4]
  case insert6 | setDownTarget6 =>
    intro v
    simp [recorded_count hr,Holds,h6]
  case factory =>
    intro hup
    obtain ⟨f,hf,hfh,hunique⟩ := settled_factory hs hh (hset hup)
    exact ⟨f,hf,hfh,by simp [recorded_count hr,Holds,hfh],hunique⟩
  case node =>
    intro hup
    exact ⟨hset hup,by simp [recorded_count hr,Holds,hset hup]⟩
  case unused =>
    intro hup
    have hnone := hunset hup
    refine ⟨hnone,?_,?_,?_⟩
    · rw [Aggregation.getObject_eq_none]
      intro f hf hft
      obtain ⟨g,hg,hgt,_,hgs,_⟩ := hs.between.wired.owner f hft
      obtain rfl := c.world.objects.distinct (c.world.objects.mem_trans hf hg)
        (c.world.objects.self_mem h) hgt hh
      exact hgs hnone
    · intro x
      cases x <;> simp [recorded_count hr,Holds,hnone]
    · intro f
      have hnot : (c.world.factory f).mHelix ≠ some h := fun hf =>
        (owned_factory hs hf).2.2 hnone
      simp [recorded_count hr,Holds,hnot]

/-- Nothing is ever inserted into an IP layer of another aggregate. -/
theorem inserted_member {w : World} {ss : List Stage} (hw : Wired w ss) (hr : Recorded w)
    (v h : ℕ) : (.insert v h ∈ w.wires → w.objects.getObject h .ipv4 = some v) ∧
      (.insert6 v h ∈ w.wires → w.objects.getObject h .ipv6 = some v) := by
  constructor
  · intro hmem
    exact w.objects.getObject_eq_some.mpr (hw.target h .ipv4 v ((hr.exact _).mp hmem)).2
  · intro hmem
    exact w.objects.getObject_eq_some.mpr (hw.target h .ipv6 v ((hr.exact _).mp hmem)).2

end Settled

/-- However objects are created, grouped and set up, as long as every
aggregate that holds a Helix protocol also holds a node and no node is set up
twice: no call aborts, the nested notifications come to an end, no wiring call
is ever made twice, and when nothing is pending every protocol is wired once
to what is there. -/
theorem helix_wired_once {tr : List (Wiring × Event)} {c : Wiring}
    (hrun : Run Step .initial tr c) (hnode : ¬ Stranded tr) (honce : ¬ Refused tr) :
    c.aborted = none ∧ Acc (fun c' c => Nested c c') c ∧
      (c.tasks ≠ [] → ∃ c', Step c .proceed c') ∧ c.world.wires.Nodup ∧
      (∀ v h, (.insert v h ∈ c.world.wires → c.world.objects.getObject h .ipv4 = some v) ∧
        (.insert6 v h ∈ c.world.wires → c.world.objects.getObject h .ipv6 = some v)) ∧
      (c.tasks = [] → ∀ h n, c.world.objects.typeOf h = some .helixL4Protocol →
        n ∈ c.world.objects.members h → c.world.objects.typeOf n = some .node →
        WiredOnce tr c.world h n) := by
  rcases run_course hrun with ⟨ss,hs⟩ | ⟨hstranded,_⟩ | ⟨hrefused,_,_⟩
  · refine ⟨hs.between.alive,nested_terminates hs.between,pending_proceeds hs.between.alive,
      hs.between.recorded.once,inserted_member hs.between.wired hs.between.recorded,
      fun hidle h n hh hn hnt => ?_⟩
    obtain rfl := idle_stages hs.between hidle
    exact settled_wired hs hh hn hnt
  · exact absurd hstranded hnode
  · exact absurd hrefused honce

/-- `AddHelix` on a node with an Ipv4 that is given an Ipv6 later. -/
theorem addHelix_wired : ∃ tr c, Run Step .initial tr c ∧
    labels tr = [.create .node,.create .ipv4,.create .ipv6,.aggregate 0 1,.proceed,.proceed,
      .addHelix 0 none] ++ List.replicate 10 .proceed ++ [.aggregate 0 2] ++
      List.replicate 5 .proceed ∧
    c.tasks = [] ∧ WiredOnce tr c.world 3 0 ∧
    c.world.wires.count (.insert 1 3) = 1 ∧ c.world.wires.count (.insert6 2 3) = 1 ∧
    c.world.wires.count (.setDownTarget 3 1) = 1 ∧
    c.world.wires.count (.setDownTarget6 3 2) = 1 := by
  have hplay := play_wires (c := .initial) ([.create .node,.create .ipv4,.create .ipv6,
    .aggregate 0 1,.proceed,.proceed,.addHelix 0 none] ++ List.replicate 10 .proceed ++
    [.aggregate 0 2] ++ List.replicate 5 .proceed) rfl
  obtain ⟨hrun,hlabels⟩ := hplay
  refine ⟨_,_,hrun,hlabels,rfl,?_⟩
  have hwired := (helix_wired_once hrun (by decide) (by decide)).2.2.2.2.2 rfl 3 0 rfl
    (by decide) rfl
  exact ⟨hwired,(hwired.insert 1).trans (if_pos rfl),(hwired.insert6 2).trans (if_pos rfl),
    (hwired.setDownTarget 1).trans (if_pos rfl),(hwired.setDownTarget6 2).trans (if_pos rfl)⟩

end Ns3Helix.StackWiring
