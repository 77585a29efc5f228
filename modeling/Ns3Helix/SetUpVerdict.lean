import Ns3Helix.StackWiring

/-!
# What becomes of a set-up

Every call that wires objects comes to an end, and which one it is was decided
by the calls alone: a protocol was left without a node, or a set-up clashed, or
nothing aborts. No run does both.
-/

set_option autoImplicit false

namespace Ns3Helix.SetUpVerdict
open Ns3Helix.HelixStack Ns3Helix.StackMachine Ns3Helix.StackWiring Ns3Helix.TransitionSystem

variable {tr : List (Wiring × Event)} {c c' : Wiring} {e : Event}

theorem refused_snoc : Refused (tr++[(c,e)]) ↔
    Refused tr ∨ ∃ n helix, e = .addHelix n helix ∧ ¬ Accepts c.world n helix := by
  constructor
  · rintro ⟨s,n,helix,hmem,hnot⟩
    rcases List.mem_append.mp hmem with hmem | hmem
    · exact .inl ⟨s,n,helix,hmem,hnot⟩
    · obtain ⟨rfl,rfl⟩ : s = c ∧ .addHelix n helix = e := by simpa using hmem
      exact .inr ⟨n,helix,rfl,hnot⟩
  · rintro (⟨s,n,helix,hmem,hnot⟩ | ⟨n,helix,rfl,hnot⟩)
    · exact ⟨s,n,helix,List.mem_append_left _ hmem,hnot⟩
    · exact ⟨c,n,helix,by simp,hnot⟩

theorem addHelix_called {n : ℕ} {helix : Option ℕ} (h : Step c (.addHelix n helix) c') :
    c.tasks = [] ∧ Callable c.world n helix ∧
      c' = { c with tasks := [.resume (HelixStack.addHelix n helix)] } := by
  obtain ⟨_,order,hexec⟩ := h
  cases exec_executes hexec with
  | addHelix _ _ idle callable => exact ⟨idle,callable,rfl⟩

/-- A set-up that was refused is on its way to its abort. -/
theorem refused_refusing (hrun : Run Step .initial tr c) (h : Refused tr) : Refusing c := by
  induction hrun with
  | nil =>
    obtain ⟨_,_,_,hmem,_⟩ := h
    cases hmem
  | snoc run last ih =>
    rcases refused_snoc.mp h with h | ⟨n,helix,rfl,hnot⟩
    · exact (refusing_step (ih h) last).1
    · have halive := last.1
      obtain ⟨idle,callable,rfl⟩ := addHelix_called last
      obtain ⟨ss,sound⟩ | ⟨_,reason⟩ | ⟨_,_,state⟩ := run_course run
      · obtain rfl := idle_stages sound.between idle
        have hclash := unaccepted_clashes (idle_housed sound).2 callable hnot
        exact .called n helix halive rfl hclash
      · cases halive.symm.trans reason
      · -- an earlier refusal would still be pending, or have aborted
        obtain ⟨_,_,_,tasks,_⟩ | ⟨reason⟩ := state
        · cases tasks.symm.trans idle
        · cases halive.symm.trans reason

theorem refusing_settled (h : Refusing c) (hc : c.aborted = none → c.tasks = []) :
    c.aborted = some .multipleAggregation := by
  obtain ⟨_,_,halive,tasks,_⟩ | ⟨reason⟩ := h
  · cases tasks.symm.trans (hc halive)
  · exact reason

theorem refusing_aborts (h : Refusing c) (hstep : Step c e c') :
    c'.aborted = some .multipleAggregation := by
  obtain ⟨halive,order,hexec⟩ := hstep
  obtain ⟨n,helix,_,tasks,hclash⟩ | ⟨reason⟩ := h
  · have busy : c.tasks ≠ [] := by simp [tasks]
    cases exec_executes hexec with
    | create t idle | aggregate a b idle | addHelix n' helix' idle | allow budget idle =>
      exact absurd idle busy
    | publish t o rest hs | notify o rest hs | skip o rest hs => simp [tasks] at hs
    | resume p rest hs =>
      obtain ⟨rfl,rfl⟩ : HelixStack.addHelix n helix = p ∧ [] = rest := by simpa [tasks] using hs
      cases helix with
      | some g =>
        rw [addHelix_runs]
        exact aggregate_refused order { c with world := c.world.setNode g (some n) } _ hclash
      | none =>
        rw [addHelix_null_runs]
        exact aggregate_refused order { c with
          world := (c.world.create .helixL4Protocol).setNode c.world.objects.next (some n) }
          _ hclash
  · cases halive.symm.trans reason

theorem nested_step (h : Nested c c') : ∃ e, Step c e c' := by
  rcases h with h | ⟨t,h⟩
  · exact ⟨_,h⟩
  · exact ⟨_,h⟩

theorem aborted_ends (h : c.aborted ≠ none) : Acc (fun c' c => Nested c c') c := by
  refine .intro c fun c' hstep => ?_
  obtain ⟨e,hstep⟩ := nested_step hstep
  exact absurd hstep.1 h

theorem refusing_ends (h : Refusing c) : Acc (fun c' c => Nested c c') c := by
  refine .intro c fun c' hstep => aborted_ends ?_
  obtain ⟨e,hstep⟩ := nested_step hstep
  simp [refusing_aborts h hstep]

theorem run_ends (hrun : Run Step .initial tr c) : Acc (fun c' c => Nested c c') c := by
  obtain ⟨ss,sound⟩ | ⟨_,reason⟩ | ⟨_,_,state⟩ := run_course hrun
  · exact nested_terminates sound.between
  · exact aborted_ends (by simp [reason])
  · exact refusing_ends state

theorem alive_iff (hrun : Run Step .initial tr c) (hc : c.aborted = none → c.tasks = []) :
    c.aborted = none ↔ ¬ Stranded tr ∧ ¬ Refused tr := by
  constructor
  · intro halive
    obtain ⟨ss,sound⟩ | ⟨_,reason⟩ | ⟨_,_,state⟩ := run_course hrun
    · obtain rfl := idle_stages sound.between (hc halive)
      refine ⟨(idle_housed sound).1,fun hrefused => ?_⟩
      cases halive.symm.trans (refusing_settled (refused_refusing hrun hrefused) hc)
    · cases halive.symm.trans reason
    · cases halive.symm.trans (refusing_settled state hc)
  · rintro ⟨homed,accepted⟩
    obtain ⟨ss,sound⟩ | ⟨stranded,_⟩ | ⟨refused,_,_⟩ := run_course hrun
    · exact sound.between.alive
    · exact absurd stranded homed
    · exact absurd refused accepted

theorem null_iff (hrun : Run Step .initial tr c) (hc : c.aborted = none → c.tasks = []) :
    c.aborted = some .nullDereference ↔ Stranded tr := by
  obtain ⟨ss,sound⟩ | ⟨stranded,reason⟩ | ⟨_,homed,state⟩ := run_course hrun
  · have halive := sound.between.alive
    obtain rfl := idle_stages sound.between (hc halive)
    simp [halive,(idle_housed sound).1]
  · simp [reason,stranded]
  · simp [refusing_settled state hc,homed]

theorem multiple_iff (hrun : Run Step .initial tr c) (hc : c.aborted = none → c.tasks = []) :
    c.aborted = some .multipleAggregation ↔ Refused tr := by
  refine ⟨fun hmultiple => ?_,fun hrefused => refusing_settled (refused_refusing hrun hrefused) hc⟩
  obtain ⟨ss,sound⟩ | ⟨_,reason⟩ | ⟨refused,_,_⟩ := run_course hrun
  · cases sound.between.alive.symm.trans hmultiple
  · cases reason.symm.trans hmultiple
  · exact refused

/-- In every run the notifications come to an end, and when nothing is pending
any more the calls that were made tell whether set-up went well, which of the
two faults stopped it, and that it was only one of them. -/
theorem set_up_decided (hrun : Run Step .initial tr c) :
    Acc (fun c' c => Nested c c') c ∧
    (c.aborted = none → c.tasks ≠ [] → ∃ c', Step c .proceed c') ∧
    ((c.aborted = none → c.tasks = []) →
      (c.aborted = none ↔ ¬ Stranded tr ∧ ¬ Refused tr) ∧
      (c.aborted = some .nullDereference ↔ Stranded tr) ∧
      (c.aborted = some .multipleAggregation ↔ Refused tr)) :=
  ⟨run_ends hrun,pending_proceeds,fun hc => ⟨alive_iff hrun hc,null_iff hrun hc,
    multiple_iff hrun hc⟩⟩

/-- Helix is set up twice on one node. -/
theorem second_set_up_refused : ∃ tr c, Run Step .initial tr c ∧
    labels tr = [.create .node,.addHelix 0 none] ++ List.replicate 8 .proceed ++
      [.addHelix 0 none,.proceed] ∧ Refused tr ∧ ¬ Stranded tr := by
  obtain ⟨hrun,hlabels⟩ := play_wires (c := .initial) ([.create .node,.addHelix 0 none] ++
    List.replicate 8 .proceed ++ [.addHelix 0 none,.proceed]) rfl
  obtain ⟨_,hnull,hmultiple⟩ := (set_up_decided hrun).2.2 fun h => by cases h
  refine ⟨_,_,hrun,hlabels,hmultiple.mp rfl,fun hstranded => ?_⟩
  cases hnull.mpr hstranded

end Ns3Helix.SetUpVerdict
