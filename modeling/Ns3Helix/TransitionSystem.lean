import Mathlib.Logic.Relation
import Mathlib.Data.List.Forall2
import Mathlib.Data.List.Induction

/-!
# Finite runs, invariants and bisimulation up to a matching of labels

A system is a labelled step relation. A run records the state each step
starts from, so that conditions on steps can be stated about the whole run.
Nothing here depends on what the states or the labels are.
-/

set_option autoImplicit false

namespace Ns3Helix.TransitionSystem

variable {S T L K : Type*}

/-- Finite runs grow at their end: an induction sees the history first and
the last step after it. -/
inductive Run (step : S → L → S → Prop) (s : S) : List (S × L) → S → Prop
  | nil : Run step s [] s
  | snoc {tr : List (S × L)} {t u : S} {l : L} (run : Run step s tr t) (last : step t l u) :
      Run step s (tr ++ [(t,l)]) u

def labels (tr : List (S × L)) : List L := tr.map Prod.snd

@[simp] theorem labels_nil : labels ([] : List (S × L)) = [] := rfl

@[simp] theorem labels_append (tr tr' : List (S × L)) :
    labels (tr++tr') = labels tr ++ labels tr' := List.map_append

@[simp] theorem labels_cons (e : S × L) (tr : List (S × L)) :
    labels (e::tr) = e.2 :: labels tr := rfl

variable {step : S → L → S → Prop} {step' : T → K → T → Prop}

theorem run_append {s t u : S} {tr tr' : List (S × L)}
    (first : Run step s tr t) (second : Run step t tr' u) : Run step s (tr++tr') u := by
  induction second with
  | nil => simpa using first
  | snoc run last ih =>
    rw [← List.append_assoc]
    exact .snoc ih last

theorem run_single {s t : S} {l : L} (h : step s l t) : Run step s [(s,l)] t :=
  .snoc .nil h

theorem run_then {s t u : S} {tr : List (S × L)} (run : Run step s tr t) (l : L)
    (last : step t l u) : Run step s (tr++[(t,l)]) u := .snoc run last

theorem run_cons {s t u : S} {l : L} {tr : List (S × L)}
    (h : step s l t) (rest : Run step t tr u) : Run step s ((s,l)::tr) u :=
  run_append (run_single h) rest

theorem run_snoc_inv {s t u : S} {l : L} {tr : List (S × L)}
    (h : Run step s (tr++[(t,l)]) u) : Run step s tr t ∧ step t l u := by
  generalize htr : tr++[(t,l)] = tr' at h
  cases h with
  | nil => simp at htr
  | snoc run last =>
    obtain ⟨rfl,he⟩ := List.append_inj' htr rfl
    obtain ⟨rfl,rfl⟩ := by simpa using he
    exact ⟨run,last⟩

theorem run_split {s u : S} (tr tr' : List (S × L)) (h : Run step s (tr++tr') u) :
    ∃ t, Run step s tr t ∧ Run step t tr' u := by
  induction tr' using List.reverseRecOn generalizing u with
  | nil => exact ⟨u,by simpa using h,.nil⟩
  | append_singleton tr' e ih =>
    obtain ⟨v,l⟩ := e
    rw [← List.append_assoc] at h
    obtain ⟨hrun,hlast⟩ := run_snoc_inv h
    obtain ⟨t,hfirst,hsecond⟩ := ih hrun
    exact ⟨t,hfirst,.snoc hsecond hlast⟩

theorem run_at {s t u : S} {l : L} (pre post : List (S × L))
    (h : Run step s (pre++(t,l)::post) u) :
    Run step s pre t ∧ ∃ t', step t l t' ∧ Run step t' post u := by
  rw [show pre++(t,l)::post = (pre++[(t,l)])++post by simp] at h
  obtain ⟨v,hpre,hpost⟩ := run_split _ _ h
  obtain ⟨hrun,hlast⟩ := run_snoc_inv hpre
  exact ⟨hrun,v,hlast,hpost⟩

theorem run_at_label {s u : S} {tr : List (S × L)} (h : Run step s tr u)
    {l : L} {pre post : List L} (hl : labels tr = pre++l::post) :
    ∃ pre' t t', labels pre' = pre ∧ Run step s pre' t ∧ step t l t' := by
  obtain ⟨tr₁,tr₂,rfl,hpre,hrest⟩ := List.map_eq_append_iff.mp hl
  obtain ⟨e,tr₃,rfl,rfl,hpost⟩ := List.map_eq_cons_iff.mp hrest
  obtain ⟨hrun,t',hstep,_⟩ := run_at tr₁ tr₃ h
  exact ⟨tr₁,e.1,t',hpre,hrun,hstep⟩

def play (exec : S → L → Option S) : S → List L → Option (List (S × L) × S)
  | s, [] => some ([],s)
  | s, l::ls => (exec s l).bind fun t => (play exec t ls).map fun r => ((s,l)::r.1,r.2)

theorem play_run {exec : S → L → Option S} (hexec : ∀ s l t, exec s l = some t → step s l t)
    {s u : S} {ls : List L} {tr : List (S × L)} (h : play exec s ls = some (tr,u)) :
    Run step s tr u ∧ labels tr = ls := by
  induction ls generalizing s tr with
  | nil =>
    obtain ⟨rfl,rfl⟩ := Prod.mk.inj (Option.some.inj h)
    exact ⟨.nil,rfl⟩
  | cons l ls ih =>
    obtain ⟨t,ht,h⟩ := Option.bind_eq_some_iff.mp h
    obtain ⟨⟨tr',u'⟩,hplay,hr⟩ := Option.map_eq_some_iff.mp h
    obtain ⟨rfl,rfl⟩ := Prod.mk.inj hr
    obtain ⟨hrun,hlabels⟩ := ih hplay
    exact ⟨run_cons (hexec s l t ht) hrun,congrArg (l :: ·) hlabels⟩

/-- An invariant of the state together with the history of labels. -/
theorem run_history {s : S} (I : List L → S → Prop) (hinit : I [] s)
    (hstep : ∀ ls t l u, I ls t → step t l u → I (ls++[l]) u)
    {tr : List (S × L)} {u : S} (h : Run step s tr u) : I (labels tr) u := by
  induction h with
  | nil => exact hinit
  | snoc run last ih => simpa using hstep _ _ _ _ ih last

theorem run_invariant {s : S} (I : S → Prop) (hinit : I s)
    (hstep : ∀ t l u, I t → step t l u → I u)
    {tr : List (S × L)} {u : S} (h : Run step s tr u) : I u :=
  run_history (fun _ => I) hinit (fun _ t l u => hstep t l u) h

/-- A relation whose steps lower a rank terminates from every state the rank
is defined on. A step may also end in a state without further steps. -/
theorem acc_of_rank {β : Type*} {lt : β → β → Prop} (hwf : WellFounded lt) {r : S → S → Prop}
    (I : S → β → Prop) (hstep : ∀ s x t, I s x → r s t →
      (∃ y, I t y ∧ lt y x) ∨ ∀ u, ¬ r t u) {s : S} {x : β} (h : I s x) :
    Acc (fun t s => r s t) s := by
  induction x using hwf.induction generalizing s with
  | _ x ih =>
    refine ⟨_,fun t ht => ?_⟩
    rcases hstep s x t h ht with ⟨y,hy,hlt⟩ | hstop
    · exact ih y hlt hy
    · exact ⟨_,fun u hu => absurd hu (hstop u)⟩

theorem run_map {step' : T → L → T → Prop} (g : S → T)
    (hstep : ∀ {s l t}, step s l t → step' (g s) l (g t)) {s t : S} {tr : List (S × L)}
    (h : Run step s tr t) : Run step' (g s) (tr.map fun e => (g e.1,e.2)) (g t) := by
  induction h with
  | nil => exact .nil
  | snoc run last ih =>
    rw [List.map_append]
    exact .snoc ih (hstep last)

def Traces (step : S → L → S → Prop) (s : S) (ls : List L) : Prop :=
  ∃ tr t, Run step s tr t ∧ labels tr = ls

/-- `A` and `B` say which labels the two sides are compared on. The matching
`M` of labels may rename what a label mentions. -/
structure Bisimulation (step : S → L → S → Prop) (step' : T → K → T → Prop)
    (M : L → K → Prop) (A : L → Prop) (B : K → Prop) (R : S → T → Prop) : Prop where
  forth : ∀ {s t l s'}, R s t → A l → step s l s' →
    ∃ k t', M l k ∧ B k ∧ step' t k t' ∧ R s' t'
  back : ∀ {s t k t'}, R s t → B k → step' t k t' →
    ∃ l s', M l k ∧ A l ∧ step s l s' ∧ R s' t'

theorem bisimulation_run {M : L → K → Prop} {A : L → Prop} {B : K → Prop} {R : S → T → Prop}
    (h : Bisimulation step step' M A B R) {s : S} {t : T} (hR : R s t)
    {tr : List (S × L)} {s' : S} (hrun : Run step s tr s') (hA : ∀ l ∈ labels tr, A l) :
    ∃ tr' t', Run step' t tr' t' ∧ List.Forall₂ M (labels tr) (labels tr') ∧
      (∀ k ∈ labels tr', B k) ∧ R s' t' := by
  induction hrun with
  | nil => exact ⟨[],t,.nil,.nil,by simp,hR⟩
  | snoc run last ih =>
    obtain ⟨tr',t₁,hrun',hM,hB,hR₁⟩ := ih (fun l hl => hA l (by simp [hl]))
    obtain ⟨k,t₂,hk,hBk,hstep,hR₂⟩ := h.forth hR₁ (hA _ (by simp)) last
    refine ⟨tr'++[(t₁,k)],t₂,.snoc hrun' hstep,?_,?_,hR₂⟩
    · simpa using List.rel_append hM (.cons hk .nil)
    · intro k' hk'
      rcases List.mem_append.mp (by simpa using hk' : k' ∈ labels tr' ++ [k]) with h' | h'
      · exact hB k' h'
      · rwa [List.mem_singleton.mp h']

theorem bisimulation_flip {M : L → K → Prop} {A : L → Prop} {B : K → Prop} {R : S → T → Prop}
    (h : Bisimulation step step' M A B R) :
    Bisimulation step' step (flip M) B A (flip R) where
  forth := by
    intro t s k t' hR hB hstep
    obtain ⟨l,s',hM,hA,hs,hR'⟩ := h.back hR hB hstep
    exact ⟨l,s',hM,hA,hs,hR'⟩
  back := by
    intro t s l s' hR hA hstep
    obtain ⟨k,t',hM,hB,ht,hR'⟩ := h.forth hR hA hstep
    exact ⟨k,t',hM,hB,ht,hR'⟩

/-- Bisimilar states have the same finite traces, label by matched label. -/
theorem bisimulation_traces {M : L → K → Prop} {A : L → Prop} {B : K → Prop} {R : S → T → Prop}
    (h : Bisimulation step step' M A B R) {s : S} {t : T} (hR : R s t) :
    (∀ ls, Traces step s ls → (∀ l ∈ ls, A l) →
      ∃ ks, Traces step' t ks ∧ (∀ k ∈ ks, B k) ∧ List.Forall₂ M ls ks) ∧
    (∀ ks, Traces step' t ks → (∀ k ∈ ks, B k) →
      ∃ ls, Traces step s ls ∧ (∀ l ∈ ls, A l) ∧ List.Forall₂ M ls ks) := by
  constructor
  · rintro _ ⟨tr,s',hrun,rfl⟩ hA
    obtain ⟨tr',t',hrun',hM,hB,_⟩ := bisimulation_run h hR hrun hA
    exact ⟨_,⟨tr',t',hrun',rfl⟩,hB,hM⟩
  · rintro _ ⟨tr,t',hrun,rfl⟩ hB
    obtain ⟨tr',s',hrun',hM,hA,_⟩ := bisimulation_run (bisimulation_flip h) hR hrun hB
    exact ⟨_,⟨tr',s',hrun',rfl⟩,hA,hM.flip⟩

/-- A refinement keeps the labels `abs` shows and stutters at the others. `J`
is a prophecy: what holds of the state a run ends in has held all along. -/
structure Refinement (step : S → L → S → Prop) (step' : T → K → T → Prop) (abs : L → Option K)
    (J : S → Prop) (R : S → T → Prop) : Prop where
  back : ∀ {s l s'}, step s l s' → J s' → J s
  shown : ∀ {s t l s' k}, R s t → step s l s' → J s' → abs l = some k →
    ∃ t', step' t k t' ∧ R s' t'
  hidden : ∀ {s t l s'}, R s t → step s l s' → J s' → abs l = none → R s' t

theorem refinement_run {abs : L → Option K} {J : S → Prop} {R : S → T → Prop}
    (h : Refinement step step' abs J R) {s : S} {t : T} (hR : R s t) {tr : List (S × L)} {s' : S}
    (hrun : Run step s tr s') (hJ : J s') :
    ∃ tr' t', Run step' t tr' t' ∧ labels tr' = (labels tr).filterMap abs ∧ R s' t' := by
  induction hrun with
  | nil => exact ⟨[],t,.nil,rfl,hR⟩
  | @snoc tr u v l run last ih =>
    obtain ⟨tr',t₁,hrun',hlabels,hR₁⟩ := ih (h.back last hJ)
    cases hl : abs l with
    | none => exact ⟨tr',t₁,hrun',by simp [hlabels,hl],h.hidden hR₁ last hJ hl⟩
    | some k =>
      obtain ⟨t₂,hstep,hR₂⟩ := h.shown hR₁ last hJ hl
      exact ⟨tr'++[(t₁,k)],t₂,.snoc hrun' hstep,by simp [hlabels,hl],hR₂⟩

def Together (step : S → L → S → Prop) (step' : T → L → T → Prop) (s : S × T) (l : L)
    (s' : S × T) : Prop :=
  step s.1 l s'.1 ∧ step' s.2 l s'.2

section Together

variable {step : S → L → S → Prop} {step' : T → L → T → Prop} {s s' : S × T}
  {tr : List ((S × T) × L)}

def onLeft (tr : List ((S × T) × L)) : List (S × L) := tr.map fun e => (e.1.1,e.2)

def onRight (tr : List ((S × T) × L)) : List (T × L) := tr.map fun e => (e.1.2,e.2)

theorem onLeft_append (tr tr' : List ((S × T) × L)) : onLeft (tr++tr') = onLeft tr ++ onLeft tr' :=
  List.map_append

@[simp] theorem labels_onLeft (tr : List ((S × T) × L)) : labels (onLeft tr) = labels tr := by
  simp [labels,onLeft]

theorem together_left (h : Run (Together step step') s tr s') :
    Run step s.1 (onLeft tr) s'.1 := run_map Prod.fst And.left h

theorem together_right (h : Run (Together step step') s tr s') :
    Run step' s.2 (onRight tr) s'.2 := run_map Prod.snd And.right h

end Together

def Beside (step : S → L → S → Prop) (party : S → T → L → T → Prop) (x : S × T) (l : L)
    (y : S × T) : Prop :=
  step x.1 l y.1 ∧ party x.1 x.2 l y.2

section Beside

variable {step : S → L → S → Prop} {party : S → T → L → T → Prop} {x y : S × T}
  {tr : List ((S × T) × L)}

theorem beside_left (h : Run (Beside step party) x tr y) : Run step x.1 (onLeft tr) y.1 :=
  run_map Prod.fst And.left h

theorem beside_then {s' : S} {t' : T} (h : Run (Beside step party) x tr y) (l : L)
    (hs : step y.1 l s') (ht : party y.1 y.2 l t') :
    Run (Beside step party) x (tr++[(y,l)]) (s',t') := .snoc h ⟨hs,ht⟩

theorem beside_still {t : T} {s s' : S} {tr : List (S × L)} (h : Run step s tr s')
    (ht : ∀ e ∈ tr, party e.1 t e.2 t) :
    Run (Beside step party) (s,t) (tr.map fun e => ((e.1,t),e.2)) (s',t) := by
  induction h with
  | nil => exact .nil
  | snoc run last ih =>
    rw [List.map_append]
    exact .snoc (ih fun e he => ht e (List.mem_append_left _ he))
      ⟨last,ht _ (List.mem_append_right _ List.mem_cons_self)⟩

/-- The party can be replaced by one that can do whatever it does. -/
theorem beside_run {U : Type*} {party' : S → U → L → U → Prop} {R : T → U → Prop}
    (hstep : ∀ {s t l t' u}, R t u → party s t l t' → ∃ u', R t' u' ∧ party' s u l u') {u : U}
    (hu : R x.2 u) (h : Run (Beside step party) x tr y) :
    ∃ tr' u', Run (Beside step party') (x.1,u) tr' (y.1,u') ∧ onLeft tr' = onLeft tr ∧
      R y.2 u' := by
  induction h with
  | nil => exact ⟨[],u,.nil,rfl,hu⟩
  | @snoc tr v w l run last ih =>
    obtain ⟨tr',u₁,hrun,hleft,hu₁⟩ := ih
    obtain ⟨u₂,hu₂,hparty⟩ := hstep hu₁ last.2
    have hlast : Beside step party' (v.1,u₁) l (w.1,u₂) := ⟨last.1,hparty⟩
    refine ⟨_,u₂,.snoc hrun hlast,?_,hu₂⟩
    rw [onLeft_append,onLeft_append,hleft]
    rfl

end Beside

end Ns3Helix.TransitionSystem
