import Mathlib.Data.List.Basic
import Mathlib.Tactic.Common

/-!
# Object aggregation

Objects are numbered as they are created and grouped into aggregates, and an
object can be asked for the member of its aggregate that has a given type. Two
aggregates can be merged unless objects of one type would meet. The grouping is a partition, every
object that exists has a type, and a type occurs at most once in an
aggregate: the structure carries these facts, so every lookup is unambiguous.
-/

set_option autoImplicit false

namespace Ns3Helix.ObjectAggregation

structure Aggregation (τ : Type) where
  typeOf : ℕ → Option τ
  members : ℕ → List ℕ
  next : ℕ
  allocated : ∀ o, (typeOf o).isSome ↔ o < next
  self_mem : ∀ o, o ∈ members o
  same : ∀ {o p}, p ∈ members o → members p = members o
  alone : ∀ {o p}, next ≤ o → p ∈ members o → p = o
  distinct : ∀ {o p q t}, p ∈ members o → q ∈ members o →
    typeOf p = some t → typeOf q = some t → p = q

namespace Aggregation

variable {τ : Type} (g : Aggregation τ)

theorem mem_symm {o p : ℕ} (h : p ∈ g.members o) : o ∈ g.members p := by
  rw [g.same h]
  exact g.self_mem o

theorem mem_trans {o p q : ℕ} (h : p ∈ g.members o) (h' : q ∈ g.members p) :
    q ∈ g.members o := by rwa [g.same h] at h'

theorem typed_lt {o : ℕ} {t : τ} (h : g.typeOf o = some t) : o < g.next :=
  (g.allocated o).mp (by simp [h])

theorem next_untyped {o : ℕ} (h : g.next ≤ o) : g.typeOf o = none := by
  have := (g.allocated o).not.mpr (by omega)
  simpa using this

theorem member_lt {o p : ℕ} (ho : o < g.next) (h : p ∈ g.members o) : p < g.next := by
  by_contra hp
  have := g.alone (Nat.le_of_not_lt hp) (g.mem_symm h)
  omega

def empty : Aggregation τ where
  typeOf _ := none
  members o := [o]
  next := 0
  allocated := by simp
  self_mem := by simp
  same := by intro o p h; simp at h; simp [h]
  alone := by simp
  distinct := by simp

def create (t : τ) : Aggregation τ where
  typeOf := Function.update g.typeOf g.next (some t)
  members := g.members
  next := g.next+1
  allocated := by
    intro o
    rcases eq_or_ne o g.next with rfl | h
    · simp
    · rw [Function.update_of_ne h,g.allocated]
      omega
  self_mem := g.self_mem
  same := g.same
  alone := fun h => g.alone (by omega)
  distinct := by
    intro o p q t' hp hq htp htq
    by_cases ho : g.next ≤ o
    · rw [g.alone ho hp,g.alone ho hq]
    · have hpn := g.member_lt (by omega) hp
      have hqn := g.member_lt (by omega) hq
      rw [Function.update_of_ne (by omega)] at htp htq
      exact g.distinct hp hq htp htq

@[simp] theorem create_typeOf_new (t : τ) : (g.create t).typeOf g.next = some t := by
  simp [create]

theorem create_typeOf_old {o : ℕ} (t : τ) (h : o < g.next) :
    (g.create t).typeOf o = g.typeOf o := by
  simp [create,show o ≠ g.next by omega]

theorem create_typeOf {o : ℕ} {t t' : τ} :
    (g.create t).typeOf o = some t' ↔ g.typeOf o = some t' ∨ (o = g.next ∧ t = t') := by
  rcases eq_or_ne o g.next with rfl | h
  · simp [g.next_untyped (Nat.le_refl _)]
  · simp [create,h]

theorem members_next : ∀ p ∈ g.members g.next, p = g.next := fun _ h => g.alone (Nat.le_refl _) h

variable [DecidableEq τ]

def getObject (o : ℕ) (t : τ) : Option ℕ :=
  (g.members o).find? (fun p => g.typeOf p = some t)

theorem getObject_eq_some {o p : ℕ} {t : τ} :
    g.getObject o t = some p ↔ p ∈ g.members o ∧ g.typeOf p = some t := by
  constructor
  · intro h
    exact ⟨List.mem_of_find?_eq_some h,by simpa using List.find?_some h⟩
  · rintro ⟨hp,ht⟩
    cases hf : g.getObject o t with
    | none => exact absurd ht (by simpa using List.find?_eq_none.mp hf p hp)
    | some q =>
      have hq := List.find?_some hf
      rw [g.distinct hp (List.mem_of_find?_eq_some hf) ht (by simpa using hq)]

theorem getObject_eq_none {o : ℕ} {t : τ} :
    g.getObject o t = none ↔ ∀ p ∈ g.members o, g.typeOf p ≠ some t := by
  simp [getObject]

theorem getObject_isSome {o : ℕ} {t : τ} :
    (g.getObject o t).isSome ↔ ∃ p ∈ g.members o, g.typeOf p = some t := by
  simp [getObject]

theorem getObject_same {o p : ℕ} (t : τ) (h : p ∈ g.members o) :
    g.getObject p t = g.getObject o t := by
  rw [getObject,g.same h]
  rfl

structure Compatible (a b : ℕ) : Prop where
  left : a < g.next
  right : b < g.next
  types : ∀ p ∈ g.members a, ∀ q ∈ g.members b, g.typeOf p ≠ g.typeOf q

instance (a b : ℕ) : Decidable (g.Compatible a b) :=
  decidable_of_iff (a < g.next ∧ b < g.next ∧
    ∀ p ∈ g.members a, ∀ q ∈ g.members b, g.typeOf p ≠ g.typeOf q)
    ⟨fun h => ⟨h.1,h.2.1,h.2.2⟩,fun h => ⟨h.left,h.right,h.types⟩⟩

def joined (a b : ℕ) : List ℕ := g.members a ++ g.members b

omit [DecidableEq τ] in
theorem joined_same {a b o p : ℕ} (ho : o ∈ g.joined a b) (hp : p ∈ g.members o) :
    p ∈ g.joined a b := by
  rcases List.mem_append.mp ho with h | h
  · exact List.mem_append_left _ (g.mem_trans h hp)
  · exact List.mem_append_right _ (g.mem_trans h hp)

omit [DecidableEq τ] in
theorem joined_lt {a b p : ℕ} (h : g.Compatible a b) (hp : p ∈ g.joined a b) :
    p < g.next := by
  rcases List.mem_append.mp hp with hp | hp
  · exact g.member_lt h.left hp
  · exact g.member_lt h.right hp

omit [DecidableEq τ] in
theorem joined_distinct {a b p q : ℕ} {t : τ} (h : g.Compatible a b)
    (hp : p ∈ g.joined a b) (hq : q ∈ g.joined a b)
    (htp : g.typeOf p = some t) (htq : g.typeOf q = some t) : p = q := by
  rcases List.mem_append.mp hp with hp | hp <;> rcases List.mem_append.mp hq with hq | hq
  · exact g.distinct hp hq htp htq
  · exact absurd (htp.trans htq.symm) (h.types p hp q hq)
  · exact absurd (htq.trans htp.symm) (h.types q hq p hp)
  · exact g.distinct hp hq htp htq

def merge (a b : ℕ) (h : g.Compatible a b) : Aggregation τ where
  typeOf := g.typeOf
  members o := if o ∈ g.joined a b then g.joined a b else g.members o
  next := g.next
  allocated := g.allocated
  self_mem := by
    intro o
    by_cases ho : o ∈ g.joined a b
    · simp [ho]
    · simpa [ho] using g.self_mem o
  same := by
    intro o p hp
    by_cases ho : o ∈ g.joined a b
    · rw [if_pos ho] at hp
      rw [if_pos hp,if_pos ho]
    · rw [if_neg ho] at hp
      have hpn : p ∉ g.joined a b := fun hj => ho (g.joined_same hj (g.mem_symm hp))
      rw [if_neg hpn,if_neg ho,g.same hp]
  alone := by
    intro o p hn hp
    by_cases ho : o ∈ g.joined a b
    · have := g.joined_lt h ho
      omega
    · rw [if_neg ho] at hp
      exact g.alone hn hp
  distinct := by
    intro o p q t hp hq htp htq
    by_cases ho : o ∈ g.joined a b
    · rw [if_pos ho] at hp hq
      exact g.joined_distinct h hp hq htp htq
    · rw [if_neg ho] at hp hq
      exact g.distinct hp hq htp htq

section
omit [DecidableEq τ]
variable {a b : ℕ} (h : g.Compatible a b)

theorem merge_mem {o p : ℕ} : p ∈ (g.merge a b h).members o ↔
    p ∈ g.members o ∨ (o ∈ g.joined a b ∧ p ∈ g.joined a b) := by
  by_cases ho : o ∈ g.joined a b
  · simp only [merge,ho,true_and]
    exact ⟨Or.inr,fun hp => hp.elim (g.joined_same ho) id⟩
  · simp [merge,ho]

theorem merge_grows {o p : ℕ} (hp : p ∈ g.members o) :
    p ∈ (g.merge a b h).members o := (g.merge_mem h).mpr (.inl hp)

theorem merge_joined {o p : ℕ} (ho : o ∈ g.joined a b) (hp : p ∈ g.joined a b) :
    p ∈ (g.merge a b h).members o := (g.merge_mem h).mpr (.inr ⟨ho,hp⟩)

theorem merge_unjoined {o : ℕ} (ho : o ∉ g.joined a b) :
    (g.merge a b h).members o = g.members o := by simp [merge,ho]

theorem left_joined : a ∈ g.joined a b := List.mem_append_left _ (g.self_mem a)

theorem right_joined : b ∈ g.joined a b := List.mem_append_right _ (g.self_mem b)

end

end Aggregation

end Ns3Helix.ObjectAggregation
