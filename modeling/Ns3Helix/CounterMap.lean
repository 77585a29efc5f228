import Std.Data.HashMap.Lemmas
import Mathlib.Data.List.Nodup

/-!
# Maps filled under a counter

A hash map whose keys are handed out by a 64-bit counter stands for the list
of the values inserted so far, as long as the counter does not wrap around.
The values are of any type.
-/

set_option autoImplicit false

namespace Ns3Helix.CounterMap

variable {α : Type*} {m : Std.HashMap UInt64 α} {next : UInt64} {l : List α}

structure Represents (m : Std.HashMap UInt64 α) (next : UInt64) (l : List α) : Prop where
  size : next.toNat = l.length
  entry : ∀ k : UInt64, m[k]? = l[k.toNat]?

theorem represents_empty : Represents (∅ : Std.HashMap UInt64 α) 0 [] where
  size := rfl
  entry k := by simp

theorem represents_insert (h : Represents m next l) (a : α) (hl : l.length+1 < UInt64.size) :
    Represents (m.insert next a) (next+1) (l++[a]) where
  size := by
    have hsize := h.size
    rw [UInt64.toNat_add,List.length_append,hsize]
    simpa using hl
  entry k := by
    rw [Std.HashMap.getElem?_insert]
    by_cases hk : next = k
    · subst hk
      simp [h.size]
    · have hne : k.toNat ≠ l.length := by
        rw [← h.size]
        exact fun e => hk (UInt64.toNat_inj.mp e).symm
      rw [if_neg (by simpa using hk),h.entry]
      rcases Nat.lt_or_ge k.toNat l.length with hlt | hge
      · rw [List.getElem?_append_left hlt]
      · rw [List.getElem?_eq_none hge,List.getElem?_eq_none]
        simp
        omega

/-- The keys are the numbers below the counter. -/
theorem represents_mem (h : Represents m next l) (k : UInt64) : k ∈ m ↔ k < next := by
  rw [Std.HashMap.mem_iff_isSome_getElem?,h.entry,UInt64.lt_iff_toNat_lt,h.size]
  simp

theorem represents_injective (h : Represents m next l) (hl : l.Nodup) {k k' : UInt64} {a : α}
    (hk : m[k]? = some a) (hk' : m[k']? = some a) : k = k' := by
  rw [h.entry] at hk hk'
  obtain ⟨hlt,rfl⟩ := List.getElem?_eq_some_iff.mp hk
  obtain ⟨hlt',he⟩ := List.getElem?_eq_some_iff.mp hk'
  exact UInt64.toNat_inj.mp ((hl.getElem_inj_iff).mp he.symm)

theorem represents_of_mem (h : Represents m next l) {a : α} (ha : a ∈ l) :
    ∃ k : UInt64, m[k]? = some a := by
  obtain ⟨i,hi,rfl⟩ := List.mem_iff_getElem.mp ha
  have hlt : i < UInt64.size := by
    have hnext := next.toNat_lt_size
    rw [h.size] at hnext
    exact Nat.lt_trans hi hnext
  refine ⟨UInt64.ofNat i,?_⟩
  rw [h.entry,UInt64.toNat_ofNat_of_lt' hlt]
  exact List.getElem?_eq_getElem hi

theorem mem_of_entry (h : Represents m next l) {k : UInt64} {a : α} (hk : m[k]? = some a) :
    a ∈ l := by
  rw [h.entry] at hk
  exact List.mem_of_getElem? hk

/-- An insertion under the counter replaces nothing. -/
theorem insert_keeps (h : Represents m next l) (b : α) {k : UInt64} {a : α}
    (hk : m[k]? = some a) : (m.insert next b)[k]? = some a := by
  have hne : next ≠ k := by
    rintro rfl
    rw [h.entry,h.size] at hk
    simp at hk
  rw [Std.HashMap.getElem?_insert,if_neg (by simpa using hne),hk]

end Ns3Helix.CounterMap
