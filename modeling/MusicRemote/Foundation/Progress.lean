import Mathlib.Algebra.BigOperators.Group.Finset.Basic
import Mathlib.Algebra.BigOperators.Group.List.Basic
import Mathlib.Algebra.Ring.Nat
import Mathlib.Order.WellFounded
import MusicRemote.Foundation.Transition

namespace MusicRemote.Foundation.Transition

variable {σ α : Type*} {step : σ → α → Option σ} {ok : σ → α → Prop} {s t : σ} {as : List α}

def Stuck (step : σ → α → Option σ) (ok : σ → α → Prop) (s : σ) : Prop :=
  ∀ a, ok s a → step s a = none

/-- Where every admissible step goes down, the steps come to an end. -/
theorem Run.exists_stuck {ω : Type*} [Preorder ω] [WellFoundedLT ω] {I : σ → Prop} (size : σ → ω)
    (hs : ∀ s a t, I s → ok s a → step s a = some t → I t ∧ size t < size s) (hi : I s) :
    ∃ as t, Run step ok s as t ∧ Stuck step ok t := by
  induction hn : size s using WellFoundedLT.induction generalizing s with
  | ind n ih =>
    by_cases hstuck : Stuck step ok s
    · exact ⟨[], s, .nil s, hstuck⟩
    · simp only [Stuck, not_forall] at hstuck
      obtain ⟨a, ha, hne⟩ := hstuck
      obtain ⟨t, ht⟩ := Option.ne_none_iff_exists'.1 hne
      obtain ⟨hi', hlt⟩ := hs s a t hi ha ht
      obtain ⟨as, u, hrun, hu⟩ := ih (size t) (hn ▸ hlt) hi' rfl
      exact ⟨a :: as, u, .cons ha ht hrun, hu⟩

theorem Run.length_add_le {I : σ → Prop} (size : σ → ℕ) (h : Run step ok s as t)
    (hs : ∀ s a t, I s → ok s a → step s a = some t → I t ∧ size t < size s) (hi : I s) :
    as.length + size t ≤ size s := by
  induction h with
  | nil => exact Nat.le_of_eq (Nat.zero_add _)
  | cons ha hstep _ ih =>
    obtain ⟨hi', hlt⟩ := hs _ _ _ hi ha hstep
    have hle := ih hi'
    rw [List.length_cons]
    omega

/-- What one entry of a table costs, taken out of the sum. -/
theorem sum_map_set {β : Type*} (cost : β → ℕ) {l : List β} {i : ℕ} {x : β} (y : β)
    (h : l[i]? = some x) :
    ((l.set i y).map cost).sum + cost x = (l.map cost).sum + cost y := by
  induction l generalizing i with
  | nil => cases h
  | cons z l ih =>
    cases i with
    | zero =>
      rw [List.getElem?_cons_zero, Option.some.injEq] at h
      subst h
      simp only [List.set_cons_zero, List.map_cons, List.sum_cons]
      omega
    | succ i =>
      have hrest := ih h
      simp only [List.set_cons_succ, List.map_cons, List.sum_cons]
      omega

/-- The same for a family, of which the first entries count. -/
theorem sum_range_update {β : Type*} (cost : β → ℕ) (f : ℕ → β) {n i : ℕ} (x : β) (hi : i < n) :
    ∑ j ∈ Finset.range n, cost (Function.update f i x j) + cost (f i) =
      ∑ j ∈ Finset.range n, cost (f j) + cost x := by
  have hmem : i ∈ Finset.range n := Finset.mem_range.2 hi
  have hrest : ∑ j ∈ (Finset.range n).erase i, cost (Function.update f i x j) =
      ∑ j ∈ (Finset.range n).erase i, cost (f j) :=
    Finset.sum_congr rfl fun j hj ↦ by rw [Function.update_of_ne (Finset.ne_of_mem_erase hj)]
  rw [← Finset.add_sum_erase _ _ hmem, ← Finset.add_sum_erase _ (fun j ↦ cost (f j)) hmem, hrest,
    Function.update_self]
  omega

end MusicRemote.Foundation.Transition
