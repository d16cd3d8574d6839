import Mathlib.Data.Nat.Basic

namespace MusicRemote.Foundation.Loop

variable {σ ρ : Type*}

/-- `loop { body }`: a round either goes on from a new state or leaves with a
result. `none` means that the rounds granted were not enough. -/
def loop (body : σ → σ ⊕ ρ) : ℕ → σ → Option ρ
  | 0, _ => none
  | n + 1, s =>
    match body s with
    | .inl t => loop body n t
    | .inr r => some r

variable {body : σ → σ ⊕ ρ} {s t : σ} {r : ρ} {n : ℕ}

theorem loop_next (h : body s = .inl t) : loop body (n + 1) s = loop body n t := by
  simp only [loop, h]

theorem loop_leave (h : body s = .inr r) : loop body (n + 1) s = some r := by
  simp only [loop, h]

/-- The rule for leaving: a measure that every further round lowers bounds the
rounds, and what the rounds keep holds of the result. -/
theorem loop_ends {I : σ → Prop} {Q : ρ → Prop} (size : σ → ℕ)
    (hnext : ∀ s t, I s → body s = .inl t → I t ∧ size t < size s)
    (hleave : ∀ s r, I s → body s = .inr r → Q r) (hs : I s) (hn : size s < n) :
    ∃ r, loop body n s = some r ∧ Q r := by
  induction n generalizing s with
  | zero => omega
  | succ n ih =>
    cases hb : body s with
    | inl t =>
      obtain ⟨ht, hlt⟩ := hnext s t hs hb
      obtain ⟨r, hr, hq⟩ := ih ht (by omega)
      exact ⟨r, (loop_next hb).trans hr, hq⟩
    | inr r => exact ⟨r, loop_leave hb, hleave s r hs hb⟩

end MusicRemote.Foundation.Loop
