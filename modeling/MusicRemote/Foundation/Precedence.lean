import Mathlib.Data.List.Nodup

namespace MusicRemote.Foundation

variable {α : Type*} {l l₁ l₂ : List α} {a b : α}

def Precedes (l : List α) (a b : α) : Prop := List.Sublist [a, b] l

namespace Precedes

theorem cons_iff {x : α} : Precedes (x :: l) a b ↔ x = a ∧ b ∈ l ∨ Precedes l a b := by
  unfold Precedes
  constructor
  · intro h
    cases h with
    | cons _ h => exact .inr h
    | cons_cons _ h => exact .inl ⟨rfl, List.singleton_sublist.1 h⟩
  · rintro (⟨rfl, h⟩ | h)
    · exact (List.singleton_sublist.2 h).cons_cons x
    · exact h.cons x

theorem left (h : Precedes l a b) : a ∈ l := h.subset List.mem_cons_self

theorem right (h : Precedes l a b) : b ∈ l := h.subset (List.mem_cons_of_mem _ List.mem_cons_self)

theorem mono (h : Precedes l₁ a b) (hl : l₁.Sublist l) : Precedes l a b := h.trans hl

theorem append (ha : a ∈ l₁) (hb : b ∈ l₂) : Precedes (l₁ ++ l₂) a b :=
  (List.singleton_sublist.2 ha).append (List.singleton_sublist.2 hb)

theorem rel {r : α → α → Prop} (hr : l.Pairwise r) (h : Precedes l a b) : r a b :=
  List.pairwise_pair.1 (hr.sublist h)

theorem total (ha : a ∈ l) (hb : b ∈ l) (hne : a ≠ b) : Precedes l a b ∨ Precedes l b a := by
  induction l with
  | nil => cases ha
  | cons x l ih =>
    simp only [cons_iff]
    obtain rfl | ha := List.mem_cons.1 ha
    · exact .inl (.inl ⟨rfl, List.mem_of_ne_of_mem hne.symm hb⟩)
    obtain rfl | hb := List.mem_cons.1 hb
    · exact .inr (.inl ⟨rfl, List.mem_of_ne_of_mem hne ha⟩)
    · exact (ih ha hb).imp .inr .inr

theorem asymm (hl : l.Nodup) (h : Precedes l a b) : ¬ Precedes l b a := by
  intro h'
  induction l with
  | nil => cases h
  | cons x l ih =>
    obtain ⟨hx, hl⟩ := List.nodup_cons.1 hl
    obtain ⟨rfl, hb⟩ | h := cons_iff.1 h
    · obtain ⟨rfl, -⟩ | h' := cons_iff.1 h'
      · exact hx hb
      · exact hx h'.right
    · obtain ⟨rfl, -⟩ | h' := cons_iff.1 h'
      · exact hx h.right
      · exact ih hl h h'

/-- Two parts of a list without repetitions agree on the order of what they share. -/
theorem agree (hl : l.Nodup) (h₁ : l₁.Sublist l) (h₂ : l₂.Sublist l) (h : Precedes l₁ a b)
    (ha : a ∈ l₂) (hb : b ∈ l₂) : Precedes l₂ a b := by
  have hab := h.mono h₁
  have hne : a ≠ b := by
    rintro rfl
    exact asymm hl hab hab
  obtain h | h := total ha hb hne
  · exact h
  · exact absurd (h.mono h₂) (asymm hl hab)

theorem of_isPrefix (hl : l.Nodup) (h₁ : l₁ <+: l) (h : Precedes l a b) (hb : b ∈ l₁) :
    Precedes l₁ a b := by
  obtain ⟨l₂, rfl⟩ := h₁
  obtain ha | ha := List.mem_append.1 h.left
  · exact agree hl (List.Sublist.refl _) (List.sublist_append_left ..) h ha hb
  · exact absurd (append hb ha) (asymm hl h)

end Precedes

end MusicRemote.Foundation
