import Mathlib.Data.List.DropRight
import Mathlib.Data.List.Forall2
import Mathlib.Data.List.Nodup

namespace MusicRemote.Foundation

section

variable {α : Type*} {l : List α}

theorem countP_modify (p : α → Bool) (f : α → α) {k : ℕ} {a : α} (h : l[k]? = some a) :
    (l.modify k f).countP p + (p a).toNat = l.countP p + (p (f a)).toNat := by
  induction l generalizing k with
  | nil => cases h
  | cons b l ih =>
    cases k with
    | zero =>
      rw [List.getElem?_cons_zero, Option.some.injEq] at h
      subst h
      simp only [List.modify_zero_cons, List.countP_cons]
      cases p b <;> cases p (f b) <;> simp
    | succ k =>
      have := ih (by simpa using h)
      simp only [List.modify_succ_cons, List.countP_cons]
      omega

theorem two_le_countP {p : α → Bool} {i j : ℕ} {a b : α} (hij : i ≠ j) (ha : l[i]? = some a)
    (hb : l[j]? = some b) (hpa : p a = true) (hpb : p b = true) : 2 ≤ l.countP p := by
  induction l generalizing i j with
  | nil => cases ha
  | cons c l ih =>
    have pos : ∀ {k : ℕ} {d : α}, l[k]? = some d → p d = true → 0 < l.countP p :=
      fun hd hp ↦ List.countP_pos_iff.2 ⟨_, List.mem_of_getElem? hd, hp⟩
    rw [List.countP_cons]
    rcases i with _ | i <;> rcases j with _ | j <;>
      simp only [List.getElem?_cons_zero, List.getElem?_cons_succ, Option.some.injEq] at ha hb
    · exact absurd rfl hij
    · have := pos hb hpb
      rw [ha, if_pos hpa]
      omega
    · have := pos ha hpa
      rw [hb, if_pos hpb]
      omega
    · have := ih (by omega) ha hb
      omega

theorem rdropWhile_cons (p : α → Bool) (x : α) (l : List α) :
    (x :: l).rdropWhile p =
      if l.rdropWhile p = [] then [x].rdropWhile p else x :: l.rdropWhile p := by
  rw [List.rdropWhile, List.rdropWhile, List.rdropWhile, List.reverse_cons, List.dropWhile_append]
  by_cases h : l.reverse.dropWhile p = [] <;> simp [h]

/-- What stands at increasing places of a list is a part of it, in order. -/
theorem sublist_of_increasing {ys : List α} {ks : List ℕ} {n : ℕ} (hle : ∀ k ∈ ks, n ≤ k)
    (hks : ks.Pairwise (· < ·)) (h : List.Forall₂ (fun k y ↦ l[k - n]? = some y) ks ys) :
    ys.Sublist l := by
  induction l generalizing n ks ys with
  | nil =>
    cases h with
    | nil => exact List.Sublist.refl _
    | cons hk _ => cases hk
  | cons x l ih =>
    have hskip {ks : List ℕ} {ys : List α} (hlt : ∀ k ∈ ks, n + 1 ≤ k)
        (h : List.Forall₂ (fun k y ↦ (x :: l)[k - n]? = some y) ks ys) :
        List.Forall₂ (fun k y ↦ l[k - (n + 1)]? = some y) ks ys := by
      induction h with
      | nil => exact .nil
      | @cons k y ks ys hk _ ih =>
        have hlt' := hlt k List.mem_cons_self
        refine .cons ?_ (ih fun k hk ↦ hlt k (List.mem_cons_of_mem _ hk))
        rwa [show k - n = k - (n + 1) + 1 by omega, List.getElem?_cons_succ] at hk
    cases h with
    | nil => exact List.nil_sublist _
    | @cons k y ks ys hk hrest =>
      obtain ⟨hfirst, hks'⟩ := List.pairwise_cons.1 hks
      have hn := hle k List.mem_cons_self
      by_cases heq : k = n
      · rw [heq, Nat.sub_self, List.getElem?_cons_zero, Option.some.injEq] at hk
        subst hk
        have hlt : ∀ k' ∈ ks, n + 1 ≤ k' := fun k' hk' ↦ heq ▸ hfirst k' hk'
        exact (ih hlt hks' (hskip hlt hrest)).cons_cons x
      · have hlt : ∀ k' ∈ k :: ks, n + 1 ≤ k' := by
          intro k' hk'
          rcases List.mem_cons.1 hk' with rfl | hk'
          · omega
          · have := hfirst k' hk'
            omega
        exact (ih hlt hks (hskip hlt (.cons hk hrest))).cons x

end

section

variable {α β : Type*} {l : List α}

/-- A list has one place for each thing that is told of it once. -/
theorem eq_of_nodup_filterMap {f : α → Option β} (h : (l.filterMap f).Nodup) {i j : ℕ} {x y : α}
    {z : β} (hx : l[i]? = some x) (hy : l[j]? = some y) (hfx : f x = some z)
    (hfy : f y = some z) : i = j := by
  rw [List.Nodup, List.pairwise_filterMap, List.pairwise_iff_getElem] at h
  obtain ⟨hi, rfl⟩ := List.getElem?_eq_some_iff.1 hx
  obtain ⟨hj, rfl⟩ := List.getElem?_eq_some_iff.1 hy
  rcases Nat.lt_trichotomy i j with hij | hij | hij
  · exact absurd rfl (h i j hi hj hij z hfx z hfy)
  · exact hij
  · exact absurd rfl (h j i hj hi hij z hfy z hfx)

theorem ne_of_mem_eraseP [DecidableEq β] {f : α → β} {a : α} {b : β} (h : (l.map f).Nodup)
    (ha : a ∈ l.eraseP (f · = b)) : f a ≠ b := by
  induction l with
  | nil => cases ha
  | cons c l ih =>
    rw [List.map_cons, List.nodup_cons] at h
    by_cases hc : f c = b
    · rw [List.eraseP_cons_of_pos (by simpa using hc)] at ha
      intro hb
      exact h.1 (hc.trans hb.symm ▸ List.mem_map_of_mem ha)
    · rw [List.eraseP_cons_of_neg (by simpa using hc)] at ha
      rcases List.mem_cons.1 ha with rfl | ha
      · exact hc
      · exact ih h.2 ha

/-- Distinct labels tell the elements of a list, so it is known from their order. -/
theorem eq_of_map_eq {l' : List α} (f : α → β) (hn : (l'.map f).Nodup) (h : l.map f = l'.map f)
    (hl : ∀ x ∈ l, x ∈ l') : l = l' := by
  induction l generalizing l' with
  | nil => rw [List.map_eq_nil_iff.1 h.symm]
  | cons x l ih =>
    cases l' with
    | nil => cases h
    | cons y l' =>
      have hxy : x = y := List.inj_on_of_nodup_map hn (hl x List.mem_cons_self) List.mem_cons_self
        (List.cons.inj h).1
      rw [List.map_cons, List.nodup_cons] at hn
      have htail := (List.cons.inj h).2
      rw [hxy, ih hn.2 htail fun z hz ↦ ?_]
      refine (List.mem_cons.1 (hl z (List.mem_cons_of_mem x hz))).resolve_left fun hzy ↦ hn.1 ?_
      rw [← htail, ← hzy]
      exact List.mem_map_of_mem hz

variable {R : α → β → Prop} {l' : List β}

theorem exists_forall₂ (h : ∀ x ∈ l, ∃ y, R x y) : ∃ l', List.Forall₂ R l l' := by
  induction l with
  | nil => exact ⟨[], .nil⟩
  | cons x l ih =>
    obtain ⟨y, hy⟩ := h x List.mem_cons_self
    obtain ⟨l', hl'⟩ := ih fun z hz ↦ h z (List.mem_cons_of_mem x hz)
    exact ⟨y :: l', .cons hy hl'⟩

theorem forall₂_getElem? {i : ℕ} {a : α} (h : List.Forall₂ R l l') (hi : l[i]? = some a) :
    ∃ b, l'[i]? = some b ∧ R a b := by
  obtain ⟨hlen, hget⟩ := List.forall₂_iff_get.1 h
  obtain ⟨hlt, rfl⟩ := List.getElem?_eq_some_iff.1 hi
  exact ⟨_, List.getElem?_eq_getElem (hlen ▸ hlt), hget i hlt (hlen ▸ hlt)⟩

theorem forall₂_set {a : α} {b : β} (h : List.Forall₂ R l l') (i : ℕ) (hab : R a b) :
    List.Forall₂ R (l.set i a) (l'.set i b) := by
  obtain ⟨hlen, hget⟩ := List.forall₂_iff_get.1 h
  refine List.forall₂_iff_get.2 ⟨by simpa using hlen, fun j hj hj' ↦ ?_⟩
  simp only [List.get_eq_getElem, List.getElem_set]
  split_ifs
  · exact hab
  · exact hget j (by simpa using hj) (by simpa using hj')

end

theorem mapM_eq_some {α β γ : Type} {f : β → Option γ} {g : α → β} {h : α → γ} {l : List α}
    (hf : ∀ x ∈ l, f (g x) = some (h x)) : (l.map g).mapM f = some (l.map h) := by
  induction l with
  | nil => rfl
  | cons x l ih =>
    rw [List.map_cons, List.mapM_cons, hf x List.mem_cons_self,
      ih fun y hy ↦ hf y (List.mem_cons_of_mem x hy)]
    rfl

end MusicRemote.Foundation
