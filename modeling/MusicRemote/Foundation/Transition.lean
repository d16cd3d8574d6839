import Mathlib.Data.List.Basic

namespace MusicRemote.Foundation.Transition

variable {σ α : Type*}

/-- A schedule: each label names the step that the scheduler picks next. Every
picked step is enabled, and meets `ok` in the state it is taken from. -/
inductive Run (step : σ → α → Option σ) (ok : σ → α → Prop) : σ → List α → σ → Prop
  | nil (s : σ) : Run step ok s [] s
  | cons {s t u : σ} {a : α} {as : List α} :
      ok s a → step s a = some t → Run step ok t as u → Run step ok s (a :: as) u

def Any : σ → α → Prop := fun _ _ ↦ True

instance (s : σ) (a : α) : Decidable (Any s a) := .isTrue trivial

def execute (step : σ → α → Option σ) (ok : σ → α → Prop) [∀ s a, Decidable (ok s a)] :
    σ → List α → Option σ
  | s, [] => some s
  | s, a :: as => if ok s a then (step s a).bind (fun t ↦ execute step ok t as) else none

/-- What a step looks like from a machine that sees only some labels: it goes along with those and
stays where it is at the others. -/
def Shown (step : σ → α → Option σ) (s : σ) : Option α → σ → Prop
  | some a, t => step s a = some t
  | none, t => t = s

/-- What can be seen of the states along a schedule, as far as it can be carried out. -/
def observed {β : Type*} (step : σ → α → Option σ) (f : σ → β) : σ → List α → List β
  | s, [] => [f s]
  | s, a :: as => f s :: (step s a).elim [] fun t ↦ observed step f t as

/-- What can be told of the steps of a schedule, as far as it can be carried out. -/
def traced {β : Type*} (step : σ → α → Option σ) (f : σ → α → Option β) : σ → List α → List β
  | _, [] => []
  | s, a :: as => (f s a).toList ++ (step s a).elim [] fun t ↦ traced step f t as

namespace Run

variable {step : σ → α → Option σ} {ok ok' : σ → α → Prop} {s t u : σ} {as bs : List α} {a : α}

theorem one (ha : ok s a) (hs : step s a = some t) : Run step ok s [a] t := .cons ha hs (.nil t)

theorem trans (h : Run step ok s as t) (h' : Run step ok t bs u) :
    Run step ok s (as ++ bs) u := by
  induction h with
  | nil => exact h'
  | cons ha hs _ ih => exact .cons ha hs (ih h')

theorem mono (h : Run step ok s as t) (hok : ∀ s a, ok s a → ok' s a) : Run step ok' s as t := by
  induction h with
  | nil => exact .nil _
  | cons ha hs _ ih => exact .cons (hok _ _ ha) hs ih

theorem any (h : Run step ok s as t) : Run step Any s as t := h.mono (fun _ _ _ ↦ trivial)

theorem forall_mem {P : α → Prop} (h : Run step ok s as t) (hok : ∀ s a, ok s a → P a) :
    ∀ a ∈ as, P a := by
  induction h with
  | nil => exact fun _ hmem ↦ by cases hmem
  | cons ha _ _ ih => exact List.forall_mem_cons.2 ⟨hok _ _ ha, ih⟩

/-- What holds at the start and survives every admissible step holds at the end. -/
theorem invariant {I : σ → Prop} (h : Run step ok s as t)
    (hs : ∀ s a t, I s → ok s a → step s a = some t → I t) (hi : I s) : I t := by
  induction h with
  | nil => exact hi
  | cons ha h _ ih => exact ih (hs _ _ _ hi ha h)

/-- The rule for an invariant that leans on one proved before. -/
theorem invariant_of {I J : σ → Prop} (h : Run step ok s as t)
    (hJ : ∀ s a t, J s → ok s a → step s a = some t → J t)
    (hs : ∀ s a t, J s → I s → ok s a → step s a = some t → I t) (hj : J s) (hi : I s) : I t :=
  (h.invariant (I := fun s ↦ J s ∧ I s)
    (fun s a t h ha ht ↦ ⟨hJ s a t h.1 ha ht, hs s a t h.1 h.2 ha ht⟩) ⟨hj, hi⟩).2

/-- The rule for what relates a state to the labels that led to it. -/
theorem history {I : List α → σ → Prop} (h : Run step ok s as t)
    (hs : ∀ bs s a t, I bs s → ok s a → step s a = some t → I (bs ++ [a]) t)
    (hi : I [] s) : I as t := by
  suffices ∀ bs, I bs s → I (bs ++ as) t from this [] hi
  clear hi
  induction h with
  | nil => exact fun bs hi ↦ by rwa [List.append_nil]
  | cons ha h _ ih =>
    intro bs hi
    rw [List.append_cons]
    exact ih _ (hs _ _ _ _ hi ha h)

/-- The rule for an invariant that leans on what is known of every run. -/
theorem along {I : σ → Prop} (h : Run step ok s as t)
    (hs : ∀ bs u a v, Run step ok s bs u → I u → ok u a → step u a = some v → I v)
    (hi : I s) : I t :=
  (h.history (I := fun bs u ↦ Run step ok s bs u ∧ I u)
    (fun bs u a v hu ha hv ↦ ⟨hu.1.trans (.one ha hv), hs bs u a v hu.1 hu.2 ha hv⟩)
    ⟨.nil s, hi⟩).2

theorem traced_concat {β : Type*} (f : σ → α → Option β) (h : Run step ok s as t) (a : α) :
    traced step f s (as ++ [a]) = traced step f s as ++ (f t a).toList := by
  induction h with
  | nil s => cases hstep : step s a <;> simp [traced, hstep]
  | cons _ hstep _ ih => simp [traced, hstep, ih]

theorem exists_of_mem_traced {β : Type*} {f : σ → α → Option β} {b : β} {s : σ} {as : List α}
    (h : b ∈ traced step f s as) : ∃ u a, a ∈ as ∧ f u a = some b := by
  induction as generalizing s with
  | nil => cases h
  | cons a as ih =>
    rw [traced, List.mem_append] at h
    rcases h with h | h
    · exact ⟨s, a, List.mem_cons_self, Option.mem_toList.1 h⟩
    · cases hstep : step s a with
      | none =>
        rw [hstep] at h
        cases h
      | some t =>
        rw [hstep] at h
        obtain ⟨u, c, hc, hf⟩ := ih h
        exact ⟨u, c, List.mem_cons_of_mem a hc, hf⟩

/-- A run seen through a view is a run of the machine that makes on the views the moves that are
told of the steps, under the condition that they meet. -/
theorem simulate_ok {τ β : Type*} {next : τ → β → Option τ} {may : τ → β → Prop}
    (h : Run step ok s as t) (view : σ → τ) (label : σ → α → Option β)
    (hs : ∀ bs u a v, Run step ok s bs u → ok u a → step u a = some v →
      Shown next (view u) (label u a) (view v) ∧ ∀ b, label u a = some b → may (view u) b) :
    Run next may (view s) (traced step label s as) (view t) := by
  refine (h.history (I := fun bs u ↦ Run step ok s bs u ∧
    Run next may (view s) (traced step label s bs) (view u)) (fun bs u a v hu ha hv ↦ ?_)
    ⟨.nil s, .nil _⟩).2
  refine ⟨hu.1.trans (.one ha hv), ?_⟩
  obtain ⟨hshown, hmay⟩ := hs bs u a v hu.1 ha hv
  rw [hu.1.traced_concat]
  cases hl : label u a with
  | none =>
    rw [hl, Shown] at hshown
    simpa [hl, hshown] using hu.2
  | some b =>
    rw [hl, Shown] at hshown
    exact hu.2.trans (.one (hmay b hl) hshown)

theorem simulate {τ β : Type*} {next : τ → β → Option τ} (h : Run step ok s as t) (view : σ → τ)
    (label : σ → α → Option β)
    (hs : ∀ bs u a v, Run step ok s bs u → ok u a → step u a = some v →
      Shown next (view u) (label u a) (view v)) :
    Run next Any (view s) (traced step label s as) (view t) :=
  h.simulate_ok view label fun bs u a v hu ha hv ↦ ⟨hs bs u a v hu ha hv, fun _ _ ↦ trivial⟩

theorem traced_eq_filterMap {β : Type*} (label : α → Option β) (h : Run step ok s as t) :
    traced step (fun _ a ↦ label a) s as = as.filterMap label := by
  induction h with
  | nil => rfl
  | @cons _ _ _ a _ _ hstep _ ih =>
    rw [traced, hstep, Option.elim_some, ih, List.filterMap_cons]
    cases label a <;> rfl

/-- The same when the labels alone tell the moves. -/
theorem project {τ β : Type*} {next : τ → β → Option τ} (h : Run step ok s as t) (view : σ → τ)
    (label : α → Option β)
    (hs : ∀ bs u a v, Run step ok s bs u → step u a = some v →
      Shown next (view u) (label a) (view v)) :
    Run next Any (view s) (as.filterMap label) (view t) := by
  have hrun := h.simulate view (fun _ a ↦ label a)
    fun bs u a v hu _ hv ↦ hs bs u a v hu hv
  rwa [h.traced_eq_filterMap] at hrun

/-- A run within a machine that its machine is a part of. -/
theorem lift {τ β : Type*} {next : τ → β → Option τ} (h : Run step ok s as t) (put : σ → τ)
    (label : α → β)
    (hs : ∀ u a v, ok u a → step u a = some v → next (put u) (label a) = some (put v)) :
    Run next Any (put s) (as.map label) (put t) := by
  induction h with
  | nil => exact .nil _
  | cons ha hstep _ ih => exact .cons trivial (hs _ _ _ ha hstep) ih

theorem getLast?_observed {β : Type*} (f : σ → β) (h : Run step ok s as t) :
    (observed step f s as).getLast? = some (f t) := by
  induction h with
  | nil s => rfl
  | cons _ hstep _ ih => rw [observed, hstep, Option.elim_some, List.getLast?_cons, ih]; rfl

/-- Two runs side by side: steps that match keep the states related, and what can be seen of related
states is the same. -/
theorem lockstep {β : Type*} {R : σ → σ → Prop} {S : α → α → Prop} {f : σ → β} {s' : σ}
    (h : Run step ok s as t) (hl : List.Forall₂ S as bs) (hr : R s s')
    (hs : ∀ s s' a b t, R s s' → S a b → step s a = some t → ∃ t', step s' b = some t' ∧ R t t')
    (hf : ∀ s s', R s s' → f s = f s') :
    ∃ t', Run step Any s' bs t' ∧ R t t' ∧ observed step f s as = observed step f s' bs := by
  induction h generalizing s' bs with
  | nil s =>
    cases hl
    refine ⟨s', .nil s', hr, ?_⟩
    rw [observed, observed, hf _ _ hr]
  | cons ha hstep _ ih =>
    cases hl with
    | cons hab hl =>
      obtain ⟨u', hu, hr'⟩ := hs _ _ _ _ _ hr hab hstep
      obtain ⟨t', ht, hrt, ho⟩ := ih hl hr'
      refine ⟨t', .cons trivial hu ht, hrt, ?_⟩
      rw [observed, observed, hstep, hu, Option.elim_some, Option.elim_some, ho, hf _ _ hr]

/-- A run without some of its steps: those left out keep the states related, and the others can be
taken again. -/
theorem thin {R : σ → σ → Prop} {s' : σ} (h : Run step ok s as t) (mayDrop : α → Bool)
    (hr : R s s')
    (hs : ∀ s s' a t, R s s' → ok s a → step s a = some t →
      mayDrop a = true ∧ R t s' ∨ ∃ t', ok' s' a ∧ step s' a = some t' ∧ R t t') :
    ∃ bs t', bs.Sublist as ∧ bs.filter (!mayDrop ·) = as.filter (!mayDrop ·) ∧
      Run step ok' s' bs t' ∧ R t t' := by
  induction h generalizing s' with
  | nil s => exact ⟨[], s', .slnil, rfl, .nil s', hr⟩
  | @cons _ _ _ a _ ha hstep _ ih =>
    obtain ⟨hdrop, hr'⟩ | ⟨u', ha', hu', hr'⟩ := hs _ _ _ _ hr ha hstep
    · obtain ⟨bs, t', hsub, hfilter, hrun, hrt⟩ := ih hr'
      exact ⟨bs, t', hsub.cons a, by simp [hdrop, hfilter], hrun, hrt⟩
    · obtain ⟨bs, t', hsub, hfilter, hrun, hrt⟩ := ih hr'
      exact ⟨a :: bs, t', hsub.cons_cons a, by simp [List.filter_cons, hfilter],
        .cons ha' hu' hrun, hrt⟩

theorem of_execute [∀ s a, Decidable (ok s a)] (h : execute step ok s as = some t) :
    Run step ok s as t := by
  induction as generalizing s with
  | nil => exact Option.some.inj h ▸ .nil s
  | cons a as ih =>
    simp only [execute, Option.ite_none_right_eq_some, Option.bind_eq_some_iff] at h
    obtain ⟨ha, r, hr, h⟩ := h
    exact .cons ha hr (ih h)

/-- A schedule that can be carried out is a run, and its outcome can be observed. -/
theorem exists_of_execute [∀ s a, Decidable (ok s a)] {P : σ → Prop} [DecidablePred P]
    (h : (execute step ok s as).any (fun t ↦ decide (P t)) = true) :
    ∃ t, Run step ok s as t ∧ P t := by
  obtain ⟨t, ht, hp⟩ := (Option.any_eq_true ..).1 h
  exact ⟨t, of_execute ht, of_decide_eq_true hp⟩

end Run

end MusicRemote.Foundation.Transition
