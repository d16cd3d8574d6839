import Mathlib.Data.Nat.Basic
import Mathlib.Logic.Function.Basic
import MusicRemote.Foundation.Transition

namespace MusicRemote.Foundation

/-- In nanoseconds, the unit of the clocks. -/
def second : ℕ := 1000 * 1000 * 1000

namespace Throttle

open Transition

variable {ι : Type*} [DecidableEq ι]

/-- An activity from some time that a task has yet to enter: it looks at the timestamp first, and
then, under another lock, renews it. -/
inductive Refresh
  | checking (since : ℕ)
  | writing (since : ℕ)
  deriving DecidableEq

/-- A clock with a timestamp that several tasks keep, none of which renews it before it has some
age. The times of the activities that have been entered are carried along. -/
structure Throttled (ι : Type*) where
  now : ℕ
  stamp : ℕ
  refresh : ι → Option Refresh
  active : List ℕ

/-- The start counts as an activity. -/
def Throttled.start (now : ℕ) : Throttled ι := ⟨now, now, fun _ ↦ none, [now]⟩

def Throttled.elapsed (s : Throttled ι) : ℕ := s.now - s.stamp

inductive Action (ι : Type*)
  | pass (time : ℕ)
  | act (i : ι)
  | check (i : ι)
  | write (i : ι)
  | cancel (i : ι)
  deriving DecidableEq

def Throttled.enter (s : Throttled ι) (i : ι) (since : ℕ) : Throttled ι :=
  { s with refresh := Function.update s.refresh i none, active := s.active ++ [since] }

def step (period : ℕ) (s : Throttled ι) : Action ι → Option (Throttled ι)
  | .pass time => some { s with now := s.now + time }
  | .act i =>
    if s.refresh i = none then
      some { s with refresh := Function.update s.refresh i (some (.checking s.now)) }
    else none
  | .check i =>
    match s.refresh i with
    | some (.checking since) =>
      if period ≤ s.elapsed then
        some { s with refresh := Function.update s.refresh i (some (.writing since)) }
      else some (s.enter i since)
    | _ => none
  | .write i =>
    match s.refresh i with
    | some (.writing since) => some { s.enter i since with stamp := s.now }
    | _ => none
  | .cancel i => some { s with refresh := Function.update s.refresh i none }

def Refresh.since : Refresh → ℕ
  | .checking since | .writing since => since

structure Throttled.Sound (period : ℕ) (s : Throttled ι) : Prop where
  stamp : s.stamp ≤ s.now
  refresh : ∀ i r, s.refresh i = some r → r.since ≤ s.now
  active : ∀ t ∈ s.active, t ≤ s.now ∧ t < s.stamp + period

section

variable {period : ℕ} {s t : Throttled ι}

theorem Throttled.Sound.update {i : ι} {r : Option Refresh} (h : s.Sound period)
    (hr : ∀ r', r = some r' → r'.since ≤ s.now) :
    Throttled.Sound period { s with refresh := Function.update s.refresh i r } where
  stamp := h.stamp
  refresh j r' hj := by
    dsimp only at hj
    by_cases hij : j = i
    · subst hij
      rw [Function.update_self] at hj
      exact hr r' hj
    · rw [Function.update_of_ne hij] at hj
      exact h.refresh j r' hj
  active := h.active

theorem Throttled.Sound.enter {i : ι} {since : ℕ} (h : s.Sound period) (hnow : since ≤ s.now)
    (hstamp : since < s.stamp + period) : (s.enter i since).Sound period := by
  have hupdate := h.update (i := i) (r := none) fun _ hr ↦ by cases hr
  refine ⟨hupdate.stamp, hupdate.refresh, fun t ht ↦ ?_⟩
  obtain ht | ht := List.mem_append.1 ht
  · exact h.active t ht
  · rw [List.mem_singleton.1 ht]
    exact ⟨hnow, hstamp⟩

omit [DecidableEq ι] in
theorem Throttled.Sound.renew (h : s.Sound period) :
    Throttled.Sound period { s with stamp := s.now } where
  stamp := le_rfl
  refresh := h.refresh
  active t ht := ⟨(h.active t ht).1, lt_of_lt_of_le (h.active t ht).2
    (Nat.add_le_add_right h.stamp period)⟩

theorem Throttled.Sound.step {a : Action ι} (hp : 0 < period) (h : s.Sound period)
    (ht : step period s a = some t) : t.Sound period := by
  cases a with
  | pass time =>
    cases ht
    exact ⟨Nat.le_add_right_of_le h.stamp,
      fun i r hr ↦ Nat.le_add_right_of_le (h.refresh i r hr),
      fun u hu ↦ ⟨Nat.le_add_right_of_le (h.active u hu).1, (h.active u hu).2⟩⟩
  | act i =>
    simp only [Throttle.step, Option.ite_none_right_eq_some, Option.some.injEq] at ht
    obtain ⟨_, rfl⟩ := ht
    refine h.update fun r hr ↦ ?_
    cases hr
    exact le_rfl
  | check i =>
    simp only [Throttle.step] at ht
    split at ht
    · rename_i since hi
      have hsince : since ≤ s.now := h.refresh i _ hi
      split_ifs at ht with hold
      · cases ht
        refine h.update fun r hr ↦ ?_
        cases hr
        exact hsince
      · cases ht
        refine h.enter hsince ?_
        rw [Throttled.elapsed] at hold
        omega
    · cases ht
  | write i =>
    simp only [Throttle.step] at ht
    split at ht
    · rename_i since hi
      cases ht
      have hsince : since ≤ s.now := h.refresh i _ hi
      exact h.renew.enter hsince (Nat.lt_of_le_of_lt hsince (Nat.lt_add_of_pos_right hp))
    · cases ht
  | cancel i =>
    cases ht
    exact h.update fun _ hr ↦ by cases hr

theorem now_le {a : Action ι} (h : step period s a = some t) : s.now ≤ t.now := by
  cases a with
  | pass time =>
    cases h
    exact Nat.le_add_right _ _
  | act i =>
    simp only [step, Option.ite_none_right_eq_some, Option.some.injEq] at h
    exact h.2 ▸ le_rfl
  | check i =>
    simp only [step] at h
    split at h
    · split_ifs at h <;> cases h <;> exact le_rfl
    · cases h
  | write i =>
    simp only [step] at h
    split at h
    · cases h
      exact le_rfl
    · cases h
  | cancel i =>
    cases h
    exact le_rfl

/-- When a task is done with the timestamp, it is fresh. -/
theorem lt_of_check {i : ι} (h : step period s (.check i) = some t) (hi : t.refresh i = none) :
    t.now < t.stamp + period := by
  simp only [step] at h
  split at h
  · split_ifs at h with hold
    · cases h
      simp at hi
    · cases h
      rw [Throttled.elapsed] at hold
      simp only [Throttled.enter]
      omega
  · cases h

theorem eq_of_write {i : ι} (h : step period s (.write i) = some t) : t.now = t.stamp := by
  simp only [step] at h
  split at h
  · cases h
    rfl
  · cases h

/-- The rule for a machine that carries a throttled clock. -/
theorem Throttled.Sound.shown {a : Option (Action ι)} (hp : 0 < period) (h : s.Sound period)
    (ht : Shown (Throttle.step period) s a t) : t.Sound period := by
  cases a with
  | none => exact ht ▸ h
  | some a => exact h.step hp ht

omit [DecidableEq ι] in
theorem Throttled.Sound.start (hp : 0 < period) (n : ℕ) :
    (Throttled.start n : Throttled ι).Sound period := by
  refine ⟨le_rfl, fun _ _ hr ↦ (by cases hr), fun t ht ↦ ?_⟩
  rw [List.mem_singleton.1 ht]
  exact ⟨le_rfl, Nat.lt_add_of_pos_right hp⟩

omit [DecidableEq ι] in
/-- A timestamp of some age means that no activity is more than a period younger. -/
theorem Throttled.Sound.idle (h : s.Sound period) {age t : ℕ} (hage : age ≤ s.elapsed)
    (ht : t ∈ s.active) : t + age < s.now + period := by
  have hlt := (h.active t ht).2
  have hle := h.stamp
  rw [Throttled.elapsed] at hage
  omega

end

end Throttle

end MusicRemote.Foundation
