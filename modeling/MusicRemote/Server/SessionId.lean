import Mathlib.Data.List.Perm.Basic
import MusicRemote.Foundation.Transition
import MusicRemote.Server.Session

namespace MusicRemote.Server.SessionId

open Foundation.Transition

inductive Call
  | looping
  | returned (id : UInt32)
  deriving DecidableEq

def Call.id : Call → Option UInt32
  | .looping => none
  | .returned id => some id

/-- `SESSION_COUNTER`, the calls made so far by any task, and what they have returned, in the order
of the `fetch_add`s that fetched it. -/
structure State where
  counter : UInt32
  calls : List Call
  results : List UInt32

def State.start : State := ⟨0, [], []⟩

inductive Action
  | call
  | fetchAdd (j : ℕ)
  deriving DecidableEq

def Action.isFetchAdd : Action → Bool
  | .fetchAdd _ => true
  | .call => false

/-- One `SESSION_COUNTER.fetch_add(1, …)`, and what its call makes of the old value. -/
def fetchAdd (s : State) (j : ℕ) : State :=
  if s.counter > 0 then
    { counter := s.counter + 1
      calls := s.calls.set j (.returned s.counter)
      results := s.results ++ [s.counter] }
  else { s with counter := s.counter + 1 }

def step (s : State) : Action → Option State
  | .call => some { s with calls := s.calls ++ [.looping] }
  | .fetchAdd j => if s.calls[j]? = some .looping then some (fetchAdd s j) else none

/-- How many ids there are: every `u32` but 0. -/
abbrev period : ℕ := 2 ^ 32 - 1

def State.skips (s : State) : ℕ := s.results.length / period + if s.counter = 0 then 0 else 1

/-- The counter stands at the next id, or at the 0 before the first of a round. -/
structure Issued (s : State) : Prop where
  id : ∀ k id, s.results[k]? = some id → id.toNat = k % period + 1
  counter : s.counter.toNat = s.results.length % period + 1 ∨
    s.counter = 0 ∧ s.results.length % period = 0
  calls : (s.calls.filterMap Call.id).Perm s.results

section

variable {s t : State} {a : Action} {as : List Action} {j : ℕ}

inductive Fetches (s : State) (j : ℕ) : State → Prop
  | skip (zero : s.counter = 0) : Fetches s j ⟨1, s.calls, s.results⟩
  | issue (pos : s.counter ≠ 0) :
      Fetches s j ⟨s.counter + 1, s.calls.set j (.returned s.counter), s.results ++ [s.counter]⟩

theorem eq_zero_of_not_pos {c : UInt32} (h : ¬ c > 0) : c = 0 := by
  rw [gt_iff_lt, UInt32.lt_iff_toNat_lt] at h
  exact UInt32.toNat_inj.1 (Nat.eq_zero_of_not_pos h)

theorem fetchAdd_fetches (s : State) (j : ℕ) : Fetches s j (fetchAdd s j) := by
  unfold fetchAdd
  split
  · next h => exact .issue (fun hzero ↦ by rw [hzero] at h; exact absurd h (by decide))
  · next h =>
    have hzero := eq_zero_of_not_pos h
    rw [hzero]
    exact .skip hzero

theorem step_call (h : step s .call = some t) : t = { s with calls := s.calls ++ [.looping] } :=
  (Option.some.inj h).symm

theorem step_fetchAdd (h : step s (.fetchAdd j) = some t) :
    s.calls[j]? = some .looping ∧ Fetches s j t := by
  simp only [step, Option.ite_none_right_eq_some] at h
  obtain ⟨hj, h⟩ := h
  exact ⟨hj, Option.some.inj h ▸ fetchAdd_fetches s j⟩

theorem counter_add_one (c : UInt32) :
    (c + 1).toNat = c.toNat + 1 ∧ c.toNat + 1 < 2 ^ 32 ∨ c.toNat = period ∧ c + 1 = 0 := by
  have hlt := c.toNat_lt
  have hadd : (c + 1).toNat = (c.toNat + 1) % 2 ^ 32 := by simp
  rcases Nat.lt_or_ge (c.toNat + 1) (2 ^ 32) with hsmall | hlarge
  · exact .inl ⟨by rw [hadd, Nat.mod_eq_of_lt hsmall], hsmall⟩
  · have heq : c.toNat = period := by unfold period; omega
    exact .inr ⟨heq, UInt32.toNat_inj.1 (by rw [hadd, heq]; rfl)⟩

theorem filterMap_id_set (h : s.calls[j]? = some .looping) (id : UInt32) :
    ((s.calls.set j (.returned id)).filterMap Call.id).Perm
      (s.calls.filterMap Call.id ++ [id]) := by
  obtain ⟨hj, hget⟩ := List.getElem?_eq_some_iff.1 h
  have hsplit : s.calls = s.calls.take j ++ .looping :: s.calls.drop (j + 1) := by
    rw [← hget, List.getElem_cons_drop, List.take_append_drop]
  have hleft : (s.calls.set j (.returned id)).filterMap Call.id =
      (s.calls.take j).filterMap Call.id ++ id :: (s.calls.drop (j + 1)).filterMap Call.id := by
    rw [List.set_eq_take_append_cons_drop, if_pos hj, List.filterMap_append]
    rfl
  have hright : s.calls.filterMap Call.id =
      (s.calls.take j).filterMap Call.id ++ (s.calls.drop (j + 1)).filterMap Call.id := by
    conv_lhs => rw [hsplit, List.filterMap_append]
    rfl
  rw [hleft, hright]
  exact List.perm_middle.trans (List.perm_append_singleton ..).symm

theorem issued_start : Issued .start where
  id _ _ h := by cases h
  counter := .inr ⟨rfl, rfl⟩
  calls := .nil

theorem Issued.fetches (hi : Issued s) (hj : s.calls[j]? = some .looping) (h : Fetches s j t) :
    Issued t := by
  cases h with
  | skip zero =>
    refine ⟨hi.id, .inl ?_, hi.calls⟩
    rcases hi.counter with hc | ⟨-, hr⟩
    · rw [zero] at hc
      cases hc
    · simp only [hr]
      rfl
  | issue pos =>
    obtain hc | ⟨hc, -⟩ := hi.counter
    · refine ⟨?_, ?_, (filterMap_id_set hj _).trans (hi.calls.append_right _)⟩
      · intro k id hk
        rw [List.getElem?_append] at hk
        split at hk
        · exact hi.id k id hk
        · rw [List.getElem?_singleton, Option.ite_none_right_eq_some] at hk
          have hlen : k = s.results.length := by omega
          rw [← Option.some.inj hk.2, hc, hlen]
      · simp only [List.length_append, List.length_singleton]
        -- past the largest id the round is complete and the counter at 0
        rcases counter_add_one s.counter with ⟨hadd, hlt⟩ | ⟨heq, hzero⟩
        · left
          rw [hadd]
          unfold period at hc ⊢
          omega
        · refine .inr ⟨hzero, ?_⟩
          unfold period at hc heq ⊢
          omega
    · exact absurd hc pos

theorem Issued.step (hi : Issued s) (h : step s a = some t) : Issued t := by
  cases a with
  | call =>
    have hcalls : (s.calls ++ [Call.looping]).filterMap Call.id = s.calls.filterMap Call.id := by
      rw [List.filterMap_append]
      exact List.append_nil _
    rw [step_call h]
    exact ⟨hi.id, hi.counter, by rw [hcalls]; exact hi.calls⟩
  | fetchAdd j =>
    obtain ⟨hj, hf⟩ := step_fetchAdd h
    exact hi.fetches hj hf

/-- Another 0 is met only where a round is complete. -/
theorem Issued.skips_fetches (hi : Issued s) (h : Fetches s j t) :
    t.results.length + t.skips = s.results.length + s.skips + 1 ∧ s.skips ≤ t.skips ∧
      t.skips ≤ s.skips + 1 := by
  cases h with
  | skip zero =>
    have hone : (1 : UInt32) ≠ 0 := by decide
    simp only [State.skips, zero, if_true, if_neg hone]
    omega
  | issue pos =>
    obtain hc | ⟨hc, -⟩ := hi.counter
    · simp only [State.skips, if_neg pos, List.length_append, List.length_singleton]
      rcases counter_add_one s.counter with ⟨hadd, hlt⟩ | ⟨heq, hzero⟩
      · have hne : s.counter + 1 ≠ 0 := fun h0 ↦ by
          rw [h0] at hadd
          cases hadd
        rw [if_neg hne]
        unfold period at *
        omega
      · rw [if_pos hzero]
        unfold period at *
        omega
    · exact absurd hc pos

/-- The `fetch_add`s of a run are those that issued an id and those that met a 0; a call alone makes
no more than there were zeros, and one more when it returns. -/
structure Charged (as : List Action) (s : State) : Prop where
  issued : Issued s
  total : as.countP Action.isFetchAdd = s.results.length + s.skips
  none : ∀ j, s.calls[j]? = .none → as.count (.fetchAdd j) = 0
  looping : ∀ j, s.calls[j]? = some .looping → as.count (.fetchAdd j) ≤ s.skips

theorem charged_start : Charged [] .start where
  issued := issued_start
  total := rfl
  none _ _ := rfl
  looping _ h := by cases h

theorem Charged.call (h : Charged as s) :
    Charged (as ++ [.call]) { s with calls := s.calls ++ [.looping] } where
  issued := h.issued.step (a := .call) rfl
  total := by rw [List.countP_append]; exact h.total
  none j hj := by
    rw [List.count_append]
    rw [List.getElem?_eq_none_iff, List.length_append] at hj
    exact h.none j (List.getElem?_eq_none_iff.2 (by omega))
  looping j hj := by
    rw [List.count_append]
    rw [List.getElem?_append] at hj
    split at hj
    · exact h.looping j hj
    · next hlen =>
      have hzero := h.none j (List.getElem?_eq_none_iff.2 (by omega))
      change as.count (.fetchAdd j) ≤ _
      omega

theorem Charged.fetchAdd (h : Charged as s) (hj : s.calls[j]? = some .looping)
    (hf : Fetches s j t) : Charged (as ++ [.fetchAdd j]) t := by
  obtain ⟨htotal, hle, -⟩ := h.issued.skips_fetches hf
  have hcount : ∀ i, (as ++ [Action.fetchAdd j]).count (.fetchAdd i) =
      as.count (.fetchAdd i) + if j = i then 1 else 0 := by
    intro i
    rw [List.count_append, List.count_singleton]
    simp only [beq_iff_eq, Action.fetchAdd.injEq]
  refine ⟨h.issued.fetches hj hf, ?_, fun i hi ↦ ?_, fun i hi ↦ ?_⟩
  · rw [List.countP_append, h.total, htotal]
    rfl
  · have hi' : s.calls[i]? = .none := by
      cases hf with
      | skip _ => exact hi
      | issue _ =>
        rw [List.getElem?_eq_none_iff, List.length_set] at hi
        exact List.getElem?_eq_none_iff.2 hi
    have hne : j ≠ i := fun he ↦ by
      rw [← he, hj] at hi'
      cases hi'
    rw [hcount, h.none i hi', if_neg hne]
  · rw [hcount]
    cases hf with
    | skip zero =>
      have := h.looping i hi
      have hone : (1 : UInt32) ≠ 0 := by decide
      simp only [State.skips, zero, if_true, if_neg hone] at this ⊢
      split <;> omega
    | issue _ =>
      by_cases he : j = i
      · rw [he, List.getElem?_set_self' , ← he, hj] at hi
        cases hi
      · rw [List.getElem?_set_ne he] at hi
        rw [if_neg he]
        exact (h.looping i hi).trans hle

theorem charged_of_run (h : Run step Any .start as s) : Charged as s := by
  refine h.history (fun bs u a v hu _ hstep ↦ ?_) charged_start
  cases a with
  | call => exact step_call hstep ▸ hu.call
  | fetchAdd j =>
    obtain ⟨hj, hf⟩ := step_fetchAdd hstep
    exact hu.fetchAdd hj hf

/-- A call that no other one disturbs returns what `createSessionId` gives. -/
theorem run_createSessionId (hj : s.calls[j]? = some .looping) :
    ∃ as, as.length ≤ 2 ∧ (∀ a ∈ as, a = .fetchAdd j) ∧
      Run step Any s as ⟨(createSessionId s.counter).2,
        s.calls.set j (.returned (createSessionId s.counter).1),
        s.results ++ [(createSessionId s.counter).1]⟩ := by
  by_cases hpos : s.counter > 0
  · refine ⟨[.fetchAdd j], Nat.le_succ 1, by simp, .one trivial ?_⟩
    simp only [step, hj, if_true, fetchAdd, createSessionId, if_pos hpos]
  · have hzero := eq_zero_of_not_pos hpos
    have hone : (0 + 1 : UInt32) > 0 := by decide
    refine ⟨[.fetchAdd j, .fetchAdd j], Nat.le_refl 2, by simp,
      .cons trivial (t := ⟨s.counter + 1, s.calls, s.results⟩) ?_ (.one trivial ?_)⟩
    · simp only [step, hj, if_true, fetchAdd, if_neg hpos]
    · simp only [createSessionId, if_neg hpos]
      simp only [step, hj, if_true, fetchAdd, hzero, if_pos hone]

def State.pending (s : State) : ℕ := s.calls.count .looping

theorem length_filterMap_id (cs : List Call) :
    cs.length = (cs.filterMap Call.id).length + cs.count .looping := by
  induction cs with
  | nil => rfl
  | cons c cs ih =>
    cases c with
    | looping =>
      rw [List.filterMap_cons_none rfl, List.count_cons_self, List.length_cons, ih]
      rfl
    | returned id =>
      have hid : Call.id (.returned id) = some id := rfl
      rw [List.filterMap_cons_some hid, List.count_cons_of_ne (by simp), List.length_cons,
        List.length_cons, ih, Nat.add_right_comm]

theorem Issued.length_calls (hi : Issued s) : s.calls.length = s.results.length + s.pending := by
  rw [length_filterMap_id, hi.calls.length_eq]
  rfl

theorem length_calls_fetches (h : Fetches s j t) : t.calls.length = s.calls.length := by
  cases h with
  | skip _ => rfl
  | issue _ => exact List.length_set

theorem length_calls_of_run (h : Run step Any s as t) (hcall : .call ∉ as) :
    t.calls.length = s.calls.length ∧ as.countP Action.isFetchAdd = as.length := by
  induction h with
  | nil => exact ⟨rfl, rfl⟩
  | @cons _ _ _ a as _ hstep _ ih =>
    rw [List.mem_cons, not_or] at hcall
    obtain ⟨hlen, hcount⟩ := ih hcall.2
    cases a with
    | call => exact absurd rfl hcall.1
    | fetchAdd j =>
      refine ⟨hlen.trans (length_calls_fetches (step_fetchAdd hstep).2), ?_⟩
      rw [List.countP_cons_of_pos rfl, hcount, List.length_cons]

/-- Without new calls there are only so many steps. -/
theorem length_le_of_run {bs : List Action} (h : Run step Any .start as s)
    (h' : Run step Any s bs t) (hcall : .call ∉ bs) :
    bs.length ≤ s.pending + s.pending / period + 2 := by
  obtain ⟨hlen, hcount⟩ := length_calls_of_run h' hcall
  have hs := charged_of_run h
  have ht := charged_of_run (h.trans h')
  have htotal := ht.total
  rw [List.countP_append, hs.total, hcount, State.skips, State.skips] at htotal
  have hpending := hs.issued.length_calls
  rw [← hlen, ht.issued.length_calls] at hpending
  unfold period at *
  split at htotal <;> split at htotal <;> omega

/-- A round hands out every id. -/
theorem exists_position (i : ℕ) (id : UInt32) (h : id ≠ 0) :
    ∃ k, i ≤ k ∧ k < i + period ∧ k % period + 1 = id.toNat := by
  have hlt := id.toNat_lt
  have hpos : id.toNat ≠ 0 := fun h0 ↦ h (UInt32.toNat_inj.1 h0)
  unfold period
  refine ⟨i + (id.toNat - 1 + ((2 ^ 32 - 1) - i % (2 ^ 32 - 1))) % (2 ^ 32 - 1), ?_, ?_, ?_⟩
  all_goals omega

theorem Issued.result_inj (hi : Issued s) {i k : ℕ} {x y : UInt32} (hx : s.results[i]? = some x)
    (hy : s.results[k]? = some y) : x = y ↔ i % period = k % period := by
  rw [← UInt32.toNat_inj, hi.id i x hx, hi.id k y hy]
  exact Nat.add_right_cancel_iff

theorem Issued.reused (hi : Issued s) {i k : ℕ} {x : UInt32} (hik : i < k)
    (hx : s.results[i]? = some x) (hy : s.results[k]? = some x) (id : UInt32) (hid : id ≠ 0) :
    ∃ n, i ≤ n ∧ n < k ∧ s.results[n]? = some id := by
  have hmod := (hi.result_inj hx hy).1 rfl
  have hlen : k < s.results.length := (List.getElem?_eq_some_iff.1 hy).1
  obtain ⟨n, hle, hlt, hn⟩ := exists_position i id hid
  have hround : i + period ≤ k := by
    unfold period at *
    omega
  obtain ⟨y, hy⟩ : ∃ y, s.results[n]? = some y := ⟨_, List.getElem?_eq_getElem (by omega)⟩
  refine ⟨n, hle, by omega, ?_⟩
  rw [hy, UInt32.toNat_inj.1 ((hi.id n y hy).trans hn)]

/-- Whatever the order of the concurrent calls, each of them returns, and the ids they return run
through the nonzero numbers of 32 bits over and over: an id comes again only after all others. -/
theorem session_ids_cycle (h : Run step Any .start as s) :
    -- every call returns
    (∀ bs t, Run step Any s bs t → .call ∉ bs →
      bs.length ≤ s.pending + s.pending / (2 ^ 32 - 1) + 2 ∧
        ((∀ j, step t (.fetchAdd j) = none) → ∀ c ∈ t.calls, c ≠ .looping)) ∧
    (∀ j, s.calls[j]? = some .looping →
      as.count (.fetchAdd j) ≤ s.results.length / (2 ^ 32 - 1) + 1) ∧
    -- what the calls return are the results
    (s.calls.filterMap Call.id).Perm s.results ∧
    0 ∉ s.results ∧
    (∀ k id, s.results[k]? = some id → id.toNat = k % (2 ^ 32 - 1) + 1) ∧
    (∀ i k x y, s.results[i]? = some x → s.results[k]? = some y →
      (x = y ↔ i % (2 ^ 32 - 1) = k % (2 ^ 32 - 1))) ∧
    ∀ (i k : ℕ) x, i < k → s.results[i]? = some x → s.results[k]? = some x →
      ∀ id ≠ 0, ∃ n, i ≤ n ∧ n < k ∧ s.results[n]? = some id := by
  have hc := charged_of_run h
  have hi := hc.issued
  refine ⟨fun bs t hrun hcall ↦ ⟨length_le_of_run h hrun hcall, fun hstop c hmem hlooping ↦ ?_⟩,
    fun j hj ↦ ?_, hi.calls, fun hzero ↦ ?_, hi.id, fun i k x y ↦ hi.result_inj,
    fun i k x hik hx hy ↦ hi.reused hik hx hy⟩
  · obtain ⟨j, hj⟩ := List.getElem?_of_mem hmem
    have hstep := hstop j
    rw [step, hj, hlooping, if_pos rfl] at hstep
    cases hstep
  · have hle := hc.looping j hj
    rw [State.skips] at hle
    split at hle
    all_goals unfold period at hle; omega
  · obtain ⟨k, hk⟩ := List.getElem?_of_mem hzero
    have := hi.id k 0 hk
    cases this

/-- Two calls: the second one takes the first id, after the first one has met the 0. -/
def overtaken : List Action := [.call, .call, .fetchAdd 0, .fetchAdd 1, .fetchAdd 0]

theorem session_ids_cycle_overtaken :
    ∃ s, Run step Any .start overtaken s ∧ s.results = [1, 2] ∧
      s.calls = [.returned 2, .returned 1] ∧ 0 ∉ s.results := by
  obtain ⟨s, h, hr⟩ : ∃ s, Run step Any .start overtaken s ∧
      (s.results = [1, 2] ∧ s.calls = [.returned 2, .returned 1]) :=
    Run.exists_of_execute (by decide)
  exact ⟨s, h, hr.1, hr.2, (session_ids_cycle h).2.2.2.1⟩

end

end MusicRemote.Server.SessionId
