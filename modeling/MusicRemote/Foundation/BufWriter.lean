import Mathlib.Data.List.Basic

namespace MusicRemote.Foundation

variable {α : Type*}

/-- What a stream answers to one write: it takes one byte and up to `more` others, or it fails. -/
inductive Answer
  | takes (more : ℕ)
  | fails
  deriving DecidableEq

/-- A writer that holds back what it is given, up to a capacity. It knows what the stream behind it
has received, and what that will answer: once the answers are used up, it takes everything. -/
structure BufWriter (α : Type*) where
  received : List α
  buffer : List α
  answers : List Answer
  deriving DecidableEq

namespace BufWriter

/-- The loop that empties the buffer into the stream, and whether it succeeds. -/
def push (received : List α) : List Answer → List α → BufWriter α × Bool
  | answers, [] => (⟨received, [], answers⟩, true)
  | [], buffer => (⟨received ++ buffer, [], []⟩, true)
  | .fails :: answers, buffer => (⟨received, buffer, answers⟩, false)
  | .takes more :: answers, buffer =>
    push (received ++ buffer.take (more + 1)) answers (buffer.drop (more + 1))

def flush (w : BufWriter α) : BufWriter α × Bool := push w.received w.answers w.buffer

/-- The loop that hands data over: to the stream as long as it is as long as the buffer, which is
empty then, and to the buffer what is left. -/
def pour (capacity : ℕ) (buffer received : List α) : List Answer → List α → BufWriter α × Bool
  | [], data =>
    if data.length < capacity then (⟨received, buffer ++ data, []⟩, true)
    else (⟨received ++ data, buffer, []⟩, true)
  | answer :: answers, data =>
    if data = [] ∨ data.length < capacity then
      (⟨received, buffer ++ data, answer :: answers⟩, true)
    else
      match answer with
      | .fails => (⟨received, buffer, answers⟩, false)
      | .takes more =>
        pour capacity buffer (received ++ data.take (more + 1)) answers (data.drop (more + 1))

def writeAll (capacity : ℕ) (w : BufWriter α) (data : List α) : BufWriter α × Bool :=
  if capacity < w.buffer.length + data.length then
    match w.flush with
    | (w, true) => pour capacity w.buffer w.received w.answers data
    | (w, false) => (w, false)
  else pour capacity w.buffer w.received w.answers data

def written (w : BufWriter α) : List α := w.received ++ w.buffer

def Sound (w : BufWriter α) : Prop := .fails ∉ w.answers

theorem push_written (received : List α) (answers : List Answer) (buffer : List α) :
    (push received answers buffer).1.written = received ++ buffer := by
  fun_induction push with
  | case1 | case3 => simp [written]
  | case2 => simp [written]
  | case4 received more answers buffer _ ih =>
    rw [ih, List.append_assoc, List.take_append_drop]

theorem push_buffer {received buffer : List α} {answers : List Answer}
    (h : (push received answers buffer).2 = true) :
    (push received answers buffer).1.buffer = [] := by
  fun_induction push with
  | case1 => rfl
  | case2 => rfl
  | case3 => cases h
  | case4 received more answers buffer _ ih => exact ih h

theorem push_ok {answers : List Answer} (h : .fails ∉ answers) (received buffer : List α) :
    (push received answers buffer).2 = true ∧ (push received answers buffer).1.Sound := by
  fun_induction push with
  | case1 => exact ⟨rfl, h⟩
  | case2 => exact ⟨rfl, h⟩
  | case3 => simp at h
  | case4 received more answers buffer _ ih =>
    exact ih fun hmem ↦ h (List.mem_cons_of_mem _ hmem)

/-- Flushing moves bytes and loses none, even when it fails. -/
theorem flush_written (w : BufWriter α) : w.flush.1.written = w.written := push_written ..

/-- Flushing to a stream that does not fail. -/
theorem flush_ok {w : BufWriter α} (h : w.Sound) :
    w.flush.1.Sound ∧ w.flush.1.received = w.written := by
  obtain ⟨hok, hsound⟩ := push_ok h w.received w.buffer
  have hbuffer : w.flush.1.buffer = [] := push_buffer hok
  have hwritten := w.flush_written
  rw [written, hbuffer, List.append_nil] at hwritten
  exact ⟨hsound, hwritten⟩

/-- What a write that fails has lost is at the end of the data. -/
theorem pour_written {capacity : ℕ} {buffer : List α} (received : List α) (answers : List Answer)
    (data : List α) (h : buffer = [] ∨ data.length < capacity) :
    ∃ lost, (pour capacity buffer received answers data).1.written ++ lost =
        received ++ buffer ++ data ∧
      ((pour capacity buffer received answers data).2 = true → lost = []) := by
  fun_induction pour with
  | case1 => exact ⟨[], by simp [written], fun _ ↦ rfl⟩
  | case2 received data hlong =>
    obtain rfl := h.resolve_right hlong
    exact ⟨[], by simp [written], fun _ ↦ rfl⟩
  | case3 => exact ⟨[], by simp [written], fun _ ↦ rfl⟩
  | case4 received answers data hlong =>
    exact ⟨data, rfl, fun hok ↦ by cases hok⟩
  | case5 received answers data hlong more ih =>
    obtain rfl := h.resolve_right (fun hshort ↦ hlong (.inr hshort))
    obtain ⟨lost, hlost, hok⟩ := ih (.inl rfl)
    refine ⟨lost, ?_, hok⟩
    rw [hlost, List.append_nil, List.append_nil, List.append_assoc, List.take_append_drop]

theorem pour_ok {answers : List Answer} (capacity : ℕ) (h : .fails ∉ answers)
    (buffer received data : List α) :
    (pour capacity buffer received answers data).2 = true ∧
      (pour capacity buffer received answers data).1.Sound := by
  fun_induction pour with
  | case1 => exact ⟨rfl, h⟩
  | case2 => exact ⟨rfl, h⟩
  | case3 => exact ⟨rfl, h⟩
  | case4 => simp at h
  | case5 received answers data hlong more ih =>
    exact ih fun hmem ↦ h (List.mem_cons_of_mem _ hmem)

theorem writeAll_written (capacity : ℕ) (w : BufWriter α) (data : List α) :
    ∃ lost, (w.writeAll capacity data).1.written ++ lost = w.written ++ data ∧
      ((w.writeAll capacity data).2 = true → lost = []) := by
  by_cases hfull : capacity < w.buffer.length + data.length
  · rw [writeAll, if_pos hfull]
    have hflush := w.flush_written
    cases hr : w.flush with
    | mk u ok =>
      rw [hr] at hflush
      cases ok with
      | false => exact ⟨data, by rw [hflush], fun hok ↦ by cases hok⟩
      | true =>
        have hbuffer : u.buffer = [] := by
          have hpush : w.flush.1.buffer = [] := push_buffer (congrArg Prod.snd hr)
          rwa [hr] at hpush
        obtain ⟨lost, hlost, hnone⟩ := pour_written u.received u.answers data (.inl hbuffer)
        exact ⟨lost, by rw [hlost, ← hflush]; rfl, hnone⟩
  · rw [writeAll, if_neg hfull]
    refine pour_written w.received w.answers data ?_
    rw [← List.length_eq_zero_iff]
    omega

theorem writeAll_ok {w : BufWriter α} (capacity : ℕ) (h : w.Sound) (data : List α) :
    (w.writeAll capacity data).2 = true ∧ (w.writeAll capacity data).1.Sound := by
  rw [writeAll]
  split_ifs
  · obtain ⟨hok, hsound⟩ := push_ok h w.received w.buffer
    cases hr : w.flush with
    | mk u ok =>
      rw [← flush, hr] at hok hsound
      cases hok
      exact pour_ok capacity hsound _ _ _
  · exact pour_ok capacity h _ _ _

/-- The stream takes one byte at a time, at least until it has received `total`. -/
def Slow (total : ℕ) (w : BufWriter α) : Prop :=
  ∃ k, w.answers = List.replicate k (.takes 0) ∧ total ≤ w.received.length + k

theorem push_slow {total k : ℕ} {received buffer : List α} (htotal : total ≤ received.length + k)
    (hroom : received.length + buffer.length ≤ total) :
    (push received (List.replicate k (.takes 0)) buffer).1.Slow total := by
  induction buffer generalizing received k with
  | nil => exact ⟨k, by rw [push], by rwa [push]⟩
  | cons x buffer ih =>
    rw [List.length_cons] at hroom
    obtain ⟨k, rfl⟩ := Nat.exists_eq_succ_of_ne_zero (show k ≠ 0 by omega)
    rw [List.replicate_succ, push]
    · refine ih ?_ ?_ <;> simp only [List.length_append, List.take_succ_cons, List.take_zero,
        List.length_singleton] <;> omega
    · simp

/-- From a slow stream, something always stays behind. -/
theorem pour_slow {capacity total k : ℕ} {buffer received data : List α} (hcapacity : 2 ≤ capacity)
    (hdata : data ≠ []) (htotal : total ≤ received.length + k)
    (hroom : received.length + data.length ≤ total) :
    (pour capacity buffer received (List.replicate k (.takes 0)) data).1.Slow total ∧
      (pour capacity buffer received (List.replicate k (.takes 0)) data).1.buffer ≠ [] := by
  induction data generalizing received k with
  | nil => exact absurd rfl hdata
  | cons x data ih =>
    obtain ⟨k, rfl⟩ := Nat.exists_eq_succ_of_ne_zero (show k ≠ 0 by
      rw [List.length_cons] at hroom
      omega)
    rw [List.replicate_succ, pour]
    by_cases hshort : x :: data = [] ∨ (x :: data).length < capacity
    · rw [if_pos hshort]
      exact ⟨⟨k + 1, List.replicate_succ.symm, htotal⟩, by simp⟩
    · rw [if_neg hshort]
      have hne : data ≠ [] := by
        intro hnil
        rw [hnil, List.length_singleton] at hshort
        omega
      rw [List.length_cons] at hroom
      refine ih hne ?_ ?_ <;>
        simp only [List.length_append, List.take_succ_cons, List.take_zero, List.length_singleton]
          <;> omega

theorem flush_slow {total : ℕ} {w : BufWriter α} (h : w.Slow total)
    (hroom : w.written.length ≤ total) : w.flush.1.Slow total := by
  obtain ⟨k, hk, htotal⟩ := h
  rw [written, List.length_append] at hroom
  rw [flush, hk]
  exact push_slow htotal hroom

theorem Slow.sound {total : ℕ} {w : BufWriter α} (h : w.Slow total) : w.Sound := by
  obtain ⟨k, hk, _⟩ := h
  rw [Sound, hk]
  simp

theorem writeAll_slow {capacity total : ℕ} {w : BufWriter α} {data : List α}
    (hcapacity : 2 ≤ capacity) (h : w.Slow total) (hdata : data ≠ [])
    (hroom : (w.written ++ data).length ≤ total) :
    (w.writeAll capacity data).1.Slow total ∧ (w.writeAll capacity data).1.buffer ≠ [] := by
  rw [List.length_append] at hroom
  rw [writeAll]
  split_ifs
  · have hflush := flush_slow h (by omega)
    have hok := (push_ok h.sound w.received w.buffer).1
    have hwritten := w.flush_written
    rw [← flush] at hok
    generalize w.flush = r at hok hflush hwritten
    obtain ⟨u, ok⟩ := r
    cases hok
    obtain ⟨k, hk, htotal⟩ := hflush
    dsimp only at hk htotal hwritten ⊢
    rw [hk]
    rw [← hwritten, written, List.length_append] at hroom
    exact pour_slow hcapacity hdata htotal (by omega)
  · obtain ⟨k, hk, htotal⟩ := h
    rw [hk]
    rw [written, List.length_append] at hroom
    exact pour_slow hcapacity hdata htotal (by omega)

end BufWriter

end MusicRemote.Foundation
