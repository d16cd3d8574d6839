import Mathlib.Data.List.Basic
import Mathlib.Logic.Function.Basic

namespace MusicRemote.Foundation.SharedWriter

variable {α β κ : Type*} [DecidableEq κ] {encode : α → List β} {key : α → κ}

structure Writing (encode : α → List β) where
  item : α
  written : ℕ
  le : written ≤ (encode item).length

/-- Several tasks write encoded items to one stream, each holding a lock from the first
byte of an item to its last. -/
structure Writer (encode : α → List β) (κ : Type*) where
  queue : κ → List α
  guard : Option (Writing encode)
  finished : List α
  stream : List β

def Writing.start (encode : α → List β) (x : α) : Writing encode := ⟨x, 0, Nat.zero_le _⟩

def Writing.bytes (w : Writing encode) : List β := (encode w.item).take w.written

/-- The first argument is the item, if any, that a task comes up with. -/
inductive Writer.Move (key : α → κ) (s : Writer encode κ) : Option α → Writer encode κ → Prop
  | stay : Move key s none s
  | ask (x : α) : Move key s (some x)
      { s with queue := Function.update s.queue (key x) (s.queue (key x) ++ [x]) }
  | lock {k : κ} {x : α} {xs : List α} : s.guard = none → s.queue k = x :: xs →
      Move key s none
        { s with queue := Function.update s.queue k xs, guard := some (.start encode x) }
  | write {w : Writing encode} {n : ℕ} : s.guard = some w →
      (h : w.written + n ≤ (encode w.item).length) →
      Move key s none { s with
        guard := some ⟨w.item, w.written + n, h⟩
        stream := s.stream ++ ((encode w.item).drop w.written).take n }
  | unlock {w : Writing encode} : s.guard = some w → w.written = (encode w.item).length →
      Move key s none { s with guard := none, finished := s.finished ++ [w.item] }

def Writer.new (encode : α → List β) (κ : Type*) : Writer encode κ := ⟨fun _ ↦ [], none, [], []⟩

def Writer.begun (s : Writer encode κ) : List α := s.finished ++ (s.guard.map Writing.item).toList

def Writer.cut (s : Writer encode κ) : List β := (s.guard.map Writing.bytes).getD []

/-- The stream against the items that the tasks came up with. -/
structure Writer.Sound (key : α → κ) (asked : List α) (s : Writer encode κ) : Prop where
  stream : s.stream = s.finished.flatMap encode ++ s.cut
  keyed : ∀ k, ∀ x ∈ s.queue k, key x = k
  order : ∀ k, asked.filter (key · = k) = s.begun.filter (key · = k) ++ s.queue k

theorem Writer.Sound.new : Sound key [] (new encode κ) where
  stream := rfl
  keyed _ _ h := nomatch h
  order _ := rfl

section

variable {asked : List α} {s t : Writer encode κ}

theorem Writer.Sound.ask (h : s.Sound key asked) (x : α) : Sound key (asked ++ [x])
    { s with queue := Function.update s.queue (key x) (s.queue (key x) ++ [x]) } where
  stream := h.stream
  keyed k y hy := by
    dsimp only at hy
    by_cases hk : k = key x
    · subst hk
      rw [Function.update_self, List.mem_append, List.mem_singleton] at hy
      exact hy.elim (h.keyed _ y) (congrArg key)
    · rw [Function.update_of_ne hk] at hy
      exact h.keyed k y hy
  order k := by
    rw [List.filter_append, h.order k]
    by_cases hk : k = key x
    · subst hk
      simp [begun]
    · simp [begun, Function.update_of_ne hk, Ne.symm hk]

theorem Writer.Sound.lock (h : s.Sound key asked) {k : κ} {x : α} {xs : List α}
    (hg : s.guard = none) (hq : s.queue k = x :: xs) : Sound key asked
    { s with queue := Function.update s.queue k xs, guard := some (.start encode x) } where
  stream := by
    have := h.stream
    simpa [cut, hg, Writing.bytes, Writing.start] using this
  keyed j y hy := by
    dsimp only at hy
    by_cases hj : j = k
    · subst hj
      rw [Function.update_self] at hy
      exact h.keyed j y (hq ▸ List.mem_cons_of_mem x hy)
    · rw [Function.update_of_ne hj] at hy
      exact h.keyed j y hy
  order j := by
    have hx : key x = k := h.keyed k x (hq ▸ List.mem_cons_self)
    rw [h.order j]
    by_cases hj : j = k
    · subst hj
      simp [begun, hg, hq, hx, Writing.start]
    · simp [begun, hg, hx, Ne.symm hj, Function.update_of_ne hj, Writing.start]

theorem Writer.Sound.write (h : s.Sound key asked) {w : Writing encode} {n : ℕ}
    (hg : s.guard = some w) (hn : w.written + n ≤ (encode w.item).length) : Sound key asked
    { s with
      guard := some ⟨w.item, w.written + n, hn⟩
      stream := s.stream ++ ((encode w.item).drop w.written).take n } where
  stream := by
    simp only [h.stream, cut, hg, Option.map_some, Option.getD_some, Writing.bytes,
      List.append_assoc, List.take_add]
  keyed := h.keyed
  order k := by simpa [begun, hg] using h.order k

theorem Writer.Sound.unlock (h : s.Sound key asked) {w : Writing encode}
    (hg : s.guard = some w) (hw : w.written = (encode w.item).length) :
    Sound key asked
      ({ s with guard := none, finished := s.finished ++ [w.item] } : Writer encode κ) where
  stream := by
    simp [h.stream, cut, hg, Writing.bytes, hw]
  keyed := h.keyed
  order k := by simpa [begun, hg] using h.order k

theorem Writer.Sound.move {x : Option α} (h : s.Sound key asked) (hm : s.Move key x t) :
    t.Sound key (asked ++ x.toList) := by
  cases hm with
  | stay => simpa using h
  | ask x => exact h.ask x
  | lock hg hq => simpa using h.lock hg hq
  | write hg hn => simpa using h.write hg hn
  | unlock hg hw => simpa using h.unlock hg hw

/-- The stream only grows. -/
theorem Writer.Move.stream_isPrefix {x : Option α} (h : s.Move key x t) :
    s.stream <+: t.stream := by
  cases h with
  | write => exact List.prefix_append _ _
  | stay | ask | lock | unlock => exact List.prefix_rfl

/-- The stream is the start of the items that have been begun, one after the other. -/
theorem Writer.Sound.stream_isPrefix (h : s.Sound key asked) :
    s.stream <+: (s.begun.map encode).flatten := by
  rw [h.stream, begun, cut, List.map_append, List.flatten_append, ← List.flatMap_def,
    List.prefix_append_right_inj]
  cases s.guard with
  | none => exact List.nil_prefix
  | some w =>
    simp only [Option.map_some, Option.getD_some, Option.toList_some, List.map_cons, List.map_nil,
      List.flatten_cons, List.flatten_nil, List.append_nil, Writing.bytes]
    exact List.take_prefix _ _

/-- Whole items, and at most one that is cut short. -/
theorem Writer.Sound.frames (h : s.Sound key asked) : ∃ frames cut,
    s.stream = frames.flatMap encode ++ cut ∧
      (s.begun = frames ∧ cut = [] ∨
        ∃ x, s.begun = frames ++ [x] ∧ cut.IsPrefix (encode x) ∧ cut ≠ encode x) := by
  have hs := h.stream
  cases hg : s.guard with
  | none =>
    refine ⟨s.finished, [], ?_, .inl ⟨?_, rfl⟩⟩
    · simpa [cut, hg] using hs
    · simp [begun, hg]
  | some w =>
    simp only [cut, hg, Option.map_some, Option.getD_some] at hs
    by_cases hw : w.written = (encode w.item).length
    · refine ⟨s.finished ++ [w.item], [], ?_, .inl ⟨?_, rfl⟩⟩
      · simp [hs, Writing.bytes, hw]
      · simp [begun, hg]
    · refine ⟨s.finished, w.bytes, hs, .inr ⟨w.item, ?_, List.take_prefix _ _, fun he ↦ ?_⟩⟩
      · simp [begun, hg]
      · have hl := congrArg List.length he
        have hle := w.le
        rw [Writing.bytes, List.length_take] at hl
        omega

end

end MusicRemote.Foundation.SharedWriter
