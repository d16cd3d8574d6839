import MusicRemote.Foundation.Throttle

namespace MusicRemote.Server.PingTask

open Foundation Foundation.Transition

inductive Pinger
  | sleeping (wake : ℕ)
  | asking
  deriving DecidableEq

/-- A player's `last_active_time`, which `on_recv_message` keeps and the ping task looks at. The
task's pings are known by the times at which they are sent. -/
structure State where
  time : Throttle.Throttled Unit
  handling : Bool
  pinger : Pinger
  isAborted : Bool
  pings : List ℕ

def State.start (now : ℕ) : State := ⟨.start now, false, .sleeping (now + 2 * second), false, []⟩

inductive Action
  | pass (time : ℕ)
  | onRecvMessage
  | checkActive
  | writeActive
  | handled
  | wake
  | ask
  | onDisconnectSession
  deriving DecidableEq

def State.tick (s : State) (a : Throttle.Action Unit) : Option State :=
  (Throttle.step second s.time a).map fun time ↦ { s with time := time }

def ask (s : State) : State :=
  if s.time.elapsed < 10 * second then
    { s with pinger := .sleeping (s.time.now + 2 * second) }
  else
    { s with pinger := .sleeping (s.time.now + 2 * second), pings := s.pings ++ [s.time.now] }

/-- The session ends by dropping what handles a message and aborting the ping task, which may still
finish the round that it is in. -/
def step (s : State) : Action → Option State
  | .pass time => s.tick (.pass time)
  | .onRecvMessage =>
    if s.handling = false ∧ s.isAborted = false then
      ({ s with handling := true }).tick (.act ())
    else none
  | .checkActive => s.tick (.check ())
  | .writeActive => s.tick (.write ())
  | .handled =>
    if s.handling = true ∧ s.time.refresh () = none then some { s with handling := false }
    else none
  | .wake =>
    match s.pinger with
    | .sleeping wake =>
      if s.isAborted = false ∧ wake ≤ s.time.now then some { s with pinger := .asking } else none
    | .asking => none
  | .ask => if s.pinger = .asking then some (ask s) else none
  | .onDisconnectSession => ({ s with handling := false, isAborted := true }).tick (.cancel ())

section

variable {s t : State}

theorem tick_shown {a : Throttle.Action Unit} {u : State} (h : s.tick a = some t)
    (htime : s.time = u.time) (hpings : s.pings = u.pings) :
    (∃ b, Shown (Throttle.step second) u.time b t.time) ∧ t.pings = u.pings := by
  obtain ⟨time, ht, rfl⟩ := Option.map_eq_some_iff.1 h
  exact ⟨⟨some a, htime ▸ ht⟩, hpings⟩

/-- A step of the clock, or one that leaves it alone; and what it takes to send a ping. -/
theorem step_shown {a : Action} (h : step s a = some t) :
    (∃ b, Shown (Throttle.step second) s.time b t.time) ∧
      (t.pings = s.pings ∨ 10 * second ≤ s.time.elapsed) := by
  have hkeep (htime : t.time = s.time) (hpings : t.pings = s.pings) :
      (∃ b, Shown (Throttle.step second) s.time b t.time) ∧
        (t.pings = s.pings ∨ 10 * second ≤ s.time.elapsed) := ⟨⟨none, htime⟩, .inl hpings⟩
  cases a with
  | pass time => exact (tick_shown h rfl rfl).imp_right .inl
  | checkActive => exact (tick_shown h rfl rfl).imp_right .inl
  | writeActive => exact (tick_shown h rfl rfl).imp_right .inl
  | onDisconnectSession => exact (tick_shown h rfl rfl).imp_right .inl
  | onRecvMessage =>
    simp only [step, Option.ite_none_right_eq_some] at h
    exact (tick_shown h.2 rfl rfl).imp_right .inl
  | handled =>
    simp only [step, Option.ite_none_right_eq_some, Option.some.injEq] at h
    obtain ⟨_, rfl⟩ := h
    exact hkeep rfl rfl
  | wake =>
    simp only [step] at h
    split at h
    · simp only [Option.ite_none_right_eq_some, Option.some.injEq] at h
      obtain ⟨_, rfl⟩ := h
      exact hkeep rfl rfl
    · cases h
  | ask =>
    simp only [step, Option.ite_none_right_eq_some, Option.some.injEq] at h
    obtain ⟨_, rfl⟩ := h
    rw [ask]
    split_ifs with hyoung
    · exact ⟨⟨none, rfl⟩, .inl rfl⟩
    · exact ⟨⟨none, rfl⟩, .inr (Nat.le_of_not_lt hyoung)⟩

end

theorem sound_of_run {now : ℕ} {as : List Action} {s : State} (h : Run step Any (.start now) as s) :
    s.time.Sound second := by
  refine h.invariant (I := fun s ↦ s.time.Sound second) (fun s a t hs _ ht ↦ ?_)
    (.start (by decide) now)
  obtain ⟨⟨b, hb⟩, _⟩ := step_shown ht
  exact hs.shown (by decide) hb

/-- The task sends a ping only when there has been no message for more than nine seconds. -/
theorem idle_of_ping {now t : ℕ} {as : List Action} {s u : State} {a : Action}
    (h : Run step Any (.start now) as s) (hstep : step s a = some u) (hping : u.pings ≠ s.pings)
    (ht : t ∈ s.time.active) : t + 9 * second < s.time.now := by
  have hidle := (sound_of_run h).idle ((step_shown hstep).2.resolve_left hping) ht
  simp only [second] at hidle ⊢
  omega

end MusicRemote.Server.PingTask
