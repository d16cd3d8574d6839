import MusicRemote.Foundation.Transition

namespace MusicRemote.Server.Tcp

open Foundation.Transition

structure Config where
  tlsConfiguration : Bool
  streamInitCallback : Bool

/-- Where `build_with_listener` stands: in `start_server` up to `initialising`, and after the
select in front of the drop of `notify_shutdown`, of the drop of `shutdown_complete_tx`, and in
the wait. -/
inductive Main
  | loading
  | accepting
  | initialising
  | stopped
  | notified
  | waiting
  | returned (timedOut : Bool)
  deriving DecidableEq

inductive Stage
  | handshaking
  | starting
  | selecting
  | closing
  | dropping
  | finished
  deriving DecidableEq

/-- A spawned task, with its clone of `shutdown_complete_tx`, whether `on_session_start` has
succeeded, and how often `on_session_close` has completed. -/
structure Task where
  stage : Stage
  shutdownComplete : Bool
  started : Bool
  closes : ℕ
  deriving DecidableEq

structure State where
  main : Main
  notifyShutdown : Bool
  shutdownCompleteTx : Bool
  tasks : List Task
  deriving DecidableEq

def Config.init (config : Config) : State :=
  ⟨if config.tlsConfiguration then .loading else .accepting, true, true, []⟩

def spawn (config : Config) (s : State) : State :=
  { s with
    main := .accepting
    tasks := s.tasks ++
      [⟨if config.tlsConfiguration then .handshaking else .starting, true, false, 0⟩] }

inductive Ending
  | pollRead
  | pollWrite
  | shutdown
  deriving DecidableEq

inductive TaskAction
  | tryTls (ok : Bool)
  | onSessionStart (ok : Bool)
  | endSelect (ending : Ending)
  | onSessionClose
  | drop
  deriving DecidableEq

/-- One step of a task. The receiver of the shutdown returns when the sender is dropped. -/
def taskStep (notifyShutdown : Bool) (task : Task) : TaskAction → Option Task
  | .tryTls ok =>
    if task.stage = .handshaking then
      some { task with stage := if ok then .starting else .dropping }
    else none
  | .onSessionStart ok =>
    if task.stage = .starting then
      if ok then some { task with stage := .selecting, started := true }
      else some { task with stage := .dropping }
    else none
  | .endSelect ending =>
    if task.stage = .selecting ∧ (ending = .shutdown → notifyShutdown = false) then
      some { task with stage := .closing }
    else none
  | .onSessionClose =>
    if task.stage = .closing then
      some { task with stage := .dropping, closes := task.closes + 1 }
    else none
  | .drop =>
    if task.stage = .dropping then
      some { task with stage := .finished, shutdownComplete := false }
    else none

inductive Action
  | load (ok : Bool)
  | accept (ok : Bool)
  | streamInit (ok : Bool)
  | shutdownCondition
  | dropNotifyShutdown
  | dropShutdownCompleteTx
  | recv
  | timeout
  | task (i : ℕ) (a : TaskAction)
  deriving DecidableEq

def State.hasSender (s : State) : Bool :=
  s.shutdownCompleteTx || s.tasks.any Task.shutdownComplete

def step (config : Config) (s : State) : Action → Option State
  | .load ok =>
    if s.main = .loading then some { s with main := if ok then .accepting else .stopped } else none
  | .accept ok =>
    if s.main = .accepting then
      if ok then
        if config.streamInitCallback then some { s with main := .initialising }
        else some (spawn config s)
      else some { s with main := .stopped }
    else none
  | .streamInit ok =>
    if s.main = .initialising then
      if ok then some (spawn config s) else some { s with main := .accepting }
    else none
  | .shutdownCondition =>
    if s.main = .loading ∨ s.main = .accepting ∨ s.main = .initialising then
      some { s with main := .stopped }
    else none
  | .dropNotifyShutdown =>
    if s.main = .stopped then some { s with main := .notified, notifyShutdown := false } else none
  | .dropShutdownCompleteTx =>
    if s.main = .notified then some { s with main := .waiting, shutdownCompleteTx := false }
    else none
  | .recv =>
    if s.main = .waiting ∧ s.hasSender = false then some { s with main := .returned false }
    else none
  | .timeout => if s.main = .waiting then some { s with main := .returned true } else none
  | .task i a =>
    s.tasks[i]?.bind fun task ↦
      (taskStep s.notifyShutdown task a).map fun task ↦ { s with tasks := s.tasks.set i task }

/-- A task has its clone until it ends, and a session that has been started is closed once
before that. -/
structure Task.Sound (task : Task) : Prop where
  clone : task.stage ≠ .finished → task.shutdownComplete = true
  fresh : task.stage = .handshaking ∨ task.stage = .starting → task.started = false
  running : task.stage = .selecting ∨ task.stage = .closing → task.started = true
  closes : task.closes =
    if task.started = true ∧ (task.stage = .dropping ∨ task.stage = .finished) then 1 else 0

section

variable {config : Config} {s t : State} {task task' : Task}

theorem taskStep_sound {b : Bool} {a : TaskAction} (h : task.Sound)
    (ht : taskStep b task a = some task') : task'.Sound := by
  obtain ⟨hclone, hfresh, hrunning, hcloses⟩ := h
  cases a with
  | tryTls ok =>
    simp only [taskStep, Option.ite_none_right_eq_some, Option.some.injEq] at ht
    obtain ⟨hs, rfl⟩ := ht
    have hst : task.started = false := hfresh (.inl hs)
    refine ⟨fun _ ↦ hclone (by rw [hs]; nofun), fun _ ↦ hst, fun h ↦ ?_, ?_⟩
    · cases ok <;> simp at h
    · simpa [hst] using hcloses
  | onSessionStart ok =>
    simp only [taskStep, Option.ite_none_right_eq_some] at ht
    obtain ⟨hs, ht⟩ := ht
    have hst : task.started = false := hfresh (.inr hs)
    have hc : task.shutdownComplete = true := hclone (by rw [hs]; nofun)
    cases ok <;> cases ht
    · exact ⟨fun _ ↦ hc, fun _ ↦ hst, nofun, by simpa [hst] using hcloses⟩
    · exact ⟨fun _ ↦ hc, nofun, fun _ ↦ rfl, by simpa [hst] using hcloses⟩
  | endSelect ending =>
    simp only [taskStep, Option.ite_none_right_eq_some, Option.some.injEq] at ht
    obtain ⟨⟨hs, -⟩, rfl⟩ := ht
    have hst : task.started = true := hrunning (.inl hs)
    exact ⟨fun _ ↦ hclone (by rw [hs]; nofun), nofun, fun _ ↦ hst, by simpa [hs] using hcloses⟩
  | onSessionClose =>
    simp only [taskStep, Option.ite_none_right_eq_some, Option.some.injEq] at ht
    obtain ⟨hs, rfl⟩ := ht
    have hst : task.started = true := hrunning (.inr hs)
    have h0 : task.closes = 0 := by simpa [hs] using hcloses
    exact ⟨fun _ ↦ hclone (by rw [hs]; nofun), nofun, nofun, by simp [hst, h0]⟩
  | drop =>
    simp only [taskStep, Option.ite_none_right_eq_some, Option.some.injEq] at ht
    obtain ⟨hs, rfl⟩ := ht
    exact ⟨fun h ↦ absurd rfl h, nofun, nofun, by simpa [hs] using hcloses⟩

/-- A dropped clone does not come back. -/
theorem taskStep_dropped {b : Bool} {a : TaskAction} (h : task.shutdownComplete = false)
    (ht : taskStep b task a = some task') : task'.shutdownComplete = false := by
  cases a with
  | onSessionStart ok =>
    simp only [taskStep, Option.ite_none_right_eq_some] at ht
    cases ok <;> cases ht.2 <;> exact h
  | tryTls | endSelect | onSessionClose | drop =>
    simp only [taskStep, Option.ite_none_right_eq_some, Option.some.injEq] at ht
    obtain ⟨-, rfl⟩ := ht
    first | exact h | rfl

structure State.Sound (s : State) : Prop where
  tasks : ∀ task ∈ s.tasks, task.Sound
  returned : s.main = .returned false → s.hasSender = false

theorem spawn_sound (h : s.Sound) : (spawn config s).Sound := by
  refine ⟨fun task hm ↦ ?_, nofun⟩
  rcases List.mem_append.1 hm with hm | hm
  · exact h.tasks task hm
  · rw [List.mem_singleton.1 hm]
    refine ⟨fun _ ↦ rfl, fun _ ↦ rfl, fun hs ↦ ?_, ?_⟩
    · split_ifs at hs <;> simp at hs
    · simp

theorem setTask_sound (h : s.Sound) {i : ℕ} {a : TaskAction} (hi : s.tasks[i]? = some task)
    (ht : taskStep s.notifyShutdown task a = some task') :
    State.Sound { s with tasks := s.tasks.set i task' } := by
  have hmem := List.mem_of_getElem? hi
  refine ⟨fun u hu ↦ ?_, fun hr ↦ ?_⟩
  · rcases List.mem_or_eq_of_mem_set hu with hu | rfl
    · exact h.tasks u hu
    · exact taskStep_sound (h.tasks task hmem) ht
  · have hno := h.returned hr
    simp only [State.hasSender, Bool.or_eq_false_iff, List.any_eq_false] at hno ⊢
    refine ⟨hno.1, fun u hu ↦ ?_⟩
    rcases List.mem_or_eq_of_mem_set hu with hu | rfl
    · exact hno.2 u hu
    · rw [taskStep_dropped (by simpa using hno.2 task hmem) ht]
      exact Bool.false_ne_true

theorem step_sound {a : Action} (h : s.Sound) (ht : step config s a = some t) : t.Sound := by
  cases a with
  | load ok =>
    simp only [step, Option.ite_none_right_eq_some, Option.some.injEq] at ht
    obtain ⟨-, rfl⟩ := ht
    exact ⟨h.tasks, fun hr ↦ by cases ok <;> cases hr⟩
  | accept ok =>
    simp only [step, Option.ite_none_right_eq_some] at ht
    obtain ⟨-, ht⟩ := ht
    split_ifs at ht <;> cases ht
    · exact ⟨h.tasks, nofun⟩
    · exact spawn_sound h
    · exact ⟨h.tasks, nofun⟩
  | streamInit ok =>
    simp only [step, Option.ite_none_right_eq_some] at ht
    obtain ⟨-, ht⟩ := ht
    split_ifs at ht <;> cases ht
    · exact spawn_sound h
    · exact ⟨h.tasks, nofun⟩
  | recv =>
    simp only [step, Option.ite_none_right_eq_some, Option.some.injEq] at ht
    obtain ⟨⟨-, hno⟩, rfl⟩ := ht
    exact ⟨h.tasks, fun _ ↦ hno⟩
  | shutdownCondition | dropNotifyShutdown | dropShutdownCompleteTx | timeout =>
    simp only [step, Option.ite_none_right_eq_some, Option.some.injEq] at ht
    obtain ⟨-, rfl⟩ := ht
    exact ⟨h.tasks, nofun⟩
  | task i a =>
    obtain ⟨task, hi, ht⟩ := Option.bind_eq_some_iff.1 ht
    obtain ⟨task', htask, rfl⟩ := Option.map_eq_some_iff.1 ht
    exact setTask_sound h hi htask

theorem sound_of_run {as : List Action} (h : Run (step config) Any config.init as s) :
    s.Sound := by
  refine h.invariant (I := State.Sound) (fun _ _ _ hs _ ht ↦ step_sound hs ht)
    ⟨nofun, fun hr ↦ ?_⟩
  unfold Config.init at hr
  split_ifs at hr

/-- When `build_with_listener` returns without its timeout, every task has finished, and every
session that was started has been closed exactly once. -/
theorem returned_after_all_sessions {as : List Action}
    (h : Run (step config) Any config.init as s) (hr : s.main = .returned false) :
    ∀ task ∈ s.tasks, task.stage = .finished ∧ (task.started = true → task.closes = 1) := by
  have hs := sound_of_run h
  have hno := hs.returned hr
  simp only [State.hasSender, Bool.or_eq_false_iff, List.any_eq_false] at hno
  intro task hm
  have hfinished : task.stage = .finished := by
    by_contra hne
    exact hno.2 task hm ((hs.tasks task hm).clone hne)
  refine ⟨hfinished, fun hst ↦ ?_⟩
  have hcloses := (hs.tasks task hm).closes
  rwa [if_pos ⟨hst, .inr hfinished⟩] at hcloses

end

def twoSessions : List Action :=
  [.load true, .accept true, .accept true, .task 0 (.tryTls true), .task 0 (.onSessionStart true),
    .shutdownCondition, .dropNotifyShutdown, .dropShutdownCompleteTx,
    .task 0 (.endSelect .shutdown), .task 1 (.tryTls false), .task 0 .onSessionClose, .task 1 .drop,
    .task 0 .drop, .recv]

theorem two_sessions_have_finished :
    ∃ s, Run (step ⟨true, false⟩) Any (Config.init ⟨true, false⟩) twoSessions s ∧
      s.main = .returned false ∧ s.tasks.map Task.started = [true, false] ∧
      ∀ task ∈ s.tasks, task.stage = .finished ∧ (task.started = true → task.closes = 1) := by
  have hrun : ∃ s, Run (step ⟨true, false⟩) Any (Config.init ⟨true, false⟩) twoSessions s ∧
      (s.main = .returned false ∧ s.tasks.map Task.started = [true, false]) :=
    Run.exists_of_execute (by decide +kernel)
  obtain ⟨s, hs, hr, hst⟩ := hrun
  exact ⟨s, hs, hr, hst, returned_after_all_sessions hs hr⟩

end MusicRemote.Server.Tcp
