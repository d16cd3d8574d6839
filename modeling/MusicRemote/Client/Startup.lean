import MusicRemote.Client.Channels

namespace MusicRemote.Client

open Foundation.Transition

/-- The client before `start`: it can be called as soon as its handle is published. -/
def constructed : State := { start 0 with availChannelQueue := [] }

/-- The client with the thread that runs `start` on it: how many channels it has put into the
queue, and whether it has entered the loop of the service. -/
structure Service where
  client : State
  filled : ℕ
  running : Bool

def Service.new : Service := ⟨constructed, 0, false⟩

def Action.isOfService : Action → Bool
  | .process _ | .fire _ _ => true
  | .connect _ _ _ | .disconnect _ | .advance _ => false

inductive StartAction
  | call (a : Action)
  | fill
  | run
  deriving DecidableEq

/-- One round of the loop of `start`. No `doConnect` follows it. -/
def fill (maxChannelCount : ℤ) (x : Service) : Option Service :=
  if x.filled < channelCount maxChannelCount then
    some { x with
      client := { x.client with availChannelQueue := x.client.availChannelQueue ++ [x.filled] }
      filled := x.filled + 1 }
  else none

def startStep (residue : Connection → Connection) (maxChannelCount : ℤ) (x : Service) :
    StartAction → Option Service
  | .call a =>
    if a.isOfService && !x.running then none
    else (step residue x.client a).map fun s ↦ { x with client := s }
  | .fill => fill maxChannelCount x
  | .run =>
    if x.filled = channelCount maxChannelCount ∧ x.running = false then
      some { x with running := true }
    else none

def Pc.isBound : Pc → Bool
  | .searching _ | .erasing _ | .returned => false
  | _ => true

def State.isAwake (s : State) : Bool :=
  s.connectQue.isEmpty || s.calls.any (·.pc.isBound)

/-- What waits for a channel has a call that will look for one, unless there is none. -/
def State.Attended (s : State) : Prop := s.availChannelQueue = [] ∨ s.isAwake = true

section

variable {residue : Connection → Connection} {n : ℤ} {s t u : State} {k : ℕ} {pc pc' : Pc}

theorem isAwake_goto (h : s.pcAt k = some pc) (hc : u.calls = s.calls)
    (hb : pc'.isBound = true) : (u.goto k pc').isAwake = true := by
  have hk : u.pcAt k = some pc := by rw [State.pcAt, hc]; exact h
  have hp : (u.goto k pc').pcAt k = some pc' := (pcAt_goto hk k).trans (if_pos rfl)
  obtain ⟨call, hcall, rfl⟩ := Option.map_eq_some_iff.1 hp
  rw [State.isAwake, Bool.or_eq_true]
  exact .inr (List.any_eq_true.2 ⟨call, List.mem_of_getElem? hcall, hb⟩)

theorem any_goto (h : s.pcAt k = some pc) (hc : u.calls = s.calls) (hb : pc.isBound = false)
    (ha : s.calls.any (·.pc.isBound) = true) : (u.goto k pc').calls.any (·.pc.isBound) = true := by
  obtain ⟨call, hmem, hcall⟩ := List.any_eq_true.1 ha
  obtain ⟨i, hi⟩ := List.getElem?_of_mem hmem
  have hik : i ≠ k := by
    rintro rfl
    rw [State.pcAt, hi, Option.map_some, Option.some.injEq] at h
    rw [h, hb] at hcall
    cases hcall
  refine List.any_eq_true.2 ⟨call, List.mem_of_getElem? (i := i) ?_, hcall⟩
  simp [State.goto, hc, hi, Ne.symm hik]

theorem attended_goto (h : s.pcAt k = some pc) (hs : s.Attended) (hc : u.calls = s.calls)
    (hb : pc.isBound = false) (ha : u.availChannelQueue = s.availChannelQueue)
    (hq : s.connectQue = [] → u.connectQue = []) : (u.goto k pc').Attended := by
  rcases hs with hs | hs
  · exact .inl (ha.trans hs)
  · right
    rw [State.isAwake, Bool.or_eq_true, List.isEmpty_iff] at hs ⊢
    exact hs.imp hq (any_goto h hc hb)

theorem stride_attended (h : s.pcAt k = some pc) (hs : s.Attended)
    (ht : Stride residue s k pc t) : t.Attended := by
  cases ht with
  | leave hno =>
    -- The loop is left only when there is no connection or no channel.
    rcases hno with hq | ha
    · exact .inr (by simp [State.isAwake, State.goto, hq])
    · exact .inl ha
  | close =>
    unfold closeChannel
    split_ifs
    · exact attended_goto h hs rfl rfl rfl id
    · exact attended_goto h hs rfl rfl rfl id
  | erase =>
    refine attended_goto h hs rfl rfl rfl fun hq ↦ ?_
    rw [hq]
    rfl
  | search | miss => exact attended_goto h hs rfl rfl rfl id
  | _ => exact .inr (isAwake_goto h rfl rfl)

theorem spawn_attended {b : Bool} (hs : s.Attended) (hc : u.calls = s.calls)
    (ha : u.availChannelQueue = s.availChannelQueue) (hq : u.connectQue = s.connectQue) :
    (u.spawn b pc).Attended := by
  refine hs.imp ha.trans fun hs ↦ ?_
  rw [State.isAwake, Bool.or_eq_true] at hs ⊢
  refine hs.imp (fun h ↦ hq ▸ h) fun h ↦ ?_
  rw [State.spawn, List.any_append, hc, h, Bool.true_or]

theorem step_attended {a : Action} (hs : s.Attended) (ht : step residue s a = some t) :
    t.Attended := by
  cases step_turn ht with
  | connect | disconnect | fire => exact spawn_attended hs rfl rfl rfl
  | process => exact hs
  | advance hpc ht => exact stride_attended hpc hs ht

theorem State.Attended.settled (hs : s.Attended) (hc : ∀ call ∈ s.calls, call.pc = .returned) :
    s.connectQue = [] ∨ s.availChannelQueue = [] := by
  rcases hs with hs | hs
  · exact .inr hs
  · rw [State.isAwake, Bool.or_eq_true, List.isEmpty_iff] at hs
    refine .inl (hs.resolve_right fun h ↦ ?_)
    obtain ⟨call, hmem, hb⟩ := List.any_eq_true.1 h
    rw [hc call hmem] at hb
    cases hb

theorem fill_attended_iff {x y : Service} (h : fill n x = some y) :
    y.client.Attended ↔ x.client.isAwake = true := by
  simp only [fill, Option.ite_none_right_eq_some, Option.some.injEq] at h
  obtain ⟨-, rfl⟩ := h
  simp [State.Attended, State.isAwake]

theorem startStep_attended {x y : Service} {a : StartAction}
    (hf : a = .fill → x.client.isAwake = true) (hs : x.client.Attended)
    (h : startStep residue n x a = some y) : y.client.Attended := by
  cases a with
  | call a =>
    simp only [startStep] at h
    split_ifs at h
    obtain ⟨t, ht, rfl⟩ := Option.map_eq_some_iff.1 h
    exact step_attended hs ht
  | fill => exact (fill_attended_iff h).2 (hf rfl)
  | run =>
    simp only [startStep, Option.ite_none_right_eq_some, Option.some.injEq] at h
    obtain ⟨-, rfl⟩ := h
    exact hs

theorem run_fill (residue : Connection → Connection) (n : ℤ) (m : ℕ) (hm : m ≤ channelCount n) :
    Run (startStep residue n) Any .new (List.replicate m .fill)
      ⟨{ constructed with availChannelQueue := List.range m }, m, false⟩ := by
  induction m with
  | zero => exact .nil _
  | succ m ih =>
    rw [List.replicate_succ']
    refine (ih (by omega)).trans (.one trivial ?_)
    simp only [startStep, fill, List.range_succ]
    exact if_pos (by omega)

/-- Without calls in between, `start` leaves the client as the runs of a started one begin. -/
theorem run_start (residue : Connection → Connection) (n : ℤ) :
    Run (startStep residue n) Any .new (List.replicate (channelCount n) .fill)
      ⟨start n, channelCount n, false⟩ :=
  run_fill residue n (channelCount n) (Nat.le_refl _)

/-- A connection waits while a channel is free only if `start` added a channel at a time when
connections waited and no call had still to look for one; and then it does wait. -/
theorem no_connection_is_stranded {as : List StartAction} {x : Service}
    (h : Run (startStep residue n) (fun x a ↦ a = .fill → x.client.isAwake = true) .new as x) :
    ((∀ call ∈ x.client.calls, call.pc = .returned) →
      x.client.connectQue = [] ∨ x.client.availChannelQueue = []) ∧
    ∀ y, startStep residue n x .fill = some y → x.client.isAwake = false →
      y.client.connectQue ≠ [] ∧ y.client.availChannelQueue ≠ [] ∧
        ∀ call ∈ y.client.calls, call.pc.isBound = false := by
  have hs : x.client.Attended :=
    h.invariant (I := fun x ↦ x.client.Attended) (fun x a y hs ha h ↦ startStep_attended ha hs h)
      (.inl rfl)
  refine ⟨hs.settled, fun y hy hx ↦ ?_⟩
  simp only [startStep, fill, Option.ite_none_right_eq_some, Option.some.injEq] at hy
  obtain ⟨-, rfl⟩ := hy
  rw [State.isAwake, Bool.or_eq_false_iff, List.any_eq_false] at hx
  exact ⟨by simpa using hx.1, by simp, fun call hc ↦ by simpa using hx.2 call hc⟩

end

theorem connection_after_start_is_opened :
    ∃ x, Run (startStep id 1) (fun x a ↦ a = .fill → x.client.isAwake = true) .new
        ([.fill, .call (.connect "a" 1 5)] ++ List.replicate 7 (.call (.advance 0))) x ∧
      (∀ call ∈ x.client.calls, call.pc = .returned) ∧ x.client.opens.length = 1 ∧
      (x.client.connectQue = [] ∨ x.client.availChannelQueue = []) := by
  have hrun : ∃ x, Run (startStep id 1) (fun x a ↦ a = .fill → x.client.isAwake = true) .new
        ([.fill, .call (.connect "a" 1 5)] ++ List.replicate 7 (.call (.advance 0))) x ∧
      ((∀ call ∈ x.client.calls, call.pc = .returned) ∧ x.client.opens.length = 1) :=
    Run.exists_of_execute (by decide +kernel)
  obtain ⟨x, hx, hc, ho⟩ := hrun
  exact ⟨x, hx, hc, ho, (no_connection_is_stranded hx).1 hc⟩

/-- A connection that comes before `start` has added the only channel waits for good. -/
theorem early_connection_is_stranded :
    ∃ x, Run (startStep id 1) Any .new
        [.call (.connect "a" 1 5), .call (.advance 0), .call (.advance 0), .fill, .run] x ∧
      (x.filled = channelCount 1 ∧ x.running = true ∧
        (∀ call ∈ x.client.calls, call.pc = .returned) ∧
        x.client.connectQue.map Connection.id = [1] ∧ x.client.availChannelQueue = [0]) :=
  Run.exists_of_execute (by decide +kernel)

end MusicRemote.Client
