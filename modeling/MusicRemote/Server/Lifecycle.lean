import MusicRemote.Server.WellFormed

namespace MusicRemote.Server

open Foundation Foundation.Transition Protocol Protocol.Framing Function

/-- What the task of a session does with its delegate: the calls of `on_session_start` and
`on_session_close` and the return of the latter, and the steps in `on_try_extract_frame` and
`on_recv_frame`. -/
inductive Call
  | onSessionStart
  | onRecvFrame
  | onSessionClose
  | returned
  deriving DecidableEq

def Action.call (t : ℕ) : Action → Option Call
  | .start u => if u = t then some .onSessionStart else none
  | .recvFrame u | .recvMessage u | .lock u _ | .push u | .respond u =>
    if u = t then some .onRecvFrame else none
  | .disconnect u => if u = t then some .onSessionClose else none
  | .remove u => if u = t then some .returned else none
  | .spawn | .readBuf _ _ | .readError _ | .write _ _ | .ping _ _ | .endSelect _ | .shutdown
  | .tick _ => none

inductive Course
  | before
  | running
  | closing
  | ended
  deriving DecidableEq

def Course.next : Course → Call → Option Course
  | .before, .onSessionStart => some .running
  | .running, .onRecvFrame => some .running
  | .running, .onSessionClose => some .closing
  | .closing, .returned => some .ended
  | _, _ => none

def Course.calls (n : ℕ) : Course → List Call
  | .before => []
  | .running => .onSessionStart :: List.replicate n .onRecvFrame
  | .closing => .onSessionStart :: List.replicate n .onRecvFrame ++ [.onSessionClose]
  | .ended => .onSessionStart :: List.replicate n .onRecvFrame ++ [.onSessionClose, .returned]

theorem exists_calls {l : List Call} {c : Course} (h : Run Course.next Any .before l c) :
    ∃ n, l = c.calls n := by
  refine h.history (I := fun l c ↦ ∃ n, l = c.calls n) ?_ ⟨0, rfl⟩
  rintro l c call c' ⟨n, rfl⟩ - hn
  cases c <;> cases call <;> cases hn
  · exact ⟨0, rfl⟩
  · exact ⟨n + 1, by simp [Course.calls, List.replicate_succ']⟩
  · exact ⟨n, rfl⟩
  · exact ⟨n, by simp [Course.calls]⟩

def Phase.course : Phase → Course
  | .absent | .starting => .before
  | .selecting _ | .closing => .running
  | .removing => .closing
  | .closed => .ended

structure Calm (s s' : State) : Prop where
  panicked : s'.panicked = s.panicked
  course : ∀ u, (s'.session u).phase.course = (s.session u).phase.course

section

variable {env : Env} {s s' s'' : State} {t k : ℕ} {x : Session} {r r' : Reader} {a : Action}

namespace Calm

theorem refl (s : State) : Calm s s := ⟨rfl, fun _ ↦ rfl⟩

theorem trans (h : Calm s s') (h' : Calm s' s'') : Calm s s'' :=
  ⟨h'.panicked.trans h.panicked, fun u ↦ (h'.course u).trans (h.course u)⟩

/-- The rule for a step that gives one session another place on the same stage. -/
theorem update (hp : s'.panicked = s.panicked)
    (hs : s'.session = Function.update s.session t x)
    (hx : x.phase.course = (s.session t).phase.course) : Calm s s' := by
  refine ⟨hp, fun u ↦ ?_⟩
  rw [hs, Function.update_apply]
  split
  · rw [hx, ‹u = t›]
  · rfl

/-- Within its select a session goes from one place to another. -/
theorem selecting (h : (s.session t).phase = .selecting r) (hp : s'.panicked = s.panicked)
    (hs : s'.session = Function.update s.session t x) (hx : x.phase = .selecting r') :
    Calm s s' :=
  update hp hs (by rw [h, hx]; rfl)

theorem setReader (h : (s.session t).phase = .selecting r) :
    Calm s (s.setPhase t (.selecting r')) :=
  selecting h rfl rfl rfl

theorem send {target : ℕ} {body : Body} {cause : Cause} (h : s.send target body cause = some s') :
    Calm s s' := by
  obtain ⟨channel, -, rfl⟩ := Option.map_eq_some_iff.1 h
  exact update rfl rfl rfl

theorem finish (h : (s.session t).phase = .selecting r) (ok : Bool) : Calm s (s.finish t k ok) :=
  selecting h rfl rfl rfl

theorem answer (h : (s.session t).phase = .selecting r) (body : Body) :
    Calm s (s.answer t k body) := by
  unfold State.answer
  split
  · rename_i s' hs
    exact (send hs).trans (finish ((send_phase hs t).trans h) true)
  · exact finish h false

theorem refresh (s : State) (t : ℕ) : Calm s (s.refresh t) := by
  unfold State.refresh
  split
  · exact update rfl rfl rfl
  · exact refl s

theorem onRecvFrame (hs : (s.session t).Sound t)
    (h : (s.session t).phase = .selecting .unpacking) : Calm s (onRecvFrame env s t) := by
  unfold Server.onRecvFrame
  dsimp only
  split
  · exact setReader h
  split
  · exact setReader h
  · -- The bounds that the extractor checks cover its unwrap and its splits.
    rename_i hpanic
    cases (extract_error hpanic).2.2
  · exact setReader h
  split
  · exact selecting h rfl rfl rfl
  split
  · rename_i hnone
    cases hnone.symm.trans (hs.selecting h).2
  · exact selecting h rfl rfl rfl

theorem onRecvMessage {m : Message} (h : (s.session t).phase = .selecting (.received k m)) :
    Calm s (onRecvMessage env s t k m) := by
  have h' := (refresh_phase s t).trans h
  refine (refresh s t).trans ?_
  rw [onRecvMessage_eq]
  cases verdict env m with
  | fail => exact finish h' false
  | ignore => exact finish h' true
  | pong time => exact answer h' _
  | refuse => exact answer h' _
  | permit push => exact setReader h'

theorem broadcast {push : PushMediaKeyEvent} {rest : List Player}
    (h : (s.session t).phase = .selecting (.pushing k push rest)) :
    Calm s (broadcast s t k push rest) := by
  cases rest with
  | nil => exact selecting h rfl rfl rfl
  | cons p rest =>
    cases hs : s.send p.tx (.push push) (.message t k) with
    | none =>
      simp only [Server.broadcast, hs]
      exact selecting h rfl rfl rfl
    | some s' =>
      simp only [Server.broadcast, hs]
      exact (send hs).trans (setReader ((send_phase hs t).trans h))

theorem pollWrite (hs : (s.session t).Sound t) (h : (s.session t).phase = .selecting r)
    {ok : Bool} (hw : pollWrite s t ok = some s') : Calm s s' := by
  rw [pollWrite_eq hs, Option.map_eq_some_iff] at hw
  obtain ⟨⟨e, channel⟩, -, rfl⟩ := hw
  cases ok with
  | true => exact update rfl rfl rfl
  | false => exact update rfl rfl (by rw [h]; rfl)

end Calm

structure Shows (s : State) (call : ℕ → Option Call) (s' : State) : Prop where
  panicked : s'.panicked = s.panicked
  course : ∀ u, Shown Course.next (s.session u).phase.course (call u) (s'.session u).phase.course

theorem Calm.shows {call : ℕ → Option Call} (h : Calm s s') (hc : ∀ u, call u = none) :
    Shows s call s' :=
  ⟨h.panicked, fun u ↦ by rw [hc]; exact h.course u⟩

theorem Shows.of_update {call : ℕ → Option Call} {c : Call}
    (hc : ∀ u, call u = if t = u then some c else none) (hp : s'.panicked = s.panicked)
    (hs : s'.session = Function.update s.session t x)
    (hx : (s.session t).phase.course.next c = some x.phase.course) : Shows s call s' := by
  refine ⟨hp, fun u ↦ ?_⟩
  rw [hc, hs, Function.update_apply]
  by_cases hu : t = u
  · subst hu
    simpa [Shown] using hx
  · simp [Shown, hu, Ne.symm hu]

/-- A step inside `on_recv_frame` stays within the select. -/
theorem Calm.onRecvFrame_shows {call : ℕ → Option Call} (h : Calm s s')
    (hr : (s.session t).phase = .selecting r)
    (hc : ∀ u, call u = if t = u then some .onRecvFrame else none) : Shows s call s' := by
  refine ⟨h.panicked, fun u ↦ ?_⟩
  rw [hc, h.course]
  by_cases hu : t = u
  · subst hu
    simp [Shown, hr, Phase.course, Course.next]
  · simp [Shown, hu]

theorem step_shows (hw : s.WellFormed) (h : step env s a = some s') : Shows s a.call s' := by
  cases step_outcome h with
  | spawn =>
    have hl := hw.absent s.spawned (Nat.le_refl _)
    refine Calm.shows (.update rfl rfl ?_) fun _ ↦ rfl
    cases hp : (s.session s.spawned).phase <;> rw [hp] at hl <;> cases hl
    rfl
  | start hp => exact .of_update (fun _ ↦ rfl) rfl rfl (by rw [hp]; rfl)
  | eof hp | readError hp => exact Calm.shows (.setReader hp) fun _ ↦ rfl
  | read hp => exact Calm.shows (.selecting hp rfl rfl rfl) fun _ ↦ rfl
  | recvFrame hp => exact (Calm.onRecvFrame (hw.sound _) hp).onRecvFrame_shows hp fun _ ↦ rfl
  | recvMessage hp => exact (Calm.onRecvMessage hp).onRecvFrame_shows hp fun _ ↦ rfl
  | lock hp => exact Calm.onRecvFrame_shows (.selecting hp rfl rfl rfl) hp fun _ ↦ rfl
  | push hp => exact (Calm.broadcast hp).onRecvFrame_shows hp fun _ ↦ rfl
  | respond hp => exact (Calm.answer hp _).onRecvFrame_shows hp fun _ ↦ rfl
  | write hp _ hwrite => exact Calm.shows (.pollWrite (hw.sound _) hp hwrite) fun _ ↦ rfl
  | ping _ hsend => exact Calm.shows (.send hsend) fun _ ↦ rfl
  | unsent => exact Calm.shows (.refl s) fun _ ↦ rfl
  | endSelect hp => exact Calm.shows (.update rfl rfl (by rw [hp]; rfl)) fun _ ↦ rfl
  | disconnect hp =>
    simp only [onDisconnectSession, (hw.sound _).player (.inr hp)]
    exact .of_update (fun _ ↦ rfl) rfl rfl (by rw [hp]; rfl)
  | remove hp => exact .of_update (fun _ ↦ rfl) rfl rfl (by rw [hp]; rfl)
  | shutdown | tick => exact Calm.shows ⟨rfl, fun _ ↦ rfl⟩ fun _ ↦ rfl

variable {as : List Action}

theorem panicked_of_run (h : Run (step env) Any .init as s) : s.panicked = false := by
  refine h.along (I := fun s ↦ s.panicked = false) (fun bs u a v hu hp _ hv ↦ ?_) rfl
  rw [(step_shows (.run hu) hv).panicked, hp]

def calls (t : ℕ) (as : List Action) : List Call := as.filterMap (Action.call t)

theorem course_of_run (h : Run (step env) Any .init as s) (t : ℕ) :
    Run Course.next Any .before (calls t as) (s.session t).phase.course :=
  h.project (fun s ↦ (s.session t).phase.course) (Action.call t)
    fun _ _ _ _ hu hv ↦ (step_shows (.run hu) hv).course t

theorem exists_release {push : PushMediaKeyEvent} {rest : List Player} (hn : s.panicked = false)
    (h : (s.session t).phase = .selecting (.pushing k push rest)) :
    ∃ bs s', Run (step env) Any s bs s' ∧ Calm s s' ∧ s'.guard = none := by
  induction rest generalizing s with
  | nil =>
    refine ⟨[.push t], broadcast s t k push [], .one trivial ?_, .broadcast h, rfl⟩
    simp [step, act, hn, h]
  | cons p rest ih =>
    have hstep : step env s (.push t) = some (broadcast s t k push (p :: rest)) := by
      simp [step, act, hn, h]
    have hcalm : Calm s (broadcast s t k push (p :: rest)) := .broadcast h
    cases hs : s.send p.tx (.push push) (.message t k) with
    | none =>
      refine ⟨[.push t], _, .one trivial hstep, hcalm, ?_⟩
      simp [broadcast, hs, State.finish, State.setPhase, State.update, State.emit]
    | some u =>
      obtain ⟨bs, s', hr, hc, hg⟩ := ih (s := broadcast s t k push (p :: rest))
        (hcalm.panicked.trans hn) (by simp [broadcast, hs, State.setPhase, State.update])
      exact ⟨.push t :: bs, s', .cons trivial hstep hr, hcalm.trans hc, hg⟩

theorem Phase.exists_pushing {phase : Phase} (h : phase.holdsLock = true) :
    ∃ k push rest, phase = .selecting (.pushing k push rest) := by
  cases phase with
  | selecting r =>
    cases r with
    | pushing k push rest => exact ⟨k, push, rest, rfl⟩
    | _ => cases h
  | _ => cases h

/-- Whoever holds the lock gives it back without waiting for anyone. -/
theorem exists_unlocked (hw : s.WellFormed) (hn : s.panicked = false) :
    ∃ bs s', Run (step env) Any s bs s' ∧ Calm s s' ∧ s'.guard = none := by
  cases hg : s.guard with
  | none => exact ⟨[], s, .nil s, .refl s, hg⟩
  | some t =>
    obtain ⟨k, push, rest, hp⟩ := Phase.exists_pushing ((hw.guard t).2 hg)
    exact exists_release hn hp

theorem Phase.eq_removing {phase : Phase} (h : phase.course = .closing) : phase = .removing := by
  cases phase with
  | removing => rfl
  | _ => cases h

theorem exists_closed (hw : s.WellFormed) (hn : s.panicked = false)
    (h : (s.session t).phase = .closing) :
    ∃ bs s', Run (step env) Any s bs s' ∧ (s'.session t).phase = .closed := by
  have hcall : step env s (.disconnect t) = some (onDisconnectSession s t) := by
    simp [step, act, hn, h]
  have hshows := step_shows hw hcall
  have hcourse : ((onDisconnectSession s t).session t).phase.course = .closing := by
    have hc := hshows.course t
    simpa [Shown, Action.call, h, Phase.course, Course.next, eq_comm] using hc
  obtain ⟨bs, u, hr, hc, hg⟩ : ∃ bs u, Run (step env) Any (onDisconnectSession s t) bs u ∧
      Calm (onDisconnectSession s t) u ∧ u.guard = none :=
    exists_unlocked (hw.step hcall) (hshows.panicked.trans hn)
  have hremoving := Phase.eq_removing ((hc.course t).trans hcourse)
  have hreturn : step env u (.remove t) = some (onSessionClose u t) := by
    simp [step, act, hc.panicked, hshows.panicked, hn, hremoving, hg]
  refine ⟨_, _, .cons trivial hcall (hr.trans (.one trivial hreturn)), ?_⟩
  simp [onSessionClose, State.setPhase, State.update]

/-- Each delegate is started once, then receives, then is closed once; nothing panics, and what has
left its select can be closed. -/
theorem delegate_is_called_in_order (h : Run (step env) Any .init as s) (t : ℕ) :
    (∃ n, calls t as = (s.session t).phase.course.calls n) ∧
      ((s.session t).phase = .closing →
        ∃ bs s', Run (step env) Any s bs s' ∧ (s'.session t).phase = .closed) ∧
      (∀ e ∈ (s.session t).channel.queue, ∃ data flush, e.message = .send data flush) ∧
      s.panicked = false := by
  have hw : s.WellFormed := .run h
  have hn := panicked_of_run h
  refine ⟨exists_calls (course_of_run h t), exists_closed hw hn, fun e he ↦ ?_, hn⟩
  obtain ⟨data, hd, -⟩ := e.body.exists_writerMessage
  exact ⟨data, true, ((hw.sound t).queue e he).trans hd⟩

/-- A session that reads less than a frame and then meets the end of its stream. -/
theorem short_session_is_called_in_order : ∃ env as s n,
    as = [.spawn, .start 0, .readBuf 0 [0], .recvFrame 0, .readError 0, .endSelect 0, .disconnect 0,
      .remove 0] ∧
    Run (step env) Any .init as s ∧ calls 0 as = Course.ended.calls n ∧ s.panicked = false := by
  obtain ⟨s, h, hp⟩ : ∃ s, Run (step ⟨"", fun _ ↦ none, fun _ ↦ none, fun _ ↦ none⟩) Any .init
      [.spawn, .start 0, .readBuf 0 [0], .recvFrame 0, .readError 0, .endSelect 0, .disconnect 0,
        .remove 0] s ∧ (s.session 0).phase = .closed := Run.exists_of_execute (by decide +kernel)
  obtain ⟨⟨n, hcalls⟩, -, -, hn⟩ := delegate_is_called_in_order h 0
  rw [hp] at hcalls
  exact ⟨_, _, s, n, rfl, h, hcalls, hn⟩

end

end MusicRemote.Server
