import MusicRemote.Foundation.Throttle

namespace MusicRemote.Control.PingForever

open Foundation Foundation.Transition

/-- Where the loop of `ping_forever` stands: in its sleep, before its first and its second look at
`last_active_time`, or in the writing of a ping. -/
inductive Pinger
  | sleeping (wake : ℕ)
  | asking
  | judging
  | pinging
  deriving DecidableEq

inductive Ending
  | pingTimeout
  | disconnected
  | failed
  deriving DecidableEq

/-- `poll_read` and `ping_forever` of one connection. Carried along are the times at which the loop
last took its first look, in this round and in the one before it, and whether a ping has been
written since bytes were last received. -/
structure State where
  time : Throttle.Throttled Unit
  unpacking : Bool
  pinger : Pinger
  ending : Option Ending
  asked : ℕ
  askedBefore : ℕ
  probed : Bool

def State.start (now : ℕ) : State where
  time := .start now
  unpacking := false
  pinger := .sleeping (now + second)
  ending := none
  asked := now
  askedBefore := now
  probed := false

inductive Action
  | pass (time : ℕ)
  | readBuf (len : ℕ)
  | readError
  | checkActive
  | writeActive
  | unpacked (ok : Bool)
  | wake
  | ask
  | judge
  | pinged (ok : Bool)
  | pollWriteReturns
  deriving DecidableEq

def State.tick (s : State) (a : Throttle.Action Unit) : Option State :=
  (Throttle.step second s.time a).map fun time ↦ { s with time := time }

def State.sleep (s : State) : State := { s with pinger := .sleeping (s.time.now + second) }

/-- The first look. -/
def ask (s : State) : State :=
  let s := { s with asked := s.time.now, askedBefore := s.asked }
  if s.time.elapsed < 5 * second then s.sleep else { s with pinger := .judging }

/-- The second look. -/
def judge (s : State) : State :=
  if s.time.elapsed > 15 * second then { s with ending := some .pingTimeout }
  else { s with pinger := .pinging }

def advance (s : State) : Action → Option State
  | .pass time => s.tick (.pass time)
  | .readBuf len =>
    if s.unpacking then none
    else if len = 0 then some { s with ending := some .disconnected }
    else ({ s with unpacking := true, probed := false }).tick (.act ())
  | .readError => if s.unpacking then none else some { s with ending := some .failed }
  | .checkActive => s.tick (.check ())
  | .writeActive => s.tick (.write ())
  | .unpacked ok =>
    if s.unpacking = true ∧ s.time.refresh () = none then
      if ok then some { s with unpacking := false } else some { s with ending := some .failed }
    else none
  | .wake =>
    match s.pinger with
    | .sleeping wake => if wake ≤ s.time.now then some { s with pinger := .asking } else none
    | _ => none
  | .ask => if s.pinger = .asking then some (ask s) else none
  | .judge => if s.pinger = .judging then some (judge s) else none
  | .pinged ok =>
    if s.pinger = .pinging then
      if ok then some { s with probed := true }.sleep else some { s with ending := some .failed }
    else none
  | .pollWriteReturns => some { s with ending := some .failed }

def step (s : State) (a : Action) : Option State := if s.ending = none then advance s a else none

inductive Turn (s : State) : Action → State → Prop
  | tick {a : Action} {b : Throttle.Action Unit} {time : Throttle.Throttled Unit} :
      b = .check () ∨ b = .write () ∨ (∃ n, b = .pass n) →
      Throttle.step second s.time b = some time → Turn s a { s with time := time }
  | readBuf {len : ℕ} {time : Throttle.Throttled Unit} :
      Throttle.step second s.time (.act ()) = some time →
      Turn s (.readBuf len) { s with unpacking := true, probed := false, time := time }
  | unpacked : Turn s (.unpacked true) { s with unpacking := false }
  | wake {wake : ℕ} : s.pinger = .sleeping wake → wake ≤ s.time.now →
      Turn s .wake { s with pinger := .asking }
  | ask : s.pinger = .asking → Turn s .ask (ask s)
  | judge : s.pinger = .judging → Turn s .judge (judge s)
  | pinged : s.pinger = .pinging → Turn s (.pinged true) { s with probed := true }.sleep
  | ended {a : Action} {ending : Ending} : ending ≠ .pingTimeout →
      Turn s a { s with ending := some ending }

section

variable {s t : State}

theorem tick_eq {a : Throttle.Action Unit} (h : s.tick a = some t) :
    ∃ time, Throttle.step second s.time a = some time ∧ { s with time := time } = t :=
  Option.map_eq_some_iff.1 h

theorem advance_turn {a : Action} (h : advance s a = some t) : Turn s a t := by
  cases a with
  | pass time =>
    obtain ⟨time, ht, rfl⟩ := tick_eq h
    exact .tick (.inr (.inr ⟨_, rfl⟩)) ht
  | checkActive =>
    obtain ⟨time, ht, rfl⟩ := tick_eq h
    exact .tick (.inl rfl) ht
  | writeActive =>
    obtain ⟨time, ht, rfl⟩ := tick_eq h
    exact .tick (.inr (.inl rfl)) ht
  | readBuf len =>
    simp only [advance] at h
    split_ifs at h
    · cases h
      exact .ended (by decide)
    · obtain ⟨time, ht, rfl⟩ := tick_eq h
      exact .readBuf ht
  | readError =>
    simp only [advance, Option.ite_none_left_eq_some, Option.some.injEq] at h
    exact h.2 ▸ .ended (by decide)
  | unpacked ok =>
    simp only [advance, Option.ite_none_right_eq_some] at h
    cases ok with
    | true => exact Option.some.inj h.2 ▸ .unpacked
    | false => exact Option.some.inj h.2 ▸ .ended (by decide)
  | wake =>
    simp only [advance] at h
    split at h
    · rename_i hpinger
      simp only [Option.ite_none_right_eq_some, Option.some.injEq] at h
      exact h.2 ▸ .wake hpinger h.1
    · cases h
  | ask =>
    simp only [advance, Option.ite_none_right_eq_some, Option.some.injEq] at h
    exact h.2 ▸ .ask h.1
  | judge =>
    simp only [advance, Option.ite_none_right_eq_some, Option.some.injEq] at h
    exact h.2 ▸ .judge h.1
  | pinged ok =>
    simp only [advance, Option.ite_none_right_eq_some] at h
    cases ok with
    | true => exact Option.some.inj h.2 ▸ .pinged h.1
    | false => exact Option.some.inj h.2 ▸ .ended (by decide)
  | pollWriteReturns =>
    cases h
    exact .ended (by decide)

theorem step_turn {a : Action} (h : step s a = some t) : s.ending = none ∧ Turn s a t := by
  simp only [step, Option.ite_none_right_eq_some] at h
  exact ⟨h.1, advance_turn h.2⟩

theorem Turn.shown {a : Action} (h : Turn s a t) :
    ∃ b, Shown (Throttle.step second) s.time b t.time := by
  cases h with
  | tick _ ht => exact ⟨some _, ht⟩
  | readBuf ht => exact ⟨some _, ht⟩
  | unpacked | wake | pinged | ended => exact ⟨none, rfl⟩
  | ask =>
    refine ⟨none, ?_⟩
    rw [PingForever.ask]
    split_ifs <;> rfl
  | judge =>
    refine ⟨none, ?_⟩
    rw [PingForever.judge]
    split_ifs <;> rfl

end

theorem sound_of_run {ok : State → Action → Prop} {now : ℕ} {as : List Action} {s : State}
    (h : Run step ok (.start now) as s) : s.time.Sound second := by
  refine h.invariant (I := fun s ↦ s.time.Sound second) (fun s a t hs _ ht ↦ ?_)
    (.start (by decide) now)
  obtain ⟨b, hb⟩ := (step_turn ht).2.shown
  exact hs.shown (by decide) hb

/-- The only way to a ping timeout. -/
theorem Turn.pingTimeout {s t : State} {a : Action} (h : Turn s a t) (hnone : s.ending = none)
    (hend : t.ending = some .pingTimeout) : a = .judge ∧ s.pinger = .judging ∧
      15 * second < s.time.elapsed ∧ t = { s with ending := some .pingTimeout } := by
  have hkeep (heq : t.ending = s.ending) : False := by
    rw [heq, hnone] at hend
    cases hend
  cases h with
  | tick | readBuf | unpacked | wake | pinged => exact (hkeep rfl).elim
  | ended hother => exact absurd (Option.some.inj hend) hother
  | ask =>
    refine (hkeep ?_).elim
    rw [PingForever.ask]
    split_ifs <;> rfl
  | judge hpinger =>
    rw [PingForever.judge] at hend hkeep ⊢
    split_ifs at hend hkeep ⊢ with hold
    · exact ⟨rfl, hpinger, hold, rfl⟩
    · exact (hkeep rfl).elim

/-- A connection that is given up had been idle at that time, and nothing happens afterwards. -/
theorem elapsed_of_pingTimeout {ok : State → Action → Prop} {now : ℕ} {as : List Action} {s : State}
    (h : Run step ok (.start now) as s) (hend : s.ending = some .pingTimeout) :
    15 * second < s.time.elapsed := by
  refine h.invariant (I := fun s ↦ s.ending = some .pingTimeout → 15 * second < s.time.elapsed)
    (fun s a t _ _ ht hend ↦ ?_) (fun h ↦ by cases h) hend
  obtain ⟨hnone, hturn⟩ := step_turn ht
  obtain ⟨_, _, hold, rfl⟩ := hturn.pingTimeout hnone hend
  exact hold

/-- `ping_forever` gives a connection up only when no bytes have come for more than fourteen
seconds. -/
theorem idle_of_pingTimeout {now t : ℕ} {as : List Action} {s : State}
    (h : Run step Any (.start now) as s) (hend : s.ending = some .pingTimeout)
    (ht : t ∈ s.time.active) : t + 14 * second < s.time.now := by
  have hidle := (sound_of_run h).idle (elapsed_of_pingTimeout h hend) ht
  simp only [second] at hidle ⊢
  omega

def State.content (s : State) : Option ℕ :=
  match s.pinger with
  | .sleeping _ | .asking => some s.asked
  | .judging => some s.askedBefore
  | .pinging => none

structure Watched (s : State) : Prop where
  asked : s.askedBefore ≤ s.asked ∧ s.asked ≤ s.time.now
  quiet : s.probed = false → s.time.refresh () = none →
    ∀ t ∈ s.content, t < s.time.stamp + 5 * second

theorem Watched.content {s : State} (h : Watched s) {t : ℕ} (ht : t ∈ s.content) :
    t ≤ s.time.now := by
  obtain ⟨hbefore, hasked⟩ := h.asked
  rw [State.content] at ht
  split at ht <;> cases ht <;> omega

theorem watched_tick {s : State} {b : Throttle.Action Unit} {time : Throttle.Throttled Unit}
    (h : Watched s) (hb : b = .check () ∨ b = .write () ∨ ∃ n, b = .pass n)
    (ht : Throttle.step second s.time b = some time) : Watched { s with time := time } := by
  have hnow := Throttle.now_le ht
  refine ⟨⟨h.asked.1, Nat.le_trans h.asked.2 hnow⟩, fun hprobed hrefresh t hcontent ↦ ?_⟩
  have htime := Nat.le_trans (h.content hcontent) hnow
  dsimp only at htime ⊢
  -- A refresh that has just ended leaves the timestamp fresh.
  obtain rfl | rfl | ⟨n, rfl⟩ := hb
  · have hfresh := Throttle.lt_of_check ht hrefresh
    simp only [second] at hfresh ⊢
    omega
  · have hfresh := Throttle.eq_of_write ht
    simp only [second]
    omega
  · cases ht
    exact h.quiet hprobed hrefresh t hcontent

theorem watched_step {s t : State} {a : Action} (h : Watched s) (ht : step s a = some t) :
    Watched t := by
  obtain ⟨hnone, hturn⟩ := step_turn ht
  cases hturn with
  | tick hb htime => exact watched_tick h hb htime
  | readBuf htime =>
    simp only [Throttle.step, Option.ite_none_right_eq_some, Option.some.injEq] at htime
    obtain ⟨_, rfl⟩ := htime
    refine ⟨h.asked, fun _ hrefresh ↦ ?_⟩
    simp at hrefresh
  | unpacked => exact ⟨h.asked, h.quiet⟩
  | wake hpinger =>
    refine ⟨h.asked, fun hprobed hrefresh t hcontent ↦ h.quiet hprobed hrefresh t ?_⟩
    rwa [State.content, hpinger]
  | pinged => exact ⟨h.asked, fun hprobed ↦ by cases hprobed⟩
  | ended => exact ⟨h.asked, h.quiet⟩
  | ask hpinger =>
    rw [ask]
    split_ifs with hyoung
    · refine ⟨⟨h.asked.2, le_rfl⟩, fun _ _ t hcontent ↦ ?_⟩
      cases hcontent
      simp only [Throttle.Throttled.elapsed, State.sleep] at hyoung ⊢
      omega
    · refine ⟨⟨h.asked.2, le_rfl⟩, fun hprobed hrefresh t hcontent ↦ ?_⟩
      refine h.quiet hprobed hrefresh t ?_
      rwa [State.content, hpinger]
  | judge hpinger =>
    rw [judge]
    split_ifs
    · exact ⟨h.asked, h.quiet⟩
    · exact ⟨h.asked, fun _ _ t hcontent ↦ by cases hcontent⟩

/-- The second look of a round comes at most ten seconds after the first look of the round before,
and finds no bytes whose arrival has yet to be noted. -/
def Timely (s : State) (a : Action) : Prop :=
  a = .judge → s.time.now ≤ s.askedBefore + 10 * second ∧ s.time.refresh () = none

instance (s : State) (a : Action) : Decidable (Timely s a) := by
  unfold Timely
  infer_instance

/-- On a timely schedule no connection is given up without a ping since its last bytes. -/
theorem pinged_before_timeout {now : ℕ} {as : List Action} {s : State}
    (h : Run step Timely (.start now) as s) (hend : s.ending = some .pingTimeout) :
    s.probed = true := by
  refine h.invariant_of (J := Watched)
    (I := fun s ↦ s.ending = some .pingTimeout → s.probed = true)
    (fun _ _ _ hs _ ht ↦ watched_step hs ht) (fun s a t hs _ hok ht hend ↦ ?_)
    ⟨⟨le_rfl, le_rfl⟩, fun _ _ t hcontent ↦ ?_⟩ (fun h ↦ by cases h) hend
  · obtain ⟨hnone, hturn⟩ := step_turn ht
    obtain ⟨rfl, hpinger, hold, rfl⟩ := hturn.pingTimeout hnone hend
    obtain ⟨htimely, hrefresh⟩ := hok rfl
    by_contra hprobed
    have hquiet := hs.quiet (eq_false_of_ne_true hprobed) hrefresh s.askedBefore
      (by rw [State.content, hpinger]; rfl)
    rw [Throttle.Throttled.elapsed] at hold
    omega
  · cases hcontent
    exact Nat.lt_add_of_pos_right (by decide)

def silence : List Action :=
  [.pass (4 * second), .wake, .ask, .pass (6 * second), .wake, .ask, .judge, .pinged true,
    .pass (6 * second), .wake, .ask, .judge]

theorem silent_server_was_pinged :
    ∃ s, Run step Timely (.start 0) silence s ∧ s.ending = some .pingTimeout ∧
      s.probed = true := by
  have hrun : ∃ s, Run step Timely (.start 0) silence s ∧ s.ending = some .pingTimeout :=
    Run.exists_of_execute (by decide +kernel)
  obtain ⟨s, hs, hend⟩ := hrun
  exact ⟨s, hs, hend, pinged_before_timeout hs hend⟩

/-- A sleep that ends late takes the loop from its first look straight to the timeout. -/
def lateSleep : List Action :=
  [.pass second, .wake, .ask, .pass (19 * second), .wake, .ask, .judge]

/-- Bytes that arrive in the last moment are not noted before the second look. -/
def lateBytes : List Action :=
  [.pass (4 * second), .wake, .ask, .pass (6 * second), .wake, .ask, .judge, .pinged true,
    .pass (6 * second), .wake, .readBuf 1, .ask, .judge]

theorem late_sleep_gives_up_unprobed :
    (∃ s, Run step Any (.start 0) lateSleep s ∧ s.ending = some .pingTimeout ∧
      s.probed = false) ∧
    ∃ s, Run step Any (.start 0) lateBytes s ∧ s.ending = some .pingTimeout ∧ s.probed = false :=
  ⟨Run.exists_of_execute (by decide +kernel), Run.exists_of_execute (by decide +kernel)⟩

end MusicRemote.Control.PingForever
