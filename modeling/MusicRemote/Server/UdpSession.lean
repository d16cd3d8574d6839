import MusicRemote.Foundation.Throttle
import MusicRemote.Server.SendMessage

namespace MusicRemote.Server.UdpSession

open Foundation Foundation.Transition

inductive Task
  | reader
  | writer
  deriving DecidableEq

/-- What a session gets to read: through the channel of a shared socket, or from a socket of its
own, with the sender's address. -/
inductive Incoming
  | frame (data : List UInt8)
  | frameFrom (data : List UInt8) (peerAddr : SocketAddr)
  deriving DecidableEq

inductive Writer
  | receiving
  | taken (message : WriterMessage)
  | sleeping (wake : ℕ)
  deriving DecidableEq

inductive Timer
  | sleeping (wake : ℕ)
  | asking
  deriving DecidableEq

inductive Branch
  | reader
  | writer
  | timeout
  | shutdown
  deriving DecidableEq

inductive Phase
  | selecting
  | closing (branch : Branch)
  | closed (branch : Branch)
  deriving DecidableEq

structure State where
  addr : SocketAddr
  hasReceiver : Bool
  phase : Phase
  time : Throttle.Throttled Task
  reader : Option Incoming
  writer : Writer
  timer : Timer
  delivered : List Incoming
  sent : List (List UInt8 × SocketAddr)
  called : List ℕ

def State.start (addr : SocketAddr) (hasReceiver : Bool) (now : ℕ) : State where
  addr := addr
  hasReceiver := hasReceiver
  phase := .selecting
  time := .start now
  reader := none
  writer := .receiving
  timer := .sleeping (now + second)
  delivered := []
  sent := []
  called := []

/-- A branch of `select!` returns, and the others are dropped. -/
def State.finish (s : State) (branch : Branch) : State := { s with phase := .closing branch }

def State.sendTo (s : State) (data : List UInt8) (addr : SocketAddr) : State :=
  { s with writer := .receiving, sent := s.sent ++ [(data, addr)] }

def State.call (s : State) (callback : ℕ) : State :=
  { s with writer := .receiving, called := s.called ++ [callback] }

/-- What `poll_write` does with a message, once the time is noted. The socket may refuse. -/
def pollWrite (s : State) (ok : Bool) : WriterMessage → State
  | .close => s.finish .writer
  | .closeDelayed duration => { s with writer := .sleeping (s.time.now + duration) }
  | .send data _ =>
    if data = [] then { s with writer := .receiving }
    else if ok then s.sendTo data s.addr
    else s.finish .writer
  | .sendTo data targetAddr =>
    if data = [] then { s with writer := .receiving }
    else if ok then s.sendTo data targetAddr
    else s.finish .writer
  | .sendAndThen data callback =>
    if data = [] then s.call callback
    else if ok then (s.sendTo data s.addr).call callback
    else s.finish .writer
  | .flush => { s with writer := .receiving }

def pollTimeout (s : State) : State :=
  if s.time.elapsed > 10 * second then s.finish .timeout
  else { s with timer := .sleeping (s.time.now + second) }

inductive Action
  | pass (time : ℕ)
  | receive (incoming : Incoming)
  | receiveError
  | receiverClosed
  | deliver (ok : Bool)
  | take (message : WriterMessage)
  | senderClosed
  | write (ok : Bool)
  | wakeWriter
  | checkActive (task : Task)
  | writeActive (task : Task)
  | wakeTimer
  | pollTimeout
  | shutdown
  | onSessionClose
  deriving DecidableEq

def State.accepts (s : State) : Incoming → Bool
  | .frame _ => s.hasReceiver
  | .frameFrom data _ => !s.hasReceiver && data.length ≤ 65535

def State.tick (s : State) (a : Throttle.Action Task) : Option State :=
  (Throttle.step second s.time a).map fun time ↦ { s with time := time }

/-- A step while the session selects. A future goes on with what it has taken when the time is
noted. -/
def select (s : State) : Action → Option State
  | .pass time => s.tick (.pass time)
  | .receive incoming =>
    if s.reader = none ∧ s.accepts incoming = true then
      ({ s with reader := some incoming }).tick (.act .reader)
    else none
  | .receiveError => if s.reader = none ∧ s.hasReceiver = false then some s else none
  | .receiverClosed =>
    if s.reader = none ∧ s.hasReceiver = true then some (s.finish .reader) else none
  | .deliver ok =>
    match s.reader, s.time.refresh .reader with
    | some incoming, none =>
      if ok then some { s with reader := none, delivered := s.delivered ++ [incoming] }
      else some ({ s with delivered := s.delivered ++ [incoming] }.finish .reader)
    | _, _ => none
  | .take message =>
    if s.writer = .receiving then ({ s with writer := .taken message }).tick (.act .writer)
    else none
  | .senderClosed => if s.writer = .receiving then some (s.finish .writer) else none
  | .write ok =>
    match s.writer, s.time.refresh .writer with
    | .taken message, none => some (pollWrite s ok message)
    | _, _ => none
  | .wakeWriter =>
    match s.writer with
    | .sleeping wake => if wake ≤ s.time.now then some (s.finish .writer) else none
    | _ => none
  | .checkActive task => s.tick (.check task)
  | .writeActive task => s.tick (.write task)
  | .wakeTimer =>
    match s.timer with
    | .sleeping wake => if wake ≤ s.time.now then some { s with timer := .asking } else none
    | .asking => none
  | .pollTimeout => if s.timer = .asking then some (pollTimeout s) else none
  | .shutdown => some (s.finish .shutdown)
  | .onSessionClose => none

def step (s : State) (a : Action) : Option State :=
  match s.phase with
  | .selecting => select s a
  | .closing branch =>
    if a = .onSessionClose then some { s with phase := .closed branch } else none
  | .closed _ => none

structure Selects (s t : State) : Prop where
  time : ∃ a, Shown (Throttle.step second) s.time a t.time
  phase : t.phase = .selecting ∨ ∃ branch, t.phase = .closing branch ∧ t.time = s.time ∧
    (branch = .timeout → 10 * second < s.time.elapsed)

section

variable {s t : State}

theorem Selects.keep (hphase : t.phase = .selecting) (htime : t.time = s.time) : Selects s t :=
  ⟨⟨none, htime⟩, .inl hphase⟩

theorem Selects.finish {branch : Branch} (hb : branch ≠ .timeout) (htime : t.time = s.time) :
    Selects s (t.finish branch) :=
  ⟨⟨none, htime⟩, .inr ⟨branch, rfl, htime, fun h ↦ absurd h hb⟩⟩

theorem tick_selects {u : State} {a : Throttle.Action Task} (h : s.tick a = some t)
    (hphase : s.phase = .selecting) (htime : s.time = u.time) : Selects u t := by
  obtain ⟨time, ht, rfl⟩ := Option.map_eq_some_iff.1 h
  exact ⟨⟨some a, htime ▸ ht⟩, .inl hphase⟩

theorem pollWrite_selects (hphase : s.phase = .selecting) (ok : Bool) (message : WriterMessage) :
    Selects s (pollWrite s ok message) := by
  cases message with
  | close => exact .finish (by decide) rfl
  | flush => exact .keep hphase rfl
  | closeDelayed duration => exact .keep hphase rfl
  | send data flush =>
    rw [pollWrite]
    split_ifs
    · exact .keep hphase rfl
    · exact .keep hphase rfl
    · exact .finish (by decide) rfl
  | sendTo data targetAddr =>
    rw [pollWrite]
    split_ifs
    · exact .keep hphase rfl
    · exact .keep hphase rfl
    · exact .finish (by decide) rfl
  | sendAndThen data callback =>
    rw [pollWrite]
    split_ifs
    · exact .keep hphase rfl
    · exact .keep hphase rfl
    · exact .finish (by decide) rfl

theorem pollTimeout_selects (hphase : s.phase = .selecting) : Selects s (pollTimeout s) := by
  rw [pollTimeout]
  split_ifs with hold
  · exact ⟨⟨none, rfl⟩, .inr ⟨.timeout, rfl, rfl, fun _ ↦ hold⟩⟩
  · exact .keep hphase rfl

theorem select_selects {a : Action} (hphase : s.phase = .selecting) (h : select s a = some t) :
    Selects s t := by
  cases a with
  | pass time => exact tick_selects h hphase rfl
  | checkActive task => exact tick_selects h hphase rfl
  | writeActive task => exact tick_selects h hphase rfl
  | receive incoming =>
    simp only [select, Option.ite_none_right_eq_some] at h
    exact tick_selects h.2 hphase rfl
  | take message =>
    simp only [select, Option.ite_none_right_eq_some] at h
    exact tick_selects h.2 hphase rfl
  | receiveError =>
    simp only [select, Option.ite_none_right_eq_some, Option.some.injEq] at h
    exact h.2 ▸ .keep hphase rfl
  | receiverClosed =>
    simp only [select, Option.ite_none_right_eq_some, Option.some.injEq] at h
    exact h.2 ▸ .finish (by decide) rfl
  | senderClosed =>
    simp only [select, Option.ite_none_right_eq_some, Option.some.injEq] at h
    exact h.2 ▸ .finish (by decide) rfl
  | pollTimeout =>
    simp only [select, Option.ite_none_right_eq_some, Option.some.injEq] at h
    exact h.2 ▸ pollTimeout_selects hphase
  | deliver ok =>
    simp only [select] at h
    split at h
    · split_ifs at h
      · cases h
        exact .keep hphase rfl
      · cases h
        exact .finish (by decide) rfl
    · cases h
  | write ok =>
    simp only [select] at h
    split at h
    · cases h
      exact pollWrite_selects hphase ok _
    · cases h
  | wakeWriter =>
    simp only [select] at h
    split at h
    · simp only [Option.ite_none_right_eq_some, Option.some.injEq] at h
      exact h.2 ▸ .finish (by decide) rfl
    · cases h
  | wakeTimer =>
    simp only [select] at h
    split at h
    · simp only [Option.ite_none_right_eq_some, Option.some.injEq] at h
      exact h.2 ▸ .keep hphase rfl
    · cases h
  | shutdown =>
    cases h
    exact .finish (by decide) rfl
  | onSessionClose => cases h

/-- The reader does not end the select by taking something. -/
theorem phase_of_receive {incoming : Incoming} (h : step s (.receive incoming) = some t) :
    t.phase = .selecting := by
  rw [step] at h
  split at h
  · next hphase =>
    simp only [select, Option.ite_none_right_eq_some, State.tick, Option.map_eq_some_iff] at h
    obtain ⟨-, time, -, rfl⟩ := h
    exact hphase
  · simp at h
  · cases h

end

/-- Over a whole run the clock is sound, and a session that the timeout has ended had been idle. -/
structure Kept (s : State) : Prop where
  sound : s.time.Sound second
  timeout : s.phase = .closing .timeout ∨ s.phase = .closed .timeout →
    10 * second < s.time.elapsed

theorem kept_step {s t : State} {a : Action} (h : Kept s) (ht : step s a = some t) : Kept t := by
  rw [step] at ht
  split at ht
  · rename_i hphase
    obtain ⟨⟨l, hl⟩, hend⟩ := select_selects hphase ht
    refine ⟨h.sound.shown (by decide) hl, fun htimeout ↦ ?_⟩
    obtain hsel | ⟨branch, hbranch, htime, hidle⟩ := hend
    · simp [hsel] at htimeout
    · rw [htime]
      refine hidle ?_
      simpa [hbranch] using htimeout
  · rename_i branch hphase
    simp only [Option.ite_none_right_eq_some, Option.some.injEq] at ht
    obtain ⟨_, rfl⟩ := ht
    refine ⟨h.sound, fun htimeout ↦ h.timeout (.inl ?_)⟩
    simpa [hphase] using htimeout
  · cases ht

theorem kept_of_run {addr : SocketAddr} {hasReceiver : Bool} {now : ℕ} {as : List Action}
    {s : State} (h : Run step Any (.start addr hasReceiver now) as s) : Kept s := by
  refine h.invariant (fun _ _ _ hs _ ht ↦ kept_step hs ht) ⟨.start (by decide) now, fun h ↦ ?_⟩
  simp [State.start] at h

/-- `poll_timeout` ends a session only when nothing has come or gone for more than nine seconds. -/
theorem idle_of_timeout {addr : SocketAddr} {hasReceiver : Bool} {now t : ℕ} {as : List Action}
    {s : State} (h : Run step Any (.start addr hasReceiver now) as s)
    (hphase : s.phase = .closing .timeout) (ht : t ∈ s.time.active) :
    t + 9 * second < s.time.now := by
  have hkept := kept_of_run h
  have hidle := hkept.sound.idle (hkept.timeout (.inl hphase)) ht
  simp only [second] at hidle ⊢
  omega

end MusicRemote.Server.UdpSession
