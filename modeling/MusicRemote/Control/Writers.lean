import MusicRemote.Foundation.SharedWriter
import MusicRemote.Foundation.Transition
import MusicRemote.Protocol.RoundTrip

namespace MusicRemote.Control.Writers

open Protocol Protocol.Json Protocol.Framing Protocol.RoundTrip
open Foundation.Extraction Foundation.SharedWriter Foundation.Transition

inductive Task
  | pollWrite
  | pollRead
  | pingForever
  deriving DecidableEq

def task : Submission → Task
  | .forward _ => .pollWrite
  | .pong _ => .pollRead
  | .ping _ => .pingForever

def buf (submission : Submission) : List UInt8 := frame (Json.toString submission.message)

/-- One connection: the channel from `run`, for each future the submission that it has
built and waits to write, the mutex with the `write_all` under way, and the socket. -/
structure State where
  rx : List Message
  waiting : Task → Option Submission
  guard : Option (Writing buf)
  finished : List Submission
  socket : List UInt8
  isOver : Bool

def State.init : State := ⟨[], fun _ ↦ none, none, [], [], false⟩

/-- A future builds its next buffer only when its last `write_all` has returned. -/
def State.isIdle (s : State) (t : Task) : Bool :=
  (s.waiting t).isNone && (s.guard.map fun w ↦ task w.item) != some t

def State.submit (s : State) (submission : Submission) : Option State :=
  if s.isIdle (task submission) then
    some { s with waiting := Function.update s.waiting (task submission) (some submission) }
  else none

inductive Action
  | send (message : Message)
  | pollWrite
  | onRecvPing (ping : Ping)
  | pingForever (now : UInt64)
  | lock (t : Task)
  | write (n : ℕ)
  | unlock
  | close
  deriving DecidableEq

def pollWrite (s : State) : Option State :=
  match s.rx with
  | message :: rx => ({ s with rx := rx }).submit (.forward message)
  | [] => none

def lock (s : State) (t : Task) : Option State :=
  match s.guard, s.waiting t with
  | none, some submission => some { s with
      waiting := Function.update s.waiting t none, guard := some (.start buf submission) }
  | _, _ => none

def write (s : State) (n : ℕ) : Option State :=
  match s.guard with
  | some w =>
    if h : w.written + n ≤ (buf w.item).length then
      some { s with
        guard := some ⟨w.item, w.written + n, h⟩
        socket := s.socket ++ ((buf w.item).drop w.written).take n }
    else none
  | none => none

def unlock (s : State) : Option State :=
  match s.guard with
  | some w =>
    if w.written = (buf w.item).length then
      some { s with guard := none, finished := s.finished ++ [w.item] }
    else none
  | none => none

/-- The end of the connection drops the three futures at once, wherever they are. -/
def step (s : State) (a : Action) : Option State :=
  if s.isOver then none else
    match a with
    | .send message => some { s with rx := s.rx ++ [message] }
    | .pollWrite => pollWrite s
    | .onRecvPing ping => s.submit (.pong ⟨ping.time⟩)
    | .pingForever now => s.submit (.ping ⟨now⟩)
    | .lock t => lock s t
    | .write n => write s n
    | .unlock => unlock s
    | .close => some { s with isOver := true }

def Action.asks : Action → Option Submission
  | .send message => some (.forward message)
  | .onRecvPing ping => some (.pong ⟨ping.time⟩)
  | .pingForever now => some (.ping ⟨now⟩)
  | _ => none

def State.backlog (s : State) : Task → List Submission
  | .pollWrite => s.rx.map .forward
  | .pollRead | .pingForever => []

/-- What a future has still to write: the submission it holds, and those behind it in the
channel that it reads. -/
def State.pending (s : State) (t : Task) : List Submission := (s.waiting t).toList ++ s.backlog t

def State.writer (s : State) : Writer buf Task := ⟨s.pending, s.guard, s.finished, s.socket⟩

def State.begun (s : State) : List Submission := s.writer.begun

section

variable {s t : State}

theorem submit_eq {submission : Submission} (h : s.submit submission = some t) :
    s.waiting (task submission) = none ∧
      t = { s with waiting := Function.update s.waiting (task submission) (some submission) } := by
  simp only [State.submit, State.isIdle, Bool.and_eq_true, Option.isNone_iff_eq_none,
    Option.ite_none_right_eq_some, Option.some.injEq] at h
  exact ⟨h.1.1, h.2.symm⟩

theorem pending_update (s : State) (u : Task) (x : Option Submission) :
    State.pending { s with waiting := Function.update s.waiting u x } =
      Function.update s.pending u (x.toList ++ s.backlog u) := by
  funext v
  by_cases hv : v = u
  · subst hv
    cases v <;> simp [State.pending, State.backlog]
  · cases v <;> simp [State.pending, State.backlog, Function.update_of_ne hv]

theorem moves_of {r : Writer buf Task} {x : Option Submission} (hm : s.writer.Move task x r)
    (hq : t.pending = r.queue) (hg : t.guard = r.guard) (hf : t.finished = r.finished)
    (hs : t.socket = r.stream) : s.writer.Move task x t.writer := by
  obtain ⟨queue, guard, finished, stream⟩ := r
  dsimp only at hq hg hf hs
  subst hq hg hf hs
  exact hm

theorem submit_moves {submission : Submission} (h : s.submit submission = some t)
    (hb : s.backlog (task submission) = []) :
    s.writer.Move task (some submission) t.writer := by
  obtain ⟨hw, rfl⟩ := submit_eq h
  have hp : s.pending (task submission) = [] := by rw [State.pending, hw, hb]; rfl
  refine moves_of (.ask submission) ((pending_update s _ _).trans ?_) rfl rfl rfl
  simp only [State.writer, hp, hb, Option.toList_some, List.append_nil, List.nil_append]

theorem send_moves (s : State) (message : Message) : s.writer.Move task (some (.forward message))
    (State.writer { s with rx := s.rx ++ [message] }) := by
  refine moves_of (.ask (Submission.forward message)) ?_ rfl rfl rfl
  funext u
  cases u <;> simp [State.writer, State.pending, State.backlog, task]

theorem pollWrite_writer (h : pollWrite s = some t) : t.writer = s.writer := by
  unfold pollWrite at h
  split at h
  · rename_i message rx hrx
    obtain ⟨hw, rfl⟩ := submit_eq h
    simp only [State.writer, Writer.mk.injEq, and_true]
    funext u
    cases u <;> simp_all [State.pending, State.backlog, task]
  · cases h

theorem lock_moves {u : Task} (h : lock s u = some t) : s.writer.Move task none t.writer := by
  unfold lock at h
  split at h
  · rename_i submission hg hw
    cases h
    have hq : s.pending u = submission :: s.backlog u := by rw [State.pending, hw]; rfl
    exact moves_of (.lock hg hq) (pending_update s u none) rfl rfl rfl
  · cases h

theorem write_moves {n : ℕ} (h : write s n = some t) : s.writer.Move task none t.writer := by
  unfold write at h
  split at h
  · rename_i w hg
    split_ifs at h with hn
    cases h
    exact .write hg hn
  · cases h

theorem unlock_moves (h : unlock s = some t) : s.writer.Move task none t.writer := by
  unfold unlock at h
  split at h
  · rename_i w hg
    split_ifs at h with hw
    cases h
    exact .unlock hg hw
  · cases h

theorem step_moves {a : Action} (h : step s a = some t) :
    s.writer.Move task a.asks t.writer := by
  simp only [step] at h
  split_ifs at h
  cases a with
  | send message =>
    cases h
    exact send_moves s message
  | pollWrite => exact pollWrite_writer h ▸ .stay
  | onRecvPing ping => exact submit_moves h rfl
  | pingForever now => exact submit_moves h rfl
  | lock u => exact lock_moves h
  | write n => exact write_moves h
  | unlock => exact unlock_moves h
  | close =>
    cases h
    exact .stay

end

theorem sound_of_run {as : List Action} {s : State} (h : Run step Any .init as s) :
    s.writer.Sound task (as.filterMap Action.asks) := by
  refine h.history (I := fun as s ↦ s.writer.Sound task (as.filterMap Action.asks))
    (fun bs s a t hi _ ht ↦ ?_) ?_
  · have ha : [a].filterMap Action.asks = a.asks.toList := by cases h : a.asks <;> simp [h]
    rw [List.filterMap_append, ha]
    exact hi.move (step_moves ht)
  · have hp : State.init.pending = fun _ ↦ [] := by
      funext u
      cases u <;> rfl
    rw [State.writer, hp]
    exact Writer.Sound.new

/-- Between two writes the socket is as if the submissions had been written one after the
other, each in one piece. -/
theorem submitAll_finished {as : List Action} {s : State} (h : Run step Any .init as s)
    (hg : s.guard = none) : submitAll ⟨[], true⟩ s.finished = .ok ⟨s.socket, true⟩ := by
  have hs : s.socket = s.finished.flatMap buf := by
    simpa [State.writer, Writer.cut, hg] using (sound_of_run h).stream
  have hbuf : buf = fun x ↦ frame (Json.toString x.message) := rfl
  rw [submitAll_up, hs, hbuf, List.flatMap_def, List.nil_append]

def text (submission : Submission) : List UInt8 := payload submission.message

theorem extract_cut {x : Submission} {cut : List UInt8} (hx : (text x).length < 2 ^ 21)
    (hc : cut.IsPrefix (buf x)) (hne : cut ≠ buf x) : extractFrame cut = .ok none := by
  obtain ⟨rest, hr⟩ := hc
  have h0 : 0 < (text x).length :=
    List.length_pos_of_ne_nil (toString_message_ne_empty x.message)
  have hb : extractFrame (cut ++ rest) = .ok (some (text x, [])) := by
    rw [hr, buf, frame_eq hx, ← List.append_nil (_ ++ _)]
    exact extract_of_frame h0 hx
  refine extractFrame_incremental.waits_of_cut hb ?_
  rintro rfl
  exact hne (by rw [← hr, List.append_nil])

theorem drains_socket {frames : List Submission} {cut : List UInt8}
    (hf : ∀ x ∈ frames, (text x).length < 2 ^ 21) (hc : extractFrame cut = .ok none) :
    Drains extractFrame (frames.flatMap buf ++ cut) (frames.map text) (.ok ()) cut := by
  have h0 : ∀ text ∈ frames.map (fun x ↦ Json.toString x.message), asBytes text ≠ [] :=
    List.forall_mem_map.2 fun x _ ↦ toString_message_ne_empty x.message
  have h1 : ∀ text ∈ frames.map (fun x ↦ Json.toString x.message),
      (asBytes text).length < 2 ^ 21 := by
    intro text ht
    obtain ⟨x, hx, rfl⟩ := List.mem_map.1 ht
    simpa only [Writers.text, payload] using hf x hx
  have h := drains_frames h0 h1 (.wait hc)
  have hbuf : buf = fun x ↦ frame (Json.toString x.message) := rfl
  have htext : Writers.text = fun x ↦ asBytes (Json.toString x.message) := rfl
  rw [hbuf, htext, List.flatMap_def]
  simpa only [List.map_map, Function.comp_def, List.append_nil] using h

/-- Whatever the schedule, the socket holds whole frames and at most one that is cut short.
The frames are those of the submissions that took the lock, each future's in its order. When
every one of them is below the limit, the server extracts exactly the whole ones; and
only then. -/
theorem socket_decodes_to_a_merge {as : List Action} {s : State} (h : Run step Any .init as s) :
    ∃ frames cut, s.socket = frames.flatMap buf ++ cut ∧
      (s.begun = frames ∧ cut = [] ∨
        ∃ x, s.begun = frames ++ [x] ∧ cut.IsPrefix (buf x) ∧ cut ≠ buf x) ∧
      (∀ t, (as.filterMap Action.asks).filter (task · = t) =
        s.begun.filter (task · = t) ++ s.pending t) ∧
      ((∀ x ∈ s.begun, (text x).length < 2 ^ 21) →
        Drains onTryExtractFrame s.socket (frames.map text) (.ok ()) cut) ∧
      (Drains onTryExtractFrame s.socket (frames.map text) (.ok ()) cut →
        ∀ x ∈ frames, (text x).length < 2 ^ 21) := by
  have hs := sound_of_run h
  obtain ⟨frames, cut, hsocket, hb⟩ := hs.frames
  refine ⟨frames, cut, hsocket, hb, hs.order, fun hx ↦ ?_, fun hd x hx ↦ ?_⟩
  · -- The end of the connection can leave part of a frame, for which the extractor waits.
    have hc : extractFrame cut = .ok none := by
      rcases hb with ⟨-, rfl⟩ | ⟨x, hb, hc, hne⟩
      · exact extractFrame_incremental.nil
      · exact extract_cut (hx x (by rw [State.begun, hb]; simp)) hc hne
    have hf : ∀ x ∈ frames, (text x).length < 2 ^ 21 := by
      intro x hxf
      rcases hb with ⟨hb, -⟩ | ⟨y, hb, -⟩
      · exact hx x (by rwa [State.begun, hb])
      · exact hx x (by rw [State.begun, hb]; simp [hxf])
    have hd := drains_socket hf hc
    rwa [← hsocket] at hd
  · exact drains_items_lt hd _ (List.mem_map_of_mem hx)

def cutAnswer : List Action :=
  [.onRecvPing ⟨7⟩, .pingForever 9, .lock .pingForever, .write 20, .write 21, .unlock,
    .lock .pollRead, .write 5, .close]

theorem cut_answer_decodes_to_the_ping :
    ∃ s, Run step Any .init cutAnswer s ∧ s.begun = [.ping ⟨9⟩, .pong ⟨7⟩] ∧
      ∃ (frames : List Submission) (cut : List UInt8), s.socket = frames.flatMap buf ++ cut ∧
        Drains onTryExtractFrame s.socket (frames.map text) (.ok ()) cut := by
  have hrun : ∃ s, Run step Any .init cutAnswer s ∧ s.begun = [.ping ⟨9⟩, .pong ⟨7⟩] :=
    Run.exists_of_execute (by decide +kernel)
  obtain ⟨s, hs, hb⟩ := hrun
  have hshort : ∀ x ∈ [Submission.ping ⟨9⟩, .pong ⟨7⟩], (text x).length < 2 ^ 21 := by
    decide +kernel
  obtain ⟨frames, cut, hsocket, -, -, hd, -⟩ := socket_decodes_to_a_merge hs
  exact ⟨s, hs, hb, frames, cut, hsocket, hd (by rwa [hb])⟩

theorem run_writeAll {s : State} {x : Submission} (ho : s.isOver = false)
    (hg : s.guard = some (.start buf x)) :
    Run step Any s [.write (buf x).length, .unlock]
      { s with guard := none, finished := s.finished ++ [x], socket := s.socket ++ buf x } := by
  refine .cons trivial (t := { s with
    guard := some ⟨x, 0 + (buf x).length, by rw [Nat.zero_add]⟩, socket := s.socket ++ buf x })
    ?_ (.one trivial ?_)
  · simp [step, ho, write, hg, Writing.start]
  · simp [step, ho, unlock]

theorem run_forward (message : Message) :
    ∃ s, Run step Any .init [.send message, .pollWrite, .lock .pollWrite,
        .write (buf (.forward message)).length, .unlock] s ∧
      s.begun = [.forward message] ∧ s.socket = buf (.forward message) :=
  ⟨_, .cons trivial rfl (.cons trivial rfl (.cons trivial rfl (run_writeAll rfl rfl))), rfl, rfl⟩

theorem long_request_is_not_decoded :
    ∃ as s, Run step Any .init as s ∧ s.begun = [.forward (messageOf longRequest)] ∧
      s.socket = buf (.forward (messageOf longRequest)) ∧
      ¬ Drains onTryExtractFrame s.socket [text (.forward (messageOf longRequest))]
        (.ok ()) [] := by
  obtain ⟨s, hs, hb, hsocket⟩ := run_forward (messageOf longRequest)
  refine ⟨_, s, hs, hb, hsocket, fun h ↦ ?_⟩
  have hlt := drains_items_lt h _ (List.mem_singleton_self _)
  exact absurd le_length_longRequest (Nat.not_le_of_lt hlt)

end MusicRemote.Control.Writers
