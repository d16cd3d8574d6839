import Mathlib.Data.List.TakeWhile
import MusicRemote.Foundation.BufWriter
import MusicRemote.Server.SendMessage

namespace MusicRemote.Server

open Foundation Protocol.Framing

def WriterMessage.isEnd : WriterMessage → Bool
  | .close | .closeDelayed _ => true
  | .flush | .send .. | .sendTo .. | .sendAndThen .. => false

def WriterMessage.isSendTo : WriterMessage → Bool
  | .sendTo .. => true
  | .close | .closeDelayed _ | .flush | .send .. | .sendAndThen .. => false

def WriterMessage.callback : WriterMessage → Option ℕ
  | .sendAndThen _ callback => some callback
  | .close | .closeDelayed _ | .flush | .send .. | .sendTo .. => none

/-- Whether bytes may be held back after a message, given whether they may be before it. -/
def WriterMessage.holdsBack (held : Bool) : WriterMessage → Bool
  | .flush => false
  | .send data now => if data = [] then held else !now
  | .sendAndThen data _ => if data = [] then held else false
  | .close | .closeDelayed _ | .sendTo .. => held

namespace PollWrite

/-- The capacity that `BufWriter::new` gives. -/
def bufSize : ℕ := 8 * 1024

structure State where
  writer : BufWriter UInt8
  called : List (ℕ × List UInt8)
  deriving DecidableEq

def State.start (answers : List Answer) : State := ⟨⟨[], [], answers⟩, []⟩

inductive Ending
  | channelClosed
  | closed
  | failed
  | panicked
  deriving DecidableEq

def State.flush (s : State) : State := { s with writer := s.writer.flush.1 }

def State.call (s : State) (callback : ℕ) : State :=
  { s with called := s.called ++ [(callback, s.writer.received)] }

/-- One round of the loop, and how it ends the loop if it does. A flush that fails is logged. -/
def handle (s : State) : WriterMessage → State × Option Ending
  | .close => (s, some .closed)
  | .closeDelayed _ => (s, some .closed)
  | .send data flush =>
    if data = [] then (s, none)
    else
      match s.writer.writeAll bufSize data with
      | (w, false) => ({ s with writer := w }, some .failed)
      | (w, true) =>
        (if flush then ({ s with writer := w } : State).flush else { s with writer := w }, none)
  | .sendTo _ _ => (s, some .panicked)
  | .sendAndThen data callback =>
    if data = [] then (s.call callback, none)
    else
      match s.writer.writeAll bufSize data with
      | (w, false) => ({ s with writer := w }, some .failed)
      | (w, true) => (({ s with writer := w } : State).flush.call callback, none)
  | .flush => (s.flush, none)

/-- The loop over what comes through the channel before it is closed. Of the writer, what has
reached the stream remains. -/
def pollWrite (s : State) : List WriterMessage → State × Ending
  | [] => (s, .channelClosed)
  | m :: ms =>
    match handle s m with
    | (t, none) => pollWrite t ms
    | (t, some ending) => (t, ending)

def before (ms : List WriterMessage) : List WriterMessage := ms.takeWhile (!·.isEnd)

/-- The last bytes sent before the end are flushed before it. -/
def Flushed (ms : List WriterMessage) : Prop :=
  (before ms).foldl WriterMessage.holdsBack false = false

structure Call where
  callback : ℕ
  sent : List UInt8
  data : List UInt8

def calls (sent : List UInt8) : List WriterMessage → List Call
  | [] => []
  | m :: ms => m.callback.toList.map (⟨·, sent, m.data⟩) ++ calls (sent ++ m.data) ms

/-- A callback that was run when everything up to the data of its message had reached the stream. -/
def Ran (ran : ℕ × List UInt8) (call : Call) : Prop :=
  ran.1 = call.callback ∧ (call.data ≠ [] → ran.2 = call.sent ++ call.data)

structure Took (s : State) (m : WriterMessage) (t : State) : Prop where
  sound : t.writer.Sound
  written : t.writer.written = s.writer.written ++ m.data
  called : t.called = s.called ++ m.callback.toList.map (·, t.writer.received)
  buffer : ∀ held, (held = false → s.writer.buffer = []) → m.holdsBack held = false →
    t.writer.buffer = []

theorem writeAll_written {w : BufWriter UInt8} (h : w.Sound) (data : List UInt8) :
    ∃ u, w.writeAll bufSize data = (u, true) ∧ u.Sound ∧ u.written = w.written ++ data := by
  obtain ⟨hok, hsound⟩ := BufWriter.writeAll_ok bufSize h data
  obtain ⟨lost, hlost, hnone⟩ := BufWriter.writeAll_written bufSize w data
  rw [hnone hok, List.append_nil] at hlost
  exact ⟨_, by rw [← hok], hsound, hlost⟩

theorem flush_buffer {w : BufWriter UInt8} (h : w.Sound) : w.flush.1.buffer = [] :=
  BufWriter.push_buffer (BufWriter.push_ok h _ _).1

theorem handle_took {s : State} {m : WriterMessage} (hs : s.writer.Sound)
    (hto : m.isSendTo = false) (hend : m.isEnd = false) :
    ∃ t, handle s m = (t, none) ∧ Took s m t := by
  cases m with
  | close => cases hend
  | closeDelayed => cases hend
  | sendTo => cases hto
  | flush =>
    refine ⟨s.flush, rfl, (BufWriter.flush_ok hs).1, ?_, ?_, fun _ _ _ ↦ flush_buffer hs⟩
    · simp [State.flush, BufWriter.flush_written, WriterMessage.data]
    · simp [State.flush, WriterMessage.callback]
  | send data flush =>
    by_cases hdata : data = []
    · subst hdata
      refine ⟨s, rfl, hs, (List.append_nil _).symm, (List.append_nil _).symm, ?_⟩
      exact fun held hheld hnot ↦ hheld hnot
    · obtain ⟨u, hu, husound, hwritten⟩ := writeAll_written hs data
      cases flush with
      | false =>
        refine ⟨{ s with writer := u }, by simp [handle, hdata, hu], husound, hwritten,
          (List.append_nil _).symm, fun held _ hnot ↦ ?_⟩
        simp [WriterMessage.holdsBack, hdata] at hnot
      | true =>
        refine ⟨({ s with writer := u } : State).flush, by simp [handle, hdata, hu],
          (BufWriter.flush_ok husound).1, ?_, (List.append_nil _).symm,
          fun _ _ _ ↦ flush_buffer husound⟩
        exact u.flush_written.trans hwritten
  | sendAndThen data callback =>
    by_cases hdata : data = []
    · subst hdata
      refine ⟨s.call callback, rfl, hs, (List.append_nil _).symm, rfl, ?_⟩
      exact fun held hheld hnot ↦ hheld hnot
    · obtain ⟨u, hu, husound, hwritten⟩ := writeAll_written hs data
      refine ⟨({ s with writer := u } : State).flush.call callback, by simp [handle, hdata, hu],
        (BufWriter.flush_ok husound).1, ?_, rfl, fun _ _ _ ↦ flush_buffer husound⟩
      exact u.flush_written.trans hwritten

theorem Took.received {s t : State} {m : WriterMessage} (h : Took s m t)
    (hm : m.holdsBack true = false) : t.writer.received = s.writer.written ++ m.data := by
  have hwritten := h.written
  rwa [BufWriter.written, h.buffer true (fun hfalse ↦ by cases hfalse) hm,
    List.append_nil] at hwritten

/-- The callback of a message is run when its data has reached the stream. -/
theorem Took.ran {s t : State} {m : WriterMessage} (h : Took s m t) :
    List.Forall₂ Ran (m.callback.toList.map (·, t.writer.received))
      (m.callback.toList.map (⟨·, s.writer.written, m.data⟩)) := by
  cases m with
  | sendAndThen data callback =>
    refine .cons ⟨rfl, fun hdata ↦ h.received ?_⟩ .nil
    exact if_neg hdata
  | close | closeDelayed | flush | send | sendTo => exact .nil

theorem handle_of_isEnd {m : WriterMessage} (h : m.isEnd = true) (s : State) :
    handle s m = (s, some .closed) := by
  cases m with
  | close | closeDelayed => rfl
  | flush | send | sendTo | sendAndThen => cases h

/-- What the rest of a run does, `held` being whether bytes may be held back at its start. -/
theorem pollWrite_spec {ms : List WriterMessage} (hto : ∀ m ∈ ms, m.isSendTo = false) (s : State)
    (hs : s.writer.Sound) (held : Bool) (hheld : held = false → s.writer.buffer = []) :
    (pollWrite s ms).2 = (if ms.any (·.isEnd) then .closed else .channelClosed) ∧
    (pollWrite s ms).1.writer.written = s.writer.written ++ (before ms).flatMap (·.data) ∧
    ((before ms).foldl WriterMessage.holdsBack held = false →
      (pollWrite s ms).1.writer.buffer = []) ∧
    ∃ called, (pollWrite s ms).1.called = s.called ++ called ∧
      List.Forall₂ Ran called (calls s.writer.written (before ms)) := by
  induction ms generalizing s held with
  | nil => exact ⟨rfl, (List.append_nil _).symm, hheld, [], (List.append_nil _).symm, .nil⟩
  | cons m ms ih =>
    cases hend : m.isEnd with
    | true =>
      have hbefore : before (m :: ms) = [] := by simp [before, hend]
      rw [hbefore, pollWrite, handle_of_isEnd hend, List.any_cons, hend]
      exact ⟨rfl, (List.append_nil _).symm, hheld, [], (List.append_nil _).symm, .nil⟩
    | false =>
      obtain ⟨t, ht, htook⟩ := handle_took hs (hto m List.mem_cons_self) hend
      obtain ⟨hending, hwritten, hbuffer, called, hcalled, hran⟩ :=
        ih (fun m' hm' ↦ hto m' (List.mem_cons_of_mem _ hm')) t htook.sound (m.holdsBack held)
          (htook.buffer held hheld)
      have hbefore : before (m :: ms) = m :: before ms := by simp [before, hend]
      rw [htook.written] at hwritten hran
      rw [htook.called] at hcalled
      rw [hbefore, pollWrite, ht, List.any_cons, hend, Bool.false_or]
      refine ⟨hending, ?_, hbuffer, _, ?_, List.rel_append htook.ran hran⟩
      · rw [hwritten, List.flatMap_cons, List.append_assoc]
      · rw [hcalled, List.append_assoc]

/-- What the server itself sends is flushed message by message, so that every frame reaches the
stream. -/
theorem bodies_are_received {answers : List Answer} (h : .fails ∉ answers) (bodies : List Body) :
    (pollWrite (.start answers) (bodies.map Body.writerMessage)).1.writer.received =
      bodies.flatMap fun body ↦ frame (Protocol.Json.toString body.message) := by
  have hbefore : before (bodies.map Body.writerMessage) = bodies.map Body.writerMessage := by
    rw [before, List.takeWhile_map]
    exact congrArg _ (List.takeWhile_eq_self_iff.2 fun _ _ ↦ rfl)
  have hto : ∀ m ∈ bodies.map Body.writerMessage, m.isSendTo = false := by
    rw [List.forall_mem_map]
    exact fun _ _ ↦ rfl
  have hholds (body : Body) : body.writerMessage.holdsBack false = false := by
    rw [Body.writerMessage, WriterMessage.holdsBack, Bool.not_true, ite_self]
  have hflushed : (bodies.map Body.writerMessage).foldl WriterMessage.holdsBack false = false := by
    rw [List.foldl_map]
    exact List.foldl_fixed' hholds bodies
  obtain ⟨_, hwritten, hbuffer, _⟩ := pollWrite_spec hto (.start answers) h false fun _ ↦ rfl
  rw [hbefore] at hwritten hbuffer
  rw [BufWriter.written, hbuffer hflushed, List.append_nil, List.flatMap_map] at hwritten
  exact hwritten

/-- A stream that takes its time finds bytes left wherever they may be. -/
theorem handle_slow {total : ℕ} {s t : State} {m : WriterMessage} (hs : s.writer.Slow total)
    (hroom : (s.writer.written ++ m.data).length ≤ total) (h : handle s m = (t, none)) :
    t.writer.Slow total ∧ ∀ held, (held = true → s.writer.buffer ≠ []) →
      m.holdsBack held = true → t.writer.buffer ≠ [] := by
  have hwrite {data : List UInt8} (hdata : data ≠ [])
      (hroom : (s.writer.written ++ data).length ≤ total) :
      ∃ u, s.writer.writeAll bufSize data = (u, true) ∧ u.Slow total ∧ u.buffer ≠ [] ∧
        u.flush.1.Slow total := by
    obtain ⟨u, hu, _, hwritten⟩ := writeAll_written hs.sound data
    obtain ⟨hslow, hbuffer⟩ := BufWriter.writeAll_slow (by decide : 2 ≤ bufSize) hs hdata hroom
    rw [hu] at hslow hbuffer
    exact ⟨u, hu, hslow, hbuffer, BufWriter.flush_slow hslow (hwritten ▸ hroom)⟩
  cases m with
  | close => cases h
  | closeDelayed => cases h
  | sendTo => cases h
  | flush =>
    cases h
    rw [WriterMessage.data, List.append_nil] at hroom
    exact ⟨BufWriter.flush_slow hs hroom, fun _ _ hholds ↦ by cases hholds⟩
  | send data flush =>
    by_cases hdata : data = []
    · subst hdata
      cases h
      exact ⟨hs, fun held hheld hholds ↦ hheld hholds⟩
    · obtain ⟨u, hu, hslow, hbuffer, hflush⟩ := hwrite hdata hroom
      cases flush with
      | false =>
        simp [handle, hdata, hu] at h
        subst h
        exact ⟨hslow, fun _ _ _ ↦ hbuffer⟩
      | true =>
        simp [handle, hdata, hu] at h
        subst h
        refine ⟨hflush, fun held _ hholds ↦ ?_⟩
        simp [WriterMessage.holdsBack, hdata] at hholds
  | sendAndThen data callback =>
    by_cases hdata : data = []
    · subst hdata
      cases h
      exact ⟨hs, fun held hheld hholds ↦ hheld hholds⟩
    · obtain ⟨u, hu, _, _, hflush⟩ := hwrite hdata hroom
      simp [handle, hdata, hu] at h
      subst h
      refine ⟨hflush, fun held _ hholds ↦ ?_⟩
      simp [WriterMessage.holdsBack, hdata] at hholds

theorem pollWrite_slow {total : ℕ} {ms : List WriterMessage}
    (hto : ∀ m ∈ ms, m.isSendTo = false) {s : State} (hs : s.writer.Slow total) {held : Bool}
    (hheld : held = true → s.writer.buffer ≠ [])
    (hroom : (s.writer.written ++ (before ms).flatMap (·.data)).length ≤ total)
    (hend : (before ms).foldl WriterMessage.holdsBack held = true) :
    (pollWrite s ms).1.writer.buffer ≠ [] := by
  induction ms generalizing s held with
  | nil => exact hheld hend
  | cons m ms ih =>
    cases hm : m.isEnd with
    | true =>
      have hbefore : before (m :: ms) = [] := by simp [before, hm]
      rw [hbefore] at hend
      rw [pollWrite, handle_of_isEnd hm]
      exact hheld hend
    | false =>
      have hbefore : before (m :: ms) = m :: before ms := by simp [before, hm]
      obtain ⟨t, ht, htook⟩ := handle_took hs.sound (hto m List.mem_cons_self) hm
      rw [hbefore, List.flatMap_cons, ← List.append_assoc] at hroom
      rw [hbefore, List.foldl_cons] at hend
      have hone : (s.writer.written ++ m.data).length ≤ total := by
        rw [List.length_append] at hroom
        omega
      obtain ⟨hslow, hbuffer⟩ := handle_slow hs hone ht
      rw [pollWrite, ht]
      exact ih (fun m' hm' ↦ hto m' (List.mem_cons_of_mem _ hm')) hslow (hbuffer held hheld)
        (htook.written ▸ hroom) hend

/-- What is not flushed is lost to some stream, even without a failure. -/
theorem flushed_of_received {ms : List WriterMessage} (hto : ∀ m ∈ ms, m.isSendTo = false)
    (h : ∀ answers, .fails ∉ answers →
      (pollWrite (.start answers) ms).1.writer.received = (before ms).flatMap (·.data)) :
    Flushed ms := by
  by_contra hheld
  let total := ((before ms).flatMap (·.data)).length
  have hslow : (State.start (List.replicate total (.takes 0))).writer.Slow total :=
    ⟨total, rfl, Nat.le_add_left _ _⟩
  have hbuffer := pollWrite_slow hto hslow (fun hfalse ↦ by cases hfalse) le_rfl
    (Bool.eq_true_of_not_eq_false hheld)
  obtain ⟨_, hwritten, _⟩ := pollWrite_spec hto _ hslow.sound false fun _ ↦ rfl
  rw [BufWriter.written, h (List.replicate total (.takes 0)) hslow.sound] at hwritten
  exact hbuffer (List.append_cancel_left (hwritten.trans (List.append_nil _).symm))

/-- On a stream without errors the loop ends where it should, and each callback is run once, after
the data of its message. All data reaches every such stream, whole and in order, just if it is
flushed before the end. -/
theorem stream_receives_flushed {ms : List WriterMessage} (hto : ∀ m ∈ ms, m.isSendTo = false) :
    (∀ answers, .fails ∉ answers →
      (pollWrite (.start answers) ms).2 =
        (if ms.any (·.isEnd) then .closed else .channelClosed) ∧
      List.Forall₂ Ran (pollWrite (.start answers) ms).1.called (calls [] (before ms))) ∧
    ((∀ answers, .fails ∉ answers →
      (pollWrite (.start answers) ms).1.writer.received = (before ms).flatMap (·.data)) ↔
        Flushed ms) := by
  refine ⟨fun answers hanswers ↦ ?_, flushed_of_received hto, fun hflushed answers hanswers ↦ ?_⟩
  · obtain ⟨hending, -, -, called, hcalled, hran⟩ :=
      pollWrite_spec hto (.start answers) hanswers false fun _ ↦ rfl
    refine ⟨hending, ?_⟩
    rw [hcalled]
    exact hran
  · obtain ⟨-, hwritten, hbuffer, -⟩ :=
      pollWrite_spec hto (.start answers) hanswers false fun _ ↦ rfl
    rwa [BufWriter.written, hbuffer hflushed, List.append_nil] at hwritten

/-- Messages with and without a flush, on a stream that takes the first byte alone. -/
theorem flushed_messages_are_received :
    (pollWrite (.start [.takes 0]) [.send [1] false, .sendAndThen [2, 3] 7, .send [4] false, .flush,
      .close, .send [5] true]).1.writer.received = [1, 2, 3, 4] ∧
    List.Forall₂ Ran
      (pollWrite (.start [.takes 0]) [.send [1] false, .sendAndThen [2, 3] 7, .send [4] false,
        .flush, .close, .send [5] true]).1.called [⟨7, [1], [2, 3]⟩] := by
  have hto : ∀ m ∈ [WriterMessage.send [1] false, .sendAndThen [2, 3] 7, .send [4] false, .flush,
      .close, .send [5] true], m.isSendTo = false := by decide
  have hanswers : Answer.fails ∉ [Answer.takes 0] := by decide
  obtain ⟨hran, hreceived⟩ := stream_receives_flushed hto
  exact ⟨hreceived.2 rfl _ hanswers, (hran _ hanswers).2⟩

/-- Data sent without a flush is still in the buffer when the writer is dropped. -/
theorem unflushed_data_is_lost :
    pollWrite (.start []) [.send [1] false, .close] = (⟨⟨[], [1], []⟩, []⟩, .closed) ∧
      (before [.send [1] false, .close]).flatMap (·.data) = [1] := by
  decide

end PollWrite

end MusicRemote.Server
