import MusicRemote.App.KeyEvents
import MusicRemote.Control.Taken
import MusicRemote.Server.Stream

namespace MusicRemote.Remote

open Foundation Foundation.Transition Protocol Protocol.Json Protocol.RoundTrip Function
open Control (Routing.State Routing.Action Submission)
open App (System SystemAction Gson)

/-- What the parties are given: the server's code, how the texts are read, and whom a session of the
server is with, a connection of the control or one of a phone. -/
structure Setting where
  gson : Gson
  code : String
  page : Control.Service.Env
  owner : ℕ → Option (ℕ × ℤ)
  line : ℕ → Option ℕ

/-- The control, and the server with the phones. Counted are, for a session with the control, the
bytes that the server has read and the frames that have come back. -/
structure State where
  control : Routing.State
  field : System
  read : ℕ → ℕ
  heard : ℕ → ℕ

def State.start (audioManager : ℕ → Bool) : State :=
  ⟨.init, .start audioManager, fun _ ↦ 0, fun _ ↦ 0⟩

inductive Action
  | control (a : Routing.Action)
  | field (a : SystemAction)
  | read (u n : ℕ)
  | hear (u : ℕ)

/-- What the control receives comes from the server. -/
def isReceipt : Routing.Action → Bool
  | .service (.onRecvMessage _ _) | .writer _ (.onRecvPing _) => true
  | _ => false

/-- What a session with the control reads comes from the control. -/
def isRead (line : ℕ → Option ℕ) : SystemAction → Bool
  | .server (.readBuf u _) => (line u).isSome
  | _ => false

def receipt (i : ℕ) : Server.Body → Routing.Action
  | .ping ping => .writer i (.onRecvPing ping)
  | .pong pong => .service (.onRecvMessage i (messageOf pong))
  | .push push => .service (.onRecvMessage i (messageOf push))
  | .response response => .service (.onRecvMessage i (messageOf response))

def State.unread (s : State) (u i : ℕ) : List UInt8 :=
  (s.control.writers i).socket.drop (s.read u)

/-- The server reads the next bytes of a connection, or its end; the control reads the next frame
of a session, as long as it is below the limit. -/
def step (c : Setting) (s : State) : Action → Option State
  | .control a =>
    if isReceipt a then none
    else (Control.Routing.step c.page s.control a).map fun control ↦ { s with control := control }
  | .field a =>
    if isRead c.line a then none
    else (System.step c.gson (Server.serde c.code) c.owner s.field a).map fun field ↦
      { s with field := field }
  | .read u n =>
    (c.line u).bind fun i ↦
      if (s.unread u i).take n ≠ [] ∨
          s.unread u i = [] ∧ (s.control.writers i).isOver = true then
        (System.step c.gson (Server.serde c.code) c.owner s.field
          (.server (.readBuf u ((s.unread u i).take n)))).map fun field ↦ { s with
            field := field
            read := update s.read u (s.read u + ((s.unread u i).take n).length) }
      else none
  | .hear u =>
    (c.line u).bind fun i ↦ (s.field.server.session u).written[s.heard u]?.bind fun e ↦
      if (payload e.body.message).length < 2 ^ 21 then
        (Control.Routing.step c.page s.control (receipt i e.body)).map fun control ↦ { s with
          control := control
          heard := update s.heard u (s.heard u + 1) }
      else none

def Setting.controlLabel (c : Setting) (s : State) : Action → Option Routing.Action
  | .control a => some a
  | .field _ | .read _ _ => none
  | .hear u => (c.line u).bind fun i ↦
    (s.field.server.session u).written[s.heard u]?.map fun e ↦ receipt i e.body

def Setting.fieldLabel (c : Setting) (s : State) : Action → Option SystemAction
  | .field a => some a
  | .control _ | .hear _ => none
  | .read u n => (c.line u).map fun i ↦ .server (.readBuf u ((s.unread u i).take n))

def Paged (s : State) : Action → Prop
  | .control a => Control.Routing.Paged s.control a
  | .field _ | .read _ _ | .hear _ => True

instance (s : State) (a : Action) : Decidable (Paged s a) := by
  unfold Paged
  split <;> infer_instance

def Action.presses : Action → List SendControlMediaKeyEventRequest
  | .control (.service a) => a.presses
  | .control (.writer _ _) | .field _ | .read _ _ | .hear _ => []

section

variable {c : Setting} {audioManager : ℕ → Bool} {ok : State → Action → Prop} {s t : State}
  {a : Action} {as : List Action}

theorem control_shown (h : step c s a = some t) :
    Shown (Control.Routing.step c.page) s.control (c.controlLabel s a) t.control := by
  cases a with
  | control a =>
    simp only [step, Option.ite_none_left_eq_some, Option.map_eq_some_iff] at h
    obtain ⟨-, control, hcontrol, rfl⟩ := h
    exact hcontrol
  | field a =>
    simp only [step, Option.ite_none_left_eq_some, Option.map_eq_some_iff] at h
    obtain ⟨-, field, -, rfl⟩ := h
    rfl
  | read u n =>
    simp only [step, Option.bind_eq_some_iff, Option.ite_none_right_eq_some,
      Option.map_eq_some_iff] at h
    obtain ⟨i, -, -, field, -, rfl⟩ := h
    rfl
  | hear u =>
    simp only [step, Option.bind_eq_some_iff, Option.ite_none_right_eq_some,
      Option.map_eq_some_iff] at h
    obtain ⟨i, hi, e, he, -, control, hcontrol, rfl⟩ := h
    simp only [Setting.controlLabel, hi, he, Option.bind_some, Option.map_some]
    exact hcontrol

theorem field_shown (h : step c s a = some t) :
    Shown (System.step c.gson (Server.serde c.code) c.owner) s.field (c.fieldLabel s a)
      t.field := by
  cases a with
  | control a =>
    simp only [step, Option.ite_none_left_eq_some, Option.map_eq_some_iff] at h
    obtain ⟨-, control, -, rfl⟩ := h
    rfl
  | field a =>
    simp only [step, Option.ite_none_left_eq_some, Option.map_eq_some_iff] at h
    obtain ⟨-, field, hfield, rfl⟩ := h
    exact hfield
  | read u n =>
    simp only [step, Option.bind_eq_some_iff, Option.ite_none_right_eq_some,
      Option.map_eq_some_iff] at h
    obtain ⟨i, hi, -, field, hfield, rfl⟩ := h
    simp only [Setting.fieldLabel, hi, Option.map_some]
    exact hfield
  | hear u =>
    simp only [step, Option.bind_eq_some_iff, Option.ite_none_right_eq_some,
      Option.map_eq_some_iff] at h
    obtain ⟨i, -, e, -, -, control, -, rfl⟩ := h
    rfl

theorem field_of_run (h : Run (step c) ok (.start audioManager) as s) :
    Run (System.step c.gson (Server.serde c.code) c.owner) Any (.start audioManager)
      (traced (step c) c.fieldLabel (.start audioManager) as) s.field :=
  h.simulate State.field c.fieldLabel fun _ _ _ _ _ _ hv ↦ field_shown hv

theorem paged_receipt (control : Routing.State) (i : ℕ) (body : Server.Body) :
    Control.Routing.Paged control (receipt i body) := by
  cases body <;> trivial

theorem control_of_run (h : Run (step c) Paged (.start audioManager) as s) :
    Run (Control.Routing.step c.page) Control.Routing.Paged .init
      (traced (step c) c.controlLabel (.start audioManager) as) s.control := by
  refine h.simulate_ok State.control c.controlLabel fun _ u a v _ ha hv ↦
    ⟨control_shown hv, fun b hb ↦ ?_⟩
  cases a with
  | control a =>
    cases hb
    exact ha
  | field | read => cases hb
  | hear w =>
    simp only [Setting.controlLabel, Option.bind_eq_some_iff, Option.map_eq_some_iff] at hb
    obtain ⟨i, -, e, -, rfl⟩ := hb
    exact paged_receipt u.control i e.body

/-- The clicks of the control's user are those of the whole run. -/
theorem presses_of_run (h : Run (step c) ok s as t) :
    ((traced (step c) c.controlLabel s as).filterMap Control.Routing.Action.service?).flatMap
      Control.Service.Action.presses = as.flatMap Action.presses := by
  induction h with
  | nil => rfl
  | @cons s t _ a as _ hstep _ ih =>
    have hone : ((c.controlLabel s a).toList.filterMap
        Control.Routing.Action.service?).flatMap Control.Service.Action.presses = a.presses := by
      cases a with
      | control a =>
        cases a with
        | service a => exact List.flatMap_singleton ..
        | writer => rfl
      | field | read => rfl
      | hear u =>
        cases hl : c.controlLabel s (.hear u) with
        | none => rfl
        | some b =>
          simp only [Setting.controlLabel, Option.bind_eq_some_iff, Option.map_eq_some_iff] at hl
          obtain ⟨i, -, e, -, rfl⟩ := hl
          cases e.body <;> rfl
    rw [traced, hstep, Option.elim_some, List.filterMap_append, List.flatMap_append, hone, ih]
    rfl

end

end MusicRemote.Remote
