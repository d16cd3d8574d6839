import MusicRemote.App.Pressed
import MusicRemote.Remote.Upstream

namespace MusicRemote.Remote

open Foundation.Transition Protocol Protocol.Json
open Control (Submission Writers.text Writers.task)

section

variable {c : Setting} {audioManager : ℕ → Bool} {ok : State → Action → Prop} {s : State}
  {as : List Action} {u i : ℕ}

/-- Requests go over a connection only as messages of the page. -/
theorem filter_request (xs : List Submission) :
    (xs.map Submission.message).filter (·.name = "SendControlMediaKeyEventRequest") =
      ((xs.filter (Writers.task · = .pollWrite)).map Submission.message).filter
        (·.name = "SendControlMediaKeyEventRequest") := by
  induction xs with
  | nil => rfl
  | cons x xs ih =>
    have hskip (htask : Writers.task x ≠ .pollWrite)
        (hname : x.message.name ≠ "SendControlMediaKeyEventRequest") :
        ((x :: xs).map Submission.message).filter (·.name = "SendControlMediaKeyEventRequest") =
          (((x :: xs).filter (Writers.task · = .pollWrite)).map Submission.message).filter
            (·.name = "SendControlMediaKeyEventRequest") := by
      rw [List.filter_cons_of_neg (by simpa using htask), List.map_cons,
        List.filter_cons_of_neg (by simpa using hname), ih]
    cases x with
    | forward message =>
      rw [List.filter_cons_of_pos (by rfl), List.map_cons, List.map_cons, List.filter_cons,
        List.filter_cons, ih]
    | pong pong =>
      refine hskip (by simp [Writers.task]) ?_
      change "Pong" ≠ "SendControlMediaKeyEventRequest"
      decide
    | ping ping =>
      refine hskip (by simp [Writers.task]) ?_
      change "Ping" ≠ "SendControlMediaKeyEventRequest"
      decide

/-- What a connection has begun to write for the page are the first of the messages taken for it. -/
theorem forwarded_isPrefix (h : Run (step c) ok (.start audioManager) as s) (i : ℕ) :
    ((s.control.writers i).begun.filter (Writers.task · = .pollWrite)).map Submission.message <+:
      s.control.taken (i + 1) := by
  have hbehind := (List.prefix_append _ _).trans ((routed_of_run h).behind i)
  have hmap := hbehind.map Submission.message
  have hid : ((s.control.taken (i + 1)).map Submission.forward).map Submission.message =
      s.control.taken (i + 1) := by
    rw [List.map_map]
    exact List.map_id _
  rwa [hid] at hmap

theorem eq_of_messages {pairs : List (Message × SendControlMediaKeyEventRequest)}
    {requests : List SendControlMediaKeyEventRequest}
    (h : pairs.map Prod.fst = requests.map messageOf)
    (hread : ∀ x ∈ pairs, fromStr x.1.data = some x.2) : pairs.map Prod.snd = requests := by
  induction pairs generalizing requests with
  | nil => exact (List.map_eq_nil_iff.1 h.symm).symm
  | cons x pairs ih =>
    cases requests with
    | nil => cases h
    | cons request requests =>
      obtain ⟨hx, hrest⟩ := List.cons.inj h
      have hfirst := hread x List.mem_cons_self
      have hdata : (messageOf request).data = Json.toString request := rfl
      rw [hx, hdata, fromStr_request, Option.some.injEq] at hfirst
      rw [List.map_cons, ← hfirst, ih hrest fun y hy ↦ hread y (List.mem_cons_of_mem x hy)]

end

/-- What a phone dispatches from one of its sessions for a connection of the control are the key
events of requests that the loop took for that connection, in the order of the taking; all of them
have the server's code and the token that the phone had, and each was clicked as often at least. -/
theorem key_events_come_from_clicks {c : Setting} {audioManager : ℕ → Bool} {as : List Action}
    {s : State} (he : c.page.Reads) (h : Run (step c) Paged (.start audioManager) as s) {u i : ℕ}
    (hu : c.line u = some i)
    (hlength : ∀ x ∈ (s.control.writers i).begun, (Writers.text x).length < 2 ^ 32) (p v : ℕ) :
    ∃ presses : List SendControlMediaKeyEventRequest,
      (s.field.phone p).pressed v u =
        presses.map (fun request ↦ (some request.token, App.keyEventOf request)) ∧
      (∀ request ∈ presses, request.authorizationCode = c.code) ∧
      (presses.map messageOf).Sublist (s.control.taken (i + 1)) ∧
      presses.Subperm (as.flatMap Action.presses) := by
  obtain ⟨pairs, hpressed, hreceived, hpairs⟩ := App.pressed_of_run (field_of_run h) p v u
  have hbegun := hreceived.trans (received_isPrefix h hu hlength).sublist
  have hrequests : (pairs.map Prod.fst).Sublist (s.control.taken (i + 1)) := by
    have hfilter := hbegun.filter (·.name = "SendControlMediaKeyEventRequest")
    have hall : (pairs.map Prod.fst).filter (·.name = "SendControlMediaKeyEventRequest") =
        pairs.map Prod.fst := by
      rw [List.filter_eq_self]
      exact List.forall_mem_map.2 fun x hx ↦ decide_eq_true (hpairs x hx).1
    rw [hall, filter_request] at hfilter
    exact hfilter.trans (List.filter_sublist.trans (forwarded_isPrefix h i).sublist)
  obtain ⟨requests, htaken, hclicked⟩ :=
    Control.Routing.taken_subperm he (control_of_run h) (i + 1)
  rw [presses_of_run h] at hclicked
  have hmessages := hrequests
  rw [htaken, List.sublist_map_iff] at hmessages
  obtain ⟨presses, hsub, heq⟩ := hmessages
  obtain rfl := eq_of_messages heq fun x hx ↦ (hpairs x hx).2.1
  refine ⟨pairs.map Prod.snd, ?_, List.forall_mem_map.2 fun x hx ↦ (hpairs x hx).2.2,
    heq ▸ hrequests, hsub.subperm.trans hclicked⟩
  rw [hpressed, List.map_map]
  rfl

def played : SendControlMediaKeyEventRequest := ⟨0, 126, "t", "x"⟩

def clicking : List Action :=
  List.flatten [Control.Service.connection.map fun a ↦ .control (.service a),
    [.control (.service (.control .play "t" "x")), .control (.service (.js2rs 1)),
      .control (.service .recv), .control (.service .advance),
      .control (.service (.pollWrite 0)), .control (.writer 0 (.lock .pollWrite)),
      .control (.writer 0 (.write 128)), .control (.writer 0 .unlock)]]

def relaying : List Action :=
  List.flatten [App.connecting.map fun a ↦ .field (.phone 0 a),
    [.field (.server .spawn), .field (.server (.start 0)), .field (.server .spawn),
      .field (.server (.start 1)), .read 0 128, .field (.server (.recvFrame 0)),
      .field (.server (.recvMessage 0)),
      .field (.server (.lock 0 [⟨2, 1, 2⟩, ⟨1, 0, 1⟩])), .field (.server (.push 0)),
      .field (.server (.push 0)), .field (.server (.respond 0)), .field (.server (.write 1 true)),
      .field (.deliver 1), .field (.phone 0 (.app .network)),
      .field (.phone 0 (.app .network)), .field (.server (.recvFrame 0)),
      .field (.server (.write 0 true)), .hear 0]]

theorem run_relaying : ∃ s,
    Run (step living) Paged (.start fun _ ↦ true) (clicking ++ relaying) s ∧
      (s.field.phone 0).pressed 1 0 = [(some "t", ⟨0, 126⟩)] ∧
      (s.control.writers 0).begun = [.forward (messageOf played)] ∧
      s.heard 0 = 1 ∧
      (s.field.server.session 0).written = [Server.envelope Server.granted (.message 0 0)] :=
  Run.exists_of_execute (by decide +kernel)

theorem length_played : ∀ x ∈ [Submission.forward (messageOf played)],
    (Writers.text x).length < 2 ^ 32 := by
  intro x hx
  rw [List.mem_singleton.1 hx]
  change (asBytes (Json.toString (messageOf played))).length < 2 ^ 32
  rw [length_toString_message]
  decide +kernel

theorem click_makes_the_phone_play : ∃ s,
    Run (step living) Paged (.start fun _ ↦ true) (clicking ++ relaying) s ∧
      (s.field.phone 0).pressed 1 0 = [(some "t", ⟨0, 126⟩)] ∧
      ∃ presses : List SendControlMediaKeyEventRequest,
        [(some "t", ⟨0, 126⟩)] =
          presses.map (fun request ↦ (some request.token, App.keyEventOf request)) ∧
        presses.Subperm ((clicking ++ relaying).flatMap Action.presses) := by
  obtain ⟨s, hs, hpressed, hbegun, -⟩ := run_relaying
  have hline : living.line 0 = some 0 := rfl
  obtain ⟨presses, heq, -, -, hclicked⟩ :=
    key_events_come_from_clicks .pageEnv hs hline (hbegun ▸ length_played) 0 1
  rw [hpressed] at heq
  exact ⟨s, hs, hpressed, presses, heq, hclicked⟩

end MusicRemote.Remote
