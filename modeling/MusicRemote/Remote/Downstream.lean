import MusicRemote.Control.OneLogin
import MusicRemote.Remote.Presses
import MusicRemote.Server.Replies

namespace MusicRemote.Remote

open Foundation.Transition Protocol Protocol.Json
open Control (Submission Writers.text Routing.Action)

def responseTo (code : String) (request : SendControlMediaKeyEventRequest) :
    SendControlMediaKeyEventResponse :=
  if code = request.authorizationCode then ⟨true, ""⟩ else ⟨false, "no permission"⟩

def responseOf : Server.Body → Option SendControlMediaKeyEventResponse
  | .response response => some response
  | .ping _ | .pong _ | .push _ => none

def response (code : String) (m : Message) : Option SendControlMediaKeyEventResponse :=
  (Server.replyTo (Server.serde code) m).bind responseOf

def State.responses (s : State) (u : ℕ) : List SendControlMediaKeyEventResponse :=
  ((s.field.server.session u).written.take (s.heard u)).filterMap fun e ↦ responseOf e.body

/-- As in the control by itself, but what its tasks receive is left to the server. -/
def OneLogin (s : State) : Action → Prop
  | .control (.service a) => Control.Service.Paged s.control.service a ∧
      (a.isLogin = true → s.control.service.serviceStatus = .disconnected)
  | .control (.writer _ _) | .field _ | .read _ _ | .hear _ => True

instance (s : State) : DecidablePred (OneLogin s)
  | .control (.service a) => inferInstanceAs (Decidable (_ ∧ (a.isLogin = true → _)))
  | .control (.writer _ _) | .field _ | .read _ _ | .hear _ => .isTrue trivial

section

variable {c : Setting} {audioManager : ℕ → Bool} {ok : State → Action → Prop} {s t : State}
  {a : Action} {as : List Action} {u i : ℕ}

theorem filterMap_replies (es : List Server.Envelope) :
    (Server.replies es).filterMap responseOf = es.filterMap fun e ↦ responseOf e.body := by
  rw [Server.replies, List.filterMap_filter, List.filterMap_map]
  refine List.filterMap_congr fun e _ ↦ ?_
  cases h : e.body <;> simp [Server.Body.isReply, responseOf, h]

/-- Only a request is responded to. -/
theorem response_eq_none {code : String} {m : Message}
    (h : m.name ≠ "SendControlMediaKeyEventRequest") : response code m = none := by
  unfold response Server.replyTo Server.verdict
  split_ifs with hping hpong
  · cases (Server.serde code).readPing m.data <;> rfl
  · rfl
  · rfl

theorem response_messageOf (code : String) (request : SendControlMediaKeyEventRequest) :
    response code (messageOf request) = some (responseTo code request) := by
  have hread : (Server.serde code).readRequest (messageOf request).data = some request :=
    fromStr_request request
  by_cases hcode : code = request.authorizationCode
  · rw [response, Server.replyTo, Server.verdict_permits rfl hread hcode.symm, responseTo,
      if_pos hcode]
    rfl
  · rw [response, Server.replyTo, Server.verdict_eq_refuse rfl hread (Ne.symm hcode), responseTo,
      if_neg hcode]
    rfl

/-- Among what a connection has begun to write, only the requests of the page are responded to. -/
theorem filterMap_begun (code : String) (xs : List Submission) :
    (xs.map Submission.message).filterMap (response code) =
      ((xs.filter (Control.Writers.task · = .pollWrite)).map Submission.message).filterMap
        (response code) := by
  have hfilter (ms : List Message) : ms.filterMap (response code) =
      (ms.filter (·.name = "SendControlMediaKeyEventRequest")).filterMap (response code) := by
    rw [List.filterMap_filter]
    refine List.filterMap_congr fun m _ ↦ ?_
    by_cases hm : m.name = "SendControlMediaKeyEventRequest"
    · simp [hm]
    · simp [hm, response_eq_none]
  rw [hfilter, filter_request, ← hfilter]

theorem responses_isPrefix (h : Run (step c) ok (.start audioManager) as s) (hu : c.line u = some i)
    (hlength : ∀ x ∈ (s.control.writers i).begun, (Writers.text x).length < 2 ^ 32) :
    s.responses u <+: (s.control.taken (i + 1)).filterMap (response c.code) := by
  have hheard : s.responses u <+: (Server.replies (s.field.server.session u).written).filterMap
      responseOf := by
    rw [filterMap_replies]
    exact (List.take_prefix _ _).filterMap _
  have hreplies := (Server.replies_isPrefix (server_of_run h) u).filterMap responseOf
  have hreceived := (received_isPrefix h hu hlength).filterMap (response c.code)
  rw [List.filterMap_filterMap] at hreplies
  rw [filterMap_begun] at hreceived
  exact hheard.trans (hreplies.trans (hreceived.trans ((forwarded_isPrefix h i).filterMap _)))

/-- The server sends none of the messages that the service makes up for the page. -/
theorem oneLogin_receipt (service : Control.Service.State) {i : ℕ} {body : Server.Body}
    {b : Control.Service.Action} (h : (receipt i body).service? = some b) :
    Control.Service.OneLogin service b := by
  have hname : Control.Service.isLocalName body.message.name = false := by
    cases body with
    | ping => exact (by decide : Control.Service.isLocalName "Ping" = false)
    | pong => exact (by decide : Control.Service.isLocalName "Pong" = false)
    | push => exact (by decide : Control.Service.isLocalName "PushMediaKeyEvent" = false)
    | response =>
      exact (by decide : Control.Service.isLocalName "SendControlMediaKeyEventResponse" = false)
  cases body with
  | ping => cases h
  | pong | push | response =>
    cases h
    exact ⟨trivial, hname, fun hlogin ↦ by cases hlogin⟩

theorem service_of_run (h : Run (step c) OneLogin (.start audioManager) as s) :
    ∃ bs, Run (Control.Service.step c.page) Control.Service.OneLogin .init bs
      s.control.service := by
  refine ⟨_, h.simulate_ok (fun s ↦ s.control.service)
    (fun s a ↦ (c.controlLabel s a).bind Routing.Action.service?) fun _ u a v _ ha hv ↦
      ⟨Control.Routing.service_shown (control_shown hv), fun b hb ↦ ?_⟩⟩
  cases a with
  | control a =>
    cases a with
    | service a =>
      cases hb
      simp only [step, Option.ite_none_left_eq_some] at hv
      refine ⟨ha.1, ?_, ha.2⟩
      cases b with
      | onRecvMessage => exact absurd rfl hv.1
      | _ => rfl
    | writer => cases hb
  | field | read => cases hb
  | hear w =>
    simp only [Setting.controlLabel, Option.bind_eq_some_iff, Option.map_eq_some_iff] at hb
    obtain ⟨_, ⟨i, -, e, -, rfl⟩, hb⟩ := hb
    exact oneLogin_receipt u.control.service hb

end

/-- The responses that come back on a connection are those to the requests that the loop took for
it, one after the other: the next one is always about the request that has waited longest. -/
theorem responses_follow_the_requests {c : Setting} {audioManager : ℕ → Bool} {as : List Action}
    {s : State} (he : c.page.Reads) (h : Run (step c) Paged (.start audioManager) as s) {u i : ℕ}
    (hu : c.line u = some i)
    (hlength : ∀ x ∈ (s.control.writers i).begun, (Writers.text x).length < 2 ^ 32) :
    ∃ requests : List SendControlMediaKeyEventRequest,
      s.control.taken (i + 1) = requests.map messageOf ∧
      s.responses u <+: requests.map (responseTo c.code) := by
  obtain ⟨requests, htaken, -⟩ := Control.Routing.taken_subperm he (control_of_run h) (i + 1)
  have hprefix := responses_isPrefix h hu hlength
  refine ⟨requests, htaken, ?_⟩
  rw [htaken, List.filterMap_map] at hprefix
  simpa only [Function.comp_def, response_messageOf, List.filterMap_eq_map'] using hprefix

theorem click_is_responded_to : ∃ s,
    Run (step living) Paged (.start fun _ ↦ true) (clicking ++ relaying) s ∧
      s.responses 0 = [⟨true, ""⟩] ∧ ∃ requests : List SendControlMediaKeyEventRequest,
        s.control.taken 1 = requests.map messageOf ∧
          [⟨true, ""⟩] <+: requests.map (responseTo "x") := by
  obtain ⟨s, hs, -, hbegun, hheard, hwritten⟩ := run_relaying
  have hresponses : s.responses 0 = [⟨true, ""⟩] := by
    rw [State.responses, hheard, hwritten]
    rfl
  have hline : living.line 0 = some 0 := rfl
  obtain ⟨requests, htaken, hprefix⟩ :=
    responses_follow_the_requests .pageEnv hs hline (hbegun ▸ length_played)
  exact ⟨s, hs, hresponses, requests, htaken, hresponses ▸ hprefix⟩

/-- In the whole system, with one login at a time, the page shows that it is disconnected only when
the service is and all of its tasks have finished; and whenever everything in the control has
settled, it shows `Connected` exactly when the service is, whatever the server has sent. -/
theorem page_agrees_in_the_system {c : Setting} {audioManager : ℕ → Bool} {as : List Action}
    {s : State} (hl : c.page.Lawful) (he : c.page.Reads)
    (h : Run (step c) OneLogin (.start audioManager) as s) :
    (s.control.service.serviceStatus = .disconnected →
      s.control.service.status = .disconnected ∧
        ∀ client ∈ s.control.service.clients, client.phase = .finished) ∧
      (s.control.service.Quiescent → (s.control.service.serviceStatus = .connected ↔
        s.control.service.status = .connected)) := by
  obtain ⟨bs, hbs⟩ := service_of_run h
  have hcycle := Control.Service.inCycle_of_run hl he hbs
  refine ⟨fun hpage ↦ ?_, hcycle.agrees⟩
  obtain ⟨hstatus, hfinished, -⟩ := hcycle.of_disconnected hpage
  exact ⟨hstatus, hfinished⟩

def ponging : List Action :=
  pinging ++ [.field (.server (.recvMessage 0)), .field (.server (.recvFrame 0)),
    .field (.server (.write 0 true)), .hear 0, .control (.service .rs2js),
    .control (.service .listen)]

theorem page_agrees_after_a_pong : ∃ s,
    Run (step living) OneLogin (.start fun _ ↦ true) ponging s ∧ s.heard 0 = 1 ∧
      s.control.service.status = .connected ∧ s.control.service.serviceStatus = .connected := by
  have hrun : ∃ s, Run (step living) OneLogin (.start fun _ ↦ true) ponging s ∧
      (s.heard 0 = 1 ∧ s.control.service.status = .connected ∧
        s.control.service.loop = .waiting ∧ s.control.service.fromJs = [] ∧
        (∀ client ∈ s.control.service.clients, client.phase.isLeaving = false) ∧
        s.control.service.toJs = [] ∧ s.control.service.events = []) :=
    Run.exists_of_execute (by decide +kernel)
  obtain ⟨s, hs, hheard, hstatus, hloop, hfrom, hclients, hto, hevents⟩ := hrun
  have hagree := (page_agrees_in_the_system .pageEnv .pageEnv hs).2
    ⟨hloop, hfrom, hclients, hto, hevents⟩
  exact ⟨s, hs, hheard, hstatus, hagree.2 hstatus⟩

end MusicRemote.Remote
