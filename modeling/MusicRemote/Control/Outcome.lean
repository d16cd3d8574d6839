import MusicRemote.Control.Status

namespace MusicRemote.Control.Service

open Protocol Protocol.Json

/-- Everything that a step of the service or of the page can come to. -/
inductive Outcome (env : Env) (s : State) : Action → State → Prop
  | login {serverAdress : String} : s.serviceStatus ≠ .connected →
      Outcome env s (.login serverAdress) { s with
        serviceStatus := .connecting
        handlers := s.handlers ++ [[sendMessageToRust (⟨serverAdress⟩ : ConnectRequest)]] }
  | control {button : Button} {clientToken authorizationCode : String} :
      s.serviceStatus = .connected →
      Outcome env s (.control button clientToken authorizationCode) { s with
        handlers := s.handlers ++
          [[sendMessageToRust (⟨0, button.code, clientToken, authorizationCode⟩ :
              SendControlMediaKeyEventRequest),
            sendMessageToRust (⟨1, button.code, clientToken, authorizationCode⟩ :
              SendControlMediaKeyEventRequest)]] }
  | invoke {message : String} :
      Outcome env s (.invoke message) { s with handlers := s.handlers ++ [[message]] }
  | submit {i : ℕ} {message : String} {rest : List String} : s.loop ≠ .failed →
      s.handlers[i]? = some (message :: rest) →
      Outcome env s (.js2rs i) { s with
        fromJs := s.fromJs ++ [message], handlers := s.handlers.set i rest }
  | turnAway {i : ℕ} {message : String} {rest : List String} : s.loop = .failed →
      s.handlers[i]? = some (message :: rest) →
      Outcome env s (.js2rs i) { s with handlers := s.handlers.set i [] }
  | misread {input : String} {fromJs : List String} : s.loop = .waiting →
      s.fromJs = input :: fromJs → env.readMessage input = none →
      Outcome env s .recv { s with fromJs := fromJs, loop := .failed }
  | request {input : String} {fromJs : List String} {message : Message} : s.loop = .waiting →
      s.fromJs = input :: fromJs → env.readMessage input = some message →
      message.name = "ConnectRequest" →
      Outcome env s .recv { s with fromJs := fromJs, loop := .examining message }
  | other {input : String} {fromJs : List String} {message : Message} : s.loop = .waiting →
      s.fromJs = input :: fromJs → env.readMessage input = some message →
      message.name ≠ "ConnectRequest" →
      Outcome env s .recv { s with fromJs := fromJs, loop := .forwarding message }
  | confirm {message : Message} : s.loop = .examining message → s.status = .connected →
      Outcome env s .advance { s with loop := .replying }
  | ignore {message : Message} : s.loop = .examining message → s.status = .connecting →
      Outcome env s .advance { s with loop := .waiting }
  | reject {message : Message} : s.loop = .examining message → s.status = .disconnected →
      env.readConnectRequest message.data = none →
      Outcome env s .advance { s with loop := .failed }
  | accept {message : Message} {request : ConnectRequest} : s.loop = .examining message →
      s.status = .disconnected → env.readConnectRequest message.data = some request →
      Outcome env s .advance { s with loop := .starting request }
  | reply : s.loop = .replying →
      Outcome env s .advance { s with
        toJs := s.toJs ++ [Json.toString (messageOf accepted)], loop := .waiting }
  | start {request : ConnectRequest} : s.loop = .starting request →
      Outcome env s .advance { s with status := .connecting, loop := .connecting request }
  | store : s.loop = .opening →
      Outcome env s .advance { s with tx := some s.clients.length, loop := .opened }
  | settle : s.loop = .opened →
      Outcome env s .advance { s with status := .connected, loop := .announcing }
  | announce : s.loop = .announcing →
      Outcome env s .advance { s with
        toJs := s.toJs ++ [Json.toString (messageOf accepted)], loop := .spawning }
  | spawn : s.loop = .spawning →
      Outcome env s .advance { s with
        clients := s.clients ++ [⟨.running, [], []⟩], loop := .waiting }
  | fail {error : String} : s.loop = .failing error →
      Outcome env s .advance { s with status := .disconnected, loop := .refusing error }
  | refuse {error : String} : s.loop = .refusing error →
      Outcome env s .advance { s with
        toJs := s.toJs ++ [Json.toString (messageOf (refused error))], loop := .waiting }
  | forward {message : Message} : s.loop = .forwarding message →
      Outcome env s .advance { s with clients := Service.forward s message, loop := .waiting }
  | connect {request : ConnectRequest} {result : Except String Unit} :
      s.loop = .connecting request → result.isOk = true →
      Outcome env s (.doConnect result) { s with loop := .opening }
  | miss {request : ConnectRequest} {error : String} : s.loop = .connecting request →
      Outcome env s (.doConnect (.error error)) { s with loop := .failing error }
  | ping {i : ℕ} {c : Client} {message : Message} : s.clients[i]? = some c →
      c.phase = .running → message.name = "Ping" →
      Outcome env s (.onRecvMessage i message) s
  | relay {i : ℕ} {c : Client} {message : Message} : s.clients[i]? = some c →
      c.phase = .running → message.name ≠ "Ping" →
      Outcome env s (.onRecvMessage i message) { s with
        toJs := s.toJs ++ [Json.toString message] }
  | write {i : ℕ} {c : Client} {message : Message} {rx : List Message} :
      s.clients[i]? = some c → c.phase = .running → c.rx = message :: rx →
      Outcome env s (.pollWrite i) (s.setClient i { c with rx := rx, sent := c.sent ++ [message] })
  | finish {i : ℕ} {c : Client} {reason : String} : s.clients[i]? = some c →
      c.phase = .running →
      Outcome env s (.finish i reason) (s.setClient i { c with phase := .ended reason, rx := [] })
  | disconnect {i : ℕ} {c : Client} {reason : String} : s.clients[i]? = some c →
      c.phase = .ended reason →
      Outcome env s (.disconnect i) { s.setClient i { c with phase := .leaving reason } with
        status := .disconnected }
  | notify {i : ℕ} {c : Client} {reason : String} : s.clients[i]? = some c →
      c.phase = .leaving reason →
      Outcome env s (.notify i) { s.setClient i { c with phase := .finished } with
        toJs := s.toJs ++ [Json.toString (messageOf (⟨reason⟩ : DisconnectNtf))] }
  | emit {output : String} {toJs : List String} : s.toJs = output :: toJs →
      Outcome env s .rs2js { s with toJs := toJs, events := s.events ++ [output] }
  | hear {payload : String} {events : List String} : s.events = payload :: events →
      Outcome env s .listen { s with
        events := events, serviceStatus := listener env s.serviceStatus payload }

section

variable {env : Env} {s t : State} {a : Action}

theorem js2rs_outcome {i : ℕ} (h : js2rs s i = some t) : Outcome env s (.js2rs i) t := by
  unfold js2rs at h
  split at h
  · rename_i message rest hi
    split_ifs at h with hfailed
    · cases h
      exact .turnAway hfailed hi
    · cases h
      exact .submit hfailed hi
  · cases h

theorem recv_outcome (h : recv env s = some t) : Outcome env s .recv t := by
  unfold recv at h
  split at h
  · rename_i input fromJs hloop hjs
    dsimp only at h
    split at h
    · rename_i hread
      cases h
      exact .misread hloop hjs hread
    · rename_i message hread
      split_ifs at h with hname
      · cases h
        exact .request hloop hjs hread hname
      · cases h
        exact .other hloop hjs hread hname
  · cases h

theorem onConnectRequest_outcome {message : Message} (hloop : s.loop = .examining message) :
    Outcome env s .advance (onConnectRequest env s message) := by
  unfold onConnectRequest
  split
  · exact .confirm hloop ‹_›
  · exact .ignore hloop ‹_›
  · rename_i hstatus
    split
    · exact .reject hloop hstatus ‹_›
    · exact .accept hloop hstatus ‹_›

theorem advance_outcome (h : advance env s = some t) : Outcome env s .advance t := by
  unfold advance at h
  split at h
  · cases h
    exact onConnectRequest_outcome ‹_›
  · obtain ⟨u, hu, rfl⟩ := Option.map_eq_some_iff.1 h
    obtain rfl := sendToJs_eq hu
    exact .reply ‹_›
  · cases h
    exact .start ‹_›
  · cases h
    exact .store ‹_›
  · cases h
    exact .settle ‹_›
  · obtain ⟨u, hu, rfl⟩ := Option.map_eq_some_iff.1 h
    obtain rfl := sendToJs_eq hu
    exact .announce ‹_›
  · cases h
    exact .spawn ‹_›
  · cases h
    exact .fail ‹_›
  · obtain ⟨u, hu, rfl⟩ := Option.map_eq_some_iff.1 h
    obtain rfl := sendToJs_eq hu
    exact .refuse ‹_›
  · cases h
    exact .forward ‹_›
  · cases h
  · cases h
  · cases h

theorem step_outcome (h : step env s a = some t) : Outcome env s a t := by
  cases a with
  | login serverAdress =>
    simp only [step, onClickLogin, Option.ite_none_left_eq_some, Option.some.injEq] at h
    obtain ⟨hstatus, rfl⟩ := h
    exact .login hstatus
  | control button clientToken authorizationCode =>
    simp only [step, onClickControl, Option.ite_none_right_eq_some, Option.some.injEq] at h
    obtain ⟨hstatus, rfl⟩ := h
    exact .control hstatus
  | invoke message =>
    cases h
    exact .invoke
  | js2rs i => exact js2rs_outcome h
  | recv => exact recv_outcome h
  | advance => exact advance_outcome h
  | doConnect result =>
    simp only [step, doConnect] at h
    split at h
    · cases h
      exact .connect ‹_› rfl
    · cases h
      exact .miss ‹_›
    · cases h
  | onRecvMessage i message =>
    obtain ⟨c, hc, h⟩ := Option.bind_eq_some_iff.1 h
    simp only [onRecvMessage] at h
    split_ifs at h with hphase hname
    · cases h
      exact .ping hc hphase hname
    · obtain rfl := sendToJs_eq h
      exact .relay hc hphase hname
  | pollWrite i =>
    obtain ⟨c, hc, h⟩ := Option.bind_eq_some_iff.1 h
    simp only [pollWrite] at h
    split at h
    · cases h
      exact .write hc ‹_› ‹_›
    · cases h
  | finish i reason =>
    obtain ⟨c, hc, h⟩ := Option.bind_eq_some_iff.1 h
    simp only [finish, Option.ite_none_right_eq_some, Option.some.injEq] at h
    obtain ⟨hphase, rfl⟩ := h
    exact .finish hc hphase
  | disconnect i =>
    obtain ⟨c, hc, h⟩ := Option.bind_eq_some_iff.1 h
    simp only [disconnect] at h
    split at h
    · cases h
      exact .disconnect hc ‹_›
    · cases h
  | notify i =>
    obtain ⟨c, hc, h⟩ := Option.bind_eq_some_iff.1 h
    simp only [notify] at h
    split at h
    · obtain ⟨u, hu, rfl⟩ := Option.map_eq_some_iff.1 h
      obtain rfl := sendToJs_eq hu
      exact .notify hc ‹_›
    · cases h
  | rs2js =>
    simp only [step, rs2js] at h
    split at h
    · cases h
      exact .emit ‹_›
    · cases h
  | listen =>
    simp only [step, listen] at h
    split at h
    · cases h
      exact .hear ‹_›
    · cases h

end

end MusicRemote.Control.Service
