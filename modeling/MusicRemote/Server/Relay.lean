import MusicRemote.Protocol.RoundTrip
import MusicRemote.Protocol.Size
import MusicRemote.Server.Provenance

namespace MusicRemote.Server

open Foundation Foundation.Transition Protocol Protocol.Json Protocol.Framing

/-- The server with the readers that `derive(Deserialize)` gives its structs. -/
def serde (code : String) : Env := ⟨code, fromStr, fromStr, fromStr⟩

variable {env : Env} {code text : String} {m : Message} {push : PushMediaKeyEvent} {s s' : State}
  {a : Action} {as : List Action} {t u k : ℕ} {e : Envelope} {body : Body}

/-- An array spares the names of the fields, which the push spells out: it can
outgrow the request by 25 bytes less the code. -/
theorem length_push_le (hread : fromStr text = some m)
    (hv : verdict (serde code) m = .permit push) :
    (asBytes (Json.toString (messageOf push))).length + embedded code ≤
      (asBytes text).length + if isArray m.data then 25 else 0 := by
  obtain ⟨hname, request, hr, hcode, rfl⟩ := verdict_eq_permit hv
  have hm := le_length_of_message hread
  have hsize := le_cost_of_request hr
  have h31 : cost Char.utf8Size (escape "SendControlMediaKeyEventRequest") = 31 := by decide
  rw [hname, h31] at hm
  have hpush : (asBytes (Json.toString (messageOf (pushOf request)))).length =
    76 + requestSize request.action request.code request.token := length_push _
  rw [show embedded code = embedded request.authorizationCode from congrArg embedded hcode.symm]
  split_ifs at hsize ⊢ <;> omega

/-- Nothing is received in this part of a step. -/
def Silent (s s' : State) : Prop := ∀ t k m, .received t k m ∈ s'.log → .received t k m ∈ s.log

theorem Silent.of_log (h : s'.log = s.log) : Silent s s' := fun _ _ _ hm ↦ h ▸ hm

theorem Silent.finish (ok : Bool) : Silent s (s.finish t k ok) := by
  intro t' k' m' hm
  simpa [State.finish, State.emit, State.setPhase, State.update] using hm

theorem Silent.send {cause : Cause} (h : s.send t body cause = some s') : Silent s s' := by
  obtain ⟨channel, -, rfl⟩ := Option.map_eq_some_iff.1 h
  intro t' k' m' hm
  simpa [State.emit, State.update] using hm

theorem Silent.trans {s'' : State} (h : Silent s s') (h' : Silent s' s'') : Silent s s'' :=
  fun t k m hm ↦ h t k m (h' t k m hm)

theorem Silent.answer : Silent s (s.answer t k body) := by
  unfold State.answer
  split
  · rename_i hs
    exact (Silent.send hs).trans (.finish true)
  · exact .finish false

theorem Silent.refresh (s : State) (t : ℕ) : Silent s (s.refresh t) := by
  refine .of_log ?_
  unfold State.refresh
  split <;> rfl

theorem Silent.onRecvMessage : Silent s (onRecvMessage env s t k m) := by
  refine (Silent.refresh s t).trans ?_
  rw [onRecvMessage_eq]
  cases verdict env m with
  | fail | ignore => exact .finish _
  | pong | refuse => exact .answer
  | permit => exact .of_log rfl

theorem Silent.broadcast (rest : List Player) : Silent s (broadcast s t k push rest) := by
  cases rest with
  | nil => exact .of_log rfl
  | cons p rest =>
    rw [Server.broadcast]
    cases hs : s.send p.tx (.push push) (.message t k) with
    | some s₁ => exact (Silent.send hs).trans (.of_log rfl)
    | none => exact Silent.trans (.of_log rfl) (.finish false)

theorem Silent.pollWrite {ok : Bool} (h : pollWrite s t ok = some s') : Silent s s' := by
  refine .of_log ?_
  unfold Server.pollWrite at h
  dsimp only at h
  split at h
  · cases h
  · split at h <;> (try split_ifs at h) <;> cases h <;> rfl

/-- A message is received when a frame of its session is taken apart. -/
theorem received_of_step (h : step env s a = some s') :
    Silent s s' ∨ ∃ t bytes rest m, a = .recvFrame t ∧
      onTryExtractFrame (s.session t).buffer = .ok (some (bytes, rest)) ∧
      (fromUtf8 bytes).bind env.readMessage = some m ∧
      s'.log = s.log ++ [.received t (s.session t).received m] := by
  cases step_outcome h with
  | spawn | start | eof | read | readError | unsent | endSelect | remove | shutdown | tick =>
    exact .inl (.of_log rfl)
  | @recvFrame t hp =>
    unfold onRecvFrame
    dsimp only
    split
    · exact .inl (.of_log rfl)
    split
    · exact .inl (.of_log rfl)
    · exact .inl (.of_log rfl)
    · exact .inl (.of_log rfl)
    rename_i bytes rest hx
    split
    · exact .inl (.of_log rfl)
    rename_i m hm
    split
    · exact .inl (.of_log rfl)
    · exact .inr ⟨t, bytes, rest, m, rfl, hx, hm, rfl⟩
  | recvMessage => exact .inl .onRecvMessage
  | lock =>
    refine .inl fun t' k' m' hm ↦ ?_
    simpa [lockPlayers, State.emit, State.setPhase, State.update] using hm
  | push => exact .inl (.broadcast _)
  | respond => exact .inl .answer
  | write _ _ hwrite => exact .inl (.pollWrite hwrite)
  | ping _ hsend => exact .inl (.send hsend)
  | disconnect =>
    unfold onDisconnectSession
    dsimp only
    split <;> exact .inl (.of_log rfl)

/-- What is received has come in a frame that the server accepts. -/
theorem text_of_run {ok : State → Action → Prop} (h : Run (step env) ok .init as s) :
    ∀ t k m, .received t k m ∈ s.log →
      ∃ text, env.readMessage text = some m ∧ (asBytes text).length < 2 ^ 21 := by
  refine h.invariant (I := fun s ↦ ∀ t k m, .received t k m ∈ s.log →
    ∃ text, env.readMessage text = some m ∧ (asBytes text).length < 2 ^ 21) ?_
    (fun _ _ _ hm ↦ by cases hm)
  intro s a s' hs _ h t k m hm
  obtain hq | ⟨t', bytes, rest, m', rfl, hx, hread, hlog⟩ := received_of_step h
  · exact hs t k m (hq t k m hm)
  rw [hlog] at hm
  obtain hm | hm := List.mem_append.1 hm
  · exact hs t k m hm
  cases List.mem_singleton.1 hm
  obtain ⟨text, htext, hfrom⟩ := Option.bind_eq_some_iff.1 hread
  refine ⟨text, hfrom, ?_⟩
  rw [asBytes_of_fromUtf8 htext]
  exact (extract_frame hx).2.2

/-- What the handling of a message enqueues: a fixed answer, the time of a ping,
or what a permitted request asks for. -/
theorem Stage.enqueued_mem {env : Env} {lossy alive : Bool} {id : UInt32} {r : Option Reader}
    {tr : List Event} (h : Stage env lossy t k id alive r tr) (he : .enqueued u e ∈ tr) :
    ∃ m body, .received t k m ∈ tr ∧ e = envelope body (.message t k) ∧
      ((∃ time, body = .pong ⟨time⟩) ∨ body = denied ∨ body = granted ∨
        ∃ push, body = .push push ∧ verdict env m = .permit push) := by
  have hpush {m : Message} {push : PushMediaKeyEvent} {served : List Player}
      (hm : verdict env m = .permit push) (he : .enqueued u e ∈ served.map (pushEvent t k push)) :
      ∃ body, e = envelope body (.message t k) ∧
        ∃ push, body = .push push ∧ verdict env m = .permit push := by
    obtain ⟨p, -, he⟩ := List.mem_map.1 he
    cases he
    exact ⟨_, rfl, push, rfl, hm⟩
  cases h with
  | unseen => cases he
  | received | locking | cancelled | ignored | failed => simp at he
  | refused =>
    simp only [answerEvent, List.mem_cons, reduceCtorEq, List.not_mem_nil, or_false,
      false_or] at he
    cases he
    exact ⟨_, denied, List.mem_cons_self, rfl, .inr (.inl rfl)⟩
  | ponged =>
    simp only [answerEvent, List.mem_cons, reduceCtorEq, List.not_mem_nil, or_false,
      false_or] at he
    cases he
    exact ⟨_, _, List.mem_cons_self, rfl, .inl ⟨_, rfl⟩⟩
  | pushing hm | responding hm =>
    simp only [List.mem_cons, reduceCtorEq, false_or] at he
    obtain ⟨body, rfl, hbody⟩ := hpush hm he
    exact ⟨_, body, List.mem_cons_self, rfl, .inr (.inr (.inr hbody))⟩
  | answered hm =>
    simp only [List.mem_cons, List.mem_append, reduceCtorEq, false_or, List.not_mem_nil,
      or_false] at he
    obtain he | he := he
    · obtain ⟨body, rfl, hbody⟩ := hpush hm he
      exact ⟨_, body, List.mem_cons_self, rfl, .inr (.inr (.inr hbody))⟩
    · cases he
      exact ⟨_, granted, List.mem_cons_self, rfl, .inr (.inr (.inl rfl))⟩
  | aborted _ hm =>
    simp only [List.mem_cons, List.mem_append, reduceCtorEq, false_or, List.not_mem_nil,
      or_false] at he
    obtain ⟨body, rfl, hbody⟩ := hpush hm he
    exact ⟨_, body, List.mem_cons_self, rfl, .inr (.inr (.inr hbody))⟩

theorem length_pong_lt (time : UInt64) :
    (asBytes (Json.toString (messageOf (⟨time⟩ : Pong)))).length < 2 ^ 21 := by
  have hdigits : cost quotedSize (Nat.toDigits 10 time.toNat) ≤ 20 := by
    rw [cost_eq_length price_quotedSize fun c hc ↦
      Nat.isDigit_of_mem_toDigits (by decide) (by decide) hc,
      Nat.length_toDigits_le_iff (by decide) (by decide)]
    exact time.toNat_lt.trans (by decide)
  have hname : cost Char.utf8Size (escape (messageOf (⟨time⟩ : Pong)).name) = 4 := by
    change cost Char.utf8Size (escape "Pong") = 4
    decide
  have hmarks : cost quotedSize (quote "time") = 8 ∧ cost quotedSize "\x7b".toList = 1 ∧
      cost quotedSize "\x7d".toList = 1 ∧ cost quotedSize ":".toList = 1 := by decide
  rw [length_toString_message, hname]
  simp only [messageOf, Json.toString, writeObject, Serialize.fields, writeField, Value.write,
    List.map_cons, List.map_nil, List.intercalate_singleton, String.toList_ofList, cost_append]
  omega

theorem enqueued_of_run {env : Env} {ok : State → Action → Prop} (h : Run (step env) ok .init as s)
    (he : .enqueued u e ∈ s.log) (hc : e.cause = .message t k) :
    ∃ m body, .received t k m ∈ s.log ∧ e = envelope body (.message t k) ∧
      ((∃ time, body = .pong ⟨time⟩) ∨ body = denied ∨ body = granted ∨
        ∃ push, body = .push push ∧ verdict env m = .permit push) := by
  have hst := (staged_of_run true h (fun h ↦ by cases h) t).stage k
  have hmem : .enqueued u e ∈ trace s.log t k := List.mem_filter.2 ⟨he, by simp [Event.owner, hc]⟩
  obtain ⟨m, body, hm, he, hbody⟩ := hst.enqueued_mem hmem
  exact ⟨m, body, (trace_sublist s.log t k).subset hm, he, hbody⟩

/-- The text can be extracted at the other end. -/
def Fits (text : String) : Prop :=
  1 ≤ (asBytes text).length ∧ (asBytes text).length < 2 ^ 21 ∧ ∀ rest,
    onTryExtractFrame (frame text ++ rest) = .ok (some (asBytes text, rest)) ∧
    tryExtractFrame (frame text ++ rest) = .ok (some (asBytes text, rest))

theorem fits_iff (m : Message) :
    Fits (Json.toString m) ↔ (asBytes (Json.toString m)).length < 2 ^ 21 := by
  have hpos := List.length_pos_iff.2 (toString_message_ne_empty m)
  refine ⟨fun h ↦ h.2.1, fun hlt ↦ ⟨hpos, hlt, fun rest ↦ ?_⟩⟩
  rw [frame_eq hlt]
  exact ⟨extract_of_frame hpos hlt, extract_of_frame hpos hlt⟩

/-- The size of the push for a request, from its numbers in decimal and its token after the two
escapings. -/
def pushSize (request : SendControlMediaKeyEventRequest) : ℕ :=
  76 + requestSize request.action request.code request.token

theorem fits_push_iff (request : SendControlMediaKeyEventRequest) :
    Fits (Json.toString (Body.push (pushOf request)).message) ↔ pushSize request < 2 ^ 21 := by
  have hlen : (asBytes (Json.toString (Body.push (pushOf request)).message)).length =
      pushSize request := length_push (pushOf request)
  rw [fits_iff, hlen]

/-- Of what is sent for a message, only the push for a permitted request may fail to fit. -/
theorem fits_or_push (hbody : (∃ time, body = .pong ⟨time⟩) ∨ body = denied ∨ body = granted ∨
      ∃ push, body = .push push ∧ verdict (serde code) m = .permit push) :
    Fits (Json.toString body.message) ∨ ∃ request, body = .push (pushOf request) ∧
      fromStr m.data = some request ∧ verdict (serde code) m = .permit (pushOf request) := by
  obtain ⟨time, rfl⟩ | rfl | rfl | ⟨push, rfl, hv⟩ := hbody
  · exact .inl ((fits_iff _).2 (length_pong_lt time))
  · exact .inl ((fits_iff _).2 (by decide +kernel))
  · exact .inl ((fits_iff _).2 (by decide +kernel))
  · obtain ⟨-, request, hr, -, rfl⟩ := verdict_eq_permit hv
    exact .inr ⟨request, rfl, hr, hv⟩

/-- Which of the frames that the server emits for a message fit, by the request in it. -/
theorem fits_enqueued_iff (hbody : (∃ time, body = .pong ⟨time⟩) ∨ body = denied ∨
      body = granted ∨ ∃ push, body = .push push ∧ verdict (serde code) m = .permit push) :
    Fits (Json.toString body.message) ↔ ∀ request, fromStr m.data = some request →
      body = .push (pushOf request) → pushSize request < 2 ^ 21 := by
  constructor
  · rintro hfits request - rfl
    exact (fits_push_iff request).1 hfits
  · intro h
    obtain hfits | ⟨request, rfl, hr, -⟩ := fits_or_push hbody
    · exact hfits
    · exact (fits_push_iff request).2 (h request hr rfl)

/-- A request that is an object, or carries a code that is long enough, is no shorter than its
push. -/
theorem fits_of_run {ok : State → Action → Prop} (h : Run (step (serde code)) ok .init as s)
    (hm : .received t k m ∈ s.log) (hroom : isArray m.data = false ∨ 25 ≤ embedded code)
    (hbody : (∃ time, body = .pong ⟨time⟩) ∨ body = denied ∨ body = granted ∨
      ∃ push, body = .push push ∧ verdict (serde code) m = .permit push) :
    Fits (Json.toString body.message) := by
  obtain hfits | ⟨request, rfl, -, hv⟩ := fits_or_push hbody
  · exact hfits
  obtain ⟨text, hread, hlen⟩ := text_of_run h t k m hm
  have hle := length_push_le hread hv
  refine (fits_iff _).2 (?_ : (asBytes (Json.toString (messageOf (pushOf request)))).length < _)
  rcases hroom with ha | hcode
  · simp only [ha, Bool.false_eq_true, if_false] at hle
    omega
  · split_ifs at hle <;> omega

def twoSessions : State :=
  onSessionStart (spawn (onSessionStart (spawn .init) 0)) 1

theorem run_twoSessions (env : Env) :
    Run (step env) Any .init [.spawn, .start 0, .spawn, .start 1] twoSessions :=
  .cons trivial rfl (.cons trivial rfl (.cons trivial rfl (.cons trivial rfl (.nil _))))

def afterReceipt (m : Message) : State :=
  (twoSessions.update 0 { twoSessions.session 0 with
    phase := .selecting (.received 0 m), received := 1 }).emit (.received 0 0 m)

theorem run_afterReceipt (h0 : asBytes text ≠ []) (h1 : (asBytes text).length < 2 ^ 21)
    (hread : env.readMessage text = some m) :
    Run (step env) Any twoSessions [.readBuf 0 (frame text), .recvFrame 0] (afterReceipt m) := by
  have hx : onTryExtractFrame (frame text) = .ok (some (asBytes text, [])) := by
    rw [frame_eq h1, ← List.append_nil (_ ++ _)]
    exact extract_of_frame (List.length_pos_iff.2 h0) h1
  have hne : (frame text).isEmpty = false := by
    cases hf : frame text with
    | nil =>
      rw [hf] at hx
      cases hx
    | cons => rfl
  have hp : (twoSessions.session 0).phase = .selecting .reading := rfl
  have hb : (twoSessions.session 0).buffer = [] := rfl
  have hplayer : (twoSessions.session 0).player = some ⟨0, 1⟩ := rfl
  have hr : (twoSessions.session 0).received = 0 := rfl
  have hpanicked : twoSessions.panicked = false := rfl
  refine .cons trivial (t := twoSessions.update 0 { twoSessions.session 0 with
    phase := .selecting .unpacking, buffer := frame text }) ?_ (.one trivial ?_)
  · simp [step, act, hp, hb, hne, hpanicked]
  · have hutf := fromUtf8_asBytes text
    simp [step, act, onRecvFrame, State.update, hpanicked, hne, hx, hutf, hread, hplayer, hr,
      afterReceipt, hb]

def relaySchedule (text : String) : List Action :=
  [.spawn, .start 0, .spawn, .start 1, .readBuf 0 (frame text), .recvFrame 0, .recvMessage 0,
    .lock 0 [⟨2, 1, 2⟩, ⟨1, 0, 1⟩], .push 0]

theorem step_recvMessage (hv : verdict env m = .permit push) :
    step env (afterReceipt m) (.recvMessage 0) =
      some ((afterReceipt m).setPhase 0 (.selecting (.locking 0 push))) := by
  change some (onRecvMessage env (afterReceipt m) 0 0 m) = _
  rw [onRecvMessage_eq, hv]
  rfl

theorem run_relaySchedule (h0 : asBytes text ≠ []) (h1 : (asBytes text).length < 2 ^ 21)
    (hread : env.readMessage text = some m) (hv : verdict env m = .permit push) :
    ∃ s, Run (step env) Any .init (relaySchedule text) s ∧
      .enqueued 1 (envelope (.push push) (.message 0 0)) ∈ s.log := by
  refine ⟨_, (run_twoSessions env).trans ((run_afterReceipt h0 h1 hread).trans
    (.cons trivial (step_recvMessage hv) (.cons trivial rfl (.one trivial rfl)))), ?_⟩
  exact List.mem_append_right _ (List.mem_singleton_self _)

/-- The request is handled to its end, and the push goes out to the other session. -/
theorem run_delivered (h0 : asBytes text ≠ []) (h1 : (asBytes text).length < 2 ^ 21)
    (hread : env.readMessage text = some m) (hv : verdict env m = .permit push) :
    ∃ s, Run (step env) Any .init (relaySchedule text ++ [.push 0, .respond 0, .write 1 true]) s ∧
      .received 0 0 m ∈ s.log ∧
        (s.session 1).written = [envelope (.push push) (.message 0 0)] := by
  refine ⟨_, (run_twoSessions env).trans ((run_afterReceipt h0 h1 hread).trans
    (.cons trivial (step_recvMessage hv) (.cons trivial rfl (.cons trivial rfl
      (.cons trivial rfl (.cons trivial rfl (.one trivial rfl))))))), ?_, rfl⟩
  -- four events have come since
  iterate 4 apply List.mem_append_left
  exact List.mem_append_right _ (List.mem_singleton_self _)

theorem run_request (request : SendControlMediaKeyEventRequest)
    (h : (asBytes (Json.toString (messageOf request))).length < 2 ^ 21) :
    ∃ s, Run (step (serde request.authorizationCode)) Any .init
        (relaySchedule (Json.toString (messageOf request)) ++
          [.push 0, .respond 0, .write 1 true]) s ∧
      .received 0 0 (messageOf request) ∈ s.log ∧
        (s.session 1).written = [envelope (.push (pushOf request)) (.message 0 0)] := by
  have hread : (serde request.authorizationCode).readRequest (messageOf request).data =
      some request := fromStr_request request
  exact run_delivered (toString_message_ne_empty _) h (fromStr_message _)
    (verdict_permits rfl hread rfl)

/-- A request that is written as an array, within a message that is. -/
def briefData (token code : String) : String :=
  String.ofList (Tree.array [.number ⟨['0'], rfl⟩, .number ⟨['0'], rfl⟩, .string (.of token),
    .string (.of code)]).write

def briefText (token code : String) : String :=
  String.ofList (Tree.array [.string (.of "SendControlMediaKeyEventRequest"),
    .string (.of (briefData token code))]).write

theorem fromStr_briefData (token code : String) :
    fromStr (briefData token code) =
      some (⟨0, 0, token, code⟩ : SendControlMediaKeyEventRequest) := by
  simp [fromStr, briefData, parse_write, Tree.fields, Deserialize.names, Deserialize.build,
    Tree.text, Literal.unescape_of]
  rfl

theorem fromStr_briefText (token code : String) : fromStr (briefText token code) =
    some (⟨"SendControlMediaKeyEventRequest", briefData token code⟩ : Message) := by
  simp [fromStr, briefText, parse_write, Tree.fields, Deserialize.names, Deserialize.build,
    Tree.text, Literal.unescape_of]

theorem cost_briefData (token code : String) : cost quotedSize (briefData token code).toList =
    15 + embedded token + embedded code := by
  have h := Tree.cost_array (v := quotedSize) (List.cons_ne_nil (.number ⟨['0'], rfl⟩)
    [.number ⟨['0'], rfl⟩, .string (.of token), .string (.of code)])
  have hmarks : quotedSize '"' = 2 ∧ quotedSize ',' = 1 ∧ quotedSize '[' = 1 ∧
      quotedSize ']' = 1 ∧ quotedSize '0' = 1 := by decide
  simp only [List.map_cons, List.map_nil, List.sum_cons, List.sum_nil, Tree.write.eq_4,
    Tree.write.eq_5, Literal.write, Literal.of, cost_cons, cost_append, cost_nil] at h
  rw [briefData, String.toList_ofList]
  simp only [embedded, Literal.of]
  omega

theorem length_briefText (token code : String) :
    (asBytes (briefText token code)).length = 53 + embedded token + embedded code := by
  have h := Tree.cost_array (v := Char.utf8Size)
    (List.cons_ne_nil (.string (.of "SendControlMediaKeyEventRequest"))
      [.string (.of (briefData token code))])
  have hmarks : Char.utf8Size '"' = 1 ∧ Char.utf8Size ',' = 1 ∧ Char.utf8Size '[' = 1 ∧
      Char.utf8Size ']' = 1 := by decide
  have hname : cost Char.utf8Size (escape "SendControlMediaKeyEventRequest") = 31 := by decide
  have hdata := cost_briefData token code
  simp only [List.map_cons, List.map_nil, List.sum_cons, List.sum_nil, Tree.write.eq_5,
    Literal.write, Literal.of, cost_cons, cost_append, cost_nil, hname,
    cost_escape_utf8Size] at h
  rw [length_asBytes, briefText, String.toList_ofList]
  simp only [Literal.of]
  omega

theorem run_brief (token code : String) (h : 53 + embedded token + embedded code < 2 ^ 21) :
    ∃ s, Run (step (serde code)) Any .init (relaySchedule (briefText token code)) s ∧
      .enqueued 1 (envelope (.push ⟨0, 0, token⟩) (.message 0 0)) ∈ s.log := by
  have hlen := length_briefText token code
  have hv : verdict (serde code) ⟨"SendControlMediaKeyEventRequest", briefData token code⟩ =
      .permit ⟨0, 0, token⟩ := by
    simp [verdict, serde, fromStr_briefData, pushOf]
  refine run_relaySchedule ?_ (by omega) (fromStr_briefText token code) hv
  intro hnil
  rw [hnil, List.length_nil] at hlen
  omega

theorem embedded_replicate (n : ℕ) :
    embedded (String.ofList (List.replicate n 'a')) = n := by
  rw [embedded, escape, String.toList_ofList]
  induction n with
  | zero => rfl
  | succ n ih =>
    have ha : cost quotedSize (escapeChar 'a') = 1 := by decide
    rw [List.replicate_succ, List.flatMap_cons, cost_append, ih, ha, Nat.add_comm]

/-- With a code that is too short, a request in brackets is accepted whose push no
extractor accepts. -/
theorem brief_request_outgrows (token code : String) (h : embedded code < 25)
    (htoken : embedded token = 2 ^ 21 - 54 - embedded code) :
    (asBytes (briefText token code)).length = 2 ^ 21 - 1 ∧ ∃ outbound s e,
      Run (step (serde code)) Any .init (relaySchedule (briefText token code)) s ∧
      .enqueued 1 e ∈ s.log ∧ e.cause = .message 0 0 ∧ e.message = .send (frame outbound) true ∧
      2 ^ 21 ≤ (asBytes outbound).length ∧
      ∀ rest, tryExtractFrame (frame outbound ++ rest) = .error (.error "Message too long") := by
  have hlen := length_briefText token code
  obtain ⟨s, hrun, he⟩ := run_brief token code (by omega)
  have hzero : cost quotedSize (Nat.toDigits 10 (0 : UInt32).toNat) = 1 := by decide
  have hout : (asBytes (Json.toString (messageOf (⟨0, 0, token⟩ : PushMediaKeyEvent)))).length =
      78 + embedded token := by
    rw [length_push]
    simp only [requestSize, hzero]
    omega
  refine ⟨by omega, _, s, _, hrun, he, rfl, rfl, ?_, fun rest ↦ ?_⟩
  · exact Nat.le_trans (by omega) (Nat.le_of_eq hout.symm)
  · refine extract_long_frame (Nat.le_trans (by omega) (Nat.le_of_eq hout.symm)) ?_ rest
    exact Nat.lt_of_le_of_lt (Nat.le_of_eq hout) (by omega)

/-- What the server emits for a message can be extracted at the other end just if it is no push or
the push for the request in the message is short enough, and always if the request is an object.
No push outgrows the limit, whatever comes in, just if the code takes as much room as the names of
the fields. -/
theorem relayed_frames_fit (code : String) :
    (∀ as s, Run (step (serde code)) Any .init as s → ∀ t k u e, .enqueued u e ∈ s.log →
      e.cause = .message t k → ∃ m text, .received t k m ∈ s.log ∧
        e.message = .send (frame text) true ∧
        (Fits text ↔ ∀ request, fromStr m.data = some request →
          e.body = .push (pushOf request) → pushSize request < 2 ^ 21) ∧
        (isArray m.data = false → Fits text)) ∧
    ((∀ as s, Run (step (serde code)) Any .init as s → ∀ t k u e, .enqueued u e ∈ s.log →
      e.cause = .message t k → ∃ text, e.message = .send (frame text) true ∧ Fits text) ↔
        25 ≤ embedded code) := by
  refine ⟨fun as s h t k u e he hc ↦ ?_, fun h ↦ ?_, fun hle as s h t k u e he hc ↦ ?_⟩
  · obtain ⟨m, body, hm, rfl, hbody⟩ := enqueued_of_run h he hc
    exact ⟨m, _, hm, rfl, fits_enqueued_iff hbody, fun ha ↦ fits_of_run h hm (.inl ha) hbody⟩
  · by_contra hlt
    obtain ⟨-, outbound, s, e, hrun, he, hc, hm, -, hreject⟩ :=
      brief_request_outgrows _ code (Nat.lt_of_not_le hlt) (embedded_replicate _)
    obtain ⟨text, hm', -, -, haccept⟩ := h _ s hrun 0 0 1 e he hc
    have hframe : frame outbound = frame text := (WriterMessage.send.inj (hm.symm.trans hm')).1
    have hok := (haccept []).2
    rw [← hframe, hreject] at hok
    cases hok
  · obtain ⟨m, body, hm, rfl, hbody⟩ := enqueued_of_run h he hc
    exact ⟨_, rfl, fits_of_run h hm (.inr hle) hbody⟩

/-- With a code of one letter, a request in brackets with a short token. -/
theorem relayed_request_fits :
    ∃ s e text, Run (step (serde "A")) Any .init (relaySchedule (briefText "kitchen" "A")) s ∧
      .enqueued 1 e ∈ s.log ∧ e.cause = .message 0 0 ∧ e.message = .send (frame text) true ∧
      Fits text := by
  obtain ⟨s, hrun, he⟩ := run_brief "kitchen" "A" (by decide)
  obtain ⟨m, text, -, hm, hfits, -⟩ := (relayed_frames_fit "A").1 _ s hrun 0 0 1 _ he rfl
  refine ⟨s, _, text, hrun, he, rfl, hm, hfits.2 fun request _ hpush ↦ ?_⟩
  obtain ⟨haction, hcode, htoken⟩ := PushMediaKeyEvent.mk.inj (Body.push.inj hpush)
  rw [pushSize, ← haction, ← hcode, ← htoken]
  decide

def longToken : String := String.ofList (List.replicate (2 ^ 21 - 55) 'a')

/-- With the code `A` a request of the greatest length is accepted, and its push is
too long for every extractor. -/
theorem bracketed_request_outgrows :
    (asBytes (briefText longToken "A")).length = 2 ^ 21 - 1 ∧ ∃ outbound s e,
      Run (step (serde "A")) Any .init (relaySchedule (briefText longToken "A")) s ∧
      .enqueued 1 e ∈ s.log ∧ e.cause = .message 0 0 ∧ e.message = .send (frame outbound) true ∧
      2 ^ 21 ≤ (asBytes outbound).length ∧
      ∀ rest, tryExtractFrame (frame outbound ++ rest) = .error (.error "Message too long") := by
  have hcode : embedded "A" = 1 := by decide
  have htoken : embedded longToken = 2 ^ 21 - 55 := embedded_replicate _
  exact brief_request_outgrows longToken "A" (by omega) (by omega)

end MusicRemote.Server
