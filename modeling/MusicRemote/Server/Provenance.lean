import MusicRemote.Server.Order

namespace MusicRemote.Server

open Foundation Foundation.Transition Protocol Protocol.Json Protocol.Framing

variable {env : Env} {lossy alive : Bool} {grants : List Entry → Prop} {b b' : Board} {t u k : ℕ}
  {id : UInt32} {v v' : View} {r : Option Reader} {es tr : List Event} {s s' : State}
  {as : List Action} {e : Envelope} {m : Message} {push : PushMediaKeyEvent}

theorem verdict_eq_permit (h : verdict env m = .permit push) :
    m.name = "SendControlMediaKeyEventRequest" ∧ ∃ request, env.readRequest m.data = some request ∧
      request.authorizationCode = env.authorizationCode ∧ push = pushOf request := by
  unfold verdict at h
  split at h
  · split at h <;> cases h
  split at h
  · cases h
  split at h
  · rename_i hn
    split at h
    · cases h
    · rename_i request hr
      split at h
      · rename_i ha
        cases h
        exact ⟨hn, request, hr, ha.symm, rfl⟩
      · cases h
  · cases h

theorem verdict_permits {request : SendControlMediaKeyEventRequest}
    (hn : m.name = "SendControlMediaKeyEventRequest") (hr : env.readRequest m.data = some request)
    (ha : request.authorizationCode = env.authorizationCode) :
    verdict env m = .permit (pushOf request) := by
  simp [verdict, hn, hr, ha]

theorem verdict_eq_refuse {request : SendControlMediaKeyEventRequest}
    (hn : m.name = "SendControlMediaKeyEventRequest") (hr : env.readRequest m.data = some request)
    (ha : request.authorizationCode ≠ env.authorizationCode) : verdict env m = .refuse := by
  simp [verdict, hn, hr, ha.symm]

/-- A push among the events of a message comes from the broadcast of that message. -/
theorem Stage.push_mem (h : Stage env lossy t k id alive r tr) (he : .enqueued u e ∈ tr)
    (hb : e.body = .push push) : ∃ m entries p tail, verdict env m = .permit push ∧
      tr = .received t k m :: tail ∧ .enqueued u e ∈ tail ∧ .locked t k entries ∈ tail ∧
      p ∈ others id entries ∧ p.tx = u := by
  have hanswer {body : Body} (hbody : ∀ push, body ≠ .push push) :
      Event.enqueued u e ≠ answerEvent t k body := by
    intro h
    cases h
    exact hbody push hb
  have hpush {m : Message} {push' : PushMediaKeyEvent} {entries : List Entry}
      {served rest : List Player} (tail : List Event) (hm : verdict env m = .permit push')
      (ho : others id entries = served ++ rest)
      (he : .enqueued u e ∈ served.map (pushEvent t k push')) :
      ∃ m' entries' p tail', verdict env m' = .permit push ∧
        Event.received t k m :: .locked t k entries :: (served.map (pushEvent t k push') ++ tail) =
          .received t k m' :: tail' ∧ .enqueued u e ∈ tail' ∧ .locked t k entries' ∈ tail' ∧
        p ∈ others id entries' ∧ p.tx = u := by
    have hmem := List.mem_append_left tail he
    obtain ⟨p, hp, he⟩ := List.mem_map.1 he
    cases he
    cases hb
    exact ⟨m, entries, p, _, hm, rfl, List.mem_cons_of_mem _ hmem, List.mem_cons_self,
      ho ▸ List.mem_append_left _ hp, rfl⟩
  cases h with
  | unseen => cases he
  | received | locking | cancelled | ignored | failed => simp at he
  | refused | ponged =>
    simp only [List.mem_cons, reduceCtorEq, List.not_mem_nil, or_false, false_or] at he
    exact absurd he (hanswer (fun _ h ↦ by cases h))
  | pushing hm ho =>
    simp only [List.mem_cons, reduceCtorEq, false_or] at he
    simpa only [List.append_nil] using hpush [] hm ho he
  | responding hm =>
    simp only [List.mem_cons, reduceCtorEq, false_or] at he
    simpa only [List.append_nil] using hpush [] hm (List.append_nil _).symm he
  | answered hm =>
    simp only [List.mem_cons, List.mem_append, reduceCtorEq, false_or, List.not_mem_nil,
      or_false] at he
    obtain he | he := he
    · exact hpush _ hm (List.append_nil _).symm he
    · exact absurd he (hanswer (fun _ h ↦ by cases h))
  | aborted hl hm ho =>
    simp only [List.mem_cons, List.mem_append, reduceCtorEq, false_or, List.not_mem_nil,
      or_false] at he
    exact hpush _ hm ho he

/-- A message is received once. -/
theorem Stage.received_inj (h : Stage env lossy t k id alive r tr) {m' : Message}
    (hm : .received t k m ∈ tr) (hm' : .received t k m' ∈ tr) : m = m' := by
  have hpushes (push : PushMediaKeyEvent) (served : List Player) (m : Message) :
      Event.received t k m ∉ served.map (pushEvent t k push) := fun hmem ↦ by
    obtain ⟨p, -, he⟩ := List.mem_map.1 hmem
    cases he
  have honce {m₀ : Message} {tail : List Event} (htail : ∀ m, Event.received t k m ∉ tail)
      (hm : .received t k m ∈ .received t k m₀ :: tail)
      (hm' : .received t k m' ∈ .received t k m₀ :: tail) : m = m' := by
    rcases List.mem_cons.1 hm with hm | hm
    · rcases List.mem_cons.1 hm' with hm' | hm'
      · cases hm
        cases hm'
        rfl
      · exact absurd hm' (htail m')
    · exact absurd hm (htail m)
  cases h with
  | unseen => cases hm
  | received | locking | cancelled | ignored | failed | refused | ponged =>
    exact honce (by simp [answerEvent]) hm hm'
  | pushing | responding => exact honce (by simpa using hpushes _ _) hm hm'
  | answered | aborted => exact honce (by simpa [answerEvent] using hpushes _ _) hm hm'

theorem Move.pingTask_mem (h : Move env lossy grants t v es v') (he : .enqueued u e ∈ es)
    (hc : e.cause = .pingTask) : ∃ ping, e.body = .ping ping := by
  cases h with
  | ping millis =>
    cases List.mem_singleton.1 he
    exact ⟨_, rfl⟩
  | push =>
    cases List.mem_singleton.1 he
    cases hc
  | pong | refuse | respond =>
    simp only [answerEvent, List.mem_cons, reduceCtorEq, List.not_mem_nil, or_false] at he
    cases he
    cases hc
  | _ => simp at he

theorem pingTask_sends_pings {ok : State → Action → Prop} (h : Run (step env) ok .init as s)
    (he : .enqueued u e ∈ s.log) (hc : e.cause = .pingTask) : ∃ ping, e.body = .ping ping := by
  refine board_invariant true h nofun (I := fun b ↦ ∀ u e, .enqueued u e ∈ b.log →
    e.cause = .pingTask → ∃ ping, e.body = .ping ping) nofun ?_ u e he hc
  intro b b' hb h u e he hc
  obtain ⟨t, es, h, -, hlog⟩ := h.exists_move
  rw [hlog] at he
  obtain he | he := List.mem_append.1 he
  · exact hb u e he hc
  · exact h.pingTask_mem he hc

/-- A request with the wrong code is answered, and nobody else notices. -/
theorem refused_answer (hw : s.WellFormed) (hp : (s.session t).phase = .selecting (.received k m))
    (hv : verdict env m = .refuse) (h : step env s (.recvMessage t) = some s') :
    s'.players = s.players ∧ (∀ u, u ≠ t → s'.session u = s.session u) ∧
      (s'.session t).channel.queue =
        (s.session t).channel.queue ++ [envelope denied (.message t k)] ∧
      s'.log = s.log ++ [answerEvent t k denied, .returned t k true] := by
  have ho := ((hw.sound t).selecting hp).1
  simp only [step, act, hp, Option.ite_none_left_eq_some, Option.some.injEq, onRecvMessage_eq,
    hv] at h
  obtain ⟨-, rfl⟩ := h
  have hc : ((s.refresh t).session t).channel = (s.session t).channel := by
    unfold State.refresh
    split <;> simp [State.update]
  have hne (u : ℕ) (hu : u ≠ t) : (s.refresh t).session u = s.session u := by
    unfold State.refresh
    split <;> simp [State.update, hu]
  have hf := Frame.refresh s t
  simp only [State.answer, State.send, hc, Channel.send, if_pos ho, Option.map_some]
  refine ⟨hf.players, fun u hu ↦ ?_, ?_, ?_⟩
  · simp [State.finish, State.emit, State.setPhase, State.update, hu, hne]
  · simp [State.finish, State.emit, State.setPhase, State.update]
  · simp [State.finish, State.emit, State.setPhase, State.update, hf.log, answerEvent]

/-- Every push that a session was ever sent goes back to one authorised request of
another session. -/
theorem pushes_come_from_authorised_requests (h : Run (step env) Any .init as s) :
    (∀ u e push, .enqueued u e ∈ s.log → e.body = .push push → ∃ t k m request, t ≠ u ∧
      e.cause = .message t k ∧ Precedes s.log (.received t k m) (.enqueued u e) ∧
      m.name = "SendControlMediaKeyEventRequest" ∧ env.readRequest m.data = some request ∧
      request.authorizationCode = env.authorizationCode ∧
      push = ⟨request.action, request.code, request.token⟩) ∧
    (∀ u, (pushes (sentTo u s.log)).Nodup) ∧
    (∀ u, (s.session u).written ++ (s.session u).channel.queue <+: sentTo u s.log) ∧
    ∀ t k m request, (s.session t).phase = .selecting (.received k m) →
      m.name = "SendControlMediaKeyEventRequest" → env.readRequest m.data = some request →
      request.authorizationCode ≠ env.authorizationCode → ∀ s',
      step env s (.recvMessage t) = some s' →
        s'.players = s.players ∧ (∀ u, u ≠ t → s'.session u = s.session u) ∧
        (s'.session t).channel.queue = (s.session t).channel.queue ++
          [envelope (.response ⟨false, "no permission"⟩) (.message t k)] ∧
        s'.log = s.log ++ [.enqueued t (envelope (.response ⟨false, "no permission"⟩)
          (.message t k)), .returned t k true] := by
  have ho := (ordered_of_run h).1
  refine ⟨?_, fun u ↦ ho.increasing.nodup.sublist (ho.sublist u), fun u ↦
    (delivers_of_run h u).isPrefix, ?_⟩
  · intro u e push he hb
    obtain ⟨message, body, cause⟩ := e
    cases cause with
    | pingTask =>
      obtain ⟨ping, hping⟩ := pingTask_sends_pings h he rfl
      cases hb.symm.trans hping
    | message t k =>
      -- What message `k` of task `t` has caused is a stage, which starts with its receipt.
      have hst := (staged_of_run true h nofun t).stage k
      have hmem : .enqueued u ⟨message, body, .message t k⟩ ∈ trace s.log t k :=
        List.mem_filter.2 ⟨he, by simp [Event.owner]⟩
      obtain ⟨m, entries, p, tail, hm, htr, htail, hl, hp, rfl⟩ := hst.push_mem hmem hb
      obtain ⟨hname, request, hread, hcode, rfl⟩ := verdict_eq_permit hm
      change trace s.log t k = _ at htr
      have hsnap : s.board.Snapshot entries := by
        refine ((addressed_of_run h).locked t k entries ((trace_sublist s.log t k).subset ?_)).2
        rw [htr]
        exact List.mem_cons_of_mem _ hl
      refine ⟨t, k, m, request, (hsnap.ne_of_mem_others hp).symm, rfl, ?_, hname, hread, hcode, rfl⟩
      refine Precedes.mono ?_ (trace_sublist s.log t k)
      rw [htr]
      exact Precedes.cons_iff.2 (.inl ⟨rfl, htail⟩)
  · intro t k m request hp hn hr ha s' hs
    exact refused_answer (.run h) hp (verdict_eq_refuse hn hr ha) hs

theorem push_in_two_requests_is_authorised :
    ∃ s e push, Run (step playEnv) Any .init twoRequests s ∧ .enqueued 1 e ∈ s.log ∧
      e.body = .push push ∧ ∃ t k m, t ≠ 1 ∧ e.cause = .message t k ∧
      Precedes s.log (.received t k m) (.enqueued 1 e) := by
  obtain ⟨s, h, -, hs, -⟩ := run_twoRequests
  have hmem : (0, 0) ∈ pushes (s.session 1).written := by
    rw [hs]
    exact List.mem_cons_self
  obtain ⟨⟨message, body, cause⟩, he, hb⟩ := List.mem_filterMap.1 hmem
  have hlog : .enqueued 1 ⟨message, body, cause⟩ ∈ s.log := by
    have hd := (pushes_come_from_authorised_requests h.any).2.2.1 1
    exact mem_sentTo.1 (hd.subset (List.mem_append_left _ he))
  cases body with
  | push push =>
    obtain ⟨t, k, m, -, ht, hc, hp, -⟩ :=
      (pushes_come_from_authorised_requests h.any).1 1 _ push hlog rfl
    exact ⟨s, _, push, h.any, hlog, rfl, t, k, m, ht, hc, hp⟩
  | ping | pong | response => cases cause <;> cases hb

end MusicRemote.Server
