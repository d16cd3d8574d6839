import MusicRemote.Control.Outcome
import MusicRemote.Foundation.Lists

namespace MusicRemote.Control.Service

open Protocol Protocol.Json Foundation Foundation.Transition

/-- An input that is no message, or a request to connect with data that cannot be read. -/
def isBad (env : Env) (input : String) : Bool :=
  match env.readMessage input with
  | none => true
  | some message =>
    message.name = "ConnectRequest" && (env.readConnectRequest message.data).isNone

/-- Every input is a message, and a request that cannot be read is looked at only while a connection
stands. The page neither clicks nor listens: its texts come from `invoke`, by which any can be sent
at any time, whatever the page shows. -/
def Tolerable (env : Env) (s : State) : Action → Prop
  | .login _ | .control _ _ _ | .listen => False
  | .recv => ∀ input ∈ s.fromJs.head?, (env.readMessage input).isSome = true
  | .advance => ∀ message, s.loop = .examining message →
      env.readConnectRequest message.data = none → s.status ≠ .disconnected
  | _ => True

instance (env : Env) (s : State) (a : Action) : Decidable (Tolerable env s a) := by
  unfold Tolerable
  split
  · infer_instance
  · infer_instance
  · infer_instance
  · infer_instance
  · cases s.loop with
    | examining message =>
      refine decidable_of_iff (env.readConnectRequest message.data = none →
        s.status ≠ .disconnected) ⟨fun h m hm ↦ ?_, fun h ↦ h message rfl⟩
      cases hm
      exact h
    | _ => exact .isTrue fun m hm ↦ by cases hm
  · infer_instance

def Sparing (env : Env) (s : State) : Action → Prop
  | .js2rs i => ∀ input rest, s.handlers[i]? = some (input :: rest) → isBad env input = false
  | _ => True

def Action.isHandling : Action → Bool
  | .js2rs _ | .recv | .advance | .rs2js => true
  | _ => false

inductive RunLoop.Spared (env : Env) : RunLoop → RunLoop → Prop
  | same {loop : RunLoop} : loop ≠ .failed →
      (∀ message, loop = .examining message → env.readConnectRequest message.data ≠ none) →
      Spared env loop loop
  | examining {message : Message} : env.readConnectRequest message.data = none →
      Spared env (.examining message) .waiting
  | replying : Spared env .replying .waiting

def RunLoop.isPlain : RunLoop → Bool
  | .examining _ | .failed => false
  | _ => true

theorem RunLoop.Spared.plain {env : Env} {loop : RunLoop} (h : loop.isPlain = true) :
    loop.Spared env loop := by
  refine .same (fun hloop ↦ ?_) fun _ hloop ↦ ?_
  · rw [hloop] at h
    cases h
  · rw [hloop] at h
    cases h

theorem RunLoop.Spared.ne_failed {env : Env} {loop loop' : RunLoop} (h : loop.Spared env loop') :
    loop ≠ .failed ∧ loop' ≠ .failed := by
  cases h with
  | same hfailed => exact ⟨hfailed, hfailed⟩
  | examining | replying => exact ⟨RunLoop.noConfusion, RunLoop.noConfusion⟩

theorem RunLoop.Spared.eq {env : Env} {loop loop' : RunLoop} (h : loop.Spared env loop')
    (hplain : loop.isPlain = true) (hreplying : loop ≠ .replying) : loop' = loop := by
  cases h with
  | same => rfl
  | examining => cases hplain
  | replying => exact absurd rfl hreplying

inductive HandlerSpared (env : Env) : List String → List String → Prop
  | same {texts : List String} : texts.length ≤ 1 → HandlerSpared env texts texts
  | unsent {text : String} : isBad env text = true → HandlerSpared env [] [text]

/-- A state, and the one without what the bad inputs have left in it. -/
structure Spared (env : Env) (s s' : State) : Prop where
  status : s'.status = s.status
  tx : s'.tx = s.tx
  clients : s'.clients = s.clients
  loop : s.loop.Spared env s'.loop
  toJs : s'.toJs = s.toJs ∨ s.toJs = [Json.toString (messageOf accepted)] ∧ s'.toJs = []
  fromJs : s'.fromJs = s.fromJs.filter (!isBad env ·)
  events : s'.events.Sublist s.events
  handlers : List.Forall₂ (HandlerSpared env) s.handlers s'.handlers

section

variable {env : Env} {s s' t : State}

/-- Where one state has room for an output, the other has it too. -/
theorem Spared.room {text : String} (h : Spared env s s') (ht : s.sendToJs text = some t) :
    s.toJs = [] ∧ s'.toJs = [] := by
  simp only [State.sendToJs, capacity, Nat.lt_one_iff, List.length_eq_zero_iff,
    Option.ite_none_right_eq_some] at ht
  obtain heq | ⟨_, hempty⟩ := h.toJs
  · exact ⟨ht.1, heq.trans ht.1⟩
  · exact ⟨ht.1, hempty⟩

theorem Spared.sendToJs {text : String} (h : Spared env s s') (ht : s.sendToJs text = some t) :
    ∃ t', s'.sendToJs text = some t' ∧ Spared env t t' := by
  obtain ⟨hroom, hroom'⟩ := h.room ht
  obtain rfl := sendToJs_eq ht
  refine ⟨{ s' with toJs := s'.toJs ++ [text] }, ?_, ?_⟩
  · simp [State.sendToJs, capacity, hroom']
  · exact ⟨h.status, h.tx, h.clients, h.loop, .inl (by rw [hroom, hroom']), h.fromJs, h.events,
      h.handlers⟩

theorem Spared.invoke (h : Spared env s s') (text : String) :
    Spared env { s with handlers := s.handlers ++ [[text]] }
      { s' with handlers := s'.handlers ++ [[text]] } :=
  ⟨h.status, h.tx, h.clients, h.loop, h.toJs, h.fromJs, h.events,
    List.rel_append h.handlers (.cons (.same le_rfl) .nil)⟩

theorem Spared.setClient (h : Spared env s s') (i : ℕ) (c : Client) :
    Spared env (s.setClient i c) (s'.setClient i c) :=
  ⟨h.status, h.tx, congrArg (·.set i c) h.clients, h.loop, h.toJs, h.fromJs, h.events, h.handlers⟩

theorem Spared.withStatus (h : Spared env s s') (status : ControlServiceStatus) :
    Spared env { s with status := status } { s' with status := status } :=
  ⟨rfl, h.tx, h.clients, h.loop, h.toJs, h.fromJs, h.events, h.handlers⟩

theorem Spared.withLoop {loop : RunLoop} (h : Spared env s s') (hloop : loop.isPlain = true) :
    Spared env { s with loop := loop } { s' with loop := loop } :=
  ⟨h.status, h.tx, h.clients, .plain hloop, h.toJs, h.fromJs, h.events, h.handlers⟩

/-- A call of `js2rs` with a bad text is left out. -/
theorem Spared.js2rs {i : ℕ} (h : Spared env s s') (ht : js2rs s i = some t) :
    Spared env t s' ∨ ∃ t', Sparing env s' (.js2rs i) ∧ js2rs s' i = some t' ∧ Spared env t t' := by
  have hloop := h.loop.ne_failed
  unfold Service.js2rs at ht
  split at ht
  · rename_i text rest htext
    rw [if_neg hloop.1] at ht
    simp only [capacity, Nat.lt_one_iff, List.length_eq_zero_iff, Option.ite_none_right_eq_some,
      Option.some.injEq] at ht
    obtain ⟨hroom, rfl⟩ := ht
    have hroom' : s'.fromJs = [] := by rw [h.fromJs, hroom, List.filter_nil]
    obtain ⟨texts, htexts, hsame⟩ := forall₂_getElem? h.handlers htext
    cases hsame with
    | same hlength =>
      obtain rfl : rest = [] := by simpa using hlength
      cases hbad : isBad env text with
      | true =>
        refine .inl ⟨h.status, h.tx, h.clients, h.loop, h.toJs, ?_, h.events, ?_⟩
        · simp [hroom, hroom', hbad]
        · have hset := forall₂_set h.handlers i (HandlerSpared.unsent hbad)
          obtain ⟨hlt, heq⟩ := List.getElem?_eq_some_iff.1 htexts
          rwa [← heq, List.set_getElem_self] at hset
      | false =>
        refine .inr ⟨{ s' with
          fromJs := s'.fromJs ++ [text], handlers := s'.handlers.set i [] }, ?_, ?_, ?_⟩
        · intro input rest hinput
          rw [htexts] at hinput
          cases hinput
          exact hbad
        · simp [Service.js2rs, htexts, hloop.2, hroom', capacity]
        · refine ⟨h.status, h.tx, h.clients, h.loop, h.toJs, ?_, h.events, ?_⟩
          · simp [hroom, hroom', hbad]
          · exact forall₂_set h.handlers i (.same (Nat.zero_le _))
  · cases ht

/-- The receipt of a bad request is left out. -/
theorem Spared.recv (h : Spared env s s') (hok : Tolerable env s .recv)
    (ht : recv env s = some t) :
    Spared env t s' ∨ ∃ t', recv env s' = some t' ∧ Spared env t t' := by
  unfold Service.recv at ht
  split at ht
  · rename_i input fromJs hloop hjs
    have hloop' : s'.loop = .waiting := (hloop ▸ h.loop).eq rfl RunLoop.noConfusion
    obtain ⟨message, hread⟩ := Option.isSome_iff_exists.1 (hok input (by rw [hjs]; rfl))
    have hfilter := h.fromJs
    simp only [hread] at ht
    cases hbad : isBad env input with
    | true =>
      rw [hjs, List.filter_cons, hbad] at hfilter
      simp only [isBad, hread, Bool.and_eq_true, decide_eq_true_eq,
        Option.isNone_iff_eq_none] at hbad
      rw [if_pos hbad.1] at ht
      cases ht
      exact .inl ⟨h.status, h.tx, h.clients, hloop' ▸ .examining hbad.2, h.toJs, hfilter, h.events,
        h.handlers⟩
    | false =>
      rw [hjs, List.filter_cons, hbad] at hfilter
      simp only [isBad, hread] at hbad
      refine .inr ?_
      by_cases hname : message.name = "ConnectRequest"
      · rw [if_pos hname] at ht
        cases ht
        refine ⟨{ s' with
          fromJs := fromJs.filter (!isBad env ·), loop := .examining message }, ?_, ?_⟩
        · simp [Service.recv, hloop', hfilter, hread, hname]
        · refine ⟨h.status, h.tx, h.clients, .same RunLoop.noConfusion fun m hm ↦ ?_, h.toJs, rfl,
            h.events, h.handlers⟩
          cases hm
          intro hnone
          simp [hname, hnone] at hbad
      · rw [if_neg hname] at ht
        cases ht
        refine ⟨{ s' with
          fromJs := fromJs.filter (!isBad env ·), loop := .forwarding message }, ?_, ?_⟩
        · simp [Service.recv, hloop', hfilter, hread, hname]
        · exact ⟨h.status, h.tx, h.clients, .plain rfl, h.toJs, rfl, h.events, h.handlers⟩
  · cases ht

theorem Spared.forward (h : Spared env s s') (message : Message) :
    forward s' message = forward s message := by
  rw [Service.forward, Service.forward, h.tx, h.clients]

/-- The service posts a message of its own and goes on. -/
theorem Spared.post {α : Type} [Serialize α] {data : α} {loop : RunLoop} (h : Spared env s s')
    (hloop : loop.isPlain = true)
    (ht : (sendMessageToJs s data).map (fun s ↦ { s with loop := loop }) = some t) :
    ∃ t', (sendMessageToJs s' data).map (fun s ↦ { s with loop := loop }) = some t' ∧
      Spared env t t' := by
  obtain ⟨u, hu, rfl⟩ := Option.map_eq_some_iff.1 ht
  obtain ⟨u', hu', hspared⟩ := h.sendToJs hu
  exact ⟨_, by rw [sendMessageToJs, hu']; rfl, hspared.withLoop hloop⟩

theorem Spared.onConnectRequest {message : Message} (h : Spared env s s')
    (hread : env.readConnectRequest message.data ≠ none) :
    ∃ loop : RunLoop, loop.isPlain = true ∧
      onConnectRequest env s message = { s with loop := loop } ∧
      onConnectRequest env s' message = { s' with loop := loop } := by
  obtain ⟨request, hrequest⟩ := Option.ne_none_iff_exists'.1 hread
  rw [Service.onConnectRequest, Service.onConnectRequest, h.status]
  cases hstatus : s.status with
  | connected => exact ⟨.replying, rfl, rfl, rfl⟩
  | connecting => exact ⟨.waiting, rfl, rfl, rfl⟩
  | disconnected =>
    rw [hrequest]
    exact ⟨.starting request, rfl, rfl, rfl⟩

/-- A step of the loop in which no bad request is looked at. -/
theorem Spared.advance_same (h : Spared env s s') (heq : s'.loop = s.loop)
    (hread : ∀ message, s.loop = .examining message → env.readConnectRequest message.data ≠ none)
    (ht : advance env s = some t) : ∃ t', advance env s' = some t' ∧ Spared env t t' := by
  cases hloop : s.loop with
  | waiting | connecting | failed =>
    rw [Service.advance, hloop] at ht
    cases ht
  | replying | announcing | refusing =>
    rw [Service.advance, hloop] at ht
    rw [Service.advance, heq, hloop]
    exact h.post rfl ht
  | examining message =>
    rw [Service.advance, hloop] at ht
    rw [Service.advance, heq, hloop]
    cases ht
    obtain ⟨loop, hplain, hs, hs'⟩ := h.onConnectRequest (hread message hloop)
    rw [hs]
    exact ⟨_, congrArg some hs', h.withLoop hplain⟩
  | starting | opened | failing =>
    rw [Service.advance, hloop] at ht
    rw [Service.advance, heq, hloop]
    cases ht
    exact ⟨_, rfl, (h.withStatus _).withLoop rfl⟩
  | opening =>
    rw [Service.advance, hloop] at ht
    rw [Service.advance, heq, hloop]
    cases ht
    exact ⟨_, rfl, h.status, by rw [h.clients], h.clients, .plain rfl, h.toJs, h.fromJs, h.events,
      h.handlers⟩
  | spawning =>
    rw [Service.advance, hloop] at ht
    rw [Service.advance, heq, hloop]
    cases ht
    exact ⟨_, rfl, h.status, h.tx, by rw [h.clients], .plain rfl, h.toJs, h.fromJs, h.events,
      h.handlers⟩
  | forwarding message =>
    rw [Service.advance, hloop] at ht
    rw [Service.advance, heq, hloop]
    cases ht
    exact ⟨_, rfl, h.status, h.tx, h.forward message, .plain rfl, h.toJs, h.fromJs, h.events,
      h.handlers⟩

/-- What the loop does for a bad request is left out. -/
theorem Spared.advance (h : Spared env s s') (hok : Tolerable env s .advance)
    (ht : advance env s = some t) :
    Spared env t s' ∨ ∃ t', advance env s' = some t' ∧ Spared env t t' := by
  have hspared := h.loop
  generalize hloop : s.loop = loop, hloop' : s'.loop = loop' at hspared
  have hwaiting (hw : loop' = .waiting) : RunLoop.waiting.Spared env s'.loop := by
    rw [hloop', hw]
    exact .plain rfl
  cases hspared with
  | same _ hread =>
    refine .inr (h.advance_same (hloop'.trans hloop.symm) ?_ ht)
    rwa [hloop]
  | examining hnone =>
    rw [Service.advance, hloop] at ht
    cases ht
    have hstatus := hok _ hloop hnone
    refine .inl ?_
    rw [Service.onConnectRequest]
    split
    · exact ⟨h.status, h.tx, h.clients, hloop' ▸ .replying, h.toJs, h.fromJs, h.events, h.handlers⟩
    · exact ⟨h.status, h.tx, h.clients, hwaiting rfl, h.toJs, h.fromJs, h.events, h.handlers⟩
    · rename_i hdisconnected
      exact absurd hdisconnected hstatus
  | replying =>
    rw [Service.advance, hloop] at ht
    obtain ⟨u, hu, rfl⟩ := Option.map_eq_some_iff.1 ht
    obtain ⟨hroom, hroom'⟩ := h.room hu
    obtain rfl := sendToJs_eq hu
    refine .inl ⟨h.status, h.tx, h.clients, hwaiting rfl, .inr ⟨?_, hroom'⟩, h.fromJs, h.events,
      h.handlers⟩
    rw [hroom]
    rfl

theorem Spared.rs2js (h : Spared env s s') (ht : rs2js s = some t) :
    Spared env t s' ∨ ∃ t', rs2js s' = some t' ∧ Spared env t t' := by
  unfold Service.rs2js at ht
  split at ht
  · rename_i output toJs hjs
    cases ht
    obtain heq | ⟨hfull, hempty⟩ := h.toJs
    · rw [hjs] at heq
      refine .inr ⟨{ s' with toJs := toJs, events := s'.events ++ [output] }, ?_, ?_⟩
      · simp [Service.rs2js, heq]
      · exact ⟨h.status, h.tx, h.clients, h.loop, .inl rfl, h.fromJs,
          h.events.append (.refl _), h.handlers⟩
    · rw [hjs] at hfull
      cases hfull
      exact .inl ⟨h.status, h.tx, h.clients, h.loop, .inl hempty, h.fromJs,
        h.events.trans (List.sublist_append_left _ _), h.handlers⟩
  · cases ht

theorem Spared.client {i : ℕ} {f : State → Client → Option State} (h : Spared env s s')
    (hf : ∀ c, f s c = some t → ∃ t', f s' c = some t' ∧ Spared env t t')
    (ht : s.clients[i]?.bind (f s) = some t) :
    ∃ t', s'.clients[i]?.bind (f s') = some t' ∧ Spared env t t' := by
  obtain ⟨c, hc, ht⟩ := Option.bind_eq_some_iff.1 ht
  obtain ⟨t', ht', hspared⟩ := hf c ht
  exact ⟨t', by rw [h.clients, hc]; exact ht', hspared⟩

/-- What the connections and the outside do happens in both runs. -/
theorem Spared.outside {a : Action} (h : Spared env s s') (ha : a.isHandling = false)
    (hok : Tolerable env s a) (ht : step env s a = some t) :
    ∃ t', step env s' a = some t' ∧ Spared env t t' := by
  cases a with
  | js2rs | recv | advance | rs2js => cases ha
  | login | control | listen => exact hok.elim
  | invoke text =>
    cases ht
    exact ⟨_, rfl, h.invoke text⟩
  | doConnect result =>
    simp only [step, doConnect] at ht ⊢
    split at ht
    · rename_i request _ hloop
      cases ht
      have hloop' : s'.loop = .connecting request := (hloop ▸ h.loop).eq rfl RunLoop.noConfusion
      rw [hloop']
      exact ⟨_, rfl, h.withLoop rfl⟩
    · rename_i request error hloop
      cases ht
      have hloop' : s'.loop = .connecting request := (hloop ▸ h.loop).eq rfl RunLoop.noConfusion
      rw [hloop']
      exact ⟨_, rfl, h.withLoop rfl⟩
    · cases ht
  | onRecvMessage i message =>
    refine h.client (f := fun s c ↦ onRecvMessage s c message) (fun c hc ↦ ?_) ht
    simp only [onRecvMessage] at hc ⊢
    split_ifs at hc ⊢
    · cases hc
      exact ⟨s', rfl, h⟩
    · exact h.sendToJs hc
  | pollWrite i =>
    refine h.client (f := fun s c ↦ pollWrite s i c) (fun c hc ↦ ?_) ht
    simp only [pollWrite] at hc ⊢
    split at hc
    · cases hc
      exact ⟨_, rfl, h.setClient i _⟩
    · cases hc
  | finish i reason =>
    refine h.client (f := fun s c ↦ finish s i c reason) (fun c hc ↦ ?_) ht
    simp only [finish] at hc ⊢
    split_ifs at hc ⊢
    cases hc
    exact ⟨_, rfl, h.setClient i _⟩
  | disconnect i =>
    refine h.client (f := fun s c ↦ disconnect s i c) (fun c hc ↦ ?_) ht
    simp only [disconnect] at hc ⊢
    split at hc
    · cases hc
      exact ⟨_, rfl, (h.setClient i _).withStatus _⟩
    · cases hc
  | notify i =>
    refine h.client (f := fun s c ↦ notify s i c) (fun c hc ↦ ?_) ht
    simp only [notify] at hc ⊢
    split at hc
    · obtain ⟨u, hu, rfl⟩ := Option.map_eq_some_iff.1 hc
      obtain ⟨u', hu', hspared⟩ := h.sendToJs hu
      exact ⟨_, by rw [sendMessageToJs, hu']; rfl, hspared.setClient i _⟩
    · cases hc

theorem Spared.step {a : Action} (h : Spared env s s') (hok : Tolerable env s a)
    (ht : step env s a = some t) : a.isHandling = true ∧ Spared env t s' ∨
      ∃ t', Sparing env s' a ∧ step env s' a = some t' ∧ Spared env t t' := by
  cases a with
  | js2rs i => exact (h.js2rs ht).imp_left fun hspared ↦ ⟨rfl, hspared⟩
  | recv =>
    obtain hspared | ⟨t', ht', hspared⟩ := h.recv hok ht
    · exact .inl ⟨rfl, hspared⟩
    · exact .inr ⟨t', trivial, ht', hspared⟩
  | advance =>
    obtain hspared | ⟨t', ht', hspared⟩ := h.advance hok ht
    · exact .inl ⟨rfl, hspared⟩
    · exact .inr ⟨t', trivial, ht', hspared⟩
  | rs2js =>
    obtain hspared | ⟨t', ht', hspared⟩ := h.rs2js ht
    · exact .inl ⟨rfl, hspared⟩
    · exact .inr ⟨t', trivial, ht', hspared⟩
  | login | control | listen => exact hok.elim
  | invoke | doConnect | onRecvMessage | pollWrite | finish | disconnect | notify =>
    obtain ⟨t', ht', hspared⟩ := h.outside rfl hok ht
    exact .inr ⟨t', trivial, ht', hspared⟩

def HandlesBad (env : Env) (s : State) : Action → Prop
  | .recv => ∃ input ∈ s.fromJs.head?, isBad env input = true
  | .advance => ∃ message, s.loop = .examining message ∧
      env.readConnectRequest message.data = none
  | _ => False

/-- A bad input touches neither the status nor the sender nor a connection. -/
theorem unchanged_of_handlesBad {a : Action} (h : HandlesBad env s a)
    (ht : Service.step env s a = some t) :
    t.status = s.status ∧ t.tx = s.tx ∧ t.clients = s.clients := by
  have hexamines {loop : RunLoop} (hloop : s.loop = loop)
      (hne : ∀ message, loop ≠ .examining message) (h : HandlesBad env s .advance) :
      t.status = s.status ∧ t.tx = s.tx ∧ t.clients = s.clients := by
    obtain ⟨message, hexamining, _⟩ := h
    exact absurd (hloop.symm.trans hexamining) (hne message)
  cases step_outcome ht with
  | misread | request | other | confirm | ignore | reject | accept => exact ⟨rfl, rfl, rfl⟩
  | reply hloop | start hloop | store hloop | settle hloop | announce hloop | spawn hloop
  | fail hloop | refuse hloop | forward hloop => exact hexamines hloop (by simp) h
  | _ => exact h.elim

/-- An input that is not tolerated is the end of the loop. -/
theorem failed_of_not_tolerable {a : Action} (ha : a = .recv ∨ a = .advance)
    (h : ¬ Tolerable env s a) (ht : Service.step env s a = some t) : t.loop = .failed := by
  obtain rfl | rfl := ha
  · simp only [Tolerable, not_forall] at h
    obtain ⟨input, hinput, hread⟩ := h
    cases step_outcome ht with
    | misread => rfl
    | request _ hjs hsome | other _ hjs hsome =>
      rw [hjs] at hinput
      cases hinput
      rw [hsome] at hread
      exact absurd rfl hread
  · simp only [Tolerable, not_forall, not_not] at h
    obtain ⟨message, hloop, hread, hstatus⟩ := h
    simp only [Service.step, Service.advance, hloop, Service.onConnectRequest, hstatus, hread,
      Option.some.injEq] at ht
    exact ht ▸ rfl

theorem Spared.failed_iff {a : Action} (h : Spared env s s') (ha : a = .recv ∨ a = .advance)
    (ht : Service.step env s a = some t) : t.loop = .failed ↔ ¬ Tolerable env s a := by
  refine ⟨fun hfailed hok ↦ ?_, fun hbad ↦ failed_of_not_tolerable ha hbad ht⟩
  obtain ⟨_, hspared⟩ | ⟨_, _, _, hspared⟩ := h.step hok ht
  · exact hspared.loop.ne_failed.1 hfailed
  · exact hspared.loop.ne_failed.1 hfailed

/-- A bad input is handled as if it had never been given to the service: what is left of a run
without the steps for it goes the same way. The loop is over at the first one that is not
tolerated. -/
theorem bad_inputs_leave_no_trace {as : List Action}
    (h : Run (Service.step env) (Tolerable env) .init as s) :
    s.loop ≠ .failed ∧
    (∀ a t, a = .recv ∨ a = .advance → Service.step env s a = some t →
      (t.loop = .failed ↔ ¬ Tolerable env s a)) ∧
    (∀ a t, HandlesBad env s a → Service.step env s a = some t →
      t.status = s.status ∧ t.tx = s.tx ∧ t.clients = s.clients) ∧
    ∃ bs s', bs.Sublist as ∧
      bs.filter (!·.isHandling) = as.filter (!·.isHandling) ∧
      Run (Service.step env) (Sparing env) .init bs s' ∧ Spared env s s' := by
  have hinit : Spared env .init .init :=
    ⟨rfl, rfl, rfl, .plain rfl, .inl rfl, rfl, .slnil, .nil⟩
  obtain ⟨bs, s', hsub, hfilter, hrun, hspared⟩ := h.thin Action.isHandling hinit
    fun s s' a t hs hok ht ↦ hs.step hok ht
  exact ⟨hspared.loop.ne_failed.1, fun a t ↦ hspared.failed_iff, fun a t ↦ unchanged_of_handlesBad,
    bs, s', hsub, hfilter, hrun, hspared⟩

theorem failed_step {a : Action} (hs : s.loop = .failed) (ht : Service.step env s a = some t) :
    t.loop = .failed ∧ t.tx = s.tx := by
  have hstays {loop : RunLoop} (hloop : s.loop = loop) (hne : loop ≠ .failed) :
      t.loop = .failed ∧ t.tx = s.tx := absurd (hloop.symm.trans hs) hne
  cases step_outcome ht with
  | login | control | invoke | submit | turnAway | ping | relay | write | finish | disconnect
  | notify | emit | hear => exact ⟨hs, rfl⟩
  | misread hloop | request hloop | other hloop | confirm hloop | ignore hloop | reject hloop
  | accept hloop | reply hloop | start hloop | store hloop | settle hloop | announce hloop
  | spawn hloop | fail hloop | refuse hloop | forward hloop | connect hloop | miss hloop =>
    exact hstays hloop (by simp)

/-- Nothing that is sent afterwards is handled. -/
theorem failed_of_run {ok : State → Action → Prop} {as : List Action}
    (h : Run (Service.step env) ok s as t) (hs : s.loop = .failed) :
    t.loop = .failed ∧ t.tx = s.tx := by
  refine h.invariant (I := fun u ↦ u.loop = .failed ∧ u.tx = s.tx) (fun u a v hu _ hv ↦ ?_)
    ⟨hs, rfl⟩
  obtain ⟨hloop, htx⟩ := failed_step hu.1 hv
  exact ⟨hloop, htx.trans hu.2⟩

end

/-- A connection, a request for it that cannot be read, and a message over it. -/
def repeatedRequest : List Action :=
  [.invoke (sendMessageToRust (⟨"h"⟩ : ConnectRequest)), .js2rs 0, .recv, .advance, .advance,
    .doConnect (.ok ()), .advance, .advance, .advance, .advance, .rs2js,
    .invoke (Json.toString (⟨"ConnectRequest", ""⟩ : Message)), .js2rs 1, .recv, .advance,
    .advance, .rs2js, .invoke (Json.toString (⟨"a", ""⟩ : Message)), .js2rs 2, .recv, .advance]

theorem repeated_request_leaves_no_trace :
    ∃ s, Run (step pageEnv) (Tolerable pageEnv) .init repeatedRequest s ∧
      s.clients = [⟨.running, [⟨"a", ""⟩], []⟩] ∧
      ∃ bs s', bs.Sublist repeatedRequest ∧ Run (step pageEnv) (Sparing pageEnv) .init bs s' ∧
        s'.status = s.status ∧ s'.clients = [⟨.running, [⟨"a", ""⟩], []⟩] := by
  have hrun : ∃ s, Run (step pageEnv) (Tolerable pageEnv) .init repeatedRequest s ∧
      s.clients = [⟨.running, [⟨"a", ""⟩], []⟩] := Run.exists_of_execute (by decide +kernel)
  obtain ⟨s, hs, hclients⟩ := hrun
  obtain ⟨_, _, _, bs, s', hsub, _, hbs, hspared⟩ := bad_inputs_leave_no_trace hs
  exact ⟨s, hs, hclients, bs, s', hsub, hbs, hspared.status, hspared.clients.trans hclients⟩

/-- After one text that is no message, no request to connect is ever handled again, while without it
the first one is. -/
theorem unreadable_text_stops_the_service :
    (∃ s, Run (step pageEnv) Any .init [.invoke "?", .js2rs 0, .recv] s ∧
      isBad pageEnv "?" = true ∧
      ∀ as t, Run (step pageEnv) Any s as t → t.loop = .failed ∧ t.tx = none) ∧
    ∃ s, Run (step pageEnv) Any .init connection s ∧ s.status = .connected ∧ s.tx = some 0 := by
  refine ⟨?_, Run.exists_of_execute (by decide +kernel)⟩
  have hrun : ∃ s, Run (step pageEnv) Any .init [.invoke "?", .js2rs 0, .recv] s ∧
      (s.loop = .failed ∧ s.tx = none) := Run.exists_of_execute (by decide +kernel)
  obtain ⟨s, hs, hloop, htx⟩ := hrun
  refine ⟨s, hs, by decide +kernel, fun as t ht ↦ ?_⟩
  obtain ⟨hloop', htx'⟩ := failed_of_run ht hloop
  exact ⟨hloop', htx'.trans htx⟩

end MusicRemote.Control.Service
