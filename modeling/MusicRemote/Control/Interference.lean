import MusicRemote.Control.Agreement
import Mathlib.Data.List.Forall2

namespace MusicRemote.Control.Service

open Protocol Protocol.Json Foundation.Transition

inductive Action.Alike : Action → Action → Prop
  | refl (a : Action) : Alike a a
  | onRecvMessage (i : ℕ) {m m' : Message} : m.name ≠ "Ping" → m'.name ≠ "Ping" →
      Alike (.onRecvMessage i m) (.onRecvMessage i m')

def Announced (text : String) : Prop :=
  (∃ r : ConnectResponse, text = Json.toString (messageOf r)) ∨
    ∃ n : DisconnectNtf, text = Json.toString (messageOf n)

def Relayed (text : String) : Prop :=
  ∃ m : Message, text = Json.toString m ∧ isLocalName m.name = false

def Akin (x y : String) : Prop := x = y ∧ Announced x ∨ Relayed x ∧ Relayed y

def State.withOutput (s : State) (toJs events : List String) : State :=
  { s with toJs := toJs, events := events }

/-- The states differ only in what the server has sent. -/
def Alike (s t : State) : Prop :=
  ∃ toJs events, t = s.withOutput toJs events ∧ List.Forall₂ Akin s.toJs toJs ∧
    List.Forall₂ Akin s.events events

section

variable {env : Env} {s s' t : State}

/-- The step neither reads nor writes what is on its way to the page. -/
def Apart (f : State → Option State) (s : State) : Prop :=
  ∀ toJs events, f (s.withOutput toJs events) = (f s).map (·.withOutput toJs events)

theorem Apart.alike {f : State → Option State} (hf : Apart f s) (h : Alike s s')
    (ht : f s = some t) : ∃ t', f s' = some t' ∧ Alike t t' := by
  obtain ⟨toJs, events, rfl, hj, he⟩ := h
  have hkeep : t = t.withOutput s.toJs s.events := by
    have hs : f s = (f s).map (·.withOutput s.toJs s.events) := hf s.toJs s.events
    rw [ht, Option.map_some, Option.some.injEq] at hs
    exact hs
  have ht' := hf toJs events
  rw [ht, Option.map_some] at ht'
  refine ⟨_, ht', toJs, events, rfl, ?_, ?_⟩
  · rwa [hkeep]
  · rwa [hkeep]

theorem Apart.client {f : State → Client → Option State} (hf : ∀ c, Apart (f · c) s) (i : ℕ) :
    Apart (fun s ↦ s.clients[i]?.bind (f s)) s := by
  intro toJs events
  change s.clients[i]?.bind (f (s.withOutput toJs events)) =
    (s.clients[i]?.bind (f s)).map (·.withOutput toJs events)
  cases s.clients[i]? with
  | none => rfl
  | some c => exact hf c toJs events

theorem apart_onClickLogin (serverAdress : String) : Apart (onClickLogin · serverAdress) s := by
  intro toJs events
  by_cases h : s.serviceStatus = .connected <;> simp [onClickLogin, State.withOutput, h]

theorem apart_onClickControl (button : Button) (clientToken authorizationCode : String) :
    Apart (onClickControl · button clientToken authorizationCode) s := by
  intro toJs events
  by_cases h : s.serviceStatus = .connected <;> simp [onClickControl, State.withOutput, h]

theorem apart_js2rs (i : ℕ) : Apart (js2rs · i) s := by
  intro toJs events
  simp only [js2rs, State.withOutput]
  split
  · by_cases hl : s.loop = .failed
    · simp [*]
    · by_cases hroom : s.fromJs.length < capacity <;> simp [*]
  · simp [*]

theorem apart_recv (env : Env) : Apart (recv env) s := by
  intro toJs events
  simp only [recv, State.withOutput]
  split
  · split
    · simp [*]
    · split_ifs <;> simp [*]
  · simp [*]

theorem apart_doConnect (result : Except String Unit) : Apart (doConnect · result) s := by
  intro toJs events
  simp only [doConnect, State.withOutput]
  split <;> simp [*]

theorem apart_pollWrite (i : ℕ) (c : Client) : Apart (pollWrite · i c) s := by
  intro toJs events
  simp only [pollWrite]
  split <;> rfl

theorem apart_finish (i : ℕ) (c : Client) (reason : String) : Apart (finish · i c reason) s := by
  intro toJs events
  simp only [finish]
  split <;> rfl

theorem apart_disconnect (i : ℕ) (c : Client) : Apart (disconnect · i c) s := by
  intro toJs events
  simp only [disconnect]
  split <;> rfl

def RunLoop.posts : RunLoop → Bool
  | .replying | .announcing | .refusing _ => true
  | _ => false

theorem apart_advance (env : Env) (h : s.loop.posts = false) : Apart (advance env) s := by
  intro toJs events
  cases hl : s.loop with
  | replying | announcing | refusing => rw [hl] at h; cases h
  | examining message =>
    simp only [advance, State.withOutput, hl, onConnectRequest, Option.map_some]
    split
    · simp [*]
    · simp [*]
    · split <;> simp [*]
  | _ => simp [advance, State.withOutput, hl, forward]

theorem Alike.sendToJs {x y : String} (h : Alike s s') (hxy : Akin x y)
    (ht : s.sendToJs x = some t) : ∃ t', s'.sendToJs y = some t' ∧ Alike t t' := by
  obtain ⟨toJs, events, rfl, hj, he⟩ := h
  simp only [State.sendToJs, Option.ite_none_right_eq_some, Option.some.injEq] at ht
  obtain ⟨hroom, rfl⟩ := ht
  refine ⟨s.withOutput (toJs ++ [y]) events, ?_, toJs ++ [y], events, rfl, ?_, he⟩
  · rw [hj.length_eq] at hroom
    simp [State.sendToJs, State.withOutput, hroom]
  · exact List.rel_append hj (.cons hxy .nil)

/-- The service posts a message of its own and goes on. -/
theorem Alike.announce {α : Type} [Serialize α] {data : α} {g : State → State} (h : Alike s s')
    (hx : Announced (Json.toString (messageOf data))) (hg : ∀ s, Apart (fun s ↦ some (g s)) s)
    (ht : (sendMessageToJs s data).map g = some t) :
    ∃ t', (sendMessageToJs s' data).map g = some t' ∧ Alike t t' := by
  obtain ⟨u, hu, rfl⟩ := Option.map_eq_some_iff.1 ht
  obtain ⟨u', hu', ha⟩ := h.sendToJs (.inl ⟨rfl, hx⟩) hu
  rw [sendMessageToJs, hu', Option.map_some]
  exact (hg u).alike ha rfl

theorem announced_response (r : ConnectResponse) : Announced (Json.toString (messageOf r)) :=
  .inl ⟨r, rfl⟩

theorem announced_ntf (n : DisconnectNtf) : Announced (Json.toString (messageOf n)) :=
  .inr ⟨n, rfl⟩

theorem Alike.loop (h : Alike s s') : s'.loop = s.loop := by
  obtain ⟨toJs, events, rfl, -⟩ := h
  rfl

theorem Alike.clients (h : Alike s s') : s'.clients = s.clients := by
  obtain ⟨toJs, events, rfl, -⟩ := h
  rfl

theorem Alike.advance (h : Alike s s') (ht : advance env s = some t) :
    ∃ t', advance env s' = some t' ∧ Alike t t' := by
  cases hl : s.loop with
  | replying | announcing | refusing =>
    rw [Service.advance, hl] at ht
    rw [Service.advance, h.loop, hl]
    exact h.announce (announced_response _) (fun _ _ _ ↦ rfl) ht
  | _ => exact (apart_advance env (by rw [hl]; rfl)).alike h ht

theorem Alike.notify {i : ℕ} {c : Client} (h : Alike s s') (ht : notify s i c = some t) :
    ∃ t', notify s' i c = some t' ∧ Alike t t' := by
  unfold Service.notify at ht ⊢
  split at ht
  · exact h.announce (announced_ntf _) (fun _ _ _ ↦ rfl) ht
  · cases ht

theorem Alike.onRecvMessage {c : Client} {m m' : Message} (h : Alike s s')
    (hm : m.name ≠ "Ping") (hm' : m'.name ≠ "Ping") (hn : isLocalName m.name = false)
    (hn' : isLocalName m'.name = false) (ht : onRecvMessage s c m = some t) :
    ∃ t', onRecvMessage s' c m' = some t' ∧ Alike t t' := by
  simp only [Service.onRecvMessage, hm, hm', if_false, Option.ite_none_right_eq_some] at ht ⊢
  obtain ⟨hc, ht⟩ := ht
  obtain ⟨t', ht', ha⟩ := h.sendToJs (.inr ⟨⟨m, rfl, hn⟩, m', rfl, hn'⟩) ht
  exact ⟨t', ⟨hc, ht'⟩, ha⟩

theorem Alike.onPing {c : Client} {m : Message} (h : Alike s s') (hm : m.name = "Ping")
    (ht : Service.onRecvMessage s c m = some t) :
    ∃ t', Service.onRecvMessage s' c m = some t' ∧ Alike t t' := by
  simp only [Service.onRecvMessage, hm, if_true, Option.ite_none_right_eq_some,
    Option.some.injEq] at ht ⊢
  obtain ⟨hc, rfl⟩ := ht
  exact ⟨s', ⟨hc, rfl⟩, h⟩

theorem Alike.rs2js (h : Alike s s') (ht : rs2js s = some t) :
    ∃ t', rs2js s' = some t' ∧ Alike t t' := by
  obtain ⟨toJs, events, rfl, hj, he⟩ := h
  unfold Service.rs2js at ht
  split at ht
  · rename_i x xs hx
    rw [hx] at hj
    cases hj with
    | @cons _ y _ ys hxy hj =>
      refine ⟨s.withOutput ys (events ++ [y]), rfl, ys, events ++ [y], ?_, ?_, ?_⟩
      · rw [← Option.some.inj ht]
        rfl
      · rw [← Option.some.inj ht]
        exact hj
      · rw [← Option.some.inj ht]
        exact List.rel_append he (.cons hxy .nil)
  · cases ht

theorem listener_akin (hp : ∀ m : Message, env.parsePack (Json.toString m) = some m) {x y : String}
    (h : Akin x y) (st : ControlServiceStatus) : listener env st x = listener env st y := by
  obtain ⟨rfl, -⟩ | ⟨⟨m, rfl, hm⟩, m', rfl, hm'⟩ := h
  · rfl
  · rw [listener_relay (hp m) hm, listener_relay (hp m') hm']

theorem Alike.listen (hp : ∀ m : Message, env.parsePack (Json.toString m) = some m)
    (h : Alike s s') (ht : listen env s = some t) :
    ∃ t', listen env s' = some t' ∧ Alike t t' := by
  obtain ⟨toJs, events, rfl, hj, he⟩ := h
  unfold Service.listen at ht
  split at ht
  · rename_i x xs hx
    rw [hx] at he
    cases he with
    | @cons _ y _ ys hxy he =>
      refine ⟨_, rfl, toJs, ys, ?_, ?_, ?_⟩
      · rw [← Option.some.inj ht, listener_akin hp hxy]
        rfl
      · rw [← Option.some.inj ht]
        exact hj
      · rw [← Option.some.inj ht]
        exact he
  · cases ht

theorem step_alike {a b : Action} (hp : ∀ m : Message, env.parsePack (Json.toString m) = some m)
    (h : Alike s s') (hab : a.Alike b) (ha : a.usesLocalName = false)
    (hb : b.usesLocalName = false) (ht : step env s a = some t) :
    ∃ t', step env s' b = some t' ∧ Alike t t' := by
  cases hab with
  | onRecvMessage i hm hm' =>
    simp only [step, h.clients] at ht ⊢
    obtain ⟨c, hc, ht⟩ := Option.bind_eq_some_iff.1 ht
    rw [hc]
    exact h.onRecvMessage hm hm' ha hb ht
  | refl =>
    cases a with
    | login serverAdress => exact (apart_onClickLogin serverAdress).alike h ht
    | control button clientToken authorizationCode =>
      exact (apart_onClickControl button clientToken authorizationCode).alike h ht
    | invoke message =>
      have hf : Apart (step env · (.invoke message)) s := fun _ _ ↦ rfl
      exact hf.alike h ht
    | js2rs i => exact (apart_js2rs i).alike h ht
    | recv => exact (apart_recv env).alike h ht
    | advance => exact h.advance ht
    | doConnect result => exact (apart_doConnect result).alike h ht
    | onRecvMessage i message =>
      simp only [step, h.clients] at ht ⊢
      obtain ⟨c, hc, ht⟩ := Option.bind_eq_some_iff.1 ht
      rw [hc]
      by_cases hm : message.name = "Ping"
      · exact h.onPing hm ht
      · exact h.onRecvMessage hm hm ha ha ht
    | pollWrite i => exact (Apart.client (apart_pollWrite i) i).alike h ht
    | finish i reason => exact (Apart.client (apart_finish i · reason) i).alike h ht
    | disconnect i => exact (Apart.client (apart_disconnect i) i).alike h ht
    | notify i =>
      simp only [step, h.clients] at ht ⊢
      obtain ⟨c, hc, ht⟩ := Option.bind_eq_some_iff.1 ht
      rw [hc]
      exact h.notify ht
    | rs2js => exact h.rs2js ht
    | listen => exact h.listen hp ht

theorem announced_of_akin (hp : ∀ m : Message, env.parsePack (Json.toString m) = some m)
    {x y : String} {st : ControlServiceStatus} (h : Akin x y) (hx : listener env st x ≠ st) :
    Announced x := by
  obtain ⟨-, h⟩ | ⟨⟨m, rfl, hm⟩, -⟩ := h
  · exact h
  · exact absurd (listener_relay (hp m) hm st) hx

/-- What the server sends does not move the page's status. Whatever it sends, a run goes the same
way, and only what the service announces makes a difference to the page. -/
theorem status_ignores_the_server {as bs : List Action}
    (hp : ∀ m : Message, env.parsePack (Json.toString m) = some m)
    (hab : List.Forall₂ Action.Alike as bs) (ha : ∀ a ∈ as, a.usesLocalName = false)
    (hb : ∀ b ∈ bs, b.usesLocalName = false) (h : Run (step env) Any .init as s) :
    (∃ t, Run (step env) Any .init bs t) ∧
      observed (step env) State.serviceStatus .init as =
        observed (step env) State.serviceStatus .init bs ∧
      ∀ payload ∈ s.events, listener env s.serviceStatus payload ≠ s.serviceStatus →
        Announced payload := by
  have hr : Alike .init .init := ⟨[], [], rfl, .nil, .nil⟩
  have hl : List.Forall₂ (fun a b ↦ a.usesLocalName = false ∧ b.usesLocalName = false ∧
      Action.Alike a b) as bs :=
    (List.forall₂_and_left as bs).2 ⟨ha, ((List.forall₂_and_left bs as).2 ⟨hb, hab.flip⟩).flip⟩
  obtain ⟨t, ht, hst, ho⟩ := h.lockstep hl hr
    (fun s s' a b t hs hab ht ↦ step_alike hp hs hab.2.2 hab.1 hab.2.1 ht)
    (f := State.serviceStatus) (by rintro s s' ⟨toJs, events, rfl, -⟩; rfl)
  refine ⟨⟨t, ht⟩, ho, fun payload hm hne ↦ ?_⟩
  obtain ⟨toJs, events, -, -, he⟩ := hst
  obtain ⟨i, hi, rfl⟩ := List.getElem_of_mem hm
  exact announced_of_akin hp (he.get hi (he.length_eq ▸ hi)) hne

end

def relaying (m : Message) : List Action := connection ++ [.onRecvMessage 0 m, .rs2js, .listen]

theorem relaying_alike {m m' : Message} (hm : m.name ≠ "Ping") (hm' : m'.name ≠ "Ping") :
    List.Forall₂ Action.Alike (relaying m) (relaying m') := by
  have hrest (as : List Action) : List.Forall₂ Action.Alike as as :=
    List.forall₂_same.2 fun a _ ↦ .refl a
  exact List.rel_append (hrest connection) (.cons (.onRecvMessage 0 hm hm') (hrest _))

theorem usesLocalName_relaying {m : Message} (hm : isLocalName m.name = false) :
    ∀ a ∈ relaying m, a.usesLocalName = false := by
  simp [relaying, connection, Action.usesLocalName, hm]

/-- The answer to a key event, against a message that the page does not know. -/
theorem answers_leave_the_status :
    observed (step pageEnv) State.serviceStatus .init
        (relaying (messageOf (⟨true, ""⟩ : SendControlMediaKeyEventResponse))) =
      observed (step pageEnv) State.serviceStatus .init (relaying ⟨"Farewell", ""⟩) := by
  obtain ⟨s, hs, -⟩ : ∃ s, Run (step pageEnv) Any .init
      (relaying (messageOf (⟨true, ""⟩ : SendControlMediaKeyEventResponse))) s ∧ True :=
    Run.exists_of_execute (by decide +kernel)
  exact (status_ignores_the_server Env.Lawful.pageEnv.pack
    (relaying_alike (by decide) (by decide)) (usesLocalName_relaying (by decide))
    (usesLocalName_relaying (by decide)) hs).2.1

/-- A server that sends a `DisconnectNtf` of its own turns the page away from a connection that
stands. -/
theorem server_turns_the_page :
    List.Forall₂ Action.Alike (relaying (messageOf (⟨"bye"⟩ : DisconnectNtf)))
        (relaying ⟨"Farewell", ""⟩) ∧
      ∃ s t, Run (step pageEnv) Any .init (relaying (messageOf (⟨"bye"⟩ : DisconnectNtf))) s ∧
        Run (step pageEnv) Any .init (relaying ⟨"Farewell", ""⟩) t ∧
        s.serviceStatus = .disconnected ∧ t.serviceStatus = .connected ∧
        s.status = .connected ∧ t.status = .connected ∧
        observed (step pageEnv) State.serviceStatus .init
            (relaying (messageOf (⟨"bye"⟩ : DisconnectNtf))) ≠
          observed (step pageEnv) State.serviceStatus .init (relaying ⟨"Farewell", ""⟩) := by
  refine ⟨relaying_alike (by decide) (by decide), ?_⟩
  obtain ⟨s, hs, hst, hss⟩ : ∃ s, Run (step pageEnv) Any .init
      (relaying (messageOf (⟨"bye"⟩ : DisconnectNtf))) s ∧
        s.serviceStatus = .disconnected ∧ s.status = .connected :=
    Run.exists_of_execute (by decide +kernel)
  obtain ⟨t, ht, htt, hts⟩ : ∃ t, Run (step pageEnv) Any .init (relaying ⟨"Farewell", ""⟩) t ∧
      t.serviceStatus = .connected ∧ t.status = .connected :=
    Run.exists_of_execute (by decide +kernel)
  refine ⟨s, t, hs, ht, hst, htt, hss, hts, fun ho ↦ ?_⟩
  have hlast := congrArg List.getLast? ho
  rw [hs.getLast?_observed, ht.getLast?_observed, hst, htt] at hlast
  cases hlast

end MusicRemote.Control.Service
