import MusicRemote.Control.Clicks
import MusicRemote.Control.Routing
import MusicRemote.Protocol.Deserialize

namespace MusicRemote.Control

open Protocol Protocol.Json Foundation.Transition

def Service.Action.presses : Service.Action → List SendControlMediaKeyEventRequest
  | .control button clientToken authorizationCode =>
    [⟨0, button.code, clientToken, authorizationCode⟩,
      ⟨1, button.code, clientToken, authorizationCode⟩]
  | _ => []

namespace Routing

open Service (Env)

def Paged (s : State) : Action → Prop
  | .service a => Service.Paged s.service a
  | .writer _ _ => True

instance (s : State) (a : Action) : Decidable (Paged s a) := by
  unfold Paged
  split <;> infer_instance

def Action.service? : Action → Option Service.Action
  | .service a => some a
  | .writer _ _ => none

def State.allTaken (s : State) : List Message := (List.range (s.stored + 1)).flatMap s.taken

/-- The loop hands on what it can read and what is not for itself. -/
def forwardable (env : Env) (text : String) : Option Message :=
  (env.readMessage text).filter (·.name ≠ "ConnectRequest")

def press (text : String) : Option SendControlMediaKeyEventRequest :=
  (fromStr text).bind fun message : Message ↦
    if message.name = "SendControlMediaKeyEventRequest" then fromStr message.data else none

section

variable {env : Env} {s t : State} {as : List Action}

theorem service_shown {a : Option Action} (h : Shown (step env) s a t) :
    Shown (Service.step env) s.service (a.bind Action.service?) t.service := by
  cases a with
  | none => exact congrArg State.service h
  | some a =>
    change step env s a = some t at h
    cases a with
    | service a =>
      simp only [step, Option.bind_eq_some_iff, Option.map_eq_some_iff] at h
      obtain ⟨service, hservice, writers, -, rfl⟩ := h
      exact hservice
    | writer i a =>
      simp only [step, Option.ite_none_right_eq_some, Option.map_eq_some_iff] at h
      obtain ⟨-, writers, -, rfl⟩ := h
      rfl

theorem service_of_run (h : Run (step env) Paged .init as s) :
    Run (Service.step env) Service.Paged .init (as.filterMap Action.service?) s.service := by
  rw [← h.traced_eq_filterMap]
  refine h.simulate_ok State.service (fun _ a ↦ a.service?) fun _ u a v _ ha hv ↦
    ⟨service_shown (a := some a) hv, fun b hb ↦ ?_⟩
  cases a with
  | service a =>
    cases hb
    exact ha
  | writer => cases hb

theorem takes_eq (env : Env) (s : Service.State) (a : Service.Action) :
    takes env s a = (Service.received s a).bind (forwardable env) := by
  cases a with
  | recv => cases h : s.fromJs.head? <;> simp [takes, Service.received, forwardable, h]
  | _ => rfl

theorem flatMap_range_update (f : ℕ → List Message) (n : ℕ) (xs : List Message) :
    (List.range (n + 1)).flatMap (Function.update f n (f n ++ xs)) =
      (List.range (n + 1)).flatMap f ++ xs := by
  have hold : (List.range n).flatMap (Function.update f n (f n ++ xs)) =
      (List.range n).flatMap f := by
    refine List.flatMap_congr fun k hk ↦ ?_
    rw [Function.update_of_ne (Nat.ne_of_lt (List.mem_range.1 hk))]
  rw [List.range_succ, List.flatMap_append, List.flatMap_append, hold]
  simp

theorem allTaken_step {a : Service.Action} (hunborn : ∀ k, s.stored < k → s.taken k = [])
    (h : step env s (.service a) = some t) :
    t.allTaken = s.allTaken ++ ((Service.received s.service a).bind (forwardable env)).toList := by
  simp only [step, Option.bind_eq_some_iff, Option.map_eq_some_iff] at h
  obtain ⟨service, -, writers, -, rfl⟩ := h
  have hsame := flatMap_range_update s.taken s.stored (takes env s.service a).toList
  rw [← takes_eq, State.allTaken, State.allTaken, ← hsame]
  cases stores s.service a with
  | false => rfl
  | true =>
    dsimp only [Bool.toNat_true]
    rw [List.range_succ (n := s.stored + 1), List.flatMap_append, List.flatMap_singleton,
      Function.update_of_ne (Nat.succ_ne_self _), hunborn _ (Nat.lt_succ_self _), List.append_nil]

theorem allTaken_of_run (h : Run (step env) Paged .init as s) :
    s.allTaken = (traced (Service.step env) Service.received .init
      (as.filterMap Action.service?)).filterMap (forwardable env) := by
  refine (h.history (I := fun bs u ↦ Run (step env) Paged .init bs u ∧
    u.allTaken = (traced (Service.step env) Service.received .init
      (bs.filterMap Action.service?)).filterMap (forwardable env))
    (fun bs u a v hu ha hv ↦ ⟨hu.1.trans (.one ha hv), ?_⟩) ⟨.nil _, rfl⟩).2
  cases a with
  | service a =>
    have hservice := service_of_run hu.1
    rw [allTaken_step (routed_of_run hu.1.any).unborn hv, List.filterMap_append, hu.2]
    change _ = List.filterMap _ (traced _ _ _ (_ ++ [a]))
    rw [hservice.traced_concat, List.filterMap_append]
    cases hr : Service.received u.service a with
    | none => rfl
    | some text => cases hf : forwardable env text <;> simp [hf]
  | writer i a =>
    simp only [step, Option.ite_none_right_eq_some, Option.map_eq_some_iff] at hv
    obtain ⟨-, writers, -, rfl⟩ := hv
    have hnone : [Action.writer i a].filterMap Action.service? = [] := rfl
    rw [List.filterMap_append, hnone, List.append_nil]
    exact hu.2

theorem press_connect (request : ConnectRequest) :
    press (Service.sendMessageToRust request) = none := by
  have hname : (messageOf request).name ≠ "SendControlMediaKeyEventRequest" := by
    change "ConnectRequest" ≠ "SendControlMediaKeyEventRequest"
    decide
  rw [press, Service.sendMessageToRust, fromStr_message, Option.bind_some, if_neg hname]

theorem press_request (request : SendControlMediaKeyEventRequest) :
    press (Service.sendMessageToRust request) = some request := by
  have hname : (messageOf request).name = "SendControlMediaKeyEventRequest" := rfl
  rw [press, Service.sendMessageToRust, fromStr_message, Option.bind_some, if_pos hname]
  exact fromStr_request request

theorem filterMap_press {a : Service.Action} {u : Service.State} (ha : Service.Paged u a) :
    a.texts.filterMap press = a.presses := by
  cases a with
  | login serverAdress =>
    simp [Service.Action.texts, Service.Action.presses, press_connect]
  | control button clientToken authorizationCode =>
    simp [Service.Action.texts, Service.Action.presses, press_request]
  | invoke => cases ha
  | _ => rfl

theorem forwardable_of_page (he : env.Reads) {m : Message} (h : Service.OfPage m) :
    forwardable env (Json.toString m) = (press (Json.toString m)).map messageOf := by
  rw [forwardable, he.message]
  cases h with
  | connect request =>
    have hpress : press (Json.toString (messageOf request)) = none := press_connect request
    have hname : (messageOf request).name = "ConnectRequest" := rfl
    rw [hpress]
    simp [hname]
  | press request =>
    have hpress : press (Json.toString (messageOf request)) = some request := press_request request
    have hname : (messageOf request).name ≠ "ConnectRequest" := by
      change "SendControlMediaKeyEventRequest" ≠ "ConnectRequest"
      decide
    rw [hpress]
    simp [hname]

/-- What the loop takes for a connection are requests that were clicked, each as often at most. -/
theorem taken_subperm (he : env.Reads) (h : Run (step env) Paged .init as s) (k : ℕ) :
    ∃ requests : List SendControlMediaKeyEventRequest, s.taken k = requests.map messageOf ∧
      requests.Subperm ((as.filterMap Action.service?).flatMap Service.Action.presses) := by
  have hservice := service_of_run h
  have hpaged : ∀ a ∈ as.filterMap Action.service?, ∃ u, Service.Paged u a :=
    hservice.forall_mem fun u a ha ↦ ⟨u, ha⟩
  have hperm := Service.texts_of_run he hservice
  have hall := allTaken_of_run h
  set clicks := as.filterMap Action.service?
  set texts := traced (Service.step env) Service.received .init clicks with htexts
  have hpage : ∀ text ∈ texts, ∃ m, Service.OfPage m ∧ text = Json.toString m := by
    intro text htext
    obtain ⟨a, ha, hmem⟩ := List.mem_flatMap.1 (hperm.subset (List.mem_append_left _ htext))
    obtain ⟨u, hu⟩ := hpaged a ha
    exact Service.ofPage_texts hu text hmem
  have hpresses : (clicks.flatMap Service.Action.texts).filterMap press =
      clicks.flatMap Service.Action.presses := by
    rw [List.filterMap_flatMap]
    refine List.flatMap_congr fun a ha ↦ ?_
    obtain ⟨u, hu⟩ := hpaged a ha
    exact filterMap_press hu
  have htaken : s.allTaken = (texts.filterMap press).map messageOf := by
    rw [hall, List.map_filterMap]
    refine List.filterMap_congr fun text htext ↦ ?_
    obtain ⟨m, hm, rfl⟩ := hpage text htext
    exact forwardable_of_page he hm
  have hsub : (s.taken k).Sublist s.allTaken := by
    by_cases hk : k ≤ s.stored
    · exact List.sublist_flatten_of_mem (List.mem_map_of_mem (List.mem_range.2 (by omega)))
    · rw [(routed_of_run h.any).unborn k (by omega)]
      exact List.nil_sublist _
  rw [htaken, List.sublist_map_iff] at hsub
  obtain ⟨requests, hrequests, heq⟩ := hsub
  refine ⟨requests, heq, hrequests.subperm.trans ?_⟩
  rw [← hpresses]
  refine List.Subperm.trans ?_ (hperm.filterMap press).subperm
  rw [List.filterMap_append]
  exact (List.sublist_append_left _ _).subperm

end

end Routing

end MusicRemote.Control
