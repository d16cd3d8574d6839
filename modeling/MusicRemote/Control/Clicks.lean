import MusicRemote.Control.Agreement
import MusicRemote.Control.Outcome

namespace MusicRemote.Control.Service

open Protocol Protocol.Json Foundation.Transition

def State.texts (s : State) : List String := s.fromJs ++ s.handlers.flatten

def Action.texts : Action → List String
  | .login serverAdress => [sendMessageToRust (⟨serverAdress⟩ : ConnectRequest)]
  | .control button clientToken authorizationCode =>
    [sendMessageToRust (⟨0, button.code, clientToken, authorizationCode⟩ :
        SendControlMediaKeyEventRequest),
      sendMessageToRust (⟨1, button.code, clientToken, authorizationCode⟩ :
        SendControlMediaKeyEventRequest)]
  | .invoke message => [message]
  | _ => []

def received (s : State) : Action → Option String
  | .recv => s.fromJs.head?
  | _ => none

def RunLoop.message : RunLoop → Option Message
  | .examining message | .forwarding message => some message
  | _ => none

/-- Only the handlers of the page call `js2rs`. -/
def Paged (_ : State) : Action → Prop
  | .invoke _ => False
  | _ => True

instance (s : State) (a : Action) : Decidable (Paged s a) := by
  unfold Paged
  split <;> infer_instance

structure Env.Reads (env : Env) : Prop where
  message : ∀ m : Message, env.readMessage (Json.toString m) = some m
  request : ∀ r : ConnectRequest, env.readConnectRequest (Json.toString r) = some r

theorem Env.Reads.pageEnv : pageEnv.Reads where
  message := parseMessage_toString
  request := parseConnectRequest_toString

inductive OfPage : Message → Prop
  | connect (request : ConnectRequest) : OfPage (messageOf request)
  | press (request : SendControlMediaKeyEventRequest) : OfPage (messageOf request)

section

variable {env : Env} {s t : State} {a : Action}

theorem flatten_set_perm {l : List (List String)} {i : ℕ} {x : String} {xs : List String}
    (h : l[i]? = some (x :: xs)) : l.flatten.Perm (x :: (l.set i xs).flatten) := by
  induction l generalizing i with
  | nil => cases h
  | cons ys l ih =>
    cases i with
    | zero =>
      rw [List.getElem?_cons_zero, Option.some.injEq] at h
      subst h
      exact .refl _
    | succ i => exact ((ih h).append_left ys).trans List.perm_middle

/-- No text is lost or doubled on the way from the page to the loop. -/
theorem texts_step (hs : s.loop ≠ .failed) (h : step env s a = some t) :
    ((received s a).toList ++ t.texts).Perm (s.texts ++ a.texts) := by
  cases step_outcome h with
  | login | control | invoke => simp [State.texts, received, Action.texts]
  | submit _ hi =>
    simp only [received, Action.texts, Option.toList_none, List.nil_append, List.append_nil,
      State.texts, List.append_assoc]
    exact (flatten_set_perm hi).symm.append_left s.fromJs
  | turnAway hfailed => exact absurd hfailed hs
  | misread _ hjs | request _ hjs | other _ hjs => simp [State.texts, received, Action.texts, hjs]
  | _ => simp [State.texts, received, Action.texts, State.setClient]

/-- What the loop has in hand it has taken. -/
theorem message_step {m : Message} (h : step env s a = some t) (hm : t.loop.message = some m) :
    s.loop.message = some m ∨ ∃ text, received s a = some text ∧ env.readMessage text = some m := by
  cases step_outcome h with
  | request _ hjs hread | other _ hjs hread =>
    cases hm
    exact .inr ⟨_, by rw [received, hjs]; rfl, hread⟩
  | login | control | invoke | submit | turnAway | ping | relay | write | finish | disconnect
  | notify | emit | hear => exact .inl hm
  | _ => cases hm

theorem ofPage_texts (ha : Paged s a) :
    ∀ text ∈ a.texts, ∃ m, OfPage m ∧ text = Json.toString m := by
  cases a with
  | login serverAdress =>
    intro text htext
    rw [List.mem_singleton.1 htext]
    exact ⟨_, .connect ⟨serverAdress⟩, rfl⟩
  | control button clientToken authorizationCode =>
    intro text htext
    simp only [Action.texts, List.mem_cons, List.not_mem_nil, or_false] at htext
    rcases htext with rfl | rfl
    · exact ⟨_, .press _, rfl⟩
    · exact ⟨_, .press _, rfl⟩
  | invoke => cases ha
  | _ => exact fun _ htext ↦ by cases htext

/-- The loop has only messages of the page to do with, and goes on. -/
structure State.Served (s : State) : Prop where
  texts : ∀ text ∈ s.texts, ∃ m, OfPage m ∧ text = Json.toString m
  message : ∀ m, s.loop.message = some m → OfPage m
  examining : ∀ m, s.loop = .examining m → m.name = "ConnectRequest"
  running : s.loop ≠ .failed

theorem OfPage.request {m : Message} (h : OfPage m) (hname : m.name = "ConnectRequest") :
    ∃ r : ConnectRequest, m = messageOf r := by
  cases h with
  | connect r => exact ⟨r, rfl⟩
  | press r =>
    have hne : "SendControlMediaKeyEventRequest" ≠ "ConnectRequest" := by decide
    exact absurd hname hne

theorem mem_texts_of_received {text : String} (h : received s a = some text) :
    text ∈ s.texts := by
  cases a with
  | recv => exact List.mem_append_left _ (List.mem_of_head? h)
  | _ => cases h

theorem State.Served.step (he : env.Reads) (hs : s.Served) (ha : Paged s a)
    (h : step env s a = some t) : t.Served := by
  have hperm := texts_step hs.running h
  have hread {text : String} {m : Message} (htext : text ∈ s.texts)
      (hm : env.readMessage text = some m) : OfPage m := by
    obtain ⟨m', hpage, rfl⟩ := hs.texts text htext
    rw [he.message, Option.some.injEq] at hm
    exact hm ▸ hpage
  refine ⟨fun text htext ↦ ?_, fun m hm ↦ ?_, ?_, ?_⟩
  · rcases List.mem_append.1 (hperm.subset (List.mem_append_right _ htext)) with hold | hnew
    · exact hs.texts text hold
    · exact ofPage_texts ha text hnew
  · rcases message_step h hm with hold | ⟨text, htext, hm⟩
    · exact hs.message m hold
    · exact hread (mem_texts_of_received htext) hm
  · cases step_outcome h with
    | request _ _ _ hname =>
      intro m hm
      cases hm
      exact hname
    | login | control | invoke | submit | turnAway | ping | relay | write | finish | disconnect
    | notify | emit | hear => exact hs.examining
    | _ => exact fun m hm ↦ by cases hm
  · cases step_outcome h with
    | @misread input fromJs _ hjs hnone =>
      have hmem : input ∈ s.texts := List.mem_append_left _ (hjs ▸ List.mem_cons_self)
      obtain ⟨m, _, rfl⟩ := hs.texts _ hmem
      rw [he.message] at hnone
      cases hnone
    | @reject message hloop _ hnone =>
      have hmessage : OfPage message := hs.message message (by rw [hloop]; rfl)
      obtain ⟨r, rfl⟩ := hmessage.request (hs.examining _ hloop)
      have hsome : env.readConnectRequest (messageOf r).data = some r := he.request r
      rw [hsome] at hnone
      cases hnone
    | login | control | invoke | submit | turnAway | ping | relay | write | finish | disconnect
    | notify | emit | hear => exact hs.running
    | _ => exact fun hfailed ↦ by cases hfailed

theorem served_init : State.init.Served :=
  ⟨(fun _ htext ↦ by cases htext), (fun _ hm ↦ by cases hm), (fun _ hm ↦ by cases hm),
    (fun hfailed ↦ by cases hfailed)⟩

theorem served_of_run (he : env.Reads) {as : List Action}
    (h : Run (Service.step env) Paged .init as s) : s.Served :=
  h.invariant (fun _ _ _ hs ha ht ↦ hs.step he ha ht) served_init

/-- The loop takes every text of the page once, and nothing else. -/
theorem texts_of_run (he : env.Reads) {as : List Action}
    (h : Run (Service.step env) Paged .init as s) :
    (traced (Service.step env) received .init as ++ s.texts).Perm (as.flatMap Action.texts) := by
  refine (h.history (I := fun bs u ↦ Run (Service.step env) Paged .init bs u ∧
    (traced (Service.step env) received .init bs ++ u.texts).Perm (bs.flatMap Action.texts))
    (fun bs u a v hu ha hv ↦ ⟨hu.1.trans (.one ha hv), ?_⟩) ⟨.nil _, .refl _⟩).2
  have hperm := texts_step (served_of_run he hu.1).running hv
  rw [hu.1.traced_concat, List.flatMap_append, List.append_assoc, List.flatMap_singleton]
  refine (hperm.append_left _).trans ?_
  rw [← List.append_assoc]
  exact hu.2.append_right _

end

end MusicRemote.Control.Service
