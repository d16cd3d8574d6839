import MusicRemote.App.KeyEvents
import MusicRemote.Server.Stream

namespace MusicRemote.App

open Foundation Foundation.Transition Protocol Protocol.Json

def keyEventOf (request : SendControlMediaKeyEventRequest) : KeyEvent :=
  ⟨.ofNat request.action.toNat, .ofNat request.code.toNat⟩

def Delivery.isFor (d : Delivery) (v u : ℕ) : Bool :=
  d.session = v && match d.envelope.cause with
    | .pingTask => false
    | .message t _ => t = u

/-- The key events that a phone has dispatched for messages of session `u`, from its own session
`v`, each with the token that the phone had. -/
def Phone.pressed (p : Phone) (v u : ℕ) : List (Option String × KeyEvent) :=
  p.outcomes.flatMap fun o ↦
    if o.delivery.isFor v u then o.keyEvents.map fun event ↦ (o.token, event) else []

/-- The frame is the push for message `k` of session `u`, which was the request. -/
structure Presses (code : String) (log : List Server.Event) (u : ℕ) (o : Outcome) (k : ℕ)
    (m : Message) (request : SendControlMediaKeyEventRequest) : Prop where
  envelope : o.delivery.envelope =
    Server.envelope (.push (Server.pushOf request)) (.message u k)
  received : .received u k m ∈ log
  name : m.name = "SendControlMediaKeyEventRequest"
  data : fromStr m.data = some request
  code : request.authorizationCode = code
  keyEvents : o.keyEvents = [keyEventOf request]
  token : o.token = some request.token

section

variable {gson : Gson} {code : String} {owner : ℕ → Option (ℕ × ℤ)} {audioManager : ℕ → Bool}
  {ok : System → SystemAction → Prop} {as : List SystemAction} {s : System} {p v u : ℕ}

/-- The frames of one session have come to the phone in the order in which they were sent. -/
theorem System.Delivered.prefix_sentTo (hd : s.Delivered gson owner) (p v : ℕ) :
    (((s.phone p).outcomes.map Outcome.delivery).filter (·.session = v)).map Delivery.envelope <+:
      Server.sentTo v s.server.log := by
  by_cases hv : ∃ id, owner v = some (p, id)
  · obtain ⟨id, hv⟩ := hv
    have hindices := hd.indices v p id hv
    set ds := (s.phone p).deliveries.filter (·.session = v) with hds
    have hall : ds.map Delivery.envelope =
        (Server.sentTo v s.server.log).take (s.arrived v) := by
      refine List.ext_getElem? fun j ↦ ?_
      have hj := congrArg (·[j]?) hindices
      simp only [List.getElem?_map, List.getElem?_take] at hj ⊢
      cases hd' : ds[j]? with
      | none =>
        rw [hd', Option.map_none] at hj
        have hle := List.getElem?_eq_none_iff.1 hj.symm
        rw [List.length_range] at hle
        rw [if_neg (by omega)]
        rfl
      | some d =>
        rw [hd', Option.map_some] at hj
        obtain ⟨hlt, hindex⟩ := List.getElem?_eq_some_iff.1 hj.symm
        rw [List.length_range] at hlt
        rw [List.getElem_range] at hindex
        obtain ⟨hmem, hsession⟩ := List.mem_filter.1 (List.mem_of_getElem? hd')
        have horigin := (hd.origin p d hmem).2
        rw [of_decide_eq_true hsession, ← hindex] at horigin
        rw [if_pos hlt, horigin, Option.map_some]
    have hprefix : (((s.phone p).outcomes.map Outcome.delivery).filter (·.session = v)).map
        Delivery.envelope <+: ds.map Delivery.envelope := by
      rw [hds, Phone.deliveries, List.filter_append, List.map_append]
      exact List.prefix_append _ _
    exact (hall ▸ hprefix).trans (List.take_prefix _ _)
  · have hnone : ((s.phone p).outcomes.map Outcome.delivery).filter (·.session = v) = [] := by
      rw [List.filter_eq_nil_iff]
      intro d hmem hsession
      have howner := (hd.origin p d (List.mem_append_left _ hmem)).1
      rw [of_decide_eq_true hsession] at howner
      exact hv ⟨_, howner⟩
    rw [hnone]
    exact List.nil_prefix

/-- A key event goes back to a request. -/
theorem presses_of_keyEvents
    (h : Run (System.step gson (Server.serde code) owner) ok (.start audioManager) as s)
    {o : Outcome} (ho : o ∈ (s.phone p).outcomes) (hfor : o.delivery.isFor v u = true)
    (hsome : o.keyEvents ≠ []) : ∃ k m request, Presses code s.server.log u o k m request := by
  have hd := delivered_of_run h
  have hserver := server_of_run h
  obtain ⟨k, hcause⟩ : ∃ k, o.delivery.envelope.cause = .message u k := by
    simp only [Delivery.isFor, Bool.and_eq_true] at hfor
    cases hc : o.delivery.envelope.cause with
    | pingTask =>
      rw [hc] at hfor
      cases hfor.2
    | message t k =>
      rw [hc] at hfor
      exact ⟨k, by rw [of_decide_eq_true hfor.2]⟩
  have hstored : o.stored = o.delivery.connectionId := by
    by_contra hforeign
    exact hsome ((hd.sound p).keyEvents_of_foreign ho hforeign)
  have hmem : o.delivery ∈ (s.phone p).deliveries :=
    List.mem_append_left _ (List.mem_map_of_mem ho)
  have hsent := List.mem_of_getElem? (hd.origin p _ hmem).2
  obtain ⟨m, body, hm, he, hcases⟩ := Server.enqueued_of_run hserver (Server.mem_sentTo.1 hsent)
    hcause
  have hbody : ∃ push, body = .push push ∧ Server.verdict (Server.serde code) m = .permit push := by
    -- No other message makes a phone dispatch anything.
    have hother (hne : ∀ push, body ≠ .push push) : False :=
      hsome ((hd.sound p).keyEvents_of_body ho he hne)
    obtain ⟨time, rfl⟩ | rfl | rfl | hpush := hcases
    · exact (hother fun push hpush ↦ by cases hpush).elim
    · exact (hother fun push hpush ↦ by cases hpush).elim
    · exact (hother fun push hpush ↦ by cases hpush).elim
    · exact hpush
  obtain ⟨push, rfl, hverdict⟩ := hbody
  obtain ⟨hname, request, hread, hcode, rfl⟩ := Server.verdict_eq_permit hverdict
  have hkey := (hd.sound p).keyEvents_push ho he hstored
  split_ifs at hkey with hall
  · exact ⟨k, m, request, he, hm, hname, hread, hcode, hkey, hall.2.1⟩
  · exact absurd hkey hsome

def Phone.pressing (p : Phone) (v u : ℕ) : List Outcome :=
  p.outcomes.filter fun o ↦ o.delivery.isFor v u && !o.keyEvents.isEmpty

theorem pressed_eq_flatMap (p : Phone) (v u : ℕ) :
    p.pressed v u =
      (p.pressing v u).flatMap fun o ↦ o.keyEvents.map fun event ↦ (o.token, event) := by
  unfold Phone.pressed Phone.pressing
  induction p.outcomes with
  | nil => rfl
  | cons o os ih =>
    rw [List.flatMap_cons, ih, List.filter_cons]
    by_cases hfor : o.delivery.isFor v u = true
    · cases hkey : o.keyEvents with
      | nil => simp [hfor]
      | cons event events => simp [hfor, hkey]
    · simp [hfor]

/-- They come in the order in which their frames were sent. -/
theorem pressing_sublist (hd : s.Delivered gson owner) (p v u : ℕ) :
    (((s.phone p).pressing v u).map fun o ↦ o.delivery.envelope).Sublist
      (Server.sentTo v s.server.log) := by
  refine List.Sublist.trans ?_ (hd.prefix_sentTo p v).sublist
  rw [List.filter_map, List.map_map]
  refine List.Sublist.map _ (List.monotone_filter_right _ fun o ho ↦ ?_)
  simp only [Bool.and_eq_true, Delivery.isFor] at ho
  exact ho.1.1

section

variable {log : List Server.Event} {os : List Outcome}
  {xs : List (ℕ × Message × SendControlMediaKeyEventRequest)}

theorem flatMap_of_presses
    (h : List.Forall₂ (fun o x ↦ Presses code log u o x.1 x.2.1 x.2.2) os xs) :
    (os.flatMap fun o ↦ o.keyEvents.map fun event ↦ (o.token, event)) =
      xs.map fun x ↦ (some x.2.2.token, keyEventOf x.2.2) := by
  induction h with
  | nil => rfl
  | cons hpress _ ih =>
    rw [List.flatMap_cons, hpress.keyEvents, hpress.token, ih]
    rfl

theorem pushes_of_presses
    (h : List.Forall₂ (fun o x ↦ Presses code log u o x.1 x.2.1 x.2.2) os xs) :
    Server.pushes (os.map fun o ↦ o.delivery.envelope) = xs.map fun x ↦ (u, x.1) := by
  induction h with
  | nil => rfl
  | cons hpress _ ih =>
    rw [List.map_cons, List.map_cons, ← ih, hpress.envelope]
    rfl

theorem getElem?_of_presses
    (h : List.Forall₂ (fun o x ↦ Presses code log u o x.1 x.2.1 x.2.2) os xs)
    (hindex : ∀ k m, .received u k m ∈ log → (Server.receivedBy u log)[k]? = some m) :
    List.Forall₂ (fun k m ↦ (Server.receivedBy u log)[k - 0]? = some m) (xs.map Prod.fst)
      (xs.map (·.2.1)) := by
  induction h with
  | nil => exact .nil
  | cons hpress _ ih => exact .cons (hindex _ _ hpress.received) ih

theorem forall_of_presses
    (h : List.Forall₂ (fun o x ↦ Presses code log u o x.1 x.2.1 x.2.2) os xs) :
    ∀ x ∈ xs, x.2.1.name = "SendControlMediaKeyEventRequest" ∧ fromStr x.2.1.data = some x.2.2 ∧
      x.2.2.authorizationCode = code := by
  induction h with
  | nil => exact fun _ hx ↦ by cases hx
  | cons hpress _ ih => exact List.forall_mem_cons.2 ⟨⟨hpress.name, hpress.data, hpress.code⟩, ih⟩

end

/-- What a phone dispatches from one of its sessions for the messages of another are the key events
of requests among these messages, in their order, each once at most. -/
theorem pressed_of_run
    (h : Run (System.step gson (Server.serde code) owner) ok (.start audioManager) as s)
    (p v u : ℕ) : ∃ pairs : List (Message × SendControlMediaKeyEventRequest),
      (s.phone p).pressed v u = pairs.map (fun x ↦ (some x.2.token, keyEventOf x.2)) ∧
      (pairs.map Prod.fst).Sublist (Server.receivedBy u s.server.log) ∧
      ∀ x ∈ pairs, x.1.name = "SendControlMediaKeyEventRequest" ∧ fromStr x.1.data = some x.2 ∧
        x.2.authorizationCode = code := by
  have hserver := server_of_run h
  have hspec : ∀ o ∈ (s.phone p).pressing v u,
      ∃ x : ℕ × Message × SendControlMediaKeyEventRequest,
        Presses code s.server.log u o x.1 x.2.1 x.2.2 := by
    intro o ho
    obtain ⟨hmem, hfilter⟩ := List.mem_filter.1 ho
    simp only [Bool.and_eq_true, Bool.not_eq_true', List.isEmpty_eq_false_iff] at hfilter
    obtain ⟨k, m, request, hpress⟩ := presses_of_keyEvents h hmem hfilter.1 hfilter.2
    exact ⟨⟨k, m, request⟩, hpress⟩
  obtain ⟨xs, hxs⟩ := exists_forall₂ hspec
  have hincreasing : (xs.map Prod.fst).Pairwise (· < ·) := by
    have hordered := (Server.ordered_of_run hserver).1
    have hsublist : (Server.pushes _).Sublist (Server.pushes (Server.sentTo v s.server.log)) :=
      (pressing_sublist (delivered_of_run h) p v u).filterMap _
    have hpairwise := hordered.increasing.sublist (hsublist.trans (hordered.sublist v))
    rw [pushes_of_presses hxs, List.pairwise_map] at hpairwise
    exact List.pairwise_map.2 (hpairwise.imp fun hlt ↦ hlt rfl)
  refine ⟨xs.map Prod.snd, ?_, ?_, List.forall_mem_map.2 (forall_of_presses hxs)⟩
  · rw [pressed_eq_flatMap, flatMap_of_presses hxs, List.map_map]
    rfl
  · rw [List.map_map]
    exact sublist_of_increasing (fun _ _ ↦ Nat.zero_le _) hincreasing
      (getElem?_of_presses hxs ((Server.numbered_of_run hserver).index u))

end

end MusicRemote.App
