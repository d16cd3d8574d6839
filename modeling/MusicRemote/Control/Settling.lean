import MusicRemote.Control.Clicks
import MusicRemote.Foundation.Progress

namespace MusicRemote.Control.Service

open Protocol Protocol.Json Foundation.Transition

/-- What goes on without clicks, without messages of a server and without a connection being lost.
An attempt to connect ends, one way or the other. -/
def Inner (_ : State) : Action → Prop
  | .login _ | .control _ _ _ | .invoke _ | .onRecvMessage _ _ | .finish _ _ => False
  | .js2rs _ | .recv | .advance | .doConnect _ | .pollWrite _ | .disconnect _ | .notify _
  | .rs2js | .listen => True

/-- How many steps a place of the loop has before it, those for the texts that it posts included. -/
def RunLoop.cost : RunLoop → ℕ
  | .waiting | .failed => 0
  | .spawning => 1
  | .forwarding _ => 2
  | .replying | .refusing _ => 3
  | .announcing | .failing _ => 4
  | .opened => 5
  | .opening => 6
  | .connecting _ => 7
  | .starting _ => 8
  | .examining _ => 9

def ClientPhase.cost : ClientPhase → ℕ
  | .running | .finished => 0
  | .leaving _ => 3
  | .ended _ => 4

def Client.cost (c : Client) : ℕ := c.phase.cost + c.rx.length

def State.cost (s : State) : ℕ :=
  11 * (s.handlers.map List.length).sum + 10 * s.fromJs.length + s.loop.cost +
    (s.clients.map Client.cost).sum + 2 * s.toJs.length + s.events.length

structure State.Settled (s : State) : Prop where
  loop : s.loop = .waiting
  texts : s.texts = []
  toJs : s.toJs = []
  events : s.events = []
  clients : ∀ c ∈ s.clients, c.phase = .running ∧ c.rx = [] ∨ c.phase = .finished

section

variable {env : Env} {s t : State} {a : Action}

theorem cost_setClient {i : ℕ} {c : Client} (hc : s.clients[i]? = some c) (c' : Client) :
    ((s.setClient i c').clients.map Client.cost).sum + c.cost =
      (s.clients.map Client.cost).sum + c'.cost := sum_map_set Client.cost c' hc

theorem cost_forward (s : State) (message : Message) :
    ((forward s message).map Client.cost).sum ≤ (s.clients.map Client.cost).sum + 1 := by
  unfold forward
  split
  · omega
  · rename_i i _
    cases hi : s.clients[i]? with
    | none =>
      rw [List.modify_eq_self (List.getElem?_eq_none_iff.1 hi)]
      omega
    | some c =>
      rw [List.modify_eq_set_getElem?, hi]
      have hset := sum_map_set Client.cost
        (if c.phase.isRunning then { c with rx := c.rx ++ [message] } else c) hi
      have hcost : (if c.phase.isRunning then { c with rx := c.rx ++ [message] } else c).cost ≤
          c.cost + 1 := by
        split_ifs
        · simp only [Client.cost, List.length_append, List.length_singleton]
          omega
        · omega
      change ((s.clients.set i _).map Client.cost).sum ≤ _
      omega

theorem cost_step (ha : Inner s a) (h : step env s a = some t) : t.cost < s.cost := by
  cases step_outcome h with
  | login | control | invoke | ping | relay | finish => cases ha
  | @submit i message rest _ hi =>
    have hset := sum_map_set List.length rest hi
    simp only [State.cost, List.length_append, List.length_cons, List.length_nil] at hset ⊢
    omega
  | turnAway _ hi =>
    have hset := sum_map_set List.length [] hi
    simp only [State.cost, List.length_cons, List.length_nil] at hset ⊢
    omega
  | misread hloop hjs | request hloop hjs | other hloop hjs =>
    simp only [State.cost, hloop, hjs, RunLoop.cost, List.length_cons]
    omega
  | forward hloop =>
    have hforward := cost_forward s ‹_›
    simp only [State.cost, hloop, RunLoop.cost]
    omega
  | @write i c message rx hc _ hrx =>
    have hset := cost_setClient hc { c with rx := rx, sent := c.sent ++ [message] }
    rw [Client.cost, Client.cost, hrx, List.length_cons] at hset
    simp only [State.cost, State.setClient] at hset ⊢
    omega
  | @disconnect i c reason hc hphase =>
    have hset := cost_setClient hc { c with phase := .leaving reason }
    rw [Client.cost, Client.cost, hphase, ClientPhase.cost, ClientPhase.cost] at hset
    simp only [State.cost, State.setClient] at hset ⊢
    omega
  | @notify i c reason hc hphase =>
    have hset := cost_setClient hc { c with phase := .finished }
    rw [Client.cost, Client.cost, hphase, ClientPhase.cost, ClientPhase.cost] at hset
    simp only [State.cost, State.setClient, List.length_append, List.length_singleton] at hset ⊢
    omega
  | emit hjs =>
    simp only [State.cost, hjs, List.length_cons, List.length_append, List.length_nil]
    omega
  | hear hevents =>
    simp only [State.cost, hevents, List.length_cons]
    omega
  | connect hloop | miss hloop | confirm hloop | ignore hloop | reject hloop | accept hloop
  | start hloop | store hloop | settle hloop | fail hloop =>
    simp only [State.cost, hloop, RunLoop.cost]
    omega
  | reply hloop | announce hloop | refuse hloop =>
    simp only [State.cost, hloop, RunLoop.cost, List.length_append, List.length_cons,
      List.length_nil]
    omega
  | spawn hloop =>
    simp only [State.cost, hloop, RunLoop.cost, List.map_append, List.sum_append, List.map_cons,
      List.map_nil, List.sum_cons, List.sum_nil, Client.cost, ClientPhase.cost, List.length_nil]
    omega

def RunLoop.owes : RunLoop → Bool
  | .waiting | .spawning | .forwarding _ | .failed => false
  | .examining _ | .replying | .starting _ | .connecting _ | .opening | .opened | .announcing
  | .failing _ | .refusing _ => true

/-- A request to connect is on its way to the loop, or with it, or its answer is on its way back. -/
def State.Owed (s : State) : Prop :=
  (∃ r : ConnectRequest, sendMessageToRust r ∈ s.texts) ∨ s.loop.owes = true ∨
    ∃ r : ConnectResponse, Json.toString (messageOf r) ∈ s.events ++ s.toJs

theorem State.Owed.mono (h : s.Owed) (htexts : s.texts ⊆ t.texts)
    (hloop : s.loop.owes = true → t.loop.owes = true)
    (hposts : s.events ++ s.toJs ⊆ t.events ++ t.toJs) : t.Owed := by
  rcases h with ⟨r, hr⟩ | h | ⟨r, hr⟩
  · exact .inl ⟨r, htexts hr⟩
  · exact .inr (.inl (hloop h))
  · exact .inr (.inr ⟨r, hposts hr⟩)

theorem listener_connecting {st : ControlServiceStatus} {payload : String}
    (h : listener env st payload = .connecting) : st = .connecting := by
  unfold listener at h
  split at h
  · exact h
  · split at h
    · exact h
    · split_ifs at h
      · split at h
        · exact h
        · split_ifs at h
      · exact h

def State.Hopeful (s : State) : Prop := s.serviceStatus = .connecting → s.Owed

theorem State.Hopeful.step (hl : env.Lawful) (he : env.Reads) (hs : s.Hopeful)
    (htracked : s.link.Tracked) (hserved : s.Served) (ha : Paged s a)
    (h : step env s a = some t) : t.Hopeful := by
  have hrunning := (hserved.step he ha h).running
  cases step_outcome h with
  | @login serverAdress =>
    exact fun _ ↦ .inl ⟨⟨serverAdress⟩, by simp [State.texts]⟩
  | control hstatus => exact fun hconnecting ↦ by rw [hstatus] at hconnecting; cases hconnecting
  | invoke => cases ha
  | submit _ hi =>
    refine fun hstatus ↦ (hs hstatus).mono (fun text htext ↦ ?_) id (List.Subset.refl _)
    have hperm := texts_step hserved.running h
    simp only [received, Action.texts, Option.toList_none, List.nil_append, List.append_nil]
      at hperm
    exact hperm.symm.subset htext
  | turnAway hfailed => exact absurd hfailed hserved.running
  | misread | reject => exact absurd rfl hrunning
  | request | confirm | accept | start | store | settle | fail | connect | miss =>
    exact fun _ ↦ .inr (.inl rfl)
  | @other input fromJs message hloop hjs hread hname =>
    intro hstatus
    rcases hs hstatus with ⟨r, hr⟩ | howes | hresponse
    · have htexts : s.texts = input :: (fromJs ++ s.handlers.flatten) := by
        rw [State.texts, hjs]
        rfl
      rw [htexts] at hr
      rcases List.mem_cons.1 hr with rfl | hrest
      · -- The text taken is the request: it would not have been forwarded.
        have hrequest : env.readMessage (sendMessageToRust r) = some (messageOf r) := he.message _
        rw [hrequest, Option.some.injEq] at hread
        exact absurd (hread ▸ rfl) hname
      · exact .inl ⟨r, hrest⟩
    · rw [hloop] at howes
      cases howes
    · exact .inr (.inr hresponse)
  | ignore hloop hstatus =>
    exact absurd hstatus (htracked.idle (by rw [State.link, hloop]; rfl))
  | reply | announce | refuse =>
    exact fun _ ↦ .inr (.inr ⟨_, List.mem_append_right _
      (List.mem_append_right _ (List.mem_singleton_self _))⟩)
  | spawn hloop | forward hloop =>
    refine fun hstatus ↦ (hs hstatus).mono (List.Subset.refl _) (fun howes ↦ ?_)
      (List.Subset.refl _)
    rw [hloop] at howes
    cases howes
  | ping | write | finish | disconnect => exact hs
  | relay | notify =>
    refine fun hstatus ↦ (hs hstatus).mono (List.Subset.refl _) id fun text htext ↦ ?_
    rw [← List.append_assoc]
    exact List.mem_append_left _ htext
  | emit hjs =>
    refine fun hstatus ↦ (hs hstatus).mono (List.Subset.refl _) id fun text htext ↦ ?_
    rw [hjs] at htext
    rwa [List.append_assoc]
  | @hear payload events hevents =>
    intro hstatus
    rcases hs (listener_connecting hstatus) with hrequest | howes | ⟨r, hr⟩
    · exact .inl hrequest
    · exact .inr (.inl howes)
    · rw [hevents] at hr
      rcases List.mem_cons.1 hr with rfl | hrest
      · -- An answer, whichever it is, ends the wait.
        dsimp only at hstatus
        rw [hl.listener_response] at hstatus
        split_ifs at hstatus
      · exact .inr (.inr ⟨r, hrest⟩)

theorem hopeful_of_run (hl : env.Lawful) (he : env.Reads) {as : List Action}
    (h : Run (Service.step env) Paged .init as s) : s.Hopeful :=
  h.along (fun _ _ _ _ hu hs ha hv ↦
    hs.step hl he (tracked_of_run hu) (served_of_run he hu) ha hv) (fun hstatus ↦ by cases hstatus)

/-- A service that serves has something to do until everything is done. -/
theorem State.Served.settled_of_stuck (hs : s.Served)
    (hstuck : Stuck (Service.step env) Inner s) : s.Settled := by
  have htoJs : s.toJs = [] := by
    have hrs2js := hstuck .rs2js trivial
    simp only [Service.step, rs2js] at hrs2js
    split at hrs2js
    · cases hrs2js
    · assumption
  have hsend (text : String) : s.sendToJs text = some { s with toJs := s.toJs ++ [text] } := by
    rw [State.sendToJs, htoJs]
    rfl
  have hevents : s.events = [] := by
    have hlisten := hstuck .listen trivial
    simp only [Service.step, listen] at hlisten
    split at hlisten
    · cases hlisten
    · assumption
  have hloop : s.loop = .waiting := by
    have hadvance := hstuck .advance trivial
    have hconnect := hstuck (.doConnect (.ok ())) trivial
    simp only [Service.step, advance, doConnect, sendMessageToJs, hsend, Option.map_some]
      at hadvance hconnect
    cases hl : s.loop with
    | waiting => rfl
    | failed => exact absurd hl hs.running
    | connecting request => simp only [hl] at hconnect; cases hconnect
    | _ => simp only [hl] at hadvance; cases hadvance
  have hfromJs : s.fromJs = [] := by
    have hrecv := hstuck .recv trivial
    simp only [Service.step, recv, hloop] at hrecv
    split at hrecv
    · split at hrecv
      · cases hrecv
      · split_ifs at hrecv
    · rename_i hne
      cases hjs : s.fromJs with
      | nil => rfl
      | cons input fromJs => exact absurd hjs (hne _ _ rfl)
  have hhandlers : ∀ texts ∈ s.handlers, texts = [] := by
    intro texts hmem
    obtain ⟨i, hi⟩ := List.mem_iff_getElem?.1 hmem
    have hjs := hstuck (.js2rs i) trivial
    cases texts with
    | nil => rfl
    | cons message rest =>
      simp [Service.step, js2rs, hi, hloop, hfromJs, capacity] at hjs
  refine ⟨hloop, ?_, htoJs, hevents, fun c hmem ↦ ?_⟩
  · rw [State.texts, hfromJs, List.nil_append, List.flatten_eq_nil_iff]
    exact hhandlers
  · obtain ⟨i, hi⟩ := List.mem_iff_getElem?.1 hmem
    have hwrite := hstuck (.pollWrite i) trivial
    have hdisconnect := hstuck (.disconnect i) trivial
    have hnotify := hstuck (.notify i) trivial
    simp only [Service.step, hi, Option.bind_some, pollWrite, disconnect, notify, sendMessageToJs,
      hsend, Option.map_some] at hwrite hdisconnect hnotify
    cases hphase : c.phase with
    | running =>
      refine .inl ⟨rfl, ?_⟩
      cases hrx : c.rx with
      | nil => rfl
      | cons message rx => simp only [hphase, hrx] at hwrite; cases hwrite
    | ended reason => simp only [hphase] at hdisconnect; cases hdisconnect
    | leaving reason => simp only [hphase] at hnotify; cases hnotify
    | finished => exact .inr rfl

theorem Inner.paged (ha : Inner s a) : Paged s a := by
  cases a with
  | invoke => cases ha
  | _ => trivial

theorem Inner.texts (ha : Inner s a) : a.texts = [] := by
  cases a with
  | login | control | invoke => cases ha
  | _ => rfl

theorem flatMap_texts_of_inner {as : List Action} (h : Run (Service.step env) Inner s as t) :
    as.flatMap Action.texts = [] :=
  List.flatMap_eq_nil_iff.2 (h.forall_mem fun _ _ ha ↦ ha.texts)

end

end MusicRemote.Control.Service
