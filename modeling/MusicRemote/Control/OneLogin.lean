import MusicRemote.Control.Clicks

namespace MusicRemote.Control.Service

open Protocol Protocol.Json Foundation.Transition

def shows (env : Env) (payload : String) : Option ControlServiceStatus :=
  (env.parsePack payload).bind fun pack ↦ (env.parseData pack.data).bind fun message ↦
    if pack.name = "ConnectResponse" then
      message.map fun ok ↦ if ok then .connected else .disconnected
    else if pack.name = "DisconnectNtf" then some .disconnected
    else none

def isRequest (env : Env) (text : String) : Bool :=
  (env.readMessage text).any (·.name = "ConnectRequest")

def State.asked (env : Env) (s : State) : ℕ := s.texts.countP (isRequest env)

def State.news (env : Env) (s : State) : List ControlServiceStatus :=
  (s.events ++ s.toJs).filterMap (shows env)

/-- How far the last task is; all others are finished. -/
inductive Tasks
  | done
  | live
  | leaving

def Tasks.Describes : Tasks → List ClientPhase → Prop
  | .done, phases => ∀ p ∈ phases, p = .finished
  | .live, phases => ∃ old p, phases = old ++ [p] ∧ (∀ q ∈ old, q = .finished) ∧ p.isLive = true
  | .leaving, phases => ∃ old reason, phases = old ++ [.leaving reason] ∧ ∀ q ∈ old, q = .finished

def RunLoop.isIdle : RunLoop → Bool
  | .waiting | .forwarding _ => true
  | _ => false

/-- The status while a request to connect is being dealt with that comes when there is no
connection. -/
def RunLoop.due : RunLoop → Option ControlServiceStatus
  | .examining _ | .starting _ | .refusing _ => some .disconnected
  | .connecting _ | .opening | .opened | .failing _ => some .connecting
  | .announcing => some .connected
  | .waiting | .replying | .spawning | .forwarding _ | .failed => none

def Told (page : ControlServiceStatus) (news : List ControlServiceStatus) : Prop :=
  page = .connecting ∧ news = [.connected] ∨ page = .connected ∧ news = []

/-- The round from one click on login to the next: the page, the requests on their way, the news on
their way, the tasks and the status. -/
inductive Cycle (loop : RunLoop) : ControlServiceStatus → ℕ → List ControlServiceStatus → Tasks →
    ControlServiceStatus → Prop
  | down : loop.isIdle = true → Cycle loop .disconnected 0 [] .done .disconnected
  | asked : loop.isIdle = true → Cycle loop .connecting 1 [] .done .disconnected
  | pending {status : ControlServiceStatus} : loop.due = some status →
      Cycle loop .connecting 0 [] .done status
  | refused : loop.isIdle = true → Cycle loop .connecting 0 [.disconnected] .done .disconnected
  | spawning {page : ControlServiceStatus} {news : List ControlServiceStatus} :
      loop = .spawning → Told page news → Cycle loop page 0 news .done .connected
  | up {page : ControlServiceStatus} {news : List ControlServiceStatus} :
      loop.isIdle = true → Told page news → Cycle loop page 0 news .live .connected
  | leaving {page : ControlServiceStatus} {news : List ControlServiceStatus} :
      loop.isIdle = true → Told page news → Cycle loop page 0 news .leaving .disconnected
  | left {page : ControlServiceStatus} {news : List ControlServiceStatus} :
      loop.isIdle = true → Told page news →
      Cycle loop page 0 (news ++ [.disconnected]) .done .disconnected

def State.InCycle (env : Env) (s : State) : Prop :=
  ∃ tasks : Tasks, tasks.Describes (s.clients.map Client.phase) ∧
    Cycle s.loop s.serviceStatus (s.asked env) (s.news env) tasks s.status

def Action.isLogin : Action → Bool
  | .login _ => true
  | _ => false

/-- The user clicks on login only when the page shows that it is disconnected, and the server uses
none of the names that are the service's own. -/
def OneLogin (s : State) (a : Action) : Prop :=
  Paged s a ∧ a.usesLocalName = false ∧ (a.isLogin = true → s.serviceStatus = .disconnected)

instance (s : State) (a : Action) : Decidable (OneLogin s a) :=
  inferInstanceAs (Decidable (Paged s a ∧ a.usesLocalName = false ∧
    (a.isLogin = true → s.serviceStatus = .disconnected)))

section

variable {env : Env} {s t : State} {a : Action}

theorem listener_eq (env : Env) (st : ControlServiceStatus) (payload : String) :
    listener env st payload = (shows env payload).getD st := by
  unfold listener shows
  cases env.parsePack payload with
  | none => rfl
  | some pack =>
    dsimp only [Option.bind_some]
    cases env.parseData pack.data with
    | none => rfl
    | some message =>
      dsimp only [Option.bind_some]
      split_ifs
      · cases message <;> rfl
      · rfl
      · rfl

theorem Env.Lawful.shows_response (hl : env.Lawful) (r : ConnectResponse) :
    shows env (Json.toString (messageOf r)) =
      some (if r.ok then .connected else .disconnected) := by
  have hd : (messageOf r).data = Json.toString r := rfl
  have hn : (messageOf r).name = "ConnectResponse" := rfl
  simp only [shows, hl.pack, Option.bind_some, hd, hl.response, hn, if_true, Option.map_some]

theorem Env.Lawful.shows_ntf (hl : env.Lawful) (n : DisconnectNtf) :
    shows env (Json.toString (messageOf n)) = some .disconnected := by
  have hd : (messageOf n).data = Json.toString n := rfl
  have hn : (messageOf n).name = "DisconnectNtf" := rfl
  obtain ⟨message, hmessage⟩ := Option.isSome_iff_exists.1 (hl.ntf n)
  simp only [shows, hl.pack, Option.bind_some, hd, hmessage, hn, if_true]
  rw [if_neg (by decide)]

theorem Env.Lawful.shows_relay (hl : env.Lawful) {message : Message}
    (hm : isLocalName message.name = false) : shows env (Json.toString message) = none := by
  simp only [isLocalName, Bool.or_eq_false_iff, decide_eq_false_iff_not] at hm
  simp only [shows, hl.pack, Option.bind_some, if_neg hm.1, if_neg hm.2]
  cases env.parseData message.data <;> rfl

theorem asked_step (hs : s.loop ≠ .failed) (h : step env s a = some t) :
    (received s a).toList.countP (isRequest env) + t.asked env =
      s.asked env + a.texts.countP (isRequest env) := by
  have hcount := (texts_step hs h).countP_eq (isRequest env)
  rwa [List.countP_append, List.countP_append] at hcount

theorem Env.Reads.isRequest_connect (he : env.Reads) (r : ConnectRequest) :
    isRequest env (sendMessageToRust r) = true := by
  rw [isRequest, sendMessageToRust, he.message]
  rfl

theorem Env.Reads.isRequest_press (he : env.Reads) (r : SendControlMediaKeyEventRequest) :
    isRequest env (sendMessageToRust r) = false := by
  have hname : (messageOf r).name ≠ "ConnectRequest" := by
    change "SendControlMediaKeyEventRequest" ≠ "ConnectRequest"
    decide
  rw [isRequest, sendMessageToRust, he.message]
  simp [hname]

theorem Tasks.describes_live {old phases : List ClientPhase} {p q : ClientPhase} {i : ℕ}
    (hphases : phases = old ++ [p]) (hold : ∀ x ∈ old, x = .finished)
    (hi : phases[i]? = some q) (hq : q ≠ .finished) :
    i = old.length ∧ q = p ∧ ∀ q', phases.set i q' = old ++ [q'] := by
  subst hphases
  have hlt := (List.getElem?_eq_some_iff.1 hi).1
  rw [List.length_append, List.length_singleton] at hlt
  have hlast : i = old.length := by
    by_contra hne
    rw [List.getElem?_append_left (by omega)] at hi
    exact hq (hold q (List.mem_of_getElem? hi))
  subst hlast
  rw [List.getElem?_concat_length, Option.some.injEq] at hi
  exact ⟨rfl, hi.symm, fun q' ↦ by simp⟩

end

section

variable {loop loop' : RunLoop} {page st st' : ControlServiceStatus} {n : ℕ}
  {news : List ControlServiceStatus} {tasks : Tasks}

theorem RunLoop.not_idle_of_due (h : loop.due = some st) : loop.isIdle = false := by
  cases loop with
  | waiting | forwarding => cases h
  | _ => rfl

theorem Told.ne_disconnected (h : Told page news) : page ≠ .disconnected := by
  rcases h with ⟨rfl, -⟩ | ⟨rfl, -⟩ <;> simp

theorem Cycle.of_disconnected (h : Cycle loop .disconnected n news tasks st) :
    loop.isIdle = true ∧ n = 0 ∧ news = [] ∧ tasks = .done ∧ st = .disconnected := by
  cases h with
  | down hidle => exact ⟨hidle, rfl, rfl, rfl, rfl⟩
  | spawning _ htold | up _ htold | leaving _ htold | left _ htold =>
    exact absurd rfl htold.ne_disconnected

theorem Cycle.of_due (h : Cycle loop page n news tasks st) (hd : loop.due = some st') :
    page = .connecting ∧ n = 0 ∧ news = [] ∧ tasks = .done ∧ st = st' := by
  have hbusy := RunLoop.not_idle_of_due hd
  cases h with
  | pending hd' => exact ⟨rfl, rfl, rfl, rfl, Option.some.inj (hd'.symm.trans hd)⟩
  | spawning hloop =>
    rw [hloop] at hd
    cases hd
  | down hidle | asked hidle | refused hidle | up hidle | leaving hidle | left hidle =>
    rw [hidle] at hbusy
    cases hbusy

theorem Cycle.not_replying (h : Cycle .replying page n news tasks st) : False := by
  cases h with
  | spawning hloop => cases hloop
  | pending hd => cases hd
  | down hidle | asked hidle | refused hidle | up hidle | leaving hidle | left hidle => cases hidle

/-- While the loop is idle it may go from one message to the next. -/
theorem Cycle.idle (h : Cycle loop page n news tasks st) (hloop : loop.isIdle = true)
    (hloop' : loop'.isIdle = true) : Cycle loop' page n news tasks st := by
  cases h with
  | down => exact .down hloop'
  | asked => exact .asked hloop'
  | pending hd =>
    rw [RunLoop.not_idle_of_due hd] at hloop
    cases hloop
  | refused => exact .refused hloop'
  | spawning hspawning =>
    rw [hspawning] at hloop
    cases hloop
  | up _ htold => exact .up hloop' htold
  | leaving _ htold => exact .leaving hloop' htold
  | left _ htold => exact .left hloop' htold

/-- Login is clicked. -/
theorem Cycle.login (h : Cycle loop .disconnected n news tasks st) :
    Cycle loop .connecting (n + 1) news tasks st := by
  obtain ⟨hidle, rfl, rfl, rfl, rfl⟩ := h.of_disconnected
  exact .asked hidle

/-- The loop takes the request. -/
theorem Cycle.request (h : Cycle loop page (n + 1) news tasks st) (message : Message) :
    Cycle (.examining message) page n news tasks st := by
  cases h with
  | asked => exact .pending rfl

theorem Cycle.announce (h : Cycle .announcing page n news tasks st) :
    Cycle .spawning page n (news ++ [.connected]) tasks st := by
  obtain ⟨rfl, rfl, rfl, rfl, rfl⟩ := h.of_due rfl
  exact .spawning rfl (.inl ⟨rfl, rfl⟩)

theorem Cycle.refuse {error : String} (h : Cycle (.refusing error) page n news tasks st) :
    Cycle .waiting page n (news ++ [.disconnected]) tasks st := by
  obtain ⟨rfl, rfl, rfl, rfl, rfl⟩ := h.of_due rfl
  exact .refused rfl

theorem Cycle.spawn (h : Cycle .spawning page n news tasks st) :
    tasks = .done ∧ Cycle .waiting page n news .live st := by
  cases h with
  | spawning _ htold => exact ⟨rfl, .up rfl htold⟩
  | pending hd => cases hd
  | down hidle | asked hidle | refused hidle | up hidle | leaving hidle | left hidle => cases hidle

theorem Cycle.disconnect (h : Cycle loop page n news .live st) :
    Cycle loop page n news .leaving .disconnected := by
  cases h with
  | up hidle htold => exact .leaving hidle htold

theorem Cycle.notify (h : Cycle loop page n news .leaving st) :
    Cycle loop page n (news ++ [.disconnected]) .done st := by
  cases h with
  | leaving hidle htold => exact .left hidle htold

theorem Told.hear (h : Told page (st :: news)) : Told st news := by
  rcases h with ⟨-, heq⟩ | ⟨-, heq⟩
  · cases heq
    exact .inr ⟨rfl, rfl⟩
  · cases heq

/-- The page comes to show the next of the news. -/
theorem Cycle.hear (h : Cycle loop page n (st' :: news) tasks st) :
    Cycle loop st' n news tasks st := by
  generalize heq : st' :: news = all at h
  cases h with
  | down | asked | pending => cases heq
  | refused hidle =>
    cases heq
    exact .down hidle
  | spawning hloop htold => exact .spawning hloop (heq ▸ htold).hear
  | up hidle htold => exact .up hidle (heq ▸ htold).hear
  | leaving hidle htold => exact .leaving hidle (heq ▸ htold).hear
  | left hidle htold =>
    rcases htold with ⟨rfl, rfl⟩ | ⟨rfl, rfl⟩
    · cases heq
      exact .left hidle (.inr ⟨rfl, rfl⟩)
    · cases heq
      exact .down hidle

end

section

variable {env : Env} {s t : State} {a : Action}

theorem Tasks.done_of_append {phases : List ClientPhase} (h : Tasks.done.Describes phases) :
    Tasks.live.Describes (phases ++ [.running]) := ⟨phases, .running, rfl, h, rfl⟩

/-- A task that is not finished is the last one, and the tasks are as far as it is. -/
theorem Tasks.Describes.of_live {tasks : Tasks} {phases : List ClientPhase}
    (h : tasks.Describes phases) {i : ℕ} {p : ClientPhase} (hi : phases[i]? = some p)
    (hp : p.isLive = true) :
    tasks = .live ∧ (∀ q : ClientPhase, q.isLive = true → Tasks.live.Describes (phases.set i q)) ∧
      ∀ reason, Tasks.leaving.Describes (phases.set i (.leaving reason)) := by
  have hne : p ≠ .finished := by
    rintro rfl
    cases hp
  cases tasks with
  | done => exact absurd (h p (List.mem_of_getElem? hi)) hne
  | live =>
    obtain ⟨old, last, hphases, hold, -⟩ := h
    obtain ⟨-, -, hset⟩ := describes_live hphases hold hi hne
    exact ⟨rfl, fun q hq ↦ ⟨old, q, hset q, hold, hq⟩, fun reason ↦ ⟨old, reason, hset _, hold⟩⟩
  | leaving =>
    obtain ⟨old, reason, hphases, hold⟩ := h
    obtain ⟨-, rfl, -⟩ := describes_live hphases hold hi hne
    cases hp

theorem Tasks.Describes.of_leaving {tasks : Tasks} {phases : List ClientPhase}
    (h : tasks.Describes phases) {i : ℕ} {reason : String}
    (hi : phases[i]? = some (.leaving reason)) :
    tasks = .leaving ∧ Tasks.done.Describes (phases.set i .finished) := by
  cases tasks with
  | done => cases h _ (List.mem_of_getElem? hi)
  | live =>
    obtain ⟨old, last, hphases, hold, hlast⟩ := h
    obtain ⟨-, rfl, -⟩ := describes_live hphases hold hi (by simp)
    cases hlast
  | leaving =>
    obtain ⟨old, reason', hphases, hold⟩ := h
    obtain ⟨-, -, hset⟩ := describes_live hphases hold hi (by simp)
    refine ⟨rfl, fun q hq ↦ ?_⟩
    rw [hset, List.mem_append, List.mem_singleton] at hq
    exact hq.elim (hold q) id

theorem map_phase_setClient (s : State) (i : ℕ) (c : Client) :
    (s.setClient i c).clients.map Client.phase = (s.clients.map Client.phase).set i c.phase :=
  List.map_set

theorem getElem?_map_phase {i : ℕ} {c : Client} {p : ClientPhase} (hc : s.clients[i]? = some c)
    (hp : c.phase = p) : (s.clients.map Client.phase)[i]? = some p := by
  rw [List.getElem?_map, hc, Option.map_some, hp]

theorem news_post {s t : State} {text : String} (hevents : t.events = s.events)
    (htoJs : t.toJs = s.toJs ++ [text]) :
    t.news env = s.news env ++ (shows env text).toList := by
  rw [State.news, State.news, hevents, htoJs, ← List.append_assoc, List.filterMap_append]
  cases h : shows env text <;> simp [h]

/-- A step that leaves the tasks alone. -/
theorem State.InCycle.turn (hs : s.InCycle env)
    (hphases : t.clients.map Client.phase = s.clients.map Client.phase)
    (hcycle : ∀ tasks, Cycle s.loop s.serviceStatus (s.asked env) (s.news env) tasks s.status →
      Cycle t.loop t.serviceStatus (t.asked env) (t.news env) tasks t.status) :
    t.InCycle env := by
  obtain ⟨tasks, htasks, h⟩ := hs
  exact ⟨tasks, hphases ▸ htasks, hcycle tasks h⟩

/-- A step that is none of the round. -/
theorem State.InCycle.keep (hs : s.InCycle env) (hasked : t.asked env = s.asked env)
    (hnews : t.news env = s.news env) (hpage : t.serviceStatus = s.serviceStatus)
    (hloop : t.loop = s.loop ∨ s.loop.isIdle = true ∧ t.loop.isIdle = true)
    (hphases : t.clients.map Client.phase = s.clients.map Client.phase)
    (hstatus : t.status = s.status) : t.InCycle env := by
  refine hs.turn hphases fun tasks hcycle ↦ ?_
  rw [hasked, hnews, hpage, hstatus]
  rcases hloop with hloop | ⟨hidle, hidle'⟩
  · rwa [hloop]
  · exact hcycle.idle hidle hidle'

/-- A step within the dealing with a request. -/
theorem State.InCycle.pending (hs : s.InCycle env) {st st' : ControlServiceStatus}
    (hdue : s.loop.due = some st) (hdue' : t.loop.due = some st') (hstatus : t.status = st')
    (hasked : t.asked env = s.asked env) (hnews : t.news env = s.news env)
    (hpage : t.serviceStatus = s.serviceStatus) (hclients : t.clients = s.clients) :
    t.InCycle env := by
  refine hs.turn (by rw [hclients]) fun tasks hcycle ↦ ?_
  obtain ⟨hp, hn, hw, rfl, -⟩ := hcycle.of_due hdue
  rw [hasked, hnews, hpage, hp, hn, hw, hstatus]
  exact .pending hdue'

theorem State.InCycle.status_of_due (hs : s.InCycle env) {st : ControlServiceStatus}
    (hdue : s.loop.due = some st) : s.status = st := by
  obtain ⟨_, _, hcycle⟩ := hs
  exact (hcycle.of_due hdue).2.2.2.2

theorem State.InCycle.recv (hs : s.InCycle env) (hrunning : t.loop ≠ .failed)
    (hasked : (received s .recv).toList.countP (isRequest env) + t.asked env = s.asked env)
    (h : Outcome env s .recv t) : t.InCycle env := by
  cases h with
  | misread => exact absurd rfl hrunning
  | @request input fromJs message hloop hjs hread hname =>
    have hinput : isRequest env input = true := by simp [isRequest, hread, hname]
    simp only [received, hjs, List.head?_cons, Option.toList_some, List.countP_nil,
      List.countP_cons, hinput, if_true] at hasked
    refine hs.turn rfl fun tasks hcycle ↦ ?_
    rw [← hasked, Nat.zero_add, Nat.add_comm] at hcycle
    exact hcycle.request message
  | @other input fromJs message hloop hjs hread hname =>
    have hinput : isRequest env input = false := by simp [isRequest, hread, hname]
    refine hs.keep ?_ rfl rfl (.inr ⟨by rw [hloop]; rfl, rfl⟩) rfl rfl
    simpa [received, hjs, hinput] using hasked

/-- The loop does what it has in hand. With one login at a time a request is only looked at while
there is no connection. -/
theorem State.InCycle.advance (hl : env.Lawful) (hs : s.InCycle env) (hrunning : t.loop ≠ .failed)
    (hasked : t.asked env = s.asked env) (h : Outcome env s .advance t) : t.InCycle env := by
  have hdue {st : ControlServiceStatus} (hdue : s.loop.due = some st) := hs.status_of_due hdue
  have hpost := @news_post env s t
  cases h with
  | reject => exact absurd rfl hrunning
  | confirm hloop hstatus | ignore hloop hstatus =>
    cases hstatus.symm.trans (hdue (by rw [hloop]; rfl))
  | reply hloop =>
    obtain ⟨tasks, htasks, hcycle⟩ := hs
    rw [hloop] at hcycle
    exact hcycle.not_replying.elim
  | accept hloop hstatus =>
    exact hs.pending (by rw [hloop]; rfl) rfl hstatus hasked rfl rfl rfl
  | start hloop | settle hloop | fail hloop =>
    exact hs.pending (by rw [hloop]; rfl) rfl rfl hasked rfl rfl rfl
  | store hloop =>
    exact hs.pending (by rw [hloop]; rfl) rfl (hdue (by rw [hloop]; rfl)) hasked rfl rfl rfl
  | announce hloop =>
    refine hs.turn rfl fun tasks hcycle ↦ ?_
    rw [hloop] at hcycle
    rw [hasked, hpost rfl rfl, hl.shows_response]
    exact hcycle.announce
  | refuse hloop =>
    refine hs.turn rfl fun tasks hcycle ↦ ?_
    rw [hloop] at hcycle
    rw [hasked, hpost rfl rfl, hl.shows_response]
    exact hcycle.refuse
  | spawn hloop =>
    obtain ⟨tasks, htasks, hcycle⟩ := hs
    rw [hloop] at hcycle
    obtain ⟨rfl, hlive⟩ := hcycle.spawn
    refine ⟨.live, ?_, ?_⟩
    · rw [List.map_append]
      exact Tasks.done_of_append htasks
    · rw [hasked]
      exact hlive
  | forward hloop =>
    exact hs.keep hasked rfl rfl (.inr ⟨by rw [hloop]; rfl, rfl⟩) (map_phase_forward s _) rfl

theorem State.InCycle.doConnect {result : Except String Unit} (hs : s.InCycle env)
    (hasked : t.asked env = s.asked env) (h : Outcome env s (.doConnect result) t) :
    t.InCycle env := by
  cases h with
  | connect hloop | miss hloop =>
    exact hs.pending (by rw [hloop]; rfl) rfl (hs.status_of_due (by rw [hloop]; rfl)) hasked rfl rfl
      rfl

theorem State.InCycle.onRecvMessage (hl : env.Lawful) {i : ℕ} {message : Message}
    (hs : s.InCycle env) (hname : isLocalName message.name = false)
    (hasked : t.asked env = s.asked env) (h : Outcome env s (.onRecvMessage i message) t) :
    t.InCycle env := by
  have hpost := @news_post env s t
  cases h with
  | ping => exact hs
  | relay =>
    refine hs.keep hasked ((hpost rfl rfl).trans ?_) rfl (.inl rfl) rfl rfl
    rw [hl.shows_relay hname]
    exact List.append_nil _

theorem State.InCycle.pollWrite {i : ℕ} (hs : s.InCycle env) (hasked : t.asked env = s.asked env)
    (h : Outcome env s (.pollWrite i) t) : t.InCycle env := by
  cases h with
  | write hc =>
    refine hs.keep hasked rfl rfl (.inl rfl) ?_ rfl
    rw [map_phase_setClient]
    obtain ⟨hlt, heq⟩ := List.getElem?_eq_some_iff.1 (getElem?_map_phase hc rfl)
    rw [← heq, List.set_getElem_self]

theorem State.InCycle.finish {i : ℕ} {reason : String} (hs : s.InCycle env)
    (hasked : t.asked env = s.asked env) (h : Outcome env s (.finish i reason) t) :
    t.InCycle env := by
  cases h with
  | finish hc hphase =>
    obtain ⟨tasks, htasks, hcycle⟩ := hs
    obtain ⟨rfl, hset, -⟩ := htasks.of_live (getElem?_map_phase hc hphase) rfl
    refine ⟨.live, ?_, ?_⟩
    · rw [map_phase_setClient]
      exact hset _ rfl
    · rw [hasked]
      exact hcycle

theorem State.InCycle.disconnect {i : ℕ} (hs : s.InCycle env) (hasked : t.asked env = s.asked env)
    (h : Outcome env s (.disconnect i) t) : t.InCycle env := by
  cases h with
  | @disconnect _ c reason hc hphase =>
    obtain ⟨tasks, htasks, hcycle⟩ := hs
    obtain ⟨rfl, -, hset⟩ := htasks.of_live (getElem?_map_phase hc hphase) rfl
    refine ⟨.leaving, ?_, ?_⟩
    · rw [map_phase_setClient]
      exact hset reason
    · rw [hasked]
      exact hcycle.disconnect

theorem State.InCycle.notify (hl : env.Lawful) {i : ℕ} (hs : s.InCycle env)
    (hasked : t.asked env = s.asked env) (h : Outcome env s (.notify i) t) : t.InCycle env := by
  have hpost := @news_post env s t
  cases h with
  | notify hc hphase =>
    obtain ⟨tasks, htasks, hcycle⟩ := hs
    obtain ⟨rfl, hset⟩ := htasks.of_leaving (getElem?_map_phase hc hphase)
    refine ⟨.done, ?_, ?_⟩
    · exact map_phase_setClient s i _ ▸ hset
    · rw [hasked, hpost rfl rfl, hl.shows_ntf]
      exact hcycle.notify

/-- The page takes the next of the events, which may be news or none. -/
theorem State.InCycle.listen (hs : s.InCycle env) (hasked : t.asked env = s.asked env)
    (h : Outcome env s .listen t) : t.InCycle env := by
  cases h with
  | @hear payload events hevents =>
    have hnews : s.news env = (shows env payload).toList ++ (events ++ s.toJs).filterMap
        (shows env) := by
      rw [State.news, hevents, List.cons_append, List.filterMap_cons]
      cases shows env payload <;> rfl
    refine hs.turn rfl fun tasks hcycle ↦ ?_
    rw [hasked]
    change Cycle s.loop (listener env s.serviceStatus payload) _ ((events ++ s.toJs).filterMap
      (shows env)) tasks s.status
    rw [listener_eq]
    rw [hnews] at hcycle
    cases hp : shows env payload with
    | none =>
      rw [hp] at hcycle
      exact hcycle
    | some st =>
      rw [hp] at hcycle
      exact hcycle.hear

theorem State.InCycle.step (hl : env.Lawful) (he : env.Reads) (hs : s.InCycle env)
    (hserved : s.Served) (ha : OneLogin s a) (h : step env s a = some t) : t.InCycle env := by
  have hasked := asked_step hserved.running h
  have hrunning := (hserved.step he ha.1 h).running
  -- Only clicks and the loop's taking change how many requests are on their way.
  have hsame (hr : received s a = none) (ht : a.texts = []) : t.asked env = s.asked env := by
    simpa [hr, ht] using hasked
  have hout := step_outcome h
  cases a with
  | login serverAdress =>
    cases hout with
    | login =>
      refine hs.turn rfl fun tasks hcycle ↦ ?_
      rw [ha.2.2 rfl] at hcycle
      simp only [received, Option.toList_none, List.countP_nil, Action.texts, List.countP_cons,
        he.isRequest_connect, if_true, Nat.zero_add] at hasked
      rw [hasked]
      exact hcycle.login
  | control =>
    cases hout with
    | control =>
      refine hs.keep ?_ rfl rfl (.inl rfl) rfl rfl
      simpa [received, Action.texts, he.isRequest_press] using hasked
  | invoke => cases ha.1
  | js2rs =>
    cases hout with
    | submit => exact hs.keep (hsame rfl rfl) rfl rfl (.inl rfl) rfl rfl
    | turnAway hfailed => exact absurd hfailed hserved.running
  | recv => exact hs.recv hrunning hasked hout
  | advance => exact hs.advance hl hrunning (hsame rfl rfl) hout
  | doConnect => exact hs.doConnect (hsame rfl rfl) hout
  | onRecvMessage => exact hs.onRecvMessage hl ha.2.1 (hsame rfl rfl) hout
  | pollWrite => exact hs.pollWrite (hsame rfl rfl) hout
  | finish => exact hs.finish (hsame rfl rfl) hout
  | disconnect => exact hs.disconnect (hsame rfl rfl) hout
  | notify => exact hs.notify hl (hsame rfl rfl) hout
  | rs2js =>
    cases hout with
    | emit hjs =>
      refine hs.keep (hsame rfl rfl) ?_ rfl (.inl rfl) rfl rfl
      simp [State.news, hjs]
  | listen => exact hs.listen (hsame rfl rfl) hout

theorem inCycle_of_run (hl : env.Lawful) (he : env.Reads) {as : List Action}
    (h : Run (Service.step env) OneLogin .init as s) : s.InCycle env := by
  refine h.along (fun bs u a v hu hs ha hv ↦ ?_) ⟨.done, (fun _ hp ↦ by cases hp), .down rfl⟩
  exact hs.step hl he (served_of_run he (hu.mono fun _ _ ha ↦ ha.1)) ha hv

theorem State.InCycle.of_disconnected (hs : s.InCycle env)
    (hpage : s.serviceStatus = .disconnected) :
    s.status = .disconnected ∧ (∀ c ∈ s.clients, c.phase = .finished) ∧ s.loop.due = none ∧
      s.asked env = 0 ∧ s.news env = [] := by
  obtain ⟨tasks, htasks, hcycle⟩ := hs
  rw [hpage] at hcycle
  obtain ⟨hidle, hn, hnews, rfl, hstatus⟩ := hcycle.of_disconnected
  refine ⟨hstatus, fun c hc ↦ htasks _ (List.mem_map_of_mem hc), ?_, hn, hnews⟩
  cases hd : s.loop.due with
  | none => rfl
  | some st =>
    rw [RunLoop.not_idle_of_due hd] at hidle
    cases hidle

/-- A task that has still to notify the page is not settled. -/
theorem State.Quiescent.not_leaving (hq : s.Quiescent)
    (h : Tasks.leaving.Describes (s.clients.map Client.phase)) : False := by
  obtain ⟨old, reason, hphases, -⟩ := h
  have hmem : .leaving reason ∈ s.clients.map Client.phase := by simp [hphases]
  obtain ⟨c, hc, hphase⟩ := List.mem_map.1 hmem
  have hnot := hq.notified c hc
  rw [hphase] at hnot
  cases hnot

theorem State.InCycle.agrees (hs : s.InCycle env) (hq : s.Quiescent) :
    s.serviceStatus = .connected ↔ s.status = .connected := by
  obtain ⟨tasks, htasks, hcycle⟩ := hs
  have hnews : s.news env = [] := by
    rw [State.news, hq.delivered, hq.output]
    rfl
  rw [hnews, hq.loop] at hcycle
  generalize s.serviceStatus = page, s.status = status, s.asked env = n at hcycle ⊢
  generalize hall : ([] : List ControlServiceStatus) = news at hcycle
  cases hcycle with
  | down | asked => simp
  | pending hd => cases hd
  | refused => cases hall
  | spawning hspawning => cases hspawning
  | up _ htold =>
    obtain ⟨-, hnews⟩ | ⟨rfl, -⟩ := htold
    · cases hall.trans hnews
    · simp
  | leaving => exact (hq.not_leaving htasks).elim
  | left => exact absurd hall.symm (List.append_ne_nil_of_right_ne_nil _ (List.cons_ne_nil _ _))

end

def twoLogins : List Action :=
  List.flatten [connection,
    [.finish 0 "reset", .disconnect 0, .notify 0, .rs2js, .listen, .login "h", .js2rs 1, .recv,
      .advance, .advance, .doConnect (.ok ()), .advance, .advance, .advance, .advance, .rs2js,
      .listen]]

end MusicRemote.Control.Service
