import MusicRemote.Control.Status

namespace MusicRemote.Control.Service

open Protocol Protocol.Json Foundation.Transition

/-- The page reads what the service writes. -/
structure Env.Lawful (env : Env) : Prop where
  pack : ∀ message : Message, env.parsePack (Json.toString message) = some message
  response : ∀ r : ConnectResponse, env.parseData (Json.toString r) = some (some r.ok)
  ntf : ∀ n : DisconnectNtf, (env.parseData (Json.toString n)).isSome = true

def isLocalName (name : String) : Bool := name = "ConnectResponse" || name = "DisconnectNtf"

def Action.usesLocalName : Action → Bool
  | .onRecvMessage _ message => isLocalName message.name
  | _ => false

def Post.tells : Post → Prop → Prop
  | .nothing, c => c
  | .accept, _ => True
  | .refuse _, _ => False
  | .depart _, _ => False
  | .relay _, c => c

theorem Env.Lawful.pageEnv : pageEnv.Lawful where
  pack := parseMessage_toString
  response r := by simpa only [Service.pageEnv] using parseData_toString r
  ntf n := by simpa only [Service.pageEnv] using isSome_parseData n

section

variable {env : Env}

theorem Env.Lawful.listener_response (he : env.Lawful) (st : ControlServiceStatus)
    (r : ConnectResponse) : listener env st (Json.toString (messageOf r)) =
      if r.ok then .connected else .disconnected := by
  have hn : (messageOf r).name = "ConnectResponse" := rfl
  have hd : (messageOf r).data = Json.toString r := rfl
  simp only [listener, he.pack, hd, he.response, hn, if_true]

theorem Env.Lawful.listener_ntf (he : env.Lawful) (st : ControlServiceStatus)
    (n : DisconnectNtf) : listener env st (Json.toString (messageOf n)) = .disconnected := by
  have hn : (messageOf n).name = "DisconnectNtf" := rfl
  have hd : (messageOf n).data = Json.toString n := rfl
  obtain ⟨message, hmessage⟩ := Option.isSome_iff_exists.1 (he.ntf n)
  simp only [listener, he.pack, hd, hmessage, hn, if_true]
  rw [if_neg (by decide)]

theorem listener_relay {message : Message}
    (hp : env.parsePack (Json.toString message) = some message)
    (hm : isLocalName message.name = false) (st : ControlServiceStatus) :
    listener env st (Json.toString message) = st := by
  simp only [isLocalName, Bool.or_eq_false_iff, decide_eq_false_iff_not] at hm
  simp only [listener, hp]
  split
  · rfl
  · rw [if_neg hm.1, if_neg hm.2]

theorem Env.Lawful.tells_iff (he : env.Lawful) {post : Post} {s t : State} {a : Action}
    (ha : a.usesLocalName = false) (hd : post.Due s a) (hc : Conveys env s post t) :
    t.shown env = .connected ↔ post.tells (s.shown env = .connected) := by
  refine hc.trans ?_
  cases post with
  | nothing => rfl
  | accept => simp [Post.texts, Post.tells, he.listener_response, accepted]
  | refuse error => simp [Post.texts, Post.tells, he.listener_response, refused]
  | depart reason => simp [Post.texts, Post.tells, he.listener_ntf]
  | relay message =>
    obtain ⟨i, rfl⟩ := hd
    simp [Post.texts, Post.tells, listener_relay (he.pack _) ha]

end

def ClientPhase.isLeaving : ClientPhase → Bool
  | .leaving _ => true
  | .running | .ended _ | .finished => false

/-- A task has written `Disconnected` and not yet told the page. -/
def Link.Departing (l : Link) : Prop := ∃ p ∈ l.phases, p.isLeaving = true

def Link.Clear (l : Link) : Prop := l.status = .connected ↔ ¬ l.Departing

structure Link.Agrees (l : Link) (shown : Prop) : Prop where
  connected : l.status = .connected → l.attempt ≠ .announcing → ¬ l.Departing ∧ shown
  otherwise : l.status ≠ .connected → ¬ l.Departing → ¬ shown

section

variable {l l' : Link} {shown : Prop}

theorem Link.departing_set {i : ℕ} {p p' : ClientPhase} (hi : l.phases[i]? = some p)
    (hp : p.isLeaving = false) (hp' : p'.isLeaving = false) :
    Link.Departing { l with phases := l.phases.set i p' } ↔ l.Departing := by
  simp only [Departing, List.mem_iff_getElem?]
  constructor
  · rintro ⟨q, ⟨j, hj⟩, hq⟩
    by_cases hij : i = j
    · subst hij
      rw [List.getElem?_set_self (List.getElem?_eq_some_iff.1 hi).1, Option.some.injEq] at hj
      rw [← hj, hp'] at hq
      cases hq
    · exact ⟨q, ⟨j, by rwa [List.getElem?_set_ne hij] at hj⟩, hq⟩
  · rintro ⟨q, ⟨j, hj⟩, hq⟩
    by_cases hij : i = j
    · subst hij
      rw [hi, Option.some.injEq] at hj
      rw [← hj, hp] at hq
      cases hq
    · exact ⟨q, ⟨j, by rwa [List.getElem?_set_ne hij]⟩, hq⟩

theorem Link.Agrees.move {post : Post} (hl : l.Tracked) (ha : l.Agrees shown)
    (hk : post = .accept → l.Clear) (h : l.Move post l') : l'.Agrees (post.tells shown) := by
  -- Only `announce` makes the page connected, only `notify` and `refuse` take it back.
  cases h with
  | stay | relay => exact ha
  | reply =>
    refine ⟨fun hs hat ↦ ⟨(ha.connected hs hat).1, trivial⟩, fun hs hd ↦ ?_⟩
    exact absurd ((hk rfl).2 hd) hs
  | start hat hs => exact ⟨fun h ↦ absurd (hs.symm.trans h) nofun, ha.otherwise⟩
  | dial hat =>
    have hs : l.status = .disconnected := hl.attempt _ (by rw [hat]; rfl)
    exact ⟨nofun, fun _ hd ↦ ha.otherwise (hs ▸ nofun) hd⟩
  | establish hat => exact ⟨fun _ h ↦ absurd rfl h, fun h ↦ absurd rfl h⟩
  | announce hat =>
    have hs : l.status = .connected := hl.attempt _ (by rw [hat]; rfl)
    exact ⟨fun _ _ ↦ ⟨(hk rfl).1 hs, trivial⟩, fun h ↦ absurd hs h⟩
  | spawn hat =>
    have hs : l.status = .connected := hl.attempt _ (by rw [hat]; rfl)
    obtain ⟨hd, hc⟩ := ha.connected hs (by rw [hat]; nofun)
    refine ⟨fun _ _ ↦ ⟨?_, hc⟩, fun h ↦ absurd hs h⟩
    rintro ⟨p, hp, hv⟩
    rcases List.mem_append.1 hp with hp | hp
    · exact hd ⟨p, hp, hv⟩
    · rw [List.mem_singleton.1 hp] at hv
      cases hv
  | fail hat =>
    have hs : l.status = .connecting := hl.attempt _ (by rw [hat]; rfl)
    exact ⟨nofun, fun _ hd ↦ ha.otherwise (hs ▸ nofun) hd⟩
  | refuse error hat =>
    have hs : l.status = .disconnected := hl.attempt _ (by rw [hat]; rfl)
    exact ⟨fun h ↦ absurd (hs.symm.trans h) nofun, fun _ _ ↦ id⟩
  | finish reason hi =>
    have hd : Link.Departing { l with phases := l.phases.set _ (.ended reason) } ↔ l.Departing :=
      Link.departing_set hi rfl rfl
    exact ⟨fun hs hat ↦ ⟨fun h ↦ (ha.connected hs hat).1 (hd.1 h), (ha.connected hs hat).2⟩,
      fun hs h ↦ ha.otherwise hs (fun h' ↦ h (hd.2 h'))⟩
  | @disconnect i reason hi =>
    have hm : .leaving reason ∈ l.phases.set i (.leaving reason) :=
      List.mem_set (List.getElem?_eq_some_iff.1 hi).1 _
    exact ⟨nofun, fun _ hd ↦ absurd ⟨_, hm, rfl⟩ hd⟩
  | notify hi =>
    refine ⟨fun hs hat ↦ ?_, fun _ _ ↦ id⟩
    exact absurd ⟨_, List.mem_of_getElem? hi, rfl⟩ (ha.connected hs hat).1

end

/-- Nothing is under way: the run loop waits, no task is about to notify the page, and the
page has seen every message. -/
structure State.Quiescent (s : State) : Prop where
  loop : s.loop = .waiting
  input : s.fromJs = []
  notified : ∀ c ∈ s.clients, c.phase.isLeaving = false
  output : s.toJs = []
  delivered : s.events = []

def Action.isAdvance : Action → Bool
  | .advance => true
  | _ => false

/-- Whenever `run` tells the page that it is connected, either it is and every task that
ended has notified the page, or it is not and the notification is still to come. -/
def Timely (s : State) (a : Action) : Prop :=
  a.isAdvance = true → s.loop.announces = true →
    (s.status = .connected ↔ ∀ c ∈ s.clients, c.phase.isLeaving = false)

instance (s : State) (a : Action) : Decidable (Timely s a) :=
  inferInstanceAs (Decidable (a.isAdvance = true → s.loop.announces = true →
    (s.status = .connected ↔ ∀ c ∈ s.clients, c.phase.isLeaving = false)))

theorem not_departing_iff (s : State) :
    ¬ s.link.Departing ↔ ∀ c ∈ s.clients, c.phase.isLeaving = false := by
  simp [Link.Departing, State.link]

section

variable {env : Env} {as : List Action} {s : State}

theorem agrees_of_run (he : env.Lawful)
    (h : Run (step env) (fun s a ↦ a.usesLocalName = false ∧ Timely s a) .init as s) :
    s.link.Agrees (s.shown env = .connected) := by
  refine h.invariant_of (J := fun s ↦ s.link.Tracked)
    (I := fun s ↦ s.link.Agrees (s.shown env = .connected)) (fun s a t hl _ ht ↦ ?_)
    (fun s a t hl hi ha ht ↦ ?_) .initial ⟨nofun, fun _ _ ↦ nofun⟩
  · obtain ⟨post, hm, -⟩ := step_moves ht
    exact hl.move hm
  · obtain ⟨post, hm, hc, hd⟩ := step_moves ht
    rw [he.tells_iff ha.1 hd hc]
    refine hi.move hl ?_ hm
    rintro rfl
    obtain ⟨rfl, hl⟩ := hd
    exact (ha.2 rfl hl).trans (not_departing_iff s).symm

/-- Once everything has settled the page shows `Connected` exactly when the service is. -/
theorem page_agrees_with_the_service (he : env.Lawful)
    (h : Run (step env) (fun s a ↦ a.usesLocalName = false ∧ Timely s a) .init as s)
    (hq : s.Quiescent) : s.serviceStatus = .connected ↔ s.status = .connected := by
  have hi := agrees_of_run he h
  have hd := (not_departing_iff s).2 hq.notified
  -- Nothing is on its way to the page, so it shows what it comes to show.
  have hs : s.shown env = s.serviceStatus := by
    simp only [State.shown, hq.delivered, hq.output, List.append_nil, List.foldl_nil]
  have hat : s.link.attempt ≠ .announcing := by
    rw [State.link, hq.loop]
    simp [RunLoop.attempt]
  rw [hs] at hi
  refine ⟨fun hc ↦ ?_, fun hc ↦ (hi.connected hc hat).2⟩
  by_contra hne
  exact hi.otherwise hne hd hc

end

theorem page_agrees_once_connected :
    ∃ s, Run (step pageEnv) (fun s a ↦ a.usesLocalName = false ∧ Timely s a) .init connection s ∧
      s.Quiescent ∧ s.status = .connected ∧ s.serviceStatus = .connected := by
  have hrun : ∃ s,
      Run (step pageEnv) (fun s a ↦ a.usesLocalName = false ∧ Timely s a) .init connection s ∧
        (s.loop = .waiting ∧ s.fromJs = [] ∧ (∀ c ∈ s.clients, c.phase.isLeaving = false) ∧
          s.toJs = [] ∧ s.events = [] ∧ s.status = .connected) :=
    Run.exists_of_execute (by decide +kernel)
  obtain ⟨s, hs, hl, hf, hc, hj, he, hst⟩ := hrun
  have hq : s.Quiescent := ⟨hl, hf, hc, hj, he⟩
  exact ⟨s, hs, hq, hst, (page_agrees_with_the_service .pageEnv hs hq).2 hst⟩

/-- Two clicks before the first answer. The first connection ends, and the second request is
carried out between the end's write of the status and its notification. -/
def lateNotification : List Action :=
  [.login "h", .login "h", .js2rs 0, .recv, .js2rs 1, .advance, .advance, .doConnect (.ok ()),
    .advance, .advance, .advance, .advance, .rs2js, .listen, .finish 0 "reset", .disconnect 0,
    .recv, .advance, .advance, .doConnect (.ok ()), .advance, .advance, .advance, .advance,
    .rs2js, .listen, .notify 0, .rs2js, .listen]

theorem page_shows_disconnected_while_connected :
    ∃ s, Run (step pageEnv) (fun _ a ↦ a.usesLocalName = false) .init lateNotification s ∧
      s.Quiescent ∧ (∀ texts ∈ s.handlers, texts = []) ∧
      s.status = .connected ∧ s.serviceStatus = .disconnected := by
  have hrun : ∃ s,
      Run (step pageEnv) (fun _ a ↦ a.usesLocalName = false) .init lateNotification s ∧
        (s.loop = .waiting ∧ s.fromJs = [] ∧ (∀ c ∈ s.clients, c.phase.isLeaving = false) ∧
          s.toJs = [] ∧ s.events = [] ∧ (∀ texts ∈ s.handlers, texts = []) ∧
          s.status = .connected ∧ s.serviceStatus = .disconnected) :=
    Run.exists_of_execute (by decide +kernel)
  obtain ⟨s, hs, hl, hf, hc, hj, he, hrest⟩ := hrun
  exact ⟨s, hs, ⟨hl, hf, hc, hj, he⟩, hrest⟩

end MusicRemote.Control.Service
