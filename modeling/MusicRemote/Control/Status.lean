import MusicRemote.Control.Service
import MusicRemote.Protocol.Reading

namespace MusicRemote.Control.Service

open Protocol Protocol.Json Foundation.Transition

inductive Attempt
  | idle
  | starting
  | dialing
  | announcing
  | spawning
  | refusing
  deriving DecidableEq

def RunLoop.attempt : RunLoop → Attempt
  | .waiting | .examining _ | .replying | .forwarding _ | .failed => .idle
  | .starting _ => .starting
  | .connecting _ | .opening | .opened | .failing _ => .dialing
  | .announcing => .announcing
  | .spawning => .spawning
  | .refusing _ => .refusing

def Attempt.status : Attempt → Option ControlServiceStatus
  | .idle => none
  | .starting | .refusing => some .disconnected
  | .dialing => some .connecting
  | .announcing | .spawning => some .connected

/-- What the steps of a connection are about: the attempt under way, the shared status,
and the phases of the tasks spawned so far. -/
structure Link where
  attempt : Attempt
  status : ControlServiceStatus
  phases : List ClientPhase

inductive Post
  | nothing
  | accept
  | refuse (error : String)
  | depart (reason : String)
  | relay (message : Message)

def Post.texts : Post → List String
  | .nothing => []
  | .accept => [Json.toString (messageOf accepted)]
  | .refuse error => [Json.toString (messageOf (refused error))]
  | .depart reason => [Json.toString (messageOf (⟨reason⟩ : DisconnectNtf))]
  | .relay message => [Json.toString message]

inductive Link.Move (l : Link) : Post → Link → Prop
  | stay : Move l .nothing l
  | relay (message : Message) : Move l (.relay message) l
  | reply : l.attempt = .idle → Move l .accept l
  | start : l.attempt = .idle → l.status = .disconnected →
      Move l .nothing { l with attempt := .starting }
  | dial : l.attempt = .starting →
      Move l .nothing { l with attempt := .dialing, status := .connecting }
  | establish : l.attempt = .dialing →
      Move l .nothing { l with attempt := .announcing, status := .connected }
  | announce : l.attempt = .announcing → Move l .accept { l with attempt := .spawning }
  | spawn : l.attempt = .spawning →
      Move l .nothing { l with attempt := .idle, phases := l.phases ++ [.running] }
  | fail : l.attempt = .dialing →
      Move l .nothing { l with attempt := .refusing, status := .disconnected }
  | refuse (error : String) : l.attempt = .refusing →
      Move l (.refuse error) { l with attempt := .idle }
  | finish {i : ℕ} (reason : String) : l.phases[i]? = some .running →
      Move l .nothing { l with phases := l.phases.set i (.ended reason) }
  | disconnect {i : ℕ} {reason : String} : l.phases[i]? = some (.ended reason) →
      Move l .nothing { l with status := .disconnected, phases := l.phases.set i (.leaving reason) }
  | notify {i : ℕ} {reason : String} : l.phases[i]? = some (.leaving reason) →
      Move l (.depart reason) { l with phases := l.phases.set i .finished }

def State.link (s : State) : Link := ⟨s.loop.attempt, s.status, s.clients.map Client.phase⟩

/-- The value that the page ends with once everything sent to it has been delivered. -/
def State.shown (env : Env) (s : State) : ControlServiceStatus :=
  (s.events ++ s.toJs).foldl (listener env) s.serviceStatus

def RunLoop.announces : RunLoop → Bool
  | .announcing | .replying => true
  | _ => false

def Post.Due (s : State) (a : Action) : Post → Prop
  | .accept => a = .advance ∧ s.loop.announces = true
  | .relay message => ∃ i, a = .onRecvMessage i message
  | _ => True

def Conveys (env : Env) (s : State) (post : Post) (t : State) : Prop :=
  t.shown env = .connected ↔ post.texts.foldl (listener env) (s.shown env) = .connected

theorem listener_cases (env : Env) (payload : String) :
    (∀ st, listener env st payload = st) ∨ ∃ st', ∀ st, listener env st payload = st' := by
  unfold listener
  split
  · exact .inl fun _ ↦ rfl
  · split
    · exact .inl fun _ ↦ rfl
    · split_ifs
      · split
        · exact .inl fun _ ↦ rfl
        · exact .inr ⟨_, fun _ ↦ rfl⟩
      · exact .inr ⟨_, fun _ ↦ rfl⟩
      · exact .inl fun _ ↦ rfl

theorem foldl_listener_iff (env : Env) (payloads : List String) {st st' : ControlServiceStatus}
    (h : st = .connected ↔ st' = .connected) :
    payloads.foldl (listener env) st = .connected ↔
      payloads.foldl (listener env) st' = .connected := by
  induction payloads generalizing st st' with
  | nil => exact h
  | cons payload payloads ih =>
    refine ih ?_
    rcases listener_cases env payload with hk | ⟨_, hk⟩
    · rwa [hk, hk]
    · rw [hk, hk]

theorem sendToJs_eq {s t : State} {text : String} (h : s.sendToJs text = some t) :
    t = { s with toJs := s.toJs ++ [text] } := by
  simp only [State.sendToJs, Option.ite_none_right_eq_some, Option.some.injEq] at h
  exact h.2.symm

section

variable {env : Env} {s t : State} {a : Action}

theorem Conveys.of_eq (he : t.events = s.events) (hj : t.toJs = s.toJs)
    (hs : t.serviceStatus = s.serviceStatus) : Conveys env s .nothing t := by
  simp only [Conveys, State.shown, he, hj, hs, Post.texts, List.foldl_nil]

theorem Conveys.of_append {post : Post} (he : t.events = s.events)
    (hj : t.toJs = s.toJs ++ post.texts) (hs : t.serviceStatus = s.serviceStatus) :
    Conveys env s post t := by
  simp only [Conveys, State.shown, he, hj, hs, List.foldl_append]

def Moves (env : Env) (s : State) (a : Action) (t : State) : Prop :=
  ∃ post : Post, s.link.Move post t.link ∧ Conveys env s post t ∧ post.Due s a

theorem Moves.quiet (hm : s.link.Move .nothing t.link) (he : t.events = s.events)
    (hj : t.toJs = s.toJs) (hs : t.serviceStatus = s.serviceStatus) : Moves env s a t :=
  ⟨.nothing, hm, .of_eq he hj hs, trivial⟩

theorem Moves.same (hl : t.link = s.link) (he : t.events = s.events) (hj : t.toJs = s.toJs)
    (hs : t.serviceStatus = s.serviceStatus) : Moves env s a t :=
  .quiet (hl ▸ .stay) he hj hs

theorem recv_moves (h : recv env s = some t) : Moves env s .recv t := by
  unfold recv at h
  split at h
  · rename_i hl _
    have hk : s.link = ⟨.idle, s.status, s.clients.map Client.phase⟩ := by rw [State.link, hl]; rfl
    dsimp only at h
    split at h
    · cases h
      exact .same hk.symm rfl rfl rfl
    · split_ifs at h <;> cases h <;> exact .same hk.symm rfl rfl rfl
  · cases h

theorem onConnectRequest_moves {message : Message} (hl : s.loop = .examining message) :
    Moves env s a (onConnectRequest env s message) := by
  have hk : s.link = ⟨.idle, s.status, s.clients.map Client.phase⟩ := by rw [State.link, hl]; rfl
  unfold onConnectRequest
  split
  · exact .same hk.symm rfl rfl rfl
  · exact .same hk.symm rfl rfl rfl
  · rename_i hs
    split
    · exact .same hk.symm rfl rfl rfl
    · exact .quiet (.start (congrArg Link.attempt hk) hs) rfl rfl rfl

theorem map_phase_forward (s : State) (message : Message) :
    (forward s message).map Client.phase = s.clients.map Client.phase := by
  unfold forward
  split
  · rfl
  · refine List.ext_getElem? fun j ↦ ?_
    simp only [List.getElem?_map, List.getElem?_modify]
    split_ifs
    · cases s.clients[j]? with
      | none => rfl
      | some c => by_cases hc : c.phase.isRunning = true <;> simp [hc]
    · simp

theorem advance_moves (h : advance env s = some t) : Moves env s .advance t := by
  obtain ⟨status, tx, loop, clients, toJs, fromJs, events, handlers, serviceStatus⟩ := s
  cases loop with
  | waiting | connecting | failed => cases h
  | examining message =>
    cases h
    exact onConnectRequest_moves rfl
  | replying =>
    obtain ⟨u, hu, rfl⟩ := Option.map_eq_some_iff.1 h
    obtain rfl := sendToJs_eq hu
    exact ⟨.accept, .reply rfl, .of_append rfl rfl rfl, rfl, rfl⟩
  | starting request =>
    cases h
    exact .quiet (.dial rfl) rfl rfl rfl
  | opening =>
    cases h
    exact .same rfl rfl rfl rfl
  | opened =>
    cases h
    exact .quiet (.establish rfl) rfl rfl rfl
  | announcing =>
    obtain ⟨u, hu, rfl⟩ := Option.map_eq_some_iff.1 h
    obtain rfl := sendToJs_eq hu
    exact ⟨.accept, .announce rfl, .of_append rfl rfl rfl, rfl, rfl⟩
  | spawning =>
    cases h
    refine .quiet ?_ rfl rfl rfl
    simp only [State.link, List.map_append, List.map_cons, List.map_nil]
    exact .spawn rfl
  | failing error =>
    cases h
    exact .quiet (.fail rfl) rfl rfl rfl
  | refusing error =>
    obtain ⟨u, hu, rfl⟩ := Option.map_eq_some_iff.1 h
    obtain rfl := sendToJs_eq hu
    exact ⟨.refuse error, .refuse error rfl, .of_append rfl rfl rfl, trivial⟩
  | forwarding message =>
    cases h
    refine .same ?_ rfl rfl rfl
    simp only [State.link, map_phase_forward, RunLoop.attempt]

theorem doConnect_moves {result : Except String Unit} (h : doConnect s result = some t) :
    Moves env s a t := by
  unfold doConnect at h
  split at h
  · rename_i hl
    cases h
    exact .same (by rw [State.link, State.link, hl]; rfl) rfl rfl rfl
  · rename_i hl
    cases h
    exact .same (by rw [State.link, State.link, hl]; rfl) rfl rfl rfl
  · cases h

theorem link_setClient (s : State) (i : ℕ) (c : Client) :
    (s.setClient i c).link = { s.link with phases := s.link.phases.set i c.phase } := by
  simp only [State.link, State.setClient, List.map_set]

section

variable {i : ℕ} {c : Client}

theorem onRecvMessage_moves {message : Message} (h : onRecvMessage s c message = some t) :
    Moves env s (.onRecvMessage i message) t := by
  unfold onRecvMessage at h
  split_ifs at h
  · cases h
    exact .same rfl rfl rfl rfl
  · obtain rfl := sendToJs_eq h
    exact ⟨.relay message, .relay message, .of_append rfl rfl rfl, i, rfl⟩

theorem getElem?_phases (hc : s.clients[i]? = some c) : s.link.phases[i]? = some c.phase := by
  rw [State.link, List.getElem?_map, hc]
  rfl

theorem pollWrite_moves (hc : s.clients[i]? = some c) (h : pollWrite s i c = some t) :
    Moves env s a t := by
  unfold pollWrite at h
  split at h
  · cases h
    refine .same ?_ rfl rfl rfl
    obtain ⟨hi, he⟩ := List.getElem?_eq_some_iff.1 (getElem?_phases hc)
    rw [link_setClient, ← he, List.set_getElem_self]
  · cases h

theorem finish_moves {reason : String} (hc : s.clients[i]? = some c)
    (h : finish s i c reason = some t) : Moves env s a t := by
  simp only [finish, Option.ite_none_right_eq_some, Option.some.injEq] at h
  obtain ⟨hp, rfl⟩ := h
  refine .quiet ?_ rfl rfl rfl
  rw [link_setClient]
  exact .finish reason (hp ▸ getElem?_phases hc)

theorem disconnect_moves (hc : s.clients[i]? = some c) (h : disconnect s i c = some t) :
    Moves env s a t := by
  unfold disconnect at h
  split at h
  · rename_i reason hp
    cases h
    refine .quiet ?_ rfl rfl rfl
    change s.link.Move .nothing { (s.setClient i _).link with status := .disconnected }
    rw [link_setClient]
    exact .disconnect (hp ▸ getElem?_phases hc)
  · cases h

theorem notify_moves (hc : s.clients[i]? = some c) (h : notify s i c = some t) :
    Moves env s a t := by
  unfold notify at h
  split at h
  · rename_i reason hp
    obtain ⟨u, hu, rfl⟩ := Option.map_eq_some_iff.1 h
    obtain rfl := sendToJs_eq hu
    refine ⟨.depart reason, ?_, .of_append rfl rfl rfl, trivial⟩
    rw [link_setClient]
    exact .notify (hp ▸ getElem?_phases hc)
  · cases h

end

theorem onClickLogin_moves {serverAdress : String} (h : onClickLogin s serverAdress = some t) :
    Moves env s a t := by
  unfold onClickLogin at h
  split_ifs at h with hs
  cases h
  refine ⟨.nothing, .stay, foldl_listener_iff env _ ?_, trivial⟩
  exact ⟨fun h ↦ ControlServiceStatus.noConfusion h, fun h ↦ absurd h hs⟩

theorem js2rs_moves {i : ℕ} (h : js2rs s i = some t) : Moves env s a t := by
  unfold js2rs at h
  split at h
  · split_ifs at h <;> cases h <;> exact .same rfl rfl rfl rfl
  · cases h

theorem rs2js_moves (h : rs2js s = some t) : Moves env s a t := by
  unfold rs2js at h
  split at h
  · rename_i hj
    cases h
    refine ⟨.nothing, .stay, ?_, trivial⟩
    simp [Conveys, State.shown, hj, Post.texts]
  · cases h

theorem listen_moves (h : listen env s = some t) : Moves env s a t := by
  unfold listen at h
  split at h
  · rename_i he
    cases h
    refine ⟨.nothing, .stay, ?_, trivial⟩
    simp [Conveys, State.shown, he, Post.texts]
  · cases h

theorem step_moves (h : step env s a = some t) : Moves env s a t := by
  cases a with
  | login serverAdress => exact onClickLogin_moves h
  | control button clientToken authorizationCode =>
    simp only [step, onClickControl, Option.ite_none_right_eq_some, Option.some.injEq] at h
    obtain ⟨-, rfl⟩ := h
    exact .same rfl rfl rfl rfl
  | invoke message =>
    cases h
    exact .same rfl rfl rfl rfl
  | js2rs i => exact js2rs_moves h
  | recv => exact recv_moves h
  | advance => exact advance_moves h
  | doConnect result => exact doConnect_moves h
  | onRecvMessage i message =>
    obtain ⟨c, -, h⟩ := Option.bind_eq_some_iff.1 h
    exact onRecvMessage_moves h
  | pollWrite i =>
    obtain ⟨c, hc, h⟩ := Option.bind_eq_some_iff.1 h
    exact pollWrite_moves hc h
  | finish i reason =>
    obtain ⟨c, hc, h⟩ := Option.bind_eq_some_iff.1 h
    exact finish_moves hc h
  | disconnect i =>
    obtain ⟨c, hc, h⟩ := Option.bind_eq_some_iff.1 h
    exact disconnect_moves hc h
  | notify i =>
    obtain ⟨c, hc, h⟩ := Option.bind_eq_some_iff.1 h
    exact notify_moves hc h
  | rs2js => exact rs2js_moves h
  | listen => exact listen_moves h

end

def ClientPhase.isLive : ClientPhase → Bool
  | .running | .ended _ => true
  | .leaving _ | .finished => false

/-- The status belongs to the attempt under way, or else to the last task. -/
structure Link.Tracked (l : Link) : Prop where
  attempt : ∀ st, l.attempt.status = some st → l.status = st
  idle : l.attempt = .idle → l.status ≠ .connecting
  live : ∀ (i : ℕ) p, l.phases[i]? = some p → p.isLive = true →
    l.attempt = .idle ∧ l.status = .connected ∧ i + 1 = l.phases.length

theorem Link.Tracked.initial : State.init.link.Tracked where
  attempt _ h := by cases h
  idle _ h := by cases h
  live i p h := by cases h

section

variable {l l' : Link}

theorem Link.Tracked.no_live (hl : l.Tracked) (ha : l.attempt ≠ .idle) :
    ∀ p ∈ l.phases, p.isLive = false := by
  intro p hp
  obtain ⟨i, hi⟩ := List.getElem?_of_mem hp
  by_contra hv
  exact ha (hl.live i p hi (by simpa using hv)).1

theorem Link.Tracked.of_no_live (ha : ∀ st, l.attempt.status = some st → l.status = st)
    (hi : l.attempt = .idle → l.status ≠ .connecting) (hn : ∀ p ∈ l.phases, p.isLive = false) :
    l.Tracked where
  attempt := ha
  idle := hi
  live i p hp hv := by
    rw [hn p (List.mem_of_getElem? hp)] at hv
    cases hv

theorem Link.Tracked.of_attempt (hl : l.Tracked) (ha : l.attempt ≠ .idle)
    (hs : l'.attempt.status = some l'.status) (hp : l'.phases = l.phases) : l'.Tracked := by
  refine .of_no_live (fun st h ↦ Option.some.inj (hs.symm.trans h)) (fun h ↦ ?_) ?_
  · rw [h] at hs
    cases hs
  · rw [hp]
    exact hl.no_live ha

theorem Link.Tracked.set {i : ℕ} {p p' : ClientPhase} (hl : l.Tracked)
    (hi : l.phases[i]? = some p) (hp : p'.isLive = true → p.isLive = true) :
    Link.Tracked { l with phases := l.phases.set i p' } where
  attempt := hl.attempt
  idle := hl.idle
  live j q hj hq := by
    rw [List.length_set]
    by_cases hij : i = j
    · subst hij
      rw [List.getElem?_set_self (List.getElem?_eq_some_iff.1 hi).1, Option.some.injEq] at hj
      exact hl.live i p hi (hp (hj ▸ hq))
    · rw [List.getElem?_set_ne hij] at hj
      exact hl.live j q hj hq

theorem Link.Tracked.disconnect {i : ℕ} {reason : String} (hl : l.Tracked)
    (hi : l.phases[i]? = some (.ended reason)) :
    Link.Tracked { l with
      status := .disconnected, phases := l.phases.set i (.leaving reason) } := by
  obtain ⟨ha, -, hlast⟩ := hl.live i _ hi rfl
  refine .of_no_live (fun st h ↦ ?_) (fun _ ↦ nofun) fun p hp ↦ ?_
  · rw [ha] at h
    cases h
  · obtain ⟨j, hj⟩ := List.getElem?_of_mem hp
    by_contra hv
    by_cases hij : i = j
    · subst hij
      rw [List.getElem?_set_self (by omega), Option.some.injEq] at hj
      exact hv (hj ▸ rfl)
    · -- Another live task would be the last one too.
      rw [List.getElem?_set_ne hij] at hj
      have := (hl.live j p hj (by simpa using hv)).2.2
      omega

theorem Link.Tracked.spawn (hl : l.Tracked) (ha : l.attempt = .spawning) :
    Link.Tracked { l with attempt := .idle, phases := l.phases ++ [.running] } := by
  have hs : l.status = .connected := hl.attempt _ (by rw [ha]; rfl)
  have hn := hl.no_live (by rw [ha]; nofun)
  refine ⟨nofun, fun _ ↦ hs ▸ nofun, fun i p hp hv ↦ ⟨rfl, hs, ?_⟩⟩
  rcases Nat.lt_or_ge i l.phases.length with hi | hi
  · rw [List.getElem?_append_left hi] at hp
    rw [hn p (List.mem_of_getElem? hp)] at hv
    cases hv
  · have hi' := (List.getElem?_eq_some_iff.1 hp).1
    simp only [List.length_append, List.length_singleton] at hi' ⊢
    omega

theorem Link.Tracked.move {post : Post} (hl : l.Tracked) (h : l.Move post l') : l'.Tracked := by
  cases h with
  | stay | relay | reply => exact hl
  | start ha hs =>
    -- The status is `Disconnected`, which a live task excludes.
    refine .of_no_live (fun st h ↦ Option.some.inj h ▸ hs) nofun fun p hp ↦ ?_
    obtain ⟨i, hi⟩ := List.getElem?_of_mem hp
    by_contra hv
    have := (hl.live i p hi (by simpa using hv)).2.1
    rw [hs] at this
    cases this
  | dial ha | establish ha | fail ha => exact hl.of_attempt (by rw [ha]; nofun) rfl rfl
  | announce ha =>
    refine hl.of_attempt (by rw [ha]; nofun) ?_ rfl
    rw [hl.attempt .connected (by rw [ha]; rfl)]
    rfl
  | spawn ha => exact hl.spawn ha
  | refuse error ha =>
    have hs : l.status = .disconnected := hl.attempt _ (by rw [ha]; rfl)
    exact .of_no_live nofun (fun _ ↦ hs ▸ nofun) (hl.no_live (by rw [ha]; nofun))
  | finish reason hi => exact hl.set hi (fun _ ↦ rfl)
  | disconnect hi => exact hl.disconnect hi
  | notify hi => exact hl.set hi nofun

end

theorem tracked_of_run {env : Env} {ok : State → Action → Prop} {as : List Action} {s : State}
    (h : Run (step env) ok .init as s) : s.link.Tracked := by
  refine h.invariant (I := fun s ↦ s.link.Tracked) (fun s a t hl _ ht ↦ ?_) .initial
  obtain ⟨post, hm, -⟩ := step_moves ht
  exact hl.move hm

/-- In every reachable state at most one task has its last write of the status before it;
while there is one, the status is that of a connection; the write of `Disconnected` is done by
the task of the latest connection while no other is being made; and no request to connect is
looked at while the status is `Connecting`. -/
theorem status_belongs_to_the_latest_connection {env : Env} {as : List Action} {s : State}
    (h : Run (step env) Any .init as s) :
    (∀ (i j : ℕ) c d, s.clients[i]? = some c → s.clients[j]? = some d →
      c.phase.isLive = true → d.phase.isLive = true → i = j) ∧
    (∀ c ∈ s.clients, c.phase.isLive = true → s.status = .connected) ∧
    (∀ i t, step env s (.disconnect i) = some t →
      i + 1 = s.clients.length ∧ s.loop.attempt = .idle) ∧
    (∀ message, s.loop = .examining message →
      s.status = .connected ∨ s.status = .disconnected) := by
  have hl := tracked_of_run h
  have live : ∀ (i : ℕ) c, s.clients[i]? = some c → c.phase.isLive = true →
      s.loop.attempt = .idle ∧ s.status = .connected ∧ i + 1 = s.clients.length := by
    intro i c hc hv
    simpa only [State.link, List.length_map] using hl.live i _ (getElem?_phases hc) hv
  refine ⟨fun i j c d hc hd hvc hvd ↦ ?_, fun c hc hv ↦ ?_, fun i t ht ↦ ?_, fun message hm ↦ ?_⟩
  · have hi := (live i c hc hvc).2.2
    have hj := (live j d hd hvd).2.2
    omega
  · obtain ⟨i, hi⟩ := List.getElem?_of_mem hc
    exact (live i c hi hv).2.1
  · obtain ⟨c, hc, ht⟩ := Option.bind_eq_some_iff.1 ht
    have hv : c.phase.isLive = true := by
      unfold disconnect at ht
      split at ht
      · rename_i hp
        rw [hp]
        rfl
      · cases ht
    exact ⟨(live i c hc hv).2.2, (live i c hc hv).1⟩
  · have hne : s.status ≠ .connecting := hl.idle (by rw [State.link, hm]; rfl)
    cases hs : s.status with
    | connected => exact .inl rfl
    | connecting => exact absurd hs hne
    | disconnected => exact .inr rfl

/-- Readers of the texts that the senders write. -/
def pageEnv : Env := ⟨parseMessage, parseConnectRequest, parseMessage, parseData⟩

def connection : List Action :=
  [.login "h", .js2rs 0, .recv, .advance, .advance, .doConnect (.ok ()), .advance, .advance,
    .advance, .advance, .rs2js, .listen]

theorem only_the_first_task_disconnects :
    ∃ s, Run (step pageEnv) Any .init (connection ++ [.finish 0 "reset"]) s ∧
      s.status = .connected ∧ (step pageEnv s (.disconnect 0)).isSome = true ∧
      ∀ i t, step pageEnv s (.disconnect i) = some t → i = 0 := by
  have hrun : ∃ s, Run (step pageEnv) Any .init (connection ++ [.finish 0 "reset"]) s ∧
      (s.clients = [⟨.ended "reset", [], []⟩] ∧ (step pageEnv s (.disconnect 0)).isSome = true) :=
    Run.exists_of_execute (by decide +kernel)
  obtain ⟨s, hs, hc, hd⟩ := hrun
  obtain ⟨-, hstatus, hlast, -⟩ := status_belongs_to_the_latest_connection hs
  refine ⟨s, hs, hstatus _ (by rw [hc]; exact List.mem_singleton_self _) rfl, hd, ?_⟩
  intro i t ht
  have := (hlast i t ht).1
  rw [hc] at this
  exact Nat.succ.inj this

end MusicRemote.Control.Service
