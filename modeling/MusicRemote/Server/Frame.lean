import MusicRemote.Server.Handling
import MusicRemote.Server.Outcome

namespace MusicRemote.Server

open Foundation Protocol Protocol.Json Protocol.Framing Function

inductive Life
  | absent
  | starting
  | registered
  | closed
  deriving DecidableEq

def Phase.life : Phase → Life
  | .absent => .absent
  | .starting => .starting
  | .selecting _ | .closing | .removing => .registered
  | .closed => .closed

def Phase.reader : Phase → Option Reader
  | .selecting reader => some reader
  | .absent | .starting | .closing | .removing | .closed => none

def Phase.holdsLock (phase : Phase) : Bool := phase.reader.any Reader.holdsLock

def sentTo (t : ℕ) (log : List Event) : List Envelope :=
  log.filterMap fun
    | .enqueued u e => if u = t then some e else none
    | .received _ _ _ | .locked _ _ _ | .returned _ _ _ => none

def locks (log : List Event) : List (ℕ × ℕ) :=
  log.filterMap fun
    | .locked t k _ => some (t, k)
    | .received _ _ _ | .enqueued _ _ | .returned _ _ _ => none

namespace Session

/-- What holds of every session by itself, under the number of its task. -/
structure Sound (x : Session) (t : ℕ) : Prop where
  early : x.phase.life = .absent ∨ x.phase.life = .starting → x.received = 0
  isOpen : x.phase = .starting ∨ x.phase.reader.isSome = true → x.channel.isOpen = true
  player : x.phase.reader.isSome = true ∨ x.phase = .closing → x.player = some ⟨t, x.sessionId⟩
  queue : ∀ e ∈ x.channel.queue, e.message = e.body.writerMessage
  pingTask : x.pingTask = true → x.phase.life ≠ .absent

/-- What was sent to the session so far has been written in its order, up to what
still waits and what was lost with the receiver. -/
structure Delivers (x : Session) (sent : List Envelope) : Prop where
  isPrefix : x.written ++ x.channel.queue <+: sent
  eq_of_isOpen : x.channel.isOpen = true → x.written ++ x.channel.queue = sent

/-- The session goes on without touching the registry or the lock, while `es` is
sent to it. -/
structure Kept (t : ℕ) (x : Session) (es : List Envelope) (x' : Session) : Prop where
  sessionId : x'.sessionId = x.sessionId
  life : x'.phase.life = x.phase.life
  holdsLock : x'.phase.holdsLock = x.phase.holdsLock
  sound : x.Sound t → x'.Sound t
  delivers : x.Sound t → ∀ sent, x.Delivers sent → x'.Delivers (sent ++ es)

theorem Kept.refl (t : ℕ) (x : Session) : Kept t x [] x :=
  ⟨rfl, rfl, rfl, id, fun _ sent h ↦ by rwa [List.append_nil]⟩

theorem Kept.trans {t : ℕ} {x y z : Session} {es es' : List Envelope} (h : Kept t x es y)
    (h' : Kept t y es' z) : Kept t x (es ++ es') z := by
  refine ⟨h'.sessionId.trans h.sessionId, h'.life.trans h.life, h'.holdsLock.trans h.holdsLock,
    fun hx ↦ h'.sound (h.sound hx), ?_⟩
  intro hx sent hs
  rw [← List.append_assoc]
  exact h'.delivers (h.sound hx) _ (h.delivers hx sent hs)

variable {t : ℕ} {x x' : Session} {r r' : Reader}

theorem Sound.selecting (hx : x.Sound t) (h : x.phase = .selecting r) :
    x.channel.isOpen = true ∧ x.player = some ⟨t, x.sessionId⟩ :=
  ⟨hx.isOpen (.inr (by rw [h]; rfl)), hx.player (.inl (by rw [h]; rfl))⟩

theorem Kept.selecting (h : x.phase = .selecting r) (h' : x'.phase = .selecting r')
    (hl : r'.holdsLock = r.holdsLock) (hi : x'.sessionId = x.sessionId)
    (hp : x'.player = x.player) (hc : x'.channel = x.channel) (hw : x'.written = x.written) :
    Kept t x [] x' := by
  refine ⟨hi, by rw [h, h']; rfl, by rw [h, h']; exact hl, fun hx ↦ ?_, fun _ sent hs ↦ ?_⟩
  · obtain ⟨ho, hq⟩ := hx.selecting h
    refine ⟨?_, fun _ ↦ hc ▸ ho, fun _ ↦ by rw [hp, hi, hq], by rw [hc]; exact hx.queue, ?_⟩ <;>
      simp [h', Phase.life]
  · rw [List.append_nil]
    exact ⟨by rw [hc, hw]; exact hs.isPrefix, by rw [hc, hw]; exact hs.eq_of_isOpen⟩

theorem Kept.write {e : Envelope} {channel : Channel Envelope}
    (h : x.channel.recv = some (e, channel)) :
    Kept t x [] { x with channel := channel, written := x.written ++ [e] } := by
  obtain ⟨hq, ho⟩ := Channel.recv_eq_some.1 h
  refine ⟨rfl, rfl, rfl, fun hx ↦ ?_, fun _ sent hs ↦ ?_⟩
  · refine ⟨hx.early, fun h ↦ ho.trans (hx.isOpen h), hx.player, fun e' he ↦ ?_, hx.pingTask⟩
    exact hx.queue e' (hq ▸ List.mem_cons_of_mem e he)
  · have hw : x.written ++ [e] ++ channel.queue = x.written ++ x.channel.queue := by
      rw [hq, List.append_assoc, List.singleton_append]
    rw [List.append_nil]
    exact ⟨hw ▸ hs.isPrefix, fun h ↦ hw.trans (hs.eq_of_isOpen (ho ▸ h))⟩

theorem Kept.send {e : Envelope} {channel : Channel Envelope} (h : x.channel.send e = some channel)
    (he : e.message = e.body.writerMessage) : Kept t x [e] { x with channel := channel } := by
  obtain ⟨ho, rfl⟩ := Channel.send_eq_some.1 h
  refine ⟨rfl, rfl, rfl, fun hx ↦ ?_, fun _ sent hs ↦ ?_⟩
  · refine ⟨hx.early, fun _ ↦ rfl, hx.player, fun e' he' ↦ ?_, hx.pingTask⟩
    obtain he' | he' := List.mem_append.1 he'
    · exact hx.queue e' he'
    · rwa [List.mem_singleton.1 he']
  · have hq := hs.eq_of_isOpen ho
    rw [← hq, List.append_assoc]
    exact ⟨List.prefix_rfl, fun _ ↦ rfl⟩

theorem Kept.endSelect (h : x.phase = .selecting r) (hl : r.holdsLock = false) :
    Kept t x [] { x with phase := .closing, channel := x.channel.close } := by
  refine ⟨rfl, by rw [h]; rfl, by rw [h]; exact hl.symm, fun hx ↦ ?_, fun _ sent hs ↦ ?_⟩
  · refine ⟨by simp [Phase.life], by simp [Phase.reader], fun _ ↦ (hx.selecting h).2, ?_,
      by simp [Phase.life]⟩
    simp [Channel.close]
  · rw [List.append_nil]
    refine ⟨?_, fun h ↦ by cases h⟩
    rw [show x.channel.close.queue = [] from rfl, List.append_nil]
    exact (List.prefix_append ..).trans hs.isPrefix

theorem Kept.disconnect (h : x.phase = .closing) (b : Bool) :
    Kept t x [] { x with phase := .removing, player := none, pingTask := b } := by
  refine ⟨rfl, by rw [h]; rfl, by rw [h]; rfl, fun hx ↦ ?_, fun _ sent hs ↦ ?_⟩
  · exact ⟨by simp [Phase.life], by simp [Phase.reader], by simp [Phase.reader], hx.queue,
      by simp [Phase.life]⟩
  · rw [List.append_nil]
    exact ⟨hs.isPrefix, hs.eq_of_isOpen⟩

end Session

/-- A part of a step that neither touches the registry nor the lock, and adds the
events `es`. -/
structure Frame (s : State) (es : List Event) (s' : State) : Prop where
  players : s'.players = s.players
  guard : s'.guard = s.guard
  sessionCounter : s'.sessionCounter = s.sessionCounter
  spawned : s'.spawned = s.spawned
  log : s'.log = s.log ++ es
  locks : locks es = []
  kept : ∀ t, Session.Kept t (s.session t) (sentTo t es) (s'.session t)

variable {env : Env} {s s' s'' : State} {es es' : List Event} {t k : ℕ} {x : Session}

@[simp] theorem sentTo_nil (t : ℕ) : sentTo t [] = [] := rfl

theorem sentTo_append (t : ℕ) (es es' : List Event) :
    sentTo t (es ++ es') = sentTo t es ++ sentTo t es' := List.filterMap_append ..

theorem send_phase {target : ℕ} {body : Body} {cause : Cause}
    (h : s.send target body cause = some s') (t : ℕ) :
    (s'.session t).phase = (s.session t).phase := by
  obtain ⟨channel, -, rfl⟩ := Option.map_eq_some_iff.1 h
  by_cases ht : t = target
  · subst ht
    simp [State.emit, State.update]
  · simp [State.emit, State.update, ht]

theorem locks_append (es es' : List Event) : locks (es ++ es') = locks es ++ locks es' :=
  List.filterMap_append ..

namespace Frame

theorem refl (s : State) : Frame s [] s :=
  ⟨rfl, rfl, rfl, rfl, (List.append_nil _).symm, rfl, fun _ ↦ .refl _ _⟩

theorem trans (h : Frame s es s') (h' : Frame s' es' s'') : Frame s (es ++ es') s'' := by
  refine ⟨h'.players.trans h.players, h'.guard.trans h.guard,
    h'.sessionCounter.trans h.sessionCounter, h'.spawned.trans h.spawned, ?_, ?_, ?_⟩
  · rw [h'.log, h.log, List.append_assoc]
  · rw [locks_append, h.locks, h'.locks, List.append_nil]
  · intro t
    rw [sentTo_append]
    exact (h.kept t).trans (h'.kept t)

theorem update (h : Session.Kept t (s.session t) [] x) : Frame s [] (s.update t x) := by
  refine ⟨rfl, rfl, rfl, rfl, (List.append_nil _).symm, rfl, ?_⟩
  intro u
  by_cases hu : u = t
  · subst hu
    simpa only [State.update, Function.update_self, sentTo_nil] using h
  · simpa only [State.update, Function.update_of_ne hu] using .refl u _

theorem flags (clock : ℕ) (shutdown panicked : Bool) :
    Frame s [] { s with clock := clock, shutdown := shutdown, panicked := panicked } :=
  ⟨rfl, rfl, rfl, rfl, (List.append_nil _).symm, rfl, fun _ ↦ .refl _ _⟩

theorem emit {e : Event} (he : ∀ u, sentTo u [e] = []) (hl : Server.locks [e] = []) :
    Frame s [e] (s.emit e) :=
  ⟨rfl, rfl, rfl, rfl, rfl, hl, fun u ↦ (he u).symm ▸ .refl u _⟩

theorem send {target : ℕ} {body : Body} {cause : Cause} (h : s.send target body cause = some s') :
    Frame s [.enqueued target (envelope body cause)] s' := by
  obtain ⟨channel, hc, rfl⟩ := Option.map_eq_some_iff.1 h
  refine ⟨rfl, rfl, rfl, rfl, rfl, rfl, ?_⟩
  intro u
  by_cases hu : u = target
  · subst hu
    simpa [State.emit, State.update, sentTo] using Session.Kept.send hc rfl
  · simpa [State.emit, State.update, sentTo, hu, Ne.symm hu] using .refl u _

theorem setReader {r r' : Reader} (h : (s.session t).phase = .selecting r)
    (hl : r'.holdsLock = r.holdsLock) : Frame s [] (s.setPhase t (.selecting r')) :=
  update (.selecting h rfl hl rfl rfl rfl rfl)

theorem finish {r : Reader} (h : (s.session t).phase = .selecting r) (hl : r.holdsLock = false)
    (k : ℕ) (ok : Bool) : Frame s [.returned t k ok] (s.finish t k ok) := by
  have he : Frame s [.returned t k ok] (s.emit (.returned t k ok)) := emit (fun _ ↦ rfl) rfl
  refine he.trans (update (.selecting h rfl ?_ rfl rfl rfl rfl))
  cases ok <;> exact hl.symm

theorem refresh (s : State) (t : ℕ) : Frame s [] (s.refresh t) := by
  unfold State.refresh
  split
  · exact update ⟨rfl, rfl, rfl, fun h ↦ ⟨h.early, h.isOpen, h.player, h.queue, h.pingTask⟩,
      fun _ sent h ↦ by rw [List.append_nil]; exact ⟨h.isPrefix, h.eq_of_isOpen⟩⟩
  · exact .refl s

theorem answer {r : Reader} (h : (s.session t).phase = .selecting r) (hl : r.holdsLock = false)
    (k : ℕ) (body : Body) : ∃ es, Frame s es (s.answer t k body) := by
  unfold State.answer
  split
  · rename_i s' hs
    exact ⟨_, (send hs).trans (finish ((send_phase hs t).trans h) hl k true)⟩
  · exact ⟨_, finish h hl k false⟩

end Frame

theorem onRecvFrame_frame (env : Env) (h : (s.session t).phase = .selecting .unpacking) :
    ∃ es, Frame s es (onRecvFrame env s t) := by
  have hset {r : Reader} (hr : r.holdsLock = false) : Frame s [] (s.setPhase t (.selecting r)) :=
    .setReader h hr
  unfold onRecvFrame
  dsimp only
  split
  · exact ⟨_, hset rfl⟩
  split
  · exact ⟨_, hset rfl⟩
  · exact ⟨_, .flags _ _ _⟩
  · exact ⟨_, hset rfl⟩
  split
  · exact ⟨_, .update (.selecting h rfl rfl rfl rfl rfl rfl)⟩
  split
  · exact ⟨_, .flags _ _ _⟩
  · refine ⟨_, Frame.trans (.update ?_) (.emit (fun _ ↦ rfl) rfl)⟩
    exact .selecting h rfl rfl rfl rfl rfl rfl

theorem refresh_phase (s : State) (t : ℕ) :
    ((s.refresh t).session t).phase = (s.session t).phase := by
  unfold State.refresh
  split <;> simp [State.update]

theorem onRecvMessage_eq (env : Env) (s : State) (t k : ℕ) (m : Message) :
    onRecvMessage env s t k m =
      match verdict env m with
      | .fail => (s.refresh t).finish t k false
      | .ignore => (s.refresh t).finish t k true
      | .pong time => (s.refresh t).answer t k (.pong ⟨time⟩)
      | .refuse => (s.refresh t).answer t k denied
      | .permit push => (s.refresh t).setPhase t (.selecting (.locking k push)) := by
  unfold onRecvMessage verdict
  by_cases hp : m.name = "Ping"
  · cases env.readPing m.data <;> simp [hp]
  by_cases hq : m.name = "Pong"
  · simp [hq]
  by_cases hn : m.name = "SendControlMediaKeyEventRequest"
  · cases env.readRequest m.data with
    | none => simp [hn]
    | some request =>
      by_cases ha : env.authorizationCode = request.authorizationCode <;> simp [hn, ha, denied]
  · simp [hp, hq, hn]

theorem onRecvMessage_frame (env : Env) {m : Message}
    (h : (s.session t).phase = .selecting (.received k m)) :
    ∃ es, Frame s es (onRecvMessage env s t k m) := by
  have h' := (refresh_phase s t).trans h
  suffices hs : ∃ es, Frame (s.refresh t) es (onRecvMessage env s t k m) by
    obtain ⟨es, hs⟩ := hs
    exact ⟨_, (Frame.refresh s t).trans hs⟩
  rw [onRecvMessage_eq]
  cases verdict env m with
  | fail => exact ⟨_, .finish h' rfl k false⟩
  | ignore => exact ⟨_, .finish h' rfl k true⟩
  | pong time => exact Frame.answer h' rfl k _
  | refuse => exact Frame.answer h' rfl k _
  | permit push => exact ⟨_, .setReader h' rfl⟩

theorem Body.exists_writerMessage (body : Body) :
    ∃ data : List UInt8, body.writerMessage = .send data true ∧ data.isEmpty = false := by
  refine ⟨_, rfl, ?_⟩
  rw [List.isEmpty_eq_false_iff, ← List.length_pos_iff, frame, List.length_append,
    Bytes.length_toBigEndian]
  omega

/-- The writer only meets frames to send. -/
theorem pollWrite_eq (hs : (s.session t).Sound t) (ok : Bool) : pollWrite s t ok =
    (s.session t).channel.recv.map fun (envelope, channel) ↦
      if ok then s.update t { s.session t with
        channel := channel, written := (s.session t).written ++ [envelope] }
      else s.update t { s.session t with
        phase := .closing, channel := channel.close,
        written := (s.session t).written ++ [envelope] } := by
  unfold pollWrite
  dsimp only
  cases h : (s.session t).channel.recv with
  | none => simp only [Option.map_none]
  | some p =>
    obtain ⟨envelope, channel⟩ := p
    have hm : envelope.message = envelope.body.writerMessage := by
      apply hs.queue
      rw [(Channel.recv_eq_some.1 h).1]
      exact List.mem_cons_self
    obtain ⟨data, hd, he⟩ := envelope.body.exists_writerMessage
    cases ok <;> simp [hm, hd, he, State.update]

def Action.isQuiet : Action → Bool
  | .spawn | .start _ | .remove _ => false
  | _ => true

inductive Turn (s : State) : Action → State → Prop
  | frame {a : Action} {es : List Event} {s' : State} :
      a.isQuiet = true → Frame s es s' → Turn s a s'
  | spawn : Turn s .spawn (spawn s)
  | start {t : ℕ} : (s.session t).phase = .starting → s.guard = none →
      Turn s (.start t) (onSessionStart s t)
  | lock {t k : ℕ} {push : PushMediaKeyEvent} {entries : List Entry} :
      (s.session t).phase = .selecting (.locking k push) → s.guard = none →
      entries.Perm s.players.entries → Turn s (.lock t entries) (lockPlayers s t k push entries)
  | release {t : ℕ} {r r' : Reader} {es : List Event} : (s.session t).phase = .selecting r →
      r.holdsLock = true → r'.holdsLock = false → (∀ u, sentTo u es = []) → locks es = [] →
      Turn s (.push t) (({ s with guard := none, log := s.log ++ es }).setPhase t (.selecting r'))
  | remove {t : ℕ} : (s.session t).phase = .removing → s.guard = none →
      Turn s (.remove t) (onSessionClose s t)

theorem Frame.pollWrite (hs : (s.session t).Sound t) {r : Reader}
    (hp : (s.session t).phase = .selecting r) (hl : r.holdsLock = false) {ok : Bool}
    (h : pollWrite s t ok = some s') : Frame s [] s' := by
  rw [pollWrite_eq hs, Option.map_eq_some_iff] at h
  obtain ⟨⟨e, channel⟩, hc, rfl⟩ := h
  have hw : Session.Kept t (s.session t) [] _ := .write hc
  cases ok with
  | true => exact .update hw
  | false => exact .update (hw.trans (.endSelect hp hl))

theorem turn_broadcast {push : PushMediaKeyEvent} {rest : List Player}
    (h : (s.session t).phase = .selecting (.pushing k push rest)) :
    Turn s (.push t) (broadcast s t k push rest) := by
  cases rest with
  | nil =>
    have hr := @Turn.release s t _ (.responding k) [] h rfl rfl (fun _ ↦ rfl) rfl
    rwa [List.append_nil] at hr
  | cons p rest =>
    cases hs : s.send p.tx (.push push) (.message t k) with
    | none =>
      simp only [broadcast, hs]
      exact @Turn.release s t _ .returned [.returned t k false] h rfl rfl (fun _ ↦ rfl) rfl
    | some s' =>
      simp only [broadcast, hs]
      exact .frame rfl ((Frame.send hs).trans (.setReader ((send_phase hs t).trans h) rfl))

theorem Reader.holdsLock_of_awaits {r : Reader} (h : r.awaits = true) : r.holdsLock = false := by
  cases r with
  | pushing => cases h
  | _ => rfl

theorem step_turn (hs : ∀ t, (s.session t).Sound t) {a : Action} (h : step env s a = some s') :
    Turn s a s' := by
  cases step_outcome h with
  | spawn => exact .spawn
  | start hp hg => exact .start hp hg
  | eof hp | readError hp => exact .frame rfl (.setReader hp rfl)
  | read hp => exact .frame rfl (.update (.selecting hp rfl rfl rfl rfl rfl rfl))
  | recvFrame hp =>
    obtain ⟨es, hf⟩ := onRecvFrame_frame env hp
    exact .frame rfl hf
  | recvMessage hp =>
    obtain ⟨es, hf⟩ := onRecvMessage_frame env hp
    exact .frame rfl hf
  | lock hp hg hperm => exact .lock hp hg hperm
  | push hp => exact turn_broadcast hp
  | @respond _ k hp =>
    obtain ⟨es, hf⟩ := Frame.answer hp rfl k granted
    exact .frame rfl hf
  | write hp hr hwrite =>
    exact .frame rfl (.pollWrite (hs _) hp (Reader.holdsLock_of_awaits hr) hwrite)
  | ping _ hsend => exact .frame rfl (.send hsend)
  | unsent => exact .frame rfl (.refl s)
  | endSelect hp hr =>
    refine .frame rfl (.update (.endSelect hp ?_))
    obtain rfl | hr := hr
    · rfl
    · exact Reader.holdsLock_of_awaits hr.2
  | disconnect hp =>
    simp only [onDisconnectSession, (hs _).player (.inr hp)]
    exact .frame rfl (.update (.disconnect hp false))
  | remove hp hg => exact .remove hp hg
  | shutdown | tick => exact .frame rfl (.flags _ _ _)

end MusicRemote.Server
