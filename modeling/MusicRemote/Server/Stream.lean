import MusicRemote.Server.Order

namespace MusicRemote.Server

open Foundation Foundation.Transition Foundation.Extraction
open Protocol Protocol.Json Protocol.Framing

def Action.bytesOf (t : ℕ) : Action → List UInt8
  | .readBuf u bytes => if u = t then bytes else []
  | _ => []

def receivedBy (t : ℕ) (log : List Event) : List Message :=
  log.filterMap fun
    | .received u _ m => if u = t then some m else none
    | .locked _ _ _ | .enqueued _ _ | .returned _ _ _ => none

def Phase.listens : Phase → Bool
  | .absent | .starting => true
  | .selecting reader => reader ≠ .returned
  | .closing | .removing | .closed => false

def Phase.isEarly : Phase → Bool
  | .absent | .starting => true
  | .selecting _ | .closing | .removing | .closed => false

/-- A part of a step that takes no frame from the stream of session `t`, nor comes to wait for
more of it. -/
structure Aside (t : ℕ) (s s' : State) : Prop where
  listens : (s'.session t).phase.listens = true →
    (s.session t).phase.listens = true ∧ (s'.session t).buffer = (s.session t).buffer
  early : (s'.session t).phase.isEarly = true → (s.session t).phase.isEarly = true
  waits : (s'.session t).phase = .selecting .reading → (s.session t).phase = .selecting .reading
  received : receivedBy t s'.log = receivedBy t s.log

variable {env : Env} {s s' s'' : State} {t u k : ℕ} {a : Action} {as : List Action}

theorem receivedBy_append (t : ℕ) (es es' : List Event) :
    receivedBy t (es ++ es') = receivedBy t es ++ receivedBy t es' := List.filterMap_append ..

theorem Phase.listens_of_early {phase : Phase} (h : phase.isEarly = true) :
    phase.listens = true := by
  cases phase with
  | absent | starting => rfl
  | _ => cases h

namespace Aside

theorem refl (t : ℕ) (s : State) : Aside t s s := ⟨fun h ↦ ⟨h, rfl⟩, id, id, rfl⟩

theorem trans (h : Aside t s s') (h' : Aside t s' s'') : Aside t s s'' := by
  refine ⟨fun hl ↦ ?_, fun he ↦ h.early (h'.early he), fun hr ↦ h.waits (h'.waits hr),
    h'.received.trans h.received⟩
  obtain ⟨hl', hb'⟩ := h'.listens hl
  obtain ⟨hl'', hb⟩ := h.listens hl'
  exact ⟨hl'', hb'.trans hb⟩

theorem of_session (hs : s'.session t = s.session t) (hl : s'.log = s.log) : Aside t s s' := by
  refine ⟨?_, ?_, ?_, by rw [hl]⟩
  · rw [hs]
    exact fun h ↦ ⟨h, rfl⟩
  · rw [hs]
    exact id
  · rw [hs]
    exact id

theorem elsewhere (hu : t ≠ u) (x : Session) : Aside t s (s.update u x) :=
  of_session (by simp only [State.update, Function.update_of_ne hu]) rfl

theorem update {x : Session} (hl : x.phase.listens = true →
      (s.session u).phase.listens = true ∧ x.buffer = (s.session u).buffer)
    (he : x.phase.isEarly = true → (s.session u).phase.isEarly = true)
    (hr : x.phase = .selecting .reading → (s.session u).phase = .selecting .reading) :
    Aside t s (s.update u x) := by
  by_cases hu : t = u
  · subst hu
    refine ⟨?_, ?_, ?_, rfl⟩
    · simpa only [State.update, Function.update_self] using hl
    · simpa only [State.update, Function.update_self] using he
    · simpa only [State.update, Function.update_self] using hr
  · exact elsewhere hu x

/-- The session goes on in the same phase. -/
theorem keep {x : Session} (hp : x.phase = (s.session u).phase)
    (hb : x.buffer = (s.session u).buffer) : Aside t s (s.update u x) :=
  update (fun h ↦ ⟨hp ▸ h, hb⟩) (fun h ↦ hp ▸ h) (fun h ↦ hp ▸ h)

/-- The session stops reading. -/
theorem stop {x : Session} (hl : x.phase.listens = false) : Aside t s (s.update u x) := by
  refine update (fun h ↦ ?_) (fun h ↦ ?_) (fun h ↦ ?_)
  · rw [hl] at h
    cases h
  · rw [Phase.listens_of_early h] at hl
    cases hl
  · rw [h] at hl
    cases hl

theorem setReader {r r' : Reader} (h : (s.session u).phase = .selecting r)
    (hr : r ≠ .returned) (hr' : r' ≠ .reading) : Aside t s (s.setPhase u (.selecting r')) := by
  refine update (fun _ ↦ ⟨?_, rfl⟩) (fun h ↦ by cases h) (fun h ↦ ?_)
  · rw [h]
    exact decide_eq_true hr
  · cases h
    exact absurd rfl hr'

theorem emit {e : Event} (he : receivedBy t [e] = []) : Aside t s (s.emit e) := by
  refine ⟨fun h ↦ ⟨h, rfl⟩, id, id, ?_⟩
  change receivedBy t (s.log ++ [e]) = _
  rw [receivedBy_append, he, List.append_nil]

theorem send {target : ℕ} {body : Body} {cause : Cause}
    (h : s.send target body cause = some s') : Aside t s s' := by
  obtain ⟨channel, -, rfl⟩ := Option.map_eq_some_iff.1 h
  have hupdate : Aside t s (s.update target { s.session target with channel := channel }) :=
    keep rfl rfl
  exact hupdate.trans (emit rfl)

theorem finish {r : Reader} (h : (s.session u).phase = .selecting r) (hr : r ≠ .returned) (k : ℕ)
    (ok : Bool) : Aside t s (s.finish u k ok) := by
  refine (emit (e := .returned u k ok) rfl).trans (setReader h hr ?_)
  cases ok <;> exact by simp

theorem answer {r : Reader} (h : (s.session u).phase = .selecting r) (hr : r ≠ .returned) (k : ℕ)
    (body : Body) : Aside t s (s.answer u k body) := by
  unfold State.answer
  split
  · rename_i s' hs
    exact (send hs).trans (finish ((send_phase hs u).trans h) hr k true)
  · exact finish h hr k false

theorem refresh (s : State) (t u : ℕ) : Aside t s (s.refresh u) := by
  unfold State.refresh
  split
  · exact keep rfl rfl
  · exact refl t s

theorem onRecvMessage {m : Message} (h : (s.session u).phase = .selecting (.received k m)) :
    Aside t s (onRecvMessage env s u k m) := by
  have h' := (refresh_phase s u).trans h
  refine (refresh s t u).trans ?_
  rw [onRecvMessage_eq]
  cases verdict env m with
  | fail => exact finish h' (by simp) k false
  | ignore => exact finish h' (by simp) k true
  | pong time => exact answer h' (by simp) k _
  | refuse => exact answer h' (by simp) k _
  | permit push => exact setReader h' (by simp) (by simp)

theorem broadcast {push : PushMediaKeyEvent} {rest : List Player}
    (h : (s.session u).phase = .selecting (.pushing k push rest)) :
    Aside t s (broadcast s u k push rest) := by
  have hguard : Aside t s { s with guard := none } := of_session rfl rfl
  cases rest with
  | nil => exact hguard.trans (setReader h (by simp) (by simp))
  | cons p rest =>
    simp only [Server.broadcast]
    split
    · rename_i s' hs
      exact (send hs).trans (setReader ((send_phase hs u).trans h) (by simp) (by simp))
    · exact hguard.trans (finish (s := { s with guard := none }) h (by simp) k false)

theorem pollWrite (hs : (s.session u).Sound u) {ok : Bool} (h : pollWrite s u ok = some s') :
    Aside t s s' := by
  rw [pollWrite_eq hs, Option.map_eq_some_iff] at h
  obtain ⟨⟨e, channel⟩, -, rfl⟩ := h
  cases ok with
  | true => exact keep rfl rfl
  | false => exact stop rfl

end Aside

/-- A step either leaves the streams of all sessions aside, or is one of those by which a session
comes to read, reads, or takes a frame from what it has read. -/
inductive Flow (env : Env) (s : State) : Action → State → Prop
  | aside {a : Action} {s' : State} : (∀ t, a.bytesOf t = []) → (∀ t, Aside t s s') →
      Flow env s a s'
  | spawn : Flow env s .spawn (spawn s)
  | start {u : ℕ} : (s.session u).phase = .starting → Flow env s (.start u) (onSessionStart s u)
  | read {u : ℕ} {more : List UInt8} : (s.session u).phase = .selecting .reading →
      Flow env s (.readBuf u more) (s.update u { s.session u with
        phase := .selecting .unpacking, buffer := (s.session u).buffer ++ more })
  | unpack {u : ℕ} : (s.session u).phase = .selecting .unpacking →
      Flow env s (.recvFrame u) (onRecvFrame env s u)

theorem flow_of_step (hw : s.WellFormed) (h : step env s a = some s') : Flow env s a s' := by
  cases step_outcome h with
  | spawn => exact .spawn
  | start hp => exact .start hp
  | read hp => exact .read hp
  | recvFrame hp => exact .unpack hp
  | eof hp =>
    refine .aside (fun t ↦ ?_) fun t ↦ .setReader hp (by simp) (by simp)
    rw [Action.bytesOf, ite_self]
  | readError hp => exact .aside (fun _ ↦ rfl) fun t ↦ .setReader hp (by simp) (by simp)
  | recvMessage hp => exact .aside (fun _ ↦ rfl) fun t ↦ .onRecvMessage hp
  | @lock u k push entries hp =>
    refine .aside (fun _ ↦ rfl) fun t ↦ ?_
    have hguard : Aside t s { s with guard := some u } := .of_session rfl rfl
    have hpushing : Aside t { s with guard := some u }
        (State.setPhase { s with guard := some u } u
          (.selecting (.pushing k push (others (s.session u).sessionId entries)))) :=
      .setReader hp (by simp) (by simp)
    exact (hguard.trans hpushing).trans (.emit rfl)
  | push hp => exact .aside (fun _ ↦ rfl) fun t ↦ .broadcast hp
  | respond hp => exact .aside (fun _ ↦ rfl) fun t ↦ .answer hp (by simp) _ _
  | write _ _ hwrite => exact .aside (fun _ ↦ rfl) fun t ↦ .pollWrite (hw.sound _) hwrite
  | ping _ hsend => exact .aside (fun _ ↦ rfl) fun t ↦ .send hsend
  | unsent => exact .aside (fun _ ↦ rfl) fun t ↦ .refl t s
  | endSelect => exact .aside (fun _ ↦ rfl) fun t ↦ .stop rfl
  | disconnect hp =>
    refine .aside (fun _ ↦ rfl) fun t ↦ ?_
    simp only [onDisconnectSession, (hw.sound _).player (.inr hp)]
    exact .stop rfl
  | @remove u =>
    refine .aside (fun _ ↦ rfl) fun t ↦ ?_
    have hclosed : Aside t s (s.setPhase u .closed) := .stop rfl
    exact hclosed.trans (.of_session rfl rfl)
  | shutdown | tick => exact .aside (fun _ ↦ rfl) fun t ↦ .of_session rfl rfl

/-- What a session has received are the readings of the first frames of the bytes that it has read,
and the bytes behind them are those of its buffer; it waits when there is no other frame in it. -/
structure Streamed (env : Env) (t : ℕ) (bytes : List UInt8) (s : State) : Prop where
  early : (s.session t).phase.isEarly = true → (s.session t).buffer = []
  waits : (s.session t).phase = .selecting .reading →
    onTryExtractFrame (s.session t).buffer = .ok none
  taken : ∃ payloads rest, Takes onTryExtractFrame bytes payloads rest ∧
    payloads.map (fun payload ↦ (fromUtf8 payload).bind env.readMessage) =
      (receivedBy t s.log).map some ∧
    ((s.session t).phase.listens = true → rest = (s.session t).buffer)

namespace Streamed

variable {bytes : List UInt8}

theorem aside (hs : Streamed env t bytes s) (h : Aside t s s') : Streamed env t bytes s' := by
  obtain ⟨payloads, rest, htakes, hread, hrest⟩ := hs.taken
  refine ⟨fun hearly ↦ ?_, fun hwaits ↦ ?_, payloads, rest, htakes, h.received ▸ hread,
    fun hlistens ↦ ?_⟩
  · rw [(h.listens (Phase.listens_of_early hearly)).2]
    exact hs.early (h.early hearly)
  · rw [(h.listens (by rw [hwaits]; rfl)).2]
    exact hs.waits (h.waits hwaits)
  · obtain ⟨hold, hbuffer⟩ := h.listens hlistens
    rw [hbuffer, hrest hold]

/-- The session comes to wait, with no frame in its buffer. -/
theorem setReading (hs : Streamed env t bytes s) (hl : (s.session u).phase.listens = true)
    (hnone : onTryExtractFrame (s.session u).buffer = .ok none) {x : Session}
    (hp : x.phase = .selecting .reading) (hb : x.buffer = (s.session u).buffer) :
    Streamed env t bytes (s.update u x) := by
  by_cases hu : t = u
  · subst hu
    obtain ⟨payloads, rest, htakes, hread, hrest⟩ := hs.taken
    refine ⟨fun hearly ↦ ?_, fun _ ↦ ?_, payloads, rest, htakes, hread, fun _ ↦ ?_⟩
    · simp [State.update, hp, Phase.isEarly] at hearly
    · simpa [State.update, hb] using hnone
    · rw [hrest hl]
      simp [State.update, hb]
  · refine hs.aside (.of_session ?_ rfl)
    simp only [State.update, Function.update_of_ne hu]

theorem readBuf (hs : Streamed env t bytes s) (hp : (s.session t).phase = .selecting .reading)
    (more : List UInt8) :
    Streamed env t (bytes ++ more) (s.update t { s.session t with
      phase := .selecting .unpacking, buffer := (s.session t).buffer ++ more }) := by
  obtain ⟨payloads, rest, htakes, hread, hrest⟩ := hs.taken
  refine ⟨fun hearly ↦ ?_, fun hwaits ↦ ?_, payloads, rest ++ more,
    htakes.append extractFrame_incremental more, hread, fun _ ↦ ?_⟩
  · simp [State.update, Phase.isEarly] at hearly
  · simp [State.update] at hwaits
  · rw [hrest (by rw [hp]; rfl)]
    simp [State.update]

theorem recvFrame (hs : Streamed env t bytes s) (hp : (s.session u).phase = .selecting .unpacking) :
    Streamed env t bytes (onRecvFrame env s u) := by
  have hlistens : (s.session u).phase.listens = true := by rw [hp]; rfl
  unfold onRecvFrame
  dsimp only
  split
  · rename_i hempty
    refine hs.setReading hlistens ?_ rfl rfl
    rw [List.isEmpty_iff.1 hempty]
    exact extractFrame_incremental.nil
  split
  · exact hs.aside (.setReader hp (by simp) (by simp))
  · exact hs.aside (.of_session rfl rfl)
  · rename_i hnone
    exact hs.setReading hlistens hnone rfl rfl
  rename_i payload buffer hextract
  split
  · exact hs.aside (.stop rfl)
  rename_i m hm
  split
  · exact hs.aside (.of_session rfl rfl)
  by_cases hu : t = u
  · -- The frame taken is the next one of the bytes read so far.
    subst hu
    obtain ⟨payloads, rest, htakes, hread, hrest⟩ := hs.taken
    rw [hrest hlistens] at htakes
    refine ⟨fun hearly ↦ ?_, fun hwaits ↦ ?_, payloads ++ [payload], buffer,
      htakes.concat hextract, ?_, fun _ ↦ ?_⟩
    · simp [State.update, State.emit, Phase.isEarly] at hearly
    · simp [State.update, State.emit] at hwaits
    · rw [List.map_append, hread]
      simp [State.update, State.emit, receivedBy, hm]
    · simp [State.update, State.emit]
  · refine hs.aside (.trans (.elsewhere hu _) (.emit ?_))
    simp [receivedBy, Ne.symm hu]

/-- The new session's number has not been used before. -/
theorem spawn (hw : s.WellFormed) (hs : Streamed env t bytes s) :
    Streamed env t bytes (spawn s) := by
  by_cases ht : t = s.spawned
  · have hearly : (s.session t).phase.isEarly = true := by
      have hlife := hw.absent t ht.ge
      generalize (s.session t).phase = phase at hlife
      cases phase <;> first | rfl | cases hlife
    have hnew : ((Server.spawn s).session t).buffer = [] := by
      simp [Server.spawn, State.update, ht, Session.absent]
    obtain ⟨payloads, rest, htakes, hread, hrest⟩ := hs.taken
    refine ⟨fun _ ↦ hnew, fun _ ↦ ?_, payloads, rest, htakes, hread, fun _ ↦ ?_⟩
    · rw [hnew]
      exact extractFrame_incremental.nil
    · rw [hnew, hrest (Phase.listens_of_early hearly), hs.early hearly]
  · refine hs.aside (.of_session ?_ rfl)
    simp only [Server.spawn, State.update, Function.update_of_ne ht]

/-- A session starts with an empty buffer. -/
theorem start (hs : Streamed env t bytes s) (hp : (s.session u).phase = .starting) :
    Streamed env t bytes (onSessionStart s u) := by
  have hlistens : (s.session u).phase.listens = true := by rw [hp]; rfl
  by_cases hu : t = u
  · subst hu
    have hupdate : Streamed env t bytes (s.update t { s.session t with
        phase := .selecting .reading, player := some ⟨t, (s.session t).sessionId⟩ }) := by
      refine hs.setReading hlistens ?_ rfl rfl
      rw [hs.early (by rw [hp]; rfl)]
      exact extractFrame_incremental.nil
    exact hupdate.aside (.of_session rfl rfl)
  · refine hs.aside (.of_session ?_ rfl)
    simp only [onSessionStart, State.update, Function.update_of_ne hu]

theorem step (hw : s.WellFormed) (hs : Streamed env t bytes s) (h : step env s a = some s') :
    Streamed env t (bytes ++ a.bytesOf t) s' := by
  -- What reads no bytes leaves them as they are.
  have hquiet (hb : a.bytesOf t = []) (h' : Streamed env t bytes s') :
      Streamed env t (bytes ++ a.bytesOf t) s' := by rwa [hb, List.append_nil]
  cases flow_of_step hw h with
  | aside hb ha => exact hquiet (hb t) (hs.aside (ha t))
  | spawn => exact hquiet rfl (hs.spawn hw)
  | start hp => exact hquiet rfl (hs.start hp)
  | @read u more hp =>
    by_cases hu : u = t
    · subst hu
      rw [Action.bytesOf, if_pos rfl]
      exact hs.readBuf hp more
    · refine hquiet (if_neg hu) (hs.aside (.of_session ?_ rfl))
      simp only [State.update, Function.update_of_ne (Ne.symm hu)]
  | unpack hp => exact hquiet rfl (hs.recvFrame hp)

theorem run (h : Run (Server.step env) Any .init as s) (t : ℕ) :
    Streamed env t (as.flatMap (Action.bytesOf t)) s := by
  refine (h.history (I := fun bs u ↦ Run (Server.step env) Any .init bs u ∧
    Streamed env t (bs.flatMap (Action.bytesOf t)) u) (fun bs u a v hu ha hv ↦ ?_)
    ⟨.nil _, fun _ ↦ rfl, (fun h ↦ by cases h), [], [], .nil _, rfl, fun _ ↦ rfl⟩).2
  refine ⟨hu.1.trans (.one ha hv), ?_⟩
  rw [List.flatMap_append, List.flatMap_singleton]
  exact hu.2.step (.run hu.1) hv

end Streamed

structure Board.Numbered (b : Board) : Prop where
  length : ∀ t, (receivedBy t b.log).length = (b.view t).received
  index : ∀ t k m, .received t k m ∈ b.log → (receivedBy t b.log)[k]? = some m

theorem Move.receives {lossy : Bool} {grants : List Entry → Prop} {v v' : View} {es : List Event}
    (h : Move env lossy grants t v es v') :
    (∀ u k m, .received u k m ∉ es) ∧ v'.received = v.received ∨
      ∃ m, es = [.received t v.received m] ∧ v'.received = v.received + 1 := by
  cases h with
  | receive m => exact .inr ⟨m, rfl, rfl⟩
  | _ => exact .inl ⟨by simp [answerEvent, pushEvent], rfl⟩

theorem receivedBy_eq_nil {es : List Event} (h : ∀ k m, .received t k m ∉ es) :
    receivedBy t es = [] := by
  rw [receivedBy, List.filterMap_eq_nil_iff]
  intro e he
  cases e with
  | received u k m =>
    by_cases hu : u = t
    · subst hu
      exact absurd he (h k m)
    · exact if_neg hu
  | locked | enqueued | returned => rfl

theorem Board.Numbered.advance {b b' : Board} {lossy : Bool} (hb : b.Numbered)
    (h : Advance env lossy b b') : b'.Numbered := by
  obtain ⟨t, es, hmove, hview, hlog⟩ := h.exists_move
  obtain ⟨hnone, hcount⟩ | ⟨m, rfl, hcount⟩ := hmove.receives
  · have hsame (u : ℕ) : receivedBy u b'.log = receivedBy u b.log := by
      rw [hlog, receivedBy_append, receivedBy_eq_nil (hnone u), List.append_nil]
    refine ⟨fun u ↦ ?_, fun u k m hmem ↦ ?_⟩
    · rw [hsame, hb.length]
      by_cases hu : u = t
      · rw [hu, hcount]
      · rw [hview u hu]
    · rw [hlog, List.mem_append] at hmem
      rw [hsame]
      exact hb.index u k m (hmem.resolve_right (hnone u k m))
  · have hnew : receivedBy t b'.log = receivedBy t b.log ++ [m] := by
      rw [hlog, receivedBy_append]
      simp [receivedBy]
    have hsame {u : ℕ} (hu : u ≠ t) : receivedBy u b'.log = receivedBy u b.log := by
      rw [hlog, receivedBy_append]
      simp [receivedBy, Ne.symm hu]
    refine ⟨fun u ↦ ?_, fun u k m' hmem ↦ ?_⟩
    · by_cases hu : u = t
      · subst hu
        rw [hnew, hcount, List.length_append, hb.length, List.length_singleton]
      · rw [hsame hu, hview u hu, hb.length]
    · rw [hlog, List.mem_append, List.mem_singleton] at hmem
      rcases hmem with hmem | hmem
      · have hold := hb.index u k m' hmem
        by_cases hu : u = t
        · subst hu
          rw [hnew, List.getElem?_append_left (List.getElem?_eq_some_iff.1 hold).1, hold]
        · rw [hsame hu, hold]
      · cases hmem
        rw [hnew, ← hb.length, List.getElem?_concat_length]

theorem numbered_of_run (h : Run (step env) Any .init as s) : s.board.Numbered :=
  board_invariant true h (by simp) (I := Board.Numbered)
    ⟨fun _ ↦ rfl, fun _ _ _ hmem ↦ by cases hmem⟩ fun _ _ ↦ Board.Numbered.advance

end MusicRemote.Server
