import MusicRemote.Server.WellFormed

namespace MusicRemote.Server

open Foundation Foundation.Transition Protocol Protocol.Json Protocol.Framing

def Session.view (x : Session) : View :=
  ⟨x.phase.life ≠ .absent, x.sessionId, x.phase.reader, x.received⟩

def State.board (s : State) : Board := ⟨fun t ↦ (s.session t).view, s.log⟩

/-- In the next round of a broadcast, the receiver is still there. -/
def receiverOpen (s : State) : Action → Bool
  | .push t =>
    match (s.session t).phase with
    | .selecting (.pushing _ _ (p :: _)) => (s.session p.tx).channel.isOpen
    | _ => true
  | _ => true

variable {env : Env} {lossy : Bool} {s s' : State} {t k : ℕ} {es : List Event} {x : Session}
  {a : Action}

theorem Advance.of_view (hv : ∀ u, u ≠ t → (s'.session u).view = (s.session u).view)
    (hlog : s'.log = s.log ++ es)
    (hm : Move env lossy s.board.Grants t (s.session t).view es (s'.session t).view) :
    Advance env lossy s.board s'.board := by
  have hb : s'.board = ⟨Function.update s.board.view t (s'.session t).view, s.board.log ++ es⟩ := by
    unfold State.board
    rw [hlog]
    congr
    funext u
    by_cases hu : u = t
    · rw [hu, Function.update_self]
    · rw [Function.update_of_ne hu, hv u hu]
  exact hb ▸ .move hm

theorem Advance.of_update (hs : s'.session = Function.update s.session t x)
    (hlog : s'.log = s.log ++ es)
    (hm : Move env lossy s.board.Grants t (s.session t).view es x.view) :
    Advance env lossy s.board s'.board := by
  apply Advance.of_view (t := t) _ hlog
  · rwa [hs, Function.update_self]
  · intro u hu
    rw [hs, Function.update_of_ne hu]

theorem Advance.of_eq (hv : ∀ u, (s'.session u).view = (s.session u).view) (hlog : s'.log = s.log) :
    Advance env lossy s.board s'.board := by
  apply Advance.of_view (t := 0) (fun u _ ↦ hv u) (hlog.trans (List.append_nil _).symm)
  rw [hv]
  exact .skip

theorem view_selecting {r : Reader} (h : (s.session t).phase = .selecting r) :
    (s.session t).view = ⟨true, (s.session t).sessionId, some r, (s.session t).received⟩ := by
  simp [Session.view, h, Phase.life, Phase.reader]

theorem send_view {target : ℕ} {body : Body} {cause : Cause}
    (h : s.send target body cause = some s') (t : ℕ) :
    (s'.session t).view = (s.session t).view := by
  obtain ⟨channel, -, rfl⟩ := Option.map_eq_some_iff.1 h
  by_cases ht : t = target
  · subst ht
    simp [State.emit, State.update, Session.view]
  · simp [State.emit, State.update, ht]

theorem send_of_isOpen {target : ℕ} (h : (s.session target).channel.isOpen = true) (body : Body)
    (cause : Cause) : ∃ s', s.send target body cause = some s' := by
  unfold State.send Channel.send
  rw [if_pos h]
  exact ⟨_, rfl⟩

theorem isOpen_of_send {target : ℕ} {body : Body} {cause : Cause}
    (h : s.send target body cause = none) : (s.session target).channel.isOpen = false := by
  rw [State.send, Option.map_eq_none_iff] at h
  exact Channel.send_eq_none.1 h

theorem grants_of_perm (hw : s.WellFormed) (hg : s.guard = none) {entries : List Entry}
    (he : entries.Perm s.players.entries) : s.board.Grants entries := by
  have hmem : ∀ e ∈ entries, s.players.lookup e.1 = some e.2 := fun e h ↦
    AList.mem_lookup_iff.2 (he.subset h)
  refine ⟨⟨(List.perm_nodupKeys he).2 s.players.nodupKeys, ?_, ?_⟩, ?_⟩
  · intro e h
    have hl := (hw.players _ _ (hmem e h)).2.1
    simp [State.board, Session.view, hl]
  · intro e h
    exact (hw.players _ _ (hmem e h)).2.2
  · intro u r hr
    have hu : (s.session u).phase.holdsLock ≠ true := by simp [hw.guard, hg]
    change (s.session u).phase.reader = some r at hr
    simpa [Phase.holdsLock, hr] using hu

theorem refresh_view (s : State) (t u : ℕ) :
    ((s.refresh t).session u).view = (s.session u).view := by
  unfold State.refresh
  split
  · by_cases hu : u = t
    · subst hu
      simp [State.update, Session.view]
    · simp [State.update, hu]
  · rfl

theorem refresh_board (s : State) (t : ℕ) : (s.refresh t).board = s.board := by
  have hlog : (s.refresh t).log = s.log := by
    unfold State.refresh
    split <;> rfl
  simp only [State.board, refresh_view, hlog]

theorem setPhase_view_of_ne {u : ℕ} (hu : u ≠ t) (phase : Phase) :
    ((s.setPhase t phase).session u).view = (s.session u).view := by
  simp [State.setPhase, State.update, hu]

theorem setReader_view {r : Reader} (hp : (s.session t).phase = .selecting r) (r' : Reader) :
    ((s.setPhase t (.selecting r')).session t).view =
      { (s.session t).view with reader := some r' } := by
  simp [State.setPhase, State.update, Session.view, hp, Phase.life, Phase.reader]

theorem setReader_advance {r r' : Reader} (hp : (s.session t).phase = .selecting r)
    (hlog : s'.log = s.log ++ es) (hv : ∀ u, (s'.session u).view = (s.session u).view)
    (hm : Move env lossy s.board.Grants t (s.session t).view es
      { (s.session t).view with reader := some r' }) :
    Advance env lossy s.board (s'.setPhase t (.selecting r')).board := by
  have hp' : ∃ r, (s'.session t).phase = .selecting r := by
    have hr := congrArg View.reader (hv t)
    rw [view_selecting hp] at hr
    cases h : (s'.session t).phase with
    | selecting r => exact ⟨r, rfl⟩
    | _ => simp [Session.view, h, Phase.reader] at hr
  obtain ⟨r', hp'⟩ := hp'
  refine .of_view (fun u hu ↦ (setPhase_view_of_ne hu _).trans (hv u)) hlog ?_
  rwa [setReader_view hp', hv]

theorem finish_advance {r : Reader} (hp : (s.session t).phase = .selecting r) (ok : Bool)
    (hm : Move env lossy s.board.Grants t (s.session t).view [.returned t k ok]
      { (s.session t).view with reader := some (if ok then .unpacking else .returned) }) :
    Advance env lossy s.board (s.finish t k ok).board :=
  setReader_advance hp rfl (fun _ ↦ rfl) hm

theorem answer_advance {r : Reader} (hw : s.WellFormed) (hp : (s.session t).phase = .selecting r)
    (body : Body) (hm : Move env lossy s.board.Grants t (s.session t).view
      [answerEvent t k body, .returned t k true]
      { (s.session t).view with reader := some .unpacking }) :
    Advance env lossy s.board (s.answer t k body).board := by
  obtain ⟨s', hs⟩ := send_of_isOpen ((hw.sound t).selecting hp).1 body (.message t k)
  simp only [State.answer, hs]
  refine setReader_advance hp ?_ (fun u ↦ send_view hs u) hm
  change s'.log ++ _ = _
  rw [(Frame.send hs).log, List.append_assoc]
  rfl

theorem onRecvFrame_advance (hp : (s.session t).phase = .selecting .unpacking) :
    Advance env lossy s.board (onRecvFrame env s t).board := by
  have hlog : s.log = s.log ++ [] := (List.append_nil _).symm
  have hv := view_selecting hp
  have hidle {r : Reader} (hr : r.index = none) :
      Move env lossy s.board.Grants t (s.session t).view []
      { (s.session t).view with reader := some r } := .idle (congrArg View.reader hv) rfl hr
  have hset {r : Reader} (hr : r.index = none) :
      Advance env lossy s.board (s.setPhase t (.selecting r)).board :=
    setReader_advance hp hlog (fun _ ↦ rfl) (hidle hr)
  unfold onRecvFrame
  dsimp only
  split
  · exact hset rfl
  split
  · exact hset rfl
  · exact .of_eq (fun _ ↦ rfl) rfl
  · exact hset rfl
  split
  · refine .of_update rfl hlog ?_
    have hm := hidle (r := .returned) rfl
    rw [hv] at hm ⊢
    exact hm
  split
  · exact .of_eq (fun _ ↦ rfl) rfl
  · refine .of_update rfl rfl ?_
    rw [hv]
    exact .receive _ rfl

theorem onRecvMessage_advance {m : Message} (hw : s.WellFormed)
    (hp : (s.session t).phase = .selecting (.received k m)) :
    Advance env lossy s.board (onRecvMessage env s t k m).board := by
  have hw' := hw.frame (.refresh s t)
  have hp' := (refresh_phase s t).trans hp
  have hr : ((s.refresh t).session t).view.reader = some (.received k m) :=
    congrArg View.reader (view_selecting hp')
  rw [onRecvMessage_eq, ← refresh_board s t]
  cases hm : verdict env m with
  | fail => exact finish_advance hp' false (.fail hr hm)
  | ignore => exact finish_advance hp' true (.ignore hr hm)
  | pong time => exact answer_advance hw' hp' _ (.pong hr hm)
  | refuse => exact answer_advance hw' hp' _ (.refuse hr hm)
  | permit push =>
    exact setReader_advance hp' (List.append_nil _).symm (fun _ ↦ rfl) (.permit hr hm)

theorem broadcast_advance {push : PushMediaKeyEvent} {rest : List Player}
    (hp : (s.session t).phase = .selecting (.pushing k push rest))
    (hl : lossy = false → receiverOpen s (.push t) = true) :
    Advance env lossy s.board (broadcast s t k push rest).board := by
  have hr : (s.session t).view.reader = some (.pushing k push rest) :=
    congrArg View.reader (view_selecting hp)
  cases rest with
  | nil => exact setReader_advance hp (List.append_nil _).symm (fun _ ↦ rfl) (.unlock hr)
  | cons p rest =>
    cases hs : s.send p.tx (.push push) (.message t k) with
    | none =>
      simp only [broadcast, hs]
      refine setReader_advance hp rfl (fun _ ↦ rfl) (.abort hr ?_)
      cases lossy with
      | true => rfl
      | false =>
        have ho := hl rfl
        simp only [receiverOpen, hp, isOpen_of_send hs] at ho
        cases ho
    | some s' =>
      simp only [broadcast, hs]
      exact setReader_advance hp (Frame.send hs).log (send_view hs) (.push hr)

theorem spawn_advance (hw : s.WellFormed) : Advance env lossy s.board (spawn s).board := by
  have ha := hw.absent s.spawned (Nat.le_refl _)
  have hz := (hw.sound s.spawned).early (.inl ha)
  have hv : (s.session s.spawned).view = ⟨false, (s.session s.spawned).sessionId, none, 0⟩ := by
    simp [Session.view, ha, hz, Phase.reader_of_life (ha.trans_ne (by decide))]
  refine .of_update rfl (List.append_nil _).symm ?_
  rw [hv]
  exact .spawn _ rfl rfl rfl

theorem onSessionStart_advance (hs : (s.session t).Sound t) (hp : (s.session t).phase = .starting) :
    Advance env lossy s.board (onSessionStart s t).board := by
  have hz := hs.early (.inr (by rw [hp]; rfl))
  have hv : (s.session t).view = ⟨true, (s.session t).sessionId, none, 0⟩ := by
    simp [Session.view, hp, hz, Phase.life, Phase.reader]
  refine .of_update rfl (List.append_nil _).symm ?_
  have hm : Move env lossy s.board.Grants t _ [] _ := .start
    (congrArg View.spawned hv) (congrArg View.reader hv) (congrArg View.received hv)
  rw [hv] at hm ⊢
  exact hz ▸ hm

theorem lockPlayers_advance {push : PushMediaKeyEvent} {entries : List Entry} (hw : s.WellFormed)
    (hp : (s.session t).phase = .selecting (.locking k push)) (hg : s.guard = none)
    (he : entries.Perm s.players.entries) :
    Advance env lossy s.board (lockPlayers s t k push entries).board := by
  refine .of_update rfl rfl ?_
  rw [view_selecting hp]
  exact .lock rfl (grants_of_perm hw hg he)

theorem pollWrite_advance {r : Reader} {ok : Bool} (hs : (s.session t).Sound t)
    (hp : (s.session t).phase = .selecting r) (hr : r.awaits = true)
    (h : pollWrite s t ok = some s') : Advance env lossy s.board s'.board := by
  rw [pollWrite_eq hs, Option.map_eq_some_iff] at h
  obtain ⟨⟨e, channel⟩, -, rfl⟩ := h
  cases ok with
  | true => exact .of_update rfl (List.append_nil _).symm .skip
  | false =>
    refine .of_update rfl (List.append_nil _).symm ?_
    rw [view_selecting hp]
    exact .cancel rfl hr

theorem ping_advance {millis : UInt64} (hs : (s.session t).Sound t)
    (ht : (s.session t).pingTask = true) (h : s.send t (.ping ⟨millis⟩) .pingTask = some s') :
    Advance env lossy s.board s'.board := by
  refine .of_view (t := t) (fun u _ ↦ send_view h u) (Frame.send h).log ?_
  rw [send_view h t]
  exact .ping millis (by simpa [Session.view] using hs.pingTask ht)

theorem endSelect_advance {r : Reader} (hp : (s.session t).phase = .selecting r)
    (hr : r = .returned ∨ s.shutdown = true ∧ r.awaits = true) :
    Advance env lossy s.board (endSelect s t).board := by
  refine .of_update rfl (List.append_nil _).symm ?_
  rw [view_selecting hp]
  obtain rfl | ⟨-, hr⟩ := hr
  · exact .idle rfl rfl rfl
  · exact .cancel rfl hr

/-- What is seen of a session that has ended its select stays as it is. -/
theorem ended_view {phase : Phase} (hp : (s.session t).phase = phase)
    (hphase : phase = .closing ∨ phase = .removing) :
    (s.session t).view = ⟨true, (s.session t).sessionId, none, (s.session t).received⟩ := by
  obtain rfl | rfl := hphase <;> simp [Session.view, hp, Phase.life, Phase.reader]

theorem onDisconnectSession_advance (hs : (s.session t).Sound t)
    (hp : (s.session t).phase = .closing) :
    Advance env lossy s.board (onDisconnectSession s t).board := by
  simp only [onDisconnectSession, hs.player (.inr hp)]
  refine .of_update rfl (List.append_nil _).symm ?_
  rw [ended_view hp (.inl rfl)]
  exact .skip

theorem onSessionClose_advance (hp : (s.session t).phase = .removing) :
    Advance env lossy s.board (onSessionClose s t).board := by
  refine .of_update rfl (List.append_nil _).symm ?_
  rw [ended_view hp (.inr rfl)]
  exact .skip

theorem step_advance (lossy : Bool) (hw : s.WellFormed) (h : step env s a = some s')
    (hl : lossy = false → receiverOpen s a = true) : Advance env lossy s.board s'.board := by
  have hlog : s.log = s.log ++ [] := (List.append_nil _).symm
  cases step_outcome h with
  | spawn => exact spawn_advance hw
  | start hp => exact onSessionStart_advance (hw.sound _) hp
  | eof hp | readError hp =>
    have hv := view_selecting hp
    exact setReader_advance hp hlog (fun _ ↦ rfl) (.idle (congrArg View.reader hv) rfl rfl)
  | read hp =>
    refine .of_update rfl hlog ?_
    rw [view_selecting hp]
    exact .idle rfl rfl rfl
  | recvFrame hp => exact onRecvFrame_advance hp
  | recvMessage hp => exact onRecvMessage_advance hw hp
  | lock hp hg hperm => exact lockPlayers_advance hw hp hg hperm
  | push hp => exact broadcast_advance hp hl
  | respond hp => exact answer_advance hw hp _ (.respond (congrArg View.reader (view_selecting hp)))
  | write hp hr hwrite => exact pollWrite_advance (hw.sound _) hp hr hwrite
  | ping ht hsend => exact ping_advance (hw.sound _) ht hsend
  | endSelect hp hr => exact endSelect_advance hp hr
  | disconnect hp => exact onDisconnectSession_advance (hw.sound _) hp
  | remove hp => exact onSessionClose_advance hp
  | unsent | shutdown | tick => exact .of_eq (fun _ ↦ rfl) rfl

/-- What the board's moves preserve holds in every state that the server reaches. -/
theorem board_invariant (lossy : Bool) {I : Board → Prop} {ok : State → Action → Prop}
    {as : List Action} (h : Run (step env) ok .init as s)
    (hl : lossy = false → ∀ s a, ok s a → receiverOpen s a = true)
    (hi : I State.init.board) (hs : ∀ b b', I b → Advance env lossy b b' → I b') : I s.board :=
  h.invariant_of (I := fun s ↦ I s.board) (J := State.WellFormed) (fun _ _ _ hw _ hs ↦ hw.step hs)
    (fun _ _ _ hw hb ha h ↦ hs _ _ hb (step_advance lossy hw h (fun h ↦ hl h _ _ ha)))
    .initial hi

theorem staged_of_run (lossy : Bool) {ok : State → Action → Prop} {as : List Action}
    (h : Run (step env) ok .init as s)
    (hl : lossy = false → ∀ s a, ok s a → receiverOpen s a = true) :
    s.board.Staged env lossy :=
  board_invariant lossy h hl (fun _ ↦ .initial 0) (fun _ _ ↦ Board.Staged.advance)

end MusicRemote.Server
