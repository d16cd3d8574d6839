import MusicRemote.Server.Stream

namespace MusicRemote.Server

open Foundation Foundation.Transition Foundation.Extraction
open Protocol Protocol.Json Protocol.Framing

def replyTo (env : Env) (m : Message) : Option Body :=
  match verdict env m with
  | .pong time => some (.pong ⟨time⟩)
  | .refuse => some denied
  | .permit _ => some granted
  | .fail | .ignore => none

def Body.isReply : Body → Bool
  | .pong _ | .response _ => true
  | .ping _ | .push _ => false

def replies (es : List Envelope) : List Body := (es.map Envelope.body).filter Body.isReply

def Reader.pending (env : Env) : Reader → Option Body
  | .received _ m => replyTo env m
  | .locking _ _ | .pushing _ _ _ | .responding _ => some granted
  | .reading | .unpacking | .returned => none

def View.pending (env : Env) (v : View) : List Body := (v.reader.bind (Reader.pending env)).toList

/-- Of the replies to the messages of session `t`, only the one that is pending is not yet in its
channel; a session that no longer listens may have left one out. -/
def State.Replying (env : Env) (t : ℕ) (s : State) : Prop :=
  ∃ rest, rest.length ≤ 1 ∧
    (receivedBy t s.log).filterMap (replyTo env) = replies (sentTo t s.log) ++ rest ∧
    ((s.session t).phase.listens = true → rest = (s.session t).view.pending env)

section

variable {env : Env} {lossy : Bool} {grants : List Entry → Prop} {s s' : State} {t u k : ℕ}
  {a : Action} {as : List Action} {v v' : View} {es : List Event} {r : Reader}

theorem replies_append (es es' : List Envelope) :
    replies (es ++ es') = replies es ++ replies es' := by
  rw [replies, List.map_append, List.filter_append]
  rfl

theorem replies_answerEvent {body : Body} (hb : body.isReply = true) :
    replies (sentTo t [answerEvent t k body, .returned t k true]) = [body] := by
  simp [sentTo, answerEvent, replies, envelope, hb]

theorem replies_pushEvent (t u k : ℕ) (push : PushMediaKeyEvent) (p : Player) :
    replies (sentTo u [pushEvent t k push p]) = [] := by
  by_cases hp : p.tx = u <;> simp [sentTo, pushEvent, replies, envelope, Body.isReply, hp]

theorem Reader.pending_of_index (h : r.index = none) : r.pending env = none := by
  cases r with
  | reading | unpacking | returned => rfl
  | _ => cases h

theorem View.pending_of_reader (h : v.reader = some r) :
    v.pending env = (r.pending env).toList := by rw [View.pending, h, Option.bind_some]

theorem View.pending_of_none (h : v.reader = none) : v.pending env = [] := by
  rw [View.pending, h]
  rfl

/-- Nothing that a session does is a reply to another. -/
theorem Move.replies_of_ne (h : Move env lossy grants t v es v') (hu : u ≠ t) :
    receivedBy u es = [] ∧ replies (sentTo u es) = [] := by
  have hne : t ≠ u := Ne.symm hu
  cases h with
  | push => exact ⟨rfl, replies_pushEvent ..⟩
  | _ => simp [receivedBy, sentTo, replies, answerEvent, hne]

/-- What is pending and what becomes due is in the channel or pending then; or the session stops
listening, without a reply. -/
theorem Move.replies_of_self (h : Move env lossy grants t v es v') :
    v.pending env ++ (receivedBy t es).filterMap (replyTo env) =
        replies (sentTo t es) ++ v'.pending env ∨
      receivedBy t es = [] ∧ replies (sentTo t es) = [] ∧
        (v'.reader = none ∨ v'.reader = some .returned) := by
  cases h with
  | skip | spawn => exact .inl (List.append_nil _)
  | ping millis =>
    left
    simp [receivedBy, sentTo, replies, envelope, Body.isReply]
  | start hb hr =>
    left
    rw [View.pending, hr]
    rfl
  | @idle r r' hr hi hi' =>
    left
    have hnone : r'.bind (Reader.pending env) = none := by
      cases r' with
      | none => rfl
      | some r' => exact Reader.pending_of_index hi'
    rw [View.pending_of_reader hr, Reader.pending_of_index hi, View.pending, hnone]
    rfl
  | cancel => exact .inr ⟨rfl, rfl, .inl rfl⟩
  | fail | abort => exact .inr ⟨rfl, rfl, .inr rfl⟩
  | receive m hr =>
    left
    rw [View.pending_of_reader hr, View.pending_of_reader rfl]
    cases hm : replyTo env m <;>
      simp [receivedBy, sentTo, replies, Reader.pending, hm]
  | ignore hr hm | permit hr hm =>
    left
    rw [View.pending_of_reader hr, View.pending_of_reader rfl]
    simp [receivedBy, sentTo, replies, Reader.pending, replyTo, hm]
  | pong hr hm | refuse hr hm =>
    left
    rw [View.pending_of_reader hr, replies_answerEvent rfl, View.pending_of_reader rfl]
    simp [receivedBy, Reader.pending, replyTo, hm, answerEvent]
  | lock hr | unlock hr =>
    left
    rw [View.pending_of_reader hr, View.pending_of_reader rfl]
    rfl
  | push hr =>
    left
    rw [View.pending_of_reader hr, replies_pushEvent, View.pending_of_reader rfl]
    rfl
  | respond hr =>
    left
    rw [View.pending_of_reader hr, replies_answerEvent rfl, View.pending_of_reader rfl]
    rfl

/-- A session that has returned, or is not in its select, does nothing that counts here. -/
theorem Move.replies_of_mute (h : Move env lossy grants t v es v')
    (hv : ∀ r, v.reader = some r → r = .returned) :
    receivedBy t es = [] ∧ replies (sentTo t es) = [] := by
  have hbusy {r : Reader} (hr : v.reader = some r) (hne : r ≠ .returned) :
      receivedBy t es = [] ∧ replies (sentTo t es) = [] := absurd (hv r hr) hne
  cases h with
  | skip | spawn | start | idle | cancel | fail | abort | unlock | permit => exact ⟨rfl, rfl⟩
  | ping millis => simp [receivedBy, sentTo, replies, envelope, Body.isReply]
  | receive m hr | ignore hr | pong hr | refuse hr | lock hr | push hr | respond hr =>
    exact hbusy hr (by simp)

theorem Phase.reader_of_not_listens {phase : Phase} (h : phase.listens = false)
    (hr : phase.reader = some r) : r = .returned := by
  cases phase with
  | selecting r' =>
    cases hr
    simpa [Phase.listens] using h
  | _ => cases hr

theorem Phase.isEarly_of_listens {phase : Phase} (hl : phase.listens = true)
    (hr : phase.reader = none) : phase.isEarly = true := by
  cases phase with
  | absent | starting => rfl
  | selecting => cases hr
  | _ => cases hl

theorem Phase.reader_of_isEarly {phase : Phase} (h : phase.isEarly = true) :
    phase.reader = none := by
  cases phase with
  | absent | starting => rfl
  | _ => cases h

theorem Phase.listens_of_returned {phase : Phase} (h : phase.reader = some .returned) :
    phase.listens = false := by
  cases phase with
  | selecting r =>
    cases h
    rfl
  | _ => cases h

theorem onRecvFrame_of_ne (ht : t ≠ u) : (onRecvFrame env s u).session t = s.session t := by
  unfold onRecvFrame
  dsimp only
  split
  · exact Function.update_of_ne ht _ _
  split
  · exact Function.update_of_ne ht _ _
  · rfl
  · exact Function.update_of_ne ht _ _
  split
  · exact Function.update_of_ne ht _ _
  split
  · rfl
  · exact Function.update_of_ne ht _ _

theorem onRecvFrame_reader (h : (s.session t).phase = .selecting .unpacking) :
    ((onRecvFrame env s t).session t).phase.reader ≠ none := by
  unfold onRecvFrame
  dsimp only
  split
  · simp [State.setPhase, State.update, Phase.reader]
  split
  · simp [State.setPhase, State.update, Phase.reader]
  · simp [h, Phase.reader]
  · simp [State.setPhase, State.update, Phase.reader]
  split
  · simp [State.update, Phase.reader]
  split
  · simp [h, Phase.reader]
  · simp [State.update, State.emit, Phase.reader]

/-- A session that listens has done so before, and does not leave its select to do so. -/
theorem listens_of_step (hw : s.WellFormed) (h : step env s a = some s') (t : ℕ)
    (hl : (s'.session t).phase.listens = true) :
    (s.session t).phase.listens = true ∧
      ((s'.session t).phase.reader = none → (s.session t).phase.reader = none) := by
  have hsame (hs : s'.session t = s.session t) : (s.session t).phase.listens = true ∧
      ((s'.session t).phase.reader = none → (s.session t).phase.reader = none) := by
    rw [← hs]
    exact ⟨hl, id⟩
  cases flow_of_step hw h with
  | aside _ ha =>
    refine ⟨((ha t).listens hl).1, fun hr ↦ ?_⟩
    exact Phase.reader_of_isEarly ((ha t).early (Phase.isEarly_of_listens hl hr))
  | spawn =>
    by_cases ht : t = s.spawned
    · have hlife := hw.absent t ht.ge
      generalize (s.session t).phase = phase at hlife
      cases phase with
      | absent => exact ⟨rfl, fun _ ↦ rfl⟩
      | _ => cases hlife
    · exact hsame (by simp only [spawn, State.update, Function.update_of_ne ht])
  | @start u hp =>
    by_cases ht : t = u
    · subst ht
      rw [hp]
      exact ⟨rfl, fun _ ↦ rfl⟩
    · exact hsame (by simp only [onSessionStart, State.update, Function.update_of_ne ht])
  | @read u more hp =>
    by_cases ht : t = u
    · subst ht
      refine ⟨by rw [hp]; rfl, fun hr ↦ ?_⟩
      simp [State.update, Phase.reader] at hr
    · exact hsame (by simp only [State.update, Function.update_of_ne ht])
  | @unpack u hp =>
    by_cases ht : t = u
    · subst ht
      exact ⟨by rw [hp]; rfl, fun hr ↦ absurd hr (onRecvFrame_reader hp)⟩
    · exact hsame (onRecvFrame_of_ne ht)

theorem State.Replying.step (hw : s.WellFormed) (hs : s.Replying env t)
    (h : step env s a = some s') : s'.Replying env t := by
  obtain ⟨rest, hlength, hdue, hrest⟩ := hs
  have hlistens := listens_of_step hw h t
  obtain ⟨u, es, hmove, hview, hlog⟩ :=
    (step_advance true hw h (fun hl ↦ by cases hl)).exists_move
  -- The log of the board is that of the server.
  change s'.log = s.log ++ es at hlog
  have hnew (rest' : List Body) (hlength' : rest'.length ≤ 1)
      (hrest' : rest ++ (receivedBy t es).filterMap (replyTo env) =
        replies (sentTo t es) ++ rest')
      (hpending : (s'.session t).phase.listens = true → rest' = (s'.session t).view.pending env) :
      s'.Replying env t := by
    refine ⟨rest', hlength', ?_, hpending⟩
    rw [hlog, receivedBy_append, List.filterMap_append, hdue, sentTo_append, replies_append,
      List.append_assoc, List.append_assoc, hrest']
  have hkeep (hnone : receivedBy t es = [] ∧ replies (sentTo t es) = [])
      (hpending : (s'.session t).phase.listens = true → rest = (s'.session t).view.pending env) :
      s'.Replying env t := by
    refine hnew rest hlength ?_ hpending
    rw [hnone.1, hnone.2]
    exact List.append_nil _
  by_cases hu : t = u
  · subst hu
    cases hold : (s.session t).phase.listens with
    | false =>
      refine hkeep (hmove.replies_of_mute fun r ↦ Phase.reader_of_not_listens hold) fun hl ↦ ?_
      cases hold.symm.trans (hlistens hl).1
    | true =>
      have hpending := hrest hold
      obtain hbalance | ⟨hreceived, hreplies, hstop⟩ := hmove.replies_of_self
      · refine hnew _ ?_ (hpending ▸ hbalance) fun _ ↦ rfl
        exact Option.length_toList_le
      · refine hkeep ⟨hreceived, hreplies⟩ fun hl ↦ ?_
        obtain hnone | hreturned := hstop
        · have hbefore := (hlistens hl).2 hnone
          rw [hpending, View.pending_of_none (v := (s.session t).view) hbefore]
          exact (View.pending_of_none hnone).symm
        · rw [Phase.listens_of_returned hreturned] at hl
          cases hl
  · refine hkeep (hmove.replies_of_ne hu) fun hl ↦ ?_
    rw [hrest (hlistens hl).1]
    exact congrArg (View.pending env) (hview t hu).symm

theorem replying_of_run (h : Run (step env) Any .init as s) (t : ℕ) : s.Replying env t :=
  h.invariant_of (J := State.WellFormed) (I := State.Replying env t)
    (fun _ _ _ hw _ hs ↦ hw.step hs) (fun _ _ _ hw hi _ hs ↦ hi.step hw hs) .initial
    ⟨[], Nat.zero_le 1, rfl, fun _ ↦ rfl⟩

theorem replies_written (h : Run (step env) Any .init as s) (t : ℕ) :
    replies (s.session t).written <+: replies (sentTo t s.log) :=
  (((List.prefix_append ..).trans (delivers_of_run h t).isPrefix).map _).filter _

theorem replies_isPrefix (h : Run (step env) Any .init as s) (t : ℕ) :
    replies (s.session t).written <+: (receivedBy t s.log).filterMap (replyTo env) := by
  obtain ⟨rest, -, hdue, -⟩ := replying_of_run h t
  rw [hdue]
  exact (replies_written h t).trans (List.prefix_append ..)

theorem replies_eq (h : Run (step env) Any .init as s)
    (hp : (s.session t).phase = .selecting .reading) (hq : (s.session t).channel.queue = []) :
    replies (s.session t).written = (receivedBy t s.log).filterMap (replyTo env) := by
  obtain ⟨rest, -, hdue, hrest⟩ := replying_of_run h t
  have hopen := ((State.WellFormed.run h).sound t).isOpen (.inr (by rw [hp]; rfl))
  have hall := (delivers_of_run h t).eq_of_isOpen hopen
  rw [hq, List.append_nil] at hall
  have hnone : (s.session t).view.pending env = [] :=
    View.pending_of_reader (congrArg View.reader (view_selecting hp))
  rw [hdue, hrest (by rw [hp]; rfl), hnone, List.append_nil, hall]

end

/-- The `Pong`s and the responses that a session has written are due to the messages in the bytes
that it has read, one after the other; and when it waits for more with an empty channel, there is no
whole frame left in what it has read, and all of the messages have got theirs. -/
theorem session_replies_in_turn {env : Env} {as : List Action} {s : State}
    (h : Run (step env) Any .init as s) (t : ℕ) :
    ∃ (payloads : List (List UInt8)) (rest : List UInt8) (messages : List Message),
      Takes onTryExtractFrame (as.flatMap (Action.bytesOf t)) payloads rest ∧
      payloads.map (fun payload ↦ (fromUtf8 payload).bind env.readMessage) = messages.map some ∧
      replies (s.session t).written <+: messages.filterMap (replyTo env) ∧
      ((s.session t).phase = .selecting .reading → (s.session t).channel.queue = [] →
        onTryExtractFrame rest = .ok none ∧
          replies (s.session t).written = messages.filterMap (replyTo env)) := by
  have hstreamed := Streamed.run h t
  obtain ⟨payloads, rest, htakes, hread, hrest⟩ := hstreamed.taken
  refine ⟨payloads, rest, receivedBy t s.log, htakes, hread, replies_isPrefix h t,
    fun hp hq ↦ ⟨?_, replies_eq h hp hq⟩⟩
  rw [hrest (by rw [hp]; rfl)]
  exact hstreamed.waits hp

def twoReplies : List Action := twoRequests ++ [.recvFrame 0, .write 0 true, .write 0 true]

theorem replies_after_two_requests : ∃ (s : State) (messages : List Message),
    Run (step playEnv) Any .init twoReplies s ∧
    replies (s.session 0).written = [granted, granted] ∧
    [granted, granted] = messages.filterMap (replyTo playEnv) := by
  have hrun : ∃ s, Run (step playEnv) Any .init twoReplies s ∧
      ((s.session 0).phase = .selecting .reading ∧ (s.session 0).channel.queue = [] ∧
        replies (s.session 0).written = [granted, granted]) :=
    Run.exists_of_execute (by decide +kernel)
  obtain ⟨s, hs, hp, hq, hwritten⟩ := hrun
  obtain ⟨payloads, rest, messages, -, -, -, hall⟩ := session_replies_in_turn hs 0
  exact ⟨s, messages, hs, hwritten, hwritten ▸ (hall hp hq).2⟩

end MusicRemote.Server
