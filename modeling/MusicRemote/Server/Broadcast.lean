import MusicRemote.Server.Provenance
import MusicRemote.Server.Registry

namespace MusicRemote.Server

open Foundation Foundation.Transition Protocol Protocol.Json Protocol.Framing

/-- All that the handling of an authorised request has done: it has taken the lock
with some entries in the registry, enqueued one push to each of `ps` and then one
response to its own session, and returned without an error. The players served are
different sessions, not the own one, and no other session of the registry whose
receiver is still open has been left out. -/
def Handled (s : State) (t k : ℕ) (m : Message) (push : PushMediaKeyEvent) : Prop :=
  ∃ (entries : List Entry) (ps : List Player),
    trace s.log t k = .received t k m :: .locked t k entries ::
      (ps.map (pushEvent t k push) ++ [answerEvent t k granted, .returned t k true]) ∧
    (ps.map Player.tx).Nodup ∧ (∀ p ∈ ps, p.tx ≠ t) ∧
    ∀ e ∈ entries, e.2.tx ≠ t → (s.session e.2.tx).channel.isOpen = true → e.2 ∈ ps

/-- Every authorised request that the reader has left is handled, unless its own
session ended first, before the request had any effect. -/
def Complete (env : Env) (s : State) : Prop :=
  ∀ t k m request, .received t k m ∈ s.log → m.name = "SendControlMediaKeyEventRequest" →
    env.readRequest m.data = some request → request.authorizationCode = env.authorizationCode →
    (s.session t).phase.reader.bind Reader.index ≠ some k →
      Handled s t k m (pushOf request) ∨
        (s.session t).phase.reader = none ∧ trace s.log t k = [.received t k m]

/-- Broadcasts never meet a closed receiver, and ids of live sessions are not reused. -/
def Undisturbed (s : State) (a : Action) : Prop := Fresh s a ∧ receiverOpen s a = true

variable {env : Env} {s s' : State} {t k : ℕ} {a : Action} {as : List Action}
  {entries : List Entry} {m : Message} {push : PushMediaKeyEvent}

theorem not_mem_of_locks {es : List Event} (h : locks es = []) : .locked t k entries ∉ es := by
  intro hmem
  rw [locks, List.filterMap_eq_nil_iff] at h
  cases h _ hmem

theorem Turn.locked_mem (h : Turn s a s') (he : .locked t k entries ∈ s'.log) :
    .locked t k entries ∈ s.log ∨
      (s.session t).phase.life = .registered ∧ entries.Perm s.players.entries := by
  cases h with
  | frame _ h =>
    rw [h.log] at he
    exact .inl ((List.mem_append.1 he).resolve_right (not_mem_of_locks h.locks))
  | spawn | start | remove => exact .inl he
  | lock hp hg hperm =>
    obtain he | he := List.mem_append.1 he
    · exact .inl he
    · cases List.mem_singleton.1 he
      exact .inr ⟨by rw [hp]; rfl, hperm⟩
  | release hp hr hr' hs hl =>
    exact .inl ((List.mem_append.1 he).resolve_right (not_mem_of_locks hl))

/-- Under the id of the session that takes the lock stands its own player. -/
theorem own_entry_of_run {ok : State → Action → Prop} (h : Run (step env) ok .init as s)
    (hok : ∀ s a, ok s a → Fresh s a) (hl : .locked t k entries ∈ s.log) :
    ∀ e ∈ entries, e.1 = (s.session t).sessionId → e.2.tx = t := by
  suffices ∀ t k entries, .locked t k entries ∈ s.log →
      ∀ e ∈ entries, e.1 = (s.session t).sessionId → e.2.tx = t from this t k entries hl
  clear hl
  refine h.invariant_of (J := fun s ↦ s.WellFormed ∧ s.Registered ∧ s.board.Addressed)
    (I := fun s ↦ ∀ t k entries, .locked t k entries ∈ s.log →
      ∀ e ∈ entries, e.1 = (s.session t).sessionId → e.2.tx = t) ?_ ?_
    ⟨.initial, .initial, .initial⟩ nofun
  · rintro s a s' ⟨hw, hr, hb⟩ ha hs
    exact ⟨hw.step hs, hr.turn (step_turn hw.sound hs) (hok _ _ ha),
      hb.advance (step_advance true hw hs nofun)⟩
  · rintro s a s' ⟨hw, hr, hb⟩ hi - hs t k entries hmem e he hid
    have hadv := step_advance true hw hs nofun
    obtain hmem | ⟨hlife, hperm⟩ := (step_turn hw.sound hs).locked_mem hmem
    · have hsame := (hadv.identity (hb.locked t k entries hmem).1).2
      exact hi t k entries hmem e he (hid.trans hsame)
    · have hsame := (hadv.identity (u := t) (by simp [State.board, Session.view, hlife])).2
      have hlookup : s.players.lookup e.1 = some e.2 := AList.mem_lookup_iff.2 (hperm.subset he)
      rw [hid.trans hsame] at hlookup
      exact congrArg Player.tx (Option.some.inj (hlookup.symm.trans (hr.own t hlife)))

theorem Stage.head {lossy alive : Bool} {id : UInt32} {r : Option Reader} {tr : List Event}
    (h : Stage env lossy t k id alive r tr) (he : .received t k m ∈ tr) :
    tr.head? = some (.received t k m) := by
  cases h <;> simp_all [pushEvent, answerEvent]

/-- Without disturbance, an authorised request that the reader has left is handled. -/
theorem handled_of_run (h : Run (step env) Undisturbed .init as s)
    (hmem : .received t k m ∈ s.log) (hm : verdict env m = .permit push)
    (hr : (s.session t).phase.reader.bind Reader.index ≠ some k) :
    Handled s t k m push ∨
      (s.session t).phase.reader = none ∧ trace s.log t k = [.received t k m] := by
  have hst : Stage env false t k (s.session t).sessionId (s.session t).phase.reader.isSome _
    (trace s.log t k) := (staged_of_run false h (fun _ _ _ h ↦ h.2) t).stage k
  -- The reader has left the message, so its stage is a final one.
  rw [View.readerAt_eq_none hr] at hst
  have hhead := hst.head (List.mem_filter.2 ⟨hmem, by simp⟩)
  generalize htr : trace s.log t k = tr at hst hhead
  cases hst with
  | unseen => cases hhead
  | @answered m' push' entries hm' =>
    cases hhead
    cases hm.symm.trans hm'
    have hl : .locked t k entries ∈ s.log := by
      apply (trace_sublist s.log t k).subset
      rw [htr]
      exact List.mem_cons_of_mem _ List.mem_cons_self
    have hsnap := ((addressed_of_run h).locked t k entries hl).2
    refine .inl ⟨entries, _, htr, hsnap.nodup_others _, fun p ↦ hsnap.ne_of_mem_others, ?_⟩
    intro e he hne _
    refine mem_others.2 ⟨e, he, fun hid ↦ hne ?_, rfl⟩
    exact own_entry_of_run h (fun _ _ h ↦ h.1) hl e he hid
  | aborted hl => cases hl
  | refused hm' | ponged hm' | ignored hm' | failed hm' =>
    cases hhead
    cases hm.symm.trans hm'
  | cancelled m' ha =>
    cases hhead
    exact .inr ⟨by simpa using ha, rfl⟩

theorem Handled.not_failed (h : Handled s t k m push) : .returned t k false ∉ s.log := by
  obtain ⟨entries, ps, htr, -⟩ := h
  intro hmem
  have hmem : .returned t k false ∈ trace s.log t k := List.mem_filter.2 ⟨hmem, by simp⟩
  rw [htr] at hmem
  simp [pushEvent, answerEvent] at hmem

theorem complete_of_run (h : Run (step env) Undisturbed .init as s) : Complete env s := by
  intro t k m request hmem hn hr ha hreader
  exact handled_of_run h hmem (verdict_permits hn hr ha) hreader

/-- One closed receiver is enough to leave a request half handled. -/
theorem not_complete_of_closed (h : Run (step env) Undisturbed .init as s)
    (hs : step env s (.push t) = some s') (hc : receiverOpen s (.push t) = false) :
    ¬ Complete env s' := by
  intro hcomplete
  simp only [step, act, Option.ite_none_left_eq_some] at hs
  obtain ⟨-, hs⟩ := hs
  split at hs
  case h_2 => cases hs
  rename_i k push rest hp
  cases rest with
  | nil => simp [receiverOpen, hp] at hc
  | cons p rest =>
    simp only [receiverOpen, hp] at hc
    have hsend : s.send p.tx (.push push) (.message t k) = none := by
      rw [State.send, Channel.send_eq_none.2 hc, Option.map_none]
    simp only [broadcast, hsend, Option.some.injEq] at hs
    subst hs
    have hst : Stage env true t k (s.session t).sessionId true
        (some (.pushing k push (p :: rest))) (trace s.log t k) := by
      have hst := (staged_of_run true h (fun h ↦ by cases h) t).stage k
      have hv : s.board.view t = _ := view_selecting hp
      rwa [View.readerAt_eq_self (by rw [hv]; rfl), hv] at hst
    generalize htr : trace s.log t k = tr at hst
    cases hst with
    | @pushing m _ _ _ _ hm _ =>
      obtain ⟨hn, request, hr, ha, rfl⟩ := verdict_eq_permit hm
      have hmem : .received t k m ∈ s.log := by
        apply (trace_sublist s.log t k).subset
        rw [htr]
        exact List.mem_cons_self
      have hreader : ((({ s with guard := none }).finish t k false).session t).phase =
          .selecting .returned := by
        simp [State.finish, State.setPhase, State.update]
      obtain hh | ⟨hnone, -⟩ := hcomplete t k m request (List.mem_append_left _ hmem) hn hr ha
        (by rw [hreader]; simp [Phase.reader, Reader.index])
      · exact hh.not_failed (List.mem_append_right _ List.mem_cons_self)
      · rw [hreader] at hnone
        cases hnone

/-- As long as no broadcast has met a closed receiver, all authorised requests are
handled, and this lasts exactly as long as the receivers are open. -/
theorem complete_iff_receivers_open (h : Run (step env) Undisturbed .init as s) :
    Complete env s ∧ ∀ t s', step env s (.push t) = some s' →
      (Complete env s' ↔ receiverOpen s (.push t) = true) := by
  refine ⟨complete_of_run h, fun t s' hs ↦ ⟨fun hc ↦ ?_, fun ho ↦ ?_⟩⟩
  · by_contra ho
    exact not_complete_of_closed h hs (by simpa using ho) hc
  · have hok : Undisturbed s (.push t) := ⟨trivial, ho⟩
    exact complete_of_run (h.trans (.one hok hs))

theorem two_requests_are_complete : ∃ s, Run (step playEnv) Undisturbed .init twoRequests s ∧
    Complete playEnv s := by
  obtain ⟨s, h, hs, -⟩ := run_twoRequests
  have hrun : Run (step playEnv) Undisturbed .init twoRequests s :=
    State.Numbered.run h .initial .initial (by rw [hs]; decide)
  exact ⟨s, hrun, (complete_iff_receivers_open hrun).1⟩

/-- The second session's reader fails and its select ends, so that its receiver is
gone while it is still registered. The request of the first session stops at it: the
third session, whose receiver is open, is never served, and the first one leaves
with an error and without a response. -/
theorem broadcast_stops_at_a_leaving_session : ∃ s, Run (step playEnv) Fresh .init
    [.spawn, .start 0, .spawn, .start 1, .spawn, .start 2, .readError 1, .endSelect 1,
      .readBuf 0 (frame playText), .recvFrame 0, .recvMessage 0,
      .lock 0 [⟨2, 1, 2⟩, ⟨3, 2, 3⟩, ⟨1, 0, 1⟩], .push 0] s ∧
    ((⟨3, 2, 3⟩ : Entry) ∈ s.players.entries ∧ (s.session 2).channel.isOpen = true ∧
      sentTo 2 s.log = [] ∧ sentTo 0 s.log = []) ∧ ¬ Complete playEnv s := by
  have hrun : ∃ s, Run (step playEnv) Any .init
      [.spawn, .start 0, .spawn, .start 1, .spawn, .start 2, .readError 1, .endSelect 1,
        .readBuf 0 (frame playText), .recvFrame 0, .recvMessage 0,
        .lock 0 [⟨2, 1, 2⟩, ⟨3, 2, 3⟩, ⟨1, 0, 1⟩], .push 0] s ∧
      ((⟨3, 2, 3⟩ : Entry) ∈ s.players.entries ∧ (s.session 2).channel.isOpen = true ∧
        sentTo 2 s.log = [] ∧ sentTo 0 s.log = []) ∧ s.spawned = 3 ∧
      .received 0 0 ⟨"SendControlMediaKeyEventRequest", playData⟩ ∈ s.log ∧
      .returned 0 0 false ∈ s.log ∧ (s.session 0).phase = .selecting .returned :=
    Run.exists_of_execute (by decide +kernel)
  obtain ⟨s, h, hs, hn, hmem, hret, hreader⟩ := hrun
  have hrun := State.Numbered.run h .initial .initial (by rw [hn]; decide)
  refine ⟨s, hrun.mono (fun _ _ h ↦ h.1), hs, fun hc ↦ ?_⟩
  obtain hh | ⟨hnone, -⟩ := hc 0 0 _ ⟨0, 85, "", "x"⟩ hmem rfl (by simp [playEnv]) rfl
    (by rw [hreader]; simp [Phase.reader, Reader.index])
  · exact hh.not_failed hret
  · rw [hreader] at hnone
    cases hnone

end MusicRemote.Server
