import MusicRemote.Foundation.Progress
import MusicRemote.Server.Addressed
import MusicRemote.Server.Lifecycle

namespace MusicRemote.Server

open Foundation Foundation.Transition Protocol Protocol.Json Protocol.Framing

/-- What the tasks of the sessions do by themselves: nothing comes in, and no time passes. -/
def Inner (_ : State) : Action → Prop
  | .start _ | .recvFrame _ | .recvMessage _ | .lock _ _ | .push _ | .respond _ | .write _ _
  | .endSelect _ | .disconnect _ | .remove _ => True
  | .spawn | .readBuf _ _ | .readError _ | .ping _ _ | .shutdown | .tick _ => False

/-- How many steps a reader has before it, with those for what it sends, among `n` sessions. -/
def Reader.cost (n : ℕ) : Reader → ℕ
  | .reading | .returned => 0
  | .unpacking => 1
  | .responding _ => 3
  | .pushing _ _ rest => 4 + 2 * rest.length
  | .locking _ _ => 5 + 2 * n
  | .received _ _ => 6 + 2 * n

def Phase.cost (n : ℕ) : Phase → ℕ
  | .absent | .closed => 0
  | .removing => 1
  | .closing => 2
  | .selecting reader => 3 + reader.cost n
  | .starting => 4

/-- Each byte in the buffer is counted as if it were a frame. -/
def Session.cost (n : ℕ) (x : Session) : ℕ :=
  x.phase.cost n + (6 + 2 * n) * x.buffer.length + x.channel.queue.length

def State.cost (s : State) : ℕ := ∑ t ∈ Finset.range s.spawned, (s.session t).cost s.spawned

section

variable {env : Env} {s s' : State} {t k : ℕ} {a : Action} {x : Session} {r : Reader}

theorem cost_update (ht : t < s.spawned) (x : Session) :
    (s.update t x).cost + (s.session t).cost s.spawned = s.cost + x.cost s.spawned :=
  sum_range_update (Session.cost s.spawned) s.session x ht

theorem cost_setPhase (ht : t < s.spawned) (phase : Phase) :
    (s.setPhase t phase).cost + (s.session t).phase.cost s.spawned =
      s.cost + phase.cost s.spawned := by
  have h := cost_update ht { s.session t with phase := phase }
  dsimp only [Session.cost] at h
  dsimp only [State.setPhase]
  omega

theorem cost_emit (s : State) (e : Event) : (s.emit e).cost = s.cost := rfl

theorem cost_update_of_le (ht : s.spawned ≤ t) (x : Session) : (s.update t x).cost = s.cost := by
  refine Finset.sum_congr rfl fun u hu ↦ ?_
  have hne : u ≠ t := Nat.ne_of_lt (lt_of_lt_of_le (Finset.mem_range.1 hu) ht)
  simp only [State.update, Function.update_of_ne hne]

/-- What is sent to a session has to be written once. -/
theorem cost_send {target : ℕ} {body : Body} {cause : Cause}
    (h : s.send target body cause = some s') : s'.cost ≤ s.cost + 1 := by
  obtain ⟨channel, hsend, rfl⟩ := Option.map_eq_some_iff.1 h
  obtain ⟨-, rfl⟩ := Channel.send_eq_some.1 hsend
  rw [cost_emit]
  by_cases ht : target < s.spawned
  · have hupdate := cost_update ht { s.session target with
      channel := ⟨(s.session target).channel.queue ++ [envelope body cause], true⟩ }
    dsimp only [Session.cost] at hupdate
    rw [List.length_append, List.length_singleton] at hupdate
    dsimp only
    omega
  · rw [cost_update_of_le (Nat.le_of_not_lt ht)]
    exact Nat.le_succ _

theorem send_spawned {target : ℕ} {body : Body} {cause : Cause}
    (h : s.send target body cause = some s') : s'.spawned = s.spawned := by
  obtain ⟨channel, -, rfl⟩ := Option.map_eq_some_iff.1 h
  rfl

theorem cost_finish (ht : t < s.spawned) (ok : Bool) :
    (s.finish t k ok).cost + (s.session t).phase.cost s.spawned ≤ s.cost + 4 := by
  have h := cost_setPhase (s := s.emit (.returned t k ok)) ht
    (.selecting (if ok then .unpacking else .returned))
  rw [cost_emit] at h
  have hcost : (Phase.selecting (if ok then .unpacking else .returned)).cost s.spawned ≤ 4 := by
    cases ok with
    | true => exact le_refl 4
    | false => exact Nat.le_succ 3
  exact h.trans_le (Nat.add_le_add_left hcost _)

theorem cost_answer (ht : t < s.spawned) (body : Body) :
    (s.answer t k body).cost + (s.session t).phase.cost s.spawned ≤ s.cost + 5 := by
  unfold State.answer
  split
  · rename_i s' hs
    have hfinish := cost_finish (s := s') (k := k) (send_spawned hs ▸ ht) true
    rw [send_phase hs, send_spawned hs] at hfinish
    have hsend := cost_send hs
    omega
  · have hfinish := cost_finish (k := k) ht false
    omega

theorem cost_refresh (s : State) (t : ℕ) : (s.refresh t).cost = s.cost := by
  unfold State.refresh
  split
  · by_cases ht : t < s.spawned
    · have hupdate := cost_update ht { s.session t with lastActiveTime := s.clock }
      dsimp only [Session.cost] at hupdate
      dsimp only
      omega
    · exact cost_update_of_le (Nat.le_of_not_lt ht) _
  · rfl

theorem refresh_spawned (s : State) (t : ℕ) : (s.refresh t).spawned = s.spawned := by
  unfold State.refresh
  split <;> rfl

theorem cost_onRecvMessage {m : Message} (ht : t < s.spawned)
    (hp : (s.session t).phase = .selecting (.received k m)) :
    (onRecvMessage env s t k m).cost < s.cost := by
  have ht' : t < (s.refresh t).spawned := (refresh_spawned s t).symm ▸ ht
  have hp' := (refresh_phase s t).trans hp
  have hphase : ((s.refresh t).session t).phase.cost (s.refresh t).spawned =
      9 + 2 * s.spawned := by
    rw [hp', refresh_spawned, Phase.cost, Reader.cost]
    omega
  have hfinish (ok : Bool) : ((s.refresh t).finish t k ok).cost < (s.refresh t).cost := by
    have h := cost_finish (k := k) ht' ok
    omega
  have hanswer (body : Body) : ((s.refresh t).answer t k body).cost < (s.refresh t).cost := by
    have h := cost_answer (k := k) ht' body
    omega
  rw [← cost_refresh s t, onRecvMessage_eq]
  cases verdict env m with
  | fail => exact hfinish false
  | ignore => exact hfinish true
  | pong | refuse => exact hanswer _
  | permit push =>
    have h := cost_setPhase ht' (.selecting (.locking k push))
    rw [hphase, Phase.cost, Reader.cost, refresh_spawned] at h
    dsimp only
    omega

/-- A frame that is taken out of the buffer pays for its handling. -/
theorem cost_onRecvFrame (hs : (s.session t).Sound t) (ht : t < s.spawned)
    (hp : (s.session t).phase = .selecting .unpacking) : (onRecvFrame env s t).cost < s.cost := by
  have hphase : (s.session t).phase.cost s.spawned = 4 := by rw [hp]; rfl
  have hset {r : Reader} (hr : r.cost s.spawned = 0) :
      (s.setPhase t (.selecting r)).cost < s.cost := by
    have h := cost_setPhase ht (.selecting r)
    rw [hphase, Phase.cost, hr] at h
    omega
  unfold onRecvFrame
  dsimp only
  split
  · exact hset rfl
  split
  · exact hset rfl
  · rename_i hpanic
    cases (extract_error hpanic).2.2
  · exact hset rfl
  rename_i bytes buffer hextract
  have hlength : buffer.length + 1 ≤ (s.session t).buffer.length := by
    obtain ⟨heq, -⟩ := extract_frame hextract
    rw [heq, List.length_append, List.length_append]
    have hpos := (extract_frame hextract).2.1
    omega
  have hpaid := Nat.mul_le_mul_left (6 + 2 * s.spawned) hlength
  rw [Nat.mul_add, Nat.mul_one] at hpaid
  split
  · have h := cost_update ht { s.session t with buffer := buffer, phase := .selecting .returned }
    dsimp only [Session.cost] at h
    rw [hphase, Phase.cost, Reader.cost] at h
    omega
  rename_i m _
  split
  · rename_i hnone
    cases hnone.symm.trans (hs.selecting hp).2
  · -- The session goes on with the message.
    have h := cost_update ht { s.session t with
      buffer := buffer
      phase := .selecting (.received (s.session t).received m)
      received := (s.session t).received + 1 }
    dsimp only [Session.cost] at h
    rw [hphase, Phase.cost, Reader.cost] at h
    rw [cost_emit]
    omega

theorem cost_broadcast {push : PushMediaKeyEvent} {rest : List Player} (ht : t < s.spawned)
    (hp : (s.session t).phase = .selecting (.pushing k push rest)) :
    (broadcast s t k push rest).cost < s.cost := by
  have hphase : (s.session t).phase.cost s.spawned = 7 + 2 * rest.length := by
    rw [hp, Phase.cost, Reader.cost]
    omega
  -- The lock does not count.
  have hguard : State.cost { s with guard := none } = s.cost := rfl
  cases rest with
  | nil =>
    have h := cost_setPhase (s := { s with guard := none }) ht (.selecting (.responding k))
    rw [hguard, hphase, Phase.cost, Reader.cost, List.length_nil] at h
    rw [broadcast]
    omega
  | cons p rest =>
    simp only [broadcast]
    split
    · rename_i s' hs
      have h := cost_setPhase (s := s') (send_spawned hs ▸ ht) (.selecting (.pushing k push rest))
      rw [send_phase hs, send_spawned hs, hphase, Phase.cost, Reader.cost, List.length_cons] at h
      have hsend := cost_send hs
      omega
    · have h := cost_finish (s := { s with guard := none }) (k := k) ht false
      rw [hguard, hphase] at h
      omega

theorem cost_pollWrite {ok : Bool} (hs : (s.session t).Sound t) (ht : t < s.spawned)
    (hp : (s.session t).phase = .selecting r) (h : pollWrite s t ok = some s') :
    s'.cost < s.cost := by
  rw [pollWrite_eq hs, Option.map_eq_some_iff] at h
  obtain ⟨⟨e, channel⟩, hrecv, rfl⟩ := h
  have hqueue := congrArg List.length (Channel.recv_eq_some.1 hrecv).1
  rw [List.length_cons] at hqueue
  cases ok with
  | true =>
    have h := cost_update ht { s.session t with
      channel := channel, written := (s.session t).written ++ [e] }
    dsimp only [Session.cost] at h
    simp only [if_true]
    omega
  | false =>
    have h := cost_update ht { s.session t with
      phase := .closing, channel := channel.close, written := (s.session t).written ++ [e] }
    dsimp only [Session.cost, Channel.close] at h
    rw [hp, Phase.cost, Phase.cost, List.length_nil] at h
    simp only [Bool.false_eq_true, if_false, Channel.close]
    omega

/-- A broadcast visits no more sessions than there are. -/
theorem length_entries_le (hw : s.WellFormed) (hg : s.guard = none) {entries : List Entry}
    (he : entries.Perm s.players.entries) : entries.length ≤ s.spawned := by
  have hgrants := grants_of_perm hw hg he
  have hsub : (entries.map (·.2.tx)) ⊆ List.range s.spawned := by
    intro u hu
    obtain ⟨e, hmem, rfl⟩ := List.mem_map.1 hu
    have hspawned := hgrants.spawned e hmem
    rw [List.mem_range]
    exact hw.lt_spawned (by simpa [State.board, Session.view] using hspawned)
  have hle := (List.subperm_of_subset hgrants.nodup_tx hsub).length_le
  rwa [List.length_map, List.length_range] at hle

theorem cost_onSessionStart (hlt : t < s.spawned) (hp : (s.session t).phase = .starting) :
    (onSessionStart s t).cost < s.cost := by
  have hcost := cost_update hlt { s.session t with
    phase := .selecting .reading, player := some ⟨t, (s.session t).sessionId⟩ }
  dsimp only [Session.cost] at hcost
  rw [hp, Phase.cost, Phase.cost, Reader.cost] at hcost
  change (s.update t _).cost < _
  omega

theorem cost_lockPlayers {push : PushMediaKeyEvent} {entries : List Entry} (hw : s.WellFormed)
    (hlt : t < s.spawned) (hp : (s.session t).phase = .selecting (.locking k push))
    (hg : s.guard = none) (he : entries.Perm s.players.entries) :
    (lockPlayers s t k push entries).cost < s.cost := by
  have hothers : (others (s.session t).sessionId entries).length ≤ s.spawned := by
    rw [others, List.length_map]
    exact (List.length_filter_le ..).trans (length_entries_le hw hg he)
  have hcost := cost_setPhase (s := { s with guard := some t }) hlt
    (.selecting (.pushing k push (others (s.session t).sessionId entries)))
  rw [hp] at hcost
  change _ + (3 + (5 + 2 * s.spawned)) = s.cost + (3 + (4 + 2 * _)) at hcost
  change (State.setPhase { s with guard := some t } t _).cost < _
  omega

theorem cost_endSelect {r : Reader} (hlt : t < s.spawned)
    (hp : (s.session t).phase = .selecting r) : (endSelect s t).cost < s.cost := by
  have hcost := cost_update hlt { s.session t with
    phase := .closing, channel := (s.session t).channel.close }
  dsimp only [Session.cost, Channel.close] at hcost
  rw [hp, Phase.cost, Phase.cost, List.length_nil] at hcost
  dsimp only [endSelect, Channel.close]
  omega

theorem cost_onDisconnectSession (hs : (s.session t).Sound t) (hlt : t < s.spawned)
    (hp : (s.session t).phase = .closing) : (onDisconnectSession s t).cost < s.cost := by
  simp only [onDisconnectSession, hs.player (.inr hp)]
  have hcost := cost_update hlt { s.session t with
    phase := .removing, player := none, pingTask := false }
  dsimp only [Session.cost] at hcost
  rw [hp, Phase.cost, Phase.cost] at hcost
  omega

theorem cost_onSessionClose (hlt : t < s.spawned) (hp : (s.session t).phase = .removing) :
    (onSessionClose s t).cost < s.cost := by
  have hcost := cost_setPhase hlt .closed
  rw [hp, Phase.cost, Phase.cost] at hcost
  change (s.setPhase t .closed).cost < _
  omega

theorem cost_step (hw : s.WellFormed) (ha : Inner s a) (h : step env s a = some s') :
    s'.cost < s.cost := by
  -- Whatever takes a step is a session that exists.
  have hlt {u : ℕ} {phase : Phase} (hp : (s.session u).phase = phase) (hne : phase.life ≠ .absent) :
      u < s.spawned := hw.lt_spawned (hp ▸ hne)
  cases step_outcome h with
  | spawn | eof | read | readError | ping | unsent | shutdown | tick => cases ha
  | start hp => exact cost_onSessionStart (hlt hp (by simp [Phase.life])) hp
  | recvFrame hp => exact cost_onRecvFrame (hw.sound _) (hlt hp (by simp [Phase.life])) hp
  | recvMessage hp => exact cost_onRecvMessage (hlt hp (by simp [Phase.life])) hp
  | lock hp hg hperm => exact cost_lockPlayers hw (hlt hp (by simp [Phase.life])) hp hg hperm
  | push hp => exact cost_broadcast (hlt hp (by simp [Phase.life])) hp
  | @respond t k hp =>
    have hcost := cost_answer (k := k) (hlt hp (by simp [Phase.life])) (.response ⟨true, ""⟩)
    rw [hp, Phase.cost, Reader.cost] at hcost
    omega
  | write hp _ hwrite =>
    exact cost_pollWrite (hw.sound _) (hlt hp (by simp [Phase.life])) hp hwrite
  | endSelect hp => exact cost_endSelect (hlt hp (by simp [Phase.life])) hp
  | disconnect hp =>
    exact cost_onDisconnectSession (hw.sound _) (hlt hp (by simp [Phase.life])) hp
  | remove hp => exact cost_onSessionClose (hlt hp (by simp [Phase.life])) hp

/-- After the shutdown, a session that is not closed can go on, or waits for one that can. -/
theorem closed_of_stuck (hw : s.WellFormed) (hn : s.panicked = false) (hs : s.shutdown = true)
    (hstuck : Stuck (step env) Inner s) (hlife : (s.session t).phase.life ≠ .absent) :
    (s.session t).phase = .closed := by
  have hfree : s.guard = none := by
    cases hg : s.guard with
    | none => rfl
    | some u =>
      -- The session that holds the lock goes on with its broadcast.
      obtain ⟨k, push, rest, hp⟩ := Phase.exists_pushing ((hw.guard u).2 hg)
      have hpush := hstuck (.push u) trivial
      simp [step, act, hn, hp] at hpush
  cases hp : (s.session t).phase with
  | absent => exact absurd (by rw [hp]; rfl) hlife
  | starting =>
    have hstart := hstuck (.start t) trivial
    simp [step, act, hn, hp, hfree] at hstart
  | selecting r =>
    have hend := hstuck (.endSelect t) trivial
    cases r with
    | reading | received | locking | returned =>
      simp [step, act, hn, hp, hs, Reader.awaits] at hend
    | unpacking =>
      have hframe := hstuck (.recvFrame t) trivial
      simp [step, act, hn, hp] at hframe
    | pushing =>
      have hpush := hstuck (.push t) trivial
      simp [step, act, hn, hp] at hpush
    | responding =>
      have hrespond := hstuck (.respond t) trivial
      simp [step, act, hn, hp] at hrespond
  | closing =>
    have hdisconnect := hstuck (.disconnect t) trivial
    simp [step, act, hn, hp] at hdisconnect
  | removing =>
    have hremove := hstuck (.remove t) trivial
    simp [step, act, hn, hp, hfree] at hremove
  | closed => rfl

/-- The registry has no entries without sessions. -/
theorem players_of_closed (hw : s.WellFormed)
    (h : ∀ t, (s.session t).phase.life ≠ .absent → (s.session t).phase = .closed) :
    s.players = ∅ := by
  refine AList.ext (List.eq_nil_iff_forall_not_mem.2 fun e he ↦ ?_)
  have hlife := (hw.players e.1 e.2 (AList.mem_lookup_iff.2 he)).2.1
  have hclosed := h e.2.tx (by simp [hlife])
  rw [hclosed] at hlife
  cases hlife

end

end MusicRemote.Server
