import MusicRemote.Foundation.Transition
import MusicRemote.Server.Frame

namespace MusicRemote.Server

open Foundation Foundation.Transition Protocol Function

/-- What holds in every state, whatever ids the sessions are given. -/
structure State.WellFormed (s : State) : Prop where
  sound : ∀ t, (s.session t).Sound t
  absent : ∀ t, s.spawned ≤ t → (s.session t).phase.life = .absent
  guard : ∀ t, (s.session t).phase.holdsLock = true ↔ s.guard = some t
  players : ∀ id p, s.players.lookup id = some p → p.sessionId = id ∧
    (s.session p.tx).phase.life = .registered ∧ (s.session p.tx).sessionId = id

variable {env : Env} {s s' : State} {t u : ℕ} {x : Session} {a : Action}

theorem Phase.reader_of_life {phase : Phase} (h : phase.life ≠ .registered) :
    phase.reader = none := by
  cases phase with
  | selecting => exact absurd rfl h
  | _ => rfl

theorem Phase.holdsLock_of_life {phase : Phase} (h : phase.life ≠ .registered) :
    phase.holdsLock = false := by
  rw [holdsLock, reader_of_life h]
  rfl

namespace State.WellFormed

theorem initial : State.init.WellFormed := by
  refine ⟨fun t ↦ ⟨fun _ ↦ rfl, fun _ ↦ rfl, ?_, ?_, fun h ↦ by cases h⟩, fun _ _ ↦ rfl, ?_, ?_⟩
  · simp [State.init, Session.absent, Phase.reader]
  · simp [State.init, Session.absent, Channel.new]
  · simp [State.init, Session.absent, Phase.holdsLock, Phase.reader]
  · simp [State.init]

theorem frame {es : List Event} (hw : s.WellFormed) (h : Frame s es s') : s'.WellFormed := by
  refine ⟨fun t ↦ (h.kept t).sound (hw.sound t), ?_, ?_, ?_⟩
  · intro t ht
    rw [(h.kept t).life]
    exact hw.absent t (h.spawned ▸ ht)
  · intro t
    rw [(h.kept t).holdsLock, h.guard]
    exact hw.guard t
  · intro id p hp
    rw [(h.kept p.tx).life, (h.kept p.tx).sessionId]
    exact hw.players id p (h.players ▸ hp)

theorem lt_spawned (hw : s.WellFormed) (h : (s.session t).phase.life ≠ .absent) :
    t < s.spawned := by
  by_contra ht
  exact h (hw.absent t (Nat.le_of_not_lt ht))

/-- The rule for a step that gives one session a new place in its life. -/
theorem change (hw : s.WellFormed) (hs : s'.session = Function.update s.session t x)
    (hx : x.Sound t) (ht : t < s'.spawned) (hn : s.spawned ≤ s'.spawned)
    (hg : ∀ u, (if u = t then x.phase.holdsLock else (s.session u).phase.holdsLock) = true ↔
      s'.guard = some u)
    (hp : ∀ id p, s'.players.lookup id = some p →
      p = ⟨t, id⟩ ∧ x.phase.life = .registered ∧ x.sessionId = id ∨
        p.tx ≠ t ∧ s.players.lookup id = some p) : s'.WellFormed := by
  replace hs (u : ℕ) : s'.session u = if u = t then x else s.session u := by
    rw [hs, Function.update_apply]
  refine ⟨?_, ?_, ?_, ?_⟩
  · intro u
    rw [hs]
    split
    · subst u
      exact hx
    · exact hw.sound u
  · intro u hu
    rw [hs, if_neg (by omega)]
    exact hw.absent u (hn.trans hu)
  · intro u
    rw [← hg, hs]
    split <;> rfl
  · intro id p hi
    obtain ⟨rfl, hr, hi⟩ | ⟨hne, hi⟩ := hp id p hi
    · rw [hs, if_pos rfl]
      exact ⟨rfl, hr, hi⟩
    · rw [hs, if_neg hne]
      exact hw.players id p hi

theorem guard_eq (hw : s.WellFormed) (h : x.phase.holdsLock = (s.session t).phase.holdsLock)
    (u : ℕ) :
    (if u = t then x.phase.holdsLock else (s.session u).phase.holdsLock) = true ↔
      s.guard = some u := by
  rw [← hw.guard]
  split
  · rw [h, ‹u = t›]
  · rfl

theorem spawn (hw : s.WellFormed) : (spawn s).WellFormed := by
  have hl := hw.absent s.spawned (Nat.le_refl _)
  refine hw.change rfl ⟨fun _ ↦ rfl, fun _ ↦ rfl, ?_, ?_, by simp [Phase.life]⟩
    (Nat.lt_succ_self _)
    (Nat.le_succ _) (hw.guard_eq ?_) ?_
  · simp [Phase.reader]
  · simp [Session.absent, Channel.new]
  · exact (Phase.holdsLock_of_life (by rw [hl]; decide)).symm
  · intro id p hp
    refine .inr ⟨?_, hp⟩
    intro he
    have hr := (hw.players id p hp).2.1
    rw [he, hl] at hr
    cases hr

theorem start (hw : s.WellFormed) (hp : (s.session t).phase = .starting) :
    (onSessionStart s t).WellFormed := by
  have ht := hw.lt_spawned (t := t) (by rw [hp]; decide)
  have hx := hw.sound t
  refine hw.change rfl
    ⟨by simp [Phase.life], fun _ ↦ hx.isOpen (.inl hp), fun _ ↦ rfl, hx.queue,
      by simp [Phase.life]⟩ ht
    (Nat.le_refl _) (hw.guard_eq ?_) ?_
  · rw [hp]
    rfl
  · intro id p hi
    change (s.players.insert _ _).lookup id = some p at hi
    by_cases he : id = (s.session t).sessionId
    · subst he
      rw [AList.lookup_insert] at hi
      exact .inl ⟨(Option.some.inj hi).symm, rfl, rfl⟩
    · rw [AList.lookup_insert_ne he] at hi
      refine .inr ⟨?_, hi⟩
      rintro rfl
      exact he (hw.players id p hi).2.2.symm

/-- Within its select, a session takes or drops the lock. -/
theorem setLock {r r' : Reader} (hw : s.WellFormed) (hp : (s.session t).phase = .selecting r)
    (hs : s'.session = Function.update s.session t { s.session t with phase := .selecting r' })
    (hg : ∀ u, (if u = t then r'.holdsLock else (s.session u).phase.holdsLock) = true ↔
      s'.guard = some u)
    (hn : s'.spawned = s.spawned) (hq : s'.players = s.players) : s'.WellFormed := by
  have ht := hw.lt_spawned (t := t) (by rw [hp]; simp [Phase.life])
  obtain ⟨ho, hq'⟩ := (hw.sound t).selecting hp
  refine hw.change hs ⟨by simp [Phase.life], fun _ ↦ ho, fun _ ↦ hq', (hw.sound t).queue,
      by simp [Phase.life]⟩
    (hn ▸ ht) hn.ge hg ?_
  intro id p hi
  rw [hq] at hi
  obtain ⟨he, -, hi'⟩ := hw.players id p hi
  by_cases hne : p.tx = t
  · refine .inl ⟨?_, rfl, ?_⟩
    · rw [← hne, ← he]
    · rw [← hi', hne]
  · exact .inr ⟨hne, hi⟩

theorem lock {k : ℕ} {push : PushMediaKeyEvent} (hw : s.WellFormed)
    (hp : (s.session t).phase = .selecting (.locking k push)) (hg : s.guard = none)
    (entries : List Entry) : (lockPlayers s t k push entries).WellFormed := by
  refine hw.setLock hp rfl ?_ rfl rfl
  intro u
  have hu : (s.session u).phase.holdsLock = true ↔ False := by simp [hw.guard, hg]
  change _ ↔ some t = some u
  split
  · simp [‹u = t›, Reader.holdsLock]
  · simpa [hu] using Ne.symm ‹_›

theorem release {r r' : Reader} (hw : s.WellFormed) (hp : (s.session t).phase = .selecting r)
    (hr : r.holdsLock = true) (hr' : r'.holdsLock = false) (log : List Event) :
    (({ s with guard := none, log := log }).setPhase t (.selecting r')).WellFormed := by
  refine hw.setLock hp rfl ?_ rfl rfl
  intro u
  have ht : s.guard = some t := (hw.guard t).1 (by rw [hp]; exact hr)
  change _ ↔ none = some u
  split
  · simp [hr']
  · simpa [hw.guard, ht] using Ne.symm ‹_›

theorem remove (hw : s.WellFormed) (hp : (s.session t).phase = .removing) :
    (onSessionClose s t).WellFormed := by
  have ht := hw.lt_spawned (t := t) (by rw [hp]; decide)
  refine hw.change rfl
    ⟨by simp [Phase.life], by simp [Phase.reader], by simp [Phase.reader], (hw.sound t).queue,
      by simp [Phase.life]⟩ ht
    (Nat.le_refl _) (hw.guard_eq ?_) ?_
  · rw [hp]
    rfl
  · intro id p hi
    change (s.players.erase _).lookup id = some p at hi
    have he : id ≠ (s.session t).sessionId := by
      rintro rfl
      rw [AList.lookup_erase] at hi
      cases hi
    rw [AList.lookup_erase_ne he] at hi
    refine .inr ⟨?_, hi⟩
    rintro rfl
    exact he (hw.players id p hi).2.2.symm

theorem turn (hw : s.WellFormed) (h : Turn s a s') : s'.WellFormed := by
  cases h with
  | frame _ h => exact hw.frame h
  | spawn => exact hw.spawn
  | start hp hg => exact hw.start hp
  | lock hp hg => exact hw.lock hp hg _
  | release hp hr hr' => exact hw.release hp hr hr' _
  | remove hp hg => exact hw.remove hp

theorem step (hw : s.WellFormed) (h : step env s a = some s') : s'.WellFormed :=
  hw.turn (step_turn hw.sound h)

theorem run {ok : State → Action → Prop} {as : List Action}
    (h : Run (Server.step env) ok .init as s) : s.WellFormed :=
  h.invariant (fun _ _ _ hw _ hs ↦ hw.step hs) initial

end State.WellFormed

end MusicRemote.Server
