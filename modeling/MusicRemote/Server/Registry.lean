import MusicRemote.Server.WellFormed

namespace MusicRemote.Server

open Foundation Foundation.Transition

def Life.isLive : Life → Bool
  | .starting | .registered => true
  | .absent | .closed => false

/-- No session is given the id of one that is still alive. -/
def Fresh (s : State) : Action → Prop
  | .spawn => ∀ t, (s.session t).phase.life.isLive = true →
      (s.session t).sessionId ≠ (createSessionId s.sessionCounter).1
  | _ => True

structure State.Registered (s : State) : Prop where
  distinct : ∀ t u, (s.session t).phase.life.isLive = true →
    (s.session u).phase.life.isLive = true →
    (s.session t).sessionId = (s.session u).sessionId → t = u
  own : ∀ t, (s.session t).phase.life = .registered →
    s.players.lookup (s.session t).sessionId = some ⟨t, (s.session t).sessionId⟩

variable {env : Env} {s s' : State} {t : ℕ} {x : Session} {a : Action} {as : List Action}

namespace State.Registered

theorem initial : State.init.Registered := by
  refine ⟨fun t u ht ↦ ?_, fun t ht ↦ ?_⟩
  · cases ht
  · cases ht

/-- The life of every session stays what it is. -/
theorem of_life (hr : s.Registered) (hp : s'.players = s.players)
    (hi : ∀ t, (s'.session t).sessionId = (s.session t).sessionId)
    (hl : ∀ t, (s'.session t).phase.life = (s.session t).phase.life) : s'.Registered := by
  refine ⟨fun t u ↦ ?_, fun t ↦ ?_⟩
  · rw [hi, hi, hl, hl]
    exact hr.distinct t u
  · rw [hi, hl, hp]
    exact hr.own t

theorem of_setReader {r r' : Reader} (hr : s.Registered) (hp : (s.session t).phase = .selecting r)
    (hs : s'.session = Function.update s.session t { s.session t with phase := .selecting r' })
    (hq : s'.players = s.players) : s'.Registered := by
  refine hr.of_life hq (fun u ↦ ?_) (fun u ↦ ?_) <;> by_cases hu : u = t
  · rw [hs, hu, Function.update_self]
  · rw [hs, Function.update_of_ne hu]
  · rw [hs, hu, Function.update_self, hp]
    rfl
  · rw [hs, Function.update_of_ne hu]

theorem spawn (hr : s.Registered) (hf : Fresh s .spawn) : (spawn s).Registered := by
  have hs (u : ℕ) : u ≠ s.spawned → (Server.spawn s).session u = s.session u := fun hu ↦
    Function.update_of_ne hu ..
  have hn : (Server.spawn s).session s.spawned = _ := Function.update_self ..
  refine ⟨fun t u ht hu he ↦ ?_, fun t ht ↦ ?_⟩
  · by_cases hts : t = s.spawned <;> by_cases hus : u = s.spawned
    · rw [hts, hus]
    · rw [hs u hus] at hu he
      rw [hts, hn] at he
      exact absurd he.symm (hf u hu)
    · rw [hs t hts] at ht he
      rw [hus, hn] at he
      exact absurd he (hf t ht)
    · rw [hs t hts] at ht he
      rw [hs u hus] at hu he
      exact hr.distinct t u ht hu he
  · by_cases hts : t = s.spawned
    · rw [hts, hn] at ht
      cases ht
    · rw [hs t hts] at ht ⊢
      exact hr.own t ht

theorem start (hr : s.Registered) (hp : (s.session t).phase = .starting) :
    (onSessionStart s t).Registered := by
  have hs (u : ℕ) : u ≠ t → (onSessionStart s t).session u = s.session u := fun hu ↦
    Function.update_of_ne hu ..
  have hn : (onSessionStart s t).session t = _ := Function.update_self ..
  have hi (u : ℕ) : ((onSessionStart s t).session u).sessionId = (s.session u).sessionId := by
    by_cases hu : u = t
    · rw [hu, hn]
    · rw [hs u hu]
  have hl (u : ℕ) : ((onSessionStart s t).session u).phase.life.isLive =
      (s.session u).phase.life.isLive := by
    by_cases hu : u = t
    · rw [hu, hn, hp]
      rfl
    · rw [hs u hu]
  refine ⟨fun u v ↦ ?_, fun u hu ↦ ?_⟩
  · rw [hi, hi, hl, hl]
    exact hr.distinct u v
  · rw [hi]
    change (s.players.insert _ _).lookup _ = _
    by_cases hut : u = t
    · rw [hut, AList.lookup_insert]
    · rw [hs u hut] at hu
      rw [AList.lookup_insert_ne]
      · exact hr.own u hu
      · intro he
        exact hut (hr.distinct u t (by rw [hu]; rfl) (by rw [hp]; rfl) he)

theorem remove (hr : s.Registered) (hp : (s.session t).phase = .removing) :
    (onSessionClose s t).Registered := by
  have hs (u : ℕ) : u ≠ t → (onSessionClose s t).session u = s.session u := fun hu ↦
    Function.update_of_ne hu ..
  have hn : (onSessionClose s t).session t = _ := Function.update_self ..
  refine ⟨fun u v hu hv he ↦ ?_, fun u hu ↦ ?_⟩
  · have hut : u ≠ t := by
      rintro rfl
      rw [hn] at hu
      cases hu
    have hvt : v ≠ t := by
      rintro rfl
      rw [hn] at hv
      cases hv
    rw [hs u hut] at hu he
    rw [hs v hvt] at hv he
    exact hr.distinct u v hu hv he
  · have hut : u ≠ t := by
      rintro rfl
      rw [hn] at hu
      cases hu
    rw [hs u hut] at hu ⊢
    change (s.players.erase _).lookup _ = _
    rw [AList.lookup_erase_ne]
    · exact hr.own u hu
    · intro he
      exact hut (hr.distinct u t (by rw [hu]; rfl) (by rw [hp]; rfl) he)

theorem turn (hr : s.Registered) (h : Turn s a s') (hf : Fresh s a) : s'.Registered := by
  cases h with
  | frame _ h => exact hr.of_life h.players (fun t ↦ (h.kept t).sessionId) (fun t ↦ (h.kept t).life)
  | spawn => exact hr.spawn hf
  | start hp hg => exact hr.start hp
  | lock hp hg => exact hr.of_setReader hp rfl rfl
  | release hp => exact hr.of_setReader hp rfl rfl
  | remove hp hg => exact hr.remove hp

theorem run {ok : State → Action → Prop} (h : Run (step env) ok .init as s)
    (hok : ∀ s a, ok s a → Fresh s a) : s.Registered :=
  h.invariant_of (J := State.WellFormed) (fun _ _ _ hw _ hs ↦ hw.step hs)
    (fun _ _ _ hw hr ha hs ↦ hr.turn (step_turn hw.sound hs) (hok _ _ ha)) .initial .initial

end State.Registered

/-- Until the counter wraps, the sessions are numbered from 1. -/
structure State.Numbered (s : State) : Prop where
  sessionCounter : s.sessionCounter.toNat = if s.spawned = 0 then 0 else s.spawned + 1
  sessionId : ∀ t, (s.session t).phase.life ≠ .absent → (s.session t).sessionId.toNat = t + 1

namespace State.Numbered

theorem initial : State.init.Numbered := ⟨rfl, fun _ h ↦ absurd rfl h⟩

theorem createSessionId (hn : s.Numbered) (hlt : s.spawned + 2 < 2 ^ 32) :
    (createSessionId s.sessionCounter).1.toNat = s.spawned + 1 ∧
      (createSessionId s.sessionCounter).2.toNat = s.spawned + 2 := by
  have hc := hn.sessionCounter
  unfold Server.createSessionId
  split
  · rename_i hpos
    have hpos : 0 < s.sessionCounter.toNat := UInt32.lt_iff_toNat_lt.1 hpos
    rw [if_neg (by intro h; simp [h] at hc; omega)] at hc
    refine ⟨hc, ?_⟩
    rw [UInt32.toNat_add, hc]
    exact Nat.mod_eq_of_lt hlt
  · rename_i hpos
    have hz : s.sessionCounter = 0 := by simpa using hpos
    have hs : s.spawned = 0 := by
      by_contra h
      rw [hz, if_neg h] at hc
      cases hc
    rw [hz, hs]
    decide

theorem fresh (hn : s.Numbered) (hw : s.WellFormed) (hlt : s.spawned + 2 < 2 ^ 32) :
    Fresh s .spawn := by
  intro t ht he
  have ha : (s.session t).phase.life ≠ .absent := by
    intro h
    rw [h] at ht
    cases ht
  have hid := hn.sessionId t ha
  have hts := hw.lt_spawned ha
  rw [he, (hn.createSessionId hlt).1] at hid
  omega

theorem turn (hn : s.Numbered) (h : Turn s a s')
    (hlt : s'.spawned + 1 < 2 ^ 32) : s'.Numbered := by
  have hset {t : ℕ} {x : Session} (hi : x.sessionId = (s.session t).sessionId)
      (hl : (s.session t).phase.life ≠ .absent) (u : ℕ)
      (hu : (Function.update s.session t x u).phase.life ≠ .absent) :
      (Function.update s.session t x u).sessionId.toNat = u + 1 := by
    by_cases hut : u = t
    · subst hut
      rw [Function.update_self, hi]
      exact hn.sessionId u hl
    · rw [Function.update_of_ne hut] at hu ⊢
      exact hn.sessionId u hu
  cases h with
  | frame _ h =>
    refine ⟨by rw [h.sessionCounter, h.spawned]; exact hn.sessionCounter, fun t ht ↦ ?_⟩
    rw [(h.kept t).sessionId]
    exact hn.sessionId t ((h.kept t).life ▸ ht)
  | spawn =>
    have hlt : s.spawned + 2 < 2 ^ 32 := hlt
    obtain ⟨hid, hc⟩ := hn.createSessionId hlt
    refine ⟨hc, fun t ht ↦ ?_⟩
    change (Function.update s.session s.spawned _ t).sessionId.toNat = _
    by_cases hts : t = s.spawned
    · rw [hts, Function.update_self]
      exact hid
    · change (Function.update s.session s.spawned _ t).phase.life ≠ _ at ht
      rw [Function.update_of_ne hts] at ht ⊢
      exact hn.sessionId t ht
  | start hp => exact ⟨hn.sessionCounter, hset rfl (by rw [hp]; decide)⟩
  | lock hp => exact ⟨hn.sessionCounter, hset rfl (by rw [hp]; simp [Phase.life])⟩
  | release hp => exact ⟨hn.sessionCounter, hset rfl (by rw [hp]; simp [Phase.life])⟩
  | remove hp => exact ⟨hn.sessionCounter, hset rfl (by rw [hp]; decide)⟩

theorem spawned_le (h : Turn s a s') :
    s.spawned ≤ s'.spawned ∧ (a = .spawn → s'.spawned = s.spawned + 1) := by
  cases h with
  | frame ha h =>
    refine ⟨h.spawned.ge, ?_⟩
    rintro rfl
    cases ha
  | spawn => exact ⟨Nat.le_succ _, fun _ ↦ rfl⟩
  | start | lock | release | remove => exact ⟨Nat.le_refl _, nofun⟩

/-- A run of fewer than `2 ^ 32 - 1` sessions never reuses an id. -/
theorem run {ok : State → Action → Prop} (h : Run (step env) ok s as s') (hw : s.WellFormed)
    (hn : s.Numbered) (hlt : s'.spawned + 1 < 2 ^ 32) :
    Run (step env) (fun s a ↦ Fresh s a ∧ ok s a) s as s' := by
  induction h with
  | nil s => exact .nil s
  | @cons s t u a as ha hs h ih =>
    have hturn := step_turn hw.sound hs
    have hle : t.spawned ≤ u.spawned := by
      refine (h.invariant (I := fun x ↦ x.WellFormed ∧ t.spawned ≤ x.spawned) ?_
        ⟨hw.turn hturn, Nat.le_refl _⟩).2
      intro x a y hx _ hy
      exact ⟨hx.1.step hy, hx.2.trans (spawned_le (step_turn hx.1.sound hy)).1⟩
    have hfresh : Fresh s a := by
      cases a with
      | spawn =>
        have := (spawned_le hturn).2 rfl
        exact hn.fresh hw (by omega)
      | _ => trivial
    exact .cons ⟨hfresh, ha⟩ hs (ih (hw.turn hturn) (hn.turn hturn (by omega)) hlt)

end State.Numbered

structure State.Lived (as : List Action) (s : State) : Prop where
  started : ∀ t, Action.start t ∈ as ↔
    (s.session t).phase.life = .registered ∨ (s.session t).phase.life = .closed
  removed : ∀ t, Action.remove t ∈ as ↔ (s.session t).phase.life = .closed

namespace State.Lived

theorem initial : Lived [] State.init := by
  refine ⟨fun t ↦ ?_, fun t ↦ ?_⟩ <;> simp [State.init, Session.absent, Phase.life]

theorem of_life (h : Lived as s) (ha : ∀ t, a ≠ .start t ∧ a ≠ .remove t)
    (hl : ∀ t c, c ≠ .starting → c ≠ .absent →
      ((s'.session t).phase.life = c ↔ (s.session t).phase.life = c)) : Lived (as ++ [a]) s' := by
  refine ⟨fun t ↦ ?_, fun t ↦ ?_⟩
  · simpa [hl, (ha t).1.symm] using h.started t
  · simpa [hl, (ha t).2.symm] using h.removed t

theorem start (h : Lived as s) (hp : (s.session t).phase = .starting) :
    Lived (as ++ [.start t]) (onSessionStart s t) := by
  have hn : ((onSessionStart s t).session t).phase.life = .registered := by
    simp [onSessionStart, State.update, Phase.life]
  have hs (u : ℕ) (hu : u ≠ t) : (onSessionStart s t).session u = s.session u :=
    Function.update_of_ne hu ..
  refine ⟨fun u ↦ ?_, fun u ↦ ?_⟩ <;> by_cases hu : u = t
  · simp [hu, hn]
  · simpa [hs u hu, hu] using h.started u
  · have := h.removed t
    simp only [hp, Phase.life, reduceCtorEq, iff_false] at this
    simpa [hu, hn] using this
  · simpa [hs u hu, hu] using h.removed u

theorem remove (h : Lived as s) (hp : (s.session t).phase = .removing) :
    Lived (as ++ [.remove t]) (onSessionClose s t) := by
  have hn : ((onSessionClose s t).session t).phase.life = .closed := by
    simp [onSessionClose, State.setPhase, State.update, Phase.life]
  have hs (u : ℕ) (hu : u ≠ t) : (onSessionClose s t).session u = s.session u :=
    Function.update_of_ne hu ..
  refine ⟨fun u ↦ ?_, fun u ↦ ?_⟩ <;> by_cases hu : u = t
  · have := h.started t
    simp only [hp, Phase.life, true_or, iff_true] at this
    simpa [hu, hn] using this
  · simpa [hs u hu, hu] using h.started u
  · simp [hu, hn]
  · simpa [hs u hu, hu] using h.removed u

theorem turn (h : Lived as s) (hw : s.WellFormed) (ht : Turn s a s') : Lived (as ++ [a]) s' := by
  have hset {t : ℕ} {r r' : Reader} (hp : (s.session t).phase = .selecting r) (u : ℕ) :
      (Function.update s.session t { s.session t with phase := .selecting r' } u).phase.life =
        (s.session u).phase.life := by
    by_cases hu : u = t
    · rw [hu, Function.update_self, hp]
      rfl
    · rw [Function.update_of_ne hu]
  cases ht with
  | frame ha hf =>
    refine h.of_life (fun t ↦ ⟨?_, ?_⟩) (fun t c _ _ ↦ by rw [(hf.kept t).life])
    · rintro rfl
      cases ha
    · rintro rfl
      cases ha
  | spawn =>
    refine h.of_life (fun t ↦ by simp) (fun t c hc hc' ↦ ?_)
    by_cases ht : t = s.spawned
    · have ha := hw.absent t ht.ge
      rw [ha, ht]
      simp [Server.spawn, State.update, Phase.life, hc.symm, hc'.symm]
    · rw [show (Server.spawn s).session t = s.session t from Function.update_of_ne ht ..]
  | start hp hg => exact h.start hp
  | lock hp hg =>
    exact h.of_life (fun t ↦ by simp) (fun t c _ _ ↦ by rw [← hset hp t]; rfl)
  | release hp =>
    exact h.of_life (fun t ↦ by simp) (fun t c _ _ ↦ by rw [← hset hp t]; rfl)
  | remove hp hg => exact h.remove hp

theorem run {ok : State → Action → Prop} (h : Run (step env) ok .init as s) : Lived as s :=
  (h.history (I := fun as s ↦ s.WellFormed ∧ Lived as s)
    (fun _ _ _ _ hi _ hs ↦ ⟨hi.1.step hs, hi.2.turn hi.1 (step_turn hi.1.sound hs)⟩)
    ⟨.initial, initial⟩).2

end State.Lived

/-- At every moment the registry holds the players of the sessions that were
inserted and not yet removed, each once and under its own id. -/
theorem players_are_the_started_sessions (h : Run (step env) Fresh .init as s) :
    (∀ e : Entry, e ∈ s.players.entries ↔ ∃ t, Action.start t ∈ as ∧ Action.remove t ∉ as ∧
      e = ⟨(s.session t).sessionId, t, (s.session t).sessionId⟩) ∧
    s.players.entries.Nodup ∧
    (∀ t u, Action.start t ∈ as → Action.remove t ∉ as → Action.start u ∈ as →
      Action.remove u ∉ as → (s.session t).sessionId = (s.session u).sessionId → t = u) ∧
    ((∀ t, Action.start t ∈ as → Action.remove t ∈ as) → s.players.entries = []) := by
  have hw := State.WellFormed.run h
  have hr := State.Registered.run h (fun _ _ ↦ id)
  have hl := State.Lived.run h
  have hreg (t : ℕ) : Action.start t ∈ as ∧ Action.remove t ∉ as ↔
      (s.session t).phase.life = .registered := by
    rw [hl.started, hl.removed]
    cases (s.session t).phase.life <;> simp
  have hmem (e : Entry) : e ∈ s.players.entries ↔ ∃ t, Action.start t ∈ as ∧ Action.remove t ∉ as ∧
      e = ⟨(s.session t).sessionId, t, (s.session t).sessionId⟩ := by
    obtain ⟨id, p⟩ := e
    rw [← AList.mem_lookup_iff, Option.mem_def]
    constructor
    · intro he
      obtain ⟨hp, hlife, hid⟩ := hw.players id p he
      obtain ⟨hs, hn⟩ := (hreg p.tx).2 hlife
      refine ⟨p.tx, hs, hn, ?_⟩
      rw [hid, ← hp]
    · rintro ⟨t, hs, hn, he⟩
      cases he
      exact hr.own t ((hreg t).1 ⟨hs, hn⟩)
  refine ⟨hmem, s.players.nodupKeys.nodup, ?_, ?_⟩
  · intro t u hts htn hus hun he
    refine hr.distinct t u ?_ ?_ he
    · rw [(hreg t).1 ⟨hts, htn⟩]
      rfl
    · rw [(hreg u).1 ⟨hus, hun⟩]
      rfl
  · intro hall
    rw [List.eq_nil_iff_forall_not_mem]
    intro e he
    obtain ⟨t, hs, hn, -⟩ := (hmem e).1 he
    exact hn (hall t hs)

theorem players_after_a_read_error : ∃ env s, Run (step env) Fresh .init
    [.spawn, .start 0, .spawn, .start 1, .readError 0, .endSelect 0, .disconnect 0, .remove 0] s ∧
      (⟨2, 1, 2⟩ : Entry) ∈ s.players.entries := by
  let env : Env := ⟨"", fun _ ↦ none, fun _ ↦ none, fun _ ↦ none⟩
  have h₁ : Run (step env) Fresh .init [.spawn, .start 0] (onSessionStart (spawn .init) 0) :=
    .cons (fun t ht ↦ by cases ht) rfl (.one trivial rfl)
  have hf : Fresh (onSessionStart (spawn .init) 0) .spawn := by
    intro t ht
    cases t with
    | zero => decide
    | succ t => cases ht
  have h₂ : Run (step env) Fresh (onSessionStart (spawn .init) 0)
      [.spawn, .start 1, .readError 0, .endSelect 0, .disconnect 0, .remove 0] _ :=
    .cons hf rfl (.cons trivial rfl (.cons trivial rfl (.cons trivial rfl (.cons trivial rfl
      (.one trivial rfl)))))
  have h := h₁.trans h₂
  refine ⟨env, _, h, ((players_are_the_started_sessions h).1 _).2 ⟨1, ?_, ?_, rfl⟩⟩
  · simp
  · simp

end MusicRemote.Server
