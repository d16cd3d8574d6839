import Mathlib.Data.List.Nodup
import MusicRemote.Server.Refinement

namespace MusicRemote.Server

open Foundation Foundation.Transition Protocol Protocol.Json Protocol.Framing

/-- Whatever a broadcast iterates over was in the registry when it took the lock,
and messages only go to sessions that exist. -/
structure Board.Addressed (b : Board) : Prop where
  reader : ∀ t r, (b.view t).reader = some r → (b.view t).spawned = true
  locked : ∀ t k entries, .locked t k entries ∈ b.log →
    (b.view t).spawned = true ∧ b.Snapshot entries
  pushing : ∀ t k push rest, (b.view t).reader = some (.pushing k push rest) →
    ∀ p ∈ rest, (b.view p.tx).spawned = true
  enqueued : ∀ u e, .enqueued u e ∈ b.log → (b.view u).spawned = true

variable {env : Env} {lossy : Bool} {grants : List Entry → Prop} {b b' : Board} {t u k : ℕ}
  {v v' : View} {es : List Event} {entries : List Entry} {s : State} {as : List Action}

theorem mem_others {id : UInt32} {p : Player} :
    p ∈ others id entries ↔ ∃ e ∈ entries, e.1 ≠ id ∧ e.2 = p := by
  simp [others, and_assoc]

theorem Move.identity (h : Move env lossy grants t v es v') (hv : v.spawned = true) :
    v'.spawned = true ∧ v'.sessionId = v.sessionId := by
  cases h with
  | spawn id hn => simp [hn] at hv
  | _ => exact ⟨hv, rfl⟩

theorem Advance.identity (h : Advance env lossy b b') (hu : (b.view u).spawned = true) :
    (b'.view u).spawned = true ∧ (b'.view u).sessionId = (b.view u).sessionId := by
  obtain ⟨t, es, h, hv, -⟩ := h.exists_move
  by_cases hut : u = t
  · subst hut
    exact h.identity hu
  · rw [hv u hut]
    exact ⟨hu, rfl⟩

theorem Board.Snapshot.advance (hs : b.Snapshot entries) (h : Advance env lossy b b') :
    b'.Snapshot entries :=
  ⟨hs.nodupKeys, fun e he ↦ (h.identity (hs.spawned e he)).1, fun e he ↦
    (h.identity (hs.spawned e he)).2.trans (hs.sessionId e he)⟩

/-- The sessions that a broadcast visits are all different. -/
theorem Board.Snapshot.nodup_tx (hs : b.Snapshot entries) : (entries.map (·.2.tx)).Nodup := by
  refine List.Nodup.map_on ?_ hs.nodupKeys.nodup
  intro e he e' he' htx
  have hkey : e.1 = e'.1 := by
    rw [← hs.sessionId e he, ← hs.sessionId e' he', htx]
  exact hs.nodupKeys.eq_of_fst_eq he he' hkey

theorem Board.Snapshot.nodup_others (hs : b.Snapshot entries) (id : UInt32) :
    ((others id entries).map Player.tx).Nodup := by
  refine hs.nodup_tx.sublist ?_
  rw [others, List.map_map]
  exact List.filter_sublist.map _

/-- A broadcast does not visit its own session. -/
theorem Board.Snapshot.ne_of_mem_others (hs : b.Snapshot entries) {p : Player}
    (hp : p ∈ others (b.view t).sessionId entries) : p.tx ≠ t := by
  obtain ⟨e, he, hne, rfl⟩ := mem_others.1 hp
  rintro rfl
  exact hne (hs.sessionId e he).symm

theorem Move.reader_spawned (h : Move env lossy grants t v es v')
    (hv : ∀ r, v.reader = some r → v.spawned = true) (r : Reader) (hr' : v'.reader = some r) :
    v'.spawned = true := by
  cases h with
  | skip | ping => exact hv r hr'
  | spawn => rfl
  | start hb => exact hb
  | idle hr | cancel hr | receive m hr | fail hr | ignore hr | pong hr | refuse hr | permit hr
  | lock hr | push hr | abort hr | unlock hr | respond hr => exact hv _ hr

theorem Move.locked_mem (h : Move env lossy grants t v es v') (he : .locked u k entries ∈ es) :
    u = t ∧ (∃ r, v.reader = some r) ∧ grants entries := by
  cases h with
  | lock hr hg =>
    simp only [List.mem_singleton, Event.locked.injEq] at he
    obtain ⟨rfl, rfl, rfl⟩ := he
    exact ⟨rfl, ⟨_, hr⟩, hg⟩
  | _ => simp [pushEvent, answerEvent] at he

theorem Move.enqueued_mem (h : Move env lossy grants t v es v') {e : Envelope}
    (he : .enqueued u e ∈ es) : u = t ∧ (v.spawned = true ∨ ∃ r, v.reader = some r) ∨
      ∃ k push p rest, v.reader = some (.pushing k push (p :: rest)) ∧ u = p.tx := by
  cases h with
  | ping millis hb =>
    simp only [List.mem_singleton, Event.enqueued.injEq] at he
    exact .inl ⟨he.1, .inl hb⟩
  | pong hr | refuse hr | respond hr =>
    simp only [answerEvent, List.mem_cons, Event.enqueued.injEq, reduceCtorEq, List.not_mem_nil,
      or_false] at he
    exact .inl ⟨he.1, .inr ⟨_, hr⟩⟩
  | push hr =>
    simp only [pushEvent, List.mem_singleton, Event.enqueued.injEq] at he
    exact .inr ⟨_, _, _, _, hr, he.1⟩
  | _ => simp at he

theorem Move.pushing (h : Move env lossy grants t v es v') {push : PushMediaKeyEvent}
    {rest : List Player} (hr : v'.reader = some (.pushing k push rest)) :
    (∃ served, v.reader = some (.pushing k push (served ++ rest))) ∨
      ∃ entries, grants entries ∧ rest = others v.sessionId entries := by
  cases h with
  | skip | ping => exact .inl ⟨[], hr⟩
  | spawn id hb hn => simp [hn] at hr
  | idle hr' hi hi' =>
    dsimp only at hr
    rw [hr] at hi'
    cases hi'
  | lock hr' hg =>
    simp only [Option.some.injEq, Reader.pushing.injEq] at hr
    exact .inr ⟨_, hg, hr.2.2.symm⟩
  | @push _ _ p _ hr' =>
    simp only [Option.some.injEq, Reader.pushing.injEq] at hr
    obtain ⟨rfl, rfl, rfl⟩ := hr
    exact .inl ⟨[p], hr'⟩
  | _ => simp at hr

theorem Board.Addressed.initial : State.init.board.Addressed :=
  ⟨nofun, nofun, nofun, nofun⟩

theorem Board.Addressed.advance (hb : b.Addressed) (h : Advance env lossy b b') : b'.Addressed := by
  have hid {u : ℕ} := h.identity (u := u)
  have hsnap {entries : List Entry} (hs : b.Snapshot entries) := hs.advance h
  obtain ⟨t, es, h, hv, hlog⟩ := h.exists_move
  refine ⟨?_, ?_, ?_, ?_⟩
  · intro u
    by_cases hu : u = t
    · subst hu
      exact h.reader_spawned (hb.reader u)
    · rw [hv u hu]
      exact hb.reader u
  · intro u k entries he
    rw [hlog] at he
    obtain he | he := List.mem_append.1 he
    · obtain ⟨hu, hs⟩ := hb.locked u k entries he
      exact ⟨(hid hu).1, hsnap hs⟩
    · obtain ⟨rfl, ⟨r, hr⟩, hg⟩ := h.locked_mem he
      exact ⟨(hid (hb.reader u r hr)).1, hsnap hg.toSnapshot⟩
  · intro u k push rest hr p hp
    by_cases hu : u = t
    · subst hu
      obtain ⟨served, hr⟩ | ⟨entries, hg, rfl⟩ := h.pushing hr
      · exact (hid (hb.pushing u k push _ hr p (List.mem_append_right _ hp))).1
      · obtain ⟨e, he, -, rfl⟩ := mem_others.1 hp
        exact (hid (hg.spawned e he)).1
    · rw [hv u hu] at hr
      exact (hid (hb.pushing u k push rest hr p hp)).1
  · intro u e he
    rw [hlog] at he
    obtain he | he := List.mem_append.1 he
    · exact (hid (hb.enqueued u e he)).1
    · obtain ⟨rfl, hv | ⟨r, hr⟩⟩ | ⟨k, push, p, rest, hr, rfl⟩ := h.enqueued_mem he
      · exact (hid hv).1
      · exact (hid (hb.reader u r hr)).1
      · exact (hid (hb.pushing t k push _ hr p List.mem_cons_self)).1

theorem addressed_of_run {ok : State → Action → Prop} (h : Run (step env) ok .init as s) :
    s.board.Addressed :=
  board_invariant true h nofun .initial (fun _ _ ↦ Board.Addressed.advance)

theorem mem_sentTo {log : List Event} {e : Envelope} : e ∈ sentTo t log ↔ .enqueued t e ∈ log := by
  simp only [sentTo, List.mem_filterMap]
  constructor
  · rintro ⟨event, hmem, he⟩
    split at he
    · simp only [Option.ite_none_right_eq_some, Option.some.injEq] at he
      obtain ⟨rfl, rfl⟩ := he
      exact hmem
    all_goals cases he
  · exact fun h ↦ ⟨_, h, by simp⟩

theorem sentTo_eq_nil {log : List Event} (h : ∀ e, .enqueued t e ∉ log) : sentTo t log = [] :=
  List.eq_nil_iff_forall_not_mem.2 fun e he ↦ h e (mem_sentTo.1 he)

theorem delivers_turn (hw : s.WellFormed) (hb : s.board.Addressed)
    (hd : ∀ t, (s.session t).Delivers (sentTo t s.log)) {a : Action} {s' : State}
    (h : Turn s a s') (u : ℕ) : (s'.session u).Delivers (sentTo u s'.log) := by
  have hupdate {t : ℕ} {x : Session} {es : List Event} (hw : x.written = (s.session t).written)
      (hc : x.channel = (s.session t).channel) (hes : sentTo u es = []) :
      (Function.update s.session t x u).Delivers (sentTo u (s.log ++ es)) := by
    obtain ⟨h, h'⟩ := hd u
    rw [sentTo_append, hes, List.append_nil]
    by_cases hu : u = t
    · subst hu
      rw [Function.update_self]
      exact ⟨by rwa [hw, hc], by rwa [hw, hc]⟩
    · rw [Function.update_of_ne hu]
      exact ⟨h, h'⟩
  cases h with
  | frame _ h =>
    rw [h.log, sentTo_append]
    exact (h.kept u).delivers (hw.sound u) _ (hd u)
  | spawn =>
    by_cases hu : u = s.spawned
    · -- Nothing is ever sent to a task that has not been spawned.
      have hn : sentTo u s.log = [] := by
        apply sentTo_eq_nil
        intro e he
        have hs := hb.enqueued u e he
        simp [State.board, Session.view, hw.absent u hu.ge] at hs
      change (Function.update s.session s.spawned _ u).Delivers (sentTo u s.log)
      rw [hn, hu, Function.update_self]
      exact ⟨List.nil_prefix, fun _ ↦ rfl⟩
    · change (Function.update s.session s.spawned _ u).Delivers (sentTo u s.log)
      rw [Function.update_of_ne hu]
      exact hd u
  | start =>
    rw [← List.append_nil (State.log _)]
    exact hupdate rfl rfl rfl
  | lock => exact hupdate rfl rfl rfl
  | release hp hr hr' hes => exact hupdate rfl rfl (hes u)
  | remove =>
    rw [← List.append_nil (State.log _)]
    exact hupdate rfl rfl rfl

/-- What was sent to a session is written in that order. -/
theorem delivers_of_run {ok : State → Action → Prop} (h : Run (step env) ok .init as s) :
    ∀ t, (s.session t).Delivers (sentTo t s.log) := by
  refine h.invariant_of (J := fun s ↦ s.WellFormed ∧ s.board.Addressed)
    (I := fun s ↦ ∀ t, (s.session t).Delivers (sentTo t s.log)) ?_ ?_
    ⟨.initial, .initial⟩ (fun t ↦ ⟨List.nil_prefix, fun _ ↦ rfl⟩)
  · rintro s a s' ⟨hw, hb⟩ - hs
    exact ⟨hw.step hs, hb.advance (step_advance true hw hs nofun)⟩
  · rintro s a s' ⟨hw, hb⟩ hd - hs
    exact delivers_turn hw hb hd (step_turn hw.sound hs)

end MusicRemote.Server
