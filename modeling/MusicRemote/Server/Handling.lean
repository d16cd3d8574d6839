import MusicRemote.Server.Session

namespace MusicRemote.Server

open Protocol Protocol.Json

inductive Verdict
  | fail
  | ignore
  | pong (time : UInt64)
  | refuse
  | permit (push : PushMediaKeyEvent)

def verdict (env : Env) (message : Message) : Verdict :=
  if message.name = "Ping" then
    match env.readPing message.data with
    | none => .fail
    | some ping => .pong ping.time
  else if message.name = "Pong" then .ignore
  else if message.name = "SendControlMediaKeyEventRequest" then
    match env.readRequest message.data with
    | none => .fail
    | some request =>
      if env.authorizationCode = request.authorizationCode then .permit (pushOf request)
      else .refuse
  else .ignore

def Reader.index : Reader → Option ℕ
  | .received k _ | .locking k _ | .pushing k _ _ | .responding k => some k
  | .reading | .unpacking | .returned => none

def Reader.holdsLock : Reader → Bool
  | .pushing _ _ _ => true
  | .reading | .unpacking | .received _ _ | .locking _ _ | .responding _ | .returned => false

def pushEvent (t k : ℕ) (push : PushMediaKeyEvent) (p : Player) : Event :=
  .enqueued p.tx (envelope (.push push) (.message t k))

def answerEvent (t k : ℕ) (body : Body) : Event := .enqueued t (envelope body (.message t k))

def granted : Body := .response ⟨true, ""⟩

def denied : Body := .response ⟨false, "no permission"⟩

structure View where
  spawned : Bool
  sessionId : UInt32
  reader : Option Reader
  received : ℕ

/-- One step of a session as the handling of its messages sees it, with the events
that it adds to the log. The lock is taken with a list of entries that `grants`
admits, and only a `lossy` system meets a closed channel in a broadcast. -/
inductive Move (env : Env) (lossy : Bool) (grants : List Entry → Prop) (t : ℕ) (v : View) :
    List Event → View → Prop
  | skip : Move env lossy grants t v [] v
  | ping (millis : UInt64) : v.spawned = true →
      Move env lossy grants t v [.enqueued t (envelope (.ping ⟨millis⟩) .pingTask)] v
  | spawn (id : UInt32) : v.spawned = false → v.reader = none → v.received = 0 →
      Move env lossy grants t v [] { v with spawned := true, sessionId := id }
  | start : v.spawned = true → v.reader = none → v.received = 0 →
      Move env lossy grants t v [] { v with reader := some .reading }
  | idle {r : Reader} {r' : Option Reader} : v.reader = some r → r.index = none →
      r'.bind Reader.index = none → Move env lossy grants t v [] { v with reader := r' }
  | cancel {r : Reader} : v.reader = some r → r.awaits = true →
      Move env lossy grants t v [] { v with reader := none }
  | receive (m : Message) : v.reader = some .unpacking →
      Move env lossy grants t v [.received t v.received m]
        { v with reader := some (.received v.received m), received := v.received + 1 }
  | fail {k : ℕ} {m : Message} : v.reader = some (.received k m) → verdict env m = .fail →
      Move env lossy grants t v [.returned t k false] { v with reader := some .returned }
  | ignore {k : ℕ} {m : Message} : v.reader = some (.received k m) → verdict env m = .ignore →
      Move env lossy grants t v [.returned t k true] { v with reader := some .unpacking }
  | pong {k : ℕ} {m : Message} {time : UInt64} : v.reader = some (.received k m) →
      verdict env m = .pong time → Move env lossy grants t v
        [answerEvent t k (.pong ⟨time⟩), .returned t k true] { v with reader := some .unpacking }
  | refuse {k : ℕ} {m : Message} : v.reader = some (.received k m) → verdict env m = .refuse →
      Move env lossy grants t v
        [answerEvent t k denied, .returned t k true] { v with reader := some .unpacking }
  | permit {k : ℕ} {m : Message} {push : PushMediaKeyEvent} : v.reader = some (.received k m) →
      verdict env m = .permit push →
      Move env lossy grants t v [] { v with reader := some (.locking k push) }
  | lock {k : ℕ} {push : PushMediaKeyEvent} {entries : List Entry} :
      v.reader = some (.locking k push) → grants entries →
      Move env lossy grants t v [.locked t k entries]
        { v with reader := some (.pushing k push (others v.sessionId entries)) }
  | push {k : ℕ} {push : PushMediaKeyEvent} {p : Player} {rest : List Player} :
      v.reader = some (.pushing k push (p :: rest)) →
      Move env lossy grants t v [pushEvent t k push p]
        { v with reader := some (.pushing k push rest) }
  | abort {k : ℕ} {push : PushMediaKeyEvent} {p : Player} {rest : List Player} :
      v.reader = some (.pushing k push (p :: rest)) → lossy = true →
      Move env lossy grants t v [.returned t k false] { v with reader := some .returned }
  | unlock {k : ℕ} {push : PushMediaKeyEvent} : v.reader = some (.pushing k push []) →
      Move env lossy grants t v [] { v with reader := some (.responding k) }
  | respond {k : ℕ} : v.reader = some (.responding k) →
      Move env lossy grants t v [answerEvent t k granted, .returned t k true]
        { v with reader := some .unpacking }

structure Board where
  view : ℕ → View
  log : List Event

/-- Entries of the registry: no key occurs twice, and each entry is the player of a
session with that id. -/
structure Board.Snapshot (b : Board) (entries : List Entry) : Prop where
  nodupKeys : entries.NodupKeys
  spawned : ∀ e ∈ entries, (b.view e.2.tx).spawned = true
  sessionId : ∀ e ∈ entries, (b.view e.2.tx).sessionId = e.1

structure Board.Grants (b : Board) (entries : List Entry) : Prop extends b.Snapshot entries where
  free : ∀ u r, (b.view u).reader = some r → r.holdsLock = false

inductive Advance (env : Env) (lossy : Bool) (b : Board) : Board → Prop
  | move {t : ℕ} {es : List Event} {v : View} : Move env lossy b.Grants t (b.view t) es v →
      Advance env lossy b ⟨Function.update b.view t v, b.log ++ es⟩

def Event.owner : Event → Option (ℕ × ℕ)
  | .received t k _ | .locked t k _ | .returned t k _ => some (t, k)
  | .enqueued _ e =>
    match e.cause with
    | .pingTask => none
    | .message t k => some (t, k)

def trace (log : List Event) (t k : ℕ) : List Event := log.filter (fun e ↦ e.owner = some (t, k))

theorem trace_sublist (log : List Event) (t k : ℕ) : (trace log t k).Sublist log :=
  List.filter_sublist

/-- How far the handling of one message has come: the reader, if it is at that
message, and the events that the message has caused so far, in order. A session
that is still `alive` never leaves a message halfway. -/
inductive Stage (env : Env) (lossy : Bool) (t k : ℕ) (id : UInt32) (alive : Bool) :
    Option Reader → List Event → Prop
  | unseen : Stage env lossy t k id alive none []
  | received (m : Message) : Stage env lossy t k id alive (some (.received k m)) [.received t k m]
  | locking {m : Message} {push : PushMediaKeyEvent} : verdict env m = .permit push →
      Stage env lossy t k id alive (some (.locking k push)) [.received t k m]
  | pushing {m : Message} {push : PushMediaKeyEvent} {entries : List Entry}
      {served rest : List Player} : verdict env m = .permit push →
      others id entries = served ++ rest →
      Stage env lossy t k id alive (some (.pushing k push rest))
        (.received t k m :: .locked t k entries :: served.map (pushEvent t k push))
  | responding {m : Message} {push : PushMediaKeyEvent} {entries : List Entry} :
      verdict env m = .permit push → Stage env lossy t k id alive (some (.responding k))
        (.received t k m :: .locked t k entries :: (others id entries).map (pushEvent t k push))
  | answered {m : Message} {push : PushMediaKeyEvent} {entries : List Entry} :
      verdict env m = .permit push → Stage env lossy t k id alive none
        (.received t k m :: .locked t k entries :: ((others id entries).map (pushEvent t k push) ++
          [answerEvent t k granted, .returned t k true]))
  | aborted {m : Message} {push : PushMediaKeyEvent} {entries : List Entry}
      {served rest : List Player} {p : Player} : lossy = true → verdict env m = .permit push →
      others id entries = served ++ p :: rest → Stage env lossy t k id alive none
        (.received t k m :: .locked t k entries :: (served.map (pushEvent t k push) ++
          [.returned t k false]))
  | refused {m : Message} : verdict env m = .refuse → Stage env lossy t k id alive none
      [.received t k m, answerEvent t k denied, .returned t k true]
  | ponged {m : Message} {time : UInt64} : verdict env m = .pong time →
      Stage env lossy t k id alive none
        [.received t k m, answerEvent t k (.pong ⟨time⟩), .returned t k true]
  | ignored {m : Message} : verdict env m = .ignore → Stage env lossy t k id alive none
      [.received t k m, .returned t k true]
  | failed {m : Message} : verdict env m = .fail → Stage env lossy t k id alive none
      [.received t k m, .returned t k false]
  | cancelled (m : Message) : alive = false → Stage env lossy t k id alive none [.received t k m]

def View.readerAt (v : View) (k : ℕ) : Option Reader :=
  v.reader.filter (fun r ↦ r.index = some k)

/-- A view and the messages of its task: each is at some stage, the ones to come
have left no trace, and the reader is at the last one. -/
structure View.Staged (env : Env) (lossy : Bool) (t : ℕ) (v : View) (log : List Event) : Prop where
  stage : ∀ k, Stage env lossy t k v.sessionId v.reader.isSome (v.readerAt k) (trace log t k)
  unseen : ∀ k, v.received ≤ k → trace log t k = []
  index : ∀ k, v.reader.bind Reader.index = some k → k + 1 = v.received

variable {env : Env} {lossy : Bool} {grants : List Entry → Prop} {t u k : ℕ} {v v' : View}
  {es log : List Event} {id : UInt32} {alive : Bool} {r : Option Reader}

@[simp] theorem trace_nil : trace [] t k = [] := rfl

theorem trace_append (log es : List Event) (t k : ℕ) :
    trace (log ++ es) t k = trace log t k ++ trace es t k := List.filter_append ..

theorem trace_eq_nil (h : ∀ e ∈ es, e.owner ≠ some (t, k)) : trace es t k = [] := by
  simpa only [trace, List.filter_eq_nil_iff, decide_eq_true_eq] using h

theorem trace_eq_self (h : ∀ e ∈ es, e.owner = some (t, k)) : trace es t k = es := by
  simpa only [trace, List.filter_eq_self, decide_eq_true_eq] using h

@[simp] theorem owner_received (m : Message) : (Event.received t k m).owner = some (t, k) := rfl

@[simp] theorem owner_locked (entries : List Entry) :
    (Event.locked t k entries).owner = some (t, k) := rfl

@[simp] theorem owner_returned (ok : Bool) : (Event.returned t k ok).owner = some (t, k) := rfl

@[simp] theorem owner_ping (u : ℕ) (body : Body) :
    (Event.enqueued u (envelope body .pingTask)).owner = none := rfl

@[simp] theorem owner_pushEvent (push : PushMediaKeyEvent) (p : Player) :
    (pushEvent t k push p).owner = some (t, k) := rfl

@[simp] theorem owner_answerEvent (body : Body) : (answerEvent t k body).owner = some (t, k) := rfl

/-- A move adds events of at most one message: the one that the reader is at, or
the one that it receives. -/
theorem Move.owner (h : Move env lossy grants t v es v') : ∀ e ∈ es, e.owner = none ∨
    ∃ k, e.owner = some (t, k) ∧
      (v.reader.bind Reader.index = some k ∨ v.received = k ∧ v'.received = k + 1) := by
  cases h with
  | ping | receive => simp
  | fail hr | ignore hr | pong hr | refuse hr | lock hr | push hr | abort hr | respond hr =>
    simp [hr, Reader.index]
  | skip | spawn | start | idle | cancel | permit | unlock => simp

theorem Move.trace_of_ne (h : Move env lossy grants t v es v') (hu : u ≠ t) (k : ℕ) :
    trace es u k = [] := by
  apply trace_eq_nil
  intro e he ho
  obtain h | ⟨k', h, -⟩ := h.owner e he
  · simp [h] at ho
  · simp only [h, Option.some.injEq, Prod.mk.injEq] at ho
    exact hu ho.1.symm

theorem Stage.dead (h : Stage env lossy t k id true r es) : Stage env lossy t k id alive r es := by
  cases h with
  | unseen => exact .unseen
  | received m => exact .received m
  | locking hm => exact .locking hm
  | pushing hm ho => exact .pushing hm ho
  | responding hm => exact .responding hm
  | answered hm => exact .answered hm
  | aborted hl hm ho => exact .aborted hl hm ho
  | refused hm => exact .refused hm
  | ponged hm => exact .ponged hm
  | ignored hm => exact .ignored hm
  | failed hm => exact .failed hm
  | cancelled m ha => cases ha

theorem View.readerAt_eq_self (h : v.reader.bind Reader.index = some k) :
    v.readerAt k = v.reader := by
  obtain ⟨r, hr, hk⟩ := Option.bind_eq_some_iff.1 h
  simp [readerAt, hr, Option.filter, hk]

theorem View.readerAt_eq_none (h : v.reader.bind Reader.index ≠ some k) : v.readerAt k = none := by
  cases hr : v.reader with
  | none => simp [readerAt, hr]
  | some r => simpa [readerAt, hr, Option.filter] using h

theorem Move.received_eq (h : Move env lossy grants t v es v') :
    v'.received = v.received ∨ v.reader = some .unpacking ∧ v'.received = v.received + 1 := by
  cases h with
  | receive m hr => exact .inr ⟨hr, rfl⟩
  | _ => exact .inl rfl

theorem Move.index (h : Move env lossy grants t v es v')
    (hk : v'.reader.bind Reader.index = some k) :
    v.reader.bind Reader.index = some k ∨ v.received = k ∧ v'.received = k + 1 := by
  cases h with
  | skip | ping => exact .inl hk
  | spawn id hb hr => simp [hr] at hk
  | start | cancel | fail | ignore | pong | refuse | abort | respond => simp [Reader.index] at hk
  | idle hr hi hi' => simp [hi'] at hk
  | receive => exact .inr (by simpa [Reader.index] using hk)
  | permit hr | lock hr | push hr | unlock hr =>
    left
    rw [hr]
    exact hk

theorem Move.arrival (h : Move env lossy grants t v es v') (hk : v.received = k)
    (hk' : v'.received = k + 1) :
    ∃ m, es = [.received t k m] ∧ v'.reader = some (.received k m) := by
  cases h with
  | receive m => exact ⟨m, by rw [hk], by rw [hk]⟩
  | _ => exact absurd (hk.symm.trans hk') (Nat.succ_ne_self k).symm

theorem Move.kept (h : Move env lossy grants t v es v') :
    v' = v ∨ v.received = 0 ∨ v.reader.isSome = true ∧ v'.sessionId = v.sessionId := by
  cases h with
  | skip | ping => exact .inl rfl
  | spawn id hb hr hz | start hb hr hz => exact .inr (.inl hz)
  | idle hr | cancel hr | receive m hr | fail hr | ignore hr | pong hr | refuse hr | permit hr
  | lock hr | push hr | abort hr | unlock hr | respond hr =>
    right; right
    rw [hr]
    exact ⟨rfl, rfl⟩

/-- The message that the reader is at goes from stage to stage. -/
theorem Stage.move (h : Move env lossy grants t v es v') {tr : List Event}
    (hk : v.reader.bind Reader.index = some k)
    (hs : Stage env lossy t k v.sessionId true v.reader tr) :
    Stage env lossy t k v'.sessionId v'.reader.isSome (v'.readerAt k) (tr ++ trace es t k) := by
  cases h with
  | skip =>
    rw [trace_nil, List.append_nil, View.readerAt_eq_self hk]
    exact hs.dead
  | ping millis =>
    rw [trace_eq_nil (by simp), List.append_nil, View.readerAt_eq_self hk]
    exact hs.dead
  | spawn id hb hr | start hb hr => simp [hr] at hk
  | idle hr hi => simp [hr, hi] at hk
  | receive m hr => simp [hr, Reader.index] at hk
  | cancel hr ha =>
    rw [hr] at hs hk
    rw [trace_nil, List.append_nil]
    cases hs with
    | received m => exact .cancelled m rfl
    | locking => exact .cancelled _ rfl
    | pushing | responding => cases ha
  | fail hr hm =>
    rw [hr] at hs
    rw [View.readerAt_eq_none (by simp [Reader.index])]
    cases hs with
    | received => rw [trace_eq_self (by simp)]; exact .failed hm
  | ignore hr hm =>
    rw [hr] at hs
    rw [View.readerAt_eq_none (by simp [Reader.index])]
    cases hs with
    | received => rw [trace_eq_self (by simp)]; exact .ignored hm
  | pong hr hm =>
    rw [hr] at hs
    rw [View.readerAt_eq_none (by simp [Reader.index])]
    cases hs with
    | received => rw [trace_eq_self (by simp)]; exact .ponged hm
  | refuse hr hm =>
    rw [hr] at hs
    rw [View.readerAt_eq_none (by simp [Reader.index])]
    cases hs with
    | received => rw [trace_eq_self (by simp)]; exact .refused hm
  | permit hr hm =>
    rw [hr] at hs
    cases hs with
    | received => rw [View.readerAt_eq_self rfl]; exact .locking hm
  | lock hr hg =>
    rw [hr] at hs
    cases hs with
    | locking hm =>
      rw [View.readerAt_eq_self rfl, trace_eq_self (by simp)]
      exact .pushing hm (List.nil_append _).symm
  | push hr =>
    rw [hr] at hs
    cases hs with
    | pushing hm ho =>
      have h : Stage env lossy t k v.sessionId true _ _ :=
        .pushing hm (ho.trans (List.append_cons ..))
      rw [List.map_append] at h
      rw [View.readerAt_eq_self rfl, trace_eq_self (by simp)]
      exact h
  | abort hr hl =>
    rw [hr] at hs
    rw [View.readerAt_eq_none (by simp [Reader.index])]
    cases hs with
    | pushing hm ho => rw [trace_eq_self (by simp)]; exact .aborted hl hm ho
  | unlock hr =>
    rw [hr] at hs
    cases hs with
    | pushing hm ho =>
      rw [List.append_nil] at ho
      subst ho
      rw [View.readerAt_eq_self rfl, trace_nil, List.append_nil]
      exact .responding hm
  | respond hr =>
    rw [hr] at hs
    rw [View.readerAt_eq_none (by simp [Reader.index])]
    cases hs with
    | responding hm => rw [trace_eq_self (by simp)]; exact .answered hm

namespace View.Staged

theorem initial (id : UInt32) : View.Staged env lossy t ⟨false, id, none, 0⟩ [] :=
  ⟨fun _ ↦ .unseen, fun _ _ ↦ rfl, fun _ h ↦ by cases h⟩

theorem elsewhere (h : v.Staged env lossy t log) (hr : v.reader.isSome = true)
    (hk : v.reader.bind Reader.index ≠ some k) :
    Stage env lossy t k v.sessionId alive none (trace log t k) := by
  have hs := h.stage k
  rw [hr, readerAt_eq_none hk] at hs
  exact hs.dead

theorem of_trace_nil (h : v.Staged env lossy t log) (he : ∀ k, trace es t k = []) :
    v.Staged env lossy t (log ++ es) := by
  have ht (k : ℕ) : trace (log ++ es) t k = trace log t k := by
    rw [trace_append, he, List.append_nil]
  exact ⟨fun k ↦ (ht k).symm ▸ h.stage k, fun k hk ↦ (ht k).trans (h.unseen k hk), h.index⟩

theorem stage_move (hs : v.Staged env lossy t log) (h : Move env lossy grants t v es v') (k : ℕ) :
    Stage env lossy t k v'.sessionId v'.reader.isSome (v'.readerAt k) (trace (log ++ es) t k) := by
  rw [trace_append]
  by_cases hk : v.reader.bind Reader.index = some k
  · apply Stage.move h hk
    have hr : v.reader.isSome = true := by
      obtain ⟨r, hr, -⟩ := Option.bind_eq_some_iff.1 hk
      rw [hr, Option.isSome_some]
    rw [← readerAt_eq_self hk, ← hr]
    exact hs.stage k
  by_cases hn : v.received = k ∧ v'.received = k + 1
  · -- The message arrives with this move.
    rw [hs.unseen k hn.1.le, List.nil_append]
    obtain ⟨m, rfl, hr⟩ := h.arrival hn.1 hn.2
    rw [trace_eq_self (by simp), readerAt_eq_self (by rw [hr]; rfl), hr]
    exact .received m
  have he : trace es t k = [] := by
    apply trace_eq_nil
    intro e he ho
    obtain h | ⟨k', h, h'⟩ := h.owner e he
    · simp [h] at ho
    · simp only [h, Option.some.injEq, Prod.mk.injEq, true_and] at ho
      subst ho
      exact h'.elim hk hn
  rw [he, List.append_nil, readerAt_eq_none (fun h' ↦ (h.index h').elim hk hn)]
  obtain rfl | hz | ⟨hr, hi⟩ := h.kept
  · have := hs.stage k
    rwa [readerAt_eq_none hk] at this
  · rw [hs.unseen k (by omega)]
    exact .unseen
  · rw [hi]
    exact hs.elsewhere hr hk

/-- Every move of its task keeps a view staged. -/
theorem move (hs : v.Staged env lossy t log) (h : Move env lossy grants t v es v') :
    v'.Staged env lossy t (log ++ es) := by
  refine ⟨hs.stage_move h, ?_, ?_⟩
  · intro k hk
    have hle : v.received ≤ v'.received := by
      obtain hn | hn := h.received_eq <;> omega
    rw [trace_append, hs.unseen k (hle.trans hk), List.nil_append]
    apply trace_eq_nil
    intro e he ho
    obtain h | ⟨k', h, hi | hn⟩ := h.owner e he
    · simp [h] at ho
    · have := hs.index k' hi
      simp only [h, Option.some.injEq, Prod.mk.injEq, true_and] at ho
      omega
    · simp only [h, Option.some.injEq, Prod.mk.injEq, true_and] at ho
      omega
  · intro k hk
    obtain hi | hn := h.index hk
    · obtain hn | ⟨hr, -⟩ := h.received_eq
      · rw [hn]
        exact hs.index k hi
      · simp [hr, Reader.index] at hi
    · exact hn.2.symm

end View.Staged

def Board.Staged (env : Env) (lossy : Bool) (b : Board) : Prop :=
  ∀ t, (b.view t).Staged env lossy t b.log

theorem Advance.exists_move {b b' : Board} (h : Advance env lossy b b') :
    ∃ t es, Move env lossy b.Grants t (b.view t) es (b'.view t) ∧
      (∀ u, u ≠ t → b'.view u = b.view u) ∧ b'.log = b.log ++ es := by
  obtain @⟨t, es, v, h⟩ := h
  refine ⟨t, es, ?_, fun u hu ↦ Function.update_of_ne hu .., rfl⟩
  simpa only [Function.update_self] using h

theorem Board.Staged.advance {b b' : Board} (hs : b.Staged env lossy)
    (h : Advance env lossy b b') : b'.Staged env lossy := by
  obtain ⟨t, es, h, hv, hlog⟩ := h.exists_move
  intro u
  rw [hlog]
  by_cases hu : u = t
  · subst hu
    exact (hs u).move h
  · rw [hv u hu]
    exact (hs u).of_trace_nil (h.trace_of_ne hu)

end MusicRemote.Server
