import MusicRemote.Client.Channels

namespace MusicRemote.Client

open Foundation.Transition

def Pc.isPushing : Pc → Bool
  | .pushing _ => true
  | _ => false

structure State.Numbered (s : State) : Prop where
  seed : 0 ≤ s.connectionIdSeed
  owed : ∀ c ∈ s.owed, c.id ≤ s.connectionIdSeed
  pushing : ∀ i c, s.pcAt i = some (.pushing c) →
    0 < c.id ∧ c.id ≤ s.connectionIdSeed ∧ ∀ d ∈ s.owed, d.id ≠ c.id
  distinct : ∀ i j c d, s.pcAt i = some (.pushing c) → s.pcAt j = some (.pushing d) →
    c.id = d.id → i = j

/-- What a call that goes on does to the rest: it leaves the other calls alone, owes what it
pushes, and forgets only what it finds in the queue and erases. It comes to the queue with a
`disconnect` only if there is no entry. -/
structure Advances (s u : State) (pc pc' : Pc) : Prop where
  calls : u.calls = s.calls
  seed : u.connectionIdSeed = s.connectionIdSeed
  owed : ∀ c ∈ u.owed, c ∈ s.owed ∨ pc = .pushing c
  kept : ∀ c ∈ s.owed, (pc = .erasing c.id → s.connectQue.any (·.id = c.id) = false) → c ∈ u.owed
  pushed : ∀ c, pc = .pushing c → c ∈ u.owed
  pushing : pc'.isPushing = false
  erasing : ∀ id, pc' = .erasing id → u.aliveConnects = s.aliveConnects ∧ s.aliveConnects id = none

inductive Progress (s : State) (a : Action) (t : State) : Prop
  | issue (host : String) (port kind : ℤ) (act : a = .connect host port kind)
      (eq : t = connect s host port kind)
  | idle (pcs : ∀ i, t.pcAt i = s.pcAt i ∨ s.pcAt i = none ∧
        ∃ pc, t.pcAt i = some pc ∧ pc.isPushing = false ∧ pc.isErasing = false)
      (seed : t.connectionIdSeed = s.connectionIdSeed) (owed : t.owed = s.owed)
      (alive : t.aliveConnects = s.aliveConnects) (act : ∀ k, a ≠ .advance k)
  | advance {k : ℕ} {pc pc' : Pc} {u : State} (act : a = .advance k) (hk : s.pcAt k = some pc)
      (eq : t = u.goto k pc') (h : Advances s u pc pc')

section

variable {residue : Connection → Connection} {s t u : State} {k : ℕ} {pc pc' : Pc} {a : Action}

theorem Advances.plain (hc : u.calls = s.calls) (hs : u.connectionIdSeed = s.connectionIdSeed)
    (ho : u.owed = s.owed) (hp : pc.isPushing = false) (hp' : pc'.isPushing = false)
    (he : pc'.isErasing = false) : Advances s u pc pc' where
  calls := hc
  seed := hs
  owed c h := .inl (ho ▸ h)
  kept c h _ := ho ▸ h
  pushed c h := by
    rw [h] at hp
    cases hp
  pushing := hp'
  erasing id h := by
    rw [h] at he
    cases he

theorem pushBack_advances (s : State) (conn : Connection) :
    Advances s { s with connectQue := s.connectQue ++ [conn], owed := s.owed ++ [conn] }
      (.pushing conn) .looping where
  calls := rfl
  seed := rfl
  owed c h := (List.mem_append.1 h).imp_right fun h ↦ by rw [List.mem_singleton.1 h]
  kept c h _ := List.mem_append_left _ h
  pushed c h := by
    cases h
    exact List.mem_append_right _ (List.mem_singleton_self conn)
  pushing := rfl
  erasing _ h := by cases h

theorem eraseQueued_advances {id : ℤ} {r : Connection} (h : s.connectQue.any (·.id = id) = true) :
    Advances s
      { s with
        connectQue := s.connectQue.eraseP (·.id = id)
        remnant := r
        owed := s.owed.eraseP (·.id = id) }
      (.erasing id) .returned where
  calls := rfl
  seed := rfl
  owed c hc := .inl (List.mem_of_mem_eraseP hc)
  kept c hc he := by
    refine (List.mem_eraseP_of_neg ?_).2 hc
    intro hid
    obtain rfl := of_decide_eq_true hid
    rw [he rfl] at h
    cases h
  pushed _ h := by cases h
  pushing := rfl
  erasing _ h := by cases h

theorem stride_advances (h : Stride residue s k pc t) :
    ∃ (u : State) (pc' : Pc), t = u.goto k pc' ∧ Advances s u pc pc' := by
  cases h with
  | push conn => exact ⟨_, _, rfl, pushBack_advances s conn⟩
  | erase hq => exact ⟨_, _, rfl, eraseQueued_advances hq⟩
  | close =>
    refine ⟨_, _, rfl, .plain ?_ ?_ ?_ rfl rfl rfl⟩ <;> unfold closeChannel <;> split_ifs <;> rfl
  | search _ he =>
    refine ⟨s, _, rfl, rfl, rfl, fun _ h ↦ .inl h, fun _ h _ ↦ h, ?_, rfl, ?_⟩
    · intro conn h
      cases h
    · intro id' h
      cases h
      exact ⟨rfl, he⟩
  | _ => exact ⟨_, _, rfl, .plain rfl rfl rfl rfl rfl rfl⟩

theorem spawn_idle {b : Bool} (hc : u.calls = s.calls) (hp : pc.isPushing = false)
    (he : pc.isErasing = false) (i : ℕ) :
    (u.spawn b pc).pcAt i = s.pcAt i ∨ s.pcAt i = none ∧
      ∃ pc', (u.spawn b pc).pcAt i = some pc' ∧ pc'.isPushing = false ∧ pc'.isErasing = false := by
  rw [pcAt_spawn, hc]
  split_ifs with hi
  · exact .inr ⟨by simp [State.pcAt, hi], pc, rfl, hp, he⟩
  · exact .inl (by rw [State.pcAt, State.pcAt, hc])

theorem step_progress (ht : step residue s a = some t) : Progress s a t := by
  cases step_turn ht with
  | connect host port kind _ => exact .issue host port kind rfl rfl
  | disconnect | fire =>
    exact .idle (spawn_idle rfl rfl rfl) rfl rfl rfl fun _ ha ↦ by cases ha
  | process => exact .idle (fun _ ↦ .inl rfl) rfl rfl rfl fun _ ha ↦ by cases ha
  | advance hpc hs =>
    obtain ⟨u, pc', heq, h⟩ := stride_advances hs
    exact .advance rfl hpc heq h

theorem Advances.pcAt (h : Advances s u pc pc') (hk : s.pcAt k = some pc) (i : ℕ) :
    (u.goto k pc').pcAt i = if i = k then some pc' else s.pcAt i := by
  have hu : ∀ i, u.pcAt i = s.pcAt i := fun i ↦ by rw [State.pcAt, h.calls, State.pcAt]
  rw [pcAt_goto ((hu k).trans hk), hu]

theorem Advances.pushing_goto (h : Advances s u pc pc') (hk : s.pcAt k = some pc) {i : ℕ}
    {c : Connection} (hi : (u.goto k pc').pcAt i = some (.pushing c)) :
    i ≠ k ∧ s.pcAt i = some (.pushing c) := by
  rw [h.pcAt hk] at hi
  split_ifs at hi with hik
  · have hp := h.pushing
    rw [Option.some.inj hi] at hp
    cases hp
  · exact ⟨hik, hi⟩

theorem Progress.idle_pushing {i : ℕ} {c : Connection}
    (hi : t.pcAt i = s.pcAt i ∨ s.pcAt i = none ∧
      ∃ pc, t.pcAt i = some pc ∧ pc.isPushing = false ∧ pc.isErasing = false)
    (hc : t.pcAt i = some (.pushing c)) : s.pcAt i = some (.pushing c) := by
  rcases hi with hi | ⟨-, pc, hi, hp, -⟩
  · exact hi ▸ hc
  · rw [Option.some.inj (hi.symm.trans hc)] at hp
    cases hp

theorem connect_pushing (s : State) (host : String) (port kind : ℤ) {i : ℕ} {c : Connection}
    (hi : (connect s host port kind).pcAt i = some (.pushing c)) :
    i = s.calls.length ∧ c.id = s.connectionIdSeed + 1 ∨ s.pcAt i = some (.pushing c) := by
  rw [connect, pcAt_spawn] at hi
  split_ifs at hi with hl
  · cases hi
    exact .inl ⟨hl, rfl⟩
  · exact .inr hi

theorem connect_numbered (h : s.Numbered) (host : String) (port kind : ℤ) :
    (connect s host port kind).Numbered := by
  have hseed := h.seed
  refine ⟨Int.le_add_one h.seed, fun c hc ↦ Int.le_add_one (h.owed c hc), fun i c hi ↦ ?_,
    fun i j c d hi hj he ↦ ?_⟩
  · rcases connect_pushing s host port kind hi with ⟨-, hid⟩ | hi
    · refine ⟨by omega, by rw [hid]; exact Int.le_refl _, fun d hd ↦ ?_⟩
      have := h.owed d hd
      omega
    · obtain ⟨hpos, hle, hne⟩ := h.pushing i c hi
      exact ⟨hpos, Int.le_add_one hle, hne⟩
  · rcases connect_pushing s host port kind hi with ⟨hil, hid⟩ | hi <;>
      rcases connect_pushing s host port kind hj with ⟨hjl, hjd⟩ | hj
    · exact hil.trans hjl.symm
    · have := (h.pushing j d hj).2.1
      omega
    · have := (h.pushing i c hi).2.1
      omega
    · exact h.distinct i j c d hi hj he

theorem Advances.numbered (h : Advances s u pc pc') (hk : s.pcAt k = some pc) (hn : s.Numbered) :
    (u.goto k pc').Numbered where
  seed := (h.seed ▸ hn.seed :)
  owed c hc := by
    have hle : c.id ≤ s.connectionIdSeed := by
      rcases h.owed c hc with hc | rfl
      · exact hn.owed c hc
      · exact (hn.pushing k c hk).2.1
    exact (h.seed ▸ hle :)
  pushing i c hi := by
    obtain ⟨hik, hi⟩ := h.pushing_goto hk hi
    obtain ⟨hpos, hle, hne⟩ := hn.pushing i c hi
    refine ⟨hpos, (h.seed ▸ hle :), fun d hd ↦ ?_⟩
    rcases h.owed d hd with hd | rfl
    · exact hne d hd
    · exact fun he ↦ hik (hn.distinct i k c d hi hk he.symm)
  distinct i j c d hi hj :=
    hn.distinct i j c d (h.pushing_goto hk hi).2 (h.pushing_goto hk hj).2

theorem step_numbered (h : s.Numbered) (ht : step residue s a = some t) : t.Numbered := by
  cases step_progress ht with
  | issue host port kind _ eq => exact eq ▸ connect_numbered h host port kind
  | idle pcs seed owed _ _ =>
    have hp {i : ℕ} {c : Connection} (hi : t.pcAt i = some (.pushing c)) :
        s.pcAt i = some (.pushing c) := Progress.idle_pushing (pcs i) hi
    refine ⟨seed ▸ h.seed, fun c hc ↦ seed ▸ h.owed c (owed ▸ hc), fun i c hi ↦ ?_,
      fun i j c d hi hj ↦ h.distinct i j c d (hp hi) (hp hj)⟩
    rw [seed, owed]
    exact h.pushing i c (hp hi)
  | advance _ hk eq ha => exact eq ▸ ha.numbered hk h

theorem start_numbered (n : ℤ) : (start n).Numbered where
  seed := Int.le_refl 0
  owed _ h := nomatch h
  pushing _ _ h := nomatch h
  distinct _ _ _ _ h := nomatch h

theorem numbered_of_run {ok : State → Action → Prop} {n : ℤ} {as : List Action}
    (h : Run (step residue) ok (start n) as s) : s.Numbered :=
  h.invariant (I := State.Numbered) (fun _ _ _ hs _ ht ↦ step_numbered hs ht) (start_numbered n)

end

end MusicRemote.Client
