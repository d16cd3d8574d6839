import MusicRemote.Client.Numbering

namespace MusicRemote.Client

open Foundation.Transition

/-- Where a call of `connect` stands with its id: before the load of the seed, before the store of
the sum, or after it. -/
inductive Dialing
  | loading (host : String) (port kind : ℤ)
  | storing (host : String) (port kind id : ℤ)
  | created
  deriving DecidableEq

/-- The client together with the calls of `connect` that have no id yet, and the ids of all
connections in the order of their creation. -/
structure Seeding where
  client : State
  dialings : List Dialing
  ids : List ℤ

def Seeding.start (maxChannelCount : ℤ) : Seeding := ⟨Client.start maxChannelCount, [], []⟩

def Action.isConnect : Action → Bool
  | .connect _ _ _ => true
  | _ => false

inductive SeedAction
  | dial (host : String) (port kind : ℤ)
  | load (j : ℕ)
  | store (j : ℕ)
  | client (a : Action)
  deriving DecidableEq

def loadSeed (s : Seeding) (j : ℕ) : Option Seeding :=
  match s.dialings[j]? with
  | some (.loading host port kind) =>
    if s.client.connectionIdSeed < maxInt then
      some { s with
        dialings := s.dialings.set j (.storing host port kind (s.client.connectionIdSeed + 1)) }
    else none
  | _ => none

def storeSeed (s : Seeding) (j : ℕ) : Option Seeding :=
  match s.dialings[j]? with
  | some (.storing host port kind id) =>
    some {
      client := ({ s.client with connectionIdSeed := id }).spawn false
        (.pushing ⟨host, port, id, kind, -1, none⟩)
      dialings := s.dialings.set j .created
      ids := s.ids ++ [id] }
  | _ => none

def seedStep (residue : Connection → Connection) (s : Seeding) : SeedAction → Option Seeding
  | .dial host port kind => some { s with dialings := s.dialings ++ [.loading host port kind] }
  | .load j => loadSeed s j
  | .store j => storeSeed s j
  | .client a =>
    if a.isConnect then none
    else (step residue s.client a).map fun client ↦ { s with client := client }

def Dialing.loaded : Dialing → Option ℤ
  | .storing _ _ _ id => some id
  | .loading _ _ _ | .created => none

def Seeding.loaded (s : Seeding) (j : ℕ) : Option ℤ := s.dialings[j]?.bind Dialing.loaded

/-- The store finds the seed that its call has loaded. -/
def Fresh (s : Seeding) : SeedAction → Prop
  | .store j => s.loaded j = some (s.client.connectionIdSeed + 1)
  | .dial _ _ _ | .load _ | .client _ => True

instance (s : Seeding) : ∀ a, Decidable (Fresh s a)
  | .store j => inferInstanceAs (Decidable (s.loaded j = some (s.client.connectionIdSeed + 1)))
  | .dial _ _ _ | .load _ | .client _ => .isTrue trivial

/-- The ids handed out so far are those up to the seed. -/
structure Counted (s : Seeding) : Prop where
  nodup : s.ids.Nodup
  mem : ∀ id, id ∈ s.ids ↔ 1 ≤ id ∧ id ≤ s.client.connectionIdSeed
  loaded : ∀ j id, s.loaded j = some id →
    1 ≤ id ∧ id ≤ s.client.connectionIdSeed + 1 ∧ id ≤ maxInt
  seed : 0 ≤ s.client.connectionIdSeed

section

variable {residue : Connection → Connection} {s t : Seeding} {a : SeedAction} {n : ℤ}
  {as : List SeedAction}

theorem start_counted (n : ℤ) : Counted (.start n) where
  nodup := List.nodup_nil
  mem id := by
    have hseed : (Seeding.start n).client.connectionIdSeed = 0 := rfl
    have hids : (Seeding.start n).ids = [] := rfl
    rw [hseed, hids]
    constructor
    · intro h
      cases h
    · omega
  loaded _ _ h := by cases h
  seed := Int.le_refl 0

theorem connectionIdSeed_step {u v : State} {b : Action} (hb : b.isConnect = false)
    (h : step residue u b = some v) : v.connectionIdSeed = u.connectionIdSeed := by
  cases step_progress h with
  | issue host port kind act _ =>
    rw [act] at hb
    cases hb
  | idle _ seed _ _ _ => exact seed
  | advance _ _ eq ha => rw [eq, ← ha.seed]; rfl

inductive Numbers (s : Seeding) : SeedAction → Seeding → Prop
  | dial (host : String) (port kind : ℤ) : Numbers s (.dial host port kind)
      { s with dialings := s.dialings ++ [.loading host port kind] }
  | load {j : ℕ} {host : String} {port kind : ℤ} :
      s.dialings[j]? = some (.loading host port kind) →
      s.client.connectionIdSeed < maxInt → Numbers s (.load j) { s with
        dialings := s.dialings.set j (.storing host port kind (s.client.connectionIdSeed + 1)) }
  | store {j : ℕ} {host : String} {port kind id : ℤ} :
      s.dialings[j]? = some (.storing host port kind id) → Numbers s (.store j)
        { client := ({ s.client with connectionIdSeed := id }).spawn false
            (.pushing ⟨host, port, id, kind, -1, none⟩)
          dialings := s.dialings.set j .created
          ids := s.ids ++ [id] }
  | client {a : Action} {client : State} : a.isConnect = false →
      client.connectionIdSeed = s.client.connectionIdSeed →
      Numbers s (.client a) { s with client := client }

theorem seedStep_numbers (h : seedStep residue s a = some t) : Numbers s a t := by
  cases a with
  | dial host port kind =>
    cases h
    exact .dial host port kind
  | load j =>
    simp only [seedStep, loadSeed] at h
    split at h
    · rename_i hj
      split_ifs at h with hlt
      cases h
      exact .load hj hlt
    · cases h
  | store j =>
    simp only [seedStep, storeSeed] at h
    split at h
    · rename_i hj
      cases h
      exact .store hj
    · cases h
  | client a =>
    simp only [seedStep] at h
    split_ifs at h with ha
    obtain ⟨client, hc, rfl⟩ := Option.map_eq_some_iff.1 h
    have ha := Bool.eq_false_iff.2 ha
    exact .client ha (connectionIdSeed_step ha hc)

theorem loaded_set {j : ℕ} {d : Dialing} {client : State} {ids : List ℤ} (i : ℕ) {id : ℤ}
    (h : Seeding.loaded ⟨client, s.dialings.set j d, ids⟩ i = some id) :
    d.loaded = some id ∨ s.loaded i = some id := by
  simp only [Seeding.loaded, List.getElem?_set] at h
  split_ifs at h with hij hlt
  · exact .inl h
  · cases h
  · exact .inr h

theorem step_counted (h : Counted s) (ha : Fresh s a) (ht : seedStep residue s a = some t) :
    Counted t := by
  have hseed := h.seed
  cases seedStep_numbers ht with
  | dial host port kind =>
    refine ⟨h.nodup, h.mem, fun j id hj ↦ ?_, h.seed⟩
    apply h.loaded j id
    simp only [Seeding.loaded, List.getElem?_append] at hj
    split_ifs at hj with hlt
    · exact hj
    · cases hd : [Dialing.loading host port kind][j - s.dialings.length]? with
      | none =>
        rw [hd] at hj
        cases hj
      | some d =>
        rw [hd, List.mem_singleton.1 (List.mem_of_getElem? hd)] at hj
        cases hj
  | load hj hlt =>
    refine ⟨h.nodup, h.mem, fun i id hi ↦ ?_, h.seed⟩
    rcases loaded_set i hi with heq | hi
    · cases heq
      dsimp only
      omega
    · exact h.loaded i id hi
  | @store j host port kind id hj =>
    -- The id is the next one, so it joins the interval at its end.
    have hid : id = s.client.connectionIdSeed + 1 := by
      simp only [Fresh, Seeding.loaded, hj, Option.bind_some, Dialing.loaded,
        Option.some.injEq] at ha
      exact ha
    subst hid
    refine ⟨?_, fun id ↦ ?_, fun i id hi ↦ ?_, Int.le_add_one hseed⟩
    · refine List.nodup_append.2 ⟨h.nodup, List.nodup_singleton _, fun x hx y hy hxy ↦ ?_⟩
      have := (h.mem x).1 hx
      have := List.mem_singleton.1 hy
      omega
    · rw [List.mem_append, h.mem, List.mem_singleton]
      change _ ↔ 1 ≤ id ∧ id ≤ s.client.connectionIdSeed + 1
      omega
    · change 1 ≤ id ∧ id ≤ s.client.connectionIdSeed + 1 + 1 ∧ id ≤ maxInt
      rcases loaded_set i hi with heq | hi
      · cases heq
      · have := h.loaded i id hi
        omega
  | client _ hc =>
    refine ⟨h.nodup, ?_, ?_, ?_⟩
    · rw [hc]
      exact h.mem
    · rw [hc]
      exact h.loaded
    · rw [hc]
      exact hseed

theorem counted_of_run (h : Run (seedStep residue) Fresh (.start n) as s) : Counted s :=
  h.invariant (fun _ _ _ hi ha ht ↦ step_counted hi ha ht) (start_counted n)

/-- Ids are never taken back. -/
theorem ids_step (ht : seedStep residue s a = some t) : ∃ ids, t.ids = s.ids ++ ids := by
  cases seedStep_numbers ht with
  | store => exact ⟨_, rfl⟩
  | dial | load | client => exact ⟨[], (List.append_nil _).symm⟩

/-- A store that is not fresh hands out an id for the second time. -/
theorem not_nodup_of_stale (h : Counted s) (ha : ¬ Fresh s a)
    (ht : seedStep residue s a = some t) : ¬ t.ids.Nodup := by
  cases seedStep_numbers ht with
  | @store j host port kind id hj =>
    have hl : s.loaded j = some id := by rw [Seeding.loaded, hj]; rfl
    have hne : id ≠ s.client.connectionIdSeed + 1 := by
      intro hid
      exact ha (by rw [Fresh, hl, hid])
    have hmem : id ∈ s.ids := by
      have := h.loaded j id hl
      rw [h.mem]
      omega
    intro hnodup
    exact (List.nodup_append.1 hnodup).2.2 id hmem id (List.mem_singleton_self id) rfl
  | dial | load | client => exact absurd trivial ha

theorem fresh_or_not_nodup (h : Run (seedStep residue) Any (.start n) as s) :
    Run (seedStep residue) Fresh (.start n) as s ∨ ¬ s.ids.Nodup := by
  refine h.history (I := fun bs u ↦ Run (seedStep residue) Fresh (.start n) bs u ∨ ¬ u.ids.Nodup)
    (fun bs u a v hu _ hv ↦ ?_) (.inl (.nil _))
  rcases hu with hrun | hdup
  · by_cases ha : Fresh u a
    · exact .inl (hrun.trans (.one ha hv))
    · exact .inr (not_nodup_of_stale (counted_of_run hrun) ha hv)
  · obtain ⟨ids, hids⟩ := ids_step hv
    refine .inr fun hnodup ↦ hdup ?_
    rw [hids] at hnodup
    exact (List.nodup_append.1 hnodup).1

/-- Whatever the threads do, all connections have ids of their own exactly when every store finds
the seed that its call has loaded. -/
theorem ids_are_distinct_iff (h : Run (seedStep residue) Any (.start n) as s) :
    s.ids.Nodup ↔ Run (seedStep residue) Fresh (.start n) as s :=
  ⟨fun hnodup ↦ (fresh_or_not_nodup h).resolve_right fun hdup ↦ hdup hnodup,
    fun hrun ↦ (counted_of_run hrun).nodup⟩

/-- The step of the client that a step amounts to: a call gets its id with its store. -/
def SeedAction.onClient (s : Seeding) : SeedAction → Option Action
  | .store j =>
    match s.dialings[j]? with
    | some (.storing host port kind _) => some (.connect host port kind)
    | _ => none
  | .client a => some a
  | .dial _ _ _ | .load _ => none

/-- As long as no store is stale, `connect` can be taken for one step. -/
theorem client_run (h : Run (seedStep residue) Fresh (.start n) as s) :
    Run (step residue) Any (start n)
      (traced (seedStep residue) SeedAction.onClient (.start n) as) s.client := by
  refine h.simulate Seeding.client SeedAction.onClient fun bs u a v hu ha hv ↦ ?_
  cases a with
  | dial | load =>
    cases seedStep_numbers hv
    rfl
  | store j =>
    cases seedStep_numbers hv with
    | @store _ host port kind id hj =>
      simp only [Fresh, Seeding.loaded, hj, Option.bind_some, Dialing.loaded,
        Option.some.injEq] at ha
      subst ha
      have hlt := (counted_of_run hu).loaded j (u.client.connectionIdSeed + 1)
        (by rw [Seeding.loaded, hj]; rfl)
      simp only [SeedAction.onClient, hj, Shown]
      exact if_pos (by omega)
  | client a =>
    simp only [seedStep] at hv
    split_ifs at hv
    obtain ⟨client, hc, rfl⟩ := Option.map_eq_some_iff.1 hv
    exact hc

end

def inTurn : List SeedAction :=
  [.dial "a" 1 5, .load 0, .dial "b" 2 5, .store 0, .load 1, .store 1]

theorem ids_in_turn_are_distinct :
    ∃ s, Run (seedStep id) Any (.start 2) inTurn s ∧ s.ids = [1, 2] ∧ s.ids.Nodup := by
  obtain ⟨s, hs, hids⟩ : ∃ s, Run (seedStep id) Fresh (.start 2) inTurn s ∧ s.ids = [1, 2] :=
    Run.exists_of_execute (by decide +kernel)
  exact ⟨s, hs.any, hids, (ids_are_distinct_iff hs.any).2 hs⟩

/-- Both calls load the seed before either stores its successor. -/
theorem lost_update_repeats_an_id :
    ∃ s, Run (seedStep id) Any (.start 2)
        [.dial "a" 1 5, .dial "b" 2 5, .load 0, .load 1, .store 0, .store 1] s ∧
      (s.ids = [1, 1] ∧ s.client.pcAt 0 = some (.pushing ⟨"a", 1, 1, 5, -1, none⟩) ∧
        s.client.pcAt 1 = some (.pushing ⟨"b", 2, 1, 5, -1, none⟩)) :=
  Run.exists_of_execute (by decide +kernel)

end MusicRemote.Client
