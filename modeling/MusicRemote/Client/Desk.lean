import MusicRemote.Client.Connections
import MusicRemote.Foundation.Lists

namespace MusicRemote.Client

open Foundation

structure Target where
  id : ℤ
  host : String
  port : ℤ
  kind : ℤ
  deriving DecidableEq

def Connection.target (conn : Connection) : Target := ⟨conn.id, conn.host, conn.port, conn.kind⟩

def Opening.target (o : Opening) : Target := ⟨o.id, o.host, o.port.toNat, o.kind⟩

inductive Stage
  | inserting
  | tagging
  | configuring
  | opening
  deriving DecidableEq

/-- What `doConnect` works on. A flight is a call that has taken a connection and not yet
opened it. -/
@[ext]
structure Desk where
  queue : List Connection
  remnant : Connection
  entry : ℤ → Option ℤ
  ival : ℕ → ℤ
  remote : ℕ → String × UInt16
  flight : ℕ → Option (Stage × ℕ)
  opens : List Opening
  owed : List Connection

/-- The moves of a desk where each connection that is taken is the only one waiting, and no
other comes before it has been opened. If they are faithful, the channel gets the endpoint and
the kind of that connection. -/
inductive Desk.Move (faithful : Bool) (d : Desk) : Desk → Prop
  | stay : Move faithful d d
  | push (conn : Connection) : (∀ i, d.flight i = none) → 0 < conn.id →
      (∀ c ∈ d.owed, c.id ≠ conn.id) →
      Move faithful d { d with queue := d.queue ++ [conn], owed := d.owed ++ [conn] }
  | take {conn : Connection} (k channel : ℕ) : d.queue = [conn] → Move faithful d { d with
      queue := []
      remnant := { conn with channel := channel }
      flight := Function.update d.flight k (some (.inserting, channel)) }
  | insert {k channel : ℕ} : d.flight k = some (.inserting, channel) → Move faithful d { d with
      entry := Function.update d.entry d.remnant.id
        (some ((d.entry d.remnant.id).getD d.remnant.channel))
      flight := Function.update d.flight k (some (.tagging, channel)) }
  | tag {k channel : ℕ} : d.flight k = some (.tagging, channel) → Move faithful d { d with
      ival := Function.update d.ival channel d.remnant.id
      flight := Function.update d.flight k (some (.configuring, channel)) }
  | configure {k channel : ℕ} (host : String) (port : UInt16) :
      d.flight k = some (.configuring, channel) →
      (faithful = true → host = d.remnant.host ∧ (port.toNat : ℤ) = d.remnant.port) →
      Move faithful d { d with
        remote := Function.update d.remote channel (host, port)
        flight := Function.update d.flight k (some (.opening, channel)) }
  | launch {k channel : ℕ} (kind : ℤ) : d.flight k = some (.opening, channel) →
      (faithful = true → kind = d.remnant.kind) → Move faithful d { d with
        opens := d.opens ++ [⟨channel, d.ival channel, (d.remote channel).1,
          (d.remote channel).2, kind, d.entry (d.ival channel)⟩]
        flight := Function.update d.flight k none }
  | release {j : ℕ} : (∀ i stage, d.flight i ≠ some (stage, j)) → Move faithful d { d with
      entry := Function.update d.entry (d.ival j) none
      ival := Function.update d.ival j (-1) }
  | remove {conn : Connection} (r : Connection) : conn ∈ d.queue → Move faithful d { d with
      queue := d.queue.eraseP (·.id = conn.id)
      remnant := r
      owed := d.owed.eraseP (·.id = conn.id) }

theorem Desk.Move.of_eq {faithful : Bool} {d d' : Desk} (h : d' = d) : d.Move faithful d' :=
  h ▸ .stay

def Desk.Staged (d : Desk) (channel : ℕ) : Stage → Prop
  | .inserting => d.remnant.channel = channel ∧ d.entry d.remnant.id = none
  | .tagging => d.entry d.remnant.id = some (channel : ℤ)
  | .configuring | .opening =>
    d.entry d.remnant.id = some (channel : ℤ) ∧ d.ival channel = d.remnant.id

/-- Everything owed has been opened, is being opened, or waits, in this order. Only the ids are
compared here. -/
structure Desk.Serving (d : Desk) : Prop where
  nodup : (d.owed.map Connection.id).Nodup
  positive : ∀ c ∈ d.owed, 0 < c.id
  alone : ∀ i j, d.flight i ≠ none → d.flight j ≠ none → i = j
  idle : (∀ i, d.flight i = none) →
    d.opens.map Opening.id ++ d.queue.map Connection.id = d.owed.map Connection.id
  carried : ∀ i stage channel, d.flight i = some (stage, channel) → d.queue = [] ∧
    d.opens.map Opening.id ++ [d.remnant.id] = d.owed.map Connection.id ∧
    d.Staged channel stage
  entries : ∀ id, d.entry id ≠ none → id ∈ d.opens.map Opening.id ∨
    (∃ i, d.flight i ≠ none) ∧ id = d.remnant.id
  ivals : ∀ j, d.ival j ≤ 0 ∨ d.ival j ∈ d.opens.map Opening.id ∨
    ∃ i stage, d.flight i = some (stage, j)
  correct : ∀ o ∈ d.opens, o.entry = some (o.channel : ℤ)

namespace Desk.Serving

variable {d d' : Desk}

theorem no_flight (h : d.Serving) (hq : d.queue ≠ []) (i : ℕ) : d.flight i = none := by
  rcases hf : d.flight i with _ | ⟨stage, channel⟩
  · rfl
  · exact absurd (h.carried i stage channel hf).1 hq

theorem other_flight (h : d.Serving) {k i : ℕ} {x : Stage × ℕ} (hk : d.flight k = some x)
    (hi : i ≠ k) : d.flight i = none := by
  by_contra hne
  exact hi (h.alone i k hne (by rw [hk]; nofun))

/-- What a call in flight carries is the next one owed. -/
theorem ids_isPrefix (h : d.Serving) :
    (d.opens.map Opening.id).IsPrefix (d.owed.map Connection.id) := by
  by_cases hf : ∀ i, d.flight i = none
  · exact ⟨_, h.idle hf⟩
  · rw [not_forall] at hf
    obtain ⟨i, hi⟩ := hf
    obtain ⟨⟨stage, channel⟩, hi⟩ := Option.ne_none_iff_exists'.1 hi
    exact ⟨_, (h.carried i stage channel hi).2.1⟩

theorem nodup_opens (h : d.Serving) : (d.opens.map Opening.id).Nodup :=
  h.nodup.sublist h.ids_isPrefix.sublist

theorem opened (h : d.Serving) {id : ℤ} (ho : id ∈ d.opens.map Opening.id) :
    ∃ c ∈ d.owed, c.id = id :=
  List.mem_map.1 (h.ids_isPrefix.subset ho)

theorem push (h : d.Serving) {conn : Connection} (hf : ∀ i, d.flight i = none)
    (hpos : 0 < conn.id) (hfresh : ∀ c ∈ d.owed, c.id ≠ conn.id) :
    Serving { d with queue := d.queue ++ [conn], owed := d.owed ++ [conn] } where
  nodup := by
    rw [List.map_append, List.nodup_append]
    refine ⟨h.nodup, List.nodup_singleton _, fun a ha b hb ↦ ?_⟩
    obtain ⟨c, hc, rfl⟩ := List.mem_map.1 ha
    rw [List.map_singleton, List.mem_singleton] at hb
    exact hb ▸ hfresh c hc
  positive c hc := by
    rcases List.mem_append.1 hc with hc | hc
    · exact h.positive c hc
    · exact List.mem_singleton.1 hc ▸ hpos
  alone i _ hi := absurd (hf i) hi
  idle _ := by
    rw [List.map_append, List.map_append, ← List.append_assoc, h.idle hf]
  carried i _ _ hi := absurd ((hf i).symm.trans hi) nofun
  entries := h.entries
  ivals := h.ivals
  correct := h.correct

theorem not_opened (h : d.Serving) {id : ℤ}
    (ho : d.opens.map Opening.id ++ [id] = d.owed.map Connection.id) :
    id ∉ d.opens.map Opening.id ∧ 0 < id := by
  have hn := h.nodup
  rw [← ho, List.nodup_append] at hn
  have hmem : id ∈ d.owed.map Connection.id := by
    rw [← ho]
    exact List.mem_append_right _ (List.mem_singleton_self id)
  obtain ⟨c, hc, rfl⟩ := List.mem_map.1 hmem
  exact ⟨fun hm ↦ hn.2.2 _ hm _ (List.mem_singleton_self _) rfl, h.positive c hc⟩

theorem carried_new (h : d.Serving) {k : ℕ} {x : Stage × ℕ} (hk : d.flight k = some x) :
    d.remnant.id ∉ d.opens.map Opening.id ∧ 0 < d.remnant.id :=
  h.not_opened (h.carried k x.1 x.2 hk).2.1

theorem entry_pos (h : d.Serving) {id : ℤ} (he : d.entry id ≠ none) : 0 < id := by
  rcases h.entries id he with ho | ⟨⟨i, hi⟩, rfl⟩
  · obtain ⟨c, hc, rfl⟩ := h.opened ho
    exact h.positive c hc
  · obtain ⟨x, hi⟩ := Option.ne_none_iff_exists'.1 hi
    exact (h.carried_new hi).2

theorem only_flight {f : ℕ → Option (Stage × ℕ)} {k i : ℕ} {x y : Option (Stage × ℕ)}
    (hf : ∀ i, i ≠ k → f i = none) (hi : Function.update f k x i = y) (hy : y ≠ none) :
    i = k ∧ x = y := by
  by_cases hk : i = k
  · subst hk
    exact ⟨rfl, by rwa [Function.update_self] at hi⟩
  · rw [Function.update_of_ne hk, hf i hk] at hi
    exact absurd hi.symm hy

theorem alone_update {f : ℕ → Option (Stage × ℕ)} {k : ℕ} {x : Option (Stage × ℕ)}
    (hf : ∀ i, i ≠ k → f i = none) (i j : ℕ) (hi : Function.update f k x i ≠ none)
    (hj : Function.update f k x j ≠ none) : i = j :=
  (only_flight hf rfl hi).1.trans (only_flight hf rfl hj).1.symm

theorem not_idle {f : ℕ → Option (Stage × ℕ)} {k : ℕ} {x : Stage × ℕ} :
    ¬ ∀ i, Function.update f k (some x) i = none :=
  fun h ↦ absurd ((Function.update_self k (some x) f).symm.trans (h k)) nofun

theorem take (h : d.Serving) {conn : Connection} (k channel : ℕ) (hq : d.queue = [conn]) :
    Serving { d with
      queue := []
      remnant := { conn with channel := channel }
      flight := Function.update d.flight k (some (.inserting, channel)) } := by
  -- A connection waits, so no call is in flight.
  have hf : ∀ i, d.flight i = none := h.no_flight (by rw [hq]; nofun)
  have ho : d.opens.map Opening.id ++ [conn.id] = d.owed.map Connection.id := by
    simpa only [hq, List.map_singleton] using h.idle hf
  have hconn := h.not_opened ho
  have hnone : d.entry conn.id = none := by
    by_contra hne
    rcases h.entries conn.id hne with hm | ⟨⟨i, hi⟩, -⟩
    · exact hconn.1 hm
    · exact hi (hf i)
  refine ⟨h.nodup, h.positive, alone_update (fun i _ ↦ hf i), fun hn ↦ absurd hn not_idle,
    fun i stage ch hi ↦ ?_, fun id hid ↦ ?_, fun j ↦ ?_, h.correct⟩
  · obtain ⟨-, hx⟩ := only_flight (fun i _ ↦ hf i) hi nofun
    cases hx
    exact ⟨rfl, ho, rfl, hnone⟩
  · rcases h.entries id hid with hm | ⟨⟨i, hi⟩, -⟩
    · exact .inl hm
    · exact absurd (hf i) hi
  · rcases h.ivals j with hj | hj | ⟨i, stage, hi⟩
    · exact .inl hj
    · exact .inr (.inl hj)
    · exact absurd ((hf i).symm.trans hi) nofun

section

variable {k channel : ℕ} {stage : Stage}

/-- A flight goes on to its next stage. It touches its own entry and channel only. -/
theorem fly (h : d.Serving) (hk : d.flight k = some (stage, channel)) {entry : ℤ → Option ℤ}
    {ival : ℕ → ℤ} {remote : ℕ → String × UInt16} {next : Stage}
    (he : ∀ id, id ≠ d.remnant.id → entry id = d.entry id)
    (hv : ∀ j, j ≠ channel → ival j = d.ival j)
    (hs : Staged { d with entry := entry, ival := ival, remote := remote } channel next) :
    Serving { d with
      entry := entry
      ival := ival
      remote := remote
      flight := Function.update d.flight k (some (next, channel)) } := by
  have hf : ∀ i, i ≠ k → d.flight i = none := fun i ↦ h.other_flight hk
  obtain ⟨hq, ho, -⟩ := h.carried k _ _ hk
  refine ⟨h.nodup, h.positive, alone_update hf, fun hn ↦ absurd hn not_idle,
    fun i stage ch hi ↦ ?_, fun id hid ↦ ?_, fun j ↦ ?_, h.correct⟩
  · obtain ⟨-, hx⟩ := only_flight hf hi nofun
    cases hx
    exact ⟨hq, ho, hs⟩
  · by_cases hr : id = d.remnant.id
    · exact .inr ⟨⟨k, (Function.update_self k _ d.flight).trans_ne nofun⟩, hr⟩
    · exact (h.entries id (he id hr ▸ hid)).imp_right fun hm ↦ absurd hm.2 hr
  · by_cases hj : j = channel
    · exact .inr (.inr ⟨k, next, hj ▸ Function.update_self ..⟩)
    · dsimp only
      rw [hv j hj]
      refine (h.ivals j).imp_right (Or.imp_right ?_)
      rintro ⟨i, stage', hi⟩
      by_cases hik : i = k
      · rw [hik, hk] at hi
        cases hi
        exact absurd rfl hj
      · exact absurd ((hf i hik).symm.trans hi) nofun

theorem insert (h : d.Serving) (hk : d.flight k = some (.inserting, channel)) :
    Serving { d with
      entry := Function.update d.entry d.remnant.id
        (some ((d.entry d.remnant.id).getD d.remnant.channel))
      flight := Function.update d.flight k (some (.tagging, channel)) } := by
  obtain ⟨-, -, hc, hnone⟩ := h.carried k _ _ hk
  refine h.fly hk (fun id hid ↦ Function.update_of_ne hid ..) (fun _ _ ↦ rfl) ?_
  simp only [Staged, Function.update_self, hnone, hc, Option.getD_none]

theorem tag (h : d.Serving) (hk : d.flight k = some (.tagging, channel)) :
    Serving { d with
      ival := Function.update d.ival channel d.remnant.id
      flight := Function.update d.flight k (some (.configuring, channel)) } := by
  obtain ⟨-, -, hs⟩ := h.carried k _ _ hk
  exact h.fly hk (fun _ _ ↦ rfl) (fun j hj ↦ Function.update_of_ne hj ..)
    ⟨hs, Function.update_self ..⟩

theorem configure (h : d.Serving) (hk : d.flight k = some (.configuring, channel))
    (remote : String × UInt16) :
    Serving { d with
      remote := Function.update d.remote channel remote
      flight := Function.update d.flight k (some (.opening, channel)) } := by
  obtain ⟨-, -, hs⟩ := h.carried k _ _ hk
  exact h.fly hk (fun _ _ ↦ rfl) (fun _ _ ↦ rfl) hs

theorem launch (h : d.Serving) (hk : d.flight k = some (.opening, channel)) (kind : ℤ) :
    Serving { d with
      opens := d.opens ++ [⟨channel, d.ival channel, (d.remote channel).1, (d.remote channel).2,
        kind, d.entry (d.ival channel)⟩]
      flight := Function.update d.flight k none } := by
  have hf : ∀ i, i ≠ k → d.flight i = none := fun i ↦ h.other_flight hk
  obtain ⟨hq, ho, he, hv⟩ := h.carried k _ _ hk
  have hn : ∀ i, Function.update d.flight k none i = none := by
    intro i
    by_contra hne
    exact hne (only_flight hf rfl hne).2.symm
  have hid : ∀ o : Opening, (d.opens ++ [o]).map Opening.id = d.opens.map Opening.id ++ [o.id] :=
    fun o ↦ by rw [List.map_append, List.map_singleton]
  refine ⟨h.nodup, h.positive, fun i _ hi ↦ absurd (hn i) hi, fun _ ↦ ?_,
    fun i _ _ hi ↦ absurd ((hn i).symm.trans hi) nofun, fun id hne ↦ .inl ?_, fun j ↦ ?_,
    fun o hm ↦ ?_⟩
  · dsimp only
    rw [← ho, hq, hid, hv, List.map_nil, List.append_nil]
  · dsimp only
    rw [hid, hv, List.mem_append, List.mem_singleton]
    exact (h.entries id hne).imp_right fun hm ↦ hm.2
  · dsimp only
    rw [hid, List.mem_append, List.mem_singleton]
    rcases h.ivals j with hj | hj | ⟨i, stage, hi⟩
    · exact .inl hj
    · exact .inr (.inl (.inl hj))
    · obtain rfl : i = k := h.alone i k (hi.trans_ne nofun) (hk.trans_ne nofun)
      rw [hk] at hi
      cases hi
      exact .inr (.inl (.inr rfl))
  · rcases List.mem_append.1 hm with hm | hm
    · exact h.correct o hm
    · rw [List.mem_singleton.1 hm, hv, he]

end

theorem release (h : d.Serving) {j : ℕ} (hj : ∀ i stage, d.flight i ≠ some (stage, j)) :
    Serving { d with
      entry := Function.update d.entry (d.ival j) none
      ival := Function.update d.ival j (-1) } := by
  refine ⟨h.nodup, h.positive, h.alone, h.idle, fun i stage channel hi ↦ ?_, fun id hid ↦ ?_,
    fun j' ↦ ?_, h.correct⟩
  · obtain ⟨hq, ho, hs⟩ := h.carried i stage channel hi
    have hx := h.carried_new hi
    -- The id on `j` has been opened before or is none at all, unlike the one in flight.
    have hne : d.remnant.id ≠ d.ival j := by
      intro he
      rcases h.ivals j with hle | hm | ⟨i', stage', hi'⟩
      · omega
      · exact hx.1 (he ▸ hm)
      · exact hj i' stage' hi'
    have hch : channel ≠ j := by
      rintro rfl
      exact hj i stage hi
    refine ⟨hq, ho, ?_⟩
    cases stage <;>
      simpa only [Staged, Function.update_of_ne hne, Function.update_of_ne hch] using hs
  · refine h.entries id fun he ↦ hid ?_
    by_cases hv : id = d.ival j
    · subst hv
      exact Function.update_self ..
    · rw [← he]
      exact Function.update_of_ne hv ..
  · by_cases hv : j' = j
    · subst hv
      left
      simp
    · simpa only [Function.update_of_ne hv] using h.ivals j'

theorem ne_of_queued (h : d.Serving) (hf : ∀ i, d.flight i = none) {id : ℤ} {conn : Connection}
    (ho : id ∈ d.opens.map Opening.id) (hc : conn ∈ d.queue) : id ≠ conn.id := by
  have hn := h.nodup
  rw [← h.idle hf, List.nodup_append] at hn
  exact hn.2.2 id ho conn.id (List.mem_map_of_mem hc)

theorem remove (h : d.Serving) {conn : Connection} (r : Connection) (hc : conn ∈ d.queue) :
    Serving { d with
      queue := d.queue.eraseP (·.id = conn.id)
      remnant := r
      owed := d.owed.eraseP (·.id = conn.id) } := by
  have hf : ∀ i, d.flight i = none := h.no_flight (List.ne_nil_of_mem hc)
  have ho := h.idle hf
  refine ⟨(List.eraseP_sublist.map _).nodup h.nodup,
    fun c hc ↦ h.positive c (List.mem_of_mem_eraseP hc), fun i _ hi ↦ absurd (hf i) hi,
    fun _ ↦ ?_, fun i _ _ hi ↦ absurd ((hf i).symm.trans hi) nofun,
    fun id hid ↦ (h.entries id hid).imp_right fun hm ↦ absurd (hf _) hm.1.choose_spec, fun j ↦ ?_,
    h.correct⟩
  · have herase : ∀ l : List Connection, (l.eraseP (·.id = conn.id)).map Connection.id =
        (l.map Connection.id).eraseP (· = conn.id) := fun l ↦ by
      rw [List.eraseP_map]
      rfl
    dsimp only
    rw [herase, herase, ← ho, List.eraseP_append_right]
    -- The id has not been opened, so the erase passes over all that have.
    intro id hid
    simpa using h.ne_of_queued hf hid hc
  · exact h.ivals j

theorem move {faithful : Bool} (h : d.Serving) (hm : d.Move faithful d') : d'.Serving := by
  cases hm with
  | stay => exact h
  | push conn hf hpos hfresh => exact h.push hf hpos hfresh
  | take k channel hq => exact h.take k channel hq
  | insert hk => exact h.insert hk
  | tag hk => exact h.tag hk
  | configure host port hk _ => exact h.configure hk (host, port)
  | launch kind hk _ => exact h.launch hk kind
  | release hj => exact h.release hj
  | remove r hc => exact h.remove r hc

end Desk.Serving

/-- What waits, is being opened or has been opened has the target of something owed. -/
structure Desk.Aimed (d : Desk) : Prop where
  queue : ∀ c ∈ d.queue, c ∈ d.owed
  flight : ∀ i, d.flight i ≠ none → d.remnant.target ∈ d.owed.map Connection.target
  remote : ∀ i channel, d.flight i = some (.opening, channel) →
    (d.remote channel).1 = d.remnant.host ∧ ((d.remote channel).2.toNat : ℤ) = d.remnant.port
  opens : ∀ o ∈ d.opens, o.target ∈ d.owed.map Connection.target

namespace Desk.Aimed

variable {d d' : Desk} {k channel : ℕ}

/-- A flight goes on to a stage before the open. -/
theorem fly (h : d.Aimed) (hs : d.Serving) {stage next : Stage}
    (hk : d.flight k = some (stage, channel)) (hnext : next ≠ .opening) (entry : ℤ → Option ℤ)
    (ival : ℕ → ℤ) :
    Aimed { d with
      entry := entry
      ival := ival
      flight := Function.update d.flight k (some (next, channel)) } where
  queue := h.queue
  flight _ _ := h.flight k (hk.trans_ne nofun)
  remote i j hi := by
    obtain ⟨-, hx⟩ := Serving.only_flight (fun i ↦ hs.other_flight hk) hi nofun
    cases hx
    exact absurd rfl hnext
  opens := h.opens

theorem push (h : d.Aimed) {conn : Connection} (hf : ∀ i, d.flight i = none) :
    Aimed { d with queue := d.queue ++ [conn], owed := d.owed ++ [conn] } where
  queue c hc := by
    rcases List.mem_append.1 hc with hc | hc
    · exact List.mem_append_left _ (h.queue c hc)
    · exact List.mem_append_right _ hc
  flight i hi := absurd (hf i) hi
  remote i _ hi := absurd ((hf i).symm.trans hi) nofun
  opens o ho := by
    rw [List.map_append]
    exact List.mem_append_left _ (h.opens o ho)

theorem take (h : d.Aimed) (hs : d.Serving) {conn : Connection} (hq : d.queue = [conn]) :
    Aimed { d with
      queue := []
      remnant := { conn with channel := channel }
      flight := Function.update d.flight k (some (.inserting, channel)) } where
  queue _ hc := absurd hc List.not_mem_nil
  flight _ _ := List.mem_map.2 ⟨conn, h.queue conn (by simp [hq]), rfl⟩
  remote i j hi := by
    have hf : ∀ i, d.flight i = none := hs.no_flight (by rw [hq]; nofun)
    obtain ⟨-, hx⟩ := Serving.only_flight (fun i _ ↦ hf i) hi nofun
    cases hx
  opens := h.opens

theorem configure (h : d.Aimed) (hs : d.Serving) (hk : d.flight k = some (.configuring, channel))
    {remote : String × UInt16}
    (hr : remote.1 = d.remnant.host ∧ (remote.2.toNat : ℤ) = d.remnant.port) :
    Aimed { d with
      remote := Function.update d.remote channel remote
      flight := Function.update d.flight k (some (.opening, channel)) } where
  queue := h.queue
  flight _ _ := h.flight k (hk.trans_ne nofun)
  remote i j hi := by
    obtain ⟨-, hx⟩ := Serving.only_flight (fun i ↦ hs.other_flight hk) hi nofun
    cases hx
    dsimp only
    rwa [Function.update_self]
  opens := h.opens

theorem launch (h : d.Aimed) (hs : d.Serving) (hk : d.flight k = some (.opening, channel))
    {o : Opening} (ho : o.target = ⟨d.ival channel, (d.remote channel).1,
      ((d.remote channel).2.toNat : ℤ), d.remnant.kind⟩) :
    Aimed { d with opens := d.opens ++ [o], flight := Function.update d.flight k none } where
  queue := h.queue
  flight _ _ := h.flight k (hk.trans_ne nofun)
  remote i j hi := by
    obtain ⟨-, hx⟩ := Serving.only_flight (fun i ↦ hs.other_flight hk) hi nofun
    cases hx
  opens o' ho' := by
    rcases List.mem_append.1 ho' with ho' | ho'
    · exact h.opens o' ho'
    · obtain ⟨-, -, -, hv⟩ := hs.carried k _ _ hk
      obtain ⟨hhost, hport⟩ := h.remote k channel hk
      rw [List.mem_singleton.1 ho', ho, hv, hhost, hport]
      exact h.flight k (hk.trans_ne nofun)

theorem remove (h : d.Aimed) (hs : d.Serving) {conn : Connection} (r : Connection)
    (hc : conn ∈ d.queue) :
    Aimed { d with
      queue := d.queue.eraseP (·.id = conn.id)
      remnant := r
      owed := d.owed.eraseP (·.id = conn.id) } := by
  have hf : ∀ i, d.flight i = none := hs.no_flight (List.ne_nil_of_mem hc)
  have hkept {c : Connection} (hmem : c ∈ d.owed) (hne : c.id ≠ conn.id) :
      c ∈ d.owed.eraseP (·.id = conn.id) :=
    (List.mem_eraseP_of_neg (by simpa using hne)).2 hmem
  refine ⟨fun c hmem ↦ ?_, fun i hi ↦ absurd (hf i) hi,
    fun i _ hi ↦ absurd ((hf i).symm.trans hi) nofun, fun o ho ↦ ?_⟩
  · have hn := hs.nodup
    rw [← hs.idle hf, List.nodup_append] at hn
    exact hkept (h.queue c (List.mem_of_mem_eraseP hmem)) (ne_of_mem_eraseP hn.2.1 hmem)
  · obtain ⟨c, hmem, htarget⟩ := List.mem_map.1 (h.opens o ho)
    have hid : c.id = o.id := congrArg Target.id htarget
    have hne := hs.ne_of_queued hf (List.mem_map_of_mem ho) hc
    exact htarget ▸ List.mem_map_of_mem (hkept hmem (hid ▸ hne))

theorem move (h : d.Aimed) (hs : d.Serving) (hm : d.Move true d') : d'.Aimed := by
  cases hm with
  | stay => exact h
  | push conn hf => exact h.push hf
  | take k channel hq => exact h.take hs hq
  | insert hk => exact h.fly hs hk (by decide) _ _
  | tag hk => exact h.fly hs hk (by decide) _ _
  | configure host port hk hr => exact h.configure hs hk (hr rfl)
  | launch kind hk hkind =>
    refine h.launch hs hk ?_
    rw [Opening.target, hkind rfl]
  | release => exact ⟨h.queue, h.flight, h.remote, h.opens⟩
  | remove r hc => exact h.remove hs r hc

theorem idle (h : d.Aimed) (hs : d.Serving) (hf : ∀ i, d.flight i = none) :
    d.opens.map Opening.target ++ d.queue.map Connection.target =
      d.owed.map Connection.target := by
  refine eq_of_map_eq Target.id ?_ ?_ fun x hx ↦ ?_
  · simpa [Function.comp_def, Connection.target] using hs.nodup
  · simpa [Function.comp_def, Connection.target, Opening.target] using hs.idle hf
  · rcases List.mem_append.1 hx with hx | hx
    · obtain ⟨o, ho, rfl⟩ := List.mem_map.1 hx
      exact h.opens o ho
    · obtain ⟨c, hc, rfl⟩ := List.mem_map.1 hx
      exact List.mem_map_of_mem (h.queue c hc)

theorem carried (h : d.Aimed) (hs : d.Serving) {x : Stage × ℕ} (hk : d.flight k = some x) :
    d.opens.map Opening.target ++ [d.remnant.target] = d.owed.map Connection.target := by
  refine eq_of_map_eq Target.id ?_ ?_ fun x hx ↦ ?_
  · simpa [Function.comp_def, Connection.target] using hs.nodup
  · simpa [Function.comp_def, Connection.target, Opening.target] using
      (hs.carried k x.1 x.2 hk).2.1
  · rcases List.mem_append.1 hx with hx | hx
    · obtain ⟨o, ho, rfl⟩ := List.mem_map.1 hx
      exact h.opens o ho
    · rw [List.mem_singleton.1 hx]
      exact h.flight k (hk.trans_ne nofun)

/-- What a call in flight carries is the next one owed. -/
theorem opens_isPrefix (h : d.Aimed) (hs : d.Serving) :
    (d.opens.map Opening.target).IsPrefix (d.owed.map Connection.target) := by
  by_cases hf : ∀ i, d.flight i = none
  · exact ⟨_, h.idle hs hf⟩
  · rw [not_forall] at hf
    obtain ⟨i, hi⟩ := hf
    obtain ⟨x, hi⟩ := Option.ne_none_iff_exists'.1 hi
    exact ⟨_, h.carried hs hi⟩

end Desk.Aimed

end MusicRemote.Client
