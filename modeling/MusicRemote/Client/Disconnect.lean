import MusicRemote.Client.Queue

namespace MusicRemote.Client

open Foundation Foundation.Transition

namespace Desk

variable {d d' : Desk}

def OnChannel (d : Desk) (id : ℤ) (channel : ℕ) : Prop :=
  (∀ o ∈ d.opens, o.id = id → o.channel = channel) ∧
    (id ∈ d.opens.map Opening.id ∨
      ∃ k stage, d.flight k = some (stage, channel) ∧ d.remnant.id = id)

def Located (d : Desk) : Prop := ∀ o ∈ d.opens, ∀ c, d.entry o.id = some c → c = o.channel

theorem Serving.queued (h : d.Serving) {conn : Connection} (hc : conn ∈ d.queue) :
    ∃ c ∈ d.owed, c.id = conn.id := by
  rw [← List.mem_map, ← h.idle (h.no_flight (List.ne_nil_of_mem hc))]
  exact List.mem_append_right _ (List.mem_map_of_mem hc)

/-- Everything owed has been opened, waits, or is being opened. -/
theorem Serving.place (h : d.Serving) {c : Connection} (hc : c ∈ d.owed) :
    c.id ∈ d.opens.map Opening.id ∨ (∃ conn ∈ d.queue, conn.id = c.id) ∨
      ∃ i stage channel, d.flight i = some (stage, channel) ∧ d.remnant.id = c.id := by
  have hmem : c.id ∈ d.owed.map Connection.id := List.mem_map_of_mem hc
  by_cases hf : ∀ i, d.flight i = none
  · rw [← h.idle hf, List.mem_append] at hmem
    exact hmem.imp_right fun hq ↦ .inl (List.mem_map.1 hq)
  · rw [not_forall] at hf
    obtain ⟨i, hi⟩ := hf
    obtain ⟨⟨stage, channel⟩, hi⟩ := Option.ne_none_iff_exists'.1 hi
    rw [← (h.carried i stage channel hi).2.1, List.mem_append, List.mem_singleton] at hmem
    exact hmem.imp_right fun hid ↦ .inr ⟨i, stage, channel, hi, hid.symm⟩

/-- A flight keeps its channel until it is opened. -/
theorem OnChannel.fly {d : Desk} {id : ℤ} {channel : ℕ} (h : d.OnChannel id channel)
    (hs : d.Serving) {k j : ℕ} {stage : Stage} (hk : d.flight k = some (stage, j))
    (next : Stage) (entry : ℤ → Option ℤ) (ival : ℕ → ℤ) (remote : ℕ → String × UInt16) :
    OnChannel { d with
      entry := entry
      ival := ival
      remote := remote
      flight := Function.update d.flight k (some (next, j)) } id channel := by
  refine ⟨h.1, h.2.imp_right ?_⟩
  rintro ⟨i, stage', hi, hid⟩
  obtain rfl : i = k := hs.alone i k (hi.trans_ne nofun) (hk.trans_ne nofun)
  rw [hk] at hi
  cases hi
  exact ⟨i, next, Function.update_self .., hid⟩

theorem OnChannel.idle {id : ℤ} {channel : ℕ} (h : d.OnChannel id channel)
    (hf : ∀ i, d.flight i = none) : id ∈ d.opens.map Opening.id := by
  refine h.2.resolve_right ?_
  rintro ⟨k, stage, hk, -⟩
  rw [hf k] at hk
  cases hk

theorem OnChannel.launch {id : ℤ} {channel : ℕ} (h : d.OnChannel id channel) (hs : d.Serving)
    {k j : ℕ} (hk : d.flight k = some (.opening, j)) {o : Opening} (hj : o.channel = j)
    (ho : o.id = d.ival j) :
    OnChannel { d with opens := d.opens ++ [o], flight := Function.update d.flight k none }
      id channel := by
  obtain ⟨-, -, -, hv⟩ := hs.carried k _ _ hk
  have hflight : (∃ k stage, d.flight k = some (stage, channel) ∧ d.remnant.id = id) →
      j = channel ∧ d.remnant.id = id := by
    rintro ⟨i, stage, hi, hid⟩
    obtain rfl : i = k := hs.alone i k (hi.trans_ne nofun) (hk.trans_ne nofun)
    rw [hk] at hi
    cases hi
    exact ⟨rfl, hid⟩
  refine ⟨fun o' ho' hid ↦ ?_, .inl ?_⟩
  · rcases List.mem_append.1 ho' with ho' | ho'
    · exact h.1 o' ho' hid
    · rw [List.mem_singleton.1 ho'] at hid ⊢
      rw [ho, hv] at hid
      exact hj.trans (hflight (h.2.resolve_left (hid ▸ (hs.carried_new hk).1))).1
  · rw [List.map_append, List.map_singleton, List.mem_append, List.mem_singleton, ho, hv]
    exact h.2.imp_right fun hf ↦ (hflight hf).2.symm

theorem OnChannel.move {id : ℤ} {channel : ℕ} (h : d.OnChannel id channel) (hs : d.Serving)
    (hm : d.Move false d') : d'.OnChannel id channel := by
  cases hm with
  | stay | push | release => exact h
  | take k j hq => exact ⟨h.1, .inl (h.idle (hs.no_flight (by rw [hq]; nofun)))⟩
  | insert hk => exact h.fly hs hk _ _ _ _
  | tag hk => exact h.fly hs hk _ _ _ _
  | configure _ _ hk => exact h.fly hs hk _ _ _ _
  | launch _ hk => exact h.launch hs hk rfl rfl
  | remove r hc => exact ⟨h.1, .inl (h.idle (hs.no_flight (List.ne_nil_of_mem hc)))⟩

theorem Located.move (h : d.Located) (hs : d.Serving) (hm : d.Move false d') : d'.Located := by
  cases hm with
  | stay | push | take | tag | configure | remove => exact h
  | insert hk =>
    intro o ho c hc
    refine h o ho c ((Function.update_of_ne ?_ ..).symm.trans hc)
    intro hid
    exact (hs.carried_new hk).1 (hid ▸ List.mem_map_of_mem ho)
  | launch kind hk =>
    obtain ⟨-, -, he, hv⟩ := hs.carried _ _ _ hk
    intro o ho c hc
    rcases List.mem_append.1 ho with ho | ho
    · exact h o ho c hc
    · rw [List.mem_singleton.1 ho, hv] at hc
      rw [List.mem_singleton.1 ho]
      exact Option.some.inj (hc.symm.trans he)
  | release hj =>
    rename_i j
    intro o ho c hc
    refine h o ho c ((Function.update_of_ne ?_ ..).symm.trans hc)
    intro hid
    rw [hid] at hc
    cases (Function.update_self ..).symm.trans hc

theorem Move.opened {id : ℤ} (hs : d.Serving) (hm : d.Move false d')
    (ho : id ∈ d'.opens.map Opening.id) : id ∈ d.opens.map Opening.id ∨ d'.entry id ≠ none := by
  cases hm with
  | stay | push | take | insert | tag | configure | release | remove => exact .inl ho
  | launch kind hk =>
    obtain ⟨-, -, he, hv⟩ := hs.carried _ _ _ hk
    rw [List.map_append, List.map_singleton, List.mem_append, List.mem_singleton] at ho
    refine ho.imp_right fun hid ↦ ?_
    rw [hid, hv]
    exact he.trans_ne nofun

/-- An entry tells the channel of its connection. -/
theorem Located.onChannel (h : d.Located) (hs : d.Serving) {id c : ℤ}
    (he : d.entry id = some c) : ∃ channel : ℕ, c = channel ∧ d.OnChannel id channel := by
  rcases hs.entries id (he.trans_ne nofun) with ho | ⟨⟨k, hk⟩, rfl⟩
  · obtain ⟨o, hmem, rfl⟩ := List.mem_map.1 ho
    refine ⟨o.channel, h o hmem c he, fun o' ho' hid ↦ ?_, .inl ho⟩
    have hc' := h o' ho' c (hid ▸ he)
    rw [h o hmem c he] at hc'
    exact (Int.natCast_inj.1 hc').symm
  · obtain ⟨⟨stage, channel⟩, hk⟩ := Option.ne_none_iff_exists'.1 hk
    obtain ⟨-, -, hst⟩ := hs.carried k stage channel hk
    have hc : d.entry d.remnant.id = some (channel : ℤ) := by
      cases stage with
      | inserting => cases hst.2.symm.trans he
      | tagging => exact hst
      | configuring => exact hst.1
      | opening => exact hst.1
    refine ⟨channel, Option.some.inj (he.symm.trans hc), fun o ho hid ↦ ?_,
      .inr ⟨k, stage, hk, rfl⟩⟩
    exact absurd (hid ▸ List.mem_map_of_mem ho) (hs.carried_new hk).1

end Desk

def ends (id : ℤ) (s : State) (a : Action) : Bool :=
  match s.next a with
  | some (.handling event channel _) => event.isTerminal && (s.channels channel).ival = id
  | _ => false

def removes (id : ℤ) (s : State) (a : Action) : Bool :=
  s.next a = some (.erasing id) && s.connectQue.any (·.id = id)

inductive EntryChange (s : State) (a : Action) (t : State) : Prop
  | keep (entry : t.desk.entry = s.desk.entry)
  | insert (id c : ℤ) (unlocked : s.listUnlocked = true)
      (entry : t.desk.entry = Function.update s.desk.entry id (some c))
  | release (id : ℤ) (ends : ends id s a = true)
      (entry : t.desk.entry = Function.update s.desk.entry id none)

section

variable {residue : Connection → Connection} {s t u : State} {k : ℕ} {pc pc' : Pc} {a : Action}

theorem eof_entryChange {event : IoEvent} {channel : ℕ} {connectionId : ℤ}
    (h : s.pcAt k = some (.handling event channel connectionId)) (he : event.isTerminal = true) :
    EntryChange s (.advance k) ((handleNetworkEOF s channel).goto k pc') := by
  refine .release (s.channels channel).ival ?_ ?_
  · simp [ends, State.next, h, he]
  · exact Function.comp_update (Option.map Connection.channel) s.aliveConnects _ _

theorem stride_entryChange (h : s.pcAt k = some pc) (hs : Stride residue s k pc t) :
    EntryChange s (.advance k) t := by
  cases hs with
  | success transport channel id _ =>
    exact .keep (congrArg Desk.entry (desk_setTransport s id transport) :)
  | eof channel id he _ => exact eof_entryChange h he
  | insert channel hl =>
    exact .insert _ _ hl (Function.comp_update (Option.map Connection.channel) s.aliveConnects
      (s.conn residue).id (some _))
  | @close id conn _ _ => exact .keep (congrArg Desk.entry (desk_closeChannel s conn.channel) :)
  | _ => exact .keep rfl

theorem step_entryChange (ht : step residue s a = some t) : EntryChange s a t := by
  cases step_turn ht with
  | advance hpc hs => exact stride_entryChange hpc hs
  | _ => exact .keep rfl

/-- An entry stays until the terminal event of its connection is handled. -/
theorem EntryChange.kept (h : EntryChange s a t) {id : ℤ} (he : ends id s a = false)
    (hs : s.desk.entry id ≠ none) : t.desk.entry id ≠ none := by
  cases h with
  | keep entry => rwa [entry]
  | insert id' c _ entry =>
    rw [entry, Function.update_apply]
    split_ifs
    · nofun
    · exact hs
  | release id' hends entry =>
    rw [entry, Function.update_of_ne]
    · exact hs
    · rintro rfl
      rw [he] at hends
      cases hends

/-- While `disconnect` looks for a connection in the queue, there is no entry for it. -/
def State.Locked (s : State) : Prop :=
  ∀ k id, s.pcAt k = some (.erasing id) → s.desk.entry id = none

theorem EntryChange.none (h : EntryChange s a t) {k : ℕ} {id : ℤ}
    (hk : s.pcAt k = some (.erasing id)) (hs : s.desk.entry id = none) :
    t.desk.entry id = none := by
  cases h with
  | keep entry => rwa [entry]
  | insert _ _ unlocked _ =>
    -- The call that erases holds the lock.
    obtain ⟨call, hcall, hpc⟩ := Option.map_eq_some_iff.1 hk
    have hany : s.calls.any (·.pc.isErasing) = true :=
      List.any_eq_true.2 ⟨call, List.mem_of_getElem? hcall, by rw [hpc]; rfl⟩
    rw [State.listUnlocked, hany] at unlocked
    cases unlocked
  | release id' _ entry =>
    rw [entry, Function.update_apply]
    split_ifs
    · rfl
    · exact hs

theorem step_locked (h : s.Locked) (ht : step residue s a = some t) : t.Locked := by
  have hchange := step_entryChange ht
  intro i id hi
  cases step_progress ht with
  | issue host port kind _ eq =>
    refine hchange.none (k := i) ?_ (h i id ?_) <;>
    · rw [eq, connect, pcAt_spawn] at hi
      split_ifs at hi
      · cases hi
      · exact hi
  | idle pcs _ _ _ _ =>
    have hi' : s.pcAt i = some (.erasing id) := by
      rcases pcs i with heq | ⟨-, pc, heq, -, he⟩
      · exact heq ▸ hi
      · rw [Option.some.inj (heq.symm.trans hi)] at he
        cases he
    exact hchange.none hi' (h i id hi')
  | @advance k pc pc' u _ hk eq ha =>
    rw [eq, ha.pcAt hk] at hi
    split_ifs at hi with hik
    · obtain ⟨halive, hnone⟩ := ha.erasing id (Option.some.inj hi)
      rw [eq]
      simp [State.desk, State.goto, halive, hnone]
    · exact hchange.none hi (h i id hi)

structure State.Gone (s : State) (id : ℤ) : Prop where
  seed : id ≤ s.connectionIdSeed
  owed : ∀ c ∈ s.owed, c.id ≠ id
  pushing : ∀ i c, s.pcAt i = some (.pushing c) → c.id ≠ id

theorem step_gone {id : ℤ} (h : s.Gone id) (ht : step residue s a = some t) : t.Gone id := by
  cases step_progress ht with
  | issue host port kind _ eq =>
    subst eq
    refine ⟨Int.le_add_one h.seed, h.owed, fun i c hi ↦ ?_⟩
    rcases connect_pushing s host port kind hi with ⟨-, hid⟩ | hi
    · have := h.seed
      omega
    · exact h.pushing i c hi
  | idle pcs seed owed _ _ =>
    exact ⟨seed ▸ h.seed, owed ▸ h.owed,
      fun i c hi ↦ h.pushing i c (Progress.idle_pushing (pcs i) hi)⟩
  | @advance k pc pc' u _ hk eq ha =>
    subst eq
    refine ⟨(ha.seed ▸ h.seed :), fun c hc ↦ ?_,
      fun i c hi ↦ h.pushing i c (ha.pushing_goto hk hi).2⟩
    rcases ha.owed c hc with hc | rfl
    · exact h.owed c hc
    · exact h.pushing k c hk

structure State.Placed (s : State) (id : ℤ) : Prop where
  owed : ∃ c ∈ s.owed, c.id = id
  opened : id ∈ s.opens.map Opening.id → s.desk.entry id ≠ none

variable {n id : ℤ} {as : List Action}

theorem step_placed
    (hrun : Run (step residue) (fun s a ↦ served residue s a = true) (start n) as s)
    (h : s.Placed id) (ha : served residue s a = true) (he : ends id s a = false)
    (hrem : removes id s a = false) (ht : step residue s a = some t) : t.Placed id := by
  constructor
  · obtain ⟨c, hc, rfl⟩ := h.owed
    refine ⟨c, ?_, rfl⟩
    cases step_progress ht with
    | issue host port kind _ eq => exact eq ▸ hc
    | idle _ _ owed _ _ => exact owed ▸ hc
    | @advance k pc pc' u act hk eq hadv =>
      subst act eq
      refine hadv.kept c hc fun hpc ↦ ?_
      simpa [removes, State.next, hk, hpc] using hrem
  · intro ho
    have hs := serving_of_run hrun
    rcases (desk_of_run hrun ha ht).opened hs ho with ho | hne
    · exact (step_entryChange ht).kept he (h.opened ho)
    · exact hne

end

/-- A completed call of `connect` has issued the id, and the connection has neither ended nor
been removed from the queue since. -/
def Issued (residue : Connection → Connection) (n id : ℤ) (s : State) : Prop :=
  ∃ as host port kind bs u v,
    Run (step residue) (fun s a ↦ served residue s a = true) (start n) as u ∧
    step residue u (.connect host port kind) = some v ∧ id = u.connectionIdSeed + 1 ∧
    Run (step residue)
      (fun s a ↦ served residue s a = true ∧ ends id s a = false ∧ removes id s a = false) v bs s ∧
    s.pcAt u.calls.length = some .returned

section

variable {residue : Connection → Connection} {s t u : State} {k : ℕ} {a : Action} {n id : ℤ}
  {as : List Action}

theorem Issued.run (h : Issued residue n id s) :
    ∃ as, Run (step residue) (fun s a ↦ served residue s a = true) (start n) as s := by
  obtain ⟨as, host, port, kind, bs, u, v, hu, hv, -, hs, -⟩ := h
  exact ⟨_, (hu.trans (.one rfl hv)).trans (hs.mono fun _ _ h ↦ h.1)⟩

def State.Entering (s : State) (k : ℕ) (id : ℤ) : Prop :=
  ∃ conn, s.pcAt k = some (.pushing conn) ∧ conn.id = id

theorem step_entering
    (hrun : Run (step residue) (fun s a ↦ served residue s a = true) (start n) as s)
    (h : s.Entering k id) (ha : served residue s a = true) (ht : step residue s a = some t) :
    t.Entering k id ∨ t.Placed id := by
  obtain ⟨conn, hk, rfl⟩ := h
  cases step_progress ht with
  | issue host port kind _ eq =>
    refine .inl ⟨conn, ?_, rfl⟩
    obtain ⟨call, hcall, -⟩ := Option.map_eq_some_iff.1 hk
    have hlt : k < s.calls.length := (List.getElem?_eq_some_iff.1 hcall).1
    rw [eq, connect, pcAt_spawn, if_neg (Nat.ne_of_lt hlt)]
    exact hk
  | idle pcs _ _ _ _ =>
    rcases pcs k with heq | ⟨hnone, -⟩
    · exact .inl ⟨conn, heq.trans hk, rfl⟩
    · cases hnone.symm.trans hk
  | @advance i pc pc' u _ hi eq hadv =>
    by_cases hik : k = i
    · subst hik
      obtain rfl := Option.some.inj (hi.symm.trans hk)
      refine .inr ⟨⟨conn, eq ▸ hadv.pushed conn rfl, rfl⟩, fun ho ↦ ?_⟩
      have hs := serving_of_run hrun
      refine ((desk_of_run hrun ha ht).opened hs ho).resolve_left fun ho ↦ ?_
      -- What has been opened was owed before, unlike a connection still to be pushed.
      obtain ⟨c, hc, hid⟩ := hs.opened ho
      exact ((numbered_of_run hrun).pushing k conn hk).2.2 c hc hid
    · refine .inl ⟨conn, ?_, rfl⟩
      rw [eq, hadv.pcAt hi, if_neg hik]
      exact hk

theorem Issued.placed (h : Issued residue n id s) : s.Placed id := by
  obtain ⟨as, host, port, kind, bs, u, v, hu, hv, rfl, hs, hret⟩ := h
  have hinit : v.Entering u.calls.length (u.connectionIdSeed + 1) := by
    simp only [step, Option.ite_none_right_eq_some, Option.some.injEq] at hv
    refine ⟨⟨host, port, u.connectionIdSeed + 1, kind, -1, none⟩, ?_, rfl⟩
    rw [← hv.2, connect, pcAt_spawn]
    exact if_pos rfl
  have hplaced := hs.along
    (I := fun s ↦ s.Entering u.calls.length (u.connectionIdSeed + 1) ∨
      s.Placed (u.connectionIdSeed + 1))
    (fun bs s a t hrun hi ha ht ↦ ?_) (.inl hinit)
  · refine hplaced.resolve_left ?_
    rintro ⟨conn, hk, -⟩
    cases hret.symm.trans hk
  · have hfull := (hu.trans (.one rfl hv)).trans (hrun.mono fun _ _ h ↦ h.1)
    rcases hi with hi | hi
    · exact step_entering hfull hi ha.1 ht
    · exact .inr (step_placed hfull hi ha.1 ha.2.1 ha.2.2 ht)

theorem located_of_run
    (h : Run (step residue) (fun s a ↦ served residue s a = true) (start n) as s) :
    s.desk.Located := by
  refine h.along (I := fun s ↦ s.desk.Located) (fun bs s a t hrun hl ha ht ↦ ?_)
    (fun _ ho ↦ nomatch ho)
  exact hl.move (serving_of_run hrun) (desk_of_run hrun ha ht)

theorem onChannel_of_run {bs : List Action} {channel : ℕ}
    (hs : Run (step residue) (fun s a ↦ served residue s a = true) (start n) as s)
    (h : s.desk.OnChannel id channel)
    (ht : Run (step residue) (fun s a ↦ served residue s a = true) s bs t) :
    t.desk.OnChannel id channel := by
  refine ht.along (I := fun t ↦ t.desk.OnChannel id channel) (fun cs u a v hrun hc ha hv ↦ ?_) h
  have hu := hs.trans hrun
  exact hc.move (serving_of_run hu) (desk_of_run hu ha hv)

theorem locked_of_run {ok : State → Action → Prop}
    (h : Run (step residue) ok (start n) as s) : s.Locked :=
  h.invariant (I := State.Locked) (fun _ _ _ hs _ ht ↦ step_locked hs ht) nofun

theorem eraseQueued_gone (hn : s.Numbered) (hs : s.desk.Serving)
    (hk : s.pcAt k = some (.erasing id)) (hc : ∃ conn ∈ s.connectQue, conn.id = id) :
    (eraseQueued s k id).Gone id := by
  obtain ⟨conn, hconn, rfl⟩ := hc
  have hany : s.connectQue.any (·.id = conn.id) = true :=
    List.any_eq_true.2 ⟨conn, hconn, decide_eq_true rfl⟩
  obtain ⟨d, hd, hid⟩ := hs.queued hconn
  have heq : eraseQueued s k conn.id = _ := if_pos hany
  have hadv := eraseQueued_advances
    (r := if s.connectQue.length = 1 then s.connectQue.headD s.remnant else s.remnant) hany
  rw [heq]
  refine ⟨hid ▸ hn.owed d hd, fun c hc ↦ ne_of_mem_eraseP hs.nodup hc, fun i c hi ↦ ?_⟩
  have := (hn.pushing i c (hadv.pushing_goto hk hi).2).2.2 d hd
  rwa [hid, ne_comm] at this

theorem gone_of_run {bs : List Action} {ok : State → Action → Prop}
    (ht : Run (step residue) ok s bs t) (h : s.Gone id) : t.Gone id :=
  ht.invariant (I := fun s ↦ s.Gone id) (fun _ _ _ hs _ ht ↦ step_gone hs ht) h

theorem not_opened_of_gone (hs : s.desk.Serving) (h : s.Gone id) :
    id ∉ s.opens.map Opening.id ∧ ∀ conn ∈ s.connectQue, conn.id ≠ id := by
  refine ⟨fun ho ↦ ?_, fun conn hc hid ↦ ?_⟩
  · obtain ⟨c, hc, hid⟩ := hs.opened ho
    exact h.owed c hc hid
  · obtain ⟨c, hc, hid'⟩ := hs.queued hc
    exact h.owed c hc (hid'.trans hid)

theorem pcAt_of_inserting {i channel : ℕ} (h : s.desk.flight i = some (.inserting, channel)) :
    s.pcAt i = some (.inserting channel) := by
  obtain ⟨pc, hpc, hflight⟩ := Option.bind_eq_some_iff.1 h
  cases pc <;> cases hflight
  exact hpc

/-- The queue is searched while there is no entry, so a connection that has its place waits
or is in the hands of a call that has not inserted it yet. -/
theorem queued_iff_not_inserting (hs : s.desk.Serving) (hp : s.Placed id)
    (he : s.desk.entry id = none) :
    (∃ conn ∈ s.connectQue, conn.id = id) ↔
      ∀ i channel, s.pcAt i = some (.inserting channel) → s.remnant.id ≠ id := by
  constructor
  · rintro ⟨conn, hc, -⟩ i channel hi
    have hflight : s.desk.flight i = some (.inserting, channel) := by
      simp [State.desk, hi, Pc.flight]
    cases hflight.symm.trans (hs.no_flight (List.ne_nil_of_mem hc) i)
  · intro hno
    obtain ⟨c, hc, rfl⟩ := hp.owed
    rcases hs.place hc with ho | hq | ⟨i, stage, channel, hi, hid⟩
    · exact absurd he (hp.opened ho)
    · exact hq
    · obtain ⟨-, -, hst⟩ := hs.carried i stage channel hi
      rw [← hid] at he
      cases stage with
      | inserting => exact absurd hid (hno i channel (pcAt_of_inserting hi))
      | tagging => cases he.symm.trans hst
      | configuring => cases he.symm.trans hst.1
      | opening => cases he.symm.trans hst.1

end

end MusicRemote.Client
