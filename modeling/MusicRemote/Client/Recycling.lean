import MusicRemote.Client.Queue

namespace MusicRemote.Client

open Foundation.Transition

def Holding.Named (h : Holding) : Prop := 0 < h.ival → 0 < h.tagged + h.used + h.ended

def Holding.Blank (h : Holding) : Prop := 0 < h.free + h.carried → h.ival ≤ 0

namespace Holding.Move

variable {l : Transfer} {h h' : Holding}

theorem named (hm : Move l h h') (hl : l ≠ .withdraw) (hn : h.Named) : h'.Named := by
  cases hm with
  | stay | take => exact hn
  | tag | launch | fire => exact fun _ ↦ by simp only; omega
  | recycle => exact fun hv ↦ by simp only at hv; omega
  | withdraw => exact absurd rfl hl

theorem blank (hm : Move l h h') (h1 : h.total ≤ 1) (hb : h.Blank) : h'.Blank := by
  simp only [Blank, Holding.total] at *
  cases hm with
  | stay => exact hb
  | take => exact fun _ ↦ hb (by simp only; omega)
  | recycle => exact fun _ ↦ by simp only; omega
  | tag | launch | fire | withdraw => exact fun hf ↦ by simp only at h1 hf; omega

end Holding.Move

def Desk.Backed (d : Desk) : Prop :=
  ∀ id, d.entry id ≠ none → (∃ i, d.flight i ≠ none) ∧ id = d.remnant.id ∨ ∃ j, d.ival j = id

namespace Desk.Backed

variable {d d' : Desk}

theorem idle (hb : d.Backed) (hf : ∀ i, d.flight i = none) {id : ℤ} (he : d.entry id ≠ none) :
    ∃ j, d.ival j = id :=
  (hb id he).resolve_left fun h ↦ h.1.choose_spec (hf _)

theorem move (hb : d.Backed) (hs : d.Serving)
    (hblank : ∀ k channel, d.flight k = some (.tagging, channel) → d.ival channel ≤ 0)
    {faithful : Bool} (hm : d.Move faithful d') : d'.Backed := by
  intro id he
  have flying : ∀ {k : ℕ} {x : Stage × ℕ}, ∃ i, Function.update d.flight k (some x) i ≠ none :=
    fun {k x} ↦ ⟨k, by simp⟩
  cases hm with
  | stay | push => exact hb id he
  | take k channel hq => exact .inr (hb.idle (hs.no_flight (by rw [hq]; nofun)) he)
  | insert hk =>
    by_cases hid : id = d.remnant.id
    · exact .inl ⟨flying, hid⟩
    · refine .inr ((hb id ?_).resolve_left fun h ↦ hid h.2)
      exact (Function.update_of_ne hid ..).symm.trans_ne he
  | tag hk =>
    rcases hb id he with ⟨-, hid⟩ | ⟨j, rfl⟩
    · exact .inl ⟨flying, hid⟩
    · -- The channel that is tagged had no id, so it is not the one that backs the entry.
      refine .inr ⟨j, Function.update_of_ne ?_ ..⟩
      rintro rfl
      have hpos : 0 < d.ival j := hs.entry_pos he
      have := hblank _ _ hk
      omega
  | configure => exact (hb id he).imp_left fun h ↦ ⟨flying, h.2⟩
  | launch kind hk =>
    rcases hb id he with ⟨-, rfl⟩ | hj
    · exact .inr ⟨_, (hs.carried _ _ _ hk).2.2.2⟩
    · exact .inr hj
  | release hj =>
    rename_i j
    have hne : id ≠ d.ival j := by
      rintro rfl
      exact he (Function.update_self ..)
    refine (hb id ((Function.update_of_ne hne ..).symm.trans_ne he)).imp_right ?_
    rintro ⟨i, rfl⟩
    exact ⟨i, Function.update_of_ne (fun hi ↦ hne (congrArg d.ival hi)) ..⟩
  | remove r hc => exact .inr (hb.idle (hs.no_flight (List.ne_nil_of_mem hc)) he)

end Desk.Backed

/-- Nothing waits, no call is under way, and yasio has nothing to do. -/
structure State.Quiet (s : State) : Prop where
  queue : s.connectQue = []
  calls : ∀ call ∈ s.calls, call.pc = .returned
  channels : ∀ j, (s.channels j).state = .closed

section

variable {residue : Connection → Connection} {n : ℤ} {as : List Action} {s t : State}

/-- An open request that yasio has not taken up yet is cleared without an event. -/
def isWithdrawn (s : State) (a : Action) : Prop := ∃ j, transfer s j a = .withdraw

theorem step_owners_kept_iff {a : Action} (h1 : ∀ j, s.owners j ≤ 1)
    (ht : step residue s a = some t) : (∀ j, t.owners j = s.owners j) ↔ ¬ isWithdrawn s a := by
  rw [isWithdrawn, not_exists]
  refine forall_congr' fun j ↦ ?_
  have hj := step_owners (h1 j) ht
  by_cases hw : transfer s j a = .withdraw <;> simp [hw] at hj ⊢ <;> omega

theorem owners_kept_iff (h : Run (step residue) Any s as t) (h1 : ∀ j, s.owners j ≤ 1) :
    (∀ j, t.owners j = s.owners j) ↔
      Run (step residue) (fun s a ↦ ¬ isWithdrawn s a) s as t := by
  induction h with
  | nil s => exact ⟨fun _ ↦ .nil s, fun _ _ ↦ rfl⟩
  | @cons s u t a as _ hu hrun ih =>
    have hle : ∀ j, u.owners j ≤ s.owners j := fun j ↦ by
      have := step_owners (h1 j) hu
      omega
    have hu1 : ∀ j, u.owners j ≤ 1 := fun j ↦ (hle j).trans (h1 j)
    have hle' : ∀ j, t.owners j ≤ u.owners j := fun j ↦ owners_le hrun (hu1 j)
    constructor
    · -- The owners of a channel never become more, so none is lost on the way.
      intro heq
      have hkept : ∀ j, u.owners j = s.owners j := fun j ↦ (hle j).antisymm (heq j ▸ hle' j)
      exact .cons ((step_owners_kept_iff h1 hu).1 hkept) hu
        ((ih hu1).1 fun j ↦ (heq j).trans (hkept j).symm)
    · intro hno j
      cases hno with
      | cons ha hu' hrun' =>
        cases hu.symm.trans hu'
        exact ((ih hu1).2 hrun' j).trans ((step_owners_kept_iff h1 hu).2 ha j)

theorem State.Quiet.owners_eq (hq : s.Quiet) (j : ℕ) :
    s.owners j = s.availChannelQueue.count j := by
  have hcalls : s.calls.countP (·.pc.owns j) = 0 := by
    rw [List.countP_eq_zero]
    intro call hc
    rw [hq.calls call hc]
    exact Bool.false_ne_true
  rw [State.owners, hcalls, hq.channels j]
  rfl

theorem State.Quiet.no_flight (hq : s.Quiet) (i : ℕ) : s.desk.flight i = none := by
  refine flight_none (List.any_eq_false.2 fun call hc ↦ ?_) i
  rw [hq.calls call hc]
  exact Bool.false_ne_true

theorem perm_iff_not_withdrawn (h : Run (step residue) Any (start n) as s) (hq : s.Quiet) :
    s.availChannelQueue.Perm (List.range (channelCount n)) ↔
      Run (step residue) (fun s a ↦ ¬ isWithdrawn s a) (start n) as s := by
  rw [← owners_kept_iff h (owners_start n), List.perm_iff_count]
  refine forall_congr' fun j ↦ ?_
  rw [hq.owners_eq, owners_start_eq]

/-- The channels that the service does not have stay closed. -/
theorem quiet_of_run {ok : State → Action → Prop} (h : Run (step residue) ok (start n) as s)
    (hq : s.connectQue = []) (hc : ∀ call ∈ s.calls, call.pc = .returned)
    (hch : ∀ j < channelCount n, (s.channels j).state = .closed) : s.Quiet := by
  refine ⟨hq, hc, fun j ↦ ?_⟩
  by_cases hj : j < channelCount n
  · exact hch j hj
  · have hle := owners_le h (owners_start n j)
    rw [owners_start_eq, List.count_eq_zero.2 (by simpa using hj), State.owners] at hle
    have hused : (s.channels j).state.isUsed.toNat = 0 := by omega
    simpa [ChannelState.isUsed] using hused

theorem named_of_run (h : Run (step residue) (fun s a ↦ ¬ isWithdrawn s a) (start n) as s)
    (j : ℕ) : (s.holding j).Named := by
  refine h.invariant (I := fun s ↦ (s.holding j).Named) (fun s a t hn ha ht ↦ ?_) ?_
  · exact (step_move ht).named (fun hj ↦ ha ⟨j, hj⟩) hn
  · exact fun hv ↦ absurd hv (Int.lt_irrefl 0)

theorem blank_of_run {ok : State → Action → Prop} (h : Run (step residue) ok (start n) as s)
    (j : ℕ) : (s.holding j).Blank := by
  refine h.invariant_of (J := fun s ↦ s.owners j ≤ 1) (I := fun s ↦ (s.holding j).Blank)
    (fun s a t hs _ ht ↦ ?_) (fun s a t h1 hb _ ht ↦ ?_) (owners_start n j)
    (fun _ ↦ Int.le_refl 0)
  · have := step_owners hs ht
    omega
  · exact (step_move ht).blank (owners_eq_total s j ▸ h1) hb

theorem backed_of_run
    (h : Run (step residue) (fun s a ↦ served residue s a = true) (start n) as s) :
    s.desk.Backed := by
  refine h.along (I := fun s ↦ s.desk.Backed) (fun bs s a t hrun hb ha ht ↦ ?_)
    (fun _ he ↦ absurd rfl he)
  refine hb.move (serving_of_run hrun) (fun k channel hk ↦ ?_) (desk_of_run hrun ha ht)
  refine blank_of_run hrun channel (Nat.add_pos_right _ ?_)
  obtain ⟨pc, hpc, hflight⟩ := Option.bind_eq_some_iff.1 hk
  obtain ⟨call, hcall, rfl⟩ := Option.map_eq_some_iff.1 hpc
  refine List.countP_pos_iff.2 ⟨call, List.mem_of_getElem? hcall, ?_⟩
  cases hc : call.pc <;> rw [hc] at hflight <;> cases hflight
  exact decide_eq_true rfl

/-- In a quiet state all channels are free just if no open request has been cleared before yasio
took it up. Then no entry is left either, while each connection that is taken is the only one
waiting, is opened before the next one comes, and keeps its id and its channel after the erase. -/
theorem channels_come_back_iff (h : Run (step residue) Any (start n) as s) (hq : s.Quiet) :
    (s.availChannelQueue.Perm (List.range (channelCount n)) ↔
      Run (step residue) (fun s a ↦ ¬ isWithdrawn s a) (start n) as s) ∧
    (Run (step residue) (fun s a ↦ served residue s a = true) (start n) as s →
      s.availChannelQueue.Perm (List.range (channelCount n)) →
        ∀ id, s.aliveConnects id = none) := by
  refine ⟨perm_iff_not_withdrawn h hq, fun hserved hperm id ↦ ?_⟩
  by_contra hne
  have he : s.desk.entry id ≠ none := by simpa [State.desk] using hne
  have hpos := (serving_of_run hserved).entry_pos he
  obtain ⟨j, rfl⟩ := (backed_of_run hserved).idle hq.no_flight he
  have hnamed := named_of_run ((perm_iff_not_withdrawn h hq).1 hperm) j hpos
  have hheld : (s.holding j).tagged + (s.holding j).used + (s.holding j).ended = 0 := by
    have howners := hq.owners_eq j
    rw [owners_eq_total, Holding.total] at howners
    change (s.holding j).free + _ + _ + _ + _ = (s.holding j).free at howners
    omega
  omega

end

def openedAndClosed : List Action :=
  [.connect "a" 1 5] ++ List.replicate 7 (.advance 0) ++
    [.process 0, .fire 0 (.onOpen 0 5), .advance 1, .advance 1, .advance 1,
      .fire 0 (.onClose 7), .advance 2, .advance 2, .advance 2]

theorem closed_channel_comes_back :
    ∃ s, Run (step freed) Any (start 1) openedAndClosed s ∧ s.Quiet ∧ s.availChannelQueue = [0] ∧
      Run (step freed) (fun s a ↦ ¬ isWithdrawn s a) (start 1) openedAndClosed s ∧
      ∀ id, s.aliveConnects id = none := by
  have hrun : ∃ s,
      Run (step freed) (fun s a ↦ served freed s a = true) (start 1) openedAndClosed s ∧
      (s.connectQue = [] ∧ (∀ call ∈ s.calls, call.pc = .returned) ∧
        (∀ j < channelCount 1, (s.channels j).state = .closed) ∧ s.availChannelQueue = [0]) :=
    Run.exists_of_execute (by decide +kernel)
  obtain ⟨s, hs, hq, hc, hch, ha⟩ := hrun
  have hquiet : s.Quiet := quiet_of_run hs hq hc hch
  have hperm : s.availChannelQueue.Perm (List.range (channelCount 1)) := .of_eq ha
  have h := channels_come_back_iff hs.any hquiet
  exact ⟨s, hs.any, hquiet, ha, h.1.1 hperm, h.2 hs hperm⟩

/-- A `disconnect` that comes before yasio has taken up the open request costs the only
channel, and leaves the entry. -/
theorem withdrawn_channel_is_lost :
    ∃ s, Run (step freed) (fun s a ↦ served freed s a = true) (start 1)
        ([.connect "a" 1 5] ++ List.replicate 7 (.advance 0) ++ [.disconnect 1, .advance 1]) s ∧
      s.Quiet ∧ s.availChannelQueue = [] ∧ (s.aliveConnects 1).isSome = true := by
  have hrun : ∃ s, Run (step freed) (fun s a ↦ served freed s a = true) (start 1)
        ([.connect "a" 1 5] ++ List.replicate 7 (.advance 0) ++ [.disconnect 1, .advance 1]) s ∧
      (s.connectQue = [] ∧ (∀ call ∈ s.calls, call.pc = .returned) ∧
        (∀ j < channelCount 1, (s.channels j).state = .closed) ∧
        s.availChannelQueue = [] ∧ (s.aliveConnects 1).isSome = true) :=
    Run.exists_of_execute (by decide +kernel)
  obtain ⟨s, hs, hq, hc, hch, ha, he⟩ := hrun
  exact ⟨s, hs, quiet_of_run hs hq hc hch, ha, he⟩

end MusicRemote.Client
