import MusicRemote.Client.Connections
import MusicRemote.Foundation.Lists

namespace MusicRemote.Client

open Foundation Foundation.Transition

section

variable {s : State} {k : ℕ} {pc pc' : Pc}

theorem pcAt_goto (h : s.pcAt k = some pc) (i : ℕ) :
    (s.goto k pc').pcAt i = if i = k then some pc' else s.pcAt i := by
  obtain ⟨call, hcall, -⟩ := Option.map_eq_some_iff.1 h
  rw [State.pcAt, State.goto, List.getElem?_modify]
  by_cases hi : i = k
  · subst hi
    simp [hcall]
  · simp [hi, Ne.symm hi, State.pcAt]

theorem pcAt_spawn (s : State) (b : Bool) (pc : Pc) (i : ℕ) :
    (s.spawn b pc).pcAt i = if i = s.calls.length then some pc else s.pcAt i := by
  rw [State.pcAt, State.spawn]
  rcases Nat.lt_trichotomy i s.calls.length with hi | rfl | hi
  · rw [List.getElem?_append_left hi, if_neg (by omega), State.pcAt]
  · simp
  · rw [if_neg (by omega), State.pcAt, List.getElem?_eq_none (by simp; omega),
      List.getElem?_eq_none (by omega)]

end

@[simp]
theorem channels_setChannel_self (s : State) (channel : ℕ) (ch : Channel) :
    (s.setChannel channel ch).channels channel = ch := Function.update_self ..

theorem channels_setChannel_of_ne (s : State) {channel i : ℕ} (h : i ≠ channel) (ch : Channel) :
    (s.setChannel channel ch).channels i = s.channels i := Function.update_of_ne h ..

@[simp]
theorem availChannelQueue_setChannel (s : State) (channel : ℕ) (ch : Channel) :
    (s.setChannel channel ch).availChannelQueue = s.availChannelQueue := rfl

@[simp]
theorem calls_setChannel (s : State) (channel : ℕ) (ch : Channel) :
    (s.setChannel channel ch).calls = s.calls := rfl

/-- The call has the channel: taken and not yet opened, or ended and not yet given back. -/
def Pc.owns (j : ℕ) : Pc → Bool
  | .inserting channel | .tagging channel | .configuring channel | .opening channel =>
    channel = j
  | .handling event channel _ => event.isTerminal && channel = j
  | _ => false

def ChannelState.isUsed (state : ChannelState) : Bool := state ≠ .closed

/-- How many have a channel: the free ones, the calls, and yasio itself. -/
def State.owners (s : State) (j : ℕ) : ℕ :=
  s.availChannelQueue.count j + s.calls.countP (·.pc.owns j) + (s.channels j).state.isUsed.toNat

/-- Where a channel is: free, with calls that have taken it and not yet written an id on it, with
calls that have and not yet opened it, with yasio, and with calls that have its terminal event to
handle. -/
structure Holding where
  free : ℕ
  carried : ℕ
  tagged : ℕ
  used : ℕ
  ended : ℕ
  ival : ℤ

inductive Transfer
  | stay
  | take
  | tag
  | launch
  | fire
  | recycle
  | withdraw
  deriving DecidableEq

/-- The ways of a channel. Only the last one loses it. -/
inductive Holding.Move : Transfer → Holding → Holding → Prop
  | stay (h : Holding) : Move .stay h h
  | take (f c g u e : ℕ) (v : ℤ) : Move .take ⟨f + 1, c, g, u, e, v⟩ ⟨f, c + 1, g, u, e, v⟩
  | tag (f c g u e : ℕ) (v w : ℤ) : Move .tag ⟨f, c + 1, g, u, e, v⟩ ⟨f, c, g + 1, u, e, w⟩
  | launch (f c g u e : ℕ) (v : ℤ) : Move .launch ⟨f, c, g + 1, u, e, v⟩ ⟨f, c, g, 1, e, v⟩
  | fire (f c g e : ℕ) (v : ℤ) : Move .fire ⟨f, c, g, 1, e, v⟩ ⟨f, c, g, 0, e + 1, v⟩
  | recycle (f c g u e : ℕ) (v : ℤ) :
      Move .recycle ⟨f, c, g, u, e + 1, v⟩ ⟨f + 1, c, g, u, e, -1⟩
  | withdraw (f c g e : ℕ) (v : ℤ) : Move .withdraw ⟨f, c, g, 1, e, v⟩ ⟨f, c, g, 0, e, v⟩

def Holding.total (h : Holding) : ℕ := h.free + h.carried + h.tagged + h.used + h.ended

theorem Holding.Move.total {l : Transfer} {h h' : Holding} (hm : Move l h h')
    (h1 : h.total ≤ 1) : h'.total + (decide (l = .withdraw)).toNat = h.total := by
  cases hm <;> simp [Holding.total] at h1 ⊢ <;> omega

def Pc.carries (j : ℕ) : Pc → Bool
  | .inserting channel | .tagging channel => channel = j
  | _ => false

def Pc.tagged (j : ℕ) : Pc → Bool
  | .configuring channel | .opening channel => channel = j
  | _ => false

def Pc.ended (j : ℕ) : Pc → Bool
  | .handling event channel _ => event.isTerminal && channel = j
  | _ => false

def State.holding (s : State) (j : ℕ) : Holding where
  free := s.availChannelQueue.count j
  carried := s.calls.countP (·.pc.carries j)
  tagged := s.calls.countP (·.pc.tagged j)
  used := (s.channels j).state.isUsed.toNat
  ended := s.calls.countP (·.pc.ended j)
  ival := (s.channels j).ival

def transfer (s : State) (j : ℕ) : Action → Transfer
  | .connect _ _ _ | .disconnect _ | .process _ => .stay
  | .fire channel event => if event.isTerminal ∧ channel = j then .fire else .stay
  | .advance k =>
    match s.pcAt k with
    | some .looping =>
      match s.connectQue, s.availChannelQueue with
      | _ :: _, channel :: _ => if channel = j then .take else .stay
      | _, _ => .stay
    | some (.tagging channel) => if channel = j then .tag else .stay
    | some (.opening channel) => if channel = j then .launch else .stay
    | some (.handling event channel _) =>
      if event.isTerminal ∧ channel = j then .recycle else .stay
    | some (.searching connectionId) =>
      match s.aliveConnects connectionId with
      | some conn =>
        if conn.channel = j ∧ (s.channels j).state = .requested then .withdraw else .stay
      | none => .stay
    | _ => .stay

theorem owners_eq_total (s : State) (j : ℕ) : s.owners j = (s.holding j).total := by
  have hsplit : ∀ calls : List Call, calls.countP (·.pc.owns j) =
      calls.countP (·.pc.carries j) + calls.countP (·.pc.tagged j) +
        calls.countP (·.pc.ended j) := by
    intro calls
    induction calls with
    | nil => rfl
    | cons call calls ih =>
      obtain ⟨b, pc⟩ := call
      simp only [List.countP_cons, ih]
      cases pc <;> simp [Pc.owns, Pc.carries, Pc.tagged, Pc.ended] <;> omega
  simp only [State.owners, State.holding, Holding.total, hsplit]
  omega

section

variable {s t : State} {k j : ℕ} {pc pc' : Pc} {l : Transfer}

theorem exists_countP_goto (pc' : Pc) (p : Pc → Bool) (h : s.pcAt k = some pc)
    (hc : t.calls = s.calls) :
    ∃ n, s.calls.countP (p ·.pc) = n + (p pc).toNat ∧
      (t.goto k pc').calls.countP (p ·.pc) = n + (p pc').toNat := by
  obtain ⟨call, hcall, rfl⟩ := Option.map_eq_some_iff.1 h
  have hcount : (t.goto k pc').calls.countP (p ·.pc) + (p call.pc).toNat =
      s.calls.countP (p ·.pc) + (p pc').toNat := by
    rw [State.goto, hc]
    exact countP_modify (p ·.pc) _ hcall
  have hle : (p call.pc).toNat ≤ s.calls.countP (p ·.pc) := by
    cases hp : p call.pc with
    | false => exact Nat.zero_le _
    | true => exact List.countP_pos_iff.2 ⟨call, List.mem_of_getElem? hcall, hp⟩
  exact ⟨s.calls.countP (p ·.pc) - (p call.pc).toNat, by omega, by omega⟩

/-- The other calls hold what they held. -/
theorem move_goto (h : s.pcAt k = some pc) (hc : t.calls = s.calls)
    (hm : ∀ c g e, Holding.Move l
      ⟨s.availChannelQueue.count j, c + (pc.carries j).toNat, g + (pc.tagged j).toNat,
        (s.channels j).state.isUsed.toNat, e + (pc.ended j).toNat, (s.channels j).ival⟩
      ⟨t.availChannelQueue.count j, c + (pc'.carries j).toNat, g + (pc'.tagged j).toNat,
        (t.channels j).state.isUsed.toNat, e + (pc'.ended j).toNat, (t.channels j).ival⟩) :
    Holding.Move l (s.holding j) ((t.goto k pc').holding j) := by
  obtain ⟨c, hc1, hc2⟩ := exists_countP_goto pc' (Pc.carries j) h hc
  obtain ⟨g, hg1, hg2⟩ := exists_countP_goto pc' (Pc.tagged j) h hc
  obtain ⟨e, he1, he2⟩ := exists_countP_goto pc' (Pc.ended j) h hc
  simp only [State.holding, hc1, hc2, hg1, hg2, he1, he2]
  exact hm c g e

theorem move_stay (h : s.pcAt k = some pc) (hc : t.calls = s.calls)
    (ha : t.availChannelQueue = s.availChannelQueue)
    (hs : (t.channels j).state = (s.channels j).state)
    (hi : (t.channels j).ival = (s.channels j).ival)
    (hp : pc'.carries j = pc.carries j ∧ pc'.tagged j = pc.tagged j ∧ pc'.ended j = pc.ended j) :
    Holding.Move .stay (s.holding j) ((t.goto k pc').holding j) := by
  refine move_goto h hc fun c g e ↦ ?_
  rw [ha, hs, hi, hp.1, hp.2.1, hp.2.2]
  exact .stay _

theorem setChannel_field {α : Type*} (f : Channel → α) {channel : ℕ} {ch : Channel}
    (hf : f ch = f (s.channels channel)) (i : ℕ) :
    f ((s.setChannel channel ch).channels i) = f (s.channels i) := by
  by_cases hi : i = channel
  · subst hi
    rw [channels_setChannel_self, hf]
  · rw [channels_setChannel_of_ne s hi]

theorem move_eof (h : s.pcAt k = some pc) {channel : ℕ}
    (hp : pc.carries j = false ∧ pc.tagged j = false ∧ pc.ended j = decide (channel = j))
    (hp' : pc'.carries j = false ∧ pc'.tagged j = false ∧ pc'.ended j = false) :
    Holding.Move (if channel = j then .recycle else .stay) (s.holding j)
      (((handleNetworkEOF s channel).goto k pc').holding j) := by
  refine move_goto h rfl fun c g e ↦ ?_
  rw [hp.1, hp.2.1, hp.2.2, hp'.1, hp'.2.1, hp'.2.2]
  by_cases hj : channel = j
  · subst hj
    simpa [handleNetworkEOF, State.setChannel] using Holding.Move.recycle ..
  · have hc := channels_setChannel_of_ne s (Ne.symm hj)
    simpa [handleNetworkEOF, hj, hc] using Holding.Move.stay _

theorem take_move {channel : ℕ} {avail : List ℕ} (h : s.pcAt k = some .looping)
    (hc : t.calls = s.calls) (hs : t.channels = s.channels)
    (ha : s.availChannelQueue = channel :: avail) (ha' : t.availChannelQueue = avail) :
    Holding.Move (if channel = j then .take else .stay) (s.holding j)
      ((t.goto k (.inserting channel)).holding j) := by
  refine move_goto h hc fun c g e ↦ ?_
  rw [ha, ha', hs]
  by_cases hj : channel = j
  · simpa [hj, Pc.carries, Pc.tagged, Pc.ended] using Holding.Move.take ..
  · simpa [hj, Pc.carries, Pc.tagged, Pc.ended] using Holding.Move.stay _

theorem setIval_move {conn : Connection} {channel : ℕ} (h : s.pcAt k = some (.tagging channel)) :
    Holding.Move (if channel = j then .tag else .stay) (s.holding j)
      ((setIval s k conn channel).holding j) := by
  refine move_goto h rfl fun c g e ↦ ?_
  by_cases hj : channel = j
  · subst hj
    simpa [State.setChannel, Pc.carries, Pc.tagged, Pc.ended] using Holding.Move.tag ..
  · have hc := channels_setChannel_of_ne s (Ne.symm hj)
    simpa [hj, Pc.carries, Pc.tagged, Pc.ended, hc] using Holding.Move.stay _

theorem openChannel_move {conn : Connection} {channel : ℕ}
    (h : s.pcAt k = some (.opening channel)) :
    Holding.Move (if channel = j then .launch else .stay) (s.holding j)
      ((openChannel s k conn channel).holding j) := by
  refine move_goto h rfl fun c g e ↦ ?_
  by_cases hj : channel = j
  · subst hj
    have hu : ∀ st : ChannelState,
        (if st = .connecting then ChannelState.connecting else .requested).isUsed = true := by
      intro st
      cases st <;> rfl
    simpa [State.setChannel, Pc.carries, Pc.tagged, Pc.ended, hu] using Holding.Move.launch ..
  · have hc := channels_setChannel_of_ne s (Ne.symm hj)
    simpa [hj, Pc.carries, Pc.tagged, Pc.ended, hc] using Holding.Move.stay _

theorem closeChannel_move (h : s.pcAt k = some pc) (index : ℤ)
    (hp : pc'.carries j = pc.carries j ∧ pc'.tagged j = pc.tagged j ∧ pc'.ended j = pc.ended j) :
    Holding.Move (if index = j ∧ (s.channels j).state = .requested then .withdraw else .stay)
      (s.holding j) (((closeChannel s index).goto k pc').holding j) := by
  unfold closeChannel
  by_cases hr : 0 ≤ index ∧ (s.channels index.toNat).state = .requested
  · rw [if_pos hr]
    refine move_goto h rfl fun c g e ↦ ?_
    rw [hp.1, hp.2.1, hp.2.2]
    by_cases hj : index.toNat = j
    · subst hj
      rw [if_pos ⟨by omega, hr.2⟩]
      simpa [State.setChannel, hr.2, ChannelState.isUsed] using Holding.Move.withdraw ..
    · rw [if_neg (fun h ↦ hj (by omega))]
      have hc := channels_setChannel_of_ne s (Ne.symm hj)
      simpa [hc] using Holding.Move.stay _
  · rw [if_neg hr, if_neg]
    · exact move_stay h rfl rfl rfl rfl hp
    · rintro ⟨rfl, hs⟩
      exact hr ⟨Int.natCast_nonneg j, by simpa using hs⟩

theorem stride_move {residue : Connection → Connection} (h : s.pcAt k = some pc)
    (hs : Stride residue s k pc t) :
    Holding.Move (transfer s j (.advance k)) (s.holding j) (t.holding j) := by
  simp only [transfer, h]
  cases hs with
  | push | success | packet | dispatch | insert | erase | miss =>
    exact move_stay h rfl rfl rfl rfl ⟨rfl, rfl, rfl⟩
  | eof channel id he _ =>
    simpa [he] using move_eof h ⟨rfl, rfl, by simp [Pc.ended, he]⟩ ⟨rfl, rfl, rfl⟩
  | takeLast hq ha | takeFront hq ha =>
    simp only [hq, ha]
    exact take_move h rfl rfl ha rfl
  | leave hno =>
    have hstay : Holding.Move .stay (s.holding j) ((s.goto k .returned).holding j) :=
      move_stay h rfl rfl rfl rfl ⟨rfl, rfl, rfl⟩
    rcases hno with hq | ha
    · simpa only [hq] using hstay
    · cases hq : s.connectQue <;> simpa only [hq, ha] using hstay
  | tag => exact setIval_move h
  | configure =>
    refine move_stay h rfl rfl ?_ ?_ ⟨rfl, rfl, rfl⟩
    · exact setChannel_field Channel.state (by rfl) j
    · exact setChannel_field Channel.ival (by rfl) j
  | launch => exact openChannel_move h
  | @close id conn _ he =>
    simp only [he]
    exact closeChannel_move h conn.channel ⟨rfl, rfl, rfl⟩
  | search _ he =>
    simp only [he]
    exact move_stay h rfl rfl rfl rfl ⟨rfl, rfl, rfl⟩

theorem holding_spawn {b : Bool} (hc : t.calls = s.calls) : (t.spawn b pc).holding j =
    ⟨t.availChannelQueue.count j, s.calls.countP (·.pc.carries j) + (pc.carries j).toNat,
      s.calls.countP (·.pc.tagged j) + (pc.tagged j).toNat, (t.channels j).state.isUsed.toNat,
      s.calls.countP (·.pc.ended j) + (pc.ended j).toNat, (t.channels j).ival⟩ := by
  have hone : ∀ p : Pc → Bool, List.countP (fun call : Call ↦ p call.pc) (s.calls ++ [⟨b, pc⟩]) =
      s.calls.countP (p ·.pc) + (p pc).toNat := by
    intro p
    rw [List.countP_append, List.countP_singleton]
    cases p pc <;> rfl
  simp only [State.holding, State.spawn, hc, hone]

theorem spawn_move {b : Bool} (hc : t.calls = s.calls)
    (ha : t.availChannelQueue = s.availChannelQueue) (hs : t.channels = s.channels)
    (hp : pc.carries j = false ∧ pc.tagged j = false ∧ pc.ended j = false) :
    Holding.Move .stay (s.holding j) ((t.spawn b pc).holding j) := by
  rw [holding_spawn hc, ha, hs, hp.1, hp.2.1, hp.2.2]
  exact .stay _

theorem IoEvent.next_used {event : IoEvent} {st st' : ChannelState}
    (h : event.next st = some st') : st.isUsed = true ∧ st'.isUsed = !event.isTerminal := by
  cases event with
  | onOpen status transport =>
    cases st <;> cases h
    by_cases h0 : status = 0 <;> simp [h0, ChannelState.isUsed, isTerminal]
  | onClose status =>
    cases st <;> cases h
    exact ⟨rfl, rfl⟩
  | onPacket packet =>
    cases st <;> cases h
    exact ⟨rfl, rfl⟩

theorem fire_move {channel : ℕ} {event : IoEvent} {state : ChannelState}
    (hs : event.next (s.channels channel).state = some state) :
    Holding.Move (transfer s j (.fire channel event)) (s.holding j)
      (((s.setChannel channel { s.channels channel with state := state }).spawn true
        (.handling event channel (s.channels channel).ival)).holding j) := by
  obtain ⟨hu, hu'⟩ := IoEvent.next_used hs
  rw [holding_spawn rfl]
  by_cases hj : channel = j
  · subst hj
    cases he : event.isTerminal with
    | true =>
      simpa [transfer, he, State.setChannel, State.holding, Pc.carries, Pc.tagged, Pc.ended, hu,
        hu'] using Holding.Move.fire ..
    | false =>
      simpa [transfer, he, State.setChannel, State.holding, Pc.carries, Pc.tagged, Pc.ended, hu,
        hu'] using Holding.Move.stay _
  · have hc := channels_setChannel_of_ne s (Ne.symm hj)
    simpa [transfer, hj, State.holding, Pc.carries, Pc.tagged, Pc.ended, hc] using
      Holding.Move.stay _

/-- Every step moves every channel as `transfer` says. -/
theorem step_move {residue : Connection → Connection} {a : Action}
    (ht : step residue s a = some t) :
    Holding.Move (transfer s j a) (s.holding j) (t.holding j) := by
  cases step_turn ht with
  | connect | disconnect => exact spawn_move rfl rfl rfl ⟨rfl, rfl, rfl⟩
  | @process channel hs =>
    by_cases hj : j = channel
    · subst hj
      simpa [transfer, State.holding, State.setChannel, ChannelState.isUsed, hs] using
        Holding.Move.stay _
    · have hc := channels_setChannel_of_ne s hj
      simpa [transfer, State.holding, hc] using Holding.Move.stay _
  | fire hs => exact fire_move hs
  | advance hpc hs => exact stride_move hpc hs

theorem step_owners {residue : Connection → Connection} {a : Action} (ho : s.owners j ≤ 1)
    (ht : step residue s a = some t) :
    t.owners j + (decide (transfer s j a = .withdraw)).toNat = s.owners j := by
  rw [owners_eq_total] at ho ⊢
  rw [owners_eq_total]
  exact (step_move ht).total ho

theorem owners_start (n : ℤ) (j : ℕ) : (start n).owners j ≤ 1 := by
  have hr : (start n).availChannelQueue.Nodup := List.nodup_range
  simpa [State.owners, start, ChannelState.isUsed] using List.nodup_iff_count_le_one.1 hr j

theorem owners_le {residue : Connection → Connection} {ok : State → Action → Prop}
    {as : List Action} (h : Run (step residue) ok s as t) (h1 : s.owners j ≤ 1) :
    t.owners j ≤ s.owners j := by
  refine h.invariant (I := fun u ↦ u.owners j ≤ s.owners j) (fun u a v hu _ hv ↦ ?_)
    (Nat.le_refl _)
  have := step_owners (hu.trans h1) hv
  omega

/-- No channel is ever in two hands. -/
theorem owners_of_run {residue : Connection → Connection} {ok : State → Action → Prop} {n : ℤ}
    {as : List Action} (h : Run (step residue) ok (start n) as s) (j : ℕ) : s.owners j ≤ 1 :=
  (owners_le h (owners_start n j)).trans (owners_start n j)

end

def channelCount (maxChannelCount : ℤ) : ℕ :=
  if maxChannelCount ≤ 0 then 1 else maxChannelCount.toNat

theorem owners_start_eq (n : ℤ) (j : ℕ) :
    (start n).owners j = (List.range (channelCount n)).count j := rfl

/-- The channel has been opened, and its terminal event has not been handled since. -/
def InUse (residue : Connection → Connection) (n : ℤ) (j : ℕ) (s : State) : Prop :=
  ∃ as a bs u v, Run (step residue) Any (start n) as u ∧ transfer u j a = .launch ∧
    step residue u a = some v ∧ Run (step residue) (fun s a ↦ transfer s j a ≠ .recycle) v bs s

theorem Holding.Move.launched {h h' : Holding} (hm : Move .launch h h') (h1 : h.total ≤ 1) :
    h'.free + h'.carried + h'.tagged = 0 := by
  cases hm
  simp only [Holding.total] at h1 ⊢
  omega

theorem Holding.Move.unfree {l : Transfer} {h h' : Holding} (hm : Move l h h')
    (hl : l ≠ .recycle) : h'.free + h'.carried + h'.tagged ≤ h.free + h.carried + h.tagged := by
  cases hm with
  | recycle => exact absurd rfl hl
  | stay => exact Nat.le_refl _
  | take | tag | launch | fire | withdraw => simp only; omega

theorem InUse.unfree {residue : Connection → Connection} {n : ℤ} {j : ℕ} {s : State}
    (h : InUse residue n j s) :
    (s.holding j).free + (s.holding j).carried + (s.holding j).tagged = 0 := by
  obtain ⟨as, a, bs, u, v, hu, hl, hv, hs⟩ := h
  have h1 : (u.holding j).total ≤ 1 := owners_eq_total u j ▸ owners_of_run hu j
  have hm : Holding.Move (transfer u j a) (u.holding j) (v.holding j) := step_move hv
  rw [hl] at hm
  refine hs.invariant
    (I := fun s ↦ (s.holding j).free + (s.holding j).carried + (s.holding j).tagged = 0)
    (fun s a t hi ha ht ↦ ?_) (hm.launched h1)
  have := (step_move ht).unfree ha
  omega

/-- A free channel is free once, is one of the service's own and is not in use, and what
`doConnect` is about to open is not in use either. -/
theorem channels_are_allocated_once {residue : Connection → Connection} {n : ℤ}
    {as : List Action} {s : State} (h : Run (step residue) Any (start n) as s) :
    s.availChannelQueue.Nodup ∧ (∀ j ∈ s.availChannelQueue, j < channelCount n) ∧
      (∀ j, InUse residue n j s → j ∉ s.availChannelQueue) ∧
      ∀ k j, s.pcAt k = some (.opening j) →
        ¬ InUse residue n j s ∧ (s.channels j).state = .closed := by
  have hfree : ∀ j, s.availChannelQueue.count j ≤ s.owners j := by
    intro j
    rw [State.owners]
    omega
  refine ⟨?_, fun j hj ↦ ?_, fun j hu hj ↦ ?_, fun k j hk ↦ ?_⟩
  · rw [List.nodup_iff_count_le_one]
    exact fun j ↦ (hfree j).trans (owners_of_run h j)
  · have hpos : 0 < s.availChannelQueue.count j := List.count_pos_iff.2 hj
    have hle := owners_le h (owners_start n j)
    rw [owners_start_eq] at hle
    have hmem : 0 < (List.range (channelCount n)).count j := by
      have := hfree j
      omega
    exact List.mem_range.1 (List.count_pos_iff.1 hmem)
  · have hpos : 0 < (s.holding j).free := List.count_pos_iff.2 hj
    have := hu.unfree
    omega
  · -- The call that is about to open the channel is its only owner.
    obtain ⟨call, hcall, hpc⟩ := Option.map_eq_some_iff.1 hk
    have hpos : 0 < (s.holding j).tagged :=
      List.countP_pos_iff.2 ⟨call, List.mem_of_getElem? hcall, by simp [hpc, Pc.tagged]⟩
    refine ⟨fun hu ↦ ?_, ?_⟩
    · have := hu.unfree
      omega
    · have h1 := owners_of_run h j
      rw [owners_eq_total, Holding.total] at h1
      have hused : (s.channels j).state.isUsed.toNat = 0 := by
        change (s.holding j).used = 0
        omega
      simpa [ChannelState.isUsed] using hused

def firstOpen : List Action := .connect "a" 1 5 :: List.replicate 5 (.advance 0)

theorem opened_channel_is_not_free :
    ∃ s, InUse id 3 0 s ∧ s.availChannelQueue = [1, 2] ∧ 0 ∉ s.availChannelQueue := by
  have hrun : ∃ u, Run (step id) Any (start 3) firstOpen u ∧
      (transfer u 0 (.advance 0) = .launch ∧
        (step id u (.advance 0)).any (fun s ↦ s.availChannelQueue = [1, 2]) = true) :=
    Run.exists_of_execute (by decide +kernel)
  obtain ⟨u, hu, hl, hs⟩ := hrun
  obtain ⟨s, hs, ha⟩ := (Option.any_eq_true ..).1 hs
  have huse : InUse id 3 0 s := ⟨_, _, _, u, s, hu, hl, hs, .nil s⟩
  have h := channels_are_allocated_once (hu.trans (.one trivial hs))
  exact ⟨s, huse, of_decide_eq_true ha, h.2.2.1 0 huse⟩

end MusicRemote.Client
