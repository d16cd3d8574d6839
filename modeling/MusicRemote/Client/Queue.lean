import MusicRemote.Client.Desk
import MusicRemote.Client.Numbering

namespace MusicRemote.Client

open Foundation Foundation.Transition

def Pc.flight : Pc → Option (Stage × ℕ)
  | .inserting channel => some (.inserting, channel)
  | .tagging channel => some (.tagging, channel)
  | .configuring channel => some (.configuring, channel)
  | .opening channel => some (.opening, channel)
  | _ => none

def Channel.remote (ch : Channel) : String × UInt16 := (ch.host, ch.port)

def State.desk (s : State) : Desk where
  queue := s.connectQue
  remnant := s.remnant
  entry id := (s.aliveConnects id).map Connection.channel
  ival j := (s.channels j).ival
  remote j := (s.channels j).remote
  flight i := (s.pcAt i).bind Pc.flight
  opens := s.opens
  owed := s.owed

section

variable {faithful : Bool} {s u : State} {k : ℕ} {pc pc' : Pc}

theorem desk_goto (h : s.pcAt k = some pc) (hu : u.calls = s.calls) :
    (u.goto k pc').desk =
      { u.desk with flight := Function.update s.desk.flight k pc'.flight } := by
  have hk : u.pcAt k = some pc := by rw [State.pcAt, hu]; exact h
  have hf : (u.goto k pc').desk.flight = Function.update s.desk.flight k pc'.flight := by
    funext i
    simp only [State.desk, pcAt_goto hk]
    by_cases hi : i = k
    · subst hi
      simp
    · rw [if_neg hi, Function.update_of_ne hi, State.pcAt, State.pcAt, hu]
  rw [← hf]
  rfl

theorem desk_quiet (h : s.pcAt k = some pc) (hu : u.calls = s.calls) (hp : pc.flight = none)
    (hp' : pc'.flight = none) : (u.goto k pc').desk = u.desk := by
  have hk : u.pcAt k = some pc := by rw [State.pcAt, hu]; exact h
  have hf : u.desk.flight k = none := by simp [State.desk, hk, hp]
  rw [desk_goto hk rfl, hp', ← hf, Function.update_eq_self]

theorem move_quiet (h : s.pcAt k = some pc) (hp : pc.flight = none) (hp' : pc'.flight = none)
    (hm : s.desk.Move faithful u.desk) (hu : u.calls = s.calls) :
    s.desk.Move faithful (u.goto k pc').desk := by
  rwa [desk_quiet h hu hp hp']

theorem move_flight {d : Desk} (h : s.pcAt k = some pc) (hd : u.desk = d)
    (hm : s.desk.Move faithful { d with flight := Function.update s.desk.flight k pc'.flight })
    (hu : u.calls = s.calls) : s.desk.Move faithful (u.goto k pc').desk := by
  rwa [desk_goto h hu, hd]

theorem desk_spawn {b : Bool} (hp : pc.flight = none) : (s.spawn b pc).desk = s.desk := by
  have hf : (s.spawn b pc).desk.flight = s.desk.flight := by
    funext i
    simp only [State.desk, pcAt_spawn]
    split_ifs with hi
    · simp [hp, hi, State.pcAt]
    · rfl
  have hd : (s.spawn b pc).desk = { s.desk with flight := (s.spawn b pc).desk.flight } := rfl
  rw [hd, hf]

theorem entry_update (s : State) (id : ℤ) (v : Option Connection) :
    State.desk { s with aliveConnects := Function.update s.aliveConnects id v } =
      { s.desk with entry := Function.update s.desk.entry id (v.map Connection.channel) } :=
  Desk.ext rfl rfl (Function.comp_update (Option.map Connection.channel) s.aliveConnects id v)
    rfl rfl rfl rfl rfl

theorem desk_setTransport (s : State) (id : ℤ) (transport : ℕ) :
    (s.setTransport id transport).desk = s.desk := by
  have hmap : ((s.aliveConnects id).map fun conn ↦
      { conn with transport := some transport }).map Connection.channel = s.desk.entry id := by
    rw [Option.map_map]
    rfl
  rw [State.setTransport, entry_update, hmap, Function.update_eq_self]

theorem desk_setChannel (s : State) (channel : ℕ) (ch : Channel) :
    (s.setChannel channel ch).desk = { s.desk with
      ival := Function.update s.desk.ival channel ch.ival
      remote := Function.update s.desk.remote channel ch.remote } :=
  Desk.ext rfl rfl rfl (Function.comp_update Channel.ival s.channels channel ch)
    (Function.comp_update Channel.remote s.channels channel ch) rfl rfl rfl

theorem desk_setIval {channel : ℕ} {ch : Channel} (hr : ch.remote = (s.channels channel).remote) :
    (s.setChannel channel ch).desk =
      { s.desk with ival := Function.update s.desk.ival channel ch.ival } := by
  rw [desk_setChannel, hr]
  exact Desk.ext rfl rfl rfl rfl (Function.update_eq_self channel s.desk.remote) rfl rfl rfl

theorem desk_setRemote {channel : ℕ} {ch : Channel} (hi : ch.ival = (s.channels channel).ival) :
    (s.setChannel channel ch).desk =
      { s.desk with remote := Function.update s.desk.remote channel ch.remote } := by
  rw [desk_setChannel, hi]
  exact Desk.ext rfl rfl rfl (Function.update_eq_self channel s.desk.ival) rfl rfl rfl rfl

theorem desk_setChannel_same {channel : ℕ} {ch : Channel}
    (hi : ch.ival = (s.channels channel).ival) (hr : ch.remote = (s.channels channel).remote) :
    (s.setChannel channel ch).desk = s.desk := by
  rw [desk_setIval hr, hi]
  exact Desk.ext rfl rfl rfl (Function.update_eq_self channel s.desk.ival) rfl rfl rfl rfl

theorem desk_opens {channel : ℕ} {ch : Channel} {opens : List Opening}
    (hi : ch.ival = (s.channels channel).ival) (hr : ch.remote = (s.channels channel).remote) :
    State.desk { s.setChannel channel ch with opens := opens } =
      { s.desk with opens := opens } :=
  congrArg (fun d : Desk ↦ { d with opens := opens }) (desk_setChannel_same hi hr)

theorem desk_closeChannel (s : State) (index : ℤ) : (closeChannel s index).desk = s.desk := by
  unfold closeChannel
  split_ifs
  · exact desk_setChannel_same rfl rfl
  · rfl

end

def State.isFlying (s : State) : Bool := s.calls.any fun call ↦ call.pc.flight.isSome

def State.next (s : State) : Action → Option Pc
  | .advance k => s.pcAt k
  | _ => none

/-- A connection is taken only when it is the only one that waits, and none is put into the
queue while another is being opened. -/
def sole (s : State) (a : Action) : Bool :=
  match s.next a with
  | some (.pushing _) => !s.isFlying
  | some .looping => s.availChannelQueue.isEmpty || s.connectQue.length ≤ 1
  | _ => true

/-- What a call in flight reads still has the id and the channel of the connection that it has
erased from the queue. -/
def keeps (residue : Connection → Connection) (s : State) (a : Action) : Bool :=
  match (s.next a).bind Pc.flight with
  | some _ =>
    (residue s.remnant).id = s.remnant.id && (residue s.remnant).channel = s.remnant.channel
  | none => true

/-- It is still that connection, and its port fits. -/
def intact (residue : Connection → Connection) (s : State) (a : Action) : Bool :=
  match (s.next a).bind Pc.flight with
  | some _ => residue s.remnant = s.remnant && 0 < s.remnant.port && s.remnant.port < 2 ^ 16
  | none => true

def served (residue : Connection → Connection) (s : State) (a : Action) : Bool :=
  sole s a && keeps residue s a

def aimed (residue : Connection → Connection) (s : State) (a : Action) : Bool :=
  sole s a && intact residue s a

section

variable {residue : Connection → Connection} {faithful : Bool} {s t : State} {k : ℕ}

theorem keeps_of_intact {a : Action} (h : intact residue s a = true) :
    keeps residue s a = true := by
  rw [keeps]
  rw [intact] at h
  split at h
  · simp only [Bool.and_eq_true, decide_eq_true_eq] at h
    simp [h.1.1]
  · rfl

theorem served_of_aimed {a : Action} (h : aimed residue s a = true) :
    served residue s a = true := by
  rw [aimed, Bool.and_eq_true] at h
  rw [served, h.1, keeps_of_intact h.2, Bool.and_self]

theorem keeps_of_flight {pc : Pc} {x : Stage × ℕ} (h : s.pcAt k = some pc)
    (hx : pc.flight = some x) (hkeeps : keeps residue s (.advance k) = true) :
    (residue s.remnant).id = s.remnant.id ∧ (residue s.remnant).channel = s.remnant.channel := by
  simpa [keeps, State.next, h, hx] using hkeeps

theorem intact_of_flight {pc : Pc} {x : Stage × ℕ} (h : s.pcAt k = some pc)
    (hx : pc.flight = some x) (hintact : intact residue s (.advance k) = true) :
    residue s.remnant = s.remnant ∧ 0 < s.remnant.port ∧ s.remnant.port < 2 ^ 16 := by
  simpa [intact, State.next, h, hx, and_assoc] using hintact

theorem flight_none (h : s.isFlying = false) (i : ℕ) : s.desk.flight i = none := by
  by_contra hne
  obtain ⟨x, hx⟩ := Option.ne_none_iff_exists'.1 hne
  obtain ⟨pc, hpc, hx⟩ := Option.bind_eq_some_iff.1 hx
  obtain ⟨call, hcall, rfl⟩ := Option.map_eq_some_iff.1 hpc
  have := List.any_eq_false.1 h call (List.mem_of_getElem? hcall)
  rw [hx] at this
  exact this rfl

theorem flight_owns {i j : ℕ} {stage : Stage} (h : s.desk.flight i = some (stage, j)) :
    ∃ call, s.calls[i]? = some call ∧ call.pc.owns j = true ∧ call.pc.flight ≠ none := by
  obtain ⟨pc, hpc, hx⟩ := Option.bind_eq_some_iff.1 h
  obtain ⟨call, hcall, rfl⟩ := Option.map_eq_some_iff.1 hpc
  refine ⟨call, hcall, ?_, by rw [hx]; nofun⟩
  cases hp : call.pc <;> rw [hp] at hx <;> cases hx <;> simp [Pc.owns]

theorem conn_eq (hs : s.desk.Serving) {x : Stage × ℕ} (h : s.desk.flight k = some x) :
    s.conn residue = residue s.remnant := by
  have hq : s.connectQue = [] := (hs.carried k x.1 x.2 h).1
  rw [State.conn, hq, List.headD_nil]

theorem eof_desk (ho : ∀ j, s.owners j ≤ 1) {event : IoEvent} {channel : ℕ} {id : ℤ} {pc' : Pc}
    (h : s.pcAt k = some (.handling event channel id)) (he : event.isTerminal = true)
    (hp' : pc'.flight = none) :
    s.desk.Move faithful ((handleNetworkEOF s channel).goto k pc').desk := by
  -- The event holds the channel, so a call in flight with it would be its second owner.
  have hfree : ∀ i stage, s.desk.flight i ≠ some (stage, channel) := by
    intro i stage hi
    obtain ⟨call, hcall, howns, hflight⟩ := flight_owns hi
    obtain ⟨call', hcall', hpc'⟩ := Option.map_eq_some_iff.1 h
    have hik : i ≠ k := by
      rintro rfl
      rw [hcall', Option.some.injEq] at hcall
      rw [← hcall, hpc'] at hflight
      exact hflight rfl
    have howns' : call'.pc.owns channel = true := by simp [hpc', Pc.owns, he]
    have h2 : 2 ≤ s.calls.countP (·.pc.owns channel) :=
      two_le_countP hik hcall hcall' howns howns'
    have h1 := ho channel
    rw [State.owners] at h1
    omega
  have hd : (handleNetworkEOF s channel).desk = { s.desk with
      entry := Function.update s.desk.entry (s.desk.ival channel) none
      ival := Function.update s.desk.ival channel (-1) } := by
    refine Desk.ext rfl rfl ?_ ?_ ?_ rfl rfl rfl
    · exact Function.comp_update (Option.map Connection.channel) s.aliveConnects _ _
    · exact Function.comp_update Channel.ival s.channels channel _
    · exact (Function.comp_update Channel.remote s.channels channel _).trans
        (Function.update_eq_self channel s.desk.remote)
  exact move_quiet h rfl hp' (hd ▸ .release hfree) rfl

/-- The entry of a flight is for its id, with its channel. -/
theorem insertAlive_desk {channel : ℕ} (h : s.pcAt k = some (.inserting channel))
    (hk : s.desk.flight k = some (.inserting, channel)) {conn : Connection}
    (hid : conn.id = s.remnant.id) (hch : conn.channel = s.remnant.channel) :
    s.desk.Move faithful (insertAlive s k conn channel).desk := by
  have hentry : ((s.aliveConnects s.remnant.id).getD conn).channel =
      (s.desk.entry s.remnant.id).getD s.remnant.channel := by
    simp only [State.desk]
    cases s.aliveConnects s.remnant.id with
    | none => exact hch
    | some entry => rfl
  refine move_flight h (entry_update s _ _) ?_ rfl
  rw [hid, Option.map_some, hentry]
  exact .insert hk

theorem stride_desk {pc : Pc} (hn : s.Numbered) (ho : ∀ j, s.owners j ≤ 1) (hs : s.desk.Serving)
    (h : s.pcAt k = some pc) (ha : served residue s (.advance k) = true)
    (hf : faithful = true → intact residue s (.advance k) = true)
    (ht : Stride residue s k pc t) : s.desk.Move faithful t.desk := by
  have hflight : s.desk.flight k = pc.flight := by simp only [State.desk, h, Option.bind_some]
  rw [served, Bool.and_eq_true] at ha
  obtain ⟨ha, hkeeps⟩ := ha
  cases ht with
  | push conn =>
    obtain ⟨hpos, -, hne⟩ := hn.pushing k conn h
    simp only [sole, State.next, h, Bool.not_eq_true'] at ha
    exact move_quiet h rfl rfl (.push conn (flight_none ha) hpos hne) rfl
  | success =>
    refine move_quiet h rfl rfl ?_ rfl
    rw [desk_setTransport]
    exact .stay
  | eof channel id he _ => exact eof_desk ho h he rfl
  | packet | dispatch | leave | search | miss => exact move_quiet h rfl rfl .stay rfl
  | takeLast hq _ => exact move_flight h rfl (.take k _ hq) rfl
  | takeFront hq hav =>
    -- After the erase `conn` would denote the next connection in the queue.
    simp [sole, State.next, h, hq, hav] at ha
  | insert channel _ =>
    obtain ⟨hid, hch⟩ := keeps_of_flight h rfl hkeeps
    exact insertAlive_desk h hflight (conn_eq hs hflight ▸ hid) (conn_eq hs hflight ▸ hch)
  | tag channel =>
    refine move_flight h (desk_setIval rfl) ?_ rfl
    dsimp only
    rw [conn_eq hs hflight, (keeps_of_flight h rfl hkeeps).1]
    exact .tag hflight
  | configure channel =>
    refine move_flight h (desk_setRemote rfl) (.configure _ _ hflight fun hfaithful ↦ ?_) rfl
    obtain ⟨hr, hport⟩ := intact_of_flight h rfl (hf hfaithful)
    rw [conn_eq hs hflight, hr]
    exact ⟨rfl, toNat_setPort _ hport⟩
  | launch channel =>
    refine move_flight h (desk_opens rfl rfl) (.launch _ hflight fun hfaithful ↦ ?_) rfl
    rw [conn_eq hs hflight, (intact_of_flight h rfl (hf hfaithful)).1]
    rfl
  | close =>
    refine move_quiet h rfl rfl ?_ ?_
    · rw [desk_closeChannel]
      exact .stay
    · unfold closeChannel
      split_ifs <;> rfl
  | erase hany =>
    refine move_quiet h rfl rfl ?_ rfl
    obtain ⟨conn, hconn, hid⟩ := List.any_eq_true.1 hany
    obtain rfl := of_decide_eq_true hid
    exact .remove _ hconn

theorem step_desk {a : Action} (hn : s.Numbered) (ho : ∀ j, s.owners j ≤ 1) (hs : s.desk.Serving)
    (ha : served residue s a = true) (hf : faithful = true → intact residue s a = true)
    (ht : step residue s a = some t) : s.desk.Move faithful t.desk := by
  cases step_turn ht with
  | connect host port kind =>
    rw [connect, desk_spawn rfl]
    exact .stay
  | disconnect id =>
    rw [desk_spawn rfl]
    exact .stay
  | process => exact .of_eq (desk_setChannel_same rfl rfl)
  | fire =>
    rw [desk_spawn rfl]
    exact .of_eq (desk_setChannel_same rfl rfl)
  | advance hpc ht => exact stride_desk hn ho hs hpc ha hf ht

theorem start_serving (n : ℤ) : (start n).desk.Serving where
  nodup := List.nodup_nil
  positive _ h := nomatch h
  alone _ _ h := absurd rfl h
  idle _ := rfl
  carried _ _ _ h := nomatch h
  entries _ h := absurd rfl h
  ivals _ := .inl (Int.le_refl 0)
  correct _ h := nomatch h

theorem serving_of_run {n : ℤ} {as : List Action}
    (h : Run (step residue) (fun s a ↦ served residue s a = true) (start n) as s) :
    s.desk.Serving := by
  refine h.along (I := fun s ↦ s.desk.Serving) (fun bs s a t hrun hs ha ht ↦ ?_) (start_serving n)
  have hm : s.desk.Move false t.desk :=
    step_desk (numbered_of_run hrun) (owners_of_run hrun) hs ha nofun ht
  exact hs.move hm

theorem desk_of_run {n : ℤ} {as : List Action} {a : Action}
    (h : Run (step residue) (fun s a ↦ served residue s a = true) (start n) as s)
    (ha : served residue s a = true) (ht : step residue s a = some t) :
    s.desk.Move false t.desk :=
  step_desk (numbered_of_run h) (owners_of_run h) (serving_of_run h) ha nofun ht

theorem aimed_of_run {n : ℤ} {as : List Action}
    (h : Run (step residue) (fun s a ↦ aimed residue s a = true) (start n) as s) :
    s.desk.Aimed := by
  refine h.along (I := fun s ↦ s.desk.Aimed) (fun bs s a t hrun hs ha ht ↦ ?_)
    ⟨nofun, fun _ hi ↦ absurd rfl hi, nofun, nofun⟩
  have hserving := serving_of_run (hrun.mono fun _ _ ↦ served_of_aimed)
  have hintact : intact residue s a = true := (Bool.and_eq_true_iff.1 ha).2
  exact hs.move hserving (step_desk (numbered_of_run hrun) (owners_of_run hrun) hserving
    (served_of_aimed ha) (fun _ ↦ hintact) ht)

/-- While each connection that is taken is the only one waiting and is opened before the next
one comes, still reads as it did after the erase, and has a port that fits, what is owed is opened
in order, once each and with its own host, port and kind; nothing is lost; and each open finds the
connection's id on the channel, and an entry for the id with that channel. -/
theorem owed_connections_are_opened_in_order {n : ℤ} {as : List Action}
    (h : Run (step residue) (fun s a ↦ aimed residue s a = true) (start n) as s) :
    (s.owed.map Connection.id).Nodup ∧
      (s.opens.map Opening.target).IsPrefix (s.owed.map Connection.target) ∧
      (s.isFlying = false → s.opens.map Opening.target ++ s.connectQue.map Connection.target =
        s.owed.map Connection.target) ∧
      ∀ o ∈ s.opens, o.entry = some (o.channel : ℤ) := by
  have hs := serving_of_run (h.mono fun _ _ ↦ served_of_aimed)
  have haimed := aimed_of_run h
  exact ⟨hs.nodup, haimed.opens_isPrefix hs, fun hf ↦ haimed.idle hs (flight_none hf), hs.correct⟩

end

/-- What a long host has on the heap is gone with the element. -/
def freed (conn : Connection) : Connection :=
  if conn.host.length ≤ 22 then conn else { conn with host := "" }

/-- With one channel, a second connection waits until the first has been closed. -/
def twoInTurn : List Action :=
  [.connect "a" 1 5] ++ List.replicate 7 (.advance 0) ++
    [.connect "b" 2 5, .advance 1, .advance 1, .process 0, .fire 0 (.onOpen 0 5), .advance 2,
      .advance 2, .advance 2, .fire 0 (.onClose 7)] ++ List.replicate 8 (.advance 3)

theorem two_in_turn_are_opened :
    ∃ s, Run (step freed) (fun s a ↦ aimed freed s a = true) (start 1) twoInTurn s ∧
      s.connectQue = [] ∧ s.opens.map Opening.target = [⟨1, "a", 1, 5⟩, ⟨2, "b", 2, 5⟩] := by
  have hrun : ∃ s, Run (step freed) (fun s a ↦ aimed freed s a = true) (start 1) twoInTurn s ∧
      (s.connectQue = [] ∧ s.isFlying = false ∧
        s.owed.map Connection.target = [⟨1, "a", 1, 5⟩, ⟨2, "b", 2, 5⟩]) :=
    Run.exists_of_execute (by decide +kernel)
  obtain ⟨s, hs, hq, hf, ho⟩ := hrun
  have h := (owed_connections_are_opened_in_order hs).2.2.1 hf
  rw [hq, ho, List.map_nil, List.append_nil] at h
  exact ⟨s, hs, hq, h⟩

/-- With one channel, two connections wait when the first is closed. -/
def twoWaiting : List Action :=
  [.connect "a" 1 5] ++ List.replicate 7 (.advance 0) ++
    [.connect "b" 2 5, .advance 1, .advance 1, .connect "c" 3 5, .advance 2, .advance 2,
      .process 0, .fire 0 (.onOpen 0 5), .advance 3, .advance 3, .advance 3,
      .fire 0 (.onClose 7)] ++ List.replicate 8 (.advance 4)

/-- The second connection is lost and the third is opened in its place, with an entry that
has no channel, and still waits. -/
theorem waiting_connection_is_lost :
    ∃ s, Run (step freed) Any (start 1) twoWaiting s ∧
      (∀ call ∈ s.calls, call.pc = .returned) ∧
      s.owed.map Connection.target = [⟨1, "a", 1, 5⟩, ⟨2, "b", 2, 5⟩, ⟨3, "c", 3, 5⟩] ∧
      s.opens = [⟨0, 1, "a", 1, 5, some 0⟩, ⟨0, 3, "c", 3, 5, some (-1)⟩] ∧
      s.connectQue.map Connection.target = [⟨3, "c", 3, 5⟩] :=
  Run.exists_of_execute (by decide +kernel)

end MusicRemote.Client
