import MusicRemote.App.Device

namespace MusicRemote.Client

open Foundation.Transition

/-- The native `send`, over yasio's `write`. -/
def send (write : ℕ → List UInt8 → ℤ) (s : State) (connectionId : ℤ) (data : List UInt8) : ℤ :=
  match s.aliveConnects connectionId with
  | none => -1000
  | some conn =>
    match conn.transport with
    | none => -1001
    | some transport => write transport data

def Action.transport (j : ℕ) : Action → Option ℕ
  | .fire channel (.onOpen status transport) =>
    if channel = j ∧ status = 0 then some transport else none
  | _ => none

def lastTransport (as : List Action) (j : ℕ) : Option ℕ := (as.filterMap (·.transport j)).getLast?

/-- A channel in use has the entry of its connection. One that is open has the transport in the
entry, unless the event that brings it is still to be handled. -/
structure Wired (as : List Action) (s : State) : Prop where
  entered : ∀ j, (s.channels j).state ≠ .closed →
    ∃ conn, s.aliveConnects (s.channels j).ival = some conn ∧ conn.channel = j
  pending : ∀ k transport j id, s.pcAt k = some (.handling (.onOpen 0 transport) j id) →
    lastTransport as j = some transport
  wired : ∀ j, (s.channels j).state = .opened → ∃ transport, lastTransport as j = some transport ∧
    ((∃ k id, s.pcAt k = some (.handling (.onOpen 0 transport) j id)) ∨
      ∃ conn, s.aliveConnects (s.channels j).ival = some conn ∧ conn.transport = some transport)

def State.OneEvent (s : State) : Prop :=
  ∀ i k pc pc', s.pcAt i = some pc → s.pcAt k = some pc' → pc.isEvent = true →
    pc'.isEvent = true → i = k

section

variable {residue : Connection → Connection} {s t u : State} {as : List Action} {a : Action}
  {k : ℕ} {pc pc' : Pc} {id : ℤ} {p : Place}

theorem lastTransport_concat (as : List Action) (a : Action) (j : ℕ) :
    lastTransport (as ++ [a]) j = (a.transport j).or (lastTransport as j) := by
  rw [lastTransport, List.filterMap_append, List.getLast?_append]
  cases h : a.transport j <;> simp [h, lastTransport]

theorem lastTransport_of_none {j : ℕ} (h : a.transport j = none) :
    lastTransport (as ++ [a]) j = lastTransport as j := by
  rw [lastTransport_concat, h, Option.none_or]

theorem event_of_spawn {b : Bool} {i : ℕ} (hpc' : pc'.isEvent = false)
    (hi : (u.spawn b pc').pcAt i = some pc) (he : pc.isEvent = true) : u.pcAt i = some pc := by
  rw [pcAt_spawn] at hi
  split_ifs at hi
  · rw [← Option.some.inj hi, hpc'] at he
    cases he
  · exact hi

/-- Only yasio brings events. -/
theorem event_of_step (ha : ∀ channel event, a ≠ .fire channel event)
    (ht : step residue s a = some t) {i : ℕ} (hi : t.pcAt i = some pc) (he : pc.isEvent = true) :
    ∃ pc', s.pcAt i = some pc' ∧ pc'.isEvent = true := by
  cases step_turn ht with
  | connect | disconnect => exact ⟨pc, event_of_spawn rfl hi he, he⟩
  | process => exact ⟨pc, hi, he⟩
  | fire => exact absurd rfl (ha _ _)
  | @advance k pc₀ _ hk hs =>
    obtain ⟨u, pc', rfl, hu, hpc⟩ := stride_event hs
    have hcalls (i : ℕ) : u.pcAt i = s.pcAt i := by rw [State.pcAt, hu, State.pcAt]
    rw [pcAt_goto ((hcalls k).trans hk), hcalls] at hi
    split_ifs at hi with hik
    · cases hi
      exact ⟨pc₀, hik ▸ hk, hpc he⟩
    · exact ⟨pc, hi, he⟩

theorem step_oneEvent (h : s.OneEvent) (hn : s.Networked) (ht : step residue s a = some t) :
    t.OneEvent := by
  intro i k pc₁ pc₂ hi hk he₁ he₂
  by_cases ha : ∀ channel event, a ≠ .fire channel event
  · obtain ⟨pc₁, hi, he₁⟩ := event_of_step ha ht hi he₁
    obtain ⟨pc₂, hk, he₂⟩ := event_of_step ha ht hk he₂
    exact h i k pc₁ pc₂ hi hk he₁ he₂
  · simp only [not_forall, not_not] at ha
    obtain ⟨channel, event, rfl⟩ := ha
    -- All the calls that were there have no event.
    have hlast {i : ℕ} {pc : Pc} (hi : t.pcAt i = some pc) (he : pc.isEvent = true) :
        i = s.calls.length := by
      cases step_turn ht with
      | fire =>
        rw [pcAt_spawn] at hi
        split_ifs at hi with hil
        · exact hil
        · rw [events_idle hn ht hi] at he
          cases he
    rw [hlast hi he₁, hlast hk he₂]

def Pc.opens : Pc → Bool
  | .handling (.onOpen status _) _ _ => status = 0
  | _ => false

def SameOpens (s t : State) : Prop :=
  ∀ i transport j id, t.pcAt i = some (.handling (.onOpen 0 transport) j id) ↔
    s.pcAt i = some (.handling (.onOpen 0 transport) j id)

theorem sameOpens_goto (hk : s.pcAt k = some pc) (hu : u.calls = s.calls) (hpc : pc.opens = false)
    (hpc' : pc'.opens = false) : SameOpens s (u.goto k pc') := by
  intro i transport j id
  have hcalls (i : ℕ) : u.pcAt i = s.pcAt i := by rw [State.pcAt, hu, State.pcAt]
  rw [pcAt_goto ((hcalls k).trans hk), hcalls]
  split_ifs with hik
  · rw [hik, hk, Option.some.injEq, Option.some.injEq]
    exact iff_of_false (fun h ↦ by rw [h] at hpc'; cases hpc') fun h ↦ by rw [h] at hpc; cases hpc
  · rfl

theorem sameOpens_spawn {b : Bool} (hu : u.calls = s.calls) (hpc : pc.opens = false) :
    SameOpens s (u.spawn b pc) := by
  intro i transport j id
  have hcalls (i : ℕ) : u.pcAt i = s.pcAt i := by rw [State.pcAt, hu, State.pcAt]
  rw [pcAt_spawn, hcalls, hu]
  split_ifs with hi
  · rw [Option.some.injEq]
    refine iff_of_false (fun h ↦ by rw [h] at hpc; cases hpc) fun h ↦ ?_
    rw [State.pcAt, hi, List.getElem?_eq_none (Nat.le_refl _)] at h
    cases h
  · rfl

namespace Wired

/-- The step opens no channel, and what it does to one is to close it or to leave its connection as
it is. -/
theorem keep (h : Wired as s) (ha : ∀ j, a.transport j = none) (hopens : SameOpens s t)
    (hchannels : ∀ j, (t.channels j).state = .closed ∨ (s.channels j).state ≠ .closed ∧
      (t.channels j).ival = (s.channels j).ival ∧
      t.aliveConnects (s.channels j).ival = s.aliveConnects (s.channels j).ival ∧
      ((t.channels j).state = .opened → (s.channels j).state = .opened)) :
    Wired (as ++ [a]) t where
  entered j hj := by
    obtain ⟨hs, hival, halive, -⟩ := (hchannels j).resolve_left hj
    rw [hival, halive]
    exact h.entered j hs
  pending i transport j id hi := by
    rw [lastTransport_of_none (ha j)]
    exact h.pending i transport j id ((hopens i transport j id).1 hi)
  wired j hj := by
    obtain ⟨hs, hival, halive, hopened⟩ := (hchannels j).resolve_left (by simp [hj])
    obtain ⟨transport, hlast, hwired⟩ := h.wired j (hopened hj)
    refine ⟨transport, by rw [lastTransport_of_none (ha j), hlast], ?_⟩
    rw [hival, halive]
    refine hwired.imp_left fun ⟨i, id, hi⟩ ↦ ⟨i, id, (hopens i transport j id).2 hi⟩

theorem same (h : Wired as s) (ha : ∀ j, a.transport j = none) (hopens : SameOpens s t)
    (hchannels : t.channels = s.channels) (halive : t.aliveConnects = s.aliveConnects) :
    Wired (as ++ [a]) t := by
  refine h.keep ha hopens fun j ↦ ?_
  rw [hchannels, halive]
  exact (em _).imp_right fun hj ↦ ⟨hj, rfl, rfl, fun h ↦ h⟩

/-- A channel that has been requested is closed, or none. -/
theorem close (h : Wired as s) (ha : ∀ j, a.transport j = none) (index : ℤ)
    (hk : s.pcAt k = some pc) (hpc : pc.opens = false) :
    Wired (as ++ [a]) ((closeChannel s index).goto k .returned) := by
  unfold closeChannel
  split_ifs with hc
  · refine h.keep ha (sameOpens_goto hk rfl hpc rfl) fun j ↦ ?_
    by_cases hj : j = index.toNat
    · left
      rw [hj]
      exact congrArg Channel.state (channels_setChannel_self ..)
    · have hsame : ((s.setChannel index.toNat { s.channels index.toNat with
          state := .closed }).goto k .returned).channels j = s.channels j :=
        channels_setChannel_of_ne s hj _
      rw [hsame]
      exact (em _).imp_right fun hj ↦ ⟨hj, rfl, rfl, fun h ↦ h⟩
  · exact h.same ha (sameOpens_goto hk rfl hpc rfl) rfl rfl

/-- The event's transport goes into the entry. -/
theorem success (h : Wired as s) (halone : s.Alone id p) {transport channel : ℕ}
    {connectionId : ℤ} (ha : ∀ j, a.transport j = none)
    (hk : s.pcAt k = some (.handling (.onOpen 0 transport) channel connectionId)) :
    Wired (as ++ [a]) ((s.setTransport connectionId transport).goto k
      (.dispatching (IoEvent.notice connectionId (.onOpen 0 transport)))) := by
  obtain ⟨rfl, hp⟩ := halone.calls k _ hk
  have hp : p = .on channel .opened := hp
  have hentry (i : ℤ) : (s.setTransport connectionId transport).aliveConnects i =
      (s.aliveConnects i).map fun conn ↦
        if i = connectionId then { conn with transport := some transport } else conn := by
    by_cases hi : i = connectionId
    · subst hi
      simp [State.setTransport]
    · simp [State.setTransport, hi, Function.update_of_ne]
  refine ⟨fun j hj ↦ ?_, fun i tr j id' hi ↦ ?_, fun j hj ↦ ?_⟩
  · obtain ⟨conn, hconn, hchannel⟩ := h.entered j hj
    refine ⟨_, (hentry _).trans (Option.map_eq_some_iff.2 ⟨conn, hconn, rfl⟩), ?_⟩
    split_ifs <;> exact hchannel
  · rw [lastTransport_of_none (ha j)]
    rw [pcAt_goto (s := s.setTransport ..) hk] at hi
    split_ifs at hi
    · cases hi
    · exact h.pending i tr j id' hi
  · have hj' := hp ▸ halone.place_of_state hj (by simp)
    injection hj' with hj'
    subst hj'
    have hid := halone.lies.tagged channel (by rw [hp]; simp [Place.tags])
    have hopened : (s.channels channel).state = .opened := hj
    obtain ⟨conn, hconn, -⟩ := h.entered channel (by simp [hopened])
    refine ⟨transport, by rw [lastTransport_of_none (ha channel), h.pending k _ _ _ hk],
      .inr ⟨_, (hentry _).trans (Option.map_eq_some_iff.2 ⟨conn, hconn, rfl⟩), ?_⟩⟩
    exact congrArg Connection.transport (if_pos hid)

theorem launch (h : Wired as s) (halone : s.Alone id p) (hs : s.desk.Serving) {channel : ℕ}
    {conn : Connection} (ha : ∀ j, a.transport j = none)
    (hk : s.pcAt k = some (.opening channel)) :
    Wired (as ++ [a]) (openChannel s k conn channel) := by
  have hflight : s.desk.flight k = some (.opening, channel) := by
    simp only [State.desk, hk, Option.bind_some, Pc.flight]
  obtain ⟨hentry, hival⟩ := (hs.carried k _ _ hflight).2.2
  obtain ⟨hp, hon⟩ : p = .flying k .opening channel ∧
    (openChannel s k conn channel).Alone id (.on channel .requested) := halone.launch hk
  have hopens : SameOpens s (openChannel s k conn channel) := sameOpens_goto hk rfl rfl rfl
  refine ⟨fun j hj ↦ ?_, fun i tr j id' hi ↦ ?_, fun j hj ↦ ?_⟩
  · have hj' := hon.place_of_state rfl hj
    injection hj' with hj'
    subst hj'
    obtain ⟨entry, halive, hchannel⟩ := Option.map_eq_some_iff.1 hentry
    refine ⟨entry, ?_, hchannel⟩
    have hsame : ((openChannel s k conn channel).channels channel).ival =
        (s.channels channel).ival := by
      simp [openChannel, State.goto]
    rw [hsame, ← halive, ← hival]
    rfl
  · rw [lastTransport_of_none (ha j)]
    exact h.pending i tr j id' ((hopens i tr j id').1 hi)
  · cases hon.place_of_state hj (by simp)

/-- Yasio opens the channel that the connection is on. -/
theorem opened (h : Wired as s) (halone : s.Alone id p) {channel transport : ℕ}
    (hidle : ∀ i pc, s.pcAt i = some pc → pc.isEvent = false)
    (hold : (s.channels channel).state ≠ .closed) :
    Wired (as ++ [.fire channel (.onOpen 0 transport)])
      ((s.setChannel channel { s.channels channel with state := .opened }).spawn true
        (.handling (.onOpen 0 transport) channel (s.channels channel).ival)) := by
  have hp := halone.place_of_state rfl hold
  have hlast : lastTransport (as ++ [.fire channel (.onOpen 0 transport)]) channel =
      some transport := by
    simp [lastTransport_concat, Action.transport]
  refine ⟨fun j hj ↦ ?_, fun i tr j id' hi ↦ ?_, fun j hj ↦ ?_⟩
  · simp only [State.spawn] at hj ⊢
    by_cases hjc : j = channel
    · subst hjc
      rw [channels_setChannel_self]
      exact h.entered j hold
    · rw [channels_setChannel_of_ne s hjc] at hj ⊢
      exact h.entered j hj
  · rw [pcAt_spawn] at hi
    split_ifs at hi
    · cases hi
      exact hlast
    · cases hidle i _ hi
  · by_cases hjc : j = channel
    · subst hjc
      refine ⟨transport, hlast, .inl ⟨s.calls.length, (s.channels j).ival, ?_⟩⟩
      rw [pcAt_spawn]
      exact if_pos rfl
    · simp only [State.spawn] at hj
      rw [channels_setChannel_of_ne s hjc] at hj
      have hj' := hp ▸ halone.place_of_state hj (by simp)
      injection hj' with hj'
      exact absurd hj'.symm hjc

theorem fire (h : Wired as s) (halone : s.Alone id p) {channel : ℕ} {event : IoEvent}
    {state : ChannelState} (hidle : ∀ i pc, s.pcAt i = some pc → pc.isEvent = false)
    (hstate : event.next (s.channels channel).state = some state) :
    Wired (as ++ [.fire channel event])
      ((s.setChannel channel { s.channels channel with state := state }).spawn true
        (.handling event channel (s.channels channel).ival)) := by
  obtain ⟨hold, hnew⟩ := next_eq_some hstate
  by_cases hopens : ∃ transport, event = .onOpen 0 transport
  · obtain ⟨transport, rfl⟩ := hopens
    subst hnew
    exact h.opened halone hidle hold
  · have hother (j : ℕ) : (Action.fire channel event).transport j = none ∧
        (Pc.handling event channel (s.channels channel).ival).opens = false := by
      cases event with
      | onOpen status transport =>
        have hs : status ≠ 0 := fun hs ↦ hopens ⟨transport, by rw [hs]⟩
        simp [Action.transport, Pc.opens, hs]
      | onClose | onPacket => exact ⟨rfl, rfl⟩
    refine h.keep (fun j ↦ (hother j).1) (sameOpens_spawn rfl (hother 0).2) fun j ↦ ?_
    simp only [State.spawn]
    by_cases hj : j = channel
    · subst hj
      rw [channels_setChannel_self]
      refine (em _).imp_right fun hs ↦ ⟨hold, rfl, rfl, fun _ ↦ ?_⟩
      cases event with
      | onOpen status transport =>
        have hs' : status ≠ 0 := fun hs ↦ hopens ⟨transport, by rw [hs]⟩
        simp [hnew, IoEvent.isTerminal, hs'] at hs
      | onClose => exact absurd hnew hs
      | onPacket => cases hc : (s.channels j).state <;> rw [hc] at hstate <;> cases hstate
    · rw [channels_setChannel_of_ne s hj]
      exact (em _).imp_right fun hs ↦ ⟨hs, rfl, rfl, fun h ↦ h⟩

theorem stride (h : Wired as s) (halone : s.Alone id p) (hs : s.desk.Serving)
    (hk : s.pcAt k = some pc) (ht : Stride residue s k pc t) :
    Wired (as ++ [.advance k]) t := by
  have hnone (j : ℕ) : (Action.advance k).transport j = none := rfl
  have hclosed {u : State} {pc' : Pc} (hpc : pc.opens = false) (hpc' : pc'.opens = false)
      (hu : u.calls = s.calls) (hc : ∀ j, (u.channels j).state = .closed) :
      Wired (as ++ [.advance k]) (u.goto k pc') :=
    h.keep hnone (sameOpens_goto hk hu hpc hpc') fun j ↦ .inl (hc j)
  have hflying {stage : Stage} {channel : ℕ} (hp : p = .flying k stage channel) :
      ∀ j, (s.channels j).state = .closed := halone.closed (by simp [hp])
  cases ht with
  | success => exact h.success halone hnone hk
  | @eof event channel connectionId he =>
    refine hclosed ?_ rfl rfl ((halone.eof hk he).2.closed (by simp))
    cases event with
    | onOpen status transport => simpa [Pc.opens, IoEvent.isTerminal] using he
    | onClose | onPacket => rfl
  | insert channel => exact hclosed rfl rfl rfl (hflying (halone.calls k _ hk))
  | tag channel | configure channel =>
    have hall := hflying (halone.calls k _ hk)
    refine hclosed rfl rfl rfl (closed_setChannel hall ?_)
    exact hall channel
  | launch => exact h.launch halone hs hnone hk
  | close => exact h.close hnone _ hk rfl
  | _ => exact h.same hnone (sameOpens_goto hk rfl rfl rfl) rfl rfl

theorem step (h : Wired as s) (halone : s.Alone id p) (hn : s.Networked) (hs : s.desk.Serving)
    (ht : step residue s a = some t) : Wired (as ++ [a]) t := by
  cases step_turn ht with
  | connect | disconnect => exact h.same (fun _ ↦ rfl) (sameOpens_spawn rfl rfl) rfl rfl
  | @process channel hc =>
    refine h.keep (fun _ ↦ rfl) (fun _ _ _ _ ↦ Iff.rfl) fun j ↦ ?_
    by_cases hj : j = channel
    · subst hj
      rw [channels_setChannel_self]
      exact .inr ⟨by simp [hc], rfl, rfl, by simp⟩
    · rw [channels_setChannel_of_ne s hj]
      exact (em _).imp_right fun hs ↦ ⟨hs, rfl, rfl, fun h ↦ h⟩
  | fire hstate => exact h.fire halone (fun i pc hi ↦ events_idle hn ht hi) hstate
  | advance hk hstride => exact h.stride halone hs hk hstride

end Wired

theorem start_oneEvent (n : ℤ) : (start n).OneEvent := fun _ _ _ _ hi ↦ by cases hi

theorem start_wired (n : ℤ) : Wired [] (start n) where
  entered _ h := absurd rfl h
  pending _ _ _ _ h := nomatch h
  wired _ h := nomatch h

end

end MusicRemote.Client

namespace MusicRemote.App

open Client Foundation.Transition

def Device.Silent (d : Device) : Prop :=
  d.main.state.network ≠ .idle → ∀ i pc, d.client.pcAt i = some pc → pc.isEvent = false

section

variable {residue : Connection → Connection} {d e : Device} {p : Place} {a : DeviceAction}
  {as : List DeviceAction}

/-- A call of the activity's brings no event. -/
theorem label_ne_fire {a : Action} {b : Client.Action} (h : d.label (.main (.app a)) = some b)
    (channel : ℕ) (event : IoEvent) : b ≠ .fire channel event := by
  rintro rfl
  simp only [Device.label] at h
  split at h
  · obtain ⟨host, -, hh⟩ := Option.map_eq_some_iff.1 h
    cases hh
  · split_ifs at h
    cases h

theorem step_silent (h : d.Silent) (hone : d.client.OneEvent) (hj : d.Joined p)
    (ht : d.step residue a = some e) : e.Silent := by
  intro hn i pc hi
  by_contra he
  rw [Bool.not_eq_false] at he
  have hshown := client_shown hj ht
  have hcontra (hn : d.main.state.network ≠ .idle) {pc' : Pc} (hi : d.client.pcAt i = some pc')
      (he : pc'.isEvent = true) : False := by
    rw [h hn i pc' hi] at he
    cases he
  cases Device.turn_of_step ht with
  | click hmain hclient =>
    rw [network_of_click hmain] at hn
    exact hcontra hn (hclient ▸ hi) he
  | @app a hnative hmain =>
    obtain ⟨hclick, hstep⟩ := app_of_mainStep hmain
    have hn := (busy_step hstep hnative hclick).2 hn
    cases hl : d.label (.main (.app a)) with
    | none =>
      rw [hl] at hshown
      exact hcontra hn (hshown ▸ hi) he
    | some b =>
      rw [hl] at hshown
      obtain ⟨pc', hi, he⟩ := event_of_step (label_ne_fire hl) hshown hi he
      exact hcontra hn hi he
  | @client b _ hblocked hclient hmain =>
    rw [hmain, Device.hears] at hn
    cases hd : d.client.delivers b with
    | some notice =>
      obtain ⟨k, rfl, hk⟩ := delivers_cases hd
      obtain ⟨pc', hi', he'⟩ := event_of_step (a := .advance k) (by simp) hclient hi he
      obtain rfl := hone i k _ _ hi' hk he' rfl
      rw [Client.step, hk, Option.bind_some, Client.advance, Option.some.injEq] at hclient
      have hk' : Client.State.pcAt { d.client with notices := d.client.notices ++ [notice] } i =
          some (.dispatching notice) := hk
      rw [← hclient, pcAt_goto hk', if_pos rfl] at hi
      cases hi
      cases he
    | none =>
      have hn : d.main.state.network ≠ .idle := by
        simp only [hd] at hn
        cases hdrops : d.client.drops b <;> rw [hdrops] at hn <;> exact hn
      obtain ⟨pc', hi, he⟩ := event_of_step (fun channel event hfire ↦ hn (hblocked (by
        rw [hfire]; rfl))) hclient hi he
      exact hcontra hn hi he

/-- What the client's log tells of the transports is what its entries hold. -/
theorem wired_of_run (h : Run (Device.step residue) (Orderly residue) .start as d) :
    Wired (traced (Device.step residue) Device.label .start as) d.client ∧
      d.client.OneEvent ∧ d.Silent := by
  refine (h.history (I := fun bs u ↦ Run (Device.step residue) (Orderly residue) .start bs u ∧
    Wired (traced (Device.step residue) Device.label .start bs) u.client ∧ u.client.OneEvent ∧
      u.Silent) (fun bs u a v ⟨hu, hwired, hone, hsilent⟩ ha hv ↦ ?_)
    ⟨.nil _, start_wired 3, start_oneEvent 3, fun hn ↦ absurd rfl hn⟩).2
  obtain ⟨p, hp⟩ := joined_of_run hu
  have hserving := serving_of_run (client_of_run hu)
  have hshown := client_shown hp hv
  refine ⟨hu.trans (.one ha hv), ?_, ?_, step_silent hsilent hone hp hv⟩
  · rw [hu.traced_concat]
    cases hl : u.label a with
    | none =>
      rw [hl, Shown] at hshown
      rwa [hshown, Option.toList_none, List.append_nil]
    | some b =>
      rw [hl] at hshown
      exact hwired.step hp.alone hp.networked hserving hshown
  · cases hl : u.label a with
    | none =>
      rw [hl, Shown] at hshown
      rwa [hshown]
    | some b =>
      rw [hl] at hshown
      exact step_oneEvent hone hp.networked hshown

end

def receiving : List DeviceAction :=
  opening ++ List.replicate 3 (.main (.app .network)) ++
    [.client (.advance 1), .client (.fire 0 (.onPacket [7])), .client (.advance 2),
      .client (.advance 2), .main (.app .network)]

end MusicRemote.App
