import MusicRemote.App.Address
import MusicRemote.App.Place
import MusicRemote.App.Single

namespace MusicRemote.Client

def State.onNetwork (s : State) : Action → Bool
  | .process _ | .fire _ _ => true
  | .advance k => (s.calls[k]?.map Call.onNetwork).getD false
  | .connect _ _ _ | .disconnect _ => false

end MusicRemote.Client

namespace MusicRemote.App

open Client Foundation.Transition Function

def Connecting.id? : Connecting → Option ℤ
  | .assigning id => some id
  | _ => none

def UiPc.id? : UiPc → Option ℤ
  | .connecting c => c.id?
  | _ => none

def NetworkPc.id? : NetworkPc → Option ℤ
  | .connecting c => c.id?
  | _ => none

def State.assigning (s : State) : Action → Option ℤ
  | .ui => s.ui.id?
  | .network => s.network.id?
  | _ => none

def State.closes (s : State) (a : Action) : Bool := a = .ui && s.ui = .closing

/-- What happens to connections is for the native client to say. -/
def Action.isNative : Action → Bool
  | .event _ _ | .vanish _ => true
  | _ => false

/-- The activity and its native client, with the arguments of the `connect` that a thread is in. -/
structure Device where
  main : Main
  client : Client.State
  arguments : Action → Connect

def Device.start : Device := ⟨.created, Client.start 3, fun _ ↦ ⟨none, 0, 0⟩⟩

inductive DeviceAction
  | main (a : MainAction)
  | client (a : Client.Action)
  deriving DecidableEq

/-- The native `connect` from where it stores the id that it has computed. -/
def nativeConnect (s : Client.State) (id : ℤ) (host : String) (port kind : ℤ) : Client.State :=
  ({ s with connectionIdSeed := id }).spawn false (.pushing ⟨host, port, id, kind, -1, none⟩)

/-- What a step of a thread does to the client, whose calls then go on by themselves. A host that
is `null` ends the program. -/
def Device.calls (d : Device) (a : Action) : Option Client.State :=
  match d.main.state.assigning a with
  | some id =>
    if id ≤ maxInt then (d.arguments a).host.map fun host ↦
      nativeConnect d.client id host (d.arguments a).port (d.arguments a).kind
    else none
  | none => some
    (if d.main.state.closes a then
      d.client.spawn false (.searching d.main.state.activity.connectionId)
    else d.client)

def Main.hear (m : Main) (notice : Notice) : Main :=
  { m with state := { m.state with
    activity := { m.state.activity with
      live := if notice.type.isTerminal then m.state.activity.live.erase notice.connectionId
        else m.state.activity.live }
    network := .filtering notice.type notice.connectionId } }

def Main.forget (m : Main) (id : ℤ) : Main :=
  { m with state := { m.state with
    activity := { m.state.activity with live := m.state.activity.live.erase id } } }

def Device.hears (d : Device) (a : Client.Action) : Main :=
  match d.client.delivers a with
  | some notice => d.main.hear notice
  | none => (d.client.drops a).elim d.main d.main.forget

/-- The listener runs on the thread of the service, which waits for it. -/
def Device.step (residue : Connection → Connection) (d : Device) : DeviceAction → Option Device
  | .main (.click serverAddress token) =>
    (mainStep d.main (.click serverAddress token)).map fun main ↦ { d with main := main }
  | .main (.app a) =>
    if a.isNative then none
    else (mainStep d.main (.app a)).bind fun main ↦ (d.calls a).map fun client ↦
      { main := main
        client := client
        arguments := if d.main.state.callsConnect a then
          update d.arguments a ⟨d.main.serverIpAddress, d.main.serverPort, 5⟩ else d.arguments }
  | .client (.connect _ _ _) | .client (.disconnect _) => none
  | .client a =>
    if d.client.onNetwork a ∧ d.main.state.network ≠ .idle then none
    else (Client.step residue d.client a).map fun client ↦
      { d with main := d.hears a, client := client }

inductive Device.Turn (residue : Connection → Connection) (d e : Device) : DeviceAction → Prop
  | click {serverAddress token : String} :
      mainStep d.main (.click serverAddress token) = some e.main → e.client = d.client →
      e.arguments = d.arguments → Turn residue d e (.main (.click serverAddress token))
  | app {a : Action} : a.isNative = false → mainStep d.main (.app a) = some e.main →
      d.calls a = some e.client →
      e.arguments = (if d.main.state.callsConnect a then
        update d.arguments a ⟨d.main.serverIpAddress, d.main.serverPort, 5⟩ else d.arguments) →
      Turn residue d e (.main (.app a))
  | client {a : Client.Action} : (∀ host port kind, a ≠ .connect host port kind) →
      (d.client.onNetwork a = true → d.main.state.network = .idle) →
      Client.step residue d.client a = some e.client → e.main = d.hears a →
      e.arguments = d.arguments → Turn residue d e (.client a)

theorem Device.turn_of_step {residue : Connection → Connection} {d e : Device} {a : DeviceAction}
    (h : d.step residue a = some e) : d.Turn residue e a := by
  match a, h with
  | .main (.click serverAddress token), h =>
    obtain ⟨main, hmain, rfl⟩ := Option.map_eq_some_iff.1 h
    exact .click hmain rfl rfl
  | .main (.app a), h =>
    simp only [Device.step, Option.ite_none_left_eq_some, Option.bind_eq_some_iff,
      Option.map_eq_some_iff] at h
    obtain ⟨hnative, main, hmain, client, hclient, rfl⟩ := h
    exact .app (Bool.eq_false_iff.2 hnative) hmain hclient rfl
  | .client (.process _), h | .client (.fire _ _), h | .client (.advance _), h =>
    simp only [Device.step, Option.ite_none_left_eq_some, not_and, not_not,
      Option.map_eq_some_iff] at h
    obtain ⟨hblocked, client, hclient, rfl⟩ := h
    exact .client (by simp) hblocked hclient rfl rfl

def Foreground (d : Device) : DeviceAction → Prop
  | .main (.click _ _) => d.main.state.activity.isForeground = true
  | _ => True

instance (d : Device) (a : DeviceAction) : Decidable (Foreground d a) := by
  unfold Foreground
  split <;> infer_instance

def Device.keeps (residue : Connection → Connection) (d : Device) : DeviceAction → Bool
  | .main _ => true
  | .client a => Client.keeps residue d.client a

/-- Connect is clicked in the foreground, and a call in flight reads the right id and channel. -/
def Orderly (residue : Connection → Connection) (d : Device) (a : DeviceAction) : Prop :=
  Foreground d a ∧ d.keeps residue a = true

instance (residue : Connection → Connection) (d : Device) (a : DeviceAction) :
    Decidable (Orderly residue d a) :=
  inferInstanceAs (Decidable (_ ∧ _))

def Device.label (d : Device) : DeviceAction → Option Client.Action
  | .main (.click _ _) => none
  | .main (.app a) =>
    match d.main.state.assigning a with
    | some _ => (d.arguments a).host.map fun host ↦
      .connect host (d.arguments a).port (d.arguments a).kind
    | none => if d.main.state.closes a then
        some (.disconnect d.main.state.activity.connectionId) else none
  | .client a => some a

def Device.mainLabel (d : Device) : DeviceAction → Option MainAction
  | .main a => some a
  | .client a =>
    match d.client.delivers a with
    | some notice => some (.app (.event notice.type notice.connectionId))
    | none => (d.client.drops a).map fun id ↦ .app (.vanish id)

def NetworkPc.type? : NetworkPc → Option EventType
  | .filtering type _ | .routing type | .posting type => some type
  | .idle | .connecting _ => none

/-- The client has at most the latest connection, which is the one that the activity takes to be
there. What the listener has in hand is about this one. -/
structure Device.Joined (d : Device) (p : Place) : Prop where
  single : d.main.state.Single
  named : d.main.state.Named
  networked : d.client.Networked
  seed : d.main.state.activity.connectionIdSeed = d.client.connectionIdSeed
  alone : d.client.Alone d.client.connectionIdSeed p
  live : d.main.state.activity.live = if p = .nowhere then [] else [d.client.connectionIdSeed]
  nonneg : 0 ≤ d.client.connectionIdSeed
  issued : p ≠ .nowhere → d.client.connectionIdSeed ≠ 0
  hearing : ∀ type, d.main.state.network.type? = some type → type.isTerminal = false →
    ∃ j, p = .on j .opened
  filtering : ∀ type id, d.main.state.network = .filtering type id →
    id = d.client.connectionIdSeed ∧ id ≠ 0

section

variable {residue : Connection → Connection} {s t : State} {m m' : Main} {d e : Device}
  {p : Place} {a : Action}

theorem assigning_cases {id : ℤ} (h : s.assigning a = some id) :
    a = .ui ∧ s.ui = .connecting (.assigning id) ∨
      a = .network ∧ s.network = .connecting (.assigning id) := by
  cases a with
  | ui =>
    cases hui : s.ui with
    | connecting c => cases c <;> simp_all [State.assigning, UiPc.id?, Connecting.id?]
    | _ => simp [State.assigning, UiPc.id?, hui] at h
  | network =>
    cases hn : s.network with
    | connecting c => cases c <;> simp_all [State.assigning, NetworkPc.id?, Connecting.id?]
    | _ => simp [State.assigning, NetworkPc.id?, hn] at h
  | _ => cases h

structure Quiet (s t : State) : Prop where
  seed : t.activity.connectionIdSeed = s.activity.connectionIdSeed
  live : t.activity.live = s.activity.live
  type : t.network.type? = none ∨ t.network.type? = s.network.type?
  filtering : ∀ type id, t.network = .filtering type id → s.network = .filtering type id

theorem Quiet.of_network (hseed : t.activity.connectionIdSeed = s.activity.connectionIdSeed)
    (hlive : t.activity.live = s.activity.live) (hn : t.network = s.network) : Quiet s t :=
  ⟨hseed, hlive, .inr (by rw [hn]), fun _ _ h ↦ hn ▸ h⟩

theorem connect_frame {s : Activity} {c : Connecting} (hc : ∀ id, c ≠ .assigning id) :
    (connect s c).1.connectionIdSeed = s.connectionIdSeed ∧ (connect s c).1.live = s.live := by
  cases c with
  | changing changing =>
    obtain ⟨cur, screen, h⟩ := changeStatus_frame .connecting s changing
    simp only [connect, h, and_self]
  | predicting | storing | calling => exact ⟨rfl, rfl⟩
  | assigning id => exact absurd rfl (hc id)

theorem listens_quiet {n n' : NetworkPc} {activity : Activity} (hn : s.network = n)
    (hc : ∀ id, n ≠ .connecting (.assigning id)) (h : Listens s.activity n activity n') :
    Quiet s { s with activity := activity, network := n' } := by
  cases h with
  | foreign | data | post => exact ⟨rfl, rfl, .inl rfl, by simp⟩
  | own | route => exact ⟨rfl, rfl, .inr (by rw [hn]; rfl), by simp⟩
  | reconnect => exact ⟨rfl, rfl, .inl rfl, by simp⟩
  | connect c =>
    obtain ⟨hseed, hlive⟩ := connect_frame (s := s.activity) (c := c) fun id hid ↦
      hc id (by rw [hid])
    refine ⟨hseed, hlive, .inl ?_, fun type id h ↦ ?_⟩
    · cases (connect s.activity c).2 <;> rfl
    · dsimp only at h
      cases hnext : (connect s.activity c).2 <;> rw [hnext] at h <;> cases h

theorem step_quiet (h : step s a = some t) (ha : a.isNative = false)
    (hno : s.assigning a = none) : Quiet s t := by
  cases step_turn h with
  | clickConnect | clickDisconnect | pause | resume | runPosted => exact .of_network rfl rfl rfl
  | ui hr =>
    cases hui : s.ui.isConnecting with
    | false =>
      obtain ⟨⟨cur, screen, hframe⟩, -⟩ := advanceUi_frame hui hr
      dsimp only at hframe
      subst hframe
      exact .of_network rfl rfl rfl
    | true =>
      cases hpc : s.ui with
      | connecting c =>
        rw [hpc] at hr
        cases hr
        obtain ⟨hseed, hlive⟩ := connect_frame (s := s.activity) (c := c) fun id hid ↦ by
          simp [State.assigning, UiPc.id?, Connecting.id?, hpc, hid] at hno
        exact .of_network hseed hlive rfl
      | _ => simp [hpc, UiPc.isConnecting] at hui
  | event | vanish => cases ha
  | network hl =>
    refine listens_quiet rfl (fun id hid ↦ ?_) hl
    simp [State.assigning, NetworkPc.id?, Connecting.id?, hid] at hno

theorem start_joined : Device.start.Joined .nowhere where
  single := created_single
  named := created_named
  networked := start_networked 3
  seed := rfl
  alone := start_alone 3 0
  live := rfl
  nonneg := Int.le_refl 0
  issued h := absurd rfl h
  hearing _ h := by cases h
  filtering _ _ h := by cases h

theorem busy_step (h : step s a = some t) (ha : a.isNative = false) (hclick : a ≠ .clickConnect) :
    (t.ui.isConnecting = true → s.ui.isConnecting = true) ∧
      (t.network ≠ .idle → s.network ≠ .idle) := by
  cases step_turn h with
  | clickConnect => exact absurd rfl hclick
  | clickDisconnect | resume => exact ⟨(fun hc ↦ by cases hc), id⟩
  | pause => exact ⟨id, id⟩
  | @runPosted type =>
    refine ⟨fun hui ↦ ?_, id⟩
    cases type <;> cases hui
  | ui hr =>
    refine ⟨fun hui ↦ ?_, id⟩
    by_contra hno
    rw [(advanceUi_frame (Bool.eq_false_iff.2 hno) hr).2] at hui
    cases hui
  | event | vanish => cases ha
  | network hl =>
    refine ⟨id, fun _ hn ↦ ?_⟩
    rw [hn] at hl
    cases hl

theorem seed_of_step {s t : Client.State} {a : Client.Action}
    (ha : ∀ host port kind, a ≠ .connect host port kind) (h : Client.step residue s a = some t) :
    t.connectionIdSeed = s.connectionIdSeed := by
  cases step_progress h with
  | issue host port kind act => exact absurd act (ha host port kind)
  | idle _ seed => exact seed
  | advance _ _ eq h => exact eq ▸ h.seed

theorem delivers_cases {s : Client.State} {a : Client.Action} {notice : Notice}
    (h : s.delivers a = some notice) :
    ∃ k, a = .advance k ∧ s.pcAt k = some (.dispatching notice) := by
  unfold Client.State.delivers at h
  split at h <;> cases h
  rename_i hnext
  cases a with
  | advance k => exact ⟨k, rfl, hnext⟩
  | _ => cases hnext

theorem mainStep_hear {notice : Notice} (hidle : m.state.network = .idle)
    (hmem : notice.connectionId ∈ m.state.activity.live) :
    mainStep m (.app (.event notice.type notice.connectionId)) = some (m.hear notice) := by
  simp [mainStep, App.step, hidle, hmem, State.callsConnect, Main.hear]

theorem mainStep_forget (m : Main) (id : ℤ) :
    mainStep m (.app (.vanish id)) = some (m.forget id) := by
  simp [mainStep, App.step, State.callsConnect, Main.forget]

/-- A step of the activity's model is one of its threads. -/
theorem app_of_mainStep (h : mainStep m (.app a) = some m') :
    a ≠ .clickConnect ∧ step m.state a = some m'.state := by
  simp only [mainStep, Option.ite_none_left_eq_some, Option.map_eq_some_iff] at h
  obtain ⟨hclick, state, hstate, rfl⟩ := h
  exact ⟨hclick, hstate⟩

namespace Device.Joined

/-- The client's connection stays, and the activity does not look at the connections. -/
theorem quiet (h : d.Joined p) (hq : Quiet d.main.state e.main.state)
    (hsingle : e.main.state.Single) (hnamed : e.main.state.Named) (hnet : e.client.Networked)
    (hseed : e.client.connectionIdSeed = d.client.connectionIdSeed)
    (halone : e.client.Alone d.client.connectionIdSeed p) : e.Joined p where
  single := hsingle
  named := hnamed
  networked := hnet
  seed := by rw [hq.seed, hseed, h.seed]
  alone := hseed ▸ halone
  live := by rw [hq.live, hseed, h.live]
  nonneg := hseed ▸ h.nonneg
  issued := hseed ▸ h.issued
  hearing type htype := by
    rcases hq.type with hnone | hsame
    · rw [hnone] at htype
      cases htype
    · exact h.hearing type (hsame ▸ htype)
  filtering type id hf := hseed ▸ h.filtering type id (hq.filtering type id hf)

theorem not_hearing (h : d.Joined .nowhere) {type : EventType}
    (ht : d.main.state.network.type? = some type) : type.isTerminal = true := by
  cases hterminal : type.isTerminal with
  | true => rfl
  | false =>
    obtain ⟨j, hj⟩ := h.hearing type ht hterminal
    cases hj

theorem nowhere_of_live (h : d.Joined p) (hlive : d.main.state.activity.live = []) :
    p = .nowhere := by
  by_contra hp
  have := h.live
  rw [hlive, if_neg hp] at this
  cases this

/-- When a thread comes to the call, the client has no connection. -/
theorem nowhere_of_connecting (h : d.Joined p)
    (hc : d.main.state.ui.isConnecting = true ∨ d.main.state.network.isConnecting = true) :
    p = .nowhere :=
  h.nowhere_of_live (hc.elim (fun hui ↦ (h.single.exclusive hui).1)
    fun hn ↦ (h.single.exclusive_network hn).1)

/-- What the call leaves in the activity, on either thread. -/
theorem assigned (h : d.Joined p) {id : ℤ} (ha : d.main.state.assigning a = some id)
    (ht : App.step d.main.state a = some t) :
    p = .nowhere ∧ id = d.client.connectionIdSeed + 1 ∧ t.activity.connectionIdSeed = id ∧
      t.activity.live = [id] ∧ t.network.type? = none := by
  obtain ⟨rfl, hui⟩ | ⟨rfl, hn⟩ := assigning_cases ha
  · have hconnecting : d.main.state.ui.isConnecting = true := by rw [hui]; rfl
    obtain rfl := h.nowhere_of_connecting (.inl hconnecting)
    obtain ⟨hlive, hdeciding, hreconnect⟩ := h.single.exclusive hconnecting
    have hid : id = d.main.state.activity.connectionIdSeed + 1 := (h.named.ui _ hui).1
    simp only [App.step, advanceUi, hui, connect, hlive, Option.map_some, Option.map_none,
      Option.getD_none, Option.some.injEq] at ht
    subst ht
    refine ⟨rfl, by rw [← h.seed, hid], rfl, rfl, ?_⟩
    -- An event in the listener's hands would be a terminal one, and a click has to wait for it.
    cases htype : d.main.state.network with
    | idle | connecting => rfl
    | filtering | routing =>
      have hterminal := h.not_hearing (by rw [htype]; rfl)
      rw [htype, NetworkPc.isDeciding, hterminal] at hdeciding
      cases hdeciding
    | posting type =>
      have hterminal := h.not_hearing (by rw [htype]; rfl)
      have htokens := h.single.tokens
      simp [State.tokens, State.isReady, hconnecting, htype, NetworkPc.token, hterminal] at htokens
  · have hconnecting : d.main.state.network.isConnecting = true := by rw [hn]; rfl
    obtain rfl := h.nowhere_of_connecting (.inr hconnecting)
    have hlive := (h.single.exclusive_network hconnecting).1
    have hid : id = d.main.state.activity.connectionIdSeed + 1 := (h.named.network _ hn).1
    simp only [App.step, advanceNetwork, hn, connect, hlive, Option.map_some, Option.map_none,
      Option.getD_none, Option.some.injEq] at ht
    subst ht
    exact ⟨rfl, by rw [← h.seed, hid], rfl, rfl, rfl⟩

theorem assign (h : d.Joined p) {id : ℤ} {host : String} {port kind : ℤ}
    (ha : d.main.state.assigning a = some id) (hle : id ≤ maxInt)
    (ht : App.step d.main.state a = some e.main.state)
    (hclient : e.client = Client.connect d.client host port kind) :
    e.Joined (.pushing d.client.calls.length) := by
  obtain ⟨rfl, hid, hseed, hlive, htype⟩ := h.assigned ha ht
  have hstep : Client.step (fun c ↦ c) d.client (.connect host port kind) = some e.client := by
    rw [hclient]
    exact if_pos (by omega)
  have hnext : e.client.connectionIdSeed = d.client.connectionIdSeed + 1 := by rw [hclient]; rfl
  have hnonneg := h.nonneg
  refine ⟨step_single h.single (fun hclick ↦ ?_) ht, step_named h.named h.single ht,
    step_networked h.networked hstep, by rw [hseed, hnext, hid], ?_, ?_, by omega,
    fun _ ↦ by omega, fun type hhear ↦ ?_, fun type i hf ↦ ?_⟩
  · rw [hclick] at ha
    cases ha
  · rw [hnext, hclient]
    exact h.alone.connect host port kind
  · rw [hlive, hid, hnext]
    rfl
  · rw [htype] at hhear
    cases hhear
  · rw [hf] at htype
    cases htype

/-- The listener is called for the connection that the activity takes to be there. -/
theorem delivered (h : d.Joined p) {a : Client.Action} {notice : Notice}
    (hd : d.client.delivers a = some notice)
    (hblocked : d.client.onNetwork a = true → d.main.state.network = .idle) :
    notice.connectionId = d.client.connectionIdSeed ∧ p ≠ .nowhere ∧
      d.main.state.network = .idle ∧
      (notice.type.isTerminal = false → ∃ j, p = .on j .opened) := by
  obtain ⟨k, rfl, hk⟩ := delivers_cases hd
  obtain ⟨hid, hp⟩ := h.alone.calls k _ hk
  refine ⟨hid, ?_, hblocked ?_, fun hterminal ↦ ?_⟩
  · split_ifs at hp
    · rw [hp]
      simp
    · obtain ⟨j, hp⟩ := hp
      rw [hp]
      simp
  · obtain ⟨call, hcall, hpc⟩ := Option.map_eq_some_iff.1 hk
    have hnetwork := h.networked call (List.mem_of_getElem? hcall) (by rw [hpc]; rfl)
    simp [Client.State.onNetwork, hcall, hnetwork]
  · rwa [if_neg (by simp [hterminal])] at hp

/-- A step of the client is for the activity an event of a connection that is there, or the silent
end of one. -/
theorem heard (h : d.Joined p) {a : Client.Action}
    (hblocked : d.client.onNetwork a = true → d.main.state.network = .idle) :
    Shown mainStep d.main (d.mainLabel (.client a)) (d.hears a) := by
  simp only [Device.mainLabel, Device.hears]
  cases hd : d.client.delivers a with
  | some notice =>
    obtain ⟨hid, hp, hidle, -⟩ := h.delivered hd hblocked
    refine mainStep_hear hidle ?_
    rw [h.live, if_neg hp, hid]
    exact List.mem_singleton_self _
  | none =>
    cases d.client.drops a with
    | none => rfl
    | some id => exact mainStep_forget d.main id

/-- While the listener has something in hand, the connection stays open. -/
theorem still_open (h : d.Joined p) {p' : Place} {a : Client.Action} {i : ℤ}
    (hpassage : Passage d.client a i p p')
    (hblocked : d.client.onNetwork a = true → d.main.state.network = .idle) {type : EventType}
    (htype : d.main.state.network.type? = some type) (hterminal : type.isTerminal = false) :
    ∃ j, p' = .on j .opened := by
  obtain ⟨j, hj⟩ := h.hearing type htype hterminal
  refine ⟨j, (hpassage.opened j hj fun channel event hfire ↦ ?_).trans hj⟩
  rw [hblocked (by rw [hfire]; rfl)] at htype
  cases htype

section

variable {p' : Place} {a : Client.Action}

theorem deliver (h : d.Joined p) {notice : Notice}
    (hpassage : Passage d.client a d.client.connectionIdSeed p p')
    (halone : e.client.Alone d.client.connectionIdSeed p') (hnet : e.client.Networked)
    (hseed : e.client.connectionIdSeed = d.client.connectionIdSeed)
    (hblocked : d.client.onNetwork a = true → d.main.state.network = .idle)
    (hd : d.client.delivers a = some notice) (hmain : e.main = d.main.hear notice) :
    e.Joined p' := by
  obtain ⟨hid, hp, hidle, hopened⟩ := h.delivered hd hblocked
  have hmem : notice.connectionId ∈ d.main.state.activity.live := by
    rw [h.live, if_neg hp, hid]
    exact List.mem_singleton_self _
  have hstep : App.step d.main.state (.event notice.type notice.connectionId) =
      some e.main.state := by
    rw [hmain]
    exact (app_of_mainStep (mainStep_hear hidle hmem)).2
  have hends : d.client.ends a =
      if notice.type.isTerminal then some notice.connectionId else none := by
    simp only [Client.State.ends, hd]
  refine ⟨step_single (a := .event ..) h.single (by simp) hstep, step_named h.named h.single hstep,
    hnet, ?_, hseed ▸ halone, ?_, hseed ▸ h.nonneg, fun _ ↦ hseed ▸ h.issued hp,
    fun type htype hterminal ↦ ?_, fun type i hf ↦ ?_⟩
  · rw [hmain, hseed, ← h.seed]
    rfl
  · rw [hmain, hseed]
    simp only [Main.hear, h.live, if_neg hp]
    split_ifs at hends ⊢ with hterminal hp' hp'
    · rw [hid, List.erase_cons_head]
    · exact absurd (hpassage.ends _ hends).2.2 hp'
    · exact absurd ((hpassage.stays hends).1 hp') hp
    · rfl
  · rw [hmain] at htype
    cases htype
    obtain ⟨j, hj⟩ := hopened hterminal
    obtain ⟨k, rfl, -⟩ := delivers_cases hd
    exact ⟨j, (hpassage.opened j hj (by simp)).trans hj⟩
  · rw [hmain] at hf
    cases hf
    exact ⟨hid.trans hseed.symm, hid ▸ h.issued hp⟩

theorem drop (h : d.Joined p) {i : ℤ}
    (hpassage : Passage d.client a d.client.connectionIdSeed p p')
    (halone : e.client.Alone d.client.connectionIdSeed p') (hnet : e.client.Networked)
    (hseed : e.client.connectionIdSeed = d.client.connectionIdSeed)
    (hblocked : d.client.onNetwork a = true → d.main.state.network = .idle)
    (hends : d.client.ends a = some i) (hmain : e.main = d.main.forget i) : e.Joined p' := by
  obtain ⟨hid, hp, hp'⟩ := hpassage.ends i hends
  have hstep : App.step d.main.state (.vanish i) = some e.main.state := by
    rw [hmain]
    exact (app_of_mainStep (mainStep_forget d.main i)).2
  refine ⟨step_single (a := .vanish i) h.single (by simp) hstep, step_named h.named h.single hstep,
    hnet, ?_, hseed ▸ halone, ?_, hseed ▸ h.nonneg, fun _ ↦ hseed ▸ h.issued hp,
    fun type htype hterminal ↦ ?_, fun type i hf ↦ ?_⟩
  · rw [hmain, hseed, ← h.seed]
    rfl
  · rw [hmain, if_pos hp']
    simp only [Main.forget, h.live, if_neg hp, hid, List.erase_cons_head]
  · rw [hmain] at htype
    exact h.still_open hpassage hblocked htype hterminal
  · rw [hmain] at hf
    exact hseed ▸ h.filtering type i hf

theorem client (h : d.Joined p) (hkeeps : Client.keeps residue d.client a = true)
    (ha : ∀ host port kind, a ≠ .connect host port kind)
    (hblocked : d.client.onNetwork a = true → d.main.state.network = .idle)
    (ht : Client.step residue d.client a = some e.client) (hmain : e.main = d.hears a) :
    ∃ p', e.Joined p' := by
  obtain ⟨p', halone, hpassage⟩ := h.alone.step h.networked hkeeps ha ht
  have hseed := seed_of_step ha ht
  have hnet := step_networked h.networked ht
  refine ⟨p', ?_⟩
  rw [Device.hears] at hmain
  cases hd : d.client.delivers a with
  | some notice =>
    simp only [hd] at hmain
    exact h.deliver hpassage halone hnet hseed hblocked hd hmain
  | none =>
    simp only [hd] at hmain
    have hends : d.client.ends a = d.client.drops a := by simp only [Client.State.ends, hd]
    cases hdrops : d.client.drops a with
    | some i =>
      rw [hdrops, Option.elim_some] at hmain
      exact h.drop hpassage halone hnet hseed hblocked (hends.trans hdrops) hmain
    | none =>
      rw [hdrops, Option.elim_none] at hmain
      have hstays := hpassage.stays (hends.trans hdrops)
      refine ⟨hmain ▸ h.single, hmain ▸ h.named, hnet, by rw [hmain, hseed, h.seed], hseed ▸ halone,
        by simp only [hmain, hseed, h.live, hstays], hseed ▸ h.nonneg,
        fun hp' ↦ hseed ▸ h.issued (mt hstays.2 hp'), fun type htype hterminal ↦ ?_,
        fun type i hf ↦ ?_⟩
      · rw [hmain] at htype
        exact h.still_open hpassage hblocked htype hterminal
      · rw [hmain] at hf
        exact hseed ▸ h.filtering type i hf

end

theorem click (h : d.Joined p) {serverAddress token : String}
    (hf : d.main.state.activity.isForeground = true)
    (ht : mainStep d.main (.click serverAddress token) = some e.main)
    (hclient : e.client = d.client) : e.Joined p := by
  simp only [mainStep, Option.ite_none_right_eq_some, Option.some.injEq] at ht
  obtain ⟨hidle, hmain⟩ := ht
  have hstate := onButtonClickConnect_state d.main serverAddress token
  rw [hmain] at hstate
  split_ifs at hstate
  · have hstep : App.step d.main.state .clickConnect = some e.main.state := by
      rw [hstate]
      exact if_pos hidle
    refine h.quiet (step_quiet hstep rfl rfl) (step_single h.single (fun _ ↦ hf) hstep)
      (step_named h.named h.single hstep) ?_ ?_ ?_ <;> rw [hclient]
    · exact h.networked
    · exact h.alone
  · refine h.quiet ?_ (hstate ▸ h.single) (hstate ▸ h.named) ?_ ?_ ?_
    · rw [hstate]
      exact .of_network rfl rfl rfl
    all_goals rw [hclient]
    · exact h.networked
    · exact h.alone

theorem nativeConnect_eq (h : d.Joined p) {id : ℤ} (ha : d.main.state.assigning a = some id)
    (ht : App.step d.main.state a = some t) (host : String) (port kind : ℤ) :
    nativeConnect d.client id host port kind = Client.connect d.client host port kind := by
  rw [(h.assigned ha ht).2.1]
  rfl

/-- A step of a thread shows itself to the client as the call that it makes. -/
theorem called (h : d.Joined p) (ht : App.step d.main.state a = some t)
    (hcalls : d.calls a = some e.client) :
    Shown (Client.step residue) d.client (d.label (.main (.app a))) e.client := by
  unfold Device.calls at hcalls
  simp only [Device.label]
  cases ha : d.main.state.assigning a with
  | some id =>
    simp only [ha, Option.ite_none_right_eq_some, Option.map_eq_some_iff] at hcalls ⊢
    obtain ⟨hle, host, hhost, hclient⟩ := hcalls
    rw [h.nativeConnect_eq ha ht] at hclient
    simp only [hhost, Option.map_some]
    rw [Shown, ← hclient]
    have hid := (h.assigned ha ht).2.1
    exact if_pos (by omega)
  | none =>
    simp only [ha, Option.some.injEq] at hcalls ⊢
    rw [← hcalls]
    split_ifs <;> rfl

theorem app (h : d.Joined p) (hnative : a.isNative = false)
    (ht : mainStep d.main (.app a) = some e.main) (hcalls : d.calls a = some e.client) :
    ∃ p', e.Joined p' := by
  obtain ⟨hclick, hstep⟩ := app_of_mainStep ht
  cases ha : d.main.state.assigning a with
  | some id =>
    simp only [Device.calls, ha, Option.ite_none_right_eq_some, Option.map_eq_some_iff] at hcalls
    obtain ⟨hle, host, -, hclient⟩ := hcalls
    rw [h.nativeConnect_eq ha hstep] at hclient
    exact ⟨_, h.assign ha hle hstep hclient.symm⟩
  | none =>
    simp only [Device.calls, ha, Option.some.injEq] at hcalls
    refine ⟨p, h.quiet (step_quiet hstep hnative ha) (step_single h.single (absurd · hclick) hstep)
      (step_named h.named h.single hstep) ?_ ?_ ?_⟩ <;> rw [← hcalls] <;> split_ifs
    · exact Networked.spawn h.networked fun he ↦ by cases he
    · exact h.networked
    · rfl
    · rfl
    · exact .spawn h.alone.calls h.alone.lies trivial
    · exact h.alone

theorem step (h : d.Joined p) {a : DeviceAction} (ha : Orderly residue d a)
    (ht : d.step residue a = some e) : ∃ p', e.Joined p' := by
  cases Device.turn_of_step ht with
  | click hmain hclient => exact ⟨p, h.click ha.1 hmain hclient⟩
  | app hnative hmain hcalls => exact h.app hnative hmain hcalls
  | client hconnect hblocked hclient hmain => exact h.client ha.2 hconnect hblocked hclient hmain

end Device.Joined

theorem joined_of_run {as : List DeviceAction}
    (h : Run (Device.step residue) (Orderly residue) .start as d) : ∃ p, d.Joined p :=
  h.invariant (I := fun d ↦ ∃ p, d.Joined p) (fun _ _ _ ⟨_, hi⟩ ha ht ↦ hi.step ha ht)
    ⟨_, start_joined⟩

theorem label_main {a : MainAction} {b : Client.Action} (h : d.label (.main a) = some b) :
    (∃ host port kind, b = .connect host port kind) ∨ ∃ id, b = .disconnect id := by
  cases a with
  | click => cases h
  | app a =>
    simp only [Device.label] at h
    split at h
    · obtain ⟨host, -, rfl⟩ := Option.map_eq_some_iff.1 h
      exact .inl ⟨host, _, _, rfl⟩
    · split_ifs at h
      cases h
      exact .inr ⟨_, rfl⟩

theorem client_shown (hp : d.Joined p) {a : DeviceAction} (h : d.step residue a = some e) :
    Shown (Client.step residue) d.client (d.label a) e.client := by
  cases Device.turn_of_step h with
  | click _ hclient => exact hclient
  | app _ hmain hcalls => exact hp.called (app_of_mainStep hmain).2 hcalls
  | client _ _ hclient => exact hclient

theorem served_of_label (hp : d.Joined p) {a : DeviceAction} {b : Client.Action}
    (ha : Orderly residue d a) (hb : d.label a = some b) : served residue d.client b = true := by
  rw [served, hp.alone.sole b, Bool.true_and]
  cases a with
  | client a =>
    cases hb
    exact ha.2
  | main a =>
    -- A call that starts is not in flight.
    rcases label_main hb with ⟨host, port, kind, rfl⟩ | ⟨id, rfl⟩ <;> rfl

/-- The client's calls and events are a run of the client in which a connection comes only when
there is no other. -/
theorem client_of_run {as : List DeviceAction}
    (h : Run (Device.step residue) (Orderly residue) .start as d) :
    Run (Client.step residue) (fun s a ↦ served residue s a = true) (Client.start 3)
      (traced (Device.step residue) Device.label .start as) d.client := by
  refine h.simulate_ok Device.client Device.label fun bs u a v hu ha hv ↦ ?_
  obtain ⟨p, hp⟩ := joined_of_run hu
  exact ⟨client_shown hp hv, fun b hb ↦ served_of_label hp ha hb⟩

theorem main_of_run {as : List DeviceAction}
    (h : Run (Device.step residue) (Orderly residue) .start as d) :
    Run mainStep Any .created (traced (Device.step residue) Device.mainLabel .start as) d.main := by
  refine h.simulate Device.main Device.mainLabel fun bs u a v hu ha hv ↦ ?_
  obtain ⟨p, hp⟩ := joined_of_run hu
  cases Device.turn_of_step hv with
  | click hmain => exact hmain
  | app _ hmain => exact hmain
  | client _ hblocked _ hmain => exact hmain ▸ hp.heard hblocked

/-- While there is a connection, the activity has stored its id. -/
theorem Device.Joined.current (h : d.Joined p) (hp : p ≠ .nowhere) :
    d.main.state.activity.connectionId = d.client.connectionIdSeed := by
  rcases h.named.latest with (hlatest | hzero) | hstored | hstored
  · rw [hlatest, h.seed]
  · exact absurd (h.seed.symm.trans hzero.1) (h.issued hp)
  · refine absurd (h.nowhere_of_connecting (.inl ?_)) hp
    cases hpc : d.main.state.ui <;> simp [hpc, UiPc.isStored, UiPc.isConnecting] at hstored ⊢
  · refine absurd (h.nowhere_of_connecting (.inr ?_)) hp
    cases hpc : d.main.state.network <;>
      simp [hpc, NetworkPc.isStored, NetworkPc.isConnecting] at hstored ⊢

/-- The id that the activity has stored is that of the event in the listener's hands. -/
theorem Device.Joined.stored (h : d.Joined p) {type : EventType} {id : ℤ}
    (hf : d.main.state.network = .filtering type id) :
    d.main.state.activity.connectionId = id := by
  obtain ⟨hid, hne⟩ := h.filtering type id hf
  rcases h.named.latest with (hlatest | hzero) | hstored | hstored
  · rw [hlatest, h.seed, hid]
  · exact absurd (by rw [hid, ← h.seed, hzero.1]) hne
  · -- A click that has stored another id would have had to wait for the event.
    have hui : d.main.state.ui.isConnecting = true := by
      cases hpc : d.main.state.ui <;> simp [hpc, UiPc.isStored, UiPc.isConnecting] at hstored ⊢
    obtain rfl := h.nowhere_of_connecting (.inl hui)
    have hdeciding := (h.single.exclusive hui).2.1
    rw [hf, NetworkPc.isDeciding, h.not_hearing (by rw [hf]; rfl)] at hdeciding
    cases hdeciding
  · rw [hf] at hstored
    cases hstored

/-- Over the native client the activity runs as if events came only for connections that are there,
one at a time, and no event that reaches the listener is for another connection than the one whose
id is stored. -/
theorem no_event_is_passed_over {as : List DeviceAction}
    (h : Run (Device.step residue) (Orderly residue) .start as d) :
    Run mainStep Any .created (traced (Device.step residue) Device.mainLabel .start as) d.main ∧
      (∀ type id, d.main.state.network = .filtering type id →
        d.main.state.activity.connectionId = id) ∧
      d.main.state.activity.live.length ≤ 1 := by
  obtain ⟨p, hp⟩ := joined_of_run h
  refine ⟨main_of_run h, fun type id hf ↦ hp.stored hf, ?_⟩
  have htokens := hp.single.tokens
  rw [State.tokens] at htokens
  omega

end

def opening : List DeviceAction :=
  [.main (.click "h:1" "t")] ++ List.replicate 14 (.main (.app .ui)) ++
    List.replicate 7 (.client (.advance 0)) ++
    [.client (.process 0), .client (.fire 0 (.onOpen 0 5)), .client (.advance 1),
      .client (.advance 1)]

theorem success_is_not_passed_over :
    ∃ d, Run (Device.step freed) (Orderly freed) .start opening d ∧
      d.main.state.network = .filtering .onConnectSuccess 1 ∧
      d.main.state.activity.connectionId = 1 := by
  have hrun : ∃ d, Run (Device.step freed) (Orderly freed) .start opening d ∧
      d.main.state.network = .filtering .onConnectSuccess 1 :=
    Run.exists_of_execute (by decide +kernel)
  obtain ⟨d, hd, hf⟩ := hrun
  exact ⟨d, hd, hf, (no_event_is_passed_over hd).2.1 _ _ hf⟩

end MusicRemote.App
