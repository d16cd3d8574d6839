import MusicRemote.Client.Connections

namespace MusicRemote.Client

def EventType.isTerminal : EventType → Bool
  | .onConnectFailed | .onDisconnect => true
  | .onConnectSuccess | .onRecvData => false

end MusicRemote.Client

namespace MusicRemote.App

open Client

inductive Status
  | connecting
  | connected
  | disconnecting
  | disconnected
  deriving DecidableEq

def Status.text : Status → String
  | .connecting => "connecting"
  | .connected => "connected"
  | .disconnecting => "disconnecting"
  | .disconnected => "disconnected"

inductive View
  | editTextServerAddress
  | editTextToken
  | buttonConnect
  | buttonDisconnect
  | textViewStatus
  deriving DecidableEq

/-- The views in the order in which `updateUI` sets them. -/
def View.all : List View :=
  [.editTextServerAddress, .editTextToken, .buttonConnect, .buttonDisconnect, .textViewStatus]

structure Screen where
  editTextServerAddress : Bool
  editTextToken : Bool
  buttonConnect : Bool
  buttonDisconnect : Bool
  textViewStatus : String
  deriving DecidableEq

def Screen.set (screen : Screen) (status : Status) : View → Screen
  | .editTextServerAddress => { screen with editTextServerAddress := status = .disconnected }
  | .editTextToken => { screen with editTextToken := status = .disconnected }
  | .buttonConnect => { screen with buttonConnect := status = .disconnected }
  | .buttonDisconnect => { screen with buttonDisconnect := status = .connected }
  | .textViewStatus => { screen with textViewStatus := status.text }

/-- What the two threads share: the fields of the activity, the runnables posted to the UI
thread, and of the native client the seed of the ids and the connections that wait or are being
opened or open. -/
structure Activity where
  isForeground : Bool
  connectionId : ℤ
  curStatus : Status
  screen : Screen
  posted : List EventType
  connectionIdSeed : ℤ
  live : List ℤ
  deriving DecidableEq

inductive Drawing
  | read
  | write (status : Status) (views : List View)
  deriving DecidableEq

/-- Where a call of `changeStatus` stands, down to the `updateUI` in it. -/
inductive Changing
  | test
  | set
  | ask
  | draw (drawing : Drawing)
  deriving DecidableEq

def updateUI (s : Activity) : Drawing → Activity × Option Drawing
  | .read => (s, some (.write s.curStatus View.all))
  | .write status (view :: views) =>
    ({ s with screen := s.screen.set status view }, some (.write status views))
  | .write _ [] => (s, none)

def changeStatus (status : Status) (s : Activity) : Changing → Activity × Option Changing
  | .test => (s, if s.curStatus ≠ status then some .set else none)
  | .set => ({ s with curStatus := status }, some .ask)
  | .ask => (s, if s.isForeground then some (.draw .read) else none)
  | .draw drawing => ((updateUI s drawing).1, (updateUI s drawing).2.map .draw)

/-- A change of the status touches nothing but the status and the screen. -/
theorem updateUI_frame (s : Activity) (d : Drawing) :
    ∃ cur screen, (updateUI s d).1 = { s with curStatus := cur, screen := screen } := by
  cases d with
  | read => exact ⟨_, _, rfl⟩
  | write status views => cases views <;> exact ⟨_, _, rfl⟩

theorem changeStatus_frame (status : Status) (s : Activity) (c : Changing) :
    ∃ cur screen, (changeStatus status s c).1 = { s with curStatus := cur, screen := screen } := by
  cases c with
  | draw d => exact updateUI_frame s d
  | test | set | ask => exact ⟨_, _, rfl⟩

/-- The end of `onButtonClickConnect` and of the automatic reconnect: the status, the id that
`nextConnectionId` predicts, and the native `connect`, which reads the seed again. -/
inductive Connecting
  | changing (changing : Changing)
  | predicting
  | storing (id : ℤ)
  | calling
  | assigning (id : ℤ)
  deriving DecidableEq

def connect (s : Activity) : Connecting → Activity × Option Connecting
  | .changing changing =>
    ((changeStatus .connecting s changing).1,
      some (((changeStatus .connecting s changing).2.map .changing).getD .predicting))
  | .predicting => (s, some (.storing (s.connectionIdSeed + 1)))
  | .storing id => ({ s with connectionId := id }, some .calling)
  | .calling => (s, some (.assigning (s.connectionIdSeed + 1)))
  | .assigning id => ({ s with connectionIdSeed := id, live := s.live ++ [id] }, none)

inductive UiPc
  | idle
  | connecting (connecting : Connecting)
  | disconnecting (changing : Changing)
  | closing
  | notifying (status : Status) (changing : Changing)
  | resuming (drawing : Drawing)
  deriving DecidableEq

inductive NetworkPc
  | idle
  | filtering (type : EventType) (connectionId : ℤ)
  | routing (type : EventType)
  | posting (type : EventType)
  | connecting (connecting : Connecting)
  deriving DecidableEq

structure State where
  activity : Activity
  ui : UiPc
  network : NetworkPc
  deriving DecidableEq

def created : State where
  activity :=
    { isForeground := true
      connectionId := -1
      curStatus := .disconnected
      screen := ⟨true, true, true, false, "disconnected"⟩
      posted := []
      connectionIdSeed := 0
      live := [] }
  ui := .idle
  network := .idle

def statusOf : EventType → Option Status
  | .onConnectSuccess => some .connected
  | .onConnectFailed => some .disconnected
  | .onDisconnect => some .disconnected
  | .onRecvData => none

/-- One step of the UI thread in a handler. The native `disconnect` leaves to later events what
becomes of the connection. -/
def advanceUi (s : Activity) : UiPc → Option (Activity × UiPc)
  | .idle => none
  | .connecting c => some ((connect s c).1, ((connect s c).2.map .connecting).getD .idle)
  | .disconnecting c =>
    some ((changeStatus .disconnecting s c).1,
      ((changeStatus .disconnecting s c).2.map .disconnecting).getD .closing)
  | .closing => some (s, .idle)
  | .notifying status c =>
    some ((changeStatus status s c).1,
      ((changeStatus status s c).2.map (.notifying status)).getD .idle)
  | .resuming d => some ((updateUI s d).1, ((updateUI s d).2.map .resuming).getD .idle)

/-- One step of the listener on the network thread. What it does with received data does not
touch the state. -/
def advanceNetwork (s : Activity) : NetworkPc → Option (Activity × NetworkPc)
  | .idle => none
  | .filtering type connectionId =>
    some (s, if s.connectionId ≠ connectionId then .idle else .routing type)
  | .routing type =>
    some (s,
      if !s.isForeground && type.isTerminal then .connecting (.changing .test)
      else if type = .onRecvData then .idle
      else .posting type)
  | .posting type => some ({ s with posted := s.posted ++ [type] }, .idle)
  | .connecting c => some ((connect s c).1, ((connect s c).2.map .connecting).getD .idle)

/-- What the user and the system do, the events and silent ends of connections, and the steps
of the two threads. A click is one that passes the check of the address. -/
inductive Action
  | clickConnect
  | clickDisconnect
  | pause
  | resume
  | runPosted
  | ui
  | event (type : EventType) (connectionId : ℤ)
  | vanish (connectionId : ℤ)
  | network
  deriving DecidableEq

def step (s : State) : Action → Option State
  | .clickConnect =>
    if s.ui = .idle ∧ s.activity.screen.buttonConnect = true then
      some { s with ui := .connecting (.changing .test) }
    else none
  | .clickDisconnect =>
    if s.ui = .idle ∧ s.activity.screen.buttonDisconnect = true then
      some { s with ui := .disconnecting .test }
    else none
  | .pause =>
    if s.ui = .idle then some { s with activity := { s.activity with isForeground := false } }
    else none
  | .resume =>
    if s.ui = .idle then
      some { s with activity := { s.activity with isForeground := true }, ui := .resuming .read }
    else none
  | .runPosted =>
    match s.ui, s.activity.posted with
    | .idle, type :: posted =>
      some { s with
        activity := { s.activity with posted := posted }
        ui := ((statusOf type).map (.notifying · .test)).getD .idle }
    | _, _ => none
  | .ui => (advanceUi s.activity s.ui).map fun r ↦ { s with activity := r.1, ui := r.2 }
  | .event type connectionId =>
    if s.network = .idle ∧ connectionId ∈ s.activity.live then
      some { s with
        activity := { s.activity with
          live := if type.isTerminal then s.activity.live.erase connectionId else s.activity.live }
        network := .filtering type connectionId }
    else none
  | .vanish connectionId =>
    some { s with activity := { s.activity with live := s.activity.live.erase connectionId } }
  | .network =>
    (advanceNetwork s.activity s.network).map fun r ↦ { s with activity := r.1, network := r.2 }

def State.callsConnect (s : State) : Action → Bool
  | .ui => s.ui = .connecting .calling
  | .network => s.network = .connecting .calling
  | _ => false

inductive Listens (s : Activity) : NetworkPc → Activity → NetworkPc → Prop
  | foreign {type : EventType} {id : ℤ} : s.connectionId ≠ id →
      Listens s (.filtering type id) s .idle
  | own {type : EventType} {id : ℤ} : s.connectionId = id →
      Listens s (.filtering type id) s (.routing type)
  | reconnect {type : EventType} : s.isForeground = false → type.isTerminal = true →
      Listens s (.routing type) s (.connecting (.changing .test))
  | data : Listens s (.routing .onRecvData) s .idle
  | route {type : EventType} : s.isForeground = true ∨ type.isTerminal = false →
      type ≠ .onRecvData → Listens s (.routing type) s (.posting type)
  | post (type : EventType) :
      Listens s (.posting type) { s with posted := s.posted ++ [type] } .idle
  | connect (c : Connecting) : Listens s (.connecting c) (connect s c).1
      (((connect s c).2.map .connecting).getD .idle)

inductive Turn (s : State) : Action → State → Prop
  | clickConnect : s.ui = .idle → s.activity.screen.buttonConnect = true →
      Turn s .clickConnect { s with ui := .connecting (.changing .test) }
  | clickDisconnect : s.ui = .idle → s.activity.screen.buttonDisconnect = true →
      Turn s .clickDisconnect { s with ui := .disconnecting .test }
  | pause : s.ui = .idle →
      Turn s .pause { s with activity := { s.activity with isForeground := false } }
  | resume : s.ui = .idle → Turn s .resume
      { s with activity := { s.activity with isForeground := true }, ui := .resuming .read }
  | runPosted {type : EventType} {posted : List EventType} : s.ui = .idle →
      s.activity.posted = type :: posted → Turn s .runPosted
        { s with
          activity := { s.activity with posted := posted }
          ui := ((statusOf type).map (.notifying · .test)).getD .idle }
  | ui {activity : Activity} {pc : UiPc} : advanceUi s.activity s.ui = some (activity, pc) →
      Turn s .ui { s with activity := activity, ui := pc }
  | event {type : EventType} {id : ℤ} : s.network = .idle → id ∈ s.activity.live →
      Turn s (.event type id)
        { s with
          activity := { s.activity with
            live := if type.isTerminal then s.activity.live.erase id else s.activity.live }
          network := .filtering type id }
  | vanish (id : ℤ) : Turn s (.vanish id)
      { s with activity := { s.activity with live := s.activity.live.erase id } }
  | network {activity : Activity} {pc : NetworkPc} : Listens s.activity s.network activity pc →
      Turn s .network { s with activity := activity, network := pc }

theorem advanceNetwork_listens {s : Activity} {pc : NetworkPc} {r : Activity × NetworkPc}
    (h : advanceNetwork s pc = some r) : Listens s pc r.1 r.2 := by
  cases pc with
  | idle => cases h
  | filtering type id =>
    cases h
    dsimp only
    split_ifs with hid
    · exact .foreign hid
    · exact .own (not_not.1 hid)
  | routing type =>
    cases h
    dsimp only
    split_ifs with hb hd
    · simp only [Bool.and_eq_true, Bool.not_eq_true'] at hb
      exact .reconnect hb.1 hb.2
    · subst hd
      exact .data
    · refine .route ?_ hd
      cases hf : s.isForeground
      · simpa [hf] using hb
      · exact .inl rfl
  | posting type =>
    cases h
    exact .post type
  | connecting c =>
    cases h
    exact .connect c

/-- Everything that a step can do. -/
theorem step_turn {s t : State} {a : Action} (h : step s a = some t) : Turn s a t := by
  cases a with
  | clickConnect =>
    simp only [step, Option.ite_none_right_eq_some, Option.some.injEq] at h
    exact h.2 ▸ .clickConnect h.1.1 h.1.2
  | clickDisconnect =>
    simp only [step, Option.ite_none_right_eq_some, Option.some.injEq] at h
    exact h.2 ▸ .clickDisconnect h.1.1 h.1.2
  | pause =>
    simp only [step, Option.ite_none_right_eq_some, Option.some.injEq] at h
    exact h.2 ▸ .pause h.1
  | resume =>
    simp only [step, Option.ite_none_right_eq_some, Option.some.injEq] at h
    exact h.2 ▸ .resume h.1
  | runPosted =>
    simp only [step] at h
    split at h
    · rename_i hui hposted
      cases h
      exact .runPosted hui hposted
    · cases h
  | ui =>
    obtain ⟨r, hr, rfl⟩ := Option.map_eq_some_iff.1 h
    exact .ui hr
  | event type id =>
    simp only [step, Option.ite_none_right_eq_some, Option.some.injEq] at h
    exact h.2 ▸ .event h.1.1 h.1.2
  | vanish id =>
    cases h
    exact .vanish id
  | network =>
    obtain ⟨r, hr, rfl⟩ := Option.map_eq_some_iff.1 h
    exact .network (advanceNetwork_listens hr)

end MusicRemote.App
