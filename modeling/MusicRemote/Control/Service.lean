import MusicRemote.Foundation.Transition
import MusicRemote.Protocol.Message

namespace MusicRemote.Control.Service

open Protocol Protocol.Json

/-- What `serde_json` reads in the service, and what `JSON.parse` gives the page: the
fields of a pack, and of its data whether `ok` counts as true, unless the data is `null`. -/
structure Env where
  readMessage : String → Option Message
  readConnectRequest : String → Option ConnectRequest
  parsePack : String → Option Message
  parseData : String → Option (Option Bool)

inductive ControlServiceStatus
  | connected
  | connecting
  | disconnected
  deriving DecidableEq

/-- Where `ControlService::run` stands: each place is before the next read or write
that other tasks can see. -/
inductive RunLoop
  | waiting
  | examining (message : Message)
  | replying
  | starting (request : ConnectRequest)
  | connecting (request : ConnectRequest)
  | opening
  | opened
  | announcing
  | spawning
  | failing (error : String)
  | refusing (error : String)
  | forwarding (message : Message)
  | failed
  deriving DecidableEq

/-- Where a spawned task stands: in its select, out of it with a reason, or between
its write of the status and its `DisconnectNtf`. -/
inductive ClientPhase
  | running
  | ended (reason : String)
  | leaving (reason : String)
  | finished
  deriving DecidableEq

structure Client where
  phase : ClientPhase
  rx : List Message
  sent : List Message
  deriving DecidableEq

/-- The service with its tasks in the order of their connections, the two channels of
`main`, the events emitted to the page, and the page. Each handler of the page under way
is the texts that it has still to give to `js2rs`, one after the other. -/
structure State where
  status : ControlServiceStatus
  tx : Option ℕ
  loop : RunLoop
  clients : List Client
  toJs : List String
  fromJs : List String
  events : List String
  handlers : List (List String)
  serviceStatus : ControlServiceStatus

def State.init : State := ⟨.disconnected, none, .waiting, [], [], [], [], [], .disconnected⟩

/-- Both channels of `main` have room for one message. -/
def capacity : ℕ := 1

def State.sendToJs (s : State) (text : String) : Option State :=
  if s.toJs.length < capacity then some { s with toJs := s.toJs ++ [text] } else none

def sendMessageToJs {α : Type} [Serialize α] (s : State) (data : α) : Option State :=
  s.sendToJs (Json.toString (messageOf data))

def accepted : ConnectResponse := ⟨true, ""⟩

def refused (error : String) : ConnectResponse := ⟨false, error⟩

def ClientPhase.isRunning : ClientPhase → Bool
  | .running => true
  | .ended _ | .leaving _ | .finished => false

/-- `tx.send(message)`, whose error is ignored: the receiver lives as long as the
task's select. -/
def forward (s : State) (message : Message) : List Client :=
  match s.tx with
  | none => s.clients
  | some i => s.clients.modify i fun c ↦
      if c.phase.isRunning then { c with rx := c.rx ++ [message] } else c

def recv (env : Env) (s : State) : Option State :=
  match s.loop, s.fromJs with
  | .waiting, input :: fromJs =>
    let s := { s with fromJs := fromJs }
    match env.readMessage input with
    | none => some { s with loop := .failed }
    | some message =>
      if message.name = "ConnectRequest" then some { s with loop := .examining message }
      else some { s with loop := .forwarding message }
  | _, _ => none

def onConnectRequest (env : Env) (s : State) (message : Message) : State :=
  match s.status with
  | .connected => { s with loop := .replying }
  | .connecting => { s with loop := .waiting }
  | .disconnected =>
    match env.readConnectRequest message.data with
    | none => { s with loop := .failed }
    | some request => { s with loop := .starting request }

def advance (env : Env) (s : State) : Option State :=
  match s.loop with
  | .examining message => some (onConnectRequest env s message)
  | .replying => (sendMessageToJs s accepted).map fun s ↦ { s with loop := .waiting }
  | .starting request => some { s with status := .connecting, loop := .connecting request }
  | .opening => some { s with tx := some s.clients.length, loop := .opened }
  | .opened => some { s with status := .connected, loop := .announcing }
  | .announcing => (sendMessageToJs s accepted).map fun s ↦ { s with loop := .spawning }
  | .spawning =>
    some { s with clients := s.clients ++ [⟨.running, [], []⟩], loop := .waiting }
  | .failing error => some { s with status := .disconnected, loop := .refusing error }
  | .refusing error =>
    (sendMessageToJs s (refused error)).map fun s ↦ { s with loop := .waiting }
  | .forwarding message => some { s with clients := forward s message, loop := .waiting }
  | .waiting | .connecting _ | .failed => none

def doConnect (s : State) (result : Except String Unit) : Option State :=
  match s.loop, result with
  | .connecting _, .ok _ => some { s with loop := .opening }
  | .connecting _, .error error => some { s with loop := .failing error }
  | _, _ => none

def State.setClient (s : State) (i : ℕ) (c : Client) : State :=
  { s with clients := s.clients.set i c }

/-- A task has read a whole frame. The answer to a `Ping` goes to the socket. -/
def onRecvMessage (s : State) (c : Client) (message : Message) : Option State :=
  if c.phase = .running then
    if message.name = "Ping" then some s else s.sendToJs (Json.toString message)
  else none

def pollWrite (s : State) (i : ℕ) (c : Client) : Option State :=
  match c.phase, c.rx with
  | .running, message :: rx =>
    some (s.setClient i { c with rx := rx, sent := c.sent ++ [message] })
  | _, _ => none

/-- The select is over, for whatever reason, and drops the receiver. -/
def finish (s : State) (i : ℕ) (c : Client) (reason : String) : Option State :=
  if c.phase = .running then some (s.setClient i { c with phase := .ended reason, rx := [] })
  else none

def disconnect (s : State) (i : ℕ) (c : Client) : Option State :=
  match c.phase with
  | .ended reason =>
    some { s.setClient i { c with phase := .leaving reason } with status := .disconnected }
  | _ => none

def notify (s : State) (i : ℕ) (c : Client) : Option State :=
  match c.phase with
  | .leaving reason => (sendMessageToJs s (⟨reason⟩ : DisconnectNtf)).map fun s ↦
      s.setClient i { c with phase := .finished }
  | _ => none

/-- The page's listener for `rs2js`. A parse that throws leaves the page as it is, and so does
reading `ok` of `null`. -/
def listener (env : Env) (serviceStatus : ControlServiceStatus) (payload : String) :
    ControlServiceStatus :=
  match env.parsePack payload with
  | none => serviceStatus
  | some pack =>
    match env.parseData pack.data with
    | none => serviceStatus
    | some message =>
      if pack.name = "ConnectResponse" then
        match message with
        | none => serviceStatus
        | some ok => if ok then .connected else .disconnected
      else if pack.name = "DisconnectNtf" then .disconnected
      else serviceStatus

def sendMessageToRust {α : Type} [Serialize α] (data : α) : String :=
  Json.toString (messageOf data)

/-- The form to connect is shown whenever the page is not connected. -/
def onClickLogin (s : State) (serverAdress : String) : Option State :=
  if s.serviceStatus = .connected then none
  else some { s with
    serviceStatus := .connecting
    handlers := s.handlers ++ [[sendMessageToRust (⟨serverAdress⟩ : ConnectRequest)]] }

inductive Button
  | play
  | pause
  | next
  | previous
  deriving DecidableEq

def Button.code : Button → UInt32
  | .next => 87
  | .previous => 88
  | .pause => 127
  | .play => 126

def onClickControl (s : State) (button : Button) (clientToken authorizationCode : String) :
    Option State :=
  if s.serviceStatus = .connected then
    let request : SendControlMediaKeyEventRequest :=
      ⟨0, button.code, clientToken, authorizationCode⟩
    some { s with handlers := s.handlers ++
      [[sendMessageToRust request, sendMessageToRust { request with action := 1 }]] }
  else none

/-- One call of `js2rs` gets through, or fails because `run` has returned. -/
def js2rs (s : State) (i : ℕ) : Option State :=
  match s.handlers[i]? with
  | some (message :: rest) =>
    if s.loop = .failed then some { s with handlers := s.handlers.set i [] }
    else if s.fromJs.length < capacity then
      some { s with fromJs := s.fromJs ++ [message], handlers := s.handlers.set i rest }
    else none
  | _ => none

def rs2js (s : State) : Option State :=
  match s.toJs with
  | output :: toJs => some { s with toJs := toJs, events := s.events ++ [output] }
  | [] => none

def listen (env : Env) (s : State) : Option State :=
  match s.events with
  | payload :: events =>
    some { s with events := events, serviceStatus := listener env s.serviceStatus payload }
  | [] => none

/-- The scheduler's choices. What is typed and clicked, the outcome of connecting, the
messages of the server and the ends of connections are the environment's. -/
inductive Action
  | login (serverAdress : String)
  | control (button : Button) (clientToken authorizationCode : String)
  | invoke (message : String)
  | js2rs (i : ℕ)
  | recv
  | advance
  | doConnect (result : Except String Unit)
  | onRecvMessage (i : ℕ) (message : Message)
  | pollWrite (i : ℕ)
  | finish (i : ℕ) (reason : String)
  | disconnect (i : ℕ)
  | notify (i : ℕ)
  | rs2js
  | listen

def step (env : Env) (s : State) : Action → Option State
  | .login serverAdress => onClickLogin s serverAdress
  | .control button clientToken authorizationCode =>
    onClickControl s button clientToken authorizationCode
  | .invoke message => some { s with handlers := s.handlers ++ [[message]] }
  | .js2rs i => js2rs s i
  | .recv => recv env s
  | .advance => advance env s
  | .doConnect result => doConnect s result
  | .onRecvMessage i message => s.clients[i]?.bind fun c ↦ onRecvMessage s c message
  | .pollWrite i => s.clients[i]?.bind fun c ↦ pollWrite s i c
  | .finish i reason => s.clients[i]?.bind fun c ↦ finish s i c reason
  | .disconnect i => s.clients[i]?.bind fun c ↦ disconnect s i c
  | .notify i => s.clients[i]?.bind fun c ↦ notify s i c
  | .rs2js => rs2js s
  | .listen => listen env s

end MusicRemote.Control.Service
