import Mathlib.Data.List.AList
import Mathlib.Logic.Function.Basic
import MusicRemote.Server.SendMessage

namespace MusicRemote.Server

open Foundation Protocol Protocol.Json Protocol.Framing Function

/-- The configured code, and what `serde_json` reads from a text. -/
structure Env where
  authorizationCode : String
  readMessage : String → Option Message
  readPing : String → Option Ping
  readRequest : String → Option SendControlMediaKeyEventRequest

/-- The sender of a session's channel, under the number of the session's task. -/
structure Player where
  tx : ℕ
  sessionId : UInt32
  deriving DecidableEq

abbrev Entry := Sigma fun _ : UInt32 ↦ Player

/-- Which call puts an envelope into a channel: the ping task, or the handler of
a task's message with the given index. It is carried along for the proofs only. -/
inductive Cause
  | pingTask
  | message (task index : ℕ)
  deriving DecidableEq

structure Envelope where
  message : WriterMessage
  body : Body
  cause : Cause
  deriving DecidableEq

def envelope (body : Body) (cause : Cause) : Envelope := ⟨body.writerMessage, body, cause⟩

/-- Where `poll_read` stands. Only `reading`, `received` and `locking` are at an
await; `pushing` holds the lock of `players` and has yet to serve `rest`. -/
inductive Reader
  | reading
  | unpacking
  | received (index : ℕ) (message : Message)
  | locking (index : ℕ) (push : PushMediaKeyEvent)
  | pushing (index : ℕ) (push : PushMediaKeyEvent) (rest : List Player)
  | responding (index : ℕ)
  | returned
  deriving DecidableEq

inductive Phase
  | absent
  | starting
  | selecting (reader : Reader)
  | closing
  | removing
  | closed
  deriving DecidableEq

structure Session where
  sessionId : UInt32
  phase : Phase
  player : Option Player
  buffer : List UInt8
  received : ℕ
  channel : Channel Envelope
  written : List Envelope
  pingTask : Bool
  lastActiveTime : ℕ

inductive Event
  | received (task index : ℕ) (message : Message)
  | locked (task index : ℕ) (entries : List Entry)
  | enqueued (target : ℕ) (envelope : Envelope)
  | returned (task index : ℕ) (ok : Bool)
  deriving DecidableEq

/-- `GLOBAL_CONTEXT.players` with the holder of its lock, the sessions by task
number, and the log of what happened. -/
structure State where
  players : AList (fun _ : UInt32 ↦ Player)
  guard : Option ℕ
  sessionCounter : UInt32
  spawned : ℕ
  session : ℕ → Session
  shutdown : Bool
  clock : ℕ
  panicked : Bool
  log : List Event

def Session.absent : Session := ⟨0, .absent, none, [], 0, .new, [], false, 0⟩

def State.init : State := ⟨∅, none, 0, 0, fun _ ↦ .absent, false, 0, false, []⟩

namespace State

def update (s : State) (t : ℕ) (x : Session) : State :=
  { s with session := Function.update s.session t x }

def setPhase (s : State) (t : ℕ) (phase : Phase) : State :=
  s.update t { s.session t with phase := phase }

def emit (s : State) (e : Event) : State := { s with log := s.log ++ [e] }

def send (s : State) (target : ℕ) (body : Body) (cause : Cause) : Option State :=
  ((s.session target).channel.send (envelope body cause)).map fun channel ↦
    (s.update target { s.session target with channel := channel }).emit
      (.enqueued target (envelope body cause))

/-- `on_recv_message` returns, and with an error `poll_read` does so too. -/
def finish (s : State) (t k : ℕ) (ok : Bool) : State :=
  (s.emit (.returned t k ok)).setPhase t (.selecting (if ok then .unpacking else .returned))

/-- A message to the session itself ends the handling. -/
def answer (s : State) (t k : ℕ) (body : Body) : State :=
  match s.send t body (.message t k) with
  | some s => s.finish t k true
  | none => s.finish t k false

end State

/-- `create_session_id`: the counter is fetched and raised, once more if it was 0. -/
def createSessionId (counter : UInt32) : UInt32 × UInt32 :=
  if counter > 0 then (counter, counter + 1) else (counter + 1, counter + 1 + 1)

def spawn (s : State) : State :=
  let (id, counter) := createSessionId s.sessionCounter
  { s.update s.spawned
      { Session.absent with
        sessionId := id, phase := .starting, pingTask := true, lastActiveTime := s.clock } with
    sessionCounter := counter
    spawned := s.spawned + 1 }

def onSessionStart (s : State) (t : ℕ) : State :=
  let x := s.session t
  let player : Player := ⟨t, x.sessionId⟩
  { s.update t { x with phase := .selecting .reading, player := some player } with
    players := s.players.insert x.sessionId player }

/-- One round of the inner loop of `poll_read`, up to the call of
`on_recv_message`. -/
def onRecvFrame (env : Env) (s : State) (t : ℕ) : State :=
  let x := s.session t
  if x.buffer.isEmpty then s.setPhase t (.selecting .reading)
  else
    match onTryExtractFrame x.buffer with
    | .error (.error _) => s.setPhase t (.selecting .returned)
    | .error .panic => { s with panicked := true }
    | .ok none => s.setPhase t (.selecting .reading)
    | .ok (some (bytes, buffer)) =>
      let x := { x with buffer := buffer }
      match (fromUtf8 bytes).bind env.readMessage with
      | none => s.update t { x with phase := .selecting .returned }
      | some message =>
        match x.player with
        | none => { s with panicked := true }
        | some _ =>
          (s.update t { x with
            phase := .selecting (.received x.received message)
            received := x.received + 1 }).emit (.received t x.received message)

def pushOf (request : SendControlMediaKeyEventRequest) : PushMediaKeyEvent :=
  ⟨request.action, request.code, request.token⟩

/-- `last_active_time` is renewed when it is a second old. -/
def State.refresh (s : State) (t : ℕ) : State :=
  if s.clock - (s.session t).lastActiveTime ≥ 1000 then
    s.update t { s.session t with lastActiveTime := s.clock }
  else s

/-- `on_recv_message` up to its end, or up to the lock of the broadcast. -/
def onRecvMessage (env : Env) (s : State) (t k : ℕ) (message : Message) : State :=
  let s := s.refresh t
  if message.name = "Ping" then
    match env.readPing message.data with
    | none => s.finish t k false
    | some ping => s.answer t k (.pong ⟨ping.time⟩)
  else if message.name = "Pong" then s.finish t k true
  else if message.name = "SendControlMediaKeyEventRequest" then
    match env.readRequest message.data with
    | none => s.finish t k false
    | some request =>
      if env.authorizationCode = request.authorizationCode then
        s.setPhase t (.selecting (.locking k (pushOf request)))
      else s.answer t k (.response ⟨false, "no permission"⟩)
  else s.finish t k true

/-- The players that the iteration visits, given the order of the map's entries. -/
def others (id : UInt32) (entries : List Entry) : List Player :=
  (entries.filter (fun e ↦ e.1 ≠ id)).map Sigma.snd

def lockPlayers (s : State) (t k : ℕ) (push : PushMediaKeyEvent) (entries : List Entry) : State :=
  (({ s with guard := some t }).setPhase t
    (.selecting (.pushing k push (others (s.session t).sessionId entries)))).emit
      (.locked t k entries)

/-- One round of the broadcast loop. Leaving it, also by `?`, drops the guard. -/
def broadcast (s : State) (t k : ℕ) (push : PushMediaKeyEvent) : List Player → State
  | [] => ({ s with guard := none }).setPhase t (.selecting (.responding k))
  | player :: rest =>
    match s.send player.tx (.push push) (.message t k) with
    | some s => s.setPhase t (.selecting (.pushing k push rest))
    | none => ({ s with guard := none }).finish t k false

/-- `poll_write` takes one message. A failed write ends it, and with it the select;
its receiver is closed. -/
def pollWrite (s : State) (t : ℕ) (writeOk : Bool) : Option State :=
  let x := s.session t
  match x.channel.recv with
  | none => none
  | some (envelope, channel) =>
    let go := s.update t { x with channel := channel }
    let wrote := s.update t { x with channel := channel, written := x.written ++ [envelope] }
    let stop (s : State) := s.update t
      { s.session t with phase := .closing, channel := channel.close }
    match envelope.message with
    | .close | .closeDelayed _ => some (stop go)
    | .flush => some go
    | .sendTo _ _ => some { s with panicked := true }
    | .send data _ | .sendAndThen data _ =>
      if data.isEmpty then some go else if writeOk then some wrote else some (stop wrote)

def endSelect (s : State) (t : ℕ) : State :=
  s.update t { s.session t with phase := .closing, channel := (s.session t).channel.close }

/-- The first half of `on_session_close`. -/
def onDisconnectSession (s : State) (t : ℕ) : State :=
  let x := s.session t
  match x.player with
  | none => { s with panicked := true }
  | some _ => s.update t { x with phase := .removing, player := none, pingTask := false }

/-- The second half of `on_session_close`. -/
def onSessionClose (s : State) (t : ℕ) : State :=
  { s.setPhase t .closed with players := s.players.erase (s.session t).sessionId }

def Reader.awaits : Reader → Bool
  | .reading | .received _ _ | .locking _ _ => true
  | .unpacking | .pushing _ _ _ | .responding _ | .returned => false

/-- The scheduler's choices, with what the environment contributes to the step. -/
inductive Action
  | spawn
  | start (t : ℕ)
  | readBuf (t : ℕ) (bytes : List UInt8)
  | readError (t : ℕ)
  | recvFrame (t : ℕ)
  | recvMessage (t : ℕ)
  | lock (t : ℕ) (entries : List Entry)
  | push (t : ℕ)
  | respond (t : ℕ)
  | write (t : ℕ) (ok : Bool)
  | ping (t : ℕ) (millis : UInt64)
  | endSelect (t : ℕ)
  | disconnect (t : ℕ)
  | remove (t : ℕ)
  | shutdown
  | tick (millis : ℕ)

def act (env : Env) (s : State) : Action → Option State
  | .spawn => if s.shutdown then none else some (spawn s)
  | .start t =>
    if (s.session t).phase = .starting ∧ s.guard = none then some (onSessionStart s t) else none
  | .readBuf t bytes =>
    if (s.session t).phase = .selecting .reading then
      if bytes.isEmpty then some (s.setPhase t (.selecting .returned))
      else some (s.update t { s.session t with
        phase := .selecting .unpacking, buffer := (s.session t).buffer ++ bytes })
    else none
  | .readError t =>
    if (s.session t).phase = .selecting .reading then some (s.setPhase t (.selecting .returned))
    else none
  | .recvFrame t =>
    if (s.session t).phase = .selecting .unpacking then some (onRecvFrame env s t) else none
  | .recvMessage t =>
    match (s.session t).phase with
    | .selecting (.received k message) => some (onRecvMessage env s t k message)
    | _ => none
  | .lock t entries =>
    match (s.session t).phase with
    | .selecting (.locking k push) =>
      if s.guard = none ∧ entries.Perm s.players.entries then
        some (lockPlayers s t k push entries)
      else none
    | _ => none
  | .push t =>
    match (s.session t).phase with
    | .selecting (.pushing k push rest) => some (broadcast s t k push rest)
    | _ => none
  | .respond t =>
    match (s.session t).phase with
    | .selecting (.responding k) => some (s.answer t k (.response ⟨true, ""⟩))
    | _ => none
  | .write t ok =>
    match (s.session t).phase with
    | .selecting reader => if reader.awaits then pollWrite s t ok else none
    | _ => none
  | .ping t millis =>
    if (s.session t).pingTask ∧ 10000 ≤ s.clock - (s.session t).lastActiveTime then
      some ((s.send t (.ping ⟨millis⟩) .pingTask).getD s)
    else none
  | .endSelect t =>
    match (s.session t).phase with
    | .selecting reader =>
      if reader = .returned ∨ s.shutdown ∧ reader.awaits then some (endSelect s t) else none
    | _ => none
  | .disconnect t =>
    if (s.session t).phase = .closing then some (onDisconnectSession s t) else none
  | .remove t =>
    if (s.session t).phase = .removing ∧ s.guard = none then some (onSessionClose s t) else none
  | .shutdown => some { s with shutdown := true }
  | .tick millis => some { s with clock := s.clock + millis }

/-- A panic aborts the process. -/
def step (env : Env) (s : State) (a : Action) : Option State :=
  if s.panicked then none else act env s a

end MusicRemote.Server
