import MusicRemote.Foundation.Channel
import MusicRemote.Protocol.Framing

namespace MusicRemote.Server

open Foundation Protocol Protocol.Json Protocol.Framing

structure SocketAddr where
  ip : List UInt8
  port : UInt16
  deriving DecidableEq

/-- The commands that a session's writer takes from its channel. A callback is
known by a number. -/
inductive WriterMessage
  | close
  | flush
  | closeDelayed (duration : ℕ)
  | send (data : List UInt8) (flush : Bool)
  | sendTo (data : List UInt8) (addr : SocketAddr)
  | sendAndThen (data : List UInt8) (callback : ℕ)
  deriving DecidableEq

def WriterMessage.data : WriterMessage → List UInt8
  | .send data _ | .sendTo data _ | .sendAndThen data _ => data
  | .close | .flush | .closeDelayed _ => []

inductive Body
  | ping (ping : Ping)
  | pong (pong : Pong)
  | push (push : PushMediaKeyEvent)
  | response (response : SendControlMediaKeyEventResponse)
  deriving DecidableEq

def writerMessage {α : Type} [Serialize α] (data : α) : WriterMessage :=
  .send (frame (Json.toString (messageOf data))) true

def sendMessage {α : Type} [Serialize α] (tx : Channel WriterMessage) (data : α) :
    Except Fault (Channel WriterMessage) :=
  match tx.send (writerMessage data) with
  | some tx => .ok tx
  | none => .error (.error "channel closed")

def Body.message : Body → Message
  | .ping data => messageOf data
  | .pong data => messageOf data
  | .push data => messageOf data
  | .response data => messageOf data

def Body.send (tx : Channel WriterMessage) : Body → Except Fault (Channel WriterMessage)
  | .ping data => sendMessage tx data
  | .pong data => sendMessage tx data
  | .push data => sendMessage tx data
  | .response data => sendMessage tx data

def Body.writerMessage (body : Body) : WriterMessage :=
  .send (frame (Json.toString body.message)) true

theorem Body.send_eq (tx : Channel WriterMessage) (body : Body) : body.send tx =
    match tx.send body.writerMessage with
    | some tx => .ok tx
    | none => .error (.error "channel closed") := by
  cases body <;> rfl

end MusicRemote.Server
