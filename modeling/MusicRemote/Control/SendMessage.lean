import MusicRemote.Protocol.Framing

namespace MusicRemote.Control

open Protocol Protocol.Json Protocol.Framing

structure WriteHalf where
  written : List UInt8
  isUp : Bool

def WriteHalf.writeAll (writer : WriteHalf) (buf : List UInt8) : Except Fault WriteHalf :=
  if writer.isUp then .ok { writer with written := writer.written ++ buf }
  else .error (.error "broken pipe")

def sendMessageToServer {α : Type} [Serialize α] (writer : WriteHalf) (data : α) :
    Except Fault WriteHalf :=
  writer.writeAll (frame (Json.toString (messageOf data)))

def pollWrite (writer : WriteHalf) : List Message → Except Fault WriteHalf
  | [] => .ok writer
  | message :: rx => do
    let writer ← writer.writeAll (frame (Json.toString message))
    pollWrite writer rx

/-- What the three writers of a connection submit: a message taken from the page,
the answer to a ping, or a ping. -/
inductive Submission
  | forward (message : Message)
  | pong (pong : Pong)
  | ping (ping : Ping)
  deriving DecidableEq

def Submission.message : Submission → Message
  | .forward message => message
  | .pong data => messageOf data
  | .ping data => messageOf data

def Submission.send (writer : WriteHalf) : Submission → Except Fault WriteHalf
  | .forward message => pollWrite writer [message]
  | .pong data => sendMessageToServer writer data
  | .ping data => sendMessageToServer writer data

theorem Submission.send_eq (writer : WriteHalf) (submission : Submission) :
    submission.send writer = writer.writeAll (frame (Json.toString submission.message)) := by
  cases submission with
  | forward message =>
    cases h : writer.writeAll (frame (Json.toString message)) <;>
      simp [send, pollWrite, Submission.message, h, bind, Except.bind]
  | pong data => rfl
  | ping data => rfl

end MusicRemote.Control
