import MusicRemote.Protocol.Deserialize

namespace MusicRemote.App

open Protocol Protocol.Json

namespace Proto

/-- The client's own classes for the messages. A `String` may be `null`. -/
structure Message where
  name : Option String
  data : Option String
  deriving DecidableEq

structure Ping where
  time : Int64
  deriving DecidableEq

structure Pong where
  time : Int64
  deriving DecidableEq

structure PushMediaKeyEvent where
  action : Int32
  code : Int32
  token : Option String
  deriving DecidableEq

end Proto

structure KeyEvent where
  action : Int32
  code : Int32
  deriving DecidableEq

/-- What is assumed of `new String(…, UTF_8)` and of `Gson.fromJson`, which may throw or return
`null`: texts that `serde_json` has written are read with the same names and strings, and a number
for an `int` must be one. -/
structure Gson where
  newString : List UInt8 → String
  readMessage : String → Option Proto.Message
  readPing : String → Option Proto.Ping
  readPush : String → Option Proto.PushMediaKeyEvent
  newString_asBytes : ∀ text, newString (asBytes text) = text
  readMessage_toString : ∀ message : Message,
    readMessage (Json.toString message) = some ⟨some message.name, some message.data⟩
  readPush_toString : ∀ push : PushMediaKeyEvent,
    readPush (Json.toString push) =
      if push.action.toNat < 2 ^ 31 ∧ push.code.toNat < 2 ^ 31 then
        some ⟨.ofNat push.action.toNat, .ofNat push.code.toNat, some push.token⟩
      else none

/-- What the listener does with received data that others can notice. -/
inductive Effect
  | sendMessage (connectionId : ℤ) (response : Proto.Pong)
  | dispatchMediaKeyEvent (event : KeyEvent)
  deriving DecidableEq

def Effect.keyEvent : Effect → Option KeyEvent
  | .sendMessage _ _ => none
  | .dispatchMediaKeyEvent event => some event

/-- The listener's part for `EVENT_ON_RECV_DATA`. Every exception is caught and logged: also that of
`fromJson`, that of a `switch` on `null`, and that of `token.equals` before there is a token. -/
def onRecvData (gson : Gson) (token : Option String) (audioManager : Bool) (connectionId : ℤ)
    (data : List UInt8) : List Effect :=
  match gson.readMessage (gson.newString data) with
  | some ⟨some name, data⟩ =>
    if name = "Ping" then
      match data.bind gson.readPing with
      | some ping => [.sendMessage connectionId ⟨ping.time⟩]
      | none => []
    else if name = "Pong" then []
    else if name = "PushMediaKeyEvent" then
      match data.bind gson.readPush with
      | some keyEvent =>
        if token.isSome ∧ token = keyEvent.token then
          if audioManager then [.dispatchMediaKeyEvent ⟨keyEvent.action, keyEvent.code⟩] else []
        else []
      | none => []
    else []
  | _ => []

section

variable (gson : Gson) (token : Option String) (audioManager : Bool) (connectionId : ℤ)

/-- What comes of a push: the action and the code have to be an `int` each. -/
theorem onRecvData_push (push : PushMediaKeyEvent) :
    onRecvData gson token audioManager connectionId (asBytes (Json.toString (messageOf push))) =
      if (push.action.toNat < 2 ^ 31 ∧ push.code.toNat < 2 ^ 31) ∧ token = some push.token ∧
          audioManager = true then
        [.dispatchMediaKeyEvent ⟨.ofNat push.action.toNat, .ofNat push.code.toNat⟩]
      else [] := by
  have hname : (messageOf push).name = "PushMediaKeyEvent" := rfl
  have hdata : (messageOf push).data = Json.toString push := rfl
  rw [onRecvData, gson.newString_asBytes, gson.readMessage_toString, hname, hdata]
  have hping : "PushMediaKeyEvent" ≠ "Ping" := by decide
  have hpong : "PushMediaKeyEvent" ≠ "Pong" := by decide
  simp only [if_neg hping, if_neg hpong, if_true, Option.bind_some, gson.readPush_toString]
  by_cases hint : push.action.toNat < 2 ^ 31 ∧ push.code.toNat < 2 ^ 31
  · simp only [hint, true_and]
    by_cases htoken : token = some push.token
    · simp [htoken]
    · simp [htoken]
  · simp only [hint, false_and, if_false]

/-- Nothing else that the server sends makes a key event. -/
theorem keyEvents_message {α : Type} [Serialize α] (data : α)
    (h : typeNameOf α ≠ "PushMediaKeyEvent") :
    (onRecvData gson token audioManager connectionId
      (asBytes (Json.toString (messageOf data)))).filterMap Effect.keyEvent = [] := by
  have hname : (messageOf data).name = typeNameOf α := rfl
  rw [onRecvData, gson.newString_asBytes, gson.readMessage_toString, hname]
  simp only [if_neg h]
  split
  · split <;> rfl
  · split <;> rfl

end

instance : Deserialize Proto.Message where
  names := ["name", "data"]
  build
    | [name, data] => some ⟨name.text, data.text⟩
    | _ => none

instance : Deserialize Proto.Ping where
  names := ["time"]
  build
    | [time] => do return ⟨.ofNat (← time.natural (2 ^ 63))⟩
    | _ => none

instance : Deserialize Proto.PushMediaKeyEvent where
  names := ["action", "code", "token"]
  build
    | [action, code, token] => do
      return ⟨.ofNat (← action.natural (2 ^ 31)), .ofNat (← code.natural (2 ^ 31)), token.text⟩
    | _ => none

def gson : Gson where
  newString data := (fromUtf8 data).getD ""
  readMessage := fromStr
  readPing := fromStr
  readPush := fromStr
  newString_asBytes text := by rw [fromUtf8_asBytes]; rfl
  readMessage_toString message := by
    rw [fromStr_toString message rfl (by decide)]
    change some (Proto.Message.mk (Value.string message.name).tree.text
      (Value.string message.data).tree.text) = _
    rw [Value.text_tree, Value.text_tree]
  readPush_toString push := by
    rw [fromStr_toString push rfl (by decide)]
    change ((Value.number push.action.toNat).tree.natural (2 ^ 31)).bind (fun action ↦
      ((Value.number push.code.toNat).tree.natural (2 ^ 31)).bind fun code ↦
        some (Proto.PushMediaKeyEvent.mk (.ofNat action) (.ofNat code)
          (Value.string push.token).tree.text)) = _
    rw [Value.natural_tree, Value.natural_tree, Value.text_tree]
    by_cases haction : push.action.toNat < 2 ^ 31
    · by_cases hcode : push.code.toNat < 2 ^ 31
      · rw [if_pos haction, if_pos hcode, if_pos ⟨haction, hcode⟩]
        rfl
      · rw [if_pos haction, if_neg hcode, if_neg (not_and_of_not_right _ hcode)]
        rfl
    · rw [if_neg haction, if_neg (not_and_of_not_left _ haction)]
      rfl

end MusicRemote.App
