import MusicRemote.Protocol.Json

namespace MusicRemote.Protocol

open Json

/-- The envelope of every frame: the type's name and the value as JSON text. -/
structure Message where
  name : String
  data : String
  deriving DecidableEq

structure Ping where
  time : UInt64
  deriving DecidableEq

structure Pong where
  time : UInt64
  deriving DecidableEq

structure PushMediaKeyEvent where
  action : UInt32
  code : UInt32
  token : String
  deriving DecidableEq

structure SendControlMediaKeyEventRequest where
  action : UInt32
  code : UInt32
  token : String
  authorizationCode : String
  deriving DecidableEq

structure SendControlMediaKeyEventResponse where
  ok : Bool
  error : String
  deriving DecidableEq

structure ConnectRequest where
  addr : String
  deriving DecidableEq

structure ConnectResponse where
  ok : Bool
  error : String
  deriving DecidableEq

structure DisconnectNtf where
  reason : String
  deriving DecidableEq

instance : Serialize Message where
  typePath := ["proto", "Message"]
  fields m := [("name", .string m.name), ("data", .string m.data)]

instance : Serialize Ping where
  typePath := ["proto", "Ping"]
  fields p := [("time", .number p.time.toNat)]

instance : Serialize Pong where
  typePath := ["proto", "Pong"]
  fields p := [("time", .number p.time.toNat)]

instance : Serialize PushMediaKeyEvent where
  typePath := ["proto", "PushMediaKeyEvent"]
  fields p := [("action", .number p.action.toNat), ("code", .number p.code.toNat),
    ("token", .string p.token)]

instance : Serialize SendControlMediaKeyEventRequest where
  typePath := ["proto", "SendControlMediaKeyEventRequest"]
  fields r := [("action", .number r.action.toNat), ("code", .number r.code.toNat),
    ("token", .string r.token), ("authorization_code", .string r.authorizationCode)]

instance : Serialize SendControlMediaKeyEventResponse where
  typePath := ["proto", "SendControlMediaKeyEventResponse"]
  fields r := [("ok", .bool r.ok), ("error", .string r.error)]

instance : Serialize ConnectRequest where
  typePath := ["proto", "ConnectRequest"]
  fields r := [("addr", .string r.addr)]

instance : Serialize ConnectResponse where
  typePath := ["proto", "ConnectResponse"]
  fields r := [("ok", .bool r.ok), ("error", .string r.error)]

instance : Serialize DisconnectNtf where
  typePath := ["proto", "DisconnectNtf"]
  fields n := [("reason", .string n.reason)]

/-- The envelope that all three senders put around a value. -/
def messageOf {α : Type} [Serialize α] (data : α) : Message :=
  ⟨typeNameOf α, Json.toString data⟩

theorem toList_toString_message (m : Message) : (Json.toString m).toList =
    "\x7b".toList ++ (quote "name" ++ ":".toList ++ quote m.name ++ ",".toList ++
      (quote "data" ++ ":".toList ++ quote m.data)) ++ "\x7d".toList := by
  simp [Json.toString, writeObject, Serialize.fields, writeField, Value.write, List.intercalate]

theorem toString_message_ne_empty (m : Message) : asBytes (Json.toString m) ≠ [] := by
  intro h
  have hlen := length_le_asBytes (Json.toString m)
  simp [toList_toString_message, h] at hlen

/-- The text of a message is at least as long as its data. -/
theorem length_le_toString_message (m : Message) :
    m.data.toList.length ≤ (asBytes (Json.toString m)).length := by
  refine le_trans ?_ (length_le_asBytes _)
  have hq := length_le_quote m.data
  rw [toList_toString_message]
  simp only [List.length_append]
  omega

theorem length_le_toString_request (r : SendControlMediaKeyEventRequest) :
    r.token.toList.length ≤ (Json.toString r).toList.length := by
  have hq := length_le_quote r.token
  simp only [Json.toString, writeObject, Serialize.fields, writeField, Value.write,
    List.intercalate, List.map_cons, List.map_nil, List.intersperse_cons_cons,
    List.intersperse_singleton, List.flatten_cons, List.flatten_nil, String.toList_ofList,
    List.length_append]
  omega

end MusicRemote.Protocol
