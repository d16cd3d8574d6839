import Mathlib.Data.List.Basic
import Mathlib.Data.Nat.Digits.Defs

namespace MusicRemote.Protocol.Json

inductive Value
  | string (text : String)
  | number (n : ℕ)
  | bool (b : Bool)

def hexDigit (n : ℕ) : Char := if n < 10 then Char.ofNat (48 + n) else Char.ofNat (87 + n)

/-- The characters that a string literal cannot hold get a short escape where
there is one; the other control characters are written in hexadecimal. -/
def escapeChar (c : Char) : List Char :=
  match c.toNat with
  | 8 => "\\b".toList
  | 9 => "\\t".toList
  | 10 => "\\n".toList
  | 12 => "\\f".toList
  | 13 => "\\r".toList
  | 34 => "\\\"".toList
  | 92 => "\\\\".toList
  | n => if n < 32 then "\\u00".toList ++ [hexDigit (n / 16), hexDigit (n % 16)] else [c]

def quote (text : String) : List Char :=
  "\"".toList ++ text.toList.flatMap escapeChar ++ "\"".toList

def Value.write : Value → List Char
  | .string text => quote text
  | .number n => (Nat.toDigits 10 n)
  | .bool true => "true".toList
  | .bool false => "false".toList

def writeField (field : String × Value) : List Char :=
  quote field.1 ++ ":".toList ++ field.2.write

def writeObject (fields : List (String × Value)) : List Char :=
  "\x7b".toList ++ ",".toList.intercalate (fields.map writeField) ++ "\x7d".toList

/-- A struct with `derive(Serialize)`, and the path that `type_name` gives it. -/
class Serialize (α : Type) where
  typePath : List String
  fields : α → List (String × Value)

/-- `serde_json::to_string`, which cannot fail on these structs. -/
protected def toString {α : Type} [Serialize α] (data : α) : String :=
  String.ofList (writeObject (Serialize.fields data))

def typeNameOf (α : Type) [Serialize α] : String :=
  (Serialize.typePath α).getLastD (String.intercalate "::" (Serialize.typePath α))

def asBytes (text : String) : List UInt8 := text.toList.flatMap String.utf8EncodeChar

def fromUtf8 (bytes : List UInt8) : Option String := String.fromUTF8? bytes.toByteArray

theorem fromUtf8_asBytes (text : String) : fromUtf8 (asBytes text) = some text := by
  have h : (asBytes text).toByteArray = text.toByteArray := by
    rw [← String.utf8Encode_toList]
    rfl
  simp only [fromUtf8, String.fromUTF8?, h, dif_pos text.isValidUTF8]
  rfl

theorem length_le_asBytes (text : String) : text.toList.length ≤ (asBytes text).length := by
  unfold asBytes
  induction text.toList with
  | nil => exact Nat.zero_le _
  | cons c cs ih =>
    have hc := c.utf8Size_pos
    simp only [List.length_cons, List.flatMap_cons, List.length_append,
      String.length_utf8EncodeChar]
    omega

theorem escapeChar_length (c : Char) : 1 ≤ (escapeChar c).length := by
  unfold escapeChar
  split <;> try decide
  split_ifs <;> simp

theorem length_le_flatMap_escapeChar (cs : List Char) :
    cs.length ≤ (cs.flatMap escapeChar).length := by
  induction cs with
  | nil => exact Nat.zero_le _
  | cons c cs ih =>
    have hc := escapeChar_length c
    simp only [List.length_cons, List.flatMap_cons, List.length_append]
    omega

theorem length_le_quote (text : String) : text.toList.length ≤ (quote text).length := by
  have h := length_le_flatMap_escapeChar text.toList
  simp only [quote, List.length_append]
  omega

end MusicRemote.Protocol.Json
