import Mathlib.Tactic.IntervalCases
import MusicRemote.Protocol.Deserialize
import MusicRemote.Protocol.Message

namespace MusicRemote.Protocol.Json

def hexValue (c : Char) : Option ℕ :=
  if '0' ≤ c ∧ c ≤ '9' then some (c.toNat - 48)
  else if 'a' ≤ c ∧ c ≤ 'f' then some (c.toNat - 87)
  else none

def unescapeChar : List Char → Option (Char × List Char)
  | '\\' :: 'b' :: rest => some (Char.ofNat 8, rest)
  | '\\' :: 't' :: rest => some (Char.ofNat 9, rest)
  | '\\' :: 'n' :: rest => some (Char.ofNat 10, rest)
  | '\\' :: 'f' :: rest => some (Char.ofNat 12, rest)
  | '\\' :: 'r' :: rest => some (Char.ofNat 13, rest)
  | '\\' :: '"' :: rest => some ('"', rest)
  | '\\' :: '\\' :: rest => some ('\\', rest)
  | '\\' :: 'u' :: '0' :: '0' :: a :: b :: rest => do
    let a ← hexValue a
    let b ← hexValue b
    return (Char.ofNat (16 * a + b), rest)
  | '\\' :: _ => none
  | c :: rest => some (c, rest)
  | [] => none

def readChars : ℕ → List Char → Option (List Char × List Char)
  | 0, _ => none
  | _ + 1, '"' :: rest => some ([], rest)
  | n + 1, cs => do
    let (c, rest) ← unescapeChar cs
    let (text, rest) ← readChars n rest
    return (c :: text, rest)

def unquote : List Char → Option (String × List Char)
  | '"' :: rest => (readChars rest.length rest).map fun (text, rest) ↦ (String.ofList text, rest)
  | _ => none

def expect (token : String) (cs : List Char) : Option (List Char) :=
  if token.toList.isPrefixOf cs then some (cs.drop token.toList.length) else none

/-- Reads the texts of messages as the senders write them. -/
def parseMessage (text : String) : Option Message := do
  let cs ← expect "\x7b\"name\":" text.toList
  let (name, cs) ← unquote cs
  let cs ← expect ",\"data\":" cs
  let (data, cs) ← unquote cs
  if cs = "\x7d".toList then some ⟨name, data⟩ else none

def parseConnectRequest (text : String) : Option ConnectRequest := do
  let cs ← expect "\x7b\"addr\":" text.toList
  let (addr, cs) ← unquote cs
  if cs = "\x7d".toList then some ⟨addr⟩ else none

/-- What counts as true in JavaScript. That a tiny number is rounded to zero is left out. -/
def Tree.isTruthy : Tree → Bool
  | .null => false
  | .bool b => b
  | .number numeral =>
    (numeral.chars.takeWhile fun c ↦ c != 'e' && c != 'E').any fun c ↦ c.isDigit && c != '0'
  | .string literal => !literal.chars.isEmpty
  | .array _ | .object _ => true

/-- Whether the field `ok` counts as true; a missing one does not, and to read it of `null`
throws. -/
def Tree.ok : Tree → Option Bool
  | .null => none
  | .object members =>
    some ((members.filter fun m ↦ m.1.unescape = some "ok").getLast?.any (·.2.isTruthy))
  | .bool _ | .number _ | .string _ | .array _ => some false

/-- `JSON.parse`, and the field `ok` of what it gives. -/
def parseData (text : String) : Option (Option Bool) := (parse text).map Tree.ok

theorem unescapeChar_escapeChar (c : Char) (rest : List Char) :
    unescapeChar (escapeChar c ++ rest) = some (c, rest) := by
  have hc : Char.ofNat c.toNat = c := Char.ofNat_toNat c
  unfold escapeChar
  split
  case h_8 h92 =>
    split
    · rename_i hlt
      generalize c.toNat = n at *
      subst hc
      interval_cases n <;> rfl
    · have hne : c ≠ '\\' := by
        rintro rfl
        exact h92 rfl
      simp only [List.cons_append, List.nil_append]
      rw [unescapeChar]
      all_goals simp_all
  all_goals
    rename_i h
    rw [← hc, h]
    rfl

theorem escapeChar_head (c : Char) : ∃ d ds, escapeChar c = d :: ds ∧ d ≠ '"' := by
  unfold escapeChar
  split
  case h_8 h34 h92 =>
    split
    · exact ⟨_, _, rfl, by decide⟩
    · refine ⟨c, [], rfl, ?_⟩
      rintro rfl
      exact h34 rfl
  all_goals exact ⟨_, _, rfl, by decide⟩

theorem readChars_flatMap (cs rest : List Char) {n : ℕ} (hn : cs.length < n) :
    readChars n (cs.flatMap escapeChar ++ '"' :: rest) = some (cs, rest) := by
  induction cs generalizing n with
  | nil =>
    obtain ⟨n, rfl⟩ := Nat.exists_eq_succ_of_ne_zero (Nat.ne_of_gt hn)
    rfl
  | cons c cs ih =>
    obtain ⟨n, rfl⟩ := Nat.exists_eq_succ_of_ne_zero (Nat.ne_of_gt (Nat.zero_lt_of_lt hn))
    have hu := unescapeChar_escapeChar c (cs.flatMap escapeChar ++ '"' :: rest)
    obtain ⟨d, ds, hd, hne⟩ := escapeChar_head c
    rw [List.flatMap_cons, List.append_assoc]
    rw [hd, List.cons_append] at hu ⊢
    rw [readChars, hu]
    · simp [ih (Nat.lt_of_succ_lt_succ hn)]
    · simpa using hne

/-- A reader gets back the text of a string literal, and what follows it. -/
theorem unquote_quote (text : String) (rest : List Char) :
    unquote (quote text ++ rest) = some (text, rest) := by
  have hq : quote text ++ rest = '"' :: (text.toList.flatMap escapeChar ++ '"' :: rest) := by
    simp [quote]
  have hlen := length_le_flatMap_escapeChar text.toList
  rw [hq, unquote, readChars_flatMap]
  · simp
  · rw [List.length_append, List.length_cons]
    omega

theorem expect_append (token : String) (cs : List Char) :
    expect token (token.toList ++ cs) = some cs := by
  simp [expect]

theorem parseMessage_toString (m : Message) : parseMessage (Json.toString m) = some m := by
  have htext : (Json.toString m).toList = "\x7b\"name\":".toList ++
      (quote m.name ++ (",\"data\":".toList ++ (quote m.data ++ "\x7d".toList))) := by
    rw [toList_toString_message]
    simp [quote, escapeChar]
  simp only [parseMessage, htext, expect_append, unquote_quote, Option.bind_eq_bind,
    Option.bind_some, if_pos]

theorem parseConnectRequest_toString (r : ConnectRequest) :
    parseConnectRequest (Json.toString r) = some r := by
  have htext : (Json.toString r).toList =
      "\x7b\"addr\":".toList ++ (quote r.addr ++ "\x7d".toList) := by
    simp [Json.toString, writeObject, Serialize.fields, writeField, Value.write, List.intercalate,
      quote, escapeChar]
  simp only [parseConnectRequest, htext, expect_append, unquote_quote, Option.bind_eq_bind,
    Option.bind_some, if_pos]

theorem parseData_toString (r : ConnectResponse) :
    parseData (Json.toString r) = some (some r.ok) := by
  rw [parseData, parse_toString, Option.map_some, Tree.ok]
  simp [membersOf, Serialize.fields, Literal.unescape_of, Value.tree, Tree.isTruthy]

theorem isSome_parseData {α : Type} [Serialize α] (data : α) :
    (parseData (Json.toString data)).isSome = true := by
  rw [parseData, parse_toString]
  rfl

end MusicRemote.Protocol.Json
