import MusicRemote.Protocol.Deserialize
import MusicRemote.Protocol.Reading

namespace MusicRemote.Protocol

open Json

/-- The bytes of a character within a string literal. -/
def quotedSize (c : Char) : ℕ := cost Char.utf8Size (escapeChar c)

/-- The bytes of a text that stands in a string literal within a string literal. -/
def embedded (text : String) : ℕ := cost quotedSize (escape text)

variable {text data : String} {m : Message} {request : SendControlMediaKeyEventRequest} {c : Char}
  {v : Char → ℕ}

theorem asBytes_of_fromUtf8 {bytes : List UInt8} (h : fromUtf8 bytes = some text) :
    asBytes text = bytes := by
  have hbytes : text.toByteArray = bytes.toByteArray := by
    unfold fromUtf8 String.fromUTF8? at h
    split at h
    · cases h
      rfl
    · cases h
  have h' : (asBytes text).toByteArray = bytes.toByteArray := by
    rw [← hbytes, ← String.utf8Encode_toList]
    rfl
  simpa using congrArg (fun b : ByteArray ↦ b.data.toList) h'

theorem length_asBytes (text : String) :
    (asBytes text).length = cost Char.utf8Size text.toList := by
  unfold asBytes
  induction text.toList with
  | nil => rfl
  | cons c cs ih =>
    rw [List.flatMap_cons, List.length_append, ih, String.length_utf8EncodeChar, cost_cons]

theorem toNat_of_isAlphanum (h : c.isAlphanum = true) : 48 ≤ c.toNat ∧ c.toNat ≤ 122 := by
  change (decide ('A'.val ≤ c.val ∧ c.val ≤ 'Z'.val) ||
    decide ('a'.val ≤ c.val) && decide (c.val ≤ 'z'.val) ||
    decide ('0'.val ≤ c.val) && decide (c.val ≤ '9'.val)) = true at h
  simp only [Bool.or_eq_true, Bool.and_eq_true, decide_eq_true_eq, UInt32.le_iff_toNat_le] at h
  change ((65 ≤ c.toNat ∧ c.toNat ≤ 90) ∨ 97 ≤ c.toNat ∧ c.toNat ≤ 122) ∨
    48 ≤ c.toNat ∧ c.toNat ≤ 57 at h
  omega

theorem utf8Size_of_isAlphanum (h : c.isAlphanum = true) : c.utf8Size = 1 := by
  have hc := (toNat_of_isAlphanum h).2
  rw [Char.utf8Size_eq_one_iff, UInt32.le_iff_toNat_le]
  exact hc.trans (by decide)

theorem price_utf8Size : Price Char.utf8Size where
  alphanum _ := utf8Size_of_isAlphanum
  pos := Char.utf8Size_pos
  le c _ := (Char.utf8Size_le_four c).trans (by decide)

theorem quotedSize_plain (h : 32 ≤ c.toNat) (hq : c ≠ '"') (hb : c ≠ '\\') :
    quotedSize c = c.utf8Size := by
  rw [quotedSize, escapeChar_plain h hq hb, cost_cons, cost_nil, Nat.add_zero]

theorem price_quotedSize : Price quotedSize where
  alphanum c h := by
    have h32 : 32 ≤ c.toNat := (by decide : 32 ≤ 48).trans (toNat_of_isAlphanum h).1
    rw [quotedSize_plain h32 (by rintro rfl; cases h) (by rintro rfl; cases h),
      utf8Size_of_isAlphanum h]
  pos c := by
    obtain ⟨d, ds, hd, -⟩ := escapeChar_head c
    have := d.utf8Size_pos
    rw [quotedSize, hd, cost_cons]
    omega
  le c h := by
    by_cases hq : c = '"'
    · subst hq
      decide
    by_cases hb : c = '\\'
    · subst hb
      decide
    rw [quotedSize_plain h hq hb]
    exact price_utf8Size.le c h

theorem cost_quote : cost v (quote text) = v '"' + cost v (escape text) + v '"' := by
  simp [quote, escape, Nat.add_assoc]

theorem cost_escape_utf8Size :
    cost Char.utf8Size (escape text) = cost quotedSize text.toList := cost_flatMap escapeChar

theorem length_toString_message (m : Message) : (asBytes (Json.toString m)).length =
    21 + cost Char.utf8Size (escape m.name) + cost quotedSize m.data.toList := by
  rw [length_asBytes, toList_toString_message]
  simp only [cost_append, cost_quote, cost_escape_utf8Size]
  have h1 : cost quotedSize "name".toList = 4 := by decide
  have h2 : cost quotedSize "data".toList = 4 := by decide
  have h3 : Char.utf8Size '"' = 1 := rfl
  rw [h1, h2, h3]
  change 1 + (1 + 4 + 1 + 1 + (1 + _ + 1) + 1 + (1 + 4 + 1 + 1 + (1 + _ + 1))) + 1 = _
  omega

theorem build_message {ts : List Tree} (h : Deserialize.build ts = some m) :
    ∃ name data, ts = [name, data] ∧ name.text = some m.name ∧ data.text = some m.data := by
  simp only [Deserialize.build] at h
  split at h
  · rename_i name data
    simp only [Option.bind_eq_bind, Option.bind_eq_some_iff, Option.pure_def,
      Option.some.injEq] at h
    obtain ⟨x, hx, y, hy, rfl⟩ := h
    exact ⟨name, data, rfl, hx, hy⟩
  · cases h

theorem build_request {ts : List Tree} (h : Deserialize.build ts = some request) :
    ∃ action code token authorizationCode, ts = [action, code, token, authorizationCode] ∧
      action.natural (2 ^ 32) = some request.action.toNat ∧
      code.natural (2 ^ 32) = some request.code.toNat ∧ token.text = some request.token ∧
      authorizationCode.text = some request.authorizationCode := by
  simp only [Deserialize.build] at h
  split at h
  · rename_i action code token authorizationCode
    simp only [Option.bind_eq_bind, Option.bind_eq_some_iff, Option.pure_def,
      Option.some.injEq] at h
    obtain ⟨n, hn, k, hk, x, hx, y, hy, rfl⟩ := h
    have hnlt := (Tree.cost_natural price_utf8Size hn).2
    have hklt := (Tree.cost_natural price_utf8Size hk).2
    refine ⟨action, code, token, authorizationCode, rfl, ?_, ?_, hx, hy⟩
    · rw [hn, UInt32.toNat_ofNat_of_lt' hnlt]
    · rw [hk, UInt32.toNat_ofNat_of_lt' hklt]
  · cases h

/-- A text that reads as a message has both of its texts within it. -/
theorem le_length_of_message (h : fromStr text = some m) :
    7 + cost Char.utf8Size (escape m.name) + cost quotedSize m.data.toList ≤
      (asBytes text).length := by
  simp only [fromStr, Option.bind_eq_bind, Option.bind_eq_some_iff] at h
  obtain ⟨t, ht, ts, hts, h⟩ := h
  obtain ⟨name, data, rfl, hname, hdata⟩ := build_message h
  have hle := cost_le_of_sublist (v := Char.utf8Size) (write_sublist_of_parse ht)
  have h1 := Tree.cost_text price_utf8Size hname
  have h2 := Tree.cost_text price_utf8Size hdata
  rw [cost_escape_utf8Size] at h2
  rw [← length_asBytes] at hle
  refine Nat.le_trans ?_ hle
  have hquote : Char.utf8Size '"' = 1 := rfl
  have hcomma : Char.utf8Size ',' = 1 := rfl
  cases t with
  | array items =>
    obtain ⟨rfl, -⟩ := Tree.eq_of_fields_array hts
    have hc := Tree.cost_array (v := Char.utf8Size) (List.cons_ne_nil name [data])
    have hopen : Char.utf8Size '[' = 1 := rfl
    have hclose : Char.utf8Size ']' = 1 := rfl
    simp only [List.map_cons, List.map_nil, List.sum_cons, List.sum_nil] at hc
    omega
  | object members =>
    -- The names of the fields are not needed here: an array is the shorter form.
    have hc := Tree.cost_object price_utf8Size (by decide) (by decide) hts
    have hopen : Char.utf8Size '\x7b' = 1 := rfl
    have hclose : Char.utf8Size '\x7d' = 1 := rfl
    simp only [Deserialize.names, List.zipWith_cons_cons, List.zipWith_nil_left, List.sum_cons,
      List.sum_nil, memberPrice] at hc
    omega
  | _ => cases hts

/-- The size of a request's numbers and of its token in the frame of a message. -/
def requestSize (action code : UInt32) (token : String) : ℕ :=
  cost quotedSize (Nat.toDigits 10 action.toNat) + cost quotedSize (Nat.toDigits 10 code.toNat) +
    embedded token

def isArray (data : String) : Bool :=
  match parse data with
  | some (.array _) => true
  | _ => false

theorem le_cost_of_request (h : fromStr data = some request) :
    (if isArray data then 13 else 66) + requestSize request.action request.code request.token +
      embedded request.authorizationCode ≤ cost quotedSize data.toList := by
  simp only [fromStr, Option.bind_eq_bind, Option.bind_eq_some_iff] at h
  obtain ⟨t, ht, ts, hts, h⟩ := h
  obtain ⟨action, code, token, authorizationCode, rfl, ha, hc, hk, hauth⟩ := build_request h
  refine Nat.le_trans ?_ (cost_le_of_sublist (write_sublist_of_parse ht))
  have h1 := (Tree.cost_natural price_quotedSize ha).1
  have h2 := (Tree.cost_natural price_quotedSize hc).1
  have h3 := Tree.cost_text price_quotedSize hk
  have h4 := Tree.cost_text price_quotedSize hauth
  have hquote : quotedSize '"' = 2 := rfl
  have hcomma : quotedSize ',' = 1 := rfl
  simp only [isArray, ht, requestSize, embedded]
  cases t with
  | array items =>
    obtain ⟨rfl, -⟩ := Tree.eq_of_fields_array hts
    have hcost := Tree.cost_array (v := quotedSize)
      (List.cons_ne_nil action [code, token, authorizationCode])
    have hopen : quotedSize '[' = 1 := rfl
    have hclose : quotedSize ']' = 1 := rfl
    simp only [List.map_cons, List.map_nil, List.sum_cons, List.sum_nil] at hcost
    simp only [if_true]
    omega
  | object members =>
    have hcost := Tree.cost_object price_quotedSize (by decide) (by decide) hts
    have hopen : quotedSize '\x7b' = 1 := rfl
    have hclose : quotedSize '\x7d' = 1 := rfl
    have hcolon : quotedSize ':' = 1 := rfl
    have hnames : cost quotedSize (escape "action") = 6 ∧ cost quotedSize (escape "code") = 4 ∧
        cost quotedSize (escape "token") = 5 ∧
        cost quotedSize (escape "authorization_code") = 18 := by decide
    simp only [Deserialize.names, List.zipWith_cons_cons, List.zipWith_nil_left, List.sum_cons,
      List.sum_nil, memberPrice] at hcost
    simp only [Bool.false_eq_true, if_false]
    omega
  | _ => cases hts

theorem length_push (push : PushMediaKeyEvent) :
    (asBytes (Json.toString (messageOf push))).length =
      76 + requestSize push.action push.code push.token := by
  have hname : cost Char.utf8Size (escape (messageOf push).name) = 17 := by
    change cost Char.utf8Size (escape "PushMediaKeyEvent") = 17
    decide
  have hquote : quotedSize '"' = 2 := rfl
  have hnames : cost quotedSize (escape "action") = 6 ∧ cost quotedSize (escape "code") = 4 ∧
      cost quotedSize (escape "token") = 5 := by decide
  have hmarks : cost quotedSize "\x7b".toList = 1 ∧ cost quotedSize "\x7d".toList = 1 ∧
      cost quotedSize ",".toList = 1 ∧ cost quotedSize ":".toList = 1 := by decide
  rw [length_toString_message, hname]
  simp only [messageOf, Json.toString, writeObject, Serialize.fields, writeField, Value.write,
    List.map_cons, List.map_nil, List.intercalate_cons_cons, List.intercalate_singleton,
    String.toList_ofList, cost_append, cost_quote, requestSize, embedded]
  omega

end MusicRemote.Protocol
