import Mathlib.Algebra.BigOperators.Group.List.Basic
import Mathlib.Data.List.TakeWhile
import Mathlib.Tactic.IntervalCases
import MusicRemote.Foundation.Lists
import MusicRemote.Protocol.Message
import MusicRemote.Protocol.Tree

namespace MusicRemote.Protocol.Json

def isHighSurrogate (n : ℕ) : Bool := 0xD800 ≤ n && n < 0xDC00

def isLowSurrogate (n : ℕ) : Bool := 0xDC00 ≤ n && n < 0xE000

/-- The characters with these codes. The two halves of a surrogate pair stand for
one character, and neither may stand alone. -/
def decode : List ℕ → Option (List Char)
  | [] => some []
  | n :: ns =>
    if isHighSurrogate n then
      match ns with
      | m :: ms =>
        if isLowSurrogate m then
          (decode ms).map (Char.ofNat (0x10000 + 1024 * (n - 0xD800) + (m - 0xDC00)) :: ·)
        else none
      | [] => none
    else if isLowSurrogate n then none
    else (decode ns).map (Char.ofNat n :: ·)

def Literal.unescape (literal : Literal) : Option String :=
  ((codes literal.chars).bind decode).map String.ofList

def Tree.text : Tree → Option String
  | .string literal => literal.unescape
  | _ => none

def Tree.natural (bound : ℕ) : Tree → Option ℕ
  | .number numeral =>
    let n := Nat.ofDigitChars 10 numeral.chars 0
    if isInteger numeral.chars = true ∧ n < bound then some n else none
  | _ => none

/-- The value under a name, which must occur once. -/
def member (members : List (Literal × Tree)) (name : String) : Option Tree :=
  match members.filter (fun m ↦ m.1.unescape = some name) with
  | [m] => some m.2
  | _ => none

/-- The values of a struct's fields: an object may have them in any order and more
members besides, an array has exactly them in the order of their declaration. -/
def Tree.fields (names : List String) : Tree → Option (List Tree)
  | .array items => if items.length = names.length then some items else none
  | .object members =>
    if members.all (fun m ↦ m.1.unescape.isSome) then names.mapM (member members) else none
  | _ => none

/-- A struct with `derive(Deserialize)`. -/
class Deserialize (α : Type) where
  names : List String
  build : List Tree → Option α

def fromStr {α : Type} [Deserialize α] (text : String) : Option α := do
  let t ← parse text
  let ts ← t.fields (Deserialize.names α)
  Deserialize.build ts

instance : Deserialize Message where
  names := ["name", "data"]
  build
    | [name, data] => do return ⟨← name.text, ← data.text⟩
    | _ => none

instance : Deserialize Ping where
  names := ["time"]
  build
    | [time] => do return ⟨.ofNat (← time.natural (2 ^ 64))⟩
    | _ => none

instance : Deserialize SendControlMediaKeyEventRequest where
  names := ["action", "code", "token", "authorization_code"]
  build
    | [action, code, token, authorizationCode] => do
      return ⟨.ofNat (← action.natural (2 ^ 32)), .ofNat (← code.natural (2 ^ 32)), ← token.text,
        ← authorizationCode.text⟩
    | _ => none

def escape (text : String) : List Char := text.toList.flatMap escapeChar

/-- What a text costs when each character has its price. -/
def cost (v : Char → ℕ) (cs : List Char) : ℕ := (cs.map v).sum

/-- The prices for which no text of a string is cheaper than the escaped one. -/
structure Price (v : Char → ℕ) : Prop where
  alphanum : ∀ c : Char, c.isAlphanum = true → v c = 1
  pos : ∀ c, 1 ≤ v c
  le : ∀ c : Char, 32 ≤ c.toNat → v c ≤ 5

section

variable {v : Char → ℕ} {c : Char} {cs l : List Char} {ns : List ℕ}

@[simp] theorem cost_nil : cost v [] = 0 := rfl

@[simp] theorem cost_cons : cost v (c :: cs) = v c + cost v cs := by simp [cost]

@[simp] theorem cost_append : cost v (cs ++ l) = cost v cs + cost v l := by simp [cost]

theorem cost_flatMap (f : Char → List Char) :
    cost v (cs.flatMap f) = cost (fun c ↦ cost v (f c)) cs := by
  induction cs with
  | nil => rfl
  | cons c cs ih => simp [ih]

theorem cost_le_of_sublist (h : l.Sublist cs) : cost v l ≤ cost v cs := by
  induction h with
  | slnil => exact Nat.le_refl _
  | cons c _ ih =>
    rw [cost_cons]
    omega
  | cons_cons c _ ih =>
    rw [cost_cons, cost_cons]
    omega

theorem isAlphanum_hexDigit {n : ℕ} (h : n < 16) : (hexDigit n).isAlphanum = true := by
  interval_cases n <;> rfl

theorem escapeChar_plain (h : 32 ≤ c.toNat) (hq : c ≠ '"') (hb : c ≠ '\\') :
    escapeChar c = [c] := by
  have hne {d : Char} (hd : c ≠ d) : c.toNat ≠ d.toNat := fun h ↦ hd (Char.toNat_inj.1 h)
  have hq' : c.toNat ≠ 34 := hne hq
  have hb' : c.toNat ≠ 92 := hne hb
  unfold escapeChar
  split <;> first | omega | skip
  rw [if_neg (by omega)]

theorem cost_escapeChar_le (hv : Price v) (c : Char) : cost v (escapeChar c) ≤ v '\\' + 5 := by
  have h2 (d : Char) (hd : 32 ≤ d.toNat) : cost v ['\\', d] ≤ v '\\' + 5 := by
    have := hv.le d hd
    simp only [cost_cons, cost_nil]
    omega
  unfold escapeChar
  split
  case h_8 =>
    split_ifs with hc
    · have hx := hv.alphanum _ (isAlphanum_hexDigit (n := c.toNat / 16) (by omega))
      have hy := hv.alphanum _ (isAlphanum_hexDigit (n := c.toNat % 16) (by omega))
      have hu := hv.alphanum 'u' rfl
      have h0 := hv.alphanum '0' rfl
      simp [hx, hy, hu, h0]
    · have := hv.le c (by omega)
      simp only [cost_cons, cost_nil]
      omega
  all_goals exact h2 _ (by decide)

/-- The price of a code is that of its character's escape, and half of a surrogate
pair takes a full escape. -/
def codePrice (v : Char → ℕ) (n : ℕ) : ℕ :=
  if isHighSurrogate n || isLowSurrogate n then v '\\' + 5 else cost v (escapeChar (.ofNat n))

theorem codePrice_le (hv : Price v) (n : ℕ) : codePrice v n ≤ v '\\' + 5 := by
  unfold codePrice
  split
  · exact Nat.le_refl _
  · exact cost_escapeChar_le hv _

theorem isSurrogate_toNat (c : Char) :
    isHighSurrogate c.toNat = false ∧ isLowSurrogate c.toNat = false := by
  have hc : Nat.isValidChar c.toNat := c.valid
  unfold Nat.isValidChar at hc
  simp only [isHighSurrogate, isLowSurrogate, Bool.and_eq_false_iff, decide_eq_false_iff_not]
  omega

theorem codePrice_toNat (c : Char) : codePrice v c.toNat = cost v (escapeChar c) := by
  simp [codePrice, isSurrogate_toNat c]

theorem codePrice_shortEscape {e : Char} {n : ℕ} (h : shortEscape e = some n) :
    codePrice v n ≤ v '\\' + v e := by
  unfold shortEscape at h
  split at h
  case h_9 => cases h
  all_goals
    cases h
    simp [codePrice, isHighSurrogate, isLowSurrogate, escapeChar]

theorem Spells.price_le (hv : Price v) (h : Spells l ns) :
    (ns.map (codePrice v)).sum ≤ cost v l := by
  induction h with
  | nil => exact Nat.le_refl _
  | @hex a b c d w x y z cs ns _ _ _ _ _ ih =>
    have hn := codePrice_le hv (4096 * w + 256 * x + 16 * y + z)
    have hu := hv.pos 'u'
    have ha := hv.pos a
    have hb := hv.pos b
    have hc := hv.pos c
    have hd := hv.pos d
    simp only [List.map_cons, List.sum_cons, cost_cons]
    omega
  | short he _ ih =>
    have hn := codePrice_shortEscape (v := v) he
    simp only [List.map_cons, List.sum_cons, cost_cons]
    omega
  | plain hc hq hb _ ih =>
    simp only [List.map_cons, List.sum_cons, cost_cons, codePrice_toNat, escapeChar_plain hc hq hb,
      cost_nil]
    omega

theorem cost_decode (hv : Price v) (h : decode ns = some cs) :
    cost v (cs.flatMap escapeChar) ≤ (ns.map (codePrice v)).sum := by
  fun_induction decode ns generalizing cs with
  | case1 =>
    cases h
    exact Nat.le_refl _
  | case2 n hn m ms hm ih =>
    obtain ⟨cs, hcs, rfl⟩ := Option.map_eq_some_iff.1 h
    -- The character is written as it is, for twelve characters of escapes.
    have hc := cost_escapeChar_le hv (.ofNat (0x10000 + 1024 * (n - 0xD800) + (m - 0xDC00)))
    have hprice : codePrice v n = v '\\' + 5 := by simp [codePrice, hn]
    have := ih hcs
    simp only [List.flatMap_cons, cost_append, List.map_cons, List.sum_cons]
    omega
  | case3 | case4 | case5 => cases h
  | case6 n ns hh hl ih =>
    obtain ⟨cs, hcs, rfl⟩ := Option.map_eq_some_iff.1 h
    have hprice : codePrice v n = cost v (escapeChar (.ofNat n)) := by simp [codePrice, hh, hl]
    have := ih hcs
    simp only [List.flatMap_cons, cost_append, List.map_cons, List.sum_cons]
    omega

/-- No literal of a string is cheaper than the one with the fewest escapes. -/
theorem cost_escape_le (hv : Price v) {literal : Literal} {text : String}
    (h : literal.unescape = some text) : cost v (escape text) ≤ cost v literal.chars := by
  obtain ⟨cs, hcs, rfl⟩ := Option.map_eq_some_iff.1 h
  obtain ⟨ns, hns, hd⟩ := Option.bind_eq_some_iff.1 hcs
  rw [escape, String.toList_ofList]
  exact (cost_decode hv hd).trans ((spells_of_codes hns).price_le hv)

theorem Tree.cost_text (hv : Price v) {t : Tree} {text : String} (h : t.text = some text) :
    v '"' + cost v (escape text) + v '"' ≤ cost v t.write := by
  cases t with
  | string literal =>
    have := cost_escape_le hv h
    rw [Tree.write]
    simp only [Literal.write, cost_cons, cost_append, cost_nil]
    omega
  | _ => cases h

theorem cost_eq_length (hv : Price v) (h : ∀ c ∈ cs, c.isDigit = true) :
    cost v cs = cs.length := by
  induction cs with
  | nil => rfl
  | cons c cs ih =>
    have hc := hv.alphanum c (by simp [Char.isAlphanum, h c List.mem_cons_self])
    rw [cost_cons, hc, ih fun d hd ↦ h d (List.mem_cons_of_mem _ hd), List.length_cons]
    omega

theorem isInteger_spec (h : isInteger cs = true) : cs ≠ [] ∧ ∀ c ∈ cs, c.isDigit = true := by
  unfold isInteger at h
  split at h
  · simp
  · simp only [isDigits, Bool.and_eq_true, List.all_eq_true] at h
    refine ⟨?_, h.1.2⟩
    rintro rfl
    simp at h

theorem ofDigitChars_lt (h : ∀ c ∈ cs, c.isDigit = true) (init : ℕ) :
    Nat.ofDigitChars 10 cs init < (init + 1) * 10 ^ cs.length := by
  induction cs generalizing init with
  | nil => simp
  | cons c cs ih =>
    have hc : c.toNat - 48 ≤ 9 := by
      have := h c List.mem_cons_self
      simp only [Char.isDigit, Bool.and_eq_true, decide_eq_true_eq, UInt32.le_iff_toNat_le] at this
      change 48 ≤ c.toNat ∧ c.toNat ≤ 57 at this
      omega
    rw [Nat.ofDigitChars_cons, List.length_cons, Nat.pow_succ, Nat.mul_comm _ 10, ← Nat.mul_assoc]
    refine Nat.lt_of_lt_of_le (ih (fun d hd ↦ h d (List.mem_cons_of_mem _ hd)) _) ?_
    refine Nat.mul_le_mul_right _ ?_
    change 10 * init + (c.toNat - 48) + 1 ≤ (init + 1) * 10
    omega

theorem Tree.cost_natural (hv : Price v) {t : Tree} {b n : ℕ} (h : t.natural b = some n) :
    cost v (Nat.toDigits 10 n) ≤ cost v t.write ∧ n < b := by
  cases t with
  | number numeral =>
    simp only [Tree.natural, Option.ite_none_right_eq_some, Option.some.injEq] at h
    obtain ⟨⟨hi, hb⟩, rfl⟩ := h
    obtain ⟨hne, hd⟩ := isInteger_spec hi
    refine ⟨?_, hb⟩
    rw [Tree.write, cost_eq_length hv hd, cost_eq_length hv fun c hc ↦
      Nat.isDigit_of_mem_toDigits (by decide) (by decide) hc,
      Nat.length_toDigits_le_iff (by decide) (List.length_pos_iff.2 hne)]
    simpa using ofDigitChars_lt hd 0
  | _ => cases h

theorem cost_intercalate {α : Type} (write : α → List Char) (x : α) (xs : List α) :
    cost v (",".toList.intercalate ((x :: xs).map write)) + v ',' =
      ((x :: xs).map fun y ↦ cost v (write y) + v ',').sum := by
  induction xs generalizing x with
  | nil => simp
  | cons y ys ih =>
    rw [List.map_cons, List.map_cons, List.intercalate_cons_cons, ← List.map_cons, cost_append,
      cost_append, Nat.add_assoc, ih y, List.map_cons, List.sum_cons]
    simp

theorem Tree.cost_array {items : List Tree} (h : items ≠ []) :
    cost v (Tree.array items).write + v ',' =
      v '[' + (items.map fun t ↦ cost v t.write + v ',').sum + v ']' := by
  obtain ⟨t, ts, rfl⟩ := List.exists_cons_of_ne_nil h
  rw [← cost_intercalate, Tree.write]
  simp only [cost_cons, cost_append, cost_nil]
  omega

def memberPrice (v : Char → ℕ) (name : String) (t : Tree) : ℕ :=
  v '"' + cost v (escape name) + v '"' + v ':' + cost v t.write + v ','

theorem member_eq_some {members : List (Literal × Tree)} {name : String} {t : Tree}
    (h : member members name = some t) :
    ∃ key, members.filter (fun m ↦ m.1.unescape = some name) = [(key, t)] ∧
      key.unescape = some name := by
  unfold member at h
  split at h
  · rename_i m hm
    cases h
    have hmem : m ∈ members.filter (fun m ↦ m.1.unescape = some name) := by simp [hm]
    exact ⟨m.1, hm, by simpa using (List.mem_filter.1 hmem).2⟩
  · cases h

theorem member_filter {members : List (Literal × Tree)} {name other : String} (h : other ≠ name) :
    member (members.filter (fun m ↦ !decide (m.1.unescape = some name))) other =
      member members other := by
  have hf (m : Literal × Tree) : (decide (m.1.unescape = some other) &&
      !decide (m.1.unescape = some name)) = decide (m.1.unescape = some other) := by
    by_cases hm : m.1.unescape = some other <;> simp [hm, h]
  simp only [member, List.filter_filter, hf]

theorem mapM_member_filter {members : List (Literal × Tree)} {name : String} {names : List String}
    (h : name ∉ names) :
    names.mapM (member (members.filter (fun m ↦ !decide (m.1.unescape = some name)))) =
      names.mapM (member members) := by
  induction names with
  | nil => rfl
  | cons other names ih =>
    simp only [List.mem_cons, not_or] at h
    rw [List.mapM_cons, List.mapM_cons, member_filter (Ne.symm h.1), ih h.2]

/-- Members of different names are different members. -/
theorem sum_memberPrice_le (hv : Price v) {names : List String} (hn : names.Nodup)
    {members : List (Literal × Tree)} {ts : List Tree}
    (h : names.mapM (member members) = some ts) :
    (List.zipWith (memberPrice v) names ts).sum ≤
      (members.map fun m ↦ cost v (writeMember m) + v ',').sum := by
  induction names generalizing members ts with
  | nil => exact Nat.zero_le _
  | cons name names ih =>
    obtain ⟨hname, hn⟩ := List.nodup_cons.1 hn
    simp only [List.mapM_cons, Option.bind_eq_bind, Option.bind_eq_some_iff, Option.pure_def,
      Option.some.injEq] at h
    obtain ⟨t, ht, ts, hts, rfl⟩ := h
    obtain ⟨key, hfilter, hkey⟩ := member_eq_some ht
    -- The other names are looked up among the members that remain.
    have hle := ih hn ((mapM_member_filter hname).trans hts)
    have hsum := ((List.filter_append_perm (fun m ↦ decide (m.1.unescape = some name)) members).map
      fun m ↦ cost v (writeMember m) + v ',').sum_eq
    have hcost := cost_escape_le hv hkey
    have hkey : memberPrice v name t ≤ cost v (writeMember (key, t)) + v ',' := by
      simp only [memberPrice, writeMember, Literal.write, cost_append, cost_cons, cost_nil]
      omega
    rw [hfilter, List.map_append, List.sum_append, List.map_singleton, List.sum_singleton] at hsum
    rw [← hsum, List.zipWith_cons_cons, List.sum_cons]
    exact Nat.add_le_add hkey hle

theorem Tree.cost_object (hv : Price v) {names : List String} (hn : names.Nodup)
    (hne : names ≠ []) {members : List (Literal × Tree)} {ts : List Tree}
    (h : (Tree.object members).fields names = some ts) :
    v '\x7b' + (List.zipWith (memberPrice v) names ts).sum + v '\x7d' ≤
      cost v (Tree.object members).write + v ',' := by
  simp only [Tree.fields, Option.ite_none_right_eq_some] at h
  have hle := sum_memberPrice_le hv hn h.2
  cases members with
  | nil =>
    obtain ⟨name, names, rfl⟩ := List.exists_cons_of_ne_nil hne
    simp [member] at h
  | cons m ms =>
    rw [← cost_intercalate] at hle
    rw [Tree.write_object]
    simp only [cost_cons, cost_append, cost_nil]
    omega

theorem Tree.eq_of_fields_array {names : List String} {items ts : List Tree}
    (h : (Tree.array items).fields names = some ts) : ts = items ∧ items.length = names.length := by
  simp only [Tree.fields, Option.ite_none_right_eq_some, Option.some.injEq] at h
  exact ⟨h.2.symm, h.1⟩

theorem codes_escapeChar (c : Char) (rest : List Char) :
    codes (escapeChar c ++ rest) = (codes rest).map (c.toNat :: ·) := by
  by_cases hc : 32 ≤ c.toNat ∧ c ≠ '"' ∧ c ≠ '\\'
  · rw [escapeChar_plain hc.1 hc.2.1 hc.2.2, List.singleton_append, codes]
    · rw [if_neg (by simp only [not_or]; exact ⟨by omega, hc.2⟩)]
      cases codes rest <;> rfl
    · intro a b d e rest' h
      exact absurd h hc.2.2
    · intro e rest' h
      exact absurd h hc.2.2
  · have hcases : c = '"' ∨ c = '\\' ∨ c.toNat < 32 := by
      by_contra h
      simp only [not_or, Nat.not_lt] at h
      exact hc ⟨h.2.2, h.1, h.2.1⟩
    obtain rfl | rfl | hlt := hcases
    · cases h : codes rest <;> simp [escapeChar, codes, shortEscape, h]
    · cases h : codes rest <;> simp [escapeChar, codes, shortEscape, h]
    · have hof : Char.ofNat c.toNat = c := Char.ofNat_toNat c
      generalize c.toNat = n at *
      subst hof
      interval_cases n <;>
      · cases h : codes rest <;> simp [escapeChar, codes, hexDigit, digitValue, shortEscape, h]

theorem codes_escape (cs : List Char) :
    codes (cs.flatMap escapeChar) = some (cs.map Char.toNat) := by
  induction cs with
  | nil => rfl
  | cons c cs ih => rw [List.flatMap_cons, codes_escapeChar, ih, List.map_cons, Option.map_some]

theorem decode_toNat (cs : List Char) : decode (cs.map Char.toNat) = some cs := by
  induction cs with
  | nil => rfl
  | cons c cs ih =>
    rw [List.map_cons, decode.eq_def]
    simp [isSurrogate_toNat c, ih]

def Literal.of (text : String) : Literal := ⟨escape text, by simp [escape, codes_escape]⟩

theorem Literal.unescape_of (text : String) : (Literal.of text).unescape = some text := by
  simp [Literal.unescape, Literal.of, escape, codes_escape, decode_toNat]

theorem head?_toDigits {n : ℕ} (h : n ≠ 0) : (Nat.toDigits 10 n).head? ≠ some '0' := by
  induction n using Nat.strong_induction_on with
  | h n ih =>
    rw [Nat.toDigits_eq_if (by decide)]
    split
    · intro heq
      exact h (Nat.digitChar_eq_zero.1 (Option.some.inj heq))
    · have hne : (Nat.toDigits 10 (n / 10)).head?.isSome = true := by
        rw [List.isSome_head?]
        exact Nat.toDigits_ne_nil
      rw [List.head?_append, Option.or_of_isSome hne]
      exact ih (n / 10) (by omega) (by omega)

theorem isInteger_toDigits (n : ℕ) : isInteger (Nat.toDigits 10 n) = true := by
  by_cases h : n = 0
  · subst h
    rfl
  · have hdigits : isDigits (Nat.toDigits 10 n) = true := by
      rw [isDigits, Bool.and_eq_true, Bool.not_eq_true', List.isEmpty_eq_false_iff,
        List.all_eq_true]
      exact ⟨Nat.toDigits_ne_nil, fun c hc ↦ Nat.isDigit_of_mem_toDigits (by decide) (by decide) hc⟩
    rw [isInteger.eq_def]
    split
    · rfl
    · rw [hdigits, Bool.true_and, bne_iff_ne]
      exact head?_toDigits h

/-- A text of digits has no sign, no fraction and no exponent. -/
theorem isNumber_of_isInteger (h : isInteger cs = true) : isNumber cs = true := by
  have hd := (isInteger_spec h).2
  have hne {c : Char} (d : Char) (hc : c ∈ cs) (hdigit : d.isDigit = false) : (c != d) = true := by
    rw [bne_iff_ne]
    rintro rfl
    rw [hd c hc] at hdigit
    cases hdigit
  have hsign : cs.head? ≠ some '-' := fun hhead ↦ by
    have := hd '-' (List.mem_of_mem_head? hhead)
    cases this
  have hplain : ∀ c ∈ cs, (c != 'e' && c != 'E') = true := fun c hc ↦ by
    rw [hne 'e' hc rfl, hne 'E' hc rfl]
    rfl
  have hpoint : ∀ c ∈ cs, (c != '.') = true := fun c hc ↦ hne '.' hc rfl
  have hall : cs.all isNumberChar = true := List.all_eq_true.2 fun c hc ↦ by
    rw [isNumberChar, hd c hc, Bool.true_or]
  rw [isNumber, if_neg hsign, List.takeWhile_eq_self_iff.2 hplain,
    List.dropWhile_eq_nil_iff.2 hplain, List.takeWhile_eq_self_iff.2 hpoint,
    List.dropWhile_eq_nil_iff.2 hpoint, hall, h]
  rfl

def Numeral.of (n : ℕ) : Numeral :=
  ⟨Nat.toDigits 10 n, isNumber_of_isInteger (isInteger_toDigits n)⟩

def Value.tree : Value → Tree
  | .string text => .string (.of text)
  | .number n => .number (.of n)
  | .bool b => .bool b

theorem Value.write_tree (value : Value) : value.tree.write = value.write := by
  cases value with
  | string text => rw [Value.tree, Tree.write]; rfl
  | number n => rw [Value.tree, Tree.write]; rfl
  | bool b => cases b <;> rw [Value.tree, Tree.write] <;> rfl

def membersOf (fields : List (String × Value)) : List (Literal × Tree) :=
  fields.map fun f ↦ (.of f.1, f.2.tree)

theorem parse_toString {α : Type} [Serialize α] (data : α) :
    parse (Json.toString data) = some (.object (membersOf (Serialize.fields data))) := by
  have hmember (field : String × Value) :
      writeMember (Literal.of field.1, field.2.tree) = writeField field := by
    rw [writeMember, Value.write_tree, writeField, quote]
    simp [Literal.write, Literal.of, escape]
  rw [← parse_write, Tree.write_object, Json.toString, writeObject, membersOf, List.map_map]
  congr 2
  simp [Function.comp_def, hmember]

theorem member_membersOf {fields : List (String × Value)} (hn : (fields.map Prod.fst).Nodup)
    {name : String} {value : Value} (h : (name, value) ∈ fields) :
    member (membersOf fields) name = some value.tree := by
  have hfilter : (membersOf fields).filter (fun m ↦ m.1.unescape = some name) =
      [(.of name, value.tree)] := by
    induction fields with
    | nil => cases h
    | cons field fields ih =>
      rw [List.map_cons, List.nodup_cons] at hn
      rw [membersOf, List.map_cons, List.filter_cons, Literal.unescape_of]
      rcases List.mem_cons.1 h with rfl | h
      · -- no later field has this name
        have hnil : (fields.map fun f ↦ (Literal.of f.1, f.2.tree)).filter
            (fun m ↦ m.1.unescape = some name) = [] := by
          rw [List.filter_eq_nil_iff]
          intro m hm
          obtain ⟨f, hf, rfl⟩ := List.mem_map.1 hm
          rw [Literal.unescape_of]
          rintro heq
          have := Option.some.inj (of_decide_eq_true heq)
          exact hn.1 (List.mem_map.2 ⟨f, hf, this⟩)
        simp [hnil]
      · have hne : field.1 ≠ name := fun heq ↦ hn.1 (heq ▸ List.mem_map_of_mem h)
        rw [if_neg (by simpa using hne)]
        exact ih hn.2 h
  rw [member, hfilter]

/-- What was written for a struct is read with the same names and values. -/
theorem fromStr_toString {α β : Type} [Serialize α] [Deserialize β] (data : α)
    (hnames : (Serialize.fields data).map Prod.fst = Deserialize.names β)
    (hn : (Deserialize.names β).Nodup) :
    (fromStr (Json.toString data) : Option β) =
      Deserialize.build ((Serialize.fields data).map (·.2.tree)) := by
  have hall : (membersOf (Serialize.fields data)).all (fun m ↦ m.1.unescape.isSome) = true := by
    rw [List.all_eq_true]
    intro m hm
    obtain ⟨f, -, rfl⟩ := List.mem_map.1 hm
    rw [Literal.unescape_of]
    rfl
  have hfields : (Tree.object (membersOf (Serialize.fields data))).fields (Deserialize.names β) =
      some ((Serialize.fields data).map (·.2.tree)) := by
    rw [← hnames] at hn ⊢
    rw [Tree.fields, if_pos hall]
    exact Foundation.mapM_eq_some fun f hf ↦ member_membersOf hn hf
  rw [fromStr, parse_toString]
  change (Tree.fields _ _).bind _ = _
  rw [hfields]
  rfl

theorem Value.text_tree (text : String) : (Value.string text).tree.text = some text :=
  Literal.unescape_of text

theorem Value.natural_tree (bound n : ℕ) :
    (Value.number n).tree.natural bound = if n < bound then some n else none := by
  have hvalue : Nat.ofDigitChars 10 (Numeral.of n).chars 0 = n :=
    Nat.ofDigitChars_toDigits (by decide) (by decide)
  have hinteger : isInteger (Numeral.of n).chars = true := isInteger_toDigits n
  simp only [Value.tree, Tree.natural, hvalue, hinteger, true_and]

/-- The server reads a message and a request as they were sent. -/
theorem fromStr_message (message : Message) : fromStr (Json.toString message) = some message := by
  rw [fromStr_toString message rfl (by decide)]
  change (Value.string message.name).tree.text.bind (fun name ↦
    (Value.string message.data).tree.text.bind fun data ↦ some (Message.mk name data)) = _
  rw [Value.text_tree, Value.text_tree]
  rfl

theorem fromStr_request (request : SendControlMediaKeyEventRequest) :
    fromStr (Json.toString request) = some request := by
  rw [fromStr_toString request rfl (by decide)]
  change ((Value.number request.action.toNat).tree.natural (2 ^ 32)).bind (fun action ↦
    ((Value.number request.code.toNat).tree.natural (2 ^ 32)).bind fun code ↦
      (Value.string request.token).tree.text.bind fun token ↦
        (Value.string request.authorizationCode).tree.text.bind fun authorizationCode ↦
          some (SendControlMediaKeyEventRequest.mk (.ofNat action) (.ofNat code) token
            authorizationCode)) = _
  rw [Value.natural_tree, Value.natural_tree, Value.text_tree, Value.text_tree,
    if_pos request.action.toNat_lt, if_pos request.code.toNat_lt]
  simp only [Option.bind_some, UInt32.ofNat_toNat]

/-- Other members are ignored, also where their texts are not those of strings. -/
example : fromStr ("\x7b\"data\" : \"\\u005B7]\", \"id\" : [1.5e3, \"\\ud800\", null],\n" ++
    "\"name\":\"Ping\"\x7d") = some (⟨"Ping", "[7]"⟩ : Message) := by
  decide +kernel

end

end MusicRemote.Protocol.Json
