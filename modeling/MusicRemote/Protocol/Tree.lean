import Mathlib.Data.List.Basic
import MusicRemote.Protocol.Json

namespace MusicRemote.Protocol.Json

def digitValue (c : Char) : Option ℕ :=
  if '0' ≤ c ∧ c ≤ '9' then some (c.toNat - 48)
  else if 'a' ≤ c ∧ c ≤ 'f' then some (c.toNat - 87)
  else if 'A' ≤ c ∧ c ≤ 'F' then some (c.toNat - 55)
  else none

def shortEscape : Char → Option ℕ
  | 'b' => some 8
  | 't' => some 9
  | 'n' => some 10
  | 'f' => some 12
  | 'r' => some 13
  | '"' => some 34
  | '/' => some 47
  | '\\' => some 92
  | _ => none

/-- The codes that the inside of a string literal spells, or `none` if it cannot
stand between quotes. An escape may spell half of a surrogate pair. -/
def codes : List Char → Option (List ℕ)
  | [] => some []
  | '\\' :: 'u' :: a :: b :: c :: d :: rest => do
    let a ← digitValue a
    let b ← digitValue b
    let c ← digitValue c
    let d ← digitValue d
    let ns ← codes rest
    return (4096 * a + 256 * b + 16 * c + d) :: ns
  | '\\' :: e :: rest => do
    let n ← shortEscape e
    let ns ← codes rest
    return n :: ns
  | c :: rest =>
    if c.toNat < 32 ∨ c = '"' ∨ c = '\\' then none
    else do
      let ns ← codes rest
      return c.toNat :: ns

inductive Spells : List Char → List ℕ → Prop
  | nil : Spells [] []
  | hex {a b c d : Char} {w x y z : ℕ} {cs : List Char} {ns : List ℕ} : digitValue a = some w →
      digitValue b = some x → digitValue c = some y → digitValue d = some z → Spells cs ns →
      Spells ('\\' :: 'u' :: a :: b :: c :: d :: cs) ((4096 * w + 256 * x + 16 * y + z) :: ns)
  | short {e : Char} {n : ℕ} {cs : List Char} {ns : List ℕ} : shortEscape e = some n →
      Spells cs ns → Spells ('\\' :: e :: cs) (n :: ns)
  | plain {c : Char} {cs : List Char} {ns : List ℕ} : 32 ≤ c.toNat → c ≠ '"' → c ≠ '\\' →
      Spells cs ns → Spells (c :: cs) (c.toNat :: ns)

theorem spells_of_codes {l : List Char} {ns : List ℕ} (h : codes l = some ns) : Spells l ns := by
  fun_induction codes l generalizing ns with
  | case1 =>
    cases h
    exact .nil
  | case2 a b c d cs ih =>
    simp only [Option.bind_eq_bind, Option.bind_eq_some_iff, Option.pure_def,
      Option.some.injEq] at h
    obtain ⟨w, ha, x, hb, y, hc, z, hd, ns, hns, rfl⟩ := h
    exact .hex ha hb hc hd (ih hns)
  | case3 e cs _ ih =>
    simp only [Option.bind_eq_bind, Option.bind_eq_some_iff, Option.pure_def,
      Option.some.injEq] at h
    obtain ⟨n, he, ns, hns, rfl⟩ := h
    exact .short he (ih hns)
  | case4 => cases h
  | case5 c cs _ _ hc ih =>
    simp only [Option.bind_eq_bind, Option.bind_eq_some_iff, Option.pure_def,
      Option.some.injEq] at h
    obtain ⟨ns, hns, rfl⟩ := h
    simp only [not_or, Nat.not_lt] at hc
    exact .plain hc.1 hc.2.1 hc.2.2 (ih hns)

structure Literal where
  chars : List Char
  valid : (codes chars).isSome = true

def isDigits (cs : List Char) : Bool := !cs.isEmpty && cs.all Char.isDigit

def isInteger : List Char → Bool
  | ['0'] => true
  | cs => isDigits cs && cs.head? != some '0'

def isExponent : List Char → Bool
  | '+' :: cs | '-' :: cs => isDigits cs
  | cs => isDigits cs

def isNumberChar (c : Char) : Bool := c.isDigit || "+-.eE".toList.contains c

/-- An optional sign, an integer, an optional fraction, an optional exponent. -/
def isNumber (cs : List Char) : Bool :=
  let unsigned := if cs.head? = some '-' then cs.tail else cs
  let mantissa := unsigned.takeWhile fun c ↦ c != 'e' && c != 'E'
  let exponent := unsigned.dropWhile fun c ↦ c != 'e' && c != 'E'
  let fraction := mantissa.dropWhile (· != '.')
  cs.all isNumberChar && isInteger (mantissa.takeWhile (· != '.')) &&
    (fraction.isEmpty || isDigits fraction.tail) &&
    (exponent.isEmpty || isExponent exponent.tail)

structure Numeral where
  chars : List Char
  valid : isNumber chars = true

/-- A JSON text but for its white space: literals stand as they are written. -/
inductive Tree
  | null
  | bool (b : Bool)
  | number (numeral : Numeral)
  | string (literal : Literal)
  | array (items : List Tree)
  | object (members : List (Literal × Tree))

def Literal.write (literal : Literal) : List Char := '"' :: (literal.chars ++ ['"'])

def Tree.write : Tree → List Char
  | .null => "null".toList
  | .bool true => "true".toList
  | .bool false => "false".toList
  | .number numeral => numeral.chars
  | .string literal => literal.write
  | .array items => '[' :: (",".toList.intercalate (items.map Tree.write) ++ [']'])
  | .object members =>
    '\x7b' :: (",".toList.intercalate
      (members.map fun m ↦ m.1.write ++ ':' :: m.2.write) ++ ['\x7d'])
decreasing_by
  · simp_wf
    have := List.sizeOf_lt_of_mem ‹_›
    omega
  · simp_wf
    have := List.sizeOf_lt_of_mem ‹_›
    cases m
    simp only [Prod.mk.sizeOf_spec] at this ⊢
    omega

def writeMember (m : Literal × Tree) : List Char := m.1.write ++ ':' :: m.2.write

theorem Tree.write_object (members : List (Literal × Tree)) : (Tree.object members).write =
    '\x7b' :: (",".toList.intercalate (members.map writeMember) ++ ['\x7d']) := by
  rw [Tree.write]
  rfl

/-- Reads a value off the front of a text. -/
abbrev Scan (α : Type) := List Char → Option (α × List Char)

def isWhitespace (c : Char) : Bool := " \n\t\r".toList.contains c

def skip (cs : List Char) : List Char := cs.dropWhile isWhitespace

/-- The text up to the closing quote, which no backslash stands before. -/
def scanQuoted : Scan (List Char)
  | [] => none
  | '"' :: rest => some ([], rest)
  | '\\' :: e :: rest => (scanQuoted rest).map fun (l, rest) ↦ ('\\' :: e :: l, rest)
  | c :: rest => (scanQuoted rest).map fun (l, rest) ↦ (c :: l, rest)

def scanLiteral : Scan Literal := fun cs ↦ do
  let (l, rest) ← scanQuoted cs
  if h : (codes l).isSome = true then some (⟨l, h⟩, rest) else none

def scanNumber : Scan Tree := fun cs ↦
  let l := cs.takeWhile isNumberChar
  if h : isNumber l = true then some (.number ⟨l, h⟩, cs.dropWhile isNumberChar) else none

section

variable {α : Type}

def scanItems (item : Scan α) (close : Char) : ℕ → Scan (List α)
  | 0, _ => none
  | n + 1, cs => do
    let (x, rest) ← item cs
    match skip rest with
    | ',' :: rest => do
      let (xs, rest) ← scanItems item close n rest
      return (x :: xs, rest)
    | c :: rest => if c = close then some ([x], rest) else none
    | [] => none

def scanList (item : Scan α) (close : Char) : Scan (List α) := fun cs ↦
  match skip cs with
  | [] => none
  | c :: rest => if c = close then some ([], rest) else scanItems item close cs.length cs

end

def scanMember (value : Scan Tree) : Scan (Literal × Tree) := fun cs ↦
  match skip cs with
  | '"' :: rest => do
    let (key, rest) ← scanLiteral rest
    match skip rest with
    | ':' :: rest => do
      let (t, rest) ← value rest
      return ((key, t), rest)
    | _ => none
  | _ => none

/-- A value that is nested less than `n` deep. -/
def scanValue : ℕ → Scan Tree
  | 0, _ => none
  | n + 1, cs =>
    match skip cs with
    | '"' :: rest => (scanLiteral rest).map fun (l, rest) ↦ (.string l, rest)
    | '[' :: rest => (scanList (scanValue n) ']' rest).map fun (ts, rest) ↦ (.array ts, rest)
    | '\x7b' :: rest =>
      (scanList (scanMember (scanValue n)) '\x7d' rest).map fun (ms, rest) ↦ (.object ms, rest)
    | 'n' :: 'u' :: 'l' :: 'l' :: rest => some (.null, rest)
    | 't' :: 'r' :: 'u' :: 'e' :: rest => some (.bool true, rest)
    | 'f' :: 'a' :: 'l' :: 's' :: 'e' :: rest => some (.bool false, rest)
    | cs => scanNumber cs

def parse (text : String) : Option Tree := do
  let (t, rest) ← scanValue text.toList.length text.toList
  if (skip rest).isEmpty then some t else none

section

variable {α : Type} {scan item : Scan α} {write : α → List Char} {close : Char}
  {cs l rest : List Char} {n : ℕ} {t : Tree}

/-- What the scan takes off a text has the item's own text within it. -/
def Covers (scan : Scan α) (write : α → List Char) : Prop :=
  ∀ cs x rest, scan cs = some (x, rest) → ∃ part, cs = part ++ rest ∧ (write x).Sublist part

theorem exists_append_skip (cs : List Char) : ∃ ws, cs = ws ++ skip cs :=
  ⟨_, List.takeWhile_append_dropWhile.symm⟩

theorem scanQuoted_eq (h : scanQuoted cs = some (l, rest)) : cs = l ++ '"' :: rest := by
  induction cs using scanQuoted.induct generalizing l with
  | case1 => cases h
  | case2 rest' =>
    cases h
    rfl
  | case3 e rest' ih =>
    obtain ⟨⟨l', r⟩, h, he⟩ := Option.map_eq_some_iff.1 h
    cases he
    rw [ih h]
    rfl
  | case4 c rest' hq hb ih =>
    rw [scanQuoted] at h
    · obtain ⟨⟨l', r⟩, h, he⟩ := Option.map_eq_some_iff.1 h
      cases he
      rw [ih h]
      rfl
    · exact hq
    · exact hb

theorem scanLiteral_eq {literal : Literal} (h : scanLiteral cs = some (literal, rest)) :
    '"' :: cs = literal.write ++ rest := by
  simp only [scanLiteral, Option.bind_eq_bind, Option.bind_eq_some_iff] at h
  obtain ⟨⟨l, r⟩, hl, h⟩ := h
  dsimp only at h
  split at h
  · cases h
    rw [scanQuoted_eq hl]
    simp [Literal.write]
  · cases h

theorem scanItems_covers (hi : Covers item write) (n : ℕ) : Covers (scanItems item close n)
    fun xs ↦ ",".toList.intercalate (xs.map write) ++ [close] := by
  induction n with
  | zero =>
    intro cs xs rest h
    cases h
  | succ n ih =>
    intro cs xs rest h
    simp only [scanItems, Option.bind_eq_bind, Option.bind_eq_some_iff] at h
    obtain ⟨⟨x, r⟩, hx, h⟩ := h
    obtain ⟨part, rfl, hp⟩ := hi _ _ _ hx
    obtain ⟨ws, hws⟩ := exists_append_skip r
    dsimp only at h
    split at h
    · rename_i r' hr
      obtain ⟨⟨xs, r''⟩, hxs, h⟩ := Option.bind_eq_some_iff.1 h
      cases h
      obtain ⟨part', rfl, hp'⟩ := ih _ _ _ hxs
      refine ⟨part ++ (ws ++ ',' :: part'), by rw [hws, hr]; simp, ?_⟩
      cases xs with
      | nil =>
        simp only [List.map_cons, List.map_nil, List.intercalate_singleton]
        exact hp.append ((hp'.cons ',').trans (List.sublist_append_right ..))
      | cons y ys =>
        simp only [List.map_cons, List.intercalate_cons_cons, List.append_assoc] at hp' ⊢
        exact hp.append ((hp'.cons_cons ',').trans (List.sublist_append_right ..))
    · rename_i hr
      split at h
      · rename_i hc
        cases h
        refine ⟨part ++ (ws ++ [close]), by rw [hws, hr, hc]; simp, ?_⟩
        simp only [List.map_cons, List.map_nil, List.intercalate_singleton]
        exact hp.append (List.sublist_append_right ..)
      · cases h
    · cases h

theorem scanList_covers (hi : Covers item write) : Covers (scanList item close)
    fun xs ↦ ",".toList.intercalate (xs.map write) ++ [close] := by
  intro cs xs rest h
  obtain ⟨ws, hws⟩ := exists_append_skip cs
  unfold scanList at h
  split at h
  · cases h
  · rename_i c r hc
    split at h
    · rename_i hclose
      cases h
      subst hclose
      refine ⟨ws ++ [c], by rw [hws, hc]; simp, ?_⟩
      exact List.sublist_append_right ..
    · exact scanItems_covers hi _ _ _ _ h

theorem scanMember_covers {value : Scan Tree} (hv : Covers value Tree.write) :
    Covers (scanMember value) writeMember := by
  intro cs m rest h
  obtain ⟨ws, hws⟩ := exists_append_skip cs
  unfold scanMember at h
  split at h
  · rename_i r hr
    simp only [Option.bind_eq_bind, Option.bind_eq_some_iff] at h
    obtain ⟨⟨key, r'⟩, hk, h⟩ := h
    obtain ⟨ws', hws'⟩ := exists_append_skip r'
    dsimp only at h
    split at h
    · rename_i r'' hr''
      obtain ⟨⟨t, r₃⟩, ht, h⟩ := Option.bind_eq_some_iff.1 h
      cases h
      obtain ⟨part, rfl, hp⟩ := hv _ _ _ ht
      refine ⟨ws ++ (key.write ++ (ws' ++ ':' :: part)), ?_, ?_⟩
      · rw [hws, hr, scanLiteral_eq hk, hws', hr'']
        simp
      · refine .trans ?_ (List.sublist_append_right ..)
        exact .append (.refl _) ((hp.cons_cons ':').trans (List.sublist_append_right ..))
    · cases h
  · cases h

theorem scanNumber_covers : Covers scanNumber Tree.write := by
  intro cs t rest h
  simp only [scanNumber] at h
  split at h
  · cases h
    refine ⟨_, List.takeWhile_append_dropWhile.symm, ?_⟩
    rw [Tree.write]
  · cases h

/-- Read as a tree, a text loses its white space only. -/
theorem scanValue_covers (n : ℕ) : Covers (scanValue n) Tree.write := by
  induction n with
  | zero =>
    intro cs t rest h
    cases h
  | succ n ih =>
    intro cs t rest h
    obtain ⟨ws, hws⟩ := exists_append_skip cs
    suffices hs : ∃ part, skip cs = part ++ rest ∧ t.write.Sublist part by
      obtain ⟨part, hpart, hp⟩ := hs
      refine ⟨ws ++ part, by rw [List.append_assoc, ← hpart, ← hws], ?_⟩
      exact hp.trans (List.sublist_append_right ..)
    unfold scanValue at h
    split at h
    · rename_i r hr
      obtain ⟨⟨l, r'⟩, hl, h⟩ := Option.map_eq_some_iff.1 h
      cases h
      refine ⟨l.write, by rw [hr, scanLiteral_eq hl], ?_⟩
      rw [Tree.write]
    · rename_i r hr
      obtain ⟨⟨ts, r'⟩, hl, h⟩ := Option.map_eq_some_iff.1 h
      cases h
      obtain ⟨part, rfl, hp⟩ := scanList_covers ih _ _ _ hl
      refine ⟨'[' :: part, by rw [hr]; rfl, ?_⟩
      rw [Tree.write]
      exact hp.cons_cons _
    · rename_i r hr
      obtain ⟨⟨ms, r'⟩, hl, h⟩ := Option.map_eq_some_iff.1 h
      cases h
      obtain ⟨part, rfl, hp⟩ := scanList_covers (scanMember_covers ih) _ _ _ hl
      refine ⟨'\x7b' :: part, by rw [hr]; rfl, ?_⟩
      rw [Tree.write]
      exact hp.cons_cons _
    · rename_i r hr
      cases h
      refine ⟨"null".toList, by rw [hr]; rfl, ?_⟩
      rw [Tree.write]
    · rename_i r hr
      cases h
      refine ⟨"true".toList, by rw [hr]; rfl, ?_⟩
      rw [Tree.write]
    · rename_i r hr
      cases h
      refine ⟨"false".toList, by rw [hr]; rfl, ?_⟩
      rw [Tree.write]
    · exact scanNumber_covers _ _ _ h

theorem write_sublist_of_parse {text : String} (h : parse text = some t) :
    t.write.Sublist text.toList := by
  simp only [parse, Option.bind_eq_bind, Option.bind_eq_some_iff] at h
  obtain ⟨⟨t', rest⟩, ht, h⟩ := h
  obtain ⟨part, hpart, hp⟩ := scanValue_covers _ _ _ _ ht
  dsimp only at h
  split at h
  · cases h
    rw [hpart]
    exact hp.trans (List.sublist_append_left ..)
  · cases h

/-- The text that follows cannot be part of a number. -/
def Ends (rest : List Char) : Prop := ∀ c cs, rest = c :: cs → isNumberChar c = false

/-- The scan gets back an item from its own text. -/
def Returns (scan : Scan α) (write : α → List Char) (x : α) : Prop :=
  ∀ rest, Ends rest → scan (write x ++ rest) = some (x, rest)

theorem Ends.cons {c : Char} (hc : isNumberChar c = false) : Ends (c :: rest) := by
  intro d ds h
  cases h
  exact hc

theorem skip_cons {c : Char} (hc : isWhitespace c = false) : skip (c :: cs) = c :: cs := by
  simp [skip, hc]

theorem scanQuoted_cons {c : Char} (hq : c ≠ '"') (hb : c ≠ '\\') :
    scanQuoted (c :: cs) = (scanQuoted cs).map fun (l, rest) ↦ (c :: l, rest) := by
  rw [scanQuoted]
  · exact hq
  · intro e rest h
    cases h
    exact absurd rfl hb

theorem digitValue_ne {c : Char} {n : ℕ} (h : digitValue c = some n) : c ≠ '"' ∧ c ≠ '\\' := by
  constructor <;>
  · rintro rfl
    cases h

theorem Spells.scanQuoted {ns : List ℕ} (h : Spells l ns) :
    scanQuoted (l ++ '"' :: rest) = some (l, rest) := by
  induction h with
  | nil => rfl
  | hex ha hb hc hd _ ih =>
    obtain ⟨ha, ha'⟩ := digitValue_ne ha
    obtain ⟨hb, hb'⟩ := digitValue_ne hb
    obtain ⟨hc, hc'⟩ := digitValue_ne hc
    obtain ⟨hd, hd'⟩ := digitValue_ne hd
    simp only [List.cons_append]
    rw [Json.scanQuoted, scanQuoted_cons ha ha', scanQuoted_cons hb hb', scanQuoted_cons hc hc',
      scanQuoted_cons hd hd', ih]
    rfl
  | short _ _ ih =>
    simp only [List.cons_append]
    rw [Json.scanQuoted, ih]
    rfl
  | plain _ hq hb _ ih =>
    simp only [List.cons_append]
    rw [scanQuoted_cons hq hb, ih]
    rfl

theorem scanLiteral_write (literal : Literal) :
    scanLiteral (literal.chars ++ '"' :: rest) = some (literal, rest) := by
  obtain ⟨ns, h⟩ := Option.isSome_iff_exists.1 literal.valid
  simp [scanLiteral, (spells_of_codes h).scanQuoted, literal.valid]

theorem Numeral.exists_cons (numeral : Numeral) :
    ∃ c cs, numeral.chars = c :: cs ∧ isNumberChar c = true := by
  obtain ⟨cs, h⟩ := numeral
  cases cs with
  | nil => cases h
  | cons c cs =>
    simp only [isNumber, List.all_cons, Bool.and_eq_true] at h
    exact ⟨c, cs, rfl, h.1.1.1.1⟩

theorem scanNumber_write (numeral : Numeral) : Returns scanNumber Tree.write (.number numeral) := by
  intro rest hrest
  obtain ⟨cs, h⟩ := numeral
  have hall : ∀ c ∈ cs, isNumberChar c = true := by
    simp only [isNumber, Bool.and_eq_true, List.all_eq_true] at h
    exact h.1.1.1
  have htake : rest.takeWhile isNumberChar = [] ∧ rest.dropWhile isNumberChar = rest := by
    cases rest with
    | nil => exact ⟨rfl, rfl⟩
    | cons c cs => simp [hrest c cs rfl]
  simp [scanNumber, Tree.write, List.takeWhile_append_of_pos hall,
    List.dropWhile_append_of_pos hall, htake, h]

theorem scanItems_write (hc : isNumberChar close = false) (hw : isWhitespace close = false)
    (hcomma : close ≠ ',') {x : α} {xs : List α} (hn : xs.length < n)
    (h : ∀ y ∈ x :: xs, Returns item write y) :
    scanItems item close n (",".toList.intercalate ((x :: xs).map write) ++ close :: rest) =
      some (x :: xs, rest) := by
  induction xs generalizing x n with
  | nil =>
    obtain ⟨n, rfl⟩ := Nat.exists_eq_succ_of_ne_zero (Nat.ne_of_gt hn)
    have hx := h x List.mem_cons_self (close :: rest) (.cons hc)
    simp only [scanItems, List.map_cons, List.map_nil, List.intercalate_singleton, hx,
      Option.bind_eq_bind, Option.bind_some, skip_cons hw]
    split <;> simp_all
  | cons y ys ih =>
    obtain ⟨n, rfl⟩ := Nat.exists_eq_succ_of_ne_zero (Nat.ne_of_gt (Nat.zero_lt_of_lt hn))
    have hx := h x List.mem_cons_self
      (',' :: (",".toList.intercalate ((y :: ys).map write) ++ close :: rest)) (.cons (by decide))
    have htext : ",".toList.intercalate ((x :: y :: ys).map write) ++ close :: rest =
        write x ++ ',' :: (",".toList.intercalate ((y :: ys).map write) ++ close :: rest) := by
      simp [List.intercalate_cons_cons]
    rw [htext, scanItems, hx]
    have hskip (cs : List Char) : skip (',' :: cs) = ',' :: cs := skip_cons (by decide)
    simp only [Option.bind_eq_bind, Option.bind_some, hskip,
      ih (Nat.lt_of_succ_lt_succ hn) fun z hz ↦ h z (List.mem_cons_of_mem _ hz)]
    rfl

theorem length_le_intercalate {xs : List α} (h : ∀ x ∈ xs, write x ≠ []) :
    xs.length ≤ (",".toList.intercalate (xs.map write)).length := by
  induction xs with
  | nil => exact Nat.zero_le _
  | cons x xs ih =>
    have hx := List.length_pos_iff.2 (h x List.mem_cons_self)
    replace ih := ih fun y hy ↦ h y (List.mem_cons_of_mem _ hy)
    cases xs with
    | nil => simpa [Nat.succ_le_iff] using hx
    | cons y ys =>
      simp only [List.map_cons, List.intercalate_cons_cons, List.length_cons,
        List.length_append] at ih ⊢
      omega

theorem scanList_write (rest : List Char) (hc : isNumberChar close = false)
    (hw : isWhitespace close = false) (hcomma : close ≠ ',') {xs : List α}
    (h : ∀ x ∈ xs, Returns item write x)
    (hfirst : ∀ x ∈ xs, ∃ c cs, write x = c :: cs ∧ isWhitespace c = false ∧ c ≠ close) :
    scanList item close (",".toList.intercalate (xs.map write) ++ close :: rest) =
      some (xs, rest) := by
  cases xs with
  | nil => simp [scanList, List.intercalate, skip_cons hw]
  | cons x xs =>
    have hne : ∀ y ∈ x :: xs, write y ≠ [] := by
      intro y hy
      obtain ⟨c, cs, hcs, -⟩ := hfirst y hy
      simp [hcs]
    have hlen := length_le_intercalate hne
    obtain ⟨c, cs, hcs, hc', hclose⟩ := hfirst x List.mem_cons_self
    obtain ⟨cs', htext⟩ : ∃ cs', ",".toList.intercalate ((x :: xs).map write) ++ close :: rest =
        c :: cs' := by
      cases xs <;> simp [List.intercalate_cons_cons, hcs]
    unfold scanList
    rw [htext, skip_cons hc']
    dsimp only
    rw [if_neg hclose, ← htext]
    refine scanItems_write hc hw hcomma ?_ h
    simp only [List.length_append, List.length_cons] at hlen ⊢
    omega

theorem isWhitespace_of_isNumberChar {c : Char} (h : isNumberChar c = true) :
    isWhitespace c = false := by
  by_contra hc
  simp only [isWhitespace, Bool.not_eq_false, List.contains_iff_mem] at hc
  obtain rfl | rfl | rfl | rfl : c = ' ' ∨ c = '\n' ∨ c = '\t' ∨ c = '\r' := by simpa using hc
  all_goals cases h

/-- The first character of a value's text. -/
theorem Tree.exists_cons (t : Tree) :
    ∃ c cs, t.write = c :: cs ∧ isWhitespace c = false ∧ c ≠ ']' ∧ c ≠ '\x7d' := by
  cases t with
  | null | string => exact ⟨_, _, by rw [Tree.write]; rfl, by decide⟩
  | array | object => exact ⟨_, _, by rw [Tree.write], by decide⟩
  | bool b => cases b <;> exact ⟨_, _, by rw [Tree.write]; rfl, by decide⟩
  | number numeral =>
    obtain ⟨c, cs, hcs, hc⟩ := numeral.exists_cons
    refine ⟨c, cs, by rw [Tree.write, hcs], isWhitespace_of_isNumberChar hc, ?_, ?_⟩ <;>
    · rintro rfl
      cases hc

theorem scanMember_write {value : Scan Tree} {m : Literal × Tree}
    (h : Returns value Tree.write m.2) : Returns (scanMember value) writeMember m := by
  intro rest hrest
  have htext : writeMember m ++ rest = '"' :: (m.1.chars ++ '"' :: ':' :: (m.2.write ++ rest)) := by
    simp [writeMember, Literal.write]
  have hskip (c : Char) (cs : List Char) (hc : isWhitespace c = false) :
      skip (c :: cs) = c :: cs := skip_cons hc
  simp only [htext, scanMember, hskip '"' _ (by decide), scanLiteral_write, Option.bind_eq_bind,
    Option.bind_some, hskip ':' _ (by decide), h rest hrest]
  rfl

theorem scanValue_number {c : Char} (h : isNumberChar c = true) :
    scanValue (n + 1) (c :: cs) = scanNumber (c :: cs) := by
  unfold scanValue
  rw [skip_cons (isWhitespace_of_isNumberChar h)]
  split
  case h_7 => rfl
  all_goals
    rename_i hr
    cases hr
    cases h

theorem length_le_of_mem (write : α → List Char) {xs : List α} {x : α} (h : x ∈ xs) :
    (write x).length ≤ (",".toList.intercalate (xs.map write)).length := by
  induction xs with
  | nil => cases h
  | cons y ys ih =>
    cases ys with
    | nil =>
      cases List.mem_singleton.1 h
      simp
    | cons z zs =>
      simp only [List.map_cons, List.intercalate_cons_cons, List.length_append] at ih ⊢
      obtain rfl | h := List.mem_cons.1 h
      · omega
      · have := ih h
        omega

/-- A tree is read back from its own text. -/
theorem scanValue_write (hn : t.write.length ≤ n) : Returns (scanValue n) Tree.write t := by
  -- The texts of the items are shorter than that of their list, so the depth suffices for them.
  induction n generalizing t with
  | zero =>
    obtain ⟨c, cs, hcs, -⟩ := t.exists_cons
    simp [hcs] at hn
  | succ n ih =>
    intro rest hrest
    cases t with
    | null =>
      rw [Tree.write]
      rfl
    | bool b =>
      cases b <;>
      · rw [Tree.write]
        rfl
    | number numeral =>
      obtain ⟨c, cs, hcs, hc⟩ := numeral.exists_cons
      have h := scanNumber_write numeral rest hrest
      rw [Tree.write, hcs, List.cons_append] at h ⊢
      rw [scanValue_number hc, h]
    | string literal =>
      rw [Tree.write]
      change (scanLiteral (literal.chars ++ ['"'] ++ rest)).map _ = _
      rw [List.append_assoc, List.singleton_append, scanLiteral_write]
      rfl
    | array items =>
      have hitems : ∀ x ∈ items, Returns (scanValue n) Tree.write x := by
        intro x hx
        refine ih ?_
        have hle := length_le_of_mem Tree.write hx
        rw [Tree.write, List.length_cons, List.length_append] at hn
        omega
      have h := scanList_write rest (rfl : isNumberChar ']' = false) rfl (by decide) hitems
        fun x _ ↦ by
          obtain ⟨c, cs, hcs, hc, hne, -⟩ := x.exists_cons
          exact ⟨c, cs, hcs, hc, hne⟩
      rw [Tree.write]
      change (scanList (scanValue n) ']' (_ ++ [']'] ++ rest)).map _ = _
      rw [List.append_assoc, List.singleton_append, h]
      rfl
    | object members =>
      have hmembers : ∀ m ∈ members, Returns (scanMember (scanValue n)) writeMember m := by
        intro m hm
        refine scanMember_write (ih ?_)
        have hle := length_le_of_mem writeMember hm
        rw [Tree.write_object, List.length_cons, List.length_append] at hn
        simp only [writeMember, List.length_append, List.length_cons] at hle
        omega
      have h := scanList_write rest (rfl : isNumberChar '\x7d' = false) rfl (by decide) hmembers
        fun m _ ↦ ⟨'"', _, rfl, rfl, by decide⟩
      rw [Tree.write_object]
      change (scanList (scanMember (scanValue n)) '\x7d' (_ ++ ['\x7d'] ++ rest)).map _ = _
      rw [List.append_assoc, List.singleton_append, h]
      rfl

theorem parse_write (t : Tree) : parse (String.ofList t.write) = some t := by
  have h := scanValue_write (Nat.le_refl t.write.length) [] (fun c cs h ↦ by cases h)
  rw [List.append_nil] at h
  rw [parse, String.toList_ofList, h]
  rfl

end

end MusicRemote.Protocol.Json
