import MusicRemote.App.Activity
import MusicRemote.Foundation.Lists

namespace MusicRemote.App

open Client Foundation Foundation.Transition

/-- `String.trim`: blanks and control characters go from both ends. -/
def trim (text : String) : List Char :=
  (text.toList.dropWhile (· ≤ ' ')).rdropWhile (· ≤ ' ')

/-- `String.split(":")`, which drops the empty parts at the end. -/
def split (text : List Char) : List (List Char) :=
  if ':' ∈ text then (text.splitOn ':').rdropWhile List.isEmpty else [text]

/-- The zeros of the scripts whose decimal digits fit in a `char`. -/
def zeros : List ℕ :=
  [0x30, 0x660, 0x6F0, 0x7C0, 0x966, 0x9E6, 0xA66, 0xAE6, 0xB66, 0xBE6, 0xC66, 0xCE6, 0xD66,
    0xDE6, 0xE50, 0xED0, 0xF20, 0x1040, 0x1090, 0x17E0, 0x1810, 0x1946, 0x19D0, 0x1A80, 0x1A90,
    0x1B50, 0x1BB0, 0x1C40, 0x1C50, 0xA620, 0xA8D0, 0xA900, 0xA9D0, 0xA9F0, 0xAA50, 0xABF0, 0xFF10]

/-- `Character.digit(c, 10)`. -/
def digit (c : Char) : Option ℕ :=
  (zeros.find? fun n ↦ n ≤ c.toNat && c.toNat < n + 10).map (c.toNat - ·)

def isDigit (c : Char) : Bool := (digit c).isSome

def digitsValue (digits : List Char) : ℕ :=
  digits.foldl (fun n c ↦ 10 * n + (digit c).getD 0) 0

def parseDigits (sign : ℤ) (digits : List Char) : Option ℤ :=
  if digits ≠ [] ∧ digits.all isDigit = true ∧
      -2 ^ 31 ≤ sign * digitsValue digits ∧ sign * digitsValue digits < 2 ^ 31 then
    some (sign * digitsValue digits)
  else none

def parseInt : List Char → Option ℤ
  | '-' :: digits => parseDigits (-1) digits
  | '+' :: digits => parseDigits 1 digits
  | digits => parseDigits 1 digits

/-- The host and the port, if nothing throws. -/
def parseAddress (text : List Char) : Option (List Char × ℤ) :=
  match split text with
  | [] => none
  | [ipAddress] => some (ipAddress, 8530)
  | ipAddress :: port :: _ => (parseInt port).map (ipAddress, ·)

structure Connect where
  host : Option String
  port : ℤ
  kind : ℤ
  deriving DecidableEq

/-- The activity with the fields that the form is read into, what is saved and shown, and the calls
of `client.connect`. -/
structure Main where
  state : State
  serverIpAddress : Option String
  serverPort : ℤ
  token : Option String
  preferences : Option (String × String)
  toasts : List String
  connects : List Connect
  deriving DecidableEq

def Main.created : Main := ⟨App.created, none, 0, none, none, [], []⟩

def Main.toast (m : Main) (text : String) : Main := { m with toasts := m.toasts ++ [text] }

/-- The handler up to its change of the status. -/
def onButtonClickConnect (m : Main) (serverAddress token : String) : Main :=
  if trim serverAddress = [] then m.toast "Please enter the server address"
  else
    match parseAddress (trim serverAddress) with
    | none => m.toast "Please enter the correct format for 'Server Address: Port'"
    | some (ipAddress, port) =>
      { m with
        serverIpAddress := some (String.ofList ipAddress)
        serverPort := port
        token := some token
        preferences := some (String.ofList (trim serverAddress), token)
        state := { m.state with ui := .connecting (.changing .test) } }

inductive MainAction
  | click (serverAddress token : String)
  | app (a : Action)
  deriving DecidableEq

def mainStep (m : Main) : MainAction → Option Main
  | .click serverAddress token =>
    if m.state.ui = .idle ∧ m.state.activity.screen.buttonConnect = true then
      some (onButtonClickConnect m serverAddress token)
    else none
  | .app a =>
    if a = .clickConnect then none
    else (step m.state a).map fun state ↦ { m with
      state := state
      connects := m.connects ++
        if m.state.callsConnect a then [⟨m.serverIpAddress, m.serverPort, 5⟩] else [] }

structure IsPort (digits : List Char) (port : ℤ) : Prop where
  ne_nil : digits ≠ []
  all_isDigit : digits.all isDigit = true
  value : port = digitsValue digits
  range : 1 ≤ port ∧ port ≤ 65535

inductive Address : List Char → List Char → ℤ → Prop
  | bare {host : List Char} : host ≠ [] → ':' ∉ host → Address host host 8530
  | port {host digits : List Char} {port : ℤ} : host ≠ [] → ':' ∉ host → IsPort digits port →
      Address (host ++ ':' :: digits) host port

inductive IsInt : List Char → ℤ → Prop
  | unsigned {digits : List Char} : digits ≠ [] → digits.all isDigit = true →
      digitsValue digits < 2 ^ 31 → IsInt digits (digitsValue digits)
  | plus {digits : List Char} : digits ≠ [] → digits.all isDigit = true →
      digitsValue digits < 2 ^ 31 → IsInt ('+' :: digits) (digitsValue digits)
  | minus {digits : List Char} : digits ≠ [] → digits.all isDigit = true →
      digitsValue digits ≤ 2 ^ 31 → IsInt ('-' :: digits) (-digitsValue digits)

/-- What is wrong with a number after the first colon: no host before it, more after it, a sign, or
too small or too large a value. -/
def Unfit (host port : List Char) (rest : List (List Char)) (n : ℤ) : Prop :=
  host = [] ∨ rest ≠ [] ∨ port.head? = some '+' ∨ port.head? = some '-' ∨ n ≤ 0 ∨ 65535 < n

/-- A text with a colon that is no address, by its parts: a host with nothing but colons after it,
or a number after the first colon with something wrong about it. -/
def Slip (text : List Char) : Prop :=
  ∃ host port rest, text.splitOn ':' = host :: port :: rest ∧
    (host ≠ [] ∧ (∀ part ∈ port :: rest, part = []) ∨
      ∃ n, IsInt port n ∧ Unfit host port rest n)

theorem splitOn_of_notMem {text : List Char} (h : ':' ∉ text) : text.splitOn ':' = [text] := by
  rw [List.splitOn_eq_splitOnP]
  exact List.splitOnP_eq_singleton fun c hc ↦ by
    rw [beq_eq_false_iff_ne]
    exact ne_of_mem_of_not_mem hc h

theorem splitOn_append {host : List Char} (h : ':' ∉ host) (rest : List Char) :
    (host ++ ':' :: rest).splitOn ':' = host :: rest.splitOn ':' := by
  rw [List.splitOn_eq_splitOnP, List.splitOn_eq_splitOnP]
  refine List.splitOnP_append_cons_of_forall_mem (fun c hc ↦ ?_) ':' rfl rest
  rw [beq_eq_false_iff_ne]
  exact ne_of_mem_of_not_mem hc h

theorem parseAddress_of_notMem {text : List Char} (h : ':' ∉ text) :
    parseAddress text = some (text, 8530) := by
  rw [parseAddress, split, if_neg h]

/-- What follows a colon counts only if it is more than colons. -/
theorem parseAddress_append {host rest port : List Char} {more : List (List Char)}
    (h : ':' ∉ host) (hrest : rest.splitOn ':' = port :: more) :
    parseAddress (host ++ ':' :: rest) =
      if ∀ part ∈ port :: more, part = [] then if host = [] then none else some (host, 8530)
      else (parseInt port).map (host, ·) := by
  have hnil : (port :: more).rdropWhile List.isEmpty = [] ↔ ∀ part ∈ port :: more, part = [] := by
    simp only [List.rdropWhile_eq_nil_iff, List.isEmpty_iff]
  rw [parseAddress, split, if_pos (by simp), splitOn_append h, hrest, rdropWhile_cons]
  by_cases hempty : ∀ part ∈ port :: more, part = []
  · rw [if_pos (hnil.2 hempty), if_pos hempty, List.rdropWhile_singleton]
    cases host <;> rfl
  · obtain ⟨part, parts, hparts⟩ := List.exists_cons_of_ne_nil (mt hnil.1 hempty)
    have hprefix := List.rdropWhile_prefix List.isEmpty (port :: more)
    rw [hparts, List.cons_prefix_cons] at hprefix
    rw [if_neg (mt hnil.1 hempty), if_neg hempty, hparts, hprefix.1]

theorem parseDigits_eq_some {sign n : ℤ} {digits : List Char} :
    parseDigits sign digits = some n ↔ digits ≠ [] ∧ digits.all isDigit = true ∧
      n = sign * digitsValue digits ∧ -2 ^ 31 ≤ n ∧ n < 2 ^ 31 := by
  simp only [parseDigits, Option.ite_none_right_eq_some, Option.some.injEq]
  constructor
  · rintro ⟨⟨hne, hdigits, hrange⟩, rfl⟩
    exact ⟨hne, hdigits, rfl, hrange⟩
  · rintro ⟨hne, hdigits, rfl, hrange⟩
    exact ⟨⟨hne, hdigits, hrange⟩, rfl⟩

/-- A sign is no digit, so digits are read as they stand. -/
theorem parseInt_of_all {digits : List Char} (h : digits.all isDigit = true) :
    parseInt digits = parseDigits 1 digits := by
  rw [parseInt.eq_def]
  split
  · exact absurd (List.all_eq_true.1 h '-' List.mem_cons_self) (by decide)
  · exact absurd (List.all_eq_true.1 h '+' List.mem_cons_self) (by decide)
  · rfl

theorem parseInt_eq_some {text : List Char} {n : ℤ} : parseInt text = some n ↔ IsInt text n := by
  constructor
  · intro h
    rw [parseInt.eq_def] at h
    split at h <;> rw [parseDigits_eq_some] at h <;> obtain ⟨hne, hdigits, hn, hmin, hmax⟩ := h
    · rw [neg_one_mul] at hn
      exact hn ▸ .minus hne hdigits (by omega)
    · rw [one_mul] at hn
      exact hn ▸ .plus hne hdigits (by omega)
    · rw [one_mul] at hn
      exact hn ▸ .unsigned hne hdigits (by omega)
  · intro h
    cases h with
    | unsigned hne hdigits hlt =>
      rw [parseInt_of_all hdigits, parseDigits_eq_some, one_mul]
      exact ⟨hne, hdigits, rfl, by omega, by omega⟩
    | plus hne hdigits hlt =>
      rw [parseInt, parseDigits_eq_some, one_mul]
      exact ⟨hne, hdigits, rfl, by omega, by omega⟩
    | minus hne hdigits hle =>
      rw [parseInt, parseDigits_eq_some, neg_one_mul]
      exact ⟨hne, hdigits, rfl, by omega, by omega⟩

theorem IsPort.isInt {digits : List Char} {port : ℤ} (h : IsPort digits port) :
    IsInt digits port := by
  have hrange := h.range
  rw [h.value] at hrange ⊢
  exact .unsigned h.ne_nil h.all_isDigit (by omega)

theorem IsPort.parseInt {digits : List Char} {port : ℤ} (h : IsPort digits port) :
    parseInt digits = some port := parseInt_eq_some.2 h.isInt

/-- A number is a port, or something is wrong with it. -/
theorem IsInt.isPort_iff {host port : List Char} {rest : List (List Char)} {n : ℤ}
    (h : IsInt port n) : host ≠ [] ∧ rest = [] ∧ IsPort port n ↔ ¬ Unfit host port rest n := by
  simp only [Unfit, not_or, not_not, not_le, not_lt]
  refine and_congr_right fun _ ↦ and_congr_right fun _ ↦ ?_
  cases h with
  | unsigned hne hdigits hlt =>
    refine ⟨fun hport ↦ ⟨fun hhead ↦ ?_, fun hhead ↦ ?_, hport.range.1, hport.range.2⟩,
      fun hrange ↦ ⟨hne, hdigits, rfl, hrange.2.2.1, hrange.2.2.2⟩⟩ <;>
    · have hmem := List.mem_of_mem_head? hhead
      exact absurd (List.all_eq_true.1 hdigits _ hmem) (by decide)
  | plus =>
    refine ⟨fun hport ↦ ?_, fun hrange ↦ absurd rfl hrange.1⟩
    exact absurd (List.all_eq_true.1 hport.all_isDigit '+' List.mem_cons_self) (by decide)
  | minus =>
    refine ⟨fun hport ↦ ?_, fun hrange ↦ absurd rfl hrange.2.1⟩
    exact absurd (List.all_eq_true.1 hport.all_isDigit '-' List.mem_cons_self) (by decide)

theorem notMem_of_isPort {digits : List Char} {port : ℤ} (h : IsPort digits port) :
    ':' ∉ digits :=
  fun hmem ↦ absurd (List.all_eq_true.1 h.all_isDigit _ hmem) (by decide)

theorem parseAddress_of_address {text host : List Char} {port : ℤ} (h : Address text host port) :
    parseAddress text = some (host, port) := by
  cases h with
  | bare _ hmem => exact parseAddress_of_notMem hmem
  | port _ hmem hport =>
    rw [parseAddress_append hmem (splitOn_of_notMem (notMem_of_isPort hport)),
      if_neg (by simpa using hport.ne_nil), hport.parseInt]
    rfl

/-- A text is a host alone or is cut at its first colon. -/
theorem cut_cases (text : List Char) :
    ':' ∉ text ∨ ∃ host rest, ':' ∉ host ∧ text = host ++ ':' :: rest := by
  by_cases hmem : ':' ∈ text
  · obtain ⟨host, rest, htext, hhost⟩ := List.eq_append_cons_of_mem hmem
    exact .inr ⟨host, rest, hhost, htext⟩
  · exact .inl hmem

/-- What the code accepts is an address or slips through. -/
theorem address_or_slip {text host : List Char} {port : ℤ} (hne : text ≠ [])
    (h : parseAddress text = some (host, port)) : Address text host port ∨ Slip text := by
  obtain hmem | ⟨host', rest, hmem, rfl⟩ := cut_cases text
  · rw [parseAddress_of_notMem hmem] at h
    cases h
    exact .inl (.bare hne hmem)
  obtain ⟨p, more, hrest⟩ := List.exists_cons_of_ne_nil (List.splitOn_ne_nil ':' rest)
  have hsplit := splitOn_append hmem rest
  rw [hrest] at hsplit
  rw [parseAddress_append hmem hrest] at h
  split_ifs at h with hempty hhost
  · exact .inr ⟨_, _, _, hsplit, .inl ⟨hhost, hempty⟩⟩
  obtain ⟨n, hn, hpair⟩ := Option.map_eq_some_iff.1 h
  obtain ⟨rfl, rfl⟩ := Prod.mk.inj hpair
  have hint := parseInt_eq_some.1 hn
  by_cases hgood : host' ≠ [] ∧ more = [] ∧ IsPort p n
  · obtain ⟨hhost, rfl, hport⟩ := hgood
    have hjoin : [':'].intercalate (rest.splitOn ':') = rest := List.intercalate_splitOn ':'
    rw [hrest, List.intercalate_singleton] at hjoin
    exact .inl (hjoin ▸ .port hhost hmem hport)
  · exact .inr ⟨_, _, _, hsplit, .inr ⟨n, hint, not_not.1 (mt hint.isPort_iff.2 hgood)⟩⟩

theorem not_address_of_slip {text host : List Char} {port : ℤ} (h : Slip text) :
    ¬ Address text host port := by
  obtain ⟨host', p, more, hsplit, hslip⟩ := h
  intro haddress
  cases haddress with
  | bare _ hmem =>
    rw [splitOn_of_notMem hmem] at hsplit
    cases hsplit
  | port hhost hmem hport =>
    rw [splitOn_append hmem, splitOn_of_notMem (notMem_of_isPort hport)] at hsplit
    cases hsplit
    obtain ⟨_, hempty⟩ | ⟨n, hint, hunfit⟩ := hslip
    · exact hport.ne_nil (hempty _ (List.mem_singleton_self _))
    · cases (parseInt_eq_some.2 hint).symm.trans hport.parseInt
      exact hint.isPort_iff.1 ⟨hhost, rfl, hport⟩ hunfit

theorem parseAddress_isSome_of_slip {text : List Char} (h : Slip text) :
    (parseAddress text).isSome = true := by
  obtain ⟨host, p, more, hsplit, hslip⟩ := h
  obtain hmem | ⟨host', rest, hmem, rfl⟩ := cut_cases text
  · rw [splitOn_of_notMem hmem] at hsplit
    cases hsplit
  rw [splitOn_append hmem] at hsplit
  injection hsplit with hhead hrest
  subst hhead
  rw [parseAddress_append hmem hrest]
  obtain ⟨hhost, hempty⟩ | ⟨n, hint, _⟩ := hslip
  · rw [if_pos hempty, if_neg hhost]
    rfl
  · have hn := parseInt_eq_some.2 hint
    have hp : p ≠ [] := fun hp ↦ by
      rw [hp] at hn
      cases hn
    rw [if_neg fun hempty ↦ hp (hempty p List.mem_cons_self), hn]
    rfl

example : parseAddress ":80".toList = some ([], 80) ∧
    parseAddress "a:".toList = some (['a'], 8530) ∧
    parseAddress "a:80:90".toList = some (['a'], 80) ∧
    parseAddress "a:-5".toList = some (['a'], -5) ∧
    parseAddress "a:８０".toList = some (['a'], 80) := by decide

theorem Address.range {text host : List Char} {port : ℤ} (h : Address text host port) :
    1 ≤ port ∧ port ≤ 65535 := by
  cases h with
  | bare => decide
  | port _ _ hport => exact hport.range

theorem Address.ne_nil {text host : List Char} {port : ℤ} (h : Address text host port) :
    text ≠ [] := by
  cases h with
  | bare hhost => exact hhost
  | port => simp

def Main.dialing (m : Main) (text host : List Char) (port : ℤ) (token : String) : Main :=
  { m with
    serverIpAddress := some (String.ofList host)
    serverPort := port
    token := some token
    preferences := some (String.ofList text, token)
    state := { m.state with ui := .connecting (.changing .test) } }

theorem onButtonClickConnect_of_address {serverAddress : String} {host : List Char} {port : ℤ}
    (m : Main) (token : String) (h : Address (trim serverAddress) host port) :
    onButtonClickConnect m serverAddress token =
      m.dialing (trim serverAddress) host port token := by
  rw [onButtonClickConnect, if_neg h.ne_nil, parseAddress_of_address h]
  rfl

theorem onButtonClickConnect_of_not_address {serverAddress : String} (m : Main) (token : String)
    (hslip : ¬ Slip (trim serverAddress))
    (h : ∀ host port, ¬ Address (trim serverAddress) host port) :
    ∃ text, onButtonClickConnect m serverAddress token = m.toast text := by
  rw [onButtonClickConnect]
  split_ifs with hempty
  · exact ⟨_, rfl⟩
  cases hparse : parseAddress (trim serverAddress) with
  | none => exact ⟨_, rfl⟩
  | some r =>
    obtain haddress | hbad := address_or_slip hempty hparse
    · exact absurd haddress (h _ _)
    · exact absurd hbad hslip

def Reaches (m : Main) (P : Main → Prop) : Prop :=
  ∃ n u, Run mainStep Any m (List.replicate n (.app .ui)) u ∧ P u

theorem Reaches.step {m u : Main} {P : Main → Prop} (h : mainStep m (.app .ui) = some u)
    (hu : Reaches u P) : Reaches m P := by
  obtain ⟨n, v, hrun, hv⟩ := hu
  exact ⟨n + 1, v, .cons trivial h hrun, hv⟩

/-- One step of the UI thread towards the call. -/
theorem Reaches.connecting {m : Main} {P : Main → Prop} {c c' : Connecting}
    (hui : m.state.ui = .connecting c) (hc : c ≠ .calling)
    (hnext : (connect m.state.activity c).2 = some c')
    (h : Reaches { m with state := { m.state with
      activity := (connect m.state.activity c).1, ui := .connecting c' } } P) : Reaches m P := by
  refine .step ?_ h
  have hcalls : m.state.callsConnect .ui = false := by simp [State.callsConnect, hui, hc]
  simp [mainStep, App.step, advanceUi, hui, hnext, hcalls]

/-- The change of the status lies behind the thread, and nothing but it has happened. -/
def Main.Changed (m u : Main) : Prop :=
  ∃ activity, u = { m with state := { m.state with
    activity := activity, ui := .connecting .predicting } }

theorem reaches_of_drawing (status : Status) (views : List View) (m : Main)
    (hui : m.state.ui = .connecting (.changing (.draw (.write status views)))) :
    Reaches m m.Changed := by
  induction views generalizing m with
  | nil => exact .connecting hui (by simp) rfl ⟨0, _, .nil _, _, rfl⟩
  | cons view views ih => exact .connecting hui (by simp) rfl (ih _ rfl)

theorem reaches_of_asking (m : Main) (hui : m.state.ui = .connecting (.changing .ask)) :
    Reaches m m.Changed := by
  cases hf : m.state.activity.isForeground with
  | false =>
    exact .connecting hui (by simp) (by simp [connect, changeStatus, hf]) ⟨0, _, .nil _, _, rfl⟩
  | true =>
    refine .connecting hui (by simp) (by simp [connect, changeStatus, hf]; rfl) ?_
    exact .connecting rfl (by simp) rfl (reaches_of_drawing _ _ _ rfl)

theorem reaches_changed (m : Main) (hui : m.state.ui = .connecting (.changing .test)) :
    Reaches m m.Changed := by
  by_cases hcur : m.state.activity.curStatus = .connecting
  · exact .connecting hui (by simp) (by simp [connect, changeStatus, hcur]) ⟨0, _, .nil _, _, rfl⟩
  · refine .connecting hui (by simp) (by simp [connect, changeStatus, hcur]; rfl) ?_
    exact .connecting rfl (by simp) rfl (reaches_of_asking _ rfl)

theorem Reaches.trans {m : Main} {P Q : Main → Prop} (h : Reaches m P)
    (hP : ∀ u, P u → Reaches u Q) : Reaches m Q := by
  obtain ⟨n, u, hrun, hu⟩ := h
  obtain ⟨k, v, hrun', hv⟩ := hP u hu
  exact ⟨n + k, v, List.replicate_add .. ▸ hrun.trans hrun', hv⟩

/-- The click gets to its call, with what the fields hold. -/
theorem reaches_call (m : Main) (hui : m.state.ui = .connecting (.changing .test)) :
    Reaches m fun u ↦ u.connects = m.connects ++ [⟨m.serverIpAddress, m.serverPort, 5⟩] := by
  refine (reaches_changed m hui).trans ?_
  rintro _ ⟨activity, rfl⟩
  refine .connecting rfl (by simp) rfl ?_
  refine .connecting rfl (by simp) rfl ?_
  exact .step rfl ⟨0, _, .nil _, rfl⟩

def NoClick (_ : Main) (a : MainAction) : Prop :=
  ∀ serverAddress token, a ≠ .click serverAddress token

/-- Until the next click every call, the automatic ones included, is made with the same fields. -/
theorem connects_of_run {m u : Main} {as : List MainAction} (h : Run mainStep NoClick m as u) :
    (u.serverIpAddress = m.serverIpAddress ∧ u.serverPort = m.serverPort) ∧
      ∃ n, u.connects = m.connects ++ List.replicate n ⟨m.serverIpAddress, m.serverPort, 5⟩ := by
  refine h.invariant (I := fun u ↦
    (u.serverIpAddress = m.serverIpAddress ∧ u.serverPort = m.serverPort) ∧
      ∃ n, u.connects = m.connects ++ List.replicate n ⟨m.serverIpAddress, m.serverPort, 5⟩)
    ?_ ⟨⟨rfl, rfl⟩, 0, by simp⟩
  rintro s a t ⟨⟨hip, hport⟩, n, hn⟩ hok ht
  cases a with
  | click serverAddress token => exact absurd rfl (hok serverAddress token)
  | app a =>
    simp only [mainStep, Option.ite_none_left_eq_some, Option.map_eq_some_iff] at ht
    obtain ⟨_, state, _, rfl⟩ := ht
    refine ⟨⟨hip, hport⟩, ?_⟩
    rw [hn, hip, hport]
    split_ifs
    · exact ⟨n + 1, by rw [List.append_assoc, ← List.replicate_succ']⟩
    · exact ⟨n, List.append_nil _⟩

theorem onButtonClickConnect_state (m : Main) (serverAddress token : String) :
    (onButtonClickConnect m serverAddress token).state =
      if trim serverAddress ≠ [] ∧ (parseAddress (trim serverAddress)).isSome = true then
        { m.state with ui := .connecting (.changing .test) }
      else m.state := by
  rw [onButtonClickConnect]
  by_cases hempty : trim serverAddress = []
  · simp [hempty, Main.toast]
  · cases hparse : parseAddress (trim serverAddress) <;> simp [hempty, Main.toast]

theorem network_of_click {m m' : Main} {serverAddress token : String}
    (h : mainStep m (.click serverAddress token) = some m') :
    m'.state.network = m.state.network := by
  simp only [mainStep, Option.ite_none_right_eq_some, Option.some.injEq] at h
  rw [← h.2, onButtonClickConnect_state]
  split_ifs <;> rfl

/-- A text that slips through is not complained about. -/
theorem onButtonClickConnect_of_slip {serverAddress token text : String} {m : Main}
    (hidle : m.state.ui = .idle) (h : Slip (trim serverAddress)) :
    onButtonClickConnect m serverAddress token ≠ m.toast text := by
  have hne : trim serverAddress ≠ [] := by
    intro hnil
    obtain ⟨host, port, rest, hsplit, -⟩ := h
    rw [hnil] at hsplit
    cases hsplit
  intro heq
  have hstate := onButtonClickConnect_state m serverAddress token
  rw [if_pos ⟨hne, parseAddress_isSome_of_slip h⟩, heq] at hstate
  cases hidle.symm.trans (congrArg State.ui hstate)

/-- A click connects to what was typed if that is an address, and does nothing but complain if it is
none, just if the text does not slip through. -/
theorem click_connects_to_typed_address {m m' : Main} {serverAddress token : String}
    (h : mainStep m (.click serverAddress token) = some m') :
    ((∀ host port, Address (trim serverAddress) host port →
      m' = m.dialing (trim serverAddress) host port token ∧
      Reaches m' (fun u ↦
        u.connects = m.connects ++ [⟨some (String.ofList host), port, 5⟩]) ∧
      (∀ as u, Run mainStep NoClick m' as u → ∃ n,
        u.connects = m.connects ++ List.replicate n ⟨some (String.ofList host), port, 5⟩) ∧
      ∀ remotePort, ((setPort remotePort port).toNat : ℤ) = port) ∧
    ((∀ host port, ¬ Address (trim serverAddress) host port) → ∃ text, m' = m.toast text)) ↔
      ¬ Slip (trim serverAddress) := by
  simp only [mainStep, Option.ite_none_right_eq_some, Option.some.injEq] at h
  obtain ⟨⟨hidle, -⟩, rfl⟩ := h
  constructor
  · rintro ⟨-, hreject⟩ hslip
    obtain ⟨text, htext⟩ := hreject fun _ _ ↦ not_address_of_slip hslip
    exact onButtonClickConnect_of_slip hidle hslip htext
  · refine fun hslip ↦ ⟨fun host port haddress ↦ ?_,
      onButtonClickConnect_of_not_address m token hslip⟩
    rw [onButtonClickConnect_of_address m token haddress]
    have hrange := haddress.range
    exact ⟨rfl, reaches_call _ rfl, fun as u hu ↦ (connects_of_run hu).2,
      fun remotePort ↦ toNat_setPort remotePort (by omega)⟩

theorem typed_address_is_connected :
    ∃ m', mainStep .created (.click " 192.168.0.2:9000 " "secret") = some m' ∧
      m'.serverIpAddress = some "192.168.0.2" ∧ m'.serverPort = 9000 ∧
      m'.token = some "secret" ∧
      Reaches m' (fun u ↦ u.connects = [⟨some "192.168.0.2", 9000, 5⟩]) := by
  have htrim : trim " 192.168.0.2:9000 " = "192.168.0.2".toList ++ ':' :: "9000".toList := by
    decide
  have haddress : Address (trim " 192.168.0.2:9000 ") "192.168.0.2".toList 9000 :=
    htrim ▸ .port (by decide) (by decide) ⟨by decide, by decide, by decide, by decide⟩
  have hclick : mainStep .created (.click " 192.168.0.2:9000 " "secret") =
      some (onButtonClickConnect .created " 192.168.0.2:9000 " "secret") := rfl
  obtain ⟨hdialing, hcall, _, _⟩ := ((click_connects_to_typed_address hclick).2
    fun hslip ↦ not_address_of_slip hslip haddress).1 _ _ haddress
  exact ⟨_, hclick, congrArg _ hdialing, congrArg _ hdialing, congrArg _ hdialing, hcall⟩

/-- A port of more than 16 bits is taken, and its low bits are what is connected to. -/
theorem overlong_port_connects_elsewhere :
    ∃ m', mainStep .created (.click "192.168.0.2:70000" "secret") = some m' ∧
      (∀ host port, ¬ Address (trim "192.168.0.2:70000") host port) ∧
      m'.serverIpAddress = some "192.168.0.2" ∧ m'.serverPort = 70000 ∧
      Reaches m' (fun u ↦ u.connects = [⟨some "192.168.0.2", 70000, 5⟩]) ∧
      ∀ remotePort, setPort remotePort 70000 = 4464 := by
  have hslip : Slip (trim "192.168.0.2:70000") :=
    ⟨"192.168.0.2".toList, "70000".toList, [], by decide, .inr ⟨70000,
      parseInt_eq_some.1 (by decide), by simp [Unfit]⟩⟩
  have hclick : onButtonClickConnect .created "192.168.0.2:70000" "secret" =
      Main.created.dialing "192.168.0.2:70000".toList "192.168.0.2".toList 70000 "secret" := by
    decide
  refine ⟨_, rfl, fun _ _ ↦ not_address_of_slip hslip, ?_⟩
  rw [hclick]
  exact ⟨rfl, rfl, reaches_call _ rfl, fun _ ↦ rfl⟩

end MusicRemote.App
