import MusicRemote.App.Address
import MusicRemote.App.Receipt
import MusicRemote.Server.Provenance
import MusicRemote.Server.Relay

namespace MusicRemote.App

open Client Foundation Foundation.Transition Protocol Protocol.Json Protocol.Framing Function

/-- A frame that the native client hands to the listener, by its place among those written to its
session. -/
structure Delivery where
  session : ℕ
  index : ℕ
  connectionId : ℤ
  envelope : Server.Envelope
  deriving DecidableEq

/-- The frame without its header. -/
def Delivery.data (d : Delivery) : List UInt8 := d.envelope.message.data.drop 4

/-- How the listener came back from a delivery: the `connectionId` that was stored when it tested
it, the token that it found, and what it did. -/
structure Outcome where
  delivery : Delivery
  stored : ℤ
  token : Option String
  effects : List Effect
  deriving DecidableEq

def Outcome.keyEvents (o : Outcome) : List KeyEvent := o.effects.filterMap Effect.keyEvent

/-- An Android client: the activity, whether there is an `AudioManager`, and the data that its
listener has in hand. The `connectionId` that its test has read last and the outcomes so far are
carried along. -/
structure Phone where
  main : Main
  audioManager : Bool
  inHand : Option Delivery
  stored : ℤ
  outcomes : List Outcome

def Phone.created (audioManager : Bool) : Phone := ⟨.created, audioManager, none, 0, []⟩

def Phone.receive (p : Phone) (d : Delivery) : Option Phone :=
  (mainStep p.main (.app (.event .onRecvData d.connectionId))).map fun main ↦
    { p with main := main, inHand := some d }

def isRecvData : MainAction → Bool
  | .app (.event .onRecvData _) => true
  | _ => false

/-- The `connectionId` that the test has read last, after a step of the activity. -/
def Phone.reads (p : Phone) (a : MainAction) : ℤ :=
  match p.main.state.network with
  | .filtering _ _ => if a = .app .network then p.main.state.activity.connectionId else p.stored
  | _ => p.stored

/-- The listener returns, from its first test or after it has handled the data. -/
def Phone.outcome (gson : Gson) (p : Phone) (a : MainAction) (d : Delivery) : Outcome where
  delivery := d
  stored := p.reads a
  token := p.main.token
  effects :=
    if p.main.state.network = .routing .onRecvData then
      onRecvData gson p.main.token p.audioManager d.connectionId d.data
    else []

def Phone.step (gson : Gson) (p : Phone) (a : MainAction) : Option Phone :=
  if isRecvData a then none
  else (mainStep p.main a).map fun main ↦
    match p.inHand with
    | some d =>
      if main.state.network = .idle then
        { p with
          main := main
          inHand := none
          stored := p.reads a
          outcomes := p.outcomes ++ [p.outcome gson a d] }
      else { p with main := main, stored := p.reads a }
    | none => { p with main := main }

/-- The server and its Android clients, with how many of the frames written to a session have
arrived at the other end. -/
structure System where
  server : Server.State
  phone : ℕ → Phone
  arrived : ℕ → ℕ

def System.start (audioManager : ℕ → Bool) : System :=
  ⟨.init, fun p ↦ .created (audioManager p), fun _ ↦ 0⟩

inductive SystemAction
  | server (a : Server.Action)
  | phone (p : ℕ) (a : MainAction)
  | deliver (u : ℕ)

/-- The frames of a session arrive in order at the phone whose connection the session is for. -/
def System.step (gson : Gson) (env : Server.Env) (owner : ℕ → Option (ℕ × ℤ)) (s : System) :
    SystemAction → Option System
  | .server a => (Server.step env s.server a).map fun server ↦ { s with server := server }
  | .phone p a =>
    ((s.phone p).step gson a).map fun phone ↦ { s with phone := update s.phone p phone }
  | .deliver u =>
    match owner u, (s.server.session u).written[s.arrived u]? with
    | some (p, id), some e =>
      ((s.phone p).receive ⟨u, s.arrived u, id, e⟩).map fun phone ↦ { s with
        phone := update s.phone p phone
        arrived := update s.arrived u (s.arrived u + 1) }
    | _, _ => none

def Phone.dispatched (p : Phone) (cause : Server.Cause) : List KeyEvent :=
  p.outcomes.flatMap fun o ↦ if o.delivery.envelope.cause = cause then o.keyEvents else []

def Phone.deliveries (p : Phone) : List Delivery :=
  p.outcomes.map Outcome.delivery ++ p.inHand.toList

/-- The listener is at the data in hand, and every outcome follows from what it found. -/
structure Phone.Sound (gson : Gson) (p : Phone) : Prop where
  inHand : ∀ d, p.inHand = some d →
    p.main.state.network = .filtering .onRecvData d.connectionId ∨
      p.main.state.network = .routing .onRecvData ∧ p.stored = d.connectionId
  effects : ∀ o ∈ p.outcomes, o.effects =
    if o.stored = o.delivery.connectionId then
      onRecvData gson o.token p.audioManager o.delivery.connectionId o.delivery.data
    else []

section

variable {gson : Gson} {env : Server.Env} {owner : ℕ → Option (ℕ × ℤ)} {m m' : Main} {p q : Phone}
  {a : MainAction} {d : Delivery}

theorem created_sound (gson : Gson) (audioManager : Bool) :
    (Phone.created audioManager).Sound gson where
  inHand _ h := by cases h
  effects _ h := by cases h

/-- The test of received data lets pass what came on the stored connection. -/
theorem filtering_of_mainStep (h : mainStep m a = some m') {id : ℤ}
    (hn : m.state.network = .filtering .onRecvData id) :
    m'.state.network = .filtering .onRecvData id ∧ a ≠ .app .network ∨
      a = .app .network ∧ (m'.state.network = .routing .onRecvData ∧
          m.state.activity.connectionId = id ∨
        m'.state.network = .idle ∧ m.state.activity.connectionId ≠ id) := by
  cases a with
  | click => exact .inl ⟨(network_of_click h).trans hn, by simp⟩
  | app b =>
    simp only [mainStep, Option.ite_none_left_eq_some, Option.map_eq_some_iff] at h
    obtain ⟨-, state, hstep, rfl⟩ := h
    cases step_turn hstep with
    | clickConnect | clickDisconnect | pause | resume | runPosted | ui | vanish =>
      exact .inl ⟨hn, by simp⟩
    | event hidle => cases hidle.symm.trans hn
    | network hlisten =>
      rw [hn] at hlisten
      cases hlisten with
      | foreign hne => exact .inr ⟨rfl, .inr ⟨rfl, hne⟩⟩
      | own heq => exact .inr ⟨rfl, .inl ⟨rfl, heq⟩⟩

theorem routing_of_mainStep (h : mainStep m a = some m')
    (hn : m.state.network = .routing .onRecvData) :
    m'.state.network = .routing .onRecvData ∨ m'.state.network = .idle := by
  cases a with
  | click => exact .inl ((network_of_click h).trans hn)
  | app b =>
    simp only [mainStep, Option.ite_none_left_eq_some, Option.map_eq_some_iff] at h
    obtain ⟨-, state, hstep, rfl⟩ := h
    cases step_turn hstep with
    | clickConnect | clickDisconnect | pause | resume | runPosted | ui | vanish => exact .inl hn
    | event hidle => cases hidle.symm.trans hn
    | network hlisten =>
      rw [hn] at hlisten
      cases hlisten with
      | reconnect _ hterminal => cases hterminal
      | data => exact .inr rfl
      | route _ hne => exact absurd rfl hne

theorem Phone.Sound.receive (hs : p.Sound gson) (h : p.receive d = some q) :
    q.Sound gson ∧ q.deliveries = p.deliveries ++ [d] ∧ q.audioManager = p.audioManager := by
  obtain ⟨main, hmain, rfl⟩ := Option.map_eq_some_iff.1 h
  simp only [mainStep, Option.ite_none_left_eq_some, Option.map_eq_some_iff] at hmain
  obtain ⟨-, state, hstep, rfl⟩ := hmain
  have hturn := step_turn hstep
  cases hturn with
  | event hidle _ =>
    have hnone : p.inHand = none := by
      cases hd : p.inHand with
      | none => rfl
      | some d' =>
        rcases hs.inHand d' hd with hn | ⟨hn, -⟩ <;> cases hidle.symm.trans hn
    refine ⟨⟨fun d' hd' ↦ ?_, hs.effects⟩, ?_, rfl⟩
    · cases hd'
      exact .inl rfl
    · simp [Phone.deliveries, hnone]

/-- The listener goes on with the data in hand, or returns from it. -/
theorem Phone.Sound.handle (hs : p.Sound gson) (hd : p.inHand = some d)
    (h : mainStep p.main a = some m') :
    (m'.state.network = .idle → (p.outcome gson a d).effects =
        if p.reads a = d.connectionId then
          onRecvData gson p.main.token p.audioManager d.connectionId d.data
        else []) ∧
      (m'.state.network ≠ .idle → m'.state.network = .filtering .onRecvData d.connectionId ∨
        m'.state.network = .routing .onRecvData ∧ p.reads a = d.connectionId) := by
  rcases hs.inHand d hd with hn | ⟨hn, hstored⟩
  · simp only [Phone.outcome, Phone.reads, hn, reduceCtorEq, if_false]
    rcases filtering_of_mainStep h hn with ⟨hsame, -⟩ | ⟨rfl, ⟨hpass, heq⟩ | ⟨hdrop, hne⟩⟩
    · simp [hsame]
    · simp [hpass, heq]
    · simp [hdrop, hne]
  · simp only [Phone.outcome, Phone.reads, hn, if_true, hstored]
    rcases routing_of_mainStep h hn with hsame | hdone
    · simp [hsame]
    · simp [hdone]

theorem Phone.Sound.step (hs : p.Sound gson) (h : p.step gson a = some q) :
    q.Sound gson ∧ q.deliveries = p.deliveries ∧ q.audioManager = p.audioManager := by
  simp only [Phone.step, Option.ite_none_left_eq_some, Option.map_eq_some_iff] at h
  obtain ⟨-, main, hmain, rfl⟩ := h
  cases hd : p.inHand with
  | none =>
    refine ⟨⟨(fun d hd' ↦ by cases hd'), hs.effects⟩, ?_, rfl⟩
    simp [Phone.deliveries, hd]
  | some d =>
    obtain ⟨hreturn, hbusy⟩ := hs.handle hd hmain
    dsimp only
    split_ifs with hidle
    · refine ⟨⟨(fun d' hd' ↦ by cases hd'), fun o ho ↦ ?_⟩, ?_, rfl⟩
      · rcases List.mem_append.1 ho with ho | ho
        · exact hs.effects o ho
        · rw [List.mem_singleton.1 ho]
          exact hreturn hidle
      · simp [Phone.deliveries, hd, Phone.outcome]
    · refine ⟨⟨fun d' hd' ↦ ?_, hs.effects⟩, by simp [Phone.deliveries, hd], rfl⟩
      cases hd'
      exact hbusy hidle

/-- Every frame that has arrived has been delivered once, in order, and is still what the server has
sent to its session. -/
structure System.Delivered (gson : Gson) (owner : ℕ → Option (ℕ × ℤ)) (s : System) : Prop where
  sound : ∀ p, (s.phone p).Sound gson
  indices : ∀ u p id, owner u = some (p, id) →
    ((s.phone p).deliveries.filter fun d ↦ d.session = u).map Delivery.index =
      List.range (s.arrived u)
  origin : ∀ p, ∀ d ∈ (s.phone p).deliveries, owner d.session = some (p, d.connectionId) ∧
    (Server.sentTo d.session s.server.log)[d.index]? = some d.envelope

variable {s t : System} {b : SystemAction} {as : List SystemAction} {audioManager : ℕ → Bool}
  {ok : System → SystemAction → Prop}

theorem delivered_start (gson : Gson) (owner : ℕ → Option (ℕ × ℤ)) (audioManager : ℕ → Bool) :
    (System.start audioManager).Delivered gson owner where
  sound p := created_sound gson _
  indices _ _ _ _ := rfl
  origin _ _ h := by cases h

def SystemAction.server? : SystemAction → Option Server.Action
  | .server a => some a
  | .phone _ _ | .deliver _ => none

theorem server_of_run (h : Run (System.step gson env owner) ok (.start audioManager) as s) :
    Run (Server.step env) Any .init (as.filterMap SystemAction.server?) s.server := by
  refine h.project System.server SystemAction.server? fun _ u b v _ hstep ↦ ?_
  cases b with
  | server a =>
    obtain ⟨server, hserver, rfl⟩ := Option.map_eq_some_iff.1 hstep
    exact hserver
  | phone p a =>
    obtain ⟨phone, -, rfl⟩ := Option.map_eq_some_iff.1 hstep
    rfl
  | deliver u =>
    simp only [System.step] at hstep
    split at hstep
    · obtain ⟨phone, -, rfl⟩ := Option.map_eq_some_iff.1 hstep
      rfl
    · cases hstep

/-- A phone that does not receive keeps what it was given. -/
theorem System.Delivered.setPhone (hd : s.Delivered gson owner) {p : ℕ} (hq : q.Sound gson)
    (hsame : q.deliveries = (s.phone p).deliveries) :
    System.Delivered gson owner { s with phone := update s.phone p q } := by
  have hdeliveries (p' : ℕ) : (update s.phone p q p').deliveries = (s.phone p').deliveries := by
    by_cases hp : p' = p
    · rw [hp, update_self, hsame]
    · rw [update_of_ne hp]
  refine ⟨(forall_update_iff s.phone fun _ x ↦ x.Sound gson).2 ⟨hq, fun p' _ ↦ hd.sound p'⟩,
    fun u p' id hu ↦ ?_, fun p' d hmem ↦ ?_⟩
  · rw [hdeliveries]
    exact hd.indices u p' id hu
  · exact hd.origin p' d (hdeliveries p' ▸ hmem)

theorem System.Delivered.server (hd : s.Delivered gson owner) {server : Server.State}
    {a : Server.Action} (hw : s.server.WellFormed) (h : Server.step env s.server a = some server) :
    System.Delivered gson owner { s with server := server } := by
  obtain ⟨t, es, -, -, hlog⟩ := (Server.step_advance true hw h nofun).exists_move
  have hlog : server.log = s.server.log ++ es := hlog
  refine ⟨hd.sound, hd.indices, fun p d hmem ↦ ?_⟩
  obtain ⟨howner, hsent⟩ := hd.origin p d hmem
  refine ⟨howner, ?_⟩
  change (Server.sentTo d.session server.log)[d.index]? = _
  rw [hlog, Server.sentTo_append,
    List.getElem?_append_left (List.getElem?_eq_some_iff.1 hsent).1, hsent]

theorem System.Delivered.deliver (hd : s.Delivered gson owner) {u p : ℕ} {id : ℤ}
    {e : Server.Envelope} (hu : owner u = some (p, id))
    (he : (Server.sentTo u s.server.log)[s.arrived u]? = some e)
    (hq : (s.phone p).receive ⟨u, s.arrived u, id, e⟩ = some q) :
    System.Delivered gson owner { s with
      phone := update s.phone p q
      arrived := update s.arrived u (s.arrived u + 1) } := by
  obtain ⟨hsound, hdeliveries, -⟩ := (hd.sound p).receive hq
  refine ⟨(forall_update_iff s.phone fun _ x ↦ x.Sound gson).2 ⟨hsound, fun p' _ ↦ hd.sound p'⟩,
    fun u' p' id' hu' ↦ ?_, fun p' d hmem ↦ ?_⟩
  · have hold := hd.indices u' p' id' hu'
    change ((update s.phone p q p').deliveries.filter fun d ↦ d.session = u').map Delivery.index =
      List.range (update s.arrived u (s.arrived u + 1) u')
    by_cases hu'' : u' = u
    · subst hu''
      cases hu.symm.trans hu'
      rw [update_self, update_self, hdeliveries, List.filter_append, List.map_append, hold,
        List.range_succ]
      simp
    · rw [update_of_ne hu'', ← hold]
      by_cases hp : p' = p
      · rw [hp, update_self, hdeliveries, List.filter_append]
        simp [Ne.symm hu'']
      · rw [update_of_ne hp]
  · change d ∈ (update s.phone p q p').deliveries at hmem
    by_cases hp : p' = p
    · subst hp
      rw [update_self, hdeliveries, List.mem_append] at hmem
      rcases hmem with hmem | hmem
      · exact hd.origin p' d hmem
      · rw [List.mem_singleton.1 hmem]
        exact ⟨hu, he⟩
    · rw [update_of_ne hp] at hmem
      exact hd.origin p' d hmem

theorem delivered_of_run (h : Run (System.step gson env owner) ok (.start audioManager) as s) :
    s.Delivered gson owner := by
  refine h.along (fun bs u b v hrun hd _ hstep ↦ ?_) (delivered_start gson owner audioManager)
  have hserver := server_of_run hrun
  cases b with
  | server a =>
    obtain ⟨server, hs, rfl⟩ := Option.map_eq_some_iff.1 hstep
    exact hd.server (.run hserver) hs
  | phone p a =>
    obtain ⟨phone, hp, rfl⟩ := Option.map_eq_some_iff.1 hstep
    obtain ⟨hsound, hsame, -⟩ := (hd.sound p).step hp
    exact hd.setPhone hsound hsame
  | deliver w =>
    simp only [System.step] at hstep
    split at hstep
    · next p id e hu he =>
      obtain ⟨phone, hp, rfl⟩ := Option.map_eq_some_iff.1 hstep
      -- what is written is a part of what was sent
      obtain ⟨rest, hrest⟩ := (Server.delivers_of_run hserver w).isPrefix
      refine hd.deliver hu ?_ hp
      rw [← hrest, List.append_assoc,
        List.getElem?_append_left (List.getElem?_eq_some_iff.1 he).1, he]
    · cases hstep

theorem Delivery.data_envelope {body : Server.Body} {cause : Server.Cause}
    (h : d.envelope = Server.envelope body cause) :
    d.data = asBytes (Json.toString body.message) := by
  rw [Delivery.data, h]
  exact List.drop_left' (Bytes.length_toBigEndian 4 _)

theorem keyEvents_body (gson : Gson) (token : Option String) (audioManager : Bool) (id : ℤ)
    {body : Server.Body} (h : ∀ push, body ≠ .push push) :
    (onRecvData gson token audioManager id
      (asBytes (Json.toString body.message))).filterMap Effect.keyEvent = [] := by
  cases body with
  | push push => exact absurd rfl (h push)
  | ping ping => exact keyEvents_message gson token audioManager id ping (by decide)
  | pong pong => exact keyEvents_message gson token audioManager id pong (by decide)
  | response response => exact keyEvents_message gson token audioManager id response (by decide)

variable {u k : ℕ} {t : ℕ} {message : Message} {request : SendControlMediaKeyEventRequest}

/-- The push for a request is sent to a session once, and says what the request says. -/
theorem push_of_cause {server : Server.State} {bs : List Server.Action} {e : Server.Envelope}
    {push : PushMediaKeyEvent} (h : Run (Server.step env) Any .init bs server)
    (hreceived : .received t k message ∈ server.log)
    (hread : env.readRequest message.data = some request) (he : e ∈ Server.sentTo u server.log)
    (hcause : e.cause = .message t k) (hbody : e.body = .push push) :
    e = Server.envelope (.push (Server.pushOf request)) (.message t k) := by
  obtain ⟨m, body, hm, rfl, hcases⟩ := Server.enqueued_of_run h (Server.mem_sentTo.1 he) hcause
  cases hbody
  obtain ⟨time, hpong⟩ | hdenied | hgranted | ⟨push', heq, hverdict⟩ := hcases
  · cases hpong
  · cases hdenied
  · cases hgranted
  · cases heq
    have hstage := (Server.staged_of_run true h (fun h ↦ by cases h) t).stage k
    have htrace {m : Message} (hm : .received t k m ∈ server.log) :
        .received t k m ∈ Server.trace server.log t k := List.mem_filter.2 ⟨hm, by simp⟩
    obtain rfl := hstage.received_inj (htrace hm) (htrace hreceived)
    obtain ⟨-, request', hread', -, rfl⟩ := Server.verdict_eq_permit hverdict
    rw [Option.some.inj (hread.symm.trans hread')]

/-- What a phone does with the push for a request. -/
theorem Phone.Sound.keyEvents_push (hs : p.Sound gson) {o : Outcome} (ho : o ∈ p.outcomes)
    (he : o.delivery.envelope = Server.envelope (.push (Server.pushOf request)) (.message t k))
    (hstored : o.stored = o.delivery.connectionId) :
    o.keyEvents =
      if (request.action.toNat < 2 ^ 31 ∧ request.code.toNat < 2 ^ 31) ∧
          o.token = some request.token ∧ p.audioManager = true then
        [⟨.ofNat request.action.toNat, .ofNat request.code.toNat⟩]
      else [] := by
  have hmessage : (Server.Body.push (Server.pushOf request)).message =
      messageOf (Server.pushOf request) := rfl
  rw [Outcome.keyEvents, hs.effects o ho, if_pos hstored, Delivery.data_envelope he, hmessage,
    onRecvData_push]
  change List.filterMap _ (if (request.action.toNat < 2 ^ 31 ∧ request.code.toNat < 2 ^ 31) ∧
    o.token = some request.token ∧ p.audioManager = true then _ else _) = _
  split_ifs with hdispatch
  · rfl
  · rfl

theorem Phone.Sound.keyEvents_of_foreign (hs : p.Sound gson) {o : Outcome}
    (ho : o ∈ p.outcomes) (hstored : o.stored ≠ o.delivery.connectionId) : o.keyEvents = [] := by
  rw [Outcome.keyEvents, hs.effects o ho, if_neg hstored]
  rfl

/-- What was sent for a message and is no push makes no phone dispatch anything. -/
theorem Phone.Sound.keyEvents_of_body (hs : p.Sound gson) {o : Outcome} (ho : o ∈ p.outcomes)
    {body : Server.Body} {cause : Server.Cause}
    (he : o.delivery.envelope = Server.envelope body cause) (hbody : ∀ push, body ≠ .push push) :
    o.keyEvents = [] := by
  rw [Outcome.keyEvents, hs.effects o ho]
  split_ifs
  · rw [Delivery.data_envelope he]
    exact keyEvents_body gson _ _ _ hbody
  · rfl

/-- What has arrived has been handed to the listener. -/
theorem System.Delivered.exists_delivery (hd : s.Delivered gson owner) {u p i : ℕ} {id : ℤ}
    {e : Server.Envelope} (hu : owner u = some (p, id)) (hi : i < s.arrived u)
    (he : (Server.sentTo u s.server.log)[i]? = some e) :
    ⟨u, i, id, e⟩ ∈ (s.phone p).deliveries := by
  have hindex : i ∈ ((s.phone p).deliveries.filter fun d ↦ d.session = u).map Delivery.index := by
    rw [hd.indices u p id hu]
    exact List.mem_range.2 hi
  obtain ⟨⟨u', i', id', e'⟩, hfilter, rfl⟩ := List.mem_map.1 hindex
  obtain ⟨hmem, hsession⟩ := List.mem_filter.1 hfilter
  obtain rfl : u' = u := of_decide_eq_true hsession
  obtain ⟨howner, hsent⟩ := hd.origin p _ hmem
  cases hu.symm.trans howner
  cases he.symm.trans hsent
  exact hmem

/-- No two outcomes are for the same frame. -/
theorem System.Delivered.index_ne (hd : s.Delivered gson owner) {p : ℕ} {l₁ l₂ : List Outcome}
    {o o' : Outcome} (hsplit : (s.phone p).outcomes = l₁ ++ o :: l₂) (ho' : o' ∈ l₁ ++ l₂)
    (hsession : o'.delivery.session = o.delivery.session) :
    o'.delivery.index ≠ o.delivery.index := by
  have hmem : o.delivery ∈ (s.phone p).deliveries := by simp [Phone.deliveries, hsplit]
  have hindices := hd.indices _ p _ (hd.origin p _ hmem).1
  have hnodup := List.nodup_range (n := s.arrived o.delivery.session)
  rw [← hindices, Phone.deliveries, hsplit, List.filter_append, List.map_append,
    List.map_append, List.map_cons, List.filter_append, List.filter_cons_of_pos (by simp),
    List.map_append, List.map_cons] at hnodup
  have hnodup := (List.nodup_append.1 hnodup).1
  rw [List.nodup_middle, List.nodup_cons, ← List.map_append, ← List.filter_append,
    ← List.map_append] at hnodup
  intro heq
  refine hnodup.1 (heq ▸ List.mem_map_of_mem (List.mem_filter.2 ⟨List.mem_map_of_mem ho', ?_⟩))
  exact decide_eq_true hsession

/-- The outcome for the push is the only one of its request that dispatches anything. -/
theorem dispatched_eq (h : Run (System.step gson env owner) ok (.start audioManager) as s)
    {u p i : ℕ} {id : ℤ} {o : Outcome} (ho : o ∈ (s.phone p).outcomes)
    (hpush : o.delivery =
      ⟨u, i, id, Server.envelope (.push (Server.pushOf request)) (.message t k)⟩)
    (hother : ∀ o' ∈ (s.phone p).outcomes, o'.delivery.envelope.cause = .message t k →
      o'.stored = o'.delivery.connectionId → o'.delivery.session = u) :
    (s.phone p).dispatched (.message t k) = o.keyEvents := by
  have hd := delivered_of_run h
  have hserver := server_of_run h
  obtain ⟨l₁, l₂, hsplit⟩ := List.append_of_mem ho
  have hsent {o' : Outcome} (ho' : o' ∈ (s.phone p).outcomes) :=
    (hd.origin p o'.delivery (List.mem_append_left _ (List.mem_map_of_mem ho'))).2
  have hquiet : ∀ o' ∈ l₁ ++ l₂, o'.delivery.envelope.cause = .message t k →
      o'.keyEvents = [] := by
    intro o' hmem hcause
    have ho' : o' ∈ (s.phone p).outcomes := by
      rw [hsplit]
      simp only [List.mem_append, List.mem_cons] at hmem ⊢
      tauto
    by_cases hstored : o'.stored = o'.delivery.connectionId
    · have hsession := hother o' ho' hcause hstored
      have hsent' := hsent ho'
      rw [hsession] at hsent'
      obtain ⟨m, body, -, he, -⟩ := Server.enqueued_of_run hserver
        (Server.mem_sentTo.1 (List.mem_of_getElem? hsent')) hcause
      refine (hd.sound p).keyEvents_of_body ho' he fun push hbody ↦ ?_
      -- a second push for the request would be a second envelope of the session
      have hnodup : (Server.pushes (Server.sentTo u s.server.log)).Nodup :=
        (Server.ordered_of_run hserver).1.increasing.nodup.sublist
          ((Server.ordered_of_run hserver).1.sublist u)
      have hfirst := hsent ho
      rw [hpush] at hfirst
      rw [he, hbody] at hsent'
      have hindex := eq_of_nodup_filterMap hnodup hsent' hfirst rfl rfl
      refine hd.index_ne hsplit hmem (by rw [hsession, hpush]) ?_
      rw [hindex, hpush]
    · exact (hd.sound p).keyEvents_of_foreign ho' hstored
  have hnil (l : List Outcome) (hl : ∀ o' ∈ l, o' ∈ l₁ ++ l₂) : l.flatMap (fun o' ↦
      if o'.delivery.envelope.cause = .message t k then o'.keyEvents else []) = [] := by
    rw [List.flatMap_eq_nil_iff]
    intro o' ho'
    split_ifs with hcause
    · exact hquiet o' (hl o' ho') hcause
    · rfl
  have hcause : o.delivery.envelope.cause = .message t k := by
    rw [hpush]
    rfl
  rw [Phone.dispatched, hsplit, List.flatMap_append, List.flatMap_cons,
    hnil l₁ fun o' ho' ↦ List.mem_append_left l₂ ho',
    hnil l₂ fun o' ho' ↦ List.mem_append_right l₁ ho', if_pos hcause]
  simp

/-- With another token, a phone dispatches nothing for a request, on whichever connection. -/
theorem dispatched_of_other_token
    (h : Run (System.step gson env owner) ok (.start audioManager) as s) {p : ℕ}
    (hreceived : .received t k message ∈ s.server.log)
    (hread : env.readRequest message.data = some request)
    (htoken : ∀ o ∈ (s.phone p).outcomes, o.delivery.envelope.cause = .message t k →
      o.token ≠ some request.token) :
    (s.phone p).dispatched (.message t k) = [] := by
  have hd := delivered_of_run h
  have hserver := server_of_run h
  refine List.flatMap_eq_nil_iff.2 fun o ho ↦ ?_
  split_ifs with hcause
  · have hsent := List.mem_of_getElem?
      (hd.origin p o.delivery (List.mem_append_left _ (List.mem_map_of_mem ho))).2
    obtain ⟨m, body, -, he, -⟩ :=
      Server.enqueued_of_run hserver (Server.mem_sentTo.1 hsent) hcause
    by_cases hbody : ∀ push, body ≠ .push push
    · exact (hd.sound p).keyEvents_of_body ho he hbody
    · simp only [not_forall, not_not] at hbody
      obtain ⟨push, rfl⟩ := hbody
      have hpush := push_of_cause hserver hreceived hread hsent hcause (by rw [he]; rfl)
      by_cases hstored : o.stored = o.delivery.connectionId
      · rw [(hd.sound p).keyEvents_push ho hpush hstored,
          if_neg fun hall ↦ htoken o ho hcause hall.2.1]
      · exact (hd.sound p).keyEvents_of_foreign ho hstored
  · rfl

theorem run_server {as : List Server.Action} {t : Server.State}
    (h : Run (Server.step env) Any s.server as t) :
    Run (System.step gson env owner) Any s (as.map .server) { s with server := t } := by
  refine h.lift (fun server ↦ { s with server := server }) SystemAction.server fun u a v _ hv ↦ ?_
  simp only [System.step, hv, Option.map_some]

/-- While nothing is in hand, a phone only goes along with its activity. -/
theorem run_phone {p : ℕ} {as : List MainAction}
    (h : Run mainStep (fun _ a ↦ isRecvData a = false) (s.phone p).main as m)
    (hdone : (s.phone p).inHand = none) :
    Run (System.step gson env owner) Any s (as.map (.phone p))
      { s with phone := update s.phone p { s.phone p with main := m } } := by
  have hrun : Run (System.step gson env owner) Any _ (as.map (.phone p)) _ :=
    h.lift (fun main ↦ { s with phone := update s.phone p { s.phone p with main := main } })
      (SystemAction.phone p) fun u a v ha hv ↦ by simp [System.step, Phone.step, ha, hv, hdone]
  rwa [update_eq_self] at hrun

def Main.listenerAt (m : Main) (network : NetworkPc) : Main :=
  { m with state := { m.state with network := network } }

@[simp]
theorem network_listenerAt (m : Main) (network : NetworkPc) :
    (m.listenerAt network).state.network = network := rfl

@[simp]
theorem token_listenerAt (m : Main) (network : NetworkPc) :
    (m.listenerAt network).token = m.token := rfl

/-- A listener that waits goes through what comes in on its connection, and waits again. -/
theorem mainStep_recvData {id : ℤ} (hidle : m.state.network = .idle)
    (hlive : id ∈ m.state.activity.live) (hcurrent : m.state.activity.connectionId = id) :
    mainStep m (.app (.event .onRecvData id)) =
        some (m.listenerAt (.filtering .onRecvData id)) ∧
      mainStep (m.listenerAt (.filtering .onRecvData id)) (.app .network) =
        some (m.listenerAt (.routing .onRecvData)) ∧
      mainStep (m.listenerAt (.routing .onRecvData)) (.app .network) = some m := by
  obtain ⟨⟨activity, ui, network⟩, serverIpAddress, serverPort, token, preferences, toasts,
    connects⟩ := m
  subst hidle hcurrent
  refine ⟨?_, ?_, ?_⟩
  · simp [mainStep, App.step, Main.listenerAt, EventType.isTerminal, State.callsConnect, hlive]
  · simp [mainStep, App.step, Main.listenerAt, advanceNetwork, State.callsConnect]
  · simp [mainStep, App.step, Main.listenerAt, advanceNetwork, EventType.isTerminal,
      State.callsConnect]

/-- A listener that waits handles what comes in on its connection, and is then as before. -/
theorem run_deliver {u n : ℕ} {id : ℤ} {e : Server.Envelope} (howner : owner u = some (n, id))
    (he : (s.server.session u).written[s.arrived u]? = some e) (hp : s.phone n = p)
    (hidle : p.main.state.network = .idle) (hlive : id ∈ p.main.state.activity.live)
    (hcurrent : p.main.state.activity.connectionId = id) (hdone : p.inHand = none) :
    Run (System.step gson env owner) Any s
      [.deliver u, .phone n (.app .network), .phone n (.app .network)] { s with
        phone := update s.phone n { p with
          stored := id
          outcomes := p.outcomes ++ [⟨⟨u, s.arrived u, id, e⟩, id, p.main.token,
            onRecvData gson p.main.token p.audioManager id
              (Delivery.data ⟨u, s.arrived u, id, e⟩)⟩] }
        arrived := update s.arrived u (s.arrived u + 1) } := by
  obtain ⟨hevent, hfilter, hroute⟩ := mainStep_recvData hidle hlive hcurrent
  refine .cons trivial (t := { s with
    phone := update s.phone n { p with
      main := p.main.listenerAt (.filtering .onRecvData id)
      inHand := some ⟨u, s.arrived u, id, e⟩ }
    arrived := update s.arrived u (s.arrived u + 1) }) ?_ (.cons trivial (t := { s with
    phone := update s.phone n { p with
      main := p.main.listenerAt (.routing .onRecvData)
      inHand := some ⟨u, s.arrived u, id, e⟩
      stored := id }
    arrived := update s.arrived u (s.arrived u + 1) }) ?_ (.one trivial ?_))
  · simp [System.step, howner, he, hp, Phone.receive, hevent]
  · have hid : (p.main.listenerAt (.filtering .onRecvData id)).state.activity.connectionId = id :=
      hcurrent
    simp [System.step, Phone.step, Phone.reads, isRecvData, hfilter, hid]
  · simp [System.step, Phone.step, Phone.reads, isRecvData, hroute, hidle, Phone.outcome, hdone]

/-- A phone with another token dispatches nothing for a request. When the push for it has come to a
phone that takes it from no other of its connections, the phone dispatches one key event with the
request's action and code just if the push came on the connection whose id was stored, the tokens
are equal, both numbers are `int`s, and there is an `AudioManager`. -/
theorem pushed_key_events_are_dispatched_once
    (h : Run (System.step gson env owner) Any (.start audioManager) as s) {u p i : ℕ} {id : ℤ}
    {e : Server.Envelope} {push : PushMediaKeyEvent}
    (hreceived : .received t k message ∈ s.server.log)
    (hread : env.readRequest message.data = some request) (howner : owner u = some (p, id))
    (he : (s.server.session u).written[i]? = some e) (hcause : e.cause = .message t k)
    (hbody : e.body = .push push) (harrived : i < s.arrived u)
    (hdone : (s.phone p).inHand = none) :
    ((∀ o ∈ (s.phone p).outcomes, o.delivery.envelope.cause = .message t k →
        o.token ≠ some request.token) → (s.phone p).dispatched (.message t k) = []) ∧
    ∃ o ∈ (s.phone p).outcomes, o.delivery = ⟨u, i, id, e⟩ ∧
      ((∀ o' ∈ (s.phone p).outcomes, o'.delivery.envelope.cause = .message t k →
          o'.stored = o'.delivery.connectionId → o'.delivery.session = u) →
        ((∃ event, (s.phone p).dispatched (.message t k) = [event] ∧
            event.action.toInt = request.action.toNat ∧
            event.code.toInt = request.code.toNat) ↔
          o.stored = id ∧ o.token = some request.token ∧ request.action.toNat < 2 ^ 31 ∧
            request.code.toNat < 2 ^ 31 ∧ (s.phone p).audioManager = true)) := by
  have hserver := server_of_run h
  have hd := delivered_of_run h
  obtain ⟨rest, hrest⟩ := (Server.delivers_of_run hserver u).isPrefix
  have hsent : (Server.sentTo u s.server.log)[i]? = some e := by
    rw [← hrest, List.append_assoc, List.getElem?_append_left (List.getElem?_eq_some_iff.1 he).1,
      he]
  have hpush := push_of_cause hserver hreceived hread (List.mem_of_getElem? hsent) hcause hbody
  have hmem := hd.exists_delivery howner harrived hsent
  rw [Phone.deliveries, hdone, Option.toList_none, List.append_nil] at hmem
  obtain ⟨o, ho, hdelivery⟩ := List.mem_map.1 hmem
  refine ⟨dispatched_of_other_token h hreceived hread, o, ho, hdelivery, fun hother ↦ ?_⟩
  have hid : o.delivery.connectionId = id := by rw [hdelivery]
  rw [hpush] at hdelivery
  have henvelope : o.delivery.envelope =
      Server.envelope (.push (Server.pushOf request)) (.message t k) := by rw [hdelivery]
  rw [dispatched_eq h ho hdelivery hother]
  constructor
  · rintro ⟨event, hevent, -⟩
    have hstored : o.stored = o.delivery.connectionId := by
      by_contra hforeign
      rw [(hd.sound p).keyEvents_of_foreign ho hforeign] at hevent
      cases hevent
    rw [(hd.sound p).keyEvents_push ho henvelope hstored] at hevent
    split_ifs at hevent with hall
    exact ⟨hstored.trans hid, hall.2.1, hall.1.1, hall.1.2, hall.2.2⟩
  · rintro ⟨hstored, htoken, haction, hcode, haudio⟩
    rw [(hd.sound p).keyEvents_push ho henvelope (hstored.trans hid.symm),
      if_pos ⟨⟨haction, hcode⟩, htoken, haudio⟩]
    exact ⟨_, rfl, Int32.toInt_ofNat_of_lt haction, Int32.toInt_ofNat_of_lt hcode⟩

end

/-- The control is the server's first session, the phone its second. -/
def phoneOwner (u : ℕ) : Option (ℕ × ℤ) := if u = 1 then some (0, 1) else none

def pressing (action : UInt32) : SendControlMediaKeyEventRequest := ⟨action, 85, "t", "x"⟩

def pressed (action : UInt32) : Server.Envelope :=
  Server.envelope (.push (Server.pushOf (pressing action))) (.message 0 0)

def pressSchedule (action : UInt32) : List SystemAction :=
  List.flatten [
    [.phone 0 (.click "host" "t")], List.replicate 14 (.phone 0 (.app .ui)),
    [.phone 0 (.app (.event .onConnectSuccess 1))], List.replicate 3 (.phone 0 (.app .network)),
    [.server .spawn, .server (.start 0), .server .spawn, .server (.start 1),
      .server (.readBuf 0 (frame (Json.toString (messageOf (pressing action))))),
      .server (.recvFrame 0), .server (.recvMessage 0), .server (.lock 0 [⟨2, 1, 2⟩, ⟨1, 0, 1⟩]),
      .server (.push 0), .server (.push 0), .server (.respond 0), .server (.write 1 true)],
    [.deliver 1, .phone 0 (.app .network), .phone 0 (.app .network)]]

/-- The phone has handled the push for a request with the right code on its current connection,
with the request's token. -/
def Handled (action : UInt32) (effects : List Effect) (s : System) : Prop :=
  .received 0 0 (messageOf (pressing action)) ∈ s.server.log ∧
    (s.server.session 1).written[0]? = some (pressed action) ∧ s.arrived 1 = 1 ∧
    (s.phone 0).inHand = none ∧ (s.phone 0).audioManager = true ∧
    (s.phone 0).outcomes = [⟨⟨1, 0, 1, pressed action⟩, 1, some "t", effects⟩]

def connecting : List MainAction :=
  .click "host" "t" :: (List.replicate 14 (.app .ui) ++
    .app (.event .onConnectSuccess 1) :: List.replicate 3 (.app .network))

def connected : Main where
  state :=
    { activity :=
        { isForeground := true
          connectionId := 1
          curStatus := .connecting
          screen := ⟨false, false, false, false, "connecting"⟩
          posted := [.onConnectSuccess]
          connectionIdSeed := 1
          live := [1] }
      ui := .idle
      network := .idle }
  serverIpAddress := some "host"
  serverPort := 8530
  token := some "t"
  preferences := some ("host", "t")
  toasts := []
  connects := [⟨some "host", 8530, 5⟩]

theorem run_connecting :
    Run mainStep (fun _ a ↦ isRecvData a = false) .created connecting connected :=
  Run.of_execute (by decide)

/-- What the listener does is what it does with the text of the push. -/
theorem run_pressSchedule (action : UInt32)
    (h : (asBytes (Json.toString (messageOf (pressing action)))).length < 2 ^ 21) :
    ∃ s, Run (System.step gson (Server.serde "x") phoneOwner) Any (.start fun _ ↦ true)
      (pressSchedule action) s ∧
        Handled action (onRecvData gson (some "t") true 1
          (asBytes (Json.toString (messageOf (Server.pushOf (pressing action)))))) s := by
  obtain ⟨t, ht, hlog, hwritten⟩ := Server.run_request (pressing action) h
  have hfirst : (t.session 1).written[0]? = some (pressed action) := by
    rw [hwritten]
    rfl
  have hconnected : Run (System.step gson (Server.serde "x") phoneOwner) Any
      (.start fun _ ↦ true) (connecting.map (.phone 0)) _ := run_phone run_connecting rfl
  have hrun := (hconnected.trans (run_server ht)).trans (run_deliver rfl hfirst (update_self ..) rfl
    (List.mem_singleton_self 1) rfl rfl)
  rw [Delivery.data_envelope rfl] at hrun
  exact ⟨_, hrun, hlog, hfirst, rfl, rfl, rfl, rfl⟩

theorem pushed_key_event_is_dispatched_once : ∃ s event,
    Run (System.step gson (Server.serde "x") phoneOwner) Any (.start fun _ ↦ true)
      (pressSchedule 0) s ∧ (s.phone 0).dispatched (.message 0 0) = [event] ∧
        event.action.toInt = 0 ∧ event.code.toInt = 85 := by
  obtain ⟨s, h, hreceived, hwritten, harrived, hdone, haudio, houtcomes⟩ :=
    run_pressSchedule 0 (by rw [length_toString_message]; decide +kernel)
  obtain ⟨-, o, ho, -, hdispatched⟩ := pushed_key_events_are_dispatched_once h hreceived
    (fromStr_request (pressing 0)) rfl hwritten rfl rfl (by rw [harrived]; exact Nat.one_pos) hdone
  rw [houtcomes] at ho hdispatched
  cases List.mem_singleton.1 ho
  obtain ⟨event, hevent, haction, hcode⟩ := (hdispatched fun o' ho' _ _ ↦ by
    rw [List.mem_singleton.1 ho']).2 ⟨rfl, rfl, by decide, by decide, haudio⟩
  exact ⟨s, event, h, hevent, haction, hcode⟩

/-- An action past the largest `int`: `Gson` throws, and the exception is only logged. -/
theorem key_event_past_int_is_dropped : ∃ s,
    Run (System.step gson (Server.serde "x") phoneOwner) Any (.start fun _ ↦ true)
      (pressSchedule 2147483648) s ∧ Handled 2147483648 [] s ∧
        (s.phone 0).dispatched (.message 0 0) = [] := by
  obtain ⟨s, h, hhandled⟩ :=
    run_pressSchedule 2147483648 (by rw [length_toString_message]; decide +kernel)
  rw [onRecvData_push, if_neg fun hall ↦ absurd hall.1.1 (by decide)] at hhandled
  refine ⟨s, h, hhandled, ?_⟩
  obtain ⟨-, -, -, -, -, houtcomes⟩ := hhandled
  rw [Phone.dispatched, houtcomes]
  rfl

end MusicRemote.App
