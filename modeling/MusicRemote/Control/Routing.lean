import MusicRemote.Control.Outcome
import MusicRemote.Control.Writers

namespace MusicRemote.Control.Routing

open Protocol Foundation.Transition Foundation.SharedWriter
open Service (Env RunLoop Client)

/-- The service with the writers of each of its connections. Carried along are how often `tx` has
been stored, and what the loop took from the page, by the number of stores before. -/
structure State where
  service : Service.State
  writers : ℕ → Writers.State
  stored : ℕ
  taken : ℕ → List Message

def State.init : State := ⟨.init, fun _ ↦ .init, 0, fun _ ↦ []⟩

inductive Action
  | service (a : Service.Action)
  | writer (i : ℕ) (a : Writers.Action)

def isOwn : Writers.Action → Bool
  | .onRecvPing _ | .pingForever _ | .lock _ | .write _ | .unlock => true
  | .send _ | .pollWrite | .close => false

def isRunning (s : Service.State) (i : ℕ) : Bool := s.clients[i]?.any (·.phase.isRunning)

/-- The step of a connection's writers that a step of the service is: the send into the channel, the
receipt from it, and the drop of the futures. -/
def partner (s : Service.State) : Service.Action → Option (ℕ × Writers.Action)
  | .advance =>
    match s.loop, s.tx with
    | .forwarding message, some i => if isRunning s i then some (i, .send message) else none
    | _, _ => none
  | .pollWrite i => some (i, .pollWrite)
  | .finish i _ => some (i, .close)
  | _ => none

def stores (s : Service.State) : Service.Action → Bool
  | .advance => s.loop = .opening
  | _ => false

def takes (env : Env) (s : Service.State) : Service.Action → Option Message
  | .recv => (s.fromJs.head?.bind env.readMessage).filter (·.name ≠ "ConnectRequest")
  | _ => none

def follow (writers : ℕ → Writers.State) :
    Option (ℕ × Writers.Action) → Option (ℕ → Writers.State)
  | none => some writers
  | some (i, a) => (Writers.step (writers i) a).map (Function.update writers i)

def step (env : Env) (s : State) : Action → Option State
  | .service a =>
    (Service.step env s.service a).bind fun service ↦
      (follow s.writers (partner s.service a)).map fun writers ↦
        { service := service
          writers := writers
          stored := s.stored + (stores s.service a).toNat
          taken := Function.update s.taken s.stored
            (s.taken s.stored ++ (takes env s.service a).toList) }
  | .writer i a =>
    if isOwn a = true ∧ isRunning s.service i = true then
      (follow s.writers (some (i, a))).map fun writers ↦ { s with writers := writers }
    else none

def inbox (c : Client) : Option (List Message) := if c.phase.isRunning then some c.rx else none

/-- A connection whose sender is stored has yet to get its task. -/
def isMaking : RunLoop → Bool
  | .opened | .announcing | .spawning => true
  | _ => false

def inHand : RunLoop → Option Message
  | .forwarding message => some message
  | _ => none

structure Route where
  making : Bool
  inHand : Option Message
  tx : Option ℕ
  inboxes : List (Option (List Message))

def route (s : Service.State) : Route :=
  ⟨isMaking s.loop, inHand s.loop, s.tx, s.clients.map inbox⟩

/-- What a step of the service does to that, with the step of the writers that it is, whether it
stores a sender, and the message that it takes. -/
inductive Route.Move (r : Route) :
    Option (ℕ × Writers.Action) → Bool → Option Message → Route → Prop
  | stay : Move r none false none r
  | take (m : Message) : r.making = false → r.inHand = none →
      Move r none false (some m) { r with inHand := some m }
  | store : r.making = false → r.inHand = none →
      Move r none true none { r with making := true, tx := some r.inboxes.length }
  | spawn : r.making = true →
      Move r none false none { r with making := false, inboxes := r.inboxes ++ [some []] }
  | forward {m : Message} {i : ℕ} {rx : List Message} : r.inHand = some m → r.tx = some i →
      r.inboxes[i]? = some (some rx) → Move r (some (i, .send m)) false none
        { r with inHand := none, inboxes := r.inboxes.set i (some (rx ++ [m])) }
  | drop {m : Message} : r.inHand = some m →
      (∀ i, r.tx = some i → ∀ rx, r.inboxes[i]? ≠ some (some rx)) →
      Move r none false none { r with inHand := none }
  | write {i : ℕ} {m : Message} {rx : List Message} : r.inboxes[i]? = some (some (m :: rx)) →
      Move r (some (i, .pollWrite)) false none { r with inboxes := r.inboxes.set i (some rx) }
  | finish {i : ℕ} {rx : List Message} : r.inboxes[i]? = some (some rx) →
      Move r (some (i, .close)) false none { r with inboxes := r.inboxes.set i none }

section

variable {env : Env} {s t : Service.State}

def Routes (env : Env) (s : Service.State) (a : Service.Action) (t : Service.State) : Prop :=
  (route s).Move (partner s a) (stores s a) (takes env s a) (route t)

theorem Routes.same {a : Service.Action} (hroute : route t = route s)
    (hpartner : partner s a = none) (hstores : stores s a = false)
    (htakes : takes env s a = none) : Routes env s a t := by
  rw [Routes, hroute, hpartner, hstores, htakes]
  exact .stay

/-- What `recv` takes is put on its way unless it is a request to connect. -/
theorem takes_recv {input : String} {fromJs : List String} (hjs : s.fromJs = input :: fromJs) :
    takes env s .recv = (env.readMessage input).filter (·.name ≠ "ConnectRequest") := by
  rw [takes, hjs, List.head?_cons, Option.bind_some]

theorem getElem?_inboxes (s : Service.State) (i : ℕ) :
    (route s).inboxes[i]? = s.clients[i]?.map inbox := List.getElem?_map

theorem isRunning_iff {i : ℕ} :
    isRunning s i = true ↔ ∃ rx, (route s).inboxes[i]? = some (some rx) := by
  rw [getElem?_inboxes, isRunning]
  cases s.clients[i]? with
  | none => simp
  | some c => by_cases hc : c.phase.isRunning = true <;> simp [inbox, hc]

/-- What arrives in the channel is in its receiving end, if there is one. -/
theorem map_inbox_modify (clients : List Client) (i : ℕ) (message : Message) :
    (clients.modify i fun c ↦
      if c.phase.isRunning then { c with rx := c.rx ++ [message] } else c).map inbox =
      (clients.map inbox).modify i (Option.map (· ++ [message])) := by
  refine List.ext_getElem? fun j ↦ ?_
  simp only [List.getElem?_map, List.getElem?_modify]
  cases clients[j]? with
  | none => simp
  | some c =>
    by_cases hij : i = j
    · by_cases hc : c.phase.isRunning = true <;> simp [inbox, hij, hc]
    · simp [hij]

theorem forward_routes {message : Message} (hloop : s.loop = .forwarding message) :
    Routes env s .advance
      { s with clients := Service.forward s message, loop := .waiting } := by
  have hroute : route s = ⟨false, some message, s.tx, s.clients.map inbox⟩ := by
    rw [route, hloop]
    rfl
  simp only [Routes, partner, stores, takes, hloop, Service.forward]
  rw [hroute]
  cases htx : s.tx with
  | none =>
    refine Route.Move.drop (m := message) rfl fun i hi ↦ ?_
    cases hi
  | some i =>
    simp only [route, map_inbox_modify]
    cases hrun : isRunning s i with
    | true =>
      obtain ⟨rx, hrx⟩ := isRunning_iff.1 hrun
      rw [hroute] at hrx
      have hset : (s.clients.map inbox).modify i (Option.map (· ++ [message])) =
          (s.clients.map inbox).set i (some (rx ++ [message])) := by
        refine List.ext_getElem? fun j ↦ ?_
        by_cases hij : i = j
        · subst hij
          rw [List.getElem?_modify, List.getElem?_set_self (List.getElem?_eq_some_iff.1 hrx).1, hrx]
          simp
        · simp [List.getElem?_set_ne hij, hij]
      rw [hset]
      exact .forward rfl rfl hrx
    | false =>
      have hidle (rx : List Message) : (s.clients.map inbox)[i]? ≠ some (some rx) := by
        intro hrx
        have hrun' := isRunning_iff.2 ⟨rx, hrx⟩
        rw [hrun] at hrun'
        cases hrun'
      have hsame : (s.clients.map inbox).modify i (Option.map (· ++ [message])) =
          s.clients.map inbox := by
        refine List.ext_getElem? fun j ↦ ?_
        by_cases hij : i = j
        · subst hij
          rw [List.getElem?_modify]
          cases hi : (s.clients.map inbox)[i]? with
          | none => simp
          | some rx =>
            cases rx with
            | none => simp
            | some rx => exact absurd hi (hidle rx)
        · simp [hij]
      rw [hsame]
      refine Route.Move.drop (m := message) rfl fun j hj ↦ ?_
      cases hj
      exact hidle

theorem route_setClient (s : Service.State) (i : ℕ) (c : Client) :
    route (s.setClient i c) = { route s with inboxes := (route s).inboxes.set i (inbox c) } := by
  simp only [route, Service.State.setClient, List.map_set]

/-- A task that is out of its select has no receiving end left. -/
theorem route_setClient_eq {i : ℕ} {c c' : Client} (hc : s.clients[i]? = some c)
    (hinbox : inbox c' = inbox c) : route (s.setClient i c') = route s := by
  have hi : (route s).inboxes[i]? = some (inbox c') := by rw [getElem?_inboxes, hc, hinbox]; rfl
  obtain ⟨hlt, heq⟩ := List.getElem?_eq_some_iff.1 hi
  rw [route_setClient, ← heq, List.set_getElem_self]

theorem pollWrite_routes {i : ℕ} {c : Client} {message : Message} {rx : List Message}
    (hc : s.clients[i]? = some c) (hphase : c.phase = .running) (hrx : c.rx = message :: rx) :
    Routes env s (.pollWrite i)
      (s.setClient i { c with rx := rx, sent := c.sent ++ [message] }) := by
  rw [Routes, route_setClient]
  have hinbox : (route s).inboxes[i]? = some (some (message :: rx)) := by
    rw [getElem?_inboxes, hc, Option.map_some, inbox, hphase, hrx]
    rfl
  have hleft : inbox { c with rx := rx, sent := c.sent ++ [message] } = some rx := by
    rw [inbox, hphase]
    rfl
  rw [hleft]
  exact .write hinbox

theorem finish_routes {i : ℕ} {c : Client} {reason : String} (hc : s.clients[i]? = some c)
    (hphase : c.phase = .running) : Routes env s (.finish i reason)
      (s.setClient i { c with phase := .ended reason, rx := [] }) := by
  rw [Routes, route_setClient]
  have hinbox : (route s).inboxes[i]? = some (some c.rx) := by
    rw [getElem?_inboxes, hc, Option.map_some, inbox, hphase]
    rfl
  exact .finish hinbox

theorem step_routes {a : Service.Action} (h : Service.step env s a = some t) :
    Routes env s a t := by
  obtain ⟨status, tx, loop, clients, toJs, fromJs, events, handlers, serviceStatus⟩ := s
  cases Service.step_outcome h with
  | login | control | invoke | submit | turnAway | ping | relay | emit | hear => exact .stay
  | confirm hloop | ignore hloop | reject hloop | accept hloop | reply hloop | start hloop
  | settle hloop | announce hloop | fail hloop | refuse hloop | connect hloop | miss hloop =>
    cases hloop
    exact .stay
  | misread hloop hjs hread =>
    cases hloop
    exact .same rfl rfl rfl (by rw [takes_recv hjs, hread]; rfl)
  | request hloop hjs hread hname =>
    cases hloop
    exact .same rfl rfl rfl (by rw [takes_recv hjs, hread]; simp [hname])
  | @other input fromJs message hloop hjs hread hname =>
    cases hloop
    rw [Routes, takes_recv hjs, hread, Option.filter_some, if_pos (by simpa using hname)]
    exact .take message rfl rfl
  | store hloop =>
    cases hloop
    have hstore := Route.Move.store (r := ⟨false, none, tx, clients.map inbox⟩) rfl rfl
    rw [List.length_map] at hstore
    exact hstore
  | spawn hloop =>
    cases hloop
    have hspawn := Route.Move.spawn (r := ⟨true, none, tx, clients.map inbox⟩) rfl
    rw [Routes, route, route, List.map_append]
    exact hspawn
  | forward hloop => exact forward_routes hloop
  | write hc hphase hrx => exact pollWrite_routes hc hphase hrx
  | finish hc hphase => exact finish_routes hc hphase
  | disconnect hc hphase | notify hc hphase =>
    exact .same (route_setClient_eq hc (by rw [inbox, inbox, hphase]; rfl)) rfl rfl rfl

end

/-- What `poll_write` of a connection has had to do with: what it has begun to write, holds or has
in its channel. -/
def submitted (w : Writers.State) : List Submission :=
  w.begun.filter (Writers.task · = .pollWrite) ++ w.pending .pollWrite

section

variable {w w' : Writers.State} {a : Writers.Action}

theorem submitted_step {asked : List Submission} (hs : w.writer.Sound Writers.task asked)
    (h : Writers.step w a = some w') :
    submitted w' = submitted w ++ a.asks.toList.filter (Writers.task · = .pollWrite) := by
  have hbefore := hs.order .pollWrite
  have hafter := (hs.move (Writers.step_moves h)).order .pollWrite
  rw [List.filter_append, hbefore] at hafter
  exact hafter.symm

theorem isOver_of_step (h : Writers.step w a = some w') : w.isOver = false := by
  simp only [Writers.step] at h
  split_ifs at h with hover
  exact eq_false_of_ne_true hover

theorem own_frame (ha : isOwn a = true) (h : Writers.step w a = some w') :
    w'.isOver = false ∧ w'.rx = w.rx ∧
      a.asks.toList.filter (Writers.task · = .pollWrite) = [] := by
  have hover := isOver_of_step h
  simp only [Writers.step] at h
  split_ifs at h
  cases a with
  | send | pollWrite | close => cases ha
  | onRecvPing ping =>
    obtain ⟨_, rfl⟩ := Writers.submit_eq h
    exact ⟨hover, rfl, rfl⟩
  | pingForever now =>
    obtain ⟨_, rfl⟩ := Writers.submit_eq h
    exact ⟨hover, rfl, rfl⟩
  | lock t =>
    simp only [Writers.lock] at h
    split at h
    · cases h
      exact ⟨hover, rfl, rfl⟩
    · cases h
  | write n =>
    simp only [Writers.write] at h
    split at h
    · split_ifs at h
      cases h
      exact ⟨hover, rfl, rfl⟩
    · cases h
  | unlock =>
    simp only [Writers.unlock] at h
    split at h
    · split_ifs at h
      cases h
      exact ⟨hover, rfl, rfl⟩
    · cases h

theorem pollWrite_frame (h : Writers.step w .pollWrite = some w') :
    w'.isOver = false ∧ ∃ m, w.rx = m :: w'.rx := by
  have hover := isOver_of_step h
  simp only [Writers.step, Writers.pollWrite] at h
  split_ifs at h
  split at h
  · rename_i message rx hrx
    obtain ⟨_, rfl⟩ := Writers.submit_eq h
    exact ⟨hover, message, hrx⟩
  · cases h

theorem send_eq {message : Message} (h : Writers.step w (.send message) = some w') :
    w' = { w with rx := w.rx ++ [message] } := by
  simp only [Writers.step] at h
  split_ifs at h
  exact (Option.some.inj h).symm

end

/-- Who has which messages: those of a connection go to its writers in order, from its store on, up
to the one that the loop has in hand. -/
structure Routed (r : Route) (writers : ℕ → Writers.State) (stored : ℕ)
    (taken : ℕ → List Message) : Prop where
  count : stored = r.inboxes.length + r.making.toNat
  tx : ∀ i, r.tx = some i ↔ i + 1 = stored
  making : r.making = true → r.inHand = none ∧ taken stored = []
  unborn : ∀ k, stored < k → taken k = []
  sound : ∀ i, ∃ asked, (writers i).writer.Sound Writers.task asked
  fresh : ∀ i, r.inboxes.length ≤ i → writers i = .init
  inbox : ∀ i rx, r.inboxes[i]? = some (some rx) →
    (writers i).isOver = false ∧ (writers i).rx = rx
  behind : ∀ i, submitted (writers i) <+: (taken (i + 1)).map .forward
  current : ∀ i rx, r.inboxes[i]? = some (some rx) → i + 1 = stored →
    submitted (writers i) ++ r.inHand.toList.map .forward = (taken (i + 1)).map .forward

section

variable {r : Route} {writers : ℕ → Writers.State} {stored : ℕ} {taken : ℕ → List Message}

theorem Routed.take (h : Routed r writers stored taken) {m : Message} (hmaking : r.making = false)
    (hhand : r.inHand = none) :
    Routed { r with inHand := some m } writers stored
      (Function.update taken stored (taken stored ++ [m])) where
  count := h.count
  tx := h.tx
  making hm := by
    rw [hmaking] at hm
    cases hm
  unborn k hk := by
    rw [Function.update_of_ne (Nat.ne_of_gt hk)]
    exact h.unborn k hk
  sound := h.sound
  fresh := h.fresh
  inbox := h.inbox
  behind i := by
    by_cases hi : i + 1 = stored
    · subst hi
      rw [Function.update_self, List.map_append]
      exact (h.behind i).trans (List.prefix_append _ _)
    · rw [Function.update_of_ne hi]
      exact h.behind i
  current i rx hrx hi := by
    have hcurrent := h.current i rx hrx hi
    subst hi
    rw [hhand] at hcurrent
    rw [Function.update_self, List.map_append, ← hcurrent]
    simp

theorem Routed.store (h : Routed r writers stored taken) (hmaking : r.making = false)
    (hhand : r.inHand = none) :
    Routed { r with making := true, tx := some r.inboxes.length } writers (stored + 1) taken where
  count := by
    have hcount := h.count
    rw [hmaking] at hcount
    rw [hcount]
    rfl
  tx i := by
    have hcount := h.count
    rw [hmaking, Bool.toNat_false] at hcount
    rw [Option.some.injEq]
    omega
  making _ := ⟨hhand, h.unborn _ (Nat.lt_succ_self _)⟩
  unborn k hk := h.unborn k (Nat.lt_of_succ_lt hk)
  sound := h.sound
  fresh := h.fresh
  inbox := h.inbox
  behind := h.behind
  current i rx hrx hi := by
    -- The new connection has no task yet.
    have hlt := (List.getElem?_eq_some_iff.1 hrx).1
    have hcount := h.count
    rw [hmaking, Bool.toNat_false] at hcount
    dsimp only at hlt
    omega

theorem submitted_init : submitted .init = [] := rfl

theorem Routed.spawn (h : Routed r writers stored taken) (hmaking : r.making = true) :
    Routed { r with making := false, inboxes := r.inboxes ++ [some []] } writers stored taken := by
  have hcount := h.count
  rw [hmaking, Bool.toNat_true] at hcount
  obtain ⟨hhand, htaken⟩ := h.making hmaking
  have hinit := h.fresh r.inboxes.length le_rfl
  have hcases {i : ℕ} {rx : List Message} (hrx : (r.inboxes ++ [some []])[i]? = some (some rx)) :
      r.inboxes[i]? = some (some rx) ∧ i < r.inboxes.length ∨ i = r.inboxes.length ∧ rx = [] := by
    have hlt := (List.getElem?_eq_some_iff.1 hrx).1
    rw [List.length_append, List.length_singleton] at hlt
    by_cases hi : i < r.inboxes.length
    · rw [List.getElem?_append_left hi] at hrx
      exact .inl ⟨hrx, hi⟩
    · obtain rfl : i = r.inboxes.length := by omega
      rw [List.getElem?_concat_length] at hrx
      cases hrx
      exact .inr ⟨rfl, rfl⟩
  refine ⟨?_, h.tx, (fun hm ↦ by cases hm), h.unborn, h.sound, fun i hi ↦ ?_, fun i rx hrx ↦ ?_,
    h.behind, fun i rx hrx hi ↦ ?_⟩
  · rw [hcount, List.length_append, List.length_singleton]
    rfl
  · rw [List.length_append] at hi
    exact h.fresh i (by omega)
  · obtain ⟨hold, _⟩ | ⟨rfl, rfl⟩ := hcases hrx
    · exact h.inbox i rx hold
    · rw [hinit]
      exact ⟨rfl, rfl⟩
  · obtain ⟨_, hlt⟩ | ⟨rfl, rfl⟩ := hcases hrx
    · omega
    · rw [hinit, submitted_init, hhand, hi, htaken]
      rfl

theorem Routed.drop (h : Routed r writers stored taken)
    (hnone : ∀ i, r.tx = some i → ∀ rx, r.inboxes[i]? ≠ some (some rx)) :
    Routed { r with inHand := none } writers stored taken where
  count := h.count
  tx := h.tx
  making hm := ⟨rfl, (h.making hm).2⟩
  unborn := h.unborn
  sound := h.sound
  fresh := h.fresh
  inbox := h.inbox
  behind := h.behind
  current i rx hrx hi := absurd hrx (hnone i ((h.tx i).2 hi) rx)

/-- The writers of one connection move. -/
theorem Routed.update (h : Routed r writers stored taken) {i : ℕ} {w : Writers.State}
    {x : Option (List Message)} {hand : Option Message} (hi : i < r.inboxes.length)
    (hsound : ∃ asked, w.writer.Sound Writers.task asked)
    (hx : ∀ rx, x = some rx → w.isOver = false ∧ w.rx = rx)
    (hbehind : submitted w <+: (taken (i + 1)).map .forward)
    (hcurrent : ∀ rx, x = some rx → i + 1 = stored →
      submitted w ++ hand.toList.map .forward = (taken (i + 1)).map .forward)
    (hhand : hand = r.inHand ∨ hand = none ∧ i + 1 = stored) :
    Routed { r with inHand := hand, inboxes := r.inboxes.set i x } (Function.update writers i w)
      stored taken where
  count := by
    rw [List.length_set]
    exact h.count
  tx := h.tx
  making hm := by
    refine ⟨?_, (h.making hm).2⟩
    obtain rfl | ⟨rfl, _⟩ := hhand
    · exact (h.making hm).1
    · rfl
  unborn := h.unborn
  sound j := by
    by_cases hj : j = i
    · subst hj
      rwa [Function.update_self]
    · rw [Function.update_of_ne hj]
      exact h.sound j
  fresh j hj := by
    rw [List.length_set] at hj
    rw [Function.update_of_ne (by omega)]
    exact h.fresh j hj
  inbox j rx hrx := by
    by_cases hj : j = i
    · subst hj
      rw [List.getElem?_set_self hi, Option.some.injEq] at hrx
      rw [Function.update_self]
      exact hx rx hrx
    · rw [List.getElem?_set_ne (Ne.symm hj)] at hrx
      rw [Function.update_of_ne hj]
      exact h.inbox j rx hrx
  behind j := by
    by_cases hj : j = i
    · subst hj
      rwa [Function.update_self]
    · rw [Function.update_of_ne hj]
      exact h.behind j
  current j rx hrx hstored := by
    by_cases hj : j = i
    · subst hj
      rw [List.getElem?_set_self hi, Option.some.injEq] at hrx
      rw [Function.update_self]
      exact hcurrent rx hrx hstored
    · rw [List.getElem?_set_ne (Ne.symm hj)] at hrx
      rw [Function.update_of_ne hj]
      obtain rfl | ⟨_, hi⟩ := hhand
      · exact h.current j rx hrx hstored
      · omega

theorem Routed.forward (h : Routed r writers stored taken) {i : ℕ} {m : Message}
    {rx : List Message} {w : Writers.State} (hhand : r.inHand = some m) (htx : r.tx = some i)
    (hrx : r.inboxes[i]? = some (some rx)) (hw : Writers.step (writers i) (.send m) = some w) :
    Routed { r with inHand := none, inboxes := r.inboxes.set i (some (rx ++ [m])) }
      (Function.update writers i w) stored taken := by
  have hstored := (h.tx i).1 htx
  obtain ⟨asked, hsound⟩ := h.sound i
  obtain ⟨hover, hinbox⟩ := h.inbox i rx hrx
  have hcurrent := h.current i rx hrx hstored
  have hsubmitted : submitted w = (taken (i + 1)).map .forward := by
    rw [submitted_step hsound hw, ← hcurrent, hhand]
    rfl
  refine h.update (List.getElem?_eq_some_iff.1 hrx).1 ⟨_, hsound.move (Writers.step_moves hw)⟩ ?_
    (hsubmitted ▸ List.prefix_rfl) (fun _ _ _ ↦ ?_) (.inr ⟨rfl, hstored⟩)
  · intro rx' hrx'
    cases hrx'
    rw [send_eq hw]
    exact ⟨hover, congrArg (· ++ [m]) hinbox⟩
  · rw [hsubmitted]
    exact List.append_nil _

/-- Steps of a connection's writers that hand nothing over to them. -/
theorem Routed.inner (h : Routed r writers stored taken) {i : ℕ} {rx : List Message}
    {x : Option (List Message)} {w : Writers.State} {a : Writers.Action}
    (hrx : r.inboxes[i]? = some (some rx)) (hw : Writers.step (writers i) a = some w)
    (ha : a.asks.toList.filter (Writers.task · = .pollWrite) = [])
    (hx : ∀ rx', x = some rx' → w.isOver = false ∧ w.rx = rx') :
    Routed { r with inboxes := r.inboxes.set i x } (Function.update writers i w) stored taken := by
  obtain ⟨asked, hsound⟩ := h.sound i
  have hsubmitted : submitted w = submitted (writers i) := by
    rw [submitted_step hsound hw, ha, List.append_nil]
  refine h.update (List.getElem?_eq_some_iff.1 hrx).1 ⟨_, hsound.move (Writers.step_moves hw)⟩ hx
    (hsubmitted ▸ h.behind i) (fun _ _ hstored ↦ ?_) (.inl rfl)
  rw [hsubmitted]
  exact h.current i rx hrx hstored

theorem follow_eq {writers' : ℕ → Writers.State} {i : ℕ} {a : Writers.Action}
    (h : follow writers (some (i, a)) = some writers') :
    ∃ w, Writers.step (writers i) a = some w ∧ Function.update writers i w = writers' :=
  Option.map_eq_some_iff.1 h

theorem Routed.move {r' : Route} {partner : Option (ℕ × Writers.Action)} {store : Bool}
    {take : Option Message} {writers' : ℕ → Writers.State} (h : Routed r writers stored taken)
    (hm : r.Move partner store take r') (hf : follow writers partner = some writers') :
    Routed r' writers' (stored + store.toNat)
      (Function.update taken stored (taken stored ++ take.toList)) := by
  have htaken : Function.update taken stored (taken stored ++ (none : Option Message).toList) =
      taken := by
    rw [Option.toList_none, List.append_nil, Function.update_eq_self]
  cases hm with
  | stay =>
    cases hf
    exact htaken.symm ▸ h
  | take m hmaking hhand =>
    cases hf
    exact h.take hmaking hhand
  | store hmaking hhand =>
    cases hf
    exact htaken.symm ▸ h.store hmaking hhand
  | spawn hmaking =>
    cases hf
    exact htaken.symm ▸ h.spawn hmaking
  | drop hhand hnone =>
    cases hf
    exact htaken.symm ▸ h.drop hnone
  | forward hhand htx hrx =>
    obtain ⟨w, hw, rfl⟩ := follow_eq hf
    exact htaken.symm ▸ h.forward hhand htx hrx hw
  | @write i m rx hrx =>
    obtain ⟨w, hw, rfl⟩ := follow_eq hf
    refine htaken.symm ▸ h.inner hrx hw rfl fun rx' hrx' ↦ ?_
    obtain ⟨hover, m', hm'⟩ := pollWrite_frame hw
    rw [(h.inbox i _ hrx).2] at hm'
    cases hrx'
    exact ⟨hover, (List.cons.inj hm').2.symm⟩
  | finish hrx =>
    obtain ⟨w, hw, rfl⟩ := follow_eq hf
    exact htaken.symm ▸ h.inner hrx hw rfl fun rx' hrx' ↦ by cases hrx'

end

theorem routed_of_run {env : Env} {as : List Action} {s : State}
    (h : Run (step env) Any .init as s) :
    Routed (route s.service) s.writers s.stored s.taken := by
  refine h.invariant (I := fun s ↦ Routed (route s.service) s.writers s.stored s.taken)
    (fun s a t hs _ ht ↦ ?_) ?_
  · cases a with
    | service a =>
      simp only [step, Option.bind_eq_some_iff, Option.map_eq_some_iff] at ht
      obtain ⟨service, hservice, writers, hwriters, rfl⟩ := ht
      exact hs.move (step_routes hservice) hwriters
    | writer i a =>
      simp only [step, Option.ite_none_right_eq_some, Option.map_eq_some_iff] at ht
      obtain ⟨⟨hown, hrun⟩, writers, hwriters, rfl⟩ := ht
      obtain ⟨w, hw, rfl⟩ := follow_eq hwriters
      obtain ⟨rx, hrx⟩ := isRunning_iff.1 hrun
      obtain ⟨hover, hwrx, hasks⟩ := own_frame hown hw
      have hinner := hs.inner hrx hw hasks (x := some rx) fun rx' hrx' ↦ by
        cases hrx'
        exact ⟨hover, hwrx.trans (hs.inbox i rx hrx).2⟩
      obtain ⟨hlt, heq⟩ := List.getElem?_eq_some_iff.1 hrx
      rwa [← heq, List.set_getElem_self] at hinner
  · exact
      { count := rfl
        tx := fun i ↦ ⟨(fun hi ↦ by cases hi), fun hi ↦ absurd hi (Nat.succ_ne_zero i)⟩
        making := fun hm ↦ by cases hm
        unborn := fun _ _ ↦ rfl
        sound := fun _ ↦ ⟨_, Writers.sound_of_run (.nil _)⟩
        fresh := fun _ _ ↦ rfl
        inbox := fun i rx hrx ↦ by cases hrx
        behind := fun _ ↦ List.nil_prefix
        current := fun i rx hrx ↦ by cases hrx }

/-- A connection's writers never hold the service up, other than in taking a message out of the
channel before the one before it is written. -/
theorem service_is_not_held_up {env : Env} {as : List Action} {s : State}
    (h : Run (step env) Any .init as s) {a : Service.Action} {service : Service.State}
    (hs : Service.step env s.service a = some service)
    (ha : ∀ i, partner s.service a ≠ some (i, .pollWrite)) :
    (step env s (.service a)).isSome = true := by
  have hrouted := routed_of_run h
  have hroutes := step_routes hs
  rw [Routes] at hroutes
  have hfollow : (follow s.writers (partner s.service a)).isSome = true := by
    generalize partner s.service a = p, stores s.service a = b, takes env s.service a = m,
      route service = r at hroutes ha
    cases hroutes with
    | stay | take | store | spawn | drop => rfl
    | write => exact absurd rfl (ha _)
    | forward _ _ hrx =>
      have hover := (hrouted.inbox _ _ hrx).1
      simp [follow, Writers.step, hover]
    | finish hrx =>
      have hover := (hrouted.inbox _ _ hrx).1
      simp [follow, Writers.step, hover]
  obtain ⟨writers, hwriters⟩ := Option.isSome_iff_exists.1 hfollow
  simp [step, hs, hwriters]

/-- What `poll_write` writes to the socket of a connection are the first of the messages that the
loop took from the page after storing the sender of that connection and before storing the next. -/
theorem connection_carries_its_own_messages {env : Env} {as : List Action} {s : State}
    (h : Run (step env) Any .init as s) (i : ℕ) :
    ∃ written begun, written <+: begun ∧ begun <+: s.taken (i + 1) ∧
      (s.writers i).finished.filter (Writers.task · = .pollWrite) = written.map .forward ∧
      (s.writers i).begun.filter (Writers.task · = .pollWrite) = begun.map .forward ∧
      (s.writers i).socket =
        (s.writers i).finished.flatMap Writers.buf ++ (s.writers i).writer.cut ∧
      ∀ read : String → Option Message, (∀ m, read (Json.toString m) = some m) →
        ((s.writers i).finished.filter (Writers.task · = .pollWrite)).map
          (fun x ↦ read (Json.toString x.message)) = written.map some := by
  have hrouted := routed_of_run h
  obtain ⟨asked, hsound⟩ := hrouted.sound i
  have hbegun : (s.writers i).begun.filter (Writers.task · = .pollWrite) <+:
      (s.taken (i + 1)).map .forward := (List.prefix_append _ _).trans (hrouted.behind i)
  have hfinished : (s.writers i).finished <+: (s.writers i).begun := List.prefix_append _ _
  obtain ⟨begun, hprefix, hbegun⟩ := List.prefix_map_iff.1 hbegun
  have hwritten := hfinished.filter (Writers.task · = .pollWrite)
  rw [hbegun] at hwritten
  obtain ⟨written, hwprefix, hwritten⟩ := List.prefix_map_iff.1 hwritten
  refine ⟨written, begun, hwprefix, hprefix, hwritten, hbegun, hsound.stream, fun read hread ↦ ?_⟩
  rw [hwritten, List.map_map]
  exact List.map_congr_left fun m _ ↦ hread m

def forwarded (message : Message) (handler connection : ℕ) : List Action :=
  [.service (.invoke (Json.toString message)), .service (.js2rs handler), .service .recv,
    .service .advance, .service (.pollWrite connection), .writer connection (.lock .pollWrite),
    .writer connection (.write (Writers.buf (.forward message)).length),
    .writer connection .unlock]

def reconnection : List Action :=
  List.flatten [Service.connection.map .service, forwarded ⟨"a", ""⟩ 1 0,
    [.service (.finish 0 "reset"), .service (.disconnect 0), .service (.notify 0),
      .service .rs2js, .service .listen, .service (.login "h"), .service (.js2rs 2),
      .service .recv, .service .advance, .service .advance, .service (.doConnect (.ok ())),
      .service .advance, .service .advance, .service .advance, .service .advance],
    forwarded ⟨"b", ""⟩ 3 1]

theorem reconnection_carries_the_second_message :
    ∃ s, Run (step Service.pageEnv) Any .init reconnection s ∧ s.taken 1 = [⟨"a", ""⟩] ∧
      s.taken 2 = [⟨"b", ""⟩] ∧ ∃ begun, begun <+: [⟨"b", ""⟩] ∧
        [Submission.forward ⟨"b", ""⟩] = begun.map .forward := by
  have hrun : ∃ s, Run (step Service.pageEnv) Any .init reconnection s ∧
      (s.taken 1 = [⟨"a", ""⟩] ∧ s.taken 2 = [⟨"b", ""⟩] ∧
        (s.writers 1).begun = [.forward ⟨"b", ""⟩]) :=
    Run.exists_of_execute (by decide +kernel)
  obtain ⟨s, hs, hfirst, hsecond, hbegun⟩ := hrun
  obtain ⟨_, begun, _, hprefix, _, heq, _⟩ := connection_carries_its_own_messages hs 1
  rw [hbegun] at heq
  exact ⟨s, hs, hfirst, hsecond, begun, hsecond ▸ hprefix, heq⟩

end MusicRemote.Control.Routing
