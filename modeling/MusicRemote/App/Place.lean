import MusicRemote.App.Activity
import MusicRemote.Client.Queue

namespace MusicRemote.Client

open Foundation.Transition

/-- Where the only connection of a client is: with the call that puts it into the queue, in the
queue, with the call that opens it, on a channel, or with the call that has its terminal event,
before and after the channel is given back. -/
inductive Place
  | nowhere
  | pushing (k : ℕ)
  | queued
  | flying (k : ℕ) (stage : Stage) (channel : ℕ)
  | on (channel : ℕ) (state : ChannelState)
  | ending (k : ℕ)
  | leaving (k : ℕ)
  deriving DecidableEq

def Place.holder : Place → Option ℕ
  | .pushing k | .flying k _ _ | .ending k | .leaving k => some k
  | .nowhere | .queued | .on _ _ => none

def Place.isApart : Place → Bool
  | .flying _ _ _ | .on _ _ => false
  | .nowhere | .pushing _ | .queued | .ending _ | .leaving _ => true

def Place.tags (j : ℕ) : Place → Bool
  | .flying _ .configuring channel | .flying _ .opening channel | .on channel _ => channel = j
  | _ => false

/-- Where a call may stand when it has nothing to do but with this connection. -/
def Place.Allows (p : Place) (id : ℤ) (k : ℕ) : Pc → Prop
  | .pushing conn => p = .pushing k ∧ conn.id = id
  | .handling event channel connectionId =>
    connectionId = id ∧ p = if event.isTerminal then .ending k else .on channel .opened
  | .dispatching notice => notice.connectionId = id ∧
    if notice.type.isTerminal then p = .leaving k else ∃ j, p = .on j .opened
  | .inserting channel => p = .flying k .inserting channel
  | .tagging channel => p = .flying k .tagging channel
  | .configuring channel => p = .flying k .configuring channel
  | .opening channel => p = .flying k .opening channel
  | .looping | .searching _ | .erasing _ | .returned => True

/-- Nothing lies in the queue or on the channels but this connection. -/
structure Lies (id : ℤ) (p : Place) (queue : List Connection) (remnant : Connection)
    (channels : ℕ → Channel) : Prop where
  waiting : queue = [] ∨ p = .queued ∧ ∃ conn, queue = [conn] ∧ conn.id = id
  carried : ∀ k stage j, p = .flying k stage j → remnant.id = id
  used : ∀ j, (channels j).state = .closed ∨ p = .on j (channels j).state
  there : ∀ j state, p = .on j state → (channels j).state = state
  tagged : ∀ j, p.tags j = true → (channels j).ival = id

theorem Lies.apart {id : ℤ} {p : Place} {queue : List Connection} {remnant : Connection}
    {channels : ℕ → Channel} (hp : p.isApart = true)
    (hw : queue = [] ∨ p = .queued ∧ ∃ conn, queue = [conn] ∧ conn.id = id)
    (hc : ∀ j, (channels j).state = .closed) : Lies id p queue remnant channels where
  waiting := hw
  carried k stage j h := by
    rw [h] at hp
    cases hp
  used j := .inl (hc j)
  there j state h := by
    rw [h] at hp
    cases hp
  tagged j h := by cases p <;> cases hp <;> cases h

structure State.Alone (s : State) (id : ℤ) (p : Place) : Prop where
  calls : ∀ k pc, s.pcAt k = some pc → p.Allows id k pc
  lies : Lies id p s.connectQue s.remnant s.channels

def Pc.isEvent : Pc → Bool
  | .handling _ _ _ | .dispatching _ => true
  | _ => false

def Pc.mayEnd : Pc → Bool
  | .dispatching _ | .searching _ | .erasing _ => true
  | _ => false

def State.Networked (s : State) : Prop :=
  ∀ call ∈ s.calls, call.pc.isEvent = true → call.onNetwork = true

def State.delivers (s : State) (a : Action) : Option Notice :=
  match s.next a with
  | some (.dispatching notice) => some notice
  | _ => none

/-- The connection that a step takes out of the queue or off its channel, so that no event comes
for it. -/
def State.drops (s : State) (a : Action) : Option ℤ :=
  match s.next a with
  | some (.searching id) => (s.aliveConnects id).bind fun conn ↦
    if 0 ≤ conn.channel ∧ (s.channels conn.channel.toNat).state = .requested then
      some (s.channels conn.channel.toNat).ival
    else none
  | some (.erasing id) => if s.connectQue.any (·.id = id) then some id else none
  | _ => none

def State.ends (s : State) (a : Action) : Option ℤ :=
  match s.delivers a with
  | some notice => if notice.type.isTerminal then some notice.connectionId else none
  | none => s.drops a

structure Passage (s : State) (a : Action) (id : ℤ) (p p' : Place) : Prop where
  ends : ∀ i, s.ends a = some i → i = id ∧ p ≠ .nowhere ∧ p' = .nowhere
  stays : s.ends a = none → (p' = .nowhere ↔ p = .nowhere)
  opened : ∀ j, p = .on j .opened → (∀ channel event, a ≠ .fire channel event) → p' = p

theorem isTerminal_notice (event : IoEvent) (id : ℤ) :
    (event.notice id).type.isTerminal = event.isTerminal := by
  cases event with
  | onOpen status transport =>
    by_cases hs : status = 0 <;> simp [IoEvent.notice, IoEvent.isTerminal, hs, EventType.isTerminal]
  | onClose | onPacket => rfl

theorem connectionId_notice (event : IoEvent) (id : ℤ) : (event.notice id).connectionId = id := by
  cases event with
  | onOpen status transport => by_cases hs : status = 0 <;> simp [IoEvent.notice, hs]
  | onClose | onPacket => rfl

theorem next_eq_some {event : IoEvent} {old state : ChannelState}
    (h : event.next old = some state) :
    old ≠ .closed ∧ state = if event.isTerminal then .closed else .opened := by
  cases event with
  | onOpen status transport =>
    cases old <;> cases h
    by_cases hs : status = 0 <;> simp [IoEvent.isTerminal, hs]
  | onClose | onPacket =>
    cases old <;> cases h
    simp [IoEvent.isTerminal]

section

variable {residue : Connection → Connection} {s t u : State} {k i : ℕ} {id id' : ℤ}
  {p p' : Place} {pc pc' : Pc} {a : Action}

/-- A call that has no part in where the connection is may stand there wherever the connection
goes. -/
theorem Place.Allows.idle (h : p.Allows id i pc) (hi : p.holder ≠ some i)
    (ho : pc.isEvent = true → ∀ j, p ≠ .on j .opened) : p'.Allows id' i pc := by
  cases pc with
  | looping | searching | erasing | returned => trivial
  | pushing conn => exact absurd (by rw [h.1]; rfl) hi
  | inserting | tagging | configuring | opening =>
    simp only [Place.Allows] at h
    exact absurd (by rw [h]; rfl) hi
  | handling event channel connectionId =>
    obtain ⟨-, h⟩ := h
    split_ifs at h
    · exact absurd (by rw [h]; rfl) hi
    · exact absurd h (ho rfl channel)
  | dispatching notice =>
    obtain ⟨-, h⟩ := h
    split_ifs at h
    · exact absurd (by rw [h]; rfl) hi
    · exact absurd h.choose_spec (ho rfl _)

theorem Place.Allows.not_flight (h : p.Allows id i pc)
    (hp : ∀ k stage j, p ≠ .flying k stage j) : pc.flight = none := by
  cases pc with
  | inserting | tagging | configuring | opening =>
    simp only [Place.Allows] at h
    exact absurd h (hp _ _ _)
  | _ => rfl

namespace Passage

theorem stay (h : s.ends a = none) : Passage s a id p p where
  ends i hi := by
    rw [h] at hi
    cases hi
  stays _ := Iff.rfl
  opened _ _ _ := rfl

theorem go (h : s.ends a = none) (hp : p ≠ .nowhere) (hp' : p' ≠ .nowhere)
    (ho : ∀ j, p ≠ .on j .opened) : Passage s a id p p' where
  ends i hi := by
    rw [h] at hi
    cases hi
  stays _ := iff_of_false hp' hp
  opened j hj := absurd hj (ho j)

theorem leave (h : s.ends a = some id) (hp : p ≠ .nowhere) (ho : ∀ j, p ≠ .on j .opened) :
    Passage s a id p .nowhere where
  ends i hi := by
    rw [h] at hi
    exact ⟨(Option.some.inj hi).symm, hp, rfl⟩
  stays hn := by
    rw [h] at hn
    cases hn
  opened j hj := absurd hj (ho j)

end Passage

theorem closed_setChannel (h : ∀ j, (s.channels j).state = .closed) {channel : ℕ} {ch : Channel}
    (hch : ch.state = .closed) (j : ℕ) :
    ((s.setChannel channel ch).channels j).state = .closed := by
  by_cases hj : j = channel
  · rw [hj, channels_setChannel_self, hch]
  · rw [channels_setChannel_of_ne s hj, h]

namespace State.Alone

theorem goto (h : s.Alone id p) (hk : s.pcAt k = some pc) (hu : u.calls = s.calls)
    (hl : Lies id p' u.connectQue u.remnant u.channels) (hpc' : p'.Allows id k pc')
    (hothers : ∀ i pc, i ≠ k → p.Allows id i pc → p'.Allows id i pc) :
    (u.goto k pc').Alone id p' := by
  refine ⟨fun i pc hi ↦ ?_, hl⟩
  have hcalls : ∀ i, u.pcAt i = s.pcAt i := fun i ↦ by rw [State.pcAt, hu, State.pcAt]
  rw [pcAt_goto ((hcalls k).trans hk), hcalls] at hi
  split_ifs at hi with hik
  · rw [hik, ← Option.some.inj hi]
    exact hpc'
  · exact hothers i pc hik (h.calls i pc hi)

/-- The call does something else and the connection stays where it is. -/
theorem keep (h : s.Alone id p) (hk : s.pcAt k = some pc) (hu : u.calls = s.calls)
    (hl : Lies id p u.connectQue u.remnant u.channels) (hpc' : p.Allows id k pc') :
    (u.goto k pc').Alone id p :=
  h.goto hk hu hl hpc' fun _ _ _ h ↦ h

/-- The call that has the connection passes it on. -/
theorem move (h : s.Alone id p) (hk : s.pcAt k = some pc) (hu : u.calls = s.calls)
    (hl : Lies id p' u.connectQue u.remnant u.channels) (hpc' : p'.Allows id k pc')
    (hp : p.holder = some k) : (u.goto k pc').Alone id p' := by
  refine h.goto hk hu hl hpc' fun i pc hik hi ↦ hi.idle ?_ fun _ j hj ↦ ?_
  · rw [hp, ne_eq, Option.some.injEq]
    exact Ne.symm hik
  · rw [hj] at hp
    cases hp

/-- A call takes up the connection or drops it. -/
theorem take (h : s.Alone id p) (hk : s.pcAt k = some pc) (hu : u.calls = s.calls)
    (hl : Lies id p' u.connectQue u.remnant u.channels) (hpc' : p'.Allows id k pc')
    (hp : p.holder = none) (ho : ∀ j, p ≠ .on j .opened) : (u.goto k pc').Alone id p' :=
  h.goto hk hu hl hpc' fun i pc _ hi ↦ hi.idle (by simp [hp]) fun _ ↦ ho

theorem queue_eq (h : s.Alone id p) (hp : p ≠ .queued) : s.connectQue = [] :=
  h.lies.waiting.resolve_right fun hq ↦ hp hq.1

theorem closed (h : s.Alone id p) (hp : ∀ j state, p ≠ .on j state) (j : ℕ) :
    (s.channels j).state = .closed :=
  (h.lies.used j).resolve_right (hp j _)

theorem place_of_state (h : s.Alone id p) {j : ℕ} {state : ChannelState}
    (hj : (s.channels j).state = state) (hs : state ≠ .closed) : p = .on j state :=
  hj ▸ (h.lies.used j).resolve_left fun hc ↦ hs (hj.symm.trans hc)

theorem conn_eq (h : s.Alone id p) {stage : Stage} {channel : ℕ}
    (hp : p = .flying k stage channel) : s.conn residue = residue s.remnant := by
  rw [State.conn, h.queue_eq (by simp [hp]), List.headD_nil]

theorem push (h : s.Alone id p) {conn : Connection} (hk : s.pcAt k = some (.pushing conn)) :
    (pushBack s k conn).Alone id .queued := by
  obtain ⟨hp, hid⟩ := h.calls k _ hk
  have hq := h.queue_eq (by simp [hp])
  refine h.move hk rfl (.apart rfl (.inr ⟨rfl, conn, by simp [hq], hid⟩) ?_) trivial
    (by rw [hp]; rfl)
  exact h.closed (by simp [hp])

theorem eof (h : s.Alone id p) {event : IoEvent} {channel : ℕ} {connectionId : ℤ}
    (hk : s.pcAt k = some (.handling event channel connectionId)) (he : event.isTerminal = true) :
    p = .ending k ∧ ((handleNetworkEOF s channel).goto k
      (.dispatching (event.notice connectionId))).Alone id (.leaving k) := by
  obtain ⟨hid, hp⟩ := h.calls k _ hk
  rw [if_pos he] at hp
  refine ⟨hp, h.move hk rfl (.apart rfl (.inl (h.queue_eq (by simp [hp]))) ?_)
    ⟨(connectionId_notice ..).trans hid, ?_⟩ (by rw [hp]; rfl)⟩
  · have hclosed := h.closed (by simp [hp])
    refine closed_setChannel hclosed ?_
    exact hclosed channel
  · rw [if_pos ((isTerminal_notice ..).trans he)]

/-- An element of the queue is the connection. -/
theorem waiting (h : s.Alone id p) {conn : Connection} {rest : List Connection}
    (hq : s.connectQue = conn :: rest) : p = .queued ∧ rest = [] ∧ conn.id = id := by
  rcases h.lies.waiting with hnil | ⟨hp, conn', hconn', hid⟩
  · rw [hq] at hnil
    cases hnil
  · rw [hq] at hconn'
    cases hconn'
    exact ⟨hp, rfl, hid⟩

theorem takeLast (h : s.Alone id p) {conn : Connection} {channel : ℕ} {avail : List ℕ}
    (hk : s.pcAt k = some .looping) (hq : s.connectQue = [conn]) :
    p = .queued ∧
      (State.goto { s with
        connectQue := []
        remnant := { conn with channel := channel }
        availChannelQueue := avail } k (.inserting channel)).Alone id
          (.flying k .inserting channel) := by
  obtain ⟨hp, -, hid⟩ := h.waiting hq
  refine ⟨hp, h.take hk rfl ⟨.inl rfl, fun _ _ _ _ ↦ hid, fun j ↦ .inl ?_, by simp,
    by simp [Place.tags]⟩ rfl (by rw [hp]; rfl) (by simp [hp])⟩
  exact h.closed (by simp [hp]) j

theorem insert (h : s.Alone id p) {conn : Connection} {channel : ℕ}
    (hk : s.pcAt k = some (.inserting channel)) :
    p = .flying k .inserting channel ∧
      (insertAlive s k conn channel).Alone id (.flying k .tagging channel) := by
  have hp : p = .flying k .inserting channel := h.calls k _ hk
  refine ⟨hp, h.move hk rfl ⟨.inl (h.queue_eq (by simp [hp])),
    fun _ _ _ _ ↦ h.lies.carried _ _ _ hp, fun j ↦ .inl ?_, by simp, by simp [Place.tags]⟩ rfl
    (by rw [hp]; rfl)⟩
  exact h.closed (by simp [hp]) j

theorem tag (h : s.Alone id p) {channel : ℕ} (hk : s.pcAt k = some (.tagging channel))
    (hkeeps : (residue s.remnant).id = s.remnant.id) :
    p = .flying k .tagging channel ∧
      (setIval s k (s.conn residue) channel).Alone id (.flying k .configuring channel) := by
  have hp : p = .flying k .tagging channel := h.calls k _ hk
  have hid := h.lies.carried _ _ _ hp
  rw [h.conn_eq hp]
  refine ⟨hp, h.move hk rfl ⟨.inl (h.queue_eq (by simp [hp])), fun _ _ _ _ ↦ hid,
    fun j ↦ .inl ?_, by simp, fun j hj ↦ ?_⟩ rfl (by rw [hp]; rfl)⟩
  · have hclosed := h.closed (by simp [hp])
    refine closed_setChannel hclosed ?_ j
    exact hclosed channel
  · obtain rfl : channel = j := of_decide_eq_true hj
    rw [channels_setChannel_self]
    exact hkeeps.trans hid

theorem configure (h : s.Alone id p) {conn : Connection} {channel : ℕ}
    (hk : s.pcAt k = some (.configuring channel)) :
    p = .flying k .configuring channel ∧
      (setRemoteEndpoint s k conn channel).Alone id (.flying k .opening channel) := by
  have hp : p = .flying k .configuring channel := h.calls k _ hk
  refine ⟨hp, h.move hk rfl ⟨.inl (h.queue_eq (by simp [hp])),
    fun _ _ _ _ ↦ h.lies.carried _ _ _ hp, fun j ↦ .inl ?_, by simp, fun j hj ↦ ?_⟩ rfl
    (by rw [hp]; rfl)⟩
  · have hclosed := h.closed (by simp [hp])
    refine closed_setChannel hclosed ?_ j
    exact hclosed channel
  · obtain rfl : channel = j := of_decide_eq_true hj
    rw [channels_setChannel_self]
    exact h.lies.tagged channel (by rw [hp]; exact hj)

theorem launch (h : s.Alone id p) {conn : Connection} {channel : ℕ}
    (hk : s.pcAt k = some (.opening channel)) :
    p = .flying k .opening channel ∧
      (openChannel s k conn channel).Alone id (.on channel .requested) := by
  have hp : p = .flying k .opening channel := h.calls k _ hk
  have hclosed := h.closed (by simp [hp])
  refine ⟨hp, h.move hk rfl ⟨.inl (h.queue_eq (by simp [hp])), by simp, fun j ↦ ?_,
    fun j state hj ↦ ?_, fun j hj ↦ ?_⟩ trivial (by rw [hp]; rfl)⟩
  · by_cases hj : j = channel
    · subst hj
      right
      simp [hclosed j]
    · left
      dsimp only
      rw [channels_setChannel_of_ne s hj]
      exact hclosed j
  · cases hj
    simp [hclosed channel]
  · obtain rfl : channel = j := of_decide_eq_true hj
    dsimp only
    rw [channels_setChannel_self]
    exact h.lies.tagged channel (by rw [hp]; exact hj)

/-- The call closes a channel. If it has just been requested, that is all there was. -/
theorem close (h : s.Alone id p) {connectionId : ℤ} {conn : Connection}
    (hk : s.pcAt k = some (.searching connectionId))
    (he : s.aliveConnects connectionId = some conn) :
    ∃ p', ((closeChannel s conn.channel).goto k .returned).Alone id p' ∧
      Passage s (.advance k) id p p' := by
  have hends : s.ends (.advance k) =
      if 0 ≤ conn.channel ∧ (s.channels conn.channel.toNat).state = .requested then
        some (s.channels conn.channel.toNat).ival else none := by
    simp [State.ends, State.delivers, State.drops, State.next, hk, he]
  unfold closeChannel
  split_ifs at hends ⊢ with hc
  · have hp := h.place_of_state hc.2 (by simp)
    have hid := h.lies.tagged conn.channel.toNat (by rw [hp]; simp [Place.tags])
    refine ⟨.nowhere, h.take hk rfl (.apart rfl (.inl (h.queue_eq (by simp [hp]))) fun j ↦ ?_)
      trivial (by rw [hp]; rfl) (by simp [hp]),
      .leave (by rw [hends, hid]) (by simp [hp]) (by simp [hp])⟩
    by_cases hj : j = conn.channel.toNat
    · rw [hj, channels_setChannel_self]
    · rw [channels_setChannel_of_ne s hj]
      refine (h.lies.used j).resolve_right fun hj' ↦ hj ?_
      rw [hp] at hj'
      injection hj' with hj'
      exact hj'.symm
  · exact ⟨p, h.keep hk rfl h.lies trivial, .stay hends⟩

theorem erase (h : s.Alone id p) {connectionId : ℤ} {r : Connection} {owed : List Connection}
    (hk : s.pcAt k = some (.erasing connectionId))
    (hany : s.connectQue.any (·.id = connectionId) = true) :
    connectionId = id ∧ p = .queued ∧
      (State.goto { s with
        connectQue := s.connectQue.eraseP (·.id = connectionId)
        remnant := r
        owed := owed } k .returned).Alone id .nowhere := by
  obtain hnil | ⟨hp, conn, hq, hid⟩ := h.lies.waiting
  · rw [hnil] at hany
    cases hany
  · obtain ⟨hc, hconn, heq⟩ := List.any_eq_true.1 hany
    rw [hq, List.mem_singleton] at hconn
    subst hconn
    have heq := of_decide_eq_true heq
    refine ⟨heq.symm.trans hid, hp, h.take hk rfl (.apart rfl (.inl ?_) ?_) trivial
      (by rw [hp]; rfl) (by simp [hp])⟩
    · simp [hq, heq]
    · exact h.closed (by simp [hp])

theorem stride (h : s.Alone id p) (hk : s.pcAt k = some pc)
    (hkeeps : keeps residue s (.advance k) = true) (ht : Stride residue s k pc t) :
    ∃ p', t.Alone id p' ∧ Passage s (.advance k) id p p' := by
  have hends (hpc : pc.mayEnd = false) : s.ends (.advance k) = none := by
    simp only [State.ends, State.delivers, State.drops, State.next, hk]
    cases pc with
    | dispatching | searching | erasing => cases hpc
    | _ => rfl
  cases ht with
  | push conn =>
    obtain ⟨hp, -⟩ := h.calls k _ hk
    exact ⟨_, h.push hk, .go (hends rfl) (by simp [hp]) (by simp)
      (by simp [hp])⟩
  | success transport channel connectionId =>
    obtain ⟨hid, hp⟩ := h.calls k _ hk
    exact ⟨p, h.keep hk rfl h.lies ⟨hid, channel, hp⟩, .stay (hends rfl)⟩
  | eof channel connectionId he =>
    obtain ⟨hp, hleaving⟩ := h.eof hk he
    exact ⟨_, hleaving, .go (hends rfl) (by simp [hp]) (by simp) (by simp [hp])⟩
  | packet packet channel connectionId =>
    obtain ⟨hid, hp⟩ := h.calls k _ hk
    exact ⟨p, h.keep hk rfl h.lies ⟨hid, channel, hp⟩, .stay (hends rfl)⟩
  | dispatch notice =>
    obtain ⟨hid, hp⟩ := h.calls k _ hk
    have hends : s.ends (.advance k) =
        if notice.type.isTerminal then some notice.connectionId else none := by
      simp [State.ends, State.delivers, State.next, hk]
    split_ifs at hp hends with hterminal
    · refine ⟨.nowhere, h.move hk rfl (.apart rfl (.inl (h.queue_eq (by simp [hp]))) ?_) trivial
        (by rw [hp]; rfl), .leave (by rw [hends, hid]) (by simp [hp]) (by simp [hp])⟩
      exact h.closed (by simp [hp])
    · exact ⟨p, h.keep hk rfl h.lies trivial, .stay hends⟩
  | takeLast hq _ =>
    obtain ⟨hp, hflying⟩ := h.takeLast hk hq
    exact ⟨_, hflying, .go (hends rfl) (by simp [hp]) (by simp) (by simp [hp])⟩
  | takeFront hq _ => cases (h.waiting hq).2.1
  | leave => exact ⟨p, h.keep hk rfl h.lies trivial, .stay (hends rfl)⟩
  | insert channel _ =>
    obtain ⟨hp, hflying⟩ := h.insert hk
    exact ⟨_, hflying, .go (hends rfl) (by simp [hp]) (by simp) (by simp [hp])⟩
  | tag channel =>
    obtain ⟨hp, hflying⟩ := h.tag hk (keeps_of_flight hk rfl hkeeps).1
    exact ⟨_, hflying, .go (hends rfl) (by simp [hp]) (by simp) (by simp [hp])⟩
  | configure channel =>
    obtain ⟨hp, hflying⟩ := h.configure hk
    exact ⟨_, hflying, .go (hends rfl) (by simp [hp]) (by simp) (by simp [hp])⟩
  | launch channel =>
    obtain ⟨hp, hon⟩ := h.launch hk
    exact ⟨_, hon, .go (hends rfl) (by simp [hp]) (by simp) (by simp [hp])⟩
  | close _ he => exact h.close hk he
  | search _ he =>
    refine ⟨p, h.keep hk rfl h.lies trivial, .stay ?_⟩
    simp [State.ends, State.delivers, State.drops, State.next, hk, he]
  | erase hany =>
    obtain ⟨hid, hp, hnowhere⟩ := h.erase hk hany
    refine ⟨.nowhere, hnowhere, .leave ?_ (by simp [hp]) (by simp [hp])⟩
    simp only [State.ends, State.delivers, State.drops, State.next, hk]
    rw [if_pos hany, hid]
  | miss hany =>
    refine ⟨p, h.keep hk rfl h.lies trivial, .stay ?_⟩
    simp only [State.ends, State.delivers, State.drops, State.next, hk]
    rw [if_neg (by simp [hany])]

theorem spawn {b : Bool} (hcalls : ∀ i pc, s.pcAt i = some pc → p.Allows id i pc)
    (hl : Lies id p s.connectQue s.remnant s.channels) (hpc : p.Allows id s.calls.length pc) :
    (s.spawn b pc).Alone id p := by
  refine ⟨fun i pc' hi ↦ ?_, hl⟩
  rw [pcAt_spawn] at hi
  split_ifs at hi with hlast
  · rw [hlast, ← Option.some.inj hi]
    exact hpc
  · exact hcalls i pc' hi

/-- Only the state of the channel changes that the connection is on. -/
theorem lies_setState (h : s.Alone id p) {channel : ℕ} {old state : ChannelState}
    (hp : p = .on channel old)
    (hp' : p' = .on channel state ∨ (∃ k, p' = .ending k) ∧ state = .closed) :
    Lies id p' s.connectQue s.remnant
      (s.setChannel channel { s.channels channel with state := state }).channels := by
  have hstate (j : ℕ) : ((s.setChannel channel { s.channels channel with
      state := state }).channels j).state = if j = channel then state else .closed := by
    split_ifs with hj
    · rw [hj, channels_setChannel_self]
    · rw [channels_setChannel_of_ne s hj]
      refine (h.lies.used j).resolve_right fun hj' ↦ hj ?_
      rw [hp] at hj'
      injection hj' with hj'
      exact hj'.symm
  have hq := h.queue_eq (by simp [hp])
  rcases hp' with rfl | ⟨⟨k, rfl⟩, rfl⟩
  · refine ⟨.inl hq, by simp, fun j ↦ ?_, fun j state' hj ↦ ?_, fun j hj ↦ ?_⟩
    · rw [hstate]
      split_ifs with hj
      · exact .inr (by rw [hj])
      · exact .inl rfl
    · cases hj
      rw [hstate, if_pos rfl]
    · obtain rfl : channel = j := of_decide_eq_true hj
      rw [channels_setChannel_self]
      exact h.lies.tagged channel (by rw [hp]; exact hj)
  · refine .apart rfl (.inl hq) fun j ↦ ?_
    rw [hstate, ite_self]

theorem process (h : s.Alone id p) {channel : ℕ} (hc : (s.channels channel).state = .requested) :
    p = .on channel .requested ∧
      (s.setChannel channel { s.channels channel with state := .connecting }).Alone id
        (.on channel .connecting) := by
  have hp := h.place_of_state hc (by simp)
  refine ⟨hp, fun i pc hi ↦ ?_, h.lies_setState hp (.inl rfl)⟩
  exact (h.calls i pc hi).idle (by simp [hp, Place.holder]) fun _ ↦ by simp [hp]

/-- Yasio fires an event when it has none to handle. -/
theorem fire (h : s.Alone id p) {channel : ℕ} {event : IoEvent} {state : ChannelState}
    (hidle : ∀ i pc, s.pcAt i = some pc → pc.isEvent = false)
    (hstate : event.next (s.channels channel).state = some state) :
    p ≠ .nowhere ∧ ∃ p', p' ≠ .nowhere ∧
      ((s.setChannel channel { s.channels channel with state := state }).spawn true
        (.handling event channel (s.channels channel).ival)).Alone id p' := by
  obtain ⟨hold, rfl⟩ := next_eq_some hstate
  have hp := h.place_of_state rfl hold
  have hid := h.lies.tagged channel (by rw [hp]; simp [Place.tags])
  refine ⟨by simp [hp],
    if event.isTerminal then .ending s.calls.length else .on channel .opened,
    ?_, spawn (fun i pc hi ↦ ?_) (h.lies_setState hp ?_) ⟨hid, rfl⟩⟩
  · split_ifs <;> simp
  · refine (h.calls i pc hi).idle (by simp [hp, Place.holder]) fun he ↦ ?_
    rw [hidle i pc hi] at he
    cases he
  · split_ifs with hterminal
    · exact .inr ⟨⟨_, rfl⟩, rfl⟩
    · exact .inl rfl

end State.Alone

theorem Networked.goto (h : s.Networked) (hu : u.calls = s.calls) (hk : s.pcAt k = some pc)
    (hpc : pc'.isEvent = true → pc.isEvent = true) : (u.goto k pc').Networked := by
  intro call hcall he
  obtain ⟨i, hi⟩ := List.getElem?_of_mem hcall
  simp only [State.goto, hu, List.getElem?_modify, Option.map_eq_map, Option.map_eq_some_iff] at hi
  obtain ⟨old, hold, rfl⟩ := hi
  split_ifs at he ⊢ with hik
  · subst hik
    rw [State.pcAt, hold, Option.map_some, Option.some.injEq] at hk
    exact h old (List.mem_of_getElem? hold) (hk ▸ hpc he)
  · exact h old (List.mem_of_getElem? hold) he

theorem Networked.spawn (h : s.Networked) {b : Bool} (hpc : pc.isEvent = true → b = true) :
    (s.spawn b pc).Networked := by
  intro call hcall he
  rcases List.mem_append.1 hcall with hcall | hcall
  · exact h call hcall he
  · obtain rfl := List.mem_singleton.1 hcall
    exact hpc he

/-- A call comes to no event that it did not have. -/
theorem stride_event (h : Stride residue s k pc t) : ∃ (u : State) (pc' : Pc), t = u.goto k pc' ∧
    u.calls = s.calls ∧ (pc'.isEvent = true → pc.isEvent = true) := by
  cases h with
  | close =>
    refine ⟨_, _, rfl, ?_, fun he ↦ by cases he⟩
    unfold closeChannel
    split_ifs <;> rfl
  | success | eof | packet => exact ⟨_, _, rfl, rfl, fun _ ↦ rfl⟩
  | _ => exact ⟨_, _, rfl, rfl, fun he ↦ by cases he⟩

theorem step_networked (h : s.Networked) (ht : step residue s a = some t) : t.Networked := by
  cases step_turn ht with
  | connect => exact Networked.spawn (s := { s with connectionIdSeed := _ }) h fun he ↦ by cases he
  | disconnect => exact Networked.spawn h fun he ↦ by cases he
  | process => exact h
  | fire => exact Networked.spawn (s := s.setChannel ..) h fun _ ↦ rfl
  | advance hk hs =>
    obtain ⟨u, pc', rfl, hu, hpc⟩ := stride_event hs
    exact Networked.goto h hu hk hpc

theorem events_idle (h : s.Networked) {channel : ℕ} {event : IoEvent}
    (ht : step residue s (.fire channel event) = some t) (hi : s.pcAt i = some pc) :
    pc.isEvent = false := by
  obtain ⟨call, hcall, rfl⟩ := Option.map_eq_some_iff.1 hi
  have hmem := List.mem_of_getElem? hcall
  simp only [step, fireEvent, Option.ite_none_left_eq_some, Bool.not_eq_true, List.any_eq_false,
    Bool.and_eq_true, bne_iff_ne, not_and, not_not] at ht
  cases he : call.pc.isEvent with
  | false => rfl
  | true =>
    rw [ht.1 call hmem (h call hmem he)] at he
    cases he

namespace State.Alone

theorem step (h : s.Alone id p) (hn : s.Networked) (hkeeps : keeps residue s a = true)
    (ha : ∀ host port kind, a ≠ .connect host port kind) (ht : step residue s a = some t) :
    ∃ p', t.Alone id p' ∧ Passage s a id p p' := by
  cases step_turn ht with
  | connect host port kind => exact absurd rfl (ha host port kind)
  | disconnect connectionId => exact ⟨p, spawn h.calls h.lies trivial, .stay rfl⟩
  | process hc =>
    obtain ⟨hp, hon⟩ := h.process hc
    exact ⟨_, hon, .go rfl (by simp [hp]) (by simp) (by simp [hp])⟩
  | fire hstate =>
    obtain ⟨hp, p', hp', hon⟩ := h.fire (fun i pc hi ↦ events_idle hn ht hi) hstate
    exact ⟨p', hon, (fun _ hi ↦ by cases hi), fun _ ↦ iff_of_false hp' hp,
      fun _ _ hf ↦ absurd rfl (hf _ _)⟩
  | advance hk hs => exact h.stride hk hkeeps hs

theorem connect (h : s.Alone id .nowhere) (host : String) (port kind : ℤ) :
    (connect s host port kind).Alone (s.connectionIdSeed + 1) (.pushing s.calls.length) := by
  refine spawn (s := { s with connectionIdSeed := _ }) (fun i pc hi ↦ ?_)
    (.apart rfl (.inl (h.queue_eq (by simp))) (h.closed (by simp))) ⟨rfl, rfl⟩
  exact (h.calls i pc hi).idle (by simp [Place.holder]) fun _ ↦ by simp

theorem not_isFlying (h : s.Alone id p) (hp : ∀ k stage j, p ≠ .flying k stage j) :
    s.isFlying = false := by
  refine List.any_eq_false.2 fun call hcall ↦ ?_
  obtain ⟨i, hi⟩ := List.getElem?_of_mem hcall
  have hflight := (h.calls i call.pc (by rw [State.pcAt, hi]; rfl)).not_flight hp
  rw [hflight]
  exact Bool.false_ne_true

theorem sole (h : s.Alone id p) (a : Action) : sole s a = true := by
  unfold Client.sole
  split
  · rename_i conn hnext
    cases a with
    | advance k =>
      obtain ⟨hp, -⟩ := h.calls k _ hnext
      rw [h.not_isFlying (by simp [hp])]
      rfl
    | _ => cases hnext
  · rcases h.lies.waiting with hq | ⟨-, conn, hq, -⟩ <;> simp [hq]
  · rfl

end State.Alone

end

theorem start_alone (n id : ℤ) : (start n).Alone id .nowhere where
  calls _ _ h := nomatch h
  lies := .apart rfl (.inl rfl) fun _ ↦ rfl

theorem start_networked (n : ℤ) : (start n).Networked := by
  intro call hcall
  cases hcall

end MusicRemote.Client
