import Mathlib.Logic.Function.Basic
import MusicRemote.Foundation.Transition
import MusicRemote.Protocol.Json

namespace MusicRemote.Client

open Protocol.Json

structure Connection where
  host : String
  port : ℤ
  id : ℤ
  kind : ℤ
  channel : ℤ
  transport : Option ℕ
  deriving DecidableEq

/-- How far yasio is with a channel: an open request that its loop has not yet taken up can
still be withdrawn without an event. -/
inductive ChannelState
  | closed
  | requested
  | connecting
  | opened
  deriving DecidableEq

structure Channel where
  ival : ℤ
  host : String
  port : UInt16
  kind : ℤ
  state : ChannelState
  deriving DecidableEq

inductive IoEvent
  | onOpen (status : ℤ) (transport : ℕ)
  | onClose (status : ℤ)
  | onPacket (packet : List UInt8)
  deriving DecidableEq

inductive EventType
  | onConnectSuccess
  | onConnectFailed
  | onDisconnect
  | onRecvData
  deriving DecidableEq

structure Notice where
  type : EventType
  connectionId : ℤ
  data : List UInt8
  deriving DecidableEq

def errorData (what : String) (status : ℤ) : List UInt8 :=
  asBytes (what ++ ", internal error code: " ++ toString status) ++ [0]

/-- Where a call of the client stands: before a section under a lock, or before a call of
yasio. The places from `inserting` to `opening` are in the body of `doConnect`, after the
element has been erased, with the channel taken. -/
inductive Pc
  | pushing (conn : Connection)
  | handling (event : IoEvent) (channel : ℕ) (connectionId : ℤ)
  | dispatching (notice : Notice)
  | looping
  | inserting (channel : ℕ)
  | tagging (channel : ℕ)
  | configuring (channel : ℕ)
  | opening (channel : ℕ)
  | searching (connectionId : ℤ)
  | erasing (connectionId : ℤ)
  | returned
  deriving DecidableEq

structure Call where
  onNetwork : Bool
  pc : Pc
  deriving DecidableEq

/-- A call of `m_service->open`: the channel with its user data, its remote endpoint and
kind, and the channel of the entry for that id. -/
structure Opening where
  channel : ℕ
  id : ℤ
  host : String
  port : UInt16
  kind : ℤ
  entry : Option ℤ
  deriving DecidableEq

/-- The client and the channels of its service. The element last destroyed in the first slot
of the vector is `remnant`. What has been opened, and what has been put into the queue and not
been removed from it by `disconnect`, is kept for the record. -/
structure State where
  connectionIdSeed : ℤ
  connectQue : List Connection
  remnant : Connection
  availChannelQueue : List ℕ
  aliveConnects : ℤ → Option Connection
  channels : ℕ → Channel
  calls : List Call
  notices : List Notice
  opens : List Opening
  owed : List Connection

def start (maxChannelCount : ℤ) : State where
  connectionIdSeed := 0
  connectQue := []
  remnant := ⟨"", 0, 0, 0, 0, none⟩
  availChannelQueue := List.range (if maxChannelCount ≤ 0 then 1 else maxChannelCount.toNat)
  aliveConnects _ := none
  channels _ := ⟨0, "", 0, 0, .closed⟩
  calls := []
  notices := []
  opens := []
  owed := []

def State.pcAt (s : State) (k : ℕ) : Option Pc := s.calls[k]?.map Call.pc

def State.goto (s : State) (k : ℕ) (pc : Pc) : State :=
  { s with calls := s.calls.modify k fun call ↦ { call with pc := pc } }

def State.spawn (s : State) (onNetwork : Bool) (pc : Pc) : State :=
  { s with calls := s.calls ++ [⟨onNetwork, pc⟩] }

def State.setChannel (s : State) (i : ℕ) (channel : Channel) : State :=
  { s with channels := Function.update s.channels i channel }

def Pc.isErasing : Pc → Bool
  | .erasing _ => true
  | _ => false

/-- `m_connectListLock` is free. It is held across two steps by `disconnect` only. -/
def State.listUnlocked (s : State) : Bool := !s.calls.any (·.pc.isErasing)

/-- The largest `int`. The sum past it is undefined. -/
def maxInt : ℤ := 2 ^ 31 - 1

def connect (s : State) (host : String) (port kind : ℤ) : State :=
  let id := s.connectionIdSeed + 1
  ({ s with connectionIdSeed := id }).spawn false (.pushing ⟨host, port, id, kind, -1, none⟩)

def pushBack (s : State) (k : ℕ) (conn : Connection) : State :=
  ({ s with connectQue := s.connectQue ++ [conn], owed := s.owed ++ [conn] }).goto k .looping

/-- The first section of the loop of `doConnect`. The channel is written to the first slot,
and the erase moves the other elements down or destroys it. -/
def takeFront (s : State) (k : ℕ) : State :=
  match s.connectQue, s.availChannelQueue with
  | [conn], channel :: avail =>
    ({ s with
      connectQue := []
      remnant := { conn with channel := channel }
      availChannelQueue := avail }).goto k (.inserting channel)
  | _ :: rest, channel :: avail =>
    ({ s with connectQue := rest, availChannelQueue := avail }).goto k (.inserting channel)
  | _, _ => s.goto k .returned

/-- What `conn` denotes after the erase: the element in the first slot or, when there is
none, what a destroyed one reads as. -/
def State.conn (residue : Connection → Connection) (s : State) : Connection :=
  s.connectQue.headD (residue s.remnant)

/-- `m_aliveConnects.insert`, which keeps an entry that is there. -/
def insertAlive (s : State) (k : ℕ) (conn : Connection) (channel : ℕ) : State :=
  let entry := (s.aliveConnects conn.id).getD conn
  ({ s with aliveConnects := Function.update s.aliveConnects conn.id (some entry) }).goto k
    (.tagging channel)

def setIval (s : State) (k : ℕ) (conn : Connection) (channel : ℕ) : State :=
  (s.setChannel channel { s.channels channel with ival := conn.id }).goto k (.configuring channel)

/-- `io_channel::set_port`, with the cast before it. -/
def setPort (remotePort : UInt16) (port : ℤ) : UInt16 :=
  if UInt16.ofInt port = 0 then remotePort else UInt16.ofInt port

def setRemoteEndpoint (s : State) (k : ℕ) (conn : Connection) (channel : ℕ) : State :=
  let ch : Channel := s.channels channel
  (s.setChannel channel { ch with host := conn.host, port := setPort ch.port conn.port }).goto k
    (.opening channel)

/-- `io_service::open`, which does nothing to a channel that is being connected. -/
def openChannel (s : State) (k : ℕ) (conn : Connection) (channel : ℕ) : State :=
  let ch : Channel := s.channels channel
  let opened : Channel := { ch with
    kind := conn.kind, state := if ch.state = .connecting then .connecting else .requested }
  let opening : Opening := ⟨channel, ch.ival, ch.host, ch.port, conn.kind,
    (s.aliveConnects ch.ival).map Connection.channel⟩
  ({ s.setChannel channel opened with opens := s.opens ++ [opening] }).goto k .looping

/-- `io_service::close`. A channel that is not just requested gets its event later. -/
def closeChannel (s : State) (index : ℤ) : State :=
  if 0 ≤ index ∧ (s.channels index.toNat).state = .requested then
    s.setChannel index.toNat { s.channels index.toNat with state := .closed }
  else s

def handleNetworkEOF (s : State) (channel : ℕ) : State :=
  let connectionId := (s.channels channel).ival
  { s.setChannel channel { s.channels channel with ival := -1 } with
    aliveConnects := Function.update s.aliveConnects connectionId none
    availChannelQueue := s.availChannelQueue ++ [channel] }

def handleNetworkEvent (s : State) (k : ℕ) (channel : ℕ) (connectionId : ℤ) :
    IoEvent → Option State
  | .onOpen status transport =>
    if s.listUnlocked then
      if status = 0 then
        let entry := (s.aliveConnects connectionId).map fun conn ↦
          { conn with transport := some transport }
        some (({ s with
          aliveConnects := Function.update s.aliveConnects connectionId entry }).goto k
          (.dispatching ⟨.onConnectSuccess, connectionId, []⟩))
      else
        some ((handleNetworkEOF s channel).goto k
          (.dispatching ⟨.onConnectFailed, connectionId, errorData "connect failed" status⟩))
    else none
  | .onClose status =>
    if s.listUnlocked then
      some ((handleNetworkEOF s channel).goto k
        (.dispatching ⟨.onDisconnect, connectionId, errorData "disconnect" status⟩))
    else none
  | .onPacket packet => some (s.goto k (.dispatching ⟨.onRecvData, connectionId, packet⟩))

/-- The first part of `disconnect`, which goes on to the queue when there is no entry. -/
def searchAlive (s : State) (k : ℕ) (connectionId : ℤ) : State :=
  match s.aliveConnects connectionId with
  | some conn => (closeChannel s conn.channel).goto k .returned
  | none => s.goto k (.erasing connectionId)

def eraseQueued (s : State) (k : ℕ) (connectionId : ℤ) : State :=
  if s.connectQue.any (·.id = connectionId) then
    ({ s with
      connectQue := s.connectQue.eraseP (·.id = connectionId)
      remnant := if s.connectQue.length = 1 then s.connectQue.headD s.remnant else s.remnant
      owed := s.owed.eraseP (·.id = connectionId) }).goto k .returned
  else s.goto k .returned

def advance (residue : Connection → Connection) (s : State) (k : ℕ) : Pc → Option State
  | .pushing conn => some (pushBack s k conn)
  | .handling event channel connectionId => handleNetworkEvent s k channel connectionId event
  | .dispatching notice => some (({ s with notices := s.notices ++ [notice] }).goto k .looping)
  | .looping => some (takeFront s k)
  | .inserting channel =>
    if s.listUnlocked then some (insertAlive s k (s.conn residue) channel) else none
  | .tagging channel => some (setIval s k (s.conn residue) channel)
  | .configuring channel => some (setRemoteEndpoint s k (s.conn residue) channel)
  | .opening channel => some (openChannel s k (s.conn residue) channel)
  | .searching connectionId => if s.listUnlocked then some (searchAlive s k connectionId) else none
  | .erasing connectionId => some (eraseQueued s k connectionId)
  | .returned => none

def IoEvent.next : IoEvent → ChannelState → Option ChannelState
  | .onOpen status _, .connecting => some (if status = 0 then .opened else .closed)
  | .onClose _, .opened => some .closed
  | .onPacket _, .opened => some .opened
  | _, _ => none

/-- Events come one at a time, on the thread of the service. -/
def fireEvent (s : State) (channel : ℕ) (event : IoEvent) : Option State :=
  if s.calls.any (fun call ↦ call.onNetwork && call.pc != .returned) then none
  else (event.next (s.channels channel).state).map fun state ↦
    (s.setChannel channel { s.channels channel with state := state }).spawn true
      (.handling event channel (s.channels channel).ival)

def processChannel (s : State) (channel : ℕ) : Option State :=
  if (s.channels channel).state = .requested then
    some (s.setChannel channel { s.channels channel with state := .connecting })
  else none

inductive Action
  | connect (host : String) (port kind : ℤ)
  | disconnect (connectionId : ℤ)
  | process (channel : ℕ)
  | fire (channel : ℕ) (event : IoEvent)
  | advance (k : ℕ)
  deriving DecidableEq

def step (residue : Connection → Connection) (s : State) : Action → Option State
  | .connect host port kind =>
    if s.connectionIdSeed < maxInt then some (connect s host port kind) else none
  | .disconnect connectionId => some (s.spawn false (.searching connectionId))
  | .process channel => processChannel s channel
  | .fire channel event => fireEvent s channel event
  | .advance k => (s.pcAt k).bind (advance residue s k)

def IoEvent.isTerminal : IoEvent → Bool
  | .onOpen status _ => status ≠ 0
  | .onClose _ => true
  | .onPacket _ => false

def IoEvent.notice (connectionId : ℤ) : IoEvent → Notice
  | .onOpen status _ =>
    if status = 0 then ⟨.onConnectSuccess, connectionId, []⟩
    else ⟨.onConnectFailed, connectionId, errorData "connect failed" status⟩
  | .onClose status => ⟨.onDisconnect, connectionId, errorData "disconnect" status⟩
  | .onPacket packet => ⟨.onRecvData, connectionId, packet⟩

def State.setTransport (s : State) (id : ℤ) (transport : ℕ) : State :=
  { s with
    aliveConnects := Function.update s.aliveConnects id
      ((s.aliveConnects id).map fun conn ↦ { conn with transport := some transport }) }

inductive Stride (residue : Connection → Connection) (s : State) (k : ℕ) : Pc → State → Prop
  | push (conn : Connection) : Stride residue s k (.pushing conn) (pushBack s k conn)
  | success (transport channel : ℕ) (id : ℤ) : s.listUnlocked = true →
      Stride residue s k (.handling (.onOpen 0 transport) channel id)
        ((s.setTransport id transport).goto k
          (.dispatching (IoEvent.notice id (.onOpen 0 transport))))
  | eof {event : IoEvent} (channel : ℕ) (id : ℤ) : event.isTerminal = true →
      s.listUnlocked = true → Stride residue s k (.handling event channel id)
        ((handleNetworkEOF s channel).goto k (.dispatching (event.notice id)))
  | packet (packet : List UInt8) (channel : ℕ) (id : ℤ) :
      Stride residue s k (.handling (.onPacket packet) channel id)
        (s.goto k (.dispatching (IoEvent.notice id (.onPacket packet))))
  | dispatch (notice : Notice) : Stride residue s k (.dispatching notice)
      (({ s with notices := s.notices ++ [notice] }).goto k .looping)
  | takeLast {conn : Connection} {channel : ℕ} {avail : List ℕ} : s.connectQue = [conn] →
      s.availChannelQueue = channel :: avail → Stride residue s k .looping
        (({ s with
            connectQue := []
            remnant := { conn with channel := channel }
            availChannelQueue := avail }).goto k (.inserting channel))
  | takeFront {conn next : Connection} {rest : List Connection} {channel : ℕ} {avail : List ℕ} :
      s.connectQue = conn :: next :: rest → s.availChannelQueue = channel :: avail →
      Stride residue s k .looping
        (({ s with connectQue := next :: rest, availChannelQueue := avail }).goto k
          (.inserting channel))
  | leave : s.connectQue = [] ∨ s.availChannelQueue = [] →
      Stride residue s k .looping (s.goto k .returned)
  | insert (channel : ℕ) : s.listUnlocked = true →
      Stride residue s k (.inserting channel) (insertAlive s k (s.conn residue) channel)
  | tag (channel : ℕ) :
      Stride residue s k (.tagging channel) (setIval s k (s.conn residue) channel)
  | configure (channel : ℕ) :
      Stride residue s k (.configuring channel) (setRemoteEndpoint s k (s.conn residue) channel)
  | launch (channel : ℕ) :
      Stride residue s k (.opening channel) (openChannel s k (s.conn residue) channel)
  | close {id : ℤ} {conn : Connection} : s.listUnlocked = true → s.aliveConnects id = some conn →
      Stride residue s k (.searching id) ((closeChannel s conn.channel).goto k .returned)
  | search {id : ℤ} : s.listUnlocked = true → s.aliveConnects id = none →
      Stride residue s k (.searching id) (s.goto k (.erasing id))
  | erase {id : ℤ} : s.connectQue.any (·.id = id) = true → Stride residue s k (.erasing id)
      (({ s with
          connectQue := s.connectQue.eraseP (·.id = id)
          remnant := if s.connectQue.length = 1 then s.connectQue.headD s.remnant else s.remnant
          owed := s.owed.eraseP (·.id = id) }).goto k .returned)
  | miss {id : ℤ} : s.connectQue.any (·.id = id) = false →
      Stride residue s k (.erasing id) (s.goto k .returned)

inductive Turn (residue : Connection → Connection) (s : State) : Action → State → Prop
  | connect (host : String) (port kind : ℤ) : s.connectionIdSeed < maxInt →
      Turn residue s (.connect host port kind) (connect s host port kind)
  | disconnect (id : ℤ) : Turn residue s (.disconnect id) (s.spawn false (.searching id))
  | process {channel : ℕ} : (s.channels channel).state = .requested →
      Turn residue s (.process channel)
        (s.setChannel channel { s.channels channel with state := .connecting })
  | fire {channel : ℕ} {event : IoEvent} {state : ChannelState} :
      event.next (s.channels channel).state = some state → Turn residue s (.fire channel event)
        ((s.setChannel channel { s.channels channel with state := state }).spawn true
          (.handling event channel (s.channels channel).ival))
  | advance {k : ℕ} {pc : Pc} {t : State} : s.pcAt k = some pc → Stride residue s k pc t →
      Turn residue s (.advance k) t

/-- A port that fits is what the channel has then. -/
theorem toNat_setPort {port : ℤ} (remotePort : UInt16) (h : 0 < port ∧ port < 2 ^ 16) :
    ((setPort remotePort port).toNat : ℤ) = port := by
  have hcast : ((UInt16.ofInt port).toNat : ℤ) = port := by
    rw [UInt16.ofInt]
    simp
    omega
  rw [setPort, if_neg fun hzero ↦ ?_, hcast]
  rw [hzero, UInt16.toNat_zero] at hcast
  omega

section

variable {residue : Connection → Connection} {s t : State} {k : ℕ} {pc : Pc}

theorem takeFront_stride (residue : Connection → Connection) (s : State) (k : ℕ) :
    Stride residue s k .looping (takeFront s k) := by
  unfold takeFront
  split
  · rename_i hq ha
    exact .takeLast hq ha
  · rename_i conn rest channel avail hne hq ha
    cases rest with
    | nil => exact absurd rfl hne
    | cons next rest => exact .takeFront hq ha
  · rename_i hno
    refine .leave ?_
    cases hq : s.connectQue with
    | nil => exact .inl rfl
    | cons conn rest =>
      cases ha : s.availChannelQueue with
      | nil => exact .inr rfl
      | cons channel avail => exact absurd ha (hno conn rest channel avail hq)

theorem handleNetworkEvent_stride {event : IoEvent} {channel : ℕ} {id : ℤ}
    (h : handleNetworkEvent s k channel id event = some t) :
    Stride residue s k (.handling event channel id) t := by
  cases event with
  | onOpen status transport =>
    simp only [handleNetworkEvent, Option.ite_none_right_eq_some] at h
    obtain ⟨hl, h⟩ := h
    split_ifs at h with hs <;> cases h
    · subst hs
      exact .success transport channel id hl
    · have heof := @Stride.eof residue s k (.onOpen status transport) channel id
        (by simp [IoEvent.isTerminal, hs]) hl
      simpa [IoEvent.notice, hs] using heof
  | onClose status =>
    simp only [handleNetworkEvent, Option.ite_none_right_eq_some, Option.some.injEq] at h
    obtain ⟨hl, rfl⟩ := h
    exact .eof channel id rfl hl
  | onPacket packet =>
    cases h
    exact .packet packet channel id

theorem advance_stride (h : advance residue s k pc = some t) : Stride residue s k pc t := by
  cases pc with
  | pushing conn => cases h; exact .push conn
  | handling event channel id => exact handleNetworkEvent_stride h
  | dispatching notice => cases h; exact .dispatch notice
  | looping => cases h; exact takeFront_stride residue s k
  | inserting channel =>
    simp only [advance, Option.ite_none_right_eq_some, Option.some.injEq] at h
    exact h.2 ▸ .insert channel h.1
  | tagging channel => cases h; exact .tag channel
  | configuring channel => cases h; exact .configure channel
  | opening channel => cases h; exact .launch channel
  | searching id =>
    simp only [advance, Option.ite_none_right_eq_some, Option.some.injEq] at h
    obtain ⟨hl, rfl⟩ := h
    unfold searchAlive
    split
    · rename_i conn he
      exact .close hl he
    · rename_i he
      exact .search hl he
  | erasing id =>
    cases h
    unfold eraseQueued
    split
    · rename_i hq
      exact .erase hq
    · rename_i hq
      exact .miss (Bool.eq_false_iff.2 hq)
  | returned => cases h

/-- Everything that a step can do. -/
theorem step_turn {a : Action} (h : step residue s a = some t) : Turn residue s a t := by
  cases a with
  | connect host port kind =>
    simp only [step, Option.ite_none_right_eq_some, Option.some.injEq] at h
    exact h.2 ▸ .connect host port kind h.1
  | disconnect id => cases h; exact .disconnect id
  | process channel =>
    simp only [step, processChannel, Option.ite_none_right_eq_some, Option.some.injEq] at h
    exact h.2 ▸ .process h.1
  | fire channel event =>
    simp only [step, fireEvent] at h
    split_ifs at h
    obtain ⟨state, hs, rfl⟩ := Option.map_eq_some_iff.1 h
    exact .fire hs
  | advance k =>
    obtain ⟨pc, hpc, h⟩ := Option.bind_eq_some_iff.1 h
    exact .advance hpc (advance_stride h)

end

end MusicRemote.Client
