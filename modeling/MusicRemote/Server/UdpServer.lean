import MusicRemote.Foundation.Dispatch
import MusicRemote.Server.UdpSession

namespace MusicRemote.Server.UdpServer

open Foundation Foundation.Transition Function

/-- What `recv_from` returns: the sender's address and at most 65535 bytes. -/
structure Datagram where
  addr : SocketAddr
  data : List UInt8
  deriving DecidableEq

/-- Where the task of a session stands: in `on_session_start`, in the `select!` of
`udp_session::run`, in `on_session_close`, before the `remove`, or after it. The receiver of the
channel, with what is queued there, belongs to `run` at first and then to the reading future: it
goes when `on_session_start` fails or the `select!` ends. -/
inductive Life
  | starting (queue : List Datagram)
  | selecting (session : UdpSession.State) (queue : List Datagram)
  | closing (session : UdpSession.State)
  | returned
  | removed

/-- The task that `run_server` spawns for an address. What it has taken from its channel, and how
many datagrams had been dealt with when it was spawned, is carried along. -/
structure Task where
  sessionId : UInt32
  addr : SocketAddr
  life : Life
  taken : List Datagram
  born : ℕ

/-- `run_server`: where its loop stands with a datagram, `session_id_seed`, the senders in
`hashmap`, each under the number of its task, and the tasks. The datagrams that the loop has dealt
with are carried along, and those among them that it has put into a channel. -/
structure State where
  loop : Dispatch.Loop Datagram
  sessionIdSeed : UInt32
  hashmap : SocketAddr → Option ℕ
  tasks : List Task
  handled : List Datagram
  put : List (Datagram × ℕ)

def State.start : State := ⟨.receiving, 0, fun _ ↦ none, [], [], []⟩

def State.received (s : State) : List Datagram := s.handled ++ s.loop.inHand.toList

/-- `sender.send`, which fails when the receiver is gone. -/
def Life.send (datagram : Datagram) : Life → Option Life
  | .starting queue => some (.starting (queue ++ [datagram]))
  | .selecting session queue => some (.selecting session (queue ++ [datagram]))
  | .closing _ | .returned | .removed => none

/-- The session goes on selecting, or drops its futures and the receiver with them. -/
def Life.after (session : UdpSession.State) (queue : List Datagram) : Life :=
  if session.phase = .selecting then .selecting session queue else .closing session

/-- A step of the session's `select!`. The reader takes the first datagram of the queue; it would
find the channel closed when the queue is empty and the sender gone from `hashmap`. -/
def Task.select (task : Task) (session : UdpSession.State) (queue : List Datagram)
    (registered stopped : Bool) (a : UdpSession.Action) : Option Task :=
  match a with
  | .receive (.frame data) =>
    match queue with
    | datagram :: queue =>
      if datagram.data = data then
        (UdpSession.step session a).map fun session ↦
          { task with life := .after session queue, taken := task.taken ++ [datagram] }
      else none
    | [] => none
  | .receiverClosed =>
    if queue = [] ∧ registered = false then
      (UdpSession.step session a).map fun session ↦ { task with life := .after session queue }
    else none
  | .shutdown =>
    if stopped then
      (UdpSession.step session a).map fun session ↦ { task with life := .after session queue }
    else none
  | _ => (UdpSession.step session a).map fun session ↦ { task with life := .after session queue }

inductive TaskAction
  | onSessionStart (now : ℕ)
  | startError
  | select (a : UdpSession.Action)
  | onSessionClose
  deriving DecidableEq

inductive Action
  | recvFrom (datagram : Datagram)
  | recvError
  | containsKey
  | insert
  | send
  | shutdown
  | task (i : ℕ) (a : TaskAction)
  | remove (i : ℕ)
  deriving DecidableEq

def State.isStopped (s : State) : Bool :=
  match s.loop with
  | .stopped _ => true
  | _ => false

/-- The sender in `hashmap` for the address, and the task behind it with the datagram sent there. -/
def State.sendTo (s : State) (datagram : Datagram) : Option (ℕ × Task) :=
  (s.hashmap datagram.addr).bind fun i ↦ s.tasks[i]?.bind fun task ↦
    (task.life.send datagram).map fun life ↦ (i, { task with life := life })

/-- A step of a task up to the end of `udp_session::run`. -/
def Task.step (task : Task) (registered stopped : Bool) : TaskAction → Option Task
  | .onSessionStart now =>
    match task.life with
    | .starting queue =>
      some { task with life := .selecting (.start task.addr true now) queue }
    | _ => none
  | .startError =>
    match task.life with
    | .starting _ => some { task with life := .returned }
    | _ => none
  | .select a =>
    match task.life with
    | .selecting session queue => task.select session queue registered stopped a
    | _ => none
  | .onSessionClose =>
    match task.life with
    | .closing session =>
      (UdpSession.step session .onSessionClose).map fun _ ↦ { task with life := .returned }
    | _ => none

/-- A step of the receiving loop, between two of its awaits; its end by `shutdown`, which may come
at each of them; or a step of a task. Each use of `hashmap` takes its lock anew. -/
def step (s : State) : Action → Option State
  | .recvFrom datagram =>
    match s.loop with
    | .receiving =>
      if datagram.data.length ≤ 65535 then some { s with loop := .looking datagram } else none
    | _ => none
  | .recvError =>
    match s.loop with
    | .receiving => some s
    | _ => none
  | .containsKey =>
    match s.loop with
    | .looking datagram =>
      if (s.hashmap datagram.addr).isSome then some { s with loop := .sending datagram }
      else some { s with loop := .inserting datagram }
    | _ => none
  | .insert =>
    match s.loop with
    | .inserting datagram =>
      some { s with
        loop := .sending datagram
        sessionIdSeed := s.sessionIdSeed + 1
        hashmap := update s.hashmap datagram.addr (some s.tasks.length)
        tasks := s.tasks ++
          [⟨s.sessionIdSeed + 1, datagram.addr, .starting [], [], s.handled.length⟩] }
    | _ => none
  | .send =>
    match s.loop with
    | .sending datagram =>
      match s.sendTo datagram with
      | some (i, task) =>
        some { s with
          loop := .receiving
          tasks := s.tasks.set i task
          handled := s.handled ++ [datagram]
          put := s.put ++ [(datagram, i)] }
      -- there is no entry any more, or `send` fails, which is only logged
      | none => some { s with loop := .receiving, handled := s.handled ++ [datagram] }
    | _ => none
  | .shutdown =>
    match s.loop with
    | .stopped _ => none
    | loop => some { s with loop := .stopped loop.inHand }
  | .remove i =>
    s.tasks[i]?.bind fun task ↦
      match task.life with
      | .returned =>
        some { s with
          hashmap := update s.hashmap task.addr none
          tasks := s.tasks.set i { task with life := .removed } }
      | _ => none
  | .task i a =>
    s.tasks[i]?.bind fun task ↦
      (task.step (s.hashmap task.addr = some i) s.isStopped a).map fun task ↦
        { s with tasks := s.tasks.set i task }

def Life.receiver : Life → Channel Datagram
  | .starting queue | .selecting _ queue => ⟨queue, true⟩
  | .closing _ | .returned | .removed => ⟨[], false⟩

def Life.isRemoved : Life → Bool
  | .removed => true
  | .starting _ | .selecting _ _ | .closing _ | .returned => false

def Task.worker (task : Task) : Dispatch.Worker SocketAddr Datagram :=
  ⟨task.addr, task.life.receiver, task.life.isRemoved, task.taken, task.born⟩

def State.view (s : State) : Dispatch.State SocketAddr Datagram :=
  ⟨s.loop, s.hashmap, s.tasks.map Task.worker, s.handled, s.put⟩

def State.receiving (s : State) (addr : SocketAddr) : Bool :=
  (s.hashmap addr).any fun i ↦ s.tasks[i]?.any (·.life.receiver.isOpen)

def State.stops (s : State) (i : ℕ) (a : TaskAction) : Bool :=
  s.tasks[i]?.any fun task ↦ task.life.receiver.isOpen &&
    (task.step (s.hashmap task.addr = some i) s.isStopped a).any (!·.life.receiver.isOpen)

def isReceive : TaskAction → Bool
  | .select (.receive (.frame _)) => true
  | _ => false

def label (s : State) : Action → Option (Dispatch.Action Datagram)
  | .recvFrom datagram => some (.arrive datagram)
  | .recvError => none
  | .containsKey => some .look
  | .insert => some .insert
  | .send => some .send
  | .shutdown => some .stop
  | .task i a =>
    if isReceive a then some (.take i) else if s.stops i a then some (.close i) else none
  | .remove i => some (.remove i)

section

variable {s t : State} {a : Action} {as : List Action} {task task' : Task} {i : ℕ}

theorem receiver_after (session : UdpSession.State) (queue : List Datagram) :
    (Life.after session queue).receiver = ⟨queue, true⟩ ∨
      (Life.after session queue).receiver = ⟨[], false⟩ := by
  unfold Life.after
  split
  · exact .inl rfl
  · exact .inr rfl

theorem isRemoved_after (session : UdpSession.State) (queue : List Datagram) :
    (Life.after session queue).isRemoved = false := by
  unfold Life.after
  split <;> rfl

/-- What a step of a task is for its worker: it takes a message, it drops its inbox, or nothing. -/
inductive Serves (w : Dispatch.Worker SocketAddr Datagram) :
    Bool → Dispatch.Worker SocketAddr Datagram → Prop
  | take (datagram : Datagram) (queue : List Datagram)
      (inbox : w.inbox = ⟨datagram :: queue, true⟩) :
      Serves w true { w with inbox := ⟨queue, true⟩, taken := w.taken ++ [datagram] }
  | close (isOpen : w.inbox.isOpen = true) : Serves w false { w with inbox := ⟨[], false⟩ }
  | stay : Serves w false w

theorem worker_eq {life : Life} (h : task.life = life) :
    task.worker = ⟨task.addr, life.receiver, life.isRemoved, task.taken, task.born⟩ := by
  rw [Task.worker, h]

theorem serves_after {session session' : UdpSession.State} {queue : List Datagram}
    (hlife : task.life = .selecting session queue) :
    Serves task.worker false { task with life := .after session' queue }.worker := by
  have hw : ({ task with life := .after session' queue } : Task).worker =
      ⟨task.addr, (Life.after session' queue).receiver, false, task.taken, task.born⟩ := by
    rw [Task.worker, isRemoved_after]
  rw [worker_eq hlife, hw]
  rcases receiver_after session' queue with h | h
  · rw [h]
    exact .stay
  · rw [h]
    exact .close rfl

theorem serves_select {session : UdpSession.State} {queue : List Datagram} {r st : Bool}
    {b : UdpSession.Action} (hlife : task.life = .selecting session queue)
    (h : task.select session queue r st b = some task') :
    Serves task.worker (isReceive (.select b)) task'.worker := by
  unfold Task.select at h
  split at h
  · -- the reader takes the head of the queue, and goes on selecting
    split at h
    · next datagram queue' =>
      simp only [Option.ite_none_right_eq_some, Option.map_eq_some_iff] at h
      obtain ⟨-, session', hstep, rfl⟩ := h
      rw [worker_eq hlife, Life.after, if_pos (UdpSession.phase_of_receive hstep)]
      exact .take datagram queue' rfl
    · cases h
  · simp only [Option.ite_none_right_eq_some, Option.map_eq_some_iff] at h
    obtain ⟨-, session', -, rfl⟩ := h
    exact serves_after hlife
  · simp only [Option.ite_none_right_eq_some, Option.map_eq_some_iff] at h
    obtain ⟨-, session', -, rfl⟩ := h
    exact serves_after hlife
  · next hreceive _ _ =>
    obtain ⟨session', -, rfl⟩ := Option.map_eq_some_iff.1 h
    have hfalse : isReceive (.select b) = false := by
      unfold isReceive
      split
      · next data heq => exact absurd (TaskAction.select.inj heq) (hreceive data)
      · rfl
    rw [hfalse]
    exact serves_after hlife

theorem serves_step {r st : Bool} {b : TaskAction} (h : task.step r st b = some task') :
    Serves task.worker (isReceive b) task'.worker := by
  unfold Task.step at h
  cases b with
  | onSessionStart now =>
    simp only at h
    split at h
    · next queue hlife =>
      cases h
      rw [worker_eq hlife]
      exact .stay
    · cases h
  | startError =>
    simp only at h
    split at h
    · next queue hlife =>
      cases h
      rw [worker_eq hlife]
      exact .close rfl
    · cases h
  | select b =>
    simp only at h
    split at h
    · next session queue hlife => exact serves_select hlife h
    · cases h
  | onSessionClose =>
    simp only at h
    split at h
    · next session hlife =>
      obtain ⟨session', -, rfl⟩ := Option.map_eq_some_iff.1 h
      rw [worker_eq hlife]
      exact .stay
    · cases h

theorem workers_view (s : State) (i : ℕ) :
    s.view.workers[i]? = s.tasks[i]?.map Task.worker := List.getElem?_map

theorem view_set (s : State) (hashmap : SocketAddr → Option ℕ) (i : ℕ) (task : Task) :
    ({ s with hashmap := hashmap, tasks := s.tasks.set i task } : State).view =
      { s.view with table := hashmap, workers := s.view.workers.set i task.worker } := by
  rw [State.view, List.map_set]
  rfl

theorem send_receiver (life : Life) (datagram : Datagram) :
    life.receiver.send datagram = (life.send datagram).map Life.receiver := by
  cases life <;> rfl

theorem exists_send_of_isOpen {life : Life} (h : life.receiver.isOpen = true)
    (datagram : Datagram) : ∃ life', life.send datagram = some life' := by
  cases life with
  | starting | selecting => exact ⟨_, rfl⟩
  | closing | returned | removed => cases h

theorem isRemoved_send {life life' : Life} {datagram : Datagram}
    (h : life.send datagram = some life') : life'.isRemoved = life.isRemoved := by
  cases life <;> cases h <;> rfl

theorem isRemoved_of_isOpen {life : Life} (h : life.receiver.isOpen = true) :
    life.isRemoved = false := by
  cases life with
  | starting | selecting => rfl
  | closing | returned | removed => cases h

theorem deliver_view (s : State) (datagram : Datagram) :
    s.view.deliver datagram.addr datagram =
      (s.sendTo datagram).map fun r ↦ (r.1, r.2.worker) := by
  rw [Dispatch.State.deliver, State.sendTo]
  change (s.hashmap datagram.addr).bind _ = _
  cases s.hashmap datagram.addr with
  | none => rfl
  | some i =>
    rw [Option.bind_some, Option.bind_some, workers_view]
    cases s.tasks[i]? with
    | none => rfl
    | some task =>
      rw [Option.map_some, Option.bind_some, Option.bind_some]
      change (task.life.receiver.send datagram).map _ = _
      rw [send_receiver]
      cases hlife : task.life.send datagram with
      | none => rfl
      | some life =>
        rw [Option.map_some, Option.map_some, Option.map_some, Option.map_some, Task.worker,
          Task.worker, isRemoved_send hlife]

theorem shown_task {b : TaskAction} (h : step s (.task i b) = some t) :
    Shown (Dispatch.step Datagram.addr) s.view (label s (.task i b)) t.view := by
  simp only [step, Option.bind_eq_some_iff, Option.map_eq_some_iff] at h
  obtain ⟨task, htask, task', hstep, rfl⟩ := h
  have hserves := serves_step hstep
  have hworker : s.view.workers[i]? = some task.worker := by rw [workers_view, htask]; rfl
  have hstops : s.stops i b = (task.worker.inbox.isOpen && !task'.worker.inbox.isOpen) := by
    rw [State.stops, htask, Option.any_some, hstep, Option.any_some]
    rfl
  have htable : s.view.table = s.hashmap := rfl
  rw [view_set s s.hashmap, label, hstops]
  generalize isReceive b = r at hserves
  generalize task'.worker = w at hserves
  cases hserves with
  | take datagram queue inbox =>
    simp [Shown, Dispatch.step, hworker, htable, Channel.recv, inbox]
  | close isOpen =>
    have hkept : task.worker.removed = false := isRemoved_of_isOpen isOpen
    simp [Shown, Dispatch.step, hworker, htable, isOpen, hkept, Channel.close]
  | stay =>
    obtain ⟨hi, hget⟩ := List.getElem?_eq_some_iff.1 hworker
    rw [← hget, List.set_getElem_self, Bool.and_not_self]
    rfl

theorem shown_view (h : step s a = some t) :
    Shown (Dispatch.step Datagram.addr) s.view (label s a) t.view := by
  cases a with
  | recvFrom datagram =>
    simp only [step] at h
    split at h
    · next hloop =>
      simp only [Option.ite_none_right_eq_some, Option.some.injEq] at h
      simp [Shown, label, Dispatch.step, State.view, hloop, ← h.2]
    · cases h
  | recvError =>
    simp only [step] at h
    split at h
    · cases h
      rfl
    · cases h
  | containsKey =>
    simp only [step] at h
    split at h
    · next datagram hloop =>
      split at h
      all_goals
        next hsome => cases h; simp [Shown, label, Dispatch.step, State.view, hloop, hsome]
    · cases h
  | insert =>
    simp only [step] at h
    split at h
    · next datagram hloop =>
      cases h
      simp [Shown, label, Dispatch.step, State.view, hloop, Task.worker, Life.receiver,
        Life.isRemoved, Channel.new]
    · cases h
  | send =>
    simp only [step] at h
    split at h
    · next datagram hloop =>
      have hview : s.view.loop = .sending datagram := hloop
      simp only [Shown, label, Dispatch.step, hview, deliver_view]
      split at h
      · next i task hsend =>
        cases h
        simp [hsend, State.view, List.map_set]
      · next hsend =>
        cases h
        simp [hsend, State.view]
    · cases h
  | shutdown =>
    simp only [step] at h
    split at h
    · cases h
    · next hloop =>
      cases h
      simp only [Shown, label, Dispatch.step]
      split
      · next m hm => exact absurd hm (hloop m)
      · rfl
  | task i b => exact shown_task h
  | remove i =>
    simp only [step, Option.bind_eq_some_iff] at h
    obtain ⟨task, htask, h⟩ := h
    split at h
    · next hlife =>
      cases h
      have hworker : s.view.workers[i]? = some task.worker := by rw [workers_view, htask]; rfl
      have hclosed : task.worker.removed = false ∧ task.worker.inbox.isOpen = false := by
        rw [worker_eq hlife]
        exact ⟨rfl, rfl⟩
      rw [view_set]
      simp only [Shown, label, Dispatch.step, hworker, Option.bind_some, if_pos hclosed]
      rw [worker_eq hlife]
      rfl
    · cases h

theorem view_start : State.start.view = .start SocketAddr Datagram := rfl

theorem dispatch_of_run (h : Run step Any .start as s) :
    Run (Dispatch.step Datagram.addr) Any (.start SocketAddr Datagram)
      (traced step label .start as) s.view :=
  view_start ▸ h.simulate State.view label fun _ _ _ _ _ _ hstep ↦ shown_view hstep

theorem exists_task {P : Dispatch.Worker SocketAddr Datagram → Prop} :
    (∃ w, s.view.workers[i]? = some w ∧ P w) ↔ ∃ task, s.tasks[i]? = some task ∧ P task.worker := by
  rw [workers_view]
  cases s.tasks[i]? with
  | none => simp
  | some task => simp

theorem worker_of_task (h : s.tasks[i]? = some task) : s.view.workers[i]? = some task.worker := by
  rw [workers_view, h]
  rfl

/-- An address has at most one session that has not left `hashmap`, which is the one it holds, so
each task removes its own entry. What a session takes from its channel has come from its address,
in the order of arrival. -/
theorem sessions_keep_to_their_addresses (h : Run step Any .start as s) :
    (∀ (i j : ℕ) task task', s.tasks[i]? = some task → s.tasks[j]? = some task' →
      task.addr = task'.addr → task.life.isRemoved = false → task'.life.isRemoved = false →
      i = j) ∧
    (∀ addr i, s.hashmap addr = some i ↔
      ∃ task, s.tasks[i]? = some task ∧ task.addr = addr ∧ task.life.isRemoved = false) ∧
    (∀ (i : ℕ) task t, s.tasks[i]? = some task → step s (.remove i) = some t →
      s.hashmap task.addr = some i) ∧
    ∀ (i : ℕ) task, s.tasks[i]? = some task →
      task.taken.Sublist ((s.received.drop task.born).filter fun d ↦ d.addr = task.addr) := by
  have hrun := dispatch_of_run h
  have howned := Dispatch.owned_of_run hrun
  have hentry : ∀ addr i, s.hashmap addr = some i ↔
      ∃ task, s.tasks[i]? = some task ∧ task.addr = addr ∧ task.life.isRemoved = false :=
    fun addr i ↦ (howned.entry addr i).trans exists_task
  refine ⟨fun i j task task' hi hj ↦ howned.unique (worker_of_task hi) (worker_of_task hj), hentry,
    fun i task t hi hstep ↦ ?_, fun i task hi ↦ ?_⟩
  · simp only [step, hi, Option.bind_some] at hstep
    split at hstep
    · next hlife => exact (hentry _ i).2 ⟨task, hi, rfl, by rw [hlife]; rfl⟩
    · cases hstep
  · have hfits := (Dispatch.traced_of_run hrun).fits i _ (worker_of_task hi)
    have hborn : task.born ≤ s.handled.length := hfits.born
    rw [State.received, List.drop_append_of_le_length hborn, List.filter_append]
    exact ((List.sublist_append_left ..).trans hfits.messages).trans (List.sublist_append_left ..)

def client : SocketAddr := ⟨[127, 0, 0, 1], 50000⟩

def datagrams : Datagram × Datagram := (⟨client, [1]⟩, ⟨client, [2]⟩)

/-- The first datagram starts a session, which reads it and is then silent for too long. -/
def timesOut : List Action :=
  [.recvFrom datagrams.1, .containsKey, .insert, .send, .task 0 (.onSessionStart 0),
    .task 0 (.select (.receive (.frame [1]))), .task 0 (.select (.checkActive .reader)),
    .task 0 (.select (.deliver true)), .task 0 (.select (.pass (11 * second))),
    .task 0 (.select .wakeTimer), .task 0 (.select .pollTimeout)]

def turnOver : List Action :=
  timesOut ++ [.task 0 .onSessionClose, .remove 0, .recvFrom datagrams.2, .containsKey, .insert,
    .send]

theorem sessions_keep_to_their_addresses_turnOver :
    ∃ s, Run step Any .start turnOver s ∧ s.hashmap client = some 1 ∧ s.tasks.length = 2 ∧
      ∀ (i : ℕ) task, s.tasks[i]? = some task →
        task.taken.Sublist ((s.received.drop task.born).filter fun d ↦ d.addr = task.addr) := by
  obtain ⟨s, h, hmap, hlen⟩ : ∃ s, Run step Any .start turnOver s ∧
      (s.hashmap client = some 1 ∧ s.tasks.length = 2) := Run.exists_of_execute (by decide +kernel)
  exact ⟨s, h, hmap, hlen, (sessions_keep_to_their_addresses h).2.2.2⟩

/-- The loop finds an address in `hashmap` only while its session receives, no session stops
receiving while the loop has a datagram to send to it, and `shutdown` comes while the loop waits for
a datagram. -/
def prompt (s : State) : Action → Bool
  | .containsKey =>
    match s.loop with
    | .looking datagram => (s.hashmap datagram.addr).isNone || s.receiving datagram.addr
    | _ => true
  | .task i a =>
    match s.loop with
    | .sending datagram => !s.stops i a || s.tasks[i]?.all (·.addr ≠ datagram.addr)
    | _ => true
  | .shutdown => s.loop = .receiving
  | _ => true

def Prompt (s : State) (a : Action) : Prop := prompt s a = true

instance (s : State) (a : Action) : Decidable (Prompt s a) :=
  inferInstanceAs (Decidable (prompt s a = true))

theorem listening_view (s : State) (addr : SocketAddr) :
    s.view.listening addr = s.receiving addr := by
  have hany : ∀ i : ℕ, s.view.workers[i]?.any (·.inbox.isOpen) =
      s.tasks[i]?.any (·.life.receiver.isOpen) := by
    intro i
    rw [workers_view, Option.any_map]
    rfl
  simp only [Dispatch.State.listening, hany]
  rfl

theorem prompt_view {b : Dispatch.Action Datagram} (hok : Prompt s a)
    (hlabel : label s a = some b) : Dispatch.Prompt Datagram.addr s.view b := by
  cases a with
  | recvFrom datagram => cases hlabel; trivial
  | recvError => cases hlabel
  | insert => cases hlabel; trivial
  | send => cases hlabel; trivial
  | remove i => cases hlabel; trivial
  | containsKey =>
    cases hlabel
    intro datagram hloop
    have hloop : s.loop = .looking datagram := hloop
    have hfound : s.hashmap datagram.addr = none ∨ s.receiving datagram.addr = true := by
      simpa [Prompt, prompt, hloop] using hok
    rw [listening_view]
    exact hfound
  | shutdown =>
    cases hlabel
    have hwaits : s.loop = .receiving := by simpa [Prompt, prompt] using hok
    exact hwaits
  | task i c =>
    rw [label] at hlabel
    split at hlabel
    · cases hlabel
      trivial
    · split at hlabel
      · next hstops =>
        cases hlabel
        intro datagram w hloop hw
        have hloop : s.loop = .sending datagram := hloop
        rw [workers_view] at hw
        obtain ⟨task, htask, rfl⟩ := Option.map_eq_some_iff.1 hw
        have hother : task.addr ≠ datagram.addr := by
          simpa [Prompt, prompt, hloop, hstops, htask] using hok
        exact hother
      · cases hlabel

theorem lossless_of_run (h : Run step Prompt .start as s) :
    Dispatch.Lossless Datagram.addr s.view := by
  have hrun : Run (Dispatch.step Datagram.addr) (Dispatch.Prompt Datagram.addr)
      (.start SocketAddr Datagram) (traced step label .start as) s.view :=
    view_start ▸ h.simulate_ok State.view label fun _ _ _ _ _ hok hstep ↦
      ⟨shown_view hstep, fun _ hlabel ↦ prompt_view hok hlabel⟩
  exact Dispatch.lossless_of_run hrun

theorem send_of_label {b : Action} (h : label s b = some .send) : b = .send := by
  cases b with
  | send => rfl
  | task i c =>
    rw [label] at h
    split at h
    · cases h
    · split at h <;> cases h
  | recvFrom | recvError | containsKey | insert | shutdown | remove => cases h

/-- A session that stops receiving while a datagram is on its way leaves its address without a
receiver. -/
theorem not_receiving_of_stops {b : TaskAction} (h : Run step Any .start as s)
    (hstep : step s (.task i b) = some t) (hstops : s.stops i b = true)
    (htask : s.tasks[i]? = some task) : t.receiving task.addr = false := by
  have hi : i < s.tasks.length := (List.getElem?_eq_some_iff.1 htask).1
  simp only [step, htask, Option.bind_some, Option.map_eq_some_iff] at hstep
  obtain ⟨task', hstep, rfl⟩ := hstep
  rw [State.stops, htask, Option.any_some, hstep, Option.any_some, Bool.and_eq_true,
    Bool.not_eq_true'] at hstops
  obtain ⟨hopen, hclosed⟩ := hstops
  have hentry : s.hashmap task.addr = some i :=
    ((Dispatch.owned_of_run (dispatch_of_run h)).entry task.addr i).2
      ⟨task.worker, worker_of_task htask, rfl, isRemoved_of_isOpen hopen⟩
  rw [State.receiving, hentry, Option.any_some, List.getElem?_set_self hi, Option.any_some, hclosed]

/-- A step that comes too early or too late leaves the datagram in hand without a receiver. -/
theorem not_receiving_of_not_prompt (h : Run step Any .start as s) (hstep : step s a = some t)
    (hlate : ¬ Prompt s a) :
    ∃ d, t.loop = .stopped (some d) ∨ t.loop = .sending d ∧ t.receiving d.addr = false := by
  cases a with
  | recvFrom | recvError | insert | send | remove => exact absurd rfl hlate
  | shutdown =>
    have hloop : s.loop ≠ .receiving := by simpa [Prompt, prompt] using hlate
    simp only [step] at hstep
    split at hstep
    · cases hstep
    · next hrunning =>
      cases hstep
      cases hl : s.loop with
      | receiving => exact absurd hl hloop
      | stopped inHand => exact absurd hl (hrunning inHand)
      | looking d | inserting d | sending d => exact ⟨d, .inl rfl⟩
  | containsKey =>
    rw [Prompt, prompt] at hlate
    split at hlate
    · next d hloop =>
      rw [Bool.or_eq_true, not_or, Option.isNone_iff_eq_none, Bool.not_eq_true] at hlate
      have hsome := Option.isSome_iff_ne_none.2 hlate.1
      simp only [step, hloop, if_pos hsome, Option.some.injEq] at hstep
      exact ⟨d, .inr (by rw [← hstep]; exact ⟨rfl, hlate.2⟩)⟩
    · exact absurd rfl hlate
  | task i b =>
    rw [Prompt, prompt] at hlate
    split at hlate
    · next d hloop =>
      rw [Bool.or_eq_true, not_or, Bool.not_eq_true', Bool.not_eq_false] at hlate
      obtain ⟨hstops, hall⟩ := hlate
      obtain ⟨task, htask⟩ : ∃ task, s.tasks[i]? = some task := by
        obtain ⟨task, htask, -⟩ := (Option.any_eq_true ..).1 hstops
        exact ⟨task, htask⟩
      have haddr : task.addr = d.addr := by simpa [htask] using hall
      refine ⟨d, .inr ⟨?_, haddr ▸ not_receiving_of_stops h hstep hstops htask⟩⟩
      simp only [step, htask, Option.bind_some, Option.map_eq_some_iff] at hstep
      obtain ⟨task', -, rfl⟩ := hstep
      exact hloop
    · exact absurd rfl hlate

/-- Then the datagram is lost, whatever happens before the loop sends it. -/
theorem lost_of_not_receiving {d : Datagram} (h : Run step Any s as t) (hloop : s.loop = .sending d)
    (hdeaf : s.receiving d.addr = false) (hsend : .send ∉ as) :
    t.put = s.put ∧ ∀ u, step t .send = some u → u.put = s.put := by
  have hrun : Run (Dispatch.step Datagram.addr) Any s.view (traced step label s as) t.view :=
    h.simulate State.view label fun _ _ _ _ _ _ hstep ↦ shown_view hstep
  have hsend' : Dispatch.Action.send ∉ traced step label s as := fun hmem ↦ by
    obtain ⟨u, b, hb, hlabel⟩ := Run.exists_of_mem_traced hmem
    exact hsend (send_of_label hlabel ▸ hb)
  obtain ⟨hdeaf', hput, hloop'⟩ :=
    Dispatch.lost_of_run hrun hloop ((listening_view s d.addr).trans hdeaf) hsend'
  refine ⟨hput, fun u hu ↦ ?_⟩
  have hstep : Dispatch.step Datagram.addr t.view .send = some u.view := shown_view hu
  have hturn := Dispatch.step_turn hstep
  have hview : u.view.put = t.view.put := by
    generalize u.view = v at hturn
    cases hturn with
    | put m i w loop entry worker isOpen =>
      -- the loop has the datagram of before in hand, and that one has no receiver
      rw [loop] at hloop'
      obtain rfl : m = d := by simpa using hloop'
      rw [Dispatch.State.listening, entry, Option.any_some, worker, Option.any_some,
        isOpen] at hdeaf'
      cases hdeaf'
    | lose => rfl
  exact hview.trans hput

theorem lost_of_not_prompt (h : Run step Any .start as s) (hstep : step s a = some t)
    (hlate : ¬ Prompt s a) :
    ∃ d, t.loop = .stopped (some d) ∨ t.loop = .sending d ∧
      ∀ bs u, Run step Any t bs u → .send ∉ bs →
        u.put = t.put ∧ ∀ v, step u .send = some v → v.put = t.put := by
  obtain ⟨d, hloop | ⟨hloop, hdeaf⟩⟩ := not_receiving_of_not_prompt h hstep hlate
  · exact ⟨d, .inl hloop⟩
  · exact ⟨d, .inr ⟨hloop, fun bs u hrun hsend ↦ lost_of_not_receiving hrun hloop hdeaf hsend⟩⟩

/-- While every step is prompt, each datagram that `recv_from` returns is put into the channel of a
session of its address that still receives. After one that is not, the loop stops with a datagram in
hand, or has one to send that no way of going on puts into a channel. -/
theorem datagrams_reach_an_open_receiver (h : Run step Prompt .start as s) :
    s.received = s.put.map Prod.fst ++ s.loop.inHand.toList ∧
    (s.isStopped = true → s.received = s.put.map Prod.fst) ∧
    (∀ d i, (d, i) ∈ s.put → ∃ task, s.tasks[i]? = some task ∧ task.addr = d.addr) ∧
    (∀ d t, s.loop = .sending d → step s .send = some t →
      ∃ i task, s.hashmap d.addr = some i ∧ s.tasks[i]? = some task ∧ task.addr = d.addr ∧
        task.life.receiver.isOpen = true ∧ t.put = s.put ++ [(d, i)]) ∧
    ∀ a t, step s a = some t → ¬ Prompt s a →
      ∃ d, t.loop = .stopped (some d) ∨ t.loop = .sending d ∧
        ∀ bs u, Run step Any t bs u → .send ∉ bs →
          u.put = t.put ∧ ∀ v, step u .send = some v → v.put = t.put := by
  have hl := lossless_of_run h
  have hput : s.put.map Prod.fst = s.handled := hl.put
  have hany := dispatch_of_run h.any
  refine ⟨by rw [State.received, hput], fun hstopped ↦ ?_, fun d i hd ↦ ?_,
    fun d t hloop hstep ↦ ?_, fun a t ↦ lost_of_not_prompt h.any⟩
  · rw [State.isStopped] at hstopped
    split at hstopped
    · next inHand hloop =>
      rw [State.received, hput, hloop, hl.stopped inHand hloop]
      exact List.append_nil _
    · cases hstopped
  · exact exists_task.1 ((Dispatch.traced_of_run hany).put d i hd)
  · obtain ⟨i, w, hi, hw, hopen⟩ := Dispatch.exists_of_listening (hl.sending d hloop)
    rw [workers_view] at hw
    obtain ⟨task, htask, rfl⟩ := Option.map_eq_some_iff.1 hw
    obtain ⟨w, hw, haddr, -⟩ := ((Dispatch.owned_of_run hany).entry d.addr i).1 hi
    cases (worker_of_task htask).symm.trans hw
    obtain ⟨life, hlife⟩ := exists_send_of_isOpen hopen d
    have hi' : s.hashmap d.addr = some i := hi
    have hsend : s.sendTo d = some (i, { task with life := life }) := by
      rw [State.sendTo, hi', Option.bind_some, htask, Option.bind_some, hlife]
      rfl
    simp only [step, hloop, hsend, Option.some.injEq] at hstep
    exact ⟨i, task, hi, htask, haddr, hopen, by rw [← hstep]⟩

theorem datagrams_reach_an_open_receiver_turnOver :
    ∃ s, Run step Prompt .start turnOver s ∧ s.put = [(datagrams.1, 0), (datagrams.2, 1)] ∧
      s.received = s.put.map Prod.fst ++ s.loop.inHand.toList := by
  obtain ⟨s, h, hput⟩ : ∃ s, Run step Prompt .start turnOver s ∧
      s.put = [(datagrams.1, 0), (datagrams.2, 1)] := Run.exists_of_execute (by decide +kernel)
  exact ⟨s, h, hput, (datagrams_reach_an_open_receiver h).1⟩

/-- The session has ended and is still in `hashmap`: its channel takes no more. -/
def stale : List Action := timesOut ++ [.recvFrom datagrams.2, .containsKey, .send]

/-- The session leaves `hashmap` after the loop has found it there. -/
def vanishing : List Action :=
  timesOut ++ [.task 0 .onSessionClose, .recvFrom datagrams.2, .containsKey, .remove 0, .send]

theorem datagrams_dropped_at_turn_over :
    (∃ s, Run step Any .start stale s ∧ s.received = [datagrams.1, datagrams.2] ∧
      s.loop = .receiving ∧ s.put = [(datagrams.1, 0)]) ∧
    ∃ s, Run step Any .start vanishing s ∧ s.received = [datagrams.1, datagrams.2] ∧
      s.loop = .receiving ∧ s.put = [(datagrams.1, 0)] :=
  ⟨Run.exists_of_execute (by decide +kernel), Run.exists_of_execute (by decide +kernel)⟩

end

end MusicRemote.Server.UdpServer
