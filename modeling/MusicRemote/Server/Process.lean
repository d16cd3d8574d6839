import MusicRemote.Server.Shutdown
import MusicRemote.Server.WindDown

namespace MusicRemote.Server

open Foundation Foundation.Transition Protocol Protocol.Json Protocol.Framing
open Tcp (Main Task TaskAction taskStep)

def Phase.stage : Phase → Option Tcp.Stage
  | .absent => none
  | .starting => some .starting
  | .selecting _ => some .selecting
  | .closing | .removing => some .closing
  | .closed => some .dropping

structure Steady (s s' : State) : Prop where
  spawned : s'.spawned = s.spawned
  shutdown : s'.shutdown = s.shutdown
  stage : ∀ u, (s'.session u).phase.stage = (s.session u).phase.stage

namespace Process

/-- `main` uses neither TLS nor a callback for new streams. -/
def config : Tcp.Config := ⟨false, false⟩

structure State where
  tcp : Tcp.State
  server : Server.State

def State.init : State := ⟨config.init, .init⟩

def ends (s : Server.State) (t : ℕ) (ok : Bool) : Bool :=
  (pollWrite s t ok).any fun s' ↦ (s'.session t).phase = .closing

/-- The step of `build_with_listener`, or of the task that it has spawned, that a step of the
sessions is. -/
def partner (s : Server.State) : Server.Action → Option Tcp.Action
  | .spawn => some (.accept true)
  | .start t => some (.task t (.onSessionStart true))
  | .write t ok => if ends s t ok then some (.task t (.endSelect .pollWrite)) else none
  | .endSelect t => some (.task t (.endSelect
      (if (s.session t).phase = .selecting .returned then .pollRead else .shutdown)))
  | .remove t => some (.task t .onSessionClose)
  | .shutdown => some .dropNotifyShutdown
  | _ => none

def isOwn : Tcp.Action → Bool
  | .accept false | .shutdownCondition | .dropShutdownCompleteTx | .recv | .timeout
  | .task _ .drop => true
  | _ => false

def follow (tcp : Tcp.State) : Option Tcp.Action → Option Tcp.State
  | none => some tcp
  | some a => Tcp.step config tcp a

inductive Action
  | server (a : Server.Action)
  | tcp (a : Tcp.Action)

def step (env : Env) (s : State) : Action → Option State
  | .server a => (Server.step env s.server a).bind fun server ↦
      (follow s.tcp (partner s.server a)).map fun tcp ↦ ⟨tcp, server⟩
  | .tcp a =>
    if isOwn a then (Tcp.step config s.tcp a).map fun tcp ↦ { s with tcp := tcp } else none

end Process

section

variable {env : Env} {s s' s'' : State} {t k : ℕ} {a : Action} {x : Session} {r r' : Reader}

namespace Steady

theorem refl (s : State) : Steady s s := ⟨rfl, rfl, fun _ ↦ rfl⟩

theorem trans (h : Steady s s') (h' : Steady s' s'') : Steady s s'' :=
  ⟨h'.spawned.trans h.spawned, h'.shutdown.trans h.shutdown,
    fun u ↦ (h'.stage u).trans (h.stage u)⟩

theorem update (hx : x.phase.stage = (s.session t).phase.stage) : Steady s (s.update t x) := by
  refine ⟨rfl, rfl, fun u ↦ ?_⟩
  by_cases hu : u = t
  · subst hu
    simpa only [State.update, Function.update_self] using hx
  · simp only [State.update, Function.update_of_ne hu]

theorem setReader (h : (s.session t).phase = .selecting r) :
    Steady s (s.setPhase t (.selecting r')) := update (by rw [h]; rfl)

theorem send {target : ℕ} {body : Body} {cause : Cause}
    (h : s.send target body cause = some s') : Steady s s' := by
  obtain ⟨channel, -, rfl⟩ := Option.map_eq_some_iff.1 h
  have hupdate : Steady s (s.update target { s.session target with channel := channel }) :=
    update rfl
  exact hupdate.trans ⟨rfl, rfl, fun _ ↦ rfl⟩

theorem finish (h : (s.session t).phase = .selecting r) (ok : Bool) :
    Steady s (s.finish t k ok) := by
  have hemit : Steady s (s.emit (.returned t k ok)) := ⟨rfl, rfl, fun _ ↦ rfl⟩
  exact hemit.trans (setReader h)

theorem answer (h : (s.session t).phase = .selecting r) (body : Body) :
    Steady s (s.answer t k body) := by
  unfold State.answer
  split
  · rename_i s' hs
    exact (send hs).trans (finish ((send_phase hs t).trans h) true)
  · exact finish h false

theorem refresh (s : State) (t : ℕ) : Steady s (s.refresh t) := by
  unfold State.refresh
  split
  · exact update rfl
  · exact refl s

theorem onRecvFrame (h : (s.session t).phase = .selecting .unpacking) :
    Steady s (onRecvFrame env s t) := by
  unfold Server.onRecvFrame
  dsimp only
  split
  · exact setReader h
  split
  · exact setReader h
  · exact ⟨rfl, rfl, fun _ ↦ rfl⟩
  · exact setReader h
  split
  · exact update (by rw [h]; rfl)
  split
  · exact ⟨rfl, rfl, fun _ ↦ rfl⟩
  · exact (update (by rw [h]; rfl)).trans ⟨rfl, rfl, fun _ ↦ rfl⟩

theorem onRecvMessage {m : Message} (h : (s.session t).phase = .selecting (.received k m)) :
    Steady s (onRecvMessage env s t k m) := by
  have h' := (refresh_phase s t).trans h
  refine (refresh s t).trans ?_
  rw [onRecvMessage_eq]
  cases verdict env m with
  | fail => exact finish h' false
  | ignore => exact finish h' true
  | pong | refuse => exact answer h' _
  | permit => exact setReader h'

theorem broadcast {push : PushMediaKeyEvent} {rest : List Player}
    (h : (s.session t).phase = .selecting (.pushing k push rest)) :
    Steady s (broadcast s t k push rest) := by
  have hguard : Steady s { s with guard := none } := ⟨rfl, rfl, fun _ ↦ rfl⟩
  cases rest with
  | nil => exact hguard.trans (setReader h)
  | cons p rest =>
    simp only [Server.broadcast]
    split
    · rename_i s' hs
      exact (send hs).trans (setReader ((send_phase hs t).trans h))
    · exact hguard.trans (finish (s := { s with guard := none }) h false)

end Steady

end

namespace Process

section

variable {env : Env} {s s' : Server.State} {t : ℕ} {a : Server.Action} {x : Session}

def Leads (shutdown : Bool) (b : TaskAction) (stage stage' : Tcp.Stage) : Prop :=
  ∀ task : Task, task.stage = stage →
    ∃ task', taskStep (!shutdown) task b = some task' ∧ task'.stage = stage'

inductive Turn (s : Server.State) : Server.Action → Server.State → Prop
  | steady {a : Server.Action} {s' : Server.State} : partner s a = none → Steady s s' → Turn s a s'
  | spawn : s.shutdown = false → Turn s .spawn (Server.spawn s)
  | shutdown : Turn s .shutdown { s with shutdown := true }
  | task {a : Server.Action} {s' : Server.State} {t : ℕ} {b : TaskAction}
      {stage stage' : Tcp.Stage} : partner s a = some (.task t b) →
      Leads s.shutdown b stage stage' → stage ≠ .dropping → stage' ≠ .finished →
      (s.session t).phase.stage = some stage → (s'.session t).phase.stage = some stage' →
      (∀ u, u ≠ t → (s'.session u).phase.stage = (s.session u).phase.stage) →
      s'.spawned = s.spawned → s'.shutdown = s.shutdown → Turn s a s'

theorem Turn.of_update {b : TaskAction} {stage stage' : Tcp.Stage}
    (hleads : Leads s.shutdown b stage stage') (hpartner : partner s a = some (.task t b))
    (hs : s'.session = Function.update s.session t x)
    (hne : stage ≠ .dropping) (hne' : stage' ≠ .finished)
    (hstage : (s.session t).phase.stage = some stage) (hstage' : x.phase.stage = some stage')
    (hspawned : s'.spawned = s.spawned) (hshutdown : s'.shutdown = s.shutdown) : Turn s a s' := by
  refine .task hpartner hleads hne hne' hstage ?_ (fun u hu ↦ ?_) hspawned hshutdown
  · rw [hs, Function.update_self, hstage']
  · rw [hs, Function.update_of_ne hu]

theorem leads_onSessionStart (b : Bool) :
    Leads b (.onSessionStart true) .starting .selecting := by
  refine fun task htask ↦ ⟨{ task with stage := .selecting, started := true }, ?_, rfl⟩
  simp [taskStep, htask]

theorem leads_endSelect (ending : Tcp.Ending) {b : Bool} (h : b = true ∨ ending ≠ .shutdown) :
    Leads b (.endSelect ending) .selecting .closing := by
  refine fun task htask ↦ ⟨{ task with stage := .closing }, ?_, rfl⟩
  rw [taskStep, if_pos]
  refine ⟨htask, fun he ↦ ?_⟩
  rcases h with rfl | h
  · rfl
  · exact absurd he h

theorem leads_onSessionClose (b : Bool) : Leads b .onSessionClose .closing .dropping := by
  refine fun task htask ↦
    ⟨{ task with stage := .dropping, closes := task.closes + 1 }, ?_, rfl⟩
  simp [taskStep, htask]

theorem turn_start (hp : (s.session t).phase = .starting) :
    Turn s (.start t) (Server.onSessionStart s t) :=
  .of_update (leads_onSessionStart _) rfl rfl (by simp) (by simp) (by rw [hp]; rfl) rfl rfl rfl

theorem steady_lockPlayers {k : ℕ} {push : PushMediaKeyEvent}
    (hp : (s.session t).phase = .selecting (.locking k push)) (entries : List Entry) :
    Steady s (lockPlayers s t k push entries) := by
  have hguard : Steady s { s with guard := some t } := ⟨rfl, rfl, fun _ ↦ rfl⟩
  have hpushing : Steady { s with guard := some t }
      (Server.State.setPhase { s with guard := some t } t
        (.selecting (.pushing k push (others (s.session t).sessionId entries)))) :=
    .setReader hp
  exact (hguard.trans hpushing).trans ⟨rfl, rfl, fun _ ↦ rfl⟩

/-- A failed write ends the select. -/
theorem turn_write {r : Reader} {ok : Bool} (hs : (s.session t).Sound t)
    (hp : (s.session t).phase = .selecting r) (h : pollWrite s t ok = some s') :
    Turn s (.write t ok) s' := by
  have hwrite := h
  rw [pollWrite_eq hs, Option.map_eq_some_iff] at hwrite
  obtain ⟨⟨e, channel⟩, -, rfl⟩ := hwrite
  have hends : ends s t ok = !ok := by
    rw [ends, h]
    cases ok <;> simp [Server.State.update, hp]
  cases ok with
  | true =>
    refine .steady ?_ (.update rfl)
    rw [partner, hends]
    rfl
  | false =>
    refine .of_update (leads_endSelect .pollWrite (.inr (by simp))) ?_ rfl (by simp) (by simp)
      (by rw [hp]; rfl) rfl rfl rfl
    rw [partner, hends]
    rfl

theorem turn_endSelect {r : Reader} (hp : (s.session t).phase = .selecting r)
    (hr : r = .returned ∨ s.shutdown = true ∧ r.awaits = true) :
    Turn s (.endSelect t) (Server.endSelect s t) := by
  refine .of_update (leads_endSelect _ ?_) rfl rfl (by simp) (by simp) (by rw [hp]; rfl) rfl rfl rfl
  rcases hr with rfl | ⟨hs, -⟩
  · rw [hp, if_pos rfl]
    exact .inr (by simp)
  · exact .inl hs

theorem turn_remove (hp : (s.session t).phase = .removing) :
    Turn s (.remove t) (Server.onSessionClose s t) :=
  .of_update (leads_onSessionClose _) rfl rfl (by simp) (by simp) (by rw [hp]; rfl) rfl rfl rfl

theorem turn_of_step (hw : s.WellFormed) (h : Server.step env s a = some s') : Turn s a s' := by
  cases step_outcome h with
  | spawn hs => exact .spawn hs
  | start hp => exact turn_start hp
  | eof hp | readError hp => exact .steady rfl (.setReader hp)
  | read hp => exact .steady rfl (.update (by rw [hp]; rfl))
  | recvFrame hp => exact .steady rfl (.onRecvFrame hp)
  | recvMessage hp => exact .steady rfl (.onRecvMessage hp)
  | lock hp => exact .steady rfl (steady_lockPlayers hp _)
  | push hp => exact .steady rfl (.broadcast hp)
  | respond hp => exact .steady rfl (.answer hp _)
  | write hp _ hwrite => exact turn_write (hw.sound _) hp hwrite
  | ping _ hsend => exact .steady rfl (.send hsend)
  | unsent => exact .steady rfl (.refl s)
  | endSelect hp hr => exact turn_endSelect hp hr
  | disconnect hp =>
    simp only [onDisconnectSession, (hw.sound _).player (.inr hp)]
    exact .steady rfl (.update (by rw [hp]; rfl))
  | remove hp => exact turn_remove hp
  | shutdown => exact .shutdown
  | tick => exact .steady rfl ⟨rfl, rfl, fun _ ↦ rfl⟩

end

theorem of_stage {phase : Phase} {stage : Tcp.Stage} (h : phase.stage = some stage) :
    phase.life ≠ .absent ∧ stage ≠ .finished := by
  cases phase with
  | absent => cases h
  | _ =>
    cases h
    simp [Phase.life]

/-- The senders of `build_with_listener` are where it stands: it has not dropped the first. -/
def isEarly : Main → Bool
  | .loading | .accepting | .initialising | .stopped => true
  | .notified | .waiting | .returned _ => false

/-- A task stands where its session does, until it has dropped its clone. -/
def Stands (phase : Phase) (task : Task) : Prop :=
  phase.stage = some task.stage ∨ phase.stage = some .dropping ∧ task.stage = .finished

structure Linked (s : State) : Prop where
  length : s.tcp.tasks.length = s.server.spawned
  stands : ∀ t task, s.tcp.tasks[t]? = some task → Stands (s.server.session t).phase task
  notify : s.tcp.notifyShutdown = !s.server.shutdown
  main : s.tcp.notifyShutdown = isEarly s.tcp.main
  complete : s.tcp.main = .waiting → s.tcp.shutdownCompleteTx = false
  clone : ∀ task ∈ s.tcp.tasks, task.stage = .finished → task.shutdownComplete = false

section

variable {env : Env} {s s' : State} {a : Action} {as : List Action} {t : ℕ}

theorem Linked.initial : Linked .init where
  length := rfl
  stands _ _ h := by cases h
  notify := rfl
  main := rfl
  complete h := by cases h
  clone _ h := by cases h

/-- The step of a task that its session takes can be taken. -/
theorem Linked.task (hl : Linked s) {b : TaskAction} {stage stage' : Tcp.Stage}
    (hne : stage ≠ .dropping) (hstage : (s.server.session t).phase.stage = some stage)
    (hlt : t < s.server.spawned) (hleads : Leads s.server.shutdown b stage stage') :
    ∃ task task', s.tcp.tasks[t]? = some task ∧ task.stage = stage ∧ task'.stage = stage' ∧
      Tcp.step config s.tcp (.task t b) = some { s.tcp with tasks := s.tcp.tasks.set t task' } := by
  obtain ⟨task, hi⟩ : ∃ task, s.tcp.tasks[t]? = some task :=
    Option.isSome_iff_exists.1 (by simpa [hl.length] using hlt)
  have hstands : task.stage = stage := by
    obtain h | ⟨h, -⟩ := hl.stands t task hi
    · exact Option.some.inj (h.symm.trans hstage)
    · exact absurd (Option.some.inj (hstage.symm.trans h)) hne
  obtain ⟨task', hstep, hstage'⟩ := hleads task hstands
  rw [← hl.notify] at hstep
  refine ⟨task, task', hi, hstands, hstage', ?_⟩
  rw [Tcp.step, hi, Option.bind_some, hstep]
  rfl

/-- The tasks go on as their sessions do. -/
theorem Linked.turn (hw : s.server.WellFormed) (hl : Linked s) {b : Server.Action}
    {server : Server.State} {tcp : Tcp.State} (h : Turn s.server b server)
    (hf : follow s.tcp (partner s.server b) = some tcp) : Linked ⟨tcp, server⟩ := by
  cases h with
  | steady hpartner hsteady =>
    rw [hpartner] at hf
    cases hf
    refine ⟨hl.length.trans hsteady.spawned.symm, fun t task hi ↦ ?_, ?_, hl.main, hl.complete,
      hl.clone⟩
    · have hstands := hl.stands t task hi
      rwa [Stands, ← hsteady.stage] at hstands
    · rw [hsteady.shutdown]
      exact hl.notify
  | spawn =>
    simp only [partner, follow, Tcp.step, config, Option.ite_none_right_eq_some, if_true,
      Bool.false_eq_true, if_false, Option.some.injEq] at hf
    obtain ⟨hmain, rfl⟩ := hf
    refine ⟨?_, fun t task hi ↦ ?_, hl.notify, hl.main.trans (by rw [hmain]; rfl),
      (fun hwaiting ↦ ?_), fun task hmem hfinished ↦ ?_⟩
    · exact (List.length_append ..).trans (congrArg (· + 1) hl.length)
    · change (s.tcp.tasks ++ [⟨.starting, true, false, 0⟩])[t]? = some task at hi
      by_cases hlt : t < s.tcp.tasks.length
      · rw [List.getElem?_append_left hlt] at hi
        have hne : t ≠ s.server.spawned := Nat.ne_of_lt (hl.length ▸ hlt)
        simpa only [Server.spawn, Server.State.update, Function.update_of_ne hne]
          using hl.stands t task hi
      · rw [List.getElem?_append_right (Nat.le_of_not_lt hlt), List.getElem?_singleton] at hi
        split_ifs at hi with h0
        cases hi
        have heq : t = s.server.spawned := by
          have hlength := hl.length
          omega
        left
        simp [Server.spawn, Server.State.update, heq, Phase.stage]
    · cases hwaiting
    · rcases List.mem_append.1 hmem with hmem | hmem
      · exact hl.clone task hmem hfinished
      · rw [List.mem_singleton.1 hmem] at hfinished
        cases hfinished
  | shutdown =>
    simp only [partner, follow, Tcp.step, Option.ite_none_right_eq_some, Option.some.injEq] at hf
    obtain ⟨hmain, rfl⟩ := hf
    exact ⟨hl.length, hl.stands, rfl, rfl, by simp, hl.clone⟩
  | @task _ _ t b stage stage' hpartner hleads hne hne' hstage hstage' hother hspawned hshutdown =>
    have hlt := hw.lt_spawned (of_stage hstage).1
    obtain ⟨task, task', hi, hold, hnew, hstep⟩ := hl.task hne hstage hlt hleads
    rw [hpartner] at hf
    cases hstep.symm.trans hf
    refine ⟨?_, fun u task hu ↦ ?_, ?_, hl.main, hl.complete, fun task hmem ↦ ?_⟩
    · rw [hspawned, ← hl.length]
      exact List.length_set
    · by_cases hut : u = t
      · subst hut
        rw [List.getElem?_set_self (hl.length ▸ hlt)] at hu
        cases hu
        exact .inl (hstage'.trans (congrArg some hnew.symm))
      · rw [List.getElem?_set_ne (Ne.symm hut)] at hu
        have hstands := hl.stands u task hu
        rwa [Stands, ← hother u hut] at hstands
    · rw [hshutdown]
      exact hl.notify
    · rcases List.mem_or_eq_of_mem_set hmem with hmem | rfl
      · exact hl.clone task hmem
      · exact fun hfinished ↦ absurd (hnew.symm.trans hfinished) hne'

/-- A task that has dropped its clone is finished, and its session is closed. -/
theorem Linked.drop (hl : Linked s) {task : Task} (hi : s.tcp.tasks[t]? = some task)
    (hdropping : task.stage = .dropping) :
    Linked ⟨{ s.tcp with tasks := s.tcp.tasks.set t { task with
      stage := .finished, shutdownComplete := false } }, s.server⟩ := by
  have hlt := (List.getElem?_eq_some_iff.1 hi).1
  refine ⟨List.length_set.trans hl.length, fun u task' hu ↦ ?_, hl.notify, hl.main, hl.complete,
    fun task' hmem ↦ ?_⟩
  · by_cases hut : u = t
    · subst hut
      rw [List.getElem?_set_self hlt] at hu
      cases hu
      obtain h | ⟨h, -⟩ := hl.stands u task hi
      · exact .inr ⟨h.trans (congrArg some hdropping), rfl⟩
      · exact .inr ⟨h, rfl⟩
    · rw [List.getElem?_set_ne (Ne.symm hut)] at hu
      exact hl.stands u task' hu
  · rcases List.mem_or_eq_of_mem_set hmem with hmem | rfl
    · exact hl.clone task' hmem
    · exact fun _ ↦ rfl

theorem Linked.step (hw : s.server.WellFormed) (hl : Linked s) (h : step env s a = some s') :
    Linked s' := by
  cases a with
  | server a =>
    simp only [Process.step, Option.bind_eq_some_iff, Option.map_eq_some_iff] at h
    obtain ⟨server, hserver, tcp, htcp, rfl⟩ := h
    exact hl.turn hw (turn_of_step hw hserver) htcp
  | tcp a =>
    simp only [Process.step, Option.ite_none_right_eq_some, Option.map_eq_some_iff] at h
    obtain ⟨hown, tcp, htcp, rfl⟩ := h
    have hstay {main : Main} (hearly : isEarly main = isEarly s.tcp.main) (hne : main ≠ .waiting) :
        Linked { s with tcp := { s.tcp with main := main } } :=
      ⟨hl.length, hl.stands, hl.notify, hl.main.trans hearly.symm, fun h ↦ absurd h hne, hl.clone⟩
    cases a with
    | load | streamInit | dropNotifyShutdown => cases hown
    | accept ok =>
      cases ok with
      | true => cases hown
      | false =>
        simp only [Tcp.step, Option.ite_none_right_eq_some, Bool.false_eq_true, if_false,
          Option.some.injEq] at htcp
        obtain ⟨hmain, rfl⟩ := htcp
        exact hstay (by rw [hmain]; rfl) (by simp)
    | shutdownCondition =>
      simp only [Tcp.step, Option.ite_none_right_eq_some, Option.some.injEq] at htcp
      obtain ⟨hmain, rfl⟩ := htcp
      refine hstay ?_ (by simp)
      rcases hmain with hmain | hmain | hmain <;> rw [hmain] <;> rfl
    | dropShutdownCompleteTx =>
      simp only [Tcp.step, Option.ite_none_right_eq_some, Option.some.injEq] at htcp
      obtain ⟨hmain, rfl⟩ := htcp
      exact ⟨hl.length, hl.stands, hl.notify, hl.main.trans (by rw [hmain]; rfl), fun _ ↦ rfl,
        hl.clone⟩
    | recv =>
      simp only [Tcp.step, Option.ite_none_right_eq_some, Option.some.injEq] at htcp
      obtain ⟨⟨hmain, -⟩, rfl⟩ := htcp
      exact hstay (by rw [hmain]; rfl) (by simp)
    | timeout =>
      simp only [Tcp.step, Option.ite_none_right_eq_some, Option.some.injEq] at htcp
      obtain ⟨hmain, rfl⟩ := htcp
      exact hstay (by rw [hmain]; rfl) (by simp)
    | task t b =>
      cases b with
      | drop =>
        simp only [Tcp.step, taskStep, Option.bind_eq_some_iff, Option.map_eq_some_iff,
          Option.ite_none_right_eq_some, Option.some.injEq] at htcp
        obtain ⟨task, hi, _, ⟨hdropping, rfl⟩, rfl⟩ := htcp
        exact hl.drop hi hdropping
      | _ => cases hown

theorem server_of_run {ok : State → Action → Prop} (h : Run (step env) ok .init as s) :
    ∃ bs, Run (Server.step env) Any .init bs s.server := by
  refine ⟨_, h.simulate State.server (fun _ a ↦ match a with
    | .server a => some a
    | .tcp _ => none) fun _ u a v _ _ hv ↦ ?_⟩
  cases a with
  | server a =>
    simp only [step, Option.bind_eq_some_iff, Option.map_eq_some_iff] at hv
    obtain ⟨server, hserver, tcp, -, rfl⟩ := hv
    exact hserver
  | tcp a =>
    simp only [step, Option.ite_none_right_eq_some, Option.map_eq_some_iff] at hv
    obtain ⟨-, tcp, -, rfl⟩ := hv
    rfl

theorem wellFormed_of_run {ok : State → Action → Prop} (h : Run (step env) ok .init as s) :
    s.server.WellFormed := by
  obtain ⟨bs, hbs⟩ := server_of_run h
  exact .run hbs

theorem linked_of_run {ok : State → Action → Prop} (h : Run (step env) ok .init as s) :
    Linked s :=
  h.along (fun _ _ _ _ hu hl _ hv ↦ hl.step (wellFormed_of_run hu) hv) .initial

/-- What happens of its own accord once the server is to shut down; the timeout is left out. -/
def Inner (s : State) : Action → Prop
  | .server .shutdown | .tcp .dropShutdownCompleteTx | .tcp .recv | .tcp (.task _ .drop) => True
  | .server a => Server.Inner s.server a
  | .tcp _ => False

def mainCost : Main → ℕ
  | .stopped => 3
  | .notified => 2
  | .waiting => 1
  | .loading | .accepting | .initialising | .returned _ => 0

def taskCost (task : Task) : ℕ := if task.stage = .finished then 0 else 1

def State.cost (s : State) : ℕ :=
  s.server.cost + (s.tcp.tasks.map taskCost).sum + mainCost s.tcp.main

theorem inner_server {b : Server.Action} (hb : b ≠ .shutdown) :
    Inner s (.server b) ↔ Server.Inner s.server b := by
  cases b with
  | shutdown => exact absurd rfl hb
  | _ => rfl

/-- What the sessions do by themselves does not lead `build_with_listener` on. -/
theorem main_follow {b : Server.Action} {tcp : Tcp.State} (hb : Server.Inner s.server b)
    (h : follow s.tcp (partner s.server b) = some tcp) : tcp.main = s.tcp.main := by
  have htask {t : ℕ} {c : TaskAction} (h : Tcp.step config s.tcp (.task t c) = some tcp) :
      tcp.main = s.tcp.main := by
    simp only [Tcp.step, Option.bind_eq_some_iff, Option.map_eq_some_iff] at h
    obtain ⟨task, -, task', -, rfl⟩ := h
    rfl
  cases b with
  | spawn | readBuf | readError | ping | shutdown | tick => cases hb
  | start | endSelect | remove => exact htask h
  | write t ok =>
    rw [partner] at h
    split_ifs at h
    · exact htask h
    · cases h
      rfl
  | recvFrame | recvMessage | lock | push | respond | disconnect =>
    cases h
    rfl

/-- Nothing of what the sessions do by themselves waits for `build_with_listener`. -/
theorem exists_follow (hw : s.server.WellFormed) (hl : Linked s) {b : Server.Action}
    {server : Server.State} (hb : Server.Inner s.server b) (h : Turn s.server b server) :
    ∃ tcp, follow s.tcp (partner s.server b) = some tcp ∧
      (tcp.tasks.map taskCost).sum = (s.tcp.tasks.map taskCost).sum := by
  cases h with
  | steady hpartner =>
    rw [hpartner]
    exact ⟨s.tcp, rfl, rfl⟩
  | spawn | shutdown => cases hb
  | task hpartner hleads hne hne' hstage =>
    obtain ⟨hlife, hunfinished⟩ := of_stage hstage
    obtain ⟨task, task', hi, hold, hnew, hstep⟩ :=
      hl.task hne hstage (hw.lt_spawned hlife) hleads
    rw [hpartner]
    refine ⟨_, hstep, ?_⟩
    have hsum := sum_map_set taskCost task' hi
    rw [taskCost, taskCost, hold, hnew, if_neg hunfinished, if_neg hne'] at hsum
    exact Nat.add_right_cancel hsum

theorem cost_step (hw : s.server.WellFormed) (hl : Linked s) (ha : Inner s a)
    (h : step env s a = some s') : s'.cost < s.cost := by
  cases a with
  | server b =>
    simp only [Process.step, Option.bind_eq_some_iff, Option.map_eq_some_iff] at h
    obtain ⟨server, hserver, tcp, htcp, rfl⟩ := h
    by_cases hb : b = .shutdown
    · subst hb
      simp only [partner, follow, Tcp.step, Option.ite_none_right_eq_some, Option.some.injEq]
        at htcp
      obtain ⟨hmain, rfl⟩ := htcp
      simp only [Server.step, Option.ite_none_left_eq_some] at hserver
      cases hserver.2
      rw [State.cost, State.cost, hmain]
      exact Nat.lt_succ_self _
    · rw [inner_server hb] at ha
      obtain ⟨_, hfollow, hsum⟩ := exists_follow hw hl ha (turn_of_step hw hserver)
      cases hfollow.symm.trans htcp
      have hlt := Server.cost_step hw ha hserver
      rw [State.cost, State.cost, main_follow ha htcp, hsum]
      dsimp only
      omega
  | tcp b =>
    simp only [Process.step, Option.ite_none_right_eq_some, Option.map_eq_some_iff] at h
    obtain ⟨hown, tcp, htcp, rfl⟩ := h
    cases b with
    | dropShutdownCompleteTx =>
      simp only [Tcp.step, Option.ite_none_right_eq_some, Option.some.injEq] at htcp
      obtain ⟨hmain, rfl⟩ := htcp
      rw [State.cost, State.cost, hmain]
      exact Nat.lt_succ_self _
    | recv =>
      simp only [Tcp.step, Option.ite_none_right_eq_some, Option.some.injEq] at htcp
      obtain ⟨⟨hmain, -⟩, rfl⟩ := htcp
      rw [State.cost, State.cost, hmain]
      exact Nat.lt_succ_self _
    | task t b =>
      cases b with
      | drop =>
        simp only [Tcp.step, taskStep, Option.bind_eq_some_iff, Option.map_eq_some_iff,
          Option.ite_none_right_eq_some, Option.some.injEq] at htcp
        obtain ⟨task, hi, _, ⟨hdropping, rfl⟩, rfl⟩ := htcp
        have hsum := sum_map_set taskCost
          { task with stage := .finished, shutdownComplete := false } hi
        rw [taskCost, taskCost, hdropping, if_pos rfl, if_neg (by simp)] at hsum
        rw [State.cost, State.cost]
        dsimp only
        omega
      | _ => cases ha
    | _ => cases ha

theorem server_stuck (hw : s.server.WellFormed) (hl : Linked s)
    (hstuck : Stuck (step env) Inner s) : Stuck (Server.step env) Server.Inner s.server := by
  intro b hb
  cases hserver : Server.step env s.server b with
  | none => rfl
  | some server =>
    have hne : b ≠ .shutdown := by
      rintro rfl
      exact hb
    obtain ⟨tcp, hfollow, -⟩ := exists_follow hw hl hb (turn_of_step hw hserver)
    have hnone := hstuck (.server b) ((inner_server hne).2 hb)
    simp only [Process.step, hserver, hfollow, Option.bind_some, Option.map_some] at hnone
    cases hnone

def isEnding : Main → Bool
  | .stopped | .notified | .waiting | .returned false => true
  | .loading | .accepting | .initialising | .returned true => false

theorem returned_of_stuck (hw : s.server.WellFormed) (hn : s.server.panicked = false)
    (hl : Linked s) (hmain : isEnding s.tcp.main = true) (hstuck : Stuck (step env) Inner s) :
    s.tcp.main = .returned false ∧ (∀ task ∈ s.tcp.tasks, task.stage = .finished) ∧
      s.server.players = ∅ ∧
      ∀ u < s.server.spawned, (s.server.session u).phase = .closed := by
  have hlate : isEarly s.tcp.main = false := by
    cases hm : s.tcp.main with
    | stopped =>
      have hshutdown := hstuck (.server .shutdown) trivial
      simp [Process.step, Server.step, act, hn, partner, follow, Tcp.step, hm] at hshutdown
    | loading | accepting | initialising =>
      rw [hm] at hmain
      cases hmain
    | notified | waiting | returned => rfl
  have hnotify := hl.main.trans hlate
  have hshutdown : s.server.shutdown = true := by simpa [hnotify] using hl.notify
  have hclosed {u : ℕ} := closed_of_stuck (t := u) hw hn hshutdown (server_stuck hw hl hstuck)
  have hfinished : ∀ task ∈ s.tcp.tasks, task.stage = .finished := by
    intro task hmem
    obtain ⟨t, hi⟩ := List.mem_iff_getElem?.1 hmem
    obtain hstands | ⟨-, hstage⟩ := hl.stands t task hi
    · rw [hclosed (of_stage hstands).1] at hstands
      have hdrop := hstuck (.tcp (.task t .drop)) trivial
      simp [Process.step, isOwn, Tcp.step, hi, taskStep, (Option.some.inj hstands).symm] at hdrop
    · exact hstage
  refine ⟨?_, hfinished, players_of_closed hw fun t ↦ hclosed, fun u hu ↦ hclosed ?_⟩
  · cases hm : s.tcp.main with
    | returned b =>
      cases b with
      | false => rfl
      | true =>
        rw [hm] at hmain
        cases hmain
    | notified =>
      have hdrop := hstuck (.tcp .dropShutdownCompleteTx) trivial
      simp [Process.step, isOwn, Tcp.step, hm] at hdrop
    | waiting =>
      have hsender : s.tcp.hasSender = false := by
        rw [Tcp.State.hasSender, hl.complete hm, Bool.false_or, List.any_eq_false]
        intro task hmem
        rw [hl.clone task hmem (hfinished task hmem)]
        exact Bool.false_ne_true
      have hrecv := hstuck (.tcp .recv) trivial
      simp [Process.step, isOwn, Tcp.step, hm, hsender] at hrecv
    | loading | accepting | initialising | stopped =>
      rw [hm] at hlate
      cases hlate
  · obtain ⟨task, hi⟩ : ∃ task, s.tcp.tasks[u]? = some task :=
      Option.isSome_iff_exists.1 (by simpa [hl.length] using hu)
    obtain hstands | ⟨hstands, -⟩ := hl.stands u task hi <;> exact (of_stage hstands).1

theorem isEnding_step (ha : Inner s a) (hs : isEnding s.tcp.main = true)
    (h : step env s a = some s') : isEnding s'.tcp.main = true := by
  cases a with
  | server b =>
    simp only [Process.step, Option.bind_eq_some_iff, Option.map_eq_some_iff] at h
    obtain ⟨server, hserver, tcp, htcp, rfl⟩ := h
    by_cases hb : b = .shutdown
    · subst hb
      simp only [partner, follow, Tcp.step, Option.ite_none_right_eq_some, Option.some.injEq]
        at htcp
      obtain ⟨-, rfl⟩ := htcp
      rfl
    · rw [inner_server hb] at ha
      exact (congrArg isEnding (main_follow ha htcp)).trans hs
  | tcp b =>
    simp only [Process.step, Option.ite_none_right_eq_some, Option.map_eq_some_iff] at h
    obtain ⟨-, tcp, htcp, rfl⟩ := h
    cases b with
    | dropShutdownCompleteTx | recv =>
      simp only [Tcp.step, Option.ite_none_right_eq_some, Option.some.injEq] at htcp
      obtain ⟨-, rfl⟩ := htcp
      rfl
    | task t b =>
      simp only [Tcp.step, Option.bind_eq_some_iff, Option.map_eq_some_iff] at htcp
      obtain ⟨task, -, task', -, rfl⟩ := htcp
      exact hs
    | _ => cases ha

end

def interrupted : List Action := [.server .spawn, .server (.start 0), .tcp .shutdownCondition]

end Process

end MusicRemote.Server
