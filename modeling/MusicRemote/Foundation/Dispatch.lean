import Mathlib.Logic.Function.Basic
import MusicRemote.Foundation.Channel
import MusicRemote.Foundation.Transition

namespace MusicRemote.Foundation.Dispatch

open Transition Function

/-- Where a dispatcher stands with the message in its hand. -/
inductive Loop (μ : Type*)
  | receiving
  | looking (m : μ)
  | inserting (m : μ)
  | sending (m : μ)
  | stopped (inHand : Option μ)
  deriving DecidableEq

def Loop.inHand {μ : Type*} : Loop μ → Option μ
  | .receiving => none
  | .looking m | .inserting m | .sending m => some m
  | .stopped inHand => inHand

/-- A worker for the messages under one key. What it has taken from its inbox, and how many messages
had been dealt with when it was made, is carried along. -/
structure Worker (κ μ : Type*) where
  key : κ
  inbox : Channel μ
  removed : Bool
  taken : List μ
  born : ℕ

/-- A dispatcher with its table of workers. The messages that it has dealt with are carried along,
and those among them that it has put into an inbox, with the worker. -/
structure State (κ μ : Type*) where
  loop : Loop μ
  table : κ → Option ℕ
  workers : List (Worker κ μ)
  handled : List μ
  put : List (μ × ℕ)

def State.start (κ μ : Type*) : State κ μ := ⟨.receiving, fun _ ↦ none, [], [], []⟩

def State.listening {κ μ : Type*} (s : State κ μ) (k : κ) : Bool :=
  (s.table k).any fun i ↦ s.workers[i]?.any (·.inbox.isOpen)

inductive Action (μ : Type*)
  | arrive (m : μ)
  | look
  | insert
  | send
  | stop
  | take (i : ℕ)
  | close (i : ℕ)
  | remove (i : ℕ)
  deriving DecidableEq

variable {κ μ : Type*} [DecidableEq κ]

def State.deliver (s : State κ μ) (k : κ) (m : μ) : Option (ℕ × Worker κ μ) :=
  (s.table k).bind fun i ↦ s.workers[i]?.bind fun w ↦
    (w.inbox.send m).map fun inbox ↦ (i, { w with inbox := inbox })

/-- The dispatcher looks up a message's key, makes a worker if there is none, and looks again to put
the message into the worker's inbox; the workers take messages, drop their inboxes and remove their
keys meanwhile. -/
def step (key : μ → κ) (s : State κ μ) : Action μ → Option (State κ μ)
  | .arrive m =>
    match s.loop with
    | .receiving => some { s with loop := .looking m }
    | _ => none
  | .look =>
    match s.loop with
    | .looking m =>
      if (s.table (key m)).isSome then some { s with loop := .sending m }
      else some { s with loop := .inserting m }
    | _ => none
  | .insert =>
    match s.loop with
    | .inserting m =>
      some { s with
        loop := .sending m
        table := update s.table (key m) (some s.workers.length)
        workers := s.workers ++ [⟨key m, .new, false, [], s.handled.length⟩] }
    | _ => none
  | .send =>
    match s.loop with
    | .sending m =>
      match s.deliver (key m) m with
      | some (i, w) =>
        some { s with
          loop := .receiving
          workers := s.workers.set i w
          handled := s.handled ++ [m]
          put := s.put ++ [(m, i)] }
      | none => some { s with loop := .receiving, handled := s.handled ++ [m] }
    | _ => none
  | .stop =>
    match s.loop with
    | .stopped _ => none
    | loop => some { s with loop := .stopped loop.inHand }
  | .take i =>
    s.workers[i]?.bind fun w ↦ w.inbox.recv.map fun r ↦
      { s with workers := s.workers.set i { w with inbox := r.2, taken := w.taken ++ [r.1] } }
  | .close i =>
    s.workers[i]?.bind fun w ↦
      if w.removed = false then
        some { s with workers := s.workers.set i { w with inbox := w.inbox.close } }
      else none
  | .remove i =>
    s.workers[i]?.bind fun w ↦
      if w.removed = false ∧ w.inbox.isOpen = false then
        some { s with
          table := update s.table w.key none
          workers := s.workers.set i { w with removed := true } }
      else none

inductive Turn (key : μ → κ) (s : State κ μ) : Action μ → State κ μ → Prop
  | arrive (m : μ) (loop : s.loop = .receiving) :
      Turn key s (.arrive m) { s with loop := .looking m }
  | found (m : μ) (loop : s.loop = .looking m) (isSome : (s.table (key m)).isSome) :
      Turn key s .look { s with loop := .sending m }
  | missing (m : μ) (loop : s.loop = .looking m) (isNone : s.table (key m) = none) :
      Turn key s .look { s with loop := .inserting m }
  | insert (m : μ) (loop : s.loop = .inserting m) :
      Turn key s .insert { s with
        loop := .sending m
        table := update s.table (key m) (some s.workers.length)
        workers := s.workers ++ [⟨key m, .new, false, [], s.handled.length⟩] }
  | put (m : μ) (i : ℕ) (w : Worker κ μ) (loop : s.loop = .sending m)
      (entry : s.table (key m) = some i) (worker : s.workers[i]? = some w)
      (isOpen : w.inbox.isOpen = true) :
      Turn key s .send { s with
        loop := .receiving
        workers := s.workers.set i { w with inbox := ⟨w.inbox.queue ++ [m], true⟩ }
        handled := s.handled ++ [m]
        put := s.put ++ [(m, i)] }
  | lose (m : μ) (loop : s.loop = .sending m) (deaf : s.listening (key m) = false) :
      Turn key s .send { s with loop := .receiving, handled := s.handled ++ [m] }
  | stop (loop : ∀ m, s.loop ≠ .stopped m) :
      Turn key s .stop { s with loop := .stopped s.loop.inHand }
  | take (i : ℕ) (w : Worker κ μ) (m : μ) (queue : List μ) (worker : s.workers[i]? = some w)
      (head : w.inbox.queue = m :: queue) :
      Turn key s (.take i) { s with
        workers := s.workers.set i
          { w with inbox := ⟨queue, w.inbox.isOpen⟩, taken := w.taken ++ [m] } }
  | close (i : ℕ) (w : Worker κ μ) (worker : s.workers[i]? = some w) (kept : w.removed = false) :
      Turn key s (.close i) { s with workers := s.workers.set i { w with inbox := ⟨[], false⟩ } }
  | remove (i : ℕ) (w : Worker κ μ) (worker : s.workers[i]? = some w) (kept : w.removed = false)
      (closed : w.inbox.isOpen = false) :
      Turn key s (.remove i) { s with
        table := update s.table w.key none
        workers := s.workers.set i { w with removed := true } }

section

variable {key : μ → κ} {s t : State κ μ} {a : Action μ} {as : List (Action μ)}

omit [DecidableEq κ] in
theorem deliver_eq_some {k : κ} {m : μ} {r : ℕ × Worker κ μ} (h : s.deliver k m = some r) :
    ∃ i w, s.table k = some i ∧ s.workers[i]? = some w ∧ w.inbox.isOpen = true ∧
      r = (i, { w with inbox := ⟨w.inbox.queue ++ [m], true⟩ }) := by
  simp only [State.deliver, Option.bind_eq_some_iff, Option.map_eq_some_iff] at h
  obtain ⟨i, hi, w, hw, inbox, hsend, rfl⟩ := h
  obtain ⟨hopen, rfl⟩ := Channel.send_eq_some.1 hsend
  exact ⟨i, w, hi, hw, hopen, rfl⟩

omit [DecidableEq κ] in
theorem listening_of_deliver_eq_none {k : κ} {m : μ} (h : s.deliver k m = none) :
    s.listening k = false := by
  rw [State.listening, Bool.eq_false_iff, Ne, Option.any_eq_true]
  rintro ⟨i, hi, hopen⟩
  obtain ⟨w, hw, hopen⟩ := (Option.any_eq_true ..).1 hopen
  rw [State.deliver, hi, Option.bind_some, hw, Option.bind_some, Option.map_eq_none_iff,
    Channel.send_eq_none, hopen] at h
  cases h

omit [DecidableEq κ] in
theorem exists_of_listening {k : κ} (h : s.listening k = true) :
    ∃ i w, s.table k = some i ∧ s.workers[i]? = some w ∧ w.inbox.isOpen = true := by
  obtain ⟨i, hi, hopen⟩ := (Option.any_eq_true ..).1 h
  obtain ⟨w, hw, hopen⟩ := (Option.any_eq_true ..).1 hopen
  exact ⟨i, w, hi, hw, hopen⟩

theorem step_turn (h : step key s a = some t) : Turn key s a t := by
  cases a with
  | arrive m =>
    simp only [step] at h
    split at h
    · next hloop => exact Option.some.inj h ▸ .arrive m hloop
    · cases h
  | look =>
    simp only [step] at h
    split at h
    · next m hloop =>
      split at h
      · next hsome => exact Option.some.inj h ▸ .found m hloop hsome
      · next hnone => exact Option.some.inj h ▸ .missing m hloop (by simpa using hnone)
    · cases h
  | insert =>
    simp only [step] at h
    split at h
    · next m hloop => exact Option.some.inj h ▸ .insert m hloop
    · cases h
  | send =>
    simp only [step] at h
    split at h
    · next m hloop =>
      split at h
      · next i w hd =>
        obtain ⟨j, v, hj, hv, hopen, hr⟩ := deliver_eq_some hd
        cases hr
        exact Option.some.inj h ▸ .put m i v hloop hj hv hopen
      · next hd => exact Option.some.inj h ▸ .lose m hloop (listening_of_deliver_eq_none hd)
    · cases h
  | stop =>
    simp only [step] at h
    split at h
    · cases h
    · next hloop => exact Option.some.inj h ▸ .stop hloop
  | take i =>
    simp only [step, Option.bind_eq_some_iff, Option.map_eq_some_iff] at h
    obtain ⟨w, hw, ⟨m, queue, isOpen⟩, hrecv, rfl⟩ := h
    obtain ⟨hqueue, hopen⟩ := Channel.recv_eq_some.1 hrecv
    cases hopen
    exact .take i w m queue hw hqueue
  | close i =>
    simp only [step, Option.bind_eq_some_iff, Option.ite_none_right_eq_some] at h
    obtain ⟨w, hw, hkept, h⟩ := h
    exact Option.some.inj h ▸ .close i w hw hkept
  | remove i =>
    simp only [step, Option.bind_eq_some_iff, Option.ite_none_right_eq_some] at h
    obtain ⟨w, hw, ⟨hkept, hclosed⟩, h⟩ := h
    exact Option.some.inj h ▸ .remove i w hw hkept hclosed

omit [DecidableEq κ] in
theorem exists_getElem?_set {α : Type*} {l : List α} {i j : ℕ} {x y : α} {P : α → Prop}
    (hx : l[i]? = some x) (h : P y ↔ P x) :
    (∃ z, (l.set i y)[j]? = some z ∧ P z) ↔ ∃ z, l[j]? = some z ∧ P z := by
  have hi : i < l.length := (List.getElem?_eq_some_iff.1 hx).1
  by_cases hij : i = j
  · subst hij
    rw [List.getElem?_set_self hi, hx]
    simpa using h
  · rw [List.getElem?_set_ne hij]

omit [DecidableEq κ] in
theorem forall_getElem?_set {α : Type*} {l : List α} {i : ℕ} {y : α} {P : α → Prop}
    (h : ∀ (j : ℕ) z, l[j]? = some z → P z) (hy : P y) :
    ∀ (j : ℕ) z, (l.set i y)[j]? = some z → P z := by
  intro j z hz
  rcases List.mem_or_eq_of_mem_set (List.mem_of_getElem? hz) with hmem | rfl
  · obtain ⟨k, hk⟩ := List.getElem?_of_mem hmem
    exact h k z hk
  · exact hy

/-- The table names the workers that have not been removed, each under its key. -/
structure Owned (key : μ → κ) (s : State κ μ) : Prop where
  entry : ∀ k i, s.table k = some i ↔
    ∃ w, s.workers[i]? = some w ∧ w.key = k ∧ w.removed = false
  inserting : ∀ m, s.loop = .inserting m → s.table (key m) = none

omit [DecidableEq κ] in
theorem owned_start (key : μ → κ) : Owned key (.start κ μ) where
  entry k i := by
    constructor
    · intro h
      cases h
    · rintro ⟨w, hw, -⟩
      cases hw
  inserting m h := by cases h

omit [DecidableEq κ] in
theorem Owned.unique (h : Owned key s) {i j : ℕ} {v w : Worker κ μ} (hv : s.workers[i]? = some v)
    (hw : s.workers[j]? = some w) (hkey : v.key = w.key) (hv' : v.removed = false)
    (hw' : w.removed = false) : i = j :=
  Option.some.inj
    (((h.entry _ i).2 ⟨v, hv, hkey, hv'⟩).symm.trans ((h.entry _ j).2 ⟨w, hw, rfl, hw'⟩))

omit [DecidableEq κ] in
/-- A worker changes neither its key nor whether it is in the table. -/
theorem Owned.setWorker (h : Owned key s) {i : ℕ} {v w : Worker κ μ}
    (hw : s.workers[i]? = some w) (hworkers : t.workers = s.workers.set i v)
    (htable : t.table = s.table) (hkey : v.key = w.key) (hremoved : v.removed = w.removed)
    (hloop : ∀ m, t.loop = .inserting m → s.loop = .inserting m) : Owned key t where
  entry k j := by
    rw [htable, hworkers, h.entry, exists_getElem?_set hw (by rw [hkey, hremoved])]
  inserting m hm := by
    rw [htable]
    exact h.inserting m (hloop m hm)

theorem Owned.insert (h : Owned key s) {m : μ} (hloop : s.loop = .inserting m) {w : Worker κ μ}
    (hkey : w.key = key m) (hremoved : w.removed = false)
    (htable : t.table = update s.table (key m) (some s.workers.length))
    (hworkers : t.workers = s.workers ++ [w]) (hloop' : t.loop = .sending m) : Owned key t where
  entry k i := by
    have hnone := h.inserting m hloop
    rw [htable, hworkers]
    rcases Nat.lt_trichotomy i s.workers.length with hi | rfl | hi
    · rw [List.getElem?_append_left hi, ← h.entry]
      by_cases hk : k = key m
      · subst hk
        rw [update_self, hnone]
        constructor
        · intro heq
          have := Option.some.inj heq
          omega
        · intro heq
          cases heq
      · rw [update_of_ne hk]
    · rw [List.getElem?_concat_length]
      by_cases hk : k = key m
      · subst hk
        rw [update_self]
        exact ⟨fun _ ↦ ⟨w, rfl, hkey, hremoved⟩, fun _ ↦ rfl⟩
      · rw [update_of_ne hk, h.entry, List.getElem?_eq_none (Nat.le_refl _)]
        constructor
        · rintro ⟨v, hv, -⟩
          cases hv
        · rintro ⟨v, hv, hvk, -⟩
          rw [← Option.some.inj hv, hkey] at hvk
          exact absurd hvk.symm hk
    · have hlen : (s.workers ++ [w])[i]? = none := by
        rw [List.getElem?_eq_none_iff, List.length_append]
        exact hi
      rw [hlen]
      constructor
      · intro heq
        by_cases hk : k = key m
        · rw [hk, update_self] at heq
          have := Option.some.inj heq
          omega
        · rw [update_of_ne hk, h.entry, List.getElem?_eq_none (Nat.le_of_lt hi)] at heq
          obtain ⟨v, hv, -⟩ := heq
          cases hv
      · rintro ⟨v, hv, -⟩
        cases hv
  inserting n hn := by
    rw [hloop'] at hn
    cases hn

theorem Owned.remove (h : Owned key s) {i : ℕ} {w : Worker κ μ} (hw : s.workers[i]? = some w)
    (hkept : w.removed = false) {v : Worker κ μ} (hremoved : v.removed = true)
    (htable : t.table = update s.table w.key none) (hworkers : t.workers = s.workers.set i v)
    (hloop : t.loop = s.loop) : Owned key t where
  entry k j := by
    rw [htable, hworkers]
    have hi : i < s.workers.length := (List.getElem?_eq_some_iff.1 hw).1
    have hentry : s.table w.key = some i := (h.entry _ i).2 ⟨w, hw, rfl, hkept⟩
    by_cases hij : i = j
    · subst hij
      rw [List.getElem?_set_self hi]
      constructor
      · intro heq
        by_cases hk : k = w.key
        · rw [hk, update_self] at heq
          cases heq
        · rw [update_of_ne hk, h.entry, hw] at heq
          obtain ⟨u, hu, huk, -⟩ := heq
          rw [← Option.some.inj hu] at huk
          exact absurd huk.symm hk
      · rintro ⟨u, hu, -, hkept'⟩
        rw [← Option.some.inj hu, hremoved] at hkept'
        cases hkept'
    · rw [List.getElem?_set_ne hij, ← h.entry]
      by_cases hk : k = w.key
      · rw [hk, update_self, hentry]
        exact ⟨(fun heq ↦ by cases heq), fun heq ↦ absurd (Option.some.inj heq) hij⟩
      · rw [update_of_ne hk]
  inserting m hm := by
    rw [htable]
    by_cases hk : key m = w.key
    · rw [hk, update_self]
    · rw [update_of_ne hk]
      exact h.inserting m (hloop ▸ hm)

theorem Owned.turn (h : Owned key s) (ht : Turn key s a t) : Owned key t := by
  cases ht with
  | arrive m loop => exact ⟨h.entry, fun n hn ↦ by cases hn⟩
  | found m loop isSome => exact ⟨h.entry, fun n hn ↦ by cases hn⟩
  | missing m loop isNone => exact ⟨h.entry, fun n hn ↦ by cases hn; exact isNone⟩
  | insert m loop => exact h.insert loop rfl rfl rfl rfl rfl
  | put m i w loop entry worker isOpen =>
    exact h.setWorker worker rfl rfl rfl rfl fun n hn ↦ by cases hn
  | lose m loop deaf => exact ⟨h.entry, fun n hn ↦ by cases hn⟩
  | stop loop => exact ⟨h.entry, fun n hn ↦ by cases hn⟩
  | take i w m queue worker head => exact h.setWorker worker rfl rfl rfl rfl fun _ hn ↦ hn
  | close i w worker kept => exact h.setWorker worker rfl rfl rfl rfl fun _ hn ↦ hn
  | remove i w worker kept closed => exact h.remove worker kept rfl rfl rfl rfl

theorem owned_of_run {ok : State κ μ → Action μ → Prop}
    (h : Run (step key) ok (.start κ μ) as s) : Owned key s :=
  h.invariant (fun _ _ _ ho _ hstep ↦ ho.turn (step_turn hstep)) (owned_start key)

/-- What a worker has taken and still has in its inbox are messages under its key that have been
dealt with since it was made, in the order of their arrival. -/
structure Worker.Fits (key : μ → κ) (handled : List μ) (w : Worker κ μ) : Prop where
  messages : (w.taken ++ w.inbox.queue).Sublist
    ((handled.drop w.born).filter fun m ↦ key m = w.key)
  born : w.born ≤ handled.length

theorem Worker.Fits.grow {handled : List μ} {w : Worker κ μ} (h : w.Fits key handled) (m : μ) :
    w.Fits key (handled ++ [m]) where
  messages := by
    rw [List.drop_append_of_le_length h.born, List.filter_append]
    exact h.messages.trans (List.sublist_append_left ..)
  born := by
    rw [List.length_append]
    exact Nat.le_add_right_of_le h.born

theorem Worker.Fits.push {handled : List μ} {w : Worker κ μ} (h : w.Fits key handled) {m : μ}
    (hm : key m = w.key) :
    Worker.Fits key (handled ++ [m]) { w with inbox := ⟨w.inbox.queue ++ [m], true⟩ } where
  messages := by
    have hfilter : [m].filter (fun m ↦ key m = w.key) = [m] := by simp [hm]
    rw [List.drop_append_of_le_length h.born, List.filter_append, hfilter, ← List.append_assoc]
    exact h.messages.append (.refl _)
  born := (h.grow m).born

theorem Worker.Fits.sublist {handled : List μ} {v w : Worker κ μ} (h : w.Fits key handled)
    (hkey : v.key = w.key) (hborn : v.born = w.born)
    (hsub : (v.taken ++ v.inbox.queue).Sublist (w.taken ++ w.inbox.queue)) :
    v.Fits key handled where
  messages := by
    rw [hkey, hborn]
    exact hsub.trans h.messages
  born := hborn ▸ h.born

structure Traced (key : μ → κ) (s : State κ μ) : Prop where
  fits : ∀ (i : ℕ) w, s.workers[i]? = some w → w.Fits key s.handled
  put : ∀ m i, (m, i) ∈ s.put → ∃ w, s.workers[i]? = some w ∧ w.key = key m

theorem traced_start (key : μ → κ) : Traced key (.start κ μ) where
  fits i w h := by cases h
  put m i h := by cases h

theorem Traced.setWorker (h : Traced key s) {i : ℕ} {v w : Worker κ μ}
    (hw : s.workers[i]? = some w) (hworkers : t.workers = s.workers.set i v)
    (hhandled : t.handled = s.handled) (hput : t.put = s.put) (hkey : v.key = w.key)
    (hborn : v.born = w.born)
    (hsub : (v.taken ++ v.inbox.queue).Sublist (w.taken ++ w.inbox.queue)) : Traced key t where
  fits := by
    rw [hworkers, hhandled]
    exact forall_getElem?_set h.fits ((h.fits i w hw).sublist hkey hborn hsub)
  put m j hj := by
    rw [hworkers, exists_getElem?_set hw (by rw [hkey])]
    exact h.put m j (hput ▸ hj)

theorem Traced.turn (h : Traced key s) (ho : Owned key s) (ht : Turn key s a t) :
    Traced key t := by
  cases ht with
  | arrive m loop => exact ⟨h.fits, h.put⟩
  | found m loop isSome => exact ⟨h.fits, h.put⟩
  | missing m loop isNone => exact ⟨h.fits, h.put⟩
  | stop loop => exact ⟨h.fits, h.put⟩
  | lose m loop deaf => exact ⟨fun i w hw ↦ (h.fits i w hw).grow m, h.put⟩
  | insert m loop =>
    refine ⟨fun i w hw ↦ ?_, fun n i hi ↦ ?_⟩
    · rcases List.mem_append.1 (List.mem_of_getElem? hw) with hmem | hmem
      · obtain ⟨j, hj⟩ := List.getElem?_of_mem hmem
        exact h.fits j w hj
      · rw [List.mem_singleton.1 hmem]
        exact ⟨List.nil_sublist _, Nat.le_refl _⟩
    · obtain ⟨w, hw, hkey⟩ := h.put n i hi
      have hlt : i < s.workers.length := (List.getElem?_eq_some_iff.1 hw).1
      exact ⟨w, (List.getElem?_append_left hlt).trans hw, hkey⟩
  | put m i w loop entry worker isOpen =>
    -- the table names a worker under the key of the message
    obtain ⟨v, hv, hkey, -⟩ := (ho.entry _ i).1 entry
    cases worker.symm.trans hv
    refine ⟨forall_getElem?_set (fun j v hv ↦ (h.fits j v hv).grow m)
      ((h.fits i w worker).push hkey.symm), fun n j hj ↦ ?_⟩
    refine (exists_getElem?_set (P := fun v : Worker κ μ ↦ v.key = key n) worker ?_).2 ?_
    · exact Iff.rfl
    rcases List.mem_append.1 hj with hj | hj
    · exact h.put n j hj
    · cases List.mem_singleton.1 hj
      exact ⟨w, worker, hkey⟩
  | take i w m queue worker head =>
    refine h.setWorker worker rfl rfl rfl rfl rfl ?_
    rw [head]
    simp
  | close i w worker kept =>
    exact h.setWorker worker rfl rfl rfl rfl rfl ((List.nil_sublist _).append_left _)
  | remove i w worker kept closed => exact h.setWorker worker rfl rfl rfl rfl rfl (.refl _)

theorem traced_of_run {ok : State κ μ → Action μ → Prop}
    (h : Run (step key) ok (.start κ μ) as s) : Traced key s :=
  h.invariant_of (fun _ _ _ ho _ hstep ↦ ho.turn (step_turn hstep))
    (fun _ _ _ ho ht _ hstep ↦ ht.turn ho (step_turn hstep)) (owned_start key) (traced_start key)

omit [DecidableEq κ] in
theorem listening_set {i : ℕ} {v w : Worker κ μ} {k : κ} {b : Bool} (h : s.listening k = b)
    (hw : s.workers[i]? = some w) (hworkers : t.workers = s.workers.set i v)
    (htable : t.table = s.table) (hopen : v.inbox.isOpen = w.inbox.isOpen) :
    t.listening k = b := by
  have hany : ∀ j : ℕ, (s.workers.set i v)[j]?.any (·.inbox.isOpen) =
      s.workers[j]?.any (·.inbox.isOpen) := by
    intro j
    by_cases hij : i = j
    · subst hij
      rw [List.getElem?_set_self (List.getElem?_eq_some_iff.1 hw).1, hw]
      exact hopen
    · rw [List.getElem?_set_ne hij]
  rw [← h]
  simp only [State.listening, htable, hworkers, hany]

/-- The dispatcher finds a key only while its worker still has its inbox, no worker drops its inbox
while a message is on its way there, and the dispatcher stops only while it waits. -/
def Prompt (key : μ → κ) (s : State κ μ) : Action μ → Prop
  | .look => ∀ m, s.loop = .looking m → s.table (key m) = none ∨ s.listening (key m) = true
  | .close i => ∀ m w, s.loop = .sending m → s.workers[i]? = some w → w.key ≠ key m
  | .stop => s.loop = .receiving
  | _ => True

structure Lossless (key : μ → κ) (s : State κ μ) : Prop where
  put : s.put.map Prod.fst = s.handled
  sending : ∀ m, s.loop = .sending m → s.listening (key m) = true
  stopped : ∀ inHand, s.loop = .stopped inHand → inHand = none

omit [DecidableEq κ] in
theorem lossless_start (key : μ → κ) : Lossless key (.start κ μ) where
  put := rfl
  sending m h := by cases h
  stopped m h := by cases h

omit [DecidableEq κ] in
/-- A worker whose key is not the one listened for may do as it likes. -/
theorem listening_of_ne (ho : Owned key s) {i : ℕ} {v w : Worker κ μ} {k : κ}
    (hw : s.workers[i]? = some w) (hworkers : t.workers = s.workers.set i v)
    (htable : t.table k = s.table k) (hne : w.key ≠ k) (h : s.listening k = true) :
    t.listening k = true := by
  obtain ⟨j, u, hj, hu, hopen⟩ := exists_of_listening h
  have hij : i ≠ j := by
    rintro rfl
    obtain ⟨u', hu', hkey, -⟩ := (ho.entry k i).1 hj
    exact hne (Option.some.inj (hw.symm.trans hu') ▸ hkey)
  rw [State.listening, htable, hj, Option.any_some, hworkers, List.getElem?_set_ne hij, hu]
  exact hopen

theorem Lossless.turn (h : Lossless key s) (ho : Owned key s) (hok : Prompt key s a)
    (ht : Turn key s a t) : Lossless key t := by
  cases ht with
  | arrive m loop => exact ⟨h.put, (fun n hn ↦ by cases hn), fun n hn ↦ by cases hn⟩
  | missing m loop isNone => exact ⟨h.put, (fun n hn ↦ by cases hn), fun n hn ↦ by cases hn⟩
  | stop loop =>
    refine ⟨h.put, (fun n hn ↦ by cases hn), fun n hn ↦ ?_⟩
    rw [Prompt] at hok
    cases hn
    rw [hok]
    rfl
  | found m loop isSome =>
    refine ⟨h.put, fun n hn ↦ ?_, fun n hn ↦ by cases hn⟩
    cases hn
    rcases hok m loop with hnone | hlisten
    · rw [hnone] at isSome
      cases isSome
    · exact hlisten
  | insert m loop =>
    refine ⟨h.put, fun n hn ↦ ?_, fun n hn ↦ by cases hn⟩
    cases hn
    simp [State.listening, Channel.new]
  | put m i w loop entry worker isOpen =>
    refine ⟨?_, (fun n hn ↦ by cases hn), fun n hn ↦ by cases hn⟩
    rw [List.map_append, h.put]
    rfl
  | lose m loop deaf =>
    rw [h.sending m loop] at deaf
    cases deaf
  | take i w m queue worker head =>
    exact ⟨h.put, fun n hn ↦ listening_set (h.sending n hn) worker rfl rfl rfl, h.stopped⟩
  | close i w worker kept =>
    exact ⟨h.put, fun n hn ↦
      listening_of_ne ho worker rfl rfl (hok n w hn worker) (h.sending n hn), h.stopped⟩
  | remove i w worker kept closed =>
    refine ⟨h.put, fun n hn ↦ ?_, h.stopped⟩
    -- the worker that is listened for has its inbox, so it is not the one that goes
    have hne : key n ≠ w.key := fun hk ↦ by
      obtain ⟨j, u, hj, hu, hopen⟩ := exists_of_listening (h.sending n hn)
      have hi := (ho.entry _ i).2 ⟨w, worker, hk.symm, kept⟩
      cases hj.symm.trans hi
      cases hu.symm.trans worker
      rw [closed] at hopen
      cases hopen
    exact listening_of_ne ho worker rfl (update_of_ne hne ..) hne.symm (h.sending n hn)

theorem lossless_of_run (h : Run (step key) (Prompt key) (.start κ μ) as s) : Lossless key s :=
  h.invariant_of (fun _ _ _ ho _ hstep ↦ ho.turn (step_turn hstep))
    (fun _ _ _ ho hl hok hstep ↦ hl.turn ho hok (step_turn hstep)) (owned_start key)
    (lossless_start key)

omit [DecidableEq κ] in
theorem deaf_set {i : ℕ} {v : Worker κ μ} {k : κ} (h : s.listening k = false)
    (hworkers : t.workers = s.workers.set i v) (hclosed : v.inbox.isOpen = false)
    (htable : ∀ j, t.table k = some j → s.table k = some j) : t.listening k = false := by
  rw [Bool.eq_false_iff]
  intro hlisten
  obtain ⟨j, u, hj, hu, hopen⟩ := exists_of_listening hlisten
  rw [hworkers, List.getElem?_set] at hu
  split_ifs at hu
  · rw [← Option.some.inj hu, hclosed] at hopen
    cases hopen
  · rw [State.listening, htable j hj, Option.any_some, hu, Option.any_some, hopen] at h
    cases h

/-- A key that nobody listens for stays so until a worker is made for it. -/
theorem deaf_turn {k : κ} (h : s.listening k = false) (ha : a ≠ .insert) (ht : Turn key s a t) :
    t.listening k = false := by
  cases ht with
  | arrive | found | missing | lose | stop => exact h
  | insert => exact absurd rfl ha
  | put m i w loop entry worker isOpen =>
    exact listening_set h worker rfl rfl isOpen.symm
  | take i w m queue worker head =>
    exact listening_set h worker rfl rfl rfl
  | close i w worker kept =>
    exact deaf_set h rfl rfl fun j hj ↦ hj
  | remove i w worker kept closed =>
    refine deaf_set h rfl closed fun j hj ↦ ?_
    by_cases hk : k = w.key
    · rw [hk] at hj
      cases (update_self ..).symm.trans hj
    · exact (update_of_ne hk ..).symm.trans hj

/-- A message whose key nobody listens for any more is lost, whatever happens before it is sent. -/
theorem lost_of_run {ok : State κ μ → Action μ → Prop} {m : μ} (h : Run (step key) ok s as t)
    (hloop : s.loop = .sending m) (hdeaf : s.listening (key m) = false) (hsend : .send ∉ as) :
    t.listening (key m) = false ∧ t.put = s.put ∧
      (t.loop = .sending m ∨ t.loop = .stopped (some m)) := by
  suffices ∀ s as t, Run (step key) ok s as t → s.listening (key m) = false →
      (s.loop = .sending m ∨ s.loop = .stopped (some m)) → .send ∉ as →
      t.listening (key m) = false ∧ t.put = s.put ∧
        (t.loop = .sending m ∨ t.loop = .stopped (some m)) from
    this s as t h hdeaf (.inl hloop) hsend
  clear h hloop hdeaf hsend
  intro s as t h
  induction h with
  | nil s => exact fun hdeaf hloop _ ↦ ⟨hdeaf, rfl, hloop⟩
  | @cons s u t a as hok hstep hrun ih =>
    intro hdeaf hloop hsend
    rw [List.mem_cons, not_or] at hsend
    have hturn := step_turn hstep
    have hu : a ≠ .insert ∧ u.put = s.put ∧
        (u.loop = .sending m ∨ u.loop = .stopped (some m)) := by
      cases hturn with
      | arrive n loop => rw [loop] at hloop; simp at hloop
      | found n loop _ => rw [loop] at hloop; simp at hloop
      | missing n loop _ => rw [loop] at hloop; simp at hloop
      | insert n loop => rw [loop] at hloop; simp at hloop
      | put | lose => exact absurd rfl hsend.1
      | stop loop =>
        rcases hloop with hloop | hloop
        · rw [hloop]
          exact ⟨by simp, rfl, .inr rfl⟩
        · exact absurd hloop (loop _)
      | take | close | remove => exact ⟨by simp, rfl, hloop⟩
    obtain ⟨hlisten, hput, hloop'⟩ := ih (deaf_turn hdeaf hu.1 hturn) hu.2.2 hsend.2
    exact ⟨hlisten, hput.trans hu.2.1, hloop'⟩

end

end MusicRemote.Foundation.Dispatch
