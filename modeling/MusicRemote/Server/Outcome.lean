import MusicRemote.Server.Session

namespace MusicRemote.Server

open Protocol

/-- What a step comes to, with what it asks of the state before. -/
inductive Outcome (env : Env) (s : State) : Action → State → Prop
  | spawn : s.shutdown = false → Outcome env s .spawn (spawn s)
  | start {t : ℕ} : (s.session t).phase = .starting → s.guard = none →
      Outcome env s (.start t) (onSessionStart s t)
  | eof {t : ℕ} : (s.session t).phase = .selecting .reading →
      Outcome env s (.readBuf t []) (s.setPhase t (.selecting .returned))
  | read {t : ℕ} {bytes : List UInt8} : (s.session t).phase = .selecting .reading →
      Outcome env s (.readBuf t bytes) (s.update t { s.session t with
        phase := .selecting .unpacking, buffer := (s.session t).buffer ++ bytes })
  | readError {t : ℕ} : (s.session t).phase = .selecting .reading →
      Outcome env s (.readError t) (s.setPhase t (.selecting .returned))
  | recvFrame {t : ℕ} : (s.session t).phase = .selecting .unpacking →
      Outcome env s (.recvFrame t) (onRecvFrame env s t)
  | recvMessage {t k : ℕ} {message : Message} :
      (s.session t).phase = .selecting (.received k message) →
      Outcome env s (.recvMessage t) (onRecvMessage env s t k message)
  | lock {t k : ℕ} {push : PushMediaKeyEvent} {entries : List Entry} :
      (s.session t).phase = .selecting (.locking k push) → s.guard = none →
      entries.Perm s.players.entries →
      Outcome env s (.lock t entries) (lockPlayers s t k push entries)
  | push {t k : ℕ} {push : PushMediaKeyEvent} {rest : List Player} :
      (s.session t).phase = .selecting (.pushing k push rest) →
      Outcome env s (.push t) (broadcast s t k push rest)
  | respond {t k : ℕ} : (s.session t).phase = .selecting (.responding k) →
      Outcome env s (.respond t) (s.answer t k (.response ⟨true, ""⟩))
  | write {t : ℕ} {ok : Bool} {reader : Reader} {s' : State} :
      (s.session t).phase = .selecting reader → reader.awaits = true →
      pollWrite s t ok = some s' → Outcome env s (.write t ok) s'
  | ping {t : ℕ} {millis : UInt64} {s' : State} : (s.session t).pingTask = true →
      s.send t (.ping ⟨millis⟩) .pingTask = some s' → Outcome env s (.ping t millis) s'
  | unsent {t : ℕ} {millis : UInt64} : Outcome env s (.ping t millis) s
  | endSelect {t : ℕ} {reader : Reader} : (s.session t).phase = .selecting reader →
      reader = .returned ∨ s.shutdown = true ∧ reader.awaits = true →
      Outcome env s (.endSelect t) (endSelect s t)
  | disconnect {t : ℕ} : (s.session t).phase = .closing →
      Outcome env s (.disconnect t) (onDisconnectSession s t)
  | remove {t : ℕ} : (s.session t).phase = .removing → s.guard = none →
      Outcome env s (.remove t) (onSessionClose s t)
  | shutdown : Outcome env s .shutdown { s with shutdown := true }
  | tick {millis : ℕ} : Outcome env s (.tick millis) { s with clock := s.clock + millis }

theorem step_outcome {env : Env} {s s' : State} {a : Action} (h : step env s a = some s') :
    Outcome env s a s' := by
  simp only [step, Option.ite_none_left_eq_some] at h
  replace h := h.2
  cases a with
  | spawn =>
    simp only [act, Option.ite_none_left_eq_some, Option.some.injEq, Bool.not_eq_true] at h
    obtain ⟨hshutdown, rfl⟩ := h
    exact .spawn hshutdown
  | start t =>
    simp only [act, Option.ite_none_right_eq_some, Option.some.injEq] at h
    obtain ⟨⟨hphase, hguard⟩, rfl⟩ := h
    exact .start hphase hguard
  | readBuf t bytes =>
    simp only [act, Option.ite_none_right_eq_some] at h
    obtain ⟨hphase, h⟩ := h
    split_ifs at h with hempty
    · cases h
      rw [List.isEmpty_iff.1 hempty]
      exact .eof hphase
    · cases h
      exact .read hphase
  | readError t =>
    simp only [act, Option.ite_none_right_eq_some, Option.some.injEq] at h
    obtain ⟨hphase, rfl⟩ := h
    exact .readError hphase
  | recvFrame t =>
    simp only [act, Option.ite_none_right_eq_some, Option.some.injEq] at h
    obtain ⟨hphase, rfl⟩ := h
    exact .recvFrame hphase
  | recvMessage t =>
    simp only [act] at h
    split at h
    · cases h
      exact .recvMessage ‹_›
    · cases h
  | lock t entries =>
    simp only [act] at h
    split at h
    · simp only [Option.ite_none_right_eq_some, Option.some.injEq] at h
      obtain ⟨⟨hguard, hperm⟩, rfl⟩ := h
      exact .lock ‹_› hguard hperm
    · cases h
  | push t =>
    simp only [act] at h
    split at h
    · cases h
      exact .push ‹_›
    · cases h
  | respond t =>
    simp only [act] at h
    split at h
    · cases h
      exact .respond ‹_›
    · cases h
  | write t ok =>
    simp only [act] at h
    split at h
    · simp only [Option.ite_none_right_eq_some] at h
      exact .write ‹_› h.1 h.2
    · cases h
  | ping t millis =>
    simp only [act, Option.ite_none_right_eq_some, Option.some.injEq] at h
    obtain ⟨⟨htask, -⟩, rfl⟩ := h
    cases hsend : s.send t (.ping ⟨millis⟩) .pingTask with
    | none => exact .unsent
    | some s' => exact .ping htask hsend
  | endSelect t =>
    simp only [act] at h
    split at h
    · simp only [Option.ite_none_right_eq_some, Option.some.injEq] at h
      obtain ⟨hreader, rfl⟩ := h
      exact .endSelect ‹_› hreader
    · cases h
  | disconnect t =>
    simp only [act, Option.ite_none_right_eq_some, Option.some.injEq] at h
    obtain ⟨hphase, rfl⟩ := h
    exact .disconnect hphase
  | remove t =>
    simp only [act, Option.ite_none_right_eq_some, Option.some.injEq] at h
    obtain ⟨⟨hphase, hguard⟩, rfl⟩ := h
    exact .remove hphase hguard
  | shutdown =>
    cases h
    exact .shutdown
  | tick millis =>
    cases h
    exact .tick

end MusicRemote.Server
