import MusicRemote.App.Activity

namespace MusicRemote.App

open Client Foundation.Transition

def UiPc.isConnecting : UiPc → Bool
  | .connecting _ => true
  | _ => false

def NetworkPc.isConnecting : NetworkPc → Bool
  | .connecting _ => true
  | _ => false

def NetworkPc.isDeciding : NetworkPc → Bool
  | .filtering type _ | .routing type => type.isTerminal
  | _ => false

/-- No connection is left, and no terminal event of one is still to be judged. -/
def State.isEnded (s : State) : Bool := s.activity.live.isEmpty && !s.network.isDeciding

structure State.Resting (s : State) : Prop where
  ui : s.ui.isConnecting = false
  network : s.network.isConnecting = false
  watched : s.activity.isForeground = true ∨ s.isEnded = true

section

variable {s t u : State} {a : Action} {as : List Action}

/-- Unless it connects, the UI thread does not touch the connections. -/
theorem advanceUi_frame {r : Activity × UiPc} (hu : s.ui.isConnecting = false)
    (hr : advanceUi s.activity s.ui = some r) :
    (∃ cur screen, r.1 = { s.activity with curStatus := cur, screen := screen }) ∧
      r.2.isConnecting = false := by
  cases hpc : s.ui with
  | idle => simp [hpc, advanceUi] at hr
  | connecting c => simp [hpc, UiPc.isConnecting] at hu
  | closing =>
    simp only [hpc, advanceUi, Option.some.injEq] at hr
    exact hr ▸ ⟨⟨_, _, rfl⟩, rfl⟩
  | disconnecting c =>
    simp only [hpc, advanceUi, Option.some.injEq] at hr
    subst hr
    refine ⟨changeStatus_frame .disconnecting s.activity c, ?_⟩
    cases (changeStatus .disconnecting s.activity c).2 <;> rfl
  | notifying status c =>
    simp only [hpc, advanceUi, Option.some.injEq] at hr
    subst hr
    refine ⟨changeStatus_frame status s.activity c, ?_⟩
    cases (changeStatus status s.activity c).2 <;> rfl
  | resuming d =>
    simp only [hpc, advanceUi, Option.some.injEq] at hr
    subst hr
    refine ⟨updateUI_frame s.activity d, ?_⟩
    cases (updateUI s.activity d).2 <;> rfl

theorem listens_resting (h : s.Resting) {pc pc' : NetworkPc} {activity : Activity}
    (hpc : s.network = pc) (hl : Listens s.activity pc activity pc') :
    State.Resting { s with activity := activity, network := pc' } := by
  have hw := h.watched
  rw [State.isEnded, hpc] at hw
  cases hl with
  | foreign =>
    refine ⟨h.ui, rfl, hw.imp_right fun he ↦ ?_⟩
    simpa [State.isEnded, NetworkPc.isDeciding] using (Bool.and_eq_true_iff.1 he).1
  | own => exact ⟨h.ui, rfl, hw⟩
  | reconnect hb ht =>
    -- The listener reconnects only in the background, on the end of a connection.
    rcases hw with hf | he
    · cases hb.symm.trans hf
    · simp [NetworkPc.isDeciding, ht] at he
  | data | post => exact ⟨h.ui, rfl, hw⟩
  | route =>
    refine ⟨h.ui, rfl, hw.imp_right fun he ↦ ?_⟩
    simpa [State.isEnded, NetworkPc.isDeciding] using (Bool.and_eq_true_iff.1 he).1
  | connect c => exact absurd h.network (by simp [hpc, NetworkPc.isConnecting])

theorem step_resting (h : s.Resting) (ha : a ≠ .clickConnect)
    (hp : a = .pause → s.isEnded = true) (ht : step s a = some t) : t.Resting := by
  cases step_turn ht with
  | clickConnect => exact absurd rfl ha
  | clickDisconnect => exact ⟨rfl, h.network, h.watched⟩
  | pause => exact ⟨h.ui, h.network, .inr (hp rfl)⟩
  | resume => exact ⟨rfl, h.network, .inl rfl⟩
  | @runPosted type =>
    refine ⟨?_, h.network, h.watched⟩
    cases type <;> rfl
  | ui hr =>
    obtain ⟨⟨cur, screen, hframe⟩, hu⟩ := advanceUi_frame h.ui hr
    dsimp only at hframe
    subst hframe
    exact ⟨hu, h.network, h.watched⟩
  | event _ hmem =>
    refine ⟨h.ui, rfl, .inl (h.watched.resolve_right fun he ↦ ?_)⟩
    rw [State.isEnded, Bool.and_eq_true, List.isEmpty_iff] at he
    rw [he.1] at hmem
    cases hmem
  | vanish =>
    refine ⟨h.ui, h.network, h.watched.imp_right fun he ↦ ?_⟩
    rw [State.isEnded, Bool.and_eq_true, List.isEmpty_iff] at he ⊢
    exact ⟨by rw [he.1]; rfl, he.2⟩
  | network hl => exact listens_resting h rfl hl

theorem State.Resting.silent (h : s.Resting) (a : Action) : s.callsConnect a = false := by
  cases a with
  | ui =>
    refine decide_eq_false fun hu ↦ ?_
    have := h.ui
    rw [hu] at this
    cases this
  | network =>
    refine decide_eq_false fun hn ↦ ?_
    have := h.network
    rw [hn] at this
    cases this
  | clickConnect | clickDisconnect | pause | resume | runPosted | event | vanish => rfl

/-- After a disconnect by the user, `connect` is not called before the next click on Connect,
if the listener is not reconnecting already and the activity is in the background only once
the connections have ended. -/
theorem disconnect_is_final (hs : s.ui = .closing) (hn : s.network.isConnecting = false)
    (hf : s.activity.isForeground = true ∨ s.isEnded = true) (ht : step s .ui = some t)
    (h : Run step (fun s a ↦ a ≠ .clickConnect ∧ (a = .pause → s.isEnded = true)) t as u)
    (a : Action) : u.callsConnect a = false := by
  have hrest : t.Resting :=
    step_resting (a := .ui) ⟨by rw [hs]; rfl, hn, hf⟩ nofun nofun ht
  exact (h.invariant (fun s a t hi ha ht ↦ step_resting hi ha.1 ha.2 ht) hrest).silent a

end

def closedByUser : List Action :=
  [.clickConnect] ++ List.replicate 14 .ui ++ [.event .onConnectSuccess 1] ++
    List.replicate 3 .network ++ [.runPosted] ++ List.replicate 10 .ui ++ [.clickDisconnect] ++
    List.replicate 10 .ui

theorem disconnect_in_foreground_is_final :
    ∃ s t u, Run step Any created closedByUser s ∧ s.ui = .closing ∧ step s .ui = some t ∧
      Run step (fun s a ↦ a ≠ .clickConnect ∧ (a = .pause → s.isEnded = true)) t
        [.event .onDisconnect 1, .network, .network, .pause] u ∧
      ∀ a, u.callsConnect a = false := by
  have hrun : ∃ s, Run step Any created closedByUser s ∧
      (s.ui = .closing ∧ s.network.isConnecting = false ∧ s.activity.isForeground = true ∧
        (step s .ui).any (fun t ↦ (execute step
          (fun s a ↦ a ≠ .clickConnect ∧ (a = .pause → s.isEnded = true)) t
          [.event .onDisconnect 1, .network, .network, .pause]).isSome) = true) :=
    Run.exists_of_execute (by decide +kernel)
  obtain ⟨s, hs, hui, hn, hf, ht⟩ := hrun
  obtain ⟨t, ht, hu⟩ := (Option.any_eq_true ..).1 ht
  obtain ⟨u, hu⟩ := Option.isSome_iff_exists.1 hu
  have hu := Run.of_execute hu
  exact ⟨s, t, u, hs, hui, ht, hu, disconnect_is_final hui hn (.inl hf) ht hu⟩

/-- The app goes to the background before the connection that the user closed ends. -/
theorem closed_connection_is_reopened :
    ∃ s t u, Run step Any created closedByUser s ∧ s.ui = .closing ∧ step s .ui = some t ∧
      Run step (fun _ a ↦ a ≠ .clickConnect) t
        ([.pause, .event .onDisconnect 1] ++ List.replicate 7 .network) u ∧
      u.callsConnect .network = true := by
  have hrun : ∃ s, Run step Any created closedByUser s ∧
      (s.ui = .closing ∧ (step s .ui).any (fun t ↦ (execute step
        (fun _ a ↦ a ≠ .clickConnect) t
        ([.pause, .event .onDisconnect 1] ++ List.replicate 7 .network)).any
          (·.callsConnect .network)) = true) :=
    Run.exists_of_execute (by decide +kernel)
  obtain ⟨s, hs, hui, ht⟩ := hrun
  obtain ⟨t, ht, hu⟩ := (Option.any_eq_true ..).1 ht
  obtain ⟨u, hu, hc⟩ := (Option.any_eq_true ..).1 hu
  exact ⟨s, t, u, hs, hui, ht, .of_execute hu, hc⟩

end MusicRemote.App
