import MusicRemote.App.Activity

namespace MusicRemote.App

open Client Foundation.Transition

def Screen.Has (screen : Screen) (status : Status) (view : View) : Prop :=
  screen.set status view = screen

def Screen.Shows (screen : Screen) (status : Status) : Prop := ∀ view, screen.Has status view

theorem Screen.set_comm (screen : Screen) (status : Status) (v w : View) :
    (screen.set status v).set status w = (screen.set status w).set status v := by
  cases v <;> cases w <;> rfl

theorem Screen.has_set_self (screen : Screen) (status : Status) (view : View) :
    (screen.set status view).Has status view := by
  cases view <;> rfl

theorem Screen.Has.set {screen : Screen} {status : Status} {view : View}
    (h : screen.Has status view) (w : View) : (screen.set status w).Has status view := by
  rw [Has, set_comm, h]

theorem Screen.Shows.textViewStatus {screen : Screen} {status : Status}
    (h : screen.Shows status) : screen.textViewStatus = status.text :=
  congrArg Screen.textViewStatus (h .textViewStatus).symm

def NetworkPc.isChanging : NetworkPc → Bool
  | .connecting (.changing _) => true
  | _ => false

def NetworkPc.isDrawing : NetworkPc → Bool
  | .connecting (.changing (.draw _)) => true
  | _ => false

def UiPc.isUpdating : UiPc → Bool
  | .connecting (.changing _) | .disconnecting _ | .notifying _ _ | .resuming _ => true
  | .idle | .closing | .connecting _ => false

def Drawing.Faithful (screen : Screen) (cur : Status) : Drawing → Prop
  | .read => True
  | .write status views => status = cur ∧ ∀ view, view ∉ views → screen.Has status view

def Changing.Faithful (screen : Screen) (cur : Status) : Changing → Prop
  | .test | .set => screen.Shows cur
  | .ask => True
  | .draw d => d.Faithful screen cur

def UiPc.Faithful (screen : Screen) (cur : Status) : UiPc → Prop
  | .idle | .closing => screen.Shows cur
  | .connecting (.changing c) | .disconnecting c | .notifying _ c => c.Faithful screen cur
  | .connecting _ => screen.Shows cur
  | .resuming d => d.Faithful screen cur

/-- In the foreground the screen follows the status. The listener changes the status in the
background only, and never comes to the screen. -/
structure State.Displayed (s : State) : Prop where
  background : s.network.isChanging = true → s.activity.isForeground = false
  offScreen : s.network.isDrawing = false
  faithful : s.activity.isForeground = true →
    s.ui.Faithful s.activity.screen s.activity.curStatus

section

variable {s t : State} {a : Action} {as : List Action}

/-- A part of a handler goes on to a place that is faithful, or ends with the screen as it should
be. -/
def Leads {α : Type} (faithful : Screen → Status → α → Prop) (r : Activity × Option α) : Prop :=
  match r.2 with
  | some next => faithful r.1.screen r.1.curStatus next
  | none => r.1.screen.Shows r.1.curStatus

theorem updateUI_faithful {s : Activity} {d : Drawing} (h : d.Faithful s.screen s.curStatus) :
    Leads Drawing.Faithful (updateUI s d) := by
  cases d with
  | read =>
    refine ⟨rfl, fun view hview ↦ absurd ?_ hview⟩
    cases view <;> decide
  | write status views =>
    obtain ⟨rfl, hviews⟩ := h
    cases views with
    | nil => exact fun view ↦ hviews view List.not_mem_nil
    | cons v views =>
      refine ⟨rfl, fun view hview ↦ ?_⟩
      by_cases hv : view = v
      · subst hv
        exact Screen.has_set_self ..
      · apply Screen.Has.set
        apply hviews
        simp [hv, hview]

theorem changeStatus_faithful {s : Activity} {c : Changing} (status : Status)
    (hf : s.isForeground = true) (h : c.Faithful s.screen s.curStatus) :
    Leads Changing.Faithful (changeStatus status s c) := by
  cases c with
  | test =>
    simp only [changeStatus]
    split_ifs <;> exact h
  | set => trivial
  | ask =>
    simp only [changeStatus, hf, if_true]
    trivial
  | draw d =>
    have hd := updateUI_faithful h
    simp only [changeStatus, Leads] at hd ⊢
    cases hnext : (updateUI s d).2 with
    | none => rwa [hnext] at hd
    | some d' => rwa [hnext] at hd

/-- What leads on inside a handler does so for the handler. -/
theorem Leads.handler {α : Type} {faithful : Screen → Status → α → Prop} {r : Activity × Option α}
    {wrap : α → UiPc} {done : UiPc} (h : Leads faithful r)
    (hwrap : ∀ screen cur x, faithful screen cur x → (wrap x).Faithful screen cur)
    (hdone : ∀ screen cur, screen.Shows cur → done.Faithful screen cur) :
    ((r.2.map wrap).getD done).Faithful r.1.screen r.1.curStatus := by
  obtain ⟨t, next⟩ := r
  cases next with
  | none => exact hdone _ _ h
  | some x => exact hwrap _ _ x h

theorem connect_faithful {s : Activity} {c : Connecting} (hf : s.isForeground = true)
    (h : (UiPc.connecting c).Faithful s.screen s.curStatus) :
    (((connect s c).2.map .connecting).getD .idle : UiPc).Faithful (connect s c).1.screen
      (connect s c).1.curStatus := by
  cases c with
  | changing c =>
    have hc : (((changeStatus .connecting s c).2.map fun c ↦ .connecting (.changing c)).getD
        (.connecting .predicting) : UiPc).Faithful (changeStatus .connecting s c).1.screen
          (changeStatus .connecting s c).1.curStatus := by
      apply (changeStatus_faithful .connecting hf h).handler
      · exact fun _ _ _ h ↦ h
      · exact fun _ _ h ↦ h
    simp only [connect]
    cases hnext : (changeStatus .connecting s c).2 with
    | none => rwa [hnext] at hc
    | some c' => rwa [hnext] at hc
  | predicting | storing | calling | assigning => exact h

theorem isForeground_updateUI (s : Activity) (d : Drawing) :
    (updateUI s d).1.isForeground = s.isForeground := by
  obtain ⟨cur, screen, h⟩ := updateUI_frame s d
  rw [h]

theorem isForeground_changeStatus (status : Status) (s : Activity) (c : Changing) :
    (changeStatus status s c).1.isForeground = s.isForeground := by
  obtain ⟨cur, screen, h⟩ := changeStatus_frame status s c
  rw [h]

theorem isForeground_connect (s : Activity) (c : Connecting) :
    (connect s c).1.isForeground = s.isForeground := by
  cases c with
  | changing c => exact isForeground_changeStatus .connecting s c
  | predicting | storing | calling | assigning => rfl

theorem advanceUi_faithful {s t : Activity} {pc pc' : UiPc}
    (hr : advanceUi s pc = some (t, pc')) :
    t.isForeground = s.isForeground ∧ (s.isForeground = true →
      pc.Faithful s.screen s.curStatus → pc'.Faithful t.screen t.curStatus) := by
  cases pc with
  | idle => cases hr
  | connecting c =>
    cases hr
    exact ⟨isForeground_connect s c, connect_faithful⟩
  | disconnecting c =>
    cases hr
    refine ⟨isForeground_changeStatus .disconnecting s c, fun hf h ↦ ?_⟩
    apply (changeStatus_faithful .disconnecting hf h).handler
    · exact fun _ _ _ h ↦ h
    · exact fun _ _ h ↦ h
  | closing =>
    cases hr
    exact ⟨rfl, fun _ h ↦ h⟩
  | notifying status c =>
    cases hr
    refine ⟨isForeground_changeStatus status s c, fun hf h ↦ ?_⟩
    apply (changeStatus_faithful status hf h).handler
    · exact fun _ _ _ h ↦ h
    · exact fun _ _ h ↦ h
  | resuming d =>
    cases hr
    refine ⟨isForeground_updateUI s d, fun hf h ↦ ?_⟩
    apply (updateUI_faithful h).handler
    · exact fun _ _ _ h ↦ h
    · exact fun _ _ h ↦ h

/-- In the background the listener passes through `changeStatus` without coming to the screen. -/
theorem connect_offScreen {s : Activity} {c : Changing} (hf : s.isForeground = false)
    (hc : (NetworkPc.connecting (.changing c)).isDrawing = false) :
    (((connect s (.changing c)).2.map .connecting).getD .idle : NetworkPc).isDrawing = false := by
  cases c with
  | test =>
    simp only [connect, changeStatus]
    split_ifs <;> rfl
  | set => rfl
  | ask =>
    simp only [connect, changeStatus, hf]
    rfl
  | draw => cases hc

theorem listens_displayed (h : s.Displayed) {n n' : NetworkPc} {activity : Activity}
    (hn : s.network = n) (hl : Listens s.activity n activity n') :
    State.Displayed { s with activity := activity, network := n' } := by
  have hback := h.background
  have hoff := h.offScreen
  rw [hn] at hback hoff
  cases hl with
  | foreign | own | data | route | post =>
    exact ⟨(fun hc ↦ by cases hc), rfl, h.faithful⟩
  | reconnect hf _ => exact ⟨fun _ ↦ hf, rfl, h.faithful⟩
  | connect c =>
    cases c with
    | changing c =>
      have hf : (connect s.activity (.changing c)).1.isForeground = false :=
        (isForeground_connect ..).trans (hback rfl)
      refine ⟨fun _ ↦ hf, connect_offScreen (hback rfl) hoff, fun hf' ↦ ?_⟩
      cases hf.symm.trans hf'
    | predicting | storing | calling | assigning =>
      exact ⟨(fun hc ↦ by cases hc), rfl, h.faithful⟩

theorem step_displayed (h : s.Displayed) (ha : a = .resume → s.network.isChanging = false)
    (ht : step s a = some t) : t.Displayed := by
  have hidle (hui : s.ui = .idle) (hf : s.activity.isForeground = true) :
      s.activity.screen.Shows s.activity.curStatus := by
    have := h.faithful hf
    rwa [hui] at this
  cases step_turn ht with
  | clickConnect hui _ | clickDisconnect hui _ => exact ⟨h.background, h.offScreen, hidle hui⟩
  | pause => exact ⟨fun _ ↦ rfl, h.offScreen, fun hf ↦ by cases hf⟩
  | resume =>
    refine ⟨fun hc ↦ ?_, h.offScreen, fun _ ↦ trivial⟩
    cases (ha rfl).symm.trans hc
  | @runPosted type posted hui _ =>
    refine ⟨h.background, h.offScreen, fun hf ↦ ?_⟩
    cases type <;> exact hidle hui hf
  | ui hr =>
    obtain ⟨hfore, hfaithful⟩ := advanceUi_faithful hr
    refine ⟨fun hc ↦ hfore.trans (h.background hc), h.offScreen, fun hf ↦ ?_⟩
    have hf' := hfore.symm.trans hf
    exact hfaithful hf' (h.faithful hf')
  | event => exact ⟨(fun hc ↦ by cases hc), rfl, h.faithful⟩
  | vanish => exact ⟨h.background, h.offScreen, h.faithful⟩
  | network hl => exact listens_displayed h rfl hl

theorem created_displayed : created.Displayed where
  background h := by cases h
  offScreen := rfl
  faithful _ view := by cases view <;> rfl

/-- While the app is not resumed in the middle of the listener's `changeStatus`, only the UI thread
draws, and in the foreground the screen shows the status whenever no update is in progress. -/
theorem screen_shows_the_status
    (h : Run step (fun s a ↦ a = .resume → s.network.isChanging = false) created as s) :
    s.network.isDrawing = false ∧
      (s.activity.isForeground = true → s.ui.isUpdating = false →
        s.activity.screen.Shows s.activity.curStatus ∧
          s.activity.screen.textViewStatus = s.activity.curStatus.text) := by
  have hd : s.Displayed := h.invariant (fun _ _ _ hi ha ht ↦ step_displayed hi ha ht)
    created_displayed
  refine ⟨hd.offScreen, fun hf hui ↦ ?_⟩
  have hshows : s.activity.screen.Shows s.activity.curStatus := by
    have hfaithful := hd.faithful hf
    cases hpc : s.ui with
    | idle | closing =>
      rw [hpc] at hfaithful
      exact hfaithful
    | connecting c =>
      rw [hpc] at hfaithful hui
      cases c with
      | changing => cases hui
      | predicting | storing | calling | assigning => exact hfaithful
    | disconnecting | notifying | resuming =>
      rw [hpc] at hui
      cases hui
  exact ⟨hshows, hshows.textViewStatus⟩

end

def established : List Action :=
  List.flatten [[.clickConnect], List.replicate 14 .ui, [.event .onConnectSuccess 1],
    List.replicate 3 .network, [.runPosted], List.replicate 10 .ui]

def endedInBackground : List Action := established ++ [.pause, .event .onDisconnect 1]

def resumedInTime : List Action :=
  List.flatten [endedInBackground, List.replicate 9 .network, [.resume], List.replicate 7 .ui]

theorem resumed_screen_shows_the_status :
    ∃ s, Run step (fun s a ↦ a = .resume → s.network.isChanging = false) created
        resumedInTime s ∧
      s.activity.curStatus = .connecting ∧ s.activity.screen.textViewStatus = "connecting" := by
  have hrun : ∃ s, Run step (fun s a ↦ a = .resume → s.network.isChanging = false) created
      resumedInTime s ∧
        (s.activity.isForeground = true ∧ s.ui.isUpdating = false ∧
          s.activity.curStatus = .connecting) :=
    Run.exists_of_execute (by decide +kernel)
  obtain ⟨s, hs, hf, hui, hcur⟩ := hrun
  have hshown := ((screen_shows_the_status hs).2 hf hui).2
  rw [hcur] at hshown
  exact ⟨s, hs, hcur, hshown⟩

/-- The app is resumed after the listener has decided to reconnect. -/
def resumedMeanwhile : List Action :=
  List.flatten [endedInBackground, List.replicate 3 .network, [.resume]]

def disconnectedMeanwhile : List Action :=
  List.flatten [resumedMeanwhile, List.replicate 7 .ui, List.replicate 3 .network,
    [.clickDisconnect], List.replicate 11 .ui, List.replicate 10 .network]

/-- The listener draws, and can leave the screen with a status that is not the current one. -/
theorem listener_draws_after_resume :
    (∃ s, Run step Any created (resumedMeanwhile ++ [.network, .network]) s ∧
      s.network.isDrawing = true) ∧
    ∃ s, Run step Any created disconnectedMeanwhile s ∧
      (s.activity.isForeground = true ∧ s.ui = .idle ∧ s.network = .idle ∧
        s.activity.posted = [] ∧ s.activity.curStatus = .disconnecting ∧
        s.activity.screen.textViewStatus = "connecting") :=
  ⟨Run.exists_of_execute (by decide +kernel), Run.exists_of_execute (by decide +kernel)⟩

end MusicRemote.App
