import MusicRemote.App.Reconnect

namespace MusicRemote.App

open Client Foundation.Transition

/-- The right to start a connection passes on: from a connection to the listener that has its
terminal event, from there into a reconnect or a posted runnable, from the runnable to the
status, and from there to a click on Connect. -/
def NetworkPc.token : NetworkPc → ℕ
  | .filtering type _ | .routing type | .posting type => type.isTerminal.toNat
  | .connecting _ => 1
  | .idle => 0

def UiPc.token : UiPc → ℕ
  | .notifying .disconnected .test | .notifying .disconnected .set => 1
  | _ => 0

def State.isReady (s : State) : Bool :=
  s.activity.curStatus = .disconnected || s.ui.isConnecting

def State.tokens (s : State) : ℕ :=
  s.activity.live.length + s.network.token + s.activity.posted.countP EventType.isTerminal +
    s.ui.token + s.isReady.toNat

def UiPc.isPast : UiPc → Bool
  | .connecting (.changing .test) | .connecting (.changing .set) => false
  | .connecting _ => true
  | _ => false

def Drawing.isDrawing : Drawing → Bool
  | .read => true
  | .write _ views => views.contains .buttonConnect

def Changing.isDrawing : Changing → Bool
  | .ask => true
  | .draw drawing => drawing.isDrawing
  | _ => false

def UiPc.isDrawing : UiPc → Bool
  | .connecting (.changing c) | .disconnecting c | .notifying _ c => c.isDrawing
  | .resuming d => d.isDrawing
  | _ => false

def Changing.drawing : Changing → Option Drawing
  | .draw drawing => some drawing
  | _ => none

def UiPc.drawing : UiPc → Option Drawing
  | .connecting (.changing c) | .disconnecting c | .notifying _ c => c.drawing
  | .resuming d => some d
  | _ => none

structure State.Single (s : State) : Prop where
  tokens : s.tokens ≤ 1
  past : s.ui.isPast = true → s.activity.curStatus ≠ .disconnected
  shown : s.activity.isForeground = true → s.activity.screen.buttonConnect = true →
    s.activity.curStatus = .disconnected ∨ s.ui.isDrawing = true
  drawn : ∀ views, s.ui.drawing = some (.write .disconnected views) →
    s.activity.curStatus = .disconnected
  blank : ∀ views, s.network ≠ .connecting (.changing (.draw (.write .disconnected views)))

section

variable {s t : State} {a : Action} {activity : Activity} {pc : UiPc}

/-- A step that leaves the status and the right to connect where they are. -/
theorem State.Single.keep (h : s.Single) (hcur : activity.curStatus = s.activity.curStatus)
    (hlive : activity.live = s.activity.live) (hposted : activity.posted = s.activity.posted)
    (htoken : pc.token ≤ s.ui.token) (hconn : pc.isConnecting = s.ui.isConnecting)
    (hpast : pc.isPast = true → s.activity.curStatus ≠ .disconnected)
    (hshown : activity.isForeground = true → activity.screen.buttonConnect = true →
      s.activity.curStatus = .disconnected ∨ pc.isDrawing = true)
    (hdrawn : ∀ views, pc.drawing = some (.write .disconnected views) →
      s.activity.curStatus = .disconnected) :
    State.Single { s with activity := activity, ui := pc } where
  tokens := by
    have := h.tokens
    simp only [State.tokens, State.isReady, hcur, hlive, hposted, hconn] at this ⊢
    omega
  past := by rwa [hcur]
  shown := by rwa [hcur]
  drawn := by rwa [hcur]
  blank := h.blank

structure IsDrawer (wrap : Drawing → UiPc) (done : UiPc) : Prop where
  drawing : ∀ d, (wrap d).drawing = some d
  isDrawing : ∀ d, (wrap d).isDrawing = d.isDrawing
  token : ∀ d, (wrap d).token = 0
  connecting : ∀ d, (wrap d).isConnecting = done.isConnecting
  past : ∀ d, (wrap d).isPast = done.isPast
  doneDrawing : done.drawing = none
  doneToken : done.token = 0

theorem IsDrawer.single {wrap : Drawing → UiPc} {done : UiPc} (w : IsDrawer wrap done)
    (h : s.Single) {d : Drawing} (hui : s.ui = wrap d) :
    State.Single { s with
      activity := (updateUI s.activity d).1
      ui := ((updateUI s.activity d).2.map wrap).getD done } := by
  have hpast := h.past
  have hshown := h.shown
  have hdrawn := h.drawn
  rw [hui] at hpast hshown hdrawn
  rw [w.isDrawing] at hshown
  rw [w.past] at hpast
  cases d with
  | read =>
    refine h.keep rfl rfl rfl ?_ ?_ ?_ (fun _ _ ↦ .inr ?_) fun views hv ↦ ?_
    · exact (w.token _).trans_le (Nat.zero_le _)
    · exact hui ▸ (w.connecting _).trans (w.connecting _).symm
    · exact fun hp ↦ hpast (w.past _ ▸ hp)
    · exact w.isDrawing _
    · have := (w.drawing _).symm.trans hv
      simp only [Option.some.injEq, Drawing.write.injEq] at this
      exact this.1
  | write status views =>
    cases views with
    | nil =>
      refine h.keep rfl rfl rfl ?_ ?_ hpast ?_ ?_
      · exact w.doneToken.trans_le (Nat.zero_le _)
      · exact hui ▸ (w.connecting _).symm
      · intro hf hb
        exact .inl ((hshown hf hb).resolve_right Bool.false_ne_true)
      · intro views hv
        cases w.doneDrawing.symm.trans hv
    | cons view views =>
      refine h.keep rfl rfl rfl ?_ ?_ ?_ ?_ ?_
      · exact (w.token _).trans_le (Nat.zero_le _)
      · exact hui ▸ (w.connecting _).trans (w.connecting _).symm
      · exact fun hp ↦ hpast (w.past _ ▸ hp)
      · intro hf hb
        by_cases hview : view = .buttonConnect
        · subst hview
          obtain rfl := of_decide_eq_true hb
          exact .inl (hdrawn _ (w.drawing _))
        · have hb' : s.activity.screen.buttonConnect = true := by
            cases view <;> first | exact hb | exact absurd rfl hview
          refine (hshown hf hb').imp_right fun hd ↦ (w.isDrawing _).trans ?_
          simpa [Drawing.isDrawing, Ne.symm hview] using hd
      · intro views' hv
        have := (w.drawing _).symm.trans hv
        simp only [Option.some.injEq, Drawing.write.injEq] at this
        exact hdrawn (view :: views) ((w.drawing _).trans (by rw [this.1]))

def Changing.isBefore : Changing → Bool
  | .test | .set => true
  | .ask | .draw _ => false

structure IsChanger (status : Status) (wrap : Changing → UiPc) (done : UiPc) : Prop where
  drawing : ∀ c, (wrap c).drawing = c.drawing
  isDrawing : ∀ c, (wrap c).isDrawing = c.isDrawing
  token : ∀ c, (wrap c).token = (status = .disconnected && c.isBefore).toNat
  connecting : ∀ c, (wrap c).isConnecting = done.isConnecting
  past : ∀ c, (wrap c).isPast = (done.isConnecting && !c.isBefore)
  doneDrawing : done.drawing = none
  doneToken : done.token = 0
  donePast : done.isPast = done.isConnecting
  status : done.isConnecting = true → status ≠ .disconnected

theorem IsChanger.drawer {status : Status} {wrap : Changing → UiPc} {done : UiPc}
    (w : IsChanger status wrap done) : IsDrawer (fun d ↦ wrap (.draw d)) done where
  drawing d := w.drawing _
  isDrawing d := w.isDrawing _
  token d := by rw [w.token, Changing.isBefore, Bool.and_false, Bool.toNat_false]
  connecting d := w.connecting _
  past d := by rw [w.past, w.donePast, Changing.isBefore, Bool.not_false, Bool.and_true]
  doneDrawing := w.doneDrawing
  doneToken := w.doneToken

theorem IsChanger.single {status : Status} {wrap : Changing → UiPc} {done : UiPc}
    (w : IsChanger status wrap done) (h : s.Single) {c : Changing} (hui : s.ui = wrap c) :
    State.Single { s with
      activity := (changeStatus status s.activity c).1
      ui := ((changeStatus status s.activity c).2.map wrap).getD done } := by
  have hpast := h.past
  have hshown := h.shown
  rw [hui] at hpast hshown
  rw [w.isDrawing] at hshown
  rw [w.past] at hpast
  cases c with
  | test =>
    have hshown' : s.activity.isForeground = true → s.activity.screen.buttonConnect = true →
        s.activity.curStatus = .disconnected :=
      fun hf hb ↦ (hshown hf hb).resolve_right Bool.false_ne_true
    by_cases hcur : s.activity.curStatus = status
    · simp only [changeStatus, ne_eq, hcur, not_true_eq_false, if_false, Option.map_none,
        Option.getD_none]
      refine h.keep rfl rfl rfl ?_ ?_ ?_ ?_ ?_
      · rw [w.doneToken]
        exact Nat.zero_le _
      · exact hui ▸ (w.connecting _).symm
      · rw [w.donePast, hcur]
        exact w.status
      · exact fun hf hb ↦ .inl (hshown' hf hb)
      · intro views hv
        cases w.doneDrawing.symm.trans hv
    · simp only [changeStatus, ne_eq, hcur, not_false_eq_true, if_true, Option.map_some,
        Option.getD_some]
      refine h.keep rfl rfl rfl ?_ ?_ ?_ ?_ ?_
      · rw [hui, w.token, w.token]
        exact Nat.le_refl _
      · exact hui ▸ (w.connecting _).trans (w.connecting _).symm
      · rw [w.past]
        exact hpast
      · exact fun hf hb ↦ .inl (hshown' hf hb)
      · intro views hv
        cases (w.drawing _).symm.trans hv
  | set =>
    simp only [changeStatus, Option.map_some, Option.getD_some]
    refine ⟨?_, ?_, fun _ _ ↦ .inr (w.isDrawing _), fun views hv ↦ ?_, h.blank⟩
    · have htokens := h.tokens
      have hle : ∀ x y z : Bool,
          (x && false).toNat + (x || z).toNat ≤ (x && true).toNat + (y || z).toNat := by decide
      have := hle (status = .disconnected) (s.activity.curStatus = .disconnected)
        done.isConnecting
      simp only [State.tokens, State.isReady, hui, w.token, w.connecting, Changing.isBefore]
        at htokens ⊢
      omega
    · intro hp
      rw [w.past, Changing.isBefore, Bool.not_false, Bool.and_true] at hp
      exact w.status hp
    · cases (w.drawing _).symm.trans hv
  | ask =>
    cases hf : s.activity.isForeground with
    | true =>
      simp only [changeStatus, hf, if_true, Option.map_some, Option.getD_some]
      refine h.keep rfl rfl rfl ?_ ?_ ?_ (fun _ _ ↦ .inr (w.isDrawing _)) fun views hv ↦ ?_
      · rw [hui, w.token, w.token]
        exact Nat.le_refl _
      · exact hui ▸ (w.connecting _).trans (w.connecting _).symm
      · rw [w.past]
        exact hpast
      · cases (w.drawing _).symm.trans hv
    | false =>
      simp only [changeStatus, hf, Bool.false_eq_true, if_false, Option.map_none,
        Option.getD_none]
      refine h.keep rfl rfl rfl ?_ ?_ ?_ ?_ ?_
      · rw [w.doneToken]
        exact Nat.zero_le _
      · exact hui ▸ (w.connecting _).symm
      · rw [w.donePast]
        exact fun hd ↦ hpast (by rw [hd]; rfl)
      · intro hf'
        cases hf.symm.trans hf'
      · intro views hv
        cases w.doneDrawing.symm.trans hv
  | draw d =>
    have hd := w.drawer.single h hui
    simp only [changeStatus, Option.map_map]
    exact hd

theorem connecting_changer :
    IsChanger .connecting (fun c ↦ .connecting (.changing c)) (.connecting .predicting) where
  drawing _ := rfl
  isDrawing _ := rfl
  token _ := rfl
  connecting _ := rfl
  past c := by cases c <;> rfl
  doneDrawing := rfl
  doneToken := rfl
  donePast := rfl
  status _ h := by cases h

theorem disconnecting_changer : IsChanger .disconnecting .disconnecting .closing where
  drawing _ := rfl
  isDrawing _ := rfl
  token _ := rfl
  connecting _ := rfl
  past _ := rfl
  doneDrawing := rfl
  doneToken := rfl
  donePast := rfl
  status h := by cases h

theorem notifying_changer (status : Status) : IsChanger status (.notifying status) .idle where
  drawing _ := rfl
  isDrawing _ := rfl
  token c := by cases status <;> cases c <;> rfl
  connecting _ := rfl
  past _ := rfl
  doneDrawing := rfl
  doneToken := rfl
  donePast := rfl
  status h := by cases h

theorem resuming_drawer : IsDrawer .resuming .idle where
  drawing _ := rfl
  isDrawing _ := rfl
  token _ := rfl
  connecting _ := rfl
  past _ := rfl
  doneDrawing := rfl
  doneToken := rfl

theorem connecting_single (h : s.Single) {c : Connecting} (hui : s.ui = .connecting c) :
    State.Single { s with
      activity := (connect s.activity c).1
      ui := ((connect s.activity c).2.map .connecting).getD .idle } := by
  have hpast := h.past
  have hshown := h.shown
  rw [hui] at hpast hshown
  cases c with
  | changing c =>
    have hc := connecting_changer.single h hui
    simp only [connect]
    cases hnext : (changeStatus .connecting s.activity c).2 with
    | none =>
      rw [hnext] at hc
      exact hc
    | some c' =>
      rw [hnext] at hc
      exact hc
  | predicting | storing | calling =>
    refine h.keep rfl rfl rfl (Nat.zero_le _) (by rw [hui]; rfl) (fun _ ↦ hpast rfl) ?_ ?_
    · exact fun hf hb ↦ .inl ((hshown hf hb).resolve_right Bool.false_ne_true)
    · intro views hv
      cases hv
  | assigning id =>
    -- The status has been changed before, so the connection takes over the token.
    have hcur := hpast rfl
    have hshown' (hf : s.activity.isForeground = true)
        (hb : s.activity.screen.buttonConnect = true) : s.activity.curStatus = .disconnected :=
      (hshown hf hb).resolve_right Bool.false_ne_true
    refine ⟨?_, (fun hp ↦ by cases hp), fun hf hb ↦ .inl (hshown' hf hb),
      (fun _ hv ↦ by cases hv), h.blank⟩
    have htokens := h.tokens
    simp only [State.tokens, State.isReady, hui, UiPc.isConnecting, Bool.or_true,
      Bool.toNat_true] at htokens
    simp only [State.tokens, State.isReady, connect, hcur, Option.map_none, Option.getD_none,
      UiPc.isConnecting, decide_false, Bool.or_false, Bool.toNat_false, List.length_append,
      List.length_singleton]
    have : UiPc.idle.token = 0 := rfl
    omega

theorem advanceUi_single (h : s.Single) {r : Activity × UiPc}
    (hr : advanceUi s.activity s.ui = some r) :
    State.Single { s with activity := r.1, ui := r.2 } := by
  cases hui : s.ui with
  | idle => simp [hui, advanceUi] at hr
  | connecting c =>
    simp only [hui, advanceUi, Option.some.injEq] at hr
    exact hr ▸ connecting_single h hui
  | disconnecting c =>
    simp only [hui, advanceUi, Option.some.injEq] at hr
    exact hr ▸ disconnecting_changer.single h hui
  | notifying status c =>
    simp only [hui, advanceUi, Option.some.injEq] at hr
    exact hr ▸ (notifying_changer status).single h hui
  | resuming d =>
    simp only [hui, advanceUi, Option.some.injEq] at hr
    exact hr ▸ resuming_drawer.single h hui
  | closing =>
    simp only [hui, advanceUi, Option.some.injEq] at hr
    subst hr
    have hshown := h.shown
    rw [hui] at hshown
    refine h.keep rfl rfl rfl (Nat.zero_le _) (by rw [hui]; rfl) ?_ ?_ ?_
    · intro hp
      cases hp
    · exact fun hf hb ↦ .inl ((hshown hf hb).resolve_right Bool.false_ne_true)
    · intro views hv
      cases hv

structure Busy (s : Activity) (c : Connecting) (r : Activity × Option Connecting) : Prop where
  isForeground : r.1.isForeground = s.isForeground
  posted : r.1.posted = s.posted
  curStatus : r.1.curStatus ≠ .disconnected
  live : r.1.live.length + r.2.isSome.toNat = s.live.length + 1
  button : r.1.screen.buttonConnect = true → s.screen.buttonConnect = true
  blank : ∀ views, r.2 ≠ some (.changing (.draw (.write .disconnected views)))

theorem connect_busy {s : Activity} {c : Connecting} (hcur : s.curStatus ≠ .disconnected)
    (hblank : ∀ views, c ≠ .changing (.draw (.write .disconnected views))) :
    Busy s c (connect s c) := by
  cases c with
  | predicting | storing | calling => exact ⟨rfl, rfl, hcur, rfl, id, fun _ hv ↦ by cases hv⟩
  | assigning id =>
    exact ⟨rfl, rfl, hcur, by simp [connect], fun hb ↦ hb, fun _ hv ↦ by cases hv⟩
  | changing c =>
    cases c with
    | test =>
      refine ⟨rfl, rfl, hcur, rfl, id, fun views ↦ ?_⟩
      simp only [connect, changeStatus]
      split_ifs <;> simp
    | set => exact ⟨rfl, rfl, (fun hst ↦ by cases hst), rfl, id, fun _ hv ↦ by cases hv⟩
    | ask =>
      refine ⟨rfl, rfl, hcur, rfl, id, fun views ↦ ?_⟩
      simp only [connect, changeStatus]
      split_ifs <;> simp
    | draw d =>
      cases d with
      | read =>
        refine ⟨rfl, rfl, hcur, rfl, id, fun views hv ↦ hcur ?_⟩
        simp only [connect, changeStatus, updateUI, Option.map_some, Option.getD_some,
          Option.some.injEq, Connecting.changing.injEq, Changing.draw.injEq,
          Drawing.write.injEq] at hv
        exact hv.1
      | write status views =>
        have hst : status ≠ .disconnected := fun hst ↦ hblank views (by rw [hst])
        cases views with
        | nil => exact ⟨rfl, rfl, hcur, rfl, id, fun _ hv ↦ by cases hv⟩
        | cons view views =>
          refine ⟨rfl, rfl, hcur, rfl, fun hb ↦ ?_, fun views' hv ↦ hst ?_⟩
          · cases view <;> first | exact hb | exact absurd (of_decide_eq_true hb) hst
          · simp only [connect, changeStatus, updateUI, Option.map_some, Option.getD_some,
              Option.some.injEq, Connecting.changing.injEq, Changing.draw.injEq,
              Drawing.write.injEq] at hv
            exact hv.1

theorem reconnecting_single (h : s.Single) {c : Connecting} (hn : s.network = .connecting c) :
    State.Single { s with
      activity := (connect s.activity c).1
      network := ((connect s.activity c).2.map .connecting).getD .idle } := by
  obtain ⟨tokens, past, shown, drawn, blank⟩ := h
  have hcur : s.activity.curStatus ≠ .disconnected := by
    intro hcur
    simp [State.tokens, State.isReady, hn, NetworkPc.token, hcur] at tokens
  have hbusy : Busy s.activity c (connect s.activity c) :=
    connect_busy hcur fun views hc ↦ blank views (by rw [hn, hc])
  refine ⟨?_, fun _ ↦ hbusy.curStatus, fun hf hb ↦ .inr ?_, fun views hv ↦ ?_, fun views ↦ ?_⟩
  · have htoken : NetworkPc.token (((connect s.activity c).2.map .connecting).getD .idle) =
        (connect s.activity c).2.isSome.toNat := by
      cases (connect s.activity c).2 <;> rfl
    have hlive := hbusy.live
    simp only [State.tokens, State.isReady, hn, NetworkPc.token, hcur] at tokens
    simp only [State.tokens, State.isReady, hbusy.posted, hbusy.curStatus, htoken]
    omega
  · exact (shown (hbusy.isForeground ▸ hf) (hbusy.button hb)).resolve_left hcur
  · exact absurd (drawn views hv) hcur
  · cases hnext : (connect s.activity c).2 with
    | none =>
      intro hv
      cases hv
    | some c' =>
      intro hv
      refine hbusy.blank views (hnext.trans ?_)
      simpa using hv

theorem listens_single (h : s.Single) {n n' : NetworkPc} (hn : s.network = n)
    (hl : Listens s.activity n activity n') :
    State.Single { s with activity := activity, network := n' } := by
  have htokens := h.tokens
  simp only [State.tokens, State.isReady, hn, NetworkPc.token] at htokens
  cases hl with
  | connect c => exact reconnecting_single h hn
  | reconnect _ ht =>
    refine ⟨?_, h.past, h.shown, h.drawn, fun _ hv ↦ by cases hv⟩
    simp only [ht] at htokens
    exact htokens
  | post type =>
    refine ⟨?_, h.past, h.shown, h.drawn, fun _ hv ↦ by cases hv⟩
    simp only [State.tokens, State.isReady, NetworkPc.token, List.countP_append,
      List.countP_singleton]
    cases ht : type.isTerminal <;> simp only [ht, Bool.toNat_true, Bool.toNat_false, if_true,
      Bool.false_eq_true, if_false] at htokens ⊢ <;> omega
  | foreign | own | data | route =>
    refine ⟨?_, h.past, h.shown, h.drawn, fun _ hv ↦ by cases hv⟩
    simp only [State.tokens, State.isReady, NetworkPc.token]
    omega

theorem step_single (h : s.Single) (ha : a = .clickConnect → s.activity.isForeground = true)
    (ht : step s a = some t) : t.Single := by
  have htokens := h.tokens
  have hidle (hui : s.ui = .idle) (hf : s.activity.isForeground = true)
      (hb : s.activity.screen.buttonConnect = true) : s.activity.curStatus = .disconnected := by
    have hshown := h.shown hf hb
    rw [hui] at hshown
    exact hshown.resolve_right Bool.false_ne_true
  cases step_turn ht with
  | clickConnect hui hb =>
    have hcur := hidle hui (ha rfl) hb
    refine ⟨?_, (fun hp ↦ by cases hp), fun _ _ ↦ .inl hcur, (fun _ hv ↦ by cases hv), h.blank⟩
    simp only [State.tokens, State.isReady, hui, hcur] at htokens ⊢
    exact htokens
  | clickDisconnect hui _ =>
    exact h.keep rfl rfl rfl (Nat.zero_le _) (by rw [hui]; rfl) (fun hp ↦ by cases hp)
      (fun hf hb ↦ .inl (hidle hui hf hb)) (fun _ hv ↦ by cases hv)
  | pause => exact ⟨h.tokens, h.past, (fun hf ↦ by cases hf), h.drawn, h.blank⟩
  | resume hui =>
    exact h.keep rfl rfl rfl (Nat.zero_le _) (by rw [hui]; rfl) (fun hp ↦ by cases hp)
      (fun _ _ ↦ .inr rfl) (fun _ hv ↦ by cases hv)
  | @runPosted type posted hui hposted =>
    simp only [State.tokens, State.isReady, hui, hposted, List.countP_cons] at htokens
    refine ⟨?_, ?_, fun hf hb ↦ .inl (hidle hui hf hb), ?_, h.blank⟩
    · cases type <;>
        simpa [State.tokens, State.isReady, statusOf, UiPc.token, UiPc.isConnecting,
          EventType.isTerminal, Nat.add_assoc, Nat.add_comm, Nat.add_left_comm] using htokens
    · intro hp
      cases type <;> cases hp
    · intro views hv
      cases type <;> cases hv
  | ui hr => exact advanceUi_single h hr
  | @event type id hn hmem =>
    refine ⟨?_, h.past, h.shown, h.drawn, fun _ hv ↦ by cases hv⟩
    have hlen := List.length_erase_of_mem hmem
    have hpos := List.length_pos_of_mem hmem
    simp only [State.tokens, State.isReady, hn, NetworkPc.token] at htokens ⊢
    cases hterm : type.isTerminal
    · simpa using htokens
    · simp only [if_true, Bool.toNat_true]
      omega
  | vanish id =>
    refine ⟨?_, h.past, h.shown, h.drawn, h.blank⟩
    have hlen := List.length_erase_le (a := id) (l := s.activity.live)
    simp only [State.tokens, State.isReady] at htokens ⊢
    omega
  | network hl => exact listens_single h rfl hl

theorem created_single : created.Single where
  tokens := by decide
  past h := by cases h
  shown _ _ := .inl rfl
  drawn _ h := by cases h
  blank _ h := by cases h

/-- Only one thread connects. -/
theorem State.Single.exclusive (h : s.Single) (hui : s.ui.isConnecting = true) :
    s.activity.live = [] ∧ s.network.isDeciding = false ∧ s.network.isConnecting = false := by
  have htokens := h.tokens
  simp only [State.tokens, State.isReady, hui, Bool.or_true, Bool.toNat_true] at htokens
  have hn : s.network.token = 0 := by omega
  refine ⟨List.eq_nil_of_length_eq_zero (by omega), ?_⟩
  cases hpc : s.network <;> simp [hpc, NetworkPc.token] at hn <;>
    simp [NetworkPc.isDeciding, NetworkPc.isConnecting, hn]

theorem State.Single.exclusive_network (h : s.Single) (hn : s.network.isConnecting = true) :
    s.activity.live = [] ∧ s.ui.isConnecting = false := by
  have htokens := h.tokens
  have htoken : s.network.token = 1 := by
    cases hpc : s.network <;> simp [hpc, NetworkPc.isConnecting] at hn
    rfl
  simp only [State.tokens, State.isReady, htoken] at htokens
  refine ⟨List.eq_nil_of_length_eq_zero (by omega), ?_⟩
  cases hui : s.ui.isConnecting with
  | false => rfl
  | true =>
    rw [hui, Bool.or_true, Bool.toNat_true] at htokens
    omega

end

def Connecting.Agrees (s : Activity) : Connecting → Prop
  | .changing _ | .predicting => True
  | .storing id => id = s.connectionIdSeed + 1
  | .calling => s.connectionId = s.connectionIdSeed + 1
  | .assigning id => id = s.connectionIdSeed + 1 ∧ s.connectionId = s.connectionIdSeed + 1

def Connecting.isStored : Connecting → Bool
  | .calling | .assigning _ => true
  | _ => false

def UiPc.isStored : UiPc → Bool
  | .connecting c => c.isStored
  | _ => false

def NetworkPc.isStored : NetworkPc → Bool
  | .connecting c => c.isStored
  | _ => false

def Activity.IsLatest (s : Activity) : Prop :=
  s.connectionId = s.connectionIdSeed ∨ s.connectionIdSeed = 0 ∧ s.connectionId = -1

structure State.Named (s : State) : Prop where
  ui : ∀ c, s.ui = .connecting c → c.Agrees s.activity
  network : ∀ c, s.network = .connecting c → c.Agrees s.activity
  latest : s.activity.IsLatest ∨ s.ui.isStored = true ∨ s.network.isStored = true

section

variable {s t : State} {a : Action}

theorem connect_named {s : Activity} {c : Connecting} (h : c.Agrees s) :
    (∀ c', (connect s c).2 = some c' → c'.Agrees (connect s c).1) ∧
      (s.IsLatest ∨ c.isStored = true →
        (connect s c).1.IsLatest ∨ ∃ c', (connect s c).2 = some c' ∧ c'.isStored = true) := by
  cases c with
  | changing c =>
    obtain ⟨cur, screen, hframe⟩ := changeStatus_frame .connecting s c
    refine ⟨fun c' hc' ↦ ?_, fun hl ↦ .inl ?_⟩
    · simp only [connect, Option.some.injEq] at hc'
      subst hc'
      cases (changeStatus .connecting s c).2 <;> trivial
    · simp only [connect, hframe]
      exact hl.resolve_right Bool.false_ne_true
  | predicting =>
    refine ⟨fun c' hc' ↦ ?_, fun hl ↦ .inl (hl.resolve_right Bool.false_ne_true)⟩
    cases hc'
    rfl
  | storing id =>
    refine ⟨fun c' hc' ↦ ?_, fun _ ↦ .inr ⟨_, rfl, rfl⟩⟩
    cases hc'
    exact h
  | calling =>
    refine ⟨fun c' hc' ↦ ?_, fun _ ↦ .inr ⟨_, rfl, rfl⟩⟩
    cases hc'
    exact ⟨rfl, h⟩
  | assigning id => exact ⟨(fun _ hc ↦ by cases hc), fun _ ↦ .inl (.inl (h.2.trans h.1.symm))⟩

theorem connecting_named (h : s.Named) (hs : s.Single) {c : Connecting}
    (hui : s.ui = .connecting c) :
    State.Named { s with
      activity := (connect s.activity c).1
      ui := ((connect s.activity c).2.map .connecting).getD .idle } := by
  obtain ⟨hagrees, hlatest⟩ := connect_named (h.ui c hui)
  obtain ⟨-, -, hn⟩ := hs.exclusive (by rw [hui]; rfl)
  refine ⟨fun c' hc' ↦ hagrees c' ?_, fun c' hc' ↦ ?_, ?_⟩
  · cases hnext : (connect s.activity c).2 with
    | none => simp [hnext] at hc'
    | some c'' => simpa [hnext] using hc'
  · rw [hc'] at hn
    cases hn
  · have hl : s.activity.IsLatest ∨ c.isStored = true := by
      have hlatest := h.latest
      rw [hui] at hlatest
      refine hlatest.imp_right fun hst ↦ hst.resolve_right fun hst ↦ ?_
      cases hpc : s.network <;> simp [hpc, NetworkPc.isStored, NetworkPc.isConnecting] at hst hn
    refine (hlatest hl).imp_right fun hnext ↦ .inl ?_
    obtain ⟨c', hc', hst⟩ := hnext
    simp only [hc']
    exact hst

theorem reconnecting_named (h : s.Named) (hs : s.Single) {c : Connecting}
    (hn : s.network = .connecting c) :
    State.Named { s with
      activity := (connect s.activity c).1
      network := ((connect s.activity c).2.map .connecting).getD .idle } := by
  obtain ⟨hagrees, hlatest⟩ := connect_named (h.network c hn)
  obtain ⟨-, hu⟩ := hs.exclusive_network (by rw [hn]; rfl)
  refine ⟨fun c' hc' ↦ ?_, fun c' hc' ↦ hagrees c' ?_, ?_⟩
  · rw [hc'] at hu
    cases hu
  · cases hnext : (connect s.activity c).2 with
    | none => simp [hnext] at hc'
    | some c'' => simpa [hnext] using hc'
  · have hl : s.activity.IsLatest ∨ c.isStored = true := by
      have hlatest := h.latest
      rw [hn] at hlatest
      refine hlatest.imp_right fun hst ↦ hst.resolve_left fun hst ↦ ?_
      cases hpc : s.ui <;> simp [hpc, UiPc.isStored, UiPc.isConnecting] at hst hu
    refine (hlatest hl).imp_right fun hnext ↦ .inr ?_
    obtain ⟨c', hc', hst⟩ := hnext
    simp only [hc']
    exact hst

theorem State.Named.keep (h : s.Named)
    (hseed : t.activity.connectionIdSeed = s.activity.connectionIdSeed)
    (hid : t.activity.connectionId = s.activity.connectionId)
    (hui : t.ui = s.ui ∨ s.ui.isStored = false ∧ ∀ c, t.ui = .connecting c → c = .changing .test)
    (hn : t.network = s.network ∨
      s.network.isStored = false ∧ ∀ c, t.network = .connecting c → c = .changing .test) :
    t.Named := by
  have congr {c : Connecting} (hc : c.Agrees s.activity) : c.Agrees t.activity := by
    cases c <;> simp only [Connecting.Agrees, hseed, hid] at hc ⊢ <;> exact hc
  refine ⟨fun c hc ↦ ?_, fun c hc ↦ ?_, ?_⟩
  · rcases hui with heq | ⟨-, htest⟩
    · exact congr (h.ui c (heq ▸ hc))
    · rw [htest c hc]
      trivial
  · rcases hn with heq | ⟨-, htest⟩
    · exact congr (h.network c (heq ▸ hc))
    · rw [htest c hc]
      trivial
  · rw [Activity.IsLatest, hseed, hid]
    refine h.latest.imp_right (Or.imp (fun hst ↦ ?_) fun hst ↦ ?_)
    · rcases hui with heq | ⟨hno, -⟩
      · exact heq ▸ hst
      · cases hno.symm.trans hst
    · rcases hn with heq | ⟨hno, -⟩
      · exact heq ▸ hst
      · cases hno.symm.trans hst

theorem advanceUi_named (h : s.Named) (hs : s.Single) {r : Activity × UiPc}
    (hr : advanceUi s.activity s.ui = some r) :
    State.Named { s with activity := r.1, ui := r.2 } := by
  cases hu : s.ui.isConnecting with
  | true =>
    cases hui : s.ui with
    | connecting c =>
      simp only [hui, advanceUi, Option.some.injEq] at hr
      exact hr ▸ connecting_named h hs hui
    | _ => simp [hui, UiPc.isConnecting] at hu
  | false =>
    obtain ⟨⟨cur, screen, hframe⟩, hu'⟩ := advanceUi_frame hu hr
    refine h.keep (by rw [hframe]) (by rw [hframe]) (.inr ⟨?_, fun c hc ↦ ?_⟩) (.inl rfl)
    · cases hui : s.ui <;> simp [hui, UiPc.isConnecting] at hu <;> rfl
    · rw [show r.2 = .connecting c from hc] at hu'
      cases hu'

theorem listens_named (h : s.Named) (hs : s.Single) {n n' : NetworkPc} {activity : Activity}
    (hn : s.network = n) (hl : Listens s.activity n activity n') :
    State.Named { s with activity := activity, network := n' } := by
  cases hl with
  | connect c => exact reconnecting_named h hs hn
  | reconnect =>
    refine h.keep rfl rfl (.inl rfl) (.inr ⟨by rw [hn]; rfl, fun c hc ↦ ?_⟩)
    cases hc
    rfl
  | foreign | own | data | route | post =>
    exact h.keep rfl rfl (.inl rfl) (.inr ⟨by rw [hn]; rfl, fun c hc ↦ by cases hc⟩)

theorem step_named (h : s.Named) (hs : s.Single) (ht : step s a = some t) : t.Named := by
  cases step_turn ht with
  | clickConnect hui _ =>
    refine h.keep rfl rfl (.inr ⟨by rw [hui]; rfl, fun c hc ↦ ?_⟩) (.inl rfl)
    cases hc
    rfl
  | clickDisconnect hui _ | resume hui =>
    exact h.keep rfl rfl (.inr ⟨by rw [hui]; rfl, fun _ hc ↦ by cases hc⟩) (.inl rfl)
  | pause | vanish => exact h.keep rfl rfl (.inl rfl) (.inl rfl)
  | @runPosted type posted hui _ =>
    refine h.keep rfl rfl (.inr ⟨by rw [hui]; rfl, fun c hc ↦ ?_⟩) (.inl rfl)
    cases type <;> cases hc
  | ui hr => exact advanceUi_named h hs hr
  | event hn _ =>
    exact h.keep rfl rfl (.inl rfl) (.inr ⟨by rw [hn]; rfl, fun _ hc ↦ by cases hc⟩)
  | network hl => exact listens_named h hs rfl hl

theorem created_named : created.Named where
  ui _ h := by cases h
  network _ h := by cases h
  latest := .inl (.inr ⟨rfl, rfl⟩)

/-- While Connect is clicked in the foreground only, `connect` is called only when there is no
connection and none is about to be made, the stored id is the one it assigns, and between such
calls the stored id is that of the latest connection. -/
theorem connects_one_at_a_time {as : List Action}
    (h : Run step (fun s a ↦ a = .clickConnect → s.activity.isForeground = true) created as s) :
    (∀ a, s.callsConnect a = true →
      s.activity.live = [] ∧ s.activity.connectionId = s.activity.connectionIdSeed + 1 ∧
        (a = .ui → s.network.isDeciding = false ∧ s.network.isConnecting = false) ∧
        (a = .network → s.ui.isConnecting = false)) ∧
    (∀ id, s.ui = .connecting (.assigning id) ∨ s.network = .connecting (.assigning id) →
      id = s.activity.connectionId) ∧
    (s.ui.isStored = false → s.network.isStored = false → s.activity.connectionIdSeed ≠ 0 →
      s.activity.connectionId = s.activity.connectionIdSeed) := by
  have hs : s.Single := h.invariant (fun _ _ _ hi ha ht ↦ step_single hi ha ht) created_single
  have hn : s.Named := by
    exact h.invariant_of (J := State.Single) (fun _ _ _ hi ha ht ↦ step_single hi ha ht)
      (fun _ _ _ hj hi _ ht ↦ step_named hi hj ht) created_single created_named
  refine ⟨fun a ha ↦ ?_, fun id hid ↦ ?_, fun hu hnet hseed ↦ ?_⟩
  · cases a with
    | ui =>
      have hui : s.ui = .connecting .calling := of_decide_eq_true ha
      obtain ⟨hlive, hnet⟩ := hs.exclusive (by rw [hui]; rfl)
      exact ⟨hlive, hn.ui _ hui, fun _ ↦ hnet, fun ha ↦ by cases ha⟩
    | network =>
      have hnet : s.network = .connecting .calling := of_decide_eq_true ha
      obtain ⟨hlive, hui⟩ := hs.exclusive_network (by rw [hnet]; rfl)
      exact ⟨hlive, hn.network _ hnet, (fun ha ↦ by cases ha), fun _ ↦ hui⟩
    | clickConnect | clickDisconnect | pause | resume | runPosted | event | vanish => cases ha
  · have hagrees : id = s.activity.connectionIdSeed + 1 ∧
        s.activity.connectionId = s.activity.connectionIdSeed + 1 :=
      hid.elim (hn.ui _) (hn.network _)
    exact hagrees.1.trans hagrees.2.symm
  · have hlatest := hn.latest
    rw [hu, hnet] at hlatest
    exact (hlatest.resolve_right (by simp)).resolve_right fun h0 ↦ hseed h0.1

end

/-- Connect is clicked, and the connection ends in the background. -/
def backgroundReconnect : List Action :=
  List.flatten [[.clickConnect], List.replicate 14 .ui, [.pause, .event .onDisconnect 1],
    List.replicate 5 .network]

theorem reconnect_is_alone :
    ∃ s, Run step (fun s a ↦ a = .clickConnect → s.activity.isForeground = true) created
        backgroundReconnect s ∧ s.callsConnect .network = true ∧
      s.activity.connectionIdSeed = 1 ∧ s.activity.live = [] ∧ s.activity.connectionId = 2 ∧
      s.ui.isConnecting = false := by
  have hrun : ∃ s, Run step (fun s a ↦ a = .clickConnect → s.activity.isForeground = true) created
      backgroundReconnect s ∧
      (s.callsConnect .network = true ∧ s.activity.connectionIdSeed = 1) :=
    Run.exists_of_execute (by decide +kernel)
  obtain ⟨s, hs, hc, hseed⟩ := hrun
  obtain ⟨hlive, hid, -, hui⟩ := (connects_one_at_a_time hs).1 .network hc
  exact ⟨s, hs, hc, hseed, hlive, by rw [hid, hseed]; rfl, hui rfl⟩

/-- In the background the buttons do not follow the status, so Connect can be clicked again
while the connection is there. -/
theorem second_connect_in_background :
    ∃ s, Run step Any created
        ([.pause, .clickConnect] ++ List.replicate 7 .ui ++ [.clickConnect] ++
          List.replicate 3 .ui) s ∧
      (s.callsConnect .ui = true ∧ s.activity.live = [1]) :=
  Run.exists_of_execute (by decide +kernel)

end MusicRemote.App
