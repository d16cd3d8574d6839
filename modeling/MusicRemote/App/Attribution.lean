import MusicRemote.App.Display
import MusicRemote.App.Single

namespace MusicRemote.App

open Client Foundation.Transition

def NetworkPc.bringsSuccess : NetworkPc → Bool
  | .filtering type _ | .routing type | .posting type => type = .onConnectSuccess
  | .idle | .connecting _ => false

def UiPc.isRaising : UiPc → Bool
  | .notifying .connected .test | .notifying .connected .set => true
  | _ => false

/-- A success is on its way from the listener to the status. -/
def State.isPending (s : State) : Bool :=
  s.network.bringsSuccess || s.activity.posted.contains .onConnectSuccess || s.ui.isRaising

def State.ending (s : State) : ℕ :=
  s.network.token + s.activity.posted.countP EventType.isTerminal + s.ui.token

def NetworkPc.isPast : NetworkPc → Bool
  | .connecting (.changing .test) | .connecting (.changing .set) => false
  | .connecting _ => true
  | _ => false

/-- The step is the listener's decision to reconnect. -/
def State.reconnects (s : State) : Action → Bool
  | .network =>
    match s.network with
    | .routing type => !s.activity.isForeground && type.isTerminal
    | _ => false
  | _ => false

def UiPc.isNotifying : UiPc → Bool
  | .notifying _ _ => true
  | _ => false

/-- What the status and the runnables say is about the connection that is named by the stored
id. -/
structure Attributed (as : List Action) (s : State) : Prop where
  fifo : s.activity.posted.Pairwise fun x y ↦ x.isTerminal = true → y ≠ .onConnectSuccess
  handling : s.network.bringsSuccess = true → s.activity.posted.countP EventType.isTerminal = 0
  quiet : s.isPending = true →
    s.ui.token = 0 ∧ s.isReady = false ∧ s.network.isConnecting = false
  past : s.ui.isPast = true ∨ s.network.isPast = true → s.activity.curStatus ≠ .connected
  live : ∀ id ∈ s.activity.live, id = s.activity.connectionId ∧ id ≤ s.activity.connectionIdSeed
  named : ∀ type id, s.network = .filtering type id → type ≠ .onRecvData →
    id = s.activity.connectionId
  known : ∀ type id, .event type id ∈ as → id ≤ s.activity.connectionIdSeed
  succeeded : s.isPending = true ∨ s.activity.curStatus = .connected →
    .event .onConnectSuccess s.activity.connectionId ∈ as
  ended : .event .onDisconnect s.activity.connectionId ∈ as →
    1 ≤ s.ending ∨
      s.isPending = false ∧ s.activity.curStatus ≠ .connected ∧ s.activity.live = []

def Action.isEvent : Action → Bool
  | .event _ _ => true
  | _ => false

section

variable {s t : State} {a : Action} {as : List Action}

theorem mem_concat_event (ha : a.isEvent = false) (type : EventType) (id : ℤ) :
    .event type id ∈ as ++ [a] ↔ .event type id ∈ as := by
  rw [List.mem_append, List.mem_singleton]
  refine or_iff_left fun he ↦ ?_
  rw [← he] at ha
  cases ha

/-- A step that brings no news: nothing is raised, ended or named by it. -/
theorem Attributed.keep (h : Attributed as s) (ha : a.isEvent = false)
    (hposted : t.activity.posted = s.activity.posted)
    (hid : t.activity.connectionId = s.activity.connectionId)
    (hseed : t.activity.connectionIdSeed = s.activity.connectionIdSeed)
    (hlive : t.activity.live ⊆ s.activity.live)
    (hcur : t.activity.curStatus = .connected → s.activity.curStatus = .connected)
    (hready : t.isReady = true → s.isReady = true) (htoken : t.ui.token = s.ui.token)
    (hraise : t.ui.isRaising = true → s.ui.isRaising = true)
    (hpast : t.ui.isPast = true → t.activity.curStatus = .connected → s.ui.isPast = true)
    (hbrings : t.network.bringsSuccess = true → s.network.bringsSuccess = true)
    (hnetwork : t.network.token = s.network.token)
    (hconn : t.network.isConnecting = true → s.network.isConnecting = true)
    (hnpast : t.network.isPast = true → t.activity.curStatus = .connected →
      s.network.isPast = true)
    (hnamed : ∀ type id, t.network = .filtering type id → s.network = .filtering type id) :
    Attributed (as ++ [a]) t := by
  have hpending (hp : t.isPending = true) : s.isPending = true := by
    simp only [State.isPending, Bool.or_eq_true, hposted] at hp ⊢
    exact hp.imp_left (Or.imp_left hbrings) |>.imp_right hraise
  refine ⟨?_, fun hb ↦ ?_, fun hp ↦ ?_, fun hp hc ↦ ?_, fun id hm ↦ ?_, fun type id hf hd ↦ ?_,
    fun type id he ↦ ?_, fun hs ↦ ?_, fun he ↦ ?_⟩
  · rw [hposted]
    exact h.fifo
  · rw [hposted]
    exact h.handling (hbrings hb)
  · obtain ⟨htok, hr, hn⟩ := h.quiet (hpending hp)
    refine ⟨htoken.trans htok, ?_, ?_⟩
    · exact Bool.eq_false_iff.2 fun hr' ↦ Bool.eq_false_iff.1 hr (hready hr')
    · exact Bool.eq_false_iff.2 fun hn' ↦ Bool.eq_false_iff.1 hn (hconn hn')
  · exact h.past (hp.imp (hpast · hc) (hnpast · hc)) (hcur hc)
  · rw [hid, hseed]
    exact h.live id (hlive hm)
  · rw [hid]
    exact h.named type id (hnamed type id hf) hd
  · rw [hseed]
    exact h.known type id ((mem_concat_event ha type id).1 he)
  · rw [hid, mem_concat_event ha]
    exact h.succeeded (hs.imp hpending hcur)
  · rw [hid, mem_concat_event ha] at he
    rcases h.ended he with hend | ⟨hp, hc, hl⟩
    · exact .inl (by rwa [State.ending, hposted, htoken, hnetwork])
    · refine .inr ⟨Bool.eq_false_iff.2 fun hp' ↦ Bool.eq_false_iff.1 hp (hpending hp'),
        fun hc' ↦ hc (hcur hc'), ?_⟩
      rw [hl] at hlive
      exact List.subset_nil.1 hlive

/-- The stored id is a new one, and nothing has happened to it yet. -/
theorem Attributed.fresh (h : Attributed as s) (ha : a.isEvent = false)
    (hposted : t.activity.posted = s.activity.posted)
    (hseed : s.activity.connectionIdSeed ≤ t.activity.connectionIdSeed)
    (hid : s.activity.connectionIdSeed < t.activity.connectionId)
    (hlive : ∀ id ∈ t.activity.live,
      id = t.activity.connectionId ∧ id ≤ t.activity.connectionIdSeed)
    (hp : t.isPending = false) (hcur : t.activity.curStatus ≠ .connected)
    (hnamed : ∀ type id, t.network = .filtering type id → type = .onRecvData) :
    Attributed (as ++ [a]) t where
  fifo := hposted ▸ h.fifo
  handling hb := by
    simp only [State.isPending, Bool.or_eq_false_iff] at hp
    cases hp.1.1.symm.trans hb
  quiet hp' := by cases hp.symm.trans hp'
  past _ := hcur
  live := hlive
  named type id hf hd := absurd (hnamed type id hf) hd
  known type id he := (h.known type id ((mem_concat_event ha type id).1 he)).trans hseed
  succeeded hs := by
    rcases hs with hp' | hc
    · cases hp.symm.trans hp'
    · exact absurd hc hcur
  ended he := by
    rw [mem_concat_event ha] at he
    have := h.known _ _ he
    omega

inductive Changes (status : Status) (s : Activity) : Changing → Activity × Option Changing → Prop
  | same : s.curStatus = status → Changes status s .test (s, none)
  | differ : s.curStatus ≠ status → Changes status s .test (s, some .set)
  | set : Changes status s .set ({ s with curStatus := status }, some .ask)
  | draw {c : Changing} {next : Option Changing} (screen : Screen) : c.isBefore = false →
      (∀ c', next = some c' → c'.isBefore = false) →
      Changes status s c ({ s with screen := screen }, next)

theorem changeStatus_changes (status : Status) (s : Activity) (c : Changing) :
    Changes status s c (changeStatus status s c) := by
  cases c with
  | test =>
    by_cases hcur : s.curStatus = status
    · rw [changeStatus, if_neg (not_not.2 hcur)]
      exact .same hcur
    · rw [changeStatus, if_pos hcur]
      exact .differ hcur
  | set => exact .set
  | ask =>
    refine .draw s.screen rfl fun c' hc' ↦ ?_
    split_ifs at hc'
    cases hc'
    rfl
  | draw d =>
    have hnext (c' : Changing) (hc' : (updateUI s d).2.map .draw = some c') :
        c'.isBefore = false := by
      obtain ⟨d', -, rfl⟩ := Option.map_eq_some_iff.1 hc'
      rfl
    cases d with
    | read => exact .draw s.screen rfl hnext
    | write status' views =>
      cases views with
      | nil => exact .draw s.screen rfl hnext
      | cons view views => exact .draw (s.screen.set status' view) rfl hnext

/-- The UI thread connects only when no success is on its way. -/
theorem Attributed.not_pending_ui (h : Attributed as s) (hui : s.ui.isConnecting = true) :
    s.isPending = false := by
  refine Bool.eq_false_iff.2 fun hp ↦ ?_
  have hready := (h.quiet hp).2.1
  rw [State.isReady, hui, Bool.or_true] at hready
  cases hready

theorem Attributed.not_pending_network (h : Attributed as s)
    (hn : s.network.isConnecting = true) : s.isPending = false := by
  refine Bool.eq_false_iff.2 fun hp ↦ ?_
  cases (h.quiet hp).2.2.symm.trans hn

/-- While the UI thread connects, the listener is at most busy with received data. -/
theorem Attributed.filtering_ui (h : Attributed as s) (hs : s.Single)
    (hui : s.ui.isConnecting = true) {type : EventType} {id : ℤ}
    (hf : s.network = .filtering type id) : type = .onRecvData := by
  obtain ⟨-, hdec, -⟩ := hs.exclusive hui
  have hp := h.not_pending_ui hui
  rw [hf] at hdec
  simp only [State.isPending, hf, Bool.or_eq_false_iff] at hp
  cases type with
  | onConnectSuccess => cases hp.1.1
  | onConnectFailed | onDisconnect => cases hdec
  | onRecvData => rfl

/-- The same for a step of the UI thread. -/
theorem Attributed.keep_ui (h : Attributed as s) (ha : a.isEvent = false) {activity : Activity}
    {pc : UiPc} (hposted : activity.posted = s.activity.posted)
    (hid : activity.connectionId = s.activity.connectionId)
    (hseed : activity.connectionIdSeed = s.activity.connectionIdSeed)
    (hlive : activity.live = s.activity.live)
    (hcur : activity.curStatus = .connected → s.activity.curStatus = .connected)
    (hready : activity.curStatus = .disconnected ∨ pc.isConnecting = true → s.isReady = true)
    (htoken : pc.token = s.ui.token) (hraise : pc.isRaising = true → s.ui.isRaising = true)
    (hpast : pc.isPast = true → activity.curStatus = .connected → s.ui.isPast = true) :
    Attributed (as ++ [a]) { s with activity := activity, ui := pc } := by
  refine h.keep ha hposted hid hseed (fun _ hm ↦ hlive ▸ hm) hcur (fun hr ↦ hready ?_) htoken
    hraise hpast id rfl id (fun hn _ ↦ hn) fun _ _ hf ↦ hf
  simpa [State.isReady] using hr

theorem connecting_attributed (h : Attributed as s) (hn : s.Named) (hs : s.Single)
    {c : Connecting} (hui : s.ui = .connecting c) :
    Attributed (as ++ [.ui]) { s with
      activity := (connect s.activity c).1
      ui := ((connect s.activity c).2.map .connecting).getD .idle } := by
  have hconn : s.ui.isConnecting = true := by rw [hui]; rfl
  have hready : s.isReady = true := by rw [State.isReady, hconn, Bool.or_true]
  have htoken : s.ui.token = 0 := by rw [hui]; rfl
  obtain ⟨hlive, -, -⟩ := hs.exclusive hconn
  have hp := h.not_pending_ui hconn
  simp only [State.isPending, Bool.or_eq_false_iff] at hp
  have hagrees := hn.ui c hui
  have hpast := h.past
  rw [hui] at hpast
  cases c with
  | changing c =>
    have hr := changeStatus_changes .connecting s.activity c
    simp only [connect]
    generalize changeStatus .connecting s.activity c = r at hr
    cases hr with
    | same hcur =>
      refine h.keep_ui rfl rfl rfl rfl rfl id (fun _ ↦ hready) htoken.symm ?_ fun _ hc ↦ ?_
      · intro hr
        cases hr
      · cases hcur.symm.trans hc
    | differ =>
      refine h.keep_ui rfl rfl rfl rfl rfl id (fun _ ↦ hready) htoken.symm ?_ fun hb _ ↦ ?_
      · intro hr
        cases hr
      · cases hb
    | set =>
      refine h.keep_ui rfl rfl rfl rfl rfl ?_ (fun _ ↦ hready) htoken.symm ?_ fun _ hc ↦ ?_
      · intro hc
        cases hc
      · intro hr
        cases hr
      · cases hc
    | @draw _ next screen hb =>
      have hb' : s.ui.isPast = true := by
        rw [hui]
        cases c <;> first | rfl | cases hb
      cases next <;>
        refine h.keep_ui rfl rfl rfl rfl rfl id (fun _ ↦ hready) htoken.symm ?_ fun _ _ ↦ hb' <;>
        · intro hr
          cases hr
  | predicting | calling =>
    refine h.keep_ui rfl rfl rfl rfl rfl id (fun _ ↦ hready) htoken.symm ?_ fun _ _ ↦ ?_
    · intro hr
      cases hr
    · rw [hui]
      rfl
  | storing id =>
    have hid : id = s.activity.connectionIdSeed + 1 := hagrees
    refine h.fresh rfl rfl (Int.le_refl _) ?_ ?_ ?_ (hpast (.inl rfl)) fun _ _ ↦
      h.filtering_ui hs hconn
    · simp only [connect]
      omega
    · intro id' hm
      simp [connect, hlive] at hm
    · simp only [State.isPending, connect, Option.map_some, Option.getD_some,
        Bool.or_eq_false_iff]
      exact ⟨hp.1, rfl⟩
  | assigning id =>
    obtain ⟨hid, hid'⟩ : id = s.activity.connectionIdSeed + 1 ∧
      s.activity.connectionId = s.activity.connectionIdSeed + 1 := hagrees
    refine h.fresh rfl rfl ?_ ?_ ?_ ?_ (hpast (.inl rfl)) fun _ _ ↦ h.filtering_ui hs hconn
    · simp only [connect]
      omega
    · simp only [connect]
      omega
    · intro id' hm
      simp only [connect, hlive, List.nil_append, List.mem_singleton] at hm ⊢
      omega
    · simp only [State.isPending, connect, Option.map_none, Option.getD_none,
        Bool.or_eq_false_iff]
      exact ⟨hp.1, rfl⟩

/-- The runnable for a success sets the status. -/
theorem raise_attributed (h : Attributed as s) (hui : s.ui = .notifying .connected .set) :
    Attributed (as ++ [.ui]) { s with
      activity := { s.activity with curStatus := .connected }
      ui := .notifying .connected .ask } := by
  have hp : s.isPending = true := by simp [State.isPending, hui, UiPc.isRaising]
  obtain ⟨-, -, hn⟩ := h.quiet hp
  have hnpast : s.network.isPast = false := by
    cases hpc : s.network with
    | connecting c =>
      rw [hpc] at hn
      cases hn
    | idle | filtering | routing | posting => rfl
  refine ⟨h.fifo, h.handling, fun _ ↦ ⟨rfl, rfl, hn⟩, fun hpast ↦ ?_, h.live, h.named,
    fun type id he ↦ h.known type id ((mem_concat_event rfl type id).1 he), fun _ ↦ ?_,
    fun he ↦ .inl ?_⟩
  · rcases hpast with hpast | hpast
    · cases hpast
    · cases hnpast.symm.trans hpast
  · exact List.mem_append_left _ (h.succeeded (.inl hp))
  · rcases h.ended ((mem_concat_event rfl _ _).1 he) with hend | hrest
    · simp only [State.ending, hui] at hend ⊢
      exact hend
    · cases hrest.1.symm.trans hp

/-- The runnable for the end of a connection sets the status. -/
theorem lower_attributed (h : Attributed as s) (hs : s.Single)
    (hui : s.ui = .notifying .disconnected .set) :
    Attributed (as ++ [.ui]) { s with
      activity := { s.activity with curStatus := .disconnected }
      ui := .notifying .disconnected .ask } := by
  have hp : s.isPending = false := by
    refine Bool.eq_false_iff.2 fun hp ↦ ?_
    have htoken := (h.quiet hp).1
    rw [hui] at htoken
    cases htoken
  have hp' : State.isPending { s with
      activity := { s.activity with curStatus := .disconnected }
      ui := .notifying .disconnected .ask } = false := by
    simp only [State.isPending, Bool.or_eq_false_iff] at hp ⊢
    exact ⟨hp.1, rfl⟩
  have hlive : s.activity.live = [] := by
    have htokens := hs.tokens
    simp only [State.tokens, hui, UiPc.token] at htokens
    exact List.eq_nil_of_length_eq_zero (by omega)
  refine ⟨h.fifo, h.handling, fun hq ↦ ?_, (fun _ hc ↦ by cases hc), h.live, h.named,
    fun type id he ↦ h.known type id ((mem_concat_event rfl type id).1 he), fun hq ↦ ?_,
    fun _ ↦ .inr ⟨hp', (fun hc ↦ by cases hc), hlive⟩⟩
  · cases hp'.symm.trans hq
  · rcases hq with hq | hq
    · cases hp'.symm.trans hq
    · cases hq

theorem notifying_after (status : Status) {c : Changing} (hb : c.isBefore = false) :
    (UiPc.notifying status c).token = 0 ∧ (UiPc.notifying status c).isRaising = false := by
  cases c with
  | test | set => cases hb
  | ask | draw => cases status <;> exact ⟨rfl, rfl⟩

theorem notifying_attributed (h : Attributed as s) (hs : s.Single) {status : Status}
    {c : Changing} (hui : s.ui = .notifying status c) :
    Attributed (as ++ [.ui]) { s with
      activity := (changeStatus status s.activity c).1
      ui := ((changeStatus status s.activity c).2.map (.notifying status)).getD .idle } := by
  have hready (hc : s.activity.curStatus = .disconnected ∨ false = true) : s.isReady = true := by
    simp [State.isReady, hc.resolve_right Bool.false_ne_true]
  have hr := changeStatus_changes status s.activity c
  generalize changeStatus status s.activity c = r at hr
  cases hr with
  | same hcur =>
    have htoken : s.ui.token = 0 := by
      -- A second end of a connection, besides the one that the status shows.
      have htokens := hs.tokens
      rw [hui]
      cases status with
      | disconnected => simp [State.tokens, State.isReady, hui, hcur, UiPc.token] at htokens
      | connecting | connected | disconnecting => rfl
    refine h.keep_ui rfl rfl rfl rfl rfl id hready htoken.symm ?_ ?_
    · intro hr
      cases hr
    · intro hb
      cases hb
  | differ =>
    refine h.keep_ui rfl rfl rfl rfl rfl id hready ?_ ?_ ?_
    · rw [hui]
      cases status <;> rfl
    · rw [hui]
      cases status <;> exact id
    · intro hb
      cases hb
  | set =>
    cases status with
    | connected => exact raise_attributed h hui
    | disconnected => exact lower_attributed h hs hui
    | connecting | disconnecting =>
      refine h.keep_ui rfl rfl rfl rfl rfl ?_ ?_ ?_ ?_ ?_
      · intro hc
        cases hc
      · intro hc
        rcases hc with hc | hc <;> cases hc
      · rw [hui]
        rfl
      · intro hr
        cases hr
      · intro hb
        cases hb
  | @draw _ next screen hb hnext =>
    have htoken : s.ui.token = 0 := by
      rw [hui]
      exact (notifying_after status hb).1
    cases next with
    | none =>
      refine h.keep_ui rfl rfl rfl rfl rfl id hready htoken.symm ?_ ?_
      · intro hr
        cases hr
      · intro hb
        cases hb
    | some c' =>
      obtain ⟨htoken', hraise⟩ := notifying_after status (hnext c' rfl)
      refine h.keep_ui rfl rfl rfl rfl rfl id hready (htoken'.trans htoken.symm) ?_ ?_
      · intro hr
        cases hraise.symm.trans hr
      · intro hb
        cases hb

theorem disconnecting_attributed (h : Attributed as s) {c : Changing}
    (hui : s.ui = .disconnecting c) :
    Attributed (as ++ [.ui]) { s with
      activity := (changeStatus .disconnecting s.activity c).1
      ui := ((changeStatus .disconnecting s.activity c).2.map .disconnecting).getD .closing } := by
  have hready (hc : s.activity.curStatus = .disconnected ∨ false = true) : s.isReady = true := by
    simp [State.isReady, hc.resolve_right Bool.false_ne_true]
  have htoken : s.ui.token = 0 := by rw [hui]; rfl
  have hno (b : Bool) (hb : b = false) (hb' : b = true) : s.ui.isRaising = true := by
    cases hb.symm.trans hb'
  have hr := changeStatus_changes .disconnecting s.activity c
  generalize changeStatus .disconnecting s.activity c = r at hr
  cases hr with
  | same | differ =>
    exact h.keep_ui rfl rfl rfl rfl rfl id hready htoken.symm (hno _ rfl) fun hb ↦ by cases hb
  | set =>
    refine h.keep_ui rfl rfl rfl rfl rfl ?_ ?_ htoken.symm (hno _ rfl) fun hb ↦ by cases hb
    · intro hc
      cases hc
    · intro hc
      rcases hc with hc | hc <;> cases hc
  | @draw _ next screen =>
    cases next <;>
      exact h.keep_ui rfl rfl rfl rfl rfl id hready htoken.symm (hno _ rfl) fun hb ↦ by cases hb

theorem updateUI_screen (s : Activity) (d : Drawing) :
    ∃ screen, (updateUI s d).1 = { s with screen := screen } := by
  cases d with
  | read => exact ⟨_, rfl⟩
  | write status views => cases views <;> exact ⟨_, rfl⟩

theorem advanceUi_attributed (h : Attributed as s) (hn : s.Named) (hs : s.Single)
    {activity : Activity} {pc : UiPc} (hr : advanceUi s.activity s.ui = some (activity, pc)) :
    Attributed (as ++ [.ui]) { s with activity := activity, ui := pc } := by
  have hready (hc : s.activity.curStatus = .disconnected ∨ false = true) : s.isReady = true := by
    simp [State.isReady, hc.resolve_right Bool.false_ne_true]
  cases hui : s.ui with
  | idle =>
    rw [hui] at hr
    cases hr
  | connecting c =>
    rw [hui] at hr
    cases hr
    exact connecting_attributed h hn hs hui
  | disconnecting c =>
    rw [hui] at hr
    cases hr
    exact disconnecting_attributed h hui
  | notifying status c =>
    rw [hui] at hr
    cases hr
    exact notifying_attributed h hs hui
  | closing =>
    rw [hui] at hr
    cases hr
    exact h.keep_ui rfl rfl rfl rfl rfl id hready (by rw [hui]; rfl) (fun hr ↦ by cases hr)
      fun hb ↦ by cases hb
  | resuming d =>
    rw [hui] at hr
    cases hr
    obtain ⟨screen, hframe⟩ := updateUI_screen s.activity d
    rw [hframe]
    cases (updateUI s.activity d).2 <;>
      exact h.keep_ui rfl rfl rfl rfl rfl id hready (by rw [hui]; rfl) (fun hr ↦ by cases hr)
        fun hb ↦ by cases hb

/-- A runnable starts. -/
theorem runPosted_attributed (h : Attributed as s) (hui : s.ui = .idle) {type : EventType}
    {posted : List EventType} (hposted : s.activity.posted = type :: posted) :
    Attributed (as ++ [.runPosted]) { s with
      activity := { s.activity with posted := posted }
      ui := ((statusOf type).map (.notifying · .test)).getD .idle } := by
  have hfifo := h.fifo
  rw [hposted, List.pairwise_cons] at hfifo
  have hhandling := h.handling
  rw [hposted, List.countP_cons] at hhandling
  have hpast : (((statusOf type).map (.notifying · .test)).getD .idle : UiPc).isPast = false := by
    cases type <;> rfl
  have hending : State.ending { s with
      activity := { s.activity with posted := posted }
      ui := ((statusOf type).map (.notifying · .test)).getD .idle } = s.ending := by
    simp only [State.ending, hposted, hui, List.countP_cons]
    cases type <;> rfl
  have hpending : State.isPending { s with
      activity := { s.activity with posted := posted }
      ui := ((statusOf type).map (.notifying · .test)).getD .idle } = true →
      s.isPending = true := by
    intro hp
    simp only [State.isPending, hposted, Bool.or_eq_true, List.contains_cons] at hp ⊢
    rcases hp with (hb | hm) | hr
    · exact .inl (.inl hb)
    · exact .inl (.inr (.inr hm))
    · cases type with
      | onConnectSuccess => exact .inl (.inr (.inl rfl))
      | onConnectFailed | onDisconnect | onRecvData => cases hr
  refine ⟨hfifo.2, fun hb ↦ ?_, fun hp ↦ ?_, fun hb ↦ ?_, h.live, h.named,
    fun type id he ↦ h.known type id ((mem_concat_event rfl type id).1 he), fun hs ↦ ?_,
    fun he ↦ ?_⟩
  · have := hhandling hb
    dsimp only
    omega
  · obtain ⟨-, hready, hn⟩ := h.quiet (hpending hp)
    simp only [State.isReady, hui] at hready
    cases hterm : type.isTerminal with
    | false => cases type <;> first | exact ⟨rfl, hready, hn⟩ | cases hterm
    | true =>
      -- Behind the end of a connection there is no success.
      simp only [State.isPending, Bool.or_eq_true] at hp
      rcases hp with (hb | hm) | hr
      · have := hhandling hb
        rw [hterm, if_pos rfl] at this
        omega
      · exact absurd rfl (hfifo.1 _ (List.contains_iff_mem.1 hm) hterm)
      · cases type with
        | onConnectSuccess | onRecvData => cases hterm
        | onConnectFailed | onDisconnect => cases hr
  · exact h.past (hb.imp_left fun hb ↦ by cases hpast.symm.trans hb)
  · exact List.mem_append_left _ (h.succeeded (hs.imp_left hpending))
  · rcases h.ended ((mem_concat_event rfl _ _).1 he) with hend | ⟨hp, hrest⟩
    · exact .inl (hending ▸ hend)
    · exact .inr ⟨Bool.eq_false_iff.2 fun hp' ↦ Bool.eq_false_iff.1 hp (hpending hp'), hrest⟩

/-- An event comes. It is one of the connection that the stored id names. -/
theorem event_attributed (h : Attributed as s) (hs : s.Single) (hn : s.network = .idle)
    {type : EventType} {id : ℤ} (hm : id ∈ s.activity.live) :
    Attributed (as ++ [.event type id]) { s with
      activity := { s.activity with
        live := if type.isTerminal then s.activity.live.erase id else s.activity.live }
      network := .filtering type id } := by
  obtain ⟨hid, hseed⟩ := h.live id hm
  have hpos := List.length_pos_of_mem hm
  have htokens := hs.tokens
  simp only [State.tokens, hn, NetworkPc.token] at htokens
  have hready : s.isReady = false := by
    cases hr : s.isReady with
    | false => rfl
    | true =>
      rw [hr, Bool.toNat_true] at htokens
      omega
  have hmem (type' : EventType) (id' : ℤ) (he : .event type' id' ∈ as ++ [.event type id]) :
      .event type' id' ∈ as ∨ type' = type ∧ id' = id := by
    rw [List.mem_append, List.mem_singleton] at he
    refine he.imp_right fun he ↦ ?_
    cases he
    exact ⟨rfl, rfl⟩
  refine ⟨h.fifo, fun _ ↦ by dsimp only; omega, fun _ ↦ ⟨by dsimp only; omega, hready, rfl⟩,
    fun hp ↦ h.past (hp.imp_right fun hp ↦ by cases hp), fun id' hm' ↦ h.live id' ?_, ?_, ?_, ?_,
    fun he ↦ ?_⟩
  · dsimp only at hm'
    split_ifs at hm'
    · exact List.mem_of_mem_erase hm'
    · exact hm'
  · intro type' id' hf _
    cases hf
    exact hid
  · intro type' id' he
    rcases hmem type' id' he with he | ⟨-, rfl⟩
    · exact h.known type' id' he
    · exact hseed
  · intro hs
    simp only [State.isPending, Bool.or_eq_true] at hs
    rcases hs with ((hb | hp) | hr) | hc
    · obtain rfl : type = .onConnectSuccess := of_decide_eq_true hb
      rw [← hid]
      exact List.mem_append_right _ (List.mem_singleton_self _)
    · exact List.mem_append_left _ (h.succeeded (.inl (by simp only [State.isPending, hp]; simp)))
    · exact List.mem_append_left _ (h.succeeded (.inl (by simp only [State.isPending, hr]; simp)))
    · exact List.mem_append_left _ (h.succeeded (.inr hc))
  · rcases hmem _ _ he with he | ⟨rfl, -⟩
    · -- A connection that has ended is not live.
      rcases h.ended he with hend | ⟨-, -, hl⟩
      · simp only [State.ending, hn, NetworkPc.token] at hend
        omega
      · rw [hl] at hm
        cases hm
    · refine .inl ?_
      simp only [State.ending, NetworkPc.token, EventType.isTerminal, Bool.toNat_true]
      omega

/-- The same for a step of the listener. -/
theorem Attributed.keep_network (h : Attributed as s) {activity : Activity} {n : NetworkPc}
    (hposted : activity.posted = s.activity.posted)
    (hid : activity.connectionId = s.activity.connectionId)
    (hseed : activity.connectionIdSeed = s.activity.connectionIdSeed)
    (hlive : activity.live = s.activity.live)
    (hcur : activity.curStatus = s.activity.curStatus ∨ activity.curStatus = .connecting)
    (hbrings : n.bringsSuccess = true → s.network.bringsSuccess = true)
    (htoken : n.token = s.network.token)
    (hconn : n.isConnecting = true → s.network.isConnecting = true)
    (hpast : n.isPast = true → activity.curStatus = .connected → s.network.isPast = true)
    (hnamed : ∀ type id, n ≠ .filtering type id) :
    Attributed (as ++ [.network]) { s with activity := activity, network := n } := by
  refine h.keep rfl hposted hid hseed (fun _ hm ↦ hlive ▸ hm) (fun hc ↦ ?_) (fun hr ↦ ?_) rfl id
    (fun hp _ ↦ hp) hbrings htoken hconn hpast fun type id hf ↦ absurd hf (hnamed type id)
  · rcases hcur with hcur | hcur
    · exact hcur ▸ hc
    · cases hcur.symm.trans hc
  · rcases hcur with hcur | hcur
    · simpa only [State.isReady, hcur] using hr
    · simp only [State.isReady, hcur] at hr
      simp only [State.isReady, Bool.or_eq_true]
      exact .inr hr

theorem reconnecting_attributed (h : Attributed as s) (hn : s.Named) (hs : s.Single)
    {c : Connecting} (hnet : s.network = .connecting c) :
    Attributed (as ++ [.network]) { s with
      activity := (connect s.activity c).1
      network := ((connect s.activity c).2.map .connecting).getD .idle } := by
  have hconn : s.network.isConnecting = true := by rw [hnet]; rfl
  have htoken : s.network.token = 1 := by rw [hnet]; rfl
  obtain ⟨hlive, -⟩ := hs.exclusive_network hconn
  have hp := h.not_pending_network hconn
  simp only [State.isPending, Bool.or_eq_false_iff] at hp
  have hagrees := hn.network c hnet
  have hpast := h.past
  rw [hnet] at hpast
  have hno (b : Bool) (hb : b = false) (hb' : b = true) : s.network.bringsSuccess = true := by
    cases hb.symm.trans hb'
  cases c with
  | changing c =>
    have hr := changeStatus_changes .connecting s.activity c
    simp only [connect]
    generalize changeStatus .connecting s.activity c = r at hr
    cases hr with
    | same hcur =>
      refine h.keep_network rfl rfl rfl rfl (.inl rfl) (hno _ rfl) htoken.symm (fun _ ↦ hconn) ?_ ?_
      · intro _ hc
        cases hcur.symm.trans hc
      · intro _ _ hf
        cases hf
    | differ =>
      refine h.keep_network rfl rfl rfl rfl (.inl rfl) (hno _ rfl) htoken.symm (fun _ ↦ hconn) ?_ ?_
      · intro hb
        cases hb
      · intro _ _ hf
        cases hf
    | set =>
      refine h.keep_network rfl rfl rfl rfl (.inr rfl) (hno _ rfl) htoken.symm (fun _ ↦ hconn) ?_ ?_
      · intro _ hc
        cases hc
      · intro _ _ hf
        cases hf
    | @draw _ next screen hb =>
      have hb' : s.network.isPast = true := by
        rw [hnet]
        cases c <;> first | rfl | cases hb
      cases next <;>
        refine h.keep_network rfl rfl rfl rfl (.inl rfl) (hno _ rfl) htoken.symm (fun _ ↦ hconn)
          (fun _ _ ↦ hb') ?_ <;>
        · intro _ _ hf
          cases hf
  | predicting | calling =>
    refine h.keep_network rfl rfl rfl rfl (.inl rfl) (hno _ rfl) htoken.symm (fun _ ↦ hconn) ?_ ?_
    · intro _ _
      rw [hnet]
      rfl
    · intro _ _ hf
      cases hf
  | storing id =>
    have hid : id = s.activity.connectionIdSeed + 1 := hagrees
    refine h.fresh rfl rfl (Int.le_refl _) ?_ ?_ ?_ (hpast (.inr rfl)) ?_
    · simp only [connect]
      omega
    · intro id' hm
      simp [connect, hlive] at hm
    · simp only [State.isPending, connect, Option.map_some, Option.getD_some,
        Bool.or_eq_false_iff]
      exact ⟨⟨rfl, hp.1.2⟩, hp.2⟩
    · intro _ _ hf
      cases hf
  | assigning id =>
    obtain ⟨hid, hid'⟩ : id = s.activity.connectionIdSeed + 1 ∧
      s.activity.connectionId = s.activity.connectionIdSeed + 1 := hagrees
    refine h.fresh rfl rfl ?_ ?_ ?_ ?_ (hpast (.inr rfl)) ?_
    · simp only [connect]
      omega
    · simp only [connect]
      omega
    · intro id' hm
      simp only [connect, hlive, List.nil_append, List.mem_singleton] at hm ⊢
      omega
    · simp only [State.isPending, connect, Option.map_none, Option.getD_none,
        Bool.or_eq_false_iff]
      exact ⟨⟨rfl, hp.1.2⟩, hp.2⟩
    · intro _ _ hf
      cases hf

/-- The listener posts a runnable. What it has in hand is then in the queue. -/
theorem post_attributed (h : Attributed as s) {type : EventType} (hn : s.network = .posting type) :
    Attributed (as ++ [.network]) { s with
      activity := { s.activity with posted := s.activity.posted ++ [type] }
      network := .idle } := by
  have hending : State.ending { s with
      activity := { s.activity with posted := s.activity.posted ++ [type] }
      network := .idle } = s.ending := by
    simp only [State.ending, hn, NetworkPc.token, List.countP_append, List.countP_singleton]
    cases type.isTerminal <;> simp only [Bool.toNat_true, Bool.toNat_false, if_true,
      Bool.false_eq_true, if_false] <;> omega
  have hpending : State.isPending { s with
      activity := { s.activity with posted := s.activity.posted ++ [type] }
      network := .idle } = s.isPending := by
    simp only [State.isPending, hn, NetworkPc.bringsSuccess]
    cases type <;> simp
  have hhandling := h.handling
  rw [hn] at hhandling
  refine ⟨?_, (fun hb ↦ by cases hb), fun hp ↦ ?_, ?_, h.live, ?_,
    fun type id he ↦ h.known type id ((mem_concat_event rfl type id).1 he), fun hs ↦ ?_,
    fun he ↦ ?_⟩
  · refine List.pairwise_append.2 ⟨h.fifo, List.pairwise_singleton _ _, fun x hx y hy ht ↦ ?_⟩
    rw [List.mem_singleton.1 hy]
    rintro rfl
    -- While the listener has a success in hand, no end is posted.
    have hnone := List.countP_eq_zero.1 (hhandling rfl) x hx
    exact hnone ht
  · rw [hpending] at hp
    obtain ⟨htoken, hready, -⟩ := h.quiet hp
    exact ⟨htoken, hready, rfl⟩
  · intro hp
    exact h.past (hp.imp_right fun hp ↦ by cases hp)
  · intro _ _ hf
    cases hf
  · rw [hpending] at hs
    exact List.mem_append_left _ (h.succeeded hs)
  · rw [hending, hpending]
    exact h.ended ((mem_concat_event rfl _ _).1 he)

/-- The listener starts a reconnect, with no success on its way. -/
theorem reconnect_attributed (h : Attributed as s) (hp : s.isPending = false) :
    Attributed (as ++ [.network]) { s with network := .connecting (.changing .test) } := by
  have hp' : State.isPending { s with network := .connecting (.changing .test) } = false := by
    simp only [State.isPending, Bool.or_eq_false_iff] at hp ⊢
    exact ⟨⟨rfl, hp.1.2⟩, hp.2⟩
  refine ⟨h.fifo, (fun hb ↦ by cases hb), fun hq ↦ ?_, ?_, h.live, ?_,
    fun type id he ↦ h.known type id ((mem_concat_event rfl type id).1 he), fun hs ↦ ?_,
    fun _ ↦ .inl ?_⟩
  · cases hp'.symm.trans hq
  · intro hb
    exact h.past (hb.imp_right fun hb ↦ by cases hb)
  · intro _ _ hf
    cases hf
  · rcases hs with hq | hc
    · cases hp'.symm.trans hq
    · exact List.mem_append_left _ (h.succeeded (.inr hc))
  · simp only [State.ending, NetworkPc.token]
    omega

theorem listens_attributed (h : Attributed as s) (hn : s.Named) (hs : s.Single)
    (hr : s.reconnects .network = true → s.isPending = false) {n n' : NetworkPc}
    {activity : Activity} (hnet : s.network = n) (hl : Listens s.activity n activity n') :
    Attributed (as ++ [.network]) { s with activity := activity, network := n' } := by
  have hno (b : Bool) (hb : b = false) (hb' : b = true) : s.network.bringsSuccess = true := by
    cases hb.symm.trans hb'
  cases hl with
  | @foreign type id hid =>
    -- Only received data can still come from another connection.
    obtain rfl : type = .onRecvData := by
      by_contra hd
      exact hid (h.named type id hnet hd).symm
    exact h.keep_network rfl rfl rfl rfl (.inl rfl) (hno _ rfl) (by rw [hnet]; rfl)
      (fun hc ↦ by cases hc) (fun hp ↦ by cases hp) fun _ _ hf ↦ by cases hf
  | own | route =>
    exact h.keep_network rfl rfl rfl rfl (.inl rfl) (by rw [hnet]; exact id) (by rw [hnet]; rfl)
      (fun hc ↦ by cases hc) (fun hp ↦ by cases hp) fun _ _ hf ↦ by cases hf
  | data =>
    exact h.keep_network rfl rfl rfl rfl (.inl rfl) (hno _ rfl) (by rw [hnet]; rfl)
      (fun hc ↦ by cases hc) (fun hp ↦ by cases hp) fun _ _ hf ↦ by cases hf
  | reconnect hf hterm =>
    refine reconnect_attributed h (hr ?_)
    simp only [State.reconnects, hnet, hf, hterm]
    rfl
  | post type => exact post_attributed h hnet
  | connect c => exact reconnecting_attributed h hn hs hnet

theorem step_attributed (h : Attributed as s) (hn : s.Named) (hs : s.Single)
    (ha : a = .clickConnect → s.activity.isForeground = true)
    (hr : s.reconnects a = true → s.isPending = false) (ht : step s a = some t) :
    Attributed (as ++ [a]) t := by
  have hready (hc : s.activity.curStatus = .disconnected ∨ false = true) : s.isReady = true := by
    simp [State.isReady, hc.resolve_right Bool.false_ne_true]
  cases step_turn ht with
  | clickConnect hui hb =>
    have hshown := hs.shown (ha rfl) hb
    rw [hui] at hshown
    have hcur := hshown.resolve_right Bool.false_ne_true
    exact h.keep_ui rfl rfl rfl rfl rfl id (fun _ ↦ hready (.inl hcur)) (by rw [hui]; rfl)
      (fun hr ↦ by cases hr) fun hp ↦ by cases hp
  | clickDisconnect hui _ | resume hui =>
    exact h.keep_ui rfl rfl rfl rfl rfl id hready (by rw [hui]; rfl) (fun hr ↦ by cases hr)
      fun hp ↦ by cases hp
  | pause hui =>
    refine h.keep_ui rfl rfl rfl rfl rfl id ?_ rfl id fun hp _ ↦ hp
    rw [hui]
    exact hready
  | runPosted hui hposted => exact runPosted_attributed h hui hposted
  | ui hadv => exact advanceUi_attributed h hn hs hadv
  | event hnet hm => exact event_attributed h hs hnet hm
  | vanish id =>
    exact h.keep rfl rfl rfl rfl List.erase_subset (fun hc ↦ hc) (fun hr ↦ hr) rfl (fun hr ↦ hr)
      (fun hp _ ↦ hp) (fun hb ↦ hb) rfl (fun hc ↦ hc) (fun hp _ ↦ hp) fun _ _ hf ↦ hf
  | network hl => exact listens_attributed h hn hs hr rfl hl

theorem created_attributed : Attributed [] created where
  fifo := .nil
  handling h := by cases h
  quiet h := by cases h
  past h := by rcases h with h | h <;> cases h
  live _ h := by cases h
  named _ _ h := by cases h
  known _ _ h := by cases h
  succeeded h := by rcases h with h | h <;> cases h
  ended h := by cases h

theorem attributed_of_run
    (h : Run step (fun s a ↦ (a = .clickConnect → s.activity.isForeground = true) ∧
      (s.reconnects a = true → s.isPending = false)) created as s) : Attributed as s := by
  refine (h.history (I := fun bs u ↦ (u.Single ∧ u.Named) ∧ Attributed bs u)
    (fun bs u a v hu ha hv ↦ ?_) ⟨⟨created_single, created_named⟩, created_attributed⟩).2
  obtain ⟨⟨hs, hn⟩, hat⟩ := hu
  exact ⟨⟨step_single hs ha.1 hv, step_named hn hs hv⟩, step_attributed hat hn hs ha.1 ha.2 hv⟩

/-- While Connect is clicked in the foreground only and no reconnect starts with a success still on
its way to the status: whenever no event is being handled and no runnable is pending, a status
`connected` is that of the connection which the stored id names. -/
theorem connected_is_the_named_connection
    (h : Run step (fun s a ↦ (a = .clickConnect → s.activity.isForeground = true) ∧
      (s.reconnects a = true → s.isPending = false)) created as s)
    (hnet : s.network = .idle) (hposted : s.activity.posted = []) (hui : s.ui.isNotifying = false)
    (hcur : s.activity.curStatus = .connected) :
    .event .onConnectSuccess s.activity.connectionId ∈ as ∧
      .event .onDisconnect s.activity.connectionId ∉ as := by
  have hat := attributed_of_run h
  refine ⟨hat.succeeded (.inr hcur), fun he ↦ ?_⟩
  have htoken : s.ui.token = 0 := by
    cases hpc : s.ui with
    | notifying =>
      rw [hpc] at hui
      cases hui
    | idle | connecting | disconnecting | closing | resuming => rfl
  rcases hat.ended he with hend | ⟨-, hne, -⟩
  · simp [State.ending, hnet, hposted, htoken, NetworkPc.token] at hend
  · exact hne hcur

end

theorem established_connection_is_named :
    ∃ s, Run step (fun s a ↦ (a = .clickConnect → s.activity.isForeground = true) ∧
        (s.reconnects a = true → s.isPending = false)) created established s ∧
      s.activity.curStatus = .connected ∧ s.activity.connectionId = 1 ∧
      .event .onConnectSuccess s.activity.connectionId ∈ established ∧
      .event .onDisconnect s.activity.connectionId ∉ established := by
  obtain ⟨s, hs, hnet, hposted, hui, hcur, hid⟩ :
      ∃ s, Run step (fun s a ↦ (a = .clickConnect → s.activity.isForeground = true) ∧
        (s.reconnects a = true → s.isPending = false)) created established s ∧
        (s.network = .idle ∧ s.activity.posted = [] ∧ s.ui.isNotifying = false ∧
          s.activity.curStatus = .connected ∧ s.activity.connectionId = 1) :=
    Run.exists_of_execute (by decide +kernel)
  exact ⟨s, hs, hcur, hid, connected_is_the_named_connection hs hnet hposted hui hcur⟩

/-- The success of the first connection is posted, and before its runnable runs the connection ends
in the background. -/
def lateSuccess : List Action :=
  List.flatten [[.clickConnect], List.replicate 14 .ui, [.event .onConnectSuccess 1],
    List.replicate 3 .network, [.pause, .event .onDisconnect 1], List.replicate 7 .network,
    [.runPosted], List.replicate 3 .ui]

/-- The runnable of the first connection sets the status of the second, which has had no event. -/
theorem late_success_is_taken_for_the_next :
    ∃ s, Run step (fun s a ↦ a = .clickConnect → s.activity.isForeground = true) created
        lateSuccess s ∧
      (s.network = .idle ∧ s.activity.posted = [] ∧ s.ui = .idle ∧
        s.activity.curStatus = .connected ∧ s.activity.connectionId = 2 ∧
        .event .onConnectSuccess s.activity.connectionId ∉ lateSuccess) :=
  Run.exists_of_execute (by decide +kernel)

end MusicRemote.App
