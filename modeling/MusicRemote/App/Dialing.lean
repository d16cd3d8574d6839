import MusicRemote.App.Device

namespace MusicRemote.App

open Client Foundation.Transition Function

def Has (s : Client.State) (conn : Connection) : Prop :=
  conn ∈ s.owed ∨ ∃ k, s.pcAt k = some (.pushing conn)

/-- The calls of `connect` are numbered as they come, and the connection with a number is for the
arguments of its call. There is an address once there has been a call. -/
structure Device.Asked (d : Device) : Prop where
  resting : (∀ a, d.main.state.assigning a = none) →
    (d.main.connects.length : ℤ) = d.client.connectionIdSeed
  assigning : ∀ a id, d.main.state.assigning a = some id →
    ∃ cs, d.main.connects = cs ++ [d.arguments a] ∧ (cs.length : ℤ) = d.client.connectionIdSeed
  made : ∀ conn, Has d.client conn →
    ∃ n : ℕ, conn.id = n + 1 ∧ d.main.connects[n]? = some ⟨some conn.host, conn.port, conn.kind⟩
  address : d.main.state.ui.isConnecting = true ∨ d.main.state.network ≠ .idle ∨
    d.client.connectionIdSeed ≠ 0 → d.main.serverIpAddress.isSome = true

section

variable {residue : Connection → Connection} {s t : State} {m m' : Main} {d e : Device}
  {p : Place} {a : Action}

theorem has_of_step {s t : Client.State} {a : Client.Action} {conn : Connection}
    (ha : ∀ host port kind, a ≠ .connect host port kind) (h : Client.step residue s a = some t)
    (hconn : Has t conn) : Has s conn := by
  cases step_progress h with
  | issue host port kind act => exact absurd act (ha host port kind)
  | idle pcs _ owed =>
    obtain hconn | ⟨k, hk⟩ := hconn
    · exact .inl (owed ▸ hconn)
    · exact .inr ⟨k, Progress.idle_pushing (pcs k) hk⟩
  | advance _ hk eq hadvances =>
    subst eq
    obtain hconn | ⟨i, hi⟩ := hconn
    · exact (hadvances.owed conn hconn).imp_right fun hpc ↦ ⟨_, hpc ▸ hk⟩
    · exact .inr ⟨i, (hadvances.pushing_goto hk hi).2⟩

theorem has_connect {s : Client.State} {host : String} {port kind : ℤ} {conn : Connection}
    (h : Has (Client.connect s host port kind) conn) :
    Has s conn ∨ conn = ⟨host, port, s.connectionIdSeed + 1, kind, -1, none⟩ := by
  obtain h | ⟨k, hk⟩ := h
  · exact .inl (.inl h)
  · rw [Client.connect, pcAt_spawn] at hk
    split_ifs at hk with hlast
    · cases hk
      exact .inr rfl
    · exact .inl (.inr ⟨k, hk⟩)

/-- Of the places in a `connect`, only the call leads to an id. -/
theorem id_connect (s : Activity) (c : Connecting) :
    (connect s c).2.bind Connecting.id? =
      if c = .calling then some (s.connectionIdSeed + 1) else none := by
  cases c with
  | changing c =>
    rw [if_neg (by simp)]
    simp only [connect]
    cases (changeStatus .connecting s c).2 <;> rfl
  | predicting | storing | calling | assigning => rfl

theorem id_ui (c : Option Connecting) :
    ((c.map UiPc.connecting).getD .idle).id? = c.bind Connecting.id? := by
  cases c <;> rfl

theorem id_network (c : Option Connecting) :
    ((c.map NetworkPc.connecting).getD .idle).id? = c.bind Connecting.id? := by
  cases c <;> rfl

theorem id_of_not_connecting {pc : UiPc} (h : pc.isConnecting = false) : pc.id? = none := by
  cases pc with
  | connecting => cases h
  | _ => rfl

theorem advanceUi_id {r : Activity × UiPc} (hr : advanceUi s.activity s.ui = some r) :
    r.2.id? = if s.callsConnect .ui then some (s.activity.connectionIdSeed + 1) else none := by
  cases hc : s.ui.isConnecting with
  | false =>
    have hcall : s.callsConnect .ui = false := by
      refine decide_eq_false fun hui ↦ ?_
      rw [hui] at hc
      cases hc
    rw [hcall, id_of_not_connecting (advanceUi_frame hc hr).2]
    rfl
  | true =>
    cases hui : s.ui with
    | connecting c =>
      rw [hui] at hr
      cases hr
      simp only [id_ui, id_connect, State.callsConnect, hui, UiPc.connecting.injEq,
        decide_eq_true_eq]
    | _ => simp [hui, UiPc.isConnecting] at hc

theorem listens_id {n n' : NetworkPc} {activity : Activity} (hn : s.network = n)
    (h : Listens s.activity n activity n') :
    n'.id? = if s.callsConnect .network then some (s.activity.connectionIdSeed + 1) else none := by
  cases h with
  | connect c =>
    simp only [id_network, id_connect, State.callsConnect, hn, NetworkPc.connecting.injEq,
      decide_eq_true_eq]
  | _ => simp [State.callsConnect, hn, NetworkPc.id?, Connecting.id?]

/-- A thread comes to hold an id by the call, and has none after its next step. -/
theorem assigning_step (h : step s a = some t) (ha : a.isNative = false) (b : Action) :
    t.assigning b =
      if b = a then
        if s.callsConnect a then some (s.activity.connectionIdSeed + 1) else none
      else s.assigning b := by
  cases step_turn h with
  | clickConnect hui | clickDisconnect hui | pause hui | resume hui =>
    cases b <;> simp [State.assigning, UiPc.id?, Connecting.id?, State.callsConnect, hui]
  | @runPosted type _ hui _ =>
    cases b <;> cases type <;> simp [State.assigning, UiPc.id?, State.callsConnect, hui, statusOf]
  | ui hr =>
    have hid := advanceUi_id hr
    cases b <;> simp [State.assigning, hid]
  | event | vanish => cases ha
  | network hl =>
    have hid := listens_id rfl hl
    cases b <;> simp [State.assigning, hid]

def State.isConnecting (s : State) : Action → Bool
  | .ui => s.ui.isConnecting
  | .network => s.network.isConnecting
  | _ => false

theorem isConnecting_of_callsConnect (h : s.callsConnect a = true) : s.isConnecting a = true := by
  cases a with
  | ui =>
    have hui : s.ui = .connecting .calling := of_decide_eq_true h
    rw [State.isConnecting, hui]
    rfl
  | network =>
    have hn : s.network = .connecting .calling := of_decide_eq_true h
    rw [State.isConnecting, hn]
    rfl
  | _ => cases h

theorem isConnecting_of_assigning {id : ℤ} (h : s.assigning a = some id) :
    s.isConnecting a = true := by
  obtain ⟨rfl, hui⟩ | ⟨rfl, hn⟩ := assigning_cases h
  · rw [State.isConnecting, hui]
    rfl
  · rw [State.isConnecting, hn]
    rfl

/-- Only one thread is connecting. -/
theorem State.Single.assigning_other (h : s.Single) (ha : s.isConnecting a = true) {b : Action}
    (hb : b ≠ a) : s.assigning b = none := by
  rw [Option.eq_none_iff_forall_ne_some]
  intro id hid
  have hb' := isConnecting_of_assigning hid
  cases a with
  | ui =>
    have hn := (h.exclusive ha).2.2
    cases b with
    | ui => exact hb rfl
    | network => rw [State.isConnecting, hn] at hb'; cases hb'
    | _ => cases hb'
  | network =>
    have hui := (h.exclusive_network ha).2
    cases b with
    | ui => rw [State.isConnecting, hui] at hb'; cases hb'
    | network => exact hb rfl
    | _ => cases hb'
  | _ => cases ha

theorem assigning_of_callsConnect (h : s.callsConnect a = true) : s.assigning a = none := by
  cases a with
  | ui =>
    have hui : s.ui = .connecting .calling := of_decide_eq_true h
    rw [State.assigning, hui]
    rfl
  | network =>
    have hn : s.network = .connecting .calling := of_decide_eq_true h
    rw [State.assigning, hn]
    rfl
  | _ => rfl

namespace Device.Asked

theorem keep (h : d.Asked) (hassigning : ∀ a, e.main.state.assigning a = d.main.state.assigning a)
    (hconnects : e.main.connects = d.main.connects) (harguments : e.arguments = d.arguments)
    (hseed : e.client.connectionIdSeed = d.client.connectionIdSeed)
    (hhas : ∀ conn, Has e.client conn → Has d.client conn)
    (haddress : e.main.state.ui.isConnecting = true ∨ e.main.state.network ≠ .idle ∨
      e.client.connectionIdSeed ≠ 0 → e.main.serverIpAddress.isSome = true) : e.Asked where
  resting hall := by
    rw [hconnects, hseed]
    exact h.resting fun a ↦ hassigning a ▸ hall a
  assigning a id hid := by
    rw [hconnects, hseed, harguments]
    exact h.assigning a id (hassigning a ▸ hid)
  made conn hconn := by
    rw [hconnects]
    exact h.made conn (hhas conn hconn)
  address := haddress

theorem click (h : d.Asked) {serverAddress token : String}
    (ht : mainStep d.main (.click serverAddress token) = some e.main)
    (hclient : e.client = d.client) (harguments : e.arguments = d.arguments) : e.Asked := by
  simp only [mainStep, Option.ite_none_right_eq_some, Option.some.injEq] at ht
  obtain ⟨⟨hidle, -⟩, hmain⟩ := ht
  have hseed : e.client.connectionIdSeed = d.client.connectionIdSeed := by rw [hclient]
  have hhas (conn : Connection) (hconn : Has e.client conn) : Has d.client conn := hclient ▸ hconn
  unfold onButtonClickConnect at hmain
  split_ifs at hmain
  · exact h.keep (by rw [← hmain]; exact fun _ ↦ rfl) (by rw [← hmain]; rfl) harguments hseed hhas
      (by rw [← hmain, hseed]; exact h.address)
  split at hmain
  · exact h.keep (by rw [← hmain]; exact fun _ ↦ rfl) (by rw [← hmain]; rfl) harguments hseed hhas
      (by rw [← hmain, hseed]; exact h.address)
  · refine h.keep (fun a ↦ ?_) (by rw [← hmain]) harguments hseed hhas fun _ ↦ by rw [← hmain]; rfl
    rw [← hmain]
    cases a <;> simp [State.assigning, hidle, UiPc.id?, Connecting.id?]

/-- A thread calls `connect`: the next number is for the arguments of this call. -/
theorem call (h : d.Asked) (hj : d.Joined p) (hcall : d.main.state.callsConnect a = true)
    (hassigning : ∀ b, e.main.state.assigning b = if b = a then
      some (d.main.state.activity.connectionIdSeed + 1) else d.main.state.assigning b)
    (hconnects : e.main.connects = d.main.connects ++ [e.arguments a])
    (hclient : e.client = d.client)
    (haddress : e.main.state.ui.isConnecting = true ∨ e.main.state.network ≠ .idle ∨
      e.client.connectionIdSeed ≠ 0 → e.main.serverIpAddress.isSome = true) : e.Asked := by
  have hother (b : Action) (hb : b ≠ a) : d.main.state.assigning b = none :=
    hj.single.assigning_other (isConnecting_of_callsConnect hcall) hb
  refine ⟨fun hall ↦ ?_, fun b id hid ↦ ?_, fun conn hconn ↦ ?_, haddress⟩
  · have hnone := hall a
    rw [hassigning, if_pos rfl] at hnone
    cases hnone
  · rw [hassigning] at hid
    split_ifs at hid with hb
    · subst hb
      refine ⟨d.main.connects, hconnects, ?_⟩
      rw [hclient]
      refine h.resting fun c ↦ ?_
      by_cases hc : c = b
      · rw [hc, assigning_of_callsConnect hcall]
      · exact hother c hc
    · rw [hother b hb] at hid
      cases hid
  · rw [hclient] at hconn
    obtain ⟨n, hid, hn⟩ := h.made conn hconn
    refine ⟨n, hid, ?_⟩
    rw [hconnects, List.getElem?_append_left, hn]
    exact (List.getElem?_eq_some_iff.1 hn).1

/-- The call gets its number. -/
theorem number (h : d.Asked) (hj : d.Joined p) {id : ℤ}
    (ha : d.main.state.assigning a = some id) {host : String}
    (hhost : (d.arguments a).host = some host)
    (hassigning : ∀ b, e.main.state.assigning b = if b = a then none else d.main.state.assigning b)
    (hconnects : e.main.connects = d.main.connects)
    (hclient : e.client =
      Client.connect d.client host (d.arguments a).port (d.arguments a).kind)
    (haddress : e.main.state.ui.isConnecting = true ∨ e.main.state.network ≠ .idle ∨
      e.client.connectionIdSeed ≠ 0 → e.main.serverIpAddress.isSome = true) : e.Asked := by
  obtain ⟨cs, hcs, hlength⟩ := h.assigning a id ha
  refine ⟨fun _ ↦ ?_, fun b i hi ↦ ?_, fun conn hconn ↦ ?_, haddress⟩
  · rw [hconnects, hcs, hclient, List.length_append, Nat.cast_add, hlength]
    rfl
  · rw [hassigning] at hi
    split_ifs at hi with hb
    rw [hj.single.assigning_other (isConnecting_of_assigning ha) hb] at hi
    cases hi
  · rw [hclient] at hconn
    rw [hconnects]
    obtain hconn | rfl := has_connect hconn
    · exact h.made conn hconn
    · refine ⟨cs.length, by rw [hlength], ?_⟩
      rw [hcs, List.getElem?_concat_length, ← hhost]

theorem app (h : d.Asked) (hj : d.Joined p) (hnative : a.isNative = false)
    (ht : mainStep d.main (.app a) = some e.main) (hcalls : d.calls a = some e.client)
    (harguments : e.arguments = if d.main.state.callsConnect a then
      update d.arguments a ⟨d.main.serverIpAddress, d.main.serverPort, 5⟩ else d.arguments) :
    e.Asked := by
  simp only [mainStep, Option.ite_none_left_eq_some, Option.map_eq_some_iff] at ht
  obtain ⟨hclick, state, hstep, hmain⟩ := ht
  have hassigning := assigning_step hstep hnative
  obtain ⟨hui, hn⟩ := busy_step hstep hnative hclick
  have hstate : e.main.state = state := by rw [← hmain]
  have hip : e.main.serverIpAddress = d.main.serverIpAddress := by rw [← hmain]
  have hconnects : e.main.connects = d.main.connects ++
      if d.main.state.callsConnect a then [⟨d.main.serverIpAddress, d.main.serverPort, 5⟩]
      else [] := by rw [← hmain]
  rw [← hstate] at hassigning hui hn
  have haddress (hseed : e.client.connectionIdSeed ≠ 0 → d.main.state.ui.isConnecting = true ∨
      d.main.state.network ≠ .idle ∨ d.client.connectionIdSeed ≠ 0) :
      e.main.state.ui.isConnecting = true ∨ e.main.state.network ≠ .idle ∨
        e.client.connectionIdSeed ≠ 0 → e.main.serverIpAddress.isSome = true := by
    rw [hip]
    rintro (h' | h' | h')
    · exact h.address (.inl (hui h'))
    · exact h.address (.inr (.inl (hn h')))
    · exact h.address (hseed h')
  cases hid : d.main.state.assigning a with
  | some id =>
    simp only [Device.calls, hid, Option.ite_none_right_eq_some, Option.map_eq_some_iff] at hcalls
    obtain ⟨-, host, hhost, hclient⟩ := hcalls
    rw [hj.nativeConnect_eq hid hstep] at hclient
    have hcall : d.main.state.callsConnect a = false := by
      by_contra hcall
      rw [assigning_of_callsConnect (Bool.of_not_eq_false hcall)] at hid
      cases hid
    simp only [hcall, Bool.false_eq_true, if_false, List.append_nil] at hassigning hconnects
    refine h.number hj hid hhost hassigning hconnects hclient.symm (haddress fun _ ↦ ?_)
    obtain ⟨rfl, hpc⟩ | ⟨rfl, hpc⟩ := assigning_cases hid
    · exact .inl (by rw [hpc]; rfl)
    · exact .inr (.inl (by simp [hpc]))
  | none =>
    simp only [Device.calls, hid, Option.some.injEq] at hcalls
    cases hcall : d.main.state.callsConnect a with
    | true =>
      have hcloses : d.main.state.closes a = false := by
        cases a with
        | ui =>
          have hpc : d.main.state.ui = .connecting .calling := of_decide_eq_true hcall
          simp [State.closes, hpc]
        | _ => rfl
      simp only [hcloses, Bool.false_eq_true, if_false] at hcalls
      simp only [hcall, if_true] at hassigning hconnects harguments
      refine h.call hj hcall hassigning ?_ hcalls.symm (haddress fun h' ↦ .inr (.inr (hcalls ▸ h')))
      rw [hconnects, harguments, update_self]
    | false =>
      simp only [hcall, Bool.false_eq_true, if_false, List.append_nil]
        at hassigning hconnects harguments
      have hclient : e.client.connectionIdSeed = d.client.connectionIdSeed ∧
          ∀ conn, Has e.client conn → Has d.client conn := by
        rw [← hcalls]
        split_ifs
        · have hclose : Client.step id d.client (.disconnect d.main.state.activity.connectionId) =
              some (d.client.spawn false (.searching d.main.state.activity.connectionId)) := rfl
          exact ⟨rfl, fun conn ↦ has_of_step (fun _ _ _ h ↦ by cases h) hclose⟩
        · exact ⟨rfl, fun _ ↦ id⟩
      refine h.keep (fun b ↦ ?_) hconnects harguments hclient.1 hclient.2
        (haddress fun h' ↦ .inr (.inr (hclient.1 ▸ h')))
      rw [hassigning]
      split_ifs with hb
      · rw [hb, hid]
      · rfl

theorem client (h : d.Asked) (hj : d.Joined p) {a : Client.Action}
    (ha : ∀ host port kind, a ≠ .connect host port kind)
    (hblocked : d.client.onNetwork a = true → d.main.state.network = .idle)
    (ht : Client.step residue d.client a = some e.client) (hmain : e.main = d.hears a)
    (harguments : e.arguments = d.arguments) : e.Asked := by
  have hseed := seed_of_step ha ht
  have hhas (conn : Connection) (hconn : Has e.client conn) : Has d.client conn :=
    has_of_step ha ht hconn
  rw [Device.hears] at hmain
  cases hd : d.client.delivers a with
  | some notice =>
    obtain ⟨-, hp, hidle, -⟩ := hj.delivered hd hblocked
    simp only [hd] at hmain
    refine h.keep (fun b ↦ ?_) (by rw [hmain]; rfl) harguments hseed hhas fun _ ↦ ?_
    · rw [hmain]
      cases b with
      | network => simp [State.assigning, Main.hear, hidle, NetworkPc.id?]
      | _ => rfl
    · rw [hmain]
      exact h.address (.inr (.inr (hj.issued hp)))
  | none =>
    simp only [hd] at hmain
    cases hdrops : d.client.drops a with
    | some i =>
      rw [hdrops, Option.elim_some] at hmain
      exact h.keep (by rw [hmain]; exact fun _ ↦ rfl) (by rw [hmain]; rfl) harguments hseed hhas
        (by rw [hmain, hseed]; exact h.address)
    | none =>
      rw [hdrops, Option.elim_none] at hmain
      exact h.keep (by rw [hmain]; exact fun _ ↦ rfl) (by rw [hmain]) harguments hseed hhas
        (by rw [hmain, hseed]; exact h.address)

theorem step (h : d.Asked) (hj : d.Joined p) {a : DeviceAction} (ht : d.step residue a = some e) :
    e.Asked := by
  cases Device.turn_of_step ht with
  | click hmain hclient harguments => exact h.click hmain hclient harguments
  | app hnative hmain hcalls harguments => exact h.app hj hnative hmain hcalls harguments
  | client ha hblocked hclient hmain harguments =>
    exact h.client hj ha hblocked hclient hmain harguments

end Device.Asked

theorem start_asked : Device.start.Asked where
  resting _ := rfl
  assigning a _ h := by cases a <;> cases h
  made conn h := by
    obtain h | ⟨k, hk⟩ := h
    · cases h
    · cases hk
  address h := by
    obtain h | h | h := h
    · cases h
    · exact absurd rfl h
    · exact absurd rfl h

theorem asked_of_run {as : List DeviceAction}
    (h : Run (Device.step residue) (Orderly residue) .start as d) : d.Asked := by
  refine h.along (I := Device.Asked) (fun bs u a v hu hi _ hv ↦ ?_) start_asked
  obtain ⟨p, hp⟩ := joined_of_run hu
  exact hi.step hp hv

def Device.intact (residue : Connection → Connection) (d : Device) : DeviceAction → Bool
  | .main _ => true
  | .client a => Client.intact residue d.client a

/-- Connect is clicked in the foreground, and a call in flight reads the right connection, with a
port that fits. -/
def Precise (residue : Connection → Connection) (d : Device) (a : DeviceAction) : Prop :=
  Foreground d a ∧ d.intact residue a = true

instance (residue : Connection → Connection) (d : Device) (a : DeviceAction) :
    Decidable (Precise residue d a) :=
  inferInstanceAs (Decidable (_ ∧ _))

theorem Precise.orderly {a : DeviceAction} (h : Precise residue d a) : Orderly residue d a := by
  refine ⟨h.1, ?_⟩
  cases a with
  | main => rfl
  | client a => exact keeps_of_intact h.2

theorem aimed_of_label (hp : d.Joined p) {a : DeviceAction} {b : Client.Action}
    (ha : Precise residue d a) (hb : d.label a = some b) : aimed residue d.client b = true := by
  rw [aimed, hp.alone.sole b, Bool.true_and]
  cases a with
  | client a =>
    cases hb
    exact ha.2
  | main a => rcases label_main hb with ⟨host, port, kind, rfl⟩ | ⟨id, rfl⟩ <;> rfl

theorem client_aimed_of_run {as : List DeviceAction}
    (h : Run (Device.step residue) (Precise residue) .start as d) :
    Run (Client.step residue) (fun s a ↦ aimed residue s a = true) (Client.start 3)
      (traced (Device.step residue) Device.label .start as) d.client := by
  refine h.simulate_ok Device.client Device.label fun bs u a v hu ha hv ↦ ?_
  obtain ⟨p, hp⟩ := joined_of_run (hu.mono fun _ _ ↦ Precise.orderly)
  exact ⟨client_shown hp hv, fun b hb ↦ aimed_of_label hp ha hb⟩

end

def reopening : List DeviceAction :=
  opening ++ List.replicate 3 (.main (.app .network)) ++
    [.main (.app .pause), .client (.advance 1), .client (.fire 0 (.onClose 7)),
      .client (.advance 2), .client (.advance 2)] ++
    List.replicate 7 (.main (.app .network)) ++ List.replicate 6 (.client (.advance 3))

end MusicRemote.App
