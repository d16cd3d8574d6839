import MusicRemote.Remote.System

namespace MusicRemote.Remote

open Foundation Foundation.Transition Foundation.Extraction
open Protocol Protocol.Json Protocol.Framing Protocol.RoundTrip Function
open Control (Routing.State Routing.Action Submission Writers.text Writers.buf)
open App (System SystemAction Gson)

section

variable {c : Setting} {audioManager : ℕ → Bool} {ok : State → Action → Prop} {s t : State}
  {a : Action} {as : List Action} {u i : ℕ}

/-- What is written stays written. -/
theorem socket_isPrefix {env : Control.Service.Env} {r r' : Routing.State} {b : Routing.Action}
    (h : Control.Routing.step env r b = some r') (i : ℕ) :
    (r.writers i).socket <+: (r'.writers i).socket := by
  have hfollow {writers : ℕ → Control.Writers.State} {p : Option (ℕ × Control.Writers.Action)}
      (hf : Control.Routing.follow r.writers p = some writers) :
      (r.writers i).socket <+: (writers i).socket := by
    cases p with
    | none =>
      cases hf
      exact List.prefix_rfl
    | some p =>
      obtain ⟨j, b⟩ := p
      obtain ⟨w, hw, rfl⟩ := Control.Routing.follow_eq hf
      by_cases hij : i = j
      · subst hij
        rw [update_self]
        exact (Control.Writers.step_moves hw).stream_isPrefix
      · rw [update_of_ne hij]
  cases b with
  | service b =>
    simp only [Control.Routing.step, Option.bind_eq_some_iff, Option.map_eq_some_iff] at h
    obtain ⟨service, -, writers, hwriters, rfl⟩ := h
    exact hfollow hwriters
  | writer j b =>
    simp only [Control.Routing.step, Option.ite_none_right_eq_some, Option.map_eq_some_iff] at h
    obtain ⟨-, writers, hwriters, rfl⟩ := h
    exact hfollow hwriters

/-- The bytes that a session has read are the first of those that the control has written. -/
structure Lined (u i : ℕ) (bytes : List UInt8) (s : State) : Prop where
  read_le : s.read u ≤ (s.control.writers i).socket.length
  bytes : bytes = (s.control.writers i).socket.take (s.read u)

/-- More may be written. -/
theorem Lined.grow {bytes : List UInt8} (h : Lined u i bytes s)
    (hsocket : (s.control.writers i).socket <+: (t.control.writers i).socket)
    (hread : t.read u = s.read u) : Lined u i bytes t := by
  obtain ⟨rest, hrest⟩ := hsocket
  rw [Lined.bytes h]
  refine ⟨?_, ?_⟩
  · rw [hread, ← hrest, List.length_append]
    exact Nat.le_add_right_of_le h.read_le
  · rw [hread, ← hrest, List.take_append_of_le_length h.read_le]

theorem Lined.step {bytes : List UInt8} (h : Lined u i bytes s) (hu : c.line u = some i)
    (ht : step c s a = some t) :
    Lined u i (bytes ++ ((c.fieldLabel s a).toList.filterMap SystemAction.server?).flatMap
      (Server.Action.bytesOf u)) t := by
  have hquiet (hl : c.fieldLabel s a = none) (hr : t.read u = s.read u)
      (hs : (s.control.writers i).socket <+: (t.control.writers i).socket) :
      Lined u i (bytes ++ ((c.fieldLabel s a).toList.filterMap SystemAction.server?).flatMap
        (Server.Action.bytesOf u)) t := by
    rw [hl]
    exact (List.append_nil bytes).symm ▸ h.grow hs hr
  cases a with
  | control b =>
    simp only [Remote.step, Option.ite_none_left_eq_some, Option.map_eq_some_iff] at ht
    obtain ⟨-, control, hcontrol, rfl⟩ := ht
    exact hquiet rfl rfl (socket_isPrefix hcontrol i)
  | field b =>
    simp only [Remote.step, Option.ite_none_left_eq_some, Option.map_eq_some_iff] at ht
    obtain ⟨hfree, field, -, rfl⟩ := ht
    have hnone : ([b].filterMap SystemAction.server?).flatMap (Server.Action.bytesOf u) = [] := by
      cases b with
      | server b =>
        cases b with
        | readBuf w more =>
          -- A session with the control reads nothing else.
          have hne : w ≠ u := by
            rintro rfl
            exact hfree (by rw [isRead, hu]; rfl)
          simp [SystemAction.server?, Server.Action.bytesOf, hne]
        | _ => rfl
      | phone | deliver => rfl
    have hlabel : (c.fieldLabel s (.field b)).toList = [b] := rfl
    rw [hlabel, hnone, List.append_nil]
    exact ⟨h.read_le, h.bytes⟩
  | read w n =>
    simp only [Remote.step, Option.bind_eq_some_iff, Option.ite_none_right_eq_some,
      Option.map_eq_some_iff] at ht
    obtain ⟨j, hj, -, field, -, rfl⟩ := ht
    have hlabel : (c.fieldLabel s (.read w n)).toList =
        [.server (.readBuf w ((s.unread w j).take n))] := by simp [Setting.fieldLabel, hj]
    rw [hlabel]
    by_cases hw : w = u
    · subst hw
      cases hu.symm.trans hj
      have hmore : (([SystemAction.server (.readBuf w ((s.unread w i).take n))].filterMap
          SystemAction.server?).flatMap (Server.Action.bytesOf w)) = (s.unread w i).take n := by
        simp [SystemAction.server?, Server.Action.bytesOf]
      rw [hmore]
      have hle := h.read_le
      have hlength : (s.unread w i).length =
          (s.control.writers i).socket.length - s.read w := List.length_drop
      refine ⟨?_, ?_⟩
      · simp only [update_self, List.length_take]
        omega
      · simp only [update_self]
        rw [h.bytes, List.take_add, List.append_cancel_left_eq]
        exact List.prefix_iff_eq_take.1 (List.take_prefix n _)
    · have hnone : (([SystemAction.server (.readBuf w ((s.unread w j).take n))].filterMap
          SystemAction.server?).flatMap (Server.Action.bytesOf u)) = [] := by
        simp [SystemAction.server?, Server.Action.bytesOf, hw]
      rw [hnone, List.append_nil]
      exact h.grow List.prefix_rfl (update_of_ne (Ne.symm hw) _ _)
  | hear w =>
    simp only [Remote.step, Option.bind_eq_some_iff, Option.ite_none_right_eq_some,
      Option.map_eq_some_iff] at ht
    obtain ⟨j, -, e, -, -, control, hcontrol, rfl⟩ := ht
    exact hquiet rfl rfl (socket_isPrefix hcontrol i)

theorem lined_of_run (h : Run (step c) ok (.start audioManager) as s) (hu : c.line u = some i) :
    Lined u i (((traced (step c) c.fieldLabel (.start audioManager) as).filterMap
      SystemAction.server?).flatMap (Server.Action.bytesOf u)) s := by
  refine (h.history (I := fun bs v ↦ Run (step c) ok (.start audioManager) bs v ∧
    Lined u i (((traced (step c) c.fieldLabel (.start audioManager) bs).filterMap
      SystemAction.server?).flatMap (Server.Action.bytesOf u)) v)
    (fun bs v a w hv ha hw ↦ ⟨hv.1.trans (.one ha hw), ?_⟩) ⟨.nil _, Nat.zero_le _, rfl⟩).2
  rw [hv.1.traced_concat, List.filterMap_append, List.flatMap_append]
  exact hv.2.step hu hw

theorem server_of_run (h : Run (step c) ok (.start audioManager) as s) :
    Run (Server.step (Server.serde c.code)) Any .init
      ((traced (step c) c.fieldLabel (.start audioManager) as).filterMap SystemAction.server?)
      s.field.server := App.server_of_run (field_of_run h)

theorem routed_of_run (h : Run (step c) ok (.start audioManager) as s) :
    Control.Routing.Routed (Control.Routing.route s.control.service) s.control.writers
      s.control.stored s.control.taken :=
  Control.Routing.routed_of_run
    (h.simulate State.control c.controlLabel fun _ _ _ _ _ _ hv ↦ control_shown hv)

/-- The server reads the text of a message as it was written. -/
theorem read_payload (code : String) (message : Message) :
    (fromUtf8 (payload message)).bind (Server.serde code).readMessage = some message := by
  have hread : (Server.serde code).readMessage = fromStr := rfl
  rw [payload, fromUtf8_asBytes, hread, Option.bind_some, fromStr_message]

theorem map_read_payload (code : String) (messages : List Message) :
    (messages.map payload).map (fun p ↦ (fromUtf8 p).bind (Server.serde code).readMessage) =
      messages.map some := by
  simp only [List.map_map, Function.comp_def, read_payload]

/-- The texts that a connection has begun to write, frame after frame. -/
theorem socket_prefix_frames (h : Run (step c) ok (.start audioManager) as s) (i : ℕ) :
    (s.control.writers i).socket <+:
      ((((s.control.writers i).begun.map Submission.message).map Json.toString).map
        frame).flatten := by
  obtain ⟨asked, hsound⟩ := (routed_of_run h).sound i
  have hframes : (((s.control.writers i).begun.map Submission.message).map Json.toString).map
      frame = (s.control.writers i).begun.map Writers.buf := by
    rw [List.map_map, List.map_map]
    rfl
  rw [hframes]
  exact hsound.stream_isPrefix

theorem received_isPrefix (h : Run (step c) ok (.start audioManager) as s) (hu : c.line u = some i)
    (hlength : ∀ x ∈ (s.control.writers i).begun, (Writers.text x).length < 2 ^ 32) :
    Server.receivedBy u s.field.server.log <+:
      (s.control.writers i).begun.map Submission.message := by
  have hlined := lined_of_run h hu
  obtain ⟨payloads, rest, htakes, hread, -⟩ := (Server.Streamed.run (server_of_run h) u).taken
  rw [hlined.bytes] at htakes
  set messages := (s.control.writers i).begun.map Submission.message with hmessages
  have h0 : ∀ text ∈ messages.map Json.toString, asBytes text ≠ [] :=
    List.forall_mem_map.2 fun m _ ↦ toString_message_ne_empty m
  have h1 : ∀ text ∈ messages.map Json.toString, (asBytes text).length < 2 ^ 32 := by
    rw [hmessages]
    exact List.forall_mem_map.2 (List.forall_mem_map.2 hlength)
  have hprefix := takes_frames h0 h1
    ((List.take_prefix _ _).trans (socket_prefix_frames h i)) htakes
  have hpayload : payload = fun m ↦ asBytes (Json.toString m) := rfl
  have htexts : (messages.map Json.toString).map asBytes = messages.map payload := by
    rw [hpayload, List.map_map, Function.comp_def]
  rw [htexts] at hprefix
  -- The readings of the payloads are the messages, on both sides.
  have hmap := hprefix.map (fun p ↦ (fromUtf8 p).bind (Server.serde c.code).readMessage)
  rw [hread, map_read_payload] at hmap
  obtain ⟨received, hreceived, heq⟩ := List.prefix_map_iff.1 hmap
  rwa [(List.map_injective_iff.2 (Option.some_injective _)) heq]

theorem received_eq (h : Run (step c) ok (.start audioManager) as s) (hu : c.line u = some i)
    (hshort : ∀ x ∈ (s.control.writers i).begun, (Writers.text x).length < 2 ^ 21)
    (hwaits : (s.field.server.session u).phase = .selecting .reading)
    (hall : s.read u = (s.control.writers i).socket.length)
    (hguard : (s.control.writers i).guard = none) :
    Server.receivedBy u s.field.server.log =
      (s.control.writers i).begun.map Submission.message := by
  have hlined := lined_of_run h hu
  have hstreamed := Server.Streamed.run (server_of_run h) u
  obtain ⟨payloads, rest, htakes, hread, hrest⟩ := hstreamed.taken
  have hnone := hstreamed.waits hwaits
  rw [← hrest (by rw [hwaits]; rfl)] at hnone
  rw [hlined.bytes, hall, List.take_length] at htakes
  have hdrains := htakes.drains hnone
  obtain ⟨asked, hsound⟩ := (routed_of_run h).sound i
  have hbegun : (s.control.writers i).begun = (s.control.writers i).finished := by
    simp [Control.Writers.State.begun, SharedWriter.Writer.begun, Control.Writers.State.writer,
      hguard]
  have hsocket : (s.control.writers i).socket =
      (s.control.writers i).finished.flatMap Writers.buf ++ [] := by
    simpa [SharedWriter.Writer.cut, Control.Writers.State.writer, hguard] using hsound.stream
  rw [hbegun] at hshort ⊢
  have hwhole := Control.Writers.drains_socket hshort extractFrame_incremental.nil
  rw [← hsocket] at hwhole
  obtain ⟨rfl, -, -⟩ := hdrains.deterministic hwhole
  have htext : Writers.text = fun x ↦ payload x.message := rfl
  have hmap : (((s.control.writers i).finished.map Writers.text).map
      fun p ↦ (fromUtf8 p).bind (Server.serde c.code).readMessage) =
        ((s.control.writers i).finished.map Submission.message).map some := by
    simp only [htext, List.map_map, Function.comp_def, read_payload]
  rw [hmap] at hread
  exact ((List.map_injective_iff.2 (Option.some_injective _)) hread).symm

end

/-- A session with the control receives what the control has begun to write on the connection, in
order, one message after the other; and when it waits, having read everything, while no write is
under way, it has received all of it. -/
theorem server_receives_what_control_writes {c : Setting} {audioManager : ℕ → Bool}
    {as : List Action} {s : State} (h : Run (step c) Any (.start audioManager) as s) {u i : ℕ}
    (hu : c.line u = some i)
    (hlength : ∀ x ∈ (s.control.writers i).begun, (Writers.text x).length < 2 ^ 32) :
    Server.receivedBy u s.field.server.log <+:
        (s.control.writers i).begun.map Submission.message ∧
      ((∀ x ∈ (s.control.writers i).begun, (Writers.text x).length < 2 ^ 21) →
        (s.field.server.session u).phase = .selecting .reading →
        s.read u = (s.control.writers i).socket.length → (s.control.writers i).guard = none →
        Server.receivedBy u s.field.server.log =
          (s.control.writers i).begun.map Submission.message) :=
  ⟨received_isPrefix h hu hlength, received_eq h hu⟩

/-- The control is the server's first session, the phone its second. -/
def living : Setting where
  gson := App.gson
  code := "x"
  page := Control.Service.pageEnv
  owner u := if u = 1 then some (0, 1) else none
  line u := if u = 0 then some 0 else none

def pinging : List Action :=
  List.flatten [Control.Service.connection.map fun a ↦ .control (.service a),
    [.control (.writer 0 (.pingForever 9)), .control (.writer 0 (.lock .pingForever)),
      .control (.writer 0 (.write 41)), .control (.writer 0 .unlock), .field (.server .spawn),
      .field (.server (.start 0)), .read 0 100, .field (.server (.recvFrame 0))]]

theorem server_receives_the_ping : ∃ s,
    Run (step living) Any (.start fun _ ↦ true) pinging s ∧
      (s.control.writers 0).begun = [.ping ⟨9⟩] ∧
      (Server.receivedBy 0 s.field.server.log).length = 1 ∧
      Server.receivedBy 0 s.field.server.log <+: [messageOf (⟨9⟩ : Ping)] := by
  have hrun : ∃ s, Run (step living) Any (.start fun _ ↦ true) pinging s ∧
      ((s.control.writers 0).begun = [.ping ⟨9⟩] ∧
        (Server.receivedBy 0 s.field.server.log).length = 1) :=
    Run.exists_of_execute (by decide +kernel)
  obtain ⟨s, hs, hbegun, hone⟩ := hrun
  have hlength : ∀ x ∈ [Submission.ping ⟨9⟩], (Writers.text x).length < 2 ^ 32 := by
    decide +kernel
  have hline : living.line 0 = some 0 := rfl
  have hprefix := (server_receives_what_control_writes hs hline (hbegun ▸ hlength)).1
  rw [hbegun] at hprefix
  exact ⟨s, hs, hbegun, hone, hprefix⟩

end MusicRemote.Remote
