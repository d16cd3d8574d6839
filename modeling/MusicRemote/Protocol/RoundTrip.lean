import MusicRemote.Server.SendMessage
import MusicRemote.Control.SendMessage

namespace MusicRemote.Protocol.RoundTrip

open Foundation Foundation.Extraction Json Framing Server Control

def sendAll (tx : Channel WriterMessage) (bodies : List Body) :
    Except Fault (Channel WriterMessage) :=
  bodies.foldlM Body.send tx

def submitAll (writer : WriteHalf) (submissions : List Submission) : Except Fault WriteHalf :=
  submissions.foldlM Submission.send writer

def payload (message : Message) : List UInt8 := asBytes (Json.toString message)

theorem sendAll_queue {tx tx' : Channel WriterMessage} {bodies : List Body}
    (h : sendAll tx bodies = .ok tx') : tx'.queue = tx.queue ++ bodies.map Body.writerMessage := by
  induction bodies generalizing tx with
  | nil =>
    cases h
    simp
  | cons body bodies ih =>
    simp only [sendAll, List.foldlM_cons, Body.send_eq] at h
    cases hs : tx.send body.writerMessage with
    | none => simp [hs, bind, Except.bind] at h
    | some tx₁ =>
      obtain ⟨-, rfl⟩ := Channel.send_eq_some.mp hs
      simp only [hs, bind, Except.bind] at h
      simpa using ih h

theorem submitAll_up (written : List UInt8) (submissions : List Submission) :
    submitAll ⟨written, true⟩ submissions =
      .ok ⟨written ++ (submissions.map fun s ↦ frame (Json.toString s.message)).flatten, true⟩ := by
  induction submissions generalizing written with
  | nil => simp [submitAll, pure, Except.pure]
  | cons submission submissions ih =>
    simp only [submitAll, List.foldlM_cons, Submission.send_eq, WriteHalf.writeAll, if_true, bind,
      Except.bind] at ih ⊢
    simp [ih]

theorem messages_drain_iff {α : Type} (message : α → Message) (sent : List α) :
    Drains extractFrame (sent.map fun a ↦ frame (Json.toString (message a))).flatten
      (sent.map fun a ↦ payload (message a)) (.ok ()) [] ↔
      ∀ a ∈ sent, (payload (message a)).length < 2 ^ 21 := by
  have h0 : ∀ text ∈ sent.map (fun a ↦ Json.toString (message a)), asBytes text ≠ [] := by
    intro text ht
    obtain ⟨a, -, rfl⟩ := List.mem_map.mp ht
    exact toString_message_ne_empty (message a)
  have h := drains_frames_iff h0
  rw [List.map_map, List.map_map, List.forall_mem_map] at h
  simpa only [Function.comp_def, payload] using h

/-- What an encoder accepts is decoded at the other end exactly when every message
is below the decoder's limit. -/
theorem accepted_decode_iff_short (bodies : List Body) (tx : Channel WriterMessage)
    (submissions : List Submission) (writer : WriteHalf) (hs : sendAll .new bodies = .ok tx)
    (hc : submitAll ⟨[], true⟩ submissions = .ok writer) :
    (Drains tryExtractFrame (tx.queue.flatMap WriterMessage.data)
      (bodies.map fun b ↦ payload b.message) (.ok ()) [] ↔
      ∀ b ∈ bodies, (payload b.message).length < 2 ^ 21) ∧
    (Drains onTryExtractFrame writer.written
      (submissions.map fun s ↦ payload s.message) (.ok ()) [] ↔
      ∀ s ∈ submissions, (payload s.message).length < 2 ^ 21) := by
  constructor
  · have hq : tx.queue.flatMap WriterMessage.data =
        (bodies.map fun b ↦ frame (Json.toString b.message)).flatten := by
      rw [sendAll_queue hs]
      simp [Channel.new, List.flatMap_def, Body.writerMessage, WriterMessage.data,
        Function.comp_def]
    rw [hq]
    exact messages_drain_iff Body.message bodies
  · rw [submitAll_up, List.nil_append] at hc
    cases hc
    exact messages_drain_iff Submission.message submissions

/-- A response and a ping, for a forwarded request and the pong. -/
def bodies : List Body := [.response ⟨true, ""⟩, .ping ⟨7⟩]

def submissions : List Submission :=
  [.forward (messageOf (⟨0, 126, "kitchen", "abc123"⟩ : SendControlMediaKeyEventRequest)),
    .pong ⟨7⟩]

theorem short_exchange_decodes :
    ∃ tx writer, sendAll .new bodies = .ok tx ∧ submitAll ⟨[], true⟩ submissions = .ok writer ∧
      Drains tryExtractFrame (tx.queue.flatMap WriterMessage.data)
        (bodies.map fun b ↦ payload b.message) (.ok ()) [] ∧
      Drains onTryExtractFrame writer.written
        (submissions.map fun s ↦ payload s.message) (.ok ()) [] := by
  obtain ⟨hserver, hcontrol⟩ := accepted_decode_iff_short bodies _ submissions _ rfl rfl
  exact ⟨_, _, rfl, rfl, hserver.2 (by decide +kernel), hcontrol.2 (by decide +kernel)⟩

/-- The page's request with a token of two mebibytes. -/
def longRequest : SendControlMediaKeyEventRequest :=
  ⟨0, 126, String.ofList (List.replicate (2 ^ 21) 'a'), "abc123"⟩

theorem le_length_longRequest : 2 ^ 21 ≤ (payload (messageOf longRequest)).length := by
  have htoken : longRequest.token.toList.length = 2 ^ 21 := by
    rw [longRequest, String.toList_ofList, List.length_replicate]
  have hdata := length_le_toString_request longRequest
  rw [htoken] at hdata
  exact hdata.trans (length_le_toString_message (messageOf longRequest))

theorem long_request_accepted_not_decoded :
    ∃ writer, submitAll ⟨[], true⟩ [.forward (messageOf longRequest)] = .ok writer ∧
      ¬ Drains onTryExtractFrame writer.written
        [payload (messageOf longRequest)] (.ok ()) [] := by
  refine ⟨_, rfl, fun h ↦ ?_⟩
  have hlt := drains_items_lt h _ (List.mem_singleton_self _)
  exact absurd le_length_longRequest (Nat.not_le_of_lt hlt)

end MusicRemote.Protocol.RoundTrip
