import MusicRemote.Foundation.Loop
import MusicRemote.Protocol.Framing

namespace MusicRemote.Protocol.PollRead

open Foundation.Bytes Foundation.Extraction Foundation.Loop Framing

structure Unpacked where
  buffer : List UInt8
  frames : List (List UInt8)

abbrev Handler := List UInt8 → Except Fault Unit

/-- One round of the inner loop of both `poll_read` functions. -/
def unpackRound (extract : Extract UInt8 (List UInt8) Fault) (handler : Handler) (x : Unpacked) :
    Unpacked ⊕ Unpacked × Except Fault Unit :=
  if x.buffer.isEmpty then .inr (x, .ok ())
  else
    match extract x.buffer with
    | .error fault => .inr (x, .error fault)
    | .ok none => .inr (x, .ok ())
    | .ok (some (frame, buffer)) =>
      let x := ⟨buffer, x.frames ++ [frame]⟩
      match handler frame with
      | .error fault => .inr (x, .error fault)
      | .ok () => .inl x

/-- The outer loop over the reads that the stream delivers. The verdict `ok` means
that the next read is awaited; an error comes with the reads not taken. -/
def pollReads (extract : Extract UInt8 (List UInt8) Fault) (closed : Fault) (handler : Handler)
    (fuel : ℕ) : Unpacked → List (List UInt8) →
      Option (Unpacked × Except Fault Unit × List (List UInt8))
  | x, [] => some (x, .ok (), [])
  | x, read :: reads =>
    if read.isEmpty then some (x, .error closed, reads)
    else
      match loop (unpackRound extract handler) fuel { x with buffer := x.buffer ++ read } with
      | none => none
      | some (x, .error fault) => some (x, .error fault, reads)
      | some (x, .ok ()) => pollReads extract closed handler fuel x reads

def serverPollRead (addr : String) :=
  pollReads onTryExtractFrame (.error ("[" ++ addr ++ "] socket closed."))

def controlPollRead := pollReads tryExtractFrame (.error "disconnect from the server")

structure Decoding where
  frames : List (List UInt8)
  verdict : Except Fault Unit
  rest : List UInt8

/-- The decoding that a stream is meant to have, independently of any reads. -/
def reference : List UInt8 → Decoding
  | a :: b :: c :: d :: rest =>
    let n := bigEndian [a, b, c, d]
    if n = 0 ∨ 2 ^ 21 ≤ n then ⟨[], .error (.error "Message too long"), a :: b :: c :: d :: rest⟩
    else if rest.length < n then ⟨[], .ok (), a :: b :: c :: d :: rest⟩
    else
      let next := reference (rest.drop n)
      ⟨rest.take n :: next.frames, next.verdict, next.rest⟩
  | short => ⟨[], .ok (), short⟩
termination_by stream => stream.length
decreasing_by
  simp only [List.length_drop, List.length_cons]
  omega

def frameBytes (payload : List UInt8) : List UInt8 := toBigEndian 4 payload.length ++ payload

def Residual (buffer : List UInt8) : Prop :=
  (buffer = [] ∨ ∃ payload, payload.length < 2 ^ 32 ∧ buffer <+: frameBytes payload ∧
    buffer ≠ frameBytes payload) ∧ buffer.length ≤ 2 ^ 21 + 2

theorem drains_reference (stream : List UInt8) : Drains extractFrame stream
    (reference stream).frames (reference stream).verdict (reference stream).rest := by
  fun_induction reference stream with
  | case1 a b c d rest n hn =>
    refine .fail ?_
    rw [extractFrame_eq, if_neg (by simp), if_pos (by simpa using hn)]
  | case2 a b c d rest n hn hshort =>
    refine .wait ?_
    rw [extractFrame_eq, if_neg (by simp), if_neg (by simpa using hn),
      if_pos (by simp only [List.length_cons, List.take_succ_cons, List.take_zero]; omega)]
  | case3 a b c d rest n hn hlong next ih =>
    refine .item ?_ ih
    rw [extractFrame_eq, if_neg (by simp), if_neg (by simpa using hn),
      if_neg (by simp only [List.length_cons, List.take_succ_cons, List.take_zero]; omega),
      ← List.drop_drop]
    rfl
  | case4 short h =>
    refine .wait ?_
    rw [extractFrame_eq, if_pos]
    rcases short with _ | ⟨a, _ | ⟨b, _ | ⟨c, _ | ⟨d, rest⟩⟩⟩⟩
    · simp
    · simp
    · simp
    · simp
    · exact absurd rfl (h a b c d rest)

theorem residual_of_waits {buffer : List UInt8} (h : extractFrame buffer = .ok none) :
    Residual buffer := by
  rw [extractFrame_eq] at h
  split_ifs at h with h4 hlen hshort
  · -- part of a header: completed by any bytes it announces some payload
    refine ⟨.inr ⟨List.replicate (bigEndian (buffer ++ List.replicate (4 - buffer.length) 0)) 0,
      ?_, ?_, ?_⟩, by omega⟩
    · have hlt := bigEndian_lt (buffer ++ List.replicate (4 - buffer.length) 0)
      have hl : (buffer ++ List.replicate (4 - buffer.length) (0 : UInt8)).length = 4 := by
        rw [List.length_append, List.length_replicate]
        omega
      rw [hl] at hlt
      rw [List.length_replicate]
      omega
    · have hl : (buffer ++ List.replicate (4 - buffer.length) (0 : UInt8)).length = 4 := by
        rw [List.length_append, List.length_replicate]
        omega
      have hh := toBigEndian_bigEndian (buffer ++ List.replicate (4 - buffer.length) 0)
      rw [hl] at hh
      rw [frameBytes, List.length_replicate, hh, List.append_assoc]
      exact List.prefix_append _ _
    · intro h
      have hl := congrArg List.length h
      simp only [frameBytes, List.length_append, length_toBigEndian] at hl
      omega
  · -- a whole header and too few bytes behind it
    set n := bigEndian (buffer.take 4) with hn
    have hheader : toBigEndian 4 n = buffer.take 4 := by
      have h := toBigEndian_bigEndian (buffer.take 4)
      rwa [List.length_take, min_eq_left (by omega)] at h
    have hl : (buffer.drop 4 ++ List.replicate (4 + n - buffer.length) (0 : UInt8)).length = n := by
      rw [List.length_append, List.length_drop, List.length_replicate]
      omega
    refine ⟨.inr ⟨buffer.drop 4 ++ List.replicate (4 + n - buffer.length) 0, ?_, ?_, ?_⟩, by omega⟩
    · omega
    · rw [frameBytes, hl, hheader, ← List.append_assoc, List.take_append_drop]
      exact List.prefix_append _ _
    · intro h
      have hl' := congrArg List.length h
      rw [frameBytes, List.length_append, hl, length_toBigEndian] at hl'
      omega
  · simp at h

section Loops

variable {extract : Extract UInt8 (List UInt8) Fault} {handler : Handler}

theorem unpackRound_next {x y : Unpacked} (h : unpackRound extract handler x = .inl y) :
    ∃ frame, extract x.buffer = .ok (some (frame, y.buffer)) := by
  unfold unpackRound at h
  split_ifs at h
  split at h
  · cases h
  · cases h
  · next frame buffer hx =>
    dsimp only at h
    split at h <;> cases h
    exact ⟨frame, hx⟩

theorem unpackRound_leave (he : Incremental extract) {x y : Unpacked}
    (h : unpackRound extract handler x = .inr (y, .ok ())) : extract y.buffer = .ok none := by
  unfold unpackRound at h
  split_ifs at h with hb
  · cases h
    rw [List.isEmpty_iff.mp hb]
    exact he.nil
  · split at h
    · cases h
    · next hx => cases h; exact hx
    · dsimp only at h
      split at h <;> cases h

/-- The inner loop ends, whatever the handler answers. -/
theorem unpack_ends (he : Incremental extract) (handler : Handler) (x : Unpacked) :
    ∃ y v, loop (unpackRound extract handler) (x.buffer.length + 1) x = some (y, v) ∧
      (v = .ok () → extract y.buffer = .ok none) := by
  have hnext : ∀ s t, True → unpackRound extract handler s = .inl t →
      True ∧ t.buffer.length < s.buffer.length := by
    intro s t _ h
    obtain ⟨frame, hx⟩ := unpackRound_next h
    exact ⟨trivial, he.shrinks hx⟩
  have hleave : ∀ s r, True → unpackRound extract handler s = .inr r →
      (r.2 = .ok () → extract r.1.buffer = .ok none) := by
    rintro s ⟨y, v⟩ _ h rfl
    exact unpackRound_leave he h
  obtain ⟨⟨y, v⟩, hr, hq⟩ := loop_ends (fun x ↦ x.buffer.length) hnext hleave trivial
    (Nat.lt_succ_self x.buffer.length)
  exact ⟨y, v, hr, hq⟩

theorem unpack_drains (he : Incremental extract) (hok : ∀ f, handler f = .ok ())
    {b r : List UInt8} {fs : List (List UInt8)} {v : Except Fault Unit}
    (h : Drains extract b fs v r) (frames : List (List UInt8)) (fuel : ℕ) (hf : b.length < fuel) :
    loop (unpackRound extract handler) fuel ⟨b, frames⟩ = some (⟨r, frames ++ fs⟩, v) := by
  obtain ⟨fuel, rfl⟩ := Nat.exists_eq_add_of_le' (show 1 ≤ fuel by omega)
  -- Along the drain, each item is one round of the loop and shortens the buffer.
  induction h generalizing frames fuel with
  | @wait b hb =>
    rw [List.append_nil]
    apply loop_leave
    simp [unpackRound, hb]
  | @fail b e hb =>
    rw [List.append_nil]
    apply loop_leave
    have hne : b ≠ [] := fun h ↦ by simp [h, he.nil] at hb
    simp [unpackRound, hb, hne]
  | @item b r r' f fs v hb _ ih =>
    have hne : b ≠ [] := fun h ↦ by simp [h, he.nil] at hb
    have hs : unpackRound extract handler ⟨b, frames⟩ = .inl ⟨r, frames ++ [f]⟩ := by
      simp [unpackRound, hb, hne, hok]
    have hlt := he.shrinks hb
    obtain ⟨fuel, rfl⟩ := Nat.exists_eq_add_of_le' (show 1 ≤ fuel by omega)
    rw [loop_next hs, ih (frames ++ [f]) fuel (by omega), List.append_assoc, List.singleton_append]

/-- The two nested loops, run on reads that are not empty, read as the library's
relation says. -/
theorem pollReads_reads (he : Incremental extract) (hok : ∀ f, handler f = .ok ()) (closed : Fault)
    (fuel : ℕ) (reads : List (List UInt8)) (hne : ∀ read ∈ reads, read ≠ [])
    (b : List UInt8) (frames : List (List UInt8)) (hf : b.length + reads.flatten.length < fuel) :
    ∃ fs v r unread, Reads extract b reads fs v r unread ∧
      pollReads extract closed handler fuel ⟨b, frames⟩ reads =
        some (⟨r, frames ++ fs⟩, v, unread) := by
  induction reads generalizing b frames with
  | nil => exact ⟨[], .ok (), b, [], .nil b, by simp [pollReads]⟩
  | cons read reads ih =>
    obtain ⟨fs, v, r, hd⟩ := he.drains (b ++ read)
    simp only [List.flatten_cons, List.length_append] at hf
    have hread : read.isEmpty = false := by simpa using hne read (by simp)
    have hloop := unpack_drains he hok hd frames fuel (by rw [List.length_append]; omega)
    cases v with
    | error fault =>
      exact ⟨fs, .error fault, r, reads, .stop hd, by simp [pollReads, hread, hloop]⟩
    | ok =>
      have hr := hd.rest_length he
      rw [List.length_append] at hr
      obtain ⟨gs, v, r', unread, hreads, hpoll⟩ := ih (fun read h ↦ hne read (by simp [h])) r
        (frames ++ fs) (by omega)
      refine ⟨fs ++ gs, v, r', unread, .more hd hreads, ?_⟩
      simp [pollReads, hread, hloop, hpoll]

end Loops

/-- A reader's state agrees with a decoding of the whole stream: it has handed on
the same frames, ended in the same way and left the same bytes, where bytes that
an error kept it from reading count as left. -/
structure Agrees (d : Decoding) (out : Unpacked × Except Fault Unit × List (List UInt8)) :
    Prop where
  frames : out.1.frames = d.frames
  verdict : out.2.1 = d.verdict
  rest : out.1.buffer ++ out.2.2.flatten = d.rest
  waiting : out.2.1 = .ok () → out.2.2 = [] ∧ Residual out.1.buffer

theorem pollReads_agrees (closed : Fault) {handler : Handler}
    (hok : ∀ frame, handler frame = .ok ()) {reads : List (List UInt8)}
    (hne : ∀ read ∈ reads, read ≠ []) {fuel : ℕ} (hf : reads.flatten.length < fuel) :
    ∃ out, pollReads extractFrame closed handler fuel ⟨[], []⟩ reads = some out ∧
      Agrees (reference reads.flatten) out := by
  have he := extractFrame_incremental
  obtain ⟨fs, v, r, unread, hreads, hpoll⟩ :=
    pollReads_reads he hok closed fuel reads hne [] [] (by simpa using hf)
  have hd := hreads.drains_flatten he he.nil
  obtain ⟨hfs, hv, hr⟩ := hd.deterministic (drains_reference reads.flatten)
  refine ⟨(⟨r, fs⟩, v, unread), hpoll, hfs, hv, hr, ?_⟩
  intro hok
  have hu := hreads.unread_nil hok
  have hw := hd.rest_waits hok
  rw [hu, List.flatten_nil, List.append_nil] at hw
  exact ⟨hu, residual_of_waits hw⟩

theorem unpack_residual (handler : Handler) (x : Unpacked) :
    ∃ y v, loop (unpackRound extractFrame handler) (x.buffer.length + 1) x = some (y, v) ∧
      (v = .ok () → Residual y.buffer) := by
  obtain ⟨y, v, hr, hw⟩ := unpack_ends extractFrame_incremental handler x
  exact ⟨y, v, hr, fun hv ↦ residual_of_waits (hw hv)⟩

/-- Both readers decode every stream as the reference does, whatever the cuts, and
their inner loops end on every input, leaving part of one frame at most. -/
theorem poll_read_agrees_with_reference (addr : String) (handler : Handler)
    (hok : ∀ frame, handler frame = .ok ()) (reads : List (List UInt8))
    (hne : ∀ read ∈ reads, read ≠ []) (fuel : ℕ) (hf : reads.flatten.length < fuel) :
    (∃ out, serverPollRead addr handler fuel ⟨[], []⟩ reads = some out ∧
      Agrees (reference reads.flatten) out) ∧
    (∃ out, controlPollRead handler fuel ⟨[], []⟩ reads = some out ∧
      Agrees (reference reads.flatten) out) ∧
    (∀ handler x, ∃ y v, loop (unpackRound onTryExtractFrame handler) (x.buffer.length + 1) x =
      some (y, v) ∧ (v = .ok () → Residual y.buffer)) ∧
    (∀ handler x, ∃ y v, loop (unpackRound tryExtractFrame handler) (x.buffer.length + 1) x =
      some (y, v) ∧ (v = .ok () → Residual y.buffer)) :=
  ⟨pollReads_agrees _ hok hne hf, pollReads_agrees _ hok hne hf, unpack_residual, unpack_residual⟩

theorem poll_read_agrees_on_two_cuts :
    (∃ out,
      serverPollRead "peer" (fun _ ↦ .ok ()) 8 ⟨[], []⟩ [[0, 0], [0, 1, 65, 0, 0]] = some out ∧
      Agrees (reference [0, 0, 0, 1, 65, 0, 0]) out) ∧
    (∃ out, controlPollRead (fun _ ↦ .ok ()) 8 ⟨[], []⟩ [[0, 0], [0, 1, 65, 0, 0]] = some out ∧
      Agrees (reference [0, 0, 0, 1, 65, 0, 0]) out) := by
  have h := poll_read_agrees_with_reference "peer" (fun _ ↦ .ok ()) (fun _ ↦ rfl)
    [[0, 0], [0, 1, 65, 0, 0]] (by decide) 8 (by decide)
  exact ⟨h.1, h.2.1⟩

end MusicRemote.Protocol.PollRead
