import MusicRemote.Foundation.Bytes
import MusicRemote.Foundation.Extraction
import MusicRemote.Protocol.Message

namespace MusicRemote.Protocol.Framing

open Foundation.Bytes Foundation.Extraction Json

inductive Fault
  | error (text : String)
  | panic
  deriving DecidableEq

def getRange (buffer : List UInt8) (n : ℕ) : Option (List UInt8) :=
  if n ≤ buffer.length then some (buffer.take n) else none

def splitTo (buffer : List UInt8) (n : ℕ) : Except Fault (List UInt8 × List UInt8) :=
  if n ≤ buffer.length then .ok (buffer.take n, buffer.drop n) else .error .panic

def splitOff (buffer : List UInt8) (n : ℕ) : Except Fault (List UInt8) :=
  if n ≤ buffer.length then .ok (buffer.drop n) else .error .panic

/-- The body that both extractors spell out. The buffer is left as it was unless
a frame is split off, so only then is a new one returned. -/
def extractFrame (buffer : List UInt8) : Except Fault (Option (List UInt8 × List UInt8)) :=
  if buffer.length < 4 then .ok none
  else
    match getRange buffer 4 with
    | none => .error .panic -- the `unwrap`
    | some buf =>
      let len := bigEndian buf
      if len ≤ 0 ∨ len ≥ 1024 * 1024 * 2 then .error (.error "Message too long")
      else if buffer.length < 4 + len then .ok none
      else do
        let (packet, buffer) ← splitTo buffer (4 + len)
        let frame ← splitOff packet 4
        return some (frame, buffer)

/-- `Peer::on_try_extract_frame` of the server. -/
def onTryExtractFrame : Extract UInt8 (List UInt8) Fault := extractFrame

/-- `try_extract_frame` of the control. -/
def tryExtractFrame : Extract UInt8 (List UInt8) Fault := extractFrame

theorem extractFrame_eq (buffer : List UInt8) : extractFrame buffer =
    if buffer.length < 4 then .ok none
    else if bigEndian (buffer.take 4) = 0 ∨ 2 ^ 21 ≤ bigEndian (buffer.take 4) then
      .error (.error "Message too long")
    else if buffer.length < 4 + bigEndian (buffer.take 4) then .ok none
    else .ok (some ((buffer.drop 4).take (bigEndian (buffer.take 4)),
      buffer.drop (4 + bigEndian (buffer.take 4)))) := by
  unfold extractFrame
  split_ifs with h4 hlen hshort
  · rfl
  · simp only [getRange, if_pos (Nat.le_of_not_lt h4)]
    rw [if_pos (by omega)]
  · simp only [getRange, if_pos (Nat.le_of_not_lt h4)]
    rw [if_neg (by omega), if_pos hshort]
  · simp only [getRange, if_pos (Nat.le_of_not_lt h4)]
    rw [if_neg (by omega), if_neg hshort, splitTo, if_pos (by omega)]
    simp only [bind, Except.bind, splitOff]
    rw [if_pos (by rw [List.length_take]; omega), List.drop_take, Nat.add_sub_cancel_left]
    rfl

/-- The header and the text, as all three encoders write them. The length is cast
to 32 bits. -/
def frame (text : String) : List UInt8 :=
  toBigEndian 4 ((asBytes text).length % 2 ^ 32) ++ asBytes text

variable {buffer payload rest : List UInt8} {fault : Fault}

theorem extract_frame (h : extractFrame buffer = .ok (some (payload, rest))) :
    buffer = toBigEndian 4 payload.length ++ payload ++ rest ∧
      0 < payload.length ∧ payload.length < 2 ^ 21 := by
  rw [extractFrame_eq] at h
  split_ifs at h with h4 hlen hshort <;>
    simp only [Except.ok.injEq, Option.some.injEq, Prod.mk.injEq, reduceCtorEq] at h
  obtain ⟨rfl, rfl⟩ := h
  set n := bigEndian (buffer.take 4) with hn
  have hp : ((buffer.drop 4).take n).length = n := by
    rw [List.length_take, List.length_drop]
    omega
  have hheader : toBigEndian 4 n = buffer.take 4 := by
    have h := toBigEndian_bigEndian (buffer.take 4)
    rwa [List.length_take, min_eq_left (by omega)] at h
  refine ⟨?_, by omega, by omega⟩
  rw [hp, hheader, List.append_assoc, ← List.drop_drop, List.take_append_drop,
    List.take_append_drop]

theorem extract_of_frame (h0 : 0 < payload.length) (h1 : payload.length < 2 ^ 21) :
    extractFrame (toBigEndian 4 payload.length ++ payload ++ rest) =
      .ok (some (payload, rest)) := by
  have hheader : (toBigEndian 4 payload.length ++ payload ++ rest).take 4 =
      toBigEndian 4 payload.length := by
    rw [List.append_assoc, List.take_left' (length_toBigEndian 4 _)]
  have hn : bigEndian (toBigEndian 4 payload.length) = payload.length := by
    rw [bigEndian_toBigEndian, Nat.mod_eq_of_lt (by omega)]
  have hlen : (toBigEndian 4 payload.length ++ payload ++ rest).length =
      4 + payload.length + rest.length := by
    simp only [List.length_append, length_toBigEndian]
  rw [extractFrame_eq, hheader, hn, hlen, if_neg (by omega), if_neg (by omega), if_neg (by omega),
    List.append_assoc, List.drop_left' (length_toBigEndian 4 _), List.take_left' rfl,
    ← List.drop_drop, List.drop_left' (length_toBigEndian 4 _), List.drop_left' rfl]

theorem extract_none (h : extractFrame buffer = .ok none) :
    buffer.length < 4 ∨ 4 ≤ buffer.length ∧ buffer.length < 4 + bigEndian (buffer.take 4) ∧
      bigEndian (buffer.take 4) < 2 ^ 21 := by
  rw [extractFrame_eq] at h
  split_ifs at h with h4 hlen hshort
  · exact .inl h4
  · exact .inr ⟨Nat.le_of_not_lt h4, hshort, by omega⟩
  · cases h

theorem extract_error (h : extractFrame buffer = .error fault) :
    4 ≤ buffer.length ∧ (bigEndian (buffer.take 4) = 0 ∨ 2 ^ 21 ≤ bigEndian (buffer.take 4)) ∧
      fault = .error "Message too long" := by
  rw [extractFrame_eq] at h
  split_ifs at h with h4 hlen
  exact ⟨Nat.le_of_not_lt h4, hlen, (Except.error.inj h).symm⟩

theorem extractFrame_incremental : Incremental extractFrame where
  nil := rfl
  shrinks h := by
    obtain ⟨rfl, h0, _⟩ := extract_frame h
    simp only [List.length_append]
    omega
  item_append x h := by
    obtain ⟨rfl, h0, h1⟩ := extract_frame h
    rw [List.append_assoc _ _ x]
    exact extract_of_frame h0 h1
  error_append {b e} x h := by
    obtain ⟨h4, hlen, rfl⟩ := extract_error h
    rw [extractFrame_eq, List.take_append_of_le_length h4, if_neg (by simp; omega), if_pos hlen]

theorem frame_eq {text : String} (h : (asBytes text).length < 2 ^ 21) :
    frame text = toBigEndian 4 (asBytes text).length ++ asBytes text := by
  rw [frame, Nat.mod_eq_of_lt (by omega)]

/-- A text that is too long is refused by its header, as long as that holds its length. -/
theorem extract_long_frame {text : String} (h : 2 ^ 21 ≤ (asBytes text).length)
    (h' : (asBytes text).length < 2 ^ 32) (rest : List UInt8) :
    extractFrame (frame text ++ rest) = .error (.error "Message too long") := by
  have hheader : (frame text ++ rest).take 4 = toBigEndian 4 (asBytes text).length := by
    rw [frame, Nat.mod_eq_of_lt h', List.append_assoc, List.take_left' (length_toBigEndian 4 _)]
  have hn : bigEndian (toBigEndian 4 (asBytes text).length) = (asBytes text).length := by
    rw [bigEndian_toBigEndian, Nat.mod_eq_of_lt (by omega)]
  have hlen : 4 ≤ (frame text ++ rest).length := by
    rw [frame, List.length_append, List.length_append, length_toBigEndian]
    omega
  rw [extractFrame_eq, hheader, hn, if_neg (by omega), if_pos (.inr h)]

theorem drains_items_lt {b r : List UInt8} {fs : List (List UInt8)} {v : Except Fault Unit}
    (h : Drains extractFrame b fs v r) : ∀ f ∈ fs, f.length < 2 ^ 21 := by
  induction h with
  | wait _ => simp
  | fail _ => simp
  | item hb _ ih =>
    intro f hf
    rcases List.mem_cons.mp hf with rfl | hf
    · exact (extract_frame hb).2.2
    · exact ih f hf

/-- Frames in a row come out again, followed by whatever the bytes behind them give. -/
theorem drains_frames {texts : List String} {b r : List UInt8} {fs : List (List UInt8)}
    {v : Except Fault Unit} (h0 : ∀ text ∈ texts, asBytes text ≠ [])
    (h1 : ∀ text ∈ texts, (asBytes text).length < 2 ^ 21) (h : Drains extractFrame b fs v r) :
    Drains extractFrame ((texts.map frame).flatten ++ b) (texts.map asBytes ++ fs) v r := by
  induction texts with
  | nil => exact h
  | cons text texts ih =>
    have hpos := List.length_pos_of_ne_nil (h0 text (by simp))
    have hlt := h1 text (by simp)
    simp only [List.map_cons, List.flatten_cons, List.append_assoc, List.cons_append]
    refine .item ?_ (ih (fun t ht ↦ h0 t (by simp [ht])) (fun t ht ↦ h1 t (by simp [ht])))
    rw [frame_eq hlt]
    exact extract_of_frame hpos hlt

/-- Texts that are not empty survive framing exactly when all are below the limit. -/
theorem drains_frames_iff {texts : List String} (h0 : ∀ text ∈ texts, asBytes text ≠ []) :
    Drains extractFrame (texts.map frame).flatten (texts.map asBytes) (.ok ()) [] ↔
      ∀ text ∈ texts, (asBytes text).length < 2 ^ 21 := by
  constructor
  · intro h text ht
    exact drains_items_lt h _ (List.mem_map_of_mem ht)
  · intro h1
    have h := drains_frames h0 h1 (Drains.wait extractFrame_incremental.nil)
    simpa using h

/-- What is taken off the start of a row of frames are the first of their texts. A text that is too
long is never taken, nor is one behind it. -/
theorem takes_frames {texts : List String} {b r : List UInt8} {fs : List (List UInt8)}
    (h0 : ∀ text ∈ texts, asBytes text ≠ [])
    (h1 : ∀ text ∈ texts, (asBytes text).length < 2 ^ 32)
    (hb : b <+: (texts.map frame).flatten) (h : Takes extractFrame b fs r) :
    fs <+: texts.map asBytes := by
  obtain ⟨x, hx⟩ := hb
  have hall := h.append extractFrame_incremental x
  rw [hx] at hall
  clear hx h
  generalize r ++ x = r' at hall
  induction texts generalizing fs with
  | nil =>
    cases hall with
    | nil => exact List.prefix_rfl
    | item hb => cases extractFrame_incremental.nil.symm.trans hb
  | cons text texts ih =>
    have hpos := List.length_pos_of_ne_nil (h0 text List.mem_cons_self)
    rw [List.map_cons, List.flatten_cons] at hall
    rcases Nat.lt_or_ge (asBytes text).length (2 ^ 21) with hlt | hge
    · cases hall with
      | nil => exact List.nil_prefix
      | item hb hrest =>
        rw [frame_eq hlt, extract_of_frame hpos hlt, Except.ok.injEq, Option.some.injEq,
          Prod.mk.injEq] at hb
        obtain ⟨rfl, rfl⟩ := hb
        rw [List.map_cons, List.cons_prefix_cons]
        exact ⟨rfl, ih (fun t ht ↦ h0 t (List.mem_cons_of_mem _ ht))
          (fun t ht ↦ h1 t (List.mem_cons_of_mem _ ht)) hrest⟩
    · cases hall with
      | nil => exact List.nil_prefix
      | item hb =>
        rw [extract_long_frame hge (h1 text List.mem_cons_self)] at hb
        cases hb

end MusicRemote.Protocol.Framing
