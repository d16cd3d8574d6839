import MusicRemote.Foundation.Transition
import MusicRemote.Protocol.Framing

namespace MusicRemote.Client.Unpack

open Foundation.Bytes Foundation.Extraction Foundation.Transition
open Protocol Protocol.Json Protocol.Framing

structure UnpackParams where
  maxFrameLength : ℤ := 10 * 1024 * 1024
  lengthFieldOffset : ℤ := -1
  lengthFieldLength : ℤ := 4
  lengthAdjustment : ℤ := 0
  initialBytesToStrip : ℤ := 0
  noBswap : ℤ := 0

def clamp (value low high : ℤ) : ℤ := max low (min value high)

namespace UnpackParams

/-- `YOPT_C_UNPACK_PARAMS` -/
def setParams (p : UnpackParams) (maxFrameLength offset length adjustment : ℤ) : UnpackParams :=
  { p with
    maxFrameLength := maxFrameLength
    lengthFieldOffset := offset
    lengthFieldLength := clamp length 1 4
    lengthAdjustment := adjustment }

/-- `YOPT_C_UNPACK_STRIP` -/
def setStrip (p : UnpackParams) (strip : ℤ) : UnpackParams :=
  { p with initialBytesToStrip := clamp strip 0 32 }

/-- `YOPT_C_UNPACK_NO_BSWAP` -/
def setNoBswap (p : UnpackParams) (noBswap : ℤ) : UnpackParams := { p with noBswap := noBswap }

end UnpackParams

def started : UnpackParams :=
  (((({} : UnpackParams).setParams (1024 * 1024 * 10) 0 4 4).setStrip 4).setNoBswap 0)

/-- `__builtin_decode_len` on a host that stores the low byte first. The sum is one of 32-bit
integers. -/
def decodeLen (p : UnpackParams) (d : List UInt8) : ℤ :=
  if 0 ≤ p.lengthFieldOffset then
    if p.lengthFieldOffset + p.lengthFieldLength ≤ d.length then
      let field := (d.drop p.lengthFieldOffset.toNat).take p.lengthFieldLength.toNat
      let value := bigEndian (if p.noBswap = 0 then field else field.reverse)
      let len := (value + p.lengthAdjustment).bmod (2 ^ 32)
      if len > p.maxFrameLength then -1 else len
    else 0
  else d.length

/-- The part of `io_transport` that reading uses. `buffer` is what `offset_` counts: the bytes at
the head of the receive buffer that are still to be unpacked. -/
structure Transport where
  buffer : List UInt8
  expectedSize : ℤ
  expectedPacket : List UInt8
  deriving DecidableEq

def maxRcvbuf : ℕ := 64 * 1024

def Transport.free (t : Transport) : ℕ := maxRcvbuf - t.buffer.length

/-- `io_service::unpack`, with the packet that it fires. -/
def unpack (t : Transport) (bytesWant : ℤ) (bytes : List UInt8) (bytesToStrip : ℤ) :
    Transport × Option (List UInt8) :=
  let buffer := t.buffer ++ bytes
  let bytesAvailable : ℤ := buffer.length
  let packet := t.expectedPacket ++
    (buffer.take (min bytesWant bytesAvailable).toNat).drop bytesToStrip.toNat
  if bytesAvailable - bytesWant ≥ 0 then
    -- `fetch_packet` moves the packet out and resets the expected size
    (⟨buffer.drop bytesWant.toNat, -1, []⟩, some packet)
  else (⟨[], t.expectedSize, packet⟩, none)

inductive Errc
  | invalidPacket
  deriving DecidableEq

/-- `io_service::do_read` after a read of `bytes`, which are none when the socket had nothing. -/
def doRead (p : UnpackParams) (t : Transport) (bytes : List UInt8) :
    Except Errc (Transport × Option (List UInt8)) :=
  let bytesToStrip := p.initialBytesToStrip
  if t.expectedSize = -1 then
    let length := decodeLen p (t.buffer ++ bytes)
    if length > 0 then
      if length < bytesToStrip then .error .invalidPacket
      else .ok (unpack { t with expectedSize := length } length bytes bytesToStrip)
    else if length = 0 then .ok ({ t with buffer := t.buffer ++ bytes }, none)
    else .error .invalidPacket
  else .ok (unpack t (t.expectedSize - (t.expectedPacket.length + bytesToStrip)) bytes 0)

/-- A connection's end in the client, with the data of its `OnRecvData` events. -/
structure Receiver where
  transport : Transport
  recvData : List (List UInt8)
  errno : Option Errc
  deriving DecidableEq

def Receiver.opened : Receiver := ⟨⟨[], -1, []⟩, [], none⟩

/-- One round of the service loop for the transport. After an error it is closed. -/
def receive (s : Receiver) (bytes : List UInt8) : Option Receiver :=
  if s.errno = none ∧ bytes.length ≤ s.transport.free then
    match doRead started s.transport bytes with
    | .error errc => some { s with errno := some errc }
    | .ok (transport, none) => some { s with transport := transport }
    | .ok (transport, some packet) =>
      some { s with transport := transport, recvData := s.recvData ++ [packet] }
  else none

theorem started_eq : started = ⟨10485760, 0, 4, 4, 4, 0⟩ := rfl

section

variable {t : Transport} {b bytes packet rest : List UInt8} {n : ℕ}

theorem decodeLen_of_short (h : b.length < 4) : decodeLen started b = 0 := by
  rw [started_eq, decodeLen, if_pos (by decide), if_neg (by simp; omega)]

theorem decodeLen_of_header (h : 4 ≤ b.length) (hn : bigEndian (b.take 4) < 2 ^ 21) :
    decodeLen started b = (bigEndian (b.take 4) + 4 : ℕ) := by
  have hmod : ((bigEndian (b.take 4) : ℤ) + 4).bmod (2 ^ 32) = bigEndian (b.take 4) + 4 := by
    rw [Int.bmod_eq_of_le] <;> omega
  rw [started_eq, decodeLen, if_pos (by decide), if_pos (by simp; omega)]
  simp only [Int.reduceToNat, List.drop_zero, if_true, hmod]
  rw [if_neg (by omega), Nat.cast_add, Nat.cast_ofNat]

theorem unpack_eq (t : Transport) (want strip : ℕ) (bytes : List UInt8) :
    unpack t want bytes strip =
      if want ≤ (t.buffer ++ bytes).length then
        (⟨(t.buffer ++ bytes).drop want, -1, []⟩,
          some (t.expectedPacket ++ ((t.buffer ++ bytes).take want).drop strip))
      else (⟨[], t.expectedSize, t.expectedPacket ++ (t.buffer ++ bytes).drop strip⟩, none) := by
  unfold unpack
  dsimp only
  by_cases h : want ≤ (t.buffer ++ bytes).length
  · rw [if_pos (by omega), if_pos h, min_eq_left (by omega)]
    simp only [Int.toNat_natCast]
  · rw [if_neg (by omega), if_neg h, min_eq_right (by omega)]
    simp only [Int.toNat_natCast, List.take_length]

/-- The bytes that the transport has read and not yet handed on. While a packet is incomplete its
header is known by the size. -/
inductive Holds : Transport → List UInt8 → Prop
  | header {buffer : List UInt8} : buffer.length < maxRcvbuf → Holds ⟨buffer, -1, []⟩ buffer
  | body {n : ℕ} {packet : List UInt8} : n < 2 ^ 21 → packet.length < n →
      Holds ⟨[], (n + 4 : ℕ), packet⟩ (toBigEndian 4 n ++ packet)

theorem doRead_of_short (hb : (b ++ bytes).length < 4) :
    doRead started ⟨b, -1, []⟩ bytes = .ok (⟨b ++ bytes, -1, []⟩, none) := by
  simp [doRead, decodeLen_of_short hb]

/-- A header with its first bytes, complete or not. -/
theorem doRead_of_header (h4 : 4 ≤ (b ++ bytes).length)
    (hn : bigEndian ((b ++ bytes).take 4) = n) (hlt : n < 2 ^ 21) :
    doRead started ⟨b, -1, []⟩ bytes =
      .ok (unpack ⟨b, (n + 4 : ℕ), []⟩ (n + 4 : ℕ) bytes (4 : ℕ)) := by
  subst hn
  have hlen := decodeLen_of_header h4 hlt
  simp only [doRead, if_true, hlen]
  rw [if_pos (by omega), started_eq, if_neg (by simp only; omega)]
  rfl

theorem doRead_of_body (h : packet.length < n) :
    doRead started ⟨[], (n + 4 : ℕ), packet⟩ bytes =
      .ok (unpack ⟨[], (n + 4 : ℕ), packet⟩ (n - packet.length : ℕ) bytes (0 : ℕ)) := by
  have hwant : ((n + 4 : ℕ) : ℤ) - (packet.length + 4) = (n - packet.length : ℕ) := by omega
  simp only [doRead, started_eq]
  rw [if_neg (by omega), hwant]
  rfl

theorem take_header (n : ℕ) (b : List UInt8) : (toBigEndian 4 n ++ b).take 4 = toBigEndian 4 n :=
  List.take_left' (length_toBigEndian 4 n)

theorem bigEndian_header (hn : n < 2 ^ 21) : bigEndian (toBigEndian 4 n) = n := by
  rw [bigEndian_toBigEndian, Nat.mod_eq_of_lt (by omega)]

/-- A read that does not complete a frame. -/
theorem Holds.doRead_wait (h : Holds t b) (hx : extractFrame (b ++ bytes) = .ok none) :
    ∃ t', doRead started t bytes = .ok (t', none) ∧ Holds t' (b ++ bytes) := by
  cases h with
  | header =>
    obtain h4 | ⟨h4, hshort, hlt⟩ := extract_none hx
    · refine ⟨_, doRead_of_short h4, .header ?_⟩
      rw [maxRcvbuf]
      omega
    · set n := bigEndian ((b ++ bytes).take 4) with hn
      refine ⟨⟨[], (n + 4 : ℕ), (b ++ bytes).drop 4⟩, ?_, ?_⟩
      · rw [doRead_of_header h4 hn.symm hlt, unpack_eq, if_neg (by simp only; omega),
          List.nil_append]
      · have hheader := toBigEndian_bigEndian ((b ++ bytes).take 4)
        rw [List.length_take, min_eq_left h4] at hheader
        have hbody : Holds _ (toBigEndian 4 n ++ (b ++ bytes).drop 4) :=
          .body hlt (by rw [List.length_drop]; omega)
        rwa [hheader, List.take_append_drop] at hbody
  | @body n packet hn hp =>
    rw [List.append_assoc] at hx ⊢
    have hlen : (toBigEndian 4 n ++ (packet ++ bytes)).length = 4 + (packet ++ bytes).length := by
      rw [List.length_append, length_toBigEndian]
    have hshort : (packet ++ bytes).length < n := by
      have hx := extract_none hx
      rw [take_header, bigEndian_header hn, hlen] at hx
      omega
    refine ⟨⟨[], (n + 4 : ℕ), packet ++ bytes⟩, ?_, .body hn hshort⟩
    rw [List.length_append] at hshort
    rw [doRead_of_body hp, unpack_eq, if_neg (by simp only [List.nil_append]; omega),
      List.nil_append, List.drop_zero]

/-- A read that completes a frame, with what it brings of the next ones. -/
theorem Holds.doRead_item (h : Holds t b) (hfree : bytes.length ≤ t.free)
    (hx : extractFrame (b ++ bytes) = .ok (some (packet, rest))) :
    ∃ t', doRead started t bytes = .ok (t', some packet) ∧ Holds t' rest := by
  obtain ⟨hb, h0, h1⟩ := extract_frame hx
  rw [List.append_assoc] at hb
  have hlen := congrArg List.length hb
  simp only [List.length_append, length_toBigEndian] at hlen
  rw [Transport.free] at hfree
  cases h with
  | header hroom =>
    refine ⟨⟨rest, -1, []⟩, ?_, .header (by simp only at hfree; omega)⟩
    have hn : bigEndian ((b ++ bytes).take 4) = packet.length := by
      rw [hb, take_header, bigEndian_header h1]
    rw [doRead_of_header (by rw [List.length_append]; omega) hn h1, unpack_eq,
      if_pos (by simp only [List.length_append]; omega), hb]
    have hsplit : (toBigEndian 4 packet.length ++ packet).length = packet.length + 4 := by
      rw [List.length_append, length_toBigEndian, Nat.add_comm]
    rw [← List.append_assoc, List.drop_left' hsplit, List.take_left' hsplit,
      List.drop_left' (length_toBigEndian 4 _), List.nil_append]
  | @body n part hn hp =>
    have hh := congrArg (List.take 4) hb
    rw [List.append_assoc, take_header, take_header] at hh
    have hsize : n = packet.length := by rw [← bigEndian_header hn, hh, bigEndian_header h1]
    subst hsize
    rw [List.append_assoc] at hb
    have hb := List.append_cancel_left hb
    simp only [List.length_append, length_toBigEndian] at hlen
    have hpart : part ++ bytes.take (packet.length - part.length) = packet := by
      have h := congrArg (List.take packet.length) hb
      rwa [List.take_append, List.take_of_length_le hp.le, List.take_left' rfl] at h
    have hrest : bytes.drop (packet.length - part.length) = rest := by
      have h := congrArg (List.drop packet.length) hb
      rwa [List.drop_append, List.drop_of_length_le hp.le, List.nil_append,
        List.drop_left' rfl] at h
    refine ⟨⟨rest, -1, []⟩, ?_, .header (by simp only [List.length_nil] at hfree; omega)⟩
    rw [doRead_of_body hp, unpack_eq, if_pos (by simp only [List.nil_append]; omega),
      List.nil_append, List.drop_zero, hpart, hrest]

/-- A read of no room would be taken for the end of the stream. -/
theorem Holds.free_pos (h : Holds t b) : 0 < t.free := by
  cases h with
  | header hroom => exact Nat.sub_pos_of_lt hroom
  | body => exact Nat.zero_lt_succ _

end

def Receiver.Owes (s : Receiver) (unread : List UInt8) (packets : List (List UInt8)) : Prop :=
  s.errno = none ∧ ∃ b, Holds s.transport b ∧
    Drains extractFrame (b ++ unread) packets (.ok ()) []

section

variable {s s' : Receiver} {bytes unread : List UInt8} {packets : List (List UInt8)}

/-- A read either hands the next packet on or fits into none. -/
theorem Receiver.Owes.receive (h : s.Owes (bytes ++ unread) packets)
    (hfree : bytes.length ≤ s.transport.free) :
    ∃ s', receive s bytes = some s' ∧
      (s'.recvData = s.recvData ∧ s'.Owes unread packets ∧ (unread = [] → packets = []) ∨
        ∃ packet rest, packets = packet :: rest ∧ s'.recvData = s.recvData ++ [packet] ∧
          s'.Owes unread rest) := by
  obtain ⟨herr, b, hb, hd⟩ := h
  rw [← List.append_assoc] at hd
  obtain hx | ⟨packet, r, rest, hx, rfl, hr⟩ := hd.next extractFrame_incremental
  · obtain ⟨t, ht, hholds⟩ := hb.doRead_wait hx
    refine ⟨{ s with transport := t }, ?_, .inl ⟨rfl, ⟨herr, _, hholds, hd⟩, fun hu ↦ ?_⟩⟩
    · simp [Unpack.receive, herr, hfree, ht]
    · rw [hu, List.append_nil] at hd
      exact (hd.deterministic (.wait hx)).1
  · obtain ⟨t, ht, hholds⟩ := hb.doRead_item hfree hx
    refine ⟨{ s with transport := t, recvData := s.recvData ++ [packet] }, ?_,
      .inr ⟨packet, rest, rfl, rfl, herr, r, hholds, hr⟩⟩
    simp [Unpack.receive, herr, hfree, ht]

/-- Once all is read, each further round hands one packet on. -/
theorem Receiver.Owes.flush (h : s.Owes [] packets) {n : ℕ} (hn : packets.length ≤ n) :
    ∃ s', Run Unpack.receive Any s (List.replicate n []) s' ∧
      s'.recvData = s.recvData ++ packets ∧ s'.errno = none := by
  induction n generalizing s packets with
  | zero =>
    obtain rfl := List.length_eq_zero_iff.1 (Nat.le_zero.1 hn)
    exact ⟨s, .nil s, (List.append_nil _).symm, h.1⟩
  | succ n ih =>
    obtain ⟨s', hs, ⟨hdata, howes, hnil⟩ | ⟨packet, rest, rfl, hdata, howes⟩⟩ :=
      @Receiver.Owes.receive s [] [] packets h (Nat.zero_le _)
    · obtain rfl := hnil rfl
      obtain ⟨t, ht, hd, he⟩ := ih howes (Nat.zero_le n)
      exact ⟨t, .cons trivial hs ht, hdata ▸ hd, he⟩
    · obtain ⟨t, ht, hd, he⟩ := ih howes (Nat.le_of_succ_le_succ hn)
      refine ⟨t, .cons trivial hs ht, ?_, he⟩
      rw [hd, hdata, List.append_assoc, List.singleton_append]

theorem owes_of_run {stream : List UInt8} {reads : List (List UInt8)}
    (hstream : Drains extractFrame stream packets (.ok ()) [])
    (h : Run receive Any .opened reads s) (hreads : reads.flatten ++ unread = stream) :
    ∃ rest, s.Owes unread rest ∧ s.recvData ++ rest = packets := by
  refine h.history (I := fun reads s ↦ ∀ unread, reads.flatten ++ unread = stream →
    ∃ rest, s.Owes unread rest ∧ s.recvData ++ rest = packets) ?_ ?_ unread hreads
  · intro reads s bytes s' ih _ hs unread hreads
    rw [List.flatten_append, List.flatten_singleton, List.append_assoc] at hreads
    obtain ⟨rest, howes, hrest⟩ := ih (bytes ++ unread) hreads
    have hfree : bytes.length ≤ s.transport.free := by
      unfold receive at hs
      exact (Option.ite_none_right_eq_some.1 hs).1.2
    obtain ⟨t, ht, ⟨hdata, ho, -⟩ | ⟨packet, rest, rfl, hdata, ho⟩⟩ := howes.receive hfree
    · obtain rfl := Option.some.inj (hs.symm.trans ht)
      exact ⟨rest, ho, hdata ▸ hrest⟩
    · obtain rfl := Option.some.inj (hs.symm.trans ht)
      refine ⟨rest, ho, ?_⟩
      rw [hdata, List.append_assoc, List.singleton_append, hrest]
  · rintro unread rfl
    refine ⟨packets, ⟨rfl, [], .header (by decide), ?_⟩, rfl⟩
    simpa using hstream

/-- What the server frames is what the client is given, however the stream is cut into reads. -/
theorem payloads_arrive {texts : List String} {reads : List (List UInt8)}
    (h0 : ∀ text ∈ texts, asBytes text ≠ []) (h1 : ∀ text ∈ texts, (asBytes text).length < 2 ^ 21)
    (h : Run receive Any .opened reads s) (hreads : reads.flatten <+: (texts.map frame).flatten) :
    s.errno = none ∧ s.recvData <+: texts.map asBytes ∧ 0 < s.transport.free ∧
      (reads.flatten = (texts.map frame).flatten →
        ∀ n, texts.length ≤ s.recvData.length + n →
          ∃ t, Run receive Any s (List.replicate n []) t ∧ t.recvData = texts.map asBytes ∧
            t.errno = none) := by
  have hstream := (drains_frames_iff h0).2 h1
  obtain ⟨unread, hunread⟩ := hreads
  obtain ⟨rest, howes, hrest⟩ := owes_of_run hstream h hunread
  obtain ⟨b, hholds, -⟩ := howes.2
  refine ⟨howes.1, ⟨rest, hrest⟩, hholds.free_pos, ?_⟩
  intro hall n hn
  obtain rfl : unread = [] := by
    rw [hall] at hunread
    exact List.append_right_eq_self.1 hunread
  have hlen := congrArg List.length hrest
  rw [List.length_append, List.length_map] at hlen
  obtain ⟨t, ht, hdata, herr⟩ := howes.flush (n := n) (by omega)
  exact ⟨t, ht, hdata.trans hrest, herr⟩

/-- Two frames, the first cut in its header and in its text, the second all in the last read. -/
theorem two_payloads_arrive : ∃ s t,
    Run receive Any .opened [[0, 0, 0], [2, 123], [], [125, 0, 0, 0, 2, 123, 125]] s ∧
      Run receive Any s [[]] t ∧ t.recvData = ["\x7b\x7d", "\x7b\x7d"].map asBytes ∧
        t.errno = none := by
  obtain ⟨s, h, hdata⟩ : ∃ s,
      Run receive Any .opened [[0, 0, 0], [2, 123], [], [125, 0, 0, 0, 2, 123, 125]] s ∧
        s.recvData.length = 1 := Run.exists_of_execute (by decide +kernel)
  have hstream : (["\x7b\x7d", "\x7b\x7d"].map frame).flatten =
      [0, 0, 0, 2, 123, 125, 0, 0, 0, 2, 123, 125] := by decide +kernel
  have hread : [[0, 0, 0], [2, 123], [], [125, 0, 0, 0, 2, 123, 125]].flatten <+:
      (["\x7b\x7d", "\x7b\x7d"].map frame).flatten := hstream ▸ List.prefix_rfl
  obtain ⟨-, -, -, hflush⟩ := payloads_arrive (by decide +kernel) (by decide +kernel) h hread
  obtain ⟨t, ht, hall, herr⟩ := hflush hstream.symm 1 (by rw [hdata]; decide)
  exact ⟨s, t, h, ht, hall, herr⟩

end

end MusicRemote.Client.Unpack
