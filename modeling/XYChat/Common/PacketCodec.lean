import Mathlib.Data.Nat.Init
import XYChat.Common.Qt
import XYChat.Lib.Framing

/-!
# The packet codec

The frame of a packet on the wire, as `PacketCodec::encode` writes it and
`PacketCodec::nextPacket` takes it from the front of its buffer, and what a
stream of frames decodes to.
-/

namespace XYChat.Protocol

open Lib

/-- "XYCP". -/
def magic : Nat := 0x58594350

def currentVersion : UInt16 := 1

def headerSize : Nat := 4 + 2 + 2 + 8 + 4

def maxPayloadSize : Nat := 4 * 1024 * 1024

/-- `Packet`. -/
structure Packet where
  version : UInt16 := currentVersion
  messageType : UInt16
  requestId : UInt64 := 0
  payload : Bytes
  deriving DecidableEq, Repr

/-! ## Big-endian numbers -/

/-- The last `size` bytes of a number, as `QDataStream` writes them. -/
def bigEndian : Nat → Nat → Bytes
  | 0, _ => []
  | size + 1, n => bigEndian size (n / 256) ++ [UInt8.ofNat n]

/-- The number that bytes in big-endian order stand for. -/
def ofBigEndian (bytes : Bytes) : Nat := bytes.foldl (fun n b => 256 * n + b.toNat) 0

/-- Read `size` bytes off the stream. -/
def read (size : Nat) (stream : Bytes) : Nat × Bytes :=
  (ofBigEndian (stream.take size), stream.drop size)

/-! ## The codec -/

/-- `PacketCodec::encode`: nothing when the payload is too large. -/
def encode (packet : Packet) : Bytes :=
  if maxPayloadSize < packet.payload.length then []
  else
    bigEndian 4 magic ++ bigEndian 2 packet.version.toNat ++ bigEndian 2 packet.messageType.toNat
      ++ bigEndian 8 packet.requestId.toNat ++ bigEndian 4 packet.payload.length ++ packet.payload

/-- `PacketCodec::DecodeStatus`, with the packet or the error message that comes
with it. -/
inductive DecodeStatus where
  | needMoreData
  | packetReady (packet : Packet)
  | invalidData (errorMessage : String)
  deriving DecidableEq, Repr

/-- The fields `nextPacket` reads off its stream, in their order. -/
structure Header where
  magic : Nat
  version : UInt16
  messageType : UInt16
  requestId : UInt64
  payloadLength : Nat
  deriving DecidableEq, Repr

def readHeader (buffer : Bytes) : Header :=
  let (magic, stream) := read 4 buffer
  let (version, stream) := read 2 stream
  let (messageType, stream) := read 2 stream
  let (requestId, stream) := read 8 stream
  let (payloadLength, _) := read 4 stream
  { magic
    version := UInt16.ofNat version
    messageType := UInt16.ofNat messageType
    requestId := UInt64.ofNat requestId
    payloadLength }

/-- `PacketCodec::nextPacket`, on the buffer and with the buffer it leaves. -/
def nextPacket (buffer : Bytes) : DecodeStatus × Bytes :=
  if buffer.length < headerSize then (.needMoreData, buffer)
  else
    let header := readHeader buffer
    if header.magic ≠ magic then (.invalidData "Invalid packet magic", [])
    else if header.version ≠ currentVersion then (.invalidData "Unsupported protocol version", [])
    else if maxPayloadSize < header.payloadLength then (.invalidData "Payload too large", [])
    else
      let packetLength := headerSize + header.payloadLength
      if buffer.length < packetLength then (.needMoreData, buffer)
      else
        (.packetReady
          { version := header.version
            messageType := header.messageType
            requestId := header.requestId
            payload := (buffer.drop headerSize).take header.payloadLength },
          buffer.drop packetLength)

/-! ## Reading what was written -/

@[simp] theorem length_bigEndian (size n : Nat) : (bigEndian size n).length = size := by
  induction size generalizing n with
  | zero => rfl
  | succ size ih => simp [bigEndian, ih]

theorem ofBigEndian_bigEndian (size n : Nat) : ofBigEndian (bigEndian size n) = n % 256 ^ size := by
  induction size generalizing n with
  | zero => simp [bigEndian, ofBigEndian, Nat.mod_one]
  | succ size ih =>
      have hlast : ofBigEndian (bigEndian (size + 1) n) =
          256 * ofBigEndian (bigEndian size (n / 256)) + n % 256 := by
        simp [ofBigEndian, bigEndian, List.foldl_append, UInt8.toNat_ofNat']
      rw [hlast, ih, Nat.pow_succ', Nat.mod_mul, Nat.add_comm]

theorem read_bigEndian {size n : Nat} (h : n < 256 ^ size) (rest : Bytes) :
    read size (bigEndian size n ++ rest) = (n, rest) := by
  unfold read
  rw [List.take_left' (length_bigEndian size n), List.drop_left' (length_bigEndian size n),
    ofBigEndian_bigEndian, Nat.mod_eq_of_lt h]

/-- What the header reads does not depend on what follows it. -/
theorem readHeader_append {buffer : Bytes} (h : headerSize ≤ buffer.length) (more : Bytes) :
    readHeader (buffer ++ more) = readHeader buffer := by
  have hsize : 20 ≤ buffer.length := h
  have htake : ∀ n, n ≤ 20 → (buffer ++ more).take n = buffer.take n := fun n hn =>
    List.take_append_of_le_length (by omega)
  have hdrop : ∀ k n, k + n ≤ 20 →
      ((buffer ++ more).drop k).take n = (buffer.drop k).take n := by
    intro k n hkn
    rw [List.drop_append_of_le_length (by omega)]
    exact List.take_append_of_le_length (by rw [List.length_drop]; omega)
  simp [readHeader, read, htake, hdrop]

/-- **Decode after encode.** A packet of the supported version whose payload is
not too large is read back, and nothing else is taken from the buffer. -/
theorem nextPacket_encode {packet : Packet} (hversion : packet.version = currentVersion)
    (hsize : packet.payload.length ≤ maxPayloadSize) (more : Bytes) :
    nextPacket (encode packet ++ more) = (.packetReady packet, more) := by
  have hlength : packet.payload.length < 256 ^ 4 := by
    have hmax : maxPayloadSize < 256 ^ 4 := by decide
    omega
  have hheader : readHeader (encode packet ++ more) =
      { magic := magic
        version := packet.version
        messageType := packet.messageType
        requestId := packet.requestId
        payloadLength := packet.payload.length } := by
    unfold readHeader encode
    rw [if_neg (by omega)]
    simp only [List.append_assoc]
    rw [read_bigEndian (by decide)]
    dsimp only
    rw [read_bigEndian packet.version.toNat_lt]
    dsimp only
    rw [read_bigEndian packet.messageType.toNat_lt]
    dsimp only
    rw [read_bigEndian packet.requestId.toNat_lt]
    dsimp only
    rw [read_bigEndian hlength]
    simp
  obtain ⟨header, hencode, hheaderSize⟩ : ∃ header, encode packet = header ++ packet.payload ∧
      header.length = headerSize := by
    unfold encode
    rw [if_neg (by omega)]
    exact ⟨_, rfl, by simp [headerSize]⟩
  have hbuffer : (encode packet ++ more).length =
      headerSize + packet.payload.length + more.length := by
    simp [hencode, hheaderSize, Nat.add_assoc]
  have hpayload : ((encode packet ++ more).drop headerSize).take packet.payload.length =
      packet.payload := by
    rw [hencode, List.append_assoc, List.drop_left' hheaderSize, List.take_left' rfl]
  have hrest : (encode packet ++ more).drop (headerSize + packet.payload.length) = more := by
    rw [hencode]
    exact List.drop_left' (by simp [hheaderSize])
  unfold nextPacket
  rw [if_neg (by omega), hheader]
  dsimp only
  rw [if_neg (by simp), if_neg (by simp [hversion]), if_neg (by omega), if_neg (by omega), hpayload,
    hrest]

/-! ## Streams -/

/-- What `nextPacket` finds; the buffer of a packet that is ready is what
follows it. -/
def frontPacket (buffer : Bytes) : Decoded UInt8 Packet :=
  match nextPacket buffer with
  | (.needMoreData, _) => .needMore
  | (.packetReady packet, rest) => .ready packet rest
  | (.invalidData _, _) => .invalid

/-- **The verdict is final.** The header alone decides whether the data is
invalid, and a packet that is ready stays the same packet. -/
theorem nextPacket_append {buffer : Bytes} (more : Bytes)
    (h : (nextPacket buffer).1 ≠ .needMoreData) :
    nextPacket (buffer ++ more) =
      match nextPacket buffer with
      | (.packetReady packet, rest) => (.packetReady packet, rest ++ more)
      | verdict => verdict := by
  unfold nextPacket at h ⊢
  by_cases hshort : buffer.length < headerSize
  · rw [if_pos hshort] at h
    exact absurd rfl h
  rw [if_neg hshort] at h ⊢
  have hlonger : ¬(buffer ++ more).length < headerSize := by
    rw [List.length_append]
    omega
  rw [if_neg hlonger, readHeader_append (by omega)]
  dsimp only at h ⊢
  split
  · rfl
  rename_i hmagic
  rw [if_neg hmagic] at h
  split
  · rfl
  rename_i hversion
  rw [if_neg hversion] at h
  split
  · rfl
  rename_i hsize
  rw [if_neg hsize] at h
  by_cases hwait : buffer.length < headerSize + (readHeader buffer).payloadLength
  · rw [if_pos hwait] at h
    exact absurd rfl h
  rw [if_neg hwait, if_neg (by rw [List.length_append]; omega)]
  dsimp only
  rw [List.drop_append_of_le_length (by omega), List.drop_append_of_le_length (by omega),
    List.take_append_of_le_length (by rw [List.length_drop]; omega)]

/-- A packet that is ready was at least a header. -/
theorem nextPacket_shorter {buffer rest : Bytes} {packet : Packet}
    (h : nextPacket buffer = (.packetReady packet, rest)) : rest.length < buffer.length := by
  unfold nextPacket at h
  dsimp only at h
  split_ifs at h <;> simp at h
  obtain ⟨_, rfl⟩ := h
  rw [List.length_drop]
  have hpos : 0 < headerSize := by decide
  omega

theorem frontPacket_ready {buffer rest : Bytes} {packet : Packet} :
    frontPacket buffer = .ready packet rest ↔ nextPacket buffer = (.packetReady packet, rest) := by
  unfold frontPacket
  rcases nextPacket buffer with ⟨_ | _ | _, _⟩ <;> simp

/-- `PacketCodec` as a decoder of streams. -/
def framing : Framing UInt8 Packet where
  next := frontPacket
  nil := rfl
  shorter _ _ _ h := nextPacket_shorter (frontPacket_ready.mp h)
  ready_append buffer packet rest more h := by
    have hready := frontPacket_ready.mp h
    have happend := nextPacket_append more (by rw [hready]; simp)
    rw [hready] at happend
    exact frontPacket_ready.mpr happend
  invalid_append buffer more h := by
    unfold frontPacket at h ⊢
    cases hverdict : nextPacket buffer with
    | mk status rest =>
        rw [hverdict] at h
        cases status with
        | needMoreData => cases h
        | packetReady packet => cases h
        | invalidData errorMessage =>
            have happend := nextPacket_append more (by rw [hverdict]; simp)
            rw [hverdict] at happend
            rw [happend]

/-- What appending the chunks one after the other, and draining `nextPacket`
after each, yields up to the first invalid data. -/
def receive (chunks : List Bytes) : Framing.Received UInt8 Packet := framing.receive chunks

/-- A packet of the supported version whose payload is not too large. -/
def Packet.Sendable (packet : Packet) : Prop :=
  packet.version = currentVersion ∧ packet.payload.length ≤ maxPayloadSize

instance (packet : Packet) : Decidable packet.Sendable :=
  inferInstanceAs (Decidable (_ ∧ _))

/-- **Framing is lossless and does not depend on the chunks.** However the
encodings of packets are cut, exactly these packets are received, no data is
invalid and the buffer ends empty; and however any bytes are cut, the same
packets are received up to the first invalid data. -/
theorem receive_chunks :
    (∀ packets : List Packet, (∀ packet ∈ packets, packet.Sendable) →
      ∀ chunks : List Bytes, chunks.flatten = packets.flatMap encode →
        receive chunks = { packets, buffer := some [] }) ∧
    ∀ chunks chunks' : List Bytes, chunks.flatten = chunks'.flatten →
      receive chunks = receive chunks' := by
  constructor
  · intro packets hsendable chunks hchunks
    have hdrain : framing.drain (packets.flatMap encode) = (packets, some []) := by
      refine Framing.drain_flatMap fun packet hpacket more => frontPacket_ready.mpr ?_
      obtain ⟨hversion, hsize⟩ := hsendable packet hpacket
      exact nextPacket_encode hversion hsize more
    unfold receive
    rw [Framing.receive_eq, hchunks]
    unfold Framing.feed
    dsimp only
    rw [List.nil_append, List.nil_append, hdrain]
  · intro chunks chunks' hchunks
    unfold receive
    rw [Framing.receive_eq, Framing.receive_eq, hchunks]

/-- Two pings, cut inside the first header and inside the second payload. -/
theorem receive_twoPings :
    let pings : List Packet :=
      [{ messageType := 3, requestId := 1, payload := [49] }
      , { messageType := 3, requestId := 2, payload := [50, 51] }]
    receive [(pings.flatMap encode).take 7, ((pings.flatMap encode).drop 7).take 35,
      (pings.flatMap encode).drop 42] = { packets := pings, buffer := some [] } :=
  receive_chunks.1 _ (by decide) _ (by decide)

end XYChat.Protocol
