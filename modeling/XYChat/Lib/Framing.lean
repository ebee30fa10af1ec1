import Mathlib.Data.List.Basic

/-!
# Packets cut out of a stream

A decoder looks at the front of a buffer: it wants more, finds a packet and what
follows it, or gives up. Where its verdict does not change when more arrives, the
packets of a stream are the same however the stream is cut into chunks.
-/

namespace XYChat.Lib

/-- What a decoder finds at the front of a buffer. -/
inductive Decoded (α β : Type) where
  | needMore
  | ready (packet : β) (rest : List α)
  | invalid

/-- A decoder whose verdicts are final, and whose packets are not empty. -/
structure Framing (α β : Type) where
  next : List α → Decoded α β
  nil : next [] = .needMore
  shorter : ∀ buffer packet rest, next buffer = .ready packet rest → rest.length < buffer.length
  ready_append : ∀ buffer packet rest more, next buffer = .ready packet rest →
    next (buffer ++ more) = .ready packet (rest ++ more)
  invalid_append : ∀ buffer more, next buffer = .invalid → next (buffer ++ more) = .invalid

namespace Framing

variable {α β : Type} (F : Framing α β)

/-- All packets of a buffer, and what is left of it; nothing is once the decoder
has given up. -/
def drain (buffer : List α) : List β × Option (List α) :=
  match h : F.next buffer with
  | .needMore => ([], some buffer)
  | .invalid => ([], none)
  | .ready packet rest =>
      have := F.shorter buffer packet rest h
      (packet :: (drain rest).1, (drain rest).2)
termination_by buffer.length

/-- What has been received of a stream: its packets, and the buffer while the
decoder has not given up. -/
structure Received (α β : Type) where
  packets : List β := []
  buffer : Option (List α) := some []
  deriving DecidableEq

/-- Append a chunk to the buffer and drain it. -/
def feed (r : Received α β) (chunk : List α) : Received α β :=
  match r.buffer with
  | none => r
  | some buffer =>
      let drained := F.drain (buffer ++ chunk)
      { packets := r.packets ++ drained.1, buffer := drained.2 }

/-- The stream chunk by chunk. -/
def receive (chunks : List (List α)) : Received α β := chunks.foldl F.feed {}

variable {F}

theorem drain_needMore {buffer : List α} (h : F.next buffer = .needMore) :
    F.drain buffer = ([], some buffer) := by
  rw [drain]
  split <;> simp_all

theorem drain_invalid {buffer : List α} (h : F.next buffer = .invalid) :
    F.drain buffer = ([], none) := by
  rw [drain]
  split <;> simp_all

theorem drain_ready {buffer rest : List α} {packet : β} (h : F.next buffer = .ready packet rest) :
    F.drain buffer = (packet :: (F.drain rest).1, (F.drain rest).2) := by
  rw [drain]
  split <;> simp_all

/-- **Draining in two goes.** What is left of the first part is drained together
with the second. -/
theorem drain_append (buffer more : List α) :
    F.drain (buffer ++ more) =
      match (F.drain buffer).2 with
      | none => F.drain buffer
      | some left => ((F.drain buffer).1 ++ (F.drain (left ++ more)).1,
        (F.drain (left ++ more)).2) := by
  induction buffer using drain.induct F with
  | case1 buffer hnext =>
      rw [drain_needMore hnext]
      rfl
  | case2 buffer hnext => rw [drain_invalid hnext, drain_invalid (F.invalid_append _ more hnext)]
  | case3 buffer packet rest hnext _ ih =>
      rw [drain_ready hnext, drain_ready (F.ready_append _ _ _ more hnext), ih]
      cases hleft : (F.drain rest).2 <;> simp [hleft]

/-- Feeding two chunks is feeding them joined. -/
theorem feed_feed (r : Received α β) (chunk chunk' : List α) :
    F.feed (F.feed r chunk) chunk' = F.feed r (chunk ++ chunk') := by
  unfold feed
  cases hbuffer : r.buffer with
  | none => simp [hbuffer]
  | some buffer =>
      dsimp only
      rw [← List.append_assoc, drain_append (buffer ++ chunk) chunk']
      cases hleft : (F.drain (buffer ++ chunk)).2 <;> simp [hleft]

/-- **Chunks do not matter.** A stream is received as if it came in one piece. -/
theorem receive_eq (chunks : List (List α)) : F.receive chunks = F.feed {} chunks.flatten := by
  have hfold : ∀ r chunk, List.foldl F.feed (F.feed r chunk) chunks =
      F.feed r (chunk ++ chunks.flatten) := by
    induction chunks with
    | nil =>
        intro r chunk
        rw [List.foldl_nil, List.flatten_nil, List.append_nil]
    | cons first rest ih =>
        intro r chunk
        rw [List.foldl_cons, feed_feed, ih, List.flatten_cons, List.append_assoc]
  have hstart : F.feed {} [] = ({} : Received α β) := by
    unfold feed
    simp [drain_needMore F.nil]
  have hrun := hfold {} []
  rwa [hstart, List.nil_append] at hrun

/-- A decoder that takes back what an encoder wrote drains a concatenation into
its packets. -/
theorem drain_flatMap {encode : β → List α} {packets : List β}
    (h : ∀ packet ∈ packets, ∀ more, F.next (encode packet ++ more) = .ready packet more) :
    F.drain (packets.flatMap encode) = (packets, some []) := by
  induction packets with
  | nil => exact drain_needMore F.nil
  | cons packet packets ih =>
      rw [List.flatMap_cons, drain_ready (h packet List.mem_cons_self _),
        ih fun p hp => h p (List.mem_cons_of_mem _ hp)]

end Framing

end XYChat.Lib
