import SentinelRelay.Utf8

/-!
# Frames on the wire

`RelayServer._make_message` (lines 580-583 of `src/relay/relay_server.py`) writes a frame as
its type byte, the payload length as a 4-byte big-endian `!I`, and the payload.
`_handle_client` (lines 132-159) reads one back with `readexactly(5)`, looks the type byte up
in `MessageType` (a `ValueError` for an unknown byte), refuses a length above
`10 * 1024 * 1024` with `break`, and reads the payload with `readexactly(length)`; an end of
stream inside either read is an `IncompleteReadError`.  `readFrame` is one turn of that loop
on the bytes the client has sent, `decodeStream` the whole loop on a finished stream.

`decodeStream_makeMessages` is the round trip: a stream of frames of at most 10 MiB each
decodes to exactly those frames and then ends at a frame boundary.  `decodeStream_oversize`
is the cap: the first frame over 10 MiB stops the loop at its header, whatever follows.
-/

namespace SentinelRelay

/-- `MessageType`, the `IntEnum` of frame types. -/
inductive MessageType where
  | REGISTER | REGISTER_ACK | PEER_LIST | CONNECT | CONNECT_ACK | DATA | HEARTBEAT | DISCONNECT
  | ERROR | PUNCH_REQUEST | PUNCH_SYNC | EXTERNAL_ADDR
  deriving DecidableEq, Repr

/-- The value of each member of `MessageType`. -/
def MessageType.code : MessageType → UInt8
  | .REGISTER => 0x01
  | .REGISTER_ACK => 0x02
  | .PEER_LIST => 0x03
  | .CONNECT => 0x04
  | .CONNECT_ACK => 0x05
  | .DATA => 0x06
  | .HEARTBEAT => 0x07
  | .DISCONNECT => 0x08
  | .ERROR => 0xFF
  | .PUNCH_REQUEST => 0x10
  | .PUNCH_SYNC => 0x11
  | .EXTERNAL_ADDR => 0x12

/-- `MessageType(b)`: the member whose value is `b`, none where Python raises `ValueError`. -/
def MessageType.ofByte (b : UInt8) : Option MessageType :=
  match b.toNat with
  | 0x01 => some .REGISTER
  | 0x02 => some .REGISTER_ACK
  | 0x03 => some .PEER_LIST
  | 0x04 => some .CONNECT
  | 0x05 => some .CONNECT_ACK
  | 0x06 => some .DATA
  | 0x07 => some .HEARTBEAT
  | 0x08 => some .DISCONNECT
  | 0xFF => some .ERROR
  | 0x10 => some .PUNCH_REQUEST
  | 0x11 => some .PUNCH_SYNC
  | 0x12 => some .EXTERNAL_ADDR
  | _ => none

@[simp] theorem MessageType.ofByte_code (t : MessageType) : MessageType.ofByte t.code = some t := by
  cases t <;> rfl

/-- `_make_message(msg_type, payload)`. -/
def makeMessage (t : MessageType) (payload : Bytes) : Bytes :=
  t.code :: packI payload.length ++ payload

/-- The `10 * 1024 * 1024` of `_handle_client`'s sanity check. -/
def maxPayload : Nat := 10 * 1024 * 1024

/-- Why the read loop of `_handle_client` stops. -/
inductive Stop where
  /-- `readexactly(5)` meets the end of the stream at a frame boundary. -/
  | closed
  /-- The stream ends inside a header or a payload: `IncompleteReadError`. -/
  | truncated
  /-- `MessageType(header[0])` raises `ValueError`. -/
  | badType (b : UInt8)
  /-- `length > 10 * 1024 * 1024`: the warning and `break`, before the payload is read. -/
  | oversize (length : Nat)
  deriving DecidableEq, Repr

/-- One turn of the read loop on the bytes in front of it. -/
inductive ReadResult where
  /-- A whole frame, and the bytes after it. -/
  | frame (t : MessageType) (payload rest : Bytes)
  /-- The loop stops. -/
  | stop (s : Stop)
  deriving DecidableEq, Repr

/-- One turn of `_handle_client`'s read loop (lines 132-145) when the client sends nothing more
than `input`: the header, its type and its length are checked before the payload is read. -/
def readFrame (input : Bytes) : ReadResult :=
  match input with
  | b0 :: b1 :: b2 :: b3 :: b4 :: rest =>
    match MessageType.ofByte b0 with
    | none => .stop (.badType b0)
    | some t =>
      if beNat [b1, b2, b3, b4] > maxPayload then .stop (.oversize (beNat [b1, b2, b3, b4]))
      else if rest.length < beNat [b1, b2, b3, b4] then .stop .truncated
      else .frame t (rest.take (beNat [b1, b2, b3, b4])) (rest.drop (beNat [b1, b2, b3, b4]))
  | [] => .stop .closed
  | _ => .stop .truncated

theorem readFrame_rest_lt {input payload rest : Bytes} {t : MessageType}
    (h : readFrame input = .frame t payload rest) : rest.length < input.length := by
  unfold readFrame at h
  split at h
  · split at h
    · cases h
    · split_ifs at h
      cases h
      simp
      omega
  all_goals cases h

/-- The read loop of `_handle_client` on a finished stream: the frames it dispatches, in
order, and why it stops. -/
def decodeStream (input : Bytes) : List (MessageType × Bytes) × Stop :=
  match h : readFrame input with
  | .frame t payload rest =>
    have : rest.length < input.length := readFrame_rest_lt h
    ((t, payload) :: (decodeStream rest).1, (decodeStream rest).2)
  | .stop s => ([], s)
termination_by input.length

theorem decodeStream_of_frame {input payload rest : Bytes} {t : MessageType}
    (h : readFrame input = .frame t payload rest) :
    decodeStream input = ((t, payload) :: (decodeStream rest).1, (decodeStream rest).2) := by
  rw [decodeStream]
  split <;> simp_all

theorem decodeStream_of_stop {input : Bytes} {s : Stop} (h : readFrame input = .stop s) :
    decodeStream input = ([], s) := by
  rw [decodeStream]
  split <;> simp_all

theorem readFrame_header (t : MessageType) (hdr rest : Bytes) (h : hdr.length = 4) :
    readFrame (t.code :: hdr ++ rest) =
      if beNat hdr > maxPayload then .stop (.oversize (beNat hdr))
      else if rest.length < beNat hdr then .stop .truncated
      else .frame t (rest.take (beNat hdr)) (rest.drop (beNat hdr)) := by
  match hdr, h with
  | [_, _, _, _], _ => simp [readFrame]

/-- A header announcing `n < 2 ^ 32` bytes carries `n`. -/
theorem beNat_packI {n : Nat} (h : n < 2 ^ 32) : beNat (packI n) = n := by
  rw [packI, beNat_beBytes]; exact Nat.mod_eq_of_lt h

theorem readFrame_makeMessage (t : MessageType) (payload rest : Bytes)
    (h : payload.length ≤ maxPayload) :
    readFrame (makeMessage t payload ++ rest) = .frame t payload rest := by
  have hn : payload.length < 2 ^ 32 := by simp only [maxPayload] at h; omega
  rw [makeMessage, List.append_assoc, readFrame_header t _ _ (by simp [packI]), beNat_packI hn,
    if_neg (by omega), if_neg (by simp)]
  simp

/-- **Frame stream round trip.**  Whatever the frames, each of at most 10 MiB, the read loop
of `_handle_client` on the concatenation of their `_make_message` encodings dispatches exactly
those frames, in order, and then meets the end of the stream at a frame boundary. -/
theorem decodeStream_makeMessages (fs : List (MessageType × Bytes))
    (hfs : ∀ f ∈ fs, f.2.length ≤ maxPayload) :
    decodeStream (fs.flatMap fun f => makeMessage f.1 f.2) = (fs, .closed) := by
  induction fs with
  | nil => exact decodeStream_of_stop (by simp [readFrame])
  | cons f fs ih =>
    rw [List.flatMap_cons, decodeStream_of_frame (readFrame_makeMessage _ _ _ (hfs f (by simp))),
      ih fun g hg => hfs g (by simp [hg])]

/-- **The first frame over the cap ends the stream at its header.**  After frames of at most
10 MiB, a header announcing more than `10 * 1024 * 1024` bytes stops the loop with the warning,
before its payload is read: whatever bytes follow the header, the loop has dispatched exactly
the frames before it. -/
theorem decodeStream_oversize (pre : List (MessageType × Bytes))
    (hpre : ∀ f ∈ pre, f.2.length ≤ maxPayload) (t : MessageType) {n : Nat}
    (hn : maxPayload < n) (hn' : n < 2 ^ 32) (rest : Bytes) :
    decodeStream ((pre.flatMap fun f => makeMessage f.1 f.2) ++ ((t.code :: packI n) ++ rest)) =
      (pre, .oversize n) := by
  induction pre with
  | nil =>
    refine decodeStream_of_stop ?_
    rw [List.flatMap_nil, List.nil_append, readFrame_header t _ _ (by simp [packI]),
      beNat_packI hn', if_pos hn]
  | cons f fs ih =>
    rw [List.flatMap_cons, List.append_assoc,
      decodeStream_of_frame (readFrame_makeMessage _ _ _ (hpre f (by simp))),
      ih fun g hg => hpre g (by simp [hg])]

/-- **Frame stream round trip.**  The read loop of `_handle_client` on the concatenated
`_make_message` encodings of frames of at most 10 MiB dispatches exactly those frames, in
order, and meets the end of the stream at a frame boundary.  When frame `i` is the first past
10 MiB, it dispatches exactly the frames before it and stops at its header: the same happens
whatever follows the header, so the payload is never read. -/
theorem frame_stream_round_trip :
    (∀ fs : List (MessageType × Bytes), (∀ f ∈ fs, f.2.length ≤ maxPayload) →
      decodeStream (fs.flatMap fun f => makeMessage f.1 f.2) = (fs, .closed)) ∧
    (∀ (pre : List (MessageType × Bytes)) (t : MessageType) (p : Bytes)
        (post : List (MessageType × Bytes)),
      (∀ f ∈ pre, f.2.length ≤ maxPayload) → maxPayload < p.length → p.length < 2 ^ 32 →
      decodeStream ((pre ++ (t, p) :: post).flatMap fun f => makeMessage f.1 f.2) =
        (pre, .oversize p.length)) ∧
    (∀ (pre : List (MessageType × Bytes)) (t : MessageType) (n : Nat) (rest : Bytes),
      (∀ f ∈ pre, f.2.length ≤ maxPayload) → maxPayload < n → n < 2 ^ 32 →
      decodeStream ((pre.flatMap fun f => makeMessage f.1 f.2) ++ ((t.code :: packI n) ++ rest)) =
        (pre, .oversize n)) := by
  refine ⟨decodeStream_makeMessages, fun pre t p post hpre hn hn' => ?_,
    fun pre t n rest hpre hn hn' => decodeStream_oversize pre hpre t hn hn' rest⟩
  rw [List.flatMap_append, List.flatMap_cons, makeMessage, List.append_assoc]
  exact decodeStream_oversize pre hpre t hn hn' _

/-- A `HEARTBEAT` and a `DATA` frame decode back from their encodings. -/
theorem frame_stream_round_trip_two :
    decodeStream ([(MessageType.HEARTBEAT, []), (.DATA, [1, 2])].flatMap fun f => makeMessage f.1 f.2) =
      ([(.HEARTBEAT, []), (.DATA, [1, 2])], .closed) :=
  frame_stream_round_trip.1 _ (by decide)

end SentinelRelay
