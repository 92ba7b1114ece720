import SentinelRelay.Payload

/-!
# Peer records and the payloads the server writes

`PeerInfo` is the dataclass of lines 58-71 of `src/relay/relay_server.py`, one per registered
peer; its `writer` is the `StreamWriter` of the connection that registered it, named here by
the connection's number.  The rest of this file is the payloads the handlers build from
records, each as the source builds it, byte by byte:

* a `PEER_LIST` entry (`_handle_peer_list`, `_notify_session_peers`) prefixes each field with
  `len(field.encode())`, the byte count (`field`);
* a `CONNECT` or `CONNECT_ACK` descriptor (`_handle_connect_request`), a `DISCONNECT`
  (`_remove_peer`) and the IP of a `PUNCH_SYNC` (`_handle_punch_request`) prefix a string with
  `len(s)`, its count of characters (`charField`);
* a relayed `DATA` frame (`_handle_relay_data`) prefixes the sender's id with its byte count.

`readField_field` reads a byte-count field back under the protocol's grammar; a character
count differs from it as soon as a field holds a character outside ASCII
(`readField_charField_of_multibyte`).
-/

namespace SentinelRelay

/-- `nat_type`: `"unknown"` until the peer reports its external address. -/
inductive NatType where
  | unknown | symmetric | cone
  deriving DecidableEq, Repr

/-- A connection, by the number of the `accept` that opened it: the server's `StreamWriter`s
and handler tasks are named by it. -/
abbrev ConnId := Nat

/-- The host `writer.get_extra_info('peername')[0]` reports, or `'unknown'`: a numeric address,
ASCII and short. -/
structure Host where
  /-- The host string. -/
  ip : ShortStr
  /-- Every character is ASCII. -/
  ascii : ∀ c ∈ ip.val.data, c.toNat < 0x80
  deriving DecidableEq

/-- `PeerInfo`, one per registered peer.  Times are wall-clock milliseconds. -/
structure PeerInfo where
  peer_id : ShortStr
  session_code : ShortStr
  writer : ConnId
  public_ip : Host
  public_port : UInt16
  private_ip : ShortStr
  private_port : UInt16
  connected_at : Nat
  last_heartbeat : Nat
  nat_type : NatType
  relayed_bytes : Nat
  deriving DecidableEq

/-- A frame the server writes: the arguments of one `_make_message` call. -/
structure Frame where
  type : MessageType
  payload : Bytes
  deriving DecidableEq, Repr

/-- The bytes of a frame on the wire. -/
def Frame.bytes (f : Frame) : Bytes := makeMessage f.type f.payload

/-! ## Payloads -/

/-- A string behind its character count: `bytes([len(s)]) + s.encode()`, or the same with
`bytearray`. -/
def charField (s : ShortStr) : Bytes := s.len.toUInt8 :: s.bytes

/-- One `PEER_LIST` entry: `peer_id_len | peer_id | ip_len | ip | port`, lengths in bytes. -/
def peerEntry (peer_id : ShortStr) (ip : Host) (port : UInt16) : Bytes :=
  field peer_id ++ field ip.ip ++ packH port

/-- The payload `_handle_peer_list` builds: the count byte, then one entry per peer; the
count raises `ValueError` past 255 peers. -/
def peerListPayload (peers : List PeerInfo) : Except PyError Bytes := do
  let count ← byteOf peers.length
  pure (count :: peers.flatMap fun p => peerEntry p.peer_id p.public_ip p.public_port)

/-- The payload `_notify_session_peers` sends about a new peer: count 1 and its entry. -/
def notifyPayload (new_peer_id : ShortStr) (new_peer : PeerInfo) : Bytes :=
  1 :: peerEntry new_peer_id new_peer.public_ip new_peer.public_port

/-- The payload of `_remove_peer`'s `DISCONNECT`: `bytes([len(peer_id)]) + peer_id.encode()`. -/
def disconnectPayload (peer_id : ShortStr) : Bytes := charField peer_id

/-- The endpoint descriptor `_handle_connect_request` builds about `peer` under the id `id`:
the id, the public endpoint, and the private one when `peer.private_ip` is not empty. -/
def connectPayload (id : ShortStr) (peer : PeerInfo) : Bytes :=
  charField id ++ charField peer.public_ip.ip ++ packH peer.public_port ++
    if peer.private_ip ≠ .empty then charField peer.private_ip ++ packH peer.private_port else []

/-- A `PUNCH_SYNC` payload: the packed `struct.pack('!Q', punch_time)`, then the IP behind its
character count and the port. -/
def punchPayload (time : Bytes) (ip : Host) (port : UInt16) : Bytes :=
  time ++ charField ip.ip ++ packH port

/-- The payload of a relayed `DATA` frame: the sender's id behind its byte count, then the
data. -/
def relayPayload (from_peer_id : ShortStr) (data : Bytes) : Bytes := field from_peer_id ++ data

/-! ## Reading a field back under the grammar -/

/-- A field of the protocol's grammar: a length byte, then that many bytes. -/
def readField : Bytes → Option (Bytes × Bytes)
  | n :: rest => if n.toNat ≤ rest.length then some (rest.take n.toNat, rest.drop n.toNat) else none
  | [] => none

/-- A byte-count field reads back as the string's bytes, and leaves what follows. -/
theorem readField_field (s : ShortStr) (rest : Bytes) :
    readField (field s ++ rest) = some (s.bytes, rest) := by
  simp [readField, field]

/-- For an ASCII string the character count is the byte count. -/
theorem charField_eq_field {s : ShortStr} (h : ∀ c ∈ s.val.data, c.toNat < 0x80) :
    charField s = field s := by
  have : s.len = s.bytes.length := by
    obtain ⟨⟨cs⟩, hs⟩ := s
    simp only [ShortStr.len, ShortStr.bytes, utf8Encode, String.length] at h ⊢
    clear hs
    induction cs with
    | nil => rfl
    | cons c cs ih =>
      simp only [List.mem_cons, forall_eq_or_imp] at h
      simp [encodeChar, h.1, ih h.2, Nat.add_comm]
  simp [charField, field, this]

/-- **A character count is not a byte count**: for a string with a character outside ASCII,
the grammar does not read its character-count field back as the string's bytes. -/
theorem readField_charField_of_multibyte {s : ShortStr} (h : s.len < s.bytes.length)
    (rest r : Bytes) : readField (charField s ++ rest) ≠ some (s.bytes, r) := by
  intro hr
  have hl : s.len.toUInt8.toNat = s.len := toNat_toUInt8_of_lt s.len_lt
  simp only [charField, List.cons_append, readField, hl] at hr
  split_ifs at hr
  simp only [Option.some.injEq, Prod.mk.injEq] at hr
  have := congrArg List.length hr.1
  simp at this
  omega

/-- The peer id `é`: one character, two bytes. -/
def eAcute : ShortStr := ⟨"é", by decide⟩

example : disconnectPayload eAcute = [0x01, 0xC3, 0xA9] ∧
    readField (disconnectPayload eAcute) = some ([0xC3], [0xA9]) := by
  decide

end SentinelRelay
