import SentinelRelay.Statistics

/-!
# The size of every frame the relay writes

`_make_message` (lines 580-583 of `src/relay/relay_server.py`) packs a payload's length with
`struct.pack('!I', len(payload))`, which raises `struct.error` from `2 ^ 32` bytes on; the read
loop of `_handle_client` refuses a header past `10 * 1024 * 1024` bytes (`maxPayload`).

Every payload the server builds is bounded.  The entries of a `PEER_LIST`, the descriptors of
`CONNECT` and `PUNCH_SYNC` and the id of a `DISCONNECT` are made of fields of at most 255 bytes;
an `ERROR` carries a fixed text or `str(e)` of an exception the parsers raise on a field of at
most 255 bytes (`PyError.Brief`); a relayed `DATA` frame is the frame read with the sender's id,
at most 255 bytes, in place of the target's.  So, in every reachable state (`Server.Fitting`,
`Reachable.fitting`):

* each frame written to a connection is within the cap, but a relayed `DATA` frame, which is
  within the cap and 255 bytes; none reaches `2 ^ 32` bytes, so `_make_message` never raises
  (`written_frames_within_cap`);
* the peer of a connection, reading what was written to it with the relay's own read loop,
  gets the frames written, in order, up to the first one over the cap, where its loop stops
  (`peer_reads_written_frames`).
-/

namespace SentinelRelay

/-! ## The payloads the server builds -/

theorem length_flatMap_le {α β : Type} (l : List α) (f : α → List β) {k : Nat}
    (h : ∀ a ∈ l, (f a).length ≤ k) : (l.flatMap f).length ≤ l.length * k := by
  induction l with
  | nil => simp
  | cons a l ih =>
    have h₁ := h a (List.mem_cons_self a l)
    have h₂ := ih fun b hb => h b (List.mem_cons_of_mem a hb)
    simp only [List.flatMap_cons, List.length_append, List.length_cons, Nat.succ_mul]
    omega

theorem length_charField (s : ShortStr) : (charField s).length = s.bytes.length + 1 := rfl

theorem length_peerEntry_le (peer_id : ShortStr) (ip : Host) (port : UInt16) :
    (peerEntry peer_id ip port).length ≤ 514 := by
  have := peer_id.length_bytes_lt
  have := ip.ip.length_bytes_lt
  simp only [peerEntry, List.length_append, length_field, length_packH]
  omega

theorem length_connectPayload_le (id : ShortStr) (peer : PeerInfo) :
    (connectPayload id peer).length ≤ 772 := by
  have := id.length_bytes_lt
  have := peer.public_ip.ip.length_bytes_lt
  have := peer.private_ip.length_bytes_lt
  unfold connectPayload
  split_ifs <;> simp only [List.length_append, length_charField, length_packH, List.length_nil] <;>
    omega

theorem length_punchPayload_le (time : Bytes) (ip : Host) (port : UInt16) :
    (punchPayload time ip port).length ≤ time.length + 258 := by
  have := ip.ip.length_bytes_lt
  simp only [punchPayload, List.length_append, length_charField, length_packH]
  omega

/-- A `PEER_LIST` has at most 255 entries. -/
theorem length_peerListPayload_le {peers : List PeerInfo} {payload : Bytes}
    (h : peerListPayload peers = .ok payload) : payload.length ≤ 1 + 255 * 514 := by
  unfold peerListPayload byteOf at h
  split_ifs at h with hlt
  · simp only [ok_bind] at h
    cases h
    have := length_flatMap_le peers _ fun p _ => length_peerEntry_le p.peer_id p.public_ip p.public_port
    simp only [List.length_cons]
    omega
  · cases h

theorem length_of_packQ {n : Nat} {time : Bytes} (h : packQ n = .ok time) : time.length = 8 := by
  unfold packQ at h
  split_ifs at h
  cases h
  exact length_beBytes 8 n

/-- The bytes a `DATA` frame carries after its target's id are fewer than the frame's. -/
theorem length_data_of_parseTarget {payload data : Bytes} {target_id : ShortStr}
    (h : parseTarget payload = .ok (target_id, data)) : data.length + 1 ≤ payload.length := by
  unfold parseTarget at h
  cases hb : getByte payload 0 with
  | error e => rw [hb] at h; cases h
  | ok b =>
    rw [hb, ok_bind] at h
    cases hf : decodeField payload 1 b with
    | error e => rw [hf] at h; cases h
    | ok s =>
      rw [hf, ok_bind] at h
      cases h
      obtain ⟨hlt, -⟩ := List.getElem?_eq_some_iff.1 (getByte_eq_ok.1 hb)
      simp only [List.length_drop]
      omega

/-- What the read loop consumed for a frame: a type byte, a four-byte length within the cap,
and as many payload bytes as it announced. -/
theorem readFrame_eq_frame {input payload rest : Bytes} {t : MessageType}
    (h : readFrame input = .frame t payload rest) :
    ∃ b0 hdr tail, input = b0 :: hdr ++ tail ∧ hdr.length = 4 ∧ MessageType.ofByte b0 = some t ∧
      beNat hdr ≤ maxPayload ∧ beNat hdr ≤ tail.length ∧
      payload = tail.take (beNat hdr) ∧ rest = tail.drop (beNat hdr) := by
  unfold readFrame at h
  split at h
  · split at h
    · cases h
    · split_ifs at h with h₁ h₂
      cases h
      exact ⟨_, [_, _, _, _], _, rfl, rfl, by assumption, by omega, by omega, rfl, rfl⟩
  all_goals cases h

/-- A frame of the read loop is within the cap. -/
theorem length_payload_of_readFrame {input payload rest : Bytes} {t : MessageType}
    (h : readFrame input = .frame t payload rest) : payload.length ≤ maxPayload := by
  obtain ⟨_, hdr, tail, -, -, -, hle, -, rfl, -⟩ := readFrame_eq_frame h
  exact (List.length_take_le _ _).trans hle

/-! ## The exceptions the parsers raise -/

/-- `str(e)` is short: at most 100 characters. -/
def PyError.Brief (e : PyError) : Prop := e.str.length ≤ 100

/-- Every exception the computation `x` can raise is brief. -/
def BriefErrors {α : Type} (x : Except PyError α) : Prop := ∀ e, x = .error e → e.Brief

section Brief

variable {α β : Type}

theorem BriefErrors.pure (a : α) : BriefErrors (pure a : Except PyError α) :=
  fun _ h => by cases h

theorem BriefErrors.bind {x : Except PyError α} {f : α → Except PyError β} (hx : BriefErrors x)
    (hf : ∀ a, BriefErrors (f a)) : BriefErrors (x >>= f) := by
  intro e h
  cases x with
  | error e' => cases h; exact hx _ rfl
  | ok a => exact hf a e h

theorem map_eq_error {ε : Type} {f : α → β} {x : Except ε α} {e : ε} :
    f <$> x = .error e ↔ x = .error e := by
  cases x <;> simp [Functor.map, Except.map]

theorem length_utf8Encode_le (s : String) : (utf8Encode s).length ≤ 4 * s.length := by
  obtain ⟨cs⟩ := s
  have := length_flatMap_le cs encodeChar fun c _ => length_encodeChar_le c
  simp only [utf8Encode, String.length]
  omega

/-- A short text is within the cap once encoded. -/
theorem length_utf8Encode_short {s : String} (h : s.length ≤ 100) :
    (utf8Encode s).length ≤ maxPayload :=
  (length_utf8Encode_le s).trans (by unfold maxPayload; omega)

/-- **The exceptions of the decoder** name a range of the bytes it read, for a short reason. -/
theorem decodeFrom_error {b : Bytes} : ∀ {st : Option Partial} {pos : Nat} {e : PyError},
    (∀ p, st = some p → p.start + p.conts.length + 1 = pos) → decodeFrom st b pos = .error e →
    ∃ lead start stop reason, e = .unicodeDecodeError lead start stop reason ∧ start < stop ∧
      stop ≤ pos + b.length ∧ reason.length ≤ 25 := by
  induction b with
  | nil =>
    intro st pos e hst h
    cases st with
    | none => cases h
    | some p =>
      cases h
      exact ⟨_, _, _, _, rfl, by omega, by simp [hst p rfl], by decide⟩
  | cons x rest ih =>
    intro st pos e hst h
    -- the decoder reads on from `pos + 1`, or stops here
    have next : ∀ {st' : Option Partial}, (∀ p, st' = some p → p.start + p.conts.length + 1 = pos + 1) →
        decodeFrom st' rest (pos + 1) = .error e →
        ∃ lead start stop reason, e = .unicodeDecodeError lead start stop reason ∧ start < stop ∧
          stop ≤ pos + (x :: rest).length ∧ reason.length ≤ 25 := by
      intro st' hst' h'
      obtain ⟨l, a, z, r, he, h₁, h₂, h₃⟩ := ih hst' h'
      exact ⟨l, a, z, r, he, h₁, by simp only [List.length_cons]; omega, h₃⟩
    cases st with
    | none =>
      simp only [decodeFrom] at h
      split_ifs at h
      · exact next (fun _ hp => by cases hp) (map_eq_error.1 h)
      · cases h; exact ⟨x, pos, pos + 1, _, rfl, by omega, by simp, by decide⟩
      · exact next (fun p hp => by cases hp; simp) h
    | some p =>
      have hp := hst p rfl
      simp only [decodeFrom] at h
      by_cases hc : (if p.conts = [] then secondOk p.lead x else cont x) = true
      · rw [if_pos hc] at h
        split_ifs at h
        · exact next (fun _ hq => by cases hq) (map_eq_error.1 h)
        · exact next (fun q hq => by
            cases hq; simp only [List.length_append, List.length_singleton]; omega) h
      · rw [if_neg hc] at h
        cases h; exact ⟨_, _, _, _, rfl, by omega, by simp only [List.length_cons]; omega, by decide⟩

theorem utf8Decode_error {b : Bytes} {e : PyError} (h : utf8Decode b = .error e) :
    ∃ lead start stop reason, e = .unicodeDecodeError lead start stop reason ∧ start < stop ∧
      stop ≤ b.length ∧ reason.length ≤ 25 := by
  obtain ⟨l, a, z, r, he, h₁, h₂, h₃⟩ := decodeFrom_error (fun _ hp => by cases hp) (map_eq_error.1 h)
  exact ⟨l, a, z, r, he, h₁, by simpa using h₂, h₃⟩

/-- `str(e)` of a `UnicodeDecodeError` on at most 255 bytes has at most 80 characters. -/
theorem brief_unicodeDecodeError {lead : UInt8} {start stop : Nat} {reason : String}
    (hs : start < stop) (hstop : stop ≤ 255) (hr : reason.length ≤ 25) :
    (PyError.unicodeDecodeError lead start stop reason).Brief := by
  have h₁ : (toString start).length ≤ 3 := Nat.repr_length start 3 (by decide) (by omega)
  have h₂ : (toString (stop - 1)).length ≤ 3 := Nat.repr_length _ 3 (by decide) (by omega)
  have h₃ : (hex2 lead).length = 2 := rfl
  have l₁ : "\x27utf-8\x27 codec can\x27t decode byte 0x".length = 34 := rfl
  have l₂ : " in position ".length = 13 := rfl
  have l₃ : ": ".length = 2 := rfl
  have l₄ : "\x27utf-8\x27 codec can\x27t decode bytes in position ".length = 45 := rfl
  have l₅ : "-".length = 1 := rfl
  unfold PyError.Brief
  simp only [PyError.str]
  split_ifs <;> simp only [String.length_append] <;> omega

theorem briefErrors_getByte (p : Bytes) (i : Nat) : BriefErrors (getByte p i) := by
  intro e h
  unfold getByte at h
  split at h
  · cases h
  · cases h; unfold PyError.Brief; decide

theorem briefErrors_decodeField (p : Bytes) (a : Nat) (n : UInt8) :
    BriefErrors (decodeField p a n) := by
  intro e h
  unfold decodeField ShortStr.decode at h
  split at h
  · cases h
  · rename_i e' he
    cases h
    obtain ⟨lead, start, stop, reason, rfl, hs, hstop, hr⟩ := utf8Decode_error he
    exact brief_unicodeDecodeError hs (Nat.le_of_lt_succ (Nat.lt_of_le_of_lt hstop (by
      have : n.toNat < 256 := n.toNat_lt_size
      have := length_slice_le p a (a + n.toNat)
      omega))) hr

theorem briefErrors_unpackH (b : Bytes) : BriefErrors (unpackH b) := by
  intro e h
  unfold unpackH at h
  split_ifs at h
  cases h
  unfold PyError.Brief; decide

theorem briefErrors_packQ (n : Nat) : BriefErrors (packQ n) := by
  intro e h
  unfold packQ at h
  split_ifs at h
  cases h
  unfold PyError.Brief; decide

theorem briefErrors_parseRegister (payload : Bytes) : BriefErrors (parseRegister payload) := by
  unfold parseRegister
  refine (briefErrors_getByte _ _).bind fun _ => (briefErrors_decodeField _ _ _).bind fun _ =>
    (briefErrors_getByte _ _).bind fun _ => (briefErrors_decodeField _ _ _).bind fun _ => ?_
  dsimp only
  split
  · refine (briefErrors_getByte _ _).bind fun _ => (briefErrors_decodeField _ _ _).bind fun _ => ?_
    dsimp only
    split
    · exact (briefErrors_unpackH _).bind fun _ => .pure _
    · exact .pure _
  · exact .pure _

theorem briefErrors_parseTarget (payload : Bytes) : BriefErrors (parseTarget payload) :=
  (briefErrors_getByte _ _).bind fun _ => (briefErrors_decodeField _ _ _).bind fun _ => .pure _

/-- The `ERROR` reply to a brief exception is within the cap. -/
theorem length_error_payload {x : Except PyError α} {e : PyError} (hx : BriefErrors x)
    (he : x = .error e) : (utf8Encode e.str).length ≤ maxPayload :=
  length_utf8Encode_short (hx e he)

end Brief

section Replies

variable {r : Registry} {a t : ShortStr} {msg : Bytes}

theorem length_connectPeers_error (h : r.connectPeers a t = .error msg) : msg.length ≤ maxPayload := by
  unfold Registry.connectPeers at h
  split at h
  · cases h; exact length_utf8Encode_short (by decide)
  · split at h
    · cases h; exact length_utf8Encode_short (by decide)
    · split_ifs at h
      cases h; exact length_utf8Encode_short (by decide)

theorem length_punchPeers_error (h : r.punchPeers a t = .error msg) : msg.length ≤ maxPayload := by
  unfold Registry.punchPeers at h
  split at h
  · cases h; exact length_utf8Encode_short (by decide)
  · split at h
    · cases h; exact length_utf8Encode_short (by decide)
    · cases h

theorem length_peerList {f : Frame} (h : r.peerList a = .ok f) : f.payload.length ≤ maxPayload := by
  unfold Registry.peerList at h
  split at h
  · cases h; exact length_utf8Encode_short (by decide)
  · obtain ⟨payload, hp, rfl⟩ := map_eq_ok.1 h
    exact (length_peerListPayload_le hp).trans (by decide)

theorem mem_notifyWrites {info : PeerInfo} {w : ConnId × Frame} (hw : w ∈ r.notifyWrites info) :
    w.2 = ⟨.PEER_LIST, notifyPayload info.peer_id info⟩ := by
  obtain ⟨pid, -, hw⟩ := List.mem_filterMap.1 hw
  split_ifs at hw
  obtain ⟨o, -, rfl⟩ := Option.map_eq_some'.1 hw
  rfl

end Replies

/-! ## Every frame fits -/

/-- What a frame written to a connection can carry: at most the cap, or, for a relayed `DATA`
frame, the cap and the 255 bytes of the sender's id. -/
structure Sent.Fits (x : Sent) : Prop where
  within : x.frame.payload.length ≤ maxPayload + 255
  own : x.relayOf = none → x.frame.payload.length ≤ maxPayload

/-- The frames a handler keeps to write after its drain are within the cap. -/
def Phase.Fits : Phase → Prop
  | .introducing ack => ack.length ≤ maxPayload
  | .replying f => f.payload.length ≤ maxPayload
  | _ => True

/-- Every frame written, and every frame a handler keeps to write, fits. -/
structure Server.Fitting (s : Server) : Prop where
  out : ∀ t tc, s.conns t = some tc → ∀ x ∈ tc.out, x.Fits
  phases : ∀ c conn, s.conns c = some conn → conn.phase.Fits

theorem Sent.fits_plain {f : Frame} (h : f.payload.length ≤ maxPayload) : (⟨f, none⟩ : Sent).Fits :=
  ⟨Nat.le_add_right_of_le h, fun _ => h⟩

/-- A relayed frame is the frame read with the sender's id in place of the target's. -/
theorem Sent.fits_relay {payload data : Bytes} {target_id from_peer_id : ShortStr}
    (hp : payload.length ≤ maxPayload) (h : parseTarget payload = .ok (target_id, data))
    (src : ConnId × Nat) : (⟨⟨.DATA, relayPayload from_peer_id data⟩, some src⟩ : Sent).Fits := by
  have := length_data_of_parseTarget h
  have := from_peer_id.length_bytes_lt
  refine ⟨?_, fun hn => by cases hn⟩
  simp only [relayPayload, List.length_append, length_field]
  omega

namespace Server

namespace Fitting

variable {s s' : Server} {c d : ConnId} {conn : Conn} {x : Sent}

theorem of_conns (h : s.Fitting) (hc : s'.conns = s.conns) : s'.Fitting :=
  ⟨fun t tc ht => h.out t tc (hc ▸ ht), fun c cn hc' => h.phases c cn (hc ▸ hc')⟩

theorem setConn (h : s.Fitting) (hout : ∀ x ∈ conn.out, x.Fits) (hp : conn.phase.Fits) :
    (s.setConn c conn).Fitting where
  out t tc ht := by
    rw [conns_setConn] at ht
    split_ifs at ht
    · cases ht; exact hout
    · exact h.out t tc ht
  phases d cn hd := by
    rw [conns_setConn] at hd
    split_ifs at hd
    · cases hd; exact hp
    · exact h.phases d cn hd

theorem write (h : s.Fitting) (hx : x.Fits) : (s.write d x).Fitting where
  out t tc ht := by
    rw [conns_write] at ht
    split_ifs at ht
    · obtain ⟨tc₀, ht₀, rfl⟩ := Option.map_eq_some'.1 ht
      intro y hy
      rw [Conn.out_write] at hy
      split_ifs at hy
      · exact h.out d tc₀ ht₀ y hy
      · rcases List.mem_append.1 hy with hy | hy
        · exact h.out d tc₀ ht₀ y hy
        · rw [List.mem_singleton.1 hy]; exact hx
    · exact h.out t tc ht
  phases c cn hc := by
    rw [conns_write] at hc
    split_ifs at hc
    · obtain ⟨cn₀, hc₀, rfl⟩ := Option.map_eq_some'.1 hc
      rw [Conn.phase_write]; exact h.phases d cn₀ hc₀
    · exact h.phases c cn hc

theorem writeAll (h : s.Fitting) {ws : List (ConnId × Frame)}
    (hws : ∀ w ∈ ws, w.2.payload.length ≤ maxPayload) : (s.writeAll ws).Fitting := by
  induction ws generalizing s with
  | nil => exact h
  | cons w ws ih =>
    exact ih (h.write (Sent.fits_plain (hws w (List.mem_cons_self w ws))))
      fun v hv => hws v (List.mem_cons_of_mem w hv)

theorem removePeer (h : s.Fitting) (p : ShortStr) : (s.removePeer p).Fitting :=
  writeAll (s := s.setRegistry (s.registry.removePeer p).1) (h.of_conns rfl) fun w hw => by
    rw [mem_removePeer_writes hw]
    have := p.length_bytes_lt
    show (charField p).length ≤ maxPayload
    rw [length_charField]; unfold maxPayload; omega

theorem closeStep (h : s.Fitting) : (s.closeStep c conn).Fitting := by
  have hclose : ∀ {s : Server}, s.Fitting → (s.closeWriter c).Fitting := by
    intro s h
    unfold Server.closeWriter; split
    · rename_i cn hc; exact h.setConn (h.out c cn hc) trivial
    · exact h
  unfold Server.closeStep; split
  · exact hclose (h.removePeer _)
  · exact hclose h

theorem accept (h : s.Fitting) (peername : Option (Host × UInt16)) : (s.accept peername).Fitting where
  out t tc ht := by
    rw [conns_accept] at ht
    split_ifs at ht
    · cases ht; exact fun _ hx => by cases hx
    · exact h.out t tc ht
  phases d cn hd := by
    rw [conns_accept] at hd
    split_ifs at hd
    · cases hd; trivial
    · exact h.phases d cn hd

theorem with_registry (h : s.Fitting) (r : Registry) : { s with registry := r }.Fitting :=
  h.of_conns rfl

theorem with_stats (h : s.Fitting) (st : Stats) : { s with stats := st }.Fitting :=
  h.of_conns rfl

/-- Whatever `_handle_message` writes or keeps to write fits: the replies and descriptors are
short, an `ERROR` names a brief exception, and a relayed frame carries the data of a frame of
the read loop. -/
theorem handleMessage {t : MessageType} {payload : Bytes} {idx : Nat} (h : s.Fitting)
    (hout : ∀ x ∈ conn.out, x.Fits) (hr : conn.phase = .reading) (hp : payload.length ≤ maxPayload) :
    (s.handleMessage c conn t payload idx).Fitting := by
  have setF : ∀ {k : Conn}, k.out = conn.out → k.phase.Fits → (s.setConn c k).Fitting :=
    fun hk hph => h.setConn (hk ▸ hout) hph
  have replyF : ∀ {k : Conn} {f : Frame}, k.out = conn.out → k.phase.Fits →
      f.payload.length ≤ maxPayload → (s.reply c k f).Fitting :=
    fun hk hph hf => (setF hk hph).write (Sent.fits_plain hf)
  have hread : conn.phase.Fits := by rw [hr]; trivial
  have hconnect : ∀ (id : ShortStr) (peer : PeerInfo), (connectPayload id peer).length ≤ maxPayload :=
    fun id peer => (length_connectPayload_le id peer).trans (by decide)
  unfold Server.handleMessage
  split
  · unfold Server.handleRegister; split
    · exact replyF (by rfl) (by exact hread)
        (length_error_payload (briefErrors_parseRegister payload) ‹_›)
    · exact (setF (by rfl) (by trivial)).of_conns rfl
  · unfold Server.handlePeerList; split
    · exact replyF rfl hread (length_peerList ‹_›)
    · exact setF (by rfl) (by trivial)
  · unfold Server.handleRelayData; split
    · exact setF rfl hread
    · split
      · exact setF rfl hread
      · exact (setF (by rfl) (by trivial)).write (Sent.fits_relay hp ‹_› _)
  · exact ((setF rfl hread).with_registry _).write (Sent.fits_plain (by decide))
  · unfold Server.handleConnectRequest; split
    · exact replyF rfl hread (length_error_payload (briefErrors_parseTarget payload) ‹_›)
    · split
      · exact replyF rfl hread (length_connectPeers_error ‹_›)
      · exact (setF (by rfl) (by exact hconnect _ _)).write (Sent.fits_plain (by exact hconnect _ _))
  · unfold Server.handlePunchRequest; split
    · exact replyF rfl hread (length_error_payload (briefErrors_parseTarget payload) ‹_›)
    · split
      · exact replyF rfl hread (length_punchPeers_error ‹_›)
      · split
        · exact replyF rfl hread (length_error_payload (briefErrors_packQ _) ‹_›)
        · rename_i time htime
          have hpunch : ∀ (ip : Host) (port : UInt16),
              (punchPayload time ip port).length ≤ maxPayload := fun ip port =>
            (length_punchPayload_le time ip port).trans (by rw [length_of_packQ htime]; decide)
          exact (setF (by rfl) (by exact hpunch _ _)).write (Sent.fits_plain (by exact hpunch _ _))
  · unfold Server.updateExternalAddr; split
    · exact setF rfl hread
    · exact (setF rfl hread).with_registry _
  · exact setF rfl hread

theorem handlerStep (h : s.Fitting) (hs : s.handlerStep c = some s') : s'.Fitting := by
  unfold Server.handlerStep at hs
  split at hs
  · cases hs
  · rename_i conn hc
    have hout := h.out c conn hc
    have hph := h.phases c conn hc
    have setF : ∀ {k : Conn}, k.out = conn.out → k.phase.Fits → (s.setConn c k).Fitting :=
      fun hk hp => h.setConn (hk ▸ hout) hp
    split at hs
    · rename_i hr
      unfold Server.readStep at hs
      split at hs
      · rename_i t payload rest hfr
        cases hs
        exact h.handleMessage hout hr (length_payload_of_readFrame hfr)
      all_goals first
        | (split_ifs at hs; cases hs; exact setF (by rfl) (by trivial))
        | (cases hs; exact setF (by rfl) (by trivial))
    · cases hs
      refine ((setF (by rfl) (by trivial)).writeAll fun w hw => ?_).write
        (Sent.fits_plain (by decide))
      rw [mem_notifyWrites hw]
      exact (Nat.succ_le_of_lt (Nat.lt_succ_of_le (length_peerEntry_le _ _ _))).trans (by decide)
    · split at hs
      · split at hs
        · cases hs; exact setF (by rfl) (by trivial)
        · cases hs; exact (setF (by rfl) (by trivial)).with_stats _
      · cases hs; exact setF (by rfl) (by trivial)
    · cases hs; exact (setF (by rfl) (by trivial)).with_registry _
    · rename_i ack hack
      cases hs
      rw [hack] at hph
      exact ((setF (by rfl) (by trivial)).with_stats _).write (Sent.fits_plain (by exact hph))
    · rename_i f hf
      cases hs
      rw [hf] at hph
      exact (setF (by rfl) (by trivial)).write (Sent.fits_plain (by exact hph))
    · cases hs; exact h.closeStep
    · cases hs

theorem step (h : s.Fitting) {e : Event} (hs : s.step e = some s') : s'.Fitting := by
  rcases step_cases hs with ⟨peername, -, rfl⟩ | ⟨c, conn, _, _, _, hc, rfl, -⟩ | ⟨_, -, rfl⟩ |
    ⟨c, -, hs⟩ | ⟨-, rfl⟩
  · exact h.accept peername
  · exact h.setConn (h.out c conn hc) (h.phases c conn hc)
  · exact h.of_conns rfl
  · exact h.handlerStep hs
  · rcases janitorStep_cases s with ⟨j, hj⟩ | ⟨p, j, hj⟩ <;> rw [hj]
    · exact h.of_conns rfl
    · exact (h.removePeer p).of_conns rfl

end Fitting

end Server

/-- Every frame of a reachable state fits. -/
theorem Reachable.fitting {s : Server} (hs : Reachable s) : s.Fitting := by
  induction hs with
  | init => exact ⟨fun _ _ h => (by cases h), fun _ _ h => (by cases h)⟩
  | step e _ h ih => exact ih.step h

/-! ## The theorems -/

/-- **Every frame written is within the cap, but a relayed one.**  In every reachable state,
whatever the interleaving, each frame written to a connection carries at most `10 * 1024 * 1024`
bytes and 255 more, and at most `10 * 1024 * 1024` unless it relays a `DATA` frame read on
another connection.  No payload reaches `2 ^ 32` bytes, so `struct.pack('!I', len(payload))` in
`_make_message` never raises. -/
theorem written_frames_within_cap {s : Server} (hs : Reachable s) {t : ConnId} {tc : Conn}
    (ht : s.conns t = some tc) {x : Sent} (hx : x ∈ tc.out) :
    x.frame.payload.length ≤ maxPayload + 255 ∧
      (x.relayOf = none → x.frame.payload.length ≤ maxPayload) ∧
      x.frame.payload.length < 2 ^ 32 := by
  obtain ⟨h₁, h₂⟩ := hs.fitting.out t tc ht x hx
  exact ⟨h₁, h₂, by unfold maxPayload at h₁; omega⟩

/-- The `REGISTER_ACK` written to connection 0 after `pairRun` is within the cap. -/
theorem written_frames_within_cap_ack :
    (utf8Encode "OK").length ≤ maxPayload + 255 ∧ (utf8Encode "OK").length < 2 ^ 32 :=
  let h := written_frames_within_cap reachable_pairState
    (show pairState.conns 0 = some pairSender by decide)
    (x := ⟨⟨.REGISTER_ACK, utf8Encode "OK"⟩, none⟩) (by decide)
  ⟨h.1, h.2.2⟩

/-- **What a peer reads from the relay.**  In every reachable state, the relay's own read loop,
run on the bytes written to a connection, dispatches the frames written there, in order, up to
the first one over the cap; it then stops at that frame's header, or at the end of the stream
when there is none. -/
theorem peer_reads_written_frames {s : Server} (hs : Reachable s) {t : ConnId} {tc : Conn}
    (ht : s.conns t = some tc) :
    decodeStream tc.stream =
      ((tc.out.takeWhile fun x => x.frame.payload.length ≤ maxPayload).map
          (fun x => (x.frame.type, x.frame.payload)),
        match tc.out.dropWhile fun x => x.frame.payload.length ≤ maxPayload with
        | [] => .closed
        | x :: _ => .oversize x.frame.payload.length) := by
  have hsplit := List.takeWhile_append_dropWhile
    (fun x : Sent => decide (x.frame.payload.length ≤ maxPayload)) tc.out
  have hpre : ∀ f ∈ (tc.out.takeWhile fun x => decide (x.frame.payload.length ≤ maxPayload)).map
      (fun x => (x.frame.type, x.frame.payload)), f.2.length ≤ maxPayload := by
    simp only [List.mem_map]
    rintro _ ⟨x, hx, rfl⟩
    simpa using List.mem_takeWhile_imp hx
  have hbytes : ∀ l : List Sent, l.flatMap (·.frame.bytes) =
      (l.map fun x => (x.frame.type, x.frame.payload)).flatMap fun f => makeMessage f.1 f.2 :=
    fun l => by rw [List.flatMap_map]; rfl
  unfold Conn.stream
  conv_lhs => rw [← hsplit]
  rw [List.flatMap_append, hbytes]
  split
  · rename_i hd
    rw [hd, List.flatMap_nil, List.append_nil]
    exact decodeStream_makeMessages _ hpre
  · rename_i x rest hd
    have hx : x ∈ tc.out := by rw [← hsplit, hd]; simp
    have hover : ¬x.frame.payload.length ≤ maxPayload := by
      have := List.head_dropWhile_not (fun x : Sent => decide (x.frame.payload.length ≤ maxPayload))
        tc.out (by rw [hd]; simp)
      simpa [hd] using this
    have hlt := (written_frames_within_cap hs ht hx).2.2
    rw [hd, List.flatMap_cons, Frame.bytes, makeMessage, List.append_assoc]
    exact decodeStream_oversize _ hpre _ (by omega) hlt _

/-- After `pairRun`, the client of connection 0 reads back the frames the relay wrote to it. -/
theorem peer_reads_written_frames_pair :
    decodeStream pairSender.stream =
      ((pairSender.out.takeWhile fun x => x.frame.payload.length ≤ maxPayload).map
          (fun x => (x.frame.type, x.frame.payload)),
        match pairSender.out.dropWhile fun x => x.frame.payload.length ≤ maxPayload with
        | [] => .closed
        | x :: _ => .oversize x.frame.payload.length) :=
  peer_reads_written_frames reachable_pairState (show pairState.conns 0 = some pairSender by decide)

end SentinelRelay
