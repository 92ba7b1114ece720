import SentinelRelay.Unregistered

/-!
# The read loop accounts for every byte

`_handle_client` (lines 120-170 of `src/relay/relay_server.py`) reads its connection with
`reader.readexactly(5)` for a header and `reader.readexactly(length)` for the payload, and hands
the frame to `_handle_message`; no other code of the relay reads from a connection.  What it
consumed for a frame is what `_make_message` writes for that frame (`readFrame_consumed`): the
type byte is the member's value, and the four length bytes are `struct.pack('!I', length)`.

A step of a handler takes in at most the frame at the front of its own unread input, and no
other step takes anything in (`Server.takesIn_handlerStep`).  So the bytes a peer has sent are,
at every point, the frames the handler of its connection has read, framed again by
`_make_message`, followed by the bytes it has not taken in as part of a frame
(`Conn.received`); a header the loop refuses, after which it reads nothing more, counts with the
latter.  An event of the network appends exactly the bytes it delivers
(`Server.receivedOn_step`).  Along a whole run from the server's start, whatever the
interleaving and however the network cuts the stream:

* the read loop never drops, duplicates or reorders a byte (`handler_reads_every_byte`);
* it dispatches, in order, the frames the relay's own decoder finds in all the bytes sent, up
  to those still in its input (`handler_reads_decoded_frames`): the event-driven loop refines
  the sequential decoder `decodeStream`.

A reset (`ConnectionResetError`) discards the unread bytes, and it is the one event that does.
-/

namespace SentinelRelay

/-- What the handler of a connection has taken in: the frames it has read, and the bytes it has
not taken in as part of a frame. -/
def Conn.intake (conn : Conn) : List (MessageType × Bytes) × Bytes := (conn.log, conn.input)

@[simp] theorem Conn.intake_core (conn : Conn) : conn.core.intake = conn.intake := rfl

/-- The bytes of a connection's stream its handler accounts for: the frames it has read, as
`_make_message` frames them, followed by the bytes it has not taken in as part of a frame. -/
def Conn.received (conn : Conn) : Bytes :=
  conn.log.flatMap (fun f => makeMessage f.1 f.2) ++ conn.input

/-- The bytes the network delivers to connection `c` with event `e`. -/
def Event.sentTo (c : ConnId) : Event → Bytes
  | .send d bytes => if d = c then bytes else []
  | _ => []

/-- What connection `c` of `s` accounts for; nothing before it is accepted. -/
def Server.receivedOn (s : Server) (c : ConnId) : Bytes :=
  ((s.conns c).map Conn.received).getD []

/-! ## What the read loop consumed -/

/-- `struct.pack` inverts `struct.unpack`: bytes are the big-endian bytes of their value. -/
theorem beBytes_beNat (hdr : Bytes) : beBytes hdr.length (beNat hdr) = hdr := by
  induction hdr using List.reverseRecOn with
  | nil => rfl
  | append_singleton l x ih =>
    have hx : x.toNat < 256 := x.toNat_lt_size
    have hlow : (beNat l * 256 + x.toNat).toUInt8 = x :=
      UInt8.toNat.inj (by rw [toNat_toUInt8]; omega)
    rw [List.length_append, List.length_singleton, beBytes, beNat_append,
      show (beNat l * 256 + x.toNat) / 256 = beNat l by omega, ih, hlow]

theorem MessageType.code_of_ofByte {b : UInt8} {t : MessageType}
    (h : MessageType.ofByte b = some t) : t.code = b := by
  apply UInt8.toNat.inj
  unfold MessageType.ofByte at h
  split at h <;> cases h <;> rename_i hb <;> rw [hb] <;> rfl

/-- **What the read loop consumed for a frame is the frame as `_make_message` writes it**: the
reverse of `readFrame_makeMessage`. -/
theorem readFrame_consumed {input payload rest : Bytes} {t : MessageType}
    (h : readFrame input = .frame t payload rest) : input = makeMessage t payload ++ rest := by
  obtain ⟨b0, hdr, tail, rfl, h4, ht, -, hlen, rfl, rfl⟩ := readFrame_eq_frame h
  have hpack : packI (tail.take (beNat hdr)).length = hdr := by
    rw [List.length_take_of_le hlen, packI, ← h4, beBytes_beNat]
  rw [makeMessage, hpack, MessageType.code_of_ofByte ht, List.cons_append, List.append_assoc,
    List.take_append_drop]
  rfl

/-- **The relay's decoder reads whole frames within the cap one by one**, then goes on with what
follows them. -/
theorem decodeStream_append_frames (fs : List (MessageType × Bytes))
    (hfs : ∀ f ∈ fs, f.2.length ≤ maxPayload) (rest : Bytes) :
    decodeStream ((fs.flatMap fun f => makeMessage f.1 f.2) ++ rest) =
      (fs ++ (decodeStream rest).1, (decodeStream rest).2) := by
  induction fs with
  | nil => rfl
  | cons f fs ih =>
    rw [List.flatMap_cons, List.append_assoc,
      decodeStream_of_frame (readFrame_makeMessage _ _ _ (hfs f (List.mem_cons_self _ _))),
      ih fun g hg => hfs g (List.mem_cons_of_mem _ hg)]
    rfl

/-! ## What a handler step takes in -/

/-- A connection goes on from `o` as `o'` having taken in what it had, and at most the frame at
the front of its unread input. -/
def TakesIn (o o' : Option Conn) : Prop :=
  o'.map Conn.intake = o.map Conn.intake ∨
    ∃ conn t payload rest, o = some conn ∧ readFrame conn.input = .frame t payload rest ∧
      o'.map Conn.intake = some (conn.log ++ [(t, payload)], rest)

theorem map_received_eq (o : Option Conn) :
    o.map Conn.received =
      (o.map Conn.intake).map fun i => i.1.flatMap (fun f => makeMessage f.1 f.2) ++ i.2 := by
  rw [Option.map_map]; rfl

/-- Taking a frame in moves its bytes from the unread input to the log. -/
theorem TakesIn.received {o o' : Option Conn} (h : TakesIn o o') :
    o'.map Conn.received = o.map Conn.received := by
  rcases h with h | ⟨conn, t, payload, rest, rfl, hfr, h⟩
  · rw [map_received_eq, h, ← map_received_eq]
  · rw [map_received_eq, h, Option.map_some', Option.map_some', Conn.received,
      readFrame_consumed hfr]
    simp only [List.flatMap_append, List.flatMap_cons, List.flatMap_nil, List.append_nil,
      List.append_assoc]

/-- Every frame the handler of `conn` has read is within the cap. -/
def Conn.FramesFit (conn : Conn) : Prop := ∀ f ∈ conn.log, f.2.length ≤ maxPayload

/-- The read loop takes in only frames within the cap. -/
theorem TakesIn.framesFit {o o' : Option Conn} (h : TakesIn o o')
    (hf : ∀ conn, o = some conn → conn.FramesFit) :
    ∀ conn', o' = some conn' → conn'.FramesFit := by
  intro conn' ho' f hfl
  rcases h with h | ⟨conn, t, payload, rest, rfl, hfr, h⟩
  · rw [ho', Option.map_some'] at h
    obtain ⟨conn, hc, hi⟩ := Option.map_eq_some'.1 h.symm
    exact hf conn hc f (by rw [show conn.log = conn'.log from congrArg Prod.fst hi]; exact hfl)
  · rw [ho', Option.map_some', Option.some_inj] at h
    rw [show conn'.log = conn.log ++ [(t, payload)] from congrArg Prod.fst h, List.mem_append,
      List.mem_singleton] at hfl
    rcases hfl with hfl | rfl
    · exact hf conn rfl f hfl
    · exact length_payload_of_readFrame hfr

theorem map_intake_of_core {o o' : Option Conn} (h : o.map Conn.core = o'.map Conn.core) :
    o.map Conn.intake = o'.map Conn.intake := by
  have := congrArg (Option.map Conn.intake) h
  simpa only [Option.map_map, Function.comp_def, Conn.intake_core] using this

namespace Server

variable {s s' : Server} {c d : ConnId} {conn : Conn}

@[simp] theorem intake_conns_write (x : Sent) :
    ((s.write d x).conns c).map Conn.intake = (s.conns c).map Conn.intake :=
  map_intake_of_core core_conns_write

@[simp] theorem intake_conns_writeAll (ws : List (ConnId × Frame)) :
    ((s.writeAll ws).conns c).map Conn.intake = (s.conns c).map Conn.intake :=
  map_intake_of_core (core_conns_writeAll ws)

@[simp] theorem intake_conns_removePeer (p : ShortStr) :
    ((s.removePeer p).conns c).map Conn.intake = (s.conns c).map Conn.intake :=
  map_intake_of_core (core_conns_removePeer p)

@[simp] theorem intake_conns_closeWriter :
    ((s.closeWriter d).conns c).map Conn.intake = (s.conns c).map Conn.intake := by
  unfold closeWriter
  split
  · rename_i k hk
    rw [conns_setConn]
    split_ifs with h
    · rw [h, hk]; rfl
    · rfl
  · rfl

/-- The handler of `d` going on as `k`, which has taken in what `conn` had. -/
theorem intake_conns_setConn {k : Conn} (hd : s.conns d = some conn)
    (hk : k.intake = conn.intake) :
    ((s.setConn d k).conns c).map Conn.intake = (s.conns c).map Conn.intake := by
  rw [conns_setConn]
  split_ifs with h
  · rw [h, hd, Option.map_some', Option.map_some', hk]
  · rfl

/-- `_handle_message` for `d` changes what a connection has taken in only through the
handler's own connection, which it takes over as `conn`: it only writes to the others. -/
theorem intake_conns_handleMessage (t : MessageType) (payload : Bytes) (idx : Nat) :
    ((s.handleMessage d conn t payload idx).conns c).map Conn.intake =
      ((s.setConn d conn).conns c).map Conn.intake := by
  unfold handleMessage handleRegister handlePeerList handleRelayData handleConnectRequest
    handlePunchRequest updateExternalAddr
  split <;> (repeat' split) <;>
    simp only [reply, intake_conns_write, conns_setConn, conns_setRegistry] <;>
    split_ifs <;> rfl

/-- **A step of a handler takes in at most the frame at the front of its own unread input.**
The frame read moves from the input to the log; every other step, and every other connection,
keeps its log and its input. -/
theorem takesIn_handlerStep (hs : s.handlerStep d = some s') (c : ConnId) :
    TakesIn (s.conns c) (s'.conns c) := by
  unfold handlerStep at hs
  split at hs
  · cases hs
  rename_i conn hd
  split at hs
  case h_1 =>
    unfold readStep at hs
    split at hs
    · rename_i t payload rest hfr
      cases hs
      rw [TakesIn, intake_conns_handleMessage, conns_setConn]
      by_cases h : c = d
      · subst h
        exact .inr ⟨conn, t, payload, rest, hd, hfr, by rw [if_pos rfl]; rfl⟩
      · exact .inl (by rw [if_neg h])
    all_goals first
      | (split_ifs at hs; cases hs; exact .inl (intake_conns_setConn hd rfl))
      | (cases hs; exact .inl (intake_conns_setConn hd rfl))
  case h_2 =>
    cases hs
    rw [TakesIn, intake_conns_write, intake_conns_writeAll]
    exact .inl (intake_conns_setConn hd rfl)
  case h_3 => (repeat' split at hs) <;> cases hs <;> exact .inl (intake_conns_setConn hd rfl)
  case h_4 => cases hs; exact .inl (intake_conns_setConn hd rfl)
  case h_5 => cases hs; rw [TakesIn, intake_conns_write]; exact .inl (intake_conns_setConn hd rfl)
  case h_6 =>
    cases hs; rw [TakesIn, reply, intake_conns_write]; exact .inl (intake_conns_setConn hd rfl)
  case h_7 =>
    cases hs
    unfold closeStep
    exact .inl (by split <;> simp only [intake_conns_closeWriter, intake_conns_removePeer])
  case h_8 => cases hs

theorem intake_janitorStep (c : ConnId) :
    (s.janitorStep.conns c).map Conn.intake = (s.conns c).map Conn.intake := by
  rcases janitorStep_cases s with ⟨j, hj⟩ | ⟨p, j, hj⟩
  · rw [hj]
  · rw [hj]; exact intake_conns_removePeer p

/-- **Each event leaves what a connection accounts for, followed by exactly the bytes it
delivers there**; a reset of the connection, which discards its unread bytes, apart.  The accept
of a new connection needs its index to be free. -/
theorem receivedOn_step (hf : s.conns s.next = none) {e : Event} (hs : s.step e = some s')
    (hr : e ≠ .reset c) : s'.receivedOn c = s.receivedOn c ++ e.sentTo c := by
  unfold receivedOn
  rcases step_cases hs with ⟨peername, rfl, rfl⟩ | ⟨d, k, input, eof, lost, hk, rfl, net⟩ |
    ⟨now, rfl, rfl⟩ | ⟨d, rfl, hs⟩ | ⟨rfl, rfl⟩
  · simp only [conns_accept, Event.sentTo, List.append_nil]
    split_ifs with h
    · rw [h, hf]; rfl
    · rfl
  · rw [conns_setConn]
    by_cases h : c = d
    · subst h
      rw [if_pos rfl, hk]
      rcases net with ⟨bytes, rfl, -, rfl, -, -⟩ | ⟨rfl, rfl, -, -⟩ | ⟨rfl, -⟩
      · rw [Event.sentTo, if_pos rfl]
        simp only [Option.map_some', Option.getD_some, Conn.received, List.append_assoc]
      · simp only [Option.map_some', Option.getD_some, Conn.received, Event.sentTo,
          List.append_nil]
      · exact absurd rfl hr
    · have hnil : e.sentTo c = [] := by
        rcases net with ⟨bytes, rfl, -⟩ | ⟨rfl, -⟩ | ⟨rfl, -⟩ <;>
          simp only [Event.sentTo, if_neg (Ne.symm h)]
      rw [if_neg h, hnil, List.append_nil]
  · simp only [Event.sentTo, List.append_nil]
  · simp only [(takesIn_handlerStep hs c).received, Event.sentTo, List.append_nil]
  · simp only [map_received_eq, intake_janitorStep, Event.sentTo, List.append_nil]

/-- Along a run without a reset of `c`, connection `c` accounts for what it did, followed by the
bytes the run delivered there, in order. -/
theorem receivedOn_run (hs : Reachable s) {es : List Event} (h : s.run es = some s')
    (hr : Event.reset c ∉ es) :
    s'.receivedOn c = s.receivedOn c ++ es.flatMap (Event.sentTo c) := by
  induction es generalizing s with
  | nil => cases h; rw [List.flatMap_nil, List.append_nil]
  | cons e es ih =>
    simp only [Server.run, Option.bind_eq_some] at h
    obtain ⟨s₁, h₁, h₂⟩ := h
    rw [List.mem_cons, not_or] at hr
    rw [ih (hs.step e h₁) h₂ hr.2,
      receivedOn_step (hs.relayOrder.fresh _ le_rfl) h₁ (fun he => hr.1 he.symm),
      List.flatMap_cons, List.append_assoc]

/-- Every frame the handler of every connection has read is within the cap. -/
def FramesFit (s : Server) : Prop := ∀ c conn, s.conns c = some conn → conn.FramesFit

theorem framesFit_of_logs (hf : s.FramesFit)
    (h : ∀ c, (s'.conns c).map Conn.log = (s.conns c).map Conn.log) : s'.FramesFit := by
  intro c conn' hc'
  have hc := h c
  rw [hc', Option.map_some'] at hc
  obtain ⟨conn, hc, hl⟩ := Option.map_eq_some'.1 hc.symm
  exact fun f hfl => hf c conn hc f (hl ▸ hfl)

/-- No event but a handler's read adds to a log, and the read loop adds frames within the cap. -/
theorem FramesFit.step (hf : s.FramesFit) {e : Event} (hs : s.step e = some s') :
    s'.FramesFit := by
  rcases step_cases hs with ⟨peername, -, rfl⟩ | ⟨d, k, _, _, _, hk, rfl, -⟩ | ⟨_, -, rfl⟩ |
    ⟨d, -, hs⟩ | ⟨-, rfl⟩
  · intro c conn' hc'
    rw [conns_accept] at hc'
    split_ifs at hc'
    · cases hc'; nofun
    · exact hf c conn' hc'
  · refine framesFit_of_logs hf fun c => ?_
    rw [conns_setConn]; split_ifs with h
    · rw [h, hk]; rfl
    · rfl
  · exact hf
  · exact fun c => (takesIn_handlerStep hs c).framesFit (hf c)
  · refine framesFit_of_logs hf fun c => ?_
    have := congrArg (Option.map Prod.fst) (intake_janitorStep (s := s) c)
    simpa only [Option.map_map, Function.comp_def] using this

end Server

theorem Reachable.framesFit {s : Server} (hs : Reachable s) : s.FramesFit := by
  induction hs with
  | init clock => intro c conn h; cases h
  | step e _ hstep ih => exact ih.step hstep

/-! ## The theorem -/

/-- **The read loop accounts for every byte.**  Along any run of the relay from its start,
whatever the interleaving of handlers, closes and janitor passes and however the network cuts
the stream, for a connection its peer has not reset, the frames its handler has read, framed
again by `_make_message`, followed by the bytes it has not taken in as part of a frame, are
exactly the bytes its peer sent, in order. -/
theorem handler_reads_every_byte {clock : Nat} {es : List Event} {s : Server}
    (hrun : (Server.init clock).run es = some s) {c : ConnId} (hr : Event.reset c ∉ es)
    {conn : Conn} (hc : s.conns c = some conn) :
    (conn.log.flatMap fun f => makeMessage f.1 f.2) ++ conn.input =
      es.flatMap (Event.sentTo c) := by
  have h := Server.receivedOn_run (Reachable.init clock) hrun hr
  rw [Server.receivedOn, hc] at h
  exact h

/-- **The read loop dispatches the frames the relay's own decoder finds in the stream.**  Along
any run of the relay from its start, whatever the interleaving and however the network cuts the
stream, for a connection its peer has not reset, decoding all the bytes its peer sent with the
read loop's grammar gives the frames its handler has read, in order, followed by what the
bytes it has not taken in decode to, and stops where those stop. -/
theorem handler_reads_decoded_frames {clock : Nat} {es : List Event} {s : Server}
    (hrun : (Server.init clock).run es = some s) {c : ConnId} (hr : Event.reset c ∉ es)
    {conn : Conn} (hc : s.conns c = some conn) :
    decodeStream (es.flatMap (Event.sentTo c)) =
      (conn.log ++ (decodeStream conn.input).1, (decodeStream conn.input).2) := by
  have h := Server.receivedOn_run (Reachable.init clock) hrun hr
  rw [Server.receivedOn, hc] at h
  have hsent : conn.received = es.flatMap (Event.sentTo c) := h
  rw [← hsent]
  exact decodeStream_append_frames _ (((Reachable.init clock).run es hrun).framesFit c conn hc) _

/-- A peer sends its `REGISTER` cut in two; the handler reads it whole, and registers. -/
def splitRun : List Event :=
  [.accept none, .send 0 ((makeMessage .REGISTER (registerPayload peerA sessionS none)).take 3),
    .send 0 ((makeMessage .REGISTER (registerPayload peerA sessionS none)).drop 3),
    .handler 0, .handler 0]

/-- The state `splitRun` reaches. -/
def splitState : Server := ((Server.init 0).run splitRun).getD (Server.init 0)

/-- The connection of `splitRun`. -/
def splitConn : Conn := (splitState.conns 0).getD (Conn.accepted none)

/-- The frame sent in two pieces is read once, whole. -/
theorem handler_reads_every_byte_split :
    splitConn.log = [(.REGISTER, registerPayload peerA sessionS none)] ∧ splitConn.input = [] ∧
      (splitConn.log.flatMap fun f => makeMessage f.1 f.2) ++ splitConn.input =
        splitRun.flatMap (Event.sentTo 0) :=
  ⟨by decide, by decide, handler_reads_every_byte
    (show (Server.init 0).run splitRun = some splitState from rfl) (by simp [splitRun])
    (show splitState.conns 0 = some splitConn by decide)⟩

/-- The frame sent in two pieces is the one the decoder finds in the stream. -/
theorem handler_reads_decoded_frames_split :
    splitConn.log = [(.REGISTER, registerPayload peerA sessionS none)] ∧ splitConn.input = [] ∧
      decodeStream (splitRun.flatMap (Event.sentTo 0)) =
        (splitConn.log ++ (decodeStream splitConn.input).1, (decodeStream splitConn.input).2) :=
  ⟨by decide, by decide, handler_reads_decoded_frames
    (show (Server.init 0).run splitRun = some splitState from rfl) (by simp [splitRun])
    (show splitState.conns 0 = some splitConn by decide)⟩

end SentinelRelay
