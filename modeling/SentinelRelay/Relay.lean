import SentinelRelay.Delivery

/-!
# The relay of `DATA` and its accounting

`_handle_relay_data` (lines 320-365 of `src/relay/relay_server.py`) takes three steps of its
handler.  The step that reads the frame checks the target under the lock and writes the
relayed frame to the target's connection (`Server.handleRelayData_targetPayload`).  The drain
of that write fails on a closed transport (`Server.step_relaying`).  A drain that succeeds adds
the data's length to `total_bytes_relayed`, and the next step adds it to the sender's
`relayed_bytes` under the lock (`Server.step_accounting`).  `relay_exactly_once_and_counted`
puts them together.

The relayed frame's payload puts the sender's id where the incoming frame had the target's, so
it is longer than the frame read by the difference of their lengths.  The read loop caps the
frames it reads at `10 * 1024 * 1024` bytes and `_handle_relay_data` checks no cap of its own.
A sender whose id is longer than the target's can therefore make the relay write a frame over
the cap, which the target's own read loop refuses (`relayed_frame_overruns_cap`).
-/

namespace SentinelRelay

namespace Server

variable {s : Server} {c : ConnId} {conn : Conn}

/-- The read step of a whole frame within the cap: `_handle_message` on it. -/
theorem step_read_frame {t : MessageType} {payload more : Bytes} (hc : s.conns c = some conn)
    (hr : conn.phase = .reading) (hin : conn.input = makeMessage t payload ++ more)
    (hlen : payload.length ≤ maxPayload) :
    s.step (.handler c) = some (s.handleMessage c
      { conn with input := more, log := conn.log ++ [(t, payload)] } t payload conn.log.length) := by
  simp only [step, handlerStep, hc, hr, readStep, hin, readFrame_makeMessage _ _ _ hlen]

theorem conns_setConn_self : (s.setConn c conn).conns c = some conn := by simp

/-- The relay write, when `relayTarget` finds the target. -/
theorem handleRelayData_targetPayload {a t : ShortStr} {tinfo : PeerInfo} {data : Bytes}
    (ht : s.registry.relayTarget a t = some tinfo) (idx : Nat) :
    s.handleRelayData c conn a (targetPayload t data) idx =
      (s.setConn c { conn with phase := .relaying a tinfo.writer data.length }).write tinfo.writer
        ⟨⟨.DATA, relayPayload a data⟩, some (c, idx)⟩ := by
  simp [handleRelayData, parseTarget_targetPayload, ht]

/-- The read step of a `DATA` frame whose target `relayTarget` finds: the handler goes on to the
drain of the relayed frame it wrote to the target's connection. -/
theorem step_relay {a t : ShortStr} {tinfo : PeerInfo} {data more : Bytes}
    (hc : s.conns c = some conn) (hr : conn.phase = .reading) (hp : registered conn.peer_id = some a)
    (ht : s.registry.relayTarget a t = some tinfo)
    (hin : conn.input = makeMessage .DATA (targetPayload t data) ++ more)
    (hlen : (targetPayload t data).length ≤ maxPayload) :
    ∃ cn : Conn, s.step (.handler c) = some ((s.setConn c cn).write tinfo.writer
        ⟨⟨.DATA, relayPayload a data⟩, some (c, conn.log.length)⟩) ∧
      cn.out = conn.out ∧ cn.lost = conn.lost ∧ cn.phase = .relaying a tinfo.writer data.length := by
  rw [step_read_frame hc hr hin hlen]
  simp only [handleMessage, hp, handleRelayData_targetPayload ht]
  exact ⟨_, rfl, rfl, rfl, rfl⟩

/-- The relay write, seen from every connection: one frame more on the target's. -/
theorem out_relayWrite {w : ConnId} {x : Sent} {cn : Conn} (hc : s.conns c = some conn)
    (hout : cn.out = conn.out) (hl : cn.lost = conn.lost) (d : ConnId) :
    (((s.setConn c cn).write w x).conns d).map Conn.out =
      (s.conns d).map fun y => if d = w then (y.write x).out else y.out := by
  simp only [conns_write, conns_setConn]
  by_cases hdw : d = w
  · subst hdw
    by_cases hdc : d = c
    · subst hdc; simp [hc, Conn.out_write, hout, hl]
    · simp [hdc, Option.map_map, Function.comp_def]
  · by_cases hdc : d = c
    · subst hdc; simp [hdw, hc, hout]
    · simp [hdw, hdc]

end Server

theorem length_targetPayload (t : ShortStr) (data : Bytes) :
    (targetPayload t data).length = t.bytes.length + 1 + data.length := by
  simp only [targetPayload, List.length_append, length_field]

/-- The payload a relayed frame carries is the incoming payload with the sender's id in place of
the target's. -/
theorem length_relayPayload (a t : ShortStr) (data : Bytes) :
    (relayPayload a data).length + t.bytes.length = (targetPayload t data).length + a.bytes.length := by
  simp only [relayPayload, targetPayload, List.length_append, length_field]
  omega

/-- A frame over the cap stops the read loop at its header. -/
theorem readFrame_bytes_oversize {f : Frame} (h : maxPayload < f.payload.length)
    (h' : f.payload.length < 2 ^ 32) : readFrame f.bytes = .stop (.oversize f.payload.length) := by
  rw [Frame.bytes, makeMessage, readFrame_header _ _ _ (by simp [packI]), beNat_packI h', if_pos h]

/-- Connection 0 of `pairState`, registered as `a`. -/
def pairSender : Conn := (pairState.conns 0).getD (Conn.accepted none)

/-- The record of `b` in `pairState`. -/
def pairTarget : PeerInfo := (pairState.registry.peers.lookup peerB).get (by decide)

/-- **A relayed frame can overrun the cap.**  From any state, when a handler registered as `a`
reads a `DATA` frame within the cap for a target `t` of its session whose transport is open,
the target's connection receives a frame whose payload is the one read with `a`'s id in place
of `t`'s.  When `a`'s id is the longer one and the frame read is close enough to the cap, the
relayed frame is over the cap, and the target's read loop stops at its header. -/
theorem relayed_frame_overruns_cap {s : Server} {c : ConnId} {conn : Conn} {a t : ShortStr}
    {ainfo tinfo : PeerInfo} {data more : Bytes} (hc : s.conns c = some conn)
    (hr : conn.phase = .reading) (hp : registered conn.peer_id = some a)
    (ha : s.registry.peers.lookup a = some ainfo) (ht : s.registry.peers.lookup t = some tinfo)
    (hsess : tinfo.session_code = ainfo.session_code)
    (hopen : (s.conns tinfo.writer).map Conn.lost = some false)
    (hin : conn.input = makeMessage .DATA (targetPayload t data) ++ more)
    (hlen : (targetPayload t data).length ≤ maxPayload) :
    ∃ s', s.step (.handler c) = some s' ∧ ∃ tc x, s'.conns tinfo.writer = some tc ∧ x ∈ tc.out ∧
      x.frame.payload.length + t.bytes.length = (targetPayload t data).length + a.bytes.length ∧
      (maxPayload < x.frame.payload.length →
        readFrame x.frame.bytes = .stop (.oversize x.frame.payload.length)) := by
  have hrt : s.registry.relayTarget a t = some tinfo :=
    relayTarget_eq_some.2 ⟨ht, fun src h => by rw [ha] at h; cases h; exact hsess.symm⟩
  obtain ⟨cn, hstep, hout, hl, -⟩ := Server.step_relay hc hr hp hrt hin hlen
  obtain ⟨tw, htw, hopen⟩ := Option.map_eq_some'.1 hopen
  have hw := Server.out_relayWrite (w := tinfo.writer)
    (x := ⟨⟨.DATA, relayPayload a data⟩, some (c, conn.log.length)⟩) hc hout hl tinfo.writer
  simp only [htw, Option.map_some', eq_self_iff_true, ↓reduceIte] at hw
  obtain ⟨tc, htc, htco⟩ := Option.map_eq_some'.1 hw
  refine ⟨_, hstep, tc, ⟨⟨.DATA, relayPayload a data⟩, some (c, conn.log.length)⟩, htc, ?_,
    length_relayPayload a t data, fun hover => ?_⟩
  · rw [htco, Conn.out_write, if_neg (by simp [hopen])]; simp
  · refine readFrame_bytes_oversize hover ?_
    have := length_relayPayload a t data
    have := a.length_bytes_lt
    simp only [maxPayload] at hlen
    simp only at this ⊢
    omega

/-- The peer id `aa`. -/
def peerAA : ShortStr := ⟨"aa", by decide⟩

/-- `aa` and `b` register in `s`. -/
def longSenderRun : List Event :=
  [.accept none, .accept none] ++ registerRun 0 peerAA sessionS ++ registerRun 1 peerB sessionS

/-- The state `longSenderRun` reaches. -/
def longSenderState : Server := ((Server.init 0).run longSenderRun).getD (Server.init 0)

/-- Connection 0 in `longSenderState`, registered as `aa`. -/
def senderConn : Conn := (longSenderState.conns 0).getD (Conn.accepted none)

/-- A `DATA` frame to `b` of exactly `10 * 1024 * 1024` bytes. -/
def capFrame : Bytes := makeMessage .DATA (targetPayload peerB (List.replicate (maxPayload - 2) 0))

/-- `aa` sends `b` a `DATA` frame of exactly the cap; `b` receives one of a byte more, which its
read loop refuses. -/
theorem relayed_frame_overruns_cap_by_one :
    ∃ s, Reachable s ∧ ∃ t tc x, s.conns t = some tc ∧ x ∈ tc.out ∧
      x.frame.payload.length = maxPayload + 1 ∧
      readFrame x.frame.bytes = .stop (.oversize (maxPayload + 1)) := by
  have hpre : Reachable longSenderState := (Reachable.init 0).run longSenderRun rfl
  have hc0 : longSenderState.conns 0 = some senderConn := by decide
  have hsend : longSenderState.step (.send 0 capFrame) =
      some (longSenderState.setConn 0 { senderConn with input := senderConn.input ++ capFrame }) := by
    simp only [Server.step, hc0, show senderConn.eof = false by decide, Bool.false_eq_true,
      ↓reduceIte]
  have hm : 2 ≤ maxPayload := by decide
  have hlen : (targetPayload peerB (List.replicate (maxPayload - 2) 0)).length ≤ maxPayload := by
    rw [length_targetPayload, List.length_replicate, show peerB.bytes.length = 1 by decide]
    omega
  obtain ⟨s', hstep, tc, x, htc, hx, hxlen, hover⟩ :=
    relayed_frame_overruns_cap
      (s := longSenderState.setConn 0 { senderConn with input := senderConn.input ++ capFrame })
      Server.conns_setConn_self (show senderConn.phase = .reading by decide)
      (show registered senderConn.peer_id = some peerAA by decide)
      (Option.some_get (show (longSenderState.registry.peers.lookup peerAA).isSome by decide)).symm
      (Option.some_get (show (longSenderState.registry.peers.lookup peerB).isSome by decide)).symm
      (by decide) (by decide)
      (show _ = capFrame ++ [] by
        simp only [show senderConn.input = [] by decide, List.nil_append, List.append_nil])
      hlen
  have hl : x.frame.payload.length = maxPayload + 1 := by
    rw [length_targetPayload, List.length_replicate, show peerB.bytes.length = 1 by decide,
      show peerAA.bytes.length = 2 by decide] at hxlen
    omega
  exact ⟨s', (hpre.step _ hsend).step _ hstep, _, tc, x, htc, hx, hl,
    hl ▸ hover (by rw [hl]; exact Nat.lt_succ_self _)⟩

end SentinelRelay
