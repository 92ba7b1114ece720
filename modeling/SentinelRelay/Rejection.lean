import SentinelRelay.Lifecycle

/-!
# Frames that cost a connection its identity or its life

Two paths of `_handle_client` (lines 120-170 of `src/relay/relay_server.py`) end otherwise
than the protocol announces.

* `_handle_register` answers a payload its parser rejects with `(ERROR(str(e)), "")`, and the
  read loop takes the `""` as the handler's new `peer_id`.  The registry is untouched, but a
  connection registered as `p` is no longer: the frames it sends next, other than `REGISTER`,
  are ignored, and its close removes nothing, so `p`'s record stays until the janitor finds
  it stale (`rejected_register_forgets_identity`).
* `MessageType(header[0])` raises `ValueError` for a byte that names no member, before the
  length is looked at.  The exception leaves the read loop: the `finally` block removes the
  record of the handler's `peer_id` and closes the connection
  (`unknown_type_closes_connection`).
-/

namespace SentinelRelay

/-- A header whose type byte names no member stops the read loop, whatever the length. -/
theorem readFrame_badType {b : UInt8} (hb : MessageType.ofByte b = none) {hdr : Bytes}
    (h : hdr.length = 4) (rest : Bytes) : readFrame (b :: hdr ++ rest) = .stop (.badType b) := by
  match hdr, h with
  | [_, _, _, _], _ => simp [readFrame, hb]

namespace Server

variable {s : Server} {c : ConnId} {conn : Conn}

/-- A handler whose `peer_id` is not truthy ignores every frame but `REGISTER`. -/
theorem handleMessage_unregistered (h : registered conn.peer_id = none) {t : MessageType}
    (ht : t ≠ .REGISTER) (payload : Bytes) (idx : Nat) :
    s.handleMessage c conn t payload idx = s.setConn c conn := by
  cases t <;> simp_all [handleMessage]

/-- A handler whose `peer_id` is not truthy removes nothing when it closes. -/
theorem closeStep_unregistered (h : registered conn.peer_id = none) :
    s.closeStep c conn = s.closeWriter c := by
  simp [closeStep, h]

theorem conns_reply_self (f : Frame) : (s.reply c conn f).conns c = some (conn.write ⟨f, none⟩) := by
  simp [reply]

theorem conns_closeWriter_self {x : Conn} (h : s.conns c = some x) :
    (s.closeWriter c).conns c = some { x with phase := .finished, lost := true } := by
  simp [closeWriter, h]

theorem isSome_conns_writeAll (ws : List (ConnId × Frame)) (d : ConnId) :
    ((s.writeAll ws).conns d).isSome = (s.conns d).isSome := by
  induction ws generalizing s with
  | nil => rfl
  | cons w ws ih =>
    rw [writeAll, List.foldl_cons, ← writeAll, ih, conns_write]
    split_ifs with hd
    · subst hd; simp
    · rfl

theorem isSome_conns_removePeer (p : ShortStr) (d : ConnId) :
    ((s.removePeer p).conns d).isSome = (s.conns d).isSome := by
  rw [removePeer, isSome_conns_writeAll]; rfl

/-- After the `finally` block the connection is closed, whatever `_remove_peer` wrote. -/
theorem conns_closeStep_self {x : Conn} (h : s.conns c = some x) :
    ∃ y : Conn, (s.closeStep c conn).conns c = some { y with phase := .finished, lost := true } := by
  unfold closeStep
  split
  · rename_i p _
    obtain ⟨y, hy⟩ := Option.isSome_iff_exists.1
      ((isSome_conns_removePeer (s := s) p c).trans (by rw [h]; rfl))
    exact ⟨y, conns_closeWriter_self hy⟩
  · exact ⟨x, conns_closeWriter_self h⟩

theorem step_closing (hc : s.conns c = some conn) (hp : conn.phase = .closing) :
    s.step (.handler c) = some (s.closeStep c conn) := by
  simp [step, handlerStep, hc, hp]

end Server

/-- **A rejected `REGISTER` takes the connection's identity away.**  From any state, when a
connection sends a `REGISTER` that the parser rejects, the handler's step answers `ERROR` and
leaves the registry as it was, but its `peer_id` is no longer truthy, whatever it was before.
Every later frame other than `REGISTER` is ignored, and closing the connection removes no
record: a record the connection registered before stays. -/
theorem rejected_register_forgets_identity {s : Server} {c : ConnId} {conn : Conn}
    {payload more : Bytes} {e : PyError} (hc : s.conns c = some conn) (hr : conn.phase = .reading)
    (hin : conn.input = makeMessage .REGISTER payload ++ more) (hlen : payload.length ≤ maxPayload)
    (he : parseRegister payload = .error e) :
    ∃ s' conn', s.step (.handler c) = some s' ∧ s'.conns c = some conn' ∧
      s'.registry = s.registry ∧ conn'.out = (conn.write ⟨⟨.ERROR, utf8Encode e.str⟩, none⟩).out ∧
      conn'.phase = .reading ∧ registered conn'.peer_id = none ∧
      (∀ t, t ≠ .REGISTER → ∀ (cn : Conn) payload' idx, cn.peer_id = conn'.peer_id →
        s'.handleMessage c cn t payload' idx = s'.setConn c cn) ∧
      (s'.closeStep c conn').registry = s.registry := by
  have hid : registered (some ShortStr.empty) = none := by simp [registered]
  refine ⟨_, _, step_register_rejected hc hr hin hlen he, Server.conns_reply_self _, rfl,
    by simp only [Conn.out_write], by simpa using hr, by simpa using hid,
    fun t ht cn _ idx hcn => Server.handleMessage_unregistered (by simpa [hcn] using hid) ht _ idx,
    ?_⟩
  rw [Server.closeStep_unregistered (by simpa using hid), Server.registry_closeWriter]
  rfl

/-- Connection 0 registers `a` in `s`, then sends a `REGISTER` with an empty payload. -/
def rejectedRun : List Event :=
  [.accept none] ++ registerRun 0 peerA sessionS ++ [.sendFrame 0 .REGISTER []]

/-- The state `rejectedRun` reaches. -/
def rejectedState : Server := ((Server.init 0).run rejectedRun).getD (Server.init 0)

/-- The empty payload is rejected with `IndexError`: connection 0, registered as `a`, loses its
identity, and its close would keep `a`'s record. -/
theorem rejected_register_forgets_identity_empty :
    Reachable rejectedState ∧ ((rejectedState.conns 0).bind fun conn => registered conn.peer_id) =
      some peerA ∧ ∃ s', rejectedState.step (.handler 0) = some s' ∧
      ((s'.conns 0).bind fun conn => registered conn.peer_id) = none ∧
      ((s'.conns 0).map fun conn => (s'.closeStep 0 conn).registry.peers.lookup peerA).join =
        rejectedState.registry.peers.lookup peerA := by
  obtain ⟨s', conn', hs', hc', -, -, -, hid, -, hclose⟩ :=
    rejected_register_forgets_identity
      (Option.some_get (show (rejectedState.conns 0).isSome by decide)).symm (by decide)
      (show _ = makeMessage .REGISTER [] ++ [] by decide) (by decide)
      (show parseRegister [] = .error .indexError by decide)
  exact ⟨(Reachable.init 0).run rejectedRun rfl, by decide, s', hs', by rw [hc']; exact hid,
    by rw [hc']; simp [hclose]⟩

/-- **A frame of unknown type closes its connection.**  From any state, when the next frame on
a reading connection has a type byte that names no member of `MessageType`, whatever its
length and payload, the handler leaves its loop without writing anything.  Its next step runs
the `finally` block, which removes the record of a truthy `peer_id` and closes the
connection; the handler then takes no further step, so no later frame is read. -/
theorem unknown_type_closes_connection {s : Server} {c : ConnId} {conn : Conn} {b : UInt8}
    {payload more : Bytes} (hc : s.conns c = some conn) (hr : conn.phase = .reading)
    (hb : MessageType.ofByte b = none)
    (hin : conn.input = b :: packI payload.length ++ payload ++ more) :
    ∃ s₁ s₂, s.step (.handler c) = some s₁ ∧ s₁.registry = s.registry ∧
      (∀ d, (s₁.conns d).map Conn.out = (s.conns d).map Conn.out) ∧
      s₁.step (.handler c) = some s₂ ∧
      (s₂.conns c).map (fun conn => (conn.phase, conn.lost)) = some (.finished, true) ∧
      s₂.step (.handler c) = none ∧
      ∀ p, registered conn.peer_id = some p → s₂.registry.peers.lookup p = none := by
  have hh : (packI payload.length).length = 4 := by simp [packI]
  have hread : s.step (.handler c) = some (s.setConn c { conn with phase := .closing }) := by
    simp only [Server.step, Server.handlerStep, hc, hr, Server.readStep, hin, List.append_assoc,
      readFrame_badType hb hh]
  have hc₁ : (s.setConn c { conn with phase := .closing }).conns c =
      some { conn with phase := .closing } := by simp
  obtain ⟨y, hy⟩ : ∃ y : Conn, ((s.setConn c { conn with phase := .closing }).closeStep c
      { conn with phase := .closing }).conns c = some { y with phase := .finished, lost := true } :=
    Server.conns_closeStep_self hc₁
  refine ⟨_, _, hread, rfl, fun d => ?_, Server.step_closing hc₁ rfl, by simp [hy],
    by simp [Server.step, Server.handlerStep, hy], fun p hp => closeStep_removes_record hp⟩
  simp only [Server.conns_setConn]; split_ifs with hd
  · subst hd; simp [hc]
  · rfl

/-- Connection 0 registers `a` in `s`, then sends a header of type `0x09`, which names no
member of `MessageType`. -/
def unknownRun : List Event :=
  [.accept none] ++ registerRun 0 peerA sessionS ++ [.send 0 [0x09, 0, 0, 0, 0]]

/-- The state `unknownRun` reaches. -/
def unknownState : Server := ((Server.init 0).run unknownRun).getD (Server.init 0)

/-- The type byte `0x09` closes connection 0 and removes `a`'s record. -/
theorem unknown_type_closes_connection_nine :
    Reachable unknownState ∧ ∃ s₁ s₂, unknownState.step (.handler 0) = some s₁ ∧
      s₁.step (.handler 0) = some s₂ ∧ s₂.step (.handler 0) = none ∧
      s₂.registry.peers.lookup peerA = none := by
  obtain ⟨s₁, s₂, h₁, -, -, h₂, -, h₃, hp⟩ :=
    unknown_type_closes_connection
      (Option.some_get (show (unknownState.conns 0).isSome by decide)).symm (by decide)
      (show MessageType.ofByte 0x09 = none by decide)
      (show _ = 0x09 :: packI ([] : Bytes).length ++ [] ++ [] by decide)
  exact ⟨(Reachable.init 0).run unknownRun rfl, s₁, s₂, h₁, h₂, h₃, hp peerA (by decide)⟩

end SentinelRelay
