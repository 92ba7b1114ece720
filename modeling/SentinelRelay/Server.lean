import SentinelRelay.Registry
import Mathlib.Logic.Function.Basic

/-!
# The relay server: connections, handler tasks, the janitor, one step of the event loop

`RelayServer` runs one `_handle_client` task per accepted connection and the `_cleanup_loop`
task on one asyncio event loop (lines 104-170 and 562-578 of `src/relay/relay_server.py`).  A
task runs without interruption from one suspension point to the next, so `Server.step` runs
one task to its next suspension point, or applies one event of the network or the clock:

* a handler is `reading` (in `reader.readexactly`), suspended in the drain of a write to
  another peer (`relaying`, `introducing`, `replying`), at an acquisition of the lock
  (`notifying`, `accounting`, `closing`), or `finished`;
* the janitor is `sleeping`, or part way through the ids its scan found stale (`evicting`);
* the network delivers bytes, an EOF or a reset to a connection, and the clock moves.

Each `async with self.lock` block is one step (a function of `Registry`).  The writes and
drains of `_notify_session_peers` and `_remove_peer` run while the lock is held, so no other
critical section interleaves with them.  `StreamWriter.write` is synchronous: a connection's
output is the list of frames written to it (`Sent`), each with the ghost record of the `DATA`
frame it relays.  Python iterates a set in hash order; the model iterates it in insertion
order.

Flow control is not modelled.  asyncio's `drain()` waits while the transport is paused, which
a peer that stops reading brings about, also under the lock in `_notify_session_peers` and
`_remove_peer`; here every drain is done at once, and the handler's drain after its own reply
is not a step of its own.  So the results of this development are safety properties, of every
run the model has, and none of them is a liveness result.  `get_stats` takes no lock: it can
run while `_remove_peer` is suspended in a drain, between deleting an emptied session set and
`del self.peers[peer_id]`, a state that lies inside a step of this model.
-/

namespace SentinelRelay

/-- A frame written to a connection.  `relayOf` is ghost: for a `DATA` frame that
`_handle_relay_data` forwards, the source connection and the index of the frame read there. -/
structure Sent where
  frame : Frame
  relayOf : Option (ConnId × Nat)
  deriving DecidableEq

/-- Where a connection's `_handle_client` task is suspended, with the locals it still needs. -/
inductive Phase where
  /-- In `reader.readexactly`, waiting for the next frame. -/
  | reading
  /-- Registered `info` (lines 247-273); about to take the lock in `_notify_session_peers`. -/
  | notifying (info : PeerInfo)
  /-- Wrote a relayed `DATA` frame carrying `n` bytes of data to `target`; in its drain. -/
  | relaying (from_peer_id : ShortStr) (target : ConnId) (n : Nat)
  /-- Relayed `n` bytes; about to take the lock to add them to `relayed_bytes`. -/
  | accounting (from_peer_id : ShortStr) (n : Nat)
  /-- Wrote `CONNECT` to the target; in its drain, with the `CONNECT_ACK` payload to return. -/
  | introducing (ack : Bytes)
  /-- Wrote `PUNCH_SYNC` to the target; in its drain, with the reply to return. -/
  | replying (reply : Frame)
  /-- Left the read loop; about to run the cleanup of the `finally` block. -/
  | closing
  /-- Closed its writer; the task is over. -/
  | finished
  deriving DecidableEq

/-- One accepted connection: what `_handle_client` knows of it, the state of its stream, and
the frames written to it. -/
structure Conn where
  /-- `client_ip`: `peername[0]`, or `'unknown'`. -/
  client_ip : Host
  /-- `client_port`: `peername[1]`, or `0`. -/
  client_port : UInt16
  /-- Bytes received and not yet read. -/
  input : Bytes
  /-- The peer sent EOF. -/
  eof : Bool
  /-- The transport is closed: writes to it are dropped and its drains fail. -/
  lost : Bool
  /-- The handler's local `peer_id`. -/
  peer_id : Option ShortStr
  /-- Where the handler is. -/
  phase : Phase
  /-- The frames written to the connection, oldest first. -/
  out : List Sent
  /-- Ghost: the frames the handler has read, oldest first. -/
  log : List (MessageType × Bytes)
  deriving DecidableEq

/-- The host of a connection whose `peername` is unavailable. -/
def unknownHost : Host := ⟨⟨"unknown", by decide⟩, by decide⟩

/-- A connection just accepted: `client_ip` and `client_port` from `peername`, nothing read,
written or registered yet. -/
def Conn.accepted (peername : Option (Host × UInt16)) : Conn :=
  let addr := peername.getD (unknownHost, 0)
  { client_ip := addr.1, client_port := addr.2, input := [], eof := false, lost := false,
    peer_id := none, phase := .reading, out := [], log := [] }

/-- `writer.write(msg)`: the frame is appended unless the transport is closed. -/
def Conn.write (conn : Conn) (x : Sent) : Conn :=
  if conn.lost then conn else { conn with out := conn.out ++ [x] }

/-- `self.stats`. -/
structure Stats where
  total_connections : Nat
  total_bytes_relayed : Nat
  total_introductions : Nat
  active_sessions : Nat
  deriving DecidableEq

/-- Where the `_cleanup_loop` task is. -/
inductive JanitorPhase where
  /-- In `asyncio.sleep(60)`. -/
  | sleeping
  /-- Removing the ids its scan at `now` found stale: `stale` holds those still to remove, each
  with the record the scan saw (ghost). -/
  | evicting (now : Nat) (stale : List (ShortStr × PeerInfo))
  deriving DecidableEq

/-- The relay: the registry, the statistics, the connections accepted so far (numbered from 0
in order of acceptance), the janitor, and `time.time()` in milliseconds. -/
structure Server where
  registry : Registry
  stats : Stats
  conns : ConnId → Option Conn
  next : ConnId
  janitor : JanitorPhase
  clock : Nat

/-- The handler's `peer_id` when `if current_peer_id:` holds: set, and not `''`. -/
def registered : Option ShortStr → Option ShortStr
  | some p => if p = ShortStr.empty then none else some p
  | none => none

namespace Server

/-- A server that has just started at time `clock`. -/
def init (clock : Nat) : Server :=
  ⟨.empty, ⟨0, 0, 0, 0⟩, fun _ => none, 0, .sleeping, clock⟩

/-- Replace the state of connection `c`. -/
def setConn (s : Server) (c : ConnId) (conn : Conn) : Server :=
  { s with conns := Function.update s.conns c (some conn) }

/-- `writer.write(msg)` on connection `c`. -/
def write (s : Server) (c : ConnId) (x : Sent) : Server :=
  { s with conns := Function.update s.conns c ((s.conns c).map (·.write x)) }

/-- The writes of a critical section, in order. -/
def writeAll (s : Server) (ws : List (ConnId × Frame)) : Server :=
  ws.foldl (fun s w => s.write w.1 ⟨w.2, none⟩) s

/-- The handler of `c` goes on as `conn` and writes `f` to its own connection. -/
def reply (s : Server) (c : ConnId) (conn : Conn) (f : Frame) : Server :=
  (s.setConn c conn).write c ⟨f, none⟩

/-- The registry after a critical section that may change the sessions, with
`active_sessions = len(self.sessions)`. -/
def setRegistry (s : Server) (r : Registry) : Server :=
  { s with registry := r, stats := { s.stats with active_sessions := r.sessions.length } }

/-- `await self._remove_peer(peer_id)`. -/
def removePeer (s : Server) (peer_id : ShortStr) : Server :=
  let (r, ws) := s.registry.removePeer peer_id
  (s.setRegistry r).writeAll ws

/-! ## The handlers of `_handle_message` -/

/-- `_handle_register` (lines 214-287) and the handler's use of its result.  A payload the
parser rejects is answered `ERROR(str(e))` and sets the handler's `peer_id` to `''`.  An
accepted one stores the record; the notification, the new `peer_id` and the ACK follow in the
`notifying` step. -/
def handleRegister (s : Server) (c : ConnId) (conn : Conn) (payload : Bytes) : Server :=
  match parseRegister payload with
  | .error e => s.reply c { conn with peer_id := some .empty } ⟨.ERROR, utf8Encode e.str⟩
  | .ok f =>
    let info : PeerInfo :=
      { peer_id := f.peer_id, session_code := f.session_code, writer := c,
        public_ip := conn.client_ip, public_port := conn.client_port,
        private_ip := f.private_ip, private_port := f.private_port,
        connected_at := s.clock, last_heartbeat := s.clock, nat_type := .unknown,
        relayed_bytes := 0 }
    (s.setConn c { conn with phase := .notifying info }).setRegistry (s.registry.register info)

/-- `_handle_peer_list` for `requester_id`; the `ValueError` of a count past 255 ends the
handler's loop. -/
def handlePeerList (s : Server) (c : ConnId) (conn : Conn) (requester_id : ShortStr) : Server :=
  match s.registry.peerList requester_id with
  | .ok f => s.reply c conn f
  | .error _ => s.setConn c { conn with phase := .closing }

/-- `_handle_relay_data` up to its drain: the relayed frame goes to the target's connection,
tagged with the source connection and the index `idx` of the frame it came in. -/
def handleRelayData (s : Server) (c : ConnId) (conn : Conn) (from_peer_id : ShortStr)
    (payload : Bytes) (idx : Nat) : Server :=
  match parseTarget payload with
  | .error _ => s.setConn c conn
  | .ok (target_id, data) =>
    match s.registry.relayTarget from_peer_id target_id with
    | none => s.setConn c conn
    | some target =>
      (s.setConn c { conn with phase := .relaying from_peer_id target.writer data.length }).write
        target.writer ⟨⟨.DATA, relayPayload from_peer_id data⟩, some (c, idx)⟩

/-- `_handle_connect_request` up to its drain: `CONNECT` to the target, the `CONNECT_ACK`
payload kept for the next step; a failed check or parse is answered `ERROR`. -/
def handleConnectRequest (s : Server) (c : ConnId) (conn : Conn) (from_peer_id : ShortStr)
    (payload : Bytes) : Server :=
  match parseTarget payload with
  | .error e => s.reply c conn ⟨.ERROR, utf8Encode e.str⟩
  | .ok (target_id, _) =>
    match s.registry.connectPeers from_peer_id target_id with
    | .error msg => s.reply c conn ⟨.ERROR, msg⟩
    | .ok (from_peer, target_peer) =>
      (s.setConn c { conn with phase := .introducing (connectPayload target_id target_peer) }).write
        target_peer.writer ⟨⟨.CONNECT, connectPayload from_peer_id from_peer⟩, none⟩

/-- `_handle_punch_request` up to its drain: both `PUNCH_SYNC` payloads carry
`punch_time = now + 500`; the target's is written, the requester's kept as the reply. -/
def handlePunchRequest (s : Server) (c : ConnId) (conn : Conn) (from_peer_id : ShortStr)
    (payload : Bytes) : Server :=
  match parseTarget payload with
  | .error e => s.reply c conn ⟨.ERROR, utf8Encode e.str⟩
  | .ok (target_id, _) =>
    match s.registry.punchPeers from_peer_id target_id with
    | .error msg => s.reply c conn ⟨.ERROR, msg⟩
    | .ok (from_peer, target_peer) =>
      match packQ (s.clock + 500) with
      | .error e => s.reply c conn ⟨.ERROR, utf8Encode e.str⟩
      | .ok time =>
        (s.setConn c { conn with
            phase := .replying ⟨.PUNCH_SYNC,
              punchPayload time target_peer.public_ip target_peer.public_port⟩ }).write
          target_peer.writer
          ⟨⟨.PUNCH_SYNC, punchPayload time from_peer.public_ip from_peer.public_port⟩, none⟩

/-- `_update_external_addr`: a payload the parser rejects is ignored. -/
def updateExternalAddr (s : Server) (c : ConnId) (conn : Conn) (peer_id : ShortStr)
    (payload : Bytes) : Server :=
  match parseExternalAddr payload with
  | .error _ => s.setConn c conn
  | .ok (external_ip, _) =>
    { s.setConn c conn with registry := s.registry.updateExternalAddr peer_id external_ip }

/-- `_handle_message` for a frame of type `t` read on `c`, the `idx`-th frame there, with the
handler's state `conn` after the read.  Frames other than `REGISTER` are ignored until the
handler's `peer_id` is truthy. -/
def handleMessage (s : Server) (c : ConnId) (conn : Conn) (t : MessageType) (payload : Bytes)
    (idx : Nat) : Server :=
  match t, registered conn.peer_id with
  | .REGISTER, _ => s.handleRegister c conn payload
  | .PEER_LIST, some p => s.handlePeerList c conn p
  | .DATA, some p => s.handleRelayData c conn p payload idx
  | .HEARTBEAT, some p =>
    { s.setConn c conn with registry := s.registry.updateHeartbeat p s.clock }.write c
      ⟨⟨.HEARTBEAT, []⟩, none⟩
  | .CONNECT, some p => s.handleConnectRequest c conn p payload
  | .PUNCH_REQUEST, some p => s.handlePunchRequest c conn p payload
  | .EXTERNAL_ADDR, some p => s.updateExternalAddr c conn p payload
  | _, _ => s.setConn c conn

/-! ## One step of a task -/

/-- The read loop of `_handle_client` on `c`: a whole frame is dispatched; a connection that
sent EOF before a whole frame, or a header with an unknown type (`MessageType(header[0])`
raises) or a length past 10 MiB, leaves the loop; otherwise the read waits. -/
def readStep (s : Server) (c : ConnId) (conn : Conn) : Option Server :=
  match readFrame conn.input with
  | .frame t payload rest =>
    some (s.handleMessage c { conn with input := rest, log := conn.log ++ [(t, payload)] } t
      payload conn.log.length)
  | .stop .closed | .stop .truncated =>
    if conn.eof then some (s.setConn c { conn with phase := .closing }) else none
  | .stop (.badType _) | .stop (.oversize _) => some (s.setConn c { conn with phase := .closing })

/-- `writer.close()` at the end of the handler of `c`. -/
def closeWriter (s : Server) (c : ConnId) : Server :=
  match s.conns c with
  | some conn => s.setConn c { conn with phase := .finished, lost := true }
  | none => s

/-- The `finally` block of `_handle_client`: `_remove_peer` for a truthy `peer_id`, then
`writer.close()`. -/
def closeStep (s : Server) (c : ConnId) (conn : Conn) : Server :=
  match registered conn.peer_id with
  | some p => (s.removePeer p).closeWriter c
  | none => s.closeWriter c

/-- The handler task of `c` runs to its next suspension point; `none` when it cannot run. -/
def handlerStep (s : Server) (c : ConnId) : Option Server :=
  match s.conns c with
  | none => none
  | some conn =>
    match conn.phase with
    | .reading => s.readStep c conn
    | .notifying info =>
      some (((s.setConn c { conn with phase := .reading, peer_id := some info.peer_id }).writeAll
        (s.registry.notifyWrites info)).write c ⟨⟨.REGISTER_ACK, utf8Encode "OK"⟩, none⟩)
    | .relaying from_peer_id target n =>
      match s.conns target with
      | some tc =>
        if tc.lost then some (s.setConn c { conn with phase := .reading })
        else some { s.setConn c { conn with phase := .accounting from_peer_id n } with
          stats := { s.stats with total_bytes_relayed := s.stats.total_bytes_relayed + n } }
      | none => some (s.setConn c { conn with phase := .reading })
    | .accounting from_peer_id n =>
      some { s.setConn c { conn with phase := .reading } with
        registry := s.registry.addRelayedBytes from_peer_id n }
    | .introducing ack =>
      some ({ s.setConn c { conn with phase := .reading } with
        stats := { s.stats with total_introductions := s.stats.total_introductions + 1 } }.write
          c ⟨⟨.CONNECT_ACK, ack⟩, none⟩)
    | .replying f => some (s.reply c { conn with phase := .reading } f)
    | .closing => some (s.closeStep c conn)
    | .finished => none

/-- The janitor runs to its next suspension point: on waking it scans the records under the
lock with `now = time.time()`, then removes the stale ids one `_remove_peer` at a time. -/
def janitorStep (s : Server) : Server :=
  match s.janitor with
  | .sleeping => { s with janitor := .evicting s.clock (s.registry.staleScan s.clock) }
  | .evicting _ [] => { s with janitor := .sleeping }
  | .evicting now ((peer_id, _) :: rest) => { s.removePeer peer_id with janitor := .evicting now rest }

/-! ## Events -/

/-- A new connection: `_handle_client` starts and counts it. -/
def accept (s : Server) (peername : Option (Host × UInt16)) : Server :=
  { s with
    conns := Function.update s.conns s.next (some (Conn.accepted peername))
    next := s.next + 1
    stats := { s.stats with total_connections := s.stats.total_connections + 1 } }

end Server

/-- What can happen next: a connection arrives; bytes, an EOF or a reset arrive on a
connection; the clock moves; a task runs. -/
inductive Event where
  | accept (peername : Option (Host × UInt16))
  | send (c : ConnId) (bytes : Bytes)
  | hangup (c : ConnId)
  | reset (c : ConnId)
  | tick (now : Nat)
  | handler (c : ConnId)
  | janitor

namespace Server

/-- One step of the event loop; `none` when the event cannot happen. -/
def step (s : Server) : Event → Option Server
  | .accept peername => some (s.accept peername)
  | .send c bytes =>
    match s.conns c with
    | some conn => if conn.eof then none else some (s.setConn c { conn with input := conn.input ++ bytes })
    | none => none
  | .hangup c =>
    match s.conns c with
    | some conn => some (s.setConn c { conn with eof := true })
    | none => none
  | .reset c =>
    match s.conns c with
    | some conn => some (s.setConn c { conn with input := [], eof := true, lost := true })
    | none => none
  | .tick now => some { s with clock := now }
  | .handler c => s.handlerStep c
  | .janitor => some s.janitorStep

/-- The events `es` in order from `s`, while each can happen. -/
def run (s : Server) : List Event → Option Server
  | [] => some s
  | e :: es => (s.step e).bind fun s' => s'.run es

end Server

/-! ## How the updates act on the fields -/

@[simp] theorem Conn.log_write (conn : Conn) (x : Sent) : (conn.write x).log = conn.log := by
  unfold Conn.write; split <;> rfl

@[simp] theorem Conn.phase_write (conn : Conn) (x : Sent) : (conn.write x).phase = conn.phase := by
  unfold Conn.write; split <;> rfl

@[simp] theorem Conn.peer_id_write (conn : Conn) (x : Sent) :
    (conn.write x).peer_id = conn.peer_id := by
  unfold Conn.write; split <;> rfl

@[simp] theorem Conn.input_write (conn : Conn) (x : Sent) : (conn.write x).input = conn.input := by
  unfold Conn.write; split <;> rfl

@[simp] theorem Conn.eof_write (conn : Conn) (x : Sent) : (conn.write x).eof = conn.eof := by
  unfold Conn.write; split <;> rfl

@[simp] theorem Conn.lost_write (conn : Conn) (x : Sent) : (conn.write x).lost = conn.lost := by
  unfold Conn.write; split <;> rfl

theorem Conn.out_write (conn : Conn) (x : Sent) :
    (conn.write x).out = if conn.lost then conn.out else conn.out ++ [x] := by
  unfold Conn.write; split <;> rfl

theorem Conn.out_prefix_write (conn : Conn) (x : Sent) : conn.out <+: (conn.write x).out := by
  rw [Conn.out_write]
  split_ifs
  · exact List.prefix_refl _
  · exact List.prefix_append _ _

/-- The connection without its output: what writes to it leave alone. -/
def Conn.core (conn : Conn) : Conn := { conn with out := [] }

@[simp] theorem Conn.core_write (conn : Conn) (x : Sent) : (conn.write x).core = conn.core := by
  unfold Conn.write; split <;> rfl

namespace Server

section Fields

variable {s : Server} {c d : ConnId} {conn : Conn} {x : Sent} {ws : List (ConnId × Frame)}
  {r : Registry}

@[simp] theorem registry_setConn : (s.setConn c conn).registry = s.registry := rfl
@[simp] theorem stats_setConn : (s.setConn c conn).stats = s.stats := rfl
@[simp] theorem next_setConn : (s.setConn c conn).next = s.next := rfl
@[simp] theorem janitor_setConn : (s.setConn c conn).janitor = s.janitor := rfl
@[simp] theorem clock_setConn : (s.setConn c conn).clock = s.clock := rfl

@[simp] theorem conns_setConn :
    (s.setConn c conn).conns d = if d = c then some conn else s.conns d :=
  Function.update_apply ..

@[simp] theorem registry_write : (s.write c x).registry = s.registry := rfl
@[simp] theorem stats_write : (s.write c x).stats = s.stats := rfl
@[simp] theorem next_write : (s.write c x).next = s.next := rfl
@[simp] theorem janitor_write : (s.write c x).janitor = s.janitor := rfl
@[simp] theorem clock_write : (s.write c x).clock = s.clock := rfl

@[simp] theorem conns_write :
    (s.write c x).conns d = if d = c then (s.conns c).map (·.write x) else s.conns d :=
  Function.update_apply ..

/-- The writes of a critical section change only the connections. -/
theorem writeAll_eq (s : Server) (ws : List (ConnId × Frame)) :
    s.writeAll ws = { s with conns := (s.writeAll ws).conns } := by
  induction ws generalizing s with
  | nil => rfl
  | cons w ws ih => exact ih _

@[simp] theorem registry_writeAll : (s.writeAll ws).registry = s.registry := by rw [writeAll_eq]
@[simp] theorem stats_writeAll : (s.writeAll ws).stats = s.stats := by rw [writeAll_eq]
@[simp] theorem next_writeAll : (s.writeAll ws).next = s.next := by rw [writeAll_eq]
@[simp] theorem janitor_writeAll : (s.writeAll ws).janitor = s.janitor := by rw [writeAll_eq]
@[simp] theorem clock_writeAll : (s.writeAll ws).clock = s.clock := by rw [writeAll_eq]

@[simp] theorem registry_setRegistry : (s.setRegistry r).registry = r := rfl
@[simp] theorem conns_setRegistry : (s.setRegistry r).conns = s.conns := rfl
@[simp] theorem next_setRegistry : (s.setRegistry r).next = s.next := rfl
@[simp] theorem janitor_setRegistry : (s.setRegistry r).janitor = s.janitor := rfl
@[simp] theorem clock_setRegistry : (s.setRegistry r).clock = s.clock := rfl

@[simp] theorem registry_removePeer (p : ShortStr) :
    (s.removePeer p).registry = (s.registry.removePeer p).1 := by
  simp [removePeer]

@[simp] theorem next_removePeer (p : ShortStr) : (s.removePeer p).next = s.next := by
  simp [removePeer]

@[simp] theorem conns_accept (peername : Option (Host × UInt16)) :
    (s.accept peername).conns d = if d = s.next then some (Conn.accepted peername) else s.conns d :=
  Function.update_apply ..

@[simp] theorem next_accept (peername : Option (Host × UInt16)) :
    (s.accept peername).next = s.next + 1 := rfl

@[simp] theorem registry_closeWriter : (s.closeWriter c).registry = s.registry := by
  unfold closeWriter; split <;> rfl

@[simp] theorem next_closeWriter : (s.closeWriter c).next = s.next := by
  unfold closeWriter; split <;> rfl

end Fields

/-! ## What writes leave alone -/

section Writes

variable {s : Server} {c d : ConnId} {conn : Conn} {x : Sent} {ws : List (ConnId × Frame)}

@[simp] theorem core_conns_write :
    ((s.write d x).conns c).map Conn.core = (s.conns c).map Conn.core := by
  rw [conns_write]
  split_ifs with h
  · subst h; cases s.conns c <;> simp
  · rfl

@[simp] theorem core_conns_writeAll (ws : List (ConnId × Frame)) :
    ((s.writeAll ws).conns c).map Conn.core = (s.conns c).map Conn.core := by
  induction ws generalizing s with
  | nil => rfl
  | cons w ws ih => rw [writeAll, List.foldl_cons, ← writeAll, ih, core_conns_write]

theorem core_conns_removePeer (p : ShortStr) :
    ((s.removePeer p).conns c).map Conn.core = (s.conns c).map Conn.core :=
  core_conns_writeAll (s := s.setRegistry (s.registry.removePeer p).1) _

/-- A write only appends to a connection's output, and leaves the rest of it alone. -/
theorem exists_conns_write (hc : s.conns c = some conn) :
    ∃ conn', (s.write d x).conns c = some conn' ∧ conn'.core = conn.core ∧
      conn.out <+: conn'.out := by
  rw [conns_write]
  split_ifs with h
  · subst h; rw [hc]; exact ⟨_, rfl, Conn.core_write _ _, Conn.out_prefix_write _ _⟩
  · exact ⟨conn, hc, rfl, List.prefix_refl _⟩

theorem exists_conns_writeAll (ws : List (ConnId × Frame)) (hc : s.conns c = some conn) :
    ∃ conn', (s.writeAll ws).conns c = some conn' ∧ conn'.core = conn.core ∧
      conn.out <+: conn'.out := by
  induction ws generalizing s conn with
  | nil => exact ⟨conn, hc, rfl, List.prefix_refl _⟩
  | cons w ws ih =>
    obtain ⟨conn₁, hc₁, hk₁, ho₁⟩ := exists_conns_write (d := w.1) (x := ⟨w.2, none⟩) hc
    obtain ⟨conn', hc', hk', ho'⟩ := ih hc₁
    exact ⟨conn', hc', hk'.trans hk₁, ho₁.trans ho'⟩

end Writes

/-! ## What one event can do -/

section Cases

variable {s s' : Server} {e : Event}

/-- **What one event can do**: a connection arrives; the network changes one connection's
unread input, EOF and transport (bytes that arrive before an EOF, an EOF, or a reset that drops
the unread bytes); the clock moves; a handler or the janitor runs to its next suspension
point. -/
theorem step_cases (hs : s.step e = some s') :
    (∃ peername, e = .accept peername ∧ s' = s.accept peername) ∨
    (∃ c conn input eof lost, s.conns c = some conn ∧
      s' = s.setConn c { conn with input := input, eof := eof, lost := lost } ∧
      ((∃ bytes, e = .send c bytes ∧ conn.eof = false ∧ input = conn.input ++ bytes ∧
          eof = false ∧ lost = conn.lost) ∨
        (e = .hangup c ∧ input = conn.input ∧ eof = true ∧ lost = conn.lost) ∨
        (e = .reset c ∧ input = [] ∧ eof = true ∧ lost = true))) ∨
    (∃ now, e = .tick now ∧ s' = { s with clock := now }) ∨
    (∃ c, e = .handler c ∧ s.handlerStep c = some s') ∨
    (e = .janitor ∧ s' = s.janitorStep) := by
  cases e with
  | accept peername => cases hs; exact .inl ⟨_, rfl, rfl⟩
  | send c bytes =>
    simp only [step] at hs
    split at hs
    · rename_i conn hc
      split_ifs at hs with he
      cases hs
      have he' : conn.eof = false := by simpa using he
      exact .inr (.inl ⟨c, conn, _, _, _, hc, rfl, .inl ⟨bytes, rfl, he', rfl, he', rfl⟩⟩)
    · cases hs
  | hangup c =>
    simp only [step] at hs
    split at hs
    · rename_i conn hc
      cases hs
      exact .inr (.inl ⟨c, conn, _, _, _, hc, rfl, .inr (.inl ⟨rfl, rfl, rfl, rfl⟩)⟩)
    · cases hs
  | reset c =>
    simp only [step] at hs
    split at hs
    · rename_i conn hc
      cases hs
      exact .inr (.inl ⟨c, conn, _, _, _, hc, rfl, .inr (.inr ⟨rfl, rfl, rfl, rfl⟩)⟩)
    · cases hs
  | tick now => cases hs; exact .inr (.inr (.inl ⟨now, rfl, rfl⟩))
  | handler c => exact .inr (.inr (.inr (.inl ⟨c, rfl, hs⟩)))
  | janitor => cases hs; exact .inr (.inr (.inr (.inr ⟨rfl, rfl⟩)))

/-- **What a step of the janitor can do**: take its scan, end its pass, or remove one id with
`_remove_peer`. -/
theorem janitorStep_cases (s : Server) :
    (∃ j, s.janitorStep = { s with janitor := j }) ∨
      ∃ p j, s.janitorStep = { s.removePeer p with janitor := j } := by
  unfold janitorStep
  split
  · exact .inl ⟨_, rfl⟩
  · exact .inl ⟨_, rfl⟩
  · exact .inr ⟨_, _, rfl⟩

end Cases

end Server

/-- The states the relay can reach from a start at any time. -/
inductive Reachable : Server → Prop
  | init (clock : Nat) : Reachable (Server.init clock)
  | step {s s' : Server} (e : Event) : Reachable s → s.step e = some s' → Reachable s'

theorem Reachable.run {s s' : Server} (hs : Reachable s) (es : List Event)
    (h : s.run es = some s') : Reachable s' := by
  induction es generalizing s with
  | nil => cases h; exact hs
  | cons e es ih =>
    simp only [Server.run, Option.bind_eq_some] at h
    obtain ⟨s₁, h₁, h₂⟩ := h
    exact ih (hs.step e h₁) h₂

end SentinelRelay
