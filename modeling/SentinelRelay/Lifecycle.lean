import SentinelRelay.Delivery

/-!
# When records go: the close of a connection and the janitor

Two paths remove a record, both through `_remove_peer`, which is keyed by the peer id alone.

* The `finally` block of `_handle_client` removes the record of the handler's `peer_id`,
  whoever registered it (`closeStep_removes_record`).  When a second connection has
  re-registered the id, the first one's close removes the second one's record, and the second
  connection stays open with no record (`close_removes_displacing_record`).
* `_cleanup_loop` scans the records under the lock and then removes the stale ids one
  `_remove_peer` at a time, each taking the lock again.  A scanned id is removed whatever its
  record has become in between (`janitorStep_evicts_scanned`): a peer that sends a `HEARTBEAT`
  after the scan is evicted all the same (`janitor_evicts_refreshed_record`).
-/

namespace SentinelRelay

/-- **Closing removes the record of the handler's id, whoever registered it.** -/
theorem closeStep_removes_record {s : Server} {c : ConnId} {conn : Conn} {p : ShortStr}
    (hp : registered conn.peer_id = some p) :
    (s.closeStep c conn).registry.peers.lookup p = none := by
  simp [Server.closeStep, hp]

/-- Connections 0 and 1 register the same id `a` in `s`; then the client of connection 0 hangs
up. -/
def displacedRun : List Event :=
  [.accept none, .accept none] ++ registerRun 0 peerA sessionS ++ registerRun 1 peerA sessionS ++
    [.hangup 0, .handler 0, .handler 0]

/-- **Closing one connection removes the record another one registered**: after the run,
connection 1 is open and reading as `a`, and `a` has no record and no session. -/
theorem close_removes_displacing_record :
    ((Server.init 0).run displacedRun).map
        (fun s => (s.conns 1).map fun conn => (conn.peer_id, conn.lost, conn.phase)) =
      some (some (some peerA, false, .reading)) ∧
    ((Server.init 0).run displacedRun).map (fun s => (s.registry.peers, s.registry.sessions)) =
      some ([], []) := by
  constructor <;> decide

/-- The scan of `_cleanup_loop` keeps exactly the records more than 90 s older than `now`. -/
theorem mem_staleScan {r : Registry} {now : Nat} {e : ShortStr × PeerInfo} :
    e ∈ r.staleScan now ↔ e ∈ r.peers ∧ 90000 < now - e.2.last_heartbeat := by
  simp [Registry.staleScan]

/-- **The janitor removes a scanned id without looking at its record again.** -/
theorem janitorStep_evicts_scanned {s : Server} {now : Nat} {p : ShortStr} {old : PeerInfo}
    {rest : List (ShortStr × PeerInfo)} (hj : s.janitor = .evicting now ((p, old) :: rest)) :
    s.janitorStep.registry.peers.lookup p = none ∧ s.janitorStep.janitor = .evicting now rest := by
  simp [Server.janitorStep, hj]

/-- `a` and `b` register in `s` at time 0 and stay silent; at 100 s the janitor scans and
removes `a`; then `b` sends a `HEARTBEAT`. -/
def staleRun : List Event :=
  [.accept none, .accept none] ++ registerRun 0 peerA sessionS ++ registerRun 1 peerB sessionS ++
    [.tick 100000, .janitor, .janitor, .sendFrame 1 .HEARTBEAT [], .handler 1]

/-- **The janitor evicts a record refreshed after its scan**: after the run, the record of `b`
has its last heartbeat at the pass's reference time, the janitor still holds `b` as found stale
with the heartbeat of time 0, and its next step leaves `b` with no record. -/
theorem janitor_evicts_refreshed_record :
    ((Server.init 0).run staleRun).map
        (fun s => (s.registry.peers.lookup peerB).map (·.last_heartbeat)) = some (some 100000) ∧
    ((Server.init 0).run staleRun).map (fun s =>
        match s.janitor with
        | .evicting now stale => some (now, stale.map fun e => (e.1, e.2.last_heartbeat))
        | .sleeping => none) = some (some (100000, [(peerB, 0)])) ∧
    ((Server.init 0).run staleRun).map
        (fun s => (s.janitorStep.registry.peers.lookup peerB).isSome) = some false := by
  refine ⟨?_, ?_, ?_⟩ <;> decide

end SentinelRelay
