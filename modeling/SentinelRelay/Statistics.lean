import SentinelRelay.Provenance
import Mathlib.Algebra.Order.BigOperators.Group.Finset
import Mathlib.Algebra.Order.BigOperators.Group.List
import Mathlib.Data.Nat.Digits

/-!
# The bytes the relay counts as relayed

`self.stats` (lines 93-98 of `src/relay/relay_server.py`) holds the counters the handlers
bump; `total_bytes_relayed` grows once a relayed frame is drained (line 354), and the sender's
record takes the same bytes in a critical section of its own (lines 356-357).  Over every run,
whatever the interleaving of the handlers and the janitor (`Server.Counted`,
`Reachable.counted`), the `relayed_bytes` of the records, with the bytes of each handler between
its two updates (`Server.unaccounted`), stay within `total_bytes_relayed`
(`relayed_bytes_within_total`): re-registrations and removals only take bytes away.

`get_stats` (lines 585-591) is `Server.getStats`.  It takes no lock, so it can read the indices
while `_remove_peer` is suspended in a drain, in a state that lies inside a step of this model;
nothing is proved here about what it reports.
-/

namespace SentinelRelay

/-! ## Keys and sums of a dictionary -/

section Dict

variable {α β : Type} [DecidableEq α] {d : List (α × β)} {k : α} {v : β}

/-- The value `d[k] = v` replaces is the one `d.lookup k` finds. -/
theorem sum_dictSet (g : β → Nat) (d : List (α × β)) (k : α) (v : β) :
    ((dictSet d k v).map fun e => g e.2).sum + ((d.lookup k).map g).getD 0 =
      (d.map fun e => g e.2).sum + g v := by
  induction d with
  | nil => simp [dictSet]
  | cons e d ih =>
    obtain ⟨k', v'⟩ := e
    by_cases h : k' = k
    · subst h; simp [dictSet]; omega
    · simp only [dictSet, h, if_false, List.map_cons, List.sum_cons, lookup_cons_ite, Ne.symm h]
      omega

theorem sum_dictErase_le (g : β → Nat) (d : List (α × β)) (k : α) :
    ((dictErase d k).map fun e => g e.2).sum ≤ (d.map fun e => g e.2).sum :=
  ((List.filter_sublist d).map _).sum_le_sum fun _ _ => Nat.zero_le _

theorem mem_of_lookup (h : d.lookup k = some v) : (k, v) ∈ d := by
  obtain ⟨l₁, l₂, rfl, -⟩ := List.lookup_eq_some_iff.1 h
  simp

end Dict

/-! ## The counters -/

/-- The dictionary `get_stats` returns (lines 585-591): `self.stats`, with `active_peers` and
`active_sessions` counted from the indices. -/
structure StatsReport where
  total_connections : Nat
  total_bytes_relayed : Nat
  total_introductions : Nat
  active_sessions : Nat
  active_peers : Nat
  deriving DecidableEq

/-- `get_stats`. -/
def Server.getStats (s : Server) : StatsReport :=
  { total_connections := s.stats.total_connections
    total_bytes_relayed := s.stats.total_bytes_relayed
    total_introductions := s.stats.total_introductions
    active_sessions := s.registry.sessions.length
    active_peers := s.registry.peers.length }

/-- The bytes a handler has added to `total_bytes_relayed` and not yet to its record. -/
def Phase.unaccounted : Phase → Nat
  | .accounting _ n => n
  | _ => 0

/-- The bytes of `total_bytes_relayed` that no record counts yet: those of every handler
between the two updates of lines 354-357. -/
def Server.unaccounted (s : Server) : Nat :=
  ∑ c ∈ Finset.range s.next, ((s.conns c).map (·.phase.unaccounted)).getD 0

/-- The bytes the records count as relayed from their peers. -/
def Registry.relayedTotal (r : Registry) : Nat := (r.peers.map fun e => e.2.relayed_bytes).sum

@[simp] theorem Conn.phase_core (conn : Conn) : conn.core.phase = conn.phase := rfl

/-- `total_bytes_relayed` against the state: every connection accepted is kept, and the
records' `relayed_bytes`, with the bytes of the handlers between their two updates, stay within
`total_bytes_relayed`. -/
structure Server.Counted (s : Server) : Prop where
  live : ∀ c < s.next, (s.conns c).isSome
  relayed : s.registry.relayedTotal + s.unaccounted ≤ s.stats.total_bytes_relayed

section Relayed

variable {r : Registry}

theorem relayedTotal_register (r : Registry) (info : PeerInfo) :
    (r.register info).relayedTotal ≤ r.relayedTotal + info.relayed_bytes := by
  have := sum_dictSet (fun i : PeerInfo => i.relayed_bytes) r.peers info.peer_id info
  unfold Registry.relayedTotal
  simp only [Registry.register]
  omega

theorem relayedTotal_removePeer (r : Registry) (p : ShortStr) :
    (r.removePeer p).1.relayedTotal ≤ r.relayedTotal := by
  unfold Registry.removePeer
  split
  · exact le_rfl
  · exact sum_dictErase_le _ _ _

/-- A change to one record that adds at most `n` to its `relayed_bytes` adds at most `n` to the
total. -/
theorem relayedTotal_modifyPeer (r : Registry) (p : ShortStr) {f : PeerInfo → PeerInfo} {n : Nat}
    (hf : ∀ i, (f i).relayed_bytes ≤ i.relayed_bytes + n) :
    (r.modifyPeer p f).relayedTotal ≤ r.relayedTotal + n := by
  unfold Registry.modifyPeer
  split
  · rename_i peer hp
    have h₁ := sum_dictSet (fun i : PeerInfo => i.relayed_bytes) r.peers p (f peer)
    have h₂ := hf peer
    rw [hp] at h₁
    unfold Registry.relayedTotal
    simp only [Option.map_some', Option.getD_some] at h₁ ⊢
    omega
  · omega

theorem relayedTotal_updateHeartbeat (r : Registry) (p : ShortStr) (now : Nat) :
    (r.updateHeartbeat p now).relayedTotal ≤ r.relayedTotal :=
  relayedTotal_modifyPeer r p (n := 0) fun _ => le_rfl

theorem relayedTotal_updateExternalAddr (r : Registry) (p external_ip : ShortStr) :
    (r.updateExternalAddr p external_ip).relayedTotal ≤ r.relayedTotal :=
  relayedTotal_modifyPeer r p (n := 0) fun _ => le_rfl

theorem relayedTotal_addRelayedBytes (r : Registry) (p : ShortStr) (n : Nat) :
    (r.addRelayedBytes p n).relayedTotal ≤ r.relayedTotal + n :=
  relayedTotal_modifyPeer r p fun _ => le_rfl

end Relayed

namespace Server

variable {s s' : Server} {c d : ConnId} {conn conn₀ : Conn} {x : Sent}

theorem unaccounted_of_core (hn : s'.next = s.next)
    (h : ∀ c, (s'.conns c).map Conn.core = (s.conns c).map Conn.core) :
    s'.unaccounted = s.unaccounted := by
  unfold unaccounted
  rw [hn]
  refine Finset.sum_congr rfl fun c _ => ?_
  have := congrArg (fun o => (o.map fun k : Conn => k.phase.unaccounted).getD 0) (h c)
  simpa only [Option.map_map, Function.comp_def, Conn.phase_core] using this

/-- A connection that goes to a phase with no more unaccounted bytes lowers the sum. -/
theorem unaccounted_setConn_le (hc : s.conns c = some conn₀)
    (hp : conn.phase.unaccounted ≤ conn₀.phase.unaccounted) :
    (s.setConn c conn).unaccounted ≤ s.unaccounted := by
  unfold unaccounted
  refine Finset.sum_le_sum fun d _ => ?_
  rw [conns_setConn]
  split_ifs with hd
  · subst hd; simpa [hc] using hp
  · exact le_rfl

/-- Replacing connection `c`, one of those accepted, changes the sum by its own term. -/
theorem unaccounted_setConn (conn : Conn) (hc : s.conns c = some conn₀) (hlt : c < s.next) :
    (s.setConn c conn).unaccounted + conn₀.phase.unaccounted =
      s.unaccounted + conn.phase.unaccounted := by
  have hmem := Finset.mem_range.2 hlt
  have hrest : ∑ d ∈ (Finset.range s.next).erase c,
      (((s.setConn c conn).conns d).map fun k : Conn => k.phase.unaccounted).getD 0 =
      ∑ d ∈ (Finset.range s.next).erase c, ((s.conns d).map fun k : Conn => k.phase.unaccounted).getD 0 :=
    Finset.sum_congr rfl fun d hd => by rw [conns_setConn, if_neg (Finset.ne_of_mem_erase hd)]
  unfold unaccounted
  rw [next_setConn, ← Finset.add_sum_erase _ _ hmem, ← Finset.add_sum_erase _ _ hmem, hrest]
  simp [hc]
  omega

theorem unaccounted_accept (peername : Option (Host × UInt16)) :
    (s.accept peername).unaccounted = s.unaccounted := by
  unfold unaccounted
  rw [next_accept, Finset.sum_range_succ, conns_accept, if_pos rfl]
  refine (Nat.add_zero _).trans (Finset.sum_congr rfl fun d hd => ?_)
  rw [conns_accept, if_neg (Finset.mem_range.1 hd).ne]

namespace Counted

theorem of_core (h : s.Counted) (hr : s'.registry = s.registry) (hst : s'.stats = s.stats)
    (hn : s'.next = s.next) (hc : ∀ c, (s'.conns c).map Conn.core = (s.conns c).map Conn.core) :
    s'.Counted where
  live d hd := by
    have := congrArg Option.isSome (hc d)
    simp only [Option.isSome_map'] at this
    rw [this]; exact h.live d (hn ▸ hd)
  relayed := by rw [hr, hst, unaccounted_of_core hn hc]; exact h.relayed

theorem write (h : s.Counted) : (s.write d x).Counted :=
  h.of_core rfl rfl rfl fun _ => core_conns_write

theorem writeAll (h : s.Counted) (ws : List (ConnId × Frame)) : (s.writeAll ws).Counted :=
  h.of_core registry_writeAll stats_writeAll next_writeAll fun _ => core_conns_writeAll ws

theorem live_setConn (h : s.Counted) : ∀ d < s.next, ((s.setConn c conn).conns d).isSome := by
  intro d hd
  rw [conns_setConn]; split_ifs
  · rfl
  · exact h.live d hd

theorem setConn (h : s.Counted) (hc : s.conns c = some conn₀)
    (hp : conn.phase.unaccounted ≤ conn₀.phase.unaccounted) : (s.setConn c conn).Counted where
  live := h.live_setConn
  relayed := (Nat.add_le_add_left (unaccounted_setConn_le hc hp) _).trans h.relayed

theorem setRegistry (h : s.Counted) {r : Registry} (hle : r.relayedTotal ≤ s.registry.relayedTotal) :
    (s.setRegistry r).Counted :=
  ⟨h.live, (Nat.add_le_add_right hle _).trans h.relayed⟩

theorem with_registry (h : s.Counted) {r : Registry}
    (hle : r.relayedTotal ≤ s.registry.relayedTotal) : { s with registry := r }.Counted :=
  ⟨h.live, (Nat.add_le_add_right hle _).trans h.relayed⟩

theorem removePeer (h : s.Counted) (p : ShortStr) : (s.removePeer p).Counted :=
  (h.setRegistry (relayedTotal_removePeer _ p)).writeAll _

theorem closeStep (h : s.Counted) : (s.closeStep c conn).Counted := by
  have hclose : ∀ {s : Server}, s.Counted → (s.closeWriter c).Counted := by
    intro s h
    unfold Server.closeWriter; split
    · exact h.setConn ‹_› (Nat.zero_le _)
    · exact h
  unfold Server.closeStep; split
  · exact hclose (h.removePeer _)
  · exact hclose h

theorem accept (h : s.Counted) (peername : Option (Host × UInt16)) : (s.accept peername).Counted where
  live d hd := by
    rw [conns_accept]; split_ifs with hdn
    · rfl
    · exact h.live d (Nat.lt_of_le_of_ne (Nat.le_of_lt_succ hd) hdn)
  relayed := by rw [unaccounted_accept]; exact h.relayed

/-- A relayed frame drained: its `n` bytes go into `total_bytes_relayed` as the handler takes
them as unaccounted. -/
theorem drained (h : s.Counted) (hc : s.conns c = some conn₀) (hlt : c < s.next) {n : Nat}
    (h₀ : conn₀.phase.unaccounted = 0) (hn : conn.phase.unaccounted = n) :
    { s.setConn c conn with
      stats := { s.stats with total_bytes_relayed := s.stats.total_bytes_relayed + n } }.Counted := by
  have hu := unaccounted_setConn conn hc hlt
  refine ⟨h.live_setConn, ?_⟩
  show s.registry.relayedTotal + (s.setConn c conn).unaccounted ≤ s.stats.total_bytes_relayed + n
  have := h.relayed
  omega

/-- The unaccounted `n` bytes of a handler go into a record, which takes at most `n` more. -/
theorem accounted (h : s.Counted) (hc : s.conns c = some conn₀) (hlt : c < s.next) {n : Nat}
    {r : Registry} (hn : conn₀.phase.unaccounted = n) (h₀ : conn.phase.unaccounted = 0)
    (hle : r.relayedTotal ≤ s.registry.relayedTotal + n) :
    { s.setConn c conn with registry := r }.Counted := by
  have hu := unaccounted_setConn conn hc hlt
  refine ⟨h.live_setConn, ?_⟩
  show r.relayedTotal + (s.setConn c conn).unaccounted ≤ s.stats.total_bytes_relayed
  have := h.relayed
  omega

/-- Whatever `_handle_message` does with a frame, the counters keep their meaning: it leaves
the handler in a phase with nothing unaccounted, stores a record with no bytes relayed, or
changes a record's heartbeat or NAT type. -/
theorem handleMessage {t : MessageType} {payload : Bytes} {idx : Nat} (h : s.Counted)
    (hc : s.conns c = some conn₀) (hr : conn.phase = .reading) :
    (s.handleMessage c conn t payload idx).Counted := by
  have setC : ∀ {k : Conn}, k.phase.unaccounted = 0 → (s.setConn c k).Counted :=
    fun hk => h.setConn hc (hk ▸ Nat.zero_le _)
  have hz : conn.phase.unaccounted = 0 := by rw [hr]; rfl
  unfold Server.handleMessage
  split
  · unfold Server.handleRegister; split
    · exact (setC (by exact hz)).write
    · exact (setC (by rfl)).setRegistry (by simpa using relayedTotal_register s.registry _)
  · unfold Server.handlePeerList; split
    · exact (setC hz).write
    · exact setC (by rfl)
  · unfold Server.handleRelayData; split
    · exact setC hz
    · split
      · exact setC hz
      · exact (setC (by rfl)).write
  · exact ((setC hz).with_registry (relayedTotal_updateHeartbeat _ _ _)).write
  · unfold Server.handleConnectRequest; split
    · exact (setC hz).write
    · split
      · exact (setC hz).write
      · exact (setC (by rfl)).write
  · unfold Server.handlePunchRequest; split
    · exact (setC hz).write
    · split
      · exact (setC hz).write
      · split
        · exact (setC hz).write
        · exact (setC (by rfl)).write
  · unfold Server.updateExternalAddr; split
    · exact setC hz
    · exact (setC hz).with_registry (relayedTotal_updateExternalAddr _ _ _)
  · exact setC hz

/-- One step of a handler keeps the counters: the drained relay moves its bytes into
`total_bytes_relayed` and the handler's unaccounted bytes at once, and the next step moves them
from there into the sender's record. -/
theorem handlerStep (h : s.Counted) (hfresh : ∀ d, s.next ≤ d → s.conns d = none)
    (hs : s.handlerStep c = some s') : s'.Counted := by
  unfold Server.handlerStep at hs
  split at hs
  · cases hs
  · rename_i conn hc
    have hlt : c < s.next := Nat.lt_of_not_le fun hle => by rw [hfresh c hle] at hc; cases hc
    have setC : ∀ {k : Conn}, k.phase.unaccounted = 0 → (s.setConn c k).Counted :=
      fun hk => h.setConn hc (hk ▸ Nat.zero_le _)
    split at hs
    · rename_i hr
      unfold Server.readStep at hs
      split at hs
      · cases hs; exact h.handleMessage hc hr
      all_goals first
        | (split_ifs at hs; cases hs; exact setC (by rfl))
        | (cases hs; exact setC (by rfl))
    · cases hs; exact ((setC (by rfl)).writeAll _).write
    · rename_i p w n hph
      split at hs
      · split at hs
        · cases hs; exact setC (by rfl)
        · cases hs; exact h.drained hc hlt (by rw [hph]; rfl) rfl
      · cases hs; exact setC (by rfl)
    · rename_i p n hph
      cases hs
      exact h.accounted hc hlt (by rw [hph]; rfl) rfl (relayedTotal_addRelayedBytes s.registry p n)
    · cases hs
      have h₁ := setC (k := { conn with phase := .reading }) rfl
      exact write ⟨h₁.live, h₁.relayed⟩
    · cases hs; exact (setC (by rfl)).write
    · cases hs; exact h.closeStep
    · cases hs

theorem step (h : s.Counted) (hfresh : ∀ d, s.next ≤ d → s.conns d = none) {e : Event}
    (hs : s.step e = some s') : s'.Counted := by
  rcases step_cases hs with ⟨peername, -, rfl⟩ | ⟨c, _, _, _, _, hc, rfl, -⟩ | ⟨_, -, rfl⟩ |
    ⟨c, -, hs⟩ | ⟨-, rfl⟩
  · exact h.accept peername
  · exact h.setConn hc le_rfl
  · exact ⟨h.live, h.relayed⟩
  · exact h.handlerStep hfresh hs
  · rcases janitorStep_cases s with ⟨j, hj⟩ | ⟨p, j, hj⟩ <;> rw [hj]
    · exact ⟨h.live, h.relayed⟩
    · exact ⟨(h.removePeer p).live, (h.removePeer p).relayed⟩

end Counted

end Server

/-- Every reachable state keeps its counters. -/
theorem Reachable.counted {s : Server} (hs : Reachable s) : s.Counted := by
  induction hs with
  | init => exact ⟨fun _ h => absurd h (Nat.not_lt_zero _), by
      simp [Server.unaccounted, Server.init, Registry.relayedTotal, Registry.empty]⟩
  | step e hr h ih => exact ih.step hr.relayOrder.fresh h

/-! ## The theorems -/

/-- **The relayed bytes stay within the total.**  In every reachable state, whatever the
interleaving of the handlers, re-registrations and removals, the `relayed_bytes` of all the
records, with the bytes each handler has added to `total_bytes_relayed` and not yet to its
sender's record, never exceed `total_bytes_relayed`: no record counts more bytes than the
server has relayed. -/
theorem relayed_bytes_within_total {s : Server} (hs : Reachable s) :
    s.registry.relayedTotal + s.unaccounted ≤ s.stats.total_bytes_relayed ∧
    ∀ p info, s.registry.peers.lookup p = some info →
      info.relayed_bytes ≤ s.stats.total_bytes_relayed := by
  have h := hs.counted.relayed
  refine ⟨h, fun p info hp => ?_⟩
  have : info.relayed_bytes ≤ s.registry.relayedTotal :=
    List.le_sum_of_mem (List.mem_map_of_mem (fun e => e.2.relayed_bytes) (mem_of_lookup hp))
  omega

/-- After `relayRun`, the record of `a` counts no more bytes than the relay has relayed. -/
theorem relayed_bytes_within_total_relay :
    relayState.registry.relayedTotal + relayState.unaccounted ≤ relayState.stats.total_bytes_relayed ∧
    ∃ info, relayState.registry.peers.lookup peerA = some info ∧
      info.relayed_bytes ≤ relayState.stats.total_bytes_relayed := by
  obtain ⟨h₁, h₂⟩ := relayed_bytes_within_total reachable_relayState
  obtain ⟨info, hinfo⟩ :=
    Option.isSome_iff_exists.1 (show (relayState.registry.peers.lookup peerA).isSome by decide)
  exact ⟨h₁, info, hinfo, h₂ _ _ hinfo⟩

end SentinelRelay
