import SentinelRelay.Peer

/-!
# The registry: `peers`, `sessions`, and the operations under the lock

`RelayServer.peers` maps a peer id to its `PeerInfo`, `RelayServer.sessions` a session code to
the set of peer ids registered under it (lines 84-88 of `src/relay/relay_server.py`).  Every
change to them happens inside `async with self.lock`, and no handler awaits between reading
and writing them there except to write to a socket, so each critical section is one function
on a `Registry`:

* `Registry.register` — lines 259-273 of `_handle_register`: discard the id from the set of its
  old session, store the record, add the id to the set of its session;
* `Registry.removePeer` — `_remove_peer`: discard the id, delete the set if it is now empty,
  write `DISCONNECT` to each remaining member, delete the record;
* `Registry.modifyPeer` — `_update_heartbeat`, `_update_external_addr` and the `relayed_bytes`
  update of `_handle_relay_data`, which change one field of a record;
* the reads of `_handle_peer_list`, `_notify_session_peers`, `_handle_relay_data`,
  `_handle_connect_request`, `_handle_punch_request` and `_cleanup_loop`.

`Registry.Consistent` is the agreement of the two indices.  `register_consistent`,
`removePeer_consistent` and `modifyPeer_consistent` keep it.
-/

namespace SentinelRelay

/-! ## Python dictionaries and sets -/

section Dict

variable {α β : Type} [DecidableEq α]

/-- `d[k] = v`: the entry of `k` replaced where it stands, or a new entry at the end. -/
def dictSet : List (α × β) → α → β → List (α × β)
  | [], k, v => [(k, v)]
  | e :: d, k, v => if e.1 = k then (k, v) :: d else e :: dictSet d k v

/-- `del d[k]`. -/
def dictErase (d : List (α × β)) (k : α) : List (α × β) := d.filter fun e => e.1 ≠ k

theorem lookup_cons_ite (d : List (α × β)) (k j : α) (v : β) :
    ((k, v) :: d).lookup j = if j = k then some v else d.lookup j := by
  by_cases h : j = k
  · subst h; simp [List.lookup_cons]
  · simp [List.lookup_cons, beq_eq_false_iff_ne.2 h, h]

@[simp] theorem lookup_dictSet (d : List (α × β)) (k j : α) (v : β) :
    (dictSet d k v).lookup j = if j = k then some v else d.lookup j := by
  induction d with
  | nil => simp [dictSet, lookup_cons_ite]
  | cons e d ih =>
    obtain ⟨k', v'⟩ := e
    by_cases h : k' = k
    · subst h; by_cases hj : j = k' <;> simp [dictSet, lookup_cons_ite, hj]
    · simp only [dictSet, h, if_false, lookup_cons_ite, ih]
      by_cases hj : j = k
      · subst hj; simp [Ne.symm h]
      · simp [hj]

@[simp] theorem lookup_dictErase (d : List (α × β)) (k j : α) :
    (dictErase d k).lookup j = if j = k then none else d.lookup j := by
  induction d with
  | nil => simp [dictErase]
  | cons e d ih =>
    obtain ⟨k', v'⟩ := e
    simp only [dictErase] at ih ⊢
    by_cases h : k' = k
    · subst h
      rw [List.filter_cons_of_neg (by simp), ih, lookup_cons_ite]
      by_cases hj : j = k' <;> simp [hj]
    · rw [List.filter_cons_of_pos (by simpa using h), lookup_cons_ite, ih, lookup_cons_ite]
      by_cases hj : j = k
      · subst hj; simp [Ne.symm h]
      · simp [hj]

/-- `s.add(x)`. -/
def setAdd (xs : List α) (x : α) : List α := if x ∈ xs then xs else xs ++ [x]

/-- `s.discard(x)`. -/
def setDiscard (xs : List α) (x : α) : List α := xs.filter fun y => y ≠ x

@[simp] theorem mem_setAdd {xs : List α} {x y : α} : y ∈ setAdd xs x ↔ y ∈ xs ∨ y = x := by
  unfold setAdd; split <;> simp_all

@[simp] theorem mem_setDiscard {xs : List α} {x y : α} : y ∈ setDiscard xs x ↔ y ∈ xs ∧ y ≠ x := by
  simp [setDiscard]

end Dict

/-! ## The registry -/

/-- `self.peers` and `self.sessions`. -/
structure Registry where
  peers : List (ShortStr × PeerInfo)
  sessions : List (ShortStr × List ShortStr)
  deriving DecidableEq

/-- The registry of a server that has just started. -/
def Registry.empty : Registry := ⟨[], []⟩

/-- `p` is a member of the set `d[s]`. -/
def memIn (d : List (ShortStr × List ShortStr)) (s p : ShortStr) : Prop :=
  ∃ ms, d.lookup s = some ms ∧ p ∈ ms

/-- `p` is a member of `sessions[s]`. -/
def Registry.mem (r : Registry) (s p : ShortStr) : Prop := memIn r.sessions s p

theorem mem_getD_lookup {d : List (ShortStr × List ShortStr)} {s p : ShortStr} :
    p ∈ (d.lookup s).getD [] ↔ memIn d s p := by
  unfold memIn; cases d.lookup s <;> simp

theorem memIn_dictSet {d : List (ShortStr × List ShortStr)} {k s p : ShortStr} {v : List ShortStr} :
    memIn (dictSet d k v) s p ↔ if s = k then p ∈ v else memIn d s p := by
  unfold memIn; split <;> simp_all

theorem memIn_dictErase {d : List (ShortStr × List ShortStr)} {k s p : ShortStr} :
    memIn (dictErase d k) s p ↔ s ≠ k ∧ memIn d s p := by
  unfold memIn; by_cases h : s = k <;> simp [h]

/-- `if old_session in self.sessions: self.sessions[old_session].discard(peer_id)`. -/
def discardFrom (sessions : List (ShortStr × List ShortStr)) (s peer_id : ShortStr) :
    List (ShortStr × List ShortStr) :=
  match sessions.lookup s with
  | some ms => dictSet sessions s (setDiscard ms peer_id)
  | none => sessions

/-- Lines 262-265 of `_handle_register`: the sessions once a record already stored under
`peer_id` is displaced from its session's set. -/
def Registry.displace (r : Registry) (peer_id : ShortStr) : List (ShortStr × List ShortStr) :=
  match r.peers.lookup peer_id with
  | some old => discardFrom r.sessions old.session_code peer_id
  | none => r.sessions

/-- The critical section of `_handle_register` (lines 247-273): a record displaced from the
same id is discarded from its old session's set (the set stays, even when it is now empty),
the new record is stored, and the id is added to its session's set. -/
def Registry.register (r : Registry) (info : PeerInfo) : Registry :=
  let sessions := r.displace info.peer_id
  { peers := dictSet r.peers info.peer_id info
    sessions := dictSet sessions info.session_code
      (setAdd ((sessions.lookup info.session_code).getD []) info.peer_id) }

/-- `_remove_peer`: nothing for an id with no record; otherwise the id is discarded from its
session's set, the set deleted if it is now empty, every remaining member with a record is sent
a `DISCONNECT` naming the id, and the record is deleted.  The writes are returned, each with
the connection it goes to. -/
def Registry.removePeer (r : Registry) (peer_id : ShortStr) : Registry × List (ConnId × Frame) :=
  match r.peers.lookup peer_id with
  | none => (r, [])
  | some peer =>
    let sessions := match r.sessions.lookup peer.session_code with
      | some ms =>
        if setDiscard ms peer_id = [] then dictErase r.sessions peer.session_code
        else dictSet r.sessions peer.session_code (setDiscard ms peer_id)
      | none => r.sessions
    (⟨dictErase r.peers peer_id, sessions⟩,
      ((sessions.lookup peer.session_code).getD []).filterMap fun other =>
        (r.peers.lookup other).map fun o => (o.writer, ⟨.DISCONNECT, disconnectPayload peer_id⟩))

/-- A change to one field of the record of `peer_id`, if it has one. -/
def Registry.modifyPeer (r : Registry) (peer_id : ShortStr) (f : PeerInfo → PeerInfo) :
    Registry :=
  match r.peers.lookup peer_id with
  | some peer => { r with peers := dictSet r.peers peer_id (f peer) }
  | none => r

/-- The critical section of `_update_heartbeat`: `last_heartbeat = time.time()`. -/
def Registry.updateHeartbeat (r : Registry) (peer_id : ShortStr) (now : Nat) : Registry :=
  r.modifyPeer peer_id fun p => { p with last_heartbeat := now }

/-- The critical section of `_update_external_addr`: `symmetric` when the reported IP differs
from the observed one, `cone` otherwise. -/
def Registry.updateExternalAddr (r : Registry) (peer_id external_ip : ShortStr) : Registry :=
  r.modifyPeer peer_id fun p =>
    { p with nat_type := if external_ip ≠ p.public_ip.ip then .symmetric else .cone }

/-- The last critical section of `_handle_relay_data`: `relayed_bytes += len(data)`. -/
def Registry.addRelayedBytes (r : Registry) (peer_id : ShortStr) (n : Nat) : Registry :=
  r.modifyPeer peer_id fun p => { p with relayed_bytes := p.relayed_bytes + n }

/-! ## The reads under the lock -/

/-- The writes of `_notify_session_peers` about a new record: a `PEER_LIST` of one entry to
every other member of its session's set that has a record. -/
def Registry.notifyWrites (r : Registry) (info : PeerInfo) : List (ConnId × Frame) :=
  ((r.sessions.lookup info.session_code).getD []).filterMap fun pid =>
    if pid ≠ info.peer_id then
      (r.peers.lookup pid).map fun p => (p.writer, ⟨.PEER_LIST, notifyPayload info.peer_id info⟩)
    else none

/-- The session mates `_handle_peer_list` lists for `requester`: every other member of its
session's set that has a record. -/
def Registry.mates (r : Registry) (requester : ShortStr) (session_code : ShortStr) :
    List PeerInfo :=
  ((r.sessions.lookup session_code).getD []).filterMap fun pid =>
    if pid ≠ requester then r.peers.lookup pid else none

/-- The reply of `_handle_peer_list`, or the `ValueError` of a count past 255. -/
def Registry.peerList (r : Registry) (requester : ShortStr) : Except PyError Frame :=
  match r.peers.lookup requester with
  | none => .ok ⟨.ERROR, utf8Encode "Not registered"⟩
  | some peer =>
    (fun payload => ⟨.PEER_LIST, payload⟩) <$> peerListPayload (r.mates requester peer.session_code)

/-- The checks of `_handle_relay_data` (lines 328-339): the target's record, unless it has none
or the sender has a record in another session. -/
def Registry.relayTarget (r : Registry) (from_peer_id target_id : ShortStr) : Option PeerInfo :=
  match r.peers.lookup target_id with
  | none => none
  | some target =>
    match r.peers.lookup from_peer_id with
    | some src => if src.session_code ≠ target.session_code then none else some target
    | none => some target

/-- The checks of `_handle_connect_request` (lines 373-384): both records, or the text of the
`ERROR` reply. -/
def Registry.connectPeers (r : Registry) (from_peer_id target_id : ShortStr) :
    Except Bytes (PeerInfo × PeerInfo) :=
  match r.peers.lookup target_id with
  | none => .error (utf8Encode "Peer not found")
  | some target =>
    match r.peers.lookup from_peer_id with
    | none => .error (utf8Encode "Not registered")
    | some src =>
      if src.session_code ≠ target.session_code then .error (utf8Encode "Session mismatch")
      else .ok (src, target)

/-- The checks of `_handle_punch_request` (lines 436-444): both records, or the text of the
`ERROR` reply.  There is no check of the sessions. -/
def Registry.punchPeers (r : Registry) (from_peer_id target_id : ShortStr) :
    Except Bytes (PeerInfo × PeerInfo) :=
  match r.peers.lookup target_id with
  | none => .error (utf8Encode "Peer not found")
  | some target =>
    match r.peers.lookup from_peer_id with
    | none => .error (utf8Encode "Not registered")
    | some src => .ok (src, target)

/-- The scan of `_cleanup_loop` at reference time `now`: every record whose last heartbeat is
more than 90 s before it, in the order of `peers`. -/
def Registry.staleScan (r : Registry) (now : Nat) : List (ShortStr × PeerInfo) :=
  r.peers.filter fun e => 90000 < now - e.2.last_heartbeat

/-! ## Consistency of the two indices -/

/-- The two indices agree: each record is stored under its own id and listed in its session's
set, and each member of a set has a record in that session. -/
structure Registry.Consistent (r : Registry) : Prop where
  key : ∀ p info, r.peers.lookup p = some info → info.peer_id = p
  listed : ∀ p info, r.peers.lookup p = some info → r.mem info.session_code p
  registered : ∀ s p, r.mem s p → ∃ info, r.peers.lookup p = some info ∧ info.session_code = s

theorem consistent_empty : Registry.empty.Consistent :=
  ⟨by simp [Registry.empty], by simp [Registry.empty], by simp [Registry.mem, Registry.empty, memIn]⟩

theorem memIn_discardFrom {d : List (ShortStr × List ShortStr)} {s t p q : ShortStr} :
    memIn (discardFrom d s q) t p ↔ memIn d t p ∧ (t = s → p ≠ q) := by
  unfold discardFrom
  split
  · rename_i ms h
    rw [memIn_dictSet]
    by_cases ht : t = s
    · subst ht; simp [memIn, h]
    · simp [ht]
  · rename_i h
    constructor
    · intro hm; exact ⟨hm, by rintro rfl; obtain ⟨ms, hms, -⟩ := hm; simp_all⟩
    · exact fun h' => h'.1

section Consistent

variable {r : Registry}

theorem Registry.Consistent.mem_peer (hr : r.Consistent) {s p : ShortStr} {info : PeerInfo}
    (hm : r.mem s p) (hp : r.peers.lookup p = some info) : info.session_code = s := by
  obtain ⟨info', h, rfl⟩ := hr.registered s p hm
  rw [hp] at h; cases h; rfl

theorem Registry.Consistent.not_mem (hr : r.Consistent) {s p : ShortStr}
    (hp : r.peers.lookup p = none) : ¬r.mem s p := fun hm => by
  obtain ⟨info, h, -⟩ := hr.registered s p hm
  rw [hp] at h; cases h

/-- Displacing a record leaves every set as it was, without the id. -/
theorem memIn_displace (hr : r.Consistent) {t p q : ShortStr} :
    memIn (r.displace q) t p ↔ r.mem t p ∧ p ≠ q := by
  unfold Registry.displace
  split
  · rename_i old hold
    rw [memIn_discardFrom]
    constructor
    · rintro ⟨hm, hne⟩; exact ⟨hm, fun hpq => hne (hr.mem_peer hm (hpq ▸ hold)).symm hpq⟩
    · rintro ⟨hm, hne⟩; exact ⟨hm, fun _ => hne⟩
  · rename_i hnone
    exact ⟨fun hm => ⟨hm, fun hpq => hr.not_mem (hpq ▸ hnone) hm⟩, fun h => h.1⟩

@[simp] theorem lookup_register (info : PeerInfo) (p : ShortStr) :
    (r.register info).peers.lookup p = if p = info.peer_id then some info else r.peers.lookup p :=
  lookup_dictSet _ _ _ _

/-- **What `register` does to the sets**: the id is a member of its new session's set and of
no other. -/
theorem mem_register (hr : r.Consistent) (info : PeerInfo) (s p : ShortStr) :
    (r.register info).mem s p ↔
      (s = info.session_code ∧ p = info.peer_id) ∨ (r.mem s p ∧ p ≠ info.peer_id) := by
  simp only [Registry.mem, Registry.register, memIn_dictSet, mem_setAdd, mem_getD_lookup]
  simp only [memIn_displace hr]
  by_cases hs : s = info.session_code
  · subst hs; simp only [if_true, true_and, Registry.mem]; exact or_comm
  · simp [hs, Registry.mem]

theorem register_consistent (hr : r.Consistent) (info : PeerInfo) :
    (r.register info).Consistent where
  key p i h := by
    rw [lookup_register] at h
    split at h
    · rename_i hp; cases h; exact hp.symm
    · exact hr.key p i h
  listed p i h := by
    rw [mem_register hr]
    rw [lookup_register] at h
    split at h
    · rename_i hp; cases h; exact .inl ⟨rfl, hp⟩
    · exact .inr ⟨hr.listed p i h, ‹_›⟩
  registered s p hm := by
    rw [mem_register hr] at hm
    rcases hm with ⟨rfl, rfl⟩ | ⟨hm, hne⟩
    · exact ⟨info, by simp, rfl⟩
    · obtain ⟨i, hi, hs⟩ := hr.registered s p hm
      exact ⟨i, by simp [hne, hi], hs⟩

@[simp] theorem lookup_removePeer (peer_id p : ShortStr) :
    (r.removePeer peer_id).1.peers.lookup p = if p = peer_id then none else r.peers.lookup p := by
  unfold Registry.removePeer
  split
  · rename_i h
    split
    · subst_vars; exact h
    · rfl
  · simp

/-- **What `removePeer` does to the sets**: the id is a member of none, the others stay. -/
theorem mem_removePeer (hr : r.Consistent) (peer_id s p : ShortStr) :
    (r.removePeer peer_id).1.mem s p ↔ r.mem s p ∧ p ≠ peer_id := by
  unfold Registry.removePeer
  split
  · rename_i hnone
    exact ⟨fun hm => ⟨hm, fun hp => hr.not_mem (hp ▸ hnone) hm⟩, fun h => h.1⟩
  · rename_i peer hpeer
    have hne : ∀ {t}, r.mem t peer_id → t = peer.session_code := fun hm => (hr.mem_peer hm hpeer).symm
    simp only [Registry.mem]
    split
    · rename_i ms hms
      have hsplit : memIn r.sessions s p ∧ p ≠ peer_id ↔
          if s = peer.session_code then p ∈ setDiscard ms peer_id else memIn r.sessions s p := by
        by_cases hs : s = peer.session_code
        · subst hs; simp [memIn, hms]
        · simp only [hs, if_false]
          exact ⟨fun h => h.1, fun h => ⟨h, fun hp => hs (hne (hp ▸ h))⟩⟩
      rw [hsplit]
      split
      · rename_i hempty
        rw [memIn_dictErase, hempty]
        by_cases hs : s = peer.session_code <;> simp [hs]
      · exact memIn_dictSet
    · rename_i hnone
      refine ⟨fun hm => ⟨hm, fun hp => ?_⟩, fun h => h.1⟩
      subst hp
      obtain ⟨ms, hms, hp⟩ := hm
      rw [hne ⟨ms, hms, hp⟩] at hms
      rw [hms] at hnone; cases hnone

theorem removePeer_consistent (hr : r.Consistent) (peer_id : ShortStr) :
    (r.removePeer peer_id).1.Consistent where
  key p i h := by
    rw [lookup_removePeer] at h
    split at h
    · cases h
    · exact hr.key p i h
  listed p i h := by
    rw [mem_removePeer hr]
    rw [lookup_removePeer] at h
    split at h
    · cases h
    · exact ⟨hr.listed p i h, ‹_›⟩
  registered s p hm := by
    rw [mem_removePeer hr] at hm
    obtain ⟨i, hi, hs⟩ := hr.registered s p hm.1
    exact ⟨i, by simp [hm.2, hi], hs⟩

@[simp] theorem sessions_modifyPeer (peer_id : ShortStr) (f : PeerInfo → PeerInfo) :
    (r.modifyPeer peer_id f).sessions = r.sessions := by
  unfold Registry.modifyPeer; split <;> rfl

theorem lookup_modifyPeer (peer_id p : ShortStr) (f : PeerInfo → PeerInfo) :
    (r.modifyPeer peer_id f).peers.lookup p =
      if p = peer_id then (r.peers.lookup p).map f else r.peers.lookup p := by
  unfold Registry.modifyPeer
  cases hl : r.peers.lookup peer_id with
  | none => by_cases hp : p = peer_id <;> simp [hp, hl]
  | some peer => by_cases hp : p = peer_id <;> simp [hp, hl]

/-- A change to a record that keeps its id and its session keeps the indices consistent. -/
theorem modifyPeer_consistent (hr : r.Consistent) (peer_id : ShortStr) {f : PeerInfo → PeerInfo}
    (hf : ∀ p, (f p).peer_id = p.peer_id ∧ (f p).session_code = p.session_code) :
    (r.modifyPeer peer_id f).Consistent where
  key p i h := by
    rw [lookup_modifyPeer] at h
    split at h
    · obtain ⟨i', h', rfl⟩ := Option.map_eq_some'.1 h
      rw [(hf i').1]; exact hr.key p i' h'
    · exact hr.key p i h
  listed p i h := by
    simp only [Registry.mem, sessions_modifyPeer]
    rw [lookup_modifyPeer] at h
    split at h
    · obtain ⟨i', h', rfl⟩ := Option.map_eq_some'.1 h
      rw [(hf i').2]; exact hr.listed p i' h'
    · exact hr.listed p i h
  registered s p hm := by
    simp only [Registry.mem, sessions_modifyPeer] at hm
    obtain ⟨i, hi, hs⟩ := hr.registered s p hm
    by_cases hp : p = peer_id
    · exact ⟨f i, by simp [lookup_modifyPeer, hp, hi] ; simp_all, (hf i).2 ▸ hs⟩
    · exact ⟨i, by simp [lookup_modifyPeer, hp, hi], hs⟩

end Consistent

/-! ## Sets without repeats -/

/-- Each set of `sessions` holds an id at most once, as a Python `set` does. -/
def Registry.Distinct (r : Registry) : Prop :=
  ∀ s ms, r.sessions.lookup s = some ms → ms.Nodup

section Distinct

variable {r : Registry}

theorem distinct_empty : Registry.empty.Distinct := by
  simp [Registry.Distinct, Registry.empty]

theorem nodup_setAdd {xs : List ShortStr} (h : xs.Nodup) (x : ShortStr) : (setAdd xs x).Nodup := by
  unfold setAdd
  split
  · exact h
  · exact h.append (List.nodup_singleton x) (by simpa [List.disjoint_singleton] using ‹_›)

theorem nodup_setDiscard {xs : List ShortStr} (h : xs.Nodup) (x : ShortStr) :
    (setDiscard xs x).Nodup :=
  h.filter _

/-- Replacing one set by a set without repeats keeps every set without repeats. -/
theorem distinct_dictSet {d : List (ShortStr × List ShortStr)}
    (hd : ∀ s ms, d.lookup s = some ms → ms.Nodup) {k : ShortStr} {v : List ShortStr}
    (hv : v.Nodup) : ∀ s ms, (dictSet d k v).lookup s = some ms → ms.Nodup := by
  intro s ms h
  rw [lookup_dictSet] at h
  split at h
  · cases h; exact hv
  · exact hd s ms h

theorem distinct_discardFrom {d : List (ShortStr × List ShortStr)}
    (hd : ∀ s ms, d.lookup s = some ms → ms.Nodup) (k p : ShortStr) :
    ∀ s ms, (discardFrom d k p).lookup s = some ms → ms.Nodup := by
  unfold discardFrom
  split
  · rename_i ms hms; exact distinct_dictSet hd (nodup_setDiscard (hd k ms hms) p)
  · exact hd

theorem register_distinct (hr : r.Distinct) (info : PeerInfo) : (r.register info).Distinct := by
  have hD : ∀ s ms, (r.displace info.peer_id).lookup s = some ms → ms.Nodup := by
    unfold Registry.displace; split
    · exact distinct_discardFrom hr _ _
    · exact hr
  refine distinct_dictSet hD (nodup_setAdd ?_ _)
  cases h : (r.displace info.peer_id).lookup info.session_code with
  | none => exact List.nodup_nil
  | some ms => exact hD _ _ h

theorem removePeer_distinct (hr : r.Distinct) (peer_id : ShortStr) :
    (r.removePeer peer_id).1.Distinct := by
  unfold Registry.removePeer
  split
  · exact hr
  · dsimp only
    split
    · rename_i ms hms
      split
      · intro s ms' h
        rw [lookup_dictErase] at h
        split at h
        · cases h
        · exact hr s ms' h
      · exact distinct_dictSet hr (nodup_setDiscard (hr _ ms hms) _)
    · exact hr

theorem modifyPeer_distinct (hr : r.Distinct) (peer_id : ShortStr) (f : PeerInfo → PeerInfo) :
    (r.modifyPeer peer_id f).Distinct := by
  intro s ms h
  rw [sessions_modifyPeer] at h
  exact hr s ms h

end Distinct

end SentinelRelay
