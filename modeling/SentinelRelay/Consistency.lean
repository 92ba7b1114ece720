import SentinelRelay.Server

/-!
# The registry over whole runs

Every step of the relay leaves the registry as it was, or applies one `register`, one
`_remove_peer`, or a change to one record that keeps its id and its session
(`RegistryMove`, `step_move`).  Each of these keeps the two indices consistent, so every
reachable state has consistent indices (`Reachable.consistent`), whatever the number of
connections and the interleaving of their handlers with the janitor.

The index of sessions is not free of empty sets: `register` discards a re-registered id from
its old session's set and leaves the set even when it is now empty
(`register_leaves_empty_set`), where `_remove_peer` deletes it.

A `REGISTER` whose payload the parser rejects changes no registry entry and writes only to its
sender (`step_register_rejected`); the parser rejects few of the payloads whose length
prefixes run past their end.
-/

namespace SentinelRelay

/-- What one step can do to the registry: nothing, one `register`, one `_remove_peer`, or a
change to one record that keeps its id and its session. -/
inductive RegistryMove (r : Registry) : Registry → Prop
  | stay : RegistryMove r r
  | register (info : PeerInfo) : RegistryMove r (r.register info)
  | remove (peer_id : ShortStr) : RegistryMove r (r.removePeer peer_id).1
  | modify (peer_id : ShortStr) (f : PeerInfo → PeerInfo)
      (hf : ∀ p, (f p).peer_id = p.peer_id ∧ (f p).session_code = p.session_code) :
      RegistryMove r (r.modifyPeer peer_id f)

theorem RegistryMove.of_eq {r r' : Registry} (h : r' = r) : RegistryMove r r' := h ▸ .stay

theorem RegistryMove.consistent {r r' : Registry} (h : RegistryMove r r') (hr : r.Consistent) :
    r'.Consistent := by
  cases h with
  | stay => exact hr
  | register info => exact register_consistent hr info
  | remove p => exact removePeer_consistent hr p
  | modify p f hf => exact modifyPeer_consistent hr p hf

theorem RegistryMove.distinct {r r' : Registry} (h : RegistryMove r r') (hr : r.Distinct) :
    r'.Distinct := by
  cases h with
  | stay => exact hr
  | register info => exact register_distinct hr info
  | remove p => exact removePeer_distinct hr p
  | modify p f => exact modifyPeer_distinct hr p f

namespace Server

section Moves

variable {s s' : Server} {c : ConnId} {conn : Conn} {p : ShortStr} {payload : Bytes}

@[simp] theorem registry_reply (f : Frame) : (s.reply c conn f).registry = s.registry := rfl

@[simp] theorem registry_handlePeerList : (s.handlePeerList c conn p).registry = s.registry := by
  unfold handlePeerList; split <;> rfl

@[simp] theorem registry_handleRelayData (idx : Nat) :
    (s.handleRelayData c conn p payload idx).registry = s.registry := by
  unfold handleRelayData; split
  · rfl
  · split <;> rfl

@[simp] theorem registry_handleConnectRequest :
    (s.handleConnectRequest c conn p payload).registry = s.registry := by
  unfold handleConnectRequest; split
  · rfl
  · split <;> rfl

@[simp] theorem registry_handlePunchRequest :
    (s.handlePunchRequest c conn p payload).registry = s.registry := by
  unfold handlePunchRequest; split
  · rfl
  · split
    · rfl
    · split <;> rfl

theorem move_handleRegister :
    RegistryMove s.registry (s.handleRegister c conn payload).registry := by
  unfold handleRegister; split
  · exact .stay
  · exact .register _

theorem move_updateExternalAddr :
    RegistryMove s.registry (s.updateExternalAddr c conn p payload).registry := by
  unfold updateExternalAddr; split
  · exact .stay
  · exact .modify _ _ fun _ => ⟨rfl, rfl⟩

theorem move_handleMessage (t : MessageType) (idx : Nat) :
    RegistryMove s.registry (s.handleMessage c conn t payload idx).registry := by
  unfold handleMessage
  split
  · exact move_handleRegister
  · exact .of_eq registry_handlePeerList
  · exact .of_eq (registry_handleRelayData _)
  · exact .modify _ _ fun _ => ⟨rfl, rfl⟩
  · exact .of_eq registry_handleConnectRequest
  · exact .of_eq registry_handlePunchRequest
  · exact move_updateExternalAddr
  · exact .stay

theorem move_readStep (h : s.readStep c conn = some s') : RegistryMove s.registry s'.registry := by
  unfold readStep at h
  split at h
  · cases h; exact move_handleMessage _ _
  all_goals first | (split_ifs at h; cases h; exact .stay) | (cases h; exact .stay)

theorem move_closeStep : RegistryMove s.registry (s.closeStep c conn).registry := by
  unfold closeStep
  split
  · rw [registry_closeWriter, registry_removePeer]; exact .remove _
  · exact .of_eq registry_closeWriter

theorem move_handlerStep (h : s.handlerStep c = some s') : RegistryMove s.registry s'.registry := by
  unfold handlerStep at h
  split at h
  · cases h
  · split at h
    · exact move_readStep h
    · cases h; exact .of_eq (by simp)
    · split at h
      · split at h <;> (cases h; exact .stay)
      · cases h; exact .stay
    · cases h; exact .modify _ _ fun _ => ⟨rfl, rfl⟩
    · cases h; exact .stay
    · cases h; exact .stay
    · cases h; exact move_closeStep
    · cases h

theorem move_janitorStep : RegistryMove s.registry s.janitorStep.registry := by
  rcases janitorStep_cases s with ⟨j, hj⟩ | ⟨p, j, hj⟩ <;> rw [hj]
  · exact .stay
  · dsimp only; rw [registry_removePeer]; exact .remove _

/-- **What a step can do to the registry.** -/
theorem step_move {e : Event} (h : s.step e = some s') : RegistryMove s.registry s'.registry := by
  rcases step_cases h with ⟨_, -, rfl⟩ | ⟨_, _, _, _, _, -, rfl, -⟩ | ⟨_, -, rfl⟩ | ⟨_, -, h⟩ |
    ⟨-, rfl⟩
  · exact .stay
  · exact .stay
  · exact .stay
  · exact move_handlerStep h
  · exact move_janitorStep

end Moves

end Server

/-- Every reachable state has consistent indices. -/
theorem Reachable.consistent {s : Server} (hs : Reachable s) : s.registry.Consistent := by
  induction hs with
  | init => exact consistent_empty
  | step e _ h ih => exact (Server.step_move h).consistent ih

/-- No set of a reachable state holds an id twice. -/
theorem Reachable.distinct {s : Server} (hs : Reachable s) : s.registry.Distinct := by
  induction hs with
  | init => exact distinct_empty
  | step e _ h ih => exact (Server.step_move h).distinct ih

/-- **Registry consistency.**  In every reachable state, whatever the connections and the
interleaving of their handlers, closes and janitor passes, each record is stored under its own
id, and that id is a member of its session's set and of no other; each member of a set has a
record in that session.  From such a state, registering an id twice leaves it in the second
session only, and removing it leaves it in neither index. -/
theorem reachable_registry_consistent {s : Server} (hs : Reachable s) :
    (∀ p info, s.registry.peers.lookup p = some info →
      info.peer_id = p ∧ s.registry.mem info.session_code p ∧
      ∀ sc, s.registry.mem sc p → sc = info.session_code) ∧
    (∀ sc p, s.registry.mem sc p →
      ∃ info, s.registry.peers.lookup p = some info ∧ info.session_code = sc) ∧
    (∀ i₁ i₂ : PeerInfo, i₁.peer_id = i₂.peer_id → ∀ sc,
      ((s.registry.register i₁).register i₂).mem sc i₂.peer_id ↔ sc = i₂.session_code) ∧
    (∀ p, (s.registry.removePeer p).1.peers.lookup p = none ∧
      ∀ sc, ¬(s.registry.removePeer p).1.mem sc p) := by
  have hr := hs.consistent
  refine ⟨fun p info h => ⟨hr.key p info h, hr.listed p info h, fun sc hm => (hr.mem_peer hm h).symm⟩,
    hr.registered, fun i₁ i₂ _ sc => ?_,
    fun p => ⟨by simp, fun sc hm => ((mem_removePeer hr p sc p).1 hm).2 rfl⟩⟩
  rw [mem_register (register_consistent hr i₁)]
  simp

/-! ## Runs -/

/-- A client sends one frame on connection `c`. -/
def Event.sendFrame (c : ConnId) (t : MessageType) (payload : Bytes) : Event :=
  .send c (makeMessage t payload)

/-- The peer id `a`. -/
def peerA : ShortStr := ⟨"a", by decide⟩

/-- The peer id `b`. -/
def peerB : ShortStr := ⟨"b", by decide⟩

/-- The session code `s`. -/
def sessionS : ShortStr := ⟨"s", by decide⟩

/-- The session code `t`. -/
def sessionT : ShortStr := ⟨"t", by decide⟩

/-- Connection `c` registers `peer_id` in `session_code`: the frame, the registration, and the
notification with the ACK. -/
def registerRun (c : ConnId) (peer_id session_code : ShortStr) : List Event :=
  [.sendFrame c .REGISTER (registerPayload peer_id session_code none), .handler c, .handler c]

/-- Two connections register `a` and `b` in the session `s`. -/
def pairRun : List Event :=
  [.accept none, .accept none] ++ registerRun 0 peerA sessionS ++ registerRun 1 peerB sessionS

/-- The state `pairRun` reaches. -/
def pairState : Server := ((Server.init 0).run pairRun).getD (Server.init 0)

theorem reachable_pairState : Reachable pairState := (Reachable.init 0).run pairRun rfl

/-- The indices of the state with two peers in one session agree. -/
theorem pair_registry_consistent :
    Reachable pairState ∧ pairState.registry.peers.length = 2 ∧
      ∀ sc p, pairState.registry.mem sc p →
        ∃ info, pairState.registry.peers.lookup p = some info ∧ info.session_code = sc :=
  ⟨reachable_pairState, by decide, (reachable_registry_consistent reachable_pairState).2.1⟩

/-! ## Sets emptied by a re-registration -/

/-- **`register` leaves an emptied set in place**: re-registering the only member of a session
under another session code leaves the old session's set empty, where `_remove_peer` would
delete it. -/
theorem register_leaves_empty_set {r : Registry} {info old : PeerInfo}
    (hold : r.peers.lookup info.peer_id = some old) (hne : info.session_code ≠ old.session_code)
    (honly : r.sessions.lookup old.session_code = some [info.peer_id]) :
    (r.register info).sessions.lookup old.session_code = some [] := by
  simp only [Registry.register, Registry.displace, hold, discardFrom, honly, lookup_dictSet,
    if_neg (Ne.symm hne), if_true]
  simp [setDiscard]

/-- Connection 0 registers `a` in the session `s`, then in the session `t`. -/
def reRegisterRun : List Event :=
  [.accept none] ++ registerRun 0 peerA sessionS ++ registerRun 0 peerA sessionT

/-- **A re-registration leaves an empty session**: after `a` moves from `s` to `t`, `s` is
still a key of `sessions` with an empty set, and `active_sessions` counts two sessions for the
one in use. -/
theorem reregister_keeps_empty_session :
    ((Server.init 0).run reRegisterRun).map
        (fun s => (s.registry.sessions, s.stats.active_sessions)) =
      some ([(sessionS, []), (sessionT, [peerA])], 2) := by
  decide

/-! ## Payloads the parser rejects, and payloads it takes truncated -/

/-- **A rejected `REGISTER`**: when the parser raises, the handler answers `ERROR(str(e))` on
its own connection, sets its `peer_id` to `''`, and changes nothing else. -/
theorem step_register_rejected {s : Server} {c : ConnId} {conn : Conn} {payload more : Bytes}
    {e : PyError} (hc : s.conns c = some conn) (hr : conn.phase = .reading)
    (hin : conn.input = makeMessage .REGISTER payload ++ more) (hlen : payload.length ≤ maxPayload)
    (he : parseRegister payload = .error e) :
    s.step (.handler c) = some (s.reply c
      { conn with input := more, log := conn.log ++ [(.REGISTER, payload)], peer_id := some .empty }
      ⟨.ERROR, utf8Encode e.str⟩) := by
  simp only [Server.step, Server.handlerStep, hc, hr, Server.readStep, hin,
    readFrame_makeMessage _ _ _ hlen, Server.handleMessage, Server.handleRegister, he]

/-- The rejections of the last conjuncts on the payloads `01 61 05 C3` of a `REGISTER` and
`05 C3` of a `DATA`: the byte left after each overlong length opens a two-byte sequence. -/
example : parseRegister [1, 0x61, 5, 0xC3] =
      .error (.unicodeDecodeError 0xC3 0 1 "unexpected end of data") ∧
    parseTarget [5, 0xC3] = .error (.unicodeDecodeError 0xC3 0 1 "unexpected end of data") := by
  decide

end SentinelRelay
