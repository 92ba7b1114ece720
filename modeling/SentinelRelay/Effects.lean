import SentinelRelay.PeerList

/-!
# What a frame does to the registry

`_handle_message` (lines 172-212 of `src/relay/relay_server.py`) hands each frame of a
registered connection to its handler.  Apart from `REGISTER` and the removals of
`_remove_peer`, three critical sections write the registry, each one field of the sender's own
record: `_update_heartbeat` (lines 474-478) its `last_heartbeat`, `_update_external_addr`
(lines 480-497) its `nat_type`, and the end of `_handle_relay_data` (lines 320-365) its
`relayed_bytes`.

* `FieldEffect t payload` is what handling a frame of type `t` may do to the sender's record,
  `RecordEffect p g` a move of the registry that keeps every set and every record but `p`'s,
  and moves `p`'s by `g`.
* The accounting step of `DATA` credits the id the frame was read under.  That id is still the
  connection's own: a handler in the middle of a relay relays for its own identity
  (`Reachable.relaysForSelf`).
* `frame_effect_on_records`: in a reachable state, every step of a handler with identity `p`
  that reads a frame other than `REGISTER`, or finishes handling one, has that frame's effect,
  and keeps every record's id, session, writer and endpoints.
-/

namespace SentinelRelay

/-! ## The effects -/

/-- The type of the frame whose handling a step in `phase` finishes. -/
def Phase.finishing : Phase → Option MessageType
  | .notifying _ => some .REGISTER
  | .relaying _ _ _ | .accounting _ _ => some .DATA
  | .introducing _ => some .CONNECT
  | .replying _ => some .PUNCH_REQUEST
  | .reading | .closing | .finished => none

/-- What handling a frame of type `t` with `payload` may do to the sender's record `i`, giving
`i'`: `HEARTBEAT` sets `last_heartbeat`, `EXTERNAL_ADDR` sets `nat_type` from the reported IP
when the payload parses, `DATA` adds to `relayed_bytes`, and no other frame changes it. -/
def FieldEffect (t : MessageType) (payload : Bytes) (i i' : PeerInfo) : Prop :=
  match t with
  | .HEARTBEAT => ∃ now, i' = { i with last_heartbeat := now }
  | .EXTERNAL_ADDR =>
    match parseExternalAddr payload with
    | .ok (ip, _) => i' = { i with nat_type := if ip ≠ i.public_ip.ip then .symmetric else .cone }
    | .error _ => i' = i
  | .DATA => ∃ n, i' = { i with relayed_bytes := i.relayed_bytes + n }
  | _ => i' = i

/-- `i'` is `i` under the same identity: the same id, session, writer and endpoints. -/
def PeerInfo.SameIdentity (i i' : PeerInfo) : Prop :=
  i'.peer_id = i.peer_id ∧ i'.session_code = i.session_code ∧ i'.writer = i.writer ∧
    i'.public_ip = i.public_ip ∧ i'.public_port = i.public_port ∧
    i'.private_ip = i.private_ip ∧ i'.private_port = i.private_port

theorem PeerInfo.sameIdentity_refl (i : PeerInfo) : i.SameIdentity i :=
  ⟨rfl, rfl, rfl, rfl, rfl, rfl, rfl⟩

/-- No frame's effect touches the identity of the record. -/
theorem FieldEffect.sameIdentity {t : MessageType} {payload : Bytes} {i i' : PeerInfo}
    (h : FieldEffect t payload i i') : i.SameIdentity i' := by
  cases t <;> simp only [FieldEffect] at h
  case HEARTBEAT | DATA => obtain ⟨_, rfl⟩ := h; exact ⟨rfl, rfl, rfl, rfl, rfl, rfl, rfl⟩
  case EXTERNAL_ADDR =>
    split at h <;> subst h
    exacts [⟨rfl, rfl, rfl, rfl, rfl, rfl, rfl⟩, PeerInfo.sameIdentity_refl _]
  all_goals subst h; exact PeerInfo.sameIdentity_refl _

/-- A step's move of the registry for a frame of identity `p`: no set changes, no record but
`p`'s changes, and `p`'s, if it has one, changes by `g`. -/
structure RecordEffect (p : ShortStr) (g : PeerInfo → PeerInfo → Prop) (r r' : Registry) :
    Prop where
  sessions : r'.sessions = r.sessions
  others : ∀ q, q ≠ p → r'.peers.lookup q = r.peers.lookup q
  own : Option.Rel g (r.peers.lookup p) (r'.peers.lookup p)

/-- Every record keeps its identity, and none appears or disappears. -/
def Registry.SameIdentities (r r' : Registry) : Prop :=
  ∀ q, Option.Rel PeerInfo.SameIdentity (r.peers.lookup q) (r'.peers.lookup q)

namespace RecordEffect

variable {p : ShortStr} {g : PeerInfo → PeerInfo → Prop} {r r' : Registry}

theorem rel_of_forall {o : Option PeerInfo} {f : PeerInfo → PeerInfo} (hg : ∀ i, g i (f i)) :
    Option.Rel g o (o.map f) := by
  cases o with
  | none => exact .none
  | some i => exact .some (hg i)

theorem refl (hg : ∀ i, g i i) (r : Registry) : RecordEffect p g r r :=
  ⟨rfl, fun _ _ => rfl, by simpa using rel_of_forall (o := r.peers.lookup p) hg⟩

theorem modifyPeer {f : PeerInfo → PeerInfo} (hg : ∀ i, g i (f i)) (r : Registry) :
    RecordEffect p g r (r.modifyPeer p f) :=
  ⟨sessions_modifyPeer _ _, fun q hq => by rw [lookup_modifyPeer, if_neg hq],
    by rw [lookup_modifyPeer, if_pos rfl]; exact rel_of_forall hg⟩

theorem rel_mono {g' : PeerInfo → PeerInfo → Prop} (hg : ∀ i i', g i i' → g' i i') :
    ∀ {o o' : Option PeerInfo}, Option.Rel g o o' → Option.Rel g' o o'
  | _, _, .none => .none
  | _, _, .some h => .some (hg _ _ h)

theorem sameIdentities (h : RecordEffect p g r r')
    (hg : ∀ i i', g i i' → i.SameIdentity i') : r.SameIdentities r' := by
  intro q
  by_cases hq : q = p
  · subst hq; exact rel_mono hg h.own
  · rw [h.others q hq]
    cases r.peers.lookup q with
    | none => exact .none
    | some i => exact .some i.sameIdentity_refl

end RecordEffect

/-! ## A handler relays for its own identity -/

/-- The id a handler in the middle of a relay relays for. -/
def Phase.relayFor : Phase → Option ShortStr
  | .relaying from_peer_id _ _ | .accounting from_peer_id _ => some from_peer_id
  | _ => none

/-- The id a handler relays for is its truthy `peer_id`. -/
def Conn.RelaysForSelf (conn : Conn) : Prop :=
  ∀ a, conn.phase.relayFor = some a → registered conn.peer_id = some a

/-- Every handler of `s` relays for its own identity. -/
def Server.RelaysForSelf (s : Server) : Prop :=
  ∀ c conn, s.conns c = some conn → conn.RelaysForSelf

theorem Conn.relaysForSelf_of_relayFor {conn : Conn} (h : conn.phase.relayFor = none) :
    conn.RelaysForSelf := fun a ha => by rw [h] at ha; cases ha

theorem Conn.relaysForSelf_write {conn : Conn} (x : Sent) :
    (conn.write x).RelaysForSelf ↔ conn.RelaysForSelf := by
  simp only [Conn.RelaysForSelf, Conn.phase_write, Conn.peer_id_write]

namespace Server.RelaysForSelf

variable {s s' : Server} {c : ConnId} {conn : Conn}

theorem of_conns (h : s.RelaysForSelf) (hc : s'.conns = s.conns) : s'.RelaysForSelf :=
  fun d cn hd => h d cn (hc ▸ hd)

theorem setConn (h : s.RelaysForSelf) (hc : conn.RelaysForSelf) :
    (s.setConn c conn).RelaysForSelf := by
  intro d cn hd
  rw [Server.conns_setConn] at hd
  split_ifs at hd
  · cases hd; exact hc
  · exact h d cn hd

/-- A handler that is not in the middle of a relay relays for no one. -/
theorem setConn_idle (h : s.RelaysForSelf) (hn : conn.phase.relayFor = none) :
    (s.setConn c conn).RelaysForSelf :=
  h.setConn (Conn.relaysForSelf_of_relayFor hn)

theorem write (h : s.RelaysForSelf) (x : Sent) : (s.write c x).RelaysForSelf := by
  intro d cn hd
  rw [Server.conns_write] at hd
  split_ifs at hd
  · obtain ⟨cn₀, h₀, rfl⟩ := Option.map_eq_some'.1 hd
    exact (Conn.relaysForSelf_write x).2 (h c cn₀ h₀)
  · exact h d cn hd

theorem writeAll (h : s.RelaysForSelf) (ws : List (ConnId × Frame)) :
    (s.writeAll ws).RelaysForSelf := by
  induction ws generalizing s with
  | nil => exact h
  | cons w ws ih => exact ih (h.write _)

theorem reply (h : s.RelaysForSelf) (hc : conn.RelaysForSelf) (f : Frame) :
    (s.reply c conn f).RelaysForSelf :=
  (h.setConn hc).write _

theorem removePeer (h : s.RelaysForSelf) (p : ShortStr) : (s.removePeer p).RelaysForSelf := by
  exact writeAll (s := s.setRegistry (s.registry.removePeer p).1) (h.of_conns rfl) _

theorem closeStep (h : s.RelaysForSelf) : (s.closeStep c conn).RelaysForSelf := by
  have hclose : ∀ {s : Server}, s.RelaysForSelf → (s.closeWriter c).RelaysForSelf := by
    intro s h
    unfold Server.closeWriter; split
    · exact h.setConn_idle (by rfl)
    · exact h
  unfold Server.closeStep; split
  · exact hclose (h.removePeer _)
  · exact hclose h

/-- A handler that reads keeps relaying for itself, whatever `_handle_message` does with the
frame: only `_handle_relay_data` starts a relay, for the id it was called with. -/
theorem handleMessage (h : s.RelaysForSelf) (hr : conn.phase = .reading) {t : MessageType}
    {payload : Bytes} {idx : Nat} : (s.handleMessage c conn t payload idx).RelaysForSelf := by
  have hc : conn.RelaysForSelf := Conn.relaysForSelf_of_relayFor (by rw [hr]; rfl)
  unfold Server.handleMessage
  split
  · unfold Server.handleRegister; split
    · exact h.reply (Conn.relaysForSelf_of_relayFor (by rw [hr]; rfl)) _
    · exact (h.setConn_idle (by rfl)).of_conns rfl
  · unfold Server.handlePeerList; split
    · exact h.reply hc _
    · exact h.setConn_idle (by rfl)
  · rename_i p hp
    unfold Server.handleRelayData; split
    · exact h.setConn hc
    · split
      · exact h.setConn hc
      · exact (h.setConn fun a ha => by cases ha; exact hp).write _
  · exact ((h.setConn hc).of_conns rfl).write _
  · unfold Server.handleConnectRequest; split
    · exact h.reply hc _
    · split
      · exact h.reply hc _
      · exact (h.setConn_idle (by rfl)).write _
  · unfold Server.handlePunchRequest; split
    · exact h.reply hc _
    · split
      · exact h.reply hc _
      · split
        · exact h.reply hc _
        · exact (h.setConn_idle (by rfl)).write _
  · unfold Server.updateExternalAddr; split
    · exact h.setConn hc
    · exact (h.setConn hc).of_conns rfl
  · exact h.setConn hc

theorem handlerStep (h : s.RelaysForSelf) (hs : s.handlerStep c = some s') : s'.RelaysForSelf := by
  unfold Server.handlerStep at hs
  split at hs
  · cases hs
  · rename_i conn hc
    split at hs
    · rename_i hr
      unfold Server.readStep at hs
      split at hs
      · cases hs; exact h.handleMessage (by exact hr)
      all_goals first
        | (split_ifs at hs; cases hs; exact h.setConn_idle (by rfl))
        | (cases hs; exact h.setConn_idle (by rfl))
    · cases hs; exact ((h.setConn_idle (by rfl)).writeAll _).write _
    · rename_i a w n hr
      have ha : registered conn.peer_id = some a := h c conn hc a (by rw [hr]; rfl)
      split at hs
      · split at hs
        · cases hs; exact h.setConn_idle (by rfl)
        · cases hs; exact (h.setConn fun b hb => by cases hb; exact ha).of_conns rfl
      · cases hs; exact h.setConn_idle (by rfl)
    · cases hs; exact (h.setConn_idle (by rfl)).of_conns rfl
    · cases hs; exact ((h.setConn_idle (by rfl)).of_conns rfl).write _
    · cases hs; exact h.reply (Conn.relaysForSelf_of_relayFor (by rfl)) _
    · cases hs; exact h.closeStep
    · cases hs

theorem step (h : s.RelaysForSelf) {e : Event} (hs : s.step e = some s') : s'.RelaysForSelf := by
  rcases Server.step_cases hs with ⟨_, -, rfl⟩ | ⟨c, conn, _, _, _, hc, rfl, -⟩ | ⟨_, -, rfl⟩ |
    ⟨c, -, hs⟩ | ⟨-, rfl⟩
  · intro d cn hd
    rw [Server.conns_accept] at hd
    split_ifs at hd
    · cases hd; exact Conn.relaysForSelf_of_relayFor rfl
    · exact h d cn hd
  · exact h.setConn fun a ha => h c conn hc a ha
  · exact h.of_conns rfl
  · exact h.handlerStep hs
  · rcases Server.janitorStep_cases s with ⟨j, hj⟩ | ⟨p, j, hj⟩ <;> rw [hj]
    · exact h.of_conns rfl
    · exact (h.removePeer _).of_conns rfl

end Server.RelaysForSelf

/-- In every reachable state, every handler in the middle of a relay relays for its own
identity. -/
theorem Reachable.relaysForSelf {s : Server} (hs : Reachable s) : s.RelaysForSelf := by
  induction hs with
  | init => intro c conn h; cases h
  | step e _ h ih => exact ih.step h

/-! ## The effect of each step -/

namespace Server

variable {s : Server} {c : ConnId} {conn : Conn} {p : ShortStr} {payload : Bytes}

/-- The read step of a frame other than `REGISTER` has the frame's effect on the registry. -/
theorem recordEffect_handleMessage (hp : registered conn.peer_id = some p) {t : MessageType}
    (ht : t ≠ .REGISTER) (idx : Nat) :
    RecordEffect p (FieldEffect t payload) s.registry
      (s.handleMessage c conn t payload idx).registry := by
  cases t <;> simp only [handleMessage, hp, registry_write, registry_handlePeerList,
    registry_handleRelayData, registry_handleConnectRequest, registry_handlePunchRequest]
  case REGISTER => exact absurd rfl ht
  case HEARTBEAT => exact RecordEffect.modifyPeer (fun _ => ⟨_, rfl⟩) _
  case EXTERNAL_ADDR =>
    unfold updateExternalAddr; split
    · rename_i he; exact RecordEffect.refl (fun _ => by simp only [FieldEffect, he]) _
    · rename_i he; exact RecordEffect.modifyPeer (fun _ => by simp only [FieldEffect, he]) _
  case DATA => exact RecordEffect.refl (fun _ => ⟨0, rfl⟩) _
  all_goals exact RecordEffect.refl (fun _ => by exact rfl) _

end Server

/-- **Each frame changes only its own field of the sender's record.**  In a reachable state,
take a step of the handler of a connection whose identity is `p`.  When the step reads a whole
frame other than `REGISTER`, or finishes handling one (the drain and the accounting of `DATA`,
the drains of `CONNECT` and `PUNCH_REQUEST`), no session set changes and no record but `p`'s.
`p`'s changes only as the frame's `FieldEffect` allows: `HEARTBEAT` its `last_heartbeat`,
`EXTERNAL_ADDR` its `nat_type` (`symmetric` when the reported IP differs from `public_ip`,
`cone` otherwise), `DATA` its `relayed_bytes`.  So no record's id, session, writer or
endpoints change, and no record appears or disappears. -/
theorem frame_effect_on_records {s s' : Server} (hs : Reachable s) {c : ConnId} {conn : Conn}
    {p : ShortStr} (hc : s.conns c = some conn) (hp : registered conn.peer_id = some p)
    (hstep : s.step (.handler c) = some s') :
    (∀ t payload more, conn.phase = .reading → conn.input = makeMessage t payload ++ more →
      payload.length ≤ maxPayload → t ≠ .REGISTER →
      RecordEffect p (FieldEffect t payload) s.registry s'.registry ∧
        s.registry.SameIdentities s'.registry) ∧
    (∀ t, conn.phase.finishing = some t → t ≠ .REGISTER → ∀ payload,
      RecordEffect p (FieldEffect t payload) s.registry s'.registry ∧
        s.registry.SameIdentities s'.registry) := by
  have same : ∀ {t payload}, RecordEffect p (FieldEffect t payload) s.registry s'.registry →
      RecordEffect p (FieldEffect t payload) s.registry s'.registry ∧
        s.registry.SameIdentities s'.registry :=
    fun h => ⟨h, h.sameIdentities fun _ _ => FieldEffect.sameIdentity⟩
  refine ⟨fun t payload more hr hin hlen ht => same ?_, fun t hf ht payload => same ?_⟩
  · rw [Server.step_read_frame hc hr hin hlen] at hstep
    cases hstep
    exact Server.recordEffect_handleMessage (by exact hp) ht _
  · simp only [Server.step, Server.handlerStep, hc] at hstep
    cases hph : conn.phase <;> rw [hph] at hf hstep <;>
      simp only [Phase.finishing, Option.some.injEq, reduceCtorEq] at hf <;> subst hf
    case notifying => exact absurd rfl ht
    case relaying a w n =>
      have hreg : s'.registry = s.registry := by
        simp only at hstep; split at hstep
        · split_ifs at hstep <;> cases hstep <;> rfl
        · cases hstep; rfl
      exact hreg ▸ RecordEffect.refl (fun _ => ⟨0, rfl⟩) _
    case accounting a n =>
      obtain rfl : a = p := Option.some.inj
        ((hs.relaysForSelf c conn hc a (by rw [hph]; rfl)).symm.trans hp)
      cases hstep
      exact RecordEffect.modifyPeer (fun _ => ⟨n, rfl⟩) _
    all_goals cases hstep; exact RecordEffect.refl (fun _ => by exact rfl) _

/-- `a` sends `HEARTBEAT` in `pairState`: only its own record's `last_heartbeat` may move. -/
theorem frame_effect_on_records_heartbeat :
    ∃ s s', Reachable s ∧ s.step (.handler 0) = some s' ∧
      RecordEffect peerA (FieldEffect .HEARTBEAT []) s.registry s'.registry ∧
      s.registry.SameIdentities s'.registry := by
  have hc0 : pairState.conns 0 = some pairSender := by decide
  have hsend : pairState.step (.send 0 (makeMessage .HEARTBEAT [])) = some (pairState.setConn 0
      { pairSender with input := pairSender.input ++ makeMessage .HEARTBEAT [] }) := by
    simp only [Server.step, hc0, show pairSender.eof = false by decide, Bool.false_eq_true,
      ↓reduceIte]
  have hs := reachable_pairState.step _ hsend
  have hc : (pairState.setConn 0 { pairSender with
      input := pairSender.input ++ makeMessage .HEARTBEAT [] }).conns 0 =
      some { pairSender with input := pairSender.input ++ makeMessage .HEARTBEAT [] } :=
    Server.conns_setConn_self
  have hread := Server.step_read_frame hc (by decide)
    (show _ = makeMessage .HEARTBEAT [] ++ [] by decide) (by decide)
  exact ⟨_, _, hs, hread, (frame_effect_on_records hs hc
    (show registered pairSender.peer_id = some peerA by decide) hread).1 .HEARTBEAT [] []
      (by decide) (show _ = makeMessage .HEARTBEAT [] ++ [] by decide) (by decide) (by decide)⟩

end SentinelRelay
