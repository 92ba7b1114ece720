import SentinelRelay.Framing

/-!
# Notices about a peer: within its session, to every mate

Two frames tell a connection about another peer by its id: the `DISCONNECT` that
`_remove_peer` sends to the members left in the removed record's session (lines 527-560 of
`src/relay/relay_server.py`), and the `CONNECT` that `_handle_connect_request` sends to its
target once it has checked that both records are in one session (lines 373-406).  Both take
their receivers and their subject from the registry under the lock, so the consistency of the
two indices (`Registry.Consistent`) and the provenance of the records (`RecordsFrom`) decide
where they go.  In every reachable state, whatever the interleaving, each such frame written to
a connection names a peer that registered in a session the receiving connection asked to join
(`peer_notices_stay_in_session`).  Conversely, since every record is listed in its session's
set, `_remove_peer` and `_notify_session_peers` reach every other record of the session, on its
writer's connection unless that is closed (`session_notices_reach_every_mate`).

`PUNCH_SYNC` and relayed `DATA` frames have no such guarantee: `_handle_punch_request` checks
no session.  `PEER_LIST` frames are left out: `_notify_session_peers` shares the type with the
replies of `_handle_peer_list`, which follow the requester's id to whichever record now holds
it, on whichever connection registered it last.
-/

namespace SentinelRelay

/-- Connection `conn` asked to join session `S`: it read a `REGISTER` for `S` that the parser
accepted. -/
def Conn.Joined (conn : Conn) (S : ShortStr) : Prop :=
  ∃ f, RegisteredOn conn.log f ∧ f.session_code = S

/-- Some connection of `conns` read a `REGISTER` of `p` for session `S` that the parser
accepted. -/
def RegisteredIn (conns : ConnId → Option Conn) (p S : ShortStr) : Prop :=
  ∃ c cc, conns c = some cc ∧
    ∃ f, RegisteredOn cc.log f ∧ f.peer_id = p ∧ f.session_code = S

/-- The frames that name another peer to their receiver: `DISCONNECT` and `CONNECT`. -/
def Frame.namesPeer (f : Frame) : Bool :=
  match f.type with
  | .DISCONNECT | .CONNECT => true
  | _ => false

/-- A frame `f` written to `tc` is a notice of its session: a `DISCONNECT` of `p`, or a
`CONNECT` describing `p`, where `p` registered in a session that `tc` joined. -/
def SessionNotice (conns : ConnId → Option Conn) (tc : Conn) (f : Frame) : Prop :=
  ∃ p S, (f = ⟨.DISCONNECT, disconnectPayload p⟩ ∨
      ∃ info, f = ⟨.CONNECT, connectPayload p info⟩) ∧
    tc.Joined S ∧ RegisteredIn conns p S

/-- The reply a handler keeps to write after its drain names no peer. -/
def Phase.Quiet : Phase → Prop
  | .replying f => f.namesPeer = false
  | _ => True

/-- Every frame written to a connection that names another peer is a notice of a session the
connection joined, and no handler keeps such a frame to write. -/
structure Server.Isolated (s : Server) : Prop where
  notices : ∀ t tc, s.conns t = some tc → ∀ x ∈ tc.out, x.frame.namesPeer →
    SessionNotice s.conns tc x.frame
  pending : ∀ c conn, s.conns c = some conn → conn.phase.Quiet

/-! ## What a later state keeps -/

section Later

variable {conns conns' : ConnId → Option Conn} {tc tc' cw : Conn} {p S : ShortStr} {f : Frame}
  {e : ConnId}

theorem Conn.Joined.mono (h : tc.Joined S) (hl : tc.log <+: tc'.log) : tc'.Joined S :=
  let ⟨g, hg, hs⟩ := h
  ⟨g, hg.mono hl, hs⟩

theorem RegisteredIn.mono (h : RegisteredIn conns p S) (hg : Grows conns conns') :
    RegisteredIn conns' p S := by
  obtain ⟨c, cc, hc, g, hreg, hp, hs⟩ := h
  obtain ⟨cc', hc', -, -, hl⟩ := hg c cc hc
  exact ⟨c, cc', hc', g, hreg.mono hl, hp, hs⟩

theorem SessionNotice.mono (h : SessionNotice conns tc f) (hg : Grows conns conns')
    (hl : tc.log <+: tc'.log) : SessionNotice conns' tc' f :=
  let ⟨p, S, hf, hj, hr⟩ := h
  ⟨p, S, hf, hj.mono hl, hr.mono hg⟩

/-- A notice for the connection `e` holds of `e` in any later state. -/
theorem SessionNotice.carry (h : ∃ tc, conns e = some tc ∧ SessionNotice conns tc f)
    (hg : Grows conns conns') : ∃ tc, conns' e = some tc ∧ SessionNotice conns' tc f := by
  obtain ⟨tc, ht, hnot⟩ := h
  obtain ⟨tc', ht', hl⟩ := hg e tc ht
  exact ⟨tc', ht', hnot.mono hg hl.2.2⟩

end Later

/-! ## Where the registry sends a notice -/

section Registry

variable {conns : ConnId → Option Conn} {r : Registry} {p a t : ShortStr} {src tgt : PeerInfo}

/-- `_remove_peer` sends its `DISCONNECT`s to the writers of the records listed in the removed
record's session once the id is discarded. -/
theorem removePeer_writes_to_mates {w : ConnId × Frame} (hw : w ∈ (r.removePeer p).2) :
    ∃ peer other o, r.peers.lookup p = some peer ∧
      (r.removePeer p).1.mem peer.session_code other ∧ r.peers.lookup other = some o ∧
      w = (o.writer, ⟨.DISCONNECT, disconnectPayload p⟩) := by
  unfold Registry.removePeer at hw ⊢
  split at hw
  · cases hw
  · rename_i peer hpeer
    obtain ⟨other, hm, hw⟩ := List.mem_filterMap.1 hw
    obtain ⟨o, ho, rfl⟩ := Option.map_eq_some'.1 hw
    refine ⟨peer, other, o, hpeer, ?_, ho, rfl⟩
    simp only [hpeer]
    exact mem_getD_lookup.1 hm

/-- Each `DISCONNECT` of `_remove_peer` is a notice of the removed record's session for the
connection it goes to. -/
theorem removePeer_notice (hr : r.Consistent) (hrec : RecordsFrom conns r)
    {w : ConnId × Frame} (hw : w ∈ (r.removePeer p).2) :
    ∃ tc, conns w.1 = some tc ∧ SessionNotice conns tc w.2 := by
  obtain ⟨peer, other, o, hpeer, hm, ho, rfl⟩ := removePeer_writes_to_mates hw
  obtain ⟨info, hinfo, hS⟩ := hr.registered _ _ ((mem_removePeer hr p _ _).1 hm).1
  rw [ho] at hinfo
  cases hinfo
  obtain ⟨cw, hcw, -, -, hreg⟩ := hrec other o ho
  obtain ⟨cp, hcp, -, -, hregp⟩ := hrec p peer hpeer
  exact ⟨cw, hcw, p, peer.session_code, .inl rfl, ⟨_, hreg, hS⟩,
    peer.writer, cp, hcp, _, hregp, rfl, rfl⟩

/-- The `CONNECT` of `_handle_connect_request` is a notice of the target's session for the
target's connection: the check of line 383 puts the requester's record in it. -/
theorem connect_notice (hrec : RecordsFrom conns r) (h : r.connectPeers a t = .ok (src, tgt)) :
    ∃ tc, conns tgt.writer = some tc ∧
      SessionNotice conns tc ⟨.CONNECT, connectPayload a src⟩ := by
  obtain ⟨ht, ha, hS⟩ := connectPeers_eq_ok.1 h
  obtain ⟨cw, hcw, -, -, hreg⟩ := hrec t tgt ht
  obtain ⟨ca, hca, -, -, hrega⟩ := hrec a src ha
  exact ⟨cw, hcw, a, tgt.session_code, .inr ⟨src, rfl⟩, ⟨_, hreg, rfl⟩,
    src.writer, ca, hca, _, hrega, rfl, hS⟩

theorem namesPeer_peerList {f : Frame} (h : r.peerList a = .ok f) : f.namesPeer = false := by
  unfold Registry.peerList at h
  split at h
  · cases h; rfl
  · obtain ⟨payload, -, rfl⟩ := map_eq_ok.1 h; rfl

/-- `_remove_peer` tells every other record of the removed record's session: the consistency of
the two indices lists each of them in the session's set. -/
theorem removePeer_tells_mates (hr : r.Consistent) {peer o : PeerInfo} {q : ShortStr}
    (hp : r.peers.lookup p = some peer) (hq : r.peers.lookup q = some o)
    (hS : o.session_code = peer.session_code) (hne : q ≠ p) :
    (o.writer, ⟨.DISCONNECT, disconnectPayload p⟩) ∈ (r.removePeer p).2 := by
  have hm : (r.removePeer p).1.mem peer.session_code q :=
    (mem_removePeer hr p _ _).2 ⟨hS ▸ hr.listed q o hq, hne⟩
  unfold Registry.removePeer at hm ⊢
  simp only [hp] at hm ⊢
  exact List.mem_filterMap.2 ⟨q, mem_getD_lookup.2 hm, by rw [hq]; rfl⟩

/-- `_notify_session_peers` tells every other record of the new record's session. -/
theorem notifyWrites_tells_mates (hr : r.Consistent) {info o : PeerInfo} {q : ShortStr}
    (hq : r.peers.lookup q = some o) (hS : o.session_code = info.session_code)
    (hne : q ≠ info.peer_id) :
    (o.writer, ⟨.PEER_LIST, notifyPayload info.peer_id info⟩) ∈ r.notifyWrites info := by
  refine List.mem_filterMap.2 ⟨q, mem_getD_lookup.2 (hS ▸ hr.listed q o hq), ?_⟩
  rw [if_pos hne, hq]
  rfl

end Registry

/-! ## What each update of the state keeps -/

namespace Server

variable {s s' : Server} {c d : ConnId} {conn conn₀ : Conn} {x : Sent}

theorem grows_accept (hf : s.conns s.next = none) (peername : Option (Host × UInt16)) :
    Grows s.conns (s.accept peername).conns := by
  intro d cn hd
  refine ⟨cn, ?_, Conn.Later.refl cn⟩
  rw [conns_accept, if_neg (fun hdn => by rw [hdn, hf] at hd; cases hd), hd]

/-- A write of a critical section to an open connection is appended there, whatever the
other writes of the section. -/
theorem out_writeAll {ws : List (ConnId × Frame)} {w : ConnId × Frame} (hw : w ∈ ws) {tc : Conn}
    (ht : s.conns w.1 = some tc) (hopen : tc.lost = false) :
    ∃ tc' more, (s.writeAll ws).conns w.1 = some tc' ∧ tc'.out = tc.out ++ more ∧
      (⟨w.2, none⟩ : Sent) ∈ more := by
  induction ws generalizing s tc with
  | nil => cases hw
  | cons v ws ih =>
    -- the connection once the first write is made
    have h₁ : ∃ tc₁ extra, (s.write v.1 ⟨v.2, none⟩).conns w.1 = some tc₁ ∧
        tc₁.out = tc.out ++ extra ∧ tc₁.lost = false ∧
          (w = v → (⟨w.2, none⟩ : Sent) ∈ extra) := by
      by_cases hv : w.1 = v.1
      · refine ⟨tc.write ⟨v.2, none⟩, [⟨v.2, none⟩],
          by rw [conns_write, if_pos hv, ← hv, ht]; rfl, ?_, ?_, ?_⟩
        · rw [Conn.out_write, if_neg (by simp [hopen])]
        · rw [Conn.lost_write, hopen]
        · rintro rfl; exact List.mem_singleton_self _
      · refine ⟨tc, [], by simp [hv, ht], (List.append_nil _).symm, hopen, ?_⟩
        rintro rfl; exact absurd rfl hv
    obtain ⟨tc₁, extra, ht₁, hout₁, hopen₁, hfirst⟩ := h₁
    rcases List.mem_cons.1 hw with rfl | hw'
    · obtain ⟨tc', ht', -, more, hmore⟩ := exists_conns_writeAll ws ht₁
      exact ⟨tc', extra ++ more, ht', by rw [← hmore, hout₁, List.append_assoc],
        List.mem_append_left _ (hfirst rfl)⟩
    · obtain ⟨tc', more, ht', hout', hmem⟩ := ih hw' ht₁ hopen₁
      exact ⟨tc', extra ++ more, ht', by rw [hout', hout₁, List.append_assoc],
        List.mem_append_right _ hmem⟩

namespace Isolated

theorem of_conns (h : s.Isolated) (hc : s'.conns = s.conns) : s'.Isolated :=
  ⟨hc ▸ h.notices, hc ▸ h.pending⟩

theorem setConn (h : s.Isolated) (hc : s.conns c = some conn₀) (hl : conn₀.Later conn)
    (hout : conn.out = conn₀.out) (hq : conn.phase.Quiet) : (s.setConn c conn).Isolated := by
  have hg := grows_setConn hc hl
  refine ⟨fun t tc ht y hy hn => ?_, fun d cn hd => ?_⟩
  · rw [conns_setConn] at ht
    split_ifs at ht
    · cases ht
      exact (h.notices c conn₀ hc y (hout ▸ hy) hn).mono hg hl.2.2
    · exact (h.notices t tc ht y hy hn).mono hg (List.prefix_refl _)
  · rw [conns_setConn] at hd
    split_ifs at hd
    · cases hd; exact hq
    · exact h.pending d cn hd

/-- A write keeps the isolation when the frame names no peer, or is a notice of a session its
receiver joined. -/
theorem write (h : s.Isolated)
    (hx : x.frame.namesPeer → ∃ tc, s.conns d = some tc ∧ SessionNotice s.conns tc x.frame) :
    (s.write d x).Isolated := by
  have hg : Grows s.conns (s.write d x).conns := grows_write
  refine ⟨fun t tc ht y hy hn => ?_, fun e cn he => ?_⟩
  · rw [conns_write] at ht
    split_ifs at ht with htd
    · subst htd
      obtain ⟨tc₀, ht₀, rfl⟩ := Option.map_eq_some'.1 ht
      have hlog : tc₀.log <+: (tc₀.write x).log := by rw [Conn.log_write]
      rw [Conn.out_write] at hy
      split_ifs at hy
      · exact (h.notices t tc₀ ht₀ y hy hn).mono hg hlog
      · rcases List.mem_append.1 hy with hy | hy
        · exact (h.notices t tc₀ ht₀ y hy hn).mono hg hlog
        · rw [List.mem_singleton.1 hy] at hn ⊢
          obtain ⟨tc', ht', hnot⟩ := hx hn
          rw [ht₀] at ht'
          cases ht'
          exact hnot.mono hg hlog
    · exact (h.notices t tc ht y hy hn).mono hg (List.prefix_refl _)
  · rw [conns_write] at he
    split_ifs at he
    · obtain ⟨cn₀, h₀, rfl⟩ := Option.map_eq_some'.1 he
      rw [Conn.phase_write]; exact h.pending d cn₀ h₀
    · exact h.pending e cn he

theorem write_quiet (h : s.Isolated) (hx : x.frame.namesPeer = false) : (s.write d x).Isolated :=
  h.write fun hn => by rw [hx] at hn; cases hn

theorem writeAll (h : s.Isolated) {ws : List (ConnId × Frame)}
    (hws : ∀ w ∈ ws, w.2.namesPeer →
      ∃ tc, s.conns w.1 = some tc ∧ SessionNotice s.conns tc w.2) :
    (s.writeAll ws).Isolated := by
  induction ws generalizing s with
  | nil => exact h
  | cons w ws ih =>
    exact ih (h.write (hws w (List.mem_cons_self w ws))) fun v hv hn =>
      SessionNotice.carry (hws v (List.mem_cons_of_mem w hv) hn) grows_write

theorem with_registry (h : s.Isolated) (r : Registry) : { s with registry := r }.Isolated :=
  h.of_conns rfl

theorem with_stats (h : s.Isolated) (st : Stats) : { s with stats := st }.Isolated :=
  h.of_conns rfl

theorem reply {f : Frame} (h : s.Isolated) (hc : s.conns c = some conn₀) (hl : conn₀.Later conn)
    (hout : conn.out = conn₀.out) (hq : conn.phase.Quiet) (hf : f.namesPeer = false) :
    (s.reply c conn f).Isolated :=
  (h.setConn hc hl hout hq).write_quiet hf

section Registry

variable (hr : s.registry.Consistent) (hrec : RecordsFrom s.conns s.registry)
include hr hrec

theorem removePeer (h : s.Isolated) (p : ShortStr) : (s.removePeer p).Isolated :=
  writeAll (s := s.setRegistry (s.registry.removePeer p).1) (h.of_conns rfl)
    fun _ hw _ => removePeer_notice hr hrec hw

theorem closeStep (h : s.Isolated) : (s.closeStep c conn).Isolated := by
  have hclose : ∀ {s : Server}, s.Isolated → (s.closeWriter c).Isolated := by
    intro s h
    unfold Server.closeWriter; split
    · rename_i cn hc
      exact h.setConn hc (Conn.Later.refl cn) rfl trivial
    · exact h
  unfold Server.closeStep; split
  · exact hclose (h.removePeer hr hrec _)
  · exact hclose h

end Registry

theorem accept (h : s.Isolated) (hf : s.conns s.next = none) (peername : Option (Host × UInt16)) :
    (s.accept peername).Isolated := by
  have hg := grows_accept hf peername
  refine ⟨fun t tc ht y hy hn => ?_, fun d cn hd => ?_⟩
  · rw [conns_accept] at ht
    split_ifs at ht
    · cases ht; cases hy
    · exact (h.notices t tc ht y hy hn).mono hg (List.prefix_refl _)
  · rw [conns_accept] at hd
    split_ifs at hd
    · cases hd; trivial
    · exact h.pending d cn hd

/-- A handler that reads a frame keeps the isolation, whatever `_handle_message` does with it:
the only notice it writes is the `CONNECT` of a request whose two records share a session. -/
theorem handleMessage {t : MessageType} {payload : Bytes} {idx : Nat} (h : s.Isolated)
    (hrec : RecordsFrom s.conns s.registry) (hc : s.conns c = some conn₀)
    (hl : conn₀.Later conn) (hout : conn.out = conn₀.out) (hr : conn.phase = .reading) :
    (s.handleMessage c conn t payload idx).Isolated := by
  have setI : ∀ {ph : Phase}, ph.Quiet → (s.setConn c { conn with phase := ph }).Isolated :=
    fun hq => h.setConn hc hl hout hq
  have hread : conn.phase.Quiet := by rw [hr]; trivial
  have replyI : ∀ {f : Frame}, f.namesPeer = false → (s.reply c conn f).Isolated :=
    h.reply hc hl hout hread
  unfold Server.handleMessage
  split
  · unfold Server.handleRegister; split
    · exact h.reply hc hl hout (by exact hread) (by rfl)
    · exact (setI (by trivial)).of_conns rfl
  · unfold Server.handlePeerList; split
    · exact replyI (namesPeer_peerList ‹_›)
    · exact setI (by trivial)
  · unfold Server.handleRelayData; split
    · exact h.setConn hc hl hout hread
    · split
      · exact h.setConn hc hl hout hread
      · exact (setI (by trivial)).write_quiet (by rfl)
  · exact ((h.setConn hc hl hout hread).with_registry _).write_quiet (by rfl)
  · unfold Server.handleConnectRequest; split
    · exact replyI (by rfl)
    · split
      · exact replyI (by rfl)
      · exact (setI (by trivial)).write fun _ =>
          SessionNotice.carry (connect_notice hrec ‹_›) (grows_setConn hc hl)
  · unfold Server.handlePunchRequest; split
    · exact replyI (by rfl)
    · split
      · exact replyI (by rfl)
      · split
        · exact replyI (by rfl)
        · exact (setI (by rfl)).write_quiet (by rfl)
  · unfold Server.updateExternalAddr; split
    · exact h.setConn hc hl hout hread
    · exact (h.setConn hc hl hout hread).with_registry _
  · exact h.setConn hc hl hout hread

theorem handlerStep (h : s.Isolated) (hr : s.registry.Consistent)
    (hrec : RecordsFrom s.conns s.registry) (hs : s.handlerStep c = some s') : s'.Isolated := by
  unfold Server.handlerStep at hs
  split at hs
  · cases hs
  · rename_i conn hc
    have hkeep := Conn.Later.refl conn
    have setI : ∀ {ph : Phase}, ph.Quiet → (s.setConn c { conn with phase := ph }).Isolated :=
      fun hq => h.setConn hc hkeep rfl hq
    split at hs
    · rename_i hph
      unfold Server.readStep at hs
      split at hs
      · cases hs
        exact h.handleMessage hrec hc ⟨rfl, rfl, List.prefix_append _ _⟩ rfl hph
      all_goals first
        | (split_ifs at hs; cases hs; exact setI (by trivial))
        | (cases hs; exact setI (by trivial))
    · rename_i info _
      cases hs
      have h₁ :
          (s.setConn c { conn with phase := .reading, peer_id := some info.peer_id }).Isolated :=
        h.setConn hc hkeep rfl trivial
      refine (h₁.writeAll fun w hw hn => ?_).write_quiet (by rfl)
      rw [mem_notifyWrites hw] at hn
      cases hn
    · split at hs
      · split at hs
        · cases hs; exact setI (by trivial)
        · cases hs; exact (setI (by trivial)).with_stats _
      · cases hs; exact setI (by trivial)
    · cases hs; exact (setI (by trivial)).with_registry _
    · cases hs; exact ((setI (by trivial)).with_stats _).write_quiet (by rfl)
    · rename_i f hf
      cases hs
      have hq := h.pending c conn hc
      rw [hf] at hq
      exact (setI (by trivial)).write_quiet (by exact hq)
    · cases hs; exact h.closeStep hr hrec
    · cases hs

theorem step (h : s.Isolated) (hr : s.registry.Consistent) (hrec : RecordsFrom s.conns s.registry)
    (hf : s.conns s.next = none) {e : Event} (hs : s.step e = some s') : s'.Isolated := by
  rcases step_cases hs with ⟨peername, -, rfl⟩ | ⟨c, conn, _, _, _, hc, rfl, -⟩ | ⟨_, -, rfl⟩ |
    ⟨c, -, hs⟩ | ⟨-, rfl⟩
  · exact h.accept hf peername
  · exact h.setConn hc ⟨rfl, rfl, List.prefix_refl _⟩ rfl (h.pending c conn hc)
  · exact h.of_conns rfl
  · exact h.handlerStep hr hrec hs
  · rcases janitorStep_cases s with ⟨j, hj⟩ | ⟨p, j, hj⟩ <;> rw [hj]
    · exact h.of_conns rfl
    · exact (h.removePeer hr hrec p).of_conns rfl

end Isolated

end Server

/-- Every reachable state is isolated. -/
theorem Reachable.isolated {s : Server} (hs : Reachable s) : s.Isolated := by
  induction hs with
  | init => exact ⟨fun _ _ h => (by cases h), fun _ _ h => (by cases h)⟩
  | step e hr h ih =>
    exact ih.step hr.consistent hr.provenance.records (hr.relayOrder.fresh _ le_rfl) h

/-! ## The theorem -/

/-- **Notices about a peer stay in its session.**  In every reachable state, whatever the
connections and the interleaving of their handlers, closes and janitor passes, every
`DISCONNECT` and every `CONNECT` frame written to a connection names a peer `p`, the id the
`DISCONNECT` announces or the one the `CONNECT` describes, that some connection registered in a
session `S` for which the receiving connection itself read an accepted `REGISTER`. -/
theorem peer_notices_stay_in_session {s : Server} (hs : Reachable s) {t : ConnId} {tc : Conn}
    (ht : s.conns t = some tc) {x : Sent} (hx : x ∈ tc.out)
    (hty : x.frame.type = .DISCONNECT ∨ x.frame.type = .CONNECT) :
    ∃ p S, (x.frame = ⟨.DISCONNECT, disconnectPayload p⟩ ∨
        ∃ info, x.frame = ⟨.CONNECT, connectPayload p info⟩) ∧
      (∃ f, RegisteredOn tc.log f ∧ f.session_code = S) ∧
      ∃ c cc, s.conns c = some cc ∧ ∃ f, RegisteredOn cc.log f ∧ f.peer_id = p ∧
        f.session_code = S := by
  have hn : x.frame.namesPeer := by
    unfold Frame.namesPeer
    rcases hty with h | h <;> rw [h]
  exact hs.isolated.notices t tc ht x hx hn

/-- From `pairState`, the peer of `a`'s connection hangs up and its handler closes. -/
def hangupRun : List Event := [.hangup 0, .handler 0, .handler 0]

/-- The state `hangupRun` reaches. -/
def hangupState : Server := (pairState.run hangupRun).getD pairState

theorem reachable_hangupState : Reachable hangupState := reachable_pairState.run hangupRun rfl

/-- Connection 1 of `hangupState`, registered as `b`. -/
def hangupReceiver : Conn := (hangupState.conns 1).getD (Conn.accepted none)

/-- `b` is told that `a` left, a peer registered in a session `b` joined. -/
theorem peer_notices_stay_in_session_hangup :
    ∃ p S, ((⟨.DISCONNECT, disconnectPayload peerA⟩ : Frame) =
          ⟨.DISCONNECT, disconnectPayload p⟩ ∨
        ∃ info, (⟨.DISCONNECT, disconnectPayload peerA⟩ : Frame) =
          ⟨.CONNECT, connectPayload p info⟩) ∧
      (∃ f, RegisteredOn hangupReceiver.log f ∧ f.session_code = S) ∧
      ∃ c cc, hangupState.conns c = some cc ∧ ∃ f, RegisteredOn cc.log f ∧ f.peer_id = p ∧
        f.session_code = S :=
  peer_notices_stay_in_session reachable_hangupState
    (x := ⟨⟨.DISCONNECT, disconnectPayload peerA⟩, none⟩)
    (show hangupState.conns 1 = some hangupReceiver by decide) (by decide) (.inl rfl)

/-- **Every mate is told.**  In every reachable state, take any record `o` whose writer's
connection is open.  When `_remove_peer` removes the record of another id `p` of `o`'s session,
a `DISCONNECT` naming `p` is appended to `o`'s writer's connection; and when a handler announces
a new record of `o`'s session under another id, its step appends the `PEER_LIST` entry about the
new record there.  Both go through the session index, which the registry invariant keeps equal
to the records' session codes, so no mate of that moment is skipped.  Nothing is said here of a
re-registration under another session code, which tells the old session nothing. -/
theorem session_notices_reach_every_mate {s : Server} (hs : Reachable s) {q : ShortStr}
    {o : PeerInfo} (hq : s.registry.peers.lookup q = some o) {tc : Conn}
    (ht : s.conns o.writer = some tc) (hopen : tc.lost = false) :
    (∀ p peer, s.registry.peers.lookup p = some peer → peer.session_code = o.session_code →
      q ≠ p → ∃ tc' more, (s.removePeer p).conns o.writer = some tc' ∧
        tc'.out = tc.out ++ more ∧
          ⟨⟨.DISCONNECT, disconnectPayload p⟩, none⟩ ∈ more) ∧
    (∀ c conn info, s.conns c = some conn → conn.phase = .notifying info →
      info.session_code = o.session_code → q ≠ info.peer_id →
      ∃ s' tc' more, s.handlerStep c = some s' ∧ s'.conns o.writer = some tc' ∧
        tc'.out = tc.out ++ more ∧
          ⟨⟨.PEER_LIST, notifyPayload info.peer_id info⟩, none⟩ ∈ more) := by
  have hr := hs.consistent
  refine ⟨fun p peer hp hS hne => ?_, fun c conn info hc hph hS hne => ?_⟩
  · exact Server.out_writeAll (s := s.setRegistry (s.registry.removePeer p).1)
      (removePeer_tells_mates hr hp hq hS.symm hne) ht hopen
  · -- the announcing handler goes back to reading, then writes the notices and its ACK
    have ht₁ : ∃ tc₁,
        (s.setConn c { conn with phase := .reading, peer_id := some info.peer_id }).conns
          o.writer = some tc₁ ∧ tc₁.out = tc.out ∧ tc₁.lost = false := by
      rw [Server.conns_setConn]
      split_ifs with hw
      · rw [hw, hc] at ht
        cases ht
        exact ⟨_, rfl, rfl, hopen⟩
      · exact ⟨tc, ht, rfl, hopen⟩
    obtain ⟨tc₁, ht₁, hout₁, hopen₁⟩ := ht₁
    obtain ⟨tc₂, more, ht₂, hout₂, hmem⟩ :=
      Server.out_writeAll (notifyWrites_tells_mates hr hq hS.symm hne) ht₁ hopen₁
    obtain ⟨tc₃, ht₃, -, more', hmore'⟩ := Server.exists_conns_write (d := c)
      (x := ⟨⟨.REGISTER_ACK, utf8Encode "OK"⟩, none⟩) ht₂
    refine ⟨_, tc₃, more ++ more', by simp [Server.handlerStep, hc, hph], ht₃, ?_,
      List.mem_append_left _ hmem⟩
    rw [← hmore', hout₂, hout₁, List.append_assoc]

/-- The record of `a` in `pairState`. -/
def pairSource : PeerInfo := (pairState.registry.peers.lookup peerA).get (by decide)

/-- Connection 1 of `pairState`, registered as `b`. -/
def pairReceiver : Conn := (pairState.conns 1).getD (Conn.accepted none)

/-- Were `a`'s record removed, `b`, in its session, would be told. -/
theorem session_notices_reach_every_mate_pair :
    ∃ tc' more, (pairState.removePeer peerA).conns pairTarget.writer = some tc' ∧
      tc'.out = pairReceiver.out ++ more ∧
        ⟨⟨.DISCONNECT, disconnectPayload peerA⟩, none⟩ ∈ more :=
  (session_notices_reach_every_mate reachable_pairState
    (show pairState.registry.peers.lookup peerB = some pairTarget by decide)
    (show pairState.conns pairTarget.writer = some pairReceiver by decide) (by decide)).1
    peerA pairSource (by decide) (by decide) (by decide)

end SentinelRelay
