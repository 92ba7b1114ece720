import SentinelRelay.Isolation

/-!
# What a connection hears before it registers

Until `_handle_register` accepts a `REGISTER` on a connection (lines 214-287 of
`src/relay/relay_server.py`), `_handle_message` ignores every other frame read there: the
handler's `current_peer_id` stays falsy (lines 183-212).  And every frame that another handler,
or the janitor, writes goes to the writer of a record, which `_handle_register` stored from an
accepted `REGISTER` on that writer's connection (`RecordsFrom`).  So, in every reachable state,
a connection that has never read an accepted `REGISTER` has been sent nothing but the
`ERROR(str(e))` replies to the `REGISTER`s it read that the parser rejected
(`unregistered_hears_only_rejections`): no relayed data, no notice, no list, no punch timing,
and no answer to any other request.
-/

namespace SentinelRelay

/-- Connection `conn` read a `REGISTER` that the parser accepted. -/
def Conn.Registered (conn : Conn) : Prop := ∃ f, RegisteredOn conn.log f

/-- `x` is the `ERROR` reply of `_handle_register` to a `REGISTER` that `conn` read and the
parser rejected. -/
def Conn.Rejection (conn : Conn) (x : Sent) : Prop :=
  ∃ payload e, (.REGISTER, payload) ∈ conn.log ∧ parseRegister payload = .error e ∧
    x = ⟨⟨.ERROR, utf8Encode e.str⟩, none⟩

/-- What the relay may have written to `conn`: anything once it registered, and before that
only the rejections of its own `REGISTER`s. -/
def Conn.MaySee (conn : Conn) (x : Sent) : Prop := conn.Registered ∨ conn.Rejection x

/-- The phases in which a handler still has to write to its own connection. -/
def Phase.answering : Phase → Bool
  | .notifying _ | .introducing _ | .replying _ => true
  | _ => false

/-- Every frame written to a connection is one it may see, and a handler that still has to
answer its connection has registered. -/
structure Server.Confined (s : Server) : Prop where
  out : ∀ t tc, s.conns t = some tc → ∀ x ∈ tc.out, tc.MaySee x
  pending : ∀ c conn, s.conns c = some conn → conn.phase.answering → conn.Registered

/-! ## What a later state keeps -/

section Later

variable {conns conns' : ConnId → Option Conn} {conn conn' : Conn} {x : Sent} {e : ConnId}

theorem Conn.Registered.mono (h : conn.Registered) (hl : conn.log <+: conn'.log) :
    conn'.Registered :=
  let ⟨f, hf⟩ := h
  ⟨f, hf.mono hl⟩

theorem Conn.MaySee.mono (h : conn.MaySee x) (hl : conn.log <+: conn'.log) : conn'.MaySee x := by
  rcases h with h | ⟨payload, e, hm, he, hx⟩
  · exact .inl (h.mono hl)
  · exact .inr ⟨payload, e, hl.subset hm, he, hx⟩

/-- A connection that registered still has, in any later state. -/
theorem Conn.Registered.carry (h : ∃ tc, conns e = some tc ∧ tc.Registered)
    (hg : Grows conns conns') : ∃ tc, conns' e = some tc ∧ tc.Registered := by
  obtain ⟨tc, ht, hreg⟩ := h
  obtain ⟨tc', ht', hl⟩ := hg e tc ht
  exact ⟨tc', ht', hreg.mono hl.2.2⟩

/-- A connection that registered may see any frame. -/
theorem Conn.Registered.maySee (h : ∃ tc, conns e = some tc ∧ tc.Registered) :
    ∀ tc, conns e = some tc → tc.MaySee x := by
  obtain ⟨tc, ht, hreg⟩ := h
  intro tc' ht'
  rw [ht] at ht'
  cases ht'
  exact .inl hreg

/-- The writer of a record registered on its connection. -/
theorem RecordsFrom.registered {r : Registry} {p : ShortStr} {o : PeerInfo}
    (hrec : RecordsFrom conns r) (h : r.peers.lookup p = some o) :
    ∃ tc, conns o.writer = some tc ∧ tc.Registered :=
  let ⟨cw, hcw, _, _, hreg⟩ := hrec p o h
  ⟨cw, hcw, _, hreg⟩

/-- A handler acting for an identity registered on its connection. -/
theorem Conn.Sound.registered (h : conn.Sound) {p : ShortStr}
    (hp : registered conn.peer_id = some p) : conn.Registered :=
  let ⟨f, hf, _⟩ := h p (.inl hp)
  ⟨f, hf⟩

end Later

theorem Grows.trans {conns conns' conns'' : ConnId → Option Conn} (h : Grows conns conns')
    (h' : Grows conns' conns'') : Grows conns conns'' := fun c conn hc =>
  let ⟨conn', hc', hl⟩ := h c conn hc
  let ⟨conn'', hc'', hl'⟩ := h' c conn' hc'
  ⟨conn'', hc'', hl.trans hl'⟩

theorem notifyWrites_to_records {r : Registry} {info : PeerInfo} {w : ConnId × Frame}
    (hw : w ∈ r.notifyWrites info) :
    ∃ pid o, r.peers.lookup pid = some o ∧ w.1 = o.writer := by
  obtain ⟨pid, -, hw⟩ := List.mem_filterMap.1 hw
  split_ifs at hw
  obtain ⟨o, ho, rfl⟩ := Option.map_eq_some'.1 hw
  exact ⟨pid, o, ho, rfl⟩

/-! ## What each update of the state keeps -/

namespace Server

namespace Confined

variable {s s' : Server} {c d : ConnId} {conn conn₀ : Conn} {x : Sent}

theorem of_conns (h : s.Confined) (hc : s'.conns = s.conns) : s'.Confined :=
  ⟨hc ▸ h.out, hc ▸ h.pending⟩

theorem with_registry (h : s.Confined) (r : Registry) : { s with registry := r }.Confined :=
  h.of_conns rfl

theorem with_stats (h : s.Confined) (st : Stats) : { s with stats := st }.Confined :=
  h.of_conns rfl

theorem setRegistry (h : s.Confined) (r : Registry) : (s.setRegistry r).Confined :=
  h.of_conns rfl

theorem setConn (h : s.Confined) (hc : s.conns c = some conn₀) (hl : conn₀.log <+: conn.log)
    (hout : conn.out = conn₀.out) (hp : conn.phase.answering → conn.Registered) :
    (s.setConn c conn).Confined := by
  refine ⟨fun t tc ht y hy => ?_, fun d cn hd => ?_⟩
  · rw [conns_setConn] at ht
    split_ifs at ht
    · cases ht
      exact (h.out c conn₀ hc y (hout ▸ hy)).mono hl
    · exact h.out t tc ht y hy
  · rw [conns_setConn] at hd
    split_ifs at hd
    · cases hd; exact hp
    · exact h.pending d cn hd

/-- A write keeps the confinement when its receiver may see the frame. -/
theorem write (h : s.Confined) (hx : ∀ tc, s.conns d = some tc → tc.MaySee x) :
    (s.write d x).Confined := by
  refine ⟨fun t tc ht y hy => ?_, fun e cn he => ?_⟩
  · rw [conns_write] at ht
    split_ifs at ht with htd
    · subst htd
      obtain ⟨tc₀, ht₀, rfl⟩ := Option.map_eq_some'.1 ht
      have hlog : tc₀.log <+: (tc₀.write x).log := by rw [Conn.log_write]
      rw [Conn.out_write] at hy
      split_ifs at hy
      · exact (h.out t tc₀ ht₀ y hy).mono hlog
      · rcases List.mem_append.1 hy with hy | hy
        · exact (h.out t tc₀ ht₀ y hy).mono hlog
        · rw [List.mem_singleton.1 hy]
          exact (hx tc₀ ht₀).mono hlog
    · exact h.out t tc ht y hy
  · rw [conns_write] at he
    split_ifs at he
    · obtain ⟨cn₀, h₀, rfl⟩ := Option.map_eq_some'.1 he
      intro ha
      rw [Conn.phase_write] at ha
      exact (h.pending d cn₀ h₀ ha).mono (by rw [Conn.log_write])
    · exact h.pending e cn he

/-- The writes of a critical section keep the confinement when each goes to a connection that
registered. -/
theorem writeAll (h : s.Confined) {ws : List (ConnId × Frame)}
    (hws : ∀ w ∈ ws, ∃ tc, s.conns w.1 = some tc ∧ tc.Registered) :
    (s.writeAll ws).Confined := by
  induction ws generalizing s with
  | nil => exact h
  | cons w ws ih =>
    exact ih (h.write (Conn.Registered.maySee (hws w (List.mem_cons_self w ws))))
      fun v hv => Conn.Registered.carry (hws v (List.mem_cons_of_mem w hv)) grows_write

section Records

variable (hrec : RecordsFrom s.conns s.registry)
include hrec

theorem removePeer (h : s.Confined) (p : ShortStr) : (s.removePeer p).Confined :=
  writeAll (s := s.setRegistry (s.registry.removePeer p).1) (h.of_conns rfl) fun _ hw => by
    obtain ⟨_, _, o, _, _, ho, rfl⟩ := removePeer_writes_to_mates hw
    exact hrec.registered ho

theorem closeStep (h : s.Confined) : (s.closeStep c conn).Confined := by
  have hclose : ∀ {s : Server}, s.Confined → (s.closeWriter c).Confined := by
    intro s h
    unfold Server.closeWriter; split
    · rename_i cn hc
      exact h.setConn hc (List.prefix_refl _) rfl nofun
    · exact h
  unfold Server.closeStep; split
  · exact hclose (h.removePeer hrec _)
  · exact hclose h

end Records

theorem accept (h : s.Confined) (peername : Option (Host × UInt16)) :
    (s.accept peername).Confined := by
  refine ⟨fun t tc ht y hy => ?_, fun d cn hd => ?_⟩
  · rw [conns_accept] at ht
    split_ifs at ht
    · cases ht; cases hy
    · exact h.out t tc ht y hy
  · rw [conns_accept] at hd
    split_ifs at hd
    · cases hd; nofun
    · exact h.pending d cn hd

/-- A handler that reads a frame keeps the confinement, whatever `_handle_message` does with
it: it answers its own connection only to reject a `REGISTER` or for an identity its connection
registered, and writes to others only through records. -/
theorem handleMessage {t : MessageType} {payload : Bytes} {idx : Nat} (h : s.Confined)
    (hrec : RecordsFrom s.conns s.registry) (hc : s.conns c = some conn₀)
    (hl : conn₀.Later conn) (hout : conn.out = conn₀.out) (hs : conn.Sound)
    (hr : conn.phase = .reading) (hm : (t, payload) ∈ conn.log) :
    (s.handleMessage c conn t payload idx).Confined := by
  have hread : conn.phase.answering → conn.Registered := by rw [hr]; nofun
  have setI : ∀ {k : Conn}, k.log = conn.log → k.out = conn.out →
      (k.phase.answering → conn.Registered) → (s.setConn c k).Confined :=
    fun hk ho hp => h.setConn hc (hk ▸ hl.2.2) (ho ▸ hout) fun ha => (hp ha).mono (by rw [hk])
  have replyI : ∀ {k : Conn} {f : Frame}, k.log = conn.log → k.out = conn.out →
      (k.phase.answering → conn.Registered) → k.MaySee ⟨f, none⟩ →
      (s.reply c k f).Confined :=
    fun hk ho hp hx => (setI hk ho hp).write fun tc ht => by
      rw [conns_setConn_self] at ht; cases ht; exact hx
  -- a frame to the writer of a record, after the handler's own update
  have toRecord : ∀ {k : Conn} {p : ShortStr} {o : PeerInfo} {x : Sent}, conn₀.Later k →
      s.registry.peers.lookup p = some o → ∀ tc, (s.setConn c k).conns o.writer = some tc →
        tc.MaySee x :=
    fun hk ho => Conn.Registered.maySee (Conn.Registered.carry (hrec.registered ho)
      (grows_setConn hc hk))
  unfold Server.handleMessage
  split
  · unfold Server.handleRegister; split
    · rename_i e he
      exact replyI (by rfl) (by rfl) (by exact hread) (.inr ⟨payload, e, hm, he, rfl⟩)
    · rename_i f hf
      exact (setI (by rfl) (by rfl) fun _ => ⟨f, payload, hm, hf⟩).setRegistry _
  · rename_i p hp
    unfold Server.handlePeerList; split
    · exact replyI rfl rfl hread (.inl (hs.registered hp))
    · exact setI (by rfl) (by rfl) (by nofun)
  · unfold Server.handleRelayData; split
    · exact setI rfl rfl hread
    · split
      · exact setI rfl rfl hread
      · rename_i target ht
        exact (setI (by rfl) (by rfl) (by nofun)).write
          (toRecord hl (relayTarget_eq_some.1 ht).1)
  · rename_i p hp
    exact ((setI rfl rfl hread).with_registry _).write fun tc ht => by
      rw [conns_setConn_self] at ht; cases ht; exact .inl (hs.registered hp)
  · rename_i p hp
    have hreg := hs.registered hp
    unfold Server.handleConnectRequest; split
    · exact replyI rfl rfl hread (.inl hreg)
    · split
      · exact replyI rfl rfl hread (.inl hreg)
      · rename_i src tgt hcon
        exact (setI (by rfl) (by rfl) fun _ => hreg).write
          (toRecord hl (connectPeers_eq_ok.1 hcon).1)
  · rename_i p hp
    have hreg := hs.registered hp
    unfold Server.handlePunchRequest; split
    · exact replyI rfl rfl hread (.inl hreg)
    · split
      · exact replyI rfl rfl hread (.inl hreg)
      · rename_i src tgt hpunch
        split
        · exact replyI rfl rfl hread (.inl hreg)
        · exact (setI (by rfl) (by rfl) fun _ => hreg).write
            (toRecord hl (punchPeers_eq_ok.1 hpunch).1)
  · unfold Server.updateExternalAddr; split
    · exact setI rfl rfl hread
    · exact (setI rfl rfl hread).with_registry _
  · exact setI rfl rfl hread

theorem handlerStep (h : s.Confined) (hrec : RecordsFrom s.conns s.registry)
    (hsound : ∀ c conn, s.conns c = some conn → conn.Sound) (hs : s.handlerStep c = some s') :
    s'.Confined := by
  unfold Server.handlerStep at hs
  split at hs
  · cases hs
  · rename_i conn hc
    have hkeep := Conn.Later.refl conn
    have hans := h.pending c conn hc
    have setI : ∀ {ph : Phase}, ¬ph.answering →
        (s.setConn c { conn with phase := ph }).Confined :=
      fun hph => h.setConn hc (List.prefix_refl _) rfl fun ha => absurd ha hph
    -- the handler's answer to its own connection, which registered
    have selfI : ∀ {s₁ : Server} {x : Sent}, conn.phase.answering →
        Grows s.conns s₁.conns → ∀ tc, s₁.conns c = some tc → tc.MaySee x :=
      fun ha hg => Conn.Registered.maySee (Conn.Registered.carry ⟨conn, hc, hans ha⟩ hg)
    split at hs
    · rename_i hph
      unfold Server.readStep at hs
      split at hs
      · cases hs
        exact h.handleMessage hrec hc ⟨rfl, rfl, List.prefix_append _ _⟩ rfl
          ((hsound c conn hc).mono (List.prefix_append _ _) rfl (.inr rfl)) hph
          (List.mem_append_right _ (List.mem_singleton_self _))
      all_goals first
        | (split_ifs at hs; cases hs; exact setI (by nofun))
        | (cases hs; exact setI (by nofun))
    · rename_i info hph
      cases hs
      have h₁ :
          (s.setConn c { conn with phase := .reading, peer_id := some info.peer_id }).Confined :=
        h.setConn hc (List.prefix_refl _) rfl (by nofun)
      have hg₁ : Grows s.conns
          (s.setConn c { conn with phase := .reading, peer_id := some info.peer_id }).conns :=
        grows_setConn hc hkeep
      refine (h₁.writeAll fun w hw => ?_).write
        (selfI (by rw [hph]; rfl) (hg₁.trans (grows_writeAll _)))
      obtain ⟨pid, o, ho, hw⟩ := notifyWrites_to_records hw
      rw [hw]
      exact Conn.Registered.carry (hrec.registered ho) hg₁
    · split at hs
      · split at hs
        · cases hs; exact setI (by nofun)
        · cases hs; exact (setI (by nofun)).with_stats _
      · cases hs; exact setI (by nofun)
    · cases hs; exact (setI (by nofun)).with_registry _
    · rename_i ack hph
      cases hs
      exact ((setI (by nofun)).with_stats _).write
        (selfI (by rw [hph]; rfl) (grows_setConn hc hkeep))
    · rename_i f hph
      cases hs
      exact (setI (by nofun)).write (selfI (by rw [hph]; rfl) (grows_setConn hc hkeep))
    · cases hs; exact h.closeStep hrec
    · cases hs

theorem step (h : s.Confined) (hrec : RecordsFrom s.conns s.registry)
    (hsound : ∀ c conn, s.conns c = some conn → conn.Sound) {e : Event}
    (hs : s.step e = some s') : s'.Confined := by
  rcases step_cases hs with ⟨peername, -, rfl⟩ | ⟨c, conn, _, _, _, hc, rfl, -⟩ | ⟨_, -, rfl⟩ |
    ⟨c, -, hs⟩ | ⟨-, rfl⟩
  · exact h.accept peername
  · exact h.setConn hc (List.prefix_refl _) rfl (h.pending c conn hc)
  · exact h.of_conns rfl
  · exact h.handlerStep hrec hsound hs
  · rcases janitorStep_cases s with ⟨j, hj⟩ | ⟨p, j, hj⟩ <;> rw [hj]
    · exact h.of_conns rfl
    · exact (h.removePeer hrec p).of_conns rfl

end Confined

end Server

/-- Every reachable state is confined. -/
theorem Reachable.confined {s : Server} (hs : Reachable s) : s.Confined := by
  induction hs with
  | init => exact ⟨fun _ _ h => (by cases h), fun _ _ h => (by cases h)⟩
  | step e hr h ih => exact ih.step hr.provenance.records hr.provenance.handlers h

/-! ## The theorem -/

/-- **A connection hears nothing before it registers.**  In every reachable state, whatever
the connections and the interleaving of their handlers, closes and janitor passes, every frame
written to a connection that has never read a `REGISTER` the parser accepted is the `ERROR`
reply to a `REGISTER` it read that the parser rejected, carrying the text of the rejection:
no frame of another peer reaches it, and none of its other requests is answered. -/
theorem unregistered_hears_only_rejections {s : Server} (hs : Reachable s) {t : ConnId}
    {tc : Conn} (ht : s.conns t = some tc)
    (hnone : ∀ payload, (.REGISTER, payload) ∈ tc.log →
      ∀ f, parseRegister payload ≠ .ok f)
    {x : Sent} (hx : x ∈ tc.out) :
    ∃ payload e, (.REGISTER, payload) ∈ tc.log ∧ parseRegister payload = .error e ∧
      x = ⟨⟨.ERROR, utf8Encode e.str⟩, none⟩ := by
  rcases hs.confined.out t tc ht x hx with ⟨f, payload, hm, hf⟩ | h
  · exact absurd hf (hnone payload hm f)
  · exact h

/-- A connection sends an empty `REGISTER` payload, which the parser rejects. -/
def anonRun : List Event := [.accept none, .sendFrame 0 .REGISTER [], .handler 0]

/-- The state `anonRun` reaches. -/
def anonState : Server := ((Server.init 0).run anonRun).getD (Server.init 0)

/-- Connection 0 of `anonState`. -/
def anonConn : Conn := (anonState.conns 0).getD (Conn.accepted none)

/-- The connection has been told only that its `REGISTER` was rejected. -/
theorem unregistered_hears_only_rejections_anon :
    ∃ payload e, (.REGISTER, payload) ∈ anonConn.log ∧ parseRegister payload = .error e ∧
      (⟨⟨.ERROR, utf8Encode PyError.indexError.str⟩, none⟩ : Sent) =
        ⟨⟨.ERROR, utf8Encode e.str⟩, none⟩ := by
  have hlog : anonConn.log = [(.REGISTER, [])] := by decide
  refine unregistered_hears_only_rejections ((Reachable.init 0).run anonRun rfl)
    (show anonState.conns 0 = some anonConn by decide) (fun payload hp f => ?_) (by decide)
  rw [hlog, List.mem_singleton, Prod.mk.injEq] at hp
  rw [hp.2, show parseRegister [] = .error .indexError by decide]
  nofun

end SentinelRelay
