import SentinelRelay.Consistency

/-!
# What the relay writes, and in which order

`StreamWriter.write` appends whole frames, so the bytes written to a connection are the
`_make_message` encodings of its frames one after the other (`Conn.stream`), and a client
decodes them back frame by frame.  The `DATA` frames relayed from one source connection reach
a target in the order the source sent them: each carries the index of the frame it relays in
the source's ghost log, and `RelayOrder` says that, per target and source, these indices
increase and name `DATA` frames the source read, whose data the relayed frame carries.

`RelayOrder` holds initially and every step keeps it: each update of the state keeps it
(`RelayOrder.setConn`, `RelayOrder.write`), the handlers are compositions of them, and the one
write that relays a frame tags it with the index of the frame just read (`RelayOrder.relay`).
-/

namespace SentinelRelay

/-- The bytes written to a connection: `_make_message` of each frame, in the order written. -/
def Conn.stream (conn : Conn) : Bytes := conn.out.flatMap (·.frame.bytes)

/-- The indices, in the source's log, of the frames among `out` relayed from connection `c`. -/
def relayedFrom (out : List Sent) (c : ConnId) : List Nat :=
  out.filterMap fun x => x.relayOf.bind fun r => if r.1 = c then some r.2 else none

/-- `f` relays the `i`-th frame of `log`: a `DATA` frame whose payload names a target, and `f`
carries its data behind a sender id. -/
def RelaysFrame (log : List (MessageType × Bytes)) (i : Nat) (f : Frame) : Prop :=
  ∃ payload target_id data from_peer_id, log[i]? = some (.DATA, payload) ∧
    parseTarget payload = .ok (target_id, data) ∧ f = ⟨.DATA, relayPayload from_peer_id data⟩

section Lemmas

variable {log : List (MessageType × Bytes)} {i j : Nat} {f : Frame} {out : List Sent}
  {c : ConnId} {x : Sent}

theorem RelaysFrame.lt_length (h : RelaysFrame log i f) : i < log.length := by
  obtain ⟨_, _, _, _, hi, -⟩ := h
  exact (List.getElem?_eq_some_iff.1 hi).1

theorem RelaysFrame.append (h : RelaysFrame log i f) (ys : List (MessageType × Bytes)) :
    RelaysFrame (log ++ ys) i f := by
  have hlt := h.lt_length
  obtain ⟨payload, target_id, data, from_peer_id, hi, hp, hf⟩ := h
  exact ⟨payload, target_id, data, from_peer_id, by rw [List.getElem?_append_left hlt, hi], hp, hf⟩

@[simp] theorem relayedFrom_append (xs ys : List Sent) :
    relayedFrom (xs ++ ys) c = relayedFrom xs c ++ relayedFrom ys c :=
  List.filterMap_append ..

theorem mem_relayedFrom : j ∈ relayedFrom out c ↔ ∃ x ∈ out, x.relayOf = some (c, j) := by
  simp only [relayedFrom, List.mem_filterMap, Option.bind_eq_some]
  constructor
  · rintro ⟨x, hx, ⟨c', i⟩, hr, h⟩
    split_ifs at h with hc
    cases h; subst hc; exact ⟨x, hx, hr⟩
  · rintro ⟨x, hx, hr⟩
    exact ⟨x, hx, _, hr, if_pos rfl⟩

theorem pairwise_relayedFrom_singleton (x : Sent) (c : ConnId) :
    (relayedFrom [x] c).Pairwise (· < ·) := by
  simp only [relayedFrom, List.filterMap_cons, List.filterMap_nil]
  split <;> simp

end Lemmas

/-- The relayed frames written to each connection, per source: their indices increase, and
each relays a `DATA` frame the source read.  Connections are numbered below `next`. -/
structure RelayOrder (s : Server) : Prop where
  fresh : ∀ c, s.next ≤ c → s.conns c = none
  source : ∀ t tc, s.conns t = some tc → ∀ x ∈ tc.out, ∀ c i, x.relayOf = some (c, i) →
    ∃ cc, s.conns c = some cc ∧ RelaysFrame cc.log i x.frame
  sorted : ∀ t tc, s.conns t = some tc → ∀ c, (relayedFrom tc.out c).Pairwise (· < ·)

/-- `conn` is connection `c` of `s` as its handler goes on: the same output, a longer log. -/
def ReadOn (s : Server) (c : ConnId) (conn : Conn) : Prop :=
  ∃ conn₀, s.conns c = some conn₀ ∧ conn.out = conn₀.out ∧ ∃ ys, conn.log = conn₀.log ++ ys

namespace RelayOrder

variable {s s' : Server} {c d t : ConnId} {conn : Conn} {x : Sent}

theorem init (clock : Nat) : RelayOrder (Server.init clock) :=
  ⟨fun _ _ => rfl, fun _ _ h => (by cases h), fun _ _ h => (by cases h)⟩

/-- `RelayOrder` reads only the connections and their count. -/
theorem of_eq (h : RelayOrder s) (hc : s'.conns = s.conns) (hn : s'.next = s.next) :
    RelayOrder s' := by
  obtain ⟨h₁, h₂, h₃⟩ := h
  exact ⟨hc ▸ hn ▸ h₁, hc ▸ h₂, hc ▸ h₃⟩

theorem setConn (h : RelayOrder s) (hr : ReadOn s c conn) : RelayOrder (s.setConn c conn) := by
  obtain ⟨conn₀, hc, hout, ys, hlog⟩ := hr
  have lift : ∀ {c' cc i f}, s.conns c' = some cc → RelaysFrame cc.log i f →
      ∃ cc', (s.setConn c conn).conns c' = some cc' ∧ RelaysFrame cc'.log i f := by
    intro c' cc i f hc' hf
    by_cases hcc : c' = c
    · subst hcc; rw [hc] at hc'; cases hc'
      exact ⟨conn, by simp, hlog ▸ hf.append ys⟩
    · exact ⟨cc, by simp [hcc, hc'], hf⟩
  refine ⟨fun d hd => ?_, fun t tc ht y hy c' i hyi => ?_, fun t tc ht c' => ?_⟩
  · have := h.fresh d hd
    simp only [Server.conns_setConn]
    split_ifs with hdc
    · subst hdc; rw [hc] at this; cases this
    · exact this
  · simp only [Server.conns_setConn] at ht
    split_ifs at ht with htc
    · cases ht; rw [hout] at hy
      obtain ⟨cc, h₁, h₂⟩ := h.source c conn₀ hc y hy c' i hyi
      exact lift h₁ h₂
    · obtain ⟨cc, h₁, h₂⟩ := h.source t tc ht y hy c' i hyi
      exact lift h₁ h₂
  · simp only [Server.conns_setConn] at ht
    split_ifs at ht with htc
    · cases ht; rw [hout]; exact h.sorted c conn₀ hc c'
    · exact h.sorted t tc ht c'

/-- A write keeps the order when the frame relays nothing, or relays a frame of a later index
than every frame relayed from the same source. -/
theorem write (h : RelayOrder s)
    (hx : ∀ c i, x.relayOf = some (c, i) →
      (∃ cc, s.conns c = some cc ∧ RelaysFrame cc.log i x.frame) ∧
      ∀ t tc, s.conns t = some tc → ∀ j ∈ relayedFrom tc.out c, j < i) :
    RelayOrder (s.write d x) := by
  have lift : ∀ {c cc i f}, s.conns c = some cc → RelaysFrame cc.log i f →
      ∃ cc', (s.write d x).conns c = some cc' ∧ RelaysFrame cc'.log i f := by
    intro c cc i f hc hf
    by_cases hcd : c = d
    · subst hcd; exact ⟨cc.write x, by simp [hc], by simpa using hf⟩
    · exact ⟨cc, by simp [hcd, hc], hf⟩
  refine ⟨fun c hc => ?_, fun t tc ht y hy c i hyi => ?_, fun t tc ht c => ?_⟩
  · have h₀ := h.fresh c hc
    simp only [Server.conns_write]
    split_ifs with hcd
    · subst hcd; simp [h₀]
    · exact h₀
  · simp only [Server.conns_write] at ht
    split_ifs at ht with htd
    · subst htd
      obtain ⟨tc₀, ht₀, rfl⟩ := Option.map_eq_some'.1 ht
      have hy' : y ∈ tc₀.out ∨ y = x := by
        rw [Conn.out_write] at hy; split_ifs at hy
        · exact .inl hy
        · simpa using hy
      rcases hy' with hy' | rfl
      · obtain ⟨cc, h₁, h₂⟩ := h.source _ tc₀ ht₀ y hy' c i hyi
        exact lift h₁ h₂
      · obtain ⟨⟨cc, h₁, h₂⟩, -⟩ := hx c i hyi
        exact lift h₁ h₂
    · obtain ⟨cc, h₁, h₂⟩ := h.source t tc ht y hy c i hyi
      exact lift h₁ h₂
  · simp only [Server.conns_write] at ht
    split_ifs at ht with htd
    · subst htd
      obtain ⟨tc₀, ht₀, rfl⟩ := Option.map_eq_some'.1 ht
      rw [Conn.out_write]
      split_ifs
      · exact h.sorted _ _ ht₀ c
      · rw [relayedFrom_append, List.pairwise_append]
        refine ⟨h.sorted _ _ ht₀ c, pairwise_relayedFrom_singleton x c, fun a ha b hb => ?_⟩
        obtain ⟨y, hy, hyb⟩ := mem_relayedFrom.1 hb
        rw [List.mem_singleton.1 hy] at hyb
        exact (hx c b hyb).2 _ tc₀ ht₀ a ha
    · exact h.sorted t tc ht c

theorem write_plain (h : RelayOrder s) (f : Frame) : RelayOrder (s.write d ⟨f, none⟩) :=
  h.write fun _ _ h => by cases h

theorem writeAll (h : RelayOrder s) (ws : List (ConnId × Frame)) : RelayOrder (s.writeAll ws) := by
  induction ws generalizing s with
  | nil => exact h
  | cons w ws ih => exact ih (h.write_plain w.2)

theorem reply (h : RelayOrder s) (hr : ReadOn s c conn) (f : Frame) :
    RelayOrder (s.reply c conn f) :=
  (h.setConn (by exact hr)).write_plain f

theorem setRegistry (h : RelayOrder s) (r : Registry) : RelayOrder (s.setRegistry r) :=
  h.of_eq rfl rfl

theorem with_registry (h : RelayOrder s) (r : Registry) : RelayOrder { s with registry := r } :=
  h.of_eq rfl rfl

theorem with_stats (h : RelayOrder s) (st : Stats) : RelayOrder { s with stats := st } :=
  h.of_eq rfl rfl

theorem with_janitor (h : RelayOrder s) (j : JanitorPhase) : RelayOrder { s with janitor := j } :=
  h.of_eq rfl rfl

theorem removePeer (h : RelayOrder s) (p : ShortStr) : RelayOrder (s.removePeer p) :=
  (h.setRegistry _).writeAll _

theorem closeWriter (h : RelayOrder s) (c : ConnId) : RelayOrder (s.closeWriter c) := by
  unfold Server.closeWriter
  split
  · rename_i conn hc
    exact h.setConn (by exact ⟨conn, hc, rfl, [], by simp⟩)
  · exact h

/-- **The relay write**: the frame relayed from `c` carries the index of the `DATA` frame its
handler has just read. -/
theorem relay (h : RelayOrder s) {conn₀ : Conn} {payload data : Bytes}
    {target : ShortStr} (hc : s.conns c = some conn₀) (hout : conn.out = conn₀.out)
    (hlog : conn.log = conn₀.log ++ [(.DATA, payload)])
    (hp : parseTarget payload = .ok (target, data)) (t : ConnId) (from_peer_id : ShortStr) :
    RelayOrder ((s.setConn c conn).write t
      ⟨⟨.DATA, relayPayload from_peer_id data⟩, some (c, conn₀.log.length)⟩) := by
  refine (h.setConn ⟨conn₀, hc, hout, _, hlog⟩).write fun c' i hx => ?_
  cases hx
  refine ⟨⟨conn, by simp, payload, target, data, from_peer_id, ?_, hp, rfl⟩,
    fun t' tc ht' j hj => ?_⟩
  · rw [hlog]; exact List.getElem?_concat_length _ _
  · obtain ⟨y, hy, hyj⟩ := mem_relayedFrom.1 hj
    have : ∃ tc₀, s.conns t' = some tc₀ ∧ y ∈ tc₀.out := by
      simp only [Server.conns_setConn] at ht'
      split_ifs at ht' with htc
      · cases ht'; exact ⟨conn₀, htc ▸ hc, hout ▸ hy⟩
      · exact ⟨tc, ht', hy⟩
    obtain ⟨tc₀, ht₀, hy₀⟩ := this
    obtain ⟨cc, hcc, hf⟩ := h.source t' tc₀ ht₀ y hy₀ c j hyj
    rw [hc] at hcc; cases hcc
    exact hf.lt_length

theorem accept (h : RelayOrder s) (peername : Option (Host × UInt16)) :
    RelayOrder (s.accept peername) := by
  have hnew : ∀ {c cc}, s.conns c = some cc → c ≠ s.next := fun hc hcn => by
    rw [hcn, h.fresh _ (Nat.le_refl _)] at hc; cases hc
  refine ⟨fun c hc => ?_, fun t tc ht y hy c i hyi => ?_, fun t tc ht c => ?_⟩
  · have hc' : s.next + 1 ≤ c := hc
    rw [Server.conns_accept, if_neg (Nat.ne_of_gt hc')]
    exact h.fresh c (Nat.le_of_succ_le hc')
  · rw [Server.conns_accept] at ht
    split_ifs at ht
    · cases ht; cases hy
    · obtain ⟨cc, h₁, h₂⟩ := h.source t tc ht y hy c i hyi
      exact ⟨cc, by rw [Server.conns_accept, if_neg (hnew h₁), h₁], h₂⟩
  · rw [Server.conns_accept] at ht
    split_ifs at ht
    · cases ht; exact List.Pairwise.nil
    · exact h.sorted t tc ht c

/-! ### The handlers -/

section Handlers

variable {p : ShortStr} {payload : Bytes}

theorem handleRegister (h : RelayOrder s) (hr : ReadOn s c conn) :
    RelayOrder (s.handleRegister c conn payload) := by
  unfold Server.handleRegister; split
  · exact h.reply (by exact hr) _
  · exact (h.setConn (by exact hr)).setRegistry _

theorem handlePeerList (h : RelayOrder s) (hr : ReadOn s c conn) :
    RelayOrder (s.handlePeerList c conn p) := by
  unfold Server.handlePeerList; split
  · exact h.reply (by exact hr) _
  · exact h.setConn (by exact hr)

theorem handleRelayData (h : RelayOrder s) {conn₀ : Conn} (hc : s.conns c = some conn₀)
    (hout : conn.out = conn₀.out) (hlog : conn.log = conn₀.log ++ [(.DATA, payload)]) :
    RelayOrder (s.handleRelayData c conn p payload conn₀.log.length) := by
  unfold Server.handleRelayData
  split
  · exact h.setConn (by exact ⟨conn₀, hc, hout, _, hlog⟩)
  · rename_i hp
    split
    · exact h.setConn (by exact ⟨conn₀, hc, hout, _, hlog⟩)
    · exact h.relay hc (by exact hout) (by exact hlog) hp _ _

theorem handleConnectRequest (h : RelayOrder s) (hr : ReadOn s c conn) :
    RelayOrder (s.handleConnectRequest c conn p payload) := by
  unfold Server.handleConnectRequest; split
  · exact h.reply (by exact hr) _
  · split
    · exact h.reply (by exact hr) _
    · exact (h.setConn (by exact hr)).write_plain _

theorem handlePunchRequest (h : RelayOrder s) (hr : ReadOn s c conn) :
    RelayOrder (s.handlePunchRequest c conn p payload) := by
  unfold Server.handlePunchRequest; split
  · exact h.reply (by exact hr) _
  · split
    · exact h.reply (by exact hr) _
    · split
      · exact h.reply (by exact hr) _
      · exact (h.setConn (by exact hr)).write_plain _

theorem updateExternalAddr (h : RelayOrder s) (hr : ReadOn s c conn) :
    RelayOrder (s.updateExternalAddr c conn p payload) := by
  unfold Server.updateExternalAddr; split
  · exact h.setConn (by exact hr)
  · exact (h.setConn (by exact hr)).with_registry _

theorem handleMessage (h : RelayOrder s) {conn₀ : Conn} {t : MessageType}
    (hc : s.conns c = some conn₀) (hout : conn.out = conn₀.out)
    (hlog : conn.log = conn₀.log ++ [(t, payload)]) :
    RelayOrder (s.handleMessage c conn t payload conn₀.log.length) := by
  have hr : ReadOn s c conn := ⟨conn₀, hc, hout, _, hlog⟩
  unfold Server.handleMessage
  split
  · exact h.handleRegister (by exact hr)
  · exact h.handlePeerList (by exact hr)
  · exact h.handleRelayData hc (by exact hout) (by exact hlog)
  · exact ((h.setConn (by exact hr)).with_registry _).write_plain _
  · exact h.handleConnectRequest (by exact hr)
  · exact h.handlePunchRequest (by exact hr)
  · exact h.updateExternalAddr (by exact hr)
  · exact h.setConn (by exact hr)

theorem readStep (h : RelayOrder s) (hc : s.conns c = some conn)
    (hs : s.readStep c conn = some s') : RelayOrder s' := by
  have hr : ReadOn s c conn := ⟨conn, hc, rfl, [], by simp⟩
  unfold Server.readStep at hs
  split at hs
  · cases hs; exact h.handleMessage hc rfl rfl
  all_goals first | (split_ifs at hs; cases hs; exact h.setConn hr) | (cases hs; exact h.setConn hr)

theorem closeStep (h : RelayOrder s) : RelayOrder (s.closeStep c conn) := by
  unfold Server.closeStep; split
  · exact (h.removePeer _).closeWriter c
  · exact h.closeWriter c

theorem handlerStep (h : RelayOrder s) (hs : s.handlerStep c = some s') : RelayOrder s' := by
  unfold Server.handlerStep at hs
  split at hs
  · cases hs
  · rename_i conn hc
    have hr : ReadOn s c conn := ⟨conn, hc, rfl, [], by simp⟩
    split at hs
    · exact h.readStep hc hs
    · cases hs; exact ((h.setConn (by exact hr)).writeAll _).write_plain _
    · split at hs
      · split at hs
        · cases hs; exact h.setConn (by exact hr)
        · cases hs; exact (h.setConn (by exact hr)).with_stats _
      · cases hs; exact h.setConn (by exact hr)
    · cases hs; exact (h.setConn (by exact hr)).with_registry _
    · cases hs; exact ((h.setConn (by exact hr)).with_stats _).write_plain _
    · cases hs; exact h.reply (by exact hr) _
    · cases hs; exact h.closeStep
    · cases hs

theorem janitorStep (h : RelayOrder s) : RelayOrder s.janitorStep := by
  rcases Server.janitorStep_cases s with ⟨j, hj⟩ | ⟨p, j, hj⟩ <;> rw [hj]
  · exact h.with_janitor _
  · exact (h.removePeer _).with_janitor _

end Handlers

/-- Every step keeps the order of relayed frames. -/
theorem step (h : RelayOrder s) {e : Event} (hs : s.step e = some s') : RelayOrder s' := by
  rcases Server.step_cases hs with ⟨peername, -, rfl⟩ | ⟨c, conn, _, _, _, hc, rfl, -⟩ |
    ⟨_, -, rfl⟩ | ⟨c, -, hs⟩ | ⟨-, rfl⟩
  · exact h.accept peername
  · exact h.setConn (by exact ⟨conn, hc, rfl, [], by simp⟩)
  · exact h.of_eq rfl rfl
  · exact h.handlerStep hs
  · exact h.janitorStep

end RelayOrder

theorem Reachable.relayOrder {s : Server} (hs : Reachable s) : RelayOrder s := by
  induction hs with
  | init clock => exact .init clock
  | step e _ h ih => exact ih.step h

/-- **Per-connection output is whole frames in order.**  In every reachable state, whatever
the connections and the interleaving of their handlers and the janitor, the bytes written to
a connection decode, frame by frame, to the frames written to it, when each is within the
cap; and the `DATA` frames relayed to it from one source connection relay, in increasing
order of the source's reading, `DATA` frames the source read, each with its data. -/
theorem reachable_output_in_order {s : Server} (hs : Reachable s) :
    ∀ t tc, s.conns t = some tc →
      ((∀ x ∈ tc.out, x.frame.payload.length ≤ maxPayload) →
        decodeStream tc.stream = (tc.out.map fun x => (x.frame.type, x.frame.payload), .closed)) ∧
      ∀ c, (relayedFrom tc.out c).Pairwise (· < ·) ∧
        ∀ x ∈ tc.out, ∀ i, x.relayOf = some (c, i) →
          ∃ cc, s.conns c = some cc ∧ RelaysFrame cc.log i x.frame := by
  intro t tc ht
  have h := hs.relayOrder
  refine ⟨fun hcap => ?_, fun c => ⟨h.sorted t tc ht c, fun x hx i hi => h.source t tc ht x hx c i hi⟩⟩
  have hstream : tc.stream =
      (tc.out.map fun x => (x.frame.type, x.frame.payload)).flatMap fun f => makeMessage f.1 f.2 := by
    simp [Conn.stream, Frame.bytes, List.flatMap_map]
  rw [hstream, decodeStream_makeMessages _ (by simpa using hcap)]

/-- After `pairRun`, `a` sends two `DATA` frames to `b`; each is relayed, drained and counted. -/
def relayRun : List Event :=
  pairRun ++ [.sendFrame 0 .DATA (targetPayload peerB [1]), .handler 0, .handler 0, .handler 0,
    .sendFrame 0 .DATA (targetPayload peerB [2]), .handler 0, .handler 0, .handler 0]

/-- The state `relayRun` reaches. -/
def relayState : Server := ((Server.init 0).run relayRun).getD (Server.init 0)

theorem reachable_relayState : Reachable relayState := (Reachable.init 0).run relayRun rfl

/-- The frames `b` receives from `a` relay the second and third frames `a` sent, in order. -/
theorem relayed_pair_in_order :
    (relayState.conns 1).map (fun tc => relayedFrom tc.out 0) = some [1, 2] ∧
      ∀ tc, relayState.conns 1 = some tc → (relayedFrom tc.out 0).Pairwise (· < ·) :=
  ⟨by decide, fun tc h => ((reachable_output_in_order reachable_relayState 1 tc h).2 0).1⟩

/-! ## Who learns of whom -/

section Checks

variable {r : Registry} {a t : ShortStr} {src tgt : PeerInfo}

/-- `_handle_connect_request` introduces two records of one session. -/
theorem connectPeers_eq_ok : r.connectPeers a t = .ok (src, tgt) ↔
    r.peers.lookup t = some tgt ∧ r.peers.lookup a = some src ∧
      src.session_code = tgt.session_code := by
  unfold Registry.connectPeers
  cases r.peers.lookup t with
  | none => simp
  | some target =>
    cases r.peers.lookup a with
    | none => simp
    | some from_peer =>
      by_cases hs : from_peer.session_code = target.session_code
      · simp only [hs, ne_eq, not_true_eq_false, if_false, Except.ok.injEq, Prod.mk.injEq,
          Option.some.injEq]
        constructor
        · rintro ⟨rfl, rfl⟩; exact ⟨rfl, rfl, hs⟩
        · rintro ⟨rfl, rfl, -⟩; exact ⟨rfl, rfl⟩
      · simp only [hs, ne_eq, not_false_eq_true, if_true, Option.some.injEq]
        constructor
        · nofun
        · rintro ⟨rfl, rfl, h⟩; exact absurd h hs

/-- `_handle_punch_request` introduces any two records: it does not compare their sessions. -/
theorem punchPeers_eq_ok : r.punchPeers a t = .ok (src, tgt) ↔
    r.peers.lookup t = some tgt ∧ r.peers.lookup a = some src := by
  unfold Registry.punchPeers
  cases r.peers.lookup t with
  | none => simp
  | some target =>
    cases r.peers.lookup a with
    | none => simp
    | some from_peer =>
      simp only [Except.ok.injEq, Prod.mk.injEq, Option.some.injEq]
      exact ⟨fun ⟨h₁, h₂⟩ => ⟨h₂, h₁⟩, fun ⟨h₁, h₂⟩ => ⟨h₂, h₁⟩⟩

/-- `_handle_relay_data` relays to a record of the sender's session, or to any record when the
sender has none. -/
theorem relayTarget_eq_some : r.relayTarget a t = some tgt ↔
    r.peers.lookup t = some tgt ∧
      ∀ src, r.peers.lookup a = some src → src.session_code = tgt.session_code := by
  unfold Registry.relayTarget
  cases r.peers.lookup t with
  | none => simp
  | some target =>
    cases r.peers.lookup a with
    | none => simp
    | some from_peer =>
      by_cases hs : from_peer.session_code = target.session_code
      · simp only [hs, ne_eq, not_true_eq_false, if_false, Option.some.injEq]
        constructor
        · rintro rfl; exact ⟨rfl, fun src h => by cases h; exact hs⟩
        · rintro ⟨rfl, -⟩; rfl
      · simp only [hs, ne_eq, not_false_eq_true, if_true, Option.some.injEq]
        constructor
        · nofun
        · rintro ⟨rfl, h⟩; exact absurd (h from_peer rfl) hs

end Checks

/-- The host `10.0.0.1`. -/
def hostA : Host := ⟨⟨"10.0.0.1", by decide⟩, by decide⟩

/-- The host `10.0.0.2`. -/
def hostB : Host := ⟨⟨"10.0.0.2", by decide⟩, by decide⟩

/-- `a` on `10.0.0.1:4000` registers in `s`, `b` on `10.0.0.2:5000` in `t`, and `a` asks to punch
through to `b`. -/
def punchRun : List Event :=
  [.accept (some (hostA, 4000)), .accept (some (hostB, 5000))] ++ registerRun 0 peerA sessionS ++
    registerRun 1 peerB sessionT ++
    [.sendFrame 0 .PUNCH_REQUEST (targetPayload peerB []), .handler 0, .handler 0]

/-- `a` registers in `s` at time 0 and goes silent; at 100 s the janitor evicts it while its
connection stays open; `b` registers in `t`, and `a` sends `DATA` to `b`. -/
def evictedRun : List Event :=
  [.accept (some (hostA, 4000))] ++ registerRun 0 peerA sessionS ++
    [.tick 100000, .janitor, .janitor, .accept (some (hostB, 5000))] ++
    registerRun 1 peerB sessionT ++ [.sendFrame 0 .DATA (targetPayload peerB [0x48, 0x69]), .handler 0]

/-- **Peers of two sessions learn of each other.**  A `PUNCH_REQUEST` from `a` in `s` to `b` in
`t` sends each the other's public endpoint; and once the janitor has evicted `a`, whose
connection stays open, its `DATA` to `b` in `t` is relayed. -/
theorem punch_and_relay_cross_sessions :
    ((Server.init 0).run punchRun).map (fun s =>
        ((s.registry.peers.lookup peerA).map (·.session_code),
          (s.registry.peers.lookup peerB).map (·.session_code),
          (s.conns 1).map fun tc => tc.out.map (·.frame),
          (s.conns 0).map fun tc => tc.out.map (·.frame))) =
      some (some sessionS, some sessionT,
        some [⟨.REGISTER_ACK, utf8Encode "OK"⟩, ⟨.PUNCH_SYNC, punchPayload (beBytes 8 500) hostA 4000⟩],
        some [⟨.REGISTER_ACK, utf8Encode "OK"⟩, ⟨.PUNCH_SYNC, punchPayload (beBytes 8 500) hostB 5000⟩]) ∧
    ((Server.init 0).run evictedRun).map (fun s =>
        ((s.conns 0).map (·.peer_id), (s.registry.peers.lookup peerA).map (·.session_code),
          (s.registry.peers.lookup peerB).map (·.session_code),
          (s.conns 1).map fun tc => tc.out.map (·.frame))) =
      some (some (some peerA), none, some sessionT,
        some [⟨.REGISTER_ACK, utf8Encode "OK"⟩, ⟨.DATA, relayPayload peerA [0x48, 0x69]⟩]) := by
  constructor <;> decide

/-! ## The payloads of the notifications -/

/-- Every write of `_remove_peer` is a `DISCONNECT` whose payload is the id behind its character
count. -/
theorem mem_removePeer_writes {r : Registry} {p : ShortStr} {w : ConnId × Frame}
    (hw : w ∈ (r.removePeer p).2) : w.2 = ⟨.DISCONNECT, charField p⟩ := by
  unfold Registry.removePeer at hw
  split at hw
  · cases hw
  · obtain ⟨other, -, hw⟩ := List.mem_filterMap.1 hw
    obtain ⟨o, -, rfl⟩ := Option.map_eq_some'.1 hw
    rfl

/-- `é` registers in `s`, then `b`; then the client of `é` hangs up. -/
def multibyteRun : List Event :=
  [.accept none, .accept none] ++ registerRun 0 eAcute sessionS ++ registerRun 1 peerB sessionS ++
    [.hangup 0, .handler 0, .handler 0]

/-- **A `DISCONNECT` naming `é` does not parse back to `é`**: `b` receives the payload
`01 C3 A9`, which the grammar reads as the one-byte id `C3` and a stray `A9`. -/
theorem disconnect_prefixes_character_count :
    ((Server.init 0).run multibyteRun).map
        (fun s => (s.conns 1).map fun tc => tc.out.getLast?.map (·.frame)) =
      some (some (some ⟨.DISCONNECT, [0x01, 0xC3, 0xA9]⟩)) ∧
    readField [0x01, 0xC3, 0xA9] = some ([0xC3], [0xA9]) ∧ eAcute.bytes = [0xC3, 0xA9] := by
  decide

end SentinelRelay
