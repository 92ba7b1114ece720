import SentinelRelay.Effects

/-!
# Where records and relayed frames come from

Every record of `RelayServer.peers` is built by `_handle_register` (lines 247-257 of
`src/relay/relay_server.py`) from a `REGISTER` payload just read on a connection, with that
connection's writer and `peername`; the later updates of the record keep those fields
(`FieldEffect.sameIdentity`).  Every id a handler acts for is the `peer_id` of such a payload
(line 154).  A relayed `DATA` frame goes to the writer of the record of its target id, under
the sender's id (lines 333-350).  So, in every reachable state, whatever the interleaving:

* each record traces back to a `REGISTER` its writer's connection read, with the record's
  session and private endpoint, and its public endpoint is that connection's `peername`, and
  each handler's identity is an id its connection registered (`records_registered_on_writer`);
* each relayed frame carries the data of a `DATA` frame its source connection read, behind an
  id the source registered, and lands on a connection that registered the id the frame was
  addressed to (`relayed_frames_routed_by_registration`).

Connections are never forgotten: a step keeps each one's `peername` and only extends its log
(`Conn.Later`), so what a connection registered stays registered on it.
-/

namespace SentinelRelay

/-- A `REGISTER` read on a connection whose log is `log`, with a payload that the parser of
`_handle_register` accepts with the fields `f`. -/
def RegisteredOn (log : List (MessageType × Bytes)) (f : RegisterFields) : Prop :=
  ∃ payload, (.REGISTER, payload) ∈ log ∧ parseRegister payload = .ok f

/-- Connection `conn` registered `p`: it read a `REGISTER` of `p` that the parser accepted. -/
def Conn.Claims (conn : Conn) (p : ShortStr) : Prop :=
  ∃ f, RegisteredOn conn.log f ∧ f.peer_id = p

/-- The id a handler is about to take: that of the record it stored, in `notifying`. -/
def Phase.announcing : Phase → Option ShortStr
  | .notifying info => some info.peer_id
  | _ => none

/-- The handler's identity, and the one it is about to take, are ids its connection
registered. -/
def Conn.Sound (conn : Conn) : Prop :=
  ∀ p, registered conn.peer_id = some p ∨ conn.phase.announcing = some p → conn.Claims p

/-- `conn'` is connection `conn` later on: the same `peername`, and a log that only grew. -/
def Conn.Later (conn conn' : Conn) : Prop :=
  conn'.client_ip = conn.client_ip ∧ conn'.client_port = conn.client_port ∧ conn.log <+: conn'.log

/-- The record `info` stored under `p` comes from its writer: a connection with the record's
public endpoint as `peername` that read a `REGISTER` of `p` with the record's session and
private endpoint. -/
def RecordFrom (conns : ConnId → Option Conn) (p : ShortStr) (info : PeerInfo) : Prop :=
  ∃ cw, conns info.writer = some cw ∧ cw.client_ip = info.public_ip ∧
    cw.client_port = info.public_port ∧
    RegisteredOn cw.log ⟨p, info.session_code, info.private_ip, info.private_port⟩

/-- Every record of `r` comes from its writer. -/
def RecordsFrom (conns : ConnId → Option Conn) (r : Registry) : Prop :=
  ∀ p info, r.peers.lookup p = some info → RecordFrom conns p info

/-- A frame `f` written to `tc` relays the `i`-th frame read on `c`: a `DATA` frame addressed
to an id that `tc` registered, whose data `f` carries behind an id that `c` registered. -/
def RelayFrom (conns : ConnId → Option Conn) (tc : Conn) (c : ConnId) (i : Nat) (f : Frame) :
    Prop :=
  ∃ cc, conns c = some cc ∧ ∃ payload target_id data from_peer_id,
    cc.log[i]? = some (.DATA, payload) ∧ parseTarget payload = .ok (target_id, data) ∧
    f = ⟨.DATA, relayPayload from_peer_id data⟩ ∧ cc.Claims from_peer_id ∧ tc.Claims target_id

/-- Each connection of `conns` is still in `conns'`, later on. -/
def Grows (conns conns' : ConnId → Option Conn) : Prop :=
  ∀ c conn, conns c = some conn → ∃ conn', conns' c = some conn' ∧ conn.Later conn'

/-- The provenance of a state: its records, its handlers' identities and its relayed frames. -/
structure Server.Provenance (s : Server) : Prop where
  records : RecordsFrom s.conns s.registry
  handlers : ∀ c conn, s.conns c = some conn → conn.Sound
  relays : ∀ t tc, s.conns t = some tc → ∀ x ∈ tc.out, ∀ c i, x.relayOf = some (c, i) →
    RelayFrom s.conns tc c i x.frame

/-! ## What a later connection keeps -/

section Later

variable {log log' : List (MessageType × Bytes)} {f : RegisterFields} {conn conn' conn'' : Conn}
  {conns conns' : ConnId → Option Conn} {p : ShortStr}

theorem RegisteredOn.mono (h : RegisteredOn log f) (hl : log <+: log') : RegisteredOn log' f :=
  let ⟨payload, hm, hp⟩ := h
  ⟨payload, hl.subset hm, hp⟩

theorem Conn.Claims.mono (h : conn.Claims p) (hl : conn.log <+: conn'.log) : conn'.Claims p :=
  let ⟨f, hf, hp⟩ := h
  ⟨f, hf.mono hl, hp⟩

theorem Conn.Later.refl (conn : Conn) : conn.Later conn := ⟨rfl, rfl, List.prefix_refl _⟩

theorem Conn.Later.trans (h : conn.Later conn') (h' : conn'.Later conn'') : conn.Later conn'' :=
  ⟨h'.1.trans h.1, h'.2.1.trans h.2.1, h.2.2.trans h'.2.2⟩

theorem Conn.Later.write (h : conn.Later conn') (x : Sent) : conn.Later (conn'.write x) := by
  unfold Conn.write; split
  · exact h
  · exact h

/-- A handler keeps its soundness when it keeps its identity, reads on, and either goes to a
phase that announces nothing or stays where it was. -/
theorem Conn.Sound.mono (h : conn.Sound) (hl : conn.log <+: conn'.log)
    (hp : conn'.peer_id = conn.peer_id)
    (ha : conn'.phase.announcing = none ∨ conn'.phase.announcing = conn.phase.announcing) :
    conn'.Sound := by
  intro q hq
  rw [hp] at hq
  rcases ha with ha | ha <;> rw [ha] at hq
  · exact (h q (hq.imp_right nofun)).mono hl
  · exact (h q hq).mono hl

@[simp] theorem Conn.sound_write (x : Sent) : (conn.write x).Sound ↔ conn.Sound := by
  simp only [Conn.Sound, Conn.Claims, Conn.peer_id_write, Conn.phase_write, Conn.log_write]

theorem Grows.refl (conns : ConnId → Option Conn) : Grows conns conns :=
  fun _ conn h => ⟨conn, h, Conn.Later.refl conn⟩

theorem RecordFrom.mono {info : PeerInfo} (h : RecordFrom conns p info) (hg : Grows conns conns') :
    RecordFrom conns' p info := by
  obtain ⟨cw, hw, hip, hport, hreg⟩ := h
  obtain ⟨cw', hw', hip', hport', hl⟩ := hg _ cw hw
  exact ⟨cw', hw', hip'.trans hip, hport'.trans hport, hreg.mono hl⟩

theorem RecordsFrom.mono {r : Registry} (h : RecordsFrom conns r) (hg : Grows conns conns') :
    RecordsFrom conns' r :=
  fun p info hp => (h p info hp).mono hg

theorem RelayFrom.mono {tc tc' : Conn} {c : ConnId} {i : Nat} {fr : Frame}
    (h : RelayFrom conns tc c i fr) (hg : Grows conns conns') (ht : tc.log <+: tc'.log) :
    RelayFrom conns' tc' c i fr := by
  obtain ⟨cc, hc, payload, target_id, data, from_peer_id, hi, hp, hf, hfrom, hto⟩ := h
  obtain ⟨cc', hc', -, -, ⟨ys, hys⟩⟩ := hg c cc hc
  have hlt : i < cc.log.length := (List.getElem?_eq_some_iff.1 hi).1
  refine ⟨cc', hc', payload, target_id, data, from_peer_id, ?_, hp, hf,
    hfrom.mono ⟨ys, hys⟩, hto.mono ht⟩
  rw [← hys, List.getElem?_append_left hlt, hi]

end Later

/-! ## What the registry operations keep -/

section Records

variable {conns : ConnId → Option Conn} {r : Registry}

theorem recordsFrom_empty : RecordsFrom conns Registry.empty := fun _ _ h => by cases h

theorem RecordsFrom.register (h : RecordsFrom conns r) {info : PeerInfo}
    (hi : RecordFrom conns info.peer_id info) : RecordsFrom conns (r.register info) := by
  intro p i hp
  simp only [Registry.register, lookup_dictSet] at hp
  split_ifs at hp with hpi
  · cases hp; exact hpi ▸ hi
  · exact h p i hp

theorem RecordsFrom.removePeer (h : RecordsFrom conns r) (peer_id : ShortStr) :
    RecordsFrom conns (r.removePeer peer_id).1 := by
  intro p i hp
  unfold Registry.removePeer at hp
  split at hp
  · exact h p i hp
  · simp only [lookup_dictErase] at hp
    split_ifs at hp
    exact h p i hp

/-- Updates that keep every record's identity keep where the records come from. -/
theorem RecordsFrom.of_sameIdentities (h : RecordsFrom conns r) {r' : Registry}
    (hr : r.SameIdentities r') : RecordsFrom conns r' := by
  intro p i' hp
  have hrel := hr p
  rw [hp] at hrel
  generalize hi : r.peers.lookup p = o at hrel
  cases hrel with
  | some hsame => ?_
  obtain ⟨cw, hw, hip, hport, hreg⟩ := h p _ hi
  obtain ⟨-, hs, hwr, hpub, hpp, hpriv, hprp⟩ := hsame
  exact ⟨cw, hwr ▸ hw, hpub ▸ hip, hpp ▸ hport, hs ▸ hpriv ▸ hprp ▸ hreg⟩

theorem RecordsFrom.modifyPeer (h : RecordsFrom conns r) (peer_id : ShortStr)
    {f : PeerInfo → PeerInfo} (hf : ∀ i : PeerInfo, i.SameIdentity (f i)) :
    RecordsFrom conns (r.modifyPeer peer_id f) :=
  h.of_sameIdentities ((RecordEffect.modifyPeer (p := peer_id) hf r).sameIdentities fun _ _ => id)

theorem RecordsFrom.updateHeartbeat (h : RecordsFrom conns r) (peer_id : ShortStr) (now : Nat) :
    RecordsFrom conns (r.updateHeartbeat peer_id now) :=
  h.modifyPeer peer_id fun _ => ⟨rfl, rfl, rfl, rfl, rfl, rfl, rfl⟩

theorem RecordsFrom.updateExternalAddr (h : RecordsFrom conns r) (peer_id ip : ShortStr) :
    RecordsFrom conns (r.updateExternalAddr peer_id ip) :=
  h.modifyPeer peer_id fun _ => ⟨rfl, rfl, rfl, rfl, rfl, rfl, rfl⟩

theorem RecordsFrom.addRelayedBytes (h : RecordsFrom conns r) (peer_id : ShortStr) (n : Nat) :
    RecordsFrom conns (r.addRelayedBytes peer_id n) :=
  h.modifyPeer peer_id fun _ => ⟨rfl, rfl, rfl, rfl, rfl, rfl, rfl⟩

end Records

/-! ## What each update of the state keeps -/

theorem Conn.sound_of_none {conn : Conn} (hp : registered conn.peer_id = none)
    (ha : conn.phase.announcing = none) : conn.Sound := by
  intro q hq
  rw [hp, ha] at hq
  exact absurd hq (by simp)

/-- A handler whose `REGISTER` was rejected has the falsy identity `''`. -/
theorem Conn.sound_reject (conn : Conn) (ha : conn.phase.announcing = none) :
    ({ conn with peer_id := some .empty } : Conn).Sound :=
  Conn.sound_of_none (by simp [registered]) ha

namespace Server

variable {s s' : Server} {c d : ConnId} {conn conn₀ : Conn} {x : Sent}

theorem grows_setConn (hc : s.conns c = some conn₀) (hl : conn₀.Later conn) :
    Grows s.conns (s.setConn c conn).conns := by
  intro d cn hd
  by_cases hdc : d = c
  · subst hdc; rw [hc] at hd; cases hd; exact ⟨conn, by simp, hl⟩
  · exact ⟨cn, by simp [hdc, hd], Conn.Later.refl cn⟩

theorem grows_write : Grows s.conns (s.write d x).conns := by
  intro e cn he
  by_cases hed : e = d
  · subst hed; exact ⟨cn.write x, by simp [he], (Conn.Later.refl cn).write x⟩
  · exact ⟨cn, by simp [hed, he], Conn.Later.refl cn⟩

theorem grows_writeAll (ws : List (ConnId × Frame)) : Grows s.conns (s.writeAll ws).conns := by
  intro d cn hd
  obtain ⟨cn', hd', hk, -⟩ := exists_conns_writeAll ws hd
  have hl : cn'.core.log = cn.core.log := congrArg Conn.log hk
  exact ⟨cn', hd', (congrArg Conn.client_ip hk :), (congrArg Conn.client_port hk :),
    by rw [show cn'.log = cn.log from hl]⟩

namespace Provenance

/-- `Provenance` reads only the registry and the connections. -/
theorem of_conns (h : s.Provenance) (hc : s'.conns = s.conns)
    (hr : RecordsFrom s.conns s'.registry) : s'.Provenance := by
  obtain ⟨-, h₂, h₃⟩ := h
  exact ⟨hc ▸ hr, hc ▸ h₂, hc ▸ h₃⟩

theorem of_eq (h : s.Provenance) (hc : s'.conns = s.conns) (hr : s'.registry = s.registry) :
    s'.Provenance :=
  h.of_conns hc (hr ▸ h.records)

theorem setConn (h : s.Provenance) (hs : conn.Sound) (hc : s.conns c = some conn₀)
    (hl : conn₀.Later conn) (hout : conn.out = conn₀.out) : (s.setConn c conn).Provenance := by
  have hg := grows_setConn hc hl
  refine ⟨h.records.mono hg, fun d cn hd => ?_, fun t tc ht y hy c' i hyi => ?_⟩
  · rw [conns_setConn] at hd
    split_ifs at hd
    · cases hd; exact hs
    · exact h.handlers d cn hd
  · rw [conns_setConn] at ht
    split_ifs at ht with htc
    · cases ht; subst htc
      exact (h.relays t conn₀ hc y (hout ▸ hy) c' i hyi).mono hg hl.2.2
    · exact (h.relays t tc ht y hy c' i hyi).mono hg (List.prefix_refl _)

/-- A write keeps the provenance when the frame relays nothing, or relays a frame as
`RelayFrom` says. -/
theorem write (h : s.Provenance) (hx : ∀ tc c i, s.conns d = some tc → x.relayOf = some (c, i) →
    RelayFrom s.conns tc c i x.frame) : (s.write d x).Provenance := by
  have hg : Grows s.conns (s.write d x).conns := grows_write
  refine ⟨h.records.mono hg, fun e cn he => ?_, fun t tc ht y hy c i hyi => ?_⟩
  · rw [conns_write] at he
    split_ifs at he
    · obtain ⟨cn₀, h₀, rfl⟩ := Option.map_eq_some'.1 he
      exact (Conn.sound_write x).2 (h.handlers d cn₀ h₀)
    · exact h.handlers e cn he
  · rw [conns_write] at ht
    split_ifs at ht with htd
    · subst htd
      obtain ⟨tc₀, ht₀, rfl⟩ := Option.map_eq_some'.1 ht
      have hlog : tc₀.log <+: (tc₀.write x).log := by rw [Conn.log_write]
      rw [Conn.out_write] at hy
      split_ifs at hy
      · exact (h.relays t tc₀ ht₀ y hy c i hyi).mono hg hlog
      · rcases List.mem_append.1 hy with hy | hy
        · exact (h.relays t tc₀ ht₀ y hy c i hyi).mono hg hlog
        · rw [List.mem_singleton.1 hy] at hyi ⊢
          exact (hx tc₀ c i ht₀ hyi).mono hg hlog
    · exact (h.relays t tc ht y hy c i hyi).mono hg (List.prefix_refl _)

theorem write_plain {f : Frame} (h : s.Provenance) : (s.write d ⟨f, none⟩).Provenance :=
  h.write fun _ _ _ _ hr => by cases hr

theorem writeAll (h : s.Provenance) (ws : List (ConnId × Frame)) : (s.writeAll ws).Provenance := by
  induction ws generalizing s with
  | nil => exact h
  | cons w ws ih => exact ih h.write_plain

theorem reply {f : Frame} (h : s.Provenance) (hs : conn.Sound) (hc : s.conns c = some conn₀)
    (hl : conn₀.Later conn) (hout : conn.out = conn₀.out) : (s.reply c conn f).Provenance :=
  (h.setConn hs hc hl hout).write_plain

theorem removePeer (h : s.Provenance) (p : ShortStr) : (s.removePeer p).Provenance :=
  writeAll (s := s.setRegistry (s.registry.removePeer p).1) (h.of_conns rfl (h.records.removePeer p)) _

theorem closeStep (h : s.Provenance) : (s.closeStep c conn).Provenance := by
  have hclose : ∀ {s : Server}, s.Provenance → (s.closeWriter c).Provenance := by
    intro s h
    unfold Server.closeWriter; split
    · rename_i cn hc
      exact h.setConn ((h.handlers c cn hc).mono (List.prefix_refl _) rfl (.inl rfl)) hc
        (Conn.Later.refl cn) rfl
    · exact h
  unfold Server.closeStep; split
  · exact hclose (h.removePeer _)
  · exact hclose h

theorem accept (h : s.Provenance) (hf : s.conns s.next = none) (peername : Option (Host × UInt16)) :
    (s.accept peername).Provenance := by
  have hg : Grows s.conns (s.accept peername).conns := by
    intro d cn hd
    refine ⟨cn, ?_, Conn.Later.refl cn⟩
    rw [conns_accept, if_neg (fun hdn => by rw [hdn, hf] at hd; cases hd), hd]
  refine ⟨h.records.mono hg, fun d cn hd => ?_, fun t tc ht y hy c i hyi => ?_⟩
  · rw [conns_accept] at hd
    split_ifs at hd
    · cases hd; exact Conn.sound_of_none rfl rfl
    · exact h.handlers d cn hd
  · rw [conns_accept] at ht
    split_ifs at ht
    · cases ht; cases hy
    · exact (h.relays t tc ht y hy c i hyi).mono hg (List.prefix_refl _)

/-- Storing a record read on the handler's own connection, with its `peername`, keeps the
provenance. -/
theorem register {info : PeerInfo} (h : s.Provenance) (hc : s.conns c = some conn₀)
    (hl : conn₀.Later conn) (hout : conn.out = conn₀.out) (hs : conn.Sound) (hw : info.writer = c)
    (hip : conn.client_ip = info.public_ip) (hport : conn.client_port = info.public_port)
    (hreg : RegisteredOn conn.log
      ⟨info.peer_id, info.session_code, info.private_ip, info.private_port⟩) :
    ((s.setConn c { conn with phase := .notifying info }).setRegistry
      (s.registry.register info)).Provenance := by
  have hC : ({ conn with phase := .notifying info } : Conn).Sound := by
    rintro q (hq | hq)
    · exact hs q (.inl hq)
    · cases hq; exact ⟨_, hreg, rfl⟩
  have h₁ := h.setConn hC hc hl hout
  exact h₁.of_conns rfl (h₁.records.register
    ⟨{ conn with phase := .notifying info }, by rw [hw]; exact conns_setConn_self, hip, hport, hreg⟩)

/-- A handler that reads a frame keeps the provenance, whatever `_handle_message` does with
it: a record it stores comes from the frame, and a frame it relays carries the frame's data. -/
theorem handleMessage {t : MessageType} {payload : Bytes} {idx : Nat} (h : s.Provenance)
    (hc : s.conns c = some conn₀) (hl : conn₀.Later conn) (hout : conn.out = conn₀.out)
    (hs : conn.Sound) (hr : conn.phase = .reading) (hlog : conn.log[idx]? = some (t, payload)) :
    (s.handleMessage c conn t payload idx).Provenance := by
  have setP : ∀ {ph : Phase}, ph.announcing = none →
      (s.setConn c { conn with phase := ph }).Provenance :=
    fun hph => h.setConn (hs.mono (List.prefix_refl _) rfl (.inl hph)) hc hl hout
  have hmem : (t, payload) ∈ conn.log := List.getElem?_mem hlog
  unfold Server.handleMessage
  split
  · unfold Server.handleRegister; split
    · exact h.reply (Conn.sound_reject conn (by rw [hr]; rfl)) hc hl hout
    · rename_i f hf
      exact h.register hc hl hout hs (by rfl) (by rfl) (by rfl) (by exact ⟨payload, hmem, hf⟩)
  · unfold Server.handlePeerList; split
    · exact h.reply hs hc hl hout
    · exact setP (by rfl)
  · rename_i p hp
    unfold Server.handleRelayData; split
    · exact h.setConn hs hc hl hout
    · rename_i target_id data htd
      split
      · exact h.setConn hs hc hl hout
      · rename_i target ht
        refine (setP (by rfl)).write fun tc c' i htc hi => ?_
        cases hi
        obtain ⟨cw, hw, -, -, hreg⟩ := h.records target_id target (relayTarget_eq_some.1 ht).1
        have hto : tc.Claims target_id := by
          rw [conns_setConn] at htc
          split_ifs at htc with hwc
          · cases htc; rw [hwc, hc] at hw; cases hw
            exact ⟨_, hreg.mono hl.2.2, rfl⟩
          · rw [hw] at htc; cases htc
            exact ⟨_, hreg, rfl⟩
        exact ⟨_, conns_setConn_self, payload, target_id, data, p, hlog, htd, rfl, hs p (.inl hp), hto⟩
  · have h₁ := h.setConn hs hc hl hout
    exact write_plain (h₁.of_conns rfl (h₁.records.updateHeartbeat _ _))
  · unfold Server.handleConnectRequest; split
    · exact h.reply hs hc hl hout
    · split
      · exact h.reply hs hc hl hout
      · exact (setP (by rfl)).write_plain
  · unfold Server.handlePunchRequest; split
    · exact h.reply hs hc hl hout
    · split
      · exact h.reply hs hc hl hout
      · split
        · exact h.reply hs hc hl hout
        · exact (setP (by rfl)).write_plain
  · unfold Server.updateExternalAddr; split
    · exact h.setConn hs hc hl hout
    · have h₁ := h.setConn hs hc hl hout
      exact h₁.of_conns rfl (h₁.records.updateExternalAddr _ _)
  · exact h.setConn hs hc hl hout

theorem handlerStep (h : s.Provenance) (hs : s.handlerStep c = some s') : s'.Provenance := by
  unfold Server.handlerStep at hs
  split at hs
  · cases hs
  · rename_i conn hc
    have hsc := h.handlers c conn hc
    have hkeep := Conn.Later.refl conn
    have setP : ∀ {ph : Phase}, ph.announcing = none →
        (s.setConn c { conn with phase := ph }).Provenance :=
      fun hph => h.setConn (hsc.mono (List.prefix_refl _) rfl (.inl hph)) hc hkeep rfl
    split at hs
    · rename_i hr
      unfold Server.readStep at hs
      split at hs
      · cases hs
        exact h.handleMessage hc ⟨rfl, rfl, List.prefix_append _ _⟩ rfl
          (hsc.mono (List.prefix_append _ _) rfl (.inr rfl)) hr (List.getElem?_concat_length _ _)
      all_goals first
        | (split_ifs at hs; cases hs; exact setP (by rfl))
        | (cases hs; exact setP (by rfl))
    · rename_i info hph
      cases hs
      have hS : ({ conn with phase := .reading, peer_id := some info.peer_id } : Conn).Sound := by
        rintro q (hq | hq)
        · have hq' : info.peer_id = q := by
            simp only [registered] at hq; split_ifs at hq; exact Option.some.inj hq
          subst hq'
          exact hsc _ (.inr (by rw [hph]; rfl))
        · cases hq
      exact ((h.setConn hS hc hkeep rfl).writeAll _).write_plain
    · split at hs
      · split at hs
        · cases hs; exact setP (by rfl)
        · cases hs; exact (setP (by rfl)).of_eq rfl rfl
      · cases hs; exact setP (by rfl)
    · cases hs
      have h₁ : (s.setConn c { conn with phase := .reading }).Provenance := setP (by rfl)
      exact h₁.of_conns rfl (h₁.records.addRelayedBytes _ _)
    · cases hs; exact write_plain (of_eq (setP (by rfl)) rfl rfl)
    · cases hs; exact h.reply (hsc.mono (List.prefix_refl _) rfl (.inl rfl)) hc hkeep rfl
    · cases hs; exact h.closeStep
    · cases hs

theorem step (h : s.Provenance) (hf : s.conns s.next = none) {e : Event}
    (hs : s.step e = some s') : s'.Provenance := by
  rcases step_cases hs with ⟨peername, -, rfl⟩ | ⟨c, conn, _, _, _, hc, rfl, -⟩ | ⟨_, -, rfl⟩ |
    ⟨c, -, hs⟩ | ⟨-, rfl⟩
  · exact h.accept hf peername
  · exact h.setConn ((h.handlers c conn hc).mono (List.prefix_refl _) rfl (.inr rfl)) hc
      ⟨rfl, rfl, List.prefix_refl _⟩ rfl
  · exact h.of_eq rfl rfl
  · exact h.handlerStep hs
  · rcases janitorStep_cases s with ⟨j, hj⟩ | ⟨p, j, hj⟩ <;> rw [hj]
    · exact h.of_eq rfl rfl
    · exact (h.removePeer _).of_eq rfl rfl

end Provenance

end Server

/-- Every reachable state has its provenance. -/
theorem Reachable.provenance {s : Server} (hs : Reachable s) : s.Provenance := by
  induction hs with
  | init => exact ⟨recordsFrom_empty, fun _ _ h => (by cases h), fun _ _ h => (by cases h)⟩
  | step e hr h ih => exact ih.step (hr.relayOrder.fresh _ le_rfl) h

/-! ## The theorems -/

/-- **Every record comes from its writer's connection.**  In every reachable state, whatever
the connections and the interleaving of their handlers, closes and janitor passes, the record
stored under `p` names as writer a connection that read a `REGISTER` of `p` that the parser
accepted, with the record's session code and private endpoint, and whose `peername` is the
record's public endpoint.  Every identity a handler acts for is an id its own connection
registered so. -/
theorem records_registered_on_writer {s : Server} (hs : Reachable s) :
    (∀ p info, s.registry.peers.lookup p = some info →
      ∃ cw, s.conns info.writer = some cw ∧ cw.client_ip = info.public_ip ∧
        cw.client_port = info.public_port ∧ ∃ payload, (.REGISTER, payload) ∈ cw.log ∧
          parseRegister payload = .ok ⟨p, info.session_code, info.private_ip, info.private_port⟩) ∧
    (∀ c conn p, s.conns c = some conn → registered conn.peer_id = some p →
      ∃ payload f, (.REGISTER, payload) ∈ conn.log ∧ parseRegister payload = .ok f ∧
        f.peer_id = p) := by
  have h := hs.provenance
  refine ⟨h.records, fun c conn p hc hp => ?_⟩
  obtain ⟨f, ⟨payload, hm, hf⟩, rfl⟩ := h.handlers c conn hc p (.inl hp)
  exact ⟨payload, f, hm, hf, rfl⟩

/-- The record of `a` after `pairRun` comes from the connection that registered `a`. -/
theorem records_registered_on_writer_pair :
    ∃ info cw, pairState.registry.peers.lookup peerA = some info ∧
      pairState.conns info.writer = some cw ∧ cw.client_ip = info.public_ip ∧
      ∃ payload, (.REGISTER, payload) ∈ cw.log ∧
        parseRegister payload = .ok ⟨peerA, info.session_code, info.private_ip, info.private_port⟩ := by
  obtain ⟨info, hinfo⟩ :=
    Option.isSome_iff_exists.1 (show (pairState.registry.peers.lookup peerA).isSome by decide)
  obtain ⟨cw, hw, hip, -, hreg⟩ := (records_registered_on_writer reachable_pairState).1 peerA info hinfo
  exact ⟨info, cw, hinfo, hw, hip, hreg⟩

end SentinelRelay
