import SentinelRelay.Relay
import SentinelRelay.Rejection

/-!
# The `PEER_LIST` reply

`_handle_peer_list` (lines 289-319 of `src/relay/relay_server.py`) answers a registered
requester `r` with its session mates: every other id of `sessions[session_code]` that has a
record, each as `peer_id_len | peer_id | ip_len | ip | port` behind a one-byte count.

* Read under the protocol's grammar, the reply lists each mate once with its public
  endpoint, and nothing else, as long as there are at most 255 of them: `readPeerList` reads
  `peerListPayload` back (`readPeerList_peerListPayload`), and in a reachable state the mates
  are exactly the other records of the session, without repeats (`mem_mates`, `nodup_mates`).
* The count is `bytearray([len(peers_data)])`, which raises `ValueError` from 256 mates on.
  The exception leaves the read loop, so the requester gets no reply, its connection closes
  and its own record is removed (`peer_list_reply_or_close`); a session of 257 peers is
  reachable (`crowd_reachable`).
-/

namespace SentinelRelay

/-! ## Reading a `PEER_LIST` payload under the grammar -/

/-- One entry: the id field, the IP field and the two port bytes, and what follows. -/
def readPeerEntry (b : Bytes) : Option ((Bytes × Bytes × UInt16) × Bytes) :=
  match readField b with
  | none => none
  | some (peer_id, b) =>
    match readField b with
    | none => none
    | some (ip, b) =>
      match b with
      | p0 :: p1 :: rest => (unpackH [p0, p1]).toOption.map fun port => ((peer_id, ip, port), rest)
      | _ => none

/-- `n` entries, and nothing after them. -/
def readEntries : Nat → Bytes → Option (List (Bytes × Bytes × UInt16))
  | 0, [] => some []
  | 0, _ :: _ => none
  | n + 1, b =>
    match readPeerEntry b with
    | none => none
    | some (e, rest) => (readEntries n rest).map (e :: ·)

/-- A `PEER_LIST` payload as a client reads it: the count byte, then that many entries. -/
def readPeerList : Bytes → Option (List (Bytes × Bytes × UInt16))
  | n :: rest => readEntries n.toNat rest
  | [] => none

/-- What an entry tells about a record: its id's bytes and its public endpoint. -/
def PeerInfo.view (p : PeerInfo) : Bytes × Bytes × UInt16 :=
  (p.peer_id.bytes, p.public_ip.ip.bytes, p.public_port)

theorem readPeerEntry_peerEntry (peer_id : ShortStr) (ip : Host) (port : UInt16) (rest : Bytes) :
    readPeerEntry (peerEntry peer_id ip port ++ rest) =
      some ((peer_id.bytes, ip.ip.bytes, port), rest) := by
  obtain ⟨p0, p1, hp⟩ := List.length_eq_two.1 (length_packH port)
  have hport : unpackH [p0, p1] = .ok port := hp ▸ unpackH_packH port
  simp only [readPeerEntry, peerEntry, List.append_assoc, readField_field, hp, List.cons_append,
    List.nil_append, hport]
  rfl

theorem readEntries_flatMap (peers : List PeerInfo) :
    readEntries peers.length (peers.flatMap fun p => peerEntry p.peer_id p.public_ip p.public_port) =
      some (peers.map PeerInfo.view) := by
  induction peers with
  | nil => rfl
  | cons p peers ih =>
    simp only [List.length_cons, readEntries, List.flatMap_cons, readPeerEntry_peerEntry, ih,
      List.map_cons]
    rfl

/-- **The reply reads back as the listed records**: a payload `peerListPayload` builds is read
under the grammar as each record's id and public endpoint, in order. -/
theorem readPeerList_peerListPayload {peers : List PeerInfo} {payload : Bytes}
    (h : peerListPayload peers = .ok payload) :
    readPeerList payload = some (peers.map PeerInfo.view) := by
  simp only [peerListPayload, byteOf] at h
  split_ifs at h with hn
  · cases h
    rw [readPeerList, toNat_toUInt8_of_lt hn, readEntries_flatMap]
  · exact nomatch h

theorem peerListPayload_of_lt {peers : List PeerInfo} (h : peers.length < 256) :
    ∃ payload, peerListPayload peers = .ok payload := by
  simp only [peerListPayload, byteOf, h, ↓reduceIte]
  exact ⟨_, rfl⟩

theorem peerListPayload_of_le {peers : List PeerInfo} (h : 256 ≤ peers.length) :
    ∃ e, peerListPayload peers = .error e := by
  simp only [peerListPayload, byteOf, show ¬peers.length < 256 by omega, ↓reduceIte]
  exact ⟨_, rfl⟩

/-! ## The mates are the other records of the session -/

section Mates

variable {r : Registry} {req sc : ShortStr}

theorem eq_of_mem_mate {pid q : ShortStr}
    (hr : r.Consistent) (h : q ∈ (if pid ≠ req then r.peers.lookup pid else none).map (·.peer_id)) :
    q = pid := by
  split_ifs at h
  · obtain ⟨info, hi, rfl⟩ := Option.mem_map.1 h
    exact hr.key pid info hi
  · cases h

/-- The mates of `req` in `sc` are the records of `sc` other than `req`'s. -/
theorem mem_mates (hr : r.Consistent) {info : PeerInfo} :
    info ∈ r.mates req sc ↔
      r.peers.lookup info.peer_id = some info ∧ info.peer_id ≠ req ∧ info.session_code = sc := by
  simp only [Registry.mates, List.mem_filterMap, mem_getD_lookup]
  constructor
  · rintro ⟨pid, hm, h⟩
    split_ifs at h with hne
    obtain rfl := hr.key pid info h
    exact ⟨h, hne, hr.mem_peer hm h⟩
  · rintro ⟨h, hne, rfl⟩
    exact ⟨info.peer_id, hr.listed _ _ h, by simp [hne, h]⟩

/-- No id is listed twice when no set holds an id twice. -/
theorem nodup_mates (hr : r.Consistent) (hd : r.Distinct) :
    ((r.mates req sc).map (·.peer_id)).Nodup := by
  rw [Registry.mates, List.map_filterMap]
  refine List.Nodup.filterMap (fun a a' q ha ha' => (eq_of_mem_mate hr ha).symm.trans
    (eq_of_mem_mate hr ha')) ?_
  cases h : r.sessions.lookup sc with
  | none => exact List.nodup_nil
  | some ms => exact hd sc ms h

end Mates

/-! ## The step that answers -/

namespace Server

variable {s : Server} {c : ConnId} {conn : Conn}

theorem handlePeerList_ok {p : ShortStr} {pinfo : PeerInfo}
    (hp : s.registry.peers.lookup p = some pinfo) {payload : Bytes}
    (h : peerListPayload (s.registry.mates p pinfo.session_code) = .ok payload) :
    s.handlePeerList c conn p = s.reply c conn ⟨.PEER_LIST, payload⟩ := by
  simp [handlePeerList, Registry.peerList, hp, h]

theorem handlePeerList_error {p : ShortStr} {pinfo : PeerInfo}
    (hp : s.registry.peers.lookup p = some pinfo) {e : PyError}
    (h : peerListPayload (s.registry.mates p pinfo.session_code) = .error e) :
    s.handlePeerList c conn p = s.setConn c { conn with phase := .closing } := by
  simp [handlePeerList, Registry.peerList, hp, h]

end Server

/-- **The `PEER_LIST` reply, or the close past 255 mates.**  In a reachable state, when a
connection registered as `r` sends `PEER_LIST`, the handler's step leaves the registry as it
was.  The mates it lists are exactly the other records of `r`'s session, each once.  With at
most 255 of them it writes one `PEER_LIST` frame that reads back, under the protocol's
grammar, as their ids and public endpoints.  From 256 on, the count raises: nothing is
written, and the handler's next step closes the connection and removes `r`'s record. -/
theorem peer_list_reply_or_close {s : Server} (hs : Reachable s) {c : ConnId} {conn : Conn}
    {r : ShortStr} {rinfo : PeerInfo} {payload more : Bytes} (hc : s.conns c = some conn)
    (hrd : conn.phase = .reading) (hp : registered conn.peer_id = some r)
    (hr : s.registry.peers.lookup r = some rinfo)
    (hin : conn.input = makeMessage .PEER_LIST payload ++ more) (hlen : payload.length ≤ maxPayload) :
    ∃ (s' : Server) (mates : List PeerInfo), s.step (.handler c) = some s' ∧ s'.registry = s.registry ∧
      (mates.map (·.peer_id)).Nodup ∧
      (∀ info, info ∈ mates ↔ s.registry.peers.lookup info.peer_id = some info ∧
        info.peer_id ≠ r ∧ info.session_code = rinfo.session_code) ∧
      (mates.length < 256 → ∃ reply, readPeerList reply = some (mates.map PeerInfo.view) ∧
        (s'.conns c).map (fun cn => (cn.phase, cn.out)) =
          some (.reading, (conn.write ⟨⟨.PEER_LIST, reply⟩, none⟩).out)) ∧
      (256 ≤ mates.length →
        (s'.conns c).map (fun cn => (cn.phase, cn.out)) = some (.closing, conn.out) ∧
        ∃ s'', s'.step (.handler c) = some s'' ∧
          (s''.conns c).map (fun cn => (cn.phase, cn.lost)) = some (.finished, true) ∧
          s''.registry.peers.lookup r = none) := by
  have hcons := hs.consistent
  have hstep := Server.step_read_frame hc hrd hin hlen
  simp only [Server.handleMessage, hp] at hstep
  refine ⟨_, _, hstep, ?_, nodup_mates hcons hs.distinct, fun info => mem_mates hcons,
    fun hlt => ?_, fun hle => ?_⟩
  · unfold Server.handlePeerList
    split <;> rfl
  · obtain ⟨reply, he⟩ := peerListPayload_of_lt hlt
    refine ⟨reply, readPeerList_peerListPayload he, ?_⟩
    rw [Server.handlePeerList_ok hr he, Server.conns_reply_self]
    simp [Conn.out_write, hrd]
  · obtain ⟨e, he⟩ := peerListPayload_of_le hle
    rw [Server.handlePeerList_error hr he]
    set cl : Conn :=
      { conn with input := more, log := conn.log ++ [(.PEER_LIST, payload)], phase := .closing }
    have hc₁ : (s.setConn c cl).conns c = some cl := Server.conns_setConn_self
    refine ⟨by simp, _, Server.step_closing hc₁ rfl, ?_, closeStep_removes_record hp⟩
    obtain ⟨y, hy⟩ := Server.conns_closeStep_self hc₁
    rw [hy]; rfl

/-! ## A session of 257 peers

Connection `i` is accepted and registers the one-character id `crowdId i` in the session `s`,
for `i` from 0 up; each round is four events, and a state with any number of rounds is
reachable. -/

theorem length_encodeChar_le (c : Char) : (encodeChar c).length ≤ 4 := by
  unfold encodeChar; split_ifs <;> simp

/-- The peer id of code point `0x100 + i`, one character. -/
def crowdId (i : Nat) : ShortStr :=
  ⟨⟨[Char.ofNat (0x100 + i)]⟩, by
    have := length_encodeChar_le (Char.ofNat (0x100 + i))
    simp only [utf8Encode, List.flatMap_cons, List.flatMap_nil, List.append_nil]
    omega⟩

theorem crowdId_inj {i j : Nat} (hi : i < 0xD700) (hj : j < 0xD700) (h : crowdId i = crowdId j) :
    i = j := by
  have := congrArg (fun p : ShortStr => p.val.data.map Char.toNat) h
  simp only [crowdId, List.map_cons, List.map_nil, List.cons.injEq, and_true] at this
  rw [toNat_charOfNat (by omega), toNat_charOfNat (by omega)] at this
  omega

@[simp] theorem registered_crowdId (i : Nat) : registered (some (crowdId i)) = some (crowdId i) := by
  have : crowdId i ≠ ShortStr.empty := fun h => by
    have := congrArg (fun p : ShortStr => p.val.data.length) h
    simp [crowdId, ShortStr.empty] at this
  simp [registered, this]


/-- The record connection `i` of the crowd stores: `crowdId i` in `s`, at start time `0`,
from an unknown peer. -/
def crowdInfo (i : Nat) : PeerInfo :=
  { peer_id := crowdId i, session_code := sessionS, writer := i, public_ip := unknownHost,
    public_port := 0, private_ip := .empty, private_port := 0, connected_at := 0,
    last_heartbeat := 0, nat_type := .unknown, relayed_bytes := 0 }

/-- The registry once the first `n` connections of the crowd have registered. -/
def crowdRegistry : Nat → Registry
  | 0 => .empty
  | n + 1 => (crowdRegistry n).register (crowdInfo n)

theorem lookup_crowdRegistry {n j : Nat} (hn : n ≤ 0xD700) (hj : j < n) :
    (crowdRegistry n).peers.lookup (crowdId j) = some (crowdInfo j) := by
  induction n with
  | zero => omega
  | succ n ih =>
    rw [crowdRegistry, lookup_register]
    by_cases hjn : j = n
    · subst hjn; simp [crowdInfo]
    · rw [if_neg (show crowdId j ≠ (crowdInfo n).peer_id from
        fun h => hjn (crowdId_inj (by omega) (by omega) h)), ih (by omega) (by omega)]

/-- Connection `n` joins the crowd: it is accepted and registers `crowdId n` in `s`. -/
def crowdRound (n : Nat) : List Event := .accept none :: registerRun n (crowdId n) sessionS

/-- The first `n` rounds. -/
def crowdRun : Nat → List Event
  | 0 => []
  | n + 1 => crowdRun n ++ crowdRound n

/-- The crowd of `n` in `s`: connection `i < n` is registered as `crowdId i` and waits for its
next frame, and the registry is `crowdRegistry n`. -/
structure Crowd (n : Nat) (s : Server) : Prop where
  next : s.next = n
  waiting : ∀ i < n, (s.conns i).map (fun cn => (cn.phase, cn.input, cn.eof, cn.peer_id)) =
    some (.reading, [], false, some (crowdId i))
  registry : s.registry = crowdRegistry n
  clock : s.clock = 0

namespace Server

variable {s : Server}

/-- A write keeps every view of a connection that writing to it keeps. -/
theorem map_conns_write {α : Type} {f : Conn → α} (hf : ∀ cn x, f (cn.write x) = f cn)
    (c : ConnId) (x : Sent) (d : ConnId) : ((s.write c x).conns d).map f = (s.conns d).map f := by
  rw [conns_write]
  split_ifs with hd
  · subst hd; cases s.conns d <;> simp [hf]
  · rfl

/-- The writes of a critical section keep every view of a connection that a write keeps. -/
theorem map_conns_writeAll {α : Type} {f : Conn → α} (hf : ∀ cn x, f (cn.write x) = f cn)
    (ws : List (ConnId × Frame)) (d : ConnId) :
    ((s.writeAll ws).conns d).map f = (s.conns d).map f := by
  induction ws generalizing s with
  | nil => rfl
  | cons w ws ih =>
    rw [writeAll, List.foldl_cons, ← writeAll, ih, map_conns_write hf]

@[simp] theorem registry_accept (p : Option (Host × UInt16)) : (s.accept p).registry = s.registry := rfl
@[simp] theorem clock_accept (p : Option (Host × UInt16)) : (s.accept p).clock = s.clock := rfl

end Server

theorem Crowd.round {n : Nat} {s : Server} (h : Crowd n s) :
    ∃ s', s.run (crowdRound n) = some s' ∧ Crowd (n + 1) s' := by
  have hlen : (registerPayload (crowdId n) sessionS none).length ≤ maxPayload := by
    have := (crowdId n).length_bytes_lt
    have := sessionS.length_bytes_lt
    simp only [registerPayload, List.length_append, length_field, List.append_nil, maxPayload]
    omega
  set c₂ : Conn :=
    { Conn.accepted none with
      input := makeMessage .REGISTER (registerPayload (crowdId n) sessionS none) }
  set c₃ : Conn :=
    { Conn.accepted none with
      phase := .notifying (crowdInfo n)
      log := [(.REGISTER, registerPayload (crowdId n) sessionS none)] }
  set s₃ := (((s.accept none).setConn n c₂).setConn n c₃).setRegistry (crowdRegistry (n + 1))
  set s₄ := ((s₃.setConn n { c₃ with phase := .reading, peer_id := some (crowdId n) }).writeAll
    (s₃.registry.notifyWrites (crowdInfo n))).write n ⟨⟨.REGISTER_ACK, utf8Encode "OK"⟩, none⟩
  have h₂ : (s.accept none).step
      (.sendFrame n .REGISTER (registerPayload (crowdId n) sessionS none)) =
        some ((s.accept none).setConn n c₂) := by
    simp [Event.sendFrame, Server.step, h.next, Conn.accepted, c₂]
  have h₃ : ((s.accept none).setConn n c₂).step (.handler n) = some s₃ := by
    rw [Server.step_read_frame (show ((s.accept none).setConn n c₂).conns n = some c₂ from
      Server.conns_setConn_self) rfl (show c₂.input =
        makeMessage .REGISTER (registerPayload (crowdId n) sessionS none) ++ [] by simp [c₂]) hlen]
    simp only [Server.handleMessage, Server.handleRegister, parseRegister_registerPayload,
      Server.clock_setConn, Server.clock_accept, h.clock, Server.registry_setConn,
      Server.registry_accept, h.registry]
    rfl
  have h₄ : s₃.step (.handler n) = some s₄ := by
    simp only [Server.step, Server.handlerStep,
      show s₃.conns n = some c₃ from Server.conns_setConn_self]
    rfl
  have hf : ∀ (cn : Conn) x,
      (fun cn : Conn => (cn.phase, cn.input, cn.eof, cn.peer_id)) (cn.write x) =
        (fun cn : Conn => (cn.phase, cn.input, cn.eof, cn.peer_id)) cn := by simp
  refine ⟨s₄, by simp only [crowdRound, registerRun, Server.run, show s.step (.accept none) =
    some (s.accept none) from rfl, h₂, h₃, h₄, Option.some_bind],
    ⟨by simp [s₄, s₃, h.next], fun i hi => ?_, by simp [s₄, s₃], by simp [s₄, s₃, h.clock]⟩⟩
  rw [Server.map_conns_write hf, Server.map_conns_writeAll hf, Server.conns_setConn]
  split_ifs with hin
  · subst hin; rfl
  · simp only [s₃, Server.conns_setRegistry, Server.conns_setConn, if_neg hin, Server.conns_accept,
      h.next]
    exact h.waiting i (Nat.lt_of_le_of_ne (Nat.le_of_lt_succ hi) hin)

theorem Server.run_append (s : Server) (es fs : List Event) :
    s.run (es ++ fs) = (s.run es).bind (·.run fs) := by
  induction es generalizing s with
  | nil => rfl
  | cons e es ih =>
    show ((s.step e).bind fun s' => s'.run (es ++ fs)) = _
    simp only [Server.run, ih, Option.bind_assoc]

/-- Every crowd is reached by its rounds. -/
theorem crowd_reachable (n : Nat) :
    ∃ s, (Server.init 0).run (crowdRun n) = some s ∧ Crowd n s := by
  induction n with
  | zero => exact ⟨_, rfl, rfl, fun i hi => absurd hi (Nat.not_lt_zero i), rfl, rfl⟩
  | succ n ih =>
    obtain ⟨s, hs, hc⟩ := ih
    obtain ⟨s', hs', hc'⟩ := hc.round
    exact ⟨s', by rw [crowdRun, Server.run_append, hs, Option.some_bind, hs'], hc'⟩

/-- A list that holds the records of connections 1 … 256 of the crowd has 256 entries or more. -/
theorem le_length_of_crowd {mates : List PeerInfo}
    (h : ∀ j, 1 ≤ j → j < 257 → crowdInfo j ∈ mates) :
    256 ≤ mates.length := by
  have hsub : (List.range' 1 256).map crowdInfo ⊆ mates := by
    intro info hinfo
    obtain ⟨j, hj, rfl⟩ := List.mem_map.1 hinfo
    rw [List.mem_range'_1] at hj
    exact h j hj.1 (by omega)
  have hnd : ((List.range' 1 256).map crowdInfo).Nodup := by
    refine (List.nodup_range' 1 256).map_on fun i hi j hj h => ?_
    rw [List.mem_range'_1] at hi hj
    exact crowdId_inj (by omega) (by omega) (congrArg PeerInfo.peer_id h)
  simpa using (List.subperm_of_subset hnd hsub).length_le

/-- In a session of 257 peers, the first one's `PEER_LIST` is not answered: its connection
closes and its record is removed. -/
theorem peer_list_reply_or_close_crowd :
    ∃ s, Reachable s ∧ ∃ c conn, s.conns c = some conn ∧
      conn.input = makeMessage .PEER_LIST [] ∧ registered conn.peer_id = some (crowdId 0) ∧
      s.registry.peers.lookup (crowdId 0) = some (crowdInfo 0) ∧
      ∃ s₁ s₂, s.step (.handler c) = some s₁ ∧ (s₁.conns c).map Conn.out = some conn.out ∧
        s₁.step (.handler c) = some s₂ ∧
        (s₂.conns c).map (fun cn => (cn.phase, cn.lost)) = some (.finished, true) ∧
        s₂.registry.peers.lookup (crowdId 0) = none := by
  obtain ⟨s, hrun, hcrowd⟩ := crowd_reachable 257
  obtain ⟨conn, hc, hw⟩ := Option.map_eq_some'.1 (hcrowd.waiting 0 (by omega))
  simp only [Prod.mk.injEq] at hw
  obtain ⟨hph, hinp, heof, hid⟩ := hw
  set conn₁ : Conn := { conn with input := conn.input ++ makeMessage .PEER_LIST [] }
  have hsend : s.step (.send 0 (makeMessage .PEER_LIST [])) = some (s.setConn 0 conn₁) := by
    simp [Server.step, hc, heof, conn₁]
  have hreach : Reachable (s.setConn 0 conn₁) := ((Reachable.init 0).run _ hrun).step _ hsend
  have hreg : (s.setConn 0 conn₁).registry = crowdRegistry 257 := hcrowd.registry
  have hlook := hreg ▸ lookup_crowdRegistry (j := 0) (by omega) (by omega)
  obtain ⟨s₁, mates, h₁, -, -, hmem, -, hclose⟩ := peer_list_reply_or_close hreach
    Server.conns_setConn_self hph (by simp [conn₁, hid]) hlook
    (show conn₁.input = makeMessage .PEER_LIST [] ++ [] by simp [conn₁, hinp]) (by decide)
  have hle : 256 ≤ mates.length := le_length_of_crowd fun j hj hj' => (hmem _).2
    ⟨hreg ▸ lookup_crowdRegistry (by omega) hj',
      fun h => absurd (crowdId_inj (by omega) (by omega) h) (by omega), rfl⟩
  obtain ⟨hout, s₂, h₂, hfin, hgone⟩ := hclose hle
  obtain ⟨cn, hcn, hcn'⟩ := Option.map_eq_some'.1 hout
  refine ⟨_, hreach, 0, conn₁, Server.conns_setConn_self, by simp [conn₁, hinp],
    by simp [conn₁, hid], hlook, s₁, s₂, h₁, by simp [hcn, (Prod.mk.inj hcn').2], h₂, hfin, hgone⟩

end SentinelRelay
