import SentinelRelay.Python
import Mathlib.Tactic.SplitIfs

/-!
# UTF-8, as `str.encode()` and `bytes.decode('utf-8')` compute it

Every text field of the relay protocol is a UTF-8 byte string behind a one-byte length:
the server decodes what it receives with `payload[a:b].decode('utf-8')` and encodes what it
sends with `s.encode()`.  `encodeChar` writes one character in one to four bytes;
`decodeFrom` is Python's strict decoder, which stops at the first ill-formed sequence with the
position and the reason that `UnicodeDecodeError` reports: an invalid start byte, an invalid
continuation byte (the second byte checked against narrower ranges, so that surrogates and
overlong forms are refused), or an unexpected end of data.

The two directions are inverse: `utf8Decode_utf8Encode` decodes every encoded string back,
and `utf8Encode_of_utf8Decode` says a decoded string encodes to the bytes it came from.  The
second gives `ShortStr`, the strings the parsers return for a field of at most 255 bytes.
-/

namespace SentinelRelay

/-- The UTF-8 bytes of one character. -/
def encodeChar (c : Char) : Bytes :=
  if c.toNat < 0x80 then [c.toNat.toUInt8]
  else if c.toNat < 0x800 then
    [(0xC0 + c.toNat / 0x40).toUInt8, (0x80 + c.toNat % 0x40).toUInt8]
  else if c.toNat < 0x10000 then
    [(0xE0 + c.toNat / 0x1000).toUInt8, (0x80 + c.toNat / 0x40 % 0x40).toUInt8,
      (0x80 + c.toNat % 0x40).toUInt8]
  else
    [(0xF0 + c.toNat / 0x40000).toUInt8, (0x80 + c.toNat / 0x1000 % 0x40).toUInt8,
      (0x80 + c.toNat / 0x40 % 0x40).toUInt8, (0x80 + c.toNat % 0x40).toUInt8]

/-- `s.encode()`: UTF-8 is Python's default encoding. -/
def utf8Encode (s : String) : Bytes := s.data.flatMap encodeChar

/-- A continuation byte: `0x80 ≤ b < 0xC0`. -/
def cont (b : UInt8) : Bool := 0x80 ≤ b.toNat && b.toNat < 0xC0

/-- The second byte of a sequence led by `b0` is a continuation byte in the range UTF-8
allows: from `0xA0` after `0xE0`, below `0xA0` after `0xED`, from `0x90` after `0xF0`, below
`0x90` after `0xF4`. -/
def secondOk (b0 b1 : UInt8) : Bool :=
  cont b1 && (b0.toNat != 0xE0 || 0xA0 ≤ b1.toNat) && (b0.toNat != 0xED || b1.toNat < 0xA0) &&
    (b0.toNat != 0xF0 || 0x90 ≤ b1.toNat) && (b0.toNat != 0xF4 || b1.toNat < 0x90)

/-- A multi-byte sequence the decoder is inside. -/
structure Partial where
  /-- Its first byte. -/
  lead : UInt8
  /-- The position of `lead` in the decoded object. -/
  start : Nat
  /-- The continuation bytes read so far. -/
  conts : Bytes
  /-- The continuation bytes still owed. -/
  owed : Nat

/-- The continuation bytes a sequence led by `b` has: one below `0xE0`, two below `0xF0`,
three after. -/
def owedAfter (b : UInt8) : Nat :=
  if b.toNat < 0xE0 then 1 else if b.toNat < 0xF0 then 2 else 3

/-- The scalar value of a sequence: the low bits of its lead byte, then six bits of each
continuation byte. -/
def seqValue (lead : UInt8) (conts : Bytes) : Nat :=
  conts.foldl (fun v b => v * 0x40 + (b.toNat - 0x80))
    (if lead.toNat < 0xE0 then lead.toNat - 0xC0
      else if lead.toNat < 0xF0 then lead.toNat - 0xE0 else lead.toNat - 0xF0)

/-- The `UnicodeDecodeError` that ends a sequence: its lead byte, from its start to the byte
before the one that failed. -/
def Partial.fault (p : Partial) (reason : String) : Except PyError (List Char) :=
  .error (.unicodeDecodeError p.lead p.start (p.start + p.conts.length + 1) reason)

/-- Python's strict UTF-8 decoder, one byte at a time: between characters
(`none`) or inside a sequence, from position `pos` of the decoded object.  It refuses a byte
that cannot start a sequence, a continuation byte out of range (`secondOk` for the first), and
an input that ends inside a sequence. -/
def decodeFrom : Option Partial → Bytes → Nat → Except PyError (List Char)
  | none, [], _ => .ok []
  | some p, [], _ => p.fault "unexpected end of data"
  | none, b :: rest, pos =>
    if b.toNat < 0x80 then (Char.ofNat b.toNat :: ·) <$> decodeFrom none rest (pos + 1)
    else if b.toNat < 0xC2 ∨ 0xF5 ≤ b.toNat then
      .error (.unicodeDecodeError b pos (pos + 1) "invalid start byte")
    else decodeFrom (some ⟨b, pos, [], owedAfter b⟩) rest (pos + 1)
  | some p, b :: rest, pos =>
    if (if p.conts = [] then secondOk p.lead b else cont b) then
      if p.owed = 1 then
        (Char.ofNat (seqValue p.lead (p.conts ++ [b])) :: ·) <$> decodeFrom none rest (pos + 1)
      else decodeFrom (some { p with conts := p.conts ++ [b], owed := p.owed - 1 }) rest (pos + 1)
    else p.fault "invalid continuation byte"

/-- `b.decode('utf-8')`. -/
def utf8Decode (b : Bytes) : Except PyError String := String.mk <$> decodeFrom none b 0

example : utf8Decode [0xF0, 0x90, 0x28] =
    .error (.unicodeDecodeError 0xF0 0 2 "invalid continuation byte") := by decide

/-! ## Decoding inverts encoding -/

theorem cont_iff (b : UInt8) : cont b = true ↔ 0x80 ≤ b.toNat ∧ b.toNat < 0xC0 := by
  simp [cont]

theorem secondOk_iff (b0 b1 : UInt8) : secondOk b0 b1 = true ↔
    (0x80 ≤ b1.toNat ∧ b1.toNat < 0xC0) ∧ (b0.toNat = 0xE0 → 0xA0 ≤ b1.toNat) ∧
      (b0.toNat = 0xED → b1.toNat < 0xA0) ∧ (b0.toNat = 0xF0 → 0x90 ≤ b1.toNat) ∧
        (b0.toNat = 0xF4 → b1.toNat < 0x90) := by
  simp only [secondOk, cont, Bool.and_eq_true, Bool.or_eq_true, bne_iff_ne, ne_eq,
    decide_eq_true_eq, and_assoc]
  constructor <;> intro h <;> omega

theorem decodeFrom_lead {b : UInt8} (h1 : 0xC2 ≤ b.toNat) (h2 : b.toNat < 0xF5) (rest : Bytes)
    (pos : Nat) : decodeFrom none (b :: rest) pos =
      decodeFrom (some ⟨b, pos, [], owedAfter b⟩) rest (pos + 1) := by
  rw [decodeFrom, if_neg (by omega), if_neg (by omega)]

theorem decodeFrom_last {p : Partial} {b : UInt8}
    (hb : (if p.conts = [] then secondOk p.lead b else cont b) = true) (ho : p.owed = 1)
    (rest : Bytes) (pos : Nat) : decodeFrom (some p) (b :: rest) pos =
      (Char.ofNat (seqValue p.lead (p.conts ++ [b])) :: ·) <$> decodeFrom none rest (pos + 1) := by
  rw [decodeFrom, if_pos hb, if_pos ho]

theorem decodeFrom_more {p : Partial} {b : UInt8}
    (hb : (if p.conts = [] then secondOk p.lead b else cont b) = true) (ho : p.owed ≠ 1)
    (rest : Bytes) (pos : Nat) : decodeFrom (some p) (b :: rest) pos =
      decodeFrom (some { p with conts := p.conts ++ [b], owed := p.owed - 1 }) rest (pos + 1) := by
  rw [decodeFrom, if_pos hb, if_neg ho]

private theorem char_valid (c : Char) :
    c.toNat < 0xD800 ∨ (0xDFFF < c.toNat ∧ c.toNat < 0x110000) := c.valid

private theorem ofNat_eq {c : Char} {n : Nat} (h : n = c.toNat) : Char.ofNat n = c :=
  h ▸ Char.ofNat_toNat c

theorem toNat_toUInt8_of_lt {n : Nat} (h : n < 256) : n.toUInt8.toNat = n := by
  simp only [toNat_toUInt8]; omega

theorem decodeFrom_encodeChar (c : Char) (b : Bytes) (pos : Nat) :
    decodeFrom none (encodeChar c ++ b) pos =
      (c :: ·) <$> decodeFrom none b (pos + (encodeChar c).length) := by
  unfold encodeChar
  split_ifs with h1 h2 h3
  · rw [List.singleton_append, decodeFrom, toNat_toUInt8, if_pos (by omega),
      ofNat_eq (c := c) (by omega)]
    rfl
  · rw [List.cons_append, List.singleton_append, decodeFrom_lead ?_ ?_, decodeFrom_last ?_ ?_,
      ofNat_eq (c := c) ?_]
    all_goals simp (disch := omega) [toNat_toUInt8_of_lt, secondOk_iff, owedAfter, seqValue, if_pos, if_neg]
    all_goals omega
  · have hv : c.toNat < 0xD800 ∨ 0xDFFF < c.toNat := by have := char_valid c; omega
    rw [List.cons_append, List.cons_append, List.singleton_append, decodeFrom_lead ?_ ?_,
      decodeFrom_more ?_ ?_, decodeFrom_last ?_ ?_, ofNat_eq (c := c) ?_]
    all_goals simp (disch := omega) [toNat_toUInt8_of_lt, secondOk_iff, cont_iff, owedAfter, seqValue, if_pos, if_neg]
    all_goals omega
  · have hv : c.toNat < 0x110000 := by have := char_valid c; omega
    rw [List.cons_append, List.cons_append, List.cons_append, List.singleton_append,
      decodeFrom_lead ?_ ?_, decodeFrom_more ?_ ?_, decodeFrom_more ?_ ?_, decodeFrom_last ?_ ?_,
      ofNat_eq (c := c) ?_]
    all_goals simp (disch := omega) [toNat_toUInt8_of_lt, secondOk_iff, cont_iff, owedAfter, seqValue, if_pos, if_neg]
    all_goals omega

theorem decodeFrom_flatMap (cs : List Char) (pos : Nat) :
    decodeFrom none (cs.flatMap encodeChar) pos = .ok cs := by
  induction cs generalizing pos with
  | nil => rfl
  | cons c cs ih => rw [List.flatMap_cons, decodeFrom_encodeChar, ih]; rfl

/-- **Decoding inverts encoding.** -/
theorem utf8Decode_utf8Encode (s : String) : utf8Decode (utf8Encode s) = .ok s := by
  rw [utf8Decode, utf8Encode, decodeFrom_flatMap]; rfl

/-! ## Encoding inverts decoding -/

theorem map_eq_ok {ε α β : Type} {f : α → β} {x : Except ε α} {y : β} :
    f <$> x = .ok y ↔ ∃ a, x = .ok a ∧ y = f a := by
  cases x <;> simp [Functor.map, Except.map, eq_comm]

/-- What the decoder knows of a sequence it is inside: a lead byte that can start one, the
first continuation byte in the range of `secondOk`, the others plain continuation bytes, and
at least one byte still owed. -/
def Partial.Ok (p : Partial) : Prop :=
  0xC2 ≤ p.lead.toNat ∧ p.lead.toNat < 0xF5 ∧ 0 < p.owed ∧
    p.conts.length + p.owed = owedAfter p.lead ∧
    (∀ c ∈ p.conts.head?, secondOk p.lead c = true) ∧ ∀ c ∈ p.conts.tail, cont c = true

theorem toNat_charOfNat {n : Nat} (h : n < 0xD800 ∨ (0xDFFF < n ∧ n < 0x110000)) :
    (Char.ofNat n).toNat = n := by
  simp [Char.ofNat, h, Char.ofNatAux, Char.toNat, UInt32.toNat]

theorem owedAfter_cases (b : UInt8) : (b.toNat < 0xE0 ∧ owedAfter b = 1) ∨
    (0xE0 ≤ b.toNat ∧ b.toNat < 0xF0 ∧ owedAfter b = 2) ∨ (0xF0 ≤ b.toNat ∧ owedAfter b = 3) := by
  unfold owedAfter; split_ifs <;> omega

/-- A two-byte sequence the decoder accepts encodes its scalar value; so do the three- and
four-byte ones below. -/
theorem encodeChar_two {b0 b1 : UInt8} (h0 : 0xC2 ≤ b0.toNat ∧ b0.toNat < 0xE0)
    (h1 : 0x80 ≤ b1.toNat ∧ b1.toNat < 0xC0) :
    encodeChar (Char.ofNat ((b0.toNat - 0xC0) * 0x40 + (b1.toNat - 0x80))) = [b0, b1] := by
  rw [encodeChar, toNat_charOfNat (by omega), if_neg (by omega), if_pos (by omega)]
  simp only [List.cons.injEq, and_true]
  constructor <;> apply UInt8.toNat.inj <;> simp only [toNat_toUInt8] <;> omega

theorem encodeChar_three {b0 b1 b2 : UInt8} (h0 : 0xE0 ≤ b0.toNat ∧ b0.toNat < 0xF0)
    (h1 : 0x80 ≤ b1.toNat ∧ b1.toNat < 0xC0) (hE0 : b0.toNat = 0xE0 → 0xA0 ≤ b1.toNat)
    (hED : b0.toNat = 0xED → b1.toNat < 0xA0) (h2 : 0x80 ≤ b2.toNat ∧ b2.toNat < 0xC0) :
    encodeChar (Char.ofNat (((b0.toNat - 0xE0) * 0x40 + (b1.toNat - 0x80)) * 0x40 +
      (b2.toNat - 0x80))) = [b0, b1, b2] := by
  rw [encodeChar, toNat_charOfNat (by omega), if_neg (by omega), if_neg (by omega),
    if_pos (by omega)]
  clear hE0 hED
  simp only [List.cons.injEq, and_true]
  refine ⟨?_, ?_, ?_⟩ <;> apply UInt8.toNat.inj <;> simp only [toNat_toUInt8] <;> omega

theorem encodeChar_four {b0 b1 b2 b3 : UInt8} (h0 : 0xF0 ≤ b0.toNat ∧ b0.toNat < 0xF5)
    (h1 : 0x80 ≤ b1.toNat ∧ b1.toNat < 0xC0) (hF0 : b0.toNat = 0xF0 → 0x90 ≤ b1.toNat)
    (hF4 : b0.toNat = 0xF4 → b1.toNat < 0x90) (h2 : 0x80 ≤ b2.toNat ∧ b2.toNat < 0xC0)
    (h3 : 0x80 ≤ b3.toNat ∧ b3.toNat < 0xC0) :
    encodeChar (Char.ofNat ((((b0.toNat - 0xF0) * 0x40 + (b1.toNat - 0x80)) * 0x40 +
      (b2.toNat - 0x80)) * 0x40 + (b3.toNat - 0x80))) = [b0, b1, b2, b3] := by
  rw [encodeChar, toNat_charOfNat (by omega), if_neg (by omega), if_neg (by omega),
    if_neg (by omega)]
  clear hF0 hF4
  simp only [List.cons.injEq, and_true]
  refine ⟨?_, ?_, ?_, ?_⟩ <;> apply UInt8.toNat.inj <;> simp only [toNat_toUInt8] <;> omega

/-- The bytes of a sequence the decoder completes are the encoding of its character. -/
theorem encodeChar_seqValue {p : Partial} (hp : p.Ok) (ho : p.owed = 1) {b : UInt8}
    (hb : (if p.conts = [] then secondOk p.lead b else cont b) = true) :
    encodeChar (Char.ofNat (seqValue p.lead (p.conts ++ [b]))) = p.lead :: (p.conts ++ [b]) := by
  obtain ⟨lead, start, conts, owed⟩ := p
  obtain ⟨h1, h2, -, hlen, hhead, htail⟩ := hp
  simp only at ho h1 h2 hlen hhead htail hb ⊢
  subst ho
  have hc := owedAfter_cases lead
  match conts, hlen, hhead, htail, hb with
  | [], hlen, _, _, hb =>
    have hl : lead.toNat < 0xE0 := by simp only [List.length_nil] at hlen; omega
    simp only [if_true, secondOk_iff] at hb
    simp only [List.nil_append, seqValue, List.foldl, if_pos hl]
    exact encodeChar_two ⟨h1, hl⟩ hb.1
  | [c1], hlen, hhead, _, hb =>
    have hl : 0xE0 ≤ lead.toNat ∧ lead.toNat < 0xF0 := by
      simp only [List.length_singleton] at hlen; omega
    simp only [List.head?_cons, Option.mem_def, Option.some.injEq, forall_eq', secondOk_iff] at hhead
    simp only [List.cons_ne_nil, if_false, cont_iff] at hb
    simp only [List.singleton_append, seqValue, List.foldl, if_neg (Nat.not_lt.2 hl.1), if_pos hl.2]
    exact encodeChar_three hl hhead.1 hhead.2.1 hhead.2.2.1 hb
  | [c1, c2], hlen, hhead, htail, hb =>
    have hl : 0xF0 ≤ lead.toNat := by simp only [List.length_cons, List.length_nil] at hlen; omega
    simp only [List.head?_cons, Option.mem_def, Option.some.injEq, forall_eq', secondOk_iff] at hhead
    simp only [List.tail_cons, List.mem_singleton, forall_eq, cont_iff] at htail
    simp only [List.cons_ne_nil, if_false, cont_iff] at hb
    simp only [List.cons_append, List.singleton_append, seqValue, List.foldl,
      if_neg (show ¬lead.toNat < 0xE0 by omega), if_neg (Nat.not_lt.2 hl)]
    exact encodeChar_four ⟨hl, h2⟩ hhead.1 hhead.2.2.2.1 hhead.2.2.2.2 htail hb
  | _ :: _ :: _ :: _, hlen, _, _, _ => simp only [List.length_cons] at hlen; omega

theorem Partial.ok_lead {x : UInt8} (h1 : 0xC2 ≤ x.toNat) (h2 : x.toNat < 0xF5) (pos : Nat) :
    Partial.Ok ⟨x, pos, [], owedAfter x⟩ := by
  have := owedAfter_cases x
  exact ⟨h1, h2, by simp only; omega, by simp, by simp, by simp⟩

theorem Partial.Ok.more {p : Partial} (hp : p.Ok) {x : UInt8}
    (hb : (if p.conts = [] then secondOk p.lead x else cont x) = true) (ho : p.owed ≠ 1) :
    Partial.Ok { p with conts := p.conts ++ [x], owed := p.owed - 1 } := by
  obtain ⟨h1, h2, h3, hlen, hhead, htail⟩ := hp
  refine ⟨h1, h2, by simp only; omega, by simp only [List.length_append]; simp; omega, ?_, ?_⟩ <;>
    cases hc : p.conts <;> simp_all
  rintro c (hc | rfl)
  · exact htail c hc
  · exact hb

theorem encodeChar_ascii {x : UInt8} (h : x.toNat < 0x80) : encodeChar (Char.ofNat x.toNat) = [x] := by
  rw [encodeChar, toNat_charOfNat (by omega), if_pos h]
  simp only [List.cons.injEq, and_true]
  exact UInt8.toNat.inj (by simp [toNat_toUInt8]; omega)

theorem flatMap_of_decodeFrom {st : Option Partial} {b : Bytes} {pos : Nat} {cs : List Char}
    (h : decodeFrom st b pos = .ok cs) (hst : ∀ p ∈ st, Partial.Ok p) :
    cs.flatMap encodeChar = (st.elim [] fun p => p.lead :: p.conts) ++ b := by
  induction b generalizing st pos cs with
  | nil =>
    cases st with
    | none => cases h; rfl
    | some p => cases h
  | cons x rest ih =>
    cases st with
    | none =>
      by_cases h1 : x.toNat < 0x80
      · rw [decodeFrom, if_pos h1] at h
        obtain ⟨cs', hcs', rfl⟩ := map_eq_ok.1 h
        rw [List.flatMap_cons, encodeChar_ascii h1, ih hcs' (by simp)]
        rfl
      by_cases h2 : x.toNat < 0xC2 ∨ 0xF5 ≤ x.toNat
      · rw [decodeFrom, if_neg h1, if_pos h2] at h
        cases h
      · rw [decodeFrom_lead (by omega) (by omega)] at h
        rw [ih h (by simpa using Partial.ok_lead (by omega) (by omega) pos)]
        rfl
    | some p =>
      have hp := hst p rfl
      by_cases hb : (if p.conts = [] then secondOk p.lead x else cont x) = true
      · by_cases ho : p.owed = 1
        · rw [decodeFrom_last hb ho] at h
          obtain ⟨cs', hcs', rfl⟩ := map_eq_ok.1 h
          rw [List.flatMap_cons, encodeChar_seqValue hp ho hb, ih hcs' (by simp)]
          simp
        · rw [decodeFrom_more hb ho] at h
          rw [ih h (by simpa using hp.more hb ho)]
          simp
      · rw [decodeFrom, if_neg hb] at h
        cases h

/-- **Encoding inverts decoding**: the decoder accepts only the bytes that encode the string
it returns. -/
theorem utf8Encode_of_utf8Decode {b : Bytes} {s : String} (h : utf8Decode b = .ok s) :
    utf8Encode s = b := by
  obtain ⟨cs, hcs, rfl⟩ := map_eq_ok.1 h
  simpa using flatMap_of_decodeFrom hcs (by simp)

/-! ## Fields behind a one-byte length -/

theorem length_encodeChar_pos (c : Char) : 0 < (encodeChar c).length := by
  unfold encodeChar; split_ifs <;> simp

/-- A string has at most as many characters as its encoding has bytes: `len(s)` is at most
`len(s.encode())`. -/
theorem length_le_utf8Encode (s : String) : s.length ≤ (utf8Encode s).length := by
  obtain ⟨cs⟩ := s
  simp only [String.length, utf8Encode]
  induction cs with
  | nil => simp
  | cons c cs ih => simp only [List.flatMap_cons, List.length_append, List.length_cons]; have := length_encodeChar_pos c; omega

/-- A string whose UTF-8 encoding fits behind a one-byte length prefix.  Every text field the
server reads is one: it is decoded from a slice of at most 255 bytes (`ShortStr.decode`). -/
structure ShortStr where
  /-- The string. -/
  val : String
  /-- Its encoding has at most 255 bytes. -/
  short : (utf8Encode val).length < 256
  deriving DecidableEq

/-- `s.encode()`. -/
def ShortStr.bytes (s : ShortStr) : Bytes := utf8Encode s.val

/-- `len(s)`, in characters. -/
def ShortStr.len (s : ShortStr) : Nat := s.val.length

theorem ShortStr.length_bytes_lt (s : ShortStr) : s.bytes.length < 256 := s.short

theorem ShortStr.len_lt (s : ShortStr) : s.len < 256 :=
  Nat.lt_of_le_of_lt (length_le_utf8Encode s.val) s.short

/-- `b.decode('utf-8')` of a slice of at most 255 bytes. -/
def ShortStr.decode (b : Bytes) (hb : b.length < 256) : Except PyError ShortStr :=
  match h : utf8Decode b with
  | .ok s => .ok ⟨s, (utf8Encode_of_utf8Decode h) ▸ hb⟩
  | .error e => .error e

theorem ShortStr.decode_bytes (s : ShortStr) (h : s.bytes.length < 256) :
    ShortStr.decode s.bytes h = .ok s := by
  unfold ShortStr.decode
  split
  · rename_i t ht
    rw [bytes, utf8Decode_utf8Encode] at ht
    cases ht
    rfl
  · rename_i e he
    rw [bytes, utf8Decode_utf8Encode] at he
    cases he

theorem ShortStr.bytes_of_decode {b : Bytes} {hb : b.length < 256} {s : ShortStr}
    (h : ShortStr.decode b hb = .ok s) : s.bytes = b := by
  unfold ShortStr.decode at h
  split at h
  · rename_i t ht
    cases h
    exact utf8Encode_of_utf8Decode ht
  · cases h

end SentinelRelay
