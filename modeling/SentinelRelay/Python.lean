import Mathlib.Data.UInt

/-!
# The Python values the relay server computes with

`src/relay/relay_server.py` works on `bytes`: it indexes and slices payloads, packs and
unpacks big-endian integers with `struct`, and writes length prefixes with `bytes([n])`.
This file gives each of these operations as Python computes it, together with the
exception it raises and the text `str(e)` shows, so that the handlers of `RelayServer` can
be read against the source line by line.

Indexing `payload[i]` raises `IndexError` past the end (`getByte`); slicing `payload[a:b]`
never raises and stops at the end (`slice`).  `struct.pack('!H' | '!I' | '!Q', n)` writes
`n` big-endian (`beBytes`) and `struct.unpack` reads it back (`beNat_beBytes`).
-/

namespace SentinelRelay

/-- A Python `bytes` or `bytearray` value. -/
abbrev Bytes := List UInt8

/-- The exceptions raised by the server's parsing and encoding. -/
inductive PyError where
  /-- `IndexError`, from `payload[i]` past the end. -/
  | indexError
  /-- `UnicodeDecodeError` of the `utf-8` codec: the byte at `start`, the bad range
  `start ≤ i < stop` of the decoded object, and the reason. -/
  | unicodeDecodeError (byte : UInt8) (start stop : Nat) (reason : String)
  /-- `struct.error`. -/
  | structError (msg : String)
  /-- `ValueError`. -/
  | valueError (msg : String)
  deriving DecidableEq, Repr

/-- Results of Python code compare by their value or their exception, so that a run of the
model can be checked by `decide`. -/
instance instDecidableEqExcept {ε α : Type} [DecidableEq ε] [DecidableEq α] :
    DecidableEq (Except ε α)
  | .ok a, .ok b => if h : a = b then isTrue (h ▸ rfl) else isFalse fun e => by cases e; exact h rfl
  | .error a, .error b =>
    if h : a = b then isTrue (h ▸ rfl) else isFalse fun e => by cases e; exact h rfl
  | .ok _, .error _ => isFalse nofun
  | .error _, .ok _ => isFalse nofun

/-- A byte as two lowercase hexadecimal digits, as `%02x` prints it. -/
def hex2 (b : UInt8) : String :=
  String.mk [Nat.digitChar (b.toNat / 16), Nat.digitChar (b.toNat % 16)]

/-- `str(e)`: the text the server logs, and sends in an `ERROR` frame. -/
def PyError.str : PyError → String
  | .indexError => "index out of range"
  | .unicodeDecodeError b start stop reason =>
    if stop = start + 1 then
      "\x27utf-8\x27 codec can\x27t decode byte 0x" ++ hex2 b ++ " in position " ++
        toString start ++ ": " ++ reason
    else
      "\x27utf-8\x27 codec can\x27t decode bytes in position " ++ toString start ++ "-" ++
        toString (stop - 1) ++ ": " ++ reason
  | .structError msg => msg
  | .valueError msg => msg

/-- `payload[i]` for `i ≥ 0`. -/
def getByte (p : Bytes) (i : Nat) : Except PyError UInt8 :=
  match p[i]? with
  | some b => .ok b
  | none => .error .indexError

/-- `payload[a:b]` for `0 ≤ a`: the bytes from `a` up to `b`, as many as there are. -/
def slice (p : Bytes) (a b : Nat) : Bytes := (p.drop a).take (b - a)

theorem getByte_eq_ok {p : Bytes} {i : Nat} {b : UInt8} : getByte p i = .ok b ↔ p[i]? = some b := by
  unfold getByte; cases p[i]? <;> simp

theorem getByte_append_length (p q : Bytes) (b : UInt8) :
    getByte (p ++ b :: q) p.length = .ok b := by
  rw [getByte_eq_ok, List.getElem?_append_right (Nat.le_refl _), Nat.sub_self]
  simp

theorem slice_append_length (p q r : Bytes) :
    slice (p ++ q ++ r) p.length (p.length + q.length) = q := by
  simp [slice, Nat.add_sub_cancel_left, List.drop_append_eq_append_drop, List.take_append_eq_append_take]

theorem toNat_toUInt8 (n : Nat) : n.toUInt8.toNat = n % 256 := by
  simp [Nat.toUInt8, UInt8.ofNat, UInt8.toNat, BitVec.toNat_ofNat]

theorem toNat_toUInt16 (n : Nat) : n.toUInt16.toNat = n % 65536 := by
  simp [Nat.toUInt16, UInt16.ofNat, UInt16.toNat, BitVec.toNat_ofNat]

/-- `bytearray([n])` and `bytearray.append(n)`: the byte `n`, or `ValueError` outside
`range(0, 256)`. -/
def byteOf (n : Nat) : Except PyError UInt8 :=
  if n < 256 then .ok n.toUInt8 else .error (.valueError "byte must be in range(0, 256)")

/-! ## `struct` in network byte order -/

/-- The `k` low bytes of `n`, most significant first: `struct.pack` of a `k`-byte unsigned
integer in network order. -/
def beBytes : Nat → Nat → Bytes
  | 0, _ => []
  | k + 1, n => beBytes k (n / 256) ++ [n.toUInt8]

/-- A big-endian unsigned integer: `struct.unpack` in network order. -/
def beNat (b : Bytes) : Nat := b.foldl (fun acc x => acc * 256 + x.toNat) 0

@[simp] theorem length_beBytes (k n : Nat) : (beBytes k n).length = k := by
  induction k generalizing n <;> simp [beBytes, *]

theorem beNat_append (l : Bytes) (x : UInt8) : beNat (l ++ [x]) = beNat l * 256 + x.toNat := by
  simp [beNat, List.foldl_append]

/-- **`struct.unpack` inverts `struct.pack`** on the `k` low bytes. -/
theorem beNat_beBytes (k n : Nat) : beNat (beBytes k n) = n % 256 ^ k := by
  induction k generalizing n with
  | zero => simp [beBytes, beNat, Nat.mod_one]
  | succ k ih =>
    rw [beBytes, beNat_append, ih, Nat.pow_succ, Nat.mul_comm (256 ^ k), Nat.mod_mul,
      toNat_toUInt8]
    omega

/-- `struct.pack('!H', n)`. -/
def packH (n : UInt16) : Bytes := beBytes 2 n.toNat

/-- `struct.unpack('!H', b)[0]`. -/
def unpackH (b : Bytes) : Except PyError UInt16 :=
  if b.length = 2 then .ok (beNat b).toUInt16
  else .error (.structError "unpack requires a buffer of 2 bytes")

/-- `struct.pack('!I', n)` of a payload length; `struct` raises for `n ≥ 2 ^ 32`, which no
length the model packs reaches. -/
def packI (n : Nat) : Bytes := beBytes 4 n

/-- `struct.pack('!Q', n)`, with the range check of `_struct.c`. -/
def packQ (n : Nat) : Except PyError Bytes :=
  if n < 2 ^ 64 then .ok (beBytes 8 n)
  else .error (.structError "\x27Q\x27 format requires 0 <= number <= 18446744073709551615")

@[simp] theorem length_packH (n : UInt16) : (packH n).length = 2 := length_beBytes 2 _

theorem unpackH_packH (n : UInt16) : unpackH (packH n) = .ok n := by
  simp only [unpackH, length_packH, if_true]
  rw [packH, beNat_beBytes]
  congr 1
  apply UInt16.toNat.inj
  have : n.toNat < 65536 := n.toNat_lt_size
  simp only [toNat_toUInt16]
  omega

end SentinelRelay
