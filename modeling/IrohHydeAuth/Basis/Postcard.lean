import IrohHydeAuth.Basis.Bytes

/-!
# The postcard format

The part of the postcard wire format that a derived serializer of plain structs uses: `u8` raw, `u64` and lengths as
LEB128 varints of at most ten bytes, byte vectors as a length followed by the bytes, arrays inline, and the fields of
a struct one after the other in declaration order.  A decoder returns the value and the bytes it has not used.

Each instance of `Postcard` carries the law that decoding undoes encoding whatever follows.
-/

namespace Process

/-- The two ways in which decoding one of the supported types can fail. -/
inductive PostcardError where
  | deserializeUnexpectedEnd
  | deserializeBadVarint
  deriving DecidableEq, Repr

/-! ### Varints -/

/-- The LEB128 encoding of `n`, on at most `fuel` bytes. -/
def putVarint : Nat → Nat → Bytes
  | 0, _ => []
  | fuel + 1, n =>
    if n < 128 then [UInt8.ofNat n] else UInt8.ofNat (n % 128 + 128) :: putVarint fuel (n / 128)

/-- Read a LEB128 varint of at most `fuel` bytes; a byte in the last position must be `0` or `1`, the bits that are
left of a `u64` there. -/
def takeVarint : Nat → Bytes → Except PostcardError (Nat × Bytes)
  | 0, _ => .error .deserializeBadVarint
  | _ + 1, [] => .error .deserializeUnexpectedEnd
  | fuel + 1, b :: bs =>
    if b.toNat < 128 then
      if fuel = 0 ∧ 1 < b.toNat then .error .deserializeBadVarint else .ok (b.toNat, bs)
    else do
      let (n, rest) ← takeVarint fuel bs
      return (b.toNat - 128 + 128 * n, rest)

/-- The longest varint of a `u64`. -/
def varintMax : Nat := 10

theorem takeVarint_putVarint {fuel n : Nat} (h : n < 2 * 128 ^ fuel) (rest : Bytes) :
    takeVarint (fuel + 1) (putVarint (fuel + 1) n ++ rest) = .ok (n, rest) := by
  induction fuel generalizing n with
  | zero =>
    have hx : (UInt8.ofNat n).toNat = n := by simp; omega
    have h1 : n < 128 := by omega
    have h2 : ¬ 1 < n := by omega
    simp [putVarint, takeVarint, hx, h1, h2]
  | succ fuel ih =>
    rw [putVarint]
    by_cases h1 : n < 128
    · have hx : (UInt8.ofNat n).toNat = n := by simp; omega
      simp [takeVarint, hx, h1]
    · have hx : (UInt8.ofNat (n % 128 + 128)).toNat = n % 128 + 128 := by simp; omega
      have hlt : ¬ n % 128 + 128 < 128 := by omega
      have hrec := ih (n := n / 128) (by rw [Nat.pow_succ] at h; omega)
      rw [if_neg h1, List.cons_append, takeVarint, hx, if_neg hlt, hrec]
      show Except.ok (n % 128 + 128 - 128 + 128 * (n / 128), rest) = _
      rw [Nat.add_sub_cancel, Nat.mod_add_div]

theorem takeVarint_putVarint_u64 {n : Nat} (h : n < 2 ^ 64) (rest : Bytes) :
    takeVarint varintMax (putVarint varintMax n ++ rest) = .ok (n, rest) :=
  takeVarint_putVarint (show n < 2 * 128 ^ 9 by simpa using h) rest

theorem length_putVarint_le (fuel n : Nat) : (putVarint fuel n).length ≤ fuel := by
  induction fuel generalizing n with
  | zero => simp [putVarint]
  | succ fuel ih =>
    rw [putVarint]
    split
    · simp
    · simpa using ih (n / 128)

/-! ### Taking bytes -/

/-- Take exactly `n` bytes. -/
def takeBytes (n : Nat) (b : Bytes) : Except PostcardError (Bytes × Bytes) :=
  if n ≤ b.length then .ok (b.take n, b.drop n) else .error .deserializeUnexpectedEnd

theorem takeBytes_append {n : Nat} {b : Bytes} (h : b.length = n) (rest : Bytes) :
    takeBytes n (b ++ rest) = .ok (b, rest) := by
  subst h
  simp [takeBytes]

/-! ### Types with a postcard encoding -/

/-- A type with a postcard encoding.  The bound on the length of an encoding is that of the platform's `usize`. -/
class Postcard (α : Type) where
  encode : α → Bytes
  decode : Bytes → Except PostcardError (α × Bytes)
  decode_encode (a : α) (rest : Bytes) (h : (encode a).length < 2 ^ 64) :
    decode (encode a ++ rest) = .ok (a, rest)

namespace Postcard

variable {α β : Type}

instance : Postcard UInt8 where
  encode x := [x]
  decode
    | [] => .error .deserializeUnexpectedEnd
    | x :: rest => .ok (x, rest)
  decode_encode _ _ _ := rfl

instance : Postcard UInt64 where
  encode x := putVarint varintMax x.toNat
  decode b := do
    let (n, rest) ← takeVarint varintMax b
    return (UInt64.ofNat n, rest)
  decode_encode x rest _ := by
    rw [takeVarint_putVarint_u64 x.toNat_lt]
    show Except.ok (UInt64.ofNat x.toNat, rest) = _
    rw [UInt64.ofNat_toNat]

instance : Postcard Bytes where
  encode b := putVarint varintMax b.length ++ b
  decode b := do
    let (n, rest) ← takeVarint varintMax b
    takeBytes n rest
  decode_encode b rest h := by
    have hb : b.length < 2 ^ 64 := by simp only [List.length_append] at h; omega
    rw [List.append_assoc, takeVarint_putVarint_u64 hb]
    exact takeBytes_append rfl rest

instance {n : Nat} : Postcard (ByteArr n) where
  encode b := b.val
  decode b :=
    if h : n ≤ b.length then .ok (⟨b.take n, by simp [h]⟩, b.drop n) else .error .deserializeUnexpectedEnd
  decode_encode b rest _ := by
    obtain ⟨b, rfl⟩ := b
    simp

instance [Postcard α] [Postcard β] : Postcard (α × β) where
  encode p := encode p.1 ++ encode p.2
  decode b := do
    let (x, rest) ← decode b
    let (y, rest') ← decode rest
    return ((x, y), rest')
  decode_encode p rest h := by
    simp only [List.length_append] at h
    have h2 := decode_encode p.2 rest (by omega)
    rw [List.append_assoc, decode_encode p.1 _ (by omega)]
    simp only [bind, Except.bind, h2]
    rfl

/-- A struct is encoded as the tuple of its fields. -/
@[reducible] def ofFields [Postcard β] (fields : α → β) (mk : β → α) (h : ∀ a, mk (fields a) = a) :
    Postcard α where
  encode a := encode (fields a)
  decode b := do
    let (x, rest) ← decode b
    return (mk x, rest)
  decode_encode a rest ha := by
    rw [decode_encode (fields a) rest ha]
    show Except.ok (mk (fields a), rest) = _
    rw [h]

/-- `postcard::from_bytes`: bytes after the value are ignored. -/
def fromBytes [Postcard α] (b : Bytes) : Except PostcardError α := do
  let (a, _) ← decode b
  return a

theorem fromBytes_encode [Postcard α] {a : α} (h : (encode a).length < 2 ^ 64) :
    fromBytes (encode a) = .ok a := by
  have := decode_encode a [] h
  rw [List.append_nil] at this
  rw [fromBytes, this]
  rfl

end Postcard

end Process
