import IrohHydeAuth.Basis.Bytes

/-!
# The SSH wire encoding

The three data types of RFC 4251 that key blobs and agent messages are made of: `byte`, `uint32` (big-endian) and
`string` (its length as a `uint32`, and then its bytes).  A decoder returns the value and the bytes behind it.

A decoder accepts exactly the encodings (`takeU32_eq_some`, `takeString_eq_some`), so a byte string starts with at
most one value of each type.
-/

namespace Process

namespace SshWire

variable {b s rest : Bytes}

def u32 (n : Nat) : Bytes := beBytes 4 n

def string (s : Bytes) : Bytes := u32 s.length ++ s

def takeN (n : Nat) (b : Bytes) : Option (Bytes × Bytes) := if n ≤ b.length then some (b.take n, b.drop n) else none

def takeU8 : Bytes → Option (UInt8 × Bytes)
  | [] => none
  | x :: rest => some (x, rest)

def takeU32 (b : Bytes) : Option (Nat × Bytes) := do
  let (x, rest) ← takeN 4 b
  return (beNat x, rest)

def takeString (b : Bytes) : Option (Bytes × Bytes) := do
  let (n, rest) ← takeU32 b
  takeN n rest

@[simp] theorem length_u32 (n : Nat) : (u32 n).length = 4 := length_beBytes 4 n

@[simp] theorem length_string (s : Bytes) : (string s).length = 4 + s.length := by simp [string]

theorem takeN_eq_some {n : Nat} : takeN n b = some (s, rest) ↔ s.length = n ∧ b = s ++ rest := by
  rw [takeN]
  constructor
  · intro h
    split at h
    · rename_i hn
      cases h
      exact ⟨List.length_take_of_le hn, (List.take_append_drop n b).symm⟩
    · cases h
  · rintro ⟨rfl, rfl⟩
    simp

theorem takeU8_eq_some {x : UInt8} : takeU8 b = some (x, rest) ↔ b = x :: rest := by
  cases b with
  | nil => simp [takeU8]
  | cons y b => simp [takeU8]

theorem takeU32_eq_some {n : Nat} : takeU32 b = some (n, rest) ↔ n < 2 ^ 32 ∧ b = u32 n ++ rest := by
  simp only [takeU32, Option.bind_eq_bind, Option.bind_eq_some_iff]
  constructor
  · rintro ⟨⟨x, r⟩, hx, he⟩
    obtain ⟨hl, rfl⟩ := takeN_eq_some.1 hx
    cases he
    have hlt := beNat_lt x
    rw [hl] at hlt
    exact ⟨hlt, by rw [u32, beBytes_beNat hl]⟩
  · rintro ⟨hn, rfl⟩
    refine ⟨(u32 n, rest), takeN_eq_some.2 ⟨length_u32 n, rfl⟩, ?_⟩
    show some (beNat (beBytes 4 n), rest) = _
    rw [beNat_beBytes_of_lt (by simpa using hn)]

theorem takeString_eq_some : takeString b = some (s, rest) ↔ s.length < 2 ^ 32 ∧ b = string s ++ rest := by
  simp only [takeString, Option.bind_eq_bind, Option.bind_eq_some_iff]
  constructor
  · rintro ⟨⟨n, r⟩, hn, hs⟩
    obtain ⟨hlt, rfl⟩ := takeU32_eq_some.1 hn
    obtain ⟨rfl, rfl⟩ := takeN_eq_some.1 hs
    exact ⟨hlt, by rw [string, List.append_assoc]⟩
  · rintro ⟨hlt, rfl⟩
    refine ⟨(s.length, s ++ rest), takeU32_eq_some.2 ⟨hlt, by rw [string, List.append_assoc]⟩, ?_⟩
    exact takeN_eq_some.2 ⟨rfl, rfl⟩

/-- A byte string starts with at most one string. -/
theorem string_append_inj {s' rest' : Bytes} (hs : s.length < 2 ^ 32) (hs' : s'.length < 2 ^ 32)
    (h : string s ++ rest = string s' ++ rest') : s = s' ∧ rest = rest' := by
  have h₁ : takeString (string s ++ rest) = some (s, rest) := takeString_eq_some.2 ⟨hs, rfl⟩
  have h₂ : takeString (string s ++ rest) = some (s', rest') := takeString_eq_some.2 ⟨hs', h⟩
  rw [h₁] at h₂
  cases h₂
  exact ⟨rfl, rfl⟩

end SshWire

end Process
