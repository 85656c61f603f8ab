import Mathlib.Data.List.Basic
import Mathlib.Data.List.Induction
import Mathlib.Tactic.Ring

/-!
# Byte strings and big-endian integers

`beBytes k n` is the big-endian representation of `n` on `k` bytes (the low `8 * k` bits of `n`), and `beNat` reads
a byte string back; on byte strings of length `k` the two are inverse to each other.
-/

namespace Process

abbrev Bytes := List UInt8

/-- An array of exactly `n` bytes. -/
abbrev ByteArr (n : Nat) := { b : Bytes // b.length = n }

/-- The bytes of an ASCII literal. -/
def ascii (s : String) : Bytes := s.toList.map fun c => UInt8.ofNat c.toNat

/-- What begins with a tag is no prefix of what begins with another, if neither tag is a prefix of the other. -/
theorem not_prefix_append {a b : Bytes} (hab : ¬ a <+: b) (hba : ¬ b <+: a) (x y : Bytes) : ¬ a ++ x <+: b ++ y := by
  intro h
  have ha : a <+: b ++ y := (List.prefix_append a x).trans h
  rcases List.prefix_or_prefix_of_prefix ha (List.prefix_append b y) with h | h
  · exact hab h
  · exact hba h

def beBytes : Nat → Nat → Bytes
  | 0, _ => []
  | k + 1, n => beBytes k (n / 256) ++ [UInt8.ofNat n]

def beNat (b : Bytes) : Nat := b.foldl (fun acc x => acc * 256 + x.toNat) 0

@[simp] theorem length_beBytes (k n : Nat) : (beBytes k n).length = k := by
  induction k generalizing n with
  | zero => rfl
  | succ k ih => simp [beBytes, ih]

private theorem beNat_snoc (b : Bytes) (x : UInt8) : beNat (b ++ [x]) = beNat b * 256 + x.toNat := by
  simp [beNat]

theorem beNat_beBytes (k n : Nat) : beNat (beBytes k n) = n % 256 ^ k := by
  induction k generalizing n with
  | zero => simp [beBytes, beNat, Nat.mod_one]
  | succ k ih =>
    have hx : (UInt8.ofNat n).toNat = n % 256 := by simp
    rw [beBytes, beNat_snoc, ih, hx, Nat.pow_succ', Nat.mod_mul]
    ring

theorem beNat_beBytes_of_lt {k n : Nat} (h : n < 256 ^ k) : beNat (beBytes k n) = n := by
  rw [beNat_beBytes, Nat.mod_eq_of_lt h]

theorem beNat_lt (b : Bytes) : beNat b < 256 ^ b.length := by
  induction b using List.reverseRecOn with
  | nil => simp [beNat]
  | append_singleton b x ih =>
    have hx : x.toNat < 256 := x.toNat_lt
    rw [beNat_snoc, List.length_append, List.length_singleton, Nat.pow_succ]
    omega

theorem beBytes_beNat {k : Nat} {b : Bytes} (h : b.length = k) : beBytes k (beNat b) = b := by
  induction b using List.reverseRecOn generalizing k with
  | nil =>
    subst h
    rfl
  | append_singleton b x ih =>
    have hx : x.toNat < 256 := x.toNat_lt
    have hdiv : (beNat b * 256 + x.toNat) / 256 = beNat b := by omega
    have hmod : UInt8.ofNat (beNat b * 256 + x.toNat) = x := by
      apply UInt8.toNat_inj.1
      simp
    subst h
    rw [beNat_snoc, List.length_append, List.length_singleton, beBytes, hdiv, hmod, ih rfl]

theorem beBytes_inj {k m n : Nat} (hm : m < 256 ^ k) (hn : n < 256 ^ k) (h : beBytes k m = beBytes k n) :
    m = n := by
  rw [← beNat_beBytes_of_lt hm, ← beNat_beBytes_of_lt hn, h]

end Process
