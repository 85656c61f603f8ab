import IrohHydeAuth.Basis.Postcard

/-!
# What a postcard decoder accepts

A postcard decoder accepts more than the encoder writes: a varint may be padded with continuation bytes.  `Spells w a`
says which bytes stand for a value.  An instance of `Grammar` carries the proofs that the decoder of its type takes
exactly such bytes off its input, and that the encoding is the shortest of them and the only one of its length.
-/

namespace Process

/-! ### Varints -/

/-- The bytes are a varint of at most `fuel` bytes that stands for `n`.  A byte in the last position has one bit. -/
inductive Varint : Nat → Bytes → Nat → Prop
  | last {fuel : Nat} {b : UInt8} (hb : b.toNat < 128) (hlast : fuel = 0 → b.toNat ≤ 1) :
      Varint (fuel + 1) [b] b.toNat
  | more {fuel : Nat} {b : UInt8} {w : Bytes} {n : Nat} (hb : 128 ≤ b.toNat) (hw : Varint fuel w n) :
      Varint (fuel + 1) (b :: w) (b.toNat - 128 + 128 * n)

theorem takeVarint_iff {fuel n : Nat} {b rest : Bytes} :
    takeVarint fuel b = .ok (n, rest) ↔ ∃ w, b = w ++ rest ∧ Varint fuel w n := by
  induction fuel generalizing b n with
  | zero =>
    refine iff_of_false (by simp [takeVarint]) ?_
    rintro ⟨w, -, hw⟩
    cases hw
  | succ fuel ih =>
    cases b with
    | nil =>
      refine iff_of_false (by simp [takeVarint]) ?_
      rintro ⟨w, he, hw⟩
      cases hw with
      | last => simp at he
      | more => simp at he
    | cons x bs =>
      constructor
      · intro h
        simp only [takeVarint] at h
        split at h
        · rename_i hx
          split at h
          · cases h
          · rename_i hlast
            cases h
            exact ⟨[x], rfl, .last hx fun h0 => Nat.le_of_not_lt fun h1 => hlast ⟨h0, h1⟩⟩
        · rename_i hx
          cases hrec : takeVarint fuel bs with
          | error e =>
            rw [hrec] at h
            cases h
          | ok p =>
            rw [hrec] at h
            cases h
            obtain ⟨w, rfl, hw⟩ := ih.1 hrec
            exact ⟨x :: w, rfl, .more (Nat.le_of_not_lt hx) hw⟩
      · rintro ⟨w, he, hw⟩
        cases hw with
        | last hb hlast =>
          rw [List.singleton_append, List.cons.injEq] at he
          obtain ⟨rfl, rfl⟩ := he
          have hbit : ¬ (fuel = 0 ∧ 1 < x.toNat) := fun h => absurd (hlast h.1) (by omega)
          rw [takeVarint, if_pos hb, if_neg hbit]
        | more hb hw =>
          rw [List.cons_append, List.cons.injEq] at he
          obtain ⟨rfl, rfl⟩ := he
          have hrec := ih.2 ⟨_, rfl, hw⟩
          simp only [takeVarint]
          rw [if_neg (by omega), hrec]
          rfl

theorem Varint.lt {fuel n : Nat} {w : Bytes} (hw : Varint (fuel + 1) w n) : n < 2 * 128 ^ fuel := by
  induction fuel generalizing w n with
  | zero =>
    cases hw with
    | last hb hlast =>
      have := hlast rfl
      omega
    | more hb hw => cases hw
  | succ fuel ih =>
    rw [Nat.pow_succ]
    cases hw with
    | last hb hlast =>
      have : 0 < 128 ^ fuel := Nat.pow_pos (by decide)
      omega
    | more hb hw =>
      have := ih hw
      rename_i b w n
      have := b.toNat_lt
      omega

theorem Varint.lt_u64 {n : Nat} {w : Bytes} (hw : Varint varintMax w n) : n < 2 ^ 64 :=
  lt_of_lt_of_le hw.lt (by decide)

/-- The encoding is the shortest varint, and the only one of its length. -/
theorem Varint.shortest {fuel n : Nat} {w : Bytes} (hw : Varint fuel w n) :
    (putVarint fuel n).length ≤ w.length ∧ ((putVarint fuel n).length = w.length → w = putVarint fuel n) := by
  induction hw with
  | @last fuel b hb hlast =>
    rw [putVarint, if_pos hb]
    exact ⟨le_rfl, fun _ => by simp⟩
  | @more fuel b w n hb hw ih =>
    have hlt := b.toNat_lt
    rw [putVarint]
    by_cases hn : b.toNat - 128 + 128 * n < 128
    · -- nothing but padding
      rw [if_pos hn]
      have hpos : 0 < w.length := by
        cases hw with
        | last => simp
        | more => simp
      refine ⟨by simp, fun he => ?_⟩
      simp only [List.length_nil, List.length_cons] at he
      omega
    · rw [if_neg hn]
      have hdiv : (b.toNat - 128 + 128 * n) / 128 = n := by omega
      have hmod : (b.toNat - 128 + 128 * n) % 128 + 128 = b.toNat := by omega
      rw [hdiv, hmod]
      refine ⟨by simpa using ih.1, fun he => ?_⟩
      simp only [List.length_cons] at he
      rw [ih.2 (by omega)]
      simp

/-! ### Types -/

namespace Postcard

/-- Which bytes stand for a value, and that they are what the decoder takes. -/
class Grammar (α : Type) [Postcard α] where
  Spells : Bytes → α → Prop
  decode_iff (b : Bytes) (a : α) (rest : Bytes) : decode b = .ok (a, rest) ↔ ∃ w, b = w ++ rest ∧ Spells w a
  shortest (w : Bytes) (a : α) (h : Spells w a) :
    (encode a).length ≤ w.length ∧ ((encode a).length = w.length → w = encode a)

open Grammar

variable {α β : Type} [Postcard α] [Postcard β]

instance : Grammar UInt8 where
  Spells w x := w = [x]
  decode_iff b x rest := by
    cases b with
    | nil =>
      refine iff_of_false (by simp [decode]) ?_
      rintro ⟨w, he, rfl⟩
      simp at he
    | cons y b =>
      constructor
      · intro h
        cases h
        exact ⟨[x], rfl, rfl⟩
      · rintro ⟨w, he, rfl⟩
        cases he
        rfl
  shortest w x h := by
    subst h
    exact ⟨le_rfl, fun _ => rfl⟩

instance : Grammar UInt64 where
  Spells w x := Varint varintMax w x.toNat
  decode_iff b x rest := by
    show (takeVarint varintMax b >>= fun p => pure (UInt64.ofNat p.1, p.2)) = _ ↔ _
    cases h : takeVarint varintMax b with
    | error e =>
      refine iff_of_false nofun ?_
      intro hw
      rw [takeVarint_iff.2 hw] at h
      cases h
    | ok p =>
      obtain ⟨w, rfl, hw⟩ := takeVarint_iff.1 h
      have hto : (UInt64.ofNat p.1).toNat = p.1 := UInt64.toNat_ofNat_of_lt' hw.lt_u64
      constructor
      · intro he
        cases he
        exact ⟨w, rfl, by rwa [hto]⟩
      · intro hspells
        have he := h.symm.trans (takeVarint_iff.2 hspells)
        cases he
        exact congrArg (fun x => Except.ok (x, rest)) (UInt64.ofNat_toNat ..)
  shortest w x h := Varint.shortest h

theorem decode_bytes_iff (b a rest : Bytes) :
    decode b = .ok (a, rest) ↔ ∃ w, b = w ++ rest ∧ ∃ v, w = v ++ a ∧ Varint varintMax v a.length := by
  show (takeVarint varintMax b >>= fun p => takeBytes p.1 p.2) = _ ↔ _
  constructor
  · intro h
    cases hv : takeVarint varintMax b with
    | error e =>
      rw [hv] at h
      cases h
    | ok p =>
      rw [hv] at h
      obtain ⟨v, rfl, hvar⟩ := takeVarint_iff.1 hv
      have h : takeBytes p.1 p.2 = .ok (a, rest) := h
      rw [takeBytes] at h
      split at h
      · rename_i hle
        cases h
        have hlen : (p.2.take p.1).length = p.1 := List.length_take_of_le hle
        exact ⟨v ++ p.2.take p.1, by simp, v, rfl, by rwa [hlen]⟩
      · cases h
  · rintro ⟨w, rfl, v, rfl, hvar⟩
    rw [List.append_assoc, takeVarint_iff.2 ⟨v, rfl, hvar⟩]
    exact takeBytes_append rfl rest

theorem shortest_bytes (w a : Bytes) (h : ∃ v, w = v ++ a ∧ Varint varintMax v a.length) :
    (encode a).length ≤ w.length ∧ ((encode a).length = w.length → w = encode a) := by
  obtain ⟨v, rfl, hvar⟩ := h
  obtain ⟨hle, heq⟩ := hvar.shortest
  show (putVarint varintMax a.length ++ a).length ≤ _ ∧ ((putVarint varintMax a.length ++ a).length = _ → _)
  rw [List.length_append, List.length_append]
  exact ⟨by omega, fun he => by rw [heq (by omega)]; rfl⟩

instance : Grammar Bytes where
  Spells w a := ∃ v, w = v ++ a ∧ Varint varintMax v a.length
  decode_iff := decode_bytes_iff
  shortest := shortest_bytes

instance {n : Nat} : Grammar (ByteArr n) where
  Spells w a := w = a.val
  decode_iff b a rest := by
    constructor
    · intro h
      simp only [decode] at h
      split at h
      · cases h
        exact ⟨_, (List.take_append_drop n b).symm, rfl⟩
      · cases h
    · rintro ⟨w, rfl, rfl⟩
      obtain ⟨a, rfl⟩ := a
      simp [decode]
  shortest w a h := by
    subst h
    exact ⟨le_rfl, fun _ => rfl⟩

instance [Grammar α] [Grammar β] : Grammar (α × β) where
  Spells w p := ∃ u v, w = u ++ v ∧ Spells u p.1 ∧ Spells v p.2
  decode_iff b p rest := by
    show (decode b >>= fun x => decode x.2 >>= fun y => pure ((x.1, y.1), y.2)) = _ ↔ _
    constructor
    · intro h
      cases hx : decode (α := α) b with
      | error e =>
        rw [hx] at h
        cases h
      | ok x =>
        rw [hx] at h
        have h : (decode (α := β) x.2 >>= fun y => pure ((x.1, y.1), y.2)) = .ok (p, rest) := h
        cases hy : decode (α := β) x.2 with
        | error e =>
          rw [hy] at h
          cases h
        | ok y =>
          rw [hy] at h
          cases h
          obtain ⟨u, rfl, hu⟩ := (decode_iff _ _ _).1 hx
          obtain ⟨v, hv, hsv⟩ := (decode_iff _ _ _).1 hy
          exact ⟨u ++ v, by rw [hv, List.append_assoc], u, v, rfl, hu, hsv⟩
    · rintro ⟨w, rfl, u, v, rfl, hu, hv⟩
      rw [List.append_assoc, (decode_iff _ _ _).2 ⟨u, rfl, hu⟩]
      show (decode (v ++ rest) >>= fun y => pure ((p.1, y.1), y.2)) = _
      rw [(decode_iff _ _ _).2 ⟨v, rfl, hv⟩]
      rfl
  shortest w p h := by
    obtain ⟨u, v, rfl, hu, hv⟩ := h
    obtain ⟨hlu, heu⟩ := shortest u p.1 hu
    obtain ⟨hlv, hev⟩ := shortest v p.2 hv
    show (encode p.1 ++ encode p.2).length ≤ _ ∧ ((encode p.1 ++ encode p.2).length = _ → _)
    rw [List.length_append, List.length_append]
    exact ⟨by omega, fun he => by rw [heu (by omega), hev (by omega)]; rfl⟩

/-- A struct is spelled as the tuple of its fields. -/
@[reducible] def Grammar.ofFields [Grammar β] (fields : α → β) (mk : β → α)
    (hdecode : ∀ b, decode (α := α) b = (decode b >>= fun x => pure (mk x.1, x.2)))
    (hencode : ∀ a, encode a = encode (fields a)) (h : ∀ a, mk (fields a) = a) (hmk : ∀ x, fields (mk x) = x) :
    Grammar α where
  Spells w a := Spells w (fields a)
  decode_iff b a rest := by
    rw [hdecode]
    constructor
    · intro he
      cases hx : decode (α := β) b with
      | error e =>
        rw [hx] at he
        cases he
      | ok x =>
        rw [hx] at he
        cases he
        rw [hmk]
        exact (decode_iff _ _ _).1 hx
    · intro hw
      rw [(decode_iff _ _ _).2 hw]
      show Except.ok (mk (fields a), rest) = _
      rw [h]
  shortest w a hw := by
    rw [hencode]
    exact shortest w (fields a) hw

section Laws

variable [Grammar α] {a a' : α} {w w' r r' : Bytes}

theorem spells_encode (h : (encode a).length < 2 ^ 64) : Spells (encode a) a := by
  obtain ⟨w, he, hw⟩ := (decode_iff _ _ _).1 (decode_encode a [] h)
  rw [List.append_nil, List.append_nil] at he
  exact he ▸ hw

/-- Bytes can be read in one way only, whatever follows. -/
theorem spells_unique (hw : Spells w a) (hw' : Spells w' a') (he : w ++ r = w' ++ r') : w = w' ∧ a = a' := by
  have h := (decode_iff _ _ _).2 ⟨w, he.symm, hw⟩
  rw [(decode_iff _ _ _).2 ⟨w', rfl, hw'⟩] at h
  cases h
  exact ⟨List.append_cancel_right he, rfl⟩

theorem fromBytes_iff {b : Bytes} : fromBytes b = .ok a ↔ ∃ w surplus, b = w ++ surplus ∧ Spells w a := by
  rw [fromBytes]
  constructor
  · intro h
    cases hd : decode (α := α) b with
    | error e =>
      rw [hd] at h
      cases h
    | ok p =>
      rw [hd] at h
      cases h
      obtain ⟨w, he, hw⟩ := (decode_iff _ _ _).1 hd
      exact ⟨w, p.2, he, hw⟩
  · rintro ⟨w, surplus, he, hw⟩
    rw [(decode_iff _ _ _).2 ⟨w, he, hw⟩]
    rfl

end Laws

end Postcard

end Process
