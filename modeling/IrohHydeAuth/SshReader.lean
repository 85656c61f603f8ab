import IrohHydeAuth.SshAgent
import IrohHydeAuth.Basis.SshWire

/-!
# The reader against the wire encoding

The operations of `Reader` move a cursor over a buffer; the decoders of `SshWire` cut values off the front of a byte
string.  Each operation does to the bytes behind the cursor what its decoder does (`Decodes`), and none of them
accesses the buffer out of range.
-/

namespace IrohHydeAuth

open Process

namespace SshAgent

variable {α β : Type}

/-- The error of a read beyond the end. -/
def truncated : Fault := signerError "ssh-agent: truncated message"

section Run

variable {m : Read α} {f : α → Read β} {r r' : Reader}

theorem run_bind_ok {a : α} (h : m.run r = .ok a r') : (m >>= f).run r = (f a).run r' := by
  rw [EStateM.run_bind, h]

theorem run_bind_error {e : Fault} (h : m.run r = .error e r') : (m >>= f).run r = .error e r' := by
  rw [EStateM.run_bind, h]

end Run

namespace Reader

/-- The bytes behind the cursor. -/
def rest (r : Reader) : Bytes := r.buf.drop r.pos

/-- The cursor is within the buffer, and the buffer within the address space. -/
structure Wf (r : Reader) : Prop where
  pos_le : r.pos ≤ r.buf.length
  small : r.buf.length < 2 ^ 64

theorem wf_new {buf : Bytes} (h : buf.length < 2 ^ 64) : (new buf).Wf := ⟨Nat.zero_le _, h⟩

@[simp] theorem rest_new (buf : Bytes) : (new buf).rest = buf := rfl

theorem length_rest (r : Reader) : r.rest.length = r.buf.length - r.pos := List.length_drop

/-- `take` within the buffer. -/
theorem take_of_le {r : Reader} {n : Nat} (hn : r.pos + n ≤ r.buf.length) (hlt : r.pos + n < 2 ^ 64) :
    (take n).run r = .ok (r.rest.take n) { r with pos := r.pos + n } := by
  have hslice : slice r.buf r.pos (r.pos + n) = .ok (r.rest.take n) := by
    rw [slice, if_pos ⟨Nat.le_add_right _ _, hn⟩, Nat.add_sub_cancel_left]
    rfl
  have hstop : (checkedAdd r.pos n).filter (· ≤ r.buf.length) = some (r.pos + n) := by
    rw [checkedAdd, if_pos hlt, Option.filter_some, if_pos (decide_eq_true hn)]
  rw [take, run_bind_ok (EStateM.run_get r)]
  simp only [hstop, hslice]
  rfl

/-- `take` beyond the end leaves the cursor where it is; a sum that overflows is beyond the end. -/
theorem take_of_not_le {r : Reader} {n : Nat} (hn : ¬ (r.pos + n ≤ r.buf.length ∧ r.pos + n < 2 ^ 64)) :
    (take n).run r = .error truncated r := by
  have hnone : (checkedAdd r.pos n).filter (· ≤ r.buf.length) = none := by
    rw [checkedAdd]
    split
    · rename_i hlt
      have hle : ¬ r.pos + n ≤ r.buf.length := fun h => hn ⟨h, hlt⟩
      simp [Option.filter_some, hle]
    · rfl
  rw [take, run_bind_ok (EStateM.run_get r)]
  simp only [hnone]
  rfl

end Reader

/-- On the bytes behind the cursor, `m` does what the decoder `d` does. -/
structure Decodes (m : Read α) (d : Bytes → Option (α × Bytes)) : Prop where
  ok : ∀ r : Reader, r.Wf → ∀ a rest, d r.rest = some (a, rest) →
    ∃ r', m.run r = .ok a r' ∧ r'.Wf ∧ r'.buf = r.buf ∧ r'.rest = rest
  error : ∀ r : Reader, r.Wf → d r.rest = none → ∃ r', m.run r = .error truncated r'

theorem Decodes.bind {m : Read α} {d : Bytes → Option (α × Bytes)} {f : α → Read β}
    {e : α → Bytes → Option (β × Bytes)} (hm : Decodes m d) (hf : ∀ a, Decodes (f a) (e a)) :
    Decodes (m >>= f) fun b => (d b).bind fun p => e p.1 p.2 where
  ok r hr b rest h := by
    obtain ⟨⟨a, rest'⟩, hd, he⟩ := Option.bind_eq_some_iff.1 h
    obtain ⟨r₁, h₁, hr₁, hb₁, rfl⟩ := hm.ok r hr a rest' hd
    obtain ⟨r₂, h₂, hr₂, hb₂, hrest⟩ := (hf a).ok r₁ hr₁ b rest he
    exact ⟨r₂, (run_bind_ok h₁).trans h₂, hr₂, hb₂.trans hb₁, hrest⟩
  error r hr h := by
    cases hd : d r.rest with
    | none =>
      obtain ⟨r', h'⟩ := hm.error r hr hd
      exact ⟨r', run_bind_error h'⟩
    | some p =>
      obtain ⟨r₁, h₁, hr₁, -, hrest⟩ := hm.ok r hr p.1 p.2 hd
      have he : e p.1 r₁.rest = none := by simpa [hd, hrest] using h
      obtain ⟨r', h'⟩ := (hf p.1).error r₁ hr₁ he
      exact ⟨r', (run_bind_ok h₁).trans h'⟩

theorem decodes_pure (a : α) : Decodes (pure a) fun b => some (a, b) where
  ok r hr a' rest h := by
    cases h
    exact ⟨r, rfl, hr, rfl, rfl⟩
  error r hr h := by cases h

theorem Decodes.ite {m m' : Read α} {d d' : Bytes → Option (α × Bytes)} {c : Prop} [Decidable c] (hm : Decodes m d)
    (hm' : Decodes m' d') : Decodes (if c then m else m') fun b => if c then d b else d' b := by
  split
  · simpa using hm
  · simpa using hm'

/-! ### The operations -/

namespace Reader

open SshWire (takeN takeU8 takeU32 takeString)

theorem decodes_take (n : Nat) : Decodes (take n) (takeN n) where
  ok r hr s rest h := by
    rw [takeN, length_rest] at h
    split at h
    · rename_i hn
      have hle : r.pos + n ≤ r.buf.length := by
        have := hr.pos_le
        omega
      cases h
      refine ⟨_, take_of_le hle (lt_of_le_of_lt hle hr.small), ⟨hle, hr.small⟩, rfl, ?_⟩
      rw [Reader.rest, Reader.rest, List.drop_drop]
    · cases h
  error r hr h := by
    rw [takeN, length_rest] at h
    split at h
    · cases h
    · exact ⟨r, take_of_not_le (by omega)⟩

/-- The bytes that were taken can be indexed. -/
theorem run_index {b : Bytes} {i : Nat} {x : UInt8} (h : b[i]? = some x) (r : Reader) :
    (ofExcept (index b i) : Read UInt8).run r = .ok x r := by
  rw [index, h]
  rfl

theorem decodes_u8 : Decodes u8 takeU8 where
  ok r hr x rest h := by
    have hrest := SshWire.takeU8_eq_some.1 h
    have ht : takeN 1 r.rest = some ([x], rest) := SshWire.takeN_eq_some.2 ⟨rfl, hrest⟩
    obtain ⟨r', h', hr', hb', hrest'⟩ := (decodes_take 1).ok r hr _ _ ht
    exact ⟨r', (run_bind_ok h').trans (run_index rfl r'), hr', hb', hrest'⟩
  error r hr h := by
    have hnil : r.rest = [] := by
      cases hb : r.rest with
      | nil => rfl
      | cons x b => simp [hb, takeU8] at h
    obtain ⟨r', h'⟩ := (decodes_take 1).error r hr (by simp [takeN, hnil])
    exact ⟨r', run_bind_error h'⟩

theorem run_u32_tail {b : Bytes} (hb : b.length = 4) (r : Reader) :
    EStateM.run (do
      let b0 ← ofExcept (index b 0)
      let b1 ← ofExcept (index b 1)
      let b2 ← ofExcept (index b 2)
      let b3 ← ofExcept (index b 3)
      return beNat [b0, b1, b2, b3] : Read Nat) r = .ok (beNat b) r := by
  match b, hb with
  | [b0, b1, b2, b3], _ => rfl

theorem decodes_u32 : Decodes u32 takeU32 where
  ok r hr n rest h := by
    obtain ⟨⟨b, rest'⟩, ht, he⟩ := Option.bind_eq_some_iff.1 h
    cases he
    obtain ⟨r', h', hr', hb', hrest'⟩ := (decodes_take 4).ok r hr _ _ ht
    exact ⟨r', (run_bind_ok h').trans (run_u32_tail (SshWire.takeN_eq_some.1 ht).1 r'), hr', hb', hrest'⟩
  error r hr h := by
    have ht : takeN 4 r.rest = none := by
      cases ht : takeN 4 r.rest with
      | none => rfl
      | some p => simp [takeU32, ht] at h
    obtain ⟨r', h'⟩ := (decodes_take 4).error r hr ht
    exact ⟨r', run_bind_error h'⟩

theorem decodes_string : Decodes string takeString := decodes_u32.bind decodes_take

end Reader

/-! ### Blobs -/

/-- The blob begins with the type of ed25519 keys and signatures, and then the string `body`. -/
def IsEd25519 (blob body : Bytes) : Prop :=
  ∃ rest, blob = SshWire.string ED25519_KEY_TYPE ++ SshWire.string body ++ rest

private theorem ed25519_length_lt : ED25519_KEY_TYPE.length < 2 ^ 32 := by decide

theorem isEd25519_iff {blob body : Bytes} (hlen : blob.length < 2 ^ 32) : IsEd25519 blob body ↔
    ∃ rest rest', SshWire.takeString blob = some (ED25519_KEY_TYPE, rest) ∧
      SshWire.takeString rest = some (body, rest') := by
  simp only [SshWire.takeString_eq_some]
  constructor
  · rintro ⟨rest, rfl⟩
    simp only [List.length_append, SshWire.length_string] at hlen
    exact ⟨_, rest, ⟨ed25519_length_lt, List.append_assoc _ _ _⟩, by omega, rfl⟩
  · rintro ⟨rest, rest', ⟨-, rfl⟩, -, rfl⟩
    exact ⟨rest', (List.append_assoc _ _ _).symm⟩

theorem IsEd25519.unique {keyBlob : Bytes} {pk pk' : ByteArr 32} (h : IsEd25519 keyBlob pk.val)
    (h' : IsEd25519 keyBlob pk'.val) : pk = pk' := by
  obtain ⟨rest, rfl⟩ := h
  obtain ⟨rest', h'⟩ := h'
  have hlt : ∀ pk : ByteArr 32, pk.val.length < 2 ^ 32 := fun pk => by simp [pk.property]
  simp only [List.append_assoc] at h'
  obtain ⟨-, h'⟩ := SshWire.string_append_inj ed25519_length_lt ed25519_length_lt h'
  exact Subtype.ext (SshWire.string_append_inj (hlt pk) (hlt pk') h').1

/-- A function that is given a new reader of `buf` and decodes. -/
theorem Decodes.on {m : Read α} {d : Bytes → Option (α × Bytes)} (hm : Decodes m d) {buf : Bytes}
    (hb : buf.length < 2 ^ 64) :
    m.on buf = match d buf with
      | some (a, _) => .ok a
      | none => .error truncated := by
  cases hd : d buf with
  | none =>
    obtain ⟨r', h'⟩ := hm.error (.new buf) (Reader.wf_new hb) hd
    rw [Read.on, h']
  | some p =>
    obtain ⟨r', h', -⟩ := hm.ok (.new buf) (Reader.wf_new hb) p.1 p.2 hd
    rw [Read.on, h']

/-- `parse_ed25519_public_key` finds the key of every ed25519 blob, and none in any other. -/
theorem parseEd25519PublicKey_spec (keyBlob : Bytes) (hb : keyBlob.length < 2 ^ 32) :
    (∃ pk, parseEd25519PublicKey keyBlob = .ok (some pk) ∧ IsEd25519 keyBlob pk.val) ∨
      parseEd25519PublicKey keyBlob = .ok none ∧ ∀ pk : ByteArr 32, ¬ IsEd25519 keyBlob pk.val := by
  have hdec := (Reader.decodes_string.bind fun keyType => Decodes.ite (c := keyType ≠ ED25519_KEY_TYPE)
    (decodes_pure none) (Reader.decodes_string.bind fun pk : Bytes =>
      decodes_pure (if h : pk.length = 32 then some (⟨pk, h⟩ : ByteArr 32) else none))).on
    (show keyBlob.length < 2 ^ 64 by omega)
  have hparse : parseEd25519PublicKey keyBlob = _ := congrArg (fun r => (ok? r).map Option.join) hdec
  rw [hparse]
  simp only [isEd25519_iff hb]
  cases h₁ : SshWire.takeString keyBlob with
  | none => exact .inr ⟨rfl, by simp⟩
  | some p =>
    obtain ⟨keyType, rest⟩ := p
    by_cases ht : keyType = ED25519_KEY_TYPE
    · subst ht
      cases h₂ : SshWire.takeString rest with
      | none => exact .inr ⟨by simp [h₂, ok?, truncated, signerError, Except.map], by simp [h₂]⟩
      | some p =>
        obtain ⟨pk, rest'⟩ := p
        by_cases hpk : pk.length = 32
        · exact .inl ⟨⟨pk, hpk⟩, by simp [h₂, hpk, ok?, Except.map], rest, rest', rfl, h₂⟩
        · refine .inr ⟨by simp [h₂, hpk, ok?, Except.map], ?_⟩
          rintro pk' ⟨_, _, ⟨⟩, h₃⟩
          rw [h₂] at h₃
          cases h₃
          exact hpk pk'.property
    · refine .inr ⟨by simp [ht, ok?, Except.map], ?_⟩
      rintro pk ⟨_, _, ⟨⟩, -⟩
      exact ht rfl

/-! ### The list of identities -/

/-- A key blob and its comment, as an agent lists them. -/
def identity (p : Bytes × Bytes) : Bytes := SshWire.string p.1 ++ SshWire.string p.2

/-- The blob is that of an ed25519 key, and of the wanted one if there is one. -/
def Matches (wantPublicKey : Option (ByteArr 32)) (keyBlob : Bytes) (pk : ByteArr 32) : Prop :=
  IsEd25519 keyBlob pk.val ∧ ∀ w, wantPublicKey = some w → w = pk

/-- Of the identities listed in `b`, of which there are `count`, the first that matches has this blob and this key. -/
def Lists (wantPublicKey : Option (ByteArr 32)) (count : Nat) (b keyBlob : Bytes) (pk : ByteArr 32) : Prop :=
  ∃ (before : List (Bytes × Bytes)) (comment rest : Bytes),
    b = before.flatMap identity ++ identity (keyBlob, comment) ++ rest ∧ before.length < count ∧
      Matches wantPublicKey keyBlob pk ∧ ∀ p ∈ before, ∀ pk', ¬ Matches wantPublicKey p.1 pk'

section Identities

variable {want : Option (ByteArr 32)} {count : Nat} {b keyBlob : Bytes} {pk : ByteArr 32}

theorem identity_append_inj {p p' : Bytes × Bytes} {rest rest' : Bytes} (hb : b.length < 2 ^ 32)
    (h : b = identity p ++ rest) (h' : b = identity p' ++ rest') : p = p' ∧ rest = rest' := by
  have hlen := congrArg List.length h
  have hlen' := congrArg List.length h'
  simp only [identity, List.length_append, SshWire.length_string] at hlen hlen'
  rw [h, identity, identity, List.append_assoc, List.append_assoc] at h'
  obtain ⟨h₁, h'⟩ := SshWire.string_append_inj (by omega) (by omega) h'
  obtain ⟨h₂, h'⟩ := SshWire.string_append_inj (by omega) (by omega) h'
  exact ⟨Prod.ext h₁ h₂, h'⟩

theorem not_lists_zero : ¬ Lists want 0 b keyBlob pk := by
  rintro ⟨before, comment, rest, -, hlt, -⟩
  exact absurd hlt (Nat.not_lt_zero _)

/-- The first identity of the list matches, or it is passed over. -/
theorem lists_succ {p : Bytes × Bytes} {rest : Bytes} (hb : b.length < 2 ^ 32) (h : b = identity p ++ rest) :
    Lists want (count + 1) b keyBlob pk ↔
      (p.1 = keyBlob ∧ Matches want keyBlob pk) ∨
        (∀ pk', ¬ Matches want p.1 pk') ∧ Lists want count rest keyBlob pk := by
  constructor
  · rintro ⟨before, comment, rest', he, hlt, hm, hn⟩
    cases before with
    | nil =>
      obtain ⟨rfl, -⟩ := identity_append_inj hb h (by simpa using he)
      exact .inl ⟨rfl, hm⟩
    | cons p' before =>
      simp only [List.flatMap_cons, List.append_assoc] at he
      obtain ⟨rfl, rfl⟩ := identity_append_inj hb h he
      refine .inr ⟨hn p (by simp), before, comment, rest', by simp, ?_, hm, fun q hq => hn q (by simp [hq])⟩
      simpa using hlt
  · rintro (⟨rfl, hm⟩ | ⟨hn, before, comment, rest', rfl, hlt, hm, hn'⟩)
    · exact ⟨[], p.2, rest, by simpa using h, by simp, hm, by simp⟩
    · refine ⟨p :: before, comment, rest', by simp [h], by simpa using hlt, hm, ?_⟩
      intro q hq
      rcases List.mem_cons.1 hq with rfl | hq
      · exact hn
      · exact hn' q hq

end Identities

end SshAgent

open SshAgent

namespace SshAgentSigner

variable {want : Option (ByteArr 32)} {count : Nat} {r : Reader}

/-- The loop goes on behind an identity that is read. -/
private theorem scan_identity (want : Option (ByteArr 32)) (count : Nat) (hr : r.Wf) {p : Bytes × Bytes} {rest : Bytes}
    (hb : r.buf.length < 2 ^ 32) (h : r.rest = identity p ++ rest) :
    ∃ r', r'.Wf ∧ r'.buf = r.buf ∧ r'.rest = rest ∧
      ((∃ pk, Matches want p.1 pk ∧ (scan want (count + 1)).run r = .ok (p.1, pk) r') ∨
        (∀ pk, ¬ Matches want p.1 pk) ∧ (scan want (count + 1)).run r = (scan want count).run r') := by
  have hlen : r.rest.length < 2 ^ 32 := by
    rw [Reader.length_rest]
    omega
  rw [h] at hlen
  simp only [identity, List.length_append, SshWire.length_string] at hlen
  rw [identity, List.append_assoc] at h
  obtain ⟨r₁, h₁, hr₁, hb₁, hrest₁⟩ := Reader.decodes_string.ok r hr _ _
    (SshWire.takeString_eq_some.2 ⟨by omega, h⟩)
  obtain ⟨r₂, h₂, hr₂, hb₂, hrest₂⟩ := Reader.decodes_string.ok r₁ hr₁ _ _
    (SshWire.takeString_eq_some.2 ⟨by omega, hrest₁⟩)
  have hrun : (scan want (count + 1)).run r = _ := (run_bind_ok h₁).trans (run_bind_ok h₂)
  refine ⟨r₂, hr₂, hb₂.trans hb₁, hrest₂, ?_⟩
  rcases parseEd25519PublicKey_spec p.1 (by omega) with ⟨pk, hparse, hed⟩ | ⟨hparse, hed⟩
  · rw [hparse] at hrun
    by_cases hw : (want.map fun w => decide (w = pk)).getD true = true
    · refine .inl ⟨pk, ⟨hed, ?_⟩, hrun.trans ?_⟩
      · rintro w rfl
        simpa using hw
      · show EStateM.run (if _ then _ else _) r₂ = _
        rw [if_pos hw]
        rfl
    · refine .inr ⟨?_, hrun.trans ?_⟩
      · rintro pk' ⟨hed', hw'⟩
        refine hw ?_
        cases want with
        | none => rfl
        | some w => simpa [hed.unique hed'] using hw' w rfl
      · show EStateM.run (if _ then _ else _) r₂ = _
        rw [if_neg hw]
  · rw [hparse] at hrun
    exact .inr ⟨fun pk hm => hed pk hm.1, hrun⟩

/-- The loop ends with an error where no identity can be read. -/
private theorem scan_truncated (want : Option (ByteArr 32)) (count : Nat) (hr : r.Wf)
    (h : ∀ p rest, r.rest ≠ identity p ++ rest) : ∃ r', (scan want (count + 1)).run r = .error truncated r' := by
  cases h₁ : SshWire.takeString r.rest with
  | none =>
    obtain ⟨r', h'⟩ := Reader.decodes_string.error r hr h₁
    exact ⟨r', run_bind_error h'⟩
  | some p =>
    obtain ⟨r₁, hrun, hr₁, -, hrest₁⟩ := Reader.decodes_string.ok r hr _ _ h₁
    have h₂ : SshWire.takeString r₁.rest = none := by
      rw [hrest₁]
      cases h₂ : SshWire.takeString p.2 with
      | none => rfl
      | some q =>
        obtain ⟨-, he₁⟩ := SshWire.takeString_eq_some.1 h₁
        obtain ⟨-, he₂⟩ := SshWire.takeString_eq_some.1 h₂
        refine absurd ?_ (h (p.1, q.1) q.2)
        rw [he₁, he₂, identity, List.append_assoc]
    obtain ⟨r', h'⟩ := Reader.decodes_string.error r₁ hr₁ h₂
    exact ⟨r', (run_bind_ok hrun).trans (run_bind_error h')⟩

/-- The loop finds the first identity that matches, and otherwise ends with an error. -/
theorem scan_spec (hr : r.Wf) (hb : r.buf.length < 2 ^ 32) :
    (∃ keyBlob pk r', (scan want count).run r = .ok (keyBlob, pk) r' ∧
        ∀ kb k, Lists want count r.rest kb k ↔ kb = keyBlob ∧ k = pk) ∨
      ∃ text r', (scan want count).run r = .error (signerError text) r' ∧
        ∀ kb k, ¬ Lists want count r.rest kb k := by
  induction count generalizing r with
  | zero => exact .inr ⟨_, r, rfl, fun _ _ => not_lists_zero⟩
  | succ count ih =>
    by_cases h : ∃ p rest, r.rest = identity p ++ rest
    · obtain ⟨p, rest, h⟩ := h
      have hlen : r.rest.length < 2 ^ 32 := by
        rw [Reader.length_rest]
        omega
      obtain ⟨r', hr', hb', rfl, ⟨pk, hm, hrun⟩ | ⟨hn, hrun⟩⟩ := scan_identity want count hr hb h
      · refine .inl ⟨p.1, pk, r', hrun, fun kb k => ?_⟩
        rw [lists_succ hlen h]
        constructor
        · rintro (⟨rfl, hm'⟩ | ⟨hn, -⟩)
          · exact ⟨rfl, hm'.1.unique hm.1⟩
          · exact absurd hm (hn pk)
        · rintro ⟨rfl, rfl⟩
          exact .inl ⟨rfl, hm⟩
      · have hskip : ∀ kb k, Lists want (count + 1) r.rest kb k ↔ Lists want count r'.rest kb k := by
          intro kb k
          rw [lists_succ hlen h]
          constructor
          · rintro (⟨rfl, hm⟩ | ⟨-, hl⟩)
            · exact absurd hm (hn k)
            · exact hl
          · exact fun hl => .inr ⟨hn, hl⟩
        simp only [hrun, hskip]
        exact ih hr' (hb' ▸ hb)
    · obtain ⟨r', h'⟩ := scan_truncated want count hr fun p rest he => h ⟨p, rest, he⟩
      refine .inr ⟨_, r', h', ?_⟩
      rintro kb k ⟨before, comment, rest, he, -⟩
      cases before with
      | nil => exact h ⟨_, _, by simpa using he⟩
      | cons p before => exact h ⟨p, _, by simpa using he⟩

/-- However large the count, the loop ends with an error once the buffer is exhausted. -/
theorem scan_exhausted {before : List (Bytes × Bytes)} {rest : Bytes} (hr : r.Wf) (hb : r.buf.length < 2 ^ 32)
    (h : r.rest = before.flatMap identity ++ rest) (hlt : before.length < count)
    (hn : ∀ p ∈ before, ∀ pk, ¬ Matches want p.1 pk) (hrest : ∀ p rest', rest ≠ identity p ++ rest') :
    ∃ r', (scan want count).run r = .error truncated r' := by
  induction before generalizing r count with
  | nil =>
    obtain ⟨count, rfl⟩ := Nat.exists_eq_succ_of_ne_zero (Nat.ne_of_gt hlt)
    exact scan_truncated want count hr fun p rest' he => hrest p rest' (h.symm.trans he)
  | cons p before ih =>
    obtain ⟨count, rfl⟩ := Nat.exists_eq_succ_of_ne_zero (Nat.ne_of_gt (Nat.zero_lt_of_lt hlt))
    rw [List.flatMap_cons, List.append_assoc] at h
    obtain ⟨r', hr', hb', hrest', ⟨pk, hm, -⟩ | ⟨-, hrun⟩⟩ := scan_identity want count hr hb h
    · exact absurd hm (hn p (by simp) pk)
    · rw [hrun]
      exact ih hr' (hb' ▸ hb) hrest' (by simpa using hlt) fun q hq => hn q (by simp [hq])

/-! ### The replies -/

/-- The reply is a list of identities, and the first of them that matches has this blob and this key. -/
def Selects (want : Option (ByteArr 32)) (resp keyBlob : Bytes) (pk : ByteArr 32) : Prop :=
  ∃ count body, count < 2 ^ 32 ∧ resp = IDENTITIES_ANSWER :: (SshWire.u32 count ++ body) ∧
    Lists want count body keyBlob pk

/-- A function that fails with an error of the backend fails so on every buffer it is given. -/
private theorem on_error {α : Type} {m : Read α} {buf : Bytes} {text : String}
    (h : ∃ r', m.run (.new buf) = .error (signerError text) r') : m.on buf = .error (signerError text) := by
  obtain ⟨r', h⟩ := h
  rw [Read.on, h]

/-- A reply of the expected kind is read on behind its first byte, and any other is refused. -/
private theorem run_kind {α : Type} (kind : UInt8) (text : String) (m : Read α) {resp : Bytes}
    (hlen : resp.length < 2 ^ 64) :
    let reply : Read α := do if (← Reader.u8) ≠ kind then throw (signerError text) else m
    (∃ body r, resp = kind :: body ∧ reply.run (.new resp) = m.run r ∧ r.Wf ∧ r.buf = resp ∧ r.rest = body) ∨
      (∀ body, resp ≠ kind :: body) ∧ ∃ text', reply.on resp = .error (signerError text') := by
  intro reply
  have hwf : (Reader.new resp).Wf := Reader.wf_new hlen
  cases resp with
  | nil =>
    obtain ⟨r', h'⟩ := Reader.decodes_u8.error _ hwf rfl
    exact .inr ⟨by simp, _, on_error ⟨r', run_bind_error h'⟩⟩
  | cons x resp =>
    obtain ⟨r, h, hr, hb, hrest⟩ := Reader.decodes_u8.ok _ hwf x resp rfl
    have hrun : reply.run (.new (x :: resp)) = _ := run_bind_ok h
    by_cases hx : x = kind
    · subst hx
      rw [if_neg (by simp)] at hrun
      exact .inl ⟨resp, r, rfl, hrun, hr, hb, hrest⟩
    · rw [if_pos hx] at hrun
      exact .inr ⟨fun body he => hx (List.cons.inj he).1, _, on_error ⟨r, hrun⟩⟩

/-- `connect` selects the first identity that matches, or fails. -/
theorem select_spec {resp : Bytes} (hlen : resp.length < 2 ^ 32) :
    (∃ keyBlob pk, (select want).on resp = .ok (keyBlob, pk) ∧
        ∀ kb k, Selects want resp kb k ↔ kb = keyBlob ∧ k = pk) ∨
      ∃ text, (select want).on resp = .error (signerError text) ∧ ∀ kb k, ¬ Selects want resp kb k := by
  rcases run_kind IDENTITIES_ANSWER _ (Reader.u32 >>= scan want) (show resp.length < 2 ^ 64 by omega) with
    ⟨resp, r₁, rfl, hrun₁, hr₁, hb₁, hrest₁⟩ | ⟨hno, text, h⟩
  · cases h₂ : SshWire.takeU32 resp with
    | none =>
      obtain ⟨r', h'⟩ := Reader.decodes_u32.error r₁ hr₁ (hrest₁ ▸ h₂)
      refine .inr ⟨_, on_error ⟨r', hrun₁.trans (run_bind_error h')⟩, ?_⟩
      rintro kb k ⟨count, body, hlt, he, -⟩
      rw [List.cons.injEq] at he
      rw [SshWire.takeU32_eq_some.2 ⟨hlt, he.2⟩] at h₂
      cases h₂
    | some p =>
      obtain ⟨count, body⟩ := p
      obtain ⟨r₂, h₃, hr₂, hb₂, rfl⟩ := Reader.decodes_u32.ok r₁ hr₁ count body (hrest₁ ▸ h₂)
      have hrun₂ : (select want).run (.new (IDENTITIES_ANSWER :: resp)) = _ := hrun₁.trans (run_bind_ok h₃)
      have hsel : ∀ kb k, Selects want (IDENTITIES_ANSWER :: resp) kb k ↔ Lists want count r₂.rest kb k := by
        obtain ⟨hlt, rfl⟩ := SshWire.takeU32_eq_some.1 h₂
        intro kb k
        constructor
        · rintro ⟨count', body', hlt', he, hl⟩
          rw [List.cons.injEq] at he
          rw [SshWire.takeU32_eq_some.2 ⟨hlt', he.2⟩] at h₂
          cases h₂
          exact hl
        · exact fun hl => ⟨count, r₂.rest, hlt, rfl, hl⟩
      simp only [hsel]
      have hb : r₂.buf.length < 2 ^ 32 := by
        rw [hb₂, hb₁]
        exact hlen
      rcases scan_spec hr₂ hb with ⟨keyBlob, pk, r', hscan, hl⟩ | ⟨text, r', hscan, hl⟩
      · exact .inl ⟨keyBlob, pk, by rw [Read.on, hrun₂, hscan], hl⟩
      · exact .inr ⟨text, by rw [Read.on, hrun₂, hscan], hl⟩
  · refine .inr ⟨text, h, ?_⟩
    rintro kb k ⟨count, body, -, he, -⟩
    exact hno _ he

theorem select_exhausted {before : List (Bytes × Bytes)} {rest : Bytes}
    (hlen : (IDENTITIES_ANSWER :: (SshWire.u32 count ++ (before.flatMap identity ++ rest))).length < 2 ^ 32)
    (hcount : count < 2 ^ 32) (hlt : before.length < count) (hn : ∀ p ∈ before, ∀ pk, ¬ Matches want p.1 pk)
    (hrest : ∀ p rest', rest ≠ identity p ++ rest') :
    (select want).on (IDENTITIES_ANSWER :: (SshWire.u32 count ++ (before.flatMap identity ++ rest))) =
      .error truncated := by
  have hwf : (Reader.new (IDENTITIES_ANSWER :: (SshWire.u32 count ++ (before.flatMap identity ++ rest)))).Wf :=
    Reader.wf_new (by omega)
  obtain ⟨r₁, h₁, hr₁, hb₁, hrest₁⟩ := Reader.decodes_u8.ok _ hwf IDENTITIES_ANSWER _ rfl
  obtain ⟨r₂, h₂, hr₂, hb₂, hrest₂⟩ := Reader.decodes_u32.ok r₁ hr₁ count _
    (SshWire.takeU32_eq_some.2 ⟨hcount, hrest₁⟩)
  have hb : r₂.buf.length < 2 ^ 32 := by
    rw [hb₂, hb₁]
    exact hlen
  obtain ⟨r', h'⟩ := scan_exhausted hr₂ hb hrest₂ hlt hn hrest
  exact on_error ⟨r', (run_bind_ok h₁).trans ((run_bind_ok h₂).trans h')⟩

/-- The reply carries the signature `raw`. -/
def Signs (resp raw : Bytes) : Prop :=
  ∃ sigBlob rest, resp = SIGN_RESPONSE :: (SshWire.string sigBlob ++ rest) ∧ IsEd25519 sigBlob raw

private theorem rawSignature_spec {sigBlob : Bytes} (hlen : sigBlob.length < 2 ^ 32) :
    (∃ raw, rawSignature.on sigBlob = .ok raw ∧ ∀ raw', IsEd25519 sigBlob raw' ↔ raw' = raw) ∨
      ∃ text, rawSignature.on sigBlob = .error (signerError text) ∧ ∀ raw', ¬ IsEd25519 sigBlob raw' := by
  have hwf : (Reader.new sigBlob).Wf := Reader.wf_new (by omega)
  simp only [isEd25519_iff hlen]
  cases h₁ : SshWire.takeString sigBlob with
  | none =>
    obtain ⟨r', h'⟩ := Reader.decodes_string.error _ hwf h₁
    exact .inr ⟨_, on_error ⟨r', run_bind_error h'⟩, by simp⟩
  | some p =>
    obtain ⟨sigType, rest⟩ := p
    obtain ⟨r₁, hrun, hr₁, -, hrest₁⟩ := Reader.decodes_string.ok _ hwf _ _ h₁
    have hrun : rawSignature.run (.new sigBlob) = _ := run_bind_ok hrun
    by_cases ht : sigType = ED25519_KEY_TYPE
    · subst ht
      rw [if_neg (by simp)] at hrun
      cases h₂ : SshWire.takeString rest with
      | none =>
        obtain ⟨r', h'⟩ := Reader.decodes_string.error r₁ hr₁ (hrest₁ ▸ h₂)
        exact .inr ⟨_, on_error ⟨r', hrun.trans h'⟩, by simp [h₂]⟩
      | some p =>
        obtain ⟨r₂, h', -⟩ := Reader.decodes_string.ok r₁ hr₁ p.1 p.2 (hrest₁ ▸ h₂)
        refine .inl ⟨p.1, by rw [Read.on, hrun, h'], fun raw' => ?_⟩
        simp only [Option.some.injEq, Prod.mk.injEq, true_and, exists_and_left, exists_eq_left', h₂]
        constructor
        · rintro ⟨_, rfl⟩
          rfl
        · rintro rfl
          exact ⟨p.2, rfl⟩
    · rw [if_pos ht] at hrun
      exact .inr ⟨_, on_error ⟨r₁, hrun⟩, by simp [ht]⟩

/-- `sign` returns the signature that the reply carries, or fails. -/
theorem signature_spec {resp : Bytes} (hlen : resp.length < 2 ^ 32) :
    (∃ raw, signature.on resp = .ok raw ∧ ∀ raw', Signs resp raw' ↔ raw' = raw) ∨
      ∃ text, signature.on resp = .error (signerError text) ∧ ∀ raw', ¬ Signs resp raw' := by
  rcases run_kind SIGN_RESPONSE _ _ (show resp.length < 2 ^ 64 by omega) with
    ⟨resp, r₁, rfl, hrun₁, hr₁, -, hrest₁⟩ | ⟨hno, text, h⟩
  · -- the string behind the first byte is shorter than the reply
    have hshort : ∀ sigBlob rest, resp = SshWire.string sigBlob ++ rest → sigBlob.length < 2 ^ 32 := by
      rintro sigBlob rest rfl
      simp only [List.length_append, SshWire.length_string, List.length_cons] at hlen
      omega
    cases h₂ : SshWire.takeString resp with
    | none =>
      obtain ⟨r', h'⟩ := Reader.decodes_string.error r₁ hr₁ (hrest₁ ▸ h₂)
      refine .inr ⟨_, on_error ⟨r', hrun₁.trans (run_bind_error h')⟩, ?_⟩
      rintro raw ⟨sigBlob, rest, he, -⟩
      rw [List.cons.injEq] at he
      rw [SshWire.takeString_eq_some.2 ⟨hshort _ _ he.2, he.2⟩] at h₂
      cases h₂
    | some p =>
      obtain ⟨sigBlob, rest⟩ := p
      obtain ⟨r₂, h₃, -⟩ := Reader.decodes_string.ok r₁ hr₁ sigBlob rest (hrest₁ ▸ h₂)
      have hrun₂ : signature.run (.new (SIGN_RESPONSE :: resp)) = _ := hrun₁.trans (run_bind_ok h₃)
      have hsig : ∀ raw, Signs (SIGN_RESPONSE :: resp) raw ↔ IsEd25519 sigBlob raw := by
        obtain ⟨hlt, hresp⟩ := SshWire.takeString_eq_some.1 h₂
        intro raw
        constructor
        · rintro ⟨sigBlob', rest', he, hs⟩
          rw [List.cons.injEq] at he
          obtain ⟨rfl, -⟩ := SshWire.string_append_inj hlt (hshort _ _ he.2) (hresp.symm.trans he.2)
          exact hs
        · exact fun hs => ⟨sigBlob, rest, by rw [hresp], hs⟩
      simp only [hsig]
      rcases rawSignature_spec (SshWire.takeString_eq_some.1 h₂).1 with ⟨raw, hraw, hs⟩ | ⟨text, hraw, hs⟩
      · rw [hraw] at hrun₂
        exact .inl ⟨raw, by rw [Read.on, hrun₂]; rfl, hs⟩
      · rw [hraw] at hrun₂
        exact .inr ⟨text, by rw [Read.on, hrun₂]; rfl, hs⟩
  · refine .inr ⟨text, h, ?_⟩
    rintro raw ⟨sigBlob, rest, he, -⟩
    exact hno _ he

end SshAgentSigner

end IrohHydeAuth
