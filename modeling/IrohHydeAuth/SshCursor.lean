import IrohHydeAuth.SshReader

/-!
# The cursor of the reader

Whatever operations are done on a reader, in whatever order and whether or not they succeed, its cursor only moves
forward and stays within the buffer, and nothing is accessed out of range.  As long as the operations succeed, the bytes
it has passed are the encodings of what they returned (`cursor_safe`).
-/

namespace IrohHydeAuth

open Process

namespace SshAgent

variable {α β : Type}

/-! ### Operations -/

/-- The operations of the reader. -/
inductive ReadOp where
  | take (n : Nat)
  | u8
  | u32
  | string
  deriving DecidableEq, Repr

namespace ReadOp

/-- What an operation returns if it succeeds. -/
@[reducible] def Value : ReadOp → Type
  | .take _ => Bytes
  | .u8 => UInt8
  | .u32 => Nat
  | .string => Bytes

def read : (op : ReadOp) → Read op.Value
  | .take n => Reader.take n
  | .u8 => Reader.u8
  | .u32 => Reader.u32
  | .string => Reader.string

/-- The encoding of a value: raw bytes, a raw byte, a big-endian `u32`, a length-prefixed string. -/
def encode : (op : ReadOp) → op.Value → Bytes
  | .take _, s => s
  | .u8, x => [x]
  | .u32, n => SshWire.u32 n
  | .string, s => SshWire.string s

/-- The value has the length that was asked for, or one that fits a `u32`. -/
def InRange : (op : ReadOp) → op.Value → Prop
  | .take n, s => s.length = n
  | .u8, _ => True
  | .u32, n => n < 2 ^ 32
  | .string, s => s.length < 2 ^ 32

end ReadOp

/-- What an operation returned. -/
abbrev ReadResp (op : ReadOp) : Type := Except Fault op.Value

/-- The bytes that a successful operation has passed. -/
def passed : (op : ReadOp) × ReadResp op → Bytes
  | ⟨op, .ok a⟩ => op.encode a
  | ⟨_, .error _⟩ => []

namespace Reader

/-- What an operation returns, and where it leaves the reader. -/
def step (r : Reader) (op : ReadOp) : ReadResp op × Reader :=
  match op.read.run r with
  | .ok a r' => (.ok a, r')
  | .error e r' => (.error e, r')

/-- All that a sequence of operations returns, whether or not each of them succeeds, and where it leaves the reader. -/
def run (r : Reader) : List ReadOp → Trace ReadResp × Reader
  | [] => ([], r)
  | op :: ops =>
    let (res, r₁) := r.step op
    let (h, r₂) := r₁.run ops
    (⟨op, res⟩ :: h, r₂)

/-! ### Moving the cursor -/

/-- The cursor is within the buffer. -/
def InBounds (r : Reader) : Prop := r.pos ≤ r.buf.length

/-- The cursor has moved forward within the same buffer. -/
structure Ahead (r r' : Reader) : Prop where
  buf : r'.buf = r.buf
  mono : r.pos ≤ r'.pos
  bounds : r'.InBounds

/-- The cursor has moved over the bytes `c`. -/
structure Passes (r : Reader) (c : Bytes) (r' : Reader) : Prop where
  buf : r'.buf = r.buf
  pos : r'.pos = r.pos + c.length
  rest : r.rest = c ++ r'.rest

variable {r r' r'' : Reader} {c c' : Bytes}

theorem Ahead.refl (hr : r.InBounds) : r.Ahead r := ⟨rfl, Nat.le_refl _, hr⟩

theorem Ahead.trans (h : r.Ahead r') (h' : r'.Ahead r'') : r.Ahead r'' :=
  ⟨h'.buf.trans h.buf, h.mono.trans h'.mono, h'.bounds⟩

theorem Passes.refl (r : Reader) : r.Passes [] r := ⟨rfl, rfl, rfl⟩

theorem Passes.trans (h : r.Passes c r') (h' : r'.Passes c' r'') : r.Passes (c ++ c') r'' where
  buf := h'.buf.trans h.buf
  pos := by
    rw [h'.pos, h.pos, List.length_append]
    omega
  rest := by rw [h.rest, h'.rest, List.append_assoc]

theorem Passes.ahead (h : r.Passes c r') (hr : r.InBounds) : r.Ahead r' := by
  have hlen := congrArg List.length h.rest
  rw [List.length_append, length_rest, length_rest, h.buf] at hlen
  have hpos := h.pos
  unfold InBounds at hr
  refine ⟨h.buf, by omega, ?_⟩
  unfold InBounds
  rw [h.buf]
  omega

/-- `take` moves the cursor over what it returns, or leaves it where it is. -/
theorem take_cases (r : Reader) (n : Nat) :
    ((r.pos + n ≤ r.buf.length ∧ r.pos + n < 2 ^ 64) ∧
        ∃ s r', (take n).run r = .ok s r' ∧ s.length = n ∧ r.Passes s r') ∨
      ¬ (r.pos + n ≤ r.buf.length ∧ r.pos + n < 2 ^ 64) ∧ (take n).run r = .error truncated r := by
  by_cases hn : r.pos + n ≤ r.buf.length ∧ r.pos + n < 2 ^ 64
  · have hlen : (r.rest.take n).length = n := by
      rw [List.length_take, length_rest]
      omega
    refine .inl ⟨hn, _, _, take_of_le hn.1 hn.2, hlen, rfl, by rw [hlen], ?_⟩
    have hrest : Reader.rest { r with pos := r.pos + n } = r.rest.drop n := List.drop_drop.symm
    rw [hrest, List.take_append_drop]
  · exact .inr ⟨hn, take_of_not_le hn⟩

end Reader

/-! ### Readers that move the cursor over what they return -/

/-- If `m` succeeds, it has moved the cursor over bytes that `P` relates to what it returns; if it fails, the cursor may
have moved, and the error is that of a read beyond the end. -/
structure Consumes (m : Read α) (P : α → Bytes → Prop) : Prop where
  ok : ∀ {r r' : Reader} {a : α}, r.InBounds → m.run r = .ok a r' → ∃ c, P a c ∧ r.Passes c r'
  error : ∀ {r r' : Reader} {e : Fault}, r.InBounds → m.run r = .error e r' → e = truncated ∧ r.Ahead r'

theorem consumes_pure (a : α) : Consumes (pure a) fun b c => b = a ∧ c = [] where
  ok {r r' b} hr h := by
    cases h
    exact ⟨[], ⟨rfl, rfl⟩, .refl r⟩
  error hr h := by cases h

theorem Consumes.mono {m : Read α} {P Q : α → Bytes → Prop} (hm : Consumes m P) (hPQ : ∀ a c, P a c → Q a c) :
    Consumes m Q where
  ok hr h := by
    obtain ⟨c, hp, hc⟩ := hm.ok hr h
    exact ⟨c, hPQ _ _ hp, hc⟩
  error hr h := hm.error hr h

theorem Consumes.bind {m : Read α} {f : α → Read β} {P : α → Bytes → Prop} {Q : α → β → Bytes → Prop}
    {R : β → Bytes → Prop} (hm : Consumes m P) (hf : ∀ a c, P a c → Consumes (f a) (Q a))
    (hR : ∀ a b c c', P a c → Q a b c' → R b (c ++ c')) : Consumes (m >>= f) R where
  ok {r r' b} hr h := by
    cases h₁ : m.run r with
    | error e r₁ =>
      rw [run_bind_error h₁] at h
      cases h
    | ok a r₁ =>
      rw [run_bind_ok h₁] at h
      obtain ⟨c, hp, hc⟩ := hm.ok hr h₁
      obtain ⟨c', hq, hc'⟩ := (hf a c hp).ok (hc.ahead hr).bounds h
      exact ⟨c ++ c', hR a b c c' hp hq, hc.trans hc'⟩
  error {r r' e} hr h := by
    cases h₁ : m.run r with
    | error e₁ r₁ =>
      rw [run_bind_error h₁] at h
      cases h
      exact hm.error hr h₁
    | ok a r₁ =>
      rw [run_bind_ok h₁] at h
      obtain ⟨c, hp, hc⟩ := hm.ok hr h₁
      obtain ⟨he, ha⟩ := (hf a c hp).error (hc.ahead hr).bounds h
      exact ⟨he, (hc.ahead hr).trans ha⟩

namespace Reader

theorem consumes_take (n : Nat) : Consumes (take n) fun s c => c = s ∧ s.length = n where
  ok {r r' s} hr h := by
    rcases take_cases r n with ⟨-, s', r₁, h₁, hlen, hp⟩ | ⟨-, h₁⟩
    · rw [h₁] at h
      cases h
      exact ⟨s, ⟨rfl, hlen⟩, hp⟩
    · rw [h₁] at h
      cases h
  error {r r' e} hr h := by
    rcases take_cases r n with ⟨-, s', r₁, h₁, -⟩ | ⟨-, h₁⟩
    · rw [h₁] at h
      cases h
    · rw [h₁] at h
      cases h
      exact ⟨rfl, .refl hr⟩

theorem consumes_u8 : Consumes u8 fun x c => c = [x] := by
  refine (consumes_take 1).bind (Q := fun s x c => s = [x] ∧ c = []) ?_ ?_
  · rintro s _ ⟨-, hlen⟩
    obtain ⟨x, rfl⟩ := List.length_eq_one_iff.1 hlen
    exact (consumes_pure x).mono (by simp)
  · rintro s x c c' ⟨rfl, -⟩ ⟨rfl, rfl⟩
    rfl

theorem consumes_u32 : Consumes u32 fun n c => n < 2 ^ 32 ∧ c = SshWire.u32 n := by
  refine (consumes_take 4).bind (Q := fun s n c => n = beNat s ∧ c = []) ?_ ?_
  · rintro s _ ⟨-, hlen⟩
    match s, hlen with
    | [b0, b1, b2, b3], _ => exact consumes_pure (beNat [b0, b1, b2, b3])
  · rintro s n c c' ⟨rfl, hlen⟩ ⟨rfl, rfl⟩
    have hlt := beNat_lt c
    rw [hlen] at hlt
    exact ⟨hlt, by rw [List.append_nil, SshWire.u32, beBytes_beNat hlen]⟩

theorem consumes_string : Consumes string fun s c => s.length < 2 ^ 32 ∧ c = SshWire.string s := by
  refine consumes_u32.bind (fun n _ _ => consumes_take n) ?_
  rintro n s _ _ ⟨hn, rfl⟩ ⟨rfl, rfl⟩
  exact ⟨hn, rfl⟩

end Reader

theorem ReadOp.consumes (op : ReadOp) : Consumes op.read fun a c => op.InRange a ∧ c = op.encode a := by
  cases op with
  | take n => exact (Reader.consumes_take n).mono fun s c h => ⟨h.2, h.1⟩
  | u8 => exact Reader.consumes_u8.mono fun x c h => ⟨trivial, h⟩
  | u32 => exact Reader.consumes_u32
  | string => exact Reader.consumes_string

namespace Reader

/-! ### Single operations -/

variable {r r' : Reader} {op : ReadOp} {ops : List ReadOp}

theorem step_ok {a : op.Value} (hr : r.InBounds) (h : r.step op = (.ok a, r')) :
    op.InRange a ∧ r.Passes (op.encode a) r' := by
  rw [step] at h
  split at h
  · rename_i h₁
    cases h
    obtain ⟨_, ⟨hrange, rfl⟩, hp⟩ := op.consumes.ok hr h₁
    exact ⟨hrange, hp⟩
  · cases h

theorem step_error {e : Fault} (hr : r.InBounds) (h : r.step op = (.error e, r')) : e = truncated ∧ r.Ahead r' := by
  rw [step] at h
  split at h
  · cases h
  · rename_i h₁
    cases h
    exact op.consumes.error hr h₁

theorem step_ahead (hr : r.InBounds) (op : ReadOp) : r.Ahead (r.step op).2 := by
  rcases h : r.step op with ⟨res, r'⟩
  cases res with
  | ok a => exact (step_ok hr h).2.ahead hr
  | error e => exact (step_error hr h).2

/-- `take` succeeds exactly if the end of what it is to return can be computed and is within the buffer. -/
theorem step_take_ok_iff (r : Reader) (n : Nat) :
    (∃ s, (r.step (.take n)).1 = .ok s) ↔ r.pos + n ≤ r.buf.length ∧ r.pos + n < 2 ^ 64 := by
  rcases take_cases r n with ⟨hn, s, r', h, -⟩ | ⟨hn, h⟩
  · refine iff_of_true ⟨s, ?_⟩ hn
    rw [step, ReadOp.read, h]
  · refine iff_of_false ?_ hn
    rintro ⟨s, hs⟩
    rw [step, ReadOp.read, h] at hs
    cases hs

theorem step_take_error {n : Nat} {e : Fault} (h : (r.step (.take n)).1 = .error e) : (r.step (.take n)).2 = r := by
  rcases take_cases r n with ⟨-, s, r', h₁, -⟩ | ⟨-, h₁⟩
  · rw [step, ReadOp.read, h₁] at h
    cases h
  · rw [step, ReadOp.read, h₁]

/-- A string that breaks off leaves the cursor where it is, or behind its length. -/
theorem step_string_error {e : Fault} (hr : r.InBounds) (h : (r.step .string).1 = .error e) :
    (r.step .string).2 = r ∨ (r.step .string).2.pos = r.pos + 4 := by
  cases h₁ : u32.run r with
  | error e₁ r₁ =>
    -- there is no length: the four bytes of it are not taken
    have hstring : string.run r = .error e₁ r₁ := run_bind_error h₁
    rw [step, ReadOp.read, hstring]
    rcases take_cases r 4 with ⟨-, s, r₂, h₂, hlen, -⟩ | ⟨-, h₂⟩
    · have hu32 : u32.run r = .ok (beNat s) r₂ := (run_bind_ok h₂).trans (run_u32_tail hlen r₂)
      rw [hu32] at h₁
      cases h₁
    · have hu32 : u32.run r = .error truncated r := run_bind_error h₂
      rw [hu32] at h₁
      cases h₁
      exact .inl rfl
  | ok n r₁ =>
    -- there is a length, but not as many bytes
    obtain ⟨_, ⟨-, rfl⟩, hp⟩ := consumes_u32.ok hr h₁
    have hstring : string.run r = (take n).run r₁ := run_bind_ok h₁
    rcases take_cases r₁ n with ⟨-, s, r₂, h₂, -⟩ | ⟨-, h₂⟩
    · rw [step, ReadOp.read, hstring, h₂] at h
      cases h
    · rw [step, ReadOp.read, hstring, h₂]
      refine .inr ?_
      rw [hp.pos, SshWire.length_u32]

/-! ### Sequences of operations -/

theorem run_append (r : Reader) (ops ops' : List ReadOp) :
    r.run (ops ++ ops') = ((r.run ops).1 ++ ((r.run ops).2.run ops').1, ((r.run ops).2.run ops').2) := by
  induction ops generalizing r with
  | nil => rfl
  | cons op ops ih => simp only [List.cons_append, run, ih]

theorem run_ahead (hr : r.InBounds) (ops : List ReadOp) : r.Ahead (r.run ops).2 := by
  induction ops generalizing r with
  | nil => exact .refl hr
  | cons op ops ih =>
    have h := step_ahead hr op
    exact h.trans (ih h.bounds)

theorem run_faults (hr : r.InBounds) (ops : List ReadOp) :
    ∀ x ∈ (r.run ops).1, ∀ e, x.2 = .error e → e = truncated := by
  induction ops generalizing r with
  | nil => simp [run]
  | cons op ops ih =>
    intro x hx e he
    rcases List.mem_cons.1 hx with rfl | hx
    · exact (step_error hr (Prod.ext he rfl)).1
    · exact ih (step_ahead hr op).bounds x hx e he

/-- Operations that all succeed have moved the cursor over the encodings of what they returned. -/
theorem run_passes (hr : r.InBounds) (ops : List ReadOp) (hok : ∀ x ∈ (r.run ops).1, ∃ a, x.2 = .ok a) :
    r.Passes ((r.run ops).1.flatMap passed) (r.run ops).2 ∧ ∀ x ∈ (r.run ops).1, ∀ a, x.2 = .ok a → x.1.InRange a := by
  induction ops generalizing r with
  | nil => exact ⟨.refl r, by simp [run]⟩
  | cons op ops ih =>
    obtain ⟨a, ha⟩ := hok _ List.mem_cons_self
    obtain ⟨hrange, hp⟩ := step_ok hr (Prod.ext ha rfl)
    obtain ⟨hps, hranges⟩ := ih (hp.ahead hr).bounds fun x hx => hok x (List.mem_cons_of_mem _ hx)
    have hpassed : passed ⟨op, (r.step op).1⟩ = op.encode a := by
      rw [show (r.step op).1 = .ok a from ha]
      rfl
    constructor
    · show r.Passes (passed ⟨op, (r.step op).1⟩ ++ ((r.step op).2.run ops).1.flatMap passed) _
      rw [hpassed]
      exact hp.trans hps
    · intro x hx b hb
      rcases List.mem_cons.1 hx with rfl | hx
      · cases (show (r.step op).1 = .ok b from hb).symm.trans ha
        exact hrange
      · exact hranges x hx b hb

/-- Strings that are next in the buffer are read one after the other. -/
theorem run_strings {strings : List Bytes} {suffix : Bytes} (hr : r.Wf) (hlt : ∀ s ∈ strings, s.length < 2 ^ 32)
    (h : r.rest = strings.flatMap SshWire.string ++ suffix) :
    ∃ r', r.run (strings.map fun _ => .string) = (strings.map fun s => ⟨.string, .ok s⟩, r') ∧ r'.rest = suffix := by
  induction strings generalizing r with
  | nil => exact ⟨r, rfl, h⟩
  | cons s strings ih =>
    rw [List.flatMap_cons, List.append_assoc] at h
    obtain ⟨r₁, h₁, hr₁, -, hrest₁⟩ := decodes_string.ok r hr s _
      (SshWire.takeString_eq_some.2 ⟨hlt s List.mem_cons_self, h⟩)
    have hstep : r.step .string = (.ok s, r₁) := by rw [step, ReadOp.read, h₁]
    obtain ⟨r₂, h₂, hrest₂⟩ := ih hr₁ (fun s hs => hlt s (List.mem_cons_of_mem _ hs)) hrest₁
    refine ⟨r₂, ?_, hrest₂⟩
    simp only [List.map_cons, run, hstep, h₂]

end Reader

/-- What `put_string` appends is the encoding of the string, unless its length does not fit. -/
theorem foldl_putString {strings : List Bytes} (hlt : ∀ s ∈ strings, s.length < 2 ^ 32) (buf : Bytes) :
    strings.foldl putString buf = buf ++ strings.flatMap SshWire.string := by
  induction strings generalizing buf with
  | nil => simp
  | cons s strings ih =>
    have hs : putString buf s = buf ++ SshWire.string s := by
      rw [putString, Nat.mod_eq_of_lt (hlt s List.mem_cons_self), List.append_assoc]
      rfl
    rw [List.foldl_cons, ih (fun s hs => hlt s (List.mem_cons_of_mem _ hs)), hs, List.flatMap_cons, List.append_assoc]

namespace Reader

/-- The reader of `buf` after the given operations. -/
def after (buf : Bytes) (ops : List ReadOp) : Reader := ((new buf).run ops).2

/-- What they returned. -/
def readings (buf : Bytes) (ops : List ReadOp) : Trace ReadResp := ((new buf).run ops).1

/-- What holds of the reader of `buf` after any operations. -/
structure Safe (buf : Bytes) : Prop where
  /-- The cursor stays within the buffer. -/
  bounds : ∀ ops, (after buf ops).buf = buf ∧ (after buf ops).pos ≤ buf.length
  /-- It never moves back. -/
  mono : ∀ ops ops', (after buf ops).pos ≤ (after buf (ops ++ ops')).pos
  /-- An operation fails with the error of a read beyond the end, and never accesses the buffer out of range. -/
  faults : ∀ ops, ∀ x ∈ readings buf ops, ∀ e, x.2 = .error e → e = truncated
  /-- `take` fails if the end of what it is to return overflows or is beyond the buffer, and only then. -/
  take_ok : ∀ ops n, (∃ s, ((after buf ops).step (.take n)).1 = .ok s) ↔
    (after buf ops).pos + n ≤ buf.length ∧ (after buf ops).pos + n < 2 ^ 64
  /-- A `take` that fails leaves the cursor where it is. -/
  take_error : ∀ ops n e, ((after buf ops).step (.take n)).1 = .error e →
    ((after buf ops).step (.take n)).2 = after buf ops
  /-- A string that breaks off leaves the cursor where it is, or behind its length. -/
  string_error : ∀ ops e, ((after buf ops).step .string).1 = .error e →
    ((after buf ops).step .string).2 = after buf ops ∨ ((after buf ops).step .string).2.pos = (after buf ops).pos + 4
  /-- As long as all operations succeed, the cursor has passed the encodings of what they returned. -/
  consumed : ∀ ops, (∀ x ∈ readings buf ops, ∃ a, x.2 = .ok a) →
    buf.take (after buf ops).pos = (readings buf ops).flatMap passed ∧
      ∀ x ∈ readings buf ops, ∀ a, x.2 = .ok a → x.1.InRange a

theorem safe (buf : Bytes) : Safe buf := by
  have hnew : (new buf).InBounds := Nat.zero_le _
  have hahead : ∀ ops, (new buf).Ahead (after buf ops) := run_ahead hnew
  constructor
  · intro ops
    have hbounds := (hahead ops).bounds
    rw [InBounds, (hahead ops).buf] at hbounds
    exact ⟨(hahead ops).buf, hbounds⟩
  · intro ops ops'
    have h := run_ahead (hahead ops).bounds ops'
    rw [after, after, run_append]
    exact h.mono
  · exact run_faults hnew
  · intro ops n
    rw [step_take_ok_iff, (hahead ops).buf]
    rfl
  · intro ops n e h
    exact step_take_error h
  · intro ops e h
    exact step_string_error (hahead ops).bounds h
  · intro ops hok
    obtain ⟨hp, hrange⟩ := run_passes hnew ops hok
    refine ⟨?_, hrange⟩
    have hpos : (after buf ops).pos = ((readings buf ops).flatMap passed).length := by
      have := hp.pos
      rwa [show (new buf).pos = 0 from rfl, Nat.zero_add] at this
    have hrest : buf = (readings buf ops).flatMap passed ++ (after buf ops).rest := hp.rest
    calc buf.take (after buf ops).pos
      _ = ((readings buf ops).flatMap passed ++ (after buf ops).rest).take (after buf ops).pos :=
        congrArg (List.take _) hrest
      _ = (readings buf ops).flatMap passed := List.take_left' hpos.symm

/-- Whatever operations are done on a reader, it is safe; and strings written by `put_string` are read back as they are,
up to what follows them.  No slice is as long as the address space. -/
theorem cursor_safe (buf : Bytes) :
    Safe buf ∧ ∀ (strings : List Bytes) (suffix : Bytes), (∀ s ∈ strings, s.length < 2 ^ 32) →
      buf = strings.foldl putString [] ++ suffix → buf.length < 2 ^ 64 →
        readings buf (strings.map fun _ => .string) = strings.map (fun s => ⟨.string, .ok s⟩) ∧
          after buf (strings.map fun _ => .string) = ⟨buf, (strings.foldl putString []).length⟩ ∧
          (after buf (strings.map fun _ => .string)).rest = suffix := by
  refine ⟨safe buf, ?_⟩
  intro strings suffix hlt hbuf hsmall
  have hfold : strings.foldl putString [] = strings.flatMap SshWire.string := foldl_putString hlt []
  have hrest : (new buf).rest = strings.flatMap SshWire.string ++ suffix := by rw [rest_new, hbuf, hfold]
  obtain ⟨r, hrun, hsuffix⟩ := run_strings (wf_new hsmall) hlt hrest
  have hafter : after buf (strings.map fun _ => .string) = r := congrArg Prod.snd hrun
  have hread : readings buf (strings.map fun _ => .string) = strings.map (fun s => ⟨.string, .ok s⟩) :=
    congrArg Prod.fst hrun
  refine ⟨hread, ?_, hafter ▸ hsuffix⟩
  obtain ⟨hb, hpos⟩ := (safe buf).bounds (strings.map fun _ => .string)
  rw [hafter] at hb hpos ⊢
  have hlen : r.buf.length - r.pos = suffix.length := by rw [← length_rest, hsuffix]
  have htotal := congrArg List.length hbuf
  rw [List.length_append] at htotal
  obtain ⟨rbuf, rpos⟩ := r
  obtain rfl : rbuf = buf := hb
  have hp : rpos = (strings.foldl putString []).length := by
    simp only at hpos hlen
    omega
  rw [hp]

/-- A key blob, read back as its two strings. -/
theorem cursor_safe_testBlob :
    let key : Bytes := List.replicate 32 7
    let buf := putString (putString [] ED25519_KEY_TYPE) key ++ [1, 2, 3]
    readings buf [.string, .string] = [⟨.string, .ok ED25519_KEY_TYPE⟩, ⟨.string, .ok key⟩] ∧
      (after buf [.string, .string]).rest = [1, 2, 3] := by
  intro key buf
  have h := (cursor_safe buf).2 [ED25519_KEY_TYPE, key] [1, 2, 3] (by decide) rfl (by decide)
  exact ⟨h.1, h.2.2⟩

end Reader

end SshAgent

end IrohHydeAuth
