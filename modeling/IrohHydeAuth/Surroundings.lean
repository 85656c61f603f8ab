import IrohHydeAuth.Traces

/-!
# Running a session against a peer

The surroundings of one session: all the bytes that the peer sends before it stops, the clock at each point of the
session, and what every other operation is answered with.  They determine the run of the session.

`readMsg` is then a function of the bytes that are left: it refuses a frame whose header is too large
(`returns_readMsg_large`), it fails on a frame that breaks off (`returns_readMsg_short`), and otherwise it takes the
whole frame, whether or not its payload decodes (`returns_readMsg`).  So it returns a message exactly if the stream
goes on with a frame of it (`Framed`).
-/

namespace IrohHydeAuth

open Process Prog

/-- What a session meets. -/
structure Surroundings where
  connect : Except String Unit
  openBi : Except String Unit
  acceptBi : Except String Unit
  /-- All that the peer sends. -/
  stream : Bytes
  /-- What reading beyond it fails with. -/
  lost : String
  writeAll : Bytes → Except String Unit
  finish : Except String Unit
  nonce : Nonce
  /-- The clock when so many operations are behind the session. -/
  clock : Nat → UInt64
  sign : Bytes → Except Error Bytes
  verify : Bytes → Bytes → Bytes → Except VerifyError InstitutionId
  localId : Option EndpointId
  closed : ConnectionError

namespace Surroundings

variable {env : Surroundings} {h h' : Trace Resp}

/-- The bytes that a session has not read yet. -/
def rest (self : Surroundings) (h : Trace Resp) : Bytes := self.stream.drop (reads h).length

def answer (self : Surroundings) (h : Trace Resp) : (op : Op) → Resp op
  | .connect _ _ => self.connect
  | .openBi => self.openBi
  | .acceptBi => self.acceptBi
  | .readExact n =>
    if hn : n ≤ (self.rest h).length then .ok ⟨(self.rest h).take n, List.length_take_of_le hn⟩ else .error self.lost
  | .writeAll bytes => self.writeAll bytes
  | .finish => self.finish
  | .random => self.nonce
  | .unixSecs => self.clock h.length
  | .sign message => self.sign message
  | .verify verifyingKey message signature => self.verify verifyingKey message signature
  | .localId => self.localId
  | .insert _ => ()
  | .close _ _ => ()
  | .closed => self.closed

/-- Surroundings in which nothing fails. -/
def ofStream (stream : Bytes) : Surroundings where
  connect := .ok ()
  openBi := .ok ()
  acceptBi := .ok ()
  stream
  lost := "connection lost"
  writeAll _ := .ok ()
  finish := .ok ()
  nonce := ⟨List.replicate 32 0, rfl⟩
  clock _ := 0
  sign _ := .ok []
  verify _ _ _ := .ok ""
  localId := some ⟨List.replicate 32 0, rfl⟩
  closed := .other "connection lost"

@[simp] theorem rest_nil : env.rest [] = env.stream := rfl

theorem rest_append : env.rest (h ++ h') = (env.rest h).drop (reads h').length := by
  rw [rest, rest, reads_append, List.length_append, List.drop_drop]

theorem rest_append_mute (hm : reads h' = []) : env.rest (h ++ h') = env.rest h := by
  rw [rest_append, hm]
  rfl

/-! ### Single operations -/

theorem returns_call (env : Surroundings) (h : Trace Resp) (op : Op) :
    Returns env.answer (liftM (call op) : Async (Resp op)) h (.ok (env.answer h op)) (h ++ [⟨op, env.answer h op⟩]) :=
  rfl

theorem returns_call_ok {op : Op} {r : Resp op}
    (hr : Returns env.answer (liftM (call op) : Async (Resp op)) h (.ok r) h') :
    r = env.answer h op ∧ h' = h ++ [⟨op, r⟩] := by
  cases hr.symm.trans (returns_call env h op)
  exact ⟨rfl, rfl⟩

theorem returns_signBlocking (env : Surroundings) (h : Trace Resp) (message : Bytes) :
    Returns env.answer (signBlocking message) h (env.sign message) (h ++ [⟨.sign message, env.sign message⟩]) :=
  rfl

theorem returns_signBlocking_ok {message sig : Bytes}
    (hr : Returns env.answer (signBlocking message) h (.ok sig) h') :
    env.sign message = .ok sig ∧ h' = h ++ [⟨.sign message, .ok sig⟩] := by
  obtain ⟨hs, rfl⟩ := Prod.mk.inj ((returns_signBlocking env h message).symm.trans hr)
  exact ⟨hs, by rw [hs]⟩

theorem returns_checkSkewNow {maxSkewSecs : Option UInt64} {asserted : UInt64} (h : Trace Resp)
    (hw : Within maxSkewSecs (env.clock h.length) asserted) :
    ∃ h', Returns env.answer (liftM (checkSkewNow maxSkewSecs asserted) : Async Bool) h (.ok true) h' := by
  cases maxSkewSecs with
  | none => exact ⟨h, rfl⟩
  | some max =>
    refine ⟨h ++ [⟨.unixSecs, env.clock h.length⟩], ?_⟩
    show (Except.ok (checkSkew (some max) (env.clock h.length) asserted), _) = _
    rw [checkSkew_iff.2 hw]
    rfl

theorem returns_checkSkewNow_ok {maxSkewSecs : Option UInt64} {asserted : UInt64}
    (hr : Returns env.answer (liftM (checkSkewNow maxSkewSecs asserted) : Async Bool) h (.ok true) h') :
    Within maxSkewSecs (env.clock h.length) asserted := by
  cases maxSkewSecs with
  | none => exact fun _ he => nomatch he
  | some max => exact checkSkew_iff.1 (Except.ok.inj (congrArg Prod.fst hr))

/-- A guarded part that returns a value has passed the guard. -/
theorem returns_ite_throw {α : Type} {c : Prop} [Decidable c] {e : Error} {x : Async α} {a : α}
    (hr : Returns env.answer (if c then throw e else x) h (.ok a) h') : ¬ c ∧ Returns env.answer x h (.ok a) h' := by
  split at hr
  · cases hr
  · exact ⟨‹_›, hr⟩

section Transport

variable {α : Type} {p : Prog Resp (Except String α)}

theorem returns_transport {a : α} (hp : p.exec env.answer h = (.ok a, h')) :
    Returns env.answer (transport p) h (.ok a) h' :=
  returns_mk_bind hp rfl

theorem returns_transport_error {e : String} (hp : p.exec env.answer h = (.error e, h')) :
    Returns env.answer (transport p) h (.error (.transport e)) h' :=
  returns_mk_bind hp rfl

theorem returns_transport_ok {a : α} (hr : Returns env.answer (transport p) h (.ok a) h') :
    p.exec env.answer h = (.ok a, h') := by
  rcases hp : p.exec env.answer h with ⟨r, h₁⟩
  cases r with
  | error e => cases hr.symm.trans (returns_transport_error hp)
  | ok b =>
    cases hr.symm.trans (returns_transport hp)
    rfl

end Transport

theorem exec_call (op : Op) {r : Resp op} (hr : env.answer h op = r) :
    (call op).exec env.answer h = (r, h ++ [⟨op, r⟩]) := by
  subst hr
  rfl

theorem returns_acceptBi (ha : env.acceptBi = .ok ()) :
    Returns env.answer (transport (call .acceptBi)) h (.ok ()) (h ++ [⟨.acceptBi, .ok ()⟩]) :=
  returns_transport (exec_call .acceptBi ha)

theorem returns_acceptBi_ok (hr : Returns env.answer (transport (call .acceptBi)) h (.ok ()) h') :
    env.acceptBi = .ok () ∧ h' = h ++ [⟨.acceptBi, .ok ()⟩] := by
  obtain ⟨ha, rfl⟩ := Prod.mk.inj (returns_transport_ok hr)
  exact ⟨ha, by rw [← ha]; rfl⟩

/-! ### Messages -/

section Messages

variable {α : Type} [Postcard α] {m : α} {max : Nat}

private theorem exec_readExact {buf rest : Bytes} {n : Nat} (hn : buf.length = n) (hb : env.rest h = buf ++ rest) :
    (call (.readExact n)).exec env.answer h = (.ok ⟨buf, hn⟩, h ++ [⟨.readExact n, .ok ⟨buf, hn⟩⟩]) := by
  refine exec_call (.readExact n) ?_
  have hle : n ≤ (env.rest h).length := by
    rw [hb, List.length_append]
    omega
  have htake : (env.rest h).take n = buf := by rw [hb, List.take_left' hn]
  simp only [answer]
  rw [dif_pos hle]
  exact congrArg Except.ok (Subtype.ext htake)

private theorem exec_readExact_lost {n : Nat} (hn : (env.rest h).length < n) :
    (call (.readExact n)).exec env.answer h = (.error env.lost, h ++ [⟨.readExact n, .error env.lost⟩]) := by
  refine exec_call (.readExact n) ?_
  simp only [answer]
  rw [dif_neg (Nat.not_le.2 hn)]

private theorem rest_readExact {buf rest : Bytes} {n : Nat} (hn : buf.length = n) (hb : env.rest h = buf ++ rest) :
    env.rest (h ++ [⟨.readExact n, .ok ⟨buf, hn⟩⟩]) = rest := by
  rw [rest_append, hb]
  simp [eventReads]

/-- The trace of reading a header and a payload. -/
def frameRead {hdr payload : Bytes} (hhdr : hdr.length = 4) (hlen : payload.length = beNat hdr) : Trace Resp :=
  [⟨.readExact 4, .ok ⟨hdr, hhdr⟩⟩, ⟨.readExact (beNat hdr), .ok ⟨payload, hlen⟩⟩]

/-- A frame that is there, and not too large, is taken as a whole, whether or not its payload decodes. -/
theorem returns_readMsg {hdr payload rest : Bytes} (hhdr : hdr.length = 4) (hlen : payload.length = beNat hdr)
    (hmax : beNat hdr ≤ max) (hb : env.rest h = hdr ++ payload ++ rest) :
    Returns env.answer (readMsg max : Async α) h ((Postcard.fromBytes payload).mapError .codec)
        (h ++ frameRead hhdr hlen) ∧ env.rest (h ++ frameRead hhdr hlen) = rest := by
  rw [List.append_assoc] at hb
  have hb₂ := rest_readExact hhdr hb
  have h₁ := returns_transport (exec_readExact hhdr hb)
  have h₂ := returns_transport (exec_readExact hlen hb₂)
  have htrace : h ++ frameRead hhdr hlen =
      h ++ [⟨.readExact 4, .ok ⟨hdr, hhdr⟩⟩] ++ [⟨.readExact (beNat hdr), .ok ⟨payload, hlen⟩⟩] := by
    simp [frameRead]
  rw [htrace]
  refine ⟨h₁.bind ?_, rest_readExact hlen hb₂⟩
  dsimp only
  rw [if_neg (Nat.not_lt.2 hmax)]
  refine h₂.bind ?_
  dsimp only
  cases Postcard.fromBytes (α := α) payload with
  | ok m => rfl
  | error e => rfl

/-- A frame whose header is too large is refused once its header is read. -/
theorem returns_readMsg_large {hdr rest : Bytes} (hhdr : hdr.length = 4) (hmax : max < beNat hdr)
    (hb : env.rest h = hdr ++ rest) :
    Returns env.answer (readMsg max : Async α) h (.error (.messageTooLarge (beNat hdr)))
        (h ++ [⟨.readExact 4, .ok ⟨hdr, hhdr⟩⟩]) ∧
      env.rest (h ++ [⟨.readExact 4, .ok ⟨hdr, hhdr⟩⟩]) = rest := by
  refine ⟨(returns_transport (exec_readExact hhdr hb)).bind ?_, rest_readExact hhdr hb⟩
  dsimp only
  rw [if_pos hmax]
  rfl

/-- A frame that breaks off, be it within its header or behind it, is a transport error. -/
theorem returns_readMsg_short (hb : (env.rest h).length < 4 ∨ ∃ hdr rest, hdr.length = 4 ∧ beNat hdr ≤ max ∧
      env.rest h = hdr ++ rest ∧ rest.length < beNat hdr) :
    ∃ h', Returns env.answer (readMsg max : Async α) h (.error (.transport env.lost)) h' := by
  rcases hb with hb | ⟨hdr, rest, hhdr, hmax, hb, hlt⟩
  · exact ⟨_, (returns_transport_error (exec_readExact_lost hb)).bind_error⟩
  · have h₂ := returns_transport_error (exec_readExact_lost (h := h ++ [⟨.readExact 4, .ok ⟨hdr, hhdr⟩⟩])
      (n := beNat hdr) (by rw [rest_readExact hhdr hb]; exact hlt))
    have hr : Returns env.answer (readMsg max : Async α) h (.error (.transport env.lost)) _ :=
      (returns_transport (exec_readExact hhdr hb)).bind
        (by dsimp only; rw [if_neg (Nat.not_lt.2 hmax)]; exact h₂.bind_error)
    exact ⟨_, hr⟩

/-- There are no other cases. -/
theorem frame_cases (max : Nat) (b : Bytes) :
    (b.length < 4 ∨ ∃ hdr rest, hdr.length = 4 ∧ beNat hdr ≤ max ∧ b = hdr ++ rest ∧ rest.length < beNat hdr) ∨
      (∃ hdr rest, hdr.length = 4 ∧ max < beNat hdr ∧ b = hdr ++ rest) ∨
      ∃ hdr payload rest, hdr.length = 4 ∧ payload.length = beNat hdr ∧ beNat hdr ≤ max ∧
        b = hdr ++ payload ++ rest := by
  by_cases h4 : b.length < 4
  · exact .inl (.inl h4)
  have hhdr : (b.take 4).length = 4 := List.length_take_of_le (by omega)
  have hb : b = b.take 4 ++ b.drop 4 := (List.take_append_drop 4 b).symm
  by_cases hmax : max < beNat (b.take 4)
  · exact .inr (.inl ⟨_, _, hhdr, hmax, hb⟩)
  by_cases hlt : (b.drop 4).length < beNat (b.take 4)
  · exact .inl (.inr ⟨_, _, hhdr, by omega, hb, hlt⟩)
  · refine .inr (.inr ⟨b.take 4, (b.drop 4).take (beNat (b.take 4)), (b.drop 4).drop (beNat (b.take 4)), hhdr, ?_, ?_,
      ?_⟩)
    · exact List.length_take_of_le (by omega)
    · omega
    · rw [List.append_assoc, List.take_append_drop, ← hb]

/-- The bytes `b` go on with a frame which is not too large and whose payload decodes to `m`, and then `rest`. -/
def Framed (max : Nat) (m : α) (b rest : Bytes) : Prop :=
  ∃ hdr payload : Bytes, hdr.length = 4 ∧ payload.length = beNat hdr ∧ beNat hdr ≤ max ∧ b = hdr ++ payload ++ rest ∧
    Postcard.fromBytes payload = .ok m

/-- A message that is not too large is read off its frame. -/
theorem framed_frame (rest : Bytes) (hfit : (Postcard.encode m).length ≤ max)
    (hlt : (Postcard.encode m).length < 2 ^ 32) : Framed max m (frame m ++ rest) rest := by
  have hn : beNat (beBytes 4 (Postcard.encode m).length) = (Postcard.encode m).length :=
    beNat_beBytes_of_lt (by simpa using hlt)
  refine ⟨_, _, length_beBytes _ _, hn.symm, ?_, rfl, Postcard.fromBytes_encode (by omega)⟩
  rw [hn]
  exact hfit

theorem Framed.returns {b : Bytes} (hf : Framed max m (env.rest h) b) :
    ∃ h', Returns env.answer (readMsg max) h (.ok m) h' ∧ env.rest h' = b ∧ h'.length = h.length + 2 := by
  obtain ⟨hdr, payload, hhdr, hlen, hmax, hb, hdec⟩ := hf
  obtain ⟨hr, hrest⟩ := returns_readMsg (α := α) hhdr hlen hmax hb
  rw [hdec] at hr
  exact ⟨_, hr, hrest, by simp [frameRead]⟩

theorem framed_of_returns (hr : Returns env.answer (readMsg max) h (.ok m) h') :
    Framed max m (env.rest h) (env.rest h') ∧ h'.length = h.length + 2 := by
  rcases frame_cases max (env.rest h) with hb | ⟨hdr, rest, hhdr, hmax, hb⟩ | ⟨hdr, payload, rest, hhdr, hlen, hmax, hb⟩
  · obtain ⟨h₁, hr'⟩ := returns_readMsg_short (α := α) hb
    cases hr.symm.trans hr'
  · cases hr.symm.trans (returns_readMsg_large (α := α) hhdr hmax hb).1
  · obtain ⟨hr', hrest⟩ := returns_readMsg (α := α) hhdr hlen hmax hb
    have he := hr.symm.trans hr'
    cases hdec : Postcard.fromBytes (α := α) payload with
    | error e =>
      rw [hdec] at he
      cases he
    | ok m' =>
      rw [hdec] at he
      cases he
      exact ⟨⟨hdr, payload, hhdr, hlen, hmax, hrest.symm ▸ hb, hdec⟩, by simp [frameRead]⟩

/-- The message can be written. -/
def Sends (env : Surroundings) (m : α) : Prop :=
  (Postcard.encode m).length < 2 ^ 32 ∧ env.writeAll (beBytes 4 (Postcard.encode m).length) = .ok () ∧
    env.writeAll (Postcard.encode m) = .ok ()

theorem Sends.returns (hs : env.Sends m) (h : Trace Resp) :
    ∃ h', WritesMsg m h' ∧ Returns env.answer (writeMsg m) h (.ok ()) (h ++ h') := by
  have h₁ := returns_transport (exec_call (h := h) (.writeAll (beBytes 4 (Postcard.encode m).length)) hs.2.1)
  have h₂ := returns_transport (exec_call (h := h ++ [⟨.writeAll (beBytes 4 (Postcard.encode m).length), .ok ()⟩])
    (.writeAll (Postcard.encode m)) hs.2.2)
  have hseq := h₁.bind (f := fun _ => transport (call (.writeAll (Postcard.encode m)))) h₂
  refine ⟨_, ⟨hs.1, rfl⟩, ?_⟩
  unfold writeMsg
  dsimp only
  rw [if_pos hs.1]
  simpa using hseq

/-- A message that does not fit a header is refused before anything is written. -/
theorem returns_writeMsg_large (hlen : 2 ^ 32 ≤ (Postcard.encode m).length) :
    Returns env.answer (writeMsg m) h (.error (.messageTooLarge (Postcard.encode m).length)) h := by
  unfold writeMsg
  dsimp only
  rw [if_neg (Nat.not_lt.2 hlen)]
  rfl

private theorem returns_writeAll_ok {bytes : Bytes}
    (hr : Returns env.answer (transport (call (.writeAll bytes))) h (.ok ()) h') :
    env.writeAll bytes = .ok () ∧ h' = h ++ [⟨.writeAll bytes, .ok ()⟩] := by
  obtain ⟨hw, rfl⟩ := Prod.mk.inj (returns_transport_ok hr)
  exact ⟨hw, by rw [← hw]; rfl⟩

theorem sends_of_returns (hr : Returns env.answer (writeMsg m) h (.ok ()) h') :
    env.Sends m ∧ ∃ h₁, WritesMsg m h₁ ∧ h' = h ++ h₁ := by
  by_cases hlen : (Postcard.encode m).length < 2 ^ 32
  · have hr' := hr
    unfold writeMsg at hr'
    dsimp only at hr'
    rw [if_pos hlen] at hr'
    obtain ⟨_, h₁, hr₁, hr₂⟩ := hr'.bind_ok
    obtain ⟨hw₁, rfl⟩ := returns_writeAll_ok hr₁
    obtain ⟨hw₂, rfl⟩ := returns_writeAll_ok hr₂
    exact ⟨⟨hlen, hw₁, hw₂⟩, _, ⟨hlen, rfl⟩, by simp⟩
  · cases hr.symm.trans (returns_writeMsg_large (Nat.not_lt.1 hlen))

end Messages

end Surroundings

end IrohHydeAuth
