import IrohHydeAuth.Session

/-!
# What a handshake has done

A session is known by its trace.  This module reads off a trace the bytes it took from the stream and the bytes it
gave to it, and says which traces reading and writing one message have.  The two fit together: a message that is read
off a stream on which a message was written is that message (`ReadsMsg.eq_of_frame`, `ReadsMsg.eq_of_part`).
-/

namespace IrohHydeAuth

open Process Prog

/-! ### The bytes of a trace -/

/-- What an event took from the stream. -/
def eventReads : Event Resp → Bytes
  | ⟨.readExact _, .ok buf⟩ => buf.val
  | _ => []

/-- What an event meant to give to the stream. -/
def eventWrites : Event Resp → Bytes
  | ⟨.writeAll bytes, _⟩ => bytes
  | _ => []

def reads (h : Trace Resp) : Bytes := h.flatMap eventReads

def written (h : Trace Resp) : Bytes := h.flatMap eventWrites

@[simp] theorem reads_nil : reads [] = [] := rfl

@[simp] theorem reads_cons (e : Event Resp) (h : Trace Resp) : reads (e :: h) = eventReads e ++ reads h := rfl

@[simp] theorem reads_append (h h' : Trace Resp) : reads (h ++ h') = reads h ++ reads h' := List.flatMap_append

@[simp] theorem written_nil : written [] = [] := rfl

@[simp] theorem written_cons (e : Event Resp) (h : Trace Resp) : written (e :: h) = eventWrites e ++ written h := rfl

@[simp] theorem written_append (h h' : Trace Resp) : written (h ++ h') = written h ++ written h' :=
  List.flatMap_append

/-- The ids that a trace inserted. -/
def inserted (h : Trace Resp) : List EndpointId :=
  h.filterMap fun
    | ⟨.insert id, _⟩ => some id
    | _ => none

/-- The codes with which a trace closed the connection. -/
def closeCodes (h : Trace Resp) : List UInt32 :=
  h.filterMap fun
    | ⟨.close code _, _⟩ => some code
    | _ => none

@[simp] theorem inserted_append (h h' : Trace Resp) : inserted (h ++ h') = inserted h ++ inserted h' :=
  List.filterMap_append

@[simp] theorem closeCodes_append (h h' : Trace Resp) : closeCodes (h ++ h') = closeCodes h ++ closeCodes h' :=
  List.filterMap_append

theorem mem_inserted {h : Trace Resp} {id : EndpointId} : id ∈ inserted h ↔ ⟨.insert id, ()⟩ ∈ h := by
  rw [inserted, List.mem_filterMap]
  constructor
  · rintro ⟨⟨op, r⟩, hm, he⟩
    cases op with
    | insert x =>
      cases he
      exact hm
    | _ => cases he
  · exact fun hm => ⟨_, hm, rfl⟩

theorem mem_closeCodes {h : Trace Resp} {code : UInt32} :
    code ∈ closeCodes h ↔ ∃ reason, ⟨.close code reason, ()⟩ ∈ h := by
  rw [closeCodes, List.mem_filterMap]
  constructor
  · rintro ⟨⟨op, r⟩, hm, he⟩
    cases op with
    | close code reason =>
      cases he
      exact ⟨reason, hm⟩
    | _ => cases he
  · exact fun ⟨reason, hm⟩ => ⟨_, hm, rfl⟩

/-- The operations that give nothing to the stream. -/
def Op.Mute : Op → Prop
  | .writeAll _ => False
  | _ => True

theorem written_eq_nil {h : Trace Resp} (hm : ∀ e ∈ h, e.1.Mute) : written h = [] := by
  rw [written, List.flatMap_eq_nil_iff]
  rintro ⟨op, r⟩ he
  cases op with
  | writeAll bytes => exact (hm _ he).elim
  | _ => rfl

theorem written_of_asks {α : Type} {p q : Prog Resp α} {h : Trace Resp} (hp : Path p h q) (hm : p.Asks Op.Mute) :
    written h = [] :=
  written_eq_nil (hp.asks hm).1

/-! ### Paths of the building blocks -/

variable {α : Type} {h : Trace Resp}

private theorem path_call {op : Op} {r : Resp op} (hp : Path (call op) h (ret r)) : h = [⟨op, r⟩] := by
  rcases hp.ask_inv with ⟨-, he⟩ | ⟨r', h', rfl, hr⟩
  · cases he
  · obtain ⟨rfl, he⟩ := hr.ret_inv
    cases he
    rfl

theorem path_lift {op : Op} {r : Resp op} (hp : Path (liftM (call op) : Async (Resp op)).run h (ret (.ok r))) :
    h = [⟨op, r⟩] := by
  have hp' : Path (ask op fun r => ret (Except.ok r) : Prog Resp (Except Error (Resp op))) h (ret (.ok r)) := hp
  rcases hp'.ask_inv with ⟨-, he⟩ | ⟨r', h', rfl, hr⟩
  · cases he
  · obtain ⟨rfl, he⟩ := hr.ret_inv
    cases he
    rfl

private theorem path_transport {p : Prog Resp (Except String α)} {a : α}
    (hp : Path (transport p).run h (ret (.ok a))) : Path p h (ret (.ok a)) := by
  rcases Path.bind_cases hp with ⟨_, _, _, hq⟩ | ⟨r, h₁, h₂, rfl, hp', hf⟩
  · cases hq
  · cases r with
    | error e => cases hf.ret_inv.2
    | ok b =>
      obtain ⟨rfl, he⟩ := hf.ret_inv
      cases he
      simpa using hp'

theorem path_connect {addr : EndpointAddr} {alpn : Bytes}
    (hp : Path (transport (call (.connect addr alpn))).run h (ret (.ok ()))) : h = [⟨.connect addr alpn, .ok ()⟩] :=
  path_call (path_transport hp)

theorem path_openBi (hp : Path (transport (call .openBi)).run h (ret (.ok ()))) : h = [⟨.openBi, .ok ()⟩] :=
  path_call (path_transport hp)

theorem path_acceptBi (hp : Path (transport (call .acceptBi)).run h (ret (.ok ()))) : h = [⟨.acceptBi, .ok ()⟩] :=
  path_call (path_transport hp)

theorem path_signBlocking {message sig : Bytes} (hp : Path (signBlocking message).run h (ret (.ok sig))) :
    h = [⟨.sign message, .ok sig⟩] :=
  path_call hp

/-- A path of a guarded part that is not at the failure of the guard. -/
theorem path_ite_throw {c : Prop} [Decidable c] {e : Error} {x : Async α} {q : Prog Resp (Except Error α)}
    (hp : Path (if c then throw e else x : Async α).run h q) :
    (c ∧ h = [] ∧ q = ret (.error e)) ∨ ¬ c ∧ Path x.run h q := by
  split at hp
  · exact .inl ⟨‹_›, hp.ret_inv⟩
  · exact .inr ⟨‹_›, hp⟩

/-- Closing the connection and failing. -/
theorem path_close_throw {code : UInt32} {reason : Bytes} {e : Error} {q : Prog Resp (Except Error α)}
    (hp : Path (do call (.close code reason); throw e : Async α).run h q) :
    written h = [] ∧ ∀ a, q ≠ ret (.ok a) := by
  rcases hp.ask_inv with ⟨rfl, rfl⟩ | ⟨r, h', rfl, hp'⟩
  · exact ⟨rfl, nofun⟩
  · obtain ⟨rfl, rfl⟩ := hp'.ret_inv
    exact ⟨rfl, nofun⟩

/-- The trace of a freshness test that was passed. -/
inductive SkewChecked : Option UInt64 → UInt64 → Trace Resp → Prop
  | unchecked {asserted : UInt64} : SkewChecked none asserted []
  | checked {max now asserted : UInt64} (fresh : checkSkew (some max) now asserted = true) :
      SkewChecked (some max) asserted [⟨.unixSecs, now⟩]

theorem path_checkSkewNow {maxSkewSecs : Option UInt64} {asserted : UInt64}
    (hp : Path (liftM (checkSkewNow maxSkewSecs asserted) : Async Bool).run h (ret (.ok true))) :
    SkewChecked maxSkewSecs asserted h := by
  cases maxSkewSecs with
  | none =>
    obtain ⟨rfl, -⟩ := hp.ret_inv
    exact .unchecked
  | some max =>
    rcases hp.ask_inv with ⟨-, he⟩ | ⟨now, h', rfl, hp'⟩
    · cases he
    · obtain ⟨rfl, he⟩ := hp'.ret_inv
      exact .checked (Except.ok.inj (Prog.ret.inj he)).symm

theorem SkewChecked.reads_eq {maxSkewSecs : Option UInt64} {asserted : UInt64}
    (hs : SkewChecked maxSkewSecs asserted h) : reads h = [] := by
  cases hs with
  | unchecked => rfl
  | checked => rfl

theorem SkewChecked.written_eq {maxSkewSecs : Option UInt64} {asserted : UInt64}
    (hs : SkewChecked maxSkewSecs asserted h) : written h = [] := by
  cases hs with
  | unchecked => rfl
  | checked => rfl

section Asks

variable {P : Op → Prop}

theorem asks_lift {op : Op} (hP : P op) : (liftM (call op) : Async (Resp op)).run.Asks P :=
  ⟨hP, fun _ => trivial⟩

theorem asks_transport {p : Prog Resp (Except String α)} (hp : p.Asks P) : (transport p).run.Asks P := by
  refine hp.bind fun r => ?_
  cases r with
  | error e => exact trivial
  | ok a => exact trivial

theorem asks_signBlocking {message : Bytes} (hP : P (.sign message)) : (signBlocking message).run.Asks P :=
  asks_call.2 hP

theorem asks_ite {p p' : Prog Resp α} {c : Prop} [Decidable c] (h₁ : p.Asks P) (h₂ : p'.Asks P) :
    (if c then p else p').Asks P := by
  split
  · exact h₁
  · exact h₂

theorem asks_checkSkewNow {maxSkewSecs : Option UInt64} {asserted : UInt64} (hP : P .unixSecs) :
    (liftM (checkSkewNow maxSkewSecs asserted) : Async Bool).run.Asks P := by
  cases maxSkewSecs with
  | none => exact trivial
  | some max => exact ⟨hP, fun _ => trivial⟩

theorem asks_close_throw {code : UInt32} {reason : Bytes} {e : Error} (hP : P (.close code reason)) :
    (do call (.close code reason); throw e : Async α).run.Asks P :=
  ⟨hP, fun _ => trivial⟩

end Asks

/-! ### Messages -/

section Messages

variable [Postcard α] {m m' : α} {q : Prog Resp (Except Error Unit)}

/-- The trace `h` read the message `m`. -/
def ReadsMsg (m : α) (h : Trace Resp) : Prop :=
  ∃ (lenBuf : ByteArr 4) (buf : ByteArr (beNat lenBuf.val)),
    h = [⟨.readExact 4, .ok lenBuf⟩, ⟨.readExact (beNat lenBuf.val), .ok buf⟩] ∧
      Postcard.fromBytes buf.val = .ok m

/-- The trace `h` wrote the message `m`. -/
def WritesMsg (m : α) (h : Trace Resp) : Prop :=
  (Postcard.encode m).length < 2 ^ 32 ∧
    h = [⟨.writeAll (beBytes 4 (Postcard.encode m).length), .ok ()⟩, ⟨.writeAll (Postcard.encode m), .ok ()⟩]

/-- The trace `h` wrote nothing but a part of the message `m`. -/
def WritesPart (m : α) (h : Trace Resp) : Prop :=
  written h = [] ∨ (Postcard.encode m).length < 2 ^ 32 ∧ written h <+: frame m

theorem asks_readMsg {P : Op → Prop} {max : Nat} (hP : ∀ n, P (.readExact n)) :
    (readMsg max : Async α).run.Asks P := by
  refine (asks_transport (asks_call.2 (hP 4))).run_bind fun lenBuf => ?_
  refine asks_ite trivial ((asks_transport (asks_call.2 (hP _))).run_bind fun buf => ?_)
  split
  · exact trivial
  · exact trivial

theorem asks_writeMsg {P : Op → Prop} (hP : ∀ bytes, P (.writeAll bytes)) : (writeMsg m).run.Asks P :=
  asks_ite ((asks_transport (asks_call.2 (hP _))).run_bind fun _ => asks_transport (asks_call.2 (hP _))) trivial

theorem readMsg_ok (hp : Path (readMsg MAX_MSG : Async α).run h (ret (.ok m))) : ReadsMsg m h := by
  obtain ⟨lenBuf, h₁, h₂, rfl, hp₁, hp₂⟩ := hp.run_bind_ok
  rcases path_ite_throw hp₂ with ⟨-, -, he⟩ | ⟨-, hp₂⟩
  · cases he
  obtain ⟨buf, h₃, h₄, rfl, hp₃, hp₄⟩ := hp₂.run_bind_ok
  split at hp₄
  · obtain ⟨rfl, he⟩ := hp₄.ret_inv
    cases he
    rw [path_call (path_transport hp₁), path_call (path_transport hp₃)]
    exact ⟨lenBuf, buf, rfl, ‹_›⟩
  · cases hp₄.ret_inv.2

theorem writeMsg_ok (hp : Path (writeMsg m).run h (ret (.ok ()))) : WritesMsg m h := by
  unfold writeMsg at hp
  dsimp only at hp
  split at hp
  · obtain ⟨_, h₁, h₂, rfl, hp₁, hp₂⟩ := hp.run_bind_ok
    rw [path_call (path_transport hp₁), path_call (path_transport hp₂)]
    exact ⟨‹_›, rfl⟩
  · cases hp.ret_inv.2

private theorem written_transport {bytes : Bytes} (hp : Path (transport (call (.writeAll bytes))).run h q) :
    written h <+: bytes := by
  rcases Path.bind_cases hp with ⟨p', hp', -⟩ | ⟨r, h₁, h₂, rfl, hp', hf⟩
  · rcases hp'.ask_inv with ⟨rfl, -⟩ | ⟨r, h', rfl, hr⟩
    · exact List.nil_prefix
    · rw [hr.ret_inv.1]
      simp [eventWrites]
  · rw [path_call hp']
    have : h₂ = [] := by
      cases r with
      | error e => exact hf.ret_inv.1
      | ok a => exact hf.ret_inv.1
    rw [this]
    simp [eventWrites]

/-- However far the writing of a message got, it wrote a part of its frame. -/
theorem writeMsg_part (hp : Path (writeMsg m).run h q) : WritesPart m h := by
  unfold writeMsg at hp
  dsimp only at hp
  split at hp
  · refine .inr ⟨‹_›, ?_⟩
    rcases hp.run_bind_cases with ⟨p', hp', -⟩ | ⟨_, h₁, h₂, rfl, hp₁, hp₂⟩
    · exact (written_transport hp').trans (List.prefix_append _ _)
    · rw [path_call (path_transport hp₁), written_append]
      simpa [frame, eventWrites] using written_transport hp₂
  · rw [hp.ret_inv.1]
    exact .inl rfl

theorem WritesMsg.written_eq (hw : WritesMsg m h) : written h = frame m := by
  rw [hw.2]
  simp [eventWrites, frame]

theorem WritesMsg.reads_eq (hw : WritesMsg m h) : reads h = [] := by
  rw [hw.2]
  rfl

theorem WritesMsg.length_eq (hw : WritesMsg m h) : h.length = 2 := by
  rw [hw.2]
  rfl

theorem ReadsMsg.written_eq (hr : ReadsMsg m h) : written h = [] := by
  obtain ⟨lenBuf, buf, rfl, -⟩ := hr
  rfl

theorem ReadsMsg.length_eq (hr : ReadsMsg m h) : h.length = 2 := by
  obtain ⟨lenBuf, buf, rfl, -⟩ := hr
  rfl

theorem ReadsMsg.reads_ne_nil (hr : ReadsMsg m h) : reads h ≠ [] := by
  obtain ⟨lenBuf, buf, rfl, -⟩ := hr
  intro he
  have := congrArg List.length he
  simp [eventReads, lenBuf.property] at this

/-- A message read off a stream that starts with a frame is the message of that frame, and what was read after it
lies behind that frame. -/
theorem ReadsMsg.eq_of_frame {x y : Bytes} (hr : ReadsMsg m h) (hlen : (Postcard.encode m').length < 2 ^ 32)
    (hp : reads h ++ x <+: frame m' ++ y) : m = m' ∧ x <+: y := by
  obtain ⟨lenBuf, buf, rfl, hdec⟩ := hr
  simp only [reads_cons, reads_nil, List.append_nil, eventReads] at hp
  obtain ⟨hbuf, hx⟩ := frame_of_prefix hlen lenBuf.property buf.property hp
  rw [hbuf, Postcard.fromBytes_encode (by omega)] at hdec
  exact ⟨(Except.ok.inj hdec).symm, hx⟩

/-- A message read off a stream on which nothing but a part of another was written is that other. -/
theorem ReadsMsg.eq_of_part {h' : Trace Resp} {x : Bytes} (hr : ReadsMsg m h) (hw : WritesPart m' h')
    (hp : reads h ++ x <+: written h') : m = m' ∧ x = [] := by
  rcases hw with hw | ⟨hlen, hw⟩
  · rw [hw, List.prefix_nil, List.append_eq_nil_iff] at hp
    exact absurd hp.1 hr.reads_ne_nil
  · obtain ⟨hm, hx⟩ := hr.eq_of_frame (y := []) hlen (by simpa using hp.trans hw)
    exact ⟨hm, List.prefix_nil.1 hx⟩

end Messages

/-! ### The verdict of an acceptor -/

section Conclude

variable {β : Type} {x : Async β} {remote : β → EndpointId} {q : Session}

private theorem path_conclude {r : Except Error β} (hp : Path (conclude remote r) h q) :
    h = [] ∨ (∃ b, r = .ok b ∧ (h = [⟨.insert (remote b), ()⟩] ∨
        h = [⟨.insert (remote b), ()⟩, ⟨.close CLOSE_ACCEPTED (ascii "accepted"), ()⟩])) ∨
      h = [⟨.close CLOSE_DENIED (ascii "denied"), ()⟩] := by
  cases r with
  | ok b =>
    rcases hp.ask_inv with ⟨rfl, -⟩ | ⟨⟨⟩, h₁, rfl, hp₁⟩
    · exact .inl rfl
    rcases hp₁.ask_inv with ⟨rfl, -⟩ | ⟨⟨⟩, h₂, rfl, hp₂⟩
    · exact .inr (.inl ⟨b, rfl, .inl rfl⟩)
    · rw [hp₂.ret_inv.1]
      exact .inr (.inl ⟨b, rfl, .inr rfl⟩)
  | error e =>
    rcases hp.ask_inv with ⟨rfl, -⟩ | ⟨⟨⟩, h₁, rfl, hp₁⟩
    · exact .inl rfl
    · rw [hp₁.ret_inv.1]
      exact .inr (.inr rfl)

theorem asks_conclude {P : Op → Prop} (hI : ∀ y, P (.insert y)) (hC : ∀ code reason, P (.close code reason))
    (r : Except Error β) : (conclude remote r).Asks P := by
  cases r with
  | ok b => exact ⟨hI _, fun _ => ⟨hC _ _, fun _ => trivial⟩⟩
  | error e => exact ⟨hC _ _, fun _ => trivial⟩

/-- An acceptor that inserts has verified its remote, and touches the stream no more. -/
theorem conclude_insert {y : EndpointId} (hx : x.run.Asks fun op => ∀ y, op ≠ .insert y)
    (hp : Path (x.run >>= conclude remote) h q) (he : ⟨.insert y, ()⟩ ∈ h) :
    ∃ b h₁ h₂, h = h₁ ++ h₂ ∧ Path x.run h₁ (ret (.ok b)) ∧ y = remote b ∧ reads h₂ = [] ∧ written h₂ = [] := by
  rcases Path.bind_cases hp with ⟨p, hp, -⟩ | ⟨r, h₁, h₂, rfl, hp₁, hp₂⟩
  · exact absurd rfl ((hp.asks hx).1 _ he y)
  have he : ⟨.insert y, ()⟩ ∈ h₂ :=
    (List.mem_append.1 he).resolve_left fun hm => absurd rfl ((hp₁.asks hx).1 _ hm y)
  rcases path_conclude hp₂ with rfl | ⟨b, rfl, rfl | rfl⟩ | rfl
  · cases he
  · exact ⟨b, h₁, _, rfl, hp₁, by simpa using he, rfl, rfl⟩
  · exact ⟨b, h₁, _, rfl, hp₁, by simpa using he, rfl, rfl⟩
  · simp at he

/-- An acceptor that says so has inserted its remote before. -/
theorem conclude_close {code : UInt32} {reason : Bytes}
    (hx : x.run.Asks fun op => ∀ code reason, op ≠ .close code reason)
    (hp : Path (x.run >>= conclude remote) h q) (he : ⟨.close code reason, ()⟩ ∈ h) :
    code = CLOSE_DENIED ∨ code = CLOSE_ACCEPTED ∧ ∃ b, ⟨.insert (remote b), ()⟩ ∈ h := by
  rcases Path.bind_cases hp with ⟨p, hp, -⟩ | ⟨r, h₁, h₂, rfl, hp₁, hp₂⟩
  · exact absurd rfl ((hp.asks hx).1 _ he code reason)
  have he : ⟨.close code reason, ()⟩ ∈ h₂ :=
    (List.mem_append.1 he).resolve_left fun hm => absurd rfl ((hp₁.asks hx).1 _ hm code reason)
  rcases path_conclude hp₂ with rfl | ⟨b, rfl, rfl | rfl⟩ | rfl
  · cases he
  · simp at he
  · have he : code = CLOSE_ACCEPTED ∧ reason = ascii "accepted" := by simpa using he
    exact .inr ⟨he.1, b, by simp⟩
  · have he : code = CLOSE_DENIED ∧ reason = ascii "denied" := by simpa using he
    exact .inl he.1

end Conclude

/-! ### The assertion of an initiator -/

section Settle

variable [Postcard α] {m : α} {message : UInt64 → Bytes} {assertion : Bytes → UInt64 → α}

theorem asks_settle {P : Op → Prop} (hW : ∀ bytes, P (.writeAll bytes)) (hF : P .finish) (hD : P .closed) :
    (settle m).run.Asks P :=
  (asks_writeMsg hW).run_bind fun _ => (asks_transport (asks_call.2 hF)).run_bind fun _ =>
    (asks_lift hD).run_bind fun _ => trivial

theorem asks_attest {P : Op → Prop} (hT : P .unixSecs) (hS : ∀ now, P (.sign (message now)))
    (hW : ∀ bytes, P (.writeAll bytes)) (hF : P .finish) (hD : P .closed) : (attest message assertion).run.Asks P :=
  (asks_lift hT).run_bind fun _ => (asks_signBlocking (hS _)).run_bind fun _ => asks_settle hW hF hD

/-- An initiator succeeds only with the verdict. -/
theorem path_settle {q : Session} (hp : Path (settle m).run h q) :
    WritesPart m h ∧ (q = ret (.ok ()) → ∃ reason, ⟨.closed, reason⟩ ∈ h ∧ verdict reason = .ok ()) := by
  rcases hp.run_bind_cases with ⟨p, hp, -, hq⟩ | ⟨_, h₁, h₂, rfl, hp₁, hp₂⟩
  · exact ⟨writeMsg_part hp, fun he => absurd he (hq _)⟩
  have hmute : written h₂ = [] := by
    refine written_of_asks hp₂ ?_
    refine (asks_transport (asks_call.2 trivial)).run_bind fun _ => (asks_lift trivial).run_bind fun _ => trivial
  refine ⟨?_, ?_⟩
  · rcases writeMsg_part hp₁ with hw | hw
    · exact .inl (by simp [hw, hmute])
    · exact .inr (by simpa [hmute] using hw)
  · rintro rfl
    obtain ⟨_, h₃, h₄, rfl, hp₃, hp₄⟩ := hp₂.run_bind_ok
    obtain ⟨reason, h₅, h₆, rfl, hp₅, hp₆⟩ := hp₄.run_bind_ok
    refine ⟨reason, ?_, ?_⟩
    · rw [path_lift hp₅]
      simp
    · have := hp₆.ret_inv.2
      simpa using this.symm

/-- An initiator that asserts itself has written nothing, or it has signed. -/
theorem path_attest {q : Session} (hp : Path (attest message assertion).run h q) :
    (written h = [] ∧ q ≠ ret (.ok ())) ∨ ∃ now signature h',
      h = [⟨.unixSecs, now⟩, ⟨.sign (message now), .ok signature⟩] ++ h' ∧ WritesPart (assertion signature now) h' ∧
        (q = ret (.ok ()) → ∃ reason, ⟨.closed, reason⟩ ∈ h' ∧ verdict reason = .ok ()) := by
  rcases hp.run_bind_cases with ⟨p, hp, -, hq⟩ | ⟨now, h₁, h₂, rfl, hp₁, hp₂⟩
  · exact .inl ⟨written_of_asks hp (asks_lift trivial), hq _⟩
  rw [path_lift hp₁]
  rcases hp₂.run_bind_cases with ⟨p, hp, -, hq⟩ | ⟨signature, h₃, h₄, rfl, hp₃, hp₄⟩
  · exact .inl ⟨by simp [eventWrites, written_of_asks hp (asks_signBlocking trivial)], hq _⟩
  rw [path_signBlocking hp₃]
  obtain ⟨hpart, hok⟩ := path_settle hp₄
  exact .inr ⟨now, signature, h₄, rfl, hpart, hok⟩

end Settle

end IrohHydeAuth
