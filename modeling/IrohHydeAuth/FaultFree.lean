import IrohHydeAuth.Network
import IrohHydeAuth.Basis.Diamond

/-!
# Two sessions on a fault-free connection

On a connection without faults nothing is left to chance but the order in which the two ends take their steps: what is
written arrives, a read waits for its bytes until the other end is gone, and waiting for the end of the connection
yields the code with which the other end closed it.  The steps of the two ends commute (`Pair.diamond`), so all orders
lead to the same end (`Pair.settles`), and it is enough to follow one of them.
-/

namespace IrohHydeAuth

open Process Prog

/-- What the end of a connection brings along besides its program. -/
structure Party where
  nonce : Nonce
  /-- The readings of its clock, in order. -/
  clock : Nat → UInt64
  sign : Bytes → Except Error Bytes
  verify : Bytes → Bytes → Bytes → Except VerifyError InstitutionId
  localId : Option EndpointId
  /-- The text that iroh displays for a close by the peer. -/
  display : VarInt → Bytes → String

/-- How far an end is. -/
structure Half where
  proc : Session
  trace : Trace Resp

namespace Half

/-- The session has ended, and with it this end of the connection. -/
def gone (me : Half) : Bool := me.proc.value?.isSome

private theorem toNat_lt_varInt (code : UInt32) : code.toNat < 2 ^ 62 :=
  code.toNat_lt.trans (by decide)

/-- The reason that closing the connection gives to the other end. -/
def closeOf (display : VarInt → Bytes → String) : Event Resp → Option ConnectionError
  | ⟨.close code reason, _⟩ =>
    let errorCode : VarInt := ⟨code.toNat, toNat_lt_varInt code⟩
    some (.applicationClosed errorCode (display errorCode reason))
  | _ => none

/-- Why the connection is gone, as the other end sees it; a connection that is dropped is closed with 0. -/
def closeReason (display : VarInt → Bytes → String) (me : Half) : ConnectionError :=
  let dropped : VarInt := ⟨0, Nat.two_pow_pos 62⟩
  (me.trace.findSome? (closeOf display)).getD (.applicationClosed dropped (display dropped []))

theorem closeReason_snoc {display : VarInt → Bytes → String} {p : Session} {h : Trace Resp} {e : Event Resp}
    {reason : ConnectionError} (hopen : closeCodes h = []) (he : closeOf display e = some reason) :
    (⟨p, h ++ [e]⟩ : Half).closeReason display = reason := by
  have hnone : h.findSome? (closeOf display) = none := by
    refine List.findSome?_eq_none_iff.2 fun ⟨op, r⟩ hm => ?_
    have hnot := List.filterMap_eq_nil_iff.1 hopen ⟨op, r⟩ hm
    cases op with
    | close code reason => cases hnot
    | _ => rfl
  simp [closeReason, List.findSome?_append, hnone, he]

end Half

/-- How often the clock was read. -/
def clockReads (h : Trace Resp) : Nat := h.countP fun e => e.1 = .unixSecs

@[simp] theorem clockReads_append (h h' : Trace Resp) : clockReads (h ++ h') = clockReads h + clockReads h' :=
  List.countP_append

namespace Party

/-- What a party that has done `h` is answered, unless it has to wait. -/
def answer (self : Party) (h : Trace Resp) (peer : Half) : (op : Op) → Option (Resp op)
  | .connect _ _ | .openBi | .acceptBi | .writeAll _ | .finish => some (.ok ())
  | .readExact n =>
    let buf := (written peer.trace).drop (reads h).length
    if hn : n ≤ buf.length then some (.ok ⟨buf.take n, List.length_take_of_le hn⟩)
    else if peer.gone then some (.error "connection lost") else none
  | .random => some self.nonce
  | .unixSecs => some (self.clock (clockReads h))
  | .sign message => some (self.sign message)
  | .verify key message signature => some (self.verify key message signature)
  | .localId => some self.localId
  | .insert _ | .close _ _ => some ()
  | .closed => if peer.gone then some (peer.closeReason self.display) else none

/-- The next step of a party. -/
def step (self : Party) (peer me : Half) : Option Half :=
  match me.proc with
  | .ret _ => none
  | .ask op k => (self.answer me.trace peer op).map fun r => ⟨k r, me.trace ++ [⟨op, r⟩]⟩

theorem step_eq_some {self : Party} {peer me me' : Half} (h : self.step peer me = some me') :
    ∃ op k r, me.proc = ask op k ∧ self.answer me.trace peer op = some r ∧
      me' = ⟨k r, me.trace ++ [⟨op, r⟩]⟩ := by
  simp only [step] at h
  split at h
  · cases h
  · rename_i op k hp
    obtain ⟨r, hr, rfl⟩ := Option.map_eq_some_iff.1 h
    exact ⟨op, k, r, hp, hr, rfl⟩

/-- An answer that is there does not change while the other end goes on. -/
theorem answer_snoc {self : Party} {h : Trace Resp} {peer peer' : Half} {e : Event Resp} {op : Op} {r : Resp op}
    (hg : peer.gone = false) (ht : peer'.trace = peer.trace ++ [e]) (hr : self.answer h peer op = some r) :
    self.answer h peer' op = some r := by
  cases op with
  | readExact n =>
    simp only [answer, hg] at hr ⊢
    split at hr
    · rename_i hn
      have hn' : n ≤ ((written peer'.trace).drop (reads h).length).length := by
        simp only [ht, written_append, List.length_drop, List.length_append] at hn ⊢
        omega
      have htake : ((written peer'.trace).drop (reads h).length).take n =
          ((written peer.trace).drop (reads h).length).take n := by
        have hle : (reads h).length ≤ (written peer.trace).length ∨ n = 0 := by
          rw [List.length_drop] at hn
          omega
        rcases hle with hle | rfl
        · rw [ht, written_append, List.drop_append_of_le_length hle, List.take_append_of_le_length hn]
        · simp
      rw [dif_pos hn', ← hr]
      simp only [htake]
    · cases hr
  | closed =>
    simp only [answer, hg] at hr
    cases hr
  | _ => exact hr

end Party

/-- Both ends. -/
structure Pair where
  dialer : Half
  acceptor : Half

namespace Pair

/-- One of the two ends takes a step. -/
inductive Step (a b : Party) : Pair → Pair → Prop
  | dialer {d d' q : Half} (h : a.step q d = some d') : Step a b ⟨d, q⟩ ⟨d', q⟩
  | acceptor {d q q' : Half} (h : b.step d q = some q') : Step a b ⟨d, q⟩ ⟨d, q'⟩

variable {a b : Party}

private theorem not_gone {self : Party} {peer me me' : Half} (h : self.step peer me = some me') :
    me.gone = false := by
  obtain ⟨op, k, r, hp, -⟩ := Party.step_eq_some h
  simp [Half.gone, hp]

private theorem step_comm {self other : Party} {me me' peer peer' : Half} (h : self.step peer me = some me')
    (h' : other.step me peer = some peer') : self.step peer' me = some me' := by
  obtain ⟨op, k, r, hp, hr, rfl⟩ := Party.step_eq_some h
  have hg := not_gone h'
  obtain ⟨op', k', r', hp', hr', rfl⟩ := Party.step_eq_some h'
  have hr₁ : self.answer me.trace ⟨k' r', peer.trace ++ [⟨op', r'⟩]⟩ op = some r := Party.answer_snoc hg rfl hr
  simp only [Party.step, hp, hr₁, Option.map_some]

/-- Steps of different ends commute. -/
theorem diamond (a b : Party) : Diamond (Step a b) := by
  intro p p₁ p₂ h₁ h₂
  cases h₁ with
  | dialer h₁ =>
    cases h₂ with
    | dialer h₂ =>
      rw [h₁] at h₂
      cases h₂
      exact .inl rfl
    | acceptor h₂ => exact .inr ⟨_, .acceptor (step_comm h₂ h₁), .dialer (step_comm h₁ h₂)⟩
  | acceptor h₁ =>
    cases h₂ with
    | dialer h₂ => exact .inr ⟨_, .dialer (step_comm h₂ h₁), .acceptor (step_comm h₁ h₂)⟩
    | acceptor h₂ =>
      rw [h₁] at h₂
      cases h₂
      exact .inl rfl

/-- Whatever the order of steps, `p` comes to its end at `z`, and always after the same number of steps. -/
def Settles (a b : Party) (p z : Pair) : Prop :=
  ∃ n, Terminal (Step a b) z ∧ ∀ m p', RunsIn (Step a b) m p p' → ∃ k, n = m + k ∧ RunsIn (Step a b) k p' z

theorem settles {p z : Pair} (h : Relation.ReflTransGen (Step a b) p z) (hd : z.dialer.gone = true)
    (ha : z.acceptor.gone = true) : Settles a b p z := by
  have hz : Terminal (Step a b) z := by
    intro p' hs
    cases hs with
    | dialer hs => simp [not_gone hs] at hd
    | acceptor hs => simp [not_gone hs] at ha
  obtain ⟨n, hn⟩ := exists_runsIn h
  exact ⟨n, hz, fun m p' hp => (diamond a b).toEnd hz hn hp⟩

theorem Settles.reflTransGen {p z : Pair} (h : Settles a b p z) : Relation.ReflTransGen (Step a b) p z := by
  obtain ⟨n, -, hrun⟩ := h
  obtain ⟨k, -, hk⟩ := hrun 0 p (.refl p)
  exact hk.reflTransGen

end Pair

/-! ### Following one end -/

/-- What a trace shows of itself as long as its session neither inserts nor closes: the bytes read, the bytes written,
and how often the clock was read. -/
structure Seen (h : Trace Resp) (x y : Bytes) (n : Nat) : Prop where
  reads : reads h = x
  written : written h = y
  clock : clockReads h = n
  inserted : inserted h = []
  closeCodes : closeCodes h = []

section Runs

variable {self : Party} {peer : Half} {α β : Type} {h h' : Trace Resp} {x y : Bytes} {n : Nat}

theorem seen_nil : Seen [] [] [] 0 := ⟨rfl, rfl, rfl, rfl, rfl⟩

theorem Seen.append {x' y' : Bytes} {n' : Nat} (hs : Seen h x y n) (hs' : Seen h' x' y' n') :
    Seen (h ++ h') (x ++ x') (y ++ y') (n + n') where
  reads := by rw [reads_append, hs.reads, hs'.reads]
  written := by rw [written_append, hs.written, hs'.written]
  clock := by rw [clockReads_append, hs.clock, hs'.clock]
  inserted := by rw [inserted_append, hs.inserted, hs'.inserted, List.append_nil]
  closeCodes := by rw [closeCodes_append, hs.closeCodes, hs'.closeCodes, List.append_nil]

/-- The end `self` goes from the first state to the second while the other end stays as it is. -/
abbrev Runs (self : Party) (peer : Half) : Half → Half → Prop :=
  Relation.ReflTransGen fun me me' => self.step peer me = some me'

/-- The part `p` of a session that has done `h` returns `r`, having then done `h'`. -/
def Yields (self : Party) (peer : Half) (p : Async α) (h : Trace Resp) (r : Except Error α) (h' : Trace Resp) : Prop :=
  ∀ g : Except Error α → Session, Runs self peer ⟨p.run >>= g, h⟩ ⟨g r, h'⟩

theorem runs_ask (op : Op) {k : Resp op → Session} (r : Resp op) (hr : self.answer h peer op = some r) :
    Runs self peer ⟨ask op k, h⟩ ⟨k r, h ++ [⟨op, r⟩]⟩ :=
  .single (by simp [Party.step, hr])

theorem Yields.bind {p : Async α} {a : α} {f : α → Async β} {r : Except Error β} {h'' : Trace Resp}
    (hp : Yields self peer p h (.ok a) h') (hf : Yields self peer (f a) h' r h'') :
    Yields self peer (p >>= f) h r h'' := by
  intro g
  rw [ExceptT.run_bind, bind_assoc]
  exact (hp _).trans (hf g)

theorem Yields.bind_error {p : Async α} {e : Error} {f : α → Async β} (hp : Yields self peer p h (.error e) h') :
    Yields self peer (p >>= f) h (.error e) h' := by
  intro g
  rw [ExceptT.run_bind, bind_assoc]
  exact hp _

/-- Go on behind a part that succeeds. -/
theorem Yields.runs {p : Async α} {a : α} {f : α → Async Unit} {z : Half} (hp : Yields self peer p h (.ok a) h')
    (hf : Runs self peer ⟨(f a).run, h'⟩ z) : Runs self peer ⟨(p >>= f).run, h⟩ z := by
  rw [ExceptT.run_bind]
  exact (hp _).trans hf

/-- The same in front of the rest `g` of the session, which looks at errors too. -/
theorem Yields.runs_bind {p : Async α} {a : α} {f : α → Async β} {g : Except Error β → Session} {z : Half}
    (hp : Yields self peer p h (.ok a) h') (hf : Runs self peer ⟨(f a).run >>= g, h'⟩ z) :
    Runs self peer ⟨(p >>= f).run >>= g, h⟩ z := by
  rw [ExceptT.run_bind, bind_assoc]
  exact (hp _).trans hf

/-- A part that fails ends the session. -/
theorem Yields.runs_error {p : Async α} {e : Error} {f : α → Async Unit} (hp : Yields self peer p h (.error e) h') :
    Runs self peer ⟨(p >>= f).run, h⟩ ⟨ret (.error e), h'⟩ := by
  rw [ExceptT.run_bind]
  exact hp _

theorem yields_throw {e : Error} : Yields self peer (throw e : Async α) h (.error e) h := fun _ => .refl

theorem yields_pure {a : α} : Yields self peer (pure a : Async α) h (.ok a) h := fun _ => .refl

/-! The operations that neither read nor write nor look at the clock. -/

/-- The operation touches neither the stream nor the clock nor what the sessions share. -/
def Op.isPlain : Op → Bool
  | .readExact _ | .writeAll _ | .unixSecs | .insert _ | .close _ _ => false
  | _ => true

theorem Seen.snoc {e : Event Resp} (hs : Seen h x y n) (he : e.1.isPlain = true) : Seen (h ++ [e]) x y n := by
  have hplain : Seen [e] [] [] 0 := by
    obtain ⟨op, r⟩ := e
    cases op with
    | readExact | writeAll | unixSecs | insert | close => cases he
    | _ => exact ⟨rfl, rfl, rfl, rfl, rfl⟩
  simpa using hs.append hplain

theorem Seen.connect (hs : Seen h x y n) (self : Party) (peer : Half) (addr : EndpointAddr) (alpn : Bytes) :
    ∃ h', Seen h' x y n ∧ Yields self peer (transport (call (.connect addr alpn))) h (.ok ()) h' :=
  ⟨_, hs.snoc (e := ⟨.connect addr alpn, .ok ()⟩) rfl, fun _ => runs_ask (.connect addr alpn) (.ok ()) rfl⟩

theorem Seen.openBi (hs : Seen h x y n) (self : Party) (peer : Half) :
    ∃ h', Seen h' x y n ∧ Yields self peer (transport (call .openBi)) h (.ok ()) h' :=
  ⟨_, hs.snoc (e := ⟨.openBi, .ok ()⟩) rfl, fun _ => runs_ask .openBi (.ok ()) rfl⟩

theorem Seen.acceptBi (hs : Seen h x y n) (self : Party) (peer : Half) :
    ∃ h', Seen h' x y n ∧ Yields self peer (transport (call .acceptBi)) h (.ok ()) h' :=
  ⟨_, hs.snoc (e := ⟨.acceptBi, .ok ()⟩) rfl, fun _ => runs_ask .acceptBi (.ok ()) rfl⟩

theorem Seen.finish (hs : Seen h x y n) (self : Party) (peer : Half) :
    ∃ h', Seen h' x y n ∧ Yields self peer (transport (call .finish)) h (.ok ()) h' :=
  ⟨_, hs.snoc (e := ⟨.finish, .ok ()⟩) rfl, fun _ => runs_ask .finish (.ok ()) rfl⟩

theorem Seen.random (hs : Seen h x y n) (self : Party) (peer : Half) :
    ∃ h', Seen h' x y n ∧ Yields self peer (liftM (call .random)) h (.ok self.nonce) h' :=
  ⟨_, hs.snoc (e := ⟨.random, self.nonce⟩) rfl, fun _ => runs_ask .random self.nonce rfl⟩

theorem Seen.localId (hs : Seen h x y n) (self : Party) (peer : Half) :
    ∃ h', Seen h' x y n ∧ Yields self peer (liftM (call .localId)) h (.ok self.localId) h' :=
  ⟨_, hs.snoc (e := ⟨.localId, self.localId⟩) rfl, fun _ => runs_ask .localId self.localId rfl⟩

theorem Seen.sign (hs : Seen h x y n) (self : Party) (peer : Half) (message : Bytes) :
    ∃ h', Seen h' x y n ∧ Yields self peer (signBlocking message) h (self.sign message) h' :=
  ⟨_, hs.snoc (e := ⟨.sign message, self.sign message⟩) rfl, fun _ => runs_ask (.sign message) _ rfl⟩

theorem Seen.verify (hs : Seen h x y n) (self : Party) (peer : Half) (key message signature : Bytes) :
    ∃ h', Seen h' x y n ∧ Yields self peer (liftM (call (.verify key message signature))) h
      (.ok (self.verify key message signature)) h' :=
  ⟨_, hs.snoc (e := ⟨.verify key message signature, self.verify key message signature⟩) rfl,
    fun _ => runs_ask (.verify key message signature) _ rfl⟩

/-! The clock. -/

theorem Seen.unixSecs (hs : Seen h x y n) (self : Party) (peer : Half) :
    ∃ h', Seen h' x y (n + 1) ∧ Yields self peer (liftM (call .unixSecs)) h (.ok (self.clock n)) h' := by
  have he : Seen [⟨.unixSecs, self.clock n⟩] [] [] 1 := ⟨rfl, rfl, rfl, rfl, rfl⟩
  refine ⟨_, by simpa using hs.append he, fun _ => runs_ask .unixSecs (self.clock n) ?_⟩
  simp [Party.answer, hs.clock]

/-- The freshness test reads the clock if there is a tolerance. -/
theorem Seen.checkSkewNow (hs : Seen h x y n) (self : Party) (peer : Half) (maxSkewSecs : Option UInt64)
    (asserted : UInt64) :
    ∃ h', Seen h' x y (n + if maxSkewSecs.isSome then 1 else 0) ∧
      Yields self peer (liftM (IrohHydeAuth.checkSkewNow maxSkewSecs asserted)) h
        (.ok (checkSkew maxSkewSecs (self.clock n) asserted)) h' := by
  cases maxSkewSecs with
  | none => exact ⟨h, hs, fun _ => .refl⟩
  | some max =>
    obtain ⟨h', hs', hy⟩ := hs.unixSecs self peer
    exact ⟨h', hs', fun g => hy fun r => g (r.map fun now => checkSkew (some max) now asserted)⟩

/-! Messages. -/

private theorem yields_writeAll {bytes : Bytes} :
    Yields self peer (transport (call (.writeAll bytes))) h (.ok ()) (h ++ [⟨.writeAll bytes, .ok ()⟩]) :=
  fun _ => runs_ask (.writeAll bytes) (.ok ()) rfl

/-- Bytes that have arrived are read. -/
private theorem yields_readExact {n : Nat} {buf : ByteArr n} (hw : written peer.trace = reads h ++ buf.val ++ y) :
    Yields self peer (transport (call (.readExact n))) h (.ok buf) (h ++ [⟨.readExact n, .ok buf⟩]) := by
  refine fun _ => runs_ask (.readExact n) (.ok buf) ?_
  have hbuf : (written peer.trace).drop (reads h).length = buf.val ++ y := by
    rw [hw, List.append_assoc, List.drop_left]
  have hn : n ≤ ((written peer.trace).drop (reads h).length).length := by
    rw [hbuf, List.length_append, buf.property]
    omega
  have htake : ((written peer.trace).drop (reads h).length).take n = buf.val := by
    rw [hbuf, List.take_left' buf.property]
  simp only [Party.answer]
  rw [dif_pos hn]
  exact congrArg (fun b => some (Except.ok b)) (Subtype.ext htake)

section Messages

variable [Postcard α] {m : α}

/-- A message that is written has arrived. -/
theorem Seen.writeMsg (hs : Seen h x y n) (self : Party) (peer : Half) (hfit : (Postcard.encode m).length ≤ MAX_MSG) :
    ∃ h', Seen h' x (y ++ frame m) n ∧ Yields self peer (IrohHydeAuth.writeMsg m) h (.ok ()) h' := by
  have hlt : (Postcard.encode m).length < 2 ^ 32 := by
    have : MAX_MSG = 16384 := rfl
    omega
  have he : Seen ([⟨.writeAll (beBytes 4 (Postcard.encode m).length), .ok ()⟩] ++
      [⟨.writeAll (Postcard.encode m), .ok ()⟩]) [] (frame m) 0 :=
    ⟨rfl, by simp [eventWrites, frame], rfl, rfl, rfl⟩
  refine ⟨h ++ [_] ++ [_], by simpa using hs.append he, ?_⟩
  rw [IrohHydeAuth.writeMsg, if_pos hlt]
  exact yields_writeAll.bind yields_writeAll

/-- A message that has arrived is read. -/
theorem Seen.readMsg {z : Bytes} (hs : Seen h x y n) (self : Party) (hfit : (Postcard.encode m).length ≤ MAX_MSG)
    (hw : IrohHydeAuth.written peer.trace = x ++ frame m ++ z) :
    ∃ h', Seen h' (x ++ frame m) y n ∧ Yields self peer (IrohHydeAuth.readMsg MAX_MSG) h (.ok m) h' := by
  have hmax : MAX_MSG = 16384 := rfl
  let lenBuf : ByteArr 4 := ⟨beBytes 4 (Postcard.encode m).length, by simp⟩
  have hnat : beNat lenBuf.val = (Postcard.encode m).length := beNat_beBytes_of_lt (by omega)
  let buf : ByteArr (beNat lenBuf.val) := ⟨Postcard.encode m, hnat.symm⟩
  have hdec : Postcard.fromBytes buf.val = .ok m := Postcard.fromBytes_encode (by omega)
  have he : Seen ([⟨.readExact 4, .ok lenBuf⟩] ++ [⟨.readExact (beNat lenBuf.val), .ok buf⟩]) (frame m) [] 0 :=
    ⟨by simp [eventReads, frame, lenBuf, buf], rfl, rfl, rfl, rfl⟩
  refine ⟨h ++ [_] ++ [_], by simpa using hs.append he, ?_⟩
  have h₁ : Yields self peer (transport (call (.readExact 4))) h (.ok lenBuf) (h ++ [⟨.readExact 4, .ok lenBuf⟩]) :=
    yields_readExact (y := Postcard.encode m ++ z) (by simp [hw, hs.reads, frame, lenBuf])
  have h₂ : Yields self peer (transport (call (.readExact (beNat lenBuf.val))))
      (h ++ [⟨.readExact 4, .ok lenBuf⟩]) (.ok buf)
      (h ++ [⟨.readExact 4, .ok lenBuf⟩] ++ [⟨.readExact (beNat lenBuf.val), .ok buf⟩]) :=
    yields_readExact (y := z) (by simp [hw, hs.reads, frame, lenBuf, buf, eventReads])
  refine h₁.bind ?_
  rw [if_neg (by omega)]
  refine h₂.bind ?_
  rw [hdec]
  exact yields_pure

/-- Once the other end is gone and everything is read, reading fails. -/
theorem Seen.readMsg_gone (hs : Seen h x y n) (self : Party) (hg : peer.gone = true)
    (hw : IrohHydeAuth.written peer.trace = x) (max : Nat) (γ : Type) [Postcard γ] :
    ∃ h', Seen h' x y n ∧
      Yields self peer (IrohHydeAuth.readMsg max : Async γ) h (.error (.transport "connection lost")) h' := by
  have he : Seen [⟨.readExact 4, .error "connection lost"⟩] [] [] 0 :=
    ⟨rfl, rfl, rfl, rfl, rfl⟩
  refine ⟨_, by simpa using hs.append he, Yields.bind_error ?_⟩
  refine fun _ => runs_ask (.readExact 4) (.error "connection lost") ?_
  simp [Party.answer, hs.reads, hw, hg]

end Messages

/-! ### The ends of the sessions -/

/-- An acceptor that has verified its remote inserts it and accepts. -/
theorem Seen.conclude_ok (hs : Seen h x y n) (self : Party) (peer : Half) (remote : α → EndpointId) (r : α) :
    ∃ q : Half, Runs self peer ⟨conclude remote (.ok r), h⟩ q ∧ q.proc = ret (.ok ()) ∧
      IrohHydeAuth.inserted q.trace = [remote r] ∧ IrohHydeAuth.closeCodes q.trace = [CLOSE_ACCEPTED] ∧
      ∀ display, verdict (q.closeReason display) = .ok () := by
  have hinsert : Runs self peer ⟨conclude remote (.ok r), h⟩ _ := runs_ask (.insert (remote r)) () rfl
  refine ⟨_, hinsert.trans (runs_ask (.close CLOSE_ACCEPTED (ascii "accepted")) () rfl), rfl, ?_, ?_, ?_⟩
  · rw [inserted_append, inserted_append, hs.inserted]
    rfl
  · rw [closeCodes_append, closeCodes_append, hs.closeCodes]
    rfl
  · intro display
    rw [Half.closeReason_snoc (by rw [closeCodes_append, hs.closeCodes]; rfl) rfl]
    rfl

/-- An acceptor whose handshake failed denies. -/
theorem Seen.conclude_error (hs : Seen h x y n) (self : Party) (peer : Half) (remote : α → EndpointId) (e : Error) :
    ∃ q : Half, Runs self peer ⟨conclude remote (.error e), h⟩ q ∧ q.proc = ret (.ok ()) ∧
      IrohHydeAuth.inserted q.trace = [] ∧ IrohHydeAuth.closeCodes q.trace = [CLOSE_DENIED] ∧
      ∀ display, verdict (q.closeReason display) = .error (.denied "rejected by remote acceptor") := by
  refine ⟨_, runs_ask (.close CLOSE_DENIED (ascii "denied")) () rfl, rfl, ?_, ?_, ?_⟩
  · rw [inserted_append, hs.inserted]
    rfl
  · rw [closeCodes_append, hs.closeCodes]
    rfl
  · intro display
    rw [Half.closeReason_snoc hs.closeCodes rfl]
    rfl

/-- An initiator that waits for the verdict gets it once the other end is gone. -/
theorem runs_awaitVerdict (self : Party) (h : Trace Resp) (peer : Half) (hg : peer.gone = true) :
    Runs self peer ⟨awaitVerdict.run, h⟩
      ⟨ret (verdict (peer.closeReason self.display)), h ++ [⟨.closed, peer.closeReason self.display⟩]⟩ :=
  runs_ask .closed (peer.closeReason self.display) (by simp [Party.answer, hg])

end Runs

namespace Pair

variable {a b : Party}

theorem runs_dialer {d d' q : Half} (h : Runs a q d d') : Relation.ReflTransGen (Step a b) ⟨d, q⟩ ⟨d', q⟩ := by
  induction h with
  | refl => exact .refl
  | tail _ hs ih => exact ih.tail (.dialer hs)

theorem runs_acceptor {d q q' : Half} (h : Runs b d q q') : Relation.ReflTransGen (Step a b) ⟨d, q⟩ ⟨d, q'⟩ := by
  induction h with
  | refl => exact .refl
  | tail _ hs ih => exact ih.tail (.acceptor hs)

/-! ### The two verdicts -/

/-- Both ends of a connection between honest endpoints before their first steps. -/
def start (w : World) (c : Conn) : Option Pair := do
  let p ← w.program (c, .dialer)
  let q ← w.program (c, .acceptor)
  return ⟨⟨p, []⟩, ⟨q, []⟩⟩

/-- The acceptor has recorded `remote` and closed with `CLOSE_ACCEPTED`, and the initiator has returned `Ok`. -/
structure Accepted (z : Pair) (remote : EndpointId) : Prop where
  returned : z.dialer.proc = ret (.ok ())
  finished : z.acceptor.proc = ret (.ok ())
  recorded : inserted z.acceptor.trace = [remote]
  closed : closeCodes z.acceptor.trace = [CLOSE_ACCEPTED]

/-- The acceptor has recorded nobody and closed with `CLOSE_DENIED`, and the initiator has returned an error. -/
structure Denied (z : Pair) : Prop where
  returned : ∃ e, z.dialer.proc = ret (.error e)
  finished : z.acceptor.proc = ret (.ok ())
  recorded : inserted z.acceptor.trace = []
  closed : closeCodes z.acceptor.trace = [CLOSE_DENIED]

theorem Accepted.not_denied {z : Pair} {remote : EndpointId} (h : Accepted z remote) : ¬ Denied z := by
  rintro ⟨⟨e, he⟩, -⟩
  rw [h.returned] at he
  cases he

theorem Accepted.settles {p z : Pair} {remote : EndpointId} (h : Accepted z remote)
    (hrun : Relation.ReflTransGen (Step a b) p z) : Settles a b p z :=
  Pair.settles hrun (by simp [Half.gone, h.returned]) (by simp [Half.gone, h.finished])

theorem Denied.settles {p z : Pair} (h : Denied z) (hrun : Relation.ReflTransGen (Step a b) p z) :
    Settles a b p z := by
  obtain ⟨e, he⟩ := h.returned
  exact Pair.settles hrun (by simp [Half.gone, he]) (by simp [Half.gone, h.finished])

section Ends

variable {α : Type} {p : Async α} {remote : α → EndpointId} {h h' hd : Trace Resp} {x y : Bytes} {n : Nat}

/-- The acceptor's handshake succeeds while the initiator waits for the verdict. -/
theorem accepted_of_ok {r : α} (hs : Seen h' x y n) (hp : Yields b ⟨awaitVerdict.run, hd⟩ p h (.ok r) h') :
    ∃ z, Relation.ReflTransGen (Step a b) ⟨⟨awaitVerdict.run, hd⟩, ⟨p.run >>= conclude remote, h⟩⟩ z ∧
      Accepted z (remote r) := by
  obtain ⟨q, hq, hproc, hins, hcodes, hverdict⟩ := hs.conclude_ok b ⟨awaitVerdict.run, hd⟩ remote r
  have hd := runs_awaitVerdict a hd q (by simp [Half.gone, hproc])
  rw [hverdict] at hd
  exact ⟨_, (runs_acceptor ((hp _).trans hq)).trans (runs_dialer hd), rfl, hproc, hins, hcodes⟩

/-- The acceptor's handshake fails while the initiator waits for the verdict. -/
theorem denied_of_error {e : Error} (hs : Seen h' x y n) (hp : Yields b ⟨awaitVerdict.run, hd⟩ p h (.error e) h') :
    ∃ z, Relation.ReflTransGen (Step a b) ⟨⟨awaitVerdict.run, hd⟩, ⟨p.run >>= conclude remote, h⟩⟩ z ∧
      Denied z ∧ z.dialer.proc = ret (.error (.denied "rejected by remote acceptor")) := by
  obtain ⟨q, hq, hproc, hins, hcodes, hverdict⟩ := hs.conclude_error b ⟨awaitVerdict.run, hd⟩ remote e
  have hd := runs_awaitVerdict a hd q (by simp [Half.gone, hproc])
  rw [hverdict] at hd
  exact ⟨_, (runs_acceptor ((hp _).trans hq)).trans (runs_dialer hd), ⟨⟨_, rfl⟩, hproc, hins, hcodes⟩, rfl⟩

/-- The acceptor's handshake fails after the initiator has failed. -/
theorem denied_of_gone {e e' : Error} (hs : Seen h' x y n) (hp : Yields b ⟨ret (.error e'), hd⟩ p h (.error e) h') :
    ∃ z, Relation.ReflTransGen (Step a b) ⟨⟨ret (.error e'), hd⟩, ⟨p.run >>= conclude remote, h⟩⟩ z ∧
      Denied z ∧ z.dialer.proc = ret (.error e') := by
  obtain ⟨q, hq, hproc, hins, hcodes, -⟩ := hs.conclude_error b ⟨ret (.error e'), hd⟩ remote e
  exact ⟨_, runs_acceptor ((hp _).trans hq), ⟨⟨_, rfl⟩, hproc, hins, hcodes⟩, rfl⟩

end Ends

end Pair

/-! ### Two endpoints -/

namespace Net

/-- The next thing that happens at `s` without faults. -/
def next (self : Party) (st : Net) (s : End) : Option Label :=
  match st.proc s, st.proc s.peer with
  | some (.ask op _), some q =>
    (self.answer (st.trace s) ⟨q, st.trace s.peer⟩ op).map fun r => .answer s ⟨op, r⟩ 0
  | _, _ => none

/-- What happens on `c` without faults: the dialling end goes on whenever it can. -/
def playOut (w : World) (a b : Party) (c : Conn) : Nat → Net → List Label
  | 0, _ => []
  | fuel + 1, st =>
    match st.next a (c, .dialer) <|> st.next b (c, .acceptor) with
    | none => []
    | some l =>
      match st.step w l with
      | none => []
      | some st' => l :: playOut w a b c fuel st'

end Net

/-! Two honest endpoints that trust each other; a signature is the key in front of the message. -/

namespace Duo

def alice : EndpointId := ⟨List.replicate 32 1, rfl⟩

def bob : EndpointId := ⟨List.replicate 32 2, rfl⟩

/-- No message in these runs is malformed. -/
def postcard (_ : PostcardError) : String := "malformed message"

def verifier : InstitutionVerifier := .hyde (.new ((Roster.new.insert [1] "alice").insert [2] "bob"))

def node (key : Bytes) (maxSkewSecs : Option UInt64) : Node :=
  ⟨⟨key⟩, verifier, AuthProtocol.incoming.withMaxSkew maxSkewSecs, verifier,
    (MutualAuthProtocol.ofMutual ⟨key⟩).withMaxSkew maxSkewSecs⟩

def world (maxSkewSecs : Option UInt64) : World where
  crypto :=
    { verifySignature := fun _ key message signature => .ok (decide (signature = key ++ message))
      fromBytes := .ok
      verifyStrict := fun _ _ _ => false }
  node x := if x = alice then some (node [1] maxSkewSecs) else if x = bob then some (node [2] maxSkewSecs) else none

/-- The endpoint `x` with the key `[k]`, all of whose clock readings are `now`. -/
def party (x : EndpointId) (k : UInt8) (now : UInt64) : Party where
  nonce := ⟨List.replicate 32 (k + 4), by simp [NONCE_LEN]⟩
  clock _ := now
  sign message := .ok ([k] ++ message)
  verify := verifier.verify (world none).crypto
  localId := some x
  display errorCode _ := "closed by peer: " ++ toString errorCode.val

/-- Alice dials Bob. -/
def conn (mode : Mode) : Conn := ⟨alice, ⟨bob, ∅⟩, mode, 0⟩

/-- A call of Alice's `before_connect` leads to a handshake, which goes through without faults. -/
def labels (mode : Mode) : List Label :=
  let opening := [.publish bob, .gate alice mode (.call ⟨bob, ∅⟩), .gate alice mode (.send 0), .recv alice mode 0,
    .accept (conn mode)]
  match Net.init.run (world none) opening with
  | none => []
  | some st => opening ++ st.playOut (world none) (party alice 1 1000) (party bob 2 1000) (conn mode) 40

end Duo

end IrohHydeAuth
