import IrohHydeAuth.FaultFree
import IrohHydeAuth.Invariants

/-!
# Fault-free handshakes in the network

The steps of a `Pair` are steps of the network: a state that shows both ends of a connection as a pair has them can
follow every step of the pair (`Shows.step`), and so every run (`Shows.run`), by answering the sessions at the two
ends.
-/

namespace IrohHydeAuth

open Process Prog

namespace Net

variable {w : World} {st : Net} {s : End} {player : Party} {me me' peer : Half}

/-- The state `st` has the end `s` of a connection as `me` says, and none of its writes has failed. -/
structure ShowsEnd (st : Net) (s : End) (me : Half) : Prop where
  proc : st.proc s = some me.proc
  trace : st.trace s = me.trace
  sent : st.sent s = written me.trace
  whole : st.broken s = false

/-- What the end `s` brings along is what the world and the state say of it. -/
structure Plays (w : World) (st : Net) (s : End) (player : Party) : Prop where
  verify : (w.verifier s).map (·.verify w.crypto) = some player.verify
  localId : st.localId s.owner = player.localId

private theorem advance_ask {op : Op} {k : Resp op → Session} (r : Resp op) :
    (ask op k).advance ⟨op, r⟩ = some (k r) := by
  simp [advance]

/-- A close code that an end shows was sent by it, unless it is 0. -/
private theorem closeReason_cases (display : VarInt → Bytes → String) (me : Half) :
    (∃ text, me.closeReason display = .applicationClosed ⟨0, Nat.two_pow_pos 62⟩ text) ∨
      ∃ code ∈ closeCodes me.trace, ∃ c text, me.closeReason display = .applicationClosed c text ∧
        code.toNat = c.val := by
  cases hf : me.trace.findSome? (Half.closeOf display) with
  | none => exact .inl ⟨display ⟨0, Nat.two_pow_pos 62⟩ [], by simp [Half.closeReason, hf]⟩
  | some reason =>
    obtain ⟨⟨op, r⟩, hm, he⟩ := List.exists_of_findSome?_eq_some hf
    cases op with
    | close code text =>
      have hreason : me.closeReason display = reason := by simp [Half.closeReason, hf]
      exact .inr ⟨code, mem_closeCodes.2 ⟨text, hm⟩, _, _, hreason.trans (Option.some.inj he).symm, rfl⟩
    | _ => cases he

/-- The network allows what a party without faults is answered. -/
private theorem allows_of_answer (hreads : reads (st.trace s) <+: st.sent s.peer) (hme : st.ShowsEnd s me)
    (hpeer : st.ShowsEnd s.peer peer) (hp : Plays w st s player) {op : Op} {r : Resp op}
    (hr : player.answer me.trace peer op = some r) : st.allows w s ⟨op, r⟩ = true := by
  cases op with
  | readExact n =>
    simp only [Party.answer] at hr
    split at hr
    · obtain ⟨rest, hrest⟩ := hreads
      rw [hpeer.sent, hme.trace] at hrest
      have hbuf : (written peer.trace).drop (reads me.trace).length = rest := by rw [← hrest, List.drop_left]
      rw [← Option.some.inj hr]
      simp only [allows, hpeer.sent, hme.trace, decide_eq_true_eq]
      rw [hbuf, ← hrest]
      exact (List.prefix_append_right_inj _).2 (List.take_prefix _ _)
    · split at hr
      · rw [← Option.some.inj hr]
        rfl
      · cases hr
  | writeAll bytes =>
    cases hr
    simp [allows, hme.whole]
  | verify key message signature =>
    cases hr
    have hv := congrArg (Option.map fun f => f key message signature) hp.verify
    simpa [allows, Function.comp_def] using hv
  | localId =>
    cases hr
    simp [allows, hp.localId]
  | closed =>
    simp only [Party.answer] at hr
    split at hr
    · rw [← Option.some.inj hr]
      rcases closeReason_cases player.display peer with ⟨reason, he⟩ | ⟨code, hcode, c, reason, he, hc⟩
      · simp [allows, he]
      · simp only [allows, he, hpeer.trace, Bool.or_eq_true]
        exact .inr (List.any_eq_true.2 ⟨code, hcode, by simpa using hc⟩)
    · cases hr
  | _ => rfl

/-- Without faults an end sends what it writes. -/
private theorem effect_of_answer (st : Net) (s : End) {h : Trace Resp} {op : Op} {r : Resp op}
    (hr : player.answer h peer op = some r) :
    (st.effect s 0 ⟨op, r⟩).sent s = st.sent s ++ eventWrites ⟨op, r⟩ ∧
      (st.effect s 0 ⟨op, r⟩).broken s = st.broken s := by
  cases op with
  | writeAll bytes =>
    cases hr
    simp [effect, eventWrites]
  | insert x => cases hm : s.1.mode <;> simp [effect, eventWrites, hm, setGate]
  | _ => simp [effect, eventWrites]

private theorem peer_ne (s : End) : s.peer ≠ s := by
  obtain ⟨c, side⟩ := s
  cases side with
  | dialer => simp [End.peer]
  | acceptor => simp [End.peer]

/-- The network can follow the step of one end. -/
private theorem ShowsEnd.step (hs : Sound w st) (hme : st.ShowsEnd s me) (hpeer : st.ShowsEnd s.peer peer)
    (hp : Plays w st s player) (h : player.step peer me = some me') :
    ∃ l st', l.isAnswer = true ∧ st.step w l = some st' ∧ st'.localId = st.localId ∧ st'.ShowsEnd s me' ∧
      st'.ShowsEnd s.peer peer := by
  obtain ⟨op, k, r, hproc, hr, rfl⟩ := Party.step_eq_some h
  have hallows := allows_of_answer (hs.streams.reads s) hme hpeer hp hr
  obtain ⟨hsent, hbroken⟩ := effect_of_answer st s hr
  have hother : (st.effect s 0 ⟨op, r⟩).sent s.peer = st.sent s.peer ∧
      (st.effect s 0 ⟨op, r⟩).broken s.peer = st.broken s.peer := effect_other (peer_ne s) 0 ⟨op, r⟩
  refine ⟨.answer s ⟨op, r⟩ 0, (st.effect s 0 ⟨op, r⟩).record s ⟨op, r⟩ (k r), rfl, ?_, ?_, ?_, ?_⟩
  · simp [Net.step, hme.proc, hproc, advance_ask, hallows]
  · exact effect_localId s 0 _
  · refine ⟨by simp [record], ?_, ?_, ?_⟩
    · rw [trace_answer, if_pos rfl, hme.trace]
    · show (st.effect s 0 ⟨op, r⟩).sent s = _
      rw [hsent, hme.sent, written_append]
      simp
    · show (st.effect s 0 ⟨op, r⟩).broken s = _
      rw [hbroken, hme.whole]
  · refine ⟨?_, ?_, ?_, ?_⟩
    · simp [record, peer_ne, hpeer.proc]
    · rw [trace_answer, if_neg (Ne.symm (peer_ne s)), List.append_nil, hpeer.trace]
    · show (st.effect s 0 ⟨op, r⟩).sent s.peer = _
      rw [hother.1, hpeer.sent]
    · show (st.effect s 0 ⟨op, r⟩).broken s.peer = _
      rw [hother.2, hpeer.whole]

variable {a b : Party} {c : Conn} {p p' z : Pair}

/-- The state `st` shows the two ends of `c` as the pair `p` of the parties `a` and `b`. -/
structure Shows (w : World) (a b : Party) (c : Conn) (st : Net) (p : Pair) : Prop where
  dialer : st.ShowsEnd (c, .dialer) p.dialer
  acceptor : st.ShowsEnd (c, .acceptor) p.acceptor
  plays_dialer : Plays w st (c, .dialer) a
  plays_acceptor : Plays w st (c, .acceptor) b

private theorem Plays.congr {st' : Net} (hp : Plays w st s player) (hl : st'.localId = st.localId) :
    Plays w st' s player :=
  ⟨hp.verify, by rw [hl, hp.localId]⟩

theorem Shows.step (hs : Sound w st) (hp : Shows w a b c st p) (h : Pair.Step a b p p') :
    ∃ l st', l.isAnswer = true ∧ st.step w l = some st' ∧ Shows w a b c st' p' := by
  cases h with
  | dialer h =>
    obtain ⟨l, st', hl, hstep, hid, hd, ha⟩ := hp.dialer.step hs hp.acceptor hp.plays_dialer h
    exact ⟨l, st', hl, hstep, hd, ha, hp.plays_dialer.congr hid, hp.plays_acceptor.congr hid⟩
  | acceptor h =>
    obtain ⟨l, st', hl, hstep, hid, ha, hd⟩ := hp.acceptor.step hs hp.dialer hp.plays_acceptor h
    exact ⟨l, st', hl, hstep, hd, ha, hp.plays_dialer.congr hid, hp.plays_acceptor.congr hid⟩

/-- The network can follow a pair to wherever it goes. -/
theorem Shows.run (hs : Sound w st) (hp : Shows w a b c st p) (h : Relation.ReflTransGen (Pair.Step a b) p z) :
    ∃ labels st', (∀ l ∈ labels, l.isAnswer = true) ∧ st.run w labels = some st' ∧ Shows w a b c st' z := by
  induction h using Relation.ReflTransGen.head_induction_on generalizing st with
  | refl => exact ⟨[], st, by simp, rfl, hp⟩
  | head hstep _ ih =>
    obtain ⟨l, st₁, hl, hstep₁, hp₁⟩ := hp.step hs hstep
    obtain ⟨labels, st', hlabels, hrun, hz⟩ := ih (hs.step (steps_of_step hstep₁)) hp₁
    exact ⟨l :: labels, st', by simpa using ⟨hl, hlabels⟩, by simp [Net.run, hstep₁, hrun], hz⟩

end Net

end IrohHydeAuth
