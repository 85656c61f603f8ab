import IrohHydeAuth.Network

/-!
# What every reachable state satisfies

The invariant `Net.Sound` has four parts, each kept by every step.

* `Sessions`: every trace is a path of the program that runs at its end.
* `Streams`: an end has read only what the other end sent, and an honest end sent only what it wrote.
* `Answered`: the answers of verifiers, of the published id and of close frames are what they should be.
* `Recorded`: the sets of allowed remotes hold exactly what sessions inserted and tasks completed.
-/

namespace IrohHydeAuth

open Process Prog

namespace Net

variable {w : World} {st st' : Net}

/-! ### Traces and effects -/

@[simp] theorem trace_setGate (e : EndpointId) (mode : Mode) (a : Authenticator Conn) (s : End) :
    (st.setGate e mode a).trace s = st.trace s := rfl

@[simp] theorem trace_spawn (s s' : End) : (st.spawn w s').trace s = st.trace s := rfl

theorem trace_record (s s' : End) (ev : Event Resp) (q : Session) :
    (st.record s' ev q).trace s = st.trace s ++ if s' = s then [ev] else [] := by
  simp only [trace, record, List.filter_append, List.map_append]
  by_cases h : s' = s
  · simp [h]
  · simp [h]

@[simp] theorem effect_log (s : End) (delivered : Nat) (ev : Event Resp) :
    (st.effect s delivered ev).log = st.log := by
  unfold effect
  split
  · rfl
  · rfl
  · split
    · rfl
    · rfl
  · rfl

@[simp] theorem effect_proc (s : End) (delivered : Nat) (ev : Event Resp) :
    (st.effect s delivered ev).proc = st.proc := by
  unfold effect
  split
  · rfl
  · rfl
  · split
    · rfl
    · rfl
  · rfl

@[simp] theorem effect_localId (s : End) (delivered : Nat) (ev : Event Resp) :
    (st.effect s delivered ev).localId = st.localId := by
  unfold effect
  split
  · rfl
  · rfl
  · split
    · rfl
    · rfl
  · rfl

@[simp] theorem trace_effect (s s' : End) (delivered : Nat) (ev : Event Resp) :
    (st.effect s' delivered ev).trace s = st.trace s := by
  rw [trace, effect_log, trace]

/-- Only the session that is answered has done something. -/
theorem trace_answer (s s' : End) (delivered : Nat) (ev : Event Resp) (q : Session) :
    ((st.effect s' delivered ev).record s' ev q).trace s = st.trace s ++ if s' = s then [ev] else [] := by
  rw [trace_record, trace_effect]

/-- A trace only grows. -/
theorem Steps.trace_mono (h : Steps w st st') (s : End) : st.trace s <+: st'.trace s := by
  cases h with
  | gate => exact List.prefix_rfl
  | start => exact List.prefix_rfl
  | publish => exact List.prefix_rfl
  | accept => exact List.prefix_rfl
  | answer =>
    rw [trace_answer]
    exact List.prefix_append _ _
  | attack => exact List.prefix_rfl

/-- An event that was not there before is the answer just given. -/
theorem Steps.mem_trace (h : Steps w st st') {s : End} {ev : Event Resp} (hm : ev ∈ st'.trace s) :
    ev ∈ st.trace s ∨ st.allows w s ev = true ∧ ∃ delivered q, st' = (st.effect s delivered ev).record s ev q := by
  cases h with
  | gate => exact .inl hm
  | start => exact .inl hm
  | publish => exact .inl hm
  | accept => exact .inl hm
  | @answer s' ev' delivered p q hp hq hallows =>
    rw [trace_answer] at hm
    rcases List.mem_append.1 hm with hold | hnew
    · exact .inl hold
    · by_cases he : s' = s
      · subst he
        rw [if_pos rfl, List.mem_singleton] at hnew
        exact .inr ⟨hnew ▸ hallows, delivered, q, hnew ▸ rfl⟩
      · rw [if_neg he] at hnew
        cases hnew
  | attack => exact .inl hm

/-- An event that was not there before is the answer just given. -/
theorem answer_of_mem {l : Label} (h : st.step w l = some st') {s : End} {ev : Event Resp} (hm : ev ∈ st'.trace s) :
    ev ∈ st.trace s ∨ ∃ delivered, l = .answer s ev delivered := by
  cases l with
  | gate e mode act =>
    obtain ⟨-, -, a, -, rfl⟩ := step_gate h
    exact .inl hm
  | recv e mode serial =>
    obtain ⟨addr, v, queue, a, -, -, -, -, rfl⟩ := step_recv h
    refine .inl ?_
    split at hm
    · exact hm
    · exact hm
  | join e mode c =>
    obtain ⟨res, a, -, -, rfl⟩ := step_join h
    exact .inl hm
  | publish e =>
    obtain ⟨-, rfl⟩ := step_publish h
    exact .inl hm
  | accept c =>
    obtain ⟨-, -, rfl⟩ := step_accept h
    exact .inl hm
  | answer s' ev' delivered =>
    obtain ⟨p, q, -, -, -, rfl⟩ := step_answer h
    rw [trace_answer] at hm
    rcases List.mem_append.1 hm with hold | hnew
    · exact .inl hold
    · split at hnew
      · rw [List.mem_singleton] at hnew
        subst hnew ‹s' = s›
        exact .inr ⟨delivered, rfl⟩
      · cases hnew
  | attack s' bytes =>
    obtain ⟨-, rfl⟩ := step_attack h
    exact .inl hm

/-- A session stays where it is until it gets an answer. -/
theorem proc_of_step {l : Label} (h : st.step w l = some st') {s : End} {p : Session} (hp : st.proc s = some p) :
    st'.proc s = some p ∨ ∃ ev delivered q, l = .answer s ev delivered ∧ p.advance ev = some q := by
  have hspawn : ∀ (st : Net) {s' : End}, st.proc s = some p → st.proc s' = none → (st.spawn w s').proc s = some p := by
    intro st s' hp hfresh
    have hne : s ≠ s' := by
      rintro rfl
      simp [hp] at hfresh
    simpa [Net.spawn, hne] using hp
  cases l with
  | gate e mode act =>
    obtain ⟨-, -, a, -, rfl⟩ := step_gate h
    exact .inl hp
  | recv e mode serial =>
    obtain ⟨addr, v, queue, a, -, -, hfresh, -, rfl⟩ := step_recv h
    refine .inl ?_
    split
    · exact hspawn (st.setGate e mode a) hp hfresh
    · exact hp
  | join e mode c =>
    obtain ⟨res, a, -, -, rfl⟩ := step_join h
    exact .inl hp
  | publish e =>
    obtain ⟨-, rfl⟩ := step_publish h
    exact .inl hp
  | accept c =>
    obtain ⟨-, hfresh, rfl⟩ := step_accept h
    exact .inl (hspawn st hp hfresh)
  | answer s' ev delivered =>
    obtain ⟨p', q, hp', hq, -, rfl⟩ := step_answer h
    by_cases hs : s = s'
    · subst hs
      rw [hp] at hp'
      cases hp'
      exact .inr ⟨ev, delivered, q, rfl, hq⟩
    · exact .inl (by simpa [record, hs] using hp)
  | attack s' bytes =>
    obtain ⟨-, rfl⟩ := step_attack h
    exact .inl hp

/-- A session at an accepting end was there before, or the connection has just been accepted. -/
theorem accept_of_proc {l : Label} (h : st.step w l = some st') {c : Conn} (hp : st'.proc (c, .acceptor) ≠ none) :
    st.proc (c, .acceptor) ≠ none ∨ l = .accept c := by
  cases l with
  | gate e mode act =>
    obtain ⟨-, -, a, -, rfl⟩ := step_gate h
    exact .inl hp
  | recv e mode serial =>
    obtain ⟨addr, v, queue, a, -, -, -, -, rfl⟩ := step_recv h
    refine .inl ?_
    split at hp
    · simpa [Net.spawn, setGate] using hp
    · exact hp
  | join e mode c' =>
    obtain ⟨res, a, -, -, rfl⟩ := step_join h
    exact .inl hp
  | publish e =>
    obtain ⟨-, rfl⟩ := step_publish h
    exact .inl hp
  | accept c' =>
    obtain ⟨-, -, rfl⟩ := step_accept h
    by_cases hc : c = c'
    · exact .inr (hc ▸ rfl)
    · exact .inl (by simpa [Net.spawn, hc] using hp)
  | answer s' ev' delivered =>
    obtain ⟨p, q, hp', -, -, rfl⟩ := step_answer h
    refine .inl ?_
    by_cases hs : (c, Side.acceptor) = s'
    · rw [hs, hp']
      simp
    · simpa [record, hs] using hp
  | attack s' bytes =>
    obtain ⟨-, rfl⟩ := step_attack h
    exact .inl hp

/-! ### Sessions -/

/-- Every trace is a path of the program at its end. -/
structure Sessions (w : World) (st : Net) : Prop where
  idle : ∀ s, st.proc s = none → st.trace s = []
  path : ∀ s q, st.proc s = some q → ∃ p, w.program s = some p ∧ Path p (st.trace s) q

theorem sessions_init (w : World) : Sessions w init where
  idle _ _ := rfl
  path _ _ := nofun

private theorem Sessions.spawn (hs : Sessions w st) {s : End} (hfresh : st.proc s = none) :
    Sessions w (st.spawn w s) := by
  refine ⟨?_, ?_⟩
  · intro s' h
    by_cases he : s' = s
    · rw [he]
      exact hs.idle s hfresh
    · exact hs.idle s' (by simpa [Net.spawn, he] using h)
  · intro s' q h
    by_cases he : s' = s
    · subst he
      have hq : w.program s' = some q := by simpa [Net.spawn] using h
      refine ⟨q, hq, ?_⟩
      rw [trace_spawn, hs.idle s' hfresh]
      exact .nil q
    · exact hs.path s' q (by simpa [Net.spawn, he] using h)

theorem Sessions.step (hs : Sessions w st) (h : Steps w st st') : Sessions w st' := by
  cases h with
  | gate => exact ⟨hs.idle, hs.path⟩
  | @start c a hstep htasks hfresh =>
    have hs' : Sessions w (st.setGate c.dialer c.mode a) := ⟨hs.idle, hs.path⟩
    exact hs'.spawn hfresh
  | publish => exact ⟨hs.idle, hs.path⟩
  | accept hfresh => exact hs.spawn hfresh
  | @answer s ev delivered p q hp hq hallows =>
    refine ⟨?_, ?_⟩
    · intro s' h
      by_cases he : s' = s
      · simp [record, he] at h
      · rw [trace_answer, if_neg (Ne.symm he), List.append_nil]
        exact hs.idle s' (by simpa [record, he] using h)
    · intro s' q' h
      rw [trace_answer]
      by_cases he : s' = s
      · subst he
        have hq' : q = q' := by simpa [record] using h
        obtain ⟨p₀, hp₀, hpath⟩ := hs.path s' p hp
        rw [if_pos rfl, ← hq']
        exact ⟨p₀, hp₀, hpath.advance hq⟩
      · rw [if_neg (Ne.symm he), List.append_nil]
        exact hs.path s' q' (by simpa [record, he] using h)
  | attack => exact ⟨hs.idle, hs.path⟩

/-! ### Streams -/

/-- Bytes arrive in order and come from the other end. -/
structure Streams (w : World) (st : Net) : Prop where
  /-- An end has read only what the other end sent. -/
  reads : ∀ s, reads (st.trace s) <+: st.sent s.peer
  /-- An honest end sent only what it wrote. -/
  sent : ∀ s, (w.program s).isSome = true → st.sent s <+: written (st.trace s)
  /-- It sent all of that as long as no write has failed. -/
  whole : ∀ s, (w.program s).isSome = true → st.broken s = false → st.sent s = written (st.trace s)

theorem streams_init (w : World) : Streams w init where
  reads _ := List.nil_prefix
  sent _ _ := List.nil_prefix
  whole _ _ _ := rfl

theorem effect_other {s s' : End} (hne : s' ≠ s) (delivered : Nat) (ev : Event Resp) :
    (st.effect s delivered ev).sent s' = st.sent s' ∧ (st.effect s delivered ev).broken s' = st.broken s' := by
  unfold effect
  split
  · simp [hne]
  · split
    · simp [hne]
    · simp [hne]
  · split
    · simp
    · simp [setGate]
  · simp

/-- At its own end an event sends what it writes, unless it is a failed write, which sends a part of it. -/
private theorem effect_self {s : End} {ev : Event Resp} (delivered : Nat) (hallows : st.allows w s ev = true) :
    ((st.effect s delivered ev).sent s = st.sent s ++ eventWrites ev ∧
        (st.effect s delivered ev).broken s = st.broken s ∧ (eventWrites ev ≠ [] → st.broken s = false)) ∨
      ((st.effect s delivered ev).broken s = true ∧
        (st.broken s = true ∧ (st.effect s delivered ev).sent s = st.sent s ∨
          st.broken s = false ∧ (st.effect s delivered ev).sent s = st.sent s ++ (eventWrites ev).take delivered)) := by
  obtain ⟨op, r⟩ := ev
  cases op with
  | writeAll bytes =>
    cases r with
    | ok _ =>
      have hb : st.broken s = false := by simpa [allows] using hallows
      exact .inl (by simp [effect, eventWrites, hb])
    | error e =>
      cases hb : st.broken s with
      | true => exact .inr (by simp [effect, hb])
      | false => exact .inr (by simp [effect, eventWrites, hb])
  | insert x => cases hm : s.1.mode <;> exact .inl (by simp [effect, eventWrites, hm, setGate])
  | _ => exact .inl (by simp [effect, eventWrites])

private theorem effect_sent_mono {s : End} {ev : Event Resp} (delivered : Nat) (hallows : st.allows w s ev = true)
    (s' : End) : st.sent s' <+: (st.effect s delivered ev).sent s' := by
  by_cases hne : s' = s
  · subst hne
    rcases effect_self delivered hallows with ⟨hsent, -⟩ | ⟨-, ⟨-, hsent⟩ | ⟨-, hsent⟩⟩
    all_goals simp [hsent]
  · rw [(effect_other hne delivered ev).1]

private theorem reads_answer (hs : Streams w st) {s : End} {ev : Event Resp} (hallows : st.allows w s ev = true) :
    IrohHydeAuth.reads (st.trace s ++ [ev]) <+: st.sent s.peer := by
  have hread : eventReads ev = [] ∨ IrohHydeAuth.reads (st.trace s) ++ eventReads ev <+: st.sent s.peer := by
    obtain ⟨op, r⟩ := ev
    cases op with
    | readExact n =>
      cases r with
      | ok buf => exact .inr (by simpa [allows, eventReads] using hallows)
      | error e => exact .inl rfl
    | _ => exact .inl rfl
  rw [reads_append, reads_cons, reads_nil, List.append_nil]
  rcases hread with hread | hread
  · rw [hread, List.append_nil]
    exact hs.reads s
  · exact hread

private theorem Streams.answer (hs : Streams w st) {s : End} {ev : Event Resp} {delivered : Nat} {q : Session}
    (hallows : st.allows w s ev = true) : Streams w ((st.effect s delivered ev).record s ev q) := by
  refine ⟨?_, ?_, ?_⟩
  · intro s'
    refine List.IsPrefix.trans ?_ (effect_sent_mono delivered hallows s'.peer)
    rw [trace_answer]
    by_cases hne : s = s'
    · subst hne
      rw [if_pos rfl]
      exact reads_answer hs hallows
    · rw [if_neg hne, List.append_nil]
      exact hs.reads s'
  · intro s' hh
    show (st.effect s delivered ev).sent s' <+: _
    rw [trace_answer]
    by_cases hne : s = s'
    · subst hne
      rw [if_pos rfl, written_append, written_cons, written_nil, List.append_nil]
      rcases effect_self delivered hallows with ⟨hsent, -, hw⟩ | ⟨-, ⟨-, hsent⟩ | ⟨hb, hsent⟩⟩
      · rw [hsent]
        by_cases hn : eventWrites ev = []
        · simpa [hn] using hs.sent s hh
        · rw [hs.whole s hh (hw hn)]
      · rw [hsent]
        exact (hs.sent s hh).trans (List.prefix_append _ _)
      · rw [hsent, hs.whole s hh hb]
        exact (List.prefix_append_right_inj _).2 (List.take_prefix _ _)
    · rw [if_neg hne, List.append_nil, (effect_other (Ne.symm hne) delivered ev).1]
      exact hs.sent s' hh
  · intro s' hh hb
    have hb : (st.effect s delivered ev).broken s' = false := hb
    show (st.effect s delivered ev).sent s' = _
    rw [trace_answer]
    by_cases hne : s = s'
    · subst hne
      rw [if_pos rfl, written_append, written_cons, written_nil, List.append_nil]
      rcases effect_self delivered hallows with ⟨hsent, hbr, -⟩ | ⟨hbr, -⟩
      · rw [hsent, hs.whole s hh (hbr ▸ hb)]
      · rw [hbr] at hb
        cases hb
    · have ho : (st.effect s delivered ev).sent s' = st.sent s' ∧ (st.effect s delivered ev).broken s' = st.broken s' :=
        effect_other (Ne.symm hne) delivered ev
      rw [if_neg hne, List.append_nil, ho.1]
      exact hs.whole s' hh (ho.2 ▸ hb)

theorem Streams.step (hs : Streams w st) (h : Steps w st st') : Streams w st' := by
  cases h with
  | gate => exact ⟨hs.reads, hs.sent, hs.whole⟩
  | start => exact ⟨hs.reads, hs.sent, hs.whole⟩
  | publish => exact ⟨hs.reads, hs.sent, hs.whole⟩
  | accept => exact ⟨hs.reads, hs.sent, hs.whole⟩
  | answer hp hq hallows => exact hs.answer hallows
  | @attack s bytes hattacker =>
    have hother : ∀ s', (w.program s').isSome = true → s' ≠ s := by
      rintro s' hh rfl
      rw [hattacker] at hh
      cases hh
    refine ⟨?_, ?_, ?_⟩
    · intro s'
      refine (hs.reads s').trans ?_
      by_cases hne : s'.peer = s
      · simp [hne]
      · simp [hne]
    · intro s' hh
      simp only [Function.update_of_ne (hother s' hh)]
      exact hs.sent s' hh
    · intro s' hh hb
      simp only [Function.update_of_ne (hother s' hh)]
      exact hs.whole s' hh hb

/-! ### Answers -/

/-- The answers that are not arbitrary. -/
structure Answered (w : World) (st : Net) : Prop where
  verified : ∀ s key message signature res, ⟨.verify key message signature, res⟩ ∈ st.trace s →
    (w.verifier s).map (·.verify w.crypto key message signature) = some res
  published : ∀ e x, st.localId e = some x → x = e
  localId : ∀ s x, ⟨.localId, some x⟩ ∈ st.trace s → x = s.owner
  /-- A close code comes from the code at the other end, if that is honest. -/
  closed : ∀ s code reason, ⟨.closed, .applicationClosed code reason⟩ ∈ st.trace s →
    (w.program s.peer).isSome = true → code.val = 0 ∨ ∃ c r, ⟨.close c r, ()⟩ ∈ st.trace s.peer ∧ c.toNat = code.val

theorem answered_init (w : World) : Answered w init where
  verified _ _ _ _ _ := nofun
  published _ _ := nofun
  localId _ _ := nofun
  closed _ _ _ := nofun

theorem Answered.step (ha : Answered w st) (h : Steps w st st') : Answered w st' := by
  refine ⟨?_, ?_, ?_, ?_⟩
  · intro s key message signature res hm
    rcases h.mem_trace hm with hm | ⟨hallows, -⟩
    · exact ha.verified s key message signature res hm
    · simpa [allows] using hallows
  · intro e x hx
    cases h with
    | gate => exact ha.published e x hx
    | start => exact ha.published e x hx
    | @publish e' =>
      by_cases he : e = e'
      · subst he
        simpa using hx.symm
      · exact ha.published e x (by simpa [he] using hx)
    | accept => exact ha.published e x hx
    | answer =>
      refine ha.published e x ?_
      simpa [record] using hx
    | attack => exact ha.published e x hx
  · intro s x hm
    rcases h.mem_trace hm with hm | ⟨hallows, -⟩
    · exact ha.localId s x hm
    · have hx : some x = st.localId s.owner := by simpa [allows] using hallows
      exact ha.published _ _ hx.symm
  · intro s code reason hm hh
    rcases h.mem_trace hm with hm | ⟨hallows, -⟩
    · refine (ha.closed s code reason hm hh).imp_right ?_
      rintro ⟨c, r, hm, hc⟩
      exact ⟨c, r, (h.trace_mono _).subset hm, hc⟩
    · simp only [allows, Bool.or_eq_true, Option.isNone_iff_eq_none, decide_eq_true_eq, List.any_eq_true,
        beq_iff_eq] at hallows
      rcases hallows with (hn | hz) | ⟨c, hc, hv⟩
      · rw [hn] at hh
        cases hh
      · exact .inl hz
      · obtain ⟨r, hr⟩ := mem_closeCodes.1 hc
        exact .inr ⟨c, r, (h.trace_mono _).subset hr, hv⟩

/-! ### The sets of allowed remotes -/

theorem effect_gate_cases (s : End) (delivered : Nat) (ev : Event Resp) :
    (∃ x, ev = ⟨.insert x, ()⟩ ∧ s.1.mode = .twoWay ∧
        st.effect s delivered ev = st.setGate s.owner .twoWay ((st.gate s.owner .twoWay).insert x)) ∨
      (st.effect s delivered ev).gate = st.gate := by
  obtain ⟨op, r⟩ := ev
  cases op with
  | insert x =>
    cases hm : s.1.mode with
    | oneWay => exact .inr (by simp [effect, hm])
    | twoWay => exact .inl ⟨x, rfl, rfl, by simp [effect, hm]⟩
  | writeAll bytes => cases r <;> exact .inr rfl
  | _ => exact .inr rfl

theorem effect_incoming_cases (s : End) (delivered : Nat) (ev : Event Resp) :
    (∃ x, ev = ⟨.insert x, ()⟩ ∧ s.1.mode = .oneWay ∧ (st.effect s delivered ev).incoming =
        Function.update st.incoming s.owner (insert x (st.incoming s.owner))) ∨
      (st.effect s delivered ev).incoming = st.incoming := by
  obtain ⟨op, r⟩ := ev
  cases op with
  | insert x =>
    cases hm : s.1.mode with
    | oneWay => exact .inl ⟨x, rfl, rfl, by simp [effect, hm]⟩
    | twoWay => exact .inr (by simp [effect, hm, setGate])
  | writeAll bytes => cases r <;> exact .inr rfl
  | _ => exact .inr rfl

theorem setGate_self (e : EndpointId) (mode : Mode) (a : Authenticator Conn) :
    (st.setGate e mode a).gate e mode = a := by
  simp [setGate]

theorem setGate_other {e e' : EndpointId} {mode mode' : Mode} (a : Authenticator Conn) (h : ¬ (e' = e ∧ mode' = mode)) :
    (st.setGate e mode a).gate e' mode' = st.gate e' mode' := by
  by_cases he : e' = e
  · subst he
    have hm : mode' ≠ mode := fun hm => h ⟨rfl, hm⟩
    simp [setGate, hm]
  · simp [setGate, he]

/-- What a step means to one gate: nothing, or one action.  It joins a handshake that has returned, it starts one on
a connection of its own, and only a session of the mutual mode inserts into its set. -/
theorem Steps.gate_cases (h : Steps w st st') (e : EndpointId) (mode : Mode) :
    st'.gate e mode = st.gate e mode ∨
      ∃ act, (st.gate e mode).step mode act = some (st'.gate e mode) ∧
        (∀ x, act = .insert x → ∃ s : End, s.owner = e ∧ s.1.mode = .twoWay ∧ ⟨.insert x, ()⟩ ∈ st'.trace s) ∧
        (∀ c res, act = .join c res → st.proc (c, .dialer) = some (ret res)) ∧
        ∀ t ∈ (st'.gate e mode).task.tasks, t ∈ (st.gate e mode).task.tasks ∨
          t.1.dialer = e ∧ t.1.mode = mode ∧ t.1.target = t.2 := by
  cases h with
  | @gate e' mode' act a hstep hinsert htasks hjoin =>
    by_cases heq : e = e' ∧ mode = mode'
    · obtain ⟨rfl, rfl⟩ := heq
      rw [setGate_self]
      exact .inr ⟨act, hstep, fun x hx => absurd hx (hinsert x), hjoin, fun t ht => .inl (htasks t ht)⟩
    · exact .inl (setGate_other a heq)
  | @start c a hstep htasks hfresh =>
    by_cases heq : e = c.dialer ∧ mode = c.mode
    · obtain ⟨rfl, rfl⟩ := heq
      have hg : ((st.setGate c.dialer c.mode a).spawn w (c, .dialer)).gate c.dialer c.mode = a := setGate_self _ _ _
      rw [hg]
      refine .inr ⟨_, hstep, nofun, nofun, fun t ht => (htasks t ht).imp_right ?_⟩
      rintro rfl
      exact ⟨rfl, rfl, rfl⟩
    · exact .inl (setGate_other a heq)
  | publish => exact .inl rfl
  | accept => exact .inl rfl
  | @answer s ev delivered p q hp hq hallows =>
    rcases effect_gate_cases s delivered ev with ⟨x, rfl, hm, heff⟩ | heff
    · rw [heff]
      by_cases heq : e = s.owner ∧ mode = .twoWay
      · obtain ⟨rfl, rfl⟩ := heq
        have hg : ((st.setGate s.owner .twoWay ((st.gate s.owner .twoWay).insert x)).record s ⟨.insert x, ()⟩ q).gate
            s.owner .twoWay = (st.gate s.owner .twoWay).insert x := setGate_self _ _ _
        rw [hg]
        refine .inr ⟨.insert x, rfl, ?_, nofun, fun t ht => .inl ht⟩
        rintro y ⟨⟩
        exact ⟨s, rfl, hm, by simp [trace_record]⟩
      · exact .inl (setGate_other _ heq)
    · refine .inl ?_
      show (st.effect s delivered ev).gate e mode = _
      rw [heff]
  | attack => exact .inl rfl

/-- A session that has returned stays so. -/
theorem Steps.proc_ret (h : Steps w st st') {s : End} {r : Except Error Unit} (hp : st.proc s = some (ret r)) :
    st'.proc s = some (ret r) := by
  have hspawn : ∀ {st : Net} {s' : End}, st.proc s = some (ret r) → st.proc s' = none →
      (st.spawn w s').proc s = some (ret r) := by
    intro st s' hp hfresh
    have hne : s ≠ s' := by
      rintro rfl
      rw [hp] at hfresh
      cases hfresh
    simpa [Net.spawn, hne] using hp
  cases h with
  | gate => exact hp
  | start hstep htasks hfresh => exact hspawn hp hfresh
  | publish => exact hp
  | accept hfresh => exact hspawn hp hfresh
  | @answer s' ev delivered p q hp' hq hallows =>
    have hne : s ≠ s' := by
      rintro rfl
      rw [hp] at hp'
      cases hp'
      cases hq
    simpa [record, hne] using hp
  | attack => exact hp

/-- The gates and the sets of allowed remotes. -/
structure Recorded (st : Net) : Prop where
  /-- Every gate is in a state that its own actions lead to. -/
  reachable : ∀ e mode, ∃ acts, Authenticator.init.run mode acts = some (st.gate e mode)
  tasks : ∀ e mode, ∀ t ∈ (st.gate e mode).task.tasks, t.1.dialer = e ∧ t.1.mode = mode ∧ t.1.target = t.2
  /-- A handshake that was joined has returned what it was joined with. -/
  completed : ∀ e mode, ∀ t ∈ (st.gate e mode).completed,
    (t.1.dialer = e ∧ t.1.mode = mode ∧ t.1.target = t.2.1) ∧ st.proc (t.1, .dialer) = some (ret t.2.2)
  inserted : ∀ e mode, ∀ x ∈ (st.gate e mode).inserted,
    ∃ s : End, s.owner = e ∧ s.1.mode = .twoWay ∧ ⟨.insert x, ()⟩ ∈ st.trace s
  shared : ∀ (s : End) (x : EndpointId), s.1.mode = .twoWay → ⟨.insert x, ()⟩ ∈ st.trace s →
    x ∈ (st.gate s.owner .twoWay).task.allowed
  incoming : ∀ e, ∀ x ∈ st.incoming e,
    ∃ s : End, s.owner = e ∧ s.1.mode = .oneWay ∧ ⟨.insert x, ()⟩ ∈ st.trace s
  admitted : ∀ (s : End) (x : EndpointId), s.1.mode = .oneWay → ⟨.insert x, ()⟩ ∈ st.trace s →
    x ∈ st.incoming s.owner

theorem recorded_init : Recorded init where
  reachable _ _ := ⟨[], rfl⟩
  tasks _ _ _ := nofun
  completed _ _ _ := nofun
  inserted _ _ _ := nofun
  shared _ _ _ := nofun
  incoming _ _ := nofun
  admitted _ _ _ := nofun

theorem Recorded.ledger (hr : Recorded st) (e : EndpointId) (mode : Mode) : (st.gate e mode).Ledger := by
  obtain ⟨acts, h⟩ := hr.reachable e mode
  exact Authenticator.ledger_of_run h

theorem Recorded.allowed_mono (hr : Recorded st) (h : Steps w st st') (e : EndpointId) (mode : Mode) :
    (st.gate e mode).task.allowed ⊆ (st'.gate e mode).task.allowed := by
  rcases h.gate_cases e mode with heq | ⟨act, hstep, -⟩
  · rw [heq]
  · exact ((hr.ledger e mode).adds hstep).allowed

theorem Recorded.requests_mono (hr : Recorded st) (h : Steps w st st') (e : EndpointId) (mode : Mode) :
    (st.gate e mode).requests <+: (st'.gate e mode).requests := by
  rcases h.gate_cases e mode with heq | ⟨act, hstep, -⟩
  · rw [heq]
  · exact ((hr.ledger e mode).adds hstep).requests

/-- A waiter is sent `Ok` only for an allowed remote. -/
theorem Recorded.allowed_of_reply (hr : Recorded st) {e : EndpointId} {mode : Mode} {k : Nat} {addr : EndpointAddr}
    (hreq : (st.gate e mode).requests[k]? = some addr) (hk : (k, .ok ()) ∈ (st.gate e mode).replies) :
    addr.id ∈ (st.gate e mode).task.allowed := by
  obtain ⟨acts, hrun⟩ := hr.reachable e mode
  obtain ⟨addr', hreq', hx⟩ := (Authenticator.answers_of_run hrun).ok k hk
  rw [hreq] at hreq'
  cases hreq'
  exact hx

theorem Steps.incoming_mono (h : Steps w st st') (e : EndpointId) : st.incoming e ⊆ st'.incoming e := by
  cases h with
  | gate => exact Finset.Subset.refl _
  | start => exact Finset.Subset.refl _
  | publish => exact Finset.Subset.refl _
  | accept => exact Finset.Subset.refl _
  | @answer s ev delivered p q hp hq hallows =>
    show st.incoming e ⊆ (st.effect s delivered ev).incoming e
    rcases effect_incoming_cases s delivered ev with ⟨x, -, -, hinc⟩ | hinc
    · rw [hinc]
      by_cases he : e = s.owner
      · subst he
        simp
      · simp [he]
    · rw [hinc]
  | attack => exact Finset.Subset.refl _

/-- Only a session of the one-directional mode inserts into the set of `AuthProtocol`. -/
theorem Steps.incoming_cases (h : Steps w st st') {e x : EndpointId} (hx : x ∈ st'.incoming e) :
    x ∈ st.incoming e ∨ ∃ s : End, s.owner = e ∧ s.1.mode = .oneWay ∧ ⟨.insert x, ()⟩ ∈ st'.trace s := by
  cases h with
  | gate => exact .inl hx
  | start => exact .inl hx
  | publish => exact .inl hx
  | accept => exact .inl hx
  | @answer s ev delivered p q hp hq hallows =>
    have hx : x ∈ (st.effect s delivered ev).incoming e := hx
    rcases effect_incoming_cases s delivered ev with ⟨y, rfl, hm, hinc⟩ | hinc
    · rw [hinc] at hx
      by_cases he : e = s.owner
      · subst he
        rw [Function.update_self, Finset.mem_insert] at hx
        rcases hx with rfl | hx
        · exact .inr ⟨s, rfl, hm, by simp [trace_answer]⟩
        · exact .inl hx
      · rw [Function.update_of_ne he] at hx
        exact .inl hx
    · rw [hinc] at hx
      exact .inl hx
  | attack => exact .inl hx

theorem Recorded.step (hr : Recorded st) (h : Steps w st st') : Recorded st' := by
  refine ⟨?_, ?_, ?_, ?_, ?_, ?_, ?_⟩
  · intro e mode
    obtain ⟨acts, hrun⟩ := hr.reachable e mode
    rcases h.gate_cases e mode with heq | ⟨act, hstep, -⟩
    · exact ⟨acts, heq ▸ hrun⟩
    · exact ⟨acts ++ [act], Authenticator.run_snoc hrun hstep⟩
  · intro e mode t ht
    rcases h.gate_cases e mode with heq | ⟨act, -, -, -, htasks⟩
    · exact hr.tasks e mode t (heq ▸ ht)
    · rcases htasks t ht with ht | ht
      · exact hr.tasks e mode t ht
      · exact ht
  · intro e mode t ht
    have hold : t ∈ (st.gate e mode).completed → (t.1.dialer = e ∧ t.1.mode = mode ∧ t.1.target = t.2.1) ∧
        st'.proc (t.1, .dialer) = some (ret t.2.2) := fun ht =>
      ⟨(hr.completed e mode t ht).1, h.proc_ret (hr.completed e mode t ht).2⟩
    rcases h.gate_cases e mode with heq | ⟨act, hstep, -, hjoin, -⟩
    · exact hold (heq ▸ ht)
    · rcases Authenticator.completed_of_step hstep ht with ht | ⟨hact, ht⟩
      · exact hold ht
      · exact ⟨hr.tasks e mode _ ht, h.proc_ret (hjoin _ _ hact)⟩
  · intro e mode x hx
    have hold : x ∈ (st.gate e mode).inserted →
        ∃ s : End, s.owner = e ∧ s.1.mode = .twoWay ∧ ⟨.insert x, ()⟩ ∈ st'.trace s := by
      intro hx
      obtain ⟨s, ho, hm, hs⟩ := hr.inserted e mode x hx
      exact ⟨s, ho, hm, (h.trace_mono s).subset hs⟩
    rcases h.gate_cases e mode with heq | ⟨act, hstep, hinsert, -⟩
    · exact hold (heq ▸ hx)
    · rcases Authenticator.inserted_of_step hstep hx with hx | hact
      · exact hold hx
      · exact hinsert x hact
  · intro s x hm hx
    rcases h.mem_trace hx with hx | ⟨-, delivered, q, rfl⟩
    · exact hr.allowed_mono h _ _ (hr.shared s x hm hx)
    · simp [record, effect, hm, setGate, Authenticator.insert]
  · intro e x hx
    rcases h.incoming_cases hx with hx | hx
    · obtain ⟨s, ho, hm, hs⟩ := hr.incoming e x hx
      exact ⟨s, ho, hm, (h.trace_mono s).subset hs⟩
    · exact hx
  · intro s x hm hx
    rcases h.mem_trace hx with hx | ⟨-, delivered, q, rfl⟩
    · exact h.incoming_mono _ (hr.admitted s x hm hx)
    · simp [record, effect, hm]

/-! ### The invariant -/

structure Sound (w : World) (st : Net) : Prop where
  sessions : Sessions w st
  streams : Streams w st
  answered : Answered w st
  recorded : Recorded st

theorem Sound.step (hs : Sound w st) (h : Steps w st st') : Sound w st' :=
  ⟨hs.sessions.step h, hs.streams.step h, hs.answered.step h, hs.recorded.step h⟩

theorem Sound.run (hs : Sound w st) {labels : List Label} (h : st.run w labels = some st') : Sound w st' :=
  run_induction (fun _ _ hs h => hs.step h) hs h

theorem sound_of_run {labels : List Label} (h : init.run w labels = some st) : Sound w st :=
  Sound.run ⟨sessions_init w, streams_init w, answered_init w, recorded_init⟩ h

/-- What is allowed stays allowed. -/
theorem Sound.run_mono (hs : Sound w st) {labels : List Label} (h : st.run w labels = some st') :
    (∀ e mode, (st.gate e mode).task.allowed ⊆ (st'.gate e mode).task.allowed) ∧
      ∀ e, st.incoming e ⊆ st'.incoming e := by
  refine (run_induction (P := fun st' => Sound w st' ∧
    (∀ e mode, (st.gate e mode).task.allowed ⊆ (st'.gate e mode).task.allowed) ∧
      ∀ e, st.incoming e ⊆ st'.incoming e) ?_ ⟨hs, fun _ _ => Finset.Subset.refl _, fun _ => Finset.Subset.refl _⟩
    h).2
  intro st₁ st₂ ⟨hs₁, ha, hi⟩ h
  exact ⟨hs₁.step h, fun e mode => (ha e mode).trans (hs₁.recorded.allowed_mono h e mode),
    fun e => (hi e).trans (h.incoming_mono e)⟩

/-- The path of the session at an honest end. -/
theorem Sound.path (hs : Sound w st) {s : End} {p : Session} (hp : w.program s = some p) :
    ∃ q, Path p (st.trace s) q := by
  cases hq : st.proc s with
  | none =>
    rw [hs.sessions.idle s hq]
    exact ⟨p, .nil p⟩
  | some q =>
    obtain ⟨p', hp', hpath⟩ := hs.sessions.path s q hq
    rw [hp] at hp'
    cases hp'
    exact ⟨q, hpath⟩

/-- A session that has done anything is honest. -/
theorem Sound.program_of_mem (hs : Sound w st) {s : End} {ev : Event Resp} (hm : ev ∈ st.trace s) :
    ∃ p, w.program s = some p := by
  cases hq : st.proc s with
  | none =>
    rw [hs.sessions.idle s hq] at hm
    cases hm
  | some q =>
    obtain ⟨p, hp, -⟩ := hs.sessions.path s q hq
    exact ⟨p, hp⟩

end Net

end IrohHydeAuth
