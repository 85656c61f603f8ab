import IrohHydeAuth.Progress
import IrohHydeAuth.Authentication

/-!
# The gates get their work done

What the loop of a gate does by itself depends on the sessions: it joins a handshake when that has returned, and how
long this takes is up to the peer.  In the network the own steps of a gate are therefore limited by the work at hand and
the calls made meanwhile; nothing else can keep them from happening; and when none is possible, every call has returned
or waits for a handshake whose session has yet to get an answer (`comes_to_rest`).
-/

namespace IrohHydeAuth

open Process Prog

/-- The steps that the channel and the loop of a gate take by themselves. -/
def Label.isOwn (e : EndpointId) (mode : Mode) : Label → Bool
  | .gate e' mode' act => decide (e = e' ∧ mode = mode') && act.isOwn
  | .recv e' mode' _ | .join e' mode' _ => decide (e = e' ∧ mode = mode')
  | _ => false

/-- A dial that asks the gate. -/
def Label.isCall (e : EndpointId) (mode : Mode) : Label → Bool
  | .gate e' mode' act => decide (e = e' ∧ mode = mode') && act.isCall
  | _ => false

namespace Net

variable {w : World} {st st' : Net} {e : EndpointId} {mode : Mode} {postcard : PostcardError → String}

/-- The handshake on `c` has returned `res`. -/
def Returned (st : Net) (c : Conn) (res : AuthResult) : Prop := st.proc (c, .dialer) = some (ret res)

/-- None of the own steps of the gate is possible. -/
def Rests (w : World) (e : EndpointId) (mode : Mode) (st : Net) : Prop :=
  ∀ l : Label, l.isOwn e mode = true → st.step w l = none

/-- To a gate, a step is one of its actions, which is its own or a call if the step is, or nothing. -/
private theorem gate_of_step {l : Label} (h : st.step w l = some st') (e : EndpointId) (mode : Mode) :
    (l.isOwn e mode = false ∧ l.isCall e mode = false ∧ st'.gate e mode = st.gate e mode) ∨
      ∃ act, act.isOwn = l.isOwn e mode ∧ act.isCall = l.isCall e mode ∧
        (st.gate e mode).step mode act = some (st'.gate e mode) := by
  cases l with
  | gate e' mode' act =>
    obtain ⟨-, -, a, ha, rfl⟩ := step_gate h
    by_cases heq : e = e' ∧ mode = mode'
    · obtain ⟨rfl, rfl⟩ := heq
      exact .inr ⟨act, by simp [Label.isOwn], by simp [Label.isCall], by rw [setGate_self]; exact ha⟩
    · refine .inl ⟨?_, ?_, setGate_other a heq⟩
      · simp only [Label.isOwn, decide_eq_false heq, Bool.false_and]
      · simp only [Label.isCall, decide_eq_false heq, Bool.false_and]
  | recv e' mode' serial =>
    obtain ⟨addr, v, queue, a, -, -, -, ha, rfl⟩ := step_recv h
    have hgate : (if (st.gate e' mode').task.starts addr
        then (st.setGate e' mode' a).spawn w (⟨e', addr, mode', serial⟩, .dialer) else st.setGate e' mode' a).gate =
        (st.setGate e' mode' a).gate := by split <;> rfl
    rw [hgate]
    by_cases heq : e = e' ∧ mode = mode'
    · obtain ⟨rfl, rfl⟩ := heq
      exact .inr ⟨.recv ⟨e, addr, mode, serial⟩, by simp [Label.isOwn, Action.isOwn], rfl, by rw [setGate_self, ha]⟩
    · exact .inl ⟨decide_eq_false heq, rfl, setGate_other a heq⟩
  | join e' mode' c =>
    obtain ⟨res, a, -, ha, rfl⟩ := step_join h
    by_cases heq : e = e' ∧ mode = mode'
    · obtain ⟨rfl, rfl⟩ := heq
      exact .inr ⟨.join c res, by simp [Label.isOwn, Action.isOwn], rfl, by rw [setGate_self, ha]⟩
    · exact .inl ⟨decide_eq_false heq, rfl, setGate_other a heq⟩
  | publish e' =>
    obtain ⟨-, rfl⟩ := step_publish h
    exact .inl ⟨rfl, rfl, rfl⟩
  | accept c =>
    obtain ⟨-, -, rfl⟩ := step_accept h
    exact .inl ⟨rfl, rfl, rfl⟩
  | answer s ev delivered =>
    obtain ⟨p, q, -, -, -, rfl⟩ := step_answer h
    rcases effect_gate_cases s delivered ev with ⟨x, -, -, heff⟩ | heff
    · rw [heff]
      by_cases heq : e = s.owner ∧ mode = .twoWay
      · obtain ⟨rfl, rfl⟩ := heq
        refine .inr ⟨.insert x, rfl, rfl, ?_⟩
        show some _ = some ((st.setGate s.owner .twoWay _).gate s.owner .twoWay)
        rw [setGate_self]
      · exact .inl ⟨rfl, rfl, setGate_other _ heq⟩
    · exact .inl ⟨rfl, rfl, congrFun (congrFun heff e) mode⟩
  | attack s bytes =>
    obtain ⟨-, rfl⟩ := step_attack h
    exact .inl ⟨rfl, rfl, rfl⟩

/-- Own steps lower the workload of the gate, and only calls raise it. -/
private theorem workload_step {l : Label} (h : st.step w l = some st') (e : EndpointId) (mode : Mode) :
    (st'.gate e mode).workload + (if l.isOwn e mode then 1 else 0) ≤
      (st.gate e mode).workload + if l.isCall e mode then 3 else 0 := by
  rcases gate_of_step h e mode with ⟨hown, hcall, heq⟩ | ⟨act, hown, hcall, hact⟩
  · simp [heq, hown, hcall]
  · rw [← hown, ← hcall]
    cases hact' : act.isOwn with
    | true =>
      have hlt := (Authenticator.workload_lt hact' hact).1
      simp only [if_true]
      omega
    | false => simpa using Authenticator.workload_le hact' hact

private theorem own_le {labels : List Label} (h : st.run w labels = some st') (e : EndpointId) (mode : Mode) :
    labels.countP (·.isOwn e mode) + (st'.gate e mode).workload ≤
      (st.gate e mode).workload + 3 * labels.countP (·.isCall e mode) := by
  induction labels generalizing st with
  | nil =>
    cases h
    simp
  | cons l labels ih =>
    obtain ⟨st₁, h₁, h₂⟩ := Option.bind_eq_some_iff.1 h
    have hle := ih h₂
    have hstep := workload_step h₁ e mode
    simp only [List.countP_cons]
    split_ifs at hstep ⊢
    all_goals omega

/-! ### Handshakes in flight have sessions -/

/-- There are connections left, and the handshakes in flight have their sessions. -/
structure Orderly (w : World) (st : Net) : Prop where
  serials : ∃ k, ∀ s : End, k ≤ s.1.serial → st.proc s = none
  tasks : ∀ e mode, ∀ t ∈ (st.gate e mode).task.tasks, (w.program (t.1, .dialer)).isSome = true →
    ∃ p, st.proc (t.1, .dialer) = some p

private theorem orderly_init (w : World) : Orderly w init := ⟨⟨0, fun _ _ => rfl⟩, fun _ _ _ => nofun⟩

private theorem Orderly.spawn (ho : Orderly w st) (s : End) : Orderly w (st.spawn w s) := by
  obtain ⟨k, hk⟩ := ho.serials
  refine ⟨⟨max k (s.1.serial + 1), fun s' hs' => ?_⟩, fun e mode t ht hsome => ?_⟩
  · have hne : s' ≠ s := by
      rintro rfl
      omega
    simpa [Net.spawn, hne] using hk s' (by omega)
  · by_cases hne : (t.1, Side.dialer) = s
    · obtain ⟨p, hp⟩ := Option.isSome_iff_exists.1 hsome
      refine ⟨p, ?_⟩
      simp only [Net.spawn]
      rw [← hne, Function.update_self, hp]
    · obtain ⟨p, hp⟩ := ho.tasks e mode t ht hsome
      exact ⟨p, by simpa [Net.spawn, hne] using hp⟩

/-- A gate that starts no handshake keeps the order. -/
private theorem Orderly.setGate (ho : Orderly w st) {a : Authenticator Conn}
    (htasks : ∀ t ∈ a.task.tasks, (w.program (t.1, .dialer)).isSome = true → ∃ p, st.proc (t.1, .dialer) = some p) :
    Orderly w (st.setGate e mode a) := by
  refine ⟨ho.serials, fun e' mode' t ht hsome => ?_⟩
  by_cases heq : e' = e ∧ mode' = mode
  · obtain ⟨rfl, rfl⟩ := heq
    rw [setGate_self] at ht
    exact htasks t ht hsome
  · rw [setGate_other a heq] at ht
    exact ho.tasks e' mode' t ht hsome

private theorem effect_tasks (s : End) (delivered : Nat) (ev : Event Resp) (e : EndpointId) (mode : Mode) :
    ((st.effect s delivered ev).gate e mode).task.tasks = (st.gate e mode).task.tasks := by
  rcases effect_gate_cases s delivered ev with ⟨x, -, -, heff⟩ | heff
  · rw [heff]
    by_cases heq : e = s.owner ∧ mode = .twoWay
    · obtain ⟨rfl, rfl⟩ := heq
      rw [setGate_self]
      rfl
    · rw [setGate_other _ heq]
  · rw [heff]

private theorem Orderly.step (ho : Orderly w st) (h : Steps w st st') : Orderly w st' := by
  cases h with
  | gate hstep hinsert htasks hjoin => exact ho.setGate fun t ht hsome => ho.tasks _ _ t (htasks t ht) hsome
  | @start c a hstep htasks hfresh =>
    -- the new handshake has its session as soon as it is spawned
    have hother : Orderly w (st.spawn w (c, .dialer)) := ho.spawn _
    refine hother.setGate fun t ht hsome => ?_
    rcases htasks t ht with hold | rfl
    · exact hother.tasks c.dialer c.mode t hold hsome
    · obtain ⟨p, hp⟩ := Option.isSome_iff_exists.1 hsome
      exact ⟨p, by simp [Net.spawn, hp]⟩
  | publish => exact ⟨ho.serials, ho.tasks⟩
  | accept hfresh => exact ho.spawn _
  | @answer s ev delivered p q hp hq hallows =>
    obtain ⟨k, hk⟩ := ho.serials
    refine ⟨⟨max k (s.1.serial + 1), fun s' hs' => ?_⟩, fun e mode t ht hprog => ?_⟩
    · have hne : s' ≠ s := by
        rintro rfl
        omega
      simpa [record, hne] using hk s' (by omega)
    · have ht : t ∈ (st.gate e mode).task.tasks := effect_tasks s delivered ev e mode ▸ ht
      obtain ⟨p', hp'⟩ := ho.tasks e mode t ht hprog
      by_cases hne : (t.1, Side.dialer) = s
      · exact ⟨q, by simp [record, hne]⟩
      · exact ⟨p', by simpa [record, hne] using hp'⟩
  | attack => exact ⟨ho.serials, ho.tasks⟩

private theorem orderly_of_run {labels : List Label} (h : init.run w labels = some st) : Orderly w st :=
  run_induction (fun _ _ ho hs => ho.step hs) (orderly_init w) h

/-- The handshakes of an honest endpoint have sessions. -/
private theorem Orderly.session (ho : Orderly w st) (hs : Sound w st) {n : Node} (hn : w.node e = some n)
    {t : Conn × EndpointAddr} (ht : t ∈ (st.gate e mode).task.tasks) : ∃ p, st.proc (t.1, .dialer) = some p := by
  have hdialer : t.1.dialer = e := (hs.recorded.tasks e mode t ht).1
  refine ho.tasks e mode t ht (program_isSome (n := n) ?_)
  show w.node t.1.dialer = some n
  rw [hdialer, hn]

/-! ### Coming to rest -/

/-- At rest only handshakes that have not returned are left. -/
private theorem Rests.settled {n : Node} (hrest : st.Rests w e mode) (ho : Orderly w st) (hs : Sound w st)
    (hn : w.node e = some n) (hr : (st.gate e mode).running = true) :
    (st.gate e mode).Settled postcard st.Returned := by
  obtain ⟨acts, hacts⟩ := hs.recorded.reachable e mode
  have hqueue : (st.gate e mode).queue = [] := by
    by_contra hq
    obtain ⟨⟨addr, v⟩, queue, hq'⟩ := List.exists_cons_of_ne_nil hq
    -- a connection that nobody uses yet
    obtain ⟨k, hk⟩ := ho.serials
    have hfresh : ∀ t ∈ (st.gate e mode).task.tasks, t.1 ≠ (⟨e, addr, mode, k⟩ : Conn) := by
      intro t ht hc
      obtain ⟨p, hp⟩ := ho.session hs hn ht
      rw [hk _ (by rw [hc])] at hp
      cases hp
    obtain ⟨a, ha⟩ := Authenticator.can_recv mode hr hq hfresh
    have hstep := hrest (.recv e mode k) (by simp [Label.isOwn])
    simp [step, hq', hn, hk (⟨e, addr, mode, k⟩, .dialer) le_rfl, ha] at hstep
  refine (Authenticator.ledger_of_run hacts).settled (Authenticator.answers_of_run hacts)
    (Authenticator.synchronised_of_run hacts) hr (List.eq_nil_iff_forall_not_mem.2 fun r hsend => ?_) hqueue
    fun t ht res hret => ?_
  · obtain ⟨a, ha⟩ := Authenticator.can_send mode hsend (by simp [hqueue, CHANNEL_CAPACITY])
    have hstep := hrest (.gate e mode (.send r.2)) (by simp [Label.isOwn, Action.isOwn])
    simp [step, hn, Action.isLocal, ha] at hstep
  · obtain ⟨a, ha⟩ := Authenticator.can_join mode hr ht res
    have hstep := hrest (.join e mode t.1) (by simp [Label.isOwn])
    rw [Returned] at hret
    simp [step, hret, ha] at hstep

/-- Where the channel is empty and no handshake in flight has returned, no own step is possible. -/
private theorem rests_of_settled (hs : (st.gate e mode).Settled postcard st.Returned) : st.Rests w e mode := by
  intro l hown
  by_contra hl
  obtain ⟨st', h⟩ := Option.ne_none_iff_exists'.1 hl
  cases l with
  | gate e' mode' act =>
    obtain ⟨-, hlocal, a, ha, -⟩ := step_gate h
    simp only [Label.isOwn, Bool.and_eq_true, decide_eq_true_eq] at hown
    obtain ⟨⟨rfl, rfl⟩, hact⟩ := hown
    cases act with
    | send v =>
      obtain ⟨addr, l₁, l₂, hsend, -⟩ := Authenticator.step_send ha
      simp [hs.sending] at hsend
    | recv | join => cases hlocal
    | _ => cases hact
  | recv e' mode' serial =>
    obtain ⟨addr, v, queue, a, hq, -⟩ := step_recv h
    obtain ⟨rfl, rfl⟩ := of_decide_eq_true hown
    simp [hs.queue] at hq
  | join e' mode' c =>
    obtain ⟨res, a, hret, ha, -⟩ := step_join h
    obtain ⟨rfl, rfl⟩ := of_decide_eq_true hown
    obtain ⟨-, addr, l₁, l₂, ht, -⟩ := Authenticator.step_join ha
    exact hs.tasks (c, addr) (by simp [ht]) res hret
  | _ => cases hown

/-- A gate comes to rest by its own steps. -/
private theorem exists_rest (w : World) (e : EndpointId) (mode : Mode) (st : Net) :
    ∃ labels st', (∀ l ∈ labels, l.isOwn e mode = true) ∧ st.run w labels = some st' ∧ st'.Rests w e mode := by
  induction hk : (st.gate e mode).workload using Nat.strong_induction_on generalizing st with
  | _ k ih =>
    by_cases hrest : st.Rests w e mode
    · exact ⟨[], st, by simp, rfl, hrest⟩
    · obtain ⟨l, hown, hl⟩ : ∃ l : Label, l.isOwn e mode = true ∧ st.step w l ≠ none := by
        simpa [Rests] using hrest
      obtain ⟨st₁, h₁⟩ := Option.ne_none_iff_exists'.1 hl
      have hlt := workload_step h₁ e mode
      have hcall : l.isCall e mode = false := by
        cases l with
        | gate e' mode' act => cases act <;> simp_all [Label.isOwn, Label.isCall, Action.isOwn, Action.isCall]
        | _ => rfl
      simp only [hown, hcall, if_true] at hlt
      obtain ⟨labels, st', hlabels, hrun, hrest'⟩ := ih _ (hk ▸ Nat.lt_of_succ_le (by simpa using hlt)) st₁ rfl
      exact ⟨l :: labels, st', by simpa using ⟨hown, hlabels⟩, by simp [run, h₁, hrun], hrest'⟩

/-- Whatever peers, attackers and callers do, a gate takes no more own steps than its work at hand and the calls made
meanwhile allow, and its own steps bring it to rest.  While it runs it rests exactly where only handshakes that have not
returned are left, for which every call waits that was not given up and has no answer; and each of these handshakes has
a session that asks for something still. -/
theorem comes_to_rest (w : World) (postcard : PostcardError → String) {labels : List Label}
    (h : init.run w labels = some st) {n : Node} (hn : w.node e = some n) (mode : Mode) :
    (∀ labels' st', st.run w labels' = some st' →
        labels'.countP (·.isOwn e mode) ≤ (st.gate e mode).workload + 3 * labels'.countP (·.isCall e mode)) ∧
      (∃ labels' st', (∀ l ∈ labels', l.isOwn e mode = true) ∧ st.run w labels' = some st' ∧ st'.Rests w e mode) ∧
      ((st.gate e mode).running = true → (st.Rests w e mode ↔ (st.gate e mode).Settled postcard st.Returned)) ∧
      ∀ t ∈ (st.gate e mode).task.tasks, (∃ res, st.Returned t.1 res) ∨
        ∃ op k, st.proc (t.1, .dialer) = some (ask op k) := by
  have ho := orderly_of_run h
  have hs := sound_of_run h
  refine ⟨fun labels' st' h' => ?_, exists_rest w e mode st,
    fun hr => ⟨fun hrest => hrest.settled ho hs hn hr, rests_of_settled⟩, fun t ht => ?_⟩
  · have hle := own_le h' e mode
    omega
  · obtain ⟨p, hp⟩ := ho.session hs hn ht
    cases p with
    | ret res => exact .inl ⟨res, hp⟩
    | ask op k => exact .inr ⟨op, k, hp⟩

/-- Alice has dialled Bob, who keeps silent. -/
private def waiting : List Label :=
  [.gate Duo.alice .oneWay (.call ⟨Duo.bob, ∅⟩), .gate Duo.alice .oneWay (.send 0), .recv Duo.alice .oneWay 0]

theorem duo_comes_to_rest : ∃ st, init.run (Duo.world none) waiting = some st ∧
    (st.gate Duo.alice .oneWay).authenticate Duo.postcard 0 = none ∧ st.Rests (Duo.world none) Duo.alice .oneWay ∧
    ∀ labels st', st.run (Duo.world none) labels = some st' →
      labels.countP (·.isOwn Duo.alice .oneWay) ≤ 1 + 3 * labels.countP (·.isCall Duo.alice .oneWay) := by
  have hrun : (init.run (Duo.world none) waiting).any (fun st =>
      let a := st.gate Duo.alice .oneWay
      decide (a.running = true ∧ a.sending = [] ∧ a.queue = [] ∧ a.requests = [⟨Duo.bob, ∅⟩] ∧
        a.task.tasks = [(Duo.conn .oneWay, ⟨Duo.bob, ∅⟩)] ∧ a.authenticate Duo.postcard 0 = none ∧
        (st.proc (Duo.conn .oneWay, .dialer)).any (·.value?.isNone) = true)) = true := by
    decide +kernel
  obtain ⟨st, h, hst⟩ := (Option.any_eq_true _ _).1 hrun
  obtain ⟨hr, hsending, hqueue, hreq, htasks, hwait, hproc⟩ := of_decide_eq_true hst
  obtain ⟨hle, -, hrests, -⟩ :=
    comes_to_rest (e := Duo.alice) (n := Duo.node [1] none) (Duo.world none) Duo.postcard h rfl .oneWay
  refine ⟨st, h, hwait, (hrests hr).2 ⟨hsending, hqueue, fun t ht res hret => ?_, fun v addr hv _ => .inr ?_⟩, ?_⟩
  · rw [htasks, List.mem_singleton] at ht
    subst ht
    rw [Returned] at hret
    simp [hret] at hproc
  · have hv0 : v = 0 := by
      have hlt := (List.getElem?_eq_some_iff.1 hv).1
      simp only [hreq, List.length_singleton] at hlt
      omega
    subst hv0
    rw [hreq] at hv
    cases hv
    exact ⟨hwait, by simp [htasks]⟩
  · intro labels st' h'
    have hbound := hle labels st' h'
    simpa [Authenticator.workload, hsending, hqueue, htasks] using hbound

end Net

end IrohHydeAuth
