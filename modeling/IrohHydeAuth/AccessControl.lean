import IrohHydeAuth.Basis.Admissions
import IrohHydeAuth.Coherence

/-!
# The access control of a network

What the crate is for: an endpoint lets in whom it trusts, an institution on its roster.  `Net.policy` says this of the
rosters and the signing keys alone, and `Net.view` what a state of the network has admitted.

* `Net.refines_policy`: whatever the sessions, the tasks and the attackers do, a run of the network is a run of the
  policy.
* `Net.gates_enforce_policy`: so an application connection passes the gate of an endpoint only if the policy says so.
-/

namespace IrohHydeAuth

open Process Prog Relation

namespace Node

/-- The signer of the sessions of a mode. -/
def signerOf (n : Node) : Mode → InstitutionalSigner
  | .oneWay => n.signer
  | .twoWay => n.mutualProtocol.signer

/-- The verifier of the sessions of a mode. -/
def verifierOf (n : Node) : Mode → InstitutionVerifier
  | .oneWay => n.verifier
  | .twoWay => n.mutualVerifier

end Node

/-- The remotes with which a handshake that the task has joined was a success. -/
def Authenticator.concluded {ι : Type} (a : Authenticator ι) : List EndpointId :=
  a.completed.filterMap fun
    | (_, dialled, .ok _) => some dialled.id
    | (_, _, .error _) => none

namespace Net

variable {w : World} {st st' : Net} {c : Conn} {x : EndpointId}

/-- An endpoint trusts another one if it has its key on the roster.  It is secure if no key on its roster has been
forged. -/
def policy (w : World) (st : Net) (mode : Mode) : Policy EndpointId where
  honest e := ∃ n, w.node e = some n
  secure e := ∀ n, w.node e = some n → ∀ key, (n.verifierOf mode).roster.contains key = true → Unforgeable w st key
  trusts a b := ∃ n n', w.node a = some n ∧ w.node b = some n' ∧
    (n.verifierOf mode).roster.contains (n'.signerOf mode).verifyingKey = true
  bilateral := mode = .twoWay

/-- Whom the acceptors have inserted, and whom the tasks have recorded. -/
def view (st : Net) (mode : Mode) : Admissions EndpointId where
  accepted e :=
    match mode with
    | .oneWay => {x | x ∈ st.incoming e}
    | .twoWay => {x | x ∈ (st.gate e .twoWay).inserted}
  dialled e := {x | x ∈ (st.gate e mode).concluded}

/-! ### What the two sides know -/

/-- An acceptor has inserted its remote because of a key on its roster, which is that of the remote if the remote is
honest, and nobody else can have signed with if it is unforgeable. -/
private theorem Sound.key_of_insert (hs : Sound w st) (hmode : c.mode = .oneWay)
    (hm : ⟨.insert x, ()⟩ ∈ st.trace (c, .acceptor)) :
    x = c.dialer ∧ ∃ n key, w.node c.target.id = some n ∧ n.verifier.roster.contains key = true ∧
      (Unforgeable w st key → ∃ n', w.node c.dialer = some n') ∧
      ∀ n', w.node c.dialer = some n' → n'.signer.verifyingKey = key := by
  obtain ⟨rfl, n, h₁, h₂, nonce, auth, institution, hn, -, -, hverify, hres, hagree⟩ := hs.oneWay_inserted hmode hm
  refine ⟨rfl, n, auth.verifyingKey, hn, InstitutionVerifier.mem_roster_of_verify hres, ?_, ?_⟩
  · intro hunf
    obtain ⟨s', signature', hsign, -⟩ := hunf _ _ _ _ hverify
    exact hs.signed_transcript hsign ▸ hs.node_of_mem hsign
  · intro n' hn'
    obtain ⟨h₃, h₄, challenge, signature, -, -, -, hkey⟩ := hagree n' hn'
    exact hkey.symm

/-- What an acceptor inserts the policy permits it to accept. -/
theorem Sound.accept_permitted (hs : Sound w st) (hm : ⟨.insert x, ()⟩ ∈ st.trace (c, .acceptor)) :
    let p := st.policy w c.mode
    x = c.dialer ∧ p.honest c.target.id ∧ (p.secure c.target.id → p.honest x) ∧
      (p.honest x → p.trusts c.target.id x) ∧ (p.bilateral → p.honest x → p.trusts x c.target.id) := by
  cases hmode : c.mode with
  | oneWay =>
    obtain ⟨rfl, n, key, hn, hroster, hhonest, hkey⟩ := hs.key_of_insert hmode hm
    refine ⟨rfl, ⟨n, hn⟩, fun hsec => hhonest (hsec n hn key hroster), ?_, nofun⟩
    rintro ⟨n', hn'⟩
    exact ⟨n, n', hn, hn', hkey n' hn' ▸ hroster⟩
  | twoWay =>
    obtain ⟨rfl, hello, challenge, response, ⟨n, h₁, h₂, localId, hn, -, -, hroster, -⟩, hhonest, hsigned⟩ :=
      hs.mutual_verified hmode hm
    refine ⟨rfl, ⟨n, hn⟩, fun hsec => hhonest (hsec n hn _ hroster), ?_, ?_⟩
    · rintro ⟨n', hn'⟩
      obtain ⟨-, n₁, h₃, h₄, sigA, hn₁, hkey, -⟩ := hsigned n' hn'
      exact ⟨n, n₁, hn, hn₁, by rw [Node.signerOf, hkey]; exact hroster⟩
    · rintro - ⟨n', hn'⟩
      obtain ⟨-, n₁, h₃, h₄, sigA, hn₁, -, htrace, hs₁, hroster₁, -⟩ := hsigned n' hn'
      obtain ⟨n₂, h₅, h₆, hn₂, hkey₂, -⟩ := hs.mutual_challenged hmode hn₁ hn htrace hs₁
      exact ⟨n₁, n₂, hn₁, hn₂, by rw [Node.signerOf, hkey₂]; exact hroster₁⟩

/-- What an initiator takes for accepted the policy permits it to conclude. -/
theorem Sound.conclude_permitted (hs : Sound w st) (hret : st.proc (c, .dialer) = some (ret (.ok ()))) :
    let p := st.policy w c.mode
    p.honest c.dialer ∧ (p.bilateral → p.secure c.dialer → p.honest c.target.id) := by
  obtain ⟨p, hp, hpath⟩ := hs.sessions.path _ _ hret
  obtain ⟨n, hn, -⟩ := Option.map_eq_some_iff.1 hp
  refine ⟨⟨n, hn⟩, ?_⟩
  intro hmode hsec
  obtain ⟨n', hn', rfl⟩ := program_dialer_twoWay hmode hp
  rcases Mutual.handshake_cases hpath with ⟨-, hq⟩ | ⟨h₁, h₂, nonceA, challenge, time, sigA, htrace, hsigned, -⟩
  · exact absurd rfl hq
  obtain ⟨⟨n₁, h₃, h₄, sigA', hn₁, -, -, -, hroster, -⟩, institution, hverify⟩ :=
    hs.mutual_signed hmode hn' htrace hsigned
  -- the signer is the endpoint that was dialled
  have hroster : (n₁.verifierOf c.mode).roster.contains challenge.verifyingKey = true := by
    rw [show c.mode = .twoWay from hmode]
    exact hroster
  obtain ⟨s', signature', hsign, -⟩ := hsec n₁ hn₁ _ hroster _ _ _ _ hverify
  exact (hs.signed_mutualTranscript .acceptor hsign).2.2 ▸ hs.node_of_mem hsign

/-! ### The refinement -/

/-- A task that joins a handshake records the remote if the handshake has succeeded, and no other action of a gate but
an insertion counts. -/
private theorem records_of_step {mode : Mode} {a a' : Authenticator Conn} {act : Action Conn}
    (h : a.step mode act = some a') (hinsert : ∀ x, act ≠ .insert x) :
    a'.inserted = a.inserted ∧ (a'.concluded = a.concluded ∨ ∃ c dialled, act = .join c (.ok ()) ∧
      (c, dialled) ∈ a.task.tasks ∧ a'.concluded = a.concluded ++ [dialled.id]) := by
  rcases Authenticator.step_cases h with hq | ⟨handle, rfl⟩ | ⟨handle, res, rfl⟩ | ⟨y, rfl⟩ | ⟨why, rfl⟩
  · exact ⟨hq.inserted, .inl (by rw [Authenticator.concluded, hq.completed, Authenticator.concluded])⟩
  · obtain ⟨-, -, addr, v, queue, -, h⟩ := Authenticator.step_recv h
    rcases h with ⟨-, rfl⟩ | ⟨ws, -, -, rfl⟩ | ⟨-, -, rfl⟩
    all_goals exact ⟨rfl, .inl rfl⟩
  · obtain ⟨-, addr, l₁, l₂, htasks, rfl⟩ := Authenticator.step_join h
    refine ⟨rfl, ?_⟩
    cases res with
    | ok => exact .inr ⟨handle, addr, rfl, by simp [htasks], by simp [Authenticator.concluded]⟩
    | error e => exact .inl (by simp [Authenticator.concluded])
  · exact absurd rfl (hinsert y)
  · obtain ⟨-, -, rfl⟩ := Authenticator.step_stop h
    exact ⟨rfl, .inl rfl⟩

private theorem view_congr {mode : Mode} (hinc : mode = .oneWay → st'.incoming = st.incoming)
    (hins : ∀ e, (st'.gate e mode).inserted = (st.gate e mode).inserted)
    (hcon : ∀ e, (st'.gate e mode).concluded = (st.gate e mode).concluded) : st'.view mode = st.view mode := by
  cases mode with
  | oneWay => simp only [view, hinc rfl, hcon]
  | twoWay => simp only [view, hins, hcon]

/-- One task has joined a handshake with `x`. -/
private theorem view_conclude {mode : Mode} {e : EndpointId} (hinc : st'.incoming = st.incoming)
    (hins : ∀ e, (st'.gate e mode).inserted = (st.gate e mode).inserted)
    (hcon : (st'.gate e mode).concluded = (st.gate e mode).concluded ++ [x])
    (hother : ∀ e', e' ≠ e → (st'.gate e' mode).concluded = (st.gate e' mode).concluded) :
    st'.view mode = (st.view mode).conclude e x := by
  refine Admissions.ext ?_ ?_
  · cases mode with
    | oneWay => simp only [view, Admissions.conclude, hinc]
    | twoWay => simp only [view, Admissions.conclude, hins]
  · funext e'
    ext y
    rw [Admissions.mem_conclude]
    by_cases he : e' = e
    · subst he
      simp [view, hcon]
    · simp [view, hother e' he, he]

/-- An acceptor has inserted `x`. -/
private theorem view_accept {mode : Mode} {e : EndpointId}
    (hcon : ∀ e, (st'.gate e mode).concluded = (st.gate e mode).concluded)
    (hself : ∀ y, y ∈ (st'.view mode).accepted e ↔ y ∈ (st.view mode).accepted e ∨ y = x)
    (hother : ∀ e', e' ≠ e → (st'.view mode).accepted e' = (st.view mode).accepted e') :
    st'.view mode = (st.view mode).accept e x := by
  refine Admissions.ext ?_ ?_
  · funext e'
    ext y
    rw [Admissions.mem_accept]
    by_cases he : e' = e
    · subst he
      simp [hself]
    · simp [hother e' he, he]
  · simp only [view, Admissions.accept, hcon]

/-- What happens at a gate is nothing to the policy, or the end of a handshake that has succeeded. -/
private theorem view_setGate (mode : Mode) {e : EndpointId} {mode' : Mode} {act : Action Conn} {a : Authenticator Conn}
    (hstep : (st.gate e mode').step mode' act = some a) (hinsert : ∀ x, act ≠ .insert x) :
    (st.setGate e mode' a).view mode = st.view mode ∨ ∃ c dialled, mode = mode' ∧ act = .join c (.ok ()) ∧
      (c, dialled) ∈ (st.gate e mode').task.tasks ∧
      (st.setGate e mode' a).view mode = (st.view mode).conclude e dialled.id := by
  obtain ⟨hins, hcon⟩ := records_of_step hstep hinsert
  by_cases hmode : mode = mode'
  · subst hmode
    have hother : ∀ e', e' ≠ e → (st.setGate e mode a).gate e' mode = st.gate e' mode :=
      fun e' he => setGate_other a fun h => he h.1
    have hinserted : ∀ e', ((st.setGate e mode a).gate e' mode).inserted = (st.gate e' mode).inserted := by
      intro e'
      by_cases he : e' = e
      · rw [he, setGate_self, hins]
      · rw [hother e' he]
    rcases hcon with hcon | ⟨c, dialled, hact, ht, hcon⟩
    · refine .inl (view_congr (fun _ => rfl) hinserted fun e' => ?_)
      by_cases he : e' = e
      · rw [he, setGate_self, hcon]
      · rw [hother e' he]
    · refine .inr ⟨c, dialled, rfl, hact, ht, view_conclude rfl hinserted ?_ fun e' he => by rw [hother e' he]⟩
      rw [setGate_self, hcon]
  · have hsame : ∀ e', (st.setGate e mode' a).gate e' mode = st.gate e' mode :=
      fun e' => setGate_other a fun h => hmode h.2
    exact .inl (view_congr (fun _ => rfl) (fun e' => by rw [hsame]) fun e' => by rw [hsame])

/-- The answer that a session gets is nothing to the policy, or the insertion of a remote. -/
private theorem view_answer (mode : Mode) (s : End) (delivered : Nat) (ev : Event Resp) (q : Session) :
    ((st.effect s delivered ev).record s ev q).view mode = st.view mode ∨ ∃ x, ev = ⟨.insert x, ()⟩ ∧
      s.1.mode = mode ∧ ((st.effect s delivered ev).record s ev q).view mode = (st.view mode).accept s.owner x := by
  cases mode with
  | oneWay =>
    have hgate : ∀ e, ((st.effect s delivered ev).record s ev q).gate e .oneWay = st.gate e .oneWay := by
      intro e
      rcases @effect_gate_cases st s delivered ev with ⟨x, -, -, heff⟩ | heff
      · show (st.effect s delivered ev).gate e .oneWay = _
        rw [heff]
        exact setGate_other _ (by simp)
      · show (st.effect s delivered ev).gate e .oneWay = _
        rw [heff]
    rcases @effect_incoming_cases st s delivered ev with ⟨x, rfl, hmode, hinc⟩ | hinc
    · refine .inr ⟨x, rfl, hmode, view_accept (fun e => by rw [hgate]) ?_ ?_⟩
      · intro y
        simp [view, record, hinc, or_comm]
      · intro e' he
        simp [view, record, hinc, he]
    · exact .inl (view_congr (fun _ => hinc) (fun e => by rw [hgate]) fun e => by rw [hgate])
  | twoWay =>
    rcases @effect_gate_cases st s delivered ev with ⟨x, rfl, hmode, heff⟩ | heff
    · have hother : ∀ e', e' ≠ s.owner → ((st.setGate s.owner .twoWay ((st.gate s.owner .twoWay).insert x)).record s
          ⟨.insert x, ()⟩ q).gate e' .twoWay = st.gate e' .twoWay := fun e' he => setGate_other _ fun h => he h.1
      have hself : ((st.setGate s.owner .twoWay ((st.gate s.owner .twoWay).insert x)).record s ⟨.insert x, ()⟩ q).gate
          s.owner .twoWay = (st.gate s.owner .twoWay).insert x := setGate_self _ _ _
      rw [heff]
      generalize (st.setGate s.owner .twoWay _).record s _ q = st' at hother hself ⊢
      refine .inr ⟨x, rfl, hmode, view_accept ?_ ?_ ?_⟩
      · intro e'
        by_cases he : e' = s.owner
        · rw [he, hself]
          rfl
        · rw [hother e' he]
      · intro y
        simp [view, hself, Authenticator.insert]
      · intro e' he
        simp [view, hother e' he]
    · have hgate : ((st.effect s delivered ev).record s ev q).gate = st.gate := heff
      refine .inl (view_congr ?_ (fun e => by rw [hgate]) fun e => by rw [hgate])
      intro hmode
      cases hmode

/-- The gates list what the sessions have inserted. -/
private def Listed (st : Net) : Prop :=
  ∀ (s : End) (x : EndpointId), s.1.mode = .twoWay → ⟨.insert x, ()⟩ ∈ st.trace s →
    x ∈ (st.gate s.owner .twoWay).inserted

private theorem Listed.step (hl : Listed st) (hs : Sound w st) (h : Steps w st st') : Listed st' := by
  intro s x hmode hm
  rcases h.mem_trace hm with hm | ⟨-, delivered, q, rfl⟩
  · rcases h.gate_cases s.owner .twoWay with heq | ⟨act, hstep, -⟩
    · rw [heq]
      exact hl s x hmode hm
    · exact ((hs.recorded.ledger _ _).adds hstep).inserted.subset (hl s x hmode hm)
  · simp [record, effect, hmode, setGate, Authenticator.insert]

/-- What a session has inserted its endpoint has accepted. -/
private theorem Listed.accepted (hl : Listed st) (hs : Sound w st) {s : End} (hm : ⟨.insert x, ()⟩ ∈ st.trace s) :
    x ∈ (st.view s.1.mode).accepted s.owner := by
  cases hmode : s.1.mode with
  | oneWay => exact hs.recorded.admitted s x hmode hm
  | twoWay => exact hl s x hmode hm

/-- What the sessions have done by `st` they have done by `st'`. -/
private structure Later (st st' : Net) : Prop where
  trace : ∀ s, st.trace s <+: st'.trace s
  returned : ∀ s (r : Except Error Unit), st.proc s = some (ret r) → st'.proc s = some (ret r)

private theorem Later.refl (st : Net) : Later st st := ⟨fun _ => List.prefix_rfl, fun _ _ hp => hp⟩

private theorem Later.step {st₁ : Net} (hl : Later st₁ st') (h : Steps w st st₁) : Later st st' :=
  ⟨fun s => (h.trace_mono s).trans (hl.trace s), fun s r hp => hl.returned s r (h.proc_ret hp)⟩

private theorem Later.run {labels : List Label} {st₁ : Net} (hl : Later st₁ st') (h : st.run w labels = some st₁) :
    Later st st' := by
  induction labels generalizing st with
  | nil =>
    cases h
    exact hl
  | cons l labels ih =>
    obtain ⟨st₂, h₁, h₂⟩ := Option.bind_eq_some_iff.1 h
    exact (ih h₂).step (steps_of_step h₁)

/-- One step of the network is nothing to the policy, or a step that it permits.  Whose keys were forged may show only
later, in `st'`. -/
private theorem Sound.step_refines (hs : Sound w st) (hl : Listed st) {st₁ : Net} (h : Steps w st st₁)
    (hs' : Sound w st') (hlater : Later st₁ st') (mode : Mode) :
    st₁.view mode = st.view mode ∨ Admissions.Step (st'.policy w mode) (st.view mode) (st₁.view mode) := by
  cases h with
  | @gate e mode' act a hstep hinsert htasks hjoin =>
    rcases view_setGate mode hstep hinsert with heq | ⟨c, dialled, rfl, rfl, ht, heq⟩
    · exact .inl heq
    · right
      have hret := hjoin c (.ok ()) rfl
      obtain ⟨hd, hmode, htarget⟩ := hs.recorded.tasks e mode (c, dialled) ht
      dsimp only at hd hmode htarget
      subst hd hmode htarget
      obtain ⟨hhonest, hboth⟩ := hs'.conclude_permitted (hlater.returned _ _ hret)
      rw [heq]
      refine .conclude hhonest hboth ?_
      rintro ⟨n, hn⟩
      exact hl.accepted hs (s := (c, .acceptor)) (hs.inserted_of_ok hn hret)
  | @start c a hstep htasks hfresh =>
    rcases view_setGate mode hstep nofun with heq | ⟨c', dialled, -, hact, -⟩
    · exact .inl heq
    · cases hact
  | publish => exact .inl rfl
  | accept => exact .inl rfl
  | @answer s ev delivered p q hp hq hallows =>
    rcases view_answer mode s delivered ev q with heq | ⟨x, rfl, rfl, heq⟩
    · exact .inl heq
    · right
      have hm : ⟨.insert x, ()⟩ ∈ st'.trace s := (hlater.trace s).subset (by simp [trace_answer])
      obtain ⟨c, side⟩ := s
      obtain rfl : side = .acceptor := hs'.acceptor_of_insert hm
      obtain ⟨-, hhonest, hsecure, htrusts, hboth⟩ := hs'.accept_permitted hm
      rw [heq]
      exact .accept hhonest hsecure htrusts hboth
  | attack => exact .inl rfl

private theorem Sound.run_refines {labels : List Label} {st₁ : Net} (hs : Sound w st) (hl : Listed st)
    (h : st.run w labels = some st₁) (hs' : Sound w st') (hlater : Later st₁ st') (mode : Mode) :
    ReflTransGen (Admissions.Step (st'.policy w mode)) (st.view mode) (st₁.view mode) := by
  induction labels generalizing st with
  | nil =>
    cases h
    exact .refl
  | cons l labels ih =>
    obtain ⟨st₂, h₁, h₂⟩ := Option.bind_eq_some_iff.1 h
    have hstep := steps_of_step h₁
    have hrest := ih (hs.step hstep) (hl.step hs hstep) h₂
    rcases hs.step_refines hl hstep hs' (hlater.run h₂) mode with heq | hone
    · exact heq ▸ hrest
    · exact .head hone hrest

private theorem listed_init : Listed init := by
  intro s x _ hm
  cases hm

private theorem sound_init (w : World) : Sound w init :=
  ⟨sessions_init w, streams_init w, answered_init w, recorded_init⟩

private theorem listed_of_run {labels : List Label} (h : init.run w labels = some st) : Listed st := by
  refine (run_induction (P := fun st => Sound w st ∧ Listed st) ?_ ⟨sound_init w, listed_init⟩ h).2
  intro st₁ st₂ ⟨hs, hl⟩ hstep
  exact ⟨hs.step hstep, hl.step hs hstep⟩

private theorem view_init (mode : Mode) : init.view mode = .none := by
  cases mode with
  | oneWay => simp [view, init, Authenticator.init, Authenticator.concluded, Admissions.none]
  | twoWay => simp [view, init, Authenticator.init, Authenticator.concluded, Admissions.none]

/-- A run from the start, seen from a later state. -/
private theorem refines_of_run {labels : List Label} (h : init.run w labels = some st) (hs' : Sound w st')
    (hlater : Later st st') (mode : Mode) :
    ReflTransGen (Admissions.Step (st'.policy w mode)) .none (st.view mode) := by
  rw [← view_init mode]
  exact (sound_init w).run_refines listed_init h hs' hlater mode

/-- Every run of the network is a run of the policy, from any state on: whatever the sessions, the tasks, the transport
and the attackers do, an endpoint accepts and concludes only what the policy permits, one remote at a time, and an
honest endpoint that was dialled accepts before its dialler concludes. -/
theorem refines_policy (w : World) {labels labels' : List Label} (h : init.run w labels = some st)
    (h' : st.run w labels' = some st') (mode : Mode) :
    ReflTransGen (Admissions.Step (st'.policy w mode)) .none (st.view mode) ∧
      ReflTransGen (Admissions.Step (st'.policy w mode)) (st.view mode) (st'.view mode) := by
  have hs := sound_of_run h
  have hs' := hs.run h'
  exact ⟨refines_of_run h hs' ((Later.refl st').run h') mode,
    hs.run_refines (listed_of_run h) h' hs' (Later.refl st') mode⟩

theorem duo_refines_policy : ∃ st st', init.run (Duo.world none) (Duo.labels .twoWay) = some st ∧
    st.run (Duo.world none) [.join Duo.alice .twoWay (Duo.conn .twoWay)] = some st' ∧
    Duo.alice ∈ (st.view .twoWay).accepted Duo.bob ∧ Duo.bob ∉ (st.view .twoWay).dialled Duo.alice ∧
    Duo.bob ∈ (st'.view .twoWay).dialled Duo.alice ∧
    ReflTransGen (Admissions.Step (st'.policy (Duo.world none) .twoWay)) (st.view .twoWay) (st'.view .twoWay) := by
  have hrun : (init.run (Duo.world none) (Duo.labels .twoWay)).any (fun st =>
      (st.run (Duo.world none) [.join Duo.alice .twoWay (Duo.conn .twoWay)]).any fun st' =>
        decide (Duo.alice ∈ (st.gate Duo.bob .twoWay).inserted ∧ Duo.bob ∉ (st.gate Duo.alice .twoWay).concluded ∧
          Duo.bob ∈ (st'.gate Duo.alice .twoWay).concluded)) = true := by
    decide +kernel
  obtain ⟨st, h, hst⟩ := (Option.any_eq_true _ _).1 hrun
  obtain ⟨st', h', hst'⟩ := (Option.any_eq_true _ _).1 hst
  obtain ⟨ha, hb, hb'⟩ := of_decide_eq_true hst'
  exact ⟨st, st', h, h', ha, hb, hb', (refines_policy (Duo.world none) h h' .twoWay).2⟩

/-! ### The gates -/

private theorem enforces_of_run {labels : List Label} (h : init.run w labels = some st) (mode : Mode) :
    Admissions.Enforces (st.policy w mode) (st.view mode) :=
  Admissions.enforces_none.run (refines_of_run h (sound_of_run h) (Later.refl st) mode)

/-- The set of a task holds nothing else than what it has recorded and, in the mutual mode, what was inserted. -/
private theorem Sound.view_of_allowed (hs : Sound w st) {e : EndpointId} {mode : Mode}
    (hx : x ∈ (st.gate e mode).task.allowed) :
    x ∈ (st.view mode).dialled e ∨ mode = .twoWay ∧ x ∈ (st.view mode).accepted e := by
  obtain ⟨acts, hrun⟩ := hs.recorded.reachable e mode
  rcases (Authenticator.answers_of_run hrun).allowed x hx with ⟨c, dialled, hc, rfl⟩ | ⟨rfl, hins⟩
  · exact .inl (List.mem_filterMap.2 ⟨_, hc, rfl⟩)
  · exact .inr ⟨rfl, hins⟩

/-- A dial goes through only to a remote in the set of the task. -/
private theorem Sound.allowed_of_beforeConnect (hs : Sound w st) {postcard : PostcardError → String} {e : EndpointId}
    {mode : Mode} {alpn : Bytes} {k : Nat} {addr : EndpointAddr} (halpn : alpn ≠ mode.alpn)
    (hreq : (st.gate e mode).requests[k]? = some addr)
    (hb : (st.gate e mode).beforeConnect postcard mode alpn k = some .accept) :
    addr.id ∈ (st.gate e mode).task.allowed := by
  have hr := Authenticator.mem_replies_of_authenticate (Authenticator.authenticate_of_beforeConnect halpn hb)
  exact hs.recorded.allowed_of_reply hreq hr

private theorem trusts_of_allowed {labels : List Label} (h : init.run w labels = some st) {e : EndpointId}
    (hx : x ∈ (st.gate e .twoWay).task.allowed)
    (hxe : (st.policy w .twoWay).secure e ∨ (st.policy w .twoWay).honest x) :
    (st.policy w .twoWay).trusts e x ∧ (st.policy w .twoWay).trusts x e := by
  have henf := enforces_of_run h .twoWay
  rcases (sound_of_run h).view_of_allowed hx with hd | ⟨-, ha⟩
  · obtain ⟨-, hsecure, -⟩ := henf.dialled e x hd
    have hhonest := hxe.elim (hsecure rfl) id
    obtain ⟨hxt, het⟩ := henf.trusts_of_dialled hd hhonest
    exact ⟨het rfl, hxt⟩
  · obtain ⟨-, hsecure, htrusts⟩ := henf.accepted e x ha
    obtain ⟨het, hxt⟩ := htrusts (hxe.elim hsecure id)
    exact ⟨het, hxt rfl⟩

/-- In every reachable state, an application connection passes a gate of `e` only in accordance with the rosters.  If
no key on the roster of `e` was forged, or else if the remote is honest, then `e` trusts a remote that its
`IncomingAuthHook` lets in, and it trusts and is trusted by a remote that its `MutualAuthHook` lets in or lets it dial.
An honest remote that its `OutgoingAuthHook` lets it dial trusts it. -/
theorem gates_enforce_policy (w : World) (postcard : PostcardError → String) {labels : List Label}
    (h : init.run w labels = some st) (e : EndpointId) :
    (∀ x alpn, alpn ≠ ALPN → IncomingAuthHook.afterHandshake (st.incoming e) alpn x = .accept →
      (st.policy w .oneWay).secure e ∨ (st.policy w .oneWay).honest x → (st.policy w .oneWay).trusts e x) ∧
    (∀ k addr alpn, (st.gate e .oneWay).requests[k]? = some addr → alpn ≠ ALPN →
      (st.gate e .oneWay).beforeConnect postcard .oneWay alpn k = some .accept →
      (st.policy w .oneWay).honest addr.id → (st.policy w .oneWay).trusts addr.id e) ∧
    (∀ x alpn, alpn ≠ MUTUAL_ALPN →
      MutualAuthHook.afterHandshake (st.gate e .twoWay).task.allowed alpn x = .accept →
      (st.policy w .twoWay).secure e ∨ (st.policy w .twoWay).honest x →
      (st.policy w .twoWay).trusts e x ∧ (st.policy w .twoWay).trusts x e) ∧
    ∀ k addr alpn, (st.gate e .twoWay).requests[k]? = some addr → alpn ≠ MUTUAL_ALPN →
      (st.gate e .twoWay).beforeConnect postcard .twoWay alpn k = some .accept →
      (st.policy w .twoWay).secure e ∨ (st.policy w .twoWay).honest addr.id →
      (st.policy w .twoWay).trusts e addr.id ∧ (st.policy w .twoWay).trusts addr.id e := by
  have hs := sound_of_run h
  refine ⟨?_, ?_, ?_, ?_⟩
  · intro x alpn halpn ha hxe
    obtain ⟨-, hsecure, htrusts⟩ := (enforces_of_run h .oneWay).accepted e x (mem_of_afterHandshake halpn ha)
    exact (htrusts (hxe.elim hsecure id)).1
  · intro k addr alpn hreq halpn hb hhonest
    rcases hs.view_of_allowed (hs.allowed_of_beforeConnect halpn hreq hb) with hd | ⟨hmode, -⟩
    · exact ((enforces_of_run h .oneWay).trusts_of_dialled hd hhonest).1
    · cases hmode
  · intro x alpn halpn ha hxe
    exact trusts_of_allowed h (mem_of_afterHandshake halpn ha) hxe
  · intro k addr alpn hreq halpn hb hxe
    exact trusts_of_allowed h (hs.allowed_of_beforeConnect halpn hreq hb) hxe

theorem duo_gates_enforce_policy :
    ∃ st, init.run (Duo.world none) (Duo.labels .twoWay) = some st ∧
      MutualAuthHook.afterHandshake (st.gate Duo.bob .twoWay).task.allowed (ascii "app/0") Duo.alice = .accept ∧
      (st.policy (Duo.world none) .twoWay).secure Duo.bob ∧
      (st.policy (Duo.world none) .twoWay).trusts Duo.bob Duo.alice ∧
      (st.policy (Duo.world none) .twoWay).trusts Duo.alice Duo.bob := by
  have hrun : (init.run (Duo.world none) (Duo.labels .twoWay)).any (fun st =>
      decide (Duo.alice ∈ (st.gate Duo.bob .twoWay).task.allowed ∧ ∀ key, Unforgeable (Duo.world none) st key)) =
        true := by
    decide +kernel
  obtain ⟨st, h, hst⟩ := (Option.any_eq_true _ _).1 hrun
  obtain ⟨hx, hunf⟩ := of_decide_eq_true hst
  have haccept : MutualAuthHook.afterHandshake (st.gate Duo.bob .twoWay).task.allowed (ascii "app/0") Duo.alice =
      .accept := if_pos (.inr hx)
  have hsecure : (st.policy (Duo.world none) .twoWay).secure Duo.bob := fun _ _ key _ => hunf key
  have hgates := gates_enforce_policy (Duo.world none) Duo.postcard h Duo.bob
  exact ⟨st, h, haccept, hsecure, hgates.2.2.1 Duo.alice _ (by decide) haccept (.inl hsecure)⟩

end Net

end IrohHydeAuth
