import IrohHydeAuth.Deployment

/-!
# Hooks of both modes on one endpoint

Each hook lets the auth connections of its own mode through and no others, and every connection has to pass all the
hooks of its endpoint.  Where the hooks of one mode are alone they are in the way of none of its handshakes
(`run_of_net`).  But an endpoint that has mounted the hooks of both modes gates the handshakes of each mode by what the
other one has authenticated (`hooks_gate_handshakes`), and one that has mounted all three never authenticates anybody
(`all_hooks_lock_out`).
-/

namespace IrohHydeAuth

open Process Prog

/-- The hooks that a mode comes with. -/
def Mode.hooks : Mode → List Hook
  | .oneWay => [.outgoing, .incoming]
  | .twoWay => [.mutual]

/-- The step belongs to this mode, or to none. -/
def Label.ofMode (mode : Mode) : Label → Bool
  | .gate _ mode' _ | .recv _ mode' _ | .join _ mode' _ => decide (mode' = mode)
  | .accept c => decide (c.mode = mode)
  | .answer s _ _ => decide (s.1.mode = mode)
  | .publish _ | .attack _ _ => true

namespace Net

variable {w : World} {st : Net}

/-- Only a dialling end connects, to its target and under the ALPN of its mode. -/
private theorem asks_connect {s : End} {p : Session} (hp : w.program s = some p) :
    p.Asks fun op => ∀ remoteAddr alpn, op = .connect remoteAddr alpn →
      remoteAddr = s.1.target ∧ alpn = s.1.mode.alpn := by
  obtain ⟨c, side⟩ := s
  cases side with
  | dialer =>
    cases hmode : c.mode with
    | oneWay =>
      obtain ⟨n, -, rfl⟩ := program_dialer_oneWay hmode hp
      refine Outgoing.asks_handshake ?_ nofun nofun nofun nofun nofun nofun nofun
      rintro _ _ ⟨⟩
      exact ⟨rfl, rfl⟩
    | twoWay =>
      obtain ⟨n, -, rfl⟩ := program_dialer_twoWay hmode hp
      refine Mutual.asks_handshake ?_ nofun nofun nofun nofun nofun nofun nofun nofun nofun nofun
      rintro _ _ ⟨⟩
      exact ⟨rfl, rfl⟩
  | acceptor =>
    cases hmode : c.mode with
    | oneWay =>
      obtain ⟨n, -, rfl⟩ := program_acceptor_oneWay hmode hp
      apply AuthProtocol.asks_accept <;> simp
    | twoWay =>
      obtain ⟨n, -, rfl⟩ := program_acceptor_twoWay hmode hp
      apply MutualAuthProtocol.asks_accept <;> simp

private theorem Sound.connects (hs : Sound w st) {s : End} {remoteAddr : EndpointAddr} {alpn : Bytes}
    {cont : Resp (.connect remoteAddr alpn) → Session}
    (hproc : st.proc s = some (ask (.connect remoteAddr alpn) cont)) :
    remoteAddr = s.1.target ∧ alpn = s.1.mode.alpn := by
  obtain ⟨p, hp, hpath⟩ := hs.sessions.path _ _ hproc
  exact (asks_ask.1 (hpath.asks (asks_connect hp)).2).1 _ _ rfl

/-- A session that has done anything was started. -/
private theorem Sound.started_of_mem (hs : Sound w st) {s : End} {ev : Event Resp} (hm : ev ∈ st.trace s) :
    st.proc s ≠ none := by
  intro hp
  rw [hs.sessions.idle s hp] at hm
  cases hm

end Net

private theorem alpn_ne {mode mode' : Mode} (h : mode ≠ mode') : mode.alpn ≠ mode'.alpn := by
  revert h
  cases mode <;> cases mode' <;> decide

namespace Deployment

variable {hyde : Hyde} {K : Type} [DecidableEq K] {d : Deployment hyde K} {st st' : Deployed hyde K} {e : EndpointId}
  {mode : Mode} {c : Conn}

/-! ### What the hooks let through -/

/-- A connection that is dialled just now was let through by all the hooks of its endpoint. -/
private theorem Steps.connected (h : Steps d st st') {s : End} {remoteAddr : EndpointAddr} {alpn : Bytes}
    (hm : ⟨.connect remoteAddr alpn, .ok ()⟩ ∈ st'.net.trace s) :
    ⟨.connect remoteAddr alpn, .ok ()⟩ ∈ st.net.trace s ∨
      ∀ hook ∈ d.hooks s.owner, hook.beforeConnect d.postcard st s.1 alpn = some .accept := by
  rcases h.net_cases with heq | ⟨l, hnet, hl⟩
  · exact .inl (heq ▸ hm)
  rcases Net.answer_of_mem hnet hm with hold | ⟨delivered, rfl⟩
  · exact .inl hold
  · rcases hl with hadmits | ⟨_, _, _, hcall⟩ | ⟨_, _, _, hsigned⟩
    · exact .inr (by simpa [admits] using hadmits)
    · cases hcall
    · cases hsigned

/-- A connection that is accepted just now was let through by all the hooks of its endpoint. -/
private theorem Steps.accepted (h : Steps d st st') (hp : st'.net.proc (c, .acceptor) ≠ none) :
    st.net.proc (c, .acceptor) ≠ none ∨
      ∀ hook ∈ d.hooks c.target.id, hook.afterHandshake st.net c.target.id c.mode.alpn c.dialer = .accept := by
  rcases h.net_cases with heq | ⟨l, hnet, hl⟩
  · exact .inl (heq ▸ hp)
  rcases Net.accept_of_proc hnet hp with hold | rfl
  · exact .inl hold
  · rcases hl with hadmits | ⟨_, _, _, hcall⟩ | ⟨_, _, _, hsigned⟩
    · exact .inr (by simpa [admits] using hadmits)
    · cases hcall
    · cases hsigned

/-- An `IncomingAuthHook` lets a connection of the mutual mode through only if the remote has authenticated itself in
the one-directional mode. -/
private theorem mem_incoming {net : Net} {e : EndpointId} (hmode : c.mode = .twoWay)
    (h : Hook.afterHandshake net e c.mode.alpn c.dialer .incoming = .accept) : c.dialer ∈ net.incoming e := by
  rw [hmode] at h
  exact mem_of_afterHandshake (by decide) h

/-- A `MutualAuthHook` lets a connection of the one-directional mode through only if the remote is in the mutual set. -/
private theorem mem_allowed {net : Net} {e : EndpointId} (hmode : c.mode = .oneWay)
    (h : Hook.afterHandshake net e c.mode.alpn c.dialer .mutual = .accept) :
    c.dialer ∈ (net.gate e .twoWay).task.allowed := by
  rw [hmode] at h
  exact mem_of_afterHandshake (by decide) h

/-- The waiter of a dial asks for the target of the dial. -/
def Asked (st : Deployed hyde K) : Prop :=
  ∀ c mode i, st.asked c mode = some i → (st.net.gate c.dialer mode).requests[i]? = some c.target

private theorem Asked.step (ha : Asked st) (hs : Net.Sound d.world st.net) (h : Steps d st st') : Asked st' := by
  have hmono : ∀ {l net}, st.net.step d.world l = some net → ∀ c mode i, st.asked c mode = some i →
      (net.gate c.dialer mode).requests[i]? = some c.target := fun hnet c mode i hi =>
    Authenticator.prefix_getElem? (hs.recorded.requests_mono (Net.steps_of_step hnet) c.dialer mode)
      (ha c mode i hi)
  cases h with
  | net hadmits hnet => exact hmono hnet
  | @dial c mode remoteAddr alpn cont net hproc hnet =>
    intro c' mode' i hi
    dsimp only at hi ⊢
    by_cases heq : c' = c ∧ mode' = mode
    · obtain ⟨rfl, rfl⟩ := heq
      rw [Function.update_self, Function.update_self] at hi
      cases hi
      obtain ⟨-, -, a, ha', rfl⟩ := Net.step_gate hnet
      obtain ⟨-, rfl⟩ := Authenticator.step_call ha'
      simp [Net.setGate_self, (hs.connects hproc).1]
    · refine hmono hnet c' mode' i ?_
      by_cases hc : c' = c
      · subst hc
        rwa [Function.update_self, Function.update_of_ne fun hm => heq ⟨rfl, hm⟩] at hi
      · rwa [Function.update_of_ne hc] at hi
  | sign hproc hk hcall => exact ha
  | turn hcall hturn => exact ha
  | signed hproc hk hthread hout hnet => exact hmono hnet

omit [DecidableEq K] in
/-- The hook of the other mode lets a dial through only to a remote in the set of its task. -/
private theorem Asked.allowed (ha : Asked st) (hs : Net.Sound d.world st.net) (hmode : mode ≠ c.mode)
    (h : mode.hook.beforeConnect d.postcard st c c.mode.alpn = some .accept) :
    c.target.id ∈ (st.net.gate c.dialer mode).task.allowed := by
  have hb : st.beforeConnect d.postcard mode c c.mode.alpn = some .accept := by
    cases mode with
    | oneWay => exact h
    | twoWay => exact h
  rw [Deployed.beforeConnect] at hb
  cases hi : st.asked c mode with
  | none => simp [hi, beforeConnect, alpn_ne hmode.symm] at hb
  | some i =>
    rw [hi] at hb
    have hok := Authenticator.authenticate_of_beforeConnect (alpn_ne hmode.symm) hb
    exact hs.recorded.allowed_of_reply (ha c mode i hi) (Authenticator.mem_replies_of_authenticate hok)

/-- What holds at first and what steps from sound states keep holds at the end of every run. -/
private theorem sound_induction {P : Deployed hyde K → Prop}
    (hstep : ∀ st st', Net.Sound d.world st.net → P st → Steps d st st' → P st') (h₀ : P d.init) {acts : List (Act K)}
    (h : d.run d.init acts = some st) : P st := by
  have hP := run_induction (P := fun st => Net.Sound d.world st.net ∧ P st) ?_
    ⟨sound_of_run (show d.run d.init [] = some d.init from rfl), h₀⟩ h
  · exact hP.2
  · rintro st st' ⟨hs, hP⟩ h
    refine ⟨?_, hstep st st' hs hP h⟩
    rcases h.net_cases with heq | ⟨l, hl, -⟩
    · exact heq ▸ hs
    · exact hs.step (Net.steps_of_step hl)

/-! ### Hooks of one mode -/

omit [DecidableEq K] in
/-- Hooks that all belong to one mode admit every step of that mode. -/
private theorem admits_of_hooks (hs : Net.Sound d.world st.net) (hhooks : ∀ e, d.hooks e = mode.hooks)
    (hsigners : ∀ e mode', d.signerOf e mode' = none) {l : Label} (hl : l.ofMode mode = true) {net : Net}
    (hnet : st.net.step d.world l = some net) : d.admits st l = true := by
  cases l with
  | gate e mode' act =>
    cases act with
    | call addr =>
      obtain rfl : mode' = mode := of_decide_eq_true hl
      simp only [admits, hhooks]
      cases mode' <;> rfl
    | _ => rfl
  | accept c =>
    obtain rfl : c.mode = mode := of_decide_eq_true hl
    simp only [admits, hhooks]
    cases c.mode with
    | oneWay => simp [Mode.hooks, Hook.afterHandshake, IncomingAuthHook.afterHandshake, afterHandshake, Mode.alpn]
    | twoWay => simp [Mode.hooks, Hook.afterHandshake, MutualAuthHook.afterHandshake, afterHandshake, Mode.alpn]
  | answer s ev delivered =>
    obtain ⟨op, r⟩ := ev
    cases op with
    | connect remoteAddr alpn =>
      cases r with
      | error e => rfl
      | ok u =>
        obtain ⟨p, q, hp, hq, -⟩ := Net.step_answer hnet
        obtain ⟨cont, rfl, -⟩ := advance_eq_some hq
        obtain ⟨-, rfl⟩ := hs.connects hp
        obtain rfl : s.1.mode = mode := of_decide_eq_true hl
        simp only [admits, hhooks]
        cases s.1.mode with
        | oneWay => simp [Mode.hooks, Hook.beforeConnect, Deployed.beforeConnect, beforeConnect]
        | twoWay => simp [Mode.hooks, Hook.beforeConnect, Deployed.beforeConnect, beforeConnect]
    | sign message => simp [admits, hsigners]
    | _ => rfl
  | _ => rfl

/-- Where all endpoints have mounted the hooks of one mode, their deployment can do in that mode whatever the network
can do. -/
theorem run_of_net (hs : Net.Sound d.world st.net) (hhooks : ∀ e, d.hooks e = mode.hooks)
    (hsigners : ∀ e mode', d.signerOf e mode' = none) {labels : List Label}
    (hl : ∀ l ∈ labels, l.ofMode mode = true) {net : Net} (h : st.net.run d.world labels = some net) :
    d.run st (labels.map .net) = some { st with net } := by
  induction labels generalizing st with
  | nil =>
    cases h
    rfl
  | cons l labels ih =>
    obtain ⟨net₁, h₁, h₂⟩ := Option.bind_eq_some_iff.1 h
    have hadmits := admits_of_hooks hs hhooks hsigners (hl l List.mem_cons_self) h₁
    have hrest : d.run { st with net := net₁ } (labels.map .net) = some { st with net } :=
      ih (hs.step (Net.steps_of_step h₁)) (fun l' hm => hl l' (List.mem_cons_of_mem _ hm)) h₂
    simp [run, step, hadmits, h₁, hrest]

/-! ### Hooks of the other mode -/

/-- What the hooks of the other mode have let through. -/
structure Vetted (d : Deployment hyde K) (st : Deployed hyde K) : Prop where
  dialled : ∀ (c : Conn) (mode : Mode), ⟨.connect c.target c.mode.alpn, .ok ()⟩ ∈ st.net.trace (c, .dialer) →
    mode ≠ c.mode → mode.hook ∈ d.hooks c.dialer → c.target.id ∈ (st.net.gate c.dialer mode).task.allowed
  accepted : ∀ c : Conn, st.net.proc (c, .acceptor) ≠ none →
    (c.mode = .twoWay → .incoming ∈ d.hooks c.target.id → c.dialer ∈ st.net.incoming c.target.id) ∧
      (c.mode = .oneWay → .mutual ∈ d.hooks c.target.id → c.dialer ∈ (st.net.gate c.target.id .twoWay).task.allowed)

private theorem mono_of_step (hs : Net.Sound d.world st.net) (h : Steps d st st') :
    (∀ e mode, (st.net.gate e mode).task.allowed ⊆ (st'.net.gate e mode).task.allowed) ∧
      ∀ e, st.net.incoming e ⊆ st'.net.incoming e := by
  rcases h.net_cases with heq | ⟨l, hl, -⟩
  · rw [heq]
    exact ⟨fun _ _ => Finset.Subset.refl _, fun _ => Finset.Subset.refl _⟩
  · have hstep := Net.steps_of_step hl
    exact ⟨hs.recorded.allowed_mono hstep, hstep.incoming_mono⟩

private theorem Vetted.step (hv : Vetted d st) (ha : Asked st) (hs : Net.Sound d.world st.net) (h : Steps d st st') :
    Vetted d st' := by
  obtain ⟨hallowed, hincoming⟩ := mono_of_step hs h
  refine ⟨fun c mode hm hmode hhook => hallowed _ _ ?_, fun c hp => ?_⟩
  · rcases h.connected hm with hold | hnew
    · exact hv.dialled c mode hold hmode hhook
    · exact ha.allowed hs hmode (hnew _ hhook)
  · rcases h.accepted hp with hold | hnew
    · obtain ⟨hin, hmut⟩ := hv.accepted c hold
      exact ⟨fun hmode hhook => hincoming _ (hin hmode hhook), fun hmode hhook => hallowed _ _ (hmut hmode hhook)⟩
    · exact ⟨fun hmode hhook => hincoming _ (mem_incoming hmode (hnew _ hhook)),
        fun hmode hhook => hallowed _ _ (mem_allowed hmode (hnew _ hhook))⟩

/-- The hooks of one mode gate the handshakes of the other one.  Behind a `MutualAuthHook` a remote is authenticated in
the one-directional mode only when it is in the mutual set; behind an `OutgoingAuthHook` the task of the mutual mode
authenticates only remotes that the one-directional task allows, and behind an `IncomingAuthHook` its acceptor only
those that have authenticated in the one-directional mode. -/
theorem hooks_gate_handshakes (d : Deployment hyde K) {acts : List (Act K)} (h : d.run d.init acts = some st)
    (e : EndpointId) :
    (.mutual ∈ d.hooks e →
        (st.net.gate e .oneWay).task.allowed ⊆ (st.net.gate e .twoWay).task.allowed ∧
          st.net.incoming e ⊆ (st.net.gate e .twoWay).task.allowed) ∧
      (.outgoing ∈ d.hooks e → .incoming ∈ d.hooks e →
        (st.net.gate e .twoWay).task.allowed ⊆ (st.net.gate e .oneWay).task.allowed ∪ st.net.incoming e) := by
  have hs := sound_of_run h
  have hv : Vetted d st := by
    refine (sound_induction (P := fun st => Asked st ∧ Vetted d st) ?_ ?_ h).2
    · exact fun st st' hs hP h => ⟨hP.1.step hs h, hP.2.step hP.1 hs h⟩
    · exact ⟨fun _ _ _ => nofun, fun _ _ => nofun, fun _ hp => absurd rfl hp⟩
  refine ⟨fun hmut => ⟨fun x hx => ?_, fun x hx => ?_⟩, fun hout hin x hx => ?_⟩
  · rcases hs.session_of_allowed hx with ⟨c, rfl, rfl, hmode, hret⟩ | ⟨hmode, -⟩
    · exact hv.dialled c .twoWay (hs.trace_of_ok hret).1 (by simp [hmode]) hmut
    · cases hmode
  · obtain ⟨c, rfl, rfl, hmode, hm⟩ := hs.session_of_incoming hx
    exact (hv.accepted c (hs.started_of_mem hm)).2 hmode hmut
  · rcases hs.session_of_allowed hx with ⟨c, rfl, rfl, hmode, hret⟩ | ⟨-, c, rfl, rfl, hmode, hm⟩
    · exact Finset.mem_union_left _ (hv.dialled c .oneWay (hs.trace_of_ok hret).1 (by simp [hmode]) hout)
    · exact Finset.mem_union_right _ ((hv.accepted c (hs.started_of_mem hm)).1 hmode hin)

/-- Bob has mounted the hooks of both modes.  Alice has authenticated with him in the mutual mode; now he dials her, and
his `MutualAuthHook` is asked about the auth connection. -/
private def backToBack (d : Deployment HydeSigner.counting Unit) : List (Act Unit) :=
  let c : Conn := ⟨Duo.bob, ⟨Duo.alice, ∅⟩, .oneWay, 1⟩
  let opening : List (Act Unit) := (Duo.labels .twoWay ++ [Label.join Duo.alice .twoWay (Duo.conn .twoWay)]).map .net ++
    [.net (.gate Duo.bob .oneWay (.call ⟨Duo.alice, ∅⟩)), .net (.gate Duo.bob .oneWay (.send 0)),
      .net (.recv Duo.bob .oneWay 1), .dial c .twoWay, .net (.gate Duo.bob .twoWay (.send 0)),
      .net (.recv Duo.bob .twoWay 2), .net (.accept c)]
  match d.run d.init opening with
  | none => []
  | some st => opening ++
      (st.net.playOut d.world (Duo.party Duo.bob 2 1000) (Duo.party Duo.alice 1 1000) c 40).map .net ++
      [.net (.join Duo.bob .oneWay c)]

/-- Alice and Bob with these hooks, and with signers of their own. -/
private def duo (hooks : EndpointId → List Hook) : Deployment HydeSigner.counting Unit where
  world := Duo.world none
  hooks
  parts _ := ((0 : Nat), [1])
  signerOf _ _ := none
  keys _ _ h := (Option.some_ne_none _ h.symm).elim
  postcard := Duo.postcard

theorem duo_hooks_gate_handshakes :
    let d := duo fun x => if x = Duo.bob then [.outgoing, .mutual] else [.mutual]
    ∃ st, d.run d.init (backToBack d) = some st ∧ Duo.alice ∈ (st.net.gate Duo.bob .oneWay).task.allowed ∧
      Duo.alice ∈ (st.net.gate Duo.bob .twoWay).task.allowed := by
  intro d
  have hrun : (d.run d.init (backToBack d)).any (fun st =>
      decide (Duo.alice ∈ (st.net.gate Duo.bob .oneWay).task.allowed)) = true := by
    decide +kernel
  obtain ⟨st, h, hst⟩ := (Option.any_eq_true _ _).1 hrun
  have hx := of_decide_eq_true hst
  exact ⟨st, h, hx, ((hooks_gate_handshakes d h Duo.bob).1 (by decide)).1 hx⟩

/-! ### All three hooks -/

/-- Nobody was ever let through, in either direction. -/
structure LockedOut (st : Net) (e : EndpointId) : Prop where
  dialled : ∀ c : Conn, c.dialer = e → ⟨.connect c.target c.mode.alpn, .ok ()⟩ ∉ st.trace (c, .dialer)
  accepted : ∀ c : Conn, c.target.id = e → st.proc (c, .acceptor) = none

omit [DecidableEq K] in
private theorem LockedOut.empty (hl : LockedOut st.net e) (hs : Net.Sound d.world st.net) :
    (∀ mode, (st.net.gate e mode).task.allowed = ∅) ∧ st.net.incoming e = ∅ := by
  refine ⟨fun mode => Finset.eq_empty_of_forall_notMem fun x hx => ?_, Finset.eq_empty_of_forall_notMem fun x hx => ?_⟩
  · rcases hs.session_of_allowed hx with ⟨c, hd, -, -, hret⟩ | ⟨-, c, -, ht, -, hm⟩
    · exact hl.dialled c hd (hs.trace_of_ok hret).1
    · exact hs.started_of_mem hm (hl.accepted c ht)
  · obtain ⟨c, -, ht, -, hm⟩ := hs.session_of_incoming hx
    exact hs.started_of_mem hm (hl.accepted c ht)

/-- As long as its sets are empty, one of its three hooks rejects every handshake of either mode. -/
private theorem LockedOut.step (hl : LockedOut st.net e) (ha : Asked st) (hs : Net.Sound d.world st.net)
    (hout : .outgoing ∈ d.hooks e) (hin : .incoming ∈ d.hooks e) (hmut : .mutual ∈ d.hooks e) (h : Steps d st st') :
    LockedOut st'.net e := by
  obtain ⟨hallowed, hincoming⟩ := hl.empty hs
  refine ⟨?_, ?_⟩
  · rintro c rfl hm
    rcases h.connected hm with hold | hnew
    · exact hl.dialled c rfl hold
    · obtain ⟨mode, hmode, hhook⟩ : ∃ mode : Mode, mode ≠ c.mode ∧ mode.hook ∈ d.hooks c.dialer := by
        cases hc : c.mode with
        | oneWay => exact ⟨.twoWay, by simp, hmut⟩
        | twoWay => exact ⟨.oneWay, by simp, hout⟩
      have hx := ha.allowed hs hmode (hnew _ hhook)
      simp [hallowed] at hx
  · rintro c rfl
    by_contra hp
    rcases h.accepted hp with hold | hnew
    · exact hold (hl.accepted c rfl)
    · cases hc : c.mode with
      | oneWay =>
        have hx := mem_allowed hc (hnew _ hmut)
        simp [hallowed] at hx
      | twoWay =>
        have hx := mem_incoming hc (hnew _ hin)
        simp [hincoming] at hx

/-- An endpoint that has mounted all three hooks locks everybody out, whatever the others do: in every reachable state
it has authenticated nobody in either mode, no application dial of it passes its hooks, and no application connection to
it does. -/
theorem all_hooks_lock_out (d : Deployment hyde K) {acts : List (Act K)} (h : d.run d.init acts = some st)
    {e : EndpointId} (hout : .outgoing ∈ d.hooks e) (hin : .incoming ∈ d.hooks e) (hmut : .mutual ∈ d.hooks e) :
    (∀ mode, (st.net.gate e mode).task.allowed = ∅) ∧ st.net.incoming e = ∅ ∧
      ∀ alpn, alpn ≠ ALPN → alpn ≠ MUTUAL_ALPN →
        (∀ mode k, (st.net.gate e mode).beforeConnect d.postcard mode alpn k ≠ some .accept) ∧
        ∀ x, Hook.afterHandshake st.net e alpn x .incoming ≠ .accept ∧
          Hook.afterHandshake st.net e alpn x .mutual ≠ .accept := by
  have hs := sound_of_run h
  have hl : LockedOut st.net e := by
    refine (sound_induction (P := fun st => Asked st ∧ LockedOut st.net e) ?_ ?_ h).2
    · exact fun st st' hs hP h => ⟨hP.1.step hs h, hP.2.step hP.1 hs hout hin hmut h⟩
    · exact ⟨fun _ _ _ => nofun, fun _ _ => nofun, fun _ _ => rfl⟩
  obtain ⟨hallowed, hincoming⟩ := hl.empty hs
  refine ⟨hallowed, hincoming, fun alpn h₁ h₂ => ⟨fun mode k hb => ?_, fun x => ⟨fun ha => ?_, fun ha => ?_⟩⟩⟩
  · have halpn : alpn ≠ mode.alpn := by
      cases mode with
      | oneWay => exact h₁
      | twoWay => exact h₂
    have hr := Authenticator.mem_replies_of_authenticate (Authenticator.authenticate_of_beforeConnect halpn hb)
    obtain ⟨acts', hacts⟩ := hs.recorded.reachable e mode
    obtain ⟨addr, -, hx⟩ := (Authenticator.answers_of_run hacts).ok k hr
    simp [hallowed] at hx
  · have hx := mem_of_afterHandshake h₁ ha
    simp [hincoming] at hx
  · have hx := mem_of_afterHandshake h₂ ha
    simp [hallowed] at hx

/-- Alice dials Bob.  Her `MutualAuthHook` is asked about the auth connection and has its task dial another one, about
which her `OutgoingAuthHook` is asked. -/
private def mutualWait : List (Act Unit) :=
  [.net (.gate Duo.alice .oneWay (.call ⟨Duo.bob, ∅⟩)), .net (.gate Duo.alice .oneWay (.send 0)),
    .net (.recv Duo.alice .oneWay 0), .dial (Duo.conn .oneWay) .twoWay, .net (.gate Duo.alice .twoWay (.send 0)),
    .net (.recv Duo.alice .twoWay 0), .dial (Duo.conn .twoWay) .oneWay, .net (.gate Duo.alice .oneWay (.send 1)),
    .net (.recv Duo.alice .oneWay 1)]

theorem duo_all_hooks_lock_out :
    let d := duo fun _ => [.outgoing, .incoming, .mutual]
    ∃ st, d.run d.init mutualWait = some st ∧ (st.net.gate Duo.alice .oneWay).pendingAt Duo.bob = [0, 1] ∧
      (st.net.gate Duo.alice .twoWay).pendingAt Duo.bob = [0] ∧
      (∀ mode, (st.net.gate Duo.alice mode).task.allowed = ∅) ∧ st.net.incoming Duo.alice = ∅ := by
  intro d
  have hrun : (d.run d.init mutualWait).any (fun st =>
      decide ((st.net.gate Duo.alice .oneWay).pendingAt Duo.bob = [0, 1] ∧
        (st.net.gate Duo.alice .twoWay).pendingAt Duo.bob = [0])) = true := by
    decide +kernel
  obtain ⟨st, h, hst⟩ := (Option.any_eq_true _ _).1 hrun
  obtain ⟨h₁, h₂⟩ := of_decide_eq_true hst
  obtain ⟨hallowed, hincoming, -⟩ := all_hooks_lock_out d h (e := Duo.alice) (by decide) (by decide) (by decide)
  exact ⟨st, h, h₁, h₂, hallowed, hincoming⟩

end Deployment

end IrohHydeAuth
