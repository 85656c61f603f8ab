import IrohHydeAuth.Deployment

/-!
# One signer for all handshakes

The handshakes of an endpoint share its `HydeSigner`.  Each of them gets a signature over its own message and under the
key of its endpoint, whoever else signs at the same time (`signed_for_itself`).  But they also share the fate of the
signer: once hyde has panicked under one of them, no handshake gets a signature any more, and nobody is authenticated
but by handshakes that had theirs by then (`panic_is_for_all`).
-/

namespace IrohHydeAuth

open Process Prog

namespace Net

variable {w : World} {st : Net}

/-- A session that puts a remote into the set of a task has been given a signature. -/
private theorem Sound.signed_of_allowed (hs : Sound w st) {e x : EndpointId} {mode : Mode}
    (hx : x ∈ (st.gate e mode).task.allowed) :
    ∃ s : End, s.owner = e ∧ s.peer.owner = x ∧ s.1.mode = mode ∧
      ∃ message sig, ⟨.sign message, .ok sig⟩ ∈ st.trace s := by
  rcases hs.session_of_allowed hx with ⟨c, rfl, rfl, hmode, hret⟩ | ⟨rfl, c, rfl, rfl, hmode, hm⟩
  · exact ⟨(c, .dialer), rfl, rfl, hmode, (hs.trace_of_ok hret).2⟩
  · refine ⟨(c, .acceptor), rfl, rfl, hmode, ?_⟩
    obtain ⟨-, hello, challenge, response, hver, -⟩ := hs.mutual_verified hmode hm
    obtain ⟨n, h₁, h₂, localId, -, htrace, hverified, -⟩ := hver
    obtain ⟨institution, hchallenged⟩ := hverified
    exact ⟨_, _, by simpa [htrace] using .inl hchallenged.sign_mem⟩

end Net

namespace Deployment

variable {hyde : Hyde} {K : Type} [DecidableEq K] {d : Deployment hyde K} {st st' : Deployed hyde K}

/-! ### What a step does to the threads -/

/-- A step of a deployment is one of a signer, or leaves that alone. -/
private theorem Steps.signer_cases (h : Steps d st st') (k : K) :
    st'.signers k = st.signers k ∨ ∃ act, (st.signers k).step act = some (st'.signers k) := by
  have hset : ∀ {k' : K} {act signer}, (st.signers k').step act = some signer →
      (setSigner st k' signer).signers k = st.signers k ∨
        ∃ act, (st.signers k).step act = some ((setSigner st k' signer).signers k) := by
    intro k' act signer hstep
    by_cases hk : k = k'
    · subst hk
      exact .inr ⟨act, by simpa [setSigner] using hstep⟩
    · exact .inl (by simp [setSigner, hk])
  cases h with
  | net hadmits hnet => exact .inl rfl
  | dial hproc hnet => exact .inl rfl
  | sign hproc hk hcall => exact hset hcall
  | turn hcall hturn => exact hset hturn
  | signed hproc hk hthread hout hnet => exact .inl rfl

/-- A session is given a signature by the thread that it waits for. -/
private theorem Steps.signed_of_mem (h : Steps d st st') {s : End} {k : K} (hk : d.signerOf s.owner s.1.mode = some k)
    {message sig : Bytes} (hm : ⟨.sign message, .ok sig⟩ ∈ st'.net.trace s) :
    ⟨.sign message, .ok sig⟩ ∈ st.net.trace s ∨
      ∃ i out cont, st.thread s = some i ∧ st.net.proc s = some (ask (.sign message) cont) ∧
        (i, out) ∈ (st.signers k).inner.results ∧ HydeSigner.signBlocking out = .ok sig := by
  cases h with
  | net hadmits hnet =>
    rcases Net.answer_of_mem hnet hm with hold | ⟨delivered, rfl⟩
    · exact .inl hold
    · simp [admits, hk] at hadmits
  | dial hproc hnet =>
    rcases Net.answer_of_mem hnet hm with hold | ⟨delivered, hl⟩
    · exact .inl hold
    · cases hl
  | sign hproc hk' hcall => exact .inl hm
  | turn hcall hturn => exact .inl hm
  | signed hproc hk' hthread hout hnet =>
    rcases Net.answer_of_mem hnet hm with hold | ⟨delivered, hl⟩
    · exact .inl hold
    · injection hl with hs hev
      subst hs
      injection hev with hop hr
      injection hop with hmessage
      subst hmessage
      rw [hk] at hk'
      cases hk'
      exact .inr ⟨_, _, _, hthread, hproc, hout, hr⟩

/-- A session waits for the thread it waited for, and is where it was, or it has just called its signer. -/
private theorem Steps.thread_cases (h : Steps d st st') {s : End} {k : K} (hk : d.signerOf s.owner s.1.mode = some k)
    {i : Nat} (hi : st'.thread s = some i) :
    (st.thread s = some i ∧ ∀ message cont, st.net.proc s = some (ask (.sign message) cont) →
        st'.net.proc s = some (ask (.sign message) cont)) ∨
      ∃ message cont, st'.net.proc s = some (ask (.sign message) cont) ∧ i = (st.signers k).inner.calls.length ∧
        (st.signers k).step (.call message) = some (st'.signers k) := by
  have hkeeps : ∀ {l : Label} {net : Net}, st.net.step d.world l = some net →
      (∀ message r delivered, l ≠ .answer s ⟨.sign message, r⟩ delivered) → ∀ message cont,
        st.net.proc s = some (ask (.sign message) cont) → net.proc s = some (ask (.sign message) cont) := by
    intro l net hnet hl message cont hproc
    rcases Net.proc_of_step hnet hproc with hproc' | ⟨⟨op, r⟩, delivered, q, rfl, hadv⟩
    · exact hproc'
    · obtain ⟨cont', hask, -⟩ := advance_eq_some hadv
      cases hask
      exact absurd rfl (hl message r delivered)
  cases h with
  | net hadmits hnet =>
    refine .inl ⟨hi, hkeeps hnet ?_⟩
    rintro message r delivered rfl
    simp [admits, hk] at hadmits
  | dial hproc hnet => exact .inl ⟨hi, hkeeps hnet (by simp)⟩
  | @sign s' k' message cont signer hproc hk' hcall =>
    by_cases hs : s = s'
    · subst hs
      rw [hk] at hk'
      cases hk'
      refine .inr ⟨message, cont, hproc, ?_, by simpa [setSigner] using hcall⟩
      simpa using hi.symm
    · exact .inl ⟨by simpa [hs] using hi, fun message cont hproc => hproc⟩
  | turn hcall hturn => exact .inl ⟨hi, fun message cont hproc => hproc⟩
  | @signed s' k' j message cont out net hproc hk' hthread hout hnet =>
    by_cases hs : s = s'
    · subst hs
      simp at hi
    · exact .inl ⟨by simpa [hs] using hi, hkeeps hnet fun _ _ _ hl => hs (Label.answer.inj hl).1.symm⟩

/-! ### Signatures -/

/-- The signers are in states that their threads lead to, and the thread of a session signs its message. -/
structure Signing (d : Deployment hyde K) (st : Deployed hyde K) : Prop where
  reachable : ∀ k, ∃ acts, (HydeSigner.fromParts (d.parts k).1 (d.parts k).2).run acts = some (st.signers k)
  thread : ∀ (s : End) (k : K) (i : Nat), d.signerOf s.owner s.1.mode = some k → st.thread s = some i →
    ∃ message cont, st.net.proc s = some (ask (.sign message) cont) ∧ (st.signers k).inner.calls[i]? = some message
  signed : ∀ (s : End) (k : K) (message sig : Bytes), d.signerOf s.owner s.1.mode = some k →
    ⟨.sign message, .ok sig⟩ ∈ st.net.trace s →
    ∃ ctx₁ ctx₂, hyde.sign ctx₁ (d.parts k).2 message = .returned ctx₂ (.ok sig)

omit [DecidableEq K] in
private theorem signing_init (d : Deployment hyde K) : Signing d d.init :=
  ⟨fun _ => ⟨[], rfl⟩, fun _ _ _ _ => nofun, fun _ _ _ _ _ => nofun⟩

private theorem Signing.step (hg : Signing d st) (h : Steps d st st') : Signing d st' := by
  refine ⟨fun k => ?_, fun s k i hk hi => ?_, fun s k message sig hk hm => ?_⟩
  · obtain ⟨acts, hacts⟩ := hg.reachable k
    rcases h.signer_cases k with heq | ⟨act, hact⟩
    · exact ⟨acts, heq ▸ hacts⟩
    · exact ⟨acts ++ [act], HydeSigner.run_snoc hacts hact⟩
  · rcases h.thread_cases hk hi with ⟨hold, hkeeps⟩ | ⟨message, cont, hproc, rfl, hcall⟩
    · obtain ⟨message, cont, hproc, hcall⟩ := hg.thread s k i hk hold
      refine ⟨message, cont, hkeeps message cont hproc, ?_⟩
      rcases h.signer_cases k with heq | ⟨act, hact⟩
      · rw [heq, hcall]
      · exact Authenticator.prefix_getElem? (HydeSigner.calls_prefix hact) hcall
    · exact ⟨message, cont, hproc, by simp [(HydeSigner.step_call hcall).1]⟩
  · rcases h.signed_of_mem hk hm with hold | ⟨i, out, cont, hi, hproc, hout, hsig⟩
    · exact hg.signed s k message sig hk hold
    · obtain ⟨acts, hacts⟩ := hg.reachable k
      obtain ⟨message', cont', hproc', hcall⟩ := hg.thread s k i hk hi
      rw [hproc] at hproc'
      cases hproc'
      exact HydeSigner.signed_of_result hacts hcall hout hsig

private theorem signing_of_run {acts : List (Act K)} (h : d.run d.init acts = some st) : Signing d st :=
  run_induction (fun _ _ hg hstep => hg.step hstep) (signing_init d) h

/-- Whichever handshakes sign with one signer, and however their threads meet at its mutex: a handshake that is given a
signature is given one over its own message that verifies under the key of its own endpoint, if the key was generated by
a hyde that signs validly. -/
theorem signed_for_itself (d : Deployment hyde K) (hvalid : HydeSigner.Hyde.SignsValidly hyde d.world.crypto)
    {acts : List (Act K)} (h : d.run d.init acts = some st) {s : End} {k : K}
    (hk : d.signerOf s.owner s.1.mode = some k)
    (hgen : ∃ ctx₀ ctx, hyde.generateSigningKey ctx₀ .mlDsa65 = .ok (ctx, (d.parts k).2)) {message sig : Bytes}
    (hm : ⟨.sign message, .ok sig⟩ ∈ st.net.trace s) :
    ∃ key, d.world.signingKey s = some key ∧ d.world.crypto.verifySignature .mlDsa65 key message sig = .ok true := by
  obtain ⟨ctx₀, ctx, hgen⟩ := hgen
  obtain ⟨ctx₁, ctx₂, hsign⟩ := (signing_of_run h).signed s k message sig hk hm
  exact ⟨_, d.keys s k hk, hvalid _ _ _ hgen _ _ _ _ hsign⟩

section Duo

/-- A hyde that signs by repeating the message behind its key, once. -/
def fragile : Hyde where
  Context := Nat
  WrappedSigningKey := Bytes
  verifyingKey := id
  autoDetect _ := .ok 0
  generateSigningKey ctx _ := .ok (ctx, [1])
  sign ctx key message := if ctx = 0 then .returned 1 (.ok (key ++ message)) else .panicked ctx "TPM lost"

private theorem fragile_valid : HydeSigner.Hyde.SignsValidly fragile (Duo.world none).crypto := by
  intro ctx₀ ctx key _ ctx₁ ctx₂ message sig hsign
  simp only [fragile] at hsign
  split at hsign
  · cases hsign
    exact congrArg Except.ok (decide_eq_true rfl)
  · cases hsign

private def aliceSigner (e : EndpointId) : Option Unit := if e = Duo.alice then some () else none

private theorem aliceSigner_key (s : End) (k : Unit) (h : aliceSigner s.owner = some k) :
    (Duo.world none).signingKey s = some [1] := by
  rw [aliceSigner] at h
  split at h
  · rename_i hs
    simp only [World.signingKey, hs]
    cases s.1.mode with
    | oneWay => rfl
    | twoWay => rfl
  · cases h

/-- Alice and Bob, with the hooks of the mutual mode; Alice signs with a `HydeSigner`. -/
private def mutualDuo : Deployment fragile Unit where
  world := Duo.world none
  hooks _ := [.mutual]
  parts _ := ((0 : Nat), [1])
  signerOf e _ := aliceSigner e
  keys := aliceSigner_key
  postcard := Duo.postcard

/-- Bob dials Alice. -/
private def backConn : Conn := ⟨Duo.bob, ⟨Duo.alice, ∅⟩, .twoWay, 0⟩

private def backLabels : List Label :=
  let opening : List Label := [.publish Duo.alice, .gate Duo.bob .twoWay (.call ⟨Duo.alice, ∅⟩),
    .gate Duo.bob .twoWay (.send 0), .recv Duo.bob .twoWay 0, .accept backConn]
  match Net.init.run (Duo.world none) opening with
  | none => []
  | some st => opening ++
      st.playOut (Duo.world none) (Duo.party Duo.bob 2 1000) (Duo.party Duo.alice 1 1000) backConn 40

private def aliceSigns : Label → Bool
  | .answer s ⟨.sign _, _⟩ _ => decide (s.owner = Duo.alice)
  | _ => false

/-- Alice and Bob dial each other, and Alice signs twice; hyde panics under the second thread. -/
private def crossing : List (Act Unit) :=
  ((Duo.labels .twoWay).takeWhile (!aliceSigns ·) ++ backLabels.takeWhile (!aliceSigns ·)).map .net ++
    [.sign (Duo.conn .twoWay, .dialer), .sign (backConn, .acceptor), .lock () 0, .unlock (), .lock () 1, .unlock ()]

/-- Both threads are joined, and the handshake that has its signature goes through. -/
private def finishing : List (Act Unit) :=
  [.signed (Duo.conn .twoWay, .dialer), .signed (backConn, .acceptor)] ++
    ((Duo.labels .twoWay).dropWhile (!aliceSigns ·)).tail.map .net ++
    [.net (.join Duo.alice .twoWay (Duo.conn .twoWay))]

theorem duo_signed_for_itself : ∃ st s message sig, mutualDuo.run mutualDuo.init (crossing ++ finishing) = some st ∧
    s.owner = Duo.alice ∧ ⟨.sign message, .ok sig⟩ ∈ st.net.trace s ∧
    ∃ key, (Duo.world none).signingKey s = some key ∧
      (Duo.world none).crypto.verifySignature .mlDsa65 key message sig = .ok true := by
  have hrun : (mutualDuo.run mutualDuo.init (crossing ++ finishing)).any (fun st =>
      decide (Duo.bob ∈ (st.net.gate Duo.alice .twoWay).task.allowed)) = true := by
    decide +kernel
  obtain ⟨st, h, hst⟩ := (Option.any_eq_true _ _).1 hrun
  obtain ⟨s, ho, -, -, message, sig, hm⟩ := (sound_of_run h).signed_of_allowed (of_decide_eq_true hst)
  have hk : mutualDuo.signerOf s.owner s.1.mode = some () := by
    rw [ho]
    rfl
  exact ⟨st, s, message, sig, h, ho, hm, signed_for_itself mutualDuo fragile_valid h hk ⟨(0 : Nat), (0 : Nat), rfl⟩ hm⟩

end Duo

/-! ### A panic -/

/-- The session has a signature, or the thread that it waits for has. -/
def Holds (d : Deployment hyde K) (st : Deployed hyde K) (s : End) : Prop :=
  ∃ message sig, ⟨.sign message, .ok sig⟩ ∈ st.net.trace s ∨
    ∃ k i out, d.signerOf s.owner s.1.mode = some k ∧ st.thread s = some i ∧ (i, out) ∈ (st.signers k).inner.results ∧
      HydeSigner.signBlocking out = .ok sig

/-- Once its signer is poisoned, a session gets no signature that it does not hold. -/
private theorem Holds.of_step {s : End} {k : K} (hk : d.signerOf s.owner s.1.mode = some k) (hg : Signing d st)
    (hp : (st.signers k).inner.poisoned = true) (h : Steps d st st') (hs : d.Holds st' s) : d.Holds st s := by
  obtain ⟨message, sig, hm | ⟨k', i, out, hk', hi, hout, hsig⟩⟩ := hs
  · rcases h.signed_of_mem hk hm with hold | ⟨i, out, cont, hi, -, hout, hsig⟩
    · exact ⟨message, sig, .inl hold⟩
    · exact ⟨message, sig, .inr ⟨k, i, out, hk, hi, hout, hsig⟩⟩
  · rw [hk] at hk'
    cases hk'
    rcases h.thread_cases hk hi with ⟨hold, -⟩ | ⟨message', cont, -, rfl, hcall⟩
    · refine ⟨message, sig, .inr ⟨k, i, out, hk, hold, ?_, hsig⟩⟩
      rcases h.signer_cases k with heq | ⟨act, hact⟩
      · exact heq ▸ hout
      · rcases (HydeSigner.poisoned_step hp hact).2 _ hout with hin | hpoisoned
        · exact hin
        · obtain rfl : out = .poisoned := hpoisoned
          cases hsig
    · -- the thread has not been served yet
      obtain ⟨acts, hacts⟩ := hg.reachable k
      rw [(HydeSigner.step_call hcall).2] at hout
      exact absurd (HydeSigner.lt_of_result hacts hout) (lt_irrefl _)

/-- Once hyde has panicked under a signer, the handshakes of an endpoint that signs with it get no signature any more;
so whoever is in the set of its task, then or at any later time, was authenticated by a handshake that had its signature
by then. -/
theorem panic_is_for_all (d : Deployment hyde K) {acts : List (Act K)} (h : d.run d.init acts = some st) {k : K}
    (hp : (st.signers k).inner.poisoned = true) {acts' : List (Act K)} (h' : d.run st acts' = some st')
    {e : EndpointId} {mode : Mode} (hk : d.signerOf e mode = some k) :
    (∀ s : End, s.owner = e → s.1.mode = mode → ¬ d.Holds st s → ¬ d.Holds st' s) ∧
      ∀ x ∈ (st'.net.gate e mode).task.allowed, ∃ s : End, s.owner = e ∧ s.peer.owner = x ∧ s.1.mode = mode ∧
        d.Holds st s := by
  have hback : ∀ s : End, s.owner = e → s.1.mode = mode → d.Holds st' s → d.Holds st s := by
    rintro s rfl rfl
    have hP := run_induction (P := fun st' => Signing d st' ∧ (st'.signers k).inner.poisoned = true ∧
      (d.Holds st' s → d.Holds st s)) ?_ ⟨signing_of_run h, hp, id⟩ h'
    · exact hP.2.2
    · rintro st₁ st₂ ⟨hg, hp₁, hholds⟩ hstep
      refine ⟨hg.step hstep, ?_, fun hs => hholds (hs.of_step hk hg hp₁ hstep)⟩
      rcases hstep.signer_cases k with heq | ⟨act, hact⟩
      · rw [heq, hp₁]
      · exact (HydeSigner.poisoned_step hp₁ hact).1
  refine ⟨fun s hs hmode hn hh => hn (hback s hs hmode hh), fun x hx => ?_⟩
  obtain ⟨labels, hlabels⟩ := run_net h'
  obtain ⟨s, rfl, hpeer, rfl, message, sig, hm⟩ := ((sound_of_run h).run hlabels).signed_of_allowed hx
  exact ⟨s, rfl, hpeer, rfl, hback s rfl rfl ⟨message, sig, .inl hm⟩⟩

theorem duo_panic_is_for_all : ∃ st st', mutualDuo.run mutualDuo.init crossing = some st ∧
    mutualDuo.run st finishing = some st' ∧ Duo.bob ∈ (st'.net.gate Duo.alice .twoWay).task.allowed ∧
    ∃ s : End, s.owner = Duo.alice ∧ s.peer.owner = Duo.bob ∧ mutualDuo.Holds st s := by
  have hrun : (mutualDuo.run mutualDuo.init crossing).any (fun st =>
      decide ((st.signers ()).inner.poisoned = true ∧ (mutualDuo.run st finishing).any (fun st' =>
        decide (Duo.bob ∈ (st'.net.gate Duo.alice .twoWay).task.allowed)) = true)) = true := by
    decide +kernel
  obtain ⟨st, h, hst⟩ := (Option.any_eq_true _ _).1 hrun
  obtain ⟨hp, hst'⟩ := of_decide_eq_true hst
  obtain ⟨st', h', hx⟩ := (Option.any_eq_true _ _).1 hst'
  have hx := of_decide_eq_true hx
  have hk : mutualDuo.signerOf Duo.alice .twoWay = some () := rfl
  obtain ⟨s, ho, hpeer, -, hs⟩ := (panic_is_for_all mutualDuo h hp h' hk).2 _ hx
  exact ⟨st, st', h, h', hx, s, ho, hpeer, hs⟩

end Deployment

end IrohHydeAuth
