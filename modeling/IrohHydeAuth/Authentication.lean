import IrohHydeAuth.Invariants
import IrohHydeAuth.FaultFree

/-!
# Authentication

What an endpoint may conclude from having authenticated another one, whatever the other sessions and the attackers
do.  The one assumption is that a key held only by honest signers cannot be forged (`Net.Unforgeable`).

The argument is the same three times.  A signature that verifies was made by some session of an honest endpoint; a
transcript names its kind, its role and the signer's endpoint id, so that session belongs to the id at the other end of
the connection, which is therefore honest.  Then both ends run the code of the crate, each reads what the other wrote,
and the two traces fit together (`Verified.agreement`, `Signed.agreement`).
-/

namespace IrohHydeAuth

open Process Prog

namespace Net

variable {w : World} {st : Net}

/-- What verifies under `key` was signed by a session of an honest endpoint whose key it is. -/
def Unforgeable (w : World) (st : Net) (key : Bytes) : Prop :=
  ∀ s message signature institution, ⟨.verify key message signature, .ok institution⟩ ∈ st.trace s →
    ∃ s' signature', ⟨.sign message, .ok signature'⟩ ∈ st.trace s' ∧ w.signingKey s' = some key

private theorem mem_trace {s : End} {ev : Event Resp} : ev ∈ st.trace s ↔ (s, ev) ∈ st.log := by
  simp [trace]

/-- Some session under `key` has signed `message`. -/
private def signs (w : World) (st : Net) (key message : Bytes) : Bool :=
  st.log.any fun
    | (s, ⟨.sign m, .ok _⟩) => decide (m = message ∧ w.signingKey s = some key)
    | _ => false

private theorem signs_iff {key message : Bytes} : signs w st key message = true ↔
    ∃ s signature, ⟨.sign message, .ok signature⟩ ∈ st.trace s ∧ w.signingKey s = some key := by
  simp only [signs, List.any_eq_true, mem_trace]
  constructor
  · rintro ⟨⟨s, op, r⟩, hm, he⟩
    split at he
    · rename_i hev
      cases hev
      obtain ⟨rfl, hkey⟩ := of_decide_eq_true he
      exact ⟨_, _, hm, hkey⟩
    · cases he
  · rintro ⟨s, signature, hm, hkey⟩
    exact ⟨_, hm, decide_eq_true ⟨rfl, hkey⟩⟩

instance : Decidable (∀ key, Unforgeable w st key) :=
  decidable_of_iff (st.log.all fun
    | (_, ⟨.verify key message _, .ok _⟩) => signs w st key message
    | _ => true) (by
    simp only [Unforgeable, List.all_eq_true]
    constructor
    · intro h key s message signature institution hm
      exact signs_iff.1 (h _ (mem_trace.1 hm))
    · rintro h ⟨s, op, r⟩ hm
      split
      · rename_i hev
        cases hev
        exact signs_iff.2 (h _ _ _ _ _ (mem_trace.2 hm))
      · rfl)

end Net

/-- The role in which an end of the mutual handshake signs. -/
def Side.role : Side → UInt8
  | .dialer => ROLE_INITIATOR
  | .acceptor => ROLE_ACCEPTOR

namespace Net

variable {w : World} {st : Net}

/-! ### The programs at the ends of a connection -/

section Programs

variable {c : Conn} {p : Session}

theorem program_dialer_oneWay (hm : c.mode = .oneWay) (hp : w.program (c, .dialer) = some p) :
    ∃ n, w.node c.dialer = some n ∧ p = (Outgoing.handshake c.dialer c.target n.signer).run := by
  obtain ⟨n, hn, rfl⟩ := Option.map_eq_some_iff.1 hp
  exact ⟨n, hn, by rw [hm]⟩

theorem program_dialer_twoWay (hm : c.mode = .twoWay) (hp : w.program (c, .dialer) = some p) :
    ∃ n, w.node c.dialer = some n ∧ p = (Mutual.handshake c.dialer c.target c.target.id n.mutualProtocol.signer
      (some DEFAULT_MAX_SKEW_SECS)).run := by
  obtain ⟨n, hn, rfl⟩ := Option.map_eq_some_iff.1 hp
  exact ⟨n, hn, by rw [hm]; rfl⟩

theorem program_acceptor_oneWay (hm : c.mode = .oneWay) (hp : w.program (c, .acceptor) = some p) :
    ∃ n, w.node c.target.id = some n ∧ p = n.protocol.accept c.dialer := by
  obtain ⟨n, hn, rfl⟩ := Option.map_eq_some_iff.1 hp
  exact ⟨n, hn, by rw [hm]⟩

theorem program_acceptor_twoWay (hm : c.mode = .twoWay) (hp : w.program (c, .acceptor) = some p) :
    ∃ n, w.node c.target.id = some n ∧ p = n.mutualProtocol.accept c.dialer := by
  obtain ⟨n, hn, rfl⟩ := Option.map_eq_some_iff.1 hp
  exact ⟨n, hn, by rw [hm]⟩

theorem program_isSome {s : End} {n : Node} (hn : w.node s.owner = some n) : (w.program s).isSome = true := by
  obtain ⟨c, side⟩ := s
  cases side with
  | dialer => simp [World.program, show w.node c.dialer = some n from hn]
  | acceptor => simp [World.program, show w.node c.target.id = some n from hn]

end Programs

/-- Between honest endpoints, both ends run the code of the crate and each has read only what the other wrote. -/
theorem Sound.both_ends (hs : Sound w st) {c : Conn} {n n' : Node} (hn : w.node c.dialer = some n)
    (hn' : w.node c.target.id = some n') :
    (∃ p q, w.program (c, .dialer) = some p ∧ Path p (st.trace (c, .dialer)) q) ∧
      (∃ p q, w.program (c, .acceptor) = some p ∧ Path p (st.trace (c, .acceptor)) q) ∧
      reads (st.trace (c, .acceptor)) <+: written (st.trace (c, .dialer)) ∧
      reads (st.trace (c, .dialer)) <+: written (st.trace (c, .acceptor)) := by
  have hp : (w.program (c, .dialer)).isSome = true := program_isSome hn
  have hp' : (w.program (c, .acceptor)).isSome = true := program_isSome hn'
  refine ⟨?_, ?_, (hs.streams.reads (c, .acceptor)).trans (hs.streams.sent (c, .dialer) hp),
    (hs.streams.reads (c, .dialer)).trans (hs.streams.sent (c, .acceptor) hp')⟩
  · obtain ⟨p, hp⟩ := Option.isSome_iff_exists.1 hp
    obtain ⟨q, hpath⟩ := hs.path hp
    exact ⟨p, q, hp, hpath⟩
  · obtain ⟨p, hp⟩ := Option.isSome_iff_exists.1 hp'
    obtain ⟨q, hpath⟩ := hs.path hp
    exact ⟨p, q, hp, hpath⟩

/-- A dialling end inserts nothing. -/
theorem Sound.acceptor_of_insert (hs : Sound w st) {s : End} {x : EndpointId}
    (hm : ⟨.insert x, ()⟩ ∈ st.trace s) : s.2 = .acceptor := by
  obtain ⟨c, side⟩ := s
  cases side with
  | acceptor => rfl
  | dialer =>
    obtain ⟨p, hp⟩ := hs.program_of_mem hm
    obtain ⟨q, hpath⟩ := hs.path hp
    have hasks : p.Asks fun op => op ≠ .insert x := by
      cases hmode : c.mode with
      | oneWay =>
        obtain ⟨n, -, rfl⟩ := program_dialer_oneWay hmode hp
        apply Outgoing.asks_handshake <;> simp
      | twoWay =>
        obtain ⟨n, -, rfl⟩ := program_dialer_twoWay hmode hp
        apply Mutual.asks_handshake <;> simp
    exact absurd rfl ((hpath.asks hasks).1 _ hm)

/-! ### Who signs what -/

/-- A signature of an honest session names its kind, its role and the endpoint that made it. -/
theorem Sound.signed (hs : Sound w st) {s : End} {message : Bytes} {r : Except Error Bytes}
    (hm : ⟨.sign message, r⟩ ∈ st.trace s) :
    ∃ nonce time, (s.1.mode = .oneWay ∧ s.2 = .dialer ∧ message = transcript nonce s.owner time) ∨
      (s.1.mode = .twoWay ∧ message = mutualTranscript s.2.role nonce s.owner time) := by
  obtain ⟨p, hp⟩ := hs.program_of_mem hm
  obtain ⟨q, hpath⟩ := hs.path hp
  obtain ⟨c, side⟩ := s
  cases side with
  | dialer =>
    cases hmode : c.mode with
    | oneWay =>
      obtain ⟨n, -, rfl⟩ := program_dialer_oneWay hmode hp
      have hasks : (Outgoing.handshake c.dialer c.target n.signer).run.Asks fun op => ∀ m, op = .sign m →
          ∃ nonce time, m = transcript nonce c.dialer time := by
        refine Outgoing.asks_handshake nofun nofun nofun nofun nofun ?_ nofun nofun
        rintro nonce time _ ⟨⟩
        exact ⟨nonce, time, rfl⟩
      obtain ⟨nonce, time, he⟩ := (hpath.asks hasks).1 _ hm message rfl
      exact ⟨nonce, time, .inl ⟨rfl, rfl, he⟩⟩
    | twoWay =>
      obtain ⟨n, -, rfl⟩ := program_dialer_twoWay hmode hp
      have hasks : (Mutual.handshake c.dialer c.target c.target.id n.mutualProtocol.signer
          (some DEFAULT_MAX_SKEW_SECS)).run.Asks fun op => ∀ m, op = .sign m →
          ∃ nonce time, m = mutualTranscript ROLE_INITIATOR nonce c.dialer time := by
        refine Mutual.asks_handshake nofun nofun nofun nofun nofun nofun nofun nofun ?_ nofun nofun
        rintro nonce time _ ⟨⟩
        exact ⟨nonce, time, rfl⟩
      obtain ⟨nonce, time, he⟩ := (hpath.asks hasks).1 _ hm message rfl
      exact ⟨nonce, time, .inr ⟨rfl, he⟩⟩
  | acceptor =>
    cases hmode : c.mode with
    | oneWay =>
      obtain ⟨n, -, rfl⟩ := program_acceptor_oneWay hmode hp
      have hasks : (n.protocol.accept c.dialer).Asks fun op => op ≠ .sign message := by
        apply AuthProtocol.asks_accept <;> simp
      exact absurd rfl ((hpath.asks hasks).1 _ hm)
    | twoWay =>
      obtain ⟨n, -, rfl⟩ := program_acceptor_twoWay hmode hp
      obtain ⟨localId, nonce, time, hl, he⟩ := MutualAuthProtocol.sign_accept hpath hm
      rw [hs.answered.localId _ _ hl] at he
      exact ⟨nonce, time, .inr ⟨rfl, he⟩⟩

theorem Sound.signed_transcript (hs : Sound w st) {s : End} {nonce : Nonce} {x : EndpointId} {time : UInt64}
    {r : Except Error Bytes} (hm : ⟨.sign (transcript nonce x time), r⟩ ∈ st.trace s) : s.owner = x := by
  obtain ⟨nonce', time', ⟨-, -, he⟩ | ⟨-, he⟩⟩ := hs.signed hm
  · exact (transcript_inj he).2.1.symm
  · exact absurd he (transcript_ne_mutualTranscript _ _ _ _ _ _ _)

theorem Sound.signed_mutualTranscript (hs : Sound w st) (side : Side) {s : End} {nonce : Nonce} {x : EndpointId}
    {time : UInt64} {r : Except Error Bytes} (hm : ⟨.sign (mutualTranscript side.role nonce x time), r⟩ ∈ st.trace s) :
    s.1.mode = .twoWay ∧ s.2 = side ∧ s.owner = x := by
  obtain ⟨nonce', time', ⟨-, -, he⟩ | ⟨hmode, he⟩⟩ := hs.signed hm
  · exact absurd he.symm (transcript_ne_mutualTranscript _ _ _ _ _ _ _)
  · obtain ⟨hrole, -, hid, -⟩ := mutualTranscript_inj he
    refine ⟨hmode, ?_, hid.symm⟩
    revert hrole
    cases s.2 <;> cases side <;> decide

/-- The endpoint at an end that has done anything is honest. -/
theorem Sound.node_of_mem (hs : Sound w st) {s : End} {ev : Event Resp} (hm : ev ∈ st.trace s) :
    ∃ n, w.node s.owner = some n := by
  obtain ⟨p, hp⟩ := hs.program_of_mem hm
  obtain ⟨c, side⟩ := s
  cases side with
  | dialer =>
    obtain ⟨n, hn, -⟩ := Option.map_eq_some_iff.1 hp
    exact ⟨n, hn⟩
  | acceptor =>
    obtain ⟨n, hn, -⟩ := Option.map_eq_some_iff.1 hp
    exact ⟨n, hn⟩

/-! ### The one-directional handshake -/

/-- The session at the accepting end of `c` drew `nonce`, and under a key of its endpoint's roster a signature verified
over the transcript of `nonce`, of the remote id and of the time asserted. -/
def OneWayVerified (w : World) (st : Net) (c : Conn) (nonce : Nonce) (auth : ClientAuth) : Prop :=
  ∃ n h₁ h₂, w.node c.target.id = some n ∧ st.trace (c, .acceptor) = h₁ ++ h₂ ∧
    AuthProtocol.Verified n.protocol c.dialer h₁ nonce auth ∧ n.verifier.roster.contains auth.verifyingKey = true ∧
    n.verifier.checks w.crypto auth.verifyingKey (transcript nonce c.dialer auth.clientUnixSecs) auth.signature = true

/-- The session at `s` runs `outgoing::handshake` of an honest endpoint with the key `key`, was sent `nonce` and signed
the transcript of `nonce`, of its own endpoint id and of `time`. -/
def OneWaySigned (w : World) (st : Net) (s : End) (key : Bytes) (nonce : Nonce) (time : UInt64) : Prop :=
  ∃ n h₁ h₂ challenge signature, s.2 = .dialer ∧ w.node s.1.dialer = some n ∧ n.signer.verifyingKey = key ∧
    st.trace s = h₁ ++ h₂ ∧ challenge.nonce = nonce ∧
    Outgoing.Signed s.1.dialer s.1.target h₁ challenge time signature

/-- What an insertion says of both ends: the acceptor has verified an assertion, which is the one that an honest dialler
signed for it. -/
theorem Sound.oneWay_inserted (hs : Sound w st) {c : Conn} (hmode : c.mode = .oneWay) {x : EndpointId}
    (hm : ⟨.insert x, ()⟩ ∈ st.trace (c, .acceptor)) :
    x = c.dialer ∧ ∃ n h₁ h₂ nonce auth institution, w.node c.target.id = some n ∧
      st.trace (c, .acceptor) = h₁ ++ h₂ ∧ AuthProtocol.Verified n.protocol c.dialer h₁ nonce auth ∧
      ⟨.verify auth.verifyingKey (transcript nonce c.dialer auth.clientUnixSecs) auth.signature, .ok institution⟩ ∈
        st.trace (c, .acceptor) ∧
      n.verifier.verify w.crypto auth.verifyingKey (transcript nonce c.dialer auth.clientUnixSecs) auth.signature =
        .ok institution ∧
      ∀ n', w.node c.dialer = some n' → ∃ h₃ h₄ challenge signature, st.trace (c, .dialer) = h₃ ++ h₄ ∧
        challenge.nonce = nonce ∧ Outgoing.Signed c.dialer c.target h₃ challenge auth.clientUnixSecs signature ∧
        auth.verifyingKey = n'.signer.verifyingKey := by
  obtain ⟨p, hp⟩ := hs.program_of_mem hm
  obtain ⟨q, hpath⟩ := hs.path hp
  obtain ⟨n, hn, rfl⟩ := program_acceptor_oneWay hmode hp
  obtain ⟨rfl, h₁, h₂, nonce, auth, htrace, hv, hreads, hwritten⟩ := AuthProtocol.insert_accept hpath hm
  have hverify : ∃ institution, ⟨.verify auth.verifyingKey
      (transcript nonce c.dialer auth.clientUnixSecs) auth.signature, .ok institution⟩ ∈ st.trace (c, .acceptor) := by
    obtain ⟨institution, -⟩ := hv
    exact ⟨institution, by simp [htrace]⟩
  obtain ⟨institution, hverify⟩ := hverify
  have hres := hs.answered.verified _ _ _ _ _ hverify
  simp only [World.verifier, End.owner, hn, hmode, Option.map_some, Option.some.injEq] at hres
  refine ⟨rfl, n, h₁, h₂, nonce, auth, institution, hn, htrace, hv, hverify, hres, fun n' hn' => ?_⟩
  obtain ⟨⟨p', q', hp', hpath'⟩, -, hin, hout⟩ := hs.both_ends hn' hn
  obtain ⟨n'', hn'', rfl⟩ := program_dialer_oneWay hmode hp'
  rw [hn'] at hn''
  cases hn''
  rw [htrace, reads_append, hreads, List.append_nil] at hin
  rw [htrace, written_append, hwritten, List.append_nil] at hout
  exact hv.agreement hpath' hin hout

private theorem Sound.oneWay_verified (hs : Sound w st) {c : Conn} (hmode : c.mode = .oneWay) {x : EndpointId}
    (hm : ⟨.insert x, ()⟩ ∈ st.trace (c, .acceptor)) :
    x = c.dialer ∧ ∃ nonce auth, OneWayVerified w st c nonce auth ∧
      (Unforgeable w st auth.verifyingKey →
        OneWaySigned w st (c, .dialer) auth.verifyingKey nonce auth.clientUnixSecs) := by
  obtain ⟨rfl, n, h₁, h₂, nonce, auth, institution, hn, htrace, hv, hverify, hres, hagree⟩ :=
    hs.oneWay_inserted hmode hm
  obtain ⟨hroster, hchecks⟩ := (InstitutionVerifier.verify_isOk _ _ _ _ _).1 ⟨_, hres⟩
  refine ⟨rfl, nonce, auth, ⟨n, h₁, h₂, hn, htrace, hv, hroster, hchecks⟩, ?_⟩
  intro hunf
  -- the signer is the dialling endpoint, so that is honest
  obtain ⟨s', signature', hsign, -⟩ := hunf _ _ _ _ hverify
  obtain ⟨n', hn'⟩ := hs.node_of_mem hsign
  rw [hs.signed_transcript hsign] at hn'
  obtain ⟨h₃, h₄, challenge, signature, htrace', hnonce, hsigned, hkey⟩ := hagree n' hn'
  exact ⟨n', h₃, h₄, challenge, signature, rfl, hn', hkey.symm, htrace', hnonce, hsigned⟩

/-- Whoever is in the set of `AuthProtocol` was put there by a session of its own. -/
theorem Sound.session_of_incoming (hs : Sound w st) {b x : EndpointId} (hx : x ∈ st.incoming b) :
    ∃ c : Conn, c.dialer = x ∧ c.target.id = b ∧ c.mode = .oneWay ∧ ⟨.insert x, ()⟩ ∈ st.trace (c, .acceptor) := by
  obtain ⟨⟨c, side⟩, ho, hmode, hm⟩ := hs.recorded.incoming b x hx
  obtain rfl : side = .acceptor := hs.acceptor_of_insert hm
  exact ⟨c, (hs.oneWay_inserted hmode hm).1.symm, ho, hmode, hm⟩

/-- In every reachable state, an id that an honest acceptor allows was authenticated by one of its sessions, on a
connection with that remote id, over the nonce which that session drew; and if the key is unforgeable, the endpoint of
that id is honest and signed for that nonce on that very connection, each accepting session having a signing session
of its own. -/
theorem one_way_injective_agreement (w : World) {labels : List Label} (h : init.run w labels = some st)
    (b : EndpointId) :
    (∀ x ∈ st.incoming b, ∃ c : Conn, c.dialer = x ∧ c.target.id = b ∧ c.mode = .oneWay ∧
      ⟨.insert x, ()⟩ ∈ st.trace (c, .acceptor)) ∧
    ∃ signing : Conn → End, Function.Injective signing ∧
      ∀ c : Conn, c.target.id = b → c.mode = .oneWay → ∀ x, ⟨.insert x, ()⟩ ∈ st.trace (c, .acceptor) →
        ∃ nonce auth, OneWayVerified w st c nonce auth ∧
          (Unforgeable w st auth.verifyingKey → (signing c).1 = c ∧
            OneWaySigned w st (signing c) auth.verifyingKey nonce auth.clientUnixSecs) := by
  have hs := sound_of_run h
  refine ⟨fun x => hs.session_of_incoming, fun c => (c, .dialer), fun _ _ he => (Prod.mk.inj he).1, ?_⟩
  intro c _ hmode x hm
  obtain ⟨-, nonce, auth, hv, hsigned⟩ := hs.oneWay_verified hmode hm
  exact ⟨nonce, auth, hv, fun hunf => ⟨rfl, hsigned hunf⟩⟩

theorem duo_one_way_agreement : ∃ st, init.run (Duo.world none) (Duo.labels .oneWay) = some st ∧
    Duo.alice ∈ st.incoming Duo.bob ∧ ∃ c nonce auth, OneWayVerified (Duo.world none) st c nonce auth ∧
      ∃ s : End, s.1 = c ∧ OneWaySigned (Duo.world none) st s auth.verifyingKey nonce auth.clientUnixSecs := by
  have hrun : (init.run (Duo.world none) (Duo.labels .oneWay)).any (fun st =>
      decide (Duo.alice ∈ st.incoming Duo.bob ∧ ∀ key, Unforgeable (Duo.world none) st key)) = true := by
    decide +kernel
  obtain ⟨st, h, hst⟩ := (Option.any_eq_true _ _).1 hrun
  obtain ⟨hx, hunf⟩ := of_decide_eq_true hst
  obtain ⟨hsessions, signing, -, hagree⟩ := one_way_injective_agreement (Duo.world none) h Duo.bob
  obtain ⟨c, -, hc, hmode, hm⟩ := hsessions _ hx
  obtain ⟨nonce, auth, hverified, hsigned⟩ := hagree c hc hmode _ hm
  exact ⟨st, h, hx, c, nonce, auth, hverified, signing c, hsigned (hunf _)⟩

/-! ### The mutual handshake -/

/-- The session at the accepting end of `c` was greeted with `hello`, sent `challenge`, and under a key of its
endpoint's roster a signature verified over the initiator's transcript of its own nonce, of the remote id and of the
time asserted in `response`. -/
def MutualVerified (w : World) (st : Net) (c : Conn) (hello : MutualHello) (challenge : MutualChallenge)
    (response : MutualResponse) : Prop :=
  ∃ n h₁ h₂ localId, w.node c.target.id = some n ∧ st.trace (c, .acceptor) = h₁ ++ h₂ ∧
    MutualAuthProtocol.Verified n.mutualProtocol c.dialer h₁ localId hello challenge response ∧
    n.mutualVerifier.roster.contains response.verifyingKey = true ∧
    n.mutualVerifier.checks w.crypto response.verifyingKey
      (mutualTranscript ROLE_INITIATOR challenge.nonce c.dialer response.initiatorUnixSecs) response.signature = true

/-- The session at the dialling end of `c` runs `mutual::handshake` of an honest endpoint with the key `key`.  It
accepted `challenge`, whose signature verified under a key of its endpoint's roster over the acceptor's transcript of
`nonceA`, its own nonce, and of the id it dialled, and only then signed for `challenge` at `time`. -/
def MutualSigned (w : World) (st : Net) (c : Conn) (key : Bytes) (nonceA : Nonce) (challenge : MutualChallenge)
    (time : UInt64) : Prop :=
  ∃ n h₁ h₂ sigA, w.node c.dialer = some n ∧ n.mutualProtocol.signer.verifyingKey = key ∧
    st.trace (c, .dialer) = h₁ ++ h₂ ∧
    Mutual.Signed c.dialer c.target c.target.id (some DEFAULT_MAX_SKEW_SECS) h₁ nonceA challenge time sigA ∧
    n.mutualVerifier.roster.contains challenge.verifyingKey = true ∧
    n.mutualVerifier.checks w.crypto challenge.verifyingKey
      (mutualTranscript ROLE_ACCEPTOR nonceA c.target.id challenge.acceptorUnixSecs) challenge.signature = true

/-- The session at the accepting end of `c` runs `MutualAuthProtocol::accept` of an honest endpoint with the key of
`challenge`, which it signed for the greeting with `nonceA` under its own published id. -/
def MutualChallenged (w : World) (st : Net) (c : Conn) (nonceA : Nonce) (challenge : MutualChallenge) : Prop :=
  ∃ n h₁ h₂, w.node c.target.id = some n ∧ n.mutualProtocol.signer.verifyingKey = challenge.verifyingKey ∧
    st.trace (c, .acceptor) = h₁ ++ h₂ ∧
    MutualAuthProtocol.Challenged n.mutualProtocol h₁ c.target.id ⟨PROTOCOL_VERSION, nonceA⟩ challenge

/-- The initiator's verification is one of its endpoint's verifier. -/
theorem Sound.mutual_signed (hs : Sound w st) {c : Conn} (hmode : c.mode = .twoWay) {n : Node}
    (hn : w.node c.dialer = some n) {h₁ h₂ : Trace Resp} {nonceA : Nonce} {challenge : MutualChallenge}
    {time : UInt64} {sigA : Bytes} (htrace : st.trace (c, .dialer) = h₁ ++ h₂)
    (hsigned : Mutual.Signed c.dialer c.target c.target.id (some DEFAULT_MAX_SKEW_SECS) h₁ nonceA challenge time sigA) :
    MutualSigned w st c n.mutualProtocol.signer.verifyingKey nonceA challenge time ∧
      ∃ institution, ⟨.verify challenge.verifyingKey (mutualTranscript ROLE_ACCEPTOR nonceA c.target.id
        challenge.acceptorUnixSecs) challenge.signature, .ok institution⟩ ∈ st.trace (c, .dialer) := by
  have hverify : ∃ institution, ⟨.verify challenge.verifyingKey (mutualTranscript ROLE_ACCEPTOR nonceA c.target.id
      challenge.acceptorUnixSecs) challenge.signature, .ok institution⟩ ∈ st.trace (c, .dialer) := by
    obtain ⟨institution, -⟩ := hsigned
    exact ⟨institution, by simp [htrace]⟩
  refine ⟨?_, hverify⟩
  obtain ⟨institution, hverify⟩ := hverify
  have hres := hs.answered.verified _ _ _ _ _ hverify
  simp only [World.verifier, End.owner, hn, hmode, Option.map_some, Option.some.injEq] at hres
  obtain ⟨hroster, hchecks⟩ := (InstitutionVerifier.verify_isOk _ _ _ _ _).1 ⟨_, hres⟩
  exact ⟨n, h₁, h₂, sigA, hn, rfl, htrace, hsigned, hroster, hchecks⟩

/-- What a session of the mutual acceptor knows when it inserts its remote. -/
theorem Sound.mutual_verified (hs : Sound w st) {c : Conn} (hmode : c.mode = .twoWay) {x : EndpointId}
    (hm : ⟨.insert x, ()⟩ ∈ st.trace (c, .acceptor)) :
    x = c.dialer ∧ ∃ hello challenge response, MutualVerified w st c hello challenge response ∧
      (Unforgeable w st response.verifyingKey → ∃ n, w.node c.dialer = some n) ∧
      ∀ n, w.node c.dialer = some n → hello.version = PROTOCOL_VERSION ∧
        MutualSigned w st c response.verifyingKey hello.nonce challenge response.initiatorUnixSecs := by
  obtain ⟨p, hp⟩ := hs.program_of_mem hm
  obtain ⟨q, hpath⟩ := hs.path hp
  obtain ⟨n, hn, rfl⟩ := program_acceptor_twoWay hmode hp
  obtain ⟨rfl, h₁, h₂, localId, hello, challenge, response, htrace, hv, hreads, hwritten⟩ :=
    MutualAuthProtocol.insert_accept hpath hm
  have hverify : ∃ institution, ⟨.verify response.verifyingKey (mutualTranscript ROLE_INITIATOR challenge.nonce c.dialer
      response.initiatorUnixSecs) response.signature, .ok institution⟩ ∈ st.trace (c, .acceptor) := by
    obtain ⟨institution, -⟩ := hv
    exact ⟨institution, by simp [htrace]⟩
  obtain ⟨institution, hverify⟩ := hverify
  have hres := hs.answered.verified _ _ _ _ _ hverify
  simp only [World.verifier, End.owner, hn, hmode, Option.map_some, Option.some.injEq] at hres
  obtain ⟨hroster, hchecks⟩ := (InstitutionVerifier.verify_isOk _ _ _ _ _).1 ⟨_, hres⟩
  refine ⟨rfl, hello, challenge, response, ⟨n, h₁, h₂, localId, hn, htrace, hv, hroster, hchecks⟩, ?_, ?_⟩
  · -- the signer is the dialling endpoint in its own role
    intro hunf
    obtain ⟨s', signature', hsign, -⟩ := hunf _ _ _ _ hverify
    exact (hs.signed_mutualTranscript .dialer hsign).2.2 ▸ hs.node_of_mem hsign
  · intro n' hn'
    obtain ⟨⟨p', q', hp', hpath'⟩, -, hin, hout⟩ := hs.both_ends hn' hn
    obtain ⟨n'', hn'', rfl⟩ := program_dialer_twoWay hmode hp'
    rw [htrace, reads_append, hreads, List.append_nil] at hin
    rw [htrace, written_append, hwritten, List.append_nil] at hout
    obtain ⟨h₃, h₄, nonceA, sigA, htrace', rfl, hsigned, hkey⟩ := hv.agreement hpath' hin hout
    rw [hkey]
    exact ⟨rfl, (hs.mutual_signed hmode hn'' htrace' hsigned).1⟩

/-- Whoever is in the set of a task was put there by a session of its own. -/
theorem Sound.session_of_allowed (hs : Sound w st) {e x : EndpointId} {mode : Mode}
    (hx : x ∈ (st.gate e mode).task.allowed) :
    (∃ c : Conn, c.dialer = e ∧ c.target.id = x ∧ c.mode = mode ∧ st.proc (c, .dialer) = some (ret (.ok ()))) ∨
      mode = .twoWay ∧ ∃ c : Conn, c.dialer = x ∧ c.target.id = e ∧ c.mode = .twoWay ∧
        ⟨.insert x, ()⟩ ∈ st.trace (c, .acceptor) := by
  obtain ⟨acts, hrun⟩ := hs.recorded.reachable e mode
  rcases (Authenticator.answers_of_run hrun).allowed x hx with ⟨c, dialled, hc, hid⟩ | ⟨rfl, hins⟩
  · obtain ⟨⟨hd, hmode, ht⟩, hret⟩ := hs.recorded.completed e mode _ hc
    exact .inl ⟨c, hd, (congrArg EndpointAddr.id ht).trans hid, hmode, hret⟩
  · obtain ⟨⟨c, side⟩, ho, hmode, hm⟩ := hs.recorded.inserted e .twoWay x hins
    obtain rfl : side = .acceptor := hs.acceptor_of_insert hm
    exact .inr ⟨rfl, c, (hs.mutual_verified hmode hm).1.symm, ho, hmode, hm⟩

/-- A handshake that has returned `Ok` was connected and has signed. -/
theorem Sound.trace_of_ok (hs : Sound w st) {c : Conn} (hret : st.proc (c, .dialer) = some (ret (.ok ()))) :
    ⟨.connect c.target c.mode.alpn, .ok ()⟩ ∈ st.trace (c, .dialer) ∧
      ∃ message sig, ⟨.sign message, .ok sig⟩ ∈ st.trace (c, .dialer) := by
  obtain ⟨p, hp, hpath⟩ := hs.sessions.path _ _ hret
  cases hmode : c.mode with
  | oneWay =>
    obtain ⟨n, -, rfl⟩ := program_dialer_oneWay hmode hp
    rcases Outgoing.handshake_cases hpath with ⟨-, hq⟩ | ⟨h₁, h₂, challenge, now, sig, htrace, hsigned, -⟩
    · exact absurd rfl hq
    · rw [htrace]
      exact ⟨List.mem_append_left _ hsigned.connect_mem, _, sig, List.mem_append_left _ hsigned.sign_mem⟩
  | twoWay =>
    obtain ⟨n, -, rfl⟩ := program_dialer_twoWay hmode hp
    rcases Mutual.handshake_cases hpath with ⟨-, hq⟩ | ⟨h₁, h₂, nonceA, challenge, time, sig, htrace, hsigned, -⟩
    · exact absurd rfl hq
    · rw [htrace]
      exact ⟨List.mem_append_left _ hsigned.connect_mem, _, sig, List.mem_append_left _ hsigned.sign_mem⟩

/-- In every reachable state, a remote that an honest acceptor of the mutual handshake inserts was authenticated by
that session; if the key is unforgeable, the far end is the initiator of the honest endpoint with that id, which had
accepted this acceptor's challenge before it signed.  And a message that such an acceptor accepts was signed by no
honest session other than an initiator's. -/
theorem mutual_acceptor_agreement (w : World) {labels : List Label} (h : init.run w labels = some st) {c : Conn}
    (hmode : c.mode = .twoWay) :
    (∀ x, ⟨.insert x, ()⟩ ∈ st.trace (c, .acceptor) →
      x = c.dialer ∧ ∃ hello challenge response, MutualVerified w st c hello challenge response ∧
        (Unforgeable w st response.verifyingKey →
          MutualSigned w st c response.verifyingKey hello.nonce challenge response.initiatorUnixSecs)) ∧
    ∀ key message signature institution,
      ⟨.verify key message signature, .ok institution⟩ ∈ st.trace (c, .acceptor) →
        ∀ s r, ⟨.sign message, r⟩ ∈ st.trace s → s.1.mode = .twoWay ∧ s.2 = .dialer ∧ s.owner = c.dialer := by
  have hs := sound_of_run h
  refine ⟨?_, ?_⟩
  · intro x hm
    obtain ⟨hx, hello, challenge, response, hver, hhonest, hsigned⟩ := hs.mutual_verified hmode hm
    refine ⟨hx, hello, challenge, response, hver, fun hunf => ?_⟩
    obtain ⟨n, hn⟩ := hhonest hunf
    exact (hsigned n hn).2
  intro key message signature institution hverify s r hsign
  obtain ⟨p, hp⟩ := hs.program_of_mem hverify
  obtain ⟨q, hpath⟩ := hs.path hp
  obtain ⟨n, -, rfl⟩ := program_acceptor_twoWay hmode hp
  have hasks : (n.mutualProtocol.accept c.dialer).Asks fun op => ∀ k m s, op = .verify k m s →
      ∃ nonce time, m = mutualTranscript ROLE_INITIATOR nonce c.dialer time := by
    refine MutualAuthProtocol.asks_accept nofun nofun nofun nofun nofun nofun nofun ?_ (by simp) (by simp)
    rintro k nonce time s _ _ _ ⟨⟩
    exact ⟨nonce, time, rfl⟩
  obtain ⟨nonce, time, rfl⟩ := (hpath.asks hasks).1 _ hverify _ _ _ rfl
  exact hs.signed_mutualTranscript .dialer hsign

theorem duo_mutual_acceptor_agreement : ∃ st, init.run (Duo.world none) (Duo.labels .twoWay) = some st ∧
    ∃ key nonceA challenge time, MutualSigned (Duo.world none) st (Duo.conn .twoWay) key nonceA challenge time := by
  have hrun : (init.run (Duo.world none) (Duo.labels .twoWay)).any (fun st =>
      decide (Duo.alice ∈ inserted (st.trace (Duo.conn .twoWay, .acceptor)) ∧
        ∀ key, Unforgeable (Duo.world none) st key)) = true := by
    decide +kernel
  obtain ⟨st, h, hst⟩ := (Option.any_eq_true _ _).1 hrun
  obtain ⟨hm, hunf⟩ := of_decide_eq_true hst
  obtain ⟨-, hello, challenge, response, -, hsigned⟩ :=
    (mutual_acceptor_agreement (Duo.world none) h (c := Duo.conn .twoWay) rfl).1 _ (mem_inserted.1 hm)
  exact ⟨st, h, _, _, _, _, hsigned (hunf _)⟩

/-- An initiator whose verdict is `Ok` was sent `CLOSE_ACCEPTED` by the other end, if that is honest. -/
theorem Sound.close_of_verdict (hs : Sound w st) {s : End} {reason : ConnectionError}
    (hm : ⟨.closed, reason⟩ ∈ st.trace s) (hv : verdict reason = .ok ())
    (hp : (w.program s.peer).isSome = true) : ∃ r, ⟨.close CLOSE_ACCEPTED r, ()⟩ ∈ st.trace s.peer := by
  cases reason with
  | other display => cases hv
  | applicationClosed code text =>
    have hcode : UInt32.ofNat code.val = CLOSE_ACCEPTED := by
      by_contra hne
      simp only [verdict, hne, ↓reduceIte] at hv
      split at hv <;> cases hv
    rcases hs.answered.closed _ _ _ hm hp with hz | ⟨c, r, hr, hc⟩
    · rw [hz] at hcode
      exact absurd hcode (by decide)
    · rw [← hc, UInt32.ofNat_toNat] at hcode
      exact ⟨r, hcode ▸ hr⟩

/-- A handshake with an honest endpoint that has returned `Ok` was accepted there, and the endpoint is recorded. -/
theorem Sound.inserted_of_ok (hs : Sound w st) {c : Conn} {n' : Node} (hn' : w.node c.target.id = some n')
    (hret : st.proc (c, .dialer) = some (ret (.ok ()))) : ⟨.insert c.dialer, ()⟩ ∈ st.trace (c, .acceptor) := by
  obtain ⟨p, hp, hpath⟩ := hs.sessions.path _ _ hret
  have hsome : (w.program (c, .acceptor)).isSome = true := program_isSome hn'
  obtain ⟨p', hp'⟩ := Option.isSome_iff_exists.1 hsome
  obtain ⟨q', hpath'⟩ := hs.path hp'
  -- both initiators return `Ok` only on the verdict
  have hverdict : ∃ reason, ⟨.closed, reason⟩ ∈ st.trace (c, .dialer) ∧ verdict reason = .ok () := by
    cases hmode : c.mode with
    | oneWay =>
      obtain ⟨n, -, rfl⟩ := program_dialer_oneWay hmode hp
      rcases Outgoing.handshake_cases hpath with ⟨-, hq⟩ | ⟨h₁, h₂, challenge, now, sig, -, -, -, hok⟩
      · exact absurd rfl hq
      · exact hok rfl
    | twoWay =>
      obtain ⟨n, -, rfl⟩ := program_dialer_twoWay hmode hp
      rcases Mutual.handshake_cases hpath with ⟨-, hq⟩ | ⟨h₁, h₂, nonceA, challenge, time, sig, -, -, -, hok⟩
      · exact absurd rfl hq
      · exact hok rfl
  obtain ⟨reason, hclosed, hv⟩ := hverdict
  obtain ⟨r, hclose⟩ := hs.close_of_verdict hclosed hv hsome
  -- both acceptors send it only after the insertion
  have hinsert : CLOSE_ACCEPTED = CLOSE_DENIED ∨
      CLOSE_ACCEPTED = CLOSE_ACCEPTED ∧ ⟨.insert c.dialer, ()⟩ ∈ st.trace (c, .acceptor) := by
    cases hmode : c.mode with
    | oneWay =>
      obtain ⟨n, -, rfl⟩ := program_acceptor_oneWay hmode hp'
      exact AuthProtocol.close_accept hpath' hclose
    | twoWay =>
      obtain ⟨n, -, rfl⟩ := program_acceptor_twoWay hmode hp'
      exact MutualAuthProtocol.close_accept hpath' hclose
  exact (hinsert.resolve_left (by decide)).2

/-- Between honest endpoints, what the initiator signed for is what the acceptor challenged it with, for its own nonce
and under its own id. -/
theorem Sound.mutual_challenged (hs : Sound w st) {c : Conn} (hmode : c.mode = .twoWay) {n n' : Node}
    (hn : w.node c.dialer = some n) (hn' : w.node c.target.id = some n') {h₁ h₂ : Trace Resp} {nonceA : Nonce}
    {challenge : MutualChallenge} {time : UInt64} {sigA : Bytes} (htrace : st.trace (c, .dialer) = h₁ ++ h₂)
    (hsigned : Mutual.Signed c.dialer c.target c.target.id (some DEFAULT_MAX_SKEW_SECS) h₁ nonceA challenge time sigA) :
    MutualChallenged w st c nonceA challenge := by
  obtain ⟨-, ⟨p, q, hp, hpath⟩, hin, hout⟩ := hs.both_ends hn hn'
  obtain ⟨n'', hn'', rfl⟩ := program_acceptor_twoWay hmode hp
  rw [htrace] at hin hout
  obtain ⟨h₃, h₄, localId, htrace', hchallenged⟩ := hsigned.agreement hpath hout hin
  have hlocal : localId = c.target.id := by
    refine hs.answered.localId (c, .acceptor) localId ?_
    obtain ⟨-⟩ := hchallenged
    simp [htrace']
  have hkey : n''.mutualProtocol.signer.verifyingKey = challenge.verifyingKey := by
    obtain ⟨-⟩ := hchallenged
    rfl
  exact ⟨n'', h₃, h₄, hn'', hkey, htrace', hlocal ▸ hchallenged⟩

end Net

end IrohHydeAuth
