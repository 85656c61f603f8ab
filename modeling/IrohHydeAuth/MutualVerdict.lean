import IrohHydeAuth.Realization

/-!
# The verdict of the mutual handshake

Without faults, two endpoints that trust each other agree on the verdict of the mutual handshake.  The acceptor tests
the initiator's clock against the tolerance set with `with_max_skew`; the initiator tests the acceptor's clock against
the tolerance with which `mutual` builds its task, which nothing can change.  So the handshake succeeds exactly when
the clocks are within these two tolerances (`Pair.mutual_verdict`), and not whenever they are within the two that were
configured.
-/

namespace IrohHydeAuth

open Process Prog

variable {a b : Party}

/-! ### The initiator -/

namespace Mutual

variable {endpointId peerId : EndpointId} {remoteAddr : EndpointAddr} {signer : InstitutionalSigner}
  {maxSkewSecs : Option UInt64} {nonceA : Nonce} {challenge : MutualChallenge} {h : Trace Resp} {x y : Bytes} {q : Half}

private theorem runs_greet (a : Party) (q : Half) (endpointId : EndpointId) (remoteAddr : EndpointAddr)
    (peerId : EndpointId) (signer : InstitutionalSigner) (maxSkewSecs : Option UInt64) :
    ∃ h, Seen h [] (frame (MutualHello.mk PROTOCOL_VERSION a.nonce)) 0 ∧
      Runs a q ⟨(handshake endpointId remoteAddr peerId signer maxSkewSecs).run, []⟩
        ⟨(respond endpointId peerId signer maxSkewSecs a.nonce).run, h⟩ := by
  obtain ⟨h₁, hs₁, hconnect⟩ := seen_nil.connect a q remoteAddr MUTUAL_ALPN
  obtain ⟨h₂, hs₂, hopen⟩ := hs₁.openBi a q
  obtain ⟨h₃, hs₃, hrandom⟩ := hs₂.random a q
  obtain ⟨h₄, hs₄, hwrite⟩ := hs₃.writeMsg a q (mutualHello_fits (MutualHello.mk PROTOCOL_VERSION a.nonce))
  refine ⟨h₄, hs₄, ?_⟩
  rw [handshake]
  exact hconnect.runs (hopen.runs (hrandom.runs (hwrite.runs .refl)))

/-- An initiator whose clock is too far from the acceptor's leaves without a response. -/
private theorem runs_respond_stale {max : UInt64} (hs : Seen h [] x 0)
    (hfit : (Postcard.encode challenge).length ≤ MAX_MSG) (hw : written q.trace = frame challenge)
    (hversion : challenge.version = PROTOCOL_VERSION)
    (hstale : checkSkew (some max) (a.clock 0) challenge.acceptorUnixSecs = false) :
    ∃ h', written h' = x ∧ Runs a q ⟨(respond endpointId peerId signer (some max) nonceA).run, h⟩
      ⟨ret (.error .clockSkew), h'⟩ := by
  obtain ⟨h₁, hs₁, hread⟩ := hs.readMsg (z := []) a hfit (by simpa using hw)
  obtain ⟨h₂, hs₂, hskew⟩ := hs₁.checkSkewNow a q (some max) challenge.acceptorUnixSecs
  rw [hstale] at hskew
  refine ⟨h₂ ++ [⟨.close CLOSE_DENIED (ascii "skew"), ()⟩], by simp [hs₂.written, eventWrites], hread.runs ?_⟩
  rw [judge, if_neg (by simp [hversion])]
  refine hskew.runs ?_
  rw [if_pos (by simp)]
  exact runs_ask (.close CLOSE_DENIED (ascii "skew")) () rfl

private theorem runs_respond_ok {max : UInt64} {institution : InstitutionId} {sigA : Bytes} (hs : Seen h [] x 0)
    (hfit : (Postcard.encode challenge).length ≤ MAX_MSG) (hw : written q.trace = frame challenge)
    (hversion : challenge.version = PROTOCOL_VERSION)
    (hfresh : checkSkew (some max) (a.clock 0) challenge.acceptorUnixSecs = true)
    (hverify : a.verify challenge.verifyingKey (mutualTranscript ROLE_ACCEPTOR nonceA peerId challenge.acceptorUnixSecs)
      challenge.signature = .ok institution)
    (hsign : a.sign (mutualTranscript ROLE_INITIATOR challenge.nonce endpointId (a.clock 1)) = .ok sigA)
    (hfitA : (Postcard.encode (MutualResponse.mk signer.verifyingKey sigA (a.clock 1))).length ≤ MAX_MSG) :
    ∃ h', written h' = x ++ frame (MutualResponse.mk signer.verifyingKey sigA (a.clock 1)) ∧
      Runs a q ⟨(respond endpointId peerId signer (some max) nonceA).run, h⟩ ⟨awaitVerdict.run, h'⟩ := by
  obtain ⟨h₁, hs₁, hread⟩ := hs.readMsg (z := []) a hfit (by simpa using hw)
  obtain ⟨h₂, hs₂, hskew⟩ := hs₁.checkSkewNow a q (some max) challenge.acceptorUnixSecs
  rw [hfresh] at hskew
  obtain ⟨h₃, hs₃, hv⟩ := hs₂.verify a q challenge.verifyingKey
    (mutualTranscript ROLE_ACCEPTOR nonceA peerId challenge.acceptorUnixSecs) challenge.signature
  rw [hverify] at hv
  obtain ⟨h₄, hs₄, hclock⟩ := hs₃.unixSecs a q
  obtain ⟨h₅, hs₅, hsigned⟩ := hs₄.sign a q (mutualTranscript ROLE_INITIATOR challenge.nonce endpointId (a.clock 1))
  rw [hsign] at hsigned
  obtain ⟨h₆, hs₆, hwrite⟩ := hs₅.writeMsg a q hfitA
  obtain ⟨h₇, hs₇, hfinish⟩ := hs₆.finish a q
  refine ⟨h₇, hs₇.written, hread.runs ?_⟩
  rw [judge, if_neg (by simp [hversion])]
  refine hskew.runs ?_
  rw [if_neg (by simp)]
  exact hv.runs (hclock.runs (hsigned.runs (hwrite.runs (hfinish.runs .refl))))

end Mutual

/-! ### The acceptor -/

namespace MutualAuthProtocol

variable {self : MutualAuthProtocol} {remoteId localId : EndpointId} {challenge : MutualChallenge}
  {response : MutualResponse} {h : Trace Resp} {x y : Bytes} {n : Nat} {d : Half}

/-- An acceptor whose id is published and whose signer works gets to its challenge. -/
private theorem runs_challenge (self : MutualAuthProtocol) (remoteId : EndpointId) {nonceA : Nonce} {sigB : Bytes}
    (g : Except Error EndpointId → Session)
    (hlocal : b.localId = some localId) (hw : written d.trace = frame (MutualHello.mk PROTOCOL_VERSION nonceA))
    (hsign : b.sign (mutualTranscript ROLE_ACCEPTOR nonceA localId (b.clock 0)) = .ok sigB)
    (hfit : (Postcard.encode (MutualChallenge.mk PROTOCOL_VERSION b.nonce self.signer.verifyingKey sigB
      (b.clock 0))).length ≤ MAX_MSG) :
    ∃ h, Seen h (frame (MutualHello.mk PROTOCOL_VERSION nonceA))
        (frame (MutualChallenge.mk PROTOCOL_VERSION b.nonce self.signer.verifyingKey sigB (b.clock 0))) 1 ∧
      Runs b d ⟨(self.handshake remoteId).run >>= g, []⟩ ⟨(self.judge remoteId b.nonce).run >>= g, h⟩ := by
  obtain ⟨h₁, hs₁, hid⟩ := seen_nil.localId b d
  rw [hlocal] at hid
  obtain ⟨h₂, hs₂, haccept⟩ := hs₁.acceptBi b d
  obtain ⟨h₃, hs₃, hread⟩ := hs₂.readMsg (z := []) b (mutualHello_fits (MutualHello.mk PROTOCOL_VERSION nonceA))
    (by simpa using hw)
  obtain ⟨h₄, hs₄, hrandom⟩ := hs₃.random b d
  obtain ⟨h₅, hs₅, hclock⟩ := hs₄.unixSecs b d
  obtain ⟨h₆, hs₆, hsigned⟩ := hs₅.sign b d (mutualTranscript ROLE_ACCEPTOR nonceA localId (b.clock 0))
  rw [hsign] at hsigned
  obtain ⟨h₇, hs₇, hwrite⟩ := hs₆.writeMsg b d hfit
  refine ⟨h₇, hs₇, ?_⟩
  rw [handshake]
  refine hid.runs_bind (haccept.runs_bind (hread.runs_bind ?_))
  rw [if_neg (by simp)]
  refine hrandom.runs_bind (hclock.runs_bind (hsigned.runs_bind ?_))
  rw [respond]
  exact hwrite.runs_bind .refl

/-- An initiator that is gone without a response is denied. -/
private theorem judge_gone (self : MutualAuthProtocol) (remoteId : EndpointId) (hs : Seen h x y n)
    (hg : d.gone = true) (hw : written d.trace = x) :
    ∃ h' e, Seen h' x y n ∧ Yields b d (self.judge remoteId b.nonce) h (.error e) h' := by
  obtain ⟨h', hs', hread⟩ := hs.readMsg_gone b hg hw MAX_MSG MutualResponse
  exact ⟨h', _, hs', hread.bind_error⟩

/-- The acceptor's judgement on a response whose signature verifies. -/
private theorem judge_response (self : MutualAuthProtocol) (remoteId : EndpointId) {institution : InstitutionId}
    (hs : Seen h x y n) (hfit : (Postcard.encode response).length ≤ MAX_MSG)
    (hw : written d.trace = x ++ frame response)
    (hverify : b.verify response.verifyingKey (mutualTranscript ROLE_INITIATOR b.nonce remoteId
      response.initiatorUnixSecs) response.signature = .ok institution) :
    ∃ h' n', Seen h' (x ++ frame response) y n' ∧ Yields b d (self.judge remoteId b.nonce) h
      (if checkSkew self.maxSkewSecs (b.clock n) response.initiatorUnixSecs = true then .ok remoteId
        else .error .clockSkew) h' := by
  obtain ⟨h₁, hs₁, hread⟩ := hs.readMsg (z := []) b hfit (by simpa using hw)
  obtain ⟨h₂, hs₂, hskew⟩ := hs₁.checkSkewNow b d self.maxSkewSecs response.initiatorUnixSecs
  cases hc : checkSkew self.maxSkewSecs (b.clock n) response.initiatorUnixSecs with
  | false =>
    rw [hc] at hskew
    refine ⟨h₂, _, hs₂, hread.bind (hskew.bind ?_)⟩
    rw [if_pos (by simp), if_neg (by simp)]
    exact yields_throw
  | true =>
    rw [hc] at hskew
    obtain ⟨h₃, hs₃, hv⟩ := hs₂.verify b d response.verifyingKey
      (mutualTranscript ROLE_INITIATOR b.nonce remoteId response.initiatorUnixSecs) response.signature
    rw [hverify] at hv
    refine ⟨h₃, _, hs₃, hread.bind (hskew.bind ?_)⟩
    rw [if_neg (by simp), if_pos rfl]
    exact hv.bind yields_pure

end MutualAuthProtocol

/-! ### Both ends -/

namespace Pair

variable {w : World} {c : Conn} {n n' : Node}

/-- Two endpoints that trust each other's keys and whose signers work, the acceptor's id being published. -/
structure Trusting (w : World) (c : Conn) (n n' : Node) (a b : Party) : Prop where
  mode : c.mode = .twoWay
  dialer : w.node c.dialer = some n
  target : w.node c.target.id = some n'
  published : b.localId = some c.target.id
  verify_dialer : a.verify = n.mutualVerifier.verify w.crypto
  verify_target : b.verify = n'.mutualVerifier.verify w.crypto
  roster_dialer : n.mutualVerifier.roster.contains n'.mutualProtocol.signer.verifyingKey = true
  roster_target : n'.mutualVerifier.roster.contains n.mutualProtocol.signer.verifyingKey = true
  sign_dialer : ∃ signature, a.sign (mutualTranscript ROLE_INITIATOR b.nonce c.dialer (a.clock 1)) = .ok signature ∧
    n'.mutualVerifier.checks w.crypto n.mutualProtocol.signer.verifyingKey
      (mutualTranscript ROLE_INITIATOR b.nonce c.dialer (a.clock 1)) signature = true ∧
    (Postcard.encode (MutualResponse.mk n.mutualProtocol.signer.verifyingKey signature (a.clock 1))).length ≤ MAX_MSG
  sign_target : ∃ signature, b.sign (mutualTranscript ROLE_ACCEPTOR a.nonce c.target.id (b.clock 0)) = .ok signature ∧
    n.mutualVerifier.checks w.crypto n'.mutualProtocol.signer.verifyingKey
      (mutualTranscript ROLE_ACCEPTOR a.nonce c.target.id (b.clock 0)) signature = true ∧
    (Postcard.encode (MutualChallenge.mk PROTOCOL_VERSION b.nonce n'.mutualProtocol.signer.verifyingKey signature
      (b.clock 0))).length ≤ MAX_MSG

/-- The acceptor behind its challenge, with what it does in the end. -/
private abbrev mutualJudging (b : Party) (c : Conn) (n' : Node) (h : Trace Resp) : Half :=
  ⟨(n'.mutualProtocol.judge c.dialer b.nonce).run >>= conclude id, h⟩

/-- Up to the initiator's freshness test both ends get without fail. -/
private theorem Trusting.runs_start (ht : Trusting w c n n' a b) :
    ∃ p hd hq, ∃ challenge : MutualChallenge, start w c = some p ∧
    Relation.ReflTransGen (Step a b) p ⟨⟨(Mutual.respond c.dialer c.target.id n.mutualProtocol.signer
      (some DEFAULT_MAX_SKEW_SECS) a.nonce).run, hd⟩, mutualJudging b c n' hq⟩ ∧
    Seen hd [] (frame (MutualHello.mk PROTOCOL_VERSION a.nonce)) 0 ∧
    Seen hq (frame (MutualHello.mk PROTOCOL_VERSION a.nonce)) (frame challenge) 1 ∧
    (Postcard.encode challenge).length ≤ MAX_MSG ∧ challenge.version = PROTOCOL_VERSION ∧
    challenge.nonce = b.nonce ∧ challenge.acceptorUnixSecs = b.clock 0 ∧
    ∃ institution, a.verify challenge.verifyingKey
      (mutualTranscript ROLE_ACCEPTOR a.nonce c.target.id (b.clock 0)) challenge.signature = .ok institution := by
  obtain ⟨sigB, hsign, hchecks, hfit⟩ := ht.sign_target
  obtain ⟨hd, hsd, hgreet⟩ := Mutual.runs_greet a ⟨n'.mutualProtocol.accept c.dialer, []⟩ c.dialer c.target c.target.id
    n.mutualProtocol.signer (some DEFAULT_MAX_SKEW_SECS)
  obtain ⟨hq, hsq, hchallenge⟩ := n'.mutualProtocol.runs_challenge c.dialer (d := ⟨(Mutual.respond c.dialer c.target.id
    n.mutualProtocol.signer (some DEFAULT_MAX_SKEW_SECS) a.nonce).run, hd⟩) (conclude id) ht.published hsd.written hsign
    hfit
  rw [← MutualAuthProtocol.accept_eq] at hchallenge
  refine ⟨_, hd, hq, _, ?_, (runs_dialer hgreet).trans (runs_acceptor hchallenge), hsd, hsq, hfit, rfl, rfl, rfl, ?_⟩
  · simp [start, World.program, MutualAuthTask.ofMutual, ht.dialer, ht.target, ht.mode]
  · rw [ht.verify_dialer]
    exact (InstitutionVerifier.verify_isOk _ _ _ _ _).2 ⟨ht.roster_dialer, hchecks⟩

/-- Without faults the mutual handshake succeeds exactly when the acceptor's asserted time is within
`DEFAULT_MAX_SKEW_SECS` of the initiator's clock and the initiator's within the acceptor's tolerance. -/
theorem mutual_verdict (ht : Trusting w c n n' a b) :
    ∃ p z, start w c = some p ∧ Settles a b p z ∧
      (Accepted z c.dialer ↔ Within (some DEFAULT_MAX_SKEW_SECS) (a.clock 0) (b.clock 0) ∧
        Within n'.mutualProtocol.maxSkewSecs (b.clock 1) (a.clock 1)) ∧
      (Accepted z c.dialer ∨ Denied z) ∧
      (z.dialer.proc = ret (.error .clockSkew) ↔ ¬ Within (some DEFAULT_MAX_SKEW_SECS) (a.clock 0) (b.clock 0)) := by
  obtain ⟨p, hd, hq, challenge, hstart, hrun, hsd, hsq, hfit, hversion, hnonce, htime, institution, hverify⟩ :=
    ht.runs_start
  simp only [← checkSkew_iff, ← htime] at hverify ⊢
  cases hfresh : checkSkew (some DEFAULT_MAX_SKEW_SECS) (a.clock 0) challenge.acceptorUnixSecs with
  | false =>
    obtain ⟨hd', hw, hrespond⟩ := Mutual.runs_respond_stale (q := mutualJudging b c n' hq) hsd hfit hsq.written hversion
      hfresh
    obtain ⟨hq', e, hsq', hjudge⟩ := n'.mutualProtocol.judge_gone c.dialer (d := ⟨ret (.error .clockSkew), hd'⟩) hsq rfl
      hw
    obtain ⟨z, hz, hden, hret⟩ := denied_of_gone (a := a) hsq' hjudge
    refine ⟨p, z, hstart, hden.settles (hrun.trans ((runs_dialer hrespond).trans hz)), ?_, .inr hden, ?_⟩
    · exact iff_of_false (fun h => h.not_denied hden) (by simp)
    · exact iff_of_true hret (by simp)
  | true =>
    obtain ⟨sigA, hsign, hchecks, hfitA⟩ := ht.sign_dialer
    obtain ⟨hd', hw, hrespond⟩ := Mutual.runs_respond_ok (q := mutualJudging b c n' hq) hsd hfit hsq.written hversion
      hfresh hverify (hnonce ▸ hsign) hfitA
    obtain ⟨label, hlabel⟩ : ∃ label, b.verify n.mutualProtocol.signer.verifyingKey
        (mutualTranscript ROLE_INITIATOR b.nonce c.dialer (a.clock 1)) sigA = .ok label := by
      rw [ht.verify_target]
      exact (InstitutionVerifier.verify_isOk _ _ _ _ _).2 ⟨ht.roster_target, hchecks⟩
    obtain ⟨hq', k, hsq', hjudge⟩ := n'.mutualProtocol.judge_response c.dialer (d := ⟨awaitVerdict.run, hd'⟩) hsq
      hfitA hw hlabel
    dsimp only at hjudge
    cases hskew : checkSkew n'.mutualProtocol.maxSkewSecs (b.clock 1) (a.clock 1) with
    | false =>
      rw [if_neg (by simp [hskew])] at hjudge
      obtain ⟨z, hz, hden, hret⟩ := denied_of_error (a := a) hsq' hjudge
      refine ⟨p, z, hstart, hden.settles (hrun.trans ((runs_dialer hrespond).trans hz)), ?_, .inr hden, ?_⟩
      · exact iff_of_false (fun h => h.not_denied hden) (by simp)
      · exact iff_of_false (by simp [hret]) (by simp)
    | true =>
      rw [if_pos hskew] at hjudge
      obtain ⟨z, hz, hacc⟩ := accepted_of_ok (a := a) hsq' hjudge
      refine ⟨p, z, hstart, hacc.settles (hrun.trans ((runs_dialer hrespond).trans hz)), ?_, .inl hacc, ?_⟩
      · exact iff_of_true hacc (by simp)
      · exact iff_of_false (by simp [hacc.returned]) (by simp)

/-- That the two tolerances configured with `with_max_skew` are met is enough for the mutual handshake to succeed if and
only if the initiator's clock is then also within `DEFAULT_MAX_SKEW_SECS` of the acceptor's asserted time; and beyond
that the initiator fails with `ClockSkew`, whatever was configured. -/
theorem mutual_complete_iff_default (ht : Trusting w c n n' a b) :
    ∃ p z, start w c = some p ∧ Settles a b p z ∧
      ((Within n.mutualProtocol.maxSkewSecs (a.clock 0) (b.clock 0) →
          Within n'.mutualProtocol.maxSkewSecs (b.clock 1) (a.clock 1) → Accepted z c.dialer) ↔
        (Within n.mutualProtocol.maxSkewSecs (a.clock 0) (b.clock 0) →
          Within n'.mutualProtocol.maxSkewSecs (b.clock 1) (a.clock 1) →
            Within (some DEFAULT_MAX_SKEW_SECS) (a.clock 0) (b.clock 0))) ∧
      (z.dialer.proc = ret (.error .clockSkew) ↔ ¬ Within (some DEFAULT_MAX_SKEW_SECS) (a.clock 0) (b.clock 0)) := by
  obtain ⟨p, z, hstart, hz, hacc, -, hskew⟩ := mutual_verdict ht
  refine ⟨p, z, hstart, hz, ?_, hskew⟩
  rw [hacc]
  constructor
  · exact fun h hA hB => (h hA hB).1
  · exact fun h hA hB => ⟨h hA hB, hB⟩

private theorem duo_trusting (maxSkewSecs : Option UInt64) (t t' : UInt64) :
    Trusting (Duo.world maxSkewSecs) (Duo.conn .twoWay) (Duo.node [1] maxSkewSecs) (Duo.node [2] maxSkewSecs)
      (Duo.party Duo.alice 1 t) (Duo.party Duo.bob 2 t') where
  mode := rfl
  dialer := rfl
  target := rfl
  published := rfl
  verify_dialer := rfl
  verify_target := rfl
  roster_dialer := show Duo.verifier.roster.contains [2] = true by decide
  roster_target := show Duo.verifier.roster.contains [1] = true by decide
  sign_dialer := by
    refine ⟨_, rfl, decide_eq_true rfl, mutualResponse_fits ?_⟩
    rw [List.length_append, length_mutualTranscript]
    exact show 1 + (1 + 108) ≤ 16000 by decide
  sign_target := by
    refine ⟨_, rfl, decide_eq_true rfl, mutualChallenge_fits ?_⟩
    rw [List.length_append, length_mutualTranscript]
    exact show 1 + (1 + 108) ≤ 16000 by decide

theorem duo_mutual_complete : ∃ p z, start (Duo.world none) (Duo.conn .twoWay) = some p ∧
    Settles (Duo.party Duo.alice 1 1000) (Duo.party Duo.bob 2 1300) p z ∧ Accepted z Duo.alice := by
  obtain ⟨p, z, hstart, hz, hiff, -⟩ := mutual_complete_iff_default (duo_trusting none 1000 1300)
  refine ⟨p, z, hstart, hz, hiff.2 (fun _ _ => ?_) nofun nofun⟩
  rintro _ ⟨⟩
  decide

/-- Both endpoints have disabled the freshness test, and their clocks are 301 seconds apart. -/
theorem duo_mutual_clock_skew :
    Trusting (Duo.world none) (Duo.conn .twoWay) (Duo.node [1] none) (Duo.node [2] none)
      (Duo.party Duo.alice 1 1000) (Duo.party Duo.bob 2 1301) ∧
    Within (Duo.node [1] none).mutualProtocol.maxSkewSecs 1000 1301 ∧
    Within (Duo.node [2] none).mutualProtocol.maxSkewSecs 1301 1000 ∧
    ∃ p z, start (Duo.world none) (Duo.conn .twoWay) = some p ∧
      Settles (Duo.party Duo.alice 1 1000) (Duo.party Duo.bob 2 1301) p z ∧
      z.dialer.proc = ret (.error .clockSkew) ∧ ¬ Accepted z Duo.alice := by
  refine ⟨duo_trusting none 1000 1301, nofun, nofun, ?_⟩
  obtain ⟨p, z, hstart, hz, hacc, -, hskew⟩ := mutual_verdict (duo_trusting none 1000 1301)
  have hfar : ¬ Within (some DEFAULT_MAX_SKEW_SECS) 1000 1301 := by
    intro h
    exact absurd (h _ rfl).2 (by decide)
  exact ⟨p, z, hstart, hz, hskew.2 hfar, fun h => hfar (hacc.1 h).1⟩

end Pair

/-! ### In the network -/

/-- From every reachable state that has both ends of `c` before their first steps, a dialer that trusts its target and
is trusted there can get on record at it, and return `Ok`, if the clocks are close enough. -/
theorem Net.trusting_recorded {w : World} {st : Net} {labels : List Label} (h : init.run w labels = some st)
    {c : Conn} {n n' : Node} {p : Pair} (ht : Pair.Trusting w c n n' a b) (hstart : Pair.start w c = some p)
    (hp : Shows w a b c st p) (hA : Within (some DEFAULT_MAX_SKEW_SECS) (a.clock 0) (b.clock 0))
    (hB : Within n'.mutualProtocol.maxSkewSecs (b.clock 1) (a.clock 1)) :
    ∃ labels' st', (∀ l ∈ labels', l.isAnswer = true) ∧ st.run w labels' = some st' ∧
      c.dialer ∈ (st'.gate c.target.id .twoWay).task.allowed ∧ st'.proc (c, .dialer) = some (ret (.ok ())) := by
  have hs := sound_of_run h
  obtain ⟨p', z, hstart', hz, hiff, -⟩ := Pair.mutual_verdict ht
  have hacc := hiff.2 ⟨hA, hB⟩
  rw [hstart] at hstart'
  cases hstart'
  obtain ⟨labels', st', hlabels, hrun, hshows⟩ := hp.run hs hz.reflTransGen
  refine ⟨labels', st', hlabels, hrun, (hs.run hrun).recorded.shared (c, .acceptor) _ ht.mode ?_, ?_⟩
  · rw [← mem_inserted, hshows.acceptor.trace, hacc.recorded]
    exact List.mem_singleton_self _
  · rw [hshows.dialer.proc, hacc.returned]

end IrohHydeAuth
