import IrohHydeAuth.Realization

/-!
# The verdict of the one-directional handshake

Without faults, both ends of the one-directional handshake reach the same verdict, whatever the order of their steps,
and it is the right one: the acceptor records the initiator and the initiator returns `Ok` exactly when the signer's key
is in the roster, its signature over the transcript verifies and the two clocks are close enough.
-/

namespace IrohHydeAuth

open Process Prog

variable {a b : Party}

/-! ### The initiator -/

namespace Outgoing

variable {endpointId : EndpointId} {remoteAddr : EndpointAddr} {signer : InstitutionalSigner} {h : Trace Resp}
  {x : Bytes} {nonce : Nonce} {serverNow : UInt64}

private theorem runs_greet (a : Party) (q : Half) (endpointId : EndpointId) (remoteAddr : EndpointAddr)
    (signer : InstitutionalSigner) : ∃ h, Seen h [] (frame (ClientHello.mk PROTOCOL_VERSION)) 0 ∧
    Runs a q ⟨(handshake endpointId remoteAddr signer).run, []⟩ ⟨(respond endpointId signer).run, h⟩ := by
  obtain ⟨h₁, hs₁, hconnect⟩ := seen_nil.connect a q remoteAddr ALPN
  obtain ⟨h₂, hs₂, hopen⟩ := hs₁.openBi a q
  obtain ⟨h₃, hs₃, hwrite⟩ := hs₂.writeMsg a q (clientHello_fits (ClientHello.mk PROTOCOL_VERSION))
  refine ⟨h₃, hs₃, ?_⟩
  rw [handshake]
  exact hconnect.runs (hopen.runs (hwrite.runs .refl))

/-- Up to its signature the initiator cannot fail. -/
private theorem runs_respond {q : Half} (signer : InstitutionalSigner) (hs : Seen h [] x 0)
    (hw : written q.trace = frame (ServerChallenge.mk PROTOCOL_VERSION nonce serverNow)) :
    ∃ h₁, Seen h₁ (frame (ServerChallenge.mk PROTOCOL_VERSION nonce serverNow)) x 1 ∧
      Runs a q ⟨(respond endpointId signer).run, h⟩ ⟨(do
        let signature ← signBlocking (transcript nonce endpointId (a.clock 0))
        writeMsg (ClientAuth.mk signer.verifyingKey signature (a.clock 0))
        transport (call .finish)
        awaitVerdict : Async Unit).run, h₁⟩ := by
  obtain ⟨h₁, hs₁, hread⟩ := hs.readMsg (z := []) a
    (serverChallenge_fits (ServerChallenge.mk PROTOCOL_VERSION nonce serverNow)) (by simpa using hw)
  obtain ⟨h₂, hs₂, hclock⟩ := hs₁.unixSecs a q
  refine ⟨h₂, hs₂, hread.runs ?_⟩
  rw [if_neg (by simp)]
  exact hclock.runs .refl

/-- A signer that fails ends the session. -/
private theorem runs_respond_error {q : Half} {e : Error} (signer : InstitutionalSigner) (hs : Seen h [] x 0)
    (hw : written q.trace = frame (ServerChallenge.mk PROTOCOL_VERSION nonce serverNow))
    (hsign : a.sign (transcript nonce endpointId (a.clock 0)) = .error e) :
    ∃ h', written h' = x ∧ Runs a q ⟨(respond endpointId signer).run, h⟩ ⟨ret (.error e), h'⟩ := by
  obtain ⟨h₁, hs₁, hrun⟩ := runs_respond (a := a) signer hs hw
  obtain ⟨h₂, hs₂, hy⟩ := hs₁.sign a q (transcript nonce endpointId (a.clock 0))
  rw [hsign] at hy
  exact ⟨h₂, hs₂.written, hrun.trans hy.runs_error⟩

private theorem runs_respond_ok {q : Half} {signature : Bytes} (hs : Seen h [] x 0)
    (hw : written q.trace = frame (ServerChallenge.mk PROTOCOL_VERSION nonce serverNow))
    (hsign : a.sign (transcript nonce endpointId (a.clock 0)) = .ok signature)
    (hfit : (Postcard.encode (ClientAuth.mk signer.verifyingKey signature (a.clock 0))).length ≤ MAX_MSG) :
    ∃ h', written h' = x ++ frame (ClientAuth.mk signer.verifyingKey signature (a.clock 0)) ∧
      Runs a q ⟨(respond endpointId signer).run, h⟩ ⟨awaitVerdict.run, h'⟩ := by
  obtain ⟨h₁, hs₁, hrun⟩ := runs_respond (a := a) signer hs hw
  obtain ⟨h₂, hs₂, hy⟩ := hs₁.sign a q (transcript nonce endpointId (a.clock 0))
  rw [hsign] at hy
  obtain ⟨h₃, hs₃, hwrite⟩ := hs₂.writeMsg a q hfit
  obtain ⟨h₄, hs₄, hfinish⟩ := hs₃.finish a q
  exact ⟨h₄, hs₄.written, hrun.trans (hy.runs (hwrite.runs (hfinish.runs .refl)))⟩

end Outgoing

/-! ### The acceptor -/

namespace AuthProtocol

variable {self : AuthProtocol} {remoteId : EndpointId} {h : Trace Resp} {x : Bytes}

/-- Up to its challenge the acceptor cannot fail. -/
private theorem runs_challenge (b : Party) {d : Half} (self : AuthProtocol) (remoteId : EndpointId)
    (g : Except Error InstitutionId → Session) (hw : written d.trace = frame (ClientHello.mk PROTOCOL_VERSION)) :
    ∃ h, Seen h (frame (ClientHello.mk PROTOCOL_VERSION))
        (frame (ServerChallenge.mk PROTOCOL_VERSION b.nonce (b.clock 0))) 1 ∧
      Runs b d ⟨(self.runHandshake remoteId).run >>= g, []⟩
        ⟨(self.judge remoteId b.nonce (b.clock 0)).run >>= g, h⟩ := by
  obtain ⟨h₁, hs₁, haccept⟩ := seen_nil.acceptBi b d
  obtain ⟨h₂, hs₂, hread⟩ := hs₁.readMsg (z := []) b (clientHello_fits (ClientHello.mk PROTOCOL_VERSION))
    (by simpa using hw)
  obtain ⟨h₃, hs₃, hrandom⟩ := hs₂.random b d
  obtain ⟨h₄, hs₄, hclock⟩ := hs₃.unixSecs b d
  obtain ⟨h₅, hs₅, hwrite⟩ := hs₄.writeMsg b d
    (serverChallenge_fits (ServerChallenge.mk PROTOCOL_VERSION b.nonce (b.clock 0)))
  refine ⟨h₅, by simpa using hs₅, ?_⟩
  rw [runHandshake]
  refine haccept.runs_bind (hread.runs_bind ?_)
  rw [if_neg (by simp)]
  exact hrandom.runs_bind (hclock.runs_bind (hwrite.runs_bind .refl))

variable {d : Half} {y : Bytes} {k n : Nat} {nonce : Nonce} {serverNow : UInt64} {auth : ClientAuth}

/-- An initiator that is gone without an assertion is denied. -/
private theorem judge_gone (self : AuthProtocol) (hs : Seen h x y n) (hg : d.gone = true) (hw : written d.trace = x) :
    ∃ h' e, Seen h' x y n ∧ Yields b d (self.judge remoteId nonce serverNow) h (.error e) h' := by
  obtain ⟨h', hs', hread⟩ := hs.readMsg_gone b hg hw MAX_MSG ClientAuth
  exact ⟨h', _, hs', hread.bind_error⟩

/-- The acceptor's judgement on the assertion it was sent. -/
private theorem judge_auth (self : AuthProtocol) (b : Party) (remoteId : EndpointId) (nonce : Nonce)
    (serverNow : UInt64) (hs : Seen h x y n) (hfit : (Postcard.encode auth).length ≤ MAX_MSG)
    (hw : written d.trace = x ++ frame auth) :
    ∃ h' r, Seen h' (x ++ frame auth) y n ∧ Yields b d (self.judge remoteId nonce serverNow) h r h' ∧
      (r.isOk = true ↔ checkSkew self.maxSkewSecs serverNow auth.clientUnixSecs = true ∧
        ∃ label, b.verify auth.verifyingKey (transcript nonce remoteId auth.clientUnixSecs) auth.signature =
          .ok label) := by
  obtain ⟨h₁, hs₁, hread⟩ := hs.readMsg (z := []) b hfit (by simpa using hw)
  cases hskew : checkSkew self.maxSkewSecs serverNow auth.clientUnixSecs with
  | false =>
    refine ⟨h₁, .error .clockSkew, hs₁, hread.bind ?_, by simp [Except.isOk, Except.toBool]⟩
    rw [if_pos (by simp [hskew])]
    exact yields_throw
  | true =>
    obtain ⟨h₂, hs₂, hverify⟩ := hs₁.verify b d auth.verifyingKey
      (transcript nonce remoteId auth.clientUnixSecs) auth.signature
    cases hv : b.verify auth.verifyingKey (transcript nonce remoteId auth.clientUnixSecs) auth.signature with
    | error e =>
      refine ⟨h₂, .error (.denied e.toString), hs₂, hread.bind ?_, by simp [Except.isOk, Except.toBool]⟩
      rw [if_neg (by simp [hskew])]
      rw [hv] at hverify
      exact hverify.bind yields_throw
    | ok label =>
      refine ⟨h₂, .ok label, hs₂, hread.bind ?_, by simp [Except.isOk, Except.toBool]⟩
      rw [if_neg (by simp [hskew])]
      rw [hv] at hverify
      exact hverify.bind yields_pure

end AuthProtocol

/-! ### Both ends -/

namespace Pair

variable {w : World} {c : Conn} {n n' : Node}

/-- The dialer can answer the acceptor's challenge with an assertion that the acceptor has to accept: its key is in the
roster, the signature verifies and the clocks are close enough. -/
def Authentic (w : World) (c : Conn) (n n' : Node) (a b : Party) : Prop :=
  ∃ signature, a.sign (transcript b.nonce c.dialer (a.clock 0)) = .ok signature ∧
    n'.verifier.roster.contains n.signer.verifyingKey = true ∧
    n'.verifier.checks w.crypto n.signer.verifyingKey (transcript b.nonce c.dialer (a.clock 0)) signature = true ∧
    Within n'.protocol.maxSkewSecs (b.clock 0) (a.clock 0)

/-- The acceptor behind its challenge, with what it does in the end. -/
private abbrev judging (b : Party) (c : Conn) (n' : Node) (h : Trace Resp) : Half :=
  ⟨(n'.protocol.judge c.dialer b.nonce (b.clock 0)).run >>= conclude fun _ => c.dialer, h⟩

/-- Up to the signature both ends get without fail. -/
private theorem runs_start (a b : Party) (hmode : c.mode = .oneWay) (hn : w.node c.dialer = some n)
    (hn' : w.node c.target.id = some n') :
    ∃ p hd hq, start w c = some p ∧
      Relation.ReflTransGen (Step a b) p ⟨⟨(Outgoing.respond c.dialer n.signer).run, hd⟩, judging b c n' hq⟩ ∧
      Seen hd [] (frame (ClientHello.mk PROTOCOL_VERSION)) 0 ∧
      Seen hq (frame (ClientHello.mk PROTOCOL_VERSION))
        (frame (ServerChallenge.mk PROTOCOL_VERSION b.nonce (b.clock 0))) 1 := by
  obtain ⟨hd, hsd, hgreet⟩ := Outgoing.runs_greet a ⟨n'.protocol.accept c.dialer, []⟩ c.dialer c.target n.signer
  obtain ⟨hq, hsq, hchallenge⟩ := AuthProtocol.runs_challenge b (d := ⟨(Outgoing.respond c.dialer n.signer).run, hd⟩)
    n'.protocol c.dialer (conclude fun _ => c.dialer) hsd.written
  rw [← AuthProtocol.accept_eq] at hchallenge
  refine ⟨_, hd, hq, ?_, (runs_dialer hgreet).trans (runs_acceptor hchallenge), hsd, hsq⟩
  simp [start, World.program, hn, hn', hmode]

/-- One order of steps to the end. -/
theorem one_way_outcome (a b : Party) (hmode : c.mode = .oneWay) (hn : w.node c.dialer = some n)
    (hn' : w.node c.target.id = some n') (hverify : b.verify = n'.verifier.verify w.crypto)
    (hfit : ∀ signature, a.sign (transcript b.nonce c.dialer (a.clock 0)) = .ok signature →
      (Postcard.encode (ClientAuth.mk n.signer.verifyingKey signature (a.clock 0))).length ≤ MAX_MSG) :
    ∃ p z, start w c = some p ∧ Relation.ReflTransGen (Step a b) p z ∧
      (Accepted z c.dialer ∧ Authentic w c n n' a b ∨ Denied z ∧ ¬ Authentic w c n n' a b) := by
  obtain ⟨p, hd, hq, hstart, hrun, hsd, hsq⟩ := runs_start a b hmode hn hn'
  cases hsign : a.sign (transcript b.nonce c.dialer (a.clock 0)) with
  | error e =>
    -- the dialer leaves without an assertion
    obtain ⟨hd', hw, hrespond⟩ := Outgoing.runs_respond_error (q := judging b c n' hq) n.signer hsd hsq.written hsign
    obtain ⟨hq', e', hsq', hjudge⟩ := n'.protocol.judge_gone (d := ⟨ret (.error e), hd'⟩) hsq rfl hw
    obtain ⟨z, hz, hden, -⟩ := denied_of_gone (a := a) hsq' hjudge
    refine ⟨p, z, hstart, hrun.trans ((runs_dialer hrespond).trans hz), .inr ⟨hden, ?_⟩⟩
    rintro ⟨signature, hok, -⟩
    rw [hsign] at hok
    cases hok
  | ok signature =>
    obtain ⟨hd', hw, hrespond⟩ := Outgoing.runs_respond_ok (q := judging b c n' hq) hsd hsq.written hsign
      (hfit signature hsign)
    obtain ⟨hq', r, hsq', hjudge, hr⟩ := n'.protocol.judge_auth b c.dialer b.nonce (b.clock 0)
      (d := ⟨awaitVerdict.run, hd'⟩) hsq (hfit signature hsign) hw
    have hauth : r.isOk = true ↔ Authentic w c n n' a b := by
      rw [hr, hverify, InstitutionVerifier.verify_isOk, checkSkew_iff]
      simp [Authentic, hsign, and_comm, and_assoc]
    cases r with
    | ok label =>
      obtain ⟨z, hz, hacc⟩ := accepted_of_ok (a := a) hsq' hjudge
      exact ⟨p, z, hstart, hrun.trans ((runs_dialer hrespond).trans hz), .inl ⟨hacc, hauth.1 rfl⟩⟩
    | error e =>
      obtain ⟨z, hz, hden, -⟩ := denied_of_error (a := a) hsq' hjudge
      refine ⟨p, z, hstart, hrun.trans ((runs_dialer hrespond).trans hz), .inr ⟨hden, fun h => ?_⟩⟩
      cases hauth.2 h

/-- Without faults, every order of steps brings the two ends of a one-directional handshake to the same end: the
acceptor records the dialer and both say so if the dialer is authentic, and otherwise both deny. -/
theorem one_way_verdict (w : World) (c : Conn) (n n' : Node) (a b : Party) (hmode : c.mode = .oneWay)
    (hn : w.node c.dialer = some n) (hn' : w.node c.target.id = some n')
    (hverify : b.verify = n'.verifier.verify w.crypto)
    (hfit : ∀ signature, a.sign (transcript b.nonce c.dialer (a.clock 0)) = .ok signature →
      (Postcard.encode (ClientAuth.mk n.signer.verifyingKey signature (a.clock 0))).length ≤ MAX_MSG) :
    ∃ p z, start w c = some p ∧ Settles a b p z ∧ (Accepted z c.dialer ↔ Authentic w c n n' a b) ∧
      (Denied z ↔ ¬ Authentic w c n n' a b) := by
  obtain ⟨p, z, hstart, hz, ⟨hacc, hauth⟩ | ⟨hden, hauth⟩⟩ := one_way_outcome a b hmode hn hn' hverify hfit
  · exact ⟨p, z, hstart, hacc.settles hz, iff_of_true hacc hauth, iff_of_false hacc.not_denied (not_not.2 hauth)⟩
  · exact ⟨p, z, hstart, hden.settles hz, iff_of_false (fun h => h.not_denied hden) hauth, iff_of_true hden hauth⟩

theorem duo_one_way_verdict : ∃ p z, start (Duo.world (some 300)) (Duo.conn .oneWay) = some p ∧
    Settles (Duo.party Duo.alice 1 1000) (Duo.party Duo.bob 2 1300) p z ∧ Accepted z Duo.alice := by
  obtain ⟨p, z, hstart, hz, hacc, -⟩ := one_way_verdict (Duo.world (some 300)) (Duo.conn .oneWay)
    (Duo.node [1] (some 300)) (Duo.node [2] (some 300)) (Duo.party Duo.alice 1 1000) (Duo.party Duo.bob 2 1300)
    rfl rfl rfl rfl (by rintro _ ⟨⟩; exact clientAuth_fits (by decide))
  refine ⟨p, z, hstart, hz, hacc.2 ⟨_, rfl, by decide, by decide +kernel, ?_⟩⟩
  rintro _ ⟨⟩
  decide

end Pair

/-! ### In the network -/

/-- From every reachable state that has both ends of `c` before their first steps, an authentic dialer can get on record
at its target, and return `Ok`. -/
theorem Net.authentic_recorded {w : World} {st : Net} {labels : List Label} (h : init.run w labels = some st)
    {c : Conn} {n n' : Node} {p : Pair} (hmode : c.mode = .oneWay) (hn : w.node c.dialer = some n)
    (hn' : w.node c.target.id = some n') (hverify : b.verify = n'.verifier.verify w.crypto)
    (hfit : ∀ signature, a.sign (transcript b.nonce c.dialer (a.clock 0)) = .ok signature →
      (Postcard.encode (ClientAuth.mk n.signer.verifyingKey signature (a.clock 0))).length ≤ MAX_MSG)
    (hstart : Pair.start w c = some p) (hp : Shows w a b c st p) (hauth : Pair.Authentic w c n n' a b) :
    ∃ labels' st', (∀ l ∈ labels', l.isAnswer = true) ∧ st.run w labels' = some st' ∧
      c.dialer ∈ st'.incoming c.target.id ∧ st'.proc (c, .dialer) = some (ret (.ok ())) := by
  have hs := sound_of_run h
  obtain ⟨p', z, hstart', hz, ⟨hacc, -⟩ | ⟨-, hno⟩⟩ := Pair.one_way_outcome a b hmode hn hn' hverify hfit
  · rw [hstart] at hstart'
    cases hstart'
    obtain ⟨labels', st', hlabels, hrun, hz⟩ := hp.run hs hz
    refine ⟨labels', st', hlabels, hrun, (hs.run hrun).recorded.admitted (c, .acceptor) _ hmode ?_, ?_⟩
    · rw [← mem_inserted, hz.acceptor.trace, hacc.recorded]
      exact List.mem_singleton_self _
    · rw [hz.dialer.proc, hacc.returned]
  · exact absurd hauth hno

end IrohHydeAuth
