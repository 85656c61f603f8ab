import IrohHydeAuth.Traces

/-!
# The traces of the one-directional handshake

* The acceptor inserts its remote only after the trace `AuthProtocol.Verified`, and closes with `CLOSE_ACCEPTED` only
  after it has inserted it.
* The initiator has written nothing but a part of its greeting, or it has the trace `Outgoing.Signed` behind it and
  has since written nothing but a part of its assertion; it returns `Ok` only on the close code `CLOSE_ACCEPTED`.
-/

namespace IrohHydeAuth

open Process Prog

variable {h : Trace Resp}

/-! ### The acceptor -/

namespace AuthProtocol

variable {self : AuthProtocol} {remoteId : EndpointId} {q : Session}

/-- The trace of an acceptor that has challenged its remote with `nonce` and verified the assertion `auth`. -/
inductive Verified (self : AuthProtocol) (remoteId : EndpointId) :
    Trace Resp → Nonce → ClientAuth → Prop
  | mk {hello : ClientHello} {nonce : Nonce} {serverNow : UInt64} {auth : ClientAuth} {h₁ h₂ h₃ : Trace Resp}
      (institution : InstitutionId) (hello_read : ReadsMsg hello h₁)
      (challenge_written : WritesMsg (ServerChallenge.mk PROTOCOL_VERSION nonce serverNow) h₂)
      (auth_read : ReadsMsg auth h₃) (fresh : checkSkew self.maxSkewSecs serverNow auth.clientUnixSecs = true) :
      Verified self remoteId
        ([⟨.acceptBi, .ok ()⟩] ++ h₁ ++ [⟨.random, nonce⟩, ⟨.unixSecs, serverNow⟩] ++ h₂ ++ h₃ ++
          [⟨.verify auth.verifyingKey (transcript nonce remoteId auth.clientUnixSecs) auth.signature,
            .ok institution⟩])
        nonce auth

theorem runHandshake_ok {institution : InstitutionId}
    (hp : Path (self.runHandshake remoteId).run h (ret (.ok institution))) :
    ∃ nonce auth, Verified self remoteId h nonce auth := by
  obtain ⟨_, h₁, h₂, rfl, hp₁, hp₂⟩ := hp.run_bind_ok
  obtain ⟨hello, h₃, h₄, rfl, hp₃, hp₄⟩ := hp₂.run_bind_ok
  rcases path_ite_throw hp₄ with ⟨-, -, he⟩ | ⟨-, hp₄⟩
  · cases he
  obtain ⟨nonce, h₅, h₆, rfl, hp₅, hp₆⟩ := hp₄.run_bind_ok
  obtain ⟨serverNow, h₇, h₈, rfl, hp₇, hp₈⟩ := hp₆.run_bind_ok
  obtain ⟨_, h₉, h₁₀, rfl, hp₉, hp₁₀⟩ := hp₈.run_bind_ok
  obtain ⟨auth, h₁₁, h₁₂, rfl, hp₁₁, hp₁₂⟩ := hp₁₀.run_bind_ok
  rcases path_ite_throw hp₁₂ with ⟨-, -, he⟩ | ⟨hfresh, hp₁₂⟩
  · cases he
  obtain ⟨res, h₁₃, h₁₄, rfl, hp₁₃, hp₁₄⟩ := hp₁₂.run_bind_ok
  cases res with
  | error e => cases hp₁₄.ret_inv.2
  | ok institution =>
    have hv : Verified self remoteId _ nonce auth :=
      .mk institution (readMsg_ok hp₃) (writeMsg_ok hp₉) (readMsg_ok hp₁₁) (by simpa using hfresh)
    refine ⟨nonce, auth, ?_⟩
    rw [path_acceptBi hp₁, path_lift hp₅, path_lift hp₇, path_lift hp₁₃, hp₁₄.ret_inv.1]
    simpa using hv

theorem asks_runHandshake {P : Op → Prop} (hA : P .acceptBi) (hR : ∀ n, P (.readExact n))
    (hN : P .random) (hT : P .unixSecs) (hW : ∀ bytes, P (.writeAll bytes)) (hV : ∀ k m s, P (.verify k m s)) :
    (self.runHandshake remoteId).run.Asks P := by
  refine (asks_transport (asks_call.2 hA)).run_bind fun _ => ?_
  refine (asks_readMsg hR).run_bind fun hello => asks_ite trivial ?_
  refine (asks_lift hN).run_bind fun nonce => (asks_lift hT).run_bind fun serverNow => ?_
  refine (asks_writeMsg hW).run_bind fun _ => (asks_readMsg hR).run_bind fun auth => asks_ite trivial ?_
  refine (asks_lift (hV _ _ _)).run_bind fun res => ?_
  cases res with
  | error e => exact trivial
  | ok institution => exact trivial

theorem accept_eq :
    self.accept remoteId = (self.runHandshake remoteId).run >>= conclude fun _ => remoteId := rfl

theorem asks_accept {P : Op → Prop} (hA : P .acceptBi) (hR : ∀ n, P (.readExact n)) (hN : P .random)
    (hT : P .unixSecs) (hW : ∀ bytes, P (.writeAll bytes)) (hV : ∀ k m s, P (.verify k m s))
    (hI : ∀ y, P (.insert y)) (hC : ∀ code reason, P (.close code reason)) : (self.accept remoteId).Asks P := by
  rw [accept_eq]
  exact (asks_runHandshake hA hR hN hT hW hV).bind (asks_conclude hI hC)

/-- An acceptor inserts only its remote, and only once it has verified it. -/
theorem insert_accept {y : EndpointId} (hp : Path (self.accept remoteId) h q) (he : ⟨.insert y, ()⟩ ∈ h) :
    y = remoteId ∧ ∃ h₁ h₂ nonce auth, h = h₁ ++ h₂ ∧ Verified self remoteId h₁ nonce auth ∧ reads h₂ = [] ∧
      written h₂ = [] := by
  rw [accept_eq] at hp
  have hx : (self.runHandshake remoteId).run.Asks fun op => ∀ y, op ≠ .insert y := by
    apply asks_runHandshake <;> simp
  obtain ⟨b, h₁, h₂, rfl, hp₁, hy, hr, hw⟩ := conclude_insert hx hp he
  obtain ⟨nonce, auth, hv⟩ := runHandshake_ok hp₁
  exact ⟨hy, h₁, h₂, nonce, auth, rfl, hv, hr, hw⟩

theorem close_accept {code : UInt32} {reason : Bytes} (hp : Path (self.accept remoteId) h q)
    (he : ⟨.close code reason, ()⟩ ∈ h) :
    code = CLOSE_DENIED ∨ code = CLOSE_ACCEPTED ∧ ⟨.insert remoteId, ()⟩ ∈ h := by
  rw [accept_eq] at hp
  have hx : (self.runHandshake remoteId).run.Asks fun op => ∀ code reason, op ≠ .close code reason := by
    apply asks_runHandshake <;> simp
  exact (conclude_close hx hp he).imp_right fun ⟨hc, _, hm⟩ => ⟨hc, hm⟩

end AuthProtocol

/-! ### The initiator -/

namespace Outgoing

variable {endpointId : EndpointId} {remoteAddr : EndpointAddr} {signer : InstitutionalSigner} {q : Session}

/-- The trace of an initiator that has signed for the challenge it was sent. -/
inductive Signed (endpointId : EndpointId) (remoteAddr : EndpointAddr) :
    Trace Resp → ServerChallenge → UInt64 → Bytes → Prop
  | mk {challenge : ServerChallenge} {now : UInt64} {signature : Bytes} {h₁ h₂ : Trace Resp}
      (hello_written : WritesMsg (ClientHello.mk PROTOCOL_VERSION) h₁) (challenge_read : ReadsMsg challenge h₂)
      (version : challenge.version = PROTOCOL_VERSION) :
      Signed endpointId remoteAddr
        ([⟨.connect remoteAddr ALPN, .ok ()⟩, ⟨.openBi, .ok ()⟩] ++ h₁ ++ h₂ ++
          [⟨.unixSecs, now⟩, ⟨.sign (transcript challenge.nonce endpointId now), .ok signature⟩])
        challenge now signature

theorem Signed.connect_mem {challenge : ServerChallenge} {now : UInt64} {signature : Bytes}
    (hs : Signed endpointId remoteAddr h challenge now signature) : ⟨.connect remoteAddr ALPN, .ok ()⟩ ∈ h := by
  obtain ⟨-⟩ := hs
  simp

theorem Signed.sign_mem {challenge : ServerChallenge} {now : UInt64} {signature : Bytes}
    (hs : Signed endpointId remoteAddr h challenge now signature) :
    ⟨.sign (transcript challenge.nonce endpointId now), .ok signature⟩ ∈ h := by
  obtain ⟨-⟩ := hs
  simp

theorem asks_handshake {P : Op → Prop} (hC : P (.connect remoteAddr ALPN)) (hO : P .openBi)
    (hW : ∀ bytes, P (.writeAll bytes)) (hR : ∀ n, P (.readExact n)) (hT : P .unixSecs)
    (hS : ∀ nonce now, P (.sign (transcript nonce endpointId now))) (hF : P .finish) (hD : P .closed) :
    (handshake endpointId remoteAddr signer).run.Asks P := by
  refine (asks_transport (asks_call.2 hC)).run_bind fun _ => (asks_transport (asks_call.2 hO)).run_bind fun _ => ?_
  refine (asks_writeMsg hW).run_bind fun _ => (asks_readMsg hR).run_bind fun challenge => ?_
  exact asks_ite trivial (asks_attest hT (fun _ => hS _ _) hW hF hD)

/-- Behind its greeting an initiator has written nothing, or it has signed for the challenge it was sent. -/
private theorem respond_cases (hp : Path (respond endpointId signer).run h q) :
    (written h = [] ∧ q ≠ ret (.ok ())) ∨
      ∃ (h₁ h₂ : Trace Resp) (challenge : ServerChallenge) (now : UInt64) (signature : Bytes),
        ReadsMsg challenge h₁ ∧ challenge.version = PROTOCOL_VERSION ∧
        h = h₁ ++ [⟨.unixSecs, now⟩, ⟨.sign (transcript challenge.nonce endpointId now), .ok signature⟩] ++ h₂ ∧
        WritesPart (ClientAuth.mk signer.verifyingKey signature now) h₂ ∧
        (q = ret (.ok ()) → ∃ reason, ⟨.closed, reason⟩ ∈ h₂ ∧ verdict reason = .ok ()) := by
  rcases hp.run_bind_cases with ⟨p, hp, -, hq⟩ | ⟨challenge, h₁, h₂, rfl, hp₁, hp₂⟩
  · exact .inl ⟨written_of_asks hp (asks_readMsg fun _ => trivial), hq _⟩
  have hr := readMsg_ok hp₁
  rcases path_ite_throw hp₂ with ⟨-, rfl, rfl⟩ | ⟨hver, hp₂⟩
  · exact .inl ⟨by simp [hr.written_eq], by simp⟩
  rcases path_attest hp₂ with ⟨hm, hq⟩ | ⟨now, signature, h₃, rfl, hpart, hok⟩
  · exact .inl ⟨by simp [hr.written_eq, hm], hq⟩
  · exact .inr ⟨h₁, h₃, challenge, now, signature, hr, not_not.1 hver, by simp, hpart, hok⟩

/-- How far an initiator is. -/
theorem handshake_cases (hp : Path (handshake endpointId remoteAddr signer).run h q) :
    (WritesPart (ClientHello.mk PROTOCOL_VERSION) h ∧ q ≠ ret (.ok ())) ∨
      ∃ h₁ h₂ challenge now signature, h = h₁ ++ h₂ ∧ Signed endpointId remoteAddr h₁ challenge now signature ∧
        WritesPart (ClientAuth.mk signer.verifyingKey signature now) h₂ ∧
        (q = ret (.ok ()) → ∃ reason, ⟨.closed, reason⟩ ∈ h ∧ verdict reason = .ok ()) := by
  rw [handshake] at hp
  rcases hp.run_bind_cases with ⟨p, hp, -, hq⟩ | ⟨_, h₁, h₂, rfl, hp₁, hp₂⟩
  · exact .inl ⟨.inl (written_of_asks hp (asks_transport (asks_call.2 trivial))), hq _⟩
  rw [path_connect hp₁]
  rcases hp₂.run_bind_cases with ⟨p, hp, -, hq⟩ | ⟨_, h₃, h₄, rfl, hp₃, hp₄⟩
  · have hm := written_of_asks hp (asks_transport (asks_call.2 trivial))
    exact .inl ⟨.inl (by simp [eventWrites, hm]), hq _⟩
  rw [path_openBi hp₃]
  rcases hp₄.run_bind_cases with ⟨p, hp, -, hq⟩ | ⟨_, h₅, h₆, rfl, hp₅, hp₆⟩
  · exact .inl ⟨by simpa [WritesPart, eventWrites] using writeMsg_part hp, hq _⟩
  have hw := writeMsg_ok hp₅
  rcases respond_cases hp₆ with ⟨hn, hq⟩ | ⟨h₇, h₈, challenge, now, signature, hr, hver, rfl, hpart, hok⟩
  · refine .inl ⟨.inr ⟨hw.1, ?_⟩, hq⟩
    simp [eventWrites, hw.written_eq, hn]
  · refine .inr ⟨_, h₈, challenge, now, signature, ?_, .mk hw hr hver, hpart, fun he => ?_⟩
    · simp
    · obtain ⟨reason, hmem, hv⟩ := hok he
      exact ⟨reason, by simp [hmem], hv⟩

end Outgoing

/-! ### The two ends of one connection -/

/-- If each end read only what the other wrote, the assertion that the acceptor verified is the one that the initiator
signed for the acceptor's own challenge. -/
theorem AuthProtocol.Verified.agreement {self : AuthProtocol} {remoteId : EndpointId} {nonce : Nonce}
    {auth : ClientAuth} {remoteAddr : EndpointAddr} {signer : InstitutionalSigner} {h h' : Trace Resp} {q : Session}
    (hv : Verified self remoteId h nonce auth)
    (hp : Path (Outgoing.handshake remoteId remoteAddr signer).run h' q) (hin : reads h <+: written h')
    (hout : reads h' <+: written h) :
    ∃ h₁ h₂ challenge signature, h' = h₁ ++ h₂ ∧ challenge.nonce = nonce ∧
      Outgoing.Signed remoteId remoteAddr h₁ challenge auth.clientUnixSecs signature ∧
      auth.verifyingKey = signer.verifyingKey := by
  obtain ⟨institution, hello_read, challenge_written, auth_read, -⟩ := hv
  simp only [reads_append, reads_cons, reads_nil, eventReads, challenge_written.reads_eq, List.nil_append,
    List.append_nil] at hin
  simp only [written_append, written_cons, written_nil, eventWrites, challenge_written.written_eq,
    hello_read.written_eq, auth_read.written_eq, List.nil_append, List.append_nil] at hout
  rcases Outgoing.handshake_cases hp with ⟨hpart, -⟩ | ⟨h₁, h₂, challenge, now, signature, rfl, hs, hpart, -⟩
  · exact absurd (hello_read.eq_of_part hpart hin).2 auth_read.reads_ne_nil
  · have hs' := hs
    obtain ⟨hello_written, challenge_read, -⟩ := hs
    simp only [written_append, written_cons, written_nil, eventWrites, hello_written.written_eq,
      challenge_read.written_eq, List.nil_append, List.append_nil] at hin
    obtain ⟨-, hin⟩ := hello_read.eq_of_frame hello_written.1 hin
    obtain ⟨rfl, -⟩ := auth_read.eq_of_part (x := []) hpart (by simpa using hin)
    simp only [reads_append, reads_cons, reads_nil, eventReads, hello_written.reads_eq, List.nil_append,
      List.append_nil] at hout
    obtain ⟨rfl, -⟩ := challenge_read.eq_of_frame (y := []) challenge_written.1 (by simpa using hout)
    exact ⟨_, h₂, _, signature, rfl, rfl, hs', rfl⟩

end IrohHydeAuth
