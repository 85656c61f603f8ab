import IrohHydeAuth.Traces

/-!
# The traces of the mutual handshake

* The acceptor has written nothing, or it has the trace `MutualAuthProtocol.Challenged` behind it and has since
  written nothing but a part of its challenge.  It inserts its remote only after the trace
  `MutualAuthProtocol.Verified`, and closes with `CLOSE_ACCEPTED` only after it has inserted it.
* The initiator has written nothing but a part of its greeting, or it has the trace `Mutual.Signed` behind it, in
  which it verified the acceptor before it signed, and has since written nothing but a part of its response; it
  returns `Ok` only on the close code `CLOSE_ACCEPTED`.
-/

namespace IrohHydeAuth

open Process Prog

variable {h : Trace Resp}

/-! ### The acceptor -/

namespace MutualAuthProtocol

variable {self : MutualAuthProtocol} {remoteId localId : EndpointId} {hello : MutualHello}
  {challenge : MutualChallenge} {response : MutualResponse} {q : Session}

/-- The trace of an acceptor that has signed `challenge` for the greeting it was sent. -/
inductive Challenged (self : MutualAuthProtocol) :
    Trace Resp → EndpointId → MutualHello → MutualChallenge → Prop
  | mk {localId : EndpointId} {hello : MutualHello} {nonceB : Nonce} {timeB : UInt64} {sigB : Bytes}
      {h₁ : Trace Resp} (hello_read : ReadsMsg hello h₁) :
      Challenged self
        ([⟨.localId, some localId⟩, ⟨.acceptBi, .ok ()⟩] ++ h₁ ++
          [⟨.random, nonceB⟩, ⟨.unixSecs, timeB⟩,
            ⟨.sign (mutualTranscript ROLE_ACCEPTOR hello.nonce localId timeB), .ok sigB⟩])
        localId hello ⟨PROTOCOL_VERSION, nonceB, self.signer.verifyingKey, sigB, timeB⟩

theorem Challenged.sign_mem (hc : Challenged self h localId hello challenge) :
    ⟨.sign (mutualTranscript ROLE_ACCEPTOR hello.nonce localId challenge.acceptorUnixSecs), .ok challenge.signature⟩ ∈
      h := by
  obtain ⟨-⟩ := hc
  simp

/-- The trace of an acceptor that has sent its challenge and verified the response. -/
inductive Verified (self : MutualAuthProtocol) (remoteId : EndpointId) :
    Trace Resp → EndpointId → MutualHello → MutualChallenge → MutualResponse → Prop
  | mk {localId : EndpointId} {hello : MutualHello} {challenge : MutualChallenge} {response : MutualResponse}
      {h₁ h₂ h₃ h₄ : Trace Resp} (institution : InstitutionId)
      (challenged : Challenged self h₁ localId hello challenge) (challenge_written : WritesMsg challenge h₂)
      (response_read : ReadsMsg response h₃)
      (fresh : SkewChecked self.maxSkewSecs response.initiatorUnixSecs h₄) :
      Verified self remoteId
        (h₁ ++ h₂ ++ h₃ ++ h₄ ++
          [⟨.verify response.verifyingKey
            (mutualTranscript ROLE_INITIATOR challenge.nonce remoteId response.initiatorUnixSecs)
            response.signature, .ok institution⟩])
        localId hello challenge response

/-- An acceptor has signed nothing and written nothing, or it is behind its signature. -/
private theorem handshake_cases {q : Prog Resp (Except Error EndpointId)}
    (hp : Path (self.handshake remoteId).run h q) :
    (written h = [] ∧ ∀ r, q ≠ ret (.ok r)) ∨
      ∃ h₁ h₂ localId hello challenge, h = h₁ ++ h₂ ∧ Challenged self h₁ localId hello challenge ∧
        Path (self.respond remoteId challenge).run h₂ q := by
  rw [handshake] at hp
  rcases hp.run_bind_cases with ⟨p, hp, -, hq⟩ | ⟨id?, h₁, h₂, rfl, hp₁, hp₂⟩
  · exact .inl ⟨written_of_asks hp (asks_lift trivial), hq⟩
  rw [path_lift hp₁]
  cases id? with
  | none =>
    obtain ⟨rfl, rfl⟩ := hp₂.ret_inv
    exact .inl ⟨rfl, by simp⟩
  | some localId =>
    rcases hp₂.run_bind_cases with ⟨p, hp, -, hq⟩ | ⟨_, h₃, h₄, rfl, hp₃, hp₄⟩
    · have hm := written_of_asks hp (asks_transport (asks_call.2 trivial))
      exact .inl ⟨by simp [eventWrites, hm], hq⟩
    rw [path_acceptBi hp₃]
    rcases hp₄.run_bind_cases with ⟨p, hp, -, hq⟩ | ⟨hello, h₅, h₆, rfl, hp₅, hp₆⟩
    · exact .inl ⟨by simp [eventWrites, written_of_asks hp (asks_readMsg fun _ => trivial)], hq⟩
    have hr := readMsg_ok hp₅
    rcases path_ite_throw hp₆ with ⟨-, rfl, rfl⟩ | ⟨-, hp₆⟩
    · exact .inl ⟨by simp [eventWrites, hr.written_eq], by simp⟩
    rcases hp₆.run_bind_cases with ⟨p, hp, -, hq⟩ | ⟨nonceB, h₇, h₈, rfl, hp₇, hp₈⟩
    · exact .inl ⟨by simp [eventWrites, hr.written_eq, written_of_asks hp (asks_lift trivial)], hq⟩
    rw [path_lift hp₇]
    rcases hp₈.run_bind_cases with ⟨p, hp, -, hq⟩ | ⟨timeB, h₉, h₁₀, rfl, hp₉, hp₁₀⟩
    · exact .inl ⟨by simp [eventWrites, hr.written_eq, written_of_asks hp (asks_lift trivial)], hq⟩
    rw [path_lift hp₉]
    rcases hp₁₀.run_bind_cases with ⟨p, hp, -, hq⟩ | ⟨sigB, h₁₁, h₁₂, rfl, hp₁₁, hp₁₂⟩
    · exact .inl ⟨by simp [eventWrites, hr.written_eq, written_of_asks hp (asks_signBlocking trivial)], hq⟩
    rw [path_signBlocking hp₁₁]
    exact .inr ⟨_, h₁₂, localId, hello, _, by simp, .mk hr, hp₁₂⟩

private theorem path_respond {q : Prog Resp (Except Error EndpointId)}
    (hp : Path (self.respond remoteId challenge).run h q) : WritesPart challenge h := by
  rcases hp.run_bind_cases with ⟨p, hp, -⟩ | ⟨_, h₁, h₂, rfl, hp₁, hp₂⟩
  · exact writeMsg_part hp
  have hmute : written h₂ = [] := by
    refine written_of_asks hp₂ ((asks_readMsg (P := Op.Mute) fun _ => trivial).run_bind fun response => ?_)
    refine (asks_checkSkewNow trivial).run_bind fun fresh => asks_ite trivial ?_
    refine (asks_lift trivial).run_bind fun res => ?_
    cases res with
    | error e => exact trivial
    | ok institution => exact trivial
  simpa [WritesPart, hmute] using writeMsg_part hp₁

private theorem respond_ok {r : EndpointId} {h₀ : Trace Resp} (hc : Challenged self h₀ localId hello challenge)
    (hp : Path (self.respond remoteId challenge).run h (ret (.ok r))) :
    r = remoteId ∧ ∃ response, Verified self remoteId (h₀ ++ h) localId hello challenge response := by
  obtain ⟨_, h₁, h₂, rfl, hp₁, hp₂⟩ := hp.run_bind_ok
  obtain ⟨response, h₃, h₄, rfl, hp₃, hp₄⟩ := hp₂.run_bind_ok
  obtain ⟨fresh, h₅, h₆, rfl, hp₅, hp₆⟩ := hp₄.run_bind_ok
  rcases path_ite_throw hp₆ with ⟨-, -, he⟩ | ⟨hfresh, hp₆⟩
  · cases he
  have hfresh : fresh = true := by simpa using hfresh
  subst hfresh
  obtain ⟨res, h₇, h₈, rfl, hp₇, hp₈⟩ := hp₆.run_bind_ok
  cases res with
  | error e => cases hp₈.ret_inv.2
  | ok institution =>
    obtain ⟨rfl, he⟩ := hp₈.ret_inv
    have hv : Verified self remoteId _ localId hello challenge response :=
      .mk institution hc (writeMsg_ok hp₁) (readMsg_ok hp₃) (path_checkSkewNow hp₅)
    refine ⟨Except.ok.inj (Prog.ret.inj he), response, ?_⟩
    rw [path_lift hp₇]
    simpa using hv

private theorem asks_greet {P : Op → Prop} (hA : P .acceptBi) (hR : ∀ n, P (.readExact n)) (hN : P .random)
    (hT : P .unixSecs) (hS : ∀ nonce time, P (.sign (mutualTranscript ROLE_ACCEPTOR nonce localId time)))
    (hW : ∀ bytes, P (.writeAll bytes))
    (hV : ∀ k nonce time s, P (.verify k (mutualTranscript ROLE_INITIATOR nonce remoteId time) s)) :
    (self.greet remoteId localId).run.Asks P := by
  refine (asks_transport (asks_call.2 hA)).run_bind fun _ => ?_
  refine (asks_readMsg hR).run_bind fun hello => asks_ite trivial ?_
  refine (asks_lift hN).run_bind fun nonceB => (asks_lift hT).run_bind fun timeB => ?_
  refine (asks_signBlocking (hS _ _)).run_bind fun sigB => (asks_writeMsg hW).run_bind fun _ => ?_
  refine (asks_readMsg hR).run_bind fun response => (asks_checkSkewNow hT).run_bind fun fresh => ?_
  refine asks_ite trivial ((asks_lift (hV _ _ _ _)).run_bind fun res => ?_)
  cases res with
  | error e => exact trivial
  | ok institution => exact trivial

theorem asks_handshake {P : Op → Prop} (hL : P .localId) (hA : P .acceptBi) (hR : ∀ n, P (.readExact n))
    (hN : P .random) (hT : P .unixSecs) (hS : ∀ message, P (.sign message)) (hW : ∀ bytes, P (.writeAll bytes))
    (hV : ∀ k nonce time s, P (.verify k (mutualTranscript ROLE_INITIATOR nonce remoteId time) s)) :
    (self.handshake remoteId).run.Asks P := by
  rw [handshake]
  refine (asks_lift hL).run_bind fun id? => ?_
  cases id? with
  | none => exact trivial
  | some localId => exact asks_greet hA hR hN hT (fun _ _ => hS _) hW hV

theorem accept_eq : self.accept remoteId = (self.handshake remoteId).run >>= conclude id := rfl

theorem asks_accept {P : Op → Prop} (hL : P .localId) (hA : P .acceptBi) (hR : ∀ n, P (.readExact n))
    (hN : P .random) (hT : P .unixSecs) (hS : ∀ message, P (.sign message)) (hW : ∀ bytes, P (.writeAll bytes))
    (hV : ∀ k nonce time s, P (.verify k (mutualTranscript ROLE_INITIATOR nonce remoteId time) s))
    (hI : ∀ y, P (.insert y)) (hC : ∀ code reason, P (.close code reason)) : (self.accept remoteId).Asks P := by
  rw [accept_eq]
  exact (asks_handshake hL hA hR hN hT hS hW hV).bind (asks_conclude hI hC)

theorem handshake_ok {r : EndpointId} (hp : Path (self.handshake remoteId).run h (ret (.ok r))) :
    r = remoteId ∧ ∃ localId hello challenge response,
      Verified self remoteId h localId hello challenge response := by
  rcases handshake_cases hp with ⟨-, hq⟩ | ⟨h₁, h₂, localId, hello, challenge, rfl, hc, hp₂⟩
  · exact absurd rfl (hq r)
  · obtain ⟨hr, response, hv⟩ := respond_ok hc hp₂
    exact ⟨hr, localId, hello, challenge, response, hv⟩

/-- An acceptor inserts only its remote, and only once it has verified it. -/
theorem insert_accept {y : EndpointId} (hp : Path (self.accept remoteId) h q) (he : ⟨.insert y, ()⟩ ∈ h) :
    y = remoteId ∧ ∃ h₁ h₂ localId hello challenge response, h = h₁ ++ h₂ ∧
      Verified self remoteId h₁ localId hello challenge response ∧ reads h₂ = [] ∧ written h₂ = [] := by
  rw [accept_eq] at hp
  have hx : (self.handshake remoteId).run.Asks fun op => ∀ y, op ≠ .insert y := by
    apply asks_handshake <;> simp
  obtain ⟨b, h₁, h₂, rfl, hp₁, rfl, hr, hw⟩ := conclude_insert hx hp he
  obtain ⟨rfl, localId, hello, challenge, response, hv⟩ := handshake_ok hp₁
  exact ⟨rfl, h₁, h₂, localId, hello, challenge, response, rfl, hv, hr, hw⟩

theorem close_accept {code : UInt32} {reason : Bytes} (hp : Path (self.accept remoteId) h q)
    (he : ⟨.close code reason, ()⟩ ∈ h) :
    code = CLOSE_DENIED ∨ code = CLOSE_ACCEPTED ∧ ⟨.insert remoteId, ()⟩ ∈ h := by
  have hp' := hp
  rw [accept_eq] at hp
  have hx : (self.handshake remoteId).run.Asks fun op => ∀ code reason, op ≠ .close code reason := by
    apply asks_handshake <;> simp
  refine (conclude_close hx hp he).imp_right fun ⟨hc, b, hm⟩ => ⟨hc, ?_⟩
  obtain ⟨rfl, -⟩ := insert_accept hp' hm
  exact hm

/-- An acceptor has written nothing, or has signed its challenge and written nothing but a part of it. -/
theorem accept_cases (hp : Path (self.accept remoteId) h q) :
    written h = [] ∨ ∃ h₁ h₂ localId hello challenge, h = h₁ ++ h₂ ∧
      Challenged self h₁ localId hello challenge ∧ WritesPart challenge h₂ := by
  have hhs : ∀ {h p}, Path (self.handshake remoteId).run h p → written h = [] ∨
      ∃ h₁ h₂ localId hello challenge, h = h₁ ++ h₂ ∧ Challenged self h₁ localId hello challenge ∧
        WritesPart challenge h₂ := by
    intro h p hp
    rcases handshake_cases hp with ⟨hw, -⟩ | ⟨h₁, h₂, localId, hello, challenge, rfl, hc, hp₂⟩
    · exact .inl hw
    · exact .inr ⟨h₁, h₂, localId, hello, challenge, rfl, hc, path_respond hp₂⟩
  rw [accept_eq] at hp
  rcases Path.bind_cases hp with ⟨p, hp, -⟩ | ⟨r, h₁, h₂, rfl, hp₁, hp₂⟩
  · exact hhs hp
  have hmute : written h₂ = [] := written_of_asks hp₂ (asks_conclude (by simp [Op.Mute]) (by simp [Op.Mute]) r)
  rcases hhs hp₁ with hw | ⟨h₃, h₄, localId, hello, challenge, rfl, hc, hw⟩
  · exact .inl (by simp [hw, hmute])
  · exact .inr ⟨h₃, h₄ ++ h₂, localId, hello, challenge, by simp, hc, by simpa [WritesPart, hmute] using hw⟩

/-- An acceptor signs only in its own role and for its own id. -/
theorem sign_accept {message : Bytes} {r : Except Error Bytes} (hp : Path (self.accept remoteId) h q)
    (he : ⟨.sign message, r⟩ ∈ h) :
    ∃ localId nonce time, ⟨.localId, some localId⟩ ∈ h ∧
      message = mutualTranscript ROLE_ACCEPTOR nonce localId time := by
  have hhs : ∀ {h p}, Path (self.handshake remoteId).run h p → ⟨.sign message, r⟩ ∈ h →
      ∃ localId nonce time, ⟨.localId, some localId⟩ ∈ h ∧
        message = mutualTranscript ROLE_ACCEPTOR nonce localId time := by
    intro h p hp he
    rw [handshake] at hp
    obtain ⟨id?, h₁, h₂, rfl, he, hp₁, hp₂⟩ := hp.run_bind_mem he (asks_lift (by simp))
    rw [path_lift hp₁]
    cases id? with
    | none =>
      rw [hp₂.ret_inv.1] at he
      cases he
    | some localId =>
      have hasks : (self.greet remoteId localId).run.Asks fun op => ∀ m, op = .sign m →
          ∃ nonce time, m = mutualTranscript ROLE_ACCEPTOR nonce localId time := by
        refine asks_greet nofun nofun nofun nofun ?_ nofun nofun
        rintro nonce time _ ⟨⟩
        exact ⟨nonce, time, rfl⟩
      obtain ⟨nonce, time, hm⟩ := (hp₂.asks hasks).1 _ he message rfl
      exact ⟨localId, nonce, time, by simp, hm⟩
  rw [accept_eq] at hp
  rcases Path.bind_cases hp with ⟨p, hp, -⟩ | ⟨b, h₁, h₂, rfl, hp₁, hp₂⟩
  · exact hhs hp he
  rcases List.mem_append.1 he with he | he
  · obtain ⟨localId, nonce, time, hl, hm⟩ := hhs hp₁ he
    exact ⟨localId, nonce, time, List.mem_append_left _ hl, hm⟩
  · have hasks : (conclude id b).Asks fun op => op ≠ .sign message := asks_conclude (by simp) (by simp) b
    exact absurd rfl ((hp₂.asks hasks).1 _ he)

end MutualAuthProtocol

/-! ### The initiator -/

namespace Mutual

variable {endpointId peerId : EndpointId} {remoteAddr : EndpointAddr} {signer : InstitutionalSigner}
  {maxSkewSecs : Option UInt64} {q : Session}

/-- The trace of an initiator that has verified the challenge it was sent and signed for it. -/
inductive Signed (endpointId : EndpointId) (remoteAddr : EndpointAddr) (peerId : EndpointId)
    (maxSkewSecs : Option UInt64) : Trace Resp → Nonce → MutualChallenge → UInt64 → Bytes → Prop
  | mk {nonceA : Nonce} {challenge : MutualChallenge} {timeA : UInt64} {sigA : Bytes} {h₁ h₂ h₃ : Trace Resp}
      (institution : InstitutionId) (hello_written : WritesMsg (MutualHello.mk PROTOCOL_VERSION nonceA) h₁)
      (challenge_read : ReadsMsg challenge h₂) (version : challenge.version = PROTOCOL_VERSION)
      (fresh : SkewChecked maxSkewSecs challenge.acceptorUnixSecs h₃) :
      Signed endpointId remoteAddr peerId maxSkewSecs
        ([⟨.connect remoteAddr MUTUAL_ALPN, .ok ()⟩, ⟨.openBi, .ok ()⟩, ⟨.random, nonceA⟩] ++ h₁ ++ h₂ ++ h₃ ++
          [⟨.verify challenge.verifyingKey
              (mutualTranscript ROLE_ACCEPTOR nonceA peerId challenge.acceptorUnixSecs) challenge.signature,
              .ok institution⟩,
            ⟨.unixSecs, timeA⟩,
            ⟨.sign (mutualTranscript ROLE_INITIATOR challenge.nonce endpointId timeA), .ok sigA⟩])
        nonceA challenge timeA sigA

section Signed

variable {nonceA : Nonce} {challenge : MutualChallenge} {timeA : UInt64} {sigA : Bytes}

theorem Signed.connect_mem (hs : Signed endpointId remoteAddr peerId maxSkewSecs h nonceA challenge timeA sigA) :
    ⟨.connect remoteAddr MUTUAL_ALPN, .ok ()⟩ ∈ h := by
  obtain ⟨institution, -⟩ := hs
  simp

theorem Signed.sign_mem (hs : Signed endpointId remoteAddr peerId maxSkewSecs h nonceA challenge timeA sigA) :
    ⟨.sign (mutualTranscript ROLE_INITIATOR challenge.nonce endpointId timeA), .ok sigA⟩ ∈ h := by
  obtain ⟨institution, -⟩ := hs
  simp

end Signed

theorem asks_handshake {P : Op → Prop} (hC : P (.connect remoteAddr MUTUAL_ALPN)) (hO : P .openBi)
    (hN : P .random) (hW : ∀ bytes, P (.writeAll bytes)) (hR : ∀ n, P (.readExact n))
    (hX : ∀ reason, P (.close CLOSE_DENIED reason)) (hT : P .unixSecs) (hV : ∀ k m s, P (.verify k m s))
    (hS : ∀ nonce time, P (.sign (mutualTranscript ROLE_INITIATOR nonce endpointId time))) (hF : P .finish)
    (hD : P .closed) : (handshake endpointId remoteAddr peerId signer maxSkewSecs).run.Asks P := by
  refine (asks_transport (asks_call.2 hC)).run_bind fun _ => (asks_transport (asks_call.2 hO)).run_bind fun _ => ?_
  refine (asks_lift hN).run_bind fun nonceA => (asks_writeMsg hW).run_bind fun _ => ?_
  refine (asks_readMsg hR).run_bind fun challenge => asks_ite (asks_close_throw (hX _)) ?_
  refine (asks_checkSkewNow hT).run_bind fun fresh => asks_ite (asks_close_throw (hX _)) ?_
  refine (asks_lift (hV _ _ _)).run_bind fun res => ?_
  cases res with
  | error e => exact asks_close_throw (hX _)
  | ok institution => exact asks_attest hT (fun _ => hS _ _) hW hF hD

/-- Behind its greeting an initiator has written nothing, or it has signed for the challenge that it verified. -/
private theorem respond_cases {nonceA : Nonce}
    (hp : Path (respond endpointId peerId signer maxSkewSecs nonceA).run h q) :
    (written h = [] ∧ q ≠ ret (.ok ())) ∨
      ∃ (h₁ h₂ h₃ : Trace Resp) (challenge : MutualChallenge) (institution : InstitutionId) (timeA : UInt64)
        (sigA : Bytes), ReadsMsg challenge h₁ ∧ challenge.version = PROTOCOL_VERSION ∧
        SkewChecked maxSkewSecs challenge.acceptorUnixSecs h₂ ∧
        h = h₁ ++ h₂ ++ [⟨.verify challenge.verifyingKey (mutualTranscript ROLE_ACCEPTOR nonceA peerId
          challenge.acceptorUnixSecs) challenge.signature, .ok institution⟩, ⟨.unixSecs, timeA⟩,
          ⟨.sign (mutualTranscript ROLE_INITIATOR challenge.nonce endpointId timeA), .ok sigA⟩] ++ h₃ ∧
        WritesPart (MutualResponse.mk signer.verifyingKey sigA timeA) h₃ ∧
        (q = ret (.ok ()) → ∃ reason, ⟨.closed, reason⟩ ∈ h₃ ∧ verdict reason = .ok ()) := by
  rcases hp.run_bind_cases with ⟨p, hp, -, hq⟩ | ⟨challenge, h₁, h₂, rfl, hp₁, hp₂⟩
  · exact .inl ⟨written_of_asks hp (asks_readMsg fun _ => trivial), hq _⟩
  have hr := readMsg_ok hp₁
  rw [judge] at hp₂
  split at hp₂
  · obtain ⟨hn, hq⟩ := path_close_throw hp₂
    exact .inl ⟨by simp [hr.written_eq, hn], hq _⟩
  rename_i hver
  rcases hp₂.run_bind_cases with ⟨p, hp, -, hq⟩ | ⟨fresh, h₃, h₄, rfl, hp₃, hp₄⟩
  · have hm := written_of_asks hp (asks_checkSkewNow trivial)
    exact .inl ⟨by simp [hr.written_eq, hm], hq _⟩
  have hm₃ := written_of_asks hp₃ (asks_checkSkewNow trivial)
  split at hp₄
  · obtain ⟨hn, hq⟩ := path_close_throw hp₄
    exact .inl ⟨by simp [hr.written_eq, hm₃, hn], hq _⟩
  rename_i hfresh
  have hfresh : fresh = true := by simpa using hfresh
  subst hfresh
  have hs := path_checkSkewNow hp₃
  rcases hp₄.run_bind_cases with ⟨p, hp, -, hq⟩ | ⟨res, h₅, h₆, rfl, hp₅, hp₆⟩
  · have hm := written_of_asks hp (asks_lift trivial)
    exact .inl ⟨by simp [hr.written_eq, hm₃, hm], hq _⟩
  rw [path_lift hp₅]
  cases res with
  | error e =>
    obtain ⟨hn, hq⟩ := path_close_throw hp₆
    exact .inl ⟨by simp [hr.written_eq, hm₃, eventWrites, hn], hq _⟩
  | ok institution =>
    rcases path_attest hp₆ with ⟨hm, hq⟩ | ⟨timeA, sigA, h₇, rfl, hpart, hok⟩
    · exact .inl ⟨by simp [hr.written_eq, hm₃, eventWrites, hm], hq⟩
    · exact .inr ⟨h₁, h₃, h₇, challenge, institution, timeA, sigA, hr, not_not.1 hver, hs, by simp, hpart, hok⟩

/-- How far an initiator is. -/
theorem handshake_cases (hp : Path (handshake endpointId remoteAddr peerId signer maxSkewSecs).run h q) :
    ((∃ hello : MutualHello, WritesPart hello h) ∧ q ≠ ret (.ok ())) ∨
      ∃ h₁ h₂ nonceA challenge timeA sigA, h = h₁ ++ h₂ ∧
        Signed endpointId remoteAddr peerId maxSkewSecs h₁ nonceA challenge timeA sigA ∧
        WritesPart (MutualResponse.mk signer.verifyingKey sigA timeA) h₂ ∧
        (q = ret (.ok ()) → ∃ reason, ⟨.closed, reason⟩ ∈ h ∧ verdict reason = .ok ()) := by
  have none_written : ∀ {h' : Trace Resp}, written h' = [] → ∃ hello : MutualHello, WritesPart hello h' :=
    fun hn => ⟨⟨PROTOCOL_VERSION, ⟨List.replicate 32 0, rfl⟩⟩, .inl hn⟩
  rw [handshake] at hp
  rcases hp.run_bind_cases with ⟨p, hp, -, hq⟩ | ⟨_, h₁, h₂, rfl, hp₁, hp₂⟩
  · exact .inl ⟨none_written (written_of_asks hp (asks_transport (asks_call.2 trivial))), hq _⟩
  rw [path_connect hp₁]
  rcases hp₂.run_bind_cases with ⟨p, hp, -, hq⟩ | ⟨_, h₃, h₄, rfl, hp₃, hp₄⟩
  · have hm := written_of_asks hp (asks_transport (asks_call.2 trivial))
    exact .inl ⟨none_written (by simp [eventWrites, hm]), hq _⟩
  rw [path_openBi hp₃]
  rcases hp₄.run_bind_cases with ⟨p, hp, -, hq⟩ | ⟨nonceA, h₅, h₆, rfl, hp₅, hp₆⟩
  · have hm := written_of_asks hp (asks_lift trivial)
    exact .inl ⟨none_written (by simp [eventWrites, hm]), hq _⟩
  rw [path_lift hp₅]
  rcases hp₆.run_bind_cases with ⟨p, hp, -, hq⟩ | ⟨_, h₇, h₈, rfl, hp₇, hp₈⟩
  · exact .inl ⟨⟨_, by simpa [WritesPart, eventWrites] using writeMsg_part hp⟩, hq _⟩
  have hw := writeMsg_ok hp₇
  rcases respond_cases hp₈ with ⟨hn, hq⟩ |
    ⟨h₉, h₁₀, h₁₁, challenge, institution, timeA, sigA, hr, hver, hs, rfl, hpart, hok⟩
  · refine .inl ⟨⟨_, .inr ⟨hw.1, ?_⟩⟩, hq⟩
    simp [eventWrites, hw.written_eq, hn]
  · refine .inr ⟨_, h₁₁, nonceA, challenge, timeA, sigA, ?_, .mk institution hw hr hver hs, hpart, fun he => ?_⟩
    · simp
    · obtain ⟨reason, hmem, hv⟩ := hok he
      exact ⟨reason, by simp [hmem], hv⟩

/-- A trace runs through one signature only. -/
theorem Signed.unique {nonceA nonceA' : Nonce} {challenge challenge' : MutualChallenge} {timeA timeA' : UInt64}
    {sigA sigA' : Bytes} {h₁ h₂ h₁' h₂' : Trace Resp}
    (hs : Signed endpointId remoteAddr peerId maxSkewSecs h₁ nonceA challenge timeA sigA)
    (hs' : Signed endpointId remoteAddr peerId maxSkewSecs h₁' nonceA' challenge' timeA' sigA')
    (h : h₁ ++ h₂ = h₁' ++ h₂') : nonceA = nonceA' ∧ challenge = challenge' ∧ timeA = timeA' := by
  obtain ⟨institution, ⟨-, rfl⟩, ⟨lenBuf, buf, rfl, hdec⟩, -, fresh⟩ := hs
  obtain ⟨institution', ⟨-, rfl⟩, ⟨lenBuf', buf', rfl, hdec'⟩, -, fresh'⟩ := hs'
  have hread : nonceA = nonceA' ∧ lenBuf = lenBuf' ∧ HEq buf buf' ∧ timeA = timeA' := by
    cases fresh with
    | unchecked =>
      cases fresh'
      simp at h
      obtain ⟨hn, -, -, hl, ⟨-, hb⟩, -, ht, -⟩ := h
      subst hl
      exact ⟨hn, rfl, heq_of_eq (Except.ok.inj (eq_of_heq hb)), ht⟩
    | checked =>
      cases fresh'
      simp at h
      obtain ⟨hn, -, -, hl, ⟨-, hb⟩, -, -, ht, -⟩ := h
      subst hl
      exact ⟨hn, rfl, heq_of_eq (Except.ok.inj (eq_of_heq hb)), ht⟩
  obtain ⟨hn, rfl, hb, ht⟩ := hread
  rw [eq_of_heq hb, hdec'] at hdec
  exact ⟨hn, (Except.ok.inj hdec).symm, ht⟩

end Mutual

/-! ### The two ends of one connection -/

section Agreement

variable {self : MutualAuthProtocol} {remoteId localId peerId : EndpointId} {hello : MutualHello}
  {challenge : MutualChallenge} {response : MutualResponse} {remoteAddr : EndpointAddr} {signer : InstitutionalSigner}
  {maxSkewSecs : Option UInt64} {h' : Trace Resp} {q : Session}

private theorem MutualAuthProtocol.Challenged.reads_written (hc : Challenged self h localId hello challenge) :
    written h = [] ∧ ∃ h₁, ReadsMsg hello h₁ ∧ reads h = reads h₁ := by
  obtain ⟨hello_read⟩ := hc
  exact ⟨by simp [eventWrites, hello_read.written_eq], _, hello_read, by simp [eventReads]⟩

private theorem Mutual.Signed.reads_written {nonceA : Nonce} {timeA : UInt64} {sigA : Bytes}
    (hs : Signed remoteId remoteAddr peerId maxSkewSecs h nonceA challenge timeA sigA) :
    written h = frame (MutualHello.mk PROTOCOL_VERSION nonceA) ∧
      (Postcard.encode (MutualHello.mk PROTOCOL_VERSION nonceA)).length < 2 ^ 32 ∧
      ∃ h₁, ReadsMsg challenge h₁ ∧ reads h = reads h₁ := by
  obtain ⟨institution, hello_written, challenge_read, -, fresh⟩ := hs
  refine ⟨?_, hello_written.1, _, challenge_read, ?_⟩
  · simp [eventWrites, hello_written.written_eq, challenge_read.written_eq, fresh.written_eq]
  · simp [eventReads, hello_written.reads_eq, fresh.reads_eq]

/-- If each end read only what the other wrote, the response that the acceptor verified is the one that the initiator
signed for the acceptor's own challenge. -/
theorem MutualAuthProtocol.Verified.agreement (hv : Verified self remoteId h localId hello challenge response)
    (hp : Path (Mutual.handshake remoteId remoteAddr peerId signer maxSkewSecs).run h' q)
    (hin : reads h <+: written h') (hout : reads h' <+: written h) :
    ∃ h₁ h₂ nonceA sigA, h' = h₁ ++ h₂ ∧ hello = ⟨PROTOCOL_VERSION, nonceA⟩ ∧
      Mutual.Signed remoteId remoteAddr peerId maxSkewSecs h₁ nonceA challenge response.initiatorUnixSecs sigA ∧
      response.verifyingKey = signer.verifyingKey := by
  obtain ⟨institution, challenged, challenge_written, response_read, fresh⟩ := hv
  obtain ⟨hw, h₁, hello_read, hr⟩ := challenged.reads_written
  simp only [reads_append, reads_cons, reads_nil, eventReads, hr, challenge_written.reads_eq, fresh.reads_eq,
    List.append_nil] at hin
  simp only [written_append, written_cons, written_nil, eventWrites, hw, challenge_written.written_eq,
    response_read.written_eq, fresh.written_eq, List.nil_append, List.append_nil] at hout
  rcases Mutual.handshake_cases hp with ⟨⟨m, hpart⟩, -⟩ | ⟨h₂, h₃, nonceA, challenge', timeA, sigA, rfl, hs, hpart, -⟩
  · exact absurd (hello_read.eq_of_part hpart hin).2 response_read.reads_ne_nil
  · obtain ⟨hw', hlen, h₄, challenge_read, hr'⟩ := hs.reads_written
    rw [written_append, hw'] at hin
    obtain ⟨rfl, hin⟩ := hello_read.eq_of_frame hlen hin
    obtain ⟨rfl, -⟩ := response_read.eq_of_part (x := []) hpart (by simpa using hin)
    rw [reads_append, hr'] at hout
    obtain ⟨rfl, -⟩ := challenge_read.eq_of_frame (y := []) challenge_written.1 (by simpa using hout)
    exact ⟨h₂, h₃, nonceA, sigA, rfl, rfl, hs, rfl⟩

/-- If each end read only what the other wrote, the challenge that the initiator verified is the one that the acceptor
signed for the initiator's own greeting. -/
theorem Mutual.Signed.agreement {nonceA : Nonce} {timeA : UInt64} {sigA : Bytes} {h₁ h₂ : Trace Resp}
    (hs : Signed remoteId remoteAddr peerId maxSkewSecs h₁ nonceA challenge timeA sigA)
    (hp : Path (self.accept remoteId) h q) (hin : reads (h₁ ++ h₂) <+: written h)
    (hout : reads h <+: written (h₁ ++ h₂)) :
    ∃ h₃ h₄ localId, h = h₃ ++ h₄ ∧
      MutualAuthProtocol.Challenged self h₃ localId ⟨PROTOCOL_VERSION, nonceA⟩ challenge := by
  obtain ⟨hw, hlen, h₅, challenge_read, hr⟩ := hs.reads_written
  rw [reads_append, hr] at hin
  rw [written_append, hw] at hout
  rcases MutualAuthProtocol.accept_cases hp with hn | ⟨h₃, h₄, localId, hello, challenge', rfl, hc, hpart'⟩
  · rw [hn, List.prefix_nil, List.append_eq_nil_iff] at hin
    exact absurd hin.1 challenge_read.reads_ne_nil
  · obtain ⟨hw', h₆, hello_read, hr'⟩ := hc.reads_written
    rw [written_append, hw', List.nil_append] at hin
    obtain ⟨rfl, -⟩ := challenge_read.eq_of_part hpart' hin
    rw [reads_append, hr'] at hout
    obtain ⟨rfl, -⟩ := hello_read.eq_of_frame hlen hout
    exact ⟨h₃, h₄, localId, rfl, hc⟩

end Agreement

end IrohHydeAuth
