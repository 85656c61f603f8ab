import IrohHydeAuth.OneWayTraces
import IrohHydeAuth.MutualTraces
import IrohHydeAuth.Surroundings

/-!
# Close codes

Once it has sent its assertion, an initiator returns what `verdict` makes of the reason for which the connection was
closed.  The code of an application close has 62 bits, of which `verdict` compares the lower 32, so it is faithful
exactly to those reasons whose code is not one of the two codes with other bits set above them (`faithful_iff`).
-/

namespace IrohHydeAuth

open Process Prog Surroundings

/-- The two initiators. -/
inductive Initiator : Session → Prop
  | oneWay (endpointId : EndpointId) (remoteAddr : EndpointAddr) (signer : InstitutionalSigner) :
      Initiator (Outgoing.handshake endpointId remoteAddr signer).run
  | twoWay (endpointId : EndpointId) (remoteAddr : EndpointAddr) (peerId : EndpointId) (signer : InstitutionalSigner)
      (maxSkewSecs : Option UInt64) : Initiator (Mutual.handshake endpointId remoteAddr peerId signer maxSkewSecs).run

namespace ConnectionError

/-- The peer closed the connection with this application code. -/
def ClosedWith (reason : ConnectionError) (code : UInt32) : Prop :=
  ∃ errorCode text, reason = .applicationClosed errorCode text ∧ errorCode.val = code.toNat

/-- The result says of the close code what it is. -/
structure Faithful (reason : ConnectionError) (r : Except Error Unit) : Prop where
  accepted : r = .ok () ↔ reason.ClosedWith CLOSE_ACCEPTED
  denied : (∃ text, r = .error (.denied text)) ↔ reason.ClosedWith CLOSE_DENIED
  other : (∃ text, r = .error (.transport text)) ↔
    ¬ reason.ClosedWith CLOSE_ACCEPTED ∧ ¬ reason.ClosedWith CLOSE_DENIED

/-- No other code stands for one of the two codes once its upper bits are gone. -/
def Unambiguous (reason : ConnectionError) : Prop :=
  ∀ errorCode text, reason = .applicationClosed errorCode text → errorCode.val < 2 ^ 32 ∨
    errorCode.val % 2 ^ 32 ≠ CLOSE_ACCEPTED.toNat ∧ errorCode.val % 2 ^ 32 ≠ CLOSE_DENIED.toNat

private theorem ofNat_eq {n : Nat} {code : UInt32} : UInt32.ofNat n = code ↔ n % 2 ^ 32 = code.toNat := by
  rw [← UInt32.toNat_inj, UInt32.toNat_ofNat']

private theorem closedWith_iff {errorCode : VarInt} {text : String} {code : UInt32} :
    (applicationClosed errorCode text).ClosedWith code ↔ errorCode.val = code.toNat := by
  constructor
  · rintro ⟨_, _, ⟨⟩, he⟩
    exact he
  · exact fun he => ⟨errorCode, text, rfl, he⟩

private theorem unambiguous_iff {errorCode : VarInt} {text : String} :
    (applicationClosed errorCode text).Unambiguous ↔ errorCode.val < 2 ^ 32 ∨
      errorCode.val % 2 ^ 32 ≠ CLOSE_ACCEPTED.toNat ∧ errorCode.val % 2 ^ 32 ≠ CLOSE_DENIED.toNat := by
  constructor
  · exact fun hu => hu errorCode text rfl
  · rintro hu _ _ ⟨⟩
    exact hu

/-- The two codes exclude each other. -/
private theorem closedWith_denied {reason : ConnectionError} (hd : reason.ClosedWith CLOSE_DENIED) :
    ¬ reason.ClosedWith CLOSE_ACCEPTED := by
  have haccepted : CLOSE_ACCEPTED.toNat = 1 := rfl
  have hdenied : CLOSE_DENIED.toNat = 403 := rfl
  obtain ⟨errorCode, text, rfl, he⟩ := hd
  rw [closedWith_iff]
  omega

private theorem faithful_ok {reason : ConnectionError} :
    reason.Faithful (.ok ()) ↔ reason.ClosedWith CLOSE_ACCEPTED := by
  refine ⟨fun hf => hf.accepted.1 rfl, fun ha => ⟨by simp [ha], ?_, by simp [ha]⟩⟩
  simpa using fun hd => closedWith_denied hd ha

private theorem faithful_denied {reason : ConnectionError} {text : String} :
    reason.Faithful (.error (.denied text)) ↔ reason.ClosedWith CLOSE_DENIED := by
  refine ⟨fun hf => hf.denied.1 ⟨text, rfl⟩, fun hd => ⟨?_, by simp [hd], by simp [hd]⟩⟩
  simpa using closedWith_denied hd

private theorem faithful_transport {reason : ConnectionError} {text : String} :
    reason.Faithful (.error (.transport text)) ↔
      ¬ reason.ClosedWith CLOSE_ACCEPTED ∧ ¬ reason.ClosedWith CLOSE_DENIED := by
  refine ⟨fun hf => hf.other.1 ⟨text, rfl⟩, fun ho => ⟨by simp [ho.1], by simp [ho.2], by simp [ho.1, ho.2]⟩⟩

/-- `verdict` is faithful exactly to the reasons that are unambiguous. -/
theorem faithful_verdict (reason : ConnectionError) : reason.Faithful (verdict reason) ↔ reason.Unambiguous := by
  have haccepted : CLOSE_ACCEPTED.toNat = 1 := rfl
  have hdenied : CLOSE_DENIED.toNat = 403 := rfl
  cases reason with
  | other text =>
    have hno : ∀ code, ¬ (other text).ClosedWith code := by
      rintro code ⟨_, _, he, -⟩
      cases he
    refine iff_of_true (faithful_transport.2 ⟨hno _, hno _⟩) ?_
    intro _ _ he
    cases he
  | applicationClosed errorCode text =>
    rw [unambiguous_iff]
    by_cases h1 : errorCode.val % 2 ^ 32 = CLOSE_ACCEPTED.toNat
    · have hv : verdict (applicationClosed errorCode text) = .ok () := by simp [verdict, ofNat_eq.2 h1]
      rw [hv, faithful_ok, closedWith_iff]
      omega
    · have hne : ¬ UInt32.ofNat errorCode.val = CLOSE_ACCEPTED := by rwa [ofNat_eq]
      by_cases h2 : errorCode.val % 2 ^ 32 = CLOSE_DENIED.toNat
      · have hv : verdict (applicationClosed errorCode text) = .error (.denied "rejected by remote acceptor") := by
          simp only [verdict, if_neg hne, if_pos (ofNat_eq.2 h2)]
        rw [hv, faithful_denied, closedWith_iff]
        omega
      · have hne' : ¬ UInt32.ofNat errorCode.val = CLOSE_DENIED := by rwa [ofNat_eq]
        have hv : verdict (applicationClosed errorCode text) =
            .error (.transport (applicationClosed errorCode text).toString) := by
          simp only [verdict, if_neg hne, if_neg hne']
        rw [hv, faithful_transport, closedWith_iff, closedWith_iff]
        omega

end ConnectionError

/-! ### The initiators -/

variable {h : Trace Resp} {q : Session} {reason : ConnectionError}

/-- Both initiators return the verdict on the reason they were given. -/
private theorem path_verdict {α : Type} [Postcard α] {message : UInt64 → Bytes} {assertion : Bytes → UInt64 → α}
    (hp : Path (attest message assertion).run h q) (he : ⟨.closed, reason⟩ ∈ h) : q = ret (verdict reason) := by
  obtain ⟨now, -, h₃, -, he, -, hp⟩ := hp.run_bind_mem he (asks_lift (by simp))
  obtain ⟨signature, -, h₄, -, he, -, hp⟩ := hp.run_bind_mem he (asks_signBlocking (by simp))
  obtain ⟨_, -, h₁, -, he, -, hp⟩ := hp.run_bind_mem he (asks_writeMsg (by simp))
  obtain ⟨_, -, h₂, -, he, -, hp⟩ := hp.run_bind_mem he (asks_transport (asks_call.2 (by simp)))
  rcases Path.ask_inv hp with ⟨rfl, -⟩ | ⟨r, h', rfl, hp'⟩
  · cases he
  · obtain ⟨rfl, rfl⟩ := hp'.ret_inv
    have hr : reason = r := by simpa using he
    rw [hr]

private theorem Outgoing.path_closed {endpointId : EndpointId} {remoteAddr : EndpointAddr}
    {signer : InstitutionalSigner} (hp : Path (Outgoing.handshake endpointId remoteAddr signer).run h q)
    (he : ⟨.closed, reason⟩ ∈ h) : q = ret (verdict reason) := by
  rw [Outgoing.handshake] at hp
  obtain ⟨_, -, h₁, -, he, -, hp⟩ := hp.run_bind_mem he (asks_transport (asks_call.2 (by simp)))
  obtain ⟨_, -, h₂, -, he, -, hp⟩ := hp.run_bind_mem he (asks_transport (asks_call.2 (by simp)))
  obtain ⟨_, -, h₃, -, he, -, hp⟩ := hp.run_bind_mem he (asks_writeMsg (by simp))
  obtain ⟨challenge, -, h₄, -, he, -, hp⟩ := hp.run_bind_mem he (asks_readMsg (by simp))
  rcases path_ite_throw hp with ⟨-, rfl, -⟩ | ⟨-, hp⟩
  · cases he
  · exact path_verdict hp he

private theorem Mutual.path_closed {endpointId peerId : EndpointId} {remoteAddr : EndpointAddr}
    {signer : InstitutionalSigner} {maxSkewSecs : Option UInt64}
    (hp : Path (Mutual.handshake endpointId remoteAddr peerId signer maxSkewSecs).run h q)
    (he : ⟨.closed, reason⟩ ∈ h) : q = ret (verdict reason) := by
  -- the parts that close the connection themselves never wait for the peer to do so
  have hthrow : ∀ {h : Trace Resp} {q : Session} {code : UInt32} {text : Bytes} {e : Error},
      Path (do call (.close code text); throw e : Async Unit).run h q → ⟨.closed, reason⟩ ∉ h := by
    intro h q code text e hp hm
    exact (hp.asks (asks_close_throw (P := fun op => op ≠ .closed) (by simp))).1 _ hm rfl
  rw [Mutual.handshake] at hp
  obtain ⟨_, -, h₁, -, he, -, hp⟩ := hp.run_bind_mem he (asks_transport (asks_call.2 (by simp)))
  obtain ⟨_, -, h₂, -, he, -, hp⟩ := hp.run_bind_mem he (asks_transport (asks_call.2 (by simp)))
  obtain ⟨nonceA, -, h₃, -, he, -, hp⟩ := hp.run_bind_mem he (asks_lift (by simp))
  obtain ⟨_, -, h₄, -, he, -, hp⟩ := hp.run_bind_mem he (asks_writeMsg (by simp))
  obtain ⟨challenge, -, h₅, -, he, -, hp⟩ := hp.run_bind_mem he (asks_readMsg (by simp))
  rw [Mutual.judge] at hp
  split at hp
  · exact absurd he (hthrow hp)
  obtain ⟨fresh, -, h₆, -, he, -, hp⟩ := hp.run_bind_mem he (asks_checkSkewNow (by simp))
  split at hp
  · exact absurd he (hthrow hp)
  obtain ⟨res, -, h₇, -, he, -, hp⟩ := hp.run_bind_mem he (asks_lift (by simp))
  cases res with
  | error e => exact absurd he (hthrow hp)
  | ok institution => exact path_verdict hp he

/-- An initiator that was given the reason for which its connection was closed has returned, and what it returned is
faithful to the reason exactly if that is unambiguous. -/
theorem Initiator.faithful_iff {p : Session} (hi : Initiator p) (hp : Path p h q) (he : ⟨.closed, reason⟩ ∈ h) :
    ∃ r, q = ret r ∧ (reason.Faithful r ↔ reason.Unambiguous) := by
  refine ⟨verdict reason, ?_, reason.faithful_verdict⟩
  cases hi with
  | oneWay endpointId remoteAddr signer => exact Outgoing.path_closed hp he
  | twoWay endpointId remoteAddr peerId signer maxSkewSecs => exact Mutual.path_closed hp he

/-- In surroundings in which nothing fails an initiator that is challenged comes to wait for the verdict. -/
private theorem path_ofStream (endpointId : EndpointId) (remoteAddr : EndpointAddr) (reason : ConnectionError) :
    ∃ h, Path (Outgoing.handshake endpointId remoteAddr ⟨[]⟩).run h (ret (verdict reason)) ∧ ⟨.closed, reason⟩ ∈ h := by
  let challenge := ServerChallenge.mk PROTOCOL_VERSION ⟨List.replicate 32 0, rfl⟩ 0
  let env : Surroundings := { Surroundings.ofStream (frame challenge) with closed := reason }
  have hmax : MAX_MSG = 16384 := rfl
  have hhello := clientHello_fits ⟨PROTOCOL_VERSION⟩
  have hauth := clientAuth_fits (m := ⟨[], [], 0⟩) (by simp)
  have hchallenge := serverChallenge_fits challenge
  have hs₁ : env.Sends (ClientHello.mk PROTOCOL_VERSION) := ⟨by omega, rfl, rfl⟩
  have hs₂ : env.Sends (ClientAuth.mk [] [] 0) := ⟨by omega, rfl, rfl⟩
  have hr₁ : Returns env.answer _ [] _ _ := returns_transport (exec_call (.connect remoteAddr ALPN) rfl)
  have hr₂ : Returns env.answer _ [⟨.connect remoteAddr ALPN, .ok ()⟩] _ _ := returns_transport (exec_call .openBi rfl)
  obtain ⟨h₁, hw₁, hr₃⟩ := hs₁.returns ([⟨.connect remoteAddr ALPN, .ok ()⟩] ++ [⟨.openBi, .ok ()⟩])
  have hb : env.rest ([⟨.connect remoteAddr ALPN, .ok ()⟩] ++ [⟨.openBi, .ok ()⟩] ++ h₁) = frame challenge ++ [] := by
    rw [rest_append_mute hw₁.reads_eq, List.append_nil]
    rfl
  obtain ⟨h₂, hr₄, -⟩ := (hb ▸ framed_frame [] hchallenge (by omega)).returns
  have hr₅ := returns_call env h₂ .unixSecs
  have hr₆ := returns_signBlocking env (h₂ ++ [⟨.unixSecs, 0⟩]) (transcript challenge.nonce endpointId 0)
  obtain ⟨h₃, -, hr₇⟩ := hs₂.returns
    (h₂ ++ [⟨.unixSecs, 0⟩] ++ [⟨.sign (transcript challenge.nonce endpointId 0), .ok []⟩])
  have hr₈ : Returns env.answer _
      (h₂ ++ [⟨.unixSecs, 0⟩] ++ [⟨.sign (transcript challenge.nonce endpointId 0), .ok []⟩] ++ h₃) _ _ :=
    returns_transport (exec_call .finish rfl)
  have hrespond : Returns env.answer (Outgoing.respond endpointId ⟨[]⟩)
      ([⟨.connect remoteAddr ALPN, .ok ()⟩] ++ [⟨.openBi, .ok ()⟩] ++ h₁) (verdict reason)
      (h₂ ++ [⟨.unixSecs, 0⟩] ++ [⟨.sign (transcript challenge.nonce endpointId 0), .ok []⟩] ++ h₃ ++
        [⟨.finish, .ok ()⟩] ++ [⟨.closed, reason⟩]) := by
    refine hr₄.bind ?_
    rw [if_neg (by simp [challenge])]
    exact hr₅.bind (hr₆.bind (hr₇.bind (hr₈.bind rfl)))
  have hrun : Returns env.answer (Outgoing.handshake endpointId remoteAddr ⟨[]⟩) [] (verdict reason) _ :=
    hr₁.bind (hr₂.bind (hr₃.bind hrespond))
  exact ⟨_, hrun.path, by simp⟩

/-- Close code `1`, where there is nothing above the 32 bits. -/
theorem Initiator.faithful_iff_one : ∃ h,
    ⟨.closed, .applicationClosed ⟨1, by decide⟩ "closed by peer: 1"⟩ ∈ h ∧ ∃ r,
      Path (Outgoing.handshake ⟨List.replicate 32 0, rfl⟩ ⟨⟨List.replicate 32 1, rfl⟩, ∅⟩ ⟨[]⟩).run h (ret r) ∧
        (ConnectionError.applicationClosed ⟨1, by decide⟩ "closed by peer: 1").Faithful r := by
  obtain ⟨h, hp, he⟩ := path_ofStream _ _ (.applicationClosed ⟨1, by decide⟩ "closed by peer: 1")
  obtain ⟨r, hr, hf⟩ := Initiator.faithful_iff (.oneWay _ _ _) hp he
  refine ⟨h, he, r, hr ▸ hp, hf.2 ?_⟩
  rintro _ _ ⟨⟩
  exact .inl (by decide)

/-- An application close with the code `2 ^ 32 + 1` is taken for an acceptance. -/
theorem Initiator.accepts_other_code : ∃ h,
    ⟨.closed, .applicationClosed ⟨2 ^ 32 + 1, by decide⟩ "closed by peer: 4294967297"⟩ ∈ h ∧
      Path (Outgoing.handshake ⟨List.replicate 32 0, rfl⟩ ⟨⟨List.replicate 32 1, rfl⟩, ∅⟩ ⟨[]⟩).run h (ret (.ok ())) ∧
        ¬ (ConnectionError.applicationClosed ⟨2 ^ 32 + 1, by decide⟩ "closed by peer: 4294967297").Faithful
          (.ok ()) := by
  obtain ⟨h, hp, he⟩ := path_ofStream _ _ (.applicationClosed ⟨2 ^ 32 + 1, by decide⟩ "closed by peer: 4294967297")
  refine ⟨h, he, hp, fun hf => ?_⟩
  obtain ⟨_, _, ⟨⟩, hcode⟩ := hf.accepted.1 rfl
  exact absurd hcode (by decide)

end IrohHydeAuth
