import IrohHydeAuth.OneWayTraces
import IrohHydeAuth.MutualTraces
import IrohHydeAuth.Surroundings

/-!
# When the initiators succeed, and what they sign

An initiator against a peer that sends any bytes at all, stops at any point and closes with any code.  The surroundings
determine what it returns, the messages that it has signed and whether it has closed the connection itself.

* `Outgoing.one_way_initiates_iff`: the one-directional initiator signs once, for the nonce it was sent, exactly if it
  was sent a challenge of the right version.
* `Mutual.mutual_initiates_iff`: the mutual initiator signs once exactly if the challenge is fresh and proves an
  institution that it trusts; every other challenge it denies without a signature.
-/

namespace IrohHydeAuth

open Process Prog Surroundings

/-- The messages for which a trace asked for a signature. -/
def signings (h : Trace Resp) : List Bytes :=
  h.filterMap fun
    | ⟨.sign message, _⟩ => some message
    | _ => none

@[simp] theorem signings_append (h h' : Trace Resp) : signings (h ++ h') = signings h ++ signings h' :=
  List.filterMap_append

/-- The peer has closed the connection with a code whose lower 32 bits are those of an acceptance. -/
def ConnectionError.Accepts (reason : ConnectionError) : Prop :=
  ∃ errorCode text, reason = .applicationClosed errorCode text ∧ errorCode.val % 2 ^ 32 = CLOSE_ACCEPTED.toNat

theorem verdict_ok_iff (reason : ConnectionError) : verdict reason = .ok () ↔ reason.Accepts := by
  cases reason with
  | other text =>
    refine iff_of_false nofun ?_
    rintro ⟨_, _, he, -⟩
    cases he
  | applicationClosed errorCode text =>
    have hcode : UInt32.ofNat errorCode.val = CLOSE_ACCEPTED ↔ errorCode.val % 2 ^ 32 = CLOSE_ACCEPTED.toNat := by
      rw [← UInt32.toNat_inj, UInt32.toNat_ofNat']
    simp only [verdict]
    constructor
    · intro hv
      by_cases hc : UInt32.ofNat errorCode.val = CLOSE_ACCEPTED
      · exact ⟨errorCode, text, rfl, hcode.1 hc⟩
      · rw [if_neg hc] at hv
        split at hv
        · cases hv
        · cases hv
    · rintro ⟨_, _, ⟨⟩, hm⟩
      rw [if_pos (hcode.2 hm)]

/-! ### The parts of an initiator -/

section Parts

variable {env : Surroundings} {h h' : Trace Resp} {α β : Type} [Postcard α] [Postcard β] {m : α} {c : β}

/-- The operations that neither sign nor close. -/
def Op.Quiet : Op → Prop
  | .sign _ => False
  | .close _ _ => False
  | _ => True

/-- A part that returns has run along a path. -/
theorem path_of_returns {γ : Type} {x : Async γ} {r : Except Error γ} (hr : Returns env.answer x h r h') :
    ∃ h₁, h' = h ++ h₁ ∧ Path x.run h₁ (ret r) := by
  have hpath : ∃ h₁, (x.run.exec env.answer h).2 = h ++ h₁ ∧ Path x.run h₁ (ret (x.run.exec env.answer h).1) :=
    path_exec
  obtain ⟨h₁, he, hp⟩ := hpath
  rw [show x.run.exec env.answer h = (r, h') from hr] at he hp
  exact ⟨h₁, he, hp⟩

theorem quiet_of_returns {γ : Type} {x : Async γ} {r : Except Error γ} (hr : Returns env.answer x h r h')
    (hx : x.run.Asks Op.Quiet) : signings h' = signings h ∧ closeCodes h' = closeCodes h := by
  obtain ⟨h₁, rfl, hp⟩ := path_of_returns hr
  have hquiet := (hp.asks hx).1
  have hnil : signings h₁ = [] ∧ closeCodes h₁ = [] := by
    simp only [signings, closeCodes, List.filterMap_eq_nil_iff]
    refine ⟨?_, ?_⟩
    · rintro ⟨op, r⟩ hm
      cases op with
      | sign message => exact (hquiet _ hm).elim
      | _ => rfl
    · rintro ⟨op, r⟩ hm
      cases op with
      | close code reason => exact (hquiet _ hm).elim
      | _ => rfl
  rw [signings_append, closeCodes_append, hnil.1, hnil.2, List.append_nil, List.append_nil]
  exact ⟨rfl, rfl⟩

/-- A sequence fails with its first part or goes on behind it. -/
theorem returns_bind_cases {γ δ : Type} {x : Async γ} {f : γ → Async δ} {r : Except Error δ}
    (hr : Returns env.answer (x >>= f) h r h') :
    (∃ e, r = .error e ∧ Returns env.answer x h (.error e) h') ∨
      ∃ a h₁, Returns env.answer x h (.ok a) h₁ ∧ Returns env.answer (f a) h₁ r h' := by
  rcases hx : x.run.exec env.answer h with ⟨rx, h₁⟩
  cases rx with
  | error e =>
    obtain ⟨rfl, rfl⟩ := Prod.mk.inj (hr.symm.trans (Returns.bind_error hx))
    exact .inl ⟨e, rfl, hx⟩
  | ok a => exact .inr ⟨a, h₁, hx, (Returns.bind hx rfl).symm.trans hr⟩

/-- Connect and open a stream. -/
def dial (remoteAddr : EndpointAddr) (alpn : Bytes) : Async Unit := do
  transport (call (.connect remoteAddr alpn))
  transport (call .openBi)

/-- Send a message and read the one that answers it. -/
def exchange (m : α) : Async β := do
  writeMsg m
  readMsg MAX_MSG

theorem asks_dial {remoteAddr : EndpointAddr} {alpn : Bytes} : (dial remoteAddr alpn).run.Asks Op.Quiet :=
  (asks_transport (asks_call.2 trivial)).run_bind fun _ => asks_transport (asks_call.2 trivial)

theorem asks_exchange : (exchange m : Async β).run.Asks Op.Quiet :=
  (asks_writeMsg fun _ => trivial).run_bind fun _ => asks_readMsg fun _ => trivial

/-- What the surroundings of a session that has done `h` let it dial. -/
theorem dial_ok_iff (remoteAddr : EndpointAddr) (alpn : Bytes) :
    (∃ h', Returns env.answer (dial remoteAddr alpn) h (.ok ()) h') ↔ env.connect = .ok () ∧ env.openBi = .ok () := by
  constructor
  · rintro ⟨h', hr⟩
    obtain ⟨_, h₁, hr₁, hr₂⟩ := hr.bind_ok
    exact ⟨congrArg Prod.fst (returns_transport_ok hr₁), congrArg Prod.fst (returns_transport_ok hr₂)⟩
  · rintro ⟨hc, ho⟩
    exact ⟨_, (returns_transport (exec_call (.connect remoteAddr alpn) hc)).bind
      (returns_transport (exec_call .openBi ho))⟩

theorem dial_ok {remoteAddr : EndpointAddr} {alpn : Bytes}
    (hr : Returns env.answer (dial remoteAddr alpn) h (.ok ()) h') :
    h'.length = h.length + 2 ∧ env.rest h' = env.rest h := by
  obtain ⟨h₁, rfl, hp⟩ := path_of_returns hr
  obtain ⟨_, h₂, h₃, rfl, hp₂, hp₃⟩ := hp.run_bind_ok
  rw [path_connect hp₂, path_openBi hp₃]
  exact ⟨by simp, rest_append_mute rfl⟩

theorem exchange_ok_iff (h : Trace Resp) : (∃ h', Returns env.answer (exchange m) h (.ok c) h') ↔
    env.Sends m ∧ ∃ rest, Framed MAX_MSG c (env.rest h) rest := by
  constructor
  · rintro ⟨h', hr⟩
    obtain ⟨_, h₁, hr₁, hr₂⟩ := hr.bind_ok
    obtain ⟨hs, h₂, hw, rfl⟩ := sends_of_returns hr₁
    have hf := (framed_of_returns hr₂).1
    rw [rest_append_mute hw.reads_eq] at hf
    exact ⟨hs, _, hf⟩
  · rintro ⟨hs, rest, hf⟩
    obtain ⟨h₁, hw, hr₁⟩ := hs.returns h
    have hrest : env.rest (h ++ h₁) = env.rest h := rest_append_mute hw.reads_eq
    rw [← hrest] at hf
    obtain ⟨h₂, hr₂, -⟩ := hf.returns
    exact ⟨h₂, hr₁.bind hr₂⟩

theorem exchange_length (hr : Returns env.answer (exchange m) h (.ok c) h') : h'.length = h.length + 4 := by
  obtain ⟨_, h₁, hr₁, hr₂⟩ := hr.bind_ok
  obtain ⟨-, h₂, hw, rfl⟩ := sends_of_returns hr₁
  rw [(framed_of_returns hr₂).2, List.length_append, hw.length_eq]

theorem settle_ok_iff (h : Trace Resp) : (∃ h', Returns env.answer (settle m) h (.ok ()) h') ↔
    env.Sends m ∧ env.finish = .ok () ∧ env.closed.Accepts := by
  rw [← verdict_ok_iff]
  constructor
  · rintro ⟨h', hr⟩
    obtain ⟨_, h₁, hr₁, hr⟩ := hr.bind_ok
    obtain ⟨_, h₂, hr₂, hr₃⟩ := hr.bind_ok
    exact ⟨(sends_of_returns hr₁).1, congrArg Prod.fst (returns_transport_ok hr₂), congrArg Prod.fst hr₃⟩
  · rintro ⟨hs, hf, hv⟩
    obtain ⟨h₁, -, hr₁⟩ := hs.returns h
    have hr₂ := returns_transport (exec_call (h := h ++ h₁) .finish hf)
    have hr₃ : Returns env.answer awaitVerdict (h ++ h₁ ++ [⟨.finish, .ok ()⟩]) (.ok ()) _ := congrArg (·, _) hv
    exact ⟨_, hr₁.bind (hr₂.bind hr₃)⟩

/-- The signature is made and accepted. -/
def Attests (env : Surroundings) (message : Bytes) (assertion : Bytes → α) : Prop :=
  ∃ signature, env.sign message = .ok signature ∧ env.Sends (assertion signature) ∧ env.finish = .ok () ∧
    env.closed.Accepts

/-- One signature is asked for, whatever comes of it. -/
theorem attest_returns {message : UInt64 → Bytes} {assertion : Bytes → UInt64 → α} {r : Except Error Unit}
    (hr : Returns env.answer (attest message assertion) h r h') :
    (signings h' = signings h ++ [message (env.clock h.length)] ∧ closeCodes h' = closeCodes h) ∧
      (r = .ok () ↔
        Attests env (message (env.clock h.length)) fun signature => assertion signature (env.clock h.length)) := by
  have hclock := returns_call env h .unixSecs
  have hr := (hclock.bind rfl).symm.trans hr
  have hsign := returns_signBlocking env (h ++ [⟨.unixSecs, env.clock h.length⟩]) (message (env.clock h.length))
  cases hs : env.sign (message (env.clock h.length)) with
  | error e =>
    rw [hs] at hsign
    obtain ⟨rfl, rfl⟩ := Prod.mk.inj (hsign.bind_error.symm.trans hr)
    refine ⟨by simp [signings, closeCodes], iff_of_false nofun ?_⟩
    rintro ⟨signature, hs', -⟩
    cases hs.symm.trans hs'
  | ok signature =>
    rw [hs] at hsign
    have hr : Returns env.answer (settle (assertion signature (env.clock h.length))) _ r h' :=
      (hsign.bind rfl).symm.trans hr
    obtain ⟨hsig, hclose⟩ := quiet_of_returns hr (asks_settle (fun _ => trivial) trivial trivial)
    refine ⟨⟨?_, ?_⟩, ?_⟩
    · rw [hsig]
      simp [signings]
    · rw [hclose]
      simp [closeCodes]
    · have hok : r = .ok () ↔ ∃ h', Returns env.answer (settle (assertion signature (env.clock h.length)))
          (h ++ [⟨.unixSecs, env.clock h.length⟩] ++ [⟨.sign (message (env.clock h.length)), .ok signature⟩])
          (.ok ()) h' := by
        constructor
        · intro he
          exact ⟨h', he ▸ hr⟩
        · intro hsettle
          obtain ⟨h₁, hr₁⟩ := hsettle
          exact congrArg Prod.fst (hr.symm.trans hr₁)
      rw [hok, settle_ok_iff]
      constructor
      · exact fun ha => ⟨signature, hs, ha⟩
      · intro hattests
        obtain ⟨signature', hs', ha⟩ := hattests
        cases hs.symm.trans hs'
        exact ha

end Parts

/-! ### The one-directional initiator -/

namespace Outgoing

variable {endpointId : EndpointId} {remoteAddr : EndpointAddr} {signer : InstitutionalSigner} {env : Surroundings}
  {challenge : ServerChallenge}

/-- The initiator reaches the peer, can greet it and is sent this challenge. -/
def Challenged (env : Surroundings) (challenge : ServerChallenge) : Prop :=
  env.connect = .ok () ∧ env.openBi = .ok () ∧ env.Sends (ClientHello.mk PROTOCOL_VERSION) ∧
    ∃ rest, Framed MAX_MSG challenge env.stream rest

/-- The initiator up to the challenge. -/
def invite (remoteAddr : EndpointAddr) : Async ServerChallenge := do
  dial remoteAddr ALPN
  exchange (ClientHello.mk PROTOCOL_VERSION)

private theorem handshake_eq_invite : handshake endpointId remoteAddr signer = (do
    let challenge ← invite remoteAddr
    if challenge.version ≠ PROTOCOL_VERSION then throw (.version challenge.version)
    else attest (transcript challenge.nonce endpointId) (ClientAuth.mk signer.verifyingKey)) := by
  simp only [invite, dial, exchange, bind_assoc]
  rfl

theorem invite_ok_iff (remoteAddr : EndpointAddr) : (∃ h, Returns env.answer (invite remoteAddr) [] (.ok challenge) h) ↔
    Challenged env challenge := by
  constructor
  · rintro ⟨h, hr⟩
    obtain ⟨_, h₁, hr₁, hr₂⟩ := hr.bind_ok
    obtain ⟨hc, ho⟩ := (dial_ok_iff remoteAddr ALPN).1 ⟨h₁, hr₁⟩
    obtain ⟨hs, rest, hf⟩ := (exchange_ok_iff h₁).1 ⟨h, hr₂⟩
    rw [(dial_ok hr₁).2] at hf
    exact ⟨hc, ho, hs, rest, hf⟩
  · rintro ⟨hc, ho, hs, rest, hf⟩
    obtain ⟨h₁, hr₁⟩ := (dial_ok_iff (h := []) remoteAddr ALPN).2 ⟨hc, ho⟩
    have hrest : env.rest h₁ = env.stream := (dial_ok hr₁).2
    rw [← hrest] at hf
    obtain ⟨h₂, hr₂⟩ := (exchange_ok_iff h₁).2 ⟨hs, rest, hf⟩
    exact ⟨h₂, hr₁.bind hr₂⟩

private theorem asks_invite : (invite remoteAddr).run.Asks Op.Quiet :=
  asks_dial.run_bind fun _ => asks_exchange

private theorem invite_length {h : Trace Resp} (hr : Returns env.answer (invite remoteAddr) [] (.ok challenge) h) :
    h.length = 6 := by
  obtain ⟨_, h₁, hr₁, hr₂⟩ := hr.bind_ok
  rw [exchange_length hr₂, (dial_ok hr₁).1]
  rfl

/-- No challenge comes where the initiator fails before it. -/
private theorem not_challenged {e : Error} {h : Trace Resp}
    (hr : Returns env.answer (invite remoteAddr) [] (.error e) h) : ¬ Challenged env challenge := by
  intro hc
  obtain ⟨h', hr'⟩ := (invite_ok_iff remoteAddr).2 hc
  cases hr.symm.trans hr'

private theorem challenged_unique {c : ServerChallenge} {h : Trace Resp}
    (hr : Returns env.answer (invite remoteAddr) [] (.ok challenge) h) (hc : Challenged env c) : c = challenge := by
  obtain ⟨h', hr'⟩ := (invite_ok_iff remoteAddr).2 hc
  cases hr.symm.trans hr'
  rfl

/-- Whatever the peer sends and wherever it stops, the initiator asks for one signature, over the nonce it was sent and
its own id, if it was sent a challenge of the right version, and for none otherwise.  It never closes the connection,
and it succeeds exactly if moreover it could send its assertion and the peer closed with the code of an acceptance. -/
theorem one_way_initiates_iff (endpointId : EndpointId) (remoteAddr : EndpointAddr) (signer : InstitutionalSigner)
    (env : Surroundings) :
    let run := (handshake endpointId remoteAddr signer).run.exec env.answer []
    let message := fun challenge : ServerChallenge => transcript challenge.nonce endpointId (env.clock 6)
    (∀ challenge, Challenged env challenge → challenge.version = PROTOCOL_VERSION →
      signings run.2 = [message challenge]) ∧
    ((¬ ∃ challenge, Challenged env challenge ∧ challenge.version = PROTOCOL_VERSION) → signings run.2 = []) ∧
    closeCodes run.2 = [] ∧
    (run.1 = .ok () ↔ ∃ challenge, Challenged env challenge ∧ challenge.version = PROTOCOL_VERSION ∧
      Attests env (message challenge) fun signature => ClientAuth.mk signer.verifyingKey signature (env.clock 6)) := by
  intro run message
  have hr : Returns env.answer (handshake endpointId remoteAddr signer) [] run.1 run.2 := rfl
  rw [handshake_eq_invite] at hr
  rcases returns_bind_cases hr with ⟨e, he, hr₁⟩ | ⟨challenge, h₁, hr₁, hr₂⟩
  · obtain ⟨hsig, hclose⟩ := quiet_of_returns hr₁ asks_invite
    refine ⟨fun c hc => absurd hc (not_challenged hr₁), fun _ => hsig, hclose, ?_⟩
    rw [he]
    refine iff_of_false nofun ?_
    rintro ⟨c, hc, -⟩
    exact not_challenged hr₁ hc
  obtain ⟨hsig, hclose⟩ := quiet_of_returns hr₁ asks_invite
  have hc : Challenged env challenge := (invite_ok_iff remoteAddr).1 ⟨h₁, hr₁⟩
  by_cases hver : challenge.version = PROTOCOL_VERSION
  · rw [if_neg (not_not.2 hver)] at hr₂
    obtain ⟨⟨hsig₂, hclose₂⟩, hok⟩ := attest_returns hr₂
    rw [invite_length hr₁] at hsig₂ hok
    refine ⟨fun c hc _ => ?_, fun hno => absurd ⟨challenge, hc, hver⟩ hno, by rw [hclose₂, hclose]; rfl, ?_⟩
    · rw [hsig₂, hsig, challenged_unique hr₁ hc]
      rfl
    · rw [hok]
      constructor
      · exact fun ha => ⟨challenge, hc, hver, ha⟩
      · rintro ⟨c, hc, -, ha⟩
        rw [challenged_unique hr₁ hc] at ha
        exact ha
  · rw [if_pos hver] at hr₂
    obtain ⟨he, rfl⟩ := Prod.mk.inj hr₂
    have hno : ∀ c, Challenged env c → c.version ≠ PROTOCOL_VERSION := fun c hc => challenged_unique hr₁ hc ▸ hver
    refine ⟨fun c hc hv => absurd hv (hno c hc), fun _ => hsig, hclose, ?_⟩
    rw [← he]
    refine iff_of_false nofun ?_
    rintro ⟨c, hc, hv, -⟩
    exact hno c hc hv

end Outgoing

/-! ### The mutual initiator -/

namespace Mutual

variable {endpointId peerId : EndpointId} {remoteAddr : EndpointAddr} {signer : InstitutionalSigner}
  {maxSkewSecs : Option UInt64} {env : Surroundings} {challenge : MutualChallenge}

/-- The initiator reaches the peer, can greet it and is sent this challenge. -/
def Challenged (env : Surroundings) (challenge : MutualChallenge) : Prop :=
  env.connect = .ok () ∧ env.openBi = .ok () ∧ env.Sends (MutualHello.mk PROTOCOL_VERSION env.nonce) ∧
    ∃ rest, Framed MAX_MSG challenge env.stream rest

/-- The challenge is fresh and proves to the verifier, for the nonce of the initiator, who the peer is. -/
def Proves (env : Surroundings) (peerId : EndpointId) (maxSkewSecs : Option UInt64) (challenge : MutualChallenge) :
    Prop :=
  challenge.version = PROTOCOL_VERSION ∧ Within maxSkewSecs (env.clock 7) challenge.acceptorUnixSecs ∧
    ∃ institution, env.verify challenge.verifyingKey
      (mutualTranscript ROLE_ACCEPTOR env.nonce peerId challenge.acceptorUnixSecs) challenge.signature = .ok institution

/-- How many operations are done when the initiator reads the clock for its own assertion. -/
def reading (maxSkewSecs : Option UInt64) : Nat := if maxSkewSecs.isSome then 9 else 8

/-- The initiator up to the challenge. -/
def invite (remoteAddr : EndpointAddr) : Async (Nonce × MutualChallenge) := do
  dial remoteAddr MUTUAL_ALPN
  let nonceA ← call .random
  let challenge ← exchange (MutualHello.mk PROTOCOL_VERSION nonceA)
  return (nonceA, challenge)

private theorem handshake_eq_invite : handshake endpointId remoteAddr peerId signer maxSkewSecs = (do
    let invited ← invite remoteAddr
    judge endpointId peerId signer maxSkewSecs invited.1 invited.2) := by
  simp only [invite, dial, exchange, bind_assoc, pure_bind]
  rfl

private theorem asks_invite : (invite remoteAddr).run.Asks Op.Quiet :=
  asks_dial.run_bind fun _ => (asks_lift trivial).run_bind fun _ => asks_exchange.run_bind fun _ => trivial

private theorem invite_ok {nonceA : Nonce} {h : Trace Resp}
    (hr : Returns env.answer (invite remoteAddr) [] (.ok (nonceA, challenge)) h) :
    nonceA = env.nonce ∧ Challenged env challenge ∧ h.length = 7 := by
  obtain ⟨_, h₁, hr₁, hr⟩ := hr.bind_ok
  obtain ⟨nonce, h₂, hr₂, hr⟩ := hr.bind_ok
  obtain ⟨rfl, rfl⟩ := returns_call_ok hr₂
  obtain ⟨c, h₃, hr₃, hr⟩ := hr.bind_ok
  cases hr
  obtain ⟨hc, ho⟩ := (dial_ok_iff remoteAddr MUTUAL_ALPN).1 ⟨h₁, hr₁⟩
  obtain ⟨hs, rest, hf⟩ := (exchange_ok_iff _).1 ⟨_, hr₃⟩
  rw [rest_append_mute rfl, (dial_ok hr₁).2] at hf
  refine ⟨rfl, ⟨hc, ho, hs, rest, hf⟩, ?_⟩
  rw [exchange_length hr₃, List.length_append, (dial_ok hr₁).1]
  rfl

private theorem invite_challenged (hc : Challenged env challenge) (remoteAddr : EndpointAddr) :
    ∃ h, Returns env.answer (invite remoteAddr) [] (.ok (env.nonce, challenge)) h := by
  obtain ⟨hc, ho, hs, rest, hf⟩ := hc
  obtain ⟨h₁, hr₁⟩ := (dial_ok_iff (h := []) remoteAddr MUTUAL_ALPN).2 ⟨hc, ho⟩
  have hr₂ := returns_call env h₁ .random
  have hrest : env.rest (h₁ ++ [⟨.random, env.nonce⟩]) = env.stream := by
    rw [rest_append_mute rfl, (dial_ok hr₁).2, rest_nil]
  rw [← hrest] at hf
  obtain ⟨h₃, hr₃⟩ := (exchange_ok_iff _).2 ⟨hs, rest, hf⟩
  exact ⟨h₃, hr₁.bind (hr₂.bind (hr₃.bind rfl))⟩

private theorem returns_close {code : UInt32} {reason : Bytes} {e : Error} {r : Except Error Unit} {h h' : Trace Resp}
    (hr : Returns env.answer (do call (.close code reason); throw e : Async Unit) h r h') :
    (∃ e, r = .error e) ∧ signings h' = signings h ∧ closeCodes h' = closeCodes h ++ [code] := by
  obtain ⟨rfl, rfl⟩ := Prod.mk.inj hr
  exact ⟨⟨e, rfl⟩, by simp [signings], by simp [closeCodes]⟩

/-- The clock is read if there is a tolerance, and compared with the asserted time. -/
private theorem returns_skew (env : Surroundings) (maxSkewSecs : Option UInt64) (asserted : UInt64) {h : Trace Resp}
    (hlen : h.length = 7) :
    ∃ fresh h', Returns env.answer (liftM (checkSkewNow maxSkewSecs asserted) : Async Bool) h (.ok fresh) h' ∧
      (fresh = true ↔ Within maxSkewSecs (env.clock 7) asserted) ∧ h'.length + 1 = reading maxSkewSecs := by
  cases maxSkewSecs with
  | none => exact ⟨true, h, rfl, by simp [Within], by simp [hlen, reading]⟩
  | some max =>
    refine ⟨_, _, rfl, ?_, ?_⟩
    · rw [← checkSkew_iff, ← hlen]
      rfl
    · simp [hlen, reading]

/-- A challenge that proves who the peer is gets one signature; any other one is denied. -/
private theorem judge_returns {h h' : Trace Resp} {r : Except Error Unit} (hlen : h.length = 7)
    (hr : Returns env.answer (judge endpointId peerId signer maxSkewSecs env.nonce challenge) h r h') :
    let message := mutualTranscript ROLE_INITIATOR challenge.nonce endpointId (env.clock (reading maxSkewSecs))
    (Proves env peerId maxSkewSecs challenge ∧ signings h' = signings h ++ [message] ∧ closeCodes h' = closeCodes h ∧
        (r = .ok () ↔ Attests env message fun signature =>
          MutualResponse.mk signer.verifyingKey signature (env.clock (reading maxSkewSecs)))) ∨
      (¬ Proves env peerId maxSkewSecs challenge ∧ (∃ e, r = .error e) ∧ signings h' = signings h ∧
        closeCodes h' = closeCodes h ++ [CLOSE_DENIED]) := by
  intro message
  unfold judge at hr
  split at hr
  · rename_i hver
    exact .inr ⟨fun hp => hver hp.1, returns_close hr⟩
  rename_i hver
  obtain ⟨fresh, h₁, hr₁, hfresh, hlen₁⟩ := returns_skew env maxSkewSecs challenge.acceptorUnixSecs hlen
  have hq₁ := quiet_of_returns hr₁ (asks_checkSkewNow trivial)
  have hr := (hr₁.bind rfl).symm.trans hr
  cases fresh with
  | false =>
    rw [← hq₁.1, ← hq₁.2]
    exact .inr ⟨fun hp => absurd (hfresh.2 hp.2.1) (by simp), returns_close hr⟩
  | true =>
    let verify := Op.verify challenge.verifyingKey
      (mutualTranscript ROLE_ACCEPTOR env.nonce peerId challenge.acceptorUnixSecs) challenge.signature
    have hr₂ := returns_call env h₁ verify
    have hq₂ := quiet_of_returns hr₂ (asks_lift trivial)
    have hr := (hr₂.bind rfl).symm.trans hr
    cases hv : env.answer h₁ verify with
    | error e =>
      rw [hv] at hr hq₂
      rw [← hq₁.1, ← hq₁.2, ← hq₂.1, ← hq₂.2]
      refine .inr ⟨?_, returns_close hr⟩
      rintro ⟨-, -, institution, hp⟩
      cases hv.symm.trans hp
    | ok institution =>
      rw [hv] at hr hq₂
      obtain ⟨⟨hsig, hclose⟩, hok⟩ := attest_returns hr
      rw [List.length_append, List.length_singleton, hlen₁] at hsig hok
      refine .inl ⟨⟨not_not.1 hver, hfresh.1 rfl, institution, hv⟩, ?_, ?_, hok⟩
      · rw [hsig, hq₂.1, hq₁.1]
      · rw [hclose, hq₂.2, hq₁.2]

/-- Whatever the peer sends and wherever it stops, the initiator asks for one signature, over the nonce it was sent and
its own id, if it was sent a challenge that proves who the peer is; any other challenge it denies, without a signature,
and if there is no challenge it does neither.  It succeeds exactly if moreover it could send its assertion and the peer
closed with the code of an acceptance. -/
theorem mutual_initiates_iff (endpointId : EndpointId) (remoteAddr : EndpointAddr) (peerId : EndpointId)
    (signer : InstitutionalSigner) (maxSkewSecs : Option UInt64) (env : Surroundings) :
    let run := (handshake endpointId remoteAddr peerId signer maxSkewSecs).run.exec env.answer []
    let timeA := env.clock (reading maxSkewSecs)
    let message := fun challenge : MutualChallenge =>
      mutualTranscript ROLE_INITIATOR challenge.nonce endpointId timeA
    (∀ challenge, Challenged env challenge → Proves env peerId maxSkewSecs challenge →
      signings run.2 = [message challenge] ∧ closeCodes run.2 = []) ∧
    (∀ challenge, Challenged env challenge → ¬ Proves env peerId maxSkewSecs challenge →
      signings run.2 = [] ∧ closeCodes run.2 = [CLOSE_DENIED]) ∧
    ((¬ ∃ challenge, Challenged env challenge) → signings run.2 = [] ∧ closeCodes run.2 = []) ∧
    (run.1 = .ok () ↔ ∃ challenge, Challenged env challenge ∧ Proves env peerId maxSkewSecs challenge ∧
      Attests env (message challenge) fun signature => MutualResponse.mk signer.verifyingKey signature timeA) := by
  intro run timeA message
  have hr : Returns env.answer (handshake endpointId remoteAddr peerId signer maxSkewSecs) [] run.1 run.2 := rfl
  rw [handshake_eq_invite] at hr
  rcases returns_bind_cases hr with ⟨e, he, hr₁⟩ | ⟨⟨nonceA, challenge⟩, h₁, hr₁, hr₂⟩
  · have hno : ∀ c, ¬ Challenged env c := by
      intro c hc
      obtain ⟨h', hr'⟩ := invite_challenged hc remoteAddr
      cases hr₁.symm.trans hr'
    refine ⟨fun c hc => absurd hc (hno c), fun c hc => absurd hc (hno c), fun _ => quiet_of_returns hr₁ asks_invite, ?_⟩
    rw [he]
    exact iff_of_false nofun fun ⟨c, hc, _⟩ => hno c hc
  obtain ⟨rfl, hc, hlen⟩ := invite_ok hr₁
  obtain ⟨hsig, hclose⟩ := quiet_of_returns hr₁ asks_invite
  have hunique : ∀ c, Challenged env c → c = challenge := by
    intro c hc
    obtain ⟨h', hr'⟩ := invite_challenged hc remoteAddr
    cases hr₁.symm.trans hr'
    rfl
  rcases judge_returns hlen hr₂ with ⟨hp, hsig₂, hclose₂, hok⟩ | ⟨hp, ⟨e, he⟩, hsig₂, hclose₂⟩
  · rw [hsig] at hsig₂
    rw [hclose] at hclose₂
    refine ⟨fun c hc _ => hunique c hc ▸ ⟨hsig₂, hclose₂⟩, fun c hc hn => absurd (hunique c hc ▸ hp) hn,
      fun hno => absurd ⟨challenge, hc⟩ hno, ?_⟩
    rw [hok]
    constructor
    · exact fun ha => ⟨challenge, hc, hp, ha⟩
    · rintro ⟨c, hc, -, ha⟩
      rw [hunique c hc] at ha
      exact ha
  · rw [hsig] at hsig₂
    rw [hclose] at hclose₂
    refine ⟨fun c hc h => absurd (hunique c hc ▸ h) hp, fun _ _ _ => ⟨hsig₂, hclose₂⟩,
      fun hno => absurd ⟨challenge, hc⟩ hno, ?_⟩
    rw [he]
    exact iff_of_false nofun fun ⟨c, hc, h, _⟩ => hp (hunique c hc ▸ h)

end Mutual

end IrohHydeAuth
