import IrohHydeAuth.OneWayTraces
import IrohHydeAuth.MutualTraces
import IrohHydeAuth.Surroundings

/-!
# Whom the acceptors admit

An acceptor against a peer that sends any bytes at all and stops at any point.  It admits the peer exactly if the
conversation is `Admissible`, and in every other case it denies it and leaves the set of allowed remotes as it was
(`accept_admits_iff`).
-/

namespace IrohHydeAuth

open Process Prog Surroundings

/-! ### The end of a session -/

/-- The allowed remotes after a session. -/
def allowedAfter (allowed : Finset EndpointId) (h : Trace Resp) : Finset EndpointId :=
  (inserted h).foldl (fun allowed id => insert id allowed) allowed

/-- The session adds the remote to the allowed ones and says so. -/
def Admits (p : Session) (env : Surroundings) (remoteId : EndpointId) : Prop :=
  ∀ allowed, allowedAfter allowed (p.exec env.answer []).2 = insert remoteId allowed ∧
    closeCodes (p.exec env.answer []).2 = [CLOSE_ACCEPTED]

/-- The session leaves the allowed remotes alone and denies. -/
def Denies (p : Session) (env : Surroundings) : Prop :=
  ∀ allowed, allowedAfter allowed (p.exec env.answer []).2 = allowed ∧
    closeCodes (p.exec env.answer []).2 = [CLOSE_DENIED]

section Conclude

variable {env : Surroundings} {β : Type} {x : Async β} {remote : β → EndpointId}

theorem Admits.not_denies {p : Session} {remoteId : EndpointId} (ha : Admits p env remoteId) : ¬ Denies p env := by
  intro hd
  have hcodes := (ha ∅).2.symm.trans (hd ∅).2
  exact absurd hcodes (by decide)

/-- Nothing before the verdict touches the allowed remotes or closes the connection. -/
private theorem untouched {r : Except Error β} {h : Trace Resp} (hr : Returns env.answer x [] r h)
    (hx : x.run.Asks fun op => (∀ y, op ≠ .insert y) ∧ ∀ code reason, op ≠ .close code reason) :
    inserted h = [] ∧ closeCodes h = [] := by
  have hasks := (hr.path.asks hx).1
  refine ⟨List.eq_nil_iff_forall_not_mem.2 fun y hy => ?_, List.eq_nil_iff_forall_not_mem.2 fun code hc => ?_⟩
  · exact (hasks _ (mem_inserted.1 hy)).1 y rfl
  · obtain ⟨reason, hm⟩ := mem_closeCodes.1 hc
    exact (hasks _ hm).2 code reason rfl

/-- An acceptor admits its remote exactly if its handshake succeeds, and denies it otherwise. -/
theorem conclude_admits_iff (hx : x.run.Asks fun op => (∀ y, op ≠ .insert y) ∧ ∀ code reason, op ≠ .close code reason)
    {remoteId : EndpointId} (hremote : ∀ b h, Returns env.answer x [] (.ok b) h → remote b = remoteId) :
    (Admits (x.run >>= conclude remote) env remoteId ↔ ∃ b h, Returns env.answer x [] (.ok b) h) ∧
      ((¬ ∃ b h, Returns env.answer x [] (.ok b) h) → Denies (x.run >>= conclude remote) env) := by
  rcases hr : x.run.exec env.answer [] with ⟨r, h⟩
  obtain ⟨hi, hc⟩ := untouched hr hx
  have hrun : exec env.answer (x.run >>= conclude remote) [] = exec env.answer (conclude remote r) h := by
    rw [exec_bind, hr]
  cases r with
  | ok b =>
    have hok : ∃ b h, Returns env.answer x [] (.ok b) h := ⟨b, h, hr⟩
    refine ⟨⟨fun _ => hok, fun _ allowed => ?_⟩, fun hno => absurd hok hno⟩
    have hend : exec env.answer (conclude remote (.ok b)) h = (.ok (), h ++ [⟨.insert (remote b), ()⟩] ++
        [⟨.close CLOSE_ACCEPTED (ascii "accepted"), ()⟩]) := rfl
    rw [hrun, hend, hremote b h hr, allowedAfter, inserted_append, inserted_append, hi, closeCodes_append,
      closeCodes_append, hc]
    exact ⟨rfl, rfl⟩
  | error e =>
    have hno : ¬ ∃ b h, Returns env.answer x [] (.ok b) h := by
      rintro ⟨b, h', hb⟩
      cases hb.symm.trans hr
    have hdenies : Denies (x.run >>= conclude remote) env := by
      intro allowed
      have hend : exec env.answer (conclude remote (.error e)) h =
          (.ok (), h ++ [⟨.close CLOSE_DENIED (ascii "denied"), ()⟩]) := rfl
      rw [hrun, hend, allowedAfter, inserted_append, hi, closeCodes_append, hc]
      exact ⟨rfl, rfl⟩
    exact ⟨⟨fun ha => absurd hdenies ha.not_denies, fun h => absurd h hno⟩, fun _ => hdenies⟩

end Conclude

/-! ### The one-directional acceptor -/

namespace AuthProtocol

variable {self : AuthProtocol} {remoteId : EndpointId} {env : Surroundings}

/-- The peer greets in the right version, and then asserts an identity for the challenge of this session that is fresh
and that the verifier accepts.  The clock is read for the challenge, when four operations are done. -/
def Admissible (self : AuthProtocol) (remoteId : EndpointId) (env : Surroundings) : Prop :=
  ∃ (hello : ClientHello) (auth : ClientAuth) (b₁ b₂ : Bytes) (institution : InstitutionId),
    env.acceptBi = .ok () ∧ Framed MAX_MSG hello env.stream b₁ ∧ hello.version = PROTOCOL_VERSION ∧
      env.Sends (ServerChallenge.mk PROTOCOL_VERSION env.nonce (env.clock 4)) ∧ Framed MAX_MSG auth b₁ b₂ ∧
      Within self.maxSkewSecs (env.clock 4) auth.clientUnixSecs ∧
      env.verify auth.verifyingKey (transcript env.nonce remoteId auth.clientUnixSecs) auth.signature = .ok institution

theorem Admissible.returns (ha : self.Admissible remoteId env) :
    ∃ institution h, Returns env.answer (self.runHandshake remoteId) [] (.ok institution) h := by
  obtain ⟨hello, auth, b₁, b₂, institution, haccept, hf₁, hver, hsend, hf₂, hfresh, hverify⟩ := ha
  have hr₁ := returns_acceptBi (h := []) haccept
  have hrest : env.rest ([] ++ [⟨.acceptBi, .ok ()⟩]) = env.stream := rest_append_mute rfl
  obtain ⟨h₂, hr₂, hb₂, hl₂⟩ := (hrest.symm ▸ hf₁).returns
  have hr₃ := returns_call env h₂ .random
  have hr₄ := returns_call env (h₂ ++ [⟨.random, env.nonce⟩]) .unixSecs
  have hclock : env.answer (h₂ ++ [⟨.random, env.nonce⟩]) .unixSecs = env.clock 4 :=
    congrArg env.clock (by simp [hl₂])
  rw [hclock] at hr₄
  obtain ⟨h₅, hw₅, hr₅⟩ := hsend.returns (h₂ ++ [⟨.random, env.nonce⟩] ++ [⟨.unixSecs, env.clock 4⟩])
  have hrest₅ : env.rest (h₂ ++ [⟨.random, env.nonce⟩] ++ [⟨.unixSecs, env.clock 4⟩] ++ h₅) = b₁ := by
    rw [rest_append_mute hw₅.reads_eq, rest_append_mute rfl, rest_append_mute rfl, hb₂]
  obtain ⟨h₆, hr₆, -⟩ := (hrest₅.symm ▸ hf₂).returns
  let verify := Op.verify auth.verifyingKey (transcript env.nonce remoteId auth.clientUnixSecs) auth.signature
  have hr₇ := returns_call env h₆ verify
  rw [show env.answer h₆ verify = .ok institution from hverify] at hr₇
  refine ⟨institution, h₆ ++ [⟨verify, .ok institution⟩], hr₁.bind (hr₂.bind ?_)⟩
  rw [if_neg (not_not.2 hver)]
  refine hr₃.bind (hr₄.bind (hr₅.bind (hr₆.bind ?_)))
  dsimp only
  rw [if_neg (by simpa using checkSkew_iff.2 hfresh)]
  exact hr₇.bind rfl

theorem admissible_of_returns {institution : InstitutionId} {h : Trace Resp}
    (hr : Returns env.answer (self.runHandshake remoteId) [] (.ok institution) h) : self.Admissible remoteId env := by
  obtain ⟨_, h₁, hr₁, hr⟩ := hr.bind_ok
  obtain ⟨haccept, rfl⟩ := returns_acceptBi_ok hr₁
  obtain ⟨hello, h₂, hr₂, hr⟩ := hr.bind_ok
  obtain ⟨hf₁, hl₂⟩ := framed_of_returns hr₂
  rw [rest_append_mute rfl] at hf₁
  obtain ⟨hver, hr⟩ := returns_ite_throw hr
  obtain ⟨nonce, h₃, hr₃, hr⟩ := hr.bind_ok
  obtain ⟨rfl, rfl⟩ := returns_call_ok hr₃
  obtain ⟨serverNow, h₄, hr₄, hr⟩ := hr.bind_ok
  obtain ⟨rfl, rfl⟩ := returns_call_ok hr₄
  obtain ⟨_, h₅, hr₅, hr⟩ := hr.bind_ok
  obtain ⟨hsend, h₆, hw₆, rfl⟩ := sends_of_returns hr₅
  obtain ⟨auth, h₇, hr₇, hr⟩ := hr.bind_ok
  obtain ⟨hf₂, -⟩ := framed_of_returns hr₇
  rw [rest_append_mute hw₆.reads_eq, rest_append_mute rfl, rest_append_mute rfl] at hf₂
  obtain ⟨hfresh, hr⟩ := returns_ite_throw hr
  obtain ⟨res, h₈, hr₈, hr⟩ := hr.bind_ok
  obtain ⟨hres, rfl⟩ := returns_call_ok hr₈
  have hclock : env.answer (h₂ ++ [⟨.random, env.answer h₂ .random⟩]) .unixSecs = env.clock 4 :=
    congrArg env.clock (by simp [hl₂])
  rw [hclock] at hsend hfresh
  cases res with
  | error e => cases hr
  | ok institution' =>
    exact ⟨hello, auth, _, _, institution', haccept, hf₁, not_not.1 hver, hsend, hf₂,
      checkSkew_iff.1 (by simpa using hfresh), hres.symm⟩

theorem runHandshake_ok_iff (self : AuthProtocol) (remoteId : EndpointId) (env : Surroundings) :
    (∃ institution h, Returns env.answer (self.runHandshake remoteId) [] (.ok institution) h) ↔
      self.Admissible remoteId env :=
  ⟨fun ⟨_, _, hr⟩ => admissible_of_returns hr, Admissible.returns⟩

end AuthProtocol

/-! ### The mutual acceptor -/

namespace MutualAuthProtocol

variable {self : MutualAuthProtocol} {remoteId : EndpointId} {env : Surroundings}

/-- The acceptor knows its own id and can sign; the peer greets in the right version, and then asserts an identity for
the challenge of this session that is fresh and that the verifier accepts.  The clock is read for the challenge, when
five operations are done, and again when the response has been read. -/
def Admissible (self : MutualAuthProtocol) (remoteId : EndpointId) (env : Surroundings) : Prop :=
  ∃ (localId : EndpointId) (hello : MutualHello) (sigB : Bytes) (response : MutualResponse) (b₁ b₂ : Bytes)
    (institution : InstitutionId),
    env.localId = some localId ∧ env.acceptBi = .ok () ∧ Framed MAX_MSG hello env.stream b₁ ∧
      hello.version = PROTOCOL_VERSION ∧
      env.sign (mutualTranscript ROLE_ACCEPTOR hello.nonce localId (env.clock 5)) = .ok sigB ∧
      env.Sends (MutualChallenge.mk PROTOCOL_VERSION env.nonce self.signer.verifyingKey sigB (env.clock 5)) ∧
      Framed MAX_MSG response b₁ b₂ ∧ Within self.maxSkewSecs (env.clock 11) response.initiatorUnixSecs ∧
      env.verify response.verifyingKey
        (mutualTranscript ROLE_INITIATOR env.nonce remoteId response.initiatorUnixSecs) response.signature =
          .ok institution

theorem admissible_of_returns {remote : EndpointId} {h : Trace Resp}
    (hr : Returns env.answer (self.handshake remoteId) [] (.ok remote) h) :
    remote = remoteId ∧ self.Admissible remoteId env := by
  rw [handshake] at hr
  obtain ⟨id?, h₁, hr₁, hr⟩ := hr.bind_ok
  obtain ⟨hid, rfl⟩ := returns_call_ok hr₁
  cases id? with
  | none => cases hr
  | some localId =>
    obtain ⟨_, h₂, hr₂, hr⟩ := hr.bind_ok
    obtain ⟨haccept, rfl⟩ := returns_acceptBi_ok hr₂
    obtain ⟨hello, h₃, hr₃, hr⟩ := hr.bind_ok
    obtain ⟨hf₁, hl₃⟩ := framed_of_returns hr₃
    rw [rest_append_mute rfl, rest_append_mute rfl] at hf₁
    obtain ⟨hver, hr⟩ := returns_ite_throw hr
    obtain ⟨nonceB, h₄, hr₄, hr⟩ := hr.bind_ok
    obtain ⟨rfl, rfl⟩ := returns_call_ok hr₄
    obtain ⟨timeB, h₅, hr₅, hr⟩ := hr.bind_ok
    obtain ⟨rfl, rfl⟩ := returns_call_ok hr₅
    have hclock : env.answer (h₃ ++ [⟨.random, env.answer h₃ .random⟩]) .unixSecs = env.clock 5 :=
      congrArg env.clock (by simp [hl₃])
    rw [hclock] at hr
    obtain ⟨sigB, h₆, hr₆, hr⟩ := hr.bind_ok
    obtain ⟨hsign, rfl⟩ := returns_signBlocking_ok hr₆
    obtain ⟨_, h₇, hr₇, hr⟩ := hr.bind_ok
    obtain ⟨hsend, h₈, hw₈, rfl⟩ := sends_of_returns hr₇
    obtain ⟨response, h₉, hr₉, hr⟩ := hr.bind_ok
    obtain ⟨hf₂, hl₉⟩ := framed_of_returns hr₉
    rw [rest_append_mute hw₈.reads_eq, rest_append_mute rfl, rest_append_mute rfl, rest_append_mute rfl] at hf₂
    obtain ⟨fresh, h₁₀, hr₁₀, hr⟩ := hr.bind_ok
    obtain ⟨hfresh, hr⟩ := returns_ite_throw hr
    obtain rfl : fresh = true := by simpa using hfresh
    have hwithin := returns_checkSkewNow_ok hr₁₀
    rw [show h₉.length = 11 by simp [hl₉, hw₈.length_eq, hl₃]] at hwithin
    obtain ⟨res, h₁₁, hr₁₁, hr⟩ := hr.bind_ok
    obtain ⟨hres, rfl⟩ := returns_call_ok hr₁₁
    cases res with
    | error e => cases hr
    | ok institution =>
      refine ⟨Except.ok.inj (congrArg Prod.fst hr).symm, ?_⟩
      exact ⟨localId, hello, sigB, response, _, _, institution, hid.symm, haccept, hf₁, not_not.1 hver, hsign, hsend,
        hf₂, hwithin, hres.symm⟩

theorem Admissible.returns (ha : self.Admissible remoteId env) :
    ∃ h, Returns env.answer (self.handshake remoteId) [] (.ok remoteId) h := by
  obtain ⟨localId, hello, sigB, response, b₁, b₂, institution, hid, haccept, hf₁, hver, hsign, hsend, hf₂, hwithin,
    hverify⟩ := ha
  have hr₁ := returns_call env [] .localId
  rw [show env.answer [] .localId = some localId from hid] at hr₁
  have hr₂ := returns_acceptBi (h := [] ++ [⟨.localId, some localId⟩]) haccept
  have hrest₂ : env.rest ([] ++ [⟨.localId, some localId⟩] ++ [⟨.acceptBi, .ok ()⟩]) = env.stream := by
    rw [rest_append_mute rfl, rest_append_mute rfl, rest_nil]
  obtain ⟨h₃, hr₃, hb₃, hl₃⟩ := (hrest₂.symm ▸ hf₁).returns
  have hr₄ := returns_call env h₃ .random
  have hr₅ := returns_call env (h₃ ++ [⟨.random, env.nonce⟩]) .unixSecs
  have hclock : env.answer (h₃ ++ [⟨.random, env.nonce⟩]) .unixSecs = env.clock 5 :=
    congrArg env.clock (by simp [hl₃])
  rw [hclock] at hr₅
  let bTranscript := mutualTranscript ROLE_ACCEPTOR hello.nonce localId (env.clock 5)
  have hr₆ := returns_signBlocking env (h₃ ++ [⟨.random, env.nonce⟩] ++ [⟨.unixSecs, env.clock 5⟩]) bTranscript
  rw [show env.sign bTranscript = .ok sigB from hsign] at hr₆
  obtain ⟨h₇, hw₇, hr₇⟩ := hsend.returns
    (h₃ ++ [⟨.random, env.nonce⟩] ++ [⟨.unixSecs, env.clock 5⟩] ++ [⟨.sign bTranscript, .ok sigB⟩])
  have hrest₇ : env.rest (h₃ ++ [⟨.random, env.nonce⟩] ++ [⟨.unixSecs, env.clock 5⟩] ++
      [⟨.sign bTranscript, .ok sigB⟩] ++ h₇) = b₁ := by
    rw [rest_append_mute hw₇.reads_eq, rest_append_mute rfl, rest_append_mute rfl, rest_append_mute rfl, hb₃]
  obtain ⟨h₈, hr₈, -, hl₈⟩ := (hrest₇.symm ▸ hf₂).returns
  obtain ⟨h₉, hr₉⟩ := returns_checkSkewNow h₈ (by
    rw [show h₈.length = 11 by simp [hl₈, hw₇.length_eq, hl₃]]
    exact hwithin)
  let verify := Op.verify response.verifyingKey
    (mutualTranscript ROLE_INITIATOR env.nonce remoteId response.initiatorUnixSecs) response.signature
  have hr₁₀ := returns_call env h₉ verify
  rw [show env.answer h₉ verify = .ok institution from hverify] at hr₁₀
  refine ⟨h₉ ++ [⟨verify, .ok institution⟩], hr₁.bind (hr₂.bind (hr₃.bind ?_))⟩
  rw [if_neg (not_not.2 hver)]
  refine hr₄.bind (hr₅.bind (hr₆.bind (hr₇.bind (hr₈.bind (hr₉.bind ?_)))))
  exact hr₁₀.bind rfl

theorem handshake_ok_iff (self : MutualAuthProtocol) (remoteId : EndpointId) (env : Surroundings) :
    (∃ remote h, Returns env.answer (self.handshake remoteId) [] (.ok remote) h) ↔ self.Admissible remoteId env :=
  ⟨fun ⟨_, _, hr⟩ => (admissible_of_returns hr).2, fun ha => ⟨remoteId, ha.returns⟩⟩

end MutualAuthProtocol

/-! ### Both acceptors -/

/-- Whatever the peer sends and wherever it stops, both acceptors admit it exactly if the conversation is admissible,
and deny it and leave the allowed remotes alone if it is not. -/
theorem accept_admits_iff (remoteId : EndpointId) (env : Surroundings) :
    (∀ self : AuthProtocol,
      (Admits (self.accept remoteId) env remoteId ↔ self.Admissible remoteId env) ∧
        (¬ self.Admissible remoteId env → Denies (self.accept remoteId) env)) ∧
    ∀ self : MutualAuthProtocol,
      (Admits (self.accept remoteId) env remoteId ↔ self.Admissible remoteId env) ∧
        (¬ self.Admissible remoteId env → Denies (self.accept remoteId) env) := by
  constructor
  · intro self
    have hx : (self.runHandshake remoteId).run.Asks fun op =>
        (∀ y, op ≠ .insert y) ∧ ∀ code reason, op ≠ .close code reason := by
      apply AuthProtocol.asks_runHandshake <;> simp
    have hremote : ∀ institution h, Returns env.answer (self.runHandshake remoteId) [] (.ok institution) h →
        (fun _ : InstitutionId => remoteId) institution = remoteId := fun _ _ _ => rfl
    have h := conclude_admits_iff hx hremote
    rwa [← AuthProtocol.accept_eq, self.runHandshake_ok_iff remoteId env] at h
  · intro self
    have hx : (self.handshake remoteId).run.Asks fun op =>
        (∀ y, op ≠ .insert y) ∧ ∀ code reason, op ≠ .close code reason := by
      apply MutualAuthProtocol.asks_handshake <;> simp
    have hremote : ∀ remote h, Returns env.answer (self.handshake remoteId) [] (.ok remote) h → id remote = remoteId :=
      fun _ _ hr => (MutualAuthProtocol.admissible_of_returns hr).1
    have h := conclude_admits_iff hx hremote
    rwa [← MutualAuthProtocol.accept_eq, self.handshake_ok_iff remoteId env] at h

end IrohHydeAuth
