import IrohHydeAuth.Admission

/-!
# Freshness at admission

How old an assertion can be when it is admitted.  Any time may pass between two operations of a session: the clock is
an arbitrary function of the number of operations that are behind it.

The mutual acceptor reads the clock once it has read the assertion.  The one-directional acceptor compares with the
reading that it put into its challenge, so the peer chooses how much later the assertion arrives (`fresh_iff`).
-/

namespace IrohHydeAuth

open Process Prog Surroundings

/-! ### The clock -/

/-- The readings in the trace are those of the clock, which shows `clock k` when `k` operations are done. -/
def Timed (clock : Nat → UInt64) (h : Trace Resp) : Prop :=
  ∀ k now, h[k]? = some ⟨.unixSecs, now⟩ → now = clock k

theorem Timed.reading {clock : Nat → UInt64} {h₁ h₂ : Trace Resp} {now : UInt64}
    (ht : Timed clock (h₁ ++ [⟨.unixSecs, now⟩] ++ h₂)) : now = clock h₁.length :=
  ht h₁.length now (by simp)

/-- The last message read in the trace is `m`, and `k` operations were done when it had been read. -/
def LastRead {α : Type} [Postcard α] (m : α) (k : Nat) (h : Trace Resp) : Prop :=
  ∃ h₁ h₂ h₃, h = h₁ ++ h₂ ++ h₃ ∧ ReadsMsg m h₂ ∧ (∀ e ∈ h₃, ∀ n, e.1 ≠ .readExact n) ∧ k = (h₁ ++ h₂).length

section LastRead

variable {α : Type} [Postcard α] {m m' : α} {h₁ h₂ h₃ : Trace Resp}

theorem ReadsMsg.unique {h : Trace Resp} (hr : ReadsMsg m h) (hr' : ReadsMsg m' h) : m = m' := by
  obtain ⟨lenBuf, buf, rfl, hdec⟩ := hr
  obtain ⟨lenBuf', buf', he, hdec'⟩ := hr'
  have hreads := congrArg reads he
  simp only [reads_cons, reads_nil, eventReads, List.append_nil] at hreads
  obtain ⟨-, hbuf⟩ := List.append_inj hreads (by rw [lenBuf.property, lenBuf'.property])
  rw [hbuf, hdec'] at hdec
  exact (Except.ok.inj hdec).symm

private theorem ReadsMsg.ends {h : Trace Resp} (hr : ReadsMsg m h) : ∃ h' n r, h = h' ++ [⟨.readExact n, r⟩] := by
  obtain ⟨lenBuf, buf, rfl, -⟩ := hr
  exact ⟨_, _, _, (List.singleton_append ..).symm⟩

/-- What ends in a read is a prefix of what comes before operations that read nothing. -/
private theorem prefix_of_read {a b c d : Trace Resp} (h : a ++ c = b ++ d) (hc : ∀ e ∈ c, ∀ n, e.1 ≠ .readExact n)
    (hb : ∃ b' n r, b = b' ++ [⟨.readExact n, r⟩]) : b <+: a := by
  rcases List.append_eq_append_iff.1 h with ⟨x, rfl, rfl⟩ | ⟨x, rfl, rfl⟩
  · rcases List.eq_nil_or_concat x with rfl | ⟨x', e, rfl⟩
    · simp
    · obtain ⟨b', n, r, hb⟩ := hb
      rw [List.concat_eq_append, ← List.append_assoc] at hb
      obtain ⟨-, he⟩ := List.append_inj' hb rfl
      cases he
      exact absurd rfl (hc ⟨.readExact n, r⟩ (by simp) n)
  · exact List.prefix_append _ _

theorem LastRead.unique {k : Nat} (hl : LastRead m k (h₁ ++ h₂ ++ h₃)) (hr : ReadsMsg m' h₂)
    (hno : ∀ e ∈ h₃, ∀ n, e.1 ≠ .readExact n) : m = m' ∧ k = (h₁ ++ h₂).length := by
  obtain ⟨a₁, a₂, a₃, he, hra, hna, rfl⟩ := hl
  have hends : ∀ {a b : Trace Resp} {m : α}, ReadsMsg m b → ∃ b' n r, a ++ b = b' ++ [⟨.readExact n, r⟩] := by
    intro a b m hr
    obtain ⟨b', n, r, rfl⟩ := hr.ends
    exact ⟨a ++ b', n, r, (List.append_assoc ..).symm⟩
  have hle : a₁ ++ a₂ <+: h₁ ++ h₂ := prefix_of_read he hno (hends hra)
  have hge : h₁ ++ h₂ <+: a₁ ++ a₂ := prefix_of_read he.symm hna (hends hr)
  have heq : a₁ ++ a₂ = h₁ ++ h₂ := hle.eq_of_length (Nat.le_antisymm hle.length_le hge.length_le)
  obtain ⟨-, rfl⟩ := List.append_inj' heq (by rw [hra.length_eq, hr.length_eq])
  exact ⟨hra.unique hr, by rw [heq]⟩

end LastRead

/-! ### Runs of the acceptors -/

private theorem SkewChecked.within {maxSkewSecs : Option UInt64} {asserted : UInt64} {clock : Nat → UInt64}
    {h₁ h₂ h₃ : Trace Resp} (hs : SkewChecked maxSkewSecs asserted h₂) (ht : Timed clock (h₁ ++ h₂ ++ h₃)) :
    Within maxSkewSecs (clock h₁.length) asserted := by
  cases hs with
  | unchecked => exact fun _ he => nomatch he
  | checked fresh =>
    rw [← ht.reading]
    exact checkSkew_iff.1 fresh

private theorem SkewChecked.no_read {maxSkewSecs : Option UInt64} {asserted : UInt64} {h : Trace Resp}
    {key message signature : Bytes} {res : Except VerifyError InstitutionId} (hs : SkewChecked maxSkewSecs asserted h) :
    ∀ e ∈ h ++ [⟨.verify key message signature, res⟩], ∀ n, e.1 ≠ .readExact n := by
  cases hs with
  | unchecked => simp
  | checked => simp

/-- The mutual acceptor reads the clock when it has read the assertion. -/
private theorem MutualAuthProtocol.within_of_ok {self : MutualAuthProtocol} {remoteId remote : EndpointId}
    {clock : Nat → UInt64} {h : Trace Resp} {response : MutualResponse} {k : Nat}
    (hp : Path (self.handshake remoteId).run h (ret (.ok remote))) (ht : Timed clock h) (hl : LastRead response k h) :
    Within self.maxSkewSecs (clock k) response.initiatorUnixSecs := by
  obtain ⟨-, localId, hello, challenge, response', hv⟩ := handshake_ok hp
  obtain ⟨institution, challenged, challenge_written, response_read, fresh⟩ := hv
  rw [List.append_assoc _ _ [_]] at hl
  obtain ⟨rfl, rfl⟩ := hl.unique response_read fresh.no_read
  exact fresh.within ht

/-- The one-directional acceptor compares with the time of its challenge. -/
private theorem AuthProtocol.within_of_ok {self : AuthProtocol} {remoteId : EndpointId} {institution : InstitutionId}
    {h : Trace Resp} {auth : ClientAuth} {k : Nat} {serverNow : UInt64}
    (hp : Path (self.runHandshake remoteId).run h (ret (.ok institution))) (hnow : ⟨.unixSecs, serverNow⟩ ∈ h)
    (hl : LastRead auth k h) : Within self.maxSkewSecs serverNow auth.clientUnixSecs := by
  obtain ⟨nonce, auth', hv⟩ := runHandshake_ok hp
  obtain ⟨institution', hello_read, challenge_written, auth_read, fresh⟩ := hv
  obtain ⟨rfl, -⟩ := hl.unique auth_read (by simp)
  obtain ⟨_, _, rfl, -⟩ := hello_read
  obtain ⟨_, _, rfl, -⟩ := auth_read
  rw [challenge_written.2] at hnow
  obtain rfl : serverNow = _ := by simpa using hnow
  exact checkSkew_iff.1 fresh

/-! ### A run for every reading of the clock -/

theorem Surroundings.timed_exec {α : Type} {env : Surroundings} {x : Async α} {r : Except Error α} {h : Trace Resp}
    (hr : Returns env.answer x [] r h) : Timed env.clock h := by
  refine hr.invariant (P := Timed env.clock) ?_ (fun k now he => nomatch he)
  intro h op ht k now he
  rcases lt_trichotomy k h.length with hk | rfl | hk
  · rw [List.getElem?_append_left hk] at he
    exact ht k now he
  · rw [List.getElem?_concat_length] at he
    cases he
    rfl
  · rw [List.getElem?_eq_none (by simp; omega)] at he
    cases he

theorem Surroundings.reads_exec {α : Type} {env : Surroundings} {x : Async α} {r : Except Error α} {h : Trace Resp}
    (hr : Returns env.answer x [] r h) : reads h <+: env.stream := by
  refine hr.invariant (P := fun h => reads h <+: env.stream) ?_ List.nil_prefix
  intro h op hp
  rw [reads_append]
  cases op with
  | readExact n =>
    have hrest : env.stream = reads h ++ env.rest h := List.prefix_iff_eq_append.1 hp |>.symm
    by_cases hn : n ≤ (env.rest h).length
    · have hread : reads [⟨.readExact n, env.answer h (.readExact n)⟩] = (env.rest h).take n := by
        simp [answer, hn, eventReads]
      rw [hread, hrest, List.prefix_append_right_inj]
      exact List.take_prefix n (env.rest h)
    · have hread : reads [⟨.readExact n, env.answer h (.readExact n)⟩] = [] := by
        simp [answer, hn, eventReads]
      rwa [hread, List.append_nil]
  | _ => simpa [eventReads] using hp

/-- For any two readings of the clock there is a run in which the first goes into the challenge, the second is current
when the assertion has been read, and an assertion is admitted whose time is within the tolerance of the first. -/
private theorem AuthProtocol.exists_run {m c₀ t : UInt64} (c₁ : UInt64) (hw : Within (some m) c₀ t) :
    ∃ (remoteId : EndpointId) (clock : Nat → UInt64) (h : Trace Resp) (institution : InstitutionId) (auth : ClientAuth)
      (k : Nat), Path ((AuthProtocol.mk (some m)).runHandshake remoteId).run h (ret (.ok institution)) ∧
        Timed clock h ∧ ⟨.unixSecs, c₀⟩ ∈ h ∧ LastRead auth k h ∧ clock k = c₁ ∧ auth.clientUnixSecs = t := by
  let hello := ClientHello.mk PROTOCOL_VERSION
  let auth := ClientAuth.mk [] [] t
  let env : Surroundings := { ofStream (frame hello ++ (frame auth ++ [])) with
    clock := fun k => if k ≤ 4 then c₀ else c₁ }
  have hmax : MAX_MSG = 16384 := rfl
  have hhello := clientHello_fits hello
  have hchallenge := serverChallenge_fits ⟨PROTOCOL_VERSION, env.nonce, env.clock 4⟩
  have hauth := clientAuth_fits (m := auth) (by simp [auth])
  have ha : (AuthProtocol.mk (some m)).Admissible ⟨List.replicate 32 0, rfl⟩ env :=
    ⟨hello, auth, _, _, "", rfl, framed_frame _ hhello (by omega), rfl, ⟨by omega, rfl, rfl⟩,
      framed_frame _ hauth (by omega), hw, rfl⟩
  obtain ⟨institution, h, hr⟩ := ha.returns
  have hp := hr.path
  have ht := timed_exec hr
  have hreads := reads_exec hr
  obtain ⟨nonce, auth', hv⟩ := runHandshake_ok hp
  obtain ⟨institution', hello_read, challenge_written, auth_read, fresh⟩ := hv
  rename_i hello' serverNow h₁ h₂ h₃
  have hnow : serverNow = c₀ := by
    let before : Trace Resp := [⟨.acceptBi, .ok ()⟩] ++ h₁ ++ [⟨.random, nonce⟩]
    have hreading : serverNow = env.clock before.length := Timed.reading (by simpa [before] using ht)
    simpa [hello_read.length_eq, env, before] using hreading
  have hsame : auth' = auth := by
    simp only [reads_append, reads_cons, reads_nil, eventReads, challenge_written.reads_eq, List.append_nil,
      List.nil_append] at hreads
    obtain ⟨-, hreads⟩ := hello_read.eq_of_frame (by omega) hreads
    exact (auth_read.eq_of_frame (x := []) (y := []) (by omega) (by simpa using hreads)).1
  subst hsame hnow
  refine ⟨_, env.clock, _, institution, auth, _, hp, ht, by simp, ⟨_, h₃, _, rfl, auth_read, by simp, rfl⟩, ?_, rfl⟩
  simp [env, hello_read.length_eq, challenge_written.length_eq, auth_read.length_eq]

/-! ### How old an assertion can be -/

/-- Every time within the tolerance of `c₀` is within that of `c₁`. -/
private theorem within_all_iff {m c₀ c₁ : UInt64} :
    (∀ t, Within (some m) c₀ t → Within (some m) c₁ t) ↔
      c₁.toNat ≤ max c₀.toNat m.toNat ∧ min (c₀.toNat + m.toNat) (2 ^ 64 - 1) ≤ c₁.toNat + m.toNat := by
  have h₀ := c₀.toNat_lt
  have hiff : ∀ {c t : UInt64}, Within (some m) c t ↔
      c.toNat ≤ t.toNat + m.toNat ∧ t.toNat ≤ c.toNat + m.toNat := by
    simp [Within]
  have hof : ∀ {n : Nat}, n < 2 ^ 64 → (UInt64.ofNat n).toNat = n := fun hn => by simpa using hn
  simp only [hiff]
  constructor
  · intro h
    -- the two ends of the window around `c₀`
    have hlow := h (UInt64.ofNat (c₀.toNat - m.toNat))
    have hhigh := h (UInt64.ofNat (min (c₀.toNat + m.toNat) (2 ^ 64 - 1)))
    rw [hof (by omega)] at hlow
    rw [hof (by omega)] at hhigh
    omega
  · rintro ⟨hlow, hhigh⟩ t ⟨h₁, h₂⟩
    have ht := t.toNat_lt
    omega

/-- With a tolerance of `m` seconds, the one-directional acceptor admits only assertions that are fresh when it has read
them exactly if the window around the clock's reading `c₀` for the challenge lies in that around its reading `c₁` at
that moment.  The mutual acceptor admits no others, however the clock moves. -/
theorem fresh_iff (m : UInt64) :
    (∀ c₀ c₁ : UInt64,
      (∀ (remoteId : EndpointId) (clock : Nat → UInt64) (h : Trace Resp) (institution : InstitutionId)
        (auth : ClientAuth) (k : Nat),
        Path ((AuthProtocol.mk (some m)).runHandshake remoteId).run h (ret (.ok institution)) → Timed clock h →
          ⟨.unixSecs, c₀⟩ ∈ h → LastRead auth k h → clock k = c₁ → Within (some m) c₁ auth.clientUnixSecs) ↔
        c₁.toNat ≤ max c₀.toNat m.toNat ∧ min (c₀.toNat + m.toNat) (2 ^ 64 - 1) ≤ c₁.toNat + m.toNat) ∧
    ∀ (self : MutualAuthProtocol) (remoteId remote : EndpointId) (clock : Nat → UInt64) (h : Trace Resp)
      (response : MutualResponse) (k : Nat), self.maxSkewSecs = some m →
      Path (self.handshake remoteId).run h (ret (.ok remote)) → Timed clock h → LastRead response k h →
        Within (some m) (clock k) response.initiatorUnixSecs := by
  refine ⟨fun c₀ c₁ => ?_, ?_⟩
  · rw [← within_all_iff]
    constructor
    · intro hfresh t hw
      obtain ⟨remoteId, clock, h, institution, auth, k, hp, ht, hnow, hl, hk, rfl⟩ :=
        AuthProtocol.exists_run c₁ hw
      exact hfresh remoteId clock h institution auth k hp ht hnow hl hk
    · rintro hall remoteId clock h institution auth k hp - hnow hl -
      exact hall _ (AuthProtocol.within_of_ok hp hnow hl)
  · intro self remoteId remote clock h response k hm hp ht hl
    rw [← hm]
    exact MutualAuthProtocol.within_of_ok hp ht hl

/-- A run in which the clock does not move. -/
theorem fresh_iff_still : ∃ (h : Trace Resp) (institution : InstitutionId) (auth : ClientAuth) (remoteId : EndpointId),
    Path ((AuthProtocol.mk (some 300)).runHandshake remoteId).run h (ret (.ok institution)) ∧
      auth.clientUnixSecs = 100 ∧ Within (some 300) 7 auth.clientUnixSecs := by
  have hw : Within (some 300) 7 100 := checkSkew_iff.1 (by decide)
  obtain ⟨remoteId, clock, h, institution, auth, k, hp, ht, hnow, hl, hk, htime⟩ :=
    AuthProtocol.exists_run 7 hw
  exact ⟨h, institution, auth, remoteId, hp, htime, ((fresh_iff 300).1 7 7).2 (by decide) remoteId clock h institution
    auth k hp ht hnow hl hk⟩

/-- With the default tolerance an assertion that is a thousand seconds old when it arrives can be admitted. -/
theorem admits_stale : ∃ (remoteId : EndpointId) (clock : Nat → UInt64) (h : Trace Resp) (institution : InstitutionId)
    (auth : ClientAuth) (k : Nat),
    Path (AuthProtocol.incoming.runHandshake remoteId).run h (ret (.ok institution)) ∧ Timed clock h ∧
      LastRead auth k h ∧ clock k = 1000 ∧
      ¬ Within AuthProtocol.incoming.maxSkewSecs (clock k) auth.clientUnixSecs := by
  have hw : Within (some DEFAULT_MAX_SKEW_SECS) 0 0 := checkSkew_iff.1 (by decide)
  obtain ⟨remoteId, clock, h, institution, auth, k, hp, ht, -, hl, hk, htime⟩ :=
    AuthProtocol.exists_run 1000 hw
  refine ⟨remoteId, clock, h, institution, auth, k, hp, ht, hl, hk, ?_⟩
  rw [hk, htime, ← checkSkew_iff]
  decide

end IrohHydeAuth
