import IrohHydeAuth.SshBackend
import IrohHydeAuth.OneWayVerdict
import IrohHydeAuth.MutualVerdict

/-!
# From the agent to the verdict

The second backend under the protocol, with nothing left open between the two: the key is in an ssh-agent, `connect`
picks it, a handshake has its transcript signed through `sign_blocking` and a socket, and the other end checks the
signature with an `SshVerifier`.  The sign request is never too long for the agent, and the assertion always fits into a
frame.

* `Pair.agent_one_way_verdict`: the one-directional handshake succeeds exactly if the roster has the key and the clocks
  agree.
* `Pair.agent_mutual_verdict`: so does the mutual one between endpoints that trust each other.
-/

namespace IrohHydeAuth

open Process Prog SshAgent

/-- The signer answers a transcript with a signature that passes the check of `v` under `key`, and that leaves room in a
frame. -/
def Endorses (c : Crypto) (v : InstitutionVerifier) (key : Bytes) (sign : Bytes → Except Error Bytes) : Prop :=
  ∀ message, message.length ≤ 114 → ∃ signature, sign message = .ok signature ∧
    v.checks c key message signature = true ∧ key.length + signature.length ≤ 16000

namespace SshAgentSigner

/-- `sign_blocking` with this signer; a thread that panics is joined with `joinError`. -/
def signBlocking (env : Socket) (joinError : String) (self : SshAgentSigner) (message : Bytes) : Except Error Bytes :=
  match ((self.sign message).run.exec env.answer []).1 with
  | .ok signature => .ok signature
  | .error (.error e) => .error e
  | .error .panic => .error (.signer ("signing task failed: " ++ joinError))

/-- The key blob of a signer comes out of a reply of the agent. -/
private theorem length_keyBlob {ids : List (Bytes × Bytes)} {p : Bytes × Bytes} (hp : p ∈ ids)
    (hsmall : (identitiesAnswer ids).length ≤ MAX_AGENT_MSG) : p.1.length ≤ MAX_AGENT_MSG := by
  obtain ⟨l₁, l₂, rfl⟩ := List.append_of_mem hp
  simp only [identitiesAnswer, identity, List.flatMap_append, List.flatMap_cons, List.length_cons, List.length_append,
    SshWire.length_string] at hsmall
  omega

/-- A signer that `connect` has returned endorses its key, if the agent follows the protocol. -/
theorem endorses_of_connect {agent : Bytes → Bytes} {ids : List (Bytes × Bytes)} {sig : Bytes → Bytes → Bytes}
    {c : Crypto} (hp : FollowsProtocol agent ids sig) (hk : SignsValidly c ids sig) {eof sock : String}
    {want : Option (ByteArr 32)} {s : SshAgentSigner}
    (hs : ((connect sock want).run.exec (Socket.mk (.ok ()) agent eof).answer []).1 = .ok s) (joinError : String)
    (roster : Roster) :
    Endorses c (.ssh ⟨roster⟩) s.verifyingKey (s.signBlocking (Socket.mk (.ok ()) agent eof) joinError) := by
  intro message hmessage
  have hmax : MAX_AGENT_MSG = 1048576 := rfl
  obtain ⟨hmem, hed, -⟩ := hp.mem_of_connect eof hs
  obtain ⟨p, hpm, hkb⟩ := List.mem_map.1 hmem
  rw [← hkb] at hed
  obtain ⟨vk, hvk, hvalid⟩ := hk p hpm s.publicKey hed
  obtain ⟨hlen, hstrict⟩ := hvalid message
  -- the request is short enough for its length to be written
  have hlt : (s.signRequest message).length < 2 ^ 32 := by
    have hblob := length_keyBlob hpm hp.identities_small
    rw [hkb] at hblob
    rw [length_signRequest]
    omega
  refine ⟨sig p.1 message, by rw [signBlocking, hp.sign_ok eof hpm hkb hed hlt], ?_, ?_⟩
  · simp [InstitutionVerifier.checks, verifyingKey, s.publicKey.property, hvk, hlen, hstrict]
  · rw [hlen, verifyingKey, s.publicKey.property]
    decide

/-- The signer with the key `key` is one that `connect` has returned, with an agent that follows the protocol, and
`sign` is what `sign_blocking` returns with it. -/
def HeldByAgent (c : Crypto) (key : Bytes) (sign : Bytes → Except Error Bytes) : Prop :=
  ∃ agent ids sig eof sock want joinError s, FollowsProtocol agent ids sig ∧ SignsValidly c ids sig ∧
    ((connect sock want).run.exec (Socket.mk (.ok ()) agent eof).answer []).1 = .ok s ∧ key = s.verifyingKey ∧
    sign = s.signBlocking (Socket.mk (.ok ()) agent eof) joinError

theorem HeldByAgent.endorses {c : Crypto} {key : Bytes} {sign : Bytes → Except Error Bytes}
    (h : HeldByAgent c key sign) (roster : Roster) : Endorses c (.ssh ⟨roster⟩) key sign := by
  obtain ⟨agent, ids, sig, eof, sock, want, joinError, s, hp, hk, hs, rfl, rfl⟩ := h
  exact endorses_of_connect hp hk hs joinError roster

end SshAgentSigner

/-! ### A key in an agent

Alice and Bob belong to one institution, whose key is `testKey`.  The three signatures are genuine: those of the
transcripts of the two handshakes that Alice dials at 1000 seconds. -/

namespace Held

def signatureOneWay : ByteArr 64 := ⟨[
  0x3a, 0xc3, 0x52, 0x8d, 0x32, 0xe4, 0x0c, 0xf0, 0xf8, 0x60, 0x5b, 0xa3, 0x33, 0xd8, 0xdc, 0x9c,
  0x8c, 0x38, 0x24, 0x8b, 0x31, 0x6d, 0x3e, 0x50, 0x20, 0xab, 0x2c, 0x3f, 0xb2, 0xb9, 0x6e, 0xcb,
  0x3b, 0xdd, 0xd5, 0xfc, 0xfa, 0x5d, 0x64, 0x48, 0xe0, 0x2f, 0xc4, 0x00, 0x59, 0x88, 0x71, 0x11,
  0x5b, 0xfd, 0xf4, 0xc2, 0x57, 0x75, 0xca, 0x13, 0x98, 0xaa, 0x63, 0x36, 0x4b, 0x2c, 0x18, 0x08], rfl⟩

def signatureAcceptor : ByteArr 64 := ⟨[
  0xb1, 0xb2, 0xe9, 0x2f, 0xea, 0x15, 0xa8, 0xcb, 0x24, 0x7d, 0x9d, 0xb6, 0x86, 0xcd, 0xea, 0x01,
  0x3e, 0x90, 0xba, 0x93, 0xf1, 0x47, 0xb2, 0x22, 0x84, 0xa7, 0xf2, 0x79, 0xd1, 0x6d, 0x3d, 0x3b,
  0x98, 0x77, 0xed, 0x36, 0xfa, 0x36, 0x22, 0x64, 0x2d, 0x01, 0x5e, 0xc3, 0x96, 0xa3, 0xef, 0x9b,
  0xe1, 0xeb, 0x12, 0x7f, 0x4d, 0xc0, 0xef, 0x40, 0x1d, 0xbd, 0x22, 0xa6, 0x84, 0x06, 0x03, 0x0b], rfl⟩

def signatureInitiator : ByteArr 64 := ⟨[
  0x72, 0x0f, 0x62, 0x46, 0x06, 0xf1, 0x8e, 0x99, 0xa2, 0xfd, 0xe0, 0x50, 0xfc, 0xe8, 0x58, 0x24,
  0x44, 0x9f, 0xd2, 0x06, 0xb8, 0x18, 0xb3, 0x94, 0xd0, 0xf1, 0xdb, 0x70, 0xbf, 0x4b, 0x4e, 0xbe,
  0x71, 0xe4, 0xb9, 0xa0, 0x58, 0xcf, 0xb6, 0x11, 0x46, 0x48, 0x1c, 0x5b, 0xd1, 0x40, 0x9d, 0xb9,
  0x36, 0xa5, 0xc3, 0x94, 0xb3, 0xa0, 0xa7, 0x40, 0xc8, 0xe5, 0x97, 0xfb, 0xe6, 0x53, 0xd5, 0x07], rfl⟩

/-- What the key signs. -/
def signature (message : Bytes) : ByteArr 64 :=
  if message = transcript (Duo.party Duo.bob 2 1000).nonce Duo.alice 1000 then signatureOneWay
  else if message = mutualTranscript ROLE_ACCEPTOR (Duo.party Duo.alice 1 1000).nonce Duo.bob 1000 then
    signatureAcceptor
  else if message = mutualTranscript ROLE_INITIATOR (Duo.party Duo.bob 2 1000).nonce Duo.alice 1000 then
    signatureInitiator
  else testSignature

/-- An agent that holds the key. -/
def agent (b : Bytes) : Bytes :=
  if b = SshWire.string [REQUEST_IDENTITIES] then SshWire.string (identitiesAnswer [(testBlob, [])])
  else
    match (SshWire.takeString b).bind fun r => readSignRequest r.1 with
    | some (_, _, message, _, _) => SshWire.string (signResponse (signature message).val)
    | none => []

def verifier : InstitutionVerifier := .ssh ⟨Roster.new.insert testKey.val "acme"⟩

def node : Node := ⟨⟨testKey.val⟩, verifier, AuthProtocol.incoming, verifier, MutualAuthProtocol.ofMutual ⟨testKey.val⟩⟩

def world : World where
  crypto :=
    { verifySignature := fun _ _ _ _ => .ok false
      fromBytes := .ok
      verifyStrict := fun vk message sig => decide (vk = testKey ∧ sig = signature message) }
  node x := if x = Duo.alice ∨ x = Duo.bob then some node else none

def signer : SshAgentSigner := ⟨"agent.sock", testBlob, testKey⟩

def party (x : EndpointId) (k : UInt8) : Party :=
  { Duo.party x k 1000 with
    sign := signer.signBlocking (Socket.mk (.ok ()) agent "eof") "panicked"
    verify := verifier.verify world.crypto }

private theorem follows : FollowsProtocol agent [(testBlob, [])] fun _ message => (signature message).val where
  distinct := by decide
  identities := if_pos rfl
  identities_small := by decide
  signs := by
    rintro p hp pk hpk message request rfl hlt
    -- the request is the one that a signer with this blob writes
    have hlt' : ((⟨"", p.1, pk⟩ : SshAgentSigner).signRequest message).length < 2 ^ 32 := by
      simp only [List.length_cons, List.length_append, SshWire.length_string, SshWire.length_u32] at hlt
      rw [SshAgentSigner.length_signRequest]
      dsimp only
      omega
    rw [← SshAgentSigner.signRequest_eq hlt'] at hlt ⊢
    have hne : SshWire.string ((⟨"", p.1, pk⟩ : SshAgentSigner).signRequest message) ≠
        SshWire.string [REQUEST_IDENTITIES] := by
      intro he
      have hlen := congrArg List.length he
      simp only [SshWire.length_string, SshAgentSigner.length_signRequest, List.length_singleton] at hlen
      omega
    have hframe : SshWire.takeString (SshWire.string ((⟨"", p.1, pk⟩ : SshAgentSigner).signRequest message)) = _ :=
      SshWire.takeString_eq_some.2 ⟨hlt, (List.append_nil _).symm⟩
    simp [agent, hne, hframe, SshAgentSigner.readSignRequest_signRequest hlt]
  signs_small := by
    intro p hp message
    simp only [signResponse, List.length_cons, SshWire.length_string, List.length_append, (signature message).property]
    decide

private theorem validly : SignsValidly world.crypto [(testBlob, [])] fun _ message => (signature message).val := by
  intro p hp pk hpk
  rw [List.mem_singleton.1 hp] at hpk
  obtain rfl := hpk.unique isEd25519_testBlob
  refine ⟨testKey, rfl, fun message => ⟨(signature message).property, ?_⟩⟩
  exact decide_eq_true ⟨rfl, rfl⟩

private theorem connects : ((SshAgentSigner.connect "agent.sock" none).run.exec (Socket.mk (.ok ()) agent "eof").answer
    []).1 = .ok signer := by
  decide +kernel

theorem heldByAgent (x : EndpointId) (k : UInt8) :
    SshAgentSigner.HeldByAgent world.crypto testKey.val (party x k).sign :=
  ⟨agent, _, _, "eof", "agent.sock", none, "panicked", signer, follows, validly, connects, rfl, rfl⟩

end Held

namespace Pair

open SshAgentSigner

/-- An ssh-agent on one side and an `SshVerifier` on the other: every order of steps brings the one-directional
handshake to the same end, which is the success of both if the roster has the key of the signer and the clock readings
are within the acceptor's tolerance, and a denial otherwise. -/
theorem agent_one_way_verdict (w : World) (c : Conn) (n n' : Node) (a b : Party) (roster : Roster)
    (hmode : c.mode = .oneWay) (hn : w.node c.dialer = some n) (hn' : w.node c.target.id = some n')
    (hsign : HeldByAgent w.crypto n.signer.verifyingKey a.sign) (hverifier : n'.verifier = .ssh ⟨roster⟩)
    (hverify : b.verify = n'.verifier.verify w.crypto) :
    ∃ p z, start w c = some p ∧ Settles a b p z ∧
      (Accepted z c.dialer ↔ roster.contains n.signer.verifyingKey = true ∧
        Within n'.protocol.maxSkewSecs (b.clock 0) (a.clock 0)) ∧
      (Denied z ↔ ¬ (roster.contains n.signer.verifyingKey = true ∧
        Within n'.protocol.maxSkewSecs (b.clock 0) (a.clock 0))) := by
  obtain ⟨signature, hsigned, hchecks, hsize⟩ := hsign.endorses roster (transcript b.nonce c.dialer (a.clock 0))
    (length_transcript _ _ _).le
  have hauth : Authentic w c n n' a b ↔ roster.contains n.signer.verifyingKey = true ∧
      Within n'.protocol.maxSkewSecs (b.clock 0) (a.clock 0) := by
    constructor
    · rintro ⟨signature', -, hroster, -, hwithin⟩
      rw [hverifier] at hroster
      exact ⟨hroster, hwithin⟩
    · rintro ⟨hroster, hwithin⟩
      rw [← hverifier] at hchecks
      exact ⟨signature, hsigned, by rw [hverifier]; exact hroster, hchecks, hwithin⟩
  have hfit : ∀ signature', a.sign (transcript b.nonce c.dialer (a.clock 0)) = .ok signature' →
      (Postcard.encode (ClientAuth.mk n.signer.verifyingKey signature' (a.clock 0))).length ≤ MAX_MSG := by
    intro signature' h
    rw [hsigned] at h
    cases h
    exact clientAuth_fits hsize
  obtain ⟨p, z, hstart, hz, ⟨hacc, h⟩ | ⟨hden, h⟩⟩ := one_way_outcome a b hmode hn hn' hverify hfit
  · rw [hauth] at h
    exact ⟨p, z, hstart, hacc.settles hz, iff_of_true hacc h, iff_of_false hacc.not_denied (not_not.2 h)⟩
  · rw [hauth] at h
    exact ⟨p, z, hstart, hden.settles hz, iff_of_false (fun h => h.not_denied hden) h, iff_of_true hden h⟩

theorem held_one_way_verdict : ∃ p z, start Held.world (Duo.conn .oneWay) = some p ∧
    Settles (Held.party Duo.alice 1) (Held.party Duo.bob 2) p z ∧ Accepted z Duo.alice := by
  obtain ⟨p, z, hstart, hz, hacc, -⟩ := agent_one_way_verdict Held.world (Duo.conn .oneWay) Held.node Held.node
    (Held.party Duo.alice 1) (Held.party Duo.bob 2) _ rfl rfl rfl (Held.heldByAgent _ _) rfl rfl
  refine ⟨p, z, hstart, hz, hacc.2 ⟨by decide, ?_⟩⟩
  rintro _ ⟨⟩
  decide

/-- An ssh-agent and an `SshVerifier` on both sides: if each roster has the key of the other side and the acceptor's id
is published, the mutual handshake ends in success on both sides exactly if the acceptor's time is within the default
tolerance of the initiator and the initiator's within the tolerance of the acceptor, and in a denial otherwise. -/
theorem agent_mutual_verdict (w : World) (c : Conn) (n n' : Node) (a b : Party) (roster roster' : Roster)
    (hmode : c.mode = .twoWay) (hn : w.node c.dialer = some n) (hn' : w.node c.target.id = some n')
    (hpublished : b.localId = some c.target.id)
    (hsign : HeldByAgent w.crypto n.mutualProtocol.signer.verifyingKey a.sign)
    (hsign' : HeldByAgent w.crypto n'.mutualProtocol.signer.verifyingKey b.sign)
    (hverifier : n.mutualVerifier = .ssh ⟨roster⟩) (hverifier' : n'.mutualVerifier = .ssh ⟨roster'⟩)
    (hverify : a.verify = n.mutualVerifier.verify w.crypto) (hverify' : b.verify = n'.mutualVerifier.verify w.crypto)
    (htrusts : roster.contains n'.mutualProtocol.signer.verifyingKey = true)
    (htrusts' : roster'.contains n.mutualProtocol.signer.verifyingKey = true) :
    ∃ p z, start w c = some p ∧ Settles a b p z ∧
      (Accepted z c.dialer ↔ Within (some DEFAULT_MAX_SKEW_SECS) (a.clock 0) (b.clock 0) ∧
        Within n'.mutualProtocol.maxSkewSecs (b.clock 1) (a.clock 1)) ∧
      (Accepted z c.dialer ∨ Denied z) := by
  have hlen : ∀ role nonce x time, (mutualTranscript role nonce x time).length ≤ 114 := by
    intro role nonce x time
    rw [length_mutualTranscript]
    decide
  have ht : Trusting w c n n' a b :=
    { mode := hmode
      dialer := hn
      target := hn'
      published := hpublished
      verify_dialer := hverify
      verify_target := hverify'
      roster_dialer := by rw [hverifier]; exact htrusts
      roster_target := by rw [hverifier']; exact htrusts'
      sign_dialer := by
        obtain ⟨signature, hsigned, hchecks, hsize⟩ := hsign.endorses roster' _ (hlen ROLE_INITIATOR b.nonce c.dialer
          (a.clock 1))
        exact ⟨signature, hsigned, by rw [hverifier']; exact hchecks, mutualResponse_fits hsize⟩
      sign_target := by
        obtain ⟨signature, hsigned, hchecks, hsize⟩ := hsign'.endorses roster _ (hlen ROLE_ACCEPTOR a.nonce c.target.id
          (b.clock 0))
        exact ⟨signature, hsigned, by rw [hverifier]; exact hchecks, mutualChallenge_fits hsize⟩ }
  obtain ⟨p, z, hstart, hz, hiff, hend, -⟩ := mutual_verdict ht
  exact ⟨p, z, hstart, hz, hiff, hend⟩

theorem held_mutual_verdict : ∃ p z, start Held.world (Duo.conn .twoWay) = some p ∧
    Settles (Held.party Duo.alice 1) (Held.party Duo.bob 2) p z ∧ Accepted z Duo.alice := by
  obtain ⟨p, z, hstart, hz, hacc, -⟩ := agent_mutual_verdict Held.world (Duo.conn .twoWay) Held.node Held.node
    (Held.party Duo.alice 1) (Held.party Duo.bob 2) _ _ rfl rfl rfl rfl (Held.heldByAgent _ _) (Held.heldByAgent _ _)
    rfl rfl rfl rfl (by decide) (by decide)
  refine ⟨p, z, hstart, hz, hacc.2 ⟨?_, ?_⟩⟩
  · rintro _ ⟨⟩
    decide
  · rintro _ ⟨⟩
    decide

end Pair

end IrohHydeAuth
