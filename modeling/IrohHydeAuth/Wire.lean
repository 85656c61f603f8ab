import IrohHydeAuth.Error

/-!
# The wire format

The constants, the six messages and the two signed transcripts of `wire.rs`, and the frame in which a message
travels: its length on four bytes, big-endian, and then its postcard encoding.

The transcripts have fields of fixed width behind a fixed tag, so a transcript determines its fields
(`transcript_inj`, `mutualTranscript_inj`), and the two tags already differ within their common length, so no
transcript of one kind is a transcript of the other, or begins with one (`transcripts_separated`).
-/

namespace IrohHydeAuth

open Process

def ALPN : Bytes := ascii "iroh-hyde-auth/0"

def MUTUAL_ALPN : Bytes := ascii "iroh-hyde-auth/mutual/0"

def PROTOCOL_VERSION : UInt8 := 0

def DOMAIN : Bytes := ascii "iroh-hyde-auth/v0/institutional-challenge"

def DOMAIN_MUTUAL : Bytes := ascii "iroh-hyde-auth/v0/mutual-challenge"

def NONCE_LEN : Nat := 32

def ENDPOINT_ID_LEN : Nat := 32

def CLOSE_ACCEPTED : UInt32 := 1

def CLOSE_DENIED : UInt32 := 403

def MAX_MSG : Nat := 16 * 1024

/-- The signer dialled the auth connection. -/
def ROLE_INITIATOR : UInt8 := 1

/-- The signer accepted the auth connection. -/
def ROLE_ACCEPTOR : UInt8 := 2

abbrev Nonce := ByteArr NONCE_LEN

abbrev EndpointId := ByteArr ENDPOINT_ID_LEN

/-! ### Messages -/

structure ClientHello where
  version : UInt8
  deriving DecidableEq, Repr

structure ServerChallenge where
  version : UInt8
  nonce : Nonce
  serverUnixSecs : UInt64
  deriving DecidableEq, Repr

structure ClientAuth where
  verifyingKey : Bytes
  signature : Bytes
  clientUnixSecs : UInt64
  deriving DecidableEq, Repr

structure MutualHello where
  version : UInt8
  nonce : Nonce
  deriving DecidableEq, Repr

structure MutualChallenge where
  version : UInt8
  nonce : Nonce
  verifyingKey : Bytes
  signature : Bytes
  acceptorUnixSecs : UInt64
  deriving DecidableEq, Repr

structure MutualResponse where
  verifyingKey : Bytes
  signature : Bytes
  initiatorUnixSecs : UInt64
  deriving DecidableEq, Repr

instance : Postcard ClientHello := .ofFields (fun m => m.version) (fun v => ⟨v⟩) fun _ => rfl

instance : Postcard ServerChallenge :=
  .ofFields (fun m => (m.version, m.nonce, m.serverUnixSecs)) (fun (v, n, t) => ⟨v, n, t⟩) fun _ => rfl

instance : Postcard ClientAuth :=
  .ofFields (fun m => (m.verifyingKey, m.signature, m.clientUnixSecs)) (fun (k, s, t) => ⟨k, s, t⟩) fun _ => rfl

instance : Postcard MutualHello := .ofFields (fun m => (m.version, m.nonce)) (fun (v, n) => ⟨v, n⟩) fun _ => rfl

instance : Postcard MutualChallenge :=
  .ofFields (fun m => (m.version, m.nonce, m.verifyingKey, m.signature, m.acceptorUnixSecs))
    (fun (v, n, k, s, t) => ⟨v, n, k, s, t⟩) fun _ => rfl

instance : Postcard MutualResponse :=
  .ofFields (fun m => (m.verifyingKey, m.signature, m.initiatorUnixSecs)) (fun (k, s, t) => ⟨k, s, t⟩)
    fun _ => rfl

/-! ### Transcripts -/

/-- What the initiator of the one-directional handshake signs. -/
def transcript (nonce : Nonce) (initiatorId : EndpointId) (clientUnixSecs : UInt64) : Bytes :=
  DOMAIN ++ [PROTOCOL_VERSION] ++ nonce.val ++ initiatorId.val ++ beBytes 8 clientUnixSecs.toNat

/-- What the party acting as `role` in the mutual handshake signs. -/
def mutualTranscript (role : UInt8) (peerNonce : Nonce) (signerId : EndpointId) (time : UInt64) : Bytes :=
  DOMAIN_MUTUAL ++ [PROTOCOL_VERSION] ++ [role] ++ peerNonce.val ++ signerId.val ++ beBytes 8 time.toNat

theorem length_transcript (nonce : Nonce) (initiatorId : EndpointId) (clientUnixSecs : UInt64) :
    (transcript nonce initiatorId clientUnixSecs).length = 114 := by
  have hn : nonce.val.length = 32 := nonce.property
  have hi : initiatorId.val.length = 32 := initiatorId.property
  have hd : DOMAIN.length = 41 := by decide
  simp only [transcript, List.length_append, List.length_singleton, length_beBytes, hn, hi, hd]

theorem length_mutualTranscript (role : UInt8) (peerNonce : Nonce) (signerId : EndpointId) (time : UInt64) :
    (mutualTranscript role peerNonce signerId time).length = 108 := by
  have hn : peerNonce.val.length = 32 := peerNonce.property
  have hi : signerId.val.length = 32 := signerId.property
  have hd : DOMAIN_MUTUAL.length = 34 := by decide
  simp only [mutualTranscript, List.length_append, List.length_singleton, length_beBytes, hn, hi, hd]

private theorem beBytes_u64_inj {t t' : UInt64} (h : beBytes 8 t.toNat = beBytes 8 t'.toNat) : t = t' :=
  UInt64.toNat_inj.mp (beBytes_inj (by simpa using t.toNat_lt) (by simpa using t'.toNat_lt) h)

/-- Nonce, endpoint id and time behind a common prefix can be told apart. -/
private theorem fields_inj {pre : Bytes} {n n' : Nonce} {i i' : EndpointId} {t t' : UInt64}
    (h : pre ++ n.val ++ i.val ++ beBytes 8 t.toNat = pre ++ n'.val ++ i'.val ++ beBytes 8 t'.toNat) :
    n = n' ∧ i = i' ∧ t = t' := by
  obtain ⟨h, ht⟩ := List.append_inj' h (by simp)
  obtain ⟨h, hi⟩ := List.append_inj' h (by rw [i.property, i'.property])
  exact ⟨Subtype.ext (List.append_cancel_left h), Subtype.ext hi, beBytes_u64_inj ht⟩

theorem transcript_inj {n n' : Nonce} {i i' : EndpointId} {t t' : UInt64}
    (h : transcript n i t = transcript n' i' t') : n = n' ∧ i = i' ∧ t = t' :=
  fields_inj h

theorem mutualTranscript_inj {r r' : UInt8} {n n' : Nonce} {i i' : EndpointId} {t t' : UInt64}
    (h : mutualTranscript r n i t = mutualTranscript r' n' i' t') : r = r' ∧ n = n' ∧ i = i' ∧ t = t' := by
  have hr : r = r' := by
    have := congrArg (fun b : Bytes => b[DOMAIN_MUTUAL.length + 1]?) h
    simpa [mutualTranscript] using this
  subst hr
  exact ⟨rfl, fields_inj h⟩

/-- The two tags differ at their nineteenth byte, so neither is a prefix of the other. -/
private theorem domains_apart : ¬ DOMAIN <+: DOMAIN_MUTUAL ∧ ¬ DOMAIN_MUTUAL <+: DOMAIN := by decide

theorem transcript_not_prefix (n n' : Nonce) (i i' : EndpointId) (t t' : UInt64) (r : UInt8) :
    ¬ transcript n i t <+: mutualTranscript r n' i' t' := by
  simp only [transcript, mutualTranscript, List.append_assoc]
  exact not_prefix_append domains_apart.1 domains_apart.2 _ _

theorem mutualTranscript_not_prefix (n n' : Nonce) (i i' : EndpointId) (t t' : UInt64) (r : UInt8) :
    ¬ mutualTranscript r n' i' t' <+: transcript n i t := by
  simp only [transcript, mutualTranscript, List.append_assoc]
  exact not_prefix_append domains_apart.2 domains_apart.1 _ _

theorem transcript_ne_mutualTranscript (n n' : Nonce) (i i' : EndpointId) (t t' : UInt64) (r : UInt8) :
    transcript n i t ≠ mutualTranscript r n' i' t' := by
  intro h
  exact transcript_not_prefix n n' i i' t t' r (h ▸ List.prefix_rfl)

/-- Each transcript says one thing only: it determines all that goes into it, and a transcript of one kind is neither a
transcript of the other kind, nor the beginning of one, nor does it begin with one. -/
theorem transcripts_separated :
    (∀ (n₁ n₂ : Nonce) (i₁ i₂ : EndpointId) (t₁ t₂ : UInt64),
      transcript n₁ i₁ t₁ = transcript n₂ i₂ t₂ ↔ n₁ = n₂ ∧ i₁ = i₂ ∧ t₁ = t₂) ∧
    (∀ (r₁ r₂ : UInt8) (n₁ n₂ : Nonce) (i₁ i₂ : EndpointId) (t₁ t₂ : UInt64),
      mutualTranscript r₁ n₁ i₁ t₁ = mutualTranscript r₂ n₂ i₂ t₂ ↔ r₁ = r₂ ∧ n₁ = n₂ ∧ i₁ = i₂ ∧ t₁ = t₂) ∧
    ∀ (n₁ n₂ : Nonce) (i₁ i₂ : EndpointId) (t₁ t₂ : UInt64) (r : UInt8),
      transcript n₁ i₁ t₁ ≠ mutualTranscript r n₂ i₂ t₂ ∧
      ¬ transcript n₁ i₁ t₁ <+: mutualTranscript r n₂ i₂ t₂ ∧
      ¬ mutualTranscript r n₂ i₂ t₂ <+: transcript n₁ i₁ t₁ := by
  refine ⟨?_, ?_, ?_⟩
  · intro n₁ n₂ i₁ i₂ t₁ t₂
    refine ⟨transcript_inj, ?_⟩
    rintro ⟨rfl, rfl, rfl⟩
    rfl
  · intro r₁ r₂ n₁ n₂ i₁ i₂ t₁ t₂
    refine ⟨mutualTranscript_inj, ?_⟩
    rintro ⟨rfl, rfl, rfl, rfl⟩
    rfl
  · intro n₁ n₂ i₁ i₂ t₁ t₂ r
    exact ⟨transcript_ne_mutualTranscript _ _ _ _ _ _ _, transcript_not_prefix _ _ _ _ _ _ _,
      mutualTranscript_not_prefix _ _ _ _ _ _ _⟩

/-! ### Frames -/

section Frames

variable {α : Type} [Postcard α]

/-- The bytes of `msg` on a stream. -/
def frame (msg : α) : Bytes := beBytes 4 (Postcard.encode msg).length ++ Postcard.encode msg

/-- Bytes that parse as a header and a payload of the announced length, read off a stream that starts with the frame
of `msg`, are that frame. -/
theorem frame_of_prefix {msg : α} {hdr buf x rest : Bytes} (hlen : (Postcard.encode msg).length < 2 ^ 32)
    (hhdr : hdr.length = 4) (hbuf : buf.length = beNat hdr) (h : hdr ++ buf ++ x <+: frame msg ++ rest) :
    buf = Postcard.encode msg ∧ x <+: rest := by
  obtain ⟨y, hy⟩ := h
  simp only [frame, List.append_assoc] at hy
  obtain ⟨h1, h2⟩ := List.append_inj hy (by simp [hhdr])
  have hn : buf.length = (Postcard.encode msg).length := by
    rw [hbuf, h1, beNat_beBytes_of_lt (by simpa using hlen)]
  obtain ⟨h3, h4⟩ := List.append_inj h2 hn
  exact ⟨h3, y, h4⟩

end Frames

/-! The messages without a signature fit the limit, and the others do so unless key and signature are huge. -/

theorem clientHello_fits (m : ClientHello) : (Postcard.encode m).length ≤ MAX_MSG := by
  show [m.version].length ≤ 16384
  simp

theorem serverChallenge_fits (m : ServerChallenge) : (Postcard.encode m).length ≤ MAX_MSG := by
  have ht := length_putVarint_le varintMax m.serverUnixSecs.toNat
  have hn : m.nonce.val.length = 32 := m.nonce.property
  show ([m.version] ++ (m.nonce.val ++ putVarint varintMax m.serverUnixSecs.toNat)).length ≤ 16384
  simp only [List.length_append, List.length_singleton, varintMax] at ht ⊢
  omega

theorem mutualHello_fits (m : MutualHello) : (Postcard.encode m).length ≤ MAX_MSG := by
  have hn : m.nonce.val.length = 32 := m.nonce.property
  show ([m.version] ++ m.nonce.val).length ≤ 16384
  simp only [List.length_append, List.length_singleton]
  omega

private theorem length_assertion {key sig : Bytes} {t : UInt64} (h : key.length + sig.length ≤ 16000) :
    (Postcard.encode (key, sig, t)).length ≤ 16030 := by
  have hk := length_putVarint_le varintMax key.length
  have hs := length_putVarint_le varintMax sig.length
  have ht := length_putVarint_le varintMax t.toNat
  show ((putVarint varintMax key.length ++ key) ++ ((putVarint varintMax sig.length ++ sig) ++
    putVarint varintMax t.toNat)).length ≤ 16030
  simp only [List.length_append, varintMax] at hk hs ht ⊢
  omega

theorem clientAuth_fits {m : ClientAuth} (h : m.verifyingKey.length + m.signature.length ≤ 16000) :
    (Postcard.encode m).length ≤ MAX_MSG :=
  (length_assertion h).trans (by decide)

theorem mutualResponse_fits {m : MutualResponse} (h : m.verifyingKey.length + m.signature.length ≤ 16000) :
    (Postcard.encode m).length ≤ MAX_MSG :=
  (length_assertion h).trans (by decide)

theorem mutualChallenge_fits {m : MutualChallenge} (h : m.verifyingKey.length + m.signature.length ≤ 16000) :
    (Postcard.encode m).length ≤ MAX_MSG := by
  have hn : m.nonce.val.length = 32 := m.nonce.property
  have ha := length_assertion (t := m.acceptorUnixSecs) h
  show ([m.version] ++ (m.nonce.val ++
    Postcard.encode (m.verifyingKey, m.signature, m.acceptorUnixSecs))).length ≤ 16384
  simp only [List.length_append, List.length_singleton] at ha ⊢
  omega

end IrohHydeAuth
