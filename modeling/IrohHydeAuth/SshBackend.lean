import IrohHydeAuth.SshReader
import IrohHydeAuth.Verifier

/-!
# The ssh-agent backend on a socket

`SshAgentSigner` over a socket whose writes succeed, for every byte stream that comes back.

* `connect` selects exactly the first identity of the list that matches.
* `sign` sends one frame that says what it was given, or nothing at all, and returns exactly the signature that the
  reply carries.
* With an agent that follows the protocol, what a signer signs is accepted under its own key.
-/

namespace IrohHydeAuth

open Process Prog

namespace SshAgent

/-- What was written to the socket. -/
def written (h : Trace AgentResp) : Bytes :=
  h.flatMap fun
    | ⟨.writeAll bytes, _⟩ => bytes
    | _ => []

/-- What was read from the socket. -/
def reads (h : Trace AgentResp) : Bytes :=
  h.flatMap fun
    | ⟨.readExact _, .ok buf⟩ => buf.val
    | _ => []

@[simp] theorem written_append (h h' : Trace AgentResp) : written (h ++ h') = written h ++ written h' :=
  List.flatMap_append

@[simp] theorem reads_append (h h' : Trace AgentResp) : reads (h ++ h') = reads h ++ reads h' :=
  List.flatMap_append

/-- A socket whose writes succeed. -/
structure Socket where
  /-- Whether there is anybody to connect to. -/
  connect : Except String Unit
  /-- All that comes back once the given bytes have been written. -/
  answers : Bytes → Bytes
  /-- What reading beyond it fails with. -/
  eof : String

namespace Socket

variable {α β : Type} {env : Socket} {h h' : Trace AgentResp} {x : Bytes}

def answer (self : Socket) (h : Trace AgentResp) : (op : AgentOp) → AgentResp op
  | .connect _ => self.connect
  | .writeAll _ => .ok ()
  | .readExact n =>
    let buf := (self.answers (written h)).drop (reads h).length
    if hn : n ≤ buf.length then .ok ⟨buf.take n, List.length_take_of_le hn⟩ else .error self.eof

/-! ### Connecting, sending and receiving -/

private theorem returns_mapErr {p : Prog AgentResp (Except String α)} {a : α} (text : String)
    (hp : p.exec env.answer h = (.ok a, h')) : Returns env.answer (mapErr text p) h (.ok a) h' :=
  returns_mk_bind hp rfl

private theorem returns_mapErr_error {p : Prog AgentResp (Except String α)} {e : String} (text : String)
    (hp : p.exec env.answer h = (.error e, h')) :
    Returns env.answer (mapErr text p) h (.error (signerError (text ++ ": " ++ e))) h' :=
  returns_mk_bind hp rfl

/-- Without a connection nothing is written. -/
theorem returns_connect (env : Socket) (sock : String) :
    (env.connect = .ok () ∧
        ∃ h, Returns env.answer (SshAgent.connect sock) [] (.ok ()) h ∧ written h = [] ∧ reads h = []) ∨
      (∃ e, env.connect = .error e) ∧
        ∃ text h, Returns env.answer (SshAgent.connect sock) [] (.error (signerError text)) h ∧ written h = [] := by
  cases hc : env.connect with
  | ok u =>
    refine .inl ⟨rfl, [⟨.connect sock, .ok ()⟩], returns_mapErr _ ?_, rfl, rfl⟩
    simp [SshAgent.ask, call, answer, hc]
  | error e =>
    refine .inr ⟨⟨e, rfl⟩, _, [⟨.connect sock, .error e⟩], returns_mapErr_error _ (e := e) ?_, rfl⟩
    simp [SshAgent.ask, call, answer, hc]

/-- A payload is sent as one frame, or not at all. -/
theorem returns_send (env : Socket) (h : Trace AgentResp) (payload : Bytes) :
    (payload.length < 2 ^ 32 ∧ ∃ h', Returns env.answer (send payload) h (.ok ()) h' ∧
        written h' = written h ++ SshWire.string payload ∧ reads h' = reads h) ∨
      2 ^ 32 ≤ payload.length ∧ Returns env.answer (send payload) h (.error (signerError "agent msg too large")) h := by
  by_cases hlt : payload.length < 2 ^ 32
  · have h₁ : Returns env.answer (mapErr "ssh-agent write" (SshAgent.ask (.writeAll (beBytes 4 payload.length)))) h
        (.ok ()) (h ++ [⟨.writeAll (beBytes 4 payload.length), .ok ()⟩]) := returns_mapErr _ rfl
    have h₂ : Returns env.answer (mapErr "ssh-agent write" (SshAgent.ask (.writeAll payload)))
        (h ++ [⟨.writeAll (beBytes 4 payload.length), .ok ()⟩]) (.ok ())
        (h ++ [⟨.writeAll (beBytes 4 payload.length), .ok ()⟩] ++ [⟨.writeAll payload, .ok ()⟩]) :=
      returns_mapErr _ rfl
    have hsend := h₁.bind (f := fun _ => mapErr "ssh-agent write" (SshAgent.ask (.writeAll payload))) h₂
    refine .inl ⟨hlt, _, by rw [send, if_pos hlt]; exact hsend, ?_, ?_⟩
    · simp [written, SshWire.string, SshWire.u32]
    · simp [reads]
  · refine .inr ⟨Nat.not_lt.1 hlt, ?_⟩
    rw [send, if_neg hlt]
    rfl

/-- The bytes `b` begin with a frame that `recv` takes, whose payload is `resp`. -/
def Delivers (b resp : Bytes) : Prop :=
  (∃ rest, b = SshWire.string resp ++ rest) ∧ 1 ≤ resp.length ∧ resp.length ≤ MAX_AGENT_MSG

theorem Delivers.unique {b resp resp' : Bytes} (hd : Delivers b resp) (hd' : Delivers b resp') : resp = resp' := by
  have hmax : MAX_AGENT_MSG = 1048576 := rfl
  obtain ⟨⟨rest, rfl⟩, -, hle⟩ := hd
  obtain ⟨⟨rest', h'⟩, -, hle'⟩ := hd'
  exact (SshWire.string_append_inj (by omega) (by omega) h').1

/-- The header of a frame is the length of its payload. -/
private theorem Delivers.header {len body resp : Bytes} (hd : Delivers (len ++ body) resp) (hlen : len.length = 4) :
    resp.length = beNat len ∧ ∃ rest, body = resp ++ rest := by
  obtain ⟨⟨rest, he⟩, -, hle⟩ := hd
  have hmax : MAX_AGENT_MSG = 1048576 := rfl
  rw [SshWire.string, List.append_assoc] at he
  obtain ⟨he₁, he₂⟩ := List.append_inj he (by simp [hlen])
  rw [he₁, SshWire.u32, beNat_beBytes_of_lt (by omega)]
  exact ⟨rfl, rest, he₂⟩

private theorem exec_readExact {n : Nat} {buf rest : Bytes} (hn : buf.length = n)
    (hb : (env.answers (written h)).drop (reads h).length = buf ++ rest) :
    (SshAgent.ask (.readExact n)).exec env.answer h = (.ok ⟨buf, hn⟩, h ++ [⟨.readExact n, .ok ⟨buf, hn⟩⟩]) := by
  have ha : env.answer h (.readExact n) = .ok ⟨buf, hn⟩ := by
    have hle : n ≤ ((env.answers (written h)).drop (reads h).length).length := by
      rw [hb, List.length_append]
      omega
    have htake : ((env.answers (written h)).drop (reads h).length).take n = buf := by rw [hb, List.take_left' hn]
    simp only [answer]
    rw [dif_pos hle]
    exact congrArg Except.ok (Subtype.ext htake)
  simp [SshAgent.ask, call, ha]

private theorem exec_readExact_eof {n : Nat}
    (hb : ((env.answers (written h)).drop (reads h).length).length < n) :
    (SshAgent.ask (.readExact n)).exec env.answer h = (.error env.eof, h ++ [⟨.readExact n, .error env.eof⟩]) := by
  have ha : env.answer h (.readExact n) = .error env.eof := by
    simp only [answer]
    rw [dif_neg (Nat.not_le.2 hb)]
  simp [SshAgent.ask, call, ha]

/-- `recv` takes the payload of a frame of the permitted size, or fails. -/
theorem returns_recv (env : Socket) (h : Trace AgentResp) :
    (∃ resp h', Delivers ((env.answers (written h)).drop (reads h).length) resp ∧
        Returns env.answer recv h (.ok resp) h' ∧ written h' = written h) ∨
      (∀ resp, ¬ Delivers ((env.answers (written h)).drop (reads h).length) resp) ∧
        ∃ text h', Returns env.answer recv h (.error (signerError text)) h' ∧ written h' = written h := by
  generalize hb : (env.answers (written h)).drop (reads h).length = b
  by_cases h4 : 4 ≤ b.length
  · obtain ⟨len, body, hlen, rfl⟩ : ∃ len body : Bytes, len.length = 4 ∧ b = len ++ body :=
      ⟨b.take 4, b.drop 4, by simpa using h4, (List.take_append_drop 4 b).symm⟩
    have hlt : beNat len < 2 ^ 32 := by simpa [hlen] using beNat_lt len
    have hu32 : SshWire.u32 (beNat len) = len := beBytes_beNat hlen
    have h₁ := returns_mapErr "ssh-agent read" (exec_readExact hlen hb)
    have hw : written [⟨.readExact 4, .ok ⟨len, hlen⟩⟩] = [] := rfl
    by_cases hbad : beNat len = 0 ∨ beNat len > MAX_AGENT_MSG
    · have hrecv : Returns env.answer recv h (.error (signerError "ssh-agent: bad message length")) _ :=
        h₁.bind (by dsimp only; rw [if_pos hbad]; exact rfl)
      refine .inr ⟨?_, _, _, hrecv, by rw [written_append, hw, List.append_nil]⟩
      intro resp hd
      have := (hd.header hlen).1
      obtain ⟨-, h1, hle⟩ := hd
      omega
    · have hbuf : (env.answers (written (h ++ [⟨.readExact 4, .ok ⟨len, hlen⟩⟩]))).drop
          (reads (h ++ [⟨.readExact 4, .ok ⟨len, hlen⟩⟩])).length = body := by
        have hr : reads [⟨.readExact 4, .ok ⟨len, hlen⟩⟩] = len := by simp [reads]
        rw [written_append, reads_append, hw, hr, List.append_nil, List.length_append, ← List.drop_drop, hb,
          List.drop_left]
      by_cases hlong : beNat len ≤ body.length
      · have hn : (body.take (beNat len)).length = beNat len := List.length_take_of_le hlong
        have h₂ := returns_mapErr "ssh-agent read" (exec_readExact hn
          (hbuf.trans (List.take_append_drop (beNat len) body).symm))
        have hrecv : Returns env.answer recv h (.ok (body.take (beNat len))) _ :=
          h₁.bind (by dsimp only; rw [if_neg hbad]; exact h₂.bind rfl)
        refine .inl ⟨_, _, ⟨⟨body.drop (beNat len), ?_⟩, by omega, by omega⟩, hrecv, by simp [written]⟩
        rw [SshWire.string, hn, hu32, List.append_assoc, List.take_append_drop]
      · have h₂ := returns_mapErr_error (e := env.eof) "ssh-agent read"
          (exec_readExact_eof (n := beNat len) (by rw [hbuf]; omega))
        have hrecv : Returns env.answer recv h (.error _) _ :=
          h₁.bind (by dsimp only; rw [if_neg hbad]; exact h₂.bind_error)
        refine .inr ⟨?_, _, _, hrecv, by simp [written]⟩
        intro resp hd
        obtain ⟨hl, rest, rfl⟩ := hd.header hlen
        simp [← hl] at hlong
  · refine .inr ⟨?_, _, _, (returns_mapErr_error _ (exec_readExact_eof (by rw [hb]; omega))).bind_error, ?_⟩
    · rintro resp ⟨⟨rest, rfl⟩, -⟩
      simp only [List.length_append, SshWire.length_string] at h4
      omega
    · simp [written]

end Socket

/-! ### A key and a signature

A genuine pair: the signature is that of the empty message. -/

def testKey : ByteArr 32 := ⟨[
  0xd7, 0x5a, 0x98, 0x01, 0x82, 0xb1, 0x0a, 0xb7, 0xd5, 0x4b, 0xfe, 0xd3, 0xc9, 0x64, 0x07, 0x3a,
  0x0e, 0xe1, 0x72, 0xf3, 0xda, 0xa6, 0x23, 0x25, 0xaf, 0x02, 0x1a, 0x68, 0xf7, 0x07, 0x51, 0x1a], rfl⟩

def testSignature : ByteArr 64 := ⟨[
  0xe5, 0x56, 0x43, 0x00, 0xc3, 0x60, 0xac, 0x72, 0x90, 0x86, 0xe2, 0xcc, 0x80, 0x6e, 0x82, 0x8a,
  0x84, 0x87, 0x7f, 0x1e, 0xb8, 0xe5, 0xd9, 0x74, 0xd8, 0x73, 0xe0, 0x65, 0x22, 0x49, 0x01, 0x55,
  0x5f, 0xb8, 0x82, 0x15, 0x90, 0xa3, 0x3b, 0xac, 0xc6, 0x1e, 0x39, 0x70, 0x1c, 0xf9, 0xb4, 0x6b,
  0xd2, 0x5b, 0xf5, 0xf0, 0x59, 0x5b, 0xbe, 0x24, 0x65, 0x51, 0x41, 0x43, 0x8e, 0x7a, 0x10, 0x0b], rfl⟩

def testBlob : Bytes := SshWire.string ED25519_KEY_TYPE ++ SshWire.string testKey.val

/-- A key blob of another type, `ssh-rsa`. -/
def rsaBlob : Bytes := SshWire.string (ascii "ssh-rsa")

theorem isEd25519_testBlob : IsEd25519 testBlob testKey.val := ⟨[], (List.append_nil _).symm⟩

private theorem not_isEd25519_rsaBlob (body : Bytes) : ¬ IsEd25519 rsaBlob body := by
  rintro ⟨rest, h⟩
  have hlen := congrArg List.length h
  have hrsa : rsaBlob.length = 11 := by decide
  have htype : ED25519_KEY_TYPE.length = 11 := by decide
  simp only [List.length_append, SshWire.length_string, hrsa, htype] at hlen
  omega

/-! ### The sign request -/

/-- A sign request, read as RFC 4251 says: its kind, the key blob, the data, the flags, and what is left. -/
def readSignRequest (b : Bytes) : Option (UInt8 × Bytes × Bytes × Nat × Bytes) := do
  let (kind, b) ← SshWire.takeU8 b
  let (keyBlob, b) ← SshWire.takeString b
  let (data, b) ← SshWire.takeString b
  let (flags, b) ← SshWire.takeU32 b
  return (kind, keyBlob, data, flags, b)

end SshAgent

open SshAgent

namespace SshAgentSigner

variable {self : SshAgentSigner} {message : Bytes}

theorem length_signRequest (self : SshAgentSigner) (message : Bytes) :
    (self.signRequest message).length = 13 + self.keyBlob.length + message.length := by
  simp only [signRequest, putString, List.length_append, List.length_singleton, length_beBytes]
  omega

/-- The casts to `u32` lose nothing in a request that `send` accepts. -/
theorem signRequest_eq (hlt : (self.signRequest message).length < 2 ^ 32) :
    self.signRequest message =
      SIGN_REQUEST :: (SshWire.string self.keyBlob ++ (SshWire.string message ++ SshWire.u32 0)) := by
  rw [length_signRequest] at hlt
  rw [signRequest, putString, putString, Nat.mod_eq_of_lt (by omega), Nat.mod_eq_of_lt (by omega)]
  simp [SshWire.string, SshWire.u32]

theorem readSignRequest_signRequest (hlt : (self.signRequest message).length < 2 ^ 32) :
    readSignRequest (self.signRequest message) = some (SIGN_REQUEST, self.keyBlob, message, 0, []) := by
  have hlen := hlt
  rw [length_signRequest] at hlen
  have h₁ : SshWire.takeString (SshWire.string self.keyBlob ++ (SshWire.string message ++ SshWire.u32 0)) = _ :=
    SshWire.takeString_eq_some.2 ⟨by omega, rfl⟩
  have h₂ : SshWire.takeString (SshWire.string message ++ SshWire.u32 0) = _ :=
    SshWire.takeString_eq_some.2 ⟨by omega, rfl⟩
  have h₃ : SshWire.takeU32 (SshWire.u32 0) = some (0, []) := by
    rw [SshWire.takeU32_eq_some]
    simp
  simp [signRequest_eq hlt, readSignRequest, SshWire.takeU8, h₁, h₂, h₃]

/-- How a call of `sign` ends. -/
private theorem returns_sign (env : Socket) (self : SshAgentSigner) (message : Bytes) :
    ((env.connect ≠ .ok () ∨ 2 ^ 32 ≤ (self.signRequest message).length) ∧
        ∃ text h, Returns env.answer (self.sign message) [] (.error (signerError text)) h ∧ written h = []) ∨
      env.connect = .ok () ∧ (self.signRequest message).length < 2 ^ 32 ∧
        ∃ r h, Returns env.answer (self.sign message) [] r h ∧ written h = SshWire.string (self.signRequest message) ∧
          ((∃ resp, Socket.Delivers (env.answers (SshWire.string (self.signRequest message))) resp ∧
              r = signature.on resp) ∨
            (∀ resp, ¬ Socket.Delivers (env.answers (SshWire.string (self.signRequest message))) resp) ∧
              ∃ text, r = .error (signerError text)) := by
  rcases env.returns_connect self.sock with ⟨hc, h₁, hconn, hw₁, hr₁⟩ | ⟨⟨e, hc⟩, text, h₁, hconn, hw₁⟩
  · rcases env.returns_send h₁ (self.signRequest message) with ⟨hlt, h₂, hsend, hw₂, hr₂⟩ | ⟨hge, hsend⟩
    · rw [hw₁, List.nil_append] at hw₂
      have hb : (env.answers (written h₂)).drop (reads h₂).length =
          env.answers (SshWire.string (self.signRequest message)) := by
        rw [hw₂, hr₂, hr₁]
        rfl
      refine .inr ⟨hc, hlt, ?_⟩
      rcases env.returns_recv h₂ with ⟨resp, h₃, hd, hrecv, hw₃⟩ | ⟨hd, text, h₃, hrecv, hw₃⟩
      · rw [hb] at hd
        refine ⟨signature.on resp, h₃, hconn.bind (hsend.bind (hrecv.bind ?_)), hw₃.trans hw₂, .inl ⟨resp, hd, rfl⟩⟩
        cases signature.on resp with
        | ok raw => rfl
        | error f => rfl
      · rw [hb] at hd
        exact ⟨_, h₃, hconn.bind (hsend.bind hrecv.bind_error), hw₃.trans hw₂, .inr ⟨hd, text, rfl⟩⟩
    · exact .inl ⟨.inr hge, _, h₁, hconn.bind hsend.bind_error, hw₁⟩
  · exact .inl ⟨.inl (by simp [hc]), text, h₁, hconn.bind_error, hw₁⟩

/-- `sign` returns exactly the signature that the reply carries. -/
theorem sign_ok_iff {env : Socket} {raw : Bytes} :
    ((self.sign message).run.exec env.answer []).1 = .ok raw ↔
      env.connect = .ok () ∧ (self.signRequest message).length < 2 ^ 32 ∧
        ∃ resp, Socket.Delivers (env.answers (SshWire.string (self.signRequest message))) resp ∧ Signs resp raw := by
  have hmax : MAX_AGENT_MSG = 1048576 := rfl
  rcases returns_sign env self message with ⟨hno, text, h, hrun, -⟩ | ⟨hc, hlt, r, h, hrun, -, hr⟩
  · rw [show ((self.sign message).run.exec env.answer []).1 = _ from congrArg Prod.fst hrun]
    refine ⟨by simp, ?_⟩
    rintro ⟨hc, hlt, -⟩
    rcases hno with hno | hno
    · exact absurd hc hno
    · omega
  · rw [show ((self.sign message).run.exec env.answer []).1 = r from congrArg Prod.fst hrun]
    rcases hr with ⟨resp, hd, rfl⟩ | ⟨hd, text, rfl⟩
    · have honly : (∃ resp, Socket.Delivers (env.answers (SshWire.string (self.signRequest message))) resp ∧
          Signs resp raw) ↔ Signs resp raw := by
        constructor
        · rintro ⟨resp', hd', hs⟩
          exact hd'.unique hd ▸ hs
        · exact fun hs => ⟨resp, hd, hs⟩
      have hle := hd.2.2
      rw [honly]
      rcases signature_spec (show resp.length < 2 ^ 32 by omega) with ⟨raw', hsig, hs⟩ | ⟨text, hsig, hs⟩
      · rw [hsig, hs, Except.ok.injEq]
        exact ⟨fun he => ⟨hc, hlt, he.symm⟩, fun he => he.2.2.symm⟩
      · rw [hsig]
        simp [hs]
    · refine ⟨by simp, ?_⟩
      rintro ⟨-, -, resp, hd', -⟩
      exact absurd hd' (hd resp)

/-- `sign` fails and has written nothing, or it has written one frame which says exactly what it was given.  It returns
exactly the signature that the reply carries, and fails with an error if there is none. -/
theorem sign_request_and_reply (self : SshAgentSigner) (message : Bytes) (env : Socket) :
    let run := (self.sign message).run.exec env.answer []
    (((∃ text, run.1 = .error (signerError text)) ∧ written run.2 = []) ∨
      ∃ payload, written run.2 = SshWire.u32 payload.length ++ payload ∧ payload.length < 2 ^ 32 ∧
        readSignRequest payload = some (SIGN_REQUEST, self.keyBlob, message, 0, [])) ∧
    (∀ raw, run.1 = .ok raw ↔ env.connect = .ok () ∧ (self.signRequest message).length < 2 ^ 32 ∧
      ∃ n resp rest, env.answers (SshWire.u32 (self.signRequest message).length ++ self.signRequest message) =
          SshWire.u32 n ++ resp ++ rest ∧ resp.length = n ∧ 1 ≤ n ∧ n ≤ MAX_AGENT_MSG ∧ Signs resp raw) ∧
    ((∃ raw, run.1 = .ok raw) ∨ ∃ text, run.1 = .error (signerError text)) := by
  have hmax : MAX_AGENT_MSG = 1048576 := rfl
  intro run
  refine ⟨?_, ?_, ?_⟩
  · rcases returns_sign env self message with ⟨-, text, h, hrun, hw⟩ | ⟨-, hlt, r, h, hrun, hw, -⟩
    · exact .inl ⟨⟨text, congrArg Prod.fst hrun⟩, (congrArg (fun p => written p.2) hrun).trans hw⟩
    · exact .inr ⟨self.signRequest message, (congrArg (fun p => written p.2) hrun).trans hw, hlt,
        readSignRequest_signRequest hlt⟩
  · intro raw
    rw [sign_ok_iff]
    refine and_congr_right fun _ => and_congr_right fun _ => ?_
    constructor
    · rintro ⟨resp, ⟨⟨rest, he⟩, h1, hle⟩, hs⟩
      exact ⟨_, resp, rest, he, rfl, h1, hle, hs⟩
    · rintro ⟨_, resp, rest, he, rfl, h1, hle, hs⟩
      exact ⟨resp, ⟨⟨rest, he⟩, h1, hle⟩, hs⟩
  · rcases returns_sign env self message with ⟨-, text, h, hrun, -⟩ | ⟨-, -, r, h, hrun, -, hr⟩
    · exact .inr ⟨text, congrArg Prod.fst hrun⟩
    · have hrun : run.1 = r := congrArg Prod.fst hrun
      rw [hrun]
      rcases hr with ⟨resp, hd, rfl⟩ | ⟨-, text, rfl⟩
      · have hle := hd.2.2
        rcases signature_spec (show resp.length < 2 ^ 32 by omega) with ⟨raw, hsig, -⟩ | ⟨text, hsig, -⟩
        · exact .inl ⟨raw, hsig⟩
        · exact .inr ⟨text, hsig⟩
      · exact .inr ⟨text, rfl⟩

/-! ### Selecting an identity -/

/-- How a call of `connect` ends when `recv` returns `resp`. -/
private theorem returns_connect {env : Socket} (sock : String) (want : Option (ByteArr 32)) {resp : Bytes}
    (hc : env.connect = .ok ()) (hd : Socket.Delivers (env.answers (SshWire.string [REQUEST_IDENTITIES])) resp) :
    ((connect sock want).run.exec env.answer []).1 =
      ((select want).on resp).map fun p => ⟨sock, p.1, p.2⟩ := by
  rcases env.returns_connect sock with ⟨-, h₁, hconn, hw₁, hr₁⟩ | ⟨⟨e, hc'⟩, -⟩
  · rcases env.returns_send h₁ [REQUEST_IDENTITIES] with ⟨-, h₂, hsend, hw₂, hr₂⟩ | ⟨hge, -⟩
    · have hb : (env.answers (written h₂)).drop (reads h₂).length =
          env.answers (SshWire.string [REQUEST_IDENTITIES]) := by
        rw [hw₂, hr₂, hw₁, hr₁]
        rfl
      rcases env.returns_recv h₂ with ⟨resp', h₃, hd', hrecv, -⟩ | ⟨hno, -⟩
      · obtain rfl := (hb ▸ hd').unique hd
        have hrun : Returns env.answer (connect sock want) []
            (((select want).on resp').map fun p => ⟨sock, p.1, p.2⟩) h₃ := by
          refine hconn.bind (hsend.bind (hrecv.bind ?_))
          cases (select want).on resp' with
          | ok p => rfl
          | error f => rfl
        exact congrArg Prod.fst hrun
      · exact absurd (hb.symm ▸ hd) (hno resp)
    · simp at hge
  · simp [hc] at hc'

/-- `connect` selects the identity that the reply names. -/
private theorem connect_ok_iff {env : Socket} {sock : String} {want : Option (ByteArr 32)} {resp : Bytes}
    {s : SshAgentSigner} (hc : env.connect = .ok ())
    (hd : Socket.Delivers (env.answers (SshWire.string [REQUEST_IDENTITIES])) resp) :
    ((connect sock want).run.exec env.answer []).1 = .ok s ↔
      s.sock = sock ∧ Selects want resp s.keyBlob s.publicKey := by
  have hmax : MAX_AGENT_MSG = 1048576 := rfl
  have hle := hd.2.2
  rw [returns_connect sock want hc hd]
  rcases select_spec (show resp.length < 2 ^ 32 by omega) with ⟨keyBlob, pk, hsel, hs⟩ | ⟨text, hsel, hs⟩
  · rw [hsel, hs]
    obtain ⟨sock', kb, k⟩ := s
    simp only [Except.map, Except.ok.injEq, SshAgentSigner.mk.injEq]
    constructor
    · rintro ⟨rfl, rfl, rfl⟩
      exact ⟨rfl, rfl, rfl⟩
    · rintro ⟨rfl, rfl, rfl⟩
      exact ⟨rfl, rfl, rfl⟩
  · rw [hsel]
    simp [Except.map, hs]

/-- Whatever the reply, `connect` returns exactly the first identity that matches, with its whole blob and its key; it
fails with an error if there is none, and when the list breaks off before, however long it claims to be. -/
theorem connect_selects (sock : String) (want : Option (ByteArr 32)) (env : Socket) {resp : Bytes}
    (hc : env.connect = .ok ()) (hd : Socket.Delivers (env.answers (SshWire.string [REQUEST_IDENTITIES])) resp) :
    let result := ((connect sock want).run.exec env.answer []).1
    (∀ s, result = .ok s ↔ s.sock = sock ∧ Selects want resp s.keyBlob s.publicKey) ∧
    ((∃ s, result = .ok s) ∨ ∃ text, result = .error (signerError text)) ∧
    ∀ (count : Nat) (before : List (Bytes × Bytes)) (rest : Bytes), count < 2 ^ 32 →
      resp = IDENTITIES_ANSWER :: (SshWire.u32 count ++ (before.flatMap identity ++ rest)) → before.length < count →
      (∀ p ∈ before, ∀ pk, ¬ Matches want p.1 pk) → (∀ p rest', rest ≠ identity p ++ rest') →
      result = .error (signerError "ssh-agent: truncated message") := by
  have hmax : MAX_AGENT_MSG = 1048576 := rfl
  have hle := hd.2.2
  have hlen : resp.length < 2 ^ 32 := by omega
  intro result
  have hresult : result = _ := returns_connect sock want hc hd
  refine ⟨fun s => connect_ok_iff hc hd, ?_, ?_⟩
  · rw [hresult]
    rcases select_spec hlen with ⟨keyBlob, pk, hsel, -⟩ | ⟨text, hsel, -⟩
    · exact .inl ⟨_, by rw [hsel]; rfl⟩
    · exact .inr ⟨text, by rw [hsel]; rfl⟩
  · rintro count before rest hcount rfl hlt hn hrest
    rw [hresult, select_exhausted hlen hcount hlt hn hrest]
    rfl

/-- A key of another type is skipped, and neither the missing identities nor the bytes in their place matter. -/
theorem connect_selects_second :
    ((connect "agent.sock" none).run.exec (Socket.mk (.ok ()) (fun _ => SshWire.string (IDENTITIES_ANSWER ::
        (SshWire.u32 7 ++ (identity (rsaBlob, [114]) ++ identity (testBlob, []) ++ [255, 255])))) "eof").answer []).1 =
      .ok ⟨"agent.sock", testBlob, testKey⟩ := by
  have h := connect_selects "agent.sock" none (Socket.mk (.ok ()) (fun _ => SshWire.string (IDENTITIES_ANSWER ::
    (SshWire.u32 7 ++ (identity (rsaBlob, [114]) ++ identity (testBlob, []) ++ [255, 255])))) "eof") rfl
    ⟨⟨[], (List.append_nil _).symm⟩, by decide, by decide⟩
  refine (h.1 _).2 ⟨rfl, 7, _, by decide, rfl, [(rsaBlob, [114])], [], [255, 255], by simp, by decide,
    ⟨isEd25519_testBlob, by simp⟩, ?_⟩
  intro p hp pk hm
  obtain rfl := List.mem_singleton.1 hp
  exact not_isEd25519_rsaBlob _ hm.1

end SshAgentSigner

/-! ### From the agent to the verifier -/

/-- The roster after the given insertions. -/
def Roster.ofEntries (entries : List (Bytes × String)) : Roster :=
  entries.foldl (fun r e => r.insert e.1 e.2) Roster.new

namespace Roster

/-- The label of a key is the one it was last inserted with. -/
theorem label_ofEntries {before after : List (Bytes × String)} {key : Bytes} {l : String}
    (h : ∀ e ∈ after, e.1 ≠ key) : (ofEntries (before ++ (key, l) :: after)).label key = some l := by
  have hkeep : ∀ r : Roster, r.label key = some l →
      (after.foldl (fun r e => r.insert e.1 e.2) r).label key = some l := by
    induction after with
    | nil => exact fun r hr => hr
    | cons e after ih =>
      intro r hr
      refine ih (fun e' he' => h e' (by simp [he'])) _ ?_
      show (r.keys.insert e.1 e.2).lookup key = some l
      rw [AList.lookup_insert_ne (h e (by simp)).symm]
      exact hr
  rw [ofEntries, List.foldl_append, List.foldl_cons]
  exact hkeep _ (AList.lookup_insert _)

theorem contains_of_label {r : Roster} {key : Bytes} {l : String} (h : r.label key = some l) :
    r.contains key = true :=
  decide_eq_true (AList.lookup_isSome.1 (by rw [label] at h; simp [h]))

end Roster

/-- A valid signature is accepted under the label of its key. -/
theorem SshVerifier.verify_ok {c : Crypto} {self : SshVerifier} {pk : ByteArr 32} {vk : ByteArr 32} {message : Bytes}
    {sig : ByteArr 64} {l : String} (hl : self.roster.label pk.val = some l) (hpk : c.fromBytes pk = .ok vk)
    (hs : c.verifyStrict vk message sig = true) : self.verify c pk.val message sig.val = .ok l := by
  rw [verify, Roster.contains_of_label hl]
  simp [pk.property, sig.property, hpk, hs, hl]

namespace SshAgent

/-- The answer to a request for the identities. -/
def identitiesAnswer (ids : List (Bytes × Bytes)) : Bytes :=
  IDENTITIES_ANSWER :: (SshWire.u32 ids.length ++ ids.flatMap identity)

/-- The answer to a request to sign with an ed25519 key. -/
def signResponse (sig : Bytes) : Bytes :=
  SIGN_RESPONSE :: SshWire.string (SshWire.string ED25519_KEY_TYPE ++ SshWire.string sig)

/-- An agent that holds the keys of `ids`, each a key blob with a comment, and signs with `sig`.  What it sends is a
function of what it was sent. -/
structure FollowsProtocol (agent : Bytes → Bytes) (ids : List (Bytes × Bytes)) (sig : Bytes → Bytes → Bytes) :
    Prop where
  distinct : (ids.map (·.1)).Nodup
  identities : agent (SshWire.string [REQUEST_IDENTITIES]) = SshWire.string (identitiesAnswer ids)
  identities_small : (identitiesAnswer ids).length ≤ MAX_AGENT_MSG
  signs : ∀ p ∈ ids, ∀ pk : ByteArr 32, IsEd25519 p.1 pk.val → ∀ message request,
    request = SIGN_REQUEST :: (SshWire.string p.1 ++ (SshWire.string message ++ SshWire.u32 0)) →
    request.length < 2 ^ 32 → agent (SshWire.string request) = SshWire.string (signResponse (sig p.1 message))
  signs_small : ∀ p ∈ ids, ∀ message, (signResponse (sig p.1 message)).length ≤ MAX_AGENT_MSG

/-- The public keys of the agent decode, and its signatures are valid. -/
def SignsValidly (c : Crypto) (ids : List (Bytes × Bytes)) (sig : Bytes → Bytes → Bytes) : Prop :=
  ∀ p ∈ ids, ∀ pk : ByteArr 32, IsEd25519 p.1 pk.val → ∃ vk, c.fromBytes pk = .ok vk ∧
    ∀ message, ∃ hlen : (sig p.1 message).length = 64, c.verifyStrict vk message ⟨sig p.1 message, hlen⟩ = true

/-- An identity that can be read off the list is one of the list. -/
private theorem mem_of_lists {ids before : List (Bytes × Bytes)} {p : Bytes × Bytes} {rest : Bytes}
    (hlen : (ids.flatMap identity).length < 2 ^ 32) (hlt : before.length < ids.length)
    (h : ids.flatMap identity = before.flatMap identity ++ identity p ++ rest) : p ∈ ids := by
  induction ids generalizing before with
  | nil => simp at hlt
  | cons q ids ih =>
    rw [List.flatMap_cons] at h hlen
    cases before with
    | nil =>
      rw [List.flatMap_nil, List.nil_append] at h
      obtain ⟨rfl, -⟩ := identity_append_inj hlen rfl h
      exact List.mem_cons_self
    | cons q' before =>
      rw [List.flatMap_cons, List.append_assoc, List.append_assoc] at h
      obtain ⟨-, h'⟩ := identity_append_inj hlen rfl h
      have hlen' : (ids.flatMap identity).length < 2 ^ 32 := by
        rw [List.length_append] at hlen
        omega
      exact List.mem_cons_of_mem _ (ih hlen' (by simpa using hlt) (by rw [h', List.append_assoc]))

/-- `connect` returns a signer for one of the keys of the agent. -/
theorem FollowsProtocol.mem_of_connect {agent : Bytes → Bytes} {ids : List (Bytes × Bytes)}
    {sig : Bytes → Bytes → Bytes} (hp : FollowsProtocol agent ids sig) (eof : String) {sock : String}
    {want : Option (ByteArr 32)} {s : SshAgentSigner}
    (hs : ((SshAgentSigner.connect sock want).run.exec (Socket.mk (.ok ()) agent eof).answer []).1 = .ok s) :
    s.keyBlob ∈ ids.map (·.1) ∧ Matches want s.keyBlob s.publicKey := by
  have hmax : MAX_AGENT_MSG = 1048576 := rfl
  have hsmall := hp.identities_small
  have hd : Socket.Delivers (agent (SshWire.string [REQUEST_IDENTITIES])) (identitiesAnswer ids) :=
    ⟨⟨[], by rw [hp.identities, List.append_nil]⟩, by simp [identitiesAnswer], hsmall⟩
  obtain ⟨-, count, body, hcount, he, before, comment, rest, hbody, hlt, hm, -⟩ :=
    (SshAgentSigner.connect_ok_iff rfl hd).1 hs
  simp only [identitiesAnswer, List.length_cons, List.length_append, SshWire.length_u32] at hsmall
  have hids : ids.length ≤ (ids.flatMap identity).length := by
    clear * -
    induction ids with
    | nil => simp
    | cons p ids ih =>
      simp only [List.flatMap_cons, List.length_cons, List.length_append, identity, SshWire.length_string]
      omega
  have hu32 : SshWire.takeU32 (SshWire.u32 ids.length ++ ids.flatMap identity) = some (count, body) :=
    SshWire.takeU32_eq_some.2 ⟨hcount, (List.cons.inj he).2⟩
  rw [SshWire.takeU32_eq_some.2 ⟨by omega, rfl⟩] at hu32
  cases hu32
  exact ⟨List.mem_map_of_mem (mem_of_lists (by omega) hlt hbody), hm⟩

/-- An agent that follows the protocol signs for every key that it has offered. -/
theorem FollowsProtocol.sign_ok {agent : Bytes → Bytes} {ids : List (Bytes × Bytes)} {sig : Bytes → Bytes → Bytes}
    (hp : FollowsProtocol agent ids sig) (eof : String) {s : SshAgentSigner} {p : Bytes × Bytes} (hpm : p ∈ ids)
    (hkb : p.1 = s.keyBlob) (hed : IsEd25519 p.1 s.publicKey.val) {message : Bytes}
    (hlt : (s.signRequest message).length < 2 ^ 32) :
    ((s.sign message).run.exec (Socket.mk (.ok ()) agent eof).answer []).1 = .ok (sig p.1 message) := by
  have hanswer := hp.signs p hpm s.publicKey hed message _ (hkb ▸ SshAgentSigner.signRequest_eq hlt) hlt
  refine SshAgentSigner.sign_ok_iff.2 ⟨rfl, hlt, _, ⟨⟨[], hanswer.trans (List.append_nil _).symm⟩, ?_, ?_⟩, ?_⟩
  · simp [signResponse]
  · exact hp.signs_small p hpm message
  · exact ⟨SshWire.string ED25519_KEY_TYPE ++ SshWire.string (sig p.1 message), [],
      by rw [signResponse, List.append_nil], [], by rw [List.append_nil]⟩

end SshAgent

namespace SshAgentSigner

/-- With an agent that follows the protocol, what a signer returned by `connect` signs is accepted under its own key,
with the label the key was last given, by every roster that has the key, and by no other; and its key is the one that
was asked for. -/
theorem sign_verifies {agent : Bytes → Bytes} {ids : List (Bytes × Bytes)} {sig : Bytes → Bytes → Bytes} {c : Crypto}
    (hp : FollowsProtocol agent ids sig) (hk : SignsValidly c ids sig) (eof sock : String)
    (want : Option (ByteArr 32)) (s : SshAgentSigner)
    (hs : ((connect sock want).run.exec (Socket.mk (.ok ()) agent eof).answer []).1 = .ok s) (message : Bytes)
    (hlt : (s.signRequest message).length < 2 ^ 32) :
    (∃ signature, ((s.sign message).run.exec (Socket.mk (.ok ()) agent eof).answer []).1 = .ok signature ∧
      (∀ before after l, (∀ e ∈ after, e.1 ≠ s.verifyingKey) →
        SshVerifier.verify c ⟨.ofEntries (before ++ (s.verifyingKey, l) :: after)⟩ s.verifyingKey message signature =
          .ok l) ∧
      ∀ roster : Roster, roster.contains s.verifyingKey = false →
        SshVerifier.verify c ⟨roster⟩ s.verifyingKey message signature = .error .untrustedKey) ∧
    ∀ w, want = some w → s.verifyingKey = w.val := by
  obtain ⟨hmem, ⟨hed, hwant⟩⟩ := hp.mem_of_connect eof hs
  obtain ⟨p, hpm, hkb⟩ := List.mem_map.1 hmem
  rw [← hkb] at hed
  obtain ⟨vk, hvk, hvalid⟩ := hk p hpm s.publicKey hed
  obtain ⟨hsig, hstrict⟩ := hvalid message
  refine ⟨⟨sig p.1 message, hp.sign_ok eof hpm hkb hed hlt, ?_, ?_⟩, ?_⟩
  · intro before after l hafter
    exact SshVerifier.verify_ok (Roster.label_ofEntries hafter) hvk hstrict
  · intro roster hno
    rw [SshVerifier.verify, hno]
    rfl
  · rintro w rfl
    rw [hwant w rfl]
    rfl

/-- An agent with two keys, of which one is an ed25519 key. -/
theorem sign_verifies_testKey :
    let agent : Bytes → Bytes := fun b => if b = SshWire.string [REQUEST_IDENTITIES] then
      SshWire.string (identitiesAnswer [(rsaBlob, []), (testBlob, [97])])
      else SshWire.string (signResponse testSignature.val)
    let env := Socket.mk (.ok ()) agent "eof"
    let c : Crypto := ⟨fun _ _ _ _ => .ok false, .ok, fun _ _ sig => sig = testSignature⟩
    ∃ s signature, ((connect "agent.sock" (some testKey)).run.exec env.answer []).1 = .ok s ∧
      ((s.sign []).run.exec env.answer []).1 = .ok signature ∧
      SshVerifier.verify c ⟨.ofEntries [(testKey.val, "acme")]⟩ testKey.val [] signature = .ok "acme" := by
  intro agent env c
  have hp : FollowsProtocol agent [(rsaBlob, []), (testBlob, [97])] fun _ _ => testSignature.val :=
    { distinct := by decide
      identities := if_pos rfl
      identities_small := by decide
      signs := by
        rintro p hp pk hpk message request rfl -
        refine if_neg fun he => ?_
        have hlen := congrArg List.length he
        simp only [SshWire.length_string, List.length_cons, List.length_append, List.length_nil] at hlen
        omega
      signs_small := fun _ _ _ => by decide }
  have hk : SignsValidly c [(rsaBlob, []), (testBlob, [97])] fun _ _ => testSignature.val := by
    intro p hp pk hpk
    refine ⟨pk, rfl, fun message => ⟨testSignature.property, ?_⟩⟩
    show decide (testSignature = testSignature) = true
    decide
  have hs : ((connect "agent.sock" (some testKey)).run.exec env.answer []).1 =
      .ok ⟨"agent.sock", testBlob, testKey⟩ := by
    decide
  obtain ⟨⟨signature, hsig, hok, -⟩, hwant⟩ := sign_verifies hp hk "eof" "agent.sock" (some testKey) _ hs [] (by decide)
  exact ⟨_, signature, hs, hsig, hok [] [] "acme" (by simp)⟩

end SshAgentSigner

end IrohHydeAuth
