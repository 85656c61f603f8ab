import IrohHydeAuth.Basis.Mutex
import IrohHydeAuth.SshBackend

/-!
# The hyde signer

`signer.rs`.  The `hyde` crate is a parameter: its contexts, its wrapped keys and what it signs.  A `HydeSigner` is
shared by all the handshakes of an endpoint, each of which signs on a thread of its own through `sign_blocking`, so the
threads meet at the mutex of the signer.

* `HydeSigner.sign_linearizable`: they are served as if one after the other, and once hyde has panicked nobody is.
* `HydeSigner.sign_verifies_for_all`: each of them gets a signature over its own message, which a `HydeVerifier` with
  the key in its roster accepts.
-/

namespace IrohHydeAuth

open Process

inductive FallbackPolicy where
  | deny
  | software
  deriving DecidableEq, Repr

/-- The `hyde` crate, as far as signing goes. -/
structure Hyde where
  Context : Type
  WrappedSigningKey : Type
  /-- The field of a `WrappedSigningKey`. -/
  verifyingKey : WrappedSigningKey → Bytes
  autoDetect : FallbackPolicy → Except String Context
  generateSigningKey : Context → SigningAlgorithm → Except String (Context × WrappedSigningKey)
  /-- `HydeContext::sign`, which changes the context and may panic. -/
  sign : Context → WrappedSigningKey → Bytes → Exit Context (Except String Bytes)

/-- What the mutex of a signer protects. -/
structure Inner (hyde : Hyde) where
  ctx : hyde.Context
  key : hyde.WrappedSigningKey

/-- The critical section of `HydeSigner::sign`. -/
def Inner.sign {hyde : Hyde} (inner : Inner hyde) (message : Bytes) : Exit (Inner hyde) (Except String Bytes) :=
  match hyde.sign inner.ctx inner.key message with
  | .returned ctx r => .returned { inner with ctx } r
  | .panicked ctx text => .panicked { inner with ctx } text

/-- A signer, with the calls that are under way. -/
structure HydeSigner (hyde : Hyde) where
  inner : Mutex (Inner hyde) Bytes (Except String Bytes)
  verifyingKey : Bytes

namespace HydeSigner

variable {hyde : Hyde}

def fromParts (ctx : hyde.Context) (key : hyde.WrappedSigningKey) : HydeSigner hyde :=
  ⟨Mutex.new ⟨ctx, key⟩, hyde.verifyingKey key⟩

def generate (hyde : Hyde) (fallback : FallbackPolicy) : Except Error (HydeSigner hyde) := do
  let ctx ← (hyde.autoDetect fallback).mapError .signer
  let (ctx, key) ← (hyde.generateSigningKey ctx .mlDsa65).mapError .signer
  return fromParts ctx key

/-- How `sign` ends on the thread that called it: it returns, or it panics. -/
def sign : Outcome (Except String Bytes) → Except String (Except Error Bytes)
  | .value r => .ok (r.mapError .signer)
  | .poisoned => .ok (.error (.signer "signer mutex poisoned"))
  | .panic e => .error e

/-- `sign_blocking`, which joins the thread. -/
def signBlocking (out : Outcome (Except String Bytes)) : Except Error Bytes :=
  match sign out with
  | .ok r => r
  | .error e => .error (.signer ("signing task failed: " ++ e))

/-- Calls from any number of threads. -/
def run (self : HydeSigner hyde) (acts : List (Mutex.Act Bytes)) : Option (HydeSigner hyde) :=
  (self.inner.run Inner.sign acts).map fun inner => { self with inner }

/-- One thread gets on. -/
def step (self : HydeSigner hyde) (act : Mutex.Act Bytes) : Option (HydeSigner hyde) :=
  (self.inner.step Inner.sign act).map fun inner => { self with inner }

variable {ctx : hyde.Context} {key : hyde.WrappedSigningKey} {signer signer' : HydeSigner hyde}
  {acts : List (Mutex.Act Bytes)}

theorem run_snoc {first : HydeSigner hyde} {act : Mutex.Act Bytes} (h : first.run acts = some signer)
    (hstep : signer.step act = some signer') : first.run (acts ++ [act]) = some signer' := by
  obtain ⟨inner, hrun, rfl⟩ := Option.map_eq_some_iff.1 h
  obtain ⟨inner', hinner, rfl⟩ := Option.map_eq_some_iff.1 hstep
  simp only [run, Mutex.run, List.foldlM_append] at hrun ⊢
  rw [hrun]
  show Option.map _ (List.foldlM (Mutex.step Inner.sign) inner [act]) = _
  rw [List.foldlM_cons]
  dsimp only at hinner
  rw [hinner]
  rfl

theorem run_fromParts (h : (fromParts ctx key).run acts = some signer) :
    (Mutex.new ⟨ctx, key⟩).run Inner.sign acts = some signer.inner ∧ signer.verifyingKey = hyde.verifyingKey key := by
  obtain ⟨inner, hrun, rfl⟩ := Option.map_eq_some_iff.1 h
  exact ⟨hrun, rfl⟩

theorem step_call {message : Bytes} (h : signer.step (.call message) = some signer') :
    signer'.inner.calls = signer.inner.calls ++ [message] ∧ signer'.inner.results = signer.inner.results := by
  obtain ⟨inner, hinner, rfl⟩ := Option.map_eq_some_iff.1 h
  cases hinner
  exact ⟨rfl, rfl⟩

theorem calls_prefix {act : Mutex.Act Bytes} (h : signer.step act = some signer') :
    signer.inner.calls <+: signer'.inner.calls := by
  obtain ⟨inner, hinner, rfl⟩ := Option.map_eq_some_iff.1 h
  exact Mutex.calls_prefix hinner

theorem poisoned_step {act : Mutex.Act Bytes} (hp : signer.inner.poisoned = true)
    (h : signer.step act = some signer') :
    signer'.inner.poisoned = true ∧ ∀ r ∈ signer'.inner.results, r ∈ signer.inner.results ∨ r.2 = .poisoned := by
  obtain ⟨inner, hinner, rfl⟩ := Option.map_eq_some_iff.1 h
  exact Mutex.poisoned_step hp hinner

/-- Only callers are served. -/
theorem lt_of_result (h : (fromParts ctx key).run acts = some signer) {i : Nat} {out : Outcome (Except String Bytes)}
    (hout : (i, out) ∈ signer.inner.results) : i < signer.inner.calls.length := by
  have hm := Mutex.linearizable (run_fromParts h).1
  refine hm.bound i ?_
  rw [hm.order]
  exact List.mem_append_left _ (List.mem_map_of_mem hout)

/-! ### One thread after the other -/

/-- What one thread gets that signs one message after the other: whatever hyde answers, up to the call that panics. -/
def signAll : Inner hyde → List Bytes → List (Except Error Bytes)
  | _, [] => []
  | inner, message :: messages =>
    match inner.sign message with
    | .returned inner r => r.mapError .signer :: signAll inner messages
    | .panicked _ e =>
      .error (.signer ("signing task failed: " ++ e)) :: messages.map fun _ => .error (.signer "signer mutex poisoned")

private theorem serial_poisoned (inner : Inner hyde) (messages : List Bytes) :
    (Mutex.serial Inner.sign (inner, true) messages).2.map signBlocking =
      messages.map fun _ => .error (.signer "signer mutex poisoned") := by
  induction messages with
  | nil => rfl
  | cons message messages ih => exact congrArg _ ih

theorem serial_eq_signAll (inner : Inner hyde) (messages : List Bytes) :
    (Mutex.serial Inner.sign (inner, false) messages).2.map signBlocking = signAll inner messages := by
  induction messages generalizing inner with
  | nil => rfl
  | cons message messages ih =>
    have hcons : (Mutex.serial Inner.sign (inner, false) (message :: messages)).2 =
        (Mutex.enter Inner.sign (inner, false) message).2 ::
          (Mutex.serial Inner.sign (Mutex.enter Inner.sign (inner, false) message).1 messages).2 := rfl
    rw [hcons, List.map_cons, signAll]
    simp only [Mutex.enter, Bool.false_eq_true, if_false]
    cases inner.sign message with
    | returned inner' r => exact congrArg _ (ih inner')
    | panicked inner' e => exact congrArg _ (serial_poisoned inner' messages)

/-- Each thread that has returned from the lock called with a message. -/
private theorem exists_served {body : Inner hyde → Bytes → Exit (Inner hyde) (Except String Bytes)}
    {s : Inner hyde} {m : Mutex (Inner hyde) Bytes (Except String Bytes)} (hm : m.Linear body s) :
    m.results.map (fun r => m.calls[r.1]?) = m.served.map some := by
  have hbound : ∀ r ∈ m.results, ∃ a, m.calls[r.1]? = some a := by
    intro r hr
    have hlt : r.1 < m.calls.length := hm.bound r.1 (by rw [hm.order]; simp [List.mem_map_of_mem hr])
    exact ⟨_, List.getElem?_eq_getElem hlt⟩
  rw [Mutex.served]
  generalize m.results = results at hbound
  induction results with
  | nil => rfl
  | cons r results ih =>
    obtain ⟨a, ha⟩ := hbound r List.mem_cons_self
    rw [List.map_cons, List.filterMap_cons, ha, ih fun r hr => hbound r (List.mem_cons_of_mem _ hr), List.map_cons]

/-- However the threads that share a signer run, no thread gets the lock twice, and the threads that have let go of it
got what one thread would have got that signs their messages in the order of the lock.  So once hyde has panicked under
one of them all others are told that the mutex is poisoned. -/
theorem sign_linearizable (h : (fromParts ctx key).run acts = some signer) :
    signer.verifyingKey = hyde.verifyingKey key ∧ signer.inner.locked.Nodup ∧
      signer.inner.locked = signer.inner.results.map (·.1) ++ signer.inner.holder.toList ∧
      ∃ messages, (signer.inner.results.map fun r => signer.inner.calls[r.1]?) = messages.map some ∧
        (signer.inner.results.map fun r => signBlocking r.2) = signAll ⟨ctx, key⟩ messages := by
  obtain ⟨hrun, hkey⟩ := run_fromParts h
  have hm := Mutex.linearizable hrun
  refine ⟨hkey, hm.nodup, hm.order, signer.inner.served, exists_served hm, ?_⟩
  rw [← serial_eq_signAll, hm.serial, List.map_map]
  rfl

/-- A hyde that counts its signatures.  It signs by repeating the message behind its key, and it panics at an empty
message. -/
def counting : Hyde where
  Context := Nat
  WrappedSigningKey := Bytes
  verifyingKey := id
  autoDetect
    | .software => .ok 0
    | .deny => .error "no TEE"
  generateSigningKey ctx _ := .ok (ctx, [3])
  sign ctx key message :=
    if message.isEmpty then .panicked ctx "panicked" else .returned (ctx + 1) (.ok (key ++ message))

/-- Three threads, of which the second one to get the lock makes hyde panic. -/
def crowd : List (Mutex.Act Bytes) :=
  [.call [1], .call [], .lock 0, .call [2], .unlock, .lock 1, .unlock, .lock 2, .unlock]

/-- What they leave behind. -/
def served : HydeSigner counting where
  inner := {
    data := ⟨(1 : Nat), [3]⟩
    poisoned := true
    holder := none
    calls := [[1], [], [2]]
    locked := [0, 1, 2]
    results := [(0, .value (.ok [3, 1])), (1, .panic "panicked"), (2, .poisoned)] }
  verifyingKey := [3]

theorem crowd_linearizable : (@fromParts counting (0 : Nat) [3]).run crowd = some served ∧
    ∃ messages, messages = [[1], [], [2]] ∧
      (served.inner.results.map fun r => signBlocking r.2) = @signAll counting ⟨(0 : Nat), [3]⟩ messages := by
  have hrun : (@fromParts counting (0 : Nat) [3]).run crowd = some served := rfl
  obtain ⟨-, -, -, messages, hserved, hresults⟩ := sign_linearizable hrun
  have hmessages : [[1], [], [2]].map some = messages.map some := hserved
  exact ⟨hrun, messages, (List.map_injective_iff.2 (Option.some_injective _) hmessages).symm, hresults⟩

/-! ### From the signer to the verifier -/

/-- What a key generated for ML-DSA-65 signs verifies under its verifying key. -/
def Hyde.SignsValidly (hyde : Hyde) (c : Crypto) : Prop :=
  ∀ ctx₀ ctx key, hyde.generateSigningKey ctx₀ .mlDsa65 = .ok (ctx, key) → ∀ ctx₁ ctx₂ message sig,
    hyde.sign ctx₁ key message = .returned ctx₂ (.ok sig) →
      c.verifySignature .mlDsa65 (hyde.verifyingKey key) message sig = .ok true

theorem generate_ok {fallback : FallbackPolicy} (h : generate hyde fallback = .ok signer) :
    ∃ ctx₀ ctx key, hyde.generateSigningKey ctx₀ .mlDsa65 = .ok (ctx, key) ∧ signer = fromParts ctx key := by
  rw [generate] at h
  cases hd : hyde.autoDetect fallback with
  | error e =>
    rw [hd] at h
    cases h
  | ok ctx₀ =>
    cases hg : hyde.generateSigningKey ctx₀ .mlDsa65 with
    | error e =>
      rw [hd] at h
      simp [Except.mapError, hg, bind, Except.bind] at h
    | ok p =>
      rw [hd] at h
      simp only [Except.mapError, hg, bind, Except.bind] at h
      exact ⟨ctx₀, p.1, p.2, hg, (Except.ok.inj h).symm⟩

/-- The key of a signer stays the same. -/
private theorem enter_key (st : Inner hyde × Bool) (message : Bytes) (hkey : st.1.key = key) :
    (Mutex.enter Inner.sign st message).1.1.key = key := by
  rw [Mutex.enter]
  split
  · exact hkey
  · rw [Inner.sign]
    cases hyde.sign st.1.ctx st.1.key message with
    | returned ctx r => exact hkey
    | panicked ctx e => exact hkey

/-- A thread that gets a signature got it from hyde, for its message. -/
private theorem enter_signature {st : Inner hyde × Bool} {message sig : Bytes}
    (hs : signBlocking (Mutex.enter Inner.sign st message).2 = .ok sig) :
    ∃ ctx, hyde.sign st.1.ctx st.1.key message = .returned ctx (.ok sig) := by
  rw [Mutex.enter] at hs
  split at hs
  · cases hs
  · rw [Inner.sign] at hs
    cases hh : hyde.sign st.1.ctx st.1.key message with
    | panicked ctx e =>
      rw [hh] at hs
      cases hs
    | returned ctx r =>
      rw [hh] at hs
      cases r with
      | error e => cases hs
      | ok sig' =>
        cases hs
        exact ⟨ctx, rfl⟩

/-- A thread that is given a signature is given what hyde signed under the key of the signer, for the message of that
thread. -/
theorem signed_of_result (h : (fromParts ctx key).run acts = some signer) {i : Nat} {message sig : Bytes}
    {out : Outcome (Except String Bytes)} (hcall : signer.inner.calls[i]? = some message)
    (hout : (i, out) ∈ signer.inner.results) (hsig : signBlocking out = .ok sig) :
    ∃ ctx₁ ctx₂, hyde.sign ctx₁ key message = .returned ctx₂ (.ok sig) := by
  obtain ⟨hrun, -⟩ := run_fromParts h
  obtain ⟨-, hserved⟩ := Mutex.served_itself (P := fun inner : Inner hyde => inner.key = key) rfl enter_key hrun
  obtain ⟨message', st, hcall', hst, he⟩ := hserved _ hout
  obtain rfl : message' = message := Option.some.inj (hcall'.symm.trans hcall)
  dsimp only at he
  rw [he] at hsig
  obtain ⟨ctx', hsign⟩ := enter_signature hsig
  exact ⟨_, ctx', hst ▸ hsign⟩

/-- However the threads that share a generated signer run, a thread that is given a signature is given one over the
message it called with, and every verifier whose roster has the key of the signer accepts it, under the label of the
key. -/
theorem sign_verifies_for_all {c : Crypto} (hvalid : Hyde.SignsValidly hyde c) {fallback : FallbackPolicy}
    {generated : HydeSigner hyde} (hg : generate hyde fallback = .ok generated)
    (h : generated.run acts = some signer) {i : Nat} {message sig : Bytes} {out : Outcome (Except String Bytes)}
    (hcall : signer.inner.calls[i]? = some message) (hout : (i, out) ∈ signer.inner.results)
    (hsig : signBlocking out = .ok sig) {roster : Roster} {label : String}
    (hlabel : roster.label signer.verifyingKey = some label) :
    (HydeVerifier.new roster).verify c signer.verifyingKey message sig = .ok label := by
  obtain ⟨ctx₀, ctx, key, hgen, rfl⟩ := generate_ok hg
  obtain ⟨-, hkey⟩ := run_fromParts h
  obtain ⟨ctx₁, ctx₂, hsign⟩ := signed_of_result h hcall hout hsig
  have hverify := hvalid _ _ _ hgen _ _ _ _ hsign
  rw [← hkey] at hverify
  simp [HydeVerifier.verify, HydeVerifier.new, Roster.contains_of_label hlabel, hverify, hlabel]

section MlDsa65

/-- A byte string of `len` bytes, in pieces of 48 bytes. -/
private def ofChunks (len : Nat) (chunks : List Nat) : Bytes :=
  beBytes len (chunks.foldl (fun acc chunk => acc * 2 ^ 384 + chunk) 0)

/-- An ML-DSA-65 key, of the seed `00 01 .. 1f`. -/
def mlDsa65Key : Bytes := ofChunks 1952 [
  0x48683d91978e31eb3dddb8b0473482d2b88a5f625949fd8f58a561e696bd4c27,
  0xd05b38dbb2edf01e664efd81be1ea893688ce68aa2d51c5958f8bbc6eb4e89ee67d2c0320954d57212cac7229ff1d6ea,
  0xf03928bd51511f8d88d847736c7de2730d5978e5410713160978867711bf5539a0bfc4c350c2be572baf0ee2e2fb16cc,
  0xfea08028d99ac49aebb75937ddce111cdab62fff3cea8ba2233d1e56fbc5c5a1e726de63fadd2af016b119177fa3d971,
  0xa2d9277173fce55b67745af0b7c21d597dbeb93e6a32f341c49a5a8be9e825088d1f2aa45155d6c8ae15367e4eb003b8,
  0xfdf7851071949739f9fff09023eaf45104d2a84a45906eed4671a44dc28d27987bb55df69e9e8561f61a80a726995038,
  0x65fed9b7ee72a8e17a19c408144f4b29afef7031c3a6d8571610b42c9f421245a88f197e16812b031159b65b9687e5b3,
  0xe934c5225ae98a79ba73d2b399d73510effad19e53b8450f0ba8fce1012fd98d260a74aaaa13fae249a006b1c34f5ba0,
  0xb882f26378222fb36f2283c243f0ffeb5f1bb414a0a70d55e3d40a56b6cbc88ae1f03b7b2882d98deea28e145c9dedfd,
  0x8eaf1cef2ed94a8b050f8964f46d1ea0d0c2a43e0dda6182adbf4f6ed175b6742257859bf22f3a417ecf1f9d89317b5e,
  0x539d587af16b9e1313e04514ffa64ba8b3ff2b8321f8811cb3fb022c8f644e70a4b80a2fbfee604abb7379091ea8e6c5,
  0xc74dfc0283666b40c0793870028204a136bf5da9568eb798d349038bdb0c11e03445e7847cb5069c75cf28ac601c7799,
  0xd958210ddbcb226e51afef9f1de47b073873d6d3f97456bede085082e74a298b2cd48f4b3093155f366c8fa601c6af85,
  0x8dfa32c08491b2a29887f90335949a5d6edaa679882a3a95d6bf6d970a221f4b9d3d8cbf384af81aac95e2b3294e0478,
  0x9ac83727a5dc04559f96af41d8a053516feeeebc52746eb6ab2819e09108710d835f011fa63065872ad334d5cdffb2b2,
  0x310507e92fc993ae317da97f4f309cdaf0f67ed99d90215576083849f953b246d7fedb3fdb67679850a5ad404e64147f,
  0xb7cf4f6aeddd05afb4b834968d1fe88014960dce5d942236526e12a478d69e5fbe6970310b308c06845018cfc7b2ab43,
  0x0a13a6b1ac7bb02cccbb3d911ac2f11068613fbe029bfdce02cf5cd38950ed72c83944edfbc75615af87f864c051f3c5,
  0x5456c5412863a40c06d1dab562bdff0571b8d3c3917bbd300880bba5e998239b95fa91b7d6416d4f398b3adbcd30983e,
  0xd3592b4d9ef7d4236fd00f50d98aa53a235ac4172720f77d96172672980cfe8ff7a5a702783edc2ba31b2259015a112f,
  0xc7f468a9c2f9464039002d30ef678b4cb798bc116216bf7a9a7c18ba03b7b58fd07515d3115049d3614be7a07e744300,
  0x750df1d2c58753389059eafc3d785ccdd31c07648bedc03a5c3b8ad46d064d59c13d57374729fc4e295362e2a5191204,
  0x530428bc1522afa28ff5fe1655e304ca5bc8c27ad0e0c6a39dd4df28956c14b38cc93682cefe402bbd5e82d29c464e44,
  0xeb5d37b48fc568dfe0cc6e8e16baea05e5135590f19294e73e8367b0216dbb815030b9de55913f08039c42351c59e551,
  0x5dd5af8e089a15e625e8f6dee639386c46497d7a263288774de581a7de9629b41b4424141f978fb8331208efdec3c6e0,
  0xde39bc57063f3dcd6c470373c08891ea29cbc7cc6d6483b8889083ace86aa7b51b1c2cfe6e2ad18d97ce36fbc56ea42f,
  0xae97e6a7ac114864478c366df1ebb1e7b11a9098504fd5975bdf1f49dc70002b63c1739a9d263fbad4073f6a9f6c2b8a,
  0xf4b4c332a103a0cffa5deeb2d062ca3c215fd360026be7c5164f4a4424ef74948804d66f46487732c8202c795478647b,
  0x4ea71d627c086024cca354a41f0877b38f19b3774ad2095c8da53b069e21c76ae2d2007e16719ed40080d334f7da52e9,
  0xf5a5990439caf083a95b833f02ad10a08c1a6d0f260c007285bd4a2f47703a5aef465287d253b18ac22514316210ff56,
  0x6814b10f87a293d6f199d3c3959990d0c1268b4f50d5f9fcefbbf237bd0c28b80182d6659741f14f10bfbb21bba12ab6,
  0x20aa2396f56c0686b4ea9017990224216b2fe8ad76c4a9148eef9a86a3635a6aa77bc1dcfb6fba59a77dfda9b7530dc0,
  0xca8648c8d973738e01bab8f08b4905e84aa4641bd602410cd97520265f2f231f2b35e15eb2fa04d2bd94d5a77abaf1e0,
  0xe161010a990087f5b46ea988b2bc0512fda0fa923dadd6c45c5301d09483673265b5ab2e10f4ba520f6bbad564a5c3d5,
  0xe27bdb080f7d20e13296a3181954c39c649c943ebe17df5c1f7aae0a8fe126c477585a5d4d648a0d008b6af5e8cd31be,
  0x69a9296d4f3fd25ed86f221e4b93f65f5929967533624b9235750c30707550b58536d109a7131c5a5bbe4a5715567c12,
  0x534aec7660761eebb9fae2891c774589b80e566ad557ddef7367196b7227ea9870ef09ddfec79d6b9319a6879b5205d7,
  0x6bf7aba5acf33afb59d17fc54e68383d6be5a08e9b66da53dcde008bb294b8582bd132cdcc49959fdbc21e52721880c8,
  0xad0352c79f03a43bbd84c4cdfdc6c529005e1e7cd9a349a7168a35569ba5dea818968d5a91466bd6e64e20bf62417198,
  0xafc4e81c28dd77ed4028232398b52fbde86bc84f475b9016710ce2aabc11a06b4dbac901ec16cf365ca3f2d53813948a,
  0x693a0f93e79c46ca5d5a6dca3d28ca50ad18bd13fca55059dd9b185f79f9c47196a4e81b2104bc460a051e02f2e8444f]

/-- What it signs for the message `[1]`, with the empty context and without randomness. -/
def mlDsa65Signature : Bytes := ofChunks 3309 [
  0xf7674b7bada19823007828394e68e5b504f9c8a677e9bf1614aba0ee3fe9e9299f03aafbb82816a153000b813d,
  0x499108a6daf54372ba3339ae05bb725fe0fe61f817be861d3dfddbb4bb9c68275b8da08d08d1b34e051a100d8612e9b8,
  0x5deec9e5906286b016b250772df061fecf42df6dd04a622632c13b1175b5b3c645e28581f74a384942936c06aa77c65f,
  0x4f02ede26f95844aac230b2d2af05653a4245d48f15987fc61c5a58cf7d223ea3f374520c1144cafc245c8ee0ce9c15b,
  0x5bf003c89bd46cf2d13adecda68ce3bcb12acdf3bd396ab07724c895d987105787585ac3b02fe827097c6b204d83da1a,
  0xf365a59fac87b2887cd35ff2942123921b307d07cd41887bd204236ca1ee1c6125bad9db9b393b88f3875aeffee89ef1,
  0xc7e3f6219ef04219903028be2b075c1b0fa1fb7d5db3f7a136e3f02d18662ce0146627f85d94a97bb091c8b6ce608f98,
  0x1bb6e9de3f6ca14916a192092e2bcbf155f2c33927c6bc6018473ee948f03e688d27165eaecba3808d26ff80aa405dbf,
  0x56041cb692b6102bb52af0795dd3f2f9026de29f07a294c7037df32ba122917ca9e0039bb57ff56d78d250c604dbce47,
  0xfea545bd46d0f64d1b48ed1e1b3819cd52af1b87f045005efd88a504b545aad07095498ed6c93c32a5692e400def8f78,
  0xaac1170679655d360c21cf8cbd1183a501db8c582d19dd23e239df787de0cbf9fe53735e8a0ac6c2fb42daacec46fa82,
  0xdb4ee3ff84b81e10bb1397874db3357183566a23d081d12f86994caa001a115940b44deceee5cf38a8ea2c1d61dbb4f9,
  0xcc6ba001dd97732e83e7f79a325abe528d520aeb6876e5fef72522a15d12658e8b4103fe87e96686d02e219911092bd5,
  0x1f2c89f5c8ba46f2ab5e5a05091ecaaab0da96f1bd387a6dd82b17b680012faf1280d687eb45f16504e7ed64b694d186,
  0xa8a81febd9138950018367a71650815367063b5d3aa79369d1787f1ade493418fd97e56035f3bf6d6962bb8432825375,
  0xd814c561c6e792344c0b4757f9fb32d56affb59f2c5e75643dbcde4ed05affb9168d0f090e749860783fc80105d9d265,
  0xe83e3eb1bd8991fd1228527a419eafce6d7056362e678c847e033ad1999ba1d3647cb39dc760349133f9a7f8da04234c,
  0x8e4cc976f9699d0b657f3392192db826cc37cf1058bda0a6f81261125e898db9e14ea945b956f675cb594627adcf5726,
  0xe72c55a554e1b9e6332567072bfeb134c38a361d32839f2c55247011dd63e8f4fbe5ab52cce8168ff3304a4b407b4e43,
  0x807eddbbe3f3939389490ed9b5f4ec1b6ca24f148192e5ae2bc00bb140975bca602e0636f88af361613e4f8548648b02,
  0xc10f6b54ef4874ace82706a8a87d9d9e0521f17fdd39ed50d09649638d0f58f03ab3d3c7b57fa1a7eff16c630bd129d4,
  0x7a4c15ec412a324fb92f197a6d49e45853acd0200e80dc71f7f4fd3fb4b159c76b75c834daadba15b363415b0ddfeaaa,
  0xab64499a7f5e47e08f7be36c77b57d5ae60b9ab99b49353e7117a7b5663edf7606f1abc79bb87e8a23606ad09cf02cd8,
  0xb91770907a75b9ac3bbb9f49bb6db5b9ffbe9309733d36c743fd85262dd3242e3c56d0c19cd75811c8e10830fecb7e71,
  0x26297228ba8e6a808f27359fcec84f3ec7fcb3aabcb93c017efd077988052a35675ccc961dcfb34027daa13f54603295,
  0x4660627e8eecd889383c1ee2b4b4fa0e615b1ef36577dabc7b25026de95254cfcbcf0fef634a799a46d9431aee1c4928,
  0xb1059d1cb0b3cd6c9824bcf0fc1b3a19ee39aff96a4e035207239017982d43c2225e3545adbab7fbc79af0b3374af206,
  0xfcec89c3a463acabd934230ec9ea2b918aac91591b60d8f212e6e93d017c7118754afe394fcda3dee1af5c7fb9f3ae28,
  0x1caa934c1d5a7db88b53cdfbf5e4febd6df153607b280d32b45cabfbd52b523e0c017d6ce9d7ce178e822dbde54f1115,
  0x67029edb3d4f53c62345da099ae4e12f1ca48c524e4c56de8e460264422c96ae51b8416df9e7fbc17f9d2b1e397800e8,
  0x00504b273db48b58a6e176b4a2ba7b3264f4fff132eef2133b112aa8535368374ff0c26276f7d27ff08ad6acd499eb30,
  0xa6a419ed8c48ce89b7848bb98c0639560973aa256b08427fe6baf82abf344211a879e246773f0517662fea39d30d33c5,
  0xc177362f89f99fe5dfe184a2dd64e517b0692fc6b26034118d7972c29141596ee1226b5237a19ed506bba816194cf1f9,
  0x6b8a09eb4658e1e3939c1c7cf9b581c18ace75c7f66363c8a28070d9ca378a4e65b38d9a7ec6cd5556a87509936c03a4,
  0x919cb5968fd9c03ffa3111c7daaa65341bfc40eb3ac0556a3ce3c3e61c51b4bd58bcbfbd344350271cb50c396016f2a6,
  0xf600679780779278bfb6891453125d0063c2f3f7b5747fc7d29ad5497b266e3ba66e4f8931e6d3e2e66eb5be2d734622,
  0xc16fadaa0d92d02a47b600f9a83993cbb108aa6d203e8452929c46c1d733529d94692ce8a390cd6744b0492f630968cb,
  0xa081bb6c0f0010312a02245a10062213f52b3ca53cad6e9c5e9114059c0785d55a50291eac2c5c8d961a724115bc22a5,
  0x7b346643c6ddc85c6d8c461014ca434a61cbba82a89c7dce92b719f8de2555e12a780a4939667dd94738778cdf999699,
  0x2007b9249b3cb742c5ddc32af4221dd05cf934a22b7e22d75e85c5b62d16e621330d2efa0875e3ba21bf8a47edf2a648,
  0x0a311712b283a18920fa4860217c7ebca789aa2a0fc751749f32da2f3614d9e5133a1bda149f5f06eecc482435cd87c1,
  0x57e3769ede9bd67ef473247949b4a37597edcbb8ed98144d39378f9c3b0f57b30ec727fddce4a99287bdb498941a510c,
  0x5115d38423ec911c5db3e98b341318ca8a79321513503e684f0d090278282a3c31bb1d11aa081f48c4e536a0c240194e,
  0xc35af5c49257d999a4b0bdcd7dea9956e4158ff608ab79862e9e2b4b84651d797a15ccf565a775e3cc3c27fa7c5f3855,
  0x24b2b19f31cc56227a22771c98f2c54e5c2b068f3c9924af618646c2ed35c1709c9b1f69ec810b0da6bda4821b46fa11,
  0x5479f32eaeb8b41875cfcd9f590b9e16f904654ad2f8bad3c78603988d3c1c9af94373225a002df668806ca405ffe6ed,
  0x35e7fe965a85ee48de5f20019c849d84670c069c8990c25a4bb1a0539c944cfe12722bff09bd56b9817a626f352781bd,
  0x5148f4b71e8eb87e4ced150b96c0bf566e7eba0adee2666212306f26f1f9b5c072535de6b7fbe82fcf4154f53360dfa8,
  0x43414706d4e12e67bbad235ef4fa9d1995bfecee60c6d8cc3cbbb6dddec313134312cec912318dbc1c32128cee85ca3d,
  0x993af0eb67473ed4654590047d0ff492a6288e017bcded7e663a607e7b55034c0c71c0462036d1eac23d868c7fb605a3,
  0xb98ad5c492b8dfce8d1440b654e96444c481ad86275188ef643201bf6785beb486a35d498575dd6bb3a51ac64d2050dd,
  0x1118be3a2e69376bce698550c78ba0d7e2ec22e81777c7de345c5562ea931f62419941de9c12b74ac582d0bc5d603ae1,
  0xcad145ddc39604158e2cad6fa0f9bf4eecac7f66fb3dbfbc8740351505770ea8e4d0899a536c507aee40da52afcc168f,
  0xe9996375b46b416a0b93a081b4f5e1e108535ac1aa0a4ac16bd48e87c79cf13cda6f8dccef76cec7bc3f4b39de6a624c,
  0x85238b07a036f3fda4d0321ec37d6534f571c0e818bd559b1aa4f62a1cce454937426eda4594dc342f441f0aea3c1a4d,
  0xdda86293aaf479736d2529f01c579b8cf30a9f14917dcde7d19088210562b429407af846015fa08acf921b42da032eb4,
  0x2b9625298e7bbe01883a04fa4d12e0943a1b4613937c58bb947c64d68f641f56fe1f533361636633c5b7521938df97fd,
  0x843d0a160a79a31589e4a6ba29c83908ac4caf63a1520f17bac9f2ce2b71ccab124fe864c72ca8233e6d74840af98285,
  0x1111b5671a8236cc70829b7686fda5289fe8b7475e2be68952d8a2b0499b11107708388852143ca70e8eff7d598ef1fb,
  0xd730840d30c46709eaf9348ce6e0b56ee98c57028377cdc0bcf6e9ae8bdbd8fb3b06bf587632400a0582d762b14b3d66,
  0xccda197a1fa7e25334b1741745a4d798b132eb2778d066c13cedb5aee386186a644d0f32e86e451ecb51425ed3744160,
  0x74ce94a63de425b5c0be7ad6e582a990f62e0d8cc1951ef8dd8a0b3a284c41f50605557ee71e8bca0cd0ad966a747d0b,
  0x999247ebd414f221d4ecc61c8d8c5e05d93c97f9519b0eb0c07fb42d224748b3b84de1b08c66b21ec071a130a4796d1e,
  0x7bb82607da11b5edd536784345da695d2a2e32941d11ea7471b59a2baca14e6a782d0573257b4480d06d77293ac53620,
  0xb91b72c1e2548f08748de1eb6234c91144003af3f65d63b03189b2c23bbc864901d7d2675c0c81c9fb5360839bd0dbc5,
  0x42faf02665e81984156c5326fc6a3d0cde0efb23c25d61b28ea49d84adb56158d072f35d9724246c94038b6ae782626b,
  0x1596eeff9a97c9fc6374e681ad3caca9e4c67c57f2b1a1eacccf0ae0c12c111e9adaf8b5eafaff8ce04d3d60203e995c,
  0xb577a9ea561307065e94726c6a5d0e4133617d914df49fee3bfde0bcce236a7396b2c0075564778dcacc0172bbd3ea19,
  0x2a6e93b8c3cfd3f32d5794b1b2ccf60e445e6c7094a0f3f800000000000000000000000000000000000007090c151c25]

/-- A hyde that has this key, and signs this message with it. -/
def recorded : Hyde where
  Context := Nat
  WrappedSigningKey := Unit
  verifyingKey _ := mlDsa65Key
  autoDetect _ := .ok 0
  generateSigningKey ctx _ := .ok (ctx, ())
  sign ctx _ message := .returned (ctx + 1) (if message = [1] then .ok mlDsa65Signature else .error "not recorded")

/-- The check of signatures, as far as it goes for this key and this message. -/
def recordedCheck : Crypto where
  verifySignature _ key message sig := .ok (decide (key = mlDsa65Key ∧ message = [1] ∧ sig = mlDsa65Signature))
  fromBytes := .ok
  verifyStrict _ _ _ := false

private theorem recorded_valid : Hyde.SignsValidly recorded recordedCheck := by
  intro ctx₀ ctx key _ ctx₁ ctx₂ message sig hsign
  have hsign : (if message = [1] then Except.ok mlDsa65Signature else .error "not recorded") = .ok sig :=
    (Exit.returned.inj hsign).2
  split at hsign
  · obtain rfl : mlDsa65Signature = sig := Except.ok.inj hsign
    exact congrArg Except.ok (decide_eq_true ⟨rfl, ‹_›, rfl⟩)
  · cases hsign

/-- Two threads, of which the second one gets the lock first. -/
private def pair : List (Mutex.Act Bytes) := [.call [1], .call [1], .lock 1, .unlock, .lock 0, .unlock]

theorem crowd_verifies : ∃ generated signer, generate recorded .deny = .ok generated ∧
    generated.run pair = some signer ∧
    signer.inner.results = [(1, .value (.ok mlDsa65Signature)), (0, .value (.ok mlDsa65Signature))] ∧
    (HydeVerifier.new (Roster.new.insert mlDsa65Key "clinic")).verify recordedCheck signer.verifyingKey [1]
      mlDsa65Signature = .ok "clinic" := by
  have hgenerate : generate recorded .deny = .ok (@fromParts recorded (0 : Nat) ()) := rfl
  have hout : (0, Outcome.value (Except.ok (ε := String) mlDsa65Signature)) ∈
      [(1, Outcome.value (Except.ok (ε := String) mlDsa65Signature)), (0, .value (.ok mlDsa65Signature))] := by simp
  have hlabel : (Roster.new.insert mlDsa65Key "clinic").label mlDsa65Key = some "clinic" := by
    simp [Roster.label, Roster.insert]
  refine ⟨_, _, hgenerate, rfl, rfl, ?_⟩
  have hrun : (@fromParts recorded (0 : Nat) ()).run pair = some _ := rfl
  exact sign_verifies_for_all recorded_valid hgenerate hrun rfl hout rfl hlabel

end MlDsa65

end HydeSigner

end IrohHydeAuth
