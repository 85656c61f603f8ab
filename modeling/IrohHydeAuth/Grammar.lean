import IrohHydeAuth.Basis.Grammar
import IrohHydeAuth.Framing

/-!
# Which frames are read as which message

`read_msg` accepts more than `write_msg` writes: a number in a message may be padded, and a payload may have surplus
bytes behind the message, which are dropped.  This is all that it accepts (`Message.read_iff`).  A payload still has one
meaning only, and the frame that `write_msg` writes is the shortest with that meaning.
-/

namespace IrohHydeAuth

open Process Prog Postcard Surroundings Grammar

private theorem ClientHello.mk_version (m : ClientHello) : ClientHello.mk m.version = m := rfl

instance : Grammar ClientHello :=
  .ofFields (fun m => m.version) (fun v => ⟨v⟩) (fun _ => rfl) (fun _ => rfl) ClientHello.mk_version fun _ => rfl

instance : Grammar ServerChallenge :=
  .ofFields (fun m => (m.version, m.nonce, m.serverUnixSecs)) (fun x => ⟨x.1, x.2.1, x.2.2⟩) (fun _ => rfl)
    (fun _ => rfl) (fun _ => rfl) fun _ => rfl

instance : Grammar ClientAuth :=
  .ofFields (fun m => (m.verifyingKey, m.signature, m.clientUnixSecs)) (fun x => ⟨x.1, x.2.1, x.2.2⟩) (fun _ => rfl)
    (fun _ => rfl) (fun _ => rfl) fun _ => rfl

instance : Grammar MutualHello :=
  .ofFields (fun m => (m.version, m.nonce)) (fun x => ⟨x.1, x.2⟩) (fun _ => rfl) (fun _ => rfl) (fun _ => rfl)
    fun _ => rfl

instance : Grammar MutualChallenge :=
  .ofFields (fun m => (m.version, m.nonce, m.verifyingKey, m.signature, m.acceptorUnixSecs))
    (fun x => ⟨x.1, x.2.1, x.2.2.1, x.2.2.2.1, x.2.2.2.2⟩) (fun _ => rfl) (fun _ => rfl) (fun _ => rfl) fun _ => rfl

instance : Grammar MutualResponse :=
  .ofFields (fun m => (m.verifyingKey, m.signature, m.initiatorUnixSecs)) (fun x => ⟨x.1, x.2.1, x.2.2⟩) (fun _ => rfl)
    (fun _ => rfl) (fun _ => rfl) fun _ => rfl

instance : (k : Kind) → Grammar k.type
  | .clientHello => inferInstanceAs (Grammar ClientHello)
  | .serverChallenge => inferInstanceAs (Grammar ServerChallenge)
  | .clientAuth => inferInstanceAs (Grammar ClientAuth)
  | .mutualHello => inferInstanceAs (Grammar MutualHello)
  | .mutualChallenge => inferInstanceAs (Grammar MutualChallenge)
  | .mutualResponse => inferInstanceAs (Grammar MutualResponse)

namespace Message

variable {k : Kind} {m : k.type} {b rest : Bytes}

theorem framed_iff {max : Nat} (hmax : max < 2 ^ 32) : Framed max m b rest ↔ ∃ w surplus, Spells w m ∧
    (w ++ surplus).length ≤ max ∧ b = beBytes 4 (w ++ surplus).length ++ (w ++ surplus) ++ rest := by
  constructor
  · rintro ⟨hdr, payload, hhdr, hlen, hle, rfl, hdec⟩
    obtain ⟨w, surplus, rfl, hw⟩ := fromBytes_iff.1 hdec
    refine ⟨w, surplus, hw, by omega, ?_⟩
    rw [hlen, beBytes_beNat hhdr]
  · rintro ⟨w, surplus, hw, hle, rfl⟩
    have hn : beNat (beBytes 4 (w ++ surplus).length) = (w ++ surplus).length := beNat_beBytes_of_lt (by omega)
    exact ⟨_, _, length_beBytes _ _, hn.symm, by rw [hn]; exact hle, rfl, fromBytes_iff.2 ⟨w, surplus, rfl, hw⟩⟩

/-- On any stream, `read_msg` returns a message and leaves `rest` exactly if the stream goes on with a frame within the
limit whose payload begins with bytes that spell the message, and then `rest`.  No bytes spell two messages, or begin
with bytes that spell another one; the encoding spells its message and is the shortest to do so, and nothing else of its
length does. -/
theorem read_iff (k : Kind) (m : k.type) :
    (∀ (env : Surroundings) (h : Trace Resp) (rest : Bytes),
      (∃ h', Returns env.answer (readMsg MAX_MSG) h (.ok m) h' ∧ env.rest h' = rest) ↔
        ∃ w surplus, Spells w m ∧ (w ++ surplus).length ≤ MAX_MSG ∧
          env.rest h = beBytes 4 (w ++ surplus).length ++ (w ++ surplus) ++ rest) ∧
    (∀ (m' : k.type) (w w' r r' : Bytes), Spells w m → Spells w' m' → w ++ r = w' ++ r' → w = w' ∧ m = m') ∧
    ((Postcard.encode m).length ≤ MAX_MSG → Spells (Postcard.encode m) m) ∧
    ∀ w, Spells w m → (Postcard.encode m).length ≤ w.length ∧
      ((Postcard.encode m).length = w.length → w = Postcard.encode m) := by
  have hmax : MAX_MSG < 2 ^ 32 := by decide
  refine ⟨fun env h rest => ?_, fun m' w w' r r' hw hw' he => spells_unique hw hw' he, fun hle => ?_,
    fun w => shortest w m⟩
  · rw [← framed_iff hmax]
    constructor
    · rintro ⟨h', hr, rfl⟩
      exact (framed_of_returns hr).1
    · intro hf
      obtain ⟨h', hr, hrest, -⟩ := hf.returns
      exact ⟨h', hr, hrest⟩
  · exact spells_encode (by omega)

/-- The time of an assertion may be padded, and surplus bytes may follow. -/
example : Postcard.fromBytes (α := ClientAuth) [1, 9, 1, 8, 0x85, 0x80, 0, 7] = .ok ⟨[9], [8], 5⟩ := by decide

end Message

end IrohHydeAuth
