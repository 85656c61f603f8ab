import IrohHydeAuth.Surroundings

/-!
# Messages on a stream

The six messages of the two protocols, written one after the other by `write_msg` and read back by `read_msg`.

* What is read is what was written, and nothing behind it is touched (`readAll_writeAll`).
* The writer refuses only what does not fit the header of a frame, and the reader what exceeds `MAX_MSG`; between the
  two limits they disagree (`write_agrees_iff`).
-/

namespace IrohHydeAuth

open Process Prog Surroundings

/-! ### The six messages -/

inductive Kind where
  | clientHello
  | serverChallenge
  | clientAuth
  | mutualHello
  | mutualChallenge
  | mutualResponse
  deriving DecidableEq, Repr

@[reducible] def Kind.type : Kind → Type
  | .clientHello => ClientHello
  | .serverChallenge => ServerChallenge
  | .clientAuth => ClientAuth
  | .mutualHello => MutualHello
  | .mutualChallenge => MutualChallenge
  | .mutualResponse => MutualResponse

instance : (k : Kind) → Postcard k.type
  | .clientHello => inferInstanceAs (Postcard ClientHello)
  | .serverChallenge => inferInstanceAs (Postcard ServerChallenge)
  | .clientAuth => inferInstanceAs (Postcard ClientAuth)
  | .mutualHello => inferInstanceAs (Postcard MutualHello)
  | .mutualChallenge => inferInstanceAs (Postcard MutualChallenge)
  | .mutualResponse => inferInstanceAs (Postcard MutualResponse)

/-- A message of any of the types. -/
abbrev Message := (k : Kind) × k.type

namespace Message

def encode (m : Message) : Bytes := Postcard.encode m.2

def write (m : Message) : Async Unit := writeMsg m.2

def read (max : Nat) (k : Kind) : Async Message := do
  let m : k.type ← readMsg max
  return ⟨k, m⟩

def writeAll : List Message → Async Unit
  | [] => return
  | m :: ms => do
    m.write
    writeAll ms

/-- Read messages of the given types. -/
def readAll (max : Nat) : List Kind → Async (List Message)
  | [] => return []
  | k :: ks => do
    let m ← read max k
    let ms ← readAll max ks
    return m :: ms

variable {env : Surroundings} {h : Trace Resp} {msgs : List Message} {m : Message} {max : Nat}

/-! ### Round trips -/

theorem returns_writeAll (hlt : ∀ m ∈ msgs, m.encode.length < 2 ^ 32) (hw : ∀ bytes, env.writeAll bytes = .ok ()) :
    ∃ h', Returns env.answer (writeAll msgs) h (.ok ()) h' ∧
      written h' = written h ++ msgs.flatMap fun m => frame m.2 := by
  induction msgs generalizing h with
  | nil => exact ⟨h, rfl, by simp⟩
  | cons m ms ih =>
    have hs : env.Sends m.2 := ⟨hlt m (by simp), hw _, hw _⟩
    obtain ⟨h₁, hwrites, hr₁⟩ := hs.returns h
    obtain ⟨h₂, hr₂, hw₂⟩ := ih (h := h ++ h₁) fun m hm => hlt m (by simp [hm])
    refine ⟨h₂, Returns.bind hr₁ hr₂, ?_⟩
    rw [hw₂, written_append, hwrites.written_eq, List.flatMap_cons, List.append_assoc]

theorem returns_readAll {suffix : Bytes} (hfit : ∀ m ∈ msgs, m.encode.length ≤ max)
    (hlt : ∀ m ∈ msgs, m.encode.length < 2 ^ 32)
    (hb : env.rest h = (msgs.flatMap fun m => frame m.2) ++ suffix) :
    ∃ h', Returns env.answer (readAll max (msgs.map Sigma.fst)) h (.ok msgs) h' ∧ env.rest h' = suffix := by
  induction msgs generalizing h with
  | nil => exact ⟨h, rfl, hb⟩
  | cons m ms ih =>
    rw [List.flatMap_cons, List.append_assoc] at hb
    have hf : Framed max m.2 (env.rest h) _ := hb ▸ framed_frame _ (hfit m (by simp)) (hlt m (by simp))
    obtain ⟨h₁, hr₁, hb₁, -⟩ := hf.returns
    obtain ⟨h₂, hr₂, hb₂⟩ := ih (fun m hm => hfit m (by simp [hm])) (fun m hm => hlt m (by simp [hm])) hb₁
    have hread : Returns env.answer (read max m.1) h (.ok m) h₁ := hr₁.bind rfl
    exact ⟨h₂, hread.bind (hr₂.bind rfl), hb₂⟩

/-- What one call of `read_msg` takes from a stream, and how it ends. -/
theorem exec_read (k : Kind) (max : Nat) (env : Surroundings) (h : Trace Resp) :
    let b := env.rest h
    let n := beNat (b.take 4)
    let run := (readMsg max : Async k.type).run.exec env.answer h
    (b.length < 4 → run.1 = .error (.transport env.lost)) ∧
    (4 ≤ b.length → max < n → run.1 = .error (.messageTooLarge n) ∧ env.rest run.2 = b.drop 4) ∧
    (4 ≤ b.length → n ≤ max → b.length < 4 + n → run.1 = .error (.transport env.lost)) ∧
    (4 + n ≤ b.length → n ≤ max →
      run.1 = (Postcard.fromBytes ((b.drop 4).take n)).mapError .codec ∧ env.rest run.2 = b.drop (4 + n)) := by
  intro b n run
  have hb : env.rest h = b.take 4 ++ b.drop 4 := (List.take_append_drop 4 b).symm
  have hhdr : 4 ≤ b.length → (b.take 4).length = 4 := List.length_take_of_le
  refine ⟨fun h4 => ?_, fun h4 hmax => ?_, fun h4 hmax hlt => ?_, fun hle hmax => ?_⟩
  · obtain ⟨h', hr⟩ := returns_readMsg_short (α := k.type) (.inl h4)
    exact congrArg Prod.fst hr
  · obtain ⟨hr, hrest⟩ := returns_readMsg_large (α := k.type) (hhdr h4) hmax hb
    have hrun : run = _ := hr
    rw [hrun]
    exact ⟨rfl, hrest⟩
  · have hshort : (b.drop 4).length < n := by
      rw [List.length_drop]
      omega
    obtain ⟨h', hr⟩ := returns_readMsg_short (α := k.type) (.inr ⟨_, _, hhdr h4, hmax, hb, hshort⟩)
    exact congrArg Prod.fst hr
  · have hlen : ((b.drop 4).take n).length = n := by
      rw [List.length_take, List.length_drop]
      omega
    have hsplit : env.rest h = b.take 4 ++ (b.drop 4).take n ++ b.drop (4 + n) := by
      rw [← List.drop_drop, List.append_assoc, List.take_append_drop, ← hb]
    obtain ⟨hr, hrest⟩ := returns_readMsg (α := k.type) (hhdr (by omega)) hlen hmax hsplit
    have hrun : run = _ := hr
    rw [hrun]
    exact ⟨rfl, hrest⟩

/-- Messages that fit the limit are read as they were written, whatever follows them, and what follows is left alone.
On any stream at all `read_msg` refuses a header that is too large behind four bytes, fails on a frame that breaks off,
and otherwise takes the whole frame. -/
theorem readAll_writeAll (msgs : List Message) (hfit : ∀ m ∈ msgs, m.encode.length ≤ MAX_MSG) (suffix : Bytes)
    (sender receiver : Surroundings) (hw : ∀ bytes, sender.writeAll bytes = .ok ()) :
    let output := (writeAll msgs).run.exec sender.answer []
    let input := (readAll MAX_MSG (msgs.map Sigma.fst)).run.exec receiver.answer []
    (output.1 = .ok () ∧
      (receiver.stream = written output.2 ++ suffix → input.1 = .ok msgs ∧ receiver.rest input.2 = suffix)) ∧
    ∀ (k : Kind) (max : Nat) (env : Surroundings) (h : Trace Resp),
      let b := env.rest h
      let n := beNat (b.take 4)
      let run := (readMsg max : Async k.type).run.exec env.answer h
      (b.length < 4 → run.1 = .error (.transport env.lost)) ∧
      (4 ≤ b.length → max < n → run.1 = .error (.messageTooLarge n) ∧ env.rest run.2 = b.drop 4) ∧
      (4 ≤ b.length → n ≤ max → b.length < 4 + n → run.1 = .error (.transport env.lost)) ∧
      (4 + n ≤ b.length → n ≤ max →
        run.1 = (Postcard.fromBytes ((b.drop 4).take n)).mapError .codec ∧ env.rest run.2 = b.drop (4 + n)) := by
  have hmax : MAX_MSG = 16384 := rfl
  have hlt : ∀ m ∈ msgs, m.encode.length < 2 ^ 32 := by
    intro m hm
    have := hfit m hm
    omega
  intro output input
  refine ⟨?_, exec_read⟩
  obtain ⟨h₁, hr₁, hw₁⟩ := returns_writeAll (h := []) hlt hw
  have houtput : output = (.ok (), h₁) := hr₁
  rw [houtput]
  refine ⟨rfl, fun hstream => ?_⟩
  rw [hw₁, written_nil, List.nil_append] at hstream
  obtain ⟨h₂, hr₂, hb₂⟩ := returns_readAll (h := []) hfit hlt hstream
  have hinput : input = (.ok msgs, h₂) := hr₂
  rw [hinput]
  exact ⟨rfl, hb₂⟩

/-- A greeting and an assertion, with a byte behind them. -/
theorem readAll_writeAll_two :
    ((readAll MAX_MSG [.clientHello, .clientAuth]).run.exec
      (ofStream (written ((writeAll [⟨.clientHello, ⟨0⟩⟩, ⟨.clientAuth, ⟨[1, 2], [3], 300⟩⟩]).run.exec
        (ofStream []).answer []).2 ++ [7])).answer []).1 =
      .ok [⟨.clientHello, ⟨0⟩⟩, ⟨.clientAuth, ⟨[1, 2], [3], 300⟩⟩] := by
  have h := readAll_writeAll [⟨.clientHello, ⟨0⟩⟩, ⟨.clientAuth, ⟨[1, 2], [3], 300⟩⟩] (by decide) [7] (ofStream [])
    (ofStream (written ((writeAll [⟨.clientHello, ⟨0⟩⟩, ⟨.clientAuth, ⟨[1, 2], [3], 300⟩⟩]).run.exec
        (ofStream []).answer []).2 ++ [7])) (fun _ => rfl)
  exact (h.1.2 rfl).1

/-! ### The limits of the writer and the reader -/

/-- A frame that the writer reports as written is not refused for its size. -/
def Agrees (m : Message) : Prop :=
  ∀ (sender receiver : Surroundings) (suffix : Bytes),
    let output := m.write.run.exec sender.answer []
    output.1 = .ok () → receiver.stream = written output.2 ++ suffix →
      ∀ n, ((read MAX_MSG m.1).run.exec receiver.answer []).1 ≠ .error (.messageTooLarge n)

/-- If the message is too large, the writer says so and has written nothing. -/
def Reports (m : Message) : Prop :=
  MAX_MSG < m.encode.length → ∀ sender : Surroundings,
    let output := m.write.run.exec sender.answer []
    output.1 = .error (.messageTooLarge m.encode.length) ∧ written output.2 = []

/-- A message between the two limits is written, and its frame is refused. -/
private theorem refused (hmax : MAX_MSG < m.encode.length) (hlt : m.encode.length < 2 ^ 32) :
    ∃ h, Returns (ofStream []).answer m.write [] (.ok ()) h ∧ written h = frame m.2 ∧
      ((read MAX_MSG m.1).run.exec (ofStream (frame m.2)).answer []).1 =
        .error (.messageTooLarge m.encode.length) := by
  have hs : (ofStream []).Sends m.2 := ⟨hlt, rfl, rfl⟩
  obtain ⟨h, hwrites, hr⟩ := hs.returns []
  have hn : beNat (beBytes 4 m.encode.length) = m.encode.length := beNat_beBytes_of_lt (by simpa using hlt)
  have hrest : (ofStream (frame m.2)).rest [] = beBytes 4 m.encode.length ++ m.encode := rfl
  have hread := (returns_readMsg_large (α := m.1.type) (length_beBytes 4 m.encode.length) (by rw [hn]; exact hmax)
    hrest).1
  have hread' : Returns _ (read MAX_MSG m.1) [] _ _ := hread.bind_error
  rw [hn] at hread'
  exact ⟨h, hr, hwrites.written_eq, congrArg Prod.fst hread'⟩

private theorem not_agrees (hmax : MAX_MSG < m.encode.length) (hlt : m.encode.length < 2 ^ 32) : ¬ Agrees m := by
  obtain ⟨h, hr, hw, hread⟩ := refused hmax hlt
  intro ha
  have houtput : m.write.run.exec (ofStream []).answer [] = (.ok (), h) := hr
  refine ha (ofStream []) (ofStream (frame m.2)) [] ?_ ?_ _ hread
  · rw [houtput]
  · rw [houtput, hw, List.append_nil]
    rfl

private theorem not_reports (hmax : MAX_MSG < m.encode.length) (hlt : m.encode.length < 2 ^ 32) : ¬ Reports m := by
  obtain ⟨h, hr, -⟩ := refused hmax hlt
  intro ha
  have houtput : m.write.run.exec (ofStream []).answer [] = (.ok (), h) := hr
  have herr := (ha hmax (ofStream [])).1
  rw [houtput] at herr
  cases herr

/-- Writer and reader agree exactly on the messages that fit `MAX_MSG`, and on those too large for a header. -/
theorem write_agrees_iff (m : Message) :
    (Agrees m ↔ m.encode.length ≤ MAX_MSG ∨ 2 ^ 32 ≤ m.encode.length) ∧
      (Reports m ↔ m.encode.length ≤ MAX_MSG ∨ 2 ^ 32 ≤ m.encode.length) := by
  have hlimit : MAX_MSG = 16384 := rfl
  have hbetween : ∀ {P : Prop}, (MAX_MSG < m.encode.length → m.encode.length < 2 ^ 32 → ¬ P) → P →
      m.encode.length ≤ MAX_MSG ∨ 2 ^ 32 ≤ m.encode.length := by
    intro P hnot hp
    by_contra hc
    exact hnot (by omega) (by omega) hp
  refine ⟨⟨hbetween not_agrees, ?_⟩, ⟨hbetween not_reports, ?_⟩⟩
  · intro hcond sender receiver suffix output hok hstream n hn
    have hr : Returns sender.answer (writeMsg m.2) [] (.ok ()) output.2 := Prod.ext hok rfl
    obtain ⟨hs, h₁, hwrites, he⟩ := sends_of_returns hr
    have hfit : m.encode.length ≤ MAX_MSG := hcond.resolve_right (Nat.not_le.2 hs.1)
    rw [he, List.nil_append, hwrites.written_eq] at hstream
    have hf : Framed MAX_MSG m.2 (receiver.rest []) suffix := by
      rw [rest_nil, hstream]
      exact framed_frame suffix hfit hs.1
    obtain ⟨h₂, hr, -⟩ := hf.returns
    have hread : Returns receiver.answer (read MAX_MSG m.1) [] (.ok m) h₂ := hr.bind rfl
    cases (congrArg Prod.fst hread).symm.trans hn
  · intro hcond hmax sender
    have hlarge : 2 ^ 32 ≤ m.encode.length := hcond.resolve_left (Nat.not_le.2 hmax)
    have houtput : m.write.run.exec sender.answer [] = _ := returns_writeMsg_large (m := m.2) hlarge
    rw [houtput]
    exact ⟨rfl, rfl⟩

/-- The assertion of a signer whose key has `MAX_MSG` bytes. -/
theorem write_disagrees :
    ¬ Agrees ⟨.clientAuth, ⟨List.replicate MAX_MSG 0, [], 0⟩⟩ ∧
      ¬ Reports ⟨.clientAuth, ⟨List.replicate MAX_MSG 0, [], 0⟩⟩ := by
  have hlen : (encode ⟨.clientAuth, ⟨List.replicate MAX_MSG 0, [], 0⟩⟩).length = 3 + MAX_MSG + 1 + 1 := by
    show ((putVarint varintMax (List.replicate MAX_MSG (0 : UInt8)).length ++ List.replicate MAX_MSG 0) ++
      ((putVarint varintMax 0 ++ []) ++ putVarint varintMax 0)).length = _
    simp only [List.length_append, List.length_replicate]
    rfl
  have hlimit : MAX_MSG = 16384 := rfl
  exact ⟨not_agrees (by omega) (by omega), not_reports (by omega) (by omega)⟩

end Message

end IrohHydeAuth
