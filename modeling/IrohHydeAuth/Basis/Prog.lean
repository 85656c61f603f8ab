import Mathlib.Data.List.Basic

/-!
# Programs with effects, and their traces

A sequential program that talks to its surroundings is a tree: at each inner node it asks for one operation and
continues with the answer.  The operations are the points at which other programs may run, so a run of the tree is
described by its trace, the list of the operations asked so far with the answers they got.

* `Path p h q`: the program `p` can have done the trace `h` and be left with `q`.  A path of `p >>= f` either stays
  within `p` or is a full path of `p` followed by one of `f a` (`Path.bind_cases`); in a program that may fail the
  first case also has the paths on which `p` failed (`Path.run_bind_cases`).
* `Asks p P`: every operation that `p` can ask for satisfies `P`, whatever the answers are.
* `exec answer p h`: the run of `p` to its end in surroundings that answer as `answer` says.
-/

namespace Process

variable {Op : Type} {Resp : Op → Type} {α β γ : Type}

/-- A program that asks for operations `op : Op`, each answered in `Resp op`, and returns an `α`. -/
inductive Prog (Resp : Op → Type) (α : Type) where
  | ret (a : α) : Prog Resp α
  | ask (op : Op) (k : Resp op → Prog Resp α) : Prog Resp α

/-- An operation together with its answer. -/
abbrev Event (Resp : Op → Type) := (op : Op) × Resp op

abbrev Trace (Resp : Op → Type) := List (Event Resp)

namespace Prog

def bind : Prog Resp α → (α → Prog Resp β) → Prog Resp β
  | .ret a, f => f a
  | .ask op k, f => .ask op fun r => (k r).bind f

instance : Monad (Prog Resp) where
  pure := .ret
  bind := .bind

/-- The program that asks for one operation and returns its answer. -/
def call (op : Op) : Prog Resp (Resp op) := .ask op .ret

/-- The value a program has returned, if it is finished. -/
def value? : Prog Resp α → Option α
  | .ret a => some a
  | .ask _ _ => none

@[simp] theorem value?_ret (a : α) : (ret a : Prog Resp α).value? = some a := rfl

@[simp] theorem value?_ask (op : Op) (k : Resp op → Prog Resp α) : (ask op k).value? = none := rfl

@[simp] theorem pure_eq (a : α) : (pure a : Prog Resp α) = ret a := rfl

@[simp] theorem ret_bind (a : α) (f : α → Prog Resp β) : ret a >>= f = f a := rfl

@[simp] theorem ask_bind (op : Op) (k : Resp op → Prog Resp α) (f : α → Prog Resp β) :
    ask op k >>= f = ask op fun r => k r >>= f := rfl

@[simp] theorem call_bind (op : Op) (f : Resp op → Prog Resp β) : call op >>= f = ask op f := rfl

@[simp] theorem map_ret (f : α → β) (a : α) : f <$> (ret a : Prog Resp α) = ret (f a) := rfl

@[simp] theorem map_ask (f : α → β) (op : Op) (k : Resp op → Prog Resp α) :
    f <$> ask op k = ask op fun r => f <$> k r := rfl

private theorem bind_ret' (p : Prog Resp α) : p.bind ret = p := by
  induction p with
  | ret a => rfl
  | ask op k ih => simp only [bind, ih]

private theorem bind_assoc' (p : Prog Resp α) (f : α → Prog Resp β) (g : β → Prog Resp γ) :
    (p.bind f).bind g = p.bind fun a => (f a).bind g := by
  induction p with
  | ret a => rfl
  | ask op k ih => simp only [bind, ih]

instance : LawfulMonad (Prog Resp) :=
  LawfulMonad.mk' _ bind_ret' (fun _ _ => rfl) bind_assoc'

/-! ### Paths -/

/-- `Path p h q`: the program `p` can have done `h` and be left with `q`. -/
inductive Path : Prog Resp α → Trace Resp → Prog Resp α → Prop
  | nil (p : Prog Resp α) : Path p [] p
  | snoc {p : Prog Resp α} {h : Trace Resp} {op : Op} {k : Resp op → Prog Resp α}
      (hp : Path p h (.ask op k)) (r : Resp op) : Path p (h ++ [⟨op, r⟩]) (k r)

theorem Path.ret_inv {a : α} {h : Trace Resp} {q : Prog Resp α} (hp : Path (ret a) h q) :
    h = [] ∧ q = ret a := by
  induction hp with
  | nil => exact ⟨rfl, rfl⟩
  | snoc _ _ ih => cases ih.2

theorem Path.ask_inv {op : Op} {k : Resp op → Prog Resp α} {h : Trace Resp} {q : Prog Resp α}
    (hp : Path (ask op k) h q) :
    (h = [] ∧ q = ask op k) ∨ ∃ r h', h = ⟨op, r⟩ :: h' ∧ Path (k r) h' q := by
  induction hp with
  | nil => exact .inl ⟨rfl, rfl⟩
  | snoc _ r ih =>
    rcases ih with ⟨rfl, he⟩ | ⟨r', h', rfl, hk⟩
    · cases he
      exact .inr ⟨r, [], rfl, .nil _⟩
    · exact .inr ⟨r', h' ++ [⟨_, r⟩], rfl, hk.snoc r⟩

theorem Path.cons {op : Op} {k : Resp op → Prog Resp α} {h : Trace Resp} {q : Prog Resp α} (r : Resp op)
    (hp : Path (k r) h q) : Path (ask op k) (⟨op, r⟩ :: h) q := by
  induction hp with
  | nil => exact (Path.nil _).snoc r
  | snoc _ r' ih => exact ih.snoc r'

/-- The program after the event `e`, if it is asking for it. -/
def advance [DecidableEq Op] : Prog Resp α → Event Resp → Option (Prog Resp α)
  | .ret _, _ => none
  | .ask op k, e => if h : e.1 = op then some (k (h ▸ e.2)) else none

theorem advance_eq_some [DecidableEq Op] {p q : Prog Resp α} {e : Event Resp} (h : p.advance e = some q) :
    ∃ k, p = ask e.1 k ∧ q = k e.2 := by
  cases p with
  | ret a => cases h
  | ask op k =>
    obtain ⟨op', r⟩ := e
    simp only [advance] at h
    split at h
    · rename_i he
      cases he
      exact ⟨k, rfl, (Option.some.inj h).symm⟩
    · cases h

theorem Path.advance [DecidableEq Op] {p q q' : Prog Resp α} {h : Trace Resp} {e : Event Resp} (hp : Path p h q)
    (he : q.advance e = some q') : Path p (h ++ [e]) q' := by
  obtain ⟨k, rfl, rfl⟩ := advance_eq_some he
  exact hp.snoc e.2

/-- A path of a sequence stays within its first part or runs through it. -/
theorem Path.bind_cases {p : Prog Resp α} {f : α → Prog Resp β} {h : Trace Resp} {q : Prog Resp β}
    (hp : Path (p >>= f) h q) :
    (∃ p', Path p h p' ∧ p'.value? = none ∧ q.value? = none) ∨
      ∃ a h₁ h₂, h = h₁ ++ h₂ ∧ Path p h₁ (ret a) ∧ Path (f a) h₂ q := by
  induction p generalizing h with
  | ret a => exact .inr ⟨a, [], h, rfl, .nil _, hp⟩
  | ask op k ih =>
    rcases Path.ask_inv hp with ⟨rfl, rfl⟩ | ⟨r, h', rfl, hk⟩
    · exact .inl ⟨ask op k, .nil _, rfl, rfl⟩
    · rcases ih r hk with ⟨p', hp', hv, hq⟩ | ⟨a, h₁, h₂, rfl, hp', hf⟩
      · exact .inl ⟨p', hp'.cons r, hv, hq⟩
      · exact .inr ⟨a, ⟨op, r⟩ :: h₁, h₂, rfl, hp'.cons r, hf⟩

/-! ### Programs that may fail -/

section Except

variable {ε : Type} {x : ExceptT ε (Prog Resp) α} {f : α → ExceptT ε (Prog Resp) β} {h : Trace Resp}
  {q : Prog Resp (Except ε β)}

/-- A path of a sequence stays within its first part, which is then unfinished or has failed, or runs through it. -/
theorem Path.run_bind_cases (hp : Path (x >>= f).run h q) :
    (∃ p', Path x.run h p' ∧ (∀ a, p' ≠ ret (.ok a)) ∧ ∀ b, q ≠ ret (.ok b)) ∨
      ∃ a h₁ h₂, h = h₁ ++ h₂ ∧ Path x.run h₁ (ret (.ok a)) ∧ Path (f a).run h₂ q := by
  rw [ExceptT.run_bind] at hp
  rcases hp.bind_cases with ⟨p', hx, hv, hq⟩ | ⟨a, h₁, h₂, rfl, hx, hf⟩
  · refine .inl ⟨p', hx, ?_, ?_⟩
    · rintro a rfl; cases hv
    · rintro b rfl; cases hq
  · cases a with
    | error e =>
      obtain ⟨rfl, rfl⟩ := Path.ret_inv hf
      exact .inl ⟨ret (.error e), by simpa using hx, by simp, by simp⟩
    | ok a => exact .inr ⟨a, h₁, h₂, rfl, hx, hf⟩

theorem Path.run_bind_ok {b : β} (hp : Path (x >>= f).run h (ret (.ok b))) :
    ∃ a h₁ h₂, h = h₁ ++ h₂ ∧ Path x.run h₁ (ret (.ok a)) ∧ Path (f a).run h₂ (ret (.ok b)) := by
  rcases hp.run_bind_cases with ⟨_, _, _, hq⟩ | hr
  · exact absurd rfl (hq b)
  · exact hr

end Except

/-! ### The operations a program asks for -/

/-- Every operation the program can ask for satisfies `P`. -/
def Asks (P : Op → Prop) : Prog Resp α → Prop
  | .ret _ => True
  | .ask op k => P op ∧ ∀ r, (k r).Asks P

@[simp] theorem asks_ret {P : Op → Prop} {a : α} : (ret a : Prog Resp α).Asks P := trivial

@[simp] theorem asks_ask {P : Op → Prop} {op : Op} {k : Resp op → Prog Resp α} :
    (ask op k).Asks P ↔ P op ∧ ∀ r, (k r).Asks P := Iff.rfl

theorem asks_call {P : Op → Prop} {op : Op} : (call op : Prog Resp (Resp op)).Asks P ↔ P op := by
  simp [call]

theorem Asks.bind {P : Op → Prop} {p : Prog Resp α} {f : α → Prog Resp β} (hp : p.Asks P)
    (hf : ∀ a, (f a).Asks P) : (p >>= f).Asks P := by
  induction p with
  | ret a => exact hf a
  | ask op k ih => exact ⟨hp.1, fun r => ih r (hp.2 r)⟩

theorem Asks.run_bind {ε : Type} {P : Op → Prop} {x : ExceptT ε (Prog Resp) α}
    {f : α → ExceptT ε (Prog Resp) β} (hx : x.run.Asks P) (hf : ∀ a, (f a).run.Asks P) :
    (x >>= f).run.Asks P := by
  rw [ExceptT.run_bind]
  refine hx.bind fun a => ?_
  cases a with
  | error e => exact asks_ret
  | ok a => exact hf a

theorem Path.asks {P : Op → Prop} {p q : Prog Resp α} {h : Trace Resp} (hp : Path p h q) (hP : p.Asks P) :
    (∀ e ∈ h, P e.1) ∧ q.Asks P := by
  induction hp with
  | nil => exact ⟨by simp, hP⟩
  | snoc _ r ih =>
    refine ⟨fun e he => ?_, ih.2.2 r⟩
    rcases List.mem_append.1 he with he | he
    · exact ih.1 e he
    · rw [List.mem_singleton.1 he]
      exact ih.2.1

/-- A path that has asked for something the first part of a sequence never asks for runs through that part. -/
theorem Path.run_bind_mem {ε : Type} {x : ExceptT ε (Prog Resp) α} {f : α → ExceptT ε (Prog Resp) β}
    {h : Trace Resp} {q : Prog Resp (Except ε β)} {e : Event Resp} (hp : Path (x >>= f).run h q) (he : e ∈ h)
    (hx : x.run.Asks (· ≠ e.1)) :
    ∃ a h₁ h₂, h = h₁ ++ h₂ ∧ e ∈ h₂ ∧ Path x.run h₁ (ret (.ok a)) ∧ Path (f a).run h₂ q := by
  rcases hp.run_bind_cases with ⟨p', hp', -⟩ | ⟨a, h₁, h₂, rfl, hp', hf⟩
  · exact absurd rfl ((hp'.asks hx).1 e he)
  · rcases List.mem_append.1 he with he | he
    · exact absurd rfl ((hp'.asks hx).1 e he)
    · exact ⟨a, h₁, h₂, rfl, he, hp', hf⟩

/-! ### Running to the end -/

section Exec

variable {answer : Trace Resp → (op : Op) → Resp op} {p : Prog Resp α} {h h' : Trace Resp}

/-- Run a program that has done `h` to its end.  The operations are answered by `answer`, which may look at what was
done before; also returned is what was done in the end. -/
def exec (answer : Trace Resp → (op : Op) → Resp op) : Prog Resp α → Trace Resp → α × Trace Resp
  | .ret a, h => (a, h)
  | .ask op k, h => exec answer (k (answer h op)) (h ++ [⟨op, answer h op⟩])

@[simp] theorem exec_ret (a : α) : exec answer (ret a) h = (a, h) := rfl

@[simp] theorem exec_ask (op : Op) (k : Resp op → Prog Resp α) :
    exec answer (ask op k) h = exec answer (k (answer h op)) (h ++ [⟨op, answer h op⟩]) := rfl

theorem exec_bind (f : α → Prog Resp β) :
    exec answer (p >>= f) h = exec answer (f (exec answer p h).1) (exec answer p h).2 := by
  induction p generalizing h with
  | ret a => rfl
  | ask op k ih => exact ih _

/-- A run to the end is a path. -/
theorem path_exec : ∃ h', (exec answer p h).2 = h ++ h' ∧ Path p h' (ret (exec answer p h).1) := by
  induction p generalizing h with
  | ret a => exact ⟨[], by simp, .nil _⟩
  | ask op k ih =>
    obtain ⟨h', he, hp⟩ := ih (answer h op) (h := h ++ [⟨op, answer h op⟩])
    exact ⟨⟨op, answer h op⟩ :: h', by simpa using he, hp.cons _⟩

/-- What every answered operation preserves holds of a trace in the end. -/
theorem exec_invariant {P : Trace Resp → Prop} (hstep : ∀ h op, P h → P (h ++ [⟨op, answer h op⟩])) (hP : P h) :
    P (exec answer p h).2 := by
  induction p generalizing h with
  | ret a => exact hP
  | ask op k ih => exact ih _ (hstep h op hP)

variable {ε : Type} {x : ExceptT ε (Prog Resp) α} {f : α → ExceptT ε (Prog Resp) β}

/-- The part `x` of a function that has done `h` returns `r`, having then done `h'`. -/
def Returns (answer : Trace Resp → (op : Op) → Resp op) (x : ExceptT ε (Prog Resp) α) (h : Trace Resp) (r : Except ε α)
    (h' : Trace Resp) : Prop :=
  exec answer x.run h = (r, h')

/-- A program run to its end, and what is made of its result. -/
theorem returns_mk_bind {γ : Type} {p : Prog Resp γ} {g : γ → Prog Resp (Except ε α)} {c : γ} {r : Except ε α}
    {h'' : Trace Resp} (hp : exec answer p h = (c, h')) (hg : exec answer (g c) h' = (r, h'')) :
    Returns answer (ExceptT.mk (p >>= g)) h r h'' := by
  show exec answer (p >>= g) h = _
  rw [exec_bind, hp]
  exact hg

/-- What every answered operation preserves holds in the end. -/
theorem Returns.invariant {P : Trace Resp → Prop} {r : Except ε α} (hx : Returns answer x h r h')
    (hstep : ∀ h op, P h → P (h ++ [⟨op, answer h op⟩])) (hP : P h) : P h' := by
  have hinv : P (exec answer x.run h).2 := exec_invariant hstep hP
  rw [show exec answer x.run h = (r, h') from hx] at hinv
  exact hinv

theorem Returns.bind {a : α} {r : Except ε β} {h'' : Trace Resp} (hx : Returns answer x h (.ok a) h')
    (hf : Returns answer (f a) h' r h'') : Returns answer (x >>= f) h r h'' := by
  rw [Returns, ExceptT.run_bind, exec_bind, hx]
  exact hf

theorem Returns.bind_error {e : ε} (hx : Returns answer x h (.error e) h') :
    Returns answer (x >>= f) h (.error e) h' := by
  rw [Returns, ExceptT.run_bind, exec_bind, hx]
  rfl

theorem Returns.path {r : Except ε α} (hx : Returns answer x [] r h) : Path x.run h (ret r) := by
  have hpath : ∃ h', (exec answer x.run []).2 = [] ++ h' ∧ Path x.run h' (ret (exec answer x.run []).1) := path_exec
  obtain ⟨h', he, hp⟩ := hpath
  rw [show exec answer x.run [] = (r, h) from hx] at he hp
  rw [show h = h' from he]
  exact hp

/-- A sequence returns a value only if its first part does. -/
theorem Returns.bind_ok {b : β} {h'' : Trace Resp} (hb : Returns answer (x >>= f) h (.ok b) h'') :
    ∃ a h', Returns answer x h (.ok a) h' ∧ Returns answer (f a) h' (.ok b) h'' := by
  rcases hx : exec answer x.run h with ⟨r, h'⟩
  cases r with
  | error e =>
    have he := hb.symm.trans (Returns.bind_error hx)
    cases he
  | ok a => exact ⟨a, h', hx, (Returns.bind hx rfl).symm.trans hb⟩

end Exec

end Prog

end Process
