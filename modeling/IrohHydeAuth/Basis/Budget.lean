import IrohHydeAuth.Basis.Prog
import Mathlib.Algebra.Order.Monoid.Canonical.Defs
import Mathlib.Algebra.BigOperators.Group.Finset.Piecewise

/-!
# What a program can cost

Each operation has a cost in an ordered monoid, so that several resources can be counted at once.  `Costs cost p n`:
whatever the answers, the operations that `p` asks for cost at most `n` together.  The costs of the parts of a sequence
add up (`Costs.bind`), also if its first part may fail (`Costs.run_bind`).
-/

namespace Process

namespace Prog

variable {Op : Type} {Resp : Op → Type} {α β M : Type} [AddCommMonoid M] {cost : Op → M} {n n' : M}

/-- What the operations of a trace cost together. -/
def spent (cost : Op → M) (h : Trace Resp) : M := (h.map fun e => cost e.1).sum

@[simp] theorem spent_nil : spent cost ([] : Trace Resp) = 0 := rfl

@[simp] theorem spent_cons (e : Event Resp) (h : Trace Resp) : spent cost (e :: h) = cost e.1 + spent cost h :=
  List.sum_cons

@[simp] theorem spent_append (h h' : Trace Resp) : spent cost (h ++ h') = spent cost h + spent cost h' := by
  simp [spent]

/-- What is spent together is spent by somebody. -/
theorem spent_eq_sum {K : Type} [DecidableEq K] {L : List (K × Event Resp)} {S : Finset K} (hS : ∀ r ∈ L, r.1 ∈ S) :
    spent cost (L.map (·.2)) = ∑ k ∈ S, spent cost ((L.filter fun r => r.1 = k).map (·.2)) := by
  induction L with
  | nil => simp
  | cons r L ih =>
    have hcons : ∀ k, spent cost (((r :: L).filter fun r => r.1 = k).map (·.2)) =
        (if r.1 = k then cost r.2.1 else 0) + spent cost ((L.filter fun r => r.1 = k).map (·.2)) := by
      intro k
      by_cases hk : r.1 = k
      · simp [hk]
      · simp [hk]
    rw [List.map_cons, spent_cons, ih fun r' hr => hS r' (List.mem_cons_of_mem _ hr)]
    simp only [hcons]
    rw [Finset.sum_add_distrib, Finset.sum_ite_eq, if_pos (hS r List.mem_cons_self)]

variable [PartialOrder M]

/-- Whatever the answers, the operations that the program asks for cost at most `n`. -/
def Costs (cost : Op → M) (p : Prog Resp α) (n : M) : Prop := ∀ h q, Path p h q → spent cost h ≤ n

theorem Costs.mono {p : Prog Resp α} (hp : p.Costs cost n) (hn : n ≤ n') : p.Costs cost n' :=
  fun h q hpath => (hp h q hpath).trans hn

theorem costs_ret (a : α) : (ret a : Prog Resp α).Costs cost 0 := by
  intro h q hpath
  rw [hpath.ret_inv.1, spent_nil]

theorem costs_ite {p p' : Prog Resp α} {c : Prop} [Decidable c] (h₁ : p.Costs cost n) (h₂ : p'.Costs cost n) :
    (if c then p else p').Costs cost n := by
  split
  · exact h₁
  · exact h₂

variable [CanonicallyOrderedAdd M] [IsOrderedAddMonoid M]

theorem costs_ask {op : Op} {k : Resp op → Prog Resp α} (hk : ∀ r, (k r).Costs cost n) :
    (ask op k).Costs cost (cost op + n) := by
  intro h q hpath
  rcases hpath.ask_inv with ⟨rfl, -⟩ | ⟨r, h', rfl, hp⟩
  · exact zero_le
  · rw [spent_cons]
    exact add_le_add_right (hk r h' q hp) _

theorem costs_call (op : Op) : (call op : Prog Resp (Resp op)).Costs cost (cost op) := by
  have h : (call op : Prog Resp (Resp op)).Costs cost (cost op + 0) := costs_ask fun r => costs_ret r
  rwa [add_zero] at h

theorem Costs.bind {p : Prog Resp α} {f : α → Prog Resp β} (hp : p.Costs cost n)
    (hf : ∀ a, (f a).Costs cost n') : (p >>= f).Costs cost (n + n') := by
  intro h q hpath
  rcases hpath.bind_cases with ⟨p', hp', -⟩ | ⟨a, h₁, h₂, rfl, hp₁, hp₂⟩
  · exact (hp h p' hp').trans (le_add_right le_rfl)
  · rw [spent_append]
    exact add_le_add (hp h₁ _ hp₁) (hf a h₂ q hp₂)

theorem Costs.run_bind {ε : Type} {x : ExceptT ε (Prog Resp) α} {f : α → ExceptT ε (Prog Resp) β}
    (hx : x.run.Costs cost n) (hf : ∀ a, (f a).run.Costs cost n') : (x >>= f).run.Costs cost (n + n') := by
  rw [ExceptT.run_bind]
  refine hx.bind fun a => ?_
  cases a with
  | error e => exact (costs_ret _).mono (zero_le)
  | ok a => exact hf a

end Prog

end Process
