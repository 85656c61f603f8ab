import Mathlib.Logic.Relation

/-!
# Runs of commuting steps

A relation has the diamond property if two different steps from one state meet again after one more step each.  Then
one run that ends in a state without steps decides about all runs: each of them can be continued to that same state,
and none is longer (`Diamond.toEnd`).
-/

namespace Process

variable {σ : Type} {r : σ → σ → Prop} {a b c z : σ} {n m : Nat}

/-- `n` steps lead from the first state to the second. -/
inductive RunsIn (r : σ → σ → Prop) : Nat → σ → σ → Prop
  | refl (a : σ) : RunsIn r 0 a a
  | head {n : Nat} {a b c : σ} (hab : r a b) (hbc : RunsIn r n b c) : RunsIn r (n + 1) a c

theorem exists_runsIn (h : Relation.ReflTransGen r a b) : ∃ n, RunsIn r n a b := by
  induction h using Relation.ReflTransGen.head_induction_on with
  | refl => exact ⟨0, .refl b⟩
  | head hab _ ih =>
    obtain ⟨n, hn⟩ := ih
    exact ⟨n + 1, .head hab hn⟩

theorem RunsIn.reflTransGen (h : RunsIn r n a b) : Relation.ReflTransGen r a b := by
  induction h with
  | refl => exact .refl
  | head hab _ ih => exact .head hab ih

def Diamond (r : σ → σ → Prop) : Prop := ∀ a b c, r a b → r a c → b = c ∨ ∃ d, r b d ∧ r c d

/-- No step is possible. -/
def Terminal (r : σ → σ → Prop) (a : σ) : Prop := ∀ b, ¬ r a b

private theorem Diamond.tail (hd : Diamond r) (hz : Terminal r z) (haz : RunsIn r n a z) (hab : r a b) :
    ∃ k, n = k + 1 ∧ RunsIn r k b z := by
  induction n generalizing a b with
  | zero =>
    cases haz
    exact absurd hab (hz b)
  | succ n ih =>
    cases haz with
    | @head _ _ a₁ _ h₁ haz =>
      rcases hd a a₁ b h₁ hab with rfl | ⟨d, h₁d, hbd⟩
      · exact ⟨n, rfl, haz⟩
      · obtain ⟨k, rfl, hdz⟩ := ih haz h₁d
        exact ⟨k + 1, rfl, .head hbd hdz⟩

/-- Every run can be continued to the end that one run reaches, and all have the same length there. -/
theorem Diamond.toEnd (hd : Diamond r) (hz : Terminal r z) (haz : RunsIn r n a z) (hab : RunsIn r m a b) :
    ∃ k, n = m + k ∧ RunsIn r k b z := by
  induction hab generalizing n with
  | refl => exact ⟨n, (Nat.zero_add n).symm, haz⟩
  | head h _ ih =>
    obtain ⟨k, rfl, hbz⟩ := hd.tail hz haz h
    obtain ⟨k', rfl, hcz⟩ := ih hbz
    exact ⟨k', by omega, hcz⟩

end Process
