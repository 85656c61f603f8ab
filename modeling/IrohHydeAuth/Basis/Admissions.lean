import Mathlib.Data.Set.Insert
import Mathlib.Logic.Function.Basic
import Mathlib.Logic.Relation

/-!
# Admission under a policy

Principals that admit one another, as an access-control policy has it.  There are no messages, no signatures and no
attackers here: only who may be admitted by whom, and in which order the two ends of a connection do so.

Whoever accepts a principal lets it in; whoever has dialled one and concluded takes it for let in.
-/

namespace Process

/-- Who follows the rules and whom they trust. -/
structure Policy (P : Type) where
  honest : P → Prop
  /-- Nobody passes for a principal that they trust. -/
  secure : P → Prop
  trusts : P → P → Prop
  /-- Whoever dials also checks whom it has dialled. -/
  bilateral : Prop

/-- Whom each principal has admitted so far, on either side. -/
@[ext]
structure Admissions (P : Type) where
  accepted : P → Set P
  dialled : P → Set P

namespace Admissions

variable {P : Type} {p : Policy P} {s t : Admissions P} {a b : P}

def none : Admissions P := ⟨fun _ => ∅, fun _ => ∅⟩

/-- Everything that was admitted is as the policy says. -/
structure Enforces (p : Policy P) (s : Admissions P) : Prop where
  accepted : ∀ a, ∀ b ∈ s.accepted a, p.honest a ∧ (p.secure a → p.honest b) ∧
    (p.honest b → p.trusts a b ∧ (p.bilateral → p.trusts b a))
  dialled : ∀ a, ∀ b ∈ s.dialled a, p.honest a ∧ (p.bilateral → p.secure a → p.honest b) ∧
    (p.honest b → a ∈ s.accepted b)

theorem enforces_none : Enforces p none := ⟨fun _ _ => nofun, fun _ _ => nofun⟩

/-- A principal that was dialled trusts the dialler, and both ways if both sides check. -/
theorem Enforces.trusts_of_dialled (he : Enforces p s) (hb : b ∈ s.dialled a) (hhonest : p.honest b) :
    p.trusts b a ∧ (p.bilateral → p.trusts a b) := by
  obtain ⟨ha, -, hacc⟩ := he.dialled a b hb
  exact (he.accepted b a (hacc hhonest)).2.2 ha

variable [DecidableEq P]

def accept (s : Admissions P) (a b : P) : Admissions P :=
  { s with accepted := Function.update s.accepted a (insert b (s.accepted a)) }

def conclude (s : Admissions P) (a b : P) : Admissions P :=
  { s with dialled := Function.update s.dialled a (insert b (s.dialled a)) }

/-- What the policy permits. -/
inductive Step (p : Policy P) (s : Admissions P) : Admissions P → Prop
  /-- `a` accepts `b`. -/
  | accept {a b : P} (ha : p.honest a) (hb : p.secure a → p.honest b) (htrusts : p.honest b → p.trusts a b)
      (hboth : p.bilateral → p.honest b → p.trusts b a) : Step p s (s.accept a b)
  /-- `a` concludes that `b` has accepted it. -/
  | conclude {a b : P} (ha : p.honest a) (hb : p.bilateral → p.secure a → p.honest b)
      (haccepted : p.honest b → a ∈ s.accepted b) : Step p s (s.conclude a b)

theorem mem_accept {x y : P} : y ∈ (s.accept a b).accepted x ↔ y ∈ s.accepted x ∨ x = a ∧ y = b := by
  by_cases hx : x = a
  · subst hx
    simp [accept, or_comm]
  · simp [accept, hx]

theorem mem_conclude {x y : P} : y ∈ (s.conclude a b).dialled x ↔ y ∈ s.dialled x ∨ x = a ∧ y = b := by
  by_cases hx : x = a
  · subst hx
    simp [conclude, or_comm]
  · simp [conclude, hx]

theorem Enforces.step (he : Enforces p s) (h : Step p s t) : Enforces p t := by
  cases h with
  | @accept a b ha hb htrusts hboth =>
    refine ⟨fun x y hy => ?_, fun x y hy => ?_⟩
    · rcases mem_accept.1 hy with hy | ⟨rfl, rfl⟩
      · exact he.accepted x y hy
      · exact ⟨ha, hb, fun hh => ⟨htrusts hh, fun hm => hboth hm hh⟩⟩
    · obtain ⟨hx, hhonest, hacc⟩ := he.dialled x y hy
      exact ⟨hx, hhonest, fun hh => mem_accept.2 (.inl (hacc hh))⟩
  | @conclude a b ha hb haccepted =>
    refine ⟨he.accepted, fun x y hy => ?_⟩
    rcases mem_conclude.1 hy with hy | ⟨rfl, rfl⟩
    · exact he.dialled x y hy
    · exact ⟨ha, hb, haccepted⟩

/-- No run leaves the policy. -/
theorem Enforces.run (he : Enforces p s) (h : Relation.ReflTransGen (Step p) s t) : Enforces p t := by
  induction h with
  | refl => exact he
  | tail _ hstep ih => exact ih.step hstep

end Admissions

end Process
