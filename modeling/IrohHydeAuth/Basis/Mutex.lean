import Mathlib.Data.List.Basic
import Mathlib.Data.List.Nodup

/-!
# A mutex that a panic poisons

Any number of callers share a value behind a mutex.  Each of them waits for the lock, runs the same critical section on
the value and an argument of its own, and lets go of the lock.  A critical section may panic; from then on the mutex is
poisoned, and whoever locks it is told so and leaves the value alone.

Whatever the order of calls and the choice of who gets the lock, the callers are served as if one after the other, in
the order in which they got it (`Mutex.linearizable`), and each of them gets what the critical section makes of its own
argument (`Mutex.served_itself`).
-/

namespace Process

variable {S A R : Type}

/-- How a critical section ends. -/
inductive Exit (S R : Type) where
  | returned (s : S) (r : R)
  | panicked (s : S) (text : String)

/-- What a caller gets. -/
inductive Outcome (R : Type) where
  | value (r : R)
  | panic (text : String)
  | poisoned
  deriving DecidableEq

/-- The mutex and its callers, who are numbered as they call. -/
structure Mutex (S A R : Type) where
  data : S
  poisoned : Bool
  holder : Option Nat
  /-- What each caller called with. -/
  calls : List A
  /-- The callers who got the lock, in this order. -/
  locked : List Nat
  /-- What they got, once they have let go of the lock. -/
  results : List (Nat × Outcome R)

namespace Mutex

inductive Act (A : Type) where
  | call (a : A)
  | lock (caller : Nat)
  | unlock

def new (s : S) : Mutex S A R := ⟨s, false, none, [], [], []⟩

/-- What a caller finds behind the lock and what it leaves there. -/
def enter (body : S → A → Exit S R) (st : S × Bool) (a : A) : (S × Bool) × Outcome R :=
  if st.2 then (st, .poisoned)
  else match body st.1 a with
    | .returned s r => ((s, false), .value r)
    | .panicked s text => ((s, true), .panic text)

def step (body : S → A → Exit S R) (m : Mutex S A R) : Act A → Option (Mutex S A R)
  | .call a => some { m with calls := m.calls ++ [a] }
  | .lock i =>
    if i < m.calls.length ∧ i ∉ m.locked ∧ m.holder = none then
      some { m with holder := some i, locked := m.locked ++ [i] }
    else none
  | .unlock => do
    let i ← m.holder
    let a ← m.calls[i]?
    let (st, out) := enter body (m.data, m.poisoned) a
    some { m with data := st.1, poisoned := st.2, holder := none, results := m.results ++ [(i, out)] }

def run (body : S → A → Exit S R) (m : Mutex S A R) (acts : List (Act A)) : Option (Mutex S A R) :=
  acts.foldlM (step body) m

/-! ### One after the other -/

/-- The callers one after the other. -/
def serial (body : S → A → Exit S R) : S × Bool → List A → (S × Bool) × List (Outcome R)
  | st, [] => (st, [])
  | st, a :: as =>
    let (st', out) := enter body st a
    let (st'', outs) := serial body st' as
    (st'', out :: outs)

variable {body : S → A → Exit S R} {m m' : Mutex S A R} {s : S}

theorem serial_snoc (st : S × Bool) (as : List A) (a : A) : serial body st (as ++ [a]) =
    ((enter body (serial body st as).1 a).1, (serial body st as).2 ++ [(enter body (serial body st as).1 a).2]) := by
  induction as generalizing st with
  | nil => rfl
  | cons b as ih => simp only [List.cons_append, serial, ih]

/-! ### Runs -/

/-- What the callers who were served called with, in the order of the lock. -/
def served (m : Mutex S A R) : List A := m.results.filterMap fun r => m.calls[r.1]?

/-- The callers are served in the order of the lock, as if they came one after the other. -/
structure Linear (body : S → A → Exit S R) (s : S) (m : Mutex S A R) : Prop where
  bound : ∀ i ∈ m.locked, i < m.calls.length
  nodup : m.locked.Nodup
  order : m.locked = m.results.map (·.1) ++ m.holder.toList
  serial : serial body (s, false) m.served = ((m.data, m.poisoned), m.results.map (·.2))

theorem linear_new (s : S) : Linear body s (new s) := ⟨nofun, .nil, rfl, rfl⟩

theorem Linear.step {act : Act A} (hm : Linear body s m) (h : m.step body act = some m') : Linear body s m' := by
  cases act with
  | call a =>
    cases h
    have hserved : served { m with calls := m.calls ++ [a] } = m.served := by
      refine List.filterMap_congr fun r hr => ?_
      have hi : r.1 < m.calls.length := hm.bound r.1 (by rw [hm.order]; simp [List.mem_map_of_mem hr])
      exact List.getElem?_append_left hi
    refine ⟨fun i hi => ?_, hm.nodup, hm.order, ?_⟩
    · have hlt := hm.bound i hi
      simp only [List.length_append]
      omega
    · rw [hserved]
      exact hm.serial
  | lock i =>
    simp only [Mutex.step] at h
    split at h
    · rename_i hc
      obtain ⟨hi, hnew, hfree⟩ := hc
      cases h
      refine ⟨?_, ?_, ?_, hm.serial⟩
      · simpa [or_imp, forall_and] using ⟨hm.bound, hi⟩
      · rw [List.nodup_append]
        refine ⟨hm.nodup, by simp, ?_⟩
        rintro j hj _ hk rfl
        rw [List.mem_singleton] at hk
        exact hnew (hk ▸ hj)
      · rw [hm.order, hfree]
        simp
    · cases h
  | unlock =>
    simp only [Mutex.step] at h
    obtain ⟨i, hi, h⟩ := Option.bind_eq_some_iff.1 h
    obtain ⟨a, ha, h⟩ := Option.bind_eq_some_iff.1 h
    cases h
    refine ⟨hm.bound, hm.nodup, ?_, ?_⟩
    · rw [hm.order, hi]
      simp
    · have hserved : served { m with
          data := (enter body (m.data, m.poisoned) a).1.1
          poisoned := (enter body (m.data, m.poisoned) a).1.2
          holder := none
          results := m.results ++ [(i, (enter body (m.data, m.poisoned) a).2)] } = m.served ++ [a] := by
        simp [served, ha]
      rw [hserved, serial_snoc, hm.serial]
      simp

/-- Whatever holds at first and survives every step holds at the end of every run. -/
theorem run_induction {P : Mutex S A R → Prop} {acts : List (Act A)}
    (hstep : ∀ m m' act, P m → m.step body act = some m' → P m') (hP : P m) (h : m.run body acts = some m') : P m' := by
  induction acts generalizing m with
  | nil =>
    cases h
    exact hP
  | cons act acts ih =>
    rw [run, List.foldlM_cons] at h
    obtain ⟨m₁, h₁, h₂⟩ := Option.bind_eq_some_iff.1 h
    exact ih (hstep m m₁ act hP h₁) h₂

/-- Every run serves the callers in the order of the lock, as if they came one after the other. -/
theorem linearizable {acts : List (Act A)} (h : (new s).run body acts = some m) : Linear body s m :=
  run_induction (fun _ _ _ hm h => hm.step h) (linear_new s) h

/-- What every critical section keeps, and what each caller gets, is there in every run. -/
theorem served_itself {P : S → Prop} {acts : List (Act A)} (hP : P s)
    (hbody : ∀ st a, P st.1 → P (enter body st a).1.1) (h : (new s).run body acts = some m) :
    P m.data ∧ ∀ r ∈ m.results, ∃ a st, m.calls[r.1]? = some a ∧ P st.1 ∧ r.2 = (enter body st a).2 := by
  refine run_induction (P := fun m : Mutex S A R => P m.data ∧ ∀ r ∈ m.results, ∃ a st, m.calls[r.1]? = some a ∧
    P st.1 ∧ r.2 = (enter body st a).2) ?_ ⟨hP, fun r hr => absurd hr List.not_mem_nil⟩ h
  intro m m' act hm h
  cases act with
  | call a =>
    cases h
    refine ⟨hm.1, fun r hr => ?_⟩
    obtain ⟨a', st, ha', hst⟩ := hm.2 r hr
    exact ⟨a', st, by rw [List.getElem?_append_left (List.getElem?_eq_some_iff.1 ha').1, ha'], hst⟩
  | lock i =>
    simp only [Mutex.step] at h
    split at h
    · cases h
      exact hm
    · cases h
  | unlock =>
    simp only [Mutex.step] at h
    obtain ⟨i, hi, h⟩ := Option.bind_eq_some_iff.1 h
    obtain ⟨a, ha, h⟩ := Option.bind_eq_some_iff.1 h
    cases h
    refine ⟨hbody _ a hm.1, fun r hr => ?_⟩
    rcases List.mem_append.1 hr with hr | hr
    · exact hm.2 r hr
    · rw [List.mem_singleton.1 hr]
      exact ⟨a, (m.data, m.poisoned), ha, hm.1, rfl⟩

/-- Callers only come. -/
theorem calls_prefix {act : Act A} (h : m.step body act = some m') : m.calls <+: m'.calls := by
  cases act with
  | call a =>
    cases h
    exact List.prefix_append _ _
  | lock i =>
    simp only [Mutex.step] at h
    split at h
    · cases h
      exact List.prefix_rfl
    · cases h
  | unlock =>
    simp only [Mutex.step] at h
    obtain ⟨i, -, h⟩ := Option.bind_eq_some_iff.1 h
    obtain ⟨a, -, h⟩ := Option.bind_eq_some_iff.1 h
    cases h
    exact List.prefix_rfl

/-- A poisoned mutex stays so, and whoever is served by it is told so. -/
theorem poisoned_step {act : Act A} (hp : m.poisoned = true) (h : m.step body act = some m') :
    m'.poisoned = true ∧ ∀ r ∈ m'.results, r ∈ m.results ∨ r.2 = .poisoned := by
  cases act with
  | call a =>
    cases h
    exact ⟨hp, fun r hr => .inl hr⟩
  | lock i =>
    simp only [Mutex.step] at h
    split at h
    · cases h
      exact ⟨hp, fun r hr => .inl hr⟩
    · cases h
  | unlock =>
    simp only [Mutex.step] at h
    obtain ⟨i, -, h⟩ := Option.bind_eq_some_iff.1 h
    obtain ⟨a, -, h⟩ := Option.bind_eq_some_iff.1 h
    cases h
    refine ⟨by simp [enter, hp], fun r hr => ?_⟩
    rcases List.mem_append.1 hr with hr | hr
    · exact .inl hr
    · rw [List.mem_singleton.1 hr]
      exact .inr (by simp [enter, hp])

end Mutex

end Process
