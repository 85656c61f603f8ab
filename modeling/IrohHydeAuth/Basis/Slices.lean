import Mathlib.Data.List.Perm.Basic

/-!
# Systems that fall into slices

A state machine whose state falls into slices, one for each key, and whose events each belong to one key: an event
changes only the slice of its key, as a function of that slice, and whether it is possible depends on that slice alone.
Events may also carry a token, and no two events of a run share one.

Then a run is possible exactly if its tokens are distinct and the events of each key are possible one after the other on
their slice (`Slices.run_isSome_iff`), and it leaves in each slice what the events of its key alone make of it
(`Slices.slice_run`).  So the events of one key run by themselves (`Slices.run_ofKey`), and events of different keys
commute: what matters is the order among the events of each key (`Slices.run_reorder`).
-/

namespace Process

/-- The steps of `step`, taken apart into slices. -/
structure Slices {S E K L T : Type} [DecidableEq K] (step : S → E → Option S) (key : E → K) (slice : S → K → L)
    (token : E → Option T) where
  /-- What an event does to the slice of its key. -/
  act : L → E → L
  /-- Whether the slice of its key lets an event happen. -/
  enabled : L → E → Prop
  /-- The tokens that were used. -/
  used : S → List T
  inv : S → Prop
  inv_step : ∀ {s s' e}, inv s → step s e = some s' → inv s'
  slice_step : ∀ {s s' e}, inv s → step s e = some s' → ∀ k,
    slice s' k = if key e = k then act (slice s k) e else slice s k
  used_step : ∀ {s s' e}, step s e = some s' → ∀ t, t ∈ used s' ↔ t ∈ used s ∨ token e = some t
  possible : ∀ {s e}, inv s → ((∃ s', step s e = some s') ↔
    (∀ t, token e = some t → t ∉ used s) ∧ enabled (slice s (key e)) e)

namespace Slices

variable {S E K L T : Type} [DecidableEq K] {step : S → E → Option S} {key : E → K} {slice : S → K → L}
  {token : E → Option T} (σ : Slices step key slice token) {s s' : S} {es es' : List E} {k : K}

/-- The events of one key. -/
def ofKey (key : E → K) (k : K) (es : List E) : List E := es.filter fun e => key e = k

/-- The events are possible one after the other on one slice. -/
def Runs : L → List E → Prop
  | _, [] => True
  | l, e :: es => σ.enabled l e ∧ Runs (σ.act l e) es

private theorem run_cons {e : E} {s'' : S} : (e :: es).foldlM step s = some s'' ↔
    ∃ s', step s e = some s' ∧ es.foldlM step s' = some s'' := by
  rw [List.foldlM_cons]
  exact Option.bind_eq_some_iff

private theorem ofKey_cons (e : E) :
    ofKey key k (e :: es) = if key e = k then e :: ofKey key k es else ofKey key k es := by
  by_cases h : key e = k
  · simp [ofKey, h]
  · simp [ofKey, h]

/-- A run leaves in each slice what the events of its key make of it. -/
theorem slice_run (hs : σ.inv s) (h : es.foldlM step s = some s') (k : K) :
    slice s' k = (ofKey key k es).foldl σ.act (slice s k) := by
  induction es generalizing s with
  | nil =>
    cases h
    rfl
  | cons e es ih =>
    obtain ⟨s₁, h₁, h₂⟩ := run_cons.1 h
    rw [ih (σ.inv_step hs h₁) h₂, σ.slice_step hs h₁, ofKey_cons]
    by_cases hk : key e = k
    · rw [if_pos hk, if_pos hk, List.foldl_cons]
    · rw [if_neg hk, if_neg hk]

/-- The tokens of the events are new and distinct. -/
def NewTokens (s : S) (es : List E) : Prop :=
  (es.filterMap token).Nodup ∧ ∀ t ∈ es.filterMap token, t ∉ σ.used s

private theorem newTokens_cons {e : E} (h : step s e = some s') : σ.NewTokens s (e :: es) ↔
    (∀ t, token e = some t → t ∉ σ.used s) ∧ σ.NewTokens s' es := by
  have hused := σ.used_step h
  cases ht : token e with
  | none =>
    simp only [NewTokens, List.filterMap_cons, ht, reduceCtorEq, false_implies, implies_true, true_and]
    refine and_congr_right fun _ => forall₂_congr fun t _ => ?_
    rw [hused, ht]
    simp
  | some t =>
    simp only [NewTokens, List.filterMap_cons, ht, List.nodup_cons, List.forall_mem_cons, Option.some.injEq, forall_eq']
    constructor
    · rintro ⟨⟨hnot, hnodup⟩, hnew, hrest⟩
      refine ⟨hnew, hnodup, fun t' ht' hu => ?_⟩
      rcases (hused t').1 hu with hu | hu
      · exact hrest t' ht' hu
      · rw [ht, Option.some.injEq] at hu
        exact hnot (hu ▸ ht')
    · rintro ⟨hnew, hnodup, hrest⟩
      exact ⟨⟨fun hm => hrest t hm ((hused t).2 (.inr ht)), hnodup⟩, hnew,
        fun t' ht' hu => hrest t' ht' ((hused t').2 (.inl hu))⟩

private theorem runs_cons {e : E} (hs : σ.inv s) (h : step s e = some s') :
    (∀ k, σ.Runs (slice s k) (ofKey key k (e :: es))) ↔
      σ.enabled (slice s (key e)) e ∧ ∀ k, σ.Runs (slice s' k) (ofKey key k es) := by
  have hslice := σ.slice_step hs h
  constructor
  · intro hruns
    refine ⟨?_, fun k => ?_⟩
    · have hkey := hruns (key e)
      rw [ofKey_cons, if_pos rfl] at hkey
      exact hkey.1
    · have hk := hruns k
      rw [ofKey_cons] at hk
      rw [hslice]
      split
      · rw [if_pos ‹_›] at hk
        exact hk.2
      · rwa [if_neg ‹_›] at hk
  · rintro ⟨hen, hruns⟩ k
    have hk := hruns k
    rw [hslice] at hk
    rw [ofKey_cons]
    split
    · rename_i he
      rw [if_pos he] at hk
      subst he
      exact ⟨hen, hk⟩
    · rwa [if_neg ‹_›] at hk

/-- A run is possible exactly if its tokens are new and distinct and the events of each key are possible by
themselves. -/
theorem run_isSome_iff (hs : σ.inv s) : (∃ s', es.foldlM step s = some s') ↔
    σ.NewTokens s es ∧ ∀ k, σ.Runs (slice s k) (ofKey key k es) := by
  induction es generalizing s with
  | nil => simp [ofKey, Runs, NewTokens]
  | cons e es ih =>
    constructor
    · rintro ⟨s₂, h⟩
      obtain ⟨s₁, h₁, h₂⟩ := run_cons.1 h
      obtain ⟨hnew, hen⟩ := (σ.possible hs).1 ⟨s₁, h₁⟩
      obtain ⟨htokens, hruns⟩ := (ih (σ.inv_step hs h₁)).1 ⟨s₂, h₂⟩
      exact ⟨(σ.newTokens_cons h₁).2 ⟨hnew, htokens⟩, (σ.runs_cons hs h₁).2 ⟨hen, hruns⟩⟩
    · rintro ⟨htokens, hruns⟩
      have hnew : ∀ t, token e = some t → t ∉ σ.used s := fun t ht => htokens.2 t (by simp [ht])
      have hen : σ.enabled (slice s (key e)) e := by
        have hkey := hruns (key e)
        rw [ofKey_cons, if_pos rfl] at hkey
        exact hkey.1
      obtain ⟨s₁, h₁⟩ := (σ.possible hs).2 ⟨hnew, hen⟩
      obtain ⟨s₂, h₂⟩ := (ih (σ.inv_step hs h₁)).2
        ⟨((σ.newTokens_cons h₁).1 htokens).2, ((σ.runs_cons hs h₁).1 hruns).2⟩
      exact ⟨s₂, run_cons.2 ⟨s₁, h₁, h₂⟩⟩

/-- The events of one key run by themselves, and leave the same in their slice. -/
theorem run_ofKey (hs : σ.inv s) (h : es.foldlM step s = some s') (k : K) :
    ∃ s'', (ofKey key k es).foldlM step s = some s'' ∧ slice s'' k = slice s' k := by
  obtain ⟨⟨hnodup, hnew⟩, hruns⟩ := (σ.run_isSome_iff hs).1 ⟨s', h⟩
  have hsub : ((ofKey key k es).filterMap token).Sublist (es.filterMap token) := List.filter_sublist.filterMap token
  have hself : ofKey key k (ofKey key k es) = ofKey key k es := by simp [ofKey]
  have hother : ∀ k', k' ≠ k → ofKey key k' (ofKey key k es) = [] := by
    intro k' hk
    rw [ofKey, ofKey, List.filter_filter, List.filter_eq_nil_iff]
    rintro e -
    simp only [Bool.and_eq_true, decide_eq_true_eq, not_and]
    rintro rfl
    exact hk
  have hrun : ∃ s'', (ofKey key k es).foldlM step s = some s'' := by
    refine (σ.run_isSome_iff hs).2 ⟨⟨hnodup.sublist hsub, fun t ht => hnew t (hsub.subset ht)⟩, fun k' => ?_⟩
    by_cases hk : k' = k
    · rw [hk, hself]
      exact hruns k
    · rw [hother k' hk]
      trivial
  obtain ⟨s'', h''⟩ := hrun
  exact ⟨s'', h'', by rw [σ.slice_run hs h'', σ.slice_run hs h, hself]⟩

/-- Events with the same order among those of each key are the same events. -/
private theorem perm_of_ofKey (h : ∀ k, ofKey key k es' = ofKey key k es) : es'.Perm es := by
  classical
  rw [List.perm_iff_count]
  intro e
  have hcount : ∀ l : List E, l.count e = (ofKey key (key e) l).count e := by
    intro l
    rw [ofKey, List.count_filter (by simp)]
  rw [hcount es', hcount es, h]

/-- Events of different keys commute: as long as the order among the events of each key stays the same, the run is
possible and leaves the same in every slice. -/
theorem run_reorder (hs : σ.inv s) (h : es.foldlM step s = some s') (hsame : ∀ k, ofKey key k es' = ofKey key k es) :
    ∃ s'', es'.foldlM step s = some s'' ∧ ∀ k, slice s'' k = slice s' k := by
  obtain ⟨⟨hnodup, hnew⟩, hruns⟩ := (σ.run_isSome_iff hs).1 ⟨s', h⟩
  have hperm : (es'.filterMap token).Perm (es.filterMap token) := (perm_of_ofKey hsame).filterMap token
  have hrun : ∃ s'', es'.foldlM step s = some s'' := by
    refine (σ.run_isSome_iff hs).2 ⟨⟨hperm.nodup_iff.2 hnodup, fun t ht => hnew t (hperm.mem_iff.1 ht)⟩, fun k => ?_⟩
    rw [hsame]
    exact hruns k
  obtain ⟨s'', h''⟩ := hrun
  exact ⟨s'', h'', fun k => by rw [σ.slice_run hs h'', σ.slice_run hs h, hsame]⟩

end Slices

end Process
