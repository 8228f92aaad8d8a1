import Mathlib.Data.List.Induction
import Mathlib.Data.List.Range

/-!
# Filling and searching a keyed store

A store is a partial map from keys to values. Two general facts about programs
that work on one:

* `written_of_present`: along a history whose operations add nothing but what
  they write, every value present was written by an operation of the history;
* `search_eq_some`, `search_eq_none`: a search that goes down a numbered chain of
  keys, making each key from the one before, finds the entry with the highest
  number.
-/

namespace KeyedStore

variable {κ V : Type}

/-! ## Histories -/

section History

variable {σ ω : Type} {read : σ → κ → Option V} {step : σ → ω → σ} {writes : ω → κ → V → Prop}

theorem written_of_present
    (hstep : ∀ s o k v, read (step s o) k = some v → read s k = some v ∨ writes o k v)
    {init : σ} (hinit : ∀ k, read init k = none) {ops : List ω} {k : κ} {v : V}
    (h : read (ops.foldl step init) k = some v) : ∃ o ∈ ops, writes o k v := by
  induction ops using List.reverseRecOn with
  | nil => rw [List.foldl_nil, hinit] at h; cases h
  | append_singleton ops o ih =>
    rw [List.foldl_append, List.foldl_cons, List.foldl_nil] at h
    rcases hstep _ _ _ _ h with hold | hnew
    · obtain ⟨o', ho', hw⟩ := ih hold
      exact ⟨o', List.mem_append_left _ ho', hw⟩
    · exact ⟨o, by simp, hnew⟩

end History

/-! ## Searching down a chain of keys -/

variable (lookup : κ → Option V) (next : κ → Nat → κ)

/-- Looks at the keys numbered `m`, `m - 1`, …, `0` until one is present, with the
key at which it stops. `next k j` is the key numbered `j`, made from the key
numbered `j + 1`. -/
def search : Nat → κ → Option V × κ
  | 0, k => (lookup k, k)
  | m + 1, k =>
    match lookup k with
    | some v => (some v, k)
    | none => search m (next k m)

/-- The keys a search looks at when it finds nothing. -/
def visited : Nat → κ → List κ
  | 0, k => [k]
  | m + 1, k => k :: visited m (next k m)

variable {lookup next} {key : Nat → κ} {m : Nat}

theorem visited_eq (hnext : ∀ j < m, next (key (j + 1)) j = key j) :
    visited next m (key m) = (List.range (m + 1)).reverse.map key := by
  induction m with
  | zero => rfl
  | succ m ih =>
    rw [visited, hnext m (Nat.lt_succ_self m), ih fun j hj => hnext j (by omega),
      List.range_succ (n := m + 1), List.reverse_append]
    rfl

theorem search_eq_none (hnext : ∀ j < m, next (key (j + 1)) j = key j)
    (h : (search lookup next m (key m)).1 = none) : ∀ j ≤ m, lookup (key j) = none := by
  induction m with
  | zero =>
    intro j hj
    obtain rfl : j = 0 := by omega
    exact h
  | succ m ih =>
    rw [search, hnext m (Nat.lt_succ_self m)] at h
    split at h
    · cases h
    · next hm =>
      intro j hj
      rcases Nat.lt_or_ge j (m + 1) with hlt | hge
      · exact ih (fun i hi => hnext i (by omega)) h j (by omega)
      · obtain rfl : j = m + 1 := by omega
        exact hm

theorem search_eq_some (hnext : ∀ j < m, next (key (j + 1)) j = key j) {v : V} {k : κ}
    (h : search lookup next m (key m) = (some v, k)) :
    ∃ j ≤ m, k = key j ∧ lookup (key j) = some v ∧ ∀ i ≤ m, j < i → lookup (key i) = none := by
  induction m with
  | zero =>
    obtain ⟨hv, hk⟩ := Prod.mk.inj h
    exact ⟨0, Nat.le_refl 0, hk.symm, hv, fun i hi hlt => by omega⟩
  | succ m ih =>
    rw [search, hnext m (Nat.lt_succ_self m)] at h
    split at h
    · next w hm =>
      obtain ⟨hv, hk⟩ := Prod.mk.inj h
      exact ⟨m + 1, Nat.le_refl _, hk.symm, hm.trans hv, fun i hi hlt => by omega⟩
    · next hm =>
      obtain ⟨j, hj, hk, hv, hlonger⟩ := ih (fun i hi => hnext i (by omega)) h
      refine ⟨j, by omega, hk, hv, fun i hi hlt => ?_⟩
      rcases Nat.lt_or_ge i (m + 1) with hlt' | hge
      · exact hlonger i (by omega) hlt
      · obtain rfl : i = m + 1 := by omega
        exact hm

end KeyedStore
