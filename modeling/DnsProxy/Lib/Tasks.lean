import Mathlib.Data.List.Basic

/-!
# Tasks over a shared state

A system of tasks that take turns: one of them moves, and changes its own state and the shared
one. Tasks are added and never removed, so that a task is known by its index.

* `System.put`, `System.spawn`: the two changes, and what they leave alone.
* `Each P`: every task meets `P`, which may depend on the shared state. `Each.put` asks for `P`
  of the task that has moved, and that the others keep it.
-/

namespace Tasks

variable {σ τ : Type}

structure System (σ τ : Type) where
  shared : σ
  tasks : List τ := []

namespace System

/-- The task `i` has moved. -/
def put (s : System σ τ) (i : Nat) (shared : σ) (t : τ) : System σ τ := ⟨shared, s.tasks.set i t⟩

def spawn (s : System σ τ) (t : τ) : System σ τ := { s with tasks := s.tasks ++ [t] }

variable {s : System σ τ} {i j : Nat} {t u : τ} {shared : σ}

theorem getElem?_put_self (h : s.tasks[i]? = some t) (u : τ) :
    (s.put i shared u).tasks[i]? = some u :=
  List.getElem?_set_self (List.getElem?_eq_some_iff.1 h).1

theorem getElem?_put_ne (h : i ≠ j) (u : τ) : (s.put i shared u).tasks[j]? = s.tasks[j]? :=
  List.getElem?_set_ne h

theorem getElem?_spawn (h : s.tasks[i]? = some t) (u : τ) : (s.spawn u).tasks[i]? = some t := by
  rw [spawn, List.getElem?_append_left (List.getElem?_eq_some_iff.1 h).1]
  exact h

theorem getElem?_spawn_cases (h : (s.spawn u).tasks[i]? = some t) :
    s.tasks[i]? = some t ∨ (i = s.tasks.length ∧ t = u) := by
  rcases Nat.lt_trichotomy i s.tasks.length with hi | hi | hi
  · rw [spawn, List.getElem?_append_left hi] at h
    exact Or.inl h
  · subst hi
    rw [spawn, List.getElem?_concat_length] at h
    exact Or.inr ⟨rfl, (Option.some.inj h).symm⟩
  · rw [spawn, List.getElem?_eq_none (by rw [List.length_append]; exact hi)] at h
    cases h

end System

/-- Every task meets `P`. -/
def Each (P : σ → Nat → τ → Prop) (s : System σ τ) : Prop :=
  ∀ i t, s.tasks[i]? = some t → P s.shared i t

namespace Each

variable {P : σ → Nat → τ → Prop} {s : System σ τ} {i : Nat} {t u : τ} {shared : σ}

theorem put (h : Each P s) (hi : s.tasks[i]? = some t) (hself : P shared i u)
    (hothers : ∀ j v, j ≠ i → P s.shared j v → P shared j v) : Each P (s.put i shared u) := by
  intro j v hj
  by_cases hij : i = j
  · subst hij
    rw [System.getElem?_put_self hi] at hj
    cases hj
    exact hself
  · rw [System.getElem?_put_ne hij] at hj
    exact hothers j v (Ne.symm hij) (h j v hj)

theorem spawn (h : Each P s) (hu : P s.shared s.tasks.length u) : Each P (s.spawn u) := by
  intro i t hi
  rcases System.getElem?_spawn_cases hi with hi | ⟨rfl, rfl⟩
  · exact h i t hi
  · exact hu

end Each

end Tasks
