import Mathlib.Logic.Relation

/-!
# Runs

The states that a system reaches by its steps.

* `Run`: the states reached by steps that meet a guard, with the rule for invariants, and
  `replay` for a run with given actions.
* `Steps`: the states reached by a number of steps of a relation.
-/

namespace Runs

variable {σ ε : Type}

/-- The states reached from `s₀` by steps that meet `guard`. -/
inductive Run (step : σ → ε → Option σ) (guard : σ → ε → Prop) (s₀ : σ) : σ → Prop
  | refl : Run step guard s₀ s₀
  | step {s s' : σ} {e : ε} (h : Run step guard s₀ s) (hguard : guard s e)
      (hs : step s e = some s') : Run step guard s₀ s'

/-- Any step is allowed. -/
def anyStep (_ : σ) (_ : ε) : Prop := True

variable {step : σ → ε → Option σ} {guard : σ → ε → Prop} {s₀ s s' : σ}

theorem Run.invariant {p : σ → Prop} (h : Run step guard s₀ s) (h₀ : p s₀)
    (hstep : ∀ s e s', p s → guard s e → step s e = some s' → p s') : p s := by
  induction h with
  | refl => exact h₀
  | step _ hguard hs ih => exact hstep _ _ _ ih hguard hs

theorem Run.any (h : Run step guard s₀ s) : Run step anyStep s₀ s := by
  induction h with
  | refl => exact .refl
  | step _ _ hs ih => exact .step ih trivial hs

/-- The state after the given actions, if they are possible one after the other and meet the
guard. -/
def replay (step : σ → ε → Option σ) (guard : σ → ε → Bool) (s : σ) : List ε → Option σ
  | [] => some s
  | e :: es => if guard s e then (step s e).bind fun s => replay step guard s es else none

theorem Run.of_replay {check : σ → ε → Bool} {es : List ε} (h : Run step guard s₀ s)
    (hguard : ∀ e ∈ es, ∀ s, check s e = true → guard s e)
    (hs : replay step check s es = some s') : Run step guard s₀ s' := by
  induction es generalizing s with
  | nil =>
    cases hs
    exact h
  | cons e es ih =>
    rw [replay] at hs
    split at hs
    · next hcheck =>
      obtain ⟨t, ht, hrest⟩ := Option.bind_eq_some_iff.mp hs
      exact ih (.step h (hguard e List.mem_cons_self s hcheck) ht)
        (fun e' he' => hguard e' (List.mem_cons_of_mem e he')) hrest
    · cases hs

theorem run_of_replay {guard : σ → ε → Bool} {es : List ε}
    (h : replay step guard s es = some s') (hs : Run step (fun s e => guard s e = true) s₀ s) :
    Run step (fun s e => guard s e = true) s₀ s' :=
  hs.of_replay (fun _ _ _ hguard => hguard) h

/-! ## Counted steps -/

/-- The states reached from `s₀` by so many steps. -/
inductive Steps (next : σ → σ → Prop) (s₀ : σ) : Nat → σ → Prop
  | zero : Steps next s₀ 0 s₀
  | succ {n : Nat} {s s' : σ} : Steps next s₀ n s → next s s' → Steps next s₀ (n + 1) s'

theorem Steps.reflTransGen {next : σ → σ → Prop} {n : Nat} (h : Steps next s₀ n s) :
    Relation.ReflTransGen next s₀ s := by
  induction h with
  | zero => exact .refl
  | succ _ hnext ih => exact ih.tail hnext

end Runs
