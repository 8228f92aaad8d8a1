import Mathlib.Logic.Function.Iterate
import Mathlib.Logic.Relation

/-!
# Programs that share their state

A thread that works on a state together with others: its atomic steps, and the operations
at which it may wait. Between any two of its steps, and while it waits, the others may
change the state by steps of a relation `rely`.

* `Step`, `Reach`: the interleavings of the thread with the others.
* `wp`: what must hold so that the thread is `safe` wherever it waits and ends as wanted,
  whatever the others do; `Triple` with its rules for sequences, steps and waiting.
* `Triple.safe_of_reach`: a thread with a triple is safe wherever it waits.
* `advance`, `run`: the thread alone, for one step and to its end; `reach_advance` and
  `reach_run` say that this is one of the interleavings.
-/

namespace Interleaving

/-- A thread over a state `σ` that waits at operations `ω`. -/
inductive Prog (σ ω α : Type) : Type 1
  | ret (a : α)
  | atomic {β : Type} (f : σ → β × σ) (k : β → Prog σ ω α)
  | block (op : ω) (k : Prog σ ω α)

variable {σ ω α β : Type}

namespace Prog

def bind : Prog σ ω α → (α → Prog σ ω β) → Prog σ ω β
  | ret a, f => f a
  | atomic g k, f => atomic g fun b => (k b).bind f
  | block op k, f => block op (k.bind f)

instance : Monad (Prog σ ω) where
  pure := ret
  bind := bind

/-- One atomic step. -/
def step (f : σ → β × σ) : Prog σ ω β := atomic f ret

/-- One atomic step that returns nothing. -/
def modify (f : σ → σ) : Prog σ ω Unit := step fun s => ((), f s)

/-- An operation at which the thread may wait. -/
def wait (op : ω) : Prog σ ω Unit := block op (ret ())

/-- The operation at which the thread waits now. -/
def waitsAt : Prog σ ω α → Option ω
  | block op _ => some op
  | _ => none

end Prog

open Prog

/-! ## Interleavings -/

section Steps

variable (rely : σ → σ → Prop)

/-- A step of the thread or of the others. -/
inductive Step : Prog σ ω α × σ → Prog σ ω α × σ → Prop
  | atomic {γ : Type} (f : σ → γ × σ) (k : γ → Prog σ ω α) (s : σ) :
      Step (.atomic f k, s) (k (f s).1, (f s).2)
  | resume (op : ω) (k : Prog σ ω α) (s : σ) : Step (.block op k, s) (k, s)
  | other (p : Prog σ ω α) {s s' : σ} : rely s s' → Step (p, s) (p, s')

/-- What the thread and the others can come to. -/
def Reach : Prog σ ω α × σ → Prog σ ω α × σ → Prop := Relation.ReflTransGen (Step rely)

end Steps

/-! ## Weakest preconditions -/

section Wp

variable (rely : σ → σ → Prop) (safe : ω → σ → Prop)

/-- The states from which `p` waits only in safe states and ends in `Q`. -/
def wp : Prog σ ω α → (α → σ → Prop) → σ → Prop
  | .ret a, Q, s => ∀ s', Relation.ReflTransGen rely s s' → Q a s'
  | .atomic f k, Q, s =>
    ∀ s', Relation.ReflTransGen rely s s' → wp (k (f s').1) Q (f s').2
  | .block op k, Q, s => ∀ s', Relation.ReflTransGen rely s s' → safe op s' ∧ wp k Q s'

variable {rely safe}

variable {p : Prog σ ω α} {Q : α → σ → Prop}

theorem wp_of_rely {s s' : σ} (h : wp rely safe p Q s) (hs : Relation.ReflTransGen rely s s') :
    wp rely safe p Q s' := by
  cases p with
  | ret a => exact fun t ht => h t (hs.trans ht)
  | atomic f k => exact fun t ht => h t (hs.trans ht)
  | block op k => exact fun t ht => h t (hs.trans ht)

theorem wp_bind {f : α → Prog σ ω β} {Q : β → σ → Prop} {s : σ}
    (h : wp rely safe p (fun a => wp rely safe (f a) Q) s) : wp rely safe (p >>= f) Q s := by
  induction p generalizing s with
  | ret a => exact h s .refl
  | atomic g k ih => exact fun t ht => ih _ (h t ht)
  | block op k ih => exact fun t ht => ⟨(h t ht).1, ih (h t ht).2⟩

theorem wp_mono {Q' : α → σ → Prop} {s : σ} (hQ : ∀ a s, Q a s → Q' a s) (h : wp rely safe p Q s) :
    wp rely safe p Q' s := by
  induction p generalizing s with
  | ret a => exact fun t ht => hQ a t (h t ht)
  | atomic g k ih => exact fun t ht => ih _ (h t ht)
  | block op k ih => exact fun t ht => ⟨(h t ht).1, ih (h t ht).2⟩

theorem wp_step {p' : Prog σ ω α} {s s' : σ} (h : wp rely safe p Q s)
    (hstep : Step rely (p, s) (p', s')) : wp rely safe p' Q s' := by
  cases hstep with
  | atomic f k => exact h s .refl
  | resume op k => exact (h s .refl).2
  | other _ hs => exact wp_of_rely h (.single hs)

theorem wp_reach {s : σ} {c : Prog σ ω α × σ} (h : wp rely safe p Q s)
    (hreach : Reach rely (p, s) c) : wp rely safe c.1 Q c.2 := by
  induction hreach with
  | refl => exact h
  | tail _ hstep ih => exact wp_step ih hstep

end Wp

/-! ## Triples -/

/-- The others cannot make `P` false. -/
def Stable (rely : σ → σ → Prop) (P : σ → Prop) : Prop := ∀ s s', rely s s' → P s → P s'

theorem Stable.of_rely {rely : σ → σ → Prop} {P : σ → Prop} (h : Stable rely P) {s s' : σ}
    (hs : Relation.ReflTransGen rely s s') (hP : P s) : P s' := by
  induction hs with
  | refl => exact hP
  | tail _ hstep ih => exact h _ _ hstep ih

/-- From a state with `P` the thread is safe where it waits, and ends with `Q`. -/
structure Triple (rely : σ → σ → Prop) (safe : ω → σ → Prop) (P : σ → Prop) (p : Prog σ ω α)
    (Q : α → σ → Prop) : Prop where
  sound : ∀ s, P s → wp rely safe p Q s

namespace Triple

variable {rely : σ → σ → Prop} {safe : ω → σ → Prop} {P : σ → Prop}

theorem ret {a : α} {Q : α → σ → Prop} (hQ : Stable rely (Q a)) :
    Triple rely safe (Q a) (pure a) Q :=
  ⟨fun _ hs _ ht => hQ.of_rely ht hs⟩

theorem bind {p : Prog σ ω α} {f : α → Prog σ ω β} {R : α → σ → Prop} {Q : β → σ → Prop}
    (hp : Triple rely safe P p R) (hf : ∀ a, Triple rely safe (R a) (f a) Q) :
    Triple rely safe P (p >>= f) Q :=
  ⟨fun s hs => wp_bind (wp_mono (fun a => (hf a).sound) (hp.sound s hs))⟩

theorem step {f : σ → β × σ} {Q : β → σ → Prop} (hP : Stable rely P)
    (hQ : ∀ b, Stable rely (Q b)) (h : ∀ s, P s → Q (f s).1 (f s).2) :
    Triple rely safe P (step f) Q := by
  refine ⟨fun s hs t ht t' ht' => ?_⟩
  exact (hQ _).of_rely ht' (h t (hP.of_rely ht hs))

theorem modify {f : σ → σ} {Q : σ → Prop} (hP : Stable rely P) (hQ : Stable rely Q)
    (h : ∀ s, P s → Q (f s)) : Triple rely safe P (modify f) fun _ => Q :=
  step hP (fun _ => hQ) h

theorem wait {op : ω} (hP : Stable rely P) (h : ∀ s, P s → safe op s) :
    Triple rely safe P (wait op) fun _ => P := by
  refine ⟨fun s hs t ht => ?_⟩
  have hPt := hP.of_rely ht hs
  exact ⟨h t hPt, fun t' ht' => hP.of_rely ht' hPt⟩

/-- Wherever the thread waits, and however long, it is in a safe state. -/
theorem safe_of_reach {p : Prog σ ω α} {Q : α → σ → Prop} {s : σ} {c : Prog σ ω α × σ} {op : ω}
    (h : Triple rely safe P p Q) (hs : P s) (hreach : Reach rely (p, s) c)
    (hwaits : c.1.waitsAt = some op) : safe op c.2 := by
  have hwp := wp_reach (h.sound s hs) hreach
  obtain ⟨q, s'⟩ := c
  cases q with
  | ret a => cases hwaits
  | atomic f k => cases hwaits
  | block op' k =>
    cases hwaits
    exact (hwp s' .refl).1

end Triple

/-! ## Alone -/

/-- The next step of the thread. -/
def advance : Prog σ ω α × σ → Prog σ ω α × σ
  | (.ret a, s) => (.ret a, s)
  | (.atomic f k, s) => (k (f s).1, (f s).2)
  | (.block _ k, s) => (k, s)

theorem reach_advance (rely : σ → σ → Prop) (n : Nat) (c : Prog σ ω α × σ) :
    Reach rely c (advance^[n] c) := by
  induction n generalizing c with
  | zero => exact .refl
  | succ n ih =>
    obtain ⟨p, s⟩ := c
    cases p with
    | ret a => exact ih _
    | atomic f k => exact .head (.atomic f k s) (ih _)
    | block op k => exact .head (.resume op k s) (ih _)

/-- What the thread returns and leaves when the others do nothing. -/
def run : Prog σ ω α → σ → α × σ
  | .ret a, s => (a, s)
  | .atomic f k, s => run (k (f s).1) (f s).2
  | .block _ k, s => run k s

@[simp] theorem run_pure (a : α) (s : σ) : run (pure a : Prog σ ω α) s = (a, s) := rfl

@[simp] theorem run_step (f : σ → β × σ) (s : σ) : run (step f : Prog σ ω β) s = f s := rfl

@[simp] theorem run_modify (f : σ → σ) (s : σ) : run (modify f : Prog σ ω Unit) s = ((), f s) := rfl

@[simp] theorem run_wait (op : ω) (s : σ) : run (wait op : Prog σ ω Unit) s = ((), s) := rfl

@[simp] theorem run_bind (p : Prog σ ω α) (f : α → Prog σ ω β) (s : σ) :
    run (p >>= f) s = run (f (run p s).1) (run p s).2 := by
  induction p generalizing s with
  | ret a => rfl
  | atomic g k ih => exact ih _ _
  | block op k ih => exact ih s

theorem reach_run (rely : σ → σ → Prop) (p : Prog σ ω α) (s : σ) :
    Reach rely (p, s) (.ret (run p s).1, (run p s).2) := by
  induction p generalizing s with
  | ret a => exact .refl
  | atomic f k ih => exact .head (.atomic f k s) (ih _ _)
  | block op k ih => exact .head (.resume op k s) (ih s)

end Interleaving
