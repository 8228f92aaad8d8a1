import Mathlib.Logic.Function.Basic

/-!
# Keys that are held one at a time

A table of the keys that are taken, next to the holders of keys. A holder takes a key that is
free and gives it back later; the table has just the keys that are held, and no key is held
twice.
-/

namespace KeyLock

variable {ι κ : Type} {holds : ι → Option κ} {taken : κ → Bool} {i : ι} {k : κ}

structure Inv (holds : ι → Option κ) (taken : κ → Bool) : Prop where
  taken_iff : ∀ k, taken k = true ↔ ∃ i, holds i = some k
  single : ∀ i i' k, holds i = some k → holds i' = some k → i = i'

theorem Inv.init : Inv (fun _ : ι => (none : Option κ)) fun _ => false :=
  ⟨fun _ => ⟨Bool.noConfusion, fun ⟨_, h⟩ => by cases h⟩, fun _ _ _ h => by cases h⟩

theorem update_eq_some [DecidableEq ι] {o : Option κ} {i' : ι} {k' : κ} :
    Function.update holds i o i' = some k' ↔
      i' = i ∧ o = some k' ∨ i' ≠ i ∧ holds i' = some k' := by
  by_cases hi : i' = i
  · subst hi
    simp
  · simp [hi]

variable [DecidableEq ι] [DecidableEq κ]

theorem Inv.take (h : Inv holds taken) (hi : holds i = none) (hk : taken k = false) :
    Inv (Function.update holds i (some k)) (Function.update taken k true) where
  taken_iff k' := by
    simp only [update_eq_some]
    by_cases hkk : k' = k
    · subst hkk
      simp
    · have hne : some k ≠ some k' := fun h => hkk (Option.some.inj h).symm
      rw [Function.update_of_ne hkk, h.taken_iff]
      refine ⟨fun ⟨i', hi'⟩ => ⟨i', .inr ⟨?_, hi'⟩⟩, fun ⟨i', hi'⟩ => ⟨i', ?_⟩⟩
      · rintro rfl
        rw [hi] at hi'
        cases hi'
      · exact (hi'.resolve_left fun h => hne h.2).2
  single i₁ i₂ k' h₁ h₂ := by
    have hfree : ∀ i', holds i' ≠ some k := by
      intro i' hi'
      rw [(h.taken_iff k).mpr ⟨i', hi'⟩] at hk
      cases hk
    rcases update_eq_some.mp h₁ with ⟨rfl, hk₁⟩ | ⟨-, hold₁⟩
    · rcases update_eq_some.mp h₂ with ⟨rfl, -⟩ | ⟨-, hold₂⟩
      · rfl
      · exact absurd (hold₂.trans hk₁.symm) (hfree i₂)
    · rcases update_eq_some.mp h₂ with ⟨rfl, hk₂⟩ | ⟨-, hold₂⟩
      · exact absurd (hold₁.trans hk₂.symm) (hfree i₁)
      · exact h.single i₁ i₂ k' hold₁ hold₂

theorem Inv.giveBack (h : Inv holds taken) (hi : holds i = some k) :
    Inv (Function.update holds i none) (Function.update taken k false) where
  taken_iff k' := by
    simp only [update_eq_some]
    by_cases hkk : k' = k
    · subst hkk
      rw [Function.update_self]
      refine ⟨Bool.noConfusion, fun ⟨i', hi'⟩ => ?_⟩
      obtain ⟨-, hnone⟩ | ⟨hne, hi'⟩ := hi'
      · cases hnone
      · exact absurd (h.single i' i k' hi' hi) hne
    · rw [Function.update_of_ne hkk, h.taken_iff]
      refine ⟨fun ⟨i', hi'⟩ => ⟨i', .inr ⟨?_, hi'⟩⟩, fun ⟨i', hi'⟩ => ⟨i', ?_⟩⟩
      · rintro rfl
        exact hkk (Option.some.inj (hi'.symm.trans hi))
      · exact (hi'.resolve_left fun h => by cases h.2).2
  single i₁ i₂ k' h₁ h₂ := by
    obtain ⟨-, hnone⟩ | ⟨-, h₁⟩ := update_eq_some.mp h₁
    · cases hnone
    · obtain ⟨-, hnone⟩ | ⟨-, h₂⟩ := update_eq_some.mp h₂
      · cases hnone
      · exact h.single i₁ i₂ k' h₁ h₂

end KeyLock
