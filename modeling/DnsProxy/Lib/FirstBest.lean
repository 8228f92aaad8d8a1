import Mathlib.Data.List.MinMax
import Mathlib.Data.List.Nodup

/-!
# The first of the best

What `List.argmax f` takes from a list in terms of the order of the list: the first member
with the greatest value.

* `splits_of_argmax`, `argmax_of_splits`: where it stands.
* `argmax_congr_filter`: only the order among members of the same value matters.
* `argmax_perm`: without two members of the same value no order matters.
-/

namespace FirstBest

variable {α β : Type} [LinearOrder β] {f : α → β} {l l' : List α} {m : α}

/-- The members before `m` are worse than `m`, those after it are not better. -/
def Splits (f : α → β) (l : List α) (m : α) : Prop :=
  ∃ before after, l = before ++ m :: after ∧ (∀ x ∈ before, f x < f m) ∧ ∀ x ∈ after, f x ≤ f m

theorem splits_of_argmax (h : l.argmax f = some m) : Splits f l m := by
  induction l generalizing m with
  | nil => cases h
  | cons a l ih =>
    rw [List.argmax_cons] at h
    cases hrest : l.argmax f with
    | none =>
      rw [hrest] at h
      cases h
      obtain rfl := List.argmax_eq_none.mp hrest
      exact ⟨[], [], rfl, nofun, nofun⟩
    | some c =>
      rw [hrest] at h
      dsimp only at h
      split at h
      · next hlt =>
        cases h
        obtain ⟨before, after, rfl, hbefore, hafter⟩ := ih hrest
        exact ⟨a :: before, after, rfl, List.forall_mem_cons.mpr ⟨hlt, hbefore⟩, hafter⟩
      · next hle =>
        cases h
        refine ⟨[], l, rfl, nofun, fun x hx => ?_⟩
        exact (List.le_of_mem_argmax hx hrest).trans (le_of_not_gt hle)

theorem argmax_of_splits (h : Splits f l m) : l.argmax f = some m := by
  obtain ⟨before, after, rfl, hbefore, hafter⟩ := h
  induction before with
  | nil =>
    rw [List.nil_append, List.argmax_cons]
    cases hrest : after.argmax f with
    | none => rfl
    | some c => exact if_neg (not_lt_of_ge (hafter c (List.argmax_mem hrest)))
  | cons a before ih =>
    obtain ⟨ha, hbefore⟩ := List.forall_mem_cons.mp hbefore
    rw [List.cons_append, List.argmax_cons, ih hbefore]
    exact if_pos ha

theorem argmax_congr_filter (h : ∀ p, l.filter (f · = p) = l'.filter (f · = p)) :
    l.argmax f = l'.argmax f := by
  have hmem : ∀ x, x ∈ l ↔ x ∈ l' := by
    intro x
    have hx := congrArg (x ∈ ·) (h (f x))
    simpa using hx
  cases hmax : l.argmax f with
  | none =>
    obtain rfl := List.argmax_eq_none.mp hmax
    have hnil : l' = [] := List.eq_nil_iff_forall_not_mem.mpr fun x hx =>
      List.not_mem_nil ((hmem x).mpr hx)
    rw [hnil, List.argmax_nil]
  | some m =>
    obtain ⟨before, after, rfl, hbefore, hafter⟩ := splits_of_argmax hmax
    have hle : ∀ x ∈ l', f x ≤ f m := fun x hx => List.le_of_mem_argmax ((hmem x).mpr hx) hmax
    -- `m` is the first member of its value in one list, and so in the other
    have hfirst : l'.filter (f · = f m) = m :: after.filter (f · = f m) := by
      rw [← h, List.filter_append, List.filter_cons_of_pos (by simp),
        List.filter_eq_nil_iff.mpr fun x hx => by simpa using (hbefore x hx).ne, List.nil_append]
    obtain ⟨before', after', rfl, hother, -, -⟩ := List.filter_eq_cons_iff.mp hfirst
    refine (argmax_of_splits ⟨before', after', rfl, fun x hx => ?_, fun x hx => ?_⟩).symm
    · exact lt_of_le_of_ne (hle x (by simp [hx])) (by simpa using hother x hx)
    · exact hle x (by simp [hx])

theorem argmax_perm (hperm : l.Perm l') (hdistinct : (l.map f).Nodup) :
    l.argmax f = l'.argmax f := by
  cases hmax' : l'.argmax f with
  | none =>
    obtain rfl := List.argmax_eq_none.mp hmax'
    rw [hperm.eq_nil, List.argmax_nil]
  | some m' =>
    have hm' : m' ∈ l := hperm.mem_iff.mpr (List.argmax_mem hmax')
    cases hmax : l.argmax f with
    | none =>
      rw [List.argmax_eq_none.mp hmax] at hm'
      cases hm'
    | some m =>
      have hm := List.argmax_mem hmax
      have heq : f m = f m' := le_antisymm
        (List.le_of_mem_argmax (hperm.mem_iff.mp hm) hmax') (List.le_of_mem_argmax hm' hmax)
      rw [List.inj_on_of_nodup_map hdistinct hm hm' heq]

end FirstBest
