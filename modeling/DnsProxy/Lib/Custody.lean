import DnsProxy.Lib.Runs
import Mathlib.Algebra.BigOperators.Group.List.Basic
import Mathlib.Algebra.BigOperators.Group.Multiset.Basic
import Mathlib.Data.Multiset.Range
import Mathlib.Data.Multiset.UnionInter
import Mathlib.Tactic.Abel

/-!
# Resources that change hands

Resources that are made one after the other and handed around in a system. They are numbered
in the order in which they are made.

* `total`: what the members of a list hold together, and how it changes with one member.
* `Accounts n p`: the resources in the places `p` are those made so far, each once.
-/

/-! ## Who holds what -/

namespace Custody

variable {α τ : Type}

/-- What the members of `l` hold. -/
def total (f : τ → Multiset α) (l : List τ) : Multiset α := (l.map f).sum

section Total

variable {f : τ → Multiset α} {l : List τ} {i j : Nat} {t u : τ} {x : α}

@[simp] theorem total_nil : total f [] = 0 := rfl

@[simp] theorem total_cons (t : τ) (l : List τ) : total f (t :: l) = f t + total f l := rfl

@[simp] theorem total_concat (l : List τ) (t : τ) : total f (l ++ [t]) = total f l + f t := by
  simp [total]

theorem total_add (f g : τ → Multiset α) (l : List τ) :
    total (fun t => f t + g t) l = total f l + total g l := by
  induction l with
  | nil => rfl
  | cons t l ih =>
    simp only [total_cons, ih]
    abel

theorem total_congr {g : τ → Multiset α} (h : ∀ t ∈ l, f t = g t) : total f l = total g l := by
  simp only [total, List.map_congr_left h]

theorem total_set (h : l[i]? = some t) (t' : τ) :
    total f (l.set i t') + f t = total f l + f t' := by
  induction l generalizing i with
  | nil => simp at h
  | cons a l ih =>
    cases i with
    | zero =>
      obtain rfl : a = t := Option.some.inj h
      simp only [List.set_cons_zero, total_cons]
      abel
    | succ i =>
      have hl := ih h
      simp only [List.set_cons_succ, total_cons, add_assoc, hl]

theorem total_set_same (h : l[i]? = some t) (heq : f u = f t) :
    total f (l.set i u) = total f l := by
  have hset := total_set (f := f) h u
  rw [heq] at hset
  exact add_right_cancel hset

theorem total_set_gain (h : l[i]? = some t) (ht : f t = 0) (t' : τ) :
    total f (l.set i t') = total f l + f t' := by
  have hset := total_set (f := f) h t'
  rwa [ht, add_zero] at hset

theorem total_set_lose (h : l[i]? = some t) (hu : f u = 0) :
    total f l = total f (l.set i u) + f t := by
  have hset := total_set (f := f) h u
  rw [hu, add_zero] at hset
  exact hset.symm

theorem forall_mem_set {p : τ → Prop} (h : ∀ u ∈ l, p u) (ht : p t) : ∀ u ∈ l.set i t, p u := by
  intro u hu
  rcases List.mem_or_eq_of_mem_set hu with hmem | rfl
  · exact h u hmem
  · exact ht

theorem forall_mem_concat {p : τ → Prop} (h : ∀ u ∈ l, p u) (ht : p t) : ∀ u ∈ l ++ [t], p u :=
  List.forall_mem_append.mpr ⟨h, List.forall_mem_singleton.mpr ht⟩

theorem mem_set_or_eq (h : l[i]? = some t) (hu : u ∈ l) (t' : τ) : u ∈ l.set i t' ∨ u = t := by
  obtain ⟨j, hj⟩ := List.mem_iff_getElem?.mp hu
  rcases eq_or_ne i j with rfl | hne
  · exact .inr (Option.some.inj (hj.symm.trans h))
  · exact .inl (List.mem_iff_getElem?.mpr ⟨j, by rw [List.getElem?_set_ne hne, hj]⟩)

theorem mem_total : x ∈ total f l ↔ ∃ t ∈ l, x ∈ f t := by
  induction l with
  | nil => simp
  | cons a l ih => simp [ih]

theorem holder_unique (h : (total f l).Nodup) (hi : l[i]? = some t) (hj : l[j]? = some u)
    (ht : x ∈ f t) (hu : x ∈ f u) : i = j := by
  induction l generalizing i j with
  | nil => simp at hi
  | cons a l ih =>
    obtain ⟨-, hrest, hdisjoint⟩ := Multiset.nodup_add.mp h
    have hapart : ∀ k v, l[k]? = some v → x ∈ f v → x ∉ f a := fun k v hk hv ha =>
      Multiset.disjoint_left.mp hdisjoint ha (mem_total.mpr ⟨v, List.mem_of_getElem? hk, hv⟩)
    cases i with
    | zero =>
      cases j with
      | zero => rfl
      | succ j =>
        obtain rfl : a = t := Option.some.inj hi
        exact absurd ht (hapart j u hj hu)
    | succ i =>
      cases j with
      | zero =>
        obtain rfl : a = u := Option.some.inj hj
        exact absurd hu (hapart i t hi ht)
      | succ j => exact congrArg (· + 1) (ih hrest hi hj)

end Total

/-- The places hold the resources made so far, each of them once. -/
def Accounts (n : Nat) (places : Multiset Nat) : Prop := places = Multiset.range n

namespace Accounts

variable {n : Nat} {p q : Multiset Nat} {x : Nat}

theorem of_eq (h : Accounts n p) (heq : p = q) : Accounts n q := heq ▸ h

theorem fresh (h : Accounts n p) : Accounts (n + 1) (p + {n}) := by
  rw [Accounts, h, Multiset.range_succ, add_comm, Multiset.singleton_add]

theorem freshRange (h : Accounts n p) (k : Nat) : Accounts (n + k) (p + List.range' n k) := by
  rw [Accounts, h, Multiset.range, Multiset.range, Multiset.coe_add, List.range_eq_range',
    List.range_eq_range', ← List.range'_append_1, Nat.zero_add]

theorem nodup (h : Accounts n p) : p.Nodup := by
  rw [h]
  exact Multiset.nodup_range n

theorem mem_iff (h : Accounts n p) : x ∈ p ↔ x < n := by
  rw [h, Multiset.mem_range]

theorem nodup_left (h : Accounts n (p + q)) : p.Nodup := (Multiset.nodup_add.mp h.nodup).1

theorem nodup_right (h : Accounts n (p + q)) : q.Nodup := (Multiset.nodup_add.mp h.nodup).2.1

theorem notMem_right (h : Accounts n (p + q)) (hx : x ∈ p) : x ∉ q :=
  Multiset.disjoint_left.mp (Multiset.nodup_add.mp h.nodup).2.2 hx

end Accounts

end Custody
