import Mathlib.Data.List.Basic

/-!
# A pool of permits

A counting semaphore. A task asks for a permit and waits; it is given one while there
is one left, or its request is refused; and it gives the permit back. Each task has a
label, and remembers how often it was given a permit and gave one back.

* `Inv`: the permits in use are those of the holders, no more than there are, and each
  was given once and given back at most once; every operation keeps it.
* `count`: the holders of some labels, and what the operations make of it.
-/

namespace Permits

variable {κ : Type}

inductive Phase
  | waiting
  | holding
  | released
  | refused
deriving DecidableEq, Repr

structure Claimant (κ : Type) where
  label : κ
  phase : Phase := .waiting
  acquires : Nat := 0
  releases : Nat := 0
deriving DecidableEq, Repr

def Claimant.holds (t : Claimant κ) : Bool := t.phase = .holding

/-- A permit that was given is given back once, unless it is still held. -/
def Claimant.Once (t : Claimant κ) : Prop :=
  match t.phase with
  | .waiting | .refused => t.acquires = 0 ∧ t.releases = 0
  | .holding => t.acquires = 1 ∧ t.releases = 0
  | .released => t.acquires = 1 ∧ t.releases = 1

instance (t : Claimant κ) : Decidable t.Once := by
  unfold Claimant.Once
  split <;> infer_instance

structure Pool (κ : Type) where
  used : Nat := 0
  tasks : List (Claimant κ) := []
deriving DecidableEq, Repr

namespace Pool

def enter (s : Pool κ) (label : κ) : Pool κ := { s with tasks := s.tasks ++ [{ label := label }] }

/-- The task `i` is given one of `n` permits. -/
def acquire (n : Nat) (s : Pool κ) (i : Nat) : Option (Pool κ) :=
  match s.tasks[i]? with
  | none => none
  | some t =>
    if t.phase = .waiting ∧ s.used < n then
      some ⟨s.used + 1, s.tasks.set i { t with phase := .holding, acquires := t.acquires + 1 }⟩
    else none

def refuse (s : Pool κ) (i : Nat) : Option (Pool κ) :=
  match s.tasks[i]? with
  | none => none
  | some t =>
    if t.phase = .waiting then some { s with tasks := s.tasks.set i { t with phase := .refused } }
    else none

def release (s : Pool κ) (i : Nat) : Option (Pool κ) :=
  match s.tasks[i]? with
  | none => none
  | some t =>
    if t.phase = .holding then
      some ⟨s.used - 1, s.tasks.set i { t with phase := .released, releases := t.releases + 1 }⟩
    else none

/-- The number of holders with a label in `p`. -/
def count (p : κ → Bool) (s : Pool κ) : Nat := s.tasks.countP fun t => t.holds && p t.label

structure Inv (n : Nat) (s : Pool κ) : Prop where
  used : s.used = s.count fun _ => true
  le : s.used ≤ n
  once : ∀ t ∈ s.tasks, t.Once

/-! ## What the operations do -/

section Operations

variable {n i : Nat} {s s' : Pool κ}

theorem acquire_some (h : s.acquire n i = some s') :
    ∃ t, s.tasks[i]? = some t ∧ t.phase = .waiting ∧ s.used < n ∧
      s' = ⟨s.used + 1, s.tasks.set i
        { t with phase := .holding, acquires := t.acquires + 1 }⟩ := by
  unfold acquire at h
  split at h
  · cases h
  · next t ht =>
    split at h
    · next hc => exact ⟨t, ht, hc.1, hc.2, (Option.some.inj h).symm⟩
    · cases h

theorem refuse_some (h : s.refuse i = some s') :
    ∃ t, s.tasks[i]? = some t ∧ t.phase = .waiting ∧
      s' = { s with tasks := s.tasks.set i { t with phase := .refused } } := by
  unfold refuse at h
  split at h
  · cases h
  · next t ht =>
    split at h
    · next hc => exact ⟨t, ht, hc, (Option.some.inj h).symm⟩
    · cases h

theorem release_some (h : s.release i = some s') :
    ∃ t, s.tasks[i]? = some t ∧ t.phase = .holding ∧
      s' = ⟨s.used - 1, s.tasks.set i
        { t with phase := .released, releases := t.releases + 1 }⟩ := by
  unfold release at h
  split at h
  · cases h
  · next t ht =>
    split at h
    · next hc => exact ⟨t, ht, hc, (Option.some.inj h).symm⟩
    · cases h

theorem countP_set_add {α : Type} (p : α → Bool) {l : List α} {t : α} (h : l[i]? = some t)
    (t' : α) :
    (l.set i t').countP p + (if p t then 1 else 0) = l.countP p + if p t' then 1 else 0 := by
  obtain ⟨hi, rfl⟩ := List.getElem?_eq_some_iff.mp h
  rw [List.countP_set hi]
  have hpos : (if p l[i] then 1 else 0) ≤ l.countP p := by
    split
    · next hp => exact List.countP_pos_iff.mpr ⟨_, List.getElem_mem hi, hp⟩
    · exact Nat.zero_le _
  omega

theorem count_enter (p : κ → Bool) (label : κ) : (s.enter label).count p = s.count p := by
  simp [count, enter, Claimant.holds]

theorem count_acquire (p : κ → Bool) {t : Claimant κ} (ht : s.tasks[i]? = some t)
    (h : s.acquire n i = some s') : s'.count p = s.count p + if p t.label then 1 else 0 := by
  obtain ⟨t', ht', hphase, -, rfl⟩ := acquire_some h
  obtain rfl : t = t' := Option.some.inj (ht.symm.trans ht')
  have hset := countP_set_add (fun t => t.holds && p t.label) ht
    { t with phase := .holding, acquires := t.acquires + 1 }
  simpa [count, Claimant.holds, hphase] using hset

theorem count_refuse (p : κ → Bool) (h : s.refuse i = some s') : s'.count p = s.count p := by
  obtain ⟨t, ht, hphase, rfl⟩ := refuse_some h
  have hset := countP_set_add (fun t => t.holds && p t.label) ht { t with phase := .refused }
  simpa [count, Claimant.holds, hphase] using hset

theorem count_release (p : κ → Bool) {t : Claimant κ} (ht : s.tasks[i]? = some t)
    (h : s.release i = some s') : s'.count p + (if p t.label then 1 else 0) = s.count p := by
  obtain ⟨t', ht', hphase, rfl⟩ := release_some h
  obtain rfl : t = t' := Option.some.inj (ht.symm.trans ht')
  have hset := countP_set_add (fun t => t.holds && p t.label) ht
    { t with phase := .released, releases := t.releases + 1 }
  simpa [count, Claimant.holds, hphase] using hset

/-! ## The invariant -/

theorem Inv.init (n : Nat) : ({} : Pool κ).Inv n := ⟨rfl, Nat.zero_le _, nofun⟩

theorem Inv.enter (h : s.Inv n) (label : κ) : (s.enter label).Inv n where
  used := by rw [count_enter]; exact h.used
  le := h.le
  once t ht := by
    rcases List.mem_append.mp ht with ht | ht
    · exact h.once t ht
    · obtain rfl := List.mem_singleton.mp ht
      exact ⟨rfl, rfl⟩

theorem once_set {l : List (Claimant κ)} (h : ∀ t ∈ l, t.Once) {t : Claimant κ} (ht : t.Once) :
    ∀ t' ∈ l.set i t, t'.Once := by
  intro t' ht'
  rcases List.mem_or_eq_of_mem_set ht' with hmem | rfl
  · exact h t' hmem
  · exact ht

theorem Inv.acquire (h : s.Inv n) (hs : s.acquire n i = some s') : s'.Inv n := by
  obtain ⟨t, ht, hphase, hlt, heq⟩ := acquire_some hs
  have hcount := count_acquire (fun _ => true) ht hs
  have honce := h.once t (List.mem_of_getElem? ht)
  simp only [Claimant.Once, hphase] at honce
  subst heq
  refine ⟨?_, hlt, once_set h.once ⟨?_, honce.2⟩⟩
  · rw [hcount, ← h.used]
    rfl
  · rw [honce.1]

theorem Inv.refuse (h : s.Inv n) (hs : s.refuse i = some s') : s'.Inv n := by
  obtain ⟨t, ht, hphase, heq⟩ := refuse_some hs
  have hcount := count_refuse (fun _ => true) hs
  have honce := h.once t (List.mem_of_getElem? ht)
  simp only [Claimant.Once, hphase] at honce
  subst heq
  exact ⟨h.used.trans hcount.symm, h.le, once_set h.once honce⟩

theorem Inv.release (h : s.Inv n) (hs : s.release i = some s') : s'.Inv n := by
  obtain ⟨t, ht, hphase, heq⟩ := release_some hs
  have hcount := count_release (fun _ => true) ht hs
  have honce := h.once t (List.mem_of_getElem? ht)
  simp only [Claimant.Once, hphase] at honce
  subst heq
  refine ⟨?_, Nat.le_trans (Nat.sub_le _ _) h.le, once_set h.once ⟨honce.1, ?_⟩⟩
  · rw [h.used, ← hcount]
    rfl
  · rw [honce.2]

theorem Inv.used_eq_count (h : s.Inv n) {p : κ → Bool}
    (hp : ∀ t ∈ s.tasks, t.phase = .holding → p t.label = true) : s.used = s.count p := by
  rw [h.used]
  refine List.countP_congr fun t ht => ?_
  simpa [Claimant.holds] using hp t ht

end Operations

end Pool

end Permits
