import Mathlib.Data.List.FinRange
import Mathlib.Data.List.Nodup
import Mathlib.Data.List.Perm.Subperm

/-!
# Results that are collected over a channel

Workers that each send one result to a channel, and a caller that receives the results one
after the other, until it returns early or has received all of them. The channel has room for
a number of results, and a worker waits when it is full. The caller may be cancelled.

* `Collector.run`: the loop of the caller over the results in a given order.
* `Step`: the interleavings of the workers and the caller.
* `After`: the states after a number of these steps.
* `completes`: with room for all results no worker waits, even if the caller has returned;
  every interleaving comes to an end; and what the caller returns is what its loop returns
  for some order of all results.
* `completes_ofList`: the case of one worker for each element of a list.
-/

namespace FanIn

variable {α ι β γ ρ : Type}

/-- The caller: what it does with a result, and what it returns after the last one. -/
structure Collector (β γ ρ : Type) where
  take : γ → β → γ ⊕ ρ
  stop : γ → ρ

namespace Collector

variable (c : Collector β γ ρ)

def run : γ → List β → ρ
  | s, [] => c.stop s
  | s, b :: bs =>
    match c.take s b with
    | .inl s => run s bs
    | .inr r => r

/-- The rest of the loop, unless it has returned. -/
def rest : γ ⊕ ρ → List β → ρ
  | .inl s, bs => c.run s bs
  | .inr r, _ => r

theorem run_cons (s : γ) (b : β) (bs : List β) : c.run s (b :: bs) = c.rest (c.take s b) bs := by
  rw [run]
  cases c.take s b <;> rfl

end Collector

structure System (ι β γ ρ : Type) where
  workers : List ι
  nodup : workers.Nodup
  result : ι → β
  capacity : Nat
  collector : Collector β γ ρ
  initial : γ
  /-- What the caller returns when it is cancelled, if it can be. -/
  cancelled : Option ρ := none

/-- The workers that have sent, in this order, and how many of their results the caller has
received. The caller is in its loop, or has returned. -/
structure State (ι γ ρ : Type) where
  sent : List ι := []
  received : Nat := 0
  caller : γ ⊕ ρ

variable (sys : System ι β γ ρ)

def System.start : State ι γ ρ := { caller := .inl sys.initial }

inductive Step : State ι γ ρ → State ι γ ρ → Prop
  | send {st : State ι γ ρ} {i : ι} :
      i ∈ sys.workers → i ∉ st.sent → st.sent.length - st.received < sys.capacity →
      Step st { st with sent := st.sent ++ [i] }
  | receive {st : State ι γ ρ} {s : γ} {i : ι} :
      st.caller = .inl s → st.sent[st.received]? = some i →
      Step st { st with
        received := st.received + 1, caller := sys.collector.take s (sys.result i) }
  | finish {st : State ι γ ρ} {s : γ} :
      st.caller = .inl s → st.received = sys.workers.length →
      Step st { st with caller := .inr (sys.collector.stop s) }
  | cancel {st : State ι γ ρ} {s : γ} {r : ρ} :
      st.caller = .inl s → sys.cancelled = some r → Step st { st with caller := .inr r }

/-- The states after so many steps. -/
inductive After : Nat → State ι γ ρ → Prop
  | start : After 0 sys.start
  | step {n : Nat} {st st' : State ι γ ρ} : After n st → Step sys st st' → After (n + 1) st'

/-- Where the caller is after the results that it has received. -/
def CallerInv (sent : List ι) (received : Nat) : γ ⊕ ρ → Prop
  | .inl s => ∀ bs, sys.collector.run sys.initial ((sent.take received).map sys.result ++ bs) =
      sys.collector.run s bs
  | .inr r => sys.cancelled = some r ∨ ∀ order : List ι, order.Perm sys.workers → sent <+: order →
      sys.collector.run sys.initial (order.map sys.result) = r

structure Inv (st : State ι γ ρ) : Prop where
  nodup : st.sent.Nodup
  workers : st.sent ⊆ sys.workers
  received : st.received ≤ st.sent.length
  caller : CallerInv sys st.sent st.received st.caller

variable {sys} {st st' : State ι γ ρ}

theorem CallerInv.sent {sent : List ι} {received : Nat} {caller : γ ⊕ ρ}
    (h : CallerInv sys sent received caller) (hle : received ≤ sent.length) (i : ι) :
    CallerInv sys (sent ++ [i]) received caller := by
  cases caller with
  | inl s =>
    intro bs
    rw [List.take_append_of_le_length hle]
    exact h bs
  | inr r =>
    refine h.imp_right fun h order horder hpre => ?_
    exact h order horder ((List.prefix_append sent [i]).trans hpre)

theorem CallerInv.received {sent : List ι} {received : Nat} {s : γ} {i : ι}
    (h : CallerInv sys sent received (.inl s)) (hi : sent[received]? = some i) :
    CallerInv sys sent (received + 1) (sys.collector.take s (sys.result i)) := by
  have hrest : ∀ bs, sys.collector.run sys.initial
      ((sent.take (received + 1)).map sys.result ++ bs) =
        sys.collector.rest (sys.collector.take s (sys.result i)) bs := by
    intro bs
    rw [← Collector.run_cons, ← h, List.take_add_one, hi]
    simp
  cases htake : sys.collector.take s (sys.result i) with
  | inl s' =>
    intro bs
    rw [hrest, htake]
    rfl
  | inr r =>
    refine .inr fun order _ hpre => ?_
    -- The order begins with the results that were received.
    obtain ⟨tail, rfl⟩ := (List.take_prefix (received + 1) sent).trans hpre
    rw [List.map_append, hrest, htake]
    rfl

theorem Inv.length_le (h : Inv sys st) : st.sent.length ≤ sys.workers.length :=
  (List.subperm_of_subset h.nodup h.workers).length_le

theorem Inv.step (h : Inv sys st) (hstep : Step sys st st') : Inv sys st' := by
  cases hstep with
  | @send i hworker hnew hroom =>
    refine ⟨?_, ?_, ?_, h.caller.sent h.received i⟩
    · exact List.nodup_append.mpr ⟨h.nodup, List.nodup_singleton i, by
        intro a ha b hb hab
        exact hnew (List.mem_singleton.mp hb ▸ hab ▸ ha)⟩
    · exact List.append_subset.mpr ⟨h.workers, by simpa using hworker⟩
    · exact Nat.le_trans h.received (by simp)
  | @receive s i hcaller hi =>
    have hcall := h.caller
    rw [hcaller] at hcall
    exact ⟨h.nodup, h.workers, (List.getElem?_eq_some_iff.mp hi).1, hcall.received hi⟩
  | @finish s hcaller hall =>
    have hcall := h.caller
    rw [hcaller] at hcall
    refine ⟨h.nodup, h.workers, h.received, .inr fun order horder hpre => ?_⟩
    -- All workers have sent, so that there is no other order.
    have hlength : st.sent.length = order.length := by
      have := h.length_le
      have := h.received
      have := horder.length_eq
      omega
    obtain rfl := hpre.eq_of_length hlength
    have hrun := hcall []
    rw [List.take_of_length_le (by have := horder.length_eq; omega), List.append_nil] at hrun
    exact hrun
  | @cancel s r hcaller hr => exact ⟨h.nodup, h.workers, h.received, .inl hr⟩

theorem inv_start (sys : System ι β γ ρ) : Inv sys sys.start :=
  ⟨List.nodup_nil, List.nil_subset _, Nat.le_refl _, fun _ => rfl⟩

theorem After.inv {n : Nat} (h : After sys n st) : Inv sys st := by
  induction h with
  | start => exact inv_start sys
  | step _ hstep ih => exact ih.step hstep

theorem Inv.canSend (h : Inv sys st) (hroom : sys.workers.length ≤ sys.capacity) {i : ι}
    (hworker : i ∈ sys.workers) (hnew : i ∉ st.sent) :
    Step sys st { st with sent := st.sent ++ [i] } := by
  refine .send hworker hnew ?_
  have hle : (i :: st.sent).length ≤ sys.workers.length :=
    (List.subperm_of_subset (List.nodup_cons.mpr ⟨hnew, h.nodup⟩)
      (List.cons_subset.mpr ⟨hworker, h.workers⟩)).length_le
  rw [List.length_cons] at hle
  omega

theorem Inv.progress (h : Inv sys st) (hroom : sys.workers.length ≤ sys.capacity) {s : γ}
    (hcaller : st.caller = .inl s) : ∃ st', Step sys st st' := by
  rcases Nat.lt_or_ge st.received st.sent.length with hlt | hge
  · exact ⟨_, .receive hcaller (List.getElem?_eq_getElem hlt)⟩
  · by_cases hall : sys.workers ⊆ st.sent
    · have hlength := (List.subperm_of_subset sys.nodup hall).length_le
      have := h.length_le
      have := h.received
      exact ⟨_, .finish hcaller (by omega)⟩
    · obtain ⟨i, hi⟩ := not_forall.mp hall
      obtain ⟨hworker, hnew⟩ := Classical.not_imp.mp hi
      exact ⟨_, h.canSend hroom hworker hnew⟩

/-- A step makes this number larger. -/
def State.weight (st : State ι γ ρ) : Nat :=
  st.sent.length + st.received + if st.caller.isRight then 1 else 0

theorem Step.weight_lt (h : Step sys st st') : st.weight < st'.weight := by
  cases h with
  | send => simp [State.weight]
  | receive hcaller =>
    rw [State.weight, State.weight, hcaller]
    simp only [Sum.isRight_inl, Bool.false_eq_true, if_false]
    split <;> omega
  | finish hcaller => simp [State.weight, hcaller]
  | cancel hcaller => simp [State.weight, hcaller]

theorem After.le_weight {n : Nat} (h : After sys n st) : n ≤ st.weight := by
  induction h with
  | start => exact Nat.zero_le _
  | step _ hstep ih => exact Nat.le_trans (Nat.succ_le_succ ih) hstep.weight_lt

theorem Inv.weight_le (h : Inv sys st) : st.weight ≤ 2 * sys.workers.length + 1 := by
  have := h.length_le
  have := h.received
  unfold State.weight
  split <;> omega

theorem Inv.exists_order (h : Inv sys st) :
    ∃ order : List ι, order.Perm sys.workers ∧ st.sent <+: order := by
  classical
  have hsent : st.sent.Perm (sys.workers.filter (· ∈ st.sent)) := by
    refine (List.perm_ext_iff_of_nodup h.nodup (sys.nodup.filter _)).mpr fun i => ?_
    simp only [List.mem_filter, decide_eq_true_eq]
    exact ⟨fun hi => ⟨h.workers hi, hi⟩, fun hi => hi.2⟩
  refine ⟨st.sent ++ sys.workers.filter (fun i => !decide (i ∈ st.sent)), ?_,
    List.prefix_append _ _⟩
  exact (hsent.append_right _).trans (List.filter_append_perm _ _)

/-- What the caller returns, unless it is cancelled, is what its loop returns for the results
in some order. -/
theorem Inv.returned (h : Inv sys st) {r : ρ} (hcaller : st.caller = .inr r) :
    sys.cancelled = some r ∨ ∃ order : List ι, order.Perm sys.workers ∧
      sys.collector.run sys.initial (order.map sys.result) = r := by
  have hcall := h.caller
  rw [hcaller] at hcall
  refine hcall.imp_right fun hrun => ?_
  obtain ⟨order, horder, hpre⟩ := h.exists_order
  exact ⟨order, horder, hrun order horder hpre⟩

/-- Every interleaving comes to an end, and the caller returns a value as specified. -/
structure Completes (sys : System ι β γ ρ) (Spec : ρ → Prop) : Prop where
  /-- A worker never waits, whatever has become of the caller. -/
  sends : ∀ n st, After sys n st → ∀ i ∈ sys.workers, i ∉ st.sent →
    Step sys st { st with sent := st.sent ++ [i] }
  bounded : ∀ n st, After sys n st → n ≤ 2 * sys.workers.length + 1
  /-- There is a next step until all workers have sent and the caller has returned. -/
  ends : ∀ n st, After sys n st → (∀ st', ¬Step sys st st') →
    (∀ i ∈ sys.workers, i ∈ st.sent) ∧ ∃ r, st.caller = .inr r
  returned : ∀ n st r, After sys n st → st.caller = .inr r → Spec r

theorem Completes.imp {Spec Spec' : ρ → Prop} (h : Completes sys Spec)
    (himp : ∀ r, Spec r → Spec' r) : Completes sys Spec' :=
  { h with returned := fun n st r hafter hcaller => himp r (h.returned n st r hafter hcaller) }

theorem Completes.exists_returned {Spec : ρ → Prop} (h : Completes sys Spec) :
    ∃ n st r, After sys n st ∧ st.caller = .inr r := by
  by_contra hnone
  -- Otherwise there is always a next step.
  have hlong : ∀ n, ∃ st, After sys n st := by
    intro n
    induction n with
    | zero => exact ⟨_, .start⟩
    | succ n ih =>
      obtain ⟨st, hst⟩ := ih
      by_contra hstuck
      obtain ⟨-, r, hr⟩ := h.ends n st hst fun st' hstep => hstuck ⟨st', .step hst hstep⟩
      exact hnone ⟨n, st, r, hst, hr⟩
  obtain ⟨st, hst⟩ := hlong (2 * sys.workers.length + 2)
  exact absurd (h.bounded _ st hst) (by omega)

theorem completes {Spec : ρ → Prop} (hroom : sys.workers.length ≤ sys.capacity)
    (hspec : ∀ order : List ι, order.Perm sys.workers →
      Spec (sys.collector.run sys.initial (order.map sys.result)))
    (hcancel : ∀ r, sys.cancelled = some r → Spec r) : Completes sys Spec where
  sends n st h i hworker hnew := h.inv.canSend hroom hworker hnew
  bounded n st h := Nat.le_trans h.le_weight h.inv.weight_le
  ends n st h hstuck := by
    refine ⟨fun i hworker => ?_, ?_⟩
    · by_contra hnew
      exact hstuck _ (h.inv.canSend hroom hworker hnew)
    · cases hcaller : st.caller with
      | inl s =>
        obtain ⟨st', hstep⟩ := h.inv.progress hroom hcaller
        exact absurd hstep (hstuck st')
      | inr r => exact ⟨r, rfl⟩
  returned n st r h hcaller := by
    rcases h.inv.returned hcaller with hr | ⟨order, horder, rfl⟩
    · exact hcancel r hr
    · exact hspec order horder

/-! ## One worker for each element of a list -/

/-- The channel has room for all results. -/
def System.ofList (xs : List α) (result : α → β) (collector : Collector β γ ρ) (initial : γ)
    (cancelled : Option ρ) : System (Fin xs.length) β γ ρ where
  workers := List.finRange xs.length
  nodup := List.nodup_finRange _
  result i := result (xs.get i)
  capacity := xs.length
  collector := collector
  initial := initial
  cancelled := cancelled

/-- It is enough to look at the loop of the caller for every order of the list. -/
theorem completes_ofList {xs : List α} {result : α → β} {collector : Collector β γ ρ} {initial : γ}
    {cancelled : Option ρ} {Spec : ρ → Prop}
    (hspec : ∀ ys : List α, ys.Perm xs → Spec (collector.run initial (ys.map result)))
    (hcancel : ∀ r, cancelled = some r → Spec r) :
    Completes (System.ofList xs result collector initial cancelled) Spec := by
  refine completes (le_of_eq List.length_finRange) (fun order horder => ?_) hcancel
  have hperm : (order.map xs.get).Perm xs := by
    have hmap := horder.map xs.get
    rwa [show (System.ofList xs result collector initial cancelled).workers.map xs.get = xs from
      List.map_get_finRange xs] at hmap
  have hrun := hspec _ hperm
  rwa [List.map_map] at hrun

theorem completes_ofList_none {xs : List α} {result : α → β} {collector : Collector β γ ρ}
    {initial : γ} {Spec : ρ → Prop}
    (hspec : ∀ ys : List α, ys.Perm xs → Spec (collector.run initial (ys.map result))) :
    Completes (System.ofList xs result collector initial none) Spec :=
  completes_ofList hspec nofun

end FanIn
