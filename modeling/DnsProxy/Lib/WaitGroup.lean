import DnsProxy.Lib.Custody
import DnsProxy.Lib.Tasks

/-!
# Work that is joined

A wait group with a flag. A thread that asks to begin is refused once the flag is set, and adds
one to the counter otherwise. The owner adds as it likes, then sets the flag and waits for the
counter to be zero. Any number of other threads may be started at any time.

A thread is a `Prog`, a tree of what it does to the group, of the tests it makes and of the
calls that may return an error. Each admission is a reference, which the thread that
was admitted holds until it is done, or hands over to a goroutine that it starts. The references
are numbered in the order in which they are made.

* `Prog.Balanced role n`: on every path, a thread that holds `n` references gives up each of them
  once, and does no more to the group than its role allows.
* `Effect`: what a move does to the group and the references.
* `Inv`: the counter is the number of references that are held. `inv_reached`: it holds in every
  run of balanced threads.
* `made_of_sealed`, `Inv.all_finished`: nothing is admitted after the flag is set, and when the
  owner has joined, all is done.
-/

namespace WaitGroup

open Tasks Custody

variable {ω ε κ : Type}

/-! ## Threads -/

inductive Prog (ω ε : Type)
  | ret (err : Option ε)
  | call (op : ω) (k : Option ε → Prog ω ε)
  | test (op : ω) (k : Bool → Prog ω ε)
  /-- It goes on with whether it was admitted. -/
  | begin (k : Bool → Prog ω ε)
  | add (n : Nat) (k : Prog ω ε)
  | done (k : Prog ω ε)
  /-- A goroutine is started, which takes over `n` references. -/
  | go (n : Nat) (child k : Prog ω ε)
  /-- The flag is set. -/
  | close (k : Prog ω ε)
  | wait (k : Prog ω ε)

inductive Role
  | worker
  /-- It may add, and has to set the flag. -/
  | owner
  /-- It has set the flag. -/
  | joining
  | joined
deriving DecidableEq, Repr

def Prog.Balanced : Prog ω ε → Role → Nat → Prop
  | .ret _, role, n => (role = .worker ∨ role = .joined) ∧ n = 0
  | .call _ k, role, n => ∀ err, (k err).Balanced role n
  | .test _ k, role, n => ∀ b, (k b).Balanced role n
  | .begin k, role, n => (k true).Balanced role (n + 1) ∧ (k false).Balanced role n
  | .add m k, role, n => role = .owner ∧ k.Balanced role (n + m)
  | .done k, role, n => 0 < n ∧ k.Balanced role (n - 1)
  | .go m child k, role, n => m ≤ n ∧ child.Balanced .worker m ∧ k.Balanced role (n - m)
  | .close k, role, n => role = .owner ∧ k.Balanced .joining n
  | .wait k, role, n => role = .joining ∧ n = 0 ∧ k.Balanced .joined 0

section Rules

variable {role : Role} {n : Nat}

theorem balanced_call {op : ω} {k : Option ε → Prog ω ε} (hnone : (k none).Balanced role n)
    (hsome : ∀ err, (k (some err)).Balanced role n) : (Prog.call op k).Balanced role n :=
  Option.rec hnone hsome

theorem balanced_test {op : ω} {k : Bool → Prog ω ε} (htrue : (k true).Balanced role n)
    (hfalse : (k false).Balanced role n) : (Prog.test op k).Balanced role n :=
  Bool.rec hfalse htrue

theorem balanced_ite {c : Prop} [Decidable c] {p q : Prog ω ε} (hp : p.Balanced role n)
    (hq : q.Balanced role n) : (if c then p else q).Balanced role n := by
  split
  · exact hp
  · exact hq

end Rules

structure Thread (ω ε : Type) where
  prog : Prog ω ε
  role : Role := .worker
  held : List Nat := []

def Thread.Balanced (t : Thread ω ε) : Prop := t.prog.Balanced t.role t.held.length

def Thread.refs (t : Thread ω ε) : Multiset Nat := t.held

structure Group where
  counter : Int := 0
  sealed : Bool := false
  /-- The number of references that were made. -/
  made : Nat := 0
  /-- Those that are done. -/
  finished : List Nat := []

inductive Move (ε : Type)
  /-- A call returns. -/
  | answer (err : Option ε)
  /-- A test has this outcome. -/
  | choose (b : Bool)
  | run

/-- One move of a thread, and the goroutine that it starts. -/
def Thread.step (g : Group) (t : Thread ω ε) :
    Move ε → Option (Group × Thread ω ε × Option (Thread ω ε))
  | .answer err =>
    match t.prog with
    | .call _ k => some (g, { t with prog := k err }, none)
    | _ => none
  | .choose b =>
    match t.prog with
    | .test _ k => some (g, { t with prog := k b }, none)
    | _ => none
  | .run =>
    match t.prog with
    | .begin k =>
      if g.sealed then some (g, { t with prog := k false }, none)
      else
        some ({ g with counter := g.counter + 1, made := g.made + 1 },
          { t with prog := k true, held := g.made :: t.held }, none)
    | .add n k =>
      some ({ g with counter := g.counter + n, made := g.made + n },
        { t with prog := k, held := List.range' g.made n ++ t.held }, none)
    | .done k =>
      some ({ g with counter := g.counter - 1, finished := t.held.take 1 ++ g.finished },
        { t with prog := k, held := t.held.drop 1 }, none)
    | .go n child k =>
      some (g, { t with prog := k, held := t.held.drop n },
        some { prog := child, held := t.held.take n })
    | .close k => some ({ g with sealed := true }, { t with prog := k, role := .joining }, none)
    | .wait k =>
      if g.counter = 0 then some (g, { t with prog := k, role := .joined }, none) else none
    | _ => none

/-- What a move of a balanced thread does. -/
inductive Effect (g : Group) (t : Thread ω ε) :
    Group → Thread ω ε → Option (Thread ω ε) → Prop
  /-- Nothing that concerns the group. -/
  | quiet (p : Prog ω ε) (h : p.Balanced t.role t.held.length) :
      Effect g t g { t with prog := p } none
  | acquire (n : Nat) (p : Prog ω ε) (hopen : g.sealed = false)
      (h : p.Balanced t.role (t.held.length + n)) :
      Effect g t { g with counter := g.counter + n, made := g.made + n }
        { t with prog := p, held := List.range' g.made n ++ t.held } none
  | release (x : Nat) (rest : List Nat) (p : Prog ω ε) (hheld : t.held = x :: rest)
      (h : p.Balanced t.role rest.length) :
      Effect g t { g with counter := g.counter - 1, finished := x :: g.finished }
        { t with prog := p, held := rest } none
  | handOver (given kept : List Nat) (child p : Prog ω ε) (hheld : t.held = given ++ kept)
      (hchild : child.Balanced .worker given.length) (h : p.Balanced t.role kept.length) :
      Effect g t g { t with prog := p, held := kept } (some { prog := child, held := given })
  | close (p : Prog ω ε) (hrole : t.role = .owner) (h : p.Balanced .joining t.held.length) :
      Effect g t { g with sealed := true } { t with prog := p, role := .joining } none
  | join (p : Prog ω ε) (hrole : t.role = .joining) (hzero : g.counter = 0)
      (h : p.Balanced .joined t.held.length) :
      Effect g t g { t with prog := p, role := .joined } none

theorem run_effect {g g' : Group} {t t' : Thread ω ε} {new : Option (Thread ω ε)}
    (ht : t.Balanced) (hopen : t.role = .owner → g.sealed = false)
    (h : t.step g .run = some (g', t', new)) : Effect g t g' t' new := by
  unfold Thread.Balanced at ht
  simp only [Thread.step] at h
  split at h
  case h_1 k hprog =>
    rw [hprog] at ht
    split at h <;> cases h
    · exact .quiet _ ht.2
    · next hsealed => exact .acquire 1 _ (Bool.eq_false_iff.2 hsealed) ht.1
  case h_2 n k hprog =>
    rw [hprog] at ht
    cases h
    exact .acquire n k (hopen ht.1) ht.2
  case h_3 k hprog =>
    rw [hprog] at ht
    obtain ⟨hpos, hk⟩ := ht
    obtain ⟨x, rest, hheld⟩ := List.exists_cons_of_length_pos hpos
    cases h
    rw [hheld] at hk ⊢
    exact .release x rest k hheld hk
  case h_4 n child k hprog =>
    rw [hprog] at ht
    obtain ⟨hle, hchild, hk⟩ := ht
    cases h
    refine .handOver _ _ child k (List.take_append_drop n t.held).symm ?_ ?_
    · rwa [List.length_take, Nat.min_eq_left hle]
    · rwa [List.length_drop]
  case h_5 k hprog =>
    rw [hprog] at ht
    cases h
    exact .close k ht.1 ht.2
  case h_6 k hprog =>
    rw [hprog] at ht
    split at h <;> cases h
    next hzero => exact .join k ht.1 hzero (ht.2.1 ▸ ht.2.2)
  case h_7 => cases h

theorem step_effect {g g' : Group} {t t' : Thread ω ε} {new : Option (Thread ω ε)} {m : Move ε}
    (ht : t.Balanced) (hopen : t.role = .owner → g.sealed = false)
    (h : t.step g m = some (g', t', new)) : Effect g t g' t' new := by
  cases m with
  | answer err =>
    unfold Thread.Balanced at ht
    simp only [Thread.step] at h
    split at h <;> cases h
    next op k hprog =>
    rw [hprog] at ht
    exact .quiet _ (ht err)
  | choose b =>
    unfold Thread.Balanced at ht
    simp only [Thread.step] at h
    split at h <;> cases h
    next op k hprog =>
    rw [hprog] at ht
    exact .quiet _ (ht b)
  | run => exact run_effect ht hopen h

/-! ## The system -/

abbrev State (ω ε : Type) := System Group (Thread ω ε)

inductive Action (κ ε : Type)
  /-- A thread is started at one of the entry points. -/
  | start (e : κ)
  | move (i : Nat) (m : Move ε)

/-- The state after the move of a thread. -/
def moved (s : State ω ε) (i : Nat) : Group × Thread ω ε × Option (Thread ω ε) → State ω ε
  | (g, t, none) => s.put i g t
  | (g, t, some new) => (s.put i g t).spawn new

def next (entry : κ → Prog ω ε) (s : State ω ε) : Action κ ε → Option (State ω ε)
  | .start e => some (s.spawn { prog := entry e })
  | .move i m => (s.tasks[i]?).bind fun t => (t.step s.shared m).map (moved s i)

/-- The owner is the first thread. -/
def init (owner : Prog ω ε) : State ω ε :=
  { shared := {}, tasks := [{ prog := owner, role := .owner }] }

def Reached (entry : κ → Prog ω ε) (owner : Prog ω ε) : State ω ε → Prop :=
  Runs.Run (next entry) Runs.anyStep (init owner)

theorem next_move {entry : κ → Prog ω ε} {s s' : State ω ε} {i : Nat} {m : Move ε}
    (h : next entry s (.move i m) = some s') :
    ∃ t r, s.tasks[i]? = some t ∧ t.step s.shared m = some r ∧ s' = moved s i r := by
  obtain ⟨t, ht, hmap⟩ := Option.bind_eq_some_iff.1 h
  obtain ⟨r, hr, rfl⟩ := Option.map_eq_some_iff.1 hmap
  exact ⟨t, r, ht, hr, rfl⟩

/-! ## The invariant -/

/-- A thread is balanced, and the first one is the only one that is not a worker. -/
structure Thread.Ok (g : Group) (i : Nat) (t : Thread ω ε) : Prop where
  balanced : t.Balanced
  worker : i ≠ 0 ↔ t.role = .worker
  owner : i = 0 → (t.role = .owner ↔ g.sealed = false)

structure Inv (s : State ω ε) : Prop where
  threads : Each Thread.Ok s
  first : s.tasks ≠ []
  accounts : Accounts s.shared.made (total Thread.refs s.tasks + s.shared.finished)
  counter : s.shared.counter = (total Thread.refs s.tasks).card
  joined : ∀ t ∈ s.tasks, t.role = .joined → s.shared.counter = 0

/-- Where the references are after a move. -/
def held (t : Thread ω ε) (new : Option (Thread ω ε)) : Multiset Nat :=
  t.refs + new.elim 0 Thread.refs

theorem total_moved {s : State ω ε} {i : Nat} {t : Thread ω ε} (hi : s.tasks[i]? = some t)
    (g : Group) (t' : Thread ω ε) (new : Option (Thread ω ε)) :
    total Thread.refs (moved s i (g, t', new)).tasks + t.refs =
      total Thread.refs s.tasks + held t' new := by
  have hset := total_set (f := Thread.refs) hi t'
  cases new with
  | none => simpa [moved, System.put, held] using hset
  | some new =>
    simp only [moved, System.put, System.spawn, total_concat, held, Option.elim_some]
    rw [add_right_comm, hset, add_assoc]

theorem shared_moved (s : State ω ε) (i : Nat) (g : Group) (t : Thread ω ε)
    (new : Option (Thread ω ε)) : (moved s i (g, t, new)).shared = g := by
  cases new <;> rfl

section Effects

variable {g g' : Group} {t t' : Thread ω ε} {new : Option (Thread ω ε)}

theorem Effect.balanced (h : Effect g t g' t' new) : t'.Balanced := by
  cases h with
  | quiet p h => exact h
  | acquire n p _ h =>
    unfold Thread.Balanced
    rwa [List.length_append, List.length_range', Nat.add_comm n]
  | release x rest p _ h => exact h
  | handOver given kept child p _ _ h => exact h
  | close p _ h => exact h
  | join p _ _ h => exact h

theorem Effect.child {u : Thread ω ε} (h : Effect g t g' t' (some u)) :
    u.Balanced ∧ u.role = .worker := by
  cases h with
  | handOver given kept child p _ hchild _ => exact ⟨hchild, rfl⟩

/-- The references that were made are held by the thread or its goroutine, and those that were
given up are finished. -/
theorem Effect.refs (h : Effect g t g' t' new) : ∃ n, g'.made = g.made + n ∧
    held t' new + g'.finished = t.refs + g.finished + List.range' g.made n := by
  unfold held Thread.refs
  cases h with
  | quiet | close | join => exact ⟨0, rfl, by simp⟩
  | acquire n p _ _ =>
    refine ⟨n, rfl, ?_⟩
    simp only [Option.elim_none, add_zero, ← Multiset.coe_add]
    abel
  | release x rest p hheld _ =>
    refine ⟨0, rfl, ?_⟩
    simp only [hheld, Option.elim_none, add_zero, List.range'_zero, Multiset.coe_nil,
      ← Multiset.cons_coe, Multiset.cons_add, Multiset.add_cons]
  | handOver given kept child p hheld _ _ =>
    refine ⟨0, rfl, ?_⟩
    simp only [hheld, Option.elim_some, List.range'_zero, Multiset.coe_nil, add_zero,
      ← Multiset.coe_add]
    abel

theorem Effect.counter (h : Effect g t g' t' new) :
    g'.counter + t.refs.card = g.counter + (held t' new).card := by
  unfold held Thread.refs
  cases h with
  | quiet | close | join => simp
  | acquire n p _ _ =>
    simp
    omega
  | release x rest p hheld _ => simp [hheld]
  | handOver given kept child p hheld _ _ =>
    simp [hheld]
    omega

theorem Effect.sealed (h : Effect g t g' t' new) (hsealed : g.sealed = true) :
    g'.sealed = true ∧ g'.made = g.made ∧ g'.counter ≤ g.counter := by
  cases h with
  | quiet | handOver | join => exact ⟨hsealed, rfl, le_rfl⟩
  | acquire n p hopen _ => simp [hopen] at hsealed
  | release x rest p _ _ => exact ⟨hsealed, rfl, Int.sub_le_self _ (by decide)⟩
  | close p _ _ => exact ⟨rfl, rfl, le_rfl⟩

theorem Effect.role (h : Effect g t g' t' new) :
    (t'.role = t.role ∧ g'.sealed = g.sealed) ∨
    (t.role = .owner ∧ t'.role = .joining ∧ g'.sealed = true) ∨
    (t.role = .joining ∧ t'.role = .joined ∧ g' = g ∧ g.counter = 0) := by
  cases h with
  | quiet | acquire | release | handOver => exact Or.inl ⟨rfl, rfl⟩
  | close p hrole _ => exact Or.inr (Or.inl ⟨hrole, rfl, rfl⟩)
  | join p hrole hzero _ => exact Or.inr (Or.inr ⟨hrole, rfl, rfl, hzero⟩)

theorem Effect.worker_iff (h : Effect g t g' t' new) : t'.role = .worker ↔ t.role = .worker := by
  rcases h.role with ⟨hsame, _⟩ | ⟨hold, hnew, _⟩ | ⟨hold, hnew, _⟩
  · rw [hsame]
  · rw [hold, hnew]
    decide
  · rw [hold, hnew]
    decide

theorem Effect.sealed_of_worker (h : Effect g t g' t' new) (hrole : t.role = .worker) :
    g'.sealed = g.sealed := by
  rcases h.role with ⟨_, hsealed⟩ | ⟨howner, _⟩ | ⟨hjoining, _⟩
  · exact hsealed
  · rw [hrole] at howner
    cases howner
  · rw [hrole] at hjoining
    cases hjoining

end Effects

/-! ## Runs -/

section Runs

variable {entry : κ → Prog ω ε} {owner : Prog ω ε} {s s' : State ω ε}

theorem inv_init (howner : owner.Balanced .owner 0) : Inv (init owner) where
  threads i t hi := by
    obtain ⟨rfl, rfl⟩ : i = 0 ∧ t = { prog := owner, role := .owner } := by
      cases i with
      | zero => exact ⟨rfl, (Option.some.inj hi).symm⟩
      | succ i => cases hi
    exact ⟨howner, iff_of_false (absurd rfl) nofun, fun _ => iff_of_true rfl rfl⟩
  first := nofun
  accounts := rfl
  counter := rfl
  joined t ht hjoined := by
    obtain rfl := List.mem_singleton.1 ht
    cases hjoined

theorem Inv.start (h : Inv s) {p : Prog ω ε} (hp : p.Balanced .worker 0) :
    Inv (s.spawn { prog := p }) := by
  have htotal : total Thread.refs (s.spawn { prog := p }).tasks = total Thread.refs s.tasks := by
    rw [System.spawn, total_concat]
    exact add_zero _
  have hlength : s.tasks.length ≠ 0 := mt List.length_eq_zero_iff.1 h.first
  refine ⟨h.threads.spawn ⟨hp, iff_of_true hlength rfl, (absurd · hlength)⟩, ?_, ?_, ?_, ?_⟩
  · exact List.append_ne_nil_of_left_ne_nil h.first _
  · exact htotal ▸ h.accounts
  · exact htotal ▸ h.counter
  · refine forall_mem_concat h.joined fun hjoined => ?_
    cases hjoined

section Move

variable {i : Nat} {t t' : Thread ω ε} {g' : Group} {new : Option (Thread ω ε)}

theorem Inv.threads_moved (h : Inv s) (hi : s.tasks[i]? = some t)
    (heffect : Effect s.shared t g' t' new) : Each Thread.Ok (moved s i (g', t', new)) := by
  have hok := h.threads i t hi
  have hself : t'.Ok g' i := by
    refine ⟨heffect.balanced, hok.worker.trans heffect.worker_iff.symm, fun hzero => ?_⟩
    have howner := hok.owner hzero
    rcases heffect.role with ⟨hrole, hsealed⟩ | ⟨_, hrole, hsealed⟩ | ⟨hold, hrole, rfl, _⟩
    · rw [hrole, hsealed, howner]
    · simp [hrole, hsealed]
    · rw [hrole, ← howner, hold]
      decide
  have hothers : ∀ (j : Nat) (u : Thread ω ε), j ≠ i → u.Ok s.shared j → u.Ok g' j := by
    intro j u hj hu
    refine ⟨hu.balanced, hu.worker, fun hzero => ?_⟩
    -- The thread that has moved is a worker, and has left the flag alone.
    rw [heffect.sealed_of_worker (hok.worker.1 (by omega))]
    exact hu.owner hzero
  have hput := h.threads.put hi hself hothers
  cases new with
  | none => exact hput
  | some u =>
    obtain ⟨hbalanced, hrole⟩ := heffect.child
    have hlength : (s.put i g' t').tasks.length ≠ 0 := by
      rw [System.put, List.length_set]
      exact mt List.length_eq_zero_iff.1 h.first
    exact hput.spawn ⟨hbalanced, iff_of_true hlength hrole, (absurd · hlength)⟩

theorem Inv.accounts_moved (h : Inv s) (hi : s.tasks[i]? = some t)
    (heffect : Effect s.shared t g' t' new) :
    Accounts g'.made (total Thread.refs (moved s i (g', t', new)).tasks + g'.finished) := by
  obtain ⟨n, hmade, hrefs⟩ := heffect.refs
  have htotal := total_moved hi g' t' new
  rw [hmade]
  refine (h.accounts.freshRange n).of_eq (add_right_cancel (b := t.refs) ?_)
  calc total Thread.refs s.tasks + s.shared.finished + List.range' s.shared.made n + t.refs
      = total Thread.refs s.tasks +
          (t.refs + s.shared.finished + List.range' s.shared.made n) := by abel
    _ = total Thread.refs s.tasks + held t' new + g'.finished := by rw [← hrefs, add_assoc]
    _ = total Thread.refs (moved s i (g', t', new)).tasks + g'.finished + t.refs := by
      rw [← htotal]
      abel

theorem Inv.counter_moved (h : Inv s) (hi : s.tasks[i]? = some t)
    (heffect : Effect s.shared t g' t' new) :
    g'.counter = (total Thread.refs (moved s i (g', t', new)).tasks).card := by
  have htotal := congrArg Multiset.card (total_moved hi g' t' new)
  rw [Multiset.card_add, Multiset.card_add] at htotal
  have heq := heffect.counter
  have hcounter := h.counter
  omega

theorem Inv.sealed_of_joined (h : Inv s) {u : Thread ω ε} (hu : u ∈ s.tasks)
    (hjoined : u.role = .joined) : s.shared.sealed = true := by
  obtain ⟨j, hj⟩ := List.mem_iff_getElem?.1 hu
  have hok := h.threads j u hj
  have hzero : j = 0 := by
    by_contra hne
    rw [hok.worker.1 hne] at hjoined
    cases hjoined
  rw [← Bool.not_eq_false, ← hok.owner hzero, hjoined]
  decide

theorem Inv.joined_moved (h : Inv s) (hi : s.tasks[i]? = some t)
    (heffect : Effect s.shared t g' t' new) :
    ∀ u ∈ (moved s i (g', t', new)).tasks, u.role = .joined → g'.counter = 0 := by
  have hcounter := h.counter_moved hi heffect
  have hold : ∀ u ∈ s.tasks, u.role = .joined → g'.counter = 0 := by
    intro u hu hjoined
    have hle := (heffect.sealed (h.sealed_of_joined hu hjoined)).2.2
    have hzero := h.joined u hu hjoined
    omega
  have hself : t'.role = .joined → g'.counter = 0 := by
    intro hjoined
    rcases heffect.role with ⟨hrole, _⟩ | ⟨_, hrole, _⟩ | ⟨_, _, rfl, hzero⟩
    · exact hold t (List.mem_of_getElem? hi) (hrole ▸ hjoined)
    · rw [hrole] at hjoined
      cases hjoined
    · exact hzero
  have hput := forall_mem_set (i := i) hold hself
  cases new with
  | none => exact hput
  | some u =>
    refine forall_mem_concat hput fun hjoined => ?_
    rw [heffect.child.2] at hjoined
    cases hjoined

theorem Inv.move (h : Inv s) (hi : s.tasks[i]? = some t)
    (heffect : Effect s.shared t g' t' new) : Inv (moved s i (g', t', new)) := by
  have hshared := shared_moved s i g' t' new
  refine ⟨h.threads_moved hi heffect, ?_, ?_, ?_, ?_⟩
  · have hput : (s.put i g' t').tasks ≠ [] := by
      rw [System.put, Ne, List.set_eq_nil_iff]
      exact h.first
    cases new with
    | none => exact hput
    | some u => exact List.append_ne_nil_of_left_ne_nil hput _
  · rw [hshared]
    exact h.accounts_moved hi heffect
  · rw [hshared]
    exact h.counter_moved hi heffect
  · rw [hshared]
    exact h.joined_moved hi heffect

end Move

theorem Inv.effect (h : Inv s) {i : Nat} {m : Move ε}
    (hs : next entry s (.move i m) = some s') :
    ∃ t g' t' new, s.tasks[i]? = some t ∧ Effect s.shared t g' t' new ∧
      s' = moved s i (g', t', new) := by
  obtain ⟨t, ⟨g', t', new⟩, hi, hstep, rfl⟩ := next_move hs
  have hok := h.threads i t hi
  refine ⟨t, g', t', new, hi, step_effect hok.balanced (fun howner => ?_) hstep, rfl⟩
  refine (hok.owner ?_).1 howner
  by_contra hne
  rw [hok.worker.1 hne] at howner
  cases howner

theorem Inv.next (hentry : ∀ e, (entry e).Balanced .worker 0) (h : Inv s) {a : Action κ ε}
    (hs : next entry s a = some s') : Inv s' := by
  cases a with
  | start e =>
    cases hs
    exact h.start (hentry e)
  | move i m =>
    obtain ⟨t, g', t', new, hi, heffect, rfl⟩ := h.effect hs
    exact h.move hi heffect

theorem inv_reached (hentry : ∀ e, (entry e).Balanced .worker 0)
    (howner : owner.Balanced .owner 0) (h : Reached entry owner s) : Inv s :=
  h.invariant (inv_init howner) fun _ _ _ hinv _ hs => hinv.next hentry hs

/-- Nothing is admitted or added once the flag is set. -/
theorem Inv.made_of_sealed (h : Inv s) (hsealed : s.shared.sealed = true) {a : Action κ ε}
    (hs : WaitGroup.next entry s a = some s') :
    s'.shared.sealed = true ∧ s'.shared.made = s.shared.made := by
  cases a with
  | start e =>
    cases hs
    exact ⟨hsealed, rfl⟩
  | move i m =>
    obtain ⟨t, g', t', new, hi, heffect, rfl⟩ := h.effect hs
    rw [shared_moved]
    exact ⟨(heffect.sealed hsealed).1, (heffect.sealed hsealed).2.1⟩

theorem Inv.counter_nonneg (h : Inv s) : 0 ≤ s.shared.counter := by
  rw [h.counter]
  exact Int.natCast_nonneg _

theorem Inv.returned (h : Inv s) {t : Thread ω ε} (ht : t ∈ s.tasks) {err : Option ε}
    (hret : t.prog = .ret err) : t.held = [] := by
  obtain ⟨i, hi⟩ := List.mem_iff_getElem?.1 ht
  have hbalanced := (h.threads i t hi).balanced
  unfold Thread.Balanced at hbalanced
  rw [hret] at hbalanced
  exact List.length_eq_zero_iff.1 hbalanced.2

theorem Inv.joined_of_returned (h : Inv s) {t : Thread ω ε} (ht : s.tasks[0]? = some t)
    {err : Option ε} (hret : t.prog = .ret err) : t.role = .joined := by
  have hok := h.threads 0 t ht
  have hbalanced := hok.balanced
  unfold Thread.Balanced at hbalanced
  rw [hret] at hbalanced
  exact hbalanced.1.resolve_left fun hworker => hok.worker.2 hworker rfl

/-- When the owner has joined, all that was admitted is done. -/
theorem Inv.all_finished (h : Inv s) {t : Thread ω ε} (ht : t ∈ s.tasks)
    (hjoined : t.role = .joined) :
    (s.shared.finished : Multiset Nat) = Multiset.range s.shared.made ∧
      ∀ u ∈ s.tasks, u.held = [] := by
  have hcounter := h.counter
  rw [h.joined t ht hjoined] at hcounter
  have hnone : total Thread.refs s.tasks = 0 := Multiset.card_eq_zero.1 (by omega)
  refine ⟨?_, fun u hu => ?_⟩
  · have haccounts := h.accounts
    rwa [hnone, zero_add] at haccounts
  · refine List.eq_nil_iff_forall_not_mem.2 fun x hx => ?_
    have hmem : x ∈ total Thread.refs s.tasks := mem_total.2 ⟨u, hu, Multiset.mem_coe.2 hx⟩
    rw [hnone] at hmem
    exact Multiset.notMem_zero x hmem

end Runs

end WaitGroup
