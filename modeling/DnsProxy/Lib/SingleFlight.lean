import DnsProxy.Lib.Runs
import Mathlib.Logic.Function.Basic
import Mathlib.Tactic.Basic

/-!
# Single flight

Calls that share the work of one of them. Each call queues under a key: the first
one of a key stores an entry and leads, the later ones find the entry and wait for
it. A leader that has its result loads the entry under its key, writes the result
into it, deletes the key and closes the entry, as four steps that others may come
between; a waiting call returns what the entry holds once it is closed.

The state keeps for each call how far it is, with the entry it stored (`own`) and
the one it loaded (`found`) apart, and counts how often an entry is closed.

* `Inv`, `inv_step`, `inv_run`: what holds of every reachable state;
* `leader_unique`, `found_own`, `closes_of_owner`, `returned_of_leader`: the
  properties of the protocol, read off the invariant.
-/

namespace SingleFlight

variable {κ ρ : Type}

/-- How far a call is. -/
inductive Phase (κ ρ : Type)
  /-- Not queued yet. -/
  | idle
  /-- Takes no part. -/
  | bypass
  | leading (k : κ) (own : Nat)
  /-- Has its result and the entry it found. -/
  | loaded (k : κ) (own found : Nat) (r : ρ)
  /-- Has written its result into the entry it found. -/
  | published (k : κ) (own found : Nat) (r : ρ)
  /-- Has also deleted the key. -/
  | deleted (k : κ) (own found : Nat) (r : ρ)
  /-- Has also closed the entry. -/
  | done (k : κ) (own found : Nat) (r : ρ)
  /-- Found no entry, or one that was closed already. -/
  | panicked
  | waiting (k : κ) (joined : Nat)
  | returned (k : κ) (joined : Nat) (r : Option ρ)

structure Entry (ρ : Type) where
  result : Option ρ
  closes : Nat

structure State (κ ρ : Type) where
  storage : κ → Option Nat
  entry : Nat → Entry ρ
  next : Nat
  phase : Nat → Phase κ ρ

def init (κ ρ : Type) : State κ ρ := ⟨fun _ => none, fun _ => ⟨none, 0⟩, 0, fun _ => .idle⟩

inductive Action (κ ρ : Type)
  /-- A call queues; without a key it takes no part. -/
  | queue (c : Nat) (k : Option κ)
  | load (c : Nat) (r : ρ)
  | publish (c : Nat)
  | delete (c : Nat)
  | close (c : Nat)
  | wake (c : Nat)

def State.setPhase (s : State κ ρ) (c : Nat) (p : Phase κ ρ) : State κ ρ :=
  { s with phase := Function.update s.phase c p }

/-- One step; `none` when the call is not at this point. -/
def step [DecidableEq κ] (s : State κ ρ) : Action κ ρ → Option (State κ ρ)
  | .queue c k =>
    match s.phase c, k with
    | .idle, none => some (s.setPhase c .bypass)
    | .idle, some k =>
      match s.storage k with
      | some e => some (s.setPhase c (.waiting k e))
      | none =>
        some { s with
          storage := Function.update s.storage k (some s.next)
          entry := Function.update s.entry s.next ⟨none, 0⟩
          next := s.next + 1
          phase := Function.update s.phase c (.leading k s.next) }
    | _, _ => none
  | .load c r =>
    match s.phase c with
    | .leading k own =>
      match s.storage k with
      | none => some (s.setPhase c .panicked)
      | some e => some (s.setPhase c (.loaded k own e r))
    | _ => none
  | .publish c =>
    match s.phase c with
    | .loaded k own found r =>
      some { s with
        entry := Function.update s.entry found { s.entry found with result := some r }
        phase := Function.update s.phase c (.published k own found r) }
    | _ => none
  | .delete c =>
    match s.phase c with
    | .published k own found r =>
      some { s with
        storage := Function.update s.storage k none
        phase := Function.update s.phase c (.deleted k own found r) }
    | _ => none
  | .close c =>
    match s.phase c with
    | .deleted k own found r =>
      if (s.entry found).closes = 0 then
        some { s with
          entry := Function.update s.entry found { s.entry found with closes := 1 }
          phase := Function.update s.phase c (.done k own found r) }
      else some (s.setPhase c .panicked)
    | _ => none
  | .wake c =>
    match s.phase c with
    | .waiting k e =>
      if (s.entry e).closes = 0 then none
      else some (s.setPhase c (.returned k e (s.entry e).result))
    | _ => none

/-- A run of the protocol. -/
abbrev Run [DecidableEq κ] : State κ ρ → State κ ρ → Prop := Runs.Run step Runs.anyStep

/-! ## The invariant -/

/-- The key and the entry a call has stored. -/
def Phase.Owns (p : Phase κ ρ) (k : κ) (e : Nat) : Prop :=
  match p with
  | .leading k' own | .loaded k' own .. | .published k' own .. | .deleted k' own ..
  | .done k' own .. => k' = k ∧ own = e
  | _ => False

/-- The call is a leader: it has queued first and has not deleted its key. -/
def Phase.Leads (p : Phase κ ρ) (k : κ) (e : Nat) : Prop :=
  match p with
  | .leading k' own | .loaded k' own .. | .published k' own .. => k' = k ∧ own = e
  | _ => False

/-- What the shared state is for a call at its point of the protocol. -/
def State.CallOk (s : State κ ρ) : Phase κ ρ → Prop
  | .idle | .bypass => True
  | .leading k own => own < s.next ∧ s.storage k = some own ∧ s.entry own = ⟨none, 0⟩
  | .loaded k own found _ =>
    found = own ∧ own < s.next ∧ s.storage k = some own ∧ s.entry own = ⟨none, 0⟩
  | .published k own found r =>
    found = own ∧ own < s.next ∧ s.storage k = some own ∧ s.entry own = ⟨some r, 0⟩
  | .deleted k own found r =>
    found = own ∧ own < s.next ∧ s.storage k ≠ some own ∧ s.entry own = ⟨some r, 0⟩
  | .done k own found r =>
    found = own ∧ own < s.next ∧ s.storage k ≠ some own ∧ s.entry own = ⟨some r, 1⟩
  | .panicked => False
  | .waiting k e => ∃ c, (s.phase c).Owns k e
  | .returned k e r => ∃ c r', s.phase c = .done k e e r' ∧ r = some r'

structure Inv (s : State κ ρ) : Prop where
  call : ∀ c, s.CallOk (s.phase c)
  owner : ∀ c c' k k' e, (s.phase c).Owns k e → (s.phase c').Owns k' e → c = c'
  stored : ∀ k e, s.storage k = some e → ∃ c, (s.phase c).Leads k e

variable {s s' : State κ ρ} {c e own : Nat} {k : κ} {p : Phase κ ρ}

theorem Phase.Leads.owns (h : p.Leads k e) : p.Owns k e := by
  cases p with
  | leading k' own => exact h
  | loaded k' own found r => exact h
  | published k' own found r => exact h
  | _ => cases h

theorem Inv.led (hi : Inv s) (hp : s.phase c = p) (hs : s.storage k = some e) :
    p.Leads k e ∨ ∃ c', c' ≠ c ∧ (s.phase c').Leads k e := by
  obtain ⟨c', hl⟩ := hi.stored k e hs
  by_cases hc : c' = c
  · subst hc
    exact .inl (hp ▸ hl)
  · exact .inr ⟨c', hc, hl⟩

theorem Inv.storage_of_leads (hi : Inv s) (h : (s.phase c).Leads k e) : s.storage k = some e := by
  have hc := hi.call c
  cases hp : s.phase c with
  | leading k' own =>
    rw [hp] at h hc
    obtain ⟨rfl, rfl⟩ := h
    exact hc.2.1
  | loaded k' own found r =>
    rw [hp] at h hc
    obtain ⟨rfl, rfl⟩ := h
    exact hc.2.2.1
  | published k' own found r =>
    rw [hp] at h hc
    obtain ⟨rfl, rfl⟩ := h
    exact hc.2.2.1
  | _ => rw [hp] at h; cases h

theorem Inv.lt_of_owns (hi : Inv s) (h : (s.phase c).Owns k e) : e < s.next := by
  have hc := hi.call c
  cases hp : s.phase c with
  | leading k' own => rw [hp] at h hc; exact h.2 ▸ hc.1
  | loaded k' own found r => rw [hp] at h hc; exact h.2 ▸ hc.2.1
  | published k' own found r => rw [hp] at h hc; exact h.2 ▸ hc.2.1
  | deleted k' own found r => rw [hp] at h hc; exact h.2 ▸ hc.2.1
  | done k' own found r => rw [hp] at h hc; exact h.2 ▸ hc.2.1
  | _ => rw [hp] at h; cases h

theorem inv_init : Inv (init κ ρ) where
  call _ := trivial
  owner _ _ _ _ _ h := nomatch h
  stored _ _ h := nomatch h

/-! ## Steps

A step moves one call from its phase to `p` and changes the shared state only where
no other call depends on it. -/

structure Moves (s s' : State κ ρ) (c : Nat) (p : Phase κ ρ) : Prop where
  phase : s'.phase = Function.update s.phase c p
  next : s.next ≤ s'.next
  entry : ∀ c' k e, c' ≠ c → (s.phase c').Owns k e → s'.entry e = s.entry e
  lead : ∀ c' k e, c' ≠ c → (s.phase c').Leads k e → s'.storage k = some e
  free : ∀ c' k e, c' ≠ c → (s.phase c').Owns k e → s.storage k ≠ some e → s'.storage k ≠ some e
  /-- The call keeps what it owns, and gains at most a new entry. -/
  keeps : ∀ k e, (s.phase c).Owns k e → p.Owns k e
  gains : ∀ k e, p.Owns k e → (s.phase c).Owns k e ∨ e = s.next
  live : ∀ k e r, s.phase c ≠ .done k e e r
  ok : s'.CallOk p
  stored : ∀ k e, s'.storage k = some e → p.Leads k e ∨ ∃ c', c' ≠ c ∧ (s.phase c').Leads k e

theorem Moves.phase_self (h : Moves s s' c p) : s'.phase c = p := by
  rw [h.phase, Function.update_self]

theorem Moves.phase_other (h : Moves s s' c p) {c' : Nat} (hc : c' ≠ c) :
    s'.phase c' = s.phase c' := by
  rw [h.phase, Function.update_of_ne hc]

theorem Moves.owns (h : Moves s s' c p) {c' : Nat} (ho : (s.phase c').Owns k e) :
    (s'.phase c').Owns k e := by
  by_cases hc : c' = c
  · subst hc
    rw [h.phase_self]
    exact h.keeps k e ho
  · rwa [h.phase_other hc]

theorem Moves.callOk_other (h : Moves s s' c p) (hi : Inv s) {c' : Nat} (hc : c' ≠ c) :
    s'.CallOk (s.phase c') := by
  have hok := hi.call c'
  have hentry := h.entry c'
  have hlead := h.lead c'
  have hfree := h.free c'
  cases hp : s.phase c' with
  | idle => trivial
  | bypass => trivial
  | leading k own =>
    rw [hp] at hok hentry hlead
    exact ⟨Nat.lt_of_lt_of_le hok.1 h.next, hlead k own hc ⟨rfl, rfl⟩,
      (hentry k own hc ⟨rfl, rfl⟩).trans hok.2.2⟩
  | loaded k own found r =>
    rw [hp] at hok hentry hlead
    exact ⟨hok.1, Nat.lt_of_lt_of_le hok.2.1 h.next, hlead k own hc ⟨rfl, rfl⟩,
      (hentry k own hc ⟨rfl, rfl⟩).trans hok.2.2.2⟩
  | published k own found r =>
    rw [hp] at hok hentry hlead
    exact ⟨hok.1, Nat.lt_of_lt_of_le hok.2.1 h.next, hlead k own hc ⟨rfl, rfl⟩,
      (hentry k own hc ⟨rfl, rfl⟩).trans hok.2.2.2⟩
  | deleted k own found r =>
    rw [hp] at hok hentry hfree
    exact ⟨hok.1, Nat.lt_of_lt_of_le hok.2.1 h.next, hfree k own hc ⟨rfl, rfl⟩ hok.2.2.1,
      (hentry k own hc ⟨rfl, rfl⟩).trans hok.2.2.2⟩
  | done k own found r =>
    rw [hp] at hok hentry hfree
    exact ⟨hok.1, Nat.lt_of_lt_of_le hok.2.1 h.next, hfree k own hc ⟨rfl, rfl⟩ hok.2.2.1,
      (hentry k own hc ⟨rfl, rfl⟩).trans hok.2.2.2⟩
  | panicked => rw [hp] at hok; exact hok
  | waiting k e =>
    rw [hp] at hok
    obtain ⟨c₀, ho⟩ := hok
    exact ⟨c₀, h.owns ho⟩
  | returned k e r =>
    rw [hp] at hok
    obtain ⟨c₀, r', hd, hr⟩ := hok
    have hne : c₀ ≠ c := by
      rintro rfl
      exact h.live k e r' hd
    exact ⟨c₀, r', by rw [h.phase_other hne, hd], hr⟩

theorem Moves.inv (h : Moves s s' c p) (hi : Inv s) : Inv s' := by
  -- An owner in the new state owned the entry before, unless it is the new entry.
  have hbefore : ∀ c' k e, (s'.phase c').Owns k e →
      (s.phase c').Owns k e ∨ c' = c ∧ e = s.next := by
    intro c' k e ho
    by_cases hc : c' = c
    · subst hc
      rw [h.phase_self] at ho
      rcases h.gains k e ho with ho | he
      · exact .inl ho
      · exact .inr ⟨rfl, he⟩
    · rw [h.phase_other hc] at ho
      exact .inl ho
  refine ⟨fun c' => ?_, fun c₁ c₂ k k' e h₁ h₂ => ?_, fun k e hk => ?_⟩
  · by_cases hc : c' = c
    · subst hc
      rw [h.phase_self]
      exact h.ok
    · rw [h.phase_other hc]
      exact h.callOk_other hi hc
  · rcases hbefore c₁ k e h₁ with ho₁ | ⟨rfl, rfl⟩ <;>
      rcases hbefore c₂ k' _ h₂ with ho₂ | ⟨rfl, he⟩
    · exact hi.owner c₁ c₂ k k' e ho₁ ho₂
    · exact absurd (hi.lt_of_owns ho₁) (by omega)
    · exact absurd (hi.lt_of_owns ho₂) (by omega)
    · rfl
  · rcases h.stored k e hk with hl | ⟨c', hc, hl⟩
    · exact ⟨c, by rw [h.phase_self]; exact hl⟩
    · exact ⟨c', by rw [h.phase_other hc]; exact hl⟩

theorem owner_ne (hi : Inv s) {c' : Nat} {k' : κ} {e' : Nat} (h : (s.phase c).Owns k e)
    (h' : (s.phase c').Owns k' e') (hc : c' ≠ c) : e' ≠ e := by
  rintro rfl
  exact hc (hi.owner c' c k' k e' h' h)

theorem moves_setPhase (hi : Inv s) (hbefore : ∀ k e, ¬(s.phase c).Owns k e)
    (hafter : ∀ k e, ¬p.Owns k e) (hok : (s.setPhase c p).CallOk p) :
    Moves s (s.setPhase c p) c p where
  phase := rfl
  next := Nat.le_refl _
  entry _ _ _ _ _ := rfl
  lead _ _ _ _ hl := hi.storage_of_leads hl
  free _ _ _ _ _ hne := hne
  keeps k e ho := absurd ho (hbefore k e)
  gains k e ho := absurd ho (hafter k e)
  live k e r hd := hbefore k e (by rw [hd]; exact ⟨rfl, rfl⟩)
  ok := hok
  stored k e hk := .inr ((hi.led rfl hk).resolve_left fun hl => hbefore k e hl.owns)

theorem moves_lead [DecidableEq κ] (hi : Inv s) (hidle : s.phase c = .idle)
    (hk : s.storage k = none) :
    Moves s { s with
      storage := Function.update s.storage k (some s.next)
      entry := Function.update s.entry s.next ⟨none, 0⟩
      next := s.next + 1
      phase := Function.update s.phase c (.leading k s.next) } c (.leading k s.next) where
  phase := rfl
  next := Nat.le_succ _
  entry c' k' e _ ho := Function.update_of_ne (Nat.ne_of_lt (hi.lt_of_owns ho)) _ _
  lead c' k' e _ hl := by
    have hs := hi.storage_of_leads hl
    have hne : k' ≠ k := by
      rintro rfl
      rw [hk] at hs
      cases hs
    exact (Function.update_of_ne hne _ _).trans hs
  free c' k' e _ ho hne := by
    show Function.update s.storage k (some s.next) k' ≠ some e
    by_cases hkk : k' = k
    · subst hkk
      rw [Function.update_self]
      have := hi.lt_of_owns ho
      simp only [ne_eq, Option.some.injEq]
      omega
    · rwa [Function.update_of_ne hkk]
  keeps k' e ho := by rw [hidle] at ho; cases ho
  gains k' e ho := .inr ho.2.symm
  live k' e r hd := by rw [hidle] at hd; cases hd
  ok := ⟨Nat.lt_succ_self _, Function.update_self _ _ _, Function.update_self _ _ _⟩
  stored k' e hs := by
    change Function.update s.storage k (some s.next) k' = some e at hs
    by_cases hkk : k' = k
    · subst hkk
      rw [Function.update_self, Option.some.injEq] at hs
      exact .inl ⟨rfl, hs⟩
    · rw [Function.update_of_ne hkk] at hs
      exact .inr ((hi.led hidle hs).resolve_left nofun)

theorem moves_load (hi : Inv s) (r : ρ) (hp : s.phase c = .leading k own) :
    s.storage k = some own ∧
      Moves s (s.setPhase c (.loaded k own own r)) c (.loaded k own own r) := by
  obtain ⟨hlt, hst, hen⟩ : own < s.next ∧ s.storage k = some own ∧ s.entry own = ⟨none, 0⟩ := by
    have := hi.call c
    rwa [hp] at this
  refine ⟨hst, ?_⟩
  exact {
    phase := rfl
    next := Nat.le_refl _
    entry := fun _ _ _ _ _ => rfl
    lead := fun _ _ _ _ hl => hi.storage_of_leads hl
    free := fun _ _ _ _ _ hne => hne
    keeps := fun k' e ho => by rw [hp] at ho; exact ho
    gains := fun k' e ho => .inl (by rw [hp]; exact ho)
    live := fun _ _ _ hd => by rw [hp] at hd; cases hd
    ok := ⟨rfl, hlt, hst, hen⟩
    stored := fun _ _ hs => by
      have howns := hi.led hp hs
      exact howns }

theorem moves_write (hi : Inv s) {v : Entry ρ} (hown : (s.phase c).Owns k own)
    (howns : ∀ k' e, p.Owns k' e ↔ (s.phase c).Owns k' e)
    (hleads : ∀ k' e, (s.phase c).Leads k' e → p.Leads k' e)
    (hlive : ∀ k' e r, s.phase c ≠ .done k' e e r) (hok : State.CallOk { s with
      entry := Function.update s.entry own v
      phase := Function.update s.phase c p } p) :
    Moves s { s with
      entry := Function.update s.entry own v
      phase := Function.update s.phase c p } c p where
  phase := rfl
  next := Nat.le_refl _
  entry _ _ _ hc ho := Function.update_of_ne (owner_ne hi hown ho hc) _ _
  lead _ _ _ _ hl := hi.storage_of_leads hl
  free _ _ _ _ _ hne := hne
  keeps k' e ho := (howns k' e).mpr ho
  gains k' e ho := .inl ((howns k' e).mp ho)
  live := hlive
  ok := hok
  stored k' e hs := (hi.led rfl hs).imp_left (hleads k' e)

theorem moves_publish (hi : Inv s) {found : Nat} {r : ρ} (hp : s.phase c = .loaded k own found r) :
    Moves s { s with
      entry := Function.update s.entry found { s.entry found with result := some r }
      phase := Function.update s.phase c (.published k own found r) }
      c (.published k own found r) := by
  have hown : (s.phase c).Owns k own := by rw [hp]; exact ⟨rfl, rfl⟩
  obtain ⟨rfl, hlt, hst, hen⟩ : found = own ∧ own < s.next ∧ s.storage k = some own ∧
      s.entry own = ⟨none, 0⟩ := by
    have := hi.call c
    rwa [hp] at this
  refine moves_write hi hown ?_ ?_ ?_ ⟨rfl, hlt, hst, ?_⟩
  · rw [hp]
    exact fun _ _ => Iff.rfl
  · rw [hp]
    exact fun _ _ hl => hl
  · intro _ _ _ hd
    rw [hp] at hd
    cases hd
  · show Function.update s.entry found _ found = _
    rw [Function.update_self, hen]

theorem moves_delete [DecidableEq κ] (hi : Inv s) {found : Nat} {r : ρ}
    (hp : s.phase c = .published k own found r) :
    Moves s { s with
      storage := Function.update s.storage k none
      phase := Function.update s.phase c (.deleted k own found r) } c (.deleted k own found r) := by
  have hown : (s.phase c).Owns k own := by rw [hp]; exact ⟨rfl, rfl⟩
  obtain ⟨hf, hlt, hst, hen⟩ : found = own ∧ own < s.next ∧ s.storage k = some own ∧
      s.entry own = ⟨some r, 0⟩ := by
    have := hi.call c
    rwa [hp] at this
  exact {
    phase := rfl
    next := Nat.le_refl _
    entry := fun _ _ _ _ _ => rfl
    lead := fun c' k' e hc hl => by
      have hs := hi.storage_of_leads hl
      have hne : k' ≠ k := by
        rintro rfl
        exact owner_ne hi hown hl.owns hc (Option.some.inj (hs.symm.trans hst))
      exact (Function.update_of_ne hne _ _).trans hs
    free := fun c' k' e _ _ hne => by
      show Function.update s.storage k none k' ≠ some e
      by_cases hkk : k' = k
      · subst hkk
        rw [Function.update_self]
        exact fun h => nomatch h
      · rwa [Function.update_of_ne hkk]
    keeps := fun k' e ho => by rw [hp] at ho; exact ho
    gains := fun k' e ho => .inl (by rw [hp]; exact ho)
    live := fun _ _ _ hd => by rw [hp] at hd; cases hd
    ok := by
      refine ⟨hf, hlt, ?_, hen⟩
      show Function.update s.storage k none k ≠ some own
      rw [Function.update_self]
      exact fun h => nomatch h
    stored := fun k' e hs => by
      change Function.update s.storage k none k' = some e at hs
      by_cases hkk : k' = k
      · subst hkk
        rw [Function.update_self] at hs
        cases hs
      · rw [Function.update_of_ne hkk] at hs
        exact .inr ((hi.led hp hs).resolve_left fun hl => hkk hl.1.symm) }

theorem moves_close (hi : Inv s) {found : Nat} {r : ρ} (hp : s.phase c = .deleted k own found r) :
    (s.entry found).closes = 0 ∧ Moves s { s with
      entry := Function.update s.entry found { s.entry found with closes := 1 }
      phase := Function.update s.phase c (.done k own found r) } c (.done k own found r) := by
  have hown : (s.phase c).Owns k own := by rw [hp]; exact ⟨rfl, rfl⟩
  obtain ⟨rfl, hlt, hst, hen⟩ : found = own ∧ own < s.next ∧ s.storage k ≠ some own ∧
      s.entry own = ⟨some r, 0⟩ := by
    have := hi.call c
    rwa [hp] at this
  refine ⟨by rw [hen], moves_write hi hown ?_ ?_ ?_ ⟨rfl, hlt, hst, ?_⟩⟩
  · rw [hp]
    exact fun _ _ => Iff.rfl
  · rw [hp]
    exact fun _ _ hl => hl.elim
  · intro _ _ _ hd
    rw [hp] at hd
    cases hd
  · show Function.update s.entry found _ found = _
    rw [Function.update_self, hen]

theorem closed_of_waiting (hi : Inv s) (hp : s.phase c = .waiting k e)
    (hclosed : (s.entry e).closes ≠ 0) :
    ∃ c' r', s.phase c' = .done k e e r' ∧ (s.entry e).result = some r' := by
  have hok := hi.call c
  rw [hp] at hok
  obtain ⟨c', ho⟩ := hok
  have hok' := hi.call c'
  refine ⟨c', ?_⟩
  cases hp' : s.phase c' with
  | leading k' own =>
    rw [hp'] at ho hok'
    exact absurd (by rw [← ho.2, hok'.2.2]) hclosed
  | loaded k' own found r =>
    rw [hp'] at ho hok'
    exact absurd (by rw [← ho.2, hok'.2.2.2]) hclosed
  | published k' own found r =>
    rw [hp'] at ho hok'
    exact absurd (by rw [← ho.2, hok'.2.2.2]) hclosed
  | deleted k' own found r =>
    rw [hp'] at ho hok'
    exact absurd (by rw [← ho.2, hok'.2.2.2]) hclosed
  | done k' own found r =>
    rw [hp'] at ho hok'
    obtain ⟨rfl, rfl⟩ := ho
    obtain ⟨rfl, _, _, hen⟩ := hok'
    exact ⟨r, rfl, by rw [hen]⟩
  | _ => rw [hp'] at ho; cases ho

theorem step_moves [DecidableEq κ] {a : Action κ ρ} (hi : Inv s) (h : step s a = some s') :
    ∃ c p, Moves s s' c p := by
  cases a with
  | queue c k =>
    simp only [step] at h
    split at h
    · next hp =>
      obtain rfl := Option.some.inj h
      exact ⟨c, .bypass, moves_setPhase hi (by rw [hp]; exact fun _ _ h => h) (fun _ _ h => h)
        trivial⟩
    · next k hp =>
      split at h
      · next e he =>
        obtain rfl := Option.some.inj h
        refine ⟨c, .waiting k e, moves_setPhase hi (by rw [hp]; exact fun _ _ h => h)
          (fun _ _ h => h) ?_⟩
        obtain ⟨c', hl⟩ := hi.stored k e he
        have hne : c' ≠ c := by
          rintro rfl
          rw [hp] at hl
          cases hl
        exact ⟨c', by
          show (Function.update s.phase c _ c').Owns k e
          rw [Function.update_of_ne hne]
          exact hl.owns⟩
      · next he =>
        obtain rfl := Option.some.inj h
        exact ⟨c, _, moves_lead hi hp he⟩
    · cases h
  | load c r =>
    simp only [step] at h
    split at h
    · next k own hp =>
      obtain ⟨hst, hm⟩ := moves_load hi r hp
      simp only [hst, Option.some.injEq] at h
      subst h
      exact ⟨c, _, hm⟩
    · cases h
  | publish c =>
    simp only [step] at h
    split at h
    · next k own found r hp =>
      obtain rfl := Option.some.inj h
      exact ⟨c, _, moves_publish hi hp⟩
    · cases h
  | delete c =>
    simp only [step] at h
    split at h
    · next k own found r hp =>
      obtain rfl := Option.some.inj h
      exact ⟨c, _, moves_delete hi hp⟩
    · cases h
  | close c =>
    simp only [step] at h
    split at h
    · next k own found r hp =>
      obtain ⟨h0, hm⟩ := moves_close hi hp
      rw [if_pos h0] at h
      obtain rfl := Option.some.inj h
      exact ⟨c, _, hm⟩
    · cases h
  | wake c =>
    simp only [step] at h
    split at h
    · next k e hp =>
      split at h
      · cases h
      · next hclosed =>
        obtain rfl := Option.some.inj h
        refine ⟨c, .returned k e (s.entry e).result, moves_setPhase hi
          (by rw [hp]; exact fun _ _ h => h) (fun _ _ h => h) ?_⟩
        obtain ⟨c', r', hd, hr⟩ := closed_of_waiting hi hp hclosed
        have hne : c' ≠ c := by
          rintro rfl
          rw [hp] at hd
          cases hd
        exact ⟨c', r', (Function.update_of_ne hne _ _).trans hd, hr⟩
    · cases h

theorem inv_step [DecidableEq κ] {a : Action κ ρ} (hi : Inv s) (h : step s a = some s') :
    Inv s' := by
  obtain ⟨c, p, hm⟩ := step_moves hi h
  exact hm.inv hi

theorem inv_run [DecidableEq κ] (h : Run (init κ ρ) s) : Inv s :=
  h.invariant inv_init fun _ _ _ hi _ hstep => inv_step hi hstep

/-! ## The properties of the protocol -/

section Properties

variable {s : State κ ρ} (hi : Inv s)
include hi

/-- At most one call leads a key. -/
theorem leader_unique {c c' : Nat} {k : κ} {e e' : Nat} (h : (s.phase c).Leads k e)
    (h' : (s.phase c').Leads k e') : c = c' ∧ e = e' := by
  obtain rfl : e = e' :=
    Option.some.inj ((hi.storage_of_leads h).symm.trans (hi.storage_of_leads h'))
  exact ⟨hi.owner c c' k k e h.owns h'.owns, rfl⟩

theorem not_panicked (c : Nat) : s.phase c ≠ .panicked := by
  intro hp
  have := hi.call c
  rw [hp] at this
  exact this

/-- A call in the middle of its `done` works on its own entry. -/
theorem found_own {c : Nat} {k : κ} {own found : Nat} {r : ρ}
    (h : s.phase c = .loaded k own found r ∨ s.phase c = .published k own found r ∨
      s.phase c = .deleted k own found r ∨ s.phase c = .done k own found r) : found = own := by
  have := hi.call c
  rcases h with hp | hp | hp | hp <;> rw [hp] at this <;> exact this.1

/-- An entry is closed once its owner is done, and then once. -/
theorem closes_of_owner {c : Nat} {k : κ} {e : Nat} (h : (s.phase c).Owns k e) :
    (s.entry e).closes = 1 ∧ (∃ found r, s.phase c = .done k e found r) ∨
      (s.entry e).closes = 0 ∧ ∀ found r, s.phase c ≠ .done k e found r := by
  have hok := hi.call c
  cases hp : s.phase c with
  | leading k' own =>
    rw [hp] at h hok
    obtain ⟨rfl, rfl⟩ := h
    exact .inr ⟨by rw [hok.2.2], fun _ _ hd => nomatch hd⟩
  | loaded k' own found r =>
    rw [hp] at h hok
    obtain ⟨rfl, rfl⟩ := h
    exact .inr ⟨by rw [hok.2.2.2], fun _ _ hd => nomatch hd⟩
  | published k' own found r =>
    rw [hp] at h hok
    obtain ⟨rfl, rfl⟩ := h
    exact .inr ⟨by rw [hok.2.2.2], fun _ _ hd => nomatch hd⟩
  | deleted k' own found r =>
    rw [hp] at h hok
    obtain ⟨rfl, rfl⟩ := h
    exact .inr ⟨by rw [hok.2.2.2], fun _ _ hd => nomatch hd⟩
  | done k' own found r =>
    rw [hp] at h hok
    obtain ⟨rfl, rfl⟩ := h
    exact .inl ⟨by rw [hok.2.2.2], found, r, rfl⟩
  | _ => rw [hp] at h; cases h

theorem owner_of_waiting {c : Nat} {k : κ} {e : Nat} (h : s.phase c = .waiting k e) :
    ∃ c', (s.phase c').Owns k e := by
  have := hi.call c
  rwa [h] at this

/-- A call that returned has the result of the leader it joined, which is done. -/
theorem returned_of_leader {c : Nat} {k : κ} {e : Nat} {r : Option ρ}
    (h : s.phase c = .returned k e r) : ∃ c' r', s.phase c' = .done k e e r' ∧ r = some r' := by
  have := hi.call c
  rwa [h] at this

end Properties

end SingleFlight
