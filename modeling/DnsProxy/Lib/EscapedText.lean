import Mathlib.Data.List.Infix

/-!
# Text with escapes

A text is cut into parts at its separators, where an escape takes away the meaning of
the symbol behind it. `parts_suffix_iff` compares this with a cut that does not know
about escapes: the parts of what follows a separator are the last parts of the whole
text exactly when the separator is not escaped.
-/

namespace EscapedText

section

variable {α : Type} [DecidableEq α] (sep esc : α)

/-- The parts of a text, where `part` is what was read of the first one and `escaped` says
whether its last symbol was an escape. -/
def partsFrom : Bool → List α → List α → List (List α)
  | _, part, [] => if part = [] then [] else [part]
  | escaped, part, a :: s =>
    if escaped = false ∧ a = sep then part :: partsFrom false [] s
    else partsFrom (!escaped && a == esc) (part ++ [a]) s

def parts (s : List α) : List (List α) := partsFrom sep esc false [] s

/-- Whether the symbol behind the text is escaped. -/
def escapedAfter : Bool → List α → Bool
  | escaped, [] => escaped
  | escaped, a :: s => escapedAfter (!escaped && a == esc) s

/-- The text has no separator that is not escaped, and no escape at its end. -/
def isPartFrom : Bool → List α → Bool
  | escaped, [] => !escaped
  | escaped, a :: s => !(!escaped && a == sep) && isPartFrom (!escaped && a == esc) s

def EndsEscaped (s : List α) : Prop := escapedAfter esc false s = true

instance (s : List α) : Decidable (EndsEscaped esc s) :=
  inferInstanceAs (Decidable (escapedAfter esc false s = true))

end

section

variable {α : Type} [DecidableEq α] {sep esc : α}

theorem not_endsEscaped {s : List α} (h : esc ∉ s) : ¬ EndsEscaped esc s := by
  have hfalse : escapedAfter esc false s = false := by
    induction s with
    | nil => rfl
    | cons a s ih =>
      rw [List.mem_cons, not_or] at h
      have hne : (a == esc) = false := by simpa using fun heq : a = esc => h.1 heq.symm
      rw [escapedAfter, hne]
      exact ih h.2
  simp [EndsEscaped, hfalse]

/-- What is read of a text before its rest: some parts, the beginning of another one, and
whether the rest is escaped. -/
theorem partsFrom_append (hne : sep ≠ esc) (pre t : List α) (escaped : Bool) (part : List α) :
    ∃ front x, partsFrom sep esc escaped part (pre ++ t) =
      front ++ partsFrom sep esc (escapedAfter esc escaped pre) x t := by
  induction pre generalizing escaped part with
  | nil => exact ⟨[], part, rfl⟩
  | cons a pre ih =>
    rw [List.cons_append, partsFrom]
    split
    · next hsep =>
      have hstate : (!escaped && a == esc) = false := by simp [hsep.2, hne]
      obtain ⟨front, x, hfront⟩ := ih false []
      exact ⟨part :: front, x, by rw [hfront, escapedAfter, hstate, List.cons_append]⟩
    · exact ih _ _

theorem partsFrom_append_sep {s : List α} (hne : sep ≠ esc) {pre : List α} {escaped : Bool}
    (h : escapedAfter esc escaped pre = false) (part : List α) :
    ∃ front, partsFrom sep esc escaped part (pre ++ sep :: s) = front ++ parts sep esc s := by
  obtain ⟨front, x, hfront⟩ := partsFrom_append hne pre (sep :: s) escaped part
  refine ⟨front ++ [x], ?_⟩
  rw [hfront, h, partsFrom, if_pos ⟨rfl, rfl⟩, List.append_assoc]
  rfl

theorem partsFrom_append_escaped {s : List α} (hne : sep ≠ esc) {pre : List α} {escaped : Bool}
    (h : escapedAfter esc escaped pre = true) (part : List α) :
    ∃ front x, x ≠ [] ∧
      partsFrom sep esc escaped part (pre ++ sep :: s) = front ++ partsFrom sep esc false x s := by
  obtain ⟨front, x, hfront⟩ := partsFrom_append hne pre (sep :: s) escaped part
  refine ⟨front, x ++ [sep], List.append_ne_nil_of_right_ne_nil _ (List.cons_ne_nil _ _), ?_⟩
  rw [hfront, h, partsFrom, if_neg (fun hsep => nomatch hsep.1)]
  rfl

theorem partsFrom_of_isPartFrom {escaped : Bool} {t : List α}
    (h : isPartFrom sep esc escaped t = true) (part s : List α) :
    partsFrom sep esc escaped part (t ++ s) = partsFrom sep esc false (part ++ t) s := by
  induction t generalizing escaped part with
  | nil =>
    have hfalse : escaped = false := by simpa [isPartFrom] using h
    rw [hfalse, List.append_nil, List.nil_append]
  | cons a t ih =>
    simp only [isPartFrom, Bool.and_eq_true] at h
    rw [List.cons_append, partsFrom, if_neg, ih h.2, List.append_assoc]
    · rfl
    · rintro ⟨hesc, hsep⟩
      simp [hesc, hsep] at h

theorem isPartFrom_append {escaped : Bool} {t t' : List α}
    (h : isPartFrom sep esc escaped t = true) (h' : isPartFrom sep esc false t' = true) :
    isPartFrom sep esc escaped (t ++ t') = true := by
  induction t generalizing escaped with
  | nil =>
    have hfalse : escaped = false := by simpa [isPartFrom] using h
    rw [hfalse]
    exact h'
  | cons a t ih =>
    simp only [isPartFrom, Bool.and_eq_true] at h
    rw [List.cons_append, isPartFrom, h.1, ih h.2]
    rfl

theorem parts_flatMap {ts : List (List α)} (h : ∀ t ∈ ts, isPartFrom sep esc false t = true) :
    parts sep esc (ts.flatMap fun t => t ++ [sep]) = ts := by
  induction ts with
  | nil => simp [parts, partsFrom]
  | cons t ts ih =>
    obtain ⟨ht, hts⟩ := List.forall_mem_cons.mp h
    rw [parts, List.flatMap_cons, List.append_assoc, partsFrom_of_isPartFrom ht,
      List.nil_append, List.singleton_append, partsFrom, if_pos ⟨rfl, rfl⟩]
    exact congrArg _ (ih hts)

theorem partsFrom_prepend {x : List α} (hx : x ≠ []) (escaped : Bool) (part s : List α) :
    partsFrom sep esc escaped (x ++ part) s =
      match partsFrom sep esc escaped part s with
      | [] => [x]
      | p :: ps => (x ++ p) :: ps := by
  induction s generalizing escaped part with
  | nil =>
    unfold partsFrom
    rw [if_neg (by simp [hx])]
    split_ifs with hpart
    · rw [hpart, List.append_nil]
    · rfl
  | cons a s ih =>
    unfold partsFrom
    split
    · rfl
    · rw [List.append_assoc]
      exact ih _ _

/-- The parts of the text behind a separator are the last ones of the whole text exactly
when the separator is not escaped. -/
theorem parts_suffix_iff (hne : sep ≠ esc) {s : List α} (hs : parts sep esc s ≠ [])
    (pre : List α) :
    parts sep esc s <:+ parts sep esc (pre ++ sep :: s) ↔ ¬ EndsEscaped esc pre := by
  cases h : escapedAfter esc false pre with
  | false =>
    obtain ⟨front, hfront⟩ := partsFrom_append_sep (s := s) hne h []
    have hsuffix : parts sep esc s <:+ parts sep esc (pre ++ sep :: s) := ⟨front, hfront.symm⟩
    simp [EndsEscaped, h, hsuffix]
  | true =>
    obtain ⟨front, x, hx, hfront⟩ := partsFrom_append_escaped (s := s) hne h []
    obtain ⟨p, ps, hparts⟩ := List.exists_cons_of_ne_nil hs
    have hlast : partsFrom sep esc false x s = (x ++ p) :: ps := by
      have hprep := @partsFrom_prepend _ _ sep esc x hx false [] s
      rw [List.append_nil] at hprep
      rw [hprep, show partsFrom sep esc false [] s = p :: ps from hparts]
    have htext : parts sep esc (pre ++ sep :: s) = front ++ (x ++ p) :: ps := by
      rw [parts, hfront, hlast]
    simp only [EndsEscaped, h, not_true_eq_false, iff_false]
    intro hsuffix
    rw [htext, hparts] at hsuffix
    -- two ends of one list that have the same length
    have hsame : p :: ps <:+ (x ++ p) :: ps :=
      List.suffix_of_suffix_length_le hsuffix (List.suffix_append _ _) (Nat.le_refl _)
    have hhead : p = x ++ p := (List.cons.inj (hsame.eq_of_length rfl)).1
    exact hx (List.self_eq_append_left.mp hhead)

end

end EscapedText
