import Mathlib.Data.List.Infix

/-!
# White space in UTF-8 text

The characters that Unicode has as white space, as their encodings, and the functions
that split and trim a text at them. A text is any list of bytes. The encodings of the
other characters, and bytes that encode nothing, can be stepped over byte by byte,
since no byte that continues a character begins one.
-/

namespace WhiteSpace

def encodings : List (List UInt8) :=
  [[9], [10], [11], [12], [13], [32], [0xc2, 0x85], [0xc2, 0xa0], [0xe1, 0x9a, 0x80],
    [0xe2, 0x80, 0x80], [0xe2, 0x80, 0x81], [0xe2, 0x80, 0x82], [0xe2, 0x80, 0x83],
    [0xe2, 0x80, 0x84], [0xe2, 0x80, 0x85], [0xe2, 0x80, 0x86], [0xe2, 0x80, 0x87],
    [0xe2, 0x80, 0x88], [0xe2, 0x80, 0x89], [0xe2, 0x80, 0x8a], [0xe2, 0x80, 0xa8],
    [0xe2, 0x80, 0xa9], [0xe2, 0x80, 0xaf], [0xe2, 0x81, 0x9f], [0xe3, 0x80, 0x80]]

/-- The number of bytes of the white space at the head, 0 for other text. -/
def width (s : List UInt8) : Nat :=
  ((encodings.find? fun e => e.isPrefixOf s).map List.length).getD 0

/-- Marks the bytes that belong to white space. The first argument counts the bytes that
are left of a character. -/
def mark : Nat → List UInt8 → List (UInt8 × Bool)
  | _, [] => []
  | n + 1, b :: bs => (b, true) :: mark n bs
  | 0, b :: bs =>
    match width (b :: bs) with
    | 0 => (b, false) :: mark 0 bs
    | n + 1 => (b, true) :: mark n bs

/-- The words between white space. -/
def fields (s : List UInt8) : List (List UInt8) :=
  (((mark 0 s).splitOnP Prod.snd).filter (· ≠ [])).map (List.map Prod.fst)

/-- The text without the white space at its ends. -/
def trimSpace (s : List UInt8) : List UInt8 :=
  (((mark 0 s).dropWhile Prod.snd).reverse.dropWhile Prod.snd).reverse.map Prod.fst

/-- A text of white space only. -/
def Blank (s : List UInt8) : Prop :=
  ∃ es : List (List UInt8), (∀ e ∈ es, e ∈ encodings) ∧ es.flatten = s

/-! ## Marked bytes -/

theorem encoding_eq_of_begins : ∀ e ∈ encodings, ∀ e' ∈ encodings, e <+: e' → e = e' := by
  decide

theorem encodings_ne_nil : ∀ e ∈ encodings, e ≠ [] := by
  decide

theorem find_append {e : List UInt8} (he : e ∈ encodings) (s : List UInt8) :
    encodings.find? (fun e' => e'.isPrefixOf (e ++ s)) = some e := by
  cases h : encodings.find? fun e' => e'.isPrefixOf (e ++ s) with
  | none =>
    have hnone := List.find?_eq_none.mp h e he
    exact absurd (List.isPrefixOf_iff_prefix.mpr (List.prefix_append e s)) hnone
  | some e' =>
    have hmem := List.mem_of_find?_eq_some h
    have hpre : e' <+: e ++ s := by simpa using List.find?_some h
    rcases List.prefix_or_prefix_of_prefix hpre (List.prefix_append e s) with hle | hle
    · rw [encoding_eq_of_begins e' hmem e he hle]
    · rw [encoding_eq_of_begins e he e' hmem hle]

theorem mark_append (rest : List UInt8) (e : List UInt8) :
    mark e.length (e ++ rest) = e.map (fun b => (b, true)) ++ mark 0 rest := by
  induction e with
  | nil => rfl
  | cons b e ih =>
    simp only [List.length_cons, List.cons_append, mark, ih, List.map_cons]

theorem mark_encoding {e : List UInt8} (he : e ∈ encodings) (s : List UInt8) :
    mark 0 (e ++ s) = e.map (fun b => (b, true)) ++ mark 0 s := by
  obtain ⟨b, bs, rfl⟩ := List.exists_cons_of_ne_nil (encodings_ne_nil e he)
  have hwidth : width ((b :: bs) ++ s) = bs.length + 1 := by
    rw [width, find_append he]
    rfl
  rw [List.cons_append] at hwidth ⊢
  simp only [mark, hwidth, mark_append, List.map_cons, List.cons_append]

theorem exists_of_width_ne_zero {s : List UInt8} (h : width s ≠ 0) :
    ∃ e ∈ encodings, ∃ rest, s = e ++ rest := by
  unfold width at h
  cases hfind : encodings.find? fun e => e.isPrefixOf s with
  | none => exact absurd (by rw [hfind]; rfl) h
  | some e =>
    have hpre : e <+: s := by simpa using List.find?_some hfind
    obtain ⟨rest, hrest⟩ := hpre
    exact ⟨e, List.mem_of_find?_eq_some hfind, rest, hrest.symm⟩

theorem blank_of_mark {s : List UInt8} (h : ∀ x ∈ mark 0 s, x.2 = true) : Blank s := by
  -- by induction on the length, as a character may have several bytes
  induction hn : s.length using Nat.strong_induction_on generalizing s with
  | _ n ih =>
    cases s with
    | nil => exact ⟨[], by simp, rfl⟩
    | cons b bs =>
      have hwidth : width (b :: bs) ≠ 0 := by
        intro hzero
        have hhead : (b, false) ∈ mark 0 (b :: bs) := by simp [mark, hzero]
        exact absurd (h _ hhead) Bool.false_ne_true
      obtain ⟨e, he, rest, hsplit⟩ := exists_of_width_ne_zero hwidth
      rw [hsplit, mark_encoding he] at h
      have hlt : rest.length < n := by
        rw [← hn, hsplit, List.length_append]
        exact Nat.lt_add_of_pos_left (List.length_pos_of_ne_nil (encodings_ne_nil e he))
      obtain ⟨es, hes, hflat⟩ := ih rest.length hlt
        (fun x hx => h x (List.mem_append_right _ hx)) rfl
      refine ⟨e :: es, List.forall_mem_cons.mpr ⟨he, hes⟩, ?_⟩
      rw [List.flatten_cons, hflat, hsplit]

theorem mark_of_blank {s : List UInt8} (h : Blank s) : ∀ x ∈ mark 0 s, x.2 = true := by
  obtain ⟨es, hes, rfl⟩ := h
  induction es with
  | nil => simp [mark]
  | cons e es ih =>
    obtain ⟨he, hes⟩ := List.forall_mem_cons.mp hes
    rw [List.flatten_cons, mark_encoding he]
    simp only [List.mem_append, List.mem_map]
    rintro x (⟨b, -, rfl⟩ | hx)
    · rfl
    · exact ih hes x hx

/-! ## Words -/

theorem filter_splitOnP_eq_nil_iff {α : Type} (p : α → Bool) (l : List α) :
    (l.splitOnP p).filter (· ≠ []) = [] ↔ ∀ x ∈ l, p x = true := by
  induction l with
  | nil => simp [List.splitOnP_nil]
  | cons x l ih =>
    rw [List.splitOnP_cons_eq_if_modifyHead, List.forall_mem_cons]
    cases hx : p x with
    | true => simpa using ih
    | false =>
      obtain ⟨w, ws, hw⟩ := List.exists_cons_of_ne_nil (List.splitOnP_ne_nil p l)
      simp [hw]

theorem fields_eq_nil_iff (s : List UInt8) : fields s = [] ↔ Blank s := by
  rw [fields, List.map_eq_nil_iff, filter_splitOnP_eq_nil_iff]
  exact ⟨blank_of_mark, mark_of_blank⟩

end WhiteSpace
