import DnsProxy.PendingKey
import DnsProxy.Routing
import DnsProxy.Lib.EscapedText

/-!
# Zones

The upstreams reserved for a domain are meant for the names of its zone. The lookups
cut the text of a name at its dots, while a zone is a matter of labels, and a label may
have a dot in it, which stands behind a backslash in the text.

* `reservedFor`, `reservedForDS`: the domain whose upstreams a lookup returns.
* `servesOwnZones_iff`: the lookups stay within the zones exactly when no domain that
  follows an escaped dot of the name decides.
-/

namespace DnsProxy

open EscapedText (parts isPartFrom EndsEscaped)

/-! ## Labels -/

def backslash : UInt8 := 92

/-- The labels of a name in presentation form. The root has none. -/
def labels (name : Bytes) : List Bytes :=
  if name = [labelSep] then [] else parts labelSep backslash name

/-- A label of a packed name in presentation form, in lower case. -/
def presentLabel (label : Bytes) : Bytes := toLower (label.flatMap presentByte)

theorem isPart_presentByte (b : UInt8) :
    isPartFrom labelSep backslash false (toLower (presentByte b)) = true := by
  have hall : ∀ n < 256,
      isPartFrom labelSep backslash false (toLower (presentByte (UInt8.ofNat n))) = true := by
    decide +kernel
  have hb := hall b.toNat b.toNat_lt
  rwa [UInt8.ofNat_toNat] at hb

theorem isPart_presentLabel (label : Bytes) :
    isPartFrom labelSep backslash false (presentLabel label) = true := by
  induction label with
  | nil => rfl
  | cons b label ih =>
    have hcons : presentLabel (b :: label) = toLower (presentByte b) ++ presentLabel label := by
      simp [presentLabel, toLower]
    rw [hcons]
    exact EscapedText.isPartFrom_append (isPart_presentByte b) ih

theorem presentLabel_ne_nil {label : Bytes} (h : label ≠ []) : presentLabel label ≠ [] := by
  obtain ⟨b, label, rfl⟩ := List.exists_cons_of_ne_nil h
  have hbyte : presentByte b ≠ [] := by
    unfold presentByte
    split_ifs <;> exact List.cons_ne_nil _ _
  simp [presentLabel, toLower, hbyte]

theorem toLower_presentName {ls : List Bytes} (h : ls ≠ []) :
    toLower (presentName ls) = (ls.map presentLabel).flatMap fun t => t ++ [labelSep] := by
  obtain ⟨l, ls, rfl⟩ := List.exists_cons_of_ne_nil h
  have hdot : lowerByte 46 = labelSep := by decide
  rw [List.flatMap_map]
  simp only [presentName, toLower, List.map_flatMap, List.map_append, List.map_cons, List.map_nil,
    hdot, presentLabel]

theorem labels_presentName {ls : List Bytes} (h : ∀ l ∈ ls, l ≠ []) :
    labels (toLower (presentName ls)) = ls.map presentLabel := by
  cases ls with
  | nil => rfl
  | cons l ls =>
    rw [toLower_presentName (List.cons_ne_nil l ls), labels, if_neg]
    · apply EscapedText.parts_flatMap
      intro t ht
      obtain ⟨label, -, rfl⟩ := List.mem_map.mp ht
      exact isPart_presentLabel label
    · intro heq
      have hlabel := presentLabel_ne_nil (h l List.mem_cons_self)
      rw [List.map_cons, List.flatMap_cons, List.append_assoc] at heq
      obtain ⟨b, bs, hb⟩ := List.exists_cons_of_ne_nil hlabel
      rw [hb, List.cons_append, List.cons.injEq] at heq
      simp at heq

/-! ## The domain behind a result -/

namespace UpstreamConfig

variable (uc : UpstreamConfig)

/-- The domain whose upstreams the loop over the domains returns, with the upstreams. -/
def matchWalk : List Bytes → Option (Bytes × List Upstream)
  | [] => none
  | d :: ds =>
    match uc.domainReservedUpstreams.lookup d with
    | some (u :: us) => some (d, u :: us)
    | some [] => none
    | none => matchWalk ds

/-- The domain whose upstreams are returned for a name in lower case. -/
def matchName (fqdn : Bytes) : Option (Bytes × List Upstream) :=
  if uc.domainReservedUpstreams.length = 0 then none
  else if uc.subdomainExclusions.contains fqdn then
    match uc.specifiedDomainUpstreams.lookup fqdn with
    | some (u :: us) => some (fqdn, u :: us)
    | _ =>
      match uc.domainReservedUpstreams.lookup (cut fqdn).2 with
      | some (u :: us) => some ((cut fqdn).2, u :: us)
      | _ => none
  else
    let (firstLabel, rest) := cut fqdn
    uc.matchWalk
      (fqdn :: suffixes (if firstLabel ≠ [] ∧ rest = [] then unqualifiedNames else rest))

/-- The domain whose upstreams `getUpstreamsForDomain` returns; none for the defaults. -/
def reservedFor (fqdn : Bytes) : Option (Bytes × List Upstream) := uc.matchName (toLower fqdn)

/-- The domain whose upstreams `getUpstreamsForDS` returns. -/
def reservedForDS (fqdn : Bytes) : Option (Bytes × List Upstream) :=
  if (cut fqdn).2 = [] then none else uc.reservedFor (cut fqdn).2

theorem lookupParents_eq (s : Bytes) :
    uc.lookupParents s = ((uc.matchWalk (suffixes s)).map Prod.snd).getD uc.upstreams := by
  fun_induction UpstreamConfig.lookupParents uc s with
  | case1 => rfl
  | case2 s hne ups hups =>
    rw [suffixes_cons hne, matchWalk]
    unfold lookupUpstreams at hups
    obtain ⟨l, hl, rfl⟩ := Option.map_eq_some_iff.mp hups
    rw [hl]
    cases l <;> rfl
  | case3 s hne hups ih =>
    rw [suffixes_cons hne, matchWalk]
    rw [lookupUpstreams, Option.map_eq_none_iff] at hups
    rw [hups]
    exact ih

theorem getUpstreamsForDomain_eq (fqdn : Bytes) :
    uc.getUpstreamsForDomain fqdn =
      ((uc.reservedFor fqdn).map Prod.snd).getD uc.upstreams := by
  unfold getUpstreamsForDomain reservedFor matchName
  split
  · rfl
  · simp only
    split
    · unfold lookupSubdomainExclusion
      rcases uc.specifiedDomainUpstreams.lookup (toLower fqdn) with _ | _ | ⟨u, us⟩
      · rcases uc.domainReservedUpstreams.lookup (cut (toLower fqdn)).2 with _ | _ | ⟨u, us⟩ <;> rfl
      · rcases uc.domainReservedUpstreams.lookup (cut (toLower fqdn)).2 with _ | _ | ⟨u, us⟩ <;> rfl
      · rfl
    · rw [matchWalk, lookupUpstreams, lookupParents_eq]
      rcases uc.domainReservedUpstreams.lookup (toLower fqdn) with _ | _ | ⟨u, us⟩ <;> rfl

theorem getUpstreamsForDS_eq (fqdn : Bytes) :
    uc.getUpstreamsForDS fqdn = ((uc.reservedForDS fqdn).map Prod.snd).getD uc.upstreams := by
  unfold getUpstreamsForDS reservedForDS
  simp only
  split
  · rfl
  · exact uc.getUpstreamsForDomain_eq _

end UpstreamConfig

/-! ## The domain that decides -/

/-- The map has upstreams for the domain. -/
def Names (m : List (Bytes × List Upstream)) (d : Bytes) : Prop :=
  ∃ u us, m.lookup d = some (u :: us)

/-- The configuration has the lookup for the name `fqdn`, in lower case, end at `d`: it
is the first of the texts behind the dots of the name that has an entry, or, for the
apex of a wildcard, the apex or the text behind its first dot. -/
def UpstreamConfig.Decides (uc : UpstreamConfig) (fqdn d : Bytes) : Prop :=
  uc.domainReservedUpstreams ≠ [] ∧
    if fqdn ∈ uc.subdomainExclusions then
      (d = fqdn ∧ Names uc.specifiedDomainUpstreams fqdn) ∨
        (¬ Names uc.specifiedDomainUpstreams fqdn ∧ d = (cut fqdn).2 ∧
          Names uc.domainReservedUpstreams d)
    else
      Names uc.domainReservedUpstreams d ∧ ∃ before after, suffixes fqdn = before ++ d :: after ∧
        ∀ d' ∈ before, uc.domainReservedUpstreams.lookup d' = none

/-- The text of the domain follows an escaped dot in the text of the name. -/
def FollowsEscapedDot (fqdn d : Bytes) : Prop :=
  labels d ≠ [] ∧ ∃ pre, fqdn = pre ++ labelSep :: d ∧ EndsEscaped backslash pre

section Decides

variable {uc : UpstreamConfig} {fqdn d : Bytes}

theorem matchWalk_cons (e : Bytes) (ds : List Bytes) :
    uc.matchWalk (e :: ds) =
      match uc.domainReservedUpstreams.lookup e with
      | some (u :: us) => some (e, u :: us)
      | some [] => none
      | none => uc.matchWalk ds := rfl

/-- The entry of a domain, if there are upstreams in it. -/
def namedEntry (m : List (Bytes × List Upstream)) (c : Bytes) : Option (Bytes × List Upstream) :=
  match m.lookup c with
  | some (u :: us) => some (c, u :: us)
  | _ => none

variable {l : Bytes} {m : List (Bytes × List Upstream)}

theorem namedEntry_eq_some_iff {c : Bytes} {ups : List Upstream} :
    namedEntry m c = some (d, ups) ↔ d = c ∧ ups ≠ [] ∧ m.lookup d = some ups := by
  unfold namedEntry
  constructor
  · intro h
    split at h
    · next u us hc =>
      obtain ⟨rfl, rfl⟩ := Prod.mk.inj (Option.some.inj h)
      exact ⟨rfl, List.cons_ne_nil _ _, hc⟩
    · cases h
  · rintro ⟨rfl, hne, hd⟩
    obtain ⟨u, us, rfl⟩ := List.exists_cons_of_ne_nil hne
    rw [hd]

theorem matchWalk_eq_find (ds : List Bytes) :
    uc.matchWalk ds = (ds.find? fun d => (uc.domainReservedUpstreams.lookup d).isSome).bind
      (namedEntry uc.domainReservedUpstreams) := by
  induction ds with
  | nil => rfl
  | cons e ds ih =>
    rw [matchWalk_cons, List.find?_cons]
    rcases hl : uc.domainReservedUpstreams.lookup e with _ | _ | ⟨u, us⟩
    · exact ih
    · simp [namedEntry, hl]
    · simp [namedEntry, hl]

theorem matchWalk_eq_some_iff {ds : List Bytes} {ups : List Upstream} :
    uc.matchWalk ds = some (d, ups) ↔
      ups ≠ [] ∧ uc.domainReservedUpstreams.lookup d = some ups ∧
        ∃ before after, ds = before ++ d :: after ∧
          ∀ d' ∈ before, uc.domainReservedUpstreams.lookup d' = none := by
  rw [matchWalk_eq_find, Option.bind_eq_some_iff]
  constructor
  · rintro ⟨c, hfind, hentry⟩
    obtain ⟨rfl, hne, hd⟩ := namedEntry_eq_some_iff.mp hentry
    obtain ⟨-, before, after, hsplit, hbefore⟩ := List.find?_eq_some_iff_append.mp hfind
    exact ⟨hne, hd, before, after, hsplit, fun d' hd' => by simpa using hbefore d' hd'⟩
  · rintro ⟨hne, hd, before, after, hsplit, hbefore⟩
    refine ⟨d, List.find?_eq_some_iff_append.mpr ⟨by rw [hd]; rfl, before, after, hsplit, ?_⟩,
      namedEntry_eq_some_iff.mpr ⟨rfl, hne, hd⟩⟩
    intro d' hd'
    simp [hbefore d' hd']

theorem mem_of_matchWalk {ds : List Bytes} {ups : List Upstream}
    (h : uc.matchWalk ds = some (d, ups)) : d ∈ ds := by
  obtain ⟨-, -, before, after, rfl, -⟩ := matchWalk_eq_some_iff.mp h
  exact List.mem_append_right _ List.mem_cons_self

theorem mem_afterDots {s d : Bytes} : d ∈ afterDots s ↔ ∃ pre, s = pre ++ labelSep :: d := by
  induction s with
  | nil => simp [afterDots]
  | cons b s ih =>
    unfold afterDots
    constructor
    · intro h
      split at h
      · next hb =>
        rcases List.mem_cons.mp h with rfl | hs
        · exact ⟨[], by rw [hb]; rfl⟩
        · obtain ⟨pre, rfl⟩ := ih.mp hs
          exact ⟨b :: pre, rfl⟩
      · obtain ⟨pre, rfl⟩ := ih.mp h
        exact ⟨b :: pre, rfl⟩
    · rintro ⟨pre, hpre⟩
      cases pre with
      | nil =>
        obtain ⟨rfl, rfl⟩ := List.cons.inj hpre
        simp
      | cons b' pre =>
        obtain ⟨rfl, rfl⟩ := List.cons.inj hpre
        have hmem := ih.mpr ⟨pre, rfl⟩
        split
        · exact List.mem_cons_of_mem _ hmem
        · exact hmem

theorem cut_append : ∃ pre, l ++ [labelSep] = pre ++ labelSep :: (cut (l ++ [labelSep])).2 := by
  induction l with
  | nil => exact ⟨[], rfl⟩
  | cons b l ih =>
    rw [List.cons_append, cut]
    split
    · next hb => exact ⟨[], by rw [hb]; rfl⟩
    · obtain ⟨pre, hpre⟩ := ih
      exact ⟨b :: pre, by rw [List.cons_append, ← hpre]⟩

theorem eq_or_follows_of_mem (h : d ∈ suffixes fqdn) :
    d = fqdn ∨ ∃ pre, fqdn = pre ++ labelSep :: d := by
  rcases List.mem_cons.mp (List.mem_filter.mp h).1 with rfl | hafter
  · exact .inl rfl
  · exact .inr (mem_afterDots.mp hafter)

theorem UpstreamConfig.Decides.eq_or_follows (hdot : fqdn = l ++ [labelSep])
    (h : uc.Decides fqdn d) : d = fqdn ∨ ∃ pre, fqdn = pre ++ labelSep :: d := by
  obtain ⟨-, h⟩ := h
  split at h
  · rcases h with ⟨rfl, -⟩ | ⟨-, rfl, -⟩
    · exact .inl rfl
    · subst hdot
      exact .inr cut_append
  · obtain ⟨-, before, after, hsplit, -⟩ := h
    exact eq_or_follows_of_mem (hsplit ▸ List.mem_append_right _ List.mem_cons_self)

theorem ne_unqualifiedNames (hdot : fqdn = l ++ [labelSep])
    (h : d = fqdn ∨ ∃ pre, fqdn = pre ++ labelSep :: d) : d ≠ unqualifiedNames := by
  rintro rfl
  rcases h with rfl | ⟨pre, rfl⟩
  · have hlast := congrArg List.getLast? hdot
    rw [List.getLast?_concat] at hlast
    exact absurd hlast (by decide)
  · have hlast := congrArg List.getLast? hdot
    rw [List.getLast?_concat] at hlast
    exact absurd hlast (by simp [unqualifiedNames, labelSep])

theorem names_iff : Names m d ↔ ∃ ups, ups ≠ [] ∧ m.lookup d = some ups := by
  constructor
  · rintro ⟨u, us, h⟩
    exact ⟨u :: us, List.cons_ne_nil _ _, h⟩
  · rintro ⟨ups, hne, h⟩
    obtain ⟨u, us, rfl⟩ := List.exists_cons_of_ne_nil hne
    exact ⟨u, us, h⟩

theorem not_names_of_nil (h : (m.lookup d).getD [] = []) : ¬ Names m d := by
  rintro ⟨u, us, hd⟩
  rw [hd] at h
  cases h

theorem exists_namedEntry_iff {c : Bytes} :
    (∃ ups, namedEntry m c = some (d, ups)) ↔ d = c ∧ Names m d := by
  simp only [namedEntry_eq_some_iff, exists_and_left, names_iff]

theorem matchName_apex (hfull : uc.domainReservedUpstreams ≠ [])
    (hexcl : fqdn ∈ uc.subdomainExclusions) :
    (∃ ups, uc.matchName fqdn = some (d, ups)) ↔
      (d = fqdn ∧ Names uc.specifiedDomainUpstreams fqdn) ∨
        (¬ Names uc.specifiedDomainUpstreams fqdn ∧ d = (cut fqdn).2 ∧
          Names uc.domainReservedUpstreams d) := by
  unfold UpstreamConfig.matchName
  rw [if_neg (by simpa using hfull), if_pos (by simpa using hexcl)]
  rcases hs : uc.specifiedDomainUpstreams.lookup fqdn with _ | _ | ⟨u, us⟩
  · have hno : ¬ Names uc.specifiedDomainUpstreams fqdn := not_names_of_nil (by rw [hs]; rfl)
    simp only [hno, and_false, not_false_eq_true, true_and, false_or]
    exact exists_namedEntry_iff
  · have hno : ¬ Names uc.specifiedDomainUpstreams fqdn := not_names_of_nil (by rw [hs]; rfl)
    simp only [hno, and_false, not_false_eq_true, true_and, false_or]
    exact exists_namedEntry_iff
  · have hyes : Names uc.specifiedDomainUpstreams fqdn := ⟨u, us, hs⟩
    simp [hyes, eq_comm]

/-- A name with one label has no parent, and the entry of the unqualified names is tried
in its place. -/
theorem matchName_walk (hdot : fqdn = l ++ [labelSep]) (hfull : uc.domainReservedUpstreams ≠ [])
    (hexcl : fqdn ∉ uc.subdomainExclusions) :
    ((∃ ups, uc.matchName fqdn = some (d, ups)) ∧ d ≠ unqualifiedNames) ↔
      Names uc.domainReservedUpstreams d ∧ ∃ before after, suffixes fqdn = before ++ d :: after ∧
        ∀ d' ∈ before, uc.domainReservedUpstreams.lookup d' = none := by
  have hne : fqdn ≠ [] := by
    rw [hdot]
    exact List.append_ne_nil_of_right_ne_nil _ (List.cons_ne_nil _ _)
  have hwalk : (∃ ups, uc.matchWalk (suffixes fqdn) = some (d, ups)) ↔
      Names uc.domainReservedUpstreams d ∧ ∃ before after, suffixes fqdn = before ++ d :: after ∧
        ∀ d' ∈ before, uc.domainReservedUpstreams.lookup d' = none := by
    simp only [matchWalk_eq_some_iff, names_iff, ← and_assoc, exists_and_right]
  rw [← hwalk]
  unfold UpstreamConfig.matchName
  rw [if_neg (by simpa using hfull), if_neg (by simpa using hexcl), suffixes_cons hne]
  simp only
  split
  · next hone =>
    rw [hone.2, show suffixes unqualifiedNames = [unqualifiedNames] by decide,
      show suffixes [] = [] from rfl]
    rw [matchWalk_cons fqdn [unqualifiedNames], matchWalk_cons fqdn []]
    rcases uc.domainReservedUpstreams.lookup fqdn with _ | _ | ⟨u, us⟩
    · constructor
      · rintro ⟨⟨ups, hups⟩, hd⟩
        exact absurd (List.mem_singleton.mp (mem_of_matchWalk hups)) hd
      · rintro ⟨ups, hups⟩
        cases hups
    · simp
    · refine and_iff_left_of_imp ?_
      rintro ⟨ups, hups⟩
      exact ne_unqualifiedNames hdot (.inl (Prod.mk.inj (Option.some.inj hups)).1.symm)
  · refine and_iff_left_of_imp ?_
    rintro ⟨ups, hups⟩
    rw [← suffixes_cons hne] at hups
    exact ne_unqualifiedNames hdot (eq_or_follows_of_mem (mem_of_matchWalk hups))

theorem matchName_iff (hdot : fqdn = l ++ [labelSep]) :
    ((∃ ups, uc.matchName fqdn = some (d, ups)) ∧ d ≠ unqualifiedNames) ↔ uc.Decides fqdn d := by
  unfold UpstreamConfig.Decides
  by_cases hfull : uc.domainReservedUpstreams = []
  · simp [UpstreamConfig.matchName, hfull]
  · by_cases hexcl : fqdn ∈ uc.subdomainExclusions
    · rw [if_pos hexcl, matchName_apex hfull hexcl]
      simp only [ne_eq, hfull, not_false_eq_true, true_and]
      refine and_iff_left_of_imp fun h => ?_
      refine ne_unqualifiedNames hdot ?_
      rcases h with ⟨rfl, -⟩ | ⟨-, rfl, -⟩
      · exact .inl rfl
      · rw [hdot]
        exact .inr cut_append
    · rw [if_neg hexcl, matchName_walk hdot hfull hexcl]
      simp [hfull]

end Decides

/-! ## The lookups and the zones -/

/-- For a text behind a dot of the name, its labels are the last ones of the name unless
the dot is escaped. -/
theorem labels_suffix_iff {fqdn d : Bytes} (h : d = fqdn ∨ ∃ pre, fqdn = pre ++ labelSep :: d) :
    labels d <:+ labels fqdn ↔ ¬ FollowsEscapedDot fqdn d := by
  rcases h with rfl | ⟨pre, rfl⟩
  · refine iff_of_true (List.suffix_refl _) ?_
    rintro ⟨-, pre, hpre, -⟩
    have hlen := congrArg List.length hpre
    simp only [List.length_append, List.length_cons] at hlen
    omega
  · by_cases hroot : labels d = []
    · refine iff_of_true (hroot ▸ List.nil_suffix) fun h => h.1 hroot
    · have hd : d ≠ [labelSep] := by
        rintro rfl
        exact hroot rfl
      have hfqdn : pre ++ labelSep :: d ≠ [labelSep] := by
        intro heq
        have hlen := congrArg List.length heq
        rw [List.length_append, List.length_cons, List.length_singleton] at hlen
        have hnil : d = [] := List.length_eq_zero_iff.mp (by omega)
        exact hroot (by rw [hnil]; rfl)
      have hparts : labels d = parts labelSep backslash d := if_neg hd
      rw [hparts] at hroot ⊢
      rw [labels, if_neg hfqdn, EscapedText.parts_suffix_iff (by decide) hroot]
      refine not_congr ⟨fun hesc => ⟨hparts ▸ hroot, pre, rfl, hesc⟩, ?_⟩
      rintro ⟨-, pre', hpre, hesc⟩
      obtain rfl : pre = pre' := List.append_cancel_right hpre
      exact hesc

theorem getLast?_presentName (ls : List Bytes) : (presentName ls).getLast? = some labelSep := by
  rcases List.eq_nil_or_concat ls with rfl | ⟨ls, l, rfl⟩
  · rfl
  · have hname : presentName (ls.concat l) =
        (ls.flatMap fun l => l.flatMap presentByte ++ [46]) ++ l.flatMap presentByte ++ [46] := by
      rw [List.concat_eq_append]
      unfold presentName
      split
      · next hnil => simp at hnil
      · simp
    rw [hname, List.getLast?_concat]
    rfl

theorem lowerByte_eq_labelSep (b : UInt8) : lowerByte b = labelSep ↔ b = labelSep := by
  have hall : ∀ n < 256, lowerByte (UInt8.ofNat n) = labelSep ↔ UInt8.ofNat n = labelSep := by
    decide +kernel
  have hb := hall b.toNat b.toNat_lt
  rwa [UInt8.ofNat_toNat] at hb

theorem toLower_cut (s : Bytes) : toLower (cut s).2 = (cut (toLower s)).2 := by
  induction s with
  | nil => rfl
  | cons b s ih =>
    show toLower (cut (b :: s)).2 = (cut (lowerByte b :: toLower s)).2
    rw [cut, cut]
    simp only [lowerByte_eq_labelSep]
    split
    · rfl
    · exact ih

section ServesOwnZones

variable {uc : UpstreamConfig} {fqdn rest : Bytes}

/-- A lookup for the end `rest` of the name `fqdn` stays within the zones that `fqdn` is
in exactly when it does not end behind an escaped dot. -/
theorem matchName_suffix_iff {l : Bytes} (hdot : rest = l ++ [labelSep])
    (hrest : rest = fqdn ∨ ∃ pre, fqdn = pre ++ labelSep :: rest) :
    (∀ d ups, uc.matchName rest = some (d, ups) → d ≠ unqualifiedNames →
      labels d <:+ labels fqdn) ↔
      ∀ d, uc.Decides rest d → ¬ FollowsEscapedDot fqdn d := by
  have hend : ∀ d, uc.Decides rest d → d = fqdn ∨ ∃ pre, fqdn = pre ++ labelSep :: d := by
    intro d hdec
    rcases hdec.eq_or_follows hdot with rfl | ⟨pre, hpre⟩
    · exact hrest
    · rcases hrest with rfl | ⟨pre', rfl⟩
      · exact .inr ⟨pre, hpre⟩
      · exact .inr ⟨pre' ++ labelSep :: pre, by rw [hpre]; simp⟩
  constructor
  · intro h d hdec
    obtain ⟨⟨ups, hups⟩, hne⟩ := (matchName_iff hdot).mpr hdec
    exact (labels_suffix_iff (hend d hdec)).mp (h d ups hups hne)
  · intro h d ups hups hne
    have hdec := (matchName_iff hdot).mp ⟨⟨ups, hups⟩, hne⟩
    exact (labels_suffix_iff (hend d hdec)).mpr (h d hdec)

theorem cut_eq_append_dot {l : Bytes} (hdot : fqdn = l ++ [labelSep]) (hne : (cut fqdn).2 ≠ []) :
    ∃ l', (cut fqdn).2 = l' ++ [labelSep] := by
  obtain ⟨pre, hpre⟩ := cut_append (l := l)
  rw [← hdot] at hpre
  obtain ⟨l', b, hl'⟩ := (List.eq_nil_or_concat (cut fqdn).2).resolve_left hne
  rw [List.concat_eq_append] at hl'
  have hlast := congrArg List.getLast? (hdot.symm.trans hpre)
  rw [List.getLast?_concat, hl', ← List.cons_append, ← List.append_assoc,
    List.getLast?_concat] at hlast
  exact ⟨l', by rw [hl', Option.some.inj hlast]⟩

end ServesOwnZones

/-- The upstreams that the lookups return are reserved for a zone that the name with
these labels is in. -/
structure UpstreamConfig.ServesOwnZones (uc : UpstreamConfig) (ls : List Bytes) : Prop where
  domain : ∀ d ups, uc.reservedFor (presentName ls) = some (d, ups) → d ≠ unqualifiedNames →
    labels d <:+ ls.map presentLabel
  ds : ∀ d ups, uc.reservedForDS (presentName ls) = some (d, ups) → d ≠ unqualifiedNames →
    labels d <:+ ls.map presentLabel

/-- The lookups return the upstreams of `reservedFor` and `reservedForDS`, which stay
within the zones of the name exactly when no domain behind an escaped dot decides. -/
theorem servesOwnZones_iff (uc : UpstreamConfig) (ls : List Bytes) (hls : ∀ l ∈ ls, l ≠ []) :
    (uc.getUpstreamsForDomain (presentName ls) =
        ((uc.reservedFor (presentName ls)).map Prod.snd).getD uc.upstreams ∧
      uc.getUpstreamsForDS (presentName ls) =
        ((uc.reservedForDS (presentName ls)).map Prod.snd).getD uc.upstreams) ∧
    (uc.ServesOwnZones ls ↔
      ∀ d, (uc.Decides (toLower (presentName ls)) d ∨
          (cut (presentName ls)).2 ≠ [] ∧ uc.Decides (toLower (cut (presentName ls)).2) d) →
        ¬ FollowsEscapedDot (toLower (presentName ls)) d) := by
  refine ⟨⟨uc.getUpstreamsForDomain_eq _, uc.getUpstreamsForDS_eq _⟩, ?_⟩
  have hlabels := labels_presentName hls
  obtain ⟨l, hl⟩ := toLower_fqdn (getLast?_presentName ls)
  have hname := @matchName_suffix_iff uc _ _ l hl (.inl rfl)
  have hds : (cut (presentName ls)).2 ≠ [] →
      ((∀ d ups, uc.matchName (toLower (cut (presentName ls)).2) = some (d, ups) →
          d ≠ unqualifiedNames → labels d <:+ labels (toLower (presentName ls))) ↔
        ∀ d, uc.Decides (toLower (cut (presentName ls)).2) d →
          ¬ FollowsEscapedDot (toLower (presentName ls)) d) := by
    intro hne
    rw [toLower_cut]
    have hne' : (cut (toLower (presentName ls))).2 ≠ [] := by
      rw [← toLower_cut]
      simpa [toLower] using hne
    obtain ⟨l', hl'⟩ := cut_eq_append_dot hl hne'
    refine matchName_suffix_iff hl' (.inr ?_)
    rw [hl]
    exact cut_append
  rw [hlabels] at hname hds
  constructor
  · rintro ⟨hdomain, hdomainDS⟩ d (hdec | ⟨hne, hdec⟩)
    · exact hname.mp hdomain d hdec
    · refine (hds hne).mp (fun d ups hups => hdomainDS d ups ?_) d hdec
      rw [UpstreamConfig.reservedForDS, if_neg hne]
      exact hups
  · intro h
    refine ⟨hname.mpr fun d hdec => h d (.inl hdec), fun d ups hups hunq => ?_⟩
    rw [UpstreamConfig.reservedForDS] at hups
    split at hups
    · cases hups
    · next hne => exact (hds hne).mpr (fun d hdec => h d (.inr ⟨hne, hdec⟩)) d ups hups hunq

def zoneLines : List String := ["[/example.org/]1.1.1.1", "8.8.8.8"]

theorem servesOwnZones_www :
    (exampleConfig zoneLines).ServesOwnZones [ascii "www", ascii "Example", ascii "org"] := by
  refine (servesOwnZones_iff (exampleConfig zoneLines) _ (by decide)).2.mpr ?_
  rintro d - ⟨-, pre, hpre, hesc⟩
  refine EscapedText.not_endsEscaped (fun hmem => ?_) hesc
  have hname : backslash ∉ toLower (presentName [ascii "www", ascii "Example", ascii "org"]) := by
    decide
  rw [hpre] at hname
  exact hname (List.mem_append_left _ hmem)

/-- The name with the labels `foo.example` and `org` is not in the zone `example.org`. -/
theorem zone_crossed :
    Accepts exampleConfigEnv (zoneLines.map ascii) (exampleConfig zoneLines) ∧
    (exampleConfig zoneLines).getUpstreamsForDomain
      (presentName [ascii "foo.example", ascii "org"]) = [⟨0, ascii "1.1.1.1"⟩] ∧
    ¬ (exampleConfig zoneLines).ServesOwnZones [ascii "foo.example", ascii "org"] := by
  refine ⟨by decide +kernel, by decide +kernel, fun h => ?_⟩
  have hmatch : (exampleConfig zoneLines).reservedFor
      (presentName [ascii "foo.example", ascii "org"]) =
      some (ascii "example.org.", [⟨0, ascii "1.1.1.1"⟩]) := by decide +kernel
  exact absurd (h.domain _ _ hmatch (by decide)) (by decide +kernel)

end DnsProxy
