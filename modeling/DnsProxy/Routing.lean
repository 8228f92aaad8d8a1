import DnsProxy.UpstreamsConfig

/-!
# Routing by domain

Which upstreams the configuration names for a domain: those of the most specific
enclosing domain that it has an entry for.

* `getUpstreamsForDomain_route`: that is what the lookup finds, for a name that is not
  the apex of a wildcard.
* `apex_unaffected_iff`: the apex of a wildcard is looked up in a way of its own, which
  takes the parent of the apex for the only domain that encloses it and a `#` on the
  apex for no entry.
-/

namespace DnsProxy

/-! ## The intended route -/

/-- What follows each dot of the name. -/
def afterDots : Bytes → List Bytes
  | [] => []
  | b :: bs => if b = labelSep then bs :: afterDots bs else afterDots bs

/-- The name and the domains that enclose it, the most specific one first. -/
def suffixes (s : Bytes) : List Bytes := (s :: afterDots s).filter (· ≠ [])

/-- The name, which ends in a dot, has one label. -/
def SingleLabel (fqdn : Bytes) : Prop := fqdn.dropLast ≠ [] ∧ labelSep ∉ fqdn.dropLast

instance (fqdn : Bytes) : Decidable (SingleLabel fqdn) :=
  inferInstanceAs (Decidable (_ ∧ _))

/-- The entry of a domain: that of the subdomains if there is one. -/
def entryOf (es : List Entry) (d : Bytes) : Option (List Upstream) :=
  (wildcardList d es).or (plainList d es)

/-- The list of an entry; one that is missing or emptied stands for the defaults. -/
def orDefaults (es : List Entry) : Option (List Upstream) → List Upstream
  | some (u :: us) => u :: us
  | _ => defaults es

/-- The entry of the unqualified names, for a name with one label. -/
def unqualifiedEntry (es : List Entry) (fqdn : Bytes) : Option (List Upstream) :=
  if SingleLabel fqdn then listOf unqualifiedNames es else none

def route (es : List Entry) (fqdn : Bytes) : List Upstream :=
  orDefaults es (((suffixes fqdn).findSome? (entryOf es)).or (unqualifiedEntry es fqdn))

/-! ## The maps of an accepted configuration -/

/-- The maps of the configuration hold the entries. -/
structure UpstreamConfig.Reflects (uc : UpstreamConfig) (es : List Entry) : Prop where
  reserved : ∀ d, uc.domainReservedUpstreams.lookup d = entryOf es d
  specified : ∀ d, uc.specifiedDomainUpstreams.lookup d = plainList d es
  exclusions : ∀ d, d ∈ uc.subdomainExclusions ↔ wildcardList d es ≠ none
  upstreams : uc.upstreams = defaults es
  unqualified : entryOf es unqualifiedNames = listOf unqualifiedNames es

theorem ConfigParser.Holds.reserved_config {p : ConfigParser} {es : List Entry} (h : p.Holds es)
    (d : Bytes) : p.config.domainReservedUpstreams.lookup d = entryOf es d := by
  show (p.subdomainsOnlyUpstreams ++ p.domainReservedUpstreams).lookup d = _
  rw [List.lookup_append, h.subdomainsOnly, entryOf]
  cases hw : wildcardList d es with
  | some l => rfl
  | none => simpa using h.reserved d hw

/-- The domains of a line: the unqualified names, or a name that ends in a dot. -/
def IsDomain (host : Bytes) : Prop := host = unqualifiedNames ∨ ∃ l, host = l ++ [labelSep]

theorem confDomain_isDomain {env : ConfigEnv} {confHost host : Bytes} {i : Nat}
    (h : confDomain env confHost i = .ok host) : IsDomain host := by
  unfold confDomain at h
  split at h
  · cases h
    exact .inl rfl
  · split at h
    · cases h
    · cases h
      exact .inr ⟨env.lower confHost, rfl⟩

theorem forall_of_mapM_ok {ε α β : Type} {f : α → Except ε β} {P : β → Prop}
    (hf : ∀ a b, f a = .ok b → P b) {l : List α} {l' : List β} (h : l.mapM f = .ok l') :
    ∀ b ∈ l', P b := by
  induction l generalizing l' with
  | nil =>
    cases h
    exact nofun
  | cons a l ih =>
    rw [List.mapM_cons] at h
    cases ha : f a with
    | error e => rw [ha] at h; cases h
    | ok b =>
      rw [ha] at h
      cases hl : l.mapM f with
      | error e => rw [hl] at h; cases h
      | ok bs =>
        rw [hl] at h
        cases h
        exact List.forall_mem_cons.mpr ⟨hf a b ha, ih hl⟩

theorem splitConfigLine_isDomain {env : ConfigEnv} {confLine : Bytes}
    {upstreams domains : List Bytes} (h : splitConfigLine env confLine = .ok (upstreams, domains)) :
    ∀ host ∈ domains, IsDomain host := by
  unfold splitConfigLine at h
  split at h
  · split at h
    · cases h
    · split at h
      · cases h
      · split at h
        · cases h
        · next hmap =>
          cases h
          exact forall_of_mapM_ok (fun a b => confDomain_isDomain) hmap
  · cases h
    exact nofun

theorem lineEntries_isDomain {env : ConfigEnv} {confLine : Bytes} {e : Entry} {host : Bytes}
    (he : e ∈ lineEntries env confLine) (hhost : e.host? = some host) : IsDomain host := by
  unfold lineEntries at he
  split at he
  · cases he
  · split at he
    · cases he
    · next upstreams domains hsplit =>
      split at he
      · obtain ⟨host', hmem, rfl⟩ := List.mem_map.mp he
        cases hhost
        exact splitConfigLine_isDomain hsplit _ hmem
      · obtain ⟨u, -, he⟩ := List.mem_flatMap.mp he
        unfold upstreamEntries at he
        split at he
        · cases he
        · split at he
          · obtain rfl := List.mem_singleton.mp he
            cases hhost
          · obtain ⟨host', hmem, rfl⟩ := List.mem_map.mp he
            cases hhost
            exact splitConfigLine_isDomain hsplit _ hmem

theorem listOf_eq_none {host : Bytes} {es : List Entry} (h : ∀ e ∈ es, e.host? ≠ some host) :
    listOf host es = none := by
  unfold listOf
  induction es with
  | nil => rfl
  | cons e es ih =>
    obtain ⟨he, hes⟩ := List.forall_mem_cons.mp h
    rw [List.foldl_cons, Entry.amend_of_ne he]
    exact ih hes

theorem wildcardList_unqualifiedNames (env : ConfigEnv) (lines : List Bytes) :
    wildcardList unqualifiedNames (entries env lines) = none := by
  apply listOf_eq_none
  intro e he hhost
  obtain ⟨l, -, he⟩ := List.mem_flatMap.mp he
  rcases lineEntries_isDomain he hhost with h | ⟨l', h⟩
  · cases h
  · have hlast := congrArg List.getLast? h
    rw [List.getLast?_concat] at hlast
    cases hlast

theorem accepts_reflects {env : ConfigEnv} {lines : List Bytes} {conf : UpstreamConfig}
    (h : Accepts env lines conf) : conf.Reflects (entries env lines) := by
  obtain ⟨p, rfl, hholds⟩ := accepts_holds h
  refine ⟨hholds.reserved_config, hholds.specified, hholds.exclusions, hholds.upstreams, ?_⟩
  rw [entryOf, wildcardList_unqualifiedNames]
  rfl

/-! ## The walk over the suffixes -/

theorem afterDots_filter (s : Bytes) : (afterDots s).filter (· ≠ []) = suffixes (cut s).2 := by
  induction s with
  | nil => rfl
  | cons b bs ih =>
    unfold afterDots cut
    split
    · rfl
    · exact ih

theorem suffixes_cons {s : Bytes} (h : s ≠ []) : suffixes s = s :: suffixes (cut s).2 := by
  rw [← afterDots_filter, suffixes, List.filter_cons_of_pos (by simpa using h)]

theorem cut_fqdn {l : Bytes} (h : labelSep ∉ l) : cut (l ++ [labelSep]) = (l, []) := by
  induction l with
  | nil => rfl
  | cons b l ih =>
    rw [List.mem_cons, not_or] at h
    rw [List.cons_append, cut, if_neg (Ne.symm h.1), ih h.2]

theorem not_mem_of_cut {l : Bytes} (h : (cut (l ++ [labelSep])).2 = []) : labelSep ∉ l := by
  induction l with
  | nil => exact List.not_mem_nil
  | cons b l ih =>
    rw [List.cons_append, cut] at h
    split at h
    · simp at h
    · next hb =>
      rw [List.mem_cons, not_or]
      exact ⟨Ne.symm hb, ih h⟩

theorem singleLabel_iff (l : Bytes) :
    SingleLabel (l ++ [labelSep]) ↔
      (cut (l ++ [labelSep])).1 ≠ [] ∧ (cut (l ++ [labelSep])).2 = [] := by
  rw [SingleLabel, List.dropLast_concat]
  constructor
  · rintro ⟨hne, hsep⟩
    rw [cut_fqdn hsep]
    exact ⟨hne, rfl⟩
  · rintro ⟨hne, hnil⟩
    have hsep := not_mem_of_cut hnil
    rw [cut_fqdn hsep] at hne
    exact ⟨hne, hsep⟩

namespace UpstreamConfig.Reflects

variable {uc : UpstreamConfig} {es : List Entry}

theorem lookupUpstreams_none (h : uc.Reflects es) {d : Bytes} (hd : entryOf es d = none) :
    uc.lookupUpstreams d = none := by
  rw [lookupUpstreams, h.reserved, hd]
  rfl

theorem lookupUpstreams_some (h : uc.Reflects es) {d : Bytes} {l : List Upstream}
    (hd : entryOf es d = some l) : uc.lookupUpstreams d = some (orDefaults es (some l)) := by
  rw [lookupUpstreams, h.reserved, hd, h.upstreams]
  cases l <;> rfl

theorem lookupParents (h : uc.Reflects es) (s : Bytes) :
    uc.lookupParents s = orDefaults es ((suffixes s).findSome? (entryOf es)) := by
  fun_induction UpstreamConfig.lookupParents uc s with
  | case1 => exact h.upstreams
  | case2 s hne ups hups =>
    rw [suffixes_cons hne]
    cases hd : entryOf es s with
    | none => rw [h.lookupUpstreams_none hd] at hups; cases hups
    | some l =>
      rw [h.lookupUpstreams_some hd] at hups
      rw [List.findSome?_cons_of_isSome (by rw [hd]; rfl), hd]
      exact (Option.some.inj hups).symm
  | case3 s hne hups ih =>
    rw [suffixes_cons hne]
    cases hd : entryOf es s with
    | none => rw [List.findSome?_cons, hd]; exact ih
    | some l => rw [h.lookupUpstreams_some hd] at hups; cases hups

theorem walk (h : uc.Reflects es) {fqdn : Bytes} {l : Bytes} (hdot : toLower fqdn = l ++ [labelSep])
    (hexcl : toLower fqdn ∉ uc.subdomainExclusions) :
    uc.getUpstreamsForDomain fqdn = route es (toLower fqdn) := by
  have hne : toLower fqdn ≠ [] := by
    rw [hdot]
    exact List.append_ne_nil_of_right_ne_nil _ (List.cons_ne_nil _ _)
  unfold getUpstreamsForDomain route
  split
  · -- without reserved domains there is no entry at all
    next hempty =>
    have hnone : ∀ d, entryOf es d = none := by
      intro d
      rw [← h.reserved, List.length_eq_zero_iff.mp hempty]
      rfl
    have hfind : (suffixes (toLower fqdn)).findSome? (entryOf es) = none :=
      List.findSome?_eq_none_iff.mpr fun d _ => hnone d
    have hunq : unqualifiedEntry es (toLower fqdn) = none := by
      rw [unqualifiedEntry, ← h.unqualified, hnone, ite_self]
    rw [hfind, hunq]
    exact h.upstreams
  · simp only
    rw [if_neg (by simpa using hexcl), suffixes_cons hne, List.findSome?_cons]
    cases hd : entryOf es (toLower fqdn) with
    | some ups => rw [h.lookupUpstreams_some hd]; rfl
    | none =>
      rw [h.lookupUpstreams_none hd]
      simp only
      rw [h.lookupParents, unqualifiedEntry, hdot]
      split
      · next hone =>
        rw [if_pos ((singleLabel_iff l).mpr hone), hone.2, suffixes_cons (by decide)]
        rw [List.findSome?_cons, h.unqualified]
        cases listOf unqualifiedNames es <;> rfl
      · next hone => rw [if_neg fun hs => hone ((singleLabel_iff l).mp hs), Option.or_none]

theorem apex (h : uc.Reflects es) {fqdn : Bytes} (hexcl : toLower fqdn ∈ uc.subdomainExclusions) :
    uc.getUpstreamsForDomain fqdn =
      match plainList (toLower fqdn) es with
      | some (u :: us) => u :: us
      | _ => orDefaults es (entryOf es (cut (toLower fqdn)).2) := by
  have hfull : uc.domainReservedUpstreams.length ≠ 0 := by
    intro hempty
    obtain ⟨ups, hups⟩ := Option.ne_none_iff_exists'.mp ((h.exclusions _).mp hexcl)
    have hnone := h.reserved (toLower fqdn)
    rw [List.length_eq_zero_iff.mp hempty, entryOf, hups] at hnone
    cases hnone
  unfold getUpstreamsForDomain
  simp only
  rw [if_neg hfull, if_pos (by simpa using hexcl), lookupSubdomainExclusion, h.specified,
    h.reserved, h.upstreams]
  cases plainList (toLower fqdn) es with
  | none => rfl
  | some ups =>
    cases ups with
    | nil => rfl
    | cons u us => rfl

end UpstreamConfig.Reflects

theorem toLower_fqdn {fqdn : Bytes} (h : fqdn.getLast? = some labelSep) :
    ∃ l, toLower fqdn = l ++ [labelSep] := by
  obtain ⟨l, rfl⟩ := List.getLast?_eq_some_iff.mp h
  exact ⟨toLower l, by simp [toLower, labelSep, lowerByte]⟩

/-- The upstreams of a name that is not the apex of a wildcard are those of its most
specific enclosing domain with an entry. -/
theorem getUpstreamsForDomain_route (env : ConfigEnv) (lines : List Bytes) (conf : UpstreamConfig)
    (haccept : Accepts env lines conf) (fqdn : Bytes) (hdot : fqdn.getLast? = some labelSep)
    (hexcl : toLower fqdn ∉ conf.subdomainExclusions) :
    conf.getUpstreamsForDomain fqdn = route (entries env lines) (toLower fqdn) := by
  obtain ⟨l, hl⟩ := toLower_fqdn hdot
  exact (accepts_reflects haccept).walk hl hexcl

/-- Every name is valid, and every address makes an upstream. -/
def exampleConfigEnv : ConfigEnv where
  validateDomainName _ := none
  addressToUpstream u := .ok ⟨0, u⟩

def exampleConfig (lines : List String) : UpstreamConfig :=
  ((parseUpstreamsConfig exampleConfigEnv (lines.map ascii)).map Prod.fst).getD ⟨[], [], [], []⟩

def nestedLines : List String :=
  ["[/host.com/]1.2.3.4", "[/www.host.com/]2.3.4.5", "[/maps.host.com/news.host.com/]#", "3.4.5.6"]

theorem getUpstreamsForDomain_nested :
    (exampleConfig nestedLines).getUpstreamsForDomain (ascii "mail.Maps.host.com.") =
      [⟨0, ascii "3.4.5.6"⟩] :=
  getUpstreamsForDomain_route exampleConfigEnv (nestedLines.map ascii) _ (by decide +kernel) _
    (by decide +kernel) (by decide +kernel)

/-! ## The apex of a wildcard -/

/-- The entries without those for `*.d`. -/
def withoutWildcard (d : Bytes) (es : List Entry) : List Entry :=
  es.filter fun e => e.host? ≠ some (wildcard ++ d)

/-- The nearest entry above the parent of the name. -/
def entryAboveParent (es : List Entry) (fqdn : Bytes) : Option (List Upstream) :=
  ((suffixes (cut (cut fqdn).2).2).findSome? (entryOf es)).or (unqualifiedEntry es fqdn)

/-- The apex has a list of its own; or it was emptied, and so was its parent, or there is
no entry for the parent; or it has no entry, but the parent has one, or the entries above
the parent lead to the same upstreams as the parent. -/
def ApexUnaffected (es : List Entry) (fqdn : Bytes) : Prop :=
  match plainList fqdn es with
  | some (_ :: _) => True
  | some [] => orDefaults es (entryOf es (cut fqdn).2) = defaults es
  | none => (cut fqdn).2 ≠ [] ∧ entryOf es (cut fqdn).2 ≠ none ∨
      orDefaults es (entryOf es (cut fqdn).2) = orDefaults es (entryAboveParent es fqdn)

theorem listOf_withoutWildcard {host d : Bytes} (h : host ≠ wildcard ++ d) (es : List Entry) :
    listOf host (withoutWildcard d es) = listOf host es := by
  unfold listOf withoutWildcard
  generalize (none : Option (List Upstream)) = l
  induction es generalizing l with
  | nil => rfl
  | cons e es ih =>
    rw [List.filter_cons]
    split
    · exact ih _
    · next he =>
      have hhost : e.host? = some (wildcard ++ d) := by simpa using he
      rw [List.foldl_cons, Entry.amend_of_ne fun heq =>
        h (Option.some.inj (heq.symm.trans hhost))]
      exact ih _

theorem plainList_withoutWildcard (d x : Bytes) (es : List Entry) :
    plainList x (withoutWildcard d es) = plainList x es := by
  unfold plainList
  split
  · rfl
  · next hx =>
    apply listOf_withoutWildcard
    rintro rfl
    exact hx (isWildcard_append d)

theorem wildcardList_withoutWildcard (d : Bytes) (es : List Entry) :
    wildcardList d (withoutWildcard d es) = none := by
  apply listOf_eq_none
  intro e he
  simpa using (List.mem_filter.mp he).2

theorem entryOf_withoutWildcard {d x : Bytes} (h : x ≠ d) (es : List Entry) :
    entryOf (withoutWildcard d es) x = entryOf es x := by
  rw [entryOf, entryOf, plainList_withoutWildcard, wildcardList, wildcardList,
    listOf_withoutWildcard fun heq => h (List.append_cancel_left heq)]

theorem entryOf_withoutWildcard_self (d : Bytes) (es : List Entry) :
    entryOf (withoutWildcard d es) d = plainList d es := by
  rw [entryOf, wildcardList_withoutWildcard, plainList_withoutWildcard]
  rfl

theorem defaults_withoutWildcard (d : Bytes) (es : List Entry) :
    defaults (withoutWildcard d es) = defaults es := by
  unfold defaults withoutWildcard
  induction es with
  | nil => rfl
  | cons e es ih =>
    rw [List.filter_cons]
    split
    · rw [List.filterMap_cons, List.filterMap_cons, ih]
    · next he =>
      cases e with
      | default u => simp [Entry.host?] at he
      | reserve h u => exact ih
      | exclude h => exact ih

theorem orDefaults_withoutWildcard (d : Bytes) (es : List Entry) (l : Option (List Upstream)) :
    orDefaults (withoutWildcard d es) l = orDefaults es l := by
  unfold orDefaults
  rw [defaults_withoutWildcard]

theorem length_le_of_mem_afterDots {s d : Bytes} (h : d ∈ afterDots s) :
    d.length ≤ s.length := by
  induction s with
  | nil => cases h
  | cons b bs ih =>
    unfold afterDots at h
    split at h
    · rcases List.mem_cons.mp h with rfl | h
      · exact Nat.le_succ _
      · exact Nat.le_succ_of_le (ih h)
    · exact Nat.le_succ_of_le (ih h)

theorem length_le_of_mem_suffixes {s d : Bytes} (h : d ∈ suffixes s) : d.length ≤ s.length := by
  rcases List.mem_cons.mp (List.mem_of_mem_filter h) with rfl | h
  · exact Nat.le_refl _
  · exact length_le_of_mem_afterDots h

theorem findSome_congr {α β : Type} {f g : α → Option β} {l : List α} (h : ∀ a ∈ l, f a = g a) :
    l.findSome? f = l.findSome? g := by
  induction l with
  | nil => rfl
  | cons a l ih =>
    obtain ⟨ha, hl⟩ := List.forall_mem_cons.mp h
    rw [List.findSome?_cons, List.findSome?_cons, ha, ih hl]

theorem route_withoutWildcard (es : List Entry) {fqdn : Bytes} (hne : fqdn ≠ []) :
    route (withoutWildcard fqdn es) fqdn =
      orDefaults es ((plainList fqdn es).or
        (((suffixes (cut fqdn).2).findSome? (entryOf es)).or (unqualifiedEntry es fqdn))) := by
  have habove : (suffixes (cut fqdn).2).findSome? (entryOf (withoutWildcard fqdn es)) =
      (suffixes (cut fqdn).2).findSome? (entryOf es) := by
    refine findSome_congr fun d hd => entryOf_withoutWildcard ?_ es
    rintro rfl
    exact absurd (length_le_of_mem_suffixes hd) (Nat.not_le_of_lt (length_cut_snd_lt hne))
  have hunq : unqualifiedEntry (withoutWildcard fqdn es) fqdn = unqualifiedEntry es fqdn := by
    have hhost : unqualifiedNames ≠ wildcard ++ fqdn := nofun
    rw [unqualifiedEntry, unqualifiedEntry, listOf_withoutWildcard hhost]
  rw [route, orDefaults_withoutWildcard, hunq, suffixes_cons hne, List.findSome?_cons,
    entryOf_withoutWildcard_self, habove]
  cases plainList fqdn es <;> rfl

theorem apex_eq_iff (es : List Entry) {fqdn : Bytes} (hne : fqdn ≠ []) :
    (match plainList fqdn es with
      | some (u :: us) => u :: us
      | _ => orDefaults es (entryOf es (cut fqdn).2)) = route (withoutWildcard fqdn es) fqdn ↔
      ApexUnaffected es fqdn := by
  rw [route_withoutWildcard es hne, ApexUnaffected]
  cases plainList fqdn es with
  | some ups =>
    cases ups with
    | nil => exact Iff.rfl
    | cons u us => exact iff_of_true rfl trivial
  | none =>
    simp only [Option.none_or, entryAboveParent]
    by_cases hparent : (cut fqdn).2 = []
    · -- nothing encloses a name with one label
      simp [hparent, suffixes, afterDots, cut]
    · rw [suffixes_cons hparent, List.findSome?_cons]
      cases entryOf es (cut fqdn).2 with
      | none => simp
      | some ups => simp [hparent]

/-- A wildcard does not affect its own apex if and only if the apex has a list of its
own, or what encloses it leads to the same upstreams. -/
theorem apex_unaffected_iff (env : ConfigEnv) (lines : List Bytes) (conf : UpstreamConfig)
    (haccept : Accepts env lines conf) (fqdn : Bytes) (hdot : fqdn.getLast? = some labelSep)
    (hexcl : toLower fqdn ∈ conf.subdomainExclusions) :
    let rest := withoutWildcard (toLower fqdn) (entries env lines)
    (conf.getUpstreamsForDomain fqdn = route rest (toLower fqdn) ↔
      ApexUnaffected (entries env lines) (toLower fqdn)) ∧
    ∀ lines' conf', Accepts env lines' conf' → entries env lines' = rest →
      conf'.getUpstreamsForDomain fqdn = route rest (toLower fqdn) := by
  obtain ⟨l, hl⟩ := toLower_fqdn hdot
  have hne : toLower fqdn ≠ [] := by
    rw [hl]
    exact List.append_ne_nil_of_right_ne_nil _ (List.cons_ne_nil _ _)
  intro rest
  refine ⟨?_, ?_⟩
  · rw [(accepts_reflects haccept).apex hexcl]
    exact apex_eq_iff (entries env lines) hne
  · intro lines' conf' haccept' hrest
    have hconf := accepts_reflects haccept'
    rw [hrest] at hconf
    refine hconf.walk hl fun hmem => (hconf.exclusions _).mp hmem ?_
    exact wildcardList_withoutWildcard (toLower fqdn) (entries env lines)

def subdomainLines : List String := ["[/*.domain.com/]1.2.3.4", "3.4.5.6"]

theorem apex_unaffected_subdomain :
    (exampleConfig subdomainLines).getUpstreamsForDomain (ascii "domain.com.") =
      [⟨0, ascii "3.4.5.6"⟩] :=
  (apex_unaffected_iff exampleConfigEnv (subdomainLines.map ascii) _ (by decide +kernel)
    (ascii "domain.com.") (by decide +kernel) (by decide +kernel)).1.mpr (.inr (by decide +kernel))

/-- The addresses that an accepted configuration leads to. -/
def addressesFor (lines : List String) (fqdn : String) : Option (List Bytes) :=
  match parseUpstreamsConfig exampleConfigEnv (lines.map ascii) with
  | some (conf, []) => some ((conf.getUpstreamsForDomain (ascii fqdn)).map Upstream.address)
  | _ => none

/-- The domain that encloses the apex is two labels up; the apex was emptied; and the
apex has one label. In each case the line for the subdomains changes where the apex
goes. -/
theorem apex_affected :
    addressesFor ["[/com/]1.1.1.1", "[/*.a.b.com/]2.2.2.2", "3.3.3.3"] "a.b.com." =
      some [ascii "3.3.3.3"] ∧
    addressesFor ["[/com/]1.1.1.1", "3.3.3.3"] "a.b.com." = some [ascii "1.1.1.1"] ∧
    addressesFor ["[/com/]1.1.1.1", "[/b.com/]#", "[/*.b.com/]2.2.2.2", "3.3.3.3"] "b.com." =
      some [ascii "1.1.1.1"] ∧
    addressesFor ["[/com/]1.1.1.1", "[/b.com/]#", "3.3.3.3"] "b.com." = some [ascii "3.3.3.3"] ∧
    addressesFor ["[//]1.1.1.1", "[/*.com/]2.2.2.2", "3.3.3.3"] "com." = some [ascii "3.3.3.3"] ∧
    addressesFor ["[//]1.1.1.1", "3.3.3.3"] "com." = some [ascii "1.1.1.1"] := by
  decide +kernel

end DnsProxy
