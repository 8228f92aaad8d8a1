import DnsProxy.Routing

/-!
# Parsing any list of lines

Results about `ParseUpstreamsConfig` for lines that need not be accepted.

* `parseUpstreamsConfig_returns_iff`: the parser returns unless a line names domains
  and then nothing but white space.
* `upstreams_kept_iff`: the upstreams that the parser creates are found in the
  configuration again unless a later `#` takes away the last domain they were named for.
-/

namespace DnsProxy

/-! ## Lines that break the parser -/

/-- The line names valid domains and has white space where the upstreams belong. -/
def NamesNoUpstream (env : ConfigEnv) (confLine : Bytes) : Prop :=
  ∃ domainsLine upstreamsLine,
    domainsOpen.isPrefixOf confLine = true ∧
    cutAt domainsClose (confLine.drop domainsOpen.length) = some (domainsLine, upstreamsLine) ∧
    (∀ host ∈ domainsLine.splitOn domainsSep,
      host = [] ∨ env.validateDomainName (trimWildcard host) = none) ∧
    upstreamsLine ≠ [] ∧ WhiteSpace.Blank upstreamsLine

section Returns

variable {env : ConfigEnv}

theorem confDomain_isOk (confHost : Bytes) (i : Nat) :
    (∃ host, confDomain env confHost i = .ok host) ↔
      confHost = [] ∨ env.validateDomainName (trimWildcard confHost) = none := by
  unfold confDomain
  by_cases hnil : confHost = []
  · simp [hnil]
  · simp only [hnil, if_false, false_or]
    cases env.validateDomainName (trimWildcard confHost) with
    | none => simp
    | some err => simp

theorem mapM_ok_iff {ε α β : Type} {f : α → Except ε β} {l : List α} :
    (∃ l', l.mapM f = .ok l') ↔ ∀ x ∈ l, ∃ y, f x = .ok y := by
  induction l with
  | nil => simp [pure, Except.pure]
  | cons x l ih =>
    rw [List.mapM_cons, List.forall_mem_cons, ← ih]
    cases hx : f x with
    | error err => simp [bind, Except.bind]
    | ok y =>
      cases hl : l.mapM f with
      | error err => simp [bind, Except.bind]
      | ok l' => simp [bind, Except.bind, pure, Except.pure]

theorem domains_ok_iff (hosts : List Bytes) :
    (∃ domains, (hosts.zipIdx.mapM fun h => confDomain env h.1 h.2) = .ok domains) ↔
      ∀ host ∈ hosts, host = [] ∨ env.validateDomainName (trimWildcard host) = none := by
  have hfst : hosts.zipIdx.map Prod.fst = hosts := List.zipIdx_map_fst 0 hosts
  rw [mapM_ok_iff]
  nth_rewrite 2 [← hfst]
  simp only [confDomain_isOk, List.forall_mem_map]

theorem splitConfigLine_nil_iff (confLine : Bytes) :
    (∃ domains, splitConfigLine env confLine = .ok ([], domains)) ↔
      NamesNoUpstream env confLine := by
  unfold splitConfigLine NamesNoUpstream
  by_cases hopen : domainsOpen.isPrefixOf confLine = true
  · simp only [hopen, if_true, true_and]
    cases hcut : cutAt domainsClose (confLine.drop domainsOpen.length) with
    | none => simp
    | some parts =>
      obtain ⟨domainsLine, upstreamsLine⟩ := parts
      simp only [Option.some.injEq, Prod.mk.injEq, and_assoc, exists_and_left, exists_eq_left',
        ← domains_ok_iff, ← WhiteSpace.fields_eq_nil_iff]
      by_cases hblank : upstreamsLine = []
      · simp [hblank]
      · simp only [if_false, ne_eq, hblank, not_false_eq_true, true_and]
        cases (domainsLine.splitOn domainsSep).zipIdx.mapM fun h => confDomain env h.1 h.2 with
        | error err => simp
        | ok domains => simp
  · simp [hopen]

theorem not_skipped {confLine : Bytes} (h : domainsOpen.isPrefixOf confLine = true) :
    ¬(confLine = [] ∨ confLine.head? = some hash) := by
  obtain ⟨rest, rfl⟩ := List.isPrefixOf_iff_prefix.mp h
  rintro (hnil | hhead)
  · cases hnil
  · exact absurd (show (91 : UInt8) = hash from Option.some.inj hhead) (by decide)

theorem parseLine_eq_none_iff (p : ConfigParser) (confLine : Bytes) :
    p.parseLine env confLine = none ↔ NamesNoUpstream env confLine := by
  unfold ConfigParser.parseLine
  split
  · next hskip =>
    simp only [reduceCtorEq, false_iff]
    rintro ⟨-, -, hopen, -⟩
    exact not_skipped hopen hskip
  · rw [← splitConfigLine_nil_iff]
    cases hsplit : splitConfigLine env confLine with
    | error err => simp
    | ok parts =>
      obtain ⟨us, domains⟩ := parts
      cases us with
      | nil => simp
      | cons u us =>
        simp only [Except.ok.injEq, Prod.mk.injEq, reduceCtorEq, false_and, exists_false, iff_false]
        split <;> exact Option.some_ne_none _

theorem parseLines_eq_none_iff (p : ConfigParser) (i : Nat) (lines : List Bytes) :
    p.parseLines env i lines = none ↔ ∃ l ∈ lines, NamesNoUpstream env l := by
  induction lines generalizing p i with
  | nil => simp [ConfigParser.parseLines]
  | cons l lines ih =>
    unfold ConfigParser.parseLines
    cases hl : p.parseLine env l with
    | none => simp [(parseLine_eq_none_iff p l).mp hl]
    | some r =>
      have hgood : ¬ NamesNoUpstream env l := by
        rw [← parseLine_eq_none_iff p l, hl]
        exact Option.some_ne_none r
      simp [ih, hgood]

end Returns

/-- `ParseUpstreamsConfig` returns exactly when no line names domains and then only
white space. -/
theorem parseUpstreamsConfig_returns_iff (env : ConfigEnv) (lines : List Bytes) :
    (∃ conf errs, parseUpstreamsConfig env lines = some (conf, errs)) ↔
      ∀ l ∈ lines, ¬ NamesNoUpstream env l := by
  have hnone : parseUpstreamsConfig env lines = none ↔ ∃ l ∈ lines, NamesNoUpstream env l := by
    rw [parseUpstreamsConfig, Option.map_eq_none_iff, parseLines_eq_none_iff]
  constructor
  · rintro ⟨conf, errs, h⟩ l hl hbad
    rw [hnone.mpr ⟨l, hl, hbad⟩] at h
    cases h
  · intro h
    obtain ⟨⟨conf, errs⟩, hr⟩ := Option.ne_none_iff_exists'.mp
      fun hn => (hnone.mp hn).elim fun l hl => h l hl.1 hl.2
    exact ⟨conf, errs, hr⟩

/-- A blank after the domains. -/
theorem parseUpstreamsConfig_blank :
    ¬ ∃ conf errs, parseUpstreamsConfig exampleConfigEnv [ascii "[/example.org/] "] =
      some (conf, errs) := by
  have hnone : parseUpstreamsConfig exampleConfigEnv [ascii "[/example.org/] "] = none := by
    decide +kernel
  rintro ⟨conf, errs, h⟩
  rw [hnone] at h
  cases h

/-! ## The upstreams that are created -/

/-- The upstreams that `AddressToUpstream` makes for the lines. -/
def createdUpstreams (env : ConfigEnv) (lines : List Bytes) : List Upstream :=
  match ({} : ConfigParser).parseLines env 0 lines with
  | none => []
  | some (p, _) => p.created

/-- The upstream is in one of the lists of the configuration. -/
def UpstreamConfig.Contains (conf : UpstreamConfig) (u : Upstream) : Prop :=
  u ∈ conf.upstreams ∨
    (∃ d l, conf.domainReservedUpstreams.lookup d = some l ∧ u ∈ l) ∨
    ∃ d l, conf.specifiedDomainUpstreams.lookup d = some l ∧ u ∈ l

/-- The domains of a map, in the order in which `Close` goes through them. -/
def sortedDomains (m : List (Bytes × List Upstream)) : List Bytes :=
  (m.map Prod.fst).eraseDups.mergeSort fun a b => decide (a ≤ b)

/-- The upstreams of a map, in the order in which `Close` closes them. -/
def upstreamsOf (m : List (Bytes × List Upstream)) : List Upstream :=
  (sortedDomains m).flatMap fun d => (m.lookup d).getD []

/-- The upstreams that `Close` closes, in its order. -/
def UpstreamConfig.closes (conf : UpstreamConfig) : List Upstream :=
  conf.upstreams ++ upstreamsOf conf.domainReservedUpstreams ++
    upstreamsOf conf.specifiedDomainUpstreams

/-- An entry names the upstream, as a default or for a domain that no later `#` is
for. -/
def Kept (es : List Entry) (u : Upstream) : Prop :=
  .default u ∈ es ∨
    ∃ host before after, es = before ++ .reserve host u :: after ∧ .exclude host ∉ after

theorem mem_upstreamsOf {m : List (Bytes × List Upstream)} {u : Upstream} :
    u ∈ upstreamsOf m ↔ ∃ d l, m.lookup d = some l ∧ u ∈ l := by
  simp only [upstreamsOf, sortedDomains, List.mem_flatMap, List.mem_mergeSort, List.mem_eraseDups]
  constructor
  · rintro ⟨d, -, hu⟩
    cases hl : m.lookup d with
    | none => simp [hl] at hu
    | some l => exact ⟨d, l, hl, by simpa [hl] using hu⟩
  · rintro ⟨d, l, hl, hu⟩
    exact ⟨d, List.mem_map_of_mem (mem_of_lookup hl), by simpa [hl] using hu⟩

theorem mem_closes {conf : UpstreamConfig} {u : Upstream} :
    u ∈ conf.closes ↔ conf.Contains u := by
  simp only [UpstreamConfig.closes, UpstreamConfig.Contains, List.mem_append, mem_upstreamsOf,
    or_assoc]

theorem exists_after_snoc {α : Type} {x y e : α} {l : List α} :
    (∃ before after, l ++ [e] = before ++ x :: after ∧ y ∉ after) ↔
      e = x ∨ e ≠ y ∧ ∃ before after, l = before ++ x :: after ∧ y ∉ after := by
  constructor
  · rintro ⟨before, after, heq, hy⟩
    rcases List.eq_nil_or_concat after with rfl | ⟨after', z, rfl⟩
    · exact .inl (List.concat_inj.mp (by simpa using heq)).2
    · have hsplit : l ++ [e] = (before ++ x :: after') ++ [z] := by simpa using heq
      obtain ⟨rfl, hez⟩ := List.append_inj' hsplit rfl
      obtain rfl : e = z := by simpa using hez
      refine .inr ⟨?_, before, after', rfl, fun h => hy (by simp [h])⟩
      rintro rfl
      exact hy (by simp)
  · rintro (rfl | ⟨hne, before, after, rfl, hy⟩)
    · exact ⟨l, [], rfl, by simp⟩
    · refine ⟨before, after ++ [e], by simp, ?_⟩
      rw [List.mem_append, List.mem_singleton, not_or]
      exact ⟨hy, hne.symm⟩

theorem mem_listOf {es : List Entry} {host : Bytes} {u : Upstream} :
    (∃ l, listOf host es = some l ∧ u ∈ l) ↔
      ∃ before after, es = before ++ .reserve host u :: after ∧ .exclude host ∉ after := by
  induction es using List.reverseRecOn with
  | nil => simp [listOf]
  | append_singleton es e ih =>
    rw [listOf_snoc, exists_after_snoc, ← ih]
    cases e with
    | default v => simp [Entry.amend]
    | reserve h v =>
      by_cases hh : h = host
      · cases hl : listOf host es with
        | none => simp [Entry.amend, hh, eq_comm]
        | some l => simp [Entry.amend, hh, eq_comm, or_comm]
      · simp [Entry.amend, hh]
    | exclude h =>
      by_cases hh : h = host
      · simp [Entry.amend, hh]
      · simp [Entry.amend, hh]

theorem ConfigParser.Holds.contains_iff {p : ConfigParser} {es : List Entry} (h : p.Holds es)
    (u : Upstream) :
    p.config.Contains u ↔ .default u ∈ es ∨ ∃ host l, listOf host es = some l ∧ u ∈ l := by
  have hdefault : u ∈ p.config.upstreams ↔ .default u ∈ es := by
    show u ∈ p.upstreams ↔ _
    rw [h.upstreams, defaults, List.mem_filterMap]
    constructor
    · rintro ⟨e, he, hu⟩
      cases e with
      | default v =>
        obtain rfl := Option.some.inj hu
        exact he
      | reserve => cases hu
      | exclude => cases hu
    · intro he
      exact ⟨_, he, rfl⟩
  have hspec : ∀ d, p.config.specifiedDomainUpstreams.lookup d = plainList d es := h.specified
  unfold UpstreamConfig.Contains
  rw [hdefault]
  apply or_congr_right
  constructor
  · rintro (⟨d, l, hl, hu⟩ | ⟨d, l, hl, hu⟩)
    · rw [h.reserved_config, entryOf] at hl
      rcases Option.or_eq_some_iff.mp hl with hw | ⟨-, hp⟩
      · exact ⟨wildcard ++ d, l, hw, hu⟩
      · exact ⟨d, l, (Option.ite_none_left_eq_some.mp hp).2, hu⟩
    · rw [hspec] at hl
      exact ⟨d, l, (Option.ite_none_left_eq_some.mp hl).2, hu⟩
  · rintro ⟨host, l, hl, hu⟩
    by_cases hw : IsWildcard host
    · refine .inl ⟨host.drop wildcard.length, l, ?_, hu⟩
      rw [h.reserved_config, entryOf, wildcardList, eq_append_of_isWildcard hw, hl]
      rfl
    · refine .inr ⟨host, l, ?_, hu⟩
      rw [hspec, plainList, if_neg hw, hl]

/-- Every created upstream is in the configuration, and closed with it, exactly when
every one that is named for a domain is named once without being taken back. -/
theorem upstreams_kept_iff (env : ConfigEnv) (lines : List Bytes) (conf : UpstreamConfig)
    (errs : List ParseError) (h : parseUpstreamsConfig env lines = some (conf, errs)) :
    (∀ u ∈ createdUpstreams env lines, conf.Contains u ∧ u ∈ conf.closes) ↔
      ∀ host u, .reserve host u ∈ entriesRead env lines → Kept (entriesRead env lines) u := by
  obtain ⟨⟨p, errs'⟩, hp, heq⟩ := Option.map_eq_some_iff.mp h
  obtain ⟨rfl, rfl⟩ := Prod.mk.inj heq
  have hread := (parseLines_read (hasRead_init env) hp).1
  rw [List.nil_append] at hread
  have hcreated : createdUpstreams env lines = p.created := by rw [createdUpstreams, hp]
  have hkept : ∀ u, p.config.Contains u ↔ Kept (entriesRead env lines) u := by
    intro u
    rw [hread.holds.contains_iff]
    simp only [mem_listOf, Kept]
  simp only [mem_closes, and_self, hcreated, hread.created, hkept]
  constructor
  · intro hall host u hmem
    exact hall u ⟨_, hmem, rfl⟩
  · rintro hall u ⟨e, he, hu⟩
    cases e with
    | default v =>
      obtain rfl := Option.some.inj hu
      exact .inl he
    | reserve host v =>
      obtain rfl := Option.some.inj hu
      exact hall host v he
    | exclude host => cases hu

/-- A domain that is taken back and named again, with an upstream that is a default one
too. -/
def renamedLines : List String :=
  ["[/a.com/]1.1.1.1", "1.1.1.1", "[/a.com/]#", "[/a.com/]2.2.2.2"]

theorem upstreams_kept_renamed :
    parseUpstreamsConfig exampleConfigEnv (renamedLines.map ascii) =
      some (exampleConfig renamedLines, []) ∧
    ∀ u ∈ createdUpstreams exampleConfigEnv (renamedLines.map ascii),
      (exampleConfig renamedLines).Contains u ∧ u ∈ (exampleConfig renamedLines).closes := by
  have hparse : parseUpstreamsConfig exampleConfigEnv (renamedLines.map ascii) =
      some (exampleConfig renamedLines, []) := by decide +kernel
  refine ⟨hparse, (upstreams_kept_iff _ _ _ _ hparse).mpr ?_⟩
  have hread : entriesRead exampleConfigEnv (renamedLines.map ascii) =
      [.reserve (ascii "a.com.") ⟨0, ascii "1.1.1.1"⟩, .default ⟨0, ascii "1.1.1.1"⟩,
        .exclude (ascii "a.com."), .reserve (ascii "a.com.") ⟨0, ascii "2.2.2.2"⟩] := by
    decide +kernel
  rw [hread]
  intro host u hmem
  simp only [List.mem_cons, Entry.reserve.injEq, reduceCtorEq, List.not_mem_nil, or_false,
    false_or] at hmem
  rcases hmem with ⟨-, rfl⟩ | ⟨-, rfl⟩
  · exact .inl (by simp)
  · exact .inr ⟨ascii "a.com.",
      [.reserve (ascii "a.com.") ⟨0, ascii "1.1.1.1"⟩, .default ⟨0, ascii "1.1.1.1"⟩,
        .exclude (ascii "a.com.")], [], rfl, by simp⟩

def takenBackLines : List String := ["[/a.com/]1.1.1.1", "[/a.com/]#"]

/-- The upstream of the first line is in no list of the configuration. -/
theorem upstreams_takenBack :
    parseUpstreamsConfig exampleConfigEnv (takenBackLines.map ascii) =
      some (exampleConfig takenBackLines, []) ∧
    ∃ u ∈ createdUpstreams exampleConfigEnv (takenBackLines.map ascii),
      ¬ (exampleConfig takenBackLines).Contains u := by
  refine ⟨by decide +kernel, ⟨0, ascii "1.1.1.1"⟩, by decide +kernel, ?_⟩
  rw [← mem_closes]
  decide +kernel

end DnsProxy
