import DnsProxy.Upstreams
import DnsProxy.Lib.WhiteSpace

/-!
# The configuration of upstreams

The parser of the lines that map domains to upstreams. It fills four maps as it goes,
with appends, resets and a final copy of one over another. What the lines say is a list
of entries, one for each domain and upstream they name, in their order.

* `parseLines_read`: at the end each of the maps holds the lists that the entries say,
  where a line with an error has the entries of what comes before the error.
* `accepts_holds`: in an accepted configuration these are the entries of all lines.
-/

namespace DnsProxy

/-! ## Lines -/

/-- What the parser uses of other packages; an error is its text. -/
structure ConfigEnv where
  /-- `netutil.ValidateDomainName`. -/
  validateDomainName : Bytes → Option String
  /-- `upstream.AddressToUpstream`, with the options of the parser. -/
  addressToUpstream : Bytes → Except String Upstream
  /-- `strings.ToLower` on a string that is not ASCII. -/
  lowerNonASCII : Bytes → Bytes := id

/-- `[/` -/
def domainsOpen : Bytes := [91, 47]
/-- `/]` -/
def domainsClose : Bytes := [47, 93]
/-- `/` -/
def domainsSep : UInt8 := 47
/-- `#` -/
def hash : UInt8 := 35
/-- `*.` -/
def wildcard : Bytes := [42, 46]

def IsWildcard (host : Bytes) : Prop := wildcard.isPrefixOf host = true

instance (host : Bytes) : Decidable (IsWildcard host) :=
  inferInstanceAs (Decidable (wildcard.isPrefixOf host = true))

/-- `strings.TrimPrefix(host, "*.")`. -/
def trimWildcard (host : Bytes) : Bytes :=
  if IsWildcard host then host.drop wildcard.length else host

/-- `strings.Cut`; `none` if `sep` is not found. -/
def cutAt (sep : Bytes) : Bytes → Option (Bytes × Bytes)
  | [] => if sep = [] then some ([], []) else none
  | b :: bs =>
    if sep.isPrefixOf (b :: bs) then some ([], (b :: bs).drop sep.length)
    else (cutAt sep bs).map fun (before, after) => (b :: before, after)

/-- `strings.ToLower`. -/
def ConfigEnv.lower (env : ConfigEnv) (s : Bytes) : Bytes :=
  if s.all (· < 128) then toLower s else env.lowerNonASCII s

/-- The name under which the `i`-th domain of a line is stored. -/
def confDomain (env : ConfigEnv) (confHost : Bytes) (i : Nat) : Except String Bytes :=
  -- an empty domain stands for the unqualified names only
  if confHost = [] then .ok unqualifiedNames
  else
    match env.validateDomainName (trimWildcard confHost) with
    | some err => .error s!"domain at index {i}: {err}"
    | none => .ok (env.lower confHost ++ [labelSep])

/-- The upstreams and the domains of a line. -/
def splitConfigLine (env : ConfigEnv) (confLine : Bytes) :
    Except String (List Bytes × List Bytes) :=
  if domainsOpen.isPrefixOf confLine then
    match cutAt domainsClose (confLine.drop domainsOpen.length) with
    | none => .error "wrong upstream format"
    | some (domainsLine, upstreamsLine) =>
      if upstreamsLine = [] then .error "wrong upstream format"
      else
        match (domainsLine.splitOn domainsSep).zipIdx.mapM fun h => confDomain env h.1 h.2 with
        | .error err => .error err
        | .ok domains => .ok (WhiteSpace.fields upstreamsLine, domains)
  else .ok ([confLine], [])

/-! ## The parser -/

/-- The maps are association lists, in which the first pair of a key counts. -/
structure ConfigParser where
  upstreamsIndex : List (Bytes × Upstream) := []
  domainReservedUpstreams : List (Bytes × List Upstream) := []
  specifiedDomainUpstreams : List (Bytes × List Upstream) := []
  subdomainsOnlyUpstreams : List (Bytes × List Upstream) := []
  subdomainsOnlyExclusions : List Bytes := []
  upstreams : List Upstream := []

/-- `m[host] = append(m[host], u)`. -/
def appendTo (m : List (Bytes × List Upstream)) (host : Bytes) (u : Upstream) :
    List (Bytes × List Upstream) :=
  (host, (m.lookup host).getD [] ++ [u]) :: m

namespace ConfigParser

/-- One iteration of `includeToReserved`. -/
def includeHost (dnsUpstream : Upstream) (p : ConfigParser) (host : Bytes) : ConfigParser :=
  if IsWildcard host then
    let host := host.drop wildcard.length
    { p with
      subdomainsOnlyExclusions := host :: p.subdomainsOnlyExclusions
      subdomainsOnlyUpstreams := appendTo p.subdomainsOnlyUpstreams host dnsUpstream
      domainReservedUpstreams := appendTo p.domainReservedUpstreams host dnsUpstream }
  else
    { p with
      specifiedDomainUpstreams := appendTo p.specifiedDomainUpstreams host dnsUpstream
      domainReservedUpstreams := appendTo p.domainReservedUpstreams host dnsUpstream }

def includeToReserved (p : ConfigParser) (dnsUpstream : Upstream) (domains : List Bytes) :
    ConfigParser :=
  domains.foldl (includeHost dnsUpstream) p

/-- One iteration of `excludeFromReserved`. -/
def excludeHost (p : ConfigParser) (host : Bytes) : ConfigParser :=
  if IsWildcard host then
    let trimmed := host.drop wildcard.length
    { p with
      subdomainsOnlyExclusions := trimmed :: p.subdomainsOnlyExclusions
      subdomainsOnlyUpstreams := (trimmed, []) :: p.subdomainsOnlyUpstreams }
  else
    { p with
      domainReservedUpstreams := (host, []) :: p.domainReservedUpstreams
      specifiedDomainUpstreams := (host, []) :: p.specifiedDomainUpstreams }

def excludeFromReserved (p : ConfigParser) (domains : List Bytes) : ConfigParser :=
  domains.foldl excludeHost p

/-- `specifyUpstream` once it has the upstream. -/
def specify (p : ConfigParser) (domains : List Bytes) (dnsUpstream : Upstream) : ConfigParser :=
  if domains.length = 0 then { p with upstreams := p.upstreams ++ [dnsUpstream] }
  else p.includeToReserved dnsUpstream domains

def specifyUpstream (env : ConfigEnv) (p : ConfigParser) (domains : List Bytes) (u : Bytes) :
    Except String ConfigParser :=
  match p.upstreamsIndex.lookup u with
  | some dnsUpstream => .ok (p.specify domains dnsUpstream)
  | none =>
    match env.addressToUpstream u with
    | .error err => .error s!"cannot prepare the upstream: {err}"
    | .ok dnsUpstream =>
      .ok ({ p with upstreamsIndex := (u, dnsUpstream) :: p.upstreamsIndex }.specify domains
        dnsUpstream)

/-- The loop of `parseLine`. What was specified before an error stays. -/
def specifyUpstreams (env : ConfigEnv) (p : ConfigParser) (domains : List Bytes) :
    List Bytes → ConfigParser × Option String
  | [] => (p, none)
  | u :: us =>
    match p.specifyUpstream env domains u with
    | .error err => (p, some err)
    | .ok p => p.specifyUpstreams env domains us

/-- The result is `none` when the line names domains and then only blanks: the code
looks at the first upstream without checking that there is one. -/
def parseLine (env : ConfigEnv) (p : ConfigParser) (confLine : Bytes) :
    Option (ConfigParser × Option String) :=
  if confLine = [] ∨ confLine.head? = some hash then some (p, none)
  else
    match splitConfigLine env confLine with
    | .error err => some (p, some err)
    | .ok ([], _) => none
    | .ok (u :: us, domains) =>
      if u = [hash] ∧ 0 < domains.length then some (p.excludeFromReserved domains, none)
      else some (p.specifyUpstreams env domains (u :: us))

end ConfigParser

/-- A line that was not accepted. -/
structure ParseError where
  err : String
  idx : Nat
deriving DecidableEq, Repr

namespace ConfigParser

/-- The loop of `parse`, from the line with the index `i` on. -/
def parseLines (env : ConfigEnv) (p : ConfigParser) (i : Nat) :
    List Bytes → Option (ConfigParser × List ParseError)
  | [] => some (p, [])
  | l :: lines =>
    match p.parseLine env l with
    | none => none
    | some (p, err) =>
      (p.parseLines env (i + 1) lines).map fun (p, errs) =>
        (p, (err.map fun err => ⟨err, i⟩).toList ++ errs)

/-- The end of `parse`: the lists for subdomains only replace the others. -/
def config (p : ConfigParser) : UpstreamConfig where
  upstreams := p.upstreams
  domainReservedUpstreams := p.subdomainsOnlyUpstreams ++ p.domainReservedUpstreams
  specifiedDomainUpstreams := p.specifiedDomainUpstreams
  subdomainExclusions := p.subdomainsOnlyExclusions

end ConfigParser

def parseUpstreamsConfig (env : ConfigEnv) (lines : List Bytes) :
    Option (UpstreamConfig × List ParseError) :=
  (({} : ConfigParser).parseLines env 0 lines).map fun (p, errs) => (p.config, errs)

/-- `ParseUpstreamsConfig` returns `conf` and a nil error. -/
def Accepts (env : ConfigEnv) (lines : List Bytes) (conf : UpstreamConfig) : Prop :=
  parseUpstreamsConfig env lines = some (conf, [])

instance (env : ConfigEnv) (lines : List Bytes) (conf : UpstreamConfig) :
    Decidable (Accepts env lines conf) :=
  inferInstanceAs (Decidable (parseUpstreamsConfig env lines = some (conf, [])))

/-! ## What the lines say -/

inductive Entry
  /-- A default upstream. -/
  | default (u : Upstream)
  /-- An upstream for the domain `host`, which may be a wildcard. -/
  | reserve (host : Bytes) (u : Upstream)
  /-- A `#` for the domain `host`. -/
  | exclude (host : Bytes)
deriving DecidableEq, Repr

namespace Entry

def host? : Entry → Option Bytes
  | .default _ => none
  | .reserve host _ => some host
  | .exclude host => some host

def default? : Entry → Option Upstream
  | .default u => some u
  | _ => none

def upstream? : Entry → Option Upstream
  | .default u => some u
  | .reserve _ u => some u
  | .exclude _ => none

/-- What an entry makes of the list of `host`. -/
def amend (host : Bytes) (l : Option (List Upstream)) : Entry → Option (List Upstream)
  | .default _ => l
  | .reserve h u => if h = host then some (l.getD [] ++ [u]) else l
  | .exclude h => if h = host then some [] else l

end Entry

/-- The entries for the upstream named `u` on a line with the given domains. -/
def upstreamEntries (env : ConfigEnv) (domains : List Bytes) (u : Bytes) : List Entry :=
  match env.addressToUpstream u with
  | .error _ => []
  | .ok dnsUpstream =>
    if domains.length = 0 then [.default dnsUpstream]
    else domains.map fun host => .reserve host dnsUpstream

def lineEntries (env : ConfigEnv) (confLine : Bytes) : List Entry :=
  if confLine = [] ∨ confLine.head? = some hash then []
  else
    match splitConfigLine env confLine with
    | .error _ => []
    | .ok (upstreams, domains) =>
      if upstreams.head? = some [hash] ∧ 0 < domains.length then domains.map .exclude
      else upstreams.flatMap (upstreamEntries env domains)

def entries (env : ConfigEnv) (lines : List Bytes) : List Entry :=
  lines.flatMap (lineEntries env)

/-- The upstreams of a line that come before the first error. -/
def goodUpstreams (env : ConfigEnv) (us : List Bytes) : List Bytes :=
  us.takeWhile fun u => (env.addressToUpstream u).isOk

/-- The entries of a line that may have an error. -/
def lineRead (env : ConfigEnv) (confLine : Bytes) : List Entry :=
  if confLine = [] ∨ confLine.head? = some hash then []
  else
    match splitConfigLine env confLine with
    | .error _ => []
    | .ok (upstreams, domains) =>
      if upstreams.head? = some [hash] ∧ 0 < domains.length then domains.map .exclude
      else (goodUpstreams env upstreams).flatMap (upstreamEntries env domains)

def entriesRead (env : ConfigEnv) (lines : List Bytes) : List Entry :=
  lines.flatMap (lineRead env)

/-- The upstreams named for `host` since the last `#` for it; `none` if no line is about
`host`. -/
def listOf (host : Bytes) (es : List Entry) : Option (List Upstream) :=
  es.foldl (Entry.amend host) none

/-- The list of the lines for the domain `d` itself. -/
def plainList (d : Bytes) (es : List Entry) : Option (List Upstream) :=
  if IsWildcard d then none else listOf d es

/-- The list of the lines for `*.d`. -/
def wildcardList (d : Bytes) (es : List Entry) : Option (List Upstream) :=
  listOf (wildcard ++ d) es

def defaults (es : List Entry) : List Upstream := es.filterMap Entry.default?

/-! ## The maps hold the lists -/

theorem lookup_cons_ite {α : Type} (k a : Bytes) (v : α) (m : List (Bytes × α)) :
    ((k, v) :: m).lookup a = if k = a then some v else m.lookup a := by
  rw [List.lookup_cons]
  by_cases h : k = a
  · simp [h]
  · have hne : (a == k) = false := by simpa using fun h' : a = k => h h'.symm
    simp [h, hne]

theorem lookup_appendTo (m : List (Bytes × List Upstream)) (host a : Bytes) (u : Upstream) :
    (appendTo m host u).lookup a =
      if host = a then some ((m.lookup a).getD [] ++ [u]) else m.lookup a := by
  rw [appendTo, lookup_cons_ite]
  split
  · next h => rw [h]
  · rfl

theorem listOf_snoc (host : Bytes) (es : List Entry) (e : Entry) :
    listOf host (es ++ [e]) = e.amend host (listOf host es) := by
  rw [listOf, List.foldl_append]
  rfl

variable {e : Entry} {es : List Entry}

theorem Entry.amend_of_ne {host : Bytes} (h : e.host? ≠ some host) (l : Option (List Upstream)) :
    e.amend host l = l := by
  cases e with
  | default u => rfl
  | reserve h' u => exact if_neg fun heq => h (congrArg some heq)
  | exclude h' => exact if_neg fun heq => h (congrArg some heq)

theorem isWildcard_append (d : Bytes) : IsWildcard (wildcard ++ d) := rfl

theorem eq_append_of_isWildcard {host : Bytes} (h : IsWildcard host) :
    wildcard ++ host.drop wildcard.length = host := by
  obtain ⟨rest, hrest⟩ := List.isPrefixOf_iff_prefix.mp h
  rw [← hrest, List.drop_left]

/-- The maps of the parser hold the lists of the entries read so far. The map of the
reserved domains does so only where the final copy does not overwrite it. -/
structure ConfigParser.Holds (p : ConfigParser) (es : List Entry) : Prop where
  specified : ∀ d, p.specifiedDomainUpstreams.lookup d = plainList d es
  subdomainsOnly : ∀ d, p.subdomainsOnlyUpstreams.lookup d = wildcardList d es
  reserved : ∀ d, wildcardList d es = none →
    p.domainReservedUpstreams.lookup d = plainList d es
  exclusions : ∀ d, d ∈ p.subdomainsOnlyExclusions ↔ wildcardList d es ≠ none
  upstreams : p.upstreams = defaults es

theorem plainList_snoc_ne {d : Bytes} (h : IsWildcard d ∨ e.host? ≠ some d) :
    plainList d (es ++ [e]) = plainList d es := by
  unfold plainList
  split
  · rfl
  · next hd => rw [listOf_snoc, Entry.amend_of_ne (h.resolve_left hd)]

theorem wildcardList_snoc_ne {d : Bytes} (h : e.host? ≠ some (wildcard ++ d)) :
    wildcardList d (es ++ [e]) = wildcardList d es := by
  rw [wildcardList, listOf_snoc, Entry.amend_of_ne h, wildcardList]

theorem plainList_snoc_wildcard {t : Bytes} (he : e.host? = some (wildcard ++ t)) (d : Bytes) :
    plainList d (es ++ [e]) = plainList d es := by
  apply plainList_snoc_ne
  by_cases hd : IsWildcard d
  · exact .inl hd
  · refine .inr fun heq => hd ?_
    rw [← Option.some.inj (he.symm.trans heq)]
    exact isWildcard_append t

theorem wildcardList_snoc_plain {host : Bytes} (hw : ¬IsWildcard host) (he : e.host? = some host)
    (d : Bytes) : wildcardList d (es ++ [e]) = wildcardList d es := by
  apply wildcardList_snoc_ne
  rw [he]
  intro heq
  rw [Option.some.inj heq] at hw
  exact hw (isWildcard_append d)

theorem defaults_snoc {host : Bytes} (he : e.host? = some host) :
    defaults (es ++ [e]) = defaults es := by
  cases e with
  | default u => cases he
  | reserve h u => simp [defaults, Entry.default?]
  | exclude h => simp [defaults, Entry.default?]

namespace ConfigParser.Holds

variable {p : ConfigParser} {es : List Entry} {e : Entry} {v : List Upstream}
  {m : List (Bytes × List Upstream)}

theorem init : ({} : ConfigParser).Holds [] where
  specified d := by simp [plainList, listOf]
  subdomainsOnly _ := rfl
  reserved d _ := by simp [plainList, listOf]
  exclusions _ := by simp [wildcardList, listOf]
  upstreams := rfl

/-- An entry for `*.t`. The map of the reserved domains may change at `t`, where the
final copy overwrites it from now on. -/
theorem snoc_wildcard (h : p.Holds es) {t : Bytes} (he : e.host? = some (wildcard ++ t))
    (hv : e.amend (wildcard ++ t) (wildcardList t es) = some v)
    (hm : ∀ d, t ≠ d → m.lookup d = p.domainReservedUpstreams.lookup d) :
    { p with
      subdomainsOnlyExclusions := t :: p.subdomainsOnlyExclusions
      subdomainsOnlyUpstreams := (t, v) :: p.subdomainsOnlyUpstreams
      domainReservedUpstreams := m }.Holds (es ++ [e]) := by
  have hat : wildcardList t (es ++ [e]) = some v := by rw [← hv, wildcardList, listOf_snoc]; rfl
  have hoff : ∀ d, t ≠ d → wildcardList d (es ++ [e]) = wildcardList d es := by
    intro d hd
    apply wildcardList_snoc_ne
    rw [he]
    exact fun heq => hd (List.append_cancel_left (Option.some.inj heq))
  refine ⟨?_, ?_, ?_, ?_, ?_⟩
  · intro d
    rw [plainList_snoc_wildcard he]
    exact h.specified d
  · intro d
    rw [lookup_cons_ite]
    split
    · next hd => rw [← hd, hat]
    · next hd => rw [hoff d hd, h.subdomainsOnly]
  · intro d hnone
    have hd : t ≠ d := by
      rintro rfl
      rw [hat] at hnone
      cases hnone
    rw [hoff d hd] at hnone
    rw [hm d hd, plainList_snoc_wildcard he, h.reserved d hnone]
  · intro d
    rw [List.mem_cons]
    by_cases hd : t = d
    · subst hd
      simp [hat]
    · rw [hoff d hd, ← h.exclusions d]
      exact or_iff_right fun heq => hd heq.symm
  · rw [defaults_snoc he]
    exact h.upstreams

theorem snoc_plain (h : p.Holds es) {host : Bytes} (hw : ¬IsWildcard host)
    (he : e.host? = some host) (hv : e.amend host (plainList host es) = some v)
    (hm : ∀ d, wildcardList d es = none →
      m.lookup d = if host = d then some v else p.domainReservedUpstreams.lookup d) :
    { p with
      specifiedDomainUpstreams := (host, v) :: p.specifiedDomainUpstreams
      domainReservedUpstreams := m }.Holds (es ++ [e]) := by
  have hat : plainList host (es ++ [e]) = some v := by
    rw [← hv, plainList, plainList, if_neg hw, if_neg hw, listOf_snoc]
  have hoff : ∀ d, host ≠ d → plainList d (es ++ [e]) = plainList d es := by
    intro d hd
    refine plainList_snoc_ne (.inr ?_)
    rw [he]
    exact fun heq => hd (Option.some.inj heq)
  have hwild : ∀ d, wildcardList d (es ++ [e]) = wildcardList d es :=
    wildcardList_snoc_plain hw he
  refine ⟨?_, ?_, ?_, ?_, ?_⟩
  · intro d
    rw [lookup_cons_ite]
    split
    · next hd => rw [← hd, hat]
    · next hd => rw [hoff d hd, h.specified]
  · intro d
    rw [hwild]
    exact h.subdomainsOnly d
  · intro d hnone
    rw [hwild] at hnone
    rw [hm d hnone]
    split
    · next hd => rw [← hd, hat]
    · next hd => rw [hoff d hd, h.reserved d hnone]
  · intro d
    rw [hwild]
    exact h.exclusions d
  · rw [defaults_snoc he]
    exact h.upstreams

theorem includeHost (h : p.Holds es) (u : Upstream) (host : Bytes) :
    (p.includeHost u host).Holds (es ++ [.reserve host u]) := by
  unfold ConfigParser.includeHost
  split
  · next hw =>
    refine h.snoc_wildcard ?_ ?_ ?_
    · rw [eq_append_of_isWildcard hw]
      rfl
    · rw [eq_append_of_isWildcard hw, h.subdomainsOnly]
      exact if_pos rfl
    · intro d hd
      rw [lookup_appendTo, if_neg hd]
  · next hw =>
    refine h.snoc_plain hw rfl ?_ ?_
    · rw [h.specified]
      exact if_pos rfl
    · intro d hnone
      rw [lookup_appendTo]
      split
      · next hd => rw [h.specified, h.reserved d hnone, hd]
      · rfl

theorem excludeHost (h : p.Holds es) (host : Bytes) :
    (p.excludeHost host).Holds (es ++ [.exclude host]) := by
  unfold ConfigParser.excludeHost
  split
  · next hw =>
    refine h.snoc_wildcard ?_ ?_ fun d _ => rfl
    · rw [eq_append_of_isWildcard hw]
      rfl
    · rw [eq_append_of_isWildcard hw]
      exact if_pos rfl
  · next hw => exact h.snoc_plain hw rfl (if_pos rfl) fun d _ => lookup_cons_ite _ _ _ _

theorem includeToReserved (u : Upstream) (domains : List Bytes) {p : ConfigParser}
    {es : List Entry} (h : p.Holds es) :
    (p.includeToReserved u domains).Holds (es ++ domains.map fun host => .reserve host u) := by
  unfold ConfigParser.includeToReserved
  induction domains generalizing p es with
  | nil => simpa using h
  | cons host domains ih => simpa using ih (h.includeHost u host)

theorem excludeFromReserved (domains : List Bytes) {p : ConfigParser} {es : List Entry}
    (h : p.Holds es) :
    (p.excludeFromReserved domains).Holds (es ++ domains.map .exclude) := by
  unfold ConfigParser.excludeFromReserved
  induction domains generalizing p es with
  | nil => simpa using h
  | cons host domains ih => simpa using ih (h.excludeHost host)

theorem specify (h : p.Holds es) (domains : List Bytes) (u : Upstream) :
    (p.specify domains u).Holds (es ++ if domains.length = 0 then [.default u]
      else domains.map fun host => .reserve host u) := by
  unfold ConfigParser.specify
  split
  · -- a default upstream is in no list of a domain
    have hplain : ∀ d, plainList d (es ++ [.default u]) = plainList d es :=
      fun d => plainList_snoc_ne (.inr nofun)
    have hwild : ∀ d, wildcardList d (es ++ [.default u]) = wildcardList d es :=
      fun d => wildcardList_snoc_ne nofun
    refine ⟨?_, ?_, ?_, ?_, ?_⟩
    · intro d
      rw [hplain]
      exact h.specified d
    · intro d
      rw [hwild]
      exact h.subdomainsOnly d
    · intro d
      rw [hwild, hplain]
      exact h.reserved d
    · intro d
      rw [hwild]
      exact h.exclusions d
    · rw [defaults, List.filterMap_append, ← defaults, ← h.upstreams]
      rfl
  · exact h.includeToReserved u domains

end ConfigParser.Holds

/-- The index remembers what was made of an address. -/
def ConfigParser.Indexed (env : ConfigEnv) (p : ConfigParser) : Prop :=
  ∀ u x, p.upstreamsIndex.lookup u = some x → env.addressToUpstream u = .ok x

/-- The upstreams that were created. -/
def ConfigParser.created (p : ConfigParser) : List Upstream := p.upstreamsIndex.map Prod.snd

/-- The parser has read the entries `es`. -/
structure ConfigParser.HasRead (env : ConfigEnv) (p : ConfigParser) (es : List Entry) : Prop where
  indexed : p.Indexed env
  holds : p.Holds es
  created : ∀ x, x ∈ p.created ↔ ∃ e ∈ es, e.upstream? = some x

section Run

variable {env : ConfigEnv} {p p' : ConfigParser} {es : List Entry} {domains : List Bytes}

theorem includeToReserved_index (p : ConfigParser) (u : Upstream) (domains : List Bytes) :
    (p.includeToReserved u domains).upstreamsIndex = p.upstreamsIndex := by
  unfold ConfigParser.includeToReserved
  induction domains generalizing p with
  | nil => rfl
  | cons host domains ih =>
    rw [List.foldl_cons, ih, ConfigParser.includeHost]
    split <;> rfl

theorem excludeFromReserved_index (p : ConfigParser) (domains : List Bytes) :
    (p.excludeFromReserved domains).upstreamsIndex = p.upstreamsIndex := by
  unfold ConfigParser.excludeFromReserved
  induction domains generalizing p with
  | nil => rfl
  | cons host domains ih =>
    rw [List.foldl_cons, ih, ConfigParser.excludeHost]
    split <;> rfl

theorem specify_index (p : ConfigParser) (domains : List Bytes) (u : Upstream) :
    (p.specify domains u).upstreamsIndex = p.upstreamsIndex := by
  unfold ConfigParser.specify
  split
  · rfl
  · exact includeToReserved_index p u domains

theorem mem_of_lookup {α : Type} {m : List (Bytes × α)} {k : Bytes} {v : α}
    (h : m.lookup k = some v) : (k, v) ∈ m := by
  induction m with
  | nil => cases h
  | cons e m ih =>
    rw [lookup_cons_ite] at h
    split at h
    · next heq =>
      obtain rfl := Option.some.inj h
      rw [← heq]
      exact List.mem_cons_self
    · exact List.mem_cons_of_mem _ (ih h)

theorem upstream?_upstreamEntries {u : Bytes} {x : Upstream}
    (h : env.addressToUpstream u = .ok x) (y : Upstream) :
    (∃ e ∈ upstreamEntries env domains u, e.upstream? = some y) ↔ y = x := by
  unfold upstreamEntries
  rw [h]
  simp only
  cases domains with
  | nil => simp [Entry.upstream?, eq_comm]
  | cons host domains =>
    simp only [List.length_cons, Nat.add_eq_zero_iff, one_ne_zero, and_false, if_false,
      List.mem_map]
    constructor
    · rintro ⟨-, ⟨host', -, rfl⟩, hy⟩
      exact (Option.some.inj hy).symm
    · rintro rfl
      exact ⟨_, ⟨host, List.mem_cons_self, rfl⟩, rfl⟩

theorem exists_mem_append {P : Entry → Prop} {es es' : List Entry} :
    (∃ e ∈ es ++ es', P e) ↔ (∃ e ∈ es, P e) ∨ ∃ e ∈ es', P e := by
  simp only [List.mem_append, or_and_right, exists_or]

theorem specifyUpstream_read {u : Bytes} (hread : p.HasRead env es)
    (h : p.specifyUpstream env domains u = .ok p') :
    p'.HasRead env (es ++ upstreamEntries env domains u) := by
  unfold ConfigParser.specifyUpstream at h
  split at h
  · next x hx =>
    cases h
    have haddr := hread.indexed u x hx
    refine ⟨fun u' x' hx' => ?_, ?_, fun y => ?_⟩
    · rw [specify_index] at hx'
      exact hread.indexed u' x' hx'
    · rw [upstreamEntries, haddr]
      exact hread.holds.specify domains x
    · have hmem : x ∈ p.created := List.mem_map_of_mem (mem_of_lookup hx)
      rw [ConfigParser.created, specify_index, ← ConfigParser.created, exists_mem_append,
        upstream?_upstreamEntries haddr, hread.created]
      refine ⟨Or.inl, fun hy => hy.elim id ?_⟩
      rintro rfl
      exact (hread.created y).mp hmem
  · split at h
    · cases h
    · next x hx =>
      cases h
      have hholds : { p with upstreamsIndex := (u, x) :: p.upstreamsIndex }.Holds es :=
        ⟨hread.holds.specified, hread.holds.subdomainsOnly, hread.holds.reserved,
          hread.holds.exclusions, hread.holds.upstreams⟩
      refine ⟨fun u' x' hx' => ?_, ?_, fun y => ?_⟩
      · rw [specify_index, lookup_cons_ite] at hx'
        split at hx'
        · next heq => rw [← heq, hx, Option.some.inj hx']
        · exact hread.indexed u' x' hx'
      · rw [upstreamEntries, hx]
        exact hholds.specify domains x
      · rw [ConfigParser.created, specify_index, exists_mem_append, upstream?_upstreamEntries hx,
          ← hread.created, List.map_cons, List.mem_cons, or_comm]
        rfl

theorem specifyUpstream_isOk (hindex : p.Indexed env) (domains : List Bytes) (u : Bytes) :
    (p.specifyUpstream env domains u).isOk = (env.addressToUpstream u).isOk := by
  unfold ConfigParser.specifyUpstream
  split
  · next x hx => rw [hindex u x hx]; rfl
  · split
    · next hx => rw [hx]; rfl
    · next hx => rw [hx]; rfl

theorem goodUpstreams_cons (env : ConfigEnv) (u : Bytes) (us : List Bytes) :
    goodUpstreams env (u :: us) =
      if (env.addressToUpstream u).isOk then u :: goodUpstreams env us else [] :=
  List.takeWhile_cons

/-- What is read of the upstreams of a line, up to the first error; without an error it
is all of them. -/
theorem specifyUpstreams_read (hread : p.HasRead env es) (domains us : List Bytes) :
    (p.specifyUpstreams env domains us).1.HasRead env
      (es ++ (goodUpstreams env us).flatMap (upstreamEntries env domains)) ∧
    ((p.specifyUpstreams env domains us).2 = none → goodUpstreams env us = us) := by
  induction us generalizing p es with
  | nil => exact ⟨by simpa [goodUpstreams, ConfigParser.specifyUpstreams] using hread, fun _ => rfl⟩
  | cons u us ih =>
    have hok := specifyUpstream_isOk hread.indexed domains u
    rw [goodUpstreams_cons, ← hok]
    unfold ConfigParser.specifyUpstreams
    cases hu : p.specifyUpstream env domains u with
    | error err => exact ⟨by simpa [Except.isOk, Except.toBool] using hread, nofun⟩
    | ok q =>
      obtain ⟨hrest, hall⟩ := ih (specifyUpstream_read hread hu)
      refine ⟨by simpa [Except.isOk, Except.toBool] using hrest, fun hnone => ?_⟩
      simp only [Except.isOk, Except.toBool, if_true]
      rw [hall hnone]

theorem excludeFromReserved_read (hread : p.HasRead env es) (domains : List Bytes) :
    (p.excludeFromReserved domains).HasRead env (es ++ domains.map .exclude) where
  indexed u x hx := by
    rw [excludeFromReserved_index] at hx
    exact hread.indexed u x hx
  holds := hread.holds.excludeFromReserved domains
  created x := by
    rw [ConfigParser.created, excludeFromReserved_index, ← ConfigParser.created, hread.created,
      exists_mem_append]
    refine ⟨Or.inl, fun hx => hx.elim id ?_⟩
    rintro ⟨e, he, hup⟩
    obtain ⟨host, -, rfl⟩ := List.mem_map.mp he
    cases hup

theorem parseLine_read {l : Bytes} {err : Option String} (hread : p.HasRead env es)
    (h : p.parseLine env l = some (p', err)) :
    p'.HasRead env (es ++ lineRead env l) ∧ (err = none → lineRead env l = lineEntries env l) := by
  unfold ConfigParser.parseLine at h
  unfold lineRead lineEntries
  split at h
  · next hskip =>
    cases h
    rw [if_pos hskip, if_pos hskip, List.append_nil]
    exact ⟨hread, fun _ => rfl⟩
  · next hskip =>
    rw [if_neg hskip, if_neg hskip]
    split at h
    · next hsplit =>
      cases h
      rw [hsplit]
      exact ⟨by simpa using hread, nofun⟩
    · cases h
    · next u us domains hsplit =>
      rw [hsplit]
      simp only [List.head?_cons, Option.some.injEq]
      split at h
      · next hexcl =>
        cases h
        rw [if_pos hexcl]
        exact ⟨excludeFromReserved_read hread domains, fun _ => (if_pos hexcl).symm⟩
      · next hexcl =>
        obtain ⟨hdone, hall⟩ := specifyUpstreams_read hread domains (u :: us)
        rw [Option.some.inj h] at hdone hall
        rw [if_neg hexcl, if_neg hexcl]
        exact ⟨hdone, fun hnone => by rw [hall hnone]⟩

/-- What is read of the lines; without an error it is all that they say. -/
theorem parseLines_read {lines : List Bytes} {i : Nat} {errs : List ParseError}
    (hread : p.HasRead env es) (h : p.parseLines env i lines = some (p', errs)) :
    p'.HasRead env (es ++ entriesRead env lines) ∧
      (errs = [] → entriesRead env lines = entries env lines) := by
  induction lines generalizing p es i errs with
  | nil =>
    cases h
    exact ⟨by simpa [entriesRead] using hread, fun _ => rfl⟩
  | cons l lines ih =>
    simp only [ConfigParser.parseLines] at h
    split at h
    · cases h
    · next q err hq =>
      obtain ⟨⟨q', errs'⟩, hrest, heq⟩ := Option.map_eq_some_iff.mp h
      obtain ⟨rfl, rfl⟩ := Prod.mk.inj heq
      obtain ⟨hline, hlineAll⟩ := parseLine_read hread hq
      obtain ⟨hlines, hlinesAll⟩ := ih hline hrest
      refine ⟨by simpa [entriesRead] using hlines, fun hnil => ?_⟩
      obtain ⟨herr, hnil'⟩ := List.append_eq_nil_iff.mp hnil
      have hnone : err = none := by
        cases err with
        | none => rfl
        | some e => cases herr
      rw [entriesRead, entries, List.flatMap_cons, List.flatMap_cons, hlineAll hnone]
      exact congrArg _ (hlinesAll hnil')

theorem hasRead_init (env : ConfigEnv) : ({} : ConfigParser).HasRead env [] where
  indexed _ _ hx := by cases hx
  holds := .init
  created := by simp [ConfigParser.created]

end Run

/-- An accepted configuration comes from a parser whose maps hold the lists of all the
entries. -/
theorem accepts_holds {env : ConfigEnv} {lines : List Bytes} {conf : UpstreamConfig}
    (h : Accepts env lines conf) : ∃ p : ConfigParser, p.config = conf ∧
      p.Holds (entries env lines) := by
  obtain ⟨⟨p, errs⟩, hp, heq⟩ := Option.map_eq_some_iff.mp h
  obtain ⟨rfl, rfl⟩ := Prod.mk.inj heq
  obtain ⟨hread, hall⟩ := parseLines_read (hasRead_init env) hp
  have hholds := hread.holds
  rw [hall rfl] at hholds
  exact ⟨p, rfl, hholds⟩

end DnsProxy
