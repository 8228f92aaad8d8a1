import DnsProxy.Lookups

/-!
# Dialing an upstream by name

How a connection to an upstream is made: `newDialerInitializer` chooses between the dialer of
the options, the address itself and a resolver; `ResolveDialContext` looks the host up and
sorts its addresses; the handler of `NewDialContext` dials them one after the other.

The resolvers are built of others: `ParallelResolver` and `ConsequentResolver` over any
resolvers, down to `StaticResolver`, `HostsResolver` and those whose lookups are made
elsewhere.

* `Resolver.Ends.offers`: a resolver returns the addresses that one of those at the bottom
  gave, as they are, or none.
* `dialAddrs_ok`, `dialAddrs_error`: the first address that can be dialed.
-/

namespace DnsProxy

open FanIn Bootstrap

/-! ## Resolvers -/

inductive Resolver
  | static (as : List NetAddr)
  /-- With `ByName` of the storage. -/
  | hosts (byName : Bytes → List NetAddr)
  /-- A resolver whose lookups may end in these ways. -/
  | other (ends : Network → Bytes → Ended → Prop)
  | parallel (rs : List Resolver)
  | consequent (rs : List Resolver)

/-- `HostsResolver.LookupNetIP`. -/
def hostsLookupNetIP (byName : Bytes → List NetAddr) (network : Network) (host : Bytes) :
    List NetAddr :=
  match network with
  | .ip => byName host
  | .only f => (byName host).filter fun a => a.1.length = f.size

def errNoResolvers : Err := .text "no resolvers specified"

/-- `ParallelResolver.LookupNetIP` over resolvers that end in these ways. -/
def ParallelEnds (os : List Ended) (r : Ended) : Prop :=
  match os with
  | [] => r = .failed (.of errNoResolvers)
  | [o] => r = o
  | _ => ∃ n st, After (resolving os) n st ∧ st.caller = .inr r

section Ends

variable (network : Network) (host : Bytes)

mutual

/-- `LookupNetIP` may end so. -/
inductive Resolver.Ends : Resolver → Ended → Prop
  | static {as : List NetAddr} : Resolver.Ends (.static as) (.addrs as)
  | hosts {byName : Bytes → List NetAddr} :
      Resolver.Ends (.hosts byName) (.addrs (hostsLookupNetIP byName network host))
  | other {ends : Network → Bytes → Ended → Prop} {o : Ended} :
      ends network host o → Resolver.Ends (.other ends) o
  | parallel {rs : List Resolver} {os : List Ended} {r : Ended} :
      os.length = rs.length →
      (∀ (i : Nat) (h : i < rs.length) (h' : i < os.length), Resolver.Ends rs[i] os[i]) →
      ParallelEnds os r → Resolver.Ends (.parallel rs) r
  | consequentNone : Resolver.Ends (.consequent []) (.failed (.of errNoResolvers))
  | consequent {r : Resolver} {rs : List Resolver} {o : Ended} :
      ConsequentEnds (r :: rs) [] o → Resolver.Ends (.consequent (r :: rs)) o

/-- The loop of `ConsequentResolver.LookupNetIP` over the rest of the resolvers, with the
errors so far. The nil error of an empty response is not one of those that are joined. -/
inductive ConsequentEnds : List Resolver → List Err → Ended → Prop
  | none {errs : List Err} : ConsequentEnds [] errs (joined errs)
  | found {r : Resolver} {rs : List Resolver} {errs : List Err} {as : List NetAddr} :
      Resolver.Ends r (.addrs as) → 0 < as.length → ConsequentEnds (r :: rs) errs (.addrs as)
  | empty {r : Resolver} {rs : List Resolver} {errs : List Err} {o : Ended} :
      Resolver.Ends r (.addrs []) → ConsequentEnds rs errs o → ConsequentEnds (r :: rs) errs o
  | failed {r : Resolver} {rs : List Resolver} {errs : List Err} {es : Errs} {o : Ended} :
      Resolver.Ends r (.failed es) → ConsequentEnds rs (errs ++ es.1) o →
      ConsequentEnds (r :: rs) errs o
  | panicked {r : Resolver} {rs : List Resolver} {errs : List Err} {e : Err} :
      Resolver.Ends r (.panicked e) → ConsequentEnds (r :: rs) errs (.panicked e)

end

/-- A resolver at the bottom gives these addresses. -/
inductive Resolver.Offers : Resolver → List NetAddr → Prop
  | static {as : List NetAddr} : Resolver.Offers (.static as) as
  | hosts {byName : Bytes → List NetAddr} :
      Resolver.Offers (.hosts byName) (hostsLookupNetIP byName network host)
  | other {ends : Network → Bytes → Ended → Prop} {as : List NetAddr} :
      ends network host (.addrs as) → Resolver.Offers (.other ends) as
  | parallel {rs : List Resolver} {r : Resolver} {as : List NetAddr} :
      r ∈ rs → Resolver.Offers r as → Resolver.Offers (.parallel rs) as
  | consequent {rs : List Resolver} {r : Resolver} {as : List NetAddr} :
      r ∈ rs → Resolver.Offers r as → Resolver.Offers (.consequent rs) as

variable {network host}

theorem mem_of_parallelEnds {os : List Ended} {as : List NetAddr}
    (h : ParallelEnds os (.addrs as)) : .addrs as ∈ os := by
  match os, h with
  | [o], h => exact List.mem_singleton.mpr h
  | o :: o' :: os, ⟨n, st, hafter, hcaller⟩ =>
    have hcompletes : Completes (resolving (o :: o' :: os)) (ParallelResult (o :: o' :: os)) :=
      completes_ofList_none fun _ hperm => parallelResult_run (List.cons_ne_nil _ _) hperm
    cases hcompletes.returned n st _ hafter hcaller with
    | first hmem => exact hmem

theorem addrs_of_joined {errs : List Err} {as : List NetAddr} (h : joined errs = .addrs as) :
    as = [] := by
  unfold joined at h
  split at h
  · cases h
    rfl
  · cases h

mutual

/-- What a resolver returns is what one of those at the bottom gives. -/
theorem Resolver.Ends.offers : ∀ {r : Resolver} {o : Ended}, r.Ends network host o →
    ∀ as, o = .addrs as → as = [] ∨ r.Offers network host as
  | _, _, .static, _, rfl => .inr .static
  | _, _, .hosts, _, rfl => .inr .hosts
  | _, _, .other h, _, rfl => .inr (.other h)
  | _, _, @Resolver.Ends.parallel _ _ rs os r hlen hends hr, as, heq => by
    subst heq
    obtain ⟨i, hi, hget⟩ := List.mem_iff_getElem.mp (mem_of_parallelEnds hr)
    have hi' : i < rs.length := hlen ▸ hi
    exact ((hends i hi' hi).offers as hget).imp_right (.parallel (List.getElem_mem hi'))
  | _, _, .consequentNone, _, heq => by cases heq
  | _, _, .consequent h, as, heq => by
    refine (h.offers as heq).imp_right ?_
    rintro ⟨r, hr, hoffers⟩
    exact .consequent hr hoffers

theorem ConsequentEnds.offers : ∀ {rs : List Resolver} {errs : List Err} {o : Ended},
    ConsequentEnds network host rs errs o →
    ∀ as, o = .addrs as → as = [] ∨ ∃ r ∈ rs, r.Offers network host as
  | _, _, _, .none, _, heq => .inl (addrs_of_joined heq)
  | _, _, _, .found h _, as, heq =>
    (h.offers as heq).imp_right fun hoffers => ⟨_, List.mem_cons_self, hoffers⟩
  | _, _, _, .empty _ h, as, heq => by
    refine (h.offers as heq).imp_right ?_
    rintro ⟨r, hr, hoffers⟩
    exact ⟨r, List.mem_cons_of_mem _ hr, hoffers⟩
  | _, _, _, .failed _ h, as, heq => by
    refine (h.offers as heq).imp_right ?_
    rintro ⟨r, hr, hoffers⟩
    exact ⟨r, List.mem_cons_of_mem _ hr, hoffers⟩
  | _, _, _, .panicked _, _, heq => by cases heq

end

end Ends

/-! ## Dialing -/

section Dial

variable {α κ : Type}

/-- The loop of the handler of `NewDialContext`. -/
def dialAddrs (dial : α → Except Err κ) : List α → List Err → Except (List Err) κ
  | [], errs => .error errs
  | addr :: addrs, errs =>
    match dial addr with
    | .ok conn => .ok conn
    | .error e => dialAddrs dial addrs (errs ++ [e])

/-- The handler of `NewDialContext`. -/
def newDialContext (addrs : List α) (dial : α → Except Err κ) : Except (List Err) κ :=
  if addrs.length = 0 then .error [.text "no addresses"] else dialAddrs dial addrs []

variable {dial : α → Except Err κ} {addrs : List α} {errs : List Err}

/-- The addresses before the one that is connected to were tried. -/
theorem dialAddrs_ok {conn : κ} (h : dialAddrs dial addrs errs = .ok conn) :
    ∃ before addr after, addrs = before ++ addr :: after ∧ dial addr = .ok conn ∧
      ∀ b ∈ before, ∃ e, dial b = .error e := by
  induction addrs generalizing errs with
  | nil => cases h
  | cons a addrs ih =>
    rw [dialAddrs] at h
    cases ha : dial a with
    | ok conn' =>
      rw [ha] at h
      cases h
      exact ⟨[], a, addrs, rfl, ha, List.forall_mem_nil _⟩
    | error e =>
      rw [ha] at h
      obtain ⟨before, addr, after, rfl, haddr, hbefore⟩ := ih h
      exact ⟨a :: before, addr, after, rfl, haddr, List.forall_mem_cons.mpr ⟨⟨e, ha⟩, hbefore⟩⟩

theorem dialAddrs_error {errs' : List Err} (h : dialAddrs dial addrs errs = .error errs') :
    ∀ a ∈ addrs, ∃ e, dial a = .error e := by
  induction addrs generalizing errs with
  | nil => exact List.forall_mem_nil _
  | cons a addrs ih =>
    rw [dialAddrs] at h
    cases ha : dial a with
    | ok conn =>
      rw [ha] at h
      cases h
    | error e =>
      rw [ha] at h
      exact List.forall_mem_cons.mpr ⟨⟨e, ha⟩, ih h⟩

end Dial

/-! ## The handler for an upstream -/

/-- What the handler for an upstream dials. -/
inductive Handler
  /-- `DialContext` of the options, with the host of the URL. -/
  | networkDialer (host : Bytes)
  /-- The host of the URL, which is an address with a port. -/
  | direct (host : Bytes)
  | addrs (as : List (NetAddr × UInt16))
deriving DecidableEq

structure DialOptions where
  hasNetworkDialer : Bool
  /-- The default is `net.DefaultResolver`. -/
  bootstrap : Resolver
  preferIPv6 : Bool

/-- The functions on host names of the libraries. -/
structure HostPlatform where
  /-- `netutil.SplitHostPort`, with its error. -/
  splitHostPort : Bytes → Except Err (Bytes × UInt16)
  /-- `netutil.IsValidIPPortString`. -/
  isValidIPPortString : Bytes → Bool

section Handler

variable (pr : Preference) (hp : HostPlatform)

/-- `ResolveDialContext` for a resolver that is not nil: it may end with this handler, or
without one. -/
inductive ResolveDialContext (r : Resolver) (preferV6 : Bool) (uHost : Bytes) :
    Except Errs Handler → Prop
  | badHost {e : Err} : hp.splitHostPort uHost = .error e →
      ResolveDialContext r preferV6 uHost (.error (.of e))
  | unresolved {host : Bytes} {port : UInt16} {errs : Errs} :
      hp.splitHostPort uHost = .ok (host, port) → r.Ends .ip host (.failed errs) →
      ResolveDialContext r preferV6 uHost (.error errs)
  | resolved {host : Bytes} {port : UInt16} {as : List NetAddr} :
      hp.splitHostPort uHost = .ok (host, port) → r.Ends .ip host (.addrs as) →
      ResolveDialContext r preferV6 uHost (.ok (.addrs ((pr.sort preferV6 as).map (·, port))))

/-- The initializer that `newDialerInitializer` returns. -/
def DialerInitializer (opts : DialOptions) (uHost : Bytes) (h : Except Errs Handler) : Prop :=
  if opts.hasNetworkDialer then h = .ok (.networkDialer uHost)
  else if hp.isValidIPPortString uHost then h = .ok (.direct uHost)
  else ResolveDialContext pr hp opts.bootstrap opts.preferIPv6 uHost h

/-- What is dialed: the connections of the dialer of the options, and those of the system. -/
structure Dialer (κ : Type) where
  networkDialer : Bytes → Except Err κ
  dialHost : Bytes → Except Err κ
  dialAddr : NetAddr × UInt16 → Except Err κ

/-- A call of the handler. -/
def Handler.dial {κ : Type} (h : Handler) (d : Dialer κ) : Except (List Err) κ :=
  match h with
  | .networkDialer host => (d.networkDialer host).mapError fun e => [e]
  | .direct host => newDialContext [host] d.dialHost
  | .addrs as => newDialContext as d.dialAddr

end Handler

/-- An address of the other family is connected to only if those of the preferred one cannot
be. -/
theorem preferred_tried {κ : Type} {pr : Preference} {preferV6 : Bool} {as : List NetAddr}
    {port : UInt16} {dial : NetAddr × UInt16 → Except Err κ} {conn : κ}
    (h : newDialContext ((pr.sort preferV6 as).map (·, port)) dial = .ok conn) :
    ∃ a ∈ as, dial (a, port) = .ok conn ∧
      (¬Preferred preferV6 a →
        ∀ b ∈ as, Preferred preferV6 b → ∃ e, dial (b, port) = .error e) := by
  unfold newDialContext at h
  split at h
  · cases h
  · obtain ⟨before, addr, after, heq, hconn, hbefore⟩ := dialAddrs_ok h
    obtain ⟨before', rest, hsort, rfl, hrest⟩ := List.map_eq_append_iff.mp heq
    obtain ⟨a, after', rfl, rfl, rfl⟩ := List.map_eq_cons_iff.mp hrest
    have hperm := pr.perm_sort preferV6 as
    have hpairs := pr.pairwise_sort preferV6 as
    rw [hsort] at hperm hpairs
    refine ⟨a, hperm.mem_iff.mp (by simp), hconn, fun ha b hb hpref => ?_⟩
    -- After an address of the other family there is no preferred one.
    obtain ⟨-, htail, -⟩ := List.pairwise_append.mp hpairs
    rcases List.mem_append.mp (hperm.mem_iff.mpr hb) with hmem | hmem
    · exact hbefore _ (List.mem_map_of_mem hmem)
    · rcases List.mem_cons.mp hmem with rfl | hmem
      · exact absurd hpref ha
      · exact absurd ((List.pairwise_cons.mp htail).1 b hmem hpref) ha

/-- The handler for an upstream that is known by a name has the addresses with which the lookup
of the name ended, and which one of the resolvers gave, if there are any. A connection goes to
one of them and to the port of the URL; to an address of the other family only if none of the
preferred family can be connected to. It fails just if none of the addresses can be connected
to. -/
theorem dial_preferred {κ : Type} (pr : Preference) (hp : HostPlatform) (opts : DialOptions)
    {uHost host : Bytes} {port : UInt16} (hname : hp.isValidIPPortString uHost = false)
    (hsplit : hp.splitHostPort uHost = .ok (host, port)) (hown : opts.hasNetworkDialer = false)
    {handler : Handler} (h : DialerInitializer pr hp opts uHost (.ok handler)) (d : Dialer κ) :
    ∃ as, opts.bootstrap.Ends .ip host (.addrs as) ∧
      handler = .addrs ((pr.sort opts.preferIPv6 as).map (·, port)) ∧
      (as = [] ∨ opts.bootstrap.Offers .ip host as) ∧
      (∀ conn, handler.dial d = .ok conn →
        ∃ a ∈ as, d.dialAddr (a, port) = .ok conn ∧
          (¬Preferred opts.preferIPv6 a →
            ∀ b ∈ as, Preferred opts.preferIPv6 b → ∃ e, d.dialAddr (b, port) = .error e)) ∧
      ∀ errs, handler.dial d = .error errs → ∀ a ∈ as, ∃ e, d.dialAddr (a, port) = .error e := by
  unfold DialerInitializer at h
  rw [if_neg (by simp [hown]), if_neg (by simp [hname])] at h
  cases h with
  | @resolved host' port' as hsplit' hends =>
    rw [hsplit] at hsplit'
    cases hsplit'
    refine ⟨as, hends, rfl, hends.offers as rfl, fun conn hconn => preferred_tried hconn, ?_⟩
    intro errs herr a ha
    have hmem : (a, port) ∈ (pr.sort opts.preferIPv6 as).map (·, port) :=
      List.mem_map_of_mem ((pr.perm_sort opts.preferIPv6 as).mem_iff.mpr ha)
    unfold Handler.dial newDialContext at herr
    dsimp only at herr
    rw [if_neg (by simpa using List.length_pos_of_mem hmem |>.ne')] at herr
    exact dialAddrs_error herr _ hmem

/-! ## A name with an address of each family -/

def exampleResolver : Resolver :=
  .consequent [.hosts fun _ => [], .parallel [.static [exampleAddr4, exampleAddr6]]]

def exampleHostPlatform : HostPlatform where
  splitHostPort _ := .ok (ascii "dns.example", 853)
  isValidIPPortString _ := false

/-- IPv6 is preferred, and not connected. -/
def ipv4Only : Dialer NetAddr where
  networkDialer _ := .error (.text "no dialer")
  dialHost _ := .error (.text "no address")
  dialAddr x := if Preferred true x.1 then .error (.text "unreachable") else .ok x.1

theorem exampleResolver_ends :
    exampleResolver.Ends .ip (ascii "dns.example") (.addrs [exampleAddr4, exampleAddr6]) := by
  have hone := @Resolver.Ends.parallel .ip (ascii "dns.example")
    [.static [exampleAddr4, exampleAddr6]] [.addrs [exampleAddr4, exampleAddr6]] _ rfl ?_ rfl
  · exact .consequent (.empty .hosts (.found hone Nat.two_pos))
  intro i hi _
  obtain rfl := Nat.lt_one_iff.mp hi
  exact .static

/-- The IPv4 address is connected to after the IPv6 address has failed. -/
theorem dial_preferred_ipv4Only :
    ∃ as : List NetAddr, exampleResolver.Ends .ip (ascii "dns.example") (.addrs as) ∧
      exampleAddr4 ∈ as ∧
      ∀ b ∈ as, Preferred true b → ∃ e, ipv4Only.dialAddr (b, 853) = .error e := by
  have hready : DialerInitializer byRank exampleHostPlatform ⟨false, exampleResolver, true⟩
      (ascii "dns.example:853") (.ok (.addrs [(exampleAddr6, 853), (exampleAddr4, 853)])) := by
    have hsort : byRank.sort true [exampleAddr4, exampleAddr6] = [exampleAddr6, exampleAddr4] := by
      decide +kernel
    have hresolved := @ResolveDialContext.resolved byRank exampleHostPlatform exampleResolver true
      (ascii "dns.example:853") _ _ _ rfl exampleResolver_ends
    rwa [hsort] at hresolved
  obtain ⟨as, hends, -, -, hconn, -⟩ := dial_preferred byRank exampleHostPlatform
    ⟨false, exampleResolver, true⟩ rfl rfl rfl hready ipv4Only
  obtain ⟨a, ha, hdial, htried⟩ := hconn exampleAddr4 (by decide +kernel)
  have hother : ¬Preferred true a := by
    intro hpref
    simp [ipv4Only, hpref] at hdial
  have heq : a = exampleAddr4 := by simpa [ipv4Only, hother] using hdial
  exact ⟨as, hends, heq ▸ ha, htried hother⟩

end DnsProxy
