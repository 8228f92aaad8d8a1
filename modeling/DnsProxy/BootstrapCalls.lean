import DnsProxy.Lookups
import DnsProxy.Lib.Tasks

/-!
# The bootstrap cache and calls side by side

`CachingResolver.LookupNetIP` called by any number of goroutines. The mutex makes `findCached`
and `setCached` steps of their own; between the two the upstream is asked, and other calls go
on. The results of several calls for a host so replace one another in the cache.

* `Lookup.resolving`: the two goroutines of `UpstreamResolver.lookupNetIP` for both families,
  which come to the lookup with one of the two orders (`Lookup.eq_of_mayReturn`).
* `Step`: the steps of the calls.
* `Kept`, `Served`: where the results in the cache and the results of the calls come from.
-/

namespace DnsProxy.Bootstrap

open FanIn Tasks

/-! ## Both families at once -/

/-- The loop of `lookupNetIP`, for one result. -/
def familyCollector :
    Collector (Except Err IPResult) (IPResult × List Err) (Except Err IPResult) where
  take acc r := .inl (receiveResult acc r)
  stop acc := if acc.2 = [] then .ok acc.1 else .error (joinErrs acc.2)

theorem run_familyCollector (acc : IPResult × List Err) (rs : List (Except Err IPResult)) :
    familyCollector.run acc rs = familyCollector.stop (rs.foldl receiveResult acc) := by
  induction rs generalizing acc with
  | nil => rfl
  | cons r rs ih =>
    rw [Collector.run_cons, List.foldl_cons]
    exact ih _

namespace Lookup

variable (l : Lookup)

/-- The goroutines of `resolveAsync`. -/
def resolving : FanIn.System (Fin 2) (Except Err IPResult) (IPResult × List Err)
    (Except Err IPResult) :=
  .ofList [.ip4, .ip6] l.request familyCollector ({}, []) none

/-- The lookup whose results come in the other order, or in the same one. -/
def arriving (ip6First : Bool) : Lookup := { l with ip6First := ip6First }

theorem resolving_completes (hnet : l.network = .ip) :
    Completes l.resolving fun r => ∃ ip6First, r = (l.arriving ip6First).lookupNetIP := by
  refine completes_ofList_none fun ys hperm => ?_
  have hlookup (ip6First : Bool) (horder : (l.arriving ip6First).order = ys) :
      familyCollector.run ({}, []) (ys.map l.request) = (l.arriving ip6First).lookupNetIP := by
    rw [run_familyCollector, ← horder]
    unfold lookupNetIP
    rw [show (l.arriving ip6First).network = .ip from hnet]
    rfl
  match ys, hperm.length_eq with
  | [f, g], _ =>
    rcases LookupCall.perm_pair hperm with ⟨rfl, rfl⟩ | ⟨rfl, rfl⟩
    · exact ⟨false, hlookup false rfl⟩
    · exact ⟨true, hlookup true rfl⟩

/-- `UpstreamResolver.lookupNetIP` may return so. -/
def MayReturn (r : Except Err IPResult) : Prop :=
  match l.network with
  | .only f => r = l.request f
  | .ip => ∃ n st, After l.resolving n st ∧ st.caller = .inr r

theorem exists_mayReturn : ∃ r, l.MayReturn r := by
  unfold MayReturn
  split
  · exact ⟨_, rfl⟩
  · next hnet =>
    obtain ⟨n, st, r, hafter, hcaller⟩ := (l.resolving_completes hnet).exists_returned
    exact ⟨r, n, st, hafter, hcaller⟩

variable {l}

theorem eq_of_mayReturn {r : Except Err IPResult} (h : l.MayReturn r) :
    ∃ ip6First, r = (l.arriving ip6First).lookupNetIP := by
  unfold MayReturn at h
  split at h
  · next f hnet =>
    refine ⟨l.ip6First, h.trans ?_⟩
    unfold lookupNetIP
    rw [show (l.arriving l.ip6First).network = .only f from hnet]
    rfl
  · next hnet =>
    obtain ⟨n, st, hafter, hcaller⟩ := h
    exact (l.resolving_completes hnet).returned n st r hafter hcaller

theorem admits_of_mayReturn {res : IPResult} (h : l.MayReturn (.ok res)) :
    ∀ a ∈ res.addrs.getD [], l.network.Admits a := by
  obtain ⟨ip6First, hres⟩ := eq_of_mayReturn h
  exact @admits (l.arriving ip6First) res hres.symm

end Lookup

/-! ## Calls -/

section Calls

-- `strings.ToLower`
variable (lower : Bytes → Bytes)

inductive Progress
  | started
  /-- There is nothing in the cache, and the upstream is asked. -/
  | missed
  | ended (r : Except Err (List Addr))

structure Caller where
  call : Call
  progress : Progress

/-- The cache and the calls. -/
abbrev Calls := Tasks.System Cache Caller

inductive Step : Calls → Calls → Prop
  | arrive {s : Calls} (c : Call) : Step s (s.spawn ⟨c, .started⟩)
  | hit {s : Calls} {i : Nat} {c : Call} {addrs : List Addr} :
      s.tasks[i]? = some ⟨c, .started⟩ → findCached s.shared (c.name lower) c.now = some addrs →
      Step s (s.put i s.shared ⟨c, .ended (.ok addrs)⟩)
  | miss {s : Calls} {i : Nat} {c : Call} :
      s.tasks[i]? = some ⟨c, .started⟩ → findCached s.shared (c.name lower) c.now = none →
      Step s (s.put i s.shared ⟨c, .missed⟩)
  | fail {s : Calls} {i : Nat} {c : Call} {e : Err} :
      s.tasks[i]? = some ⟨c, .missed⟩ → (c.lookup lower).MayReturn (.error e) →
      Step s (s.put i s.shared ⟨c, .ended (.error e)⟩)
  | store {s : Calls} {i : Nat} {c : Call} {res : IPResult} :
      s.tasks[i]? = some ⟨c, .missed⟩ → (c.lookup lower).MayReturn (.ok res) →
      Step s (s.put i (setCached s.shared (c.name lower) res)
        ⟨c, .ended (.ok (res.addrs.getD []))⟩)

/-- No calls yet. -/
def noCalls : Calls := ⟨fun _ => none, []⟩

/-- The call has asked the upstream for the host, and returned this result. -/
def Asked (s : Calls) (host : Bytes) (c : Call) (res : IPResult) : Prop :=
  (∃ i : Nat, s.tasks[i]? = some ⟨c, .ended (.ok (res.addrs.getD []))⟩) ∧ c.name lower = host ∧
    (c.lookup lower).MayReturn (.ok res)

/-- A result in the cache is what a call has asked the upstream for. -/
def Kept (s : Calls) : Prop :=
  ∀ host res, s.shared host = some res → ∃ c, Asked lower s host c res

/-- Where the result of a call comes from. Addresses come from a lookup for its own name: the
call made it, or another one did and it had not expired. The call fails if its own lookup
does. -/
def Served (s : Calls) (c : Call) : Except Err (List Addr) → Prop
  | .ok addrs => ∃ c' res, Asked lower s (c.name lower) c' res ∧ addrs = res.addrs.getD [] ∧
      (c' = c ∨ c.now.1 ≤ res.expire) ∧ ∀ a ∈ addrs, c'.network.Admits a
  | .error e => (c.lookup lower).MayReturn (.error e)

structure CallsInv (s : Calls) : Prop where
  kept : Kept lower s
  served : ∀ (i : Nat) c r, s.tasks[i]? = some ⟨c, .ended r⟩ → Served lower s c r

variable {lower} {s s' : Calls}

theorem ended_of_step {i : Nat} {c : Call} {r : Except Err (List Addr)}
    (hstep : Step lower s s') (h : s.tasks[i]? = some ⟨c, .ended r⟩) :
    s'.tasks[i]? = some ⟨c, .ended r⟩ := by
  have hput {j : Nat} {c' : Call} {p : Progress} {cache : Cache} {t : Caller}
      (hj : s.tasks[j]? = some ⟨c', p⟩) (hp : ∀ r, p ≠ .ended r) :
      (s.put j cache t).tasks[i]? = some ⟨c, .ended r⟩ := by
    rw [System.getElem?_put_ne fun hij => ?_]
    · exact h
    · rw [hij, h] at hj
      cases hj
      exact hp r rfl
  cases hstep with
  | arrive c' => exact System.getElem?_spawn h _
  | hit hj _ => exact hput hj nofun
  | miss hj _ => exact hput hj nofun
  | fail hj _ => exact hput hj nofun
  | store hj _ => exact hput hj nofun

theorem Asked.step {host : Bytes} {c : Call} {res : IPResult} (h : Asked lower s host c res)
    (hstep : Step lower s s') : Asked lower s' host c res := by
  obtain ⟨⟨i, hi⟩, hname, hres⟩ := h
  exact ⟨⟨i, ended_of_step hstep hi⟩, hname, hres⟩

theorem Served.step {c : Call} {r : Except Err (List Addr)} (h : Served lower s c r)
    (hstep : Step lower s s') : Served lower s' c r := by
  cases r with
  | error e => exact h
  | ok addrs =>
    obtain ⟨c', res, hasked, hrest⟩ := h
    exact ⟨c', res, hasked.step hstep, hrest⟩

theorem findCached_eq_some {cache : Cache} {host : Bytes} {now : Clock} {addrs : List Addr}
    (h : findCached cache host now = some addrs) :
    ∃ res, cache host = some res ∧ now.1 ≤ res.expire ∧ res.addrs = some addrs := by
  unfold findCached at h
  split at h
  · cases h
  · next res hres =>
    split at h
    · cases h
    · next hlive => exact ⟨res, hres, Nat.le_of_not_lt hlive, h⟩

theorem CallsInv.put {i : Nat} {c : Call} {p p' : Progress} {cache : Cache}
    (h : CallsInv lower s) (hi : s.tasks[i]? = some ⟨c, p⟩)
    (hstep : Step lower s (s.put i cache ⟨c, p'⟩))
    (hkept : Kept lower (s.put i cache ⟨c, p'⟩))
    (hserved : ∀ r, p' = .ended r → Served lower (s.put i cache ⟨c, p'⟩) c r) :
    CallsInv lower (s.put i cache ⟨c, p'⟩) := by
  refine ⟨hkept, fun j c' r hj => ?_⟩
  by_cases hij : i = j
  · subst hij
    rw [System.getElem?_put_self hi] at hj
    cases hj
    exact hserved r rfl
  · rw [System.getElem?_put_ne hij] at hj
    exact (h.served j c' r hj).step hstep

theorem Kept.put {i : Nat} {t : Caller} (h : Kept lower s)
    (hstep : Step lower s (s.put i s.shared t)) : Kept lower (s.put i s.shared t) := by
  intro host res hres
  obtain ⟨c, hc⟩ := h host res hres
  exact ⟨c, hc.step hstep⟩

theorem CallsInv.step (h : CallsInv lower s) (hstep : Step lower s s') : CallsInv lower s' := by
  cases hstep with
  | arrive c =>
    refine ⟨fun host res hres => ?_, fun i c' r hi => ?_⟩
    · obtain ⟨c', hc'⟩ := h.kept host res hres
      exact ⟨c', hc'.step (.arrive c)⟩
    · rcases System.getElem?_spawn_cases hi with hi | ⟨-, ht⟩
      · exact (h.served i c' r hi).step (.arrive c)
      · cases ht
  | @hit i c addrs hi hfound =>
    refine h.put hi (.hit hi hfound) (h.kept.put (.hit hi hfound)) fun r hr => ?_
    cases hr
    obtain ⟨res, hcache, hlive, haddrs⟩ := findCached_eq_some hfound
    obtain ⟨c', hasked⟩ := h.kept _ res hcache
    have hgetD : addrs = res.addrs.getD [] := by rw [haddrs, Option.getD_some]
    refine ⟨c', res, hasked.step (.hit hi hfound), hgetD, .inr hlive, ?_⟩
    rw [hgetD]
    exact Lookup.admits_of_mayReturn hasked.2.2
  | @miss i c hi hfound =>
    exact h.put hi (.miss hi hfound) (h.kept.put (.miss hi hfound)) nofun
  | @fail i c e hi hlookup =>
    refine h.put hi (.fail hi hlookup) (h.kept.put (.fail hi hlookup)) fun r hr => ?_
    cases hr
    exact hlookup
  | @store i c res hi hlookup =>
    have hasked : Asked lower (s.put i (setCached s.shared (c.name lower) res)
        ⟨c, .ended (.ok (res.addrs.getD []))⟩) (c.name lower) c res :=
      ⟨⟨i, System.getElem?_put_self hi _⟩, rfl, hlookup⟩
    refine h.put hi (.store hi hlookup) (fun host res' hres => ?_) fun r hr => ?_
    · simp only [System.put, setCached, Function.update_apply] at hres
      split at hres
      · next hhost =>
        cases hres
        exact ⟨c, hhost ▸ hasked⟩
      · obtain ⟨c', hc'⟩ := h.kept host res' hres
        exact ⟨c', hc'.step (.store hi hlookup)⟩
    · cases hr
      exact ⟨c, res, hasked, rfl, .inl rfl, Lookup.admits_of_mayReturn hlookup⟩

theorem callsInv_of_reached (h : Relation.ReflTransGen (Step lower) noCalls s) :
    CallsInv lower s := by
  induction h with
  | refl => exact ⟨nofun, nofun⟩
  | tail _ hstep ih => exact ih.step hstep

theorem step_of_not_ended {i : Nat} {c : Call} {p : Progress} (hi : s.tasks[i]? = some ⟨c, p⟩)
    (hp : ∀ r, p ≠ .ended r) : ∃ cache p', Step lower s (s.put i cache ⟨c, p'⟩) := by
  cases p with
  | started =>
    cases hfound : findCached s.shared (c.name lower) c.now with
    | none => exact ⟨_, _, .miss hi hfound⟩
    | some addrs => exact ⟨_, _, .hit hi hfound⟩
  | missed =>
    obtain ⟨r, hlookup⟩ := (c.lookup lower).exists_mayReturn
    cases r with
    | error e => exact ⟨_, _, .fail hi hlookup⟩
    | ok res => exact ⟨_, _, .store hi hlookup⟩
  | ended r => exact absurd rfl (hp r)

end Calls

/-- In every interleaving of the calls, the addresses that a call returns come from a lookup
for its own host: the call made it itself, or another call did, and the result had not expired
when the call began. The addresses are of the network that this lookup was for. A call fails
only if its own lookup failed, and no call waits for another one. -/
theorem cachingResolver_interleaved (lower : Bytes → Bytes) (s : Calls)
    (h : Relation.ReflTransGen (Step lower) noCalls s) {i : Nat} {c : Call} {p : Progress}
    (hi : s.tasks[i]? = some ⟨c, p⟩) :
    (∀ r, p = .ended r → Served lower s c r) ∧
      ((∀ r, p ≠ .ended r) → ∃ cache p', Step lower s (s.put i cache ⟨c, p'⟩)) := by
  refine ⟨fun r hr => ?_, step_of_not_ended hi⟩
  subst hr
  exact (callsInv_of_reached h).served i c r hi

/-- A call for the host and, at the same time, another one that finds its result. -/
def twoCalls : Calls :=
  ⟨setCached (fun _ => none) ((hostCall .ip4 0).name toLower)
      ⟨301 * second, some [[192, 0, 2, 1]]⟩,
    [⟨hostCall .ip4 0, .ended (.ok [[192, 0, 2, 1]])⟩,
      ⟨hostCall .ip4 60, .ended (.ok [[192, 0, 2, 1]])⟩]⟩

theorem twoCalls_reached : Relation.ReflTransGen (Step toLower) noCalls twoCalls := by
  have hfirst : Step toLower noCalls _ := .arrive (hostCall .ip4 0)
  have hsecond := Relation.ReflTransGen.tail (.single hfirst) (.arrive (hostCall .ip4 60))
  have hmiss := hsecond.tail (.miss (i := 0) rfl rfl)
  have hres : ((hostCall .ip4 0).lookup toLower).MayReturn
      (.ok ⟨301 * second, some [[192, 0, 2, 1]]⟩) := by rfl
  have hstore := hmiss.tail (.store (i := 0) rfl hres)
  exact hstore.tail (.hit (i := 1) rfl (by decide +kernel))

/-- The second call returns the result of the first one. -/
theorem cachingResolver_interleaved_two :
    Served toLower twoCalls (hostCall .ip4 60) (.ok [[192, 0, 2, 1]]) :=
  (cachingResolver_interleaved toLower twoCalls twoCalls_reached (i := 1) rfl).1 _ rfl

end DnsProxy.Bootstrap
