import DnsProxy.Upstreams
import DnsProxy.DnsCrypt.Handshake
import DnsProxy.Lib.KeyedStore

/-!
# The bootstrap cache

`CachingResolver.LookupNetIP`, which looks up the addresses of an upstream's host for one of
the networks `ip`, `ip4` and `ip6` and keeps the result until the shortest TTL of its records
is over.

The results are kept under the host alone. A result for `ip4` is so also the one that a
lookup for `ip6` finds, until it expires.

The cache is modelled twice: as the code has it, and with the lookup that each result came
from (`Made`). The second one only adds this record to the first (`lookupNetIP_trace`).

* `Lookup.live_iff`: the expiry of a result is the end of the shortest TTL.
* `Made.family`: a result has addresses of its own network only.
* `bootstrapCache_iff`: when a result is what the caller asked for.
-/

namespace DnsProxy.Bootstrap

open Net

/-! ## Requests -/

inductive Family
  | ip4
  | ip6
deriving DecidableEq, Repr

/-- `bootstrap.Network`: both families, or one of them. -/
inductive Network
  | ip
  | only (f : Family)
deriving DecidableEq, Repr

def Family.qtype : Family → UInt16
  | .ip4 => typeA
  | .ip6 => typeAAAA

/-- The length of an address of the family. -/
def Family.size : Family → Nat
  | .ip4 => ipv4Len
  | .ip6 => ipv6Len

/-- `netip.AddrFromSlice`, with `none` for the invalid address. -/
def addrFromSlice (data : IP) : Option Addr :=
  if (bytesOf data).length = ipv4Len ∨ (bytesOf data).length = ipv6Len then some (bytesOf data)
  else none

/-- `proxyutil.IPFromRR`. -/
def ipFromRR (r : RR) : Option Addr :=
  match r.rdata with
  | .a ip => addrFromSlice (to4 (some ip))
  | .aaaa ip => addrFromSlice (some ip)
  | _ => none

/-- `ipResult`. The time is in nanoseconds after the zero `time.Time`, and a nil slice is
`none`. -/
structure IPResult where
  expire : Nat := 0
  addrs : Option (List Addr) := none
deriving DecidableEq, Repr

/-- What `time.Now` returns, which is after the zero time. -/
abbrev Clock := { t : Nat // 0 < t }

/-- What a `request` meets: the id it draws, the replies of the upstream, and the time when
one has come. -/
structure Surroundings where
  id : UInt16
  reply : Msg → Outcome
  now : Clock
  /-- The replies are unpacked ones: the data of an AAAA record has 16 bytes, or is absent. -/
  unpacked : ∀ req resp, reply req = .ok (some resp) →
    ∀ r ∈ resp.answer, ∀ ip, r.rdata = .aaaa ip → ip.length = ipv6Len ∨ ip = []

def second : Nat := 10 ^ 9

def maxUint32 : UInt32 := 0xffffffff

def newRequest (id : UInt16) (host : Bytes) (qtype : UInt16) : Msg :=
  { id := id, recursionDesired := true, question := [⟨host, qtype, classINET⟩] }

/-- The checks of `request` on a response. -/
def acceptable (req resp : Msg) : Bool :=
  resp.response && resp.id == req.id && resp.opcode == req.opcode &&
    resp.question.length == 1 && resp.firstQuestion == req.firstQuestion &&
    resp.rcode == rcodeSuccess

/-- One round of the loop of `request`, on the addresses and `minTTL`. -/
def addRecord (qtype : UInt16) (acc : List Addr × UInt32) (r : RR) : List Addr × UInt32 :=
  if r.rrtype ≠ qtype then acc
  else
    match ipFromRR r with
    | none => acc
    | some ip => (acc.1 ++ [ip], min acc.2 r.ttl)

def request (x : Surroundings) (host : Bytes) (f : Family) : Except Err IPResult :=
  let req := newRequest x.id host f.qtype
  match x.reply req with
  | .error e => .error e
  | .ok none => .error (.text "invalid bootstrap DNS response")
  | .ok (some resp) =>
    if acceptable req resp then
      let (addrs, minTTL) := resp.answer.foldl (addRecord f.qtype) ([], maxUint32)
      .ok ⟨x.now.1 + minTTL.toNat * second, some addrs⟩
    else .error (.text "invalid bootstrap DNS response")

/-! ## Lookups -/

/-- `append(s, xs...)`, which leaves a nil slice nil if there is nothing to append. -/
def appendSlice (s xs : Option (List Addr)) : Option (List Addr) :=
  match xs.getD [] with
  | [] => s
  | ys => some (s.getD [] ++ ys)

/-- The loop over the two results, on the common result and the errors. -/
def receiveResult (acc : IPResult × List Err) : Except Err IPResult → IPResult × List Err
  | .error e => (acc.1, acc.2 ++ [e])
  | .ok res =>
    let expire := if acc.1.expire = 0 ∨ res.expire < acc.1.expire then res.expire else acc.1.expire
    (⟨expire, appendSlice acc.1.addrs res.addrs⟩, acc.2)

/-- A lookup of `UpstreamResolver`, with what its requests meet. -/
structure Lookup where
  network : Network
  host : Bytes
  surroundings : Family → Surroundings
  /-- The order in which the results for both families come. -/
  ip6First : Bool

namespace Lookup

def request (l : Lookup) (f : Family) : Except Err IPResult :=
  Bootstrap.request (l.surroundings f) l.host f

/-- The families in the order in which their results come. -/
def order (l : Lookup) : List Family := if l.ip6First then [.ip6, .ip4] else [.ip4, .ip6]

/-- `UpstreamResolver.lookupNetIP`. -/
def lookupNetIP (l : Lookup) : Except Err IPResult :=
  match l.network with
  | .only f => l.request f
  | .ip =>
    let (result, errs) := (l.order.map l.request).foldl receiveResult ({}, [])
    if errs = [] then .ok result else .error (joinErrs errs)

end Lookup

/-! ## What a lookup gives -/

/-- The address and the TTL of a record that is used. -/
def usedRecord (qtype : UInt16) (r : RR) : Option (Addr × UInt32) :=
  if r.rrtype = qtype then (ipFromRR r).map fun ip => (ip, r.ttl) else none

/-- The shortest of the TTLs, which are numbers of 32 bits. -/
def shortestTTL (used : List (Addr × UInt32)) : UInt32 := (used.map Prod.snd).foldl min maxUint32

theorem foldl_addRecord (qtype : UInt16) (rs : List RR) (addrs : List Addr) (ttl : UInt32) :
    rs.foldl (addRecord qtype) (addrs, ttl) =
      (addrs ++ (rs.filterMap (usedRecord qtype)).map Prod.fst,
        ((rs.filterMap (usedRecord qtype)).map Prod.snd).foldl min ttl) := by
  induction rs generalizing addrs ttl with
  | nil => simp
  | cons r rs ih =>
    rw [List.foldl_cons, addRecord, List.filterMap_cons, usedRecord]
    by_cases htype : r.rrtype = qtype
    · cases hip : ipFromRR r <;> simp [htype, ih]
    · simp [htype, ih]

/-- The records that a request uses. -/
def Surroundings.used (x : Surroundings) (host : Bytes) (f : Family) : List (Addr × UInt32) :=
  match x.reply (newRequest x.id host f.qtype) with
  | .ok (some resp) => resp.answer.filterMap (usedRecord f.qtype)
  | _ => []

/-- The time when the shortest TTL of these records is over. -/
def Surroundings.over (x : Surroundings) (host : Bytes) (f : Family) : Nat :=
  x.now.1 + (shortestTTL (x.used host f)).toNat * second

theorem request_eq {x : Surroundings} {host : Bytes} {f : Family} {res : IPResult}
    (h : request x host f = .ok res) :
    res = ⟨x.over host f, some ((x.used host f).map Prod.fst)⟩ := by
  unfold Surroundings.over Surroundings.used
  unfold request at h
  dsimp only at h
  split at h
  · cases h
  · cases h
  · next resp hreply =>
    split at h
    · rw [foldl_addRecord] at h
      cases h
      simp only [hreply, shortestTTL, List.nil_append]
    · cases h

theorem addrFromSlice_eq_some {data : IP} {a : Addr} : addrFromSlice data = some a ↔
    ((bytesOf data).length = ipv4Len ∨ (bytesOf data).length = ipv6Len) ∧ bytesOf data = a := by
  simp [addrFromSlice]

theorem length_to4 {ip : IP} {a : Addr} (h : addrFromSlice (to4 ip) = some a) :
    a.length = ipv4Len := by
  unfold to4 at h
  split at h
  · next h4 =>
    obtain ⟨-, rfl⟩ := addrFromSlice_eq_some.mp h
    exact h4
  · split at h
    · next hmapped =>
      obtain ⟨-, rfl⟩ := addrFromSlice_eq_some.mp h
      have h16 : (bytesOf ip).length = 16 := by
        simpa using (Bool.and_eq_true_iff.mp hmapped).1
      rw [bytesOf_some, List.length_drop, h16]
      rfl
    · cases h

theorem length_ipFromRR {f : Family} {r : RR} {a : Addr} (htype : r.rrtype = f.qtype)
    (haaaa : ∀ ip, r.rdata = .aaaa ip → ip.length = ipv6Len ∨ ip = [])
    (h : ipFromRR r = some a) : a.length = f.size := by
  unfold ipFromRR at h
  split at h
  · next ip hdata =>
    obtain rfl : f = .ip4 := by
      cases f with
      | ip4 => rfl
      | ip6 => simp [RR.rrtype, hdata, RData.rrtype, Family.qtype, typeA, typeAAAA] at htype
    exact length_to4 h
  · next ip hdata =>
    obtain rfl : f = .ip6 := by
      cases f with
      | ip4 => simp [RR.rrtype, hdata, RData.rrtype, Family.qtype, typeA, typeAAAA] at htype
      | ip6 => rfl
    rcases haaaa ip hdata with hlen | rfl
    · obtain ⟨-, rfl⟩ := addrFromSlice_eq_some.mp h
      exact hlen
    · cases h
  · cases h

theorem length_used {x : Surroundings} {host : Bytes} {f : Family} {a : Addr}
    (h : a ∈ (x.used host f).map Prod.fst) : a.length = f.size := by
  obtain ⟨⟨a, ttl⟩, hmem, rfl⟩ := List.mem_map.mp h
  unfold Surroundings.used at hmem
  split at hmem
  · next resp hreply =>
    obtain ⟨r, hr, hused⟩ := List.mem_filterMap.mp hmem
    unfold usedRecord at hused
    split at hused
    · next htype =>
      obtain ⟨ip, hip, heq⟩ := Option.map_eq_some_iff.mp hused
      cases heq
      exact length_ipFromRR htype (x.unpacked _ resp hreply r hr) hip
    · cases hused
  · cases hmem

/-- The families that are asked for. -/
def Network.families : Network → List Family
  | .ip => [.ip4, .ip6]
  | .only f => [f]

theorem Network.mem_families_ip (f : Family) : f ∈ Network.ip.families := by
  cases f <;> simp [Network.families]

def Network.Admits (n : Network) (a : Addr) : Prop := ∃ f ∈ n.families, a.length = f.size

theorem getD_appendSlice (s xs : Option (List Addr)) :
    (appendSlice s xs).getD [] = s.getD [] ++ xs.getD [] := by
  unfold appendSlice
  split
  · next h => rw [h, List.append_nil]
  · rfl

theorem receive_both {a b : Except Err IPResult} {res : IPResult}
    (h : [a, b].foldl receiveResult ({}, []) = (res, [])) :
    ∃ ra rb, a = .ok ra ∧ b = .ok rb ∧
      (ra.expire ≠ 0 → res.expire = min rb.expire ra.expire) ∧
      res.addrs.getD [] = ra.addrs.getD [] ++ rb.addrs.getD [] := by
  cases a with
  | error e => cases b <;> simp [receiveResult] at h
  | ok ra =>
    cases b with
    | error e => simp [receiveResult] at h
    | ok rb =>
      cases h
      refine ⟨ra, rb, rfl, rfl, fun hne => ?_, ?_⟩
      · simp only [receiveResult, true_or, if_true, hne, false_or]
        exact (min_def_lt _ _).symm
      · exact (getD_appendSlice _ _).trans (congrArg (· ++ _) (getD_appendSlice none ra.addrs))

theorem Surroundings.over_ne_zero (x : Surroundings) (host : Bytes) (f : Family) :
    x.over host f ≠ 0 :=
  (Nat.add_pos_left x.now.2 _).ne'

namespace Lookup

variable {l : Lookup} {res : IPResult}

/-- The shortest TTL of the records that the lookup used has not elapsed. -/
def Live (l : Lookup) (now : Nat) : Prop :=
  ∀ f ∈ l.network.families, now < (l.surroundings f).over l.host f

/-- The addresses that the lookup used, family by family. -/
def used (l : Lookup) (f : Family) : List Addr := ((l.surroundings f).used l.host f).map Prod.fst

theorem lookupNetIP_only {f : Family} (hnet : l.network = .only f) (h : l.lookupNetIP = .ok res) :
    res = ⟨(l.surroundings f).over l.host f, some (l.used f)⟩ := by
  simp only [lookupNetIP, hnet] at h
  exact request_eq h

theorem lookupNetIP_both (hnet : l.network = .ip) (h : l.lookupNetIP = .ok res) :
    ∃ f g, l.order = [f, g] ∧
      res.expire = min ((l.surroundings g).over l.host g) ((l.surroundings f).over l.host f) ∧
      res.addrs.getD [] = l.used f ++ l.used g := by
  obtain ⟨f, g, horder⟩ : ∃ f g, l.order = [f, g] := by
    unfold order
    split
    · exact ⟨_, _, rfl⟩
    · exact ⟨_, _, rfl⟩
  unfold lookupNetIP at h
  simp only [hnet, horder, List.map_cons, List.map_nil] at h
  split at h
  · next herrs =>
    obtain rfl := Except.ok.inj h
    obtain ⟨ra, rb, ha, hb, hexpire, haddrs⟩ := receive_both (Prod.ext rfl herrs)
    rw [request_eq ha, request_eq hb] at hexpire haddrs
    exact ⟨f, g, horder, hexpire (Surroundings.over_ne_zero _ _ f), haddrs⟩
  · cases h

theorem mem_order (l : Lookup) (f : Family) : f ∈ l.order := by
  unfold order
  cases f <;> split <;> simp

theorem forall_families {p : Family → Prop} {f g : Family} (horder : l.order = [f, g]) :
    (∀ x ∈ Network.ip.families, p x) ↔ p g ∧ p f := by
  have hall : (∀ x ∈ Network.ip.families, p x) ↔ ∀ x ∈ l.order, p x := by
    exact forall_congr' fun x =>
      imp_congr_left (iff_of_true (Network.mem_families_ip x) (l.mem_order x))
  rw [hall, horder, List.forall_mem_cons, List.forall_mem_singleton, and_comm]

/-- A result expires when the shortest TTL of its records is over. -/
theorem live_iff (h : l.lookupNetIP = .ok res) (now : Nat) : l.Live now ↔ now < res.expire := by
  unfold Live
  cases hnet : l.network with
  | only f =>
    rw [lookupNetIP_only hnet h]
    exact List.forall_mem_singleton
  | ip =>
    obtain ⟨f, g, horder, hexpire, -⟩ := lookupNetIP_both hnet h
    rw [hexpire, lt_min_iff, forall_families horder]

theorem admits (h : l.lookupNetIP = .ok res) : ∀ a ∈ res.addrs.getD [], l.network.Admits a := by
  intro a ha
  cases hnet : l.network with
  | only f =>
    rw [lookupNetIP_only hnet h] at ha
    exact ⟨f, List.mem_singleton_self f, length_used ha⟩
  | ip =>
    obtain ⟨f, g, -, -, haddrs⟩ := lookupNetIP_both hnet h
    rcases List.mem_append.mp (haddrs ▸ ha) with hf | hg
    · exact ⟨f, Network.mem_families_ip f, length_used hf⟩
    · exact ⟨g, Network.mem_families_ip g, length_used hg⟩

end Lookup

/-! ## The cache -/

section Resolver

-- `strings.ToLower`
variable (lower : Bytes → Bytes)

/-- A call of `LookupNetIP`: its arguments, its time, and what its requests would meet. -/
structure Call where
  now : Clock
  network : Network
  host : Bytes
  surroundings : Family → Surroundings
  ip6First : Bool

/-- The name that is looked up. -/
def Call.name (c : Call) : Bytes := DnsCrypt.fqdn (lower c.host)

def Call.lookup (c : Call) : Lookup := ⟨c.network, c.name lower, c.surroundings, c.ip6First⟩

abbrev Cache := Bytes → Option IPResult

def findCached (cache : Cache) (host : Bytes) (now : Clock) : Option (List Addr) :=
  match cache host with
  | none => none
  | some res => if res.expire < now.1 then none else res.addrs

def setCached (cache : Cache) (host : Bytes) (res : IPResult) : Cache :=
  Function.update cache host (some res)

/-- `CachingResolver.LookupNetIP`. -/
def lookupNetIP (cache : Cache) (c : Call) : Except Err (List Addr) × Cache :=
  match findCached cache (c.name lower) c.now with
  | some addrs => (.ok addrs, cache)
  | none =>
    match (c.lookup lower).lookupNetIP with
    | .error e => (.error e, cache)
    | .ok res => (.ok (res.addrs.getD []), setCached cache (c.name lower) res)

/-- The cache after the calls. -/
def cacheAfter (calls : List Call) : Cache :=
  calls.foldl (fun cache c => (lookupNetIP lower cache c).2) fun _ => none

/-! ## Where a result comes from -/

/-- A result with the lookup that gave it. -/
structure Made where
  lookup : Lookup
  res : IPResult
  made : lookup.lookupNetIP = .ok res

/-- The cache with the lookups behind its results. -/
abbrev Traced := Bytes → Option Made

def Traced.erase (t : Traced) : Cache := fun host => (t host).map (·.res)

/-- The result that `findCached` finds for the call. -/
def Traced.found (t : Traced) (c : Call) : Option Made :=
  (t (c.name lower)).filter fun m => decide (c.now.1 ≤ m.res.expire) && m.res.addrs.isSome

/-- Where the addresses of a call come from. -/
inductive Source
  | own (m : Made)
  | cached (m : Made)
  | failed (e : Err)

def Source.result : Source → Except Err (List Addr)
  | .own m | .cached m => .ok (m.res.addrs.getD [])
  | .failed e => .error e

/-- Makes the lookup and keeps it with its result. -/
def Lookup.make (l : Lookup) : Except Err Made :=
  match h : l.lookupNetIP with
  | .error e => .error e
  | .ok res => .ok ⟨l, res, h⟩

/-- `LookupNetIP` on the cache with the lookups. -/
def trace (t : Traced) (c : Call) : Source × Traced :=
  match t.found lower c with
  | some m => (.cached m, t)
  | none =>
    match (c.lookup lower).make with
    | .error e => (.failed e, t)
    | .ok m => (.own m, Function.update t (c.name lower) (some m))

def tracedAfter (calls : List Call) : Traced :=
  calls.foldl (fun t c => (trace lower t c).2) fun _ => none

variable {lower} {t : Traced} {c : Call} {m : Made}

theorem Traced.found_eq_some : t.found lower c = some m ↔
    t (c.name lower) = some m ∧ c.now.1 ≤ m.res.expire ∧ m.res.addrs.isSome := by
  simp [Traced.found, Option.filter_eq_some_iff]

theorem findCached_erase : findCached t.erase (c.name lower) c.now =
    (t.found lower c).bind (·.res.addrs) := by
  unfold findCached Traced.erase Traced.found
  cases t (c.name lower) with
  | none => rfl
  | some m =>
    rcases lt_or_ge m.res.expire c.now.1 with hlt | hle
    · simp [hlt, Option.filter, not_le.mpr hlt]
    · cases ha : m.res.addrs <;> simp [ha, not_lt.mpr hle, hle, Option.filter]

theorem Traced.erase_update (host : Bytes) (m : Made) :
    Traced.erase (Function.update t host (some m)) = setCached t.erase host m.res := by
  funext h
  simp only [Traced.erase, setCached, Function.update_apply]
  split <;> rfl

theorem Lookup.map_make (l : Lookup) : l.make.map (·.res) = l.lookupNetIP := by
  unfold Lookup.make
  split
  · next h => exact h.symm
  · next h => exact h.symm

theorem Lookup.make_lookup {l : Lookup} (h : l.make = .ok m) : m.lookup = l := by
  unfold Lookup.make at h
  split at h
  · cases h
  · cases h
    rfl

/-- The lookups behind the results change nothing. -/
theorem lookupNetIP_trace :
    lookupNetIP lower t.erase c = ((trace lower t c).1.result, (trace lower t c).2.erase) := by
  unfold lookupNetIP trace
  rw [findCached_erase]
  cases hf : t.found lower c with
  | some m =>
    obtain ⟨addrs, ha⟩ := Option.isSome_iff_exists.mp (Traced.found_eq_some.mp hf).2.2
    simp [ha, Source.result]
  | none =>
    rw [← Lookup.map_make]
    cases (c.lookup lower).make with
    | error e => rfl
    | ok m => exact Prod.ext rfl (Traced.erase_update _ m).symm

theorem cacheAfter_eq (calls : List Call) :
    cacheAfter lower calls = (tracedAfter lower calls).erase := by
  have hstep (t : Traced) (c : Call) :
      (lookupNetIP lower t.erase c).2 = (trace lower t c).2.erase := by
    rw [lookupNetIP_trace]
  exact @List.foldl_hom _ _ _ Traced.erase (fun t c => (trace lower t c).2)
    (fun cache c => (lookupNetIP lower cache c).2) calls (fun _ => none) hstep

theorem trace_cases (t : Traced) (c : Call) :
    (∃ m, t.found lower c = some m ∧ trace lower t c = (.cached m, t)) ∨
      t.found lower c = none ∧
        ((∃ e, trace lower t c = (.failed e, t)) ∨
          ∃ m, m.lookup = c.lookup lower ∧
            trace lower t c = (.own m, Function.update t (c.name lower) (some m))) := by
  unfold trace
  split
  · next m hfound => exact .inl ⟨m, hfound, rfl⟩
  · next hfound =>
    refine .inr ⟨hfound, ?_⟩
    split
    · next e _ => exact .inl ⟨e, rfl⟩
    · next m hmake => exact .inr ⟨m, Lookup.make_lookup hmake, rfl⟩

theorem trace_adds (t : Traced) (c : Call) (host : Bytes) (m : Made)
    (h : (trace lower t c).2 host = some m) :
    t host = some m ∨ c.name lower = host ∧ m.lookup = c.lookup lower := by
  obtain ⟨_, -, heq⟩ | ⟨-, ⟨_, heq⟩ | ⟨own, hlookup, heq⟩⟩ := @trace_cases lower t c
  · exact .inl (by rwa [heq] at h)
  · exact .inl (by rwa [heq] at h)
  · simp only [heq, Function.update_apply] at h
    split at h
    · next hhost =>
      cases h
      exact .inr ⟨hhost.symm, hlookup⟩
    · exact .inl h

theorem tracedAfter_made {calls : List Call} {host : Bytes}
    (h : tracedAfter lower calls host = some m) :
    ∃ c ∈ calls, c.name lower = host ∧ m.lookup = c.lookup lower :=
  @KeyedStore.written_of_present _ _ _ _ (fun t host => t host) (fun t c => (trace lower t c).2)
    (fun c host m => c.name lower = host ∧ m.lookup = c.lookup lower) trace_adds
    (fun _ => none) (fun _ => rfl) calls host m h

/-! ## What is returned -/

/-- The result of a call after the others is what the caller asked for: if it succeeds, the
addresses are of the network, and come from a lookup for the same name and network. The call
made it, or an earlier one did, and then the shortest TTL of its records has not elapsed. -/
structure Correct (lower : Bytes → Bytes) (before : List Call) (c : Call) : Prop where
  family : ∀ addrs, (lookupNetIP lower (cacheAfter lower before) c).1 = .ok addrs →
    ∀ a ∈ addrs, c.network.Admits a
  own : ∀ m, (trace lower (tracedAfter lower before) c).1 = .own m → m.lookup = c.lookup lower
  cached : ∀ m, (trace lower (tracedAfter lower before) c).1 = .cached m →
    (∃ c' ∈ before, m.lookup = c'.lookup lower) ∧ m.lookup.host = c.name lower ∧
      m.lookup.network = c.network ∧ m.lookup.Live c.now.1

theorem trace_own (h : (trace lower t c).1 = .own m) : m.lookup = c.lookup lower := by
  obtain ⟨_, -, heq⟩ | ⟨-, ⟨_, heq⟩ | ⟨own, hlookup, heq⟩⟩ := @trace_cases lower t c
  · cases heq ▸ h
  · cases heq ▸ h
  · rw [heq] at h
    cases h
    exact hlookup

theorem trace_cached : (trace lower t c).1 = .cached m ↔ t.found lower c = some m := by
  obtain ⟨m', hfound, heq⟩ | ⟨hfound, ⟨_, heq⟩ | ⟨_, -, heq⟩⟩ := @trace_cases lower t c
  · simp [heq, hfound]
  · simp [heq, hfound]
  · simp [heq, hfound]

/-- The addresses of a result are those of its own network. -/
theorem Made.family (m : Made) : ∀ a ∈ m.res.addrs.getD [], m.lookup.network.Admits a :=
  Lookup.admits m.made

theorem result_family {addrs : List Addr} (hok : (trace lower t c).1.result = .ok addrs)
    (hnet : ∀ m, (trace lower t c).1 = .cached m → m.lookup.network = c.network) :
    ∀ a ∈ addrs, c.network.Admits a := by
  cases hsource : (trace lower t c).1 with
  | own m =>
    rw [hsource] at hok
    obtain rfl := Except.ok.inj hok
    have hlookup := trace_own hsource
    have hfam := m.family
    rwa [hlookup] at hfam
  | cached m =>
    rw [hsource] at hok
    obtain rfl := Except.ok.inj hok
    exact hnet m hsource ▸ m.family
  | failed e =>
    rw [hsource] at hok
    cases hok

theorem tracedAfter_host {before : List Call}
    (h : (tracedAfter lower before).found lower c = some m) :
    (∃ c' ∈ before, m.lookup = c'.lookup lower) ∧ m.lookup.host = c.name lower := by
  obtain ⟨c', hmem, hname, hlookup⟩ := tracedAfter_made (Traced.found_eq_some.mp h).1
  exact ⟨⟨c', hmem, hlookup⟩, hlookup ▸ hname⟩

/-- A call returns what was asked for exactly if the result that the cache has for its host
was looked up for the same network, and does not expire at this very instant. -/
theorem bootstrapCache_iff (lower : Bytes → Bytes) (before : List Call) (c : Call) :
    Correct lower before c ↔
      ∀ m, (tracedAfter lower before).found lower c = some m →
        m.lookup.network = c.network ∧ m.res.expire ≠ c.now.1 := by
  constructor
  · intro h m hfound
    obtain ⟨-, -, hnet, hlive⟩ := h.cached m (trace_cached.mpr hfound)
    exact ⟨hnet, ((Lookup.live_iff m.made _).mp hlive).ne'⟩
  · intro h
    refine ⟨fun addrs hok => ?_, fun m => trace_own, fun m hm => ?_⟩
    · rw [cacheAfter_eq, lookupNetIP_trace] at hok
      exact result_family hok fun m hm => (h m (trace_cached.mp hm)).1
    · have hfound := trace_cached.mp hm
      obtain ⟨hnet, hne⟩ := h m hfound
      obtain ⟨hearlier, hhost⟩ := tracedAfter_host hfound
      have hle := (Traced.found_eq_some.mp hfound).2.1
      exact ⟨hearlier, hhost, hnet, (Lookup.live_iff m.made _).mpr (hle.lt_of_ne' hne)⟩

end Resolver

/-! ## Two networks of one host -/

/-- The record of a host that has one address of each family, for five minutes. -/
def hostRecord (name : Bytes) (qtype : UInt16) : RR :=
  { name := name, rclass := classINET, ttl := 300
    rdata :=
      if qtype = typeA then .a [192, 0, 2, 1]
      else .aaaa [0x20, 0x01, 0x0d, 0xb8, 0, 0, 0, 0, 0, 0, 0, 0, 0, 0, 0, 1] }

def hostReply (req : Msg) : Msg :=
  { req with
    response := true
    answer := [hostRecord req.firstQuestion.name req.firstQuestion.qtype] }

def hostSurroundings (now : Clock) : Surroundings where
  id := 7
  reply req := .ok (some (hostReply req))
  now := now
  unpacked req resp h r hr ip hdata := by
    cases h
    obtain rfl := List.mem_singleton.mp hr
    simp only [hostRecord] at hdata
    split at hdata
    · cases hdata
    · cases hdata
      exact .inl rfl

/-- A lookup of the host one second after the zero time, or later. -/
def hostCall (f : Family) (seconds : Nat) : Call where
  now := ⟨(seconds + 1) * second, by simp [second]⟩
  network := .only f
  host := ascii "Example.org"
  surroundings _ := hostSurroundings ⟨(seconds + 1) * second, by simp [second]⟩
  ip6First := false

/-- A minute after a lookup for `ip4`, a lookup for `ip6` gives the IPv4 address. -/
theorem ip6_after_ip4 :
    (lookupNetIP toLower (cacheAfter toLower [hostCall .ip4 0]) (hostCall .ip6 60)).1 =
        .ok [[192, 0, 2, 1]] ∧
      ¬Correct toLower [hostCall .ip4 0] (hostCall .ip6 60) := by
  have hres : (lookupNetIP toLower (cacheAfter toLower [hostCall .ip4 0])
      (hostCall .ip6 60)).1 = .ok [[192, 0, 2, 1]] := by decide +kernel
  refine ⟨hres, fun h => ?_⟩
  obtain ⟨f, hf, hlen⟩ := h.family _ hres _ (List.mem_singleton_self _)
  obtain rfl := List.mem_singleton.mp hf
  cases hlen

end DnsProxy.Bootstrap
