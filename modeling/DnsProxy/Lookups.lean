import DnsProxy.Lib.FanIn
import Mathlib.Data.List.Sort
import DnsProxy.ParallelExchange
import DnsProxy.Bootstrap
import DnsProxy.Proxy

/-!
# Goroutines that are waited for

The functions that start a goroutine for each upstream, resolver or question and collect the
results over a channel: `ExchangeParallel` and `ExchangeAll`, `ParallelResolver.LookupNetIP`
and `Proxy.LookupNetIP`. The goroutines and the caller take their steps in any order.

In all of them the channel has room for every result. No goroutine waits for a caller that
has returned, and what is returned depends on the order of the results only as stated.

* `run_firstCollector`, `run_allCollector`: what the loops come to in the models that take the
  order of the results as given.
* `ParallelResult`: the first addresses to arrive, and an error only if all resolvers failed.
* `LookupCall.Result`: the addresses of both answers in one order, those of the preferred
  family first.
-/

namespace DnsProxy

open Net FanIn

/-! ## Exchanges -/

/-- The loop of `ExchangeParallel`, for one result. -/
def firstCollector : Collector AsyncResult (List Err) Resolved where
  take errs r :=
    match receiveAsyncResult r with
    | .ok (m, u) => .inr ⟨some m, some u, none⟩
    | .error e => .inl (if e = .noReply then errs else errs ++ [e])
  stop errs := ⟨none, none, some (if errs.length = 0 then .noneResponded else joinErrs errs)⟩

theorem run_firstCollector (errs : List Err) (rs : List AsyncResult) :
    firstCollector.run errs rs = receiveFirst rs errs := by
  induction rs generalizing errs with
  | nil => rfl
  | cons r rs ih =>
    rw [Collector.run_cons, receiveFirst]
    cases hr : receiveAsyncResult r with
    | ok x => simp only [firstCollector, hr, Collector.rest]
    | error e =>
      simp only [firstCollector, hr, Collector.rest]
      exact ih _

/-- The loop of `ExchangeAll` for `upsNum` upstreams, on the results and the errors. -/
def allCollector (upsNum : Nat) :
    Collector AsyncResult (List (Msg × Upstream) × List Err)
      (List (Msg × Upstream) × Option Err) where
  take acc r :=
    match receiveAsyncResult r with
    | .ok x => .inl (acc.1 ++ [x], acc.2)
    | .error e => .inl (acc.1, acc.2 ++ [e])
  stop acc :=
    (acc.1, if acc.2.length = upsNum then some (.text "all upstreams failed") else none)

theorem run_allCollector (upsNum : Nat) (acc : List (Msg × Upstream) × List Err)
    (rs : List AsyncResult) :
    (allCollector upsNum).run acc rs =
      (allCollector upsNum).stop (acc.1 ++ (receiveEach rs).1, acc.2 ++ (receiveEach rs).2) := by
  induction rs generalizing acc with
  | nil => simp [Collector.run, receiveEach]
  | cons r rs ih =>
    rw [Collector.run_cons, receiveEach]
    cases hr : receiveAsyncResult r with
    | ok x =>
      simp only [allCollector, hr, Collector.rest] at ih ⊢
      rw [ih, List.append_assoc]
      rfl
    | error e =>
      simp only [allCollector, hr, Collector.rest] at ih ⊢
      rw [ih, List.append_assoc]
      rfl

section Exchanges

variable (ups : List Position)

/-- The goroutines of `ExchangeParallel` for two upstreams or more. -/
def exchangingFirst : System (Fin ups.length) AsyncResult (List Err) Resolved :=
  .ofList ups exchangeAsync firstCollector [] none

/-- The goroutines of `ExchangeAll` for two upstreams or more. -/
def exchangingAll : System (Fin ups.length) AsyncResult (List (Msg × Upstream) × List Err)
    (List (Msg × Upstream) × Option Err) :=
  .ofList ups exchangeAsync (allCollector ups.length) ([], []) none

variable {ups}

theorem exchangeParallelAt_many (hups : 2 ≤ ups.length) (arrived : List Position) :
    exchangeParallelAt ups arrived = receiveFirst (arrived.map exchangeAsync) [] := by
  match ups, hups with
  | _ :: _ :: _, _ => rfl

theorem exchangeAllAt_many (hups : 2 ≤ ups.length) (arrived : List Position) :
    exchangeAllAt ups arrived = receiveAll ups.length (arrived.map exchangeAsync) := by
  match ups, hups with
  | _ :: _ :: _, _ => rfl

/-- `ExchangeParallel` and `ExchangeAll` come to an end in every interleaving, without a
goroutine that is left behind, and return what the models return for the results in some
order. `ExchangeParallel` succeeds with the reply of one of the upstreams just if there is
one; `ExchangeAll` returns all replies and fails just if there is none. -/
theorem exchanges_interleaved (ups : List Position) (hups : 2 ≤ ups.length) :
    Completes (exchangingFirst ups) (fun r =>
        (∃ arrived, arrived.Perm ups ∧ r = exchangeParallelAt ups arrived) ∧
          (r.reply ≠ none ∧ r.err = none ↔ SomeReplied ups) ∧
          ∀ m, r.reply = some m →
            ∃ c ∈ ups, c.outcome = .ok (some m) ∧ r.resolved = some c.upstream) ∧
      Completes (exchangingAll ups) (fun r =>
        (∃ arrived, arrived.Perm ups ∧ r = exchangeAllAt ups arrived) ∧
          r.1.Perm (ups.filterMap Position.reply) ∧ (r.2 ≠ none ↔ ¬SomeReplied ups)) := by
  constructor
  · refine completes_ofList_none fun arrived hperm => ?_
    rw [run_firstCollector]
    obtain ⟨hiff, hreply⟩ := receiveFirst_decides hperm
    exact ⟨⟨arrived, hperm, (exchangeParallelAt_many hups arrived).symm⟩, hiff, hreply⟩
  · refine completes_ofList_none fun arrived hperm => ?_
    have hrun : (allCollector ups.length).run ([], []) (arrived.map exchangeAsync) =
        receiveAll ups.length (arrived.map exchangeAsync) := run_allCollector _ _ _
    rw [hrun]
    obtain ⟨hres, herr⟩ := receiveAll_decides hperm
    exact ⟨⟨arrived, hperm, (exchangeAllAt_many hups arrived).symm⟩, hres, herr⟩

end Exchanges

/-- An upstream that gives no reply does not keep the other one from being heard. -/
theorem exchanges_interleaved_silent :
    Completes (exchangingFirst [⟨silentUpstream, .ok none⟩,
      ⟨silentUpstream, .ok (some exampleAnswer)⟩]) fun r => r.reply = some exampleAnswer := by
  refine (exchanges_interleaved [⟨silentUpstream, .ok none⟩,
    ⟨silentUpstream, .ok (some exampleAnswer)⟩] (Nat.le_refl 2)).1.imp fun r hr => ?_
  obtain ⟨-, hiff, hreply⟩ := hr
  obtain ⟨hne, -⟩ := hiff.mpr ⟨_, List.mem_cons_of_mem _ List.mem_cons_self, exampleAnswer, rfl⟩
  obtain ⟨m, hm⟩ := Option.ne_none_iff_exists'.mp hne
  obtain ⟨c, hc, houtcome, -⟩ := hreply m hm
  rcases List.mem_cons.mp hc with rfl | hc
  · cases houtcome
  · obtain rfl := List.mem_singleton.mp hc
    cases houtcome
    exact hm

/-! ## Addresses -/

/-- A valid `netip.Addr`. -/
abbrev NetAddr := { a : Addr // a.length = ipv4Len ∨ a.length = ipv6Len }

theorem length_of_ipFromRR {r : RR} {a : Addr} (h : Bootstrap.ipFromRR r = some a) :
    a.length = ipv4Len ∨ a.length = ipv6Len := by
  unfold Bootstrap.ipFromRR at h
  split at h
  · exact .inl (Bootstrap.length_to4 h)
  · obtain ⟨hlength, rfl⟩ := Bootstrap.addrFromSlice_eq_some.mp h
    exact hlength
  · cases h

/-- `proxyutil.IPFromRR`, with the length of the address. -/
def netAddrFromRR (r : RR) : Option NetAddr :=
  match h : Bootstrap.ipFromRR r with
  | none => none
  | some a => some ⟨a, length_of_ipFromRR h⟩

def appendAnswerAddrs (addrs : List NetAddr) (ans : List RR) : List NetAddr :=
  addrs ++ ans.filterMap netAddrFromRR

/-- The family that is preferred. -/
def Preferred (preferIPv6 : Bool) (a : NetAddr) : Prop :=
  a.1.length = if preferIPv6 then ipv6Len else ipv4Len

instance (preferIPv6 : Bool) : DecidablePred (Preferred preferIPv6) :=
  fun a => inferInstanceAs (Decidable (a.1.length = _))

/-- `netutil.PreferIPv6` and `netutil.PreferIPv4`, with what is relied on: they put the
addresses of the preferred family before the others, and order those of one family. -/
structure Preference where
  compare : Bool → NetAddr → NetAddr → Int
  total : ∀ v6 a b, compare v6 a b ≤ 0 ∨ compare v6 b a ≤ 0
  antisymm : ∀ v6 a b, compare v6 a b ≤ 0 → compare v6 b a ≤ 0 → a = b
  trans : ∀ v6 a b c, compare v6 a b ≤ 0 → compare v6 b c ≤ 0 → compare v6 a c ≤ 0
  first : ∀ v6 a b, Preferred v6 a → ¬Preferred v6 b → compare v6 a b < 0 ∧ 0 < compare v6 b a

namespace Preference

variable (pr : Preference) (preferIPv6 : Bool)

def Le (a b : NetAddr) : Prop := pr.compare preferIPv6 a b ≤ 0

instance : DecidableRel (pr.Le preferIPv6) :=
  fun a b => inferInstanceAs (Decidable (pr.compare preferIPv6 a b ≤ 0))

instance : Std.Total (pr.Le preferIPv6) := ⟨pr.total preferIPv6⟩

instance : IsTrans NetAddr (pr.Le preferIPv6) := ⟨pr.trans preferIPv6⟩

/-- `slices.SortStableFunc` with the comparison. -/
def sort (as : List NetAddr) : List NetAddr := as.insertionSort (pr.Le preferIPv6)

theorem perm_sort (as : List NetAddr) : (pr.sort preferIPv6 as).Perm as :=
  List.perm_insertionSort _ as

theorem sorted_sort (as : List NetAddr) :
    (pr.sort preferIPv6 as).Pairwise (pr.Le preferIPv6) :=
  List.pairwise_insertionSort _ as

theorem sort_eq_of_perm {as bs : List NetAddr} (h : as.Perm bs) :
    pr.sort preferIPv6 as = pr.sort preferIPv6 bs := by
  refine List.Perm.eq_of_pairwise (fun a b _ _ => pr.antisymm preferIPv6 a b)
    (pr.sorted_sort preferIPv6 as) (pr.sorted_sort preferIPv6 bs) ?_
  exact ((pr.perm_sort preferIPv6 as).trans h).trans (pr.perm_sort preferIPv6 bs).symm

theorem pairwise_sort (as : List NetAddr) :
    (pr.sort preferIPv6 as).Pairwise fun a b =>
      Preferred preferIPv6 b → Preferred preferIPv6 a := by
  refine (pr.sorted_sort preferIPv6 as).imp fun {a b} hle hb => ?_
  by_contra ha
  exact not_le_of_gt (pr.first preferIPv6 b a hb ha).2 hle

end Preference

/-! ## Resolvers -/

/-- What a non-nil error joins. -/
abbrev Errs := { es : List Err // es ≠ [] }

def Errs.of (e : Err) : Errs := ⟨[e], List.cons_ne_nil e []⟩

/-- How a call of `LookupNetIP` ends. An error is given by the errors that it joins, and a
panic by the error that `errors.FromRecovered` makes of it. -/
inductive Ended
  | addrs (as : List NetAddr)
  | failed (errs : Errs)
  | panicked (e : Err)
deriving DecidableEq

/-- `return nil, errors.Join(errs...)`. -/
def joined (errs : List Err) : Ended := if h : errs = [] then .addrs [] else .failed ⟨errs, h⟩

theorem joined_of_ne {errs : List Err} (h : errs ≠ []) : joined errs = .failed ⟨errs, h⟩ :=
  dif_neg h

/-- What `lookupAsync` sends: the result, or the panic that `recoverAndLog` recovers. -/
def lookupAsync : Ended → Except Errs (List NetAddr)
  | .addrs as => .ok as
  | .failed errs => .error errs
  | .panicked e => .error (.of e)

/-- The loop of `ParallelResolver.LookupNetIP`, for one result. -/
def resolverCollector : Collector (Except Errs (List NetAddr)) (List Err) Ended where
  take errs
    | .error es => .inl (errs ++ es.1)
    | .ok as => .inr (.addrs as)
  stop errs := joined errs

/-- The goroutines of `ParallelResolver.LookupNetIP` for two resolvers or more, which end in
these ways. -/
def resolving (os : List Ended) :
    System (Fin os.length) (Except Errs (List NetAddr)) (List Err) Ended :=
  .ofList os lookupAsync resolverCollector [] none

/-- The errors of a resolver. -/
def Ended.errs : Ended → List Err
  | .addrs _ => []
  | .failed errs => errs.1
  | .panicked e => [e]

/-- The addresses of one of the resolvers, or the errors of all in some order if there are
none. -/
inductive ParallelResult (os : List Ended) : Ended → Prop
  | first {as : List NetAddr} : .addrs as ∈ os → ParallelResult os (.addrs as)
  | failed {arrived : List Ended} (hne : arrived.flatMap Ended.errs ≠ []) :
      (∀ as, .addrs as ∉ os) → arrived.Perm os →
      ParallelResult os (.failed ⟨arrived.flatMap Ended.errs, hne⟩)

theorem run_resolverCollector (errs : List Err) (arrived : List Ended) :
    (∃ as, .addrs as ∈ arrived ∧
        resolverCollector.run errs (arrived.map lookupAsync) = .addrs as) ∨
      (∀ as, .addrs as ∉ arrived) ∧
        resolverCollector.run errs (arrived.map lookupAsync) =
          joined (errs ++ arrived.flatMap Ended.errs) := by
  induction arrived generalizing errs with
  | nil => exact .inr ⟨fun _ => List.not_mem_nil, by simp [Collector.run, resolverCollector]⟩
  | cons o arrived ih =>
    -- A resolver that failed, for one reason or another, adds its errors.
    have hfailed (es : Errs) (hsent : lookupAsync o = .error es) (hes : es.1 = o.errs)
        (hne : ∀ as, o ≠ .addrs as) :
        (∃ as, .addrs as ∈ o :: arrived ∧
            resolverCollector.run errs ((o :: arrived).map lookupAsync) = .addrs as) ∨
          (∀ as, .addrs as ∉ o :: arrived) ∧
            resolverCollector.run errs ((o :: arrived).map lookupAsync) =
              joined (errs ++ (o :: arrived).flatMap Ended.errs) := by
      have hrun : resolverCollector.run errs ((o :: arrived).map lookupAsync) =
          resolverCollector.run (errs ++ o.errs) (arrived.map lookupAsync) := by
        rw [List.map_cons, Collector.run_cons, hsent, ← hes]
        rfl
      rw [hrun, List.flatMap_cons, ← List.append_assoc]
      refine (ih (errs ++ o.errs)).imp ?_ ?_
      · rintro ⟨as, hmem, heq⟩
        exact ⟨as, List.mem_cons_of_mem _ hmem, heq⟩
      · rintro ⟨hnone, heq⟩
        refine ⟨fun as hmem => ?_, heq⟩
        rcases List.mem_cons.mp hmem with h | h
        · exact hne as h.symm
        · exact hnone as h
    cases o with
    | addrs as =>
      refine .inl ⟨as, List.mem_cons_self, ?_⟩
      rw [List.map_cons, Collector.run_cons]
      rfl
    | failed es => exact hfailed es rfl rfl fun as h => by cases h
    | panicked e => exact hfailed (.of e) rfl rfl fun as h => by cases h

theorem Ended.errs_ne_nil {o : Ended} (h : ∀ as, o ≠ .addrs as) : o.errs ≠ [] := by
  cases o with
  | addrs as => exact absurd rfl (h as)
  | failed errs => exact errs.2
  | panicked e => exact List.cons_ne_nil e []

theorem parallelResult_run {os arrived : List Ended} (hos : os ≠ []) (hperm : arrived.Perm os) :
    ParallelResult os (resolverCollector.run [] (arrived.map lookupAsync)) := by
  rcases run_resolverCollector [] arrived with ⟨as, hmem, heq⟩ | ⟨hnone, heq⟩
  · rw [heq]
    exact .first (hperm.mem_iff.mp hmem)
  · obtain ⟨o, ho⟩ := List.exists_mem_of_ne_nil os hos
    have hmem := hperm.mem_iff.mpr ho
    have hne : arrived.flatMap Ended.errs ≠ [] := by
      intro hnil
      refine Ended.errs_ne_nil (fun as h => ?_) (List.flatMap_eq_nil_iff.mp hnil o hmem)
      exact hnone as (h ▸ hmem)
    rw [heq, List.nil_append, joined_of_ne hne]
    exact .failed hne (fun as h => hnone as (hperm.mem_iff.mpr h)) hperm

/-- `ParallelResolver.LookupNetIP` comes to an end in every interleaving, without a goroutine
that is left behind. It returns the addresses of a resolver that succeeded, and fails with the
errors of all resolvers just if none did. A resolver that panics is one that fails. -/
theorem parallelResolver_interleaved (os : List Ended) (hos : 2 ≤ os.length) :
    Completes (resolving os) (ParallelResult os) := by
  refine completes_ofList_none fun arrived hperm => parallelResult_run ?_ hperm
  rintro rfl
  cases hos

def exampleAddr4 : NetAddr := ⟨[192, 0, 2, 1], .inl rfl⟩

def exampleAddr6 : NetAddr :=
  ⟨[0x20, 0x01, 0x0d, 0xb8, 0, 0, 0, 0, 0, 0, 0, 0, 0, 0, 0, 1], .inr rfl⟩

/-- One resolver panics, and the addresses of the other one are returned. -/
theorem parallelResolver_interleaved_panic :
    Completes (resolving [.panicked (.text "boom"), .addrs [exampleAddr4]])
      fun r => r = .addrs [exampleAddr4] := by
  refine (parallelResolver_interleaved [.panicked (.text "boom"), .addrs [exampleAddr4]]
    (Nat.le_refl 2)).imp fun r hr => ?_
  cases hr with
  | first hmem =>
    rcases List.mem_cons.mp hmem with h | h
    · cases h
    · exact List.mem_singleton.mp h
  | failed _ hnone _ => exact absurd (by simp) (hnone [exampleAddr4])

/-! ## The lookups of the proxy -/

/-- What `Resolve` comes to: the response in the context and the error, or a panic. -/
inductive Resolving
  | returned (res : Option Msg) (err : Option Err)
  | panicked (e : Err)

structure LookupResult where
  resp : Option Msg
  err : Option Err

/-- A call of `Proxy.LookupNetIP`. -/
structure LookupCall where
  preferIPv6 : Bool
  host : Bytes
  /-- What `Resolve` comes to in each of the two goroutines. -/
  resolve : Bootstrap.Family → DNSContext → Resolving
  /-- The ids of the requests. -/
  id : Bootstrap.Family → UInt16
  /-- `ctx.Err` at the start of the call. -/
  ctxErr : Option Err
  /-- `ctx.Err` when the context is done, if it may be during the call. -/
  cancelled : Option Err

def errEmptyHost : Err := .text "host is empty"

def errNilDereference : Err := .text "invalid memory address or nil pointer dereference"

namespace LookupCall

variable (pr : Preference) (c : LookupCall)

def lookupIPAddr (f : Bootstrap.Family) : LookupResult :=
  let req := Bootstrap.newRequest (c.id f) (DnsCrypt.fqdn c.host) f.qtype
  match c.resolve f { proto := .udp, req := req } with
  | .returned res err => ⟨res, err⟩
  | .panicked e => ⟨none, some e⟩

/-- The loop of `LookupNetIP`, on the addresses and the errors. -/
def collector : Collector LookupResult (List NetAddr × List Err) Ended where
  take acc result :=
    match result.err with
    | some e => .inl (acc.1, acc.2 ++ [e])
    | none =>
      match result.resp with
      | none => .inr (.panicked errNilDereference)
      | some resp => .inl (appendAnswerAddrs acc.1 resp.answer, acc.2)
  stop acc :=
    if acc.1.length = 0 ∧ acc.2.length ≠ 0 then joined acc.2
    else .addrs (pr.sort c.preferIPv6 acc.1)

/-- The two goroutines of `LookupNetIP`. -/
def lookups : System (Fin 2) LookupResult (List NetAddr × List Err) Ended :=
  .ofList [.ip4, .ip6] c.lookupIPAddr (c.collector pr) ([], [])
    (c.cancelled.map fun e => .failed (.of e))

/-- `LookupNetIP` may end so. -/
def Ends (r : Ended) : Prop :=
  if c.host = [] then r = .failed (.of errEmptyHost)
  else
    match c.ctxErr with
    | some e => r = .failed (.of e)
    | none => ∃ n st, After (c.lookups pr) n st ∧ st.caller = .inr r

/-- The addresses of the answer for the family. -/
def answered (f : Bootstrap.Family) : List NetAddr :=
  match (c.lookupIPAddr f).err, (c.lookupIPAddr f).resp with
  | none, some resp => resp.answer.filterMap netAddrFromRR
  | _, _ => []

/-- The error of the lookup for the family. -/
def errsOf (f : Bootstrap.Family) : List Err := (c.lookupIPAddr f).err.toList

/-- `Resolve` has returned a response or an error for the family. -/
def Responds (f : Bootstrap.Family) : Prop :=
  (c.lookupIPAddr f).err ≠ none ∨ (c.lookupIPAddr f).resp ≠ none

/-- What the two answers come to. -/
inductive Result : Ended → Prop
  | failed {errs : Errs} : (∀ f, c.answered f = []) →
      errs.1.Perm (c.errsOf .ip4 ++ c.errsOf .ip6) → Result (.failed errs)
  | found {as : List NetAddr} : as.Perm (c.answered .ip4 ++ c.answered .ip6) →
      as.Pairwise (fun a b => Preferred c.preferIPv6 b → Preferred c.preferIPv6 a) →
      as = pr.sort c.preferIPv6 (c.answered .ip4 ++ c.answered .ip6) →
      (as = [] → ∀ f, c.errsOf f = []) → Result (.addrs as)

/-- How a call that is not cancelled ends. -/
def Returns (r : Ended) : Prop :=
  (∀ f, c.Responds f) ∧ c.Result pr r ∨ (∃ f, ¬c.Responds f) ∧ r = .panicked errNilDereference

variable {pr c}

variable {f g : Bootstrap.Family}

theorem take_collector (h : c.Responds f) (acc : List NetAddr × List Err) :
    (c.collector pr).take acc (c.lookupIPAddr f) =
      .inl (acc.1 ++ c.answered f, acc.2 ++ c.errsOf f) := by
  unfold collector answered errsOf
  cases herr : (c.lookupIPAddr f).err with
  | some e => simp [herr]
  | none =>
    obtain ⟨resp, hresp⟩ := Option.ne_none_iff_exists'.mp (h.resolve_left (not_not.mpr herr))
    simp [herr, hresp, appendAnswerAddrs]

theorem take_collector_of_not (h : ¬c.Responds f) (acc : List NetAddr × List Err) :
    (c.collector pr).take acc (c.lookupIPAddr f) = .inr (.panicked errNilDereference) := by
  obtain ⟨herr, hresp⟩ := not_or.mp h
  simp [collector, not_not.mp herr, not_not.mp hresp]

theorem run_collector (h : ∀ f, c.Responds f) (f g : Bootstrap.Family) :
    (c.collector pr).run ([], []) ([f, g].map c.lookupIPAddr) =
      (c.collector pr).stop (c.answered f ++ c.answered g, c.errsOf f ++ c.errsOf g) := by
  rw [List.map_cons, List.map_cons, List.map_nil, Collector.run_cons, take_collector (h f),
    Collector.rest, Collector.run_cons, take_collector (h g)]
  rfl

theorem run_collector_of_not (h : ¬c.Responds f ∨ ¬c.Responds g) :
    (c.collector pr).run ([], []) ([f, g].map c.lookupIPAddr) = .panicked errNilDereference := by
  rw [List.map_cons, List.map_cons, List.map_nil, Collector.run_cons]
  by_cases hf : c.Responds f
  · rw [take_collector hf, Collector.rest, Collector.run_cons,
      take_collector_of_not (h.resolve_left (not_not.mpr hf)), Collector.rest]
  · rw [take_collector_of_not hf, Collector.rest]

theorem perm_pair (h : [f, g].Perm [.ip4, .ip6]) : f = .ip4 ∧ g = .ip6 ∨ f = .ip6 ∧ g = .ip4 := by
  cases f <;> cases g
  · exact absurd h (by decide)
  · exact .inl ⟨rfl, rfl⟩
  · exact .inr ⟨rfl, rfl⟩
  · exact absurd h (by decide)

theorem mem_pair (h : [f, g].Perm [.ip4, .ip6]) (k : Bootstrap.Family) : k = f ∨ k = g := by
  rcases perm_pair h with ⟨rfl, rfl⟩ | ⟨rfl, rfl⟩ <;> cases k <;> simp

theorem result_stop (hperm : [f, g].Perm [.ip4, .ip6]) :
    Result pr c
      ((c.collector pr).stop (c.answered f ++ c.answered g, c.errsOf f ++ c.errsOf g)) := by
  have hflat {β : Type} (k : Bootstrap.Family → List β) : (k f ++ k g).Perm (k .ip4 ++ k .ip6) := by
    simpa using hperm.flatMap_right k
  unfold collector
  dsimp only
  split
  · next h =>
    obtain ⟨hnone, herrs⟩ := h
    obtain ⟨hf, hg⟩ := List.append_eq_nil_iff.mp (List.length_eq_zero_iff.mp hnone)
    rw [joined_of_ne fun hnil => herrs (List.length_eq_zero_iff.mpr hnil)]
    refine .failed (fun k => ?_) (hflat c.errsOf)
    rcases mem_pair hperm k with rfl | rfl
    · exact hf
    · exact hg
  · next h =>
    have hsorted := pr.perm_sort c.preferIPv6 (c.answered f ++ c.answered g)
    refine .found (hsorted.trans (hflat c.answered)) (pr.pairwise_sort _ _)
      (pr.sort_eq_of_perm _ (hflat c.answered)) fun hnil => ?_
    -- No address at all, so that an error would have been returned.
    rw [hnil] at hsorted
    have hnone := hsorted.symm.eq_nil
    have herrs : c.errsOf f ++ c.errsOf g = [] := by
      by_contra hne
      exact h ⟨List.length_eq_zero_iff.mpr hnone, fun hz => hne (List.length_eq_zero_iff.mp hz)⟩
    obtain ⟨hf, hg⟩ := List.append_eq_nil_iff.mp herrs
    intro k
    rcases mem_pair hperm k with rfl | rfl
    · exact hf
    · exact hg

end LookupCall

theorem LookupCall.completes_lookups (pr : Preference) (c : LookupCall) :
    Completes (c.lookups pr) fun r =>
      (∃ e, c.cancelled = some e ∧ r = .failed (.of e)) ∨ c.Returns pr r := by
  refine completes_ofList (fun ys hperm => .inr ?_) (fun r hr => .inl ?_)
  · match ys, hperm.length_eq with
    | [f, g], _ =>
      by_cases hresp : ∀ f, c.Responds f
      · rw [LookupCall.run_collector hresp]
        exact .inl ⟨hresp, LookupCall.result_stop hperm⟩
      · obtain ⟨k, hk⟩ := not_forall.mp hresp
        refine .inr ⟨⟨k, hk⟩, LookupCall.run_collector_of_not ?_⟩
        rcases LookupCall.mem_pair hperm k with rfl | rfl
        · exact .inl hk
        · exact .inr hk
  · obtain ⟨e, he, rfl⟩ := Option.map_eq_some_iff.mp hr
    exact ⟨e, he, rfl⟩

/-- The two lookups of `Proxy.LookupNetIP` and its caller come to an end in every
interleaving, and neither lookup is left behind. For a host, and unless the context is done,
the call returns the addresses of both answers, those of the preferred family first, in an
order that does not depend on which answer comes first. It fails just if there is no address
and a lookup failed, and panics just if `Resolve` returned neither a response nor an error. -/
theorem lookupNetIP_interleaved (pr : Preference) (c : LookupCall) :
    Completes (c.lookups pr) (fun r =>
        (∃ e, c.cancelled = some e ∧ r = .failed (.of e)) ∨ c.Returns pr r) ∧
      ∀ r, c.Ends pr r →
        (c.host = [] ∧ r = .failed (.of errEmptyHost)) ∨
          (∃ e, (c.ctxErr = some e ∨ c.cancelled = some e) ∧ r = .failed (.of e)) ∨
          c.Returns pr r := by
  have hcompletes := LookupCall.completes_lookups pr c
  refine ⟨hcompletes, fun r hr => ?_⟩
  unfold LookupCall.Ends at hr
  split at hr
  · next hhost => exact .inl ⟨hhost, hr⟩
  · split at hr
    · next e he => exact .inr (.inl ⟨e, .inl he, hr⟩)
    · obtain ⟨n, st, hafter, hcaller⟩ := hr
      rcases hcompletes.returned n st r hafter hcaller with ⟨e, he, hr⟩ | hreturns
      · exact .inr (.inl ⟨e, .inr he, hr⟩)
      · exact .inr (.inr hreturns)

/-- The place of an address among all: by the family, and within it by the number that the
bytes are. -/
def rank (v6 : Bool) (a : NetAddr) : Int :=
  (if Preferred v6 a then 0 else 2 ^ 128) + BigEndian.decode a.1

theorem decode_lt_of_netAddr (a : NetAddr) : (BigEndian.decode a.1 : Int) < 2 ^ 128 := by
  have hlt := BigEndian.decode_lt a.1
  rcases a.2 with h | h
  · rw [h] at hlt
    exact_mod_cast Nat.lt_of_lt_of_le hlt (by decide)
  · rw [h] at hlt
    exact_mod_cast hlt

theorem eq_of_rank {v6 : Bool} {a b : NetAddr} (h : rank v6 a = rank v6 b) : a = b := by
  have ha := decode_lt_of_netAddr a
  have hb := decode_lt_of_netAddr b
  have hiff : Preferred v6 a ↔ Preferred v6 b := by
    by_cases hpa : Preferred v6 a <;> by_cases hpb : Preferred v6 b <;>
      simp only [rank, hpa, hpb, if_true, if_false] at h ⊢ <;> omega
  have hlength : a.1.length = b.1.length := by
    unfold Preferred at hiff
    rcases a.2 with ha | ha <;> rcases b.2 with hb | hb <;> cases v6 <;>
      simp [ha, hb, ipv4Len, ipv6Len] at hiff ⊢
  have hdecode : BigEndian.decode a.1 = BigEndian.decode b.1 := by
    simpa [rank, hiff] using h
  apply Subtype.ext
  rw [← BigEndian.encode_decode a.1, ← BigEndian.encode_decode b.1, hlength, hdecode]

/-- The comparison of the two functions, for addresses without a zone. -/
def byRank : Preference where
  compare v6 a b := rank v6 a - rank v6 b
  total v6 a b := by omega
  antisymm v6 a b hab hba := eq_of_rank (le_antisymm (sub_nonpos.mp hab) (sub_nonpos.mp hba))
  trans v6 a b c hab hbc := by omega
  first v6 a b ha hb := by
    have hlt := decode_lt_of_netAddr a
    simp only [rank, if_pos ha, if_neg hb]
    omega

/-- A lookup of a host that has one address of each family. -/
def exampleLookup : LookupCall where
  preferIPv6 := true
  host := ascii "example.org"
  resolve _ d := .returned (some (Bootstrap.hostReply d.req)) none
  id _ := 7
  ctxErr := none
  cancelled := none

/-- The IPv6 address comes first in every interleaving. -/
theorem lookupNetIP_interleaved_example :
    Completes (exampleLookup.lookups byRank)
      fun r => r = .addrs [exampleAddr6, exampleAddr4] := by
  refine (lookupNetIP_interleaved byRank exampleLookup).1.imp fun r hr => ?_
  rcases hr with ⟨e, he, -⟩ | ⟨-, hresult⟩ | ⟨⟨f, hnone⟩, -⟩
  · cases he
  · cases hresult with
    | failed hnone _ => exact absurd (hnone .ip4) (by decide +kernel)
    | found _ _ heq _ =>
      rw [heq]
      decide +kernel
  · refine absurd (.inr fun h => ?_) hnone
    cases f <;> cases h

end DnsProxy
