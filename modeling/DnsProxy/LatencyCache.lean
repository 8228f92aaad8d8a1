import DnsProxy.FastestAddr
import Mathlib.Logic.Function.Basic

/-!
# The cache of latencies

`cacheAddSuccessful` and `cacheAddFailure` add the result of a ping to the cache. Each call
holds a lock while it looks the address up and stores an entry; it reads the clock for either.
A result is stored if there is no live entry for its address, and a success also over a failure
or over a greater latency. An entry lives for 600 seconds.

A period of an address starts with a call that finds no live entry and goes on with the calls
that find one, so the entry may be replaced in it.

* `Tracked`: a cache and what has happened to one address of it. `Tracked.Kept` says that the
  bytes of the cache are the best result of the period; `kept_after` is the run lemma.
* `latencyCache_keeps_best`: what is found in the cache.
* `Surroundings.unmapped_of_pings`, `Surroundings.LiveSuccess.best`: what a search for the
  fastest address meets in a cache that pings have filled.
-/

namespace DnsProxy.FastIP

/-! ## The calls -/

/-- An `int64`: the seconds of a time, or the milliseconds of a latency. -/
abbrev Signed := { x : Int // InInt64 x }

def fastestAddrCacheTTLSec : UInt32 := 10 * 60

/-- The cache. It keeps an entry until it is overwritten. -/
abbrev IPCache := Addr → Option Bytes

def cacheFind (cache : IPCache) (ip : Addr) (now : Signed) : Option CacheEntry :=
  (cache ip).bind fun val => unpackCacheEntry val now.1

def cacheAdd (cache : IPCache) (ent : CacheEntry) (ip : Addr) (ttl : UInt32) (now : Signed) :
    IPCache :=
  Function.update cache ip (some (packCacheEntry ent ttl now.1))

/-- The clock reads `findAt` in `cacheFind` and `storeAt` in `cacheAdd`. -/
def cacheAddFailure (cache : IPCache) (ip : Addr) (findAt storeAt : Signed) : IPCache :=
  let ent : CacheEntry := { failed := true, latencyMsec := 0 }
  match cacheFind cache ip findAt with
  | none => cacheAdd cache ent ip fastestAddrCacheTTLSec storeAt
  | some _ => cache

def cacheAddSuccessful (cache : IPCache) (ip : Addr) (latency findAt storeAt : Signed) :
    IPCache :=
  let ent : CacheEntry := { failed := false, latencyMsec := latency.1 }
  match cacheFind cache ip findAt with
  | none => cacheAdd cache ent ip fastestAddrCacheTTLSec storeAt
  | some entCached =>
    if entCached.failed ∨ entCached.latencyMsec > latency.1 then
      cacheAdd cache ent ip fastestAddrCacheTTLSec storeAt
    else cache

/-- A call of one of the two. -/
structure Add where
  ip : Addr
  /-- The latency of a success; none for a failure. -/
  latency : Option Signed
  findAt : Signed
  storeAt : Signed

namespace Add

def run (cache : IPCache) (a : Add) : IPCache :=
  match a.latency with
  | none => cacheAddFailure cache a.ip a.findAt a.storeAt
  | some latency => cacheAddSuccessful cache a.ip latency a.findAt a.storeAt

/-- The entry of the result. -/
def entry (a : Add) : CacheEntry :=
  match a.latency with
  | none => { failed := true, latencyMsec := 0 }
  | some latency => { failed := false, latencyMsec := latency.1 }

/-- The result is stored if this is found in the cache. -/
def replaces (a : Add) : Option CacheEntry → Bool
  | none => true
  | some entCached =>
    match a.latency with
    | none => false
    | some latency => entCached.failed || entCached.latencyMsec > latency.1

theorem run_eq (cache : IPCache) (a : Add) :
    a.run cache = if a.replaces (cacheFind cache a.ip a.findAt) then
      cacheAdd cache a.entry a.ip fastestAddrCacheTTLSec a.storeAt else cache := by
  unfold run replaces entry
  cases a.latency with
  | none =>
    simp only [cacheAddFailure]
    cases cacheFind cache a.ip a.findAt <;> rfl
  | some latency =>
    simp only [cacheAddSuccessful]
    cases cacheFind cache a.ip a.findAt <;> simp

theorem run_of_replaces {cache : IPCache} {a : Add}
    (h : a.replaces (cacheFind cache a.ip a.findAt) = true) :
    a.run cache a.ip = some (packCacheEntry a.entry fastestAddrCacheTTLSec a.storeAt.1) := by
  rw [run_eq, if_pos h]
  exact Function.update_self _ _ _

theorem run_of_not {cache : IPCache} {a : Add}
    (h : a.replaces (cacheFind cache a.ip a.findAt) = false) : a.run cache = cache := by
  rw [run_eq, h]
  rfl

theorem run_of_ne {cache : IPCache} {a : Add} {ip : Addr} (h : a.ip ≠ ip) :
    a.run cache ip = cache ip := by
  rw [run_eq]
  split
  · exact Function.update_of_ne (Ne.symm h) _ _
  · rfl

theorem entry_inInt64 (a : Add) : InInt64 a.entry.latencyMsec := by
  unfold entry
  cases a.latency with
  | none => exact ⟨by decide, by decide⟩
  | some latency => exact latency.2

end Add

/-- The cache after some calls, from the empty one. -/
def cacheAfter (adds : List Add) : IPCache :=
  adds.foldl (fun cache a => a.run cache) fun _ => none

/-! ## The lifetime of an entry -/

theorem expire_le {now : Int} (hnow : InInt64 now) (ttl : Nat) :
    toInt64 (BigEndian.decode (BigEndian.encode 8 (toUint64 (now + ttl)))) ≤ now + ttl := by
  have hlt : toUint64 (now + ttl) < 256 ^ 8 := (BitVec.ofInt 64 (now + ttl)).isLt
  rw [BigEndian.decode_encode_of_lt hlt, toInt64, toUint64, BitVec.ofNat_toNat,
    BitVec.setWidth_eq, BitVec.toInt_ofInt]
  obtain ⟨hlow, _⟩ := hnow
  simp only [Int.bmod]
  omega

variable {ent : CacheEntry}

theorem unpackCacheEntry_alive {found : CacheEntry} {stored : Signed} {now : Int}
    (hent : InInt64 ent.latencyMsec)
    (h : unpackCacheEntry (packCacheEntry ent fastestAddrCacheTTLSec stored.1) now = some found) :
    found = ent ∧ now < stored.1 + 600 := by
  have hexpire := expire_le stored.2 fastestAddrCacheTTLSec.toNat
  rw [packCacheEntry, unpackCacheEntry_parts (BigEndian.length_encode _ _)
    (BigEndian.length_encode _ _), toInt64_decode hent] at h
  split at h
  · cases h
  · rename_i halive
    refine ⟨(Option.some.inj h).symm, ?_⟩
    have httl : (fastestAddrCacheTTLSec.toNat : Int) = 600 := rfl
    omega

/-! ## One address -/

/-- The best result of some calls: the success with the least latency, or a failure if there
are only failures. -/
def Best (adds : List Add) (ent : CacheEntry) : Prop :=
  (ent.failed = false ∧ (∃ a ∈ adds, a.entry = ent) ∧
    ∀ a ∈ adds, ∀ latency, a.latency = some latency → ent.latencyMsec ≤ latency.1) ∨
  (ent.failed = true ∧ ∀ a ∈ adds, a.latency = none)

theorem best_singleton (a : Add) : Best [a] a.entry := by
  unfold Best
  cases hlatency : a.latency with
  | none => exact Or.inr ⟨by simp [Add.entry, hlatency], by simp [hlatency]⟩
  | some latency =>
    refine Or.inl ⟨by simp [Add.entry, hlatency], ⟨a, List.mem_singleton.2 rfl, rfl⟩, ?_⟩
    intro b hb latency' hlatency'
    obtain rfl := List.mem_singleton.1 hb
    obtain rfl := Option.some.inj (hlatency.symm.trans hlatency')
    simp [Add.entry, hlatency]

theorem Best.concat_of_not {adds : List Add} (h : Best adds ent) {a : Add}
    (ha : a.replaces (some ent) = false) : Best (adds ++ [a]) ent := by
  unfold Add.replaces at ha
  rcases h with ⟨hok, ⟨b, hb, hentry⟩, hmin⟩ | ⟨hfailed, hall⟩
  · refine Or.inl ⟨hok, ⟨b, List.mem_append_left _ hb, hentry⟩, ?_⟩
    refine List.forall_mem_append.2 ⟨hmin, List.forall_mem_singleton.2 fun latency hlatency => ?_⟩
    simpa [hlatency, hok] using ha
  · refine Or.inr ⟨hfailed, List.forall_mem_append.2 ⟨hall, List.forall_mem_singleton.2 ?_⟩⟩
    cases hlatency : a.latency with
    | none => rfl
    | some latency => simp [hlatency, hfailed] at ha

theorem Best.concat_of_replaces {adds : List Add} (h : Best adds ent) {a : Add}
    (ha : a.replaces (some ent) = true) : Best (adds ++ [a]) a.entry := by
  unfold Add.replaces at ha
  cases hlatency : a.latency with
  | none => simp [hlatency] at ha
  | some latency =>
    have hentry : a.entry = ⟨latency.1, false⟩ := by simp [Add.entry, hlatency]
    refine Or.inl ⟨by rw [hentry], ⟨a, by simp, rfl⟩, ?_⟩
    rw [hentry]
    refine List.forall_mem_append.2 ⟨fun b hb other hother => ?_, ?_⟩
    · rcases h with ⟨hok, _, hmin⟩ | ⟨_, hall⟩
      · have hless : latency.1 < ent.latencyMsec := by simpa [hlatency, hok] using ha
        exact hless.le.trans (hmin b hb other hother)
      · simp [hall b hb] at hother
    · refine List.forall_mem_singleton.2 fun other hother => ?_
      rw [Option.some.inj (hlatency.symm.trans hother)]

/-- A cache, and what has happened to one address. -/
structure Tracked where
  cache : IPCache
  /-- The calls for the address since the start of its current period. -/
  period : List Add
  /-- The last call that has stored an entry for the address. -/
  stored : Option Add

namespace Tracked

def empty : Tracked := ⟨fun _ => none, [], none⟩

def run (ip : Addr) (t : Tracked) (a : Add) : Tracked :=
  if a.ip = ip then
    { cache := a.run t.cache
      period := if cacheFind t.cache ip a.findAt = none then [a] else t.period ++ [a]
      stored := if a.replaces (cacheFind t.cache ip a.findAt) then some a else t.stored }
  else { t with cache := a.run t.cache }

/-- All that has happened to an address in some calls. -/
def after (ip : Addr) (adds : List Add) : Tracked := adds.foldl (run ip) empty

variable {t : Tracked}

theorem run_new {a : Add} (h : cacheFind t.cache a.ip a.findAt = none) :
    t.run a.ip a = ⟨a.run t.cache, [a], some a⟩ := by
  unfold run
  rw [if_pos rfl, if_pos h, h]
  rfl

theorem run_live {a : Add} {ent : CacheEntry} (h : cacheFind t.cache a.ip a.findAt = some ent) :
    t.run a.ip a =
      ⟨a.run t.cache, t.period ++ [a], if a.replaces (some ent) then some a else t.stored⟩ := by
  unfold run
  rw [if_pos rfl, h, if_neg (Option.some_ne_none ent)]

theorem run_other {a : Add} {ip : Addr} (h : a.ip ≠ ip) :
    t.run ip a = { t with cache := a.run t.cache } := by
  unfold run
  rw [if_neg h]

theorem cache_run (ip : Addr) (t : Tracked) (a : Add) : (t.run ip a).cache = a.run t.cache := by
  unfold run
  split <;> rfl

theorem cache_after (ip : Addr) (adds : List Add) : (after ip adds).cache = cacheAfter adds :=
  (List.foldl_hom cache fun t a => (cache_run ip t a).symm).symm

/-- The cache has the entry of the last call that has stored one, and it is the best one of the
period. -/
def Kept (ip : Addr) (t : Tracked) : Prop :=
  match t.stored with
  | none => t.cache ip = none
  | some a => t.cache ip = some (packCacheEntry a.entry fastestAddrCacheTTLSec a.storeAt.1) ∧
      a ∈ t.period ∧ Best t.period a.entry

theorem kept_of_stored {ip : Addr} {a : Add} (h : t.stored = some a) :
    t.Kept ip ↔ t.cache ip = some (packCacheEntry a.entry fastestAddrCacheTTLSec a.storeAt.1) ∧
      a ∈ t.period ∧ Best t.period a.entry := by
  unfold Kept
  rw [h]

theorem Kept.find {ip : Addr} (h : t.Kept ip) {now : Signed} {ent : CacheEntry}
    (hfind : cacheFind t.cache ip now = some ent) :
    ∃ a, t.stored = some a ∧ a.entry = ent ∧ now.1 < a.storeAt.1 + 600 ∧
      a ∈ t.period ∧ Best t.period ent := by
  unfold Kept at h
  unfold cacheFind at hfind
  cases hstored : t.stored with
  | none =>
    rw [hstored] at h
    rw [h] at hfind
    cases hfind
  | some a =>
    rw [hstored] at h
    obtain ⟨hcache, hmem, hbest⟩ := h
    rw [hcache, Option.bind_some] at hfind
    obtain ⟨rfl, halive⟩ := unpackCacheEntry_alive a.entry_inInt64 hfind
    exact ⟨a, rfl, rfl, halive, hmem, hbest⟩

theorem kept_run {ip : Addr} (h : t.Kept ip) (a : Add) : (t.run ip a).Kept ip := by
  by_cases hip : a.ip = ip
  · subst hip
    cases hfind : cacheFind t.cache a.ip a.findAt with
    | none =>
      -- The call starts a period.
      have hstore := @Add.run_of_replaces t.cache a (by rw [hfind]; rfl)
      rw [run_new hfind]
      exact (kept_of_stored rfl).2 ⟨hstore, List.mem_singleton.2 rfl, best_singleton a⟩
    | some ent =>
      obtain ⟨b, hstored, rfl, _, hmem, hbest⟩ := h.find hfind
      rw [run_live hfind]
      cases ha : a.replaces (some b.entry) with
      | true =>
        have hstore := Add.run_of_replaces (hfind ▸ ha)
        exact (kept_of_stored rfl).2 ⟨hstore, by simp, hbest.concat_of_replaces ha⟩
      | false =>
        have hcache := ((kept_of_stored hstored).1 h).1
        rw [Add.run_of_not (hfind ▸ ha)]
        exact (kept_of_stored (t := ⟨t.cache, t.period ++ [a], t.stored⟩) hstored).2
          ⟨hcache, List.mem_append_left _ hmem, hbest.concat_of_not ha⟩
  · rw [run_other hip]
    unfold Kept at *
    simpa only [Add.run_of_ne hip] using h

theorem kept_after (ip : Addr) (adds : List Add) : (after ip adds).Kept ip :=
  List.foldlRecOn adds (run ip) rfl fun _ h a _ => kept_run h a

end Tracked

/-! ## What is found -/

theorem cacheFind_of_le {cache : IPCache} {ip : Addr} {earlier now : Signed}
    (h : cacheFind cache ip now = some ent) (hle : earlier ≤ now) :
    cacheFind cache ip earlier = some ent := by
  obtain ⟨val, hval, hunpack⟩ := Option.bind_eq_some_iff.1 h
  have hle' : earlier.1 ≤ now.1 := hle
  refine Option.bind_eq_some_iff.2 ⟨val, hval, ?_⟩
  unfold unpackCacheEntry at hunpack ⊢
  split at hunpack
  · cases hunpack
  · rename_i hvalid
    rw [if_neg hvalid]
    split at hunpack
    · cases hunpack
    · rename_i halive
      rwa [if_neg (by omega)]

/-- The result of a ping, with the times at which it is added to the cache. -/
structure Ping where
  addr : Addr
  latency : Option Signed
  findAt : Signed
  storeAt : Signed

/-- What `pingDoTCP` adds: the result is for the address without the IPv4-mapped form. -/
def Ping.add (p : Ping) : Add := ⟨Net.unmap p.addr, p.latency, p.findAt, p.storeAt⟩

theorem isMapped_unmap (ip : Addr) : Net.isMapped (Net.unmap ip) = false := by
  unfold Net.unmap
  split
  · next h =>
    have hlen : ip.length = 16 := by simpa using (Bool.and_eq_true_iff.mp h).1
    simp [Net.isMapped, hlen]
  · next h => simpa using h

theorem cacheAfter_of_ne {adds : List Add} {ip : Addr} (h : ∀ a ∈ adds, a.ip ≠ ip) :
    cacheAfter adds ip = none :=
  List.foldlRecOn (motive := fun cache : IPCache => cache ip = none) adds
    (fun cache a => a.run cache) rfl
    fun _ hcache a ha => (Add.run_of_ne (h a ha)).trans hcache

namespace Surroundings

variable {w : Surroundings}

/-- Pings leave nothing under a mapped address. -/
theorem unmapped_of_pings {results : List Ping}
    (hcached : w.cached = cacheAfter (results.map Ping.add)) : w.Unmapped := by
  intro ip hmapped
  rw [hcached]
  refine cacheAfter_of_ne fun a ha heq => ?_
  obtain ⟨p, -, rfl⟩ := List.mem_map.mp ha
  have hunmapped := isMapped_unmap p.addr
  rw [show Net.unmap p.addr = ip from heq, hmapped] at hunmapped
  cases hunmapped

/-- A success that is stored for an address is the best result of its period. -/
theorem LiveSuccess.best {adds : List Add} (hcached : w.cached = cacheAfter adds) {ip : Addr}
    (hclock : InInt64 (w.clock ip)) {latency : Int} (h : w.LiveSuccess ip latency) :
    Best (Tracked.after (Net.unmap ip) adds).period ⟨latency, false⟩ := by
  obtain ⟨ttl, stored, hlatency, hexpire, hdata, halive⟩ := h
  have hfind : FastIP.cacheFind (Tracked.after (Net.unmap ip) adds).cache (Net.unmap ip)
      ⟨w.clock ip, hclock⟩ = some ⟨latency, false⟩ := by
    rw [Tracked.cache_after, ← hcached, FastIP.cacheFind, hdata, Option.bind_some,
      unpackCacheEntry_pack hlatency hexpire, if_neg (not_le.mpr halive)]
  obtain ⟨_, _, _, _, _, hbest⟩ := (Tracked.kept_after (Net.unmap ip) adds).find hfind
  exact hbest

end Surroundings

/-- After any calls for any addresses, at any times: what is found for an address is the best
result of the current period, and it was stored less than 600 seconds ago. A failure that is
added up to this time changes nothing. -/
theorem latencyCache_keeps_best (adds : List Add) (ip : Addr) (now : Signed) (ent : CacheEntry)
    (hfind : cacheFind (cacheAfter adds) ip now = some ent) :
    Best (Tracked.after ip adds).period ent ∧
    (∃ a ∈ (Tracked.after ip adds).period, (Tracked.after ip adds).stored = some a ∧
      a.entry = ent ∧ now.1 < a.storeAt.1 + 600) ∧
    ∀ findAt ≤ now, ∀ storeAt,
      cacheAddFailure (cacheAfter adds) ip findAt storeAt = cacheAfter adds := by
  have hkept := Tracked.kept_after ip adds
  obtain ⟨a, hstored, hentry, halive, hmem, hbest⟩ :=
    hkept.find (by rwa [Tracked.cache_after])
  refine ⟨hbest, ⟨a, hmem, hstored, hentry, halive⟩, fun findAt hle storeAt => ?_⟩
  unfold cacheAddFailure
  rw [cacheFind_of_le hfind hle]

/-- A failure at 0, a success of 30 ms at 100, one of 20 ms at 650 and a failure at 660. The
entry of the third is found at 1249, although the first would have expired at 600. -/
theorem latencyCache_keeps_twenty :
    let sec (n : UInt16) : Signed := ⟨n.toNat, by unfold InInt64; have := n.toNat_lt; omega⟩
    let adds : List Add := [⟨[192, 0, 2, 1], none, sec 0, sec 0⟩,
      ⟨[192, 0, 2, 1], some (sec 30), sec 100, sec 101⟩,
      ⟨[192, 0, 2, 1], some (sec 20), sec 650, sec 650⟩,
      ⟨[192, 0, 2, 1], none, sec 660, sec 660⟩]
    Best (Tracked.after [192, 0, 2, 1] adds).period ⟨20, false⟩ := by
  intro sec adds
  exact (latencyCache_keeps_best adds [192, 0, 2, 1] (sec 1249) ⟨20, false⟩
    (by decide +kernel)).1

end DnsProxy.FastIP
