import DnsProxy.ParallelExchange
import DnsProxy.Lib.BigEndian
import Mathlib.Data.List.Dedup
import Mathlib.Data.List.Perm.Subperm

/-!
# The fastest address

`ExchangeFastest` asks all upstreams, looks for the address of their replies that answers a
TCP connection first, and returns a reply with this address only.

The addresses are the candidates. An address whose latency is in the cache is not pinged; the
others are, on two ports each, and the first success to arrive before the timeout competes with
the best one of the cache.

A ping stores its result under the address without the IPv4-mapped form, and the cache is asked
for the address as it is in the reply. So a success of a mapped address is not found.

* `unpackCacheEntry_pack`: what is read from the cache is what was written there.
* `LiveSuccess`: a success that is stored for an address; `cacheFind_iff` says when it is found.
* `schedulePings_fastest`, `pingAll_spec`: the address that is picked.
* `prepareReply_spec`: the reply that is returned for it.
* `exchangeFastest_eq`: with one result for each upstream this is the function of `Upstreams`.
* `fastestAddr_wellFormed_iff`: the whole exchange.
-/

namespace DnsProxy.FastIP

/-! ## The latency cache -/

structure CacheEntry where
  latencyMsec : Int
  failed : Bool
deriving DecidableEq, Repr

/-- `uint64(x)` for an `int64`. -/
def toUint64 (x : Int) : Nat := (BitVec.ofInt 64 x).toNat

/-- `int64(n)` for a `uint64`. -/
def toInt64 (n : Nat) : Int := (BitVec.ofNat 64 n).toInt

def packCacheEntry (ent : CacheEntry) (ttl : UInt32) (now : Int) : Bytes :=
  BigEndian.encode 8 (toUint64 (now + ttl.toNat)) ++
    (if ent.failed then 1 else 0) :: BigEndian.encode 8 (toUint64 ent.latencyMsec)

def unpackCacheEntry (data : Bytes) (now : Int) : Option CacheEntry :=
  if data.length ≠ 17 ∨ 1 < data.getD 8 0 then none
  else if toInt64 (BigEndian.decode (data.take 8)) ≤ now then none
  else some ⟨toInt64 (BigEndian.decode (data.drop 9)), data.getD 8 0 == 1⟩

/-- The numbers of an `int64`. -/
def InInt64 (x : Int) : Prop := -2 ^ 63 ≤ x ∧ x < 2 ^ 63

theorem toInt64_decode {x : Int} (h : InInt64 x) :
    toInt64 (BigEndian.decode (BigEndian.encode 8 (toUint64 x))) = x := by
  have hlt : toUint64 x < 256 ^ 8 := (BitVec.ofInt 64 x).isLt
  rw [BigEndian.decode_encode_of_lt hlt, toInt64, toUint64, BitVec.ofNat_toNat,
    BitVec.setWidth_eq]
  exact BitVec.toInt_ofInt_eq_self (by decide) h.1 h.2

theorem unpackCacheEntry_parts {expire latency : Bytes} (hexpire : expire.length = 8)
    (hlatency : latency.length = 8) (failed : Bool) (now : Int) :
    unpackCacheEntry (expire ++ (if failed then 1 else 0) :: latency) now =
      if toInt64 (BigEndian.decode expire) ≤ now then none
      else some ⟨toInt64 (BigEndian.decode latency), failed⟩ := by
  have hstatus : (expire ++ (if failed then 1 else 0) :: latency).getD 8 0 =
      if failed then 1 else 0 := by
    rw [List.getD_eq_getElem?_getD, List.getElem?_append_right (Nat.le_of_eq hexpire), hexpire]
    rfl
  have hdrop : (expire ++ (if failed then 1 else 0) :: latency).drop 9 = latency := by
    rw [List.append_cons, List.drop_left' (by rw [List.length_append, hexpire]; rfl)]
  have hlen : (expire ++ (if failed then 1 else 0) :: latency).length = 17 := by
    rw [List.length_append, List.length_cons, hexpire, hlatency]
  unfold unpackCacheEntry
  rw [hstatus, hdrop, hlen, List.take_left' hexpire]
  cases failed <;> rfl

/-- An entry is found until it expires. -/
theorem unpackCacheEntry_pack {ent : CacheEntry} {ttl : UInt32} {now : Int}
    (hlatency : InInt64 ent.latencyMsec) (hexpire : InInt64 (now + ttl.toNat)) (later : Int) :
    unpackCacheEntry (packCacheEntry ent ttl now) later =
      if now + ttl.toNat ≤ later then none else some ent := by
  unfold packCacheEntry
  rw [unpackCacheEntry_parts (BigEndian.length_encode _ _) (BigEndian.length_encode _ _),
    toInt64_decode hexpire, toInt64_decode hlatency]

theorem inInt64_toInt64 (n : Nat) : InInt64 (toInt64 n) :=
  ⟨BitVec.le_toInt _, BitVec.toInt_lt⟩

theorem encode_toInt64 {data : Bytes} (h : data.length = 8) :
    BigEndian.encode 8 (toUint64 (toInt64 (BigEndian.decode data))) = data := by
  have hlt : BigEndian.decode data < 256 ^ 8 := h ▸ BigEndian.decode_lt data
  have hid : toUint64 (toInt64 (BigEndian.decode data)) = BigEndian.decode data := by
    rw [toUint64, toInt64, BitVec.ofInt_toInt, BitVec.toNat_ofNat]
    exact Nat.mod_eq_of_lt hlt
  rw [hid, ← h, BigEndian.encode_decode]

theorem pack_of_unpackCacheEntry {data : Bytes} {now : Int} {ent : CacheEntry}
    (h : unpackCacheEntry data now = some ent) :
    InInt64 ent.latencyMsec ∧ ∃ expire, InInt64 expire ∧ now < expire ∧
      data = packCacheEntry ent 0 expire := by
  unfold unpackCacheEntry at h
  split at h
  · cases h
  · next hvalid =>
    obtain ⟨hlen, hstatus⟩ := not_or.mp hvalid
    rw [not_not] at hlen
    split at h
    · cases h
    · next halive =>
      cases h
      refine ⟨inInt64_toInt64 _, _, inInt64_toInt64 (BigEndian.decode (data.take 8)),
        not_le.mp halive, ?_⟩
      have hflag : (if (data.getD 8 0 == 1) = true then 1 else 0) = data.getD 8 0 := by
        generalize data.getD 8 0 = b at hstatus ⊢
        have hb : b.toNat ≤ 1 := UInt8.le_iff_toNat_le.mp (UInt8.not_lt.mp hstatus)
        split
        · next heq => exact (beq_iff_eq.mp heq).symm
        · next hne =>
          have hne1 : b.toNat ≠ 1 := fun h1 => hne (beq_iff_eq.mpr (UInt8.toNat_inj.mp h1))
          exact (UInt8.toNat_inj.mp (show b.toNat = 0 by omega)).symm
      rw [packCacheEntry, hflag, show ((0 : UInt32).toNat : Int) = 0 from rfl, Int.add_zero,
        encode_toInt64 (by simp [hlen]), encode_toInt64 (by simp [hlen])]
      have hcons : data.drop 8 = data.getD 8 0 :: data.drop 9 := by
        rw [List.drop_eq_getElem_cons (by omega : 8 < data.length)]
        simp [hlen]
      rw [← hcons, List.take_append_drop]

/-! ## Pings -/

structure PingResult where
  addr : Addr
  port : Nat
  latency : Int
  success : Bool
deriving DecidableEq, Repr

/-- What a search for the fastest address meets. The cache is read once for each address, at
its own time. -/
structure Surroundings where
  /-- The value that `ipCache.Get` returns. -/
  cached : Addr → Option Bytes
  /-- The time at which it does, in seconds. -/
  clock : Addr → Int
  /-- The latency of a connection, and whether it succeeds. -/
  dial : Addr → Nat → Int × Bool
  /-- The pings whose results are received before the timeout, in this order. -/
  arrived : List (Addr × Nat)

namespace Surroundings

variable (w : Surroundings)

def cacheFind (ip : Addr) : Option CacheEntry :=
  (w.cached ip).bind fun val => unpackCacheEntry val (w.clock ip)

/-- A success with the latency is stored for the address, and has not expired. A ping stores its
result under the address without the IPv4-mapped form. -/
def LiveSuccess (ip : Addr) (latency : Int) : Prop :=
  ∃ (ttl : UInt32) (stored : Int), InInt64 latency ∧ InInt64 (stored + ttl.toNat) ∧
    w.cached (Net.unmap ip) = some (packCacheEntry ⟨latency, false⟩ ttl stored) ∧
    w.clock ip < stored + ttl.toNat

/-- Nothing is stored under an IPv4-mapped address. -/
def Unmapped : Prop := ∀ ip, Net.isMapped ip = true → w.cached ip = none

/-- What `pingDoTCP` sends. -/
def pingDoTCP (x : Addr × Nat) : PingResult := ⟨x.1, x.2, (w.dial x.1 x.2).1, (w.dial x.1 x.2).2⟩

end Surroundings

def pingPorts : List Nat := [80, 443]

section Ping

variable (w : Surroundings)

/-- The loop of `schedulePings`: the best address of the cache, and the addresses that are
pinged. -/
def schedulePings : List Addr → Option PingResult → Option PingResult × List Addr
  | [], pr => (pr, [])
  | ip :: ips, pr =>
    match w.cacheFind ip with
    | none =>
      let (pr, pinged) := schedulePings ips pr
      (pr, ip :: pinged)
    | some ent =>
      if !ent.failed && pr.all (fun p => decide (ent.latencyMsec < p.latency)) then
        schedulePings ips (some ⟨ip, 0, ent.latencyMsec, true⟩)
      else schedulePings ips pr

/-- The first successful result, or `none` for the timeout. -/
def firstSuccessRes (results : List PingResult) : Option PingResult := results.find? (·.success)

def pingAll : List Addr → Option PingResult
  | [] => none
  | [ip] => some ⟨ip, 0, 0, true⟩
  | ips =>
    let (pr, pinged) := schedulePings w ips none
    if pinged = [] then pr
    else
      match firstSuccessRes (w.arrived.map w.pingDoTCP), pr with
      | none, pr => pr
      | some res, none => some res
      | some res, some p => if res.latency ≤ p.latency then some res else some p

/-- The pings that are started for the addresses. -/
def pings (ips : List Addr) : List (Addr × Nat) :=
  (schedulePings w ips none).2.flatMap fun ip => pingPorts.map fun port => (ip, port)

end Ping

section Pick

variable {w : Surroundings}

variable {ips : List Addr} {latency : Int}

/-- A success is found in the cache if it is stored for an address that is not mapped. -/
theorem cacheFind_iff (hkeys : w.Unmapped) {ip : Addr} :
    w.cacheFind ip = some ⟨latency, false⟩ ↔
      Net.isMapped ip = false ∧ w.LiveSuccess ip latency := by
  unfold Surroundings.cacheFind
  constructor
  · intro h
    obtain ⟨data, hdata, hfind⟩ := Option.bind_eq_some_iff.mp h
    have hip : Net.isMapped ip = false := by
      cases hmapped : Net.isMapped ip with
      | false => rfl
      | true =>
        rw [hkeys ip hmapped] at hdata
        cases hdata
    obtain ⟨hlatency, expire, hexpire, halive, rfl⟩ := pack_of_unpackCacheEntry hfind
    have hzero : expire + ((0 : UInt32).toNat : Int) = expire := Int.add_zero expire
    refine ⟨hip, 0, expire, hlatency, hzero.symm ▸ hexpire, ?_, hzero.symm ▸ halive⟩
    rw [Net.unmap, hip]
    exact hdata
  · rintro ⟨hip, ttl, stored, hlatency, hexpire, hdata, halive⟩
    rw [Net.unmap, hip] at hdata
    rw [show w.cached ip = _ from hdata, Option.bind_some,
      unpackCacheEntry_pack hlatency hexpire, if_neg (not_le.mpr halive)]

theorem Surroundings.LiveSuccess.unique {ip : Addr} {a b : Int} (ha : w.LiveSuccess ip a)
    (hb : w.LiveSuccess ip b) : a = b := by
  obtain ⟨ttl, stored, hlatency, hexpire, hdata, halive⟩ := ha
  obtain ⟨ttl', stored', hlatency', hexpire', hdata', halive'⟩ := hb
  have hfind : unpackCacheEntry (packCacheEntry ⟨a, false⟩ ttl stored) (w.clock ip) = _ :=
    unpackCacheEntry_pack hlatency hexpire _
  have hfind' : unpackCacheEntry (packCacheEntry ⟨b, false⟩ ttl' stored') (w.clock ip) = _ :=
    unpackCacheEntry_pack hlatency' hexpire' _
  rw [if_neg (not_le.mpr halive)] at hfind
  rw [if_neg (not_le.mpr halive'), ← Option.some.inj (hdata.symm.trans hdata'), hfind] at hfind'
  exact (CacheEntry.mk.inj (Option.some.inj hfind')).1

/-- No address of the list with a success that is stored for it is faster. -/
def Fastest (w : Surroundings) (ips : List Addr) (latency : Int) : Prop :=
  ∀ ip ∈ ips, ∀ cached, w.LiveSuccess ip cached → latency ≤ cached

theorem schedulePings_mem {pr : Option PingResult} {p : PingResult}
    (h : (schedulePings w ips pr).1 = some p) :
    pr = some p ∨ p.addr ∈ ips ∧ p.success = true ∧
      w.cacheFind p.addr = some ⟨p.latency, false⟩ := by
  induction ips generalizing pr with
  | nil => exact .inl h
  | cons ip ips ih =>
    unfold schedulePings at h
    split at h
    · exact (ih h).imp_right fun hp => ⟨List.mem_cons_of_mem _ hp.1, hp.2⟩
    · next ent hent =>
      split at h
      · next hbetter =>
        rcases ih h with hp | ⟨hmem, hsuccess⟩
        · cases hp
          have hok : ent.failed = false := by simpa using (Bool.and_eq_true_iff.mp hbetter).1
          exact .inr ⟨List.mem_cons_self, rfl, hent.trans (by rw [← hok])⟩
        · exact .inr ⟨List.mem_cons_of_mem _ hmem, hsuccess⟩
      · exact (ih h).imp_right fun hp => ⟨List.mem_cons_of_mem _ hp.1, hp.2⟩

theorem schedulePings_le (ips : List Addr) (before : PingResult) :
    ∃ p, (schedulePings w ips (some before)).1 = some p ∧ p.latency ≤ before.latency := by
  induction ips generalizing before with
  | nil => exact ⟨before, rfl, Int.le_refl _⟩
  | cons ip ips ih =>
    unfold schedulePings
    split
    · exact ih before
    · next ent _ =>
      split
      · next hbetter =>
        obtain ⟨p, hp, hle⟩ := ih ⟨ip, 0, ent.latencyMsec, true⟩
        have hlt : ent.latencyMsec < before.latency := by
          simpa using (Bool.and_eq_true_iff.mp hbetter).2
        exact ⟨p, hp, Int.le_trans hle (Int.le_of_lt hlt)⟩
      · exact ih before

/-- A success of the cache is returned, or a faster one. -/
theorem schedulePings_fastest {ip : Addr} (hip : ip ∈ ips)
    (hent : w.cacheFind ip = some ⟨latency, false⟩) (pr : Option PingResult) :
    ∃ p, (schedulePings w ips pr).1 = some p ∧ p.latency ≤ latency := by
  induction ips generalizing pr with
  | nil => cases hip
  | cons x ips ih =>
    unfold schedulePings
    rcases List.mem_cons.mp hip with rfl | hmem
    · rw [hent]
      dsimp only
      split
      · exact schedulePings_le ips ⟨ip, 0, latency, true⟩
      · next hbetter =>
        -- the result so far is as fast
        cases pr with
        | none => simp at hbetter
        | some before =>
          have hle : before.latency ≤ latency := by simpa using hbetter
          obtain ⟨p, hp, hple⟩ := schedulePings_le (w := w) ips before
          exact ⟨p, hp, Int.le_trans hple hle⟩
    · split
      · exact ih hmem pr
      · split
        · exact ih hmem _
        · exact ih hmem pr

theorem schedulePings_pinged (ips : List Addr) (pr : Option PingResult) :
    (schedulePings w ips pr).2 = ips.filter fun ip => (w.cacheFind ip).isNone := by
  induction ips generalizing pr with
  | nil => rfl
  | cons ip ips ih =>
    unfold schedulePings
    split
    · next hnone =>
      rw [List.filter_cons, hnone]
      exact congrArg (ip :: ·) (ih pr)
    · next hsome =>
      rw [List.filter_cons, hsome]
      split
      · exact ih _
      · exact ih _

/-- For each mapped address of the list with a stored success there is an address as fast that
is not mapped. -/
def NoneHidden (w : Surroundings) (ips : List Addr) : Prop :=
  ∀ m ∈ ips, Net.isMapped m = true → ∀ latency, w.LiveSuccess m latency →
    ∃ ip ∈ ips, Net.isMapped ip = false ∧ ∃ faster ≤ latency, w.LiveSuccess ip faster

theorem NoneHidden.cached (hkeys : w.Unmapped) (h : NoneHidden w ips) {ip : Addr} (hip : ip ∈ ips)
    (hlive : w.LiveSuccess ip latency) :
    ∃ p, (schedulePings w ips none).1 = some p ∧ p.latency ≤ latency := by
  cases hmapped : Net.isMapped ip with
  | false => exact schedulePings_fastest hip ((cacheFind_iff hkeys).mpr ⟨hmapped, hlive⟩) none
  | true =>
    obtain ⟨ip', hip', hunmapped, faster, hle, hlive'⟩ := h ip hip hmapped latency hlive
    obtain ⟨p, hp, hfast⟩ :=
      schedulePings_fastest hip' ((cacheFind_iff hkeys).mpr ⟨hunmapped, hlive'⟩) none
    exact ⟨p, hp, Int.le_trans hfast hle⟩

theorem fastest_of_cached (hkeys : w.Unmapped) (hhidden : NoneHidden w ips) {p : PingResult}
    (h : (schedulePings w ips none).1 = some p) (hle : latency ≤ p.latency) :
    Fastest w ips latency := by
  intro ip hip cached hlive
  obtain ⟨p', hp', hfast⟩ := hhidden.cached hkeys hip hlive
  cases h.symm.trans hp'
  exact Int.le_trans hle hfast

/-- An address that is picked. -/
structure Picked (w : Surroundings) (ips : List Addr) (pick : PingResult) : Prop where
  candidate : pick.addr ∈ ips
  success : pick.success = true
  fastest : 2 ≤ ips.length → Fastest w ips pick.latency

theorem picked_of_cached (hkeys : w.Unmapped) (hhidden : NoneHidden w ips) {p : PingResult}
    (h : (schedulePings w ips none).1 = some p) : Picked w ips p := by
  rcases schedulePings_mem h with hnone | ⟨hmem, hsuccess, -⟩
  · cases hnone
  · exact ⟨hmem, hsuccess, fun _ => fastest_of_cached hkeys hhidden h (Int.le_refl _)⟩

theorem picked_of_arrived {res : PingResult} (harrived : ∀ x ∈ w.arrived, x ∈ pings w ips)
    (hres : firstSuccessRes (w.arrived.map w.pingDoTCP) = some res)
    (hfast : Fastest w ips res.latency) : Picked w ips res := by
  obtain ⟨x, hx, rfl⟩ := List.mem_map.mp (List.mem_of_find?_eq_some hres)
  obtain ⟨ip, hip, hport⟩ := List.mem_flatMap.mp (harrived x hx)
  obtain ⟨port, -, rfl⟩ := List.mem_map.mp hport
  rw [schedulePings_pinged] at hip
  exact ⟨(List.mem_filter.mp hip).1, List.find?_some hres, fun _ => hfast⟩

theorem pingAll_spec (hkeys : w.Unmapped) (hhidden : 2 ≤ ips.length → NoneHidden w ips)
    {pick : PingResult} (harrived : ∀ x ∈ w.arrived, x ∈ pings w ips)
    (h : pingAll w ips = some pick) : Picked w ips pick := by
  unfold pingAll at h
  split at h
  · cases h
  · cases h
    exact ⟨List.mem_singleton_self _, rfl, fun hlen => absurd hlen (by simp)⟩
  · next hnil hone =>
    have hhidden : NoneHidden w ips := hhidden (by
      match ips, hnil, hone with
      | [], hnil, _ => exact absurd rfl hnil
      | [ip], _, hone => exact absurd rfl (hone ip)
      | _ :: _ :: _, _, _ => simp)
    simp only at h
    split at h
    · exact picked_of_cached hkeys hhidden h
    · split at h
      · exact picked_of_cached hkeys hhidden h
      · next res hres hnone =>
        cases h
        refine picked_of_arrived harrived hres fun ip hip cached hlive => ?_
        obtain ⟨p, hp, -⟩ := hhidden.cached hkeys hip hlive
        cases hnone.symm.trans hp
      · next res p hres hp =>
        split at h
        · next hle =>
          cases h
          exact picked_of_arrived harrived hres (fastest_of_cached hkeys hhidden hp hle)
        · cases h
          exact picked_of_cached hkeys hhidden hp

/-! ### A success that is not found -/

/-- The same cache, when the ping of one address on port 80 arrives and has taken `latency`. -/
def Surroundings.slowPing (w : Surroundings) (ip : Addr) (latency : Int) : Surroundings :=
  { w with dial := fun _ _ => (latency, true), arrived := [(ip, 80)] }

theorem mem_pings_of_mapped (hkeys : w.Unmapped) {m : Addr} (hm : m ∈ ips)
    (hmapped : Net.isMapped m = true) : (m, 80) ∈ pings w ips := by
  refine List.mem_flatMap.mpr ⟨m, ?_, by simp [pingPorts]⟩
  rw [schedulePings_pinged]
  refine List.mem_filter.mpr ⟨hm, ?_⟩
  rw [Surroundings.cacheFind, hkeys m hmapped]
  rfl

theorem pingAll_slowPing (hkeys : w.Unmapped) (hlen : 2 ≤ ips.length) {m : Addr} (hm : m ∈ ips)
    (hmapped : Net.isMapped m = true)
    (hnone : ∀ ip ∈ ips, Net.isMapped ip = false → ∀ faster ≤ latency, ¬ w.LiveSuccess ip faster) :
    pingAll (w.slowPing m (latency + 1)) ips = some ⟨m, 80, latency + 1, true⟩ := by
  have hfirst : firstSuccessRes (((w.slowPing m (latency + 1)).arrived).map
      (w.slowPing m (latency + 1)).pingDoTCP) = some ⟨m, 80, latency + 1, true⟩ := rfl
  have hping : (schedulePings (w.slowPing m (latency + 1)) ips none).2 ≠ [] := by
    intro hnil
    have hmem := mem_pings_of_mapped (w := w.slowPing m (latency + 1)) hkeys hm hmapped
    rw [pings, hnil] at hmem
    cases hmem
  match ips, hlen with
  | x :: y :: rest, _ =>
    simp only [pingAll, if_neg hping, hfirst]
    cases hp : (schedulePings (w.slowPing m (latency + 1)) (x :: y :: rest) none).1 with
    | none => rfl
    | some p =>
      rcases schedulePings_mem hp with hcontra | ⟨hmem, -, hfind⟩
      · cases hcontra
      · obtain ⟨hunmapped, hlive⟩ :=
          (cacheFind_iff (w := w.slowPing m (latency + 1)) hkeys).mp hfind
        have hslower : latency + 1 ≤ p.latency :=
          not_le.mp fun hle => hnone p.addr hmem hunmapped p.latency hle hlive
        dsimp only
        rw [if_pos hslower]

end Pick

/-! ## The reply -/

/-- `netutil.IPToAddr` takes the address in the form of the family. -/
structure ConvertsAddrs (pf : Platform) : Prop where
  ipv4 : ∀ ip, pf.ipToAddrIPv4 ip = Net.to4 ip
  ipv6 : ∀ ip, pf.ipToAddrIPv6 ip = Net.to16 ip

/-- The data of an address record. -/
def addressOf (r : RR) : Option Bytes :=
  match r.rdata with
  | .a ip | .aaaa ip => some ip
  | _ => none

/-- The records without an address. -/
def others (rs : List RR) : List RR := rs.filter fun r => (addressOf r).isNone

section Reply

variable {pf : Platform}

theorem ipEqual_to4 {ip a : Bytes} (h : Net.to4 (some ip) = some a) :
    Net.ipEqual (some ip) (some a) = true := by
  unfold Net.to4 at h
  split at h
  · cases h
    simp [Net.ipEqual]
  · split at h
    · next hmapped =>
      cases h
      obtain ⟨hlen, hhead⟩ := Bool.and_eq_true_iff.mp hmapped
      have h16 : ip.length = 16 := by simpa using hlen
      have h4 : (ip.drop 12).length = 4 := by rw [List.length_drop, h16]
      simpa [Net.ipEqual, h16, h4] using hhead
    · cases h

theorem ipEqual_to16 {ip a : Bytes} (h : Net.to16 (some ip) = some a) :
    Net.ipEqual (some ip) (some a) = true := by
  unfold Net.to16 at h
  split at h
  · next hlen =>
    cases h
    have h4 : ip.length = 4 := hlen
    simp [Net.ipEqual, h4, Net.v4InV6Prefix]
  · split at h
    · cases h
      simp [Net.ipEqual]
    · cases h

theorem ipEqual_ipFromRR (hpf : ConvertsAddrs pf) {r : RR} {a : Addr}
    (h : ipFromRR pf r = some a) :
    ∃ ip, addressOf r = some ip ∧ Net.ipEqual (some ip) (some a) = true := by
  unfold ipFromRR at h
  split at h
  · next ip hdata => exact ⟨ip, by simp only [addressOf, hdata], ipEqual_to4 (hpf.ipv4 _ ▸ h)⟩
  · next ip hdata => exact ⟨ip, by simp only [addressOf, hdata], ipEqual_to16 (hpf.ipv6 _ ▸ h)⟩
  · cases h

theorem mem_filterResponseAnswer {resp : Msg} {ip : Addr} {r : RR} :
    r ∈ (filterResponseAnswer resp ip).answer ↔
      r ∈ resp.answer ∧ ∀ a, addressOf r = some a → Net.ipEqual (some a) (some ip) = true := by
  unfold filterResponseAnswer addressOf
  rw [List.mem_filter]
  cases r.rdata <;> simp

theorem others_filterResponseAnswer (resp : Msg) (ip : Addr) :
    others (filterResponseAnswer resp ip).answer = others resp.answer := by
  unfold others filterResponseAnswer addressOf
  rw [List.filter_filter]
  refine List.filter_congr fun r _ => ?_
  cases r.rdata <;> simp

/-- A message cut down to an address of it. -/
structure CutDown (pf : Platform) (ip : Addr) (sent resp : Msg) : Prop where
  contained : ∃ r ∈ sent.answer, ipFromRR pf r = some ip
  rest : resp = { sent with answer := resp.answer }
  sublist : resp.answer.Sublist sent.answer
  left : ∃ r ∈ resp.answer, addressOf r ≠ none
  equal : ∀ r ∈ resp.answer, ∀ a, addressOf r = some a → Net.ipEqual (some a) (some ip) = true
  kept : others resp.answer = others sent.answer

theorem cutDown_filterResponseAnswer (hpf : ConvertsAddrs pf) {sent : Msg} {ip : Addr}
    (h : ∃ r ∈ sent.answer, ipFromRR pf r = some ip) :
    CutDown pf ip sent (filterResponseAnswer sent ip) where
  contained := h
  rest := rfl
  sublist := List.filter_sublist
  left := by
    obtain ⟨r, hr, hip⟩ := h
    obtain ⟨a, ha, heq⟩ := ipEqual_ipFromRR hpf hip
    refine ⟨r, mem_filterResponseAnswer.mpr ⟨hr, fun a' ha' => ?_⟩, by simp [ha]⟩
    cases ha.symm.trans ha'
    exact heq
  equal r hr := (mem_filterResponseAnswer.mp hr).2
  kept := others_filterResponseAnswer sent ip

/-- The first reply with the address is cut down to it. -/
theorem prepareReply_spec (hpf : ConvertsAddrs pf) {ip : Addr} {replies : List (Msg × Upstream)}
    (h : ∃ x ∈ replies, ∃ r ∈ x.1.answer, ipFromRR pf r = some ip) :
    ∃ sent u, (sent, u) ∈ replies ∧
      prepareReply pf ip replies = some (filterResponseAnswer sent ip, u) ∧
      CutDown pf ip sent (filterResponseAnswer sent ip) := by
  unfold prepareReply
  cases hfind : replies.find? fun x => x.1.answer.any fun r => ipFromRR pf r == some ip with
  | none =>
    obtain ⟨x, hx, r, hr, hip⟩ := h
    refine absurd ?_ (List.find?_eq_none.mp hfind x hx)
    exact List.any_eq_true.mpr ⟨r, hr, beq_iff_eq.mpr hip⟩
  | some x =>
    have hany := List.find?_some hfind
    obtain ⟨r, hr, hip⟩ := List.any_eq_true.mp hany
    exact ⟨x.1, x.2, List.mem_of_find?_eq_some hfind, rfl,
      cutDown_filterResponseAnswer hpf ⟨r, hr, beq_iff_eq.mp hip⟩⟩

end Reply

/-! ## The exchange -/

/-- `netip.Addr.IsUnspecified`. -/
def isUnspecified (ip : Addr) : Bool :=
  ip == List.replicate 4 0 || ip == List.replicate 16 0

/-- The addresses of the replies, of which `ipSet` has each once. -/
def candidates (pf : Platform) (replies : List (Msg × Upstream)) : List Addr :=
  replies.flatMap fun x => x.1.answer.filterMap fun r =>
    (ipFromRR pf r).filter fun ip => !isUnspecified ip

/-- What follows `ExchangeAll`, with the candidates in the order of `ipSet.Values`. -/
def fastestOf (pf : Platform) (w : Surroundings) (ips : List Addr)
    (replies : List (Msg × Upstream)) : Option (Msg × Upstream) :=
  match pingAll w ips with
  | some pick => prepareReply pf pick.addr replies
  | none => replies.head?

/-- `ExchangeFastest`. -/
def exchangeFastestAt (pf : Platform) (w : Surroundings) (ips : List Addr)
    (ups arrived : List Position) : Resolved :=
  match exchangeAllAt ups arrived with
  | (_, some e) => ⟨none, none, some e⟩
  | (replies, none) =>
    let reply := fastestOf pf w ips replies
    ⟨reply.map Prod.fst, reply.map Prod.snd, none⟩

theorem mem_candidates {pf : Platform} {replies : List (Msg × Upstream)} {ip : Addr}
    (h : ip ∈ candidates pf replies) :
    ∃ x ∈ replies, ∃ r ∈ x.1.answer, ipFromRR pf r = some ip := by
  obtain ⟨x, hx, hip⟩ := List.mem_flatMap.mp h
  obtain ⟨r, hr, heq⟩ := List.mem_filterMap.mp hip
  exact ⟨x, hx, r, hr, (Option.filter_eq_some_iff.mp heq).1⟩

/-- With one result for each upstream, this is the function of `Upstreams` for the address that
is picked. -/
theorem exchangeFastest_eq (pf : Platform) (w : Surroundings) (ips : List Addr) (env : Exchanges)
    (hpinged : env.pinged = (pingAll w ips).map (·.addr)) (req : Msg) (ups : List Upstream) :
    exchangeFastestAt pf w ips (ups.map (env.position req))
        ((env.arrival ups).map (env.position req)) =
      let x := exchangeFastest pf env req ups
      ⟨x.resp, x.u, x.err⟩ := by
  unfold exchangeFastestAt exchangeFastest fastestOf
  rw [exchangeAll_eq, hpinged]
  cases exchangeAll env ups req with
  | error e => rfl
  | ok replies => cases pingAll w ips <;> rfl

/-- What `ExchangeFastest` returns for the replies. -/
structure WellFormed (pf : Platform) (w : Surroundings) (ips : List Addr)
    (replies : List (Msg × Upstream)) (x : Resolved) : Prop where
  occurs : ∀ pick, pingAll w ips = some pick →
    ∃ y ∈ replies, ∃ r ∈ y.1.answer, ipFromRR pf r = some pick.addr
  picked : ∀ pick, pingAll w ips = some pick → Picked w ips pick
  cut : ∀ pick, pingAll w ips = some pick → ∃ sent u resp, (sent, u) ∈ replies ∧
    x = ⟨some resp, some u, none⟩ ∧ CutDown pf pick.addr sent resp
  unmodified : pingAll w ips = none → ∃ m u, (m, u) ∈ replies ∧ x = ⟨some m, some u, none⟩

theorem exchangeAllAt_ne_nil {ups arrived : List Position} {replies : List (Msg × Upstream)}
    (hperm : arrived.Perm ups) (h : exchangeAllAt ups arrived = (replies, none)) :
    replies ≠ [] := by
  match ups with
  | [] => cases h
  | [c] =>
    simp only [exchangeAllAt] at h
    split at h <;> cases h
    exact List.cons_ne_nil _ _
  | c :: c' :: cs =>
    obtain ⟨hres, herr⟩ := receiveAll_spec arrived
    have hall : receiveAll arrived.length (arrived.map exchangeAsync) = (replies, none) := by
      rw [hperm.length_eq]
      exact h
    rw [hall] at hres herr
    rintro rfl
    rw [if_pos hres.symm] at herr
    cases herr

section Exchange

variable {pf : Platform} {ups arrived : List Position} {replies : List (Msg × Upstream)}
  {ips : List Addr}

theorem wellFormed_of_picked (hpf : ConvertsAddrs pf) (hperm : arrived.Perm ups)
    (hreplies : exchangeAllAt ups arrived = (replies, none))
    (hips : ips.Perm (candidates pf replies).dedup) {w : Surroundings}
    (hpicked : ∀ pick, pingAll w ips = some pick → Picked w ips pick) :
    WellFormed pf w ips replies (exchangeFastestAt pf w ips ups arrived) := by
  have hoccurs : ∀ pick, pingAll w ips = some pick →
      ∃ y ∈ replies, ∃ r ∈ y.1.answer, ipFromRR pf r = some pick.addr := by
    intro pick hpick
    exact mem_candidates (List.mem_dedup.mp (hips.mem_iff.mp (hpicked pick hpick).candidate))
  have hexchange : exchangeFastestAt pf w ips ups arrived =
      ⟨(fastestOf pf w ips replies).map Prod.fst, (fastestOf pf w ips replies).map Prod.snd,
        none⟩ := by
    unfold exchangeFastestAt
    rw [hreplies]
  refine ⟨hoccurs, hpicked, fun pick hpick => ?_, fun hnone => ?_⟩
  · obtain ⟨sent, u, hmem, hreply, hcut⟩ := prepareReply_spec hpf (hoccurs pick hpick)
    refine ⟨sent, u, _, hmem, ?_, hcut⟩
    simp only [hexchange, fastestOf, hpick, hreply, Option.map_some]
  · obtain ⟨x, rest, rfl⟩ := List.exists_cons_of_ne_nil (exchangeAllAt_ne_nil hperm hreplies)
    refine ⟨x.1, x.2, List.mem_cons_self, ?_⟩
    simp only [hexchange, fastestOf, hnone, List.head?_cons, Option.map_some]

end Exchange

/-- Whatever the connections do, the exchange is well formed: exactly if no success of a mapped
address is hidden. -/
theorem fastestAddr_wellFormed_iff (pf : Platform) (hpf : ConvertsAddrs pf)
    (ups arrived : List Position) (hperm : arrived.Perm ups) (replies : List (Msg × Upstream))
    (hreplies : exchangeAllAt ups arrived = (replies, none)) (ips : List Addr)
    (hips : ips.Perm (candidates pf replies).dedup) (w : Surroundings) (hkeys : w.Unmapped) :
    (∀ (dial : Addr → Nat → Int × Bool) (received : List (Addr × Nat)),
      let w' := { w with dial := dial, arrived := received }
      received.Subperm (pings w' ips) →
        WellFormed pf w' ips replies (exchangeFastestAt pf w' ips ups arrived)) ↔
      (2 ≤ ips.length → NoneHidden w ips) := by
  constructor
  · intro hall hlen m hm hmapped latency hlive
    by_contra hnone
    push Not at hnone
    have hpick := pingAll_slowPing hkeys hlen hm hmapped hnone
    have hwell := hall (fun _ _ => (latency + 1, true)) [(m, 80)]
      (List.singleton_subperm_iff.mpr
        (mem_pings_of_mapped (w := w.slowPing m (latency + 1)) hkeys hm hmapped))
    have hfast : latency + 1 ≤ latency := (hwell.picked _ hpick).fastest hlen m hm latency hlive
    omega
  · intro hhidden dial received w' hreceived
    exact wellFormed_of_picked hpf hperm hreplies hips fun pick =>
      pingAll_spec (w := w') hkeys hhidden fun x hx => hreceived.subset hx

/-- The address ::ffff:192.0.2.1. -/
def v4Mapped : Addr := Net.v4InV6Prefix ++ [192, 0, 2, 1]

/-- The address 2001:db8::2. -/
def secondAddr : Addr := [0x20, 1, 0xd, 0xb8, 0, 0, 0, 0, 0, 0, 0, 0, 0, 0, 0, 2]

def twoAddresses : Msg :=
  { exampleAnswer with
    answer :=
      [⟨ascii "example.org.", classINET, 60, .aaaa v4Mapped⟩,
        ⟨ascii "example.org.", classINET, 60, .aaaa secondAddr⟩] }

/-- The cache has a success for either address, stored at 0, and a ping of the mapped one may
arrive. -/
def bothCached (mapped second : Int) (arrived : List (Addr × Nat)) : Surroundings where
  cached ip :=
    if ip = [192, 0, 2, 1] then some (packCacheEntry ⟨mapped, false⟩ 600 0)
    else if ip = secondAddr then some (packCacheEntry ⟨second, false⟩ 600 0)
    else none
  clock _ := 10
  dial _ _ := (3, true)
  arrived := arrived

theorem bothCached_unmapped (mapped second : Int) (arrived : List (Addr × Nat)) :
    (bothCached mapped second arrived).Unmapped := by
  intro ip hmapped
  have hfirst : ip ≠ [192, 0, 2, 1] := by
    rintro rfl
    exact absurd hmapped (by decide)
  have hsecond : ip ≠ secondAddr := by
    rintro rfl
    exact absurd hmapped (by decide)
  simp only [bothCached, if_neg hfirst, if_neg hsecond]

theorem bothCached_mapped {mapped : Int} (h : InInt64 mapped) (second : Int)
    (arrived : List (Addr × Nat)) :
    (bothCached mapped second arrived).LiveSuccess v4Mapped mapped :=
  ⟨600, 0, h, ⟨by decide, by decide⟩, rfl, show (10 : Int) < 0 + (600 : UInt32).toNat by decide⟩

/-- The second address has the faster success, and a ping of the first one is faster than
both. -/
theorem fastestAddr_arrived :
    (bothCached 20 5 []).LiveSuccess v4Mapped 20 ∧
      pingAll (bothCached 20 5 [(v4Mapped, 443)]) [v4Mapped, secondAddr] =
        some ⟨v4Mapped, 443, 3, true⟩ ∧
      WellFormed examplePlatform (bothCached 20 5 [(v4Mapped, 443)]) [v4Mapped, secondAddr]
        [(twoAddresses, silentUpstream)]
        (exchangeFastestAt examplePlatform (bothCached 20 5 [(v4Mapped, 443)])
          [v4Mapped, secondAddr] [⟨silentUpstream, .ok (some twoAddresses)⟩]
          [⟨silentUpstream, .ok (some twoAddresses)⟩]) := by
  have hpf : ConvertsAddrs examplePlatform := ⟨fun _ => rfl, fun _ => rfl⟩
  have hsecond : (bothCached 20 5 []).LiveSuccess secondAddr 5 :=
    ⟨600, 0, ⟨by decide, by decide⟩, ⟨by decide, by decide⟩, rfl, by decide +kernel⟩
  have hmapped : (bothCached 20 5 []).LiveSuccess v4Mapped 20 :=
    bothCached_mapped ⟨by decide, by decide⟩ 5 []
  refine ⟨hmapped, by decide +kernel, ?_⟩
  refine (fastestAddr_wellFormed_iff examplePlatform hpf _ _ (.refl _) _ rfl
    [v4Mapped, secondAddr] (by decide +kernel) (bothCached 20 5 [])
    (bothCached_unmapped 20 5 [])).mpr ?_ (fun _ _ => (3, true)) [(v4Mapped, 443)] ?_
  · intro _ m hm hm' latency hlive
    rcases List.mem_pair.mp hm with rfl | rfl
    · obtain rfl := hmapped.unique hlive
      exact ⟨secondAddr, by simp, by decide, 5, by decide, hsecond⟩
    · exact absurd hm' (by decide)
  · exact List.singleton_subperm_iff.mpr (by decide +kernel)

/-- The faster success, of the mapped address, is not found. -/
theorem mapped_success_hidden :
    (candidates examplePlatform [(twoAddresses, silentUpstream)]).dedup = [v4Mapped, secondAddr] ∧
      (bothCached 5 20 []).LiveSuccess v4Mapped 5 ∧
      pingAll (bothCached 5 20 []) [v4Mapped, secondAddr] = some ⟨secondAddr, 0, 20, true⟩ ∧
      ¬ Picked (bothCached 5 20 []) [v4Mapped, secondAddr] ⟨secondAddr, 0, 20, true⟩ := by
  have hlive : (bothCached 5 20 []).LiveSuccess v4Mapped 5 :=
    bothCached_mapped ⟨by decide, by decide⟩ 20 []
  refine ⟨by decide +kernel, hlive, by decide +kernel, fun hpicked => ?_⟩
  have hfast : (20 : Int) ≤ 5 :=
    hpicked.fastest (by decide) v4Mapped List.mem_cons_self 5 hlive
  exact absurd hfast (by decide)

end DnsProxy.FastIP
