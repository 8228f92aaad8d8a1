import DnsProxy.CacheKey
import DnsProxy.Platform
import DnsProxy.Lib.Binary64
import DnsProxy.Lib.KeyedStore
import Mathlib.Logic.Function.Basic

/-!
# The response cache

The cache of the proxy: which responses it stores and for how long, the packed
form of an entry, and the lookups and stores of the general and of the subnet
cache. The byte cache underneath is a map that may drop entries at any time; the
drops are operations of a run (`CacheOp.drop`).

Every access holds the lock of the sub-cache it works on, so a history of a cache
is a list of operations, each with the clock reading it makes.
-/

namespace DnsProxy

open Net

/-! ## Clock readings -/

def second : Int := 10 ^ 9

/-- A reading of the wall clock in Unix nanoseconds. Go keeps its seconds in an
`int64`; the readings stay far enough from the ends for every sum with a TTL or
with a duration to fit. -/
structure Instant where
  nano : Int
  range : -2 ^ 62 ≤ nano / second ∧ nano / second ≤ 2 ^ 62
deriving DecidableEq, Repr

def Instant.epoch : Instant := ⟨0, by decide⟩

def Instant.oneSecond : Instant := ⟨second, by decide⟩

/-- `time.Time.Unix`: whole seconds, rounded down. -/
def Instant.unix (t : Instant) : Int := t.nano / second

/-- `time.Duration`, in nanoseconds. -/
abbrev Duration := Int64

/-- `uint32(d.Seconds())`. -/
def uint32Seconds (pf : Platform) (d : Duration) : UInt32 :=
  let n := Binary64.wholeSeconds d.toInt.natAbs
  if n = 0 then 0
  else if 0 < d.toInt ∧ n < 2 ^ 32 then UInt32.ofNat n
  else pf.outOfRange (d.toInt.sign * n)

/-! ## What is cached, and for how long -/

def maxUint32 : UInt32 := 0xffffffff

/-- `ServFailMaxCacheTTL`. -/
def servFailMaxCacheTTL : UInt32 := 30

def minTTL (r : RR) (ttl : UInt32) : UInt32 :=
  if r.rrtype = typeOPT then ttl
  else if r.ttl < ttl then r.ttl
  else ttl

/-- The loop of `calculateTTL`, which returns at the first zero. -/
def scanTTL : List RR → UInt32 → UInt32
  | [], ttl => ttl
  | r :: rs, ttl =>
    let ttl := minTTL r ttl
    if ttl = 0 then 0 else scanTTL rs ttl

def calculateTTL (m : Msg) : UInt32 :=
  let ttl := scanTTL m.records maxUint32
  if ttl = 0 then 0
  else if m.rcode = rcodeServerFailure ∧ servFailMaxCacheTTL < ttl then servFailMaxCacheTTL
  else if ttl = maxUint32 then 0
  else ttl

def hasIPAns (m : Msg) : Bool :=
  m.answer.any fun r => r.rrtype == typeA || r.rrtype == typeAAAA

/-- The loop of `isCacheableNegative`. -/
def scanNegative : List RR → Bool → Bool
  | [], ok => ok
  | r :: rs, ok =>
    if r.rrtype = typeSOA then scanNegative rs true
    else if r.rrtype = typeNS then false
    else scanNegative rs ok

def isCacheableNegative (m : Msg) : Bool := scanNegative m.ns false

def isCacheableSucceded (m : Msg) : Bool :=
  let qType := m.firstQuestion.qtype
  (qType != typeA && qType != typeAAAA) || hasIPAns m || isCacheableNegative m

def cacheTTL (m : Msg) : UInt32 :=
  if m.truncated then 0
  else if m.question.length ≠ 1 then 0
  else
    let ttl := calculateTTL m
    if ttl = 0 then 0
    else if m.rcode = rcodeSuccess then if isCacheableSucceded m then ttl else 0
    else if m.rcode = rcodeNameError then if isCacheableNegative m then ttl else 0
    else if m.rcode = rcodeServerFailure then ttl
    else 0

/-! ## Filtering -/

def isDNSSEC (r : RR) : Bool :=
  r.rrtype == typeNSEC || r.rrtype == typeNSEC3 || r.rrtype == typeDS || r.rrtype == typeRRSIG ||
    r.rrtype == typeSIG || r.rrtype == typeDNSKEY

/-- The records that `filterRRSlice` keeps. -/
def keepsRR (dob : Bool) (except : UInt16) (r : RR) : Bool :=
  !((!dob && isDNSSEC r && r.rrtype != except) || r.rrtype == typeOPT)

/-- Zero stands for no new TTL. -/
def overwriteTTL (ttl : UInt32) (r : RR) : RR := if ttl ≠ 0 then { r with ttl := ttl } else r

def filterRRSlice (rrs : List RR) (dob : Bool) (ttl : UInt32) (except : UInt16) : List RR :=
  (rrs.filter (keepsRR dob except)).map (overwriteTTL ttl)

def filterMsg (dst m : Msg) (ad dob : Bool) (ttl : UInt32) : Msg :=
  { dst with
    authenticatedData := dst.authenticatedData && (ad || dob)
    answer := filterRRSlice m.answer dob ttl m.firstQuestion.qtype
    ns := filterRRSlice m.ns dob ttl typeNone
    extra := filterRRSlice m.extra dob ttl typeNone }

/-! ## Entries -/

structure CacheItem where
  m : Msg
  u : Bytes
  ttl : UInt32
deriving DecidableEq, Repr

/-- `u` is the address of the upstream, empty for a nil one. -/
def respToItem (m : Msg) (u : Bytes) : Option CacheItem :=
  let ttl := cacheTTL m
  if ttl = 0 then none else some ⟨m, u, ttl⟩

def expTimeSz : Nat := 8
def minPackedLen : Nat := expTimeSz + packedMsgLenSz

/-- A signed 64-bit integer as its bit pattern. -/
def putInt64 (x : Int) : Bytes := BigEndian.encode expTimeSz (BitVec.ofInt 64 x).toNat

def getInt64 (b : Bytes) : Int := (BitVec.ofNat 64 (BigEndian.decode b)).toInt

def CacheItem.pack (pf : Platform) (ci : CacheItem) (now : Instant) : Option Bytes := do
  let pm ← pf.pack ci.m
  let lenBytes ← lengthPrefix pm.length
  some (putInt64 (now.unix + ci.ttl.toNat) ++ lenBytes ++ pm ++ ci.u)

/-- The byte cache. -/
abbrev Store := Bytes → Option Bytes

structure Cache where
  items : Store
  itemsWithSubnet : Option Store
  optimistic : Bool
  optimisticTTL : Duration
  optimisticMaxAge : Duration

/-- `newCache` of a proxy or of a custom upstream configuration. -/
def newCache (withECS optimistic : Bool) (optimisticTTL optimisticMaxAge : Duration) : Cache where
  items := fun _ => none
  itemsWithSubnet := if withECS then some fun _ => none else none
  optimistic := optimistic
  optimisticTTL := optimisticTTL
  optimisticMaxAge := optimisticMaxAge

namespace Cache

/-- The TTL of an answer from an entry that expires at `expire`, `none` for an
entry that is too old to be used. -/
def answerTTL (pf : Platform) (c : Cache) (expire : Int) (now : Instant) : Option UInt32 :=
  if expire * second < now.nano then
    if !c.optimistic || expire * second + c.optimisticMaxAge.toInt < now.nano then none
    else some (uint32Seconds pf c.optimisticTTL)
  else
    let seconds := expire - now.unix
    if seconds < 0 then some 0
    else if (maxUint32.toNat : Int) < seconds then some maxUint32
    else some (UInt32.ofNat seconds.toNat)

/-- The reply that an unpacked message makes for `req`. -/
def replyFrom (req m : Msg) (ttl : UInt32) : Msg :=
  let res := ({} : Msg).setRcode req m.rcode
  filterMsg
    { res with
      authenticatedData := m.authenticatedData, recursionAvailable := m.recursionAvailable }
    m req.authenticatedData req.doBit ttl

def unpackItem (pf : Platform) (c : Cache) (data : Bytes) (req : Msg) (now : Instant) :
    Option CacheItem × Bool :=
  if data.length < minPackedLen then (none, false)
  else
    let expire := getInt64 (data.take expTimeSz)
    let expired := decide (expire * second < now.nano)
    match c.answerTTL pf expire now with
    | none => (none, expired)
    | some ttl =>
      let l := BigEndian.decode ((data.drop expTimeSz).take packedMsgLenSz)
      if l = 0 then (none, expired)
      else
        match pf.unpack ((data.drop minPackedLen).take l) with
        | none => (none, expired)
        | some m => (some ⟨replyFrom req m ttl, data.drop (minPackedLen + l), 0⟩, expired)

/-- What a lookup returns, with the cache it leaves. The key is nil when there was
no lookup. -/
structure Lookup where
  ci : Option CacheItem
  expired : Bool
  key : Option Bytes
  cache : Cache

def canLookUpInCache (req : Msg) : Bool := req.question.length == 1

def del (c : Cache) (key : Bytes) : Cache := { c with items := Function.update c.items key none }

def get (pf : Platform) (c : Cache) (req : Msg) (now : Instant) : Lookup :=
  if !canLookUpInCache req then ⟨none, false, none, c⟩
  else
    let key := msgToKey req
    match c.items key with
    | none => ⟨none, false, some key, c⟩
    | some data =>
      let (ci, expired) := c.unpackItem pf data req now
      -- An entry that gives no answer is deleted.
      if ci = none then ⟨none, expired, some key, c.del key⟩ else ⟨ci, expired, some key, c⟩

/-- The search of `getWithSubnet`, `none` when there is none to be made: the entry
that it reads and the key at which it stops. -/
def findWithSubnet (c : Cache) (req : Msg) (n : Option IPNet) : Option (Option Bytes × Bytes) :=
  match c.itemsWithSubnet with
  | none => none
  | some items =>
    if !canLookUpInCache req then none
    else
      match cacheSubnet n with
      | none => none
      | some (ecsIP, m) =>
        -- The key is shortened in place until an entry is found.
        some (KeyedStore.search items (fun k m => shorterKey k m ecsIP.length) m
          (msgToKeyWithSubnet req ecsIP m))

def delWithSubnet (c : Cache) (key : Bytes) : Cache :=
  { c with itemsWithSubnet := c.itemsWithSubnet.map fun items => Function.update items key none }

def getWithSubnet (pf : Platform) (c : Cache) (req : Msg) (n : Option IPNet) (now : Instant) :
    Lookup :=
  match c.findWithSubnet req n with
  | none => ⟨none, false, none, c⟩
  | some (none, k) => ⟨none, false, some k, c⟩
  | some (some data, k) =>
    let (ci, expired) := c.unpackItem pf data req now
    if ci = none then ⟨none, expired, some k, c.delWithSubnet k⟩ else ⟨ci, expired, some k, c⟩

def set (pf : Platform) (c : Cache) (req m : Msg) (u : Bytes) (now : Instant) : Cache :=
  match respToItem m u with
  | none => c
  | some item =>
    match item.pack pf now with
    | none => c
    | some packed => { c with items := Function.update c.items (msgToKey req) (some packed) }

/-- The entry that a store into the subnet cache writes, with its key. -/
def subnetEntry (pf : Platform) (req m : Msg) (u : Bytes) (n : Option IPNet) (now : Instant) :
    Option (Bytes × Bytes) := do
  let item ← respToItem m u
  let (ip, pref) ← cacheSubnet n
  let packed ← item.pack pf now
  some (msgToKeyWithSubnet req ip pref, packed)

/-- `none` is a panic: the store is called on a cache that has no subnet cache. -/
def setWithSubnet (pf : Platform) (c : Cache) (req m : Msg) (u : Bytes) (n : Option IPNet)
    (now : Instant) : Option Cache :=
  match subnetEntry pf req m u n now with
  | none => some c
  | some (key, packed) =>
    c.itemsWithSubnet.map fun items =>
      { c with itemsWithSubnet := some (Function.update items key (some packed)) }

def clearItems (c : Cache) : Cache := { c with items := fun _ => none }

def clearItemsWithSubnet (c : Cache) : Cache :=
  { c with itemsWithSubnet := c.itemsWithSubnet.map fun _ _ => none }

@[simp] theorem get_itemsWithSubnet (pf : Platform) (c : Cache) (req : Msg) (now : Instant) :
    (c.get pf req now).cache.itemsWithSubnet = c.itemsWithSubnet := by
  unfold get
  dsimp only
  split
  · rfl
  · split
    · rfl
    · split <;> rfl

@[simp] theorem set_itemsWithSubnet (pf : Platform) (c : Cache) (req m : Msg) (u : Bytes)
    (now : Instant) : (c.set pf req m u now).itemsWithSubnet = c.itemsWithSubnet := by
  unfold set
  split
  · rfl
  · split <;> rfl

theorem getWithSubnet_cache (pf : Platform) (c : Cache) (req : Msg) (n : Option IPNet)
    (now : Instant) :
    (c.getWithSubnet pf req n now).cache = c ∨
      ∃ key, (c.getWithSubnet pf req n now).cache = c.delWithSubnet key := by
  unfold getWithSubnet
  split
  · exact .inl rfl
  · exact .inl rfl
  · next data key _ =>
    dsimp only
    split
    · exact .inr ⟨key, rfl⟩
    · exact .inl rfl

end Cache

/-! ## Storing a response -/

/-- The first client subnet option of a known family, with its scope. -/
def firstSubnet : List EDNS0 → Option (IPNet × Nat)
  | [] => none
  | .subnet family source scope address :: os =>
    if family = 1 then some (⟨to4 address, cidrMask source.toNat 32⟩, scope.toNat)
    else if family = 2 then some (⟨address, cidrMask source.toNat 128⟩, scope.toNat)
    else firstSubnet os
  | .other _ _ :: os => firstSubnet os

def ecsFromMsg (m : Msg) : Option (IPNet × Nat) := m.isEdns0.bind fun opt => firstSubnet opt.options

/-- The subnet under which `cacheResp` stores a response to a request with the
subnet `reqECS`, `none` when the subnet in the response does not match. -/
def respSubnet (res : Msg) (reqECS : IPNet) : Option IPNet :=
  match ecsFromMsg res with
  | none => some ⟨none, none⟩
  | some (ecs, scope) =>
    let (ones, bits) := maskSize ecs.mask
    let (reqOnes, _) := maskSize reqECS.mask
    if !ipEqual (ipMask ecs.ip ecs.mask) (ipMask reqECS.ip reqECS.mask) || ones != reqOnes then none
    else if scope < reqOnes then
      let mask := cidrMask scope bits
      some ⟨ipMask ecs.ip mask, mask⟩
    else some ecs

/-- `cacheResp` on the cache of the context. -/
def Cache.cacheResp (pf : Platform) (c : Cache) (ecsEnabled : Bool) (req res : Msg)
    (reqECS : Option IPNet) (u : Bytes) (now : Instant) : Option Cache :=
  if !ecsEnabled then some (c.set pf req res u now)
  else
    match reqECS with
    | none => some (c.set pf req res u now)
    | some reqECS =>
      match respSubnet res reqECS with
      | none => some c
      | some n => c.setWithSubnet pf req res u (some n) now

/-! ## Histories -/

inductive CacheOp
  | set (req m : Msg) (u : Bytes) (now : Instant)
  | setWithSubnet (req m : Msg) (u : Bytes) (n : Option IPNet) (now : Instant)
  | cacheResp (ecsEnabled : Bool) (req res : Msg) (reqECS : Option IPNet) (u : Bytes)
      (now : Instant)
  | get (req : Msg) (now : Instant)
  | getWithSubnet (req : Msg) (n : Option IPNet) (now : Instant)
  | drop (key : Bytes)
  | dropWithSubnet (key : Bytes)
  | clearItems
  | clearItemsWithSubnet

/-- A panic leaves the cache as it is. -/
def Cache.step (pf : Platform) (c : Cache) : CacheOp → Cache
  | .set req m u now => c.set pf req m u now
  | .setWithSubnet req m u n now => (c.setWithSubnet pf req m u n now).getD c
  | .cacheResp ecsEnabled req res reqECS u now =>
    (c.cacheResp pf ecsEnabled req res reqECS u now).getD c
  | .get req now => (c.get pf req now).cache
  | .getWithSubnet req n now => (c.getWithSubnet pf req n now).cache
  | .drop key => c.del key
  | .dropWithSubnet key => c.delWithSubnet key
  | .clearItems => c.clearItems
  | .clearItemsWithSubnet => c.clearItemsWithSubnet

/-- The cache after a history that starts empty. -/
def Cache.run (pf : Platform) (withECS optimistic : Bool)
    (optimisticTTL optimisticMaxAge : Duration) (ops : List CacheOp) : Cache :=
  ops.foldl (Cache.step pf) (newCache withECS optimistic optimisticTTL optimisticMaxAge)

end DnsProxy
