import DnsProxy.Dns64
import DnsProxy.Proxy
import DnsProxy.Lib.EventWindow
import DnsProxy.Lib.NetIP

/-!
# Rate limiting

The middleware that drops the UDP requests of a client network beyond a number per second.
Each network has a limiter, which is kept for an hour from the request it was made for.

The hour is not renewed. When it is over the next request gets a new limiter, which knows
nothing of the requests that the old one has just let pass, so that a second around this
moment may have twice the number.

* `validate_eq_nil`: the configurations that are accepted.
* `wrap_limited`, `wrap_free`: what the middleware does with a request.
* `serveAll_filter`: the networks are independent.
* `rateLimit_of_spaced`: the limit holds if no limiter is replaced within a second of a request
  that passed.
-/

namespace DnsProxy.RateLimit

open BitPrefix EventWindow

/-! ## Configuration -/

/-- `Config`. Of the logger only its presence matters. -/
structure Config where
  hasLogger : Bool
  allowlistAddrs : List Prefix
  ratelimit : UInt64
  subnetLenIPv4 : UInt64
  subnetLenIPv6 : UInt64

inductive ValidateErr
  | noValue
  | notPositive (name : String)
  | nilField (name : String)
  | tooGreat (name : String) (max : UInt64)
deriving DecidableEq, Repr

def positive (name : String) (v : UInt64) : List ValidateErr :=
  if 0 < v then [] else [.notPositive name]

def notNil (name : String) (isSet : Bool) : List ValidateErr :=
  if isSet then [] else [.nilField name]

def noGreaterThan (name : String) (v max : UInt64) : List ValidateErr :=
  if v ≤ max then [] else [.tooGreat name max]

def ipv4BitLen : UInt64 := 32
def ipv6BitLen : UInt64 := 128

/-- `Config.Validate`, with the errors that are joined. A length for IPv6 is reported under the
name of the other one. -/
def validate : Option Config → List ValidateErr
  | none => [.noValue]
  | some c =>
    positive "Ratelimit" c.ratelimit ++ notNil "Logger" c.hasLogger ++
      noGreaterThan "SubnetLenIPv4" c.subnetLenIPv4 ipv4BitLen ++
      noGreaterThan "SubnetLenIPv4" c.subnetLenIPv6 ipv6BitLen

theorem validate_eq_nil {c : Config} : validate (some c) = [] ↔
    0 < c.ratelimit ∧ c.hasLogger = true ∧ c.subnetLenIPv4 ≤ ipv4BitLen ∧
      c.subnetLenIPv6 ≤ ipv6BitLen := by
  simp only [validate, positive, notNil, noGreaterThan, List.append_eq_nil_iff, ite_eq_left_iff,
    reduceCtorEq, imp_false, not_not, and_assoc]

/-! ## The middleware -/

def second : Nat := 10 ^ 9

def hour : Nat := 3600 * second

/-- The packages that the middleware calls. -/
structure Lib where
  /-- `netip.Addr.String`. -/
  text : Bytes → Bytes
  /-- An address can be read back from its text. -/
  text_injective : Function.Injective text
  /-- `rate.RateLimiter`. -/
  Limiter : Type
  /-- `rate.New`, with an interval of a second. -/
  new : Int → Limiter
  /-- `RateLimiter.Try`, with the time at which it is called. -/
  tryAt : Limiter → Nat → Bool × Limiter
  /-- A limiter lets no more events pass in an interval than it was made for. -/
  bounded : ∀ (limit : Int) (times : List Nat), times.Pairwise (· ≤ ·) →
    Bounded second limit.toNat (attempts tryAt (new limit) times).2

/-- A `netip.Addr`: the zero value, an IPv4 address or an IPv6 one. -/
abbrev ClientAddr := { a : NetIP.Addr // a.bytes.length ∈ [0, 4, 16] }

/-- `addr.WithZone("").Unmap()`. -/
def normalized (a : ClientAddr) : Addr :=
  if Net.isMapped a.1.bytes then a.1.bytes.drop 12 else a.1.bytes

/-- The address of `netip.PrefixFrom(addr, bits).Masked()`. A prefix that is longer than the
address is not valid. -/
def masked (addr : Addr) (bits : Nat) : Addr :=
  if 8 * addr.length < bits then [] else keepBits bits addr

structure Request where
  proto : Proto
  addr : ClientAddr
  now : Nat

namespace Config

variable (c : Config)

/-- `int(m.ratelimit)`. -/
def limit : Int := c.ratelimit.toInt64.toInt

def subnetLen (addr : Addr) : Nat :=
  if addr.length = 4 then c.subnetLenIPv4.toNat else c.subnetLenIPv6.toNat

/-- The address is on the allowlist. -/
def allowlisted (r : Request) : Bool := subnetsContain c.allowlistAddrs (normalized r.addr)

end Config

section Middleware

variable (lib : Lib) (c : Config)

structure Bucket where
  limiter : lib.Limiter
  expiration : Nat

/-- The buckets of a `gocache.Cache`. -/
abbrev Buckets := Bytes → Option (Bucket lib)

/-- `Cache.Get`, which leaves out an entry whose expiration has passed. -/
def Buckets.get (buckets : Buckets lib) (key : Bytes) (now : Nat) : Option (Bucket lib) :=
  (buckets key).filter fun b => decide (now ≤ b.expiration)

/-- `limiterForIP`, with the buckets that it leaves. -/
def limiterForIP (buckets : Buckets lib) (ip : Bytes) (now : Nat) : Bucket lib × Buckets lib :=
  match buckets.get lib ip now with
  | some b => (b, buckets)
  | none =>
    let b := ⟨lib.new c.limit, now + hour⟩
    (b, Function.update buckets ip (some b))

def isRatelimited (buckets : Buckets lib) (client : ClientAddr) (now : Nat) :
    Bool × Buckets lib :=
  let addr := normalized client
  if subnetsContain c.allowlistAddrs addr then (false, buckets)
  else
    let ipStr := lib.text (masked addr (c.subnetLen addr))
    let (b, buckets) := limiterForIP lib c buckets ipStr now
    let (allow, limiter) := lib.tryAt b.limiter now
    (!allow, Function.update buckets ipStr (some { b with limiter := limiter }))

/-- The handler that `Wrap` returns: whether it calls the wrapped one, or returns `ErrDrop`. -/
def wrap (buckets : Buckets lib) (r : Request) : Bool × Buckets lib :=
  if r.proto = .udp then
    let (limited, buckets) := isRatelimited lib c buckets r.addr r.now
    (!limited, buckets)
  else (true, buckets)

/-- A request, with the buckets and the requests before it, the latest one first. -/
def serveOne (x : Buckets lib × List (Request × Bool)) (r : Request) :
    Buckets lib × List (Request × Bool) :=
  let (served, buckets) := wrap lib c x.1 r
  (buckets, (r, served) :: x.2)

/-- Requests one after the other, from the start without buckets. -/
def serveAll (reqs : List Request) : Buckets lib × List (Request × Bool) :=
  reqs.foldl (serveOne lib c) (fun _ => none, [])

end Middleware

/-! ## What the middleware does with a request -/

namespace Config

variable (c : Config)

/-- The network of a client: its address, masked to the length for its family. -/
def network (r : Request) : Addr := keepBits (c.subnetLen (normalized r.addr)) (normalized r.addr)

/-- The request is one that the limit is for. -/
def limits (r : Request) : Bool := r.proto = .udp && !c.allowlisted r

/-- The times of the requests of a network that were limited and passed. -/
def passes (k : Addr) (log : List (Request × Bool)) : List Nat :=
  (log.filter fun x => x.2 && c.limits x.1 && c.network x.1 == k).map fun x => x.1.now

end Config

theorem length_normalized (a : ClientAddr) : (normalized a).length ∈ [0, 4, 16] := by
  unfold normalized
  split
  · next h =>
    have h16 : a.1.bytes.length = 16 := by simpa using (Bool.and_eq_true_iff.mp h).1
    simp [List.length_drop, h16]
  · exact a.2

variable {lib : Lib} {c : Config} {buckets : Buckets lib} {r : Request}

theorem masked_eq_network (hvalid : validate (some c) = []) (r : Request) :
    masked (normalized r.addr) (c.subnetLen (normalized r.addr)) = c.network r := by
  obtain ⟨-, -, h4, h6⟩ := validate_eq_nil.mp hvalid
  unfold masked Config.network
  split
  · next hlong =>
    obtain hnil : normalized r.addr = [] := by
      have hlen := length_normalized r.addr
      simp only [List.mem_cons, List.not_mem_nil, or_false] at hlen
      rcases hlen with h | h | h
      · exact List.length_eq_zero_iff.mp h
      · rw [Config.subnetLen, if_pos h, h] at hlong
        exact absurd hlong (Nat.not_lt.mpr (UInt64.le_iff_toNat_le.mp h4))
      · rw [Config.subnetLen, h] at hlong
        exact absurd hlong (Nat.not_lt.mpr (UInt64.le_iff_toNat_le.mp h6))
    rw [hnil]
    rfl
  · rfl

/-- The bucket that a request uses. -/
def bucketFor (lib : Lib) (c : Config) (buckets : Buckets lib) (key : Bytes) (now : Nat) :
    Bucket lib :=
  (buckets.get lib key now).getD ⟨lib.new c.limit, now + hour⟩

/-- Other requests pass, and leave the buckets as they are. -/
theorem wrap_free (h : c.limits r = false) : wrap lib c buckets r = (true, buckets) := by
  unfold wrap
  split
  · next hudp =>
    have hallow : subnetsContain c.allowlistAddrs (normalized r.addr) = true := by
      simpa [Config.limits, hudp, Config.allowlisted] using h
    simp [isRatelimited, hallow]
  · rfl

theorem limiterForIP_fst (key : Bytes) (now : Nat) :
    (limiterForIP lib c buckets key now).1 = bucketFor lib c buckets key now := by
  unfold limiterForIP bucketFor
  cases buckets.get lib key now <;> rfl

theorem update_limiterForIP (key : Bytes) (now : Nat) (b : Option (Bucket lib)) :
    Function.update (limiterForIP lib c buckets key now).2 key b =
      Function.update buckets key b := by
  unfold limiterForIP
  cases buckets.get lib key now with
  | some b' => rfl
  | none => exact Function.update_idem _ _ _

/-- A limited request is tried with the limiter of its network. -/
theorem wrap_limited (hvalid : validate (some c) = []) (h : c.limits r = true) :
    wrap lib c buckets r =
      let key := lib.text (c.network r)
      let b := bucketFor lib c buckets key r.now
      let tried := lib.tryAt b.limiter r.now
      (tried.1, Function.update buckets key (some { b with limiter := tried.2 })) := by
  obtain ⟨hudp, hallow⟩ := Bool.and_eq_true_iff.mp h
  have hallow : subnetsContain c.allowlistAddrs (normalized r.addr) = false := by
    simpa [Config.allowlisted] using hallow
  simp only [wrap, of_decide_eq_true hudp, isRatelimited, hallow, masked_eq_network hvalid,
    limiterForIP_fst, update_limiterForIP, if_true, Bool.false_eq_true, if_false, Bool.not_not]

theorem serveAll_concat (reqs : List Request) (r : Request) :
    serveAll lib c (reqs ++ [r]) = serveOne lib c (serveAll lib c reqs) r := List.foldl_concat ..

/-! ## Independence -/

theorem wrap_other (hvalid : validate (some c) = []) {k : Addr} (h : c.network r ≠ k) :
    (wrap lib c buckets r).2 (lib.text k) = buckets (lib.text k) := by
  cases hl : c.limits r with
  | false => rw [wrap_free hl]
  | true =>
    rw [wrap_limited hvalid hl]
    exact Function.update_of_ne (lib.text_injective.ne h.symm) _ _

theorem wrap_congr (hvalid : validate (some c) = []) {buckets' : Buckets lib}
    (h : buckets (lib.text (c.network r)) = buckets' (lib.text (c.network r))) :
    (wrap lib c buckets r).1 = (wrap lib c buckets' r).1 ∧
      (wrap lib c buckets r).2 (lib.text (c.network r)) =
        (wrap lib c buckets' r).2 (lib.text (c.network r)) := by
  cases hl : c.limits r with
  | false =>
    rw [wrap_free hl, wrap_free hl]
    exact ⟨rfl, h⟩
  | true =>
    have hbucket : bucketFor lib c buckets (lib.text (c.network r)) r.now =
        bucketFor lib c buckets' (lib.text (c.network r)) r.now := by
      simp only [bucketFor, Buckets.get, h]
    rw [wrap_limited hvalid hl, wrap_limited hvalid hl]
    simp only [hbucket, Function.update_self, and_self]

/-- The requests of a network fare as if there were no others. -/
theorem serveAll_filter (hvalid : validate (some c) = []) (k : Addr) (reqs : List Request) :
    let own := serveAll lib c (reqs.filter fun r => c.network r == k)
    (serveAll lib c reqs).2.filter (fun x => c.network x.1 == k) = own.2 ∧
      (serveAll lib c reqs).1 (lib.text k) = own.1 (lib.text k) := by
  induction reqs using List.reverseRecOn with
  | nil => exact ⟨rfl, rfl⟩
  | append_singleton reqs r ih =>
    obtain ⟨hlog, hbucket⟩ := ih
    simp only [List.filter_append, serveAll_concat, serveOne]
    by_cases hk : c.network r = k
    · subst hk
      obtain ⟨hserved, hnext⟩ := wrap_congr hvalid hbucket
      simp only [List.filter_cons, beq_self_eq_true, if_true, List.filter_nil, serveAll_concat,
        serveOne]
      exact ⟨by rw [hserved, hlog], hnext⟩
    · have hother := @wrap_other lib c (serveAll lib c reqs).1 r hvalid k hk
      simp only [List.filter_cons, beq_iff_eq, hk, if_false, List.filter_nil, List.append_nil]
      exact ⟨hlog, hother.trans hbucket⟩

/-! ## One limiter after the other -/

theorem limit_le (c : Config) : c.limit.toNat ≤ c.ratelimit.toNat := by
  have h : c.limit = c.ratelimit.toBitVec.toInt := rfl
  rw [h, BitVec.toInt_eq_toNat_cond]
  split
  · exact Nat.le_refl _
  · have hlt := Int.ofNat_le.mpr (Nat.le_of_lt c.ratelimit.toBitVec.isLt)
    rw [Int.toNat_of_nonpos (Int.sub_nonpos_of_le hlt)]
    exact Nat.zero_le _

/-- The limiter of a bucket has been tried at `times`; of the requests that `passed`, it let
pass those that are not among the `old` ones, which are a second before. -/
structure Generation (c : Config) (b : Bucket lib) (passed times old : List Nat) : Prop where
  sorted : times.Pairwise (· ≤ ·)
  limiter : b.limiter = (attempts lib.tryAt (lib.new c.limit) times).1
  passed : passed = (attempts lib.tryAt (lib.new c.limit) times).2 ++ old
  old_bounded : Bounded second c.ratelimit.toNat old
  far : ∀ x ∈ old, ∀ y ∈ times, x + second ≤ y

namespace Generation

variable {b : Bucket lib} {passed times old : List Nat} {now : Nat}

theorem bounded (g : Generation c b passed times old) :
    Bounded second c.ratelimit.toNat passed := by
  have hnew : Bounded second c.ratelimit.toNat (attempts lib.tryAt (lib.new c.limit) times).2 :=
    fun w => Nat.le_trans (lib.bounded c.limit times g.sorted w) (limit_le c)
  rw [g.passed]
  exact hnew.append g.old_bounded fun x hx y hy => g.far x hx y (mem_attempts _ hy)

theorem start (c : Config) (expiration : Nat) (h : Bounded second c.ratelimit.toNat passed) :
    Generation c (⟨lib.new c.limit, expiration⟩ : Bucket lib) passed [] passed :=
  ⟨.nil, rfl, rfl, h, fun _ _ => nofun⟩

theorem next (g : Generation c b passed times old) (hnow : ∀ t ∈ times, t ≤ now)
    (hold : ∀ x ∈ old, x + second ≤ now) :
    Generation c { b with limiter := (lib.tryAt b.limiter now).2 }
      (if (lib.tryAt b.limiter now).1 then now :: passed else passed) (times ++ [now]) old where
  sorted := List.pairwise_append.mpr ⟨g.sorted, List.pairwise_singleton _ _,
    fun t ht y hy => List.mem_singleton.mp hy ▸ hnow t ht⟩
  limiter := by rw [attempts_concat, attemptOne, ← g.limiter]
  passed := by
    rw [attempts_concat, g.passed]
    show _ = (if (lib.tryAt (attempts lib.tryAt (lib.new c.limit) times).1 now).1 then _
      else _) ++ old
    rw [← g.limiter]
    split <;> rfl
  old_bounded := g.old_bounded
  far x hx y hy := by
    rcases List.mem_append.mp hy with ht | hy
    · exact g.far x hx y ht
    · exact List.mem_singleton.mp hy ▸ hold x hx

end Generation

/-! ## The limit -/

/-- Whenever a request finds the limiter of its network expired, the requests of the network
that passed did so a second ago or earlier. -/
def Spaced (lib : Lib) (c : Config) (reqs : List Request) : Prop :=
  ∀ before r after, reqs = before ++ r :: after → c.limits r = true →
    ∀ b, (serveAll lib c before).1 (lib.text (c.network r)) = some b → b.expiration < r.now →
      ∀ t ∈ c.passes (c.network r) (serveAll lib c before).2, t + second ≤ r.now

theorem Spaced.init {reqs : List Request} (h : Spaced lib c (reqs ++ [r])) : Spaced lib c reqs :=
  fun before r' after heq => h before r' (after ++ [r]) (by rw [heq, List.append_assoc]; rfl)

/-- The requests of a network that passed, and its limiter. -/
structure Tracked (lib : Lib) (c : Config) (k : Addr) (reqs : List Request) : Prop where
  bounded : Bounded second c.ratelimit.toNat (c.passes k (serveAll lib c reqs).2)
  fresh : (serveAll lib c reqs).1 (lib.text k) = none → c.passes k (serveAll lib c reqs).2 = []
  current : ∀ b, (serveAll lib c reqs).1 (lib.text k) = some b →
    ∃ times old, Generation c b (c.passes k (serveAll lib c reqs).2) times old ∧ times ≠ [] ∧
      ∀ t ∈ times, ∃ r ∈ reqs, r.now = t

section Track

variable {k : Addr} {reqs : List Request}

theorem passes_cons (x : Request × Bool) (log : List (Request × Bool)) :
    c.passes k (x :: log) =
      if x.2 && c.limits x.1 && c.network x.1 == k then x.1.now :: c.passes k log
      else c.passes k log := by
  unfold Config.passes
  rw [List.filter_cons]
  split <;> rfl

/-- A limited request is the last thing that the limiter of its network has seen, and it is
among the requests that passed if the limiter let it. -/
theorem serveAll_limited (hvalid : validate (some c) = []) (hl : c.limits r = true)
    (reqs : List Request) :
    let b := bucketFor lib c (serveAll lib c reqs).1 (lib.text (c.network r)) r.now
    let tried := lib.tryAt b.limiter r.now
    (serveAll lib c (reqs ++ [r])).1 (lib.text (c.network r)) =
        some { b with limiter := tried.2 } ∧
      c.passes (c.network r) (serveAll lib c (reqs ++ [r])).2 =
        if tried.1 then r.now :: c.passes (c.network r) (serveAll lib c reqs).2
        else c.passes (c.network r) (serveAll lib c reqs).2 := by
  rw [serveAll_concat, serveOne, wrap_limited hvalid hl]
  refine ⟨Function.update_self .., ?_⟩
  rw [passes_cons, hl, Bool.and_true, beq_self_eq_true, Bool.and_true]

theorem Tracked.skip (h : Tracked lib c k reqs)
    (hbucket : (wrap lib c (serveAll lib c reqs).1 r).2 (lib.text k) =
      (serveAll lib c reqs).1 (lib.text k))
    (hskip : (c.limits r && c.network r == k) = false) : Tracked lib c k (reqs ++ [r]) := by
  have hpasses : c.passes k (serveAll lib c (reqs ++ [r])).2 =
      c.passes k (serveAll lib c reqs).2 := by
    rw [serveAll_concat, serveOne, passes_cons, Bool.and_assoc, hskip, Bool.and_false]
    rfl
  have hbuckets : (serveAll lib c (reqs ++ [r])).1 (lib.text k) =
      (serveAll lib c reqs).1 (lib.text k) := by
    rw [serveAll_concat]
    exact hbucket
  refine ⟨hpasses ▸ h.bounded, fun hnone => ?_, fun b hb => ?_⟩
  · rw [hpasses]
    exact h.fresh (hbuckets ▸ hnone)
  · obtain ⟨times, old, hgen, hne, htimes⟩ := h.current b (hbuckets ▸ hb)
    refine ⟨times, old, hpasses ▸ hgen, hne, fun t ht => ?_⟩
    obtain ⟨r', hr', rfl⟩ := htimes t ht
    exact ⟨r', List.mem_append_left _ hr', rfl⟩

theorem Tracked.generation (h : Tracked lib c (c.network r) reqs)
    (hnow : ∀ r' ∈ reqs, r'.now ≤ r.now)
    (hspaced : ∀ b, (serveAll lib c reqs).1 (lib.text (c.network r)) = some b →
      b.expiration < r.now →
      ∀ t ∈ c.passes (c.network r) (serveAll lib c reqs).2, t + second ≤ r.now) :
    ∃ times old,
      Generation c (bucketFor lib c (serveAll lib c reqs).1 (lib.text (c.network r)) r.now)
        (c.passes (c.network r) (serveAll lib c reqs).2) times old ∧
      (∀ t ∈ times, ∃ r' ∈ reqs, r'.now = t) ∧ ∀ x ∈ old, x + second ≤ r.now := by
  unfold bucketFor Buckets.get
  cases hb : (serveAll lib c reqs).1 (lib.text (c.network r)) with
  | none =>
    -- the first request of the network
    refine ⟨[], _, Generation.start c _ h.bounded, nofun, ?_⟩
    rw [h.fresh hb]
    exact nofun
  | some b =>
    by_cases hlive : r.now ≤ b.expiration
    · obtain ⟨times, old, hgen, hne, htimes⟩ := h.current b hb
      obtain ⟨t, ht⟩ := List.exists_mem_of_ne_nil times hne
      obtain ⟨r', hr', rfl⟩ := htimes t ht
      simp only [Option.filter, hlive, decide_true, if_true, Option.getD_some]
      exact ⟨times, old, hgen, htimes,
        fun x hx => Nat.le_trans (hgen.far x hx _ ht) (hnow r' hr')⟩
    · simp only [Option.filter, hlive, decide_false, Bool.false_eq_true, if_false,
        Option.getD_none]
      exact ⟨[], _, Generation.start c _ h.bounded, nofun,
        hspaced b hb (Nat.lt_of_not_le hlive)⟩

theorem Tracked.tryOne (hvalid : validate (some c) = []) (hl : c.limits r = true)
    (h : Tracked lib c (c.network r) reqs) (hnow : ∀ r' ∈ reqs, r'.now ≤ r.now)
    (hspaced : ∀ b, (serveAll lib c reqs).1 (lib.text (c.network r)) = some b →
      b.expiration < r.now →
      ∀ t ∈ c.passes (c.network r) (serveAll lib c reqs).2, t + second ≤ r.now) :
    Tracked lib c (c.network r) (reqs ++ [r]) := by
  obtain ⟨times, old, hgen, htimes, hold⟩ := h.generation hnow hspaced
  have hle : ∀ t ∈ times, t ≤ r.now := by
    intro t ht
    obtain ⟨r', hr', rfl⟩ := htimes t ht
    exact hnow r' hr'
  have hnext := hgen.next hle hold
  obtain ⟨hbucket, hpasses⟩ := serveAll_limited hvalid hl reqs
  rw [← hpasses] at hnext
  refine ⟨hnext.bounded, fun hnone => ?_, fun b' hb' => ?_⟩
  · rw [hbucket] at hnone
    cases hnone
  · rw [hbucket] at hb'
    cases hb'
    refine ⟨times ++ [r.now], old, hnext, List.append_ne_nil_of_right_ne_nil _ nofun, ?_⟩
    intro t ht
    rcases List.mem_append.mp ht with ht | ht
    · obtain ⟨r', hr', rfl⟩ := htimes t ht
      exact ⟨r', List.mem_append_left _ hr', rfl⟩
    · obtain rfl := List.mem_singleton.mp ht
      exact ⟨r, List.mem_append_right _ (List.mem_singleton_self r), rfl⟩

theorem tracked_serveAll (hvalid : validate (some c) = [])
    (hsorted : reqs.Pairwise fun r r' => r.now ≤ r'.now) (hspaced : Spaced lib c reqs) :
    Tracked lib c k reqs := by
  induction reqs using List.reverseRecOn with
  | nil => exact ⟨Bounded.nil _ _, fun _ => rfl, nofun⟩
  | append_singleton reqs r ih =>
    obtain ⟨hbefore, -, hnow⟩ := List.pairwise_append.mp hsorted
    have htracked := ih hbefore hspaced.init
    by_cases hk : c.network r = k
    · subst hk
      cases hl : c.limits r with
      | false => exact htracked.skip (by rw [wrap_free hl]) (by rw [hl, Bool.false_and])
      | true =>
        refine htracked.tryOne hvalid hl (fun r' hr' => ?_) (hspaced reqs r [] rfl hl)
        exact hnow r' hr' r (List.mem_singleton_self r)
    · exact htracked.skip (wrap_other hvalid hk) (by simp [hk])

end Track

theorem served_of_free {x : Request × Bool} {reqs : List Request}
    (hx : x ∈ (serveAll lib c reqs).2) (h : c.limits x.1 = false) : x.2 = true := by
  induction reqs using List.reverseRecOn with
  | nil => cases hx
  | append_singleton reqs r ih =>
    have hlog : (serveAll lib c (reqs ++ [r])).2 =
        (r, (wrap lib c (serveAll lib c reqs).1 r).1) :: (serveAll lib c reqs).2 := by
      rw [serveAll_concat]
      rfl
    rcases List.mem_cons.mp (hlog ▸ hx) with rfl | hmem
    · exact congrArg Prod.fst (wrap_free h)
    · exact ih hmem

/-- What the middleware promises about a sequence of requests. -/
structure Limited (lib : Lib) (c : Config) (reqs : List Request) : Prop where
  window : ∀ k w, count second w (c.passes k (serveAll lib c reqs).2) ≤ c.ratelimit.toNat
  allowlist : ∀ x ∈ (serveAll lib c reqs).2, c.allowlisted x.1 = true → x.2 = true
  independent : ∀ k, (serveAll lib c reqs).2.filter (fun x => c.network x.1 == k) =
    (serveAll lib c (reqs.filter fun r => c.network r == k)).2

/-- The limit holds if no limiter is replaced within a second of a request that it let pass. -/
theorem rateLimit_of_spaced (lib : Lib) (c : Config) (hvalid : validate (some c) = [])
    (reqs : List Request) (hsorted : reqs.Pairwise fun r r' => r.now ≤ r'.now)
    (hspaced : Spaced lib c reqs) : Limited lib c reqs where
  window k := (tracked_serveAll hvalid hsorted hspaced).bounded
  allowlist x hx hallow := served_of_free hx (by simp [Config.limits, hallow])
  independent k := (serveAll_filter hvalid k reqs).1

/-! ## A limiter that expires -/

/-- The limiters of `go-rate`, which keep a log. The texts of the addresses do not matter. -/
def goRate : Lib where
  text := id
  text_injective := Function.injective_id
  Limiter := Log
  new limit := ⟨limit, []⟩
  tryAt := Log.attempt second
  bounded limit _ hsorted := Log.bounded_attempts limit hsorted

/-- One request per second and network. -/
def onePerSecond : Config where
  hasLogger := true
  allowlistAddrs := []
  ratelimit := 1
  subnetLenIPv4 := 24
  subnetLenIPv6 := 56

/-- A request of the client 192.0.2.1, at a time in milliseconds. -/
def clientRequest (ms : Nat) : Request := ⟨.udp, ⟨⟨[192, 0, 2, 1], []⟩, by decide⟩, ms * 10 ^ 6⟩

theorem rateLimit_two_seconds :
    validate (some onePerSecond) = [] ∧
      Spaced goRate onePerSecond (List.map clientRequest [0, 1000]) ∧
      Limited goRate onePerSecond (List.map clientRequest [0, 1000]) := by
  have hspaced : Spaced goRate onePerSecond (List.map clientRequest [0, 1000]) := by
    intro before r after heq hl b hb hexp
    match before, heq with
    | [], _ => cases hb
    | [_], heq =>
      obtain ⟨rfl, hr⟩ := List.cons.inj heq
      obtain ⟨rfl, -⟩ := List.cons.inj hr
      cases hb
      exact absurd hexp (by decide)
    | _ :: _ :: _, heq => exact absurd (congrArg List.length heq) (by simp)
  exact ⟨rfl, hspaced, rateLimit_of_spaced goRate onePerSecond rfl _ (by decide) hspaced⟩

/-- The limiter that was made at the start is replaced between the last two requests, which
both pass within a fifth of a second. -/
theorem replaced_limiter :
    (serveAll goRate onePerSecond (List.map clientRequest [0, 3599900, 3600100])).2.map (·.2) =
        [true, true, true] ∧
      ¬Limited goRate onePerSecond (List.map clientRequest [0, 3599900, 3600100]) := by
  refine ⟨by decide +kernel, fun h => ?_⟩
  have hcount := h.window [192, 0, 2, 0] (3599900 * 10 ^ 6)
  revert hcount
  decide +kernel

end DnsProxy.RateLimit
