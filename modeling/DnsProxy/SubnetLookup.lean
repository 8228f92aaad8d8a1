import DnsProxy.Cache

/-!
# The subnet cache as a longest-prefix table

The lookup of the subnet cache over whole histories of the cache.

* `getWithSubnet_longest_match`: the entry that a lookup reads was stored for
  the same question and for a network that contains the client's, no present
  entry for a longer such network is passed over, and a present entry for such a
  network makes the lookup read one. An answer obtained for a client subnet is
  read only from inside that subnet, cut to the scope of the answer.
-/

namespace DnsProxy

open BitPrefix Net

/-- The key of an entry for a question and a network. -/
def subnetKey (req : Msg) (t : Subnet) : Bytes := msgToKeyWithSubnet req t.ip t.ones

variable {t : Subnet}

theorem subnetKey_inj {m m' : Msg} {t' : Subnet} (hm : PrintableName m.firstQuestion.name)
    (hm' : PrintableName m'.firstQuestion.name) :
    subnetKey m t = subnetKey m' t' ↔ SameQuestion m m' ∧ t.Same t' :=
  ⟨keyWithSubnet_inj hm.noNul hm'.noNul, fun h => keyWithSubnet_congr h.1 h.2⟩

/-! ## The search -/

/-- The key of the network of the first `j` bits of `s`. -/
def keyAt (req : Msg) (s : Subnet) (j : Nat) : Bytes := msgToKeyWithSubnet req (keepBits j s.ip) j

theorem shorterKey_keyAt (req : Msg) (s : Subnet) :
    ∀ j < s.ones, shorterKey (keyAt req s (j + 1)) j s.ip.length = keyAt req s j := by
  intro j hj
  exact shorterKey_eq req s.ip (Nat.lt_of_lt_of_le hj s.bound)

theorem keyAt_ones (req : Msg) (s : Subnet) : keyAt req s s.ones = subnetKey req s := by
  rw [keyAt, s.masked, subnetKey]

theorem keyAt_eq_subnetKey (req : Msg) (s : Subnet) {j : Nat} (hj : j ≤ s.ones) :
    keyAt req s j = subnetKey req (s.shorten j hj) := rfl

theorem subnetKey_of_contains {req req' : Msg} {s : Subnet} (hq : SameQuestion req' req)
    (ht : t.Contains s) : subnetKey req' t = keyAt req s t.ones := by
  obtain ⟨hj, hsame⟩ := Subnet.contains_iff.mp ht
  rw [keyAt_eq_subnetKey req s hj]
  exact keyWithSubnet_congr hq hsame

namespace Cache

/-- The entry of the subnet cache under a key. -/
def entry (c : Cache) (k : Bytes) : Option Bytes := c.itemsWithSubnet.bind fun items => items k

theorem findWithSubnet_eq {c : Cache} {req : Msg} {n : IPNet} {s : Subnet}
    (hs : subnetOf n = some s) {r : Option Bytes × Bytes}
    (h : c.findWithSubnet req (some n) = some r) :
    KeyedStore.search c.entry (fun k m => shorterKey k m s.ip.length) s.ones
      (keyAt req s s.ones) = r := by
  unfold findWithSubnet at h
  rw [subnetOf_eq_some.mp hs] at h
  split at h
  · cases h
  · next items hi =>
    split at h
    · cases h
    · have he : c.entry = items := by funext k; rw [entry, hi]; rfl
      rw [he, keyAt_ones]
      exact Option.some.inj h

theorem subnetOf_of_findWithSubnet {c : Cache} {req : Msg} {n : IPNet}
    {r : Option Bytes × Bytes} (h : c.findWithSubnet req (some n) = some r) :
    ∃ s, subnetOf n = some s := by
  unfold findWithSubnet at h
  split at h
  · cases h
  · split at h
    · cases h
    · split at h
      · cases h
      · next ip ones hsub =>
        obtain ⟨hf, hb, hm⟩ := cacheSubnet_canonical hsub
        exact ⟨⟨ip, ones, hf, hb, hm⟩, subnetOf_eq_some.mpr hsub⟩

theorem findWithSubnet_stop {c : Cache} {req : Msg} {n : IPNet} {s : Subnet}
    (hs : subnetOf n = some s) {data k : Bytes}
    (h : c.findWithSubnet req (some n) = some (some data, k)) :
    ∃ j, ∃ hj : j ≤ s.ones, k = subnetKey req (s.shorten j hj) ∧ c.entry k = some data ∧
      ∀ i ≤ s.ones, j < i → c.entry (keyAt req s i) = none := by
  obtain ⟨j, hj, rfl, hv, hlonger⟩ :=
    KeyedStore.search_eq_some (shorterKey_keyAt req s) (findWithSubnet_eq hs h)
  exact ⟨j, hj, rfl, hv, hlonger⟩

theorem findWithSubnet_isSome {c : Cache} {req : Msg} {n : IPNet} {s : Subnet}
    (hs : subnetOf n = some s) (hq : req.question.length = 1) {k : Bytes}
    (hk : c.entry k ≠ none) : ∃ r, c.findWithSubnet req (some n) = some r := by
  unfold findWithSubnet
  cases hi : c.itemsWithSubnet with
  | none => exact absurd (by rw [entry, hi]; rfl) hk
  | some items => simp [canLookUpInCache, hq, subnetOf_eq_some.mp hs]

end Cache

/-! ## What an operation stores -/

/-- `op` stores `data` in the subnet cache for the question of `req` and the
network `t`. -/
def CacheOp.Stores (pf : Platform) (op : CacheOp) (req : Msg) (t : Subnet) (data : Bytes) : Prop :=
  ∃ m u n now, subnetOf n = some t ∧
    Cache.subnetEntry pf req m u (some n) now = some (subnetKey req t, data) ∧
    (op = .setWithSubnet req m u (some n) now ∨
      ∃ s, op = .cacheResp true req m (some s) u now ∧ respSubnet m s = some n)

/-- `op` stores `data` in the subnet cache under the key `k`. -/
def CacheOp.StoresAt (pf : Platform) (op : CacheOp) (k data : Bytes) : Prop :=
  ∃ req t, k = subnetKey req t ∧ op.Stores pf req t data

/-- The request an operation works for. -/
def CacheOp.request : CacheOp → Option Msg
  | .set req .. | .setWithSubnet req .. | .cacheResp _ req .. | .get req _
  | .getWithSubnet req .. => some req
  | .drop _ | .dropWithSubnet _ | .clearItems | .clearItemsWithSubnet => none

namespace Cache

variable {pf : Platform} {data k : Bytes} {c : Cache} {req : Msg} {now : Instant}

theorem subnetEntry_eq_some {m : Msg} {u : Bytes} {n : Option IPNet} {key : Bytes}
    (h : subnetEntry pf req m u n now = some (key, data)) :
    ∃ net t, n = some net ∧ subnetOf net = some t ∧ key = subnetKey req t := by
  simp only [subnetEntry, Option.bind_eq_bind, Option.bind_eq_some_iff, Option.some.injEq,
    Prod.mk.injEq, Prod.exists] at h
  obtain ⟨_, _, ip, ones, hsub, _, _, hkey, _⟩ := h
  cases n with
  | none => cases hsub
  | some net =>
    obtain ⟨hf, hb, hm⟩ := cacheSubnet_canonical hsub
    exact ⟨net, ⟨ip, ones, hf, hb, hm⟩, rfl, subnetOf_eq_some.mpr hsub, hkey.symm⟩

theorem entry_setWithSubnet {c' : Cache} {m : Msg} {u : Bytes} {n : Option IPNet}
    (h : c.setWithSubnet pf req m u n now = some c') (hk : c'.entry k = some data) :
    c.entry k = some data ∨ ∃ net t, n = some net ∧ subnetOf net = some t ∧ k = subnetKey req t ∧
      subnetEntry pf req m u (some net) now = some (subnetKey req t, data) := by
  unfold setWithSubnet at h
  split at h
  · obtain rfl := Option.some.inj h
    exact .inl hk
  · next key packed he =>
    obtain ⟨items, hi, rfl⟩ := Option.map_eq_some_iff.mp h
    by_cases hkey : k = key
    · subst hkey
      obtain rfl : packed = data := by simpa [entry] using hk
      obtain ⟨net, t, rfl, ht, rfl⟩ := subnetEntry_eq_some he
      exact .inr ⟨net, t, rfl, ht, rfl, he⟩
    · exact .inl (by simpa [entry, hi, hkey] using hk)

@[simp] theorem entry_set (pf : Platform) (c : Cache) (req m : Msg) (u : Bytes) (now : Instant)
    (k : Bytes) : (c.set pf req m u now).entry k = c.entry k := by
  simp only [entry, set_itemsWithSubnet]

theorem entry_delWithSubnet {key : Bytes} (h : (c.delWithSubnet key).entry k = some data) :
    c.entry k = some data := by
  unfold delWithSubnet entry at h
  cases hi : c.itemsWithSubnet with
  | none => rw [hi] at h; cases h
  | some items =>
    by_cases hk : k = key
    · subst hk
      simp [hi] at h
    · simpa [entry, hi, hk] using h

theorem entry_get (k : Bytes) : (c.get pf req now).cache.entry k = c.entry k := by
  simp only [entry, get_itemsWithSubnet]

theorem entry_getWithSubnet {n : Option IPNet}
    (h : (c.getWithSubnet pf req n now).cache.entry k = some data) : c.entry k = some data := by
  rcases getWithSubnet_cache pf c req n now with hc | ⟨key, hc⟩
  · rwa [hc] at h
  · rw [hc] at h
    exact entry_delWithSubnet h

theorem entry_clearItemsWithSubnet (c : Cache) (k : Bytes) :
    c.clearItemsWithSubnet.entry k = none := by
  unfold clearItemsWithSubnet entry
  cases c.itemsWithSubnet <;> rfl

theorem entry_cacheResp {c' : Cache} {ecsEnabled : Bool} {res : Msg} {reqECS : Option IPNet}
    {u : Bytes} (h : c.cacheResp pf ecsEnabled req res reqECS u now = some c')
    (hk : c'.entry k = some data) :
    c.entry k = some data ∨ ∃ t, k = subnetKey req t ∧
      (CacheOp.cacheResp ecsEnabled req res reqECS u now).Stores pf req t data := by
  unfold cacheResp at h
  split at h
  · obtain rfl := Option.some.inj h
    exact .inl (by simpa using hk)
  · next hecs =>
    obtain rfl : ecsEnabled = true := by simpa using hecs
    split at h
    · obtain rfl := Option.some.inj h
      exact .inl (by simpa using hk)
    · split at h
      · obtain rfl := Option.some.inj h
        exact .inl hk
      · next hn =>
        rcases entry_setWithSubnet h hk with hold | ⟨net, t, hnet, ht, hkey, he⟩
        · exact .inl hold
        · obtain rfl := Option.some.inj hnet
          exact .inr ⟨t, hkey, res, u, _, now, ht, he, .inr ⟨_, rfl, hn⟩⟩

theorem entry_step {op : CacheOp} (h : (c.step pf op).entry k = some data) :
    c.entry k = some data ∨ op.StoresAt pf k data := by
  cases op with
  | set req m u now => exact .inl (by simpa [step] using h)
  | setWithSubnet req m u n now =>
    unfold step at h
    cases hc : c.setWithSubnet pf req m u n now with
    | none => exact .inl (by simpa [hc] using h)
    | some c' =>
      simp only [hc, Option.getD_some] at h
      rcases entry_setWithSubnet hc h with hold | ⟨net, t, rfl, ht, hkey, he⟩
      · exact .inl hold
      · exact .inr ⟨req, t, hkey, m, u, net, now, ht, he, .inl rfl⟩
  | cacheResp ecsEnabled req res reqECS u now =>
    unfold step at h
    cases hc : c.cacheResp pf ecsEnabled req res reqECS u now with
    | none => exact .inl (by simpa [hc] using h)
    | some c' =>
      simp only [hc, Option.getD_some] at h
      rcases entry_cacheResp hc h with hold | ⟨t, hkey, hst⟩
      · exact .inl hold
      · exact .inr ⟨req, t, hkey, hst⟩
  | get req now => exact .inl ((entry_get k).symm.trans h)
  | getWithSubnet req n now => exact .inl (entry_getWithSubnet h)
  | drop key => exact .inl h
  | dropWithSubnet key => exact .inl (entry_delWithSubnet h)
  | clearItems => exact .inl h
  | clearItemsWithSubnet => exact absurd ((entry_clearItemsWithSubnet c k).symm.trans h) (by simp)

theorem stores_of_entry {withECS optimistic : Bool} {ttl maxAge : Duration} {ops : List CacheOp}
    (h : (run pf withECS optimistic ttl maxAge ops).entry k = some data) :
    ∃ op ∈ ops, op.StoresAt pf k data := by
  have hinit : ∀ k, (newCache withECS optimistic ttl maxAge).entry k = none := by
    cases withECS <;> exact fun _ => rfl
  have hstep : ∀ c op k data, (step pf c op).entry k = some data →
      c.entry k = some data ∨ op.StoresAt pf k data := fun _ _ _ _ => entry_step
  exact KeyedStore.written_of_present hstep hinit h

end Cache

/-! ## The network of a response -/

/-- The scope of a response, zero when it has no client subnet. -/
def respScope (res : Msg) : Nat := ((ecsFromMsg res).map Prod.snd).getD 0

/-- `s` lies in the network of the first `k` bits of the client subnet `n`. -/
def Subnet.Inside (s : Subnet) (n : IPNet) (k : Nat) : Prop :=
  k = 0 ∨ ∃ addr, n.address = some addr ∧ s.ip.length = addr.length ∧ k ≤ s.ones ∧
    keepBits k s.ip = keepBits k addr

/-- A client subnet that a message carries: of one of the two families, or with no
mask at all. -/
def IsOption (n : IPNet) : Prop :=
  n.mask = none ∨ ∃ k w, n.mask = some (mask k w) ∧ k ≤ 8 * w ∧
    (w = 4 ∧ (n.ip = none ∨ (bytesOf n.ip).length = 4) ∨ w = 16)

theorem isOption_of_ecsFromMsg {res : Msg} {ecs : IPNet} {scope : Nat}
    (h : ecsFromMsg res = some (ecs, scope)) : IsOption ecs := by
  obtain ⟨opt, _, hs⟩ := Option.bind_eq_some_iff.mp h
  generalize opt.options = os at hs
  induction os with
  | nil => cases hs
  | cons o os ih =>
    cases o with
    | other code data => exact ih hs
    | subnet family source sc address =>
      have hmask : ∀ w : Nat, w = 4 ∨ w = 16 → cidrMask source.toNat (8 * w) = none ∨
          cidrMask source.toNat (8 * w) = some (mask source.toNat w) ∧ source.toNat ≤ 8 * w := by
        rintro w (rfl | rfl) <;> unfold cidrMask <;> simp [ipv4Len, ipv6Len] <;> omega
      unfold firstSubnet at hs
      split at hs
      · obtain ⟨rfl, _⟩ := Prod.mk.inj (Option.some.inj hs)
        rcases hmask 4 (.inl rfl) with h | ⟨h, hle⟩
        · exact .inl h
        · refine .inr ⟨_, 4, h, hle, .inl ⟨rfl, ?_⟩⟩
          cases h4 : to4 address with
          | none => exact .inl rfl
          | some b => exact .inr (length_to4 h4)
      · split at hs
        · obtain ⟨rfl, _⟩ := Prod.mk.inj (Option.some.inj hs)
          rcases hmask 16 (.inr rfl) with h | ⟨h, hle⟩
          · exact .inl h
          · exact .inr ⟨_, 16, h, hle, .inr rfl⟩
        · exact ih hs

theorem mask_inj {k k' w w' : Nat} (hk : k ≤ 8 * w) (hk' : k' ≤ 8 * w')
    (h : mask k w = mask k' w') : k = k' ∧ w = w' := by
  have hsize := congrArg (fun m => maskSize (some m)) h
  simp only [maskSize_mask hk, maskSize_mask hk', Prod.mk.injEq] at hsize
  omega

theorem cidrMask_eq {w j : Nat} {p : Prop} (hw : w = 4 ∧ p ∨ w = 16) (hj : j ≤ 8 * w) :
    cidrMask j (8 * w) = some (mask j w) := by
  rcases hw with ⟨rfl, _⟩ | rfl
  · exact (if_neg (by decide)).trans (if_neg (by omega))
  · exact (if_neg (by decide)).trans (if_neg (by omega))

theorem subnetOf_cut {n : IPNet} {w j : Nat}
    (hw : w = 4 ∧ (n.ip = none ∨ (bytesOf n.ip).length = 4) ∨ w = 16) (hj : j ≤ 8 * w) {ip : IP}
    (hip : ip = n.ip ∨ ip = ipMask n.ip (some (mask j w)))
    (ht : subnetOf ⟨ip, some (mask j w)⟩ = some t) :
    t.ones = j ∧ ∃ e, n.ip = some e ∧ e.length = w ∧ t.ip = keepBits j e := by
  rcases cacheSubnet_eq_some (subnetOf_eq_some.mp ht) with ⟨hmask, _⟩ |
    ⟨w', addr, hmask, hle, hlen, htip, hfam⟩
  · cases hmask
  · obtain ⟨rfl, rfl⟩ := mask_inj hj hle (Option.some.inj hmask)
    refine ⟨rfl, ?_⟩
    rcases hfam with ⟨rfl, h4⟩ | ⟨rfl, h4, h16⟩
    · have hn : n.ip = none ∨ (bytesOf n.ip).length = 4 := by
        rcases hw with ⟨_, h⟩ | h
        · exact h
        · omega
      cases he : n.ip with
      | none =>
        rw [he] at hip
        rcases hip with rfl | rfl <;> cases h4
      | some e =>
        have hel : e.length = 4 := by simpa [he] using hn
        refine ⟨e, rfl, hel, htip.trans ?_⟩
        rcases hip with rfl | rfl
        · rw [he, to4_of_length (show (bytesOf (some e)).length = 4 from hel)] at h4
          rw [← Option.some.inj h4]
          rfl
        · rw [he, ipMask_mask hel, to4_of_length (by simpa using hel)] at h4
          rw [← Option.some.inj h4, bytesOf_some, keepBits_keepBits, Nat.min_self]
    · -- An address that is no IPv4 one is its own 16-byte form.
      have hip16 : ip = some addr := by
        unfold to16 at h16
        split at h16
        · next hl =>
          rw [to4_of_length hl] at h4
          cases h4
        · split at h16
          · exact h16
          · cases h16
      rcases hip with rfl | rfl
      · exact ⟨addr, hip16, hlen, htip⟩
      · rcases ipMask_eq_some hip16 with ⟨hl, hr⟩ | ⟨_, hl, _, hr⟩ | ⟨h, _⟩
        · cases he : n.ip with
          | none => rw [he] at hl; cases hl
          | some e =>
            rw [he] at hl hr
            refine ⟨e, rfl, hl, ?_⟩
            rw [htip, hr, bytesOf_some, keepBits_keepBits, Nat.min_self]
        · rw [hr, length_keepBits] at hlen
          omega
        · omega

theorem ones_of_no_mask {ip : IP} (h : subnetOf ⟨ip, none⟩ = some t) : t.ones = 0 := by
  rcases cacheSubnet_eq_some (subnetOf_eq_some.mp h) with ⟨_, _, h0⟩ | ⟨_, _, hm, _⟩
  · exact h0
  · cases hm

theorem subnetOf_scope {ecs n : IPNet} {scope k w : Nat} (hmask : ecs.mask = some (mask k w))
    (hk : k ≤ 8 * w) (hw : w = 4 ∧ (ecs.ip = none ∨ (bytesOf ecs.ip).length = 4) ∨ w = 16)
    (hn : (if scope < k then
        some ⟨ipMask ecs.ip (cidrMask scope (8 * w)), cidrMask scope (8 * w)⟩
      else some ecs) = some n) (ht : subnetOf n = some t) :
    t.ones = min scope k ∧ ∃ e, ecs.ip = some e ∧ e.length = w ∧ t.ip = keepBits t.ones e := by
  split at hn
  · next hlt =>
    have hscope : scope ≤ 8 * w := hlt.le.trans hk
    rw [cidrMask_eq hw hscope] at hn
    obtain rfl := Option.some.inj hn
    obtain ⟨hj, e, he⟩ := subnetOf_cut hw hscope (.inr rfl) ht
    rw [hj]
    exact ⟨(Nat.min_eq_left hlt.le).symm, e, he⟩
  · next hge =>
    obtain rfl := Option.some.inj hn
    have ht' : subnetOf ⟨ecs.ip, some (mask k w)⟩ = some t := by rw [← hmask]; exact ht
    obtain ⟨hj, e, he⟩ := subnetOf_cut hw hk (.inl rfl) ht'
    rw [hj]
    exact ⟨(Nat.min_eq_right (Nat.le_of_not_lt hge)).symm, e, he⟩

theorem respSubnet_network {res : Msg} {s n : IPNet} (hn : respSubnet res s = some n)
    (ht : subnetOf n = some t) :
    t.ones = min (respScope res) (maskSize s.mask).1 ∧
      (t.ones ≠ 0 → ∃ addr, s.address = some addr ∧ addr.length = t.ip.length ∧
        t.ip = keepBits t.ones addr) := by
  unfold respSubnet at hn
  unfold respScope
  cases hecs : ecsFromMsg res with
  | none =>
    rw [hecs] at hn
    obtain rfl := Option.some.inj hn
    rw [ones_of_no_mask ht]
    exact ⟨(Nat.zero_min _).symm, fun h => absurd rfl h⟩
  | some es =>
    obtain ⟨ecs, scope⟩ := es
    rw [hecs] at hn
    simp only [Option.map_some, Option.getD_some] at hn ⊢
    split at hn
    · cases hn
    · next hmatch =>
      simp only [Bool.or_eq_true, Bool.not_eq_true', bne_iff_ne, ne_eq, not_or, not_not,
        Bool.not_eq_false] at hmatch
      obtain ⟨heq, hones⟩ := hmatch
      rcases isOption_of_ecsFromMsg hecs with hmask | ⟨k, w, hmask, hk, hw⟩
      · rw [hmask, maskSize_none] at hones
        rw [← hones] at hn ⊢
        simp only [Nat.not_lt_zero, if_false, Option.some.injEq] at hn
        subst hn
        have hzero : t.ones = 0 := ones_of_no_mask (by rw [← hmask]; exact ht)
        rw [hzero]
        exact ⟨(Nat.min_zero _).symm, fun h => absurd rfl h⟩
      · rw [hmask, maskSize_mask hk] at hn hones
        simp only at hn hones
        rw [hmask] at heq
        rw [← hones] at hn
        obtain ⟨hmin, e, he, hel, htip⟩ := subnetOf_scope hmask hk hw hn ht
        refine ⟨by rw [hmin, hones], fun h0 => ?_⟩
        rw [he] at heq
        obtain ⟨addr, haddr, hlen, hbits⟩ := address_of_ipEqual (by omega) hel (by omega) hk
          hones.symm heq
        refine ⟨addr, haddr, by rw [htip, length_keepBits, hel, hlen], ?_⟩
        -- The first `k` bits agree, so the first `t.ones` of them do.
        have hcut : ∀ bs, keepBits t.ones bs = keepBits t.ones (keepBits k bs) := by
          intro bs
          rw [keepBits_keepBits, Nat.min_eq_left (by omega)]
        rw [htip, hcut e, ← hbits, ← hcut addr]

/-- Only the clients inside the subnet of the request, cut to the scope of the
response, are in the network of the entry. -/
theorem inside_of_contains {res : Msg} {n n' : IPNet} {s : Subnet} (hn : respSubnet res n = some n')
    (ht : subnetOf n' = some t) (hs : t.Contains s) :
    s.Inside n (min (respScope res) (maskSize n.mask).1) := by
  obtain ⟨hones, haddr⟩ := respSubnet_network hn ht
  rw [← hones]
  rcases hs with h0 | ⟨hlen, hle, hbits⟩
  · exact .inl h0
  · by_cases h0 : t.ones = 0
    · exact .inl h0
    · obtain ⟨addr, ha, hal, htip⟩ := haddr h0
      exact .inr ⟨addr, ha, by rw [hal, hlen], hle, by rw [hbits, htip]⟩

/-! ## The lookup -/

theorem CacheOp.Stores.request_eq {pf : Platform} {op : CacheOp} {req : Msg} {data : Bytes}
    (h : op.Stores pf req t data) : op.request = some req := by
  obtain ⟨m, u, n, now, _, _, rfl | ⟨_, rfl, _⟩⟩ := h <;> rfl

theorem contains_of_subnetKey {req req' : Msg} {s : Subnet} {j : Nat} {hj : j ≤ s.ones}
    (hreq : PrintableName req.firstQuestion.name) (hreq' : PrintableName req'.firstQuestion.name)
    (h : subnetKey req (s.shorten j hj) = subnetKey req' t) :
    SameQuestion req' req ∧ t.Contains s ∧ t.ones = j := by
  obtain ⟨hq, hsame⟩ := (subnetKey_inj hreq' hreq).mp h.symm
  obtain rfl : t.ones = j := hsame.1
  exact ⟨hq, Subnet.contains_iff.mpr ⟨hj, hsame⟩, rfl⟩

/-- The subnet cache is a longest-prefix table. For any history and any client
network `s`:
a lookup reads an entry stored for the same question and for a network that
contains `s`, and no longer one is present; it reads one if one is present; the
answer to a request with the client subnet `n` is read only from inside `n`, cut
to the scope of the answer; and the keys it goes through are those of the prefixes
of `s`. -/
theorem getWithSubnet_longest_match (pf : Platform) (withECS optimistic : Bool)
    (ttl maxAge : Duration) (ops : List CacheOp)
    (hops : ∀ op ∈ ops, ∀ req ∈ op.request, PrintableName req.firstQuestion.name)
    (req : Msg) (hreq : PrintableName req.firstQuestion.name) (net : IPNet) (s : Subnet)
    (hs : subnetOf net = some s) :
    let c := Cache.run pf withECS optimistic ttl maxAge ops
    (∀ data k, c.findWithSubnet req (some net) = some (some data, k) →
      ∃ op ∈ ops, ∃ req' t, op.Stores pf req' t data ∧ SameQuestion req' req ∧ t.Contains s ∧
        k = subnetKey req' t ∧
        ∀ req'' t', SameQuestion req'' req → t'.Contains s → c.entry (subnetKey req'' t') ≠ none →
          t'.ones ≤ t.ones) ∧
    (∀ req' t, req.question.length = 1 → SameQuestion req' req → t.Contains s →
      c.entry (subnetKey req' t) ≠ none →
      ∃ data k, c.findWithSubnet req (some net) = some (some data, k)) ∧
    (∀ req' res n u now t stored data k,
      CacheOp.cacheResp true req' res (some n) u now ∈ ops →
      (CacheOp.cacheResp true req' res (some n) u now).Stores pf req' t stored →
      c.findWithSubnet req (some net) = some (some data, k) → k = subnetKey req' t →
      s.Inside n (min (respScope res) (maskSize n.mask).1)) ∧
    KeyedStore.visited (fun k m => shorterKey k m s.ip.length) s.ones (subnetKey req s) =
      (List.range (s.ones + 1)).reverse.map
        (fun j => msgToKeyWithSubnet req (keepBits j s.ip) j) := by
  intro c
  have hchain := shorterKey_keyAt req s
  refine ⟨?_, ?_, ?_, ?_⟩
  · intro data k h
    obtain ⟨j, hj, hk, hv, hlonger⟩ := Cache.findWithSubnet_stop hs h
    obtain ⟨op, hop, req', t, hkey, hst⟩ := Cache.stores_of_entry hv
    have hreq' := hops op hop req' hst.request_eq
    obtain ⟨hq, hcont, hones⟩ := contains_of_subnetKey hreq hreq' (hk.symm.trans hkey)
    refine ⟨op, hop, req', t, hst, hq, hcont, hkey, fun req'' t' hq' hcont' hpresent => ?_⟩
    by_contra hlt
    rw [subnetKey_of_contains hq' hcont'] at hpresent
    exact hpresent (hlonger t'.ones hcont'.le (by omega))
  · intro req' t hone hq hcont hpresent
    obtain ⟨⟨read, k⟩, hfind⟩ := Cache.findWithSubnet_isSome hs hone hpresent
    cases read with
    | some data => exact ⟨data, k, hfind⟩
    | none =>
      have hnone := KeyedStore.search_eq_none hchain
        (congrArg Prod.fst (Cache.findWithSubnet_eq hs hfind))
      rw [subnetKey_of_contains hq hcont] at hpresent
      exact absurd (hnone t.ones hcont.le) hpresent
  · intro req' res n u now t stored data k hop hst h hkey
    obtain ⟨j, hj, hk, _⟩ := Cache.findWithSubnet_stop hs h
    have hreq' := hops _ hop req' rfl
    obtain ⟨_, hcont, _⟩ := contains_of_subnetKey hreq hreq' (hk.symm.trans hkey)
    obtain ⟨m, u', n', now', ht, _, hset | ⟨n'', heq, hn⟩⟩ := hst
    · cases hset
    · cases heq
      exact inside_of_contains hn ht hcont
  · rw [← keyAt_ones]
    exact KeyedStore.visited_eq hchain

/-- A query from the network of `address`, with the client subnet it sends. -/
def subnetQuery (address : Bytes) : Msg :=
  { id := 1, recursionDesired := true
    question := [⟨exampleOrg, typeA, classINET⟩]
    extra := [⟨[46], 1232, 0, .opt [.subnet 1 24 0 (some address)]⟩] }

/-- An answer for 1.2.3.0/24 with scope 16. -/
def subnetAnswer : Msg :=
  { id := 1, response := true, recursionDesired := true, recursionAvailable := true
    question := [⟨exampleOrg, typeA, classINET⟩]
    answer := [⟨exampleOrg, classINET, 60, .a [192, 0, 2, 1]⟩]
    extra := [⟨[46], 1232, 0, .opt [.subnet 1 24 16 (some [1, 2, 3, 0])]⟩] }

def subnetAnswerWire : Bytes :=
  [0, 1, 0x81, 0x80, 0, 1, 0, 1, 0, 0, 0, 1] ++
  exampleOrgWire ++ [0, 1, 0, 1] ++
  exampleOrgWire ++ [0, 1, 0, 1, 0, 0, 0, 60, 0, 4, 192, 0, 2, 1] ++
  [0, 0, 41, 0x04, 0xd0, 0, 0, 0, 0, 0, 11, 0, 8, 0, 7, 0, 1, 24, 16, 1, 2, 3]

/-- The client subnet `a.b.c.0/24`. -/
def net24 (address : Bytes) : IPNet := ⟨some address, some [255, 255, 255, 0]⟩

def subnetStore : CacheOp :=
  .cacheResp true (subnetQuery [1, 2, 3, 0]) subnetAnswer (some (net24 [1, 2, 3, 0])) [] .epoch

def network1209 : Subnet := ⟨[1, 2, 9, 0], 24, by decide, by decide, by decide⟩

def network12 : Subnet := ⟨[1, 2, 0, 0], 16, by decide, by decide, by decide⟩

/-- The answer for 1.2.3.0/24 with scope 16 is read by a client in 1.2.9.0/24, which
is inside 1.2.0.0/16. -/
theorem getWithSubnet_reads_scope :
    let pf := Platform.ofTable [(subnetAnswer, subnetAnswerWire)]
    (Cache.run pf true false 0 0 [subnetStore]).findWithSubnet (subnetQuery [1, 2, 9, 0])
        (some (net24 [1, 2, 9, 0])) =
      some (some ([0, 0, 0, 0, 0, 0, 0, 60, 0, 78] ++ subnetAnswerWire),
        subnetKey (subnetQuery [1, 2, 3, 0]) network12) ∧
    network1209.Inside (net24 [1, 2, 3, 0])
      (min (respScope subnetAnswer) (maskSize (net24 [1, 2, 3, 0]).mask).1) := by
  intro pf
  have hnames : ∀ op ∈ [subnetStore], ∀ req ∈ op.request,
      PrintableName req.firstQuestion.name := by
    intro op hop req hreq
    obtain rfl := List.mem_singleton.mp hop
    obtain rfl := Option.some.inj hreq
    decide
  have hfind : (Cache.run pf true false 0 0 [subnetStore]).findWithSubnet
      (subnetQuery [1, 2, 9, 0]) (some (net24 [1, 2, 9, 0])) =
      some (some ([0, 0, 0, 0, 0, 0, 0, 60, 0, 78] ++ subnetAnswerWire),
        subnetKey (subnetQuery [1, 2, 3, 0]) network12) := by
    decide +kernel
  have hstores : subnetStore.Stores pf (subnetQuery [1, 2, 3, 0]) network12
      ([0, 0, 0, 0, 0, 0, 0, 60, 0, 78] ++ subnetAnswerWire) :=
    ⟨subnetAnswer, [], ⟨some [1, 2, 0, 0], some [255, 255, 0, 0]⟩, .epoch, by decide +kernel,
      by decide +kernel, .inr ⟨net24 [1, 2, 3, 0], rfl, by decide +kernel⟩⟩
  exact ⟨hfind, (getWithSubnet_longest_match pf true false 0 0 [subnetStore] hnames
    (subnetQuery [1, 2, 9, 0]) (by decide) (net24 [1, 2, 9, 0]) network1209
    (by decide +kernel)).2.2.1 _ _ _ _ _ _ _ _ _ (List.mem_singleton.mpr rfl) hstores hfind rfl⟩

end DnsProxy
