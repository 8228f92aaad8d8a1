import DnsProxy.Net
import DnsProxy.Lib.BigEndian

/-!
# Cache keys

The byte strings under which responses are cached and pending requests are
stored. A key holds the DO bit, the type, the class and the lower-cased name of
the question; the keys of the subnet cache also hold a prefix length and, unless
it is zero, the 4 or 16 bytes of the masked client address, with nothing between
the address and the name.

* `keyWithSubnet_inj`: over names without a NUL byte, two keys of the subnet
  cache are equal only for the same question and the same prefix. The two
  families do not mix, because a prefix length of an IPv4 network leaves twelve
  zero bytes in an IPv6 address, where the other key has its name.
* `msgToKey_inj`: the same for the keys of the general cache.
* `shorterKey_eq`: the in-place step of the lookup makes the key of the next
  shorter prefix.
-/

namespace DnsProxy

open BitPrefix Net

/-! ## Subnets -/

/-- A network as the keys see it: a masked address, empty for the entry that is
valid for every client, and a prefix length. -/
structure Subnet where
  ip : Bytes
  ones : Nat
  family : ip.length = 0 ∨ ip.length = 4 ∨ ip.length = 16
  bound : ones ≤ 8 * ip.length
  masked : keepBits ones ip = ip
deriving DecidableEq, Repr

/-- `cacheSubnet`: the masked address and the prefix length of a subnet, `none` for
one that cannot be a key. A nil mask denotes the global entry. -/
def cacheSubnet : Option IPNet → Option (Bytes × Nat)
  | none => none
  | some n =>
    if n.mask = none then
      if n.ip = none ∨ to16 n.ip ≠ none then some ([], 0) else none
    else
      let (ones, bits) := maskSize n.mask
      let ip :=
        if bits = 32 then to4 n.ip
        else if bits = 128 then
          if to4 n.ip ≠ none then none else to16 n.ip
        else none
      match ip with
      | none => none
      | some ip => some (bytesOf (ipMask (some ip) n.mask), ones)

/-- What an accepted subnet is: the global entry, or a network of one of the two
families with the address that the mask selects. -/
theorem cacheSubnet_eq_some {n : IPNet} {ip : Bytes} {ones : Nat}
    (h : cacheSubnet (some n) = some (ip, ones)) :
    (n.mask = none ∧ ip = [] ∧ ones = 0) ∨
    ∃ w addr, n.mask = some (mask ones w) ∧ ones ≤ 8 * w ∧ addr.length = w ∧
      ip = keepBits ones addr ∧
      (w = 4 ∧ to4 n.ip = some addr ∨ w = 16 ∧ to4 n.ip = none ∧ to16 n.ip = some addr) := by
  unfold cacheSubnet at h
  simp only at h
  split at h
  · next hm =>
    split at h
    · obtain ⟨rfl, rfl⟩ := Prod.mk.inj (Option.some.inj h)
      exact .inl ⟨hm, rfl, rfl⟩
    · cases h
  · generalize hsz : maskSize n.mask = sz at h
    obtain ⟨k, bits⟩ := sz
    simp only at h
    split at h
    · cases h
    · next addr haddr =>
      obtain ⟨rfl, rfl⟩ := Prod.mk.inj (Option.some.inj h)
      -- The width of the mask selects the family; every other width gives no address.
      have hfam : bits = 32 ∧ to4 n.ip = some addr ∨
          bits = 128 ∧ to4 n.ip = none ∧ to16 n.ip = some addr := by
        split at haddr
        · next hb => exact .inl ⟨hb, haddr⟩
        · split at haddr
          · next hb =>
            split at haddr
            · cases haddr
            · next h4 => exact .inr ⟨hb, not_not.mp h4, haddr⟩
          · cases haddr
      have hbits : bits ≠ 0 := by
        rcases hfam with ⟨hb, _⟩ | ⟨hb, _⟩ <;> omega
      obtain ⟨w, rfl, hle, hmask⟩ := eq_mask_of_maskSize hsz hbits
      have hlen : addr.length = w := by
        rcases hfam with ⟨hb, h4⟩ | ⟨hb, _, h16⟩
        · rw [length_to4 h4]
          omega
        · rw [length_to16 h16]
          omega
      refine .inr ⟨w, addr, hmask, hle, hlen, ?_, ?_⟩
      · rw [hmask, ipMask_mask hlen]
        rfl
      · rcases hfam with ⟨hb, h4⟩ | ⟨hb, h4, h16⟩
        · exact .inl ⟨by omega, h4⟩
        · exact .inr ⟨by omega, h4, h16⟩

theorem cacheSubnet_canonical {n : IPNet} {ip : Bytes} {ones : Nat}
    (h : cacheSubnet (some n) = some (ip, ones)) :
    (ip.length = 0 ∨ ip.length = 4 ∨ ip.length = 16) ∧ ones ≤ 8 * ip.length ∧
      keepBits ones ip = ip := by
  rcases cacheSubnet_eq_some h with ⟨_, rfl, rfl⟩ | ⟨w, addr, _, hle, hlen, rfl, hw⟩
  · exact ⟨.inl rfl, Nat.le_refl _, rfl⟩
  · rw [length_keepBits, keepBits_keepBits, Nat.min_self, hlen]
    refine ⟨?_, hle, rfl⟩
    rcases hw with ⟨rfl, _⟩ | ⟨rfl, _⟩
    · exact .inr (.inl rfl)
    · exact .inr (.inr rfl)

/-- The subnet of an accepted network. -/
def subnetOf (n : IPNet) : Option Subnet :=
  match h : cacheSubnet (some n) with
  | none => none
  | some (ip, ones) =>
    have hc := cacheSubnet_canonical h
    some ⟨ip, ones, hc.1, hc.2.1, hc.2.2⟩

theorem subnetOf_eq_some {n : IPNet} {s : Subnet} :
    subnetOf n = some s ↔ cacheSubnet (some n) = some (s.ip, s.ones) := by
  unfold subnetOf
  split
  · next h => simp [h]
  · next ip ones h =>
    obtain ⟨sip, sones, _, _, _⟩ := s
    constructor
    · intro hs
      simp only [Option.some.injEq, Subnet.mk.injEq] at hs
      rw [h, hs.1, hs.2]
    · intro hs
      obtain ⟨rfl, rfl⟩ := Prod.mk.inj (Option.some.inj (h.symm.trans hs))
      rfl

namespace Subnet

/-- The first `j` bits of a network. -/
def shorten (s : Subnet) (j : Nat) (hj : j ≤ s.ones) : Subnet :=
  ⟨keepBits j s.ip, j, by simpa using s.family,
    by rw [length_keepBits]; exact Nat.le_trans hj s.bound,
    by rw [keepBits_keepBits, Nat.min_self]⟩

/-- Two subnets with one key: the address does not count at prefix length zero. -/
def Same (s t : Subnet) : Prop := s.ones = t.ones ∧ (s.ones ≠ 0 → s.ip = t.ip)

/-- `s` contains the network `n`: it is the zero-length prefix, or of the family of
`n`, no longer, and equal to it on its own bits. -/
def Contains (s n : Subnet) : Prop :=
  s.ones = 0 ∨ s.ip.length = n.ip.length ∧ s.ones ≤ n.ones ∧ keepBits s.ones n.ip = s.ip

instance (s t : Subnet) : Decidable (s.Same t) := inferInstanceAs (Decidable (_ ∧ _))

instance (s n : Subnet) : Decidable (s.Contains n) := inferInstanceAs (Decidable (_ ∨ _))

theorem Contains.le {s n : Subnet} (h : s.Contains n) : s.ones ≤ n.ones := by
  rcases h with h | ⟨_, h, _⟩
  · omega
  · exact h

theorem contains_iff {s n : Subnet} :
    s.Contains n ↔ ∃ hj : s.ones ≤ n.ones, s.Same (n.shorten s.ones hj) := by
  constructor
  · intro h
    refine ⟨h.le, rfl, fun h0 => ?_⟩
    rcases h with h | ⟨_, _, h⟩
    · exact absurd h h0
    · exact h.symm
  · rintro ⟨hj, _, h⟩
    by_cases h0 : s.ones = 0
    · exact .inl h0
    · have hip : s.ip = keepBits s.ones n.ip := h h0
      exact .inr ⟨by rw [hip, length_keepBits], hj, hip.symm⟩

end Subnet

/-! ## The keys -/

def packedMsgLenSz : Nat := 2
def keyMaskIndex : Nat := 1 + 2 * packedMsgLenSz
def keyIPIndex : Nat := keyMaskIndex + 1

def boolToNumber (b : Bool) : UInt8 := if b then 1 else 0

/-- The DO bit, the type and the class, with which every key starts. -/
def keyHead (m : Msg) : Bytes :=
  boolToNumber m.doBit :: (BigEndian.encode packedMsgLenSz m.firstQuestion.qtype.toNat ++
    BigEndian.encode packedMsgLenSz m.firstQuestion.qclass.toNat)

def msgToKey (m : Msg) : Bytes := keyHead m ++ toLower m.firstQuestion.name

def msgToKeyWithSubnet (m : Msg) (ecsIP : Bytes) (mask : Nat) : Bytes :=
  keyHead m ++ UInt8.ofNat mask :: ((if mask ≠ 0 then ecsIP else []) ++
    toLower m.firstQuestion.name)

/-- Two requests ask the same question: the fields that the keys hold agree. -/
def SameQuestion (m m' : Msg) : Prop :=
  m.doBit = m'.doBit ∧ m.firstQuestion.qtype = m'.firstQuestion.qtype ∧
  m.firstQuestion.qclass = m'.firstQuestion.qclass ∧
  toLower m.firstQuestion.name = toLower m'.firstQuestion.name

instance (m m' : Msg) : Decidable (SameQuestion m m') :=
  inferInstanceAs (Decidable (_ ∧ _))

@[simp] theorem length_keyHead (m : Msg) : (keyHead m).length = keyMaskIndex := by
  simp [keyHead, keyMaskIndex, packedMsgLenSz]

theorem boolToNumber_inj {a b : Bool} (h : boolToNumber a = boolToNumber b) : a = b := by
  cases a <;> cases b <;> first | rfl | cases h

theorem encode_uint16_inj {a b : UInt16}
    (h : BigEndian.encode packedMsgLenSz a.toNat = BigEndian.encode packedMsgLenSz b.toNat) :
    a = b :=
  UInt16.toNat_inj.mp (BigEndian.encode_inj a.toNat_lt b.toNat_lt h)

theorem keyHead_inj {m m' : Msg} (h : keyHead m = keyHead m') :
    m.doBit = m'.doBit ∧ m.firstQuestion.qtype = m'.firstQuestion.qtype ∧
      m.firstQuestion.qclass = m'.firstQuestion.qclass := by
  obtain ⟨hdo, hrest⟩ := List.cons.inj h
  obtain ⟨hty, hcl⟩ := List.append_inj hrest (by simp)
  exact ⟨boolToNumber_inj hdo, encode_uint16_inj hty, encode_uint16_inj hcl⟩

theorem SameQuestion.keyHead_eq {m m' : Msg} (h : SameQuestion m m') : keyHead m = keyHead m' := by
  obtain ⟨hdo, hty, hcl, _⟩ := h
  rw [keyHead, keyHead, hdo, hty, hcl]

theorem msgToKey_inj {m m' : Msg} : msgToKey m = msgToKey m' ↔ SameQuestion m m' := by
  constructor
  · intro h
    obtain ⟨hhead, hname⟩ := List.append_inj h (by simp)
    obtain ⟨hdo, hty, hcl⟩ := keyHead_inj hhead
    exact ⟨hdo, hty, hcl, hname⟩
  · intro h
    rw [msgToKey, msgToKey, h.keyHead_eq, h.2.2.2]

/-- A name with no NUL byte, as the message library produces them. -/
def NoNul (s : Bytes) : Prop := (0 : UInt8) ∉ toLower s

theorem Printable.lowerByte {b : UInt8} (hb : Printable b) : Printable (lowerByte b) := by
  unfold DnsProxy.lowerByte
  split
  · next h =>
    obtain ⟨h65, h90⟩ := h
    simp only [Printable, UInt8.le_iff_toNat_le, UInt8.toNat_add] at h65 h90 ⊢
    have h65' : 65 ≤ b.toNat := h65
    have h90' : b.toNat ≤ 90 := h90
    show 32 ≤ (b.toNat + 32) % 2 ^ 8 ∧ (b.toNat + 32) % 2 ^ 8 ≤ 126
    omega
  · exact hb

theorem PrintableName.toLower {s : Bytes} (h : PrintableName s) : PrintableName (toLower s) := by
  intro b hb
  obtain ⟨b', hb', rfl⟩ := List.mem_map.mp hb
  exact (h b' hb').lowerByte

theorem PrintableName.noNul {s : Bytes} (h : PrintableName s) : NoNul s := by
  intro h0
  exact absurd (h.toLower 0 h0) (by decide)

/-- A prefix length of an IPv4 network leaves the last twelve bytes of an IPv6
address zero, so the address cannot be read as an IPv4 one and a name. -/
theorem address_ne_mixed {s s' : Subnet} {n n' : Bytes} (h4 : s.ip.length = 4)
    (h16 : s'.ip.length = 16) (hones : s.ones = s'.ones) (hn : (0 : UInt8) ∉ n) :
    s.ip ++ n ≠ s'.ip ++ n' := by
  intro h
  have hle : s'.ones ≤ 8 * (s'.ip.take 4).length := by
    have := s.bound
    rw [List.length_take]
    omega
  have hz : s'.ip = keepBits s'.ones (s'.ip.take 4) ++ List.replicate (s'.ip.drop 4).length 0 := by
    rw [← keepBits_append_of_le hle, List.take_append_drop, s'.masked]
  rw [hz, List.append_assoc] at h
  obtain ⟨_, hname⟩ := List.append_inj h (by simp [h4, h16])
  apply hn
  rw [hname, List.length_drop, h16]
  simp [List.replicate_succ]

theorem keyWithSubnet_inj {m m' : Msg} {s s' : Subnet}
    (hn : NoNul m.firstQuestion.name) (hn' : NoNul m'.firstQuestion.name)
    (h : msgToKeyWithSubnet m s.ip s.ones = msgToKeyWithSubnet m' s'.ip s'.ones) :
    SameQuestion m m' ∧ s.Same s' := by
  obtain ⟨hhead, hrest⟩ := List.append_inj h (by simp)
  obtain ⟨hdo, hty, hcl⟩ := keyHead_inj hhead
  obtain ⟨hmask, hrest⟩ := List.cons.inj hrest
  have hones : s.ones = s'.ones := by
    have hb := s.bound
    have hb' := s'.bound
    have hf := s.family
    have hf' := s'.family
    have := congrArg UInt8.toNat hmask
    rw [UInt8.toNat_ofNat', UInt8.toNat_ofNat'] at this
    omega
  by_cases h0 : s.ones = 0
  · rw [if_neg (not_not.mpr h0), if_neg (by omega)] at hrest
    exact ⟨⟨hdo, hty, hcl, hrest⟩, hones, fun h => absurd h0 h⟩
  · rw [if_pos h0, if_pos (by omega)] at hrest
    have hlen : s.ip.length = s'.ip.length := by
      have hb := s.bound
      have hb' := s'.bound
      rcases s.family with h | h | h <;> rcases s'.family with h' | h' | h'
      · omega
      · omega
      · omega
      · omega
      · omega
      · exact absurd hrest (address_ne_mixed h h' hones hn)
      · omega
      · exact absurd hrest.symm (address_ne_mixed h' h hones.symm hn')
      · omega
    obtain ⟨hip, hname⟩ := List.append_inj hrest hlen
    exact ⟨⟨hdo, hty, hcl, hname⟩, hones, fun _ => hip⟩

theorem keyWithSubnet_congr {m m' : Msg} {s s' : Subnet} (hq : SameQuestion m m')
    (hs : s.Same s') :
    msgToKeyWithSubnet m s.ip s.ones = msgToKeyWithSubnet m' s'.ip s'.ones := by
  rw [msgToKeyWithSubnet, msgToKeyWithSubnet, hq.keyHead_eq, hq.2.2.2, ← hs.1]
  by_cases h0 : s.ones = 0
  · simp [h0]
  · simp [h0, hs.2 h0]

/-! ## Shortening a key in place -/

/-- One round of the lookup loop: from the key of prefix length `m + 1` to the key
of prefix length `m`. The address is deleted at length zero, else its last
network bit is cleared. -/
def shorterKey (k : Bytes) (m ipLen : Nat) : Bytes :=
  let k := k.set keyMaskIndex (UInt8.ofNat m)
  if m = 0 then k.take keyIPIndex ++ k.drop (keyIPIndex + ipLen)
  else k.modify (keyIPIndex + m / 8) fun b => b &&& ~~~(1 <<< UInt8.ofNat (7 - m % 8))

theorem shorterKey_eq (req : Msg) (ip : Bytes) {m : Nat} (h : m < 8 * ip.length) :
    shorterKey (msgToKeyWithSubnet req (keepBits (m + 1) ip) (m + 1)) m ip.length =
      msgToKeyWithSubnet req (keepBits m ip) m := by
  have hlen := length_keyHead req
  have hfront : (keyHead req ++ [UInt8.ofNat m]).length = keyIPIndex := by
    simp [keyIPIndex]
  -- The key with the new mask byte, split where the address starts.
  have hset : (msgToKeyWithSubnet req (keepBits (m + 1) ip) (m + 1)).set keyMaskIndex
      (UInt8.ofNat m) = (keyHead req ++ [UInt8.ofNat m]) ++ (keepBits (m + 1) ip ++
        toLower req.firstQuestion.name) := by
    rw [msgToKeyWithSubnet, if_pos (Nat.succ_ne_zero m), List.set_append_right _ _ (by omega),
      hlen, Nat.sub_self, List.set_cons_zero, List.append_assoc, List.singleton_append]
  rw [shorterKey, hset]
  by_cases h0 : m = 0
  · subst h0
    rw [if_pos rfl, List.take_left' hfront, ← hfront, ← List.drop_drop, List.drop_left,
      List.drop_left' (length_keepBits _ _)]
    simp [msgToKeyWithSubnet]
  · have hbyte : m / 8 < (keepBits (m + 1) ip).length := by
      rw [length_keepBits]
      omega
    have hclear := clearBit_keepBits h
    rw [clearBit] at hclear
    rw [if_neg h0, ← hfront, modify_append_right, modify_append_left hbyte, hclear,
      msgToKeyWithSubnet, if_pos h0, List.append_assoc, List.singleton_append]

end DnsProxy
