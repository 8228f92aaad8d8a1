import DnsProxy.Net
import Mathlib.Data.List.Nodup

/-!
# What the proxy takes from outside

The functions of other packages that the proxy calls and whose code is not part
of it, as the fields of `Platform`. What a result relies on is a named property
of the platform, stated as these packages document it.
-/

namespace DnsProxy

/-- `netip.Addr`: the bytes of a valid address, without a zone. -/
abbrev Addr := Bytes

/-- `netip.Prefix`. -/
structure Prefix where
  addr : Addr
  bits : Nat
deriving DecidableEq, Repr

structure Platform where
  /-- `dns.Msg.Pack`. -/
  pack : Msg → Option Bytes
  /-- `dns.Msg.Unpack`. -/
  unpack : Bytes → Option Msg
  /-- `dns.Msg.Truncate`. -/
  truncate : Msg → Nat → Msg
  /-- The conversion of a floating-point number with this integer part to `uint32`
  when it is out of range, which Go leaves to the implementation. -/
  outOfRange : Int → UInt32
  /-- `netutil.ExtractReversedAddr`, `none` for an error. -/
  extractReversedAddr : Bytes → Option Prefix
  /-- `netutil.IPFromReversedAddr`, `none` for an error. -/
  ipFromReversedAddr : Bytes → Option Addr
  /-- `netutil.IPToAddr` for IPv4, `none` for an error. -/
  ipToAddrIPv4 : Net.IP → Option Addr
  /-- `netutil.IPToAddr` for IPv6, `none` for an error. -/
  ipToAddrIPv6 : Net.IP → Option Addr
  /-- `netutil.IPToAddrNoMapped`, `none` for an error. -/
  ipToAddrNoMapped : Net.IP → Option Addr
  /-- `netutil.IsSpecialPurpose`. -/
  isSpecialPurpose : Addr → Bool

/-- Unpacking restores the message. Whether it is compressed is not part of the
wire form. -/
def Platform.RoundTrips (pf : Platform) (m : Msg) : Prop :=
  ∀ b, pf.pack m = some b → pf.unpack b = some { m with compress := false }

/-! ## Concrete inputs -/

/-- A platform that knows the wire forms of the messages in a table. Messages are
short enough not to be truncated, no name is a reversed address, and the clients
have addresses of a private network. -/
def Platform.ofTable (table : List (Msg × Bytes)) : Platform where
  pack m := (table.find? fun e => e.1 = m).map Prod.snd
  unpack b := (table.find? fun e => e.2 = b).map fun e => { e.1 with compress := false }
  truncate m _ := { m with compress := false }
  outOfRange _ := 0
  extractReversedAddr _ := none
  ipFromReversedAddr _ := none
  ipToAddrIPv4 := Net.to4
  ipToAddrIPv6 := Net.to16
  ipToAddrNoMapped ip := (Net.to4 ip).or (Net.to16 ip)
  isSpecialPurpose _ := true

theorem Platform.ofTable_roundTrips {table : List (Msg × Bytes)} (h : (table.map Prod.snd).Nodup)
    (m : Msg) : (Platform.ofTable table).RoundTrips m := by
  intro b hpack
  obtain ⟨e, hfind, rfl⟩ := Option.map_eq_some_iff.mp hpack
  have hmem := List.mem_of_find?_eq_some hfind
  obtain rfl : e.1 = m := by simpa using List.find?_some hfind
  have hwire : table.find? (fun e' => e'.2 = e.2) = some e := by
    cases hf : table.find? (fun e' => e'.2 = e.2) with
    | none => exact absurd (decide_eq_true rfl) (List.find?_eq_none.mp hf e hmem)
    | some e' =>
      have heq : e'.2 = e.2 := by simpa using List.find?_some hf
      rw [List.inj_on_of_nodup_map h (List.mem_of_find?_eq_some hf) hmem heq]
  show (table.find? _).map _ = _
  rw [hwire]
  rfl

/-- The name `example.org.`. -/
def exampleOrg : Bytes := [101, 120, 97, 109, 112, 108, 101, 46, 111, 114, 103, 46]

/-- The wire form of `exampleOrg`. -/
def exampleOrgWire : Bytes := [7, 101, 120, 97, 109, 112, 108, 101, 3, 111, 114, 103, 0]

def exampleQuery : Msg :=
  { id := 1, recursionDesired := true, question := [⟨exampleOrg, typeA, classINET⟩] }

def exampleQueryWire : Bytes :=
  [0, 1, 1, 0, 0, 1, 0, 0, 0, 0, 0, 0] ++ exampleOrgWire ++ [0, 1, 0, 1]

/-- An answer with one address, valid for a minute. -/
def exampleAnswer : Msg :=
  { id := 1, response := true, recursionDesired := true, recursionAvailable := true
    question := [⟨exampleOrg, typeA, classINET⟩]
    answer := [⟨exampleOrg, classINET, 60, .a [192, 0, 2, 1]⟩] }

def exampleAnswerWire : Bytes :=
  [0, 1, 0x81, 0x80, 0, 1, 0, 1, 0, 0, 0, 0] ++
  exampleOrgWire ++ [0, 1, 0, 1] ++
  exampleOrgWire ++ [0, 1, 0, 1, 0, 0, 0, 60, 0, 4, 192, 0, 2, 1]

/-- The platform that knows `exampleAnswer`. -/
def examplePlatform : Platform := .ofTable [(exampleAnswer, exampleAnswerWire)]

theorem examplePlatform_roundTrips (m : Msg) : examplePlatform.RoundTrips m :=
  Platform.ofTable_roundTrips (by simp) m

end DnsProxy
