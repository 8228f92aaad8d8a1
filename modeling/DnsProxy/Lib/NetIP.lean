import Mathlib.Data.List.Basic

/-!
# The text of IP addresses

Addresses in dotted decimal, in IPv6 form with one `::`, an embedded IPv4 address and a
zone, and addresses with a port, as they are read from text. A text that is none of
them is refused; what is read is an address.
-/

namespace NetIP

def dot : UInt8 := 46
def colon : UInt8 := 58
def percent : UInt8 := 37

/-- The bytes of an IPv4 or an IPv6 address. The zero value has none. -/
structure Addr where
  bytes : List UInt8
  zone : List UInt8
deriving DecidableEq, Repr

namespace Addr

def zero : Addr := ⟨[], []⟩

def isValid (a : Addr) : Bool := a.bytes ≠ []

def is4 (a : Addr) : Bool := a.bytes.length = 4

end Addr

structure AddrPort where
  addr : Addr
  port : Nat
deriving DecidableEq, Repr

namespace AddrPort

def zero : AddrPort := ⟨.zero, 0⟩

def isValid (ap : AddrPort) : Bool := ap.addr.isValid

end AddrPort

/-! ## IPv4 -/

def isDigit (c : UInt8) : Bool := 48 ≤ c && c ≤ 57

/-- Reads the rest of a dotted decimal. `fields` has the octets so far, `val` the value
of the current one and `digLen` the number of its digits. -/
def parseFieldsFrom (fields : List UInt8) (val digLen : Nat) : List UInt8 → Option (List UInt8)
  | [] => if fields.length < 3 then none else some (fields ++ [val.toUInt8])
  | c :: rest =>
    if isDigit c then
      if digLen = 1 ∧ val = 0 then none
      else
        let val := val * 10 + (c.toNat - 48)
        if 255 < val then none else parseFieldsFrom fields val (digLen + 1) rest
    else if c = dot then
      -- An octet without digits, or a dot at the end.
      if digLen = 0 ∨ rest = [] then none
      else if fields.length = 3 then none
      else parseFieldsFrom (fields ++ [val.toUInt8]) 0 0 rest
    else none

def parseIPv4Fields (s : List UInt8) : Option (List UInt8) := parseFieldsFrom [] 0 0 s

def parseIPv4 (s : List UInt8) : Option Addr := (parseIPv4Fields s).map fun fields => ⟨fields, []⟩

/-! ## IPv6 -/

def hexValue (c : UInt8) : Option Nat :=
  if isDigit c then some (c.toNat - 48)
  else if 97 ≤ c ∧ c ≤ 102 then some (c.toNat - 87)
  else if 65 ≤ c ∧ c ≤ 70 then some (c.toNat - 55)
  else none

def isHex (c : UInt8) : Bool := (hexValue c).isSome

/-- Reads at most the given number of groups after the bytes `ip`. Returns all bytes and
the position of the ellipsis. -/
def parseGroups : Nat → List UInt8 → Option Nat → List UInt8 → Option (List UInt8 × Option Nat)
  | 0, ip, ellipsis, s => if s = [] then some (ip, ellipsis) else none
  | n + 1, ip, ellipsis, s =>
    let digits := s.takeWhile isHex
    if digits = [] ∨ 4 < digits.length then none
    else
      let acc := digits.foldl (fun acc c => acc * 16 + (hexValue c).getD 0) 0
      let chunk := ip ++ [(acc / 256).toUInt8, (acc % 256).toUInt8]
      match s.dropWhile isHex with
      | [] => some (chunk, ellipsis)
      | c :: rest =>
        if c = dot then
          -- The last two groups as an IPv4 address.
          if ellipsis = none ∧ ip.length ≠ 12 then none
          else if 16 < ip.length + 4 then none
          else (parseIPv4Fields s).map fun fields => (ip ++ fields, ellipsis)
        else if c ≠ colon then none
        else
          match rest with
          | [] => none
          | c' :: rest' =>
            if c' = colon then
              if ellipsis.isSome then none
              else if rest' = [] then some (chunk, some chunk.length)
              else parseGroups n chunk (some chunk.length) rest'
            else parseGroups n chunk ellipsis rest

/-- The ellipsis stands for at least one group of zeros. -/
def expand (ip : List UInt8) (ellipsis : Option Nat) : Option (List UInt8) :=
  if ip.length < 16 then
    ellipsis.map fun e => ip.take e ++ List.replicate (16 - ip.length) 0 ++ ip.drop e
  else if ellipsis.isSome then none
  else some ip

def parseIPv6Bytes (s : List UInt8) : Option (List UInt8) :=
  match s with
  | 58 :: 58 :: [] => some (List.replicate 16 0)
  | 58 :: 58 :: rest => (parseGroups 8 [] (some 0) rest).bind fun r => expand r.1 r.2
  | s => (parseGroups 8 [] none s).bind fun r => expand r.1 r.2

def parseIPv6 (s : List UInt8) : Option Addr :=
  let ip := s.takeWhile (· ≠ percent)
  match s.dropWhile (· ≠ percent) with
  | [] => (parseIPv6Bytes ip).map fun bytes => ⟨bytes, []⟩
  | [_] => none
  | _ :: zone => (parseIPv6Bytes ip).map fun bytes => ⟨bytes, zone⟩

/-! ## Addresses -/

/-- `netip.ParseAddr`. -/
def parseAddr (s : List UInt8) : Option Addr :=
  match s.find? fun c => c = dot ∨ c = colon ∨ c = percent with
  | some c => if c = dot then parseIPv4 s else if c = colon then parseIPv6 s else none
  | none => none

/-- `strconv.ParseUint` of a port. -/
def parsePort (s : List UInt8) : Option Nat :=
  if s ≠ [] ∧ s.all isDigit then
    let port := s.foldl (fun acc c => acc * 10 + (c.toNat - 48)) 0
    if port ≤ 65535 then some port else none
  else none

/-- The address of an address with a port, and whether it is in brackets. -/
def unbracket (ip : List UInt8) : Option (List UInt8 × Bool) :=
  match ip with
  | [] => none
  | 91 :: rest =>
    if rest.getLast? = some 93 then some (rest.dropLast, true) else none
  | ip => some (ip, false)

/-- `netip.ParseAddrPort`. -/
def parseAddrPort (s : List UInt8) : Option AddrPort :=
  if colon ∉ s then none
  else do
    -- The last colon is before the port.
    let port := (s.reverse.takeWhile (· ≠ colon)).reverse
    let (ip, v6) ← unbracket (s.take (s.length - port.length - 1))
    let port ← parsePort port
    let addr ← parseAddr ip
    if v6 = addr.is4 then none else some ⟨addr, port⟩

/-! ## What is read is an address -/

theorem parseFieldsFrom_ne_nil {s fields ip : List UInt8} {val digLen : Nat}
    (h : parseFieldsFrom fields val digLen s = some ip) : ip ≠ [] := by
  induction s generalizing fields val digLen with
  | nil =>
    simp only [parseFieldsFrom, ite_eq_iff, reduceCtorEq, and_false, false_or,
      Option.some.injEq] at h
    rw [← h.2]
    simp
  | cons c rest ih =>
    simp only [parseFieldsFrom, ite_eq_iff, reduceCtorEq, and_false, false_or, or_false] at h
    rcases h with ⟨-, -, -, h⟩ | ⟨-, -, -, -, h⟩
    · exact ih h
    · exact ih h

theorem expand_ne_nil {ip bytes : List UInt8} {ellipsis : Option Nat}
    (h : expand ip ellipsis = some bytes) : bytes ≠ [] := by
  unfold expand at h
  split at h
  · next hlt =>
    obtain ⟨e, -, rfl⟩ := Option.map_eq_some_iff.mp h
    have hzeros : List.replicate (16 - ip.length) (0 : UInt8) ≠ [] := by
      simp [Nat.sub_eq_zero_iff_le, Nat.not_le.mpr hlt]
    simp only [ne_eq, List.append_eq_nil_iff, hzeros, and_false, false_and, not_false_eq_true]
  · next hge =>
    split at h
    · cases h
    · obtain rfl := Option.some.inj h
      rintro rfl
      simp at hge

theorem parseIPv6Bytes_ne_nil {s bytes : List UInt8} (h : parseIPv6Bytes s = some bytes) :
    bytes ≠ [] := by
  unfold parseIPv6Bytes at h
  split at h
  · rw [← Option.some.inj h]
    simp
  all_goals
    obtain ⟨r, -, hr⟩ := Option.bind_eq_some_iff.mp h
    exact expand_ne_nil hr

theorem parseIPv4_isValid {s : List UInt8} {a : Addr} (h : parseIPv4 s = some a) :
    a.isValid = true := by
  obtain ⟨fields, hf, rfl⟩ := Option.map_eq_some_iff.mp h
  simpa [Addr.isValid] using parseFieldsFrom_ne_nil hf

theorem parseIPv6_isValid {s : List UInt8} {a : Addr} (h : parseIPv6 s = some a) :
    a.isValid = true := by
  unfold parseIPv6 at h
  dsimp only at h
  split at h
  · obtain ⟨bytes, hb, rfl⟩ := Option.map_eq_some_iff.mp h
    simpa [Addr.isValid] using parseIPv6Bytes_ne_nil hb
  · cases h
  · obtain ⟨bytes, hb, rfl⟩ := Option.map_eq_some_iff.mp h
    simpa [Addr.isValid] using parseIPv6Bytes_ne_nil hb

theorem parseAddr_isValid {s : List UInt8} {a : Addr} (h : parseAddr s = some a) :
    a.isValid = true := by
  unfold parseAddr at h
  split at h
  · split at h
    · exact parseIPv4_isValid h
    · split at h
      · exact parseIPv6_isValid h
      · cases h
  · cases h

theorem parseAddrPort_isValid {s : List UInt8} {ap : AddrPort} (h : parseAddrPort s = some ap) :
    ap.isValid = true := by
  unfold parseAddrPort at h
  split at h
  · cases h
  · simp only [Option.bind_eq_bind, Option.bind_eq_some_iff] at h
    obtain ⟨⟨ip, v6⟩, -, port, -, addr, haddr, hif⟩ := h
    split at hif
    · cases hif
    · rw [← Option.some.inj hif]
      exact parseAddr_isValid haddr

end NetIP
