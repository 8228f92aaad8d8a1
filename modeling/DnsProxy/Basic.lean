import DnsProxy.Lib.BigEndian
import Mathlib.Data.List.Basic

/-!
# DNS messages

The data that every part of the proxy passes around: byte strings, questions,
resource records and messages, with the operations of the message library that
the proxy calls. A Go string is a byte string, so a domain name is a list of
bytes in presentation form.

A resource record carries its type in its data (`RData.rrtype`), so a record
whose header type disagrees with the Go type of its body cannot be built. This
is what the type assertions of the source (`rr.(*dns.A)`, `IsEdns0`) rely on.
-/

namespace DnsProxy

/-- A byte slice or a Go string. -/
abbrev Bytes := List UInt8

/-- The bytes of an ASCII string. -/
def ascii (s : String) : Bytes := s.toList.map fun c => c.toNat.toUInt8

/-- The hexadecimal digit of a number below 16. -/
def hexDigit (n : UInt8) : UInt8 := if n < 10 then 48 + n else 87 + n

/-- `proxyutil.LengthPrefix`. -/
def lengthPrefix (size : Nat) : Option Bytes :=
  if 65535 < size then none else some (BigEndian.encode 2 size)

theorem forall_byte {p : UInt8 → Prop} (h : ∀ n < 256, p (UInt8.ofNat n)) (b : UInt8) : p b := by
  have hb := h b.toNat b.toNat_lt
  rwa [UInt8.ofNat_toNat] at hb

/-! ## Record types, response codes and opcodes -/

def typeNone : UInt16 := 0
def typeA : UInt16 := 1
def typeNS : UInt16 := 2
def typeSOA : UInt16 := 6
def typePTR : UInt16 := 12
def typeTXT : UInt16 := 16
def typeSIG : UInt16 := 24
def typeAAAA : UInt16 := 28
def typeOPT : UInt16 := 41
def typeDS : UInt16 := 43
def typeRRSIG : UInt16 := 46
def typeNSEC : UInt16 := 47
def typeDNSKEY : UInt16 := 48
def typeNSEC3 : UInt16 := 50
def typeANY : UInt16 := 255

def classINET : UInt16 := 1

def rcodeSuccess : Nat := 0
def rcodeFormatError : Nat := 1
def rcodeServerFailure : Nat := 2
def rcodeNameError : Nat := 3
def rcodeNotImplemented : Nat := 4

def opcodeQuery : Nat := 0

/-- The DO bit of an OPT record, kept in its TTL field. -/
def doMask : UInt32 := 0x8000

/-! ## Messages -/

/-- An EDNS0 option. Only the client subnet option has a structure the proxy
reads. -/
inductive EDNS0
  | subnet (family : UInt16) (sourceNetmask sourceScope : UInt8) (address : Option Bytes)
  | other (code : UInt16) (data : Bytes)
deriving DecidableEq, Repr

/-- Record data. `other` covers every type whose body the proxy does not look
into, with the body in wire form. -/
inductive RData
  | a (ip : Bytes)
  | aaaa (ip : Bytes)
  | opt (options : List EDNS0)
  | other (rrtype : { t : UInt16 // t ≠ typeA ∧ t ≠ typeAAAA ∧ t ≠ typeOPT }) (data : Bytes)
deriving DecidableEq, Repr

/-- The type of TXT records, whose strings the proxy does not look into. -/
def txtType : { t : UInt16 // t ≠ typeA ∧ t ≠ typeAAAA ∧ t ≠ typeOPT } := ⟨typeTXT, by decide⟩

/-- The type in the header of a record with this data. -/
def RData.rrtype : RData → UInt16
  | .a _ => typeA
  | .aaaa _ => typeAAAA
  | .opt _ => typeOPT
  | .other t _ => t.1

structure RR where
  name : Bytes
  rclass : UInt16
  ttl : UInt32
  rdata : RData
deriving DecidableEq, Repr

namespace RR

def rrtype (r : RR) : UInt16 := r.rdata.rrtype

/-- The options of an OPT record. -/
def options (r : RR) : List EDNS0 :=
  match r.rdata with
  | .opt os => os
  | _ => []

/-- `OPT.Do`. -/
def hasDo (r : RR) : Bool := r.ttl &&& doMask == doMask

/-- `OPT.SetDo`. -/
def setDo (r : RR) : RR := { r with ttl := r.ttl ||| doMask }

/-- `OPT.UDPSize`. -/
def udpSize (r : RR) : UInt16 := r.rclass

/-- Everything of a record but its TTL. -/
def content (r : RR) : Bytes × UInt16 × RData := (r.name, r.rclass, r.rdata)

end RR

structure Question where
  name : Bytes
  qtype : UInt16
  qclass : UInt16
deriving DecidableEq, Repr

structure Msg where
  id : UInt16 := 0
  response : Bool := false
  opcode : Nat := opcodeQuery
  authoritative : Bool := false
  truncated : Bool := false
  recursionDesired : Bool := false
  recursionAvailable : Bool := false
  zero : Bool := false
  authenticatedData : Bool := false
  checkingDisabled : Bool := false
  rcode : Nat := rcodeSuccess
  compress : Bool := false
  question : List Question := []
  answer : List RR := []
  ns : List RR := []
  extra : List RR := []
deriving DecidableEq, Repr

namespace Msg

/-- The records of the three sections, in order. -/
def records (m : Msg) : List RR := m.answer ++ m.ns ++ m.extra

/-- `Question[0]`. Every caller has a message with a question. -/
def firstQuestion (m : Msg) : Question := m.question.headD ⟨[], 0, 0⟩

theorem firstQuestion_congr {m m' : Msg} (h : m'.question = m.question) :
    m'.firstQuestion = m.firstQuestion := by
  unfold firstQuestion
  rw [h]

/-- `Msg.IsEdns0`: the last OPT record of the additional section. -/
def isEdns0 (m : Msg) : Option RR :=
  m.extra.reverse.find? fun r => r.rrtype == typeOPT

/-- The DO bit of a message: set on its OPT record, if there is one. -/
def doBit (m : Msg) : Bool := m.isEdns0.any RR.hasDo

/-- The OPT record that `Msg.SetEdns0` appends. -/
def newOPT (udpSize : UInt16) (dob : Bool) : RR :=
  ⟨[46], udpSize, if dob then doMask else 0, .opt []⟩

/-- `Msg.SetEdns0`. -/
def setEdns0 (m : Msg) (udpSize : UInt16) (dob : Bool) : Msg :=
  { m with extra := m.extra ++ [newOPT udpSize dob] }

/-- `Msg.SetReply`: turns `m` into a reply to `request`. -/
def setReply (m request : Msg) : Msg :=
  { m with
    id := request.id
    response := true
    opcode := request.opcode
    recursionDesired :=
      if request.opcode = opcodeQuery then request.recursionDesired else m.recursionDesired
    checkingDisabled :=
      if request.opcode = opcodeQuery then request.checkingDisabled else m.checkingDisabled
    rcode := rcodeSuccess
    question :=
      match request.question with
      | [] => m.question
      | q :: _ => [q] }

/-- `Msg.SetRcode`. -/
def setRcode (m request : Msg) (rcode : Nat) : Msg :=
  { m.setReply request with rcode := rcode }

end Msg

/-! ## Letter case -/

/-- ASCII lower-casing of one byte. -/
def lowerByte (b : UInt8) : UInt8 := if 65 ≤ b ∧ b ≤ 90 then b + 32 else b

/-- `strings.ToLower` on an ASCII string, byte by byte. The names that the message library
unpacks are printable ASCII. A string from the configuration need not be: `strings.ToLower`
also lowers the letters outside ASCII, which stay as they are here. -/
def toLower (s : Bytes) : Bytes := s.map lowerByte

/-- A printable ASCII byte. -/
def Printable (b : UInt8) : Prop := 32 ≤ b ∧ b ≤ 126

instance (b : UInt8) : Decidable (Printable b) := inferInstanceAs (Decidable (_ ∧ _))

/-- The byte strings that the message library produces for a name: every byte is
printable, since the others are written as escapes. -/
def PrintableName (s : Bytes) : Prop := ∀ b ∈ s, Printable b

instance (s : Bytes) : Decidable (PrintableName s) := List.decidableBAll Printable s

end DnsProxy
