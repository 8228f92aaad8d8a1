import DnsProxy.Basic
import DnsProxy.Lib.Checked

/-!
# DNSCrypt certificates

The constants and errors of the `dnscrypt` package, the certificate of a resolver, and
its serialised form. A Go array is an `Octets` of its size, and a slice expression is
evaluated with its bounds check.

`unmarshalBinary_marshalBinary`: a certificate that was serialised is read back, all of
it but the secret key, as long as its construction is one of the two that are known.
-/

namespace DnsProxy.DnsCrypt

open Checked

/-! ## Constants and errors -/

abbrev minUDPQuestionSize : Nat := 256
abbrev minDNSPacketSize : Nat := 12 + 5
abbrev keySize : Nat := 32
abbrev clientMagicSize : Nat := 8
abbrev nonceSize : Nat := 24
abbrev resolverMagicSize : Nat := 8
abbrev certByteLength : Nat := 124

/-- `ed25519.SignatureSize`. -/
abbrev signatureSize : Nat := 64

def certMagic : Octets 4 := ⟨[0x44, 0x4e, 0x53, 0x43], rfl⟩

def resolverMagic : Octets resolverMagicSize :=
  ⟨[0x72, 0x36, 0x66, 0x6e, 0x76, 0x57, 0x6a, 0x38], rfl⟩

inductive Proto
  | udp
  | tcp
deriving DecidableEq, Repr

/-- The errors of the package, those of the libraries it calls, and an error with the text
put before it. -/
inductive Err
  | queryTooLarge
  | esVersion
  | invalidDate
  | invalidCertSignature
  | invalidQuery
  | invalidClientMagic
  | invalidResolverMagic
  | invalidResponse
  | invalidPadding
  | failedToFetchCert
  | certTooShort
  | certMagic
  | unexpectedNonce
  | library (text : String)
  | annotated (text : String) (err : Err)
deriving DecidableEq, Repr

/-! ## Constructions -/

abbrev CryptoConstruction := UInt16

def undefinedConstruction : CryptoConstruction := 0
def xSalsa20Poly1305 : CryptoConstruction := 1
def xChacha20Poly1305 : CryptoConstruction := 2

/-- `CryptoConstruction.String`. -/
def constructionString (c : CryptoConstruction) : String :=
  if c = xChacha20Poly1305 then "XChacha20Poly1305"
  else if c = xSalsa20Poly1305 then "XSalsa20Poly1305"
  else "Unknown"

/-- The constructions that the package implements. -/
def Supported (c : CryptoConstruction) : Prop := c = xSalsa20Poly1305 ∨ c = xChacha20Poly1305

instance (c : CryptoConstruction) : Decidable (Supported c) := inferInstanceAs (Decidable (_ ∨ _))

/-! ## Certificates -/

structure Certificate where
  serial : UInt32
  esVersion : CryptoConstruction
  signature : Octets signatureSize
  resolverPk : Octets keySize
  resolverSk : Octets keySize
  clientMagic : Octets clientMagicSize
  notBefore : UInt32
  notAfter : UInt32
deriving DecidableEq

namespace Certificate

/-- `writeSigned`: the part that the signature is over. -/
def writeSigned (c : Certificate) : Bytes :=
  c.resolverPk.1 ++ (c.clientMagic.1 ++ ((Octets.ofNat 4 c.serial.toNat).1 ++
    ((Octets.ofNat 4 c.notBefore.toNat).1 ++ (Octets.ofNat 4 c.notAfter.toNat).1)))

def marshalBinary (c : Certificate) : Bytes :=
  certMagic.1 ++ ((Octets.ofNat 2 c.esVersion.toNat).1 ++
    ((Octets.zero 2).1 ++ (c.signature.1 ++ c.writeSigned)))

/-- `binary.BigEndian.Uint16(b[i:i+2])`. -/
def uint16 (b : Bytes) (i : Nat) : Result Err UInt16 := do
  let a ← array b i 2
  return UInt16.ofNat (BigEndian.decode a.1)

/-- `binary.BigEndian.Uint32(b[i:i+4])`. -/
def uint32 (b : Bytes) (i : Nat) : Result Err UInt32 := do
  let a ← array b i 4
  return UInt32.ofNat (BigEndian.decode a.1)

/-- The switch over the version in a serialised certificate. -/
def knownConstruction (esVersion : UInt16) : Result Err CryptoConstruction :=
  if esVersion = xSalsa20Poly1305 then .ok xSalsa20Poly1305
  else if esVersion = xChacha20Poly1305 then .ok xChacha20Poly1305
  else .error .esVersion

/-- `UnmarshalBinary`, into a certificate that was just made. -/
def unmarshalBinary (b : Bytes) : Result Err Certificate :=
  if b.length < certByteLength then .error .certTooShort
  else do
    let magic ← array b 0 4
    if magic ≠ DnsCrypt.certMagic then .error .certMagic
    else do
      let esVersion ← knownConstruction (← uint16 b 4)
      let signature ← array b 8 signatureSize
      let resolverPk ← array b 72 keySize
      let clientMagic ← array b 104 clientMagicSize
      let serial ← uint32 b 112
      let notBefore ← uint32 b 116
      let notAfter ← uint32 b 120
      return { serial, esVersion, signature, resolverPk, resolverSk := Octets.zero keySize,
               clientMagic, notBefore, notAfter }

/-- `verifyDate`; `now` is in seconds since the epoch. -/
def verifyDate (c : Certificate) (now : Int) : Bool :=
  if c.notBefore ≥ c.notAfter then false
  else if now > c.notAfter.toNat ∨ now < c.notBefore.toNat then false
  else true

/-- `VerifySignature`, given `ed25519.Verify`, which may panic. -/
def verifySignature (verify : Bytes → Bytes → Octets signatureSize → Result Err Bool)
    (publicKey : Bytes) (c : Certificate) : Result Err Bool :=
  verify publicKey c.writeSigned c.signature

/-- `Validate`. -/
def validate (c : Certificate) (now : Int) : Option Err :=
  if c.esVersion = undefinedConstruction then some .esVersion
  else if ¬ c.verifyDate now then some .invalidDate
  else none

/-- The certificate without the secret key, which is never serialised. -/
def withoutSk (c : Certificate) : Certificate := { c with resolverSk := Octets.zero keySize }

@[simp] theorem verifyDate_withoutSk (c : Certificate) (now : Int) :
    c.withoutSk.verifyDate now = c.verifyDate now := rfl

@[simp] theorem verifySignature_withoutSk (c : Certificate)
    (verify : Bytes → Bytes → Octets signatureSize → Result Err Bool) (publicKey : Bytes) :
    c.withoutSk.verifySignature verify publicKey = c.verifySignature verify publicKey := rfl

/-! ## Reading a certificate back -/

@[simp] theorem length_writeSigned (c : Certificate) : c.writeSigned.length = 52 := by
  simp [writeSigned, keySize, clientMagicSize]

@[simp] theorem length_marshalBinary (c : Certificate) :
    c.marshalBinary.length = certByteLength := by
  simp [marshalBinary, signatureSize, certByteLength]

theorem decode_uint16 (x : UInt16) :
    UInt16.ofNat (BigEndian.decode (Octets.ofNat 2 x.toNat).1) = x := by
  rw [Octets.ofNat, BigEndian.decode_encode_of_lt x.toNat_lt, UInt16.ofNat_toNat]

theorem decode_uint32 (x : UInt32) :
    UInt32.ofNat (BigEndian.decode (Octets.ofNat 4 x.toNat).1) = x := by
  rw [Octets.ofNat, BigEndian.decode_encode_of_lt x.toNat_lt, UInt32.ofNat_toNat]

theorem knownConstruction_of_supported {es : UInt16} (h : Supported es) :
    knownConstruction es = .ok es := by
  rcases h with rfl | rfl <;> rfl

theorem knownConstruction_of_not_supported {es : UInt16} (h : ¬ Supported es) :
    knownConstruction es = .error .esVersion := by
  rw [Supported, not_or] at h
  rw [knownConstruction, if_neg h.1, if_neg h.2]

theorem fields_marshalBinary (c : Certificate) :
    array c.marshalBinary 0 4 = (.ok DnsCrypt.certMagic : Result Err _) ∧
    uint16 c.marshalBinary 4 = .ok c.esVersion ∧
    array c.marshalBinary 8 signatureSize = (.ok c.signature : Result Err _) ∧
    array c.marshalBinary 72 keySize = (.ok c.resolverPk : Result Err _) ∧
    array c.marshalBinary 104 clientMagicSize = (.ok c.clientMagic : Result Err _) ∧
    uint32 c.marshalBinary 112 = .ok c.serial ∧
    uint32 c.marshalBinary 116 = .ok c.notBefore ∧
    uint32 c.marshalBinary 120 = .ok c.notAfter := by
  refine ⟨?_, ?_, ?_, ?_, ?_, ?_, ?_, ?_⟩
  all_goals
    simp [marshalBinary, writeSigned, uint16, uint32, array_skip, signatureSize, keySize,
      clientMagicSize, decode_uint16, decode_uint32]

theorem unmarshalBinary_marshalBinary (c : Certificate) :
    unmarshalBinary c.marshalBinary =
      if Supported c.esVersion then .ok c.withoutSk else .error .esVersion := by
  obtain ⟨hmagic, hes, hsignature, hpk, hclient, hserial, hbefore, hafter⟩ :=
    fields_marshalBinary c
  have hlen : ¬ c.marshalBinary.length < certByteLength := by simp
  rw [unmarshalBinary, if_neg hlen]
  simp only [hmagic, hes, hsignature, hpk, hclient, hserial, hbefore, hafter, Result.ok_bind,
    ne_eq, not_true_eq_false, if_false]
  split
  · next h => rw [knownConstruction_of_supported h]; rfl
  · next h => rw [knownConstruction_of_not_supported h]; rfl

theorem unmarshalBinary_safe (b : Bytes) : (unmarshalBinary b).Safe := by
  rw [unmarshalBinary]
  split
  · exact Result.safe_error _
  · next hlen =>
    have harray : ∀ i n, i + n ≤ certByteLength → (array b i n : Result Err _).Safe :=
      fun i n h => array_safe (Nat.le_trans h (Nat.le_of_not_lt hlen))
    have hknown : ∀ es, (knownConstruction es).Safe := by
      intro es
      rw [knownConstruction]
      split <;> [skip; split] <;> simp
    have h16 : (uint16 b 4).Safe := (harray 4 2 (by decide)).bind fun _ => Result.safe_ok _
    have h32 : ∀ i, i + 4 ≤ certByteLength → (uint32 b i).Safe :=
      fun i h => (harray i 4 h).bind fun _ => Result.safe_ok _
    refine (harray 0 4 (by decide)).bind fun magic => ?_
    split
    · exact Result.safe_error _
    · refine h16.bind fun v => (hknown v).bind fun _ => ?_
      refine (harray 8 _ (by decide)).bind fun _ => (harray 72 _ (by decide)).bind fun _ => ?_
      refine (harray 104 _ (by decide)).bind fun _ => (h32 112 (by decide)).bind fun _ => ?_
      exact (h32 116 (by decide)).bind fun _ => (h32 120 (by decide)).bind fun _ =>
        Result.safe_ok _

end Certificate

end DnsProxy.DnsCrypt
