import DnsProxy.DnsCrypt.Dial

/-!
# Generated certificates

The certificate that a server makes from its configuration. The keys are hexadecimal strings
of any length: the key pair for the queries is used if both keys have 32 bytes and replaced by
a random one otherwise, and the private key is handed to `ed25519.Sign`, which panics on a key
of another length than 64 bytes.

* `newCert_eq_ok`, `newCert_eq_panic`: when a certificate is made, and when `newCert` panics.
* `newCert_usable_iff`: when a client can use the certificate.
* `keyLengths_iff`: when keys of any length are handled by errors, on both sides.
-/

namespace DnsProxy.DnsCrypt

open Checked

/-! ## Keys as strings -/

def fromHexChar (b : UInt8) : Option UInt8 :=
  if 0x30 ≤ b ∧ b ≤ 0x39 then some (b - 0x30)
  else if 0x61 ≤ b ∧ b ≤ 0x66 then some (b - 0x61 + 10)
  else if 0x41 ≤ b ∧ b ≤ 0x46 then some (b - 0x41 + 10)
  else none

/-- `hex.InvalidByteError`, without the byte in its text. -/
def invalidByteError : Err := .library "encoding/hex: invalid byte"

/-- `hex.DecodeString`. -/
def hexDecode : Bytes → Result Err Bytes
  | [] => .ok []
  | [p] =>
    if fromHexChar p = none then .error invalidByteError
    else .error (.library "encoding/hex: odd length hex string")
  | p :: q :: rest =>
    match fromHexChar p, fromHexChar q with
    | some a, some b => do return (a <<< 4 ||| b) :: (← hexDecode rest)
    | _, _ => .error invalidByteError

/-- `HexDecodeKey`: the colons are taken out first. -/
def hexDecodeKey (str : Bytes) : Result Err Bytes := hexDecode (str.filter (· ≠ 0x3a))

theorem hexDecode_safe (str : Bytes) : (hexDecode str).Safe := by
  induction str using hexDecode.induct with
  | case1 => exact Result.safe_ok _
  | case2 p h => simp [hexDecode, h]
  | case3 p h => simp [hexDecode, h]
  | case4 p q rest a b ha hb ih =>
    rw [hexDecode, ha, hb]
    exact ih.bind fun _ => Result.safe_ok _
  | case5 p q rest h =>
    rw [hexDecode]
    split
    · next a b ha hb => exact absurd hb (h a b ha)
    · exact Result.safe_error _

/-! ## Configurations -/

structure ResolverConfig where
  providerName : Bytes
  publicKey : Bytes
  privateKey : Bytes
  resolverSk : Bytes
  resolverPk : Bytes
  esVersion : CryptoConstruction
  /-- In nanoseconds. -/
  certificateTTL : Int

/-- The seconds of a time in nanoseconds, both since the epoch. -/
def unix (t : Int) : Int := t / 1000000000

/-- 365 days. -/
def defaultCertValidity : Int := 365 * 24 * 3600 * 1000000000

def maxUint32 : Int := 4294967295

namespace Certificate

theorem verifyDate_eq_true {c : Certificate} {now : Int} :
    c.verifyDate now = true ↔
      c.notBefore.toNat < c.notAfter.toNat ∧ c.notBefore.toNat ≤ now ∧ now ≤ c.notAfter.toNat := by
  simp only [verifyDate, ge_iff_le, UInt32.le_iff_toNat_le]
  split
  · next hwindow => exact ⟨nofun, fun h => absurd h.1 (Nat.not_lt.mpr hwindow)⟩
  · next hwindow =>
    split
    · next hout => exact ⟨nofun, by omega⟩
    · next hin => exact ⟨fun _ => by omega, fun _ => rfl⟩

def sign (k : Keys) (c : Certificate) (privateKey : Bytes) : Result Err Certificate := do
  return { c with signature := ← k.signWith privateKey c.writeSigned }

end Certificate

namespace ResolverConfig

variable (rc : ResolverConfig)

/-- `Validate`. -/
def validate : List Err :=
  (if rc.publicKey = [] then [.annotated "public_key" (.library "empty value")] else []) ++
  (if rc.privateKey = [] then [.annotated "private_key" (.library "empty value")] else []) ++
  (if rc.resolverSk = [] then [.annotated "resolver_secret" (.library "empty value")] else [])

/-- `CreateStamp`. -/
def createStamp : Result Err ServerStamp := do
  let serverPk ← (hexDecodeKey rc.publicKey).mapError (.annotated "decoding key")
  return { providerName := rc.providerName, serverPk }

/-- The times between which the certificate is valid, in seconds. -/
def validity (now : Int) : Int × Int :=
  let notAfter := now + if rc.certificateTTL > 0 then rc.certificateTTL else defaultCertValidity
  (unix now, unix notAfter)

/-- The secret and the public key for the queries. -/
def resolverKeys (k : Keys) (random : Key) (resolverPk resolverSk : Bytes) : Key × Key :=
  if h : resolverPk.length = keySize ∧ resolverSk.length = keySize then
    (⟨resolverSk, h.2⟩, ⟨resolverPk, h.1⟩)
  else k.generateRandomKeyPair random

/-- The certificate before it is signed. -/
def unsigned (window : Int × Int) (keys : Key × Key) : Certificate where
  serial := UInt32.ofNat window.1.toNat
  esVersion := rc.esVersion
  signature := Octets.zero _
  resolverPk := keys.2
  resolverSk := keys.1
  clientMagic := Octets.zero _
  notBefore := UInt32.ofNat window.1.toNat
  notAfter := UInt32.ofNat window.2.toNat

/-- `newCert`; `now` is in nanoseconds, and `random` are the bytes of a random secret key. -/
def newCert (k : Keys) (now : Int) (random : Key) : Result Err Certificate :=
  let (start, stop) := rc.validity now
  if start < 0 ∨ start > maxUint32 ∨ stop < 0 ∨ stop > maxUint32 ∨ stop ≤ start then
    .error (.library ("certificate validity [" ++ toString start ++ ", " ++ toString stop ++
      "] cannot be represented by DNSCrypt"))
  else do
    let resolverPk ← (hexDecodeKey rc.resolverPk).mapError (.annotated "decoding public key")
    let resolverSk ← (hexDecodeKey rc.resolverSk).mapError (.annotated "decoding secret key")
    let cert := rc.unsigned (start, stop) (resolverKeys k random resolverPk resolverSk)
    let privateKey ← (hexDecodeKey rc.privateKey).mapError (.annotated "decoding private key")
    cert.sign k privateKey

/-- The times fit into the certificate. -/
def Representable (now : Int) : Prop :=
  0 ≤ (rc.validity now).1 ∧ (rc.validity now).1 < (rc.validity now).2 ∧
    (rc.validity now).2 ≤ maxUint32

variable {rc} {k : Keys} {now : Int} {random : Key}

theorem not_representable_iff :
    ((rc.validity now).1 < 0 ∨ (rc.validity now).1 > maxUint32 ∨ (rc.validity now).2 < 0 ∨
      (rc.validity now).2 > maxUint32 ∨ (rc.validity now).2 ≤ (rc.validity now).1) ↔
      ¬ rc.Representable now := by
  unfold Representable
  omega

theorem newCert_of_not_representable (h : ¬ rc.Representable now) :
    ∃ e, rc.newCert k now random = .error e :=
  ⟨_, if_pos (not_representable_iff.mpr h)⟩

theorem newCert_of_representable (h : rc.Representable now) :
    rc.newCert k now random = (do
      let resolverPk ← (hexDecodeKey rc.resolverPk).mapError (.annotated "decoding public key")
      let resolverSk ← (hexDecodeKey rc.resolverSk).mapError (.annotated "decoding secret key")
      let privateKey ← (hexDecodeKey rc.privateKey).mapError (.annotated "decoding private key")
      (rc.unsigned (rc.validity now) (resolverKeys k random resolverPk resolverSk)).sign k
        privateKey) :=
  if_neg (mt not_representable_iff.mp (not_not.mpr h))

/-- The certificate with the signature of a private key of the right length. -/
def signed (k : Keys) (cert : Certificate) (privateKey : Octets privateKeySize) : Certificate :=
  { cert with signature := k.sign privateKey cert.writeSigned }

theorem sign_val (cert : Certificate) (privateKey : Octets privateKeySize) :
    cert.sign k privateKey.1 = .ok (signed k cert privateKey) := by
  rw [Certificate.sign, Keys.signWith, dif_pos privateKey.length_eq]
  rfl

theorem sign_eq_panic {cert : Certificate} {privateKey : Bytes} :
    cert.sign k privateKey = .panic ↔ privateKey.length ≠ privateKeySize := by
  rw [Certificate.sign, Result.bind_eq_panic, Keys.signWith_eq_panic]
  constructor
  · rintro (hlen | ⟨_, -, hreturn⟩)
    · exact hlen
    · cases hreturn
  · exact .inl

/-- The keys of a configuration that decode to bytes. -/
structure Decoded (rc : ResolverConfig) (resolverPk resolverSk privateKey : Bytes) : Prop where
  resolverPk : hexDecodeKey rc.resolverPk = .ok resolverPk
  resolverSk : hexDecodeKey rc.resolverSk = .ok resolverSk
  privateKey : hexDecodeKey rc.privateKey = .ok privateKey

theorem newCert_of_decoded (h : rc.Representable now) {resolverPk resolverSk privateKey : Bytes}
    (hkeys : rc.Decoded resolverPk resolverSk privateKey) :
    rc.newCert k now random =
      (rc.unsigned (rc.validity now) (resolverKeys k random resolverPk resolverSk)).sign k
        privateKey := by
  rw [newCert_of_representable h, hkeys.resolverPk, hkeys.resolverSk, hkeys.privateKey]
  rfl

theorem decoded_of_newCert (h : ∀ e, rc.newCert k now random ≠ .error e) :
    rc.Representable now ∧ ∃ resolverPk resolverSk privateKey,
      rc.Decoded resolverPk resolverSk privateKey := by
  have hrep : rc.Representable now := by
    by_contra hnot
    obtain ⟨e, he⟩ := @newCert_of_not_representable rc k now random hnot
    exact h e he
  refine ⟨hrep, ?_⟩
  rw [newCert_of_representable hrep] at h
  cases hpk : hexDecodeKey rc.resolverPk with
  | panic => exact absurd hpk (hexDecode_safe _)
  | error e => exact absurd (by rw [hpk]; rfl) (h _)
  | ok resolverPk =>
    cases hsk : hexDecodeKey rc.resolverSk with
    | panic => exact absurd hsk (hexDecode_safe _)
    | error e => exact absurd (by rw [hpk, hsk]; rfl) (h _)
    | ok resolverSk =>
      cases hprivate : hexDecodeKey rc.privateKey with
      | panic => exact absurd hprivate (hexDecode_safe _)
      | error e => exact absurd (by rw [hpk, hsk, hprivate]; rfl) (h _)
      | ok privateKey => exact ⟨resolverPk, resolverSk, privateKey, hpk, hsk, hprivate⟩

theorem newCert_eq_panic :
    rc.newCert k now random = .panic ↔ rc.Representable now ∧
      ∃ resolverPk resolverSk privateKey, rc.Decoded resolverPk resolverSk privateKey ∧
        privateKey.length ≠ privateKeySize := by
  constructor
  · intro h
    obtain ⟨hrep, resolverPk, resolverSk, privateKey, hkeys⟩ :=
      decoded_of_newCert (k := k) (by rw [h]; exact nofun)
    rw [newCert_of_decoded hrep hkeys] at h
    exact ⟨hrep, _, _, _, hkeys, sign_eq_panic.mp h⟩
  · rintro ⟨hrep, resolverPk, resolverSk, privateKey, hkeys, hlen⟩
    rw [newCert_of_decoded hrep hkeys]
    exact sign_eq_panic.mpr hlen

theorem newCert_eq_ok {cert : Certificate} (h : rc.newCert k now random = .ok cert) :
    rc.Representable now ∧ ∃ resolverPk resolverSk, ∃ privateKey : Octets privateKeySize,
      rc.Decoded resolverPk resolverSk privateKey.1 ∧
      cert = signed k
        (rc.unsigned (rc.validity now) (resolverKeys k random resolverPk resolverSk))
        privateKey := by
  obtain ⟨hrep, resolverPk, resolverSk, privateKey, hkeys⟩ :=
    decoded_of_newCert (k := k) (by rw [h]; exact nofun)
  have hlen : privateKey.length = privateKeySize := by
    by_contra hne
    rw [newCert_eq_panic.mpr ⟨hrep, _, _, _, hkeys, hne⟩] at h
    cases h
  rw [newCert_of_decoded hrep hkeys] at h
  exact ⟨hrep, resolverPk, resolverSk, ⟨privateKey, hlen⟩, hkeys,
    Result.ok.inj (h.symm.trans (sign_val _ ⟨privateKey, hlen⟩))⟩

theorem verifyDate_unsigned (h : rc.Representable now) (keys : Key × Key) :
    (rc.unsigned (rc.validity now) keys).verifyDate (unix now) = true := by
  obtain ⟨hstart, hlt, hstop⟩ := h
  have htoNat : ∀ t : Int, 0 ≤ t → t ≤ maxUint32 → ((UInt32.ofNat t.toNat).toNat : Int) = t := by
    intro t h₀ h₁
    rw [UInt32.toNat_ofNat', Nat.mod_eq_of_lt, Int.toNat_of_nonneg h₀]
    unfold maxUint32 at h₁
    omega
  have hbefore : ((rc.unsigned (rc.validity now) keys).notBefore.toNat : Int) = unix now :=
    htoNat _ hstart (by omega)
  have hafter : ((rc.unsigned (rc.validity now) keys).notAfter.toNat : Int) =
      (rc.validity now).2 := htoNat _ (by omega) hstop
  have hnow : unix now < (rc.validity now).2 := hlt
  rw [Certificate.verifyDate_eq_true]
  omega

end ResolverConfig

/-! ## What is assumed of the keys -/

namespace Keys

/-- The two halves of an ed25519 private key. -/
def seed (privateKey : Octets privateKeySize) : Octets 32 :=
  ⟨privateKey.1.take 32, by simp [privateKeySize]⟩

def publicHalf (privateKey : Octets privateKeySize) : Octets publicKeySize :=
  ⟨privateKey.1.drop 32, by simp [privateKeySize]⟩

/-- The second half of the private key is the public key of the first. -/
def WellFormed (k : Keys) (privateKey : Octets privateKeySize) : Prop :=
  publicHalf privateKey = k.publicOf (seed privateKey)

/-- A signature is accepted under the key it was made with, and two key pairs agree on a
shared key, which does not fail for public keys that were computed. -/
structure Lawful (k : Keys) (c : Crypto) : Prop where
  verify_sign : ∀ privateKey, k.WellFormed privateKey → ∀ message,
    k.verify (publicHalf privateKey) message (k.sign privateKey message) = true
  agree : ∀ es, Supported es → ∀ a b, ∃ key,
    computeSharedKey c es a (k.scalarBaseMult b) = .ok key ∧
    computeSharedKey c es b (k.scalarBaseMult a) = .ok key

end Keys

/-! ## Certificates that can be used -/

/-- A client with any secret key computes a shared key from the certificate with which its
query is read by the server, and the response by the client. -/
def Exchanges (k : Keys) (c : Crypto) (cert : Certificate) : Prop :=
  ∀ clientSk : Key, ∃ sharedKey,
    computeSharedKey c cert.esVersion clientSk cert.resolverPk = .ok sharedKey ∧
    ∀ unixNano random packet, minDNSPacketSize ≤ packet.length →
      ∃ query nonce,
        EncryptedQuery.encrypt c { esVersion := cert.esVersion, clientMagic := cert.clientMagic
                                   clientPk := k.scalarBaseMult clientSk }
          unixNano random packet sharedKey = .ok (query, nonce) ∧
        EncryptedQuery.decrypt c { esVersion := cert.esVersion, clientMagic := cert.clientMagic }
          query cert.resolverSk = .ok (packet,
            { esVersion := cert.esVersion, clientMagic := cert.clientMagic
              clientPk := k.scalarBaseMult clientSk, nonce }) ∧
        ∀ random' unixNano' reply, minDNSPacketSize ≤ reply.length →
          ∃ serverKey response,
            computeSharedKey c cert.esVersion cert.resolverSk (k.scalarBaseMult clientSk) =
              .ok serverKey ∧
            EncryptedResponse.encrypt c ⟨cert.esVersion, nonce⟩ random' unixNano' reply serverKey =
              .ok response ∧
            EncryptedResponse.decrypt c { esVersion := cert.esVersion } response sharedKey nonce =
              .ok reply

/-- The answer with the certificate in a TXT record. -/
def certAnswer (txt : TxtCodec) (name : Bytes) (cert : Certificate) : List RR :=
  [⟨name, classINET, 60, .other txtType (txt.encode [packTxtString cert.marshalBinary])⟩]

/-- The certificate of a configuration can be used at the time it was made. -/
structure Usable (k : Keys) (c : Crypto) (rc : ResolverConfig) (now : Int)
    (privateKey : Octets privateKeySize) (cert : Certificate) : Prop where
  date : cert.verifyDate (unix now) = true
  unmarshals : Certificate.unmarshalBinary cert.marshalBinary = .ok cert.withoutSk
  version : ∀ secretKey publicKey,
    computeSharedKey c cert.esVersion secretKey publicKey ≠ .error .esVersion
  signature : k.verify (Keys.publicHalf privateKey) cert.writeSigned cert.signature = true
  keyPair : cert.resolverPk = k.scalarBaseMult cert.resolverSk
  accepted : ∀ txt : TxtCodec, txt.RoundTrip → ∀ name,
    parseAnswer txt k.verifyWith (unix now) (certAnswer txt name cert)
        (Keys.publicHalf privateKey).1 =
      .ok (some cert.withoutSk)
  exchanges : Exchanges k c cert
  secret : ∀ sk : Key, hexDecodeKey rc.resolverSk = .ok sk.1 → cert.resolverSk = sk

/-- What nothing checks: the version is known, and a secret key comes with its public key, or
is by chance the random one. -/
structure Consistent (k : Keys) (rc : ResolverConfig) (random : Key) : Prop where
  version : Supported rc.esVersion
  keyPair : ∀ pk sk : Key, hexDecodeKey rc.resolverPk = .ok pk.1 →
    hexDecodeKey rc.resolverSk = .ok sk.1 → pk = k.scalarBaseMult sk
  secret : ∀ sk : Key, hexDecodeKey rc.resolverSk = .ok sk.1 →
    (∃ pk : Key, hexDecodeKey rc.resolverPk = .ok pk.1) ∨ random = sk

section Usable

variable {k : Keys} {c : Crypto} {rc : ResolverConfig} {now : Int} {random : Key}
  {cert : Certificate} {privateKey : Octets privateKeySize}

theorem computeSharedKey_ne_esVersion (h : Supported cert.esVersion) (secretKey publicKey : Key) :
    computeSharedKey c cert.esVersion secretKey publicKey ≠ .error .esVersion := by
  rw [computeSharedKey]
  rcases h with h | h
  · rw [h, if_neg (by decide), if_pos rfl]
    exact nofun
  · rw [if_pos h]
    cases c.xSharedKey secretKey publicKey <;> exact nofun

theorem exchanges_of_keyPair (hc : c.Lawful) (hk : k.Lawful c) (hes : Supported cert.esVersion)
    (hpair : cert.resolverPk = k.scalarBaseMult cert.resolverSk) : Exchanges k c cert := by
  intro clientSk
  obtain ⟨key, hclient, hserver⟩ := hk.agree cert.esVersion hes clientSk cert.resolverSk
  refine ⟨key, by rw [hpair, hclient], fun unixNano random packet hlen => ?_⟩
  obtain ⟨query, nonce, henc, hdec⟩ := EncryptedQuery.decrypt_encrypt hc
    { esVersion := cert.esVersion, clientMagic := cert.clientMagic
      clientPk := k.scalarBaseMult clientSk }
    { esVersion := cert.esVersion, clientMagic := cert.clientMagic } rfl rfl rfl hserver unixNano
    random packet hlen
  refine ⟨query, nonce, henc, hdec, fun random' unixNano' reply hreply => ?_⟩
  obtain ⟨response, hresponse, hopened⟩ := EncryptedResponse.decrypt_encrypt hc
    ⟨cert.esVersion, nonce⟩ hes nonce rfl random' unixNano' reply hreply key
  exact ⟨key, response, hserver, hresponse, hopened _ rfl⟩

theorem parseAnswer_certAnswer (hes : Supported cert.esVersion)
    (hdate : cert.verifyDate (unix now) = true)
    (hsignature : k.verify (Keys.publicHalf privateKey) cert.writeSigned cert.signature = true)
    {txt : TxtCodec} (htxt : txt.RoundTrip) (name : Bytes) :
    parseAnswer txt k.verifyWith (unix now) (certAnswer txt name cert)
        (Keys.publicHalf privateKey).1 =
      .ok (some cert.withoutSk) := by
  have hverify : cert.verifySignature k.verifyWith (Keys.publicHalf privateKey).1 = .ok true := by
    rw [Certificate.verifySignature, Keys.verifyWith_val, hsignature]
  have hrecord := @parseAnswer_record txt k.verifyWith (unix now) ⟨name, cert⟩
    ⟨name, (Keys.publicHalf privateKey).1⟩ htxt hdate hverify name
  rw [if_pos hes] at hrecord
  exact hrecord

theorem keyPair_iff {resolverPk resolverSk : Bytes}
    (hpk : hexDecodeKey rc.resolverPk = .ok resolverPk)
    (hsk : hexDecodeKey rc.resolverSk = .ok resolverSk) :
    let keys := ResolverConfig.resolverKeys k random resolverPk resolverSk
    (keys.2 = k.scalarBaseMult keys.1 ∧
      ∀ sk : Key, hexDecodeKey rc.resolverSk = .ok sk.1 → keys.1 = sk) ↔
    (∀ pk sk : Key, hexDecodeKey rc.resolverPk = .ok pk.1 →
      hexDecodeKey rc.resolverSk = .ok sk.1 → pk = k.scalarBaseMult sk) ∧
    ∀ sk : Key, hexDecodeKey rc.resolverSk = .ok sk.1 →
      (∃ pk : Key, hexDecodeKey rc.resolverPk = .ok pk.1) ∨ random = sk := by
  have hpk' : ∀ pk : Key, hexDecodeKey rc.resolverPk = .ok pk.1 ↔ resolverPk = pk.1 := by
    intro pk
    rw [hpk, Result.ok.injEq]
  have hsk' : ∀ sk : Key, hexDecodeKey rc.resolverSk = .ok sk.1 ↔ resolverSk = sk.1 := by
    intro sk
    rw [hsk, Result.ok.injEq]
  simp only [hpk', hsk', ResolverConfig.resolverKeys]
  by_cases h : resolverPk.length = keySize ∧ resolverSk.length = keySize
  · rw [dif_pos h]
    constructor
    · rintro ⟨hpair, -⟩
      refine ⟨?_, fun _ _ => .inl ⟨⟨resolverPk, h.1⟩, rfl⟩⟩
      rintro pk sk rfl rfl
      exact hpair
    · rintro ⟨hpair, -⟩
      refine ⟨hpair _ _ rfl rfl, ?_⟩
      rintro sk rfl
      rfl
  · -- the configured keys are not used
    rw [dif_neg h]
    constructor
    · rintro ⟨-, hsecret⟩
      refine ⟨?_, fun sk hsk => .inr (hsecret sk hsk)⟩
      rintro pk sk rfl rfl
      exact absurd ⟨pk.length_eq, sk.length_eq⟩ h
    · rintro ⟨-, hsecret⟩
      refine ⟨rfl, ?_⟩
      rintro sk rfl
      rcases hsecret sk rfl with ⟨pk, rfl⟩ | hrandom
      · exact absurd ⟨pk.length_eq, sk.length_eq⟩ h
      · exact hrandom

end Usable

/-- The certificate that `newCert` makes with a well-formed private key is usable just if the
configuration is consistent. -/
theorem newCert_usable_iff (k : Keys) (c : Crypto) (hc : c.Lawful) (hk : k.Lawful c)
    (rc : ResolverConfig) (privateKey : Octets privateKeySize)
    (hdecode : hexDecodeKey rc.privateKey = .ok privateKey.1) (hwf : k.WellFormed privateKey)
    (now : Int) (random : Key) (cert : Certificate)
    (hnew : rc.newCert k now random = .ok cert) :
    Usable k c rc now privateKey cert ↔ Consistent k rc random := by
  obtain ⟨hrep, resolverPk, resolverSk, privateKey', hkeys, hcert⟩ :=
    ResolverConfig.newCert_eq_ok hnew
  obtain rfl : privateKey = privateKey' :=
    Octets.ext (Result.ok.inj (hdecode.symm.trans hkeys.privateKey))
  have hes : cert.esVersion = rc.esVersion := by rw [hcert]; rfl
  have hdate : cert.verifyDate (unix now) = true := by
    rw [hcert]
    exact ResolverConfig.verifyDate_unsigned hrep
      (ResolverConfig.resolverKeys k random resolverPk resolverSk)
  have hsignature :
      k.verify (Keys.publicHalf privateKey) cert.writeSigned cert.signature = true := by
    rw [hcert]
    exact hk.verify_sign privateKey hwf _
  have hpair := @keyPair_iff k rc random _ _ hkeys.resolverPk hkeys.resolverSk
  have hpk : cert.resolverPk = (ResolverConfig.resolverKeys k random resolverPk resolverSk).2 := by
    rw [hcert]; rfl
  have hsk : cert.resolverSk = (ResolverConfig.resolverKeys k random resolverPk resolverSk).1 := by
    rw [hcert]; rfl
  dsimp only at hpair
  rw [← hpk, ← hsk] at hpair
  have hread := Certificate.unmarshalBinary_marshalBinary cert
  constructor
  · intro h
    have hversion : Supported rc.esVersion := by
      by_contra hnot
      rw [h.unmarshals, hes, if_neg hnot] at hread
      cases hread
    obtain ⟨hmatch, hsecret⟩ := hpair.mp ⟨h.keyPair, h.secret⟩
    exact ⟨hversion, hmatch, hsecret⟩
  · intro h
    have hversion : Supported cert.esVersion := hes ▸ h.version
    obtain ⟨hmatch, hsecret⟩ := hpair.mpr ⟨h.keyPair, h.secret⟩
    rw [if_pos hversion] at hread
    exact ⟨hdate, hread, computeSharedKey_ne_esVersion hversion, hsignature, hmatch,
      fun txt htxt name => parseAnswer_certAnswer hversion hdate hsignature htxt name,
      exchanges_of_keyPair hc hk hversion hmatch, hsecret⟩

/-! ## Keys and configurations for examples -/

/-- Signatures are zero, and the bytes of a public key are by one greater than those of the
secret key. -/
def exampleKeys : Keys where
  sign _ _ := Octets.zero _
  verify _ _ sig := sig = Octets.zero _
  publicOf seed := seed
  scalarBaseMult sk := ⟨sk.1.map (· + 1), by simp⟩

theorem exampleKeys_lawful : exampleKeys.Lawful tagCrypto := by
  refine ⟨fun _ _ _ => rfl, ?_⟩
  rintro es (rfl | rfl) a b
  · exact ⟨_, rfl, rfl⟩
  · exact ⟨_, rfl, rfl⟩

def examplePrivateKey : Octets privateKeySize := Octets.zero _

/-- The keys but the public key for the queries are zero. -/
def exampleConfig (resolverPk : Bytes) (esVersion : CryptoConstruction) : ResolverConfig where
  providerName := ascii "2.dnscrypt-cert.example.org"
  publicKey := List.replicate 64 0x30
  privateKey := List.replicate 128 0x30
  resolverSk := List.replicate 64 0x30
  resolverPk := resolverPk
  esVersion := esVersion
  certificateTTL := 0

/-- The public key of the zero key, "01" 32 times. -/
def exampleResolverPk : Bytes := (List.replicate 32 [0x30, 0x31]).flatten

/-- In June 2025. -/
def exampleNow : Int := 1750000000 * 1000000000

def exampleRandom : Key := ⟨List.replicate 32 5, rfl⟩

theorem exampleConfig_representable (resolverPk : Bytes) (esVersion : CryptoConstruction) :
    (exampleConfig resolverPk esVersion).Representable exampleNow := by
  have hvalidity : (exampleConfig resolverPk esVersion).validity exampleNow =
      (1750000000, 1781536000) := rfl
  rw [ResolverConfig.Representable, hvalidity]
  decide

theorem exampleConfig_decoded {resolverPk pk : Bytes} (h : hexDecodeKey resolverPk = .ok pk)
    (esVersion : CryptoConstruction) :
    (exampleConfig resolverPk esVersion).Decoded pk (List.replicate 32 0) examplePrivateKey.1 := by
  have hsk : hexDecodeKey (List.replicate 64 0x30) = .ok (List.replicate 32 0) := by
    decide +kernel
  have hprivate : hexDecodeKey (List.replicate 128 0x30) = .ok examplePrivateKey.1 := by
    decide +kernel
  exact ⟨h, hsk, hprivate⟩

/-- The certificate of the configuration. -/
def exampleCert (esVersion : CryptoConstruction) (resolverPk pk : Bytes) : Certificate :=
  ResolverConfig.signed exampleKeys ((exampleConfig resolverPk esVersion).unsigned
    ((exampleConfig resolverPk esVersion).validity exampleNow)
    (ResolverConfig.resolverKeys exampleKeys exampleRandom pk (List.replicate 32 0)))
    examplePrivateKey

theorem newCert_example {resolverPk pk : Bytes} (h : hexDecodeKey resolverPk = .ok pk)
    (esVersion : CryptoConstruction) :
    (exampleConfig resolverPk esVersion).newCert exampleKeys exampleNow exampleRandom =
      .ok (exampleCert esVersion resolverPk pk) := by
  rw [ResolverConfig.newCert_of_decoded (exampleConfig_representable resolverPk esVersion)
    (exampleConfig_decoded h esVersion)]
  exact ResolverConfig.sign_val _ examplePrivateKey

theorem exampleResolverPk_decodes :
    hexDecodeKey exampleResolverPk = .ok (List.replicate 32 1) := by
  decide +kernel

theorem usable_exampleConfig :
    Usable exampleKeys tagCrypto (exampleConfig exampleResolverPk xChacha20Poly1305) exampleNow
      examplePrivateKey
      (exampleCert xChacha20Poly1305 exampleResolverPk (List.replicate 32 1)) := by
  have hkeys := exampleConfig_decoded exampleResolverPk_decodes xChacha20Poly1305
  refine (newCert_usable_iff exampleKeys tagCrypto tagCrypto_lawful exampleKeys_lawful
    (exampleConfig exampleResolverPk xChacha20Poly1305) examplePrivateKey hkeys.privateKey
    rfl exampleNow exampleRandom _
    (newCert_example exampleResolverPk_decodes xChacha20Poly1305)).mpr ⟨.inr rfl, ?_, ?_⟩
  · intro pk sk hpk hsk
    obtain rfl : pk = ⟨List.replicate 32 1, rfl⟩ :=
      Octets.ext (Result.ok.inj (hkeys.resolverPk.symm.trans hpk)).symm
    obtain rfl : sk = ⟨List.replicate 32 0, rfl⟩ :=
      Octets.ext (Result.ok.inj (hkeys.resolverSk.symm.trans hsk)).symm
    rfl
  · exact fun sk _ => .inl ⟨⟨List.replicate 32 1, rfl⟩, hkeys.resolverPk⟩

/-- Three configurations that are valid and give a certificate: with a version that does not
exist, with a public key that does not belong to the secret key, and without a public key, so
that the secret key is replaced. None of the certificates is usable. -/
theorem unusable_certificates :
    (∃ cert, (exampleConfig exampleResolverPk undefinedConstruction).validate = [] ∧
      (exampleConfig exampleResolverPk undefinedConstruction).newCert exampleKeys exampleNow
        exampleRandom = .ok cert ∧
      ¬ Usable exampleKeys tagCrypto (exampleConfig exampleResolverPk undefinedConstruction)
        exampleNow examplePrivateKey cert) ∧
    (∃ cert, (exampleConfig (List.replicate 64 0x30) xChacha20Poly1305).validate = [] ∧
      (exampleConfig (List.replicate 64 0x30) xChacha20Poly1305).newCert exampleKeys exampleNow
        exampleRandom = .ok cert ∧
      ¬ Usable exampleKeys tagCrypto (exampleConfig (List.replicate 64 0x30) xChacha20Poly1305)
        exampleNow examplePrivateKey cert) ∧
    (∃ cert, (exampleConfig [] xChacha20Poly1305).validate = [] ∧
      (exampleConfig [] xChacha20Poly1305).newCert exampleKeys exampleNow exampleRandom =
        .ok cert ∧
      ¬ Usable exampleKeys tagCrypto (exampleConfig [] xChacha20Poly1305) exampleNow
        examplePrivateKey cert) := by
  have hzero : hexDecodeKey (List.replicate 64 0x30) = .ok (List.replicate 32 0) := by
    decide +kernel
  refine ⟨⟨_, by decide +kernel, newCert_example exampleResolverPk_decodes _, ?_⟩,
    ⟨_, by decide +kernel, newCert_example hzero _, ?_⟩,
    ⟨_, by decide +kernel, @newCert_example [] [] rfl _, ?_⟩⟩
  · intro h
    exact h.version (Octets.zero _) (Octets.zero _) rfl
  · intro h
    exact absurd h.keyPair (by decide +kernel)
  · intro h
    have hsecret := h.secret ⟨List.replicate 32 0, rfl⟩ hzero
    exact absurd hsecret (by decide +kernel)

/-! ## Keys of any length -/

/-- Neither `newCert` nor `DialStampContext` panics just if the private key has 64 bytes
whenever it is used, and the key of the stamp 32 bytes whenever a record of the reply decodes
to a certificate that is valid at the time. -/
theorem keyLengths_iff (k : Keys) (rc : ResolverConfig) (now : Int) (random : Key)
    (txt : TxtCodec) (clientNow : Int) (pf : Platform) (c : Crypto) (clientRandom : Key)
    (proto : Proto) (id : UInt16) (stamp : ServerStamp) (replies : Bytes → List Bytes) :
    ((rc.newCert k now random).Safe ∧
      (Dial.dialStampContext k txt clientNow pf c clientRandom proto id stamp replies).Safe) ↔
    (rc.Representable now → ∀ resolverPk resolverSk privateKey,
      rc.Decoded resolverPk resolverSk privateKey → privateKey.length = privateKeySize) ∧
    ∀ r, Dial.Fetched pf proto id stamp replies r → ∀ rr ∈ r.answer, ∀ cert,
      certificateOf txt rr = some cert → cert.verifyDate clientNow = true →
        stamp.serverPk.length = publicKeySize := by
  refine and_congr ?_ ?_
  · rw [Result.Safe, ne_eq, ResolverConfig.newCert_eq_panic]
    constructor
    · intro h hrep resolverPk resolverSk privateKey hkeys
      by_contra hlen
      exact h ⟨hrep, resolverPk, resolverSk, privateKey, hkeys, hlen⟩
    · rintro h ⟨hrep, resolverPk, resolverSk, privateKey, hkeys, hlen⟩
      exact hlen (h hrep resolverPk resolverSk privateKey hkeys)
  · rw [Result.Safe, ne_eq, Dial.dialStampContext_eq_panic]
    constructor
    · intro h r hr rr hrr cert hcert hdate
      by_contra hlen
      exact h ⟨r, hr, rr, hrr, hlen, cert, hcert, hdate⟩
    · rintro h ⟨r, hr, rr, hrr, hlen, cert, hcert, hdate⟩
      exact hlen (h r hr rr hrr cert hcert hdate)

theorem certificateOf_certAnswer {txt : TxtCodec} (htxt : txt.RoundTrip) {cert : Certificate}
    (hes : Supported cert.esVersion) {name : Bytes} {rr : RR}
    (hrr : rr ∈ certAnswer txt name cert) : certificateOf txt rr = some cert.withoutSk := by
  obtain rfl := List.mem_singleton.mp hrr
  have hstrings : txtStrings txt ⟨name, classINET, 60,
      .other txtType (txt.encode [packTxtString cert.marshalBinary])⟩ =
        some [packTxtString cert.marshalBinary] := by
    show some (txt.decode (txt.encode [packTxtString cert.marshalBinary])) = _
    rw [htxt _ (by rw [Certificate.length_marshalBinary]; decide)]
  rw [certificateOf, hstrings]
  dsimp only
  rw [List.flatten_singleton, unpackTxtString_packTxtString,
    Certificate.unmarshalBinary_marshalBinary, if_pos hes]

/-- A valid configuration whose private key has one byte makes `newCert` panic. A stamp without
a public key makes `DialStampContext` panic on the reply of a server. -/
theorem keyLengths_panic :
    (∃ rc : ResolverConfig, rc.validate = [] ∧
      rc.newCert exampleKeys exampleNow exampleRandom = .panic) ∧
    ∃ (pf : Platform) (reply : Bytes),
      Dial.dialStampContext exampleKeys charStrings 1750000000 pf tagCrypto exampleRandom .udp 7
        ⟨ascii "2.example.org", []⟩ (fun _ => [reply]) = .panic := by
  have hrep := exampleConfig_representable exampleResolverPk xChacha20Poly1305
  have hkeys := exampleConfig_decoded exampleResolverPk_decodes xChacha20Poly1305
  obtain ⟨⟨b, hpack, -⟩, reply, -, hparsed⟩ := certPlatform_carries
    (exampleServer (ascii "2.example.org") xChacha20Poly1305) (certName (ascii "2.example.org"))
    ([1, 50] ++ exampleOrgWire)
  refine ⟨⟨{ exampleConfig exampleResolverPk xChacha20Poly1305 with privateKey := ascii "00" },
    by decide +kernel, ?_⟩, certPlatform
      (exampleServer (ascii "2.example.org") xChacha20Poly1305) (certName (ascii "2.example.org"))
      ([1, 50] ++ exampleOrgWire), reply, ?_⟩
  · exact ResolverConfig.newCert_eq_panic.mpr ⟨hrep, _, _, [0],
      ⟨hkeys.resolverPk, hkeys.resolverSk, by decide +kernel⟩, by decide⟩
  · have hcert := @certificateOf_certAnswer charStrings charStrings_roundTrip exampleCertificate
      (.inr rfl) (certName (ascii "2.example.org")) _ (List.mem_singleton_self _)
    exact Dial.dialStampContext_eq_panic.mpr ⟨_, ⟨b, hpack, Dial.readReply_of_id hparsed rfl, rfl⟩,
      _, List.mem_singleton_self _, by decide, exampleCertificate.withoutSk, hcert,
      by decide +kernel⟩

end DnsProxy.DnsCrypt
