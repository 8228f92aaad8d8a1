import DnsProxy.DnsCrypt.Generate
import DnsProxy.DnsCrypt.Session

/-!
# From a generated configuration to a client

`GenerateResolverConfig` makes the configuration of a resolver, with its keys in hexadecimal
digits. The server is made with a certificate from it, and the client dials the stamp of it.

* `hexDecodeKey_hexEncodeKey`: the digits give the key again.
* `provisioned_agrees`: a client that dials the stamp has a shared key with the server.
-/

namespace DnsProxy.DnsCrypt

open Checked

/-! ## Keys as strings -/

/-- `hex.EncodeToString`. -/
def hexEncode (b : Bytes) : Bytes :=
  b.flatMap fun x : UInt8 => [hexDigit (x >>> 4), hexDigit (x &&& 0x0f)]

def upperByte (b : UInt8) : UInt8 := if 0x61 ≤ b ∧ b ≤ 0x7a then b - 32 else b

/-- `HexEncodeKey`. -/
def hexEncodeKey (b : Bytes) : Bytes := (hexEncode b).map upperByte

theorem hexDigits_byte : ∀ x : UInt8,
    fromHexChar (upperByte (hexDigit (x >>> 4))) = some (x >>> 4) ∧
    fromHexChar (upperByte (hexDigit (x &&& 0x0f))) = some (x &&& 0x0f) ∧
    (x >>> 4) <<< 4 ||| (x &&& 0x0f) = x ∧
    upperByte (hexDigit (x >>> 4)) ≠ 0x3a ∧ upperByte (hexDigit (x &&& 0x0f)) ≠ 0x3a :=
  forall_byte (by decide +kernel)

theorem hexEncodeKey_cons (x : UInt8) (b : Bytes) :
    hexEncodeKey (x :: b) =
      upperByte (hexDigit (x >>> 4)) :: upperByte (hexDigit (x &&& 0x0f)) :: hexEncodeKey b := rfl

theorem hexDecodeKey_hexEncodeKey (b : Bytes) : hexDecodeKey (hexEncodeKey b) = .ok b := by
  induction b with
  | nil => rfl
  | cons x b ih =>
    obtain ⟨hhigh, hlow, hbyte, hcolon, hcolon'⟩ := hexDigits_byte x
    rw [hexDecodeKey] at ih ⊢
    rw [hexEncodeKey_cons, List.filter_cons_of_pos (by simpa using hcolon),
      List.filter_cons_of_pos (by simpa using hcolon'), hexDecode, hhigh, hlow]
    simp only [ih, Result.ok_bind, Result.pure_eq, hbyte]

/-! ## Configurations -/

/-- `DNSCryptV2Prefix`. -/
def dnsCryptV2Prefix : Bytes := ascii "2.dnscrypt-cert."

/-- `ed25519.GenerateKey`, which reads the bytes `seed`. -/
def Keys.generateKey (k : Keys) (seed : Octets 32) : Octets privateKeySize :=
  ⟨seed.1 ++ (k.publicOf seed).1, by simp [privateKeySize, publicKeySize]⟩

/-- `GenerateResolverConfig`; `seed` and `random` are the bytes for the keys. -/
def generateResolverConfig (k : Keys) (providerName : Bytes)
    (privateKey : Option (Octets privateKeySize)) (ttl : Int) (seed : Octets 32) (random : Key) :
    ResolverConfig :=
  let providerName :=
    if dnsCryptV2Prefix <+: providerName then providerName else dnsCryptV2Prefix ++ providerName
  let privateKey := privateKey.getD (k.generateKey seed)
  let (resolverSk, resolverPk) := k.generateRandomKeyPair random
  { providerName
    publicKey := hexEncodeKey (Keys.publicHalf privateKey).1
    privateKey := hexEncodeKey privateKey.1
    resolverSk := hexEncodeKey resolverSk.1
    resolverPk := hexEncodeKey resolverPk.1
    esVersion := xSalsa20Poly1305
    certificateTTL := ttl }

theorem Keys.wellFormed_generateKey (k : Keys) (seed : Octets 32) :
    k.WellFormed (k.generateKey seed) := by
  have hseed : Keys.seed (k.generateKey seed) = seed := Octets.ext (List.take_left' (by simp))
  rw [Keys.WellFormed, hseed]
  exact Octets.ext (List.drop_left' (by simp))

/-- The keys of a configuration decode to an ed25519 key pair and to a key pair for queries. -/
structure Provisioned (k : Keys) (rc : ResolverConfig) (privateKey : Octets privateKeySize)
    (random : Key) : Prop where
  decoded : rc.Decoded (k.scalarBaseMult random).1 random.1 privateKey.1
  publicKey : hexDecodeKey rc.publicKey = .ok (Keys.publicHalf privateKey).1
  version : Supported rc.esVersion
  providerName : rc.providerName ≠ []

section Provision

variable {k : Keys} {c : Crypto}

theorem generateResolverConfig_provisioned (k : Keys) (providerName : Bytes)
    (privateKey : Option (Octets privateKeySize)) (ttl : Int) (seed : Octets 32) (random : Key) :
    Provisioned k (generateResolverConfig k providerName privateKey ttl seed random)
      (privateKey.getD (k.generateKey seed)) random := by
  refine ⟨⟨?_, ?_, ?_⟩, ?_, .inl rfl, ?_⟩
  · exact hexDecodeKey_hexEncodeKey _
  · exact hexDecodeKey_hexEncodeKey _
  · exact hexDecodeKey_hexEncodeKey _
  · exact hexDecodeKey_hexEncodeKey _
  · show (if dnsCryptV2Prefix <+: providerName then _ else _) ≠ []
    split
    · next h => exact fun hnil => absurd (hnil ▸ h : dnsCryptV2Prefix <+: []) (by decide)
    · exact List.append_ne_nil_of_left_ne_nil (by decide) _

variable {rc : ResolverConfig} {privateKey : Octets privateKeySize} {random : Key} {now : Int}

theorem Provisioned.newCert (h : Provisioned k rc privateKey random) (hrep : rc.Representable now)
    (random' : Key) :
    rc.newCert k now random' = .ok (ResolverConfig.signed k
      (rc.unsigned (rc.validity now) (k.generateRandomKeyPair random)) privateKey) := by
  rw [ResolverConfig.newCert_of_decoded hrep h.decoded, ResolverConfig.resolverKeys,
    dif_pos ⟨Octets.length_val _, Octets.length_val _⟩]
  exact ResolverConfig.sign_val _ privateKey

theorem Provisioned.createStamp (h : Provisioned k rc privateKey random) :
    rc.createStamp = .ok ⟨rc.providerName, (Keys.publicHalf privateKey).1⟩ := by
  rw [ResolverConfig.createStamp, h.publicKey]
  rfl

theorem newServer_of_valid {cert : Certificate} {name : Bytes} {start : Int} (addr : Addr × UInt16)
    (proto : Proto) (hname : name ≠ []) (hes : Supported cert.esVersion)
    (hdate : cert.verifyDate start = true) :
    newServer ⟨some cert, name, some addr, some proto⟩ start = .ok ⟨name, cert⟩ := by
  have hversion : cert.esVersion ≠ undefinedConstruction := by
    rcases hes with h | h <;> rw [h] <;> decide
  have hvalid : cert.validate start = none := by
    rw [Certificate.validate, if_neg hversion, if_neg (not_not.mpr hdate)]
  simp [newServer, ServerConfig.validate, hname, hvalid]

theorem dial_agrees (hk : k.Lawful c) (hwf : k.WellFormed privateKey) {cert : Certificate}
    (hes : Supported cert.esVersion) (hkeys : cert.resolverPk = k.scalarBaseMult cert.resolverSk)
    (hsigned : cert.signature = k.sign privateKey cert.writeSigned) {name : Bytes}
    (hlower : LowerCase name) (hdot : name.getLast? = some 0x2e → isFqdn name = true)
    {pf : Platform} {txt : TxtCodec} (htxt : txt.RoundTrip) {later : Int}
    (hdate : cert.verifyDate later = true) {id : UInt16} (proto : Proto)
    (hquery : Carries pf (certQuery id (certName name)))
    (hreply : Carries pf (handshakeReply txt (certQuery id (certName name))
      ⟨certName name, typeTXT, classINET⟩ (Server.getCertTXT ⟨name, cert⟩))) (random : Key) :
    ∃ info, Dial.dialStampContext k txt later pf c random proto id
        ⟨name, (Keys.publicHalf privateKey).1⟩ (Server.replies pf txt ⟨name, cert⟩) = .ok info ∧
      ∀ v : Serves, v.crypto = c → v.server = ⟨name, cert⟩ → Agrees v info := by
  have hsignature : cert.verifySignature k.verifyWith (Keys.publicHalf privateKey).1 =
      .ok true := by
    rw [Certificate.verifySignature, Keys.verifyWith_val, hsigned, hk.verify_sign privateKey hwf]
  have hfetch := @fetchCert_replies pf txt k.verifyWith later ⟨name, cert⟩
    ⟨name, (Keys.publicHalf privateKey).1⟩ id htxt hdate hsignature proto hquery hreply
  rw [if_pos ((toLower_certName_iff name).mpr ⟨hlower, hdot⟩), if_pos hes] at hfetch
  obtain ⟨key, hclient, hserver⟩ := hk.agree cert.esVersion hes random cert.resolverSk
  have hshared : computeSharedKey c cert.withoutSk.esVersion random cert.withoutSk.resolverPk =
      .ok key := by
    rw [← hclient, ← hkeys]
    rfl
  refine ⟨⟨k.scalarBaseMult random, key, cert.withoutSk⟩, ?_, ?_⟩
  · simp only [Dial.dialStampContext, Keys.generateRandomKeyPair, hfetch,
      Result.mapError_ok, Result.ok_bind, hshared, Result.pure_eq]
  · rintro v rfl hv
    exact ⟨by rw [hv]; rfl, by rw [hv]; rfl, by rw [hv]; exact hserver⟩

/-- A generated configuration is enough: the certificate that is made from it starts a server,
and a client that dials the stamp while the certificate is valid has a key in common with the
server, so that their exchanges succeed. -/
theorem provisioned_agrees (hk : k.Lawful c) (providerName : Bytes)
    (privateKey : Option (Octets privateKeySize)) (hwf : ∀ key ∈ privateKey, k.WellFormed key)
    (ttl : Int) (seed : Octets 32) (random : Key) (rc : ResolverConfig)
    (hrc : rc = generateResolverConfig k providerName privateKey ttl seed random)
    (hrep : rc.Representable now) (hlower : LowerCase rc.providerName)
    (hdot : rc.providerName.getLast? = some 0x2e → isFqdn rc.providerName = true)
    (random' : Key) :
    ∃ cert stamp, rc.newCert k now random' = .ok cert ∧ rc.createStamp = .ok stamp ∧
      cert.verifyDate (unix now) = true ∧
      ∀ start later addr proto id pf txt clientRandom, TxtCodec.RoundTrip txt →
        cert.verifyDate start = true → cert.verifyDate later = true →
        Carries pf (certQuery id (certName rc.providerName)) →
        Carries pf (handshakeReply txt (certQuery id (certName rc.providerName))
          ⟨certName rc.providerName, typeTXT, classINET⟩
          (Server.getCertTXT ⟨rc.providerName, cert⟩)) →
        ∃ s info, newServer ⟨some cert, rc.providerName, some addr, some proto⟩ start = .ok s ∧
          Dial.dialStampContext k txt later pf c clientRandom proto id stamp
            (s.replies pf txt) = .ok info ∧
          ∀ v : Serves, v.crypto = c → v.server = s → Agrees v info := by
  have h : Provisioned k rc (privateKey.getD (k.generateKey seed)) random := by
    rw [hrc]
    exact generateResolverConfig_provisioned k providerName privateKey ttl seed random
  have hwf' : k.WellFormed (privateKey.getD (k.generateKey seed)) := by
    cases privateKey with
    | none => exact k.wellFormed_generateKey seed
    | some key => exact hwf key rfl
  refine ⟨_, _, h.newCert hrep random', h.createStamp,
    ResolverConfig.verifyDate_unsigned hrep (k.generateRandomKeyPair random), ?_⟩
  intro start later addr proto id pf txt clientRandom htxt hstart hlater hquery hreply
  obtain ⟨info, hdial, hagrees⟩ := dial_agrees (c := c) hk hwf' h.version rfl rfl hlower hdot htxt
    hlater proto hquery hreply clientRandom
  exact ⟨_, info, newServer_of_valid addr proto h.providerName h.version hstart, hdial, hagrees⟩

end Provision

/-- The configuration for `example.org`, with keys of zeros. -/
def exampleGenerated : ResolverConfig :=
  generateResolverConfig exampleKeys (ascii "example.org") none 0 (Octets.zero _) (Octets.zero _)

/-- A client dials the server of `exampleGenerated` when it has just been started. -/
theorem provisioned_agrees_example :
    ∃ cert stamp s info pf,
      exampleGenerated.newCert exampleKeys exampleNow (Octets.zero _) = .ok cert ∧
      exampleGenerated.createStamp = .ok stamp ∧
      newServer ⟨some cert, exampleGenerated.providerName, some ([127, 0, 0, 1], 443), some .udp⟩
        (unix exampleNow) = .ok s ∧
      Dial.dialStampContext exampleKeys charStrings (unix exampleNow) pf tagCrypto (Octets.zero _)
        .udp 7 stamp (s.replies pf charStrings) = .ok info := by
  have hrep : exampleGenerated.Representable exampleNow := by
    have hvalidity : exampleGenerated.validity exampleNow = (1750000000, 1781536000) := rfl
    rw [ResolverConfig.Representable, hvalidity]
    decide
  obtain ⟨cert, stamp, hcert, hstamp, hdate, hdial⟩ := provisioned_agrees exampleKeys_lawful
    (ascii "example.org") none (fun key h => by cases h) 0 (Octets.zero _) (Octets.zero _)
    exampleGenerated rfl hrep
    (by decide +kernel) (by decide +kernel) (Octets.zero _)
  obtain ⟨hquery, hreply⟩ := certPlatform_carries ⟨exampleGenerated.providerName, cert⟩
    (certName exampleGenerated.providerName) exampleOrgWire
  obtain ⟨s, info, hserver, hinfo, -⟩ := hdial (unix exampleNow) (unix exampleNow)
    ([127, 0, 0, 1], 443) .udp 7 _ charStrings (Octets.zero _) charStrings_roundTrip hdate hdate
    hquery hreply
  exact ⟨cert, stamp, s, info, _, hcert, hstamp, hserver, hinfo⟩

end DnsProxy.DnsCrypt
