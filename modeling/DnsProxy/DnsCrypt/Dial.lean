import DnsProxy.DnsCrypt.Handshake
import DnsProxy.Lib.FirstBest
import Mathlib.Data.Prod.Lex

/-!
# Dialing a resolver

The client of `DnsCrypt.Handshake` with the signatures of `ed25519`: `Verify` panics on a public
key that does not have 32 bytes, and the key of a stamp has any length.

* `parseAnswer_eq_argmax`: the certificate that is taken from an answer is the first of those
  that are valid and have the greatest serial and version.
* `dialStampContext_eq_panic`: when dialing panics.
-/

namespace DnsProxy.DnsCrypt

open Checked

/-! ## Keys -/

/-- `ed25519.PublicKeySize`, `ed25519.PrivateKeySize`. -/
abbrev publicKeySize : Nat := 32
abbrev privateKeySize : Nat := 64

/-- The functions of `ed25519` and `curve25519`, on keys of the right length. -/
structure Keys where
  sign : Octets privateKeySize → Bytes → Octets signatureSize
  verify : Octets publicKeySize → Bytes → Octets signatureSize → Bool
  /-- The public key of the private key that is made from a seed. -/
  publicOf : Octets 32 → Octets publicKeySize
  /-- `curve25519.ScalarBaseMult`. -/
  scalarBaseMult : Key → Key

namespace Keys

variable (k : Keys)

/-- `ed25519.Sign`. -/
def signWith (privateKey message : Bytes) : Result Err (Octets signatureSize) :=
  if h : privateKey.length = privateKeySize then .ok (k.sign ⟨privateKey, h⟩ message) else .panic

/-- `ed25519.Verify`. -/
def verifyWith (publicKey message : Bytes) (sig : Octets signatureSize) : Result Err Bool :=
  if h : publicKey.length = publicKeySize then .ok (k.verify ⟨publicKey, h⟩ message sig)
  else .panic

/-- `generateRandomKeyPair`, which reads the bytes `random`. -/
def generateRandomKeyPair (random : Key) : Key × Key := (random, k.scalarBaseMult random)

variable {k}

theorem signWith_eq_panic {privateKey message : Bytes} :
    k.signWith privateKey message = .panic ↔ privateKey.length ≠ privateKeySize := by
  unfold signWith
  split
  · next h =>
    refine ⟨fun hok => ?_, fun hne => absurd h hne⟩
    cases hok
  · next h => exact ⟨fun _ => h, fun _ => rfl⟩

theorem verifyWith_eq_panic {publicKey message : Bytes} {sig : Octets signatureSize} :
    k.verifyWith publicKey message sig = .panic ↔ publicKey.length ≠ publicKeySize := by
  unfold verifyWith
  split
  · next h =>
    refine ⟨fun hok => ?_, fun hne => absurd h hne⟩
    cases hok
  · next h => exact ⟨fun _ => h, fun _ => rfl⟩

theorem verifyWith_val (publicKey : Octets publicKeySize) (message : Bytes)
    (sig : Octets signatureSize) :
    k.verifyWith publicKey.1 message sig = .ok (k.verify publicKey message sig) :=
  dif_pos publicKey.length_eq

end Keys

/-- The certificate that a TXT record decodes to. -/
def certificateOf (txt : TxtCodec) (rr : RR) : Option Certificate :=
  match txtStrings txt rr with
  | none => none
  | some strings =>
    match Certificate.unmarshalBinary (unpackTxtString strings.flatten) with
    | .ok cert => some cert
    | _ => none

namespace Dial

/-! ## The client -/

section

variable (k : Keys) (txt : TxtCodec) (now : Int) (pf : Platform)

/-- `DialStampContext`; `random` are the bytes of the client's secret key. -/
def dialStampContext (c : Crypto) (random : Key) (proto : Proto) (id : UInt16)
    (stamp : ServerStamp) (replies : Bytes → List Bytes) : Result Err ResolverInfo := do
  let (secretKey, publicKey) := k.generateRandomKeyPair random
  let cert ← (fetchCert pf txt k.verifyWith now proto id stamp replies).mapError
    (.annotated "fetching cert")
  let sharedKey ← (computeSharedKey c cert.esVersion secretKey cert.resolverPk).mapError
    (.annotated "computing shared key")
  return { publicKey, sharedKey, resolverCert := cert }

end

/-! ## One record -/

section Records

variable {k : Keys} {txt : TxtCodec} {now : Int} {rr : RR} {cert : Option Certificate}

theorem parseRecord_eq (serverPk : Bytes) (cert : Option Certificate) (rr : RR) :
    parseRecord txt k.verifyWith now serverPk cert rr =
      match certificateOf txt rr with
      | none => .ok cert
      | some current =>
        match verifyCert k.verifyWith now current serverPk with
        | .panic => .panic
        | .error _ => .ok cert
        | .ok () => .ok (if takes cert current then some current else cert) := by
  unfold parseRecord certificateOf
  cases txtStrings txt rr with
  | none => rfl
  | some strings =>
    dsimp only
    cases hread : Certificate.unmarshalBinary (unpackTxtString strings.flatten) with
    | ok current => rfl
    | error e => rfl
    | panic => exact absurd hread (Certificate.unmarshalBinary_safe _)

/-- A record makes the client panic. -/
def Panics (txt : TxtCodec) (now : Int) (serverPk : Bytes) (rr : RR) : Prop :=
  serverPk.length ≠ publicKeySize ∧
    ∃ cert, certificateOf txt rr = some cert ∧ cert.verifyDate now = true

theorem verifyCert_eq_panic {current : Certificate} {serverPk : Bytes} :
    verifyCert k.verifyWith now current serverPk = .panic ↔
      serverPk.length ≠ publicKeySize ∧ current.verifyDate now = true := by
  unfold verifyCert Certificate.verifySignature
  by_cases hdate : current.verifyDate now = true
  · rw [if_neg (not_not.mpr hdate), Result.bind_eq_panic, Keys.verifyWith_eq_panic]
    constructor
    · rintro (hlen | ⟨valid, -, hvalid⟩)
      · exact ⟨hlen, hdate⟩
      · cases valid <;> cases hvalid
    · exact fun h => .inl h.1
  · rw [if_pos hdate]
    exact ⟨nofun, fun h => absurd h.2 hdate⟩

theorem parseRecord_eq_panic {serverPk : Bytes} :
    parseRecord txt k.verifyWith now serverPk cert rr = .panic ↔ Panics txt now serverPk rr := by
  rw [parseRecord_eq, Panics]
  cases certificateOf txt rr with
  | none => simp
  | some current =>
    dsimp only
    cases hverify : verifyCert k.verifyWith now current serverPk with
    | panic => simpa using verifyCert_eq_panic.mp hverify
    | error e =>
      have hsafe := mt verifyCert_eq_panic.mpr (by rw [hverify]; exact nofun)
      simpa using hsafe
    | ok u =>
      have hsafe := mt verifyCert_eq_panic.mpr (by rw [hverify]; exact nofun)
      simpa using hsafe

theorem parseRecord_ne_error {serverPk : Bytes} {e : Err} :
    parseRecord txt k.verifyWith now serverPk cert rr ≠ .error e := by
  rw [parseRecord_eq]
  cases certificateOf txt rr with
  | none => exact nofun
  | some current =>
    dsimp only
    cases verifyCert k.verifyWith now current serverPk <;> exact nofun

end Records

/-! ## The best certificate of an answer -/

/-- The serial counts first, then the version. -/
def priority (cert : Certificate) : Nat ×ₗ Nat :=
  toLex (cert.serial.toNat, cert.esVersion.toNat)

theorem certHasHigherPriority_iff (prev current : Certificate) :
    certHasHigherPriority prev current = true ↔ priority prev < priority current := by
  rw [priority, priority, Prod.Lex.toLex_lt_toLex]
  simp only [certHasHigherPriority, gt_iff_lt, UInt32.lt_iff_toNat_lt, UInt16.le_iff_toNat_le]
  rcases lt_trichotomy prev.serial.toNat current.serial.toNat with hlt | heq | hgt
  · simp [hlt, hlt.not_gt]
  · simp [heq]
  · simp [hgt, hgt.not_gt, hgt.ne']

theorem foldl_takes (certs : List Certificate) :
    certs.foldl (fun cert current => if takes cert current then some current else cert) none =
      certs.argmax priority := by
  rw [List.argmax]
  congr 1
  funext cert current
  cases cert with
  | none => rfl
  | some prev => simp only [takes, certHasHigherPriority_iff, List.argAux]

section Best

variable (k : Keys) (txt : TxtCodec) (now : Int) (serverPk : Octets publicKeySize)

/-- The certificate of a record, if it is valid now and signed with the key. -/
def validCertificate (rr : RR) : Option Certificate :=
  (certificateOf txt rr).filter fun cert =>
    cert.verifyDate now && k.verify serverPk cert.writeSigned cert.signature

/-- The valid certificates of an answer, in its order. -/
def validCertificates (answer : List RR) : List Certificate :=
  answer.filterMap (validCertificate k txt now serverPk)

variable {k txt now serverPk}

theorem parseRecord_val (cert : Option Certificate) (rr : RR) :
    parseRecord txt k.verifyWith now serverPk.1 cert rr =
      .ok ((validCertificate k txt now serverPk rr).elim cert fun current =>
        if takes cert current then some current else cert) := by
  rw [parseRecord_eq, validCertificate]
  cases certificateOf txt rr with
  | none => rfl
  | some current =>
    simp only [verifyCert, Certificate.verifySignature, Keys.verifyWith_val, Result.ok_bind,
      Option.filter_some]
    by_cases hdate : current.verifyDate now = true
    · cases hverify : k.verify serverPk current.writeSigned current.signature with
      | true => simp [hdate]
      | false => simp [hdate]
    · simp [hdate]

theorem foldl_validCertificates (answer : List RR) (cert : Option Certificate) :
    answer.foldl (fun cert rr => (validCertificate k txt now serverPk rr).elim cert fun current =>
        if takes cert current then some current else cert) cert =
      (validCertificates k txt now serverPk answer).foldl (fun cert current =>
        if takes cert current then some current else cert) cert := by
  induction answer generalizing cert with
  | nil => rfl
  | cons rr answer ih =>
    rw [List.foldl_cons, ih]
    cases hvalid : validCertificate k txt now serverPk rr with
    | none => rw [validCertificates, validCertificates, List.filterMap_cons_none hvalid]; rfl
    | some current =>
      rw [validCertificates, validCertificates, List.filterMap_cons_some hvalid, List.foldl_cons]
      rfl

/-- The certificate that is taken is the first of the valid ones that have the greatest serial
and version. -/
theorem parseAnswer_eq_argmax (answer : List RR) :
    parseAnswer txt k.verifyWith now answer serverPk.1 =
      .ok ((validCertificates k txt now serverPk answer).argmax priority) := by
  rw [parseAnswer, Result.foldlM_eq_ok parseRecord_val, foldl_validCertificates, foldl_takes]

theorem validCertificates_eq_nil {answer : List RR} :
    validCertificates k txt now serverPk answer = [] ↔
      ∀ rr ∈ answer, validCertificate k txt now serverPk rr = none := List.filterMap_eq_nil_iff

theorem parseAnswer_split {answer : List RR} {cert : Certificate}
    (h : parseAnswer txt k.verifyWith now answer serverPk.1 = .ok (some cert)) :
    ∃ before rr after, answer = before ++ rr :: after ∧
      validCertificate k txt now serverPk rr = some cert ∧
      (∀ cert' ∈ validCertificates k txt now serverPk before, priority cert' < priority cert) ∧
      ∀ cert' ∈ validCertificates k txt now serverPk after, priority cert' ≤ priority cert := by
  rw [parseAnswer_eq_argmax] at h
  obtain ⟨before, after, hsplit, hbefore, hafter⟩ :=
    FirstBest.splits_of_argmax (Result.ok.inj h)
  obtain ⟨before', rest', rfl, rfl, hrest⟩ := List.filterMap_eq_append_iff.mp hsplit
  obtain ⟨skipped, rr, after', rfl, hskipped, hvalid, rfl⟩ := List.filterMap_eq_cons_iff.mp hrest
  refine ⟨before' ++ skipped, rr, after', by simp, hvalid, ?_, hafter⟩
  intro cert' hcert'
  rw [validCertificates, List.filterMap_append, List.filterMap_eq_nil_iff.mpr hskipped,
    List.append_nil] at hcert'
  exact hbefore cert' hcert'

end Best

/-- The client takes the best valid certificate of an answer, and the first of those that are
equally good. Records without a valid certificate do not matter, and the order of the others
matters only where they are equally good. -/
theorem parseAnswer_takes_best (k : Keys) (txt : TxtCodec) (now : Int)
    (serverPk : Octets publicKeySize) (answer : List RR) :
    ∃ best, parseAnswer txt k.verifyWith now answer serverPk.1 = .ok best ∧
      (best = none ↔ ∀ rr ∈ answer, validCertificate k txt now serverPk rr = none) ∧
      (∀ cert, best = some cert → ∃ before rr after, answer = before ++ rr :: after ∧
        validCertificate k txt now serverPk rr = some cert ∧
        (∀ cert' ∈ validCertificates k txt now serverPk before, priority cert' < priority cert) ∧
        ∀ cert' ∈ validCertificates k txt now serverPk after, priority cert' ≤ priority cert) ∧
      (∀ answer', validCertificates k txt now serverPk answer' =
          validCertificates k txt now serverPk answer →
        parseAnswer txt k.verifyWith now answer' serverPk.1 = .ok best) ∧
      (∀ answer', answer.Perm answer' →
        ((validCertificates k txt now serverPk answer).map priority).Nodup →
        parseAnswer txt k.verifyWith now answer' serverPk.1 = .ok best) ∧
      ∀ answer', (∀ p, (validCertificates k txt now serverPk answer).filter (priority · = p) =
          (validCertificates k txt now serverPk answer').filter (priority · = p)) →
        parseAnswer txt k.verifyWith now answer' serverPk.1 = .ok best := by
  refine ⟨_, parseAnswer_eq_argmax answer, ?_, ?_, ?_, ?_, ?_⟩
  · rw [List.argmax_eq_none, validCertificates_eq_nil]
  · intro cert hcert
    exact parseAnswer_split ((parseAnswer_eq_argmax answer).trans (congrArg Result.ok hcert))
  · intro answer' hsame
    rw [parseAnswer_eq_argmax, hsame]
  · intro answer' hperm hdistinct
    have hcerts : (validCertificates k txt now serverPk answer).Perm
        (validCertificates k txt now serverPk answer') := hperm.filterMap _
    rw [parseAnswer_eq_argmax, FirstBest.argmax_perm hcerts hdistinct]
  · intro answer' hfilter
    rw [parseAnswer_eq_argmax, FirstBest.argmax_congr_filter hfilter]

/-! ## Panics -/

section Panics

variable {k : Keys} {txt : TxtCodec} {now : Int} {pf : Platform}

theorem parseAnswer_eq_panic {answer : List RR} {serverPk : Bytes} :
    parseAnswer txt k.verifyWith now answer serverPk = .panic ↔
      ∃ rr ∈ answer, Panics txt now serverPk rr :=
  Result.foldlM_eq_panic (fun _ _ => parseRecord_eq_panic) fun _ _ _ => parseRecord_ne_error

theorem readReply_safe (proto : Proto) (id : UInt16) (bs : List Bytes) :
    (readReply pf proto id bs).Safe := by
  induction bs with
  | nil => exact Result.safe_error _
  | cons b bs ih =>
    rw [readReply]
    cases pf.unpack b with
    | none => exact Result.safe_error _
    | some r =>
      dsimp only
      split
      · exact Result.safe_ok _
      · split
        · exact Result.safe_error _
        · exact ih

theorem readReply_of_id {proto : Proto} {id : UInt16} {b : Bytes} {bs : List Bytes} {r : Msg}
    (h : pf.unpack b = some r) (hid : r.id = id) : readReply pf proto id (b :: bs) = .ok r := by
  rw [readReply, h]
  exact if_pos hid

/-- The reply that a client takes the certificate from. -/
def Fetched (pf : Platform) (proto : Proto) (id : UInt16) (stamp : ServerStamp)
    (replies : Bytes → List Bytes) (r : Msg) : Prop :=
  ∃ b, pf.pack (certQuery id (certName stamp.providerName)) = some b ∧
    readReply pf proto id (replies b) = .ok r ∧ r.rcode = rcodeSuccess

theorem fetchCert_eq_panic {proto : Proto} {id : UInt16} {stamp : ServerStamp}
    {replies : Bytes → List Bytes} :
    fetchCert pf txt k.verifyWith now proto id stamp replies = .panic ↔
      ∃ r, Fetched pf proto id stamp replies r ∧
        ∃ rr ∈ r.answer, Panics txt now stamp.serverPk rr := by
  unfold fetchCert Fetched
  cases pf.pack (certQuery id (certName stamp.providerName)) with
  | none => simp
  | some b =>
    dsimp only
    rw [Result.bind_eq_panic]
    constructor
    · rintro (hread | ⟨r, hread, hrest⟩)
      · exact absurd hread (readReply_safe proto id _)
      · split at hrest
        · cases hrest
        · next hrcode =>
          refine ⟨r, ⟨b, rfl, hread, not_not.mp hrcode⟩, ?_⟩
          rcases Result.bind_eq_panic.mp hrest with hpanic | ⟨cert, -, hcert⟩
          · exact parseAnswer_eq_panic.mp hpanic
          · cases cert <;> cases hcert
    · rintro ⟨r, ⟨b', hb', hread, hrcode⟩, hpanics⟩
      cases hb'
      refine .inr ⟨r, hread, ?_⟩
      rw [if_neg (not_not.mpr hrcode), parseAnswer_eq_panic.mpr hpanics, Result.panic_bind]

/-- Dialing panics just if the key of the stamp has the wrong length and a record of the reply
decodes to a certificate that is valid now. -/
theorem dialStampContext_eq_panic {c : Crypto} {random : Key} {proto : Proto} {id : UInt16}
    {stamp : ServerStamp} {replies : Bytes → List Bytes} :
    dialStampContext k txt now pf c random proto id stamp replies = .panic ↔
      ∃ r, Fetched pf proto id stamp replies r ∧
        ∃ rr ∈ r.answer, Panics txt now stamp.serverPk rr := by
  rw [← @fetchCert_eq_panic k txt now pf proto id stamp replies]
  unfold dialStampContext
  constructor
  · intro h
    rcases Result.bind_eq_panic.mp h with hfetch | ⟨cert, -, hkey⟩
    · by_contra hsafe
      exact (Result.safe_mapError _ _).mpr hsafe hfetch
    · rcases Result.bind_eq_panic.mp hkey with hshared | ⟨sharedKey, -, hreturn⟩
      · exact absurd hshared ((Result.safe_mapError _ _).mpr (computeSharedKey_safe _ _))
      · cases hreturn
  · intro h
    rw [h]
    rfl

end Panics

end Dial

end DnsProxy.DnsCrypt
