import DnsProxy.DnsCrypt.Encryption

/-!
# How long an encrypted response is

A response is cut to what the transport carries, less an allowance of 64 bytes for the
encryption, before it is packed and encrypted. The encryption adds 48 bytes and rounds the
length up, always by at least one byte, so the allowance is not enough for every length.

* `fits_iff`: what the ciphertext's length means for that of the packet inside.
* `response_carried`: a response of at most `budget` bytes is carried, and no other one.
-/

namespace DnsProxy.DnsCrypt

open Checked

/-- `dns.MinMsgSize` and `dns.MaxMsgSize`. -/
abbrev minMsgSize : Nat := 512
abbrev maxMsgSize : Nat := 65535

/-- The size in the OPT record of a request. -/
def advertised (r : Msg) : UInt16 :=
  match r.isEdns0 with
  | some o => o.udpSize
  | none => 0

def dnsSize (proto : Proto) (r : Msg) : Nat :=
  let size := advertised r
  if proto ≠ .udp then maxMsgSize
  else if size.toNat < minMsgSize then minMsgSize
  else size.toNat

def normalize (pf : Platform) (proto : Proto) (req res : Msg) : Msg :=
  let size := dnsSize proto req - 64
  let res := pf.truncate res size
  if res.truncated ∧ proto = .udp then { res with answer := [] } else res

/-- `writePrefixed`, up to the bytes that are handed to the connection. -/
def writePrefixed (b : Bytes) : Result Err Bytes :=
  match lengthPrefix b.length with
  | none => .error .queryTooLarge
  | some head => .ok (head ++ b)

/-! ## What is carried -/

/-- What the transport carries: a frame of 65535 bytes, or the datagram that the client has
room for. -/
def limit (proto : Proto) (req : Msg) : Nat :=
  match proto with
  | .tcp => 65535
  | .udp => max 512 (advertised req).toNat

/-- The length of the longest packet whose encrypted form is carried. -/
def budget (proto : Proto) (req : Msg) : Nat := 64 * ((limit proto req - 48) / 64) - 2

/-- What the message library says about lengths: `Truncate` cuts to its argument, but not
below 512 bytes, it leaves a message that fits as it is, and a message is not longer when its
answers are removed. -/
structure TruncateSizes (pf : Platform) : Prop where
  le : ∀ m n b, pf.pack (pf.truncate m n) = some b → b.length ≤ max n 512
  leWithoutAnswer : ∀ m n b, pf.pack { pf.truncate m n with answer := [] } = some b →
    b.length ≤ max n 512
  whole : ∀ (m : Msg) n b, pf.pack { m with compress := false } = some b →
    b.length ≤ max n 512 → pf.truncate m n = { m with compress := false }
  withoutAnswer : ∀ (m : Msg) b b', m.compress = false → pf.pack m = some b →
    pf.pack { m with answer := [] } = some b' → b'.length ≤ b.length

theorem dnsSize_eq_limit (proto : Proto) (req : Msg) : dnsSize proto req = limit proto req := by
  cases proto with
  | tcp => rfl
  | udp =>
    simp only [dnsSize, limit, minMsgSize, ne_eq, not_true_eq_false, if_false]
    split <;> omega

theorem le_limit_of_proto (proto : Proto) (req : Msg) : 512 ≤ limit proto req := by
  cases proto with
  | tcp => exact (by decide : 512 ≤ 65535)
  | udp => exact Nat.le_max_left _ _

/-- The header, the tag and the padding are within `n` bytes just if the packet is short
enough for the padding to end there. -/
theorem fits_iff (len n : Nat) (hn : 512 ≤ n) :
    responseHeaderLength + (paddedSize len + tagSize) ≤ n ↔ len ≤ 64 * ((n - 48) / 64) - 2 := by
  rw [paddedSize_eq]
  show 32 + (max 256 _ + 16) ≤ n ↔ _
  omega

section Responses

variable {c : Crypto} {pf : Platform} {cert : Certificate} {query : EncryptedQuery}
  {random : Octets 4} {unixNano : UInt64}

theorem length_serverEncrypt (hc : c.Lawful) {m : Msg} {p enc : Bytes} (hp : pf.pack m = some p)
    (h : serverEncrypt c pf cert random unixNano m query = .ok enc) :
    enc.length = responseHeaderLength + (paddedSize p.length + tagSize) := by
  simp only [serverEncrypt, packMsg, hp, Result.ok_bind] at h
  cases hkey : computeSharedKey c query.esVersion cert.resolverSk query.clientPk with
  | ok key =>
    rw [hkey] at h
    exact EncryptedResponse.length_encrypt hc h
  | error e =>
    rw [hkey] at h
    cases h
  | panic =>
    rw [hkey] at h
    cases h

theorem writePrefixed_ok_iff (b : Bytes) :
    (∃ frame, writePrefixed b = .ok frame) ↔ b.length ≤ 65535 := by
  rcases Nat.lt_or_ge 65535 b.length with hlong | hle
  · simp [writePrefixed, lengthPrefix, hlong, Nat.not_le.mpr hlong]
  · simp [writePrefixed, lengthPrefix, hle, Nat.not_lt.mpr hle]

theorem length_normalize (hpf : TruncateSizes pf) {proto : Proto} {req res : Msg} {p : Bytes}
    (hp : pf.pack (normalize pf proto req res) = some p) :
    p.length ≤ max (limit proto req - 64) 512 := by
  simp only [normalize, dnsSize_eq_limit] at hp
  split at hp
  · exact hpf.leWithoutAnswer _ _ _ hp
  · exact hpf.le _ _ _ hp

/-- A message that fits is not cut. It only loses its answers, over UDP, if it was marked as
truncated before. -/
theorem length_normalize_le (hpf : TruncateSizes pf) {proto : Proto} {req res : Msg}
    {plain p : Bytes} (hplain : pf.pack { res with compress := false } = some plain)
    (hp : pf.pack (normalize pf proto req res) = some p) : p.length ≤ plain.length := by
  rcases Nat.le_total plain.length (max (limit proto req - 64) 512) with hfits | hlong
  · have hwhole := hpf.whole res (limit proto req - 64) plain hplain hfits
    simp only [normalize, dnsSize_eq_limit, hwhole] at hp
    split at hp
    · exact hpf.withoutAnswer _ plain p rfl hplain hp
    · exact Nat.le_of_eq (congrArg List.length (Option.some.inj (hp.symm.trans hplain)))
  · exact Nat.le_trans (length_normalize hpf hp) hlong

/-- The ciphertext is within the limit, and `writePrefixed` takes it over TCP. -/
def Carried (proto : Proto) (req : Msg) (enc : Bytes) : Prop :=
  enc.length ≤ limit proto req ∧ (proto = .tcp → ∃ frame, writePrefixed enc = .ok frame)

theorem carried_iff (proto : Proto) (req : Msg) (enc : Bytes) :
    Carried proto req enc ↔ enc.length ≤ limit proto req := by
  refine ⟨fun h => h.1, fun h => ⟨h, ?_⟩⟩
  rintro rfl
  exact (writePrefixed_ok_iff enc).mpr h

/-- A response that packs to at most `budget` bytes is carried in its encrypted form. What
`normalize` makes of a longer one is carried just if it is cut to `budget` bytes as well. -/
theorem response_carried (hc : c.Lawful) (hpf : TruncateSizes pf) (proto : Proto)
    (req res : Msg) (plain : Bytes) (hplain : pf.pack { res with compress := false } = some plain) :
    (plain.length ≤ budget proto req → ∀ enc,
      serverEncrypt c pf cert random unixNano (normalize pf proto req res) query = .ok enc →
      Carried proto req enc) ∧
    (∀ p enc, pf.pack (normalize pf proto req res) = some p →
      serverEncrypt c pf cert random unixNano (normalize pf proto req res) query = .ok enc →
      (Carried proto req enc ↔ p.length ≤ budget proto req)) ∧
    (proto = .tcp → ∀ p enc, pf.pack (normalize pf proto req res) = some p →
      serverEncrypt c pf cert random unixNano (normalize pf proto req res) query = .ok enc →
      (Carried proto req enc ↔ p.length ≠ 65471)) := by
  have hlimit := le_limit_of_proto proto req
  have hexact : ∀ p enc, pf.pack (normalize pf proto req res) = some p →
      serverEncrypt c pf cert random unixNano (normalize pf proto req res) query = .ok enc →
      (Carried proto req enc ↔ p.length ≤ budget proto req) := by
    intro p enc hp henc
    rw [carried_iff, length_serverEncrypt hc hp henc]
    exact fits_iff p.length (limit proto req) hlimit
  refine ⟨?_, hexact, ?_⟩
  · intro hsmall enc henc
    -- The message has to be packed before it can be encrypted.
    cases hp : pf.pack (normalize pf proto req res) with
    | none =>
      simp only [serverEncrypt, packMsg, hp, Result.error_bind] at henc
      cases henc
    | some p =>
      have hle : p.length ≤ plain.length := length_normalize_le hpf hplain hp
      exact (hexact p enc hp henc).mpr (Nat.le_trans hle hsmall)
  · rintro rfl p enc hp henc
    have hcut : p.length ≤ 65471 := length_normalize hpf hp
    have hbudget : budget .tcp req = 65470 := by simp [budget, limit]
    rw [hexact p enc hp henc, hbudget]
    omega

end Responses

/-! ## Concrete responses -/

theorem ofTable_truncateSizes {m : Msg} {w : Bytes} (hw : w.length ≤ 512) :
    TruncateSizes (.ofTable [(m, w)]) := by
  have hpack : ∀ m' b, (Platform.ofTable [(m, w)]).pack m' = some b → b = w := by
    intro m' b h
    obtain ⟨e, hfind, rfl⟩ := Option.map_eq_some_iff.mp h
    obtain rfl := List.mem_singleton.mp (List.mem_of_find?_eq_some hfind)
    rfl
  have hle : ∀ n, w.length ≤ max n 512 := fun n => Nat.le_trans hw (Nat.le_max_right _ _)
  refine ⟨fun _ n b h => ?_, fun _ n b h => ?_, fun _ _ _ _ _ => rfl,
    fun _ b b' _ h h' => ?_⟩
  · exact hpack _ b h ▸ hle n
  · exact hpack _ b h ▸ hle n
  · rw [hpack _ b h, hpack _ b' h']

theorem response_carried_example :
    ∃ enc, serverEncrypt tagCrypto examplePlatform exampleCertificate (Octets.zero 4) 1
        (normalize examplePlatform .udp exampleQuery exampleAnswer) exampleEncryptedQuery =
          .ok enc ∧
      Carried .udp exampleQuery enc := by
  obtain ⟨enc, henc, -⟩ := @clientDecrypt_serverEncrypt tagCrypto examplePlatform tagCrypto_lawful
    exampleCertificate ⟨Octets.zero _, Octets.zero _, exampleCertificate⟩ exampleEncryptedQuery rfl
    rfl (normalize examplePlatform .udp exampleQuery exampleAnswer) exampleAnswer exampleAnswerWire
    (by decide +kernel) (by decide +kernel) (by decide) (Octets.zero 4) 1
  exact ⟨enc, henc, (response_carried tagCrypto_lawful (ofTable_truncateSizes (by decide)) .udp
    exampleQuery exampleAnswer exampleAnswerWire (by decide +kernel)).1 (by decide) enc henc⟩

/-- A response of 447 bytes, none of them compressed. -/
def longAnswer : Msg :=
  { exampleAnswer with
    answer := [⟨exampleOrg, classINET, 60, .other txtType (List.replicate 395 0)⟩] }

def longAnswerWire : Bytes :=
  [0, 1, 0x81, 0x80, 0, 1, 0, 1, 0, 0, 0, 0] ++ exampleOrgWire ++ [0, 1, 0, 1] ++
  exampleOrgWire ++ [0, 16, 0, 1, 0, 0, 0, 60, 1, 139] ++ List.replicate 395 0

/-- To a client that advertises no size, a response of 447 bytes is sent in a datagram of
560 bytes. -/
theorem response_not_carried :
    longAnswerWire.length = 447 ∧ limit .udp exampleQuery = 512 ∧
    ∃ enc, serverEncrypt tagCrypto (.ofTable [(longAnswer, longAnswerWire)]) exampleCertificate
        (Octets.zero 4) 1 (normalize (.ofTable [(longAnswer, longAnswerWire)]) .udp exampleQuery
          longAnswer) exampleEncryptedQuery = .ok enc ∧
      enc.length = 560 ∧ ¬ Carried .udp exampleQuery enc := by
  have hpack : (Platform.ofTable [(longAnswer, longAnswerWire)]).pack
      (normalize (.ofTable [(longAnswer, longAnswerWire)]) .udp exampleQuery longAnswer) =
      some longAnswerWire := by decide +kernel
  obtain ⟨enc, henc, -⟩ := @clientDecrypt_serverEncrypt tagCrypto
    (.ofTable [(longAnswer, longAnswerWire)]) tagCrypto_lawful exampleCertificate
    ⟨Octets.zero _, Octets.zero _, exampleCertificate⟩ exampleEncryptedQuery rfl rfl _ longAnswer
    longAnswerWire hpack (by decide +kernel) (by decide +kernel) (Octets.zero 4) 1
  have hlength := length_serverEncrypt tagCrypto_lawful hpack henc
  have hlong : enc.length = 560 := hlength.trans (by decide +kernel)
  refine ⟨by decide +kernel, by decide, enc, henc, hlong, fun hcarried => ?_⟩
  have hle : enc.length ≤ 512 := hcarried.1
  omega

end DnsProxy.DnsCrypt
