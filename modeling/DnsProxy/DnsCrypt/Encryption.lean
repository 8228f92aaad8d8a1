import DnsProxy.DnsCrypt.Certificate
import DnsProxy.Platform

/-!
# Encrypted queries and responses

What a DNSCrypt client and server put on the wire: a client magic, the client's public
key and half a nonce before the encrypted query, the resolver magic and a whole nonce
before the encrypted response. The packet inside is padded.

The two authenticated ciphers and the key agreement are a `Crypto`; what is relied upon
is in `Crypto.Lawful`. The clock and the random bytes are arguments.

* `unpad_pad`: padding is taken off again.
* `EncryptedQuery.decrypt_encrypt`, `EncryptedResponse.decrypt_encrypt`: the round trips.
* `EncryptedQuery.decrypt_safe`, `EncryptedResponse.decrypt_safe`: no input makes
  `decrypt` index out of range.
* `serverDecrypt_clientEncrypt`, `clientDecrypt_serverEncrypt`: what one side sends is
  what the other one gets.
-/

namespace DnsProxy.DnsCrypt

open Checked

/-! ## The ciphers -/

/-- `xsecretbox.TagSize`. -/
abbrev tagSize : Nat := 16

/-- The length of the shared key is that of the other keys. -/
abbrev Key := Octets keySize

abbrev Nonce := Octets nonceSize

/-- The functions of `xsecretbox`, `secretbox` and `box`. -/
structure Crypto where
  /-- `xsecretbox.SharedKey(secretKey, publicKey)`. -/
  xSharedKey : Key → Key → Except String Key
  /-- `box.Precompute(publicKey, secretKey)`. -/
  precompute : Key → Key → Key
  /-- What `xsecretbox.Seal` appends. -/
  xSeal : Nonce → Bytes → Key → Bytes
  xOpen : Nonce → Bytes → Key → Except String Bytes
  /-- What `secretbox.Seal` appends. -/
  boxSeal : Bytes → Nonce → Key → Bytes
  boxOpen : Bytes → Nonce → Key → Option Bytes

/-- A box opens with the key and the nonce it was made with, and is longer than its content
by the tag. -/
structure Crypto.Lawful (c : Crypto) : Prop where
  xOpen_xSeal : ∀ nonce m key, c.xOpen nonce (c.xSeal nonce m key) key = .ok m
  boxOpen_boxSeal : ∀ m nonce key, c.boxOpen (c.boxSeal m nonce key) nonce key = some m
  length_xSeal : ∀ nonce m key, (c.xSeal nonce m key).length = m.length + tagSize
  length_boxSeal : ∀ m nonce key, (c.boxSeal m nonce key).length = m.length + tagSize

def computeSharedKey (c : Crypto) (es : CryptoConstruction) (secretKey publicKey : Key) :
    Result Err Key :=
  if es = xChacha20Poly1305 then
    match c.xSharedKey secretKey publicKey with
    | .ok key => .ok key
    | .error text => .error (.library text)
  else if es = xSalsa20Poly1305 then .ok (c.precompute publicKey secretKey)
  else .error .esVersion

/-- The switch over the construction when a packet is encrypted. -/
def sealES (c : Crypto) (es : CryptoConstruction) (nonce : Nonce) (padded : Bytes) (key : Key) :
    Result Err Bytes :=
  if es = xChacha20Poly1305 then .ok (c.xSeal nonce padded key)
  else if es = xSalsa20Poly1305 then .ok (c.boxSeal padded nonce key)
  else .error .esVersion

/-- The same switch when a `what` is decrypted; `invalid` is its error. -/
def openES (c : Crypto) (what : String) (invalid : Err) (es : CryptoConstruction) (nonce : Nonce)
    (b : Bytes) (key : Key) : Result Err Bytes :=
  let failed := Err.annotated ("decrypting " ++ what ++ ": " ++ constructionString es)
  if es = xChacha20Poly1305 then
    match c.xOpen nonce b key with
    | .ok packet => .ok packet
    | .error text => .error (failed (.library text))
  else if es = xSalsa20Poly1305 then
    match c.boxOpen b nonce key with
    | some packet => .ok packet
    | none => .error (failed invalid)
  else .error .esVersion

/-! ## Padding -/

/-- The length of a padded packet. -/
def paddedSize (len : Nat) : Nat :=
  let minQuestionSize := len + 1 + (64 - (len + 1) % 64)
  if minUDPQuestionSize > minQuestionSize then minUDPQuestionSize else minQuestionSize

def pad (packet : Bytes) : Bytes :=
  packet ++ 0x80 :: List.replicate (paddedSize packet.length - (packet.length + 1)) 0

/-- The loop of `unpad`, which goes down from `i`. -/
def unpadFrom (packet : Bytes) : Nat → Result Err Bytes
  | 0 => .error .invalidPadding
  | i + 1 =>
    match packet[i]? with
    | none => .panic
    | some b =>
      if b = 0x80 then
        if i < minDNSPacketSize then .error .invalidPadding else .ok (packet.take i)
      else if b ≠ 0 then .error .invalidPadding
      else unpadFrom packet i

def unpad (packet : Bytes) : Result Err Bytes := unpadFrom packet packet.length

/-! ## Queries -/

structure EncryptedQuery where
  esVersion : CryptoConstruction
  clientMagic : Octets clientMagicSize
  clientPk : Key := Octets.zero keySize
  nonce : Nonce := Octets.zero nonceSize
deriving DecidableEq

namespace Nonce

/-- The client's half of `n` is made of the time and of four random bytes. -/
def setClient (n : Nonce) (unixNano : UInt64) (random : Octets 4) : Nonce :=
  ⟨(Octets.ofNat 8 unixNano.toNat).1 ++ random.1 ++ n.1.drop 12, by simp [nonceSize]⟩

/-- The server's half of `n` is made of four random bytes and of the time. -/
def setServer (n : Nonce) (random : Octets 4) (unixNano : UInt64) : Nonce :=
  ⟨n.1.take 12 ++ random.1 ++ (Octets.ofNat 8 unixNano.toNat).1, by simp [nonceSize]⟩

/-- `copy(n[:12], half)`. -/
def copyClient (n : Nonce) (half : Octets 12) : Nonce :=
  ⟨half.1 ++ n.1.drop 12, by simp [nonceSize]⟩

end Nonce

/-- `nonce[:nonceSize/2]`. -/
def clientHalf (n : Nonce) : Octets 12 := ⟨n.1.take 12, by simp [nonceSize]⟩

/-- The length of what stands before the encrypted query. -/
abbrev queryHeaderLength : Nat := clientMagicSize + keySize + nonceSize / 2

/-- The length of what stands before the encrypted response. -/
abbrev responseHeaderLength : Nat := resolverMagicSize + nonceSize

section

variable (c : Crypto)

namespace EncryptedQuery

/-- `encryptedQuery.encrypt`. The second result is the nonce, which `q` has as well then. -/
def encrypt (q : EncryptedQuery) (unixNano : UInt64) (random : Octets 4) (packet : Bytes)
    (sharedKey : Key) : Result Err (Bytes × Nonce) := do
  let nonce := q.nonce.setClient unixNano random
  let box ← sealES c q.esVersion nonce (pad packet) sharedKey
  return (q.clientMagic.1 ++ (q.clientPk.1 ++ ((clientHalf nonce).1 ++ box)), nonce)

/-- `encryptedQuery.decrypt`: the packet, and `q` with the key and the nonce of the client. -/
def decrypt (q : EncryptedQuery) (query : Bytes) (serverSecretKey : Key) :
    Result Err (Bytes × EncryptedQuery) :=
  if query.length < queryHeaderLength + tagSize + minDNSPacketSize then .error .invalidQuery
  else do
    let clientMagic ← array query 0 clientMagicSize
    if clientMagic ≠ q.clientMagic then .error .invalidClientMagic
    else do
      let clientPk ← array query clientMagicSize keySize
      let sharedKey ← (computeSharedKey c q.esVersion serverSecretKey clientPk).mapError
        (.annotated "computing shared key")
      let half ← array query (clientMagicSize + keySize) 12
      let nonce := q.nonce.copyClient half
      let encryptedQuery ← sliceFrom query queryHeaderLength
      let padded ← openES c "query" .invalidQuery q.esVersion nonce encryptedQuery sharedKey
      let packet ← (unpad padded).mapError (.annotated "remove packet padding")
      return (packet, { q with clientPk, nonce })

end EncryptedQuery

/-! ## Responses -/

structure EncryptedResponse where
  esVersion : CryptoConstruction
  nonce : Nonce := Octets.zero nonceSize
deriving DecidableEq

namespace EncryptedResponse

/-- `encryptedResponse.encrypt`. -/
def encrypt (r : EncryptedResponse) (random : Octets 4) (unixNano : UInt64) (packet : Bytes)
    (sharedKey : Key) : Result Err Bytes := do
  let nonce := r.nonce.setServer random unixNano
  let box ← sealES c r.esVersion nonce (pad packet) sharedKey
  return resolverMagic.1 ++ (nonce.1 ++ box)

/-- `encryptedResponse.decrypt`. -/
def decrypt (r : EncryptedResponse) (response : Bytes) (sharedKey : Key) (clientNonce : Nonce) :
    Result Err Bytes :=
  if response.length < responseHeaderLength + tagSize + minDNSPacketSize then
    .error .invalidResponse
  else do
    let magic ← array response 0 resolverMagicSize
    if magic ≠ resolverMagic then .error .invalidResolverMagic
    else do
      let nonce ← array response resolverMagicSize nonceSize
      if clientHalf nonce ≠ clientHalf clientNonce then .error .unexpectedNonce
      else do
        let encryptedResponse ← sliceFrom response (nonceSize + resolverMagicSize)
        let padded ← openES c "response" .invalidResponse r.esVersion nonce encryptedResponse
          sharedKey
        (unpad padded).mapError (.annotated "removing packet padding")

end EncryptedResponse

/-! ## The two sides -/

variable (pf : Platform)

/-- `m.Pack()` and `msg.Unpack(b)`, with the texts the callers put before their errors. -/
def packMsg (m : Msg) : Result Err Bytes :=
  match pf.pack m with
  | some b => .ok b
  | none => .error (.annotated "packing dns message" (.library "pack"))

def unpackMsg (b : Bytes) : Result Err Msg :=
  match pf.unpack b with
  | some m => .ok m
  | none => .error (.annotated "unpacking dns message" (.library "unpack"))

variable {pf} in
theorem packMsg_eq_ok {m : Msg} {b : Bytes} : packMsg pf m = .ok b ↔ pf.pack m = some b := by
  unfold packMsg
  cases pf.pack m <;> simp

variable {pf} in
theorem unpackMsg_eq_ok {b : Bytes} {m : Msg} : unpackMsg pf b = .ok m ↔ pf.unpack b = some m := by
  unfold unpackMsg
  cases pf.unpack b <;> simp

/-- What a client knows of a resolver: its certificate, and the key pair made for it. -/
structure ResolverInfo where
  publicKey : Key
  sharedKey : Key
  resolverCert : Certificate

/-- `Client.encrypt`; `maxQuerySize` is the limit of the client. -/
def clientEncrypt (maxQuerySize : Nat) (unixNano : UInt64) (random : Octets 4) (m : Msg)
    (info : ResolverInfo) : Result Err (Bytes × Nonce) := do
  let q : EncryptedQuery :=
    { esVersion := info.resolverCert.esVersion, clientMagic := info.resolverCert.clientMagic
      clientPk := info.publicKey }
  let query ← packMsg pf m
  let (msg, clientNonce) ← (q.encrypt c unixNano random query info.sharedKey).mapError
    (.annotated "encrypting message")
  if msg.length > maxQuerySize then .error .queryTooLarge
  else return (msg, clientNonce)

/-- `Client.decrypt`. -/
def clientDecrypt (b : Bytes) (clientNonce : Nonce) (info : ResolverInfo) : Result Err Msg := do
  let dr : EncryptedResponse := { esVersion := info.resolverCert.esVersion }
  let response ← (dr.decrypt c b info.sharedKey clientNonce).mapError
    (.annotated "decrypting server response")
  unpackMsg pf response

/-- `Server.encrypt`. -/
def serverEncrypt (cert : Certificate) (random : Octets 4) (unixNano : UInt64) (m : Msg)
    (q : EncryptedQuery) : Result Err Bytes := do
  let r : EncryptedResponse := { esVersion := q.esVersion, nonce := q.nonce }
  let packet ← packMsg pf m
  let sharedKey ← (computeSharedKey c q.esVersion cert.resolverSk q.clientPk).mapError
    (.annotated "computing shared key")
  r.encrypt c random unixNano packet sharedKey

/-- `Server.decrypt`. -/
def serverDecrypt (cert : Certificate) (b : Bytes) : Result Err (Msg × EncryptedQuery) := do
  let query : EncryptedQuery := { esVersion := cert.esVersion, clientMagic := cert.clientMagic }
  let (decrypted, query) ← (query.decrypt c b cert.resolverSk).mapError
    (.annotated "decrypting query")
  let msg ← unpackMsg pf decrypted
  return (msg, query)

end

/-! ## Padding is taken off again -/

theorem paddedSize_eq (len : Nat) :
    paddedSize len = max minUDPQuestionSize (64 * ((len + 1) / 64) + 64) := by
  simp only [paddedSize]
  split <;> omega

theorem length_pad (packet : Bytes) : (pad packet).length = paddedSize packet.length := by
  have hlt : packet.length + 1 ≤ paddedSize packet.length := by
    rw [paddedSize_eq]
    omega
  simp only [pad, List.length_append, List.length_cons, List.length_replicate]
  omega

theorem unpadFrom_zeros (packet : Bytes) (hlen : minDNSPacketSize ≤ packet.length) (n k : Nat)
    (hk : k ≤ n) :
    unpadFrom (packet ++ 0x80 :: List.replicate n 0) (packet.length + 1 + k) = .ok packet := by
  induction k with
  | zero =>
    show unpadFrom _ (packet.length + 1) = _
    simp [unpadFrom, Nat.not_lt.mpr hlen]
  | succ k ih =>
    have hget : (packet ++ 0x80 :: List.replicate n (0 : UInt8))[packet.length + 1 + k]? =
        some 0 := by
      rw [List.getElem?_append_right (by omega), Nat.add_assoc, Nat.add_sub_cancel_left,
        Nat.add_comm 1 k, List.getElem?_cons_succ, List.getElem?_replicate, if_pos (by omega)]
    show unpadFrom _ (packet.length + 1 + k + 1) = _
    rw [unpadFrom, hget]
    exact ih (by omega)

theorem unpad_pad (packet : Bytes) (hlen : minDNSPacketSize ≤ packet.length) :
    unpad (pad packet) = .ok packet := by
  rw [unpad, pad]
  have hlength : ∀ n, (packet ++ 0x80 :: List.replicate n (0 : UInt8)).length =
      packet.length + 1 + n := by
    intro n
    simp [Nat.add_assoc, Nat.add_comm 1 n]
  rw [hlength]
  exact unpadFrom_zeros packet hlen _ _ (Nat.le_refl _)

theorem unpadFrom_safe (packet : Bytes) (i : Nat) (hi : i ≤ packet.length) :
    (unpadFrom packet i).Safe := by
  induction i with
  | zero => exact Result.safe_error _
  | succ i ih =>
    rw [unpadFrom, List.getElem?_eq_getElem hi]
    dsimp only
    split
    · split
      · exact Result.safe_error _
      · exact Result.safe_ok _
    · split
      · exact Result.safe_error _
      · exact ih (Nat.le_of_succ_le hi)

theorem unpad_safe (packet : Bytes) : (unpad packet).Safe :=
  unpadFrom_safe packet _ (Nat.le_refl _)

/-! ## The switches over the construction -/

section Ciphers

variable {c : Crypto} {es : CryptoConstruction} {nonce : Nonce} {key : Key}

theorem supported_of_computeSharedKey {secretKey publicKey : Key}
    (h : computeSharedKey c es secretKey publicKey = .ok key) : Supported es := by
  unfold computeSharedKey at h
  split at h
  · next hes => exact .inr hes
  · split at h
    · next hes => exact .inl hes
    · cases h

theorem computeSharedKey_safe (secretKey publicKey : Key) :
    (computeSharedKey c es secretKey publicKey).Safe := by
  unfold computeSharedKey
  split
  · split <;> simp
  · split <;> simp

theorem openES_safe (what : String) (invalid : Err) (b : Bytes) :
    (openES c what invalid es nonce b key).Safe := by
  unfold openES
  dsimp only
  split
  · split <;> simp
  · split
    · split <;> simp
    · exact Result.safe_error _

theorem sealES_spec (hc : c.Lawful) (hes : Supported es) (nonce : Nonce) (padded : Bytes)
    (key : Key) :
    ∃ box, sealES c es nonce padded key = .ok box ∧ box.length = padded.length + tagSize ∧
      ∀ what invalid, openES c what invalid es nonce box key = .ok padded := by
  rcases hes with rfl | rfl
  · refine ⟨_, rfl, hc.length_boxSeal _ _ _, fun what invalid => ?_⟩
    rw [openES, if_neg (by decide), if_pos rfl, hc.boxOpen_boxSeal]
  · refine ⟨_, rfl, hc.length_xSeal _ _ _, fun what invalid => ?_⟩
    rw [openES, if_pos rfl, hc.xOpen_xSeal]

theorem sealES_length (hc : c.Lawful) {padded box : Bytes}
    (h : sealES c es nonce padded key = .ok box) : box.length = padded.length + tagSize := by
  unfold sealES at h
  split at h
  · cases h
    exact hc.length_xSeal _ _ _
  · split at h
    · cases h
      exact hc.length_boxSeal _ _ _
    · cases h

theorem sealES_opens (hc : c.Lawful) {padded box : Bytes}
    (h : sealES c es nonce padded key = .ok box) (what : String) (invalid : Err) :
    openES c what invalid es nonce box key = .ok padded := by
  have hes : Supported es := by
    by_contra hes
    obtain ⟨hbox, hx⟩ := not_or.mp hes
    rw [sealES, if_neg hx, if_neg hbox] at h
    cases h
  obtain ⟨box', hseal, -, hopen⟩ := sealES_spec hc hes nonce padded key
  cases h.symm.trans hseal
  exact hopen what invalid

end Ciphers

/-! ## Queries -/

theorem minDNSPacketSize_le_length_pad (packet : Bytes) :
    minDNSPacketSize ≤ (pad packet).length := by
  rw [length_pad, paddedSize_eq]
  exact Nat.le_trans (by decide) (Nat.le_max_left _ _)

theorem Nonce.copyClient_clientHalf {m n : Nonce} (h : m.1.drop 12 = n.1.drop 12) :
    m.copyClient (clientHalf n) = n := by
  apply Octets.ext
  show n.1.take 12 ++ m.1.drop 12 = n.1
  rw [h, List.take_append_drop]

@[simp] theorem Nonce.drop_setClient (n : Nonce) (unixNano : UInt64) (random : Octets 4) :
    (n.setClient unixNano random).1.drop 12 = n.1.drop 12 := by
  show (((Octets.ofNat 8 unixNano.toNat).1 ++ random.1) ++ n.1.drop 12).drop 12 = _
  rw [List.drop_left' (by simp)]

@[simp] theorem clientHalf_setServer (n : Nonce) (random : Octets 4) (unixNano : UInt64) :
    clientHalf (n.setServer random unixNano) = clientHalf n := by
  apply Octets.ext
  show (n.1.take 12 ++ random.1 ++ (Octets.ofNat 8 unixNano.toNat).1).take 12 = n.1.take 12
  rw [List.append_assoc, List.take_left' (by simp [nonceSize])]

namespace EncryptedQuery

variable {c : Crypto}

theorem fields (magic : Octets clientMagicSize) (pk : Key) (half : Octets 12) (box : Bytes) :
    let query := magic.1 ++ (pk.1 ++ (half.1 ++ box))
    array query 0 clientMagicSize = (.ok magic : Result Err _) ∧
    array query clientMagicSize keySize = (.ok pk : Result Err _) ∧
    array query (clientMagicSize + keySize) 12 = (.ok half : Result Err _) ∧
    sliceFrom query queryHeaderLength = (.ok box : Result Err _) ∧
    query.length = queryHeaderLength + box.length := by
  refine ⟨?_, ?_, ?_, ?_, ?_⟩
  all_goals
    simp [array_skip, sliceFrom_skip, clientMagicSize, keySize, nonceSize, queryHeaderLength]
  omega

/-- What the server makes of a query that was encrypted for it. -/
theorem decrypt_encrypted (hc : c.Lawful) {q d : EncryptedQuery}
    (hes : d.esVersion = q.esVersion) (hmagic : d.clientMagic = q.clientMagic)
    (hpad : d.nonce.1.drop 12 = q.nonce.1.drop 12) {serverSecretKey sharedKey : Key}
    (hkey : computeSharedKey c q.esVersion serverSecretKey q.clientPk = .ok sharedKey)
    {unixNano : UInt64} {random : Octets 4} {packet query : Bytes} {nonce : Nonce}
    (henc : q.encrypt c unixNano random packet sharedKey = .ok (query, nonce)) :
    d.decrypt c query serverSecretKey = do
      let p ← (unpad (pad packet)).mapError (.annotated "remove packet padding")
      return (p, { q with nonce }) := by
  have hdrop : d.nonce.1.drop 12 = (q.nonce.setClient unixNano random).1.drop 12 := by
    rw [hpad, Nonce.drop_setClient]
  simp only [encrypt] at henc
  obtain ⟨box, hseal, hquery⟩ := Result.bind_eq_ok.mp henc
  cases hquery
  generalize q.nonce.setClient unixNano random = nonce at hdrop hseal ⊢
  obtain ⟨hm, hpk, hhalf, hrest, hlength⟩ := fields q.clientMagic q.clientPk (clientHalf nonce) box
  have hlong : ¬ (q.clientMagic.1 ++ (q.clientPk.1 ++ ((clientHalf nonce).1 ++ box))).length <
      queryHeaderLength + tagSize + minDNSPacketSize := by
    have hbox := sealES_length hc hseal
    have hle := minDNSPacketSize_le_length_pad packet
    omega
  rw [decrypt, if_neg hlong]
  simp only [hm, hpk, hhalf, hrest, hmagic, hes, hkey, Nonce.copyClient_clientHalf hdrop,
    sealES_opens hc hseal, Result.ok_bind, Result.mapError_ok, ne_eq, not_true_eq_false, if_false]

/-- A query is decrypted to the packet that was encrypted, and to the client's public key and
nonce, by whoever has the same magic and comes to the same key. -/
theorem decrypt_encrypt (hc : c.Lawful) (q d : EncryptedQuery) (hes : d.esVersion = q.esVersion)
    (hmagic : d.clientMagic = q.clientMagic) (hpad : d.nonce.1.drop 12 = q.nonce.1.drop 12)
    {serverSecretKey sharedKey : Key}
    (hkey : computeSharedKey c q.esVersion serverSecretKey q.clientPk = .ok sharedKey)
    (unixNano : UInt64) (random : Octets 4) (packet : Bytes)
    (hlen : minDNSPacketSize ≤ packet.length) :
    ∃ query nonce, q.encrypt c unixNano random packet sharedKey = .ok (query, nonce) ∧
      d.decrypt c query serverSecretKey = .ok (packet, { q with nonce }) := by
  obtain ⟨box, hseal, -⟩ := sealES_spec hc (supported_of_computeSharedKey hkey)
    (q.nonce.setClient unixNano random) (pad packet) sharedKey
  obtain ⟨r, henc⟩ : ∃ r, q.encrypt c unixNano random packet sharedKey = .ok r :=
    ⟨_, by rw [encrypt, hseal]; rfl⟩
  refine ⟨r.1, r.2, henc, ?_⟩
  rw [decrypt_encrypted hc hes hmagic hpad hkey henc, unpad_pad packet hlen]
  rfl

theorem decrypt_short (d : EncryptedQuery) (query : Bytes) (serverSecretKey : Key)
    (h : query.length < queryHeaderLength + tagSize + minDNSPacketSize) :
    d.decrypt c query serverSecretKey = .error .invalidQuery := if_pos h

theorem decrypt_magic (d : EncryptedQuery) (query : Bytes) (serverSecretKey : Key)
    (hlen : queryHeaderLength + tagSize + minDNSPacketSize ≤ query.length)
    (h : query.take clientMagicSize ≠ d.clientMagic.1) :
    d.decrypt c query serverSecretKey = .error .invalidClientMagic := by
  obtain ⟨magic, hread, hval⟩ := @array_of_le Err query 0 clientMagicSize
    (Nat.le_trans (by decide) hlen)
  have hne : magic ≠ d.clientMagic := by
    rintro rfl
    exact h hval.symm
  rw [decrypt, if_neg (Nat.not_lt.mpr hlen), hread, Result.ok_bind, if_pos hne]

theorem decrypt_safe (d : EncryptedQuery) (query : Bytes) (serverSecretKey : Key) :
    (d.decrypt c query serverSecretKey).Safe := by
  rw [decrypt]
  split
  · exact Result.safe_error _
  · next hlen =>
    have hle := Nat.le_of_not_lt hlen
    have harray : ∀ i n, i + n ≤ queryHeaderLength → (array query i n : Result Err _).Safe :=
      fun i n h => array_safe (Nat.le_trans h (Nat.le_trans (by decide) hle))
    refine (harray 0 _ (by decide)).bind fun magic => ?_
    split
    · exact Result.safe_error _
    · refine (harray _ _ (by decide)).bind fun clientPk => ?_
      refine ((Result.safe_mapError _ _).mpr (computeSharedKey_safe _ _)).bind fun _ => ?_
      refine (harray _ _ (by decide)).bind fun _ => ?_
      refine (sliceFrom_safe (Nat.le_trans (by decide) hle)).bind fun _ => ?_
      refine (openES_safe _ _ _).bind fun padded => ?_
      exact ((Result.safe_mapError _ _).mpr (unpad_safe padded)).bind fun _ => Result.safe_ok _

end EncryptedQuery

/-! ## Responses -/

namespace EncryptedResponse

variable {c : Crypto}

theorem fields (nonce : Nonce) (box : Bytes) :
    let response := resolverMagic.1 ++ (nonce.1 ++ box)
    array response 0 resolverMagicSize = (.ok resolverMagic : Result Err _) ∧
    array response resolverMagicSize nonceSize = (.ok nonce : Result Err _) ∧
    sliceFrom response (nonceSize + resolverMagicSize) = (.ok box : Result Err _) ∧
    response.length = responseHeaderLength + box.length := by
  refine ⟨?_, ?_, ?_, ?_⟩
  all_goals
    simp [array_skip, sliceFrom_skip, resolverMagicSize, nonceSize, responseHeaderLength]
  omega

theorem length_encrypt (hc : c.Lawful) {r : EncryptedResponse} {random : Octets 4}
    {unixNano : UInt64} {packet response : Bytes} {sharedKey : Key}
    (h : r.encrypt c random unixNano packet sharedKey = .ok response) :
    response.length = responseHeaderLength + (paddedSize packet.length + tagSize) := by
  simp only [encrypt] at h
  generalize r.nonce.setServer random unixNano = nonce at h
  cases hseal : sealES c r.esVersion nonce (pad packet) sharedKey with
  | ok box =>
    rw [hseal] at h
    cases h
    rw [(fields nonce box).2.2.2, sealES_length hc hseal, length_pad]
  | error e =>
    rw [hseal] at h
    cases h
  | panic =>
    rw [hseal] at h
    cases h

/-- What a client makes of a response: that to another client's query it refuses. -/
theorem decrypt_encrypted (hc : c.Lawful) {r d : EncryptedResponse}
    (hes : d.esVersion = r.esVersion) {random : Octets 4} {unixNano : UInt64}
    {packet response : Bytes} {sharedKey : Key}
    (henc : r.encrypt c random unixNano packet sharedKey = .ok response) (clientNonce : Nonce) :
    d.decrypt c response sharedKey clientNonce =
      if clientHalf r.nonce = clientHalf clientNonce then
        (unpad (pad packet)).mapError (.annotated "removing packet padding")
      else .error .unexpectedNonce := by
  have hhalf : clientHalf (r.nonce.setServer random unixNano) = clientHalf r.nonce :=
    clientHalf_setServer ..
  simp only [encrypt] at henc
  obtain ⟨box, hseal, hresponse⟩ := Result.bind_eq_ok.mp henc
  cases hresponse
  generalize r.nonce.setServer random unixNano = nonce at hhalf hseal ⊢
  obtain ⟨hmagic, hread, hrest, hlength⟩ := fields nonce box
  have hlong : ¬ (resolverMagic.1 ++ (nonce.1 ++ box)).length <
      responseHeaderLength + tagSize + minDNSPacketSize := by
    have hbox := sealES_length hc hseal
    have hle := minDNSPacketSize_le_length_pad packet
    omega
  rw [decrypt, if_neg hlong]
  simp only [hmagic, hread, hrest, hhalf, hes, sealES_opens hc hseal, Result.ok_bind, ne_eq,
    ite_not, if_true]

/-- A response is decrypted to the packet that was encrypted by whoever has the key and the
client's half of the nonce. -/
theorem decrypt_encrypt (hc : c.Lawful) (r : EncryptedResponse) (hes : Supported r.esVersion)
    (clientNonce : Nonce) (hnonce : clientHalf r.nonce = clientHalf clientNonce)
    (random : Octets 4) (unixNano : UInt64) (packet : Bytes)
    (hlen : minDNSPacketSize ≤ packet.length) (sharedKey : Key) :
    ∃ response, r.encrypt c random unixNano packet sharedKey = .ok response ∧
      ∀ d : EncryptedResponse, d.esVersion = r.esVersion →
        d.decrypt c response sharedKey clientNonce = .ok packet := by
  obtain ⟨box, hseal, -⟩ := sealES_spec hc hes (r.nonce.setServer random unixNano) (pad packet)
    sharedKey
  obtain ⟨response, henc⟩ : ∃ response, r.encrypt c random unixNano packet sharedKey =
      .ok response := ⟨_, by rw [encrypt, hseal]; rfl⟩
  refine ⟨response, henc, fun d hd => ?_⟩
  rw [decrypt_encrypted hc hd henc, if_pos hnonce, unpad_pad packet hlen]
  rfl

theorem decrypt_short (d : EncryptedResponse) (response : Bytes) (sharedKey : Key)
    (clientNonce : Nonce)
    (h : response.length < responseHeaderLength + tagSize + minDNSPacketSize) :
    d.decrypt c response sharedKey clientNonce = .error .invalidResponse := if_pos h

theorem decrypt_mismatch (d : EncryptedResponse) (response : Bytes) (sharedKey : Key)
    (clientNonce : Nonce)
    (hlen : responseHeaderLength + tagSize + minDNSPacketSize ≤ response.length) :
    (response.take resolverMagicSize ≠ resolverMagic.1 →
      d.decrypt c response sharedKey clientNonce = .error .invalidResolverMagic) ∧
    (response.take resolverMagicSize = resolverMagic.1 →
      (response.drop resolverMagicSize).take 12 ≠ clientNonce.1.take 12 →
      d.decrypt c response sharedKey clientNonce = .error .unexpectedNonce) := by
  obtain ⟨magic, hread, hval⟩ := @array_of_le Err response 0 resolverMagicSize
    (Nat.le_trans (by decide) hlen)
  obtain ⟨nonce, hnonce, hnval⟩ := @array_of_le Err response resolverMagicSize nonceSize
    (Nat.le_trans (by decide) hlen)
  rw [decrypt, if_neg (Nat.not_lt.mpr hlen), hread, Result.ok_bind]
  constructor
  · intro h
    have hne : magic ≠ resolverMagic := by
      rintro rfl
      exact h hval.symm
    rw [if_pos hne]
  · intro hmagic h
    have heq : magic = resolverMagic := Octets.ext (hval.trans hmagic)
    have hhalf : clientHalf nonce ≠ clientHalf clientNonce := by
      intro heq
      have htake : nonce.1.take 12 = clientNonce.1.take 12 := congrArg Octets.val heq
      rw [hnval, List.take_take] at htake
      exact h htake
    rw [if_neg (not_not.mpr heq), hnonce, Result.ok_bind, if_pos hhalf]

theorem decrypt_safe (d : EncryptedResponse) (response : Bytes) (sharedKey : Key)
    (clientNonce : Nonce) : (d.decrypt c response sharedKey clientNonce).Safe := by
  rw [decrypt]
  split
  · exact Result.safe_error _
  · next hlen =>
    have hle := Nat.le_of_not_lt hlen
    refine (array_safe (Nat.le_trans (by decide) hle)).bind fun magic => ?_
    split
    · exact Result.safe_error _
    · refine (array_safe (Nat.le_trans (by decide) hle)).bind fun nonce => ?_
      split
      · exact Result.safe_error _
      · refine (sliceFrom_safe (Nat.le_trans (by decide) hle)).bind fun _ => ?_
        exact (openES_safe _ _ _).bind fun padded =>
          (Result.safe_mapError _ _).mpr (unpad_safe padded)

end EncryptedResponse

/-! ## One side and the other -/

section Sides

variable {c : Crypto} {pf : Platform}

/-- The server gets the message that the client packed, with the client's public key and nonce. -/
theorem serverDecrypt_clientEncrypt (hc : c.Lawful) (cert : Certificate) (info : ResolverInfo)
    (hes : info.resolverCert.esVersion = cert.esVersion)
    (hmagic : info.resolverCert.clientMagic = cert.clientMagic)
    (hkey : computeSharedKey c cert.esVersion cert.resolverSk info.publicKey = .ok info.sharedKey)
    {maxQuerySize : Nat} {m m' : Msg} {packet : Bytes} (hpack : pf.pack m = some packet)
    (hunpack : pf.unpack packet = some m') (hlen : minDNSPacketSize ≤ packet.length)
    {unixNano : UInt64} {random : Octets 4} {msg : Bytes} {clientNonce : Nonce}
    (h : clientEncrypt c pf maxQuerySize unixNano random m info = .ok (msg, clientNonce)) :
    serverDecrypt c pf cert msg = .ok (m',
      { esVersion := cert.esVersion, clientMagic := cert.clientMagic
        clientPk := info.publicKey, nonce := clientNonce }) := by
  obtain ⟨query, nonce, henc, hdec⟩ := EncryptedQuery.decrypt_encrypt hc
    { esVersion := cert.esVersion, clientMagic := cert.clientMagic, clientPk := info.publicKey }
    { esVersion := cert.esVersion, clientMagic := cert.clientMagic } rfl rfl rfl hkey unixNano
    random packet hlen
  simp only [clientEncrypt, packMsg, hpack, hes, hmagic, henc, Result.ok_bind,
    Result.mapError_ok] at h
  split at h
  · cases h
  · cases h
    simp only [serverDecrypt, hdec, unpackMsg, hunpack, Result.ok_bind, Result.mapError_ok,
      Result.pure_eq]

/-- The client gets the message that the server packed for its query. -/
theorem clientDecrypt_serverEncrypt (hc : c.Lawful) (cert : Certificate) (info : ResolverInfo)
    (q : EncryptedQuery) (hes : info.resolverCert.esVersion = q.esVersion)
    (hkey : computeSharedKey c q.esVersion cert.resolverSk q.clientPk = .ok info.sharedKey)
    {m m' : Msg} {packet : Bytes} (hpack : pf.pack m = some packet)
    (hunpack : pf.unpack packet = some m') (hlen : minDNSPacketSize ≤ packet.length)
    (random : Octets 4) (unixNano : UInt64) :
    ∃ b, serverEncrypt c pf cert random unixNano m q = .ok b ∧
      clientDecrypt c pf b q.nonce info = .ok m' := by
  obtain ⟨response, henc, hopened⟩ := EncryptedResponse.decrypt_encrypt hc
    { esVersion := q.esVersion, nonce := q.nonce } (supported_of_computeSharedKey hkey) q.nonce rfl
    random unixNano packet hlen info.sharedKey
  have hdec := hopened { esVersion := q.esVersion } rfl
  refine ⟨response, ?_, ?_⟩
  · simp only [serverEncrypt, packMsg, hpack, hkey, henc, Result.ok_bind, Result.mapError_ok]
  · simp only [clientDecrypt, hes, hdec, unpackMsg, hunpack, Result.ok_bind, Result.mapError_ok]

end Sides

/-- Packets go through both ways, and what was not made by the other side is an error. -/
theorem encryption_roundTrip {c : Crypto} (hc : c.Lawful) (q d : EncryptedQuery)
    (hes : d.esVersion = q.esVersion) (hmagic : d.clientMagic = q.clientMagic)
    (hpad : d.nonce.1.drop 12 = q.nonce.1.drop 12) (clientSk resolverPk resolverSk sharedKey : Key)
    (hkey : computeSharedKey c q.esVersion clientSk resolverPk = .ok sharedKey)
    (hagree : computeSharedKey c q.esVersion resolverSk q.clientPk =
      computeSharedKey c q.esVersion clientSk resolverPk) :
    (∀ unixNano random packet, minDNSPacketSize ≤ packet.length →
      ∃ query nonce, q.encrypt c unixNano random packet sharedKey = .ok (query, nonce) ∧
        d.decrypt c query resolverSk = .ok (packet, { q with nonce }) ∧
        ∀ random' unixNano' reply, minDNSPacketSize ≤ reply.length →
          ∃ response,
            EncryptedResponse.encrypt c ⟨q.esVersion, nonce⟩ random' unixNano' reply sharedKey =
              .ok response ∧
            ∀ r : EncryptedResponse, r.esVersion = q.esVersion →
              r.decrypt c response sharedKey nonce = .ok reply) ∧
    (∀ (d : EncryptedQuery) query secretKey,
      (d.decrypt c query secretKey).Safe ∧
      (query.length < queryHeaderLength ∨ query.take clientMagicSize ≠ d.clientMagic.1 →
        ∃ e, d.decrypt c query secretKey = .error e)) ∧
    (∀ (r : EncryptedResponse) response key clientNonce,
      (r.decrypt c response key clientNonce).Safe ∧
      (response.length < responseHeaderLength ∨
          response.take resolverMagicSize ≠ resolverMagic.1 ∨
          (response.drop resolverMagicSize).take 12 ≠ clientNonce.1.take 12 →
        ∃ e, r.decrypt c response key clientNonce = .error e)) := by
  have hserver := hagree.trans hkey
  refine ⟨?_, ?_, ?_⟩
  · intro unixNano random packet hlen
    obtain ⟨query, nonce, henc, hdec⟩ :=
      EncryptedQuery.decrypt_encrypt hc q d hes hmagic hpad hserver unixNano random packet hlen
    refine ⟨query, nonce, henc, hdec, fun random' unixNano' reply hreply => ?_⟩
    exact EncryptedResponse.decrypt_encrypt hc ⟨q.esVersion, nonce⟩
      (supported_of_computeSharedKey hkey) nonce rfl random' unixNano' reply hreply sharedKey
  · intro d query secretKey
    refine ⟨d.decrypt_safe query secretKey, fun h => ?_⟩
    rcases Nat.lt_or_ge query.length (queryHeaderLength + tagSize + minDNSPacketSize) with
      hshort | hlong
    · exact ⟨_, d.decrypt_short query secretKey hshort⟩
    · rcases h with hheader | hother
      · exact absurd (Nat.lt_of_lt_of_le hheader (by decide)) (Nat.not_lt.mpr hlong)
      · exact ⟨_, d.decrypt_magic query secretKey hlong hother⟩
  · intro r response key clientNonce
    refine ⟨r.decrypt_safe response key clientNonce, fun h => ?_⟩
    rcases Nat.lt_or_ge response.length (responseHeaderLength + tagSize + minDNSPacketSize) with
      hshort | hlong
    · exact ⟨_, r.decrypt_short response key clientNonce hshort⟩
    · obtain ⟨hother, hnonce⟩ := r.decrypt_mismatch response key clientNonce hlong
      rcases h with hheader | hmagic | hhalf
      · exact absurd (Nat.lt_of_lt_of_le hheader (by decide)) (Nat.not_lt.mpr hlong)
      · exact ⟨_, hother hmagic⟩
      · by_cases hmagic : response.take resolverMagicSize = resolverMagic.1
        · exact ⟨_, hnonce hmagic hhalf⟩
        · exact ⟨_, hother hmagic⟩

/-- A box that only carries a tag; the keys are not looked at. -/
def tagCrypto : Crypto where
  xSharedKey _ _ := .ok (Octets.zero _)
  precompute _ _ := Octets.zero _
  xSeal nonce m _ := nonce.1.take tagSize ++ m
  xOpen nonce b _ :=
    if b.take tagSize = nonce.1.take tagSize then .ok (b.drop tagSize)
    else .error "ciphertext authentication failed"
  boxSeal m nonce _ := nonce.1.take tagSize ++ m
  boxOpen b nonce _ :=
    if b.take tagSize = nonce.1.take tagSize then some (b.drop tagSize) else none

theorem tagCrypto_lawful : tagCrypto.Lawful := by
  have hlen : ∀ nonce : Nonce, (nonce.1.take tagSize).length = tagSize := by
    intro nonce
    simp [tagSize, nonceSize]
  refine ⟨fun nonce m key => ?_, fun m nonce key => ?_, fun nonce m key => ?_,
    fun m nonce key => ?_⟩
  · simp only [tagCrypto, List.take_left' (hlen nonce), List.drop_left' (hlen nonce), if_true]
  · simp only [tagCrypto, List.take_left' (hlen nonce), List.drop_left' (hlen nonce), if_true]
  · show (nonce.1.take tagSize ++ m).length = _
    rw [List.length_append, hlen, Nat.add_comm]
  · show (nonce.1.take tagSize ++ m).length = _
    rw [List.length_append, hlen, Nat.add_comm]

def exampleCertificate : Certificate where
  serial := 1
  esVersion := xChacha20Poly1305
  signature := Octets.zero _
  resolverPk := Octets.zero _
  resolverSk := Octets.zero _
  clientMagic := Octets.ofNat 8 0x7465737463657274
  notBefore := 1700000000
  notAfter := 1800000000

def exampleEncryptedQuery : EncryptedQuery :=
  { esVersion := xChacha20Poly1305, clientMagic := exampleCertificate.clientMagic }

theorem encryption_roundTrip_seventeen :
    ∃ query nonce,
      exampleEncryptedQuery.encrypt tagCrypto 1 (Octets.zero 4) (List.replicate 17 0x80)
        (Octets.zero _) = .ok (query, nonce) ∧
      exampleEncryptedQuery.decrypt tagCrypto query (Octets.zero _) =
        .ok (List.replicate 17 0x80, { exampleEncryptedQuery with nonce }) := by
  obtain ⟨query, nonce, henc, hdec, -⟩ := (encryption_roundTrip tagCrypto_lawful
    exampleEncryptedQuery exampleEncryptedQuery rfl rfl rfl (Octets.zero _) (Octets.zero _)
    (Octets.zero _) (Octets.zero _) rfl rfl).1 1 (Octets.zero 4) (List.replicate 17 0x80)
    (by decide)
  exact ⟨query, nonce, henc, hdec⟩

end DnsProxy.DnsCrypt
