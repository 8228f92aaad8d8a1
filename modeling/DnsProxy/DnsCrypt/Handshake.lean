import DnsProxy.DnsCrypt.Encryption

/-!
# Fetching the certificate

A DNSCrypt client asks for the TXT record of the provider name and finds the certificate of
the resolver in it. The certificate is serialised and its bytes are escaped into a TXT
string on the one side, and the other way round, verified and compared on the other side.

* `unpackTxtString_packTxtString`: the escapes are read back.
* `parseAnswer_record`: what a client makes of the record with a server's certificate.
* `handshake_iff`: a handshake succeeds just if the provider name has no upper-case letter
  and does not end in an escaped dot, and the construction is one of the two known ones.
  The server compares the name in lower case with its own name as it was configured.
-/

namespace DnsProxy.DnsCrypt

open Checked

/-! ## TXT strings -/

/-- The escapes of the bytes below `0x20`. -/
def escapedByteSmall : Bytes := List.flatMap ascii
  ["\\000", "\\001", "\\002", "\\003", "\\004", "\\005", "\\006", "\\007", "\\008", "\\009",
   "\\010", "\\011", "\\012", "\\013", "\\014", "\\015", "\\016", "\\017", "\\018", "\\019",
   "\\020", "\\021", "\\022", "\\023", "\\024", "\\025", "\\026", "\\027", "\\028", "\\029",
   "\\030", "\\031"]

/-- The escapes of the bytes above `0x7e`. -/
def escapedByteLarge : Bytes := List.flatMap ascii
  ["\\127", "\\128", "\\129",
   "\\130", "\\131", "\\132", "\\133", "\\134", "\\135", "\\136", "\\137", "\\138", "\\139",
   "\\140", "\\141", "\\142", "\\143", "\\144", "\\145", "\\146", "\\147", "\\148", "\\149",
   "\\150", "\\151", "\\152", "\\153", "\\154", "\\155", "\\156", "\\157", "\\158", "\\159",
   "\\160", "\\161", "\\162", "\\163", "\\164", "\\165", "\\166", "\\167", "\\168", "\\169",
   "\\170", "\\171", "\\172", "\\173", "\\174", "\\175", "\\176", "\\177", "\\178", "\\179",
   "\\180", "\\181", "\\182", "\\183", "\\184", "\\185", "\\186", "\\187", "\\188", "\\189",
   "\\190", "\\191", "\\192", "\\193", "\\194", "\\195", "\\196", "\\197", "\\198", "\\199",
   "\\200", "\\201", "\\202", "\\203", "\\204", "\\205", "\\206", "\\207", "\\208", "\\209",
   "\\210", "\\211", "\\212", "\\213", "\\214", "\\215", "\\216", "\\217", "\\218", "\\219",
   "\\220", "\\221", "\\222", "\\223", "\\224", "\\225", "\\226", "\\227", "\\228", "\\229",
   "\\230", "\\231", "\\232", "\\233", "\\234", "\\235", "\\236", "\\237", "\\238", "\\239",
   "\\240", "\\241", "\\242", "\\243", "\\244", "\\245", "\\246", "\\247", "\\248", "\\249",
   "\\250", "\\251", "\\252", "\\253", "\\254", "\\255"]

/-- `escapeByte`; the bounds of the slices are computed on a byte and on an integer. -/
def escapeByte (b : UInt8) : Bytes :=
  if b < 0x20 then (escapedByteSmall.drop (b * 4).toNat).take 4
  else (escapedByteLarge.drop ((b - 0x7f).toNat * 4)).take 4

/-- One turn of the loop of `packTxtString`. -/
def packTxtByte (b : UInt8) : Bytes :=
  if b = 0x22 ∨ b = 0x5c then [0x5c, b]
  else if b < 0x20 ∨ b > 0x7e then escapeByte b
  else [b]

def packTxtString (buf : Bytes) : Bytes := buf.flatMap packTxtByte

def isDigitSequence (sequence : Bytes) : Bool := sequence.all fun c => !(c < 0x30 || c > 0x39)

/-- `dddToByte`, on bytes that wrap around. -/
def dddToByte (s₀ s₁ s₂ : UInt8) : UInt8 := (s₀ - 0x30) * 100 + (s₁ - 0x30) * 10 + (s₂ - 0x30)

def unescape (b : UInt8) : UInt8 :=
  if b = 0x74 then 9 else if b = 0x72 then 13 else if b = 0x6e then 10 else b

/-- `unpackTxtString`; a backslash at the end is dropped. -/
def unpackTxtString : Bytes → Bytes
  | [] => []
  | [b] => if b ≠ 0x5c then [b] else []
  | b :: e :: es =>
    if b ≠ 0x5c then b :: unpackTxtString (e :: es)
    else
      match es with
      | d :: f :: rest =>
        if isDigitSequence [e, d, f] then dddToByte e d f :: unpackTxtString rest
        else unescape e :: unpackTxtString (d :: f :: rest)
      | [d] => unescape e :: unpackTxtString [d]
      | [] => [unescape e]

/-- A backslash and the three digits of a byte. -/
def ddd (b : UInt8) : Bytes := [0x5c, 0x30 + b / 100, 0x30 + b / 10 % 10, 0x30 + b % 10]

theorem escapedBytes_eq :
    escapedByteSmall = (List.range 0x20).flatMap (fun n => ddd (UInt8.ofNat n)) ∧
    escapedByteLarge = (List.range 0x81).flatMap (fun n => ddd (UInt8.ofNat n + 0x7f)) := by
  decide +kernel

theorem take_drop_flatMap {f : Nat → Bytes} (hf : ∀ n, (f n).length = 4) {l : List Nat} {i n : Nat}
    (hi : l[i]? = some n) : ((l.flatMap f).drop (i * 4)).take 4 = f n := by
  induction l generalizing i with
  | nil => simp at hi
  | cons m l ih =>
    rw [List.flatMap_cons]
    cases i with
    | zero =>
      obtain rfl : m = n := by simpa using hi
      rw [Nat.zero_mul, List.drop_zero, List.take_left' (hf m)]
    | succ i =>
      have hskip : (i + 1) * 4 = (f m).length + i * 4 := by
        rw [hf m]
        omega
      rw [hskip, List.drop_length_add_append]
      exact ih (by simpa using hi)

theorem escapeByte_eq (b : UInt8) (hb : b < 0x20 ∨ b > 0x7e) : escapeByte b = ddd b := by
  rw [escapeByte, escapedBytes_eq.1, escapedBytes_eq.2]
  split
  · next h =>
    have hlt : b.toNat < 0x20 := UInt8.lt_iff_toNat_lt.mp h
    have hmul : (b * 4).toNat = b.toNat * 4 := by
      rw [UInt8.toNat_mul]
      exact Nat.mod_eq_of_lt (show b.toNat * 4 < 256 by omega)
    rw [hmul, take_drop_flatMap (fun _ => rfl) (List.getElem?_range hlt), UInt8.ofNat_toNat]
  · next h =>
    have hgt : 0x7e < b.toNat := UInt8.lt_iff_toNat_lt.mp (hb.resolve_left h)
    have hle : (0x7f : UInt8) ≤ b := UInt8.le_iff_toNat_le.mpr hgt
    have hsub : (b - 0x7f).toNat < 0x81 := by
      rw [UInt8.toNat_sub_of_le _ _ hle]
      exact Nat.sub_lt_right_of_lt_add hgt b.toNat_lt
    rw [take_drop_flatMap (fun _ => rfl) (List.getElem?_range hsub), UInt8.ofNat_toNat,
      UInt8.sub_add_cancel]

theorem ddd_digits : ∀ b : UInt8,
    isDigitSequence [0x30 + b / 100, 0x30 + b / 10 % 10, 0x30 + b % 10] = true ∧
    dddToByte (0x30 + b / 100) (0x30 + b / 10 % 10) (0x30 + b % 10) = b :=
  forall_byte (by decide +kernel)

theorem unpackTxtString_plain {b : UInt8} (hb : b ≠ 0x5c) (rest : Bytes) :
    unpackTxtString (b :: rest) = b :: unpackTxtString rest := by
  cases rest with
  | nil => simp [unpackTxtString, hb]
  | cons e es =>
    rw [unpackTxtString.eq_def]
    exact if_pos hb

theorem unpackTxtString_escaped {b : UInt8} (hb : b = 0x22 ∨ b = 0x5c) (rest : Bytes) :
    unpackTxtString (0x5c :: b :: rest) = b :: unpackTxtString rest := by
  have hself : unescape b = b := by rcases hb with rfl | rfl <;> rfl
  have hdigits : ∀ d f, isDigitSequence [b, d, f] = false := by
    rcases hb with rfl | rfl <;> intro d f <;> rfl
  match rest with
  | [] => simp [unpackTxtString, hself]
  | [d] => simp [unpackTxtString, hself]
  | d :: f :: rest => simp [unpackTxtString, hself, hdigits]

theorem unpackTxtString_byte (b : UInt8) (rest : Bytes) :
    unpackTxtString (packTxtByte b ++ rest) = b :: unpackTxtString rest := by
  unfold packTxtByte
  split
  · next hb => exact unpackTxtString_escaped hb rest
  · next hb =>
    split
    · next hrange =>
      obtain ⟨hdigits, hbyte⟩ := ddd_digits b
      rw [escapeByte_eq b hrange]
      simp [ddd, unpackTxtString, hdigits, hbyte]
    · exact unpackTxtString_plain (fun h => hb (.inr h)) rest

theorem unpackTxtString_packTxtString (buf : Bytes) :
    unpackTxtString (packTxtString buf) = buf := by
  induction buf with
  | nil => rfl
  | cons b buf ih =>
    show unpackTxtString (packTxtByte b ++ packTxtString buf) = _
    rw [unpackTxtString_byte, ih]

/-! ## Names -/

/-- `dns.IsFqdn` on an ASCII name: it ends in a dot after an even number of backslashes. -/
def isFqdn (s : Bytes) : Bool :=
  match s.reverse with
  | [] => false
  | b :: rest => b == 0x2e && (rest.takeWhile (· == 0x5c)).length % 2 == 0

/-- `dns.Fqdn`. -/
def fqdn (s : Bytes) : Bytes := if isFqdn s then s else s ++ [0x2e]

/-- The name that a client asks for. -/
def certName (providerName : Bytes) : Bytes :=
  if providerName.getLast? = some 0x2e then providerName else providerName ++ [0x2e]

/-! ## The server -/

structure ServerConfig where
  resolverCert : Option Certificate
  providerName : Bytes
  /-- The zero `netip.AddrPort` is `none`. -/
  addr : Option (Addr × UInt16)
  /-- A string that names no protocol is `none`. -/
  proto : Option Proto

/-- `ServerConfig.Validate`, at the time `now`. -/
def ServerConfig.validate (c : ServerConfig) (now : Int) : List Err :=
  (if c.providerName = [] then [.annotated "ProviderName" (.library "empty value")] else []) ++
  (if c.addr = none then [.annotated "Addr" (.library "empty value")] else []) ++
  (if c.resolverCert = none then [.annotated "ResolverCert" (.library "no value")] else []) ++
  (if c.proto = none then [.annotated "proto" (.library "bad enum value")] else []) ++
  (match c.resolverCert.bind fun cert => cert.validate now with
    | some err => [.annotated "ResolverCert" err]
    | none => [])

structure Server where
  providerName : Bytes
  resolverCert : Certificate

/-- `NewServer`. -/
def newServer (conf : ServerConfig) (now : Int) : Except (List Err) Server :=
  match conf.validate now, conf.resolverCert with
  | [], some cert => .ok ⟨conf.providerName, cert⟩
  | errs, _ => .error errs

/-- The body of TXT records in the message library. -/
structure TxtCodec where
  encode : List Bytes → Bytes
  decode : Bytes → List Bytes

def Server.getCertTXT (s : Server) : Bytes := packTxtString s.resolverCert.marshalBinary

section

variable (pf : Platform) (txt : TxtCodec)

/-- The reply to the query `m` for `q`. -/
def handshakeReply (m : Msg) (q : Question) (certTxt : Bytes) : Msg :=
  { Msg.setReply {} m with
    answer := [⟨q.name, classINET, 60, .other txtType (txt.encode [certTxt])⟩]
    authoritative := true
    recursionAvailable := true }

def Server.handleHandshake (s : Server) (b certTxt : Bytes) : Result Err Bytes := do
  let m ← unpackMsg pf b
  match m.question with
  | [q] =>
    if m.response then .error .invalidQuery
    else if q.qtype ≠ typeTXT ∨ toLower q.name ≠ fqdn s.providerName then .error .invalidQuery
    else
      match pf.pack (handshakeReply txt m q certTxt) with
      | some res => .ok res
      | none => .error (.library "pack")
  | _ => .error .invalidQuery

/-! ## The client -/

structure ServerStamp where
  providerName : Bytes
  serverPk : Bytes

variable (verify : Bytes → Bytes → Octets signatureSize → Result Err Bool) (now : Int)

def verifyCert (cert : Certificate) (serverPk : Bytes) : Result Err Unit :=
  if ¬ cert.verifyDate now then .error .invalidDate
  else do
    if ← cert.verifySignature verify serverPk then return ()
    else .error .invalidCertSignature

def certHasHigherPriority (prev current : Certificate) : Bool :=
  if prev.serial > current.serial then false
  else if prev.serial < current.serial then true
  else if current.esVersion ≤ prev.esVersion then false
  else true

/-- `cert == nil || certHasHigherPriority(cert, currentCert)`. -/
def takes (cert : Option Certificate) (current : Certificate) : Bool :=
  match cert with
  | none => true
  | some prev => certHasHigherPriority prev current

/-- The strings of a TXT record. -/
def txtStrings (rr : RR) : Option (List Bytes) :=
  match rr.rdata with
  | .other t data => if t.1 = typeTXT then some (txt.decode data) else none
  | _ => none

/-- One turn of the loop of `parseAnswer`. -/
def parseRecord (serverPk : Bytes) (cert : Option Certificate) (rr : RR) :
    Result Err (Option Certificate) :=
  match txtStrings txt rr with
  | none => .ok cert
  | some strings =>
    match Certificate.unmarshalBinary (unpackTxtString strings.flatten) with
    | .panic => .panic
    | .error _ => .ok cert
    | .ok current =>
      match verifyCert verify now current serverPk with
      | .panic => .panic
      | .error _ => .ok cert
      | .ok () => .ok (if takes cert current then some current else cert)

def parseAnswer (answer : List RR) (serverPk : Bytes) : Result Err (Option Certificate) :=
  answer.foldlM (parseRecord txt verify now serverPk) none

/-- The query of `fetchCert`, made by `SetQuestion`. -/
def certQuery (id : UInt16) (name : Bytes) : Msg :=
  { id, recursionDesired := true, question := [⟨name, typeTXT, classINET⟩] }

/-- The loop of `fetchCert` that reads messages until one has the id of the query. -/
def readReply (proto : Proto) (id : UInt16) : List Bytes → Result Err Msg
  | [] => .error (.annotated "sending dns query" (.library "read"))
  | b :: bs =>
    match pf.unpack b with
    | none => .error (.annotated "sending dns query" (.library "unpack"))
    | some r =>
      if r.id = id then .ok r
      else if proto = .tcp then .error (.annotated "sending dns query" (.library "id mismatch"))
      else readReply proto id bs

/-- `fetchCert`; `replies` are the messages that arrive after a query was sent. -/
def fetchCert (proto : Proto) (id : UInt16) (stamp : ServerStamp) (replies : Bytes → List Bytes) :
    Result Err Certificate :=
  match pf.pack (certQuery id (certName stamp.providerName)) with
  | none => .error (.annotated "sending certificate query" (.library "pack"))
  | some b => do
    let r ← readReply pf proto id (replies b)
    if r.rcode ≠ rcodeSuccess then .error .failedToFetchCert
    else
      match ← parseAnswer txt verify now r.answer stamp.serverPk with
      | some cert => .ok cert
      | none => .error (.library "no valid txt records")

/-- What a server sends for the bytes of a query. -/
def Server.replies (s : Server) (b : Bytes) : List Bytes :=
  match s.handleHandshake pf txt b s.getCertTXT with
  | .ok res => [res]
  | _ => []

end

/-! ## What is assumed of the message library -/

/-- The message goes through `Pack` and `Unpack`. -/
def Carries (pf : Platform) (m : Msg) : Prop :=
  ∃ b, pf.pack m = some b ∧ pf.unpack b = some { m with compress := false }

/-- A string that was escaped from at most 255 bytes goes through a TXT record. -/
def TxtCodec.RoundTrip (txt : TxtCodec) : Prop :=
  ∀ buf : Bytes, buf.length ≤ 255 → txt.decode (txt.encode [packTxtString buf]) =
    [packTxtString buf]

/-! ## When a handshake succeeds -/

/-- No byte is an upper-case letter. -/
def LowerCase (s : Bytes) : Prop := ∀ b ∈ s, ¬ (0x41 ≤ b ∧ b ≤ 0x5a)

instance (s : Bytes) : Decidable (LowerCase s) := List.decidableBAll _ s

theorem lowerByte_eq_iff : ∀ b : UInt8, lowerByte b = b ↔ ¬ (0x41 ≤ b ∧ b ≤ 0x5a) :=
  forall_byte (by decide +kernel)

theorem toLower_eq_self_iff (s : Bytes) : toLower s = s ↔ LowerCase s := by
  induction s with
  | nil => simp [toLower, LowerCase]
  | cons b s ih =>
    rw [toLower] at ih
    simp only [toLower, LowerCase, List.map_cons, List.cons.injEq, List.forall_mem_cons, ih,
      lowerByte_eq_iff]

theorem isFqdn_getLast? {s : Bytes} (h : isFqdn s = true) : s.getLast? = some 0x2e := by
  rw [← List.head?_reverse]
  unfold isFqdn at h
  split at h
  · cases h
  · next b rest hrev =>
    rw [hrev]
    simp only [Bool.and_eq_true, beq_iff_eq] at h
    rw [h.1, List.head?_cons]

theorem toLower_certName_iff (p : Bytes) :
    toLower (certName p) = fqdn p ↔
      LowerCase p ∧ (p.getLast? = some 0x2e → isFqdn p = true) := by
  unfold certName fqdn
  by_cases hfqdn : isFqdn p = true
  · rw [if_pos (isFqdn_getLast? hfqdn), if_pos hfqdn, toLower_eq_self_iff]
    exact ⟨fun h => ⟨h, fun _ => hfqdn⟩, fun h => h.1⟩
  · by_cases hdot : p.getLast? = some 0x2e
    · -- The client takes the escaped dot for the end of a name that is fully qualified.
      rw [if_pos hdot, if_neg hfqdn]
      constructor
      · intro h
        have hlen := congrArg List.length h
        simp [toLower] at hlen
      · rintro ⟨-, h⟩
        exact absurd (h hdot) hfqdn
    · rw [if_neg hdot, if_neg hfqdn, toLower_eq_self_iff]
      simp [LowerCase, or_imp, forall_and, hdot]

theorem newServer_ok {conf : ServerConfig} {now : Int} {s : Server}
    (h : newServer conf now = .ok s) : s.providerName = conf.providerName := by
  unfold newServer at h
  split at h
  · cases h
    rfl
  · cases h

section Handshake

variable {pf : Platform} {txt : TxtCodec}
  {verify : Bytes → Bytes → Octets signatureSize → Result Err Bool} {now : Int} {s : Server}
  {stamp : ServerStamp} {id : UInt16}

theorem handleHandshake_certQuery {name b : Bytes} (certTxt : Bytes)
    (hb : pf.unpack b = some (certQuery id name)) :
    s.handleHandshake pf txt b certTxt =
      if toLower name = fqdn s.providerName then
        match pf.pack
          (handshakeReply txt (certQuery id name) ⟨name, typeTXT, classINET⟩ certTxt) with
        | some res => .ok res
        | none => .error (.library "pack")
      else .error .invalidQuery := by
  simp only [Server.handleHandshake, unpackMsg, hb, Result.ok_bind]
  by_cases h : toLower name = fqdn s.providerName
  · simp [certQuery, h]
  · simp [certQuery, h]

/-- The record of a server with a valid certificate gives the certificate if its construction
is known, and nothing otherwise. -/
theorem parseAnswer_record (htxt : txt.RoundTrip) (hdate : s.resolverCert.verifyDate now = true)
    (hsignature : s.resolverCert.verifySignature verify stamp.serverPk = .ok true) (name : Bytes) :
    parseAnswer txt verify now
        [⟨name, classINET, 60, .other txtType (txt.encode [s.getCertTXT])⟩] stamp.serverPk =
      .ok (if Supported s.resolverCert.esVersion then some s.resolverCert.withoutSk
        else none) := by
  have hstrings : txtStrings txt
      ⟨name, classINET, 60, .other txtType (txt.encode [s.getCertTXT])⟩ =
        some [s.getCertTXT] := by
    show some (txt.decode (txt.encode [packTxtString s.resolverCert.marshalBinary])) = _
    rw [htxt _ (by rw [Certificate.length_marshalBinary]; decide)]
    rfl
  have hbytes : unpackTxtString [s.getCertTXT].flatten = s.resolverCert.marshalBinary := by
    rw [List.flatten_singleton, Server.getCertTXT, unpackTxtString_packTxtString]
  have hverify : verifyCert verify now s.resolverCert.withoutSk stamp.serverPk = .ok () := by
    simp [verifyCert, hdate, hsignature]
  rw [parseAnswer, List.foldlM_cons]
  simp only [parseRecord, hstrings, hbytes, Certificate.unmarshalBinary_marshalBinary]
  by_cases hes : Supported s.resolverCert.esVersion
  · simp [hes, hverify, takes]
  · simp [hes]

theorem fetchCert_replies (htxt : txt.RoundTrip) (hdate : s.resolverCert.verifyDate now = true)
    (hsignature : s.resolverCert.verifySignature verify stamp.serverPk = .ok true) (proto : Proto)
    (hquery : Carries pf (certQuery id (certName stamp.providerName)))
    (hreply : Carries pf (handshakeReply txt (certQuery id (certName stamp.providerName))
      ⟨certName stamp.providerName, typeTXT, classINET⟩ s.getCertTXT)) :
    fetchCert pf txt verify now proto id stamp (s.replies pf txt) =
      if toLower (certName stamp.providerName) = fqdn s.providerName then
        if Supported s.resolverCert.esVersion then .ok s.resolverCert.withoutSk
        else .error (.library "no valid txt records")
      else .error (.annotated "sending dns query" (.library "read")) := by
  obtain ⟨b, hpack, hunpack⟩ := hquery
  obtain ⟨res, hres, hparsed⟩ := hreply
  have hhandle := @handleHandshake_certQuery pf txt s id _ b s.getCertTXT hunpack
  rw [hres] at hhandle
  simp only [fetchCert, hpack, Server.replies, hhandle]
  by_cases hlower : toLower (certName stamp.providerName) = fqdn s.providerName
  · have hread : readReply pf proto id [res] = .ok (handshakeReply txt
        (certQuery id (certName stamp.providerName))
        ⟨certName stamp.providerName, typeTXT, classINET⟩ s.getCertTXT) := by
      simp only [readReply, hparsed]
      exact if_pos rfl
    have hanswer := parseAnswer_record htxt hdate hsignature (certName stamp.providerName)
    simp only [if_pos hlower, hread, Result.ok_bind, handshakeReply, hanswer]
    by_cases hes : Supported s.resolverCert.esVersion
    · simp [hes, rcodeSuccess, Msg.setReply]
    · simp [hes, rcodeSuccess, Msg.setReply]
  · simp only [if_neg hlower, readReply, Result.error_bind]

/-- A client that uses the stamp of a server gets the server's certificate, without the secret
key, just if the provider name has no upper-case letter and does not end in an escaped dot, and
the construction is known. -/
theorem handshake_iff (pf : Platform) (txt : TxtCodec) (htxt : txt.RoundTrip)
    (verify : Bytes → Bytes → Octets signatureSize → Result Err Bool) (conf : ServerConfig)
    (start now : Int) (s : Server) (hnew : newServer conf start = .ok s)
    (hdate : s.resolverCert.verifyDate now = true) (stamp : ServerStamp)
    (hsignature : s.resolverCert.verifySignature verify stamp.serverPk = .ok true)
    (hname : stamp.providerName = conf.providerName) (proto : Proto) (id : UInt16)
    (hquery : Carries pf (certQuery id (certName stamp.providerName)))
    (hreply : Carries pf (handshakeReply txt (certQuery id (certName stamp.providerName))
      ⟨certName stamp.providerName, typeTXT, classINET⟩ s.getCertTXT)) :
    fetchCert pf txt verify now proto id stamp (s.replies pf txt) = .ok s.resolverCert.withoutSk ↔
      LowerCase conf.providerName ∧
      (conf.providerName.getLast? = some 0x2e → isFqdn conf.providerName = true) ∧
      Supported s.resolverCert.esVersion := by
  rw [fetchCert_replies htxt hdate hsignature proto hquery hreply, newServer_ok hnew, hname,
    ← and_assoc, ← toLower_certName_iff]
  by_cases hlower : toLower (certName conf.providerName) = fqdn conf.providerName
  · by_cases hes : Supported s.resolverCert.esVersion
    · simp [hlower, hes]
    · simp [hlower, hes]
  · simp [hlower]

end Handshake

/-! ## Concrete handshakes -/

/-- The strings in `b`, each after its length. -/
def readStrings : Nat → Bytes → List Bytes
  | 0, _ => []
  | _, [] => []
  | fuel + 1, n :: b =>
    packTxtString (b.take n.toNat) :: readStrings fuel (b.drop n.toNat)

/-- TXT records with their strings one after the other. -/
def charStrings : TxtCodec where
  encode strings := strings.flatMap fun s =>
    UInt8.ofNat (unpackTxtString s).length :: unpackTxtString s
  decode b := readStrings b.length b

theorem charStrings_roundTrip : charStrings.RoundTrip := by
  intro buf hbuf
  have hlen : (UInt8.ofNat buf.length).toNat = buf.length := by
    rw [UInt8.toNat_ofNat']
    exact Nat.mod_eq_of_lt (Nat.lt_succ_of_le hbuf)
  simp only [charStrings, List.flatMap_singleton, unpackTxtString_packTxtString, List.length_cons,
    readStrings, hlen, List.take_length, List.drop_length]
  cases buf.length <;> rfl

def exampleServerConfig (providerName : Bytes) (esVersion : CryptoConstruction) : ServerConfig where
  resolverCert := some { exampleCertificate with esVersion }
  providerName := providerName
  addr := some ([127, 0, 0, 1], 443)
  proto := some .udp

def exampleServer (providerName : Bytes) (esVersion : CryptoConstruction) : Server :=
  ⟨providerName, { exampleCertificate with esVersion }⟩

theorem newServer_example {providerName : Bytes} {esVersion : CryptoConstruction}
    (hname : providerName ≠ []) (hes : esVersion ≠ undefinedConstruction) :
    newServer (exampleServerConfig providerName esVersion) 1750000000 =
      .ok (exampleServer providerName esVersion) := by
  have hdate : exampleCertificate.verifyDate 1750000000 = true := by decide +kernel
  have hvalid : Certificate.validate { exampleCertificate with esVersion } 1750000000 = none := by
    rw [Certificate.validate, if_neg hes]
    exact if_neg (not_not.mpr hdate)
  simp [newServer, ServerConfig.validate, exampleServerConfig, hname, hvalid, exampleServer]

/-- The wire forms of the query for `name` and of the reply with the certificate of `s`. -/
def certPlatform (s : Server) (name nameWire : Bytes) : Platform :=
  .ofTable [
    (certQuery 7 name, [0, 7, 1, 0, 0, 1, 0, 0, 0, 0, 0, 0] ++ nameWire ++ [0, 16, 0, 1]),
    (handshakeReply charStrings (certQuery 7 name) ⟨name, typeTXT, classINET⟩ s.getCertTXT,
      [0, 7, 0x85, 0x80, 0, 1, 0, 1, 0, 0, 0, 0] ++ nameWire ++ [0, 16, 0, 1] ++ nameWire ++
        [0, 16, 0, 1, 0, 0, 0, 60, 0, 125, 124] ++ s.resolverCert.marshalBinary)]

theorem certPlatform_carries (s : Server) (name nameWire : Bytes) :
    Carries (certPlatform s name nameWire) (certQuery 7 name) ∧
    Carries (certPlatform s name nameWire) (handshakeReply charStrings (certQuery 7 name)
      ⟨name, typeTXT, classINET⟩ s.getCertTXT) := by
  have hround : ∀ m, (certPlatform s name nameWire).RoundTrips m :=
    Platform.ofTable_roundTrips (by simp)
  have hne : certQuery 7 name ≠ handshakeReply charStrings (certQuery 7 name)
      ⟨name, typeTXT, classINET⟩ s.getCertTXT := by
    intro h
    have hresponse : false = true := congrArg Msg.response h
    cases hresponse
  constructor
  · obtain ⟨b, hpack⟩ : ∃ b, (certPlatform s name nameWire).pack (certQuery 7 name) = some b := by
      simp [certPlatform, Platform.ofTable]
    exact ⟨b, hpack, hround _ _ hpack⟩
  · obtain ⟨b, hpack⟩ : ∃ b, (certPlatform s name nameWire).pack (handshakeReply charStrings
        (certQuery 7 name) ⟨name, typeTXT, classINET⟩ s.getCertTXT) = some b := by
      simp [certPlatform, Platform.ofTable, hne]
    exact ⟨b, hpack, hround _ _ hpack⟩

/-- What the client gets that asks `exampleServer` for its certificate. -/
def exampleHandshake (providerName nameWire : Bytes) (esVersion : CryptoConstruction) :
    Result Err Certificate :=
  fetchCert (certPlatform (exampleServer providerName esVersion) (certName providerName) nameWire)
    charStrings (fun _ _ _ => .ok true) 1750000000 .udp 7 ⟨providerName, []⟩
    ((exampleServer providerName esVersion).replies
      (certPlatform (exampleServer providerName esVersion) (certName providerName) nameWire)
      charStrings)

theorem handshake_lower :
    exampleHandshake (ascii "2.example.org") ([1, 50] ++ exampleOrgWire) xChacha20Poly1305 =
      .ok exampleCertificate.withoutSk :=
  (handshake_iff _ charStrings charStrings_roundTrip (fun _ _ _ => .ok true)
    (exampleServerConfig (ascii "2.example.org") xChacha20Poly1305) 1750000000 1750000000
    (exampleServer (ascii "2.example.org") xChacha20Poly1305)
    (newServer_example (by decide) (by decide)) (by decide +kernel) ⟨ascii "2.example.org", []⟩
    rfl rfl .udp 7 (certPlatform_carries _ _ _).1 (certPlatform_carries _ _ _).2).mpr
    ⟨by decide +kernel, by decide +kernel, by decide +kernel⟩

theorem exampleHandshake_eq (providerName nameWire : Bytes) (esVersion : CryptoConstruction) :
    exampleHandshake providerName nameWire esVersion =
      if toLower (certName providerName) = fqdn providerName then
        if Supported esVersion then .ok { exampleCertificate.withoutSk with esVersion }
        else .error (.library "no valid txt records")
      else .error (.annotated "sending dns query" (.library "read")) :=
  have hdate : exampleCertificate.verifyDate 1750000000 = true := by decide +kernel
  have hcarries := certPlatform_carries (exampleServer providerName esVersion)
    (certName providerName) nameWire
  @fetchCert_replies _ charStrings (fun _ _ _ => .ok true) 1750000000
    (exampleServer providerName esVersion) ⟨providerName, []⟩ 7 charStrings_roundTrip hdate rfl .udp
    hcarries.1 hcarries.2

/-- A server with a capital letter in its provider name is accepted, and so is one with a
construction that does not exist. A client with the same provider name does not get the
certificate of either. -/
theorem handshake_incomplete :
    newServer (exampleServerConfig (ascii "2.Example.org") xChacha20Poly1305) 1750000000 =
      .ok (exampleServer (ascii "2.Example.org") xChacha20Poly1305) ∧
    exampleHandshake (ascii "2.Example.org") ([1, 50, 7, 69] ++ exampleOrgWire.drop 2)
      xChacha20Poly1305 = .error (.annotated "sending dns query" (.library "read")) ∧
    newServer (exampleServerConfig (ascii "2.example.org") 3) 1750000000 =
      .ok (exampleServer (ascii "2.example.org") 3) ∧
    exampleHandshake (ascii "2.example.org") ([1, 50] ++ exampleOrgWire) 3 =
      .error (.library "no valid txt records") := by
  have hupper : toLower (certName (ascii "2.Example.org")) ≠ fqdn (ascii "2.Example.org") := by
    decide +kernel
  have hlower : toLower (certName (ascii "2.example.org")) = fqdn (ascii "2.example.org") := by
    decide +kernel
  have hes : ¬ Supported 3 := by decide
  refine ⟨newServer_example (by decide) (by decide), ?_, newServer_example (by decide) (by decide),
    ?_⟩
  · rw [exampleHandshake_eq, if_neg hupper]
  · rw [exampleHandshake_eq, if_pos hlower, if_neg hes]

end DnsProxy.DnsCrypt
