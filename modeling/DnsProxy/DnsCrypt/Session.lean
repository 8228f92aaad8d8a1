import DnsProxy.DnsCrypt.Serving
import DnsProxy.Lib.Runs

/-!
# Sessions with a DNSCrypt server

A client that exchanges queries with a server over one connection. The two run at the same
time, and the bytes of each direction come in whatever pieces; the connection may break at
any time.

* `session_matched`: whatever the handler writes, a query is given the response that the server
  has made for it, and the client takes this response for no other query.
* `session_answered`: as long as the connection does not break, the queries are answered one
  after the other, and there is nothing else that the two can do.
-/

namespace DnsProxy.DnsCrypt

open Checked
open ByteStream (Reader)

theorem eq_of_unpad_pad {packet p : Bytes} (h : unpad (pad packet) = .ok p) : p = packet :=
  ((unpad_eq_ok_iff _ _).mp h).1.unique (isPadded_pad packet)

/-- The client has the certificate of the server, and comes to the same key. -/
structure Agrees (v : Serves) (info : ResolverInfo) : Prop where
  esVersion : info.resolverCert.esVersion = v.server.resolverCert.esVersion
  clientMagic : info.resolverCert.clientMagic = v.server.resolverCert.clientMagic
  sharedKey : computeSharedKey v.crypto v.server.resolverCert.esVersion
    v.server.resolverCert.resolverSk info.publicKey = .ok info.sharedKey

/-- The fields of the client's queries, but for the nonce. -/
def queryOf (v : Serves) (info : ResolverInfo) : EncryptedQuery :=
  { esVersion := v.server.resolverCert.esVersion
    clientMagic := v.server.resolverCert.clientMagic
    clientPk := info.publicKey }

/-- A message as it comes out of `Unpack`. -/
def uncompressed (m : Msg) : Msg := { m with compress := false }

/-- What a client asks, with the clock and the random bytes of its nonce. -/
structure Query where
  msg : Msg
  unixNano : UInt64
  random : Octets 4

namespace Query

/-- What makes the nonce of a query differ from those of others. -/
def stamp (q : Query) : UInt64 × Octets 4 := (q.unixNano, q.random)

/-- `Client.encrypt` of a client with this limit on the size of a query. -/
def wire (v : Serves) (info : ResolverInfo) (maxQuerySize : Nat) (q : Query) :
    Result Err (Bytes × Nonce) :=
  clientEncrypt v.crypto v.pf maxQuerySize q.unixNano q.random q.msg info

end Query

section Sides

variable {v : Serves} {info : ResolverInfo} {size : Nat} {q : Query} {b : Bytes} {nonce : Nonce}

theorem wire_eq_ok (hinfo : Agrees v info) (h : q.wire v info size = .ok (b, nonce)) :
    b.length ≤ size ∧ nonce = Nonce.setClient (Octets.zero nonceSize) q.unixNano q.random ∧
      ∃ packet, v.pf.pack q.msg = some packet ∧
        (queryOf v info).encrypt v.crypto q.unixNano q.random packet info.sharedKey =
          .ok (b, nonce) := by
  unfold Query.wire clientEncrypt at h
  obtain ⟨packet, hpack, h⟩ := Result.bind_eq_ok.mp h
  obtain ⟨⟨b', nonce'⟩, henc, h⟩ := Result.bind_eq_ok.mp h
  rw [Result.mapError_eq_ok, hinfo.esVersion, hinfo.clientMagic] at henc
  dsimp only at h
  split at h
  · cases h
  · next hle =>
    cases h
    refine ⟨Nat.le_of_not_lt hle, ?_, packet, ?_, henc⟩
    · obtain ⟨box, -, hb⟩ := Result.bind_eq_ok.mp henc
      cases hb
      rfl
    · exact packMsg_eq_ok.mp hpack

theorem wire_of_packed (hc : v.crypto.Lawful) (hinfo : Agrees v info) {p : Bytes}
    (hp : v.pf.pack q.msg = some p)
    (hsize : queryHeaderLength + (paddedSize p.length + tagSize) ≤ size) :
    ∃ b nonce, q.wire v info size = .ok (b, nonce) ∧
      b.length = queryHeaderLength + (paddedSize p.length + tagSize) := by
  obtain ⟨box, hseal, hbox, -⟩ := sealES_spec hc (supported_of_computeSharedKey hinfo.sharedKey)
    (Nonce.setClient (Octets.zero nonceSize) q.unixNano q.random) (pad p) info.sharedKey
  have hlength := (EncryptedQuery.fields info.resolverCert.clientMagic info.publicKey
    (clientHalf (Nonce.setClient (Octets.zero nonceSize) q.unixNano q.random)) box).2.2.2.2
  rw [hbox, length_pad] at hlength
  refine ⟨_, Nonce.setClient (Octets.zero nonceSize) q.unixNano q.random, ?_, hlength⟩
  simp only [Query.wire, clientEncrypt, packMsg, hp, EncryptedQuery.encrypt, hinfo.esVersion, hseal,
    Result.ok_bind, Result.mapError_ok, Result.pure_eq]
  rw [if_neg (Nat.not_lt.mpr (hlength.trans_le hsize))]

theorem isEncrypted_wire (hinfo : Agrees v info) (h : q.wire v info size = .ok (b, nonce)) :
    v.isEncrypted b = true := by
  obtain ⟨-, -, packet, -, henc⟩ := wire_eq_ok hinfo h
  obtain ⟨box, -, hb⟩ := Result.bind_eq_ok.mp henc
  cases hb
  exact decide_eq_true (List.take_left' (Octets.length_val _))

theorem request_of_serverDecrypt (hc : v.crypto.Lawful) (hquery : v.pf.RoundTrips q.msg)
    (hinfo : Agrees v info) (h : q.wire v info size = .ok (b, nonce)) {req : Msg}
    {query : EncryptedQuery}
    (hdec : serverDecrypt v.crypto v.pf v.server.resolverCert b = .ok (req, query)) :
    req = uncompressed q.msg ∧ query = { queryOf v info with nonce } := by
  obtain ⟨-, -, packet, hpack, henc⟩ := wire_eq_ok hinfo h
  unfold serverDecrypt at hdec
  obtain ⟨⟨p, query'⟩, hopened, hdec⟩ := Result.bind_eq_ok.mp hdec
  have hdecrypt := EncryptedQuery.decrypt_encrypted (q := queryOf v info) hc
    (d := { esVersion := v.server.resolverCert.esVersion
            clientMagic := v.server.resolverCert.clientMagic }) rfl rfl rfl hinfo.sharedKey henc
  rw [Result.mapError_eq_ok, hdecrypt] at hopened
  obtain ⟨_, hp, hopened⟩ := Result.bind_eq_ok.mp hopened
  cases hopened
  obtain rfl := eq_of_unpad_pad (Result.mapError_eq_ok.mp hp)
  simp only [unpackMsg, hquery _ hpack, Result.ok_bind, Result.pure_eq] at hdec
  cases hdec
  exact ⟨rfl, rfl⟩

theorem serverDecrypt_wire (hc : v.crypto.Lawful) (hinfo : Agrees v info) {p : Bytes}
    (hp : v.pf.pack q.msg = some p) (hback : v.pf.unpack p = some (uncompressed q.msg))
    (hshort : minDNSPacketSize ≤ p.length)
    (h : q.wire v info size = .ok (b, nonce)) :
    serverDecrypt v.crypto v.pf v.server.resolverCert b =
      .ok (uncompressed q.msg, { queryOf v info with nonce }) :=
  serverDecrypt_clientEncrypt hc v.server.resolverCert info hinfo.esVersion hinfo.clientMagic
    hinfo.sharedKey hp hback hshort h

theorem clientDecrypt_sealed (hc : v.crypto.Lawful) (hinfo : Agrees v info) {m r : Msg} {n : Nat}
    {enc : Bytes} {nonce' : Nonce} (henc : v.encrypt n m { queryOf v info with nonce } = .ok enc)
    (hdec : clientDecrypt v.crypto v.pf enc nonce' info = .ok r) :
    clientHalf nonce = clientHalf nonce' ∧
      ∃ packet, v.pf.pack m = some packet ∧ v.pf.unpack packet = some r := by
  unfold Serves.encrypt serverEncrypt at henc
  obtain ⟨packet, hpack, henc⟩ := Result.bind_eq_ok.mp henc
  obtain ⟨key, hkey, henc⟩ := Result.bind_eq_ok.mp henc
  cases hinfo.sharedKey.symm.trans (Result.mapError_eq_ok.mp hkey)
  unfold clientDecrypt at hdec
  obtain ⟨p, hp, hdec⟩ := Result.bind_eq_ok.mp hdec
  rw [Result.mapError_eq_ok,
    EncryptedResponse.decrypt_encrypted hc hinfo.esVersion henc] at hp
  split at hp
  · next hhalf =>
    obtain rfl := eq_of_unpad_pad (Result.mapError_eq_ok.mp hp)
    exact ⟨hhalf, _, packMsg_eq_ok.mp hpack, unpackMsg_eq_ok.mp hdec⟩
  · cases hp

end Sides

/-! ## The client and the server at work -/

/-- More bytes come in over a connection. -/
def push {ε : Type} (r : Reader ε) (b : Bytes) : Reader ε := { r with data := r.data ++ b }

@[simp] theorem data_push {ε : Type} (r : Reader ε) (b : Bytes) :
    (push r b).data = r.data ++ b := rfl

/-- A client and a server on one connection. `ExchangeConnContext` waits for the response
between its two parts. -/
structure Talk (ε : Type) where
  /-- What the client has not asked yet. -/
  todo : List Query
  /-- The nonce of the query that is not answered yet. -/
  waiting : Option Nonce := none
  /-- What the calls of `ExchangeConnContext` have returned. -/
  results : List (Result Err Msg) := []
  /-- The messages that the server has read, and the frames that the client has read, each with
  the number of the query for which it was read. Nothing depends on them but the turn of the
  handler. -/
  read : List Bytes := []
  taken : List (Nat × Bytes) := []
  /-- The bytes on their way to the server and to the client. -/
  up : Reader ε
  down : Reader ε
  drawn : Nat := 0
  /-- The server still handles the connection. -/
  isOpen : Bool := true

section Steps

variable {ε : Type}

/-- The connection ends for the client: it is closed, or the context is done. -/
def Talk.broken (t : Talk ε) : Talk ε :=
  { t with
    todo := [], waiting := none, isOpen := false
    results := if t.waiting.isSome then t.results ++ [.error (.library "read")] else t.results }

/-- The loop goes on after a message that was handled without an error. -/
def goesOn : Result Err Unit → Bool
  | .ok () => true
  | _ => false

inductive Step (v : Serves) (info : ResolverInfo) : Talk ε → Talk ε → Prop
  /-- `encrypt` and `writeQuery`. -/
  | send {t : Talk ε} {q : Query} {todo : List Query} {b : Bytes} {nonce : Nonce}
      {conn : Outgoing} :
      t.waiting = none → t.todo = q :: todo → q.wire v info maxMsgSize = .ok (b, nonce) →
      writePrefixedTo b {} = (none, conn) →
      Step v info t { t with todo, waiting := some nonce, up := push t.up conn.sent }
  | refuse {t : Talk ε} {q : Query} {todo : List Query} {err : Err} :
      t.waiting = none → t.todo = q :: todo → q.wire v info maxMsgSize = .error err →
      Step v info t { t with todo, results := t.results ++ [.error (.annotated "encrypting" err)] }
  /-- One turn of the loop in `handleTCPConnection`. -/
  | serve {t : Talk ε} {b : Bytes} {up : Reader ε} {res : Result Err Unit}
      {st : Sending Outgoing} :
      t.isOpen = true → DnsCrypt.readPrefixed t.up = (.ok b, up) →
      v.handleTCPMsg writeTCPResponse t.read.length b ⟨{}, t.drawn⟩ = (res, st) →
      Step v info t
        { t with
          up, down := push t.down st.out.sent, read := t.read ++ [b]
          drawn := st.drawn, isOpen := goesOn res }
  /-- `readResponse` and `decrypt`. -/
  | receive {t : Talk ε} {nonce : Nonce} {c : Bytes} {down : Reader ε} :
      t.waiting = some nonce → DnsCrypt.readPrefixed t.down = (.ok c, down) →
      Step v info t
        { t with
          waiting := none, down, taken := t.taken ++ [(t.results.length, c)]
          results := t.results ++ [(clientDecrypt v.crypto v.pf c nonce info).mapError
            (.annotated "decrypting response")] }
  | broken {t : Talk ε} : Step v info t t.broken

end Steps

theorem frames_of_readPrefixed {ε : Type} {conn conn' : Reader ε} {c : Bytes} (cs : List Bytes)
    (hread : DnsCrypt.readPrefixed conn = (.ok c, conn')) (hdata : conn.data = frames cs)
    (hcs : ∀ c ∈ cs, c.length ≤ 65535) : ∃ cs', cs = c :: cs' ∧ conn'.data = frames cs' := by
  cases cs with
  | nil =>
    have hframe := (data_of_readPrefixed .dnscrypt hread).1
    have hlen := congrArg List.length (hdata.symm.trans hframe)
    simp only [frames_nil, List.length_nil, List.length_append, length_frame] at hlen
    omega
  | cons c₁ cs' =>
    obtain ⟨conn₁, hfirst, hrest, -⟩ := readPrefixed_frame .dnscrypt
      (hcs c₁ List.mem_cons_self) (hdata.trans (frames_cons c₁ cs'))
    cases hread.symm.trans hfirst
    exact ⟨cs', rfl, hrest⟩

/-! ## Responses and their queries -/

section Matching

variable {ε : Type} {v : Serves} {info : ResolverInfo} {queries : List Query} {t t' : Talk ε}

/-- `r` is a response to `q`: what the handler writes for it, or the failure that the server
reports, after `normalize`. -/
def Serves.Responds (v : Serves) (turn : Nat) (q : Query) (r : Msg) : Prop :=
  ∃ m, v.Written .tcp turn (uncompressed q.msg) m ∧
    r = uncompressed (normalize v.pf .tcp (uncompressed q.msg) m)

/-- The query and the responses to it come out of `Unpack` as they were packed. -/
structure Legible (v : Serves) (q : Query) : Prop where
  query : v.pf.RoundTrips q.msg
  responses : ∀ turn m, v.Written .tcp turn (uncompressed q.msg) m →
    v.pf.RoundTrips (normalize v.pf .tcp (uncompressed q.msg) m)

/-- `b` is the message with the query `q`. -/
def Sent (v : Serves) (info : ResolverInfo) (queries : List Query) (b : Bytes) : Prop :=
  ∃ q ∈ queries, ∃ nonce, q.wire v info maxMsgSize = .ok (b, nonce)

/-- The client has taken `c` for the response `r` to the query with the number `i`. The server
made it for the message `b` with this query, and the client takes it for no other query. -/
structure Taken (v : Serves) (info : ResolverInfo) (queries : List Query) (t : Talk ε) (i : Nat)
    (r : Msg) (q : Query) (b c : Bytes) (nonce : Nonce) (turn : Nat) : Prop where
  query : queries[i]? = some q
  wire : q.wire v info maxMsgSize = .ok (b, nonce)
  taken : (i, c) ∈ t.taken
  read : t.read[turn]? = some b
  answers : v.Answers .tcp turn b c
  decrypted : clientDecrypt v.crypto v.pf c nonce info = .ok r
  responds : v.Responds turn q r
  others : ∀ j q' b' nonce' r', j ≠ i → queries[j]? = some q' →
    q'.wire v info maxMsgSize = .ok (b', nonce') →
    clientDecrypt v.crypto v.pf c nonce' info ≠ .ok r'

/-- What is on the way are queries and answers to them, and a result is a response to the
query with its number. -/
structure Matched (v : Serves) (info : ResolverInfo) (queries : List Query) (t : Talk ε) :
    Prop where
  todo : t.todo = [] ∨
    t.todo = queries.drop (t.results.length + if t.waiting.isSome then 1 else 0)
  waiting : ∀ nonce, t.waiting = some nonce →
    ∃ q b, queries[t.results.length]? = some q ∧ q.wire v info maxMsgSize = .ok (b, nonce)
  up : ∃ bs, t.up.data = frames bs ∧ ∀ b ∈ bs, b.length ≤ 65535 ∧ Sent v info queries b
  read : ∀ b ∈ t.read, Sent v info queries b
  down : ∃ cs, t.down.data = frames cs ∧
    ∀ c ∈ cs, c.length ≤ 65535 ∧ ∃ turn b, t.read[turn]? = some b ∧ v.Answers .tcp turn b c
  results : ∀ (i : Nat) (r : Msg), t.results[i]? = some (.ok r) →
    ∃ q b c nonce turn, Taken v info queries t i r q b c nonce turn

theorem val_clientHalf_setClient (n : Nonce) (q : Query) :
    (clientHalf (n.setClient q.unixNano q.random)).1 =
      BigEndian.encode 8 q.unixNano.toNat ++ q.random.1 :=
  List.take_left' (by simp)

theorem clientHalf_inj {q q' : Query} {n : Nonce}
    (h : clientHalf (n.setClient q.unixNano q.random) =
      clientHalf (n.setClient q'.unixNano q'.random)) : q.stamp = q'.stamp := by
  have hval := congrArg Octets.val h
  rw [val_clientHalf_setClient, val_clientHalf_setClient] at hval
  obtain ⟨htime, hrandom⟩ := List.append_inj hval (by simp)
  have htoNat : q.unixNano.toNat = q'.unixNano.toNat := by
    have hdecode := congrArg BigEndian.decode htime
    rwa [BigEndian.decode_encode_of_lt q.unixNano.toNat_lt,
      BigEndian.decode_encode_of_lt q'.unixNano.toNat_lt] at hdecode
  exact Prod.ext (UInt64.toNat_inj.mp htoNat) (Octets.ext hrandom)

theorem index_of_stamp (hstamps : (queries.map Query.stamp).Nodup) {i j : Nat} {q q' : Query}
    (hq : queries[i]? = some q) (hq' : queries[j]? = some q') (h : q.stamp = q'.stamp) :
    i = j := by
  have hi : i < (queries.map Query.stamp).length := by
    simpa using (List.getElem?_eq_some_iff.mp hq).1
  refine (List.getElem?_inj hi hstamps).mp ?_
  rw [List.getElem?_map, List.getElem?_map, hq, hq', Option.map_some, Option.map_some, h]

theorem stamp_of_clientDecrypt (hc : v.crypto.Lawful) (hinfo : Agrees v info) {q q' : Query}
    {b b' enc : Bytes} {nonce nonce' : Nonce} (hwire : q.wire v info maxMsgSize = .ok (b, nonce))
    (hwire' : q'.wire v info maxMsgSize = .ok (b', nonce')) {m r : Msg} {n : Nat}
    (henc : v.encrypt n m { queryOf v info with nonce } = .ok enc)
    (hdec : clientDecrypt v.crypto v.pf enc nonce' info = .ok r) : q.stamp = q'.stamp := by
  obtain ⟨hhalf, -⟩ := clientDecrypt_sealed hc hinfo henc hdec
  obtain ⟨-, rfl, -⟩ := wire_eq_ok hinfo hwire
  obtain ⟨-, rfl, -⟩ := wire_eq_ok hinfo hwire'
  exact clientHalf_inj hhalf

theorem taken_of_clientDecrypt (hc : v.crypto.Lawful) (hinfo : Agrees v info)
    (hlegible : ∀ q ∈ queries, Legible v q) (hstamps : (queries.map Query.stamp).Nodup) {i : Nat}
    {q : Query} {b b' c : Bytes} {nonce : Nonce} {turn : Nat} (hq : queries[i]? = some q)
    (hwire : q.wire v info maxMsgSize = .ok (b, nonce)) (hsent : Sent v info queries b')
    (hread : t.read[turn]? = some b') (hanswers : v.Answers .tcp turn b' c)
    (htaken : (i, c) ∈ t.taken) {r : Msg}
    (hdec : clientDecrypt v.crypto v.pf c nonce info = .ok r) :
    Taken v info queries t i r q b c nonce turn := by
  obtain ⟨q', hq', nonce', hwire'⟩ := hsent
  have hsealed := hanswers
  rw [Serves.Answers, if_pos (isEncrypted_wire hinfo hwire')] at hsealed
  obtain ⟨req, query, hreq, m, n, hm, henc⟩ := hsealed
  obtain ⟨rfl, rfl⟩ := request_of_serverDecrypt hc (hlegible q' hq').query hinfo hwire' hreq
  obtain rfl : q' = q := List.inj_on_of_nodup_map hstamps hq' (List.mem_of_getElem? hq)
    (stamp_of_clientDecrypt hc hinfo hwire' hwire henc hdec)
  cases hwire.symm.trans hwire'
  obtain ⟨-, packet, hpack, hunpack⟩ := clientDecrypt_sealed hc hinfo henc hdec
  refine ⟨hq, hwire, htaken, hread, hanswers, hdec, ⟨m, hm, ?_⟩, ?_⟩
  · have hround := (hlegible q' hq').responses turn m hm packet hpack
    exact Option.some.inj (hunpack.symm.trans hround)
  · intro j q₂ b₂ nonce₂ r₂ hj hq₂ hwire₂ hdec₂
    have hstamp := stamp_of_clientDecrypt hc hinfo hwire hwire₂ henc hdec₂
    exact hj (index_of_stamp hstamps hq₂ hq hstamp.symm)

theorem next_of_drop {q : Query} {todo : List Query} {n : Nat} (h : q :: todo = queries.drop n) :
    queries[n]? = some q ∧ todo = queries.drop (n + 1) := by
  constructor
  · rw [← Nat.add_zero n, ← List.getElem?_drop, ← h]
    rfl
  · rw [← List.drop_drop, ← h]
    rfl

theorem ok_of_concat {P : Nat → Msg → Prop} {results : List (Result Err Msg)}
    {x : Result Err Msg} (h : ∀ (i : Nat) (r : Msg), results[i]? = some (.ok r) → P i r)
    (hx : ∀ r, x = .ok r → P results.length r) (i : Nat) (r : Msg)
    (hi : (results ++ [x])[i]? = some (.ok r)) : P i r := by
  rcases Nat.lt_trichotomy i results.length with hlt | rfl | hgt
  · rw [List.getElem?_append_left hlt] at hi
    exact h i r hi
  · rw [List.getElem?_concat_length] at hi
    exact hx r (Option.some.inj hi)
  · rw [List.getElem?_eq_none (by simpa using Nat.succ_le_of_lt hgt)] at hi
    cases hi

theorem ok_of_concat_error {P : Nat → Msg → Prop} {results : List (Result Err Msg)} {e : Err}
    (h : ∀ (i : Nat) (r : Msg), results[i]? = some (.ok r) → P i r) (i : Nat) (r : Msg)
    (hi : (results ++ [.error e])[i]? = some (.ok r)) : P i r := by
  refine ok_of_concat h (fun r hr => ?_) i r hi
  cases hr

theorem getElem?_of_prefix {read read' : List Bytes} {turn : Nat} {b : Bytes} (h : read <+: read')
    (hb : read[turn]? = some b) : read'[turn]? = some b := by
  obtain ⟨rest, rfl⟩ := h
  rw [List.getElem?_append_left (List.getElem?_eq_some_iff.mp hb).1, hb]

theorem taken_mono {i : Nat} {r : Msg}
    (h : ∃ q b c nonce turn, Taken v info queries t i r q b c nonce turn)
    (hread : t.read <+: t'.read) (htaken : t.taken ⊆ t'.taken) :
    ∃ q b c nonce turn, Taken v info queries t' i r q b c nonce turn := by
  obtain ⟨q, b, c, nonce, turn, h⟩ := h
  exact ⟨q, b, c, nonce, turn,
    { h with taken := htaken h.taken, read := getElem?_of_prefix hread h.read }⟩

theorem Matched.step (hc : v.crypto.Lawful) (hinfo : Agrees v info)
    (hlegible : ∀ q ∈ queries, Legible v q) (hstamps : (queries.map Query.stamp).Nodup)
    (h : Matched v info queries t) (hstep : Step v info t t') : Matched v info queries t' := by
  cases hstep with
  | @send q todo b nonce conn hwaiting htodo hwire hwrite =>
    have hdrop := h.todo.resolve_left (by simp [htodo])
    rw [htodo, hwaiting] at hdrop
    obtain ⟨hq, hrest⟩ := next_of_drop hdrop
    obtain ⟨hlen, -⟩ := wire_eq_ok hinfo hwire
    have hsent : writePrefixedTo b {} = _ := writePrefixed_sent .dnscrypt hlen []
    obtain rfl := congrArg Prod.snd (hwrite.symm.trans hsent)
    refine ⟨.inr hrest, ?_, ?_, h.read, h.down, fun i r hi => ?_⟩
    · rintro _ ⟨⟩
      exact ⟨q, b, hq, hwire⟩
    · obtain ⟨bs, hup, hbs⟩ := h.up
      refine ⟨bs ++ [b], by simp [hup], ?_⟩
      rw [List.forall_mem_append, List.forall_mem_singleton]
      exact ⟨hbs, hlen, q, List.mem_of_getElem? hq, nonce, hwire⟩
    · exact taken_mono (h.results i r hi) (List.prefix_refl _) (List.Subset.refl _)
  | @refuse q todo err hwaiting htodo hwire =>
    have hdrop := h.todo.resolve_left (by simp [htodo])
    rw [htodo, hwaiting] at hdrop
    obtain ⟨-, hrest⟩ := next_of_drop hdrop
    refine ⟨.inr ?_, ?_, h.up, h.read, h.down, fun i r hi => ?_⟩
    · simpa [hwaiting] using hrest
    · intro nonce hnonce
      cases hwaiting.symm.trans hnonce
    · exact taken_mono (ok_of_concat_error h.results i r hi) (List.prefix_refl _)
        (List.Subset.refl _)
  | @serve b up res st hopen hread hmsg =>
    obtain ⟨bs, hup, hbs⟩ := h.up
    obtain ⟨bs', rfl, hup'⟩ := frames_of_readPrefixed bs hread hup fun b hb => (hbs b hb).1
    obtain ⟨⟨-, hsent⟩, hbs'⟩ := List.forall_mem_cons.mp hbs
    obtain ⟨cs, hdown, hcs⟩ := h.down
    obtain ⟨-, rfl⟩ :=
      Prod.mk.inj ((Serves.handleTCPMsg_frames t.read.length t.drawn b []).symm.trans hmsg)
    refine ⟨h.todo, h.waiting, ⟨bs', hup', hbs'⟩, ?_,
      ⟨cs ++ (v.replyTo t.read.length t.drawn b).2.out, ?_, ?_⟩, fun i r hi => ?_⟩
    · exact List.forall_mem_append.mpr ⟨h.read, List.forall_mem_singleton.mpr hsent⟩
    · rw [frames_append, ← hdown]
      rfl
    · refine List.forall_mem_append.mpr ⟨fun c hc => ?_, fun c hc => ?_⟩
      · obtain ⟨hle, turn, b', hb', hanswers⟩ := hcs c hc
        exact ⟨hle, turn, b', getElem?_of_prefix (List.prefix_append _ _) hb', hanswers⟩
      · obtain ⟨hle, hanswers⟩ := Serves.answers_of_replyTo hc
        exact ⟨hle, t.read.length, b, List.getElem?_concat_length, hanswers⟩
    · exact taken_mono (h.results i r hi) (List.prefix_append _ _) (List.Subset.refl _)
  | @receive nonce c down hwaiting hread =>
    obtain ⟨q, b, hq, hwire⟩ := h.waiting nonce hwaiting
    obtain ⟨cs, hdown, hcs⟩ := h.down
    obtain ⟨cs', rfl, hdown'⟩ := frames_of_readPrefixed cs hread hdown fun c hc => (hcs c hc).1
    obtain ⟨⟨-, turn, b', hturn, hanswers⟩, hcs'⟩ := List.forall_mem_cons.mp hcs
    refine ⟨?_, by simp, h.up, h.read, ⟨cs', hdown', hcs'⟩, ?_⟩
    · simpa [hwaiting] using h.todo
    · refine ok_of_concat (fun i r hi => ?_) fun r hr => ?_
      · exact taken_mono (h.results i r hi) (List.prefix_refl _) (List.subset_append_left _ _)
      · refine ⟨q, b, c, nonce, turn, ?_⟩
        refine taken_of_clientDecrypt hc hinfo hlegible hstamps hq hwire
          (h.read b' (List.mem_of_getElem? hturn)) ?_ hanswers ?_ (Result.mapError_eq_ok.mp hr)
        · exact hturn
        · exact List.mem_append_right _ List.mem_cons_self
  | broken =>
    refine ⟨.inl rfl, by simp [Talk.broken], h.up, h.read, h.down, fun i r hi => ?_⟩
    refine taken_mono ?_ (List.prefix_refl t.read) (List.Subset.refl t.taken)
    unfold Talk.broken at hi
    dsimp only at hi
    split at hi
    · exact ok_of_concat_error h.results i r hi
    · exact h.results i r hi

/-- Whatever the handler writes, and in whatever order the two sides work: what a client gets
as the response to a query was made for that query, and it would take it for no other one. -/
theorem session_matched (hc : v.crypto.Lawful) (hinfo : Agrees v info)
    (hlegible : ∀ q ∈ queries, Legible v q) (hstamps : (queries.map Query.stamp).Nodup)
    {up down : Reader ε} (hup : up.data = []) (hdown : down.data = [])
    (hrun : Relation.ReflTransGen (Step v info) { todo := queries, up, down } t)
    (i : Nat) (r : Msg) (hr : t.results[i]? = some (.ok r)) :
    ∃ q b c nonce turn, Taken v info queries t i r q b c nonce turn := by
  suffices hmatched : Matched v info queries t from hmatched.results i r hr
  clear hr
  induction hrun with
  | refl =>
    exact ⟨.inr rfl, by simp, ⟨[], hup, by simp⟩, by simp, ⟨[], hdown, by simp⟩, by simp⟩
  | tail _ hstep ih => exact ih.step hc hinfo hlegible hstamps hstep

end Matching

/-! ## Answers to all queries -/

/-- The response that a client gets if the handler writes `reply`. -/
def Serves.response (v : Serves) (q : Query) (reply : Msg) : Msg :=
  uncompressed (normalize v.pf .tcp (uncompressed q.msg) reply)

/-- A query that the server takes, with a handler that writes one message for it on this turn,
which is neither too short for a packet nor too long for a frame. -/
structure Fits (v : Serves) (turn : Nat) (q : Query) (reply : Msg) : Prop where
  packed : ∃ p, v.pf.pack q.msg = some p ∧ v.pf.unpack p = some (uncompressed q.msg) ∧
    minDNSPacketSize ≤ p.length ∧ p.length ≤ 65406
  question : q.msg.question.length = 1
  isQuery : q.msg.response = false
  handler : ∃ next, v.handler .tcp turn (uncompressed q.msg) = .write reply next ∧
    next none = .done none
  carried : ∃ p, v.pf.pack (normalize v.pf .tcp (uncompressed q.msg) reply) = some p ∧
    v.pf.unpack p = some (v.response q reply) ∧ minDNSPacketSize ≤ p.length ∧ p.length ≤ 65470

/-- The queries of a session, each with the message that is written for it. -/
def AllFit (v : Serves) (session : List (Query × Msg)) : Prop :=
  ∀ (turn : Nat) (e : Query × Msg), session[turn]? = some e → Fits v turn e.1 e.2

section Answering

variable {ε : Type} {v : Serves} {info : ResolverInfo} {session : List (Query × Msg)}
  {t t' : Talk ε} {turn : Nat} {q : Query} {reply : Msg}

theorem wire_of_fits (hc : v.crypto.Lawful) (hinfo : Agrees v info) (h : Fits v turn q reply) :
    ∃ b nonce, q.wire v info maxMsgSize = .ok (b, nonce) ∧ minDNSPacketSize ≤ b.length := by
  obtain ⟨p, hp, -, -, hlong⟩ := h.packed
  have hsize := paddedSize_eq p.length
  simp only [minUDPQuestionSize] at hsize
  have hfits : queryHeaderLength + (paddedSize p.length + tagSize) ≤ maxMsgSize := by
    simp only [maxMsgSize, queryHeaderLength, clientMagicSize, keySize, nonceSize, tagSize]
    omega
  obtain ⟨b, nonce, hwire, hlength⟩ := wire_of_packed hc hinfo hp hfits
  refine ⟨b, nonce, hwire, ?_⟩
  show 17 ≤ b.length
  omega

theorem serveDNS_one {σ : Type} {handler : Msg → Serving}
    {writeMsg : Msg → σ → Result Err Unit × σ} {req m : Msg} {next : Option Err → Serving}
    {st st' : σ} (hhandler : handler req = .write m next) (hnext : next none = .done none)
    (hwrite : writeMsg m st = (.ok (), st')) (hquestion : req.question.length = 1)
    (hquery : req.response = false) : serveDNS handler writeMsg req st = (.ok (), st') := by
  simp [serveDNS, hquestion, hquery, hhandler, Serving.run, hwrite, hnext]

theorem handleTCPMsg_wire (hc : v.crypto.Lawful) (hinfo : Agrees v info)
    (h : Fits v turn q reply) {b : Bytes} {nonce : Nonce}
    (hwire : q.wire v info maxMsgSize = .ok (b, nonce)) (drawn : Nat) :
    ∃ enc, v.handleTCPMsg writeTCPResponse turn b ⟨{}, drawn⟩ =
        (.ok (), ⟨⟨frame enc, none⟩, drawn + 1⟩) ∧
      enc.length ≤ 65535 ∧
      clientDecrypt v.crypto v.pf enc nonce info = .ok (v.response q reply) := by
  obtain ⟨p, hp, hunpack, hshort, -⟩ := h.packed
  obtain ⟨next, hhandler, hnext⟩ := h.handler
  obtain ⟨p', hp', hunpack', hshort', hlong'⟩ := h.carried
  have hdec := serverDecrypt_wire hc hinfo hp hunpack hshort hwire
  obtain ⟨enc, henc, hback⟩ := clientDecrypt_serverEncrypt hc v.server.resolverCert info
    { queryOf v info with nonce } hinfo.esVersion hinfo.sharedKey hp' hunpack' hshort'
    (v.draws.random drawn) (v.draws.unixNano drawn)
  have hle : enc.length ≤ 65535 := by
    rw [length_serverEncrypt hc hp' henc]
    exact (fits_iff p'.length 65535 (by decide)).mpr hlong'
  have hsent : writePrefixedTo enc {} = (none, ⟨frame enc, none⟩) :=
    writePrefixed_sent .dnscrypt hle []
  have hlen : ¬ b.length < minDNSPacketSize := by
    obtain ⟨b', nonce', hwire', hb⟩ := wire_of_fits hc hinfo h
    cases hwire.symm.trans hwire'
    exact Nat.not_lt.mpr hb
  have hwritten : v.tcpWriteMsg writeTCPResponse (uncompressed q.msg) { queryOf v info with nonce }
      reply ⟨{}, drawn⟩ = (.ok (), ⟨⟨frame enc, none⟩, drawn + 1⟩) := by
    rw [Serves.tcpWriteMsg, Serves.encrypt, henc, Result.mapError_ok]
    simp only [writeTCPResponse, hsent]
  have hserved := serveDNS_one hhandler hnext hwritten h.question h.isQuery
  refine ⟨enc, ?_, hle, hback⟩
  simp only [Serves.handleTCPMsg, if_neg hlen, isEncrypted_wire hinfo hwire, Bool.true_eq_false,
    if_false, hdec, hserved, Result.mapError_ok]

/-- The results of the first `k` queries. -/
def Serves.answers (v : Serves) (session : List (Query × Msg)) (k : Nat) :
    List (Result Err Msg) :=
  (session.take k).map fun e => .ok (v.response e.1 e.2)

/-- Where a session is after so many steps: at the next query, with a query on its way, or
with a response. -/
inductive Phase (v : Serves) (info : ResolverInfo) (session : List (Query × Msg)) :
    Nat → Talk ε → Prop
  | idle {t : Talk ε} {k : Nat} : k ≤ session.length → t.isOpen = true →
      t.results = v.answers session k → t.waiting = none →
      t.todo = (session.drop k).map Prod.fst → t.up.data = [] → t.down.data = [] →
      t.read.length = k →
      Phase v info session (3 * k) t
  | asked {t : Talk ε} {k : Nat} {e : Query × Msg} {b : Bytes} {nonce : Nonce} :
      session[k]? = some e → t.isOpen = true → t.results = v.answers session k →
      t.waiting = some nonce → t.todo = (session.drop (k + 1)).map Prod.fst →
      e.1.wire v info maxMsgSize = .ok (b, nonce) → t.up.data = frame b → t.down.data = [] →
      t.read.length = k →
      Phase v info session (3 * k + 1) t
  | told {t : Talk ε} {k : Nat} {e : Query × Msg} {c : Bytes} {nonce : Nonce} :
      session[k]? = some e → t.isOpen = true → t.results = v.answers session k →
      t.waiting = some nonce → t.todo = (session.drop (k + 1)).map Prod.fst →
      t.up.data = [] → t.down.data = frame c → c.length ≤ 65535 →
      clientDecrypt v.crypto v.pf c nonce info = .ok (v.response e.1 e.2) →
      t.read.length = k + 1 →
      Phase v info session (3 * k + 2) t

theorem isOpen_of_step (hstep : Step v info t t') (h : t'.isOpen = true) : t.isOpen = true := by
  cases hstep with
  | send => exact h
  | refuse => exact h
  | serve hopen => exact hopen
  | receive => exact h
  | broken => cases h

theorem not_readPrefixed_nil {conn conn' : Reader ε} {b : Bytes} (hdata : conn.data = []) :
    DnsCrypt.readPrefixed conn ≠ (.ok b, conn') := by
  intro hread
  obtain ⟨cs, hcs, -⟩ := frames_of_readPrefixed [] hread hdata nofun
  cases hcs

theorem answers_succ {k : Nat} {e : Query × Msg} (he : session[k]? = some e) :
    v.answers session (k + 1) = v.answers session k ++ [.ok (v.response e.1 e.2)] := by
  rw [Serves.answers, List.take_add_one, he]
  simp [Serves.answers]

theorem next_of_session {todo : List Query} {k : Nat}
    (h : q :: todo = (session.drop k).map Prod.fst) :
    ∃ e, session[k]? = some e ∧ e.1 = q ∧ todo = (session.drop (k + 1)).map Prod.fst := by
  rw [List.map_drop] at h
  obtain ⟨hq, hrest⟩ := next_of_drop h
  rw [List.getElem?_map] at hq
  obtain ⟨e, he, heq⟩ := Option.map_eq_some_iff.mp hq
  exact ⟨e, he, heq, List.map_drop ▸ hrest⟩

/-- In each phase there is one thing that can be done, and it leads to the next phase, unless
the connection breaks. -/
theorem Phase.step (hc : v.crypto.Lawful) (hinfo : Agrees v info)
    (hfits : AllFit v session) {n : Nat} (h : Phase v info session n t)
    (hstep : Step v info t t') (hopen' : t'.isOpen = true) : Phase v info session (n + 1) t' := by
  cases hstep with
  | broken => cases hopen'
  | @send q todo b nonce conn hwaiting htodo hwire hwrite =>
    cases h with
    | asked _ _ _ hwait => cases hwaiting.symm.trans hwait
    | told _ _ _ hwait => cases hwaiting.symm.trans hwait
    | @idle _ k hk hopen hresults _ hdrop hup hdown hturn =>
      obtain ⟨hlen, -⟩ := wire_eq_ok hinfo hwire
      have hsent : writePrefixedTo b {} = _ := writePrefixed_sent .dnscrypt hlen []
      obtain rfl := congrArg Prod.snd (hwrite.symm.trans hsent)
      obtain ⟨e, he, rfl, hrest⟩ := next_of_session (htodo.symm.trans hdrop)
      exact .asked he hopen hresults rfl hrest hwire (by simp [hup]) hdown hturn
  | @refuse q todo err hwaiting htodo hwire =>
    cases h with
    | asked _ _ _ hwait => cases hwaiting.symm.trans hwait
    | told _ _ _ hwait => cases hwaiting.symm.trans hwait
    | @idle _ k hk hopen hresults _ hdrop hup hdown =>
      obtain ⟨e, he, rfl, -⟩ := next_of_session (htodo.symm.trans hdrop)
      obtain ⟨b, nonce, hok, -⟩ := wire_of_fits hc hinfo (hfits k e he)
      cases hwire.symm.trans hok
  | @serve b up res st _ hread hmsg =>
    cases h with
    | idle _ _ _ _ _ hup => exact absurd hread (not_readPrefixed_nil hup)
    | told _ _ _ _ _ hup => exact absurd hread (not_readPrefixed_nil hup)
    | @asked _ k e b' nonce he hopen hresults hwait hdrop hwire hup hdown hturn =>
      obtain ⟨hlen, -⟩ := wire_eq_ok hinfo hwire
      obtain ⟨bs, hbs, hrest⟩ := frames_of_readPrefixed [b'] hread (by simp [hup])
        (by simpa using hlen)
      cases hbs
      obtain ⟨enc, hserved, hle, hdec⟩ :=
        handleTCPMsg_wire hc hinfo (hfits k e he) hwire t.drawn
      rw [hturn, hserved] at hmsg
      cases hmsg
      exact .told he rfl hresults hwait hdrop hrest (by simp [hdown]) hle hdec (by simp [hturn])
  | @receive nonce c down hwaiting hread =>
    cases h with
    | idle _ _ _ hwait => cases hwaiting.symm.trans hwait
    | asked _ _ _ _ _ _ _ hdown => exact absurd hread (not_readPrefixed_nil hdown)
    | @told _ k e c' nonce' he hopen hresults hwait hdrop hup hdown hlen hdec hturn =>
      obtain ⟨cs, hcs, hrest⟩ := frames_of_readPrefixed [c'] hread (by simp [hdown])
        (by simpa using hlen)
      cases hcs
      cases hwaiting.symm.trans hwait
      have hk : k + 1 ≤ session.length := (List.getElem?_eq_some_iff.mp he).1
      refine Phase.idle (k := k + 1) hk hopen ?_ rfl hdrop hup hrest hturn
      rw [answers_succ he, hdec, hresults]
      rfl

theorem Phase.progress (hc : v.crypto.Lawful) (hinfo : Agrees v info)
    (hfits : AllFit v session) {n : Nat} (h : Phase v info session n t) :
    n ≤ 3 * session.length ∧ t.results = v.answers session (n / 3) ∧
      (n < 3 * session.length → ∃ t', Step v info t t' ∧ t'.isOpen = true) := by
  cases h with
  | @idle _ k hk hopen hresults hwait hdrop hup hdown =>
    refine ⟨by omega, by rw [hresults, Nat.mul_div_cancel_left k (by decide)], fun hlt => ?_⟩
    have hk : k < session.length := by omega
    rw [List.drop_eq_getElem_cons hk] at hdrop
    obtain ⟨b, nonce, hwire, -⟩ :=
      wire_of_fits hc hinfo (hfits k _ (List.getElem?_eq_getElem hk))
    have hsent : writePrefixedTo b {} = _ :=
      writePrefixed_sent .dnscrypt (wire_eq_ok hinfo hwire).1 []
    exact ⟨_, .send hwait hdrop hwire hsent, hopen⟩
  | @asked _ k e b nonce he hopen hresults hwait hdrop hwire hup hdown hturn =>
    have hk : k < session.length := (List.getElem?_eq_some_iff.mp he).1
    refine ⟨by omega, by rw [hresults, show (3 * k + 1) / 3 = k by omega], fun _ => ?_⟩
    obtain ⟨conn', hread, -⟩ := readPrefixed_frame .dnscrypt (wire_eq_ok hinfo hwire).1
      (hup.trans (List.append_nil _).symm)
    obtain ⟨enc, hserved, -⟩ := handleTCPMsg_wire hc hinfo (hfits k e he) hwire t.drawn
    rw [← hturn] at hserved
    exact ⟨_, .serve hopen hread hserved, rfl⟩
  | @told _ k e c nonce he hopen hresults hwait hdrop hup hdown hlen hdec =>
    have hk : k < session.length := (List.getElem?_eq_some_iff.mp he).1
    refine ⟨by omega, by rw [hresults, show (3 * k + 2) / 3 = k by omega], fun _ => ?_⟩
    obtain ⟨conn', hread, -⟩ := readPrefixed_frame .dnscrypt hlen
      (hdown.trans (List.append_nil _).symm)
    exact ⟨_, .receive hwait hread, hopen⟩

theorem phase_of_steps (hc : v.crypto.Lawful) (hinfo : Agrees v info)
    (hfits : AllFit v session) {up down : Reader ε} (hup : up.data = []) (hdown : down.data = [])
    {n : Nat}
    (hrun : Runs.Steps (Step v info) { todo := session.map Prod.fst, up, down } n t)
    (hopen : t.isOpen = true) :
    Phase v info session n t := by
  induction hrun with
  | zero => exact .idle (k := 0) (Nat.zero_le _) rfl rfl rfl rfl hup hdown rfl
  | succ _ hstep ih => exact (ih (isOpen_of_step hstep hopen)).step hc hinfo hfits hstep hopen

/-- As long as the connection is not broken, each query takes three steps, in whatever order
the two sides work, and it gets its response; there is a next step until all have got theirs. -/
theorem session_answered (hc : v.crypto.Lawful) (hinfo : Agrees v info)
    (hfits : AllFit v session) {up down : Reader ε} (hup : up.data = []) (hdown : down.data = [])
    {n : Nat}
    (hrun : Runs.Steps (Step v info) { todo := session.map Prod.fst, up, down } n t)
    (hopen : t.isOpen = true) :
    n ≤ 3 * session.length ∧ t.results = v.answers session (n / 3) ∧
      (n < 3 * session.length → ∃ t', Step v info t t' ∧ t'.isOpen = true) :=
  (phase_of_steps hc hinfo hfits hup hdown hrun hopen).progress hc hinfo hfits

theorem exists_run (hc : v.crypto.Lawful) (hinfo : Agrees v info)
    (hfits : AllFit v session) (up down : Reader ε) (hup : up.data = [])
    (hdown : down.data = []) {n : Nat} (hn : n ≤ 3 * session.length) :
    ∃ t, Runs.Steps (Step v info) { todo := session.map Prod.fst, up, down } n t ∧
      t.isOpen = true := by
  induction n with
  | zero => exact ⟨_, .zero, rfl⟩
  | succ n ih =>
    obtain ⟨t, hrun, hopen⟩ := ih (Nat.le_of_succ_le hn)
    obtain ⟨-, -, hnext⟩ :=
      (phase_of_steps hc hinfo hfits hup hdown hrun hopen).progress hc hinfo hfits
    obtain ⟨t', hstep, hopen'⟩ := hnext hn
    exact ⟨t', hrun.succ hstep, hopen'⟩

end Answering

/-! ## A concrete session -/

theorem exampleServes_roundTrips (m : Msg) : exampleServes.pf.RoundTrips m :=
  Platform.ofTable_roundTrips (by decide) m

theorem exampleInfo_agrees : Agrees exampleServes exampleInfo := ⟨rfl, rfl, rfl⟩

/-- The same query at two times, with the two answers of the server. -/
def exampleSession : List (Query × Msg) :=
  [(⟨exampleQuery, 1, Octets.zero 4⟩, exampleAnswer),
    (⟨exampleQuery, 2, Octets.zero 4⟩, secondAnswer)]

theorem exampleServes_fits (stamp : UInt64 × Octets 4) :
    Fits exampleServes 0 ⟨exampleQuery, stamp.1, stamp.2⟩ exampleAnswer ∧
      Fits exampleServes 1 ⟨exampleQuery, stamp.1, stamp.2⟩ secondAnswer := by
  have hquery : exampleServes.pf.pack exampleQuery = some exampleQueryWire := by decide +kernel
  have hfirst : exampleServes.pf.pack exampleAnswer = some exampleAnswerWire := by decide +kernel
  have hsecond : exampleServes.pf.pack secondAnswer = some secondAnswerWire := by decide +kernel
  constructor
  · exact ⟨⟨_, hquery, exampleServes_roundTrips _ _ hquery, by decide, by decide⟩, rfl, rfl,
      ⟨_, rfl, rfl⟩, ⟨_, hfirst, exampleServes_roundTrips _ _ hfirst, by decide, by decide⟩⟩
  · exact ⟨⟨_, hquery, exampleServes_roundTrips _ _ hquery, by decide, by decide⟩, rfl, rfl,
      ⟨_, rfl, rfl⟩, ⟨_, hsecond, exampleServes_roundTrips _ _ hsecond, by decide, by decide⟩⟩

theorem exampleSession_fits : AllFit exampleServes exampleSession := by
  intro turn e he
  rcases turn with _ | _ | turn
  · obtain rfl := Option.some.inj he
    exact (exampleServes_fits (1, Octets.zero 4)).1
  · obtain rfl := Option.some.inj he
    exact (exampleServes_fits (2, Octets.zero 4)).2
  · cases he

def exampleTalk : Talk Unit where
  todo := exampleSession.map Prod.fst
  up := ⟨byteByByte, 0, [], none⟩
  down := ⟨byteByByte, 0, [], none⟩

theorem exampleTalk_run :
    ∃ t, Runs.Steps (Step exampleServes exampleInfo) exampleTalk 6 t ∧ t.isOpen = true ∧
      t.results = [.ok exampleAnswer, .ok secondAnswer] := by
  obtain ⟨t, hrun, hopen⟩ := exists_run (n := 6) tagCrypto_lawful exampleInfo_agrees
    exampleSession_fits exampleTalk.up exampleTalk.down rfl rfl (by decide)
  obtain ⟨-, hresults, -⟩ := (phase_of_steps tagCrypto_lawful exampleInfo_agrees
    exampleSession_fits rfl rfl hrun hopen).progress tagCrypto_lawful exampleInfo_agrees
    exampleSession_fits
  exact ⟨t, hrun, hopen, hresults⟩

/-- Both queries are answered in six steps. -/
theorem session_answered_both :
    ∃ t, Runs.Steps (Step exampleServes exampleInfo) exampleTalk 6 t ∧
      t.results = exampleServes.answers exampleSession 2 := by
  obtain ⟨t, hrun, hopen, -⟩ := exampleTalk_run
  exact ⟨t, hrun, (session_answered tagCrypto_lawful exampleInfo_agrees exampleSession_fits rfl rfl
    hrun hopen).2.1⟩

/-- The second response is the one to the second query, not the one to the first. -/
theorem session_matched_second :
    ∃ t, Runs.Steps (Step exampleServes exampleInfo) exampleTalk 6 t ∧ ∃ q b c nonce turn,
      Taken exampleServes exampleInfo (exampleSession.map Prod.fst) t 1 secondAnswer q b c nonce
        turn := by
  obtain ⟨t, hrun, -, hresults⟩ := exampleTalk_run
  have hsecond : t.results[1]? = some (.ok secondAnswer) := by
    rw [hresults]
    rfl
  have hstamps : ((exampleSession.map Prod.fst).map Query.stamp).Nodup := by decide
  have hlegible : ∀ q ∈ exampleSession.map Prod.fst, Legible exampleServes q := fun _ _ =>
    ⟨exampleServes_roundTrips _, fun _ _ _ => exampleServes_roundTrips _⟩
  exact ⟨t, hrun, session_matched tagCrypto_lawful exampleInfo_agrees hlegible hstamps rfl rfl
    hrun.reflTransGen 1 secondAnswer hsecond⟩

end DnsProxy.DnsCrypt
