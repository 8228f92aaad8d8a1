import DnsProxy.DnsCrypt.Handshake

/-!
# The encodings are exact

Padding, TXT strings and serialised certificates, each with its inverse.

* `unpad_eq_ok_iff`: what `unpad` accepts, and `pad_injective`.
* `unpackTxtStringFrom_eq`: the loop of `unpackTxtString` over an index never leaves the
  string; the same for the tables of `escapeByte`.
* `unmarshalInto_eq`: `UnmarshalBinary` on a receiver that has a value already.
* `marshalBinary_unmarshalBinary`: what was read is serialised to the same bytes.
-/

namespace DnsProxy.DnsCrypt

open Checked

/-! ## Padding -/

/-- `s` is `q`, the byte that starts the padding, and zeros. -/
def IsPadded (q s : Bytes) : Prop := ∃ n, s = q ++ 0x80 :: List.replicate n 0

theorem isPadded_pad (p : Bytes) : IsPadded p (pad p) := ⟨_, rfl⟩

theorem IsPadded.concat {q s : Bytes} (h : IsPadded q s) : IsPadded q (s ++ [0]) := by
  obtain ⟨n, rfl⟩ := h
  exact ⟨n + 1, by rw [List.append_assoc, List.cons_append, ← List.replicate_succ']⟩

theorem IsPadded.dropWhile {q s : Bytes} (h : IsPadded q s) :
    s.reverse.dropWhile (· == 0) = 0x80 :: q.reverse := by
  obtain ⟨n, rfl⟩ := h
  have hzeros : ∀ b ∈ List.replicate n (0 : UInt8), (b == 0) = true := by
    intro b hb
    rw [List.eq_of_mem_replicate hb]
    rfl
  rw [List.reverse_append, List.reverse_cons, List.reverse_replicate, List.append_assoc,
    List.dropWhile_append_of_pos hzeros]
  rfl

theorem IsPadded.unique {q q' s : Bytes} (h : IsPadded q s) (h' : IsPadded q' s) : q = q' := by
  have heq := h.dropWhile.symm.trans h'.dropWhile
  exact List.reverse_injective (List.cons.inj heq).2

theorem pad_injective : Function.Injective pad := by
  intro p p' h
  exact (isPadded_pad p).unique (h ▸ isPadded_pad p')

theorem isPadded_of_unpadFrom {s q : Bytes} {i : Nat} (hi : i ≤ s.length)
    (h : unpadFrom s i = .ok q) : IsPadded q (s.take i) ∧ minDNSPacketSize ≤ q.length := by
  induction i with
  | zero => cases h
  | succ i ih =>
    have htake : s.take (i + 1) = s.take i ++ [s[i]] := (List.take_append_getElem hi).symm
    rw [unpadFrom, List.getElem?_eq_getElem hi] at h
    dsimp only at h
    rw [htake]
    split at h
    · next hb =>
      split at h
      · cases h
      · next hlen =>
        cases h
        refine ⟨⟨0, by rw [hb]; rfl⟩, ?_⟩
        rw [List.length_take_of_le (Nat.le_of_succ_le hi)]
        exact Nat.le_of_not_lt hlen
    · split at h
      · cases h
      · next hzero =>
        obtain ⟨hpadded, hlen⟩ := ih (Nat.le_of_succ_le hi) h
        rw [not_not.mp hzero]
        exact ⟨hpadded.concat, hlen⟩

theorem unpad_eq_ok_iff (s q : Bytes) :
    unpad s = .ok q ↔ IsPadded q s ∧ minDNSPacketSize ≤ q.length := by
  constructor
  · intro h
    have hpadded := isPadded_of_unpadFrom (Nat.le_refl _) h
    rwa [List.take_length] at hpadded
  · rintro ⟨⟨n, rfl⟩, hlen⟩
    have hlength : (q ++ 0x80 :: List.replicate n (0 : UInt8)).length = q.length + 1 + n := by
      simp [Nat.add_assoc, Nat.add_comm 1 n]
    rw [unpad, hlength]
    exact unpadFrom_zeros q hlen n n (Nat.le_refl n)

theorem length_pad_bounds (p : Bytes) :
    64 ∣ (pad p).length ∧ 256 ≤ (pad p).length ∧ p.length + 1 ≤ (pad p).length ∧
      (pad p).length ≤ p.length + 256 := by
  rw [length_pad, paddedSize_eq]
  refine ⟨?_, Nat.le_max_left _ _, ?_, ?_⟩
  · rcases Nat.le_total minUDPQuestionSize (64 * ((p.length + 1) / 64) + 64) with h | h
    · rw [max_eq_right h]
      exact ⟨(p.length + 1) / 64 + 1, rfl⟩
    · rw [max_eq_left h]
      exact ⟨4, rfl⟩
  · exact Nat.le_trans (by omega) (Nat.le_max_right _ _)
  · exact Nat.max_le.mpr ⟨Nat.le_add_left _ _, by omega⟩

/-- Padding is exact: its size, its form, what `unpad` makes of any string, and that a packet
is determined by its padding. -/
theorem padding_exact :
    (∀ p, 64 ∣ (pad p).length ∧ 256 ≤ (pad p).length ∧ p.length + 1 ≤ (pad p).length ∧
      (pad p).length ≤ p.length + 256 ∧ IsPadded p (pad p)) ∧
    (∀ s, (unpad s).Safe ∧ ∀ q, unpad s = .ok q ↔ IsPadded q s ∧ 17 ≤ q.length) ∧
    (∀ p, 17 ≤ p.length → unpad (pad p) = .ok p) ∧
    ∀ p p', pad p = pad p' → p = p' := by
  refine ⟨?_, ?_, unpad_pad, pad_injective⟩
  · intro p
    obtain ⟨hdvd, hmin, hlt, hle⟩ := length_pad_bounds p
    exact ⟨hdvd, hmin, hlt, hle, isPadded_pad p⟩
  · exact fun s => ⟨unpad_safe s, unpad_eq_ok_iff s⟩

/-! ## TXT strings -/

/-- `escapeByte` with the bounds of its slices, which are computed on a byte for the first
table and on an integer for the second. -/
def escapeByteAt (b : UInt8) : Result Err Bytes :=
  if b < 0x20 then slice escapedByteSmall (b * 4).toNat (b * 4 + 4).toNat
  else slice escapedByteLarge ((b - 0x7f).toNat * 4) ((b - 0x7f).toNat * 4 + 4)

/-- The loop of `packTxtString` with those bounds. -/
def packTxtStringFrom (msg : Bytes) : Bytes → Result Err Bytes
  | [] => .ok msg
  | b :: buf => do
    if b = 0x22 ∨ b = 0x5c then packTxtStringFrom (msg ++ [0x5c, b]) buf
    else if b < 0x20 ∨ b > 0x7e then
      packTxtStringFrom (msg ++ (← escapeByteAt b)) buf
    else packTxtStringFrom (msg ++ [b]) buf

/-- `dddToByte` on a slice. -/
def dddToByteOf (s : Bytes) : Result Err UInt8 := do
  return dddToByte (← index s 0) (← index s 1) (← index s 2)

/-- `i+2 < len(bs) && isDigitSequence(bs[i:i+3])`. -/
def digitsAt (bs : Bytes) (i : Nat) : Result Err Bool :=
  if i + 2 < bs.length then do return isDigitSequence (← slice bs i (i + 3)) else .ok false

/-- The loop of `unpackTxtString` from the index `i` on. -/
def unpackTxtStringFrom (bs : Bytes) (i : Nat) (msg : Bytes) : Result Err Bytes :=
  if _h : i < bs.length then do
    let b ← index bs i
    if b ≠ 0x5c then unpackTxtStringFrom bs (i + 1) (msg ++ [b])
    else if i + 1 = bs.length then return msg
    else if ← digitsAt bs (i + 1) then do
      let b ← dddToByteOf (← sliceFrom bs (i + 1))
      unpackTxtStringFrom bs (i + 4) (msg ++ [b])
    else do
      let b ← index bs (i + 1)
      unpackTxtStringFrom bs (i + 2) (msg ++ [unescape b])
  else return msg
termination_by bs.length - i

theorem escapeByteAt_eq (b : UInt8) (hb : b < 0x20 ∨ b > 0x7e) :
    escapeByteAt b = .ok (escapeByte b) := by
  have hsmall : ∀ b : UInt8, b < 0x20 → (b * 4 + 4).toNat = (b * 4).toNat + 4 ∧
      (b * 4).toNat + 4 ≤ 0x80 := forall_byte (by decide +kernel)
  have hlarge : ∀ b : UInt8, b > 0x7e → (b - 0x7f).toNat * 4 + 4 ≤ 0x204 :=
    forall_byte (by decide +kernel)
  have hlength : escapedByteSmall.length = 0x80 ∧ escapedByteLarge.length = 0x204 := by
    decide +kernel
  unfold escapeByteAt escapeByte slice
  split
  · next h =>
    obtain ⟨hend, hle⟩ := hsmall b h
    rw [hend, hlength.1, if_pos ⟨Nat.le_add_right _ _, hle⟩, Nat.add_sub_cancel_left]
  · next h =>
    rw [hlength.2, if_pos ⟨Nat.le_add_right _ _, hlarge b (hb.resolve_left h)⟩,
      Nat.add_sub_cancel_left]

theorem packTxtStringFrom_eq (msg buf : Bytes) :
    packTxtStringFrom msg buf = .ok (msg ++ packTxtString buf) := by
  induction buf generalizing msg with
  | nil => simp [packTxtStringFrom, packTxtString]
  | cons b buf ih =>
    have hcons : packTxtString (b :: buf) = packTxtByte b ++ packTxtString buf := rfl
    rw [packTxtStringFrom, hcons, ← List.append_assoc, packTxtByte]
    split
    · exact ih _
    · split
      · next hrange =>
        rw [escapeByteAt_eq b hrange]
        exact ih _
      · exact ih _

section Loop

variable {bs rest : Bytes} {i : Nat} {b : UInt8}

theorem drop_succ_of_cons (h : bs.drop i = b :: rest) :
    i < bs.length ∧ bs.drop (i + 1) = rest := by
  refine ⟨?_, ?_⟩
  · by_contra hle
    rw [List.drop_eq_nil_of_le (Nat.le_of_not_lt hle)] at h
    cases h
  · rw [← List.tail_drop, h, List.tail_cons]

theorem length_of_drop (h : bs.drop i = b :: rest) : bs.length = i + (rest.length + 1) := by
  have hlen := congrArg List.length h
  have hlt := (drop_succ_of_cons h).1
  rw [List.length_drop, List.length_cons] at hlen
  omega

theorem digitsAt_long {e d f : UInt8} (h : bs.drop i = e :: d :: f :: rest) :
    digitsAt bs i = .ok (isDigitSequence [e, d, f]) := by
  have hlen := length_of_drop h
  simp only [List.length_cons] at hlen
  rw [digitsAt, if_pos (by omega), slice, if_pos ⟨Nat.le_add_right _ _, by omega⟩,
    Nat.add_sub_cancel_left, h]
  rfl

theorem digitsAt_short (h : bs.drop i = b :: rest) (hrest : rest.length < 2) :
    digitsAt bs i = .ok false := by
  have hlen := length_of_drop h
  exact if_neg (by omega)

theorem unpackTxtStringFrom_plain (h : bs.drop i = b :: rest) (hb : b ≠ 0x5c) (msg : Bytes) :
    unpackTxtStringFrom bs i msg = unpackTxtStringFrom bs (i + 1) (msg ++ [b]) := by
  rw [unpackTxtStringFrom, dif_pos (drop_succ_of_cons h).1, index_of_drop h, Result.ok_bind,
    if_pos hb]

theorem unpackTxtStringFrom_escape {e : UInt8} (h : bs.drop i = 0x5c :: e :: rest) {digits : Bool}
    (hdigits : digitsAt bs (i + 1) = .ok digits) (msg : Bytes) :
    unpackTxtStringFrom bs i msg =
      if digits then do
        let b ← dddToByteOf (e :: rest)
        unpackTxtStringFrom bs (i + 4) (msg ++ [b])
      else unpackTxtStringFrom bs (i + 2) (msg ++ [unescape e]) := by
  obtain ⟨hlt, hnext⟩ := drop_succ_of_cons h
  have hlt' := (drop_succ_of_cons hnext).1
  rw [unpackTxtStringFrom, dif_pos hlt, index_of_drop h, Result.ok_bind,
    if_neg (not_not.mpr rfl), if_neg (Nat.ne_of_lt hlt'), hdigits, Result.ok_bind]
  cases digits with
  | true => simp only [if_true, sliceFrom, Nat.le_of_lt hlt', hnext, Result.ok_bind]
  | false => simp only [Bool.false_eq_true, if_false, index_of_drop hnext, Result.ok_bind]

/-- The loop reads what is left of the string as the function on strings does. -/
theorem unpackTxtStringFrom_eq (h : bs.drop i = rest) (msg : Bytes) :
    unpackTxtStringFrom bs i msg = .ok (msg ++ unpackTxtString rest) := by
  induction rest using unpackTxtString.induct generalizing i msg with
  | case1 =>
    have hle : ¬ i < bs.length := Nat.not_lt.mpr (List.drop_eq_nil_iff.mp h)
    rw [unpackTxtStringFrom, dif_neg hle]
    simp [unpackTxtString]
  | case2 b hb =>
    have hnext := (drop_succ_of_cons h).2
    have hle : ¬ i + 1 < bs.length := Nat.not_lt.mpr (List.drop_eq_nil_iff.mp hnext)
    rw [unpackTxtStringFrom_plain h hb, unpackTxtStringFrom, dif_neg hle]
    simp [unpackTxtString, hb]
  | case3 b hb =>
    -- a backslash at the end
    have hend : i + 1 = bs.length := (length_of_drop h).symm
    rw [unpackTxtStringFrom, dif_pos (drop_succ_of_cons h).1, index_of_drop h, Result.ok_bind,
      if_neg hb, if_pos hend]
    simp [unpackTxtString, not_not.mp hb]
  | case4 b e es hb ih =>
    have hrest := unpackTxtString_plain hb (e :: es)
    rw [unpackTxtStringFrom_plain h hb, ih (drop_succ_of_cons h).2, hrest]
    simp
  | case5 b e hb d f rest hdigits ih =>
    obtain rfl := not_not.mp hb
    obtain ⟨-, h₁⟩ := drop_succ_of_cons h
    obtain ⟨-, h₂⟩ := drop_succ_of_cons h₁
    obtain ⟨-, h₃⟩ := drop_succ_of_cons h₂
    obtain ⟨-, h₄⟩ := drop_succ_of_cons h₃
    rw [unpackTxtStringFrom_escape h (digitsAt_long h₁), if_pos hdigits]
    simp [dddToByteOf, index, ih h₄, unpackTxtString, hdigits]
  | case6 b e hb d f rest hdigits ih =>
    obtain rfl := not_not.mp hb
    obtain ⟨-, h₁⟩ := drop_succ_of_cons h
    obtain ⟨-, h₂⟩ := drop_succ_of_cons h₁
    rw [unpackTxtStringFrom_escape h (digitsAt_long h₁), if_neg hdigits, ih h₂]
    simp [unpackTxtString, hdigits]
  | case7 b e hb d ih =>
    obtain rfl := not_not.mp hb
    obtain ⟨-, h₁⟩ := drop_succ_of_cons h
    obtain ⟨-, h₂⟩ := drop_succ_of_cons h₁
    rw [unpackTxtStringFrom_escape h (digitsAt_short h₁ (by simp)), if_neg Bool.false_ne_true,
      ih h₂]
    simp [unpackTxtString]
  | case8 b e hb =>
    obtain rfl := not_not.mp hb
    obtain ⟨-, h₁⟩ := drop_succ_of_cons h
    have hnext := (drop_succ_of_cons h₁).2
    have hle : ¬ i + 2 < bs.length := Nat.not_lt.mpr (List.drop_eq_nil_iff.mp hnext)
    rw [unpackTxtStringFrom_escape h (digitsAt_short h₁ (by simp)), if_neg Bool.false_ne_true,
      unpackTxtStringFrom, dif_neg hle]
    simp [unpackTxtString]

end Loop

/-! ## Certificates -/

namespace Certificate

/-- What `UnmarshalBinary` does to its receiver once the version is known. -/
def fill (c : Certificate) (b : Bytes) : Result Err Certificate := do
  let c := { c with signature := ← array b 8 signatureSize }
  let c := { c with resolverPk := ← array b 72 keySize }
  let c := { c with clientMagic := ← array b 104 clientMagicSize }
  let c := { c with serial := ← uint32 b 112 }
  let c := { c with notBefore := ← uint32 b 116 }
  return { c with notAfter := ← uint32 b 120 }

/-- `UnmarshalBinary` on the receiver `c`: the error, and the receiver after the call. -/
def unmarshalInto (c : Certificate) (b : Bytes) : Result Err (Option Err × Certificate) :=
  if b.length < certByteLength then .ok (some .certTooShort, c)
  else do
    let magic ← array b 0 4
    if magic ≠ DnsCrypt.certMagic then return (some .certMagic, c)
    else do
      let esVersion ← uint16 b 4
      if esVersion = xSalsa20Poly1305 then
        return (none, ← { c with esVersion := xSalsa20Poly1305 }.fill b)
      else if esVersion = xChacha20Poly1305 then
        return (none, ← { c with esVersion := xChacha20Poly1305 }.fill b)
      else return (some .esVersion, c)

/-- The fields of a string that is long enough, as they are read. -/
structure Fields (b : Bytes) where
  magic : Octets 4
  esVersion : UInt16
  signature : Octets signatureSize
  resolverPk : Octets keySize
  clientMagic : Octets clientMagicSize
  serial : UInt32
  notBefore : UInt32
  notAfter : UInt32
  magic_eq : (array b 0 4 : Result Err _) = .ok magic
  esVersion_eq : uint16 b 4 = .ok esVersion
  signature_eq : (array b 8 signatureSize : Result Err _) = .ok signature
  resolverPk_eq : (array b 72 keySize : Result Err _) = .ok resolverPk
  clientMagic_eq : (array b 104 clientMagicSize : Result Err _) = .ok clientMagic
  serial_eq : uint32 b 112 = .ok serial
  notBefore_eq : uint32 b 116 = .ok notBefore
  notAfter_eq : uint32 b 120 = .ok notAfter

section Reading

variable {b : Bytes}

theorem uint16_of_le {i : Nat} (h : i + 2 ≤ b.length) :
    ∃ x, uint16 b i = .ok x ∧ (Octets.ofNat 2 x.toNat).1 = (b.drop i).take 2 := by
  obtain ⟨a, ha, hval⟩ := @array_of_le Err b i 2 h
  refine ⟨_, by rw [uint16, ha]; rfl, ?_⟩
  have hlt : BigEndian.decode a.1 < 2 ^ 16 := by simpa using BigEndian.decode_lt a.1
  have hround := BigEndian.encode_decode a.1
  rw [a.length_val] at hround
  rw [UInt16.toNat_ofNat', Nat.mod_eq_of_lt hlt, ← hval]
  exact hround

theorem uint32_of_le {i : Nat} (h : i + 4 ≤ b.length) :
    ∃ x, uint32 b i = .ok x ∧ (Octets.ofNat 4 x.toNat).1 = (b.drop i).take 4 := by
  obtain ⟨a, ha, hval⟩ := @array_of_le Err b i 4 h
  refine ⟨_, by rw [uint32, ha]; rfl, ?_⟩
  have hlt : BigEndian.decode a.1 < 2 ^ 32 := by simpa using BigEndian.decode_lt a.1
  have hround := BigEndian.encode_decode a.1
  rw [a.length_val] at hround
  rw [UInt32.toNat_ofNat', Nat.mod_eq_of_lt hlt, ← hval]
  exact hround

theorem fields_of_le (h : certByteLength ≤ b.length) : Nonempty (Fields b) := by
  have hle : ∀ i n, i + n ≤ certByteLength → i + n ≤ b.length := fun _ _ hin => hin.trans h
  obtain ⟨magic, hmagic, -⟩ := @array_of_le Err b 0 4 (hle _ _ (by decide))
  obtain ⟨es, hes, -⟩ := uint16_of_le (hle 4 2 (by decide))
  obtain ⟨signature, hsignature, -⟩ := @array_of_le Err b 8 signatureSize (hle _ _ (by decide))
  obtain ⟨pk, hpk, -⟩ := @array_of_le Err b 72 keySize (hle _ _ (by decide))
  obtain ⟨client, hclient, -⟩ := @array_of_le Err b 104 clientMagicSize (hle _ _ (by decide))
  obtain ⟨serial, hserial, -⟩ := uint32_of_le (hle 112 4 (by decide))
  obtain ⟨before, hbefore, -⟩ := uint32_of_le (hle 116 4 (by decide))
  obtain ⟨after, hafter, -⟩ := uint32_of_le (hle 120 4 (by decide))
  exact ⟨magic, es, signature, pk, client, serial, before, after, hmagic, hes, hsignature, hpk,
    hclient, hserial, hbefore, hafter⟩

namespace Fields

/-- The certificate that the fields give, with a secret key. -/
def certificate (f : Fields b) (resolverSk : Octets keySize) : Certificate :=
  { serial := f.serial, esVersion := f.esVersion, signature := f.signature,
    resolverPk := f.resolverPk, resolverSk, clientMagic := f.clientMagic,
    notBefore := f.notBefore, notAfter := f.notAfter }

/-- The error of `UnmarshalBinary`. -/
def err (f : Fields b) : Option Err :=
  if f.magic ≠ DnsCrypt.certMagic then some .certMagic
  else if Supported f.esVersion then none
  else some .esVersion

theorem fill_eq (f : Fields b) (c : Certificate) (h : c.esVersion = f.esVersion) :
    c.fill b = .ok (f.certificate c.resolverSk) := by
  simp only [fill, f.signature_eq, f.resolverPk_eq, f.clientMagic_eq, f.serial_eq, f.notBefore_eq,
    f.notAfter_eq, Result.ok_bind, certificate, ← h, Result.pure_eq]

theorem unmarshalBinary_eq (f : Fields b) (h : certByteLength ≤ b.length) :
    unmarshalBinary b =
      match f.err with
      | some e => .error e
      | none => .ok (f.certificate (Octets.zero keySize)) := by
  rw [unmarshalBinary, if_neg (Nat.not_lt.mpr h)]
  simp only [f.magic_eq, f.esVersion_eq, f.signature_eq, f.resolverPk_eq, f.clientMagic_eq,
    f.serial_eq, f.notBefore_eq, f.notAfter_eq, Result.ok_bind, err]
  by_cases hmagic : f.magic ≠ DnsCrypt.certMagic
  · rw [if_pos hmagic, if_pos hmagic]
  · rw [if_neg hmagic, if_neg hmagic]
    by_cases hes : Supported f.esVersion
    · rw [if_pos hes, knownConstruction_of_supported hes]
      rfl
    · rw [if_neg hes, knownConstruction_of_not_supported hes]
      rfl

theorem unmarshalInto_eq (f : Fields b) (h : certByteLength ≤ b.length) (c : Certificate) :
    unmarshalInto c b =
      match f.err with
      | some e => .ok (some e, c)
      | none => .ok (none, f.certificate c.resolverSk) := by
  rw [unmarshalInto, if_neg (Nat.not_lt.mpr h)]
  simp only [f.magic_eq, f.esVersion_eq, Result.ok_bind, err]
  by_cases hmagic : f.magic ≠ DnsCrypt.certMagic
  · rw [if_pos hmagic, if_pos hmagic]
    rfl
  · rw [if_neg hmagic, if_neg hmagic]
    by_cases hsalsa : f.esVersion = xSalsa20Poly1305
    · rw [if_pos hsalsa, if_pos (.inl hsalsa), f.fill_eq _ hsalsa.symm]
      rfl
    · by_cases hchacha : f.esVersion = xChacha20Poly1305
      · rw [if_neg hsalsa, if_pos hchacha, if_pos (.inr hchacha), f.fill_eq _ hchacha.symm]
        rfl
      · have hes : ¬ Supported f.esVersion := not_or.mpr ⟨hsalsa, hchacha⟩
        rw [if_neg hsalsa, if_neg hchacha, if_neg hes]
        rfl

end Fields

end Reading

/-- A receiver keeps its secret key, and all of it when there is an error. -/
theorem unmarshalInto_eq (c : Certificate) (b : Bytes) :
    unmarshalInto c b =
      match unmarshalBinary b with
      | .ok c' => .ok (none, { c' with resolverSk := c.resolverSk })
      | .error e => .ok (some e, c)
      | .panic => .panic := by
  by_cases h : certByteLength ≤ b.length
  · obtain ⟨f⟩ := fields_of_le h
    rw [f.unmarshalBinary_eq h, f.unmarshalInto_eq h]
    cases f.err <;> rfl
  · have hlt := Nat.lt_of_not_le h
    rw [unmarshalBinary, if_pos hlt, unmarshalInto, if_pos hlt]

theorem Fields.marshalBinary_certificate {b : Bytes} (f : Fields b) (h : b.length = certByteLength)
    (hmagic : f.magic = DnsCrypt.certMagic) (hminor : (b.drop 6).take 2 = (Octets.zero 2).1)
    (sk : Octets keySize) : (f.certificate sk).marshalBinary = b := by
  have hslice : ∀ i n, (b.drop i).take n ++ b.drop (i + n) = b.drop i := by
    intro i n
    rw [← List.drop_drop, List.take_append_drop]
  have hend : (b.drop 120).take 4 = b.drop 120 := List.take_of_length_le (by simp [h])
  have h16 : (Octets.ofNat 2 f.esVersion.toNat).1 = (b.drop 4).take 2 := by
    obtain ⟨x, hx, hval⟩ := @uint16_of_le b 4 (by rw [h]; decide)
    rwa [Result.ok.inj (f.esVersion_eq.symm.trans hx)]
  have h32 : ∀ {i x}, i + 4 ≤ certByteLength → uint32 b i = .ok x →
      (Octets.ofNat 4 x.toNat).1 = (b.drop i).take 4 := by
    intro i x hi hx
    obtain ⟨y, hy, hval⟩ := @uint32_of_le b i (by rw [h]; exact hi)
    rwa [Result.ok.inj (hx.symm.trans hy)]
  have hread : ∀ {i n} {a : Octets n}, (array b i n : Result Err _) = .ok a →
      a.1 = (b.drop i).take n := fun ha => (array_eq_ok.mp ha).2
  show DnsCrypt.certMagic.1 ++ ((Octets.ofNat 2 f.esVersion.toNat).1 ++ ((Octets.zero 2).1 ++
    (f.signature.1 ++ (f.resolverPk.1 ++ (f.clientMagic.1 ++ ((Octets.ofNat 4 f.serial.toNat).1 ++
    ((Octets.ofNat 4 f.notBefore.toNat).1 ++ (Octets.ofNat 4 f.notAfter.toNat).1))))))) = b
  rw [← hmagic, hread f.magic_eq, h16, ← hminor, hread f.signature_eq, hread f.resolverPk_eq,
    hread f.clientMagic_eq, h32 (by decide) f.serial_eq, h32 (by decide) f.notBefore_eq,
    h32 (by decide) f.notAfter_eq, hend, hslice 116 4, hslice 112 4, hslice 104 8, hslice 72 32,
    hslice 8 64, hslice 6 2, hslice 4 2, hslice 0 4, List.drop_zero]

/-- What was read from a string of the length of a certificate is serialised to it, if the
minor version in it is zero. -/
theorem marshalBinary_unmarshalInto {c c' : Certificate} {b : Bytes}
    (h : b.length = certByteLength) (hminor : (b.drop 6).take 2 = (Octets.zero 2).1)
    (hread : unmarshalInto c b = .ok (none, c')) : c'.marshalBinary = b := by
  obtain ⟨f⟩ := fields_of_le (Nat.le_of_eq h.symm)
  rw [f.unmarshalInto_eq (Nat.le_of_eq h.symm)] at hread
  cases herr : f.err with
  | some e =>
    rw [herr] at hread
    cases hread
  | none =>
    rw [herr] at hread
    cases hread
    refine f.marshalBinary_certificate h ?_ hminor _
    by_contra hmagic
    rw [Fields.err, if_pos hmagic] at herr
    cases herr

end Certificate

/-- The encodings are inverse to each other: the escapes of TXT strings, which are read without
an index out of range, and the serialised form of certificates, for any receiver. -/
theorem encodings_inverse :
    (∀ b, packTxtStringFrom [] b = .ok (packTxtString b) ∧
      unpackTxtStringFrom (packTxtString b) 0 [] = .ok b) ∧
    (∀ s, (unpackTxtStringFrom s 0 []).Safe) ∧
    (∀ c r : Certificate,
      (do r.unmarshalInto (← unpackTxtStringFrom (packTxtString c.marshalBinary) 0 [])) =
        if Supported c.esVersion then .ok (none, { c with resolverSk := r.resolverSk })
        else .ok (some .esVersion, r)) ∧
    (∀ (r : Certificate) (b : Bytes), ∃ err r', r.unmarshalInto b = .ok (err, r') ∧
      (err ≠ none → r' = r)) ∧
    ∀ (r c : Certificate) (b : Bytes), b.length = 124 → (b.drop 6).take 2 = [0, 0] →
      r.unmarshalInto b = .ok (none, c) → c.marshalBinary = b := by
  have hunpack : ∀ s, unpackTxtStringFrom s 0 [] = .ok (unpackTxtString s) :=
    fun s => unpackTxtStringFrom_eq List.drop_zero []
  have hround : ∀ b, unpackTxtStringFrom (packTxtString b) 0 [] = .ok b := by
    intro b
    rw [hunpack, unpackTxtString_packTxtString]
  refine ⟨?_, ?_, ?_, ?_, ?_⟩
  · exact fun b => ⟨packTxtStringFrom_eq [] b, hround b⟩
  · intro s
    rw [hunpack]
    exact Result.safe_ok _
  · intro c r
    rw [hround, Result.ok_bind, Certificate.unmarshalInto_eq,
      Certificate.unmarshalBinary_marshalBinary]
    by_cases hes : Supported c.esVersion
    · rw [if_pos hes, if_pos hes]
      rfl
    · rw [if_neg hes, if_neg hes]
  · intro r b
    rw [Certificate.unmarshalInto_eq]
    cases hread : Certificate.unmarshalBinary b with
    | ok c => exact ⟨_, _, rfl, fun h => absurd rfl h⟩
    | error e => exact ⟨_, _, rfl, fun _ => rfl⟩
    | panic => exact absurd hread (Certificate.unmarshalBinary_safe b)
  · exact fun r c b hlen hminor hread => Certificate.marshalBinary_unmarshalInto hlen hminor hread

end DnsProxy.DnsCrypt
