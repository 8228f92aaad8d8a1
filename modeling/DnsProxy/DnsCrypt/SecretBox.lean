import DnsProxy.DnsCrypt.Encryption
import DnsProxy.Lib.StreamCipher

/-!
# The box of xsecretbox

`Seal` and `Open` over XChaCha20 and Poly1305. The first half of the first block of the key
stream is the key of the tag. The second half is for the first 32 bytes of the message, which
are done by hand; the cipher is then set to the next block for the rest. The result is written
piece by piece into one array, which is that of `out` if it is long enough.

XChaCha20 is its key stream and Poly1305 a function; the message does not overlap with `out`.

* `xorText_eq`: the two pieces join into one key stream.
* `sealBox_eq`, `openBox_eq`: what is appended to `out`.
* `lawful_withXSecretBox`: the box is as `Crypto.Lawful` assumes.
-/

namespace DnsProxy.DnsCrypt

namespace XSecretBox

open Checked StreamCipher

abbrev blockSize : Nat := 64

/-- `chacha20` and `poly1305`. -/
structure Primitives where
  /-- The key stream of XChaCha20. -/
  stream : Key → Nonce → Nat → UInt8
  /-- The tag that Poly1305 gives under a key. -/
  mac : Key → Bytes → Octets tagSize

/-- The loop over the first block of the message from its byte `i` on; `out` starts at `start`. -/
def xorFirstBlock (firstBlock : Bytes) (start : Nat) : Nat → Bytes → Slice → Result Err Slice
  | _, [], res => .ok res
  | i, x :: xs, res => do
    let f ← index firstBlock (blockSize - keySize + i)
    let res ← res.set (start + i) (f ^^^ x)
    xorFirstBlock firstBlock start (i + 1) xs res

/-- What `Seal` and `Open` do with the message and with the ciphertext. -/
def xorText (cipher : Cipher) (firstBlock : Bytes) (start : Nat) (message : Bytes) (res : Slice) :
    Result Err Slice := do
  let firstMessageBlock :=
    if message.length > blockSize - keySize then message.take (blockSize - keySize) else message
  let res ← xorFirstBlock firstBlock start 0 firstMessageBlock res
  let message := message.drop firstMessageBlock.length
  match cipher.setCounter blockSize 1 with
  | none => .panic
  | some cipher => res.write (start + firstMessageBlock.length) (cipher.xorKeyStream message).1

section

variable (p : Primitives)

/-- `Seal`. -/
def sealBox (out : Slice) (nonce message key : Bytes) : Result Err Slice :=
  if hnonce : nonce.length = nonceSize then
    if hkey : key.length = keySize then do
      let cipher : Cipher := { stream := p.stream ⟨key, hkey⟩ ⟨nonce, hnonce⟩ }
      let (firstBlock, cipher) := cipher.xorKeyStream (List.replicate blockSize 0)
      let polyKey ← array firstBlock 0 keySize
      let res := out.extend (tagSize + message.length)
      let tagOut := out.bytes.length
      let res ← xorText cipher firstBlock (tagOut + tagSize) message res
      let ciphertext ← sliceFrom res.bytes (tagOut + tagSize)
      res.write tagOut (p.mac polyKey ciphertext).1
    else .panic
  else .panic

/-- `Open`. -/
def openBox (out : Slice) (nonce box key : Bytes) : Result Err Slice :=
  if hnonce : nonce.length = nonceSize then
    if hkey : key.length = keySize then
      if box.length < tagSize then .error (.library "ciphertext is too short")
      else do
        let cipher : Cipher := { stream := p.stream ⟨key, hkey⟩ ⟨nonce, hnonce⟩ }
        let (firstBlock, cipher) := cipher.xorKeyStream (List.replicate blockSize 0)
        let polyKey ← array firstBlock 0 keySize
        let ciphertext ← sliceFrom box tagSize
        let tag ← array box 0 tagSize
        if p.mac polyKey ciphertext ≠ tag then
          .error (.library "ciphertext authentication failed")
        else
          xorText cipher firstBlock out.bytes.length ciphertext (out.extend ciphertext.length)
    else .panic
  else .panic

end

/-! ## One key stream -/

section Stream

variable {ks : Nat → UInt8}

theorem firstBlock_eq :
    xorFrom ks 0 (List.replicate blockSize 0) = (List.range blockSize).map ks := by
  rw [xorFrom_zeros]
  simp only [Nat.zero_add]

/-- The key of the tag. -/
def polyKey (ks : Nat → UInt8) : Key := ⟨(List.range keySize).map ks, by simp⟩

theorem array_polyKey :
    (array ((List.range blockSize).map ks) 0 keySize : Result Err _) = .ok (polyKey ks) := by
  have hle : 0 + keySize ≤ ((List.range blockSize).map ks).length := by
    rw [List.length_map, List.length_range]
    decide
  refine array_eq_ok.mpr ⟨hle, ?_⟩
  rw [List.drop_zero, ← List.map_take, List.take_range]
  rfl

theorem index_firstBlock {i : Nat} (hi : i < 32) :
    (index ((List.range blockSize).map ks) (blockSize - keySize + i) : Result Err _) =
      .ok (ks (32 + i)) := by
  have hlt : 32 + i < blockSize := Nat.add_lt_add_left hi 32
  show index _ (32 + i) = _
  rw [index, List.getElem?_map, List.getElem?_range hlt]
  rfl

theorem xorFirstBlock_eq (xs : Bytes) {i : Nat} (hi : i + xs.length ≤ 32) {a b c : Bytes}
    {res : Slice} {start : Nat} (hbytes : res.bytes = a ++ (b ++ c))
    (hb : b.length = xs.length) (hstart : start + i = a.length) :
    xorFirstBlock ((List.range blockSize).map ks) start i xs res =
      .ok { res with bytes := a ++ (xorFrom ks (32 + i) xs ++ c) } := by
  induction xs generalizing i a b res with
  | nil =>
    obtain rfl := List.length_eq_zero_iff.mp hb
    rw [xorFirstBlock, xorFrom_nil, ← hbytes]
  | cons x xs ih =>
    obtain ⟨y, b, rfl⟩ := List.exists_cons_of_length_eq_add_one hb
    rw [List.length_cons] at hi
    have hset : (res.set (start + i) (ks (32 + i) ^^^ x) : Result Err _) =
        .ok { res with bytes := a ++ (ks (32 + i) ^^^ x) :: (b ++ c) } := by
      rw [hstart]
      exact Slice.set_between hbytes _
    rw [xorFirstBlock, index_firstBlock (by omega), Result.ok_bind, hset, Result.ok_bind,
      @ih (i + 1) (by omega) (a ++ [ks (32 + i) ^^^ x]) b _ (by simp) (Nat.succ.inj hb)
        (by simp; omega)]
    simp [xorFrom, Nat.add_assoc]

/-- The second half of the first block and the blocks after it are one key stream. -/
theorem xorText_eq (message : Bytes) {a b : Bytes} {res : Slice} (hbytes : res.bytes = a ++ b)
    (hb : b.length = message.length) :
    xorText ⟨ks, blockSize⟩ ((List.range blockSize).map ks) a.length message res =
      .ok { res with bytes := a ++ xorFrom ks 32 message } := by
  -- the message in two pieces, and the bytes where they go
  obtain ⟨first, rest, hmessage, hfirst, hle, hnext⟩ : ∃ first rest : Bytes,
      message = first ++ rest ∧
      (if message.length > blockSize - keySize then message.take (blockSize - keySize)
        else message) = first ∧
      first.length ≤ 32 ∧ xorFrom ks (32 + first.length) rest = xorFrom ks 64 rest := by
    by_cases hlong : message.length > blockSize - keySize
    · have hlen : (message.take 32).length = 32 :=
        List.length_take_of_le (Nat.le_of_lt hlong)
      exact ⟨message.take 32, message.drop 32, (List.take_append_drop 32 message).symm,
        if_pos hlong, Nat.le_of_eq hlen, by rw [hlen]⟩
    · exact ⟨message, [], (List.append_nil message).symm, if_neg hlong, Nat.le_of_not_lt hlong,
        rfl⟩
  subst hmessage
  rw [List.length_append] at hb
  obtain ⟨b₁, b₂, rfl, hb₁⟩ : ∃ b₁ b₂, b = b₁ ++ b₂ ∧ b₁.length = first.length :=
    ⟨_, _, (List.take_append_drop first.length b).symm, List.length_take_of_le (by omega)⟩
  have hblock := @xorFirstBlock_eq ks first 0 (by omega) a b₁ b₂ res a.length hbytes hb₁ rfl
  have hwrite := @Slice.write_between Err
    { res with bytes := a ++ (xorFrom ks (32 + 0) first ++ b₂) }
    (a ++ xorFrom ks 32 first) b₂ [] (xorFrom ks 64 rest) (by simp) (by simp at hb ⊢; omega)
  rw [List.length_append, length_xorFrom] at hwrite
  simp only [xorText, hfirst, hblock, Result.ok_bind, List.drop_left]
  show Slice.write _ _ (xorFrom ks 64 rest) = _
  rw [hwrite, xorFrom_append, hnext]
  simp

end Stream

/-! ## Boxes -/

section Boxes

variable {p : Primitives} {key : Key} {nonce : Nonce}

/-- The ciphertext of a message, and the message of a ciphertext. -/
def ciphertext (p : Primitives) (key : Key) (nonce : Nonce) (message : Bytes) : Bytes :=
  xorFrom (p.stream key nonce) 32 message

/-- The tag of a ciphertext. -/
def tagOf (p : Primitives) (key : Key) (nonce : Nonce) (ciphertext : Bytes) : Octets tagSize :=
  p.mac (polyKey (p.stream key nonce)) ciphertext

@[simp] theorem length_ciphertext (m : Bytes) :
    (ciphertext p key nonce m).length = m.length := length_xorFrom m

@[simp] theorem ciphertext_ciphertext (m : Bytes) :
    ciphertext p key nonce (ciphertext p key nonce m) = m := xorFrom_xorFrom m

theorem sealBox_eq (out : Slice) (m : Bytes) :
    sealBox p out nonce.1 m key.1 = .ok
      ⟨out.bytes ++ ((tagOf p key nonce (ciphertext p key nonce m)).1 ++ ciphertext p key nonce m),
        (out.extend (tagSize + m.length)).spare⟩ := by
  obtain ⟨tail, hlen, htail⟩ := out.bytes_extend (tagSize + m.length)
  obtain ⟨t, b, rfl, ht⟩ : ∃ t b, tail = t ++ b ∧ t.length = tagSize :=
    ⟨_, _, (List.take_append_drop tagSize tail).symm, List.length_take_of_le (by omega)⟩
  rw [List.length_append] at hlen
  have hstart : out.bytes.length + tagSize = (out.bytes ++ t).length := by
    rw [List.length_append, ht]
  have htext := @xorText_eq (p.stream key nonce) m (out.bytes ++ t) b
    (out.extend (tagSize + m.length)) (by rw [htail, List.append_assoc]) (by omega)
  have hwrite := @Slice.write_between Err
    { out.extend (tagSize + m.length) with
      bytes := out.bytes ++ t ++ ciphertext p key nonce m }
    out.bytes t (ciphertext p key nonce m) (tagOf p key nonce (ciphertext p key nonce m)).1
    (List.append_assoc _ _ _) (by rw [Octets.length_val, ht])
  rw [sealBox, dif_pos nonce.length_eq, dif_pos key.length_eq]
  simp only [Cipher.xorKeyStream, firstBlock_eq, array_polyKey, List.length_replicate,
    Nat.zero_add, Result.ok_bind, hstart, htext]
  rw [sliceFrom, if_pos (by simp), List.drop_left]
  exact hwrite

theorem openBox_short (out : Slice) {box : Bytes} (h : box.length < tagSize) :
    openBox p out nonce.1 box key.1 = .error (.library "ciphertext is too short") := by
  rw [openBox, dif_pos nonce.length_eq, dif_pos key.length_eq, if_pos h]

theorem openBox_eq (out : Slice) (tag : Octets tagSize) (c : Bytes) :
    openBox p out nonce.1 (tag.1 ++ c) key.1 =
      if tagOf p key nonce c = tag then
        .ok ⟨out.bytes ++ ciphertext p key nonce c, (out.extend c.length).spare⟩
      else .error (.library "ciphertext authentication failed") := by
  obtain ⟨tail, hlen, htail⟩ := out.bytes_extend c.length
  have hlong : ¬ (tag.1 ++ c).length < tagSize := by simp
  have htext := @xorText_eq (p.stream key nonce) c out.bytes tail (out.extend c.length) htail hlen
  have hslice : (sliceFrom (tag.1 ++ c) tagSize : Result Err _) = .ok c := by
    rw [sliceFrom_skip (Nat.le_of_eq tag.length_eq), tag.length_eq, Nat.sub_self, sliceFrom_zero]
  rw [openBox, dif_pos nonce.length_eq, dif_pos key.length_eq, if_neg hlong]
  simp only [Cipher.xorKeyStream, firstBlock_eq, array_polyKey, List.length_replicate,
    Nat.zero_add, Result.ok_bind, hslice, array_append, htext]
  by_cases h : tagOf p key nonce c = tag
  · rw [if_pos h]
    exact if_neg (not_not.mpr h)
  · rw [if_neg h]
    exact if_pos h

theorem exists_tag {box : Bytes} (h : ¬ box.length < tagSize) :
    ∃ (tag : Octets tagSize) (c : Bytes), box = tag.1 ++ c :=
  ⟨⟨box.take tagSize, List.length_take_of_le (Nat.le_of_not_lt h)⟩, box.drop tagSize,
    (List.take_append_drop tagSize box).symm⟩

theorem openBox_eq_ok {out : Slice} {box : Bytes} {res : Slice}
    (h : openBox p out nonce.1 box key.1 = .ok res) :
    ∃ c, box = (tagOf p key nonce c).1 ++ c ∧
      res.bytes = out.bytes ++ ciphertext p key nonce c := by
  by_cases hshort : box.length < tagSize
  · rw [openBox_short out hshort] at h
    cases h
  · obtain ⟨tag, c, rfl⟩ := exists_tag hshort
    rw [openBox_eq] at h
    split at h
    · next htag =>
      cases h
      exact ⟨c, by rw [htag], rfl⟩
    · cases h

theorem take_drop_box (tag : Octets tagSize) (c : Bytes) :
    (tag.1 ++ c).take 16 = tag.1 ∧ (tag.1 ++ c).drop 16 = c :=
  ⟨List.take_left' tag.length_eq, List.drop_left' tag.length_eq⟩

theorem openBox_safe (out : Slice) (box : Bytes) : (openBox p out nonce.1 box key.1).Safe := by
  by_cases hshort : box.length < tagSize
  · rw [openBox_short out hshort]
    exact Result.safe_error _
  · obtain ⟨tag, c, rfl⟩ := exists_tag hshort
    rw [openBox_eq]
    split
    · exact Result.safe_ok _
    · exact Result.safe_error _

theorem openBox_accepts_iff (out : Slice) (box : Bytes) :
    (∃ res, openBox p out nonce.1 box key.1 = .ok res) ↔
      16 ≤ box.length ∧ box.take 16 = (tagOf p key nonce (box.drop 16)).1 := by
  constructor
  · rintro ⟨res, hres⟩
    obtain ⟨c, rfl, -⟩ := openBox_eq_ok hres
    obtain ⟨htake, hdrop⟩ := take_drop_box (tagOf p key nonce c) c
    rw [htake, hdrop]
    exact ⟨by simp [tagSize], rfl⟩
  · rintro ⟨hlong, htag⟩
    obtain ⟨tag, c, rfl⟩ := exists_tag (Nat.not_lt.mpr hlong)
    obtain ⟨htake, hdrop⟩ := take_drop_box tag c
    rw [htake, hdrop] at htag
    exact ⟨_, by rw [openBox_eq, if_pos (Octets.ext htag.symm)]⟩

end Boxes

/-- `Seal` appends the tag and the ciphertext, `Open` accepts just what has the right tag and
appends the message, and each undoes the other, whatever is in `out` and whatever its capacity
is. -/
theorem xsecretbox_spec (p : Primitives) (key : Key) (nonce : Nonce) :
    (∀ out m, ∃ res, sealBox p out nonce.1 m key.1 = .ok res ∧
      res.bytes = out.bytes ++
        ((p.mac (polyKey (p.stream key nonce)) (xorFrom (p.stream key nonce) 32 m)).1 ++
          xorFrom (p.stream key nonce) 32 m)) ∧
    (∀ out box, (openBox p out nonce.1 box key.1).Safe ∧
      ((∃ res, openBox p out nonce.1 box key.1 = .ok res) ↔ 16 ≤ box.length ∧
        box.take 16 = (p.mac (polyKey (p.stream key nonce)) (box.drop 16)).1) ∧
      ∀ res, openBox p out nonce.1 box key.1 = .ok res →
        res.bytes = out.bytes ++ xorFrom (p.stream key nonce) 32 (box.drop 16)) ∧
    (∀ out out' m res, sealBox p out nonce.1 m key.1 = .ok res →
      ∃ res', openBox p out' nonce.1 (res.bytes.drop out.bytes.length) key.1 = .ok res' ∧
        res'.bytes = out'.bytes ++ m) ∧
    ∀ out out' box res, openBox p out nonce.1 box key.1 = .ok res →
      ∃ res', sealBox p out' nonce.1 (res.bytes.drop out.bytes.length) key.1 = .ok res' ∧
        res'.bytes = out'.bytes ++ box := by
  refine ⟨fun out m => ⟨_, sealBox_eq out m, rfl⟩, ?_, ?_, ?_⟩
  · intro out box
    refine ⟨openBox_safe out box, openBox_accepts_iff out box, ?_⟩
    intro res hres
    obtain ⟨c, rfl, hbytes⟩ := openBox_eq_ok hres
    rw [(take_drop_box (tagOf p key nonce c) c).2]
    exact hbytes
  · intro out out' m res hseal
    rw [sealBox_eq] at hseal
    cases hseal
    refine ⟨_, by rw [List.drop_left, openBox_eq, if_pos rfl], ?_⟩
    rw [ciphertext_ciphertext]
  · intro out out' box res hopen
    obtain ⟨c, rfl, hbytes⟩ := openBox_eq_ok hopen
    refine ⟨_, by rw [hbytes, List.drop_left, sealBox_eq], ?_⟩
    rw [ciphertext_ciphertext]

/-! ## The box of the encryption -/

/-- The primitives of an encryption with the box of this package for XChaCha20. -/
def withXSecretBox (p : Primitives) (c : Crypto) : Crypto :=
  { c with
    xSeal := fun nonce m key =>
      match sealBox p ⟨[], []⟩ nonce.1 m key.1 with
      | .ok res => res.bytes
      | _ => []
    xOpen := fun nonce b key =>
      match openBox p ⟨[], []⟩ nonce.1 b key.1 with
      | .ok res => .ok res.bytes
      | .error (.library text) => .error text
      | _ => .error "" }

/-- Only the other box is left to be assumed. -/
theorem lawful_withXSecretBox (p : Primitives) {c : Crypto}
    (hopen : ∀ m nonce key, c.boxOpen (c.boxSeal m nonce key) nonce key = some m)
    (hlength : ∀ m nonce key, (c.boxSeal m nonce key).length = m.length + tagSize) :
    (withXSecretBox p c).Lawful := by
  have hseal : ∀ nonce m key, (withXSecretBox p c).xSeal nonce m key =
      (tagOf p key nonce (ciphertext p key nonce m)).1 ++ ciphertext p key nonce m := by
    intro nonce m key
    simp only [withXSecretBox, sealBox_eq, List.nil_append]
  refine ⟨fun nonce m key => ?_, hopen, fun nonce m key => ?_, hlength⟩
  · rw [hseal]
    simp only [withXSecretBox, openBox_eq, if_true, ciphertext_ciphertext, List.nil_append]
  · rw [hseal, List.length_append, Octets.length_val, length_ciphertext, Nat.add_comm]

end XSecretBox

end DnsProxy.DnsCrypt
