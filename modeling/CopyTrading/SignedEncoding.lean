import Mathlib.Data.Set.Function
import CopyTrading.Fallible
import CopyTrading.HexText
import CopyTrading.PolymarketOrder

namespace CopyTrading

theorem wordFromU128_eq (v : U128) : wordFromU128 v = .ofNat v.toNat := by
  have fits : v.toNat < 256 ^ 16 := v.isLt
  unfold wordFromU128 Word.ofNat
  congr 1
  exact BigEndian.replicate_append_bytes 16 fits

theorem wordFromU128_inj {v w : U128} : wordFromU128 v = wordFromU128 w ↔ v = w := by
  constructor
  · intro same
    have wide : ∀ u : U128, u.toNat < 2 ^ 256 := fun u => u.isLt.trans (by decide)
    rw [wordFromU128_eq, wordFromU128_eq] at same
    apply BitVec.eq_of_toNat_eq
    rw [← Word.value_ofNat (wide v), same, Word.value_ofNat (wide w)]
  · exact fun same => congrArg _ same

theorem wordFromU8_inj {v w : UInt8} : wordFromU8 v = wordFromU8 w ↔ v = w := by
  constructor
  · intro same
    have bytes := List.append_cancel_left (congrArg Word.bytes same)
    exact List.singleton_inj.mp bytes
  · exact fun same => congrArg _ same

/-- Words are laid end to end without loss. -/
theorem Word.flatMap_inj {vs ws : List Word} (length : vs.length = ws.length)
    (same : vs.flatMap Word.bytes = ws.flatMap Word.bytes) : vs = ws := by
  induction vs generalizing ws with
  | nil =>
    cases ws with
    | nil => rfl
    | cons w ws => cases length
  | cons v vs ih =>
    cases ws with
    | nil => cases length
    | cons w ws =>
      rw [List.flatMap_cons, List.flatMap_cons] at same
      obtain ⟨here, rest⟩ := List.append_inj same (v.size.trans w.size.symm)
      rw [Word.eq_of_bytes here, ih (Nat.succ.inj length) rest]

/-- The same 20-byte address, whatever its prefixes and the case of its digits. -/
def SameAddress (a b : String) : Prop :=
  (addressBody a).map Char.toLower = (addressBody b).map Char.toLower

instance : DecidableRel SameAddress := fun _ _ => decEq _ _

/-- The orders have the same fields, as the venue reads them. -/
structure PolymarketOrder.Agrees (o p : PolymarketOrder) : Prop where
  salt : o.salt = p.salt
  maker : SameAddress o.maker p.maker
  signer : SameAddress o.signer p.signer
  tokenId : decimalNumber o.tokenId.toUTF8.toList = decimalNumber p.tokenId.toUTF8.toList
  makerAmount : o.makerAmount = p.makerAmount
  takerAmount : o.takerAmount = p.takerAmount
  side : o.side = p.side
  signatureType : o.signatureType = p.signatureType
  timestamp : o.timestamp = p.timestamp
  metadata : o.metadata = p.metadata
  builder : o.builder = p.builder

theorem wordFromDecimalString_inj {s t : String} {v w : Word}
    (left : wordFromDecimalString s = some (.ok v))
    (right : wordFromDecimalString t = some (.ok w)) :
    v = w ↔ decimalNumber s.toUTF8.toList = decimalNumber t.toUTF8.toList := by
  have read : ∀ {s : String} {v : Word}, wordFromDecimalString s = some (.ok v) →
      v.value = decimalNumber s.toUTF8.toList ∧ v = .ofNat (decimalNumber s.toUTF8.toList) := by
    intro s v parsed
    rw [wordFromDecimalString, wordFromDecimalBytes_eq] at parsed
    split at parsed
    next accepted =>
      have word : Word.ofNat (decimalNumber s.toUTF8.toList) = v :=
        Except.ok.inj (Option.some.inj parsed)
      rw [← word]
      exact ⟨Word.value_ofNat accepted.2, rfl⟩
    next => cases parsed
  constructor
  · intro same
    rw [← (read left).1, same, (read right).1]
  · intro same
    rw [(read left).2, same, ← (read right).2]

section Hash

variable {decode : String → Option (List UInt8)} {keccak : List UInt8 → Word}

theorem wordFromAddress_ok {a : String} {w : Word}
    (h : wordFromAddress decode a = some (.ok w)) :
    ∃ bytes, decode (String.ofList (addressBody a)) = some bytes ∧
      w.bytes = List.replicate 12 0 ++ bytes := by
  unfold wordFromAddress at h
  simp only at h
  split at h
  next => cases h
  next =>
    split at h
    next => cases h
    next bytes decoded =>
      split at h
      next size =>
        cases h
        exact ⟨bytes, decoded, rfl⟩
      next => cases h

theorem wordFromAddress_inj (hex : ∀ s : String, decode s = HexText.bytes s.toList)
    {a b : String} {v w : Word} (left : wordFromAddress decode a = some (.ok v))
    (right : wordFromAddress decode b = some (.ok w)) : v = w ↔ SameAddress a b := by
  obtain ⟨bytes, decoded, padded⟩ := wordFromAddress_ok left
  obtain ⟨bytes', decoded', padded'⟩ := wordFromAddress_ok right
  rw [hex, String.toList_ofList] at decoded decoded'
  unfold SameAddress
  rw [← HexText.bytes_eq_iff decoded decoded']
  constructor
  · intro same
    rw [← same, padded] at padded'
    exact List.append_cancel_left padded'
  · intro same
    rw [← same, ← padded] at padded'
    exact Word.eq_of_bytes padded'.symm

/-- What an encoding that succeeds is made of. -/
theorem PolymarketOrder.encoding_ok {o : PolymarketOrder} {bs : List UInt8}
    (h : o.encoding decode keccak = some (.ok bs)) : ∃ maker signer token,
      wordFromAddress decode o.maker = some (.ok maker) ∧
      wordFromAddress decode o.signer = some (.ok signer) ∧
      wordFromDecimalString o.tokenId = some (.ok token) ∧
      bs = [keccak orderType.toUTF8.toList, wordFromU128 o.salt, maker, signer, token,
        wordFromU128 o.makerAmount, wordFromU128 o.takerAmount, wordFromU8 o.side,
        wordFromU8 o.signatureType.asU8, wordFromU128 (.ofNat 128 o.timestamp.toNat),
        o.metadata, o.builder].flatMap Word.bytes := by
  unfold encoding at h
  obtain ⟨maker, first, h⟩ := Fallible.bindT_eq_ok h
  obtain ⟨signer, second, h⟩ := Fallible.bindT_eq_ok h
  obtain ⟨token, third, h⟩ := Fallible.bindT_eq_ok h
  exact ⟨maker, signer, token, first, second, third,
    (Except.ok.inj (Option.some.inj h)).symm⟩

theorem timestamp_inj {s t : UInt64} :
    BitVec.ofNat 128 s.toNat = BitVec.ofNat 128 t.toNat ↔ s = t := by
  constructor
  · intro same
    have values := congrArg BitVec.toNat same
    have left := s.toNat_lt
    have right := t.toNat_lt
    rw [BitVec.toNat_ofNat, BitVec.toNat_ofNat] at values
    apply UInt64.toNat_inj.mp
    omega
  · exact fun same => congrArg _ (congrArg _ same)

theorem SignatureType.asU8_inj {s t : SignatureType} : s.asU8 = t.asU8 ↔ s = t := by
  cases s <;> cases t <;> decide

theorem PolymarketOrder.encoding_eq_iff (hex : ∀ s : String, decode s = HexText.bytes s.toList)
    {o p : PolymarketOrder} {bs cs : List UInt8} (left : o.encoding decode keccak = some (.ok bs))
    (right : p.encoding decode keccak = some (.ok cs)) : bs = cs ↔ o.Agrees p := by
  obtain ⟨maker, signer, token, madeOf, signedBy, tokenOf, rfl⟩ := encoding_ok left
  obtain ⟨maker', signer', token', madeOf', signedBy', tokenOf', rfl⟩ := encoding_ok right
  have makers := wordFromAddress_inj hex madeOf madeOf'
  have signers := wordFromAddress_inj hex signedBy signedBy'
  have tokens := wordFromDecimalString_inj tokenOf tokenOf'
  constructor
  · intro same
    have words := Word.flatMap_inj (by rfl) same
    simp only [List.cons.injEq, true_and, and_true, wordFromU128_inj, wordFromU8_inj,
      SignatureType.asU8_inj, timestamp_inj, makers, signers, tokens] at words
    obtain ⟨salt, maker, signer, token, offered, asked, side, type, time, metadata, builder⟩ :=
      words
    exact ⟨salt, maker, signer, token, offered, asked, side, type, time, metadata, builder⟩
  · intro agree
    rw [agree.salt, makers.mpr agree.maker, signers.mpr agree.signer, tokens.mpr agree.tokenId,
      agree.makerAmount, agree.takerAmount, agree.side, agree.signatureType, agree.timestamp,
      agree.metadata, agree.builder]

theorem PolymarketOrder.digest_eq {o : PolymarketOrder} {bs : List UInt8}
    (h : o.encoding decode keccak = some (.ok bs)) (domainSeparator : Word) :
    o.digest decode keccak domainSeparator =
      some (.ok (keccak (digestInput domainSeparator (keccak bs)))) := by
  unfold digest structHash
  rw [h]
  rfl

theorem digestInput_inj {domainSeparator v w : Word}
    (same : digestInput domainSeparator v = digestInput domainSeparator w) : v = w :=
  Word.eq_of_bytes (List.append_cancel_left same)

/-- Two orders that encode give the hash the same bytes exactly if their fields agree, and the same
digest to be signed unless the hash collides on the strings that it is given for them. -/
theorem PolymarketOrder.signed_iff (hex : ∀ s : String, decode s = HexText.bytes s.toList)
    {o p : PolymarketOrder} {bs cs : List UInt8} (left : o.encoding decode keccak = some (.ok bs))
    (right : p.encoding decode keccak = some (.ok cs)) (domainSeparator : Word)
    (free : Set.InjOn keccak {bs, cs, digestInput domainSeparator (keccak bs),
      digestInput domainSeparator (keccak cs)}) :
    (bs = cs ↔ o.Agrees p) ∧
      (o.digest decode keccak domainSeparator = p.digest decode keccak domainSeparator ↔
        o.Agrees p) := by
  have encodings := encoding_eq_iff hex left right
  refine ⟨encodings, ?_⟩
  rw [digest_eq left, digest_eq right, ← encodings]
  constructor
  · intro same
    have digests : keccak (digestInput domainSeparator (keccak bs)) =
        keccak (digestInput domainSeparator (keccak cs)) := Except.ok.inj (Option.some.inj same)
    have inputs := free (by simp) (by simp) digests
    exact free (by simp) (by simp) (digestInput_inj inputs)
  · rintro rfl
    rfl

end Hash

/-- An order settled on mainnet, but for its token. -/
def PolymarketOrder.settled (salt : U128) : PolymarketOrder where
  salt := salt
  maker := "0xabb89972b21b304c1bed2bf26f35c8741ac9bba3"
  signer := "0xadba23fe56c61f1aed0d377cb63e2806f2acaf43"
  tokenId := "12345"
  makerAmount := 9740926
  takerAmount := 53113878
  side := 0
  signatureType := .polyProxy
  timestamp := 1787112360
  metadata := .zero
  builder := .zero

def settledBytes (salt : Nat) : List UInt8 :=
  [Word.ofNat 0xbb86318a2138f5fa8ae32fbe8e659f8fcf13cc6ae4014a707893055433818589, .ofNat salt,
    .ofNat 0xabb89972b21b304c1bed2bf26f35c8741ac9bba3,
    .ofNat 0xadba23fe56c61f1aed0d377cb63e2806f2acaf43,
    .ofNat 12345, .ofNat 9740926, .ofNat 53113878, .zero, .ofNat 1, .ofNat 1787112360, .zero,
    .zero].flatMap Word.bytes

/-- The domain separator that the deployed contract returns. -/
def expectedDomainSeparator : Word :=
  .ofNat 0x466c63910185bbd55e8679264200c4e0abdcbb0c6264eb3d41d13326022e095b

/-- Keccak-256 of the strings hashed for the settled order and for the same with the next salt; the
last value is that of the order type. -/
def settledKeccak (x : List UInt8) : Word :=
  if x = settledBytes 6777282044196416742 then
    .ofNat 0xdafe04a877c9da581806daaf52ba2fa593c51f73ff46eda466ff3a3442d2154d
  else if x = settledBytes 6777282044196416743 then
    .ofNat 0x778a2239136a7b77b29e04573edbbf4b493b8210539e2d1656bf24e9b84d3e62
  else if x = digestInput expectedDomainSeparator
      (.ofNat 0xdafe04a877c9da581806daaf52ba2fa593c51f73ff46eda466ff3a3442d2154d) then
    .ofNat 0x393c5c8b11a3c54aeea61221b7b717b5d448156edc6538a94bd9cefaf52b1706
  else if x = digestInput expectedDomainSeparator
      (.ofNat 0x778a2239136a7b77b29e04573edbbf4b493b8210539e2d1656bf24e9b84d3e62) then
    .ofNat 0x13b62389d377fd12fbda38a4ca3e85da400d8bc33a6712dcbe1c5214e68c58e7
  else .ofNat 0xbb86318a2138f5fa8ae32fbe8e659f8fcf13cc6ae4014a707893055433818589

def settledPreimage (w : Word) : List UInt8 :=
  if w = settledKeccak (settledBytes 6777282044196416742) then settledBytes 6777282044196416742
  else if w = settledKeccak (settledBytes 6777282044196416743) then settledBytes 6777282044196416743
  else if w.bytes.head? = some 0x39 then
    digestInput expectedDomainSeparator (settledKeccak (settledBytes 6777282044196416742))
  else digestInput expectedDomainSeparator (settledKeccak (settledBytes 6777282044196416743))

theorem settled_encoding {salt : U128}
    (h : salt = 6777282044196416742 ∨ salt = 6777282044196416743) :
    (PolymarketOrder.settled salt).encoding (fun s => HexText.bytes s.toList) settledKeccak =
      some (.ok (settledBytes salt.toNat)) := by
  rcases h with rfl | rfl
  · change @Eq (Option (Except SigningError (List UInt8))) _ _
    decide +kernel
  · change @Eq (Option (Except SigningError (List UInt8))) _ _
    decide +kernel

theorem settledKeccak_injOn : Set.InjOn settledKeccak
    {settledBytes 6777282044196416742, settledBytes 6777282044196416743,
      digestInput expectedDomainSeparator (settledKeccak (settledBytes 6777282044196416742)),
      digestInput expectedDomainSeparator (settledKeccak (settledBytes 6777282044196416743))} := by
  have inverse : ∀ x ∈ [settledBytes 6777282044196416742, settledBytes 6777282044196416743,
      digestInput expectedDomainSeparator (settledKeccak (settledBytes 6777282044196416742)),
      digestInput expectedDomainSeparator (settledKeccak (settledBytes 6777282044196416743))],
      settledPreimage (settledKeccak x) = x := by
    decide +kernel
  intro x hx y hy same
  rw [← inverse x (by simpa using hx), same, inverse y (by simpa using hy)]

theorem PolymarketOrder.signed_iff_settled :
    (settledBytes 6777282044196416742 = settledBytes 6777282044196416743 ↔
      (settled 6777282044196416742).Agrees (settled 6777282044196416743)) ∧
    ((settled 6777282044196416742).digest (fun s => HexText.bytes s.toList) settledKeccak
        expectedDomainSeparator =
      (settled 6777282044196416743).digest (fun s => HexText.bytes s.toList) settledKeccak
        expectedDomainSeparator ↔
      (settled 6777282044196416742).Agrees (settled 6777282044196416743)) :=
  signed_iff (fun _ => rfl) (settled_encoding (.inl rfl)) (settled_encoding (.inr rfl))
    expectedDomainSeparator settledKeccak_injOn

end CopyTrading
