import CopyTrading.AbiWords
import CopyTrading.DecimalMachine
import CopyTrading.Dedup
import CopyTrading.Order

namespace CopyTrading

abbrev U128 := BitVec 128

def wordFromU128 (v : U128) : Word :=
  ⟨List.replicate 16 0 ++ BigEndian.bytes 16 v.toNat, by
    rw [List.length_append, List.length_replicate, BigEndian.length_bytes]⟩

def wordFromU8 (v : UInt8) : Word := ⟨List.replicate 31 0 ++ [v], rfl⟩

/-- `trim_start_matches` of a pattern of two characters. -/
def trimStartMatches (a b : Char) : List Char → List Char
  | c :: d :: s => if c = a ∧ d = b then trimStartMatches a b s else c :: d :: s
  | s => s

/-- An address text without its prefixes. -/
def addressBody (a : String) : List Char :=
  trimStartMatches '0' 'X' (trimStartMatches '0' 'x' a.toList)

/-- How the venue should validate the signature. -/
inductive SignatureType
  /-- A plain externally-owned account signs. -/
  | eoa
  /-- A Polymarket proxy wallet is the maker; an EOA signs on its behalf. -/
  | polyProxy
  deriving DecidableEq

def SignatureType.asU8 : SignatureType → UInt8
  | .eoa => 0
  | .polyProxy => 1

/-- The order exactly as the deployed contract hashes it. -/
structure PolymarketOrder where
  salt : U128
  /-- The account that holds the funds. -/
  maker : String
  /-- The account whose key signs. -/
  signer : String
  tokenId : String
  /-- Base units the maker gives. -/
  makerAmount : U128
  /-- Base units the maker receives. -/
  takerAmount : U128
  /-- 0 = BUY, 1 = SELL. -/
  side : UInt8
  signatureType : SignatureType
  timestamp : UInt64
  metadata : Word
  builder : Word
  deriving DecidableEq

/-- `Decimal::from(10u64.pow(decimals))`, which wraps in a release build. -/
def baseScale (decimals : UInt32) : Nat := 10 ^ decimals.toNat % 2 ^ 64

def roundBase (scaled : Decimal) (roundUp : Bool) : Int := if roundUp then ⌈scaled⌉ else ⌊scaled⌋

def toBase (scale : Nat) (d : Decimal) (roundUp : Bool) : Calc (Except SigningError U128) := do
  let scaled ← .op (d * scale)
  let r := roundBase scaled roundUp
  pure (if 0 ≤ r ∧ r < 2 ^ 128 then .ok (.ofNat 128 r.toNat)
    else .error (.badAmount (decimalText d)))

/-- The amount given up, then the amount asked for, unless the first is refused. -/
def toBasePair (given asked : Calc (Except SigningError U128)) :
    Calc (Except SigningError (U128 × U128)) := do
  match ← given with
  | .error e => pure (.error e)
  | .ok makerAmount =>
    match ← asked with
    | .error e => pure (.error e)
    | .ok takerAmount => pure (.ok (makerAmount, takerAmount))

/-- The maker's and the taker's amount. -/
def OrderRequest.baseAmounts (req : OrderRequest) (scale : Nat) :
    Calc (Except SigningError (U128 × U128)) := do
  let qty := req.quantity.get
  let px := req.limitPrice.get
  let notional ← .op (qty * px)
  match req.side with
  | .buy => toBasePair (toBase scale notional false) (toBase scale qty false)
  | .sell => toBasePair (toBase scale qty false) (toBase scale notional true)

def sideByte : Side → UInt8
  | .buy => 0
  | .sell => 1

/-- Builds an order from our venue-agnostic request. -/
def PolymarketOrder.fromRequest (req : OrderRequest) (maker signer : String)
    (signatureType : SignatureType) (salt : U128) (timestamp : UInt64) (decimals : UInt32) :
    Calc (Except SigningError PolymarketOrder) := do
  match ← req.baseAmounts (baseScale decimals) with
  | .error e => pure (.error e)
  | .ok (makerAmount, takerAmount) =>
    if makerAmount = 0 ∨ takerAmount = 0 then
      pure (.error (.badAmount ("order rounds to zero base units at " ++
        toString decimals.toNat ++ " decimals")))
    else pure (.ok {
      salt := salt
      maker := maker
      signer := signer
      tokenId := req.tokenId.asStr
      makerAmount := makerAmount
      takerAmount := takerAmount
      side := sideByte req.side
      signatureType := signatureType
      timestamp := timestamp
      metadata := .zero
      builder := .zero })

def orderType : String :=
  "Order(uint256 salt,address maker,address signer,uint256 tokenId,uint256 makerAmount," ++
  "uint256 takerAmount,uint8 side,uint8 signatureType,uint256 timestamp,bytes32 metadata," ++
  "bytes32 builder)"

section Hash

-- `hex::decode` and Keccak-256, which live in third-party crates
variable (decode : String → Option (List UInt8)) (keccak : List UInt8 → Word)

/-- Parses prefixed hex into a 20-byte address word. -/
def wordFromAddress (a : String) : Signing Word :=
  let s := String.ofList (addressBody a)
  if s.utf8ByteSize ≠ 40 then throw (.badAddress a)
  else
    match decode s with
    | none => throw (.badAddress a)
    | some bytes =>
      if size : bytes.length = 20 then
        pure ⟨List.replicate 12 0 ++ bytes, by
          rw [List.length_append, List.length_replicate, size]⟩
      else none

/-- The bytes that are hashed: the type, then a word for each field. -/
def PolymarketOrder.encoding (o : PolymarketOrder) : Signing (List UInt8) := do
  let typeHash := keccak orderType.toUTF8.toList
  let fields := [
    typeHash,
    wordFromU128 o.salt,
    ← wordFromAddress decode o.maker,
    ← wordFromAddress decode o.signer,
    ← wordFromDecimalString o.tokenId,
    wordFromU128 o.makerAmount,
    wordFromU128 o.takerAmount,
    wordFromU8 o.side,
    wordFromU8 o.signatureType.asU8,
    wordFromU128 (.ofNat 128 o.timestamp.toNat),
    o.metadata,
    o.builder]
  return fields.flatMap Word.bytes

def PolymarketOrder.structHash (o : PolymarketOrder) : Signing Word := do
  return keccak (← o.encoding decode keccak)

/-- The bytes of the EIP-712 digest: `0x19 0x01`, the domain separator, the struct hash. -/
def digestInput (domainSeparator structHash : Word) : List UInt8 :=
  [0x19, 0x01] ++ domainSeparator.bytes ++ structHash.bytes

def PolymarketOrder.digest (o : PolymarketOrder) (domainSeparator : Word) : Signing Word := do
  return keccak (digestInput domainSeparator (← o.structHash decode keccak))

end Hash

end CopyTrading
