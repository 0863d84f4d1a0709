import Mathlib.Data.Set.Function
import CopyTrading.BigEndian
import CopyTrading.DecimalText
import CopyTrading.Fallible
import CopyTrading.Tracker
import CopyTrading.Utf8Text
import CopyTrading.WireTrades

namespace CopyTrading

/-- Two spellings of one hex identifier: spaces around it and letter case aside. -/
def SameHex (a b : String) : Prop :=
  (trim a.toList).map Char.toLower = (trim b.toList).map Char.toLower

theorem TxHash.new_ok {text : String} {t : TxHash} (h : TxHash.new text = .ok t) :
    t.asStr = String.ofList ((trim text.toList).map Char.toLower) := by
  unfold TxHash.new at h
  split at h
  next body trimmed =>
    split at h
    next =>
      cases h
      rw [trimmed]
      rfl
    next => cases h
  next => cases h

theorem Address.new_ok {text : String} {a : Address} (h : Address.new text = .ok a) :
    a.asStr = String.ofList ((trim text.toList).map Char.toLower) := by
  unfold Address.new at h
  split at h
  next x body trimmed =>
    split at h
    next valid =>
      cases h
      rw [trimmed]
      rcases valid.1 with rfl | rfl
      · rfl
      · rfl
    next => cases h
  next => cases h

theorem TxHash.asStr_inj {a b : TxHash} : a.asStr = b.asStr ↔ a = b := by
  obtain ⟨_, _⟩ := a
  obtain ⟨_, _⟩ := b
  exact (TxHash.mk.injEq ..).to_iff.symm

theorem Address.asStr_inj {a b : Address} : a.asStr = b.asStr ↔ a = b := by
  obtain ⟨_, _⟩ := a
  obtain ⟨_, _⟩ := b
  exact (Address.mk.injEq ..).to_iff.symm

theorem TxHash.eq_iff_sameHex {s t : String} {a b : TxHash} (left : TxHash.new s = .ok a)
    (right : TxHash.new t = .ok b) : a = b ↔ SameHex s t := by
  rw [← asStr_inj, new_ok left, new_ok right]
  exact String.ofList_inj

theorem Address.eq_iff_sameHex {s t : String} {a b : Address} (left : Address.new s = .ok a)
    (right : Address.new t = .ok b) : a = b ↔ SameHex s t := by
  rw [← asStr_inj, new_ok left, new_ok right]
  exact String.ofList_inj

/-- One delivery of a trade, on either wire. -/
inductive TradeDelivery
  | rtds (raw : String) (receivedAt : DateTime)
  | dataApi (row : WireTrade) (receivedAt : DateTime)

section Parse

variable (parse : String → Option Decimal) (read : String → Except String RtdsEnvelope)

def TradeDelivery.parsed : TradeDelivery → Option ParsedTrade
  | .rtds raw receivedAt =>
    match parseRtdsFrame parse read raw receivedAt with
    | .ok (.trade t) => some t
    | _ => none
  | .dataApi row receivedAt => (parseDataApiTrade parse row receivedAt).toOption

/-- The fields as they came. -/
def TradeDelivery.wire : TradeDelivery → Option WireTrade
  | .rtds raw _ => (read (String.ofList (trim raw.toList))).toOption.bind RtdsEnvelope.payload
  | .dataApi row _ => some row

/-- `t` holds what was read of the identifying fields. -/
structure WireTrade.Reads (w : WireTrade) (t : ParsedTrade) : Prop where
  trader : Address.new w.proxyWallet = .ok t.trader
  tokenId : TokenId.new w.asset = .ok t.tokenId
  side : Wire.parseSide w.side = .ok t.side
  price : Price.fromFeedF64 parse w.price = .ok t.price
  quantity : Qty.fromFeedF64 parse w.size = .ok t.quantity
  txHash : TxHash.new w.transactionHash = .ok t.txHash

theorem parseDataApiTrade_reads {w : WireTrade} {t : ParsedTrade} (receivedAt : DateTime)
    (h : parseDataApiTrade parse w receivedAt = .ok t) : w.Reads parse t := by
  unfold parseDataApiTrade at h
  obtain ⟨trader, first, h⟩ := Fallible.bind_eq_ok h
  obtain ⟨marketId, _, h⟩ := Fallible.bind_eq_ok h
  obtain ⟨tokenId, third, h⟩ := Fallible.bind_eq_ok h
  obtain ⟨side, fourth, h⟩ := Fallible.bind_eq_ok h
  obtain ⟨price, fifth, h⟩ := Fallible.bind_eq_ok h
  obtain ⟨quantity, sixth, h⟩ := Fallible.bind_eq_ok h
  obtain ⟨txHash, seventh, h⟩ := Fallible.bind_eq_ok h
  obtain ⟨sourceTs, _, h⟩ := Fallible.bind_eq_ok h
  cases h
  exact ⟨Fallible.mapError_eq_ok first, Fallible.mapError_eq_ok third, fourth,
    Fallible.mapError_eq_ok fifth, Fallible.mapError_eq_ok sixth,
    Fallible.mapError_eq_ok seventh⟩

theorem parseRtdsFrame_reads {raw : String} {receivedAt : DateTime} {t : ParsedTrade}
    (h : parseRtdsFrame parse read raw receivedAt = .ok (.trade t)) :
    ∃ w, (TradeDelivery.rtds raw receivedAt).wire read = some w ∧ w.Reads parse t := by
  unfold parseRtdsFrame at h
  simp only at h
  split at h
  next => cases h
  obtain ⟨env, deserialised, h⟩ := Fallible.bind_eq_ok h
  split at h
  next => cases h
  split at h
  next => cases h
  next p payload =>
    obtain ⟨stamp, _, h⟩ := Fallible.bind_eq_ok h
    obtain ⟨trader, first, h⟩ := Fallible.bind_eq_ok h
    obtain ⟨marketId, _, h⟩ := Fallible.bind_eq_ok h
    obtain ⟨tokenId, third, h⟩ := Fallible.bind_eq_ok h
    obtain ⟨side, fourth, h⟩ := Fallible.bind_eq_ok h
    obtain ⟨price, fifth, h⟩ := Fallible.bind_eq_ok h
    obtain ⟨quantity, sixth, h⟩ := Fallible.bind_eq_ok h
    obtain ⟨txHash, seventh, h⟩ := Fallible.bind_eq_ok h
    cases h
    refine ⟨p, ?_, Fallible.mapError_eq_ok first, Fallible.mapError_eq_ok third, fourth,
      Fallible.mapError_eq_ok fifth, Fallible.mapError_eq_ok sixth,
      Fallible.mapError_eq_ok seventh⟩
    show (read (String.ofList (trim raw.toList))).toOption.bind RtdsEnvelope.payload = some p
    rw [Fallible.mapError_eq_ok deserialised]
    exact payload

/-- Both wires read the identifying fields alike. -/
theorem TradeDelivery.reads {d : TradeDelivery} {t : ParsedTrade}
    (h : d.parsed parse read = some t) : ∃ w, d.wire read = some w ∧ w.Reads parse t := by
  cases d with
  | rtds raw receivedAt =>
    unfold TradeDelivery.parsed at h
    simp only at h
    split at h
    next t' parsed =>
      cases h
      exact parseRtdsFrame_reads parse read parsed
    next => cases h
  | dataApi row receivedAt =>
    refine ⟨row, rfl, parseDataApiTrade_reads parse receivedAt ?_⟩
    unfold TradeDelivery.parsed at h
    simp only at h
    cases result : parseDataApiTrade parse row receivedAt with
    | error e =>
      rw [result] at h
      cases h
    | ok t' =>
      rw [result] at h
      cases h
      rfl

/-- A `Decimal` has at most 28 digits after the point. -/
def ShortDecimals : Prop := ∀ text d, parse text = some d → (d * 10 ^ 28).den = 1

variable {parse read}

theorem feedDecimal_ok {v : FeedF64} {d : Decimal} (h : feedDecimal parse v = .ok d) :
    parse v.text = some d := by
  unfold feedDecimal at h
  split at h
  next => cases h
  next =>
    split at h
    next parsed =>
      cases h
      exact parsed
    next => cases h

theorem Price.new_ok {d : Decimal} {p : Price} (h : Price.new d = .ok p) : p.get = d := by
  unfold Price.new at h
  split at h
  next =>
    cases h
    rfl
  next => cases h

theorem Qty.new_ok {d : Decimal} {q : Qty} (h : Qty.new d = .ok q) : q.get = d := by
  unfold Qty.new at h
  split at h
  next =>
    cases h
    rfl
  next => cases h

theorem Price.fromFeedF64_ok {v : FeedF64} {p : Price} (h : Price.fromFeedF64 parse v = .ok p) :
    parse v.text = some p.get := by
  obtain ⟨d, read, made⟩ := Fallible.bind_eq_ok h
  rw [new_ok made]
  exact feedDecimal_ok read

theorem Qty.fromFeedF64_ok {v : FeedF64} {q : Qty} (h : Qty.fromFeedF64 parse v = .ok q) :
    parse v.text = some q.get := by
  obtain ⟨d, read, made⟩ := Fallible.bind_eq_ok h
  rw [new_ok made]
  exact feedDecimal_ok read

/-- The content key tells exactly the content. -/
theorem WireTrade.Reads.keyOf_eq_iff (short : ShortDecimals parse) {w w' : WireTrade}
    {t t' : ParsedTrade} (h : w.Reads parse t) (h' : w'.Reads parse t') : t.keyOf = t'.keyOf ↔
      SameHex w.transactionHash w'.transactionHash ∧ SameHex w.proxyWallet w'.proxyWallet ∧
        t.tokenId = t'.tokenId ∧ t.side = t'.side ∧ t.price.get = t'.price.get ∧
        t.quantity.get = t'.quantity.get := by
  rw [← TxHash.eq_iff_sameHex h.txHash h'.txHash, ← Address.eq_iff_sameHex h.trader h'.trader]
  constructor
  · intro same
    have price : decimalText t.price.get = decimalText t'.price.get :=
      congrArg ContentKey.price same
    have size : decimalText t.quantity.get = decimalText t'.quantity.get :=
      congrArg ContentKey.size same
    exact ⟨congrArg ContentKey.txHash same, congrArg ContentKey.trader same,
      congrArg ContentKey.tokenId same, congrArg ContentKey.side same,
      decimalText_injective t.price.pos.le (short _ _ (Price.fromFeedF64_ok h.price))
        t'.price.pos.le (short _ _ (Price.fromFeedF64_ok h'.price)) price,
      decimalText_injective t.quantity.nonneg (short _ _ (Qty.fromFeedF64_ok h.quantity))
        t'.quantity.nonneg (short _ _ (Qty.fromFeedF64_ok h'.quantity)) size⟩
  · rintro ⟨txHash, trader, tokenId, side, price, size⟩
    unfold ParsedTrade.keyOf ContentKey.new
    rw [txHash, trader, tokenId, side, price, size]

end Parse

/-- Printable ASCII. -/
def PlainText (s : String) : Prop := ∀ c ∈ s.toList, 32 ≤ c.toNat ∧ c.toNat < 128

theorem PlainText.bytes {s : String} (plain : PlainText s) : 0x1f ∉ s.toUTF8.toList := by
  have bytes := Utf8Text.toUTF8_ascii fun c mem => (plain c mem).2
  rw [String.ofList_toList] at bytes
  rw [bytes]
  intro mem
  obtain ⟨c, listed, same⟩ := List.mem_map.mp mem
  have bounds := plain c listed
  have value := congrArg UInt8.toNat same
  rw [UInt8.toNat_ofNat'] at value
  change c.toNat % 256 = 31 at value
  omega

theorem plain_of_isLowerHexDigit {c : Char} (hex : isLowerHexDigit c = true) :
    32 ≤ c.toNat ∧ c.toNat < 128 := by
  rcases Bool.or_eq_true_iff.mp hex with digit | letter
  · have bounds := isDigit_bounds digit
    omega
  · obtain ⟨low, high⟩ := Bool.and_eq_true_iff.mp letter
    have least : 97 ≤ c.toNat := UInt32.le_iff_toNat_le.mp (of_decide_eq_true low)
    have most : c.toNat ≤ 102 := UInt32.le_iff_toNat_le.mp (of_decide_eq_true high)
    omega

theorem plain_of_isHexText {want : Nat} {s : String} (hex : isHexText want s.toList = true) :
    PlainText s := by
  intro c mem
  obtain ⟨body, text, _, _, _⟩ := isHexText_cases hex
  unfold isHexText at hex
  rw [text] at hex mem
  have digits := (Bool.and_eq_true_iff.mp hex).2
  rcases List.mem_cons.mp mem with rfl | mem
  · decide
  rcases List.mem_cons.mp mem with rfl | mem
  · decide
  exact plain_of_isLowerHexDigit (List.all_eq_true.mp digits c mem)

theorem plain_append {s t : String} (left : PlainText s) (right : PlainText t) :
    PlainText (s ++ t) := by
  intro c mem
  rw [String.toList_append] at mem
  rcases List.mem_append.mp mem with mem | mem
  · exact left c mem
  · exact right c mem

theorem plain_nat (n : Nat) : PlainText (toString n) := by
  intro c mem
  have digits : (toString n).toList = Nat.toDigits 10 n := Nat.toList_repr
  rw [digits] at mem
  have bounds := isDigit_bounds (Nat.isDigit_of_mem_toDigits (by decide) (by decide) mem)
  omega

theorem plain_decimalText (d : Decimal) : PlainText (decimalText d) := by
  have sign : PlainText (if d < 0 then "-" else "") := by
    intro c mem
    split at mem
    next => simp_all
    next => cases mem
  have point : PlainText "." := by
    intro c mem
    simp_all
  have zeros : ∀ n, PlainText (String.ofList (List.replicate n '0')) := by
    intro n c mem
    rw [String.toList_ofList] at mem
    rw [(List.mem_replicate.mp mem).2]
    decide
  unfold decimalText
  simp only
  split
  next => exact plain_append sign (plain_nat _)
  next =>
    exact plain_append (plain_append (plain_append (plain_append sign (plain_nat _)) point)
      (zeros _)) (plain_nat _)

/-- The texts that are hashed of a key. -/
def ContentKey.fields (key : ContentKey) : List String :=
  [key.txHash.asStr, key.trader.asStr, key.tokenId.asStr, key.side.asStr, key.price, key.size]

theorem ContentKey.preimage_eq (key : ContentKey) (n : Nat) : key.preimage n =
    ((key.fields.map fun field => field.toUTF8.toList).flatMap fun bytes => bytes ++ [0x1f]) ++
      BigEndian.bytes 4 n := by
  have ordinal : toBeBytes n = BigEndian.bytes 4 n := by simp [toBeBytes, BigEndian.bytes]
  rw [← ordinal, List.flatMap_map]
  rfl

theorem ContentKey.eq_of_fields {key key' : ContentKey} (same : key.fields = key'.fields) :
    key = key' := by
  have sides : ∀ {s s' : Side}, s.asStr = s'.asStr → s = s' := by
    intro s s' text
    cases s <;> cases s' <;> first | rfl | exact absurd text (by decide)
  obtain ⟨⟨hash, _⟩, ⟨trader, _⟩, ⟨token, _⟩, side, price, size⟩ := key
  obtain ⟨⟨hash', _⟩, ⟨trader', _⟩, ⟨token', _⟩, side', price', size'⟩ := key'
  simp only [fields, List.cons.injEq, and_true] at same
  obtain ⟨rfl, rfl, rfl, text, rfl, rfl⟩ := same
  rw [sides text]

/-- The texts of a trade's key hold no separator. -/
theorem ParsedTrade.plain_fields (t : ParsedTrade) :
    ∀ bytes ∈ t.keyOf.fields.map (fun field => field.toUTF8.toList), 0x1f ∉ bytes := by
  have token : PlainText t.tokenId.asStr := by
    intro c mem
    have bounds := isDigit_bounds (t.tokenId.isDigit c mem)
    omega
  have side : PlainText t.side.asStr := by
    cases t.side with
    | buy =>
      intro c mem
      have letters : c = 'B' ∨ c = 'U' ∨ c = 'Y' := by simpa [Side.asStr] using mem
      rcases letters with rfl | rfl | rfl <;> decide
    | sell =>
      intro c mem
      have letters : c = 'S' ∨ c = 'E' ∨ c = 'L' := by simpa [Side.asStr] using mem
      rcases letters with rfl | rfl | rfl <;> decide
  have plain : ∀ field ∈ t.keyOf.fields, PlainText field := by
    intro field mem
    simp only [ContentKey.fields, List.mem_cons, List.not_mem_nil, or_false] at mem
    rcases mem with rfl | rfl | rfl | rfl | rfl | rfl
    · exact plain_of_isHexText t.txHash.valid
    · exact plain_of_isHexText t.trader.valid
    · exact token
    · exact side
    · exact plain_decimalText t.price.get
    · exact plain_decimalText t.quantity.get
  intro bytes mem
  obtain ⟨field, listed, rfl⟩ := List.mem_map.mp mem
  exact (plain field listed).bytes

/-- The hashed bytes tell the key and the ordinal, which is a `u32`. -/
theorem ParsedTrade.preimage_eq_iff (t t' : ParsedTrade) (n m : UInt32) :
    t.keyOf.preimage n.toNat = t'.keyOf.preimage m.toNat ↔ (t.keyOf, n) = (t'.keyOf, m) := by
  constructor
  · intro same
    rw [ContentKey.preimage_eq, ContentKey.preimage_eq] at same
    obtain ⟨fields, ordinal⟩ :=
      Utf8Text.terminated_inj (by rfl) t.plain_fields t'.plain_fields same
    have texts : t.keyOf.fields = t'.keyOf.fields :=
      (List.map_inj_right fun _ _ => Utf8Text.toUTF8_inj).mp fields
    have count : n.toNat = m.toNat := (BigEndian.bytes_inj n.toNat_lt m.toNat_lt).mp ordinal
    rw [ContentKey.eq_of_fields texts, UInt32.toNat_inj.mp count]
  · intro same
    obtain ⟨key, rfl⟩ := Prod.mk.inj same
    rw [key]

section Parse

variable {parse : String → Option Decimal} {read : String → Except String RtdsEnvelope}

/-- Of two deliveries that parse, the content keys are equal exactly if the contents are, the bytes
hashed for their ids exactly if the keys and the ordinals are, and so the ids, unless the digest
collides on these bytes. -/
theorem content_identity (short : ShortDecimals parse) {d d' : TradeDelivery} {t t' : ParsedTrade}
    (h : d.parsed parse read = some t) (h' : d'.parsed parse read = some t') (n m : UInt32)
    (digest : List UInt8 → String)
    (free : Set.InjOn digest {t.keyOf.preimage n.toNat, t'.keyOf.preimage m.toNat}) :
    ∃ w w', d.wire read = some w ∧ d'.wire read = some w' ∧
      (t.keyOf = t'.keyOf ↔
        SameHex w.transactionHash w'.transactionHash ∧ SameHex w.proxyWallet w'.proxyWallet ∧
        t.tokenId = t'.tokenId ∧ t.side = t'.side ∧ t.price.get = t'.price.get ∧
        t.quantity.get = t'.quantity.get) ∧
      (t.keyOf.preimage n.toNat = t'.keyOf.preimage m.toNat ↔ (t.keyOf, n) = (t'.keyOf, m)) ∧
      (t.keyOf.eventId digest n.toNat = t'.keyOf.eventId digest m.toNat ↔
        (t.keyOf, n) = (t'.keyOf, m)) := by
  obtain ⟨w, wire, reads⟩ := TradeDelivery.reads parse read h
  obtain ⟨w', wire', reads'⟩ := TradeDelivery.reads parse read h'
  have preimages := t.preimage_eq_iff t' n m
  refine ⟨w, w', wire, wire', reads.keyOf_eq_iff short reads', preimages, ?_⟩
  rw [← preimages]
  constructor
  · intro same
    exact free (by simp) (by simp) (SourceEventId.mk.inj same)
  · intro same
    unfold ContentKey.eventId
    rw [same]

end Parse

/-- A row of the backfill. -/
def WireTrade.sample : WireTrade :=
  ⟨Address.zero.asStr, "BUY", "0", MarketId.zero.asStr, "Down", ⟨true, "0.5"⟩, ⟨true, "200"⟩, 0,
    TxHash.zero.asStr, "T", "t"⟩

/-- The same row, spelled otherwise. -/
def WireTrade.respelled : WireTrade :=
  { WireTrade.sample with
    proxyWallet := " 0X0000000000000000000000000000000000000000", side := "buy" }

/-- What is read of both rows. -/
def ParsedTrade.backfilled : ParsedTrade :=
  { ParsedTrade.sample with sourceIsCoarse := true, source := .restBackfill }

def parseDecimals (text : String) : Option Decimal :=
  if text = "0.5" then some (1 / 2)
  else if text = "200" then some 200
  else if text = "0.12345678901" then some (12345678901 / 100000000000)
  else none

theorem parseDecimals_short : ShortDecimals parseDecimals := by
  intro text d parsed
  unfold parseDecimals at parsed
  split at parsed
  next =>
    cases parsed
    decide +kernel
  next =>
    split at parsed
    next =>
      cases parsed
      decide +kernel
    next =>
      split at parsed
      next =>
        cases parsed
        decide +kernel
      next => cases parsed

theorem WireTrade.sample_parsed : (TradeDelivery.dataApi .sample 0).parsed parseDecimals
    (fun _ => .error "") = some .backfilled := by
  decide +kernel

/-- SHA-256 of the two strings hashed for the first and the second such fill. -/
def digestSample (bytes : List UInt8) : String :=
  if bytes = ParsedTrade.backfilled.keyOf.preimage 0 then
    "1f90ac60dcc7e1c92cabbfed0564f222ebd55747fe440b8ecbfb6399c80491ab"
  else "6919e8f965a883ec2798da20b1e8e2a4fda6c1fc51dba93fa55ac906ced81b5b"

theorem content_identity_sample : ∃ w w',
    (TradeDelivery.dataApi .respelled 0).wire (fun _ => .error "") = some w ∧
    (TradeDelivery.dataApi .sample 0).wire (fun _ => .error "") = some w' ∧
    (ParsedTrade.backfilled.keyOf = ParsedTrade.backfilled.keyOf ↔
      SameHex w.transactionHash w'.transactionHash ∧ SameHex w.proxyWallet w'.proxyWallet ∧
      TokenId.zero = .zero ∧ Side.buy = .buy ∧ (1 / 2 : Decimal) = 1 / 2 ∧
      (200 : Decimal) = 200) ∧
    (ParsedTrade.backfilled.keyOf.preimage 0 = ParsedTrade.backfilled.keyOf.preimage 1 ↔
      (ParsedTrade.backfilled.keyOf, (0 : UInt32)) = (ParsedTrade.backfilled.keyOf, 1)) ∧
    (ParsedTrade.backfilled.keyOf.eventId digestSample 0 =
        ParsedTrade.backfilled.keyOf.eventId digestSample 1 ↔
      (ParsedTrade.backfilled.keyOf, (0 : UInt32)) = (ParsedTrade.backfilled.keyOf, 1)) := by
  have first : (TradeDelivery.dataApi .respelled 0).parsed parseDecimals (fun _ => .error "") =
      some .backfilled := by
    decide +kernel
  have free : Set.InjOn digestSample {ParsedTrade.backfilled.keyOf.preimage (0 : UInt32).toNat,
      ParsedTrade.backfilled.keyOf.preimage (1 : UInt32).toNat} := by
    have differ : digestSample (ParsedTrade.backfilled.keyOf.preimage 0) ≠
        digestSample (ParsedTrade.backfilled.keyOf.preimage 1) := by
      decide +kernel
    rintro x (rfl | rfl) y (rfl | rfl) same
    · rfl
    · exact absurd same differ
    · exact absurd same.symm differ
    · rfl
  exact content_identity parseDecimals_short first WireTrade.sample_parsed 0 1 digestSample free

end CopyTrading
