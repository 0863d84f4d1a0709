import CopyTrading.Fallible
import CopyTrading.MarketWs
import CopyTrading.WireTrades

namespace CopyTrading

open SortedListing

/-- A level of the REST book. -/
structure ClobLevel where
  price : String
  size : String

/-- The REST book, absent fields at their defaults. -/
structure ClobBook where
  market : String
  assetId : String
  timestamp : Option String
  bids : List ClobLevel
  asks : List ClobLevel
  tickSize : Option String
  minOrderSize : Option String

section Parse

-- `str::parse::<Decimal>`
variable (parse : String → Option Decimal)

def ClobLevel.level (l : ClobLevel) : Option Level := do
  let price ← (parse l.price).bind fun d => (Price.new d).toOption
  let size ← (parse l.size).bind fun d => (Qty.new d).toOption
  if !size.isZero then some ⟨price, size⟩ else none

def Clob.levels (raw : List ClobLevel) : List Level := raw.filterMap (ClobLevel.level parse)

/-- Parses a CLOB book into the normalised, best-first representation. -/
def parseBookValue (b : ClobBook) (seq : Nat) (fallbackTs : DateTime) :
    Except ParseError OrderBook := do
  let bids := sortLevels .buy (Clob.levels parse b.bids)
  let asks := sortLevels .sell (Clob.levels parse b.asks)
  let timestamp := ((b.timestamp.bind parseI64).bind epochToUtc).getD fallbackTs
  let marketId ← fieldId "market" (MarketId.new b.market)
  let tokenId ← fieldId "asset_id" (TokenId.new b.assetId)
  return {
    marketId := marketId
    tokenId := tokenId
    bids := bids
    asks := asks
    tickSize := (b.tickSize.bind parse).getD (1 / 100)
    minOrderSize := (b.minOrderSize.bind parse).getD 5
    timestamp := timestamp
    seq := seq }

/-- A level of the wire that quotes a price within (0, 1) and a positive size. -/
def WireLevel.quoted (l : WireLevel) : Option Level :=
  match parse l.price, parse l.size with
  | some p, some q =>
    if h : (0 < p ∧ p < 1) ∧ 0 < q then some ⟨⟨p, h.1.1, h.1.2⟩, ⟨q, h.2.le⟩⟩ else none
  | _, _ => none

theorem Price.new_toOption (d : Decimal) : (Price.new d).toOption =
    if h : 0 < d ∧ d < 1 then some ⟨d, h.1, h.2⟩ else none := by
  unfold Price.new
  split <;> rfl

/-- A quantity that is not refused and not zero is positive. -/
theorem Qty.nonzero_eq {α : Type} (f : Qty → α) (d : Decimal) :
    ((Qty.new d).toOption.bind fun q => if !q.isZero then some (f q) else none) =
      if h : 0 < d then some (f ⟨d, h.le⟩) else none := by
  unfold Qty.new
  by_cases positive : 0 < d
  · have some_ : (⟨d, positive.le⟩ : Qty).isZero = false := Qty.isZero_false_iff.mpr positive
    simp [Except.toOption, positive, positive.le, some_]
  · rw [dif_neg positive]
    by_cases zero : d = 0
    · subst zero
      rfl
    · have negative : ¬0 ≤ d := fun le => positive (lt_of_le_of_ne le (Ne.symm zero))
      rw [dif_neg negative]
      rfl

theorem WireLevel.level_eq_quoted (l : WireLevel) : l.level parse = l.quoted parse := by
  unfold level quoted parsePrice
  cases parse l.price with
  | none => rfl
  | some p =>
    rw [Option.bind_some, Price.ofDecimal?, Price.new_toOption]
    by_cases inside : 0 < p ∧ p < 1
    · rw [dif_pos inside]
      cases parse l.size with
      | none => rfl
      | some q =>
        refine (Qty.nonzero_eq _ q).trans ?_
        simp only [inside, true_and]
    · rw [dif_neg inside]
      cases parse l.size with
      | none => rfl
      | some q =>
        have outside : ¬((0 < p ∧ p < 1) ∧ 0 < q) := fun h => inside h.1
        show none = dite _ _ _
        rw [dif_neg outside]

/-- The levels as the REST endpoint sends them. -/
def WireLevel.clob (l : WireLevel) : ClobLevel := ⟨l.price, l.size⟩

def ClobBook.withLevels (b : ClobBook) (raw : Side → List WireLevel) : ClobBook :=
  { b with bids := (raw .buy).map WireLevel.clob, asks := (raw .sell).map WireLevel.clob }

def WireBook.withLevels (b : WireBook) (raw : Side → List WireLevel) : WireBook :=
  { b with bids := raw .buy, asks := raw .sell }

/-- A book that one of the feeds makes of the levels. -/
inductive BookRead (raw : Side → List WireLevel) : OrderBook → Prop
  | rest {c : ClobBook} {seq : Nat} {fallback : DateTime} {b : OrderBook}
      (h : parseBookValue parse (c.withLevels raw) seq fallback = .ok b) : BookRead raw b
  | ws {w : WireBook} {seq : Nat} {fallback : DateTime} {b : OrderBook}
      (h : toBook parse (w.withLevels raw) seq fallback = some b) : BookRead raw b

theorem levels_eq_quoted (raw : List WireLevel) :
    levels parse raw = raw.filterMap (WireLevel.quoted parse) :=
  List.filterMap_congr fun l _ => l.level_eq_quoted parse

theorem Clob.levels_eq_quoted (raw : List WireLevel) :
    Clob.levels parse (raw.map WireLevel.clob) = raw.filterMap (WireLevel.quoted parse) := by
  rw [← CopyTrading.levels_eq_quoted]
  exact List.filterMap_map

variable {parse}

/-- Either feed sorts what the levels quote. -/
theorem BookRead.side_eq {raw : Side → List WireLevel} {b : OrderBook}
    (h : BookRead parse raw b) (side : Side) :
    b.side side = sortLevels side ((raw side).filterMap (WireLevel.quoted parse)) := by
  cases h with
  | rest h =>
    obtain ⟨market, _, h⟩ := Fallible.bind_eq_ok h
    obtain ⟨token, _, h⟩ := Fallible.bind_eq_ok h
    cases h
    cases side with
    | buy => exact congrArg (sortLevels .buy) (Clob.levels_eq_quoted parse (raw .buy))
    | sell => exact congrArg (sortLevels .sell) (Clob.levels_eq_quoted parse (raw .sell))
  | ws h =>
    obtain ⟨bids, asks, _, _⟩ := toBook_eq_some h
    cases side with
    | buy => exact bids.trans (congrArg (sortLevels .buy) (levels_eq_quoted parse (raw .buy)))
    | sell => exact asks.trans (congrArg (sortLevels .sell) (levels_eq_quoted parse (raw .sell)))

/-- Levels of distinct prices have one order. -/
theorem sortLevels_congr {side : Side} {ls ls' : List Level} (perm : ls.Perm ls')
    (distinct : (ls.map Level.price).Nodup) : sortLevels side ls = sortLevels side ls' := by
  have sorted : (sortLevels side ls).Perm (sortLevels side ls') :=
    ((sortLevels_perm side ls).trans perm).trans (sortLevels_perm side ls').symm
  have ranks : ((sortLevels side ls).map (Level.rank side)).Nodup := by
    refine (((sortLevels_perm side ls).map _).nodup_iff).mpr ?_
    refine List.pairwise_map.mpr ((List.pairwise_map.mp distinct).imp ?_)
    intro a b ne same
    exact ne (Level.rank_eq_iff.mp same)
  exact eq_of_ascending sorted ranks (sortLevels_ascending side ls) (sortLevels_ascending side ls')

variable (parse)

/-- Both feeds refuse a book for its ids alone. -/
theorem feeds_agree (raw : Side → List WireLevel) (c : ClobBook) (w : WireBook)
    (seq seq' : Nat) (fallback fallback' : DateTime) (market : c.market = w.market)
    (asset : c.assetId = w.assetId) :
    (parseBookValue parse (c.withLevels raw) seq fallback).toOption.isSome =
      (toBook parse (w.withLevels raw) seq' fallback').isSome := by
  unfold parseBookValue toBook ClobBook.withLevels WireBook.withLevels
  simp only [market, asset]
  cases MarketId.new w.market with
  | error e => rfl
  | ok marketId =>
    cases TokenId.new w.assetId with
    | error e => rfl
    | ok tokenId => rfl

/-- Of the same levels both feeds make the same book: each side lists what the levels quote,
best-first, whatever their order if no price is quoted twice. -/
theorem books_normalised (raw : Side → List WireLevel) :
    (∀ (c : ClobBook) (w : WireBook) (seq seq' : Nat) (fallback fallback' : DateTime),
      c.market = w.market → c.assetId = w.assetId →
      (parseBookValue parse (c.withLevels raw) seq fallback).toOption.isSome =
        (toBook parse (w.withLevels raw) seq' fallback').isSome) ∧
    ∀ b, BookRead parse raw b → ∀ side,
      (b.side side).Pairwise (fun l l' => l.rank side ≤ l'.rank side) ∧
      (b.side side).Perm ((raw side).filterMap (WireLevel.quoted parse)) ∧
      ∀ raw' b', BookRead parse raw' b' →
        (raw' side = raw side → b'.side side = b.side side) ∧
        ((((raw side).filterMap (WireLevel.quoted parse)).map Level.price).Nodup →
          (raw' side).Perm (raw side) → b'.side side = b.side side) := by
  refine ⟨feeds_agree parse raw, ?_⟩
  intro b h side
  rw [h.side_eq side]
  refine ⟨sortLevels_ascending side _, sortLevels_perm side _, ?_⟩
  intro raw' b' h'
  rw [h'.side_eq side]
  constructor
  · intro same
    rw [same]
  · intro distinct perm
    exact (sortLevels_congr (perm.symm.filterMap _) distinct).symm

end Parse

end CopyTrading
