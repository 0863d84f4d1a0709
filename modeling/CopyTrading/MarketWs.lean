import CopyTrading.Book
import CopyTrading.SortedListing

namespace CopyTrading

open SortedListing

structure WireLevel where
  price : String
  size : String
  deriving DecidableEq

structure WireBook where
  market : String
  assetId : String
  bids : List WireLevel
  asks : List WireLevel
  tickSize : Option String
  timestamp : Option String

structure WirePriceChange where
  assetId : String
  price : String
  size : String
  side : String
  bestBid : Option String
  bestAsk : Option String

/-- One deserialised frame, absent fields at their defaults. -/
structure WireFrame where
  eventType : String
  market : String
  assetId : String
  timestamp : Option String
  bids : List WireLevel
  asks : List WireLevel
  tickSize : Option String
  priceChanges : List WirePriceChange
  newTickSize : Option String

/-- What one frame told us. -/
inductive MarketEvent
  /-- A full snapshot; replaces any existing book for the token. -/
  | snapshot (book : OrderBook)
  /-- One level replaced: `size` is the new aggregate at this level, and zero deletes it. -/
  | levelChange (tokenId : TokenId) (side : Side) (price : Price) (size : Decimal)
      (bestBid bestAsk : Option Price)
  | tickSizeChanged (tokenId : TokenId) (tickSize : Decimal)
  | ignored
  deriving DecidableEq

/-- `sort_by_key` on the price, reversed for bids. -/
def sortLevels : Side → List Level → List Level
  | .buy, ls => ls.insertionSort fun a b => b.price.get ≤ a.price.get
  | .sell, ls => ls.insertionSort fun a b => a.price.get ≤ b.price.get

def OrderBook.side (b : OrderBook) : Side → List Level
  | .buy => b.bids
  | .sell => b.asks

/-- `str::parse::<i64>`. -/
def parseI64 (text : String) : Option Int :=
  let digits (s : List Char) (sign : Int) : Option Int :=
    let v := sign * Nat.ofDigitChars 10 s 0
    if s != [] && s.all Char.isDigit && -2 ^ 63 ≤ v && v < 2 ^ 63 then some v else none
  match text.toList with
  | '-' :: s => digits s (-1)
  | '+' :: s => digits s 1
  | s => digits s 1

section Parsing

-- `str::parse::<Decimal>`
variable (parse : String → Option Decimal)

def parsePrice (text : String) : Option Price := (parse text).bind Price.ofDecimal?

def WireLevel.level (l : WireLevel) : Option Level := do
  let p ← parsePrice parse l.price
  let s ← (parse l.size).bind fun d => (Qty.new d).toOption
  if !s.isZero then some ⟨p, s⟩ else none

def levels (raw : List WireLevel) : List Level := raw.filterMap (WireLevel.level parse)

def toBook (b : WireBook) (seq : Nat) (fallback : DateTime) : Option OrderBook := do
  let marketId ← (MarketId.new b.market).toOption
  let tokenId ← (TokenId.new b.assetId).toOption
  some {
    marketId := marketId
    tokenId := tokenId
    bids := sortLevels .buy (levels parse b.bids)
    asks := sortLevels .sell (levels parse b.asks)
    tickSize := (b.tickSize.bind parse).getD (1 / 100)
    -- the frame omits the minimum order size
    minOrderSize := 5
    timestamp := ((b.timestamp.bind parseI64).bind epochToUtc).getD fallback
    seq := seq }

def WirePriceChange.event (c : WirePriceChange) : Option MarketEvent := do
  let token ← (TokenId.new c.assetId).toOption
  let price ← parsePrice parse c.price
  let size ← parse c.size
  let side ← match c.side.toUpper with
    | "BUY" => some Side.buy
    | "SELL" => some Side.sell
    | _ => none
  some (.levelChange token side price size (c.bestBid.bind (parsePrice parse))
    (c.bestAsk.bind (parsePrice parse)))

def WireFrame.book (f : WireFrame) : WireBook :=
  ⟨f.market, f.assetId, f.bids, f.asks, f.tickSize, f.timestamp⟩

/-- The events of the `i`-th frame of a message. -/
def WireFrame.events (f : WireFrame) (seq i : Nat) (receivedAt : DateTime) : List MarketEvent :=
  match f.eventType with
  | "book" => (toBook parse f.book (seq + i) receivedAt).toList.map .snapshot
  | "price_change" => f.priceChanges.filterMap (WirePriceChange.event parse)
  | "tick_size_change" =>
    match (TokenId.new f.assetId).toOption, f.newTickSize.bind parse with
    | some token, some ts => [.tickSizeChanged token ts]
    | _, _ => []
  | _ => [.ignored]

/-- The events of one text message whose JSON has been read. -/
def parseMarketFrames (frames : List WireFrame) (seq : Nat) (receivedAt : DateTime) :
    List MarketEvent :=
  let out := (frames.zipIdx.map fun (f, i) => f.events parse seq i receivedAt).flatten
  if out.isEmpty then [.ignored] else out

variable {parse}

/-- What a book that was made of a wire book holds. -/
theorem toBook_eq_some {b : WireBook} {seq : Nat} {fallback : DateTime} {book : OrderBook}
    (h : toBook parse b seq fallback = some book) :
    book.bids = sortLevels .buy (levels parse b.bids) ∧
      book.asks = sortLevels .sell (levels parse b.asks) ∧
      book.tickSize = (b.tickSize.bind parse).getD (1 / 100) ∧ book.minOrderSize = 5 := by
  obtain ⟨market, _, h⟩ := Option.bind_eq_some_iff.mp h
  obtain ⟨token, _, h⟩ := Option.bind_eq_some_iff.mp h
  cases h
  exact ⟨rfl, rfl, rfl, rfl⟩

/-- A price change tells of a level and of nothing else. -/
theorem levelChange_of_change {c : WirePriceChange} {ev : MarketEvent}
    (h : c.event parse = some ev) : ∃ token side price size bestBid bestAsk,
      ev = .levelChange token side price size bestBid bestAsk := by
  unfold WirePriceChange.event at h
  obtain ⟨token, _, h⟩ := Option.bind_eq_some_iff.mp h
  obtain ⟨price, _, h⟩ := Option.bind_eq_some_iff.mp h
  obtain ⟨size, _, h⟩ := Option.bind_eq_some_iff.mp h
  simp only at h
  split at h
  · cases h
    exact ⟨_, _, _, _, _, _, rfl⟩
  · cases h
    exact ⟨_, _, _, _, _, _, rfl⟩
  · cases h

/-- Only a book frame makes a snapshot. -/
theorem snapshot_of_frame {f : WireFrame} {seq i : Nat} {at_ : DateTime} {book : OrderBook}
    (h : .snapshot book ∈ f.events parse seq i at_) :
    toBook parse f.book (seq + i) at_ = some book := by
  unfold WireFrame.events at h
  split at h
  · obtain ⟨b, mem, same⟩ := List.mem_map.mp h
    cases same
    exact Option.mem_toList.mp mem
  · obtain ⟨c, _, made⟩ := List.mem_filterMap.mp h
    obtain ⟨_, _, _, _, _, _, is⟩ := levelChange_of_change made
    cases is
  · split at h
    · cases List.mem_singleton.mp h
    · cases h
  · cases List.mem_singleton.mp h

end Parsing

/-- Maintains books from a stream of events. -/
structure BookBuilder where
  books : AList fun _ : TokenId => OrderBook
  /-- Preserved across snapshots, since book frames omit it. -/
  minOrderSize : AList fun _ : TokenId => Decimal
  integrityFailures : Nat

def BookBuilder.new : BookBuilder := ⟨∅, ∅, 0⟩

def BookBuilder.get (bb : BookBuilder) (t : TokenId) : Option OrderBook := bb.books.lookup t

/-- One level of one side set to its new aggregate size. -/
def setLevel (side : Side) (price : Price) (size : Decimal) (ls : List Level) : List Level :=
  let kept := ls.filter fun l => l.price ≠ price
  let pushed := if size > 0 then
      match Qty.new size with
      | .ok q => kept ++ [⟨price, q⟩]
      | .error _ => kept
    else kept
  sortLevels side pushed

def OrderBook.changeLevel (b : OrderBook) (side : Side) (price : Price) (size : Decimal)
    (at_ : DateTime) : OrderBook :=
  let b := match side with
    | .buy => { b with bids := setLevel .buy price size b.bids }
    | .sell => { b with asks := setLevel .sell price size b.asks }
  { b with timestamp := at_, seq := b.seq + 1 }

/-- A reported best price, if any, is not the price at the head of our side. -/
def disagrees (reported : Option Price) (best : Option Level) : Bool :=
  match reported with
  | some p => best.map Level.price ≠ some p
  | none => false

/-- The venue's own best prices disagree with the book's. -/
def OrderBook.drifted (b : OrderBook) (bestBid bestAsk : Option Price) : Bool :=
  disagrees bestBid b.bestBid || disagrees bestAsk b.bestAsk

/-- Applies an event, returning the token whose book changed. -/
def BookBuilder.apply (bb : BookBuilder) (ev : MarketEvent) (at_ : DateTime) :
    Option TokenId × BookBuilder :=
  match ev with
  | .ignored => (none, bb)
  | .snapshot b =>
    let b := { b with minOrderSize := (bb.minOrderSize.lookup b.tokenId).getD b.minOrderSize }
    (some b.tokenId, { bb with books := bb.books.insert b.tokenId b })
  | .tickSizeChanged tokenId tickSize =>
    match bb.books.lookup tokenId with
    | some b =>
      let b := { b with tickSize := tickSize, timestamp := at_ }
      (some tokenId, { bb with books := bb.books.insert tokenId b })
    | none => (some tokenId, bb)
  | .levelChange tokenId side price size bestBid bestAsk =>
    match bb.books.lookup tokenId with
    | none => (none, bb)
    | some b =>
      let b := b.changeLevel side price size at_
      if b.drifted bestBid bestAsk then
        (some tokenId, { bb with
          integrityFailures := bb.integrityFailures + 1
          books := bb.books.erase tokenId })
      else (some tokenId, { bb with books := bb.books.insert tokenId b })

/-- The token an event is about. -/
def MarketEvent.token : MarketEvent → Option TokenId
  | .snapshot b => some b.tokenId
  | .levelChange t .. => some t
  | .tickSizeChanged t _ => some t
  | .ignored => none

theorem BookBuilder.apply_snapshot_get (bb : BookBuilder) (b : OrderBook) (at_ : DateTime)
    (t : TokenId) : (bb.apply (.snapshot b) at_).2.get t =
      if t = b.tokenId then
        some { b with minOrderSize := (bb.minOrderSize.lookup b.tokenId).getD b.minOrderSize }
      else bb.get t := by
  unfold get
  simp only [apply]
  split
  next same =>
    rw [same]
    exact AList.lookup_insert bb.books
  next other => exact AList.lookup_insert_ne other

theorem BookBuilder.apply_tickSizeChanged_get (bb : BookBuilder) (tok : TokenId) (ts : Decimal)
    (at_ : DateTime) (t : TokenId) : (bb.apply (.tickSizeChanged tok ts) at_).2.get t =
      if t = tok then (bb.get t).map fun b => { b with tickSize := ts, timestamp := at_ }
      else bb.get t := by
  unfold get
  by_cases same : t = tok
  · rw [if_pos same, same]
    cases held : bb.books.lookup tok with
    | none => simp only [apply, held, Option.map_none]
    | some b => simp only [apply, held, Option.map_some, AList.lookup_insert]
  · rw [if_neg same]
    cases held : bb.books.lookup tok with
    | none => simp only [apply, held]
    | some b => simp only [apply, held, AList.lookup_insert_ne same]

theorem BookBuilder.apply_levelChange_get (bb : BookBuilder) (tok : TokenId) (side : Side)
    (price : Price) (size : Decimal) (bestBid bestAsk : Option Price) (at_ : DateTime)
    (t : TokenId) :
    (bb.apply (.levelChange tok side price size bestBid bestAsk) at_).2.get t =
      if t = tok then (bb.get t).bind fun b =>
        if (b.changeLevel side price size at_).drifted bestBid bestAsk then none
        else some (b.changeLevel side price size at_)
      else bb.get t := by
  unfold get
  by_cases same : t = tok
  · rw [if_pos same, same]
    cases held : bb.books.lookup tok with
    | none => simp only [apply, held, Option.bind_none]
    | some b =>
      simp only [apply, held, Option.bind_some]
      split
      · exact AList.lookup_erase tok bb.books
      · exact AList.lookup_insert bb.books
  · rw [if_neg same]
    cases held : bb.books.lookup tok with
    | none => simp only [apply, held]
    | some b =>
      simp only [apply, held]
      split
      · exact AList.lookup_erase_ne same
      · exact AList.lookup_insert_ne same

/-- An event leaves the books of the other tokens alone. -/
theorem BookBuilder.apply_get_other (bb : BookBuilder) {ev : MarketEvent} {t : TokenId}
    (at_ : DateTime) (other : ev.token ≠ some t) : (bb.apply ev at_).2.get t = bb.get t := by
  cases ev with
  | ignored => rfl
  | snapshot b =>
    rw [apply_snapshot_get, if_neg fun same => other (by rw [same]; rfl)]
  | tickSizeChanged tok ts =>
    rw [apply_tickSizeChanged_get, if_neg fun same => other (by rw [same]; rfl)]
  | levelChange tok side price size bestBid bestAsk =>
    rw [apply_levelChange_get, if_neg fun same => other (by rw [same]; rfl)]

theorem OrderBook.changeLevel_tokenId (b : OrderBook) (side : Side) (price : Price)
    (size : Decimal) (at_ : DateTime) : (b.changeLevel side price size at_).tokenId = b.tokenId := by
  cases side <;> rfl

/-- Each book is held under its own token. -/
def BookBuilder.Keyed (bb : BookBuilder) : Prop := ∀ t b, bb.get t = some b → b.tokenId = t

theorem BookBuilder.Keyed.apply {bb : BookBuilder} (h : bb.Keyed) (ev : MarketEvent)
    (at_ : DateTime) : (bb.apply ev at_).2.Keyed := by
  intro t b held
  cases ev with
  | ignored => exact h t b held
  | tickSizeChanged tok ts =>
    rw [apply_tickSizeChanged_get] at held
    split at held
    · obtain ⟨old, before, rfl⟩ := Option.map_eq_some_iff.mp held
      exact h t old before
    · exact h t b held
  | snapshot new =>
    rw [apply_snapshot_get] at held
    split at held
    next same =>
      cases held
      exact same.symm
    next => exact h t b held
  | levelChange tok side price size bestBid bestAsk =>
    rw [apply_levelChange_get] at held
    split at held
    · obtain ⟨old, before, kept⟩ := Option.bind_eq_some_iff.mp held
      split at kept
      · cases kept
      · cases kept
        rw [OrderBook.changeLevel_tokenId]
        exact h t old before
    · exact h t b held

/-- The token of the event is returned, except for a change to a token without a book. -/
theorem BookBuilder.apply_fst (bb : BookBuilder) (ev : MarketEvent) (at_ : DateTime) :
    (bb.apply ev at_).1 =
      match ev with
      | .levelChange t .. => (bb.get t).map fun _ => t
      | ev => ev.token := by
  cases ev with
  | ignored => rfl
  | snapshot new => rfl
  | tickSizeChanged tok ts =>
    cases held : bb.books.lookup tok with
    | none => simp only [apply, held, MarketEvent.token]
    | some b => simp only [apply, held, MarketEvent.token]
  | levelChange tok side price size bestBid bestAsk =>
    unfold get
    cases held : bb.books.lookup tok with
    | none => simp only [apply, held, Option.map_none]
    | some b =>
      simp only [apply, held, Option.map_some]
      split <;> rfl

/-- Only the token of the event is ever returned. -/
theorem BookBuilder.token_of_apply {bb : BookBuilder} {ev : MarketEvent} {at_ : DateTime}
    {t : TokenId} (returned : (bb.apply ev at_).1 = some t) : ev.token = some t := by
  rw [apply_fst] at returned
  cases ev with
  | levelChange tok side price size bestBid bestAsk =>
    obtain ⟨_, _, rfl⟩ := Option.map_eq_some_iff.mp returned
    rfl
  | _ => exact returned

/-- Whatever book an event leaves for its token, the token is returned. -/
theorem BookBuilder.apply_returns {bb : BookBuilder} {ev : MarketEvent} {at_ : DateTime}
    {t : TokenId} {b : OrderBook} (held : (bb.apply ev at_).2.get t = some b)
    (about : ev.token = some t) : (bb.apply ev at_).1 = some t := by
  rw [apply_fst]
  cases ev with
  | levelChange tok side price size bestBid bestAsk =>
    cases about
    rw [apply_levelChange_get, if_pos rfl] at held
    obtain ⟨old, before, _⟩ := Option.bind_eq_some_iff.mp held
    simp only [before, Option.map_some]
  | _ => exact about

theorem sortLevels_perm (side : Side) (ls : List Level) : (sortLevels side ls).Perm ls := by
  cases side with
  | buy => exact List.perm_insertionSort _ ls
  | sell => exact List.perm_insertionSort _ ls

/-- Where a level stands on its side: bids descend by price and asks ascend. -/
def Level.rank (side : Side) (l : Level) : Decimal :=
  match side with
  | .buy => -l.price.get
  | .sell => l.price.get

theorem Level.rank_eq_iff {side : Side} {a b : Level} :
    a.rank side = b.rank side ↔ a.price = b.price := by
  constructor
  · intro same
    cases side with
    | buy => exact Price.ext (neg_injective same)
    | sell => exact Price.ext same
  · intro same
    unfold rank
    rw [same]

theorem sortLevels_ascending (side : Side) (ls : List Level) :
    (sortLevels side ls).Pairwise fun a b => a.rank side ≤ b.rank side := by
  cases side with
  | buy =>
    have total : Std.Total fun a b : Level => b.price.get ≤ a.price.get :=
      ⟨fun a b => le_total b.price.get a.price.get⟩
    have trans : IsTrans Level fun a b => b.price.get ≤ a.price.get :=
      ⟨fun a b c hab hbc => hbc.trans hab⟩
    have sorted := List.pairwise_insertionSort (fun a b : Level => b.price.get ≤ a.price.get) ls
    exact sorted.imp fun le => neg_le_neg le
  | sell =>
    have total : Std.Total fun a b : Level => a.price.get ≤ b.price.get :=
      ⟨fun a b => le_total a.price.get b.price.get⟩
    have trans : IsTrans Level fun a b => a.price.get ≤ b.price.get :=
      ⟨fun a b c hab hbc => hab.trans hbc⟩
    exact List.pairwise_insertionSort (fun a b : Level => a.price.get ≤ b.price.get) ls

end CopyTrading
