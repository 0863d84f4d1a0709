import Mathlib.Logic.Function.Basic
import CopyTrading.MarketWs
import CopyTrading.PaperSession

namespace CopyTrading

open SortedListing

/-- What one side of a market offers: the last size written at each price. -/
abbrev PriceMap := Price → Option Qty

/-- A size of zero or below deletes the price. -/
def PriceMap.set (m : PriceMap) (price : Price) (size : Decimal) : PriceMap :=
  Function.update m price (if h : 0 < size then some ⟨size, h.le⟩ else none)

def PriceMap.ofLevels (ls : List Level) : PriceMap :=
  fun p => (ls.find? fun l => l.price = p).map Level.size

/-- The best offered price: the highest bid or the lowest ask. -/
def PriceMap.IsBest (side : Side) (m : PriceMap) (best : Price) : Prop :=
  m best ≠ none ∧ ∀ p, m p ≠ none →
    match side with
    | .buy => p.get ≤ best.get
    | .sell => best.get ≤ p.get

/-- The best price that the venue reports, if any, is not the best price of the map. -/
def PriceMap.Disagrees (side : Side) (m : PriceMap) (reported : Option Price) : Prop :=
  ∃ p, reported = some p ∧ ¬m.IsBest side p

/-- The two sides of every token that has a book. -/
abbrev PriceMaps := TokenId → Option (Side → PriceMap)

/-- Last writer wins; a side that drifts from what the venue reports takes the token away. -/
noncomputable def PriceMaps.step (ms : PriceMaps) : MarketEvent → PriceMaps
  | .ignored => ms
  | .tickSizeChanged _ _ => ms
  | .snapshot b => Function.update ms b.tokenId (some fun side => .ofLevels (b.side side))
  | .levelChange t side price size bestBid bestAsk =>
    match ms t with
    | none => ms
    | some m =>
      let m := Function.update m side ((m side).set price size)
      open Classical in
      if (m .buy).Disagrees .buy bestBid ∨ (m .sell).Disagrees .sell bestAsk then
        Function.update ms t none
      else Function.update ms t (some m)

/-- The levels are the strictly best-first listing of the map. -/
structure Lists (side : Side) (ls : List Level) (m : PriceMap) : Prop where
  sorted : Sorted (Level.rank side) ls
  mem : ∀ p q, ⟨p, q⟩ ∈ ls ↔ m p = some q

/-- A stored book against the maps of its two sides: both absent, or the one lists the other. -/
inductive BookLists : Option OrderBook → Option (Side → PriceMap) → Prop
  | absent : BookLists none none
  | listed {b : OrderBook} {m : Side → PriceMap} (h : ∀ side, Lists side (b.side side) (m side)) :
      BookLists (some b) (some m)

/-- The stored books are the listings of the maps. -/
def Represents (bb : BookBuilder) (ms : PriceMaps) : Prop := ∀ t, BookLists (bb.get t) (ms t)

theorem PriceMaps.step_snapshot (ms : PriceMaps) (b : OrderBook) (t : TokenId) :
    ms.step (.snapshot b) t =
      if t = b.tokenId then some fun side => .ofLevels (b.side side) else ms t :=
  Function.update_apply ms b.tokenId _ t

open Classical in
theorem PriceMaps.step_levelChange (ms : PriceMaps) (tok : TokenId) (side : Side) (price : Price)
    (size : Decimal) (bestBid bestAsk : Option Price) (t : TokenId) :
    ms.step (.levelChange tok side price size bestBid bestAsk) t =
      if t = tok then (ms t).bind fun m =>
        let m := Function.update m side ((m side).set price size)
        if (m .buy).Disagrees .buy bestBid ∨ (m .sell).Disagrees .sell bestAsk then none
        else some m
      else ms t := by
  by_cases same : t = tok
  · rw [if_pos same, same]
    cases held : ms tok with
    | none => simp only [step, held, Option.bind_none]
    | some m =>
      simp only [step, held, Option.bind_some]
      split
      · exact Function.update_self tok none ms
      · exact Function.update_self tok _ ms
  · rw [if_neg same]
    cases held : ms tok with
    | none => simp only [step, held]
    | some m =>
      simp only [step, held]
      split
      · exact Function.update_of_ne same none ms
      · exact Function.update_of_ne same _ ms

theorem BookLists.bind {o : Option OrderBook} {m : Option (Side → PriceMap)} (h : BookLists o m)
    {f : OrderBook → Option OrderBook} {g : (Side → PriceMap) → Option (Side → PriceMap)}
    (keep : ∀ b m, (∀ side, Lists side (b.side side) (m side)) → BookLists (f b) (g m)) :
    BookLists (o.bind f) (m.bind g) := by
  cases h with
  | absent => exact .absent
  | listed lists => exact keep _ _ lists

theorem BookLists.map {o : Option OrderBook} {m : Option (Side → PriceMap)} (h : BookLists o m)
    {f : OrderBook → OrderBook} (sides : ∀ b, (f b).side = b.side) : BookLists (o.map f) m := by
  cases h with
  | absent => exact .absent
  | listed lists =>
    refine .listed ?_
    intro side
    rw [sides]
    exact lists side

theorem Lists.ofLevels {side : Side} {ls : List Level} (sorted : Sorted (Level.rank side) ls) :
    Lists side ls (.ofLevels ls) := by
  refine ⟨sorted, ?_⟩
  intro p q
  unfold PriceMap.ofLevels
  constructor
  · intro mem
    cases found : ls.find? fun l => l.price = p with
    | none => exact absurd (List.find?_eq_none.mp found _ mem) (by simp)
    | some l =>
      have here : l.price = p := by simpa using List.find?_some found
      have same := sorted.inj (List.mem_of_find?_eq_some found) mem (Level.rank_eq_iff.mpr here)
      rw [same, Option.map_some]
  · intro listed
    obtain ⟨l, found, rfl⟩ := Option.map_eq_some_iff.mp listed
    have here : l.price = p := by simpa using List.find?_some found
    rw [← here]
    exact List.mem_of_find?_eq_some found

/-- The code's update of one level, as what it keeps and what it pushes. -/
theorem setLevel_perm (side : Side) (price : Price) (size : Decimal) (ls : List Level) :
    (setLevel side price size ls).Perm ((ls.filter fun l => l.price ≠ price) ++
      (if h : 0 < size then some (⟨price, ⟨size, h.le⟩⟩ : Level) else none).toList) := by
  unfold setLevel
  refine (sortLevels_perm side _).trans (.of_eq ?_)
  by_cases pos : 0 < size
  · simp [pos, pos.le, Qty.new]
  · simp [pos]

theorem Lists.setLevel {side : Side} {ls : List Level} {m : PriceMap} (h : Lists side ls m)
    (price : Price) (size : Decimal) :
    Lists side (setLevel side price size ls) (m.set price size) := by
  have perm := setLevel_perm side price size ls
  refine ⟨?_, ?_⟩
  · refine h.sorted.replace (k := Level.rank side ⟨price, .zero⟩) _ ?_ ?_
      (sortLevels_ascending side _) perm
    · intro l _ other same
      have ne : l.price ≠ price := by simpa using other
      exact ne (Level.rank_eq_iff.mp same)
    · intro l new
      refine Level.rank_eq_iff.mpr ?_
      split at new
      · cases new
        rfl
      · cases new
  · intro p q
    rw [perm.mem_iff, List.mem_append, List.mem_filter]
    unfold PriceMap.set
    by_cases same : p = price
    · subst same
      rw [Function.update_self]
      by_cases pos : 0 < size
      · simp [pos, eq_comm]
      · simp [pos]
    · rw [Function.update_of_ne same, ← h.mem p q]
      by_cases pos : 0 < size
      · simp [pos, same]
      · simp [pos, same]

theorem PriceMap.isBest_iff {side : Side} {m : PriceMap} {best : Price} :
    m.IsBest side best ↔ m best ≠ none ∧ ∀ p q r, m p = some r →
      Level.rank side ⟨best, q⟩ ≤ Level.rank side ⟨p, r⟩ := by
  unfold IsBest
  refine and_congr_right ?_
  intro _
  constructor
  · intro least p q r offered
    have le := least p (by rw [offered]; exact Option.some_ne_none r)
    cases side with
    | buy => exact neg_le_neg le
    | sell => exact le
  · intro least p offered
    obtain ⟨r, offered⟩ := Option.ne_none_iff_exists'.mp offered
    have le := least p .zero r offered
    cases side with
    | buy => exact neg_le_neg_iff.mp le
    | sell => exact le

/-- The head of a listing is the best price of its map. -/
theorem Lists.best {side : Side} {ls : List Level} {m : PriceMap} (h : Lists side ls m)
    (best : Price) : ls.head?.map Level.price = some best ↔ m.IsBest side best := by
  rw [PriceMap.isBest_iff]
  constructor
  · intro head
    obtain ⟨l, first, rfl⟩ := Option.map_eq_some_iff.mp head
    obtain ⟨mem, least⟩ := h.sorted.head_iff.mp first
    have offered := (h.mem l.price l.size).mp mem
    refine ⟨by rw [offered]; exact Option.some_ne_none _, ?_⟩
    intro p q r listed
    have le := least ⟨p, r⟩ ((h.mem p r).mpr listed)
    exact le
  · rintro ⟨offered, least⟩
    obtain ⟨q, offered⟩ := Option.ne_none_iff_exists'.mp offered
    have head : ls.head? = some ⟨best, q⟩ := by
      refine h.sorted.head_iff.mpr ⟨(h.mem best q).mpr offered, ?_⟩
      intro l listed
      exact least l.price q l.size ((h.mem l.price l.size).mp listed)
    rw [head, Option.map_some]

theorem Lists.disagrees {side : Side} {ls : List Level} {m : PriceMap} (h : Lists side ls m)
    (reported : Option Price) :
    disagrees reported ls.head? = true ↔ m.Disagrees side reported := by
  unfold CopyTrading.disagrees PriceMap.Disagrees
  cases reported with
  | none => simp
  | some p => simp [← h.best p]

theorem OrderBook.changeLevel_side (b : OrderBook) (side : Side) (price : Price) (size : Decimal)
    (at_ : DateTime) : (b.changeLevel side price size at_).side =
      Function.update b.side side (CopyTrading.setLevel side price size (b.side side)) := by
  funext s
  cases side <;> cases s <;> rfl

/-- A represented book with one level changed is the listing of the maps with that price set. -/
theorem changeLevel_lists {b : OrderBook} {m : Side → PriceMap}
    (h : ∀ s, Lists s (b.side s) (m s)) (side : Side) (price : Price) (size : Decimal)
    (at_ : DateTime) (s : Side) : Lists s ((b.changeLevel side price size at_).side s)
      (Function.update m side ((m side).set price size) s) := by
  rw [OrderBook.changeLevel_side]
  by_cases same : s = side
  · subst same
    rw [Function.update_self, Function.update_self]
    exact (h s).setLevel price size
  · rw [Function.update_of_ne same, Function.update_of_ne same]
    exact h s

theorem drifted_iff {b : OrderBook} {m : Side → PriceMap} (h : ∀ s, Lists s (b.side s) (m s))
    (bestBid bestAsk : Option Price) : b.drifted bestBid bestAsk = true ↔
      (m .buy).Disagrees .buy bestBid ∨ (m .sell).Disagrees .sell bestAsk := by
  unfold OrderBook.drifted
  rw [Bool.or_eq_true]
  exact or_congr ((h .buy).disagrees bestBid) ((h .sell).disagrees bestAsk)

theorem represents_new : Represents .new fun _ => none := by
  intro t
  exact .absent

/-- Each side of a snapshot lists its levels best-first, each price once. -/
def MarketEvent.BestFirst : MarketEvent → Prop
  | .snapshot b => ∀ side, Sorted (Level.rank side) (b.side side)
  | _ => True

theorem Represents.apply {bb : BookBuilder} {ms : PriceMaps} (h : Represents bb ms)
    {ev : MarketEvent} (bestFirst : ev.BestFirst) (at_ : DateTime) :
    Represents (bb.apply ev at_).2 (ms.step ev) := by
  intro t
  have here := h t
  cases ev with
  | ignored => exact here
  | tickSizeChanged tok ts =>
    rw [BookBuilder.apply_tickSizeChanged_get]
    by_cases same : t = tok
    · rw [if_pos same]
      refine here.map ?_
      intro b
      funext side
      cases side with
      | buy => rfl
      | sell => rfl
    · rw [if_neg same]
      exact here
  | snapshot b =>
    rw [BookBuilder.apply_snapshot_get, PriceMaps.step_snapshot]
    by_cases same : t = b.tokenId
    · rw [if_pos same, if_pos same]
      refine .listed ?_
      intro side
      cases side with
      | buy => exact .ofLevels (bestFirst .buy)
      | sell => exact .ofLevels (bestFirst .sell)
    · rw [if_neg same, if_neg same]
      exact here
  | levelChange tok side price size bestBid bestAsk =>
    rw [BookBuilder.apply_levelChange_get, PriceMaps.step_levelChange]
    by_cases same : t = tok
    · rw [if_pos same, if_pos same]
      refine here.bind ?_
      intro b m lists
      have changed := changeLevel_lists lists side price size at_
      have drift := drifted_iff changed bestBid bestAsk
      by_cases gone : (b.changeLevel side price size at_).drifted bestBid bestAsk = true
      · rw [if_pos gone]
        simp only [if_pos (drift.mp gone)]
        exact .absent
      · rw [if_neg gone]
        simp only [if_neg (fun d => gone (drift.mpr d))]
        exact .listed changed
    · rw [if_neg same, if_neg same]
      exact here

def BookBuilder.applyAll (bb : BookBuilder) (evs : List (MarketEvent × DateTime)) : BookBuilder :=
  evs.foldl (fun bb ev => (bb.apply ev.1 ev.2).2) bb

noncomputable def PriceMaps.run (evs : List (MarketEvent × DateTime)) : PriceMaps :=
  evs.foldl (fun ms ev => ms.step ev.1) fun _ => none

theorem represents_applyAll {evs : List (MarketEvent × DateTime)}
    (bestFirst : ∀ ev ∈ evs, ev.1.BestFirst) :
    Represents (BookBuilder.new.applyAll evs) (.run evs) := by
  induction evs using List.reverseRecOn with
  | nil => exact represents_new
  | append_singleton evs ev ih =>
    unfold BookBuilder.applyAll PriceMaps.run
    rw [List.foldl_append, List.foldl_append]
    have before := ih fun ev mem => bestFirst ev (List.mem_append_left _ mem)
    exact before.apply (bestFirst ev (by simp)) ev.2

def OrderBook.SizesPositive (b : OrderBook) : Prop := ∀ side, ∀ l ∈ b.side side, 0 < l.size.get

/-- A book that was read from the wire. -/
def OrderBook.FromWire (b : OrderBook) : Prop :=
  ∃ parse w seq fallback, toBook parse w seq fallback = some b

theorem levels_positive {parse : String → Option Decimal} {raw : List WireLevel} {l : Level}
    (mem : l ∈ levels parse raw) : 0 < l.size.get := by
  obtain ⟨w, _, read⟩ := List.mem_filterMap.mp mem
  obtain ⟨p, _, read⟩ := Option.bind_eq_some_iff.mp read
  obtain ⟨s, _, read⟩ := Option.bind_eq_some_iff.mp read
  split at read
  next some_ =>
    cases read
    exact Qty.isZero_false_iff.mp ((Bool.not_eq_true' _).mp some_)
  next => cases read

/-- The parser drops empty levels. -/
theorem OrderBook.FromWire.sizesPositive {b : OrderBook} (h : b.FromWire) : b.SizesPositive := by
  obtain ⟨parse, w, seq, fallback, read⟩ := h
  obtain ⟨bids, asks, _, _⟩ := toBook_eq_some read
  intro side l mem
  cases side with
  | buy =>
    have sorted : l ∈ sortLevels .buy (levels parse w.bids) := bids ▸ mem
    exact levels_positive ((sortLevels_perm .buy _).mem_iff.mp sorted)
  | sell =>
    have sorted : l ∈ sortLevels .sell (levels parse w.asks) := asks ▸ mem
    exact levels_positive ((sortLevels_perm .sell _).mem_iff.mp sorted)

theorem setLevel_positive {side : Side} {price : Price} {size : Decimal} {ls : List Level}
    (h : ∀ l ∈ ls, 0 < l.size.get) : ∀ l ∈ setLevel side price size ls, 0 < l.size.get := by
  intro l mem
  rcases List.mem_append.mp ((setLevel_perm side price size ls).mem_iff.mp mem) with kept | pushed
  · exact h l (List.mem_filter.mp kept).1
  · split at pushed
    next pos =>
      cases List.mem_singleton.mp pushed
      exact pos
    next => cases pushed

theorem changeLevel_positive {b : OrderBook} (h : b.SizesPositive) (side : Side) (price : Price)
    (size : Decimal) (at_ : DateTime) : (b.changeLevel side price size at_).SizesPositive := by
  intro s
  rw [OrderBook.changeLevel_side]
  by_cases same : s = side
  · subst same
    rw [Function.update_self]
    exact setLevel_positive (h s)
  · rw [Function.update_of_ne same]
    exact h s

theorem BookBuilder.apply_positive {bb : BookBuilder}
    (h : ∀ t b, bb.get t = some b → b.SizesPositive) {ev : MarketEvent}
    (snap : ∀ b, ev = .snapshot b → b.SizesPositive) (at_ : DateTime) (t : TokenId)
    (b : OrderBook) (held : (bb.apply ev at_).2.get t = some b) : b.SizesPositive := by
  cases ev with
  | ignored => exact h t b held
  | tickSizeChanged tok ts =>
    rw [apply_tickSizeChanged_get] at held
    split at held
    · obtain ⟨old, before, rfl⟩ := Option.map_eq_some_iff.mp held
      intro side
      cases side with
      | buy => exact h t old before .buy
      | sell => exact h t old before .sell
    · exact h t b held
  | snapshot new =>
    rw [apply_snapshot_get] at held
    split at held
    · cases held
      intro side
      cases side with
      | buy => exact snap new rfl .buy
      | sell => exact snap new rfl .sell
    · exact h t b held
  | levelChange tok side price size bestBid bestAsk =>
    rw [apply_levelChange_get] at held
    split at held
    · obtain ⟨old, before, kept⟩ := Option.bind_eq_some_iff.mp held
      split at kept
      · cases kept
      · cases kept
        exact changeLevel_positive (h t old before) side price size at_
    · exact h t b held

theorem BookBuilder.applyAll_positive {evs : List (MarketEvent × DateTime)}
    (snap : ∀ b at_, (.snapshot b, at_) ∈ evs → b.SizesPositive) :
    ∀ t b, (BookBuilder.new.applyAll evs).get t = some b → b.SizesPositive := by
  induction evs using List.reverseRecOn with
  | nil =>
    intro t b held
    cases held
  | append_singleton evs ev ih =>
    unfold applyAll
    rw [List.foldl_append]
    have before := ih fun b at_ mem => snap b at_ (List.mem_append_left _ mem)
    refine apply_positive before ?_ ev.2
    intro b same
    exact snap b ev.2 (by rw [← same]; simp)

/-- A book that is kept agrees with the best prices that came with the change. -/
theorem BookBuilder.apply_levelChange_best {bb : BookBuilder} {t : TokenId} {side : Side}
    {price pb pa : Price} {size : Decimal} {at_ : DateTime} {b : OrderBook}
    (held : (bb.apply (.levelChange t side price size (some pb) (some pa)) at_).2.get t = some b) :
    b.bestBid.map Level.price = some pb ∧ b.bestAsk.map Level.price = some pa := by
  rw [apply_levelChange_get, if_pos rfl] at held
  obtain ⟨old, _, kept⟩ := Option.bind_eq_some_iff.mp held
  split at kept
  · cases kept
  next agree =>
    cases kept
    unfold OrderBook.drifted disagrees at agree
    constructor
    · by_contra ne
      exact agree (by simp [ne])
    · by_contra ne
      exact agree (by simp [ne])

/-- The builder is a last-writer-wins price map, each side listed strictly best-first. -/
theorem bookBuilder_lists_last_written (evs : List (MarketEvent × DateTime))
    (bestFirst : ∀ ev ∈ evs, ev.1.BestFirst) :
    let bb := BookBuilder.new.applyAll evs
    Represents bb (.run evs) ∧
      (∀ t b side, bb.get t = some b → ((b.side side).map Level.price).Nodup) ∧
      ((∀ b at_, (.snapshot b, at_) ∈ evs → b.FromWire) →
        ∀ t b side, bb.get t = some b → ∀ l ∈ b.side side, 0 < l.size.get) ∧
      (∀ ev at_ t, ev.token ≠ some t → (bb.apply ev at_).2.get t = bb.get t) ∧
      ∀ t side price size pb pa at_ b,
        (bb.apply (.levelChange t side price size (some pb) (some pa)) at_).2.get t = some b →
          b.bestBid.map Level.price = some pb ∧ b.bestAsk.map Level.price = some pa := by
  have represents := represents_applyAll bestFirst
  refine ⟨represents, ?_, ?_, ?_, ?_⟩
  · intro t b side held
    have lists := represents t
    rw [held] at lists
    cases eq : PriceMaps.run evs t with
    | none => rw [eq] at lists; cases lists
    | some m =>
      rw [eq] at lists
      cases lists with
      | listed lists =>
        refine List.pairwise_map.mpr ((lists side).sorted.imp ?_)
        intro a c lt same
        exact absurd (Level.rank_eq_iff.mpr same) (ne_of_lt lt)
  · intro wire t b side held
    exact BookBuilder.applyAll_positive (fun b at_ mem => (wire b at_ mem).sizesPositive) t b held
      side
  · intro ev at_ t other
    exact BookBuilder.apply_get_other _ at_ other
  · intro t side price size pb pa at_ b held
    exact BookBuilder.apply_levelChange_best held

/-- A snapshot, and a change that adds an ask behind the best one. -/
def sampleEvents : List (MarketEvent × DateTime) :=
  [(.snapshot .sample, 0),
    (.levelChange .zero .sell (OrderRequest.sample .gtc).limitPrice 3 none none, 1)]

/-- The frame of the sample book, and what its two numbers are read as. -/
theorem sample_fromWire : OrderBook.sample.FromWire := by
  refine ⟨fun text => if text = "0.5" then some (1 / 2) else some 10,
    ⟨MarketId.zero.asStr, TokenId.zero.asStr, [], [⟨"0.5", "10"⟩], none, none⟩, 0, 0, ?_⟩
  decide +kernel

theorem bookBuilder_lists_sampleEvents :
    Represents (BookBuilder.new.applyAll sampleEvents) (.run sampleEvents) ∧
      (BookBuilder.new.applyAll sampleEvents).get .zero ≠ none ∧
      ∀ t b side, (BookBuilder.new.applyAll sampleEvents).get t = some b →
        ∀ l ∈ b.side side, 0 < l.size.get := by
  have bestFirst : ∀ ev ∈ sampleEvents, ev.1.BestFirst := by
    intro ev mem
    rcases List.mem_cons.mp mem with rfl | mem
    · intro side
      cases side with
      | buy => exact List.Pairwise.nil
      | sell => exact List.pairwise_singleton _ _
    · cases List.mem_singleton.mp mem
      exact trivial
  have wire : ∀ b at_, (.snapshot b, at_) ∈ sampleEvents → b.FromWire := by
    intro b at_ mem
    rcases List.mem_cons.mp mem with same | mem
    · cases same
      exact sample_fromWire
    · cases List.mem_singleton.mp mem
  obtain ⟨represents, _, positive, _⟩ := bookBuilder_lists_last_written sampleEvents bestFirst
  exact ⟨represents, by decide +kernel, positive wire⟩

/-- A snapshot whose one level is empty is stored as it is. -/
theorem empty_level_stored : ¬ ∀ evs : List (MarketEvent × DateTime),
    (∀ ev ∈ evs, ev.1.BestFirst) → ∀ t b side, (BookBuilder.new.applyAll evs).get t = some b →
      ∀ l ∈ b.side side, 0 < l.size.get := by
  intro claim
  let empty : OrderBook := { OrderBook.sample with asks := [⟨.half, .zero⟩] }
  have bestFirst : ∀ ev ∈ [(MarketEvent.snapshot empty, (0 : DateTime))], ev.1.BestFirst := by
    intro ev mem
    cases List.mem_singleton.mp mem
    rintro (_ | _)
    · exact List.Pairwise.nil
    · exact List.pairwise_singleton _ _
  have stored : (BookBuilder.new.applyAll [(.snapshot empty, 0)]).get .zero = some empty := by
    decide +kernel
  have size := claim _ bestFirst .zero empty .sell stored ⟨.half, .zero⟩ (List.mem_singleton_self _)
  exact absurd size (lt_irrefl 0)

end CopyTrading
