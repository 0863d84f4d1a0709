import CopyTrading.Position

namespace CopyTrading

def Side.opposite : Side → Side
  | .buy => .sell
  | .sell => .buy

/-- The complementary leg's price. -/
def Price.complement (p : Price) : Price :=
  ⟨1 - p.get, sub_pos.mpr p.lt_one, sub_lt_self 1 p.pos⟩

/-- The arguments of one `apply`. -/
structure PositionFill where
  side : Side
  quantity : Qty
  price : Price
  fee : Usd
  at_ : DateTime

def PositionFill.signed (f : PositionFill) : Decimal := f.side.sign * f.quantity.get

/-- The same fill on the complementary leg. -/
def PositionFill.mirror (f : PositionFill) : PositionFill :=
  { f with side := f.side.opposite, price := f.price.complement }

def Position.fill (p : Position) (f : PositionFill) : Usd × Position :=
  p.apply f.side f.quantity f.price f.fee f.at_

def Position.after (p : Position) (fills : List PositionFill) : Position :=
  fills.foldl (fun p f => (p.fill f).2) p

theorem Position.book_flat {p : Position} (flat : p.netQuantity = 0) (signed px : Decimal) :
    p.book signed px = (0, if signed = 0 then p.avgEntry else px) := by
  unfold book
  simp only [flat, true_or, if_true, zero_add, zero_mul]
  by_cases none : signed = 0
  · simp [none]
  · rw [if_pos none, if_neg none, mul_div_cancel_left₀ px none]

/-- A fill of nothing on a long position runs through the other branch, to the same end. -/
theorem Position.book_add {p : Position} (held : p.netQuantity ≠ 0) {signed : Decimal}
    (same : 0 ≤ p.netQuantity * signed) (px : Decimal) : p.book signed px =
      (0, (p.netQuantity * p.avgEntry + signed * px) / (p.netQuantity + signed)) := by
  unfold book
  rcases lt_or_gt_of_ne held with short | long
  · have sell : signed ≤ 0 := nonpos_of_mul_nonneg_right same short
    have sides : 0 < p.netQuantity ↔ 0 < signed := iff_of_false short.not_gt sell.not_gt
    have total : p.netQuantity + signed ≠ 0 := (add_neg_of_neg_of_nonpos short sell).ne
    rw [if_pos (Or.inr sides), if_pos total]
  · have buy : 0 ≤ signed := nonneg_of_mul_nonneg_right same long
    have total : p.netQuantity + signed ≠ 0 := (add_pos_of_pos_of_nonneg long buy).ne'
    rcases buy.eq_or_lt with none | buy
    · have sides : ¬(p.netQuantity = 0 ∨ (0 < p.netQuantity ↔ 0 < signed)) := by
        rintro (flat | sides)
        · exact held flat
        · exact (sides.mp long).ne none
      rw [if_neg sides]
      subst none
      simp [long, held]
    · rw [if_pos (Or.inr (iff_of_true long buy)), if_pos total]

/-- A fill on the other side realises the part of the position that it closes. -/
theorem Position.book_opposite {p : Position} {signed : Decimal}
    (opposite : p.netQuantity * signed < 0) (px : Decimal) : p.book signed px =
      if |signed| < |p.netQuantity| then (-signed * (px - p.avgEntry), p.avgEntry)
      else (p.netQuantity * (px - p.avgEntry), if p.netQuantity + signed = 0 then 0 else px) := by
  unfold book
  rcases mul_neg_iff.mp opposite with ⟨long, sell⟩ | ⟨short, buy⟩
  · have sides : ¬(p.netQuantity = 0 ∨ (0 < p.netQuantity ↔ 0 < signed)) := by
      rintro (flat | sides)
      · exact long.ne' flat
      · exact sell.not_gt (sides.mp long)
    simp only [if_neg sides, abs_of_neg sell, abs_of_pos long, if_pos long]
    by_cases part : -signed < p.netQuantity
    · have rest : 0 < p.netQuantity + signed := by linarith
      rw [if_pos part, min_eq_left part.le, if_neg rest.ne',
        if_neg (not_not.mpr (iff_of_true rest long))]
    · rw [if_neg part, min_eq_right (not_lt.mp part)]
      by_cases all : p.netQuantity + signed = 0
      · rw [if_pos all, if_pos all]
      · have crossed : ¬(0 < p.netQuantity + signed ↔ 0 < p.netQuantity) := by
          intro sides
          have rest := sides.mpr long
          linarith
        rw [if_neg all, if_neg all, if_pos crossed]
  · have sides : ¬(p.netQuantity = 0 ∨ (0 < p.netQuantity ↔ 0 < signed)) := by
      rintro (flat | sides)
      · exact short.ne flat
      · exact short.not_gt (sides.mpr buy)
    simp only [if_neg sides, abs_of_pos buy, abs_of_neg short, if_neg short.not_gt]
    by_cases part : signed < -p.netQuantity
    · have rest : p.netQuantity + signed < 0 := by linarith
      rw [if_pos part, min_eq_left part.le, if_neg rest.ne,
        if_neg (not_not.mpr (iff_of_false rest.not_gt short.not_gt))]
      congr 1
      ring
    · rw [if_neg part, min_eq_right (not_lt.mp part)]
      have realized : -p.netQuantity * (p.avgEntry - px) = p.netQuantity * (px - p.avgEntry) := by
        ring
      rw [realized]
      by_cases all : p.netQuantity + signed = 0
      · rw [if_pos all, if_pos all]
      · have crossed : ¬(0 < p.netQuantity + signed ↔ 0 < p.netQuantity) := by
          intro sides
          have rest : ¬0 < p.netQuantity + signed := fun rest => short.not_gt (sides.mp rest)
          rcases lt_or_gt_of_ne all with below | above
          · linarith
          · exact rest above
        rw [if_neg all, if_neg all, if_pos crossed]

/-- A weighted average lies between the two values, whichever sign the weights share. -/
theorem weighted_between {w v a b : Decimal} (held : w ≠ 0) (same : 0 ≤ w * v) :
    min a b ≤ (w * a + v * b) / (w + v) ∧ (w * a + v * b) / (w + v) ≤ max a b := by
  have low := min_le_left a b
  have low' := min_le_right a b
  have high := le_max_left a b
  have high' := le_max_right a b
  rcases lt_or_gt_of_ne held with neg | pos
  · have neg' : v ≤ 0 := nonpos_of_mul_nonneg_right same neg
    have total : w + v < 0 := add_neg_of_neg_of_nonpos neg neg'
    rw [le_div_iff_of_neg total, div_le_iff_of_neg total]
    constructor
    · nlinarith only [mul_le_mul_of_nonpos_left low neg.le, mul_le_mul_of_nonpos_left low' neg']
    · nlinarith only [mul_le_mul_of_nonpos_left high neg.le, mul_le_mul_of_nonpos_left high' neg']
  · have pos' : 0 ≤ v := nonneg_of_mul_nonneg_right same pos
    have total : 0 < w + v := add_pos_of_pos_of_nonneg pos pos'
    rw [le_div_iff₀ total, div_le_iff₀ total]
    constructor
    · nlinarith only [mul_le_mul_of_nonneg_left low pos.le, mul_le_mul_of_nonneg_left low' pos']
    · nlinarith only [mul_le_mul_of_nonneg_left high pos.le, mul_le_mul_of_nonneg_left high' pos']

/-- What the fills so far leave as the average entry. -/
structure Position.EntryWithin (p : Position) (fills : List PositionFill) : Prop where
  flat : p.netQuantity = 0 → p.avgEntry = 0
  held : p.netQuantity ≠ 0 →
    ∃ f ∈ fills, ∃ g ∈ fills, f.price.get ≤ p.avgEntry ∧ p.avgEntry ≤ g.price.get

theorem Position.fill_netQuantity (p : Position) (f : PositionFill) :
    (p.fill f).2.netQuantity = p.netQuantity + f.signed := rfl

theorem Position.fill_avgEntry (p : Position) (f : PositionFill) :
    (p.fill f).2.avgEntry = (p.book f.signed f.price.get).2 := rfl

theorem Position.EntryWithin.fill {p : Position} {fills : List PositionFill}
    (h : p.EntryWithin fills) (f : PositionFill) : (p.fill f).2.EntryWithin (fills ++ [f]) := by
  have last : f ∈ fills ++ [f] := List.mem_append_right _ List.mem_cons_self
  have older : ∀ {g}, g ∈ fills → g ∈ fills ++ [f] := List.mem_append_left _
  by_cases flat : p.netQuantity = 0
  · constructor
    · intro none
      rw [fill_netQuantity, flat, zero_add] at none
      rw [fill_avgEntry, book_flat flat, if_pos none]
      exact h.flat flat
    · intro some_
      rw [fill_netQuantity, flat, zero_add] at some_
      rw [fill_avgEntry, book_flat flat, if_neg some_]
      exact ⟨f, last, f, last, le_rfl, le_rfl⟩
  obtain ⟨l, hl, g, hg, low, high⟩ := h.held flat
  by_cases same : 0 ≤ p.netQuantity * f.signed
  · constructor
    · intro none
      have square : p.netQuantity * (p.netQuantity + f.signed) = 0 := by
        rw [← fill_netQuantity, none, mul_zero]
      have pos := mul_self_pos.mpr flat
      linarith
    · intro _
      rw [fill_avgEntry, book_add flat same]
      obtain ⟨above, below⟩ := weighted_between (a := p.avgEntry) (b := f.price.get) flat same
      rcases le_total p.avgEntry f.price.get with up | down
      · rw [min_eq_left up] at above
        rw [max_eq_right up] at below
        exact ⟨l, older hl, f, last, low.trans above, below⟩
      · rw [min_eq_right down] at above
        rw [max_eq_left down] at below
        exact ⟨f, last, g, older hg, above, below.trans high⟩
  · have opposite : p.netQuantity * f.signed < 0 := not_le.mp same
    by_cases part : |f.signed| < |p.netQuantity|
    · constructor
      · intro none
        have equal : f.signed = -p.netQuantity := eq_neg_of_add_eq_zero_right none
        rw [equal, abs_neg] at part
        exact absurd part (lt_irrefl _)
      · intro _
        rw [fill_avgEntry, book_opposite opposite, if_pos part]
        exact ⟨l, older hl, g, older hg, low, high⟩
    · constructor
      · intro none
        have all : p.netQuantity + f.signed = 0 := none
        rw [fill_avgEntry, book_opposite opposite, if_neg part, if_pos all]
      · intro some_
        have crossed : p.netQuantity + f.signed ≠ 0 := some_
        rw [fill_avgEntry, book_opposite opposite, if_neg part, if_neg crossed]
        exact ⟨f, last, f, last, le_rfl, le_rfl⟩

theorem Position.after_snoc (p : Position) (fills : List PositionFill) (f : PositionFill) :
    p.after (fills ++ [f]) = ((p.after fills).fill f).2 := by
  unfold after
  rw [List.foldl_append]
  rfl

theorem Position.entryWithin_after {p : Position} (new_ : p.EntryWithin [])
    (fills : List PositionFill) : (p.after fills).EntryWithin fills := by
  induction fills using List.reverseRecOn with
  | nil => exact new_
  | append_singleton fills f ih =>
    rw [after_snoc]
    exact ih.fill f

/-- The fill leaves less of the position, and some of it, on the same side. -/
def Position.Reduces (p : Position) (f : PositionFill) : Prop :=
  0 < p.netQuantity * (p.fill f).2.netQuantity ∧ |(p.fill f).2.netQuantity| < |p.netQuantity|

theorem Position.Reduces.avgEntry {p : Position} {f : PositionFill} (h : p.Reduces f) :
    (p.fill f).2.avgEntry = p.avgEntry := by
  obtain ⟨side, less⟩ := h
  rw [fill_netQuantity] at side less
  rw [fill_avgEntry]
  rcases pos_and_pos_or_neg_and_neg_of_mul_pos side with ⟨long, rest⟩ | ⟨short, rest⟩
  · rw [abs_of_pos rest, abs_of_pos long] at less
    have sell : f.signed < 0 := by linarith
    have part : |f.signed| < |p.netQuantity| := by
      rw [abs_of_neg sell, abs_of_pos long]
      linarith
    rw [book_opposite (mul_neg_of_pos_of_neg long sell), if_pos part]
  · rw [abs_of_neg rest, abs_of_neg short] at less
    have buy : 0 < f.signed := by linarith
    have part : |f.signed| < |p.netQuantity| := by
      rw [abs_of_pos buy, abs_of_neg short]
      linarith
    rw [book_opposite (mul_neg_of_neg_of_pos short buy), if_pos part]

/-- The same position held on the complementary leg. -/
structure Position.Mirrors (q p : Position) : Prop where
  netQuantity : q.netQuantity = -p.netQuantity
  avgEntry : p.netQuantity ≠ 0 → q.avgEntry = 1 - p.avgEntry
  realizedPnl : q.realizedPnl = p.realizedPnl

theorem PositionFill.mirror_signed (f : PositionFill) : f.mirror.signed = -f.signed := by
  unfold signed mirror
  cases f.side with
  | buy => simp [Side.opposite, Side.sign]
  | sell => simp [Side.opposite, Side.sign]

/-- In every branch the mirrored fill realises the same, and leaves the complementary average. -/
theorem Position.Mirrors.book {p q : Position} (h : q.Mirrors p) (signed px : Decimal) :
    (q.book (-signed) (1 - px)).1 = (p.book signed px).1 ∧
      (p.netQuantity + signed ≠ 0 →
        (q.book (-signed) (1 - px)).2 = 1 - (p.book signed px).2) := by
  by_cases flat : p.netQuantity = 0
  · have flat' : q.netQuantity = 0 := by rw [h.netQuantity, flat, neg_zero]
    rw [book_flat flat, book_flat flat']
    refine ⟨rfl, ?_⟩
    intro some_
    rw [flat, zero_add] at some_
    simp only [neg_eq_zero, if_neg some_]
  have flat' : q.netQuantity ≠ 0 := by
    rw [h.netQuantity]
    exact neg_ne_zero.mpr flat
  have product : q.netQuantity * -signed = p.netQuantity * signed := by
    rw [h.netQuantity, neg_mul_neg]
  by_cases same : 0 ≤ p.netQuantity * signed
  · rw [book_add flat same, book_add flat' (product ▸ same), h.netQuantity, h.avgEntry flat]
    refine ⟨rfl, ?_⟩
    intro total
    have total' : -p.netQuantity + -signed ≠ 0 := by
      rw [← neg_add]
      exact neg_ne_zero.mpr total
    field_simp
    ring
  · have opposite := not_le.mp same
    have opposite' : q.netQuantity * -signed < 0 := product ▸ opposite
    rw [book_opposite opposite, book_opposite opposite', h.netQuantity, h.avgEntry flat, abs_neg,
      abs_neg]
    by_cases part : |signed| < |p.netQuantity|
    · rw [if_pos part, if_pos part]
      refine ⟨by ring, fun _ => rfl⟩
    · rw [if_neg part, if_neg part]
      refine ⟨by ring, ?_⟩
      intro crossed
      have crossed' : -p.netQuantity + -signed ≠ 0 := by
        rw [← neg_add]
        exact neg_ne_zero.mpr crossed
      rw [if_neg crossed, if_neg crossed']

theorem Position.Mirrors.fill {p q : Position} (h : q.Mirrors p) (f : PositionFill) :
    (q.fill f.mirror).1 = (p.fill f).1 ∧ (q.fill f.mirror).2.Mirrors (p.fill f).2 := by
  obtain ⟨realized, average⟩ := h.book f.signed f.price.get
  rw [← f.mirror_signed] at realized average
  refine ⟨congrArg (· - f.fee) realized, ?_, average, ?_⟩
  · rw [fill_netQuantity, fill_netQuantity, h.netQuantity, f.mirror_signed, neg_add]
  · show q.realizedPnl + (q.book f.mirror.signed (1 - f.price.get)).1 - f.fee = _
    rw [h.realizedPnl, realized]
    rfl

theorem Position.Mirrors.after {p q : Position} (h : q.Mirrors p) (fills : List PositionFill) :
    (q.after (fills.map PositionFill.mirror)).Mirrors (p.after fills) := by
  induction fills using List.reverseRecOn with
  | nil => exact h
  | append_singleton fills f ih =>
    rw [List.map_append, List.map_singleton, after_snoc, after_snoc]
    exact (ih.fill f).2

/-- The average entry after any fills: none when flat, within the prices paid otherwise, unmoved by
a fill that only reduces, and complementary to that of the mirrored fills, which realise as much. -/
theorem Position.avgEntry_sound (marketId : MarketId) (tokenId : TokenId) (outcome : String)
    (now : DateTime) (fills : List PositionFill) :
    let p := (Position.new marketId tokenId outcome now).after fills
    let q := (Position.new marketId tokenId outcome now).after (fills.map PositionFill.mirror)
    (p.netQuantity = 0 → p.avgEntry = 0) ∧
    (p.netQuantity ≠ 0 → 0 < p.avgEntry ∧ p.avgEntry < 1 ∧
      ∃ f ∈ fills, ∃ g ∈ fills, f.price.get ≤ p.avgEntry ∧ p.avgEntry ≤ g.price.get) ∧
    (∀ f, p.Reduces f → (p.fill f).2.avgEntry = p.avgEntry) ∧
    q.Mirrors p ∧ ∀ f, (q.fill f.mirror).1 = (p.fill f).1 := by
  intro p q
  have start : (Position.new marketId tokenId outcome now).EntryWithin [] :=
    ⟨fun _ => rfl, fun held => absurd rfl held⟩
  have entry : p.EntryWithin fills := entryWithin_after start fills
  have alike : (Position.new marketId tokenId outcome now).Mirrors
      (.new marketId tokenId outcome now) :=
    ⟨neg_zero.symm, fun held => absurd rfl held, rfl⟩
  have mirrors : q.Mirrors p := alike.after fills
  refine ⟨entry.flat, ?_, fun f reduces => reduces.avgEntry, mirrors,
    fun f => (mirrors.fill f).1⟩
  intro held
  obtain ⟨f, hf, g, hg, low, high⟩ := entry.held held
  exact ⟨f.price.pos.trans_le low, high.trans_lt g.price.lt_one, f, hf, g, hg, low, high⟩

/-- Fifty bought at 0.6, and eighty sold at 0.7: the residual is priced at the crossing price. -/
def crossThrough : List PositionFill :=
  [⟨.buy, .whole 50, .saturating (6 / 10), 0, 0⟩, ⟨.sell, .whole 80, .saturating (7 / 10), 0, 0⟩]

example : ((Position.new .zero .zero "Yes" 0).after crossThrough).netQuantity = -30 ∧
    ((Position.new .zero .zero "Yes" 0).after crossThrough).avgEntry = 7 / 10 ∧
    ((Position.new .zero .zero "Yes" 0).after crossThrough).realizedPnl = 5 := by
  decide +kernel

end CopyTrading
