import CopyTrading.CalcPortfolio
import CopyTrading.PortfolioLedger

namespace CopyTrading

def Portfolio.walletPnl (p : Portfolio) (w : Address) : Usd := (p.byWallet.lookup w).getD 0

def Portfolio.marketPnl (p : Portfolio) (m : MarketId) : Usd := (p.byMarket.lookup m).getD 0

/-- What one fill put in the books, and the wallet its order stood attributed to at the time. -/
structure Booking where
  marketId : MarketId
  tokenId : TokenId
  wallet : Option Address
  /-- What the trade alone realised. -/
  gain : Usd
  fee : Usd
  /-- What is left of it after the fee. -/
  realized : Usd

namespace Calc.Portfolio

variable (E : AList.Enumeration TokenId Position)

def step (p : Portfolio) : PortfolioEvent → Calc Portfolio
  | .applyFill f outcomeName => do
    let (_, p) ← applyFill E p f outcomeName
    pure p
  | .mark t price at_ => mark E p t price at_
  | .attributeOrder order wallet => pure (p.attributeOrder order wallet)
  | .reset now => pure (p.reset now)

def booking (p : Portfolio) (f : Fill) (outcomeName : String) : Calc Booking := do
  let (gain, _) ←
    Position.book (bookedOn p f outcomeName) (f.side.sign * f.quantity.get) f.price.get
  let booked ← profits (gain - f.fee)
  pure ⟨f.marketId, f.tokenId, p.orderWallet.lookup f.orderId, gain, f.fee, booked⟩

/-- One event, beside the log of the fills since the last reset. -/
def logStep (s : Portfolio × List Booking) (e : PortfolioEvent) :
    Calc (Portfolio × List Booking) := do
  let log ← match e with
    | .applyFill f outcomeName => do
      let b ← booking s.1 f outcomeName
      pure (s.2 ++ [b])
    | .mark _ _ _ => pure s.2
    | .attributeOrder _ _ => pure s.2
    | .reset _ => pure []
  let p ← step E s.1 e
  pure (p, log)

def after (p : Portfolio) (events : List PortfolioEvent) : Calc Portfolio :=
  events.foldlM (step E) p

def logged (p : Portfolio) (events : List PortfolioEvent) : Calc (Portfolio × List Booking) :=
  events.foldlM (logStep E) (p, [])

/-- The running sums over bookings: of what was realised, of the fees, and of the trades' gains
with each fee taken off at once. -/
def realizedSum (log : List Booking) : Calc Usd :=
  log.foldlM (fun total b => profits (total + b.realized)) 0

def feeSum (log : List Booking) : Calc Usd := log.foldlM (fun total b => fees (total + b.fee)) 0

def gainSum (log : List Booking) : Calc Usd :=
  log.foldlM (fun total b => do
    let gained ← profits (total + b.gain)
    profits (gained - b.fee)) 0

/-- Every figure is the running sum over its part of the log: the whole of it, a market's, a
wallet's, or a position's. -/
structure Tallies (machine : Operands → Decimal → Option Decimal) (p : Portfolio)
    (log : List Booking) : Prop where
  realized : (realizedSum log).run machine = some p.realized
  fees : (feeSum log).run machine = some p.fees
  market : ∀ m, (realizedSum (log.filter fun b => b.marketId = m)).run machine =
    some (p.marketPnl m)
  wallet : ∀ w, (realizedSum (log.filter fun b => b.wallet = some w)).run machine =
    some (p.walletPnl w)
  position : ∀ t, (gainSum (log.filter fun b => b.tokenId = t)).run machine =
    some ((p.position t).elim 0 Position.realizedPnl)
  positionFees : ∀ t, (feeSum (log.filter fun b => b.tokenId = t)).run machine =
    some ((p.position t).elim 0 Position.feesPaid)

variable {E} {machine : Operands → Decimal → Option Decimal} {p p' : Portfolio}
  {log log' : List Booking} {e : PortfolioEvent}

theorem Tallies.new (startingCash : Usd) (now : DateTime) :
    Tallies machine (.new startingCash now) [] where
  realized := rfl
  fees := rfl
  market _ := rfl
  wallet _ := rfl
  position _ := rfl
  positionFees _ := rfl

/-- A booking enters the running sums that count it, and no other. -/
theorem sum_snoc (add : Usd → Booking → Calc Usd) {b : Booking} {counts : Booking → Bool}
    {total total' : Usd}
    (before : ((log.filter counts).foldlM add 0).run machine = some total)
    (counted : counts b → (add total b).run machine = some total')
    (other : ¬counts b → total' = total) :
    (((log ++ [b]).filter counts).foldlM add 0).run machine = some total' := by
  rw [List.filter_append, List.foldlM_append, Calculation.run_bind, before, Option.bind_some]
  by_cases here : counts b
  · rw [List.filter_cons_of_pos here, List.filter_nil, List.foldlM_cons, Calculation.run_bind,
      counted here]
    rfl
  · rw [List.filter_cons_of_neg here, List.filter_nil, other here]
    rfl

theorem booking_run {f : Fill} {outcomeName : String} {gain booked : Usd} {q : Position}
    (h : FilledBy machine E p f outcomeName gain booked q p') :
    (booking p f outcomeName).run machine =
      some ⟨f.marketId, f.tokenId, p.orderWallet.lookup f.orderId, gain, f.fee, booked⟩ := by
  unfold booking profits
  rw [Calculation.run_bind, h.applied.book, Option.bind_some]
  simp only [Calculation.run_bind, Calculation.run_lift, h.applied.booked, Option.bind_some,
    Calculation.run_pure]

/-- A fill is credited to the wallet that its order was attributed to, and to no other. -/
theorem attributed_credits {f : Fill} {booked : Usd} {byWallet : AList fun _ : Address => Usd}
    (ran : (attributed p f booked).run machine = some byWallet) (w : Address) :
    (p.orderWallet.lookup f.orderId = some w →
      machine .profits ((p.byWallet.lookup w).getD 0 + booked) =
        some ((byWallet.lookup w).getD 0)) ∧
    (p.orderWallet.lookup f.orderId ≠ some w → byWallet.lookup w = p.byWallet.lookup w) := by
  unfold attributed at ran
  cases stood : p.orderWallet.lookup f.orderId with
  | none =>
    rw [stood] at ran
    cases Option.some.inj ran
    exact ⟨nofun, fun _ => rfl⟩
  | some v =>
    rw [stood, Calculation.run_bind] at ran
    obtain ⟨mine, adds, put⟩ := Option.bind_eq_some_iff.mp ran
    cases Option.some.inj put
    constructor
    · rintro ⟨⟩
      rw [AList.lookup_insert]
      exact (Calculation.run_lift _ _).symm.trans adds
    · intro other
      exact AList.lookup_insert_ne fun same => other (congrArg some same.symm)

theorem FilledBy.position {f : Fill} {outcomeName : String} {gain booked : Usd} {q : Position}
    (filled : FilledBy machine E p f outcomeName gain booked q p') (t : TokenId) :
    p'.position t = if t = f.tokenId then some q else p.position t := by
  unfold Portfolio.position
  rw [filled.positions]
  by_cases here : t = f.tokenId
  · rw [here, AList.lookup_insert, if_pos rfl]
  · rw [AList.lookup_insert_ne here, if_neg here]

/-- The position that a fill goes to starts with nothing. -/
theorem bookedOn_count {M : Type} (zero : M) (count : Position → M) {f : Fill}
    {outcomeName : String}
    (none_ : count (.new f.marketId f.tokenId outcomeName f.filledAt) = zero) :
    (p.position f.tokenId).elim zero count = count (bookedOn p f outcomeName) := by
  unfold bookedOn Portfolio.position
  cases p.positions.lookup f.tokenId with
  | none => exact none_.symm
  | some q => rfl

theorem Tallies.applyFill {f : Fill} {outcomeName : String} {gain booked : Usd} {q : Position}
    (h : Tallies machine p log) (filled : FilledBy machine E p f outcomeName gain booked q p') :
    Tallies machine p' (log ++
      [⟨f.marketId, f.tokenId, p.orderWallet.lookup f.orderId, gain, f.fee, booked⟩]) := by
  obtain ⟨total, market, byMarket⟩ := filled.market
  have whole : ∀ l : List Booking, l.filter (fun _ => true) = l := List.filter_true
  refine ⟨?_, ?_, ?_, ?_, ?_, ?_⟩
  · rw [← whole (log ++ _)]
    refine sum_snoc _ (by rw [whole]; exact h.realized) (fun _ => ?_) (fun no => absurd rfl no)
    exact (Calculation.run_lift _ _).trans filled.realized
  · rw [← whole (log ++ _)]
    refine sum_snoc _ (by rw [whole]; exact h.fees) (fun _ => ?_) (fun no => absurd rfl no)
    exact (Calculation.run_lift _ _).trans filled.fees
  · intro m
    refine sum_snoc _ (h.market m) ?_ ?_
    · intro here
      cases of_decide_eq_true here
      unfold Portfolio.marketPnl
      rw [byMarket, AList.lookup_insert]
      exact (Calculation.run_lift _ _).trans market
    · intro other
      have apart : m ≠ f.marketId := fun same => other (decide_eq_true same.symm)
      unfold Portfolio.marketPnl
      rw [byMarket, AList.lookup_insert_ne apart]
  · intro w
    obtain ⟨credited, kept⟩ := attributed_credits filled.wallet w
    refine sum_snoc _ (h.wallet w) ?_ ?_
    · intro here
      exact (Calculation.run_lift _ _).trans (credited (of_decide_eq_true here))
    · intro other
      unfold Portfolio.walletPnl
      rw [kept fun same => other (decide_eq_true same)]
  · intro t
    refine sum_snoc _ (h.position t) ?_ ?_
    · intro here
      cases of_decide_eq_true here
      rw [filled.position, if_pos rfl, bookedOn_count 0 Position.realizedPnl rfl]
      exact filled.applied.profits
    · intro other
      have apart : t ≠ f.tokenId := fun same => other (decide_eq_true same.symm)
      rw [filled.position, if_neg apart]
  · intro t
    refine sum_snoc _ (h.positionFees t) ?_ ?_
    · intro here
      cases of_decide_eq_true here
      rw [filled.position, if_pos rfl, bookedOn_count 0 Position.feesPaid rfl]
      exact (Calculation.run_lift _ _).trans filled.applied.fees
    · intro other
      have apart : t ≠ f.tokenId := fun same => other (decide_eq_true same.symm)
      rw [filled.position, if_neg apart]

/-- A marked position keeps what it has realised and paid. -/
theorem mark_counts {M : Type} (zero : M) (count : Position → M) {t : TokenId} {price : Price}
    {at_ : DateTime} (same : ∀ q : Position, count (q.mark price at_) = count q)
    (marked : (mark E p t price at_).run machine = some p') (t' : TokenId) :
    (p'.position t').elim zero count = (p.position t').elim zero count := by
  have moved := (mark_run marked).2
  unfold Portfolio.position
  rw [moved]
  cases held : p.positions.lookup t with
  | none => rfl
  | some q =>
    simp only [Option.elim_some]
    by_cases here : t' = t
    · rw [here, AList.lookup_insert, held, Option.elim_some, Option.elim_some, same]
    · rw [AList.lookup_insert_ne here]

theorem Tallies.mark {t : TokenId} {price : Price} {at_ : DateTime} (h : Tallies machine p log)
    (marked : (mark E p t price at_).run machine = some p') : Tallies machine p' log := by
  have moved := (mark_run marked).2
  refine ⟨?_, ?_, ?_, ?_, ?_, ?_⟩
  · rw [moved]
    exact h.realized
  · rw [moved]
    exact h.fees
  · rw [moved]
    exact h.market
  · rw [moved]
    exact h.wallet
  · intro t'
    rw [mark_counts 0 Position.realizedPnl (fun _ => rfl) marked]
    exact h.position t'
  · intro t'
    rw [mark_counts 0 Position.feesPaid (fun _ => rfl) marked]
    exact h.positionFees t'

theorem step_applyFill {f : Fill} {outcomeName : String}
    (taken : (step E p (.applyFill f outcomeName)).run machine = some p') :
    ∃ gain booked q, FilledBy machine E p f outcomeName gain booked q p' := by
  unfold step at taken
  rw [Calculation.run_bind] at taken
  obtain ⟨⟨q, p''⟩, fills, same⟩ := Option.bind_eq_some_iff.mp taken
  cases same
  obtain ⟨gain, booked, filled⟩ := applyFill_run fills
  exact ⟨gain, booked, q, filled⟩

/-- A step of the portfolio is one of the log, which goes on adding up to the figures. -/
theorem Tallies.step (h : Tallies machine p log) (taken : (step E p e).run machine = some p') :
    ∃ log', (logStep E (p, log) e).run machine = some (p', log') ∧ Tallies machine p' log' := by
  cases e with
  | applyFill f outcomeName =>
    obtain ⟨_, _, _, filled⟩ := step_applyFill taken
    refine ⟨_, ?_, h.applyFill filled⟩
    unfold logStep
    simp only [Calculation.run_bind, booking_run filled, taken]
    rfl
  | mark t price at_ =>
    refine ⟨log, ?_, h.mark taken⟩
    unfold logStep
    simp only [Calculation.run_bind, taken]
    rfl
  | attributeOrder order wallet =>
    cases taken
    exact ⟨log, rfl, h.realized, h.fees, h.market, h.wallet, h.position, h.positionFees⟩
  | reset now =>
    cases taken
    exact ⟨[], rfl, .new p.startingCash now⟩

theorem Tallies.after {es : List PortfolioEvent} (h : Tallies machine p log)
    (reached : (after E p es).run machine = some p') :
    ∃ log', (es.foldlM (logStep E) (p, log)).run machine = some (p', log') ∧
      Tallies machine p' log' := by
  unfold Portfolio.after at reached
  induction es generalizing p log with
  | nil =>
    cases reached
    exact ⟨log, rfl, h⟩
  | cons e es ih =>
    rw [List.foldlM_cons, Calculation.run_bind] at reached
    obtain ⟨p₁, first, rest⟩ := Option.bind_eq_some_iff.mp reached
    obtain ⟨log₁, logs, tallies⟩ := h.step first
    obtain ⟨log', more, whole⟩ := ih tallies rest
    refine ⟨log', ?_, whole⟩
    rw [List.foldlM_cons, Calculation.run_bind, logs]
    exact more

/-- The equity, as the machine adds it up, is not above the peak. -/
def Covered (machine : Operands → Decimal → Option Decimal)
    (E : AList.Enumeration TokenId Position) (p : Portfolio) : Prop :=
  ∃ now, (equity E p).run machine = some now ∧ now ≤ p.peakEquity

theorem Covered.new {startingCash : Usd} (held : Representable startingCash) (now : DateTime) :
    Covered rounded E (.new startingCash now) := by
  have none_ : E.list (Portfolio.new startingCash now).positions = [] := (E.perm ∅).eq_nil
  refine ⟨startingCash, ?_, le_rfl⟩
  have rounds : rounded .account (startingCash + 0) = some startingCash := by
    rw [add_zero]
    exact DecimalFormat.round_of_holds held
  unfold equity positionValue
  simp only [none_]
  exact (Calculation.run_lift _ _).trans rounds

theorem startingCash_step (taken : (step E p e).run machine = some p') :
    p'.startingCash = p.startingCash := by
  cases e with
  | applyFill f outcomeName =>
    obtain ⟨_, _, _, filled⟩ := step_applyFill taken
    exact filled.startingCash
  | mark t price at_ => rw [(mark_run taken).2]
  | attributeOrder order wallet =>
    cases taken
    rfl
  | reset now =>
    cases taken
    rfl

theorem Covered.step (h : Covered rounded E p) (held : Representable p.startingCash)
    (taken : (step E p e).run rounded = some p') : Covered rounded E p' := by
  cases e with
  | applyFill f outcomeName =>
    obtain ⟨_, _, _, filled⟩ := step_applyFill taken
    exact filled.peaked.covers
  | mark t price at_ => exact (mark_run taken).1.covers
  | attributeOrder order wallet =>
    cases taken
    exact h
  | reset now =>
    cases taken
    exact .new held now

/-- Until a reset the peak does not fall. -/
theorem peak_le_step (kept : ∀ t, e ≠ .reset t) (taken : (step E p e).run machine = some p') :
    p.peakEquity ≤ p'.peakEquity := by
  cases e with
  | applyFill f outcomeName =>
    obtain ⟨_, _, _, filled⟩ := step_applyFill taken
    exact filled.peaked.higher
  | mark t price at_ => exact (mark_run taken).1.higher
  | attributeOrder order wallet =>
    cases taken
    exact le_rfl
  | reset now => exact absurd rfl (kept now)

section Guarded

variable {kinds : Operands → Prop} [DecidablePred kinds]

/-- The breakdowns add up to the totals, as far as their sums are exact. -/
structure Even (kinds : Operands → Prop) (p : Portfolio) : Prop where
  markets : kinds .profits → p.byMarket.total id = p.realized
  positions : kinds .profits → p.positions.total Position.realizedPnl = p.realized
  positionFees : kinds .fees → p.positions.total Position.feesPaid = p.fees

omit [DecidablePred kinds] in
theorem Even.new (startingCash : Usd) (now : DateTime) : Even kinds (.new startingCash now) where
  markets _ := rfl
  positions _ := rfl
  positionFees _ := rfl

/-- What a fill adds to a sum over the positions, when a new position counts for nothing. -/
theorem total_filled {count : Position → Usd} {x gain booked : Usd} {f : Fill}
    {outcomeName : String} {q : Position}
    (filled : FilledBy machine E p f outcomeName gain booked q p')
    (new_ : count (.new f.marketId f.tokenId outcomeName f.filledAt) = 0)
    (moved : count q = count (bookedOn p f outcomeName) + x) :
    p'.positions.total count = p.positions.total count + x := by
  rw [filled.positions]
  apply AList.total_insert_moved
  rw [moved]
  unfold bookedOn
  cases p.positions.lookup f.tokenId with
  | none => rw [Option.getD_none, new_, Option.elim_none]
  | some q => rfl

theorem Even.applyFill {f : Fill} {outcomeName : String} {gain booked : Usd} {q : Position}
    (h : Even kinds p) (filled : FilledBy (guarded kinds) E p f outcomeName gain booked q p') :
    Even kinds p' := by
  refine ⟨?_, ?_, ?_⟩
  · intro exact_
    obtain ⟨total, market, byMarket⟩ := filled.market
    rw [byMarket, (guarded_eq_some filled.realized).2 exact_, ← h.markets exact_]
    apply AList.total_insert_moved
    rw [id, (guarded_eq_some market).2 exact_]
    cases p.byMarket.lookup f.marketId <;> rfl
  · intro exact_
    have profits_ := filled.applied.profits
    unfold profits at profits_
    rw [Calculation.run_bind, Calculation.run_lift] at profits_
    obtain ⟨gained, gains, keeps⟩ := Option.bind_eq_some_iff.mp profits_
    rw [Calculation.run_lift] at keeps
    have kept := (guarded_eq_some keeps).2 exact_
    rw [(guarded_eq_some gains).2 exact_] at kept
    have net := (guarded_eq_some filled.applied.booked).2 exact_
    rw [(guarded_eq_some filled.realized).2 exact_, ← h.positions exact_]
    refine total_filled filled rfl ?_
    rw [kept, net]
    ring
  · intro exact_
    rw [(guarded_eq_some filled.fees).2 exact_, ← h.positionFees exact_]
    exact total_filled filled rfl ((guarded_eq_some filled.applied.fees).2 exact_)

omit [DecidablePred kinds] in
theorem Even.mark {t : TokenId} {price : Price} {at_ : DateTime} (h : Even kinds p)
    (marked : (mark E p t price at_).run machine = some p') : Even kinds p' := by
  have moved := (mark_run marked).2
  have same {count : Position → Usd}
      (kept : ∀ q : Position, count (q.mark price at_) = count q) :
      p'.positions.total count = p.positions.total count := by
    rw [moved]
    cases held : p.positions.lookup t with
    | none => rfl
    | some q =>
      apply AList.total_insert_same
      rw [held, kept]
      rfl
  refine ⟨?_, ?_, ?_⟩
  · intro exact_
    rw [moved]
    exact h.markets exact_
  · intro exact_
    rw [same fun _ => rfl, h.positions exact_, moved]
  · intro exact_
    rw [same fun _ => rfl, h.positionFees exact_, moved]

theorem Even.step (h : Even kinds p) (taken : (step E p e).run (guarded kinds) = some p') :
    Even kinds p' := by
  cases e with
  | applyFill f outcomeName =>
    obtain ⟨_, _, _, filled⟩ := step_applyFill taken
    exact h.applyFill filled
  | mark t price at_ => exact h.mark taken
  | attributeOrder order wallet =>
    cases taken
    exact ⟨h.markets, h.positions, h.positionFees⟩
  | reset now =>
    cases taken
    exact .new p.startingCash now

theorem Even.after {startingCash : Usd} {now : DateTime} {es : List PortfolioEvent}
    (exact_ : (after E (.new startingCash now) es).Keeps kinds)
    (reached : (after E (.new startingCash now) es).run rounded = some p) : Even kinds p := by
  rw [exact_.run] at reached
  exact Calculation.run_foldlM_keeps (P := Even kinds) (fun _ _ _ _ even taken => even.step taken)
    (.new startingCash now) reached

end Guarded

/-- After every run, realised PnL and fees, whole and by market, wallet and position, are the
decimals' running sums over the same fills; they agree where those sums have nothing to round. The
peak is at least the equity and rises until a reset. -/
theorem breakdowns {startingCash : Usd} {now : DateTime} {es : List PortfolioEvent}
    (held : Representable startingCash)
    (reached : (after E (.new startingCash now) es).run rounded = some p) :
    (∃ log, (logged E (.new startingCash now) es).run rounded = some (p, log) ∧
      Tallies rounded p log) ∧
    ((after E (.new startingCash now) es).Keeps (· = .profits) →
      p.realized = (p.byMarket.keys.map p.marketPnl).sum ∧
      p.realized = p.positions.total Position.realizedPnl) ∧
    ((after E (.new startingCash now) es).Keeps (· = .fees) →
      p.fees = p.positions.total Position.feesPaid) ∧
    (∃ now, (equity E p).run rounded = some now ∧ now ≤ p.peakEquity) ∧
    ∀ later p', (∀ t, PortfolioEvent.reset t ∉ later) →
      (after E p later).run rounded = some p' → p.peakEquity ≤ p'.peakEquity := by
  have covered : Covered rounded E p ∧ p.startingCash = startingCash := by
    refine Calculation.run_foldlM_keeps
      (P := fun p => Covered rounded E p ∧ p.startingCash = startingCash) ?_
      ⟨.new held now, rfl⟩ reached
    rintro p e - p' ⟨before, same⟩ taken
    exact ⟨before.step (same ▸ held) taken, (startingCash_step taken).trans same⟩
  refine ⟨Tallies.after (.new startingCash now) reached, ?_, ?_, covered.1, ?_⟩
  · intro exact_
    have even := Even.after exact_ reached
    refine ⟨?_, (even.positions rfl).symm⟩
    rw [← even.markets rfl]
    exact AList.total_eq_sum_keys p.byMarket
  · intro exact_
    exact ((Even.after exact_ reached).positionFees rfl).symm
  · intro later p' kept run
    refine Calculation.run_foldlM_keeps (P := fun q => p.peakEquity ≤ q.peakEquity) ?_ le_rfl run
    intro q e mem q' higher taken
    refine higher.trans (peak_le_step ?_ taken)
    rintro t rfl
    exact kept t mem

/-- A trade of one of two tokens, each in a market of its own. -/
def trade (token : Fin 2) (side : Side) (quantity : Qty) (price : Price) (fee : Usd) :
    PortfolioEvent :=
  .applyFill {
    fillId := ⟨0⟩
    orderId := ⟨token⟩
    correlationId := ⟨0⟩
    marketId := if token = 0 then .zero else
      ⟨"0x0000000000000000000000000000000000000000000000000000000000000001", by decide⟩
    tokenId := if token = 0 then .zero else .one
    side := side
    quantity := quantity
    price := price
    fee := fee
    venueFillId := none
    isMaker := false
    filledAt := 0 } "Yes"

/-- Two positions are bought and reduced, the second after its order's wallet has changed. -/
def twoTokens : List PortfolioEvent :=
  [.attributeOrder ⟨0⟩ .zero, trade 0 .buy (.whole 4) .half (1 / 10),
    trade 1 .buy (.whole 2) .half (1 / 10), .mark .zero .nineteenTwentieths 1,
    trade 0 .sell (.whole 1) .nineteenTwentieths (1 / 10), .attributeOrder ⟨1⟩ .zero,
    trade 1 .sell (.whole 1) .nineteenTwentieths (1 / 10)]

theorem breakdowns_twoTokens : ∃ p log,
    (after .own (.new 1000 0) twoTokens).run rounded = some p ∧
    (logged .own (.new 1000 0) twoTokens).run rounded = some (p, log) ∧
    p.walletPnl .zero = 3 / 5 ∧
    p.realized = (p.byMarket.keys.map p.marketPnl).sum ∧
    p.realized = p.positions.total Position.realizedPnl ∧
    p.fees = p.positions.total Position.feesPaid := by
  have ran : ((after .own (.new 1000 0) twoTokens).run rounded).map (fun p => p.walletPnl .zero) =
      some (3 / 5) := by
    decide +kernel
  obtain ⟨p, reached, wallet⟩ := Option.map_eq_some_iff.mp ran
  obtain ⟨⟨log, logs, _⟩, profits, fees, _⟩ := breakdowns (by decide +kernel) reached
  obtain ⟨markets, positions⟩ := profits (by decide +kernel)
  exact ⟨p, log, reached, logs, wallet, markets, positions, fees (by decide +kernel)⟩

/-- Twice a fifteenth of a dollar is realised in one market, and ten dollars in the other in
between. -/
def thirds : List PortfolioEvent :=
  [trade 0 .buy (.whole 1) .half 0, trade 0 .buy (.whole 2) .twoFifths 0,
    trade 0 .sell (.whole 1) .half 0, trade 1 .buy (.whole 100) .twoFifths 0,
    trade 1 .sell (.whole 100) .half 0, trade 0 .sell (.whole 1) .half 0]

/-- The realised PnL is not the sum over the markets, exact or of decimals in any order. -/
theorem breakdowns_apart : ∃ p, (after .own (.new 1000 0) thirds).run rounded = some p ∧
    p.realized ≠ (p.byMarket.keys.map p.marketPnl).sum ∧
    ∀ parts, parts.Perm (p.byMarket.keys.map p.marketPnl) →
      (sumOf account pure parts).run rounded ≠ some p.realized := by
  have ran : ((after .own (.new 1000 0) thirds).run rounded).map (fun p =>
      (p.realized, p.byMarket.keys.map p.marketPnl)) =
      some (10133333333333333333333333334 / 10 ^ 27,
        [1333333333333333333333333334 / 10 ^ 28, 10]) := by
    decide +kernel
  obtain ⟨p, reached, figures⟩ := Option.map_eq_some_iff.mp ran
  obtain ⟨realized, parts_⟩ := Prod.mk.inj figures
  refine ⟨p, reached, ?_, ?_⟩
  · rw [realized, parts_]
    decide +kernel
  · rw [realized, parts_]
    intro parts perm
    obtain ⟨a, b, rfl⟩ := List.length_eq_two.mp perm.length_eq
    have each : ∀ a ∈ [1333333333333333333333333334 / 10 ^ 28, (10 : Usd)],
        ∀ b ∈ [1333333333333333333333333334 / 10 ^ 28, (10 : Usd)],
        (sumOf account pure [a, b]).run rounded ≠
          some (10133333333333333333333333334 / 10 ^ 27) := by
      decide +kernel
    exact each a (perm.subset List.mem_cons_self) b
      (perm.subset (List.mem_cons_of_mem _ List.mem_cons_self))

end Calc.Portfolio

end CopyTrading
