import Mathlib.Data.List.DropRight
import CopyTrading.Portfolio

namespace CopyTrading

/-- The realised PnL, net of fees, that a fill books. -/
def Portfolio.booked (p : Portfolio) (f : Fill) (outcomeName : String) : Usd :=
  (p.applyFill f outcomeName).2.realized - p.realized

/-- When each fill was stamped, and what it booked. -/
def Portfolio.bookings (p : Portfolio) (outcomeName : String) : List Fill → List (DateTime × Usd)
  | [] => []
  | f :: fills => (f.filledAt, p.booked f outcomeName) ::
      (p.applyFill f outcomeName).2.bookings outcomeName fills

/-- The daily figure is what the fills stamped on the UTC calendar date of `t` booked. -/
def Portfolio.DailyRight (p : Portfolio) (outcomeName : String) (fills : List Fill)
    (t : DateTime) : Prop :=
  (p.bookFills outcomeName fills).dailyPnl t =
    (((p.bookings outcomeName fills).filter fun b => dayNumber b.1 = dayNumber t).map Prod.snd).sum

instance (p : Portfolio) (outcomeName : String) (fills : List Fill) (t : DateTime) :
    Decidable (p.DailyRight outcomeName fills t) :=
  inferInstanceAs (Decidable (_ = _))

/-- Exactly the stamps of `t`'s date are followed by no other day of the year. -/
def BucketFits (stamps : List DateTime) (t : DateTime) : Prop :=
  ∀ before s after, stamps = before ++ s :: after →
    (dayNumber s = dayNumber t ↔ ∀ u ∈ s :: after, ordinal u = ordinal t)

theorem Portfolio.applyFill_daily (p : Portfolio) (f : Fill) (outcomeName : String) :
    (p.applyFill f outcomeName).2.daily = rollDaily p.daily f.filledAt (p.booked f outcomeName) := by
  unfold booked applyFill
  simp only [refreshPeak_realized, add_sub_cancel_left]
  rfl

theorem Portfolio.bookFills_daily (p : Portfolio) (outcomeName : String) (fills : List Fill) :
    (p.bookFills outcomeName fills).daily =
      (p.bookings outcomeName fills).foldl (fun d b => rollDaily d b.1 b.2) p.daily := by
  induction fills generalizing p with
  | nil => rfl
  | cons f fills ih =>
    have rest := ih (p.applyFill f outcomeName).2
    rw [applyFill_daily] at rest
    exact rest

/-- What the bucket shows on a day of the year: the last unbroken run of bookings on it. -/
theorem rollDaily_run (bs : List (DateTime × Usd)) (day o : Nat) :
    let d := bs.foldl (fun d b => rollDaily d b.1 b.2) (day, 0)
    (if d.1 ≠ o then 0 else d.2) =
      ((bs.rtakeWhile fun b => ordinal b.1 = o).map Prod.snd).sum := by
  induction bs using List.reverseRecOn generalizing o with
  | nil => exact ite_self (0 : Usd)
  | append_singleton bs b ih =>
    simp only at ih ⊢
    rw [List.foldl_append, List.foldl_cons, List.foldl_nil, List.rtakeWhile_concat]
    have here := ih (ordinal b.1)
    generalize bs.foldl (fun d b => rollDaily d b.1 b.2) (day, 0) = d at ih here
    unfold rollDaily
    by_cases today : d.1 = ordinal b.1
    · rw [if_neg (not_not.mpr today)] at here ⊢
      by_cases asked : ordinal b.1 = o
      · subst asked
        simp [today, here]
      · simp [today, asked]
    · rw [if_pos today] at here ⊢
      by_cases asked : ordinal b.1 = o
      · subst asked
        simp [← here]
      · simp [asked]

theorem Portfolio.dailyPnl_run (startingCash : Usd) (start : DateTime) (outcomeName : String)
    (fills : List Fill) (t : DateTime) :
    ((Portfolio.new startingCash start).bookFills outcomeName fills).dailyPnl t =
      ((((Portfolio.new startingCash start).bookings outcomeName fills).rtakeWhile fun b =>
        ordinal b.1 = ordinal t).map Prod.snd).sum := by
  unfold dailyPnl
  rw [bookFills_daily]
  exact rollDaily_run _ (ordinal start) (ordinal t)

theorem Portfolio.bookings_stamps (p : Portfolio) (outcomeName : String) (fills : List Fill) :
    (p.bookings outcomeName fills).map Prod.fst = fills.map Fill.filledAt := by
  induction fills generalizing p with
  | nil => rfl
  | cons f fills ih => exact congrArg (f.filledAt :: ·) (ih _)

/-- Where the stamps fit, the last run of the day of the year is the date itself. -/
theorem BucketFits.run_eq {bs : List (DateTime × Usd)} {t : DateTime}
    (fits : BucketFits (bs.map Prod.fst) t) :
    (bs.rtakeWhile fun b => ordinal b.1 = ordinal t) =
      bs.filter fun b => dayNumber b.1 = dayNumber t := by
  induction bs using List.reverseRecOn with
  | nil => rfl
  | append_singleton bs b ih =>
    rw [List.map_append, List.map_singleton] at fits
    have last := fits (bs.map Prod.fst) b.1 [] rfl
    rw [List.rtakeWhile_concat, List.filter_append]
    by_cases today : ordinal b.1 = ordinal t
    · have date : dayNumber b.1 = dayNumber t := last.mpr (by simpa using today)
      have before : BucketFits (bs.map Prod.fst) t := by
        intro before s after eq
        have here := fits before s (after ++ [b.1]) (by rw [eq]; simp)
        rw [here]
        constructor
        · intro all u mem
          exact all u (List.mem_append_left [b.1] mem)
        · intro all u mem
          rw [← List.cons_append] at mem
          rcases List.mem_append.mp mem with mem | mem
          · exact all u mem
          · rw [List.mem_singleton.mp mem]
            exact today
      rw [if_pos (by simpa using today), ih before]
      simp [date]
    · have date : dayNumber b.1 ≠ dayNumber t := fun same => today (last.mp same b.1 (by simp))
      have none_ : ∀ c ∈ bs, dayNumber c.1 ≠ dayNumber t := by
        intro c mem same
        obtain ⟨l, r, eq⟩ := List.append_of_mem mem
        have here := fits (l.map Prod.fst) c.1 (r.map Prod.fst ++ [b.1]) (by rw [eq]; simp)
        exact today (here.mp same b.1 (by simp))
      rw [if_neg (by simpa using today)]
      have empty : (bs.filter fun b => dayNumber b.1 = dayNumber t) = [] := by
        refine List.filter_eq_nil_iff.mpr ?_
        intro c mem
        simpa using none_ c mem
      rw [empty]
      simp [date]

/-- A buy of one share of one token, for a fee. -/
def Fill.oneShare (stamp : DateTime) (fee : Usd) : Fill where
  fillId := ⟨0⟩
  orderId := ⟨0⟩
  correlationId := ⟨0⟩
  marketId := .zero
  tokenId := .zero
  side := .buy
  quantity := ⟨1, by norm_num⟩
  price := .half
  fee := fee
  venueFillId := none
  isMaker := false
  filledAt := stamp

theorem Position.book_buy {p : Position} (long : 0 ≤ p.netQuantity) {signed px : Decimal}
    (buy : 0 < signed) : (p.book signed px).1 = 0 := by
  have increase : p.netQuantity = 0 ∨ (0 < p.netQuantity ↔ 0 < signed) := by
    rcases long.eq_or_lt with flat | pos
    · exact .inl flat.symm
    · exact .inr ⟨fun _ => buy, fun _ => pos⟩
  unfold book
  simp only [if_pos increase]

/-- Buys on top of a long position book their fees and nothing else. -/
theorem Portfolio.bookings_oneShare (p : Portfolio) (long : 0 ≤ p.netQuantity .zero)
    (outcomeName : String) (bs : List (DateTime × Usd)) :
    p.bookings outcomeName (bs.map fun b => .oneShare b.1 (-b.2)) = bs := by
  induction bs generalizing p with
  | nil => rfl
  | cons b bs ih =>
    have held : 0 ≤ ((p.positions.lookup .zero).getD
        (.new .zero .zero outcomeName b.1)).netQuantity := by
      unfold netQuantity position at long
      cases here : p.positions.lookup .zero with
      | none => exact le_rfl
      | some q =>
        rw [here] at long
        exact long
    have fee : p.booked (.oneShare b.1 (-b.2)) outcomeName = b.2 := by
      unfold booked applyFill Position.apply
      simp only [refreshPeak_realized, add_sub_cancel_left, Fill.oneShare]
      rw [Position.book_buy held (by norm_num [Side.sign])]
      ring
    have more : 0 ≤ (p.applyFill (.oneShare b.1 (-b.2)) outcomeName).2.netQuantity .zero := by
      have same : TokenId.zero = (Fill.oneShare b.1 (-b.2)).tokenId := rfl
      have one : (Fill.oneShare b.1 (-b.2)).signedQty = 1 := by
        simp [Fill.signedQty, Fill.oneShare, Side.sign]
      rw [applyFill_netQuantity, if_pos same, one]
      linarith
    rw [List.map_cons, bookings, fee, ih _ more]
    rfl

/-- Bookings of nothing, except for one loss of 1 stamped `s`. -/
def oneLoss (before : List DateTime) (s : DateTime) (after : List DateTime) :
    List (DateTime × Usd) :=
  before.map (·, 0) ++ (s, -1) :: after.map (·, 0)

theorem sum_of_zeros {bs : List (DateTime × Usd)} (zero : ∀ b ∈ bs, b.2 = 0) :
    (bs.map Prod.snd).sum = 0 := by
  refine List.sum_eq_zero ?_
  intro x mem
  obtain ⟨b, listed, rfl⟩ := List.mem_map.mp mem
  exact zero b listed

theorem zeros_zero {stamps : List DateTime} {b : DateTime × Usd}
    (mem : b ∈ stamps.map fun s => ((s, 0) : DateTime × Usd)) : b.2 = 0 := by
  obtain ⟨s, _, rfl⟩ := List.mem_map.mp mem
  rfl

theorem oneLoss_filter (before after : List DateTime) (s : DateTime) (p : DateTime × Usd → Bool) :
    (((oneLoss before s after).filter p).map Prod.snd).sum = if p (s, -1) then -1 else 0 := by
  have left : ((((before.map fun s => ((s, 0) : DateTime × Usd))).filter p).map Prod.snd).sum = 0 :=
    sum_of_zeros fun b mem => zeros_zero (List.mem_of_mem_filter mem)
  have right : ((((after.map fun s => ((s, 0) : DateTime × Usd))).filter p).map Prod.snd).sum = 0 :=
    sum_of_zeros fun b mem => zeros_zero (List.mem_of_mem_filter mem)
  unfold oneLoss
  rw [List.filter_append, List.map_append, List.sum_append, left, List.filter_cons, zero_add]
  split
  · rw [List.map_cons, List.sum_cons, right, add_zero]
  · exact right

theorem oneLoss_run (before after : List DateTime) (s : DateTime) (p : DateTime → Bool) :
    (((oneLoss before s after).rtakeWhile fun b => p b.1).map Prod.snd).sum =
      if ∀ u ∈ s :: after, p u = true then -1 else 0 := by
  induction after using List.reverseRecOn with
  | nil =>
    unfold oneLoss
    rw [List.map_nil, List.rtakeWhile_concat]
    by_cases here : p s = true
    · have left : (((before.map fun s => ((s, 0) : DateTime × Usd)).rtakeWhile
          fun b => p b.1).map Prod.snd).sum = 0 :=
        sum_of_zeros fun b mem => zeros_zero ((List.rtakeWhile_suffix _ _).subset mem)
      rw [if_pos here, List.map_append, List.sum_append, left]
      simp [here]
    · simp [here]
  | append_singleton after u ih =>
    have longer : oneLoss before s (after ++ [u]) = oneLoss before s after ++ [(u, 0)] := by
      simp [oneLoss]
    rw [longer, List.rtakeWhile_concat]
    by_cases here : p u = true
    · rw [if_pos here, List.map_append, List.sum_append, ih]
      by_cases all : ∀ v ∈ s :: after, p v = true
      · have more : ∀ v ∈ s :: (after ++ [u]), p v = true := by
          intro v mem
          rw [← List.cons_append] at mem
          rcases List.mem_append.mp mem with mem | mem
          · exact all v mem
          · rw [List.mem_singleton.mp mem]
            exact here
        rw [if_pos all, if_pos more]
        simp
      · have fewer : ¬∀ v ∈ s :: (after ++ [u]), p v = true := by
          intro more
          refine all fun v mem => more v ?_
          rw [← List.cons_append]
          exact List.mem_append_left _ mem
        rw [if_neg all, if_neg fewer]
        simp
    · have fewer : ¬∀ v ∈ s :: (after ++ [u]), p v = true := fun more => here (more u (by simp))
      rw [if_neg here, if_neg fewer]
      rfl

/-- A loss of 23 March 2026 at 00:00:01, and then the fill of a second before midnight. -/
def lateFills : List Fill :=
  [.oneShare (20535 * 86400000000000 + 1000000000) 1,
    .oneShare (20535 * 86400000000000 - 1000000000) 0]

end CopyTrading
