import CopyTrading.PaperSession

namespace CopyTrading

/-- The venue's view of one of our positions. -/
structure VenuePosition where
  tokenId : TokenId
  quantity : Qty
  deriving DecidableEq

/-- One position disagreement. -/
structure Mismatch where
  tokenId : TokenId
  internal : Decimal
  venue : Decimal
  difference : Decimal
  at_ : DateTime
  deriving DecidableEq

structure ReconciliationReport where
  at_ : DateTime
  checked : Nat
  mismatches : List Mismatch
  unexpectedVenuePositions : List TokenId
  missingAtVenue : List TokenId
  deriving DecidableEq

def ReconciliationReport.isClean (r : ReconciliationReport) : Bool :=
  r.mismatches.isEmpty && r.unexpectedVenuePositions.isEmpty && r.missingAtVenue.isEmpty

def ReconciliationReport.warrantsHalt (r : ReconciliationReport) (tolerance : Decimal) : Bool :=
  !r.unexpectedVenuePositions.isEmpty || r.mismatches.any fun m => |m.difference| > tolerance

/-- Collected into a map, a later entry of a token over an earlier one. -/
def venueMap (venue : List VenuePosition) : AList fun _ : TokenId => Decimal :=
  venue.foldl (fun m p => m.insert p.tokenId p.quantity.get) ∅

def mismatchOf (venue : AList fun _ : TokenId => Decimal) (tolerance : Decimal) (now : DateTime)
    (ours : Σ _ : TokenId, Decimal) : Option Mismatch :=
  match venue.lookup ours.1 with
  | some theirs =>
    let diff := ours.2 - theirs
    if |diff| > tolerance then some ⟨ours.1, ours.2, theirs, diff, now⟩ else none
  | none => none

/-- Compares our position book against the venue's. -/
def reconcile (internal : AList fun _ : TokenId => Decimal) (venue : List VenuePosition)
    (tolerance : Decimal) (now : DateTime) : ReconciliationReport :=
  let theirs := venueMap venue
  { at_ := now
    checked := max internal.entries.length theirs.entries.length
    mismatches := internal.entries.filterMap (mismatchOf theirs tolerance now)
    unexpectedVenuePositions := (theirs.entries.filter fun e =>
      (internal.lookup e.1).isNone && |e.2| > tolerance).map Sigma.fst
    missingAtVenue := (internal.entries.filter fun e =>
      (theirs.lookup e.1).isNone && |e.2| > tolerance).map Sigma.fst }

/-- Signed quantity per token. -/
def Portfolio.exposureMap (p : Portfolio) : AList fun _ : TokenId => Decimal :=
  p.positions.mapValues Position.netQuantity

/-- The positions the simulated venue reports: no flat ones, and every quantity without its sign. -/
def PaperExecution.venuePositions {G : Type} (p : PaperExecution G) : List VenuePosition :=
  (p.positions.entries.filter fun e => e.2 ≠ 0).map fun e => ⟨e.1, ⟨|e.2|, abs_nonneg e.2⟩⟩

theorem mismatchOf_none_iff {venue : AList fun _ : TokenId => Decimal} {tolerance : Decimal}
    {now : DateTime} {ours : Sigma fun _ : TokenId => Decimal} :
    mismatchOf venue tolerance now ours = none ↔
      ∀ v, venue.lookup ours.1 = some v → |ours.2 - v| ≤ tolerance := by
  unfold mismatchOf
  cases venue.lookup ours.1 with
  | none => simp
  | some v => simp

/-- A report is clean when no token's two quantities, absent ones counted as zero, differ by more
than the tolerance. -/
theorem reconcile_isClean_iff (internal : AList fun _ : TokenId => Decimal)
    (venue : List VenuePosition) {tolerance : Decimal} (nonneg : 0 ≤ tolerance) (now : DateTime) :
    (reconcile internal venue tolerance now).isClean = true ↔
      ∀ t, |(internal.lookup t).getD 0 - ((venueMap venue).lookup t).getD 0| ≤ tolerance := by
  unfold ReconciliationReport.isClean reconcile
  simp only [Bool.and_eq_true, List.isEmpty_iff, List.map_eq_nil_iff, List.filter_eq_nil_iff,
    List.filterMap_eq_nil_iff, decide_eq_true_eq, not_and, not_lt, gt_iff_lt, Option.isNone_iff_eq_none]
  constructor
  · rintro ⟨⟨agree, known⟩, present⟩ t
    cases ours : internal.lookup t with
    | none =>
      cases theirs : (venueMap venue).lookup t with
      | none => simpa using nonneg
      | some v =>
        have small := known ⟨t, v⟩ (AList.mem_entries_iff.mpr theirs) ours
        simpa using small
    | some q =>
      have listed := AList.mem_entries_iff (e := ⟨t, q⟩).mpr ours
      cases theirs : (venueMap venue).lookup t with
      | none =>
        have small := present ⟨t, q⟩ listed theirs
        simpa using small
      | some v =>
        exact mismatchOf_none_iff.mp (agree ⟨t, q⟩ listed) v theirs
  · intro close
    refine ⟨⟨?_, ?_⟩, ?_⟩
    · intro e listed
      have ours := AList.mem_entries_iff.mp listed
      have here := close e.1
      refine mismatchOf_none_iff.mpr ?_
      intro v theirs
      rw [ours, theirs] at here
      exact here
    · intro e listed unknown
      have theirs := AList.mem_entries_iff.mp listed
      have here := close e.1
      rw [unknown, theirs] at here
      simpa using here
    · intro e listed absent
      have ours := AList.mem_entries_iff.mp listed
      have here := close e.1
      rw [ours, absent] at here
      simpa using here

theorem lookup_venueMap {venue : List VenuePosition}
    (distinct : (venue.map VenuePosition.tokenId).Nodup) (t : TokenId) (q : Decimal) :
    (venueMap venue).lookup t = some q ↔ ∃ p ∈ venue, p.tokenId = t ∧ p.quantity.get = q := by
  unfold venueMap
  induction venue using List.reverseRecOn with
  | nil => simp
  | append_singleton venue p ih =>
    rw [List.map_append, List.map_singleton] at distinct
    obtain ⟨before, _, apart⟩ := List.nodup_append.mp distinct
    rw [List.foldl_append, List.foldl_cons, List.foldl_nil]
    by_cases here : t = p.tokenId
    · rw [here, AList.lookup_insert]
      constructor
      · intro same
        exact ⟨p, by simp, rfl, Option.some.inj same⟩
      · rintro ⟨p', mem, token, rfl⟩
        rcases List.mem_append.mp mem with old | last
        · exact absurd token (apart _ (List.mem_map_of_mem old) _ (by simp))
        · rw [List.mem_singleton.mp last]
    · rw [AList.lookup_insert_ne here, ih before]
      constructor
      · rintro ⟨p', mem, same⟩
        exact ⟨p', List.mem_append_left _ mem, same⟩
      · rintro ⟨p', mem, token, quantity⟩
        rcases List.mem_append.mp mem with old | last
        · exact ⟨p', old, token, quantity⟩
        · rw [List.mem_singleton.mp last] at token
          exact absurd token.symm here

/-- What the venue is read to hold of a token: what it holds, without the sign. -/
theorem PaperExecution.lookup_venuePositions {G : Type} (p : PaperExecution G) (t : TokenId) :
    ((venueMap p.venuePositions).lookup t).getD 0 = |p.position t| := by
  have distinct : (p.venuePositions.map VenuePosition.tokenId).Nodup := by
    unfold venuePositions
    rw [List.map_map]
    exact (p.positions.nodupKeys.sublist List.filter_sublist :)
  unfold position
  cases held : (venueMap p.venuePositions).lookup t with
  | some q =>
    obtain ⟨v, mem, rfl, rfl⟩ := (lookup_venueMap distinct t q).mp held
    obtain ⟨e, listed, rfl⟩ := List.mem_map.mp mem
    have ours := AList.mem_entries_iff.mp (List.mem_of_mem_filter listed)
    rw [ours]
    rfl
  | none =>
    cases ours : p.positions.lookup t with
    | none => simp
    | some q =>
      by_cases flat : q = 0
      · simp [flat]
      · have listed : (⟨t, ⟨|q|, abs_nonneg q⟩⟩ : VenuePosition) ∈ p.venuePositions := by
          refine List.mem_map.mpr ⟨⟨t, q⟩, List.mem_filter.mpr ⟨?_, by simpa using flat⟩, rfl⟩
          exact AList.mem_entries_iff.mpr ours
        have found := (lookup_venueMap distinct t |q|).mpr ⟨_, listed, rfl, rfl⟩
        rw [held] at found
        cases found

theorem Portfolio.lookup_exposureMap (p : Portfolio) (t : TokenId) :
    (p.exposureMap.lookup t).getD 0 = p.netQuantity t := by
  unfold exposureMap netQuantity position
  rw [AList.lookup_mapValues]
  cases p.positions.lookup t <;> rfl

/-- The signed quantity of a token that a list of fills comes to. -/
def netOf (fills : List Fill) (t : TokenId) : Decimal :=
  (fills.map fun f => if t = f.tokenId then f.signedQty else 0).sum

/-- The fills that an adapter recorded since it held nothing, whatever else it did in between. -/
inductive PaperExecution.Recorded {G : Type} : PaperExecution G → List Fill → Prop
  | start {p : PaperExecution G} : p.positions = ∅ → Recorded p []
  | fill {p : PaperExecution G} {fills : List Fill} (o : OrderRequest) (qty : Qty) (price : Price)
      (fee : Usd) (isMaker : Bool) (now : DateTime) : Recorded p fills →
      Recorded (p.recordFill o qty price fee isMaker now).2
        (fills ++ [(p.recordFill o qty price fee isMaker now).1])
  | other {p p' : PaperExecution G} {fills : List Fill} : Recorded p fills →
      p'.positions = p.positions → Recorded p' fills

theorem PaperExecution.Recorded.position {G : Type} {p : PaperExecution G} {fills : List Fill}
    (h : p.Recorded fills) (t : TokenId) : p.position t = netOf fills t := by
  unfold netOf
  induction h with
  | start none =>
    unfold PaperExecution.position
    rw [none]
    rfl
  | fill o qty price fee isMaker now _ ih =>
    rw [List.map_append, List.sum_append, ← ih]
    unfold PaperExecution.position recordFill
    simp only [List.map_cons, List.map_nil, List.sum_cons, List.sum_nil, add_zero, Fill.signedQty]
    by_cases here : t = o.tokenId
    · rw [here, AList.lookup_upsert, if_pos rfl]
      rfl
    · rw [AList.lookup_upsert_ne _ _ here, if_neg here, add_zero]
  | other _ same ih =>
    unfold PaperExecution.position at ih ⊢
    rw [same]
    exact ih

theorem Portfolio.bookFills_netQuantity (p : Portfolio) (outcomeName : String)
    (fills : List Fill) (t : TokenId) :
    (p.bookFills outcomeName fills).netQuantity t = p.netQuantity t + netOf fills t := by
  unfold netOf
  induction fills generalizing p with
  | nil => exact (add_zero _).symm
  | cons f fills ih =>
    have rest := ih (p.applyFill f outcomeName).2
    rw [applyFill_netQuantity] at rest
    rw [List.map_cons, List.sum_cons, ← add_assoc]
    exact rest

/-- A venue that has recorded fills of these sides and quantities at 0.5, one after the other. -/
def recordedAll (trades : List (Side × Nat)) : List Fill × PaperExecution Unit :=
  trades.foldl (fun (fills, p) (side, n) =>
    let (f, p) := p.recordFill { OrderRequest.sample .ioc with side := side, quantity := .whole n }
      (.whole n) .half 0 false 0
    (fills ++ [f], p)) ([], .new .new .plain 0 0 ())

theorem recordedAll_recorded (trades : List (Side × Nat)) :
    (recordedAll trades).2.Recorded (recordedAll trades).1 := by
  induction trades using List.reverseRecOn with
  | nil => exact .start rfl
  | append_singleton trades trade ih =>
    unfold recordedAll at ih ⊢
    rw [List.foldl_append]
    exact .fill _ _ _ _ _ _ ih

end CopyTrading
