import CopyTrading.WireTrades

namespace CopyTrading

/-- One recorded event of a session file. -/
structure ReplayEvent where
  trader : String
  marketId : String
  tokenId : String
  outcome : String
  side : String
  price : FeedF64
  size : FeedF64
  txHash : String
  /-- Milliseconds since the epoch. -/
  sourceTsMs : Int64
  title : String
  slug : String

/-- What the checked fields of a row are read as. -/
structure ReplayFields where
  trader : Address
  marketId : MarketId
  tokenId : TokenId
  side : Side
  price : Price
  quantity : Qty
  txHash : TxHash

/-- `to_ascii_uppercase`, with no trimming. -/
def replaySide (text : String) : Option Side :=
  match String.ofList (text.toList.map Char.toUpper) with
  | "BUY" => some .buy
  | "SELL" => some .sell
  | _ => none

/-- Inside the years the calendar library represents. -/
def Storable (t : DateTime) : Prop :=
  -8334601228800 ≤ timestamp t ∧ timestamp t ≤ 8210266876799

instance (t : DateTime) : Decidable (Storable t) := instDecidableAnd

/-- `DateTime + TimeDelta`, which panics on an instant that is not represented. -/
def addSigned (t : DateTime) (d : Int) : Option DateTime :=
  if Storable (t + d) then some (t + d) else none

def milliseconds (n : Int) : Int := n * 1000000

/-- `format!("replay-{i:08}-{}")` -/
def replayId (i : Nat) (txHash : String) : SourceEventId :=
  ⟨"replay-" ++ (toString i).leftpad 8 '0' ++ "-" ++ txHash⟩

section Parse

variable (parse : String → Option Decimal)

def ReplayEvent.fields (e : ReplayEvent) : Option ReplayFields := do
  let trader ← (Address.new e.trader).toOption
  let marketId ← (MarketId.new e.marketId).toOption
  let tokenId ← (TokenId.new e.tokenId).toOption
  let side ← replaySide e.side
  let price ← (Price.fromFeedF64 parse e.price).toOption
  let quantity ← (Qty.fromFeedF64 parse e.size).toOption
  let txHash ← (TxHash.new e.txHash).toOption
  return ⟨trader, marketId, tokenId, side, price, quantity, txHash⟩

def ReplayEvent.trade (e : ReplayEvent) (f : ReplayFields) (eventId : SourceEventId)
    (correlationId : CorrelationId) (sourceTs detectedTs : DateTime) : SourceTrade where
  eventId := eventId
  correlationId := correlationId
  trader := f.trader
  marketId := f.marketId
  tokenId := f.tokenId
  outcome := e.outcome
  side := f.side
  price := f.price
  quantity := f.quantity
  txHash := f.txHash
  occurrence := 0
  sourceTs := sourceTs
  detectedTs := detectedTs
  source := .replay
  marketTitle := e.title
  marketSlug := e.slug

/-- One row: `none` where the clock arithmetic panics, `some none` where the row is skipped. -/
def ReplayEvent.toSourceTrade (corr : Nat → CorrelationId) (now : DateTime) (base : Int64)
    (e : ReplayEvent) (i : Nat) : Option (Option SourceTrade) := do
  let sourceTs ← addSigned now (milliseconds (e.sourceTsMs - base).toInt)
  match e.fields parse with
  | none => return none
  | some f =>
    -- the measured publish delay
    let detectedTs ← addSigned sourceTs (milliseconds 400)
    return some (e.trade f (replayId i e.txHash) (corr i) sourceTs detectedTs)

def replayBase (events : List ReplayEvent) : Int64 :=
  (events.map ReplayEvent.sourceTsMs).min?.getD 0

/-- The recorded timestamps rebased onto `now`. -/
def toSourceTrades (corr : Nat → CorrelationId) (now : DateTime) (events : List ReplayEvent) :
    Option (List SourceTrade) := do
  let rows ← events.zipIdx.mapM fun e =>
    e.1.toSourceTrade parse corr now (replayBase events) e.2
  return rows.filterMap id

/-- The session without its malformed rows. -/
def wellFormed (events : List ReplayEvent) : List ReplayEvent :=
  events.filter fun e => (e.fields parse).isSome

end Parse

section Rows

variable (parse : String → Option Decimal) (corr : Nat → CorrelationId) (now : DateTime)

/-- Where a row lands once the base is moved onto `now`. The distance wraps at 64 bits. -/
def rebased (base : Int64) (e : ReplayEvent) : DateTime :=
  now + milliseconds (e.sourceTsMs - base).toInt

/-- The clock arithmetic on this row does not panic. -/
def Stamps (base : Int64) (e : ReplayEvent) : Prop :=
  Storable (rebased now base e) ∧
    ((e.fields parse).isSome → Storable (rebased now base e + milliseconds 400))

def rowTrade (base : Int64) (e : ReplayEvent) (i : Nat) : Option SourceTrade :=
  (e.fields parse).map fun f => e.trade f (replayId i e.txHash) (corr i) (rebased now base e)
    (rebased now base e + milliseconds 400)

variable {parse corr now}

theorem toSourceTrade_eq {base : Int64} {e : ReplayEvent} (stamps : Stamps parse now base e)
    (i : Nat) :
    e.toSourceTrade parse corr now base i = some (rowTrade parse corr now base e i) := by
  have added : addSigned now (milliseconds (e.sourceTsMs - base).toInt) =
      some (rebased now base e) := if_pos stamps.1
  unfold ReplayEvent.toSourceTrade rowTrade
  rw [added]
  cases fields : e.fields parse with
  | none => rfl
  | some f =>
    have detected : addSigned (rebased now base e) (milliseconds 400) =
        some (rebased now base e + milliseconds 400) := if_pos (stamps.2 (fields ▸ rfl))
    simp only [Option.bind_eq_bind, Option.bind_some, detected]
    rfl

theorem stamps_of_toSourceTrade {base : Int64} {e : ReplayEvent} {i : Nat}
    (done : (e.toSourceTrade parse corr now base i).isSome) : Stamps parse now base e := by
  by_cases first : Storable (rebased now base e)
  · refine ⟨first, fun read => ?_⟩
    obtain ⟨f, fields⟩ := Option.isSome_iff_exists.mp read
    by_contra second
    have added : addSigned now (milliseconds (e.sourceTsMs - base).toInt) =
        some (rebased now base e) := if_pos first
    have panics : addSigned (rebased now base e) (milliseconds 400) = none := if_neg second
    unfold ReplayEvent.toSourceTrade at done
    simp only [added, fields, Option.bind_eq_bind, Option.bind_some, panics, Option.bind_none,
      Option.isSome_none, Bool.false_eq_true] at done
  · have panics : addSigned now (milliseconds (e.sourceTsMs - base).toInt) = none := if_neg first
    unfold ReplayEvent.toSourceTrade at done
    simp only [panics, Option.bind_eq_bind, Option.bind_none, Option.isSome_none,
      Bool.false_eq_true] at done

theorem mapM_of_eq {α β : Type} {f : α → Option β} {g : α → β} {l : List α}
    (eq : ∀ a ∈ l, f a = some (g a)) : l.mapM f = some (l.map g) := by
  induction l with
  | nil => rfl
  | cons a l ih =>
    obtain ⟨here, rest⟩ := List.forall_mem_cons.mp eq
    rw [List.mapM_cons, here, ih rest]
    rfl

theorem isSome_of_mapM {α β : Type} {f : α → Option β} {l : List α} (done : (l.mapM f).isSome) :
    ∀ a ∈ l, (f a).isSome := by
  induction l with
  | nil => exact List.forall_mem_nil _
  | cons a l ih =>
    rw [List.mapM_cons] at done
    cases here : f a with
    | none => simp [here] at done
    | some b =>
      cases rest : l.mapM f with
      | none => simp [rest] at done
      | some bs => exact List.forall_mem_cons.mpr ⟨here ▸ rfl, ih (rest ▸ rfl)⟩

theorem toSourceTrades_eq {events : List ReplayEvent}
    (stamps : ∀ e ∈ events, Stamps parse now (replayBase events) e) :
    toSourceTrades parse corr now events = some (events.zipIdx.filterMap fun e =>
      rowTrade parse corr now (replayBase events) e.1 e.2) := by
  have rows : ∀ e ∈ events.zipIdx, e.1.toSourceTrade parse corr now (replayBase events) e.2 =
      some (rowTrade parse corr now (replayBase events) e.1 e.2) := fun e mem =>
    toSourceTrade_eq (stamps e.1 (List.fst_mem_of_mem_zipIdx mem)) e.2
  rw [toSourceTrades, mapM_of_eq rows]
  exact congrArg some (List.filterMap_map ..)

theorem stamps_of_toSourceTrades {events : List ReplayEvent} {trades : List SourceTrade}
    (done : toSourceTrades parse corr now events = some trades) :
    ∀ e ∈ events, Stamps parse now (replayBase events) e := by
  intro e mem
  obtain ⟨rows, ran, _⟩ := Option.bind_eq_some_iff.mp done
  obtain ⟨i, at_⟩ := List.mem_iff_getElem?.mp mem
  have row := isSome_of_mapM (Option.isSome_of_eq_some ran) (e, i)
    (List.mem_zipIdx_iff_getElem?.mpr at_)
  exact stamps_of_toSourceTrade row

/-- A trade without the identifiers it was given on this pass over the file. -/
def recorded (t : SourceTrade) : SourceTrade := { t with eventId := ⟨""⟩, correlationId := ⟨0⟩ }

theorem sourceTs_recorded (trades : List SourceTrade) :
    (trades.map recorded).map SourceTrade.sourceTs = trades.map SourceTrade.sourceTs := by
  rw [List.map_map]
  rfl

/-- What a row says besides identifiers. -/
def recordedRow (parse : String → Option Decimal) (now : DateTime) (base : Int64)
    (e : ReplayEvent) : Option SourceTrade :=
  (e.fields parse).map fun f =>
    e.trade f ⟨""⟩ ⟨0⟩ (rebased now base e) (rebased now base e + milliseconds 400)

theorem recorded_row (base : Int64) (e : ReplayEvent) (i : Nat) :
    (rowTrade parse corr now base e i).map recorded = recordedRow parse now base e := by
  unfold rowTrade recordedRow
  cases e.fields parse <;> rfl

theorem recordedRow_wellFormed (base : Int64) (events : List ReplayEvent) :
    (wellFormed parse events).filterMap (recordedRow parse now base) =
      events.filterMap (recordedRow parse now base) := by
  rw [wellFormed, List.filterMap_filter]
  refine List.filterMap_congr fun e _ => ?_
  split
  next => rfl
  next skipped =>
    have none_ : e.fields parse = none := by simpa using skipped
    rw [recordedRow, none_]
    rfl

/-- The surviving trades, identifiers apart, are read off the well-formed rows. -/
theorem recorded_rows (base : Int64) (events : List ReplayEvent) :
    (events.zipIdx.filterMap fun e => rowTrade parse corr now base e.1 e.2).map recorded =
      (wellFormed parse events).filterMap (recordedRow parse now base) := by
  have rows := List.filterMap_map (l := events.zipIdx) (f := Prod.fst)
    (g := recordedRow parse now base)
  rw [List.zipIdx_map_fst] at rows
  rw [List.map_filterMap, recordedRow_wellFormed, rows]
  simp only [recorded_row]
  rfl

theorem stamps_recorded {base : Int64} {rows : List ReplayEvent}
    (formed : ∀ e ∈ rows, (e.fields parse).isSome) :
    (rows.filterMap (recordedRow parse now base)).map SourceTrade.sourceTs =
      rows.map (rebased now base) := by
  rw [List.map_filterMap, ← List.filterMap_eq_map]
  refine List.filterMap_congr fun e mem => ?_
  obtain ⟨f, read⟩ := Option.isSome_iff_exists.mp (formed e mem)
  rw [recordedRow, read]
  rfl

theorem mem_wellFormed {events : List ReplayEvent} {e : ReplayEvent} :
    e ∈ wellFormed parse events ↔ e ∈ events ∧ (e.fields parse).isSome := by
  simp only [wellFormed, List.mem_filter]

theorem wellFormed_wellFormed (events : List ReplayEvent) :
    wellFormed parse (wellFormed parse events) = wellFormed parse events := by
  simp only [wellFormed, List.filter_filter, Bool.and_self]

variable (parse corr now) in
/-- The stamps of the surviving trades, row by row. -/
theorem stamps_rows (base : Int64) (events : List ReplayEvent) :
    (events.zipIdx.filterMap fun e =>
      rowTrade parse corr now base e.1 e.2).map SourceTrade.sourceTs =
        (wellFormed parse events).map (rebased now base) := by
  have formed : ∀ e ∈ wellFormed parse events, (e.fields parse).isSome :=
    fun e mem => (mem_wellFormed.mp mem).2
  rw [← stamps_recorded formed, ← recorded_rows, sourceTs_recorded]

theorem replayBase_spec {events : List ReplayEvent} (some_ : events ≠ []) :
    (∃ e ∈ events, e.sourceTsMs = replayBase events) ∧
      ∀ e ∈ events, replayBase events ≤ e.sourceTsMs := by
  have some_' : events.map ReplayEvent.sourceTsMs ≠ [] := mt List.map_eq_nil_iff.mp some_
  have least := List.min?_eq_some_min some_'
  have base : replayBase events = (events.map ReplayEvent.sourceTsMs).min some_' := by
    rw [replayBase, least]
    rfl
  obtain ⟨mem, le⟩ := List.min?_eq_some_iff.mp least
  rw [base]
  exact ⟨List.mem_map.mp mem, fun e mem => le _ (List.mem_map_of_mem mem)⟩

theorem rebased_inj {base base' : Int64} {e : ReplayEvent}
    (same : rebased now base e = rebased now base' e) : base = base' := by
  have distances : (e.sourceTsMs - base).toInt = (e.sourceTsMs - base').toInt :=
    Int.eq_of_mul_eq_mul_right (by decide) (Int.add_left_cancel same)
  exact (Int64.sub_right_inj _).mp (Int64.toInt_inj.mp distances)

theorem rebased_base {base : Int64} {e : ReplayEvent} (first : e.sourceTsMs = base) :
    rebased now base e = now := by
  rw [rebased, first, Int64.sub_self]
  exact Int.add_zero now

/-- A distance is kept where it fits 64 bits. -/
theorem rebased_exact {base : Int64} {e : ReplayEvent}
    (near : e.sourceTsMs.toInt - base.toInt < 2 ^ 63) (later : base ≤ e.sourceTsMs) :
    rebased now base e = now + milliseconds (e.sourceTsMs.toInt - base.toInt) := by
  have le := Int64.le_iff_toInt_le.mp later
  have kept : (e.sourceTsMs.toInt - base.toInt).bmod (2 ^ 64) =
      e.sourceTsMs.toInt - base.toInt := Int.bmod_eq_of_le (by omega) (by omega)
  rw [rebased, Int64.toInt_sub, kept]

end Rows

/-- The surviving trades are those of the session without its malformed rows: the same but for
identifiers, the earliest stamped `now`, and as far apart as they were recorded. -/
def Unaffected (parse : String → Option Decimal) (now : DateTime) (events : List ReplayEvent) :
    Prop :=
  ∀ corr corr' : Nat → CorrelationId, ∃ trades kept,
    toSourceTrades parse corr now events = some trades ∧
    toSourceTrades parse corr' now (wellFormed parse events) = some kept ∧
    trades.map recorded = kept.map recorded ∧
    (∀ t ∈ trades, now ≤ t.sourceTs) ∧ (trades ≠ [] → ∃ t ∈ trades, t.sourceTs = now) ∧
    ∀ (i j : Nat) (e e' : ReplayEvent) (t t' : SourceTrade),
      (wellFormed parse events)[i]? = some e → (wellFormed parse events)[j]? = some e' →
      trades[i]? = some t → trades[j]? = some t' →
      t.sourceTs - t'.sourceTs = milliseconds (e.sourceTsMs.toInt - e'.sourceTsMs.toInt)

/-- Every row can be stamped, and where any row is well formed one of these is the earliest of the
file and the others are within 64 bits of it. -/
def BaseSurvives (parse : String → Option Decimal) (now : DateTime) (events : List ReplayEvent) :
    Prop :=
  (∀ e ∈ events, Stamps parse now (replayBase events) e) ∧
    ∀ e ∈ wellFormed parse events,
      e.sourceTsMs.toInt - (replayBase events).toInt < 2 ^ 63 ∧
      ∃ first ∈ wellFormed parse events, ∀ e' ∈ events, first.sourceTsMs ≤ e'.sourceTsMs

section Survivors

variable {parse : String → Option Decimal} {now : DateTime} {events : List ReplayEvent}

theorem replayBase_eq {first : ReplayEvent} (mem : first ∈ events)
    (least : ∀ e ∈ events, first.sourceTsMs ≤ e.sourceTsMs) :
    replayBase events = first.sourceTsMs := by
  obtain ⟨⟨e, mem', base⟩, below⟩ := replayBase_spec (List.ne_nil_of_mem mem)
  exact Int64.le_antisymm (below first mem) (base ▸ least e mem')

/-- Without malformed rows in front of it, the base stays where it was. -/
theorem replayBase_wellFormed {first : ReplayEvent} (mem : first ∈ wellFormed parse events)
    (least : ∀ e ∈ events, first.sourceTsMs ≤ e.sourceTsMs) :
    replayBase (wellFormed parse events) = replayBase events := by
  rw [replayBase_eq (mem_wellFormed.mp mem).1 least]
  exact replayBase_eq mem fun e mem' => least e (mem_wellFormed.mp mem').1

theorem trade_at {trades : List SourceTrade} {rows : List ReplayEvent} {base : Int64}
    (stamps : trades.map SourceTrade.sourceTs = rows.map (rebased now base)) {i : Nat}
    {e : ReplayEvent} (row : rows[i]? = some e) :
    ∃ t, trades[i]? = some t ∧ t.sourceTs = rebased now base e := by
  have same := congrArg (fun l : List DateTime => l[i]?) stamps
  simp only [List.getElem?_map, row, Option.map_some] at same
  exact Option.map_eq_some_iff.mp same

theorem stamp_at {trades : List SourceTrade} {rows : List ReplayEvent} {base : Int64}
    (stamps : trades.map SourceTrade.sourceTs = rows.map (rebased now base)) {i : Nat}
    {t : SourceTrade} {e : ReplayEvent} (trade : trades[i]? = some t) (row : rows[i]? = some e) :
    t.sourceTs = rebased now base e := by
  obtain ⟨t', trade', at_⟩ := trade_at stamps row
  cases trade.symm.trans trade'
  exact at_

theorem unaffected_of_baseSurvives (h : BaseSurvives parse now events) :
    Unaffected parse now events := by
  intro corr corr'
  obtain ⟨stamps, survives⟩ := h
  have same : ∀ e ∈ wellFormed parse events,
      replayBase (wellFormed parse events) = replayBase events := by
    intro e mem
    obtain ⟨_, first, mem', least⟩ := survives e mem
    exact replayBase_wellFormed mem' least
  have stamps' : ∀ e ∈ wellFormed parse events,
      Stamps parse now (replayBase (wellFormed parse events)) e := by
    intro e mem
    rw [same e mem]
    exact stamps e (mem_wellFormed.mp mem).1
  have landed : ∀ e ∈ wellFormed parse events, rebased now (replayBase events) e =
      now + milliseconds (e.sourceTsMs.toInt - (replayBase events).toInt) := by
    intro e mem
    have some_ := List.ne_nil_of_mem (mem_wellFormed.mp mem).1
    exact rebased_exact (survives e mem).1
      ((replayBase_spec some_).2 e (mem_wellFormed.mp mem).1)
  have rows := stamps_rows parse corr now (replayBase events) events
  refine ⟨_, _, toSourceTrades_eq stamps, toSourceTrades_eq stamps', ?_, ?_, ?_, ?_⟩
  · rw [recorded_rows, recorded_rows, wellFormed_wellFormed]
    exact List.filterMap_congr fun e mem => by rw [same e mem]
  · intro t mem
    have stamp := List.mem_map_of_mem (f := SourceTrade.sourceTs) mem
    rw [rows] at stamp
    obtain ⟨e, mem', at_⟩ := List.mem_map.mp stamp
    have some_ := List.ne_nil_of_mem (mem_wellFormed.mp mem').1
    have later := (replayBase_spec some_).2 e (mem_wellFormed.mp mem').1
    have le := Int64.le_iff_toInt_le.mp later
    rw [← at_, landed e mem']
    exact Int.le_add_of_nonneg_right (Int.mul_nonneg (by omega) (by decide))
  · intro some_
    have some_' : wellFormed parse events ≠ [] := by
      rintro none_
      rw [none_] at rows
      exact some_ (List.map_eq_nil_iff.mp rows)
    obtain ⟨e, mem⟩ := List.exists_mem_of_ne_nil _ some_'
    obtain ⟨_, first, mem', least⟩ := survives e mem
    have here := List.mem_map_of_mem (f := rebased now (replayBase events)) mem'
    rw [← rows] at here
    obtain ⟨t, listed, at_⟩ := List.mem_map.mp here
    exact ⟨t, listed, at_.trans
      (rebased_base (replayBase_eq (mem_wellFormed.mp mem').1 least).symm)⟩
  · intro i j e e' t t' row row' trade trade'
    have at_ := stamp_at rows trade row
    have at_' := stamp_at rows trade' row'
    rw [at_, at_', landed e (List.mem_of_getElem? row), landed e' (List.mem_of_getElem? row')]
    unfold milliseconds
    ring

theorem baseSurvives_of_unaffected (h : Unaffected parse now events) :
    BaseSurvives parse now events := by
  obtain ⟨trades, kept, ran, ran', same, _, _, spaced⟩ := h (fun _ => ⟨0⟩) fun _ => ⟨0⟩
  have stamps := stamps_of_toSourceTrades ran
  cases Option.some.inj (ran.symm.trans (toSourceTrades_eq stamps))
  cases Option.some.inj (ran'.symm.trans (toSourceTrades_eq (stamps_of_toSourceTrades ran')))
  refine ⟨stamps, fun e mem => ?_⟩
  have rows := stamps_rows parse (fun _ => ⟨0⟩) now (replayBase events) events
  -- both passes put each survivor at the same instant, so both have the same base
  have bases : replayBase events = replayBase (wellFormed parse events) := by
    have rows' := stamps_rows parse (fun _ => ⟨0⟩) now (replayBase (wellFormed parse events))
      (wellFormed parse events)
    have instants := congrArg (List.map SourceTrade.sourceTs) same
    rw [sourceTs_recorded, sourceTs_recorded, rows, rows', wellFormed_wellFormed] at instants
    exact rebased_inj (List.map_inj_left.mp instants e mem)
  obtain ⟨⟨first, mem', base⟩, below⟩ := replayBase_spec (List.ne_nil_of_mem mem)
  refine ⟨?_, first, mem', fun e' listed => ?_⟩
  · obtain ⟨i, row⟩ := List.mem_iff_getElem?.mp mem
    obtain ⟨j, row'⟩ := List.mem_iff_getElem?.mp mem'
    obtain ⟨t, trade, at_⟩ := trade_at rows row
    obtain ⟨t', trade', at_'⟩ := trade_at rows row'
    have apart := spaced i j e first t t' row row' trade trade'
    rw [at_, at_', rebased_base (base.trans bases.symm), rebased] at apart
    have distance : (e.sourceTsMs - replayBase events).toInt =
        e.sourceTsMs.toInt - first.sourceTsMs.toInt := by
      refine Int.eq_of_mul_eq_mul_right (a := 1000000) (by decide) ?_
      exact (add_sub_cancel_left now _).symm.trans apart
    have fits := (e.sourceTsMs - replayBase events).toInt_lt
    rw [bases, ← base, ← distance]
    exact fits
  · have least := (replayBase_spec (List.ne_nil_of_mem listed)).2 e' listed
    rw [base, ← bases]
    exact least

theorem replay_unaffected_iff : Unaffected parse now events ↔ BaseSurvives parse now events :=
  ⟨baseSurvives_of_unaffected, unaffected_of_baseSurvives⟩

end Survivors

def ReplayEvent.sample : ReplayEvent :=
  ⟨Address.zero.asStr, MarketId.zero.asStr, "0", "Yes", "BUY", ⟨true, "0.5"⟩, ⟨true, "200"⟩,
    TxHash.zero.asStr, 1787102287000, "T", "t"⟩

def parseRecorded (text : String) : Option Decimal :=
  if text = "0.5" then some (1 / 2) else some 200

/-- A row nothing can be read of, stamped at the epoch. -/
def ReplayEvent.malformed : ReplayEvent :=
  ⟨"garbage", "bad", "x", "", "SIDEWAYS", ⟨true, "5"⟩, ⟨true, "-1"⟩, "nope", 0, "", ""⟩

theorem ReplayEvent.sample_read : (ReplayEvent.sample.fields parseRecorded).isSome := by
  decide +kernel

/-- The malformed row moves the base, and with it every survivor. -/
theorem malformed_moves_base : ¬ ∀ (parse : String → Option Decimal) (now : DateTime)
    (events : List ReplayEvent), Unaffected parse now events := by
  intro claim
  have survives := baseSurvives_of_unaffected (claim parseRecorded 0 [.sample, .malformed])
  obtain ⟨_, first, mem, least⟩ := survives.2 .sample
    (mem_wellFormed.mpr ⟨List.mem_cons_self, ReplayEvent.sample_read⟩)
  obtain ⟨listed, read⟩ := mem_wellFormed.mp mem
  rcases List.mem_pair.mp listed with rfl | rfl
  · exact absurd (least .malformed (by simp)) (by decide)
  · exact absurd read (by decide)

end CopyTrading
