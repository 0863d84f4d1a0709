import CopyTrading.PaperSession
import CopyTrading.RestingPass

namespace CopyTrading

open DrawOrder StepRun

section Sessions

variable {G : Type} (rng : Rng G)

/-- Two venues in the same session: they agree but for generated ids, stamps and the way their
maps are laid out. -/
structure PaperExecution.SameSession (p q : PaperExecution G) : Prop where
  books : q.books = p.books
  params : q.params = p.params
  latencyMs : q.latencyMs = p.latencyMs
  latencyJitterMs : q.latencyJitterMs = p.latencyJitterMs
  rng : q.rng = p.rng
  seq : q.seq = p.seq
  resting : ∀ id, q.resting.lookup id = p.resting.lookup id
  pendingFills : (q.pendingFills.map Fill.content).Perm (p.pendingFills.map Fill.content)

/-- The same fills, whatever their ids, their stamps and the order in which they were made. -/
def SameFills (fs gs : List Fill) : Prop := (gs.map Fill.content).Perm (fs.map Fill.content)

/-- However the resting map is enumerated, a book update does the same. -/
def OrderFree (resting : AList fun _ : OrderId => RestingOrder) (book : OrderBook)
    (params : MatchParams) : Prop :=
  ∀ (G : Type) (rng : Rng G), rng.Lawful → ∀ (p q : PaperExecution G), p.SameSession q →
    p.resting = resting → p.params = params → ∀ cs cs' now now', p.Candidates book cs →
    q.Candidates book cs' →
    (p.onBookUpdate rng book cs now).2.SameSession (q.onBookUpdate rng book cs' now').2 ∧
      SameFills (p.onBookUpdate rng book cs now).1 (q.onBookUpdate rng book cs' now').1

/-- A resting order that a book update draws for. -/
def RestingOrder.Contends (r : RestingOrder) (book : OrderBook) : Prop :=
  r.request.tokenId = book.tokenId ∧ isMarketable r.request book = true

/-- Every order is rejected, or none is and none is cut short, or at most one draws at all, or
none can be filled. -/
def DrawsAgree (resting : AList fun _ : OrderId => RestingOrder) (book : OrderBook)
    (params : MatchParams) : Prop :=
  1 ≤ params.rejectProbability ∨
  (params.rejectProbability ≤ 0 ∧ 1 ≤ params.fillProbability) ∨
  (∀ id r id' r', resting.lookup id = some r → resting.lookup id' = some r' →
    r.Contends book → r'.Contends book → id = id') ∨
  (∀ id r, resting.lookup id = some r → r.request.tokenId = book.tokenId →
    ¬Fillable book params r)

variable {rng}

theorem PaperExecution.SameSession.symm {p q : PaperExecution G} (h : p.SameSession q) :
    q.SameSession p :=
  ⟨h.books.symm, h.params.symm, h.latencyMs.symm, h.latencyJitterMs.symm, h.rng.symm, h.seq.symm,
    fun id => (h.resting id).symm, h.pendingFills.symm⟩

/-- A candidate that is answered alike in every state, and draws once if at all. -/
def Steady (rng : Rng G) (book : OrderBook) (params : MatchParams)
    (c : OrderId × RestingOrder) : Prop :=
  ∃ x, ∀ g, hitOf rng book params c g =
    (x, if isMarketable c.2.request book then (rng.unit g).2 else g)

theorem Steady.commute {book : OrderBook} {params : MatchParams} {a b : OrderId × RestingOrder}
    (ha : Steady rng book params a) (hb : Steady rng book params b) :
    Commute (hitOf rng book params) a b := by
  obtain ⟨x, ha⟩ := ha
  obtain ⟨y, hb⟩ := hb
  refine .of_const ha hb ?_
  intro g
  by_cases first : isMarketable a.2.request book = true
  · by_cases second : isMarketable b.2.request book = true
    · simp only [first, second, if_true]
    · simp only [second, Bool.false_eq_true, if_false]
  · simp only [first, Bool.false_eq_true, if_false]

theorem steady_of_unfillable {book : OrderBook} {params : MatchParams}
    {c : OrderId × RestingOrder} (h : ¬Fillable book params c.2) : Steady rng book params c :=
  ⟨none, hitOf_of_not_fillable rng h⟩

theorem steady_of_rejecting (lawful : rng.Lawful) {book : OrderBook} {params : MatchParams}
    (c : OrderId × RestingOrder) (h : 1 ≤ params.rejectProbability) :
    Steady rng book params c :=
  ⟨none, hitOf_of_rejecting lawful h c⟩

theorem steady_of_certain (lawful : rng.Lawful) {book : OrderBook} {params : MatchParams}
    (c : OrderId × RestingOrder) (accepts : params.rejectProbability ≤ 0)
    (fills : 1 ≤ params.fillProbability) : Steady rng book params c := by
  by_cases fillable : Fillable book params c.2
  · obtain ⟨available, price, _, hits⟩ := hitOf_fillable rng fillable
    refine ⟨some ⟨available, price, available.notional price * params.feeBps / 10000⟩, ?_⟩
    intro g
    have accepted : ¬(rng.unit g).1 < params.rejectProbability :=
      not_lt.mpr (accepts.trans (lawful g).1)
    rw [hits g accepted, queueRisk_certain fills, if_pos fillable.crosses]
    rfl
  · exact steady_of_unfillable fillable

/-- Where the draws agree, every two candidates commute. -/
theorem DrawsAgree.commute (lawful : rng.Lawful)
    {resting : AList fun _ : OrderId => RestingOrder} {book : OrderBook} {params : MatchParams}
    (h : DrawsAgree resting book params) {a b : OrderId × RestingOrder}
    (ha : resting.lookup a.1 = some a.2 ∧ a.2.request.tokenId = book.tokenId)
    (hb : resting.lookup b.1 = some b.2 ∧ b.2.request.tokenId = book.tokenId) (ne : a ≠ b) :
    Commute (hitOf rng book params) a b := by
  rcases h with rejecting | ⟨accepts, fills⟩ | one | unfillable
  · exact (steady_of_rejecting lawful a rejecting).commute (steady_of_rejecting lawful b rejecting)
  · exact (steady_of_certain lawful a accepts fills).commute
      (steady_of_certain lawful b accepts fills)
  · by_cases first : isMarketable a.2.request book = true
    · by_cases second : isMarketable b.2.request book = true
      · have same := one a.1 a.2 b.1 b.2 ha.1 hb.1 ⟨ha.2, first⟩ ⟨hb.2, second⟩
        have held := ha.1
        rw [same, hb.1] at held
        exact absurd (Prod.ext same (Option.some.inj held).symm) ne
      · rw [Bool.not_eq_true] at second
        exact (Commute.of_idle (hitOf_idle rng second)).symm
    · rw [Bool.not_eq_true] at first
      exact .of_idle (hitOf_idle rng first)
  · exact (steady_of_unfillable (unfillable a.1 a.2 ha.1 ha.2)).commute
      (steady_of_unfillable (unfillable b.1 b.2 hb.1 hb.2))

/-- Where the draws agree, how the resting map is enumerated makes no difference. -/
theorem PaperExecution.SameSession.bookUpdate (lawful : rng.Lawful) {p q : PaperExecution G}
    (h : p.SameSession q) {book : OrderBook} (agree : DrawsAgree p.resting book p.params)
    {cs cs' : List (OrderId × RestingOrder)} (hc : p.Candidates book cs)
    (hc' : q.Candidates book cs') (now now' : DateTime) :
    (p.onBookUpdate rng book cs now).2.SameSession (q.onBookUpdate rng book cs' now').2 ∧
      SameFills (p.onBookUpdate rng book cs now).1 (q.onBookUpdate rng book cs' now').1 := by
  have perm : cs.Perm cs' := by
    refine (List.perm_ext_iff_of_nodup hc.nodup hc'.nodup).mpr ?_
    intro c
    rw [hc.mem, hc'.mem, h.resting]
  obtain ⟨passed, state, content⟩ := onBookUpdate_spec rng hc now
  obtain ⟨passed', state', content'⟩ := onBookUpdate_spec rng hc' now'
  obtain ⟨books, latencyMs, latencyJitterMs, seq, pending⟩ :=
    onBookUpdate_frame rng hc now
  obtain ⟨books', latencyMs', latencyJitterMs', seq', pending'⟩ :=
    onBookUpdate_frame rng hc' now'
  rw [h.params, h.rng] at passed' state' content'
  obtain ⟨answers, final⟩ := runAll_perm perm
    (fun a ha b hb ne => agree.commute lawful (hc.mem.mp ha) (hc.mem.mp hb) ne) p.rng
  have fills : SameFills (p.onBookUpdate rng book cs now).1
      (q.onBookUpdate rng book cs' now').1 := by
    unfold SameFills
    rw [content, content']
    exact (answers.filterMap _).symm
  refine ⟨?_, fills⟩
  refine ⟨?_, ?_, ?_, ?_, ?_, ?_, ?_, ?_⟩
  · rw [books, books', h.books]
  · rw [passed.params, passed'.params, h.params]
  · rw [latencyMs, latencyMs', h.latencyMs]
  · rw [latencyJitterMs, latencyJitterMs', h.latencyJitterMs]
  · rw [state, state', final]
  · rw [seq, seq', h.seq]
  · intro id
    by_cases drawn : id ∈ cs.map Prod.fst
    · rw [← runAll_fst (f := hitOf rng book p.params) cs p.rng, List.map_map] at drawn
      obtain ⟨x, mem, rfl⟩ := List.mem_map.mp drawn
      have one := passed.after x mem
      have other := passed'.after x (answers.mem_iff.mp mem)
      exact other.trans one.symm
    · have absent : id ∉ cs'.map Prod.fst := fun mem => drawn ((perm.map _).mem_iff.mpr mem)
      rw [passed.others id drawn, passed'.others id absent, h.resting]
  · rw [pending, pending', List.map_append, List.map_append]
    exact h.pendingFills.append fills

theorem PaperExecution.SameSession.simulateLatency (rng : Rng G) {p q : PaperExecution G}
    (h : p.SameSession q) : (p.simulateLatency rng).SameSession (q.simulateLatency rng) := by
  unfold PaperExecution.simulateLatency
  by_cases jitter : p.latencyJitterMs > 0
  · rw [if_pos jitter, if_pos (by rw [h.latencyJitterMs]; exact jitter)]
    refine { h with rng := ?_ }
    show (rng.upTo q.latencyJitterMs q.rng).2 = (rng.upTo p.latencyJitterMs p.rng).2
    rw [h.latencyJitterMs, h.rng]
  · rw [if_neg jitter, if_neg (by rw [h.latencyJitterMs]; exact jitter)]
    exact h

theorem PaperExecution.SameSession.rest {p q : PaperExecution G} (h : p.SameSession q)
    (id : OrderId) (r : RestingOrder) :
    ∀ j, (q.resting.insert id r).lookup j = (p.resting.insert id r).lookup j := by
  intro j
  by_cases here : j = id
  · rw [here, AList.lookup_insert, AList.lookup_insert]
  · rw [AList.lookup_insert_ne here, AList.lookup_insert_ne here, h.resting]

/-- The fills that a submission is answered with. -/
def answeredFills : Except ExecutionError Acknowledgement → List Fill
  | .ok ack => ack.immediateFills
  | .error _ => []

theorem PaperExecution.SameSession.submit {p q : PaperExecution G} (h : p.SameSession q)
    (order : OrderRequest) (now now' : DateTime) :
    (p.submit rng order now).2.SameSession (q.submit rng order now').2 ∧
      SameFills (answeredFills (p.submit rng order now).1)
        (answeredFills (q.submit rng order now').1) := by
  have waited := h.simulateLatency rng
  unfold PaperExecution.submit
  simp only
  generalize p.simulateLatency rng = p, q.simulateLatency rng = q at waited
  rw [waited.books, waited.params, waited.rng]
  cases cached : p.books.get order.tokenId with
  | none => exact ⟨waited, .refl _⟩
  | some book =>
    simp only
    cases outcome : matchOrder rng order book p.params p.rng with
    | mk out g =>
      cases out with
      | rejected reason =>
        simp only
        exact ⟨⟨rfl, rfl, waited.latencyMs, waited.latencyJitterMs, rfl, waited.seq,
          waited.resting, waited.pendingFills⟩, .refl _⟩
      | noLiquidity =>
        simp only
        exact ⟨⟨rfl, rfl, waited.latencyMs, waited.latencyJitterMs, rfl, waited.seq,
          waited.resting, waited.pendingFills⟩, .refl _⟩
      | resting =>
        simp only [nextVenueId]
        refine ⟨?_, by simp [SameFills, answeredFills]⟩
        exact ⟨rfl, rfl, waited.latencyMs, waited.latencyJitterMs, rfl,
          congrArg (· + 1) waited.seq, waited.rest _ _, waited.pendingFills⟩
      | filled quantity price fee isMaker =>
        simp only [nextVenueId, recordFill]
        refine ⟨?_, by simp [SameFills, answeredFills, Fill.content]⟩
        by_cases rests : ¬quantity.get ≥ order.quantity.get ∧ order.timeInForce = .gtc
        · simp only [if_pos rests]
          exact ⟨rfl, rfl, waited.latencyMs, waited.latencyJitterMs, rfl,
            congrArg (· + 1) waited.seq, waited.rest _ _, waited.pendingFills⟩
        · simp only [if_neg rests]
          exact ⟨rfl, rfl, waited.latencyMs, waited.latencyJitterMs, rfl,
            congrArg (· + 1) waited.seq, waited.resting, waited.pendingFills⟩

theorem PaperExecution.SameSession.cancel {p q : PaperExecution G} (h : p.SameSession q)
    (id : OrderId) : (p.cancel rng id).2.SameSession (q.cancel rng id).2 := by
  have waited := h.simulateLatency rng
  unfold PaperExecution.cancel
  simp only
  generalize p.simulateLatency rng = p, q.simulateLatency rng = q at waited
  rw [waited.resting id]
  cases held : p.resting.lookup id with
  | none => exact waited
  | some r =>
    refine { waited with resting := ?_ }
    intro j
    by_cases here : j = id
    · rw [here]
      exact (AList.lookup_erase id q.resting).trans (AList.lookup_erase id p.resting).symm
    · exact (AList.lookup_erase_ne here).trans
        ((waited.resting j).trans (AList.lookup_erase_ne here).symm)

end Sessions

section Necessity

theorem hitOf_scripted_one {book : OrderBook} {params : MatchParams} {c : OrderId × RestingOrder}
    (crosses : isMarketable c.2.request book = true) (x : {x : ℚ // 0 ≤ x ∧ x < 1}) :
    (hitOf .scripted book params c [x]).2 = [] := by
  by_cases rejected : (Rng.scripted.unit [x]).1 < params.rejectProbability
  · rw [hitOf_rejected _ crosses rejected]
    rfl
  · by_cases fillable : Fillable book params c.2
    · obtain ⟨available, _, _, hits⟩ := hitOf_fillable .scripted fillable
      rw [hits _ rejected]
      show (queueRisk .scripted params available []).2 = []
      rcases queueRisk_draws .scripted params available [] with ⟨_, eq⟩ | eq | eq
      · exact eq
      · exact eq
      · exact eq
    · rw [hitOf_unfillable _ crosses fillable]
      rfl

/-- Where the enumeration makes no difference, an order gets the same whether or not another is
drawn for before it. -/
theorem OrderFree.same_amount {resting : AList fun _ : OrderId => RestingOrder} {book : OrderBook}
    {params : MatchParams} (free : OrderFree resting book params) {G : Type} {rng : Rng G}
    (lawful : rng.Lawful) {c d : OrderId × RestingOrder}
    (hc : resting.lookup c.1 = some c.2 ∧ c.2.request.tokenId = book.tokenId)
    (hd : resting.lookup d.1 = some d.2 ∧ d.2.request.tokenId = book.tokenId) (ne : c.1 ≠ d.1)
    (g : G) : Hit.amount (hitOf rng book params c g).1 =
      Hit.amount (hitOf rng book params c (hitOf rng book params d g).2).1 := by
  let p : PaperExecution G := ⟨.new, params, 0, 0, g, resting, ∅, [], 0, 0⟩
  let all := (resting.entries.filter fun e => e.2.request.tokenId = book.tokenId).map
    fun e => (e.1, e.2)
  have listing : p.Candidates book all := .refl _
  have mem_c : c ∈ all := listing.mem.mpr hc
  have mem_d : d ∈ all.erase c :=
    (List.mem_erase_of_ne fun same => ne (congrArg Prod.fst same.symm)).mpr (listing.mem.mpr hd)
  have perm : all.Perm (c :: d :: (all.erase c).erase d) :=
    (List.perm_cons_erase mem_c).trans ((List.perm_cons_erase mem_d).cons c)
  have first : p.Candidates book (c :: d :: (all.erase c).erase d) := perm.symm
  have second : p.Candidates book (d :: c :: (all.erase c).erase d) := 
    (List.Perm.swap _ _ _).trans first
  have same : p.SameSession p := ⟨rfl, rfl, rfl, rfl, rfl, rfl, fun _ => rfl, .refl _⟩
  obtain ⟨venue, _⟩ := free G rng lawful p p same rfl rfl _ _ 0 0 first second
  obtain ⟨passed, _, _⟩ := PaperExecution.onBookUpdate_spec rng first 0
  obtain ⟨passed', _, _⟩ := PaperExecution.onBookUpdate_spec rng second 0
  have here := passed.after (c, (hitOf rng book params c g).1) List.mem_cons_self
  have there := passed'.after (c, (hitOf rng book params c (hitOf rng book params d g).2).1)
    (List.mem_cons_of_mem _ List.mem_cons_self)
  have left : c.2.after (hitOf rng book params c g).1 =
      c.2.after (hitOf rng book params c (hitOf rng book params d g).2).1 :=
    here.symm.trans ((venue.resting c.1).symm.trans there)
  have fits : ∀ g, Hit.amount (hitOf rng book params c g).1 ≤ c.2.remaining.get := by
    intro g
    refine (amount_hitOf rng book params c g).2.trans ?_
    split
    · exact min_le_left _ _
    · exact c.2.remaining.nonneg
  have one := RestingOrder.after_remaining (fits g)
  have other := RestingOrder.after_remaining (fits (hitOf rng book params d g).2)
  rw [left, other] at one
  linarith

/-- Of two orders that draw, one of them fillable, some stream has the other take its draw. -/
theorem draws_differ {book : OrderBook} {params : MatchParams}
    (checked : 0 ≤ params.fillProbability) (mayAccept : params.rejectProbability < 1)
    (mayFail : ¬(params.rejectProbability ≤ 0 ∧ 1 ≤ params.fillProbability))
    {c d : OrderId × RestingOrder} (fillable : Fillable book params c.2)
    (crosses : isMarketable d.2.request book = true) :
    ∃ g, Hit.amount (hitOf .scripted book params c g).1 ≠
      Hit.amount (hitOf .scripted book params c (hitOf .scripted book params d g).2).1 := by
  have reach : 0 < c.2.reach book := lt_min fillable.remains fillable.offered
  by_cases rejects : 0 < params.rejectProbability
  · -- one draw just past the rejections, and none after it
    refine ⟨[⟨params.rejectProbability, rejects.le, mayAccept⟩], ?_⟩
    have first := amount_whole .scripted (g := [⟨params.rejectProbability, rejects.le,
      mayAccept⟩]) fillable (lt_irrefl _) checked
    rw [hitOf_scripted_one crosses, first, hitOf_rejected _ fillable.crosses rejects]
    exact reach.ne'
  · -- nothing is rejected, and the second draw goes against whoever makes it
    have accepts := not_lt.mp rejects
    have risky : params.fillProbability < 1 := not_le.mp fun certain => mayFail ⟨accepts, certain⟩
    let h : {x : ℚ // 0 ≤ x ∧ x < 1} :=
      ⟨(params.fillProbability + 1) / 2, by linarith, by linarith⟩
    have against : params.fillProbability < h.1 := by
      show params.fillProbability < (params.fillProbability + 1) / 2
      linarith
    have accepted : ∀ g, ¬(Rng.scripted.unit g).1 < params.rejectProbability :=
      fun g => not_lt.mpr (accepts.trans (Rng.scripted_lawful g).1)
    refine ⟨[⟨0, le_rfl, one_pos⟩, h], ?_⟩
    have first := amount_short .scripted (g := [⟨0, le_rfl, one_pos⟩, h]) fillable
      (accepted _) risky against
    have second : ∀ g, g = [] ∨ g = [h] →
        Hit.amount (hitOf .scripted book params c g).1 = c.2.reach book := by
      rintro g (rfl | rfl)
      · exact amount_whole _ fillable (accepted _) checked
      · exact amount_whole _ fillable (accepted _) checked
    have left : (hitOf .scripted book params d [⟨0, le_rfl, one_pos⟩, h]).2 = [] ∨
        (hitOf .scripted book params d [⟨0, le_rfl, one_pos⟩, h]).2 = [h] := by
      by_cases also : Fillable book params d.2
      · obtain ⟨available, _, _, hits⟩ := hitOf_fillable .scripted also
        rw [hits _ (accepted _)]
        rcases queueRisk_draws .scripted params available [h] with ⟨certain, _⟩ | eq | eq
        · exact absurd risky (not_lt.mpr certain)
        · exact .inl eq
        · exact .inl eq
      · rw [hitOf_unfillable _ crosses also]
        exact .inr rfl
    rw [second _ left]
    exact first.ne

theorem OrderFree.drawsAgree {resting : AList fun _ : OrderId => RestingOrder} {book : OrderBook}
    {params : MatchParams} (checked : 0 ≤ params.fillProbability)
    (free : OrderFree resting book params) : DrawsAgree resting book params := by
  by_contra differ
  unfold DrawsAgree at differ
  push Not at differ
  obtain ⟨mayAccept, mayFail, ⟨i, r, j, s, hi, hj, first, second, ne⟩, k, t, hk, token,
    fillable⟩ := differ
  have drawn : ∀ d : OrderId × RestingOrder, resting.lookup d.1 = some d.2 →
      d.2.Contends book → k = d.1 := by
    intro d held contends
    by_contra other
    obtain ⟨g, differ⟩ := draws_differ (c := (k, t)) checked mayAccept
      (fun h => (mayFail h.1).not_ge h.2) fillable contends.2
    exact differ (free.same_amount Rng.scripted_lawful ⟨hk, token⟩ ⟨held, contends.1⟩ other g)
  exact ne ((drawn (i, r) hi first).symm.trans (drawn (j, s) hj second))

end Necessity

inductive VenueCommand
  | submit (order : OrderRequest)
  | cancel (id : OrderId)
  | bookUpdate (book : OrderBook)
  deriving DecidableEq

/-- A command as one run carries it out: with its stamp, and with the order in which the resting
map enumerates the candidates there. -/
inductive VenueEvent
  | submit (order : OrderRequest) (now : DateTime)
  | cancel (id : OrderId)
  | bookUpdate (book : OrderBook) (cs : List (OrderId × RestingOrder)) (now : DateTime)

def VenueEvent.command : VenueEvent → VenueCommand
  | .submit order _ => .submit order
  | .cancel id => .cancel id
  | .bookUpdate book _ _ => .bookUpdate book

/-- A venue, with the fills that each command so far has returned. -/
structure PaperRun (G : Type) where
  paper : PaperExecution G
  fills : List (List Fill)

section Runs

variable {G : Type} (rng : Rng G)

def PaperRun.step (s : PaperRun G) : VenueEvent → Option (PaperRun G)
  | .submit order now =>
    let (answer, paper) := s.paper.submit rng order now
    some ⟨paper, s.fills ++ [answeredFills answer]⟩
  | .cancel id => some ⟨(s.paper.cancel rng id).2, s.fills ++ [[]]⟩
  | .bookUpdate book cs now =>
    if s.paper.Candidates book cs then
      let (fills, paper) := s.paper.onBookUpdate rng book cs now
      some ⟨{ paper with books := paper.books.put book }, s.fills ++ [fills]⟩
    else none

/-- The same session, in which every command has returned the same fills. -/
structure PaperRun.Alike (s t : PaperRun G) : Prop where
  paper : s.paper.SameSession t.paper
  fills : List.Forall₂ SameFills s.fills t.fills

/-- A book update, if this is one, comes where the draws agree. -/
def DrawsAgreeAt (s : PaperRun G) (e : VenueEvent) : Prop :=
  ∀ book, e.command = .bookUpdate book → DrawsAgree s.paper.resting book s.paper.params

variable {rng}

theorem PaperRun.Alike.returned {s t : PaperRun G} (h : s.Alike t) {p q : PaperExecution G}
    {fs gs : List Fill} (same : p.SameSession q ∧ SameFills fs gs) :
    PaperRun.Alike ⟨p, s.fills ++ [fs]⟩ ⟨q, t.fills ++ [gs]⟩ :=
  ⟨same.1, List.rel_append h.fills (.cons same.2 .nil)⟩

theorem PaperRun.step_bookUpdate {s s' : PaperRun G} {book : OrderBook}
    {cs : List (OrderId × RestingOrder)} {now : DateTime}
    (h : s.step rng (.bookUpdate book cs now) = some s') : s.paper.Candidates book cs ∧
      s' = ⟨{ (s.paper.onBookUpdate rng book cs now).2 with
          books := (s.paper.onBookUpdate rng book cs now).2.books.put book },
        s.fills ++ [(s.paper.onBookUpdate rng book cs now).1]⟩ := by
  simp only [step] at h
  split at h
  next candidates => exact ⟨candidates, (Option.some.inj h).symm⟩
  next => cases h

/-- One command, carried out in two runs of the same session. -/
theorem PaperRun.Alike.step (lawful : rng.Lawful) {s t s' t' : PaperRun G} (h : s.Alike t)
    {e e' : VenueEvent} (same : e.command = e'.command) (agree : DrawsAgreeAt s e)
    (hs : s.step rng e = some s') (ht : t.step rng e' = some t') : s'.Alike t' := by
  cases e with
  | submit order now =>
    cases e' with
    | submit order' now' =>
      cases same
      cases hs
      cases ht
      exact h.returned (h.paper.submit order now now')
    | cancel id => cases same
    | bookUpdate book cs now' => cases same
  | cancel id =>
    cases e' with
    | submit order now => cases same
    | cancel id' =>
      cases same
      cases hs
      cases ht
      exact h.returned ⟨h.paper.cancel id, .refl _⟩
    | bookUpdate book cs now' => cases same
  | bookUpdate book cs now =>
    cases e' with
    | submit order now' => cases same
    | cancel id => cases same
    | bookUpdate book' cs' now' =>
      cases same
      obtain ⟨candidates, rfl⟩ := PaperRun.step_bookUpdate hs
      obtain ⟨candidates', rfl⟩ := PaperRun.step_bookUpdate ht
      obtain ⟨venue, fills⟩ :=
        h.paper.bookUpdate lawful (agree book rfl) candidates candidates' now now'
      refine h.returned ⟨{ venue with books := ?_ }, fills⟩
      show BookCache.put _ book = BookCache.put _ book
      rw [venue.books]

/-- Runs of the same commands stay in the same session while the draws agree. -/
theorem PaperRun.Alike.run (lawful : rng.Lawful) {s t s' t' : PaperRun G} (h : s.Alike t)
    {es es' : List VenueEvent} (same : es.map VenueEvent.command = es'.map VenueEvent.command)
    (hs : Run (PaperRun.step rng) DrawsAgreeAt s es s')
    (ht : Run (PaperRun.step rng) Anywhere t es' t') : s'.Alike t' := by
  induction hs generalizing es' t' with
  | nil =>
    rw [List.map_nil] at same
    rw [List.map_eq_nil_iff.mp same.symm] at ht
    have start : Run (PaperRun.step rng) Anywhere t [] t := .nil
    rw [ht.unique start]
    exact h
  | @snoc es r s' e before agree taken ih =>
    rw [List.map_append, List.map_singleton] at same
    obtain ⟨fs, gs, rfl, commands, last⟩ := List.map_eq_append_iff.mp same.symm
    obtain ⟨e', rfl, command⟩ := List.map_eq_singleton_iff.mp last
    obtain ⟨r', before', _, taken'⟩ := ht.last
    exact (ih commands.symm before').step lawful command.symm agree taken taken'

end Runs

/-- The enumeration of the resting map makes no difference exactly where the draws agree; runs of
the same commands, all of whose book updates come there, make the same fills. -/
theorem replays_iff (params : MatchParams) (checked : 0 ≤ params.fillProbability) :
    (∀ resting book, OrderFree resting book params ↔ DrawsAgree resting book params) ∧
    ∀ (G : Type) (rng : Rng G), rng.Lawful → ∀ (s t s' t' : PaperRun G) (es es' : List VenueEvent),
      s.Alike t → es.map VenueEvent.command = es'.map VenueEvent.command →
      Run (PaperRun.step rng) DrawsAgreeAt s es s' → Run (PaperRun.step rng) Anywhere t es' t' →
      s'.Alike t' := by
  refine ⟨?_, ?_⟩
  · intro resting book
    constructor
    · exact OrderFree.drawsAgree checked
    · intro agree G rng lawful p q same held configured cs cs' now now' hc hc'
      rw [← held, ← configured] at agree
      exact same.bookUpdate lawful agree hc hc' now now'
  · intro G rng lawful s t s' t' es es' alike same ran ran'
    exact alike.run lawful same ran ran'

/-- Where every draw is a certain fill, two resting orders are filled alike either way. -/
theorem replays_plain :
    let two := ((∅ : AList fun _ : OrderId => RestingOrder).insert ⟨0⟩
      ⟨.sample .gtc, (OrderRequest.sample .gtc).quantity⟩).insert ⟨1⟩
        ⟨.sample .gtc, (OrderRequest.sample .gtc).quantity⟩
    OrderFree two .sample .plain := by
  have checked : 0 ≤ MatchParams.plain.fillProbability := zero_le_one
  exact ((replays_iff .plain checked).1 _ .sample).mpr (.inr (.inl ⟨le_rfl, le_rfl⟩))

/-- Half of all orders are rejected. -/
def MatchParams.halfRejected : MatchParams := { MatchParams.plain with rejectProbability := 1 / 2 }

/-- Two buys of 30 rest, and are then reached by a book that offers 10. -/
def twoResting (cs : List (OrderId × RestingOrder)) : List VenueEvent :=
  [.bookUpdate { OrderBook.sample with asks := [] } [] 0, .submit (.sample .gtc) 0,
    .submit { OrderRequest.sample .gtc with orderId := ⟨1⟩ } 0, .bookUpdate .sample cs 0]

/-- The last two draws are 1/2 and 0: whichever order is enumerated first is filled, and the
other one is rejected. -/
theorem replay_differs : ¬ ∀ (G : Type) (rng : Rng G), rng.Lawful →
    ∀ (p : PaperExecution G) (es es' : List VenueEvent) (s t : PaperRun G),
      es.map VenueEvent.command = es'.map VenueEvent.command →
      Run (PaperRun.step rng) Anywhere ⟨p, []⟩ es s →
      Run (PaperRun.step rng) Anywhere ⟨p, []⟩ es' t → s.Alike t := by
  intro claim
  let half : {x : ℚ // 0 ≤ x ∧ x < 1} := ⟨1 / 2, by norm_num⟩
  let p : PaperExecution (List {x : ℚ // 0 ≤ x ∧ x < 1}) :=
    .new .new .halfRejected 0 0 [half, half, half]
  let a : OrderId × RestingOrder := (⟨0⟩, ⟨.sample .gtc, (OrderRequest.sample .gtc).quantity⟩)
  let b : OrderId × RestingOrder := (⟨1⟩, ⟨{ OrderRequest.sample .gtc with orderId := ⟨1⟩ },
    (OrderRequest.sample .gtc).quantity⟩)
  let exec := fun cs => (twoResting cs).foldlM (fun s e => if Anywhere s e then
    PaperRun.step Rng.scripted s e else none) (⟨p, []⟩ : PaperRun _)
  have ran : (exec [a, b]).any (fun s => (exec [b, a]).any fun t =>
      s.paper.resting.lookup ⟨0⟩ ≠ t.paper.resting.lookup ⟨0⟩) = true := by
    decide +kernel
  obtain ⟨s, executed, ran⟩ := (Option.any_eq_true _ _).mp ran
  obtain ⟨t, executed', differ⟩ := (Option.any_eq_true _ _).mp ran
  have alike := claim _ .scripted Rng.scripted_lawful p (twoResting [a, b]) (twoResting [b, a])
    s t rfl (run_of_foldlM executed) (run_of_foldlM executed')
  exact of_decide_eq_true differ (alike.paper.resting ⟨0⟩).symm

end CopyTrading
