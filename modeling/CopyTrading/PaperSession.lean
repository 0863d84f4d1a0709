import CopyTrading.Paper
import CopyTrading.Portfolio
import CopyTrading.StepRun

namespace CopyTrading

structure PaperSession (G : Type) where
  paper : PaperExecution G
  orders : OrderManager
  portfolio : Portfolio

/-- The operations of a session, each run to completion. -/
inductive SessionEvent
  | register (req : OrderRequest) (latency : LatencyStamps) (now : DateTime)
  | submit (id : OrderId) (outcomeName : String) (now at_ : DateTime)
  | cancel (id : OrderId) (now at_ : DateTime)
  /-- A new book, with the order in which the resting map enumerates its candidates. -/
  | bookUpdate (book : OrderBook) (cs : List (OrderId × RestingOrder)) (now : DateTime)
  | fetchBook (book : OrderBook)
  | paperReset (now : DateTime)

/-- Marks the book's token at the book's mid, when it has one. -/
def Portfolio.markBook (p : Portfolio) (book : OrderBook) (now : DateTime) : Portfolio :=
  match book.mid with
  | some mid => p.mark book.tokenId mid now
  | none => p

variable {G : Type} (rng : Rng G)

/-- A resting fill: into the order manager and, if it is accepted there, into the portfolio. -/
def PaperSession.settle (s : PaperSession G) (f : Fill) : PaperSession G :=
  match s.orders.applyExternalFill f with
  | .ok orders => { s with orders := orders, portfolio := (s.portfolio.applyFill f "").2 }
  | .error _ => s

def PaperSession.cacheBook (s : PaperSession G) (book : OrderBook) : PaperSession G :=
  { s with paper := { s.paper with books := s.paper.books.put book } }

/-- One refreshed book: mark, fill the resting orders it reaches, then cache it. -/
def PaperSession.bookUpdate (s : PaperSession G) (book : OrderBook)
    (cs : List (OrderId × RestingOrder)) (now : DateTime) : PaperSession G :=
  let portfolio := s.portfolio.markBook book now
  let (fills, paper) := s.paper.onBookUpdate rng book cs now
  PaperSession.cacheBook (fills.foldl PaperSession.settle ⟨paper, s.orders, portfolio⟩) book

def PaperSession.submit (s : PaperSession G) (id : OrderId) (outcomeName : String)
    (now at_ : DateTime) : PaperSession G :=
  let (outcome, orders, paper) := s.orders.submit (paperAdapter rng at_) s.paper id now at_
  ⟨paper, orders, outcome.fills.foldl (fun p f => (p.applyFill f outcomeName).2) s.portfolio⟩

def PaperSession.cancel (s : PaperSession G) (id : OrderId) (now at_ : DateTime) :
    PaperSession G :=
  let (_, orders, paper) := s.orders.cancel (paperAdapter rng at_) s.paper id now at_
  { s with orders := orders, paper := paper }

def PaperSession.step (s : PaperSession G) : SessionEvent → Option (PaperSession G)
  | .register req latency now =>
    -- order ids are freshly drawn
    if (s.orders.get req.orderId).isSome then none
    else match s.orders.registerValidated req latency now with
      | .ok (_, orders) => some { s with orders := orders }
      | .error _ => some s
  | .submit id outcomeName now at_ => some (s.submit rng id outcomeName now at_)
  | .cancel id now at_ => some (s.cancel rng id now at_)
  | .bookUpdate book cs now =>
    if s.paper.Candidates book cs then some (s.bookUpdate rng book cs now) else none
  | .fetchBook book => some (s.cacheBook book)
  | .paperReset now =>
    some { s with paper := s.paper.reset, portfolio := s.portfolio.reset now }

/-- What one step does, and when it is taken. -/
theorem PaperSession.step_cases {rng : Rng G} {s s' : PaperSession G} {e : SessionEvent}
    (taken : s.step rng e = some s') :
    match e with
    | .register req latency now => s.orders.get req.orderId = none ∧
        (s' = s ∨ ∃ order orders, s.orders.registerValidated req latency now = .ok (order, orders) ∧
          s' = { s with orders := orders })
    | .submit id outcomeName now at_ => s' = s.submit rng id outcomeName now at_
    | .cancel id now at_ => s' = s.cancel rng id now at_
    | .bookUpdate book cs now => s.paper.Candidates book cs ∧ s' = s.bookUpdate rng book cs now
    | .fetchBook book => s' = s.cacheBook book
    | .paperReset now =>
        s' = { s with paper := s.paper.reset, portfolio := s.portfolio.reset now } := by
  cases e with
  | register req latency now =>
    simp only [step] at taken
    split at taken
    next => cases taken
    next absent =>
      have fresh : s.orders.get req.orderId = none := by simpa using absent
      split at taken
      next order orders registered =>
        exact ⟨fresh, .inr ⟨order, orders, registered, (Option.some.inj taken).symm⟩⟩
      next => exact ⟨fresh, .inl (Option.some.inj taken).symm⟩
  | bookUpdate book cs now =>
    obtain ⟨candidates, same⟩ := Option.ite_none_right_eq_some.mp taken
    exact ⟨candidates, (Option.some.inj same).symm⟩
  | submit id outcomeName now at_ => exact (Option.some.inj taken).symm
  | cancel id now at_ => exact (Option.some.inj taken).symm
  | fetchBook book => exact (Option.some.inj taken).symm
  | paperReset now => exact (Option.some.inj taken).symm

def PaperSession.start (books : BookCache) (params : MatchParams) (latencyMs jitterMs : Nat)
    (seeded : G) (startingCash : Usd) (now : DateTime) : PaperSession G :=
  ⟨.new books params latencyMs jitterMs seeded, .new, .new startingCash now⟩

/-- A generator whose draws all fall in the middle. -/
def Rng.steady : Rng Unit where
  unit g := (1 / 2, g)
  fraction g := (⟨1 / 2, by norm_num, by norm_num⟩, g)
  upTo n g := (n / 2, g)

/-- A venue that fills whatever the book holds, without fees or slippage. -/
def MatchParams.plain : MatchParams where
  feeBps := 0
  slippageBps := 0
  partialFillEnabled := true
  fillProbability := 1
  rejectProbability := 0

/-- A book that offers 10 at 0.5. -/
def OrderBook.sample : OrderBook where
  marketId := .zero
  tokenId := .zero
  bids := []
  asks := [⟨.half, ⟨10, by norm_num⟩⟩]
  tickSize := 1 / 100
  minOrderSize := 5
  timestamp := 0
  seq := 0

/-- A buy of 30 takes the 10 on offer, rests with the other 20 and is hit for 10 more. -/
def restAndFill : List SessionEvent :=
  [.fetchBook .sample, .register (.sample .gtc) (.begin 0) 0, .submit ⟨0⟩ "Yes" 0 0,
    .bookUpdate .sample
      [(⟨0⟩, ⟨.sample .gtc, ⟨20, by norm_num⟩⟩)] 0]

end CopyTrading
