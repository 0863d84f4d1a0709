import CopyTrading.PipelineGates

namespace CopyTrading

namespace AppState

variable {A : Type} {cfg : StrategyConfig} {adapter : ExecutionAdapter A} {app : AppState} {a : A}
  {env : CallEnv} {trade : SourceTrade}

def Halted (result : (AppState × A) × Option OrderRequest) : Prop :=
  result.2 = none ∧ result.1.1.killSwitch.engaged

/-- Beyond the daily loss limit the sizing budget is gone. -/
theorem sizingContext_exhausted {now : DateTime}
    (breach : app.portfolio.dailyPnl now < -app.risk.limits.maxDailyLossUsd) :
    (app.sizingContext trade now).remainingDailyRisk ≤ 0 := by
  have lost : -app.portfolio.dailyPnl now ≤ max (-app.portfolio.dailyPnl now) 0 := le_max_left _ _
  refine max_le ?_ le_rfl
  show app.risk.limits.maxDailyLossUsd - max (-app.portfolio.dailyPnl now) 0 ≤ 0
  linarith

theorem priced_of_breach {wallet : TargetWallet} {book : Option OrderBook} {signalId : SignalId}
    {now : DateTime} (breach : app.portfolio.dailyPnl now < -app.risk.limits.maxDailyLossUsd) :
    app.priced cfg trade wallet book signalId now =
      (app.emit (.sourceTradeSkipped trade.eventId trade.correlationId .sizedToZero now), none) := by
  obtain ⟨e, refused⟩ := CopyTrader.onSourceTrade_of_exhausted cfg trade wallet book (tickOf book)
    signalId now (sizingContext_exhausted breach)
  unfold priced signalFor
  rw [refused]

/-- A call that meets a breached daily loss submits nothing and never halts the system. -/
theorem not_halted_of_breach
    (breach : app.portfolio.dailyPnl env.pricedAt < -app.risk.limits.maxDailyLossUsd)
    (disengaged : app.killSwitch.engaged = false) :
    (app.onSourceTrade cfg adapter a env trade).2 = none ∧
      ¬Halted (app.onSourceTrade cfg adapter a env trade) := by
  let app₁ := (app.recordSource env.executed trade).emit (.sourceTradeDetected trade)
  let app₂ := (app₁.bookFor trade.tokenId env.receivedAt env.fetched).2
  have view : SameView app app₂ :=
    (app.received_sameView env.executed trade).trans (app₁.bookFor_sameView _ _ _)
  have spent : app₂.portfolio.dailyPnl env.pricedAt < -app₂.risk.limits.maxDailyLossUsd := by
    rw [view.portfolio, view.risk]
    exact breach
  have outcome : app.onSourceTrade cfg adapter a env trade = ((app₁, a), none) ∨
      app.onSourceTrade cfg adapter a env trade = ((app₂.emit (.sourceTradeSkipped trade.eventId
        trade.correlationId .sizedToZero env.pricedAt), a), none) := by
    have received : (app.recordSource env.executed trade).received trade =
        (app₁, app.tracker.getWallet trade.trader) := rfl
    unfold onSourceTrade
    rw [received]
    cases app.tracker.getWallet trade.trader with
    | none => exact .inl rfl
    | some wallet =>
      right
      have onward : app₂.copyTrade cfg adapter a env trade wallet
          (app₁.bookFor trade.tokenId env.receivedAt env.fetched).1 = ((app₂.emit
            (.sourceTradeSkipped trade.eventId trade.correlationId .sizedToZero env.pricedAt),
              a), none) := by
        unfold copyTrade
        rw [priced_of_breach spent]
      exact onward
  rcases outcome with eq | eq
  · rw [eq]
    refine ⟨rfl, fun h => ?_⟩
    have engaged : app.killSwitch.engaged = true := h.2
    rw [disengaged] at engaged
    cases engaged
  · rw [eq]
    refine ⟨rfl, fun h => ?_⟩
    have engaged : app₂.killSwitch.engaged = true := h.2
    rw [view.killSwitch, disengaged] at engaged
    cases engaged

def afterLoss : AppState :=
  { sample with portfolio := { Portfolio.new 1000 0 with daily := (ordinal 0, -200) } }

theorem not_halted_afterLoss :
    afterLoss.portfolio.dailyPnl 0 < -afterLoss.risk.limits.maxDailyLossUsd ∧
      (afterLoss.onSourceTrade .default acceptingVenue () .sample .sample).2 = none ∧
      ¬Halted (afterLoss.onSourceTrade .default acceptingVenue () .sample .sample) := by
  have breach : afterLoss.portfolio.dailyPnl 0 < -afterLoss.risk.limits.maxDailyLossUsd := by
    decide +kernel
  exact ⟨breach, not_halted_of_breach breach rfl⟩

/-- A tracked, enabled wallet's trade after the loss does not engage the kill switch. -/
theorem breach_does_not_halt : ¬ ∀ (A : Type) (cfg : StrategyConfig)
    (adapter : ExecutionAdapter A) (app : AppState) (a : A) (env : CallEnv) (trade : SourceTrade)
    (wallet : TargetWallet), app.tracker.getWallet trade.trader = some wallet → wallet.enabled →
    app.portfolio.dailyPnl env.pricedAt < -app.risk.limits.maxDailyLossUsd →
    app.portfolio.dailyPnl env.decidedAt < -app.risk.limits.maxDailyLossUsd →
    app.killSwitch.engaged = false → Halted (app.onSourceTrade cfg adapter a env trade) := by
  intro claim
  have breach : afterLoss.portfolio.dailyPnl 0 < -afterLoss.risk.limits.maxDailyLossUsd := by
    decide +kernel
  have tracked : afterLoss.tracker.getWallet .zero = some (.new .zero "Target") := rfl
  have halted := claim Unit .default acceptingVenue afterLoss () .sample .sample
    (.new .zero "Target") tracked rfl breach breach rfl
  have skipped : (afterLoss.onSourceTrade .default acceptingVenue () .sample
      .sample).1.1.killSwitch.engaged = false := by
    decide +kernel
  rw [halted.2] at skipped
  cases skipped

end AppState

end CopyTrading
