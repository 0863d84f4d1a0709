import CopyTrading.KillSwitchInvariant

namespace CopyTrading

open Holders

theorem HaltInv.engage {s : HaltRace} (h : HaltInv s) (idle : s.handler.isIdle)
    (reason : String) (now : DateTime) : HaltInv { s with
      app := { s.app with
        killSwitch := (s.app.killSwitch.setCancelOpenOrders true).engage reason "api" now
        orders := s.app.orders.emit (.killSwitchActivated reason "api" now) }
      handler := .auditing } := by
  refine ⟨h.ids, ?_, h.late, h.pending, h.apart, h.acked, ?_, ?_, List.nodup_nil, ?_, ?_⟩
  · intro _
    exact KillSwitch.engage_engaged _ _ _ _
  · intro o waits
    cases waits
  · intro id o tracked _ stored
    refine h.untouched id o tracked (.inl ?_) stored
    cases handler : s.handler <;> rw [handler] at idle <;> first | rfl | cases idle
  · intro id _
    exact .inl (.inl rfl)
  · have counted := h.counted
    cases handler : s.handler <;> rw [handler] at idle counted <;> first | exact counted | cases idle

theorem HaltInv.stored {s : HaltRace} (h : HaltInv s) {id : OrderId} (tracked : s.Tracked id) :
    ∃ o, s.app.orders.get id = some o ∧ (o.state = .submitted ∨ o.state.Received) := by
  rcases tracked with mem | ⟨i, o, pending, rfl⟩
  · obtain ⟨o, stored, received⟩ := h.acked id mem
    exact ⟨o, stored, .inr received⟩
  · obtain ⟨stored, submitted⟩ := h.pending i o pending
    exact ⟨o, stored, .inl submitted⟩

theorem HaltInv.sweep {s : HaltRace} (h : HaltInv s) (waits : s.handler = .auditing)
    {ids : List OrderId} (all : ids.Perm (s.app.orders.openOrders.map Order.id)) :
    HaltInv { s with handler := .sweeping ids 0 0 } := by
  have before : s.handler.beforeSweep := by rw [waits]; rfl
  have keyed : ∀ id o, s.app.orders.orders.lookup id = some o → o.id = id := h.ids
  refine ⟨h.ids, ?_, h.late, h.pending, h.apart, h.acked, ?_, ?_, ?_, ?_, ?_⟩
  · intro _
    exact h.halted (by rw [waits]; rfl)
  · intro o awaited
    cases awaited
  · intro id o tracked _ stored
    exact h.untouched id o tracked (.inl before) stored
  · exact all.nodup_iff.mpr (AList.nodup_map_key keyed _)
  · intro id tracked
    obtain ⟨o, stored, states⟩ := h.stored tracked
    by_cases filled : o.state = .filled
    · exact .inr ⟨o, stored, filled⟩
    · refine .inl (.inr (.inl (all.mem_iff.mpr ?_)))
      refine (AList.mem_map_key keyed).mpr ⟨o, stored, ?_⟩
      rcases states with eq | eq | eq | eq | eq | eq
      · rw [eq]; rfl
      · rw [eq]; rfl
      · rw [eq]; rfl
      · exact absurd eq filled
      · rw [eq]; rfl
      · rw [eq]; rfl
  · have counted := h.counted
    rw [waits] at counted
    exact counted

/-- The sweep takes the next order out of the table as a copy in `cancelRequested`. -/
theorem HaltInv.request {s : HaltRace} (h : HaltInv s) {o : Order} {id : OrderId}
    {rest : List OrderId} {ok fail : Nat} (waits : s.handler = .sweeping (id :: rest) ok fail)
    (stored : s.app.orders.get id = some o) (working : o.state.Working) (now : DateTime) :
    HaltInv { s with
      app := { s.app with
        orders := s.app.orders.store { o with state := .cancelRequested, updatedAt := now } }
      handler := .awaiting { o with state := .cancelRequested, updatedAt := now } rest ok fail } := by
  have key : o.id = id := h.ids id o stored
  have get_ : ∀ j, (s.app.orders.store
      { o with state := .cancelRequested, updatedAt := now }).get j =
        if j = o.id then some { o with state := .cancelRequested, updatedAt := now }
        else s.app.orders.get j := OrderManager.get_insert rfl
  have nodup : (id :: rest).Nodup := by
    have listed := h.nodup
    rw [waits] at listed
    exact listed
  have ahead : ∀ j, j ∈ rest → j ≠ o.id ∧ j ∈ s.handler.rest := by
    intro j mem
    rw [key, waits]
    refine ⟨?_, List.mem_cons_of_mem _ mem⟩
    rintro rfl
    exact (List.nodup_cons.mp nodup).1 mem
  refine ⟨?_, ?_, h.late, ?_, h.apart, ?_, ?_, ?_, (List.nodup_cons.mp nodup).2, ?_, ?_⟩
  · intro j o' held
    rw [get_] at held
    split at held
    next same => cases held; exact same.symm
    next => exact h.ids j o' held
  · intro _
    exact h.halted (by rw [waits]; rfl)
  · intro i o' pending
    obtain ⟨held, submitted⟩ := h.pending i o' pending
    have other : o'.id ≠ o.id := by
      rw [key]
      refine OrderManager.ne_of_get held stored ?_
      rw [submitted]
      exact (working.ne (by simp [OrderState.Working])).symm
    rw [get_, if_neg other]
    exact ⟨held, submitted⟩
  · intro j mem
    rw [get_]
    split
    next => exact ⟨_, rfl, .inr (.inr (.inr (.inr rfl)))⟩
    next => exact h.acked j mem
  · intro o' awaited
    cases awaited
    refine ⟨?_, rfl, fun mem => (ahead o.id mem).1 rfl⟩
    show (s.app.orders.store _).get o.id = _
    rw [get_, if_pos rfl]
  · intro j o' tracked later held
    rcases later with before | mem
    · cases before
    · obtain ⟨other, listed⟩ := ahead j mem
      rw [get_, if_neg other] at held
      exact h.untouched j o' tracked (.inr listed) held
  · intro j tracked
    rcases h.swept j tracked with (before | mem | awaited | refused) | ⟨o', held, filled⟩
    · rw [waits] at before
      cases before
    · rw [waits] at mem
      rcases List.mem_cons.mp mem with rfl | later
      · exact .inl (.inr (.inr (.inl ⟨_, rfl, key⟩)))
      · exact .inl (.inr (.inl later))
    · rw [waits] at awaited
      obtain ⟨_, none, _⟩ := awaited
      cases none
    · exact .inl (.inr (.inr (.inr refused)))
    · right
      have other : j ≠ o.id := by
        rw [key]
        refine OrderManager.ne_of_get held stored ?_
        rw [filled]
        exact (working.ne (by simp [OrderState.Working])).symm
      exact ⟨o', (get_ j).trans ((if_neg other).trans held), filled⟩
  · have counted := h.counted
    rw [waits] at counted
    exact counted

theorem HaltInv.skip {s : HaltRace} (h : HaltInv s) {id : OrderId} {rest : List OrderId}
    {ok fail : Nat} (waits : s.handler = .sweeping (id :: rest) ok fail)
    (idle : ∀ o, s.app.orders.get id = some o → ¬o.state.Working) :
    HaltInv { s with
      handler := .sweeping rest ok (fail + 1)
      refused := s.refused ++ [(id, (s.app.orders.get id).map Order.state)] } := by
  have nodup := h.nodup
  rw [waits] at nodup
  have ahead : ∀ j, j ∈ rest → j ∈ s.handler.rest := by
    intro j mem
    rw [waits]
    exact List.mem_cons_of_mem _ mem
  refine ⟨h.ids, ?_, h.late, h.pending, h.apart, h.acked, ?_, ?_, (List.nodup_cons.mp nodup).2,
    ?_, ?_⟩
  · intro _
    exact h.halted (by rw [waits]; rfl)
  · intro o awaited
    cases awaited
  · intro j o tracked later held
    rcases later with before | mem
    · cases before
    · exact h.untouched j o tracked (.inr (ahead j mem)) held
  · intro j tracked
    rcases h.swept j tracked with (before | mem | awaited | ⟨st, listed, stuck⟩) | filled
    · rw [waits] at before
      cases before
    · rw [waits] at mem
      rcases List.mem_cons.mp mem with rfl | later
      · obtain ⟨o, held, states⟩ := h.stored tracked
        have recorded : (j, some o.state) ∈
            s.refused ++ [(j, (s.app.orders.get j).map Order.state)] := by
          rw [held]
          exact List.mem_append_right _ (List.mem_singleton.mpr rfl)
        rcases states with eq | eq | eq | eq | eq | eq
        · exact .inl (.inr (.inr (.inr ⟨_, recorded, .inl eq⟩)))
        · exact absurd (.inl eq) (idle o held)
        · exact absurd (.inr eq) (idle o held)
        · exact .inr ⟨o, held, eq⟩
        · exact .inl (.inr (.inr (.inr ⟨_, recorded, .inr eq⟩)))
        · refine absurd eq (h.untouched j o tracked (.inr ?_) held)
          rw [waits]
          exact List.mem_cons_self
      · exact .inl (.inr (.inl later))
    · rw [waits] at awaited
      obtain ⟨_, none, _⟩ := awaited
      cases none
    · exact .inl (.inr (.inr (.inr ⟨st, List.mem_append_left _ listed, stuck⟩)))
    · exact .inr filled
  · have counted := h.counted
    rw [waits] at counted
    show (s.refused ++ [_]).length ≤ fail + 1
    rw [List.length_append]
    exact Nat.succ_le_succ counted

theorem HaltInv.cancelNext {s s' : HaltRace} (h : HaltInv s) {now : DateTime}
    (taken : s.cancelNext now = some s') : HaltInv s' := by
  unfold HaltRace.cancelNext at taken
  split at taken
  next id rest ok fail waits =>
    split at taken
    next order om begun =>
      cases taken
      obtain ⟨o, stored, working, rfl, rfl⟩ := OrderManager.cancelBegin_ok begun
      exact h.request waits stored working now
    next refused =>
      cases taken
      exact h.skip waits fun o stored => OrderManager.cancelBegin_error refused stored
  next ok fail waits =>
    cases taken
    refine ⟨h.ids, ?_, h.late, h.pending, h.apart, h.acked, ?_, ?_, List.nodup_nil, ?_, ?_⟩
    · intro _
      exact h.halted (by rw [waits]; rfl)
    · intro o awaited
      cases awaited
    · intro j o tracked later
      rcases later with before | mem
      · cases before
      · cases mem
    · intro j tracked
      have swept := h.swept j tracked
      unfold HaltRace.Swept at swept
      rw [waits] at swept
      exact swept
    · have counted := h.counted
      rw [waits] at counted
      exact counted
  next => cases taken

/-- The answer to a cancellation writes the copy back as cancelled, or leaves the table alone. -/
theorem HaltInv.settle {s : HaltRace} (h : HaltInv s) {order : Order} {rest : List OrderId}
    {ok fail ok' fail' : Nat} (waits : s.handler = .awaiting order rest ok fail)
    (more : fail ≤ fail') (app : AppState) (kill : app.killSwitch = s.app.killSwitch)
    {now : DateTime} (orders : app.orders.orders = s.app.orders.orders.insert order.id
      { order with state := .cancelled, updatedAt := now } ∨
        app.orders.orders = s.app.orders.orders)
    {acked : List OrderId} (kept : ∀ id ∈ acked, id ∈ s.acked ∧ id ≠ order.id) :
    HaltInv { s with
      app := app
      handler := .sweeping rest ok' fail'
      acked := acked } := by
  obtain ⟨stored, requested, later⟩ := h.awaited order (by rw [waits]; rfl)
  rw [waits] at later
  have get_ : ∀ id, id ≠ order.id → app.orders.get id = s.app.orders.get id := by
    intro id other
    rcases orders with written | same
    · exact (OrderManager.get_insert written id).trans (if_neg other)
    · exact congrArg (AList.lookup id) same
  have here : ∃ o, app.orders.get order.id = some o ∧ o.id = order.id := by
    rcases orders with written | same
    · exact ⟨_, (OrderManager.get_insert written order.id).trans (if_pos rfl), rfl⟩
    · exact ⟨order, (congrArg (AList.lookup order.id) same).trans stored, rfl⟩
  have unlike : ∀ id o, s.app.orders.get id = some o → o.state ≠ .cancelRequested →
      id ≠ order.id := by
    intro id o held different
    refine OrderManager.ne_of_get held stored ?_
    rw [requested]
    exact different
  have waiting : ∀ i o, heldAt Stage.pending s.runs i = some o → o.id ≠ order.id := by
    intro i o pending
    obtain ⟨held, submitted⟩ := h.pending i o pending
    refine unlike o.id o held ?_
    rw [submitted]
    intro eq
    cases eq
  have before : ∀ id, { s with
      app := app
      handler := .sweeping rest ok' fail'
      acked := acked }.Tracked id → s.Tracked id ∧ id ≠ order.id := by
    rintro id (mem | ⟨i, o, pending, rfl⟩)
    · exact ⟨.inl (kept id mem).1, (kept id mem).2⟩
    · exact ⟨.inr ⟨i, o, pending, rfl⟩, waiting i o pending⟩
  refine ⟨?_, ?_, h.late, ?_, h.apart, ?_, ?_, ?_, ?_, ?_, ?_⟩
  · intro id o held
    by_cases same : id = order.id
    · obtain ⟨o', held', key⟩ := here
      rw [same, held'] at held
      cases held
      exact key.trans same.symm
    · rw [get_ id same] at held
      exact h.ids id o held
  · intro _
    rw [kill]
    exact h.halted (by rw [waits]; rfl)
  · intro i o pending
    rw [get_ o.id (waiting i o pending)]
    exact h.pending i o pending
  · intro id mem
    rw [get_ id (kept id mem).2]
    exact h.acked id (kept id mem).1
  · intro o awaited
    cases awaited
  · intro id o tracked ahead held
    rcases ahead with none | mem
    · cases none
    · have other : id ≠ order.id := fun same => later (same ▸ mem)
      rw [get_ id other] at held
      exact h.untouched id o (before id tracked).1 (.inr (by rw [waits]; exact mem)) held
  · have nodup := h.nodup
    rw [waits] at nodup
    exact nodup
  · intro id tracked
    obtain ⟨old, other⟩ := before id tracked
    rcases h.swept id old with (none | mem | ⟨o, awaited, key⟩ | refused) | ⟨o, held, filled⟩
    · rw [waits] at none
      cases none
    · rw [waits] at mem
      exact .inl (.inr (.inl mem))
    · rw [waits] at awaited
      cases awaited
      exact absurd key.symm other
    · exact .inl (.inr (.inr (.inr refused)))
    · exact .inr ⟨o, (get_ id other).trans held, filled⟩
  · have counted := h.counted
    rw [waits] at counted
    exact counted.trans more

theorem HaltInv.cancelled {s s' : HaltRace} (h : HaltInv s)
    {response : Except ExecutionError Unit} {now : DateTime}
    (done : s.cancelled response now = some s') : HaltInv s' := by
  unfold HaltRace.cancelled at done
  split at done
  next order rest ok fail waits =>
    split at done
    next => cases done
    next allowed =>
      obtain ⟨_, requested, _⟩ := h.awaited order (by rw [waits]; rfl)
      let om := (s.app.orders.cancelFinish order response now).2
      have orders : om.orders =
          s.app.orders.orders.insert order.id { order with state := .cancelled, updatedAt := now } ∨
          om.orders = s.app.orders.orders := by
        rcases s.app.orders.cancelFinish_orders requested response now with ⟨_, eq⟩ | ⟨_, eq⟩
        · exact .inl eq
        · exact .inr (congrArg OrderManager.orders eq)
      have kept : ∀ id ∈ (if taken response then s.acked.filter (· ≠ order.id) else s.acked),
          id ∈ s.acked ∧ id ≠ order.id := by
        intro id mem
        split at mem
        next =>
          obtain ⟨old, other⟩ := List.mem_filter.mp mem
          exact ⟨old, of_decide_eq_true other⟩
        next refused =>
          refine ⟨mem, ?_⟩
          rintro rfl
          exact allowed ⟨mem, by simpa using refused⟩
      cases outcome : (s.app.orders.cancelFinish order response now).1 with
      | ok _ =>
        rw [show s.app.orders.cancelFinish order response now = (.ok (), om)
          from Prod.ext outcome rfl] at done
        cases done
        exact h.settle waits le_rfl { s.app with orders := om } rfl orders kept
      | error e =>
        rw [show s.app.orders.cancelFinish order response now = (.error e, om)
          from Prod.ext outcome rfl] at done
        cases done
        exact h.settle waits (Nat.le_succ fail) { s.app with orders := om } rfl orders kept
  next => cases done

end CopyTrading
