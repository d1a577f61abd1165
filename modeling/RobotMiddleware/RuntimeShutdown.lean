import RobotMiddleware.RuntimeModel
import RobotMiddleware.TopicStop
import RobotMiddleware.ThreadPoolShutdown
import RobotMiddleware.MailboxTokens

/-! `Runtime::shutdown` as a barrier for callbacks: the bus and the pool each keep their own
invariants in the runtime, and a drained pool behind a stopped bus has no callback left. -/
namespace RobotMiddleware
namespace RuntimeState
variable {Tid Ty : Type} {Val : Ty → Type} [DecidableEq Tid] [DecidableEq Ty]
  {s s' : RuntimeState Tid Val} {a : RuntimeAction Tid Val} {workers : PoolWorkers Tid}

inductive StepView (s : RuntimeState Tid Val) :
    RuntimeAction Tid Val → RuntimeState Tid Val → Prop
  | bus (a : BusAction Tid Val) (bus : BusState Tid Val) : a.alone = true →
      (∀ t, a.actor = some t → s.runs t = true) → s.bus.step a = some bus →
      StepView s (.bus a) { s with bus := bus }
  | pool (a : PoolAction Tid ℕ) (pool : PoolState Tid ℕ) : a.alone = true →
      s.pool.step a = some pool → StepView s (.pool a) { s with pool := pool }
  | executed (t : Tid) (block : ℕ) (pool : PoolState Tid ℕ) :
      s.pool.step (.post t (some block)) = some pool →
      StepView s (.execute t) { s with pool := pool }
  | refused (t : Tid) (block : ℕ) (bus : BusState Tid Val) (pool : PoolState Tid ℕ) :
      s.pool.step (.post t (some block)) = some pool → s.bus.step (.post t .refused) = some bus →
      StepView s (.execute t) ⟨bus, pool⟩
  | pushed (t : Tid) (allocationFails : Bool) (bus : BusState Tid Val) (pool : PoolState Tid ℕ) :
      s.pool.step (.push t allocationFails) = some pool →
      s.bus.step (.post t .accepted) = some bus →
      StepView s (.push t allocationFails) ⟨bus, pool⟩
  | notPushed (t : Tid) (allocationFails : Bool) (pool : PoolState Tid ℕ) :
      s.pool.step (.push t allocationFails) = some pool →
      StepView s (.push t allocationFails) { s with pool := pool }
  | rolledBack (t : Tid) (result : PostResult) (bus : BusState Tid Val)
      (pool : PoolState Tid ℕ) : s.pool.step (.rollback t) = some pool →
      s.bus.step (.post t result) = some bus → StepView s (.rollback t) ⟨bus, pool⟩
  | started (t : Tid) (posted : PostedTask ℕ) (bus : BusState Tid Val) (pool : PoolState Tid ℕ) :
      s.pool.step (.pop t) = some pool → (pool.threads t).loop = .running posted →
      s.bus.step (.startDrain t posted.task) = some bus → StepView s (.pop t) ⟨bus, pool⟩
  | left (t : Tid) (pool : PoolState Tid ℕ) : s.pool.step (.pop t) = some pool →
      StepView s (.pop t) { s with pool := pool }
  | taskEnd (t : Tid) (pool : PoolState Tid ℕ) : (s.bus.threads t).drain = none →
      s.pool.step (.taskEnd t false) = some pool → StepView s (.taskEnd t) { s with pool := pool }
  | shutdownExecutor (t : Tid) (bus : BusState Tid Val) (pool : PoolState Tid ℕ) :
      s.bus.step (.stopReturn t) = some bus → s.pool.step (.shutdown t) = some pool →
      StepView s (.shutdownExecutor t) ⟨bus, pool⟩

theorem step_view (h : s.step a = some s') : StepView s a s' := by
  cases a with
  | bus a =>
    simp only [step, Option.ite_none_right_eq_some, Bool.and_eq_true] at h
    obtain ⟨⟨halone, hruns⟩, h⟩ := h
    obtain ⟨bus, hbus, rfl⟩ := Option.map_eq_some_iff.mp h
    refine .bus a bus halone (fun t ht => ?_) hbus
    rw [ht] at hruns
    exact hruns
  | pool a =>
    simp only [step, Option.ite_none_right_eq_some] at h
    obtain ⟨halone, h⟩ := h
    obtain ⟨pool, hpool, rfl⟩ := Option.map_eq_some_iff.mp h
    exact .pool a pool halone hpool
  | execute t =>
    simp only [step] at h
    split at h
    case h_1 c block hcall =>
      split at h
      case h_1 outcome hposting =>
        simp only [Option.ite_none_right_eq_some] at h
        obtain ⟨hruns, h⟩ := h
        obtain ⟨pool, hpool, h⟩ := Option.bind_eq_some_iff.mp h
        split at h
        case isTrue =>
          cases h
          exact .executed t block pool hpool
        case isFalse =>
          obtain ⟨bus, hbus, rfl⟩ := Option.map_eq_some_iff.mp h
          exact .refused t block bus pool hpool hbus
      case h_2 => cases h
    case h_2 => cases h
  | push t allocationFails =>
    obtain ⟨pool, hpool, h⟩ := Option.bind_eq_some_iff.mp h
    split at h
    case h_1 =>
      obtain ⟨bus, hbus, rfl⟩ := Option.map_eq_some_iff.mp h
      exact .pushed t allocationFails bus pool hpool hbus
    case h_2 =>
      cases h
      exact .notPushed t allocationFails pool hpool
  | rollback t =>
    simp only [step] at h
    split at h
    case h_1 posted threw hcall =>
      obtain ⟨pool, hpool, h⟩ := Option.bind_eq_some_iff.mp h
      obtain ⟨bus, hbus, rfl⟩ := Option.map_eq_some_iff.mp h
      exact .rolledBack t _ bus pool hpool hbus
    case h_2 => cases h
  | pop t =>
    obtain ⟨pool, hpool, h⟩ := Option.bind_eq_some_iff.mp h
    split at h
    case h_1 posted hloop =>
      obtain ⟨bus, hbus, rfl⟩ := Option.map_eq_some_iff.mp h
      exact .started t posted bus pool hpool hloop hbus
    case h_2 =>
      cases h
      exact .left t pool hpool
  | taskEnd t =>
    simp only [step, Option.ite_none_right_eq_some, Option.isNone_iff_eq_none] at h
    obtain ⟨hdrain, h⟩ := h
    obtain ⟨pool, hpool, rfl⟩ := Option.map_eq_some_iff.mp h
    exact .taskEnd t pool hdrain hpool
  | shutdownExecutor t =>
    simp only [step, Option.ite_none_right_eq_some] at h
    obtain ⟨hruns, h⟩ := h
    obtain ⟨bus, hbus, h⟩ := Option.bind_eq_some_iff.mp h
    obtain ⟨pool, hpool, rfl⟩ := Option.map_eq_some_iff.mp h
    exact .shutdownExecutor t bus pool hbus hpool

/-- The bus takes a step of its own, or none. -/
theorem bus_of_step (h : s.step a = some s') :
    s'.bus = s.bus ∨ ∃ act, s.bus.step act = some s'.bus ∧
      (∀ t block, act = .startDrain t block →
        ∃ posted, (s'.pool.threads t).loop = .running posted) ∧
      ∀ t order, act = .stop t order → a = .bus act := by
  cases step_view h with
  | bus act bus halone hruns hbus =>
    refine .inr ⟨act, hbus, fun t block hact => ?_, fun t order hact => rfl⟩
    rw [hact] at halone
    cases halone
  | pool | executed | notPushed | left | taskEnd => exact .inl rfl
  | refused t block bus pool hpool hbus => exact .inr ⟨_, hbus, by simp, by simp⟩
  | pushed t allocationFails bus pool hpool hbus => exact .inr ⟨_, hbus, by simp, by simp⟩
  | rolledBack t result bus pool hpool hbus => exact .inr ⟨_, hbus, by simp, by simp⟩
  | started t posted bus pool hpool hloop hbus =>
    refine .inr ⟨_, hbus, fun u block hact => ?_, by simp⟩
    cases hact
    exact ⟨posted, hloop⟩
  | shutdownExecutor t bus pool hbus hpool => exact .inr ⟨_, hbus, by simp, by simp⟩

/-- The pool takes a step of its own, or none. A task ends behind its drain, and `shutdown` is
called behind `stop`. -/
theorem pool_of_step (h : s.step a = some s') :
    s'.pool = s.pool ∨ ∃ act, s.pool.step act = some s'.pool ∧
      (∀ t threw, act = .taskEnd t threw → (s'.bus.threads t).drain = none) ∧
      ∀ t, act = .shutdown t → s.bus.step (.stopReturn t) = some s'.bus := by
  cases step_view h with
  | bus => exact .inl rfl
  | pool act pool halone hpool =>
    refine .inr ⟨act, hpool, fun t threw hact => ?_, fun t hact => ?_⟩ <;>
      rw [hact] at halone <;> cases halone
  | executed t block pool hpool => exact .inr ⟨_, hpool, by simp, by simp⟩
  | refused t block bus pool hpool hbus => exact .inr ⟨_, hpool, by simp, by simp⟩
  | pushed t allocationFails bus pool hpool hbus => exact .inr ⟨_, hpool, by simp, by simp⟩
  | notPushed t allocationFails pool hpool => exact .inr ⟨_, hpool, by simp, by simp⟩
  | rolledBack t result bus pool hpool hbus => exact .inr ⟨_, hpool, by simp, by simp⟩
  | started t posted bus pool hpool hloop hbus => exact .inr ⟨_, hpool, by simp, by simp⟩
  | left t pool hpool => exact .inr ⟨_, hpool, by simp, by simp⟩
  | taskEnd t pool hdrain hpool =>
    refine .inr ⟨_, hpool, fun u threw hact => ?_, by simp⟩
    cases hact
    exact hdrain
  | shutdownExecutor t bus pool hbus hpool =>
    refine .inr ⟨_, hpool, by simp, fun u hact => ?_⟩
    cases hact
    exact hbus

def Draining (s : RuntimeState Tid Val) : Prop :=
  ∀ t block, (s.bus.threads t).drain = some block →
    ∃ posted, (s.pool.threads t).loop = .running posted

theorem Draining.step (hdraining : Draining s) (h : s.step a = some s') : Draining s' := by
  intro t block hdrain
  have hkept (hold : (s.bus.threads t).drain = some block) :
      ∃ posted, (s'.pool.threads t).loop = .running posted := by
    obtain ⟨posted, hrunning⟩ := hdraining t block hold
    rcases pool_of_step h with hsame | ⟨act, hact, hend, -⟩
    · exact ⟨posted, hsame ▸ hrunning⟩
    · rcases PoolState.running_of_step hact hrunning with hrunning | ⟨threw, hbad⟩
      · exact ⟨posted, hrunning⟩
      · rw [hend t threw hbad] at hdrain
        cases hdrain
  rcases bus_of_step h with hsame | ⟨act, hact, hstart, -⟩
  · exact hkept (hsame ▸ hdrain)
  · rcases BusState.drain_of_step hact hdrain with hold | hnew
    · exact hkept hold
    · exact hstart t block hnew

def Leaving (s : RuntimeState Tid Val) (t : Tid) : Prop :=
  (∃ rest, (s.bus.threads t).call = .stopping rest) ∨
    (s.pool.threads t).call.inShutdown = true ∨
    t ∈ s.pool.history.shutdowns ∨ s.pool.history.releasedBy = some t

theorem stopping_of_stopReturn {b b' : BusState Tid Val} {t : Tid}
    (h : b.step (.stopReturn t) = some b') : (b.threads t).call = .stopping [] := by
  simp only [BusState.step] at h
  split at h
  case h_1 hcall => exact hcall
  case h_2 => cases h

/-- The only way into `shutdown` is to call it, which stops the bus. -/
theorem leaving_of_step (h : s.step a = some s') {t : Tid} (ht : s'.Leaving t) :
    s.Leaving t ∨ (∃ order, a = .bus (.stop t order)) ∧ s'.bus.bus.accepting = false := by
  rcases ht with ⟨rest, hcall⟩ | hcall | hhistory
  · rcases bus_of_step h with hsame | ⟨act, hact, -, hstop⟩
    · exact .inl (.inl ⟨rest, hsame ▸ hcall⟩)
    · rcases BusState.stopping_of_step hact hcall with hbefore | ⟨⟨order, hnew⟩, hstopped⟩
      · exact .inl (.inl hbefore)
      · exact .inr ⟨⟨order, (hstop t order hnew).trans (by rw [hnew])⟩, hstopped⟩
  · rcases pool_of_step h with hsame | ⟨act, hact, -, hshutdown⟩
    · exact .inl (.inr (.inl (hsame ▸ hcall)))
    · rcases PoolState.inShutdown_of_step hact hcall with hold | hnew
      · exact .inl (.inr (.inl hold))
      · exact .inl (.inl ⟨[], stopping_of_stopReturn (hshutdown t hnew)⟩)
  · rcases pool_of_step h with hsame | ⟨act, hact, -⟩
    · exact .inl (.inr (.inr (hsame ▸ hhistory)))
    · rcases PoolState.shutdownHistory_of_step hact hhistory with hold | hcall
      · exact .inl (.inr (.inr hold))
      · exact .inl (.inr (.inl hcall))

def shutdownCaller : RuntimeAction Tid Val → Option Tid
  | .bus (.stop t _) => some t
  | _ => none

def ExternalShutdown (workers : PoolWorkers Tid) (_ : RuntimeState Tid Val)
    (a : RuntimeAction Tid Val) : Prop :=
  ∀ t ∈ shutdownCaller a, t ∉ workers.ids

instance (s : RuntimeState Tid Val) (a : RuntimeAction Tid Val) :
    Decidable (ExternalShutdown workers s a) :=
  inferInstanceAs (Decidable (∀ t ∈ shutdownCaller a, t ∉ workers.ids))

/-- The bus and the pool are in states of their own systems, and nobody who is or was in
`shutdown` is a worker. -/
structure RuntimeInvariant (workers : PoolWorkers Tid) (s : RuntimeState Tid Val) : Prop where
  bus : (busSystem Tid Val).Reachable s.bus
  pool : (poolSystem Tid ℕ workers).ReachableVia (PoolState.ReturnsAfterReleaser workers) s.pool
  draining : s.Draining
  leaving : ∀ t, s.Leaving t → s.bus.bus.accepting = false ∧ t ∉ workers.ids

theorem accepting_of_step (h : s.step a = some s') (hstopped : s.bus.bus.accepting = false) :
    s'.bus.bus.accepting = false := by
  rcases bus_of_step h with hsame | ⟨act, hact, -⟩
  · rw [hsame]
    exact hstopped
  · exact BusState.accepting_of_step hact hstopped

namespace RuntimeInvariant

theorem initial (hs : (runtimeSystem Tid Val workers).init s) : RuntimeInvariant workers s := by
  obtain ⟨hbus, hpool⟩ := hs
  refine ⟨.init hbus, .init hpool, fun t block hdrain => ?_, fun t ht => ?_⟩
  · rw [hbus] at hdrain
    cases hdrain
  · rcases ht with ⟨rest, hcall⟩ | hcall | hmem | hby
    · rw [hbus] at hcall
      cases hcall
    · rw [hpool] at hcall
      dsimp only at hcall
      split at hcall <;> cases hcall
    · rw [hpool] at hmem
      cases hmem
    · rw [hpool] at hby
      cases hby

theorem step (h : RuntimeInvariant workers s) (hok : ExternalShutdown workers s a)
    (hs : s.step a = some s') : RuntimeInvariant workers s' := by
  refine ⟨?_, ?_, h.draining.step hs, fun t ht => ?_⟩
  · rcases bus_of_step hs with hsame | ⟨act, hact, -⟩
    · exact hsame ▸ h.bus
    · exact h.bus.step hact
  · rcases pool_of_step hs with hsame | ⟨act, hact, -⟩
    · exact hsame ▸ h.pool
    · refine .step h.pool ?_ hact
      -- nobody who took over the handles is a worker
      have hidle : s.pool.ReleaserIdle workers := by
        intro worker hworker hby
        exact absurd hworker (h.leaving worker (.inr (.inr (.inr hby)))).2
      cases act with
      | enter t => exact fun _ _ => hidle
      | awake t => exact fun _ _ => hidle
      | _ => trivial
  · rcases leaving_of_step hs ht with hold | ⟨⟨order, rfl⟩, hstopped⟩
    · obtain ⟨hstopped, hexternal⟩ := h.leaving t hold
      exact ⟨accepting_of_step hs hstopped, hexternal⟩
    · exact ⟨hstopped, hok t rfl⟩

end RuntimeInvariant

theorem runtimeInvariant_of_reachableVia
    (h : (runtimeSystem Tid Val workers).ReachableVia (ExternalShutdown workers) s) :
    RuntimeInvariant workers s :=
  TransitionSystem.ReachableVia.invariant (fun _ hs => .initial hs)
    (fun _ _ _ _ hs hok hstep => hs.step hok hstep) h

structure Quiescent (s : RuntimeState Tid Val) : Prop where
  stopped : s.bus.bus.accepting = false
  drained : PoolState.Drained s.pool
  draining : s.Draining
  own : s.bus.DrainsOwn

namespace Quiescent

omit [DecidableEq Tid] [DecidableEq Ty] in
theorem drain_eq_none (h : Quiescent s) (t : Tid) : (s.bus.threads t).drain = none := by
  cases hdrain : (s.bus.threads t).drain with
  | none => rfl
  | some block =>
    obtain ⟨posted, hrunning⟩ := h.draining t block hdrain
    exact absurd hrunning (WorkerState.isRunning_eq_false.mp (h.drained.idle t) posted)

omit [DecidableEq Tid] [DecidableEq Ty] in
theorem not_inCallback (h : Quiescent s) {block : ℕ} {sub : BusSubscription Tid Val}
    (hsub : s.bus.boxes block = some sub) (t : Tid) : ¬ sub.state.InCallback t := by
  rintro ⟨message, hmessage⟩
  have hdrain := h.own block sub t hsub (by rw [hmessage]; simp)
  rw [h.drain_eq_none t] at hdrain
  cases hdrain

theorem step (h : Quiescent s) (hs : s.step a = some s') : Quiescent s' := by
  refine ⟨accepting_of_step hs h.stopped, ?_, h.draining.step hs, ?_⟩
  · rcases pool_of_step hs with hsame | ⟨act, hact, -⟩
    · rw [hsame]
      exact h.drained
    · exact (h.drained.step hact).1
  · rcases bus_of_step hs with hsame | ⟨act, hact, -⟩
    · rw [hsame]
      exact h.own
    · exact h.own.step hact

/-- No step out of it starts a callback. -/
theorem started (h : Quiescent s) (hs : s.step a = some s') {block : ℕ}
    {sub' : BusSubscription Tid Val} (hsub' : s'.bus.boxes block = some sub') :
    ∃ sub, s.bus.boxes block = some sub ∧
      sub'.state.history.started = sub.state.history.started := by
  rcases bus_of_step hs with hsame | ⟨act, hact, -⟩
  · exact ⟨sub', hsame ▸ hsub', rfl⟩
  · rcases BusState.started_of_step hact hsub' with hsub | haccepting | ⟨t, hdrain⟩
    · exact hsub
    · rw [h.stopped] at haccepting
      cases haccepting
    · rw [h.drain_eq_none t] at hdrain
      cases hdrain

theorem run (h : Quiescent s) {actions : List (RuntimeAction Tid Val)}
    (hrun : (runtimeSystem Tid Val workers).run s actions = some s') :
    Quiescent s' ∧ ∀ block sub', s'.bus.boxes block = some sub' → ∃ sub,
      s.bus.boxes block = some sub ∧
        sub'.state.history.started = sub.state.history.started := by
  induction actions generalizing s with
  | nil =>
    cases hrun
    exact ⟨h, fun block sub hsub => ⟨sub, hsub, rfl⟩⟩
  | cons a actions ih =>
    obtain ⟨next, hnext, hrest⟩ := Option.bind_eq_some_iff.mp hrun
    obtain ⟨hquiescent, hsame⟩ := ih (h.step hnext) hrest
    refine ⟨hquiescent, fun block sub' hsub' => ?_⟩
    obtain ⟨sub, hsub, hstarted⟩ := hsame block sub' hsub'
    obtain ⟨old, hold, holdStarted⟩ := h.started hnext hsub
    exact ⟨old, hold, hstarted.trans holdStarted⟩

end Quiescent

/-- No callback is executing, none is started in any run from here, and every call of the
registry throws from here on. -/
structure CallbackBarrier (workers : PoolWorkers Tid) (s : RuntimeState Tid Val) : Prop where
  idle : ∀ block sub t, s.bus.boxes block = some sub → ¬ sub.state.InCallback t
  final : ∀ actions s', (runtimeSystem Tid Val workers).run s actions = some s' →
    ∀ block sub', s'.bus.boxes block = some sub' → (∀ t, ¬ sub'.state.InCallback t) ∧
      ∃ sub, s.bus.boxes block = some sub ∧
        sub'.state.history.started = sub.state.history.started
  rejects : ∀ actions s' act s'', (runtimeSystem Tid Val workers).run s actions = some s' →
    act.registryCall = true → s'.step (.bus act) = some s'' →
    ∃ t e, act.actor = some t ∧
      s''.bus.history.returns = s'.bus.history.returns ++ [(t, .error e)]

/-- Runtime shutdown is a barrier for callbacks: it holds from the return of any external
`shutdown` on, in every interleaving. -/
theorem shutdown_is_callback_barrier
    (h : (runtimeSystem Tid Val workers).ReachableVia (ExternalShutdown workers) s) {t : Tid}
    (hreturned : t ∈ s.pool.history.shutdowns) : CallbackBarrier workers s := by
  have hinv := runtimeInvariant_of_reachableVia h
  obtain ⟨hstopped, hexternal⟩ := hinv.leaving t (.inr (.inr (.inl hreturned)))
  have hquiescent : Quiescent s := ⟨hstopped,
    PoolState.drained_of_external_return hinv.pool hexternal hreturned, hinv.draining,
    BusState.drainsOwn_of_reachable hinv.bus⟩
  refine ⟨fun block sub t hsub => hquiescent.not_inCallback hsub t,
    fun actions s' hrun block sub' hsub' => ?_, fun actions s' act s'' hrun hcall hstep => ?_⟩
  · obtain ⟨hfinal, hstarted⟩ := hquiescent.run hrun
    exact ⟨hfinal.not_inCallback hsub', hstarted block sub' hsub'⟩
  · obtain ⟨hfinal, -⟩ := hquiescent.run hrun
    cases step_view hstep with
    | bus act bus halone hruns hbus =>
      exact BusState.registryCall_of_stopped hbus hfinal.stopped hcall

/-- Threads 0 and 1 shut down while the only worker is in a callback and thread 3 has a
snapshot with the subscription; thread 1 finds the bus stopped and waits for thread 0. -/
theorem shutdown_is_callback_barrier_two : ∃ s : RuntimeState (Fin 4) fun _ : Fin 1 => ℕ,
    s.pool.history.shutdowns = [0, 1] ∧
    (s.bus.boxes 0).map (fun sub => sub.state.history.started.map Publication.call) = some [0] ∧
    CallbackBarrier ⟨[2], by decide, by decide⟩ s := by
  obtain ⟨s, hs, hp⟩ := (runtimeSystem (Fin 4) (fun _ : Fin 1 => ℕ)
      ⟨[2], by decide, by decide⟩).exists_reachableVia_of_run
    (ExternalShutdown ⟨[2], by decide, by decide⟩)
    { pool := {
        pool := { workers := [2] }
        threads := fun t => if t ∈ [2] then { loop := .popping } else {} } }
    [.bus (.subscribe 0 [1] ⟨7, 9, 0⟩ {} true), .bus (.publish 3 [1] 7 9 ⟨0, 40⟩ false [0]),
      .bus (.lockDispatch 3), .bus (.enqueue 3), .execute 3, .pool (.count 3), .push 3 false,
      .pool (.postReturn 3), .bus (.unlockDispatch 3), .pop 2, .bus (.pop 2),
      .bus (.publish 3 [1] 7 9 ⟨0, 41⟩ false [0]), .bus (.lockDispatch 3), .bus (.stop 0 [0]),
      .bus (.stop 1 []), .shutdownExecutor 1, .bus (.stopCancel 0), .shutdownExecutor 0,
      .pool (.close 0), .pool (.enter 0), .pool (.close 1), .pool (.enter 1), .bus (.enqueue 3),
      .bus (.unlockDispatch 3), .bus (.callbackEnd 2 false), .bus (.finish 2), .bus (.pop 2),
      .taskEnd 2, .pool (.countCompleted 2), .pop 2, .pool (.join 0), .pool (.finishShutdown 0),
      .pool (.awake 1)]
    (fun s => s.pool.history.shutdowns == [0, 1] &&
      (s.bus.boxes 0).map (fun sub => sub.state.history.started.map Publication.call) == some [0])
    ⟨rfl, rfl⟩ (by decide)
  simp only [Bool.and_eq_true, beq_iff_eq] at hp
  refine ⟨s, hp.1, hp.2, shutdown_is_callback_barrier (t := 1) hs ?_⟩
  rw [hp.1]
  decide

end RuntimeState
end RobotMiddleware
