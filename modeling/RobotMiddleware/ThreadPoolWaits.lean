import RobotMiddleware.ThreadPoolWaitModel

/-! What one step of the pool and its queue together can do, and that the two agree: each is in a
reachable state of its own system, and a thread is in the queue where the pool says so. -/
namespace RobotMiddleware
open ConditionVariable

namespace PoolState
variable {Tid Task : Type} [DecidableEq Tid] {s s' : PoolState Tid Task}
  {workers : PoolWorkers Tid} {a : PoolAction Tid Task}

/-- Only the thread that takes the step moves. -/
theorem threads_of_step (h : s.step a = some s') {u : Tid} (hu : u ≠ a.thread) :
    s'.threads u = s.threads u := by
  have hset {t : Tid} {call : PoolCall Tid Task} (hu : u ≠ t) :
      setCall s.threads t call u = s.threads u := Function.update_of_ne hu ..
  have hloop {t : Tid} {loop : WorkerState Task} (hu : u ≠ t) :
      setLoop s.threads t loop u = s.threads u := Function.update_of_ne hu ..
  cases step_view h with
  | popped => exact hloop hu
  | leaves => exact hloop hu
  | taskEnd => exact hloop hu
  | countedFailed => exact hloop hu
  | countedCompleted => exact hloop hu
  | _ => exact hset hu

theorem tasks_of_step (h : s.step a = some s') (hpush : ∀ t fails, a ≠ .push t fails)
    (hpop : ∀ t, a ≠ .pop t) (hclose : ∀ t, a ≠ .close t) : s'.pool.tasks = s.pool.tasks := by
  cases step_view h with
  | pushed t => exact absurd rfl (hpush t _)
  | notPushed t => exact absurd rfl (hpush t _)
  | popped t => exact absurd rfl (hpop t)
  | leaves t => exact absurd rfl (hpop t)
  | closed t => exact absurd rfl (hclose t)
  | _ => rfl

/-- A worker calls into the pool from inside a task only, nobody but a thread outside the pool
waits for the flag, and while a shutdown is in progress somebody has the handles. -/
structure ShutdownCalls (s : PoolState Tid Task) : Prop where
  calls : ∀ t, (s.threads t).call ≠ .none →
    (s.threads t).loop = .none ∨ ∃ posted, (s.threads t).loop = .running posted
  waiting : ∀ t, (s.threads t).call = .waitingFinished → (s.threads t).loop = .none ∧
    (s.pool.shutdownInProgress = true ∨ s.pool.shutdownFinished = true)
  joiner : s.pool.shutdownInProgress = true → ∃ t handles, (s.threads t).call = .joining handles

omit [DecidableEq Tid] in
/-- One thread moves. -/
theorem ShutdownCalls.move (h : ShutdownCalls s) (t : Tid) (th : PoolThread Tid Task)
    (ht : s'.threads t = th) (hother : ∀ u, u ≠ t → s'.threads u = s.threads u)
    (hcalls : th.call ≠ .none → th.loop = .none ∨ ∃ posted, th.loop = .running posted)
    (hwaiting : th.call = .waitingFinished → th.loop = .none ∧
      (s'.pool.shutdownInProgress = true ∨ s'.pool.shutdownFinished = true))
    (hflags : s.pool.shutdownInProgress = true ∨ s.pool.shutdownFinished = true →
      s'.pool.shutdownInProgress = true ∨ s'.pool.shutdownFinished = true)
    (hjoiner : s'.pool.shutdownInProgress = true → (∃ handles, th.call = .joining handles) ∨
      s.pool.shutdownInProgress = true ∧ ∀ handles, (s.threads t).call ≠ .joining handles) :
    ShutdownCalls s' := by
  refine ⟨?_, ?_, ?_⟩
  · intro u hcall
    by_cases hu : u = t
    · subst hu
      rw [ht] at hcall ⊢
      exact hcalls hcall
    · rw [hother u hu] at hcall ⊢
      exact h.calls u hcall
  · intro u hcall
    by_cases hu : u = t
    · subst hu
      rw [ht] at hcall ⊢
      exact hwaiting hcall
    · rw [hother u hu] at hcall ⊢
      exact ⟨(h.waiting u hcall).1, hflags (h.waiting u hcall).2⟩
  · intro hprogress
    rcases hjoiner hprogress with ⟨handles, hhandles⟩ | ⟨hbefore, hnot⟩
    · exact ⟨t, handles, by rw [ht, hhandles]⟩
    · obtain ⟨u, handles, hu⟩ := h.joiner hbefore
      have hut : u ≠ t := by
        rintro rfl
        exact hnot handles hu
      exact ⟨u, handles, by rw [hother u hut, hu]⟩

theorem ShutdownCalls.step (h : ShutdownCalls s) (hs : s.step a = some s') :
    ShutdownCalls s' := by
  have hother := fun u hu => threads_of_step hs (u := u) hu
  -- where the loop is not at user code the thread is in no call
  have hidle {t : Tid} (hnone : (s.threads t).loop ≠ .none)
      (hrunning : ∀ posted, (s.threads t).loop ≠ .running posted) :
      (s.threads t).call = .none := by
    by_contra hcall
    rcases h.calls t hcall with hloop | ⟨posted, hloop⟩
    · exact hnone hloop
    · exact hrunning posted hloop
  have hloop {t : Tid} {call : PoolCall Tid Task} (hcall : (s.threads t).call = call)
      (hne : call ≠ .none) :
      (s.threads t).loop = .none ∨ ∃ posted, (s.threads t).loop = .running posted :=
    h.calls t (hcall ▸ hne)
  have hcan {t : Tid} (hcan : (s.threads t).canCall = true) :
      (s.threads t).call = .none ∧
        ((s.threads t).loop = .none ∨ ∃ posted, (s.threads t).loop = .running posted) :=
    (PoolThread.canCall_iff _).mp hcan
  -- a call goes on, or comes back
  have hset (t : Tid) {r : PoolState Tid Task} {call : PoolCall Tid Task} (ht : t = a.thread)
      (hr : r = s') (hth : r.threads = setCall s.threads t call)
      (hloop : (s.threads t).loop = .none ∨ ∃ posted, (s.threads t).loop = .running posted)
      (hwait : call ≠ .waitingFinished) (hnot : ∀ handles, (s.threads t).call ≠ .joining handles)
      (hprogress : r.pool.shutdownInProgress = s.pool.shutdownInProgress)
      (hfinished : r.pool.shutdownFinished = s.pool.shutdownFinished) : ShutdownCalls s' := by
    subst hr
    refine h.move t { s.threads t with call := call } ?_ (ht ▸ hother) ?_ ?_ ?_ ?_
    · rw [hth, PoolState.setCall, Function.update_self]
    · exact fun _ => hloop
    · exact fun heq => absurd heq hwait
    · rw [hprogress, hfinished]
      exact id
    · rw [hprogress]
      exact fun hprogress => .inr ⟨hprogress, hnot⟩
  -- the worker loop goes on
  have hturn (t : Tid) {r : PoolState Tid Task} {loop : WorkerState Task} (ht : t = a.thread)
      (hr : r = s') (hth : r.threads = setLoop s.threads t loop)
      (hcall : (s.threads t).call = .none)
      (hprogress : r.pool.shutdownInProgress = s.pool.shutdownInProgress)
      (hfinished : r.pool.shutdownFinished = s.pool.shutdownFinished) : ShutdownCalls s' := by
    subst hr
    refine h.move t { s.threads t with loop := loop } ?_ (ht ▸ hother) ?_ ?_ ?_ ?_
    · rw [hth, PoolState.setLoop, Function.update_self]
    · exact fun hne => absurd hcall hne
    · intro heq
      rw [show (s.threads t).call = .waitingFinished from heq] at hcall
      cases hcall
    · rw [hprogress, hfinished]
      exact id
    · rw [hprogress]
      intro hprogress
      refine .inr ⟨hprogress, ?_⟩
      intro handles heq
      rw [heq] at hcall
      cases hcall
  cases step_view hs with
  | refused t task hcall =>
    exact hset t rfl rfl rfl (hcan hcall).2 (by rintro ⟨⟩) (by simp [(hcan hcall).1]) rfl rfl
  | posting t task hcall =>
    exact hset t rfl rfl rfl (hcan hcall).2 (by rintro ⟨⟩) (by simp [(hcan hcall).1]) rfl rfl
  | counted t posted hcall =>
    exact hset t rfl rfl rfl (hloop hcall (by rintro ⟨⟩)) (by rintro ⟨⟩) (by simp [hcall]) rfl rfl
  | pushed t posted hcall =>
    exact hset t rfl rfl rfl (hloop hcall (by rintro ⟨⟩)) (by rintro ⟨⟩) (by simp [hcall]) rfl rfl
  | notPushed t posted _ _ hcall =>
    exact hset t rfl rfl rfl (hloop hcall (by rintro ⟨⟩)) (by rintro ⟨⟩) (by simp [hcall]) rfl rfl
  | postReturned t posted hcall =>
    exact hset t rfl rfl rfl (hloop hcall (by rintro ⟨⟩)) (by rintro ⟨⟩) (by simp [hcall]) rfl rfl
  | rolledBack t posted threw hcall =>
    exact hset t rfl rfl rfl (hloop hcall (by rintro ⟨⟩)) (by rintro ⟨⟩) (by simp [hcall]) rfl rfl
  | popped t posted rest hpopping =>
    exact hturn t rfl rfl rfl (hidle (by simp [hpopping]) (by simp [hpopping])) rfl rfl
  | leaves t hpopping =>
    exact hturn t rfl rfl rfl (hidle (by simp [hpopping]) (by simp [hpopping])) rfl rfl
  | taskEnd t posted threw hcall => exact hturn t rfl rfl rfl hcall rfl rfl
  | countedFailed t posted hfailing =>
    exact hturn t rfl rfl rfl (hidle (by simp [hfailing]) (by simp [hfailing])) rfl rfl
  | countedCompleted t posted threw hcompleting =>
    exact hturn t rfl rfl rfl (hidle (by simp [hcompleting]) (by simp [hcompleting])) rfl rfl
  | shutdown t hcall =>
    exact hset t rfl rfl rfl (hcan hcall).2 (by rintro ⟨⟩) (by simp [(hcan hcall).1]) rfl rfl
  | closed t hcall =>
    exact hset t rfl rfl rfl (hloop hcall (by rintro ⟨⟩)) (by rintro ⟨⟩) (by simp [hcall]) rfl rfl
  | entersFinished t hcall =>
    exact hset t rfl rfl rfl (hloop hcall (by rintro ⟨⟩)) (by rintro ⟨⟩) (by simp [hcall]) rfl rfl
  | entersAsWorker t hcall =>
    exact hset t rfl rfl rfl (hloop hcall (by rintro ⟨⟩)) (by rintro ⟨⟩) (by simp [hcall]) rfl rfl
  | awoke t hcall =>
    exact hset t rfl rfl rfl (hloop hcall (by rintro ⟨⟩)) (by rintro ⟨⟩) (by simp [hcall]) rfl rfl
  | waits t hcall hunfinished hprogress hother' =>
    have hnone : (s.threads t).loop = .none := by
      rcases hloop hcall (by rintro ⟨⟩) with hnone | ⟨posted, hrunning⟩
      · exact hnone
      · simp [PoolThread.callerIsWorker, hrunning] at hother'
    refine h.move t { s.threads t with call := .waitingFinished } ?_ hother ?_ ?_
      id ?_
    · exact Function.update_self ..
    · exact fun _ => .inl hnone
    · exact fun _ => ⟨hnone, .inl hprogress⟩
    · exact fun _ => .inr ⟨hprogress, by simp [hcall]⟩
  | released t hcall hunfinished hidle =>
    refine h.move t { s.threads t with call := .joining s.pool.workers } ?_ hother
      ?_ (by rintro ⟨⟩) ?_ ?_
    · exact Function.update_self ..
    · exact fun _ => hloop hcall (by rintro ⟨⟩)
    · exact fun _ => .inl rfl
    · exact fun _ => .inl ⟨_, rfl⟩
  | joined t worker handles hcall hended =>
    refine h.move t { s.threads t with call := .joining handles } ?_ hother ?_
      (by rintro ⟨⟩) id ?_
    · exact Function.update_self ..
    · exact fun _ => hloop hcall (by rintro ⟨⟩)
    · exact fun _ => .inl ⟨_, rfl⟩
  | finished t hcall =>
    refine h.move t { s.threads t with call := .none } ?_ hother ?_ (by rintro ⟨⟩) ?_
      (by rintro ⟨⟩)
    · exact Function.update_self ..
    · exact fun hne => absurd rfl hne
    · exact fun _ => .inr rfl

theorem shutdownCalls_of_reachable (h : (poolSystem Tid Task workers).Reachable s) :
    ShutdownCalls s := by
  refine TransitionSystem.Reachable.invariant ?_ (fun s a s' _ hinv hs => hinv.step hs) h
  rintro s rfl
  refine ⟨?_, ?_, by nofun⟩
  · intro t hcall
    exact absurd (by dsimp only; split <;> rfl) hcall
  · intro t hcall
    dsimp only at hcall
    split at hcall <;> cases hcall

/-- How a thread comes to hold handles. -/
theorem joining_of_step (hs : s.step a = some s') {t : Tid} {handles : List Tid}
    (ht : (s'.threads t).call = .joining handles) :
    ((s.threads t).call = .joining handles ∧ a ≠ .join t) ∨
      (a = .enter t ∧ handles = s.pool.workers ∧ s.pool.shutdownInProgress = false ∧
        s.pool.shutdownFinished = false) ∨
      ∃ worker, a = .join t ∧ (s.threads t).call = .joining (worker :: handles) := by
  by_cases hat : t = a.thread
  · have hset {u : Tid} {call : PoolCall Tid Task}
        (h : (setCall s.threads u call u).call = .joining handles) : call = .joining handles := by
      simpa using h
    have hloop {u : Tid} {loop : WorkerState Task}
        (h : (setLoop s.threads u loop u).call = .joining handles) :
        (s.threads u).call = .joining handles := by
      simpa using h
    subst hat
    cases step_view hs with
    | popped | leaves | taskEnd | countedFailed | countedCompleted =>
      exact .inl ⟨hloop ht, by nofun⟩
    | released u hcall hunfinished hidle =>
      obtain rfl := PoolCall.joining.inj (hset ht)
      exact .inr (.inl ⟨rfl, rfl, hidle, hunfinished⟩)
    | joined u worker rest hcall =>
      obtain rfl := PoolCall.joining.inj (hset ht)
      exact .inr (.inr ⟨worker, rfl, hcall⟩)
    | _ => cases hset ht
  · rw [threads_of_step hs hat] at ht
    refine .inl ⟨ht, ?_⟩
    rintro rfl
    exact hat rfl

/-- What a step does to the flags of `shutdown`. -/
theorem flags_of_step (hs : s.step a = some s') :
    (s'.pool.shutdownInProgress = s.pool.shutdownInProgress ∧
      s'.pool.shutdownFinished = s.pool.shutdownFinished) ∨
    (s'.pool.shutdownInProgress = true ∧ s'.pool.shutdownFinished = s.pool.shutdownFinished) ∨
    (∃ t, a = .finishShutdown t ∧ (s.threads t).call = .joining [] ∧
      s'.pool.shutdownFinished = true) := by
  cases step_view hs with
  | released => exact .inr (.inl ⟨rfl, rfl⟩)
  | finished t hcall => exact .inr (.inr ⟨t, rfl, hcall, rfl⟩)
  | _ => exact .inl ⟨rfl, rfl⟩

/-- A thread that waits for the flag does nothing but wake up. -/
theorem awake_of_waiting (h : ShutdownCalls s) (hs : s.step a = some s')
    (hcall : (s.threads a.thread).call = .waitingFinished) : ∃ t, a = .awake t := by
  have hnone := (h.waiting _ hcall).1
  have hcan {t : Tid} (hcall : (s.threads t).call = .waitingFinished)
      (hcan : (s.threads t).canCall = true) : False := by
    have hnone := ((PoolThread.canCall_iff _).mp hcan).1
    rw [hcall] at hnone
    cases hnone
  cases step_view hs with
  | awoke t => exact ⟨t, rfl⟩
  | refused t task hcall' => exact (hcan hcall hcall').elim
  | posting t task hcall' => exact (hcan hcall hcall').elim
  | shutdown t hcall' => exact (hcan hcall hcall').elim
  | popped t posted rest hloop => exact absurd (hloop.symm.trans hnone) (by nofun)
  | leaves t hloop => exact absurd (hloop.symm.trans hnone) (by nofun)
  | countedFailed t posted hloop => exact absurd (hloop.symm.trans hnone) (by nofun)
  | countedCompleted t posted threw hloop => exact absurd (hloop.symm.trans hnone) (by nofun)
  | taskEnd t posted threw hcall' => exact absurd (hcall'.symm.trans hcall) (by nofun)
  | counted t posted hcall' => exact absurd (hcall'.symm.trans hcall) (by nofun)
  | pushed t posted hcall' => exact absurd (hcall'.symm.trans hcall) (by nofun)
  | notPushed t posted _ _ hcall' => exact absurd (hcall'.symm.trans hcall) (by nofun)
  | postReturned t posted hcall' => exact absurd (hcall'.symm.trans hcall) (by nofun)
  | rolledBack t posted threw hcall' => exact absurd (hcall'.symm.trans hcall) (by nofun)
  | closed t hcall' => exact absurd (hcall'.symm.trans hcall) (by nofun)
  | entersFinished t hcall' => exact absurd (hcall'.symm.trans hcall) (by nofun)
  | entersAsWorker t hcall' => exact absurd (hcall'.symm.trans hcall) (by nofun)
  | waits t hcall' => exact absurd (hcall'.symm.trans hcall) (by nofun)
  | released t hcall' => exact absurd (hcall'.symm.trans hcall) (by nofun)
  | joined t worker handles hcall' => exact absurd (hcall'.symm.trans hcall) (by nofun)
  | finished t hcall' => exact absurd (hcall'.symm.trans hcall) (by nofun)

/-- A flag that is set stays set. -/
theorem finished_of_step (h : s.pool.shutdownFinished = true) (hs : s.step a = some s') :
    s'.pool.shutdownFinished = true := by
  cases step_view hs <;> first | exact h | rfl

end PoolState

/-- The steps of the pool that touch neither the queue nor the end of `shutdown`. -/
def PoolAction.plain {Tid Task : Type} : PoolAction Tid Task → Bool
  | .post _ _ | .count _ | .postReturn _ | .rollback _ | .taskEnd _ _ | .countFailed _
  | .countCompleted _ | .shutdown _ => true
  | _ => false

/-- Where the pool has a thread whose section of an operation is over. -/
def QueueOp.Behind {Tid Task : Type} (th : PoolThread Tid Task) :
    QueueOp (PostedTask Task) → Prop
  | .tryPush _ => ∃ posted, th.call = .pushed posted ∨ ∃ threw, th.call = .rollingBack posted threw
  | .close => th.call = .entering
  | .waitPop => th.call = .none ∧ ((∃ posted, th.loop = .running posted) ∨ th.loop = .left)
  | _ => False

namespace PoolRun
variable {Tid Task : Type} [DecidableEq Tid] {s s' : PoolRun Tid Task}
  {workers : PoolWorkers Tid}

omit [DecidableEq Tid] in
theorem queueOp_eq_some {th : PoolThread Tid Task} {op : QueueOp (PostedTask Task)}
    (h : th.queueOp = some op) :
    (∃ posted, th.call = .pushing posted ∧ op = .tryPush posted) ∨
      (th.call = .closing ∧ op = .close) ∨
      (th.call = .none ∧ th.loop = .popping ∧ op = .waitPop) := by
  unfold PoolThread.queueOp at h
  split at h
  case h_1 posted hcall => exact .inl ⟨posted, hcall, (Option.some.inj h).symm⟩
  case h_2 hcall => exact .inr (.inl ⟨hcall, (Option.some.inj h).symm⟩)
  case h_3 hcall hloop => exact .inr (.inr ⟨hcall, hloop, (Option.some.inj h).symm⟩)
  case h_4 => cases h

/-- The section of a call of the queue is a step of the pool, with the same effect on the tasks. -/
theorem exists_section_step {pool : PoolState Tid Task} {t : Tid}
    {op : QueueOp (PostedTask Task)} {q : ThreadSafeQueue (PostedTask Task)}
    {returned : QueueReturn (PostedTask Task)} {notifies : List QueueNotify}
    (hop : (pool.threads t).queueOp = some op) (hcapacity : pool.pool.tasks.capacity = 0)
    (hview : pool.pool.tasks.SectionView op (.done q returned notifies)) :
    ∃ b pool', op.poolAction t = some b ∧ b.thread = t ∧ pool.step b = some pool' ∧
      pool'.pool.tasks = q ∧ op.Behind (pool'.threads t) := by
  have hroom : pool.pool.tasks.full = false := by simp [ThreadSafeQueue.full, hcapacity]
  rcases queueOp_eq_some hop with ⟨posted, hcall, rfl⟩ | ⟨hcall, rfl⟩ | ⟨hcall, hloop, rfl⟩
  · cases hview with
    | pushed value hvalue hopen =>
      obtain rfl := Option.some.inj hvalue
      have hstep : pool.step (.push t false) = some { pool with
          pool := { pool.pool with tasks := { pool.pool.tasks with
            queue := pool.pool.tasks.queue ++ [posted] } }
          threads := PoolState.setCall pool.threads t (.pushed posted)
          history := { pool.history with pushed := pool.history.pushed ++ [posted.ticket] } } := by
        simp [PoolState.step, hcall, ThreadSafeQueue.tryPush, hopen, hroom]
      exact ⟨_, _, rfl, rfl, hstep, rfl, posted, .inl (by simp)⟩
    | refused value hvalue hrefused =>
      have hclosed : pool.pool.tasks.closed = true := hrefused.resolve_right (by simp [hroom])
      have hstep : pool.step (.push t false) = some { pool with
          threads := PoolState.setCall pool.threads t (.rollingBack posted false) } := by
        simp [PoolState.step, hcall, ThreadSafeQueue.tryPush, hclosed]
      exact ⟨_, _, rfl, rfl, hstep, rfl, posted, .inr ⟨false, by simp⟩⟩
    | popped value rest hpops => cases hpops
    | gaveUp hpops => cases hpops
    | closed hclose => cases hclose
    | closedAgain hclose => cases hclose
  · have hstep : pool.step (.close t) = some { pool with
        pool := { pool.pool with tasks := pool.pool.tasks.close }
        threads := PoolState.setCall pool.threads t .entering } := by
      simp [PoolState.step, hcall]
    have hbehind : QueueOp.Behind (PoolState.setCall pool.threads t .entering t) .close :=
      (by simp : (PoolState.setCall pool.threads t .entering t).call = .entering)
    cases hview with
    | closed hclose hopen => exact ⟨_, _, rfl, rfl, hstep, rfl, hbehind⟩
    | closedAgain hclose hclosed =>
      have hsame : pool.pool.tasks.close = pool.pool.tasks := by
        simp only [ThreadSafeQueue.close, ← hclosed]
      exact ⟨_, _, rfl, rfl, hstep, hsame, hbehind⟩
    | popped value rest hpops => cases hpops
    | gaveUp hpops => cases hpops
    | pushed value hvalue => cases hvalue
    | refused value hvalue => cases hvalue
  · cases hview with
    | popped value rest hpops hqueue =>
      have hstep : pool.step (.pop t) = some { pool with
          pool := { pool.pool with tasks := { pool.pool.tasks with queue := rest } }
          threads := PoolState.setLoop pool.threads t (.running value)
          history := { pool.history with
            started := pool.history.started ++ [value.ticket] } } := by
        simp [PoolState.step, hloop, ThreadSafeQueue.waitPop, hqueue]
      exact ⟨_, _, rfl, rfl, hstep, rfl, by simpa using hcall, .inl ⟨value, by simp⟩⟩
    | gaveUp hpops hqueue hclosed =>
      have hstep : pool.step (.pop t) = some { pool with
          threads := PoolState.setLoop pool.threads t .left } := by
        simp [PoolState.step, hloop, ThreadSafeQueue.waitPop, hqueue, hclosed rfl]
      exact ⟨_, _, rfl, rfl, hstep, rfl, by simpa using hcall, .inr (by simp)⟩
    | closed hclose => cases hclose
    | closedAgain hclose => cases hclose
    | pushed value hvalue => cases hvalue
    | refused value hvalue => cases hvalue

inductive StepView (s : PoolRun Tid Task) : PoolRunAction Tid Task → PoolRun Tid Task → Prop
  | plain (a : PoolAction Tid Task) (pool : PoolState Tid Task) : s.atPool a.thread = true →
      s.pool.step a = some pool → a.plain = true → StepView s (.pool a) { s with pool := pool }
  | entered (t : Tid) (pool : PoolState Tid Task) : s.atPool t = true →
      s.pool.step (.enter t) = some pool → (pool.threads t).call ≠ .waitingFinished →
      StepView s (.pool (.enter t)) { s with pool := pool }
  | waits (t : Tid) (pool : PoolState Tid Task) : s.atPool t = true →
      s.pool.step (.enter t) = some pool → (pool.threads t).call = .waitingFinished →
      StepView s (.pool (.enter t)) { s with pool := pool, complete := s.complete.sleep t }
  | awoke (t : Tid) (pool : PoolState Tid Task) : s.atPool t = true → t ∉ s.complete.asleep →
      s.pool.step (.awake t) = some pool →
      StepView s (.pool (.awake t)) { s with pool := pool }
  | detached (t : Tid) (handles : List Tid) (pool : PoolState Tid Task) : s.atPool t = true →
      (s.pool.threads t).call = .joining (t :: handles) → s.pool.step (.join t) = some pool →
      StepView s (.pool (.join t)) { s with pool := pool, detached := s.detached ++ [t] }
  | joined (t worker : Tid) (handles : List Tid) (pool : PoolState Tid Task) :
      s.atPool t = true → (s.pool.threads t).call = .joining (worker :: handles) → worker ≠ t →
      s.ended worker = true → s.pool.step (.join t) = some pool →
      StepView s (.pool (.join t)) { s with pool := pool, joined := s.joined ++ [(t, worker)] }
  | finished (t : Tid) (pool : PoolState Tid Task) : s.atPool t = true →
      s.pool.step (.finishShutdown t) = some pool →
      StepView s (.pool (.finishShutdown t))
        { s with pool := pool, notifying := t :: s.notifying }
  | called (t : Tid) (op : QueueOp (PostedTask Task)) (tasks : QueueState Tid (PostedTask Task)) :
      t ∉ s.notifying → (s.pool.threads t).queueOp = some op →
      s.tasks.step (.call t op) = some tasks → StepView s (.queueCall t) { s with tasks := tasks }
  | done (t : Tid) (timedOut : Bool) (tasks : QueueState Tid (PostedTask Task))
      (call : QueueCall (PostedTask Task)) (returned : QueueReturn (PostedTask Task))
      (b : PoolAction Tid Task) (pool : PoolState Tid Task) :
      s.tasks.step (.enter t timedOut) = some tasks →
      (tasks.threads t).settled = some (call, returned) → call.op.poolAction t = some b →
      s.pool.step b = some pool →
      StepView s (.queueStep (.enter t timedOut)) { s with tasks := tasks, pool := pool }
  | inner (a : QueueAction Tid (PostedTask Task)) (tasks : QueueState Tid (PostedTask Task)) :
      s.tasks.step a = some tasks → (∀ t op, a ≠ .call t op) →
      (∀ t timedOut, a = .enter t timedOut → (tasks.threads t).settled = none) →
      StepView s (.queueStep a) { s with tasks := tasks }
  | sleptAgain (t : Tid) : (s.pool.threads t).call = .waitingFinished →
      t ∉ s.complete.asleep → s.pool.pool.shutdownFinished = false →
      StepView s (.sleepAgain t) { s with complete := s.complete.sleep t }
  | wokeComplete (t : Tid) : t ∈ s.complete.asleep →
      StepView s (.wakeComplete t) { s with complete := s.complete.wake t }
  | notifiedComplete (t : Tid) : t ∈ s.notifying →
      StepView s (.notifyComplete t) { s with
        complete := s.complete.notifyAll
        notifying := s.notifying.filter fun u => u ≠ t }

theorem releaseHandle_view {t : Tid} (hat : s.atPool t = true)
    (h : s.releaseHandle t = some s') : StepView s (.pool (.join t)) s' := by
  unfold releaseHandle at h
  split at h
  case h_1 worker handles hcall =>
    split at h
    case isTrue hself =>
      subst hself
      obtain ⟨pool, hpool, rfl⟩ := Option.map_eq_some_iff.mp h
      exact .detached worker handles pool hat hcall hpool
    case isFalse hother =>
      obtain ⟨hended, h⟩ := Option.ite_none_right_eq_some.mp h
      obtain ⟨pool, hpool, rfl⟩ := Option.map_eq_some_iff.mp h
      exact .joined t worker handles pool hat hcall hother hended hpool
  case h_2 => cases h

theorem poolStep_view {a : PoolAction Tid Task} (hat : s.atPool a.thread = true)
    (h : s.poolStep a = some s') : StepView s (.pool a) s' := by
  have hplain (ha : a.plain = true)
      (h : ((s.pool.step a).map fun pool => { s with pool := pool }) = some s') :
      StepView s (.pool a) s' := by
    obtain ⟨pool, hpool, rfl⟩ := Option.map_eq_some_iff.mp h
    exact .plain a pool hat hpool ha
  cases a with
  | push | pop | close => cases h
  | enter t =>
    obtain ⟨pool, hpool, h⟩ := Option.map_eq_some_iff.mp h
    split at h
    case h_1 hwaits => exact h ▸ .waits t pool hat hpool hwaits
    case h_2 hnot => exact h ▸ .entered t pool hat hpool hnot
  | awake t =>
    obtain ⟨hawake, h⟩ := Option.ite_none_left_eq_some.mp h
    obtain ⟨pool, hpool, rfl⟩ := Option.map_eq_some_iff.mp h
    exact .awoke t pool hat hawake hpool
  | join t => exact releaseHandle_view hat h
  | finishShutdown t =>
    obtain ⟨pool, hpool, rfl⟩ := Option.map_eq_some_iff.mp h
    exact .finished t pool hat hpool
  | post | count | postReturn | rollback | taskEnd | countFailed | countCompleted | shutdown =>
    exact hplain rfl h

theorem queueStep_view {a : QueueAction Tid (PostedTask Task)} (h : s.queueStep a = some s') :
    StepView s (.queueStep a) s' := by
  have hinner (ha : ∀ t op, a ≠ .call t op) (henter : ∀ t timedOut, a ≠ .enter t timedOut)
      (h : ((s.tasks.step a).map fun tasks => { s with tasks := tasks }) = some s') :
      StepView s (.queueStep a) s' := by
    obtain ⟨tasks, htasks, rfl⟩ := Option.map_eq_some_iff.mp h
    exact .inner a tasks htasks ha fun t timedOut heq => absurd heq (henter t timedOut)
  cases a with
  | call t op => cases h
  | enter t timedOut =>
    obtain ⟨tasks, htasks, h⟩ := Option.bind_eq_some_iff.mp h
    split at h
    case h_1 call returned hsettled =>
      obtain ⟨b, hb, h⟩ := Option.bind_eq_some_iff.mp h
      obtain ⟨pool, hpool, rfl⟩ := Option.map_eq_some_iff.mp h
      exact .done t timedOut tasks call returned b pool htasks hsettled hb hpool
    case h_2 hnone =>
      refine Option.some.inj h ▸ .inner _ tasks htasks (by nofun) ?_
      intro u timed heq
      cases heq
      exact hnone
  | unlock | notify | wake | ret => exact hinner (by nofun) (by nofun) h

theorem step_view {a : PoolRunAction Tid Task} (h : s.step a = some s') : StepView s a s' := by
  cases a with
  | pool a =>
    obtain ⟨hat, h⟩ := Option.ite_none_right_eq_some.mp h
    exact poolStep_view hat h
  | queueCall t =>
    obtain ⟨hnot, h⟩ := Option.ite_none_left_eq_some.mp h
    obtain ⟨op, hop, h⟩ := Option.bind_eq_some_iff.mp h
    obtain ⟨tasks, htasks, rfl⟩ := Option.map_eq_some_iff.mp h
    exact .called t op tasks hnot hop htasks
  | queueStep a => exact queueStep_view h
  | sleepAgain t =>
    simp only [step] at h
    split at h
    case h_1 hcall =>
      obtain ⟨hguard, h⟩ := Option.ite_none_left_eq_some.mp h
      obtain ⟨hawake, hunset⟩ := not_or.mp hguard
      exact Option.some.inj h ▸ .sleptAgain t hcall hawake (by simpa using hunset)
    case h_2 => cases h
  | wakeComplete t =>
    obtain ⟨hasleep, h⟩ := Option.ite_none_right_eq_some.mp h
    exact Option.some.inj h ▸ .wokeComplete t hasleep
  | notifyComplete t =>
    obtain ⟨hnotifying, h⟩ := Option.ite_none_right_eq_some.mp h
    exact Option.some.inj h ▸ .notifiedComplete t hnotifying

/-! ### The two components -/

theorem pool_of_step {a : PoolRunAction Tid Task} (h : s.step a = some s') :
    s'.pool = s.pool ∨ ∃ b, s.pool.step b = some s'.pool := by
  cases step_view h with
  | plain a pool _ hpool => exact .inr ⟨a, hpool⟩
  | entered t pool _ hpool => exact .inr ⟨_, hpool⟩
  | waits t pool _ hpool => exact .inr ⟨_, hpool⟩
  | awoke t pool _ _ hpool => exact .inr ⟨_, hpool⟩
  | detached t handles pool _ _ hpool => exact .inr ⟨_, hpool⟩
  | joined t worker handles pool _ _ _ _ hpool => exact .inr ⟨_, hpool⟩
  | finished t pool _ hpool => exact .inr ⟨_, hpool⟩
  | done t timedOut tasks call returned b pool _ _ _ hpool => exact .inr ⟨b, hpool⟩
  | _ => exact .inl rfl

theorem tasks_of_step {a : PoolRunAction Tid Task} (h : s.step a = some s') :
    s'.tasks = s.tasks ∨ ∃ b, s.tasks.step b = some s'.tasks := by
  cases step_view h with
  | called t op tasks _ _ htasks => exact .inr ⟨_, htasks⟩
  | done t timedOut tasks call returned b pool htasks => exact .inr ⟨_, htasks⟩
  | inner a tasks htasks => exact .inr ⟨a, htasks⟩
  | _ => exact .inl rfl

theorem pool_reachable (h : (poolRunSystem Tid Task workers).Reachable s) :
    (poolSystem Tid Task workers).Reachable s.pool := by
  refine h.invariant (P := fun s => (poolSystem Tid Task workers).Reachable s.pool) ?_ ?_
  · rintro s ⟨pool, hpool, rfl⟩
    exact .init hpool
  · intro s a s' _ hpool hs
    rcases pool_of_step hs with heq | ⟨b, hb⟩
    · rw [heq]
      exact hpool
    · exact hpool.step hb

theorem tasks_reachable (h : (poolRunSystem Tid Task workers).Reachable s) :
    (queueSystem Tid (PostedTask Task) 0).Reachable s.tasks := by
  refine h.invariant (P := fun s => (queueSystem Tid (PostedTask Task) 0).Reachable s.tasks) ?_ ?_
  · rintro s ⟨pool, hpool, rfl⟩
    exact .init rfl
  · intro s a s' _ htasks hs
    rcases tasks_of_step hs with heq | ⟨b, hb⟩
    · rw [heq]
      exact htasks
    · exact htasks.step hb

/-- The two components agree on the tasks and on where the threads are. -/
structure Agreement (s : PoolRun Tid Task) : Prop where
  same : s.tasks.queue = s.pool.pool.tasks
  pending : ∀ t call, (s.tasks.threads t).pending = some call →
    (s.pool.threads t).queueOp = some call.op
  settled : ∀ t call returned, (s.tasks.threads t).settled = some (call, returned) →
    call.op.Behind (s.pool.threads t)
  notifying : ∀ t ∈ s.notifying, s.tasks.threads t = .idle ∧ (s.pool.threads t).call = .none ∧
    s.pool.pool.shutdownFinished = true

omit [DecidableEq Tid] in
theorem eq_idle_iff {α : Type} {phase : QueuePhase α} :
    phase = .idle ↔ phase.pending = none ∧ phase.settled = none := by
  cases phase <;> simp [QueuePhase.pending, QueuePhase.settled]

omit [DecidableEq Tid] in
theorem idle_of_isIdle {α : Type} {phase : QueuePhase α} (h : phase.isIdle = true) :
    phase = .idle := by
  cases phase <;> first | rfl | cases h

theorem atPool_iff {t : Tid} :
    s.atPool t = true ↔ s.tasks.threads t = .idle ∧ t ∉ s.notifying := by
  simp only [atPool, Bool.and_eq_true, Bool.not_eq_true', decide_eq_false_iff_not]
  refine and_congr_left fun _ => ⟨idle_of_isIdle, ?_⟩
  intro h
  rw [h]
  rfl

/-- A step of the pool outside the queue. -/
theorem Agreement.pool_step {a : PoolAction Tid Task} {pool : PoolState Tid Task}
    (h : Agreement s) (hpool : s.pool.step a = some pool) (hat : s.atPool a.thread = true)
    (htasks : pool.pool.tasks = s.pool.pool.tasks) (hs' : s'.pool = pool)
    (hs'tasks : s'.tasks = s.tasks)
    (hnotifying : ∀ t ∈ s'.notifying, t ∈ s.notifying ∨ t = a.thread ∧
      (pool.threads t).call = .none ∧ pool.pool.shutdownFinished = true) : Agreement s' := by
  obtain ⟨hidle, hnot⟩ := atPool_iff.mp hat
  have hother {u : Tid} (hu : s.tasks.threads u ≠ .idle) :
      pool.threads u = s.pool.threads u := by
    refine PoolState.threads_of_step hpool ?_
    rintro rfl
    exact hu hidle
  refine ⟨?_, ?_, ?_, ?_⟩
  · rw [hs'tasks, hs', htasks]
    exact h.same
  · intro u call hu
    rw [hs'tasks] at hu
    rw [hs', hother (by intro heq; rw [heq] at hu; cases hu)]
    exact h.pending u call hu
  · intro u call returned hu
    rw [hs'tasks] at hu
    rw [hs', hother (by intro heq; rw [heq] at hu; cases hu)]
    exact h.settled u call returned hu
  · intro u hu
    rw [hs'tasks, hs']
    rcases hnotifying u hu with hold | ⟨rfl, hcall, hfinished⟩
    · obtain ⟨hphase, hcall, hfinished⟩ := h.notifying u hold
      have hne : u ≠ a.thread := by
        rintro rfl
        exact hnot hold
      exact ⟨hphase, by rw [PoolState.threads_of_step hpool hne]; exact hcall,
        PoolState.finished_of_step hfinished hpool⟩
    · exact ⟨hidle, hcall, hfinished⟩

omit [DecidableEq Tid] in
/-- A step of the queue that brings nothing to a result. -/
theorem Agreement.tasks_step {tasks : QueueState Tid (PostedTask Task)} (h : Agreement s)
    (hsame : tasks.queue = s.tasks.queue)
    (hpending : ∀ u call, (tasks.threads u).pending = some call →
      (s.tasks.threads u).pending = some call)
    (hsettled : ∀ u call returned, (tasks.threads u).settled = some (call, returned) →
      (s.tasks.threads u).settled = some (call, returned)) :
    Agreement { s with tasks := tasks } := by
  refine ⟨hsame.trans h.same, fun u call hu => h.pending u call (hpending u call hu),
    fun u call returned hu => h.settled u call returned (hsettled u call returned hu), ?_⟩
  intro u hu
  obtain ⟨hphase, hrest⟩ := h.notifying u hu
  obtain ⟨hnone, hnone'⟩ := eq_idle_iff.mp hphase
  refine ⟨eq_idle_iff.mpr ⟨?_, ?_⟩, hrest⟩
  · refine Option.eq_none_iff_forall_ne_some.mpr ?_
    intro call hcall
    rw [hpending u call hcall] at hnone
    cases hnone
  · refine Option.eq_none_iff_forall_ne_some.mpr ?_
    rintro ⟨call, returned⟩ hcall
    rw [hsettled u call returned hcall] at hnone'
    cases hnone'

/-- A section that has come to a result. -/
theorem finished_of_settled {α : Type} {q q' : QueueState Tid α} {t : Tid} {timedOut : Bool}
    {call : QueueCall α} {returned : QueueReturn α} (h : q.step (.enter t timedOut) = some q')
    (hsettled : (q'.threads t).settled = some (call, returned)) :
    (q.threads t).pending = some call ∧ ∃ queue notifies,
      q.queue.SectionView call.op (.done queue returned notifies) ∧
      (∀ u, (q'.threads u).pending = if u = t then none else (q.threads u).pending) ∧
      (∀ u, (q'.threads u).settled =
        if u = t then some (call, returned) else (q.threads u).settled) ∧ q'.queue = queue := by
  cases QueueState.step_view h with
  | slept => simp [QueuePhase.settled] at hsettled
  | finished t timedOut call' queue returned' notifies howner hcall hview =>
    rw [QueueState.setPhase_threads, if_pos rfl] at hsettled
    cases hsettled
    refine ⟨hcall.pending.1, queue, notifies, hview, ?_, ?_, rfl⟩
    · intro u
      rw [QueueState.setPhase_threads]
      split <;> rfl
    · intro u
      rw [QueueState.setPhase_threads]
      split <;> rfl

theorem Agreement.step {a : PoolRunAction Tid Task} (h : Agreement s)
    (hqueue : s.tasks.queue.capacity = 0) (hs : s.step a = some s') : Agreement s' := by
  cases step_view hs with
  | plain a pool hat hpool hplain =>
    refine h.pool_step hpool hat (PoolState.tasks_of_step hpool ?_ ?_ ?_) rfl rfl
      (fun t ht => .inl ht)
    · rintro t fails rfl
      cases hplain
    · rintro t rfl
      cases hplain
    · rintro t rfl
      cases hplain
  | entered t pool hat hpool =>
    exact h.pool_step hpool hat
      (PoolState.tasks_of_step hpool (by nofun) (by nofun) (by nofun)) rfl rfl (fun t ht => .inl ht)
  | waits t pool hat hpool =>
    exact h.pool_step hpool hat
      (PoolState.tasks_of_step hpool (by nofun) (by nofun) (by nofun)) rfl rfl (fun t ht => .inl ht)
  | awoke t pool hat _ hpool =>
    exact h.pool_step hpool hat
      (PoolState.tasks_of_step hpool (by nofun) (by nofun) (by nofun)) rfl rfl (fun t ht => .inl ht)
  | detached t handles pool hat _ hpool =>
    exact h.pool_step hpool hat
      (PoolState.tasks_of_step hpool (by nofun) (by nofun) (by nofun)) rfl rfl (fun t ht => .inl ht)
  | joined t worker handles pool hat _ _ _ hpool =>
    exact h.pool_step hpool hat
      (PoolState.tasks_of_step hpool (by nofun) (by nofun) (by nofun)) rfl rfl (fun t ht => .inl ht)
  | finished t pool hat hpool =>
    refine h.pool_step hpool hat
      (PoolState.tasks_of_step hpool (by nofun) (by nofun) (by nofun)) rfl rfl ?_
    intro u hu
    rcases List.mem_cons.mp hu with rfl | hu
    · right
      cases PoolState.step_view hpool with
      | finished => exact ⟨rfl, by simp [PoolState.returnShutdown], rfl⟩
    · exact .inl hu
  | called t op tasks hnot hop htasks =>
    have hview := QueueState.call_view htasks
    cases hview with
    | quiet hhistory hpending hsettled hsame =>
      exact h.tasks_step hsame (fun u call hu => hpending u ▸ hu)
        (fun u call returned hu => hsettled u ▸ hu)
    | returned u call returned hu hhistory hpending hsettled hsame =>
      refine h.tasks_step hsame (fun u call hu => hpending u ▸ hu) ?_
      intro u call returned hu
      rw [hsettled] at hu
      exact (Option.ite_none_left_eq_some.mp hu).2
    | finished u timedOut call q returned notifies ha => cases ha
    | called u op' ha hidle hhistory hpending hsettled hsame =>
      cases ha
      refine ⟨hsame.trans h.same, ?_, ?_, ?_⟩
      · intro v call hv
        rw [hpending] at hv
        split at hv
        case isTrue heq =>
          cases hv
          rw [heq]
          exact hop
        case isFalse => exact h.pending v call hv
      · intro v call returned hv
        rw [hsettled] at hv
        exact h.settled v call returned hv
      · intro v hv
        obtain ⟨hphase, hrest⟩ := h.notifying v hv
        have hne : v ≠ t := by
          rintro rfl
          exact hnot hv
        obtain ⟨hnone, hnone'⟩ := eq_idle_iff.mp hphase
        refine ⟨eq_idle_iff.mpr ⟨?_, ?_⟩, hrest⟩
        · rw [hpending, if_neg hne]
          exact hnone
        · rw [hsettled]
          exact hnone'
  | done t timedOut tasks call returned b pool htasks hdone hb hpool =>
    obtain ⟨hcall, q, notifies, hview, hpending, hsettled, hq⟩ := finished_of_settled htasks hdone
    have hop := h.pending t call hcall
    rw [h.same] at hview hqueue
    obtain ⟨b', pool', hb', hthread, hpool', hsame, hbehind⟩ :=
      exists_section_step hop hqueue hview
    obtain rfl : b' = b := Option.some.inj (hb'.symm.trans hb)
    obtain rfl : pool' = pool := Option.some.inj (hpool'.symm.trans hpool)
    have hother {u : Tid} (hu : u ≠ t) : pool'.threads u = s.pool.threads u :=
      PoolState.threads_of_step hpool (hthread ▸ hu)
    refine ⟨hq.trans hsame.symm, ?_, ?_, ?_⟩
    · intro u call' hu
      rw [hpending] at hu
      obtain ⟨hne, hu⟩ := Option.ite_none_left_eq_some.mp hu
      rw [hother hne]
      exact h.pending u call' hu
    · intro u call' returned' hu
      rw [hsettled] at hu
      split at hu
      case isTrue heq =>
        cases hu
        rw [heq]
        exact hbehind
      case isFalse hne =>
        rw [hother hne]
        exact h.settled u call' returned' hu
    · intro u hu
      obtain ⟨hphase, hnone, hfinished⟩ := h.notifying u hu
      have hne : u ≠ t := by
        rintro rfl
        rw [hphase] at hcall
        cases hcall
      obtain ⟨hidle, hidle'⟩ := eq_idle_iff.mp hphase
      refine ⟨eq_idle_iff.mpr ⟨?_, ?_⟩, ?_, PoolState.finished_of_step hfinished hpool⟩
      · rw [hpending, if_neg hne]
        exact hidle
      · rw [hsettled, if_neg hne]
        exact hidle'
      · rw [hother hne]
        exact hnone
  | inner a tasks htasks hcall henter =>
    cases QueueState.call_view htasks with
    | quiet hhistory hpending hsettled hsame =>
      exact h.tasks_step hsame (fun u call hu => hpending u ▸ hu)
        (fun u call returned hu => hsettled u ▸ hu)
    | returned u call returned hu hhistory hpending hsettled hsame =>
      refine h.tasks_step hsame (fun u call hu => hpending u ▸ hu) ?_
      intro u call returned hu
      rw [hsettled] at hu
      exact (Option.ite_none_left_eq_some.mp hu).2
    | called u op ha => exact absurd ha (hcall u op)
    | finished u timedOut call q returned notifies ha hpend hview hhistory hpending hsettled =>
      have hnone := henter u timedOut ha
      rw [hsettled, if_pos rfl] at hnone
      cases hnone
  | sleptAgain t => exact ⟨h.same, h.pending, h.settled, h.notifying⟩
  | wokeComplete t => exact ⟨h.same, h.pending, h.settled, h.notifying⟩
  | notifiedComplete t =>
    refine ⟨h.same, h.pending, h.settled, ?_⟩
    intro u hu
    exact h.notifying u (List.mem_filter.mp hu).1

theorem agreement_of_reachable (h : (poolRunSystem Tid Task workers).Reachable s) :
    Agreement s := by
  refine h.invariant ?_ (fun s a s' hr hinv hs =>
    hinv.step (QueueState.fifoInvariant_of_reachable (tasks_reachable hr)).sized hs)
  rintro s ⟨pool, rfl, rfl⟩
  refine ⟨rfl, ?_, ?_, by nofun⟩
  · intro t call hcall
    cases hcall
  · intro t call returned hcall
    cases hcall

end PoolRun

end RobotMiddleware
