import RobotMiddleware.Census
import RobotMiddleware.ThreadPoolTasks

/-! The counters of the pool against its threads, and what becomes of every task. -/
namespace RobotMiddleware

def WorkerState.failureCounted {Task : Type} : WorkerState Task → Bool
  | .completing _ threw => threw
  | _ => false

namespace PoolState
variable {Tid Task : Type} {s s' : PoolState Tid Task}

/-- Thread `t` has popped a task and not counted it complete. -/
def Executing (s : PoolState Tid Task) (t : Tid) : Prop :=
  (s.threads t).loop.holding.isSome = true

/-- Thread `t` is in `post`, between its increment and its push or roll-back. -/
def Posting (s : PoolState Tid Task) (t : Tid) : Prop :=
  (s.threads t).call.counted = true

def FailureCounted (s : PoolState Tid Task) (t : Tid) : Prop :=
  (s.threads t).loop.failureCounted = true

structure CounterInvariant (s : PoolState Tid Task) : Prop where
  balance : ∃ executing posting, Census.Count s.Executing executing ∧
    Census.Count s.Posting posting ∧
    s.pool.submitted = s.pool.completed + s.pool.tasks.queue.length + executing + posting
  failures : ∃ between, Census.Count s.FailureCounted between ∧
    s.pool.failed ≤ s.pool.completed + between

namespace CounterInvariant

theorem initial (workers : PoolWorkers Tid) {threads : Tid → PoolThread Tid Task}
    (hthreads : ∀ t, threads t = { loop := .popping } ∨ threads t = {}) :
    CounterInvariant { pool := { workers := workers.ids }, threads := threads } := by
  refine ⟨⟨0, 0, .zero fun t => ?_, .zero fun t => ?_, rfl⟩, ⟨0, .zero fun t => ?_, le_rfl⟩⟩
  · rcases hthreads t with ht | ht <;> simp [Executing, ht, WorkerState.holding]
  · rcases hthreads t with ht | ht <;> simp [Posting, ht, PoolCall.counted]
  · rcases hthreads t with ht | ht <;> simp [FailureCounted, ht, WorkerState.failureCounted]

variable [DecidableEq Tid]

/-- A call moves without crossing a counter. -/
theorem move (h : CounterInvariant s) {t : Tid} {call : PoolCall Tid Task}
    {pool : ThreadPool Tid Task} {history : PoolHistory Tid}
    (hcounted : call.counted = (s.threads t).call.counted)
    (hsubmitted : pool.submitted = s.pool.submitted)
    (hcompleted : pool.completed = s.pool.completed) (hfailed : pool.failed = s.pool.failed)
    (hqueue : pool.tasks.queue = s.pool.tasks.queue) :
    CounterInvariant ⟨pool, setCall s.threads t call, history⟩ := by
  obtain ⟨executing, posting, hexecuting, hposting, hbalance⟩ := h.balance
  obtain ⟨between, hbetween, hfailures⟩ := h.failures
  refine ⟨⟨executing, posting, hexecuting.congr fun u => ?_, hposting.congr fun u => ?_, ?_⟩,
    ⟨between, hbetween.congr fun u => ?_, ?_⟩⟩
  · simp only [Executing, setCall_loop]
  · simp only [Posting, setCall_call]
    split
    case isTrue hut => rw [hut, hcounted]
    case isFalse => rfl
  · simpa only [hsubmitted, hcompleted, hqueue] using hbalance
  · simp only [FailureCounted, setCall_loop]
  · simpa only [hfailed, hcompleted] using hfailures

/-- A worker moves without crossing a counter. -/
theorem loop (h : CounterInvariant s) {t : Tid} {loop : WorkerState Task}
    {history : PoolHistory Tid}
    (hholding : loop.holding.isSome = (s.threads t).loop.holding.isSome)
    (hfailure : loop.failureCounted = (s.threads t).loop.failureCounted) :
    CounterInvariant { s with threads := setLoop s.threads t loop, history := history } := by
  obtain ⟨executing, posting, hexecuting, hposting, hbalance⟩ := h.balance
  obtain ⟨between, hbetween, hfailures⟩ := h.failures
  refine ⟨⟨executing, posting, hexecuting.congr fun u => ?_, hposting.congr fun u => ?_, hbalance⟩,
    ⟨between, hbetween.congr fun u => ?_, hfailures⟩⟩
  · simp only [Executing, setLoop_loop]
    split
    case isTrue hut => rw [hut, hholding]
    case isFalse => rfl
  · simp only [Posting, setLoop_call]
  · simp only [FailureCounted, setLoop_loop]
    split
    case isTrue hut => rw [hut, hfailure]
    case isFalse => rfl

/-- A caller leaves the stretch between its increment and its push or roll-back. -/
theorem leavePosting {t : Tid} {posting : ℕ} (h : Census.Count s.Posting posting)
    (call : PoolCall Tid Task) (hold : (s.threads t).call.counted = true)
    (hnew : call.counted = false) {pool : ThreadPool Tid Task} {history : PoolHistory Tid} :
    ∃ m, posting = m + 1 ∧
      Census.Count (Posting ⟨pool, setCall s.threads t call, history⟩) m := by
  refine h.leave (t := t) hold fun u => ?_
  simp only [Posting, setCall_call]
  by_cases hut : u = t <;> simp [hut, hnew]

theorem step {a : PoolAction Tid Task} (h : CounterInvariant s) (hs : s.step a = some s') :
    CounterInvariant s' := by
  obtain ⟨executing, posting, hexecuting, hposting, hbalance⟩ := h.balance
  obtain ⟨between, hbetween, hfailures⟩ := h.failures
  cases step_view hs with
  | refused t task hcall =>
    have hnone := ((s.threads t).canCall_iff.mp hcall).1
    exact h.move (by rw [hnone]) rfl rfl rfl rfl
  | posting t task hcall =>
    have hnone := ((s.threads t).canCall_iff.mp hcall).1
    exact h.move (by rw [hnone]; rfl) rfl rfl rfl rfl
  | counted t posted hcall =>
    have hcount : Census.Count (Posting { s with
        pool := { s.pool with submitted := s.pool.submitted + 1 }
        threads := setCall s.threads t (.pushing posted) }) (posting + 1) := by
      refine hposting.enter (t := t) (by simp [Posting, hcall, PoolCall.counted]) fun u => ?_
      by_cases hut : u = t <;> simp [Posting, hut, PoolCall.counted]
    refine ⟨⟨executing, posting + 1, hexecuting.congr fun u => ?_, hcount, ?_⟩,
      ⟨between, hbetween.congr fun u => ?_, hfailures⟩⟩
    · simp only [Executing, setCall_loop]
    · show s.pool.submitted + 1 = s.pool.completed + s.pool.tasks.queue.length + executing +
        (posting + 1)
      omega
    · simp only [FailureCounted, setCall_loop]
  | pushed t posted hcall hopen =>
    -- from the caller into the queue
    obtain ⟨m, hm, hcount⟩ := leavePosting (t := t) hposting (.pushed posted)
      (by rw [hcall]; rfl) rfl
    refine ⟨⟨executing, m, hexecuting.congr fun u => ?_, hcount, ?_⟩,
      ⟨between, hbetween.congr fun u => ?_, hfailures⟩⟩
    · simp only [Executing, setCall_loop]
    · simp only [List.length_append, List.length_singleton]
      omega
    · simp only [FailureCounted, setCall_loop]
  | notPushed t posted allocationFails threw hcall =>
    exact h.move (by rw [hcall]; rfl) rfl rfl rfl rfl
  | postReturned t posted hcall => exact h.move (by rw [hcall]; rfl) rfl rfl rfl rfl
  | rolledBack t posted threw hcall =>
    obtain ⟨m, hm, hcount⟩ := leavePosting (t := t) hposting .none
      (by rw [hcall]; rfl) rfl
    refine ⟨⟨executing, m, hexecuting.congr fun u => ?_, hcount, ?_⟩,
      ⟨between, hbetween.congr fun u => ?_, hfailures⟩⟩
    · simp only [Executing, returnPost, setCall_loop]
    · show s.pool.submitted - 1 = s.pool.completed + s.pool.tasks.queue.length + executing + m
      omega
    · simp only [FailureCounted, returnPost, setCall_loop]
  | popped t posted rest hloop hqueue =>
    -- from the queue to the worker
    have hcount : Census.Count (Executing { s with
        pool := { s.pool with tasks := { s.pool.tasks with queue := rest } }
        threads := setLoop s.threads t (.running posted)
        history := { s.history with started := s.history.started ++ [posted.ticket] } })
        (executing + 1) := by
      refine hexecuting.enter (t := t) (by simp [Executing, hloop, WorkerState.holding]) fun u => ?_
      by_cases hut : u = t <;> simp [Executing, hut, WorkerState.holding]
    refine ⟨⟨executing + 1, posting, hcount, hposting.congr fun u => ?_, ?_⟩,
      ⟨between, hbetween.congr fun u => ?_, hfailures⟩⟩
    · simp only [Posting, setLoop_call]
    · rw [hqueue, List.length_cons] at hbalance
      show s.pool.submitted = s.pool.completed + rest.length + (executing + 1) + posting
      omega
    · simp only [FailureCounted, setLoop_loop]
      split
      case isTrue hut => rw [hut, hloop]; rfl
      case isFalse => rfl
  | leaves t hloop => exact h.loop (by rw [hloop]; rfl) (by rw [hloop]; rfl)
  | taskEnd t posted threw hcall hloop =>
    refine h.loop ?_ ?_ <;> rw [hloop] <;> cases threw <;> rfl
  | countedFailed t posted hloop =>
    have hcount : Census.Count (FailureCounted { s with
        pool := { s.pool with failed := s.pool.failed + 1 }
        threads := setLoop s.threads t (.completing posted true) }) (between + 1) := by
      refine hbetween.enter (t := t)
        (by simp [FailureCounted, hloop, WorkerState.failureCounted]) fun u => ?_
      by_cases hut : u = t <;> simp [FailureCounted, hut, WorkerState.failureCounted]
    refine ⟨⟨executing, posting, hexecuting.congr fun u => ?_, hposting.congr fun u => ?_,
      hbalance⟩, ⟨between + 1, hcount, ?_⟩⟩
    · simp only [Executing, setLoop_loop]
      split
      case isTrue hut => rw [hut, hloop]; rfl
      case isFalse => rfl
    · simp only [Posting, setLoop_call]
    · show s.pool.failed + 1 ≤ s.pool.completed + (between + 1)
      omega
  | countedCompleted t posted threw hloop =>
    -- from the worker into `completed`, and out of the failures if it is one of them
    obtain ⟨m, hm, hcount⟩ := hexecuting.leave (t := t)
      (q := Executing { s with
        pool := { s.pool with completed := s.pool.completed + 1 }
        threads := setLoop s.threads t .popping })
      (by simp [Executing, hloop, WorkerState.holding]) fun u => by
        by_cases hut : u = t <;> simp [Executing, hut, WorkerState.holding]
    refine ⟨⟨m, posting, hcount, hposting.congr fun u => ?_, ?_⟩, ?_⟩
    · simp only [Posting, setLoop_call]
    · show s.pool.submitted = s.pool.completed + 1 + s.pool.tasks.queue.length + m + posting
      omega
    · cases threw with
      | true =>
        obtain ⟨k, hk, hcount⟩ := hbetween.leave (t := t)
          (q := FailureCounted { s with
            pool := { s.pool with completed := s.pool.completed + 1 }
            threads := setLoop s.threads t .popping })
          (by simp [FailureCounted, hloop, WorkerState.failureCounted]) fun u => by
            by_cases hut : u = t <;> simp [FailureCounted, hut, WorkerState.failureCounted]
        refine ⟨k, hcount, ?_⟩
        show s.pool.failed ≤ s.pool.completed + 1 + k
        omega
      | false =>
        refine ⟨between, hbetween.congr fun u => ?_, ?_⟩
        · simp only [FailureCounted, setLoop_loop]
          split
          case isTrue hut => rw [hut, hloop]; rfl
          case isFalse => rfl
        · show s.pool.failed ≤ s.pool.completed + 1 + between
          omega
  | shutdown t hcall =>
    have hnone := ((s.threads t).canCall_iff.mp hcall).1
    exact h.move (by rw [hnone]; rfl) rfl rfl rfl rfl
  | closed t hcall | entersFinished t hcall | entersAsWorker t hcall | waits t hcall
  | released t hcall | finished t hcall | awoke t hcall =>
    exact h.move (by rw [hcall]; rfl) rfl rfl rfl rfl
  | joined t worker handles hcall => exact h.move (by rw [hcall]; rfl) rfl rfl rfl rfl

end CounterInvariant

variable [DecidableEq Tid] {workers : PoolWorkers Tid}

theorem counterInvariant_of_reachable (h : (poolSystem Tid Task workers).Reachable s) :
    CounterInvariant s := by
  refine TransitionSystem.Reachable.invariant ?_ (fun s a s' _ hs hstep => hs.step hstep) h
  rintro s rfl
  refine .initial workers fun t => ?_
  split
  · exact .inl rfl
  · exact .inr rfl

/-- The counters balance, and every task runs as often as its `post` says. -/
structure PoolLaws (workers : PoolWorkers Tid) (s : PoolState Tid Task) : Prop where
  balance : (s.pool.submitted : ℕ∞) = s.pool.completed + s.pool.tasks.queue.length +
    {t | s.Executing t}.encard + {t | s.Posting t}.encard
  completed_le : s.pool.completed ≤ s.pool.submitted
  failed_le : (s.pool.failed : ℕ∞) ≤ s.pool.completed + {t | s.FailureCounted t}.encard
  started_once : s.history.started.Nodup
  started_pushed : ∀ k ∈ s.history.started, k ∈ s.history.pushed
  refused_not_started : ∀ k result, (k, result) ∈ s.history.returns → result ≠ .accepted →
    k ∉ s.history.started
  accepted_run : (∀ t ∈ workers.ids, (s.threads t).loop = .left) →
    ∀ k, (k, PostReturn.accepted) ∈ s.history.returns →
      s.history.started.count k = 1 ∧ s.history.finished.count k = 1

/-- Accepted tasks run exactly once and the counters balance, in every reachable state. -/
theorem tasks_once_and_counters_balance (h : (poolSystem Tid Task workers).Reachable s) :
    PoolLaws workers s := by
  have htickets := ticketInvariant_of_reachable h
  have hruns := runInvariant_of_reachable h
  obtain ⟨executing, posting, hexecuting, hposting, hbalance⟩ :=
    (counterInvariant_of_reachable h).balance
  obtain ⟨between, hbetween, hfailures⟩ := (counterInvariant_of_reachable h).failures
  have hnodup := htickets.pushed_nodup
  rw [htickets.pushed_eq] at hnodup
  have hstarted : s.history.started.Nodup := (List.nodup_append.mp hnodup).1
  refine ⟨?_, by omega, ?_, hstarted, fun k hk => ?_, fun k result hk hne hmem => ?_,
    fun hleft k hk => ?_⟩
  · have hcount : {t | s.Executing t}.encard = executing := hexecuting
    have hcount' : {t | s.Posting t}.encard = posting := hposting
    rw [hcount, hcount', hbalance]
    push_cast
    rfl
  · have hcount : {t | s.FailureCounted t}.encard = between := hbetween
    rw [hcount]
    exact_mod_cast hfailures
  · rw [htickets.pushed_eq]
    exact List.mem_append_left _ hk
  · apply hne
    rw [(htickets.returned k result hk).2, htickets.pushed_eq]
    exact List.mem_append_left _ hmem
  · -- some worker has left, so the queue is drained, and no worker still runs a task
    obtain ⟨worker, hworker⟩ := List.exists_mem_of_ne_nil _ workers.nonempty
    obtain ⟨-, hempty⟩ := hruns.left worker (hleft worker hworker)
    have hpushed := (htickets.returned k .accepted hk).2.mp rfl
    rw [htickets.pushed_eq, hempty, List.map_nil, List.append_nil] at hpushed
    have hfinished : k ∈ s.history.finished := by
      rcases hruns.started k hpushed with hfinished | ⟨t, posted, hrunning, -⟩
      · exact hfinished
      · have ht := (hruns.worker t).mp (by rw [hrunning]; simp)
        rw [hleft t ht] at hrunning
        cases hrunning
    exact ⟨List.count_eq_one_of_mem hstarted hpushed,
      List.count_eq_one_of_mem hruns.finished_nodup hfinished⟩

/-- A task that throws, and a `post` that loses the race with the shutdown. -/
theorem tasks_once_and_counters_balance_race :
    ∃ s : PoolState (Fin 3) ℕ, s.history.returns = [(0, .accepted), (1, .refused)] ∧
      s.pool.submitted = 1 ∧ s.pool.failed = 1 ∧ PoolLaws ⟨[1], by decide, by decide⟩ s := by
  obtain ⟨s, hs, hp⟩ :=
    (poolSystem (Fin 3) ℕ ⟨[1], by decide, by decide⟩).exists_reachable_of_run
      { pool := { workers := [1] }
        threads := fun t => if t ∈ [1] then { loop := .popping } else {} }
      [.post 0 (some 5), .count 0, .push 0 false, .pop 1, .postReturn 0, .post 2 (some 6),
        .taskEnd 1 true, .shutdown 0, .countFailed 1, .close 0, .count 2, .push 2 false,
        .rollback 2]
      (fun s => s.history.returns == [(0, .accepted), (1, .refused)] && s.pool.submitted == 1 &&
        s.pool.failed == 1)
      rfl (by decide)
  simp only [Bool.and_eq_true, beq_iff_eq] at hp
  exact ⟨s, hp.1.1, hp.1.2, hp.2, tasks_once_and_counters_balance hs⟩

end PoolState
end RobotMiddleware
