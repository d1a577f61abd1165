import RobotMiddleware.ThreadPoolTasks

/-! What a returned `shutdown` means. Whoever takes over the handles joins every worker but
itself, so the finished flag of a worker says nothing about the task it was called from. -/
namespace RobotMiddleware

def WorkerState.isRunning {Task : Type} : WorkerState Task → Bool
  | .running _ => true
  | _ => false

theorem WorkerState.isRunning_eq_false {Task : Type} {loop : WorkerState Task} :
    loop.isRunning = false ↔ ∀ posted, loop ≠ .running posted := by
  cases loop <;> simp [WorkerState.isRunning]

def PoolCall.pastClose {Tid Task : Type} : PoolCall Tid Task → Bool
  | .entering | .waitingFinished | .joining _ => true
  | _ => false

def PoolCall.inShutdown {Tid Task : Type} : PoolCall Tid Task → Bool
  | .closing | .entering | .waitingFinished | .joining _ => true
  | _ => false

namespace PoolState
variable {Tid Task : Type} {s s' : PoolState Tid Task} {workers : PoolWorkers Tid}

structure Drained (s : PoolState Tid Task) : Prop where
  closed : s.pool.tasks.closed = true
  empty : s.pool.tasks.queue = []
  idle : ∀ t, (s.threads t).loop.isRunning = false

/-- One caller takes over the handles, joins the workers in turn, and then sets the flag. -/
structure ReleaseInvariant (workers : PoolWorkers Tid) (s : PoolState Tid Task) : Prop where
  untouched : s.pool.shutdownInProgress = false → s.pool.shutdownFinished = false →
    s.history.releasedBy = none ∧ s.pool.workers = workers.ids
  joining : ∀ t handles, (s.threads t).call = .joining handles →
    s.history.releasedBy = some t ∧ s.pool.shutdownInProgress = true ∧
      s.pool.shutdownFinished = false ∧
      ∀ worker ∈ workers.ids, worker ∉ handles → worker = t ∨ (s.threads worker).loop = .left
  finished : s.pool.shutdownFinished = true → s.pool.shutdownInProgress = false ∧
    ∃ t, s.history.releasedBy = some t ∧
      ∀ worker ∈ workers.ids, worker = t ∨ (s.threads worker).loop = .left
  closed : ∀ t, (s.threads t).call.pastClose = true → s.pool.tasks.closed = true
  released_closed : s.history.releasedBy ≠ none → s.pool.tasks.closed = true

namespace ReleaseInvariant

theorem initial {threads : Tid → PoolThread Tid Task} (hcall : ∀ t, (threads t).call = .none) :
    ReleaseInvariant workers { pool := { workers := workers.ids }, threads := threads } := by
  refine ⟨fun _ _ => ⟨rfl, rfl⟩, ?_, by simp, ?_, by simp⟩ <;> simp [hcall, PoolCall.pastClose]

/-- Steps that leave the handles alone, and where no worker comes back into its loop. -/
theorem keep (h : ReleaseInvariant workers s) {pool : ThreadPool Tid Task}
    {threads : Tid → PoolThread Tid Task} {history : PoolHistory Tid}
    (hprogress : pool.shutdownInProgress = s.pool.shutdownInProgress)
    (hfinished : pool.shutdownFinished = s.pool.shutdownFinished)
    (hworkers : pool.workers = s.pool.workers)
    (hreleased : history.releasedBy = s.history.releasedBy)
    (hclosed : s.pool.tasks.closed = true → pool.tasks.closed = true)
    (hcall : ∀ t, (threads t).call.pastClose = true →
      (threads t).call = (s.threads t).call ∨
        pool.tasks.closed = true ∧ ∀ handles, (threads t).call ≠ .joining handles)
    (hleft : ∀ t, (s.threads t).loop = .left → (threads t).loop = .left) :
    ReleaseInvariant workers ⟨pool, threads, history⟩ := by
  refine ⟨?_, fun t handles ht => ?_, fun hset => ?_, fun t ht => ?_, ?_⟩
  · simpa only [hprogress, hfinished, hreleased, hworkers] using h.untouched
  · rcases hcall t (by rw [ht]; rfl) with hsame | ⟨-, hnot⟩
    · obtain ⟨hby, hrunning, hunset, hjoined⟩ := h.joining t handles (hsame ▸ ht)
      refine ⟨hreleased.trans hby, hprogress.trans hrunning, hfinished.trans hunset, ?_⟩
      intro worker hworker hgone
      exact (hjoined worker hworker hgone).imp_right (hleft worker)
    · exact absurd ht (hnot handles)
  · obtain ⟨hidle, t, hby, hjoined⟩ := h.finished (hfinished ▸ hset)
    refine ⟨hprogress.trans hidle, t, hreleased.trans hby, ?_⟩
    intro worker hworker
    exact (hjoined worker hworker).imp_right (hleft worker)
  · rcases hcall t ht with hsame | ⟨hnow, -⟩
    · exact hclosed (h.closed t (hsame ▸ ht))
    · exact hnow
  · rw [hreleased]
    intro hby
    exact hclosed (h.released_closed hby)

variable [DecidableEq Tid]

theorem setCall (h : ReleaseInvariant workers s) {t : Tid} {call : PoolCall Tid Task}
    {pool : ThreadPool Tid Task} {history : PoolHistory Tid}
    (hprogress : pool.shutdownInProgress = s.pool.shutdownInProgress)
    (hfinished : pool.shutdownFinished = s.pool.shutdownFinished)
    (hworkers : pool.workers = s.pool.workers)
    (hreleased : history.releasedBy = s.history.releasedBy)
    (hclosed : s.pool.tasks.closed = true → pool.tasks.closed = true)
    (hcall : call.pastClose = true → pool.tasks.closed = true)
    (hjoining : ∀ handles, call ≠ .joining handles) :
    ReleaseInvariant workers ⟨pool, setCall s.threads t call, history⟩ := by
  refine h.keep hprogress hfinished hworkers hreleased hclosed (fun u hu => ?_) (fun u hu => ?_)
  · simp only [setCall_call] at hu ⊢
    split at hu
    case isTrue hut => exact .inr ⟨hcall hu, by simpa only [hut, ↓reduceIte] using hjoining⟩
    case isFalse hut => exact .inl (if_neg hut)
  · simpa only [setCall_loop] using hu

theorem setLoop (h : ReleaseInvariant workers s) {t : Tid} {loop : WorkerState Task}
    {pool : ThreadPool Tid Task} {history : PoolHistory Tid}
    (hprogress : pool.shutdownInProgress = s.pool.shutdownInProgress)
    (hfinished : pool.shutdownFinished = s.pool.shutdownFinished)
    (hworkers : pool.workers = s.pool.workers)
    (hreleased : history.releasedBy = s.history.releasedBy)
    (hclosed : pool.tasks.closed = s.pool.tasks.closed)
    (hold : (s.threads t).loop ≠ .left) :
    ReleaseInvariant workers ⟨pool, setLoop s.threads t loop, history⟩ := by
  refine h.keep hprogress hfinished hworkers hreleased (fun hc => hclosed.trans hc) (fun u hu => ?_)
    (fun u hu => ?_)
  · exact .inl (setLoop_call _ _ _ _)
  · have hut : u ≠ t := by
      rintro rfl
      exact hold hu
    simpa only [setLoop_loop, hut, ↓reduceIte] using hu

theorem step {a : PoolAction Tid Task} (h : ReleaseInvariant workers s)
    (hs : s.step a = some s') : ReleaseInvariant workers s' := by
  cases step_view hs with
  | refused | postReturned | rolledBack | entersFinished | entersAsWorker | awoke =>
    exact h.setCall rfl rfl rfl rfl id (by simp [PoolCall.pastClose]) (by simp)
  | posting | counted | pushed | notPushed | shutdown =>
    exact h.setCall rfl rfl rfl rfl id (by simp [PoolCall.pastClose]) (by simp)
  | popped t posted rest hloop hqueue => exact h.setLoop rfl rfl rfl rfl rfl (by simp [hloop])
  | leaves t hloop => exact h.setLoop rfl rfl rfl rfl rfl (by simp [hloop])
  | taskEnd t posted threw hcall hloop => exact h.setLoop rfl rfl rfl rfl rfl (by simp [hloop])
  | countedFailed t posted hloop => exact h.setLoop rfl rfl rfl rfl rfl (by simp [hloop])
  | countedCompleted t posted threw hloop => exact h.setLoop rfl rfl rfl rfl rfl (by simp [hloop])
  | closed t hcall => exact h.setCall rfl rfl rfl rfl (fun _ => rfl) (fun _ => rfl) (by simp)
  | waits t hcall =>
    have hclosed := h.closed t (by rw [hcall]; rfl)
    exact h.setCall rfl rfl rfl rfl id (fun _ => hclosed) (by simp)
  | released t hcall hfinished hprogress =>
    -- nobody else is joining, or the handles would have been taken
    have hclosed := h.closed t (by rw [hcall]; rfl)
    have hnobody (u : Tid) (handles : List Tid) : (s.threads u).call ≠ .joining handles := by
      intro hu
      rw [(h.joining u handles hu).2.1] at hprogress
      cases hprogress
    obtain ⟨-, hworkers⟩ := h.untouched hprogress hfinished
    refine ⟨by simp, fun u handles hu => ?_, ?_, fun u hu => ?_, fun _ => hclosed⟩
    · simp only [setCall_call] at hu
      split at hu
      case isTrue hut =>
        cases hu
        refine ⟨by rw [hut], rfl, hfinished, fun worker hworker hgone => ?_⟩
        exact absurd (hworkers ▸ hworker) hgone
      case isFalse => exact absurd hu (hnobody u handles)
    · intro hset
      rw [show s.pool.shutdownFinished = true from hset] at hfinished
      cases hfinished
    · exact hclosed
  | joined t worker handles hcall hleft =>
    obtain ⟨hby, hprogress, hfinished, hjoined⟩ := h.joining t _ hcall
    have hclosed := h.closed t (by rw [hcall]; rfl)
    refine ⟨fun hidle => ?_, fun u others hu => ?_, fun hset => ?_, fun u hu => hclosed,
      h.released_closed⟩
    · exact absurd (hprogress.symm.trans hidle) (by simp)
    · simp only [setCall_call] at hu
      split at hu
      case isTrue hut =>
        cases hu
        subst hut
        refine ⟨hby, hprogress, hfinished, fun other hother hgone => ?_⟩
        simp only [setCall_loop]
        by_cases heq : other = worker
        · exact heq ▸ hleft
        · exact hjoined other hother (by simp [heq, hgone])
      case isFalse hut =>
        have hby' := (h.joining u others hu).1
        exact absurd (Option.some.inj (hby'.symm.trans hby)) hut
    · exact absurd (hfinished.symm.trans hset) (by simp)
  | finished t hcall =>
    obtain ⟨hby, hprogress, hfinished, hjoined⟩ := h.joining t _ hcall
    have hclosed := h.closed t (by rw [hcall]; rfl)
    refine ⟨by simp [returnShutdown], fun u others hu => ?_, fun _ => ⟨rfl, t, hby, ?_⟩,
      fun u hu => hclosed, h.released_closed⟩
    · simp only [returnShutdown, setCall_call] at hu
      split at hu
      case isTrue => cases hu
      case isFalse hut =>
        have hby' := (h.joining u others hu).1
        exact absurd (Option.some.inj (hby'.symm.trans hby)) hut
    · intro worker hworker
      simp only [returnShutdown, setCall_loop]
      exact hjoined worker hworker (by simp)

end ReleaseInvariant
variable [DecidableEq Tid]

theorem releaseInvariant_of_reachable (h : (poolSystem Tid Task workers).Reachable s) :
    ReleaseInvariant workers s := by
  refine TransitionSystem.Reachable.invariant ?_ (fun s a s' _ hs hstep => hs.step hstep) h
  rintro s rfl
  refine .initial fun t => ?_
  split <;> rfl

/-- A drained pool stays drained and starts nothing. -/
theorem Drained.step {a : PoolAction Tid Task} (h : Drained s) (hs : s.step a = some s') :
    Drained s' ∧ s'.history.started = s.history.started := by
  have hcalls {t : Tid} {call : PoolCall Tid Task} {pool : ThreadPool Tid Task}
      {history : PoolHistory Tid} (hclosed : pool.tasks.closed = true)
      (hempty : pool.tasks.queue = []) :
      Drained ⟨pool, setCall s.threads t call, history⟩ := by
    refine ⟨hclosed, hempty, fun u => ?_⟩
    simpa only [setCall_loop] using h.idle u
  have hloops {t : Tid} {loop : WorkerState Task} {pool : ThreadPool Tid Task}
      (htasks : pool.tasks = s.pool.tasks) (hloop : loop.isRunning = false) :
      Drained { s with pool := pool, threads := setLoop s.threads t loop } := by
    refine ⟨htasks ▸ h.closed, htasks ▸ h.empty, fun u => ?_⟩
    simp only [setLoop_loop]
    split
    case isTrue => exact hloop
    case isFalse => exact h.idle u
  cases step_view hs with
  | pushed t posted hcall hopen =>
    rw [h.closed] at hopen
    cases hopen
  | popped t posted rest hloop hqueue =>
    rw [h.empty] at hqueue
    cases hqueue
  | taskEnd t posted threw hcall hloop =>
    have hidle := h.idle t
    rw [hloop] at hidle
    cases hidle
  | leaves | countedFailed | countedCompleted => exact ⟨hloops rfl rfl, rfl⟩
  | closed => exact ⟨hcalls rfl h.empty, rfl⟩
  | _ => exact ⟨hcalls h.closed h.empty, rfl⟩

structure ShutDown (workers : PoolWorkers Tid) (s : PoolState Tid Task) : Prop where
  finished : ∀ k ∈ s.history.pushed, k ∈ s.history.finished
  idle : ∀ t, (s.threads t).loop.isRunning = false
  final : ∀ as s', (poolSystem Tid Task workers).run s as = some s' →
    s'.history.started = s.history.started ∧ ∀ t, (s'.threads t).loop.isRunning = false

theorem Drained.shutDown (hd : Drained s) (h : (poolSystem Tid Task workers).Reachable s) :
    ShutDown workers s := by
  refine ⟨fun k hk => ?_, hd.idle, fun as s' hrun => ?_⟩
  · rw [(ticketInvariant_of_reachable h).pushed_eq, hd.empty, List.map_nil,
      List.append_nil] at hk
    rcases (runInvariant_of_reachable h).started k hk with hfinished | ⟨t, posted, hrunning, -⟩
    · exact hfinished
    · have hidle := hd.idle t
      rw [hrunning] at hidle
      cases hidle
  · -- by induction on the run, whose first step keeps the pool drained
    clear h
    induction as generalizing s with
    | nil =>
      cases hrun
      exact ⟨rfl, hd.idle⟩
    | cons a as ih =>
      obtain ⟨u, hu, hrest⟩ := Option.bind_eq_some_iff.mp hrun
      obtain ⟨hdrained, hstarted⟩ := hd.step hu
      obtain ⟨hsame, hidle⟩ := ih hdrained hrest
      exact ⟨hsame.trans hstarted, hidle⟩

/-- If a worker took over the handles, it is not inside a task, and no task is queued. -/
def ReleaserIdle (workers : PoolWorkers Tid) (s : PoolState Tid Task) : Prop :=
  ∀ worker ∈ workers.ids, s.history.releasedBy = some worker →
    (s.threads worker).loop.isRunning = false ∧ s.pool.tasks.queue = []

/-- Behind a set flag only the thread that took over the handles can be busy. -/
theorem drained_of_releaserIdle (h : (poolSystem Tid Task workers).Reachable s)
    (hfinished : s.pool.shutdownFinished = true) (hidle : ReleaserIdle workers s) :
    Drained s := by
  have hrelease := releaseInvariant_of_reachable h
  have hruns := runInvariant_of_reachable h
  obtain ⟨-, t, hby, hjoined⟩ := hrelease.finished hfinished
  have hworkers (worker : Tid) (hworker : worker ∈ workers.ids) :
      (s.threads worker).loop.isRunning = false := by
    rcases hjoined worker hworker with rfl | hleft
    · exact (hidle worker hworker hby).1
    · rw [hleft]
      rfl
  refine ⟨hrelease.released_closed (by simp [hby]), ?_, fun u => ?_⟩
  · by_cases ht : t ∈ workers.ids
    · exact (hidle t ht hby).2
    · -- every worker has been joined, and there is one
      obtain ⟨worker, hworker⟩ := List.exists_mem_of_ne_nil _ workers.nonempty
      rcases hjoined worker hworker with rfl | hleft
      · exact absurd hworker ht
      · exact (hruns.left worker hleft).2
  · by_contra hrunning
    have hloop : (s.threads u).loop ≠ .none := by
      intro hnone
      rw [hnone] at hrunning
      exact hrunning rfl
    exact hrunning (hworkers u ((hruns.worker u).mp hloop))

/-- An external call that is about to return on the flag finds an idle releaser. -/
def ReturnsAfterReleaser (workers : PoolWorkers Tid) (s : PoolState Tid Task) :
    PoolAction Tid Task → Prop
  | .enter t | .awake t =>
    t ∉ workers.ids → s.pool.shutdownFinished = true → ReleaserIdle workers s
  | _ => True

instance (s : PoolState Tid Task) : Decidable (ReleaserIdle workers s) :=
  inferInstanceAs (Decidable (∀ worker ∈ workers.ids, _ → _ ∧ _))

instance (s : PoolState Tid Task) : ∀ a, Decidable (ReturnsAfterReleaser workers s a)
  | .enter _ | .awake _ => inferInstanceAs (Decidable (_ → _ → _))
  | .post _ _ | .count _ | .push _ _ | .postReturn _ | .rollback _ | .pop _ | .taskEnd _ _
  | .countFailed _ | .countCompleted _ | .shutdown _ | .close _ | .join _ | .finishShutdown _ =>
    inferInstanceAs (Decidable True)

/-- What a step adds to the returned calls of `shutdown`. -/
theorem shutdowns_of_step {a : PoolAction Tid Task} (hs : s.step a = some s') :
    s'.history.shutdowns = s.history.shutdowns ∨
    ∃ t, s'.history.shutdowns = s.history.shutdowns ++ [t] ∧
      ((a = .enter t ∨ a = .awake t) ∧ s.pool.shutdownFinished = true ∨
        (s.threads t).loop ≠ .none ∨ (s.threads t).call = .joining [] ∧ a = .finishShutdown t) := by
  cases step_view hs with
  | entersFinished t hcall hfinished => exact .inr ⟨t, rfl, .inl ⟨.inl rfl, hfinished⟩⟩
  | awoke t hcall hfinished => exact .inr ⟨t, rfl, .inl ⟨.inr rfl, hfinished⟩⟩
  | entersAsWorker t hcall hunfinished hprogress hworker =>
    refine .inr ⟨t, rfl, .inr (.inl ?_)⟩
    intro hnone
    simp [PoolThread.callerIsWorker, hnone] at hworker
  | finished t hcall => exact .inr ⟨t, rfl, .inr (.inr ⟨hcall, rfl⟩)⟩
  | _ => exact .inl rfl

/-- A thread gets into `shutdown` by calling it. -/
theorem inShutdown_of_step {a : PoolAction Tid Task} (hs : s.step a = some s') {t : Tid}
    (ht : (s'.threads t).call.inShutdown = true) :
    (s.threads t).call.inShutdown = true ∨ a = .shutdown t := by
  have hset {threads : Tid → PoolThread Tid Task} {u : Tid} {call : PoolCall Tid Task}
      (ht : (setCall threads u call t).call.inShutdown = true)
      (hcall : call.inShutdown = true → (threads u).call.inShutdown = true) :
      (threads t).call.inShutdown = true := by
    rw [setCall_call] at ht
    split at ht
    case isTrue hut => exact hut ▸ hcall ht
    case isFalse => exact ht
  cases step_view hs with
  | popped | leaves | taskEnd | countedFailed | countedCompleted =>
    exact .inl (by simpa only [setLoop_call] using ht)
  | shutdown u =>
    by_cases hut : t = u
    · exact .inr (by rw [hut])
    · exact .inl (by simpa only [setCall_call, hut, ↓reduceIte] using ht)
  | closed u hcall => exact .inl (hset ht fun _ => by rw [hcall]; rfl)
  | waits u hcall => exact .inl (hset ht fun _ => by rw [hcall]; rfl)
  | released u hcall => exact .inl (hset ht fun _ => by rw [hcall]; rfl)
  | joined u worker handles hcall => exact .inl (hset ht fun _ => by rw [hcall]; rfl)
  | _ => exact .inl (hset ht fun hnew => by cases hnew)

/-- Who returns from `shutdown`, or takes over the handles, was in it. -/
theorem shutdownHistory_of_step {a : PoolAction Tid Task} (hs : s.step a = some s') {t : Tid}
    (ht : t ∈ s'.history.shutdowns ∨ s'.history.releasedBy = some t) :
    (t ∈ s.history.shutdowns ∨ s.history.releasedBy = some t) ∨
      (s.threads t).call.inShutdown = true := by
  have hreturn {u : Tid} (hu : (s.threads u).call.inShutdown = true)
      (ht : t ∈ s.history.shutdowns ++ [u] ∨ s.history.releasedBy = some t) :
      (t ∈ s.history.shutdowns ∨ s.history.releasedBy = some t) ∨
        (s.threads t).call.inShutdown = true := by
    rcases ht with hmem | hby
    · rcases List.mem_append.mp hmem with hold | hnew
      · exact .inl (.inl hold)
      · exact .inr (List.mem_singleton.mp hnew ▸ hu)
    · exact .inl (.inr hby)
  cases step_view hs with
  | entersFinished u hcall => exact hreturn (by rw [hcall]; rfl) ht
  | entersAsWorker u hcall => exact hreturn (by rw [hcall]; rfl) ht
  | finished u hcall => exact hreturn (by rw [hcall]; rfl) ht
  | awoke u hcall => exact hreturn (by rw [hcall]; rfl) ht
  | released u hcall =>
    rcases ht with hmem | hby
    · exact .inl (.inl hmem)
    · cases hby
      exact .inr (by rw [hcall]; rfl)
  | _ => exact .inl ht

/-- A task runs until it ends. -/
theorem running_of_step {a : PoolAction Tid Task} (hs : s.step a = some s') {t : Tid}
    {posted : PostedTask Task} (ht : (s.threads t).loop = .running posted) :
    (s'.threads t).loop = .running posted ∨ ∃ threw, a = .taskEnd t threw := by
  have hset {u : Tid} {loop : WorkerState Task} (hloop : (s.threads u).loop ≠ .running posted) :
      (setLoop s.threads u loop t).loop = .running posted := by
    rw [setLoop_loop, if_neg, ht]
    rintro rfl
    exact hloop ht
  cases step_view hs with
  | popped u other rest hloop => exact .inl (hset (by simp [hloop]))
  | leaves u hloop => exact .inl (hset (by simp [hloop]))
  | countedFailed u other hloop => exact .inl (hset (by simp [hloop]))
  | countedCompleted u other threw hloop => exact .inl (hset (by simp [hloop]))
  | taskEnd u other threw hcall hloop =>
    by_cases hut : t = u
    · exact .inr ⟨threw, by rw [hut]⟩
    · exact .inl (by simpa only [setLoop_loop, hut, ↓reduceIte] using ht)
  | _ => exact .inl (by simpa only [returnPost, returnShutdown, setCall_loop] using ht)

/-- An external caller that took over the handles has joined every worker. -/
theorem drained_of_joined (h : (poolSystem Tid Task workers).Reachable s) {t : Tid}
    (ht : t ∉ workers.ids) (hcall : (s.threads t).call = .joining []) : Drained s := by
  have hrelease := releaseInvariant_of_reachable h
  have hruns := runInvariant_of_reachable h
  obtain ⟨hby, -, -, hjoined⟩ := hrelease.joining t [] hcall
  have hleft (worker : Tid) (hworker : worker ∈ workers.ids) :
      (s.threads worker).loop = .left := by
    rcases hjoined worker hworker (by simp) with rfl | hleft
    · exact absurd hworker ht
    · exact hleft
  obtain ⟨worker, hworker⟩ := List.exists_mem_of_ne_nil _ workers.nonempty
  refine ⟨hrelease.released_closed (by simp [hby]), (hruns.left worker (hleft worker hworker)).2,
    fun u => ?_⟩
  by_contra hrunning
  have hloop : (s.threads u).loop ≠ .none := by
    intro hnone
    rw [hnone] at hrunning
    exact hrunning rfl
  rw [hleft u ((hruns.worker u).mp hloop)] at hrunning
  exact hrunning rfl

/-- In a run where no external call returns on the flag of a busy releaser, the pool is
drained once an external call has returned. -/
theorem drained_of_external_return
    (h : (poolSystem Tid Task workers).ReachableVia (ReturnsAfterReleaser workers) s) {t : Tid}
    (ht : t ∉ workers.ids) (hreturned : t ∈ s.history.shutdowns) : Drained s := by
  refine TransitionSystem.ReachableVia.invariant
    (P := fun s => ∀ t ∉ workers.ids, t ∈ s.history.shutdowns → Drained s) ?_ ?_ h t ht hreturned
  · rintro s rfl t - hmem
    cases hmem
  · intro s a s' hr hs hok hstep t ht hmem
    rcases shutdowns_of_step hstep with hsame | ⟨u, hlast, hreturn⟩
    · rw [hsame] at hmem
      exact ((hs t ht hmem).step hstep).1
    · rw [hlast] at hmem
      rcases List.mem_append.mp hmem with hold | hnew
      · exact ((hs t ht hold).step hstep).1
      · cases List.mem_singleton.mp hnew
        have hdrained : Drained s := by
          rcases hreturn with ⟨ha, hfinished⟩ | hworker | ⟨hcall, -⟩
          · refine drained_of_releaserIdle hr.reachable hfinished ?_
            rcases ha with rfl | rfl <;> exact hok ht hfinished
          · exact absurd (((runInvariant_of_reachable hr.reachable).worker t).mp hworker) ht
          · exact drained_of_joined hr.reachable ht hcall
        exact (hdrained.step hstep).1

/-- On a set flag the call only returns. -/
theorem returnShutdown_of_finished {t : Tid} {a : PoolAction Tid Task}
    (ha : a = .enter t ∨ a = .awake t) (hfinished : s.pool.shutdownFinished = true)
    (hs : s.step a = some s') : s' = s.returnShutdown t := by
  have hset {P : Prop} (hunset : s.pool.shutdownFinished = false) : P := by
    rw [hfinished] at hunset
    cases hunset
  rcases ha with rfl | rfl
  · cases step_view hs with
    | entersFinished => rfl
    | entersAsWorker _ _ hunset => exact hset hunset
    | waits _ _ hunset => exact hset hunset
    | released _ _ hunset => exact hset hunset
  · cases step_view hs with
    | awoke => rfl

/-- A return on the flag leaves the pool shut down exactly behind an idle releaser. -/
theorem shutDown_iff_releaserIdle (h : (poolSystem Tid Task workers).Reachable s) {t : Tid}
    {a : PoolAction Tid Task} (ha : a = .enter t ∨ a = .awake t)
    (hfinished : s.pool.shutdownFinished = true) (hs : s.step a = some s') :
    ShutDown workers s' ↔ ReleaserIdle workers s := by
  constructor
  · intro hdown worker _ _
    have hresult := returnShutdown_of_finished ha hfinished hs
    subst hresult
    refine ⟨by simpa only [returnShutdown, setCall_loop] using hdown.idle worker, ?_⟩
    by_contra hne
    obtain ⟨posted, hmem⟩ := List.exists_mem_of_ne_nil _ hne
    have htickets := ticketInvariant_of_reachable h
    -- a queued task is accepted and not even started
    have hpushed : posted.ticket ∈ s.history.pushed := by
      rw [htickets.pushed_eq]
      exact List.mem_append_right _ (List.mem_map_of_mem hmem)
    exact htickets.queued_fresh hmem
      ((runInvariant_of_reachable h).finished_started _ (hdown.finished _ hpushed))
  · intro hidle
    have hdrained := drained_of_releaserIdle h hfinished hidle
    exact (hdrained.step hs).1.shutDown (h.step hs)

/-- External shutdown means drained, in every run where an external call that returns on
the finished flag finds the thread that took over the handles idle; the return of a call
that finds it busy breaks the promise. -/
theorem external_shutdown_drains (workers : PoolWorkers Tid) :
    (∀ s : PoolState Tid Task,
      (poolSystem Tid Task workers).ReachableVia (ReturnsAfterReleaser workers) s →
      ∀ t ∈ s.history.shutdowns, t ∉ workers.ids → ShutDown workers s) ∧
    ∀ (s s' : PoolState Tid Task) (a : PoolAction Tid Task),
      (poolSystem Tid Task workers).Reachable s → ¬ ReturnsAfterReleaser workers s a →
      s.step a = some s' →
      ∃ t ∈ s'.history.shutdowns, t ∉ workers.ids ∧ ¬ ShutDown workers s' := by
  constructor
  · intro s hs t hmem ht
    exact (drained_of_external_return hs ht hmem).shutDown hs.reachable
  · intro s s' a hs hbusy hstep
    have hreturn (t : Tid) (ha : a = .enter t ∨ a = .awake t)
        (hnot : ¬ (t ∉ workers.ids → s.pool.shutdownFinished = true → ReleaserIdle workers s)) :
        ∃ t ∈ s'.history.shutdowns, t ∉ workers.ids ∧ ¬ ShutDown workers s' := by
      push Not at hnot
      obtain ⟨ht, hfinished, hidle⟩ := hnot
      refine ⟨t, ?_, ht, fun hdown => hidle ?_⟩
      · rw [returnShutdown_of_finished ha hfinished hstep]
        exact List.mem_append_right _ (List.mem_singleton_self t)
      · exact (shutDown_iff_releaserIdle hs ha hfinished hstep).mp hdown
    cases a with
    | enter t => exact hreturn t (.inl rfl) hbusy
    | awake t => exact hreturn t (.inr rfl) hbusy
    | _ => exact absurd trivial hbusy

/-- Thread 0 shuts down from outside while the only worker runs a task, waits for the
worker to drain the queue and joins it. -/
theorem external_shutdown_drains_joined :
    ∃ s : PoolState (Fin 2) ℕ, s.history.shutdowns = [0] ∧ s.history.pushed = [0, 1] ∧
      ShutDown ⟨[1], by decide, by decide⟩ s := by
  obtain ⟨s, hs, hp⟩ :=
    (poolSystem (Fin 2) ℕ ⟨[1], by decide, by decide⟩).exists_reachableVia_of_run
      (ReturnsAfterReleaser ⟨[1], by decide, by decide⟩)
      { pool := { workers := [1] }
        threads := fun t => if t ∈ [1] then { loop := .popping } else {} }
      [.post 0 (some 5), .count 0, .push 0 false, .postReturn 0, .pop 1, .post 0 (some 6),
        .count 0, .push 0 false, .postReturn 0, .shutdown 0, .close 0, .enter 0, .taskEnd 1 false,
        .countCompleted 1, .pop 1, .taskEnd 1 false, .countCompleted 1, .pop 1, .join 0,
        .finishShutdown 0]
      (fun s => s.history.shutdowns == [0] && s.history.pushed == [0, 1])
      rfl (by decide)
  simp only [Bool.and_eq_true, beq_iff_eq] at hp
  refine ⟨s, hp.1, hp.2, (external_shutdown_drains _).1 s hs 0 ?_ (by decide)⟩
  rw [hp.1]
  exact List.mem_singleton_self 0

/-- The only worker shuts down from inside its task: it detaches itself and sets the flag,
and thread 0 returns while the task is still running. -/
theorem worker_shutdown_ends_external_wait :
    ¬ ∀ s : PoolState (Fin 2) ℕ,
      (poolSystem (Fin 2) ℕ ⟨[1], by decide, by decide⟩).Reachable s →
      ∀ t ∈ s.history.shutdowns, t ∉ [1] → ShutDown ⟨[1], by decide, by decide⟩ s := by
  intro hall
  obtain ⟨s, hs, hp⟩ :=
    (poolSystem (Fin 2) ℕ ⟨[1], by decide, by decide⟩).exists_reachable_of_run
      { pool := { workers := [1] }
        threads := fun t => if t ∈ [1] then { loop := .popping } else {} }
      [.post 0 (some 5), .count 0, .push 0 false, .postReturn 0, .pop 1, .shutdown 1, .close 1,
        .enter 1, .join 1, .finishShutdown 1, .shutdown 0, .close 0, .enter 0]
      (fun s => s.history.shutdowns == [1, 0] && (s.threads 1).loop.isRunning)
      rfl (by decide)
  simp only [Bool.and_eq_true, beq_iff_eq] at hp
  have hdown := hall s hs 0 (by rw [hp.1]; decide) (by decide)
  rw [hdown.idle 1] at hp
  cases hp.2

end PoolState
end RobotMiddleware
