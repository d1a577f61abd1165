import RobotMiddleware.ThreadPoolSteps

/-! Every task goes once through the queue and once through a worker. Tasks are told apart
by the number of the `post` call that brought them. -/
namespace RobotMiddleware
namespace PoolState
variable {Tid Task : Type} {s s' : PoolState Tid Task}

/-- Tickets on their way into the queue. A ticket is drawn by one `post`, is pushed at most
once, and `post` says `true` exactly when it was pushed. -/
structure TicketInvariant (s : PoolState Tid Task) : Prop where
  pushed_eq : s.history.pushed =
    s.history.started ++ s.pool.tasks.queue.map PostedTask.ticket
  pushed_nodup : s.history.pushed.Nodup
  pushed_lt : ∀ k ∈ s.history.pushed, k < s.history.posts
  unpushed : ∀ t posted, (s.threads t).call.unpushed = some posted →
    posted.ticket < s.history.posts ∧ posted.ticket ∉ s.history.pushed ∧
      ∀ result, (posted.ticket, result) ∉ s.history.returns
  unpushed_inj : ∀ t u posted other, (s.threads t).call.unpushed = some posted →
    (s.threads u).call.unpushed = some other → posted.ticket = other.ticket → t = u
  pushed_call : ∀ t posted, (s.threads t).call = .pushed posted →
    posted.ticket ∈ s.history.pushed
  returned : ∀ k result, (k, result) ∈ s.history.returns →
    k < s.history.posts ∧ (result = .accepted ↔ k ∈ s.history.pushed)

/-- Tickets at the workers. A started task is finished or still running, each on its own
worker, and a worker leaves only a closed and drained queue. -/
structure RunInvariant (workers : PoolWorkers Tid) (s : PoolState Tid Task) : Prop where
  started : ∀ k ∈ s.history.started, k ∈ s.history.finished ∨
    ∃ t posted, (s.threads t).loop = .running posted ∧ posted.ticket = k
  finished_started : ∀ k ∈ s.history.finished, k ∈ s.history.started
  finished_nodup : s.history.finished.Nodup
  running : ∀ t posted, (s.threads t).loop = .running posted →
    posted.ticket ∈ s.history.started ∧ posted.ticket ∉ s.history.finished
  running_inj : ∀ t u posted other, (s.threads t).loop = .running posted →
    (s.threads u).loop = .running other → posted.ticket = other.ticket → t = u
  left : ∀ t, (s.threads t).loop = .left →
    s.pool.tasks.closed = true ∧ s.pool.tasks.queue = []
  worker : ∀ t, (s.threads t).loop ≠ .none ↔ t ∈ workers.ids

namespace TicketInvariant

theorem initial (workers : List Tid) {threads : Tid → PoolThread Tid Task}
    (hcall : ∀ t, (threads t).call = .none) :
    TicketInvariant { pool := { workers := workers }, threads := threads } := by
  refine ⟨rfl, List.nodup_nil, by simp, ?_, ?_, ?_, by simp⟩ <;> simp [hcall, PoolCall.unpushed]

/-- Steps that touch neither the queue nor its record, and move calls without giving a
caller a ticket it did not have. -/
theorem keep (h : TicketInvariant s) {pool : ThreadPool Tid Task}
    {threads : Tid → PoolThread Tid Task} {history : PoolHistory Tid}
    (hqueue : pool.tasks.queue = s.pool.tasks.queue)
    (hposts : history.posts = s.history.posts) (hreturns : history.returns = s.history.returns)
    (hpushed : history.pushed = s.history.pushed) (hstarted : history.started = s.history.started)
    (hunpushed : ∀ t posted, (threads t).call.unpushed = some posted →
      (s.threads t).call.unpushed = some posted)
    (hcall : ∀ t posted, (threads t).call = .pushed posted → (s.threads t).call = .pushed posted) :
    TicketInvariant ⟨pool, threads, history⟩ := by
  refine ⟨?_, ?_, ?_, fun t posted ht => ?_, fun t u posted other ht hu => ?_,
    fun t posted ht => ?_, ?_⟩
  · simpa only [hqueue, hpushed, hstarted] using h.pushed_eq
  · simpa only [hpushed] using h.pushed_nodup
  · simpa only [hpushed, hposts] using h.pushed_lt
  · simpa only [hposts, hpushed, hreturns] using h.unpushed t posted (hunpushed t posted ht)
  · exact h.unpushed_inj t u posted other (hunpushed t posted ht) (hunpushed u other hu)
  · simpa only [hpushed] using h.pushed_call t posted (hcall t posted ht)
  · simpa only [hreturns, hposts, hpushed] using h.returned

/-- A new ticket is larger than every ticket before it. -/
theorem draw (h : TicketInvariant s) :
    TicketInvariant { s with history := { s.history with posts := s.history.posts + 1 } } := by
  refine ⟨h.pushed_eq, h.pushed_nodup, fun k hk => ?_, fun t posted ht => ?_, h.unpushed_inj,
    h.pushed_call, fun k result hk => ?_⟩
  · exact Nat.lt_succ_of_lt (h.pushed_lt k hk)
  · obtain ⟨hlt, hnew, hreturns⟩ := h.unpushed t posted ht
    exact ⟨Nat.lt_succ_of_lt hlt, hnew, hreturns⟩
  · obtain ⟨hlt, hresult⟩ := h.returned k result hk
    exact ⟨Nat.lt_succ_of_lt hlt, hresult⟩

variable [DecidableEq Tid]

/-- `post` comes back with `result` for a ticket that is pushed exactly if it says so. -/
theorem returnPost (h : TicketInvariant s) {t : Tid} {ticket : ℕ} {result : PostReturn}
    (hlt : ticket < s.history.posts) (hresult : result = .accepted ↔ ticket ∈ s.history.pushed)
    (hother : ∀ u posted, u ≠ t → (s.threads u).call.unpushed = some posted →
      posted.ticket ≠ ticket) :
    TicketInvariant (s.returnPost t ticket result) := by
  have hset (u : Tid) (posted : PostedTask Task)
      (hu : (setCall s.threads t .none u).call.unpushed = some posted) :
      u ≠ t ∧ (s.threads u).call.unpushed = some posted := by
    rw [setCall_call] at hu
    split at hu
    case isTrue => cases hu
    case isFalse hne => exact ⟨hne, hu⟩
  refine ⟨h.pushed_eq, h.pushed_nodup, h.pushed_lt, fun u posted hu => ?_,
    fun u v posted other hu hv => ?_, fun u posted hu => ?_, fun k r hk => ?_⟩
  · obtain ⟨hne, hu⟩ := hset u posted hu
    obtain ⟨hposts, hnew, hreturns⟩ := h.unpushed u posted hu
    refine ⟨hposts, hnew, fun r hr => ?_⟩
    rcases List.mem_append.mp hr with hold | hlast
    · exact hreturns r hold
    · exact hother u posted hne hu (Prod.mk.inj (List.mem_singleton.mp hlast)).1
  · exact h.unpushed_inj u v posted other (hset u posted hu).2 (hset v other hv).2
  · apply h.pushed_call u posted
    simp only [PoolState.returnPost, setCall_call] at hu
    split at hu
    case isTrue => cases hu
    case isFalse => exact hu
  · rcases List.mem_append.mp hk with hold | hlast
    · exact h.returned k r hold
    · cases List.mem_singleton.mp hlast
      exact ⟨hlt, hresult⟩

/-- A call moves on without a ticket it did not have. -/
theorem move (h : TicketInvariant s) {t : Tid} {call : PoolCall Tid Task}
    {pool : ThreadPool Tid Task} {history : PoolHistory Tid}
    (hqueue : pool.tasks.queue = s.pool.tasks.queue)
    (hposts : history.posts = s.history.posts) (hreturns : history.returns = s.history.returns)
    (hpushed : history.pushed = s.history.pushed) (hstarted : history.started = s.history.started)
    (hunpushed : ∀ posted, call.unpushed = some posted →
      (s.threads t).call.unpushed = some posted)
    (hcall : ∀ posted, call ≠ .pushed posted) :
    TicketInvariant ⟨pool, setCall s.threads t call, history⟩ := by
  refine h.keep hqueue hposts hreturns hpushed hstarted (fun u posted hu => ?_)
    (fun u posted hu => ?_)
  · rw [setCall_call] at hu
    split at hu
    case isTrue hut => subst hut; exact hunpushed posted hu
    case isFalse => exact hu
  · rw [setCall_call] at hu
    split at hu
    case isTrue => exact absurd hu (hcall posted)
    case isFalse => exact hu

/-- The worker loop does not touch the calls. -/
theorem loop (h : TicketInvariant s) {t : Tid} {loop : WorkerState Task}
    {pool : ThreadPool Tid Task} {finished : List ℕ}
    (hqueue : pool.tasks.queue = s.pool.tasks.queue) :
    TicketInvariant ⟨pool, setLoop s.threads t loop, { s.history with finished := finished }⟩ :=
  h.keep hqueue rfl rfl rfl rfl (fun u posted hu => by simpa only [setLoop_call] using hu)
    (fun u posted hu => by simpa only [setLoop_call] using hu)

theorem posting (h : TicketInvariant s) (t : Tid) (task : Task) :
    TicketInvariant { s with
      threads := setCall s.threads t (.counting ⟨s.history.posts, task⟩)
      history := { s.history with posts := s.history.posts + 1 } } := by
  have hold {u : Tid} {posted : PostedTask Task}
      (hu : (s.threads u).call.unpushed = some posted) : posted.ticket ≠ s.history.posts := by
    have hlt := (h.unpushed u posted hu).1
    omega
  refine ⟨h.pushed_eq, h.pushed_nodup, h.draw.pushed_lt, fun u posted hu => ?_,
    fun u v posted other hu hv heq => ?_, fun u posted hu => ?_, h.draw.returned⟩
  · simp only [setCall_call] at hu
    split at hu
    case isTrue hut =>
      cases hu
      refine ⟨Nat.lt_succ_self _, fun hmem => ?_, fun result hmem => ?_⟩
      · exact absurd (h.pushed_lt _ hmem) (lt_irrefl _)
      · exact absurd (h.returned _ _ hmem).1 (lt_irrefl _)
    case isFalse => exact h.draw.unpushed u posted hu
  · simp only [setCall_call] at hu hv
    split at hu <;> split at hv
    case isTrue.isTrue hut hvt => exact hut.trans hvt.symm
    case isTrue.isFalse => cases hu; exact absurd heq.symm (hold hv)
    case isFalse.isTrue => cases hv; exact absurd heq (hold hu)
    case isFalse.isFalse => exact h.unpushed_inj u v posted other hu hv heq
  · simp only [setCall_call] at hu
    split at hu
    case isTrue => cases hu
    case isFalse => exact h.pushed_call u posted hu

/-- The push makes the ticket of the caller a pushed one, and nobody else's. -/
theorem pushed (h : TicketInvariant s) {t : Tid} {posted : PostedTask Task}
    (hcall : (s.threads t).call = .pushing posted) :
    TicketInvariant { s with
      pool := { s.pool with tasks := { s.pool.tasks with
        queue := s.pool.tasks.queue ++ [posted] } }
      threads := setCall s.threads t (.pushed posted)
      history := { s.history with pushed := s.history.pushed ++ [posted.ticket] } } := by
  have hself : (s.threads t).call.unpushed = some posted := by rw [hcall]; rfl
  obtain ⟨hlt, hnew, hreturns⟩ := h.unpushed t posted hself
  refine ⟨?_, ?_, fun k hk => ?_, fun u other hu => ?_, fun u v first second hu hv => ?_,
    fun u other hu => ?_, fun k result hk => ?_⟩
  · simp only [h.pushed_eq, List.map_append, List.map_cons, List.map_nil, List.append_assoc]
  · exact h.pushed_nodup.append (List.nodup_singleton _)
      (List.disjoint_singleton.mpr hnew)
  · rcases List.mem_append.mp hk with hk | hk
    · exact h.pushed_lt k hk
    · rw [List.mem_singleton.mp hk]
      exact hlt
  · simp only [setCall_call] at hu
    split at hu
    case isTrue => cases hu
    case isFalse hut =>
      obtain ⟨hlt', hnew', hreturns'⟩ := h.unpushed u other hu
      refine ⟨hlt', fun hmem => ?_, hreturns'⟩
      rcases List.mem_append.mp hmem with hmem | hmem
      · exact hnew' hmem
      · exact hut (h.unpushed_inj u t other posted hu hself (List.mem_singleton.mp hmem))
  · simp only [setCall_call] at hu hv
    split at hu
    case isTrue => cases hu
    case isFalse =>
      split at hv
      case isTrue => cases hv
      case isFalse => exact h.unpushed_inj u v first second hu hv
  · simp only [setCall_call] at hu
    split at hu
    case isTrue => cases hu; exact List.mem_append_right _ (List.mem_singleton_self _)
    case isFalse => exact List.mem_append_left _ (h.pushed_call u other hu)
  · obtain ⟨hlt', hresult⟩ := h.returned k result hk
    refine ⟨hlt', hresult.trans ⟨List.mem_append_left _, fun hmem => ?_⟩⟩
    rcases List.mem_append.mp hmem with hmem | hmem
    · exact hmem
    · rw [List.mem_singleton.mp hmem] at hk
      exact absurd hk (hreturns result)

theorem step {a : PoolAction Tid Task} (h : TicketInvariant s) (hs : s.step a = some s') :
    TicketInvariant s' := by
  cases step_view hs with
  | refused t task hcall hrefused =>
    refine h.draw.returnPost (Nat.lt_succ_self _) ?_ fun u posted _ hu => ?_
    · simp only [reduceCtorEq, false_iff]
      intro hmem
      exact absurd (h.pushed_lt _ hmem) (lt_irrefl _)
    · have hlt := (h.unpushed u posted hu).1
      omega
  | posting t task hcall haccepting => exact h.posting t task
  | counted t posted hcall =>
    exact h.move rfl rfl rfl rfl rfl (fun other ho => by rw [hcall]; exact ho) (by simp)
  | pushed t posted hcall hopen => exact h.pushed hcall
  | notPushed t posted allocationFails threw hcall =>
    exact h.move rfl rfl rfl rfl rfl (fun other ho => by rw [hcall]; exact ho) (by simp)
  | postReturned t posted hcall =>
    have hmem := h.pushed_call t posted hcall
    refine h.returnPost (h.pushed_lt _ hmem) (by simp only [true_iff]; exact hmem) ?_
    intro u other _ hu heq
    exact (h.unpushed u other hu).2.1 (heq ▸ hmem)
  | rolledBack t posted threw hcall =>
    have hself : (s.threads t).call.unpushed = some posted := by rw [hcall]; rfl
    obtain ⟨hlt, hnew, -⟩ := h.unpushed t posted hself
    have hpool : TicketInvariant { s with
        pool := { s.pool with submitted := s.pool.submitted - 1 } } :=
      h.keep rfl rfl rfl rfl rfl (fun _ _ ht => ht) (fun _ _ ht => ht)
    refine hpool.returnPost hlt ?_ fun u other hne hu heq => ?_
    · cases threw <;> simpa using hnew
    · exact hne (h.unpushed_inj u t other posted hu hself heq)
  | popped t posted rest hloop hqueue =>
    -- the head of the queue becomes the last started ticket
    have hloop : TicketInvariant { s with threads := setLoop s.threads t (.running posted) } :=
      h.loop rfl
    refine ⟨?_, hloop.pushed_nodup, hloop.pushed_lt, hloop.unpushed, hloop.unpushed_inj,
      hloop.pushed_call, hloop.returned⟩
    simp only [h.pushed_eq, hqueue, List.map_cons, List.append_assoc, List.singleton_append]
  | leaves t hloop hqueue hclosed => exact h.loop rfl
  | taskEnd t posted threw hcall hloop => exact h.loop rfl
  | countedFailed t posted hloop => exact h.loop rfl
  | countedCompleted t posted threw hloop => exact h.loop rfl
  | shutdown | closed | entersFinished | entersAsWorker | waits | released | joined | finished
    | awoke =>
    exact h.move rfl rfl rfl rfl rfl (fun other ho => by cases ho) (by simp)

end TicketInvariant
/-- A queued ticket has not been started. -/
theorem TicketInvariant.queued_fresh (h : TicketInvariant s) {posted : PostedTask Task}
    (hmem : posted ∈ s.pool.tasks.queue) : posted.ticket ∉ s.history.started := by
  have hnodup := h.pushed_nodup
  rw [h.pushed_eq, List.nodup_append] at hnodup
  intro hstarted
  exact hnodup.2.2 _ hstarted _ (List.mem_map_of_mem hmem) rfl

namespace RunInvariant
variable {workers : PoolWorkers Tid}

/-- Steps outside the worker loops. -/
theorem keep (h : RunInvariant workers s) {pool : ThreadPool Tid Task}
    {threads : Tid → PoolThread Tid Task} {history : PoolHistory Tid}
    (hloop : ∀ u, (threads u).loop = (s.threads u).loop)
    (hstarted : history.started = s.history.started)
    (hfinished : history.finished = s.history.finished)
    (hleft : s.pool.tasks.closed = true ∧ s.pool.tasks.queue = [] →
      pool.tasks.closed = true ∧ pool.tasks.queue = []) :
    RunInvariant workers ⟨pool, threads, history⟩ := by
  refine ⟨?_, ?_, ?_, fun t posted ht => ?_, fun t u posted other ht hu => ?_, fun t ht => ?_,
    fun t => ?_⟩
  · simpa only [hstarted, hfinished, hloop] using h.started
  · simpa only [hstarted, hfinished] using h.finished_started
  · simpa only [hfinished] using h.finished_nodup
  · rw [hloop] at ht
    simpa only [hstarted, hfinished] using h.running t posted ht
  · rw [hloop] at ht hu
    exact h.running_inj t u posted other ht hu
  · rw [hloop] at ht
    exact hleft (h.left t ht)
  · rw [hloop]
    exact h.worker t

variable [DecidableEq Tid]

/-- A worker between two tasks, or past its last one, runs none. -/
theorem setLoop (h : RunInvariant workers s) {t : Tid} {loop : WorkerState Task}
    {pool : ThreadPool Tid Task} (htasks : pool.tasks = s.pool.tasks)
    (hold : (s.threads t).loop ≠ .none ∧ ∀ posted, (s.threads t).loop ≠ .running posted)
    (hnew : loop ≠ .none ∧ ∀ posted, loop ≠ .running posted)
    (hleft : loop = .left → s.pool.tasks.closed = true ∧ s.pool.tasks.queue = []) :
    RunInvariant workers { s with pool := pool, threads := setLoop s.threads t loop } := by
  have hset (u : Tid) (posted : PostedTask Task)
      (hu : (PoolState.setLoop s.threads t loop u).loop = .running posted) :
      (s.threads u).loop = .running posted := by
    rw [setLoop_loop] at hu
    split at hu
    case isTrue => exact absurd hu (hnew.2 posted)
    case isFalse => exact hu
  refine ⟨fun k hk => ?_, h.finished_started, h.finished_nodup,
    fun u posted hu => h.running u posted (hset u posted hu),
    fun u v posted other hu hv => h.running_inj u v posted other (hset u posted hu) (hset v other hv),
    fun u hu => ?_, fun u => ?_⟩
  · refine (h.started k hk).imp_right ?_
    rintro ⟨u, posted, hu, hticket⟩
    have hut : u ≠ t := by
      rintro rfl
      exact hold.2 posted hu
    exact ⟨u, posted, by simpa [hut] using hu, hticket⟩
  · rw [htasks]
    simp only [setLoop_loop] at hu
    split at hu
    case isTrue => exact hleft hu
    case isFalse => exact h.left u hu
  · simp only [setLoop_loop]
    split
    case isTrue hut =>
      subst hut
      exact iff_of_true hnew.1 ((h.worker u).mp hold.1)
    case isFalse => exact h.worker u

theorem popped (h : RunInvariant workers s) (htickets : TicketInvariant s) {t : Tid}
    {posted : PostedTask Task} {rest : List (PostedTask Task)}
    (hloop : (s.threads t).loop = .popping) (hqueue : s.pool.tasks.queue = posted :: rest) :
    RunInvariant workers { s with
      pool := { s.pool with tasks := { s.pool.tasks with queue := rest } }
      threads := PoolState.setLoop s.threads t (.running posted)
      history := { s.history with started := s.history.started ++ [posted.ticket] } } := by
  have hfresh : posted.ticket ∉ s.history.started :=
    htickets.queued_fresh (by rw [hqueue]; exact List.mem_cons_self)
  have hother (u : Tid) (other : PostedTask Task) (hu : (s.threads u).loop = .running other) :
      other.ticket ≠ posted.ticket := by
    intro heq
    exact hfresh (heq ▸ (h.running u other hu).1)
  refine ⟨fun k hk => ?_, fun k hk => ?_, h.finished_nodup, fun u other hu => ?_,
    fun u v first second hu hv heq => ?_, fun u hu => ?_, fun u => ?_⟩
  · rcases List.mem_append.mp hk with hk | hk
    · refine (h.started k hk).imp_right ?_
      rintro ⟨u, other, hu, hticket⟩
      have hut : u ≠ t := by
        rintro rfl
        rw [hloop] at hu
        cases hu
      exact ⟨u, other, by simpa [hut] using hu, hticket⟩
    · exact .inr ⟨t, posted, by simp, (List.mem_singleton.mp hk).symm⟩
  · exact List.mem_append_left _ (h.finished_started k hk)
  · simp only [setLoop_loop] at hu
    split at hu
    case isTrue =>
      cases hu
      refine ⟨List.mem_append_right _ (List.mem_singleton_self _), fun hmem => ?_⟩
      exact hfresh (h.finished_started _ hmem)
    case isFalse =>
      obtain ⟨hstarted, hunfinished⟩ := h.running u other hu
      exact ⟨List.mem_append_left _ hstarted, hunfinished⟩
  · simp only [setLoop_loop] at hu hv
    split at hu <;> split at hv
    case isTrue.isTrue hut hvt => exact hut.trans hvt.symm
    case isTrue.isFalse => cases hu; exact absurd heq.symm (hother v second hv)
    case isFalse.isTrue => cases hv; exact absurd heq (hother u first hu)
    case isFalse.isFalse => exact h.running_inj u v first second hu hv heq
  · -- a worker that has left saw an empty queue, and this one is not
    simp only [setLoop_loop] at hu
    split at hu
    case isTrue => cases hu
    case isFalse =>
      obtain ⟨-, hempty⟩ := h.left u hu
      rw [hqueue] at hempty
      cases hempty
  · simp only [setLoop_loop]
    split
    case isTrue hut =>
      subst hut
      exact iff_of_true (by simp) ((h.worker u).mp (by simp [hloop]))
    case isFalse => exact h.worker u

theorem taskEnd (h : RunInvariant workers s) {t : Tid} {posted : PostedTask Task}
    {loop : WorkerState Task} (hloop : (s.threads t).loop = .running posted)
    (hnew : loop = .failing posted ∨ loop = .completing posted false) :
    RunInvariant workers { s with
      threads := PoolState.setLoop s.threads t loop
      history := { s.history with finished := s.history.finished ++ [posted.ticket] } } := by
  obtain ⟨hstarted, hunfinished⟩ := h.running t posted hloop
  have hset (u : Tid) (other : PostedTask Task)
      (hu : (PoolState.setLoop s.threads t loop u).loop = .running other) :
      u ≠ t ∧ (s.threads u).loop = .running other := by
    rw [setLoop_loop] at hu
    split at hu
    case isTrue =>
      subst hu
      rcases hnew with hnew | hnew <;> cases hnew
    case isFalse hut => exact ⟨hut, hu⟩
  refine ⟨fun k hk => ?_, fun k hk => ?_, ?_, fun u other hu => ?_,
    fun u v first second hu hv => ?_, fun u hu => ?_, fun u => ?_⟩
  · rcases h.started k hk with hk | ⟨u, other, hu, rfl⟩
    · exact .inl (List.mem_append_left _ hk)
    · by_cases hut : u = t
      · subst hut
        rw [hloop] at hu
        cases hu
        exact .inl (List.mem_append_right _ (List.mem_singleton_self _))
      · exact .inr ⟨u, other, by simpa [hut] using hu, rfl⟩
  · rcases List.mem_append.mp hk with hk | hk
    · exact h.finished_started k hk
    · rw [List.mem_singleton.mp hk]
      exact hstarted
  · exact h.finished_nodup.append (List.nodup_singleton _) (List.disjoint_singleton.mpr hunfinished)
  · obtain ⟨hut, hu⟩ := hset u other hu
    obtain ⟨hstarted', hunfinished'⟩ := h.running u other hu
    refine ⟨hstarted', fun hmem => ?_⟩
    rcases List.mem_append.mp hmem with hmem | hmem
    · exact hunfinished' hmem
    · exact hut (h.running_inj u t other posted hu hloop (List.mem_singleton.mp hmem))
  · exact h.running_inj u v first second (hset u first hu).2 (hset v second hv).2
  · simp only [setLoop_loop] at hu
    split at hu
    case isTrue =>
      subst hu
      rcases hnew with hnew | hnew <;> cases hnew
    case isFalse => exact h.left u hu
  · simp only [setLoop_loop]
    split
    case isTrue hut =>
      subst hut
      refine iff_of_true ?_ ((h.worker u).mp (by simp [hloop]))
      rcases hnew with rfl | rfl <;> simp
    case isFalse => exact h.worker u

theorem step {a : PoolAction Tid Task} (htickets : TicketInvariant s)
    (h : RunInvariant workers s) (hs : s.step a = some s') : RunInvariant workers s' := by
  cases step_view hs with
  | pushed t posted hcall hopen =>
    refine h.keep (fun u => by simp) rfl rfl ?_
    rintro ⟨hclosed, -⟩
    rw [hopen] at hclosed
    cases hclosed
  | popped t posted rest hloop hqueue => exact h.popped htickets hloop hqueue
  | leaves t hloop hqueue hclosed =>
    exact h.setLoop rfl (by simp [hloop]) (by simp) (fun _ => ⟨hclosed, hqueue⟩)
  | taskEnd t posted threw hcall hloop =>
    refine h.taskEnd hloop ?_
    cases threw
    · exact .inr rfl
    · exact .inl rfl
  | countedFailed t posted hloop => exact h.setLoop rfl (by simp [hloop]) (by simp) (by simp)
  | countedCompleted t posted threw hloop =>
    exact h.setLoop rfl (by simp [hloop]) (by simp) (by simp)
  | closed t hcall => exact h.keep (fun u => by simp) rfl rfl (fun hleft => ⟨rfl, hleft.2⟩)
  | refused | rolledBack | postReturned | entersFinished | entersAsWorker | finished | awoke =>
    exact h.keep (fun u => setCall_loop _ _ _ _) rfl rfl id
  | posting | counted | notPushed | shutdown | waits | released | joined =>
    exact h.keep (fun u => setCall_loop _ _ _ _) rfl rfl id

end RunInvariant

variable [DecidableEq Tid] {workers : PoolWorkers Tid}

theorem ticketInvariant_of_reachable (h : (poolSystem Tid Task workers).Reachable s) :
    TicketInvariant s := by
  refine TransitionSystem.Reachable.invariant ?_ (fun s a s' _ hs hstep => hs.step hstep) h
  rintro s rfl
  refine .initial _ fun t => ?_
  split <;> rfl

theorem runInvariant_of_reachable (h : (poolSystem Tid Task workers).Reachable s) :
    RunInvariant workers s := by
  refine TransitionSystem.Reachable.invariant ?_
    (fun s a s' hr hs hstep => hs.step (ticketInvariant_of_reachable hr) hstep) h
  rintro s rfl
  refine ⟨by simp, by simp, List.nodup_nil, fun t posted ht => ?_, fun t u posted other ht => ?_,
    fun t ht => ?_, fun t => ?_⟩
  · dsimp only at ht
    split at ht <;> cases ht
  · dsimp only at ht
    split at ht <;> cases ht
  · dsimp only at ht
    split at ht <;> cases ht
  · by_cases hmem : t ∈ workers.ids <;> simp [hmem]

end PoolState
end RobotMiddleware
