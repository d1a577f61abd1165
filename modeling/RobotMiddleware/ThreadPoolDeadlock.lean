import RobotMiddleware.ThreadPoolWaits

/-! `shutdown` never deadlocks: the owner of the handles waits only for workers that have not
ended, no worker waits for the owner, and every sleeper has a notification coming. -/
namespace RobotMiddleware
open ConditionVariable

namespace PoolRun
variable {Tid Task : Type} [DecidableEq Tid] {s s' : PoolRun Tid Task}
  {workers : PoolWorkers Tid}

/-! ### The flag and the handles -/

/-- Who sleeps on `shutdown_complete_` waits for the flag, and while somebody still sleeps behind
a set flag the notification is to come. -/
structure CompleteInvariant (s : PoolRun Tid Task) : Prop where
  asleep : ∀ t ∈ s.complete.asleep, (s.pool.threads t).call = .waitingFinished
  signalled : s.pool.pool.shutdownFinished = true → s.complete.asleep ≠ [] → s.notifying ≠ []

/-- A step of the pool that does not set the flag. -/
theorem CompleteInvariant.pool_step {a : PoolAction Tid Task} {pool : PoolState Tid Task}
    (h : CompleteInvariant s) (hcalls : s.pool.ShutdownCalls) (hpool : s.pool.step a = some pool)
    (hawake : ∀ t, a = .awake t → t ∉ s.complete.asleep) (hset : ∀ t, a ≠ .finishShutdown t)
    (hs' : s'.pool = pool) (hcomplete : s'.complete = s.complete)
    (hnotifying : s'.notifying = s.notifying) : CompleteInvariant s' := by
  constructor
  · intro t ht
    rw [hcomplete] at ht
    have hwaiting := h.asleep t ht
    rw [hs']
    by_cases hthread : t = a.thread
    · subst hthread
      obtain ⟨u, rfl⟩ := PoolState.awake_of_waiting hcalls hpool hwaiting
      exact absurd ht (hawake u rfl)
    · rw [PoolState.threads_of_step hpool hthread]
      exact hwaiting
  · rw [hs', hcomplete, hnotifying]
    intro hfinished
    refine h.signalled ?_
    rcases PoolState.flags_of_step hpool with ⟨-, hsame⟩ | ⟨-, hsame⟩ | ⟨t, ha, -⟩
    · exact hsame ▸ hfinished
    · exact hsame ▸ hfinished
    · exact absurd ha (hset t)

theorem CompleteInvariant.step {a : PoolRunAction Tid Task} (h : CompleteInvariant s)
    (hcalls : s.pool.ShutdownCalls) (hs : s.step a = some s') :
    CompleteInvariant s' := by
  cases step_view hs with
  | plain a pool hat hpool hplain =>
    refine h.pool_step hcalls hpool ?_ ?_ rfl rfl rfl
    · rintro t rfl
      cases hplain
    · rintro t rfl
      cases hplain
  | entered t pool hat hpool =>
    exact h.pool_step hcalls hpool (by rintro u ⟨⟩) (by rintro u ⟨⟩) rfl rfl rfl
  | awoke t pool hat hawake hpool =>
    refine h.pool_step hcalls hpool ?_ (by rintro u ⟨⟩) rfl rfl rfl
    intro u heq
    cases heq
    exact hawake
  | detached t handles pool hat _ hpool =>
    exact h.pool_step hcalls hpool (by rintro u ⟨⟩) (by rintro u ⟨⟩) rfl rfl rfl
  | joined t worker handles pool hat _ _ _ hpool =>
    exact h.pool_step hcalls hpool (by rintro u ⟨⟩) (by rintro u ⟨⟩) rfl rfl rfl
  | waits t pool hat hpool hwaits =>
    have hnext : CompleteInvariant { s with pool := pool } :=
      h.pool_step hcalls hpool (by rintro u ⟨⟩) (by rintro u ⟨⟩) rfl rfl rfl
    constructor
    · intro u hu
      rcases WaitSet.mem_sleep.mp hu with rfl | hu
      · exact hwaits
      · exact hnext.asleep u hu
    · intro hfinished
      have hunset : pool.pool.shutdownFinished = false := by
        cases PoolState.step_view hpool with
        | waits t hcall hunfinished => exact hunfinished
        | entersFinished => simp [PoolState.returnShutdown] at hwaits
        | entersAsWorker => simp [PoolState.returnShutdown] at hwaits
        | released => simp at hwaits
      rw [show pool.pool.shutdownFinished = true from hfinished] at hunset
      cases hunset
  | finished t pool hat hpool =>
    constructor
    · intro u hu
      have hwaiting := h.asleep u hu
      have hne : u ≠ t := by
        rintro rfl
        cases PoolState.step_view hpool with
        | finished t hcall =>
          rw [hcall] at hwaiting
          cases hwaiting
      show (pool.threads u).call = .waitingFinished
      rw [PoolState.threads_of_step hpool hne]
      exact hwaiting
    · exact fun _ _ => List.cons_ne_nil _ _
  | called => exact ⟨h.asleep, h.signalled⟩
  | done t timedOut tasks call returned b pool htasks hdone hb hpool =>
    have hnot : (∀ u, b ≠ .awake u) ∧ ∀ u, b ≠ .finishShutdown u := by
      cases hop : call.op <;> rw [hop] at hb <;> cases hb <;> exact ⟨by rintro u ⟨⟩, by rintro u ⟨⟩⟩
    exact h.pool_step hcalls hpool (fun u hu => absurd hu (hnot.1 u)) hnot.2 rfl rfl rfl
  | inner => exact ⟨h.asleep, h.signalled⟩
  | sleptAgain t hcall hawake hunset =>
    constructor
    · intro u hu
      rcases WaitSet.mem_sleep.mp hu with rfl | hu
      · exact hcall
      · exact h.asleep u hu
    · intro hfinished
      rw [show s.pool.pool.shutdownFinished = true from hfinished] at hunset
      cases hunset
  | wokeComplete t hasleep =>
    constructor
    · intro u hu
      exact h.asleep u (WaitSet.mem_wake.mp hu).1
    · intro hfinished _
      exact h.signalled hfinished (List.ne_nil_of_mem hasleep)
  | notifiedComplete t hnotifying =>
    constructor
    · intro u hu
      cases hu
    · intro _ hne
      exact absurd rfl hne

theorem completeInvariant_of_reachable (h : (poolRunSystem Tid Task workers).Reachable s) :
    CompleteInvariant s := by
  refine h.invariant ?_ (fun s a s' hr hinv hs =>
    hinv.step (PoolState.shutdownCalls_of_reachable (pool_reachable hr)) hs)
  rintro s ⟨pool, -, rfl⟩
  exact ⟨by nofun, fun _ hne => absurd rfl hne⟩

structure HandleInvariant (workers : PoolWorkers Tid) (s : PoolRun Tid Task) : Prop where
  untouched : s.pool.pool.shutdownInProgress = false → s.pool.pool.shutdownFinished = false →
    s.joined = [] ∧ s.detached = []
  joining : ∀ t handles, (s.pool.threads t).call = .joining handles →
    (s.joined.map Prod.snd ++ s.detached ++ handles).Perm workers.ids
  released : s.pool.pool.shutdownFinished = true →
    (s.joined.map Prod.snd ++ s.detached).Perm workers.ids
  others : ∀ entry ∈ s.joined, entry.1 ≠ entry.2

/-- A step of the pool that neither takes over the handles nor sets the flag. -/
theorem HandleInvariant.pool_step {a : PoolAction Tid Task} {pool : PoolState Tid Task}
    (h : HandleInvariant workers s) (hrelease : s.pool.ReleaseInvariant workers)
    (hpool : s.pool.step a = some pool) (hjoin : ∀ t, a ≠ .join t)
    (hset : ∀ t, a ≠ .finishShutdown t) (hs' : s'.pool = pool) (hjoined : s'.joined = s.joined)
    (hdetached : s'.detached = s.detached) : HandleInvariant workers s' := by
  have hflags := PoolState.flags_of_step hpool
  constructor
  · rw [hs', hjoined, hdetached]
    intro hprogress hfinished
    rcases hflags with ⟨hsame, hsame'⟩ | ⟨htrue, -⟩ | ⟨t, ha, -⟩
    · exact h.untouched (hsame ▸ hprogress) (hsame' ▸ hfinished)
    · rw [hprogress] at htrue
      cases htrue
    · exact absurd ha (hset t)
  · rw [hs', hjoined, hdetached]
    intro t handles ht
    rcases PoolState.joining_of_step hpool ht with ⟨ht, -⟩ | ⟨-, rfl, hprogress, hfinished⟩ |
      ⟨worker, ha, -⟩
    · exact h.joining t handles ht
    · obtain ⟨hnone, hworkers⟩ := hrelease.untouched hprogress hfinished
      obtain ⟨hempty, hempty'⟩ := h.untouched hprogress hfinished
      rw [hempty, hempty', hworkers]
      exact List.Perm.refl _
    · exact absurd ha (hjoin t)
  · rw [hs', hjoined, hdetached]
    intro hfinished
    refine h.released ?_
    rcases hflags with ⟨-, hsame⟩ | ⟨-, hsame⟩ | ⟨t, ha, -⟩
    · exact hsame ▸ hfinished
    · exact hsame ▸ hfinished
    · exact absurd ha (hset t)
  · rw [hjoined]
    exact h.others

/-- One handle is joined or detached. -/
theorem HandleInvariant.handle_step {t worker : Tid} {handles : List Tid}
    {pool : PoolState Tid Task} (h : HandleInvariant workers s)
    (hrelease : s.pool.ReleaseInvariant workers)
    (hcall : (s.pool.threads t).call = .joining (worker :: handles))
    (hpool : s.pool.step (.join t) = some pool) (hs' : s'.pool = pool)
    (hlog : (s'.joined.map Prod.snd ++ s'.detached).Perm
      (worker :: (s.joined.map Prod.snd ++ s.detached)))
    (hothers : ∀ entry ∈ s'.joined, entry.1 ≠ entry.2) : HandleInvariant workers s' := by
  obtain ⟨hby, hprogress, hunset, -⟩ := hrelease.joining t _ hcall
  have hflags : pool.pool.shutdownInProgress = true ∧ pool.pool.shutdownFinished = false := by
    rcases PoolState.flags_of_step hpool with ⟨hsame, hsame'⟩ | ⟨htrue, hsame'⟩ | ⟨u, ha, -⟩
    · exact ⟨hsame ▸ hprogress, hsame' ▸ hunset⟩
    · exact ⟨htrue, hsame' ▸ hunset⟩
    · cases ha
  refine ⟨?_, ?_, ?_, hothers⟩
  · rw [hs', hflags.1]
    intro hidle
    cases hidle
  · rw [hs']
    intro u rest hu
    rcases PoolState.joining_of_step hpool hu with ⟨hu, hne⟩ | ⟨ha, -⟩ | ⟨worker', ha, hu⟩
    · -- nobody else has handles
      obtain ⟨hby', -⟩ := hrelease.joining u _ hu
      obtain rfl : t = u := Option.some.inj (hby.symm.trans hby')
      exact absurd rfl hne
    · cases ha
    · obtain rfl : t = u := PoolAction.join.inj ha
      rw [hcall] at hu
      obtain ⟨rfl, rfl⟩ := List.cons.inj (PoolCall.joining.inj hu)
      refine List.Perm.trans ?_ (h.joining t _ hcall)
      refine (hlog.append_right _).trans ?_
      exact List.perm_middle.symm
  · rw [hs', hflags.2]
    intro hfinished
    cases hfinished

theorem HandleInvariant.step {a : PoolRunAction Tid Task} (h : HandleInvariant workers s)
    (hrelease : s.pool.ReleaseInvariant workers) (hs : s.step a = some s') :
    HandleInvariant workers s' := by
  cases step_view hs with
  | plain a pool hat hpool hplain =>
    refine h.pool_step hrelease hpool ?_ ?_ rfl rfl rfl
    · rintro t rfl
      cases hplain
    · rintro t rfl
      cases hplain
  | entered t pool hat hpool =>
    exact h.pool_step hrelease hpool (by rintro u ⟨⟩) (by rintro u ⟨⟩) rfl rfl rfl
  | waits t pool hat hpool =>
    exact h.pool_step hrelease hpool (by rintro u ⟨⟩) (by rintro u ⟨⟩) rfl rfl rfl
  | awoke t pool hat hawake hpool =>
    exact h.pool_step hrelease hpool (by rintro u ⟨⟩) (by rintro u ⟨⟩) rfl rfl rfl
  | detached t handles pool hat hcall hpool =>
    refine h.handle_step hrelease hcall hpool rfl ?_ h.others
    rw [← List.append_assoc]
    exact List.perm_append_singleton t _
  | joined t worker handles pool hat hcall hne _ hpool =>
    refine h.handle_step hrelease hcall hpool rfl ?_ ?_
    · rw [List.map_append, List.append_assoc]
      exact List.perm_middle
    · intro entry hentry
      rcases List.mem_append.mp hentry with hentry | hentry
      · exact h.others entry hentry
      · rw [List.mem_singleton.mp hentry]
        exact fun heq => hne heq.symm
  | finished t pool hat hpool =>
    cases PoolState.step_view hpool with
    | finished t hcall =>
      refine ⟨?_, ?_, ?_, h.others⟩
      · intro _ hunset
        cases hunset
      · intro u handles hu
        have hne : u ≠ t := by
          rintro rfl
          simp [PoolState.returnShutdown] at hu
        rw [show _ = s.pool.threads u from PoolState.threads_of_step hpool hne] at hu
        obtain ⟨hby, -⟩ := hrelease.joining t _ hcall
        obtain ⟨hby', -⟩ := hrelease.joining u _ hu
        exact absurd (Option.some.inj (hby'.symm.trans hby)) hne
      · intro _
        have hperm := h.joining t _ hcall
        rwa [List.append_nil] at hperm
  | done t timedOut tasks call returned b pool htasks hdone hb hpool =>
    have hnot : (∀ u, b ≠ .join u) ∧ ∀ u, b ≠ .finishShutdown u := by
      cases hop : call.op <;> rw [hop] at hb <;> cases hb <;> exact ⟨by rintro u ⟨⟩, by rintro u ⟨⟩⟩
    exact h.pool_step hrelease hpool hnot.1 hnot.2 rfl rfl rfl
  | _ => exact ⟨h.untouched, h.joining, h.released, h.others⟩

theorem handleInvariant_of_reachable (h : (poolRunSystem Tid Task workers).Reachable s) :
    HandleInvariant workers s := by
  refine h.invariant ?_ (fun s a s' hr hinv hs =>
    hinv.step (PoolState.releaseInvariant_of_reachable (pool_reachable hr)) hs)
  rintro s ⟨pool, rfl, rfl⟩
  refine ⟨fun _ _ => ⟨rfl, rfl⟩, ?_, by nofun, by nofun⟩
  intro t handles ht
  dsimp only at ht
  split at ht <;> cases ht

/-! ### No deadlock -/

/-- A worker that has not ended, or a call of `shutdown` that has not returned. -/
def Unfinished (workers : PoolWorkers Tid) (s : PoolRun Tid Task) (t : Tid) : Prop :=
  (t ∈ workers.ids ∧ s.ended t = false) ∨ (s.pool.threads t).call.inShutdown = true ∨
    t ∈ s.notifying

/-- The thread is in a join of a thread that has not ended, or asleep on the flag or in
`wait_pop`. -/
def Blocked (s : PoolRun Tid Task) (t : Tid) : Prop :=
  (∃ worker handles, (s.pool.threads t).call = .joining (worker :: handles) ∧ worker ≠ t ∧
    s.ended worker = false) ∨
  ((s.pool.threads t).call = .waitingFinished ∧ t ∈ s.complete.asleep) ∨
  t ∈ s.tasks.notEmpty.asleep

/-- A sleeper of a closed queue has a closer that still has its notification to make. -/
theorem exists_closer (h : (poolRunSystem Tid Task workers).Reachable s) {t : Tid}
    (hclosed : s.tasks.queue.closed = true) (hasleep : t ∈ s.tasks.notEmpty.asleep) :
    ∃ u, (s.pool.threads u).call = .entering ∧ u ∉ s.tasks.notEmpty.asleep := by
  have htasks := tasks_reachable h
  obtain ⟨u, hall⟩ := (QueueState.notifyInvariant_of_reachable htasks).closing hclosed .notEmpty
    (List.ne_nil_of_mem hasleep)
  obtain ⟨call, returned, hsettled, hop⟩ :=
    (QueueState.closeInvariant_of_reachable htasks).all u _ hall
  refine ⟨u, ?_, ?_⟩
  · have hbehind := (agreement_of_reachable h).settled u call returned hsettled
    rw [hop] at hbehind
    exact hbehind
  · intro hu
    have hwaits := (QueueState.sleepInvariant_of_reachable htasks).sleeping .notEmpty u hu
    rw [QueuePhase.notifies_of_waitsOn hwaits] at hall
    cases hall

/-- Some thread that has not finished is not blocked. -/
theorem exists_unblocked (h : (poolRunSystem Tid Task workers).Reachable s)
    (hclosed : s.tasks.queue.closed = true) (hunfinished : ∃ t, s.Unfinished workers t) :
    ∃ t, s.Unfinished workers t ∧ ¬ s.Blocked t := by
  have hpool := pool_reachable h
  have hcalls := PoolState.shutdownCalls_of_reachable hpool
  have hrelease := PoolState.releaseInvariant_of_reachable hpool
  by_contra hnone
  have hall (t : Tid) (ht : s.Unfinished workers t) : s.Blocked t := by
    by_contra hfree
    exact hnone ⟨t, ht, hfree⟩
  -- nobody is asleep in `wait_pop`
  have hawake (t : Tid) : t ∉ s.tasks.notEmpty.asleep := by
    intro hasleep
    obtain ⟨u, hentering, hu⟩ := exists_closer h hclosed hasleep
    have hblocked := hall u (.inr (.inl (by rw [hentering]; rfl)))
    rcases hblocked with ⟨worker, handles, hcall, -⟩ | ⟨hcall, -⟩ | hasleep'
    · rw [hentering] at hcall
      cases hcall
    · rw [hentering] at hcall
      cases hcall
    · exact hu hasleep'
  -- nobody is asleep behind a flag that is set
  have hunset (t : Tid) (hasleep : t ∈ s.complete.asleep) :
      s.pool.pool.shutdownFinished = false := by
    by_contra hset
    have hnotifying := (completeInvariant_of_reachable h).signalled (by simpa using hset)
      (List.ne_nil_of_mem hasleep)
    obtain ⟨u, hu⟩ := List.exists_mem_of_ne_nil _ hnotifying
    have hcall := ((agreement_of_reachable h).notifying u hu).2.1
    rcases hall u (.inr (.inr hu)) with ⟨worker, handles, hcall', -⟩ | ⟨hcall', -⟩ | hasleep'
    · rw [hcall] at hcall'
      cases hcall'
    · rw [hcall] at hcall'
      cases hcall'
    · exact hawake u hasleep'
  -- nobody joins a thread that has not ended: that one would be a worker that waits itself
  have hjoins (t : Tid) : ¬ ∃ worker handles,
      (s.pool.threads t).call = .joining (worker :: handles) ∧ worker ≠ t ∧
        s.ended worker = false := by
    rintro ⟨worker, handles, hcall, hne, hended⟩
    have hworker : worker ∈ workers.ids :=
      ((handleInvariant_of_reachable h).joining t _ hcall).mem_iff.mp (by simp)
    rcases hall worker (.inl ⟨hworker, hended⟩) with ⟨_, _, hcall', -⟩ | ⟨hcall', -⟩ | hasleep
    · obtain ⟨hby, -⟩ := hrelease.joining t _ hcall
      obtain ⟨hby', -⟩ := hrelease.joining worker _ hcall'
      exact hne (Option.some.inj (hby'.symm.trans hby))
    · have hloop := ((PoolState.runInvariant_of_reachable hpool).worker worker).mpr hworker
      exact hloop (hcalls.waiting worker hcall').1
    · exact hawake worker hasleep
  obtain ⟨t, ht⟩ := hunfinished
  rcases hall t ht with hjoining | ⟨hcall, hasleep⟩ | hasleep
  · exact hjoins t hjoining
  · rcases (hcalls.waiting t hcall).2 with hprogress | hset
    · obtain ⟨u, handles, hu⟩ := hcalls.joiner hprogress
      rcases hall u (.inr (.inl (by rw [hu]; rfl))) with hjoining | ⟨hcall', -⟩ | hasleep'
      · exact hjoins u hjoining
      · rw [hu] at hcall'
        cases hcall'
      · exact hawake u hasleep'
    · rw [hunset t hasleep] at hset
      cases hset
  · exact hawake t hasleep

def isNewCall : PoolRunAction Tid Task → Bool
  | .pool (.post _ _) | .pool (.shutdown _) => true
  | _ => false

def GoesOn (s : PoolRun Tid Task) : Prop :=
  ∃ a s', isNewCall a = false ∧ s.step a = some s'

theorem goesOn_of_isSome {a : PoolRunAction Tid Task} (hnew : isNewCall a = false)
    (hstep : (s.step a).isSome) : s.GoesOn := by
  obtain ⟨s', hs'⟩ := Option.isSome_iff_exists.mp hstep
  exact ⟨a, s', hnew, hs'⟩

theorem goesOn_of_pool {a : PoolAction Tid Task} (hat : s.atPool a.thread = true)
    (hnew : isNewCall (.pool a) = false) (hstep : (s.poolStep a).isSome) : s.GoesOn :=
  goesOn_of_isSome hnew (by rwa [step, if_pos hat])

/-- A thread that has not looked at the queue can look, or the thread that holds `mutex_` can let
it go. -/
theorem goesOn_of_enters (h : (poolRunSystem Tid Task workers).Reachable s) {t : Tid}
    {call : QueueCall (PostedTask Task)} (hcall : s.tasks.Enters t call) : s.GoesOn := by
  have hagree := agreement_of_reachable h
  have hzero := (QueueState.fifoInvariant_of_reachable (tasks_reachable h)).sized
  cases howner : s.tasks.owner with
  | some u =>
    obtain ⟨call', returned, notifies, hleaving⟩ :=
      (QueueState.closeInvariant_of_reachable (tasks_reachable h)).owner u howner
    exact goesOn_of_isSome (a := .queueStep (.unlock u)) rfl
      (by simp [step, queueStep, QueueState.step, hleaving])
  | none =>
    obtain ⟨tasks, htasks⟩ : ∃ tasks, s.tasks.step (.enter t false) = some tasks := by
      rcases hcall with hphase | ⟨c, hphase, hwoken⟩
      · exact ⟨_, by rw [QueueState.step, if_pos howner, hphase]⟩
      · exact ⟨_, by rw [QueueState.step, if_pos howner, hphase]; exact if_neg hwoken⟩
    cases hdone : (tasks.threads t).settled with
    | none => exact ⟨.queueStep (.enter t false), { s with tasks := tasks }, rfl,
        by simp only [step, queueStep, htasks, Option.bind_some, hdone]⟩
    | some entry =>
      obtain ⟨call', returned⟩ := entry
      obtain ⟨hpending, q, notifies, hview, -, -, -⟩ := finished_of_settled htasks hdone
      rw [hagree.same] at hview hzero
      obtain ⟨b, pool, hb, -, hpool, -, -⟩ :=
        exists_section_step (hagree.pending t call' hpending) hzero hview
      exact ⟨.queueStep (.enter t false), { s with tasks := tasks, pool := pool }, rfl,
        by simp only [step, queueStep, htasks, Option.bind_some, hdone, hb, hpool,
          Option.map_some]⟩

/-- A thread inside a call of the queue can go on unless it sleeps. -/
theorem goesOn_of_inQueue (h : (poolRunSystem Tid Task workers).Reachable s) {t : Tid}
    (hphase : s.tasks.threads t ≠ .idle) (hawake : t ∉ s.tasks.notEmpty.asleep) :
    s.GoesOn := by
  have htasks := tasks_reachable h
  cases hat : s.tasks.threads t with
  | idle => exact absurd hat hphase
  | locking call => exact goesOn_of_enters h (.inl hat)
  | waiting call c =>
    cases c with
    | notEmpty => exact goesOn_of_enters h (.inr ⟨.notEmpty, hat, hawake⟩)
    | notFull =>
      have hzero := (QueueState.fifoInvariant_of_reachable htasks).sized
      have hnot := (QueueState.closeInvariant_of_reachable htasks).roomy hzero t
      rw [hat] at hnot
      exact absurd rfl hnot
  | leaving call returned notifies =>
    exact goesOn_of_isSome (a := .queueStep (.unlock t)) rfl
      (by simp [step, queueStep, QueueState.step, hat])
  | notifying call returned notifies =>
    cases notifies with
    | nil =>
      exact goesOn_of_isSome (a := .queueStep (.ret t)) rfl
        (by simp [step, queueStep, QueueState.step, hat])
    | cons notify notifies =>
      cases notify with
      | all c =>
        exact goesOn_of_isSome (a := .queueStep (.notify t none)) rfl
          (by simp [step, queueStep, QueueState.step, hat])
      | one c =>
        cases hsleepers : (s.tasks.waitSet c).asleep with
        | nil =>
          exact goesOn_of_isSome (a := .queueStep (.notify t none)) rfl
            (by simp [step, queueStep, QueueState.step, hat, WaitSet.notifyOne, hsleepers])
        | cons u rest =>
          exact goesOn_of_isSome (a := .queueStep (.notify t (some u))) rfl
            (by simp [step, queueStep, QueueState.step, hat, WaitSet.notifyOne, hsleepers])

/-- A thread outside the queue can go on unless it is blocked. -/
theorem goesOn_of_atPool (h : (poolRunSystem Tid Task workers).Reachable s) {t : Tid}
    (ht : s.Unfinished workers t) (hfree : ¬ s.Blocked t) (hidle : s.tasks.threads t = .idle)
    (hnot : t ∉ s.notifying) : s.GoesOn := by
  have hpool := pool_reachable h
  have hat : s.atPool t = true := atPool_iff.mpr ⟨hidle, hnot⟩
  have hcall (op : QueueOp (PostedTask Task)) (hop : (s.pool.threads t).queueOp = some op) :
      s.GoesOn :=
    goesOn_of_isSome (a := .queueCall t) rfl (by simp [step, hnot, hop, QueueState.step, hidle])
  cases hphase : (s.pool.threads t).call with
  | none =>
    cases hloop : (s.pool.threads t).loop with
    | popping => exact hcall .waitPop (by simp [PoolThread.queueOp, hphase, hloop])
    | running posted =>
      exact goesOn_of_pool (a := .taskEnd t false) hat rfl
        (by simp [poolStep, PoolState.step, hphase, hloop])
    | failing posted =>
      exact goesOn_of_pool (a := .countFailed t) hat rfl
        (by simp [poolStep, PoolState.step, hloop])
    | completing posted threw =>
      exact goesOn_of_pool (a := .countCompleted t) hat rfl
        (by simp [poolStep, PoolState.step, hloop])
    | none =>
      rcases ht with ⟨hworker, -⟩ | hshutdown | hnotifying
      · exact absurd hloop
          (((PoolState.runInvariant_of_reachable hpool).worker t).mpr hworker)
      · rw [hphase] at hshutdown
        cases hshutdown
      · exact absurd hnotifying hnot
    | left =>
      rcases ht with ⟨-, hended⟩ | hshutdown | hnotifying
      · simp [ended, hloop, hidle, WorkerState.hasLeft, QueuePhase.isIdle] at hended
      · rw [hphase] at hshutdown
        cases hshutdown
      · exact absurd hnotifying hnot
  | counting posted =>
    exact goesOn_of_pool (a := .count t) hat rfl (by simp [poolStep, PoolState.step, hphase])
  | pushing posted => exact hcall (.tryPush posted) (by simp [PoolThread.queueOp, hphase])
  | pushed posted =>
    exact goesOn_of_pool (a := .postReturn t) hat rfl (by simp [poolStep, PoolState.step, hphase])
  | rollingBack posted threw =>
    exact goesOn_of_pool (a := .rollback t) hat rfl (by simp [poolStep, PoolState.step, hphase])
  | closing => exact hcall .close (by simp [PoolThread.queueOp, hphase])
  | entering =>
    refine goesOn_of_pool (a := .enter t) hat rfl ?_
    simp only [poolStep, Option.isSome_map, PoolState.step, hphase]
    split
    · rfl
    · split
      · split <;> rfl
      · rfl
  | waitingFinished =>
    have hawake : t ∉ s.complete.asleep := fun hasleep => hfree (.inr (.inl ⟨hphase, hasleep⟩))
    cases hflag : s.pool.pool.shutdownFinished with
    | true =>
      refine goesOn_of_pool (a := .awake t) hat rfl ?_
      simp [poolStep, hawake, PoolState.step, hphase, hflag]
    | false =>
      exact goesOn_of_isSome (a := .sleepAgain t) rfl (by simp [step, hphase, hawake, hflag])
  | joining handles =>
    cases handles with
    | nil =>
      exact goesOn_of_pool (a := .finishShutdown t) hat rfl
        (by simp [poolStep, PoolState.step, hphase])
    | cons worker handles =>
      refine goesOn_of_pool (a := .join t) hat rfl ?_
      by_cases hself : worker = t
      · simp [poolStep, releaseHandle, PoolState.step, hphase, hself]
      · have hended : s.ended worker = true := by
          by_contra hended
          exact hfree (.inl ⟨worker, handles, hphase, hself, by simpa using hended⟩)
        have hleft : (s.pool.threads worker).loop.hasLeft = true :=
          (Bool.and_eq_true_iff.mp hended).1
        simp [poolStep, releaseHandle, PoolState.step, hphase, hself, hended, hleft]

/-- `shutdown` never deadlocks, and every handle is joined by another thread or detached, once. -/
theorem shutdown_never_deadlocks (h : (poolRunSystem Tid Task workers).Reachable s) :
    (s.tasks.queue.closed = true → (∃ t, s.Unfinished workers t) →
      ∃ t, s.Unfinished workers t ∧ ¬ s.Blocked t ∧ s.GoesOn) ∧
    (∀ t, (t, t) ∉ s.joined) ∧
    (s.joined.map Prod.snd ++ s.detached).Nodup ∧
    (s.pool.pool.shutdownFinished = true →
      (s.joined.map Prod.snd ++ s.detached).Perm workers.ids ∧
      ∀ s', (poolRunSystem Tid Task workers).Leads s s' →
        s'.pool.pool.shutdownFinished = true) := by
  have hhandles := handleInvariant_of_reachable h
  refine ⟨?_, ?_, ?_, ?_⟩
  · intro hclosed hunfinished
    obtain ⟨t, ht, hfree⟩ := exists_unblocked h hclosed hunfinished
    refine ⟨t, ht, hfree, ?_⟩
    by_cases hidle : s.tasks.threads t = .idle
    · by_cases hnotifying : t ∈ s.notifying
      · exact ⟨.notifyComplete t, _, rfl, if_pos hnotifying⟩
      · exact goesOn_of_atPool h ht hfree hidle hnotifying
    · exact goesOn_of_inQueue h hidle fun hasleep => hfree (.inr (.inr hasleep))
  · intro t ht
    exact hhandles.others _ ht rfl
  · cases hfinished : s.pool.pool.shutdownFinished with
    | true => exact (hhandles.released hfinished).nodup_iff.mpr workers.nodup
    | false =>
      cases hprogress : s.pool.pool.shutdownInProgress with
      | true =>
        obtain ⟨t, handles, ht⟩ :=
          (PoolState.shutdownCalls_of_reachable (pool_reachable h)).joiner hprogress
        exact ((hhandles.joining t handles ht).nodup_iff.mpr workers.nodup).of_append_left
      | false =>
        obtain ⟨hempty, hempty'⟩ := hhandles.untouched hprogress hfinished
        rw [hempty, hempty']
        exact List.nodup_nil
  · intro hfinished
    refine ⟨hhandles.released hfinished, ?_⟩
    intro s' hleads
    refine hleads.invariant (P := fun s => s.pool.pool.shutdownFinished = true) ?_ hfinished
    intro r a r' hr hstep
    rcases pool_of_step hstep with heq | ⟨b, hb⟩
    · rw [heq]
      exact hr
    · exact PoolState.finished_of_step hr hb

/-- Worker 1 shuts down from inside its task while worker 2 sleeps in `wait_pop` and thread 0 waits
for the flag: worker 2 is woken and joined, and the flag is set while thread 0 still sleeps. -/
theorem shutdown_never_deadlocks_from_worker :
    ∃ s : PoolRun (Fin 3) ℕ, s.joined = [(1, 2)] ∧ s.detached = [1] ∧ s.complete.asleep = [0] ∧
      (∃ t, s.Unfinished ⟨[1, 2], by decide, by decide⟩ t ∧ ¬ s.Blocked t ∧ s.GoesOn) := by
  obtain ⟨s, hs, hp⟩ :=
    (poolRunSystem (Fin 3) ℕ ⟨[1, 2], by decide, by decide⟩).exists_reachable_of_run
    { pool := {
        pool := { workers := [1, 2] }
        threads := fun t => if t ∈ [1, 2] then { loop := .popping } else {} } }
    [.queueCall 1, .queueStep (.enter 1 false), .queueCall 2, .queueStep (.enter 2 false),
      .pool (.post 0 (some 7)), .pool (.count 0), .queueCall 0, .queueStep (.enter 0 false),
      .queueStep (.unlock 0), .queueStep (.notify 0 (some 1)), .queueStep (.ret 0),
      .pool (.postReturn 0), .queueStep (.enter 1 false), .queueStep (.unlock 1),
      .queueStep (.notify 1 none), .queueStep (.ret 1), .pool (.shutdown 1), .queueCall 1,
      .queueStep (.enter 1 false), .queueStep (.unlock 1), .queueStep (.notify 1 none),
      .queueStep (.notify 1 none), .queueStep (.ret 1), .pool (.enter 1), .pool (.shutdown 0),
      .queueCall 0, .queueStep (.enter 0 false), .queueStep (.unlock 0), .queueStep (.ret 0),
      .pool (.enter 0), .pool (.join 1), .queueStep (.enter 2 false), .queueStep (.unlock 2),
      .queueStep (.ret 2), .pool (.join 1), .pool (.finishShutdown 1)]
    (fun s => s.joined == [(1, 2)] && s.detached == [1] && s.complete.asleep == [0] &&
      s.tasks.queue.closed && decide (1 ∈ s.notifying)) ⟨_, rfl, rfl⟩ (by decide)
  simp only [Bool.and_eq_true, beq_iff_eq, decide_eq_true_eq] at hp
  obtain ⟨⟨⟨⟨hjoined, hdetached⟩, hasleep⟩, hclosed⟩, hnotifying⟩ := hp
  exact ⟨s, hjoined, hdetached, hasleep,
    (shutdown_never_deadlocks hs).1 hclosed ⟨1, .inr (.inr hnotifying)⟩⟩

end PoolRun

end RobotMiddleware
