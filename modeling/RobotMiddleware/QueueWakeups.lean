import RobotMiddleware.QueueFifo

/-! No wakeup is lost: as long as a consumer sleeps, each element in the queue has a thread that
sees to it, and as long as a producer sleeps, each free slot has one. -/
namespace RobotMiddleware
open ConditionVariable

def QueuePhase.notifies {α : Type} : QueuePhase α → List QueueNotify
  | .leaving _ _ notifies | .notifying _ _ notifies => notifies
  | _ => []

def QueuePhase.waitsOn {α : Type} : QueuePhase α → Option QueueCondition
  | .waiting _ c => some c
  | _ => none

theorem QueuePhase.notifies_of_waitsOn {α : Type} {phase : QueuePhase α} {c : QueueCondition}
    (h : phase.waitsOn = some c) : phase.notifies = [] := by
  cases phase <;> first | rfl | cases h

theorem QueueOp.pops_of_value {α : Type} {op : QueueOp α} {value : α}
    (h : op.value = some value) : op.pops = false := by
  cases op <;> first | rfl | cases h

namespace QueueState
variable {Tid α : Type} [DecidableEq Tid] {s s' : QueueState Tid α} {capacity : ℕ}
  {c : QueueCondition} {t : Tid}

def Notifies (s : QueueState Tid α) (c : QueueCondition) (t : Tid) : Prop :=
  ∃ notify ∈ (s.threads t).notifies, notify.condition = c

/-- The thread has woken up on `c` and not looked at the queue since. -/
def Woken (s : QueueState Tid α) (c : QueueCondition) (t : Tid) : Prop :=
  (s.threads t).waitsOn = some c ∧ t ∉ (s.waitSet c).asleep

def Helps (s : QueueState Tid α) (c : QueueCondition) (t : Tid) : Prop :=
  s.Notifies c t ∨ s.Woken c t

/-- What the sleepers on a condition wait for: elements, or free slots of a bounded queue. -/
def units (s : QueueState Tid α) : QueueCondition → ℕ
  | .notEmpty => s.queue.queue.length
  | .notFull => s.queue.capacity - s.queue.queue.length

/-- Who sleeps on a condition is waiting on it, and producers and consumers sleep apart. -/
structure SleepInvariant (s : QueueState Tid α) : Prop where
  sleeping : ∀ c t, t ∈ (s.waitSet c).asleep → (s.threads t).waitsOn = some c
  consumers : ∀ t call, s.threads t = .waiting call .notEmpty → call.op.pops = true
  producers : ∀ t call, s.threads t = .waiting call .notFull → ∃ value, call.op.value = some value

/-- Only a thread that is not asleep moves to a phase of its own. -/
theorem SleepInvariant.setPhase {r : QueueState Tid α} {phase : QueuePhase α}
    (h : SleepInvariant s) (hthreads : r.threads = s.threads)
    (hasleep : ∀ c u, u ∈ (r.waitSet c).asleep → u ∈ (s.waitSet c).asleep)
    (ht : ∀ c, t ∉ (r.waitSet c).asleep) (hphase : phase.waitsOn = none) :
    SleepInvariant (r.setPhase t phase) := by
  have hwaiting (u : Tid) (call : QueueCall α) (c : QueueCondition)
      (hu : (r.setPhase t phase).threads u = .waiting call c) : s.threads u = .waiting call c := by
    rw [setPhase_threads, hthreads] at hu
    split at hu
    case isTrue =>
      rw [hu] at hphase
      cases hphase
    case isFalse => exact hu
  refine ⟨?_, fun u call hu => h.consumers u call (hwaiting u call _ hu),
    fun u call hu => h.producers u call (hwaiting u call _ hu)⟩
  intro c u hu
  rw [setPhase_waitSet] at hu
  have hne : u ≠ t := fun heq => ht c (heq ▸ hu)
  rw [setPhase_threads, if_neg hne, hthreads]
  exact h.sleeping c u (hasleep c u hu)

theorem SleepInvariant.step {a : QueueAction Tid α} (h : SleepInvariant s)
    (hs : s.step a = some s') : SleepInvariant s' := by
  -- a thread whose phase is not `waiting` is in no wait set
  have hawake {t : Tid} (hphase : (s.threads t).waitsOn = none) (c : QueueCondition) :
      t ∉ (s.waitSet c).asleep := by
    intro hmem
    rw [h.sleeping c t hmem] at hphase
    cases hphase
  have henters {t : Tid} {call : QueueCall α} (henters : s.Enters t call) (c : QueueCondition) :
      t ∉ (s.waitSet c).asleep := by
    rcases henters with hphase | ⟨c', hphase, hwoken⟩
    · exact hawake (by rw [hphase]; rfl) c
    · intro hmem
      have hwaits := h.sleeping c t hmem
      rw [hphase] at hwaits
      cases hwaits
      exact hwoken hmem
  -- a notification only takes threads out of a wait set
  have hfewer (c c' : QueueCondition) (w : WaitSet Tid)
      (hw : ∀ u, u ∈ w.asleep → u ∈ (s.waitSet c).asleep) (u : Tid)
      (hu : u ∈ ((s.setWaitSet c w).waitSet c').asleep) : u ∈ (s.waitSet c').asleep := by
    rw [waitSet_setWaitSet] at hu
    split at hu
    case isTrue heq => exact heq ▸ hw u hu
    case isFalse => exact hu
  cases step_view hs with
  | called t op hidle =>
    have hwaits : (s.threads t).waitsOn = none := by rw [hidle]; rfl
    exact h.setPhase rfl (by rintro (_ | _) u hu <;> exact hu)
      (by rintro (_ | _); exacts [hawake hwaits .notEmpty, hawake hwaits .notFull]) rfl
  | slept t timedOut call c howner hcall hview =>
    refine ⟨?_, ?_, ?_⟩
    · intro c' u hu
      rw [setPhase_threads, setWaitSet_threads]
      rw [setPhase_waitSet, waitSet_setWaitSet] at hu
      split at hu
      case isTrue heq =>
        rw [WaitSet.mem_sleep] at hu
        split
        case isTrue => rw [heq]; rfl
        case isFalse hne => exact heq ▸ h.sleeping c u (hu.resolve_left hne)
      case isFalse =>
        have hne : u ≠ t := fun heq => henters hcall c' (heq ▸ hu)
        rw [if_neg hne]
        exact h.sleeping c' u hu
    · intro u call' hu
      rw [setPhase_threads, setWaitSet_threads] at hu
      split at hu
      case isTrue =>
        cases hu
        cases hview with
        | awaitElement hop => exact hop
      case isFalse => exact h.consumers u call' hu
    · intro u call' hu
      rw [setPhase_threads, setWaitSet_threads] at hu
      split at hu
      case isTrue =>
        cases hu
        cases hview with
        | awaitSlot value hop => exact ⟨value, hop⟩
      case isFalse => exact h.producers u call' hu
  | finished t timedOut call q returned notifies howner hcall hview =>
    exact h.setPhase rfl (by rintro (_ | _) u hu <;> exact hu)
      (by rintro (_ | _); exacts [henters hcall .notEmpty, henters hcall .notFull]) rfl
  | unlocked t call returned notifies hphase =>
    have hwaits : (s.threads t).waitsOn = none := by rw [hphase]; rfl
    exact h.setPhase rfl (by rintro (_ | _) u hu <;> exact hu)
      (by rintro (_ | _); exacts [hawake hwaits .notEmpty, hawake hwaits .notFull]) rfl
  | notifiedOne t u call returned c notifies hphase hu =>
    have hwaits : (s.threads t).waitsOn = none := by rw [hphase]; rfl
    have hsub := fun c' => hfewer c c' ((s.waitSet c).wake u) fun v hv => (WaitSet.mem_wake.mp hv).1
    exact h.setPhase (setWaitSet_threads ..) hsub (fun c' hmem => hawake hwaits c' (hsub c' t hmem))
      rfl
  | notifiedNone t call returned c notifies hphase hempty =>
    have hwaits : (s.threads t).waitsOn = none := by rw [hphase]; rfl
    have hsub := fun c' => hfewer c c' (s.waitSet c) fun v hv => hv
    exact h.setPhase (setWaitSet_threads ..) hsub (fun c' hmem => hawake hwaits c' (hsub c' t hmem))
      rfl
  | notifiedAll t target call returned c notifies hphase =>
    have hwaits : (s.threads t).waitsOn = none := by rw [hphase]; rfl
    have hsub := fun c' => hfewer c c' (s.waitSet c).notifyAll fun v hv => by cases hv
    exact h.setPhase (setWaitSet_threads ..) hsub (fun c' hmem => hawake hwaits c' (hsub c' t hmem))
      rfl
  | woke t call c hphase hasleep =>
    refine ⟨?_, ?_, ?_⟩
    · intro c' u hu
      rw [setWaitSet_threads]
      exact h.sleeping c' u (hfewer c c' _ (fun v hv => (WaitSet.mem_wake.mp hv).1) u hu)
    · rw [setWaitSet_threads]
      exact h.consumers
    · rw [setWaitSet_threads]
      exact h.producers
  | returned t call returned hphase =>
    have hwaits : (s.threads t).waitsOn = none := by rw [hphase]; rfl
    exact h.setPhase rfl (by rintro (_ | _) u hu <;> exact hu)
      (by rintro (_ | _); exacts [hawake hwaits .notEmpty, hawake hwaits .notFull]) rfl

theorem sleepInvariant_of_reachable (h : (queueSystem Tid α capacity).Reachable s) :
    SleepInvariant s := by
  refine h.invariant ?_ (fun s a s' _ hinv hs => hinv.step hs)
  rintro s rfl
  refine ⟨?_, ?_, ?_⟩
  · rintro (_ | _) t hmem <;> cases hmem
  · intro t call hphase
    cases hphase
  · intro t call hphase
    cases hphase

structure NotifyInvariant (s : QueueState Tid α) : Prop where
  single : s.queue.closed = false → ∀ t, (s.threads t).notifies = [] ∨
    ∃ c, (s.threads t).notifies = [.one c]
  closing : s.queue.closed = true → ∀ c, (s.waitSet c).asleep ≠ [] →
    ∃ t, .all c ∈ (s.threads t).notifies

omit [DecidableEq Tid] in
/-- While the queue is open a thread has one notification to make at most. -/
theorem NotifyInvariant.notifies_eq_nil {call : QueueCall α} {returned : QueueReturn α}
    {notify : QueueNotify} {notifies : List QueueNotify} (h : NotifyInvariant s)
    (hopen : s.queue.closed = false)
    (hphase : s.threads t = .notifying call returned (notify :: notifies)) : notifies = [] := by
  have hsingle := h.single hopen t
  rw [hphase] at hsingle
  rcases hsingle with hnil | ⟨c, hone⟩
  · cases hnil
  · exact (List.cons.inj hone).2

theorem NotifyInvariant.step {a : QueueAction Tid α} (h : NotifyInvariant s)
    (hs : s.step a = some s') : NotifyInvariant s' := by
  -- a thread moves and keeps the notifications it has to make, nobody goes to sleep
  have hkept {t : Tid} {phase : QueuePhase α} {r : QueueState Tid α} (hq : r.queue = s.queue)
      (hthreads : r.threads = s.threads) (hphase : phase.notifies = (s.threads t).notifies)
      (hasleep : s.queue.closed = true → ∀ c, (r.waitSet c).asleep ≠ [] →
        (s.waitSet c).asleep ≠ []) : NotifyInvariant (r.setPhase t phase) := by
    have hnotifies (u : Tid) :
        ((r.setPhase t phase).threads u).notifies = (s.threads u).notifies := by
      rw [setPhase_threads, hthreads]
      split
      case isTrue hu => rw [hu, hphase]
      case isFalse => rfl
    constructor
    · intro hopen u
      rw [setPhase_queue, hq] at hopen
      rw [hnotifies]
      exact h.single hopen u
    · intro hclosed c hne
      rw [setPhase_queue, hq] at hclosed
      rw [setPhase_waitSet] at hne
      obtain ⟨u, hu⟩ := h.closing hclosed c (hasleep hclosed c hne)
      exact ⟨u, by rwa [hnotifies]⟩
  have henters {t : Tid} {call : QueueCall α} (henters : s.Enters t call) :
      (s.threads t).notifies = [] := by
    rcases henters with hphase | ⟨c, hphase, -⟩ <;> rw [hphase] <;> rfl
  -- a thread makes the first of its notifications
  have hmade {t : Tid} {call : QueueCall α} {returned : QueueReturn α} {notify : QueueNotify}
      {notifies : List QueueNotify} {w : WaitSet Tid}
      (hphase : s.threads t = .notifying call returned (notify :: notifies))
      (hw : w.asleep ≠ [] → (s.waitSet notify.condition).asleep ≠ [] ∧
        notify ≠ .all notify.condition) :
      NotifyInvariant ((s.setWaitSet notify.condition w).setPhase t
        (.notifying call returned notifies)) := by
    constructor
    · intro hopen u
      rw [setPhase_queue, setWaitSet_queue] at hopen
      rw [setPhase_threads, setWaitSet_threads]
      split
      case isTrue hu =>
        exact .inl (h.notifies_eq_nil hopen hphase)
      case isFalse => exact h.single hopen u
    · intro hclosed c hne
      rw [setPhase_queue, setWaitSet_queue] at hclosed
      rw [setPhase_waitSet, waitSet_setWaitSet] at hne
      have hbefore : (s.waitSet c).asleep ≠ [] ∧ notify ≠ .all c := by
        split at hne
        case isTrue heq => exact heq ▸ hw hne
        case isFalse hother =>
          refine ⟨hne, ?_⟩
          rintro rfl
          exact hother rfl
      obtain ⟨u, hu⟩ := h.closing hclosed c hbefore.1
      refine ⟨u, ?_⟩
      rw [setPhase_threads, setWaitSet_threads]
      split
      case isTrue hut =>
        rw [hut, hphase] at hu
        exact (List.mem_cons.mp hu).resolve_left (fun heq => hbefore.2 heq.symm)
      case isFalse => exact hu
  cases step_view hs with
  | called t op hidle => exact hkept rfl rfl (by rw [hidle]; rfl) (fun _ c hne => by cases c <;> exact hne)
  | slept t timedOut call c howner hcall hview =>
    refine hkept (setWaitSet_queue ..) (setWaitSet_threads ..) (henters hcall).symm ?_
    intro hclosed
    cases hview with
    | awaitSlot value hop hopen =>
      rw [hopen] at hclosed
      cases hclosed
    | awaitElement hop hopen =>
      rw [hopen] at hclosed
      cases hclosed
  | finished t timedOut call q returned notifies howner hcall hview =>
    have hcases : (q.closed = s.queue.closed ∧ (notifies = [] ∨ ∃ c, notifies = [.one c])) ∨
        (q.closed = true ∧ ∀ c, .all c ∈ notifies) := by
      cases hview with
      | pushed => exact .inl ⟨rfl, .inr ⟨_, rfl⟩⟩
      | popped => exact .inl ⟨rfl, .inr ⟨_, rfl⟩⟩
      | refused => exact .inl ⟨rfl, .inl rfl⟩
      | gaveUp => exact .inl ⟨rfl, .inl rfl⟩
      | closedAgain => exact .inl ⟨rfl, .inl rfl⟩
      | closed =>
        right
        refine ⟨rfl, ?_⟩
        rintro (_ | _) <;> simp
    constructor
    · intro hopen u
      rw [setPhase_threads]
      rw [setPhase_queue] at hopen
      have hopen : q.closed = false := hopen
      rcases hcases with ⟨hclosed, hnotifies⟩ | ⟨hclosed, -⟩
      · split
        case isTrue => exact hnotifies
        case isFalse => exact h.single (hclosed ▸ hopen) u
      · rw [hopen] at hclosed
        cases hclosed
    · intro hclosed c hne
      have hclosed : q.closed = true := hclosed
      rcases hcases with ⟨hsame, -⟩ | ⟨-, hall⟩
      · have hne : (s.waitSet c).asleep ≠ [] := by cases c <;> exact hne
        obtain ⟨u, hu⟩ := h.closing (hsame ▸ hclosed) c hne
        refine ⟨u, ?_⟩
        have hut : u ≠ t := by
          rintro rfl
          rw [henters hcall] at hu
          cases hu
        rw [setPhase_threads, if_neg hut]
        exact hu
      · refine ⟨t, ?_⟩
        rw [setPhase_threads, if_pos rfl]
        exact hall c
  | unlocked t call returned notifies hphase =>
    exact hkept rfl rfl (by rw [hphase]; rfl) (fun _ c hne => by cases c <;> exact hne)
  | notifiedOne t u call returned c notifies hphase hu =>
    refine hmade hphase ?_
    intro hne
    exact ⟨List.ne_nil_of_mem hu, by intro h; cases h⟩
  | notifiedNone t call returned c notifies hphase hempty =>
    refine hmade hphase ?_
    intro hne
    exact ⟨hne, by intro h; cases h⟩
  | notifiedAll t target call returned c notifies hphase =>
    refine hmade hphase ?_
    intro hne
    exact absurd rfl hne
  | woke t call c hphase hasleep =>
    constructor
    · rw [setWaitSet_queue, setWaitSet_threads]
      exact h.single
    · intro hclosed c' hne
      rw [setWaitSet_queue] at hclosed
      rw [waitSet_setWaitSet] at hne
      rw [setWaitSet_threads]
      refine h.closing hclosed c' ?_
      split at hne
      case isTrue heq => exact heq ▸ List.ne_nil_of_mem hasleep
      case isFalse => exact hne
  | returned t call returned hphase =>
    exact hkept rfl rfl (by rw [hphase]; rfl) (fun _ c hne => by cases c <;> exact hne)

theorem notifyInvariant_of_reachable (h : (queueSystem Tid α capacity).Reachable s) :
    NotifyInvariant s := by
  refine h.invariant ?_ (fun s a s' _ hinv hs => hinv.step hs)
  rintro s rfl
  refine ⟨fun _ t => .inl rfl, ?_⟩
  intro hclosed
  cases hclosed

/-- Only `close` notifies all, and only a section that is over leaves `mutex_` locked. -/
structure CloseInvariant (s : QueueState Tid α) : Prop where
  all : ∀ t c, .all c ∈ (s.threads t).notifies → ∃ call returned,
    (s.threads t).settled = some (call, returned) ∧ call.op = .close
  owner : ∀ t, s.owner = some t → ∃ call returned notifies,
    s.threads t = .leaving call returned notifies
  roomy : s.queue.capacity = 0 → ∀ t, (s.threads t).waitsOn ≠ some .notFull

theorem CloseInvariant.step {a : QueueAction Tid α} (h : CloseInvariant s)
    (hs : s.step a = some s') : CloseInvariant s' := by
  -- one thread moves, and the lock stays with whom it was
  have hmoved {t : Tid} {phase : QueuePhase α} {r : QueueState Tid α}
      (hthreads : r.threads = s.threads) (hcapacity : r.queue.capacity = s.queue.capacity)
      (hall : ∀ c, .all c ∈ phase.notifies → ∃ call returned,
        phase.settled = some (call, returned) ∧ call.op = .close)
      (howner : ∀ u, r.owner = some u → (u = t ∧ ∃ call returned notifies,
        phase = .leaving call returned notifies) ∨ (u ≠ t ∧ s.owner = some u))
      (hroomy : s.queue.capacity = 0 → phase.waitsOn ≠ some .notFull) :
      CloseInvariant (r.setPhase t phase) := by
    refine ⟨?_, ?_, ?_⟩
    · intro u c hu
      rw [setPhase_threads, hthreads] at hu ⊢
      split
      case isTrue heq => exact hall c (by rwa [if_pos heq] at hu)
      case isFalse hne => exact h.all u c (by rwa [if_neg hne] at hu)
    · intro u hu
      rw [setPhase_threads, hthreads]
      rcases howner u hu with ⟨rfl, hphase⟩ | ⟨hne, hu⟩
      · rw [if_pos rfl]
        exact hphase
      · rw [if_neg hne]
        exact h.owner u hu
    · rw [setPhase_queue, hcapacity]
      intro hzero u
      rw [setPhase_threads, hthreads]
      split
      case isTrue => exact hroomy hzero
      case isFalse => exact h.roomy hzero u
  have hfree {t : Tid} (hphase : ∀ call returned notifies,
      s.threads t ≠ .leaving call returned notifies) (u : Tid) (hu : s.owner = some u) :
      u ≠ t := by
    rintro rfl
    obtain ⟨call, returned, notifies, hleaving⟩ := h.owner u hu
    exact hphase call returned notifies hleaving
  cases step_view hs with
  | called t op hidle =>
    exact hmoved rfl rfl (by nofun)
      (fun u hu => .inr ⟨hfree (by simp [hidle]) u hu, hu⟩) (fun _ => by nofun)
  | slept t timedOut call c howner hcall hview =>
    refine hmoved (setWaitSet_threads ..) (congrArg _ (setWaitSet_queue ..)) (by nofun) ?_ ?_
    · intro u hu
      rw [setWaitSet_owner, howner] at hu
      cases hu
    · intro hzero heq
      cases hview with
      | awaitSlot value hop hopen hfull =>
        exact (ThreadSafeQueue.full_iff.mp hfull).1 hzero
      | awaitElement => cases heq
  | finished t timedOut call q returned notifies howner hcall hview =>
    refine hmoved (r := { s with queue := q, owner := some t, history := _ }) rfl ?_ ?_ ?_
      (fun _ => by nofun)
    · cases hview <;> rfl
    · intro c hall
      refine ⟨call, returned, rfl, ?_⟩
      cases hview with
      | closed hclose => exact hclose
      | _ => simp [QueuePhase.notifies] at hall
    · intro u hu
      exact .inl ⟨(Option.some.inj hu).symm, _, _, _, rfl⟩
  | unlocked t call returned notifies hphase =>
    refine hmoved (r := { s with owner := none }) rfl rfl ?_ (by nofun) (fun _ => by nofun)
    intro c hall
    have := h.all t c (by rw [hphase]; exact hall)
    rw [hphase] at this
    exact this
  | notifiedOne t u call returned c notifies hphase hu =>
    refine hmoved (setWaitSet_threads ..) (congrArg _ (setWaitSet_queue ..)) ?_ ?_
      (fun _ => by nofun)
    · intro c' hall
      have := h.all t c' (by rw [hphase]; exact List.mem_cons_of_mem _ hall)
      rw [hphase] at this
      exact this
    · intro v hv
      rw [setWaitSet_owner] at hv
      exact .inr ⟨hfree (by simp [hphase]) v hv, hv⟩
  | notifiedNone t call returned c notifies hphase hempty =>
    refine hmoved (setWaitSet_threads ..) (congrArg _ (setWaitSet_queue ..)) ?_ ?_
      (fun _ => by nofun)
    · intro c' hall
      have := h.all t c' (by rw [hphase]; exact List.mem_cons_of_mem _ hall)
      rw [hphase] at this
      exact this
    · intro v hv
      rw [setWaitSet_owner] at hv
      exact .inr ⟨hfree (by simp [hphase]) v hv, hv⟩
  | notifiedAll t target call returned c notifies hphase =>
    refine hmoved (setWaitSet_threads ..) (congrArg _ (setWaitSet_queue ..)) ?_ ?_
      (fun _ => by nofun)
    · intro c' hall
      have := h.all t c' (by rw [hphase]; exact List.mem_cons_of_mem _ hall)
      rw [hphase] at this
      exact this
    · intro v hv
      rw [setWaitSet_owner] at hv
      exact .inr ⟨hfree (by simp [hphase]) v hv, hv⟩
  | woke t call c hphase hasleep =>
    refine ⟨?_, ?_, ?_⟩
    · rw [setWaitSet_threads]
      exact h.all
    · rw [setWaitSet_threads, setWaitSet_owner]
      exact h.owner
    · rw [setWaitSet_threads, setWaitSet_queue]
      exact h.roomy
  | returned t call returned hphase =>
    exact hmoved (r := { s with history := _ }) rfl rfl (by nofun)
      (fun u hu => .inr ⟨hfree (by simp [hphase]) u hu, hu⟩) (fun _ => by nofun)

theorem closeInvariant_of_reachable (h : (queueSystem Tid α capacity).Reachable s) :
    CloseInvariant s := by
  refine h.invariant ?_ (fun s a s' _ hinv hs => hinv.step hs)
  rintro s rfl
  exact ⟨by nofun, by nofun, fun _ t => by nofun⟩

/-! ### Units and helpers -/

/-- While the queue is open, every unit that sleepers wait for has a thread that sees to it. -/
def Watched (s : QueueState Tid α) : Prop :=
  s.queue.closed = false → ∀ c, Covered (s.waitSet c) (s.Helps c) (s.units c)

omit [DecidableEq Tid] in
theorem helps_congr {c : QueueCondition} {t : Tid} (hthreads : s'.threads t = s.threads t)
    (hasleep : t ∈ (s'.waitSet c).asleep ↔ t ∈ (s.waitSet c).asleep) :
    s'.Helps c t ↔ s.Helps c t := by
  simp only [Helps, Notifies, Woken, hthreads, hasleep]

omit [DecidableEq Tid] in
/-- A thread that is about to look at the queue helps only where its operation waits. -/
theorem Enters.helps {call : QueueCall α} (h : s.Enters t call) (hsleep : SleepInvariant s)
    (hhelps : s.Helps c t) :
    (c = .notEmpty ∧ call.op.pops = true) ∨
      (c = .notFull ∧ ∃ value, call.op.value = some value) := by
  rcases h with hphase | ⟨c', hphase, -⟩
  · rcases hhelps with ⟨notify, hmem, -⟩ | ⟨hwaits, -⟩
    · rw [hphase] at hmem
      cases hmem
    · rw [hphase] at hwaits
      cases hwaits
  · rcases hhelps with ⟨notify, hmem, -⟩ | ⟨hwaits, -⟩
    · rw [hphase] at hmem
      cases hmem
    · rw [hphase] at hwaits
      obtain rfl := Option.some.inj hwaits
      cases c' with
      | notEmpty => exact .inl ⟨rfl, hsleep.consumers t call hphase⟩
      | notFull => exact .inr ⟨rfl, hsleep.producers t call hphase⟩

omit [DecidableEq Tid] in
theorem not_helps (hnotifies : (s.threads t).notifies = [])
    (hwaits : (s.threads t).waitsOn = none) : ¬ s.Helps c t := by
  simp [Helps, Notifies, Woken, hnotifies, hwaits]

omit [DecidableEq Tid] in
/-- With one notification left to make, a thread helps on its condition only. -/
theorem helps_notifying {call : QueueCall α} {returned : QueueReturn α} {notify : QueueNotify}
    (hphase : s.threads t = .notifying call returned [notify]) :
    s.Helps c t ↔ notify.condition = c := by
  simp [Helps, Notifies, Woken, hphase, QueuePhase.notifies, QueuePhase.waitsOn]

omit [DecidableEq Tid] in
/-- A waiting thread helps where it waits, unless it is asleep there. -/
theorem helps_waiting {d : QueueCondition} (hwaits : (s.threads t).waitsOn = some d) :
    s.Helps c t ↔ d = c ∧ t ∉ (s.waitSet c).asleep := by
  simp [Helps, Notifies, Woken, QueuePhase.notifies_of_waitsOn hwaits, hwaits]

@[simp] theorem units_setPhase {phase : QueuePhase α} :
    (s.setPhase t phase).units c = s.units c := by
  cases c <;> rfl

omit [DecidableEq Tid] in
@[simp] theorem units_setWaitSet {c' : QueueCondition} {w : WaitSet Tid} :
    (s.setWaitSet c' w).units c = s.units c := by
  cases c <;> simp only [units, setWaitSet_queue]

/-- Another thread moves on, and changes one wait set at most. -/
theorem helps_beside {c' : QueueCondition} {w : WaitSet Tid} {phase : QueuePhase α} {u : Tid}
    (hu : u ≠ t) (hw : u ∈ w.asleep ↔ u ∈ (s.waitSet c').asleep) :
    ((s.setWaitSet c' w).setPhase t phase).Helps c u ↔ s.Helps c u := by
  refine helps_congr (by simp [hu]) ?_
  rw [setPhase_waitSet, waitSet_setWaitSet]
  split
  case isTrue heq =>
    rw [heq]
    exact hw
  case isFalse => rfl

omit [DecidableEq Tid] in
/-- One thread moves on, and helps as before. -/
theorem Watched.quiet (h : Watched s) (hqueue : s'.queue = s.queue)
    (hasleep : ∀ c, s'.waitSet c = s.waitSet c)
    (hthreads : ∀ u, u ≠ t → s'.threads u = s.threads u)
    (hhelps : ∀ c, s'.Helps c t ↔ s.Helps c t) : Watched s' := by
  intro hopen c
  rw [hqueue] at hopen
  refine (h hopen c).quiet (fun u => ?_) (fun hne => hasleep c ▸ hne) ?_
  · by_cases hu : u = t
    · rw [hu]
      exact hhelps c
    · exact helps_congr (hthreads u hu) (by rw [hasleep])
  · cases c <;> simp only [units, hqueue, le_refl]

omit [DecidableEq Tid] in
/-- A section that comes to a result. The thread may have been woken for it. -/
theorem Watched.step_done {call : QueueCall α} {q : ThreadSafeQueue α}
    {returned : QueueReturn α} {notifies : List QueueNotify} (h : Watched s)
    (hsleep : SleepInvariant s) (hcall : s.Enters t call)
    (hview : s.queue.SectionView call.op (.done q returned notifies)) (hqueue : s'.queue = q)
    (hasleep : ∀ c, s'.waitSet c = s.waitSet c)
    (hphase : s'.threads t = .leaving call returned notifies)
    (hthreads : ∀ u, u ≠ t → s'.threads u = s.threads u) : Watched s' := by
  intro hopen
  rw [hqueue] at hopen
  have hother (c : QueueCondition) (u : Tid) (hu : u ≠ t) : s'.Helps c u ↔ s.Helps c u :=
    helps_congr (hthreads u hu) (by rw [hasleep])
  have hw (c : QueueCondition) :
      (s'.waitSet c).asleep ≠ [] → (s.waitSet c).asleep ≠ [] ∨ s'.units c = 0 :=
    fun hne => .inl (hasleep c ▸ hne)
  have hafter (c : QueueCondition) :
      s'.Helps c t ↔ ∃ notify ∈ notifies, notify.condition = c := by
    simp [Helps, Notifies, Woken, hphase, QueuePhase.notifies, QueuePhase.waitsOn]
  have hproducer (hvalue : ∃ value, call.op.value = some value) : ¬ s.Helps .notEmpty t := by
    intro hhelps
    obtain ⟨value, hvalue⟩ := hvalue
    rcases hcall.helps hsleep hhelps with ⟨-, hpops⟩ | ⟨hc, -⟩
    · rw [QueueOp.pops_of_value hvalue] at hpops
      cases hpops
    · cases hc
  have hconsumer (hpops : call.op.pops = true) : ¬ s.Helps .notFull t := by
    intro hhelps
    rcases hcall.helps hsleep hhelps with ⟨hc, -⟩ | ⟨-, value, hvalue⟩
    · cases hc
    · rw [QueueOp.pops_of_value hvalue] at hpops
      cases hpops
  cases hview with
  | pushed value hvalue hopen' hroom =>
    have hroom' := ThreadSafeQueue.length_lt_of_not_full hroom
    rintro (_ | _)
    · -- the element comes with a notification
      refine (h hopen' _).move (hother _) (hw _) ?_ ?_ ?_
      · intro hiff
        exact absurd (hiff.mp ((hafter _).mpr ⟨_, List.mem_singleton_self _, rfl⟩))
          (hproducer ⟨value, hvalue⟩)
      · intro _ _
        simp [units, hqueue]
      · intro hbefore
        exact absurd hbefore (hproducer ⟨value, hvalue⟩)
    · -- a woken producer takes the slot it was woken for
      have hnone : ¬ s'.Helps .notFull t := by
        rw [hafter]
        rintro ⟨notify, hmem, heq⟩
        rw [List.mem_singleton.mp hmem] at heq
        cases heq
      refine (h hopen' _).move (hother _) (hw _) ?_ (fun hhelps => absurd hhelps hnone) ?_
      · intro _
        simp only [units, hqueue, List.length_append, List.length_singleton]
        omega
      · intro _ _ _
        simp only [units, hqueue, List.length_append, List.length_singleton]
        omega
  | refused value hvalue hrefused =>
    have hfullUp := ThreadSafeQueue.full_iff.mp (hrefused.resolve_left (by simp [hopen]))
    have hnone (c : QueueCondition) : ¬ s'.Helps c t := by simp [hafter]
    rintro (_ | _)
    · refine (h hopen _).move (hother _) (hw _) ?_ (fun hhelps => absurd hhelps (hnone _)) ?_
      · intro _
        simp [units, hqueue]
      · intro hbefore
        exact absurd hbefore (hproducer ⟨value, hvalue⟩)
    · refine (h hopen _).move (hother _) (hw _) ?_ (fun hhelps => absurd hhelps (hnone _)) ?_
      · intro _
        simp [units, hqueue]
      · intro _ _ _
        right
        rw [units, hqueue]
        omega
  | popped value rest hpops hcontent =>
    have hlength : s.queue.queue.length = rest.length + 1 := by rw [hcontent, List.length_cons]
    rintro (_ | _)
    · -- a woken consumer takes the element it was woken for
      have hnone : ¬ s'.Helps .notEmpty t := by
        rw [hafter]
        rintro ⟨notify, hmem, heq⟩
        rw [List.mem_singleton.mp hmem] at heq
        cases heq
      refine (h hopen _).move (hother _) (hw _) ?_ (fun hhelps => absurd hhelps hnone) ?_
      · intro _
        simp only [units, hqueue]
        omega
      · intro _ _ _
        simp only [units, hqueue]
        omega
    · -- the slot comes with a notification
      refine (h hopen _).move (hother _) (hw _) ?_ ?_ ?_
      · intro hiff
        exact absurd (hiff.mp ((hafter _).mpr ⟨_, List.mem_singleton_self _, rfl⟩))
          (hconsumer hpops)
      · intro _ _
        simp only [units, hqueue]
        omega
      · intro hbefore
        exact absurd hbefore (hconsumer hpops)
  | gaveUp hpops hcontent =>
    have hnone (c : QueueCondition) : ¬ s'.Helps c t := by simp [hafter]
    rintro (_ | _)
    · refine (h hopen _).move (hother _) (hw _) ?_ (fun hhelps => absurd hhelps (hnone _)) ?_
      · intro _
        simp [units, hqueue]
      · intro _ _ _
        right
        rw [units, hqueue, hcontent, List.length_nil]
    · refine (h hopen _).move (hother _) (hw _) ?_ (fun hhelps => absurd hhelps (hnone _)) ?_
      · intro _
        simp [units, hqueue]
      · intro hbefore
        exact absurd hbefore (hconsumer hpops)
  | closed => cases hopen
  | closedAgain hop hclosed =>
    rw [hclosed] at hopen
    cases hopen

/-- A thread goes to sleep, where there is nothing to take. -/
theorem Watched.step_slept {call : QueueCall α} (h : Watched s) (hsleep : SleepInvariant s)
    (hcall : s.Enters t call) (hview : s.queue.SectionView call.op (.wait c)) :
    Watched ((s.setWaitSet c ((s.waitSet c).sleep t)).setPhase t (.waiting call c)) := by
  have hzero : s.units c = 0 := by
    cases hview with
    | awaitSlot value hop hopen hfull =>
      have := ThreadSafeQueue.full_iff.mp hfull
      rw [units]
      omega
    | awaitElement hop hopen hempty => rw [units, hempty, List.length_nil]
  have hpops : c = .notEmpty → call.op.pops = true := by
    rintro rfl
    cases hview
    assumption
  have hvalue : c = .notFull → ∃ value, call.op.value = some value := by
    rintro rfl
    cases hview with
    | awaitSlot value hop => exact ⟨value, hop⟩
  intro hopen c'
  rw [setPhase_queue, setWaitSet_queue] at hopen
  have hafter : ¬ Helps ((s.setWaitSet c ((s.waitSet c).sleep t)).setPhase t (.waiting call c))
      c' t := by
    rw [helps_waiting (d := c) (by simp [QueuePhase.waitsOn])]
    rintro ⟨rfl, hawake⟩
    exact hawake (by simp)
  rw [units_setPhase, units_setWaitSet, setPhase_waitSet]
  refine (h hopen c').move (t := t) ?_ ?_ (fun _ => le_rfl) (fun hhelps => absurd hhelps hafter) ?_
  · intro u hu
    exact helps_beside hu (by rw [WaitSet.mem_sleep]; exact or_iff_right hu)
  · intro hne
    rw [waitSet_setWaitSet] at hne
    split at hne
    case isTrue heq => exact .inr (heq ▸ hzero)
    case isFalse => exact .inl hne
  · intro hbefore _ _
    -- it was woken where it sleeps now
    right
    rcases hcall.helps hsleep hbefore with ⟨rfl, hpop⟩ | ⟨rfl, value, hpush⟩
    · cases c with
      | notEmpty => exact hzero
      | notFull =>
        obtain ⟨value, hpush⟩ := hvalue rfl
        rw [QueueOp.pops_of_value hpush] at hpop
        cases hpop
    · cases c with
      | notFull => exact hzero
      | notEmpty =>
        rw [QueueOp.pops_of_value hpush] at hpops
        cases hpops rfl

/-- A notification wakes a sleeper, which sees to the unit from then on. -/
theorem Watched.step_notifiedOne {call : QueueCall α} {returned : QueueReturn α} {u : Tid}
    (h : Watched s) (hsleep : SleepInvariant s)
    (hphase : s.threads t = .notifying call returned [.one c]) (hu : u ∈ (s.waitSet c).asleep) :
    Watched ((s.setWaitSet c ((s.waitSet c).wake u)).setPhase t
      (.notifying call returned [])) := by
  intro hopen c'
  rw [setPhase_queue, setWaitSet_queue] at hopen
  have hwaits := hsleep.sleeping c u hu
  have hut : u ≠ t := by
    rintro rfl
    rw [hphase] at hwaits
    cases hwaits
  have hbefore : s.Helps c' t ↔ c = c' := helps_notifying hphase
  have hgone : ¬ Helps ((s.setWaitSet c ((s.waitSet c).wake u)).setPhase t
      (.notifying call returned [])) c' t :=
    not_helps (by simp [QueuePhase.notifies]) (by simp [QueuePhase.waitsOn])
  have hasleep : ¬ s.Helps c' u := by
    rw [helps_waiting hwaits]
    rintro ⟨rfl, hawake⟩
    exact hawake hu
  have hwoken : Helps ((s.setWaitSet c ((s.waitSet c).wake u)).setPhase t
      (.notifying call returned [])) c' u ↔ c = c' := by
    rw [helps_waiting (d := c) (by simp [hut, hwaits]), setPhase_waitSet, waitSet_setWaitSet]
    refine and_iff_left_of_imp ?_
    rintro rfl
    simp
  have hother (v : Tid) (hvt : v ≠ t) (hvu : v ≠ u) :
      Helps ((s.setWaitSet c ((s.waitSet c).wake u)).setPhase t (.notifying call returned []))
        c' v ↔ s.Helps c' v :=
    helps_beside hvt (by rw [WaitSet.mem_wake]; exact and_iff_left hvu)
  have hfewer : ((s.setWaitSet c ((s.waitSet c).wake u)).waitSet c').asleep ≠ [] →
      (s.waitSet c').asleep ≠ [] := by
    rw [waitSet_setWaitSet]
    split
    case isTrue heq => exact fun _ => heq ▸ List.ne_nil_of_mem hu
    case isFalse => exact id
  rw [units_setPhase, units_setWaitSet, setPhase_waitSet]
  by_cases hc : c = c'
  · refine (h hopen c').hand (hbefore.mpr hc) hasleep ?_ hfewer
    intro v
    by_cases hvu : v = u
    · rw [hvu]
      exact iff_of_true (hwoken.mpr hc) (.inl rfl)
    · by_cases hvt : v = t
      · subst hvt
        exact iff_of_false hgone (by simp [hvu])
      · simp [hother v hvt hvu, hvu, hvt]
  · refine (h hopen c').quiet ?_ hfewer le_rfl
    intro v
    by_cases hvu : v = u
    · rw [hvu]
      exact iff_of_false (fun hhelps => hc (hwoken.mp hhelps)) hasleep
    · by_cases hvt : v = t
      · subst hvt
        exact iff_of_false hgone (fun hhelps => hc (hbefore.mp hhelps))
      · exact hother v hvt hvu

/-- A notification that finds nobody asleep was not needed. -/
theorem Watched.step_notifiedNone {call : QueueCall α} {returned : QueueReturn α} (h : Watched s)
    (hphase : s.threads t = .notifying call returned [.one c])
    (hempty : (s.waitSet c).asleep = []) :
    Watched ((s.setWaitSet c (s.waitSet c)).setPhase t (.notifying call returned [])) := by
  intro hopen c'
  rw [setPhase_queue, setWaitSet_queue] at hopen
  have hgone : ¬ Helps ((s.setWaitSet c (s.waitSet c)).setPhase t
      (.notifying call returned [])) c' t :=
    not_helps (by simp [QueuePhase.notifies]) (by simp [QueuePhase.waitsOn])
  have hsame : (s.setWaitSet c (s.waitSet c)).waitSet c' = s.waitSet c' := by
    rw [waitSet_setWaitSet]
    split
    case isTrue heq => rw [heq]
    case isFalse => rfl
  rw [units_setPhase, units_setWaitSet, setPhase_waitSet, hsame]
  refine (h hopen c').move (t := t) (fun v hvt => helps_beside hvt Iff.rfl) .inl (fun _ => le_rfl)
    (fun hhelps => absurd hhelps hgone) ?_
  intro hhelps _ hne
  obtain rfl : c = c' := (helps_notifying hphase).mp hhelps
  exact absurd hempty hne

/-- A sleeper wakes up by itself, and comes to help. -/
theorem Watched.step_woke {call : QueueCall α} (h : Watched s)
    (hphase : s.threads t = .waiting call c) (hasleep : t ∈ (s.waitSet c).asleep) :
    Watched (s.setWaitSet c ((s.waitSet c).wake t)) := by
  intro hopen c'
  rw [setWaitSet_queue] at hopen
  rw [units_setWaitSet]
  refine (h hopen c').move (t := t) ?_ ?_ (fun _ => le_rfl) (fun _ _ => Nat.le_succ _) ?_
  · intro v hvt
    refine helps_congr (by simp) ?_
    rw [waitSet_setWaitSet]
    split
    case isTrue heq => rw [WaitSet.mem_wake, heq]; exact and_iff_left hvt
    case isFalse => rfl
  · rw [waitSet_setWaitSet]
    split
    case isTrue heq => exact fun _ => .inl (heq ▸ List.ne_nil_of_mem hasleep)
    case isFalse => exact .inl
  · intro hhelps
    rw [helps_waiting (d := c) (by rw [hphase]; rfl)] at hhelps
    obtain ⟨rfl, hawake⟩ := hhelps
    exact absurd hasleep hawake

theorem Watched.step {a : QueueAction Tid α} (h : Watched s) (hsleep : SleepInvariant s)
    (hnotify : NotifyInvariant s) (hs : s.step a = some s') : Watched s' := by
  cases step_view hs with
  | called t op hphase =>
    refine h.quiet (t := t) rfl (fun c => by cases c <;> rfl) (fun u hu => by simp [hu]) ?_
    intro c
    exact iff_of_false (not_helps (by simp [QueuePhase.notifies]) (by simp [QueuePhase.waitsOn]))
      (not_helps (by rw [hphase]; rfl) (by rw [hphase]; rfl))
  | slept t timedOut call c howner hcall hview => exact h.step_slept hsleep hcall hview
  | finished t timedOut call q returned notifies howner hcall hview =>
    exact h.step_done hsleep hcall hview rfl (fun c => by cases c <;> rfl) (by simp)
      (fun u hu => by simp [hu])
  | unlocked t call returned notifies hphase =>
    refine h.quiet (t := t) rfl (fun c => by cases c <;> rfl) (fun u hu => by simp [hu]) ?_
    intro c
    simp [Helps, Notifies, Woken, hphase, QueuePhase.notifies, QueuePhase.waitsOn]
  | notifiedOne t u call returned c notifies hphase hu =>
    intro hopen
    rw [setPhase_queue, setWaitSet_queue] at hopen
    obtain rfl := hnotify.notifies_eq_nil hopen hphase
    exact h.step_notifiedOne hsleep hphase hu (by simpa using hopen)
  | notifiedNone t call returned c notifies hphase hempty =>
    intro hopen
    rw [setPhase_queue, setWaitSet_queue] at hopen
    obtain rfl := hnotify.notifies_eq_nil hopen hphase
    exact h.step_notifiedNone hphase hempty (by simpa using hopen)
  | notifiedAll t target call returned c notifies hphase =>
    intro hopen
    rw [setPhase_queue, setWaitSet_queue] at hopen
    have hsingle := hnotify.single hopen t
    rw [hphase] at hsingle
    rcases hsingle with hnil | ⟨c', hone⟩
    · cases hnil
    · cases hone
  | woke t call c hphase hasleep => exact h.step_woke hphase hasleep
  | returned t call returned hphase =>
    refine h.quiet (t := t) rfl (fun c => by cases c <;> rfl) (fun u hu => by simp [hu]) ?_
    intro c
    exact iff_of_false (not_helps (by simp [QueuePhase.notifies]) (by simp [QueuePhase.waitsOn]))
      (not_helps (by rw [hphase]; rfl) (by rw [hphase]; rfl))

theorem watched_of_reachable (h : (queueSystem Tid α capacity).Reachable s) : Watched s := by
  refine h.invariant ?_ (fun s a s' hr hinv hs => hinv.step (sleepInvariant_of_reachable hr)
    (notifyInvariant_of_reachable hr) hs)
  rintro s rfl _ c
  refine .initial (by cases c <;> rfl) ?_
  rintro t (⟨notify, hmem, -⟩ | ⟨hwaits, -⟩)
  · cases hmem
  · cases hwaits

/-- A sleeper that could go on has a thread that sees to it. -/
theorem exists_helper_of_sleeper (h : (queueSystem Tid α capacity).Reachable s)
    (hasleep : t ∈ (s.waitSet c).asleep) (hready : s.queue.closed = true ∨ 0 < s.units c) :
    ∃ u, s.Helps c u := by
  cases hclosed : s.queue.closed with
  | true =>
    obtain ⟨u, hu⟩ := (notifyInvariant_of_reachable h).closing hclosed c
      (List.ne_nil_of_mem hasleep)
    exact ⟨u, .inl ⟨_, hu, rfl⟩⟩
  | false =>
    have hunits := hready.resolve_left (by simp [hclosed])
    exact (watched_of_reachable h hclosed c).exists_helper hasleep hunits

/-- No wakeup is lost, neither a consumer's nor a producer's. -/
theorem no_lost_wakeup (h : (queueSystem Tid α capacity).Reachable s) :
    ((∃ t, t ∈ s.notEmpty.asleep) → s.queue.queue ≠ [] ∨ s.queue.closed = true →
      (∃ u, s.Notifies .notEmpty u) ∨ ∃ u, s.Woken .notEmpty u) ∧
    ((∃ t, t ∈ s.notFull.asleep) →
      (s.queue.capacity ≠ 0 ∧ s.queue.queue.length < s.queue.capacity) ∨ s.queue.closed = true →
      (∃ u, s.Notifies .notFull u) ∨ ∃ u, s.Woken .notFull u) := by
  constructor
  · rintro ⟨t, hasleep⟩ hready
    have hunits : s.queue.closed = true ∨ 0 < s.units .notEmpty :=
      hready.symm.imp_right List.length_pos_of_ne_nil
    obtain ⟨u, hnotifies | hwoken⟩ :=
      exists_helper_of_sleeper h (c := .notEmpty) hasleep hunits
    · exact .inl ⟨u, hnotifies⟩
    · exact .inr ⟨u, hwoken⟩
  · rintro ⟨t, hasleep⟩ hready
    have hunits : s.queue.closed = true ∨ 0 < s.units .notFull :=
      hready.symm.imp_right fun hroom => Nat.sub_pos_of_lt hroom.2
    obtain ⟨u, hnotifies | hwoken⟩ :=
      exists_helper_of_sleeper h (c := .notFull) hasleep hunits
    · exact .inl ⟨u, hnotifies⟩
    · exact .inr ⟨u, hwoken⟩

/-- Two consumers sleep and two elements come in. The first notification wakes a consumer whose
element a `try_pop` then takes; the second is still to be made for the other. -/
theorem no_lost_wakeup_stolen :
    ∃ s, (queueSystem (Fin 4) ℕ 0).Reachable s ∧ s.notEmpty.asleep = [1] ∧
      s.queue.queue = [8] ∧
      ((∃ u, s.Notifies .notEmpty u) ∨ ∃ u, s.Woken .notEmpty u) := by
  obtain ⟨s, hs, hp⟩ := (queueSystem (Fin 4) ℕ 0).exists_reachable_of_run {}
    [.call 0 .waitPop, .enter 0 false, .call 1 .waitPopFor, .enter 1 false,
      .call 2 (.tryPush 7), .enter 2 false, .unlock 2, .notify 2 (some 0), .ret 2,
      .call 3 .tryPop, .enter 3 false, .unlock 3, .enter 0 false,
      .wake 1, .enter 1 false, .call 2 (.push 8), .enter 2 false, .unlock 2, .wake 0]
    (fun s => s.notEmpty.asleep == [1] && s.queue.queue == [8]) rfl (by decide)
  simp only [Bool.and_eq_true, beq_iff_eq] at hp
  have hawake := (no_lost_wakeup hs).1 ⟨1, by rw [hp.1]; exact List.mem_singleton_self _⟩
    (.inl (by rw [hp.2]; exact List.cons_ne_nil _ _))
  exact ⟨s, hs, hp.1, hp.2, hawake⟩

end QueueState

end RobotMiddleware
