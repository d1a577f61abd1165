import RobotMiddleware.PassedBetween
import RobotMiddleware.SessionLifecycle

/-! The counters of a `TcpSessionManager`: what each of them counts, and where a session is between
two of them. -/
namespace RobotMiddleware

/-- The sessions pass from `accepted` to `active`, and from there to `disconnected`; the counters
are how many have, but for those of 64 bits that wrap. -/
structure SessionLedger (history : SessionHistory) (accepted : BitVec 64) (active : ℕ)
    (disconnected : BitVec 64) (counted hasSlot isEnding : ℕ → Prop) : Prop where
  admitted : PassedBetween history.accepted history.taken counted
  slots : PassedBetween history.taken history.givenBack hasSlot
  ended : PassedBetween history.givenBack history.disconnected isEnding
  accepted_eq : accepted = BitVec.ofNat 64 history.accepted.length
  active_eq : active + history.givenBack.length = history.taken.length
  disconnected_eq : disconnected = BitVec.ofNat 64 history.disconnected.length

namespace SessionLedger
variable {history : SessionHistory} {accepted disconnected : BitVec 64} {active i : ℕ}
  {counted counted' hasSlot hasSlot' isEnding isEnding' : ℕ → Prop}

theorem congr (h : SessionLedger history accepted active disconnected counted hasSlot isEnding)
    (hcounted : ∀ j, counted' j ↔ counted j) (hslot : ∀ j, hasSlot' j ↔ hasSlot j)
    (hending : ∀ j, isEnding' j ↔ isEnding j) :
    SessionLedger history accepted active disconnected counted' hasSlot' isEnding' :=
  { h with
    admitted := h.admitted.congr hcounted
    slots := h.slots.congr hslot
    ended := h.ended.congr hending }

theorem countAccepted
    (h : SessionLedger history accepted active disconnected counted hasSlot isEnding)
    (hi : i ∉ history.accepted) (hcounted : ∀ j, counted' j ↔ j = i ∨ counted j) :
    SessionLedger { history with accepted := history.accepted ++ [i] } (accepted + 1) active
      disconnected counted' hasSlot isEnding :=
  { h with
    admitted := h.admitted.enter hi hcounted
    accepted_eq := by
      rw [h.accepted_eq, List.length_append, List.length_singleton, BitVec.ofNat_add]
      rfl }

theorem takeSlot (h : SessionLedger history accepted active disconnected counted hasSlot isEnding)
    (hi : counted i) (hcounted : ∀ j, counted' j ↔ j ≠ i ∧ counted j)
    (hslot : ∀ j, hasSlot' j ↔ j = i ∨ hasSlot j) :
    SessionLedger { history with taken := history.taken ++ [i] } accepted (active + 1)
      disconnected counted' hasSlot' isEnding :=
  { h with
    admitted := h.admitted.leave hi hcounted
    slots := h.slots.enter ((h.admitted.mem_iff i).mp hi).2 hslot
    active_eq := by
      have hactive := h.active_eq
      show active + 1 + history.givenBack.length = (history.taken ++ [i]).length
      rw [List.length_append, List.length_singleton]
      omega }

theorem giveSlotBack
    (h : SessionLedger history accepted active disconnected counted hasSlot isEnding)
    (hi : hasSlot i) (hslot : ∀ j, hasSlot' j ↔ j ≠ i ∧ hasSlot j)
    (hending : ∀ j, isEnding' j ↔ j = i ∨ isEnding j) :
    SessionLedger { history with givenBack := history.givenBack ++ [i] } accepted (active - 1)
      disconnected counted hasSlot' isEnding' := by
  have hleave := h.slots.leave hi hslot
  refine { h with
    slots := hleave
    ended := h.ended.enter ((h.slots.mem_iff i).mp hi).2 hending
    active_eq := ?_ }
  have hlength := hleave.length_le
  have hactive := h.active_eq
  show active - 1 + (history.givenBack ++ [i]).length = history.taken.length
  rw [List.length_append, List.length_singleton] at hlength ⊢
  omega

theorem countDisconnected
    (h : SessionLedger history accepted active disconnected counted hasSlot isEnding)
    (hi : isEnding i) (hending : ∀ j, isEnding' j ↔ j ≠ i ∧ isEnding j) :
    SessionLedger { history with disconnected := history.disconnected ++ [i] } accepted active
      (disconnected + 1) counted hasSlot isEnding' :=
  { h with
    ended := h.ended.leave hi hending
    disconnected_eq := by
      rw [h.disconnected_eq, List.length_append, List.length_singleton, BitVec.ofNat_add]
      rfl }

theorem toNat_accepted
    (h : SessionLedger history accepted active disconnected counted hasSlot isEnding)
    (hfew : history.accepted.length < 2 ^ 64) : accepted.toNat = history.accepted.length := by
  rw [h.accepted_eq, BitVec.toNat_ofNat, Nat.mod_eq_of_lt hfew]

theorem toNat_disconnected
    (h : SessionLedger history accepted active disconnected counted hasSlot isEnding)
    (hfew : history.accepted.length < 2 ^ 64) :
    disconnected.toNat = history.disconnected.length := by
  have hless := (h.ended.length_le.trans h.slots.length_le).trans h.admitted.length_le
  rw [h.disconnected_eq, BitVec.toNat_ofNat, Nat.mod_eq_of_lt (hless.trans_lt hfew)]

theorem active_add_disconnected_le
    (h : SessionLedger history accepted active disconnected counted hasSlot isEnding)
    (hfew : history.accepted.length < 2 ^ 64) :
    active + disconnected.toNat ≤ accepted.toNat := by
  have hactive := h.active_eq
  have hadmitted := h.admitted.length_le
  have hended := h.ended.length_le
  rw [h.toNat_accepted hfew, h.toNat_disconnected hfew]
  omega

/-- With no session between two counters. -/
theorem active_add_disconnected_eq
    (h : SessionLedger history accepted active disconnected counted hasSlot isEnding)
    (hfew : history.accepted.length < 2 ^ 64) (hcounted : ∀ j, ¬ counted j)
    (hending : ∀ j, ¬ isEnding j) : active + disconnected.toNat = accepted.toNat := by
  have hactive := h.active_eq
  have hadmitted := h.admitted.length_eq hcounted
  have hended := h.ended.length_eq hending
  rw [h.toNat_accepted hfew, h.toNat_disconnected hfew]
  omega

/-- With no session anywhere between, whether the counters have wrapped or not. -/
theorem accepted_eq_disconnected
    (h : SessionLedger history accepted active disconnected counted hasSlot isEnding)
    (hcounted : ∀ j, ¬ counted j) (hslot : ∀ j, ¬ hasSlot j) (hending : ∀ j, ¬ isEnding j) :
    accepted = disconnected := by
  rw [h.accepted_eq, h.disconnected_eq, h.admitted.length_eq hcounted, h.slots.length_eq hslot,
    h.ended.length_eq hending]

theorem active_eq_zero
    (h : SessionLedger history accepted active disconnected counted hasSlot isEnding)
    (hslot : ∀ j, ¬ hasSlot j) : active = 0 := by
  have hactive := h.active_eq
  have hslots := h.slots.length_eq hslot
  omega

end SessionLedger

theorem AcceptLoop.ne_of_current {loop : AcceptLoop} {i : ℕ} (h : loop.current ≠ some i) :
    loop.slot ≠ some i ∧ loop.pending ≠ some i ∧ loop.opening ≠ some i := by
  cases loop <;> simp_all [current, slot, pending, opening]

def SessionWorker.hasSlot : SessionWorker → Bool
  | .countingActive => true
  | worker => worker.works

theorem SessionWorker.hasSlot_of_works {worker : SessionWorker} (h : worker.works = true) :
    worker.hasSlot = true := by
  cases worker <;> first | rfl | cases h

theorem SessionWorker.ne_of_works {worker : SessionWorker} (h : worker.works = true) :
    worker ≠ .countingDisconnected := by
  rintro rfl
  cases h

/-- The identifier of a session by its number. -/
def sessionId (session : ℕ) : BitVec 64 := BitVec.ofNat 64 (session + 1)

namespace SessionManager
variable {m m' : SessionManager} {session : ℕ}

def HasSlot (m : SessionManager) (i : ℕ) : Prop :=
  (m.records i).worker.hasSlot = true ∨ m.acceptThread.slot = some i

/-- The session is counted neither in `active` nor in `disconnected`. -/
def IsEnding (m : SessionManager) (i : ℕ) : Prop :=
  (m.records i).worker = .countingDisconnected ∨ m.acceptThread.pending = some i

/-- A session whose worker works is active, so that its exchange gives the slot back; only the
worker itself and the accept thread without a worker clear the flag. -/
structure Accounts (m : SessionManager) : Prop where
  ledger : SessionLedger m.history m.accepted m.active m.disconnected
    (m.acceptThread.counted = some ·) m.HasSlot m.IsEnding
  made : ∀ i ∈ m.history.accepted, i < m.created
  fresh : ∀ i, m.acceptThread.fresh = some i → i ∉ m.history.accepted
  bound : m.active ≤ m.options.maxClients
  room : m.acceptThread.isAdmitting = true → m.active < m.options.maxClients
  works : ∀ i, (m.records i).worker.works = true → (m.records i).active = true
  opening : ∀ i, m.acceptThread.opening = some i → (m.records i).active = true

/-- A record changes and its session stays between the same two counters. -/
theorem Accounts.setRecord {record : ManagedSession} (h : m.Accounts)
    (hslot : record.worker.hasSlot = (m.records session).worker.hasSlot)
    (hending : record.worker = .countingDisconnected ↔
      (m.records session).worker = .countingDisconnected)
    (hworks : record.worker.works = true → record.active = true)
    (hopening : m.acceptThread.opening = some session → record.active = true) :
    (m.setRecord session record).Accounts := by
  have hcases (i : ℕ) : i = session ∧ (m.setRecord session record).records i = record ∨
      (m.setRecord session record).records i = m.records i := by
    by_cases hi : i = session
    · subst hi
      exact .inl ⟨rfl, Function.update_self ..⟩
    · exact .inr (Function.update_of_ne hi ..)
  refine { h with
    ledger := h.ledger.congr (fun _ => .rfl) (fun i => ?_) fun i => ?_
    works := fun i hi => ?_
    opening := fun i hi => ?_ }
  · refine or_congr ?_ .rfl
    rcases hcases i with ⟨rfl, hi⟩ | hi <;> rw [hi]
    rw [hslot]
  · refine or_congr ?_ .rfl
    rcases hcases i with ⟨rfl, hi⟩ | hi <;> rw [hi]
    exact hending
  · rcases hcases i with ⟨rfl, hrecord⟩ | hrecord <;> rw [hrecord] at hi ⊢
    · exact hworks hi
    · exact h.works i hi
  · rcases hcases i with ⟨rfl, hrecord⟩ | hrecord <;> rw [hrecord]
    · exact hopening hi
    · exact h.opening i hi

/-- A worker that no longer works passes a counter. -/
theorem Accounts.passWorker {worker : SessionWorker} (h : m.Accounts)
    (hworker : worker.works = false)
    (hrecords : m'.records =
      Function.update m.records session { m.records session with worker := worker })
    (hloop : m'.acceptThread = m.acceptThread) (hcreated : m'.created = m.created)
    (hoptions : m'.options = m.options) (haccepted : m'.history.accepted = m.history.accepted)
    (hactive : m'.active ≤ m.active)
    (hledger : SessionLedger m'.history m'.accepted m'.active m'.disconnected
      (m.acceptThread.counted = some ·) m'.HasSlot m'.IsEnding) : m'.Accounts := by
  have hflag (i : ℕ) : (m'.records i).active = (m.records i).active := by
    rw [hrecords, Function.update_apply]
    split
    case isTrue hi => rw [hi]
    case isFalse => rfl
  refine ⟨by rw [hloop]; exact hledger, ?_, ?_, ?_, ?_, fun i hi => ?_, ?_⟩
  · rw [haccepted, hcreated]
    exact h.made
  · rw [haccepted, hloop]
    exact h.fresh
  · rw [hoptions]
    exact hactive.trans h.bound
  · rw [hoptions, hloop]
    exact fun hadmitting => hactive.trans_lt (h.room hadmitting)
  · rw [hflag]
    by_cases hsession : i = session
    · rw [hrecords, hsession, Function.update_self, hworker] at hi
      cases hi
    · rw [hrecords, Function.update_of_ne hsession] at hi
      exact h.works i hi
  · intro i
    rw [hloop, hflag]
    exact h.opening i

theorem hasSlot_setWorker {worker : SessionWorker} {i : ℕ} :
    (m.setWorker session worker).HasSlot i ↔
      if i = session then worker.hasSlot = true ∨ m.acceptThread.slot = some session
      else m.HasSlot i := by
  unfold HasSlot
  rw [records_setWorker, Function.update_apply]
  split
  case isTrue hi =>
    rw [hi]
    rfl
  case isFalse => rfl

theorem isEnding_setWorker {worker : SessionWorker} {i : ℕ} :
    (m.setWorker session worker).IsEnding i ↔
      if i = session then worker = .countingDisconnected ∨ m.acceptThread.pending = some session
      else m.IsEnding i := by
  unfold IsEnding
  rw [records_setWorker, Function.update_apply]
  split
  case isTrue hi =>
    rw [hi]
    rfl
  case isFalse => rfl

/-- A step of a worker. -/
theorem Accounts.sessionStep {snapshots : ℕ → Prop} (h : m.Accounts)
    (hthreads : m.Threads snapshots) (hview : m.SessionView session m') : m'.Accounts := by
  -- a session that is being made has no worker
  have hmaking (hstarted : (m.records session).worker ≠ .none) :
      m.acceptThread.slot ≠ some session ∧ m.acceptThread.pending ≠ some session ∧
        m.acceptThread.opening ≠ some session :=
    AcceptLoop.ne_of_current fun hcurrent => hstarted (hthreads.current session hcurrent).2.1
  cases hview with
  | works stats worker hbefore hafter =>
    have hstats : Accounts { m with stats := stats } := { h with }
    refine hstats.setRecord ?_ ?_ (fun _ => h.works session hbefore)
      fun _ => h.works session hbefore
    · show worker.hasSlot = (m.records session).worker.hasSlot
      rw [SessionWorker.hasSlot_of_works hafter, SessionWorker.hasSlot_of_works hbefore]
    · show worker = .countingDisconnected ↔ (m.records session).worker = .countingDisconnected
      exact iff_of_false (SessionWorker.ne_of_works hafter) (SessionWorker.ne_of_works hbefore)
  | exchanged hworker =>
    have hactive : (m.records session).active = true := h.works session (by rw [hworker]; rfl)
    have hopening := (hmaking (by rw [hworker]; nofun)).2.2
    rw [if_pos hactive]
    refine h.setRecord ?_ ?_ nofun fun hsame => absurd hsame hopening
    · rw [hworker]
      rfl
    · rw [hworker]
      exact iff_of_false nofun nofun
  | gaveBack hworker =>
    obtain ⟨hslot, -, -⟩ := hmaking (by rw [hworker]; nofun)
    refine h.passWorker rfl rfl rfl rfl rfl rfl (Nat.sub_le m.active 1)
      (h.ledger.giveSlotBack (.inl (by rw [hworker]; rfl)) (fun i => ?_) fun i => ?_)
    · refine (hasSlot_setWorker (m := m)).trans ?_
      split
      case isTrue hi => exact iff_of_false (not_or.mpr ⟨nofun, hslot⟩) fun hne => hne.1 hi
      case isFalse hi => exact (and_iff_right hi).symm
    · refine (isEnding_setWorker (m := m)).trans ?_
      split
      case isTrue hi => exact iff_of_true (.inl rfl) (.inl hi)
      case isFalse hi => exact (or_iff_right hi).symm
  | disconnected hworker =>
    obtain ⟨hslot, hpending, -⟩ := hmaking (by rw [hworker]; nofun)
    have hsame (i : ℕ) : ((m.countDisconnected session).setWorker session .clearing).HasSlot i ↔
        m.HasSlot i := by
      refine (hasSlot_setWorker (m := m)).trans ?_
      split
      case isTrue hi =>
        refine iff_of_false (not_or.mpr ⟨nofun, hslot⟩) ?_
        rw [hi]
        refine not_or.mpr ⟨?_, hslot⟩
        rw [hworker]
        nofun
      case isFalse hi => rfl
    refine h.passWorker rfl rfl rfl rfl rfl rfl (Nat.le_refl _)
      ((h.ledger.countDisconnected (.inl hworker) fun i => ?_).congr (fun _ => .rfl) hsame
        fun _ => .rfl)
    refine (isEnding_setWorker (m := m)).trans ?_
    split
    case isTrue hi => exact iff_of_false (not_or.mpr ⟨nofun, hpending⟩) fun hne => hne.1 hi
    case isFalse hi => exact (and_iff_right hi).symm
  | left hworker =>
    refine h.setRecord ?_ ?_ nofun fun hsame => ?_
    · rw [hworker]
      rfl
    · rw [hworker]
      exact iff_of_false nofun nofun
    · exact h.opening session hsame

/-- A new session, with its number for everything. -/
theorem Accounts.create {snapshots : ℕ → Prop} (h : m.Accounts) (hthreads : m.Threads snapshots)
    (hloop : m.acceptThread = .creating) :
    (m.create.setAccept (.preparing m.created)).Accounts := by
  have hcases (i : ℕ) : i = m.created ∧
        (m.create.setAccept (.preparing m.created)).records i = { id := m.nextSessionId } ∨
      (m.create.setAccept (.preparing m.created)).records i = m.records i := by
    by_cases hi : i = m.created
    · subst hi
      exact .inl ⟨rfl, Function.update_self ..⟩
    · exact .inr (Function.update_of_ne hi ..)
  have hworker (i : ℕ) : ((m.create.setAccept (.preparing m.created)).records i).worker =
      (m.records i).worker := by
    rcases hcases i with ⟨rfl, hi⟩ | hi
    · rw [hi, hthreads.unborn _ (Nat.le_refl _)]
    · rw [hi]
  have hledger := h.ledger
  rw [hloop] at hledger
  refine ⟨hledger.congr (fun _ => .rfl) (fun i => ?_) fun i => ?_, fun i hi => ?_, fun i hi => ?_,
    h.bound, fun _ => h.room (by rw [hloop]; rfl), fun i hi => ?_, fun i hi => ?_⟩
  · unfold HasSlot
    rw [hworker, hloop]
    rfl
  · unfold IsEnding
    rw [hworker, hloop]
    rfl
  · exact Nat.lt_succ_of_lt (h.made i hi)
  · obtain rfl := Option.some.inj hi
    exact fun hold => Nat.lt_irrefl _ (h.made _ hold)
  · rw [hworker] at hi
    rcases hcases i with ⟨-, hrecord⟩ | hrecord <;> rw [hrecord]
    exact h.works i hi
  · obtain rfl := Option.some.inj hi
    show (Function.update m.records m.created _ m.created).active = true
    rw [Function.update_self]

/-- The accept thread goes on without a counter. -/
theorem Accounts.setAccept {before after : AcceptLoop} (h : m.Accounts)
    (hloop : m.acceptThread = before) (hcounted : after.counted = before.counted)
    (hslot : after.slot = before.slot) (hpending : after.pending = before.pending)
    (hfresh : after.fresh = before.fresh ∨ after.fresh = .none)
    (hopening : after.opening = before.opening ∨ after.opening = .none)
    (hroom : after.isAdmitting = true → m.active < m.options.maxClients) :
    (m.setAccept after).Accounts := by
  subst hloop
  refine { h with
    ledger := h.ledger.congr (fun i => ?_) (fun i => or_congr .rfl ?_) fun i => or_congr .rfl ?_
    fresh := fun i hi => ?_
    room := hroom
    opening := fun i hi => ?_ }
  · show after.counted = some i ↔ _
    rw [hcounted]
  · show after.slot = some i ↔ _
    rw [hslot]
  · show after.pending = some i ↔ _
    rw [hpending]
  · rcases hfresh with hsame | hnone
    · exact h.fresh i (hsame ▸ hi)
    · exact absurd (hnone.symm.trans hi) nofun
  · rcases hopening with hsame | hnone
    · exact h.opening i (hsame ▸ hi)
    · exact absurd (hnone.symm.trans hi) nofun

/-- A step of the accept thread. -/
theorem Accounts.acceptStep {snapshots : ℕ → Prop} (h : m.Accounts)
    (hthreads : m.Threads snapshots) (hview : m.AcceptView m') : m'.Accounts := by
  have hledger := h.ledger
  cases hview with
  | moved stats loop hkeeps hadmits =>
    have hstats : Accounts { m with stats := stats } := { h with }
    exact hstats.setAccept rfl hkeeps.counted hkeeps.slot hkeeps.pending hkeeps.fresh
      hkeeps.opening fun hadmitting => (hadmits hadmitting).elim h.room id
  | created hloop => exact h.create hthreads hloop
  | listed session hloop =>
    have hlisted : Accounts { m with sessions := m.sessions ++ [session] } := { h with }
    exact hlisted.setAccept hloop rfl rfl rfl (.inl rfl) (.inl rfl)
      fun _ => h.room (by rw [hloop]; rfl)
  | accepted session hloop =>
    have hnew : session ∉ m.history.accepted := h.fresh session (by rw [hloop]; rfl)
    have hopening := h.opening
    rw [hloop] at hledger hopening
    refine { h with
      ledger := (hledger.countAccepted hnew fun i => ?_).congr (fun _ => .rfl)
        (fun i => or_congr .rfl ?_) fun i => or_congr .rfl ?_
      made := fun i hi => ?_
      fresh := nofun
      room := fun _ => h.room (by rw [hloop]; rfl)
      opening := hopening }
    · exact Option.some_inj.trans (eq_comm.trans (or_iff_left nofun).symm)
    · rw [hloop]
      rfl
    · rw [hloop]
      rfl
    · rcases List.mem_append.mp hi with hold | hold
      · exact h.made i hold
      · rw [List.mem_singleton.mp hold]
        exact (hthreads.current session (by rw [hloop]; rfl)).1
  | took session hloop =>
    have hroom := h.room (by rw [hloop]; rfl)
    have hopening := h.opening
    rw [hloop] at hledger hopening
    refine { h with
      ledger := (hledger.takeSlot (i := session) rfl (fun i => ?_) fun i => ?_).congr
        (fun _ => .rfl) (fun _ => .rfl) fun i => or_congr .rfl ?_
      fresh := nofun
      bound := hroom
      room := nofun
      opening := hopening }
    · refine iff_of_false nofun fun hi => hi.1 (Option.some.inj hi.2).symm
    · have hnone : (AcceptLoop.countingActive session).slot ≠ some i := nofun
      show (m.records i).worker.hasSlot = true ∨ some session = some i ↔
        i = session ∨ ((m.records i).worker.hasSlot = true ∨ m.acceptThread.slot = some i)
      rw [hloop, or_iff_left hnone, or_comm, Option.some_inj, eq_comm]
    · rw [hloop]
      rfl
  | started session hloop =>
    have hworker := (hthreads.current session (by rw [hloop]; rfl)).2.1
    have hactive : (m.records session).active = true := h.opening session (by rw [hloop]; rfl)
    have hcases (i : ℕ) : i = session ∧ ((m.setRecord session
          { m.records session with worker := .entering, joinable := true }).records i) =
            { m.records session with worker := .entering, joinable := true } ∨
        i ≠ session ∧ ((m.setRecord session
          { m.records session with worker := .entering, joinable := true }).records i) =
            m.records i := by
      by_cases hi : i = session
      · subst hi
        exact .inl ⟨rfl, Function.update_self ..⟩
      · exact .inr ⟨hi, Function.update_of_ne hi ..⟩
    rw [hloop] at hledger
    refine { h with
      ledger := hledger.congr (fun _ => .rfl) (fun i => ?_) fun i => ?_
      fresh := nofun
      room := nofun
      works := fun i hi => ?_
      opening := nofun }
    -- the slot goes from the accept thread to the worker
    · unfold HasSlot
      rw [records_setAccept, hloop]
      rcases hcases i with ⟨rfl, hrecord⟩ | ⟨hne, hrecord⟩ <;> rw [hrecord]
      · exact iff_of_true (.inl rfl) (.inr rfl)
      · exact or_congr_right (iff_of_false nofun fun hi => hne (Option.some.inj hi).symm)
    · unfold IsEnding
      rw [records_setAccept, hloop]
      rcases hcases i with ⟨rfl, hrecord⟩ | ⟨-, hrecord⟩ <;> rw [hrecord]
      · rw [hworker]
        exact or_congr (iff_of_false nofun nofun) .rfl
      · rfl
    · rw [records_setAccept] at hi ⊢
      rcases hcases i with ⟨-, hrecord⟩ | ⟨-, hrecord⟩ <;> rw [hrecord] at hi ⊢
      · exact hactive
      · exact h.works i hi
  | deactivated session hloop =>
    have hworker := (hthreads.current session (by rw [hloop]; rfl)).2.1
    have hflag : (m.setRecord session { m.records session with active := false }).Accounts :=
      h.setRecord rfl .rfl
      (fun hworks => by rw [hworker] at hworks; cases hworks)
      (fun hopening => by rw [hloop] at hopening; cases hopening)
    exact hflag.setAccept hloop rfl rfl rfl (.inl rfl) (.inl rfl) nofun
  | gaveBack session hloop =>
    have hworker := (hthreads.current session (by rw [hloop]; rfl)).2.1
    have hslot : m.HasSlot session := .inr (by rw [hloop]; rfl)
    rw [hloop] at hledger
    refine { h with
      ledger := (hledger.giveSlotBack hslot (fun i => ?_) fun i => ?_).congr (fun _ => .rfl)
        (fun _ => .rfl) fun _ => .rfl
      fresh := nofun
      bound := (Nat.sub_le m.active 1).trans h.bound
      room := nofun
      opening := nofun }
    · have hnone : (AcceptLoop.countingDisconnected session).slot ≠ some i := nofun
      show (m.records i).worker.hasSlot = true ∨
          (AcceptLoop.countingDisconnected session).slot = some i ↔
        i ≠ session ∧ ((m.records i).worker.hasSlot = true ∨ m.acceptThread.slot = some i)
      rw [hloop, or_iff_left hnone]
      by_cases hi : i = session
      · rw [hi, hworker]
        exact iff_of_false nofun fun hne => hne.1 rfl
      · have hother : (AcceptLoop.uncounting session).slot ≠ some i :=
          fun hsame => hi (Option.some.inj hsame).symm
        rw [and_iff_right hi, or_iff_left hother]
    · have hnone : (AcceptLoop.uncounting session).pending ≠ some i := nofun
      show (m.records i).worker = .countingDisconnected ∨ some session = some i ↔
        i = session ∨ ((m.records i).worker = .countingDisconnected ∨
          m.acceptThread.pending = some i)
      rw [hloop, or_iff_left hnone, or_comm, Option.some_inj, eq_comm]
  | disconnected session hloop =>
    have hworker := (hthreads.current session (by rw [hloop]; rfl)).2.1
    have hending : m.IsEnding session := .inr (by rw [hloop]; rfl)
    rw [hloop] at hledger
    refine { h with
      ledger := (hledger.countDisconnected hending fun i => ?_).congr (fun _ => .rfl)
        (fun i => or_congr .rfl ?_) fun _ => .rfl
      fresh := nofun
      room := nofun
      opening := nofun }
    · have hnone : (AcceptLoop.erasing session).pending ≠ some i := nofun
      show (m.records i).worker = .countingDisconnected ∨
          (AcceptLoop.erasing session).pending = some i ↔
        i ≠ session ∧ ((m.records i).worker = .countingDisconnected ∨
          m.acceptThread.pending = some i)
      rw [hloop, or_iff_left hnone]
      by_cases hi : i = session
      · rw [hi, hworker]
        exact iff_of_false nofun fun hne => hne.1 rfl
      · have hother : (AcceptLoop.countingDisconnected session).pending ≠ some i :=
          fun hsame => hi (Option.some.inj hsame).symm
        rw [and_iff_right hi, or_iff_left hother]
    · rw [hloop]
      rfl
  | erased session hloop =>
    have herased : Accounts { m with sessions := m.sessions.filter (· ≠ session) } := { h with }
    exact herased.setAccept hloop rfl rfl rfl (.inl rfl) (.inl rfl) nofun
  | reaped last session rest finished hloop =>
    have hreaped : Accounts { m with sessions := m.sessions.erase session } := { h with }
    exact hreaped.setAccept hloop rfl rfl rfl (.inl rfl) (.inl rfl) nofun
  | joined last session finished hloop hleft =>
    have hjoined : (m.setRecord session { m.records session with joinable := false }).Accounts :=
      h.setRecord rfl .rfl (h.works session) (h.opening session)
    exact hjoined.setAccept hloop rfl rfl rfl (.inl rfl) (.inl rfl) nofun
  | skipped last session finished hloop hnot =>
    exact h.setAccept hloop rfl rfl rfl (.inl rfl) (.inl rfl) nofun

inductive LifecycleView (m : SessionManager) : SessionManager → Prop
  | running (running : Bool) : LifecycleView m { m with running := running }
  | joinedAccept : m.acceptThread = .left → LifecycleView m { m with acceptJoinable := false }
  | swapped : LifecycleView m { m with sessions := [] }
  | joined (session : ℕ) : (m.records session).worker = .left →
      LifecycleView m (m.setRecord session { m.records session with joinable := false })
  | restarted : m.AllJoined →
      LifecycleView m { m with acceptThread := .checking, acceptJoinable := true }

theorem lifecycleStep_view {inHandler failed : Bool} {call call' : LifecycleCall}
    (hat : m.CallAt call) (hs : m.lifecycleStep inHandler call failed = some (m', call')) :
    m.LifecycleView m' := by
  have hsame : m.LifecycleView m := .running m.running
  cases failed with
  | true =>
    cases call with
    | creating =>
      cases hs
      exact hsame
    | checking start => cases start <;> cases hs
    | joining start snapshot => cases snapshot <;> cases hs
    | _ => cases hs
  | false =>
    cases call with
    | none => cases hs
    | entering start | locking start | unlocking start =>
      cases hs
      exact hsame
    | requesting | setRunning | restoring =>
      cases hs
      exact .running _
    | checking start =>
      cases start with
      | true =>
        cases hs
        exact hsame
      | false =>
        cases hs
        exact .running false
    | joiningAccept start =>
      simp only [lifecycleStep] at hs
      split at hs
      case isTrue =>
        obtain ⟨hleft, hs⟩ := Option.ite_none_right_eq_some.mp hs
        cases hs
        exact .joinedAccept hleft
      case isFalse =>
        cases hs
        exact hsame
    | swapping start =>
      cases hs
      exact .swapped
    | joining start snapshot =>
      cases snapshot with
      | nil =>
        cases hs
        exact hsame
      | cons session snapshot =>
        simp only [lifecycleStep] at hs
        split at hs
        case isTrue =>
          obtain ⟨hleft, hs⟩ := Option.ite_none_right_eq_some.mp hs
          cases hs
          exact .joined session hleft
        case isFalse =>
          cases hs
          exact hsame
    | creating =>
      cases hs
      exact .restarted hat

inductive ManagerView (m : SessionManager) : SessionManager → Prop
  | accept {m' : SessionManager} : m.AcceptView m' → ManagerView m m'
  | session {m' : SessionManager} (session : ℕ) : m.SessionView session m' → ManagerView m m'
  | lifecycle {m' : SessionManager} : m.LifecycleView m' → ManagerView m m'
  | stats (stats : SessionStats) : ManagerView m { m with stats := stats }

theorem Accounts.lifecycleStep {snapshots : ℕ → Prop} (h : m.Accounts)
    (hthreads : m.Threads snapshots) (hview : m.LifecycleView m') : m'.Accounts := by
  cases hview with
  | running running => exact { h with }
  | joinedAccept hleft => exact { h with }
  | swapped => exact { h with }
  | joined session hleft => exact h.setRecord rfl .rfl (h.works session) (h.opening session)
  | restarted hjoined =>
    -- the thread before has ended, with no session half made
    have hover := hthreads.accept hjoined.accept
    have hquiet : m.acceptThread.current = .none := (AcceptLoop.eq_of_isOver hover).2.1
    obtain ⟨hcounted, hslot, hpending, -⟩ := AcceptLoop.eq_none_of_current hquiet
    have hchecking : (m.setAccept .checking).Accounts :=
      h.setAccept rfl hcounted.symm hslot.symm hpending.symm (.inr rfl) (.inr rfl) nofun
    exact { hchecking with }

theorem Accounts.step {snapshots : ℕ → Prop} (h : m.Accounts) (hthreads : m.Threads snapshots)
    (hview : m.ManagerView m') : m'.Accounts := by
  cases hview with
  | accept hview => exact h.acceptStep hthreads hview
  | session session hview => exact h.sessionStep hthreads hview
  | lifecycle hview => exact h.lifecycleStep hthreads hview
  | stats stats => exact { h with }

structure Identified (m : SessionManager) : Prop where
  next : m.nextSessionId = sessionId m.created
  ids : m.ids = (List.range m.created).map sessionId
  records : ∀ i < m.created, (m.records i).id = sessionId i

theorem Identified.setRecord {record : ManagedSession} (h : m.Identified)
    (hid : record.id = (m.records session).id) : (m.setRecord session record).Identified := by
  refine { h with records := fun i hi => ?_ }
  rw [records_setRecord, Function.update_apply]
  split
  case isTrue hsession =>
    subst hsession
    exact hid.trans (h.records i hi)
  case isFalse => exact h.records i hi

theorem Identified.create (h : m.Identified) : m.create.Identified where
  next := by
    show m.nextSessionId + 1 = sessionId (m.created + 1)
    rw [h.next]
    exact (BitVec.ofNat_add _ 1).symm
  ids := by
    show m.ids ++ [m.nextSessionId] = (List.range (m.created + 1)).map sessionId
    rw [List.range_succ, List.map_append, h.ids, h.next]
    rfl
  records i hi := by
    show (Function.update m.records m.created _ i).id = sessionId i
    rw [Function.update_apply]
    split
    case isTrue hnew =>
      rw [hnew]
      exact h.next
    case isFalse hold => exact h.records i (Nat.lt_of_le_of_ne (Nat.le_of_lt_succ hi) hold)

theorem Identified.setAccept {acceptThread : AcceptLoop} (h : m.Identified) :
    (m.setAccept acceptThread).Identified := { h with }

theorem Identified.step (h : m.Identified) (hview : m.ManagerView m') : m'.Identified := by
  cases hview with
  | accept hview =>
    cases hview with
    | created hloop => exact h.create.setAccept
    | started session hloop | deactivated session hloop | joined last session finished hloop hleft =>
      refine (h.setRecord ?_).setAccept
      rfl
    | _ => exact { h with }
  | session session hview =>
    cases hview with
    | works stats worker =>
      have hstats : Identified { m with stats := stats } := { h with }
      exact hstats.setRecord rfl
    | exchanged hworker | left hworker => exact h.setRecord rfl
    | gaveBack hworker =>
      have hgiven : (m.giveSlotBack session).Identified := { h with }
      exact hgiven.setRecord rfl
    | disconnected hworker =>
      have hcounted : (m.countDisconnected session).Identified := { h with }
      exact hcounted.setRecord rfl
  | lifecycle hview =>
    cases hview with
    | joined session hleft => exact h.setRecord rfl
    | _ => exact { h with }
  | stats stats => exact { h with }

end SessionManager

namespace ManagerRun
variable {Tid : Type} [DecidableEq Tid] {s s' : ManagerRun Tid}

theorem ManagerInvariant.view {action : ManagerAction Tid} (h : s.ManagerInvariant)
    (hs : s.step action = some s') : s.manager.ManagerView s'.manager := by
  cases action with
  | call t start =>
    obtain ⟨-, hs⟩ := Option.ite_none_right_eq_some.mp hs
    cases hs
    exact .stats s.manager.stats
  | proceed t failed =>
    obtain ⟨⟨m, call⟩, hstep, hmove⟩ := Option.bind_eq_some_iff.mp hs
    obtain ⟨rfl, -⟩ := exists_of_move hmove
    exact .lifecycle (SessionManager.lifecycleStep_view (h.calls t) hstep)
  | accept action =>
    obtain ⟨m, hstep, rfl⟩ := Option.map_eq_some_iff.mp hs
    exact .accept (SessionManager.acceptStep_view rfl hstep)
  | session session action =>
    obtain ⟨-, hs⟩ := Option.ite_none_right_eq_some.mp hs
    obtain ⟨m, hstep, rfl⟩ := Option.map_eq_some_iff.mp hs
    exact .session session (SessionManager.sessionStep_view hstep)
  | sent threw =>
    cases hs
    exact .stats _

/-- What every step of the manager keeps holds in every state. -/
theorem manager_of_reachable {options : TcpSessionManagerOptions} {p : SessionManager → Prop}
    (hinit : p { options })
    (hstep : ∀ (m m' : SessionManager) (snapshots : ℕ → Prop), m.Threads snapshots → p m →
      m.ManagerView m' → p m')
    (h : (managerSystem Tid options).Reachable s) : p s.manager := by
  refine TransitionSystem.Reachable.invariant (P := fun s => p s.manager) ?_ ?_ h
  · rintro s ⟨-, rfl⟩
    exact hinit
  · intro s action s' hs hp haction
    have hinv := managerInvariant_of_reachable hs
    exact hstep _ _ _ hinv.threads hp (hinv.view haction)

theorem options_of_reachable {options : TcpSessionManagerOptions}
    (h : (managerSystem Tid options).Reachable s) : s.manager.options = options := by
  refine manager_of_reachable (p := fun m => m.options = options) rfl ?_ h
  intro m m' snapshots _ hm hview
  cases hview with
  | accept hview => cases hview <;> exact hm
  | session session hview => cases hview <;> exact hm
  | lifecycle hview => cases hview <;> exact hm
  | stats stats => exact hm

theorem identified_of_reachable {options : TcpSessionManagerOptions}
    (h : (managerSystem Tid options).Reachable s) : s.manager.Identified :=
  manager_of_reachable ⟨rfl, rfl, nofun⟩ (fun _ _ _ _ hm hview => hm.step hview) h

theorem accounts_of_reachable {options : TcpSessionManagerOptions}
    (h : (managerSystem Tid options).Reachable s) : s.manager.Accounts := by
  refine manager_of_reachable ?_ (fun _ _ _ hthreads hm hview => hm.step hthreads hview) h
  exact ⟨⟨.nil nofun, .nil nofun, .nil nofun, rfl, rfl, rfl⟩, nofun, nofun, Nat.zero_le _, nofun,
    nofun, nofun⟩

end ManagerRun
end RobotMiddleware
