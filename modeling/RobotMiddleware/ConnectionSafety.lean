import RobotMiddleware.ConnectionModel

/-! What the mutexes of a connection are for. No system call of it meets a file that is not its
own, however calls and the rest of the process interleave, and every call can come back. -/
namespace RobotMiddleware

namespace ConnectionState
variable {Tid : Type} [DecidableEq Tid] {s s' s'' : ConnectionState Tid} {t u : Tid}
  {call : ConnectionCall} {turn : ConnectionTurn}

/-- Every mutex is with the thread that is where it is held, and the number that a thread has
read is still the one of the socket. -/
structure Exclusive (s : ConnectionState Tid) : Prop where
  send : ScopedLock.Held s.sendMutex s.calls ConnectionCall.holdsSend
  receive : ScopedLock.Held s.receiveMutex s.calls ConnectionCall.holdsReceive
  descriptor : ScopedLock.Held s.descriptorMutex s.calls ConnectionCall.holdsDescriptor
  files : ∀ fd, s.files fd = some .connection ↔ s.socketFd = some fd
  io : ∀ t fd, (s.calls t).ioFd = some fd → s.socketFd = some fd
  touched : ∀ owner ∈ s.touched, owner = some .connection
  closes : s.closes = if s.socketFd.isSome then 0 else 1

theorem exists_of_move (hs : s.move t call = some s') :
    s'.calls = Function.update s.calls t call ∧ s'.files = s.files ∧ s'.socketFd = s.socketFd ∧
      s'.touched = s.touched ∧ s'.closes = s.closes ∧
      ScopedLock.pass s.sendMutex t (s.calls t).holdsSend call.holdsSend = some s'.sendMutex ∧
      ScopedLock.pass s.receiveMutex t (s.calls t).holdsReceive call.holdsReceive =
        some s'.receiveMutex ∧
      ScopedLock.pass s.descriptorMutex t (s.calls t).holdsDescriptor call.holdsDescriptor =
        some s'.descriptorMutex := by
  simp only [move, Option.bind_eq_bind, Option.bind_eq_some_iff, Option.pure_def] at hs
  obtain ⟨send, hsend, receive, hreceive, descriptor, hdescriptor, hs⟩ := hs
  obtain rfl := Option.some.inj hs
  exact ⟨rfl, rfl, rfl, rfl, rfl, hsend, hreceive, hdescriptor⟩

theorem exists_of_turn (hs : s.step (.turn t turn) = some s') :
    ∃ call, (s.calls t).next s.socketFd turn = some call ∧
      (s.perform (s.calls t) turn).move t call = some s' := by
  obtain ⟨call, hnext, hmove⟩ := Option.bind_eq_some_iff.mp hs
  exact ⟨call, hnext, hmove⟩

omit [DecidableEq Tid] in
@[simp] theorem closeFd_calls : s.closeFd.calls = s.calls := by
  unfold closeFd
  split <;> rfl

omit [DecidableEq Tid] in
@[simp] theorem closeFd_mutexes : s.closeFd.sendMutex = s.sendMutex ∧
    s.closeFd.receiveMutex = s.receiveMutex ∧ s.closeFd.descriptorMutex = s.descriptorMutex := by
  unfold closeFd
  split <;> exact ⟨rfl, rfl, rfl⟩

omit [DecidableEq Tid] in
@[simp] theorem perform_calls : (s.perform call turn).calls = s.calls := by
  unfold perform
  split <;> simp

omit [DecidableEq Tid] in
theorem perform_mutexes (s : ConnectionState Tid) (call : ConnectionCall)
    (turn : ConnectionTurn) : (s.perform call turn).sendMutex = s.sendMutex ∧
    (s.perform call turn).receiveMutex = s.receiveMutex ∧
    (s.perform call turn).descriptorMutex = s.descriptorMutex := by
  unfold perform
  split <;> simp

end ConnectionState

namespace ConnectionCall
variable {call call' : ConnectionCall} {turn : ConnectionTurn} {socketFd : Option ℕ} {fd : ℕ}

/-- A system call is made with a number that was read under a mutex still held, or with the one
of the socket. -/
theorem systemCall_eq (h : call.systemCall socketFd turn = some fd) :
    call.ioFd = some fd ∨ socketFd = some fd := by
  unfold systemCall at h
  split at h <;> first
    | exact .inl h
    | exact .inr h
    | exact absurd h (Option.some_ne_none fd).symm

/-- A call comes to its loop from where it has read the number, or stays in it. -/
theorem ioFd_of_next (h : call.next socketFd turn = some call') (hfd : call'.ioFd = some fd) :
    call.ioFd = some fd ∨ socketFd = some fd := by
  unfold next at h
  split at h <;> simp only [Option.some.injEq, reduceCtorEq] at h <;> subst h
  all_goals first
    | exact .inl hfd
    | exact absurd hfd (Option.some_ne_none fd).symm
    | (cases socketFd <;> first
        | exact absurd hfd (Option.some_ne_none fd).symm
        | exact .inr hfd)
    | (split at hfd <;> exact absurd hfd (Option.some_ne_none fd).symm)

theorem holds_of_ioFd (h : call.ioFd = some fd) :
    call.holdsSend = true ∨ call.holdsReceive = true := by
  cases call with
  | sending fd => exact .inl rfl
  | receiving fd => exact .inr rfl
  | _ => cases h

theorem holdsReceive_of_usesBuffer (h : call.usesBuffer = true) : call.holdsReceive = true := by
  cases call <;> first | rfl | cases h

theorem next_closing (h : closing.next socketFd turn = some call') : call' = clearing := by
  cases turn <;> cases h
  rfl

end ConnectionCall

namespace ConnectionState
variable {Tid : Type} [DecidableEq Tid] {s s' s'' : ConnectionState Tid} {t u : Tid}
  {call : ConnectionCall} {turn : ConnectionTurn}

omit [DecidableEq Tid] in
/-- `close` has both I/O mutexes, so no other thread is in an I/O loop. -/
theorem Exclusive.ioFd_eq_none (h : s.Exclusive) (ht : s.calls t = .closing) (u : Tid) :
    (s.calls u).ioFd = none := by
  refine Option.eq_none_iff_forall_ne_some.mpr fun fd hfd => ?_
  have hut : u = t := by
    rcases ConnectionCall.holds_of_ioFd hfd with hsend | hreceive
    · exact h.send.eq hsend (by rw [ht]; rfl)
    · exact h.receive.eq hreceive (by rw [ht]; rfl)
  rw [hut, ht] at hfd
  cases hfd

omit [DecidableEq Tid] in
/-- What the system call of a turn meets. -/
theorem Exclusive.perform (h : s.Exclusive) : (s.perform (s.calls t) turn).Exclusive := by
  have htouched : ∀ owner ∈ s.touched ++
      (((s.calls t).systemCall s.socketFd turn).map s.files).toList, owner = some .connection := by
    intro owner howner
    rcases List.mem_append.mp howner with hold | hnew
    · exact h.touched owner hold
    · obtain ⟨fd, hfd, rfl⟩ := Option.map_eq_some_iff.mp (Option.mem_toList.mp hnew)
      have hsocket : s.socketFd = some fd :=
        (ConnectionCall.systemCall_eq hfd).elim (h.io t fd) id
      exact (h.files fd).mpr hsocket
  unfold ConnectionState.perform
  dsimp only
  split
  · next hclosing =>
    have hio := h.ioFd_eq_none hclosing.1
    cases hsocket : s.socketFd with
    | none =>
      simp only [closeFd, hsocket] at htouched ⊢
      exact ⟨h.send, h.receive, h.descriptor, fun fd => hsocket ▸ h.files fd,
        fun u fd hfd => hsocket ▸ h.io u fd hfd, htouched, hsocket ▸ h.closes⟩
    | some fd =>
      have hcloses : s.closes = 0 := by
        rw [h.closes, hsocket]
        rfl
      simp only [closeFd, hsocket] at htouched ⊢
      refine ⟨h.send, h.receive, h.descriptor, fun other => ?_, fun u other hfd => ?_, htouched, ?_⟩
      · by_cases hother : other = fd
        · simp [hother]
        · have hiff := h.files other
          rw [hsocket, Option.some.injEq] at hiff
          simp only [Function.update_of_ne hother, hiff, reduceCtorEq, iff_false]
          exact fun heq => hother heq.symm
      · rw [hio u] at hfd
        cases hfd
      · simp [hcloses]
  · exact ⟨h.send, h.receive, h.descriptor, h.files, h.io, htouched, h.closes⟩

omit [DecidableEq Tid] in
theorem perform_ioFd (h : s.Exclusive) {fd : ℕ}
    (hnext : (s.calls t).next s.socketFd turn = some call) (hfd : call.ioFd = some fd) :
    (s.perform (s.calls t) turn).socketFd = some fd := by
  have hsocket : s.socketFd = some fd :=
    (ConnectionCall.ioFd_of_next hnext hfd).elim (h.io t fd) id
  unfold perform
  split
  · next hclosing =>
    rw [hclosing.1] at hnext
    rw [ConnectionCall.next_closing hnext] at hfd
    cases hfd
  · exact hsocket

theorem Exclusive.turned (h : s.Exclusive) (hs : s.step (.turn t turn) = some s') :
    s'.Exclusive := by
  obtain ⟨call, hnext, hmove⟩ := exists_of_turn hs
  have hio (fd : ℕ) (hfd : call.ioFd = some fd) := perform_ioFd h hnext hfd
  have h' : (s.perform (s.calls t) turn).Exclusive := h.perform
  obtain ⟨hcalls, hfiles, hsocket, htouched, hcloses, hsend, hreceive, hdescriptor⟩ :=
    exists_of_move hmove
  refine ⟨?_, ?_, ?_, ?_, fun u fd hfd => ?_, ?_, ?_⟩
  · rw [hcalls]
    exact h'.send.pass hsend
  · rw [hcalls]
    exact h'.receive.pass hreceive
  · rw [hcalls]
    exact h'.descriptor.pass hdescriptor
  · rw [hfiles, hsocket]
    exact h'.files
  · rw [hsocket]
    rw [hcalls] at hfd
    by_cases hut : u = t
    · rw [hut, Function.update_self] at hfd
      exact hio fd hfd
    · rw [Function.update_of_ne hut] at hfd
      exact h'.io u fd hfd
  · rw [htouched]
    exact h'.touched
  · rw [hcloses, hsocket]
    exact h'.closes

omit [DecidableEq Tid] in
/-- A file of the rest of the process comes or goes. -/
theorem Exclusive.updateFiles (h : s.Exclusive) {fd : ℕ} {owner : Option FileOwner}
    (hfd : s.files fd ≠ some .connection) (howner : owner ≠ some .connection) :
    ({ s with files := Function.update s.files fd owner } : ConnectionState Tid).Exclusive := by
  refine { h with files := fun other => ?_ }
  dsimp only
  by_cases hother : other = fd
  · subst hother
    rw [Function.update_self]
    exact ⟨fun heq => absurd heq howner, fun hsocket => absurd ((h.files other).mpr hsocket) hfd⟩
  · rw [Function.update_of_ne hother]
    exact h.files other

theorem Exclusive.step {action : ConnectionAction Tid} (h : s.Exclusive)
    (hs : s.step action = some s') : s'.Exclusive := by
  cases action with
  | turn t turn => exact h.turned hs
  | «begin» t call =>
    obtain ⟨⟨hidle, hfirst⟩, hs⟩ := Option.ite_none_right_eq_some.mp hs
    obtain rfl := Option.some.inj hs
    -- a call begins where it holds nothing
    have hnothing : call.holdsSend = false ∧ call.holdsReceive = false ∧
        call.holdsDescriptor = false ∧ call.ioFd = none := by
      cases call with
      | interruptLocking inReceive =>
        cases inReceive
        · exact ⟨rfl, rfl, rfl, rfl⟩
        · cases hfirst
      | sendLocking => exact ⟨rfl, rfl, rfl, rfl⟩
      | receiveLocking => exact ⟨rfl, rfl, rfl, rfl⟩
      | descriptorLocking call => exact ⟨rfl, rfl, rfl, rfl⟩
      | closeLocking first => exact ⟨rfl, rfl, rfl, rfl⟩
      | _ => cases hfirst
    obtain ⟨hsend, hreceive, hdescriptor, hio⟩ := hnothing
    refine { h with
      send := h.send.pass ?_, receive := h.receive.pass ?_, descriptor := h.descriptor.pass ?_
      io := fun u fd hfd => ?_ }
    · rw [hsend, hidle]
      rfl
    · rw [hreceive, hidle]
      rfl
    · rw [hdescriptor, hidle]
      rfl
    · dsimp only at hfd
      by_cases hut : u = t
      · rw [hut, Function.update_self, hio] at hfd
        cases hfd
      · rw [Function.update_of_ne hut] at hfd
        exact h.io u fd hfd
  | openFile fd =>
    obtain ⟨hfree, hs⟩ := Option.ite_none_right_eq_some.mp hs
    obtain rfl := Option.some.inj hs
    exact h.updateFiles (by simp [hfree]) (by simp)
  | closeFile fd =>
    obtain ⟨hother, hs⟩ := Option.ite_none_right_eq_some.mp hs
    obtain rfl := Option.some.inj hs
    exact h.updateFiles (by simp [hother]) (by simp)

theorem Exclusive.of_reachable (h : (connectionSystem Tid).Reachable s) : s.Exclusive := by
  refine h.invariant (fun s hs => ?_) fun s action s' _ hs hstep => hs.step hstep
  obtain ⟨files, fd, hfiles, rfl⟩ := hs
  refine ⟨fun t => by simp [ConnectionCall.holdsSend],
    fun t => by simp [ConnectionCall.holdsReceive],
    fun t => by simp [ConnectionCall.holdsDescriptor], fun other => ?_,
    fun t fd hfd => ?_, fun owner howner => ?_, rfl⟩
  · rw [hfiles, Option.some.injEq]
    exact eq_comm
  · cases hfd
  · cases howner

/-- Every system call of the connection meets its own open file, which the connection closes
once at most; one thread sends at a time, and one is at the receive buffer. -/
theorem connection_system_calls_exclusive (h : (connectionSystem Tid).Reachable s) :
    (∀ owner ∈ s.touched, owner = some .connection) ∧
      (∀ fd, s.files fd = some .connection ↔ s.socketFd = some fd) ∧
      s.closes = (if s.socketFd.isSome then 0 else 1) ∧
      (∀ t fd, (s.calls t).ioFd = some fd → s.socketFd = some fd) ∧
      (∀ t u fd fd', s.calls t = .sending fd → s.calls u = .sending fd' → t = u) ∧
      ∀ t u, (s.calls t).usesBuffer = true → (s.calls u).usesBuffer = true → t = u := by
  have hinv := Exclusive.of_reachable h
  refine ⟨hinv.touched, hinv.files, hinv.closes, hinv.io, fun t u fd fd' ht hu => ?_,
    fun t u ht hu => ?_⟩
  · exact hinv.send.eq (by rw [ht]; rfl) (by rw [hu]; rfl)
  · have htheld := ConnectionCall.holdsReceive_of_usesBuffer ht
    have huheld := ConnectionCall.holdsReceive_of_usesBuffer hu
    exact hinv.receive.eq htheld huheld

theorem init_of_socket (fd : ℕ) : (connectionSystem Tid).init {
    files := fun other => if other = fd then some .connection else none
    socketFd := some fd } := by
  refine ⟨_, fd, fun other => ?_, rfl⟩
  by_cases hother : other = fd <;> simp [hother]

/-- Thread 2 closes while 0 sends and 1 receives, and has to wait until 3 has interrupted them;
the number goes to another file, which the next send does not touch. -/
theorem connection_system_calls_exclusive_reused :
    ∃ s, (connectionSystem ℕ).Reachable s ∧ s.files 3 = some .other ∧ s.touched.length = 4 ∧
      ∀ owner ∈ s.touched, owner = some .connection := by
  obtain ⟨s, hs, hend⟩ := TransitionSystem.exists_reachable_of_run (connectionSystem ℕ)
    { files := fun fd => if fd = 3 then some .connection else none, socketFd := some 3 }
    [.begin 0 .sendLocking, .turn 0 .goOn, .turn 0 .goOn, .turn 0 .goOn, .turn 0 .again,
      .begin 1 .receiveLocking, .turn 1 .goOn, .turn 1 .goOn, .turn 1 .goOn, .turn 1 .again,
      .begin 2 (.closeLocking .send), .begin 3 (.interruptLocking false), .turn 3 .goOn,
      .turn 3 .goOn, .turn 1 .goOn, .turn 0 .goOn, .turn 2 .goOn, .turn 2 .goOn, .turn 2 .goOn,
      .turn 2 .goOn, .openFile 3, .turn 2 .goOn, .begin 0 .sendLocking, .turn 0 .goOn,
      .turn 0 .goOn, .turn 0 .goOn]
    (fun s => s.files 3 = some .other ∧ s.touched.length = 4 ∧ s.calls 0 = .idle)
    (init_of_socket 3) (by decide)
  obtain ⟨hfile, hlength, -⟩ := of_decide_eq_true hend
  exact ⟨s, hs, hfile, hlength, (connection_system_calls_exclusive hs).1⟩

end ConnectionState

namespace ConnectionCall
variable {call call' : ConnectionCall} {socketFd : Option ℕ}

/-- How many turns the call still needs where it is never kept waiting. -/
def left : ConnectionCall → ℕ
  | .idle => 0
  | .sending _ | .receiving _ | .receiveEnding | .clearing | .descriptorUsing _ => 1
  | .interrupting inReceive => if inReceive then 2 else 1
  | .sendReading | .receiveReading | .descriptorLocking _ | .closing => 2
  | .interruptLocking inReceive => if inReceive then 3 else 2
  | .sendDescriptor | .receiveDescriptor | .closeDescriptor => 3
  | .sendLocking | .receiveLocking | .closeTrying _ => 4
  | .closeLocking _ => 5

def heldFor : ConnectionCall → ℕ
  | .closeTrying _ => 1
  | call => if call.holdsSend || call.holdsReceive then call.left else 0

def holds : IoSide → ConnectionCall → Bool
  | .send => holdsSend
  | .receive => holdsReceive

def awaitsIo : ConnectionCall → Bool
  | .sendLocking | .receiveLocking | .closeLocking _ | .closeTrying _ => true
  | _ => false

def Narrows (call call' : ConnectionCall) : Prop :=
  ∀ side, call'.holds side = true → call.holds side = true

theorem next_of_ne_idle (socketFd : Option ℕ) (h : call ≠ .idle) :
    ∃ call', call.next socketFd .goOn = some call' ∧ call'.left < call.left := by
  cases call with
  | idle => exact absurd rfl h
  | sendReading => cases socketFd <;> exact ⟨_, rfl, by simp [left]⟩
  | receiveReading => cases socketFd <;> exact ⟨_, rfl, by simp [left]⟩
  | interruptLocking inReceive => cases inReceive <;> exact ⟨_, rfl, by simp [left]⟩
  | interrupting inReceive => cases inReceive <;> exact ⟨_, rfl, by simp [left]⟩
  | _ => exact ⟨_, rfl, by simp [left]⟩

theorem narrows_of_next (h : call.next socketFd .goOn = some call')
    (hawaits : call.awaitsIo = false) : Narrows call call' := by
  cases call with
  | sendLocking | receiveLocking | closeLocking first | closeTrying first => cases hawaits
  | idle => cases h
  | sendReading | receiveReading =>
    obtain rfl := Option.some.inj h
    rintro (_ | _) <;> cases socketFd <;> simp [holds, holdsSend, holdsReceive]
  | interruptLocking inReceive | interrupting inReceive =>
    obtain rfl := Option.some.inj h
    rintro (_ | _) <;> cases inReceive <;> simp [holds, holdsSend, holdsReceive]
  | _ =>
    obtain rfl := Option.some.inj h
    rintro (_ | _) <;> simp [holds, holdsSend, holdsReceive]

/-- Where a call has the descriptor mutex, it gives it back with its next turn. -/
theorem next_of_holdsDescriptor (socketFd : Option ℕ) (h : call.holdsDescriptor = true) :
    ∃ call', call.next socketFd .goOn = some call' ∧ call'.holdsDescriptor = false ∧
      Narrows call call' := by
  have hcall : call.awaitsIo = false ∧ call ≠ .idle := by
    cases call <;> first | (cases h; done) | exact ⟨rfl, by rintro ⟨⟩⟩
  obtain ⟨hawaits, hbusy⟩ := hcall
  obtain ⟨call', hnext, -⟩ := next_of_ne_idle socketFd hbusy
  refine ⟨call', hnext, ?_, narrows_of_next hnext hawaits⟩
  cases call with
  | sendReading | receiveReading =>
    obtain rfl := Option.some.inj hnext
    cases socketFd <;> rfl
  | interrupting inReceive =>
    obtain rfl := Option.some.inj hnext
    cases inReceive <;> rfl
  | descriptorUsing | closing =>
    obtain rfl := Option.some.inj hnext
    rfl
  | _ => cases h

theorem awaitsIo_of_isBrief (h : call.isBrief = true) : call.awaitsIo = false := by
  cases call <;> first | rfl | cases h

theorem isBrief_of_next (h : call.isBrief = true)
    (hnext : call.next socketFd .goOn = some call') : call'.isBrief = true ∨ call' = .idle := by
  cases call with
  | interruptLocking inReceive | interrupting inReceive =>
    cases inReceive
    · obtain rfl := Option.some.inj hnext
      first | exact .inl rfl | exact .inr rfl
    · cases h
  | descriptorLocking | descriptorUsing =>
    obtain rfl := Option.some.inj hnext
    first | exact .inl rfl | exact .inr rfl
  | _ => cases h

theorem holdsDescriptor_of_ioFd (h : call.ioFd ≠ none) : call.holdsDescriptor = false := by
  cases call <;> first | rfl | exact absurd rfl h

theorem heldFor_le_left (call : ConnectionCall) : call.heldFor ≤ call.left := by
  unfold heldFor
  split
  · exact Nat.le_add_left 1 3
  · split <;> omega

/-- Where a call has an I/O mutex, it does not wait for the other one to give it back. -/
theorem next_of_heldFor (socketFd : Option ℕ) (h : call.heldFor ≠ 0) :
    ∃ turn call', call.next socketFd turn = some call' ∧ call'.heldFor < call.heldFor ∧
      Narrows call call' := by
  by_cases hawaits : call.awaitsIo = true
  · cases call with
    | closeTrying first =>
      refine ⟨.again, .closeLocking first, rfl, by cases first <;> decide, ?_⟩
      rintro (_ | _) <;> cases first <;> simp [holds, holdsSend, holdsReceive]
    | sendLocking | receiveLocking | closeLocking first => exact absurd rfl h
    | _ => cases hawaits
  · have hawaits' : call.awaitsIo = false := eq_false_of_ne_true hawaits
    have hheld : call.heldFor = call.left := by
      unfold heldFor at h ⊢
      cases call <;> simp_all [awaitsIo]
    have hbusy : call ≠ .idle := by
      rintro rfl
      exact h rfl
    obtain ⟨call', hnext, hlt⟩ := next_of_ne_idle socketFd hbusy
    refine ⟨.goOn, call', hnext, ?_, narrows_of_next hnext hawaits'⟩
    have hle := call'.heldFor_le_left
    omega

theorem holds_of_heldFor (h : call.heldFor = 0) (side : IoSide) : call.holds side = false := by
  cases call with
  | interruptLocking inReceive | interrupting inReceive =>
    cases inReceive
    · cases side <;> rfl
    · cases h
  | _ => first | (cases h; done) | (cases side <;> rfl)

end ConnectionCall

namespace ConnectionState
variable {Tid : Type} [DecidableEq Tid] {s s' s'' : ConnectionState Tid} {t u v : Tid}
  {call : ConnectionCall} {turn : ConnectionTurn}

def mutex (s : ConnectionState Tid) : IoSide → Option Tid
  | .send => s.sendMutex
  | .receive => s.receiveMutex

omit [DecidableEq Tid] in
theorem Exclusive.mutex (h : s.Exclusive) (side : IoSide) :
    ScopedLock.Held (s.mutex side) s.calls (ConnectionCall.holds side) := by
  cases side
  · exact h.send
  · exact h.receive

/-- A run in which only the calls of some threads move on, and take no I/O mutex. -/
structure Eases (moving : Tid → Prop) (s s' : ConnectionState Tid) : Prop where
  leads : (connectionSystem Tid).Leads s s'
  stays : ∀ v, ¬ moving v → s'.calls v = s.calls v
  narrows : ∀ v, ConnectionCall.Narrows (s.calls v) (s'.calls v)

theorem leads_of_step {action : ConnectionAction Tid} (hs : s.step action = some s') :
    (connectionSystem Tid).Leads s s' := .head hs (.refl s')

theorem Eases.refl (moving : Tid → Prop) (s : ConnectionState Tid) : Eases moving s s :=
  ⟨.refl s, fun _ _ => rfl, fun _ _ => id⟩

theorem Eases.trans {moving moving' : Tid → Prop} (h : Eases moving s s')
    (h' : Eases moving' s' s'') (hmoving : ∀ v, ¬ moving v → ¬ moving' v) :
    Eases moving s s'' where
  leads := h.leads.trans h'.leads
  stays v hv := (h'.stays v (hmoving v hv)).trans (h.stays v hv)
  narrows v side hside := h.narrows v side (h'.narrows v side hside)

theorem Eases.exclusive {moving : Tid → Prop} (h : Eases moving s s') (hs : s.Exclusive) :
    s'.Exclusive :=
  h.leads.invariant (fun _ _ _ hs hstep => hs.step hstep) hs

/-- Nobody takes a mutex that is free. -/
theorem Eases.mutex_eq_none {moving : Tid → Prop} (h : Eases moving s s') (hs : s.Exclusive)
    {side : IoSide} (hnone : s.mutex side = none) : s'.mutex side = none := by
  refine ((h.exclusive hs).mutex side).eq_none fun v => eq_false_of_ne_true fun hv => ?_
  have hholder : s.mutex side = some v := (hs.mutex side v).mpr (h.narrows v side hv)
  rw [hnone] at hholder
  cases hholder

/-- The turn of a thread that does not have to wait. -/
theorem exists_turn (hnext : (s.calls t).next s.socketFd turn = some call)
    (hside : ∀ side, call.holds side = true →
      (s.calls t).holds side = true ∨ s.mutex side = none)
    (hdescriptor : call.holdsDescriptor = true →
      (s.calls t).holdsDescriptor = true ∨ s.descriptorMutex = none) :
    ∃ s', s.step (.turn t turn) = some s' ∧ s'.calls = Function.update s.calls t call := by
  obtain ⟨hsend, hreceive, hmutex⟩ := s.perform_mutexes (s.calls t) turn
  obtain ⟨send, hsend'⟩ := ScopedLock.exists_pass (t := t) (hside .send)
  obtain ⟨receive, hreceive'⟩ := ScopedLock.exists_pass (t := t) (hside .receive)
  obtain ⟨descriptor, hdescriptor'⟩ := ScopedLock.exists_pass (t := t) hdescriptor
  refine ⟨{ s.perform (s.calls t) turn with
    sendMutex := send, receiveMutex := receive, descriptorMutex := descriptor
    calls := Function.update s.calls t call }, ?_, rfl⟩
  refine Option.bind_eq_some_iff.mpr ⟨call, hnext, ?_⟩
  simp only [move, perform_calls, hsend, hreceive, hmutex]
  exact Option.bind_eq_some_iff.mpr ⟨send, hsend', Option.bind_eq_some_iff.mpr ⟨receive, hreceive',
    Option.bind_eq_some_iff.mpr ⟨descriptor, hdescriptor', rfl⟩⟩⟩

theorem Eases.of_turn {moving : Tid → Prop}
    (hs : s.step (.turn t turn) = some s')
    (hcalls : s'.calls = Function.update s.calls t call) (hmoving : moving t)
    (hnarrows : ConnectionCall.Narrows (s.calls t) call) : Eases moving s s' := by
  refine ⟨leads_of_step hs, fun v hv => ?_, fun v => ?_⟩
  · have hvt : v ≠ t := by
      rintro rfl
      exact hv hmoving
    rw [hcalls, Function.update_of_ne hvt]
  · rw [hcalls]
    by_cases hvt : v = t
    · subst hvt
      rw [Function.update_self]
      exact hnarrows
    · rw [Function.update_of_ne hvt]
      exact fun _ => id

/-- Whoever has the descriptor mutex gives it back without waiting for anything. -/
theorem exists_descriptor_free (h : s.Exclusive) :
    ∃ s', Eases (fun v => (s.calls v).holdsDescriptor = true) s s' ∧ s'.descriptorMutex = none := by
  cases hmutex : s.descriptorMutex with
  | none => exact ⟨s, .refl _ s, hmutex⟩
  | some u =>
    have hu : (s.calls u).holdsDescriptor = true := (h.descriptor u).mp hmutex
    obtain ⟨call, hnext, hfree, hnarrows⟩ :=
      ConnectionCall.next_of_holdsDescriptor s.socketFd hu
    obtain ⟨s', hstep, hcalls⟩ := exists_turn hnext (fun side hside => .inl (hnarrows side hside))
      fun _ => .inl hu
    have heases : Eases (fun v => (s.calls v).holdsDescriptor = true) s s' :=
      .of_turn hstep hcalls hu hnarrows
    refine ⟨s', heases, (heases.exclusive h).descriptor.eq_none fun v => ?_⟩
    rw [hcalls]
    by_cases hvu : v = u
    · rw [hvu, Function.update_self]
      exact hfree
    · rw [Function.update_of_ne hvu]
      exact eq_false_of_ne_true fun hv => hvu (h.descriptor.eq hv hu)

/-- A thread keeps its place until it may take the descriptor mutex. -/
theorem exists_descriptor_ready (h : s.Exclusive) (t : Tid) :
    ∃ s', Eases (fun v => (s.calls v).holdsDescriptor = true) s s' ∧ s'.calls t = s.calls t ∧
      ((s'.calls t).holdsDescriptor = true ∨ s'.descriptorMutex = none) := by
  by_cases ht : (s.calls t).holdsDescriptor = true
  · exact ⟨s, .refl _ s, rfl, .inl ht⟩
  · obtain ⟨s', heases, hnone⟩ := exists_descriptor_free h
    exact ⟨s', heases, heases.stays t ht, .inr hnone⟩

/-- A call with an I/O mutex gives it back; it may have to wait for the descriptor. -/
theorem exists_released (h : s.Exclusive) (u : Tid) :
    ∃ s', Eases (fun v => v = u ∨ (s.calls v).holdsDescriptor = true) s s' ∧
      (s'.calls u).heldFor = 0 := by
  have hprogress (x : ConnectionState Tid)
      (hx : Eases (fun v => v = u ∨ (s.calls v).holdsDescriptor = true) s x)
      (hheld : ¬ (x.calls u).heldFor = 0) :
      ∃ y, (connectionSystem Tid).Leads x y ∧
        Eases (fun v => v = u ∨ (s.calls v).holdsDescriptor = true) s y ∧
        (y.calls u).heldFor < (x.calls u).heldFor := by
    obtain ⟨y, hy, hsame, hready⟩ := exists_descriptor_ready (hx.exclusive h) u
    rw [← hsame] at hheld ⊢
    obtain ⟨turn, call, hnext, hlt, hnarrows⟩ :=
      ConnectionCall.next_of_heldFor y.socketFd hheld
    obtain ⟨z, hstep, hcalls⟩ := exists_turn hnext (fun side hside => .inl (hnarrows side hside))
      fun _ => hready
    have hz : Eases (fun v => v = u) y z := .of_turn hstep hcalls rfl hnarrows
    have hmoves := (hx.trans hy fun v hv => by
      rw [hx.stays v hv]
      exact fun hholds => hv (.inr hholds)).trans hz fun v hv hvu => hv (.inl hvu)
    refine ⟨z, hy.leads.trans hz.leads, hmoves, ?_⟩
    rw [hcalls, Function.update_self]
    exact hlt
  obtain ⟨s', -, heases, hzero⟩ := TransitionSystem.exists_leads_of_leads
    (fun x : ConnectionState Tid => (x.calls u).heldFor) hprogress (Eases.refl _ s)
  exact ⟨s', heases, hzero⟩

/-- A thread that waits for an I/O mutex keeps its place until the mutex is free. -/
theorem exists_side_ready (h : s.Exclusive) (ht : (s.calls t).holdsDescriptor = false)
    (side : IoSide) :
    ∃ s', Eases (fun v => v ≠ t) s s' ∧ ((s.calls t).holds side = true ∨ s'.mutex side = none) := by
  by_cases hown : (s.calls t).holds side = true
  · exact ⟨s, .refl _ s, .inl hown⟩
  cases hmutex : s.mutex side with
  | none => exact ⟨s, .refl _ s, .inr hmutex⟩
  | some u =>
    have hu : (s.calls u).holds side = true := (h.mutex side u).mp hmutex
    obtain ⟨s', heases, hzero⟩ := exists_released h u
    have hstays : ∀ v, ¬ v ≠ t → ¬ (v = u ∨ (s.calls v).holdsDescriptor = true) := by
      rintro v hv (rfl | hholds)
      · exact hown (not_not.mp hv ▸ hu)
      · rw [not_not.mp hv, ht] at hholds
        cases hholds
    refine ⟨s', ⟨heases.leads, fun v hv => heases.stays v (hstays v hv), heases.narrows⟩, .inr ?_⟩
    refine ((heases.exclusive h).mutex side).eq_none fun v => ?_
    by_cases hvu : v = u
    · rw [hvu]
      exact ConnectionCall.holds_of_heldFor hzero side
    · refine eq_false_of_ne_true fun hv => hvu ?_
      exact (h.mutex side).eq (heases.narrows v side hv) hu

/-- A call with no I/O mutex to wait for goes on; only calls with the descriptor mutex make room
for it. -/
theorem exists_goOn (h : s.Exclusive) (hbusy : s.calls t ≠ .idle)
    (hside : (s.calls t).awaitsIo = true →
      ∀ side, (s.calls t).holds side = true ∨ s.mutex side = none) :
    ∃ s' socketFd, (connectionSystem Tid).Leads s s' ∧ s'.Exclusive ∧
      (s.calls t).next socketFd .goOn = some (s'.calls t) ∧
      (s'.calls t).left < (s.calls t).left ∧
      ∀ v ≠ t, (s.calls v).holdsDescriptor = false → s'.calls v = s.calls v := by
  obtain ⟨y, hy, hyt, hready⟩ := exists_descriptor_ready h t
  obtain ⟨call, hnext, hlt⟩ := ConnectionCall.next_of_ne_idle y.socketFd hbusy
  have hside' (side : IoSide) (hcall : call.holds side = true) :
      (y.calls t).holds side = true ∨ y.mutex side = none := by
    rw [hyt]
    by_cases hawaits : (s.calls t).awaitsIo = true
    · exact (hside hawaits side).imp id (hy.mutex_eq_none h)
    · have hnarrows := ConnectionCall.narrows_of_next hnext (eq_false_of_ne_true hawaits)
      exact .inl (hnarrows side hcall)
  obtain ⟨s', hstep, hcalls⟩ := exists_turn (hyt ▸ hnext) hside' fun _ => hready
  have hcall : s'.calls t = call := by rw [hcalls, Function.update_self]
  refine ⟨s', y.socketFd, hy.leads.trans (leads_of_step hstep), (hy.exclusive h).step hstep,
    hcall ▸ hnext, hcall ▸ hlt, fun v hvt hv => ?_⟩
  have hstays : y.calls v = s.calls v := hy.stays v (ne_true_of_eq_false hv)
  rw [hcalls, Function.update_of_ne hvt, hstays]

/-- Every call comes nearer to its end. -/
theorem exists_nearer (h : s.Exclusive) (hbusy : s.calls t ≠ .idle) :
    ∃ s', (connectionSystem Tid).Leads s s' ∧ s'.Exclusive ∧
      (s'.calls t).left < (s.calls t).left := by
  by_cases hawaits : (s.calls t).awaitsIo = true
  · have ht : (s.calls t).holdsDescriptor = false := by
      cases hcall : s.calls t <;> rw [hcall] at hawaits <;> first | rfl | cases hawaits
    obtain ⟨x, hx, hsend⟩ := exists_side_ready h ht .send
    have hxt : x.calls t = s.calls t := hx.stays t fun hne => hne rfl
    obtain ⟨y, hy, hreceive⟩ := exists_side_ready (hx.exclusive h) (hxt ▸ ht) .receive
    have hyt : y.calls t = x.calls t := hy.stays t fun hne => hne rfl
    -- the first mutex is still free when the second one is
    have hside (side : IoSide) : (y.calls t).holds side = true ∨ y.mutex side = none := by
      rw [hyt]
      cases side with
      | send => exact (hxt ▸ hsend).imp id (hy.mutex_eq_none (hx.exclusive h))
      | receive => exact hreceive
    have hys : y.calls t = s.calls t := hyt.trans hxt
    obtain ⟨s', -, hleads, hexclusive, -, hlt, -⟩ :=
      exists_goOn (hy.exclusive (hx.exclusive h)) (hys ▸ hbusy) fun _ => hside
    exact ⟨s', hx.leads.trans (hy.leads.trans hleads), hexclusive, hys ▸ hlt⟩
  · obtain ⟨s', -, hleads, hexclusive, -, hlt, -⟩ :=
      exists_goOn h hbusy fun hawaits' => absurd hawaits' hawaits
    exact ⟨s', hleads, hexclusive, hlt⟩

/-- `interrupt` and the small calls go through while other threads are in their I/O loops. -/
theorem exists_brief_idle (h : s.Exclusive) (hbrief : (s.calls t).isBrief = true) :
    ∃ s', (connectionSystem Tid).Leads s s' ∧ s'.calls t = .idle ∧
      ∀ v ≠ t, (s.calls v).ioFd ≠ none → s'.calls v = s.calls v := by
  have hprogress (x : ConnectionState Tid)
      (hx : x.Exclusive ∧ ((x.calls t).isBrief = true ∨ x.calls t = .idle) ∧
        ∀ v ≠ t, (s.calls v).ioFd ≠ none → x.calls v = s.calls v)
      (hbusy : x.calls t ≠ .idle) :
      ∃ y, (connectionSystem Tid).Leads x y ∧
        (y.Exclusive ∧ ((y.calls t).isBrief = true ∨ y.calls t = .idle) ∧
          ∀ v ≠ t, (s.calls v).ioFd ≠ none → y.calls v = s.calls v) ∧
        (y.calls t).left < (x.calls t).left := by
    obtain ⟨hexclusive, hplace, hio⟩ := hx
    have hxbrief : (x.calls t).isBrief = true := hplace.resolve_right hbusy
    have hawaits := ConnectionCall.awaitsIo_of_isBrief hxbrief
    obtain ⟨y, socketFd, hleads, hy, hnext, hlt, hstays⟩ :=
      exists_goOn hexclusive hbusy fun hawaits' => absurd hawaits' (ne_true_of_eq_false hawaits)
    refine ⟨y, hleads, ⟨hy, ConnectionCall.isBrief_of_next hxbrief hnext, fun v hvt hv => ?_⟩, hlt⟩
    have hsame := hio v hvt hv
    have hfree : (x.calls v).holdsDescriptor = false :=
      ConnectionCall.holdsDescriptor_of_ioFd (hsame ▸ hv)
    exact (hstays v hvt hfree).trans hsame
  obtain ⟨s', hleads, ⟨-, -, hio⟩, hidle⟩ := TransitionSystem.exists_leads_of_leads
    (fun x : ConnectionState Tid => (x.calls t).left) hprogress
    ⟨h, .inl hbrief, fun _ _ _ => rfl⟩
  exact ⟨s', hleads, hidle, hio⟩

theorem exists_idle (h : s.Exclusive) (t : Tid) :
    ∃ s', (connectionSystem Tid).Leads s s' ∧ s'.calls t = .idle := by
  have hprogress (x : ConnectionState Tid) (hx : x.Exclusive) (hbusy : ¬ x.calls t = .idle) :
      ∃ y, (connectionSystem Tid).Leads x y ∧ y.Exclusive ∧ (y.calls t).left < (x.calls t).left :=
    exists_nearer hx hbusy
  obtain ⟨s', hleads, -, hidle⟩ := TransitionSystem.exists_leads_of_leads
    (fun x : ConnectionState Tid => (x.calls t).left) hprogress h
  exact ⟨s', hleads, hidle⟩

/-- No interleaving ends where a call cannot return; an interrupt needs no I/O to end first. -/
theorem connection_calls_can_return (h : (connectionSystem Tid).Reachable s) (t : Tid) :
    (∃ s', (connectionSystem Tid).Leads s s' ∧ s'.calls t = .idle) ∧
      ((s.calls t).isBrief = true → ∃ s', (connectionSystem Tid).Leads s s' ∧
        s'.calls t = .idle ∧ ∀ v ≠ t, (s.calls v).ioFd ≠ none → s'.calls v = s.calls v) :=
  have hexclusive := Exclusive.of_reachable h
  ⟨exists_idle hexclusive t, exists_brief_idle hexclusive⟩

/-- Thread 0 receives, 1 waits to close, and 2 interrupts. -/
theorem connection_calls_can_return_closing :
    ∃ s, (connectionSystem ℕ).Reachable s ∧ s.calls 1 = .closeLocking .receive ∧
      (∃ s', (connectionSystem ℕ).Leads s s' ∧ s'.calls 1 = .idle) ∧
      ∃ s', (connectionSystem ℕ).Leads s s' ∧ s'.calls 2 = .idle ∧
        s'.calls 0 = .receiving 3 := by
  obtain ⟨s, hs, hend⟩ := TransitionSystem.exists_reachable_of_run (connectionSystem ℕ)
    { files := fun fd => if fd = 3 then some .connection else none, socketFd := some 3 }
    [.begin 0 .receiveLocking, .turn 0 .goOn, .turn 0 .goOn, .turn 0 .goOn,
      .begin 1 (.closeLocking .receive), .begin 2 (.interruptLocking false)]
    (fun s => s.calls 0 = .receiving 3 ∧ s.calls 1 = .closeLocking .receive ∧
      s.calls 2 = .interruptLocking false) (init_of_socket 3) (by decide)
  obtain ⟨hreceiving, hclosing, hinterrupt⟩ := of_decide_eq_true hend
  obtain ⟨s', hleads, hidle, hio⟩ :=
    (connection_calls_can_return hs 2).2 (by rw [hinterrupt]; rfl)
  have hreceiving' : s'.calls 0 = s.calls 0 :=
    hio 0 (by decide) (by rw [hreceiving]; exact Option.some_ne_none 3)
  exact ⟨s, hs, hclosing, (connection_calls_can_return hs 1).1, s', hleads, hidle,
    hreceiving'.trans hreceiving⟩

end ConnectionState
end RobotMiddleware
