import Mathlib.Tactic.SplitIfs
import RobotMiddleware.SocketModel

/-! Every descriptor that the library has opened belongs to one live object, which closes it once.
The one way to lose one is a `connect` whose `poll_socket` throws. -/
namespace RobotMiddleware

structure FileTable.Effect (t t' : FileTable) (file : Option (ℕ × Bool)) : Prop where
  files : t'.files = file.elim t.files
    fun (fd, nonblocking) => Function.update t.files fd (some (.socket nonblocking))
  free : ∀ fd nonblocking, file = some (fd, nonblocking) → t.files fd = none
  closed : ∃ closed, t'.closed = t.closed ++ closed ∧
    ∀ file ∈ closed, ∃ nonblocking, file = some (.socket nonblocking)

def AddressResult.file (nonblocking : Bool) : AddressResult → Option (ℕ × Bool)
  | .opened fd => some (fd, nonblocking)
  | .threw _ (some fd) => some (fd, true)
  | _ => none

def OpenResult.file (nonblocking : Bool) : OpenResult → Option (ℕ × Bool)
  | .opened fd => some (fd, nonblocking)
  | .threw _ (some fd) => some (fd, true)
  | _ => none

namespace FileTable
variable {t t' t'' : FileTable} {file : Option (ℕ × Bool)} {fd : ℕ} {nonblocking : Bool}

theorem Effect.refl (t : FileTable) : t.Effect t none :=
  ⟨rfl, by simp, [], (List.append_nil _).symm, by simp⟩

theorem Effect.trans (h : t.Effect t' none) (h' : t'.Effect t'' file) : t.Effect t'' file := by
  obtain ⟨first, hfirst, hsockets⟩ := h.closed
  obtain ⟨second, hsecond, hsockets'⟩ := h'.closed
  have hfiles : t'.files = t.files := h.files
  refine ⟨hfiles ▸ h'.files, hfiles ▸ h'.free, first ++ second, ?_, fun file hfile => ?_⟩
  · rw [hsecond, hfirst, List.append_assoc]
  · rcases List.mem_append.mp hfile with hfile | hfile
    · exact hsockets file hfile
    · exact hsockets' file hfile

theorem Effect.open_ (h : t.open_ fd nonblocking = some t') :
    t.Effect t' (some (fd, nonblocking)) := by
  obtain ⟨hfree, h⟩ := Option.ite_none_right_eq_some.mp h
  cases h
  refine ⟨rfl, fun other flag heq => ?_, [], (List.append_nil _).symm, by simp⟩
  cases heq
  exact hfree

theorem Effect.close (h : t.Effect t' (some (fd, nonblocking))) :
    t.Effect (t'.close fd) none := by
  obtain ⟨closed, hclosed, hsockets⟩ := h.closed
  have hfiles : t'.files = Function.update t.files fd (some (.socket nonblocking)) := h.files
  have hfree := h.free fd nonblocking rfl
  refine ⟨?_, by simp, closed ++ [some (.socket nonblocking)], ?_, ?_⟩
  · show Function.update t'.files fd none = t.files
    rw [hfiles, Function.update_idem, ← hfree, Function.update_eq_self]
  · show t'.closed ++ [t'.files fd] = _
    rw [hclosed, hfiles, Function.update_self, List.append_assoc]
  · intro file hfile
    rcases List.mem_append.mp hfile with hfile | hfile
    · exact hsockets file hfile
    · exact ⟨nonblocking, List.mem_singleton.mp hfile⟩

theorem Effect.setNonblocking (h : t.Effect t' (some (fd, nonblocking))) (flag : Bool) :
    t.Effect (t'.setNonblocking fd flag) (some (fd, flag)) := by
  have hfiles : t'.files = Function.update t.files fd (some (.socket nonblocking)) := h.files
  refine ⟨?_, fun other _ heq => ?_, h.closed⟩
  · show Function.update t'.files fd (some (.socket flag)) = _
    rw [hfiles, Function.update_idem]
    rfl
  · cases heq
    exact h.free fd nonblocking rfl

end FileTable

section Loop
variable {Answers : Type} {tryAddress : FileTable → Answers → Option (FileTable × AddressResult)}
  {timedOut : String} {message : ℕ → String} {t t' : FileTable} {lastError : ℕ}
  {result : OpenResult} {nonblocking : Bool}

/-- The loop leaves what the address it ends with leaves: all sockets before are closed. -/
theorem openFirst_effect
    (htry : ∀ t answers t' result, tryAddress t answers = some (t', result) →
      t.Effect t' (result.file nonblocking))
    {addresses : List Answers}
    (h : openFirst tryAddress timedOut message t lastError addresses = some (t', result)) :
    t.Effect t' (result.file nonblocking) := by
  induction addresses generalizing t lastError with
  | nil =>
    cases h
    exact .refl _
  | cons answers rest ih =>
    unfold openFirst at h
    split at h
    case h_1 t₁ error heq => exact (htry _ _ _ _ heq).trans (ih h)
    case h_2 t₁ heq =>
      cases h
      exact htry _ _ _ _ heq
    case h_3 t₁ what left heq =>
      cases h
      have heffect := htry _ _ _ _ heq
      cases left with
      | none => exact heffect
      | some fd => exact heffect
    case h_4 t₁ fd heq =>
      cases h
      exact htry _ _ _ _ heq
    case h_5 => cases h

/-- A socket is lost only at an address that loses it. -/
theorem exists_of_openFirst {what : String} {fd : ℕ} {addresses : List Answers}
    (h : openFirst tryAddress timedOut message t lastError addresses =
      some (t', .threw what (some fd))) :
    ∃ answers ∈ addresses, ∃ t t', tryAddress t answers = some (t', .threw what (some fd)) := by
  induction addresses generalizing t lastError with
  | nil => cases h
  | cons answers rest ih =>
    unfold openFirst at h
    split at h
    case h_1 t₁ error heq =>
      obtain ⟨answers', hmem, hlost⟩ := ih h
      exact ⟨answers', List.mem_cons_of_mem _ hmem, hlost⟩
    case h_2 => cases h
    case h_3 t₁ what' left heq =>
      cases h
      exact ⟨answers, List.mem_cons_self, t, t', heq⟩
    case h_4 => cases h
    case h_5 => cases h

theorem resolveAndOpen_effect {operation : String}
    (htry : ∀ t answers t' result, tryAddress t answers = some (t', result) →
      t.Effect t' (result.file nonblocking))
    {resolved : Except String (List Answers)}
    (h : resolveAndOpen tryAddress operation timedOut message t resolved = some (t', result)) :
    t.Effect t' (result.file nonblocking) := by
  cases resolved with
  | error reason =>
    cases h
    exact .refl t
  | ok addresses => exact openFirst_effect htry h

end Loop

section Calls
variable {strerror : ℕ → String} {t t' : FileTable} {result : AddressResult}

theorem UdpSender.tryAddress_effect {answers : SenderAnswers}
    (h : tryAddress t answers = some (t', result)) : t.Effect t' (result.file false) := by
  unfold tryAddress at h
  split at h
  · cases h
    exact .refl t
  · split at h
    · cases h
      exact .refl t
    · obtain ⟨t₁, hopen, heq⟩ := Option.map_eq_some_iff.mp h
      cases heq
      exact .open_ hopen

theorem UdpReceiver.tryAddress_effect {answers : BindAnswers}
    (h : tryAddress t answers = some (t', result)) : t.Effect t' (result.file false) := by
  unfold tryAddress at h
  split at h
  · cases h
    exact .refl t
  · obtain ⟨t₁, hopen, heq⟩ := Option.map_eq_some_iff.mp h
    have heffect := FileTable.Effect.open_ hopen
    split at heq <;> cases heq
    · exact heffect
    · exact heffect.close

theorem TcpServer.tryAddress_effect {answers : BindAnswers}
    (h : tryAddress t answers = some (t', result)) : t.Effect t' (result.file true) := by
  unfold tryAddress at h
  split at h
  · cases h
    exact .refl t
  · obtain ⟨t₁, hopen, heq⟩ := Option.map_eq_some_iff.mp h
    have heffect := FileTable.Effect.open_ hopen
    split at heq
    · cases heq
      exact heffect.close
    · split at heq <;> cases heq
      · exact heffect.close
      · exact heffect

theorem TcpServer.accept_effect {answers : List AcceptAnswer} {result : OpenResult}
    (h : accept strerror t answers = some (t', result)) : t.Effect t' (result.file false) := by
  induction answers with
  | nil => cases h
  | cons answer answers ih =>
    cases answer with
    | pollTimedOut =>
      cases h
      exact .refl t
    | pollThrew what =>
      cases h
      exact .refl t
    | accepted fd closeOnExec =>
      obtain ⟨t₁, hopen, heq⟩ := Option.map_eq_some_iff.mp h
      have heffect := FileTable.Effect.open_ hopen
      split at heq <;> cases heq
      · exact heffect
      · exact heffect.close
    | transient expired =>
      cases expired with
      | true =>
        cases h
        exact .refl t
      | false => exact ih h
    | failed error =>
      cases h
      exact .refl t

theorem TcpClient.restoreBlocking_effect (strerror : ℕ → String) (restore : Except ℕ Unit)
    {t₀ : FileTable} {fd : ℕ} (heffect : t₀.Effect t (some (fd, true))) :
    t₀.Effect (restoreBlocking strerror t fd restore).1
      ((restoreBlocking strerror t fd restore).2.file false) := by
  cases restore with
  | ok u => exact heffect.setNonblocking false
  | error error => exact heffect.close

theorem TcpClient.awaitConnection_effect (strerror : ℕ → String) (answers : ConnectAnswers)
    {t₀ : FileTable} {fd : ℕ} (heffect : t₀.Effect t (some (fd, true))) :
    t₀.Effect (awaitConnection strerror t fd answers).1
      ((awaitConnection strerror t fd answers).2.file false) := by
  unfold awaitConnection
  split
  · exact heffect
  · exact heffect.close
  · split
    · exact heffect.close
    · exact restoreBlocking_effect strerror answers.restore heffect
    · split <;> exact heffect.close

theorem TcpClient.tryAddress_effect {answers : ConnectAnswers}
    (h : tryAddress strerror t answers = some (t', result)) :
    t.Effect t' (result.file false) := by
  unfold tryAddress at h
  split at h
  · cases h
    exact .refl t
  · obtain ⟨t₁, hopen, heq⟩ := Option.map_eq_some_iff.mp h
    have heffect := FileTable.Effect.open_ hopen
    split at heq
    · cases heq
      exact heffect.close
    · cases heq
      exact heffect.close
    · have hset := heffect.setNonblocking true
      dsimp only at heq
      split at heq
      · have hrestore := restoreBlocking_effect strerror answers.restore hset
        rw [heq] at hrestore
        exact hrestore
      · split at heq
        · cases heq
          exact hset.close
        · have hawait := awaitConnection_effect strerror answers hset
          rw [heq] at hawait
          exact hawait

/-- Only a `poll_socket` that throws loses the socket. -/
theorem TcpClient.poll_of_lost {answers : ConnectAnswers} {what : String} {fd : ℕ}
    (h : tryAddress strerror t answers = some (t', .threw what (some fd))) :
    answers.poll = .threw what := by
  have hrestore {t : FileTable} {fd' : ℕ}
      (heq : restoreBlocking strerror t fd' answers.restore = (t', .threw what (some fd))) :
      False := by
    unfold restoreBlocking at heq
    split at heq <;> cases heq
  unfold tryAddress at h
  split at h
  · cases h
  · obtain ⟨t₁, -, heq⟩ := Option.map_eq_some_iff.mp h
    split at heq
    · cases heq
    · cases heq
    · dsimp only at heq
      split at heq
      · exact (hrestore heq).elim
      · split at heq
        · cases heq
        · unfold awaitConnection at heq
          split at heq
          case h_1 what' hpoll =>
            cases heq
            exact hpoll
          case h_2 => cases heq
          case h_3 =>
            split at heq
            · cases heq
            · exact (hrestore heq).elim
            · split at heq <;> cases heq

end Calls

namespace SocketProcess
variable {strerror : ℕ → String} {s s' : SocketProcess} {i : ℕ}

/-- The poll of a connecting socket does not fail. -/
def PollHolds (_ : SocketProcess) : SocketAction → Prop
  | .create _ (.connect (.ok addresses)) =>
    ∀ answers ∈ addresses, ∀ what, answers.poll ≠ .threw what
  | _ => True

theorem open_effect {call : SocketOpen} {table : FileTable} {result : OpenResult}
    (h : s.open_ strerror call = some (table, result)) :
    s.table.Effect table (result.file (call.kind = .tcpServer)) := by
  cases call with
  | udpSender resolved =>
    exact resolveAndOpen_effect (fun _ _ _ _ => UdpSender.tryAddress_effect) h
  | udpReceiver resolved =>
    exact resolveAndOpen_effect (fun _ _ _ _ => UdpReceiver.tryAddress_effect) h
  | tcpServer backlog resolved =>
    simp only [open_, TcpServer.open_] at h
    split at h
    · cases h
      exact .refl _
    · exact resolveAndOpen_effect (fun _ _ _ _ => TcpServer.tryAddress_effect) h
  | connect resolved =>
    exact resolveAndOpen_effect (fun _ _ _ _ => TcpClient.tryAddress_effect) h
  | accept server answers =>
    simp only [open_] at h
    split at h
    · exact TcpServer.accept_effect h
    · cases h
      exact .refl _
    · cases h

theorem fdOf_eq_some {fd : ℕ} :
    s.fdOf i = some fd ↔ ∃ kind, s.objects i = some ⟨kind, some fd⟩ := by
  unfold fdOf
  constructor
  · intro h
    obtain ⟨⟨kind, other⟩, hobject, hfd⟩ := Option.bind_eq_some_iff.mp h
    obtain rfl : other = some fd := hfd
    exact ⟨kind, hobject⟩
  · rintro ⟨kind, hobject⟩
    rw [hobject]
    rfl

/-- The open sockets of the library are those of the objects and those that were lost, each of
them once. -/
structure Owned (s : SocketProcess) : Prop where
  closed : ∀ file ∈ s.table.closed, ∃ nonblocking, file = some (.socket nonblocking)
  holds : ∀ i kind fd, s.objects i = some ⟨kind, some fd⟩ →
    s.table.files fd = some (.socket (kind = .tcpServer))
  unique : ∀ i j fd, s.fdOf i = some fd → s.fdOf j = some fd → i = j
  left_open : ∀ fd ∈ s.left, ∃ nonblocking, s.table.files fd = some (.socket nonblocking)
  left_unowned : ∀ fd ∈ s.left, ∀ i, s.fdOf i ≠ some fd
  covered : ∀ fd nonblocking, s.table.files fd = some (.socket nonblocking) →
    (∃ i, s.fdOf i = some fd) ∨ fd ∈ s.left

/-- Descriptors go from object to object, none of them into two. -/
theorem Owned.reassign (h : s.Owned) {objects : ℕ → Option SocketObject}
    (hold : ∀ i kind fd, objects i = some ⟨kind, some fd⟩ →
      ∃ j, s.objects j = some ⟨kind, some fd⟩)
    (hunique : ∀ i j fd, ({ s with objects } : SocketProcess).fdOf i = some fd →
      ({ s with objects } : SocketProcess).fdOf j = some fd → i = j)
    (hkept : ∀ j fd, s.fdOf j = some fd →
      ∃ i, ({ s with objects } : SocketProcess).fdOf i = some fd) :
    ({ s with objects } : SocketProcess).Owned where
  closed := h.closed
  holds i kind fd hobject := by
    obtain ⟨j, hj⟩ := hold i kind fd hobject
    exact h.holds j kind fd hj
  unique := hunique
  left_open := h.left_open
  left_unowned fd hfd i hi := by
    obtain ⟨kind, hobject⟩ := fdOf_eq_some.mp hi
    obtain ⟨j, hj⟩ := hold i kind fd hobject
    exact h.left_unowned fd hfd j (fdOf_eq_some.mpr ⟨kind, hj⟩)
  covered fd nonblocking hfile := (h.covered fd nonblocking hfile).imp
    (fun ⟨j, hj⟩ => hkept j fd hj) id

theorem fdOf_update {o : Option SocketObject} (j : ℕ) :
    ({ s with objects := Function.update s.objects i o } : SocketProcess).fdOf j =
      if j = i then o.bind SocketObject.fd else s.fdOf j := by
  unfold fdOf
  by_cases hji : j = i
  · subst hji
    simp
  · simp [hji]

/-- An object without a socket goes, or one comes. -/
theorem Owned.update (h : s.Owned) (hi : s.fdOf i = none) {o : Option SocketObject}
    (ho : o.bind SocketObject.fd = none) :
    ({ s with objects := Function.update s.objects i o } : SocketProcess).Owned := by
  have hfd (j : ℕ) : ({ s with objects := Function.update s.objects i o } : SocketProcess).fdOf j =
      s.fdOf j := by
    rw [fdOf_update]
    split
    · next hji => rw [hji, hi, ho]
    · rfl
  refine h.reassign (fun j kind fd hobject => ?_) (fun j k fd hj hk => ?_) fun j fd hj => ⟨j, ?_⟩
  · have hj := hfd j
    have hnew : ({ s with objects := Function.update s.objects i o } : SocketProcess).fdOf j =
        some fd := fdOf_eq_some.mpr ⟨kind, hobject⟩
    by_cases hji : j = i
    · rw [hnew, hji, hi] at hj
      cases hj
    · rw [Function.update_of_ne hji] at hobject
      exact ⟨j, hobject⟩
  · rw [hfd] at hj hk
    exact h.unique j k fd hj hk
  · rw [hfd]
    exact hj

theorem Owned.closeNoexcept (h : s.Owned) (i : ℕ) :
    (s.closeNoexcept i).Owned ∧ (s.closeNoexcept i).fdOf i = none := by
  unfold SocketProcess.closeNoexcept
  split
  case h_1 kind fd hobject =>
    have hfile := h.holds i kind fd hobject
    have hi : s.fdOf i = some fd := fdOf_eq_some.mpr ⟨kind, hobject⟩
    let s' : SocketProcess := { s with
      table := s.table.close fd
      objects := Function.update s.objects i (some ⟨kind, none⟩) }
    have hfd (j : ℕ) : s'.fdOf j = if j = i then none else s.fdOf j := fdOf_update j
    have hother {j other : ℕ} (hj : s'.fdOf j = some other) : j ≠ i ∧ s.fdOf j = some other := by
      rw [hfd] at hj
      split at hj
      · cases hj
      · next hji => exact ⟨hji, hj⟩
    have hfiles {other : ℕ} (hne : other ≠ fd) : s'.table.files other = s.table.files other :=
      Function.update_of_ne hne _ _
    refine ⟨⟨?_, ?_, ?_, ?_, ?_, ?_⟩, by rw [hfd, if_pos rfl]⟩
    · intro file hmem
      rcases List.mem_append.mp hmem with hmem | hmem
      · exact h.closed file hmem
      · exact ⟨_, (List.mem_singleton.mp hmem).trans hfile⟩
    · intro j kind' other hj
      obtain ⟨hji, hfd'⟩ := hother (fdOf_eq_some.mpr ⟨kind', hj⟩)
      -- the number is with `i` alone
      have hne : other ≠ fd := fun heq => hji (h.unique j i fd (heq ▸ hfd') hi)
      have hold : s.objects j = some ⟨kind', some other⟩ :=
        (Function.update_of_ne hji _ _).symm.trans hj
      rw [hfiles hne]
      exact h.holds j kind' other hold
    · intro j k other hj hk
      exact h.unique j k other (hother hj).2 (hother hk).2
    · intro other hleft
      have hne : other ≠ fd := fun heq => h.left_unowned other hleft i (heq ▸ hi)
      obtain ⟨nonblocking, hopen⟩ := h.left_open other hleft
      exact ⟨nonblocking, (hfiles hne).trans hopen⟩
    · intro other hleft j hj
      exact h.left_unowned other hleft j (hother hj).2
    · intro other nonblocking hopen
      have hne : other ≠ fd := by
        rintro rfl
        rw [show s'.table.files other = none from Function.update_self _ _ _] at hopen
        cases hopen
      rw [hfiles hne] at hopen
      refine (h.covered other nonblocking hopen).imp (fun ⟨j, hj⟩ => ⟨j, ?_⟩) id
      have hji : j ≠ i := by
        rintro rfl
        rw [hi] at hj
        exact hne (Option.some.inj hj).symm
      rw [hfd, if_neg hji]
      exact hj
  case h_2 hnone =>
    refine ⟨h, Option.eq_none_iff_forall_ne_some.mpr fun fd hfd => ?_⟩
    obtain ⟨kind, hobject⟩ := fdOf_eq_some.mp hfd
    exact hnone kind fd hobject

/-- The target of a move has no socket of its own any more. -/
theorem Owned.take (h : s.Owned) {source : ℕ} {object : SocketObject} (hi : s.fdOf i = none)
    (hne : i ≠ source) (hsource : s.objects source = some object) :
    (s.take i source object).Owned := by
  have hfd (j : ℕ) : (s.take i source object).fdOf j =
      if j = i then object.fd else if j = source then none else s.fdOf j := by
    have houter := fdOf_update (s := { s with
      objects := Function.update s.objects source (some ⟨object.kind, none⟩) })
      (i := i) (o := some object) j
    have hinner := fdOf_update (s := s) (i := source) (o := some ⟨object.kind, none⟩) j
    exact houter.trans (by rw [hinner]; rfl)
  have hfrom : s.fdOf source = object.fd := by
    unfold fdOf
    rw [hsource]
    rfl
  -- where a descriptor was before
  have hback {j fd : ℕ} (hj : (s.take i source object).fdOf j = some fd) :
      s.fdOf (if j = i then source else j) = some fd ∧ j ≠ source := by
    rw [hfd] at hj
    split at hj
    · next hji =>
      rw [if_pos hji, hfrom]
      exact ⟨hj, hji ▸ hne⟩
    · next hji =>
      split at hj
      · cases hj
      · next hjs =>
        rw [if_neg hji]
        exact ⟨hj, hjs⟩
  refine h.reassign (fun j kind fd hj => ?_) (fun j k fd hj hk => ?_) fun j fd hj => ?_
  · by_cases hji : j = i
    · rw [hji, Function.update_self] at hj
      exact ⟨source, hsource.trans hj⟩
    · rw [Function.update_of_ne hji] at hj
      by_cases hjs : j = source
      · rw [hjs, Function.update_self] at hj
        cases hj
      · rw [Function.update_of_ne hjs] at hj
        exact ⟨j, hj⟩
  · obtain ⟨hj', hjs⟩ := hback hj
    obtain ⟨hk', hks⟩ := hback hk
    have hsame := h.unique _ _ fd hj' hk'
    split_ifs at hsame with hji hki hki
    · rw [hji, hki]
    · exact absurd hsame.symm hks
    · exact absurd hsame hjs
    · exact hsame
  · show ∃ k, (s.take i source object).fdOf k = some fd
    by_cases hjs : j = source
    · refine ⟨i, ?_⟩
      rw [hfd, if_pos rfl, ← hfrom, ← hjs, hj]
    · refine ⟨j, ?_⟩
      have hji : j ≠ i := by
        rintro rfl
        rw [hi] at hj
        cases hj
      rw [hfd, if_neg hji, if_neg hjs, hj]

/-- A number that is free belongs to nobody. -/
theorem Owned.fresh (h : s.Owned) {fd : ℕ} (hfree : s.table.files fd = none) :
    (∀ j, s.fdOf j ≠ some fd) ∧ fd ∉ s.left := by
  constructor
  · intro j hj
    obtain ⟨kind, hobject⟩ := fdOf_eq_some.mp hj
    have hfile := h.holds j kind fd hobject
    rw [hfree] at hfile
    cases hfile
  · intro hleft
    obtain ⟨nonblocking, hfile⟩ := h.left_open fd hleft
    rw [hfree] at hfile
    cases hfile

theorem Owned.closed_of_effect (h : s.Owned) {table : FileTable} {file : Option (ℕ × Bool)}
    (heffect : s.table.Effect table file) :
    ∀ file ∈ table.closed, ∃ nonblocking, file = some (.socket nonblocking) := by
  obtain ⟨closed, hclosed, hsockets⟩ := heffect.closed
  intro file hfile
  rw [hclosed] at hfile
  rcases List.mem_append.mp hfile with hfile | hfile
  · exact h.closed file hfile
  · exact hsockets file hfile

/-- A call has left no socket open. -/
theorem Owned.ofNothing (h : s.Owned) {table : FileTable} (heffect : s.table.Effect table none) :
    ({ s with table } : SocketProcess).Owned := by
  have hfiles : table.files = s.table.files := heffect.files
  refine ⟨h.closed_of_effect heffect, ?_, h.unique, ?_, h.left_unowned, ?_⟩
  · intro j kind fd hj
    exact (congrFun hfiles fd).trans (h.holds j kind fd hj)
  · intro fd hleft
    obtain ⟨nonblocking, hopen⟩ := h.left_open fd hleft
    exact ⟨nonblocking, (congrFun hfiles fd).trans hopen⟩
  · intro fd nonblocking hopen
    exact h.covered fd nonblocking ((congrFun hfiles fd).symm.trans hopen)

section Effect
variable {table : FileTable} {fd : ℕ} {nonblocking : Bool}

theorem Owned.files_of_ne (heffect : s.table.Effect table (some (fd, nonblocking))) {other : ℕ}
    (hne : other ≠ fd) : table.files other = s.table.files other := by
  have hfiles : table.files = Function.update s.table.files fd (some (.socket nonblocking)) :=
    heffect.files
  rw [hfiles, Function.update_of_ne hne]

theorem Owned.files_self (heffect : s.table.Effect table (some (fd, nonblocking))) :
    table.files fd = some (.socket nonblocking) := by
  have hfiles : table.files = Function.update s.table.files fd (some (.socket nonblocking)) :=
    heffect.files
  rw [hfiles, Function.update_self]

/-- A new object has the socket that a call has opened. -/
theorem Owned.opened (h : s.Owned) (hnew : s.objects i = none) {kind : SocketKind}
    (heffect : s.table.Effect table (some (fd, decide (kind = .tcpServer)))) :
    ({ s with
      table
      objects := Function.update s.objects i (some ⟨kind, some fd⟩) } : SocketProcess).Owned := by
  obtain ⟨hunowned, hnotleft⟩ := h.fresh (heffect.free fd _ rfl)
  have hfd (j : ℕ) : ({ s with
      table
      objects := Function.update s.objects i (some ⟨kind, some fd⟩) } : SocketProcess).fdOf j =
      if j = i then some fd else s.fdOf j := fdOf_update j
  have hne {j other : ℕ} (hj : s.fdOf j = some other) : other ≠ fd := by
    rintro rfl
    exact hunowned j hj
  refine ⟨h.closed_of_effect heffect, ?_, ?_, ?_, ?_, ?_⟩
  · intro j kind' other hj
    dsimp only at hj
    by_cases hji : j = i
    · rw [hji, Function.update_self] at hj
      cases hj
      exact Owned.files_self heffect
    · rw [Function.update_of_ne hji] at hj
      rw [Owned.files_of_ne heffect (hne (fdOf_eq_some.mpr ⟨kind', hj⟩))]
      exact h.holds j kind' other hj
  · intro j k other hj hk
    rw [hfd] at hj hk
    split_ifs at hj hk with hji hki hki
    · rw [hji, hki]
    · exact absurd (Option.some.inj hj).symm (hne hk)
    · exact absurd (Option.some.inj hk).symm (hne hj)
    · exact h.unique j k other hj hk
  · intro other hleft
    have hother : other ≠ fd := by
      rintro rfl
      exact hnotleft hleft
    obtain ⟨flag, hopen⟩ := h.left_open other hleft
    exact ⟨flag, (Owned.files_of_ne heffect hother).trans hopen⟩
  · intro other hleft j hj
    rw [hfd] at hj
    split_ifs at hj with hji
    · obtain rfl := Option.some.inj hj
      exact hnotleft hleft
    · exact h.left_unowned other hleft j hj
  · intro other flag hopen
    by_cases hother : other = fd
    · exact .inl ⟨i, by rw [hfd, if_pos rfl, hother]⟩
    · rw [Owned.files_of_ne heffect hother] at hopen
      refine (h.covered other flag hopen).imp (fun ⟨j, hj⟩ => ⟨j, ?_⟩) id
      have hji : j ≠ i := by
        rintro rfl
        have hnone : s.fdOf j = none := by rw [fdOf, hnew]; rfl
        rw [hnone] at hj
        cases hj
      rw [hfd, if_neg hji, hj]

/-- A call has lost the socket that it has opened. -/
theorem Owned.lost (h : s.Owned) (heffect : s.table.Effect table (some (fd, nonblocking))) :
    ({ s with table, left := s.left ++ [fd] } : SocketProcess).Owned := by
  obtain ⟨hunowned, hnotleft⟩ := h.fresh (heffect.free fd _ rfl)
  refine ⟨h.closed_of_effect heffect, ?_, h.unique, ?_, ?_, ?_⟩
  · intro j kind other hj
    have hne : other ≠ fd := by
      rintro rfl
      exact hunowned j (fdOf_eq_some.mpr ⟨kind, hj⟩)
    exact (Owned.files_of_ne heffect hne).trans (h.holds j kind other hj)
  · intro other hleft
    rcases List.mem_append.mp hleft with hold | hleft
    · have hne : other ≠ fd := by
        rintro rfl
        exact hnotleft hold
      obtain ⟨flag, hopen⟩ := h.left_open other hold
      exact ⟨flag, (Owned.files_of_ne heffect hne).trans hopen⟩
    · obtain rfl := List.mem_singleton.mp hleft
      exact ⟨nonblocking, Owned.files_self heffect⟩
  · intro other hleft j hj
    rcases List.mem_append.mp hleft with hleft | hleft
    · exact h.left_unowned other hleft j hj
    · obtain rfl := List.mem_singleton.mp hleft
      exact hunowned j hj
  · intro other flag hopen
    by_cases hother : other = fd
    · exact .inr (List.mem_append_right _ (List.mem_singleton.mpr hother))
    · have hold : s.table.files other = some (.socket flag) :=
        (Owned.files_of_ne heffect hother).symm.trans hopen
      exact (h.covered other flag hold).imp id (List.mem_append_left _)

end Effect

/-- A file of the rest of the process comes or goes. -/
theorem Owned.updateFiles (h : s.Owned) {fd : ℕ} {file : Option OpenFile}
    (hfd : ∀ nonblocking, s.table.files fd ≠ some (.socket nonblocking))
    (hfile : ∀ nonblocking, file ≠ some (.socket nonblocking)) :
    ({ s with
      table := { s.table with
        files := Function.update s.table.files fd file } } : SocketProcess).Owned := by
  have hne {other : ℕ} {nonblocking : Bool}
      (hopen : s.table.files other = some (.socket nonblocking)) : other ≠ fd := by
    rintro rfl
    exact hfd nonblocking hopen
  refine ⟨h.closed, ?_, h.unique, ?_, h.left_unowned, ?_⟩
  · intro j kind other hj
    have hopen := h.holds j kind other hj
    exact (Function.update_of_ne (hne hopen) _ _).trans hopen
  · intro other hleft
    obtain ⟨nonblocking, hopen⟩ := h.left_open other hleft
    exact ⟨nonblocking, (Function.update_of_ne (hne hopen) _ _).trans hopen⟩
  · intro other nonblocking hopen
    by_cases hother : other = fd
    · subst hother
      exact absurd ((Function.update_self _ _ _).symm.trans hopen) (hfile nonblocking)
    · have hold : s.table.files other = some (.socket nonblocking) :=
        (Function.update_of_ne hother _ _).symm.trans hopen
      exact h.covered other nonblocking hold

theorem closeNoexcept_objects {j : ℕ} (hne : j ≠ i) :
    (s.closeNoexcept i).objects j = s.objects j := by
  unfold SocketProcess.closeNoexcept
  split
  · exact Function.update_of_ne hne _ _
  · rfl

theorem left_closeNoexcept (s : SocketProcess) (i : ℕ) : (s.closeNoexcept i).left = s.left := by
  unfold SocketProcess.closeNoexcept
  split <;> rfl

theorem Owned.step {a : SocketAction} (h : s.Owned) (hs : s.step strerror a = some s') :
    s'.Owned := by
  cases a with
  | create i call =>
    obtain ⟨hnew, hs⟩ := Option.ite_none_left_eq_some.mp hs
    split at hs
    case h_1 table fd hopen =>
      cases hs
      exact h.opened (not_not.mp hnew) (open_effect hopen)
    case h_2 table what left hopen =>
      cases hs
      have heffect := open_effect hopen
      cases left with
      | none => exact (List.append_nil s.left).symm ▸ h.ofNothing heffect
      | some fd => exact h.lost heffect
    case h_3 table hopen =>
      cases hs
      exact h.ofNothing (open_effect hopen)
    case h_4 => cases hs
  | moveConstruct i source =>
    simp only [SocketProcess.step] at hs
    split at hs
    case h_1 object hnew hsource =>
      cases hs
      have hi : s.fdOf i = none := by rw [fdOf, hnew]; rfl
      refine h.take hi (fun heq => ?_) hsource
      rw [heq, hsource] at hnew
      cases hnew
    case h_2 => cases hs
  | moveAssign i source =>
    simp only [SocketProcess.step] at hs
    split at hs
    case h_1 target object htarget hsource =>
      split_ifs at hs with hkind hself
      · cases hs
        exact h
      · cases hs
        obtain ⟨hclosed, hi⟩ := h.closeNoexcept i
        exact hclosed.take hi hself ((closeNoexcept_objects (Ne.symm hself)).trans hsource)
    case h_2 => cases hs
  | close i =>
    simp only [SocketProcess.step] at hs
    split at hs
    · cases hs
      exact (h.closeNoexcept i).1
    · cases hs
  | destroy i =>
    obtain ⟨-, hs⟩ := Option.ite_none_left_eq_some.mp hs
    cases hs
    obtain ⟨hclosed, hi⟩ := h.closeNoexcept i
    exact hclosed.update hi rfl
  | openFile fd =>
    obtain ⟨hfree, hs⟩ := Option.ite_none_right_eq_some.mp hs
    cases hs
    exact h.updateFiles (by simp [hfree]) (by simp)
  | closeFile fd =>
    obtain ⟨hother, hs⟩ := Option.ite_none_right_eq_some.mp hs
    cases hs
    exact h.updateFiles (by simp [hother]) (by simp)

/-- Only a `connect` loses a socket, when the poll of one of its addresses throws. -/
theorem exists_poll_of_lost {call : SocketOpen} {table : FileTable} {what : String} {fd : ℕ}
    (h : s.open_ strerror call = some (table, .threw what (some fd))) :
    ∃ addresses, call = .connect (.ok addresses) ∧
      ∃ answers ∈ addresses, answers.poll = .threw what := by
  have hnever {Answers : Type}
      {tryAddress : FileTable → Answers → Option (FileTable × AddressResult)}
      {operation timedOut : String} {message : ℕ → String}
      {resolved : Except String (List Answers)}
      (htry : ∀ t answers t', tryAddress t answers ≠ some (t', .threw what (some fd)))
      (hopen : resolveAndOpen tryAddress operation timedOut message s.table resolved =
        some (table, .threw what (some fd))) : False := by
    cases resolved with
    | error reason => cases hopen
    | ok addresses =>
      obtain ⟨answers, -, t, t', hlost⟩ := exists_of_openFirst hopen
      exact htry t answers t' hlost
  cases call with
  | udpSender resolved =>
    refine (hnever (fun t answers t' hlost => ?_) h).elim
    unfold UdpSender.tryAddress at hlost
    split at hlost
    · cases hlost
    · split at hlost
      · cases hlost
      · obtain ⟨t₁, -, heq⟩ := Option.map_eq_some_iff.mp hlost
        cases heq
  | udpReceiver resolved =>
    refine (hnever (fun t answers t' hlost => ?_) h).elim
    unfold UdpReceiver.tryAddress at hlost
    split at hlost
    · cases hlost
    · obtain ⟨t₁, -, heq⟩ := Option.map_eq_some_iff.mp hlost
      split at heq <;> cases heq
  | tcpServer backlog resolved =>
    simp only [open_, TcpServer.open_] at h
    split at h
    · cases h
    · refine (hnever (fun t answers t' hlost => ?_) h).elim
      unfold TcpServer.tryAddress at hlost
      split at hlost
      · cases hlost
      · obtain ⟨t₁, -, heq⟩ := Option.map_eq_some_iff.mp hlost
        split at heq
        · cases heq
        · split at heq <;> cases heq
  | connect resolved =>
    cases resolved with
    | error reason => cases h
    | ok addresses =>
      obtain ⟨answers, hmem, t, t', hlost⟩ := exists_of_openFirst h
      exact ⟨addresses, rfl, answers, hmem, TcpClient.poll_of_lost hlost⟩
  | accept server answers =>
    have haccept (answers : List AcceptAnswer) :
        TcpServer.accept strerror s.table answers ≠ some (table, .threw what (some fd)) := by
      intro hopen
      induction answers with
      | nil => cases hopen
      | cons answer answers ih =>
        cases answer with
        | pollTimedOut => cases hopen
        | pollThrew what => cases hopen
        | accepted fd closeOnExec =>
          obtain ⟨t₁, -, heq⟩ := Option.map_eq_some_iff.mp hopen
          split at heq <;> cases heq
        | transient expired =>
          cases expired with
          | true => cases hopen
          | false => exact ih hopen
        | failed error => cases hopen
    simp only [open_] at h
    split at h
    · exact absurd h (haccept answers)
    · cases h
    · cases h

/-- A step loses no socket, or is a `connect` with a poll that throws. -/
theorem lost_of_step {a : SocketAction} (hs : s.step strerror a = some s') :
    s'.left = s.left ∨ ∃ i addresses fd, a = .create i (.connect (.ok addresses)) ∧
      s'.left = s.left ++ [fd] ∧ ∃ answers ∈ addresses, ∃ what, answers.poll = .threw what := by
  cases a with
  | create i call =>
    obtain ⟨-, hs⟩ := Option.ite_none_left_eq_some.mp hs
    split at hs
    case h_1 table fd hopen =>
      cases hs
      exact .inl rfl
    case h_2 table what left hopen =>
      cases hs
      cases left with
      | none => exact .inl (List.append_nil _)
      | some fd =>
        obtain ⟨addresses, rfl, answers, hmem, hthrew⟩ := exists_poll_of_lost hopen
        exact .inr ⟨i, addresses, fd, rfl, rfl, answers, hmem, what, hthrew⟩
    case h_3 table hopen =>
      cases hs
      exact .inl rfl
    case h_4 => cases hs
  | moveConstruct i source =>
    simp only [SocketProcess.step] at hs
    split at hs <;> cases hs
    exact .inl rfl
  | moveAssign i source =>
    simp only [SocketProcess.step] at hs
    split at hs
    · split_ifs at hs with hkind hself <;> cases hs
      · exact .inl rfl
      · exact .inl (left_closeNoexcept s i)
    · cases hs
  | close i =>
    simp only [SocketProcess.step] at hs
    split at hs <;> cases hs
    exact .inl (left_closeNoexcept s i)
  | destroy i =>
    obtain ⟨-, hs⟩ := Option.ite_none_left_eq_some.mp hs
    cases hs
    exact .inl (left_closeNoexcept s i)
  | openFile fd =>
    obtain ⟨-, hs⟩ := Option.ite_none_right_eq_some.mp hs
    cases hs
    exact .inl rfl
  | closeFile fd =>
    obtain ⟨-, hs⟩ := Option.ite_none_right_eq_some.mp hs
    cases hs
    exact .inl rfl

theorem left_of_step {a : SocketAction} (hs : s.step strerror a = some s')
    (hpoll : s.PollHolds a) : s'.left = s.left := by
  rcases lost_of_step hs with hleft | ⟨i, addresses, fd, rfl, -, answers, hmem, what, hthrew⟩
  · exact hleft
  · exact absurd hthrew (hpoll answers hmem what)

theorem Owned.of_reachable (h : (socketSystem strerror).Reachable s) : s.Owned := by
  refine h.invariant ?_ fun s a s' _ hs hstep => hs.step hstep
  rintro s ⟨files, hfiles, rfl⟩
  refine ⟨by simp, ?_, ?_, by simp, by simp, ?_⟩
  · intro i kind fd hobject
    cases hobject
  · intro i j fd hi
    cases hi
  · intro fd nonblocking hopen
    exact absurd hopen (hfiles fd nonblocking)

/-- Whatever objects are made, moved, assigned, closed and destroyed: the library closes nothing
but sockets of its own, no two objects have the same, those of connections block and those of
servers do not, and a socket that no object has was lost by a `connect`, one for each poll that
throws. -/
theorem sockets_owned_once (h : (socketSystem strerror).Reachable s) :
    (∀ file ∈ s.table.closed, ∃ nonblocking, file = some (.socket nonblocking)) ∧
    (∀ i kind fd, s.objects i = some ⟨kind, some fd⟩ →
      s.table.files fd = some (.socket (kind = .tcpServer)) ∧ fd ∉ s.left ∧
        ∀ j, s.fdOf j = some fd → j = i) ∧
    (∀ fd nonblocking, s.table.files fd = some (.socket nonblocking) →
      (∃ i, s.fdOf i = some fd) ∨ fd ∈ s.left) ∧
    (∀ a s', s.step strerror a = some s' → s'.left = s.left ∨
      ∃ i addresses fd, a = .create i (.connect (.ok addresses)) ∧ s'.left = s.left ++ [fd] ∧
        ∃ answers ∈ addresses, ∃ what, answers.poll = .threw what) ∧
    ((socketSystem strerror).ReachableVia PollHolds s → s.left = []) := by
  have hinv := Owned.of_reachable h
  refine ⟨hinv.closed, fun i kind fd hobject => ⟨hinv.holds i kind fd hobject, ?_, ?_⟩,
    hinv.covered, fun a s' hs => lost_of_step hs, fun hquiet => ?_⟩
  · exact fun hleft => hinv.left_unowned fd hleft i (fdOf_eq_some.mpr ⟨kind, hobject⟩)
  · exact fun j hj => hinv.unique j i fd hj (fdOf_eq_some.mpr ⟨kind, hobject⟩)
  · refine hquiet.invariant ?_ fun s a s' _ hnone hpoll hs => (left_of_step hs hpoll).trans hnone
    rintro s ⟨files, -, rfl⟩
    rfl

/-- The first address of a server is in use and that of a client refuses; a connection is moved
over another one, and a second client loses its socket. -/
theorem sockets_owned_once_lost :
    ∃ s, (socketSystem fun _ => "").Reachable s ∧ s.left = [4] ∧ s.fdOf 1 = some 5 ∧
      s.fdOf 2 = none ∧ s.table.closed.length = 3 ∧
      ∀ file ∈ s.table.closed, ∃ nonblocking, file = some (.socket nonblocking) := by
  obtain ⟨s, hs, hp⟩ := (socketSystem fun _ => "").exists_reachable_of_run {}
    [.create 0 (.tcpServer 128 (.ok [{ socket := .ok 3, bind := .error 98 }, { socket := .ok 3 }])),
      .create 1 (.connect (.ok [
        { socket := .ok 4, connect := .error EINPROGRESS, socketError := .ok 111 },
        { socket := .ok 4, connect := .error EINPROGRESS }])),
      .create 2 (.accept 0 [.transient false, .accepted 5 (.ok ())]), .moveAssign 1 2,
      .create 3 (.connect (.ok [
        { socket := .ok 4, connect := .error EINTR, poll := .threw "poll TCP socket" }])),
      .destroy 2]
    (fun s => s.left = [4] ∧ s.fdOf 1 = some 5 ∧ s.fdOf 2 = none ∧ s.table.closed.length = 3)
    ⟨fun _ => none, by simp, rfl⟩ (by decide)
  obtain ⟨hleft, hmoved, hempty, hclosed⟩ := of_decide_eq_true hp
  exact ⟨s, hs, hleft, hmoved, hempty, hclosed, (sockets_owned_once hs).1⟩

end SocketProcess
end RobotMiddleware
