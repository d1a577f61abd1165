import RobotMiddleware.TransitionSystem
import Mathlib.Algebra.Order.Group.Defs
import Mathlib.Logic.Function.Basic

/-! Two peers that watch each other over a line in each direction. A peer takes turns: it reads
its clock, with a message or without one, sends a beat if its interval has passed, and leaves if it
has heard nothing for its idle time. How long a turn, an entry and a message on a line may take
is a bound on the runs. -/

universe u

namespace KeepAlive

inductive Side
  | left
  | right
  deriving DecidableEq

def Side.other : Side → Side
  | .left => .right
  | .right => .left

@[simp] theorem Side.other_other (side : Side) : side.other.other = side := by
  cases side <;> rfl

theorem Side.other_ne (side : Side) : side.other ≠ side := by
  cases side <;> decide

theorem Side.eq_or_eq_other (side side' : Side) : side' = side ∨ side' = side.other := by
  cases side <;> cases side' <;> decide

inductive Stage
  | waiting
  | beating
  | judging
  deriving DecidableEq

/-- A peer that has not come yet, one that is there, with the last reading of its clock, the time
of its next beat and the time at which it last heard something, and one that has left. -/
inductive Peer (T : Type u)
  | away (since : T)
  | up (reading nextBeat heard : T) (stage : Stage)
  | gone
  deriving DecidableEq

/-- The sending times of the messages on their way to a side, oldest first, are its line. -/
structure State (T : Type u) where
  time : T
  peers : Side → Peer T
  line : Side → List T

structure Settings (T : Type u) where
  interval : T
  idle : T

inductive Action (T : Type u)
  | pass (time : T)
  | enter (side : Side)
  | send (side : Side)
  | hear (side : Side)
  | miss (side : Side)
  | beat (side : Side)
  | judge (side : Side)
  | leave (side : Side)

namespace State
variable {T : Type u}

def setPeer (s : State T) (side : Side) (peer : Peer T) : State T :=
  { s with peers := Function.update s.peers side peer }

def post (s : State T) (side : Side) : State T :=
  { s with line := Function.update s.line side.other (s.line side.other ++ [s.time]) }

variable [AddCommGroup T] [LinearOrder T]

def step (settings : Side → Settings T) (s : State T) : Action T → Option (State T)
  | .pass time => if s.time ≤ time then some { s with time } else none
  | .enter side =>
    match s.peers side with
    | .away _ =>
      some (s.setPeer side (.up s.time (s.time + (settings side).interval) s.time .waiting))
    | _ => none
  | .send side => some (s.post side)
  | .hear side =>
    match s.peers side, s.line side with
    | .up _ nextBeat _ .waiting, _ :: rest =>
      some ({ s with line := Function.update s.line side rest }.setPeer side
        (.up s.time nextBeat s.time .beating))
    | _, _ => none
  | .miss side =>
    match s.peers side with
    | .up _ nextBeat heard .waiting => some (s.setPeer side (.up s.time nextBeat heard .beating))
    | _ => none
  | .beat side =>
    match s.peers side with
    | .up reading nextBeat heard .beating =>
      if nextBeat ≤ reading then
        some ((s.post side).setPeer side
          (.up reading (reading + (settings side).interval) heard .judging))
      else some (s.setPeer side (.up reading nextBeat heard .judging))
    | _ => none
  | .judge side =>
    match s.peers side with
    | .up reading nextBeat heard .judging =>
      if (settings side).idle ≤ reading - heard then some (s.setPeer side .gone)
      else some (s.setPeer side (.up reading nextBeat heard .waiting))
    | _ => none
  | .leave side => some (s.setPeer side .gone)

end State

inductive StepView [AddCommGroup T] [LinearOrder T] (settings : Side → Settings T) (s : State T) :
    Action T → State T → Prop
  | passed (time : T) : s.time ≤ time → StepView settings s (.pass time) { s with time }
  | entered (side : Side) (since : T) : s.peers side = .away since →
      StepView settings s (.enter side)
        (s.setPeer side (.up s.time (s.time + (settings side).interval) s.time .waiting))
  | sent (side : Side) : StepView settings s (.send side) (s.post side)
  | heard (side : Side) (reading nextBeat heard sent : T) (rest : List T) :
      s.peers side = .up reading nextBeat heard .waiting → s.line side = sent :: rest →
      StepView settings s (.hear side) ({ s with line := Function.update s.line side rest }.setPeer
        side (.up s.time nextBeat s.time .beating))
  | missed (side : Side) (reading nextBeat heard : T) :
      s.peers side = .up reading nextBeat heard .waiting →
      StepView settings s (.miss side) (s.setPeer side (.up s.time nextBeat heard .beating))
  | beat (side : Side) (reading nextBeat heard : T) :
      s.peers side = .up reading nextBeat heard .beating → nextBeat ≤ reading →
      StepView settings s (.beat side) ((s.post side).setPeer side
        (.up reading (reading + (settings side).interval) heard .judging))
  | rested (side : Side) (reading nextBeat heard : T) :
      s.peers side = .up reading nextBeat heard .beating → reading < nextBeat →
      StepView settings s (.beat side) (s.setPeer side (.up reading nextBeat heard .judging))
  | judged (side : Side) (reading nextBeat heard : T) :
      s.peers side = .up reading nextBeat heard .judging →
      reading - heard < (settings side).idle →
      StepView settings s (.judge side) (s.setPeer side (.up reading nextBeat heard .waiting))
  | left (a : Action T) (side : Side) : StepView settings s a (s.setPeer side .gone)

theorem step_view [AddCommGroup T] [LinearOrder T] {settings : Side → Settings T} {s s' : State T}
    {a : Action T} (hs : s.step settings a = some s') : StepView settings s a s' := by
  cases a with
  | pass time =>
    obtain ⟨htime, hs⟩ := Option.ite_none_right_eq_some.mp hs
    cases hs
    exact .passed time htime
  | enter side =>
    simp only [State.step] at hs
    split at hs
    case h_1 since hpeer =>
      cases hs
      exact .entered side since hpeer
    case h_2 => cases hs
  | send side =>
    cases hs
    exact .sent side
  | hear side =>
    simp only [State.step] at hs
    split at hs
    case h_1 reading nextBeat heard sent rest hpeer hline =>
      cases hs
      exact .heard side reading nextBeat heard sent rest hpeer hline
    case h_2 => cases hs
  | miss side =>
    simp only [State.step] at hs
    split at hs
    case h_1 reading nextBeat heard hpeer =>
      cases hs
      exact .missed side reading nextBeat heard hpeer
    case h_2 => cases hs
  | beat side =>
    simp only [State.step] at hs
    split at hs
    case h_1 reading nextBeat heard hpeer =>
      split at hs
      case isTrue hdue =>
        cases hs
        exact .beat side reading nextBeat heard hpeer hdue
      case isFalse hnot =>
        cases hs
        exact .rested side reading nextBeat heard hpeer (not_le.mp hnot)
    case h_2 => cases hs
  | judge side =>
    simp only [State.step] at hs
    split at hs
    case h_1 reading nextBeat heard hpeer =>
      split at hs
      case isTrue =>
        cases hs
        exact .left _ side
      case isFalse hnot =>
        cases hs
        exact .judged side reading nextBeat heard hpeer (not_le.mp hnot)
    case h_2 => cases hs
  | leave side =>
    cases hs
    exact .left _ side

/-- How long a peer may take to come, how long its turns may take, and how long a message may be
on its way. -/
structure Bounds (T : Type u) where
  entry : T
  turn : Side → T
  delay : T

section Ordered
variable {T : Type u} [AddCommGroup T] [LinearOrder T]

structure Settings.Positive (settings : Settings T) : Prop where
  interval : 0 < settings.interval
  idle : 0 < settings.idle

structure Bounds.Sound (bounds : Bounds T) : Prop where
  entry : 0 ≤ bounds.entry
  turn : ∀ side, 0 ≤ bounds.turn side
  delay : 0 ≤ bounds.delay

def Peer.Allows (bounds : Bounds T) (side : Side) (time : T) : Peer T → Prop
  | .away since => time ≤ since + bounds.entry
  | .up reading _ _ _ => time ≤ reading + bounds.turn side
  | .gone => True

instance (bounds : Bounds T) (side : Side) (time : T) :
    ∀ peer : Peer T, Decidable (peer.Allows bounds side time)
  | .away since => inferInstanceAs (Decidable (time ≤ since + bounds.entry))
  | .up reading _ _ _ => inferInstanceAs (Decidable (time ≤ reading + bounds.turn side))
  | .gone => inferInstanceAs (Decidable True)

/-- Nobody is late, and who hears nothing from a peer that is there has no old message waiting. -/
def OnTime (bounds : Bounds T) (s : State T) : Action T → Prop
  | .pass time => ∀ side, (s.peers side).Allows bounds side time
  | .miss side => s.peers side.other ≠ .gone → ∀ sent ∈ s.line side, s.time < sent + bounds.delay
  | _ => True

def system (settings : Side → Settings T) (start : T) : TransitionSystem (State T) (Action T) where
  init s := s.time = start ∧ (∀ side, s.peers side = .away start) ∧ ∀ side, s.line side = []
  step := State.step settings

/-! From `first` on the line has a message at most `gap` after the one before, up to `last`. -/

def Paced (gap : T) : T → List T → T → Prop
  | first, [], last => first = last
  | first, sent :: line, last => sent ≤ first + gap ∧ Paced gap sent line last

theorem Paced.concat {gap first last sent : T} {line : List T} (h : Paced gap first line last)
    (hsent : sent ≤ last + gap) : Paced gap first (line ++ [sent]) sent := by
  induction line generalizing first with
  | nil =>
    obtain rfl : first = last := h
    exact ⟨hsent, rfl⟩
  | cons next line ih => exact ⟨h.1, ih h.2⟩

/-- Where no message is older than `delay`, neither is the one before them by much. -/
theorem Paced.recent [IsOrderedAddMonoid T] {gap first last time delay : T} {line : List T}
    (h : Paced gap first line last) (hlast : time ≤ last + gap) (hdelay : 0 ≤ delay)
    (hline : ∀ sent ∈ line, time < sent + delay) : time ≤ first + gap + delay := by
  cases line with
  | nil =>
    obtain rfl : first = last := h
    exact hlast.trans (le_add_of_nonneg_right hdelay)
  | cons sent line =>
    have hsent : time < sent + delay := hline sent List.mem_cons_self
    exact hsent.le.trans (add_le_add_left h.1 delay)

/-! What a peer does on its own, for a system in which it is the view of something else. -/

inductive Kind
  | quiet
  | posted
  | heard
  | missed
  deriving DecidableEq

inductive Move (settings : Settings T) (time : T) : Kind → Peer T → Peer T → Prop
  | still (peer : Peer T) : Move settings time .quiet peer peer
  | entered (since : T) : Move settings time .quiet (.away since)
      (.up time (time + settings.interval) time .waiting)
  | sent (peer : Peer T) : Move settings time .posted peer peer
  | heard (reading nextBeat heard : T) : Move settings time .heard
      (.up reading nextBeat heard .waiting) (.up time nextBeat time .beating)
  | missed (reading nextBeat heard : T) : Move settings time .missed
      (.up reading nextBeat heard .waiting) (.up time nextBeat heard .beating)
  | beat (reading nextBeat heard : T) : nextBeat ≤ reading → Move settings time .posted
      (.up reading nextBeat heard .beating)
      (.up reading (reading + settings.interval) heard .judging)
  | rested (reading nextBeat heard : T) : reading < nextBeat → Move settings time .quiet
      (.up reading nextBeat heard .beating) (.up reading nextBeat heard .judging)
  | judged (reading nextBeat heard : T) : reading - heard < settings.idle →
      Move settings time .quiet
        (.up reading nextBeat heard .judging) (.up reading nextBeat heard .waiting)
  | left (peer : Peer T) : Move settings time .quiet peer .gone

omit [AddCommGroup T] [LinearOrder T] in
def State.after (s : State T) (side : Side) (peer : Peer T) : Kind → State T
  | .quiet | .missed => s.setPeer side peer
  | .posted => (s.post side).setPeer side peer
  | .heard => { s with line := Function.update s.line side (s.line side).tail }.setPeer side peer

omit [AddCommGroup T] [LinearOrder T] in
theorem State.setPeer_self (s : State T) (side : Side) : s.setPeer side (s.peers side) = s := by
  unfold State.setPeer
  rw [Function.update_eq_self]

section After
omit [AddCommGroup T] [LinearOrder T]
variable (s : State T) (side : Side) (peer : Peer T) (kind : Kind)

@[simp] theorem State.after_time : (s.after side peer kind).time = s.time := by
  cases kind <;> rfl

@[simp] theorem State.after_peers : (s.after side peer kind).peers side = peer := by
  cases kind <;> exact Function.update_self ..

@[simp] theorem State.after_peers_other :
    (s.after side peer kind).peers side.other = s.peers side.other := by
  cases kind <;> exact Function.update_of_ne side.other_ne ..

@[simp] theorem State.after_line : (s.after side peer kind).line side =
    if kind = .heard then (s.line side).tail else s.line side := by
  cases kind with
  | quiet | missed => rfl
  | posted => exact Function.update_of_ne (Ne.symm side.other_ne) ..
  | heard => exact Function.update_self ..

@[simp] theorem State.after_line_other : (s.after side peer kind).line side.other =
    if kind = .posted then s.line side.other ++ [s.time] else s.line side.other := by
  cases kind with
  | quiet | missed => rfl
  | posted => exact Function.update_self ..
  | heard => exact Function.update_of_ne side.other_ne ..

end After

/-- A move of a peer is a step of the system, or nothing. -/
theorem reachableVia_after {settings : Side → Settings T} {start : T} {bounds : Bounds T}
    {s : State T} {side : Side} {kind : Kind} {peer peer' : Peer T}
    (h : (system settings start).ReachableVia (OnTime bounds) s) (hpeer : s.peers side = peer)
    (hmove : Move (settings side) s.time kind peer peer')
    (hheard : kind = .heard → s.line side ≠ [])
    (hmissed : kind = .missed → OnTime bounds s (.miss side)) :
    (system settings start).ReachableVia (OnTime bounds) (s.after side peer' kind) := by
  have hstep {a : Action T} {s' : State T} (htime : OnTime bounds s a)
      (hs : s.step settings a = some s') :
      (system settings start).ReachableVia (OnTime bounds) s' := h.step htime hs
  cases hmove with
  | still =>
    show TransitionSystem.ReachableVia _ _ (s.setPeer side peer)
    rw [← hpeer, State.setPeer_self]
    exact h
  | left =>
    exact hstep (a := .leave side) trivial rfl
  | sent =>
    have hsame : (s.post side).setPeer side peer = s.post side := by
      rw [← hpeer]
      exact State.setPeer_self (s.post side) side
    show TransitionSystem.ReachableVia _ _ ((s.post side).setPeer side peer)
    rw [hsame]
    exact hstep (a := .send side) trivial rfl
  | entered since =>
    refine hstep (a := .enter side) trivial ?_
    simp only [State.step, hpeer]
    rfl
  | heard reading nextBeat heard =>
    obtain ⟨sent, rest, hline⟩ := List.exists_cons_of_ne_nil (hheard rfl)
    refine hstep (a := .hear side) trivial ?_
    simp only [State.step, hpeer, hline]
    show _ = some (State.setPeer { s with line := Function.update s.line side (s.line side).tail }
      side _)
    rw [hline]
    rfl
  | missed reading nextBeat heard =>
    refine hstep (a := .miss side) (hmissed rfl) ?_
    simp only [State.step, hpeer]
    rfl
  | beat reading nextBeat heard hdue =>
    refine hstep (a := .beat side) trivial ?_
    simp only [State.step, hpeer, if_pos hdue]
    rfl
  | rested reading nextBeat heard hnot =>
    refine hstep (a := .beat side) trivial ?_
    simp only [State.step, hpeer, if_neg (not_le.mpr hnot)]
    rfl
  | judged reading nextBeat heard hnot =>
    refine hstep (a := .judge side) trivial ?_
    simp only [State.step, hpeer, if_neg (not_le.mpr hnot)]
    rfl

/-! What holds of a peer in time, and of a line as long as its sender is there. -/

variable {settings : Side → Settings T} {start : T} {bounds : Bounds T} {s s' : State T}
  {side : Side}

/-- A peer that is there: it passes its beat only for a turn, and its idle time only for a turn. -/
structure Turning (settings : Settings T) (turn time reading nextBeat heard : T)
    (stage : Stage) : Prop where
  read : reading ≤ time
  inTurn : time ≤ reading + turn
  beat : reading < nextBeat + if stage = .beating then turn else 0
  idle : reading < heard + settings.idle + if stage = .waiting then 0 else turn

def Peer.Punctual (settings : Settings T) (entry turn time : T) : Peer T → Prop
  | .away since => since ≤ time ∧ time ≤ since + entry
  | .up reading nextBeat heard stage =>
    Turning settings turn time reading nextBeat heard stage
  | .gone => True

def gap (settings : Side → Settings T) (bounds : Bounds T) (side : Side) : T :=
  bounds.entry + (settings side).interval + bounds.turn side + bounds.turn side

def Peer.Sends (interval entry last : T) : Peer T → Prop
  | .away since => since ≤ last
  | .up _ nextBeat _ _ => nextBeat ≤ last + entry + interval
  | .gone => True

/-- It has heard what came before the line, and its last reading is not long after that. -/
def Peer.Hears (silence first : T) : Peer T → Prop
  | .away since => first ≤ since
  | .up reading _ heard _ => first ≤ heard ∧ reading ≤ heard + silence
  | .gone => True

/-- The line to a side, with the last message that was taken from it or the start for `first`. -/
structure Covered (settings : Side → Settings T) (bounds : Bounds T) (s : State T) (side : Side)
    (first last : T) : Prop where
  paced : Paced (gap settings bounds side.other) first (s.line side) last
  past : ∀ sent ∈ s.line side, sent ≤ s.time
  last_le : last ≤ s.time
  sends : (s.peers side.other).Sends (settings side.other).interval bounds.entry last
  hears : (s.peers side).Hears (gap settings bounds side.other + bounds.delay) first

structure Watched (settings : Side → Settings T) (bounds : Bounds T) (s : State T) : Prop where
  punctual : ∀ side, (s.peers side).Punctual (settings side) bounds.entry (bounds.turn side) s.time
  covered : ∀ side, s.peers side.other ≠ .gone →
    ∃ first last, Covered settings bounds s side first last

omit [AddCommGroup T] [LinearOrder T] in
theorem peers_setPeer (s : State T) (side side' : Side) (peer : Peer T) :
    (s.setPeer side' peer).peers side = if side = side' then peer else s.peers side := by
  show Function.update s.peers side' peer side = _
  rw [Function.update_apply]

/-- Who has left stays away. -/
theorem gone_of_step {a : Action T} (hgone : s.peers side = .gone)
    (hs : s.step settings a = some s') : s'.peers side = .gone := by
  have hmove {actor : Side} {peer : Peer T} {s₀ : State T} (hpeers : s₀.peers = s.peers)
      (hactor : side = actor → peer = .gone) : (s₀.setPeer actor peer).peers side = .gone := by
    rw [peers_setPeer, hpeers]
    split
    case isTrue heq => exact hactor heq
    case isFalse => exact hgone
  cases step_view hs with
  | passed | sent => exact hgone
  | left => exact hmove rfl fun _ => rfl
  | entered actor since hpeer =>
    apply hmove rfl
    rintro rfl
    rw [hgone] at hpeer
    cases hpeer
  | heard actor reading nextBeat heard sent rest hpeer =>
    apply hmove rfl
    rintro rfl
    rw [hgone] at hpeer
    cases hpeer
  | missed actor reading nextBeat heard hpeer | beat actor reading nextBeat heard hpeer
  | rested actor reading nextBeat heard hpeer | judged actor reading nextBeat heard hpeer =>
    apply hmove rfl
    rintro rfl
    rw [hgone] at hpeer
    cases hpeer

/-- Another peer at the receiving end of a line. -/
theorem Covered.receive {first last : T} {peer : Peer T}
    (h : Covered settings bounds s side first last)
    (hpeer : peer.Hears (gap settings bounds side.other + bounds.delay) first) :
    Covered settings bounds (s.setPeer side peer) side first last := by
  refine ⟨h.paced, h.past, h.last_le, ?_, ?_⟩
  · rw [peers_setPeer, if_neg side.other_ne]
    exact h.sends
  · rw [peers_setPeer, if_pos rfl]
    exact hpeer

/-- Another peer at its sending end. -/
theorem Covered.transmit {first last : T} {peer : Peer T}
    (h : Covered settings bounds s side first last)
    (hpeer : peer.Sends (settings side.other).interval bounds.entry last) :
    Covered settings bounds (s.setPeer side.other peer) side first last := by
  refine ⟨h.paced, h.past, h.last_le, ?_, ?_⟩
  · rw [peers_setPeer, if_pos rfl]
    exact hpeer
  · rw [peers_setPeer, if_neg (Ne.symm side.other_ne)]
    exact h.hears

/-- Another message on the line. -/
theorem Covered.post {first last : T} (h : Covered settings bounds s side first last)
    (hsilence : s.time ≤ last + gap settings bounds side.other)
    (hsends : (s.peers side.other).Sends (settings side.other).interval bounds.entry s.time) :
    Covered settings bounds (s.post side.other) side first s.time := by
  have hline : (s.post side.other).line side = s.line side ++ [s.time] := by
    simp only [State.post, Side.other_other, Function.update_self]
  refine ⟨?_, ?_, le_rfl, hsends, h.hears⟩
  · rw [hline]
    exact h.paced.concat hsilence
  · rw [hline]
    intro sent hsent
    rcases List.mem_append.mp hsent with hsent | hsent
    · exact h.past sent hsent
    · obtain rfl := List.mem_singleton.mp hsent
      exact le_rfl

/-- Only the line the other way changes. -/
theorem Covered.beside {first last : T} {line : Side → List T}
    (h : Covered settings bounds s side first last) (hline : line side = s.line side) :
    Covered settings bounds { s with line } side first last := by
  refine ⟨?_, ?_, h.last_le, h.sends, h.hears⟩
  · show Paced _ first (line side) last
    rw [hline]
    exact h.paced
  · show ∀ sent ∈ line side, sent ≤ s.time
    rw [hline]
    exact h.past

theorem Covered.post_other {first last : T} (h : Covered settings bounds s side first last) :
    Covered settings bounds (s.post side) side first last :=
  h.beside (Function.update_of_ne (Ne.symm side.other_ne) ..)

variable [IsOrderedAddMonoid T]

/-- A peer that is there, or has yet to come, has not been silent for long. -/
theorem Peer.Punctual.time_le {peer : Peer T} {last time : T} (hnot : peer ≠ .gone)
    (h : peer.Punctual (settings side) bounds.entry (bounds.turn side) time)
    (hturn : 0 ≤ bounds.turn side) (hinterval : 0 ≤ (settings side).interval)
    (hsends : peer.Sends (settings side).interval bounds.entry last) :
    time ≤ last + gap settings bounds side := by
  unfold gap
  cases peer with
  | gone => exact absurd rfl hnot
  | away since =>
    obtain ⟨-, hentry⟩ := h
    have hsince : since ≤ last := hsends
    grind
  | up reading nextBeat heard stage =>
    have hnext : nextBeat ≤ last + bounds.entry + (settings side).interval := hsends
    have hread := h.inTurn
    have hbeat := h.beat
    split at hbeat
    all_goals grind

/-- A step of a peer that is in time. -/
theorem Watched.punctual_step {a : Action T} (h : Watched settings bounds s)
    (hsettings : ∀ side, (settings side).Positive) (hbounds : bounds.Sound)
    (htime : OnTime bounds s a) (hs : s.step settings a = some s') (side : Side) :
    (s'.peers side).Punctual (settings side) bounds.entry (bounds.turn side) s'.time := by
  have hside := h.punctual side
  have hinterval := (hsettings side).interval
  have hidle := (hsettings side).idle
  have hturn := hbounds.turn side
  have hmove {actor : Side} {peer : Peer T} {s₀ : State T}
      (hpeers : s₀.peers = s.peers) (hclock : s₀.time = s.time)
      (hactor : side = actor →
        peer.Punctual (settings side) bounds.entry (bounds.turn side) s.time) :
      ((s₀.setPeer actor peer).peers side).Punctual (settings side) bounds.entry
        (bounds.turn side) (s₀.setPeer actor peer).time := by
    rw [peers_setPeer, hpeers]
    show Peer.Punctual _ _ _ s₀.time _
    rw [hclock]
    split
    case isTrue heq => exact hactor heq
    case isFalse => exact hside
  cases step_view hs with
  | passed time hle =>
    have hallows := htime side
    show (s.peers side).Punctual _ _ _ time
    cases hpeer : s.peers side with
    | gone => trivial
    | away since =>
      rw [hpeer] at hside hallows
      exact ⟨hside.1.trans hle, hallows⟩
    | up reading nextBeat heard stage =>
      rw [hpeer] at hside hallows
      exact ⟨hside.read.trans hle, hallows, hside.beat, hside.idle⟩
  | sent actor => exact hside
  | entered actor since hpeer =>
    apply hmove rfl rfl
    rintro rfl
    refine ⟨le_rfl, by grind, ?_, ?_⟩
    · grind
    · grind
  | heard actor reading nextBeat heard sent rest hpeer hline =>
    apply hmove rfl rfl
    rintro rfl
    rw [hpeer] at hside
    have hbeat := hside.beat
    have hread := hside.inTurn
    refine ⟨le_rfl, by grind, ?_, ?_⟩
    · grind
    · grind
  | missed actor reading nextBeat heard hpeer =>
    apply hmove rfl rfl
    rintro rfl
    rw [hpeer] at hside
    have hbeat := hside.beat
    have hread := hside.inTurn
    have hsilent := hside.idle
    refine ⟨le_rfl, by grind, ?_, ?_⟩
    · grind
    · grind
  | beat actor reading nextBeat heard hpeer hdue =>
    apply hmove rfl rfl
    rintro rfl
    rw [hpeer] at hside
    refine ⟨hside.read, hside.inTurn, ?_, hside.idle⟩
    grind
  | rested actor reading nextBeat heard hpeer hnot =>
    apply hmove rfl rfl
    rintro rfl
    rw [hpeer] at hside
    refine ⟨hside.read, hside.inTurn, ?_, hside.idle⟩
    grind
  | judged actor reading nextBeat heard hpeer hnot =>
    apply hmove rfl rfl
    rintro rfl
    rw [hpeer] at hside
    refine ⟨hside.read, hside.inTurn, hside.beat, ?_⟩
    grind
  | left _ actor =>
    apply hmove rfl rfl
    intro _
    trivial

/-- The line to a side under one step, as long as its sender is there. -/
theorem Watched.covered_step {a : Action T} (h : Watched settings bounds s)
    (hsettings : ∀ side, (settings side).Positive) (hbounds : bounds.Sound)
    (htime : OnTime bounds s a) (hs : s.step settings a = some s') (side : Side)
    (hnot : s'.peers side.other ≠ .gone) :
    ∃ first last, Covered settings bounds s' side first last := by
  have hentry := hbounds.entry
  have hdelay := hbounds.delay
  have hgap : 0 ≤ gap settings bounds side.other := by
    have hinterval := (hsettings side.other).interval
    have hturn := hbounds.turn side.other
    unfold gap
    grind
  have hbefore : s.peers side.other ≠ .gone := fun hgone => hnot (gone_of_step hgone hs)
  obtain ⟨first, last, hcovered⟩ := h.covered side hbefore
  have hpast := hcovered.last_le
  have hsends := hcovered.sends
  have hhears := hcovered.hears
  have hpunctual := h.punctual side.other
  have hsilence : s.time ≤ last + gap settings bounds side.other :=
    Peer.Punctual.time_le hbefore hpunctual (hbounds.turn _) (hsettings _).interval.le hsends
  cases step_view hs with
  | passed time hle =>
    exact ⟨first, last, hcovered.paced, fun sent hsent => (hcovered.past sent hsent).trans hle,
      hpast.trans hle, hsends, hhears⟩
  | sent actor =>
    rcases side.eq_or_eq_other actor with rfl | rfl
    · exact ⟨first, last, hcovered.post_other⟩
    · refine ⟨first, s.time, hcovered.post hsilence ?_⟩
      cases hpeer : s.peers side.other with
      | gone => trivial
      | away since =>
        rw [hpeer] at hpunctual
        exact hpunctual.1
      | up reading nextBeat heard stage =>
        rw [hpeer] at hsends
        have hnext : nextBeat ≤ last + bounds.entry + (settings side.other).interval := hsends
        show nextBeat ≤ s.time + bounds.entry + (settings side.other).interval
        grind
  | entered actor since hpeer =>
    rcases side.eq_or_eq_other actor with rfl | rfl
    · refine ⟨first, last, hcovered.receive ⟨?_, ?_⟩⟩
      · have hside := h.punctual actor
        rw [hpeer] at hhears hside
        exact le_trans hhears hside.1
      · grind
    · refine ⟨first, last, hcovered.transmit ?_⟩
      rw [hpeer] at hsends hpunctual
      have hsince : since ≤ last := hsends
      have hlate : s.time ≤ since + bounds.entry := hpunctual.2
      show s.time + _ ≤ _
      grind
  | heard actor reading nextBeat heard sent rest hpeer hline =>
    rcases side.eq_or_eq_other actor with rfl | rfl
    · -- the message in front is now the last one that was taken
      have hpaced := hcovered.paced
      rw [hline] at hpaced
      have hrest : (Function.update s.line actor rest) actor = rest := Function.update_self ..
      have hin {t : T} (ht : t ∈ rest) : t ∈ s.line actor := hline ▸ List.mem_cons_of_mem sent ht
      refine ⟨sent, last, ?_, fun t ht => hcovered.past t (hin ?_), hpast, ?_, ?_⟩
      · show Paced _ sent (Function.update s.line actor rest actor) last
        rw [hrest]
        exact hpaced.2
      · exact hrest ▸ ht
      · rw [peers_setPeer, if_neg actor.other_ne]
        exact hsends
      · rw [peers_setPeer, if_pos rfl]
        refine ⟨hcovered.past sent (hline ▸ List.mem_cons_self), ?_⟩
        grind
    · have hsame : Covered settings bounds { s with line := Function.update s.line side.other rest }
          side first last :=
        hcovered.beside (Function.update_of_ne (Ne.symm side.other_ne) ..)
      rw [hpeer] at hsends
      exact ⟨first, last, hsame.transmit hsends⟩
  | missed actor reading nextBeat heard hpeer =>
    rcases side.eq_or_eq_other actor with rfl | rfl
    · rw [hpeer] at hhears
      have hfirst : first ≤ heard := hhears.1
      have hrecent : s.time ≤ first + gap settings bounds actor.other + bounds.delay :=
        hcovered.paced.recent hsilence hdelay (htime hbefore)
      refine ⟨first, last, hcovered.receive ⟨hfirst, ?_⟩⟩
      grind
    · rw [hpeer] at hsends
      exact ⟨first, last, hcovered.transmit hsends⟩
  | beat actor reading nextBeat heard hpeer hdue =>
    rcases side.eq_or_eq_other actor with rfl | rfl
    · rw [hpeer] at hhears
      exact ⟨first, last, hcovered.post_other.receive hhears⟩
    · have hinterval := (hsettings side.other).interval
      rw [hpeer] at hpunctual
      have hread := hpunctual.read
      have hposted : Covered settings bounds (s.post side.other) side first s.time := by
        apply hcovered.post hsilence
        rw [hpeer]
        show nextBeat ≤ _
        grind
      refine ⟨first, s.time, hposted.transmit ?_⟩
      show reading + _ ≤ _
      grind
  | rested actor reading nextBeat heard hpeer hlt =>
    rcases side.eq_or_eq_other actor with rfl | rfl
    · rw [hpeer] at hhears
      exact ⟨first, last, hcovered.receive hhears⟩
    · rw [hpeer] at hsends
      exact ⟨first, last, hcovered.transmit hsends⟩
  | judged actor reading nextBeat heard hpeer hlt =>
    rcases side.eq_or_eq_other actor with rfl | rfl
    · rw [hpeer] at hhears
      exact ⟨first, last, hcovered.receive hhears⟩
    · rw [hpeer] at hsends
      exact ⟨first, last, hcovered.transmit hsends⟩
  | left _ actor =>
    rcases side.eq_or_eq_other actor with rfl | rfl
    · exact ⟨first, last, hcovered.receive trivial⟩
    · rw [peers_setPeer, if_pos rfl] at hnot
      exact absurd rfl hnot

theorem Watched.of_reachable (hsettings : ∀ side, (settings side).Positive) (hbounds : bounds.Sound)
    (h : (system settings start).ReachableVia (OnTime bounds) s) : Watched settings bounds s := by
  refine h.invariant ?_ fun s a s' _ hwatched htime hs =>
    ⟨hwatched.punctual_step hsettings hbounds htime hs,
      hwatched.covered_step hsettings hbounds htime hs⟩
  rintro s ⟨rfl, hpeers, hline⟩
  refine ⟨fun side => ?_, fun side _ => ⟨s.time, s.time, ?_, ?_, le_rfl, ?_, ?_⟩⟩
  · rw [hpeers side]
    exact ⟨le_rfl, le_add_of_nonneg_right hbounds.entry⟩
  · rw [hline side]
    rfl
  · rw [hline side]
    nofun
  · rw [hpeers side.other]
    exact le_rfl
  · rw [hpeers side]
    exact le_rfl

variable {reading nextBeat heard : T} {stage : Stage}

/-- A silent peer is found out: who hears nothing does not stay for long. -/
theorem complete (hsettings : ∀ side, (settings side).Positive) (hbounds : bounds.Sound)
    (h : (system settings start).ReachableVia (OnTime bounds) s)
    (hpeer : s.peers side = .up reading nextBeat heard stage) :
    s.time < heard + (settings side).idle + bounds.turn side + bounds.turn side := by
  have hpunctual := (Watched.of_reachable hsettings hbounds h).punctual side
  have hturn := hbounds.turn side
  rw [hpeer] at hpunctual
  have hread := hpunctual.inTurn
  have hidle := hpunctual.idle
  split at hidle
  all_goals grind

end Ordered
end KeepAlive
