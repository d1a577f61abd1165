import Mathlib.Data.List.Perm.Subperm

/-! A network that keeps no order: it may lose a message, duplicate it or deliver it at any
time, and does nothing else. Messages are conserved. -/

universe u

structure LossyNetwork (α : Type u) where
  inFlight : List α := []
  sent : List α := []
  /-- Second copies that the network has made. -/
  copies : List α := []
  lost : List α := []
  delivered : List α := []
  deriving DecidableEq

namespace LossyNetwork
variable {α : Type u} {n n' : LossyNetwork α} {message : α}

def send (n : LossyNetwork α) (message : α) : LossyNetwork α :=
  { n with inFlight := n.inFlight ++ [message], sent := n.sent ++ [message] }

variable [BEq α] [LawfulBEq α]

def lose (n : LossyNetwork α) (message : α) : Option (LossyNetwork α) :=
  if message ∈ n.inFlight then
    some { n with inFlight := n.inFlight.erase message, lost := n.lost ++ [message] }
  else none

def duplicate (n : LossyNetwork α) (message : α) : Option (LossyNetwork α) :=
  if message ∈ n.inFlight then
    some { n with inFlight := n.inFlight ++ [message], copies := n.copies ++ [message] }
  else none

def deliver (n : LossyNetwork α) (message : α) : Option (LossyNetwork α) :=
  if message ∈ n.inFlight then
    some { n with
      inFlight := n.inFlight.erase message
      delivered := n.delivered ++ [message] }
  else none

/-- Every message that was sent or copied is in one place, and nothing else is. -/
structure Conserved (n : LossyNetwork α) : Prop where
  counts : ∀ m, n.delivered.count m + n.inFlight.count m + n.lost.count m =
    n.sent.count m + n.copies.count m
  copied : ∀ m ∈ n.copies, m ∈ n.sent

/-- The messages on their way, after one of them has left. -/
theorem count_erase_of_mem {l : List α} (h : message ∈ l) (m : α) :
    (l.erase message).count m + [message].count m = l.count m := by
  have hpos : 0 < l.count message := List.count_pos_iff.mpr h
  rw [List.count_erase, List.count_singleton]
  by_cases hm : message = m
  · subst hm
    simp only [beq_self_eq_true, ↓reduceIte]
    omega
  · have hne : (message == m) = false := beq_false_of_ne hm
    simp [hne]

namespace Conserved

omit [LawfulBEq α] in
theorem empty : Conserved ({} : LossyNetwork α) := ⟨fun _ => rfl, by simp⟩

/-- What is on its way, or has arrived, was sent. -/
theorem mem_sent (h : n.Conserved)
    (hmem : message ∈ n.delivered ∨ message ∈ n.inFlight) : message ∈ n.sent := by
  have hcounts := h.counts message
  have hpos : 0 < n.sent.count message + n.copies.count message := by
    rcases hmem with hmem | hmem
    · have hdelivered : 0 < n.delivered.count message := List.count_pos_iff.mpr hmem
      omega
    · have hflight : 0 < n.inFlight.count message := List.count_pos_iff.mpr hmem
      omega
  by_contra hnot
  have hsent : n.sent.count message = 0 := List.count_eq_zero.mpr hnot
  have hcopies : n.copies.count message = 0 :=
    List.count_eq_zero.mpr fun hcopy => hnot (h.copied _ hcopy)
  omega

omit [LawfulBEq α] in
theorem send (h : n.Conserved) (message : α) : (n.send message).Conserved := by
  refine ⟨fun m => ?_, fun m hm => List.mem_append_left _ (h.copied m hm)⟩
  have hm := h.counts m
  simp only [LossyNetwork.send, List.count_append]
  omega

theorem lose (h : n.Conserved) (hs : n.lose message = some n') : n'.Conserved := by
  obtain ⟨hmem, hs⟩ := Option.ite_none_right_eq_some.mp hs
  cases hs
  refine ⟨fun m => ?_, h.copied⟩
  have hm := h.counts m
  have herase := count_erase_of_mem hmem m
  simp only [List.count_append]
  omega

theorem duplicate (h : n.Conserved) (hs : n.duplicate message = some n') : n'.Conserved := by
  obtain ⟨hmem, hs⟩ := Option.ite_none_right_eq_some.mp hs
  cases hs
  refine ⟨fun m => ?_, fun m hm => ?_⟩
  · have hm := h.counts m
    simp only [List.count_append]
    omega
  · rcases List.mem_append.mp hm with hm | hm
    · exact h.copied m hm
    · obtain rfl := List.mem_singleton.mp hm
      exact h.mem_sent (.inr hmem)

theorem deliver (h : n.Conserved) (hs : n.deliver message = some n') : n'.Conserved := by
  obtain ⟨hmem, hs⟩ := Option.ite_none_right_eq_some.mp hs
  cases hs
  refine ⟨fun m => ?_, h.copied⟩
  have hm := h.counts m
  have herase := count_erase_of_mem hmem m
  simp only [List.count_append]
  omega

end Conserved
end LossyNetwork
