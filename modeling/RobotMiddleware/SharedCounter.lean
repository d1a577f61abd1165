import Mathlib.Data.List.Pairwise

/-! Producers that draw numbers from one shared counter. Each makes an item with its number and
puts it into a common log, or drops it. The items of one key are made one after the other, those
of different keys in any order. -/

structure SharedCounter (K ι : Type) where
  key : ι → K
  number : ι → ℕ

namespace SharedCounter
variable {T K ι : Type} [DecidableEq T] {C : SharedCounter K ι} {making making' : T → Option ι}
  {log : List ι} {draws draws' : ℕ} {t : T} {x : ι}

/-- The items of a key are in the log in the order of their numbers, and the one that is being
made has a greater number than all of them. -/
structure Ordered (C : SharedCounter K ι) (making : T → Option ι) (log : List ι) (draws : ℕ) :
    Prop where
  drawn : ∀ x ∈ log, C.number x < draws
  making_drawn : ∀ t x, making t = some x → C.number x < draws
  making_last : ∀ t x, making t = some x →
    ∀ y ∈ log, C.key y = C.key x → C.number y < C.number x
  alone : ∀ t u x y, making t = some x → making u = some y → C.key x = C.key y → t = u
  increasing : log.Pairwise fun x y => C.key x = C.key y → C.number x < C.number y

namespace Ordered

omit [DecidableEq T] in
theorem initial : C.Ordered (fun _ : T => none) [] 0 where
  drawn := nofun
  making_drawn := nofun
  making_last := nofun
  alone := nofun
  increasing := .nil

omit [DecidableEq T] in
/-- Fewer items are being made, and more numbers are drawn. -/
theorem mono (h : C.Ordered making log draws)
    (hmaking : ∀ u y, making' u = some y → making u = some y) (hdraws : draws ≤ draws') :
    C.Ordered making' log draws' where
  drawn x hx := Nat.lt_of_lt_of_le (h.drawn x hx) hdraws
  making_drawn u y hy := Nat.lt_of_lt_of_le (h.making_drawn u y (hmaking u y hy)) hdraws
  making_last u y hy := h.making_last u y (hmaking u y hy)
  alone t u x y hx hy := h.alone t u x y (hmaking t x hx) (hmaking u y hy)
  increasing := h.increasing

/-- A producer draws the next number for an item of a key that no other is busy with. -/
theorem draw (h : C.Ordered making log draws) (hnumber : C.number x = draws)
    (hmaking : ∀ u, making' u = if u = t then some x else making u)
    (halone : ∀ u y, u ≠ t → making u = some y → C.key y ≠ C.key x) :
    C.Ordered making' log (draws + 1) := by
  have hcases {u : T} {y : ι} (hy : making' u = some y) :
      u = t ∧ x = y ∨ u ≠ t ∧ making u = some y := by
    rw [hmaking] at hy
    split at hy
    case isTrue hut => exact .inl ⟨hut, Option.some.inj hy⟩
    case isFalse hut => exact .inr ⟨hut, hy⟩
  refine ⟨?_, ?_, ?_, ?_, h.increasing⟩
  · intro y hy
    exact Nat.lt_succ_of_lt (h.drawn y hy)
  · intro u y hy
    rcases hcases hy with ⟨-, rfl⟩ | ⟨-, hold⟩
    · exact hnumber ▸ Nat.lt_succ_self _
    · exact Nat.lt_succ_of_lt (h.making_drawn u y hold)
  · intro u y hy z hz hkey
    rcases hcases hy with ⟨-, rfl⟩ | ⟨-, hold⟩
    · -- all numbers in the log were drawn before
      exact hnumber ▸ h.drawn z hz
    · exact h.making_last u y hold z hz hkey
  · intro u v y z hy hz hkey
    rcases hcases hy with ⟨rfl, rfl⟩ | ⟨hu, hold⟩
    · rcases hcases hz with ⟨rfl, -⟩ | ⟨hv, hold⟩
      · rfl
      · exact absurd hkey.symm (halone v z hv hold)
    · rcases hcases hz with ⟨rfl, rfl⟩ | ⟨-, hold'⟩
      · exact absurd hkey (halone u y hu hold)
      · exact h.alone u v y z hold hold' hkey

/-- The item goes into the log. -/
theorem push (h : C.Ordered making log draws) (hx : making t = some x)
    (hmaking : ∀ u, making' u = if u = t then none else making u) :
    C.Ordered making' (log ++ [x]) draws := by
  have hold {u : T} {y : ι} (hy : making' u = some y) : u ≠ t ∧ making u = some y := by
    rw [hmaking] at hy
    split at hy
    case isTrue => cases hy
    case isFalse hut => exact ⟨hut, hy⟩
  refine ⟨?_, ?_, ?_, ?_, ?_⟩
  · intro y hy
    rcases List.mem_append.mp hy with hy | hy
    · exact h.drawn y hy
    · exact List.mem_singleton.mp hy ▸ h.making_drawn t x hx
  · intro u y hy
    exact h.making_drawn u y (hold hy).2
  · intro u y hy z hz hkey
    obtain ⟨hu, hy⟩ := hold hy
    rcases List.mem_append.mp hz with hz | hz
    · exact h.making_last u y hy z hz hkey
    · -- only `t` was making an item of this key
      obtain rfl := List.mem_singleton.mp hz
      exact absurd (h.alone u t y z hy hx hkey.symm) hu
  · intro u v y z hy hz
    exact h.alone u v y z (hold hy).2 (hold hz).2
  · refine List.pairwise_append.mpr ⟨h.increasing, List.pairwise_singleton _ _, ?_⟩
    intro y hy z hz hkey
    obtain rfl := List.mem_singleton.mp hz
    exact h.making_last t z hx y hy hkey

end Ordered
end SharedCounter
