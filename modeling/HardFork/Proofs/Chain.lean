import HardFork.Schedule

/-! # A chain of processed blocks

Each block is kept with the schedule that it was processed under. A chain grows by one block at a
time, and can drop the blocks above a height. -/
namespace HardFork

/-- The schedules of the blocks, that of the first block first. Their number is a height. -/
structure Chain where
  schedules : List Schedule
  fits : schedules.length < UInt64.size

namespace Chain

def empty : Chain := ⟨[], by decide⟩

def height (c : Chain) : UInt64 := .ofNatLT c.schedules.length c.fits

/-- What a block was processed under. There is none at height zero. -/
def processedUnder? (c : Chain) (n : UInt64) : Option Schedule :=
  if n = 0 then none else c.schedules[n.toNat - 1]?

/-- Processes the next block, if there is a height for it. -/
def process (c : Chain) (s : Schedule) : Chain :=
  if h : (c.schedules ++ [s]).length < UInt64.size then ⟨c.schedules ++ [s], h⟩ else c

def dropAbove (c : Chain) (n : UInt64) : Chain :=
  ⟨c.schedules.take n.toNat, Nat.lt_of_le_of_lt (List.length_take_le' _ _) c.fits⟩

variable {c : Chain} {s past : Schedule} {m n : UInt64}

@[simp] theorem toNat_height : c.height.toNat = c.schedules.length :=
  UInt64.toNat_ofNatLT

theorem le_height_iff : n ≤ c.height ↔ n.toNat ≤ c.schedules.length := by
  rw [UInt64.le_iff_toNat_le, toNat_height]

theorem processedUnder?_eq_some_iff :
    c.processedUnder? n = some past ↔ n ≠ 0 ∧ c.schedules[n.toNat - 1]? = some past := by
  by_cases hn : n = 0 <;> simp [processedUnder?, hn]

/-- The processed blocks are those from the first one up to the height. -/
theorem exists_processedUnder?_iff :
    (∃ past, c.processedUnder? n = some past) ↔ n ≠ 0 ∧ n ≤ c.height := by
  simp only [processedUnder?_eq_some_iff, exists_and_left]
  refine and_congr_right fun hn => ?_
  have hpos : n.toNat ≠ 0 := fun h => hn (UInt64.toNat_inj.mp h)
  rw [← Option.isSome_iff_exists, isSome_getElem?, le_height_iff]
  omega

theorem height_dropAbove (h : m ≤ c.height) : (c.dropAbove m).height = m := by
  have hm : m.toNat ≤ c.schedules.length := le_height_iff.mp h
  apply UInt64.toNat_inj.mp
  rw [toNat_height, dropAbove, List.length_take, Nat.min_eq_left hm]

theorem processedUnder?_of_dropAbove (h : (c.dropAbove m).processedUnder? n = some past) :
    c.processedUnder? n = some past := by
  rw [processedUnder?_eq_some_iff] at h ⊢
  obtain ⟨hn, hp⟩ := h
  obtain ⟨hlt, rfl⟩ := List.getElem?_eq_some_iff.mp hp
  refine ⟨hn, List.getElem?_eq_some_iff.mpr ⟨?_, List.getElem_take.symm⟩⟩
  exact Nat.lt_of_lt_of_le hlt (List.length_take_le' _ _)

/-- A block of the grown chain was there before, or it is the new one. -/
theorem processedUnder?_of_process (h : (c.process s).processedUnder? n = some past) :
    c.processedUnder? n = some past ∨ past = s := by
  rw [process] at h
  split at h
  · rw [processedUnder?_eq_some_iff] at h ⊢
    obtain ⟨hn, hp⟩ := h
    obtain ⟨hlt, rfl⟩ := List.getElem?_eq_some_iff.mp hp
    by_cases hold : n.toNat - 1 < c.schedules.length
    · rw [List.getElem_append_left hold]
      exact .inl ⟨hn, List.getElem?_eq_getElem hold⟩
    · rw [List.getElem_append_right (Nat.not_lt.mp hold), List.getElem_singleton]
      exact .inr rfl
  · exact .inl h

end Chain
end HardFork
