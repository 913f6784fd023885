import HardFork.Compatibility

/-! # Thresholds that agree up to a head

Two thresholds agree up to a head when they are active at the same heights there. They are then the
same threshold, or both lie past the head: this is what the comparison of two thresholds asks. -/
namespace HardFork
namespace Threshold

theorem isActiveAt_mono {t : Threshold} {m n : UInt64} (hmn : m ≤ n) (h : t.isActiveAt m) :
    t.isActiveAt n := by
  obtain ⟨block, rfl, hb⟩ := isActiveAt_iff.mp h
  exact isActiveAt_iff.mpr ⟨block, rfl, UInt64.le_trans hb hmn⟩

theorem isScheduled_iff {t : Threshold} : t.isScheduled ↔ ∃ block, t = scheduled block := by
  cases t <;> simp [isScheduled, block?]

theorem isScheduled_of_isActiveAt {t : Threshold} {n : UInt64} (h : t.isActiveAt n) :
    t.isScheduled := by
  obtain ⟨block, ht, -⟩ := isActiveAt_iff.mp h
  exact isScheduled_iff.mpr ⟨block, ht⟩

/-- Active at the same heights up to the head. -/
def AgreeUpTo (head : UInt64) (s t : Threshold) : Prop :=
  ∀ n ≤ head, s.isActiveAt n = t.isActiveAt n

namespace AgreeUpTo

theorem refl (head : UInt64) (t : Threshold) : AgreeUpTo head t t := fun _ _ => rfl

theorem mono {lower head : UInt64} {s t : Threshold} (hl : lower ≤ head) (h : AgreeUpTo head s t) :
    AgreeUpTo lower s t := fun n hn => h n (UInt64.le_trans hn hl)

theorem symm {head : UInt64} {s t : Threshold} (h : AgreeUpTo head s t) : AgreeUpTo head t s :=
  fun n hn => (h n hn).symm

/-- Each threshold is active where it starts, so neither starts before the other. -/
theorem eq_of_isActiveAt {head : UInt64} {s t : Threshold} (h : AgreeUpTo head s t)
    (hs : s.isActiveAt head) : s = t := by
  have ht : t.isActiveAt head := (h head (UInt64.le_refl head)).symm.trans hs
  obtain ⟨a, rfl, ha⟩ := isActiveAt_iff.mp hs
  obtain ⟨b, rfl, hb⟩ := isActiveAt_iff.mp ht
  have hba : b ≤ a := by simpa [isActiveAt] using h a ha
  have hab : a ≤ b := by simpa [isActiveAt] using h b hb
  rw [UInt64.le_antisymm hab hba]

end AgreeUpTo

theorem agreeUpTo_iff {head : UInt64} {s t : Threshold} :
    AgreeUpTo head s t ↔ (s.isActiveAt head ∨ t.isActiveAt head → s = t) := by
  constructor
  · rintro h (hs | ht)
    · exact h.eq_of_isActiveAt hs
    · exact (h.symm.eq_of_isActiveAt ht).symm
  · intro h n hn
    by_cases hst : s = t
    · rw [hst]
    -- neither is active at the head, so neither is below it
    have hs : ¬ s.isActiveAt n := fun hs => hst (h (.inl (isActiveAt_mono hn hs)))
    have ht : ¬ t.isActiveAt n := fun ht => hst (h (.inr (isActiveAt_mono hn ht)))
    rw [Bool.not_eq_true] at hs ht
    rw [hs, ht]

end Threshold

namespace Compatibility
open Threshold

theorem isIncompatible_eq_false_iff {stored new : Threshold} {head : UInt64} :
    isIncompatible stored new head = false ↔ AgreeUpTo head stored new := by
  rw [agreeUpTo_iff]
  by_cases h : stored = new <;> simp [isIncompatible, h]

theorem earlier_self (t : Threshold) : earlier t t = t := by
  cases t <;> simp [earlier]

theorem isActiveAt_earlier {s t : Threshold} {n : UInt64} :
    (earlier s t).isActiveAt n ↔ s.isActiveAt n ∨ t.isActiveAt n := by
  cases s with
  | unscheduled => simp [earlier, isActiveAt]
  | scheduled a =>
    cases t with
    | unscheduled => simp [earlier, isActiveAt]
    | scheduled b =>
      simp only [earlier, isActiveAt, decide_eq_true_eq]
      split <;> grind

theorem heightBefore_le {t : Threshold} {head : UInt64} (h : t.isActiveAt head) :
    heightBefore t ≤ head := by
  obtain ⟨block, rfl, hb⟩ := isActiveAt_iff.mp h
  simp only [heightBefore]
  split <;> grind

theorem eq_zero_of_heightBefore_eq {t : Threshold} {head : UInt64} (h : t.isActiveAt head)
    (he : heightBefore t = head) : head = 0 := by
  obtain ⟨block, rfl, hb⟩ := isActiveAt_iff.mp h
  simp only [heightBefore] at he
  split at he <;> grind

/-- A threshold that is active somewhere is active at all heights past the one before it. -/
theorem isActiveAt_of_heightBefore_lt {t : Threshold} {head n : UInt64} (h : t.isActiveAt head)
    (hn : heightBefore t < n) : t.isActiveAt n := by
  obtain ⟨block, rfl, hb⟩ := isActiveAt_iff.mp h
  refine isActiveAt_iff.mpr ⟨block, rfl, ?_⟩
  simp only [heightBefore] at hn
  split at hn <;> grind

end Compatibility
end HardFork
