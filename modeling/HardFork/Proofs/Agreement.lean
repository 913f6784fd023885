import HardFork.Proofs.Activation

/-! # What one pass over the forks decides

The pass stops at the first conflict and looks at the head only. It finds none exactly when the two
schedules say the same of every height up to the head, in the sense of `Agreement`. -/
namespace HardFork.Compatibility
open Threshold

variable {stored new : Schedule} {head : UInt64}

/-- The schedules say the same of the heights up to the head. Petersburg may instead be where
Constantinople was. -/
structure Agreement (stored new : Schedule) (head : UInt64) : Prop where
  forks : ∀ f ∈ forks, f ≠ .petersburg → ∀ n ≤ head, stored.isActive f n = new.isActive f n
  petersburg :
    (∀ n ≤ head, stored.isActive .petersburg n = new.isActive .petersburg n) ∨
      ∀ n ≤ head, stored.isActive .constantinople n = new.isActive .petersburg n
  daoForkSupport : stored.isActive .dao head → stored.daoForkSupport = new.daoForkSupport
  chainId : stored.isActive .eip158 head → stored.chainId = new.chainId

theorem Agreement.mono {lower : UInt64} (hl : lower ≤ head) (h : Agreement stored new head) :
    Agreement stored new lower where
  forks f hf hp n hn := h.forks f hf hp n (UInt64.le_trans hn hl)
  petersburg := h.petersburg.imp (AgreeUpTo.mono hl) (AgreeUpTo.mono hl)
  daoForkSupport ha := h.daoForkSupport (isActiveAt_mono hl ha)
  chainId ha := h.chainId (isActiveAt_mono hl ha)

theorem isExempt_iff {f : Fork} :
    isExempt stored new f head ↔
      f = .petersburg ∧ AgreeUpTo head (stored.threshold .constantinople) (new.threshold f) := by
  simp only [isExempt, Bool.and_eq_true, decide_eq_true_eq, Bool.not_eq_true',
    isIncompatible_eq_false_iff]

/-- A fork gives no conflict when none of its three checks does. -/
theorem conflictAt?_eq_none_iff {f : Fork} :
    conflictAt? stored new head f = none ↔
      (AgreeUpTo head (stored.threshold f) (new.threshold f) ∨
        f = .petersburg ∧ AgreeUpTo head (stored.threshold .constantinople) (new.threshold f)) ∧
      (f = .dao → stored.isActive .dao head → stored.daoForkSupport = new.daoForkSupport) ∧
      (f = .eip158 → stored.isActive .eip158 head → stored.chainId = new.chainId) := by
  rw [← isExempt_iff, ← isIncompatible_eq_false_iff]
  simp only [conflictAt?]
  cases isIncompatible (stored.threshold f) (new.threshold f) head <;>
    cases isExempt stored new f head <;> simp <;> grind

theorem conflict?_eq_none_iff :
    conflict? stored new head = none ↔ ∀ f ∈ forks, conflictAt? stored new head f = none :=
  List.findSome?_eq_none_iff

theorem conflict?_eq_none_iff_agreement :
    conflict? stored new head = none ↔ Agreement stored new head := by
  simp only [conflict?_eq_none_iff, conflictAt?_eq_none_iff]
  constructor
  · intro h
    refine ⟨fun f hf hp => ?_, ?_, (h .dao (by decide)).2.1 rfl, (h .eip158 (by decide)).2.2 rfl⟩
    · exact (h f hf).1.resolve_right fun he => hp he.1
    · exact (h .petersburg (by decide)).1.imp id And.right
  · intro h f hf
    refine ⟨?_, fun _ => h.daoForkSupport, fun _ => h.chainId⟩
    by_cases hp : f = .petersburg
    · subst hp
      exact h.petersburg.imp id fun ha => ⟨rfl, ha⟩
    · exact .inl (h.forks f hf hp)

/-- Agreement at a head is agreement at all lower ones, so the pass succeeds there too. -/
theorem conflict?_eq_none_of_le {lower : UInt64} (hl : lower ≤ head)
    (h : conflict? stored new head = none) : conflict? stored new lower = none :=
  conflict?_eq_none_iff_agreement.mpr ((conflict?_eq_none_iff_agreement.mp h).mono hl)

/-- The schedules are the same in all that the pass reads. -/
structure SameCompared (s t : Schedule) : Prop where
  threshold : ∀ f ∈ forks, s.threshold f = t.threshold f
  daoForkSupport : s.daoForkSupport = t.daoForkSupport
  chainId : s.chainId = t.chainId

theorem conflictAt?_congr {stored' new' : Schedule} {f : Fork} (hs : SameCompared stored stored')
    (hn : SameCompared new new') (hf : f ∈ forks) :
    conflictAt? stored new head f = conflictAt? stored' new' head f := by
  have hd : stored.isActive .dao head = stored'.isActive .dao head := by
    rw [Schedule.isActive, hs.threshold .dao (by decide), Schedule.isActive]
  have he : stored.isActive .eip158 head = stored'.isActive .eip158 head := by
    rw [Schedule.isActive, hs.threshold .eip158 (by decide), Schedule.isActive]
  have hc := hs.threshold .constantinople (by decide)
  simp only [conflictAt?, isExempt, hs.threshold f hf, hn.threshold f hf, hc, hd, he,
    hs.daoForkSupport, hn.daoForkSupport, hs.chainId, hn.chainId]
  rfl

private theorem findSome?_congr {α β : Type} {f g : α → Option β} {l : List α}
    (h : ∀ a ∈ l, f a = g a) : l.findSome? f = l.findSome? g := by
  induction l with
  | nil => rfl
  | cons a l ih =>
    have ht := ih fun b hb => h b (List.mem_cons_of_mem a hb)
    simp only [List.findSome?_cons, h a List.mem_cons_self, ht]

theorem conflict?_congr {stored' new' : Schedule} (hs : SameCompared stored stored')
    (hn : SameCompared new new') : conflict? stored new head = conflict? stored' new' head :=
  findSome?_congr fun _ hf => conflictAt?_congr hs hn hf

theorem sameCompared_update (s : Schedule) (t : Threshold) (h : Hash) (e : Engine) :
    SameCompared s ({s with eip150Hash := h, engine := e}.set .cve39137 t) where
  threshold f hf := by
    have hne : f ≠ .cve39137 := by
      rintro rfl
      exact absurd hf (by decide)
    rw [Schedule.threshold_set, if_neg hne]
    cases f <;> rfl
  daoForkSupport := rfl
  chainId := rfl

/-- The pass decides agreement up to the head. It therefore succeeds at all heights below a head
where it does, and the fix of 2021, the hash and the engine have no say in it. -/
theorem single_pass_decides_agreement (stored new : Schedule) (head : UInt64) :
    (conflict? stored new head = none ↔ Agreement stored new head) ∧
    (∀ lower ≤ head, conflict? stored new head = none → conflict? stored new lower = none) ∧
    ∀ (t t' : Threshold) (h h' : Hash) (e e' : Engine),
      conflict? ({stored with eip150Hash := h, engine := e}.set .cve39137 t)
        ({new with eip150Hash := h', engine := e'}.set .cve39137 t') head =
      conflict? stored new head := by
  refine ⟨conflict?_eq_none_iff_agreement, fun lower hl => conflict?_eq_none_of_le hl, ?_⟩
  intro t t' h h' e e'
  exact (conflict?_congr (sameCompared_update stored t h e) (sameCompared_update new t' h' e')).symm

end HardFork.Compatibility
