import HardFork.Engine

/-! # Parameters that Ishikari can start with

The parameters meet what is required of them, or the first requirement that fails is named. The
requirements stand in one order, and the later ones rest on the earlier: the epoch is known not to
be zero where the block after the fork is divided by it. Words wrap around, so at the last height
that block is zero, which ends an epoch of any length. -/
namespace HardFork.Posa

variable {p : Posa} {ishikari : Threshold} {block epoch : UInt64}

/-- The block is the last one of an epoch, or the last one that there is. -/
def EndsEpoch (block epoch : UInt64) : Prop :=
  block.toNat < UInt64.size-1 ∧ epoch.toNat ∣ block.toNat+1 ∨ block.toNat = UInt64.size-1

theorem succ_mod_eq_zero_iff : (block+1)%epoch = 0 ↔ EndsEpoch block epoch := by
  have hblock : block.toNat < UInt64.size := block.toNat_lt
  have hzero : (block+1)%epoch = 0 ↔ (block.toNat+1)%UInt64.size%epoch.toNat = 0 := by
    rw [← UInt64.toNat_inj, UInt64.toNat_mod, UInt64.toNat_add]
    rfl
  rw [hzero, ← Nat.dvd_iff_mod_eq_zero]
  rcases Nat.lt_or_ge (block.toNat+1) UInt64.size with hlt | hge
  · have hne : block.toNat ≠ UInt64.size-1 := by omega
    rw [Nat.mod_eq_of_lt hlt, EndsEpoch, or_iff_left hne, and_iff_right (by omega)]
  · have hlast : block.toNat+1 = UInt64.size := by omega
    rw [hlast, Nat.mod_self]
    exact iff_of_true (Nat.dvd_zero _) (.inr (by omega))

/-- What is required, and the defect that a failure stands for. -/
abbrev Requirement := Prop × Defect

def requirements (p : Posa) (ishikari : Threshold) : List Requirement :=
  (1 ≤ p.period.toNat, .zeroPeriod) ::
  (2 ≤ p.epoch.toNat, .epochTooShort p.epoch) ::
  match ishikari with
  | .unscheduled => []
  | .scheduled block =>
    [(p.managers ≠ [], .noManagers),
     (p.managers.length = p.validators.length,
       .listsDiffer p.managers.length p.validators.length),
     (EndsEpoch block p.epoch, .notAtEpochEnd block p.epoch)]

/-- The requirements are met one after the other until one of them fails. -/
inductive Checked : List Requirement → Except Defect Unit → Prop
  | all : Checked [] (.ok ())
  | met {r d rs v} (h : r) (hs : Checked rs v) : Checked ((r, d) :: rs) v
  | failed {r d rs} (h : ¬ r) : Checked ((r, d) :: rs) (.error d)

namespace Checked

variable {rs : List Requirement} {v : Except Defect Unit}

theorem ite {r c : Prop} [Decidable c] {d : Defect} (hc : c ↔ ¬ r) (hs : Checked rs v) :
    Checked ((r, d) :: rs) (if c then .error d else v) := by
  by_cases hr : r
  · rw [if_neg (fun h => hc.mp h hr)]
    exact .met hr hs
  · rw [if_pos (hc.mpr hr)]
    exact .failed hr

theorem eq_ok_iff (h : Checked rs v) : v = .ok () ↔ ∀ r ∈ rs, r.1 := by
  induction h with
  | all => exact iff_of_true rfl nofun
  | met h _ ih => rw [ih, List.forall_mem_cons, and_iff_right h]
  | failed h => exact iff_of_false nofun fun hall => h (hall _ List.mem_cons_self)

theorem eq_error_iff (h : Checked rs v) {d : Defect} :
    v = .error d ↔
      ∃ before r after, rs = before ++ (r, d) :: after ∧ (∀ s ∈ before, s.1) ∧ ¬ r := by
  induction h with
  | all => exact iff_of_false nofun fun ⟨before, r, after, h, _⟩ => by cases before <;> cases h
  | @met r d' rs v h _ ih =>
    rw [ih]
    constructor
    · rintro ⟨before, s, after, rfl, hbefore, hs⟩
      exact ⟨(r, d') :: before, s, after, rfl, List.forall_mem_cons.mpr ⟨h, hbefore⟩, hs⟩
    · rintro ⟨before, s, after, heq, hbefore, hs⟩
      cases before with
      | nil =>
        cases heq
        exact absurd h hs
      | cons first before =>
        obtain ⟨rfl, rfl⟩ := List.cons.inj heq
        exact ⟨before, s, after, rfl, (List.forall_mem_cons.mp hbefore).2, hs⟩
  | @failed r d' rs h =>
    constructor
    · rintro ⟨⟩
      exact ⟨[], r, rs, rfl, nofun, h⟩
    · rintro ⟨before, s, after, heq, hbefore, hs⟩
      cases before with
      | nil =>
        cases heq
        rfl
      | cons first before =>
        obtain ⟨rfl, rfl⟩ := List.cons.inj heq
        exact absurd (hbefore _ List.mem_cons_self) h

end Checked

theorem checked_validate (p : Posa) (ishikari : Threshold) :
    Checked (requirements p ishikari) (p.validate ishikari) := by
  have hperiod : p.period = 0 ↔ ¬ 1 ≤ p.period.toNat := by
    rw [← UInt64.toNat_inj, UInt64.toNat_zero]
    omega
  have hepoch : p.epoch < minEpoch ↔ ¬ 2 ≤ p.epoch.toNat :=
    UInt64.lt_iff_toNat_lt.trans Nat.not_le.symm
  refine .ite hperiod (.ite hepoch ?_)
  cases ishikari with
  | unscheduled => exact .all
  | scheduled block =>
    have hmanagers : p.managers.isEmpty ↔ ¬ p.managers ≠ [] :=
      List.isEmpty_iff.trans Decidable.not_not.symm
    exact .ite hmanagers (.ite .rfl (.ite (not_congr succ_mod_eq_zero_iff) .all))

/-- The checks with any remainder, be it one that does not always have a result. -/
def validateWith {m : Type → Type} [Monad m] (remainder : UInt64 → UInt64 → m UInt64) (p : Posa)
    (ishikari : Threshold) : m (Except Defect Unit) :=
  if p.period = 0 then return .error .zeroPeriod
  else if p.epoch < minEpoch then return .error (.epochTooShort p.epoch)
  else match ishikari with
    | .unscheduled => return .ok ()
    | .scheduled block =>
      if p.managers.isEmpty then return .error .noManagers
      else if p.managers.length ≠ p.validators.length then
        return .error (.listsDiffer p.managers.length p.validators.length)
      else do
        let r ← remainder (block+1) p.epoch
        if r ≠ 0 then return .error (.notAtEpochEnd block p.epoch) else return .ok ()

/-- The remainder of a division, which has none by zero. -/
def remainder? (a b : UInt64) : Option UInt64 := if b = 0 then none else some (a%b)

/-- What the remainder by zero may be makes no difference. -/
theorem validateWith_eq {m : Type → Type} [Monad m] [LawfulMonad m]
    {remainder : UInt64 → UInt64 → m UInt64}
    (h : ∀ a b, b ≠ 0 → remainder a b = pure (a%b)) (p : Posa) (ishikari : Threshold) :
    validateWith remainder p ishikari = pure (p.validate ishikari) := by
  unfold validateWith validate
  by_cases hperiod : p.period = 0
  · rw [if_pos hperiod, if_pos hperiod]
  rw [if_neg hperiod, if_neg hperiod]
  by_cases hepoch : p.epoch < minEpoch
  · rw [if_pos hepoch, if_pos hepoch]
  rw [if_neg hepoch, if_neg hepoch]
  cases ishikari with
  | unscheduled => rfl
  | scheduled block =>
    have hne : p.epoch ≠ 0 := by
      intro hzero
      exact hepoch (hzero ▸ by decide)
    simp only [h _ _ hne, pure_bind]
    split
    · rfl
    split
    · rfl
    split
    · rfl
    · rfl

/-- The parameters are sound when the period is not zero, the epoch is no shorter than two blocks
and, once Ishikari is scheduled, there are managers, one for each validator, and the fork ends an
epoch. Otherwise the first requirement that fails is named. No epoch of zero is divided by, and
until Ishikari is scheduled neither the lists nor the administrator count. -/
theorem validate_accepts_or_names_first (p : Posa) (ishikari : Threshold) :
    (p.validate ishikari = .ok () ↔
      1 ≤ p.period.toNat ∧ 2 ≤ p.epoch.toNat ∧ ∀ block, ishikari = .scheduled block →
        p.managers ≠ [] ∧ p.managers.length = p.validators.length ∧
        (block.toNat < UInt64.size-1 ∧ p.epoch.toNat ∣ block.toNat+1 ∨
          block.toNat = UInt64.size-1)) ∧
    (∀ d, p.validate ishikari = .error d ↔
      ∃ before r after, requirements p ishikari = before ++ (r, d) :: after ∧
        (∀ s ∈ before, s.1) ∧ ¬ r) ∧
    validateWith (m := Id) (fun a b => a%b) p ishikari = p.validate ishikari ∧
    validateWith remainder? p ishikari = some (p.validate ishikari) ∧
    ∀ validators managers admin,
      {p with validators, managers, admin}.validate .unscheduled = p.validate .unscheduled := by
  refine ⟨?_, fun d => (checked_validate p ishikari).eq_error_iff, ?_, ?_, fun _ _ _ => rfl⟩
  · rw [(checked_validate p ishikari).eq_ok_iff]
    unfold requirements
    rw [List.forall_mem_cons, List.forall_mem_cons]
    refine and_congr_right fun _ => and_congr_right fun _ => ?_
    cases ishikari with
    | unscheduled => exact iff_of_true nofun nofun
    | scheduled block => simp [EndsEpoch]
  · exact validateWith_eq (m := Id) (fun _ _ _ => rfl) p ishikari
  · exact validateWith_eq (fun _ _ hb => if_neg hb) p ishikari

/-- An epoch ends at the last height, whatever its length. -/
theorem last_height_ends_epoch :
    ¬ 100 ∣ UInt64.size ∧
    validate ⟨3, 100, [.zero 20], [.zero 20], .zero 20⟩ (.scheduled 0xffffffffffffffff) =
      .ok () := by
  refine ⟨by decide, ?_⟩
  rw [(validate_accepts_or_names_first _ _).1]
  refine ⟨by decide, by decide, ?_⟩
  rintro _ ⟨⟩
  exact ⟨List.cons_ne_nil _ _, rfl, .inr rfl⟩

end HardFork.Posa
