import HardFork.Network
import HardFork.Proofs.Order
import HardFork.Rules
import Mathlib.Data.List.Forall2

/-! # Rules in force at a height

In an accepted schedule the forks are nested: where one is active all earlier ones are, but for the
optional ones that are not scheduled. This carries over to the rules that are composed of several
thresholds. A rule that is in force stays in force, whatever the order of the forks. -/
namespace HardFork
namespace Schedule

variable {s : Schedule} {m n : UInt64}

theorem isActive_mono (hmn : m ≤ n) {f : Fork} (h : s.isActive f m) : s.isActive f n :=
  Threshold.isActiveAt_mono hmn h

theorem isPetersburg_mono (hmn : m ≤ n) (h : s.isPetersburg m) : s.isPetersburg n := by
  simp only [isPetersburg, Bool.or_eq_true, Bool.and_eq_true] at h ⊢
  exact h.imp (isActive_mono hmn) fun h => ⟨h.1, isActive_mono hmn h.2⟩

theorem isBerlin_mono (hmn : m ≤ n) (h : s.isBerlin m) : s.isBerlin n := by
  simp only [isBerlin, Bool.or_eq_true] at h ⊢
  exact h.imp (isActive_mono hmn) (isActive_mono hmn)

theorem isCve39137Passed_mono (hmn : m ≤ n) (h : s.isCve39137Passed m) : s.isCve39137Passed n := by
  unfold isCve39137Passed at h ⊢
  split at h
  · rfl
  · simp only [decide_eq_true_eq] at h ⊢
    exact UInt64.lt_of_lt_of_le h hmn

/-- The flags of one height are those of another one by name, and none of them falls. -/
theorem flags_mono (hmn : m ≤ n) :
    List.Forall₂ (fun a b => a.1 = b.1 ∧ (a.2 → b.2)) (s.rules m).flags (s.rules n).flags := by
  have hactive : ∀ f, s.isActive f m → s.isActive f n := fun _ => isActive_mono hmn
  simp only [Rules.flags, rules, List.forall₂_cons, List.Forall₂.nil, true_and, and_true]
  exact ⟨hactive _, hactive _, hactive _, hactive _, hactive _, hactive _, isPetersburg_mono hmn,
    hactive _, isBerlin_mono hmn, hactive _, isCve39137Passed_mono hmn⟩

/-- What is in force at a height, from the last fork down to the first. -/
structure Nested (s : Schedule) (n : UInt64) : Prop where
  forks : ∀ f g : Fork × Bool, [f, g].Sublist Ordering.ordered → s.isActive g.1 n →
    s.isActive f.1 n ∨ f.2 ∧ s.threshold f.1 = .unscheduled
  berlin : s.isActive .ishikari n → s.isBerlin n
  istanbul : s.isActive .berlin n → s.isActive .istanbul n
  petersburg : s.isActive .istanbul n → s.isPetersburg n
  constantinople : s.isPetersburg n → s.isActive .constantinople n
  byzantium : s.isActive .constantinople n → s.isActive .byzantium n
  eip158 : s.isActive .byzantium n → s.isActive .eip158 n
  eip155 : s.isActive .eip158 n → s.isActive .eip155 n
  eip150 : s.isActive .eip155 n → s.isActive .eip150 n
  homestead : s.isActive .eip150 n → s.isActive .homestead n

theorem isActive_or_unscheduled (h : s.checkOrder = .ok ()) {f g : Fork × Bool}
    (hfg : [f, g].Sublist Ordering.ordered) (hg : s.isActive g.1 n) :
    s.isActive f.1 n ∨ f.2 ∧ s.threshold f.1 = .unscheduled := by
  by_cases hf : f.2 → (s.threshold f.1).isScheduled
  · exact .inl (isActive_of_checkOrder h hfg hf hg)
  · obtain ⟨hoptional, hnot⟩ := Classical.not_imp.mp hf
    refine .inr ⟨hoptional, ?_⟩
    cases ht : s.threshold f.1 with
    | unscheduled => rfl
    | scheduled block => exact absurd (Threshold.isScheduled_iff.mpr ⟨block, ht⟩) hnot

/-- Petersburg is where its threshold says or, without one, where Constantinople is. -/
theorem isActive_constantinople_of_isPetersburg (h : s.checkOrder = .ok ())
    (hp : s.isPetersburg n) : s.isActive .constantinople n := by
  simp only [isPetersburg, Bool.or_eq_true, Bool.and_eq_true] at hp
  rcases hp with hp | ⟨-, hc⟩
  · exact isActive_constantinople h hp
  · exact hc

theorem nested_of_checkOrder (h : s.checkOrder = .ok ()) (n : UInt64) : Nested s n := by
  -- a fork that is not optional is active wherever a later one is
  have hdown : ∀ f g : Fork, [(f, false), (g, false)].Sublist Ordering.ordered → s.isActive g n →
      s.isActive f n := fun f g hfg hg => isActive_of_checkOrder h hfg nofun hg
  refine
    { forks := fun f g hfg => isActive_or_unscheduled h hfg
      berlin := fun hi => ?_
      istanbul := hdown _ _ (by decide)
      petersburg := fun hi => ?_
      constantinople := isActive_constantinople_of_isPetersburg h
      byzantium := hdown _ _ (by decide)
      eip158 := hdown _ _ (by decide)
      eip155 := hdown _ _ (by decide)
      eip150 := hdown _ _ (by decide)
      homestead := hdown _ _ (by decide) }
  · have hb : s.isActive .berlin n := hdown .berlin .ishikari (by decide) hi
    simp [isBerlin, hb]
  · have hp : s.isActive .petersburg n := hdown .petersburg .istanbul (by decide) hi
    simp [isPetersburg, hp]

/-- In an accepted schedule the forks and the rules made of them are nested at all heights. In any
schedule a flag of the rules that is set at a height is set at all later ones. -/
theorem forks_nested_and_flags_kept (s : Schedule) :
    (s.checkOrder = .ok () → ∀ n, Nested s n) ∧
    ∀ m n, m ≤ n →
      List.Forall₂ (fun a b => a.1 = b.1 ∧ (a.2 → b.2)) (s.rules m).flags (s.rules n).flags :=
  ⟨nested_of_checkOrder, fun _ _ => flags_mono⟩

/-- At the block of Ishikari the rules of all earlier forks are in force on the main network. -/
theorem mainnet_nested_at_ishikari :
    Network.mainnet.checkOrder = .ok () ∧
    Network.mainnet.isActive .ishikari Network.mainnetIshikariBlock ∧
    Network.mainnet.isBerlin Network.mainnetIshikariBlock ∧
    Nested Network.mainnet Network.mainnetIshikariBlock := by
  have hs : Network.mainnet.checkOrder = .ok () := rfl
  have hi : Network.mainnet.isActive .ishikari Network.mainnetIshikariBlock := by decide
  have hnested := (forks_nested_and_flags_kept Network.mainnet).1 hs Network.mainnetIshikariBlock
  exact ⟨hs, hi, hnested.berlin hi, hnested⟩

end Schedule
end HardFork
