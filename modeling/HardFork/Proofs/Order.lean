import HardFork.Ordering
import HardFork.Proofs.Activation

/-! # What an accepted fork order gives

The walk compares neighbours among the tracked entries. A list that passes is in order as a whole:
each tracked entry is active wherever a later one is. -/
namespace HardFork
namespace Ordering

/-- Active at all heights where the later entry is. -/
def Entry.Covers (e later : Entry) : Prop :=
  ∀ n, later.threshold.isActiveAt n → e.threshold.isActiveAt n

theorem Entry.Covers.trans {a b c : Entry} (hab : a.Covers b) (hbc : b.Covers c) : a.Covers c :=
  fun n hn => hab n (hbc n hn)

/-- An entry that is not tracked asks nothing of those before it. -/
theorem Entry.covers_of_not_isTracked {e later : Entry} (h : ¬ later.isTracked) :
    e.Covers later := by
  intro n hn
  have hs := Threshold.isScheduled_of_isActiveAt hn
  simp [isTracked, hs] at h

theorem violation?_eq_none_iff {previous current : Entry} :
    violation? previous current = none ↔ previous.Covers current := by
  obtain ⟨f, s, o⟩ := previous
  obtain ⟨f', t, o'⟩ := current
  cases t with
  | unscheduled => cases s <;> simp [violation?, Entry.Covers, Threshold.isActiveAt]
  | scheduled b =>
    cases s with
    | unscheduled =>
      simp only [violation?, Entry.Covers, Threshold.isActiveAt, decide_eq_true_eq, reduceCtorEq,
        false_iff]
      exact fun h => absurd (h b (UInt64.le_refl b)) (by simp)
    | scheduled a =>
      simp only [violation?, Entry.Covers, Threshold.isActiveAt, decide_eq_true_eq]
      constructor
      · intro h n hn
        grind
      · intro h
        have hab := h b (UInt64.le_refl b)
        grind

/-- The walk goes on past an entry that the last tracked one covers. -/
theorem checkFrom_cons_eq_ok_iff {last : Option Entry} {e : Entry} {entries : List Entry} :
    checkFrom last (e :: entries) = .ok () ↔ (∀ l ∈ last, l.Covers e) ∧
      checkFrom (if e.isTracked then some e else last) entries = .ok () := by
  cases last with
  | none => simp [checkFrom]
  | some l =>
    rw [checkFrom, Option.bind_some]
    cases hv : violation? l e with
    | none => simp [violation?_eq_none_iff.mp hv]
    | some v =>
      have hl : ¬ l.Covers e := fun hl => by simp [violation?_eq_none_iff.mpr hl] at hv
      simp [hl]

theorem checkFrom_eq_ok_iff {last : Option Entry} {entries : List Entry} :
    checkFrom last entries = .ok () ↔
      (entries.filter (·.isTracked)).Pairwise Entry.Covers ∧
        ∀ l ∈ last, ∀ e ∈ entries.filter (·.isTracked), l.Covers e := by
  induction entries generalizing last with
  | nil => simp [checkFrom]
  | cons e entries ih =>
    rw [checkFrom_cons_eq_ok_iff, ih]
    by_cases ht : e.isTracked
    · rw [if_pos ht, List.filter_cons_of_pos ht, List.pairwise_cons]
      constructor
      · rintro ⟨hl, hp, he⟩
        refine ⟨⟨he e rfl, hp⟩, fun l hl' a ha => ?_⟩
        rcases List.mem_cons.mp ha with rfl | ha
        · exact hl l hl'
        · exact (hl l hl').trans (he e rfl a ha)
      · rintro ⟨⟨he, hp⟩, hl⟩
        refine ⟨fun l hl' => hl l hl' e List.mem_cons_self, hp, ?_⟩
        rintro _ ⟨⟩
        exact he
    · rw [if_neg ht, List.filter_cons_of_neg ht]
      exact ⟨And.right, fun h => ⟨fun l _ => Entry.covers_of_not_isTracked ht, h⟩⟩

/-- The walk accepts exactly the lists whose tracked entries are in order. -/
theorem check_eq_ok_iff {entries : List Entry} :
    check entries = .ok () ↔ (entries.filter (·.isTracked)).Pairwise Entry.Covers := by
  simp [check, checkFrom_eq_ok_iff]

end Ordering

/-- In an accepted schedule a fork is active wherever a later one is, unless it is optional and not
scheduled. -/
theorem Schedule.isActive_of_checkOrder {s : Schedule} (h : s.checkOrder = .ok ()) {f g : Fork}
    {optional optional' : Bool} (hfg : [(f, optional), (g, optional')].Sublist Ordering.ordered)
    (hf : optional → (s.threshold f).isScheduled) {n : UInt64} (hn : s.isActive g n) :
    s.isActive f n := by
  have hp := Ordering.check_eq_ok_iff.mp h
  have hg : (s.threshold g).isScheduled := Threshold.isScheduled_of_isActiveAt hn
  have hsub : [(⟨f, s.threshold f, optional⟩ : Ordering.Entry), ⟨g, s.threshold g, optional'⟩].Sublist
      (s.entries.filter (·.isTracked)) := by
    have hm := (hfg.map fun p : Fork × Bool =>
      (⟨p.1, s.threshold p.1, p.2⟩ : Ordering.Entry)).filter (·.isTracked)
    have hft : (!optional || (s.threshold f).isScheduled) = true := by
      cases optional with
      | false => rfl
      | true => exact hf rfl
    simpa [Ordering.Entry.isTracked, hg, hft, entries] using hm
  have hc := hp.sublist hsub
  exact (List.pairwise_cons.mp hc).1 _ (List.mem_singleton_self _) n hn

/-- Petersburg is nowhere before Constantinople. -/
theorem Schedule.isActive_constantinople {s : Schedule} (h : s.checkOrder = .ok ()) {n : UInt64}
    (hn : s.isActive .petersburg n) : s.isActive .constantinople n := by
  have hsub : [(.constantinople, false), (.petersburg, false)].Sublist Ordering.ordered := by decide
  exact s.isActive_of_checkOrder h hsub nofun hn

end HardFork
