import HardFork.Proofs.Rewind

/-! # The conflict that the search reports

The search looks at ever lower heads, and at each of them at one conflict only. What it reports is a
conflict at the head where it began: of all conflicts there the first that goes back furthest. A
conflict that a pass hides, or that the search no longer sees at a lower head, never goes back
further than the one that is reported. -/
namespace HardFork.Compatibility
open Threshold

section Conflicts
variable (stored new : Schedule) (head : UInt64)

/-- All conflicts at a fork: its thresholds, then what was settled when it became active. -/
def conflictsAt (f : Fork) : List Conflict :=
  let s := stored.threshold f
  let n := new.threshold f
  (if isIncompatible s n head && !isExempt stored new f head then [.of (.fork f) s n] else []) ++
  (if f = .dao && stored.isActive .dao head && stored.daoForkSupport ≠ new.daoForkSupport then
    [.of .daoForkSupport s n]
  else []) ++
  (if f = .eip158 && stored.isActive .eip158 head && stored.chainId ≠ new.chainId then
    [.of .chainId s n]
  else [])

/-- All conflicts at the head, in protocol order. -/
def conflicts : List Conflict := forks.flatMap (conflictsAt stored new head)

end Conflicts

variable {stored new : Schedule} {head lower : UInt64} {f : Fork} {c d : Conflict}

theorem head?_conflictsAt : (conflictsAt stored new head f).head? = conflictAt? stored new head f := by
  simp only [conflictsAt, conflictAt?]
  split
  · rfl
  split
  · rfl
  split <;> rfl

theorem conflictsAt_eq_nil_iff :
    conflictsAt stored new head f = [] ↔ conflictAt? stored new head f = none := by
  rw [← head?_conflictsAt, List.head?_eq_none_iff]

theorem conflicts_eq_nil_iff : conflicts stored new head = [] ↔ conflict? stored new head = none := by
  rw [conflicts, List.flatMap_eq_nil_iff, conflict?_eq_none_iff]
  exact forall₂_congr fun f _ => conflictsAt_eq_nil_iff

/-- Each of them is a conflict of two thresholds of which the earlier is active at the head. -/
theorem of_mem_conflictsAt (h : d ∈ conflictsAt stored new head f) :
    (earlier (stored.threshold f) (new.threshold f)).isActiveAt head ∧
      d.rewindTo = heightBefore (earlier (stored.threshold f) (new.threshold f)) := by
  have hne : conflictAt? stored new head f ≠ none :=
    mt conflictsAt_eq_nil_iff.mpr (List.ne_nil_of_mem h)
  obtain ⟨c, hc⟩ := Option.ne_none_iff_exists'.mp hne
  refine ⟨(conflictAt?_eq_some hc).1, ?_⟩
  simp only [conflictsAt, List.mem_append, List.mem_ite_nil_right, List.mem_singleton] at h
  rcases h with (⟨-, rfl⟩ | ⟨-, rfl⟩) | ⟨-, rfl⟩
  · rfl
  · rfl
  · rfl

theorem isIncompatible_mono {s n : Threshold} (hl : lower ≤ head) (h : isIncompatible s n lower) :
    isIncompatible s n head := by
  cases hhead : isIncompatible s n head with
  | true => rfl
  | false =>
    have hagree := (isIncompatible_eq_false_iff.mp hhead).mono hl
    rw [isIncompatible_eq_false_iff.mpr hagree] at h
    cases h

/-- Thresholds that agree where the first one is active are one and never conflict. -/
theorem isIncompatible_eq_false_of_isActiveAt {s n : Threshold} (ha : s.isActiveAt lower)
    (h : isIncompatible s n lower = false) : isIncompatible s n head = false := by
  rw [(isIncompatible_eq_false_iff.mp h).eq_of_isActiveAt ha]
  exact isIncompatible_eq_false_iff.mpr (.refl head n)

theorem isExempt_anti (hl : lower ≤ head) (h : isExempt stored new f head) :
    isExempt stored new f lower := by
  obtain ⟨hf, hagree⟩ := isExempt_iff.mp h
  exact isExempt_iff.mpr ⟨hf, hagree.mono hl⟩

/-- The thresholds of a fork stay in conflict at higher heads. -/
theorem threshold_conflict_mono (hl : lower ≤ head)
    (h : isIncompatible (stored.threshold f) (new.threshold f) lower &&
      !isExempt stored new f lower) :
    isIncompatible (stored.threshold f) (new.threshold f) head && !isExempt stored new f head := by
  rw [Bool.and_eq_true, Bool.not_eq_true'] at h ⊢
  refine ⟨isIncompatible_mono hl h.1, Bool.eq_false_iff.mpr fun he => ?_⟩
  have hlower := isExempt_anti hl he
  rw [h.2] at hlower
  cases hlower

/-- A fork that is active without such a conflict comes into none at higher heads. -/
theorem no_threshold_conflict_of_isActive (hf : f ≠ .petersburg) (ha : stored.isActive f lower)
    (h : ¬(isIncompatible (stored.threshold f) (new.threshold f) lower &&
      !isExempt stored new f lower)) :
    ¬(isIncompatible (stored.threshold f) (new.threshold f) head &&
      !isExempt stored new f head) := by
  have hlower : isIncompatible (stored.threshold f) (new.threshold f) lower = false := by
    simpa [isExempt, hf] using h
  have hhead : isIncompatible (stored.threshold f) (new.threshold f) head = false :=
    isIncompatible_eq_false_of_isActiveAt ha hlower
  simp [hhead]

/-- A conflict at a head is there at all higher ones. -/
theorem conflictAt?_mono (hl : lower ≤ head) (h : conflictAt? stored new lower f = some c) :
    conflictAt? stored new head f = some c := by
  simp only [conflictAt?] at h ⊢
  split at h
  · rename_i hfork
    rw [if_pos (threshold_conflict_mono hl hfork)]
    exact h
  rename_i hfork
  -- what is settled with a fork is in conflict only where the fork itself is not
  split at h
  · rename_i hdao
    simp only [Bool.and_eq_true, decide_eq_true_eq] at hdao
    obtain ⟨⟨rfl, ha⟩, hne⟩ := hdao
    have hhead : stored.isActive .dao head := isActiveAt_mono hl ha
    rw [if_neg (no_threshold_conflict_of_isActive (by decide) ha hfork),
      if_pos (by simp [hhead, hne])]
    exact h
  split at h
  · rename_i hid
    simp only [Bool.and_eq_true, decide_eq_true_eq] at hid
    obtain ⟨⟨rfl, ha⟩, hne⟩ := hid
    have hhead : stored.isActive .eip158 head := isActiveAt_mono hl ha
    rw [if_neg (no_threshold_conflict_of_isActive (by decide) ha hfork), if_neg (by simp),
      if_pos (by simp [hhead, hne])]
    exact h
  · cases h

/-- A conflict that goes back below a lower head is one of a fork in conflict there. -/
theorem conflictAt?_ne_none_of_rewindTo_lt (hs : stored.checkOrder = .ok ())
    (hd : d ∈ conflictsAt stored new head f) (hlt : d.rewindTo < lower) :
    conflictAt? stored new lower f ≠ none := by
  obtain ⟨ha, hr⟩ := of_mem_conflictsAt hd
  rw [hr] at hlt
  intro hnone
  have hhead : conflictAt? stored new head f = none :=
    conflictAt?_eq_none_of_isActiveAt hs (isActiveAt_of_heightBefore_lt ha hlt) hnone
  exact List.ne_nil_of_mem hd (conflictsAt_eq_nil_iff.mpr hhead)

/-- Once the search has gone back, each finding goes back further. -/
theorem rewindTo_lt_of_mem_searchFrom {reached : Option UInt64} {x : Finding}
    (hr : reached = some head) (hx : x ∈ searchFrom stored new reached head) :
    x.conflict.rewindTo < x.head := by
  induction reached, head using searchFrom.induct stored new with
  | case1 reached head hnone => simp [searchFrom, hnone] at hx
  | case2 head c hc => simp [searchFrom, hc] at hx
  | case3 reached head c hc hreached hlt ih =>
    rw [searchFrom_of_lt hc hreached hlt] at hx
    rcases List.mem_cons.mp hx with rfl | hx
    · exact hlt
    · exact ih rfl hx
  | case4 reached head c hc hreached hlt =>
    -- the conflict would go back to the height that was just reached
    have he : c.rewindTo = head := UInt64.le_antisymm (rewindTo_le hc) (UInt64.not_lt.mp hlt)
    exact absurd (he ▸ hr) hreached

theorem rewindTo_lt_of_mem_search {x : Finding} (hx : x ∈ search stored new head) :
    x.head = head ∨ x.conflict.rewindTo < x.head := by
  unfold search at hx
  cases hc : conflict? stored new head with
  | none => simp [searchFrom, hc] at hx
  | some c =>
    have hreached : none ≠ some c.rewindTo := (Option.some_ne_none _).symm
    by_cases hlt : c.rewindTo < head
    · rw [searchFrom_of_lt hc hreached hlt] at hx
      rcases List.mem_cons.mp hx with rfl | hx
      · exact .inl rfl
      · exact .inr (rewindTo_lt_of_mem_searchFrom rfl hx)
    · rw [searchFrom_of_not_lt hc hreached hlt, List.mem_singleton] at hx
      exact .inl (hx ▸ rfl)

/-- All conflicts before the one that is reported go back less far, and none goes back further. -/
theorem exists_split_of_lowest? (hs : stored.checkOrder = .ok ())
    (h : lowest? stored new head = some c) :
    ∃ before after, conflicts stored new head = before ++ c :: after ∧
      (∀ d ∈ before, c.rewindTo < d.rewindTo) ∧
      ∀ d ∈ conflicts stored new head, c.rewindTo ≤ d.rewindTo := by
  obtain ⟨x, hx, rfl⟩ := Option.map_eq_some_iff.mp h
  obtain ⟨hc, hle, hfloor⟩ := getLast?_searchFrom hx
  have hturn := rewindTo_lt_of_mem_search (List.mem_of_getLast? hx)
  obtain ⟨front, f, back, hforks, hf, hfront⟩ := List.findSome?_eq_some_iff.mp hc
  have hhead : (conflictsAt stored new head f).head? = some x.conflict :=
    head?_conflictsAt.trans (conflictAt?_mono hle hf)
  obtain ⟨more, hmore⟩ := List.head?_eq_some_iff.mp hhead
  refine ⟨front.flatMap (conflictsAt stored new head),
    more ++ back.flatMap (conflictsAt stored new head), ?_, ?_, ?_⟩
  · rw [conflicts, hforks, List.flatMap_append, List.flatMap_cons, hmore, List.cons_append]
  · intro d hd
    obtain ⟨g, hg, hdg⟩ := List.mem_flatMap.mp hd
    have hnone := hfront g hg
    rcases hturn with hbegin | hlt
    · -- the pass at the head itself found nothing at the forks before
      rw [hbegin] at hnone
      exact absurd (conflictsAt_eq_nil_iff.mpr hnone) (List.ne_nil_of_mem hdg)
    · apply UInt64.not_le.mp
      intro hdc
      exact conflictAt?_ne_none_of_rewindTo_lt hs hdg (UInt64.lt_of_le_of_lt hdc hlt) hnone
  · intro d hd
    obtain ⟨g, hg, hdg⟩ := List.mem_flatMap.mp hd
    apply UInt64.not_lt.mp
    intro hlt
    rcases hfloor with hnone | hzero
    · have hgn := conflict?_eq_none_iff.mp hnone g hg
      exact conflictAt?_ne_none_of_rewindTo_lt hs hdg hlt hgn
    · rw [hzero] at hlt
      exact UInt64.not_lt_zero hlt

private theorem minOn?_of_split {α : Type} {f : α → UInt64} {a : α} {before after : List α}
    (hb : ∀ x ∈ before, f a < f x) (ha : ∀ x ∈ after, f a ≤ f x) :
    (before ++ a :: after).minOn? f = some a := by
  induction before with
  | nil =>
    rw [List.nil_append, List.minOn?_cons]
    cases h : after.minOn? f with
    | none => rfl
    | some b =>
      have hab : f a ≤ f b := ha b (List.minOn?_mem h)
      rw [Option.elim_some, minOn_eq_left hab]
  | cons x before ih =>
    obtain ⟨hx, hbefore⟩ := List.forall_mem_cons.mp hb
    rw [List.cons_append, List.minOn?_cons, ih hbefore, Option.elim_some,
      minOn_eq_right (UInt64.not_le.mpr hx)]

/-- The search succeeds when there is no conflict at the head. Else it reports, of the conflicts
there, the first of those that go back furthest. -/
theorem search_reports_first_of_lowest {stored : Schedule} (hs : stored.checkOrder = .ok ())
    (new : Schedule) (height : UInt64) :
    (lowest? stored new height = none ↔ conflicts stored new height = []) ∧
    lowest? stored new height = (conflicts stored new height).minOn? (·.rewindTo) := by
  have hnone : lowest? stored new height = none ↔ conflicts stored new height = [] := by
    rw [lowest?_eq_none_iff, conflicts_eq_nil_iff]
  refine ⟨hnone, ?_⟩
  cases h : lowest? stored new height with
  | none =>
    rw [hnone.mp h]
    rfl
  | some c =>
    obtain ⟨before, after, hsplit, hbefore, hall⟩ := exists_split_of_lowest? hs h
    rw [hsplit] at hall ⊢
    have hafter : ∀ d ∈ after, c.rewindTo ≤ d.rewindTo := fun d hd =>
      hall d (List.mem_append_right before (List.mem_cons_of_mem c hd))
    exact (minOn?_of_split hbefore hafter).symm

/-- The test network with the forks from Istanbul to Berlin at one height, and with Yolo and Ewasm at
another. -/
def twoStages (istanbul yolo : UInt64) : Schedule := (staged istanbul yolo).withFork .yoloV3 yolo

/-- Of five conflicts Yolo and Ewasm go back furthest, and Yolo is the first of them. -/
theorem search_reports_yolo :
    (twoStages 50 30).checkOrder = .ok () ∧
    (conflicts (twoStages 50 30) (twoStages 60 40) 100).map (fun c => (c.subject, c.rewindTo)) =
      [(.fork .istanbul, 49), (.fork .muirGlacier, 49), (.fork .berlin, 49), (.fork .yoloV3, 29),
        (.fork .ewasm, 29)] ∧
    lowest? (twoStages 50 30) (twoStages 60 40) 100 =
      some ⟨.fork .yoloV3, .scheduled 30, .scheduled 40, 29⟩ := by
  have hs : (twoStages 50 30).checkOrder = .ok () := rfl
  have hc : (conflicts (twoStages 50 30) (twoStages 60 40) 100).minOn? (·.rewindTo) =
      some ⟨.fork .yoloV3, .scheduled 30, .scheduled 40, 29⟩ := by decide
  obtain ⟨-, hlowest⟩ := search_reports_first_of_lowest hs (twoStages 60 40) 100
  exact ⟨hs, by decide, hlowest.trans hc⟩

end HardFork.Compatibility
