import HardFork.Network
import HardFork.Proofs.Agreement
import HardFork.Proofs.Order

/-! # The height that the search goes back to

A pass shows one conflict, and lower ones may hide behind it. Going back to the height before it
loses nothing: a fork that is active at a height conflicts there whenever it does at a higher one.
The search therefore ends at the greatest height below the head where a pass succeeds, or at zero. -/
namespace HardFork.Compatibility
open Threshold

variable {stored new : Schedule} {head : UInt64}

/-- A conflict is one of two thresholds of which the earlier is active at the head. -/
theorem conflictAt?_eq_some {f : Fork} {c : Conflict} (h : conflictAt? stored new head f = some c) :
    (earlier (stored.threshold f) (new.threshold f)).isActiveAt head ∧
      ∃ subject, c = .of subject (stored.threshold f) (new.threshold f) := by
  rw [isActiveAt_earlier]
  simp only [conflictAt?] at h
  split at h
  · rename_i hi
    simp only [isIncompatible, Bool.and_eq_true, Bool.or_eq_true] at hi
    exact ⟨hi.1.1, .fork f, (Option.some.inj h).symm⟩
  split at h
  · rename_i hd
    simp only [Bool.and_eq_true, decide_eq_true_eq] at hd
    obtain ⟨⟨rfl, ha⟩, -⟩ := hd
    exact ⟨.inl ha, .daoForkSupport, (Option.some.inj h).symm⟩
  split at h
  · rename_i he
    simp only [Bool.and_eq_true, decide_eq_true_eq] at he
    obtain ⟨⟨rfl, ha⟩, -⟩ := he
    exact ⟨.inl ha, .chainId, (Option.some.inj h).symm⟩
  · cases h

theorem conflict?_eq_some {c : Conflict} (h : conflict? stored new head = some c) :
    ∃ f ∈ forks, conflictAt? stored new head f = some c :=
  List.exists_of_findSome?_eq_some h

theorem rewindTo_le {c : Conflict} (h : conflict? stored new head = some c) :
    c.rewindTo ≤ head := by
  obtain ⟨f, -, hf⟩ := conflict?_eq_some h
  obtain ⟨ha, subject, rfl⟩ := conflictAt?_eq_some hf
  exact heightBefore_le ha

/-- Only at the first block does a conflict not go back. -/
theorem eq_zero_of_rewindTo_eq {c : Conflict} (h : conflict? stored new head = some c)
    (he : c.rewindTo = head) : head = 0 := by
  obtain ⟨f, -, hf⟩ := conflict?_eq_some h
  obtain ⟨ha, subject, rfl⟩ := conflictAt?_eq_some hf
  exact eq_zero_of_heightBefore_eq ha he

/-- A fork without a conflict where it is active has none anywhere. -/
theorem conflictAt?_eq_none_of_isActiveAt (hs : stored.checkOrder = .ok ()) {f : Fork} {n : UInt64}
    (ha : (earlier (stored.threshold f) (new.threshold f)).isActiveAt n)
    (h : conflictAt? stored new n f = none) : conflictAt? stored new head f = none := by
  rw [conflictAt?_eq_none_iff] at h ⊢
  obtain ⟨hagree, hdao, hid⟩ := h
  have hactive := isActiveAt_earlier.mp ha
  rcases hagree with hagree | ⟨rfl, hexempt⟩
  · have heq : stored.threshold f = new.threshold f := agreeUpTo_iff.mp hagree hactive
    rw [← heq, earlier_self] at ha
    refine ⟨.inl (heq ▸ .refl head _), ?_, ?_⟩
    · rintro rfl -
      exact hdao rfl ha
    · rintro rfl -
      exact hid rfl ha
  · -- where the stored Petersburg is active, so is the stored Constantinople
    have heq : stored.threshold .constantinople = new.threshold .petersburg :=
      agreeUpTo_iff.mp hexempt (hactive.imp (Schedule.isActive_constantinople hs) id)
    exact ⟨.inr ⟨rfl, heq ▸ .refl head _⟩, nofun, nofun⟩

theorem conflict?_ne_none_of_lt (hs : stored.checkOrder = .ok ()) {c : Conflict}
    (h : conflict? stored new head = some c) {n : UInt64} (hn : c.rewindTo < n) :
    conflict? stored new n ≠ none := by
  obtain ⟨f, hf, hc⟩ := conflict?_eq_some h
  obtain ⟨ha, subject, rfl⟩ := conflictAt?_eq_some hc
  intro hnone
  have hfn := conflict?_eq_none_iff.mp hnone f hf
  rw [conflictAt?_eq_none_of_isActiveAt hs (isActiveAt_of_heightBefore_lt ha hn) hfn] at hc
  cases hc

theorem searchFrom_of_lt {reached : Option UInt64} {c : Conflict}
    (hc : conflict? stored new head = some c) (hreached : reached ≠ some c.rewindTo)
    (hlt : c.rewindTo < head) : searchFrom stored new reached head =
      ⟨head, c⟩ :: searchFrom stored new (some c.rewindTo) c.rewindTo := by
  rw [searchFrom, hc]
  simp only [hreached, if_false, hlt, dite_true]

theorem searchFrom_of_not_lt {reached : Option UInt64} {c : Conflict}
    (hc : conflict? stored new head = some c) (hreached : reached ≠ some c.rewindTo)
    (hlt : ¬ c.rewindTo < head) : searchFrom stored new reached head = [⟨head, c⟩] := by
  rw [searchFrom, hc]
  simp only [hreached, if_false, hlt, dite_false]

theorem searchFrom_eq_nil_iff {reached : Option UInt64} :
    searchFrom stored new reached head = [] ↔
      ∀ c, conflict? stored new head = some c → reached = some c.rewindTo := by
  rw [searchFrom]
  split
  · simp_all
  · split
    · simp_all
    · split <;> simp_all

/-- The last finding is a conflict at or below the head, and a pass succeeds where it goes back to,
unless that is zero. -/
theorem getLast?_searchFrom {reached : Option UInt64} {x : Finding}
    (h : (searchFrom stored new reached head).getLast? = some x) :
    conflict? stored new x.head = some x.conflict ∧ x.head ≤ head ∧
      (conflict? stored new x.conflict.rewindTo = none ∨ x.conflict.rewindTo = 0) := by
  induction reached, head using searchFrom.induct stored new with
  | case1 reached head hnone => simp [searchFrom, hnone] at h
  | case2 head c hc => simp [searchFrom, hc] at h
  | case3 reached head c hc hreached hlt ih =>
    rw [searchFrom_of_lt hc hreached hlt] at h
    cases hrest : (searchFrom stored new (some c.rewindTo) c.rewindTo).getLast? with
    | some y =>
      rw [List.getLast?_cons, hrest, Option.getD_some] at h
      cases h
      obtain ⟨hx, hle, hfloor⟩ := ih hrest
      exact ⟨hx, UInt64.le_trans hle (UInt64.le_of_lt hlt), hfloor⟩
    | none =>
      rw [List.getLast?_cons, hrest, Option.getD_none] at h
      cases h
      refine ⟨hc, UInt64.le_refl head, ?_⟩
      -- a conflict found again at the height it goes back to is at the first block
      cases hagain : conflict? stored new c.rewindTo with
      | none => exact .inl rfl
      | some d =>
        have hnil := searchFrom_eq_nil_iff.mp (List.getLast?_eq_none_iff.mp hrest) d hagain
        exact .inr (eq_zero_of_rewindTo_eq hagain (Option.some.inj hnil).symm)
  | case4 reached head c hc hreached hlt =>
    rw [searchFrom_of_not_lt hc hreached hlt] at h
    cases h
    have he : c.rewindTo = head := UInt64.le_antisymm (rewindTo_le hc) (UInt64.not_lt.mp hlt)
    exact ⟨hc, UInt64.le_refl head, .inr (he.trans (eq_zero_of_rewindTo_eq hc he))⟩

theorem lowest?_eq_none_iff : lowest? stored new head = none ↔ conflict? stored new head = none := by
  rw [lowest?, Option.map_eq_none_iff, List.getLast?_eq_none_iff, search, searchFrom_eq_nil_iff]
  cases conflict? stored new head <;> simp

theorem lowest?_eq_some {c : Conflict} (h : lowest? stored new head = some c) :
    (∃ n ≤ head, conflict? stored new n = some c) ∧
      (conflict? stored new c.rewindTo = none ∨ c.rewindTo = 0) := by
  obtain ⟨x, hx, rfl⟩ := Option.map_eq_some_iff.mp h
  obtain ⟨hc, hle, hfloor⟩ := getLast?_searchFrom hx
  exact ⟨⟨x.head, hle, hc⟩, hfloor⟩

theorem lowest?_rewindTo_le {c : Conflict} (h : lowest? stored new head = some c) :
    c.rewindTo ≤ head := by
  obtain ⟨⟨n, hn, hc⟩, -⟩ := lowest?_eq_some h
  exact UInt64.le_trans (rewindTo_le hc) hn

/-- The search succeeds when a pass does at all heights up to the head. Else it goes back to the
greatest of them where a pass succeeds, or to zero when there is none. -/
theorem search_rewinds_exactly {stored : Schedule} (hs : stored.checkOrder = .ok ())
    (new : Schedule) (height : UInt64) :
    (lowest? stored new height = none ↔ ∀ n ≤ height, conflict? stored new n = none) ∧
    ∀ c, lowest? stored new height = some c →
      c.rewindTo ≤ height ∧
      (∀ n, c.rewindTo < n → n ≤ height → conflict? stored new n ≠ none) ∧
      ((∀ n ≤ c.rewindTo, conflict? stored new n = none) ∨
        c.rewindTo = 0 ∧ conflict? stored new 0 ≠ none) := by
  constructor
  · rw [lowest?_eq_none_iff]
    exact ⟨fun h n hn => conflict?_eq_none_of_le hn h, fun h => h height (UInt64.le_refl height)⟩
  · intro c hc
    obtain ⟨⟨m, hm, hcm⟩, hfloor⟩ := lowest?_eq_some hc
    refine ⟨lowest?_rewindTo_le hc, fun n hn _ => conflict?_ne_none_of_lt hs hcm hn, ?_⟩
    by_cases hr : conflict? stored new c.rewindTo = none
    · exact .inl fun n hn => conflict?_eq_none_of_le hn hr
    · have hzero := hfloor.resolve_left hr
      exact .inr ⟨hzero, hzero ▸ hr⟩

/-- A test network with Istanbul to Berlin at one height and Ewasm at another. -/
def staged (istanbul ewasm : UInt64) : Schedule :=
  Network.test
    |>.withFork .istanbul istanbul
    |>.withFork .muirGlacier istanbul
    |>.withFork .berlin istanbul
    |>.withFork .ewasm ewasm

/-- The pass at 100 shows Istanbul and hides Ewasm, which is lower. -/
theorem search_rewinds_past_hidden_conflict :
    (staged 50 30).checkOrder = .ok () ∧
    conflict? (staged 50 30) (staged 60 40) 100 =
      some ⟨.fork .istanbul, .scheduled 50, .scheduled 60, 49⟩ ∧
    lowest? (staged 50 30) (staged 60 40) 100 =
      some ⟨.fork .ewasm, .scheduled 30, .scheduled 40, 29⟩ ∧
    (∀ n, 29 < n → n ≤ 100 → conflict? (staged 50 30) (staged 60 40) n ≠ none) ∧
    ∀ n ≤ 29, conflict? (staged 50 30) (staged 60 40) n = none := by
  have hs : (staged 50 30).checkOrder = .ok () := rfl
  have hc : lowest? (staged 50 30) (staged 60 40) 100 =
      some ⟨.fork .ewasm, .scheduled 30, .scheduled 40, 29⟩ := by cbv
  obtain ⟨-, habove, hbelow⟩ := (search_rewinds_exactly hs (staged 60 40) 100).2 _ hc
  exact ⟨hs, by decide, hc, habove, hbelow.resolve_right fun h => absurd h.1 (by decide)⟩

end HardFork.Compatibility
