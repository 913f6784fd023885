import HardFork.Proofs.Rewind
import Mathlib.Data.List.Perm.Subperm

/-! # How long the search goes on

The search is a loop of passes, and only the shape of its definition shows that it ends. Here the
loop is told as it goes, without a bound: each pass but the last goes back further than those before
it, and each of them goes back to a height that belongs to one fork. So there are no more of them
than forks, whatever the order of the thresholds, and nothing is left to find where they end. -/
namespace HardFork.Compatibility

/-- A loop with the last conflict and a head: what it logs, how many passes it takes and the conflict
that it ends with. It ends when a pass finds nothing, or goes back to where the last one did. -/
inductive Descends (stored new : Schedule) :
    (last : Option Conflict) → (head : UInt64) → (log : List Finding) → (passes : Nat) →
      (result : Option Conflict) → Prop
  | agrees {last head} (h : conflict? stored new head = none) :
      Descends stored new last head [] 1 last
  | repeats {last head c} (h : conflict? stored new head = some c)
      (hr : last.map (·.rewindTo) = some c.rewindTo) : Descends stored new last head [] 1 last
  | goesBack {last head c log passes result} (h : conflict? stored new head = some c)
      (hr : last.map (·.rewindTo) ≠ some c.rewindTo)
      (hs : Descends stored new (some c) c.rewindTo log passes result) :
      Descends stored new last head (⟨head, c⟩ :: log) (passes+1) result

variable {stored new : Schedule} {last result : Option Conflict} {head : UInt64} {log : List Finding}
  {passes : Nat}

theorem descends_searchFrom (last : Option Conflict) (head : UInt64) :
    ∃ passes result, Descends stored new last head
      (searchFrom stored new (last.map (·.rewindTo)) head) passes result := by
  generalize hreached : last.map (·.rewindTo) = reached
  induction reached, head using searchFrom.induct stored new generalizing last with
  | case1 reached head hnone =>
    rw [searchFrom, hnone]
    exact ⟨1, last, .agrees hnone⟩
  | case2 head c hc =>
    rw [searchFrom_eq_nil_iff.mpr fun d hd => by rw [← Option.some.inj (hc.symm.trans hd)]]
    exact ⟨1, last, .repeats hc hreached⟩
  | case3 reached head c hc hne hlt ih =>
    obtain ⟨passes, result, hs⟩ := ih (some c) rfl
    rw [searchFrom_of_lt hc hne hlt]
    exact ⟨passes+1, result, .goesBack hc (hreached ▸ hne) hs⟩
  | case4 reached head c hc hne hlt =>
    -- the same pass once more, at the first block
    have he : c.rewindTo = head := UInt64.le_antisymm (rewindTo_le hc) (UInt64.not_lt.mp hlt)
    have hagain : Descends stored new (some c) c.rewindTo [] 1 (some c) :=
      .repeats (he ▸ hc) rfl
    rw [searchFrom_of_not_lt hc hne hlt]
    exact ⟨2, some c, .goesBack hc (hreached ▸ hne) hagain⟩

namespace Descends

theorem passes_eq (h : Descends stored new last head log passes result) :
    passes = log.length+1 := by
  induction h with
  | agrees => rfl
  | repeats => rfl
  | goesBack _ _ _ ih => rw [ih, List.length_cons]

theorem result_eq (h : Descends stored new last head log passes result) :
    result = (log.getLast?.map (·.conflict)).or last := by
  induction h with
  | agrees => rfl
  | repeats => rfl
  | @goesBack last head c log passes result hc hr hs ih =>
    rw [ih, List.getLast?_cons]
    cases log.getLast? <;> rfl

theorem log_unique {log' : List Finding} {passes' : Nat} {result' : Option Conflict}
    (h : Descends stored new last head log passes result)
    (h' : Descends stored new last head log' passes' result') : log = log' := by
  induction h generalizing log' passes' result' with
  | agrees hnone =>
    cases h' with
    | agrees => rfl
    | repeats => rfl
    | goesBack hc => rw [hnone] at hc; cases hc
  | repeats hc hr =>
    cases h' with
    | agrees => rfl
    | repeats => rfl
    | goesBack hc' hr' =>
      cases hc.symm.trans hc'
      exact absurd hr hr'
  | goesBack hc hr hs ih =>
    cases h' with
    | agrees hnone => rw [hnone] at hc; cases hc
    | repeats hc' hr' =>
      cases hc.symm.trans hc'
      exact absurd hr' hr
    | goesBack hc' hr' hs' =>
      cases hc.symm.trans hc'
      rw [ih hs']

end Descends

/-- The loop does one thing only, and it is what the search tells. -/
theorem descends_iff : Descends stored new none head log passes result ↔
    log = search stored new head ∧ passes = (search stored new head).length+1 ∧
      result = lowest? stored new head := by
  obtain ⟨n, r, hs⟩ : ∃ n r, Descends stored new none head (search stored new head) n r :=
    descends_searchFrom none head
  have hn := hs.passes_eq
  have hr := hs.result_eq
  rw [Option.or_none] at hr
  constructor
  · intro h
    have hlog := h.log_unique hs
    rw [h.passes_eq, h.result_eq, hlog, Option.or_none]
    exact ⟨rfl, rfl, rfl⟩
  · rintro ⟨rfl, rfl, rfl⟩
    rw [hn, hr] at hs
    exact hs

/-- The heights that the findings go back to. -/
def heights (log : List Finding) : List UInt64 := log.map (·.conflict.rewindTo)

namespace Descends

theorem heights_le (h : Descends stored new last head log passes result) :
    ∀ n ∈ heights log, n ≤ head := by
  induction h with
  | agrees => exact fun _ hn => absurd hn List.not_mem_nil
  | repeats => exact fun _ hn => absurd hn List.not_mem_nil
  | goesBack hc _ _ ih =>
    intro n hn
    rcases List.mem_cons.mp hn with rfl | hn
    · exact rewindTo_le hc
    · exact UInt64.le_trans (ih n hn) (rewindTo_le hc)

/-- No height is reached a second time. -/
theorem heights_lt (h : Descends stored new last head log passes result)
    (hl : last.map (·.rewindTo) = some head) : ∀ n ∈ heights log, n < head := by
  cases h with
  | agrees => exact fun _ hn => absurd hn List.not_mem_nil
  | repeats => exact fun _ hn => absurd hn List.not_mem_nil
  | @goesBack _ _ c _ _ _ hc hr hs =>
    have hne : c.rewindTo ≠ head := fun he => hr (he ▸ hl)
    have hlt : c.rewindTo < head := UInt64.lt_of_le_of_ne (rewindTo_le hc) hne
    intro n hn
    rcases List.mem_cons.mp hn with rfl | hn
    · exact hlt
    · exact UInt64.lt_of_le_of_lt (hs.heights_le n hn) hlt

theorem heights_pairwise (h : Descends stored new last head log passes result) :
    (heights log).Pairwise (· > ·) := by
  induction h with
  | agrees => exact .nil
  | repeats => exact .nil
  | goesBack _ _ hs ih => exact List.pairwise_cons.mpr ⟨hs.heights_lt rfl, ih⟩

theorem conflict?_of_mem (h : Descends stored new last head log passes result) :
    ∀ x ∈ log, conflict? stored new x.head = some x.conflict := by
  induction h with
  | agrees => exact fun _ hx => absurd hx List.not_mem_nil
  | repeats => exact fun _ hx => absurd hx List.not_mem_nil
  | goesBack hc _ _ ih => exact List.forall_mem_cons.mpr ⟨hc, ih⟩

end Descends

/-- Where a conflict of a fork goes back to, at whatever head it is found. -/
def turningHeights (stored new : Schedule) : List UInt64 :=
  forks.map fun f => heightBefore (earlier (stored.threshold f) (new.threshold f))

theorem rewindTo_mem_turningHeights {c : Conflict} (h : conflict? stored new head = some c) :
    c.rewindTo ∈ turningHeights stored new := by
  obtain ⟨f, hf, hc⟩ := conflict?_eq_some h
  obtain ⟨-, subject, rfl⟩ := conflictAt?_eq_some hc
  exact List.mem_map.mpr ⟨f, hf, rfl⟩

theorem Descends.length_le (h : Descends stored new last head log passes result) :
    log.length ≤ 16 := by
  have hnodup : (heights log).Nodup := h.heights_pairwise.imp fun hgt => (UInt64.ne_of_lt hgt).symm
  have hsub : heights log ⊆ turningHeights stored new := by
    intro n hn
    obtain ⟨x, hx, rfl⟩ := List.mem_map.mp hn
    exact rewindTo_mem_turningHeights (h.conflict?_of_mem x hx)
  calc log.length = (heights log).length := (List.length_map _).symm
    _ ≤ (turningHeights stored new).length := (List.subperm_of_subset hnodup hsub).length_le
    _ = 16 := List.length_map _

/-- The search finds nothing below where it went back to, or it went back to the first block and
finds a conflict there that it cannot go back from. -/
theorem lowest?_below {c : Conflict} (h : lowest? stored new head = some c) :
    (∀ n ≤ c.rewindTo, lowest? stored new n = none) ∨
      c.rewindTo = 0 ∧ conflict? stored new 0 ≠ none ∧
        ∃ d, lowest? stored new 0 = some d ∧ d.rewindTo = 0 := by
  obtain ⟨-, hfloor⟩ := lowest?_eq_some h
  by_cases hr : conflict? stored new c.rewindTo = none
  · exact .inl fun n hn => lowest?_eq_none_iff.mpr (conflict?_eq_none_of_le hn hr)
  · have hzero := hfloor.resolve_left hr
    rw [hzero] at hr
    obtain ⟨d, hd⟩ := Option.ne_none_iff_exists'.mp (mt lowest?_eq_none_iff.mp hr)
    exact .inr ⟨hzero, hr, d, hd, UInt64.le_zero_iff.mp (lowest?_rewindTo_le hd)⟩

/-- Of any two schedules and at any head the search is one loop of at most 17 passes with at most 16
findings, each of which goes back further than those before it. Where it ends nothing is left to
find, but for a conflict at the first block. -/
theorem search_ends_within_seventeen_passes (stored new : Schedule) (height : UInt64) :
    (∃ passes ≤ 17, ∀ log n result, Descends stored new none height log n result ↔
      log = search stored new height ∧ n = passes ∧ result = lowest? stored new height) ∧
    (search stored new height).length ≤ 16 ∧
    (heights (search stored new height)).Pairwise (· > ·) ∧
    (∀ n ∈ (heights (search stored new height)).head?, n ≤ height) ∧
    ∀ c, lowest? stored new height = some c →
      (∀ n ≤ c.rewindTo, lowest? stored new n = none) ∨
        c.rewindTo = 0 ∧ conflict? stored new 0 ≠ none ∧
          ∃ d, lowest? stored new 0 = some d ∧ d.rewindTo = 0 := by
  have hs : Descends stored new none height (search stored new height) _ _ :=
    descends_iff.mpr ⟨rfl, rfl, rfl⟩
  have hlength := hs.length_le
  refine ⟨⟨(search stored new height).length+1, by omega, fun _ _ _ => descends_iff⟩, hlength,
    hs.heights_pairwise, fun n hn => hs.heights_le n (List.mem_of_mem_head? hn), fun _ => lowest?_below⟩

/-- The forks in the order of the pass, each a block lower than the one before: the search finds them
all, one after the other. -/
def falling : Schedule :=
  Fork.all.foldl (fun s f => s.withFork f (100-f.rank.toUInt64)) {}

example : (search {} falling 100).length = 16 := by cbv

end HardFork.Compatibility
