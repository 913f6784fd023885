import HardFork.Proofs.Rewind

/-! # Petersburg as execution sees it

Execution starts an unscheduled Petersburg with Constantinople. The pass compares the two thresholds
as they are written, and lets Petersburg go where Constantinople was. Of the moves that execution
sees it accepts those of `PetersburgMoves`, and no others. -/
namespace HardFork
namespace Schedule

theorem isPetersburg_of_isScheduled {s : Schedule} (h : (s.threshold .petersburg).isScheduled)
    (n : UInt64) : s.isPetersburg n = s.isActive .petersburg n := by
  simp [isPetersburg, h]

theorem isPetersburg_of_not_isScheduled {s : Schedule}
    (h : ¬ (s.threshold .petersburg).isScheduled) (n : UInt64) :
    s.isPetersburg n = s.isActive .constantinople n := by
  have hp : ¬ s.isActive .petersburg n := fun ha => h (Threshold.isScheduled_of_isActiveAt ha)
  simp [isPetersburg, h, hp]

/-- Before both forks nothing of Petersburg is seen. -/
theorem isPetersburg_eq_false {s : Schedule} {n head : UInt64} (hn : n ≤ head)
    (hp : ¬ s.isActive .petersburg head) (hc : ¬ s.isActive .constantinople head) :
    s.isPetersburg n = false := by
  have hpn : ¬ s.isActive .petersburg n := fun h => hp (Threshold.isActiveAt_mono hn h)
  have hcn : ¬ s.isActive .constantinople n := fun h => hc (Threshold.isActiveAt_mono hn h)
  simp [isPetersburg, hpn, hcn]

end Schedule

namespace Compatibility
open Threshold

/-- A move of Petersburg that the pass accepts and execution sees somewhere from `low` to the
head. -/
inductive PetersburgMoves (stored new : Schedule) (low head : UInt64) : Prop
  /-- Constantinople is active. One schedule has Petersburg with it, the other has it ahead. -/
  | ahead (hc : stored.isActive .constantinople head)
      (hone : (stored.threshold .petersburg).isScheduled ≠ (new.threshold .petersburg).isScheduled)
      (hs : ¬ stored.isActive .petersburg head) (hn : ¬ new.isActive .petersburg head)
  /-- Petersburg leaves a block of its own for the stored Constantinople. -/
  | back (block : UInt64) (hs : stored.threshold .petersburg = .scheduled block) (hlow : low < block)
      (hc : new.threshold .petersburg = stored.threshold .constantinople)
      (hn : new.isActive .petersburg head) (hne : new.threshold .petersburg ≠ .scheduled block)

variable {stored new : Schedule} {low head : UInt64}

theorem Agreement.constantinople (h : Agreement stored new head) {n : UInt64} (hn : n ≤ head) :
    stored.isActive .constantinople n = new.isActive .constantinople n :=
  h.forks .constantinople (by decide) nofun n hn

/-- Such a move is seen. -/
theorem PetersburgMoves.seen (hs : stored.checkOrder = .ok ()) (ha : Agreement stored new head)
    (hl : low ≤ head) (h : PetersburgMoves stored new low head) :
    ∃ n, low ≤ n ∧ n ≤ head ∧ stored.isPetersburg n ≠ new.isPetersburg n := by
  cases h with
  | ahead hc hone hsp hnp =>
    refine ⟨head, hl, UInt64.le_refl head, ?_⟩
    have hc' : new.isActive .constantinople head := ha.constantinople (UInt64.le_refl head) ▸ hc
    simpa [Schedule.isPetersburg, hc, hc', hsp, hnp] using hone
  | back block hsp hlow hc hnp hne =>
    obtain ⟨start, hstart, hle⟩ := isActiveAt_iff.mp hnp
    -- the stored Constantinople is before the stored Petersburg, and not at the same block
    have hpb : stored.isActive .petersburg block := isActiveAt_iff.mpr ⟨block, hsp, UInt64.le_refl _⟩
    have hcb := Schedule.isActive_constantinople hs hpb
    rw [Schedule.isActive, ← hc, hstart] at hcb
    have hlt : start < block := by
      have hb : start ≤ block := by simpa [isActiveAt] using hcb
      have hneq : start ≠ block := fun he => hne (by rw [hstart, he])
      grind
    have hsched : (stored.threshold .petersburg).isScheduled := isScheduled_iff.mpr ⟨block, hsp⟩
    have hsched' : (new.threshold .petersburg).isScheduled := isScheduled_iff.mpr ⟨start, hstart⟩
    obtain ⟨n, hln, hsn, hnh, hnb⟩ : ∃ n, low ≤ n ∧ start ≤ n ∧ n ≤ head ∧ n < block := by
      rcases UInt64.le_total low start with h | h
      · exact ⟨start, h, UInt64.le_refl start, hle, hlt⟩
      · exact ⟨low, UInt64.le_refl low, h, hl, hlow⟩
    refine ⟨n, hln, hnh, ?_⟩
    rw [Schedule.isPetersburg_of_isScheduled hsched, Schedule.isPetersburg_of_isScheduled hsched',
      Schedule.isActive, Schedule.isActive, hsp, hstart]
    simp [isActiveAt, hsn, hnb]

/-- Where the two thresholds agree as they are written, one schedule may still have Petersburg with
Constantinople and the other not. -/
theorem isPetersburg_eq_of_agreeUpTo (ha : Agreement stored new head)
    (hp : AgreeUpTo head (stored.threshold .petersburg) (new.threshold .petersburg))
    (h : ¬ PetersburgMoves stored new low head) {n : UInt64} (hn : n ≤ head) :
    stored.isPetersburg n = new.isPetersburg n := by
  have hpn : stored.isActive .petersburg n = new.isActive .petersburg n := hp n hn
  by_cases hone :
    (stored.threshold .petersburg).isScheduled = (new.threshold .petersburg).isScheduled
  · simp only [Schedule.isPetersburg, hpn, hone, ha.constantinople hn]
  -- one of them is not scheduled, so neither is active at the head
  have hsp : ¬ stored.isActive .petersburg head := fun hact =>
    hone (congrArg _ (hp.eq_of_isActiveAt hact))
  have hnp : ¬ new.isActive .petersburg head := fun hact =>
    hone (congrArg _ (hp.symm.eq_of_isActiveAt hact).symm)
  have hsc : ¬ stored.isActive .constantinople head := fun hact => h (.ahead hact hone hsp hnp)
  have hnc : ¬ new.isActive .constantinople head := ha.constantinople (UInt64.le_refl head) ▸ hsc
  rw [Schedule.isPetersburg_eq_false hn hsp hsc, Schedule.isPetersburg_eq_false hn hnp hnc]

/-- Where the candidate has Petersburg with the stored Constantinople, the stored schedule may have
it at a later block. -/
theorem isPetersburg_eq_of_constantinople (hs : stored.checkOrder = .ok ())
    (ha : Agreement stored new head)
    (hc : AgreeUpTo head (stored.threshold .constantinople) (new.threshold .petersburg))
    (h : ¬ PetersburgMoves stored new low head) {n : UInt64} (hl : low ≤ n) (hn : n ≤ head) :
    stored.isPetersburg n = new.isPetersburg n := by
  have hcp : ∀ m ≤ head, stored.isActive .constantinople m = new.isActive .petersburg m := hc
  by_cases hnp : new.isActive .petersburg head
  · have heq : new.threshold .petersburg = stored.threshold .constantinople :=
      hc.symm.eq_of_isActiveAt hnp
    rw [Schedule.isPetersburg_of_isScheduled (isScheduled_of_isActiveAt hnp), ← hcp n hn]
    by_cases hsched : (stored.threshold .petersburg).isScheduled
    · obtain ⟨block, hsp⟩ := isScheduled_iff.mp hsched
      rw [Schedule.isPetersburg_of_isScheduled hsched]
      by_cases hne : new.threshold .petersburg = .scheduled block
      · rw [Schedule.isActive, Schedule.isActive, hsp, ← hne, heq]
      -- at and after its own block Petersburg is active under both
      have hblock : ¬ low < block := fun hlow => h (.back block hsp hlow heq hnp hne)
      have hle : block ≤ n := UInt64.le_trans (UInt64.not_lt.mp hblock) hl
      have hact : stored.isActive .petersburg n := isActiveAt_iff.mpr ⟨block, hsp, hle⟩
      rw [hact, Schedule.isActive_constantinople hs hact]
    · exact Schedule.isPetersburg_of_not_isScheduled hsched n
  · have hsc : ¬ stored.isActive .constantinople head := hcp head (UInt64.le_refl head) ▸ hnp
    have hsp : ¬ stored.isActive .petersburg head := fun hact =>
      hsc (Schedule.isActive_constantinople hs hact)
    have hnc : ¬ new.isActive .constantinople head := ha.constantinople (UInt64.le_refl head) ▸ hsc
    rw [Schedule.isPetersburg_eq_false hn hsp hsc, Schedule.isPetersburg_eq_false hn hnp hnc]

/-- No other move is. -/
theorem isPetersburg_eq_of_not_moves (hs : stored.checkOrder = .ok ())
    (ha : Agreement stored new head) (h : ¬ PetersburgMoves stored new low head) {n : UInt64}
    (hl : low ≤ n) (hn : n ≤ head) : stored.isPetersburg n = new.isPetersburg n := by
  rcases ha.petersburg with hp | hc
  · exact isPetersburg_eq_of_agreeUpTo ha hp h hn
  · exact isPetersburg_eq_of_constantinople hs ha hc h hl hn

/-- Where the pass succeeds, the two moves are all that execution can see of Petersburg. -/
theorem isPetersburg_kept_iff_of_conflict?_eq_none (hs : stored.checkOrder = .ok ())
    (h : conflict? stored new head = none) (hl : low ≤ head) :
    (∀ n, low ≤ n → n ≤ head → stored.isPetersburg n = new.isPetersburg n) ↔
      ¬ PetersburgMoves stored new low head := by
  have ha := conflict?_eq_none_iff_agreement.mp h
  constructor
  · intro hkept hmoves
    obtain ⟨n, hln, hn, hne⟩ := hmoves.seen hs ha hl
    exact hne (hkept n hln hn)
  · intro hmoves n hln hn
    exact isPetersburg_eq_of_not_moves hs ha hmoves hln hn

/-- An accepted schedule keeps Petersburg up to the height unless it makes one of the two moves. A
refused one keeps it up to the height that the chain goes back to on the same terms; before the
first block there is nothing to keep. -/
theorem petersburg_kept_iff {stored : Schedule} (hs : stored.checkOrder = .ok ()) (new : Schedule)
    (height : UInt64) :
    (lowest? stored new height = none →
      ((∀ n ≤ height, stored.isPetersburg n = new.isPetersburg n) ↔
        ¬ PetersburgMoves stored new 0 height)) ∧
    ∀ c, lowest? stored new height = some c →
      ((∀ n, 1 ≤ n → n ≤ c.rewindTo → stored.isPetersburg n = new.isPetersburg n) ↔
        c.rewindTo = 0 ∨ ¬ PetersburgMoves stored new 1 c.rewindTo) := by
  constructor
  · intro h
    have hkept := isPetersburg_kept_iff_of_conflict?_eq_none hs (lowest?_eq_none_iff.mp h)
      (UInt64.zero_le (a := height))
    rw [← hkept]
    exact ⟨fun h n _ hn => h n hn, fun h n hn => h n UInt64.zero_le hn⟩
  · intro c hc
    by_cases hzero : c.rewindTo = 0
    · refine iff_of_true (fun n hl hn => ?_) (.inl hzero)
      grind
    · have hnone := (lowest?_eq_some hc).2.resolve_right hzero
      rw [isPetersburg_kept_iff_of_conflict?_eq_none hs hnone (by grind), or_iff_right hzero]

/-- Constantinople at 10, the forks before it from the first block on. -/
def constantinopleAtTen (petersburg : Threshold) : Schedule :=
  { homesteadBlock := .scheduled 0
    eip150Block := .scheduled 0
    eip155Block := .scheduled 0
    eip158Block := .scheduled 0
    byzantiumBlock := .scheduled 0
    constantinopleBlock := .scheduled 10
    petersburgBlock := petersburg }

/-- An unscheduled Petersburg may be written down where it was, and execution sees no move. -/
theorem petersburg_kept_when_written_down :
    let stored := constantinopleAtTen .unscheduled
    let new := constantinopleAtTen (.scheduled 10)
    stored.checkOrder = .ok () ∧ lowest? stored new 50 = none ∧
      ∀ n ≤ 50, stored.isPetersburg n = new.isPetersburg n := by
  intro stored new
  have hs : stored.checkOrder = .ok () := rfl
  have hnone : lowest? stored new 50 = none := lowest?_eq_none_iff.mpr (by decide)
  refine ⟨hs, hnone, ((petersburg_kept_iff hs new 50).1 hnone).mpr ?_⟩
  rintro (⟨-, -, -, hn⟩ | ⟨block, hb, -⟩)
  · exact hn (by decide)
  · cases hb

/-- The pass accepts, at head 50, a Petersburg put off to 100 that began with Constantinople, and one
that is taken back from 30 to Constantinople. A Petersburg put off to 12 is refused, but the chain
goes back to 11 only. Execution sees each of these moves at block 10. -/
theorem petersburg_moves_unnoticed :
    let s := constantinopleAtTen
    (∀ t ∈ [.unscheduled, .scheduled 10, .scheduled 12, .scheduled 30, .scheduled 100],
      (s t).checkOrder = .ok ()) ∧
    (lowest? (s .unscheduled) (s (.scheduled 100)) 50 = none ∧
      (s .unscheduled).isPetersburg 10 ≠ (s (.scheduled 100)).isPetersburg 10) ∧
    (lowest? (s (.scheduled 30)) (s (.scheduled 10)) 50 = none ∧
      (s (.scheduled 30)).isPetersburg 10 ≠ (s (.scheduled 10)).isPetersburg 10) ∧
    (lowest? (s .unscheduled) (s (.scheduled 12)) 50 =
        some ⟨.fork .petersburg, .unscheduled, .scheduled 12, 11⟩ ∧
      (s .unscheduled).isPetersburg 10 ≠ (s (.scheduled 12)).isPetersburg 10) := by
  intro s
  refine ⟨?_, ⟨lowest?_eq_none_iff.mpr (by decide), by decide⟩,
    ⟨lowest?_eq_none_iff.mpr (by decide), by decide⟩, ⟨by cbv, by decide⟩⟩
  simp only [List.forall_mem_cons, List.not_mem_nil, false_implies, implies_true, and_true]
  exact ⟨rfl, rfl, rfl, rfl, rfl⟩

end Compatibility
end HardFork
