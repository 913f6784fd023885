import HardFork.Proofs.Order
import Mathlib.Order.Bounds.Defs

/-! # The lists that the walk accepts, and the entry that it blames

An accepted list has its tracked entries scheduled at heights that never fall, and behind them only
entries that are not scheduled. In any other list the walk stops at the end of the shortest front
part that is not accepted, and names the last tracked entry before it. -/
namespace HardFork.Ordering

theorem Entry.covers_iff {e later : Entry} :
    e.Covers later ↔
      ∀ b, later.threshold = .scheduled b → ∃ a ≤ b, e.threshold = .scheduled a := by
  constructor
  · intro h b hb
    have hlater : later.threshold.isActiveAt b :=
      Threshold.isActiveAt_iff.mpr ⟨b, hb, UInt64.le_refl b⟩
    obtain ⟨a, ha, hab⟩ := Threshold.isActiveAt_iff.mp (h b hlater)
    exact ⟨a, hab, ha⟩
  · intro h n hn
    obtain ⟨b, hb, hbn⟩ := Threshold.isActiveAt_iff.mp hn
    obtain ⟨a, hab, ha⟩ := h b hb
    exact Threshold.isActiveAt_iff.mpr ⟨a, ha, UInt64.le_trans hab hbn⟩

/-- First heights that never fall, then nothing that is scheduled. -/
def Rising (ts : List Threshold) : Prop :=
  ∃ (blocks : List UInt64) (waiting : Nat),
    ts = blocks.map .scheduled ++ List.replicate waiting .unscheduled ∧ blocks.Pairwise (· ≤ ·)

theorem rising_cons_unscheduled {ts : List Threshold}
    (h : ∀ b, Threshold.scheduled b ∉ ts) (hts : Rising ts) : Rising (.unscheduled :: ts) := by
  obtain ⟨blocks, n, rfl, -⟩ := hts
  cases blocks with
  | nil => exact ⟨[], n+1, rfl, .nil⟩
  | cons b blocks => exact absurd List.mem_cons_self (h b)

theorem rising_cons_scheduled {ts : List Threshold} {a : UInt64}
    (h : ∀ b, Threshold.scheduled b ∈ ts → a ≤ b) (hts : Rising ts) :
    Rising (.scheduled a :: ts) := by
  obtain ⟨blocks, n, rfl, hrising⟩ := hts
  refine ⟨a :: blocks, n, rfl, List.pairwise_cons.mpr ⟨fun b hb => h b ?_, hrising⟩⟩
  exact List.mem_append_left _ (List.mem_map_of_mem hb)

theorem rising_iff_pairwise {ts : List Threshold} :
    Rising ts ↔
      ts.Pairwise fun s t => ∀ b, t = .scheduled b → ∃ a ≤ b, s = .scheduled a := by
  constructor
  · rintro ⟨blocks, n, rfl, hrising⟩
    rw [List.pairwise_append, List.pairwise_map]
    refine ⟨hrising.imp fun hab b hb => ?_, ?_, ?_⟩
    · cases hb
      exact ⟨_, hab, rfl⟩
    · exact List.pairwise_replicate.mpr (.inr nofun)
    · rintro s - t ht b rfl
      cases List.eq_of_mem_replicate ht
  · intro h
    induction ts with
    | nil => exact ⟨[], 0, rfl, .nil⟩
    | cons t ts ih =>
      obtain ⟨hhead, htail⟩ := List.pairwise_cons.mp h
      cases t with
      | unscheduled =>
        apply rising_cons_unscheduled _ (ih htail)
        intro b hb
        obtain ⟨a, -, ha⟩ := hhead _ hb b rfl
        cases ha
      | scheduled c =>
        apply rising_cons_scheduled _ (ih htail)
        intro b hb
        obtain ⟨a, hab, ha⟩ := hhead _ hb b rfl
        cases ha
        exact hab

/-- The last tracked entry once the walk is past a list. -/
def track (last : Option Entry) (entries : List Entry) : Option Entry :=
  (entries.filter (·.isTracked)).getLast?.or last

theorem track_cons (last : Option Entry) (e : Entry) (entries : List Entry) :
    track last (e :: entries) = track (if e.isTracked then some e else last) entries := by
  by_cases ht : e.isTracked
  · rw [track, List.filter_cons_of_pos ht, List.getLast?_cons, if_pos ht, track]
    cases (entries.filter (·.isTracked)).getLast? <;> rfl
  · rw [track, List.filter_cons_of_neg ht, if_neg ht, track]

/-- The walk past a front part goes on with the last tracked entry of it. -/
theorem checkFrom_append (last : Option Entry) (front back : List Entry) :
    checkFrom last (front ++ back) =
      checkFrom last front >>= fun _ => checkFrom (track last front) back := by
  induction front generalizing last with
  | nil => rfl
  | cons e front ih =>
    rw [List.cons_append, checkFrom, checkFrom, track_cons]
    cases last.bind fun previous => violation? previous e with
    | none => exact ih _
    | some v => rfl

theorem check_take_of_le {entries : List Entry} {j k : Nat} (hjk : j ≤ k)
    (h : check (entries.take k) = .ok ()) : check (entries.take j) = .ok () := by
  rw [check_eq_ok_iff] at h ⊢
  exact h.sublist ((List.take_sublist_take_left hjk).filter _)

/-- A failed walk stops at an entry that violates the order with the last tracked one before it, and
has accepted all before that. -/
theorem checkFrom_eq_error {last : Option Entry} {entries : List Entry} {v : Violation}
    (h : checkFrom last entries = .error v) :
    ∃ k current previous, entries[k]? = some current ∧
      checkFrom last (entries.take k) = .ok () ∧
      track last (entries.take k) = some previous ∧ violation? previous current = some v := by
  induction entries generalizing last with
  | nil => cases h
  | cons e entries ih =>
    rw [checkFrom] at h
    cases hv : last.bind fun previous => violation? previous e with
    | some w =>
      rw [hv] at h
      cases h
      obtain ⟨previous, hlast, hviolation⟩ := Option.bind_eq_some_iff.mp hv
      exact ⟨0, e, previous, rfl, rfl, hlast, hviolation⟩
    | none =>
      rw [hv] at h
      obtain ⟨k, current, previous, hk, hfront, htrack, hviolation⟩ := ih h
      refine ⟨k+1, current, previous, hk, ?_, ?_, hviolation⟩
      · rw [List.take_succ_cons, checkFrom, hv]
        exact hfront
      · rw [List.take_succ_cons, track_cons]
        exact htrack

/-- The violation names both entries with their own blocks. -/
inductive Blames (previous current : Entry) : Violation → Prop
  | skipped {b : UInt64} (hp : previous.threshold = .unscheduled)
      (hc : current.threshold = .scheduled b) :
      Blames previous current (.skipped previous.fork current.fork b)
  | misordered {a b : UInt64} (hp : previous.threshold = .scheduled a)
      (hc : current.threshold = .scheduled b) (hba : b < a) :
      Blames previous current (.misordered previous.fork a current.fork b)

theorem blames_of_violation? {previous current : Entry} {v : Violation}
    (h : violation? previous current = some v) : Blames previous current v := by
  unfold violation? at h
  split at h
  · rename_i hp hc
    cases h
    exact .skipped hp hc
  · rename_i hp hc
    split at h
    · rename_i hlt
      cases h
      exact .misordered hp hc hlt
    · cases h
  · cases h

/-- The walk accepts a list when the heights of its tracked entries never fall and nothing is
scheduled behind an entry that is not; it is the same to compare any two of them. Else it blames
the entry that ends the shortest front part that is not accepted, with the last tracked entry
before it. -/
theorem walk_accepts_or_blames_first (entries : List Entry) :
    (check entries = .ok () ↔ Rising ((entries.filter (·.isTracked)).map (·.threshold))) ∧
    (check entries = .ok () ↔ (entries.filter (·.isTracked)).Pairwise fun e later =>
      ∀ b, later.threshold = .scheduled b → ∃ a ≤ b, e.threshold = .scheduled a) ∧
    ∀ v, check entries = .error v → ∃ k current previous,
      IsLeast {k | check (entries.take (k+1)) ≠ .ok ()} k ∧ entries[k]? = some current ∧
      ((entries.take k).filter (·.isTracked)).getLast? = some previous ∧
      Blames previous current v := by
  have hpairs : check entries = .ok () ↔ (entries.filter (·.isTracked)).Pairwise fun e later =>
      ∀ b, later.threshold = .scheduled b → ∃ a ≤ b, e.threshold = .scheduled a := by
    rw [check_eq_ok_iff]
    exact List.Pairwise.iff fun {_ _} => Entry.covers_iff
  refine ⟨?_, hpairs, fun v hv => ?_⟩
  · rw [hpairs, rising_iff_pairwise, List.pairwise_map]
  · obtain ⟨k, current, previous, hk, hfront, htrack, hviolation⟩ := checkFrom_eq_error hv
    refine ⟨k, current, previous, ⟨?_, ?_⟩, hk, ?_, blames_of_violation? hviolation⟩
    · have hend : checkFrom (some previous) [current] = .error v := by
        rw [checkFrom, Option.bind_some, hviolation]
      show check (entries.take (k+1)) ≠ .ok ()
      rw [check, List.take_add_one, hk, Option.toList_some, checkFrom_append, hfront, htrack]
      show checkFrom (some previous) [current] ≠ .ok ()
      rw [hend]
      intro h
      cases h
    · intro j hj
      apply Nat.le_of_not_lt
      intro hlt
      exact hj (check_take_of_le (by omega) hfront)
    · rw [track, Option.or_none] at htrack
      exact htrack

/-- Homestead is above the block of a later fork; the optional fork between them is not set. -/
def lateHomestead : List Entry :=
  [⟨.homestead, .scheduled 10, false⟩, ⟨.dao, .unscheduled, true⟩, ⟨.eip150, .scheduled 5, false⟩]

theorem late_homestead_blamed :
    check lateHomestead = .error (.misordered .homestead 10 .eip150 5) ∧
    ∃ k current previous,
      IsLeast {k | check (lateHomestead.take (k+1)) ≠ .ok ()} k ∧
      lateHomestead[k]? = some current ∧
      ((lateHomestead.take k).filter (·.isTracked)).getLast? = some previous ∧
      Blames previous current (.misordered .homestead 10 .eip150 5) := by
  have hv : check lateHomestead = .error (.misordered .homestead 10 .eip150 5) := rfl
  exact ⟨hv, (walk_accepts_or_blames_first lateHomestead).2.2 _ hv⟩

end HardFork.Ordering
