import HardFork.Registry
import Mathlib.Data.List.DropRight
import Mathlib.Data.Set.Card

/-! # A registry after any history

Of each network the registry holds the last checkpoint and the last oracle that were entered since
the network was last removed. The two are entered apart, and neither touches the other nor another
network. -/
namespace HardFork.Registry

/-- What changes a registry. To build one is to do the first three of these to the empty one. -/
inductive Operation
  | addNetwork (genesis : Hash)
  | insertCheckpoint (genesis : Hash) (c : Checkpoint)
  | insertOracle (genesis : Hash) (o : Oracle)
  | remove (genesis : Hash)
deriving DecidableEq

namespace Operation

def genesis : Operation → Hash
  | addNetwork g => g
  | insertCheckpoint g _ => g
  | insertOracle g _ => g
  | remove g => g

def isRemoval : Operation → Bool
  | remove _ => true
  | _ => false

def checkpoint? : Operation → Option Checkpoint
  | insertCheckpoint _ c => some c
  | _ => none

def oracle? : Operation → Option Oracle
  | insertOracle _ o => some o
  | _ => none

def apply (r : Registry) : Operation → Registry
  | addNetwork g => r.addNetwork g
  | insertCheckpoint g c => r.insertCheckpoint g c
  | insertOracle g o => r.insertOracle g o
  | remove g => r.remove g

/-- What is trusted with the data of an operation. -/
def enter (op : Operation) (t : Trusted) : Trusted where
  checkpoint := op.checkpoint?.or t.checkpoint
  oracle := op.oracle?.or t.oracle

end Operation

def run (history : List Operation) : Registry := history.foldl Operation.apply empty

/-- The operations after the last removal of the network. -/
def since (g : Hash) (history : List Operation) : List Operation :=
  history.rtakeWhile (· ≠ .remove g)

/-- Those of them that name the network. -/
def about (g : Hash) (history : List Operation) : List Operation :=
  (since g history).filter (·.genesis = g)

variable {r : Registry} {g : Hash} {op : Operation} {history : List Operation}

theorem find?_apply (r : Registry) (op : Operation) (g : Hash) :
    (op.apply r).find? g =
      if g = op.genesis then
        if op.isRemoval then none else some (op.enter ((r.find? g).getD {}))
      else r.find? g := by
  cases op with
  | addNetwork k => exact find?_change r k g _
  | insertCheckpoint k c => exact find?_change r k g _
  | insertOracle k o => exact find?_change r k g _
  | remove k => exact find?_remove r k g

/-- An operation touches no other network. -/
theorem find?_apply_of_ne (h : g ≠ op.genesis) : (op.apply r).find? g = r.find? g := by
  rw [find?_apply, if_neg h]

/-- What an operation does not enter stays as it is, and what is blank stays blank. -/
theorem bind_find?_apply {β : Type} {part : Trusted → Option β} (h : ¬ op.isRemoval)
    (hblank : part {} = none) (hpart : ∀ t, part (op.enter t) = part t) (g : Hash) :
    ((op.apply r).find? g).bind part = (r.find? g).bind part := by
  rw [find?_apply]
  by_cases hg : g = op.genesis
  · rw [if_pos hg, if_neg h, Option.bind_some, hpart]
    cases r.find? g with
    | none => exact hblank
    | some t => rfl
  · rw [if_neg hg]

theorem checkpoint?_apply (h : ¬ op.isRemoval) (hc : op.checkpoint? = none) (g : Hash) :
    (op.apply r).checkpoint? g = r.checkpoint? g := by
  apply bind_find?_apply h rfl
  intro t
  rw [Operation.enter, hc, Option.none_or]

theorem oracle?_apply (h : ¬ op.isRemoval) (ho : op.oracle? = none) (g : Hash) :
    (op.apply r).oracle? g = r.oracle? g := by
  apply bind_find?_apply h rfl
  intro t
  rw [Operation.enter, ho, Option.none_or]

theorem about_remove (g : Hash) (history : List Operation) : about g (history ++ [.remove g]) = [] := by
  rw [about, since, List.rtakeWhile_concat_neg _ _ _ (by simp)]
  rfl

theorem about_concat (h : op ≠ .remove g) : about g (history ++ [op]) =
    if g = op.genesis then about g history ++ [op] else about g history := by
  rw [about, since, List.rtakeWhile_concat_pos _ _ _ (by simpa using h), List.filter_append, about,
    since]
  by_cases hg : g = op.genesis
  · rw [if_pos hg, List.filter_cons_of_pos (by simp [hg]), List.filter_nil]
  · rw [if_neg hg, List.filter_cons_of_neg (by simpa using Ne.symm hg), List.filter_nil,
      List.append_nil]

/-- They are no removals. -/
theorem isRemoval_of_mem_about (h : op ∈ about g history) : op.isRemoval = false := by
  obtain ⟨hsince, hgenesis⟩ := List.mem_filter.mp h
  have hne := List.mem_rtakeWhile_imp hsince
  rw [decide_eq_true_eq] at hne hgenesis
  cases op with
  | remove k => exact absurd (congrArg Operation.remove hgenesis) hne
  | _ => rfl

/-- What is trusted after operations on one network: the last of each kind. -/
def remember (ops : List Operation) : Option Trusted :=
  if ops.isEmpty then none
  else some {
    checkpoint := (ops.filterMap (·.checkpoint?)).getLast?
    oracle := (ops.filterMap (·.oracle?)).getLast? }

private theorem getLast?_filterMap_concat {α β : Type} (f : α → Option β) (l : List α) (a : α) :
    ((l ++ [a]).filterMap f).getLast? = (f a).or (l.filterMap f).getLast? := by
  rw [List.filterMap_append, List.getLast?_append]
  cases h : f a with
  | none => rw [List.filterMap_cons_none h]; rfl
  | some b => rw [List.filterMap_cons_some h]; rfl

theorem remember_concat (ops : List Operation) (op : Operation) :
    remember (ops ++ [op]) = some (op.enter ((remember ops).getD {})) := by
  have hlast : remember (ops ++ [op]) = some {
      checkpoint := op.checkpoint?.or (ops.filterMap (·.checkpoint?)).getLast?
      oracle := op.oracle?.or (ops.filterMap (·.oracle?)).getLast? } := by
    rw [remember, if_neg (by simp), getLast?_filterMap_concat, getLast?_filterMap_concat]
  rw [hlast]
  cases ops with
  | nil => rfl
  | cons a ops => rfl

theorem find?_run (history : List Operation) (g : Hash) :
    (run history).find? g = remember (about g history) := by
  induction history using List.reverseRecOn with
  | nil => rfl
  | append_singleton history op ih =>
    rw [run, List.foldl_append]
    show (op.apply (run history)).find? g = _
    rw [find?_apply, ih]
    by_cases hg : g = op.genesis
    · rw [if_pos hg]
      cases hr : op.isRemoval with
      | true =>
        have hop : op = .remove g := by
          cases op with
          | remove k => rw [hg]; rfl
          | _ => cases hr
        rw [hop, about_remove]
        rfl
      | false =>
        have hne : op ≠ .remove g := by
          rintro rfl
          cases hr
        rw [about_concat hne, if_pos hg, remember_concat]
        rfl
    · have hne : op ≠ .remove g := by
        rintro rfl
        exact hg rfl
      rw [if_neg hg, about_concat hne, if_neg hg]

theorem checkpoint?_run (history : List Operation) (g : Hash) :
    (run history).checkpoint? g = ((about g history).filterMap (·.checkpoint?)).getLast? := by
  rw [checkpoint?, find?_run]
  cases about g history <;> rfl

theorem oracle?_run (history : List Operation) (g : Hash) :
    (run history).oracle? g = ((about g history).filterMap (·.oracle?)).getLast? := by
  rw [oracle?, find?_run]
  cases about g history <;> rfl

theorem isKnown_run_iff (history : List Operation) (g : Hash) :
    (run history).isKnown g ↔
      ∃ op ∈ since g history, op.genesis = g ∧ op.isRemoval = false := by
  have hknown : (run history).isKnown g ↔ about g history ≠ [] := by
    rw [isKnown, find?_run]
    cases about g history <;> simp [remember]
  rw [hknown]
  constructor
  · intro hne
    obtain ⟨op, hop⟩ := List.exists_mem_of_ne_nil _ hne
    obtain ⟨hsince, hgenesis⟩ := List.mem_filter.mp hop
    exact ⟨op, hsince, of_decide_eq_true hgenesis, isRemoval_of_mem_about hop⟩
  · rintro ⟨op, hsince, hgenesis, -⟩
    exact List.ne_nil_of_mem (List.mem_filter.mpr ⟨hsince, decide_eq_true hgenesis⟩)

theorem isKnown_iff_mem (r : Registry) (g : Hash) : r.isKnown g ↔ g ∈ r.entries.map (·.1) := by
  rw [isKnown, find?, List.lookup_isSome_iff, List.mem_map]
  exact exists_congr fun e => and_congr_right fun _ => beq_iff_eq.trans eq_comm

theorem encard_isKnown (r : Registry) : {g | r.isKnown g}.encard = r.size := by
  have hknown : {g | r.isKnown g} = ((r.entries.map (·.1)).toFinset : Set Hash) := by
    ext g
    rw [List.coe_toFinset]
    exact isKnown_iff_mem r g
  rw [hknown, Set.encard_coe_eq_coe_finsetCard, List.toFinset_card_of_nodup r.nodup_keys,
    List.length_map, size]

/-- A digest is verified when a checkpoint is trusted that accepts it. -/
theorem verify_iff (r : Registry) (g digest : Hash) :
    (r.verify g digest).1 ↔ ∃ c, r.checkpoint? g = some c ∧ c.accepts digest := by
  rw [verify]
  cases r.checkpoint? g with
  | none => simp
  | some c => simp

/-- The registry answers with what was entered last since the last removal. -/
structure Recalls (r : Registry) (history : List Operation) : Prop where
  checkpoint (g : Hash) :
    r.checkpoint? g = ((about g history).filterMap (·.checkpoint?)).getLast?
  oracle (g : Hash) : r.oracle? g = ((about g history).filterMap (·.oracle?)).getLast?
  known (g : Hash) :
    r.isKnown g ↔ ∃ op ∈ since g history, op.genesis = g ∧ op.isRemoval = false
  size : {g | r.isKnown g}.encard = r.size
  verify (g digest : Hash) :
    (r.verify g digest).1 ↔ ∃ c, r.checkpoint? g = some c ∧ c.accepts digest

/-- An operation leaves other networks alone, and data of a kind that it does not enter. -/
structure Spares (op : Operation) (before after : Registry) : Prop where
  network (g : Hash) : g ≠ op.genesis → after.find? g = before.find? g
  checkpoint (g : Hash) : op.checkpoint? = none → after.checkpoint? g = before.checkpoint? g
  oracle (g : Hash) : op.oracle? = none → after.oracle? g = before.oracle? g

/-- After any history the last entry of each kind counts for each network, and whatever is entered
next erases nothing else. -/
theorem last_entry_counts (history : List Operation) :
    Recalls (run history) history ∧
    ∀ op, op.isRemoval = false → Spares op (run history) (run (history ++ [op])) := by
  refine ⟨⟨checkpoint?_run history, oracle?_run history, isKnown_run_iff history,
    encard_isKnown _, verify_iff _⟩, fun op hop => ?_⟩
  have hrun : run (history ++ [op]) = op.apply (run history) := by
    rw [run, List.foldl_append]
    rfl
  have hadds : ¬ op.isRemoval := Bool.eq_false_iff.mp hop
  rw [hrun]
  exact ⟨fun g => find?_apply_of_ne, fun g hc => checkpoint?_apply hadds hc g,
    fun g ho => oracle?_apply hadds ho g⟩

end HardFork.Registry
