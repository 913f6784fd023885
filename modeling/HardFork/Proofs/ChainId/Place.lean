import HardFork.Proofs.MemberOrder

/-! # The place of a chain id in a document

The value that stands there fills one slot of the draft. No other value looks at this slot, so the
draft of the same document with another value there is the same but for this slot. -/
namespace HardFork
open Json
namespace Document

variable {answer : (slot : Slot) → Tree → Option slot.Value} {slot : Slot} {d d' : Draft}

theorem fill_set (hd : (d.view slot).isSome) (v : slot.Value) (filling : Option Filling) :
    (slot.set d v).fill filling = (d.fill filling).map (slot.set · v) := by
  cases filling with
  | none => rfl
  | some p =>
    simp only [Draft.fill]
    by_cases h : p.1 = slot
    · subst h
      rw [Draft.view_set, Function.update_self, if_pos hd, if_pos Option.isSome_some]
      rfl
    · rw [Draft.view_set, Function.update_of_ne h]
      split
      · rfl
      · rw [Slot.set_comm (Ne.symm h)]
        rfl

/-- A filled slot stays filled. -/
theorem isSome_view_of_fill (hd : (d.view slot).isSome) {filling : Option Filling}
    (h : d.fill filling = some d') : (d'.view slot).isSome := by
  cases filling with
  | none =>
    cases h
    exact hd
  | some p =>
    obtain ⟨-, ⟨⟩⟩ := Option.ite_none_left_eq_some.mp h
    by_cases hp : slot = p.1
    · subst hp
      rw [Draft.view_set, Function.update_self]
      rfl
    · rwa [Draft.view_set, Function.update_of_ne hp]

-- The slot is filled in both drafts, so both refuse one more member of its name.
theorem foldlM_set (hd : (d.view slot).isSome) (v : slot.Value) (ms : List (Literal × Tree)) :
    ms.foldlM (memberStep (step answer)) (slot.set d v) =
      (ms.foldlM (memberStep (step answer)) d).map (slot.set · v) := by
  induction ms generalizing d with
  | nil => rfl
  | cons m ms ih =>
    rw [List.foldlM_cons, List.foldlM_cons, memberStep_eq, memberStep_eq]
    cases filling? answer m with
    | none => rfl
    | some filling =>
      show ((slot.set d v).fill filling).bind _ = Option.map _ ((d.fill filling).bind _)
      rw [fill_set hd]
      cases hfill : d.fill filling with
      | none => rfl
      | some d' => exact ih (isSome_view_of_fill hd hfill)

/-- An item of a list fills its slot. -/
def fillNext (answer : (slot : Slot) → Tree → Option slot.Value) (slot : Slot) (d : Draft)
    (t : Tree) : Option Draft := (answer slot t).map (slot.set d)

theorem inOrder_set {slots : List Slot} (hslot : slot ∉ slots) (v : slot.Value) (xs : List Tree) :
    inOrder (fillNext answer) slots (slot.set d v) xs =
      (inOrder (fillNext answer) slots d xs).map (slot.set · v) := by
  induction slots generalizing d xs with
  | nil =>
    rw [inOrder, inOrder]
    split <;> rfl
  | cons other slots ih =>
    have hne : slot ≠ other := fun h => hslot (h ▸ List.mem_cons_self)
    have hslots : slot ∉ slots := fun h => hslot (List.mem_cons_of_mem other h)
    cases xs with
    | nil => rfl
    | cons x xs =>
      simp only [inOrder, fillNext]
      cases answer other x with
      | none => rfl
      | some w =>
        simp only [Option.map_some, Option.bind_some, Slot.set_comm hne]
        exact ih hslots xs

/-- A member of this name, or the first item of a list. -/
inductive Place : (Tree → Tree) → Prop
  | member (before : List (Literal × Tree)) {key : Literal} (after : List (Literal × Tree))
      (hkey : key.name? = some "chainId") : Place fun t => .object (before ++ (key, t) :: after)
  | item (items : List Tree) : Place fun t => .array (t :: items)

/-- What a document says as a draft; one that is neither an object nor a list says nothing. -/
def draft? (answer : (slot : Slot) → Tree → Option slot.Value) : Tree → Option Draft
  | .object ms => ms.foldlM (memberStep (step answer)) {}
  | .array xs => inOrder (fillNext answer) Slot.all {} xs
  | _ => none

variable {context : Tree → Tree} {t₀ t : Tree}

/-- A member of the name of a slot. -/
theorem memberStep_of_name {key : Literal} (hkey : key.name? = some slot.key) (d : Draft)
    (t : Tree) : memberStep (step answer) d (key, t) =
      if (d.view slot).isSome then none else (answer slot t).map (slot.set d) := by
  rw [memberStep, hkey, Option.bind_some, step, Slot.ofName?_key]

namespace Place

/-- With another value at the place of the chain id the draft differs in its slot. -/
theorem draft?_eq (hplace : Place context) {v : Slot.chainId.Value}
    (hv : answer .chainId t = some v) (hd : draft? answer (context t₀) = some d) :
    draft? answer (context t) = some (Slot.chainId.set d v) := by
  cases hplace with
  | @member before key after hkey =>
    have hstep (d : Draft) (t : Tree) : memberStep (step answer) d (key, t) =
        if (d.view .chainId).isSome then none else (answer .chainId t).map (Slot.chainId.set d) :=
      memberStep_of_name hkey d t
    simp only [draft?, List.foldlM_append, List.foldlM_cons] at hd ⊢
    obtain ⟨d₁, hbefore, hd⟩ := Option.bind_eq_some_iff.mp hd
    obtain ⟨d₂, hmember, hafter⟩ := Option.bind_eq_some_iff.mp hd
    rw [hstep] at hmember
    obtain ⟨hfresh, hmember⟩ := Option.ite_none_left_eq_some.mp hmember
    obtain ⟨v₀, -, rfl⟩ := Option.map_eq_some_iff.mp hmember
    have hgiven : ((Slot.chainId.set d₁ v₀).view .chainId).isSome := rfl
    rw [hbefore]
    show (memberStep (step answer) d₁ (key, t)).bind _ = _
    rw [hstep, if_neg hfresh, hv, Option.map_some, Option.bind_some,
      ← Slot.set_set .chainId d₁ v₀ v, foldlM_set hgiven, hafter]
    rfl
  | item items =>
    obtain ⟨slots, hall, hslots⟩ : ∃ slots, Slot.all = .chainId :: slots ∧ Slot.chainId ∉ slots :=
      ⟨_, rfl, by decide⟩
    simp only [draft?, hall, inOrder, fillNext] at hd ⊢
    obtain ⟨d₁, hfirst, hitems⟩ := Option.bind_eq_some_iff.mp hd
    obtain ⟨v₀, -, rfl⟩ := Option.map_eq_some_iff.mp hfirst
    have hset : inOrder (fillNext answer) slots (Slot.chainId.set (Slot.chainId.set {} v₀) v) items =
        (inOrder (fillNext answer) slots (Slot.chainId.set {} v₀) items).map (Slot.chainId.set · v) :=
      inOrder_set hslots v items
    rw [Slot.set_set] at hset
    rw [hv, Option.map_some, Option.bind_some, hset, hitems]
    rfl

theorem answers (hplace : Place context)
    (hanswer : ∀ (slot : Slot) t, Answers (slot.read 126) t (answer slot t)) (t : Tree) :
    Answers (record.read maxLevels) (context t)
      ((draft? answer (context t)).bind fun d => (record.complete d).toOption) := by
  cases hplace with
  | member before after => exact Record.answers_object (answersBehind_step hanswer) _
  | item items =>
    have hfields : record.fields = Slot.all.map Slot.field := rfl
    refine Record.answers_array hfields (fun slot _ d x => ?_) (t :: items)
    rw [Slot.field_eq]
    exact (hanswer slot x).field d

end Place
end Document
end HardFork
