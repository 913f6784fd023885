import HardFork.Proofs.Json.Uniform
import Mathlib.Tactic.Choose

/-! # Readers of records

A record is read uniformly when its fields are: from a list, field by field, and from an object,
where each member is taken by the field of its name or passed over. -/
namespace HardFork.Json

variable {α β δ : Type} {t : Tree} {first : Bool} {body : List Char}

theorem Answers.field {name : String} {get : δ → Option β} {set : δ → β → δ}
    {read : Nat → Reader β} {levels : Nat} {r : Option β} (h : Answers (read levels) t r) (d : δ) :
    Answers ((Field.of name get set read).read levels d) t (r.map (set d)) := by
  rw [Option.map_eq_bind]
  exact h.bind (some ∘ set d) fun cs => by
    rw [Field.of, toOption_bind]
    rfl

/-- A field is read uniformly when its value is. -/
theorem Uniform.field {name : String} {get : δ → Option β} {set : δ → β → δ} {read : Nat → Reader β}
    {levels : Nat} (h : Uniform (read levels)) (d : δ) :
    Uniform ((Field.of name get set read).read levels d) := by
  intro t
  obtain ⟨r, hr⟩ := h t
  exact ⟨r.map (set d), hr.field d⟩

theorem toOption_closeList_of_ne {gap : List Char} {c : Char} (hg : gap.all isSpace)
    (hspace : isSpace c = false) (hc : c ≠ ']') (cs : List Char) :
    (closeList (gap ++ c :: cs)).toOption = none := by
  rw [closeList, skipSpace_append hg, skipSpace_cons hspace]
  show (if c = ']' then _ else _ : Except Refusal (List Char)).toOption = none
  rw [if_neg hc]
  split <;> rfl

theorem toOption_closeList {xs : List Tree} (h : WritesItems first xs body) (rest : List Char) :
    (closeList (body ++ rest)).toOption = if xs.isEmpty then some rest else none := by
  cases h with
  | close hg =>
    rw [List.append_assoc, List.singleton_append, closeList, skipSpace_append hg,
      skipSpace_cons (by decide)]
    rfl
  | item ho hx _ =>
    simp only [List.append_assoc]
    cases ho with
    | first hg =>
      obtain ⟨c, cs, rfl, hc⟩ := hx.begins
      have hclose : c ≠ ']' := by
        rintro rfl
        exact absurd (Tree.startsValue_of_begins hc) (by decide)
      exact toOption_closeList_of_ne hg (Tree.isSpace_of_begins hc) hclose _
    | comma hb _ =>
      rw [List.append_assoc]
      exact toOption_closeList_of_ne hb (by decide) (by decide) _

/-- What the items of a list make of a draft: each fills the next slot, and the slots for which
there are no items are left. -/
def inOrder {ι : Type} (step : ι → δ → Tree → Option δ) : List ι → δ → List Tree → Option δ
  | [], d, xs => if xs.isEmpty then some d else none
  | _ :: _, d, [] => some d
  | i :: slots, d, x :: xs => (step i d x).bind fun d => inOrder step slots d xs

theorem toOption_readFields {ι : Type} {field : ι → Field δ} {step : ι → δ → Tree → Option δ}
    {levels : Nat} {slots : List ι}
    (h : ∀ i ∈ slots, ∀ d x, Answers ((field i).read levels d) x (step i d x)) (d : δ)
    {xs : List Tree} (hbody : WritesItems first xs body) (rest : List Char) :
    (Record.readFields levels (slots.map field) first d (body ++ rest)).toOption =
      (inOrder step slots d xs).map (·, rest) := by
  induction slots generalizing d xs first body with
  | nil =>
    have hclose := toOption_closeList hbody rest
    rw [List.map_nil, Record.readFields, toOption_bind, hclose, inOrder]
    cases xs <;> rfl
  | cons i slots ih =>
    cases hbody with
    | close hg =>
      have hclose := nextItem_close first hg rest
      rw [List.append_assoc, List.singleton_append, List.map_cons, Record.readFields, hclose]
      rfl
    | @item _ lead x text xs body ho hx hs =>
      have hnext := nextItem_item ho hx (body ++ rest)
      have hfield := h i List.mem_cons_self d x text hx [] (body ++ rest) rfl (hs.delimited rest)
      rw [List.nil_append] at hfield
      rw [List.append_assoc, List.append_assoc, List.map_cons, Record.readFields, hnext, inOrder]
      show ((field i).read levels d (text ++ (body ++ rest)) >>= _).toOption = _
      rw [toOption_bind, hfield]
      cases step i d x with
      | none => rfl
      | some d' => exact ih (fun j hj => h j (List.mem_cons_of_mem i hj)) d' hs

namespace Record

variable {r : Record δ α} {levels : Nat}

/-- A member of another name is passed over. -/
theorem answersBehind_of_none {key : String} (hf : (r.fields.find? fun f => f.name = key) = none)
    (d : δ) (t : Tree) : AnswersBehind (r.readMember levels d key) t (some d) := by
  intro colon text hc ht rest hd
  obtain ⟨gap, hg, hcolon⟩ := readColon_append hc
  have hskip := skipValue_append ht hg hd
  simp only [readMember, hf, hcolon, bind, Except.bind, hskip]
  rfl

/-- A field is given once. -/
theorem answersBehind_of_isGiven {key : String} {f : Field δ} {d : δ}
    (hf : (r.fields.find? fun f => f.name = key) = some f) (hg : f.isGiven d) (t : Tree) :
    AnswersBehind (r.readMember levels d key) t none := by
  intro colon text _ _ rest _
  simp only [readMember, hf, hg, if_true]
  rfl

theorem answersBehind_of_some {key : String} {f : Field δ} {d : δ}
    (hf : (r.fields.find? fun f => f.name = key) = some f) (hg : f.isGiven d = false)
    {a : Option δ} (ha : Answers (f.read levels d) t a) :
    AnswersBehind (r.readMember levels d key) t a := by
  intro colon text hc ht rest hd
  simp only [readMember, hf, hg, Bool.false_eq_true, if_false]
  exact ha.behind colon text hc ht rest hd

theorem readMember_uniform (h : ∀ f ∈ r.fields, ∀ d, Uniform (f.read levels d)) (d : δ)
    (key : String) (t : Tree) : ∃ a, AnswersBehind (r.readMember levels d key) t a := by
  cases hf : r.fields.find? fun f => f.name = key with
  | none => exact ⟨some d, answersBehind_of_none hf d t⟩
  | some f =>
    cases hg : f.isGiven d with
    | true => exact ⟨none, answersBehind_of_isGiven hf hg t⟩
    | false =>
      obtain ⟨a, ha⟩ := h f (List.mem_of_find?_eq_some hf) d t
      exact ⟨a, answersBehind_of_some hf hg ha⟩

/-- An object is read as what its members make of the blank draft, one after the other. -/
theorem answers_object {step : δ → String → Tree → Option δ}
    (h : ∀ d name t, AnswersBehind (r.readMember levels d name) t (step d name t))
    (ms : List (Literal × Tree)) :
    Answers (r.read (levels+1)) (.object ms)
      ((ms.foldlM (memberStep step) r.blank).bind fun d => (r.complete d).toOption) := by
  refine (r.skipsSpace_read (levels+1)).answers fun text rest ht _ => ?_
  cases ht with
  | @object _ body hbody =>
    have hmembers := toOption_readMembers h hbody (hbody.fuel rest) r.blank rest
    show (r.readObject levels (body ++ rest)).toOption = _
    rw [readObject, toOption_bind, toOption_mapError, hmembers]
    cases ms.foldlM (memberStep step) r.blank with
    | none => rfl
    | some d =>
      simp only [Option.map_some, Option.bind_some]
      cases r.complete d <;> rfl

/-- A list is read as what its items make of the blank draft in the order of the fields. -/
theorem answers_array {ι : Type} {field : ι → Field δ} {step : ι → δ → Tree → Option δ}
    {slots : List ι} (hfields : r.fields = slots.map field)
    (h : ∀ i ∈ slots, ∀ d x, Answers ((field i).read levels d) x (step i d x)) (xs : List Tree) :
    Answers (r.read (levels+1)) (.array xs)
      ((inOrder step slots r.blank xs).bind fun d => (r.complete d).toOption) := by
  refine (r.skipsSpace_read (levels+1)).answers fun text rest ht _ => ?_
  cases ht with
  | @array _ body hbody =>
    have hread := toOption_readFields h r.blank hbody rest
    show (r.readSequence levels (body ++ rest)).toOption = _
    rw [readSequence, toOption_bind, toOption_mapError, hfields, hread]
    cases inOrder step slots r.blank xs with
    | none => rfl
    | some d =>
      simp only [Option.map_some, Option.bind_some]
      cases r.complete d <;> rfl

/-- A record is read uniformly when its fields are. -/
theorem uniform_read (h : ∀ levels, ∀ f ∈ r.fields, ∀ d, Uniform (f.read levels d))
    (levels : Nat) : Uniform (r.read levels) := by
  intro t
  cases levels with
  | zero =>
    refine ⟨none, (r.skipsSpace_read 0).refuses fun c cs hc => ?_⟩
    rw [read, skipSpace_cons (Tree.isSpace_of_begins hc)]
    split
    · rfl
    · rfl
    · exact toOption_wrongType _ _
  | succ levels =>
    cases t with
    | array xs =>
      have hitems : ∀ f d x, ∃ a, f ∈ r.fields → Answers (f.read levels d) x a := by
        intro f d x
        by_cases hf : f ∈ r.fields
        · obtain ⟨a, ha⟩ := h levels f hf d x
          exact ⟨a, fun _ => ha⟩
        · exact ⟨none, fun hmem => absurd hmem hf⟩
      choose step hstep using hitems
      exact ⟨_, answers_array (List.map_id r.fields).symm (fun f hf d x => hstep f d x hf) xs⟩
    | object ms =>
      have hmembers := readMember_uniform (h levels)
      choose step hstep using hmembers
      exact ⟨_, answers_object hstep ms⟩
    | _ =>
      refine ⟨none, (r.skipsSpace_read (levels+1)).refuses fun c cs hc => ?_⟩
      rw [read, skipSpace_cons (Tree.isSpace_of_begins hc)]
      split
      · rename_i heq
        obtain rfl := (List.cons.inj heq).1
        obtain ⟨xs, hxs⟩ := Tree.eq_array_of_begins hc
        cases hxs
      · rename_i heq
        obtain rfl := (List.cons.inj heq).1
        obtain ⟨ms, hms⟩ := Tree.eq_object_of_begins hc
        cases hms
      · exact toOption_wrongType _ _

end Record
end HardFork.Json
