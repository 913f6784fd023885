import HardFork.Proofs.Json.Number
import HardFork.Proofs.Json.Text

/-! # From item to item

The first character of a text tells the kind of its value, and so where an item begins and where a
bracket is closed. -/
namespace HardFork.Json

variable {t : Tree} {c : Char} {first : Bool} {gap lead colon text body rest : List Char}

def Tree.begins (c : Char) : Tree → Bool
  | null => c = 'n'
  | bool b => c = if b then 't' else 'f'
  | number _ => startsNumeral c
  | string _ => c = '"'
  | array _ => c = '['
  | object _ => c = '\x7b'

theorem WritesNumber.starts {n : Numeral} (h : WritesNumber n text) :
    ∃ c cs, text = c :: cs ∧ startsNumeral c := by
  obtain @⟨negative, whole, fraction, exponent, behind, last, hw, hf, he⟩ := h
  cases negative with
  | true => exact ⟨'-', whole ++ (behind ++ last), rfl, rfl⟩
  | false =>
    obtain ⟨c, cs, rfl, hc⟩ := hw.1.exists_cons
    exact ⟨c, cs ++ (behind ++ last), rfl, startsNumeral_of_isDigit hc⟩

theorem Writes.begins (h : Writes t text) : ∃ c cs, text = c :: cs ∧ t.begins c := by
  cases h with
  | null => exact ⟨'n', _, rfl, rfl⟩
  | bool b =>
    cases b with
    | true => exact ⟨'t', _, rfl, rfl⟩
    | false => exact ⟨'f', _, rfl, rfl⟩
  | number h => exact h.starts
  | string s => exact ⟨'"', _, rfl, rfl⟩
  | array => exact ⟨'[', _, rfl, rfl⟩
  | object => exact ⟨'\x7b', _, rfl, rfl⟩

namespace Tree

theorem startsValue_of_begins (h : t.begins c) : startsValue c := by
  cases t with
  | bool b => cases b <;> simp_all [begins, startsValue]
  | _ => simp_all [begins, startsValue]

theorem isSpace_of_begins (h : t.begins c) : isSpace c = false :=
  not_isSpace_of_startsValue (startsValue_of_begins h)

theorem eq_null_of_begins (h : t.begins 'n') : t = .null := by
  cases t with
  | null => rfl
  | bool b => cases b <;> cases h
  | _ => cases h

theorem eq_bool_of_begins (h : t.begins 't' ∨ t.begins 'f') : ∃ b, t = .bool b := by
  cases t with
  | bool b => exact ⟨b, rfl⟩
  | _ => rcases h with h | h <;> cases h

theorem eq_number_of_begins (hc : startsNumeral c) (h : t.begins c) : ∃ n, t = .number n := by
  cases t with
  | number n => exact ⟨n, rfl⟩
  | bool b =>
    obtain rfl := of_decide_eq_true h
    cases b <;> cases hc
  | _ =>
    obtain rfl := of_decide_eq_true h
    cases hc

theorem eq_string_of_begins (h : t.begins '"') : ∃ s, t = .string s := by
  cases t with
  | string s => exact ⟨s, rfl⟩
  | bool b => cases b <;> cases h
  | _ => cases h

theorem eq_array_of_begins (h : t.begins '[') : ∃ xs, t = .array xs := by
  cases t with
  | array xs => exact ⟨xs, rfl⟩
  | bool b => cases b <;> cases h
  | _ => cases h

theorem eq_object_of_begins (h : t.begins '\x7b') : ∃ ms, t = .object ms := by
  cases t with
  | object ms => exact ⟨ms, rfl⟩
  | bool b => cases b <;> cases h
  | _ => cases h

end Tree

theorem delimited_gap (hg : gap.all isSpace) (hc : endsValue c) (rest : List Char) :
    Delimited (gap ++ c :: rest) := by
  cases gap with
  | nil => exact delimited_cons hc rest
  | cons d gap =>
    have hd : isSpace d := List.all_eq_true.mp hg d List.mem_cons_self
    exact delimited_cons (by simp [endsValue, hd]) _

theorem Opens.delimited (h : Opens false lead) (rest : List Char) : Delimited (lead ++ rest) := by
  obtain - | @⟨before, after, hb, -⟩ := h
  rw [List.append_assoc, List.cons_append]
  exact delimited_gap hb (by decide) _

theorem WritesItems.delimited {xs : List Tree} (h : WritesItems false xs body) (rest : List Char) :
    Delimited (body ++ rest) := by
  cases h with
  | close hg =>
    rw [List.append_assoc]
    exact delimited_gap hg (by decide) rest
  | item ho =>
    rw [List.append_assoc]
    exact ho.delimited _

theorem WritesMembers.delimited {ms : List (Literal × Tree)} (h : WritesMembers false ms body)
    (rest : List Char) : Delimited (body ++ rest) := by
  cases h with
  | close hg =>
    rw [List.append_assoc]
    exact delimited_gap hg (by decide) rest
  | member ho =>
    rw [List.append_assoc]
    exact ho.delimited _

theorem readColon_append (h : IsColon colon) :
    ∃ gap, gap.all isSpace ∧ ∀ rest, readColon (colon ++ rest) = .ok (gap ++ rest) := by
  obtain @⟨before, after, hb, ha⟩ := h
  refine ⟨after, ha, fun rest => ?_⟩
  rw [List.append_assoc, List.cons_append, readColon, skipSpace_append hb,
    skipSpace_cons (by decide)]
  rfl

theorem nextItem_close (first : Bool) (hg : gap.all isSpace) (rest : List Char) :
    nextItem first (gap ++ ']' :: rest) = .ok (.close rest) := by
  rw [nextItem, skipSpace_append hg, skipSpace_cons (by decide)]
  rfl

theorem nextItem_append (ho : Opens first lead) (hc : startsValue c) (cs : List Char) :
    nextItem first (lead ++ c :: cs) = .ok (.more () (c :: cs)) := by
  have hspace := not_isSpace_of_startsValue hc
  have hne : c ≠ ']' := by
    rintro rfl
    exact absurd hc (by decide)
  cases ho with
  | first hg =>
    rw [nextItem, skipSpace_append hg, skipSpace_cons hspace]
    simp only [hne, if_false, if_true]
  | comma hb ha =>
    rw [List.append_assoc, List.cons_append, nextItem, skipSpace_append hb,
      skipSpace_cons (by decide)]
    simp only [skipSpace_append ha, skipSpace_cons hspace, hne, if_false, Bool.false_eq_true,
      if_true]
    rfl

theorem nextKey_close (first : Bool) (hg : gap.all isSpace) (rest : List Char) :
    nextKey first (gap ++ '\x7d' :: rest) = .ok (.close rest) := by
  rw [nextKey, skipSpace_append hg, skipSpace_cons (by decide)]
  rfl

theorem nextKey_append (ho : Opens first lead) (cs : List Char) :
    nextKey first (lead ++ '"' :: cs) = readKey ('"' :: cs) := by
  cases ho with
  | first hg =>
    rw [nextKey, skipSpace_append hg, skipSpace_cons (by decide)]
    rfl
  | comma hb ha =>
    rw [List.append_assoc, List.cons_append, nextKey, skipSpace_append hb,
      skipSpace_cons (by decide)]
    simp only [skipSpace_append ha, skipSpace_cons (by decide : isSpace '"' = false)]
    rfl

/-- A key is read as the name that its literal spells. -/
theorem toOption_nextKey (ho : Opens first lead) (key : Literal) (rest : List Char) :
    (nextKey first (lead ++ (key.text ++ rest))).toOption = key.name?.map (.more · rest) := by
  rw [Literal.text, List.cons_append, nextKey_append ho, readKey, toOption_bind,
    toOption_readString]
  cases key.name? <;> rfl

theorem nextKey_quote (ho : Opens first lead) (name : String) (rest : List Char) :
    nextKey first (lead ++ (quote name ++ rest)) = .ok (.more name rest) := by
  rw [quote_append, nextKey_append ho, readKey, readString_quote]
  rfl

end HardFork.Json
