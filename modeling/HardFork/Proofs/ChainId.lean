import HardFork.ChainId
import HardFork.Proofs.Json.Record

/-! # Chain ids read back

An id is written as a number where a word holds it and as text beyond. Either way its decimal digits
are read from the left, and since the value of the first digits is never above that of all of them,
no step exceeds the limit. -/
namespace HardFork
open Decimal

namespace Text

theorem not_isBlank_of_isDigit {c : Char} (h : c.isDigit) : isBlank c = false := by
  have hall : ∀ n < 58, 48 ≤ n → isBlank (Char.ofNat n) = false := by decide
  have hc : 48 ≤ c.toNat ∧ c.toNat ≤ 57 := by simpa [Char.isDigit, UInt32.le_iff_toNat_le] using h
  simpa using hall c.toNat (Nat.lt_succ_of_le hc.2) hc.1

theorem dropWhile_isBlank {cs : List Char} (h : ∀ c ∈ cs, isBlank c = false) :
    cs.dropWhile isBlank = cs := by
  cases cs with
  | nil => rfl
  | cons c cs => exact List.dropWhile_cons_of_neg (by simp [h c List.mem_cons_self])

theorem trim_eq_self {cs : List Char} (h : ∀ c ∈ cs, isBlank c = false) : trim cs = cs := by
  have hr : ∀ c ∈ cs.reverse, isBlank c = false := fun c hc => h c (List.mem_reverse.mp hc)
  rw [trim, dropWhile_isBlank h, trimEnd, dropWhile_isBlank hr, List.reverse_reverse]

end Text

namespace ChainId

theorem readDecimal_eq_ok {ds : List Char} (hds : ∀ c ∈ ds, c.isDigit) {id : ChainId}
    (h : Nat.ofDigitChars 10 ds id.val < limit) :
    readDecimal id ds = .ok ⟨Nat.ofDigitChars 10 ds id.val, h⟩ := by
  induction ds generalizing id with
  | nil => rfl
  | cons c cs ih =>
    have hvalue : Nat.ofDigitChars 10 (c :: cs) id.val =
        Nat.ofDigitChars 10 cs (10*id.val+(c.toNat-48)) := Nat.ofDigitChars_cons
    have hle : 10*id.val+(c.toNat-48) ≤ Nat.ofDigitChars 10 cs (10*id.val+(c.toNat-48)) := by
      rw [Nat.ofDigitChars_eq_ofDigitChars_zero]
      exact Nat.le_add_right_of_le (Nat.le_mul_of_pos_left _ (Nat.pow_pos (by decide)))
    have hlt : 10*id.val+(c.toNat-48) < limit := Nat.lt_of_le_of_lt hle (hvalue ▸ h)
    rw [readDecimal, if_pos (hds c List.mem_cons_self)]
    simp only [hlt, dite_true]
    simp only [hvalue]
    exact ih (fun d hd => hds d (List.mem_cons_of_mem c hd)) (hvalue ▸ h)

theorem readNumeral_digits (id : ChainId) : readNumeral (digits id.val) = .ok id := by
  have hvalue : Nat.ofDigitChars 10 (digits id.val) (default : ChainId).val = id.val :=
    value_digits id.val
  have hdecimal := readDecimal_eq_ok (fun c hc => isDigit_of_mem_digits hc) (hvalue ▸ id.val_lt)
  rw [readNumeral, hdecimal]
  · simp only [hvalue]
  · intro rest h
    cases eq_nil_of_digits_eq h
  · intro rest h
    cases eq_nil_of_digits_eq h

theorem parse_digits (id : ChainId) : parse (String.ofList (digits id.val)) = .ok id := by
  have htrim : Text.trim (digits id.val) = digits id.val :=
    Text.trim_eq_self fun c hc => Text.not_isBlank_of_isDigit (isDigit_of_mem_digits hc)
  simp only [parse, String.toList_ofList, htrim, readNumeral_digits]
  rfl

theorem ofJson_toJson (id? : Option ChainId) : ofJson (id?.map toJson) = .ok id? := by
  cases id? with
  | none => rfl
  | some id =>
    rw [Option.map_some, toJson]
    split
    · rw [Json.nat, ofJson, parse_digits]
      rfl
    · rw [ofJson, show toString id = String.ofList (digits id.val) from rfl, parse_digits]
      rfl

open Json

theorem takes_readValue (id : ChainId) (levels : Nat) (layout : Option Nat) :
    Takes (readValue levels) (write layout id.toJson) id.toJson := by
  obtain ⟨list, object, hread⟩ := readValue_eq_readAny levels
  rw [hread, toJson]
  split
  · exact takes_readAny_nat list object id.val layout
  · exact takes_readAny_string list object (toString id) layout

theorem head?_write_toJson (id : ChainId) (layout : Option Nat) :
    (write layout id.toJson).head? ≠ some 'n' := by
  rw [toJson]
  split
  · exact head?_write_nat layout id.val
  · simp [write, quote]

/-- An id may be absent. -/
theorem takes_readOption (id? : Option ChainId) (levels : Nat) (layout : Option Nat) :
    Takes (readOption (readValue levels)) (write layout ((id?.map toJson).getD .null))
      (id?.map toJson) := by
  cases id? with
  | none => exact takes_readOption_none (readValue levels) layout
  | some id => exact (takes_readValue id levels layout).option (head?_write_toJson id layout)

end ChainId
end HardFork
