import HardFork.Hex

/-! # Octets read back from their digits

The text of some octets has one octet for each character, so reading it pair by pair gives them
back. -/
namespace HardFork

theorem utf8_ofList (cs : List Char) :
    utf8 (String.ofList cs) = cs.flatMap String.utf8EncodeChar := by
  rw [utf8, String.toList_ofList]

namespace Hex

/-- The octet of a digit. -/
def digitOctet (n : UInt8) : UInt8 := if n < 10 then 48+n else 87+n

theorem utf8EncodeChar_digit {n : UInt8} (h : n < 16) :
    String.utf8EncodeChar (digit n) = [digitOctet n] := by
  have hall : ∀ m < 16,
      String.utf8EncodeChar (digit (UInt8.ofNat m)) = [digitOctet (UInt8.ofNat m)] := by decide
  simpa using hall n.toNat h

theorem value_digitOctet {n : UInt8} (h : n < 16) (position : Nat) :
    value position (digitOctet n) = .ok n := by
  have hall : ∀ m < 16, value? (digitOctet (UInt8.ofNat m)) = some (UInt8.ofNat m) := by decide
  have hn : value? (digitOctet n) = some n := by simpa using hall n.toNat h
  rw [value, hn]

def octetDigits (octets : List UInt8) : List UInt8 :=
  octets.flatMap fun o => [digitOctet (o/16), digitOctet (o%16)]

theorem div_lt (o : UInt8) : o/16 < 16 := by
  rw [UInt8.lt_iff_toNat_lt, UInt8.toNat_div]
  have := o.toNat_lt
  simp
  omega

theorem mod_lt (o : UInt8) : o%16 < 16 := by
  rw [UInt8.lt_iff_toNat_lt, UInt8.toNat_mod]
  exact Nat.mod_lt _ (by decide)

theorem flatMap_digits (octets : List UInt8) :
    (digits octets).flatMap String.utf8EncodeChar = octetDigits octets := by
  induction octets with
  | nil => rfl
  | cons o octets ih =>
    simp only [digits, octetDigits, List.flatMap_cons] at ih ⊢
    simp [ih, utf8EncodeChar_digit (div_lt o), utf8EncodeChar_digit (mod_lt o)]

theorem length_octetDigits (octets : List UInt8) :
    (octetDigits octets).length = 2*octets.length := by
  induction octets with
  | nil => rfl
  | cons o octets ih =>
    simp only [octetDigits, List.flatMap_cons, List.length_append, List.length_cons] at ih ⊢
    simp [ih]
    omega

theorem readPairs_octetDigits (octets : List UInt8) (position : Nat) :
    readPairs position (octetDigits octets) = .ok octets := by
  induction octets generalizing position with
  | nil => rfl
  | cons o octets ih =>
    have ho : 16*(o/16)+o%16 = o := by
      apply UInt8.toNat_inj.mp
      have := o.toNat_lt
      simp
      omega
    have hrest := ih (position+2)
    simp only [octetDigits, List.flatMap_cons] at hrest ⊢
    simp only [List.cons_append, List.nil_append, readPairs, value_digitOctet (div_lt o),
      value_digitOctet (mod_lt o), hrest, bind, Except.bind, pure, Except.pure, ho]

section Parse

variable {width : Nat} {text : String}

theorem parse_of_length_ne (h : (withoutMark (utf8 text)).length ≠ 2*width) :
    parse width text = .error (.invalidLength width ((withoutMark (utf8 text)).length/2)) := by
  simp only [parse, dif_neg h]

theorem map_parse (h : (withoutMark (utf8 text)).length = 2*width) :
    (parse width text).map Octets.toList = readPairs 0 (withoutMark (utf8 text)) := by
  simp only [parse, dif_pos h]
  split
  · rename_i octets hread
    exact hread.symm
  · rename_i e hread
    exact hread.symm

theorem parse_eq_ok_iff {o : Octets width} :
    parse width text = .ok o ↔
      (withoutMark (utf8 text)).length = 2*width ∧
      readPairs 0 (withoutMark (utf8 text)) = .ok o.toList := by
  by_cases hl : (withoutMark (utf8 text)).length = 2*width
  · rw [and_iff_right hl, ← map_parse hl]
    cases parse width text with
    | ok o' =>
      constructor
      · rintro ⟨⟩
        rfl
      · intro h
        exact congrArg Except.ok (Octets.ext (Except.ok.inj h))
    | error e => exact iff_of_false nofun nofun
  · rw [parse_of_length_ne hl]
    exact iff_of_false nofun fun h => hl h.1

end Parse

/-- Octets read back from their text. -/
theorem parse_format {width : Nat} (o : Octets width) : parse width (format o.toList) = .ok o := by
  have htext : withoutMark (utf8 (format o.toList)) = octetDigits o.toList := by
    rw [format, utf8_ofList, List.flatMap_cons, List.flatMap_cons, flatMap_digits]
    rfl
  rw [parse_eq_ok_iff, htext, length_octetDigits, o.length_toList]
  exact ⟨rfl, readPairs_octetDigits o.toList 0⟩

end Hex
end HardFork
