import HardFork.Proofs.Hexadecimal.Number

/-! # What is said of a text that is refused

Behind the mark there are too many or too few octets, or the first octet that is no digit is named
with its place. The number of octets that a wrong length is reported with is half the number of
digits, rounded down, so a single digit too many is not seen in it. -/
namespace HardFork

theorem length_utf8 (text : String) : (utf8 text).length = text.utf8ByteSize := by
  rw [← String.size_toByteArray, ← String.utf8Encode_toList, List.utf8Encode,
    List.size_toByteArray, utf8]

namespace Hex

/-- The characters behind the mark, if there is one. -/
def behindMark : List Char → List Char
  | '0' :: 'x' :: rest => rest
  | '0' :: 'X' :: rest => rest
  | cs => cs

/-- The text less its mark. -/
def unmarked (text : String) : String := String.ofList (behindMark text.toList)

theorem withoutMark_flatMap (cs : List Char) :
    withoutMark (cs.flatMap String.utf8EncodeChar) =
      (behindMark cs).flatMap String.utf8EncodeChar := by
  unfold behindMark
  split
  · rfl
  · rfl
  · rename_i hx hX
    unfold withoutMark
    split
    · rename_i h
      obtain ⟨cs', rfl, h'⟩ := exists_cons_of_flatMap_eq_cons (by decide) h
      obtain ⟨rest, rfl, -⟩ := exists_cons_of_flatMap_eq_cons (by decide) h'
      exact absurd rfl (hx rest)
    · rename_i h
      obtain ⟨cs', rfl, h'⟩ := exists_cons_of_flatMap_eq_cons (by decide) h
      obtain ⟨rest, rfl, -⟩ := exists_cons_of_flatMap_eq_cons (by decide) h'
      exact absurd rfl (hX rest)
    · rfl

/-- What is behind the mark is the octets of a text again. -/
theorem withoutMark_utf8 (text : String) : withoutMark (utf8 text) = utf8 (unmarked text) := by
  rw [unmarked, utf8_ofList, utf8, withoutMark_flatMap]

theorem ofNat_pair (h l : UInt8) : UInt8.ofNat (16*h.toNat+l.toNat) = 16*h+l := by
  rw [UInt8.ofNat_add, UInt8.ofNat_mul, UInt8.ofNat_toNat, UInt8.ofNat_toNat]
  rfl

section Pairs

variable {position : Nat} {high low h l : UInt8} {rest : List UInt8}

theorem readPairs_cons (hh : value? high = some h) (hl : value? low = some l) :
    readPairs position (high :: low :: rest) =
      (readPairs (position+2) rest).map ((16*h+l) :: ·) := by
  simp only [readPairs, value, hh, hl]
  cases readPairs (position+2) rest <;> rfl

theorem readPairs_of_high (hh : value? high = none) :
    readPairs position (high :: low :: rest) = .error (.invalidDigit high position) := by
  simp only [readPairs, value, hh]
  rfl

theorem readPairs_of_low (hh : value? high = some h) (hl : value? low = none) :
    readPairs position (high :: low :: rest) = .error (.invalidDigit low (position+1)) := by
  simp only [readPairs, value, hh, hl]
  rfl

end Pairs

/-- The octet of a digit, in either case. -/
def IsDigit (o : UInt8) : Prop := Char.ofNat o.toNat ∈ "0123456789abcdefABCDEF".toList

instance : DecidablePred IsDigit := fun _ => inferInstanceAs (Decidable (_ ∈ _))

theorem value?_eq_none_iff {o : UInt8} : value? o = none ↔ ¬ IsDigit o := by
  have hall : ∀ n < 256, value? (UInt8.ofNat n) = none ↔ ¬ IsDigit (UInt8.ofNat n) := by
    decide +kernel
  have ho := hall o.toNat o.toNat_lt
  rwa [UInt8.ofNat_toNat] at ho

theorem isDigit_of_value? {o v : UInt8} (h : value? o = some v) : IsDigit o := by
  apply Decidable.not_not.mp
  rw [← value?_eq_none_iff, h]
  exact Option.some_ne_none v

/-- An octet that is no digit at a place with nothing but digits before it. -/
def FirstStray (octets : List UInt8) (o : UInt8) (place : Nat) : Prop :=
  ∃ before after, octets = before ++ o :: after ∧ before.length = place ∧
    (∀ d ∈ before, IsDigit d) ∧ ¬ IsDigit o

namespace FirstStray

variable {d o : UInt8} {ds : List UInt8} {place : Nat}

theorem not_nil : ¬ FirstStray [] o place := by
  rintro ⟨before, after, h, -⟩
  cases before <;> cases h

theorem cons_iff_of_isDigit (hd : IsDigit d) :
    FirstStray (d :: ds) o place ↔ ∃ n, place = n+1 ∧ FirstStray ds o n := by
  constructor
  · rintro ⟨before, after, heq, rfl, hbefore, ho⟩
    cases before with
    | nil =>
      cases heq
      exact absurd hd ho
    | cons first before =>
      obtain ⟨rfl, rfl⟩ := List.cons.inj heq
      exact ⟨_, rfl, before, after, rfl, rfl, (List.forall_mem_cons.mp hbefore).2, ho⟩
  · rintro ⟨n, rfl, before, after, rfl, rfl, hbefore, ho⟩
    exact ⟨d :: before, after, rfl, rfl, List.forall_mem_cons.mpr ⟨hd, hbefore⟩, ho⟩

theorem cons_iff_of_not_isDigit (hd : ¬ IsDigit d) :
    FirstStray (d :: ds) o place ↔ o = d ∧ place = 0 := by
  constructor
  · rintro ⟨before, after, heq, rfl, hbefore, -⟩
    cases before with
    | nil =>
      cases heq
      exact ⟨rfl, rfl⟩
    | cons first before =>
      obtain ⟨rfl, rfl⟩ := List.cons.inj heq
      exact absurd (hbefore _ List.mem_cons_self) hd
  · rintro ⟨rfl, rfl⟩
    exact ⟨[], ds, rfl, rfl, nofun, hd⟩

end FirstStray

theorem readPairs_cons_eq_error_iff {position : Nat} {high low h l : UInt8} {rest : List UInt8}
    {e : Error} (hh : value? high = some h) (hl : value? low = some l) :
    readPairs position (high :: low :: rest) = .error e ↔
      readPairs (position+2) rest = .error e := by
  rw [readPairs_cons hh hl]
  cases readPairs (position+2) rest with
  | ok octets => exact iff_of_false nofun nofun
  | error e' => rfl

/-- Reading stops at the first stray octet, whichever of its pair that is. -/
theorem readPairs_eq_error_iff {e : Error} : ∀ {ds : List UInt8} {position : Nat},
    ds.length%2 = 0 →
    (readPairs position ds = .error e ↔
      ∃ o place, FirstStray ds o place ∧ e = .invalidDigit o (position+place))
  | [], _, _ => iff_of_false nofun fun ⟨_, _, h, _⟩ => h.not_nil
  | [_], _, h => by cases h
  | high :: low :: rest, position, h => by
    rw [List.length_cons, List.length_cons] at h
    have hrest : readPairs (position+2) rest = .error e ↔ _ := readPairs_eq_error_iff (by omega)
    cases hh : value? high with
    | none =>
      have hhigh := value?_eq_none_iff.mp hh
      simp only [readPairs_of_high hh, FirstStray.cons_iff_of_not_isDigit hhigh]
      constructor
      · rintro ⟨⟩
        exact ⟨high, 0, ⟨rfl, rfl⟩, rfl⟩
      · rintro ⟨_, _, ⟨rfl, rfl⟩, rfl⟩
        rfl
    | some v =>
      have hhigh := isDigit_of_value? hh
      cases hl : value? low with
      | none =>
        have hlow := value?_eq_none_iff.mp hl
        simp only [readPairs_of_low hh hl, FirstStray.cons_iff_of_isDigit hhigh,
          FirstStray.cons_iff_of_not_isDigit hlow]
        constructor
        · rintro ⟨⟩
          exact ⟨low, 1, ⟨0, rfl, rfl, rfl⟩, rfl⟩
        · rintro ⟨_, _, ⟨_, rfl, rfl, rfl⟩, rfl⟩
          rfl
      | some w =>
        have hlow := isDigit_of_value? hl
        simp only [readPairs_cons_eq_error_iff hh hl, hrest,
          FirstStray.cons_iff_of_isDigit hhigh, FirstStray.cons_iff_of_isDigit hlow]
        constructor
        · rintro ⟨o, place, hstray, rfl⟩
          exact ⟨o, place+2, ⟨place+1, rfl, place, rfl, hstray⟩, by congr 1; omega⟩
        · rintro ⟨o, _, ⟨_, rfl, place, rfl, hstray⟩, rfl⟩
          exact ⟨o, place, hstray, by congr 1; omega⟩

variable {width : Nat} {text : String}

theorem parse_eq_error_iff (hl : (withoutMark (utf8 text)).length = 2*width) {e : Error} :
    parse width text = .error e ↔
      ∃ o place, FirstStray (withoutMark (utf8 text)) o place ∧ e = .invalidDigit o place := by
  have hread : readPairs 0 (withoutMark (utf8 text)) = .error e ↔ _ :=
    readPairs_eq_error_iff (by omega)
  simp only [Nat.zero_add, ← map_parse hl] at hread
  rw [← hread]
  cases parse width text with
  | ok o => exact iff_of_false nofun nofun
  | error e' => simp only [Except.map, Except.error.injEq]

theorem parse_eq_invalidLength_iff {expected got : Nat} :
    parse width text = .error (.invalidLength expected got) ↔
      (withoutMark (utf8 text)).length ≠ 2*width ∧ expected = width ∧
      got = (withoutMark (utf8 text)).length/2 := by
  by_cases hl : (withoutMark (utf8 text)).length = 2*width
  · rw [parse_eq_error_iff hl]
    exact iff_of_false nofun fun h => h.1 hl
  · rw [parse_of_length_ne hl, and_iff_right hl]
    constructor
    · rintro ⟨⟩
      exact ⟨rfl, rfl⟩
    · rintro ⟨rfl, rfl⟩
      rfl

theorem parse_eq_invalidDigit_iff {o : UInt8} {place : Nat} :
    parse width text = .error (.invalidDigit o place) ↔
      (withoutMark (utf8 text)).length = 2*width ∧
      FirstStray (withoutMark (utf8 text)) o place := by
  by_cases hl : (withoutMark (utf8 text)).length = 2*width
  · rw [parse_eq_error_iff hl, and_iff_right hl]
    constructor
    · rintro ⟨_, _, h, ⟨⟩⟩
      exact h
    · exact fun h => ⟨o, place, h, rfl⟩
  · rw [parse_of_length_ne hl]
    exact iff_of_false nofun fun h => hl h.1

/-- A refusal is about the length exactly when the text less its mark has not two octets for each
one expected. It then tells the expected number, and half of what there is, which is the expected
number again just when there is one digit too many. Any other refusal names the first octet that is
no digit, with its place. -/
theorem refusal_names_length_or_first_stray (width : Nat) (text : String) :
    (∀ expected got, parse width text = .error (.invalidLength expected got) ↔
      (unmarked text).utf8ByteSize ≠ 2*width ∧ expected = width ∧
      got = (unmarked text).utf8ByteSize/2) ∧
    (∀ n, parse width text = .error (.invalidLength n n) ↔
      (unmarked text).utf8ByteSize = 2*width+1 ∧ n = width) ∧
    ∀ o place, parse width text = .error (.invalidDigit o place) ↔
      (unmarked text).utf8ByteSize = 2*width ∧ FirstStray (utf8 (unmarked text)) o place := by
  rw [← length_utf8, ← withoutMark_utf8]
  refine ⟨fun _ _ => parse_eq_invalidLength_iff, fun n => ?_, fun _ _ => parse_eq_invalidDigit_iff⟩
  rw [parse_eq_invalidLength_iff]
  omega

/-- Three digits are refused for one octet with one octet as what there is. -/
theorem odd_length_reported_as_expected :
    (unmarked "0x123").utf8ByteSize ≠ 2*1 ∧
    parse 1 "0x123" = .error (.invalidLength 1 1) ∧
    (Error.invalidLength 1 1).message = "Invalid hex length: expected 1 bytes, got 1" :=
  ⟨by decide, rfl, by decide⟩

end Hex
end HardFork
