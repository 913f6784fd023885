import HardFork.Proofs.Json.Grammar
import HardFork.Proofs.Json.Takes

/-! # Numbers read back

A number is read up to its end, since the digits of each of its parts end where the next part or
what follows the number begins. A whole number is written with its decimal digits, and these begin
with a zero only when it is zero. -/
namespace HardFork

namespace Decimal

theorem isDigit_of_mem_digits {n : Nat} {c : Char} (h : c ∈ digits n) : c.isDigit :=
  Nat.isDigit_of_mem_toDigits (by decide) (by decide) h

theorem digits_ne_nil (n : Nat) : digits n ≠ [] := by
  rw [digits, Nat.toDigits_eq_if (by decide)]
  split <;> simp

theorem head?_digits_ne {c : Char} (hc : c.isDigit = false) (n : Nat) :
    (digits n).head? ≠ some c := by
  intro h
  rw [isDigit_of_mem_digits (List.mem_of_mem_head? h)] at hc
  cases hc

theorem head?_digits_append (n : Nat) (cs : List Char) :
    (digits n ++ cs).head? = (digits n).head? := by
  cases h : digits n with
  | nil => exact absurd h (digits_ne_nil n)
  | cons c ds => rfl

theorem head?_digits_ne_zero {n : Nat} (hn : 0 < n) : (digits n).head? ≠ some '0' := by
  induction n using Nat.strongRecOn with
  | ind n ih =>
    rw [digits, Nat.toDigits_eq_if (by decide)]
    split
    · rename_i hlt
      have hsmall : ∀ m < 10, 0 < m → m.digitChar ≠ '0' := by decide
      simpa using hsmall n hlt hn
    · rename_i hge
      change (digits (n/10) ++ _).head? ≠ some '0'
      rw [head?_digits_append]
      exact ih (n/10) (by omega) (by omega)

theorem eq_nil_of_digits_eq {n : Nat} {cs : List Char} (h : digits n = '0' :: cs) : cs = [] := by
  rcases Nat.eq_zero_or_pos n with rfl | hn
  · cases h
    rfl
  · exact absurd (congrArg List.head? h) (head?_digits_ne_zero hn)

end Decimal

namespace Json
open Decimal

variable (atEnd : Cause) (spot : List Char → Spot) {ds text rest : List Char}

theorem not_isDigit_of_endsValue {c : Char} (h : endsValue c) : c.isDigit = false := by
  rw [Bool.eq_false_iff]
  intro hd
  simp only [endsValue, isSpace, Bool.or_eq_true, decide_eq_true_eq, List.mem_cons,
    List.not_mem_nil, or_false] at h
  rcases h with (((rfl | rfl) | rfl) | rfl) | rfl | rfl | rfl <;> exact absurd hd (by decide)

/-- Digits in front of it end where it begins. -/
def NoDigit (rest : List Char) : Prop := ∀ c ∈ rest.head?, c.isDigit = false

theorem Delimited.noDigit (h : Delimited rest) : NoDigit rest := fun c hc =>
  not_isDigit_of_endsValue (h c hc)

theorem takeWhile_isDigit (h : NoDigit rest) : rest.takeWhile Char.isDigit = [] := by
  cases rest with
  | nil => rfl
  | cons c cs => simp [h c rfl]

theorem dropWhile_isDigit (h : NoDigit rest) : rest.dropWhile Char.isDigit = rest := by
  cases rest with
  | nil => rfl
  | cons c cs => simp [h c rfl]

theorem isDigits_of_all (hne : ds.isEmpty = false) (h : ds.all Char.isDigit) : IsDigits ds :=
  ⟨by simpa using hne, List.all_eq_true.mp h⟩

theorem IsDigits.exists_cons (h : IsDigits ds) : ∃ c cs, ds = c :: cs ∧ c.isDigit := by
  obtain ⟨c, cs, rfl⟩ := List.exists_cons_of_ne_nil h.1
  exact ⟨c, cs, rfl, h.2 c List.mem_cons_self⟩

theorem readDigits_append (hds : IsDigits ds) (h : NoDigit rest) :
    readDigits atEnd spot (ds ++ rest) = .ok (ds, rest) := by
  obtain ⟨c, cs, rfl, hc⟩ := hds.exists_cons
  have hcs : ∀ d ∈ cs, d.isDigit := fun d hd => hds.2 d (List.mem_cons_of_mem c hd)
  rw [List.cons_append, readDigits, if_pos hc, List.takeWhile_append_of_pos hcs,
    List.dropWhile_append_of_pos hcs, takeWhile_isDigit h, dropWhile_isDigit h, List.append_nil]

theorem readWhole_append (hds : IsWhole ds) (h : NoDigit rest) :
    readWhole atEnd spot (ds ++ rest) = .ok (ds, rest) := by
  obtain ⟨c, cs, rfl, -⟩ := hds.1.exists_cons
  by_cases hc : c = '0'
  · subst hc
    obtain rfl : cs = [] := (List.cons.inj (hds.2 rfl)).2
    have hhead : (rest.head?.map Char.isDigit).getD false = false := by
      cases rest with
      | nil => rfl
      | cons d ds => exact h d rfl
    simp [readWhole, hhead]
  · rw [List.cons_append, readWhole]
    · exact readDigits_append atEnd spot hds.1 h
    · rintro ds hds
      exact hc (List.cons.inj hds).1

theorem readSign_append {negative : Bool} {sign : List Char} (hs : WritesSign negative sign)
    (hds : IsDigits ds) (rest : List Char) :
    readSign (sign ++ (ds ++ rest)) = (negative, ds ++ rest) := by
  obtain ⟨c, cs, rfl, hc⟩ := hds.exists_cons
  cases hs with
  | none =>
    rw [List.nil_append, List.cons_append, readSign]
    · rintro ds hds
      cases (List.cons.inj hds).1
      cases hc
    · rintro ds hds
      cases (List.cons.inj hds).1
      cases hc
  | plus => rfl
  | minus => rfl

theorem readExponent_append {exponent : Option (Bool × List Char)}
    (he : WritesExponent exponent text) (h : Delimited rest) :
    readExponent atEnd (text ++ rest) = .ok (exponent, rest) := by
  cases he with
  | none =>
    cases rest with
    | nil => rfl
    | cons c cs =>
      have hne : ¬ (c = 'e' || c = 'E') := by
        intro he
        simp only [Bool.or_eq_true, decide_eq_true_eq] at he
        rcases he with rfl | rfl
        · exact absurd (h 'e' rfl) (by decide)
        · exact absurd (h 'E' rfl) (by decide)
      rw [List.nil_append, readExponent, if_neg hne]
  | @digits mark _ _ _ hm hs hds =>
    have hmark : (mark = 'e' || mark = 'E') = true := by simpa using hm
    rw [List.cons_append, List.append_assoc, readExponent, if_pos hmark]
    simp only [readSign_append hs hds, bind, Except.bind, readDigits_append atEnd _ hds h.noDigit]
    rfl

/-- Behind the fraction stands an exponent or what follows a number. -/
theorem head_of_exponent {exponent : Option (Bool × List Char)} (he : WritesExponent exponent text)
    (h : Delimited rest) : ∀ c ∈ (text ++ rest).head?, c.isDigit = false ∧ c ≠ '.' := by
  intro c hc
  cases he with
  | none =>
    refine ⟨h.noDigit c hc, ?_⟩
    rintro rfl
    exact absurd (h '.' hc) (by decide)
  | digits hm =>
    cases hc
    rcases hm with rfl | rfl <;> decide

theorem readFraction_append {fraction : List Char} (hf : WritesFraction fraction text)
    (h : ∀ c ∈ rest.head?, c.isDigit = false ∧ c ≠ '.') :
    readFraction atEnd (text ++ rest) = .ok (fraction, rest) := by
  cases hf with
  | none =>
    rw [List.nil_append, readFraction]
    rintro cs rfl
    exact (h '.' rfl).2 rfl
  | digits hds => exact readDigits_append atEnd _ hds fun c hc => (h c hc).1

theorem noDigit_of_fraction {fraction : List Char} (hf : WritesFraction fraction text)
    (h : ∀ c ∈ rest.head?, c.isDigit = false ∧ c ≠ '.') : NoDigit (text ++ rest) := by
  cases hf with
  | none => exact fun c hc => (h c hc).1
  | digits =>
    rintro c hc
    cases hc
    rfl

theorem IsDigits.head?_append_ne {c : Char} (hds : IsDigits ds) (hc : c.isDigit = false)
    (rest : List Char) : (ds ++ rest).head? ≠ some c := by
  obtain ⟨d, cs, rfl, hd⟩ := hds.exists_cons
  rintro ⟨⟩
  rw [hd] at hc
  cases hc

/-- A number is read up to its end. -/
theorem readNumeral_append {n : Numeral} (hn : WritesNumber n text) (h : Delimited rest) :
    readNumeral atEnd (text ++ rest) = .ok (n, rest) := by
  obtain @⟨negative, whole, fraction, exponent, behind, last, hw, hf, he⟩ := hn
  have hlast := head_of_exponent he h
  have hwhole (spot : List Char → Spot) : readWhole atEnd spot (whole ++ (behind ++ (last ++ rest))) =
      .ok (whole, behind ++ (last ++ rest)) :=
    readWhole_append atEnd spot hw (noDigit_of_fraction hf hlast)
  have hbehind := readFraction_append atEnd hf hlast
  have hend := readExponent_append atEnd he h
  cases negative with
  | true =>
    simp only [if_true, List.cons_append, List.nil_append, List.append_assoc, readNumeral,
      List.head?_cons, decide_true, List.drop_succ_cons, List.drop_zero]
    simp only [hwhole, hbehind, hend, bind, Except.bind, pure, Except.pure]
  | false =>
    have hminus := hw.1.head?_append_ne (c := '-') (by decide) (behind ++ (last ++ rest))
    simp only [Bool.false_eq_true, if_false, List.nil_append, List.append_assoc, readNumeral,
      hminus, decide_false]
    simp only [hwhole, hbehind, hend, bind, Except.bind, pure, Except.pure]

theorem isDigits_digits (n : Nat) : IsDigits (digits n) :=
  ⟨digits_ne_nil n, fun _ hc => isDigit_of_mem_digits hc⟩

theorem isWhole_digits (n : Nat) : IsWhole (digits n) := by
  refine ⟨isDigits_digits n, fun hhead => ?_⟩
  obtain ⟨c, cs, hcs, -⟩ := (isDigits_digits n).exists_cons
  rw [hcs] at hhead ⊢
  cases hhead
  rw [eq_nil_of_digits_eq hcs]

theorem writesNumber_digits (n : Nat) : WritesNumber ⟨false, digits n, [], none⟩ (digits n) := by
  have h : WritesNumber ⟨false, digits n, [], none⟩ ([] ++ (digits n ++ ([] ++ []))) :=
    .mk (isWhole_digits n) .none .none
  simpa using h

theorem write_nat (layout : Option Nat) (n : Nat) : write layout (.nat n) = digits n := by
  rw [nat, write, String.toList_ofList]

theorem head?_write_nat (layout : Option Nat) (n : Nat) :
    (write layout (.nat n)).head? ≠ some 'n' := by
  rw [write_nat]
  exact head?_digits_ne (by decide) n

theorem startsNumeral_of_isDigit {c : Char} (h : c.isDigit) : startsNumeral c := by
  simp [startsNumeral, h]

theorem ne_of_startsNumeral {c : Char} (h : startsNumeral c) :
    c ≠ 'n' ∧ c ≠ 't' ∧ c ≠ 'f' ∧ c ≠ '"' := by
  refine ⟨?_, ?_, ?_, ?_⟩
  all_goals
    rintro rfl
    exact absurd h (by decide)

theorem startsValue_of_isDigit {c : Char} (h : c.isDigit) : startsValue c := by
  simp [startsValue, startsNumeral, h]

theorem natural_digits (n : UInt64) (rest : List Char) :
    Numeral.natural ⟨false, digits n.toNat, [], none⟩ rest = .ok n := by
  have hword : n.toNat < UInt64.size := n.toNat_lt
  have hpos : ¬ (n.toNat : Int) < 0 := Int.not_lt.mpr (Int.natCast_nonneg _)
  simp [Numeral.natural, Numeral.word?, Numeral.isWhole, hword, hpos]

theorem readNatural_digits (n : UInt64) (h : Delimited rest) :
    readNatural (digits n.toNat ++ rest) = .ok (n, rest) := by
  have hread := readNumeral_append (.unfinished .value) (writesNumber_digits n.toNat) h
  have hnat := natural_digits n rest
  obtain ⟨c, cs, hcs, hc⟩ := (isDigits_digits n.toNat).exists_cons
  rw [hcs] at hread hnat ⊢
  rw [List.cons_append] at hread ⊢
  rw [readNatural, skipSpace_cons (not_isSpace_of_startsValue (startsValue_of_isDigit hc))]
  simp only [startsNumeral_of_isDigit hc, if_true, hread]
  simp only [bind, Except.bind, hnat]
  rfl

/-- A word of 64 bits reads back. -/
theorem takes_readNatural (n : UInt64) (layout : Option Nat) :
    Takes readNatural (write layout (.nat n.toNat)) n := by
  rw [write_nat]
  obtain ⟨c, cs, hcs, hc⟩ := (isDigits_digits n.toNat).exists_cons
  exact skipsSpace_readNatural.takes hcs (startsValue_of_isDigit hc) fun rest hd =>
    readNatural_digits n hd

theorem text_digits (n : Nat) :
    Numeral.text ⟨false, digits n, [], none⟩ = String.ofList (digits n) := by
  simp [Numeral.text, Numeral.literal]

theorem readAny_digits {list object : Reader Json} (n : Nat) (h : Delimited rest) :
    readAny list object (digits n ++ rest) = .ok (.nat n, rest) := by
  have hread := readNumeral_append (.unfinished .value) (writesNumber_digits n) h
  have htext := text_digits n
  obtain ⟨c, cs, hcs, hc⟩ := (isDigits_digits n).exists_cons
  rw [nat, hcs]
  rw [hcs] at hread htext
  rw [List.cons_append] at hread ⊢
  have hn := ne_of_startsNumeral (startsNumeral_of_isDigit hc)
  rw [readAny, skipSpace_cons (not_isSpace_of_startsValue (startsValue_of_isDigit hc))]
  simp only [hn, if_false, startsNumeral_of_isDigit hc, if_true, hread, bind, Except.bind, htext]
  rfl

/-- A number of any length is kept as its digits. -/
theorem takes_readAny_nat (list object : Reader Json) (n : Nat) (layout : Option Nat) :
    Takes (readAny list object) (write layout (.nat n)) (.nat n) := by
  rw [write_nat]
  obtain ⟨c, cs, hcs, hc⟩ := (isDigits_digits n).exists_cons
  exact (skipsSpace_readAny list object).takes hcs (startsValue_of_isDigit hc) fun rest hd =>
    readAny_digits n hd

end Json
end HardFork
