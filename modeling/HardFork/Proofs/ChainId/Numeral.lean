import HardFork.Proofs.ChainId
import HardFork.Proofs.Hexadecimal.Number

/-! # The numerals of chain ids

A chain id is decimal digits, or hexadecimal digits behind a mark. The text behind a mark goes to
the hexadecimal reader as it is, which has conventions of its own: it drops one more mark, takes no
digits for zero, and looks at no more than 64 digits. -/
namespace HardFork.ChainId
open Json

def IsMark (c : Char) : Prop := c = 'x' ∨ c = 'X'

/-- A text that stands for a number: digits, hexadecimal ones behind a mark. -/
inductive IsNumeral : List Char → Nat → Prop
  | decimal {ds} (h : IsDigits ds) : IsNumeral ds (Decimal.value ds)
  | hexadecimal {mark ds n} (hm : IsMark mark) (hne : ds ≠ []) (h : hexRanks? ds = some n) :
      IsNumeral ('0' :: mark :: ds) n

/-- A mark with more digits behind it than the reader looks at, be they zeros. -/
def Overlong (text : List Char) : Prop :=
  ∃ mark ds, IsMark mark ∧ text = '0' :: mark :: ds ∧ 64 < ds.length

/-- A text that is read as a number and is no numeral. -/
inductive Stray : List Char → Nat → Prop
  | empty : Stray [] 0
  | bareMark {mark} (hm : IsMark mark) : Stray ['0', mark] 0
  | secondMark {mark ds n} (hm : IsMark mark) (hl : ds.length ≤ 64) (h : hexRanks? ds = some n) :
      Stray ('0' :: mark :: '0' :: 'x' :: ds) n

theorem readDecimal_eq_ok_iff {cs : List Char} {start id : ChainId} :
    readDecimal start cs = .ok id ↔
      (∀ c ∈ cs, c.isDigit) ∧ Nat.ofDigitChars 10 cs start.val = id.val := by
  constructor
  · intro h
    induction cs generalizing start with
    | nil =>
      cases h
      exact ⟨fun _ hc => absurd hc List.not_mem_nil, rfl⟩
    | cons c cs ih =>
      rw [readDecimal] at h
      split at h
      · rename_i hc
        dsimp only at h
        split at h
        · obtain ⟨hcs, hvalue⟩ := ih h
          exact ⟨List.forall_mem_cons.mpr ⟨hc, hcs⟩, hvalue⟩
        · cases h
      · cases h
  · rintro ⟨hcs, hvalue⟩
    rw [readDecimal_eq_ok hcs (hvalue ▸ id.val_lt)]
    simp only [hvalue]

theorem readPairs_padded (ds : List UInt8) :
    (Hex.readPairs 0 (if ds.length%2 = 0 then ds else 48 :: ds)).toOption.map ofOctets =
      Hex.number? ds := by
  split
  · rename_i heven
    exact Hex.readPairs_number ds 0 0 heven
  · rename_i hodd
    have heven : (48 :: ds).length%2 = 0 := by
      rw [List.length_cons]
      omega
    rw [← Hex.number?_zero_cons]
    exact Hex.readPairs_number (48 :: ds) 0 0 heven

/-- With a mark in front all octets behind it are digits. -/
theorem readHex_mark_eq_ok_iff {ds : List UInt8} {id : ChainId} :
    readHex (48 :: 120 :: ds) = .ok id ↔ ds.length ≤ 64 ∧ Hex.number? ds = some id.val := by
  have hnumber := readPairs_padded ds
  simp only [readHex]
  rcases Nat.lt_or_ge 64 ds.length with hlong | hl
  · rw [if_pos hlong]
    exact ⟨fun h => (by cases h), fun h => absurd h.1 (Nat.not_le_of_lt hlong)⟩
  rw [if_neg (Nat.not_lt_of_le hl)]
  cases hread : Hex.readPairs 0 (if ds.length%2 = 0 then ds else 48 :: ds) with
  | error e =>
    rw [hread] at hnumber
    rw [← hnumber]
    cases e with
    | invalidDigit octet position => exact ⟨fun h => (by cases h), fun h => (by cases h.2)⟩
    | invalidLength expected got => exact ⟨fun h => (by cases h), fun h => (by cases h.2)⟩
  | ok octets =>
    rw [hread] at hnumber
    have hvalue : Hex.number? ds = some (ofOctets octets) := hnumber.symm
    -- 64 digits are 256 bits
    have hlt : ofOctets octets < limit :=
      Nat.lt_of_lt_of_le (Hex.number?_lt hvalue) (Nat.pow_le_pow_right (by decide) hl)
    simp only [hlt, dite_true, hvalue, Option.some.injEq, Except.ok.injEq]
    exact ⟨fun h => ⟨hl, congrArg val h⟩, fun h => by cases id; cases h.2; rfl⟩

/-- The mark changes nothing unless there is one more. -/
theorem readHex_of_unmarked {ds : List UInt8} (h : ∀ rest, ds ≠ 48 :: 120 :: rest) :
    readHex ds = readHex (48 :: 120 :: ds) := by
  unfold readHex
  split
  · exact absurd rfl (h _)
  · rfl

theorem readHex_utf8_mark_eq_ok_iff {ds : List Char} {id : ChainId} :
    readHex (48 :: 120 :: utf8 (String.ofList ds)) = .ok id ↔
      ds.length ≤ 64 ∧ hexRanks? ds = some id.val := by
  rw [readHex_mark_eq_ok_iff, utf8_ofList, Hex.number?_flatMap]
  refine and_congr_left fun h => ?_
  rw [Hex.length_flatMap_of_hexRanks? h]

/-- A mark is no digit. -/
theorem hexRanks?_mark (ds : List Char) : hexRanks? ('0' :: 'x' :: ds) = none := by
  refine Option.eq_none_iff_forall_ne_some.mpr fun n h => ?_
  have hx := Hex.isSome_hexRank?_of_mem h 'x' (by simp)
  exact absurd hx (by decide)

/-- What stands behind a mark is digits, or one more mark and digits. -/
theorem readHex_utf8_eq_ok_iff {cs : List Char} {id : ChainId} :
    readHex (utf8 (String.ofList cs)) = .ok id ↔
      (cs.length ≤ 64 ∧ hexRanks? cs = some id.val) ∨
      ∃ ds, cs = '0' :: 'x' :: ds ∧ ds.length ≤ 64 ∧ hexRanks? ds = some id.val := by
  by_cases hmark : ∃ ds, cs = '0' :: 'x' :: ds
  · obtain ⟨ds, rfl⟩ := hmark
    have hocts : utf8 (String.ofList ('0' :: 'x' :: ds)) = 48 :: 120 :: utf8 (String.ofList ds) := by
      simp only [utf8_ofList, List.flatMap_cons]
      rfl
    rw [hocts, readHex_utf8_mark_eq_ok_iff, hexRanks?_mark]
    constructor
    · exact fun h => .inr ⟨ds, rfl, h⟩
    · rintro (⟨-, ⟨⟩⟩ | ⟨ds', heq, h⟩)
      · cases heq
        exact h
  · have hunmarked : ∀ rest, utf8 (String.ofList cs) ≠ 48 :: 120 :: rest := by
      intro rest h
      rw [utf8_ofList] at h
      obtain ⟨cs', rfl, h'⟩ := exists_cons_of_flatMap_eq_cons (by decide) h
      obtain ⟨ds, rfl, -⟩ := exists_cons_of_flatMap_eq_cons (by decide) h'
      exact hmark ⟨ds, rfl⟩
    rw [readHex_of_unmarked hunmarked, readHex_utf8_mark_eq_ok_iff]
    constructor
    · exact .inl
    · rintro (h | ⟨ds, heq, -⟩)
      · exact h
      · exact absurd ⟨ds, heq⟩ hmark

theorem not_isDigits_mark {mark : Char} (hm : IsMark mark) (ds : List Char) :
    ¬ IsDigits ('0' :: mark :: ds) := by
  intro h
  have hdigit := h.2 mark (List.mem_cons_of_mem _ List.mem_cons_self)
  rcases hm with rfl | rfl <;> exact absurd hdigit (by decide)

/-- Behind a mark there is no decimal numeral. -/
theorem isNumeral_mark_iff {mark : Char} (hm : IsMark mark) {ds : List Char} {n : Nat} :
    IsNumeral ('0' :: mark :: ds) n ↔ ds ≠ [] ∧ hexRanks? ds = some n := by
  constructor
  · intro h
    generalize hcs : '0' :: mark :: ds = cs at h
    cases h with
    | decimal h => exact absurd (hcs ▸ h) (not_isDigits_mark hm ds)
    | hexadecimal _ hne h =>
      cases hcs
      exact ⟨hne, h⟩
  · exact fun h => .hexadecimal hm h.1 h.2

/-- A numeral is read as nothing but its number. -/
theorem IsNumeral.unique {cs : List Char} {m n : Nat} (h : IsNumeral cs n)
    (hread : IsNumeral cs m ∨ Stray cs m) : m = n := by
  cases h with
  | decimal hds =>
    rcases hread with hm | hm
    · cases hm with
      | decimal => rfl
      | hexadecimal hmark => exact absurd hds (not_isDigits_mark hmark _)
    · cases hm with
      | empty => exact absurd rfl hds.1
      | bareMark hmark => exact absurd hds (not_isDigits_mark hmark _)
      | secondMark hmark => exact absurd hds (not_isDigits_mark hmark _)
  | hexadecimal hmark hne h =>
    rcases hread with hm | hm
    · obtain ⟨-, hm⟩ := (isNumeral_mark_iff hmark).mp hm
      exact Option.some.inj (hm.symm.trans h)
    · cases hm with
      | bareMark => exact absurd rfl hne
      | secondMark =>
        rw [hexRanks?_mark] at h
        cases h

theorem readNumeral_mark {mark : Char} (hm : IsMark mark) (cs : List Char) :
    readNumeral ('0' :: mark :: cs) = readHex (utf8 (String.ofList cs)) := by
  rcases hm with rfl | rfl <;> rfl

/-- Without a mark in front the whole text is decimal. -/
theorem readNumeral_of_unmarked {cs : List Char}
    (h : ∀ mark ds, IsMark mark → cs ≠ '0' :: mark :: ds) :
    readNumeral cs = readDecimal default cs := by
  unfold readNumeral
  split
  · exact absurd rfl (h 'x' _ (.inl rfl))
  · exact absurd rfl (h 'X' _ (.inr rfl))
  · rfl

/-- Numerals are read as what they stand for unless they are overlong, and nothing else is read but
the strays. -/
theorem readNumeral_eq_ok_iff {cs : List Char} {id : ChainId} :
    readNumeral cs = .ok id ↔ IsNumeral cs id.val ∧ ¬ Overlong cs ∨ Stray cs id.val := by
  by_cases hmark : ∃ mark ds, IsMark mark ∧ cs = '0' :: mark :: ds
  · obtain ⟨mark, ds, hm, rfl⟩ := hmark
    have hoverlong : Overlong ('0' :: mark :: ds) ↔ 64 < ds.length := by
      constructor
      · rintro ⟨_, _, -, ⟨⟩, h⟩
        exact h
      · exact fun h => ⟨mark, ds, hm, rfl, h⟩
    rw [readNumeral_mark hm, readHex_utf8_eq_ok_iff, isNumeral_mark_iff hm, hoverlong, Nat.not_lt]
    generalize id.val = n
    constructor
    · rintro (⟨hl, h⟩ | ⟨ds', rfl, hl, h⟩)
      · by_cases hne : ds = []
        · subst hne
          cases h
          exact .inr (.bareMark hm)
        · exact .inl ⟨⟨hne, h⟩, hl⟩
      · exact .inr (.secondMark hm hl h)
    · rintro (⟨⟨-, h⟩, hl⟩ | hstray)
      · exact .inl ⟨hl, h⟩
      · cases hstray with
        | bareMark => exact .inl ⟨Nat.zero_le _, rfl⟩
        | secondMark _ hl h => exact .inr ⟨_, rfl, hl, h⟩
  · have hunmarked : ∀ mark ds, IsMark mark → cs ≠ '0' :: mark :: ds :=
      fun mark ds hm heq => hmark ⟨mark, ds, hm, heq⟩
    rw [readNumeral_of_unmarked hunmarked, readDecimal_eq_ok_iff]
    generalize id.val = n
    constructor
    · rintro ⟨hcs, rfl⟩
      by_cases hne : cs = []
      · subst hne
        exact .inr .empty
      · have hshort : ¬ Overlong cs := fun ⟨mark, ds, hm, heq, _⟩ => hunmarked mark ds hm heq
        exact .inl ⟨.decimal ⟨hne, hcs⟩, hshort⟩
    · rintro (⟨hnumeral, -⟩ | hstray)
      · cases hnumeral with
        | decimal h => exact ⟨h.2, rfl⟩
        | hexadecimal hm => exact absurd rfl (hunmarked _ _ hm)
      · cases hstray with
        | empty => exact ⟨fun _ hc => absurd hc List.not_mem_nil, rfl⟩
        | bareMark hm => exact absurd rfl (hunmarked _ _ hm)
        | secondMark hm => exact absurd rfl (hunmarked _ _ hm)

theorem parse_eq_ok_iff {text : String} {id : ChainId} :
    parse text = .ok id ↔ readNumeral (Text.trim text.toList) = .ok id := by
  simp only [parse]
  cases readNumeral (Text.trim text.toList) with
  | ok id' => exact ⟨fun h => (by cases h; rfl), fun h => (by cases h; rfl)⟩
  | error e => exact ⟨fun h => (by cases h), fun h => (by cases h)⟩

theorem parse_eq_error {text : String} {e : Error} (h : parse text = .error e) :
    ∃ defect, e = .numeral (String.ofList (Text.trim text.toList)) defect := by
  simp only [parse] at h
  cases hread : readNumeral (Text.trim text.toList) with
  | ok id =>
    rw [hread] at h
    cases h
  | error defect =>
    rw [hread] at h
    cases h
    exact ⟨defect, rfl⟩

/-- A chain id is read from the numerals, but for the overlong ones, and from the strays; the white
space around them does not count. Any other text is refused as no numeral. -/
theorem accepts_numerals_and_strays (text : String) :
    (∀ id, parse text = .ok id ↔
      IsNumeral (Text.trim text.toList) id.val ∧ ¬ Overlong (Text.trim text.toList) ∨
      Stray (Text.trim text.toList) id.val) ∧
    ∀ e, parse text = .error e →
      ∃ defect, e = .numeral (String.ofList (Text.trim text.toList)) defect :=
  ⟨fun _ => parse_eq_ok_iff.trans readNumeral_eq_ok_iff, fun _ => parse_eq_error⟩

/-- Strays of each kind are read as numbers, and a zero is refused for its digits. -/
theorem strays_read_and_overlong_refused :
    (parse "" = .ok (.ofWord 0) ∧ ∀ n, ¬ IsNumeral [] n) ∧
    (parse "0x" = .ok (.ofWord 0) ∧ ∀ n, ¬ IsNumeral ['0', 'x'] n) ∧
    (parse "0x0x10" = .ok (.ofWord 16) ∧ ∀ n, ¬ IsNumeral ['0', 'x', '0', 'x', '1', '0'] n) ∧
    ∃ text : String, text.toList = '0' :: 'x' :: List.replicate 65 '0' ∧
      parse text = .error (.numeral text .hexLength) ∧ IsNumeral text.toList 0 := by
  have hempty : ∀ n, ¬ IsNumeral [] n := by
    rintro n ⟨hne, -⟩
    exact hne rfl
  have hbare : ∀ n, ¬ IsNumeral ['0', 'x'] n := fun n h =>
    ((isNumeral_mark_iff (.inl rfl)).mp h).1 rfl
  have htwice : ∀ n, ¬ IsNumeral ['0', 'x', '0', 'x', '1', '0'] n := fun n h =>
    nomatch ((isNumeral_mark_iff (.inl rfl)).mp h).2
  have hzero : IsNumeral ('0' :: 'x' :: List.replicate 65 '0') 0 :=
    .hexadecimal (.inl rfl) (by decide) rfl
  refine ⟨⟨rfl, hempty⟩, ⟨rfl, hbare⟩, ⟨rfl, htwice⟩, ?_⟩
  refine ⟨String.ofList ('0' :: 'x' :: List.replicate 65 '0'), String.toList_ofList, rfl, ?_⟩
  rw [String.toList_ofList]
  exact hzero

end HardFork.ChainId
