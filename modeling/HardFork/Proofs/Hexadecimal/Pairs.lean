import HardFork.Proofs.Hexadecimal.Refusal
import Mathlib.Data.List.Induction

/-! # The texts that octets are read from

A mark or none, then two digits for each octet, in either case and the high one first. The octets
written down again have the same digits in small letters. -/
namespace HardFork.Hex
open Json

/-- Two digits for each octet, the high one first. -/
inductive Spells : List Char → List UInt8 → Prop
  | nil : Spells [] []
  | pair {high low h l cs octets} (hh : hexRank? high = some h) (hl : hexRank? low = some l)
      (hs : Spells cs octets) : Spells (high :: low :: cs) (UInt8.ofNat (16*h+l) :: octets)

/-- A digit is one octet, of the same value. -/
theorem octet_of_hexRank? {c : Char} {r : Nat} (h : hexRank? c = some r) :
    ∃ o v, String.utf8EncodeChar c = [o] ∧ value? o = some v ∧ v.toNat = r := by
  have hlt := toNat_lt_of_hexRank? h
  rw [hexRank?_of_lt hlt] at h
  obtain ⟨v, hv, hr⟩ := Option.map_eq_some_iff.mp h
  exact ⟨_, v, utf8EncodeChar_of_lt hlt, hv, hr⟩

/-- A text whose octets begin with a digit's begins with this digit. -/
theorem exists_hexRank?_of_value? {cs : List Char} {o v : UInt8} {os : List UInt8}
    (hv : value? o = some v) (h : cs.flatMap String.utf8EncodeChar = o :: os) :
    ∃ c cs', cs = c :: cs' ∧ hexRank? c = some v.toNat ∧
      cs'.flatMap String.utf8EncodeChar = os := by
  have hlt : o.toNat < 128 := by
    apply Nat.lt_of_not_le
    intro hle
    rw [value?_of_le hle] at hv
    cases hv
  have hall : ∀ n < 128, (Char.ofNat n).toNat = n := by decide
  have hchar := hall o.toNat hlt
  obtain ⟨cs', rfl, hcs'⟩ := exists_cons_of_flatMap_eq_cons hlt h
  refine ⟨_, cs', rfl, ?_, hcs'⟩
  rw [hexRank?_of_lt (hchar.symm ▸ hlt), hchar, UInt8.ofNat_toNat, hv, Option.map_some]

/-- Written down again, a digit is a small letter. -/
theorem digit_of_hexRank? {c : Char} {v : UInt8} (h : hexRank? c = some v.toNat) :
    digit v = c.toLower := by
  have hall : ∀ n < 128, (hexRank? (Char.ofNat n)).all fun r =>
      digit (UInt8.ofNat r) = (Char.ofNat n).toLower := by decide
  have hc := hall c.toNat (toNat_lt_of_hexRank? h)
  rw [Char.ofNat_toNat, h] at hc
  simpa using hc

theorem pair_div {h l : UInt8} (hh : h.toNat < 16) (hl : l.toNat < 16) : (16*h+l)/16 = h := by
  apply UInt8.toNat_inj.mp
  simp
  omega

theorem pair_mod {h l : UInt8} (hl : l.toNat < 16) : (16*h+l)%16 = l := by
  apply UInt8.toNat_inj.mp
  simp
  omega

namespace Spells

variable {cs : List Char} {octets : List UInt8}

theorem length_eq (h : Spells cs octets) : cs.length = 2*octets.length := by
  induction h with
  | nil => rfl
  | pair _ _ _ ih =>
    rw [List.length_cons, List.length_cons, List.length_cons, ih]
    omega

theorem length_flatMap (h : Spells cs octets) :
    (cs.flatMap String.utf8EncodeChar).length = 2*octets.length := by
  induction h with
  | nil => rfl
  | pair hh hl _ ih =>
    obtain ⟨high, -, hhigh, -⟩ := octet_of_hexRank? hh
    obtain ⟨low, -, hlow, -⟩ := octet_of_hexRank? hl
    rw [List.flatMap_cons, List.flatMap_cons, hhigh, hlow, List.singleton_append,
      List.singleton_append, List.length_cons, List.length_cons, List.length_cons, ih]
    omega

theorem readPairs (h : Spells cs octets) (position : Nat) :
    readPairs position (cs.flatMap String.utf8EncodeChar) = .ok octets := by
  induction h generalizing position with
  | nil => rfl
  | pair hh hl _ ih =>
    obtain ⟨high, v, hhigh, hv, rfl⟩ := octet_of_hexRank? hh
    obtain ⟨low, w, hlow, hw, rfl⟩ := octet_of_hexRank? hl
    rw [List.flatMap_cons, List.flatMap_cons, hhigh, hlow, List.singleton_append,
      List.singleton_append, readPairs_cons hv hw, ih, ofNat_pair]
    rfl

theorem of_readPairs {ds : List UInt8} {position : Nat}
    (hcs : cs.flatMap String.utf8EncodeChar = ds) (heven : ds.length%2 = 0)
    (h : Hex.readPairs position ds = .ok octets) : Spells cs octets := by
  induction ds using List.twoStepInduction generalizing cs octets position with
  | nil =>
    cases h
    cases cs with
    | nil => exact .nil
    | cons c cs => simp at hcs
  | singleton d => cases heven
  | cons_cons high low rest ih _ =>
    cases hh : value? high with
    | none =>
      rw [readPairs_of_high hh] at h
      cases h
    | some v =>
      cases hl : value? low with
      | none =>
        rw [readPairs_of_low hh hl] at h
        cases h
      | some w =>
        obtain ⟨c, cs, rfl, hc, hcs⟩ := exists_hexRank?_of_value? hh hcs
        obtain ⟨d, cs, rfl, hd, hcs⟩ := exists_hexRank?_of_value? hl hcs
        rw [readPairs_cons hh hl] at h
        cases hrest : Hex.readPairs (position+2) rest with
        | error e =>
          rw [hrest] at h
          cases h
        | ok octets =>
          rw [hrest] at h
          cases h
          rw [List.length_cons, List.length_cons] at heven
          rw [← ofNat_pair]
          exact .pair hc hd (ih hcs (by omega) hrest)

theorem digits_eq (h : Spells cs octets) : digits octets = cs.map Char.toLower := by
  induction h with
  | nil => rfl
  | pair hh hl _ ih =>
    obtain ⟨_, v, -, hv, rfl⟩ := octet_of_hexRank? hh
    obtain ⟨_, w, -, hw, rfl⟩ := octet_of_hexRank? hl
    rw [digits] at ih
    rw [digits, List.flatMap_cons, ih, ofNat_pair, pair_div (value?_lt hv) (value?_lt hw),
      pair_mod (value?_lt hw), digit_of_hexRank? hh, digit_of_hexRank? hl, List.map_cons,
      List.map_cons]
    rfl

end Spells

theorem eq_append_behindMark (cs : List Char) :
    cs = behindMark cs ∨ cs = '0' :: 'x' :: behindMark cs ∨ cs = '0' :: 'X' :: behindMark cs := by
  unfold behindMark
  split
  · exact .inr (.inl rfl)
  · exact .inr (.inr rfl)
  · exact .inl rfl

/-- The mark ends between two characters, so that what is behind it is a text. -/
theorem exists_mark (text : String) :
    ∃ mark ∈ ["", "0x", "0X"], text = mark ++ unmarked text ∧ mark.rawEndPos.IsValid text := by
  have hsplit : ∃ mark ∈ ["", "0x", "0X"], text = mark ++ unmarked text := by
    rcases eq_append_behindMark text.toList with h | h | h
    · exact ⟨"", by simp, String.toList_inj.mp (by simpa [unmarked] using h)⟩
    · exact ⟨"0x", by simp, String.toList_inj.mp (by simpa [unmarked] using h)⟩
    · exact ⟨"0X", by simp, String.toList_inj.mp (by simpa [unmarked] using h)⟩
  obtain ⟨mark, hmem, htext⟩ := hsplit
  refine ⟨mark, hmem, htext, ?_⟩
  rw [htext]
  exact String.Pos.Raw.isValid_rawEndPos.append_right _

variable {width : Nat} {text : String} {o : Octets width}

theorem parse_eq_ok_iff_spells :
    parse width text = .ok o ↔ Spells (behindMark text.toList) o.toList := by
  rw [parse_eq_ok_iff, withoutMark_utf8, unmarked, utf8_ofList]
  constructor
  · rintro ⟨hl, h⟩
    exact .of_readPairs rfl (by omega) h
  · intro h
    exact ⟨by rw [h.length_flatMap, o.length_toList], h.readPairs 0⟩

/-- Octets are read from the texts that spell them behind a mark or none, and from no others, and
are written with the same digits in small letters. What stands behind the mark is a text, and its
length is the number of its octets. -/
theorem reads_digits_and_writes_small (width : Nat) (text : String) :
    (∀ o : Octets width, parse width text = .ok o ↔
      (behindMark text.toList).length = 2*width ∧ Spells (behindMark text.toList) o.toList) ∧
    (∀ o : Octets width, parse width (format o.toList) = .ok o) ∧
    (∀ o : Octets width, parse width text = .ok o →
      format o.toList = String.ofList ('0' :: 'x' :: (behindMark text.toList).map Char.toLower)) ∧
    ((∃ expected got, parse width text = .error (.invalidLength expected got)) ↔
      (unmarked text).utf8ByteSize ≠ 2*width) ∧
    withoutMark (utf8 text) = utf8 (unmarked text) ∧
    ∃ mark ∈ ["", "0x", "0X"], text = mark ++ unmarked text ∧ mark.rawEndPos.IsValid text := by
  refine ⟨fun o => ?_, parse_format, fun o h => ?_, ?_, withoutMark_utf8 text, exists_mark text⟩
  · rw [parse_eq_ok_iff_spells]
    exact ⟨fun h => ⟨by rw [h.length_eq, o.length_toList], h⟩, And.right⟩
  · rw [format, (parse_eq_ok_iff_spells.mp h).digits_eq]
  · simp only [parse_eq_invalidLength_iff, withoutMark_utf8, length_utf8]
    constructor
    · rintro ⟨_, _, h, -⟩
      exact h
    · exact fun h => ⟨_, _, h, rfl, rfl⟩

/-- Digits in either case behind a capital mark. -/
theorem mixed_case_written_small :
    parse 2 "0XbeEF" = .ok ⟨[0xbe, 0xef], rfl⟩ ∧
    format [0xbe, 0xef] = String.ofList ['0', 'x', 'b', 'e', 'e', 'f'] := by
  have hparse : parse 2 "0XbeEF" = .ok ⟨[0xbe, 0xef], rfl⟩ := rfl
  exact ⟨hparse, (reads_digits_and_writes_small 2 "0XbeEF").2.2.1 _ hparse⟩

end HardFork.Hex
