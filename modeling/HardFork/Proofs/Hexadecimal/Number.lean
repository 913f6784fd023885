import HardFork.Json.Reader
import HardFork.Proofs.Hexadecimal

/-! # The number that hexadecimal digits stand for

Digits are read from the octets of a text, two at a time. A character below 128 is one octet of the
same number and any other one begins with a higher octet, so this is the number that the characters
stand for, one digit at a time. -/
namespace HardFork

theorem utf8EncodeChar_of_lt {c : Char} (h : c.toNat < 128) :
    String.utf8EncodeChar c = [UInt8.ofNat c.toNat] := by
  have hle : c.val.toNat ≤ 127 := Nat.le_of_lt_succ h
  simp only [String.utf8EncodeChar, hle, if_true]
  rfl

theorem exists_utf8EncodeChar_of_le {c : Char} (h : 128 ≤ c.toNat) :
    ∃ o os, String.utf8EncodeChar c = o :: os ∧ 128 ≤ o.toNat := by
  have hlt : ¬ c.val.toNat ≤ 127 := Nat.not_le_of_lt h
  simp only [String.utf8EncodeChar, hlt, if_false]
  split
  · exact ⟨_, _, rfl, by rw [UInt8.toNat_ofNat']; omega⟩
  split
  · exact ⟨_, _, rfl, by rw [UInt8.toNat_ofNat']; omega⟩
  · exact ⟨_, _, rfl, by rw [UInt8.toNat_ofNat']; omega⟩

/-- A text whose octets begin with one below 128 begins with the character of this number. -/
theorem exists_cons_of_flatMap_eq_cons {cs : List Char} {o : UInt8} {os : List UInt8}
    (ho : o.toNat < 128) (h : cs.flatMap String.utf8EncodeChar = o :: os) :
    ∃ cs', cs = Char.ofNat o.toNat :: cs' ∧ cs'.flatMap String.utf8EncodeChar = os := by
  cases cs with
  | nil => cases h
  | cons c cs =>
    rw [List.flatMap_cons] at h
    rcases Nat.lt_or_ge c.toNat 128 with hc | hc
    · rw [utf8EncodeChar_of_lt hc] at h
      obtain ⟨rfl, rfl⟩ := List.cons.inj h
      have hnat : (UInt8.ofNat c.toNat).toNat = c.toNat := by
        rw [UInt8.toNat_ofNat']
        omega
      exact ⟨cs, by rw [hnat, Char.ofNat_toNat], rfl⟩
    · obtain ⟨first, os', hfirst, hle⟩ := exists_utf8EncodeChar_of_le hc
      rw [hfirst] at h
      obtain rfl := (List.cons.inj h).1
      omega

namespace Hex
open Json

theorem value?_lt {o v : UInt8} (h : value? o = some v) : v.toNat < 16 := by
  unfold value? at h
  simp only [Bool.and_eq_true, decide_eq_true_eq, UInt8.le_iff_toNat_le, UInt8.reduceToNat] at h
  split at h
  · cases h
    simp only [UInt8.toNat_sub, UInt8.reduceToNat]
    omega
  split at h
  · cases h
    simp only [UInt8.toNat_sub, UInt8.reduceToNat]
    omega
  split at h
  · cases h
    simp only [UInt8.toNat_sub, UInt8.reduceToNat]
    omega
  · cases h

theorem value?_of_le {o : UInt8} (h : 128 ≤ o.toNat) : value? o = none := by
  unfold value?
  simp only [Bool.and_eq_true, decide_eq_true_eq, UInt8.le_iff_toNat_le, UInt8.reduceToNat]
  rw [if_neg (by omega), if_neg (by omega), if_neg (by omega)]

theorem hexRank?_of_lt {c : Char} (h : c.toNat < 128) :
    hexRank? c = (value? (UInt8.ofNat c.toNat)).map UInt8.toNat := by
  have hall : ∀ n < 128, hexRank? (Char.ofNat n) = (value? (UInt8.ofNat n)).map UInt8.toNat := by
    decide
  have hc := hall c.toNat h
  rwa [Char.ofNat_toNat] at hc

theorem toNat_lt_of_hexRank? {c : Char} {r : Nat} (h : hexRank? c = some r) : c.toNat < 128 := by
  have hval : c.toNat = c.val.toNat := rfl
  unfold hexRank? at h
  simp only [Bool.and_eq_true, decide_eq_true_eq, Char.le_def, UInt32.le_iff_toNat_le] at h
  split at h
  · rename_i hc
    exact Nat.lt_of_le_of_lt hc.2 (by decide)
  split at h
  · rename_i hc
    exact Nat.lt_of_le_of_lt hc.2 (by decide)
  split at h
  · rename_i hc
    exact Nat.lt_of_le_of_lt hc.2 (by decide)
  · cases h

/-- The number with one more digit. -/
def shift? (n : Option Nat) (o : UInt8) : Option Nat := do return 16*(← n)+(← value? o).toNat

def number? (ds : List UInt8) : Option Nat := ds.foldl shift? (some 0)

theorem foldl_shift?_none (ds : List UInt8) : ds.foldl shift? none = none := by
  induction ds with
  | nil => rfl
  | cons o ds ih => exact ih

theorem shift?_of_none {o : UInt8} (h : value? o = none) (n : Option Nat) : shift? n o = none := by
  rw [shift?, h]
  cases n <;> rfl

theorem number?_lt {ds : List UInt8} {n : Nat} (h : number? ds = some n) :
    n < Nat.pow 16 ds.length := by
  have hgeneral : ∀ m, ds.foldl shift? (some m) = some n → n < Nat.pow 16 ds.length*(m+1) := by
    clear h
    induction ds with
    | nil =>
      rintro m ⟨⟩
      simp
    | cons o ds ih =>
      intro m h
      rw [List.foldl_cons, shift?] at h
      cases ho : value? o with
      | none =>
        rw [ho] at h
        cases (foldl_shift?_none ds).symm.trans h
      | some v =>
        rw [ho] at h
        have hv := value?_lt ho
        have hmore : Nat.pow 16 (o :: ds).length = Nat.pow 16 ds.length*16 := rfl
        calc n < Nat.pow 16 ds.length*(16*m+v.toNat+1) := ih _ h
          _ ≤ Nat.pow 16 ds.length*(16*(m+1)) := Nat.mul_le_mul_left _ (by omega)
          _ = Nat.pow 16 (o :: ds).length*(m+1) := by rw [hmore, Nat.mul_assoc]
  simpa using hgeneral 0 h

/-- Pairs of digits as octets, and these as one number, are the digits as one number. -/
theorem readPairs_number : ∀ (ds : List UInt8) (position n : Nat), ds.length%2 = 0 →
    (readPairs position ds).toOption.map (·.foldl (fun n o => 256*n+o.toNat) n) =
      ds.foldl shift? (some n)
  | [], _, _, _ => rfl
  | [_], _, _, h => by cases h
  | high :: low :: rest, position, n, h => by
    have hrest := readPairs_number rest (position+2)
    rw [List.length_cons, List.length_cons] at h
    rw [List.foldl_cons, List.foldl_cons]
    simp only [readPairs, value]
    cases hh : value? high with
    | none =>
      rw [shift?_of_none hh]
      exact (foldl_shift?_none (low :: rest)).symm
    | some v =>
      cases hl : value? low with
      | none =>
        rw [shift?_of_none hl, foldl_shift?_none]
        rfl
      | some w =>
        have hv := value?_lt hh
        have hw := value?_lt hl
        have hoctet : (16*v+w).toNat = 16*v.toNat+w.toNat := by
          simp only [UInt8.toNat_add, UInt8.toNat_mul, UInt8.toNat_ofNat]
          omega
        have hshift : shift? (shift? (some n) high) low = some (256*n+(16*v+w).toNat) := by
          rw [shift?, shift?, hh, hl, hoctet]
          show some (16*(16*n+v.toNat)+w.toNat) = _
          congr 1
          omega
        rw [hshift, ← hrest (256*n+(16*v+w).toNat) (by omega)]
        cases readPairs (position+2) rest <;> rfl

/-- A zero in front makes the number of digits even and changes nothing else. -/
theorem number?_zero_cons (ds : List UInt8) : number? (48 :: ds) = number? ds := rfl

theorem foldl_shift?_utf8EncodeChar (c : Char) (n : Option Nat) :
    (String.utf8EncodeChar c).foldl shift? n = do return 16*(← n)+(← hexRank? c) := by
  rcases Nat.lt_or_ge c.toNat 128 with hc | hc
  · rw [utf8EncodeChar_of_lt hc, hexRank?_of_lt hc, List.foldl_cons, List.foldl_nil, shift?]
    cases n with
    | none => rfl
    | some n => cases value? (UInt8.ofNat c.toNat) <;> rfl
  · obtain ⟨o, os, ho, hle⟩ := exists_utf8EncodeChar_of_le hc
    have hrank : hexRank? c = none :=
      Option.eq_none_iff_forall_ne_some.mpr fun r hr => by
        have hlt := toNat_lt_of_hexRank? hr
        omega
    rw [ho, List.foldl_cons, shift?_of_none (value?_of_le hle), foldl_shift?_none, hrank]
    cases n <;> rfl

/-- The octets of a text stand for the number that its characters stand for. -/
theorem number?_flatMap (cs : List Char) :
    number? (cs.flatMap String.utf8EncodeChar) = hexRanks? cs := by
  have hgeneral : ∀ n, (cs.flatMap String.utf8EncodeChar).foldl shift? n =
      cs.foldl (fun n c => do return 16*(← n)+(← hexRank? c)) n := by
    induction cs with
    | nil => exact fun _ => rfl
    | cons c cs ih =>
      intro n
      rw [List.flatMap_cons, List.foldl_append, foldl_shift?_utf8EncodeChar, ih, List.foldl_cons]
  exact hgeneral (some 0)

theorem isSome_hexRank?_of_mem {cs : List Char} {n : Nat} (h : hexRanks? cs = some n) :
    ∀ c ∈ cs, (hexRank? c).isSome := by
  have hnone : ∀ ds : List Char,
      ds.foldl (fun n c => do return 16*(← n)+(← hexRank? c)) none = none := by
    intro ds
    induction ds with
    | nil => rfl
    | cons d ds ih => exact ih
  rw [hexRanks?] at h
  generalize some 0 = start at h
  induction cs generalizing start with
  | nil => exact fun _ hc => absurd hc List.not_mem_nil
  | cons d cs ih =>
    rw [List.foldl_cons] at h
    refine List.forall_mem_cons.mpr ⟨?_, ih _ h⟩
    cases hd : hexRank? d with
    | some r => rfl
    | none =>
      have hstep : (do return 16*(← start)+(← hexRank? d) : Option Nat) = none := by
        rw [hd]
        cases start <;> rfl
      rw [hstep, hnone] at h
      cases h

/-- Digits have as many octets as characters. -/
theorem length_flatMap_of_hexRanks? {cs : List Char} {n : Nat} (h : hexRanks? cs = some n) :
    (cs.flatMap String.utf8EncodeChar).length = cs.length := by
  have hall := isSome_hexRank?_of_mem h
  clear h
  induction cs with
  | nil => rfl
  | cons c cs ih =>
    obtain ⟨hc, hcs⟩ := List.forall_mem_cons.mp hall
    obtain ⟨r, hr⟩ := Option.isSome_iff_exists.mp hc
    rw [List.flatMap_cons, utf8EncodeChar_of_lt (toNat_lt_of_hexRank? hr), List.length_append,
      List.length_cons, List.length_cons, ih hcs, List.length_nil]
    omega

end Hex
end HardFork
