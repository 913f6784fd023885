import HardFork.Hex.Literal
import HardFork.Proofs.Hexadecimal.Decoder

/-! # Constants and texts are read alike

A constant is read by position and a text from the left, with tables of digits of their own. They
have the same octets, and where one is refused so is the other, for its length or for a digit. Step
by step, reading a constant never leaves its octets. -/
namespace HardFork.Hex

namespace Literal

/-- A run ends early for a fault of the constant, or where it would leave the octets. -/
inductive Stop
  | outOfRange
  | fault (f : Fault)
deriving DecidableEq

def lookUp (text : Array UInt8) (i : Nat) : Except Stop UInt8 :=
  match text[i]? with
  | some o => .ok o
  | none => .error .outOfRange

def minus (m n : Nat) : Except Stop Nat := if n ≤ m then .ok (m-n) else .error .outOfRange

def nibble (c : UInt8) : Except Stop Nat :=
  match rank? c with
  | some r => .ok r
  | none => .error (.fault .invalidDigit)

/-- The octets of the mark are looked at one after the other. -/
def seesMark (text : Array UInt8) : Except Stop Bool :=
  if text.size < 2 then .ok false
  else do
    if (← lookUp text 0) ≠ 48 then return false
    let mark ← lookUp text 1
    return mark = 120 || mark = 88

/-- So many octets from a position on, two digits an octet. -/
def steps (text : Array UInt8) : (position count : Nat) → Except Stop (List UInt8)
  | _, 0 => .ok []
  | position, count+1 => do
    let high ← nibble (← lookUp text position)
    let low ← nibble (← lookUp text (position+1))
    let octets ← steps text (position+2) count
    return UInt8.ofNat (16*high+low) :: octets

def run (width : Nat) (text : String) : Except Stop (List UInt8) := do
  let octets := (utf8 text).toArray
  let start := if ← seesMark octets then 2 else 0
  if (← minus octets.size start) ≠ 2*width then .error (.fault .wrongLength)
  else steps octets start width

variable {text : Array UInt8} {position count width : Nat}

theorem lookUp_of_lt (h : position < text.size) : lookUp text position = .ok text[position] := by
  rw [lookUp, Array.getElem?_eq_getElem h]

theorem seesMark_eq (text : Array UInt8) : seesMark text = .ok (hasMark text) := by
  unfold seesMark hasMark
  split
  · rename_i hsize
    rw [decide_eq_false (by omega)]
    rfl
  · rename_i hsize
    rw [lookUp_of_lt (by omega), lookUp_of_lt (by omega), Array.getElem?_eq_getElem (by omega),
      Array.getElem?_eq_getElem (by omega), decide_eq_true (by omega)]
    by_cases h0 : text[0] = 48
    · simp [h0, bind, Except.bind, pure, Except.pure]
    · simp [h0, bind, Except.bind, pure, Except.pure]

/-- Where the digits begin. -/
def start (text : Array UInt8) : Nat := if hasMark text then 2 else 0

theorem start_le_size (text : Array UInt8) : start text ≤ text.size := by
  unfold start
  split
  · rename_i h
    simp only [hasMark, Bool.and_eq_true, decide_eq_true_eq] at h
    exact h.1.1
  · exact Nat.zero_le _

theorem drop_start (ds : List UInt8) : ds.drop (start ds.toArray) = withoutMark ds := by
  unfold withoutMark
  split
  · rfl
  · rfl
  · rename_i hx hX
    have hunmarked : hasMark ds.toArray = false := by
      match ds with
      | [] => rfl
      | [_] => rfl
      | first :: second :: rest =>
        simp only [hasMark, List.size_toArray, List.length_cons, List.getElem?_toArray,
          List.getElem?_cons_zero, List.getElem?_cons_succ, Option.some.injEq]
        by_cases hfirst : first = 48
        · have hsecond : second ≠ 120 ∧ second ≠ 88 :=
            ⟨fun h => hx rest (by rw [hfirst, h]), fun h => hX rest (by rw [hfirst, h])⟩
          simp [hsecond]
        · simp [hfirst]
    rw [start, hunmarked]
    rfl

theorem rank?_eq (c : UInt8) : rank? c = (value? c).map UInt8.toNat := by
  have hall : ∀ n < 256, rank? (UInt8.ofNat n) = (value? (UInt8.ofNat n)).map UInt8.toNat := by
    decide +kernel
  have hc := hall c.toNat c.toNat_lt
  rwa [UInt8.ofNat_toNat] at hc

/-- In range a step either has an octet or finds that a digit is none. -/
theorem steps_succ (h : position+1 < text.size) :
    steps text position (count+1) =
      match octetAt? text position with
      | some o => (steps text (position+2) count).map (o :: ·)
      | none => .error (.fault .invalidDigit) := by
  have hfirst : position < text.size := by omega
  rw [steps, lookUp_of_lt hfirst, lookUp_of_lt h, octetAt?, Array.getElem?_eq_getElem hfirst,
    Array.getElem?_eq_getElem h]
  simp only [bind, Except.bind, Option.bind, nibble]
  cases rank? text[position] with
  | none => rfl
  | some high =>
    cases rank? text[position+1] with
    | none => rfl
    | some low => cases steps text (position+2) count <;> rfl

theorem steps_eq_ite (h : position+2*count ≤ text.size) :
    steps text position count =
      if (List.range count).all fun i => (octetAt? text (position+2*i)).isSome then
        .ok ((List.range count).map fun i => (octetAt? text (position+2*i)).getD 0)
      else .error (.fault .invalidDigit) := by
  induction count generalizing position with
  | zero => rfl
  | succ count ih =>
    have hshift : ∀ i, position+2*(i+1) = position+2+2*i := fun i => by omega
    rw [steps_succ (by omega), ih (by omega), List.range_succ_eq_map, List.all_cons, List.all_map,
      List.map_cons, List.map_map]
    simp only [Function.comp_def, Nat.succ_eq_add_one, hshift, Nat.mul_zero, Nat.add_zero]
    cases octetAt? text position with
    | none => rfl
    | some o =>
      simp only [Option.isSome_some, Bool.true_and, Option.getD_some]
      split <;> rfl

theorem octetAt?_of_lt (h : position+1 < text.size) :
    octetAt? text position =
      (value? text[position]).bind fun high => (value? text[position+1]).map fun low =>
        16*high+low := by
  rw [octetAt?, Array.getElem?_eq_getElem (Nat.lt_of_succ_lt h), Array.getElem?_eq_getElem h]
  simp only [bind, Option.bind, rank?_eq]
  cases value? text[position] with
  | none => rfl
  | some high =>
    cases value? text[position+1] with
    | none => rfl
    | some low =>
      show some (UInt8.ofNat (16*high.toNat+low.toNat)) = some (16*high+low)
      rw [ofNat_pair]

theorem steps_eq_readPairs {place : Nat} (h : position+2*count = text.size) :
    steps text position count =
      (readPairs place (text.toList.drop position)).mapError fun _ => .fault .invalidDigit := by
  induction count generalizing position place with
  | zero =>
    rw [List.drop_of_length_le (by simp; omega)]
    rfl
  | succ count ih =>
    have hfirst : position < text.toList.length := by simp; omega
    have hsecond : position+1 < text.toList.length := by simp; omega
    rw [steps_succ (by omega), ih (by omega), octetAt?_of_lt (by omega),
      List.drop_eq_getElem_cons hfirst, List.drop_eq_getElem_cons hsecond, Array.getElem_toList,
      Array.getElem_toList]
    cases hh : value? text[position] with
    | none =>
      rw [readPairs_of_high hh]
      rfl
    | some high =>
      cases hl : value? text[position+1] with
      | none =>
        rw [readPairs_of_low hh hl]
        rfl
      | some low =>
        rw [readPairs_cons hh hl]
        show Except.map _ (Except.mapError _ (readPairs (place+2) _)) = _
        cases readPairs (place+2) (text.toList.drop (position+2)) <;> rfl

/-- A fault is known by its message. -/
theorem exists_message_iff {α : Type} {result : Except Fault α} (f : Fault) :
    (∃ g, result = .error g ∧ g.message = f.message) ↔ result = .error f := by
  have hinj : ∀ g : Fault, g.message = f.message → g = f := by
    intro g
    cases f <;> cases g <;> decide
  constructor
  · rintro ⟨g, hg, hmessage⟩
    rw [hg, hinj g hmessage]
  · exact fun h => ⟨f, h, rfl⟩

variable {text : String}

theorem run_eq (width : Nat) (text : String) :
    run width text =
      if (utf8 text).length-start (utf8 text).toArray ≠ 2*width then
        .error (.fault .wrongLength)
      else steps (utf8 text).toArray (start (utf8 text).toArray) width := by
  unfold run
  simp only [seesMark_eq, bind, Except.bind]
  rw [← start, minus, if_pos (start_le_size _), List.size_toArray]

theorem run_eq_read (width : Nat) (text : String) :
    run width text = ((read width text).map Octets.toList).mapError .fault := by
  rw [run_eq]
  by_cases hl : (utf8 text).length-start (utf8 text).toArray ≠ 2*width
  · have hread : read width text = .error .wrongLength := if_pos hl
    rw [if_pos hl, hread]
    rfl
  · have hle := start_le_size (utf8 text).toArray
    rw [List.size_toArray] at hle
    rw [if_neg hl, steps_eq_ite (by rw [List.size_toArray]; omega)]
    split
    · rename_i hall
      have hread : read width text = .ok ⟨_, _⟩ := (if_neg hl).trans (if_pos hall)
      rw [hread]
      rfl
    · rename_i hall
      have hread : read width text = .error .invalidDigit := (if_neg hl).trans (if_neg hall)
      rw [hread]
      rfl

/-- A text that is refused is no constant, for a fault of the same kind. -/
def Fault.ofError : Error → Fault
  | .invalidLength _ _ => .wrongLength
  | .invalidDigit _ _ => .invalidDigit

theorem run_eq_parse (width : Nat) (text : String) :
    run width text =
      ((parse width text).map Octets.toList).mapError fun e => .fault (.ofError e) := by
  have hdrop := drop_start (utf8 text)
  have hlength : (utf8 text).length-start (utf8 text).toArray =
      (withoutMark (utf8 text)).length := by
    rw [← List.length_drop, hdrop]
  rw [run_eq, hlength]
  split
  · rename_i hl
    rw [parse_of_length_ne hl]
    rfl
  · rename_i hl
    have hl' : (withoutMark (utf8 text)).length = 2*width := Decidable.not_not.mp hl
    have hsteps : steps (utf8 text).toArray (start (utf8 text).toArray) width =
        (readPairs 0 (withoutMark (utf8 text))).mapError fun _ => .fault .invalidDigit := by
      have hle := start_le_size (utf8 text).toArray
      rw [List.size_toArray] at hle
      rw [steps_eq_readPairs (by rw [List.size_toArray]; omega), hdrop]
    rw [hsteps, ← map_parse hl']
    cases h : parse width text with
    | ok o => rfl
    | error e =>
      obtain ⟨o, place, -, rfl⟩ := (parse_eq_error_iff hl').mp h
      rfl

end Literal

/-- What reading a constant and reading a text give. -/
inductive Alike {width : Nat} :
    Except Literal.Fault (Octets width) → Except Error (Octets width) → Prop
  | octets (o : Octets width) : Alike (.ok o) (.ok o)
  | refused (e : Error) : Alike (.error (.ofError e)) (.error e)

theorem alike (width : Nat) (text : String) :
    Alike (Literal.read width text) (parse width text) := by
  have h := (Literal.run_eq_read width text).symm.trans (Literal.run_eq_parse width text)
  generalize Literal.read width text = constant, parse width text = read at h
  cases constant with
  | ok o =>
    cases read with
    | ok o' =>
      obtain rfl : o = o' := Octets.ext (Except.ok.inj h)
      exact .octets o
    | error e => cases h
  | error f =>
    cases read with
    | ok o' => cases h
    | error e =>
      obtain rfl : f = .ofError e := Literal.Stop.fault.inj (Except.error.inj h)
      exact .refused e

namespace Alike

variable {width : Nat} {constant : Except Literal.Fault (Octets width)}
  {read : Except Error (Octets width)}

theorem ok_iff (h : Alike constant read) {o : Octets width} :
    constant = .ok o ↔ read = .ok o := by
  cases h with
  | octets o' => rw [Except.ok.injEq, Except.ok.injEq]
  | refused e => exact iff_of_false nofun nofun

theorem wrongLength_iff (h : Alike constant read) :
    constant = .error .wrongLength ↔
      ∃ expected got, read = .error (.invalidLength expected got) := by
  cases h with
  | octets o => exact iff_of_false nofun nofun
  | refused e =>
    cases e with
    | invalidLength expected got => exact iff_of_true rfl ⟨expected, got, rfl⟩
    | invalidDigit o place => exact iff_of_false nofun nofun

theorem invalidDigit_iff (h : Alike constant read) :
    constant = .error .invalidDigit ↔ ∃ o place, read = .error (.invalidDigit o place) := by
  cases h with
  | octets o => exact iff_of_false nofun nofun
  | refused e =>
    cases e with
    | invalidLength expected got => exact iff_of_false nofun nofun
    | invalidDigit o place => exact iff_of_true rfl ⟨o, place, rfl⟩

end Alike

/-- A constant has the octets that a text has, and is refused where a text is, for its length or for
a digit. Reading it stays within its octets, and a library that reads the digits of a text never
finds fault with how many they are. -/
theorem constants_and_texts_alike (width : Nat) (text : String) :
    (∀ o, Literal.read width text = .ok o ↔ parse width text = .ok o) ∧
    ((∃ f, Literal.read width text = .error f ∧ f.message = "hex literal has wrong length") ↔
      ∃ expected got, parse width text = .error (.invalidLength expected got)) ∧
    ((∃ f, Literal.read width text = .error f ∧ f.message = "invalid hex digit in literal") ↔
      ∃ o place, parse width text = .error (.invalidDigit o place)) ∧
    (Literal.run width text = ((Literal.read width text).map Octets.toList).mapError .fault ∧
      Literal.run width text ≠ .error .outOfRange) ∧
    ∀ decoder : Decoder,
      decoder.parse width text = ((parse width text).map Octets.toList).mapError .ofError ∧
      decoder.parse width text ≠ .error (.digits .oddLength) ∧
      decoder.parse width text ≠ .error (.digits .wrongSize) := by
  have h := alike width text
  refine ⟨fun o => h.ok_iff, ?_, ?_, ⟨Literal.run_eq_read width text, ?_⟩, fun decoder => ?_⟩
  · rw [← h.wrongLength_iff]
    exact Literal.exists_message_iff .wrongLength
  · rw [← h.invalidDigit_iff]
    exact Literal.exists_message_iff .invalidDigit
  · rw [Literal.run_eq_read]
    cases Literal.read width text <;> nofun
  · refine ⟨decoder.parse_eq width text, fun h => ?_, fun h => ?_⟩
    · obtain ⟨_, _, ⟨⟩⟩ := Decoder.eq_invalidDigit_of_parse h
    · obtain ⟨_, _, ⟨⟩⟩ := Decoder.eq_invalidDigit_of_parse h

/-- The digit behind a good one is refused in a constant and by the library. -/
theorem stray_digit_refused_alike :
    (∃ f, Literal.read 1 "0X0g" = .error f ∧ f.message = "invalid hex digit in literal") ∧
    Decoder.pairwise.parse 1 "0X0g" = .error (.digits (.invalidDigit 103 1)) := by
  obtain ⟨-, -, hdigit, -, hdecoder⟩ := constants_and_texts_alike 1 "0X0g"
  have hparse : parse 1 "0X0g" = .error (.invalidDigit 103 1) := rfl
  refine ⟨hdigit.mpr ⟨_, _, hparse⟩, ?_⟩
  rw [(hdecoder Decoder.pairwise).1, hparse]
  rfl

end HardFork.Hex
