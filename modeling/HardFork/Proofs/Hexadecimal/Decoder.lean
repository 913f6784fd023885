import HardFork.Proofs.Hexadecimal.Refusal

/-! # A library that reads the digits of a text

A library reads digits in pairs into a given number of octets, and may refuse an odd number of them
or another number of octets than there is room for. Here the length of a text is checked before the
library is asked, so it finds fault with nothing but digits, and what is read does not depend on
which library it is. -/
namespace HardFork.Hex

/-- Why a library refuses digits. -/
inductive DecodeError
  | oddLength
  | wrongSize
  | invalidDigit (octet : UInt8) (place : Nat)
deriving DecidableEq

/-- What a library may reply that is to read digits into a number of octets. -/
inductive Reply (size : Nat) (ds : List UInt8) : Except DecodeError (List UInt8) → Prop
  | oddLength (h : ds.length%2 = 1) : Reply size ds (.error .oddLength)
  | wrongSize (h : ds.length/2 ≠ size) : Reply size ds (.error .wrongSize)
  | invalidDigit {o place} (h : FirstStray ds o place) :
      Reply size ds (.error (.invalidDigit o place))
  | octets {os} (h : readPairs 0 ds = .ok os) : Reply size ds (.ok os)

structure Decoder where
  decode : (size : Nat) → (ds : List UInt8) → Except DecodeError (List UInt8)
  reply : ∀ size ds, Reply size ds (decode size ds)

/-- Why a text is refused that a library reads. -/
inductive Refusal
  | length (expected got : Nat)
  | digits (e : DecodeError)
deriving DecidableEq

def Refusal.ofError : Error → Refusal
  | .invalidLength expected got => .length expected got
  | .invalidDigit octet place => .digits (.invalidDigit octet place)

namespace Decoder

/-- The length is checked before the library is asked. -/
def parse (decoder : Decoder) (width : Nat) (text : String) : Except Refusal (List UInt8) :=
  let ds := withoutMark (utf8 text)
  if ds.length ≠ 2*width then .error (.length width (ds.length/2))
  else (decoder.decode width ds).mapError .digits

/-- Whatever the library, a text is read as without it. -/
theorem parse_eq (decoder : Decoder) (width : Nat) (text : String) :
    decoder.parse width text = ((Hex.parse width text).map Octets.toList).mapError .ofError := by
  unfold parse
  dsimp only
  split
  · rename_i hl
    rw [parse_of_length_ne hl]
    rfl
  · rename_i hl
    have hl' : (withoutMark (utf8 text)).length = 2*width := Decidable.not_not.mp hl
    have hreply := decoder.reply width (withoutMark (utf8 text))
    generalize decoder.decode width (withoutMark (utf8 text)) = answer at hreply
    cases hreply with
    | oddLength hodd => omega
    | wrongSize hne => omega
    | invalidDigit hstray =>
      rw [parse_eq_invalidDigit_iff.mpr ⟨hl', hstray⟩]
      rfl
    | octets hread =>
      rw [map_parse hl', hread]
      rfl

/-- All that the library ever finds fault with is a digit. -/
theorem eq_invalidDigit_of_parse {decoder : Decoder} {width : Nat} {text : String}
    {e : DecodeError} (h : decoder.parse width text = .error (.digits e)) :
    ∃ o place, e = .invalidDigit o place := by
  rw [parse_eq] at h
  cases hparse : Hex.parse width text with
  | ok o =>
    rw [hparse] at h
    cases h
  | error e' =>
    rw [hparse] at h
    cases e' with
    | invalidLength expected got => cases h
    | invalidDigit o place =>
      cases h
      exact ⟨o, place, rfl⟩

/-- The lengths are checked first, then the digits are read pair by pair. -/
def pairwise : Decoder where
  decode size ds :=
    if ds.length%2 = 1 then .error .oddLength
    else if ds.length/2 ≠ size then .error .wrongSize
    else (readPairs 0 ds).mapError fun
      | .invalidDigit o place => .invalidDigit o place
      | .invalidLength _ _ => .wrongSize
  reply size ds := by
    split
    · rename_i hodd
      exact .oddLength hodd
    · rename_i heven
      split
      · rename_i hne
        exact .wrongSize hne
      · cases hread : readPairs 0 ds with
        | ok os => exact .octets hread
        | error e =>
          obtain ⟨o, place, hstray, rfl⟩ := (readPairs_eq_error_iff (by omega)).mp hread
          rw [Nat.zero_add]
          exact .invalidDigit hstray

end Decoder

end HardFork.Hex
