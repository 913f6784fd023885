import HardFork.Octets

/-! # The hash function Keccak-256

Lane `x+5*y` of the state stands in column `x` of plane `y`. -/
namespace HardFork.Keccak

abbrev State := Vector UInt64 25

def lane (s : State) (x y : Nat) : UInt64 :=
  s.get ⟨x%5+5*(y%5), by omega⟩

def ofLanes (f : Nat → Nat → UInt64) : State := Vector.ofFn fun i => f (i.val%5) (i.val/5)

def rotateLeft (w : UInt64) (n : Nat) : UInt64 :=
  if n = 0 then w else (w <<< UInt64.ofNat n) ||| (w >>> UInt64.ofNat (64-n))

def rotations : List Nat :=
  [0, 1, 62, 28, 27, 36, 44, 6, 55, 20, 3, 10, 43, 25, 39, 41, 45, 15, 21, 8, 18, 2, 61, 56, 14]

def roundConstants : List UInt64 :=
  [0x0000000000000001, 0x0000000000008082, 0x800000000000808a, 0x8000000080008000,
   0x000000000000808b, 0x0000000080000001, 0x8000000080008081, 0x8000000000008009,
   0x000000000000008a, 0x0000000000000088, 0x0000000080008009, 0x000000008000000a,
   0x000000008000808b, 0x800000000000008b, 0x8000000000008089, 0x8000000000008003,
   0x8000000000008002, 0x8000000000000080, 0x000000000000800a, 0x800000008000000a,
   0x8000000080008081, 0x8000000000008080, 0x0000000080000001, 0x8000000080008008]

/-- Adds to each column the parities of its two neighbours. -/
def theta (s : State) : State :=
  let parity : Vector UInt64 5 := Vector.ofFn fun x =>
    lane s x 0 ^^^ lane s x 1 ^^^ lane s x 2 ^^^ lane s x 3 ^^^ lane s x 4
  let column (x : Nat) : UInt64 := parity.get ⟨x%5, by omega⟩
  ofLanes fun x y => lane s x y ^^^ column (x+4) ^^^ rotateLeft (column (x+1)) 1

/-- Turns each lane by its own amount and moves it to its new place. -/
def rhoPi (s : State) : State :=
  ofLanes fun x y =>
    let source := (x+3*y)%5
    rotateLeft (lane s source x) (rotations.getD (source+5*x) 0)

def chi (s : State) : State :=
  ofLanes fun x y => lane s x y ^^^ (~~~lane s (x+1) y &&& lane s (x+2) y)

def iota (s : State) (constant : UInt64) : State :=
  ofLanes fun x y => if x = 0 && y = 0 then lane s x y ^^^ constant else lane s x y

def permute (s : State) : State :=
  roundConstants.foldl (fun s constant => iota (chi (rhoPi (theta s))) constant) s

def rate : Nat := 136

/-- Fills the last block with a one bit in front and a one bit at its end. -/
def pad (message : List UInt8) : List UInt8 :=
  let free := rate-message.length%rate
  message ++ if free = 1 then [0x81] else 0x01 :: List.replicate (free-2) 0 ++ [0x80]

def littleEndian (octets : List UInt8) : UInt64 :=
  octets.foldr (fun o w => (w <<< 8) ||| o.toUInt64) 0

def wordOctets (w : UInt64) : List UInt8 :=
  (List.range 8).map fun i => (w >>> UInt64.ofNat (8*i)).toUInt8

def absorb (s : State) (block : List UInt8) : State :=
  permute (ofLanes fun x y =>
    let i := x+5*y
    if 8*i < rate then lane s x y ^^^ littleEndian ((block.drop (8*i)).take 8) else lane s x y)

def sponge (message : List UInt8) : State :=
  let padded := pad message
  (List.range (padded.length/rate)).foldl
    (fun s i => absorb s ((padded.drop (rate*i)).take rate)) (Vector.replicate 25 0)

end HardFork.Keccak

namespace HardFork

/-- The first four lanes after the last block, the least octet of each first. -/
def keccak256 (message : List UInt8) : Hash :=
  let s := Keccak.sponge message
  ⟨(List.range 4).flatMap fun i => Keccak.wordOctets (Keccak.lane s i 0),
    by simp [Keccak.wordOctets, List.range, List.range.loop]⟩

end HardFork
