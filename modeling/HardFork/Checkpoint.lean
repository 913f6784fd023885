import HardFork.Engine
import HardFork.Keccak

/-! # Trusted checkpoints and the contracts that announce them -/
namespace HardFork

structure Checkpoint where
  sectionIndex : UInt64
  sectionHead : Hash
  chtRoot : Hash
  bloomRoot : Hash
deriving DecidableEq

structure Oracle where
  address : Address
  signers : List Address
  threshold : UInt64
deriving DecidableEq

namespace Checkpoint

def preimageLength : Nat := 104

/-- The index, the most significant octet first, and the three hashes. -/
def preimage (c : Checkpoint) : List UInt8 :=
  bigEndian 8 c.sectionIndex.toNat ++ c.sectionHead.toList ++ c.chtRoot.toList ++ c.bloomRoot.toList

@[simp] theorem length_preimage (c : Checkpoint) : c.preimage.length = preimageLength := by
  simp [preimage, preimageLength, Octets.length_toList]

def hash (c : Checkpoint) : Hash := keccak256 c.preimage

/-- Empty when one of the hashes is zero, whatever the index. -/
def isEmpty (c : Checkpoint) : Bool :=
  c.sectionHead.isZero || c.chtRoot.isZero || c.bloomRoot.isZero

/-- An empty checkpoint has the digest zero and no other. -/
def accepts (c : Checkpoint) (digest : Hash) : Bool :=
  if c.isEmpty then digest.isZero else c.hash = digest

def toJson (c : Checkpoint) : Json :=
  .object
    [("sectionIndex", .nat c.sectionIndex.toNat),
     ("sectionHead", c.sectionHead.toJson),
     ("chtRoot", c.chtRoot.toJson),
     ("bloomRoot", c.bloomRoot.toJson)]

structure Draft where
  sectionIndex : Option UInt64 := none
  sectionHead : Option Hash := none
  chtRoot : Option Hash := none
  bloomRoot : Option Hash := none

def record : Json.Record Draft Checkpoint where
  name := "TrustedCheckpoint"
  fields :=
    [.of "sectionIndex" (·.sectionIndex) (fun d n => {d with sectionIndex := some n})
       fun _ => Json.readNatural,
     .of "sectionHead" (·.sectionHead) (fun d h => {d with sectionHead := some h})
       fun _ => Octets.read 32,
     .of "chtRoot" (·.chtRoot) (fun d h => {d with chtRoot := some h}) fun _ => Octets.read 32,
     .of "bloomRoot" (·.bloomRoot) (fun d h => {d with bloomRoot := some h})
       fun _ => Octets.read 32]
  blank := {}
  complete d := do
    let sectionIndex ← Json.required "sectionIndex" d.sectionIndex
    let sectionHead ← Json.required "sectionHead" d.sectionHead
    let chtRoot ← Json.required "chtRoot" d.chtRoot
    let bloomRoot ← Json.required "bloomRoot" d.bloomRoot
    return {sectionIndex, sectionHead, chtRoot, bloomRoot}

def decode (text : String) : Except Json.Error Checkpoint := Json.decode record.read text

end Checkpoint

namespace Oracle

def toJson (o : Oracle) : Json :=
  .object
    [("address", o.address.toJson),
     ("signers", .array (o.signers.map Octets.toJson)),
     ("threshold", .nat o.threshold.toNat)]

structure Draft where
  address : Option Address := none
  signers : Option (List Address) := none
  threshold : Option UInt64 := none

def record : Json.Record Draft Oracle where
  name := "CheckpointOracleConfig"
  fields :=
    [.of "address" (·.address) (fun d a => {d with address := some a}) fun _ => Octets.read 20,
     .of "signers" (·.signers) (fun d s => {d with signers := some s})
       (Json.readList fun _ => Octets.read 20),
     .of "threshold" (·.threshold) (fun d n => {d with threshold := some n})
       fun _ => Json.readNatural]
  blank := {}
  complete d := do
    let address ← Json.required "address" d.address
    let signers ← Json.required "signers" d.signers
    let threshold ← Json.required "threshold" d.threshold
    return {address, signers, threshold}

def decode (text : String) : Except Json.Error Oracle := Json.decode record.read text

end Oracle

/-- A root and the addresses that stand for it. -/
structure SignedRoot where
  root : Hash
  signers : List Address
deriving DecidableEq

namespace SignedRoot

def toJson (r : SignedRoot) : Json :=
  .object [("root", r.root.toJson), ("signers", .array (r.signers.map Octets.toJson))]

structure Draft where
  root : Option Hash := none
  signers : Option (List Address) := none

def record : Json.Record Draft SignedRoot where
  name := "Sample"
  fields :=
    [.of "root" (·.root) (fun d h => {d with root := some h}) fun _ => Octets.read 32,
     .of "signers" (·.signers) (fun d s => {d with signers := some s})
       (Json.readList fun _ => Octets.read 20)]
  blank := {}
  complete d := do
    let root ← Json.required "root" d.root
    let signers ← Json.required "signers" d.signers
    return {root, signers}

def decode (text : String) : Except Json.Error SignedRoot := Json.decode record.read text

end SignedRoot
end HardFork
