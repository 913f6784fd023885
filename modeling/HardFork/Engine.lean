import HardFork.Hex
import HardFork.Threshold

/-! # Consensus engines and their parameters -/
namespace HardFork

def Octets.toJson {width : Nat} (o : Octets width) : Json := .string (Hex.format o.toList)

def Octets.read (width : Nat) : Json.Reader (Octets width) := fun cs => do
  let (text, rest) ← Json.readText .string cs
  match Hex.parse width text with
  | .ok o => return (o, rest)
  | .error e => Json.misfit (.refused e.message) (.behind rest)

structure Clique where
  period : UInt64
  epoch : UInt64
deriving DecidableEq

/-- The lists and the administrator take effect when the Ishikari fork does. -/
structure Posa where
  period : UInt64
  epoch : UInt64
  validators : List Address
  managers : List Address
  admin : Address
deriving DecidableEq

inductive Engine
  | ethash
  | clique (parameters : Clique)
  | posa (parameters : Posa)
deriving DecidableEq

instance : Inhabited Posa := ⟨⟨3, 100, [], [], .zero 20⟩⟩
instance : Inhabited Engine := ⟨.ethash⟩

namespace Clique

def toJson (c : Clique) : Json :=
  .object [("period", .nat c.period.toNat), ("epoch", .nat c.epoch.toNat)]

structure Draft where
  period : Option UInt64 := none
  epoch : Option UInt64 := none

def record : Json.Record Draft Clique where
  name := "CliqueConfig"
  fields :=
    [.of "period" (·.period) (fun d n => {d with period := some n}) fun _ => Json.readNatural,
     .of "epoch" (·.epoch) (fun d n => {d with epoch := some n}) fun _ => Json.readNatural]
  blank := {}
  complete d := do
    let period ← Json.required "period" d.period
    let epoch ← Json.required "epoch" d.epoch
    return {period, epoch}

end Clique

namespace Posa

def toJson (p : Posa) : Json :=
  .object
    [("period", .nat p.period.toNat),
     ("epoch", .nat p.epoch.toNat),
     ("ishikariInitialValidators", .array (p.validators.map Octets.toJson)),
     ("ishikariInitialManagers", .array (p.managers.map Octets.toJson)),
     ("ishikariAdminAddress", p.admin.toJson)]

structure Draft where
  period : Option UInt64 := none
  epoch : Option UInt64 := none
  validators : Option (List Address) := none
  managers : Option (List Address) := none
  admin : Option Address := none

def readAddresses : Nat → Json.Reader (List Address) := Json.readList fun _ => Octets.read 20

def record : Json.Record Draft Posa where
  name := "PosaConfig"
  fields :=
    [.of "period" (·.period) (fun d n => {d with period := some n}) fun _ => Json.readNatural,
     .of "epoch" (·.epoch) (fun d n => {d with epoch := some n}) fun _ => Json.readNatural,
     .of "ishikariInitialValidators" (·.validators) (fun d a => {d with validators := some a})
       readAddresses,
     .of "ishikariInitialManagers" (·.managers) (fun d a => {d with managers := some a})
       readAddresses,
     .of "ishikariAdminAddress" (·.admin) (fun d a => {d with admin := some a})
       fun _ => Octets.read 20]
  blank := {}
  complete d := do
    let period ← Json.required "period" d.period
    let epoch ← Json.required "epoch" d.epoch
    return ⟨period, epoch, d.validators.getD [], d.managers.getD [], d.admin.getD (.zero 20)⟩

end Posa

namespace Engine

/-- The first engine has no parameters: whatever members are written are passed over. -/
def ethashRecord : Json.Record Unit Unit where
  name := "EthashConfig"
  fields := []
  blank := ()
  complete := .ok

def name : Engine → String
  | ethash => "ethash"
  | clique _ => "clique"
  | posa _ => "posa"

def parametersJson : Engine → Json
  | ethash => .object []
  | clique c => c.toJson
  | posa p => p.toJson

protected def toString : Engine → String
  | posa p => s!"posa({p.toJson.compact})"
  | engine => engine.name

instance : ToString Engine := ⟨Engine.toString⟩

end Engine

namespace Posa

inductive Defect
  | zeroPeriod
  | epochTooShort (epoch : UInt64)
  | noManagers
  | listsDiffer (managers validators : Nat)
  | notAtEpochEnd (block epoch : UInt64)
deriving DecidableEq

def Defect.message : Defect → String
  | .zeroPeriod => "POSAConfig.Period should not be 0"
  | .epochTooShort epoch => s!"POSAConfig.Epoch should not be less than 2 (got {epoch.toNat})"
  | .noManagers => "length of POSAConfig.IshikariInitialManagers must not be less than 1"
  | .listsDiffer managers validators =>
    s!"numbers of initial validators & initial managers do not match ({managers}!={validators})"
  | .notAtEpochEnd block epoch =>
    s!"IshikariBlock should be the last block of some epoch " ++
      s!"(block {block.toNat}, epoch {epoch.toNat})"

def minEpoch : UInt64 := 2

/-- The first defect in this order. Words wrap around, so the block after the last one is zero. -/
def validate (p : Posa) (ishikari : Threshold) : Except Defect Unit :=
  if p.period = 0 then .error .zeroPeriod
  else if p.epoch < minEpoch then .error (.epochTooShort p.epoch)
  else match ishikari with
    | .unscheduled => .ok ()
    | .scheduled block =>
      if p.managers.isEmpty then .error .noManagers
      else if p.managers.length ≠ p.validators.length then
        .error (.listsDiffer p.managers.length p.validators.length)
      else if (block+1)%p.epoch ≠ 0 then .error (.notAtEpochEnd block p.epoch)
      else .ok ()

end Posa
end HardFork
