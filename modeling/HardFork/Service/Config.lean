import HardFork.Json.Record

/-! # What a service does about a schedule that does not fit the chain -/
namespace HardFork.Service

inductive Policy | reject | rewind
deriving DecidableEq

def Policy.name : Policy → String
  | .reject => "reject"
  | .rewind => "rewind"

structure Config where
  policy : Policy
  validateEngine : Bool
deriving DecidableEq

instance : Inhabited Config := ⟨⟨.reject, true⟩⟩

namespace Config

def testing : Config := ⟨.rewind, true⟩

def toJson (c : Config) : Json :=
  .object
    [("compatibility_policy", .string c.policy.name),
     ("validate_engine", .bool c.validateEngine)]

structure Draft where
  policy : Option Policy := none
  validateEngine : Option Bool := none

def policies : List (String × Policy) := [Policy.reject, .rewind].map fun p => (p.name, p)

def record : Json.Record Draft Config where
  name := "ChainConfigServiceConfig"
  fields :=
    [.of "compatibility_policy" (·.policy) (fun d p => {d with policy := some p})
       (Json.readVariant policies),
     .of "validate_engine" (·.validateEngine) (fun d b => {d with validateEngine := some b})
       fun _ => Json.readBool]
  blank := {}
  complete d := do
    let policy ← Json.required "compatibility_policy" d.policy
    let validateEngine ← Json.required "validate_engine" d.validateEngine
    return {policy, validateEngine}

def decode (text : String) : Except Json.Error Config := Json.decode record.read text

end Config
end HardFork.Service
