import HardFork.Schedule

/-! # The rules in force at one height of a schedule -/
namespace HardFork

structure Rules where
  chainId : ChainId
  isHomestead : Bool
  isEip150 : Bool
  isEip155 : Bool
  isEip158 : Bool
  isByzantium : Bool
  isConstantinople : Bool
  isPetersburg : Bool
  isIstanbul : Bool
  isBerlin : Bool
  isIshikari : Bool
  isCve39137Passed : Bool
deriving DecidableEq

/-- A schedule without a chain id runs under the id zero. -/
def Schedule.rules (s : Schedule) (height : UInt64) : Rules where
  chainId := s.chainId.getD default
  isHomestead := s.isActive .homestead height
  isEip150 := s.isActive .eip150 height
  isEip155 := s.isActive .eip155 height
  isEip158 := s.isActive .eip158 height
  isByzantium := s.isActive .byzantium height
  isConstantinople := s.isActive .constantinople height
  isPetersburg := s.isPetersburg height
  isIstanbul := s.isActive .istanbul height
  isBerlin := s.isBerlin height
  isIshikari := s.isActive .ishikari height
  isCve39137Passed := s.isCve39137Passed height

namespace Rules

def flags (r : Rules) : List (String × Bool) :=
  [("is_homestead", r.isHomestead),
   ("is_eip150", r.isEip150),
   ("is_eip155", r.isEip155),
   ("is_eip158", r.isEip158),
   ("is_byzantium", r.isByzantium),
   ("is_constantinople", r.isConstantinople),
   ("is_petersburg", r.isPetersburg),
   ("is_istanbul", r.isIstanbul),
   ("is_berlin", r.isBerlin),
   ("is_ishikari", r.isIshikari),
   ("is_cve_2021_39137_passed", r.isCve39137Passed)]

/-- One line a flag, between braces. -/
def listing (r : Rules) : String :=
  let line (name value : String) : String := s!"    {name}: {value},\n"
  "Rules \x7b\n" ++ line "chain_id" (toString r.chainId) ++
    String.join (r.flags.map fun (name, value) => line name (toString value)) ++ "\x7d"

end Rules
end HardFork
