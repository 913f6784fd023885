/-! # The forks of a chain, in protocol order -/
namespace HardFork

inductive Fork
  | homestead | dao | eip150 | eip155 | eip158 | byzantium | constantinople | petersburg | istanbul
  | muirGlacier | berlin | yoloV3 | ewasm | ishikari | ishikariPatch1 | ishikariPatch2 | cve39137
deriving DecidableEq

namespace Fork

def all : List Fork :=
  [homestead, dao, eip150, eip155, eip158, byzantium, constantinople, petersburg, istanbul,
   muirGlacier, berlin, yoloV3, ewasm, ishikari, ishikariPatch1, ishikariPatch2, cve39137]

theorem mem_all (f : Fork) : f ∈ all := by cases f <;> decide

def rank (f : Fork) : Nat := all.idxOf f

/-- The member that holds the fork's threshold in a config document. -/
def key : Fork → String
  | homestead => "homesteadBlock"
  | dao => "daoForkBlock"
  | eip150 => "eip150Block"
  | eip155 => "eip155Block"
  | eip158 => "eip158Block"
  | byzantium => "byzantiumBlock"
  | constantinople => "constantinopleBlock"
  | petersburg => "petersburgBlock"
  | istanbul => "istanbulBlock"
  | muirGlacier => "muirGlacierBlock"
  | berlin => "berlinBlock"
  | yoloV3 => "yoloV3Block"
  | ewasm => "ewasmBlock"
  | ishikari => "ishikariBlock"
  | ishikariPatch1 => "ishikariPatch001Block"
  | ishikariPatch2 => "ishikariPatch002Block"
  | cve39137 => "cve_2021_39137Block"

def label : Fork → String
  | homestead => "Homestead fork block"
  | dao => "DAO fork block"
  | eip150 => "EIP150 fork block"
  | eip155 => "EIP155 fork block"
  | eip158 => "EIP158 fork block"
  | byzantium => "Byzantium fork block"
  | constantinople => "Constantinople fork block"
  | petersburg => "Petersburg fork block"
  | istanbul => "Istanbul fork block"
  | muirGlacier => "Muir Glacier fork block"
  | berlin => "Berlin fork block"
  | yoloV3 => "YOLOv3 fork block"
  | ewasm => "ewasm fork block"
  | ishikari => "Ishikari fork block"
  | ishikariPatch1 => "IshikariPatch001 fork block"
  | ishikariPatch2 => "IshikariPatch002 fork block"
  | cve39137 => "cve_2021_39137 fork block"

/-- The bare name of a fork. -/
def name : Fork → String
  | homestead => "Homestead"
  | dao => "DaoFork"
  | eip150 => "Eip150"
  | eip155 => "Eip155"
  | eip158 => "Eip158"
  | byzantium => "Byzantium"
  | constantinople => "Constantinople"
  | petersburg => "Petersburg"
  | istanbul => "Istanbul"
  | muirGlacier => "MuirGlacier"
  | berlin => "Berlin"
  | yoloV3 => "YoloV3"
  | ewasm => "Ewasm"
  | ishikari => "Ishikari"
  | ishikariPatch1 => "IshikariPatch001"
  | ishikariPatch2 => "IshikariPatch002"
  | cve39137 => "Cve2021_39137"

end Fork
end HardFork
