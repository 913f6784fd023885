import HardFork.Folder
import HardFork.Schedule

/-! # Config documents: schedules in JSON

A document has a member for each fork that is scheduled, and one engine. It is first read as it is
written, with any number of engines and any value for a chain id, and then made a schedule. -/
namespace HardFork

/-- The members of a document that hold a block, as they follow one another. -/
inductive Document.Block
  | homestead | daoFork | eip150 | eip155 | eip158 | byzantium | constantinople | petersburg
  | istanbul | muirGlacier | berlin | cve39137 | ishikari | ishikariPatch1 | ishikariPatch2
  | yoloV3 | ewasm
deriving DecidableEq

structure Document where
  chainId : Option Json := none
  block : Document.Block → Threshold := fun _ => .unscheduled
  daoForkSupport : Bool := false
  eip150Hash : Hash := .zero 32
  ethash : Option Unit := none
  clique : Option Clique := none
  posa : Option Posa := none

namespace Document

/-- The name of a member, in camel case but for one. -/
def Block.key : Block → String
  | homestead => "homesteadBlock"
  | daoFork => "daoForkBlock"
  | eip150 => "eip150Block"
  | eip155 => "eip155Block"
  | eip158 => "eip158Block"
  | byzantium => "byzantiumBlock"
  | constantinople => "constantinopleBlock"
  | petersburg => "petersburgBlock"
  | istanbul => "istanbulBlock"
  | muirGlacier => "muirGlacierBlock"
  | berlin => "berlinBlock"
  | cve39137 => "cve_2021_39137Block"
  | ishikari => "ishikariBlock"
  | ishikariPatch1 => "ishikariPatch001Block"
  | ishikariPatch2 => "ishikariPatch002Block"
  | yoloV3 => "yoloV3Block"
  | ewasm => "ewasmBlock"

/-- The members of a document. -/
inductive Slot
  | chainId
  | block (b : Block)
  | daoForkSupport
  | eip150Hash
  | ethash
  | clique
  | posa
deriving DecidableEq

namespace Slot

def all : List Slot :=
  [chainId, block .homestead, block .daoFork, daoForkSupport, block .eip150, eip150Hash,
   block .eip155, block .eip158, block .byzantium, block .constantinople, block .petersburg,
   block .istanbul, block .muirGlacier, block .berlin, block .cve39137, block .ishikari,
   block .ishikariPatch1, block .ishikariPatch2, block .yoloV3, block .ewasm, ethash, clique, posa]

def key : Slot → String
  | chainId => "chainId"
  | block b => b.key
  | daoForkSupport => "daoForkSupport"
  | eip150Hash => "eip150Hash"
  | ethash => "ethash"
  | clique => "clique"
  | posa => "posa"

/-- The value of a member; what is unset is left out, but for the chain id. -/
def value? (d : Document) : Slot → Option Json
  | chainId => some (d.chainId.getD .null)
  | block b => (d.block b).block?.map fun n => .nat n.toNat
  | daoForkSupport => if d.daoForkSupport then some (.bool true) else none
  | eip150Hash => if d.eip150Hash.isZero then none else some d.eip150Hash.toJson
  | ethash => d.ethash.map fun _ => .object []
  | clique => d.clique.map Clique.toJson
  | posa => d.posa.map Posa.toJson

end Slot

def toJson (d : Document) : Json :=
  .object (Slot.all.filterMap fun slot => (slot.value? d).map fun v => (slot.key, v))

structure Draft where
  chainId : Option (Option Json) := none
  block : Block → Option Threshold := fun _ => none
  daoForkSupport : Option Bool := none
  eip150Hash : Option Hash := none
  ethash : Option (Option Unit) := none
  clique : Option (Option Clique) := none
  posa : Option (Option Posa) := none

def Slot.field : Slot → Json.Field Draft
  | chainId =>
    .of "chainId" (·.chainId) (fun d v => {d with chainId := some v})
      fun levels => Json.readOption (Json.readValue levels)
  | block b =>
    .of b.key (·.block b)
      (fun d t => {d with block := fun c => if c = b then some t else d.block c})
      fun _ => Threshold.read
  | daoForkSupport =>
    .of "daoForkSupport" (·.daoForkSupport) (fun d b => {d with daoForkSupport := some b})
      fun _ => Json.readBool
  | eip150Hash =>
    .of "eip150Hash" (·.eip150Hash) (fun d h => {d with eip150Hash := some h})
      fun _ => Octets.read 32
  | ethash =>
    .of "ethash" (·.ethash) (fun d e => {d with ethash := some e})
      fun levels => Json.readOption (Engine.ethashRecord.read levels)
  | clique =>
    .of "clique" (·.clique) (fun d c => {d with clique := some c})
      fun levels => Json.readOption (Clique.record.read levels)
  | posa =>
    .of "posa" (·.posa) (fun d p => {d with posa := some p})
      fun levels => Json.readOption (Posa.record.read levels)

/-- Only the chain id must be there. -/
def record : Json.Record Draft Document where
  name := "ChainConfigJson"
  fields := Slot.all.map Slot.field
  blank := {}
  complete d := do
    let chainId ← Json.required "chainId" d.chainId
    return {
      chainId
      block := fun b => (d.block b).getD .unscheduled
      daoForkSupport := d.daoForkSupport.getD false
      eip150Hash := d.eip150Hash.getD (.zero 32)
      ethash := d.ethash.getD none
      clique := d.clique.getD none
      posa := d.posa.getD none }

inductive Defect
  | engines (found : Nat)
  | chainId (e : ChainId.Error)

def Defect.message : Defect → String
  | .engines found => s!"Exactly one consensus engine must be configured, found {found}"
  | .chainId e => e.message

def engines (d : Document) : List Engine :=
  (d.ethash.map fun _ => Engine.ethash).toList ++ (d.clique.map Engine.clique).toList ++
    (d.posa.map Engine.posa).toList

def toSchedule (d : Document) : Except Defect Schedule :=
  match d.engines with
  | [engine] => do
    let chainId ← (ChainId.ofJson d.chainId).mapError .chainId
    return {
      chainId
      homesteadBlock := d.block .homestead
      daoForkBlock := d.block .daoFork
      daoForkSupport := d.daoForkSupport
      eip150Block := d.block .eip150
      eip150Hash := d.eip150Hash
      eip155Block := d.block .eip155
      eip158Block := d.block .eip158
      byzantiumBlock := d.block .byzantium
      constantinopleBlock := d.block .constantinople
      petersburgBlock := d.block .petersburg
      istanbulBlock := d.block .istanbul
      muirGlacierBlock := d.block .muirGlacier
      berlinBlock := d.block .berlin
      cve39137Block := d.block .cve39137
      ishikariBlock := d.block .ishikari
      ishikariPatch1Block := d.block .ishikariPatch1
      ishikariPatch2Block := d.block .ishikariPatch2
      yoloV3Block := d.block .yoloV3
      ewasmBlock := d.block .ewasm
      engine }
  | engines => .error (.engines engines.length)

def ofSchedule (s : Schedule) : Document where
  chainId := s.chainId.map ChainId.toJson
  block
    | .homestead => s.homesteadBlock
    | .daoFork => s.daoForkBlock
    | .eip150 => s.eip150Block
    | .eip155 => s.eip155Block
    | .eip158 => s.eip158Block
    | .byzantium => s.byzantiumBlock
    | .constantinople => s.constantinopleBlock
    | .petersburg => s.petersburgBlock
    | .istanbul => s.istanbulBlock
    | .muirGlacier => s.muirGlacierBlock
    | .berlin => s.berlinBlock
    | .cve39137 => s.cve39137Block
    | .ishikari => s.ishikariBlock
    | .ishikariPatch1 => s.ishikariPatch1Block
    | .ishikariPatch2 => s.ishikariPatch2Block
    | .yoloV3 => s.yoloV3Block
    | .ewasm => s.ewasmBlock
  daoForkSupport := s.daoForkSupport
  eip150Hash := s.eip150Hash
  ethash := match s.engine with | .ethash => some () | _ => none
  clique := match s.engine with | .clique c => some c | _ => none
  posa := match s.engine with | .posa p => some p | _ => none

end Document

namespace Schedule

def toJson (s : Schedule) : Json := (Document.ofSchedule s).toJson

/-- The text of a schedule in a file: one member a line. -/
def text (s : Schedule) : String := s.toJson.pretty

def compact (s : Schedule) : String := s.toJson.compact

inductive LoadError
  | json (e : Json.Error)
  | document (e : Document.Defect)
  | unreadable (cause : Unreadable)
  | notText

/-- Why a file cannot be read, without saying that it is a file. -/
def LoadError.reason : LoadError → String
  | .json e => e.message
  | .document e => e.message
  | .unreadable cause => cause.message
  | .notText => "stream did not contain valid UTF-8"

def LoadError.message : LoadError → String
  | .json e => s!"Invalid chain config JSON: {e.message}"
  | .document e => e.message
  | e => s!"Failed to read chain config: {e.reason}"

/-- The document is read to its end before a schedule is made of it. -/
def parse (text : String) : Except LoadError Schedule := do
  let document ← (Json.decode Document.record.read text).mapError .json
  document.toSchedule.mapError .document

/-- Makes the schedule where the document ends, before the rest of the text is looked at. -/
def read (levels : Nat) : Json.Reader Schedule := fun cs => do
  let (document, rest) ← Document.record.read levels cs
  match document.toSchedule with
  | .ok s => return (s, rest)
  | .error e => Json.misfit (.refused e.message) (.behind rest)

def decode (text : String) : Except Json.Error Schedule := Json.decode read text

def ofFile : Except Unreadable ByteArray → Except LoadError Schedule
  | .error cause => .error (.unreadable cause)
  | .ok octets =>
    match String.fromUTF8? octets with
    | none => .error .notText
    | some text => parse text

end Schedule
end HardFork
