import HardFork.ChainId
import HardFork.Engine
import HardFork.Fork

/-! # Fork schedules: which fork is active at which height -/
namespace HardFork

structure Schedule where
  chainId : Option ChainId := none
  homesteadBlock : Threshold := .unscheduled
  daoForkBlock : Threshold := .unscheduled
  daoForkSupport : Bool := false
  eip150Block : Threshold := .unscheduled
  eip150Hash : Hash := .zero 32
  eip155Block : Threshold := .unscheduled
  eip158Block : Threshold := .unscheduled
  byzantiumBlock : Threshold := .unscheduled
  constantinopleBlock : Threshold := .unscheduled
  petersburgBlock : Threshold := .unscheduled
  istanbulBlock : Threshold := .unscheduled
  muirGlacierBlock : Threshold := .unscheduled
  berlinBlock : Threshold := .unscheduled
  cve39137Block : Threshold := .unscheduled
  ishikariBlock : Threshold := .unscheduled
  ishikariPatch1Block : Threshold := .unscheduled
  ishikariPatch2Block : Threshold := .unscheduled
  yoloV3Block : Threshold := .unscheduled
  ewasmBlock : Threshold := .unscheduled
  engine : Engine := .ethash
deriving DecidableEq

namespace Schedule

def threshold (s : Schedule) : Fork → Threshold
  | .homestead => s.homesteadBlock
  | .dao => s.daoForkBlock
  | .eip150 => s.eip150Block
  | .eip155 => s.eip155Block
  | .eip158 => s.eip158Block
  | .byzantium => s.byzantiumBlock
  | .constantinople => s.constantinopleBlock
  | .petersburg => s.petersburgBlock
  | .istanbul => s.istanbulBlock
  | .muirGlacier => s.muirGlacierBlock
  | .berlin => s.berlinBlock
  | .yoloV3 => s.yoloV3Block
  | .ewasm => s.ewasmBlock
  | .ishikari => s.ishikariBlock
  | .ishikariPatch1 => s.ishikariPatch1Block
  | .ishikariPatch2 => s.ishikariPatch2Block
  | .cve39137 => s.cve39137Block

def set (s : Schedule) : Fork → Threshold → Schedule
  | .homestead, t => {s with homesteadBlock := t}
  | .dao, t => {s with daoForkBlock := t}
  | .eip150, t => {s with eip150Block := t}
  | .eip155, t => {s with eip155Block := t}
  | .eip158, t => {s with eip158Block := t}
  | .byzantium, t => {s with byzantiumBlock := t}
  | .constantinople, t => {s with constantinopleBlock := t}
  | .petersburg, t => {s with petersburgBlock := t}
  | .istanbul, t => {s with istanbulBlock := t}
  | .muirGlacier, t => {s with muirGlacierBlock := t}
  | .berlin, t => {s with berlinBlock := t}
  | .yoloV3, t => {s with yoloV3Block := t}
  | .ewasm, t => {s with ewasmBlock := t}
  | .ishikari, t => {s with ishikariBlock := t}
  | .ishikariPatch1, t => {s with ishikariPatch1Block := t}
  | .ishikariPatch2, t => {s with ishikariPatch2Block := t}
  | .cve39137, t => {s with cve39137Block := t}

section
variable (s : Schedule) (f g : Fork) (t : Threshold)

/-- What is set at a fork is its threshold, and the other forks keep theirs. -/
@[simp] theorem threshold_set :
    (s.set f t).threshold g = if g = f then t else s.threshold g := by
  cases f <;> cases g <;> rfl

@[simp] theorem chainId_set : (s.set f t).chainId = s.chainId := by cases f <;> rfl

@[simp] theorem daoForkSupport_set : (s.set f t).daoForkSupport = s.daoForkSupport := by
  cases f <;> rfl

@[simp] theorem eip150Hash_set : (s.set f t).eip150Hash = s.eip150Hash := by cases f <;> rfl

@[simp] theorem engine_set : (s.set f t).engine = s.engine := by cases f <;> rfl

end

def withFork (s : Schedule) (f : Fork) (block : UInt64) : Schedule := s.set f (.scheduled block)
def withoutFork (s : Schedule) (f : Fork) : Schedule := s.set f .unscheduled

def isActive (s : Schedule) (f : Fork) (height : UInt64) : Bool := (s.threshold f).isActiveAt height

/-- An unscheduled Petersburg starts with Constantinople. -/
def isPetersburg (s : Schedule) (height : UInt64) : Bool :=
  s.isActive .petersburg height ||
    !(s.threshold .petersburg).isScheduled && s.isActive .constantinople height

/-- The YOLOv3 test network runs the Berlin rules. -/
def isBerlin (s : Schedule) (height : UInt64) : Bool :=
  s.isActive .berlin height || s.isActive .yoloV3 height

/-- Strictly past the fix; without a fix every height is. -/
def isCve39137Passed (s : Schedule) (height : UInt64) : Bool :=
  match s.threshold .cve39137 with
  | .unscheduled => true
  | .scheduled block => block < height

def activatesAt (s : Schedule) (f : Fork) (height : UInt64) : Bool :=
  (s.threshold f).activatesAt height

def validateEngine (s : Schedule) : Except Posa.Defect Unit :=
  match s.engine with
  | .posa p => p.validate (s.threshold .ishikari)
  | .ethash | .clique _ => .ok ()

def chainIdText (s : Schedule) : String :=
  match s.chainId with
  | none => "nil"
  | some id => toString id

protected def toString (s : Schedule) : String :=
  let shown (f : Fork) : String := toString (s.threshold f)
  "\x7bChainID: " ++ s.chainIdText ++
  " Homestead: " ++ shown .homestead ++
  " DAO: " ++ shown .dao ++
  " DAOSupport: " ++ toString s.daoForkSupport ++
  " EIP150: " ++ shown .eip150 ++
  " EIP155: " ++ shown .eip155 ++
  " EIP158: " ++ shown .eip158 ++
  " Byzantium: " ++ shown .byzantium ++
  " Constantinople: " ++ shown .constantinople ++
  " Petersburg: " ++ shown .petersburg ++
  " Istanbul: " ++ shown .istanbul ++
  ", Muir Glacier: " ++ shown .muirGlacier ++
  ", Berlin: " ++ shown .berlin ++
  ", cve_2021_39137Block:" ++ shown .cve39137 ++
  ", Ishikari: " ++ shown .ishikari ++
  ", IshikariPatch: " ++ shown .ishikariPatch1 ++
  ", YOLO v3: " ++ shown .yoloV3 ++
  ", Engine: " ++ toString s.engine ++ "\x7d"

instance : ToString Schedule := ⟨Schedule.toString⟩

def eip150HashSummary (s : Schedule) : String :=
  if s.eip150Hash.isZero then "none" else Hex.format s.eip150Hash.toList

end Schedule
end HardFork
