import HardFork.Compatibility
import HardFork.Ordering
import HardFork.Rules
import HardFork.Service.Config
import HardFork.Service.Host

/-! # The service that keeps the active schedule

A schedule becomes active when it is valid and stored. A later one replaces it when it agrees with
the processed blocks, or after the chain has gone back to where it does. -/
namespace HardFork.Service

inductive Error
  | order (v : Ordering.Violation)
  | engine (d : Posa.Defect)
  | incompatible (c : Compatibility.Conflict)
  | store (e : StoreError)
  | rewindFailed (height : UInt64) (reason : String)
  | notInitialised
deriving DecidableEq

def Error.message : Error → String
  | .order v => v.message
  | .engine d => d.message
  | .incompatible c => c.message
  | .store e => e.message
  | .rewindFailed height reason => s!"Rewind to block {height.toNat} failed: {reason}"
  | .notInitialised => "Chain config not initialised: load genesis first"

inductive Outcome
  | accepted
  | rewound (c : Compatibility.Conflict)
deriving DecidableEq

inductive Event
  | conflict (f : Compatibility.Finding)
  | incompatible (head : UInt64) (c : Compatibility.Conflict)
  | rewound (height : UInt64)
  | rejectedGenesis (e : Error)
  | resumed (s : Schedule)
  | activated (s : Schedule)

def Event.line : Event → Log.Line
  | .conflict f =>
    ⟨.debug, s!"Conflict on {f.conflict.subject.label} at head {f.head.toNat}, " ++
      s!"rewinding to {f.conflict.rewindTo.toNat}"⟩
  | .incompatible head c => ⟨.warn, s!"Incompatible chain config at head {head.toNat}: {c.message}"⟩
  | .rewound height => ⟨.warn, s!"Rewound chain to block {height.toNat}"⟩
  | .rejectedGenesis e => ⟨.error, s!"Rejected genesis chain config: {e.message}"⟩
  | .resumed s => ⟨.info, s!"Resumed stored chain config: {s}"⟩
  | .activated s => ⟨.info, s!"Activated chain config: {s} (eip150 hash {s.eip150HashSummary})"⟩

variable {σ α : Type}

structure State (σ : Type) where
  active : Option Schedule
  world : σ
deriving DecidableEq

structure Reply (σ α : Type) where
  result : Except Error α
  state : State σ
  events : List Event

def State.isInitialised (s : State σ) : Bool := s.active.isSome

def start (world : σ) : State σ := ⟨none, world⟩

/-- The order of the forks, then the engine if the service looks at it. -/
def validate (config : Config) (s : Schedule) : Except Error Unit :=
  match s.checkOrder with
  | .error v => .error (.order v)
  | .ok () =>
    if config.validateEngine then (s.validateEngine).mapError .engine else .ok ()

/-- Stores a schedule and makes it active; `before` is what happened first. -/
def activate (host : Host σ) (s : Schedule) (answer : α) (before : List Event) (state : State σ) :
    Reply σ α :=
  match host.store s state.world with
  | (.error e, world) => ⟨.error (.store e), {state with world}, before⟩
  | (.ok (), world) => ⟨.ok answer, ⟨some s, world⟩, before ++ [.activated s]⟩

def loadGenesis (host : Host σ) (config : Config) (s : Schedule) (state : State σ) : Reply σ Unit :=
  match validate config s with
  | .error e => ⟨.error e, state, [.rejectedGenesis e]⟩
  | .ok () => activate host s () [] state

/-- Makes the stored schedule active, if it is valid. -/
def resume (host : Host σ) (config : Config) (state : State σ) : Reply σ Unit :=
  match host.load state.world with
  | (.error e, world) => ⟨.error (.store e), {state with world}, []⟩
  | (.ok s, world) =>
    match validate config s with
    | .error e => ⟨.error e, {state with world}, []⟩
    | .ok () => ⟨.ok (), ⟨some s, world⟩, [.resumed s]⟩

/-- Goes back below the conflict, then activates the candidate. -/
def rewindAndActivate (host : Host σ) (candidate : Schedule) (c : Compatibility.Conflict)
    (before : List Event) (state : State σ) : Reply σ Outcome :=
  match host.rewind c.rewindTo state.world with
  | (.error reason, world) => ⟨.error (.rewindFailed c.rewindTo reason), {state with world}, before⟩
  | (.ok (), world) =>
    activate host candidate (.rewound c) (before ++ [.rewound c.rewindTo]) {state with world}

def importSchedule (host : Host σ) (config : Config) (candidate : Schedule) (head : UInt64)
    (state : State σ) : Reply σ Outcome :=
  match state.active with
  | none => ⟨.error .notInitialised, state, []⟩
  | some active =>
    match validate config candidate with
    | .error e => ⟨.error e, state, []⟩
    | .ok () =>
      let findings := (Compatibility.search active candidate head).map Event.conflict
      match Compatibility.lowest? active candidate head with
      | none => activate host candidate .accepted findings state
      | some c =>
        let events := findings ++ [.incompatible head c]
        match config.policy with
        | .reject => ⟨.error (.incompatible c), state, events⟩
        | .rewind => rewindAndActivate host candidate c events state

def activeSchedule (state : State σ) : Except Error Schedule :=
  match state.active with
  | some s => .ok s
  | none => .error .notInitialised

def rulesAt (state : State σ) (height : UInt64) : Except Error Rules := do
  let s ← activeSchedule state
  return s.rules height

end HardFork.Service
