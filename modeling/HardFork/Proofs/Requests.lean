import HardFork.Proofs.Import

/-! # Requests to a service

A service is asked to load a genesis schedule, to import another one, to resume with the stored one,
or what is in force. A request is refused, only told something, or puts a schedule in force: `Step`
says so once for all requests, with all that the host was asked meanwhile. -/
namespace HardFork.Service
open Compatibility

variable {σ α β : Type}

inductive Request
  | loadGenesis (genesis : Schedule)
  | importSchedule (candidate : Schedule) (head : UInt64)
  | resume
  | rulesAt (height : UInt64)
  | activeSchedule
deriving DecidableEq

inductive Answer
  | done
  | imported (outcome : Outcome)
  | rules (r : Rules)
  | schedule (s : Schedule)

def Reply.map (f : α → β) (reply : Reply σ α) : Reply σ β :=
  ⟨reply.result.map f, reply.state, reply.events⟩

def answer (host : Host σ) (config : Config) (state : State σ) : Request → Reply σ Answer
  | .loadGenesis genesis => (loadGenesis host config genesis state).map fun _ => .done
  | .importSchedule candidate head =>
    (importSchedule host config candidate head state).map .imported
  | .resume => (resume host config state).map fun _ => .done
  | .rulesAt height => ⟨(rulesAt state height).map .rules, state, []⟩
  | .activeSchedule => ⟨(activeSchedule state).map .schedule, state, []⟩

/-- The state after the requests, one after the other. -/
def serve (host : Host σ) (config : Config) (state : State σ) (requests : List Request) : State σ :=
  requests.foldl (fun now request => (answer host config now request).state) state

/-- What the host was asked before a request was refused, and the state that it was left in. -/
inductive Refusal (host : Host σ) (world : σ) : σ → Prop
  | unasked : Refusal host world world
  | load {answer world'} (hl : host.load world = (answer, world')) : Refusal host world world'
  | store {s e world'} (hs : host.store s world = (.error e, world')) : Refusal host world world'
  | rewind {height reason world'} (hr : host.rewind height world = (.error reason, world')) :
      Refusal host world world'
  | storeAfterRewind {height s e world' world''}
      (hr : host.rewind height world = (.ok (), world'))
      (hs : host.store s world' = (.error e, world'')) : Refusal host world world''

/-- The ways in which a request puts a schedule in force. -/
inductive Installs (host : Host σ) (config : Config) (before : State σ) (s : Schedule) (world : σ) :
    Request → Prop
  | genesis (hs : host.store s before.world = (.ok (), world)) :
      Installs host config before s world (.loadGenesis s)
  | resumed (hl : host.load before.world = (.ok s, world)) :
      Installs host config before s world .resume
  | accepted {active head} (ha : before.active = some active)
      (hc : lowest? active s head = none)
      (hs : host.store s before.world = (.ok (), world)) :
      Installs host config before s world (.importSchedule s head)
  | rewound {active head c world'} (ha : before.active = some active)
      (hc : lowest? active s head = some c) (hp : config.policy = .rewind)
      (hr : host.rewind c.rewindTo before.world = (.ok (), world'))
      (hs : host.store s world' = (.ok (), world)) :
      Installs host config before s world (.importSchedule s head)

/-- A request: its result, and the state after it. -/
inductive Step (host : Host σ) (config : Config) (before : State σ) (request : Request) :
    Except Error Answer → State σ → Prop
  | refused {e world} (hw : Refusal host before.world world) :
      Step host config before request (.error e) ⟨before.active, world⟩
  | told {a} : Step host config before request (.ok a) before
  | installed {a s world} (hv : validate config s = .ok ())
      (hi : Installs host config before s world request) :
      Step host config before request (.ok a) ⟨some s, world⟩

theorem step_loadGenesis (host : Host σ) (config : Config) (before : State σ) (genesis : Schedule) :
    Step host config before (.loadGenesis genesis)
      (answer host config before (.loadGenesis genesis)).result
      (answer host config before (.loadGenesis genesis)).state := by
  obtain ⟨previous, world⟩ := before
  cases hv : validate config genesis with
  | error e =>
    simp only [answer, loadGenesis, hv]
    exact .refused .unasked
  | ok =>
    simp only [answer, loadGenesis, hv]
    rcases hs : host.store genesis world with ⟨_ | _, world'⟩
    · rw [activate_of_error hs]
      exact .refused (.store hs)
    · rw [activate_of_ok hs]
      exact .installed hv (.genesis hs)

theorem step_resume (host : Host σ) (config : Config) (before : State σ) :
    Step host config before .resume (answer host config before .resume).result
      (answer host config before .resume).state := by
  rcases hl : host.load before.world with ⟨_ | s, world⟩
  · simp only [answer, resume, hl]
    exact .refused (.load hl)
  · cases hv : validate config s with
    | error e =>
      simp only [answer, resume, hl, hv]
      exact .refused (.load hl)
    | ok =>
      simp only [answer, resume, hl, hv]
      exact .installed hv (.resumed hl)

theorem step_importSchedule (host : Host σ) (config : Config) (before : State σ)
    (candidate : Schedule) (head : UInt64) :
    Step host config before (.importSchedule candidate head)
      (answer host config before (.importSchedule candidate head)).result
      (answer host config before (.importSchedule candidate head)).state := by
  obtain ⟨_ | active, world⟩ := before
  · simp only [answer, importSchedule]
    exact .refused .unasked
  · have hstep := importSchedule_step host config candidate head
      (rfl : (State.mk (some active) world).active = some active)
    simp only [answer, Reply.map]
    generalize importSchedule host config candidate head ⟨some active, world⟩ = reply at hstep ⊢
    obtain ⟨result, after, events⟩ := reply
    cases hstep with
    | invalid hv => exact .refused .unasked
    | accepted hv hc hs => exact .installed hv (.accepted rfl hc hs)
    | notStored hv hc hs => exact .refused (.store hs)
    | incompatible hv hc hp => exact .refused .unasked
    | notRewound hv hc hp hr => exact .refused (.rewind hr)
    | rewound hv hc hp hr hs => exact .installed hv (.rewound rfl hc hp hr hs)
    | rewoundNotStored hv hc hp hr hs => exact .refused (.storeAfterRewind hr hs)

theorem answer_step (host : Host σ) (config : Config) (before : State σ) (request : Request) :
    Step host config before request (answer host config before request).result
      (answer host config before request).state := by
  cases request with
  | loadGenesis genesis => exact step_loadGenesis host config before genesis
  | importSchedule candidate head => exact step_importSchedule host config before candidate head
  | resume => exact step_resume host config before
  | rulesAt height =>
    cases ha : before.active with
    | none =>
      simp only [answer, rulesAt, activeSchedule, ha]
      exact .refused .unasked
    | some s =>
      simp only [answer, rulesAt, activeSchedule, ha]
      exact .told
  | activeSchedule =>
    cases ha : before.active with
    | none =>
      simp only [answer, activeSchedule, ha]
      exact .refused .unasked
    | some s =>
      simp only [answer, activeSchedule, ha]
      exact .told

end HardFork.Service
