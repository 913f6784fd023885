import HardFork.Service

/-! # What an import does

An import reads and changes its surroundings in one of seven ways. Each is a constructor of
`ImportStep`, with all that it found out and what it left behind. -/
namespace HardFork.Service
open Compatibility

variable {σ α : Type}

/-- An import with an active schedule: its result, and the state after it. -/
inductive ImportStep (host : Host σ) (config : Config) (active candidate : Schedule)
    (head : UInt64) (world : σ) : Except Error Outcome → State σ → Prop
  | invalid {e} (hv : validate config candidate = .error e) :
      ImportStep host config active candidate head world (.error e) ⟨some active, world⟩
  | accepted {world'} (hv : validate config candidate = .ok ())
      (hc : lowest? active candidate head = none)
      (hs : host.store candidate world = (.ok (), world')) :
      ImportStep host config active candidate head world (.ok .accepted) ⟨some candidate, world'⟩
  | notStored {e world'} (hv : validate config candidate = .ok ())
      (hc : lowest? active candidate head = none)
      (hs : host.store candidate world = (.error e, world')) :
      ImportStep host config active candidate head world (.error (.store e)) ⟨some active, world'⟩
  | incompatible {c} (hv : validate config candidate = .ok ())
      (hc : lowest? active candidate head = some c) (hp : config.policy = .reject) :
      ImportStep host config active candidate head world (.error (.incompatible c))
        ⟨some active, world⟩
  | notRewound {c reason world'} (hv : validate config candidate = .ok ())
      (hc : lowest? active candidate head = some c) (hp : config.policy = .rewind)
      (hr : host.rewind c.rewindTo world = (.error reason, world')) :
      ImportStep host config active candidate head world
        (.error (.rewindFailed c.rewindTo reason)) ⟨some active, world'⟩
  | rewound {c world' world''} (hv : validate config candidate = .ok ())
      (hc : lowest? active candidate head = some c) (hp : config.policy = .rewind)
      (hr : host.rewind c.rewindTo world = (.ok (), world'))
      (hs : host.store candidate world' = (.ok (), world'')) :
      ImportStep host config active candidate head world (.ok (.rewound c))
        ⟨some candidate, world''⟩
  | rewoundNotStored {c e world' world''} (hv : validate config candidate = .ok ())
      (hc : lowest? active candidate head = some c) (hp : config.policy = .rewind)
      (hr : host.rewind c.rewindTo world = (.ok (), world'))
      (hs : host.store candidate world' = (.error e, world'')) :
      ImportStep host config active candidate head world (.error (.store e))
        ⟨some active, world''⟩

variable {host : Host σ} {config : Config} {world world' : σ} {previous : Option Schedule}

theorem activate_of_ok {s : Schedule} {answer : α} {before : List Event}
    (h : host.store s world = (.ok (), world')) :
    activate host s answer before ⟨previous, world⟩ =
      ⟨.ok answer, ⟨some s, world'⟩, before ++ [.activated s]⟩ := by
  rw [activate, h]

theorem activate_of_error {s : Schedule} {answer : α} {before : List Event} {e : StoreError}
    (h : host.store s world = (.error e, world')) :
    activate host s answer before ⟨previous, world⟩ =
      ⟨.error (.store e), ⟨previous, world'⟩, before⟩ := by
  rw [activate, h]

theorem importSchedule_step (host : Host σ) (config : Config) (candidate : Schedule) (head : UInt64)
    {state : State σ} {active : Schedule} (h : state.active = some active) :
    ImportStep host config active candidate head state.world
      (importSchedule host config candidate head state).result
      (importSchedule host config candidate head state).state := by
  obtain ⟨_, world⟩ := state
  obtain rfl : _ = some active := h
  cases hv : validate config candidate with
  | error e =>
    simp only [importSchedule, hv]
    exact .invalid hv
  | ok =>
    cases hc : lowest? active candidate head with
    | none =>
      simp only [importSchedule, hv, hc]
      rcases hs : host.store candidate world with ⟨_ | _, world'⟩
      · rw [activate_of_error hs]
        exact .notStored hv hc hs
      · rw [activate_of_ok hs]
        exact .accepted hv hc hs
    | some c =>
      cases hp : config.policy with
      | reject =>
        simp only [importSchedule, hv, hc, hp]
        exact .incompatible hv hc hp
      | rewind =>
        simp only [importSchedule, hv, hc, hp, rewindAndActivate]
        rcases hr : host.rewind c.rewindTo world with ⟨_ | _, world'⟩
        · exact .notRewound hv hc hp hr
        · rcases hs : host.store candidate world' with ⟨_ | _, world''⟩
          · simp only [activate_of_error hs]
            exact .rewoundNotStored hv hc hp hr hs
          · simp only [activate_of_ok hs]
            exact .rewound hv hc hp hr hs

end HardFork.Service
