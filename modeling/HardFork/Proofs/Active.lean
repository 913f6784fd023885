import HardFork.Proofs.Requests
import HardFork.Proofs.Rewind
import Mathlib

/-! # The active schedule over a run

Above a memory, the active schedule is always valid and is the one that is stored, so resuming
changes nothing. A refused request changes nothing either. Another schedule comes into force by an
import, behind the compatibility check, or by loading a genesis schedule, behind no check. -/
namespace HardFork.Service
open Compatibility

variable {refusal : Option String} {world world' : Memory}

theorem load_memory {answer : Except StoreError Schedule}
    (h : (Host.memory refusal).load world = (answer, world')) : world' = world := by
  simp only [Host.memory] at h
  split at h <;> exact (Prod.mk.inj h).2.symm

theorem load_memory_ok {s : Schedule}
    (h : (Host.memory refusal).load world = (.ok s, world')) : world.stored = some s := by
  simp only [Host.memory] at h
  split at h <;> cases h
  assumption

theorem store_memory {s : Schedule} {answer : Except StoreError Unit}
    (h : (Host.memory refusal).store s world = (answer, world')) :
    answer = .ok () ∧ world' = {world with stored := some s} := by
  cases h
  exact ⟨rfl, rfl⟩

theorem rewind_memory_error {height : UInt64} {reason : String}
    (h : (Host.memory refusal).rewind height world = (.error reason, world')) :
    world' = world := by
  simp only [Host.memory] at h
  split at h <;> cases h
  rfl

theorem Refusal.world_eq (h : Refusal (Host.memory refusal) world world') : world' = world := by
  cases h with
  | unasked => rfl
  | load hl => exact load_memory hl
  | store hs => cases (store_memory hs).1
  | rewind hr => exact rewind_memory_error hr
  | storeAfterRewind hr hs => cases (store_memory hs).1

/-- A refused request keeps the active schedule, whatever the host answers on the way. If the host
is a memory, nothing at all is changed. -/
theorem refused_request_changes_nothing (config : Config) (request : Request) (e : Error) :
    (∀ (σ : Type) (host : Host σ) (before : State σ),
      (answer host config before request).result = .error e →
      (answer host config before request).state.active = before.active) ∧
    ∀ (refusal : Option String) (before : State Memory),
      (answer (Host.memory refusal) config before request).result = .error e →
      (answer (Host.memory refusal) config before request).state = before := by
  constructor
  · intro σ host before he
    have hstep := answer_step host config before request
    rw [he] at hstep
    generalize (answer host config before request).state = after at hstep ⊢
    cases hstep with
    | refused hw => rfl
  · intro refusal before he
    have hstep := answer_step (Host.memory refusal) config before request
    rw [he] at hstep
    generalize (answer (Host.memory refusal) config before request).state = after at hstep ⊢
    cases hstep with
    | refused hw => rw [hw.world_eq]

/-- The rewind below the conflict is refused after the candidate has passed all checks. -/
theorem refused_rewind_changes_nothing :
    let host := Host.memory (some "read-only database")
    let before : State Memory := ⟨some (staged 50 30), ⟨some (staged 50 30), [90]⟩⟩
    let reply := answer host .testing before (.importSchedule (staged 60 40) 100)
    reply.result = .error (.rewindFailed 29 "read-only database") ∧
      reply.state.active = before.active ∧ reply.state = before := by
  intro host before reply
  have hr : reply.result = .error (.rewindFailed 29 "read-only database") := by cbv
  obtain ⟨hactive, hall⟩ := refused_request_changes_nothing .testing
    (.importSchedule (staged 60 40) 100) (.rewindFailed 29 "read-only database")
  exact ⟨hr, hactive Memory host before hr, hall _ before hr⟩

/-- The active schedule is valid, and the memory holds it. -/
def Sound (config : Config) (state : State Memory) : Prop :=
  ∀ s, state.active = some s → validate config s = .ok () ∧ state.world.stored = some s

variable {config : Config} {state : State Memory}

theorem sound_start (config : Config) (world : Memory) : Sound config (start world) := by
  intro s h
  cases h

theorem Installs.stored {request : Request} {s : Schedule}
    (h : Installs (Host.memory refusal) config state s world request) : world.stored = some s := by
  cases h with
  | genesis hs => rw [(store_memory hs).2]
  | resumed hl => rw [load_memory hl, load_memory_ok hl]
  | accepted ha hc hs => rw [(store_memory hs).2]
  | rewound ha hc hp hr hs => rw [(store_memory hs).2]

theorem Sound.answer (h : Sound config state) (request : Request) :
    Sound config (answer (Host.memory refusal) config state request).state := by
  have hstep := answer_step (Host.memory refusal) config state request
  generalize (Service.answer (Host.memory refusal) config state request) = reply at hstep ⊢
  obtain ⟨result, after, events⟩ := reply
  cases hstep with
  | refused hw =>
    rw [hw.world_eq]
    exact h
  | told => exact h
  | installed hv hi =>
    intro s hs
    cases hs
    exact ⟨hv, hi.stored⟩

theorem Sound.serve (h : Sound config state) (requests : List Request) :
    Sound config (serve (Host.memory refusal) config state requests) := by
  induction requests generalizing state with
  | nil => exact h
  | cons request requests ih => exact ih (h.answer request)

theorem validate_eq_ok_iff {s : Schedule} :
    validate config s = .ok () ↔
      s.checkOrder = .ok () ∧ (config.validateEngine → s.validateEngine = .ok ()) := by
  rw [validate]
  split
  · simp [*]
  · split
    · cases s.validateEngine <;> simp [*, Except.mapError]
    · simp [*]

theorem isInitialised_answer {σ : Type} (host : Host σ) {state : State σ} (request : Request)
    (h : state.isInitialised) : (answer host config state request).state.isInitialised := by
  have hstep := answer_step host config state request
  generalize (answer host config state request) = reply at hstep ⊢
  obtain ⟨result, after, events⟩ := reply
  cases hstep with
  | refused hw => exact h
  | told => exact h
  | installed hv hi => rfl

theorem isInitialised_serve {σ : Type} (host : Host σ) {state : State σ} (requests : List Request)
    (h : state.isInitialised) : (serve host config state requests).isInitialised := by
  induction requests generalizing state with
  | nil => exact h
  | cons request requests ih => exact ih (isInitialised_answer host request h)

/-- Whatever a memory holds at first and whatever is requested, an active schedule is in order, has
a valid engine if the service looks at it, and is the one that is stored. From the first active
schedule on there is always one. -/
theorem active_schedule_valid_and_stored (refusal : Option String) (config : Config)
    (world : Memory) (requests more : List Request) :
    let host := Host.memory refusal
    let now := serve host config (start world) requests
    (∀ s, now.active = some s →
      s.checkOrder = .ok () ∧ (config.validateEngine → s.validateEngine = .ok ()) ∧
        now.world.stored = some s) ∧
    (now.isInitialised → (serve host config now more).isInitialised) := by
  intro host now
  have hsound : Sound config now := (sound_start config world).serve requests
  refine ⟨fun s hs => ?_, isInitialised_serve host more⟩
  obtain ⟨hv, hstored⟩ := hsound s hs
  obtain ⟨ho, he⟩ := validate_eq_ok_iff.mp hv
  exact ⟨ho, he, hstored⟩

def disordered : Schedule := Network.test.withoutFork .byzantium

/-- A memory holds a schedule out of order, with which the service does not resume. It then loads
another one, and rewinds the chain for a third. -/
def recovered : State Memory :=
  serve (Host.memory none) .testing (start {stored := some disordered})
    [.resume, .loadGenesis (staged 50 30), .importSchedule (staged 60 40) 100]

theorem recovered_valid_and_stored :
    recovered.active = some (staged 60 40) ∧
    recovered.world = ⟨some (staged 60 40), [29]⟩ ∧
    (staged 60 40).checkOrder = .ok () ∧
    recovered.isInitialised ∧
    (serve (Host.memory none) .testing recovered
      [.importSchedule disordered 0, .resume]).isInitialised := by
  have hactive : recovered.active = some (staged 60 40) := by cbv
  have hinit : recovered.isInitialised := by rw [State.isInitialised, hactive]; rfl
  obtain ⟨hvalid, hkept⟩ := active_schedule_valid_and_stored none .testing
    {stored := some disordered}
    [.resume, .loadGenesis (staged 50 30), .importSchedule (staged 60 40) 100]
    [.importSchedule disordered 0, .resume]
  exact ⟨hactive, by cbv, (hvalid (staged 60 40) hactive).1, hinit, hkept hinit⟩

/-- A schedule comes into force behind the check: it fits the chain up to the head, or the chain is
rewound for it before it is stored. -/
inductive Guarded {σ : Type} (host : Host σ) (config : Config) (old new : Schedule) (head : UInt64)
    (world world' : σ) : Prop
  | compatible (hc : lowest? old new head = none)
  | rewound {c rewound} (hp : config.policy = .rewind) (hc : lowest? old new head = some c)
      (hr : host.rewind c.rewindTo world = (.ok (), rewound))
      (hs : host.store new rewound = (.ok (), world'))

/-- Of all requests, only an import and the loading of a genesis schedule put another schedule in
force. The import does so behind the check. The loading asks for a valid schedule and looks neither
at the active one nor at the chain. -/
theorem replaced_behind_check_or_by_genesis (refusal : Option String) (config : Config)
    (world : Memory) (requests : List Request) :
    let host := Host.memory refusal
    let before := serve host config (start world) requests
    (∀ (request : Request) (old new : Schedule),
      let after := (answer host config before request).state
      before.active = some old → after.active = some new → old ≠ new →
      request = .loadGenesis new ∨
        ∃ head, request = .importSchedule new head ∧
          Guarded host config old new head before.world after.world) ∧
    ∀ genesis, validate config genesis = .ok () →
      (answer host config before (.loadGenesis genesis)).state.active = some genesis := by
  intro host before
  have hsound : Sound config before := (sound_start config world).serve requests
  constructor
  · intro request old new after hold hnew hne
    have hstep := answer_step host config before request
    change Step host config before request _ after at hstep
    generalize (answer host config before request).result = result at hstep
    generalize after = now at hstep hnew ⊢
    cases hstep with
    | refused hw => exact absurd (Option.some.inj (hold.symm.trans hnew)) hne
    | told => exact absurd (Option.some.inj (hold.symm.trans hnew)) hne
    | installed hv hi =>
      obtain rfl := Option.some.inj hnew
      cases hi with
      | genesis hs => exact .inl rfl
      | resumed hl =>
        -- what is stored is what is active
        have hstored := (hsound old hold).2
        rw [load_memory_ok hl] at hstored
        exact absurd (Option.some.inj hstored).symm hne
      | accepted ha hc hs =>
        obtain rfl := Option.some.inj (hold.symm.trans ha)
        exact .inr ⟨_, rfl, .compatible hc⟩
      | rewound ha hc hp hr hs =>
        obtain rfl := Option.some.inj (hold.symm.trans ha)
        exact .inr ⟨_, rfl, .rewound hp hc hr hs⟩
  · intro genesis hv
    simp only [answer, loadGenesis, hv]
    rfl

/-- A service whose chain is rewound for a postponed schedule. -/
def beforePostponement : State Memory :=
  serve (Host.memory none) .testing (start {}) [.loadGenesis (staged 50 30), .resume]

def afterPostponement : State Memory :=
  (answer (Host.memory none) .testing beforePostponement (.importSchedule (staged 60 40) 100)).state

theorem postponement_guarded :
    beforePostponement.active = some (staged 50 30) ∧
    afterPostponement.active = some (staged 60 40) ∧
    staged 50 30 ≠ staged 60 40 ∧
    Guarded (Host.memory none) .testing (staged 50 30) (staged 60 40) 100
      beforePostponement.world afterPostponement.world := by
  have hbefore : beforePostponement.active = some (staged 50 30) := by cbv
  have hafter : afterPostponement.active = some (staged 60 40) := by cbv
  have hne : staged 50 30 ≠ staged 60 40 := by decide
  obtain ⟨hreplaced, -⟩ := replaced_behind_check_or_by_genesis none .testing {}
    [.loadGenesis (staged 50 30), .resume]
  refine ⟨hbefore, hafter, hne, ?_⟩
  rcases hreplaced (.importSchedule (staged 60 40) 100) _ _ hbefore hafter hne with
    hgenesis | ⟨head, himport, hguarded⟩
  · cases hgenesis
  · cases himport
    exact hguarded

def renumbered : Schedule := {Network.test with chainId := some (.ofWord 7)}

/-- A renumbered network conflicts with the first one at every head. -/
theorem lowest?_test_renumbered (head : UInt64) : lowest? Network.test renumbered head ≠ none := by
  rw [ne_eq, lowest?_eq_none_iff, conflict?_eq_none_iff_agreement]
  intro h
  have hactive : Network.test.isActive .eip158 head := by
    simp [Schedule.isActive, Network.test, Network.atStart, Schedule.threshold,
      Threshold.isActiveAt]
  exact absurd (h.chainId hactive) (by decide)

/-- Loaded as a genesis schedule it comes into force all the same. -/
theorem genesis_replaces_unguarded :
    let host := Host.memory none
    let before := serve host default (start {}) [.loadGenesis Network.test]
    before.active = some Network.test ∧
    (answer host default before (.loadGenesis renumbered)).state.active = some renumbered ∧
    Network.test ≠ renumbered ∧
    ∀ head, lowest? Network.test renumbered head ≠ none :=
  ⟨rfl, rfl, by decide, lowest?_test_renumbered⟩

end HardFork.Service
