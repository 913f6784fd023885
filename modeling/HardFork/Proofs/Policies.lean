import HardFork.Proofs.Active

/-! # One verdict under both policies

A service that rejects and one that rewinds make the same checks before their ways part. Where the
first refuses a candidate for a conflict, the second goes back below it, and the first accepts the
candidate once it is asked again at the height that the second went back to. -/
namespace HardFork.Service
open Compatibility

variable {refusal : Option String} {config : Config} {candidate active : Schedule} {head : UInt64}
  {state : State Memory}

/-- Only one of the two settings is looked at. -/
theorem validate_congr {other : Config} (h : config.validateEngine = other.validateEngine)
    (s : Schedule) : validate config s = validate other s := by
  simp only [validate, h]

theorem importSchedule_of_invalid {e : Error} (ha : state.active = some active)
    (hv : validate config candidate = .error e) :
    importSchedule (Host.memory refusal) config candidate head state = ⟨.error e, state, []⟩ := by
  simp only [importSchedule, ha, hv]

theorem importSchedule_of_compatible (ha : state.active = some active)
    (hv : validate config candidate = .ok ()) (hc : lowest? active candidate head = none) :
    let reply := importSchedule (Host.memory refusal) config candidate head state
    reply.result = .ok .accepted ∧
      reply.state = ⟨some candidate, {state.world with stored := some candidate}⟩ := by
  simp only [importSchedule, ha, hv, hc, activate, Host.memory, and_self]

theorem importSchedule_of_conflict_reject {c : Conflict} (ha : state.active = some active)
    (hv : validate config candidate = .ok ()) (hc : lowest? active candidate head = some c)
    (hp : config.policy = .reject) :
    let reply := importSchedule (Host.memory refusal) config candidate head state
    reply.result = .error (.incompatible c) ∧ reply.state = state := by
  simp only [importSchedule, ha, hv, hc, hp, and_self]

theorem importSchedule_of_conflict_rewind {c : Conflict} (ha : state.active = some active)
    (hv : validate config candidate = .ok ()) (hc : lowest? active candidate head = some c)
    (hp : config.policy = .rewind) :
    let reply := importSchedule (Host.memory none) config candidate head state
    reply.result = .ok (.rewound c) ∧
      reply.state = ⟨some candidate, ⟨some candidate, state.world.rewinds ++ [c.rewindTo]⟩⟩ := by
  simp only [importSchedule, ha, hv, hc, hp, rewindAndActivate, activate, Host.memory, and_self]

theorem importSchedule_eq_accepted_iff (ha : state.active = some active) :
    (importSchedule (Host.memory refusal) config candidate head state).result = .ok .accepted ↔
      validate config candidate = .ok () ∧ lowest? active candidate head = none := by
  constructor
  · intro h
    have hstep := importSchedule_step (Host.memory refusal) config candidate head ha
    rw [h] at hstep
    generalize (importSchedule _ _ _ _ _).state = after at hstep
    cases hstep with
    | accepted hv hc hs => exact ⟨hv, hc⟩
  · rintro ⟨hv, hc⟩
    exact (importSchedule_of_compatible ha hv hc).1

/-- Two services with the same schedule in force, and the same one stored. -/
structure SameSchedules (a b : State Memory) : Prop where
  active : a.active = b.active
  stored : a.world.stored = b.world.stored

/-- Both services refuse an invalid candidate, or both accept it, or the one refuses it for the
conflict that the other rewinds for. In that case the height of the rewind is not above the head,
and if a pass succeeds there, as it does above zero, the service that rejects accepts the candidate
there and ends with the schedules of the other one. -/
theorem policies_give_one_verdict {rejecting rewinding : State Memory} {active : Schedule}
    (hsame : SameSchedules rejecting rewinding) (ha : rejecting.active = some active)
    (refusal : Option String) (validateEngine : Bool) (candidate : Schedule) (head : UInt64) :
    let reject := importSchedule (Host.memory refusal) ⟨.reject, validateEngine⟩ candidate
    let rejected := reject head rejecting
    let rewound :=
      importSchedule (Host.memory none) ⟨.rewind, validateEngine⟩ candidate head rewinding
    (∃ e, validate ⟨.reject, validateEngine⟩ candidate = .error e ∧
      rejected.result = .error e ∧ rewound.result = .error e ∧
      SameSchedules rejected.state rewound.state ∧
      rewound.state.world.rewinds = rewinding.world.rewinds) ∨
    (rejected.result = .ok .accepted ∧ rewound.result = .ok .accepted ∧
      SameSchedules rejected.state rewound.state ∧
      rewound.state.world.rewinds = rewinding.world.rewinds) ∨
    ∃ c, rejected.result = .error (.incompatible c) ∧ rewound.result = .ok (.rewound c) ∧
      rewound.state.world.rewinds = rewinding.world.rewinds ++ [c.rewindTo] ∧
      c.rewindTo ≤ head ∧
      (0 < c.rewindTo → conflict? active candidate c.rewindTo = none) ∧
      (conflict? active candidate c.rewindTo = none →
        let retried := reject c.rewindTo rejected.state
        retried.result = .ok .accepted ∧ retried.state.active = some candidate ∧
          SameSchedules retried.state rewound.state) := by
  intro reject rejected rewound
  have ha' : rewinding.active = some active := hsame.active ▸ ha
  have hcongr : validate ⟨.rewind, validateEngine⟩ candidate =
      validate ⟨.reject, validateEngine⟩ candidate := validate_congr rfl candidate
  cases hv : validate ⟨.reject, validateEngine⟩ candidate with
  | error e =>
    have hrejected : rejected = ⟨.error e, rejecting, []⟩ := importSchedule_of_invalid ha hv
    have hrewound : rewound = ⟨.error e, rewinding, []⟩ :=
      importSchedule_of_invalid ha' (hcongr.trans hv)
    rw [hrejected, hrewound]
    exact .inl ⟨e, rfl, rfl, rfl, hsame, rfl⟩
  | ok =>
    cases hc : lowest? active candidate head with
    | none =>
      obtain ⟨hresult, hstate⟩ : rejected.result = _ ∧ rejected.state = _ :=
        importSchedule_of_compatible ha hv hc
      obtain ⟨hresult', hstate'⟩ : rewound.result = _ ∧ rewound.state = _ :=
        importSchedule_of_compatible ha' (hcongr.trans hv) hc
      rw [hstate, hstate']
      exact .inr (.inl ⟨hresult, hresult', ⟨rfl, rfl⟩, rfl⟩)
    | some c =>
      obtain ⟨hresult, hstate⟩ : rejected.result = _ ∧ rejected.state = rejecting :=
        importSchedule_of_conflict_reject ha hv hc rfl
      obtain ⟨hresult', hstate'⟩ : rewound.result = _ ∧ rewound.state = _ :=
        importSchedule_of_conflict_rewind ha' (hcongr.trans hv) hc rfl
      rw [hstate, hstate']
      refine .inr (.inr ⟨c, hresult, hresult', rfl, lowest?_rewindTo_le hc, fun hpos => ?_,
        fun hnone => ?_⟩)
      · exact (lowest?_eq_some hc).2.resolve_right fun hzero => absurd hpos (by simp [hzero])
      · intro retried
        obtain ⟨hretried, hafter⟩ : retried.result = _ ∧ retried.state = _ :=
          importSchedule_of_compatible ha hv (lowest?_eq_none_iff.mpr hnone)
        rw [hafter]
        exact ⟨hretried, rfl, rfl, rfl⟩

/-- A service on a staged network, after some rewinds of its chain. -/
def onStaged (rewinds : List UInt64) : State Memory :=
  ⟨some (staged 50 30), ⟨some (staged 50 30), rewinds⟩⟩

def rejectPostponement (head : UInt64) (state : State Memory) : Reply Memory Outcome :=
  importSchedule (Host.memory (some "read-only database")) ⟨.reject, true⟩ (staged 60 40) head state

/-- A postponement is refused at 100, and accepted at 29, where the other service goes back to. -/
theorem postponement_accepted_after_rewind :
    let rejected := rejectPostponement 100 (onStaged [])
    let rewound := importSchedule (Host.memory none) .testing (staged 60 40) 100 (onStaged [90])
    let retried := rejectPostponement 29 rejected.state
    let c : Conflict := ⟨.fork .ewasm, .scheduled 30, .scheduled 40, 29⟩
    SameSchedules (onStaged []) (onStaged [90]) ∧ (onStaged []).active = some (staged 50 30) ∧
    rejected.result = .error (.incompatible c) ∧ rewound.result = .ok (.rewound c) ∧
    rewound.state.world.rewinds = [90, 29] ∧
    retried.result = .ok .accepted ∧ SameSchedules retried.state rewound.state := by
  intro rejected rewound retried c
  have hsame : SameSchedules (onStaged []) (onStaged [90]) := ⟨rfl, rfl⟩
  have hrejected : (rejectPostponement 100 (onStaged [])).result = .error (.incompatible c) := by
    cbv
  obtain ⟨e, hv, -⟩ | ⟨haccepted, -⟩ | ⟨d, hresult, hresult', hrewinds, -, hfloor, hretry⟩ :=
    policies_give_one_verdict hsame rfl (some "read-only database") true (staged 60 40) 100
  · cases hv
  · cases hrejected.symm.trans haccepted
  · obtain rfl : c = d := by
      injection hrejected.symm.trans hresult with h
      injection h
    obtain ⟨haccepted, -, hafter⟩ := hretry (hfloor (by decide))
    exact ⟨hsame, rfl, hrejected, hresult', hrewinds, haccepted, hafter⟩

end HardFork.Service
