import HardFork.Proofs.Chain
import HardFork.Proofs.Import
import HardFork.Proofs.Rewind
import Mathlib

/-! # A service above a growing chain

The chain processes its blocks under the active schedule, while other schedules are imported and
the chain is rewound for them. The active schedule keeps what all processed blocks were processed
under: an accepted one agrees with the one before up to the height of the chain, and a rewind drops
the blocks above the height up to which the two agree. -/
namespace HardFork
open Compatibility

/-- Two schedules say the same of a height, Petersburg left aside. -/
structure SameAt (past present : Schedule) (n : UInt64) : Prop where
  forks : ∀ f ∈ forks, f ≠ .petersburg → past.isActive f n = present.isActive f n
  daoForkSupport : past.isActive .dao n → past.daoForkSupport = present.daoForkSupport
  chainId : past.isActive .eip158 n → past.chainId = present.chainId

namespace SameAt

variable {s t u : Schedule} {n : UInt64}

theorem refl (s : Schedule) (n : UInt64) : SameAt s s n :=
  ⟨fun _ _ _ => rfl, fun _ => rfl, fun _ => rfl⟩

theorem trans (hst : SameAt s t n) (htu : SameAt t u n) : SameAt s u n where
  forks f hf hp := (hst.forks f hf hp).trans (htu.forks f hf hp)
  daoForkSupport ha := by
    have ht : t.isActive .dao n := hst.forks .dao (by decide) nofun ▸ ha
    exact (hst.daoForkSupport ha).trans (htu.daoForkSupport ht)
  chainId ha := by
    have ht : t.isActive .eip158 n := hst.forks .eip158 (by decide) nofun ▸ ha
    exact (hst.chainId ha).trans (htu.chainId ht)

end SameAt

theorem Compatibility.Agreement.sameAt {stored new : Schedule} {head n : UInt64}
    (h : Agreement stored new head) (hn : n ≤ head) : SameAt stored new n where
  forks f hf hp := h.forks f hf hp n hn
  daoForkSupport := (h.mono hn).daoForkSupport
  chainId := (h.mono hn).chainId

/-- The schedule says of each processed block what the one did that it was processed under. -/
def Chain.KeptBy (c : Chain) (s : Schedule) : Prop :=
  ∀ n past, c.processedUnder? n = some past → SameAt past s n

namespace Chain.KeptBy

variable {c : Chain} {s t : Schedule}

theorem of_height_eq_zero (h : c.height = 0) (s : Schedule) : c.KeptBy s := by
  intro n past hp
  obtain ⟨hn, hle⟩ := exists_processedUnder?_iff.mp ⟨past, hp⟩
  rw [h] at hle
  exact absurd (UInt64.le_antisymm hle UInt64.zero_le) hn

theorem process (h : c.KeptBy s) : (c.process s).KeptBy s := by
  intro n past hp
  rcases processedUnder?_of_process hp with hp | rfl
  · exact h n past hp
  · exact .refl past n

theorem dropAbove (h : c.KeptBy s) (m : UInt64) : (c.dropAbove m).KeptBy s :=
  fun n past hp => h n past (processedUnder?_of_dropAbove hp)

/-- Agreement up to the height of the chain is enough to take over from a schedule. -/
theorem of_agreement (h : c.KeptBy s) (ha : Agreement s t c.height) : c.KeptBy t := by
  intro n past hp
  have hle := (exists_processedUnder?_iff.mp ⟨past, hp⟩).2
  exact (h n past hp).trans (ha.sameAt hle)

/-- So it is to go back to where a search does. -/
theorem rewound (h : c.KeptBy s) {conflict : Conflict}
    (hc : lowest? s t c.height = some conflict) : (c.dropAbove conflict.rewindTo).KeptBy t := by
  have hheight := height_dropAbove (lowest?_rewindTo_le hc)
  rcases (lowest?_eq_some hc).2 with hnone | hzero
  · refine (h.dropAbove conflict.rewindTo).of_agreement ?_
    rw [hheight]
    exact conflict?_eq_none_iff_agreement.mp hnone
  -- the search stopped at the first block, and no processed one is left
  · exact of_height_eq_zero (hheight.trans hzero) t

end Chain.KeptBy

namespace Service

/-- A host, and the chain that it rewinds. -/
structure Node (σ : Type) where
  inner : σ
  chain : Chain

variable {σ : Type}

/-- The host with its chain: a rewind that succeeds drops the blocks above the height. -/
def Host.onChain (host : Host σ) : Host (Node σ) where
  load node :=
    let (answer, inner) := host.load node.inner
    (answer, {node with inner})
  store s node :=
    let (answer, inner) := host.store s node.inner
    (answer, {node with inner})
  rewind height node :=
    match host.rewind height node.inner with
    | (.error reason, inner) => (.error reason, {node with inner})
    | (.ok (), inner) => (.ok (), ⟨inner, node.chain.dropAbove height⟩)

/-- The next block is processed, or a schedule is imported at the height of the chain. -/
inductive Action
  | process
  | importSchedule (candidate : Schedule)

def act (host : Host σ) (config : Config) (state : State (Node σ)) : Action → State (Node σ)
  | .process =>
    match state.active with
    | none => state
    | some s => {state with world := {state.world with chain := state.world.chain.process s}}
  | .importSchedule candidate =>
    (importSchedule host.onChain config candidate state.world.chain.height state).state

def run (host : Host σ) (config : Config) (state : State (Node σ)) (actions : List Action) :
    State (Node σ) :=
  actions.foldl (act host config) state

variable {host : Host σ} {config : Config} {state : State (Node σ)}

theorem chain_of_store {s : Schedule} {node node' : Node σ} {answer : Except StoreError Unit}
    (h : host.onChain.store s node = (answer, node')) : node'.chain = node.chain := by
  cases h
  rfl

theorem chain_of_rewind_error {height : UInt64} {node node' : Node σ} {reason : String}
    (h : host.onChain.rewind height node = (.error reason, node')) :
    node'.chain = node.chain := by
  simp only [Host.onChain] at h
  split at h <;> cases h
  rfl

theorem chain_of_rewind_ok {height : UInt64} {node node' : Node σ}
    (h : host.onChain.rewind height node = (.ok (), node')) :
    node'.chain = node.chain.dropAbove height := by
  simp only [Host.onChain] at h
  split at h <;> cases h
  rfl

/-- A schedule is active, and it keeps the whole chain. -/
def Kept (state : State (Node σ)) : Prop :=
  ∃ active, state.active = some active ∧ state.world.chain.KeptBy active

theorem Kept.loadGenesis {genesis : Schedule} (hz : state.world.chain.height = 0)
    (h : (loadGenesis host.onChain config genesis state).result = .ok ()) :
    Kept (loadGenesis host.onChain config genesis state).state := by
  obtain ⟨previous, node⟩ := state
  cases hv : validate config genesis with
  | error e => simp [Service.loadGenesis, hv] at h
  | ok =>
    simp only [Service.loadGenesis, hv] at h ⊢
    rcases hs : host.onChain.store genesis node with ⟨_ | _, node'⟩
    · simp [activate_of_error hs] at h
    · rw [activate_of_ok hs]
      exact ⟨genesis, rfl, .of_height_eq_zero (chain_of_store hs ▸ hz) genesis⟩

theorem Kept.importSchedule (h : Kept state) (candidate : Schedule) :
    Kept (importSchedule host.onChain config candidate state.world.chain.height state).state := by
  obtain ⟨active, ha, hk⟩ := h
  have hstep := importSchedule_step host.onChain config candidate state.world.chain.height ha
  generalize Service.importSchedule host.onChain config candidate state.world.chain.height state =
    reply at hstep ⊢
  obtain ⟨result, now, events⟩ := reply
  cases hstep with
  | invalid hv => exact ⟨active, rfl, hk⟩
  | accepted hv hc hs =>
    have hagree := conflict?_eq_none_iff_agreement.mp (lowest?_eq_none_iff.mp hc)
    exact ⟨candidate, rfl, chain_of_store hs ▸ hk.of_agreement hagree⟩
  | notStored hv hc hs => exact ⟨active, rfl, chain_of_store hs ▸ hk⟩
  | incompatible hv hc hp => exact ⟨active, rfl, hk⟩
  | notRewound hv hc hp hr => exact ⟨active, rfl, chain_of_rewind_error hr ▸ hk⟩
  | rewound hv hc hp hr hs =>
    have hchain := (chain_of_store hs).trans (chain_of_rewind_ok hr)
    exact ⟨candidate, rfl, hchain ▸ hk.rewound hc⟩
  | rewoundNotStored hv hc hp hr hs =>
    have hchain := (chain_of_store hs).trans (chain_of_rewind_ok hr)
    exact ⟨active, rfl, hchain ▸ hk.dropAbove _⟩

theorem Kept.act (h : Kept state) (action : Action) : Kept (act host config state action) := by
  cases action with
  | process =>
    obtain ⟨active, ha, hk⟩ := h
    simp only [Service.act, ha]
    exact ⟨active, rfl, hk.process⟩
  | importSchedule candidate => exact h.importSchedule candidate

theorem Kept.run (h : Kept state) (actions : List Action) : Kept (run host config state actions) := by
  induction actions generalizing state with
  | nil => exact h
  | cons action actions ih => exact ih (h.act action)

/-- Whatever is imported while the chain grows, and whichever of the requests to store and to rewind
the host refuses, the active schedule says of each processed block what the schedule did that the
block was processed under. -/
theorem history_never_rewritten (host : Host σ) (config : Config) {genesis : Schedule}
    {before : State (Node σ)} (hz : before.world.chain.height = 0)
    (hg : (loadGenesis host.onChain config genesis before).result = .ok ())
    (actions : List Action) :
    let now := run host config (loadGenesis host.onChain config genesis before).state actions
    ∃ active, now.active = some active ∧
      ∀ n, 1 ≤ n → n ≤ now.world.chain.height →
        ∃ past, now.world.chain.processedUnder? n = some past ∧ SameAt past active n := by
  intro now
  have hkept : Kept now := (Kept.loadGenesis hz hg).run actions
  obtain ⟨active, ha, hk⟩ := hkept
  refine ⟨active, ha, fun n hn hle => ?_⟩
  have hne : n ≠ 0 := by
    rintro rfl
    exact absurd hn (by decide)
  obtain ⟨past, hp⟩ := Chain.exists_processedUnder?_iff.mpr ⟨hne, hle⟩
  exact ⟨past, hp, hk n past hp⟩

def atGenesis : Reply (Node Memory) Unit :=
  loadGenesis (Host.memory none).onChain .testing (staged 3 2) (start ⟨{}, .empty⟩)

/-- Four blocks are processed, and Istanbul is put off from 3 to 6. The chain goes back to 2 and
grows to 4 again. -/
def postponed : State (Node Memory) :=
  run (Host.memory none) .testing atGenesis.state
    [.process, .process, .process, .process, .importSchedule (staged 6 2), .process, .process]

theorem history_kept_when_postponed :
    atGenesis.result = .ok () ∧
    postponed.active = some (staged 6 2) ∧
    postponed.world.inner.rewinds = [2] ∧
    postponed.world.chain.schedules = [staged 3 2, staged 3 2, staged 6 2, staged 6 2] ∧
    ∀ n, 1 ≤ n → n ≤ 4 → ∃ past, postponed.world.chain.processedUnder? n = some past ∧
      SameAt past (staged 6 2) n := by
  have hg : atGenesis.result = .ok () := rfl
  have hactive : postponed.active = some (staged 6 2) := by cbv
  have hchain : postponed.world.chain.schedules =
      [staged 3 2, staged 3 2, staged 6 2, staged 6 2] := by cbv
  have hheight : postponed.world.chain.height = 4 := by
    apply UInt64.toNat_inj.mp
    rw [Chain.toNat_height, hchain]
    rfl
  obtain ⟨active, ha, hkept⟩ := history_never_rewritten (Host.memory none) .testing rfl hg
    [.process, .process, .process, .process, .importSchedule (staged 6 2), .process, .process]
  obtain rfl : active = staged 6 2 := Option.some.inj (ha.symm.trans hactive)
  refine ⟨hg, hactive, by cbv, hchain, fun n hn hle => hkept n hn ?_⟩
  exact UInt64.le_trans hle (UInt64.le_of_eq hheight.symm)

end Service
end HardFork
