import HardFork.Schedule

/-! # The host of a service: its store and its chain -/
namespace HardFork.Service

inductive StoreError
  | notFound
  | backend (reason : String)
deriving DecidableEq

def StoreError.message : StoreError → String
  | .notFound => "No chain config stored"
  | .backend reason => s!"Schedule store error: {reason}"

/-- What a host in the state `σ` answers, and the state it is in then. -/
structure Host (σ : Type) where
  load : σ → Except StoreError Schedule × σ
  store : Schedule → σ → Except StoreError Unit × σ
  rewind : UInt64 → σ → Except String Unit × σ

/-- A store of one schedule, and the heights that the chain was rewound to, the oldest first. -/
structure Memory where
  stored : Option Schedule := none
  rewinds : List UInt64 := []
deriving DecidableEq

namespace Host

/-- The store never fails. A chain with a reason to refuse does so at each request. -/
def memory (refusal : Option String) : Host Memory where
  load m :=
    match m.stored with
    | some s => (.ok s, m)
    | none => (.error .notFound, m)
  store s m := (.ok (), {m with stored := some s})
  rewind height m :=
    match refusal with
    | some reason => (.error reason, m)
    | none => (.ok (), {m with rewinds := m.rewinds ++ [height]})

end Host
end HardFork.Service
