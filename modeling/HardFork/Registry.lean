import HardFork.Checkpoint
import HardFork.Network

/-! # What is trusted about each network, by the hash of its first block -/
namespace HardFork

structure Trusted where
  checkpoint : Option Checkpoint := none
  oracle : Option Oracle := none
deriving DecidableEq

/-- No first block is entered twice. -/
structure Registry where
  entries : List (Hash × Trusted) := []
  nodup_keys : (entries.map (·.1)).Nodup := by simp

namespace Registry

def find? (r : Registry) (genesis : Hash) : Option Trusted := r.entries.lookup genesis

/-- Changes the entry of a first block, which is blank if there is none yet. -/
def changeIn (genesis : Hash) (change : Trusted → Trusted) :
    List (Hash × Trusted) → List (Hash × Trusted)
  | [] => [(genesis, change {})]
  | (g, t) :: rest =>
    if g = genesis then (g, change t) :: rest else (g, t) :: changeIn genesis change rest

theorem mem_keys_changeIn {genesis g : Hash} {change : Trusted → Trusted}
    {entries : List (Hash × Trusted)} :
    g ∈ (changeIn genesis change entries).map (·.1) ↔ g = genesis ∨ g ∈ entries.map (·.1) := by
  induction entries with
  | nil => simp [changeIn]
  | cons e rest ih =>
    obtain ⟨k, t⟩ := e
    by_cases hk : k = genesis
    · simp [changeIn, hk]
    · simp only [changeIn, hk, if_false, List.map_cons, List.mem_cons, ih]
      constructor
      · rintro (h|h|h)
        · exact .inr (.inl h)
        · exact .inl h
        · exact .inr (.inr h)
      · rintro (h|h|h)
        · exact .inr (.inl h)
        · exact .inl h
        · exact .inr (.inr h)

theorem nodup_changeIn {genesis : Hash} {change : Trusted → Trusted}
    {entries : List (Hash × Trusted)}
    (h : (entries.map (·.1)).Nodup) : ((changeIn genesis change entries).map (·.1)).Nodup := by
  induction entries with
  | nil => simp [changeIn]
  | cons e rest ih =>
    obtain ⟨k, t⟩ := e
    rw [List.map_cons, List.nodup_cons] at h
    by_cases hk : k = genesis
    · simpa [changeIn, hk] using ⟨by simpa [hk] using h.1, h.2⟩
    · simp only [changeIn, hk, if_false, List.map_cons, List.nodup_cons]
      refine ⟨fun hm => ?_, ih h.2⟩
      rcases mem_keys_changeIn.mp hm with hm|hm
      · exact hk hm
      · exact h.1 hm

def change (r : Registry) (genesis : Hash) (f : Trusted → Trusted) : Registry where
  entries := changeIn genesis f r.entries
  nodup_keys := nodup_changeIn r.nodup_keys

theorem lookup_entry (g k : Hash) (t : Trusted) (rest : List (Hash × Trusted)) :
    ((k, t) :: rest).lookup g = if g = k then some t else rest.lookup g := by
  by_cases h : g = k
  · subst h
    simp
  · have hb : (g == k) = false := by simpa using h
    rw [List.lookup_cons, hb, if_neg h]

theorem lookup_changeIn (genesis g : Hash) (f : Trusted → Trusted)
    (entries : List (Hash × Trusted)) :
    (changeIn genesis f entries).lookup g =
      if g = genesis then some (f ((entries.lookup g).getD {})) else entries.lookup g := by
  induction entries with
  | nil => rw [changeIn, lookup_entry]; simp
  | cons e rest ih =>
    obtain ⟨k, t⟩ := e
    rw [changeIn, lookup_entry]
    by_cases hk : k = genesis
    · subst hk
      rw [if_pos rfl, lookup_entry]
      by_cases hg : g = k <;> simp [hg]
    · rw [if_neg hk, lookup_entry, ih]
      by_cases hg : g = k
      · subst hg
        simp [hk]
      · simp [hg]

/-- A change reaches the entry of its own first block and no other. -/
@[simp] theorem find?_change (r : Registry) (genesis g : Hash) (f : Trusted → Trusted) :
    (r.change genesis f).find? g =
      if g = genesis then some (f ((r.find? g).getD {})) else r.find? g :=
  lookup_changeIn genesis g f r.entries

def empty : Registry := {}

def addNetwork (r : Registry) (genesis : Hash) : Registry := r.change genesis id

def insertCheckpoint (r : Registry) (genesis : Hash) (c : Checkpoint) : Registry :=
  r.change genesis fun t => {t with checkpoint := some c}

def insertOracle (r : Registry) (genesis : Hash) (o : Oracle) : Registry :=
  r.change genesis fun t => {t with oracle := some o}

def remove (r : Registry) (genesis : Hash) : Registry where
  entries := r.entries.filter fun e => e.1 ≠ genesis
  nodup_keys := r.nodup_keys.sublist (List.filter_sublist.map _)

theorem lookup_filter_ne (genesis g : Hash) (entries : List (Hash × Trusted)) :
    (entries.filter fun e => e.1 ≠ genesis).lookup g =
      if g = genesis then none else entries.lookup g := by
  induction entries with
  | nil => simp
  | cons e rest ih =>
    obtain ⟨k, t⟩ := e
    rw [lookup_entry]
    by_cases hk : k = genesis
    · rw [List.filter_cons_of_neg (by simpa using hk), ih, hk]
      by_cases hg : g = genesis <;> simp [hg]
    · rw [List.filter_cons_of_pos (by simpa using hk), lookup_entry, ih]
      by_cases hg : g = k
      · subst hg
        simp [hk]
      · simp [hg]

/-- Removing an entry forgets its first block and no other. -/
@[simp] theorem find?_remove (r : Registry) (genesis g : Hash) :
    (r.remove genesis).find? g = if g = genesis then none else r.find? g :=
  lookup_filter_ne genesis g r.entries

def knownNetworks : Registry :=
  (empty.addNetwork Network.mainnetGenesis).addNetwork Network.testnetGenesis

def isKnown (r : Registry) (genesis : Hash) : Bool := (r.find? genesis).isSome
def size (r : Registry) : Nat := r.entries.length
def isEmpty (r : Registry) : Bool := r.entries.isEmpty

def checkpoint? (r : Registry) (genesis : Hash) : Option Checkpoint :=
  (r.find? genesis).bind (·.checkpoint)

def oracle? (r : Registry) (genesis : Hash) : Option Oracle := (r.find? genesis).bind (·.oracle)

/-- A network without a checkpoint has no digest, and that is logged. -/
def verify (r : Registry) (genesis digest : Hash) : Bool × List Log.Line :=
  match r.checkpoint? genesis with
  | some c => (c.accepts digest, [])
  | none => (false, [⟨.debug, s!"No trusted checkpoint for genesis {Hex.format genesis.toList}"⟩])

end Registry
end HardFork
