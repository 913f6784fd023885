import HardFork.Proofs.Document
import HardFork.Proofs.Json.Uniform.Record
import HardFork.Proofs.Json.Uniform.Value
import Mathlib.Logic.Function.Basic

/-! # Slots of a draft

Each slot has a reader of its own, which sees the value and not its text, and a place in the draft
that no other slot touches. -/
namespace HardFork
open Json

theorem Threshold.uniform_read : Uniform read :=
  uniform_readNatural.option.bind (fun block => some (ofOption block)) fun cs => by
    rw [read, toOption_bind]
    rfl

theorem Octets.uniform_read (width : Nat) : Uniform (read width) :=
  (uniform_readText .string).bind (fun text => (Hex.parse width text).toOption) fun cs => by
    rw [read, toOption_bind]
    congr 1
    funext read
    obtain ⟨text, rest⟩ := read
    cases h : Hex.parse width text with
    | ok o =>
      simp only [h]
      rfl
    | error e =>
      simp only [h]
      rfl

theorem Engine.uniform_ethashRecord (levels : Nat) : Uniform (ethashRecord.read levels) :=
  Record.uniform_read (fun _ _ hf => absurd hf List.not_mem_nil) levels

theorem Clique.uniform_read (levels : Nat) : Uniform (record.read levels) := by
  refine Record.uniform_read (fun levels f hf d => ?_) levels
  simp only [record, List.mem_cons, List.not_mem_nil, or_false] at hf
  rcases hf with rfl | rfl
  · exact uniform_readNatural.field d
  · exact uniform_readNatural.field d

theorem Posa.uniform_read (levels : Nat) : Uniform (record.read levels) := by
  have haddresses : ∀ levels, Uniform (readAddresses levels) :=
    uniform_readList fun _ => Octets.uniform_read 20
  refine Record.uniform_read (fun levels f hf d => ?_) levels
  simp only [record, List.mem_cons, List.not_mem_nil, or_false] at hf
  rcases hf with rfl | rfl | rfl | rfl | rfl
  · exact uniform_readNatural.field d
  · exact uniform_readNatural.field d
  · exact (haddresses levels).field d
  · exact (haddresses levels).field d
  · exact (Octets.uniform_read 20).field d

namespace Document

/-- What is read of a slot. -/
def Slot.Value : Slot → Type
  | chainId => Option Json
  | block _ => Threshold
  | daoForkSupport => Bool
  | eip150Hash => Hash
  | ethash => Option Unit
  | clique => Option Clique
  | posa => Option Posa

/-- What a draft holds at each slot. -/
def Draft.view (d : Draft) : (slot : Slot) → Option slot.Value
  | .chainId => d.chainId
  | .block b => d.block b
  | .daoForkSupport => d.daoForkSupport
  | .eip150Hash => d.eip150Hash
  | .ethash => d.ethash
  | .clique => d.clique
  | .posa => d.posa

def Slot.set : (slot : Slot) → Draft → slot.Value → Draft
  | chainId, d, v => {d with chainId := some v}
  | block b, d, t => {d with block := fun c => if c = b then some t else d.block c}
  | daoForkSupport, d, b => {d with daoForkSupport := some b}
  | eip150Hash, d, h => {d with eip150Hash := some h}
  | ethash, d, e => {d with ethash := some e}
  | clique, d, c => {d with clique := some c}
  | posa, d, p => {d with posa := some p}

def Slot.read : (slot : Slot) → Nat → Reader slot.Value
  | chainId, levels => readOption (readValue levels)
  | block _, _ => Threshold.read
  | daoForkSupport, _ => readBool
  | eip150Hash, _ => Octets.read 32
  | ethash, levels => readOption (Engine.ethashRecord.read levels)
  | clique, levels => readOption (Clique.record.read levels)
  | posa, levels => readOption (Posa.record.read levels)

namespace Slot

theorem field_eq (slot : Slot) :
    slot.field = .of slot.key (fun d => d.view slot) slot.set slot.read := by
  cases slot <;> rfl

theorem uniform_read (slot : Slot) (levels : Nat) : Uniform (slot.read levels) := by
  cases slot with
  | chainId => exact (uniform_readValue levels).option
  | block b => exact Threshold.uniform_read
  | daoForkSupport => exact uniform_readBool
  | eip150Hash => exact Octets.uniform_read 32
  | ethash => exact (Engine.uniform_ethashRecord levels).option
  | clique => exact (Clique.uniform_read levels).option
  | posa => exact (Posa.uniform_read levels).option

end Slot

theorem Draft.view_set (slot : Slot) (d : Draft) (v : slot.Value) :
    (slot.set d v).view = Function.update d.view slot (some v) := by
  funext other
  by_cases h : other = slot
  · subst h
    rw [Function.update_self]
    cases other with
    | block b => exact if_pos rfl
    | _ => rfl
  · rw [Function.update_of_ne h]
    cases slot with
    | block b =>
      cases other with
      | block c =>
        have hc : c ≠ b := fun hc => h (hc ▸ rfl)
        exact if_neg hc
      | _ => rfl
    | _ =>
      cases other
      all_goals first | rfl | exact absurd rfl h

theorem Draft.ext_view {d d' : Draft} (h : ∀ slot v, d.view slot = some v ↔ d'.view slot = some v) :
    d = d' := by
  have hview : d.view = d'.view := funext fun slot => Option.ext (h slot)
  obtain ⟨c, b, s, e, eth, cl, p⟩ := d
  obtain ⟨c', b', s', e', eth', cl', p'⟩ := d'
  have hb : b = b' := funext fun b => congrFun hview (.block b)
  have hc : c = c' := congrFun hview .chainId
  have hs : s = s' := congrFun hview .daoForkSupport
  have he : e = e' := congrFun hview .eip150Hash
  have heth : eth = eth' := congrFun hview .ethash
  have hcl : cl = cl' := congrFun hview .clique
  have hp : p = p' := congrFun hview .posa
  subst hb hc hs he heth hcl hp
  rfl

/-- The last value of a slot counts. -/
theorem Slot.set_set (slot : Slot) (d : Draft) (v w : slot.Value) :
    slot.set (slot.set d v) w = slot.set d w := by
  refine Draft.ext_view fun other u => ?_
  rw [Draft.view_set, Draft.view_set, Draft.view_set, Function.update_idem]

/-- Two slots are filled in either order. -/
theorem Slot.set_comm {slot other : Slot} (h : slot ≠ other) (d : Draft) (v : slot.Value)
    (w : other.Value) : other.set (slot.set d v) w = slot.set (other.set d w) v := by
  refine Draft.ext_view fun third u => ?_
  simp only [Draft.view_set]
  rw [Function.update_comm h]

end Document
end HardFork
