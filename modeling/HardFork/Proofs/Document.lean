import HardFork.Document
import HardFork.Proofs.ChainId
import HardFork.Proofs.Engine

/-! # Config documents read back

A document is written with the members that are set, in the order of the slots. While it is read,
the draft holds what the document says at the slots that were passed, and a slot that is left out
says what is assumed of it. -/
namespace HardFork
open Json

theorem Threshold.takes_read (block : UInt64) (layout : Option Nat) :
    Takes read (write layout (.nat block.toNat)) (.scheduled block) :=
  ((takes_readNatural block layout).option (head?_write_nat layout _)).map ofOption

namespace Document

namespace Slot

theorem mem_all (slot : Slot) : slot ∈ all := by
  cases slot with
  | block b => cases b <;> decide
  | _ => decide

theorem nodup_all : all.Nodup := by decide

theorem name_field (slot : Slot) : slot.field.name = slot.key := by cases slot <;> rfl

theorem find?_key (slot : Slot) : all.find? (fun other => other.key = slot.key) = some slot := by
  cases slot with
  | block b => cases b <;> decide
  | _ => decide

def ofName? (name : String) : Option Slot := all.find? fun slot => slot.key = name

theorem ofName?_key (slot : Slot) : ofName? slot.key = some slot := find?_key slot

/-- The field of a name is that of the slot of this name. -/
theorem find?_fields (name : String) :
    record.fields.find? (fun f => f.name = name) = (ofName? name).map field := by
  show (all.map field).find? _ = _
  rw [List.find?_map]
  congr 2
  funext slot
  simp [name_field]

theorem find?_field (slot : Slot) :
    record.fields.find? (fun f => f.name = slot.key) = some slot.field := by
  rw [find?_fields, ofName?_key]
  rfl

end Slot

/-- Puts what a document says at a slot into a draft. -/
def Slot.put (d : Document) (draft : Draft) : Slot → Draft
  | chainId => {draft with chainId := some d.chainId}
  | block b => {draft with block := fun c => if c = b then some (d.block b) else draft.block c}
  | daoForkSupport => {draft with daoForkSupport := some d.daoForkSupport}
  | eip150Hash => {draft with eip150Hash := some d.eip150Hash}
  | ethash => {draft with ethash := some d.ethash}
  | clique => {draft with clique := some d.clique}
  | posa => {draft with posa := some d.posa}

variable {d : Document}

/-- What is written of a slot is read as what the document says there. -/
theorem takes_field {slot : Slot} {x : Json} (hx : slot.value? d = some x) (draft : Draft)
    (levels : Nat) (layout : Option Nat)
    (hc : Takes (readOption (readValue (levels+2))) (write layout (d.chainId.getD .null))
      d.chainId) :
    Takes (slot.field.read (levels+2) draft) (write layout x) (slot.put d draft) := by
  cases slot with
  | chainId =>
    cases hx
    exact hc.map fun id => {draft with chainId := some id}
  | block b =>
    cases ht : d.block b with
    | unscheduled => simp [Slot.value?, ht, Threshold.block?] at hx
    | scheduled block =>
      simp only [Slot.value?, ht, Threshold.block?, Option.map_some, Option.some.injEq] at hx
      subst hx
      rw [Slot.put, ht]
      exact (Threshold.takes_read block layout).map fun t =>
        {draft with block := fun c => if c = b then some t else draft.block c}
  | daoForkSupport =>
    cases hb : d.daoForkSupport with
    | false => simp [Slot.value?, hb] at hx
    | true =>
      simp only [Slot.value?, hb, if_true, Option.some.injEq] at hx
      subst hx
      rw [Slot.put, hb]
      exact (takes_readBool true layout).map fun b => {draft with daoForkSupport := some b}
  | eip150Hash =>
    simp only [Slot.value?, Option.ite_none_left_eq_some, Option.some.injEq] at hx
    obtain ⟨-, rfl⟩ := hx
    exact (d.eip150Hash.takes_read layout).map fun h => {draft with eip150Hash := some h}
  | ethash =>
    obtain ⟨⟨⟩, hu, rfl⟩ := Option.map_eq_some_iff.mp hx
    rw [Slot.put, hu]
    exact ((Engine.takes_ethashRecord (levels+1) layout).option (head?_write_object [] layout)).map
      fun e => {draft with ethash := some e}
  | clique =>
    obtain ⟨c, hc, rfl⟩ := Option.map_eq_some_iff.mp hx
    rw [Slot.put, hc]
    exact ((c.takes_read (levels+1) layout).option (head?_write_object _ layout)).map
      fun c => {draft with clique := some c}
  | posa =>
    obtain ⟨p, hp, rfl⟩ := Option.map_eq_some_iff.mp hx
    rw [Slot.put, hp]
    exact ((p.takes_read levels layout).option (head?_write_object _ layout)).map
      fun p => {draft with posa := some p}

/-- The draft that holds what a document says at the given slots. -/
def Draft.at (d : Document) (given : Slot → Bool) : Draft where
  chainId := if given .chainId then some d.chainId else none
  block b := if given (.block b) then some (d.block b) else none
  daoForkSupport := if given .daoForkSupport then some d.daoForkSupport else none
  eip150Hash := if given .eip150Hash then some d.eip150Hash else none
  ethash := if given .ethash then some d.ethash else none
  clique := if given .clique then some d.clique else none
  posa := if given .posa then some d.posa else none

variable {given : Slot → Bool}

theorem isGiven_field (slot : Slot) : slot.field.isGiven (Draft.at d given) = given slot := by
  cases slot <;> simp only [Slot.field, Field.of, Draft.at] <;> split <;> simp_all

theorem put_at (slot : Slot) :
    slot.put d (Draft.at d given) = Draft.at d fun other => given other || other = slot := by
  cases slot with
  | block b =>
    have hblock : ∀ c, (if c = b then some (d.block b) else
        if given (.block c) then some (d.block c) else none) =
        if given (.block c) || decide (Slot.block c = .block b) then some (d.block c)
        else none := by
      intro c
      by_cases hc : c = b <;> simp [hc]
    simp [Slot.put, Draft.at, hblock]
  | _ => simp [Slot.put, Draft.at]

/-- The members of the slots that are still to come lead to the draft that holds them too. -/
theorem folds_slots (levels : Nat) (layout : Option Nat)
    (hc : Takes (readOption (readValue (levels+2))) (write layout (d.chainId.getD .null)) d.chainId)
    {slots : List Slot} (hslots : slots.Nodup) (hgiven : ∀ slot ∈ slots, given slot = false)
    {after : Slot → Bool}
    (hafter : ∀ slot, after slot = (given slot || slot ∈ slots && (slot.value? d).isSome)) :
    Folds (record.readMember (levels+2)) layout (Draft.at d given)
      (slots.filterMap fun slot => (slot.value? d).map fun v => (slot.key, v))
      (Draft.at d after) := by
  induction slots generalizing given with
  | nil =>
    obtain rfl : after = given := funext fun slot => by simp [hafter slot]
    exact .nil
  | cons slot slots ih =>
    obtain ⟨hnew, hslots⟩ := List.nodup_cons.mp hslots
    have hrest : ∀ other ∈ slots, given other = false := fun other ho =>
      hgiven other (List.mem_cons_of_mem slot ho)
    cases hx : slot.value? d with
    | none =>
      rw [List.filterMap_cons_none (by rw [hx]; rfl)]
      refine ih hslots hrest fun other => ?_
      rw [hafter other]
      by_cases ho : other = slot
      · subst ho
        simp [hx]
      · simp [ho]
    | some x =>
      rw [List.filterMap_cons_some (by rw [hx]; rfl)]
      have hfield := takes_field hx (Draft.at d given) levels layout hc
      rw [put_at] at hfield
      refine Record.folds_cons (Slot.find?_field slot) ?_ hfield (ih hslots ?_ fun other => ?_)
      · rw [isGiven_field, hgiven slot List.mem_cons_self]
      · intro other ho
        have hne : other ≠ slot := fun h => hnew (h ▸ ho)
        simp [hrest other ho, hne]
      · rw [hafter other]
        by_cases ho : other = slot
        · subst ho
          simp [hx]
        · simp [ho]

theorem getD_of_value? {β : Type} {slot : Slot} {b default : β}
    (h : slot.value? d = none → b = default) :
    (if (slot.value? d).isSome then some b else none).getD default = b := by
  cases hx : slot.value? d with
  | none => exact (h hx).symm
  | some x => rfl

/-- What the slots do not say is what is assumed of them. -/
theorem complete_at (d : Document) :
    record.complete (Draft.at d fun slot => (slot.value? d).isSome) = .ok d := by
  let draft := Draft.at d fun slot => (slot.value? d).isSome
  have hblock : ∀ b, (draft.block b).getD .unscheduled = d.block b := fun b =>
    getD_of_value? fun h => by
      cases ht : d.block b with
      | unscheduled => rfl
      | scheduled block => simp [Slot.value?, ht, Threshold.block?] at h
  have hdao : draft.daoForkSupport.getD false = d.daoForkSupport :=
    getD_of_value? (by simp [Slot.value?])
  have hhash : draft.eip150Hash.getD (.zero 32) = d.eip150Hash :=
    getD_of_value? (by simp [Slot.value?, Octets.isZero_iff])
  have hethash : draft.ethash.getD none = d.ethash := getD_of_value? (by simp [Slot.value?])
  have hclique : draft.clique.getD none = d.clique := getD_of_value? (by simp [Slot.value?])
  have hposa : draft.posa.getD none = d.posa := getD_of_value? (by simp [Slot.value?])
  calc record.complete draft
      = .ok {
          chainId := d.chainId
          block := fun b => (draft.block b).getD .unscheduled
          daoForkSupport := draft.daoForkSupport.getD false
          eip150Hash := draft.eip150Hash.getD (.zero 32)
          ethash := draft.ethash.getD none
          clique := draft.clique.getD none
          posa := draft.posa.getD none } := rfl
    _ = .ok d := by simp only [hblock, hdao, hhash, hethash, hclique, hposa]

/-- A document reads back when its chain id does. -/
theorem takes_read (d : Document) (levels : Nat) (layout : Option Nat)
    (hc : ∀ layout, Takes (readOption (readValue (levels+2)))
      (write layout (d.chainId.getD .null)) d.chainId) :
    Takes (record.read (levels+3)) (write layout d.toJson) d := by
  have hafter : ∀ slot : Slot,
      (slot.value? d).isSome = (false || slot ∈ Slot.all && (slot.value? d).isSome) := by
    intro slot
    simp [Slot.mem_all slot]
  exact Record.takes_read layout
    (folds_slots levels _ (hc _) Slot.nodup_all (fun _ _ => rfl) hafter) (complete_at d)

theorem engines_ofSchedule (s : Schedule) : (ofSchedule s).engines = [s.engine] := by
  simp only [engines, ofSchedule]
  cases s.engine <;> rfl

theorem toSchedule_ofSchedule (s : Schedule) : (ofSchedule s).toSchedule = .ok s := by
  rw [toSchedule, engines_ofSchedule]
  simp only [ofSchedule, ChainId.ofJson_toJson]
  rfl

theorem takes_ofSchedule (s : Schedule) (layout : Option Nat) :
    Takes (record.read maxLevels) (write layout s.toJson) (ofSchedule s) :=
  takes_read (ofSchedule s) 124 layout fun layout =>
    ChainId.takes_readOption s.chainId 126 layout

end Document

namespace Schedule

theorem parse_of_takes {s : Schedule} {text : List Char}
    (h : Takes (Document.record.read maxLevels) text (Document.ofSchedule s)) :
    parse (String.ofList text) = .ok s := by
  rw [parse, decode_of_takes h]
  show (Document.ofSchedule s).toSchedule.mapError LoadError.document = .ok s
  rw [Document.toSchedule_ofSchedule]
  rfl

/-- A schedule reads back from both of its texts. -/
theorem parse_text_and_compact (s : Schedule) : parse s.text = .ok s ∧ parse s.compact = .ok s :=
  ⟨parse_of_takes (Document.takes_ofSchedule s (some 0)),
    parse_of_takes (Document.takes_ofSchedule s none)⟩

end Schedule
end HardFork
