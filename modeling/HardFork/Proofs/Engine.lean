import HardFork.Engine
import HardFork.Proofs.Hexadecimal
import HardFork.Proofs.Json.Record

/-! # Engines and their parameters read back -/
namespace HardFork
open Json

namespace Octets

variable {width : Nat}

theorem takes_read (o : Octets width) (layout : Option Nat) :
    Takes (read width) (write layout o.toJson) o where
  starts := (takes_readText .string (Hex.format o.toList) layout).starts
  reads gap rest hg hd := by
    have hread := (takes_readText .string (Hex.format o.toList) layout).reads gap rest hg hd
    rw [toJson, read, hread]
    simp only [bind, Except.bind, Hex.parse_format]
    rfl

theorem takes_readList (os : List (Octets width)) (levels : Nat) (layout : Option Nat) :
    Takes (readList (fun _ => read width) (levels+1))
      (write layout (.array (os.map toJson))) os :=
  Json.takes_readList os layout fun o _ => o.takes_read (layout.map (·+1))

end Octets

theorem Clique.takes_read (c : Clique) (levels : Nat) (layout : Option Nat) :
    Takes (record.read (levels+1)) (write layout c.toJson) c := by
  refine Record.takes_read layout
    (Record.folds_cons rfl rfl ((takes_readNatural c.period _).field _) <|
      Record.folds_cons rfl rfl ((takes_readNatural c.epoch _).field _) .nil) ?_
  rfl

namespace Posa

/-- The name of a list that is empty, or that of the administrator if it is zero. -/
def Omittable (p : Posa) (name : String) : Prop :=
  name = "ishikariInitialValidators" ∧ p.validators = [] ∨
  name = "ishikariInitialManagers" ∧ p.managers = [] ∨
  name = "ishikariAdminAddress" ∧ p.admin = .zero 20

variable {p : Posa} {names : List String}

theorem takes_read_without (h : ∀ name ∈ names, p.Omittable name) (levels : Nat)
    (layout : Option Nat) :
    Takes (record.read (levels+2)) (write layout (p.toJson.without names)) p := by
  have hperiod : "period" ∉ names := fun hm => by simpa [Omittable] using h _ hm
  have hepoch : "epoch" ∉ names := fun hm => by simpa [Omittable] using h _ hm
  have hvalidators : "ishikariInitialValidators" ∈ names → p.validators = [] := fun hm => by
    simpa [Omittable] using h _ hm
  have hmanagers : "ishikariInitialManagers" ∈ names → p.managers = [] := fun hm => by
    simpa [Omittable] using h _ hm
  have hadmin : "ishikariAdminAddress" ∈ names → p.admin = .zero 20 := fun hm => by
    simpa [Omittable] using h _ hm
  let period := unlessIn names "period" p.period
  let epoch := unlessIn names "epoch" p.epoch
  let validators := unlessIn names "ishikariInitialValidators" p.validators
  let managers := unlessIn names "ishikariInitialManagers" p.managers
  let admin := unlessIn names "ishikariAdminAddress" p.admin
  -- Each member finds the draft that the members before it have left.
  refine Record.takes_read layout
    (Record.folds_unlessIn (fun o => Draft.mk o none none none none) p.period rfl rfl
      ((takes_readNatural p.period _).field _) <|
    Record.folds_unlessIn (fun o => Draft.mk period o none none none) p.epoch rfl rfl
      ((takes_readNatural p.epoch _).field _) <|
    Record.folds_unlessIn (fun o => Draft.mk period epoch o none none) p.validators rfl rfl
      ((Octets.takes_readList p.validators levels _).field _) <|
    Record.folds_unlessIn (fun o => Draft.mk period epoch validators o none) p.managers rfl rfl
      ((Octets.takes_readList p.managers levels _).field _) <|
    Record.folds_unlessIn (fun o => Draft.mk period epoch validators managers o) p.admin rfl rfl
      ((p.admin.takes_read _).field _) .nil) ?_
  have hcomplete : record.complete ⟨some p.period, some p.epoch, validators, managers, admin⟩ =
      .ok ⟨p.period, p.epoch, validators.getD [], managers.getD [], admin.getD (.zero 20)⟩ := rfl
  rw [show period = some p.period from unlessIn_of_not_mem hperiod _,
    show epoch = some p.epoch from unlessIn_of_not_mem hepoch _, hcomplete,
    getD_unlessIn hvalidators, getD_unlessIn hmanagers, getD_unlessIn hadmin]

theorem takes_read (p : Posa) (levels : Nat) (layout : Option Nat) :
    Takes (record.read (levels+2)) (write layout p.toJson) p := by
  have h : Takes _ (write layout (p.toJson.without [])) p :=
    takes_read_without (fun _ h => absurd h List.not_mem_nil) levels layout
  rwa [show p.toJson.without [] = p.toJson from without_nil _] at h

end Posa

theorem Engine.takes_ethashRecord (levels : Nat) (layout : Option Nat) :
    Takes (ethashRecord.read (levels+1)) (write layout (.object [])) () :=
  Record.takes_read layout .nil rfl

end HardFork
