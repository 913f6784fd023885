import HardFork.Checkpoint
import HardFork.Proofs.Members
import HardFork.Service.Config

/-! # Records read back from their texts

Each record is written with all of its members and reads back from them. Where a field has a value
that is assumed when it is missing, its member can be left out while it has this value. -/
namespace HardFork
open Json

namespace Json

variable {α β δ : Type} {layout : Option Nat}

/-- A value of an enumeration reads back from its name. -/
theorem takes_readVariant {known : List (String × α)} {name : String} {a : α}
    (h : known.lookup name = some a) (levels : Nat) (layout : Option Nat) :
    Takes (readVariant known levels) (write layout (.string name)) a := by
  have hskips : SkipsSpace (readVariant known levels) := by
    intro gap cs hg
    rw [readVariant, skipSpace_append hg, readVariant]
  rw [write]
  refine hskips.takes rfl (by decide) fun rest _ => ?_
  rw [quote_append, readVariant, skipSpace_cons (by decide)]
  simp only [readString_quote, bind, Except.bind, findVariant, h]
  rfl

end Json

theorem Checkpoint.takes_read (c : Checkpoint) (levels : Nat) (layout : Option Nat) :
    Takes (record.read (levels+1)) (write layout c.toJson) c := by
  refine Record.takes_read layout
    (Record.folds_cons rfl rfl ((takes_readNatural c.sectionIndex _).field _) <|
      Record.folds_cons rfl rfl ((c.sectionHead.takes_read _).field _) <|
      Record.folds_cons rfl rfl ((c.chtRoot.takes_read _).field _) <|
      Record.folds_cons rfl rfl ((c.bloomRoot.takes_read _).field _) .nil) ?_
  rfl

theorem Oracle.takes_read (o : Oracle) (levels : Nat) (layout : Option Nat) :
    Takes (record.read (levels+2)) (write layout o.toJson) o := by
  refine Record.takes_read layout
    (Record.folds_cons rfl rfl ((o.address.takes_read _).field _) <|
      Record.folds_cons rfl rfl ((Octets.takes_readList o.signers levels _).field _) <|
      Record.folds_cons rfl rfl ((takes_readNatural o.threshold _).field _) .nil) ?_
  rfl

theorem SignedRoot.takes_read (r : SignedRoot) (levels : Nat) (layout : Option Nat) :
    Takes (record.read (levels+2)) (write layout r.toJson) r := by
  refine Record.takes_read layout
    (Record.folds_cons rfl rfl ((r.root.takes_read _).field _) <|
      Record.folds_cons rfl rfl ((Octets.takes_readList r.signers levels _).field _) .nil) ?_
  rfl

namespace Service.Config

theorem lookup_policies (p : Policy) : policies.lookup p.name = some p := by
  cases p <;> decide

theorem takes_read (c : Config) (levels : Nat) (layout : Option Nat) :
    Takes (record.read (levels+1)) (write layout c.toJson) c := by
  refine Record.takes_read layout
    (Record.folds_cons rfl rfl
      ((takes_readVariant (lookup_policies c.policy) levels _).field _) <|
      Record.folds_cons rfl rfl ((takes_readBool c.validateEngine _).field _) .nil) ?_
  rfl

end Service.Config

namespace Posa

variable {p : Posa} {names : List String}

theorem decode_compact (p : Posa) : decode record.read p.toJson.compact = .ok p :=
  decode_of_takes (p.takes_read 125 none)

theorem decode_compact_without (h : ∀ name ∈ names, p.Omittable name) :
    decode record.read (p.toJson.without names).compact = .ok p :=
  decode_of_takes (takes_read_without h 125 none)

end Posa

/-- Each value is decoded from its own text. Engine parameters are decoded too when lists that are
empty and an administrator of zero are left out of the text. -/
theorem compact_texts_decoded (c : Checkpoint) (o : Oracle) (p : Posa) (q : Clique)
    (config : Service.Config) (r : SignedRoot) :
    Checkpoint.decode c.toJson.compact = .ok c ∧
    Oracle.decode o.toJson.compact = .ok o ∧
    decode Posa.record.read p.toJson.compact = .ok p ∧
    decode Clique.record.read q.toJson.compact = .ok q ∧
    Service.Config.decode config.toJson.compact = .ok config ∧
    SignedRoot.decode r.toJson.compact = .ok r ∧
    ∀ names, (∀ name ∈ names, p.Omittable name) →
      decode Posa.record.read (p.toJson.without names).compact = .ok p :=
  ⟨decode_of_takes (c.takes_read 126 none), decode_of_takes (o.takes_read 125 none),
    p.decode_compact, decode_of_takes (q.takes_read 126 none),
    decode_of_takes (config.takes_read 126 none), decode_of_takes (r.takes_read 125 none),
    fun _ h => Posa.decode_compact_without h⟩

/-- Validators without managers, and no administrator. -/
theorem managers_and_admin_left_out :
    let p : Posa := ⟨3, 100, [.ofNat 20 1], [], .zero 20⟩
    let names := ["ishikariInitialManagers", "ishikariAdminAddress"]
    (p.toJson.without names).members.map Prod.fst =
      ["period", "epoch", "ishikariInitialValidators"] ∧
    decode Posa.record.read (p.toJson.without names).compact = .ok p := by
  intro p names
  have h : ∀ name ∈ names, p.Omittable name := by
    simp [names, p, Posa.Omittable]
  exact ⟨by decide, (compact_texts_decoded ⟨0, .zero 32, .zero 32, .zero 32⟩ ⟨.zero 20, [], 0⟩ p
    ⟨0, 0⟩ default ⟨.zero 32, []⟩).2.2.2.2.2.2 names h⟩

end HardFork
