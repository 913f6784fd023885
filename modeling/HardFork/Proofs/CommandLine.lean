import HardFork.CommandLine
import HardFork.Proofs.Document
import HardFork.Proofs.Policies

/-! # The command line and the service on one question

Both compare a candidate with a stored schedule. The service looks first whether the candidate is
valid; the command `compat` does not, so it calls a candidate compatible that the service refuses.
It is the commands `compat` and `validate` together that answer as the service does. -/
namespace HardFork.CommandLine
open Compatibility Service

/-- A name that stands by place where a file is wanted: it is not empty, and no option. -/
structure IsFileName (name : String) : Prop where
  nonempty : name ≠ ""
  noOption : name.toList.head? ≠ some '-'

variable {s : Synopsis} {a : Arguments} {name : String}

theorem IsFileName.isOption (h : IsFileName name) : isOption name.toList = false := by
  simp [CommandLine.isOption, h.noOption]

theorem IsFileName.isHelp (h : IsFileName name) : isHelp name.toList = false := by
  have hhead := h.noOption
  unfold CommandLine.isHelp
  split
  · rename_i heq
    exact absurd (congrArg List.head? heq) hhead
  · refine decide_eq_false fun heq => hhead ?_
    rw [heq]
    rfl

theorem push_eq_ok (h : IsFileName name) (hroom : a.places.length < s.places.length) :
    a.push s name = .ok {a with places := a.places ++ [name]} := by
  simp [Arguments.push, hroom, Synopsis.accepts, h.nonempty]

/-- A file name is taken by place. -/
theorem sortArguments_place (h : IsFileName name) (hroom : a.places.length < s.places.length)
    (rest : List String) :
    sortArguments s a (name :: rest) =
      sortArguments s {a with places := a.places ++ [name]} rest := by
  have hhead := h.noOption
  rw [sortArguments, h.isHelp]
  simp only [Bool.false_eq_true, if_false]
  split
  · rename_i heq
    exact absurd (congrArg List.head? heq) hhead
  · rename_i heq
    exact absurd (congrArg List.head? heq) hhead
  · rw [h.isOption, push_eq_ok h hroom]
    rfl

theorem toList_toString (n : Nat) : (toString n).toList = Decimal.digits n :=
  String.toList_ofList

/-- The digits of a word are read as the word. -/
theorem readWord?_toString (n : UInt64) : readWord? (toString n.toNat) = some n := by
  have hdigits : (Decimal.digits n.toNat).all Char.isDigit :=
    List.all_eq_true.mpr fun c hc => Decimal.isDigit_of_mem_digits hc
  have hne : Decimal.digits n.toNat ≠ [] := Decimal.digits_ne_nil n.toNat
  have hlt : n.toNat < UInt64.size := n.toNat_lt
  rw [readWord?, toList_toString]
  split
  · rename_i heq
    exact absurd (congrArg List.head? heq) (Decimal.head?_digits_ne (by decide) n.toNat)
  · simp [hdigits, hne, Nat.not_le.mpr hlt]

theorem isOption_toString (n : Nat) : isOption (toString n).toList = false := by
  have hhead := Decimal.head?_digits_ne (c := '-') (by decide) n
  rw [toList_toString]
  simp [isOption, hhead]

/-- The head is taken by name. -/
theorem sortArguments_head {value : String} {head : UInt64} (hv : readWord? value = some head)
    (ho : isOption value.toList = false) (places : List String) :
    sortArguments compat ⟨places, []⟩ ["--head", value] = .ok ⟨places, [("head", head)]⟩ := by
  have hlist : "--head".toList = ['-', '-', 'h', 'e', 'a', 'd'] := rfl
  have hgive : Arguments.give compat ⟨places, []⟩ "head" value =
      .ok ⟨places, [("head", head)]⟩ := by
    simp [Arguments.give, hv, compat]
  rw [sortArguments, hlist, if_neg (by decide)]
  change (if isOption value.toList then Except.error Interruption.misuse else
    Arguments.give compat ⟨places, []⟩ "head" value >>= fun a => sortArguments compat a []) = _
  rw [ho, hgive]
  rfl

/-- The two files and the head, in the usual spelling. -/
theorem parse_eq_ok {name : String} {args : List String} {s : Synopsis} {given : Arguments}
    {command : Command} (hhelp : ¬ isHelp name.toList) (hname : name ≠ "help")
    (hs : synopsis? name = some s) (hargs : sortArguments s {} args = .ok given)
    (hcommand : command? s given = some command) : parse (name :: args) = .ok command := by
  rw [parse, if_neg hhelp, if_neg hname, hs]
  simp only [bind, Except.bind, hargs, hcommand]
  rfl

theorem parse_compat {stored candidate : String} (hs : IsFileName stored)
    (hc : IsFileName candidate) (head : UInt64) :
    parse ["compat", stored, candidate, "--head", toString head.toNat] =
      .ok (.compat stored candidate head) := by
  have hsort : sortArguments compat {} [stored, candidate, "--head", toString head.toNat] =
      .ok ⟨[stored, candidate], [("head", head)]⟩ := by
    rw [sortArguments_place hs (by decide), sortArguments_place hc (by simp [compat])]
    exact sortArguments_head (readWord?_toString head) (isOption_toString _) _
  exact parse_eq_ok (by decide) (by decide) rfl hsort rfl

theorem parse_validate {file : String} (h : IsFileName file) :
    parse ["validate", file] = .ok (.validate file) := by
  have hsort : sortArguments validate {} [file] = .ok ⟨[file], []⟩ := by
    rw [sortArguments_place h (by decide)]
    rfl
  exact parse_eq_ok (by decide) (by decide) rfl hsort rfl

variable {files : Files} {stored candidate : Schedule} {args : List String}

theorem load_text {file text : String} (h : files file = .ok text.toUTF8) :
    load files file = (Schedule.parse text).mapError (.loading file) := by
  have hutf8 : String.fromUTF8? text.toUTF8 = some text := by
    simp [String.fromUTF8?, String.toUTF8, String.fromUTF8, text.isValidUTF8]
  simp only [load, Schedule.ofFile, h, hutf8]

/-- What the command line prints when no conflict is found. -/
def compatible (head : UInt64) : Answer :=
  {exitCode := 0, out := s!"compatible at head {head.toNat}\n"}

theorem answer_compat {storedFile candidateFile : String} {head : UInt64}
    (ha : parse args = .ok (.compat storedFile candidateFile head))
    (hs : load files storedFile = .ok stored) (hc : load files candidateFile = .ok candidate) :
    answer files args = match lowest? stored candidate head with
      | none => compatible head
      | some c => {exitCode := 1, err := s!"Error: {c.message}\n"} := by
  simp only [answer, ha, run, hs, hc, bind, Except.bind]
  cases lowest? stored candidate head <;> rfl

theorem answer_compat_eq_compatible_iff {storedFile candidateFile : String} {head : UInt64}
    (ha : parse args = .ok (.compat storedFile candidateFile head))
    (hs : load files storedFile = .ok stored) (hc : load files candidateFile = .ok candidate) :
    answer files args = compatible head ↔ lowest? stored candidate head = none := by
  rw [answer_compat ha hs hc]
  cases lowest? stored candidate head <;> simp [compatible]

theorem exitCode_answer_validate_iff {file : String} (ha : parse args = .ok (.validate file))
    (hs : load files file = .ok stored) :
    (answer files args).exitCode = 0 ↔
      stored.checkOrder = .ok () ∧ stored.validateEngine = .ok () := by
  simp only [answer, ha, run, hs, bind, Except.bind]
  cases stored.checkOrder with
  | error v => simp [Except.mapError]
  | ok =>
    cases stored.validateEngine <;> simp [Except.mapError, pure, Except.pure]

theorem active_loadGenesis {σ : Type} {host : Host σ} {config : Config} {state : State σ}
    (h : (loadGenesis host config stored state).result = .ok ()) :
    (loadGenesis host config stored state).state.active = some stored := by
  unfold loadGenesis at h ⊢
  split
  · simp_all
  · rename_i hv
    rcases hs : host.store stored state.world with ⟨_ | _, world⟩
    · rw [hv] at h
      rw [activate_of_error hs] at h
      cases h
    · rw [activate_of_ok hs]

/-- The service accepts a candidate exactly when the command line calls it compatible and valid. -/
theorem accepted_iff_compatible_and_valid {storedFile candidateFile : String}
    (hsName : IsFileName storedFile) (hcName : IsFileName candidateFile)
    (hs : load files storedFile = .ok stored) (hc : load files candidateFile = .ok candidate)
    (refusal : Option String)
    (hgenesis : (loadGenesis (Host.memory refusal) default stored (start {})).result = .ok ())
    (head : UInt64) :
    let service := (loadGenesis (Host.memory refusal) default stored (start {})).state
    let compat := answer files ["compat", storedFile, candidateFile, "--head", toString head.toNat]
    (compat = compatible head ↔ lowest? stored candidate head = none) ∧
    ((importSchedule (Host.memory refusal) default candidate head service).result = .ok .accepted ↔
      compat = compatible head ∧ (answer files ["validate", candidateFile]).exitCode = 0) := by
  intro service compat
  have hcompat : compat = compatible head ↔ lowest? stored candidate head = none :=
    answer_compat_eq_compatible_iff (parse_compat hsName hcName head) hs hc
  have hvalid := exitCode_answer_validate_iff (parse_validate hcName) hc
  have hchecked : (default : Config).validateEngine := rfl
  refine ⟨hcompat, ?_⟩
  rw [importSchedule_eq_accepted_iff (active_loadGenesis hgenesis), validate_eq_ok_iff, hcompat,
    hvalid]
  simp only [hchecked, forall_const]
  exact and_comm

/-- A network without forks. -/
def bare : Schedule := {chainId := some (.ofWord 1)}

/-- The bare network in one file, and a candidate for its place in all others. -/
def replacing (candidate : Schedule) : Files := fun file =>
  .ok (if file = "stored.json" then bare else candidate).compact.toUTF8

theorem load_replacing (candidate : Schedule) (file : String) :
    load (replacing candidate) file = .ok (if file = "stored.json" then bare else candidate) := by
  rw [load_text rfl, Schedule.compact, Json.compact,
    Schedule.parse_of_takes (Document.takes_ofSchedule _ none)]
  rfl

theorem isFileName_stored : IsFileName "stored.json" := ⟨by decide, by decide⟩

theorem isFileName_candidate : IsFileName "candidate.json" := ⟨by decide, by decide⟩

/-- A candidate in order, with its first fork behind the head. -/
theorem homestead_accepted_and_compatible :
    let files := replacing (bare.withFork .homestead 5)
    let loaded := loadGenesis (Host.memory none) default bare (start {})
    loaded.result = .ok () ∧
    load files "stored.json" = .ok bare ∧
    load files "candidate.json" = .ok (bare.withFork .homestead 5) ∧
    answer files ["compat", "stored.json", "candidate.json", "--head", "4"] = compatible 4 ∧
    (answer files ["validate", "candidate.json"]).exitCode = 0 ∧
    (importSchedule (Host.memory none) default (bare.withFork .homestead 5) 4 loaded.state).result =
      .ok .accepted := by
  intro files loaded
  have hs : load files "stored.json" = .ok bare := load_replacing _ _
  have hc : load files "candidate.json" = .ok (bare.withFork .homestead 5) := load_replacing _ _
  obtain ⟨hcompat, haccepted⟩ := accepted_iff_compatible_and_valid isFileName_stored
    isFileName_candidate hs hc none rfl 4
  have himport : (importSchedule (Host.memory none) default (bare.withFork .homestead 5) 4
      loaded.state).result = .ok .accepted := by cbv
  exact ⟨rfl, hs, hc, (haccepted.mp himport).1, (haccepted.mp himport).2, himport⟩

/-- A candidate that skips a fork is called compatible, and the service refuses it. -/
theorem skipped_fork_called_compatible :
    let files := replacing (bare.withFork .eip150 5)
    let loaded := loadGenesis (Host.memory none) default bare (start {})
    loaded.result = .ok () ∧
    load files "stored.json" = .ok bare ∧
    load files "candidate.json" = .ok (bare.withFork .eip150 5) ∧
    answer files ["compat", "stored.json", "candidate.json", "--head", "0"] = compatible 0 ∧
    (importSchedule (Host.memory none) default (bare.withFork .eip150 5) 0 loaded.state).result =
      .error (.order (.skipped .homestead .eip150 5)) := by
  intro files loaded
  have hs : load files "stored.json" = .ok bare := load_replacing _ _
  have hc : load files "candidate.json" = .ok (bare.withFork .eip150 5) := load_replacing _ _
  have hlowest : lowest? bare (bare.withFork .eip150 5) 0 = none := by cbv
  have hcompat := answer_compat_eq_compatible_iff
    (parse_compat isFileName_stored isFileName_candidate 0) hs hc
  exact ⟨rfl, hs, hc, hcompat.mpr hlowest, rfl⟩

end HardFork.CommandLine
