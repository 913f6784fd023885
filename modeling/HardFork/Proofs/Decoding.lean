import HardFork.Proofs.Document

/-! # Two ways to read a schedule

`parse` reads the text to its end and then makes a schedule of the document; `decode` makes the
schedule where the document ends. They give the same schedules and name the same faults at the same
places. Only where a text goes on behind a document that is no schedule are there two faults to
choose from: `parse` names the rest of the text and `decode` the document. -/
namespace HardFork

namespace Json

variable {α : Type} {reader : Nat → Reader α} {text : String} {a : α} {rest : List Char}

theorem decode_of_refused {r : Refusal} (h : reader maxLevels text.toList = .error r) :
    decode reader text = .error (r.toError text.toList) := by
  rw [decode, h]
  rfl

theorem decode_of_whole (h : reader maxLevels text.toList = .ok (a, rest))
    (hrest : skipSpace rest = []) : decode reader text = .ok a := by
  rw [decode, h]
  simp only [bind, Except.bind, hrest, List.isEmpty_nil, if_true]
  rfl

/-- The fault of a text in which `rest` stands behind the value. -/
def trailing (text : String) (rest : List Char) : Error :=
  Refusal.toError text.toList ⟨.malformed .trailingCharacters, .ahead (skipSpace rest)⟩

theorem decode_of_trailing (h : reader maxLevels text.toList = .ok (a, rest))
    (hrest : skipSpace rest ≠ []) : decode reader text = .error (trailing text rest) := by
  have hends : (skipSpace rest).isEmpty = false := by simpa using hrest
  rw [decode, h]
  simp only [bind, Except.bind, hends, Bool.false_eq_true, if_false]
  rfl

end Json

namespace Schedule
open Json

/-- More than space stands behind the document. -/
structure GoesOnBehind (document : Document) (rest : List Char) (text : String) : Prop where
  reads : Document.record.read maxLevels text.toList = .ok (document, rest)
  goesOn : skipSpace rest ≠ []

/-- A defect of a document as `decode` names it, at no place of the text. -/
def misfitOf (e : Document.Defect) : Json.Error := ⟨.misfit (.refused e.message), none⟩

variable {text : String} {document : Document} {rest : List Char}

theorem parse_of_document (h : Json.decode Document.record.read text = .ok document) :
    parse text = document.toSchedule.mapError .document := by
  rw [parse, h]
  rfl

theorem parse_of_fault {e : Json.Error} (h : Json.decode Document.record.read text = .error e) :
    parse text = .error (.json e) := by
  rw [parse, h]
  rfl

theorem read_of_refused {r : Refusal}
    (h : Document.record.read maxLevels text.toList = .error r) :
    read maxLevels text.toList = .error r := by
  rw [read, h]
  rfl

theorem read_of_schedule {s : Schedule}
    (h : Document.record.read maxLevels text.toList = .ok (document, rest))
    (hs : document.toSchedule = .ok s) : read maxLevels text.toList = .ok (s, rest) := by
  rw [read, h]
  simp only [bind, Except.bind, hs]
  rfl

theorem decode_of_misfit {e : Document.Defect}
    (h : Document.record.read maxLevels text.toList = .ok (document, rest))
    (he : document.toSchedule = .error e) : decode text = .error (misfitOf e) := by
  have hread : read maxLevels text.toList =
      .error ⟨.misfit (.refused e.message), .behind rest⟩ := by
    rw [read, h]
    simp only [bind, Except.bind, he]
    rfl
  exact decode_of_refused hread

theorem parse_of_goesOnBehind (h : GoesOnBehind document rest text) :
    parse text = .error (.json (trailing text rest)) :=
  parse_of_fault (decode_of_trailing h.reads h.goesOn)

theorem decode_of_goesOnBehind (h : GoesOnBehind document rest text) :
    decode text = match document.toSchedule with
      | .ok _ => .error (trailing text rest)
      | .error e => .error (misfitOf e) := by
  cases hs : document.toSchedule with
  | ok s => exact decode_of_trailing (read_of_schedule h.reads hs) h.goesOn
  | error e => exact decode_of_misfit h.reads hs

/-- What the two ways give for one text. -/
inductive BothGive (text : String) : Except LoadError Schedule → Except Json.Error Schedule → Prop
  | schedule (s : Schedule) : BothGive text (.ok s) (.ok s)
  | defect (e : Document.Defect) : BothGive text (.error (.document e)) (.error (misfitOf e))
  | fault (e : Json.Error) : BothGive text (.error (.json e)) (.error e)
  | twoFaults (document : Document) (rest : List Char) (e : Document.Defect)
      (hrest : GoesOnBehind document rest text) (he : document.toSchedule = .error e) :
      BothGive text (.error (.json (trailing text rest))) (.error (misfitOf e))

theorem bothGive (text : String) : BothGive text (parse text) (decode text) := by
  cases h : Document.record.read maxLevels text.toList with
  | error r =>
    rw [parse_of_fault (decode_of_refused h), decode, decode_of_refused (read_of_refused h)]
    exact .fault (r.toError text.toList)
  | ok read =>
    obtain ⟨document, rest⟩ := read
    by_cases hrest : skipSpace rest = []
    · rw [parse_of_document (decode_of_whole h hrest)]
      cases hs : document.toSchedule with
      | ok s =>
        rw [decode, decode_of_whole (read_of_schedule h hs) hrest]
        exact .schedule s
      | error e =>
        rw [decode_of_misfit h hs]
        exact .defect e
    · have hgoes : GoesOnBehind document rest text := ⟨h, hrest⟩
      rw [parse_of_goesOnBehind hgoes, decode_of_goesOnBehind hgoes]
      cases hs : document.toSchedule with
      | ok s => exact .fault (trailing text rest)
      | error e => exact .twoFaults document rest e hgoes hs

theorem parse_eq_ok_iff_decode {s : Schedule} : parse text = .ok s ↔ decode text = .ok s := by
  have h := bothGive text
  generalize parse text = p, decode text = d at h ⊢
  cases h with
  | schedule t => rw [Except.ok.injEq, Except.ok.injEq]
  | defect e => exact ⟨nofun, nofun⟩
  | fault e => exact ⟨nofun, nofun⟩
  | twoFaults document rest e hrest he => exact ⟨nofun, nofun⟩

/-- A defect of the document is a misfit with the same message. -/
theorem decode_of_defect {e : Document.Defect} (h : parse text = .error (.document e)) :
    decode text = .error (misfitOf e) := by
  have hboth := bothGive text
  rw [h] at hboth
  generalize decode text = d at hboth ⊢
  cases hboth with
  | defect => rfl

theorem message_misfitOf (e : Document.Defect) :
    (misfitOf e).message = (LoadError.document e).message := String.append_empty

theorem decode_of_fault {e : Json.Error} (h : parse text = .error (.json e))
    (hends : ∀ document rest, ¬ GoesOnBehind document rest text) : decode text = .error e := by
  have hboth := bothGive text
  rw [h] at hboth
  generalize decode text = d at hboth ⊢
  cases hboth with
  | fault => rfl
  | twoFaults document rest e hrest he => exact absurd hrest (hends document rest)

/-- Both ways give the same schedules. A defect of the document is a misfit with the same text for
`decode`, and a fault of the text is the same fault at the same place. Where the text goes on behind
a document, `parse` has only that to say, and `decode` says it unless the document is no
schedule. -/
theorem both_ways_agree (text : String) :
    (∀ s, parse text = .ok s ↔ decode text = .ok s) ∧
    (∀ e, parse text = .error (.document e) → ∃ error reason, decode text = .error error ∧
      error.cause = .misfit reason ∧ error.message = (LoadError.document e).message) ∧
    (∀ e, parse text = .error (.json e) →
      (∀ document rest, ¬ GoesOnBehind document rest text) → decode text = .error e) ∧
    ∀ document rest, GoesOnBehind document rest text →
      parse text = .error (.json (trailing text rest)) ∧
      decode text = match document.toSchedule with
        | .ok _ => .error (trailing text rest)
        | .error e => .error (misfitOf e) :=
  ⟨fun _ => parse_eq_ok_iff_decode,
    fun e h => ⟨misfitOf e, .refused e.message, decode_of_defect h, rfl, message_misfitOf e⟩,
    fun _ h hends => decode_of_fault h hends,
    fun _ _ h => ⟨parse_of_goesOnBehind h, decode_of_goesOnBehind h⟩⟩

theorem goesOnBehind_of_takes {value : List Char}
    (h : Takes (Document.record.read maxLevels) value document) (htext : text.toList = value ++ rest)
    (hd : Delimited rest) (hrest : skipSpace rest ≠ []) : GoesOnBehind document rest text := by
  refine ⟨?_, hrest⟩
  rw [htext]
  exact h.reads [] rest rfl hd

def withoutEngine : Document := {chainId := some (ChainId.ofWord 1).toJson}

theorem takes_withoutEngine :
    Takes (Document.record.read maxLevels) (write none withoutEngine.toJson) withoutEngine :=
  Document.takes_read withoutEngine 124 none fun layout =>
    ChainId.takes_readOption (some (ChainId.ofWord 1)) 126 layout

/-- Without an engine the document is refused both ways. With a bracket behind it each way names
another fault. -/
theorem two_faults_named_apart :
    (∃ error reason, decode withoutEngine.toJson.compact = .error error ∧
      error.cause = .misfit reason ∧
      error.message = (LoadError.document (.engines 0)).message) ∧
    parse (withoutEngine.toJson.compact ++ "]") =
      .error (.json ⟨.malformed .trailingCharacters, some ⟨1, 14⟩⟩) ∧
    decode (withoutEngine.toJson.compact ++ "]") =
      .error ⟨.misfit (.refused (Document.Defect.engines 0).message), none⟩ := by
  have hparse : parse withoutEngine.toJson.compact = .error (.document (.engines 0)) := by
    rw [parse, Json.compact, decode_of_takes takes_withoutEngine]
    rfl
  have htext : (withoutEngine.toJson.compact ++ "]").toList =
      write none withoutEngine.toJson ++ [']'] := by
    rw [String.toList_append, Json.compact, String.toList_ofList]
    rfl
  have hgoes : GoesOnBehind withoutEngine [']'] (withoutEngine.toJson.compact ++ "]") :=
    goesOnBehind_of_takes takes_withoutEngine htext (delimited_cons (by decide) []) (by decide)
  have htrailing : trailing (withoutEngine.toJson.compact ++ "]") [']'] =
      ⟨.malformed .trailingCharacters, some ⟨1, 14⟩⟩ := by
    rw [trailing, Refusal.toError, htext]
    decide +kernel
  refine ⟨(both_ways_agree _).2.1 _ hparse, ?_⟩
  rw [← htrailing]
  exact (both_ways_agree _).2.2.2 _ _ hgoes

end Schedule
end HardFork
