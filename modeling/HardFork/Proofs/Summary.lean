import HardFork.Network
import HardFork.Proofs.Records
import HardFork.Service

/-! # What the summary of a schedule says

The summary is made of values, each with a label behind it. No value has a blank or a comma in it,
and each label begins with one, so where a value ends can be told from the text and equal summaries
have equal values. Two forks, the hash of EIP-150 and the parameters of a Clique engine have no
place in it. -/
namespace HardFork

def numberText : Option Nat → List Char
  | none => ['n', 'i', 'l']
  | some n => Decimal.digits n

theorem numberText_inj {m n : Option Nat} (h : numberText m = numberText n) : m = n := by
  cases m with
  | none =>
    cases n with
    | none => rfl
    | some n => exact absurd (congrArg List.head? h).symm (Decimal.head?_digits_ne (by decide) n)
  | some m =>
    cases n with
    | none => exact absurd (congrArg List.head? h) (Decimal.head?_digits_ne (by decide) m)
    | some n =>
      have hvalue := congrArg Decimal.value h
      simp only [numberText, Decimal.value_digits] at hvalue
      rw [hvalue]

namespace Threshold

theorem toList_toString (t : Threshold) :
    (toString t).toList = numberText (t.block?.map UInt64.toNat) := by
  cases t with
  | unscheduled => rfl
  | scheduled block => exact Nat.toList_repr

theorem ofOption_block? (t : Threshold) : ofOption t.block? = t := by cases t <;> rfl

theorem toString_eq_iff {t u : Threshold} : toString t = toString u ↔ t = u := by
  constructor
  · intro h
    have hblock : t.block?.map UInt64.toNat = u.block?.map UInt64.toNat :=
      numberText_inj (by rw [← toList_toString, ← toList_toString, h])
    rw [Option.map_inj_right fun _ _ => UInt64.toNat_inj.mp] at hblock
    rw [← t.ofOption_block?, ← u.ofOption_block?, hblock]
  · rintro rfl
    rfl

end Threshold

namespace Schedule

variable {s t : Schedule}

theorem toList_chainIdText (s : Schedule) :
    s.chainIdText.toList = numberText (s.chainId.map ChainId.val) := by
  unfold chainIdText
  cases s.chainId with
  | none => rfl
  | some id => exact String.toList_ofList

theorem chainIdText_eq_iff : s.chainIdText = t.chainIdText ↔ s.chainId = t.chainId := by
  constructor
  · intro h
    have hval : s.chainId.map ChainId.val = t.chainId.map ChainId.val :=
      numberText_inj (by rw [← toList_chainIdText, ← toList_chainIdText, h])
    refine (Option.map_inj_right fun a b hab => ?_).mp hval
    cases a
    cases b
    cases hab
    rfl
  · intro h
    rw [chainIdText, chainIdText, h]

end Schedule

namespace Engine

/-- Engines that are shown alike: a Clique engine is shown without its parameters. -/
inductive ShownAlike : Engine → Engine → Prop
  | same (e) : ShownAlike e e
  | clique (c d) : ShownAlike (.clique c) (.clique d)

theorem toString_posa (p : Posa) : toString (posa p) = "posa(" ++ p.toJson.compact ++ ")" := rfl

theorem toString_posa_inj {p q : Posa} (h : toString (posa p) = toString (posa q)) : p = q := by
  rw [toString_posa, toString_posa, String.append_left_inj, String.append_right_inj] at h
  have hp := p.decode_compact
  rw [h, q.decode_compact] at hp
  exact (Except.ok.inj hp).symm

def initial : Engine → Char
  | ethash => 'e'
  | clique _ => 'c'
  | posa _ => 'p'

theorem head?_toString (e : Engine) : (toString e).toList.head? = some e.initial := by
  cases e with
  | ethash => rfl
  | clique c => exact (rfl : "clique".toList.head? = some 'c')
  | posa p =>
    rw [toString_posa, String.append_assoc, String.toList_append]
    rfl

theorem toString_eq_iff {e e' : Engine} : toString e = toString e' ↔ ShownAlike e e' := by
  constructor
  · intro h
    have hinitial : some e.initial = some e'.initial := by
      rw [← head?_toString, ← head?_toString, h]
    cases e with
    | ethash =>
      cases e' with
      | ethash => exact .same _
      | clique d => simp [initial] at hinitial
      | posa q => simp [initial] at hinitial
    | clique c =>
      cases e' with
      | ethash => simp [initial] at hinitial
      | clique d => exact .clique c d
      | posa q => simp [initial] at hinitial
    | posa p =>
      cases e' with
      | ethash => simp [initial] at hinitial
      | clique d => simp [initial] at hinitial
      | posa q => exact toString_posa_inj h ▸ .same _
  · rintro (_ | _)
    · rfl
    · rfl

end Engine

namespace Summary

/-- What a value ends before. -/
def isBreak (c : Char) : Bool := c = ' ' || c = ','

inductive Item
  | chainId
  | threshold (f : Fork)
  | daoForkSupport
deriving DecidableEq

namespace Item

def text (s : Schedule) : Item → String
  | chainId => s.chainIdText
  | threshold f => toString (s.threshold f)
  | daoForkSupport => toString s.daoForkSupport

def Agree (s t : Schedule) : Item → Prop
  | chainId => s.chainId = t.chainId
  | threshold f => s.threshold f = t.threshold f
  | daoForkSupport => s.daoForkSupport = t.daoForkSupport

variable {s t : Schedule}

theorem text_eq_iff (i : Item) : i.text s = i.text t ↔ i.Agree s t := by
  cases i with
  | chainId => exact Schedule.chainIdText_eq_iff
  | threshold f => exact Threshold.toString_eq_iff
  | daoForkSupport =>
    have hall : ∀ a b : Bool, toString a = toString b ↔ a = b := by decide
    exact hall _ _

theorem unbroken_numberText (n : Option Nat) : (numberText n).all fun c => !isBreak c := by
  cases n with
  | none => decide
  | some n =>
    refine List.all_eq_true.mpr fun c hc => ?_
    have hdigit := Decimal.isDigit_of_mem_digits hc
    rw [Bool.not_eq_true', Bool.eq_false_iff]
    intro hbreak
    simp only [isBreak, Bool.or_eq_true, decide_eq_true_eq] at hbreak
    rcases hbreak with rfl | rfl
    · cases hdigit
    · cases hdigit

theorem unbroken_text (i : Item) (s : Schedule) : (i.text s).toList.all fun c => !isBreak c := by
  cases i with
  | chainId =>
    rw [text, Schedule.toList_chainIdText]
    exact unbroken_numberText _
  | threshold f =>
    rw [text, Threshold.toList_toString]
    exact unbroken_numberText _
  | daoForkSupport =>
    have hall : ∀ b : Bool, (toString b).toList.all fun c => !isBreak c := by decide
    exact hall s.daoForkSupport

end Item

/-- The items, each with the label behind it, in front of the rest of a text. -/
def line (s : Schedule) (rest : String) : List (Item × String) → String
  | [] => rest
  | (i, label) :: xs => i.text s ++ (label ++ line s rest xs)

def Breaks (label : String) : Prop := label.toList.head?.any isBreak

instance (label : String) : Decidable (Breaks label) :=
  inferInstanceAs (Decidable (_ = _))

variable {s t : Schedule} {rest rest' label : String} {xs : List (Item × String)}

/-- Up to its label, what follows begins with the value. -/
theorem takeWhile_text (hlabel : Breaks label) (i : Item) (s : Schedule) (rest : String) :
    (i.text s ++ (label ++ rest)).toList.takeWhile (fun c => !isBreak c) = (i.text s).toList := by
  have hunbroken := List.all_eq_true.mp (i.unbroken_text s)
  rw [String.toList_append, String.toList_append, List.takeWhile_append_of_pos hunbroken]
  unfold Breaks at hlabel
  cases hcs : label.toList with
  | nil => simp [hcs] at hlabel
  | cons c cs =>
    have hc : isBreak c := by simpa [hcs] using hlabel
    rw [List.cons_append, List.takeWhile_cons_of_neg (by simp [hc]), List.append_nil]

theorem text_append_inj (hlabel : Breaks label) {i : Item}
    (h : i.text s ++ (label ++ rest) = i.text t ++ (label ++ rest')) :
    i.Agree s t ∧ rest = rest' := by
  have htext : i.text s = i.text t := String.toList_inj.mp <| by
    rw [← takeWhile_text hlabel i s rest, h, takeWhile_text hlabel i t rest']
  rw [htext, String.append_right_inj, String.append_right_inj] at h
  exact ⟨i.text_eq_iff.mp htext, h⟩

/-- Texts are equal when they agree in their items and in the rest. -/
theorem line_eq_iff (hlabels : ∀ x ∈ xs, Breaks x.2) :
    line s rest xs = line t rest' xs ↔ (∀ x ∈ xs, x.1.Agree s t) ∧ rest = rest' := by
  induction xs with
  | nil => exact ⟨fun h => ⟨nofun, h⟩, And.right⟩
  | cons x xs ih =>
    obtain ⟨i, label⟩ := x
    obtain ⟨hlabel, hlabels⟩ := List.forall_mem_cons.mp hlabels
    rw [List.forall_mem_cons, line, line, and_assoc, ← ih hlabels]
    constructor
    · exact text_append_inj hlabel
    · rintro ⟨hi, hline⟩
      rw [i.text_eq_iff.mpr hi, hline]

def shown : List (Item × String) :=
  [(.chainId, " Homestead: "),
   (.threshold .homestead, " DAO: "),
   (.threshold .dao, " DAOSupport: "),
   (.daoForkSupport, " EIP150: "),
   (.threshold .eip150, " EIP155: "),
   (.threshold .eip155, " EIP158: "),
   (.threshold .eip158, " Byzantium: "),
   (.threshold .byzantium, " Constantinople: "),
   (.threshold .constantinople, " Petersburg: "),
   (.threshold .petersburg, " Istanbul: "),
   (.threshold .istanbul, ", Muir Glacier: "),
   (.threshold .muirGlacier, ", Berlin: "),
   (.threshold .berlin, ", cve_2021_39137Block:"),
   (.threshold .cve39137, ", Ishikari: "),
   (.threshold .ishikari, ", IshikariPatch: "),
   (.threshold .ishikariPatch1, ", YOLO v3: "),
   (.threshold .yoloV3, ", Engine: ")]

theorem breaks_of_mem_shown : ∀ x ∈ shown, Breaks x.2 := by decide

theorem toString_eq_line (s : Schedule) :
    s.toString = "\x7bChainID: " ++ line s (toString s.engine ++ "\x7d") shown := by
  unfold Schedule.toString
  simp only [shown, line, Item.text, String.append_assoc]

theorem toString_eq_iff :
    s.toString = t.toString ↔
      (∀ x ∈ shown, x.1.Agree s t) ∧ toString s.engine = toString t.engine := by
  rw [toString_eq_line, toString_eq_line, String.append_right_inj,
    line_eq_iff breaks_of_mem_shown, String.append_left_inj]

/-- The forks whose thresholds have no place in the summary. -/
def unsaid : List Fork := [.ewasm, .ishikariPatch2]

theorem threshold_mem_shown_iff (f : Fork) :
    Item.threshold f ∈ shown.map Prod.fst ↔ f ∉ unsaid := by
  cases f <;> decide

theorem agree_shown_iff :
    (∀ x ∈ shown, x.1.Agree s t) ↔
      s.chainId = t.chainId ∧ (∀ f ∉ unsaid, s.threshold f = t.threshold f) ∧
      s.daoForkSupport = t.daoForkSupport := by
  constructor
  · intro h
    refine ⟨h (.chainId, " Homestead: ") (by decide), fun f hf => ?_,
      h (.daoForkSupport, " EIP150: ") (by decide)⟩
    obtain ⟨x, hx, hfst⟩ := List.mem_map.mp ((threshold_mem_shown_iff f).mpr hf)
    have hagree := h x hx
    rwa [hfst] at hagree
  · rintro ⟨hid, hthreshold, hdao⟩ ⟨i, label⟩ hx
    cases i with
    | chainId => exact hid
    | threshold f =>
      exact hthreshold f ((threshold_mem_shown_iff f).mp (List.mem_map_of_mem (f := Prod.fst) hx))
    | daoForkSupport => exact hdao

end Summary

namespace Schedule

/-- Summaries are equal when the schedules agree in their chain ids, in the thresholds of all forks
but two, in the support of the DAO fork and in what is shown of their engines. -/
theorem toString_eq_iff_agree_but_unsaid (s t : Schedule) :
    s.toString = t.toString ↔
      s.chainId = t.chainId ∧
      (∀ f ∉ Summary.unsaid, s.threshold f = t.threshold f) ∧
      s.daoForkSupport = t.daoForkSupport ∧ s.engine.ShownAlike t.engine := by
  rw [Summary.toString_eq_iff, Summary.agree_shown_iff, Engine.toString_eq_iff, and_assoc,
    and_assoc]

/-- A threshold that has no place in the summary does not change it. -/
theorem toString_withFork {f : Fork} (hf : f ∈ Summary.unsaid) (s : Schedule) (block : UInt64) :
    (s.withFork f block).toString = s.toString := by
  have hagree : ∀ x ∈ Summary.shown, x.1.Agree (s.withFork f block) s := by
    refine Summary.agree_shown_iff.mpr
      ⟨chainId_set s f _, fun g hg => ?_, daoForkSupport_set s f _⟩
    have hne : g ≠ f := fun h => hg (h ▸ hf)
    rw [withFork, threshold_set, if_neg hne]
  exact Summary.toString_eq_iff.mpr ⟨hagree, congrArg toString (engine_set s f _)⟩

theorem line_activated_withFork {f : Fork} (hf : f ∈ Summary.unsaid) (s : Schedule)
    (block : UInt64) :
    (Service.Event.activated (s.withFork f block)).line = (Service.Event.activated s).line := by
  have htext : toString (s.withFork f block) = toString s := toString_withFork hf s block
  have hhash : (s.withFork f block).eip150HashSummary = s.eip150HashSummary := by
    rw [withFork, eip150HashSummary, eip150Hash_set, eip150HashSummary]
  rw [Service.Event.line, Service.Event.line, htext, hhash]

/-- On the test network the second Ishikari patch can be put off and EWASM be scheduled, and neither
the summary nor the line of the log tells. -/
theorem patch_and_ewasm_change_unseen :
    let putOff := Network.testnet.withFork .ishikariPatch2 12162887
    let ewasm := Network.testnet.withFork .ewasm 12162886
    Service.validate default putOff = .ok () ∧
    putOff.toString = Network.testnet.toString ∧
    (Service.Event.activated putOff).line = (Service.Event.activated Network.testnet).line ∧
    putOff.threshold .ishikariPatch2 ≠ Network.testnet.threshold .ishikariPatch2 ∧
    Service.validate default ewasm = .ok () ∧
    ewasm.toString = Network.testnet.toString ∧
    (Service.Event.activated ewasm).line = (Service.Event.activated Network.testnet).line ∧
    ewasm.threshold .ewasm ≠ Network.testnet.threshold .ewasm := by
  have hpatch : Fork.ishikariPatch2 ∈ Summary.unsaid := by decide
  have hewasm : Fork.ewasm ∈ Summary.unsaid := by decide
  intro putOff ewasm
  exact ⟨rfl, toString_withFork hpatch _ _, line_activated_withFork hpatch _ _, by decide,
    rfl, toString_withFork hewasm _ _, line_activated_withFork hewasm _ _, by decide⟩

end Schedule
end HardFork
