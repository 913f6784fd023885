import HardFork.Proofs.ChainId.Numeral
import HardFork.Proofs.ChainId.Place

/-! # Spellings of a chain id

A document may give its chain id as a number or as text, in decimal or in hexadecimal digits. The
value is kept as it is written until the document is made a schedule, so all spellings of a number
are the same chain id, and none is one when the number takes more than 256 bits. -/
namespace HardFork
open Json

namespace Json

theorem hexRank?_toLower (c : Char) : hexRank? c.toLower = hexRank? c := by
  rcases Nat.lt_or_ge c.toNat 128 with hc | hc
  · have hall : ∀ n < 128, hexRank? (Char.ofNat n).toLower = hexRank? (Char.ofNat n) := by decide
    simpa using hall c.toNat hc
  · have hsame : c.toLower = c := by
      refine dif_neg fun h => ?_
      have hz : c.toNat ≤ 90 := UInt32.le_iff_toNat_le.mp h.2
      omega
    rw [hsame]

theorem hexRanks?_map_toLower (ds : List Char) : hexRanks? (ds.map Char.toLower) = hexRanks? ds := by
  simp only [hexRanks?, List.foldl_map, hexRank?_toLower]

theorem hexRanks?_concat (ds : List Char) (c : Char) :
    hexRanks? (ds ++ [c]) = do return 16*(← hexRanks? ds)+(← hexRank? c) := by
  rw [hexRanks?, List.foldl_append]
  rfl

theorem hexRank?_digitChar {d : Nat} (h : d < 16) : hexRank? d.digitChar = some d := by
  have hall : ∀ d < 16, hexRank? d.digitChar = some d := by decide
  exact hall d h

theorem hexRanks?_toDigits (n : Nat) : hexRanks? (Nat.toDigits 16 n) = some n := by
  induction n using Nat.strongRecOn with
  | ind n ih =>
    rw [Nat.toDigits_eq_if (by decide)]
    split
    · rename_i hlt
      show (do return 16*0+(← hexRank? n.digitChar)) = some n
      rw [hexRank?_digitChar hlt]
      simp
    · rename_i hge
      rw [hexRanks?_concat, ih (n/16) (by omega), hexRank?_digitChar (Nat.mod_lt n (by decide))]
      show some (16*(n/16)+n%16) = some n
      rw [Nat.div_add_mod]

end Json

theorem Decimal.value_zeros_append (zeros : Nat) (ds : List Char) :
    value (List.replicate zeros '0' ++ ds) = value ds := by
  rw [value, Nat.ofDigitChars_append, Nat.ofDigitChars_replicate_zero, Nat.mul_zero, value]

namespace Text

theorem not_isBlank_of_hexRank? {c : Char} (h : (hexRank? c).isSome) : isBlank c = false := by
  obtain ⟨r, hr⟩ := Option.isSome_iff_exists.mp h
  have hall : ∀ n < 128, (hexRank? (Char.ofNat n)).isSome → isBlank (Char.ofNat n) = false := by
    decide
  simpa [hr] using hall c.toNat (Hex.toNat_lt_of_hexRank? hr)

/-- White space around a text that has none is dropped, and nothing else. -/
theorem trim_blank_append {before cs after : List Char} (hb : before.all isBlank) (hne : cs ≠ [])
    (hcs : ∀ c ∈ cs, isBlank c = false) (ha : after.all isBlank) :
    trim (before ++ (cs ++ after)) = cs := by
  have hfront : ∀ {blanks ds rest : List Char}, blanks.all isBlank → ds ≠ [] →
      (∀ c ∈ ds, isBlank c = false) →
      (blanks ++ (ds ++ rest)).dropWhile isBlank = ds ++ rest := by
    intro blanks ds rest hblanks hds hall
    obtain ⟨d, ds, rfl⟩ := List.exists_cons_of_ne_nil hds
    rw [List.dropWhile_append_of_pos (List.all_eq_true.mp hblanks), List.cons_append,
      List.dropWhile_cons_of_neg (by simp [hall d List.mem_cons_self])]
  have hafter : after.reverse.all isBlank := by rwa [List.all_reverse]
  have hrev : ∀ c ∈ cs.reverse, isBlank c = false := fun c hc => hcs c (List.mem_reverse.mp hc)
  have hback : (after.reverse ++ (cs.reverse ++ [])).dropWhile isBlank = cs.reverse ++ [] :=
    hfront hafter (List.reverse_eq_nil_iff.not.mpr hne) hrev
  rw [List.append_nil] at hback
  rw [trim, hfront hb hne hcs, trimEnd, List.reverse_append, hback, List.reverse_reverse]

end Text

namespace ChainId

/-- The decimal digits of a number behind any zeros, or its hexadecimal digits behind a mark, each
of them a small or a capital letter. -/
inductive Spelling (n : Nat) : List Char → Prop
  | decimal (zeros : Nat) : Spelling n (List.replicate zeros '0' ++ Decimal.digits n)
  | hexadecimal {mark ds} (hm : IsMark mark) (h : ds.map Char.toLower = Nat.toDigits 16 n) :
      Spelling n ('0' :: mark :: ds)

/-- The chain id of a number, if it takes no more than 256 bits. -/
def ofNat? (n : Nat) : Option ChainId := if h : n < limit then some ⟨n, h⟩ else none

variable {n : Nat} {cs before after : List Char}

theorem isDigits_zeros_append (zeros n : Nat) :
    IsDigits (List.replicate zeros '0' ++ Decimal.digits n) := by
  refine ⟨by simp [Decimal.digits_ne_nil], fun c hc => ?_⟩
  rcases List.mem_append.mp hc with hc | hc
  · rw [List.eq_of_mem_replicate hc]
    decide
  · exact Decimal.isDigit_of_mem_digits hc

theorem IsNumeral.not_isBlank (h : IsNumeral cs n) : ∀ c ∈ cs, Text.isBlank c = false := by
  cases h with
  | decimal hds => exact fun c hc => Text.not_isBlank_of_isDigit (hds.2 c hc)
  | hexadecimal hm _ hds =>
    have hmark := fun c hc => Text.not_isBlank_of_hexRank? (Hex.isSome_hexRank?_of_mem hds c hc)
    rcases hm with rfl | rfl
    · exact List.forall_mem_cons.mpr ⟨rfl, List.forall_mem_cons.mpr ⟨rfl, hmark⟩⟩
    · exact List.forall_mem_cons.mpr ⟨rfl, List.forall_mem_cons.mpr ⟨rfl, hmark⟩⟩

namespace Spelling

theorem isNumeral (h : Spelling n cs) : IsNumeral cs n := by
  cases h with
  | decimal zeros =>
    have hvalue := Decimal.value_zeros_append zeros (Decimal.digits n)
    rw [Decimal.value_digits] at hvalue
    have hnumeral := IsNumeral.decimal (isDigits_zeros_append zeros n)
    rwa [hvalue] at hnumeral
  | hexadecimal hm h =>
    refine .hexadecimal hm ?_ ?_
    · rintro rfl
      exact Nat.toDigits_ne_nil h.symm
    · rw [← hexRanks?_map_toLower, h, hexRanks?_toDigits]

/-- A number of at most 256 bits has at most 64 hexadecimal digits. -/
theorem not_overlong (h : Spelling n cs) (hn : n < limit) : ¬ Overlong cs := by
  rintro ⟨mark, ds, hm, hcs, hlong⟩
  cases h with
  | decimal zeros => exact not_isDigits_mark hm ds (hcs ▸ isDigits_zeros_append zeros n)
  | hexadecimal _ h =>
    cases hcs
    have hlength : (Nat.toDigits 16 n).length ≤ 64 :=
      (Nat.length_toDigits_le_iff (by decide) (by decide)).mpr hn
    rw [← h, List.length_map] at hlength
    omega

theorem toOption_readNumeral (h : Spelling n cs) : (readNumeral cs).toOption = ofNat? n := by
  unfold ofNat?
  split
  · rename_i hn
    have hread : readNumeral cs = .ok ⟨n, hn⟩ :=
      readNumeral_eq_ok_iff.mpr (.inl ⟨h.isNumeral, h.not_overlong hn⟩)
    rw [hread]
    rfl
  · rename_i hn
    refine Option.eq_none_iff_forall_ne_some.mpr fun id hid => hn ?_
    have hread := readNumeral_eq_ok_iff.mp (toOption_eq_some_iff.mp hid)
    have hval : id.val = n := h.isNumeral.unique (hread.imp_left And.left)
    exact hval ▸ id.val_lt

/-- A text of a number is read as the number, whatever white space stands around it. -/
theorem toOption_parse (h : Spelling n cs) (hb : before.all Text.isBlank)
    (ha : after.all Text.isBlank) {text : String} (ht : text.toList = before ++ (cs ++ after)) :
    (parse text).toOption = ofNat? n := by
  have hne : cs ≠ [] := by
    rintro rfl
    obtain ⟨hne, -⟩ | _ := h.isNumeral
    exact hne rfl
  have htrim := Text.trim_blank_append hb hne h.isNumeral.not_isBlank ha
  rw [← h.toOption_readNumeral, parse, ht, htrim]
  cases readNumeral cs <;> rfl

end Spelling

/-- The number itself, or a string of one of its texts with white space around it. -/
inductive Spells (n : Nat) : Tree → Prop
  | number : Spells n (.number ⟨false, Decimal.digits n, [], none⟩)
  | string {s : Literal} {before cs after} (hb : before.all Text.isBlank) (h : Spelling n cs)
      (ha : after.all Text.isBlank) (hs : s.decode? = some (before ++ (cs ++ after))) :
      Spells n (.string s)

theorem Spells.exists_writes {value : Tree} (h : Spells n value) : ∃ text, Writes value text := by
  cases h with
  | number => exact ⟨_, .number (writesNumber_digits n)⟩
  | string => exact ⟨_, .string _⟩

/-- The value is kept as written, and the chain id is made of it. -/
theorem Spells.exists_answers {value : Tree} (h : Spells n value) (levels : Nat) :
    ∃ written, Answers (readOption (readValue levels)) value (some (some written)) ∧
      (ofJson (some written)).toOption = (ofNat? n).map some := by
  obtain ⟨list, object, hread⟩ := readValue_eq_readAny levels
  rw [hread]
  cases h with
  | number =>
    refine ⟨_, (answers_readAny_number list object _).option fun h => (by cases h), ?_⟩
    have hspelling : Spelling n (List.replicate 0 '0' ++ Decimal.digits n) := .decimal 0
    have htext : (String.ofList (Decimal.digits n)).toList =
        [] ++ ((List.replicate 0 '0' ++ Decimal.digits n) ++ []) := by simp
    have hparse := hspelling.toOption_parse rfl rfl htext
    rw [text_digits, ofJson, toOption_bind, hparse]
    cases ofNat? n <;> rfl
  | @string s before cs after hb hspelling ha hs =>
    have hanswers := (answers_readAny_string list object s).option fun h => (by cases h)
    rw [Literal.name?, hs] at hanswers
    refine ⟨_, hanswers, ?_⟩
    have htext : (String.ofList (before ++ (cs ++ after))).toList = before ++ (cs ++ after) :=
      String.toList_ofList
    have hparse := hspelling.toOption_parse hb ha htext
    rw [ofJson, toOption_bind, hparse]
    cases ofNat? n <;> rfl

end ChainId

namespace Document

theorem complete_set {d : Draft} {document : Document} (h : record.complete d = .ok document)
    (v : Slot.chainId.Value) :
    record.complete (Slot.chainId.set d v) = .ok {document with chainId := v} := by
  obtain ⟨c, threshold, dao, hash, ethash, clique, posa⟩ := d
  cases c with
  | none => cases h
  | some c =>
    cases h
    rfl

/-- The engines are looked at first, and then the chain id. -/
theorem toSchedule_of_chainId {document : Document} {s : Schedule}
    (h : document.toSchedule = .ok s) (written : Option Json) :
    ({document with chainId := written} : Document).toSchedule =
      ((ChainId.ofJson written).mapError .chainId).map fun id? => {s with chainId := id?} := by
  have hengines : ({document with chainId := written} : Document).engines = document.engines := rfl
  unfold toSchedule at h ⊢
  rw [hengines]
  split at h
  · cases hid : ChainId.ofJson document.chainId with
    | error e =>
      rw [hid] at h
      cases h
    | ok id? =>
      rw [hid] at h
      cases h
      cases ChainId.ofJson written <;> rfl
  · cases h

end Document

namespace Schedule
open Document

theorem parse_of_decode {text : String} {document : Document}
    (h : (Json.decode record.read text).toOption = some document) :
    parse text = document.toSchedule.mapError .document := by
  rw [parse, toOption_eq_some_iff.mp h]
  rfl

/-- In any document that is accepted, any spelling of a number in the place of the chain id gives
this number as the chain id, and changes nothing else, when the number takes no more than 256 bits.
When it takes more the document is refused for its chain id. -/
theorem chainId_spellings_agree {context : Tree → Tree} {value₀ value : Tree}
    {text₀ text : String} {s : Schedule} {n : Nat} (hplace : Place context)
    (htext₀ : (context value₀).WrittenAs text₀) (hs : parse text₀ = .ok s)
    (hvalue : ChainId.Spells n value) (htext : (context value).WrittenAs text) :
    (∀ h : n < ChainId.limit, parse text = .ok {s with chainId := some ⟨n, h⟩}) ∧
    (ChainId.limit ≤ n → ∃ e, parse text = .error (.document (.chainId e))) := by
  obtain ⟨answer, hanswer⟩ := exists_answers
  obtain ⟨document, hdocument, hschedule⟩ :=
    Option.bind_eq_some_iff.mp ((toOption_parse text₀).symm.trans (toOption_eq_some_iff.mpr hs))
  rw [(hplace.answers hanswer value₀).decode htext₀] at hdocument
  obtain ⟨draft, hdraft, hcomplete⟩ := Option.bind_eq_some_iff.mp hdocument
  -- the value is kept as it is written
  obtain ⟨written, hwritten, hid⟩ := hvalue.exists_answers 126
  obtain ⟨body, hbody⟩ := hvalue.exists_writes
  have hv : answer .chainId value = some (some written) :=
    (hanswer .chainId value).unique hwritten hbody
  have hcomplete' := complete_set (toOption_eq_some_iff.mp hcomplete) (some written)
  have hdecode : (Json.decode record.read text).toOption =
      some {document with chainId := some written} := by
    rw [(hplace.answers hanswer value).decode htext, hplace.draft?_eq hv hdraft, Option.bind_some,
      hcomplete']
    rfl
  have hparse := parse_of_decode hdecode
  rw [toSchedule_of_chainId (toOption_eq_some_iff.mp hschedule)] at hparse
  rw [hparse]
  unfold ChainId.ofNat? at hid
  constructor
  · intro h
    rw [dif_pos h] at hid
    rw [toOption_eq_some_iff.mp hid]
    rfl
  · intro h
    rw [dif_neg (Nat.not_lt_of_le h)] at hid
    cases hread : ChainId.ofJson (some written) with
    | ok id? =>
      rw [hread] at hid
      cases hid
    | error e => exact ⟨e, rfl⟩

/-- The text of a network with this value as its chain id. -/
def textWith (value : List Char) : String :=
  String.ofList ('\x7b' :: (chainIdMember.1.text ++ ':' :: (value ++
    ',' :: (engineMember.1.text ++ [':', '\x7b', '\x7d', '\x7d']))))

theorem writtenAs_textWith {value : Tree} {text : List Char} (h : Writes value text) :
    (Tree.object [(chainIdMember.1, value), engineMember]).WrittenAs (textWith text) := by
  have hfirst : Opens true [] := .first rfl
  have hcomma : Opens false ([] ++ ',' :: []) := .comma rfl rfl
  have hcolon : IsColon ([] ++ ':' :: []) := .mk rfl rfl
  have hclose : WritesMembers false [] ([] ++ ['\x7d']) := .close rfl
  have hengine : WritesMembers false [engineMember] _ := .member hcomma hcolon writes_empty hclose
  have hmembers : WritesMembers true [(chainIdMember.1, value), engineMember] _ :=
    .member hfirst hcolon h hengine
  refine ⟨[], _, [], rfl, rfl, .object hmembers, ?_⟩
  simp [textWith, engineMember]

/-- Ten in a capital letter is the chain id ten, and the first number beyond 256 bits is none. -/
theorem ten_accepted_and_limit_refused :
    parse (textWith "\"0XA\"".toList) = .ok {chainId := some (.ofWord 10)} ∧
    ∃ e, parse (textWith (Decimal.digits ChainId.limit)) = .error (.document (.chainId e)) := by
  have hplace : Place fun t => .object ([] ++ (chainIdMember.1, t) :: [engineMember]) :=
    .member [] [engineMember] rfl
  have hplain : parse plainText = .ok {chainId := some (.ofWord 1)} :=
    parse_of_takes (takes_ofSchedule {chainId := some (.ofWord 1)} none)
  have hspelling : ChainId.Spelling 10 ['0', 'X', 'A'] := .hexadecimal (.inr rfl) rfl
  have hdecode : Literal.decode? (verbatim ['0', 'X', 'A'] rfl) =
      some ([] ++ (['0', 'X', 'A'] ++ [])) := rfl
  have hten : ChainId.Spells 10 (.string (verbatim ['0', 'X', 'A'] rfl)) :=
    .string rfl hspelling rfl hdecode
  obtain ⟨haccepted, -⟩ := chainId_spellings_agree hplace writtenAs_plainText hplain hten
    (writtenAs_textWith (.string _))
  obtain ⟨-, hrefused⟩ := chainId_spellings_agree hplace writtenAs_plainText hplain
    (.number (n := ChainId.limit)) (writtenAs_textWith (.number (writesNumber_digits _)))
  exact ⟨haccepted (by decide), hrefused (Nat.le_refl _)⟩

end Schedule
end HardFork
