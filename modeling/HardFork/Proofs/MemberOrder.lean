import HardFork.Proofs.Members
import HardFork.Proofs.Slots
import Mathlib.Data.List.Nodup

/-! # The order of the members

Each member of a known name fills the slot of that name, and a slot is filled once. So a document is
what its members say, whatever their order, and members of other names say nothing. -/
namespace HardFork
open Json
namespace Document

/-- A slot with its value. -/
abbrev Filling := (slot : Slot) × slot.Value

variable (answer : (slot : Slot) → Tree → Option slot.Value)

/-- The filling of a member, if there is a slot of its name. A member whose key spells no name, or
whose value is not one of its slot, is refused. -/
def filling? (m : Literal × Tree) : Option (Option Filling) :=
  m.1.name?.bind fun name =>
    match Slot.ofName? name with
    | none => some none
    | some slot => (answer slot m.2).map fun v => some ⟨slot, v⟩

def fillings (ms : List (Literal × Tree)) : List Filling :=
  ms.filterMap fun m => (filling? answer m).join

/-- A member fills its slot in a draft unless that is filled. -/
def step (d : Draft) (name : String) (t : Tree) : Option Draft :=
  match Slot.ofName? name with
  | none => some d
  | some slot => if (d.view slot).isSome then none else (answer slot t).map (slot.set d)

variable {answer} {m : Literal × Tree} {ms ms' : List (Literal × Tree)} {d d' : Draft}

theorem answersBehind_step {levels : Nat}
    (h : ∀ (slot : Slot) t, Answers (slot.read levels) t (answer slot t)) (d : Draft)
    (name : String) (t : Tree) :
    AnswersBehind (record.readMember levels d name) t (step answer d name t) := by
  have hfind := Slot.find?_fields name
  unfold step
  cases hslot : Slot.ofName? name with
  | none =>
    rw [hslot] at hfind
    exact Record.answersBehind_of_none hfind d t
  | some slot =>
    rw [hslot, Option.map_some, Slot.field_eq] at hfind
    cases hgiven : (d.view slot).isSome with
    | true =>
      simp only [hgiven, if_true]
      exact Record.answersBehind_of_isGiven hfind hgiven t
    | false =>
      simp only [hgiven, Bool.false_eq_true, if_false]
      exact Record.answersBehind_of_some hfind hgiven ((h slot t).field d)

/-- What a draft becomes with a filling. -/
def Draft.fill (d : Draft) : Option Filling → Option Draft
  | none => some d
  | some p => if (d.view p.1).isSome then none else some (p.1.set d p.2)

theorem memberStep_eq (d : Draft) (m : Literal × Tree) :
    memberStep (step answer) d m = (filling? answer m).bind d.fill := by
  unfold memberStep filling? step
  cases m.1.name? with
  | none => rfl
  | some name =>
    simp only [Option.bind_some]
    cases Slot.ofName? name with
    | none => rfl
    | some slot =>
      dsimp only
      cases answer slot m.2 with
      | none => simp
      | some v => simp [Draft.fill]

/-- The members are understood, fill slots that are not filled, each at most once, and leave the
other slots as they are. -/
structure Fills (answer : (slot : Slot) → Tree → Option slot.Value) (d : Draft)
    (ms : List (Literal × Tree)) (d' : Draft) : Prop where
  understood : ∀ m ∈ ms, (filling? answer m).isSome
  nodup : ((fillings answer ms).map Sigma.fst).Nodup
  fresh : ∀ p ∈ fillings answer ms, d.view p.1 = none
  view : ∀ slot v, d'.view slot = some v ↔ d.view slot = some v ∨ ⟨slot, v⟩ ∈ fillings answer ms

theorem fills_cons_of_none (h : filling? answer m = some none) :
    Fills answer d (m :: ms) d' ↔ Fills answer d ms d' := by
  have hfillings : fillings answer (m :: ms) = fillings answer ms := by
    rw [fillings, List.filterMap_cons_none (by rw [h]; rfl), fillings]
  have hm : (filling? answer m).isSome := by
    rw [h]
    rfl
  constructor
  · intro hd
    have hms := (List.forall_mem_cons.mp hd.understood).2
    exact ⟨hms, hfillings ▸ hd.nodup, hfillings ▸ hd.fresh, hfillings ▸ hd.view⟩
  · intro hd
    have hms : ∀ n ∈ m :: ms, (filling? answer n).isSome :=
      List.forall_mem_cons.mpr ⟨hm, hd.understood⟩
    exact ⟨hms, hfillings ▸ hd.nodup, hfillings ▸ hd.fresh, hfillings ▸ hd.view⟩

theorem view_set_eq_none_iff {slot other : Slot} {v : slot.Value} :
    (slot.set d v).view other = none ↔ other ≠ slot ∧ d.view other = none := by
  rw [Draft.view_set]
  by_cases h : other = slot
  · subst h
    simp
  · rw [Function.update_of_ne h]
    simp [h]

theorem view_set_eq_some_iff {slot other : Slot} {v : slot.Value} {w : other.Value}
    (hd : d.view slot = none) :
    (slot.set d v).view other = some w ↔
      d.view other = some w ∨ (⟨other, w⟩ : Filling) = ⟨slot, v⟩ := by
  rw [Draft.view_set]
  by_cases h : other = slot
  · subst h
    rw [Function.update_self]
    simp [hd, eq_comm]
  · rw [Function.update_of_ne h]
    simp [h]

/-- A member that fills a slot comes first: no other one may fill it. -/
theorem fills_cons_of_some {p : Filling} (h : filling? answer m = some (some p))
    (hp : d.view p.1 = none) :
    Fills answer d (m :: ms) d' ↔ Fills answer (p.1.set d p.2) ms d' := by
  have hfillings : fillings answer (m :: ms) = p :: fillings answer ms := by
    rw [fillings, List.filterMap_cons_some (by rw [h]; rfl), fillings]
  have hm : (filling? answer m).isSome := by
    rw [h]
    rfl
  have hview : ∀ slot v, (p.1.set d p.2).view slot = some v ∨ ⟨slot, v⟩ ∈ fillings answer ms ↔
      d.view slot = some v ∨ ⟨slot, v⟩ ∈ fillings answer (m :: ms) := by
    intro slot v
    rw [view_set_eq_some_iff hp, hfillings, List.mem_cons, or_assoc]
  constructor
  · intro hd
    have hms := (List.forall_mem_cons.mp hd.understood).2
    have hnodup := hd.nodup
    rw [hfillings, List.map_cons, List.nodup_cons] at hnodup
    refine ⟨hms, hnodup.2, fun q hq => ?_, fun slot v => ?_⟩
    · have hne : q.1 ≠ p.1 := fun he => hnodup.1 (he ▸ List.mem_map_of_mem hq)
      have hfresh := hd.fresh q (hfillings ▸ List.mem_cons_of_mem p hq)
      exact view_set_eq_none_iff.mpr ⟨hne, hfresh⟩
    · rw [hd.view, hview]
  · intro hd
    have hms : ∀ n ∈ m :: ms, (filling? answer n).isSome :=
      List.forall_mem_cons.mpr ⟨hm, hd.understood⟩
    have hfresh : ∀ q ∈ fillings answer ms, q.1 ≠ p.1 ∧ d.view q.1 = none :=
      fun q hq => view_set_eq_none_iff.mp (hd.fresh q hq)
    refine ⟨hms, ?_, ?_, fun slot v => ?_⟩
    · rw [hfillings, List.map_cons, List.nodup_cons]
      refine ⟨fun hmem => ?_, hd.nodup⟩
      obtain ⟨q, hq, he⟩ := List.mem_map.mp hmem
      exact (hfresh q hq).1 he
    · rw [hfillings]
      exact List.forall_mem_cons.mpr ⟨hp, fun q hq => (hfresh q hq).2⟩
    · rw [hd.view, hview]

/-- Member after member fills a draft exactly when all of them do. -/
theorem foldlM_eq_some_iff :
    ms.foldlM (memberStep (step answer)) d = some d' ↔ Fills answer d ms d' := by
  induction ms generalizing d with
  | nil =>
    constructor
    · rintro ⟨⟩
      exact ⟨fun _ hm => absurd hm List.not_mem_nil, .nil, fun _ hp => absurd hp List.not_mem_nil,
        fun slot v => by simp [fillings]⟩
    · intro hd
      refine congrArg some (Draft.ext_view fun slot v => ?_)
      rw [hd.view]
      simp [fillings]
  | cons m ms ih =>
    rw [List.foldlM_cons, memberStep_eq]
    cases h : filling? answer m with
    | none =>
      refine ⟨fun hd => absurd hd (by simp), fun hd => ?_⟩
      have hm := hd.understood m List.mem_cons_self
      rw [h] at hm
      cases hm
    | some filling =>
      cases filling with
      | none =>
        rw [fills_cons_of_none h, ← ih]
        rfl
      | some p =>
        cases hgiven : d.view p.1 with
        | none =>
          rw [fills_cons_of_some h hgiven, ← ih]
          simp [Draft.fill, hgiven]
        | some v =>
          -- the slot is filled before, so the member is refused and is not fresh either
          refine ⟨fun hd => absurd hd (by simp [Draft.fill, hgiven]), fun hd => ?_⟩
          have hp : p ∈ fillings answer (m :: ms) :=
            List.mem_filterMap.mpr ⟨m, List.mem_cons_self, by rw [h]; rfl⟩
          have hfresh := hd.fresh p hp
          rw [hgiven] at hfresh
          cases hfresh

namespace Fills

variable {unknown : List (Literal × Tree)}

/-- The members may stand in any order. -/
theorem perm (h : Fills answer d ms d') (hp : ms'.Perm ms) : Fills answer d ms' d' := by
  have hfillings : (fillings answer ms').Perm (fillings answer ms) := hp.filterMap _
  refine ⟨fun m hm => h.understood m (hp.mem_iff.mp hm), ?_, fun p hp => ?_, fun slot v => ?_⟩
  · exact (hfillings.map Sigma.fst).nodup_iff.mpr h.nodup
  · exact h.fresh p (hfillings.mem_iff.mp hp)
  · rw [h.view, hfillings.mem_iff]

/-- Members that say nothing may be added. -/
theorem append (h : Fills answer d ms d') (hu : ∀ m ∈ unknown, filling? answer m = some none) :
    Fills answer d (ms ++ unknown) d' := by
  have hnone : fillings answer unknown = [] := by
    refine List.filterMap_eq_nil_iff.mpr fun m hm => ?_
    rw [hu m hm]
    rfl
  have hfillings : fillings answer (ms ++ unknown) = fillings answer ms := by
    have happend : fillings answer (ms ++ unknown) =
        fillings answer ms ++ fillings answer unknown := List.filterMap_append
    rw [happend, hnone, List.append_nil]
  refine ⟨fun m hm => ?_, hfillings ▸ h.nodup, hfillings ▸ h.fresh, hfillings ▸ h.view⟩
  rcases List.mem_append.mp hm with hm | hm
  · exact h.understood m hm
  · rw [hu m hm]
    rfl

end Fills

theorem filling?_of_not_mem {name : String} (hname : m.1.name? = some name) (hn : name ∉ names) :
    filling? answer m = some none := by
  have hslot : Slot.ofName? name = none := by
    refine List.find?_eq_none.mpr fun slot hs => ?_
    rw [decide_eq_true_eq]
    rintro rfl
    exact hn (List.mem_map_of_mem hs)
  rw [filling?, hname, Option.bind_some, hslot]

theorem fst_of_filling? {slot : Slot} (hname : m.1.name? = some slot.key)
    (h : (filling? answer m).isSome) : ((filling? answer m).join.map Sigma.fst) = some slot := by
  unfold filling? at h ⊢
  rw [hname, Option.bind_some, Slot.ofName?_key] at h ⊢
  dsimp only at h ⊢
  cases hv : answer slot m.2 with
  | none =>
    rw [hv] at h
    cases h
  | some v => rfl

/-- No name of a slot stands there twice. -/
theorem Fills.countP_le_one (h : Fills answer d ms d') {name : String} (hn : name ∈ names) :
    ms.countP (fun m => m.1.name? = some name) ≤ 1 := by
  obtain ⟨slot, -, rfl⟩ := List.mem_map.mp hn
  have hcount : ((fillings answer ms).map Sigma.fst).count slot ≤ 1 :=
    List.nodup_iff_count_le_one.mp h.nodup slot
  rw [fillings, List.map_filterMap, List.count_eq_countP, List.countP_filterMap] at hcount
  refine Nat.le_trans (List.countP_mono_left fun m hm hname => ?_) hcount
  rw [fst_of_filling? (of_decide_eq_true hname) (h.understood m hm)]
  simp

/-- What each slot makes of a value. -/
theorem exists_answers : ∃ answer : (slot : Slot) → Tree → Option slot.Value,
    ∀ (slot : Slot) t, Answers (slot.read 126) t (answer slot t) := by
  have huniform : ∀ slot : Slot, Uniform (slot.read 126) := fun slot => slot.uniform_read 126
  choose answer hanswer using huniform
  exact ⟨answer, hanswer⟩

/-- A written object is read when its members fill a draft that is complete. -/
theorem exists_answers_object : ∃ answer : (slot : Slot) → Tree → Option slot.Value, ∀ ms,
    Answers (record.read maxLevels) (.object ms)
      ((ms.foldlM (memberStep (step answer)) {}).bind fun d => (record.complete d).toOption) := by
  obtain ⟨answer, hanswer⟩ := exists_answers
  exact ⟨answer, Record.answers_object (answersBehind_step hanswer)⟩

end Document

namespace Schedule
open Document

theorem toOption_parse (text : String) : (parse text).toOption =
    (Json.decode record.read text).toOption.bind fun d => d.toSchedule.toOption := by
  rw [parse, toOption_bind, toOption_mapError]
  congr 1
  funext d
  exact toOption_mapError _ _

/-- An object that is accepted is accepted as the same schedule with its members in any order, with
any white space between the tokens and with members of other names added anywhere. No name of a slot
stands in it twice. -/
theorem members_in_any_order {ms ms' unknown : List (Literal × Tree)} {text text' : String}
    {s : Schedule} (htext : (Tree.object ms).WrittenAs text)
    (htext' : (Tree.object ms').WrittenAs text') (hperm : ms'.Perm (ms ++ unknown))
    (hunknown : ∀ m ∈ unknown, ∃ name, m.1.name? = some name ∧ name ∉ names)
    (hs : parse text = .ok s) :
    parse text' = .ok s ∧
    ∀ name ∈ names, ms.countP (fun m => m.1.name? = some name) ≤ 1 := by
  obtain ⟨answer, hanswer⟩ := exists_answers_object
  have hparse : ∀ {ms text}, (Tree.object ms).WrittenAs text → (parse text).toOption =
      ((ms.foldlM (memberStep (step answer)) {}).bind fun d => (record.complete d).toOption).bind
        fun d => d.toSchedule.toOption := by
    intro ms text ht
    rw [toOption_parse, (hanswer ms).decode ht]
  have hs' := toOption_eq_some_iff.mpr hs
  rw [hparse htext] at hs'
  obtain ⟨document, hdocument, hschedule⟩ := Option.bind_eq_some_iff.mp hs'
  obtain ⟨draft, hdraft, hcomplete⟩ := Option.bind_eq_some_iff.mp hdocument
  have hfills := foldlM_eq_some_iff.mp hdraft
  refine ⟨?_, fun name hname => hfills.countP_le_one hname⟩
  have hsays : ∀ m ∈ unknown, filling? answer m = some none := by
    intro m hm
    obtain ⟨name, hname, hn⟩ := hunknown m hm
    exact filling?_of_not_mem hname hn
  have hfills' := foldlM_eq_some_iff.mpr ((hfills.append hsays).perm hperm)
  refine toOption_eq_some_iff.mp ?_
  rw [hparse htext', hfills', Option.bind_some, hcomplete, Option.bind_some, hschedule]

/-- A literal of characters that stand for themselves. -/
def verbatim (cs : List Char) (h : cs.all fun c => IsPlain c) : Literal :=
  cs.pmap Piece.plain fun c hc => of_decide_eq_true (List.all_eq_true.mp h c hc)

def chainIdMember : Literal × Tree :=
  (verbatim ['c', 'h', 'a', 'i', 'n', 'I', 'd'] rfl, .number ⟨false, ['1'], [], none⟩)

def engineMember : Literal × Tree :=
  (verbatim ['e', 't', 'h', 'a', 's', 'h'] rfl, .object [])

/-- A member of another name, with an escape in its key and half a surrogate pair in its value. -/
def noteMember : Literal × Tree :=
  (.unit ['0', '0', '6', 'e'] 0x6e ⟨rfl, rfl⟩ :: verbatim ['o', 't', 'e'] rfl,
   .array [.number ⟨true, ['1'], ['5'], some (false, ['9', '9'])⟩,
     .string [.unit ['d', '8', '0', '0'] 0xd800 ⟨rfl, rfl⟩]])

def plainText : String := "\x7b\"chainId\":1,\"ethash\":\x7b\x7d\x7d"

def notedText : String :=
  "\x7b\"ethash\" : \x7b\x7d,\"\\u006eote\":[-1.5E99, \"\\ud800\"],\n\"chainId\":1 \x7d"

theorem writes_one : Writes chainIdMember.2 ['1'] := by
  have hone : IsWhole ['1'] := ⟨isDigits_of_all rfl rfl, by decide⟩
  have hnumber : WritesNumber ⟨false, ['1'], [], none⟩ ([] ++ (['1'] ++ ([] ++ []))) :=
    .mk hone .none .none
  exact .number hnumber

theorem writes_empty : Writes engineMember.2 ['\x7b', '\x7d'] := by
  have hclose : WritesMembers true [] ([] ++ ['\x7d']) := .close rfl
  exact .object hclose

theorem writes_note : Writes noteMember.2
    ['[', '-', '1', '.', '5', 'E', '9', '9', ',', ' ', '"', '\\', 'u', 'd', '8', '0', '0', '"',
      ']'] := by
  have hone : IsWhole ['1'] := ⟨isDigits_of_all rfl rfl, by decide⟩
  have hfive : WritesFraction ['5'] ['.', '5'] := .digits (isDigits_of_all rfl rfl)
  have hexponent : WritesExponent (some (false, ['9', '9'])) ['E', '9', '9'] :=
    .digits (.inr rfl) .none (isDigits_of_all rfl rfl)
  have hnumber : Writes (.number ⟨true, ['1'], ['5'], some (false, ['9', '9'])⟩)
      ['-', '1', '.', '5', 'E', '9', '9'] := .number (.mk hone hfive hexponent)
  have hfirst : Opens true [] := .first rfl
  have hcomma : Opens false ([] ++ ',' :: [' ']) := .comma rfl rfl
  have hclose : WritesItems false [] ([] ++ [']']) := .close rfl
  exact .array (.item hfirst hnumber (.item hcomma (.string _) hclose))

theorem writtenAs_plainText : (Tree.object [chainIdMember, engineMember]).WrittenAs plainText := by
  have hfirst : Opens true [] := .first rfl
  have hcomma : Opens false ([] ++ ',' :: []) := .comma rfl rfl
  have hcolon : IsColon ([] ++ ':' :: []) := .mk rfl rfl
  have hclose : WritesMembers false [] ([] ++ ['\x7d']) := .close rfl
  have hengine : WritesMembers false [engineMember] _ := .member hcomma hcolon writes_empty hclose
  have hmembers : WritesMembers true [chainIdMember, engineMember] _ :=
    .member hfirst hcolon writes_one hengine
  exact ⟨[], _, [], rfl, rfl, .object hmembers, rfl⟩

theorem writtenAs_notedText :
    (Tree.object [engineMember, noteMember, chainIdMember]).WrittenAs notedText := by
  have hfirst : Opens true [] := .first rfl
  have hcomma : Opens false ([] ++ ',' :: []) := .comma rfl rfl
  have hbreak : Opens false ([] ++ ',' :: ['\n']) := .comma rfl rfl
  have hcolon : IsColon ([] ++ ':' :: []) := .mk rfl rfl
  have hwide : IsColon ([' '] ++ ':' :: [' ']) := .mk rfl rfl
  have hclose : WritesMembers false [] ([' '] ++ ['\x7d']) := .close rfl
  have hchainId : WritesMembers false [chainIdMember] _ := .member hbreak hcolon writes_one hclose
  have hnote : WritesMembers false [noteMember, chainIdMember] _ :=
    .member hcomma hcolon writes_note hchainId
  have hmembers : WritesMembers true [engineMember, noteMember, chainIdMember] _ :=
    .member hfirst hwide writes_empty hnote
  exact ⟨[], _, [], rfl, rfl, .object hmembers, rfl⟩

/-- The network is read from both texts. -/
theorem noted_text_accepted :
    parse plainText = .ok {chainId := some (.ofWord 1)} ∧
    parse notedText = .ok {chainId := some (.ofWord 1)} := by
  have hplain : parse plainText = .ok {chainId := some (.ofWord 1)} :=
    parse_of_takes (takes_ofSchedule {chainId := some (.ofWord 1)} none)
  have hperm : ([engineMember, noteMember] ++ [chainIdMember]).Perm
      ([chainIdMember] ++ [engineMember, noteMember]) := List.perm_append_comm
  have hnote : ∀ m ∈ [noteMember], ∃ name, m.1.name? = some name ∧ name ∉ names := by
    intro m hm
    obtain rfl := List.mem_singleton.mp hm
    exact ⟨"note", rfl, by decide⟩
  obtain ⟨hnoted, -⟩ :=
    members_in_any_order writtenAs_plainText writtenAs_notedText hperm hnote hplain
  exact ⟨hplain, hnoted⟩

end Schedule
end HardFork
