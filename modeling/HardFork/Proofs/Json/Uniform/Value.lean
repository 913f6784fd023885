import HardFork.Proofs.Json.Uniform
import Mathlib.Tactic.Choose

/-! # The reader of any value

Its lists and objects are read with one level less, so the induction is on the levels. An object
whose first key marks a number is looked at apart. -/
namespace HardFork.Json

variable {t : Tree} {body : List Char}

theorem toOption_closeObject {ms : List (Literal × Tree)} (h : WritesMembers false ms body)
    (rest : List Char) :
    (closeObject (body ++ rest)).toOption = if ms.isEmpty then some rest else none := by
  cases h with
  | close hg =>
    rw [List.append_assoc, List.singleton_append, closeObject, skipSpace_append hg,
      skipSpace_cons (by decide)]
    rfl
  | member ho _ _ _ =>
    obtain - | @⟨before, after, hb, -⟩ := ho
    simp only [List.append_assoc]
    rw [closeObject, skipSpace_append hb, List.cons_append, skipSpace_cons (by decide)]
    rfl

/-- The one member of an object that stands for a number. -/
theorem readNumberMember_uniform (t : Tree) (ms : List (Literal × Tree)) :
    ∃ r : Option Json, ∀ colon text body, IsColon colon → Writes t text →
      WritesMembers false ms body → ∀ rest,
        (readNumberMember (colon ++ (text ++ (body ++ rest)))).toOption = r.map (·, rest) := by
  obtain ⟨s?, hs⟩ := uniform_readText .numeral t
  refine ⟨s?.bind fun s => (numeralOf s).toOption.bind fun n =>
    if ms.isEmpty then some (.number n.text) else none, fun colon text body hc ht hms rest => ?_⟩
  obtain ⟨gap, hg, hcolon⟩ := readColon_append hc
  have htext := hs text ht gap (body ++ rest) hg (hms.delimited rest)
  have hclose := toOption_closeObject hms rest
  show (readColon _ >>= _).toOption = _
  rw [hcolon]
  show (readText .numeral _ >>= _).toOption = _
  rw [toOption_bind, htext]
  cases s? with
  | none => rfl
  | some s =>
    show (numeralOf s >>= _).toOption = Option.map _ ((numeralOf s).toOption.bind _)
    rw [toOption_bind]
    cases (numeralOf s).toOption with
    | none => rfl
    | some n =>
      show (closeObject (body ++ rest) >>= _).toOption = _
      rw [toOption_bind, hclose]
      cases ms <;> rfl

theorem readMember_answers {value : Reader Json} {r : Option Json} (h : Answers value t r)
    (ms : List (String × Json)) (key : String) :
    AnswersBehind (readMember value ms key) t (r.map fun x => insertMember key x ms) := by
  intro colon text hc ht rest hd
  obtain ⟨gap, hg, hcolon⟩ := readColon_append hc
  have hvalue := h text ht gap rest hg hd
  show (readColon _ >>= _).toOption = _
  rw [hcolon]
  show (value _ >>= _).toOption = _
  rw [toOption_bind, hvalue]
  cases r <;> rfl

theorem Uniform.object {value : Reader Json} (h : Uniform value) (ms : List (Literal × Tree)) :
    ∃ r : Option Json, ∀ body, WritesMembers true ms body → ∀ rest,
      (readObject value (body ++ rest)).toOption = r.map (·, rest) := by
  have hmembers : ∀ (d : List (String × Json)) (name : String) (t : Tree),
      ∃ r, AnswersBehind (readMember value d name) t r := by
    intro d name t
    obtain ⟨r, hr⟩ := h t
    exact ⟨_, readMember_answers hr d name⟩
  choose step hstep using hmembers
  cases ms with
  | nil =>
    refine ⟨some (.object []), fun body hbody rest => ?_⟩
    cases hbody with
    | close hg =>
      have hclose := nextKey_close true hg rest
      rw [List.append_assoc, List.singleton_append, readObject, hclose]
      rfl
  | cons m ms =>
    obtain ⟨key, t⟩ := m
    obtain ⟨number, hnumber⟩ := readNumberMember_uniform t ms
    refine ⟨key.name?.bind fun name =>
      if name = numberKey then number
      else ((step [] name t).bind fun d => ms.foldlM (memberStep step) d).map .object,
      fun body hbody rest => ?_⟩
    cases hbody with
    | @member _ lead _ colon _ text _ body ho hc ht hs =>
      have hnext := toOption_nextKey ho key (colon ++ (text ++ (body ++ rest)))
      simp only [List.append_assoc]
      rw [readObject, toOption_bind, hnext]
      cases key.name? with
      | none => rfl
      | some name =>
        show (if name = numberKey then _ else _ : Except Refusal (Json × List Char)).toOption =
          Option.map _ (if name = numberKey then _ else _)
        split
        · exact hnumber colon text body hc ht hs rest
        · have hmember := hstep [] name t colon text hc ht (body ++ rest) (hs.delimited rest)
          show (readMember value [] name _ >>= _).toOption = _
          rw [toOption_bind, hmember]
          cases step [] name t with
          | none => rfl
          | some d =>
            have hfuel : ms.length <
                (lead ++ (key.text ++ (colon ++ (text ++ (body ++ rest))))).length+1 := by
              have hlength := hs.length_lt
              simp only [List.length_append]
              omega
            have hrest := toOption_readMembers hstep hs hfuel d rest
            show (readMembers _ _ false d (body ++ rest) >>= _).toOption = _
            rw [toOption_bind, hrest, Option.bind_some]
            cases ms.foldlM (memberStep step) d <;> rfl

theorem answers_readAny_number (list object : Reader Json) (n : Numeral) :
    Answers (readAny list object) (.number n) (some (.number n.text)) := by
  refine (skipsSpace_readAny list object).answers fun text rest ht hd => ?_
  obtain ⟨c, cs, rfl, hc⟩ := ht.begins
  cases ht with
  | number h =>
    have hnumeral := readNumeral_append (.unfinished .value) h hd
    have hstarts : startsNumeral c := hc
    rw [List.cons_append] at hnumeral ⊢
    rw [readAny, skipSpace_cons (Tree.isSpace_of_begins hc)]
    simp only [ne_of_startsNumeral hstarts, if_false, hstarts, if_true, hnumeral]
    rfl

theorem answers_readAny_string (list object : Reader Json) (s : Literal) :
    Answers (readAny list object) (.string s) (s.name?.map .string) := by
  refine (skipsSpace_readAny list object).answers fun text rest ht _ => ?_
  cases ht
  have hstring := toOption_readString s rest
  rw [Literal.text, List.cons_append, readAny, skipSpace_cons (by decide)]
  show (readString _ >>= _).toOption = _
  rw [toOption_bind, hstring]
  cases s.name? <;> rfl

theorem uniform_readAny {list object : Reader Json}
    (hlist : ∀ xs, ∃ r : Option Json, ∀ body, WritesItems true xs body → ∀ rest,
      (list (body ++ rest)).toOption = r.map (·, rest))
    (hobject : ∀ ms, ∃ r : Option Json, ∀ body, WritesMembers true ms body → ∀ rest,
      (object (body ++ rest)).toOption = r.map (·, rest)) : Uniform (readAny list object) := by
  have hskips := skipsSpace_readAny list object
  intro t
  cases t with
  | null =>
    refine ⟨some .null, hskips.answers fun text rest ht _ => ?_⟩
    cases ht
    rfl
  | bool b =>
    refine ⟨some (.bool b), hskips.answers fun text rest ht _ => ?_⟩
    cases ht
    cases b <;> rfl
  | number n => exact ⟨_, answers_readAny_number list object n⟩
  | string s => exact ⟨_, answers_readAny_string list object s⟩
  | array xs =>
    obtain ⟨r, hr⟩ := hlist xs
    refine ⟨r, hskips.answers fun text rest ht _ => ?_⟩
    cases ht with
    | array hbody => exact hr _ hbody rest
  | object ms =>
    obtain ⟨r, hr⟩ := hobject ms
    refine ⟨r, hskips.answers fun text rest ht _ => ?_⟩
    cases ht with
    | object hbody => exact hr _ hbody rest

theorem uniform_readValue (levels : Nat) : Uniform (readValue levels) := by
  induction levels with
  | zero =>
    have hdeep : ∀ cs : List Char,
        (malformed .tooDeep (.here cs) : Except Refusal (Json × List Char)).toOption = none :=
      fun _ => rfl
    exact uniform_readAny (fun _ => ⟨none, fun _ _ _ => hdeep _⟩)
      fun _ => ⟨none, fun _ _ _ => hdeep _⟩
  | succ levels ih =>
    refine uniform_readAny (fun xs => ?_) ih.object
    obtain ⟨r, hr⟩ := ih.items xs
    refine ⟨r.map .array, fun body hbody rest => ?_⟩
    have hitems := hr true body hbody _ rest (hbody.fuel rest)
    rw [toOption_bind, hitems]
    cases r <;> rfl

end HardFork.Json
