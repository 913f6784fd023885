import HardFork.Proofs.Json.Skip

/-! # Readers of values

A reader answers to a value when it reads all of its texts alike: it refuses them, or it reads the
same from each of them and stops where the value ends. A reader that answers to every value sees
nothing but the tokens, so this composes along the readers as their definitions do. -/
namespace HardFork.Json

variable {α β δ : Type} {t : Tree} {first : Bool} {body : List Char}

/-- All texts of the value are refused, or read as `r` up to their end. -/
def Answers (read : Reader α) (t : Tree) (r : Option α) : Prop :=
  ∀ text, Writes t text → ∀ gap rest, gap.all isSpace → Delimited rest →
    (read (gap ++ (text ++ rest))).toOption = r.map (·, rest)

def Uniform (read : Reader α) : Prop := ∀ t, ∃ r, Answers read t r

variable {read : Reader α}

/-- A value that has a text is read in one way. -/
theorem Answers.unique {r r' : Option α} (h : Answers read t r) (h' : Answers read t r')
    {text : List Char} (ht : Writes t text) : r = r' := by
  have hr := h text ht [] [] rfl delimited_nil
  have hr' := h' text ht [] [] rfl delimited_nil
  have heq := hr.symm.trans hr'
  cases r <;> cases r' <;> simp_all

namespace SkipsSpace

theorem answers (hread : SkipsSpace read) {r : Option α}
    (h : ∀ text rest, Writes t text → Delimited rest →
      (read (text ++ rest)).toOption = r.map (·, rest)) : Answers read t r := by
  intro text ht gap rest hg hd
  rw [hread gap (text ++ rest) hg]
  exact h text rest ht hd

/-- A value is refused by its first character. -/
theorem refuses (hread : SkipsSpace read)
    (h : ∀ c cs, t.begins c → (read (c :: cs)).toOption = none) : Answers read t none := by
  refine hread.answers fun text rest ht _ => ?_
  obtain ⟨c, cs, rfl, hc⟩ := ht.begins
  exact h c (cs ++ rest) hc

end SkipsSpace

theorem toOption_wrongType (wanted : Wanted) (cs : List Char) :
    (wrongType wanted cs : Except Refusal α).toOption = none := by
  have hrefuse : ∀ {γ : Type} (x : Except Refusal γ) (f : γ → Except Refusal α),
      (∀ a, (f a).toOption = none) → (x >>= f).toOption = none := by
    intro γ x f hf
    rw [toOption_bind]
    cases x with
    | error e => rfl
    | ok a => exact hf a
  cases cs with
  | nil => rfl
  | cons c cs =>
    simp only [wrongType]
    repeat' split
    all_goals first | rfl | exact hrefuse _ _ fun _ => rfl

/-- What is made of a value that was read does not depend on its text either. -/
theorem Answers.bind {read' : Reader β} {r : Option α} (h : Answers read t r) (f : α → Option β)
    (hread : ∀ cs, (read' cs).toOption =
      (read cs).toOption.bind fun p => (f p.1).map (·, p.2)) : Answers read' t (r.bind f) := by
  intro text ht gap rest hg hd
  rw [hread, h text ht gap rest hg hd]
  cases r <;> rfl

theorem Uniform.bind {read' : Reader β} (h : Uniform read) (f : α → Option β)
    (hread : ∀ cs, (read' cs).toOption =
      (read cs).toOption.bind fun p => (f p.1).map (·, p.2)) : Uniform read' := by
  intro t
  obtain ⟨r, hr⟩ := h t
  exact ⟨r.bind f, hr.bind f hread⟩

/-- What stands behind a number has a say in where it is refused, but not in whether it is. -/
theorem toOption_natural (n : Numeral) (rest : List Char) :
    (n.natural rest).toOption = (n.natural []).toOption := by
  unfold Numeral.natural
  split
  · split <;> rfl
  · split <;> rfl

theorem uniform_readNatural : Uniform readNatural := by
  have hskips := skipsSpace_readNatural
  intro t
  by_cases hn : ∃ n, t = .number n
  · obtain ⟨n, rfl⟩ := hn
    refine ⟨(n.natural []).toOption, hskips.answers fun text rest ht hd => ?_⟩
    obtain ⟨c, cs, rfl, hc⟩ := ht.begins
    cases ht with
    | number h =>
      have hstarts : startsNumeral c := hc
      have hnumeral := readNumeral_append (.unfinished .value) h hd
      rw [List.cons_append] at hnumeral ⊢
      rw [readNatural, skipSpace_cons (Tree.isSpace_of_begins hc)]
      simp only [hstarts, if_true, hnumeral]
      show (n.natural rest >>= fun w => Except.ok (w, rest)).toOption = _
      rw [toOption_bind, toOption_natural]
      cases (n.natural []).toOption <;> rfl
  · refine ⟨none, hskips.refuses fun c cs hc => ?_⟩
    have hstarts : startsNumeral c = false :=
      Bool.eq_false_iff.mpr fun h => hn (Tree.eq_number_of_begins h hc)
    rw [readNatural, skipSpace_cons (Tree.isSpace_of_begins hc)]
    simp only [hstarts, Bool.false_eq_true, if_false]
    exact toOption_wrongType _ _

theorem uniform_readBool : Uniform readBool := by
  have hskips := skipsSpace_readBool
  intro t
  by_cases hb : ∃ b, t = .bool b
  · obtain ⟨b, rfl⟩ := hb
    refine ⟨some b, hskips.answers fun text rest ht _ => ?_⟩
    cases ht
    cases b <;> rfl
  · refine ⟨none, hskips.refuses fun c cs hc => ?_⟩
    rw [readBool, skipSpace_cons (Tree.isSpace_of_begins hc)]
    split
    · rename_i heq
      obtain rfl := (List.cons.inj heq).1
      exact absurd (Tree.eq_bool_of_begins (.inl hc)) hb
    · rename_i heq
      obtain rfl := (List.cons.inj heq).1
      exact absurd (Tree.eq_bool_of_begins (.inr hc)) hb
    · exact toOption_wrongType _ _

theorem uniform_readText (wanted : Wanted) : Uniform (readText wanted) := by
  have hskips := skipsSpace_readText wanted
  intro t
  by_cases hs : ∃ s, t = .string s
  · obtain ⟨s, rfl⟩ := hs
    refine ⟨s.name?, hskips.answers fun text rest ht _ => ?_⟩
    cases ht
    rw [Literal.text, List.cons_append, readText, skipSpace_cons (by decide)]
    exact toOption_readString s rest
  · refine ⟨none, hskips.refuses fun c cs hc => ?_⟩
    rw [readText, skipSpace_cons (Tree.isSpace_of_begins hc)]
    split
    · rename_i heq
      obtain rfl := (List.cons.inj heq).1
      exact absurd (Tree.eq_string_of_begins hc) hs
    · exact toOption_wrongType _ _

/-- What is not null is read as it is without the option. -/
theorem Answers.option {r : Option α} (h : Answers read t r) (hn : t ≠ .null) :
    Answers (readOption read) t (r.map some) := by
  refine (skipsSpace_readOption read).answers fun text rest ht hd => ?_
  have hread := h text ht [] rest rfl hd
  obtain ⟨c, cs, rfl, hc⟩ := ht.begins
  rw [List.nil_append, List.cons_append] at hread
  rw [List.cons_append, readOption, skipSpace_cons (Tree.isSpace_of_begins hc)]
  split
  · rename_i heq
    obtain rfl := (List.cons.inj heq).1
    exact absurd (Tree.eq_null_of_begins hc) hn
  · rw [toOption_bind, hread]
    cases r <;> rfl

theorem Uniform.option (h : Uniform read) : Uniform (readOption read) := by
  intro t
  by_cases hn : t = .null
  · subst hn
    refine ⟨some none, (skipsSpace_readOption read).answers fun text rest ht _ => ?_⟩
    cases ht
    rfl
  · obtain ⟨r, hr⟩ := h t
    exact ⟨r.map some, hr.option hn⟩

theorem WritesItems.length_lt {xs : List Tree} (h : WritesItems first xs body) :
    xs.length < body.length := by
  induction xs generalizing first body with
  | nil =>
    cases h with
    | close => simp
  | cons x xs ih =>
    cases h with
    | item _ hx hs =>
      have hrest := ih hs
      obtain ⟨c, cs, rfl, -⟩ := hx.begins
      simp only [List.length_cons, List.length_append]
      omega

/-- A list and what follows it are long enough to go from item to item. -/
theorem WritesItems.fuel {xs : List Tree} (h : WritesItems first xs body) (rest : List Char) :
    xs.length < (body ++ rest).length+1 := by
  have hlength := h.length_lt
  simp only [List.length_append]
  omega

theorem nextItem_item {x : Tree} {lead text : List Char} (ho : Opens first lead)
    (hx : Writes x text) (rest : List Char) :
    nextItem first (lead ++ (text ++ rest)) = .ok (.more () (text ++ rest)) := by
  obtain ⟨c, cs, rfl, hc⟩ := hx.begins
  exact nextItem_append ho (Tree.startsValue_of_begins hc) (cs ++ rest)

-- The result comes before the texts that it is for, so the induction is on the items.
theorem Uniform.items (h : Uniform read) (xs : List Tree) : ∃ r : Option (List α),
    ∀ first body, WritesItems first xs body → ∀ fuel rest, xs.length < fuel →
      (readItems read fuel first (body ++ rest)).toOption = r.map (·, rest) := by
  induction xs with
  | nil =>
    refine ⟨some [], fun first body hbody fuel rest hfuel => ?_⟩
    obtain ⟨fuel, rfl⟩ := Nat.exists_eq_add_one_of_ne_zero (Nat.ne_of_gt hfuel)
    cases hbody with
    | close hg =>
      have hclose := nextItem_close first hg rest
      rw [List.append_assoc, List.singleton_append, readItems, hclose]
      rfl
  | cons x xs ih =>
    obtain ⟨rx, hrx⟩ := h x
    obtain ⟨rxs, hrxs⟩ := ih
    refine ⟨rx.bind fun a => rxs.map (a :: ·), fun first body hbody fuel rest hfuel => ?_⟩
    obtain ⟨fuel, rfl⟩ := Nat.exists_eq_add_one_of_ne_zero (Nat.ne_of_gt (Nat.zero_lt_of_lt hfuel))
    cases hbody with
    | @item _ lead _ text _ body ho hx hs =>
      have hnext := nextItem_item ho hx (body ++ rest)
      have hitem := hrx text hx [] (body ++ rest) rfl (hs.delimited rest)
      have hitems := hrxs false body hs fuel rest (Nat.lt_of_succ_lt_succ hfuel)
      rw [List.append_assoc, List.append_assoc, readItems, hnext]
      show (read (text ++ (body ++ rest)) >>= _).toOption = _
      rw [toOption_bind]
      rw [List.nil_append] at hitem
      rw [hitem]
      cases rx with
      | none => rfl
      | some a =>
        show (readItems read fuel false (body ++ rest) >>= _).toOption = _
        rw [toOption_bind, hitems]
        cases rxs <;> rfl

theorem uniform_readList {item : Nat → Reader α} (h : ∀ levels, Uniform (item levels))
    (levels : Nat) : Uniform (readList item levels) := by
  have hskips := skipsSpace_readList item levels
  intro t
  by_cases hxs : ∃ xs, t = .array xs
  · obtain ⟨xs, rfl⟩ := hxs
    cases levels with
    | zero =>
      refine ⟨none, hskips.answers fun text rest ht _ => ?_⟩
      cases ht
      rfl
    | succ levels =>
      obtain ⟨r, hr⟩ := (h levels).items xs
      refine ⟨r, hskips.answers fun text rest ht _ => ?_⟩
      cases ht with
      | @array _ body hbody =>
        exact (toOption_mapError _ _).trans (hr true body hbody _ rest (hbody.fuel rest))
  · refine ⟨none, hskips.refuses fun c cs hc => ?_⟩
    rw [readList, skipSpace_cons (Tree.isSpace_of_begins hc)]
    split
    · rename_i heq
      obtain rfl := (List.cons.inj heq).1
      exact absurd (Tree.eq_array_of_begins hc) hxs
    · exact toOption_wrongType _ _

/-- As `Answers`, for what is read behind a key. -/
def AnswersBehind (read : Reader δ) (t : Tree) (r : Option δ) : Prop :=
  ∀ colon text, IsColon colon → Writes t text → ∀ rest, Delimited rest →
    (read (colon ++ (text ++ rest))).toOption = r.map (·, rest)

theorem Answers.behind {read : Reader δ} {r : Option δ} (h : Answers read t r) :
    AnswersBehind (fun cs => do read (← readColon cs)) t r := by
  intro colon text hc ht rest hd
  obtain ⟨gap, hg, hcolon⟩ := readColon_append hc
  show (readColon (colon ++ (text ++ rest)) >>= _).toOption = _
  rw [hcolon]
  exact h text ht gap rest hg hd

theorem WritesMembers.length_lt {ms : List (Literal × Tree)} (h : WritesMembers first ms body) :
    ms.length < body.length := by
  induction ms generalizing first body with
  | nil =>
    cases h with
    | close => simp
  | cons m ms ih =>
    cases h with
    | member _ _ hx hs =>
      have hrest := ih hs
      obtain ⟨c, cs, rfl, -⟩ := hx.begins
      simp only [List.length_cons, List.length_append]
      omega

theorem WritesMembers.fuel {ms : List (Literal × Tree)} (h : WritesMembers first ms body)
    (rest : List Char) : ms.length < (body ++ rest).length+1 := by
  have hlength := h.length_lt
  simp only [List.length_append]
  omega

/-- What a member makes of a draft, by the name that its key spells. -/
def memberStep (step : δ → String → Tree → Option δ) (d : δ) (m : Literal × Tree) : Option δ :=
  m.1.name?.bind fun name => step d name m.2

theorem toOption_readMembers {member : δ → String → Reader δ} {step : δ → String → Tree → Option δ}
    (h : ∀ d name t, AnswersBehind (member d name) t (step d name t))
    {ms : List (Literal × Tree)} (hbody : WritesMembers first ms body) {fuel : Nat}
    (hfuel : ms.length < fuel) (d : δ) (rest : List Char) :
    (readMembers member fuel first d (body ++ rest)).toOption =
      (ms.foldlM (memberStep step) d).map (·, rest) := by
  induction ms generalizing first body fuel d with
  | nil =>
    obtain ⟨fuel, rfl⟩ := Nat.exists_eq_add_one_of_ne_zero (Nat.ne_of_gt hfuel)
    cases hbody with
    | close hg =>
      have hclose := nextKey_close first hg rest
      rw [List.append_assoc, List.singleton_append, readMembers, hclose]
      rfl
  | cons m ms ih =>
    obtain ⟨fuel, rfl⟩ := Nat.exists_eq_add_one_of_ne_zero (Nat.ne_of_gt (Nat.zero_lt_of_lt hfuel))
    cases hbody with
    | @member _ lead key colon t text _ body ho hc ht hs =>
      have hnext := toOption_nextKey ho key (colon ++ (text ++ (body ++ rest)))
      simp only [List.append_assoc]
      rw [readMembers, toOption_bind, hnext, List.foldlM_cons, memberStep]
      cases key.name? with
      | none => rfl
      | some name =>
        have hmember := h d name t colon text hc ht (body ++ rest) (hs.delimited rest)
        show (member d name (colon ++ (text ++ (body ++ rest))) >>= _).toOption = _
        rw [toOption_bind, hmember]
        show _ = Option.map _ ((step d name t).bind _)
        cases step d name t with
        | none => rfl
        | some d' => exact ih hs (Nat.lt_of_succ_lt_succ hfuel) d'

theorem delimited_space {rest : List Char} (h : rest.all isSpace) : Delimited rest := by
  intro c hc
  have hspace : isSpace c := List.all_eq_true.mp h c (List.mem_of_mem_head? hc)
  simp [endsValue, hspace]

theorem skipSpace_eq_nil {rest : List Char} (h : rest.all isSpace) : skipSpace rest = [] := by
  have hskip := skipSpace_append h []
  rwa [List.append_nil] at hskip

/-- All texts of a value are decoded alike. -/
theorem Answers.decode {read : Nat → Reader α} {r : Option α} (h : Answers (read maxLevels) t r)
    {text : String} (ht : t.WrittenAs text) : (decode read text).toOption = r := by
  obtain ⟨before, body, after, hb, ha, hbody, htext⟩ := ht
  have hread := h body hbody before after hb (delimited_space ha)
  rw [Json.decode, toOption_mapError, toOption_bind, htext, hread]
  cases r with
  | none => rfl
  | some a =>
    simp only [Option.map_some, Option.bind_some, skipSpace_eq_nil ha]
    rfl

end HardFork.Json
