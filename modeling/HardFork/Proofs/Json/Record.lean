import HardFork.Proofs.Json.Items

/-! # Lists and records read back

A list reads back when its items do. A record reads back from an object when each member is taken by
a field that was not given before, and the draft that the members end with is complete. -/
namespace HardFork.Json

variable {α β δ : Type} {layout : Option Nat} {text rest : List Char}

theorem takes_readBool (b : Bool) (layout : Option Nat) :
    Takes readBool (write layout (.bool b)) b := by
  rw [write]
  cases b with
  | true => exact skipsSpace_readBool.takes rfl (by decide) fun rest _ => rfl
  | false => exact skipsSpace_readBool.takes rfl (by decide) fun rest _ => rfl

theorem takes_readOption_none (read : Reader α) (layout : Option Nat) :
    Takes (readOption read) (write layout .null) none := by
  rw [write]
  exact (skipsSpace_readOption read).takes rfl (by decide) fun rest _ => rfl

theorem Takes.option {read : Reader α} {a : α} (h : Takes read text a)
    (hn : text.head? ≠ some 'n') : Takes (readOption read) text (some a) := by
  obtain ⟨c, cs, rfl, hc⟩ := h.starts
  refine (skipsSpace_readOption read).takes rfl hc fun rest hd => ?_
  have hread := h.reads [] rest rfl hd
  rw [List.nil_append, List.cons_append] at hread
  rw [readOption, List.cons_append, skipSpace_cons (not_isSpace_of_startsValue hc)]
  split
  · rename_i heq
    exact absurd (congrArg some (List.cons.inj heq).1) hn
  · rw [hread]
    rfl

theorem Takes.field {name : String} {get : δ → Option β} {set : δ → β → δ} {read : Nat → Reader β}
    {levels : Nat} {b : β} (h : Takes (read levels) text b) (d : δ) :
    Takes ((Field.of name get set read).read levels d) text (set d b) :=
  h.map (set d)

theorem all_isSpace_lineBreak (layout : Option Nat) : (lineBreak layout).all isSpace := by
  cases layout with
  | none => rfl
  | some indent => simp [lineBreak, isSpace]

theorem delimited_lineBreak {c : Char} (hc : endsValue c) (layout : Option Nat)
    (rest : List Char) : Delimited (lineBreak layout ++ c :: rest) :=
  delimited_gap (all_isSpace_lineBreak layout) hc rest

theorem opens_first (layout : Option Nat) : Opens true (lineBreak layout) :=
  .first (all_isSpace_lineBreak layout)

theorem opens_comma (layout : Option Nat) : Opens false (',' :: lineBreak layout) :=
  show Opens false ([] ++ ',' :: lineBreak layout) from .comma rfl (all_isSpace_lineBreak layout)

theorem delimited_commas {γ : Type} (f : γ → List Char) (xs : List γ) (h : Delimited rest) :
    Delimited (xs.flatMap (fun x => ',' :: f x) ++ rest) := by
  cases xs with
  | nil => exact h
  | cons x xs => exact delimited_cons (by decide) _

theorem length_le_length_commas {γ : Type} (f : γ → List Char) (xs : List γ) :
    xs.length ≤ (xs.flatMap fun x => ',' :: f x).length :=
  length_le_length_flatMap (fun x => List.cons_ne_nil ',' (f x)) xs

def item (layout : Option Nat) (x : Json) : List Char := lineBreak layout ++ write layout x

theorem writeItems_cons (layout : Option Nat) (x : Json) (xs : List Json) :
    writeItems layout (x :: xs) = item layout x ++ xs.flatMap fun y => ',' :: item layout y := by
  induction xs generalizing x with
  | nil => simp [writeItems, item]
  | cons y ys ih =>
    rw [writeItems, ih y, List.flatMap_cons]
    simp [item]

theorem nextItem_first {x : Json} {c : Char} {cs : List Char} (hx : write layout x = c :: cs)
    (hc : startsValue c) (rest : List Char) :
    nextItem true (item layout x ++ rest) = .ok (.more () (write layout x ++ rest)) := by
  rw [item, List.append_assoc, hx]
  exact nextItem_append (opens_first layout) hc (cs ++ rest)

theorem nextItem_comma {x : Json} {c : Char} {cs : List Char} (hx : write layout x = c :: cs)
    (hc : startsValue c) (rest : List Char) :
    nextItem false (',' :: (item layout x ++ rest)) = .ok (.more () (write layout x ++ rest)) := by
  rw [item, List.append_assoc, hx]
  exact nextItem_append (opens_comma layout) hc (cs ++ rest)

/-- One item is read, and the others after it. -/
theorem readItems_item {read : Reader α} {x : Json} {a : α} (h : Takes read (write layout x) a)
    {first : Bool} {text rest : List Char}
    (hn : nextItem first text = .ok (.more () (write layout x ++ rest)))
    (hd : Delimited rest) {fuel : Nat} {xs : List α} {tail : List Char}
    (hrest : readItems read fuel false rest = .ok (xs, tail)) :
    readItems read (fuel+1) first text = .ok (a :: xs, tail) := by
  have ha := h.reads [] rest rfl hd
  rw [List.nil_append] at ha
  simp only [readItems, hn, bind, Except.bind, ha, hrest]
  rfl

/-- The items behind the first one, and the bracket. -/
theorem readItems_rest {read : Reader α} {encode : α → Json} {xs : List α}
    (h : ∀ a ∈ xs, Takes read (write layout (encode a)) a) (outer : Option Nat) {fuel : Nat}
    (hfuel : xs.length < fuel) (rest : List Char) :
    readItems read fuel false ((xs.map encode).flatMap (fun y => ',' :: item layout y) ++
      (lineBreak outer ++ ']' :: rest)) = .ok (xs, rest) := by
  induction xs generalizing fuel with
  | nil =>
    cases fuel with
    | zero => cases hfuel
    | succ fuel =>
      have hclose := nextItem_close false (all_isSpace_lineBreak outer) rest
      simp [readItems, hclose, bind, Except.bind, pure, Except.pure]
  | cons a xs ih =>
    cases fuel with
    | zero => cases hfuel
    | succ fuel =>
      have ha := h a List.mem_cons_self
      obtain ⟨c, cs, hcs, hc⟩ := ha.starts
      rw [List.map_cons, List.flatMap_cons, List.append_assoc, List.cons_append]
      refine readItems_item ha (nextItem_comma hcs hc _) ?_
        (ih (fun b hb => h b (List.mem_cons_of_mem a hb)) (Nat.lt_of_succ_lt_succ hfuel))
      exact delimited_commas _ _ (delimited_lineBreak (by decide) outer rest)

/-- A list reads back when its items do. -/
theorem takes_readList {read : Nat → Reader α} {encode : α → Json} {levels : Nat} (xs : List α)
    (layout : Option Nat)
    (h : ∀ a ∈ xs, Takes (read levels) (write (layout.map (·+1)) (encode a)) a) :
    Takes (readList read (levels+1)) (write layout (.array (xs.map encode))) xs := by
  have hread := skipsSpace_readList read (levels+1)
  cases xs with
  | nil =>
    rw [List.map_nil, write]
    exact hread.takes rfl (by decide) fun rest _ => rfl
  | cons a xs =>
    rw [List.map_cons, write]
    refine hread.takes rfl (by decide) fun rest _ => ?_
    have ha := h a List.mem_cons_self
    obtain ⟨c, cs, hcs, hc⟩ := ha.starts
    have hlength := length_le_length_commas (item (layout.map (·+1))) (xs.map encode)
    rw [writeItems_cons]
    simp only [List.cons_append, List.append_assoc, List.nil_append]
    rw [readList, skipSpace_cons (by decide)]
    refine mapError_eq_ok (readItems_item ha (nextItem_first hcs hc _) ?_
      (readItems_rest (fun b hb => h b (List.mem_cons_of_mem a hb)) layout ?_ rest)) _
    · exact delimited_commas _ _ (delimited_lineBreak (by decide) layout rest)
    · simp only [List.length_append, List.length_cons, List.length_map] at hlength ⊢
      omega

def member (layout : Option Nat) (m : String × Json) : List Char :=
  lineBreak layout ++ (quote m.1 ++ (colon layout ++ write layout m.2))

theorem writeMembers_cons (layout : Option Nat) (m : String × Json) (ms : List (String × Json)) :
    writeMembers layout (m :: ms) =
      member layout m ++ ms.flatMap fun n => ',' :: member layout n := by
  induction ms generalizing m with
  | nil => simp [writeMembers, member]
  | cons n ns ih =>
    rw [writeMembers, ih n, List.flatMap_cons]
    simp [member]

theorem nextKey_first (m : String × Json) (rest : List Char) :
    nextKey true (member layout m ++ rest) =
      .ok (.more m.1 (colon layout ++ (write layout m.2 ++ rest))) := by
  rw [member, List.append_assoc, List.append_assoc, List.append_assoc]
  exact nextKey_quote (opens_first layout) m.1 _

theorem nextKey_comma (m : String × Json) (rest : List Char) :
    nextKey false (',' :: (member layout m ++ rest)) =
      .ok (.more m.1 (colon layout ++ (write layout m.2 ++ rest))) := by
  rw [member, List.append_assoc, List.append_assoc, List.append_assoc]
  exact nextKey_quote (opens_comma layout) m.1 _

theorem isColon_colon (layout : Option Nat) : IsColon (colon layout) := by
  cases layout with
  | none => exact show IsColon ([] ++ ':' :: []) from .mk rfl rfl
  | some indent => exact show IsColon ([] ++ ':' :: [' ']) from .mk rfl rfl

/-- The members take a draft to another one, each as its key is read. -/
inductive Folds (read : δ → String → Reader δ) (layout : Option Nat) :
    δ → List (String × Json) → δ → Prop
  | nil {d} : Folds read layout d [] d
  | cons {d d' d'' name x ms}
      (hm : ∀ rest, Delimited rest →
        read d name (colon layout ++ (write layout x ++ rest)) = .ok (d', rest))
      (hs : Folds read layout d' ms d'') : Folds read layout d ((name, x) :: ms) d''

variable {read : δ → String → Reader δ} {d d' d'' : δ}

/-- The members behind the first one, and the brace. -/
theorem readMembers_rest {ms : List (String × Json)} (h : Folds read layout d ms d')
    (outer : Option Nat) {fuel : Nat} (hfuel : ms.length < fuel) (rest : List Char) :
    readMembers read fuel false d
      (ms.flatMap (fun m => ',' :: member layout m) ++ (lineBreak outer ++ '\x7d' :: rest)) =
        .ok (d', rest) := by
  induction h generalizing fuel with
  | nil =>
    cases fuel with
    | zero => cases hfuel
    | succ fuel =>
      have hclose := nextKey_close false (all_isSpace_lineBreak outer) rest
      simp [readMembers, hclose, bind, Except.bind, pure, Except.pure]
  | @cons d e d' name x ms hm hs ih =>
    cases fuel with
    | zero => cases hfuel
    | succ fuel =>
      have hd := delimited_commas (member layout) ms
        (delimited_lineBreak (c := '\x7d') (by decide) outer rest)
      rw [List.flatMap_cons, List.append_assoc, List.cons_append, readMembers, nextKey_comma]
      simp only [bind, Except.bind, hm _ hd]
      exact ih (Nat.lt_of_succ_lt_succ hfuel)

/-- The text of an object behind its brace. -/
theorem readMembers_object {ms : List (String × Json)} (layout : Option Nat)
    (h : Folds read (layout.map (·+1)) d ms d') :
    ∃ body, write layout (.object ms) = '\x7b' :: body ∧ ∀ rest,
      readMembers read ((body ++ rest).length+1) true d (body ++ rest) = .ok (d', rest) := by
  cases h with
  | nil =>
    refine ⟨['\x7d'], by rw [write], fun rest => ?_⟩
    rfl
  | @cons d e d' name x ms hm hs =>
    refine ⟨writeMembers (layout.map (·+1)) ((name, x) :: ms) ++ (lineBreak layout ++ ['\x7d']),
      by rw [write]; simp, fun rest => ?_⟩
    have hd := delimited_commas (member (layout.map (·+1))) ms
      (delimited_lineBreak (c := '\x7d') (by decide) layout rest)
    have hlength := length_le_length_commas (member (layout.map (·+1))) ms
    rw [writeMembers_cons]
    simp only [List.cons_append, List.append_assoc, List.nil_append]
    rw [readMembers, nextKey_first]
    simp only [bind, Except.bind, hm _ hd]
    refine readMembers_rest hs layout ?_ rest
    simp only [List.length_append, List.length_cons] at hlength ⊢
    omega

theorem head?_write_object (ms : List (String × Json)) (layout : Option Nat) :
    (write layout (.object ms)).head? ≠ some 'n' := by
  cases ms <;> simp [write]

/-- The members of an object, in written order. -/
def members : Json → List (String × Json)
  | .object ms => ms
  | _ => []

/-- Without the members that have one of the names. -/
def without (names : List String) (j : Json) : Json :=
  .object (j.members.filter fun m => m.1 ∉ names)

theorem without_nil (ms : List (String × Json)) : (object ms).without [] = .object ms := by
  simp [without, members]

/-- What a draft holds of a field when the members of these names are left out. -/
def unlessIn (names : List String) (name : String) (b : β) : Option β :=
  if name ∈ names then none else some b

theorem unlessIn_of_not_mem {names : List String} {name : String} (h : name ∉ names) (b : β) :
    unlessIn names name b = some b := if_neg h

theorem getD_unlessIn {names : List String} {name : String} {b default : β}
    (h : name ∈ names → b = default) : (unlessIn names name b).getD default = b := by
  by_cases hn : name ∈ names
  · rw [unlessIn, if_pos hn, h hn]
    rfl
  · rw [unlessIn_of_not_mem hn]
    rfl

namespace Record

variable {r : Record δ α} {levels : Nat}

/-- A member is taken by the field of its name, if that was not given before. -/
theorem folds_cons {f : Field δ} {name : String} {x : Json} {ms : List (String × Json)}
    (hf : r.fields.find? (fun f => f.name = name) = some f) (hg : f.isGiven d = false)
    (hx : Takes (f.read levels d) (write layout x) d')
    (hs : Folds (r.readMember levels) layout d' ms d'') :
    Folds (r.readMember levels) layout d ((name, x) :: ms) d'' := by
  refine .cons (fun rest hd => ?_) hs
  obtain ⟨gap, hgap, hcolon⟩ := readColon_append (isColon_colon layout)
  simp only [readMember, hf, hg, hcolon, bind, Except.bind]
  exact hx.reads gap rest hgap hd

/-- A member that may be left out is taken by the field of its name, if it is written. -/
theorem folds_unlessIn {names : List String} {f : Field δ}
    {name : String} {x : Json} {ms : List (String × Json)} (set : Option β → δ) (b : β)
    (hf : r.fields.find? (fun f => f.name = name) = some f) (hg : f.isGiven (set none) = false)
    (hx : Takes (f.read levels (set none)) (write layout x) (set (some b)))
    (hs : Folds (r.readMember levels) layout (set (unlessIn names name b))
      (ms.filter fun m => m.1 ∉ names) d) :
    Folds (r.readMember levels) layout (set none)
      (((name, x) :: ms).filter fun m => m.1 ∉ names) d := by
  by_cases hn : name ∈ names
  · rw [unlessIn, if_pos hn] at hs
    rwa [List.filter_cons_of_neg (by simpa using hn)]
  · rw [unlessIn_of_not_mem hn] at hs
    rw [List.filter_cons_of_pos (by simpa using hn)]
    exact folds_cons hf hg hx hs

/-- A record reads back when its members lead to a complete draft. -/
theorem takes_read {ms : List (String × Json)} {a : α} (layout : Option Nat)
    (h : Folds (r.readMember levels) (layout.map (·+1)) r.blank ms d)
    (hc : r.complete d = .ok a) : Takes (r.read (levels+1)) (write layout (.object ms)) a := by
  obtain ⟨body, hbody, hread⟩ := readMembers_object layout h
  rw [hbody]
  refine (r.skipsSpace_read (levels+1)).takes rfl (by decide) fun rest _ => ?_
  rw [List.cons_append, read, skipSpace_cons (by decide)]
  show r.readObject levels (body ++ rest) = _
  rw [readObject, mapError_eq_ok (hread rest)]
  simp only [bind, Except.bind, hc]
  rfl

end Record

/-- A whole text that is taken is decoded. -/
theorem decode_of_takes {read : Nat → Reader α} {text : List Char} {a : α}
    (h : Takes (read maxLevels) text a) : decode read (String.ofList text) = .ok a := by
  have hread := h.reads [] [] rfl delimited_nil
  rw [List.nil_append, List.append_nil] at hread
  rw [decode, String.toList_ofList, hread]
  rfl

end HardFork.Json
