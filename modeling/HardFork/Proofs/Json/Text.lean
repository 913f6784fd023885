import HardFork.Proofs.Json.Grammar
import HardFork.Proofs.Json.Takes

/-! # Strings read back

A literal is read piece by piece, and read to its end when its code units pair up. A string is
written as such a literal: each character as itself, as a letter behind a backslash or, for the
other control characters, as four digits. -/
namespace HardFork.Json

theorem toOption_bind {ε α β : Type} (x : Except ε α) (f : α → Except ε β) :
    (x >>= f).toOption = x.toOption.bind fun a => (f a).toOption := by
  cases x <;> rfl

theorem toOption_mapError {ε ε' α : Type} (f : ε → ε') (x : Except ε α) :
    (x.mapError f).toOption = x.toOption := by
  cases x <;> rfl

theorem mapError_eq_ok {ε ε' α : Type} {x : Except ε α} {a : α} (h : x = .ok a) (f : ε → ε') :
    x.mapError f = .ok a := by
  rw [h]
  rfl

theorem toOption_eq_some_iff {ε α : Type} {x : Except ε α} {a : α} :
    x.toOption = some a ↔ x = .ok a := by
  cases x <;> simp [Except.toOption]

theorem length_le_length_flatMap {α β : Type} {f : α → List β} (h : ∀ a, f a ≠ []) (xs : List α) :
    xs.length ≤ (xs.flatMap f).length := by
  induction xs with
  | nil => exact Nat.le_refl 0
  | cons x xs ih =>
    have hx : 0 < (f x).length := List.length_pos_iff.mpr (h x)
    simp only [List.length_cons, List.flatMap_cons, List.length_append]
    omega

variable {ds : List Char} {n : Nat}

@[simp] theorem Literal.untilQuote_cons (p : Piece) (s : Literal) :
    Literal.untilQuote (p :: s) = p.text ++ Literal.untilQuote s := by
  simp [untilQuote]

theorem Literal.decode?_unit {h : IsCodeUnit ds n}
    (hlow : isLowSurrogate n = false) (hhigh : isHighSurrogate n = false) (s : Literal) :
    Literal.decode? (.unit ds n h :: s) = s.decode?.map (Char.ofNat n :: ·) := by
  rcases s with _ | ⟨p, s⟩
  · simp [decode?, hlow, hhigh]
  · cases p <;> simp [decode?, hlow, hhigh]

theorem readUnit_append (h : IsCodeUnit ds n) (rest : List Char) :
    readUnit (ds ++ rest) = .ok (n, rest) := by
  have hoctets : ds.length ≤ (ds.flatMap String.utf8EncodeChar).length :=
    length_le_length_flatMap (fun c => List.length_pos_iff.mp (by simp [Char.utf8Size_pos])) ds
  have htake : (ds ++ rest).take 4 = ds := List.take_left' h.1
  have hdrop : (ds ++ rest).drop 4 = rest := List.drop_left' h.1
  have hfour : ¬ (ds.flatMap String.utf8EncodeChar).length < 4 := by
    have hlength := h.1
    omega
  simp only [readUnit, htake, hdrop, hfour, if_false, h.2]

theorem readEscape_letter {c e : Char} (h : escaped? c = some e) (rest : List Char) :
    readEscape (c :: rest) = .ok (e, rest) := by
  rw [readEscape]
  · simp only [h]
  · rintro rfl
    cases h

theorem readCodePoint_low (h : IsCodeUnit ds n) (hlow : isLowSurrogate n) (rest : List Char) :
    (readCodePoint (ds ++ rest)).toOption = none := by
  simp only [readCodePoint, readUnit_append h, bind, Except.bind, hlow, if_true]
  rfl

/-- A high surrogate is followed by a code unit or refused. -/
theorem readCodePoint_high (h : IsCodeUnit ds n) (hlow : ¬ isLowSurrogate n)
    (hhigh : isHighSurrogate n) {s : Literal}
    (hs : ∀ ds low h s', s = .unit ds low h :: s' → False) (rest : List Char) :
    (readCodePoint (ds ++ (s.untilQuote ++ rest))).toOption = none := by
  simp only [readCodePoint, readUnit_append h, bind, Except.bind, hlow, hhigh, if_true]
  cases s with
  | nil => rfl
  | cons p s =>
    cases p with
    | plain c hc =>
      -- no escape follows
      have hbackslash := hc.2.1
      rw [Literal.untilQuote_cons, Piece.text, List.append_assoc, List.singleton_append]
      split
      all_goals simp_all [malformed, Except.toOption]
    | letter c e hc =>
      have hu : c ≠ 'u' := by
        rintro rfl
        cases hc
      rw [Literal.untilQuote_cons, Piece.text, List.append_assoc]
      split
      all_goals simp_all [malformed, Except.toOption]
    | unit ds low hd => exact (hs ds low hd s rfl).elim

/-- More fuel than `n` reads the characters `r` and leaves the rest. -/
def ReadsChars (n : Nat) (cs : List Char) (r : Option (List Char)) (rest : List Char) : Prop :=
  ∀ fuel, n < fuel → (readChars fuel cs).toOption = r.map (·, rest)

namespace ReadsChars

variable {c : Char} {cs cs' rest : List Char} {r : Option (List Char)}

theorem plain (hc : IsPlain c) (h : ReadsChars n cs r rest) :
    ReadsChars (n+1) (c :: cs) (r.map (c :: ·)) rest
  | fuel+1, hfuel => by
    rw [readChars, if_neg hc.1, if_neg hc.2.1, if_neg (Nat.not_lt.mpr hc.2.2), toOption_bind,
      h fuel (Nat.lt_of_succ_lt_succ hfuel)]
    cases r <;> rfl

theorem escaped (hc : readEscape cs = .ok (c, cs')) (h : ReadsChars n cs' r rest) :
    ReadsChars (n+1) ('\\' :: cs) (r.map (c :: ·)) rest
  | fuel+1, hfuel => by
    rw [readChars, if_neg (by decide), if_pos rfl, hc]
    show (readChars fuel cs' >>= _).toOption = _
    rw [toOption_bind, h fuel (Nat.lt_of_succ_lt_succ hfuel)]
    cases r <;> rfl

theorem refused (hc : (readEscape cs).toOption = none) : ReadsChars n ('\\' :: cs) none rest
  | 0, hfuel => absurd hfuel (Nat.not_lt_zero n)
  | fuel+1, _ => by
    rw [readChars, if_neg (by decide), if_pos rfl, toOption_bind, hc]
    rfl

theorem mono {m : Nat} (hn : n ≤ m) (h : ReadsChars n cs r rest) : ReadsChars m cs r rest :=
  fun fuel hfuel => h fuel (Nat.lt_of_le_of_lt hn hfuel)

end ReadsChars

theorem untilQuote_unit_append (h : IsCodeUnit ds n) (s : Literal) (rest : List Char) :
    Literal.untilQuote (.unit ds n h :: s) ++ rest =
      '\\' :: 'u' :: (ds ++ (s.untilQuote ++ rest)) := by
  simp [Piece.text]

/-- A literal is read as its characters. -/
theorem readsChars_literal (s : Literal) (rest : List Char) :
    ReadsChars s.length (s.untilQuote ++ rest) s.decode? rest := by
  fun_induction Literal.decode? s with
  | case1 =>
    rintro (_ | fuel) hfuel
    · cases hfuel
    · rfl
  | case2 c hc s ih =>
    rw [Literal.untilQuote_cons]
    exact ih.plain hc
  | case3 c e he s ih =>
    rw [Literal.untilQuote_cons]
    exact ih.escaped (readEscape_letter he _)
  | case4 ds n h s hlow =>
    rw [untilQuote_unit_append]
    exact .refused (readCodePoint_low h hlow _)
  | case5 ds n h hlow hhigh ds' low h' s hpair ih =>
    rw [untilQuote_unit_append, untilQuote_unit_append]
    refine (ih.escaped ?_).mono (Nat.le_succ _)
    simp only [readEscape, readCodePoint, readUnit_append h, bind, Except.bind, hlow, hhigh,
      readLowSurrogate, readUnit_append h', hpair, if_true]
    rfl
  | case6 ds n h hlow hhigh ds' low h' s hpair =>
    rw [untilQuote_unit_append, untilQuote_unit_append]
    refine .refused ?_
    simp only [readEscape, readCodePoint, readUnit_append h, bind, Except.bind, hlow, hhigh,
      readLowSurrogate, readUnit_append h', hpair, if_true]
    rfl
  | case7 ds n h s hlow hhigh hs =>
    rw [untilQuote_unit_append]
    exact .refused (readCodePoint_high h hlow hhigh hs rest)
  | case8 ds n h s hlow hhigh ih =>
    rw [untilQuote_unit_append]
    refine ih.escaped ?_
    simp only [readEscape, readCodePoint, readUnit_append h, bind, Except.bind, hlow, hhigh]
    rfl

theorem length_le_length_untilQuote (s : Literal) : s.length < s.untilQuote.length := by
  have hpieces : s.length ≤ (s.flatMap Piece.text).length :=
    length_le_length_flatMap (fun p => by cases p <;> simp [Piece.text]) s
  simp only [Literal.untilQuote, List.length_append, List.length_singleton]
  omega

theorem toOption_readString (s : Literal) (rest : List Char) :
    (readString (s.untilQuote ++ rest)).toOption = s.name?.map (·, rest) := by
  have hfuel : s.length < (s.untilQuote ++ rest).length := by
    rw [List.length_append]
    exact Nat.lt_add_right _ (length_le_length_untilQuote s)
  rw [readString, toOption_bind, readsChars_literal s rest _ hfuel, Literal.name?]
  cases s.decode? <;> rfl

theorem skipChars_escaped {fuel : Nat} {cs cs' : List Char} (h : skipEscape cs = .ok cs') :
    skipChars (fuel+1) ('\\' :: cs) = skipChars fuel cs' := by
  rw [skipChars, if_neg (by decide), if_pos rfl, h]
  rfl

theorem skipEscape_letter {c e : Char} (h : escaped? c = some e) (rest : List Char) :
    skipEscape (c :: rest) = .ok rest := by
  rw [skipEscape]
  · simp only [h, Option.isSome_some, if_true]
  · rintro rfl
    cases h

theorem skipEscape_unit (h : IsCodeUnit ds n) (rest : List Char) :
    skipEscape ('u' :: (ds ++ rest)) = .ok rest := by
  rw [skipEscape, readUnit_append h]
  rfl

theorem skipChars_literal (s : Literal) {fuel : Nat} (hfuel : s.length < fuel) (rest : List Char) :
    skipChars fuel (s.untilQuote ++ rest) = .ok rest := by
  induction s generalizing fuel with
  | nil =>
    cases fuel with
    | zero => cases hfuel
    | succ fuel => rfl
  | cons p s ih =>
    cases fuel with
    | zero => cases hfuel
    | succ fuel =>
      refine Eq.trans ?_ (ih (Nat.lt_of_succ_lt_succ hfuel))
      rw [Literal.untilQuote_cons]
      cases p with
      | plain c hc =>
        simp [Piece.text, skipChars, hc.1, hc.2.1, Nat.not_lt.mpr hc.2.2]
      | letter c e he => exact skipChars_escaped (skipEscape_letter he _)
      | unit ds n h =>
        rw [← Literal.untilQuote_cons, untilQuote_unit_append]
        exact skipChars_escaped (skipEscape_unit h _)

/-- Every literal is passed over, also one that spells no characters. -/
theorem skipString_literal (s : Literal) (rest : List Char) :
    skipString (s.untilQuote ++ rest) = .ok rest := by
  refine skipChars_literal s ?_ rest
  rw [List.length_append]
  exact Nat.lt_add_right _ (length_le_length_untilQuote s)

/-- The digits of a control character. -/
def controlDigits (n : Nat) : List Char := ['0', '0', (n/16).digitChar, (n%16).digitChar]

theorem controlEscape_eq {c : Char} (h : c.toNat < 0x20) :
    controlEscape c = '\\' :: 'u' :: controlDigits c.toNat := by
  have hall : ∀ n < 0x20, controlEscape (Char.ofNat n) = '\\' :: 'u' :: controlDigits n := by decide
  simpa using hall c.toNat h

theorem isCodeUnit_controlDigits {n : Nat} (h : n < 0x20) : IsCodeUnit (controlDigits n) n := by
  have hall : ∀ n < 0x20, hexRanks? (controlDigits n) = some n := by decide
  exact ⟨rfl, hall n h⟩

/-- A character is written as one piece. -/
theorem exists_piece (c : Char) : ∃ p : Piece, p.text = escape c ∧
    ∀ s : Literal, Literal.decode? (p :: s) = s.decode?.map (c :: ·) := by
  unfold escape
  split
  · rename_i h
    simp only [Bool.or_eq_true, decide_eq_true_eq] at h
    exact ⟨.letter c c (by rcases h with rfl | rfl <;> rfl), rfl, fun _ => rfl⟩
  split
  · exact ⟨.letter 'b' c (by subst_vars; rfl), rfl, fun _ => rfl⟩
  split
  · exact ⟨.letter 'f' c (by subst_vars; rfl), rfl, fun _ => rfl⟩
  split
  · exact ⟨.letter 'n' c (by subst_vars; rfl), rfl, fun _ => rfl⟩
  split
  · exact ⟨.letter 'r' c (by subst_vars; rfl), rfl, fun _ => rfl⟩
  split
  · exact ⟨.letter 't' c (by subst_vars; rfl), rfl, fun _ => rfl⟩
  split
  · rename_i h
    have hlow : isLowSurrogate c.toNat = false := by simp [isLowSurrogate]; omega
    have hhigh : isHighSurrogate c.toNat = false := by simp [isHighSurrogate]; omega
    refine ⟨.unit (controlDigits c.toNat) c.toNat (isCodeUnit_controlDigits h), ?_, fun s => ?_⟩
    · rw [controlEscape_eq h, Piece.text]
    · rw [Literal.decode?_unit hlow hhigh, Char.ofNat_toNat]
  · rename_i hquote _ _ _ _ _ hcontrol
    simp only [Bool.or_eq_true, decide_eq_true_eq, not_or] at hquote
    exact ⟨.plain c ⟨hquote.1, hquote.2, Nat.not_lt.mp hcontrol⟩, rfl, fun _ => rfl⟩

theorem exists_literal (xs : List Char) : ∃ s : Literal,
    s.untilQuote = xs.flatMap escape ++ ['"'] ∧ s.decode? = some xs := by
  induction xs with
  | nil => exact ⟨[], rfl, rfl⟩
  | cons c xs ih =>
    obtain ⟨p, htext, hdecode⟩ := exists_piece c
    obtain ⟨s, hs, hxs⟩ := ih
    refine ⟨p :: s, ?_, ?_⟩
    · rw [Literal.untilQuote_cons, htext, hs, List.flatMap_cons, List.append_assoc]
    · rw [hdecode, hxs]
      rfl

/-- A string reads back, whatever characters it has. -/
theorem readString_quote (s : String) (rest : List Char) :
    readString (s.toList.flatMap escape ++ '"' :: rest) = .ok (s, rest) := by
  obtain ⟨l, hl, hdecode⟩ := exists_literal s.toList
  have hread := toOption_readString l rest
  rw [hl, List.append_assoc, List.singleton_append, Literal.name?, hdecode] at hread
  rw [toOption_eq_some_iff.mp hread, String.ofList_toList]

theorem quote_append (s : String) (rest : List Char) :
    quote s ++ rest = '"' :: (s.toList.flatMap escape ++ '"' :: rest) := by
  simp [quote]

theorem takes_readText (wanted : Wanted) (s : String) (layout : Option Nat) :
    Takes (readText wanted) (write layout (.string s)) s := by
  rw [write]
  refine (skipsSpace_readText wanted).takes rfl (by decide) fun rest _ => ?_
  rw [quote_append, readText, skipSpace_cons (by decide)]
  exact readString_quote s rest

theorem takes_readAny_string (list object : Reader Json) (s : String) (layout : Option Nat) :
    Takes (readAny list object) (write layout (.string s)) (.string s) := by
  rw [write]
  refine (skipsSpace_readAny list object).takes rfl (by decide) fun rest _ => ?_
  rw [quote_append, readAny, skipSpace_cons (by decide)]
  simp [readString_quote, bind, Except.bind, pure, Except.pure]

end HardFork.Json
