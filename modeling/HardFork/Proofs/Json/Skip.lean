import HardFork.Proofs.Json.Items

/-! # Passing over values

Whatever value is written, passing over it stops where it ends. The moves over the text follow the
grammar: a bracket is entered, the items are passed over one by one, and the bracket is left. -/
namespace HardFork.Json

variable {t : Tree} {gap colon text rest : List Char}

def Frame.opening : Frame → Char
  | .list => '['
  | .object => '\x7b'

def Tree.isScalar : Tree → Bool
  | array _ | object _ => false
  | _ => true

theorem skipScalar_append (ht : Writes t text) (hs : t.isScalar) (hd : Delimited rest) :
    skipScalar (text ++ rest) = .ok rest := by
  cases ht with
  | null => rfl
  | bool b => cases b <;> rfl
  | number h =>
    have hread := readNumeral_append (.malformed .invalidNumber) h hd
    obtain ⟨c, cs, rfl, hc⟩ := h.starts
    rw [List.cons_append] at hread ⊢
    simp only [skipScalar, ne_of_startsNumeral hc, if_false, hc, if_true, hread]
    rfl
  | string s => exact skipString_literal s rest
  | array => cases hs
  | object => cases hs

theorem skipKey_append (hg : gap.all isSpace) (key : Literal) (hc : IsColon colon) :
    ∃ after, after.all isSpace ∧
      ∀ rest, skipKey (gap ++ (key.text ++ (colon ++ rest))) = .ok (after ++ rest) := by
  obtain ⟨after, ha, hcolon⟩ := readColon_append hc
  refine ⟨after, ha, fun rest => ?_⟩
  have hkey := skipString_literal key (colon ++ rest)
  rw [skipKey, skipSpace_append hg, Literal.text, List.cons_append, skipSpace_cons (by decide)]
  simp only [if_true, bind, Except.bind, hkey, hcolon]

variable (frame : Frame) (frames : List Frame)

theorem isSpace_closing : isSpace frame.closing = false := by cases frame <;> rfl

/-- The bracket is left. -/
theorem skipStep_close (hg : gap.all isSpace) (rest : List Char) :
    skipStep true (frame :: frames) (gap ++ frame.closing :: rest) = .ok (true, frames, rest) := by
  rw [skipStep, skipSpace_append hg, skipSpace_cons (isSpace_closing frame)]
  simp only [if_true]

/-- The next item is gone to. -/
theorem skipStep_comma (hg : gap.all isSpace) {cs cs' : List Char}
    (h : skipToItem frame cs = .ok cs') :
    skipStep true (frame :: frames) (gap ++ ',' :: cs) = .ok (false, frame :: frames, cs') := by
  have hne : ',' ≠ frame.closing := by cases frame <;> decide
  rw [skipStep, skipSpace_append hg, skipSpace_cons (by decide)]
  simp only [hne, if_false, if_true, h]
  rfl

/-- An empty bracket is passed over. -/
theorem skipStep_empty (hg : gap.all isSpace) {inner : List Char} (hi : inner.all isSpace)
    (rest : List Char) :
    skipStep false frames (gap ++ frame.opening :: (inner ++ frame.closing :: rest)) =
      .ok (true, frames, rest) := by
  have hinner : skipSpace (inner ++ frame.closing :: rest) = frame.closing :: rest := by
    rw [skipSpace_append hi, skipSpace_cons (isSpace_closing frame)]
  cases frame
  all_goals
    rw [skipStep, skipSpace_append hg, Frame.opening, skipSpace_cons (by decide)]
    simp only [hinner, if_true]

/-- A bracket is entered. -/
theorem skipStep_enter (hg : gap.all isSpace) {cs cs' : List Char}
    (h : skipToItem frame cs = .ok cs') {c : Char} {behind : List Char}
    (hcs : skipSpace cs = c :: behind) (hc : c ≠ frame.closing) :
    skipStep false frames (gap ++ frame.opening :: cs) = .ok (false, frame :: frames, cs') := by
  cases frame
  all_goals
    rw [skipStep, skipSpace_append hg, Frame.opening, skipSpace_cons (by decide)]
    simp only [hcs, hc, if_false, h]
    rfl

/-- A scalar is passed over. -/
theorem skipStep_scalar (ht : Writes t text) (hs : t.isScalar) (hg : gap.all isSpace)
    (hd : Delimited rest) :
    skipStep false frames (gap ++ (text ++ rest)) = .ok (true, frames, rest) := by
  have hscalar := skipScalar_append ht hs hd
  obtain ⟨c, cs, rfl, hc⟩ := ht.begins
  rw [List.cons_append] at hscalar ⊢
  rw [skipStep, skipSpace_append hg, skipSpace_cons (Tree.isSpace_of_begins hc)]
  split
  · rename_i heq
    obtain rfl := (List.cons.inj heq).1
    obtain ⟨xs, rfl⟩ := Tree.eq_array_of_begins hc
    cases hs
  · rename_i heq
    obtain rfl := (List.cons.inj heq).1
    obtain ⟨ms, rfl⟩ := Tree.eq_object_of_begins hc
    cases hs
  · rw [hscalar]
    rfl

/-- At most `n` moves lead from one place in the text to another one. -/
def Passes (n : Nat) (here there : Bool × List Frame × List Char) : Prop :=
  ∃ k ≤ n, ∀ fuel, skipFrom (fuel+k) here.1 here.2.1 here.2.2 =
    skipFrom fuel there.1 there.2.1 there.2.2

namespace Passes

variable {n m : Nat} {here there beyond : Bool × List Frame × List Char}

theorem step {ended : Bool} {frames : List Frame} {cs : List Char}
    (h : skipStep ended frames cs = .ok there) : Passes 1 (ended, frames, cs) there := by
  refine ⟨1, Nat.le_refl 1, fun fuel => ?_⟩
  obtain ⟨ended', frames', cs'⟩ := there
  cases ended with
  | false =>
    show skipFrom (fuel+1) false frames cs = _
    rw [skipFrom, h]
    · rfl
    · simp
  | true =>
    cases frames with
    | nil =>
      cases h
      simp only [skipFrom]
    | cons frame frames =>
      show skipFrom (fuel+1) true (frame :: frames) cs = _
      rw [skipFrom, h]
      · rfl
      · simp

theorem trans (h : Passes n here there) (h' : Passes m there beyond) :
    Passes (n+m) here beyond := by
  obtain ⟨k, hk, hfuel⟩ := h
  obtain ⟨k', hk', hfuel'⟩ := h'
  refine ⟨k'+k, by omega, fun fuel => ?_⟩
  rw [← Nat.add_assoc, hfuel, hfuel']

theorem mono (hn : n ≤ m) (h : Passes n here there) : Passes m here there := by
  obtain ⟨k, hk, hfuel⟩ := h
  exact ⟨k, Nat.le_trans hk hn, hfuel⟩

end Passes

theorem passes_scalar (ht : Writes t text) (hs : t.isScalar) (hg : gap.all isSpace)
    (hd : Delimited rest) :
    Passes text.length (false, frames, gap ++ (text ++ rest)) (true, frames, rest) := by
  have hstep := skipStep_scalar frames ht hs hg hd
  obtain ⟨c, cs, rfl, -⟩ := ht.begins
  exact (Passes.step hstep).mono (by simp)

-- The induction is on how the text is written, general in the open brackets. Scalars have moves of
-- their own; an empty bracket is one move; any other bracket is entered, and its first item has no
-- comma in front, so the items behind it are stated apart.
mutual
/-- A value is passed over whatever brackets are open. -/
theorem passes_value {t : Tree} {text : List Char} (h : Writes t text) (frames : List Frame)
    {gap rest : List Char} (hg : gap.all isSpace) (hd : Delimited rest) :
    Passes text.length (false, frames, gap ++ (text ++ rest)) (true, frames, rest) := by
  cases h with
  | null => exact passes_scalar frames .null rfl hg hd
  | bool b => exact passes_scalar frames (.bool b) rfl hg hd
  | number hn => exact passes_scalar frames (.number hn) rfl hg hd
  | string s => exact passes_scalar frames (.string s) rfl hg hd
  | array hitems =>
    cases hitems with
    | @close _ inner hi =>
      have hempty := skipStep_empty .list frames hg hi rest
      rw [List.cons_append, List.append_assoc]
      exact (Passes.step hempty).mono (by simp)
    | @item _ lead x text xs body ho hx hs =>
      obtain @⟨_, hi⟩ := ho
      obtain ⟨c, cs, hcs, hc⟩ := hx.begins
      have hskip : skipSpace (lead ++ (text ++ (body ++ rest))) = c :: (cs ++ (body ++ rest)) := by
        rw [skipSpace_append hi, hcs, List.cons_append, skipSpace_cons (Tree.isSpace_of_begins hc)]
      have hclose : c ≠ ']' := by
        rintro rfl
        exact absurd (Tree.startsValue_of_begins hc) (by decide)
      have henter := skipStep_enter .list frames hg rfl hskip hclose
      have hvalue := passes_value hx (.list :: frames) hi (hs.delimited rest)
      have hrest := passes_items hs frames rest
      have hall := (Passes.step henter).trans (hvalue.trans hrest)
      rw [List.cons_append, List.append_assoc, List.append_assoc]
      exact hall.mono (by simp; omega)
  | object hmembers =>
    cases hmembers with
    | @close _ inner hi =>
      have hempty := skipStep_empty .object frames hg hi rest
      rw [List.cons_append, List.append_assoc]
      exact (Passes.step hempty).mono (by simp)
    | @member _ lead key colon x text ms body ho hc hx hs =>
      obtain @⟨_, hi⟩ := ho
      obtain ⟨after, ha, hkey⟩ := skipKey_append hi key hc
      have hskip : skipSpace (lead ++ (key.text ++ (colon ++ (text ++ (body ++ rest))))) =
          '"' :: (key.untilQuote ++ (colon ++ (text ++ (body ++ rest)))) := by
        rw [skipSpace_append hi, Literal.text, List.cons_append, skipSpace_cons (by decide)]
      have henter := skipStep_enter .object frames hg (hkey (text ++ (body ++ rest))) hskip
        (by decide)
      have hvalue := passes_value hx (.object :: frames) ha (hs.delimited rest)
      have hrest := passes_members hs frames rest
      have hall := (Passes.step henter).trans (hvalue.trans hrest)
      simp only [List.cons_append, List.append_assoc]
      exact hall.mono (by simp; omega)
theorem passes_items {xs : List Tree} {body : List Char} (h : WritesItems false xs body)
    (frames : List Frame) (rest : List Char) :
    Passes body.length (true, .list :: frames, body ++ rest) (true, frames, rest) := by
  cases h with
  | @close _ gap hg =>
    have hclose := skipStep_close .list frames hg rest
    rw [List.append_assoc]
    exact (Passes.step hclose).mono (by simp)
  | @item _ lead x text xs body ho hx hs =>
    obtain - | @⟨before, after, hb, ha⟩ := ho
    have hcomma : skipStep true (.list :: frames)
        (before ++ ',' :: (after ++ (text ++ (body ++ rest)))) =
          .ok (false, .list :: frames, after ++ (text ++ (body ++ rest))) :=
      skipStep_comma .list frames hb rfl
    have hvalue := passes_value hx (.list :: frames) ha (hs.delimited rest)
    have hrest := passes_items hs frames rest
    have hall := (Passes.step hcomma).trans (hvalue.trans hrest)
    simp only [List.append_assoc, List.cons_append]
    exact hall.mono (by simp; omega)
theorem passes_members {ms : List (Literal × Tree)} {body : List Char}
    (h : WritesMembers false ms body) (frames : List Frame) (rest : List Char) :
    Passes body.length (true, .object :: frames, body ++ rest) (true, frames, rest) := by
  cases h with
  | @close _ gap hg =>
    have hclose := skipStep_close .object frames hg rest
    rw [List.append_assoc]
    exact (Passes.step hclose).mono (by simp)
  | @member _ lead key colon x text ms body ho hc hx hs =>
    obtain - | @⟨before, after, hb, ha⟩ := ho
    obtain ⟨gap, hg, hkey⟩ := skipKey_append ha key hc
    have hcomma := skipStep_comma .object frames hb (hkey (text ++ (body ++ rest)))
    have hvalue := passes_value hx (.object :: frames) hg (hs.delimited rest)
    have hrest := passes_members hs frames rest
    have hall := (Passes.step hcomma).trans (hvalue.trans hrest)
    simp only [List.append_assoc, List.cons_append]
    exact hall.mono (by simp; omega)
end

/-- Passing over a value stops where it ends. -/
theorem skipValue_append (ht : Writes t text) (hg : gap.all isSpace)
    (hd : Delimited rest) : skipValue (gap ++ (text ++ rest)) = .ok rest := by
  obtain ⟨k, hk, hpasses⟩ := passes_value ht [] hg hd
  have hfuel : (gap ++ (text ++ rest)).length+1 = (gap ++ (text ++ rest)).length+1-k+k := by
    simp only [List.length_append]
    omega
  rw [skipValue, hfuel]
  refine (hpasses _).trans ?_
  simp only [skipFrom]

end HardFork.Json
