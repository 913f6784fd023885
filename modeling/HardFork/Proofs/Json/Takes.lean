import HardFork.Json.Record

/-! # Texts that a reader takes

A reader takes a value from a text when it does so behind any space and in front of anything that
may follow a value. The law says nothing of how the text is made, so it composes along the readers:
under a field, in a list, in an object. -/
namespace HardFork.Json

variable {α β δ : Type}

/-- A value begins with the letter of a word, a quote, a bracket, a minus or a digit. -/
def startsValue (c : Char) : Bool := c ∈ ['n', 't', 'f', '"', '[', '\x7b'] || startsNumeral c

/-- The end, space, a comma or a closing bracket may follow a value. -/
def endsValue (c : Char) : Bool := isSpace c || c ∈ [',', ']', '\x7d']

def Delimited (rest : List Char) : Prop := ∀ c ∈ rest.head?, endsValue c

structure Takes (read : Reader α) (text : List Char) (a : α) : Prop where
  starts : ∃ c cs, text = c :: cs ∧ startsValue c
  reads : ∀ gap rest, gap.all isSpace → Delimited rest →
    read (gap ++ (text ++ rest)) = .ok (a, rest)

theorem not_isSpace_of_startsValue {c : Char} (h : startsValue c) : isSpace c = false := by
  rw [Bool.eq_false_iff]
  intro hs
  simp only [isSpace, Bool.or_eq_true, decide_eq_true_eq] at hs
  rcases hs with ((rfl | rfl) | rfl) | rfl <;> exact absurd h (by decide)

theorem skipSpace_append {gap : List Char} (hg : gap.all isSpace) (cs : List Char) :
    skipSpace (gap ++ cs) = skipSpace cs :=
  List.dropWhile_append_of_pos fun c hc => List.all_eq_true.mp hg c hc

theorem skipSpace_cons {c : Char} (hc : isSpace c = false) (cs : List Char) :
    skipSpace (c :: cs) = c :: cs :=
  List.dropWhile_cons_of_neg (by simp [hc])

theorem delimited_nil : Delimited [] := by simp [Delimited]

theorem delimited_cons {c : Char} (hc : endsValue c) (rest : List Char) :
    Delimited (c :: rest) := by
  simpa [Delimited] using hc

def SkipsSpace (read : Reader α) : Prop :=
  ∀ gap cs, gap.all isSpace → read (gap ++ cs) = read cs

theorem skipsSpace_readNatural : SkipsSpace readNatural := by
  intro gap cs hg
  rw [readNatural, skipSpace_append hg, readNatural]

theorem skipsSpace_readBool : SkipsSpace readBool := by
  intro gap cs hg
  rw [readBool, skipSpace_append hg, readBool]

theorem skipsSpace_readText (wanted : Wanted) : SkipsSpace (readText wanted) := by
  intro gap cs hg
  rw [readText, skipSpace_append hg, readText]

theorem skipsSpace_readOption (read : Reader α) : SkipsSpace (readOption read) := by
  intro gap cs hg
  rw [readOption, skipSpace_append hg, readOption]

theorem skipsSpace_readList (item : Nat → Reader α) (levels : Nat) :
    SkipsSpace (readList item levels) := by
  intro gap cs hg
  rw [readList, skipSpace_append hg, readList]

theorem Record.skipsSpace_read (r : Record δ α) (levels : Nat) : SkipsSpace (r.read levels) := by
  intro gap cs hg
  rw [read, skipSpace_append hg, read]

/-- Only lists and objects depend on the levels that are left. -/
theorem readValue_eq_readAny (levels : Nat) :
    ∃ list object, readValue levels = readAny list object := by
  cases levels <;> exact ⟨_, _, rfl⟩

theorem skipsSpace_readAny (list object : Reader Json) : SkipsSpace (readAny list object) := by
  intro gap cs hg
  rw [readAny, skipSpace_append hg, readAny]

/-- It is enough to look at the text behind the space. -/
theorem SkipsSpace.takes {read : Reader α} (hread : SkipsSpace read) {a : α} {c : Char}
    {text cs : List Char} (ht : text = c :: cs) (hc : startsValue c)
    (h : ∀ rest, Delimited rest → read (text ++ rest) = .ok (a, rest)) : Takes read text a where
  starts := ⟨c, cs, ht, hc⟩
  reads gap rest hg hd := (hread gap (text ++ rest) hg).trans (h rest hd)

namespace Takes

variable {read : Reader α} {text : List Char} {a : α}

theorem map (h : Takes read text a) (f : α → β) :
    Takes (fun cs => do let (a, rest) ← read cs; return (f a, rest)) text (f a) where
  starts := h.starts
  reads gap rest hg hd := by rw [h.reads gap rest hg hd]; rfl

end Takes
end HardFork.Json
