import VmControl.Text.Blank

/-!
# Cutting text into fields

Two ways to take a text apart: at one separator character, which keeps empty fields, and at runs
of delimiters, which drops them.  A cut loses nothing but the separator itself, which
`cutFirst_eq_some` and `cutLast_eq_some` state.
-/

namespace VmControl.Text

/-- The number of bytes that the text takes in UTF-8. -/
def byteLength : List Char → Nat
  | [] => 0
  | c :: cs => c.utf8Size + byteLength cs

@[simp] theorem byteLength_nil : byteLength [] = 0 := rfl

@[simp] theorem byteLength_cons (c : Char) (cs : List Char) :
    byteLength (c :: cs) = c.utf8Size + byteLength cs := rfl

@[simp] theorem byteLength_append (cs ds : List Char) :
    byteLength (cs ++ ds) = byteLength cs + byteLength ds := by
  induction cs with
  | nil => simp
  | cons c cs ih =>
    simp only [List.cons_append, byteLength_cons, ih]
    omega

/-! ## One separator -/

/-- The text before and after the first `sep`. -/
def cutFirst (sep : Char) : List Char → Option (List Char × List Char)
  | [] => none
  | c :: cs =>
    if c = sep then some ([], cs)
    else (cutFirst sep cs).map fun (before, after) => (c :: before, after)

/-- The text before and after the last `sep`. -/
def cutLast (sep : Char) : List Char → Option (List Char × List Char)
  | [] => none
  | c :: cs =>
    match cutLast sep cs with
    | some (before, after) => some (c :: before, after)
    | none => if c = sep then some ([], cs) else none

/-- The text before and after the first occurrence of the two characters `a` and `b` in a row. -/
def cutPair (a b : Char) : List Char → Option (List Char × List Char)
  | [] => none
  | [_] => none
  | c :: d :: cs =>
    if c = a ∧ d = b then some ([], cs)
    else (cutPair a b (d :: cs)).map fun (before, after) => (c :: before, after)

theorem cutFirst_eq_some {sep : Char} {cs before after : List Char} :
    cutFirst sep cs = some (before, after) ↔
      cs = before ++ sep :: after ∧ sep ∉ before := by
  induction cs generalizing before with
  | nil => simp [cutFirst]
  | cons c cs ih =>
    by_cases hc : c = sep
    · subst hc
      cases before with
      | nil => simp [cutFirst, eq_comm]
      | cons b bs => simp +contextual [cutFirst, eq_comm]
    · cases before with
      | nil => simp [cutFirst, hc]
      | cons b bs =>
        simp only [cutFirst, hc, if_false, Option.map_eq_some_iff, Prod.exists, Prod.mk.injEq,
          List.cons.injEq, List.cons_append, List.mem_cons, not_or]
        constructor
        · rintro ⟨x, y, h, ⟨rfl, rfl⟩, rfl⟩
          exact ⟨⟨rfl, (ih.1 h).1⟩, fun h' => hc h'.symm, (ih.1 h).2⟩
        · rintro ⟨⟨rfl, h⟩, _, h'⟩
          exact ⟨bs, after, ih.2 ⟨h, h'⟩, ⟨rfl, rfl⟩, rfl⟩

theorem cutFirst_eq_none {sep : Char} {cs : List Char} : cutFirst sep cs = none ↔ sep ∉ cs := by
  induction cs with
  | nil => simp [cutFirst]
  | cons c cs ih =>
    by_cases hc : c = sep
    · simp [cutFirst, hc]
    · simp [cutFirst, hc, ih, Ne.symm hc]

theorem cutLast_eq_none {sep : Char} {cs : List Char} : cutLast sep cs = none ↔ sep ∉ cs := by
  induction cs with
  | nil => simp [cutLast]
  | cons c cs ih =>
    cases h : cutLast sep cs with
    | none =>
      have hno := ih.1 h
      by_cases hc : c = sep
      · simp [cutLast, h, hc]
      · simp [cutLast, h, hc, hno, Ne.symm hc]
    | some p =>
      have hyes : sep ∈ cs := by
        by_cases hmem : sep ∈ cs
        · exact hmem
        · rw [ih.2 hmem] at h; cases h
      simp [cutLast, h, hyes]

theorem cutLast_eq_some {sep : Char} {cs before after : List Char} :
    cutLast sep cs = some (before, after) ↔
      cs = before ++ sep :: after ∧ sep ∉ after := by
  induction cs generalizing before after with
  | nil => simp [cutLast]
  | cons c cs ih =>
    cases h : cutLast sep cs with
    | none =>
      have hno := cutLast_eq_none.1 h
      cases before with
      | nil =>
        by_cases hc : c = sep
        · simp only [cutLast, h, hc, if_true, List.nil_append, Option.some.injEq, Prod.mk.injEq,
            List.cons.injEq, true_and]
          exact ⟨fun e => ⟨e, e ▸ hno⟩, And.left⟩
        · simp [cutLast, h, hc]
      | cons b bs =>
        have hne : cs ≠ bs ++ sep :: after := fun e => hno (by simp [e])
        by_cases hc : c = sep <;> simp [cutLast, h, hc, hne]
    | some p =>
      obtain ⟨x, y⟩ := p
      have hxy := ih.1 h
      cases before with
      | nil =>
        have hmem : cs = after → sep ∈ after := fun e => e ▸ hxy.1 ▸ by simp
        simp only [cutLast, h, Option.some.injEq, Prod.mk.injEq, reduceCtorEq, false_and,
          List.nil_append, List.cons.injEq, false_iff, not_and, Decidable.not_not]
        exact fun e => hmem e.2
      | cons b bs =>
        simp only [cutLast, h, Option.some.injEq, Prod.mk.injEq, List.cons.injEq, List.cons_append]
        constructor
        · rintro ⟨⟨rfl, rfl⟩, rfl⟩
          exact ⟨⟨rfl, hxy.1⟩, hxy.2⟩
        · rintro ⟨⟨rfl, h₁⟩, h₂⟩
          have e := h.symm.trans (ih.2 ⟨h₁, h₂⟩)
          simp only [Option.some.injEq, Prod.mk.injEq] at e
          exact ⟨⟨rfl, e.1⟩, e.2⟩

/-- The fields between the separators, empty ones included: one more than there are separators. -/
def fields (sep : Char) : List Char → List (List Char)
  | [] => [[]]
  | c :: cs =>
    if c = sep then [] :: fields sep cs
    else
      match fields sep cs with
      | [] => [[c]]
      | f :: fs => (c :: f) :: fs

/-! ## Runs of delimiters -/

theorem length_dropWhile_le (p : Char → Bool) (cs : List Char) :
    (cs.dropWhile p).length ≤ cs.length := by
  induction cs with
  | nil => simp
  | cons c cs ih =>
    rw [List.dropWhile_cons]
    split
    · simp only [List.length_cons]; omega
    · simp

/-- The longest runs of characters outside `delim`, in order. -/
def words (delim : Char → Bool) : List Char → List (List Char)
  | [] => []
  | c :: cs =>
    if delim c then words delim cs
    else (c :: cs.takeWhile fun d => !delim d) :: words delim (cs.dropWhile fun d => !delim d)
termination_by cs => cs.length
decreasing_by
  · simp
  · simpa [Nat.lt_succ_iff] using length_dropWhile_le _ cs

/-- The first word and, if anything but delimiters follows it, all that follows the delimiters
after it, unchanged. -/
def firstWord (delim : Char → Bool) (cs : List Char) : List (List Char) :=
  match cs.dropWhile delim with
  | [] => []
  | c :: rest =>
    let word := c :: rest.takeWhile fun d => !delim d
    match (rest.dropWhile fun d => !delim d).dropWhile delim with
    | [] => [word]
    | after => [word, after]

/-- The words between blanks. -/
def blankWords (cs : List Char) : List (List Char) := words isBlank cs

/-- The part before the first line end. -/
def firstLine (cs : List Char) : List Char :=
  cs.takeWhile fun c => c != '\n' && c != '\r'

/-- The last component of a path, unless it is the root or a parent reference.  Empty components
and `.` do not count. -/
def baseName (cs : List Char) : Option (List Char) :=
  match ((fields '/' cs).filter fun f => f != [] && f != ['.']).getLast? with
  | some name => if name = ['.', '.'] then none else some name
  | none => none

end VmControl.Text
