import VmControl.Proofs.Safety.Value
import VmControl.Proofs.Text.Cut

/-!
# Texts as words with gaps around them

Whatever the delimiters are, a text is a row of words with gaps around them: one in front, and one
behind each word.  A gap has delimiters only, and none between two words is empty.  There is one
such row for each text, and its words are what the text is split into.  If it is split once, the
first word is followed by the text behind the gap after it, whatever that holds.

## Main definitions

* `Spacing`: words with the gaps around them.
* `IsMaximal`: a word reaches as far as it can on both sides.
* `IsFirstWord`: what a text is split into once.

## Main statements

* `Spacing.words_text`, `exists_spacing`: which words a text has.
* `words_eq_append_cons_iff`: the words are the maximal ones, in their order.
* `firstWord_eq_iff`: what the first word and the rest are.
* `words_are_maximal`: all of this, and that splitting ends.
-/

namespace VmControl.Text

/-- Whether a text is a gap: it has delimiters only. -/
def IsGap (p : Char → Bool) (g : List Char) : Prop := ∀ c ∈ g, p c = true

/-- Words with the gaps around them. -/
structure Spacing (p : Char → Bool) where
  /-- The gap in front of the first word. -/
  lead : List Char
  /-- The words, each with the gap behind it. -/
  parts : List (List Char × List Char)
  lead_isGap : IsGap p lead
  isWord : ∀ part ∈ parts, IsWord p part.1
  isGap : ∀ part ∈ parts, IsGap p part.2
  /-- Only behind the last word a gap may be empty. -/
  separated : ∀ part ∈ parts.dropLast, part.2 ≠ []

namespace Spacing

variable {p : Char → Bool}

/-- The words without the gaps. -/
def words (s : Spacing p) : List (List Char) := s.parts.map Prod.fst

/-- The text that the words and gaps make up. -/
def text (s : Spacing p) : List Char := s.lead ++ s.parts.flatMap fun part => part.1 ++ part.2

end Spacing

/-- Whether `w`, with `x` in front of it and `y` behind it, is a word that reaches as far as it can:
a delimiter or nothing is next to it. -/
structure IsMaximal (p : Char → Bool) (x w y : List Char) : Prop where
  isWord : IsWord p w
  before : ∀ c ∈ x.getLast?, p c = true
  behind : ∀ c ∈ y.head?, p c = true

/-- What a text is split into once. -/
inductive IsFirstWord (p : Char → Bool) : List Char → List (List Char) → Prop where
  /-- A gap has no word. -/
  | nothing {g : List Char} (hg : IsGap p g) : IsFirstWord p g []
  /-- A word that only gaps are around. -/
  | alone {lead w g : List Char} (hlead : IsGap p lead) (hw : IsWord p w) (hg : IsGap p g) :
    IsFirstWord p (lead ++ (w ++ g)) [w]
  /-- A word that is followed by more than a gap: all that is behind the gap, as it is. -/
  | followed {lead w g rest : List Char} {c : Char} (hlead : IsGap p lead) (hw : IsWord p w)
    (hg : IsGap p g) (hne : g ≠ []) (hc : p c = false) :
    IsFirstWord p (lead ++ (w ++ (g ++ c :: rest))) [w, c :: rest]

section Words

variable {p : Char → Bool} {g w x y cs : List Char} {ws before after : List (List Char)}

/-! ## Gaps and words in front -/

theorem isGap_nil : IsGap p [] := List.forall_mem_nil _

/-- A text starts with a delimiter if a gap is in front of all that is not one. -/
theorem IsGap.delim_of_head?_append (hg : IsGap p g) (hne : g ≠ []) (y : List Char) :
    ∀ c ∈ (g ++ y).head?, p c = true := by
  rw [List.head?_append_of_ne_nil g hne]
  exact fun c hc => hg c (List.mem_of_mem_head? hc)

theorem words_gap_append (hg : IsGap p g) (cs : List Char) : words p (g ++ cs) = words p cs := by
  induction g with
  | nil => rfl
  | cons d g ih =>
    obtain ⟨hd, hg⟩ := List.forall_mem_cons.1 hg
    rw [List.cons_append, words, if_pos hd, ih hg]

theorem words_of_isGap (hg : IsGap p g) : words p g = [] := by
  have hnothing := words_gap_append hg []
  rwa [List.append_nil, words] at hnothing

/-- A word in front of a delimiter, or of nothing, is the first one. -/
theorem words_word_append (hw : IsWord p w) (hrest : ∀ c ∈ y.head?, p c = true) :
    words p (w ++ y) = w :: words p y := by
  cases y with
  | nil => rw [List.append_nil, words_of_isWord hw, words]
  | cons d y =>
    have hd : p d = true := hrest d rfl
    have hskip : words p (d :: y) = words p y := by rw [words, if_pos hd]
    rw [words_append_cons hd, words_of_isWord hw, hskip, List.singleton_append]

/-- Behind the characters that are no delimiters comes a delimiter, or nothing. -/
theorem delim_of_head?_dropWhile (p : Char → Bool) (cs : List Char) :
    ∀ c ∈ (cs.dropWhile fun d => !p d).head?, p c = true := by
  intro c hc
  have hnot := List.head?_dropWhile_not (fun d => !p d) cs
  rw [Option.mem_def.1 hc] at hnot
  simpa using hnot

theorem isWord_cons_takeWhile {c : Char} (hc : ¬ p c = true) (cs : List Char) :
    IsWord p (c :: cs.takeWhile fun d => !p d) where
  ne_nil := List.cons_ne_nil _ _
  not_delim := List.forall_mem_cons.2 ⟨Bool.eq_false_iff.2 hc, fun d hd => by
    simpa using List.mem_takeWhile_imp hd⟩

theorem IsWord.exists_cons (hw : IsWord p w) : ∃ c cs, w = c :: cs ∧ p c = false := by
  obtain ⟨c, cs, rfl⟩ := List.exists_cons_of_ne_nil hw.ne_nil
  exact ⟨c, cs, rfl, hw.not_delim c (List.mem_cons_self ..)⟩

/-! ## Words with gaps around them -/

/-- The parts behind the lead have their words. -/
theorem words_flatMap {parts : List (List Char × List Char)}
    (hwords : ∀ part ∈ parts, IsWord p part.1) (hgaps : ∀ part ∈ parts, IsGap p part.2)
    (hseparated : ∀ part ∈ parts.dropLast, part.2 ≠ []) :
    words p (parts.flatMap fun part => part.1 ++ part.2) = parts.map Prod.fst := by
  induction parts with
  | nil => rw [List.flatMap_nil, words, List.map_nil]
  | cons part parts ih =>
    obtain ⟨hw, hwords⟩ := List.forall_mem_cons.1 hwords
    obtain ⟨hg, hgaps⟩ := List.forall_mem_cons.1 hgaps
    have hrest : words p (parts.flatMap fun part => part.1 ++ part.2) = parts.map Prod.fst := by
      refine ih hwords hgaps fun part' hmem => hseparated part' ?_
      cases parts with
      | nil => cases hmem
      | cons next parts => exact List.mem_cons_of_mem part hmem
    -- The word ends at its gap, or at the end of the text.
    have hbehind : ∀ c ∈ (part.2 ++ parts.flatMap fun part => part.1 ++ part.2).head?,
        p c = true := by
      cases parts with
      | nil =>
        rw [List.flatMap_nil, List.append_nil]
        exact fun c hc => hg c (List.mem_of_mem_head? hc)
      | cons next parts =>
        exact hg.delim_of_head?_append (hseparated part (List.mem_cons_self ..)) _
    rw [List.flatMap_cons, List.append_assoc, words_word_append hw hbehind, words_gap_append hg,
      hrest, List.map_cons]

/-- **Words with gaps around them are split into those words.** -/
theorem Spacing.words_text (s : Spacing p) : Text.words p s.text = s.words := by
  rw [text, words_gap_append s.lead_isGap, words_flatMap s.isWord s.isGap s.separated]
  rfl

/-- A text that starts with a delimiter has a gap in front. -/
theorem Spacing.lead_ne_nil {s : Spacing p} (h : ∀ c ∈ s.text.head?, p c = true)
    (hparts : s.parts ≠ []) : s.lead ≠ [] := by
  intro hlead
  obtain ⟨part, parts, hcons⟩ := List.exists_cons_of_ne_nil hparts
  obtain ⟨c, w, hw, hc⟩ := (s.isWord part (hcons ▸ List.mem_cons_self ..)).exists_cons
  have hhead : s.text.head? = some c := by simp [text, hlead, hcons, hw]
  rw [h c hhead] at hc
  cases hc

/-- **Every text is words with gaps around them.** -/
theorem exists_spacing (p : Char → Bool) (cs : List Char) : ∃ s : Spacing p, s.text = cs := by
  induction cs using words.induct p with
  | case1 =>
    exact ⟨⟨[], [], isGap_nil, List.forall_mem_nil _, List.forall_mem_nil _, List.forall_mem_nil _⟩,
      rfl⟩
  | case2 c cs hc ih =>
    obtain ⟨s, rfl⟩ := ih
    have hlead : IsGap p (c :: s.lead) := List.forall_mem_cons.2 ⟨hc, s.lead_isGap⟩
    exact ⟨⟨c :: s.lead, s.parts, hlead, s.isWord, s.isGap, s.separated⟩, rfl⟩
  | case3 c cs hc ih =>
    obtain ⟨s, hs⟩ := ih
    have hhead : ∀ d ∈ s.text.head?, p d = true := hs ▸ delim_of_head?_dropWhile p cs
    refine ⟨⟨[], (c :: cs.takeWhile fun d => !p d, s.lead) :: s.parts, isGap_nil, ?_, ?_, ?_⟩, ?_⟩
    · exact List.forall_mem_cons.2 ⟨isWord_cons_takeWhile hc cs, s.isWord⟩
    · exact List.forall_mem_cons.2 ⟨s.lead_isGap, s.isGap⟩
    · intro part hpart
      by_cases hparts : s.parts = []
      · rw [hparts] at hpart
        cases hpart
      · rw [List.dropLast_cons_of_ne_nil hparts] at hpart
        rcases List.mem_cons.1 hpart with rfl | hpart
        · exact s.lead_ne_nil hhead hparts
        · exact s.separated part hpart
    · calc (c :: cs.takeWhile fun d => !p d) ++ s.lead ++
          s.parts.flatMap fun part => part.1 ++ part.2
        _ = c :: ((cs.takeWhile fun d => !p d) ++ s.text) := by
            rw [Spacing.text, List.append_assoc, List.cons_append]
        _ = c :: cs := by rw [hs, List.takeWhile_append_dropWhile]

/-- **A text has some words exactly if it is these words with gaps around them.** -/
theorem words_eq_iff : words p cs = ws ↔ ∃ s : Spacing p, s.text = cs ∧ s.words = ws := by
  constructor
  · rintro rfl
    obtain ⟨s, rfl⟩ := exists_spacing p cs
    exact ⟨s, rfl, s.words_text.symm⟩
  · rintro ⟨s, rfl, rfl⟩
    exact s.words_text

/-- **The words are what is left of a text without the delimiters.** -/
theorem flatten_words (p : Char → Bool) (cs : List Char) :
    (words p cs).flatten = cs.filter fun c => !p c := by
  induction cs using words.induct p with
  | case1 => rw [words, List.flatten_nil, List.filter_nil]
  | case2 c cs hc ih => rw [words, if_pos hc, ih, List.filter_cons_of_neg (by simp [hc])]
  | case3 c cs hc ih =>
    have htake : (cs.takeWhile fun d => !p d).filter (fun d => !p d) = cs.takeWhile fun d => !p d :=
      List.filter_eq_self.2 fun d hd => List.mem_takeWhile_imp (p := fun d => !p d) hd
    have hsplit : cs.filter (fun d => !p d) = (cs.takeWhile fun d => !p d) ++
        (cs.dropWhile fun d => !p d).filter fun d => !p d := by
      conv_lhs => rw [← List.takeWhile_append_dropWhile (p := fun d => !p d) (l := cs)]
      rw [List.filter_append, htake]
    rw [words, if_neg hc, List.flatten_cons, ih, List.filter_cons_of_pos (by simp [hc]), hsplit,
      List.cons_append]

/-! ## Maximal words -/

/-- A maximal word stands between the words of what is in front of it and of what is behind it. -/
theorem IsMaximal.words_eq (h : IsMaximal p x w y) :
    words p (x ++ (w ++ y)) = words p x ++ w :: words p y := by
  rcases List.eq_nil_or_concat x with rfl | ⟨x', d, rfl⟩
  · rw [List.nil_append, words_word_append h.isWord h.behind, words]
    rfl
  · have hd : p d = true := h.before d (by simp)
    rw [List.concat_eq_append, List.append_assoc, List.singleton_append, words_append_cons hd,
      words_append_cons hd, words_word_append h.isWord h.behind, words, List.append_nil]

/-- Every word is a maximal one. -/
theorem exists_isMaximal (h : words p cs = before ++ w :: after) :
    ∃ x y, cs = x ++ (w ++ y) ∧ IsMaximal p x w y ∧ words p x = before ∧ words p y = after := by
  induction cs using words.induct p generalizing before with
  | case1 =>
    rw [words] at h
    exact absurd h (by simp)
  | case2 c cs hc ih =>
    rw [words, if_pos hc] at h
    obtain ⟨x, y, rfl, hmax, hx, hy⟩ := ih h
    refine ⟨c :: x, y, rfl, ⟨hmax.isWord, fun d hd => ?_, hmax.behind⟩, ?_, hy⟩
    · cases x with
      | nil =>
        cases hd
        exact hc
      | cons e x => exact hmax.before d (by rwa [List.getLast?_cons_cons] at hd)
    · rw [words, if_pos hc, hx]
  | case3 c cs hc ih =>
    have hcs : c :: cs = (c :: cs.takeWhile fun d => !p d) ++ cs.dropWhile fun d => !p d := by
      rw [List.cons_append, List.takeWhile_append_dropWhile]
    have hword := isWord_cons_takeWhile hc cs
    have hbehind := delim_of_head?_dropWhile p cs
    rw [words, if_neg hc] at h
    cases before with
    | nil =>
      obtain ⟨rfl, rfl⟩ := List.cons.inj h
      exact ⟨[], _, hcs, ⟨hword, by simp, hbehind⟩, by rw [words], rfl⟩
    | cons b before =>
      obtain ⟨rfl, hrest⟩ := List.cons.inj h
      obtain ⟨x, y, hxy, hmax, hx, hy⟩ := ih hrest
      rw [hxy] at hbehind
      -- What is between this word and the next one starts with a delimiter.
      have hne : x ≠ [] := by
        rintro rfl
        obtain ⟨d, w', rfl, hd⟩ := hmax.isWord.exists_cons
        rw [hbehind d rfl] at hd
        cases hd
      rw [List.head?_append_of_ne_nil x hne] at hbehind
      refine ⟨(c :: cs.takeWhile fun d => !p d) ++ x, y, ?_, ⟨hmax.isWord, ?_, hmax.behind⟩, ?_, hy⟩
      · rw [hcs, hxy, List.append_assoc]
      · rw [List.getLast?_append_of_ne_nil _ hne]
        exact hmax.before
      · rw [words_word_append hword hbehind, hx]

/-- **The words of a text are its maximal ones, in their order.** -/
theorem words_eq_append_cons_iff : words p cs = before ++ w :: after ↔
    ∃ x y, cs = x ++ (w ++ y) ∧ IsMaximal p x w y ∧ words p x = before ∧ words p y = after := by
  constructor
  · exact exists_isMaximal
  · rintro ⟨x, y, rfl, hmax, rfl, rfl⟩
    exact hmax.words_eq

/-! ## The first word -/

theorem firstWord_of_isGap (hg : IsGap p g) : firstWord p g = [] := by
  rw [firstWord, List.dropWhile_eq_nil_iff.2 hg]

/-- The first word ends at a delimiter, or at the end of the text. -/
theorem firstWord_gap_append (hg : IsGap p g) (hw : IsWord p w)
    (hbehind : ∀ c ∈ y.head?, p c = true) : firstWord p (g ++ (w ++ y)) =
      if y.dropWhile p = [] then [w] else [w, y.dropWhile p] := by
  obtain ⟨c, cs, rfl, hc⟩ := hw.exists_cons
  have hnot : ∀ d ∈ cs, (!p d) = true := fun d hd => by
    simp [hw.not_delim d (List.mem_cons_of_mem c hd)]
  have htake : (cs ++ y).takeWhile (fun d => !p d) = cs := by
    rw [List.takeWhile_append_of_pos hnot]
    cases y with
    | nil => simp
    | cons d y => simp [hbehind d rfl]
  have hdrop : (cs ++ y).dropWhile (fun d => !p d) = y := by
    rw [List.dropWhile_append_of_pos hnot]
    cases y with
    | nil => simp
    | cons d y => simp [hbehind d rfl]
  rw [firstWord, List.dropWhile_append_of_pos hg, List.cons_append,
    List.dropWhile_cons_of_neg (by simp [hc])]
  simp only [htake, hdrop]
  cases y.dropWhile p <;> rfl

theorem IsFirstWord.firstWord_eq (h : IsFirstWord p cs ws) : firstWord p cs = ws := by
  cases h with
  | nothing hg => exact firstWord_of_isGap hg
  | @alone lead w g hlead hw hg =>
    have hbehind : ∀ c ∈ g.head?, p c = true := fun c hc => hg c (List.mem_of_mem_head? hc)
    rw [firstWord_gap_append hlead hw hbehind, if_pos (List.dropWhile_eq_nil_iff.2 hg)]
  | @followed lead w g rest c hlead hw hg hne hc =>
    have hbehind := hg.delim_of_head?_append hne (c :: rest)
    have hdrop : (g ++ c :: rest).dropWhile p = c :: rest := by
      rw [List.dropWhile_append_of_pos hg, List.dropWhile_cons_of_neg (by simp [hc])]
    rw [firstWord_gap_append hlead hw hbehind, hdrop, if_neg (List.cons_ne_nil c rest)]

theorem isFirstWord_firstWord (p : Char → Bool) (cs : List Char) :
    IsFirstWord p cs (firstWord p cs) := by
  obtain ⟨⟨lead, parts, hlead, hwords, hgaps, hseparated⟩, rfl⟩ := exists_spacing p cs
  -- One part is a word alone, and two are a word that is followed by the next one.
  have hfirst : ∃ ws, IsFirstWord p (lead ++ parts.flatMap fun part => part.1 ++ part.2) ws := by
    match parts with
    | [] => exact ⟨_, .nothing (by simpa using hlead)⟩
    | [(w, g)] =>
      have hw : IsWord p w := hwords (w, g) (by simp)
      have hg : IsGap p g := hgaps (w, g) (by simp)
      exact ⟨_, by simpa using IsFirstWord.alone hlead hw hg⟩
    | (w, g) :: (v, h) :: parts =>
      have hw : IsWord p w := hwords (w, g) (by simp)
      have hg : IsGap p g := hgaps (w, g) (by simp)
      have hne : g ≠ [] := hseparated (w, g) (by simp)
      obtain ⟨c, cs, rfl, hc⟩ := (hwords (v, h) (by simp)).exists_cons
      exact ⟨_, by simpa using IsFirstWord.followed hlead hw hg hne hc⟩
  obtain ⟨ws, hfirst⟩ := hfirst
  exact hfirst.firstWord_eq.symm ▸ hfirst

/-- **A text is split once into its first word and what is behind the gap after it.** -/
theorem firstWord_eq_iff : firstWord p cs = ws ↔ IsFirstWord p cs ws := by
  constructor
  · rintro rfl
    exact isFirstWord_firstWord p cs
  · exact IsFirstWord.firstWord_eq

theorem IsFirstWord.length_le (h : IsFirstWord p cs ws) : ws.length ≤ 2 := by
  cases h <;> simp

theorem IsFirstWord.head?_eq (h : IsFirstWord p cs ws) : ws.head? = (words p cs).head? := by
  cases h with
  | nothing hg => rw [words_of_isGap hg]
  | @alone lead w g hlead hw hg =>
    have hbehind : ∀ c ∈ g.head?, p c = true := fun c hc => hg c (List.mem_of_mem_head? hc)
    rw [words_gap_append hlead, words_word_append hw hbehind]
    rfl
  | @followed lead w g rest c hlead hw hg hne hc =>
    have hbehind := hg.delim_of_head?_append hne (c :: rest)
    rw [words_gap_append hlead, words_word_append hw hbehind]
    rfl

/-- **A text is split into its maximal words.**  It has some words exactly if it is these words with
gaps around them, none of which is empty between two words; they are all of its maximal words in
their order, and what is left of it without the delimiters.  Split once, it has at most two parts:
the first word and, if more than a gap follows it, all that is behind the gap.  Both ways of
splitting end, and cut no character. -/
theorem words_are_maximal (p : Char → Bool) (cs : List Char) :
    (∀ ws, words p cs = ws ↔ ∃ s : Spacing p, s.text = cs ∧ s.words = ws) ∧
    (∀ before w after, words p cs = before ++ w :: after ↔
      ∃ x y, cs = x ++ (w ++ y) ∧ IsMaximal p x w y ∧ words p x = before ∧ words p y = after) ∧
    (words p cs).flatten = (cs.filter fun c => !p c) ∧
    (∀ parts, firstWord p cs = parts ↔ IsFirstWord p cs parts) ∧
    (firstWord p cs).head? = (words p cs).head? ∧ (firstWord p cs).length ≤ 2 ∧
    Checked.split p false cs = .ok (words p cs) ∧ Checked.split p true cs = .ok (firstWord p cs) :=
  ⟨fun _ => words_eq_iff, fun _ _ _ => words_eq_append_cons_iff, flatten_words p cs,
    fun _ => firstWord_eq_iff, (isFirstWord_firstWord p cs).head?_eq,
    (isFirstWord_firstWord p cs).length_le, Checked.split_eq_words p cs,
    Checked.split_eq_firstWord p cs⟩

/-- An expiration has its key in front of the first colon, and keeps the colons of its date. -/
example : firstWord (· == ':') "date:2030-01-01T10:00:00".toList =
    ["date".toList, "2030-01-01T10:00:00".toList] := by decide

end Words

end VmControl.Text
