import Mathlib.Data.List.Infix
import Mathlib.Data.List.TakeWhile
import VmControl.Text.Cut

/-!
# Texts cut and joined

A text of fields between separators, and a text of words between delimiters, is cut into just the
parts that it was joined from, as long as no part has the character that stands between them.  A cut
at two characters in a row takes their first occurrence.

## Main statements

* `fields_eq_iff`: which texts have given fields.
* `fields_append`, `fields_map`: the fields of a text that goes on, or whose characters are changed.
* `words_intercalate`, `isWord_of_mem_words`: words that are joined, and the words of any text.
* `cutPair_eq_some`, `cutPair_eq_none`: where a text is cut at a pair of characters.
* `cutPair_intercalate`: fields are cut at the first two separators in a row.
-/

namespace VmControl.Text

/-! ## Fields -/

section Fields

variable {sep : Char} {cs last : List Char} {fs : List (List Char)}

/-- The fields of a text are what the list library splits it into. -/
theorem fields_eq_splitOn (sep : Char) (cs : List Char) : fields sep cs = cs.splitOn sep := by
  induction cs with
  | nil => rfl
  | cons c cs ih =>
    rw [fields, List.splitOn_cons_eq_if_modifyHead, ih]
    by_cases hc : c = sep
    · simp [hc]
    · cases hsplit : cs.splitOn sep with
      | nil => exact absurd hsplit (List.splitOn_ne_nil sep cs)
      | cons f fs => simp [hc]

theorem fields_ne_nil (sep : Char) (cs : List Char) : fields sep cs ≠ [] := by
  rw [fields_eq_splitOn]
  exact List.splitOn_ne_nil sep cs

theorem intercalate_fields (sep : Char) (cs : List Char) :
    [sep].intercalate (fields sep cs) = cs := by
  rw [fields_eq_splitOn, List.intercalate_splitOn]

/-- The fields on both sides of a separator. -/
theorem fields_append_cons (sep : Char) (cs ds : List Char) :
    fields sep (cs ++ sep :: ds) = fields sep cs ++ fields sep ds := by
  simp only [fields_eq_splitOn, List.splitOn_append_cons_self]

theorem notMem_of_mem_fields {f : List Char} (h : f ∈ fields sep cs) : sep ∉ f := by
  induction cs generalizing f with
  | nil =>
    obtain rfl := List.mem_singleton.1 h
    exact List.not_mem_nil
  | cons c cs ih =>
    rw [fields] at h
    split at h
    · rcases List.mem_cons.1 h with rfl | h
      · exact List.not_mem_nil
      · exact ih h
    · next hc =>
      split at h
      · obtain rfl := List.mem_singleton.1 h
        exact fun hmem => hc (List.mem_singleton.1 hmem).symm
      · next g gs hgs =>
        rw [hgs] at ih
        rcases List.mem_cons.1 h with rfl | h
        · rw [List.mem_cons, not_or]
          exact ⟨fun heq => hc heq.symm, ih (List.mem_cons_self ..)⟩
        · exact ih (List.mem_cons_of_mem _ h)

/-- **A text has some fields exactly if it is those fields with the separator between them**, and
the separator is in none of them. -/
theorem fields_eq_iff :
    fields sep cs = fs ↔ fs ≠ [] ∧ (∀ f ∈ fs, sep ∉ f) ∧ cs = [sep].intercalate fs := by
  constructor
  · rintro rfl
    exact ⟨fields_ne_nil _ _, fun f hf => notMem_of_mem_fields hf, (intercalate_fields ..).symm⟩
  · rintro ⟨hne, hfs, rfl⟩
    rw [fields_eq_splitOn]
    exact List.splitOn_intercalate sep hfs hne

/-- Whether a text can be a field that is not empty: it has no separator. -/
structure IsField (sep : Char) (f : List Char) : Prop where
  ne_nil : f ≠ []
  notMem : sep ∉ f

theorem fields_intercalate (hne : fs ≠ []) (hfs : ∀ f ∈ fs, IsField sep f) :
    fields sep ([sep].intercalate fs) = fs :=
  fields_eq_iff.2 ⟨hne, fun f hf => (hfs f hf).notMem, rfl⟩

/-- A character between or in fields is the separator, or is in one of them. -/
theorem mem_of_mem_intercalate {c : Char} (h : c ∈ [sep].intercalate fs) :
    c = sep ∨ ∃ f ∈ fs, c ∈ f := by
  induction fs with
  | nil => cases h
  | cons f fs ih =>
    cases fs with
    | nil =>
      rw [List.intercalate_singleton] at h
      exact .inr ⟨f, List.mem_cons_self .., h⟩
    | cons g gs =>
      rw [List.intercalate_cons_cons, List.mem_append, List.mem_append, List.mem_singleton] at h
      rcases h with (h | h) | h
      · exact .inr ⟨f, List.mem_cons_self .., h⟩
      · exact .inl h
      · exact (ih h).imp_right fun ⟨f', hf', hmem⟩ => ⟨f', List.mem_cons_of_mem _ hf', hmem⟩

/-- Two fields have a separator between them. -/
theorem sep_mem_intercalate (h : 1 < fs.length) : sep ∈ [sep].intercalate fs := by
  match fs, h with
  | f :: g :: fs, _ => simp

/-- Fields on both sides of a separator are joined by it. -/
theorem intercalate_append {gs : List (List Char)} (hfs : fs ≠ []) (hgs : gs ≠ []) :
    [sep].intercalate (fs ++ gs) = [sep].intercalate fs ++ sep :: [sep].intercalate gs := by
  induction fs with
  | nil => exact absurd rfl hfs
  | cons f fs ih =>
    cases fs with
    | nil =>
      cases gs with
      | nil => exact absurd rfl hgs
      | cons g gs => simp
    | cons f' fs =>
      have hrest := ih (List.cons_ne_nil f' fs)
      simp only [List.cons_append, List.intercalate_cons_cons, List.append_assoc] at hrest ⊢
      rw [hrest]

/-- Of any other character, the fields have as many as the text. -/
theorem count_intercalate {c : Char} (hc : c ≠ sep) (fs : List (List Char)) :
    ([sep].intercalate fs).count c = fs.flatten.count c := by
  induction fs with
  | nil => rfl
  | cons f fs ih =>
    cases fs with
    | nil => simp
    | cons g gs =>
      have hsep : List.count c [sep] = 0 := List.count_eq_zero.2 (by simpa using hc)
      rw [List.intercalate_cons_cons, List.count_append, List.count_append, hsep, ih, Nat.add_zero]
      simp only [List.flatten_cons, List.count_append]

/-- What follows the last field makes it longer. -/
theorem intercalate_concat_append (sep : Char) (fs : List (List Char)) (last rest : List Char) :
    [sep].intercalate (fs ++ [last ++ rest]) = [sep].intercalate (fs ++ [last]) ++ rest := by
  by_cases hfs : fs = []
  · subst hfs
    simp
  · rw [intercalate_append hfs (List.cons_ne_nil _ _), intercalate_append hfs (List.cons_ne_nil _ _)]
    simp

/-- A text that goes on without a separator has a longer last field. -/
theorem fields_append {rest : List Char} (hrest : sep ∉ rest) (hfs : fields sep cs = fs ++ [last]) :
    fields sep (cs ++ rest) = fs ++ [last ++ rest] := by
  obtain ⟨-, hnot, rfl⟩ := fields_eq_iff.1 hfs
  refine fields_eq_iff.2 ⟨by simp, ?_, (intercalate_concat_append ..).symm⟩
  intro f hf
  rcases List.mem_append.1 hf with hf | hf
  · exact hnot f (List.mem_append_left _ hf)
  · obtain rfl := List.mem_singleton.1 hf
    rw [List.mem_append, not_or]
    exact ⟨hnot last (by simp), hrest⟩

section Map

variable {f : Char → Char}

/-- The fields of a text whose characters are changed, but for the separators. -/
theorem fields_map (hf : ∀ c, f c = sep ↔ c = sep) (cs : List Char) :
    fields sep (cs.map f) = (fields sep cs).map (List.map f) := by
  induction cs with
  | nil => rfl
  | cons c cs ih =>
    simp only [List.map_cons, fields, hf c, ih]
    split
    · rfl
    · cases fields sep cs <;> rfl

theorem map_intercalate (hf : f sep = sep) (fs : List (List Char)) :
    ([sep].intercalate fs).map f = [sep].intercalate (fs.map (List.map f)) := by
  induction fs with
  | nil => rfl
  | cons g gs ih =>
    cases gs with
    | nil => simp
    | cons h gs =>
      simp only [List.map_cons, List.intercalate_cons_cons, List.map_append, List.map_nil, hf]
        at ih ⊢
      rw [ih]

end Map

end Fields

/-! ## Words -/

section Words

variable {p : Char → Bool} {d : Char}

theorem takeWhile_append_cons (hd : p d = false) (cs ds : List Char) :
    (cs ++ d :: ds).takeWhile p = cs.takeWhile p := by
  induction cs with
  | nil => simp [hd]
  | cons c cs ih => cases hc : p c <;> simp [hc, ih]

theorem dropWhile_append_cons (hd : p d = false) (cs ds : List Char) :
    (cs ++ d :: ds).dropWhile p = cs.dropWhile p ++ d :: ds := by
  induction cs with
  | nil => simp [hd]
  | cons c cs ih => cases hc : p c <;> simp [hc, ih]

/-- No word reaches over a delimiter. -/
theorem words_append_cons (hd : p d = true) (cs ds : List Char) :
    words p (cs ++ d :: ds) = words p cs ++ words p ds := by
  have hnot : (!p d) = false := by rw [hd]; rfl
  induction cs using words.induct p with
  | case1 => simp [words, hd]
  | case2 c cs hc ih => simp only [List.cons_append, words, hc, if_true, ih]
  | case3 c cs hc ih =>
    simp only [List.cons_append, words, hc, if_false, Bool.false_eq_true]
    rw [takeWhile_append_cons hnot, dropWhile_append_cons hnot, ih]

/-- Whether a text is a word: it is not empty, and has no delimiter. -/
structure IsWord (p : Char → Bool) (w : List Char) : Prop where
  ne_nil : w ≠ []
  not_delim : ∀ c ∈ w, p c = false

theorem words_of_isWord {w : List Char} (hw : IsWord p w) : words p w = [w] := by
  cases w with
  | nil => exact absurd rfl hw.ne_nil
  | cons c cs =>
    have hnot : ∀ x ∈ cs, (!p x) = true := fun x hx => by
      rw [hw.not_delim x (List.mem_cons_of_mem _ hx)]
      rfl
    have hnothing : cs.dropWhile (fun x => !p x) = [] := List.dropWhile_eq_nil_iff.2 hnot
    rw [words, hw.not_delim c (List.mem_cons_self ..), List.takeWhile_eq_self_iff.2 hnot, hnothing,
      words]
    rfl

/-- **Words with a delimiter between them are cut into those words.** -/
theorem words_intercalate (hd : p d = true) {ws : List (List Char)} (hws : ∀ w ∈ ws, IsWord p w) :
    words p ([d].intercalate ws) = ws := by
  induction ws with
  | nil => rw [List.intercalate_nil, words]
  | cons w ws ih =>
    obtain ⟨hw, hrest⟩ := List.forall_mem_cons.1 hws
    cases ws with
    | nil => rw [List.intercalate_singleton, words_of_isWord hw]
    | cons v ws =>
      rw [List.intercalate_cons_cons, List.append_assoc, List.singleton_append,
        words_append_cons hd, words_of_isWord hw, ih hrest]
      rfl

/-- **What a text is cut into are words.** -/
theorem isWord_of_mem_words {cs w : List Char} (h : w ∈ words p cs) : IsWord p w := by
  induction cs using words.induct p with
  | case1 =>
    rw [words] at h
    cases h
  | case2 c cs hc ih =>
    rw [words, if_pos hc] at h
    exact ih h
  | case3 c cs hc ih =>
    rw [words, if_neg hc] at h
    rcases List.mem_cons.1 h with rfl | h
    · refine ⟨List.cons_ne_nil _ _, List.forall_mem_cons.2 ⟨Bool.eq_false_iff.2 hc, fun x hx => ?_⟩⟩
      simpa using List.mem_takeWhile_imp hx
    · exact ih h

end Words

/-! ## Pairs of characters -/

section Pairs

variable {a b : Char} {cs before after : List Char}

/-- A pair that is in a text stands at its start or in the rest. -/
theorem pair_infix_cons_cons {c d : Char} :
    [a, b] <:+: c :: d :: cs ↔ c = a ∧ d = b ∨ [a, b] <:+: d :: cs := by
  rw [List.infix_cons_iff, List.cons_prefix_cons, List.cons_prefix_cons]
  simp [List.nil_prefix, eq_comm]

theorem not_pair_infix_singleton {c : Char} : ¬ [a, b] <:+: [c] := by
  intro h
  have hlength := h.length_le
  simp at hlength

/-- **A text that is not cut at a pair does not have it.** -/
theorem cutPair_eq_none : cutPair a b cs = none ↔ ¬ [a, b] <:+: cs := by
  induction cs using cutPair.induct a b with
  | case1 => simp [cutPair]
  | case2 c => simp [cutPair, not_pair_infix_singleton]
  | case3 c d cs hcd => simp [cutPair, hcd, pair_infix_cons_cons]
  | case4 c d cs hcd ih =>
    rw [cutPair, if_neg hcd, Option.map_eq_none_iff, ih, pair_infix_cons_cons, or_iff_right hcd]

/-- A text is cut at a pair that no other one starts before. -/
theorem cutPair_of_not_infix (h : ¬ [a, b] <:+: before ++ [a]) :
    cutPair a b (before ++ a :: b :: after) = some (before, after) := by
  induction before with
  | nil => exact if_pos ⟨rfl, rfl⟩
  | cons x xs ih =>
    cases xs with
    | nil =>
      have hne : ¬ (x = a ∧ a = b) := fun heq => h (pair_infix_cons_cons.2 (.inl heq))
      simp [cutPair, hne]
    | cons y ys =>
      obtain ⟨hne, hrest⟩ := not_or.1 fun hor => h (pair_infix_cons_cons.2 hor)
      simp only [List.cons_append] at ih ⊢
      rw [cutPair, if_neg hne, ih hrest]
      rfl

/-- **A text is cut at the first occurrence of a pair**: none starts before it. -/
theorem cutPair_eq_some : cutPair a b cs = some (before, after) ↔
    cs = before ++ a :: b :: after ∧ ¬ [a, b] <:+: before ++ [a] := by
  refine ⟨fun h => ?_, fun ⟨htext, hfirst⟩ => htext ▸ cutPair_of_not_infix hfirst⟩
  induction cs using cutPair.induct a b generalizing before with
  | case1 => cases h
  | case2 c => cases h
  | case3 c d cs hcd =>
    obtain ⟨rfl, rfl⟩ := hcd
    rw [cutPair, if_pos ⟨rfl, rfl⟩] at h
    cases h
    exact ⟨rfl, not_pair_infix_singleton⟩
  | case4 c d cs hcd ih =>
    rw [cutPair, if_neg hcd] at h
    obtain ⟨⟨front, rest⟩, hfront, heq⟩ := Option.map_eq_some_iff.1 h
    cases heq
    obtain ⟨htext, hfirst⟩ := ih hfront
    refine ⟨congrArg (c :: ·) htext, fun hpair => ?_⟩
    cases front with
    | nil =>
      obtain ⟨rfl, -⟩ := List.cons.inj htext
      exact (pair_infix_cons_cons.1 hpair).elim hcd hfirst
    | cons x xs =>
      obtain ⟨rfl, -⟩ := List.cons.inj htext
      exact (pair_infix_cons_cons.1 hpair).elim hcd hfirst

theorem cutPair_map {f : Char → Char} (ha : ∀ c, f c = a ↔ c = a) (hb : ∀ c, f c = b ↔ c = b)
    (cs : List Char) :
    cutPair a b (cs.map f) = (cutPair a b cs).map fun p => (p.1.map f, p.2.map f) := by
  induction cs using cutPair.induct a b with
  | case1 => rfl
  | case2 c => rfl
  | case3 c d cs hcd =>
    obtain ⟨rfl, rfl⟩ := hcd
    rw [List.map_cons, List.map_cons, (ha c).2 rfl, (hb d).2 rfl, cutPair, cutPair]
    simp
  | case4 c d cs hcd ih =>
    have hne : ¬ (f c = a ∧ f d = b) := by rwa [ha, hb]
    rw [List.map_cons, List.map_cons, cutPair, if_neg hne, ← List.map_cons, ih, cutPair, if_neg hcd,
      Option.map_map, Option.map_map]
    rfl

/-- A pair that is in a text stands at its start or behind it. -/
theorem pair_infix_cons {c : Char} :
    [a, b] <:+: c :: cs ↔ c = a ∧ cs.head? = some b ∨ [a, b] <:+: cs := by
  cases cs with
  | nil => simp [not_pair_infix_singleton]
  | cons d cs => simp [pair_infix_cons_cons]

/-- A pair that is in two texts is in one of them, or between them. -/
theorem pair_infix_append_iff {ds : List Char} : [a, b] <:+: cs ++ ds ↔
    [a, b] <:+: cs ∨ [a, b] <:+: ds ∨ cs.getLast? = some a ∧ ds.head? = some b := by
  induction cs with
  | nil => simp
  | cons c cs ih =>
    rw [List.cons_append, pair_infix_cons, pair_infix_cons, ih]
    by_cases hcs : cs = []
    · subst hcs
      simp only [List.nil_append, List.head?_nil, List.getLast?_singleton, List.getLast?_nil,
        Option.some.injEq]
      tauto
    · rw [List.head?_append_of_ne_nil cs hcs, List.getLast?_cons_of_ne_nil hcs]
      tauto

/-- What has not the second character of a pair does not end one. -/
theorem pair_infix_append {rest : List Char} (hrest : b ∉ rest) :
    [a, b] <:+: cs ++ rest ↔ [a, b] <:+: cs := by
  rw [pair_infix_append_iff]
  refine or_iff_left ?_
  rintro (hpair | ⟨-, hhead⟩)
  · exact hrest (hpair.subset (by simp))
  · exact hrest (List.mem_of_head? hhead)

/-- The first cut of a text that goes on without the second character of the pair. -/
theorem cutPair_append {rest : List Char} (hrest : b ∉ rest) :
    cutPair a b (cs ++ rest) = (cutPair a b cs).map fun p => (p.1, p.2 ++ rest) := by
  cases hcut : cutPair a b cs with
  | none => exact cutPair_eq_none.2 fun h => cutPair_eq_none.1 hcut ((pair_infix_append hrest).1 h)
  | some p =>
    obtain ⟨htext, hfirst⟩ := cutPair_eq_some.1 hcut
    exact cutPair_eq_some.2 ⟨by rw [htext, List.append_assoc]; rfl, hfirst⟩

/-! ### Two separators in a row -/

variable {sep : Char} {fs : List (List Char)}

/-- Two separators in a row do not reach over a separator to both sides. -/
theorem pair_infix_append_cons {ds : List Char} : [sep, sep] <:+: cs ++ sep :: ds ↔
    [sep, sep] <:+: cs ++ [sep] ∨ [sep, sep] <:+: sep :: ds := by
  have htext : cs ++ sep :: ds = (cs ++ [sep]) ++ ds := by simp
  have hlast : (cs ++ [sep]).getLast? = some sep := List.getLast?_concat
  rw [htext, pair_infix_append_iff, hlast]
  simp only [pair_infix_cons, true_and]
  tauto

/-- Between two separators in a row is an empty field. -/
theorem fields_pair (sep : Char) (cs ds : List Char) :
    fields sep (cs ++ sep :: sep :: ds) = fields sep cs ++ [] :: fields sep ds := by
  rw [fields_append_cons, show sep :: ds = [] ++ sep :: ds from rfl, fields_append_cons]
  rfl

/-- Fields that are not empty have no two separators in a row between them. -/
theorem not_pair_infix_intercalate (hfs : ∀ f ∈ fs, IsField sep f) :
    ¬ [sep, sep] <:+: [sep].intercalate fs := by
  rintro ⟨x, y, htext⟩
  cases fs with
  | nil => simp at htext
  | cons f fs =>
    have hfields := fields_intercalate (List.cons_ne_nil f fs) hfs
    rw [← htext, List.append_assoc, List.cons_append, List.cons_append, List.nil_append,
      fields_pair] at hfields
    exact (hfs [] (hfields ▸ by simp)).ne_nil rfl

/-- Nor have they if one more separator follows. -/
theorem not_pair_infix_intercalate_concat (hfs : ∀ f ∈ fs, IsField sep f) :
    ¬ [sep, sep] <:+: [sep].intercalate fs ++ [sep] := by
  cases fs with
  | nil => exact not_pair_infix_singleton
  | cons f fs =>
    rintro ⟨x, y, htext⟩
    have hfields : fields sep ([sep].intercalate (f :: fs) ++ [sep]) = (f :: fs) ++ [[]] := by
      rw [fields_append_cons, fields_intercalate (List.cons_ne_nil f fs) hfs]
      rfl
    rw [← htext, List.append_assoc, List.cons_append, List.cons_append, List.nil_append,
      fields_pair] at hfields
    -- The last field is not the one between the two separators.
    obtain ⟨gs, g, hgs⟩ := (List.eq_nil_or_concat (fields sep y)).resolve_left (fields_ne_nil _ _)
    rw [hgs, List.concat_eq_append, ← List.cons_append, ← List.append_assoc] at hfields
    have hinit : fields sep x ++ [] :: gs = f :: fs := List.append_inj_left' hfields rfl
    exact (hfs [] (hinit ▸ by simp)).ne_nil rfl

/-- So they do not end in a separator. -/
theorem not_suffix_intercalate (hfs : ∀ f ∈ fs, IsField sep f) :
    ¬ [sep] <:+ [sep].intercalate fs := by
  rintro ⟨x, htext⟩
  exact not_pair_infix_intercalate_concat hfs ⟨x, [], by simp [← htext]⟩

theorem cutPair_intercalate (hfs : ∀ f ∈ fs, IsField sep f) (rest : List Char) :
    cutPair sep sep ([sep].intercalate fs ++ sep :: sep :: rest) =
      some ([sep].intercalate fs, rest) :=
  cutPair_eq_some.2 ⟨rfl, not_pair_infix_intercalate_concat hfs⟩

end Pairs

end VmControl.Text
