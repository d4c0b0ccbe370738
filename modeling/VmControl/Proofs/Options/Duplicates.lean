import Mathlib.Data.Finset.Card
import Mathlib.Data.List.Find
import Mathlib.Data.List.Pairwise
import VmControl.Options.Tables
import VmControl.Proofs.Options.Slots

/-!
# Tables without duplicates

A look-up answers the first entry that carries a name, so in general the order of a table tells.
The duplicates of a table are the names that an earlier entry has already: each name counts once
less than it occurs.  Where there are none, at most one entry carries a name, and the order is lost
on every look-up and hence on every line.

## Main definitions

* `Entry.SharesName`: two entries carry one name.
* `Entry.distinctCount`: how many different names of a kind entries carry.

## Main statements

* `Table.duplicateNames_eq_nil_iff`: there are no duplicates exactly if no two entries share a name.
* `Table.length_duplicateNames`: how many duplicates there are.
* `Table.order_free`: a table without duplicates reads every line alike in every order.
-/

namespace VmControl.Options

variable {ι κ : Type}

namespace Entry

/-- Whether two entries have the same long name or the same short name. -/
def SharesName (e f : Entry ι) : Prop :=
  (∃ name, e.long = some name ∧ f.long = some name) ∨ ∃ c, e.short = some c ∧ f.short = some c

theorem SharesName.symm {e f : Entry ι} (h : e.SharesName f) : f.SharesName e :=
  h.imp (fun ⟨name, he, hf⟩ => ⟨name, hf, he⟩) fun ⟨c, he, hf⟩ => ⟨c, hf, he⟩

/-- How many entries have a name of a kind. -/
def namedCount (name? : Entry ι → Option κ) (es : List (Entry ι)) : Nat :=
  es.countP fun e => (name? e).isSome

/-- How many different names of a kind entries have. -/
def distinctCount [DecidableEq κ] (name? : Entry ι → Option κ) (es : List (Entry ι)) : Nat :=
  (es.filterMap name?).toFinset.card

/-- The names of one kind that an entry has in common with others: one or none. -/
def repeated [DecidableEq κ] (name? : Entry ι → Option κ) (spell : κ → String)
    (earlier : List (Entry ι)) (e : Entry ι) : List String :=
  match name? e with
  | some name => if earlier.any (name? · == some name) then [spell name] else []
  | none => []

theorem sharedNames_eq (earlier : List (Entry ι)) (e : Entry ι) :
    e.sharedNames earlier = e.repeated (·.long) ("--" ++ ·) earlier ++
      e.repeated (·.short) ("-" ++ String.singleton ·) earlier := by
  obtain ⟨long, short, _, _⟩ := e
  cases long <;> cases short <;> simp [sharedNames, repeated]

section Kind

variable [DecidableEq κ] (name? : Entry ι → Option κ) (spell : κ → String)
  (earlier : List (Entry ι)) (e : Entry ι)

theorem repeated_eq_nil_iff :
    e.repeated name? spell earlier = [] ↔
      ∀ x ∈ earlier, ∀ name, name? x = some name → name? e ≠ some name := by
  unfold repeated
  cases h : name? e with
  | none => simp
  | some name =>
    simp only [ite_eq_right_iff, List.cons_ne_nil, imp_false, Bool.not_eq_true, List.any_eq_false,
      beq_iff_eq, ne_eq, Option.some.injEq]
    exact forall₂_congr fun x _ => ⟨fun hx n hn hname => hx (hname ▸ hn), fun hx hn => hx _ hn rfl⟩

/-- **One more entry with a name adds a new name or a duplicate.** -/
theorem length_repeated_add_distinctCount :
    (e.repeated name? spell earlier).length + distinctCount name? (earlier ++ [e]) =
      distinctCount name? earlier + namedCount name? [e] := by
  unfold repeated distinctCount namedCount
  cases h : name? e with
  | none => simp [h]
  | some name =>
    have hany : earlier.any (name? · == some name) = true ↔
        name ∈ (earlier.filterMap name?).toFinset := by simp
    rw [List.filterMap_append, List.toFinset_append, Finset.union_comm]
    by_cases hmem : name ∈ (earlier.filterMap name?).toFinset
    · simp [h, hany.2 hmem, Finset.insert_eq_of_mem hmem, Nat.add_comm]
    · simp [h, hany, hmem, Finset.card_insert_of_notMem hmem]

end Kind

end Entry

namespace Table

open Entry

/-- Whether no name is on two entries. -/
def HasUniqueNames (t : Table ι) : Prop := t.entries.Pairwise fun e f => ¬ e.SharesName f

/-- Each name of a kind that follows others is new or a duplicate. -/
theorem length_duplicateNames_go (earlier es : List (Entry ι)) :
    (duplicateNames.go earlier es).length + distinctCount (·.long) (earlier ++ es) +
        distinctCount (·.short) (earlier ++ es) =
      distinctCount (·.long) earlier + distinctCount (·.short) earlier +
        namedCount (·.long) es + namedCount (·.short) es := by
  induction es generalizing earlier with
  | nil => simp [duplicateNames.go, namedCount]
  | cons e es ih =>
    have hlong := e.length_repeated_add_distinctCount (·.long) ("--" ++ ·) earlier
    have hshort := e.length_repeated_add_distinctCount (·.short) ("-" ++ String.singleton ·) earlier
    have hrest := ih (earlier ++ [e])
    rw [List.append_assoc, List.singleton_append] at hrest
    have hcons (κ : Type) (name? : Entry ι → Option κ) :
        namedCount name? (e :: es) = namedCount name? [e] + namedCount name? es := by
      rw [namedCount, ← List.singleton_append, List.countP_append]
      rfl
    rw [duplicateNames.go, List.length_append, sharedNames_eq, List.length_append, hcons, hcons]
    omega

/-- **Each name counts among the duplicates once less than it occurs.** -/
theorem length_duplicateNames (t : Table ι) :
    t.duplicateNames.length + distinctCount (·.long) t.entries +
        distinctCount (·.short) t.entries =
      namedCount (·.long) t.entries + namedCount (·.short) t.entries := by
  have h := length_duplicateNames_go [] t.entries
  simpa [distinctCount, duplicateNames] using h

theorem duplicateNames_go_eq_nil_iff (earlier es : List (Entry ι)) :
    duplicateNames.go earlier es = [] ↔
      (∀ x ∈ earlier, ∀ e ∈ es, ¬ x.SharesName e) ∧ es.Pairwise fun e f => ¬ e.SharesName f := by
  induction es generalizing earlier with
  | nil => simp [duplicateNames.go]
  | cons e es ih =>
    have hhead : e.sharedNames earlier = [] ↔ ∀ x ∈ earlier, ¬ x.SharesName e := by
      simp only [sharedNames_eq, List.append_eq_nil_iff, repeated_eq_nil_iff, SharesName, not_or,
        not_exists, not_and, forall_and, ne_eq]
    rw [duplicateNames.go, List.append_eq_nil_iff, hhead, ih, List.pairwise_cons]
    simp only [List.mem_append, List.mem_cons]
    grind

/-- **There are no duplicates exactly if no two entries share a name.** -/
theorem duplicateNames_eq_nil_iff {t : Table ι} : t.duplicateNames = [] ↔ t.HasUniqueNames := by
  rw [duplicateNames, duplicateNames_go_eq_nil_iff]
  simp [HasUniqueNames]

/-! ## Look-ups -/

section Reordered

variable {t u : Table ι}

/-- Entries that share a name are one. -/
theorem HasUniqueNames.eq_of_sharesName (h : t.HasUniqueNames) {e f : Entry ι} (he : e ∈ t.entries)
    (hf : f ∈ t.entries) (hef : e.SharesName f) : e = f := by
  have : Std.Symm fun e f : Entry ι => ¬ e.SharesName f := ⟨fun _ _ hnot h => hnot h.symm⟩
  by_contra hne
  exact List.Pairwise.forall h he hf hne hef

theorem HasUniqueNames.findLong?_eq (h : t.HasUniqueNames) (hperm : t.entries.Perm u.entries)
    (name : String) : t.findLong? name = u.findLong? name := by
  refine List.find?_eq_find?_of_perm hperm ?_
  rintro e ⟨he, hname⟩ f ⟨hf, hname'⟩
  exact h.eq_of_sharesName he hf (.inl ⟨name, by simpa using hname, by simpa using hname'⟩)

theorem HasUniqueNames.findShort?_eq (h : t.HasUniqueNames) (hperm : t.entries.Perm u.entries)
    (c : Char) : t.findShort? c = u.findShort? c := by
  refine List.find?_eq_find?_of_perm hperm ?_
  rintro e ⟨he, hname⟩ f ⟨hf, hname'⟩
  exact h.eq_of_sharesName he hf (.inr ⟨c, by simpa using hname, by simpa using hname'⟩)

/-- A step asks the table for names only. -/
theorem step_congr (hlong : ∀ name, t.findLong? name = u.findLong? name)
    (hshort : ∀ c, t.findShort? c = u.findShort? c) (c : Cursor) : c.step t = c.step u := by
  unfold Cursor.step Cursor.readLong Cursor.readShort
  simp only [hlong, hshort]

/-- So does reading a line to its end. -/
theorem stream_congr (hlong : ∀ name, t.findLong? name = u.findLong? name)
    (hshort : ∀ c, t.findShort? c = u.findShort? c) (c : Cursor) : c.stream t = c.stream u := by
  have hsame := step_congr hlong hshort
  fun_induction Cursor.stream t c with
  | case1 c e hstep =>
    rw [hsame] at hstep
    exact (Cursor.stream_of_missing (Prod.ext hstep rfl)).symm
  | case2 c hstep =>
    rw [hsame] at hstep
    exact (Cursor.stream_of_done (Prod.ext hstep rfl)).symm
  | case3 c event hstep rest ih =>
    rw [hsame] at hstep ih
    rw [Cursor.stream_of_step (Prod.ext hstep rfl)]
    simp only [rest, hsame, ih]

end Reordered

/-- **A table without duplicates can be written in any order.**

* There are no duplicates exactly if no name is on two entries.
* For each kind of names there are as many duplicates as entries with such a name, less the
  different names.
* If there are none, every order of the entries finds the same for every name, and so reads every
  line alike. -/
theorem order_free (t : Table ι) :
    (t.duplicateNames = [] ↔ t.HasUniqueNames) ∧
    (t.duplicateNames.length : Int) =
      (namedCount (·.long) t.entries - distinctCount (·.long) t.entries : Int) +
        (namedCount (·.short) t.entries - distinctCount (·.short) t.entries : Int) ∧
    (t.duplicateNames = [] → ∀ u : Table ι, t.entries.Perm u.entries →
      (∀ name, t.findLong? name = u.findLong? name) ∧
      (∀ c, t.findShort? c = u.findShort? c) ∧
      ∀ args start, t.read args start = u.read args start) := by
  refine ⟨duplicateNames_eq_nil_iff, ?_, fun hnone u hperm => ?_⟩
  · have hlength := t.length_duplicateNames
    omega
  · have hunique := duplicateNames_eq_nil_iff.1 hnone
    have hlong := hunique.findLong?_eq hperm
    have hshort := hunique.findShort?_eq hperm
    exact ⟨hlong, hshort, fun args start => stream_congr hlong hshort (.ofArgs args start)⟩

/-- The table of `prlctl start` reads a line alike from its last entry to its first. -/
theorem start_table_is_order_free :
    CommandTable.start.duplicateNames = [] ∧
      CommandTable.start.read ["prlctl", "start", "vm1", "-v2", "--wait"] 3 =
        (⟨CommandTable.start.entries.reverse⟩ : CommandTable).read
          ["prlctl", "start", "vm1", "-v2", "--wait"] 3 := by
  have hnone : CommandTable.start.duplicateNames = [] := by decide
  exact ⟨hnone, (CommandTable.start.order_free.2.2 hnone ⟨_⟩ (List.reverse_perm _).symm).2.2 _ _⟩

end Table

end VmControl.Options
