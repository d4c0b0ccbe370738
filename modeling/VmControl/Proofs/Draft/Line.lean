import VmControl.Proofs.Draft.Order

/-!
# The order of options on a line

## Main statements

* `Draft.takeAll_rearrange`: options that keep their order within each group come to the same.
* `set_line_order`: so do the lines that change a guest and consist of these options.
-/

namespace VmControl

open Options

namespace Draft

variable {host : Host}

/-! ## Taking options in order -/

/-- What an option makes of the stage does not depend on where it stands. -/
theorem take_occurrence (m : Match OptionId) (s : Stage) :
    take host s m.occurrence.toMatch = take host s m := by
  have htext := m.toMatch_occurrence_text
  have hid : m.occurrence.toMatch.id = m.id := rfl
  have hname : m.occurrence.toMatch.name = m.name := rfl
  simp only [take, applyPure, htext, hid, hname]

/-- Takes options in order. -/
def takeAll (host : Host) (s : Stage) : List (Occurrence OptionId) → Option Stage
  | [] => some s
  | o :: os => (take host s o.toMatch).bind fun s => takeAll host s os

theorem takeAll_alike {s t : Stage} (h : view s = view t) (os : List (Occurrence OptionId)) :
    Alike (takeAll host s os) (takeAll host t os) := by
  induction os generalizing s t with
  | nil => exact .some h
  | cons o os ih => exact (take_alike h).bind fun _ _ h => ih h

theorem takeAll_cons_alike {o : Occurrence OptionId} {os os' : List (Occurrence OptionId)}
    (h : ∀ s, Alike (takeAll host s os) (takeAll host s os')) (s : Stage) :
    Alike (takeAll host s (o :: os)) (takeAll host s (o :: os')) :=
  (Alike.refl _).bind fun s _ hst => (h s).trans (takeAll_alike hst os')

theorem takeAll_swap {o o' : Occurrence OptionId} (ho : CommandTable.set.Has o.id)
    (ho' : CommandTable.set.Has o'.id) (hg : o.id.group ≠ o'.id.group)
    (os : List (Occurrence OptionId)) (s : Stage) :
    Alike (takeAll host s (o :: o' :: os)) (takeAll host s (o' :: o :: os)) := by
  simp only [takeAll, ← Option.bind_assoc]
  exact (take_swap ho ho' hg s).bind fun _ _ h => takeAll_alike h os

/-- An option can be taken before those of other groups. -/
theorem takeAll_front {o : Occurrence OptionId} (ho : CommandTable.set.Has o.id)
    {before : List (Occurrence OptionId)}
    (hb : ∀ b ∈ before, CommandTable.set.Has b.id ∧ b.id.group ≠ o.id.group)
    (after : List (Occurrence OptionId)) (s : Stage) :
    Alike (takeAll host s (before ++ o :: after)) (takeAll host s (o :: (before ++ after))) := by
  induction before generalizing s with
  | nil => exact Alike.refl _
  | cons b before ih =>
    have hhead := hb b (List.mem_cons_self ..)
    exact (takeAll_cons_alike (ih fun b h => hb b (List.mem_cons_of_mem _ h)) s).trans
      (takeAll_swap hhead.1 ho hhead.2 _ s)

/-! ## Rearranging options -/

/-- Whether two lists have the same options of each group, and in the same order. -/
def SameWithinGroups (os os' : List (Occurrence OptionId)) : Prop :=
  ∀ g, os.filter (·.id.group = g) = os'.filter (·.id.group = g)

theorem sameWithinGroups_swap {o o' : Occurrence OptionId} (hg : o.id.group ≠ o'.id.group)
    {before after : List (Occurrence OptionId)} :
    SameWithinGroups (before ++ o :: o' :: after) (before ++ o' :: o :: after) := by
  intro g
  by_cases ho : o.id.group = g
  · have ho' : o'.id.group ≠ g := fun h => hg (ho.trans h.symm)
    simp [ho, ho']
  · simp [List.filter_cons, ho]

/-- **Options that keep their order within each group come to the same.** -/
theorem takeAll_rearrange {os os' : List (Occurrence OptionId)} (h : SameWithinGroups os os')
    (hos : ∀ o ∈ os', CommandTable.set.Has o.id) (s : Stage) :
    Alike (takeAll host s os) (takeAll host s os') := by
  induction os generalizing os' s with
  | nil =>
    cases os' with
    | nil => exact Alike.refl _
    | cons o os' => simpa using h o.id.group
  | cons o os ih =>
    -- the first option of its group stands behind others only
    have hg := h o.id.group
    rw [List.filter_cons_of_pos (by simp)] at hg
    obtain ⟨before, after, rfl, hbefore, -, hafter⟩ := List.filter_eq_cons_iff.1 hg.symm
    have hothers (b : Occurrence OptionId) (hb : b ∈ before) : b.id.group ≠ o.id.group := by
      simpa using hbefore b hb
    have hrest : SameWithinGroups os (before ++ after) := by
      intro g
      by_cases hgo : o.id.group = g
      · subst hgo
        have hnone : before.filter (·.id.group = o.id.group) = [] :=
          List.filter_eq_nil_iff.2 hbefore
        rw [List.filter_append, hnone, List.nil_append, hafter]
      · have := h g
        rw [List.filter_cons_of_neg (by simpa using hgo), List.filter_append,
          List.filter_cons_of_neg (by simpa using hgo), ← List.filter_append] at this
        exact this
    have hhas (b : Occurrence OptionId) (hb : b ∈ before ++ after) : CommandTable.set.Has b.id :=
      hos b (by
        rcases List.mem_append.1 hb with hb | hb
        · exact List.mem_append_left _ hb
        · exact List.mem_append_right _ (List.mem_cons_of_mem _ hb))
    have ho : CommandTable.set.Has o.id := hos o (by simp)
    refine (takeAll_cons_alike (ih hrest hhas) s).trans (takeAll_front ho ?_ after s).symm
    exact fun b hb => ⟨hhas b (List.mem_append_left _ hb), hothers b hb⟩

/-! ## The end of the line -/

theorem any_ne_eq_false_iff {fate : ImageFate} {fates : List ImageFate} :
    fates.any (· != fate) = false ↔ ∀ f ∈ fate :: fates, ∀ g ∈ fate :: fates, f = g := by
  simp only [List.any_eq_false, bne_iff_ne, ne_eq, Decidable.not_not, List.forall_mem_cons]
  refine ⟨fun h => ⟨⟨trivial, fun g hg => (h g hg).symm⟩, fun f hf => ⟨h f hf, fun g hg => ?_⟩⟩,
    fun h f hf => (h.2 f hf).1⟩
  rw [h f hf, h g hg]

/-- The end of the line does not depend on the order of the fates of images. -/
theorem finish_congr {d d' : Draft} (hr : d.record = d'.record) (ha : d.adapter = d'.adapter)
    (hf : d.imageFates.Perm d'.imageFates) : d.finish = d'.finish := by
  obtain ⟨r, a, fates⟩ := d
  obtain ⟨r', a', fates'⟩ := d'
  subst hr ha
  dsimp only at hf
  cases fates with
  | nil => rw [hf.nil_eq]
  | cons f fates =>
    cases fates' with
    | nil => exact absurd hf.eq_nil (by simp)
    | cons f' fates' =>
      have hsame : fates.any (· != f) = false ↔ fates'.any (· != f') = false := by
        simp only [any_ne_eq_false_iff, hf.mem_iff]
      unfold finish settleImageFate
      dsimp only
      cases hany : fates.any (· != f) with
      | true =>
        have hany' : fates'.any (· != f') = true := by
          rw [← Bool.not_eq_false, ← hsame, hany]
          simp
        rw [hany']
        rfl
      | false =>
        have hff : f = f' :=
          any_ne_eq_false_iff.1 hany f (List.mem_cons_self ..) f'
            (hf.mem_iff.2 (List.mem_cons_self ..))
        rw [hsame.1 hany, hff]
        rfl

/-- What a line comes to whose options have been taken. -/
def conclude (host : Host) (s : Stage) : Option (Record × Preferences) :=
  (s.1.finish >>= (·.consistent host)).toOption.map (·, s.2)

theorem exists_of_conclude {s : Stage} {r : Record} {q : Preferences}
    (h : conclude host s = some (r, q)) :
    ∃ r₀, s.1.finish = .ok r₀ ∧ r₀.consistent host = .ok r := by
  obtain ⟨r', hr', heq⟩ := Option.map_eq_some_iff.1 h
  obtain ⟨rfl, -⟩ := Prod.mk.inj heq
  exact bind_eq_ok.1 (toOption_eq_some.1 hr')

theorem conclude_congr {s t : Stage} (h : view s = view t) : conclude host s = conclude host t := by
  unfold conclude
  have hfinish : s.1.finish = t.1.finish := finish_congr (record_eq_of_view_eq h)
    (adapter_eq_of_view_eq h) (imageFates_perm_of_view_eq h)
  rw [hfinish, preferences_eq_of_view_eq h]

theorem outcome_settle (r : Record) (e : Effects) :
    r.settle.outcome host e = (r.consistent host).toOption.map (·, e.preferences) := by
  unfold Reading.outcome Record.settle
  cases r.ignoresGuest with
  | true =>
    simp only [if_true, Reading.after_bind, Reading.after_warn, Reading.after_write,
      Reading.after_read, Reading.after_ofExcept]
    cases r.consistent host with
    | error u => rfl
    | ok r =>
      by_cases hv : 0 ≤ e.preferences.verbosity <;> simp only [hv, if_true, if_false] <;> rfl
  | false =>
    simp only [Bool.false_eq_true, if_false, Reading.after_bind, Reading.after_read,
      Reading.after_ofExcept]
    cases r.consistent host <;> rfl

theorem outcome_conclude (d : Draft) (e : Effects) :
    (do (← Reading.ofExcept d.finish).settle : Reading Record).outcome host e =
      conclude host (d, e.preferences) := by
  unfold conclude
  rw [Reading.outcome_bind (g := fun r p => (r.consistent host).toOption.map (·, p)) outcome_settle]
  unfold Reading.outcome
  rw [Reading.after_ofExcept]
  cases d.finish <;> rfl

/-- Reading options in order is taking them in order. -/
theorem outcome_steps (d : Draft) (ms : List (Match OptionId)) (e : Effects) :
    (grammar.steps d (ms.map .option)).outcome host e =
      takeAll host (d, e.preferences) (ms.map Match.occurrence) := by
  induction ms generalizing d e with
  | nil => rfl
  | cons m ms ih =>
    have hstep := outcome_step d m host e
    simp only [Grammar.steps, List.map_cons, List.foldlM_cons] at ih ⊢
    rw [Reading.outcome_bind (g := fun d p => takeAll host (d, p) (ms.map Match.occurrence)) ih,
      hstep, takeAll, take_occurrence]

end Draft

/-! ## Whole lines -/

/-- What a line comes to that changes a guest and consists of options. -/
theorem outcome_set_line {table : CommandTable} {offset : Nat} {args : List String}
    {os : List (Occurrence OptionId)} (h : (table.read args (offset + 1)).Says os) (host : Host)
    (e : Effects) :
    (readGuestLine .set table offset args).outcome host e =
      (Draft.takeAll host (⟨{ Record.ofAction .set with target := args[offset]? }, ∅, []⟩,
        e.preferences) os).bind (Draft.conclude host) := by
  obtain ⟨ms, hread, rfl⟩ := h
  unfold readGuestLine
  rw [hread]
  show Reading.outcome (Draft.grammar.read _ _ >>= _) host e = _
  unfold Grammar.read
  simp only [bind_assoc, pure_bind]
  rw [Reading.outcome_bind (g := fun d p => Draft.conclude host (d, p)) Draft.outcome_conclude,
    Draft.outcome_steps]
  rfl

theorem set_line_rearrange {offset : Nat} {args args' : List String}
    {os os' : List (Occurrence OptionId)} (htarget : args[offset]? = args'[offset]?)
    (hread : (CommandTable.set.read args (offset + 1)).Says os)
    (hread' : (CommandTable.set.read args' (offset + 1)).Says os')
    (h : Draft.SameWithinGroups os os') (host : Host) (e : Effects) :
    (readGuestLine .set CommandTable.set offset args).outcome host e =
      (readGuestLine .set CommandTable.set offset args').outcome host e := by
  rw [outcome_set_line hread, outcome_set_line hread', htarget]
  exact (Draft.takeAll_rearrange h (fun _ => Table.has_of_says hread') _).bind_eq
    fun _ _ => Draft.conclude_congr

/-- **Options of lines that change a guest can be given in any order within reason.**  Two that
stand side by side can trade places if they are of different groups, and hence all can be rearranged
that keep their order within each group: either both lines are turned down, or both come to the same
record and the same preferences. -/
theorem set_line_order {offset : Nat} {args args' : List String}
    (htarget : args[offset]? = args'[offset]?) (host : Host) (e : Effects) :
    (∀ before o o' after, o.id.group ≠ o'.id.group →
      (CommandTable.set.read args (offset + 1)).Says (before ++ o :: o' :: after) →
      (CommandTable.set.read args' (offset + 1)).Says (before ++ o' :: o :: after) →
      (readGuestLine .set CommandTable.set offset args).outcome host e =
        (readGuestLine .set CommandTable.set offset args').outcome host e) ∧
    (∀ os os', Draft.SameWithinGroups os os' →
      (CommandTable.set.read args (offset + 1)).Says os →
      (CommandTable.set.read args' (offset + 1)).Says os' →
      (readGuestLine .set CommandTable.set offset args).outcome host e =
        (readGuestLine .set CommandTable.set offset args').outcome host e) := by
  refine ⟨fun before o o' after hg hread hread' => ?_, fun os os' h hread hread' =>
    set_line_rearrange htarget hread hread' h host e⟩
  exact set_line_rearrange htarget hread hread' (Draft.sameWithinGroups_swap hg) host e

theorem set_line_order_name_compat :
    (readGuestLine .set CommandTable.set 2
        ["prlctl", "set", "vm1", "--name", "a", "--compat"]).outcome
        ⟨fun _ => .error "", fun _ => .error ""⟩ (.start .initial) =
      (readGuestLine .set CommandTable.set 2
        ["prlctl", "set", "vm1", "--compat", "--name=a"]).outcome
        ⟨fun _ => .error "", fun _ => .error ""⟩ (.start .initial) := by
  refine (set_line_order (by rfl) _ _).1 [] ⟨.setting (.text .name), "--name", some "a"⟩
    ⟨.compat, "--compat", none⟩ [] (by decide) ?_ ?_
  · refine ⟨[⟨.setting (.text .name), "--name", some ⟨"a", ⟨4, 0, 1⟩⟩⟩,
      ⟨.compat, "--compat", none⟩], ?_, rfl⟩
    exact Table.read_eq_of_streamWithin (n := 3) (by rfl)
  · refine ⟨[⟨.compat, "--compat", none⟩,
      ⟨.setting (.text .name), "--name", some ⟨"a", ⟨4, 7, 8⟩⟩⟩], ?_, rfl⟩
    exact Table.read_eq_of_streamWithin (n := 3) (by rfl)

end VmControl
