import VmControl.Proofs.Draft.Serving
import VmControl.Proofs.Line.Continuation
import VmControl.Proofs.Line.Serving
import VmControl.Proofs.Line.Visit

/-!
# The fields that a line writes

A line writes the fields of its arguments, those that its options are for, and, where a device may
be set, those that settings are moved to in the end.  Nothing else is written, and whatever a line
says that nobody takes is one of its arguments.

## Main definitions

* `Command.written`: the fields that lines of a command write.
* `Command.IsServed`: a command has a use for each of its options.

## Main statements

* `Command.ends_read`: reading a line writes these fields, or fails for an argument or a value.
-/

namespace VmControl

open Options
open Record (ChangesOnly Field)

/-! ## Which fields -/

/-- The fields that the options of a table write. -/
def CommandTable.written (t : CommandTable) (fields? : OptionId → Option (List Field)) :
    List Field :=
  t.entries.flatMap fun e => (servedFields? fields? e.id).getD []

/-- Whether there is a use for each option of a table. -/
def CommandTable.IsServed (t : CommandTable) (fields? : OptionId → Option (List Field)) : Prop :=
  ∀ e ∈ t.entries, (servedFields? fields? e.id).isSome

/-- The fields that an option of a line of a kind writes. -/
def LineKind.fields? : LineKind → OptionId → Option (List Field)
  | .guest => Draft.fields?
  | .migration => Migration.fields?
  | .backup => Backup.makingFields?
  | .restore => Backup.restoringFields?
  | .backupDelete => Backup.deletingFields?
  | .backupList => Backup.listingFields?
  | .server => Server.fields?
  | .statistics => Statistics.fields?
  | .problemReport => ProblemReport.fields?

/-- The fields that an option of a line of a family writes. -/
def FamilyKind.fields? : FamilyKind → OptionId → Option (List Field)
  | .nodeBackup => Backup.makingFields?
  | .virtualNetwork => VirtualNetwork.fields?
  | .privateNetwork => PrivateNetwork.fields?
  | .usb => UsbAssignment.fields?
  | .shaping => Server.fields?
  | .template => TemplateCopy.fields?

/-- The fields that the arguments of a line of a kind are for. -/
def LineKind.positional (kind : LineKind) (action : Action) : List Field :=
  match kind with
  | .guest =>
    (if action.takesTarget then [.target] else []) ++ action.argumentFields ++
      if action.takesGuestCommand then [.argv] else []
  | .migration => [.target, .login, .migration .newName, .migration .destination]
  | .backup => [.target, .backup .node]
  | .restore => [.target]
  | .backupDelete => [.target]
  | .backupList => [.target]
  | .server => []
  | .statistics => [.target]
  | .problemReport => if action = .problemReport then [.target] else []

/-- The fields that the arguments of a line of a family are for, by the word that says what is to be
done. -/
def FamilyKind.positional (kind : FamilyKind) (word : Option String) : List Field :=
  match kind with
  | .nodeBackup => []
  | .virtualNetwork =>
    if word = some "addif" then
      [.network .command, .network .name, .network (.setting (.text .ifName)),
       .network (.setting .kind)]
    else if word = some "delif" then
      [.network .command, .network (.setting (.text .ifName)), .network (.setting .kind)]
    else [.network .command, .network .name]
  | .privateNetwork => [.privateNetwork .command, .privateNetwork .name]
  | .usb =>
    if word = some "list" then []
    else if word = some "del" then [.usb .command, .usb .name]
    else [.usb .command, .usb .name, .usb .owner]
  | .shaping => []
  | .template =>
    if word = some "list" then [.setting (.mark .json)]
    else if word = some "remove" then [.template .command, .template .name, .template .osName]
    else [.template .name, .template .osName, .templateCopy .destination]

/-- **The fields that a line writes**, besides what it is for. -/
def Command.written (c : Command) (args : List String) : List Field :=
  match c with
  | .line kind action table _ =>
    kind.positional action ++ table.written kind.fields? ++
      if action = .set then Draft.movedFields else []
  | .family kind table start =>
    kind.positional args[start]? ++ if c.isClosed args then [] else table.written kind.fields?
  | .monitor => []

/-- Whether a field is one of the device, or one that settings for a device are moved to. -/
def Record.Field.isOfDevice : Field → Bool
  | .device _ => true
  | .searchDomains => true
  | .nameServers => true
  | _ => false

/-- Whether a command has a use for each of its options.  No option of a line about a guest changes
what the line is for, and only where settings are moved there are options for devices. -/
def Command.IsServed : Command → Prop
  | .line kind action table _ => table.IsServed kind.fields? ∧
    (kind = .guest → ∀ f ∈ table.written kind.fields?,
      f ≠ .action ∧ (action ≠ .set → f.isOfDevice = false))
  | .family kind table _ => table.IsServed kind.fields?
  | .monitor => True

instance (t : CommandTable) (fields? : OptionId → Option (List Field)) :
    Decidable (t.IsServed fields?) :=
  inferInstanceAs (Decidable (∀ e ∈ t.entries, _))

instance (c : Command) : Decidable c.IsServed :=
  match c with
  | .line kind action table _ => inferInstanceAs (Decidable (table.IsServed kind.fields? ∧
    (kind = .guest → ∀ f ∈ table.written kind.fields?,
      f ≠ .action ∧ (action ≠ .set → f.isOfDevice = false))))
  | .family kind table _ => inferInstanceAs (Decidable (table.IsServed kind.fields?))
  | .monitor => .isTrue trivial

/-- **Both programs have a use for each option of each command.** -/
theorem Program.isServed_of_command {p : Program} {args : List String} {c : Command}
    (h : p.command args = .ok c) : c.IsServed := by
  have hroster : ∀ l ∈ p.roster, l.command.IsServed := by cases p <;> decide +kernel
  obtain ⟨l, hl, rfl, -⟩ := exists_listing h
  exact hroster l hl

/-! ## Taking a table -/

theorem CommandTable.IsServed.exists_fields {t : CommandTable}
    {fields? : OptionId → Option (List Field)} (h : t.IsServed fields?) {args : List String}
    {start : Nat} {m : Match OptionId} (hm : .option m ∈ (t.read args start).events) :
    ∃ fields, servedFields? fields? m.id = some fields ∧ ∀ f ∈ fields, f ∈ t.written fields? := by
  obtain ⟨e, he, hid⟩ := Table.has_of_mem_read hm
  obtain ⟨fields, hfields⟩ := Option.isSome_iff_exists.1 (h e he)
  refine ⟨fields, hid ▸ hfields, fun f hf => List.mem_flatMap.2 ⟨e, he, ?_⟩⟩
  rw [hfields]
  exact hf

section Grammar

variable {α : Type} {g : Grammar α} {record : α → Record}
  {fields? : OptionId → Option (List Field)} {argument : Action → List Field} {t : CommandTable}
  {written : List Field} {args : List String} {start : Nat} {a : α}

/-- Taking a line to its end writes the fields of its table and of its arguments. -/
theorem Grammar.Handles.read (hg : g.Handles record fields? argument) (ht : t.IsServed fields?)
    (hsub : ∀ f ∈ t.written fields?, f ∈ written)
    (hargument : ∀ b, ChangesOnly written (record a) (record b) →
      ∀ f ∈ argument (record b).action, f ∈ written) :
    (g.read a (t.read args start)).Ends (fun b => ChangesOnly written (record a) (record b))
      (·.Blames (t.read args start).events) := by
  refine Grammar.ends_read (hg.steps (fun m hm => ?_) hargument)
  obtain ⟨fields, hfields, hmem⟩ := ht.exists_fields hm
  exact ⟨fields, hfields, fun f hf => hsub f (hmem f hf)⟩

/-- So does a line of records whose arguments are always for the same fields. -/
theorem Grammar.Handles.read_record {g : Grammar Record} {fields : List Field} {r₀ r : Record}
    (hg : g.Handles (fun r => r) fields? fun _ => fields) (ht : t.IsServed fields?)
    (hstart : ChangesOnly written r₀ r) (hsub : ∀ f ∈ t.written fields?, f ∈ written)
    (hfields : ∀ f ∈ fields, f ∈ written) :
    (g.read r (t.read args start)).Ends (ChangesOnly written r₀)
      (·.Blames (t.read args start).events) :=
  (hg.read ht hsub fun _ _ => hfields).mono (fun _ h => hstart.trans h) fun _ h => h

end Grammar

/-! ## The end of a line -/

/-- Rules that are enforced in the end change nothing. -/
theorem Reading.Ends.enforce {x : Reading Record} {P : Record → Prop}
    {events : List (Event OptionId)} (hx : x.Ends P (·.Blames events))
    (rules : Record → List Rule) :
    (do let r ← x
        Reading.ofExcept (Rule.enforce (rules r))
        return r : Reading Record).Ends P (·.Blames events) :=
  hx.bind fun r hr =>
    (Reading.ends_ofExcept (refusesValue_enforce (rules r)).blames fun _ _ => trivial).bind
      fun _ _ => Reading.ends_pure hr

namespace Record

/-- Paths are made full where they are given: a record that said nothing of them says nothing. -/
theorem ChangesOnly.of_consistent {fields : List Field} {host : Host} {r₀ r r' : Record}
    (h : ChangesOnly fields r₀ r) (hlocation : r₀.get (.setting (.text .location)) = none)
    (himage : r₀.get (.device (.setting (.text .image))) = none) (hr : r.consistent host = .ok r') :
    ChangesOnly fields r₀ r' := by
  simp only [consistent, bind_eq_ok] at hr
  obtain ⟨-, -, r₁, hr₁, r₂, hr₂, -, -, hr⟩ := hr
  cases hr
  have hfirst : ChangesOnly fields r₀ r₁ := by
    unfold resolveLocation at hr₁
    split at hr₁
    · cases hr₁
      exact h
    · next path hpath =>
      obtain ⟨full, -, rfl⟩ := map_eq_ok.1 hr₁
      refine h.trans ((r.changesOnly_set _ full).mono fun f hf => ?_)
      -- A location that is given is among the fields that were written.
      rw [List.mem_singleton.1 hf]
      refine Decidable.byContradiction fun hnone => ?_
      have hget : r.text? .location = none := (h _ hnone).trans hlocation
      rw [hget] at hpath
      cases hpath
  unfold resolveImage at hr₂
  split at hr₂
  · cases hr₂
    exact hfirst
  · next path hpath =>
    obtain ⟨full, -, rfl⟩ := map_eq_ok.1 hr₂
    refine hfirst.trans ((r₁.changesOnly_deviceSet _ full).mono fun f hf => ?_)
    rw [List.mem_singleton.1 hf]
    refine Decidable.byContradiction fun hnone => ?_
    have hget : r₁.device.text? .image = none := (hfirst _ hnone).trans himage
    rw [hget] at hpath
    cases hpath

theorem ends_settle (r : Record) (events : List (Event OptionId)) :
    r.settle.Ends (fun r' => ∃ host, r.consistent host = .ok r') (·.Blames events) := by
  have hread : (read : Reading Host).Ends (fun _ => True) (CommandError.Blames · events) := by
    simp [Reading.Ends]
  have hend : (do Reading.ofExcept (r.consistent (← read)) : Reading Record).Ends
      (fun r' => ∃ host, r.consistent host = .ok r') (·.Blames events) :=
    hread.bind fun host _ => Reading.ends_ofExcept (refusesValue_consistent host r).blames
      fun _ h => ⟨host, h⟩
  have hwarn (origin text : String) :
      (Reading.warn origin text).Ends (fun _ => True) (CommandError.Blames · events) := by
    simp [Reading.Ends]
  unfold settle
  split
  · exact (hwarn _ _).bind fun _ _ => Reading.ends_write.bind fun _ _ => hend
  · exact hend

end Record

/-- What a line about a guest ends as writes the fields of its draft, and those that settings are
moved to if there are devices. -/
theorem Draft.changesOnly_of_finish {written : List Field} {action : Action} {d : Draft}
    {r : Record} (h : ChangesOnly written (.ofAction action) d.whole)
    (hmoved : (∀ f ∈ movedFields, f ∈ written) ∨ ∀ f ∈ written, f.isOfDevice = false)
    (hr : d.finish = .ok r) : ChangesOnly written (.ofAction action) r := by
  rcases hmoved with hmoved | hdevice
  · exact h.trans ((changesOnly_finish hr).mono hmoved)
  · have hget (f : Field) (hf : f.isOfDevice = true) :
        d.whole.get f = (Record.ofAction action).get f :=
      h f fun hmem => by
        rw [hdevice f hmem] at hf
        cases hf
    have hempty : d.whole.device = ∅ := Device.ext_get fun f => hget (.device f) rfl
    rw [eq_whole_of_finish hr hempty (hget .searchDomains rfl) (hget .nameServers rfl)]
    exact h

/-! ## Whole lines -/

section Lines

variable {action : Action} {table : CommandTable} {start : Nat} {args : List String}

/-- The fields that the options of a line of a kind write are among those that it writes. -/
theorem mem_written_of_table {kind : LineKind} {f : Field} (h : f ∈ table.written kind.fields?) :
    f ∈ (Command.line kind action table start).written args :=
  List.mem_append_left _ (List.mem_append_right _ h)

/-- So are those of its arguments. -/
theorem mem_written_of_positional {kind : LineKind} {f : Field} (h : f ∈ kind.positional action) :
    f ∈ (Command.line kind action table start).written args :=
  List.mem_append_left _ (List.mem_append_left _ h)

/-- What a line about a guest is for does not change while it is read. -/
theorem action_notMem_written (h : (Command.line .guest action table start).IsServed) :
    .action ∉ (Command.line .guest action table start).written args := by
  have hpositional : .action ∉ LineKind.guest.positional action := by cases action <;> decide
  have hoptions : .action ∉ table.written LineKind.guest.fields? :=
    fun hmem => (h.2 rfl _ hmem).1 rfl
  have hmoved : .action ∉ if action = .set then Draft.movedFields else [] := by
    split <;> decide
  intro hmem
  rcases List.mem_append.1 hmem with hmem | hmem
  · exact (List.mem_append.1 hmem).elim hpositional hoptions
  · exact hmoved hmem

/-- Where settings are moved to a device, a line about a guest writes the fields that they are moved
to; where they are not, it writes nothing of a device. -/
theorem movedFields_written (h : (Command.line .guest action table start).IsServed) :
    (∀ f ∈ Draft.movedFields, f ∈ (Command.line .guest action table start).written args) ∨
      ∀ f ∈ (Command.line .guest action table start).written args, f.isOfDevice = false := by
  by_cases hset : action = .set
  · refine .inl fun f hf => List.mem_append_right _ ?_
    rwa [if_pos hset]
  · have hpositional : ∀ f ∈ LineKind.guest.positional action, f.isOfDevice = false := by
      cases action <;> decide
    refine .inr fun f hf => ?_
    unfold Command.written at hf
    dsimp only at hf
    rw [if_neg hset, List.append_nil] at hf
    rcases List.mem_append.1 hf with hf | hf
    · exact hpositional f hf
    · exact (h.2 rfl f hf).2 hset

theorem ends_readGuestLine (h : (Command.line .guest action table start).IsServed) :
    (readGuestLine action table start args).Ends
      (ChangesOnly ((Command.line .guest action table start).written args) (.ofAction action))
      (·.Blames (LineKind.guest.stream action table start args).events) := by
  have haction : .action ∉ (Command.line .guest action table start).written args :=
    action_notMem_written h
  have hmoved : (∀ f ∈ Draft.movedFields,
      f ∈ (Command.line .guest action table start).written args) ∨
      ∀ f ∈ (Command.line .guest action table start).written args, f.isOfDevice = false :=
    movedFields_written h
  have hpositional (f : Field) (hf : f ∈ LineKind.guest.positional action) :
      f ∈ (Command.line .guest action table start).written args := mem_written_of_positional hf
  have hoptions (f : Field) (hf : f ∈ table.written LineKind.guest.fields?) :
      f ∈ (Command.line .guest action table start).written args := mem_written_of_table hf
  generalize (Command.line .guest action table start).written args = written at *
  have hstart (target : Option String) : ChangesOnly written (.ofAction action)
      (Draft.mk { Record.ofAction action with
        target := if action.takesTarget then target else none } ∅ []).whole := by
    split
    · next htarget =>
      refine ((Record.ofAction action).changesOnly_target target).mono fun f hf => hpositional f ?_
      rw [List.mem_singleton.1 hf, LineKind.positional, if_pos htarget]
      exact List.mem_append_left _ (List.mem_append_left _ (List.mem_singleton.2 rfl))
    · exact ChangesOnly.refl _ _
  have hargument (r : Record) (hr : ChangesOnly written (.ofAction action) r) :
      ∀ f ∈ r.action.argumentFields, f ∈ written := by
    intro f hf
    rw [show r.action = action from hr .action haction] at hf
    exact hpositional f (List.mem_append_left _ (List.mem_append_right _ hf))
  unfold readGuestLine LineKind.stream
  dsimp only
  generalize hcommand : (if action.takesGuestCommand = true then _ else none) = command
  cases command with
  | some index =>
    have hguest : action.takesGuestCommand = true := by
      by_contra hnot
      rw [if_neg hnot] at hcommand
      cases hcommand
    have hargv : .argv ∈ written := hpositional _ (List.mem_append_right _ (by
      rw [if_pos hguest]
      exact List.mem_singleton.2 rfl))
    refine (Draft.handles_grammar_record.steps (fun m hm => ?_) fun d hd =>
      hargument _ ((hstart args[start]?).trans hd)).bind fun d hd => Reading.ends_pure ?_
    · obtain ⟨fields, hfields, hmem⟩ := h.1.exists_fields (mem_of_mem_splitGuestCommand hm)
      exact ⟨fields, hfields, fun f hf => hoptions f (hmem f hf)⟩
    · refine ((hstart _).trans hd).trans fun f hf => ?_
      cases f <;> first | rfl | exact absurd hargv hf
  | none =>
    have hread (d₀ : Draft) (h₀ : ChangesOnly written (.ofAction action) d₀.whole) :
        (Draft.grammar.read d₀ (table.read args (start + 1))).Ends
          (fun d => ChangesOnly written (.ofAction action) d.whole)
          (·.Blames (table.read args (start + 1)).events) :=
      (Draft.handles_grammar.read h.1 hoptions fun d hd => hargument _ (h₀.trans hd)).mono
        (fun d hd => h₀.trans hd) fun _ h => h
    refine (hread _ (hstart args[start]?)).bind fun d hd => ?_
    refine (Reading.ends_ofExcept d.refusesValue_finish.blames fun r hr =>
      Draft.changesOnly_of_finish hd hmoved hr).bind fun r hr => ?_
    exact (r.ends_settle _).mono (fun r' ⟨host, hr'⟩ => hr.of_consistent rfl rfl hr') fun _ h => h

/-- Reading a name changes nothing by itself. -/
theorem ends_readTarget (index : Nat) (role token : String) (events : List (Event OptionId)) :
    (readTarget index role token).Ends (fun _ => True) (·.Blames events) := by
  unfold readTarget
  split
  · exact (ends_readPositionalLogin index role _ events).bind fun _ _ => Reading.ends_pure trivial
  · exact Reading.ends_pure trivial

theorem ends_readMigrationLine (h : (Command.line .migration action table start).IsServed) :
    (readMigrationLine action table start args).Ends
      (ChangesOnly ((Command.line .migration action table start).written args) (.ofAction action))
      (·.Blames (LineKind.migration.stream action table start args).events) := by
  have hpositional (f : Field) (hf : f ∈ LineKind.migration.positional action) :
      f ∈ (Command.line .migration action table start).written args := mem_written_of_positional hf
  unfold readMigrationLine LineKind.stream
  dsimp only
  cases args[start]? with
  | none => exact Reading.ends_throw (CommandError.blames_of_isStray rfl _)
  | some source =>
    cases args[start + 1]? with
    | none => exact Reading.ends_throw (CommandError.blames_of_isStray rfl _)
    | some destination =>
      refine (ends_readTarget start "src" source _).bind fun target _ => ?_
      refine (ends_readPositionalLogin _ "dst" _ _).bind fun host _ => ?_
      refine Reading.Ends.enforce (Migration.handles_grammar.read_record h.1 ?_
        (fun f hf => mem_written_of_table hf) nofun) fun r => r.migration.rules
      refine ChangesOnly.mono (fun f hf => ?_) hpositional
      simp only [LineKind.positional, List.mem_cons, not_or] at hf
      cases f with
      | migration f => cases f <;> first | rfl | simp at hf
      | _ => first | rfl | simp at hf

theorem ends_readBackupLine (h : (Command.line .backup action table start).IsServed) :
    (readBackupLine action table start args).Ends
      (ChangesOnly ((Command.line .backup action table start).written args) (.ofAction action))
      (·.Blames (LineKind.backup.stream action table start args).events) := by
  have hpositional (f : Field) (hf : f ∈ LineKind.backup.positional action) :
      f ∈ (Command.line .backup action table start).written args := mem_written_of_positional hf
  have hoptions (f : Field) (hf : f ∈ table.written LineKind.backup.fields?) :
      f ∈ (Command.line .backup action table start).written args := mem_written_of_table hf
  unfold readBackupLine LineKind.stream
  dsimp only
  cases args[start]? with
  | none => exact Reading.ends_throw (CommandError.blames_of_isStray rfl _)
  | some guest =>
    refine (Backup.handles_makingGrammar.read_record h.1 (ChangesOnly.refl _ _) hoptions
      nofun).bind fun r hr => ?_
    refine (ends_readTarget start "node" guest _).bind fun target _ => Reading.ends_pure ?_
    refine hr.trans (ChangesOnly.mono (fun f hf => ?_) hpositional)
    simp only [LineKind.positional, List.mem_cons, not_or] at hf
    cases f with
    | backup f => cases f <;> first | rfl | simp at hf
    | _ => first | rfl | simp at hf

/-- A line with a choice of backups writes the fields of its options and the guest. -/
theorem ends_readBackupChoice {kind : LineKind} {grammar : Grammar Record}
    (hg : grammar.Handles (fun r => r) kind.fields? fun _ => [.target])
    (h : (Command.line kind action table start).IsServed)
    (htarget : .target ∈ kind.positional action) :
    (readBackupChoice grammar action table start args).Ends
      (ChangesOnly ((Command.line kind action table start).written args) (.ofAction action))
      (·.Blames (table.read args start).events) := by
  unfold readBackupChoice
  split
  · exact Reading.ends_throw (CommandError.blames_of_isStray rfl _)
  · refine hg.read_record h.1 (ChangesOnly.refl _ _) (fun f hf => mem_written_of_table hf)
      fun f hf => ?_
    rw [List.mem_singleton.1 hf]
    exact mem_written_of_positional htarget

theorem ends_readServerLine {written : List Field} (h : table.IsServed Server.fields?)
    (hsub : ∀ f ∈ table.written Server.fields?, f ∈ written) :
    (readServerLine action table start args).Ends (ChangesOnly written (.ofAction action))
      (·.Blames (table.read args start).events) :=
  Reading.Ends.enforce (Server.handles_grammar.read_record h (ChangesOnly.refl _ _) hsub nofun)
    fun r => r.server.rules

theorem ends_readProblemReportLine
    (h : (Command.line .problemReport action table start).IsServed) :
    (readProblemReportLine action table start args).Ends
      (ChangesOnly ((Command.line .problemReport action table start).written args)
        (.ofAction action))
      (·.Blames (LineKind.problemReport.stream action table start args).events) := by
  have hoptions (f : Field) (hf : f ∈ table.written LineKind.problemReport.fields?) :
      f ∈ (Command.line .problemReport action table start).written args := mem_written_of_table hf
  unfold readProblemReportLine LineKind.stream
  dsimp only
  split
  · next haction =>
    refine Reading.Ends.enforce (ProblemReport.handles_grammar.read_record h.1 ?_ hoptions nofun)
      fun r => r.report.rules
    refine ((Record.ofAction action).changesOnly_target _).mono fun f hf => ?_
    refine mem_written_of_positional ?_
    rw [LineKind.positional, if_pos haction]
    exact hf
  · exact Reading.Ends.enforce (ProblemReport.handles_grammar.read_record h.1 (ChangesOnly.refl _ _)
      hoptions nofun) fun r => r.report.rules

/-- **A line of a kind writes the fields of its arguments and options**, or fails for one of them.
-/
theorem LineKind.ends_read {kind : LineKind} (h : (Command.line kind action table start).IsServed) :
    (kind.read action table start args).Ends
      (ChangesOnly ((Command.line kind action table start).written args) (.ofAction action))
      (·.Blames (kind.stream action table start args).events) := by
  cases kind with
  | guest => exact ends_readGuestLine h
  | migration => exact ends_readMigrationLine h
  | backup => exact ends_readBackupLine h
  | restore =>
    exact ends_readBackupChoice Backup.handles_restoringGrammar h (List.mem_singleton.2 rfl)
  | backupDelete =>
    exact ends_readBackupChoice Backup.handles_deletingGrammar h (List.mem_singleton.2 rfl)
  | backupList =>
    -- Records are for guests of all kinds to begin with.
    exact Backup.handles_listingGrammar.read_record h.1 (ChangesOnly.refl _ _)
      (fun f hf => mem_written_of_table hf) fun f hf => mem_written_of_positional hf
  | server => exact ends_readServerLine h.1 fun f hf => mem_written_of_table hf
  | statistics =>
    exact Statistics.handles_grammar.read_record h.1 (ChangesOnly.refl _ _)
      (fun f hf => mem_written_of_table hf) fun f hf => mem_written_of_positional hf
  | problemReport => exact ends_readProblemReportLine h

end Lines

/-! ## Families -/

section Families

variable {table : CommandTable} {start : Nat} {args : List String}

/-- The fields that the options of a line of a family write are among those that it writes, unless
the line is complete without options. -/
theorem mem_written_of_open {kind : FamilyKind} {f : Field}
    (hopen : (Command.family kind table start).isClosed args = false)
    (h : f ∈ table.written kind.fields?) : f ∈ (Command.family kind table start).written args := by
  refine List.mem_append_right _ ?_
  rw [hopen]
  exact h

/-- So are those of its arguments. -/
theorem mem_written_of_words {kind : FamilyKind} {f : Field}
    (h : f ∈ kind.positional args[start]?) : f ∈ (Command.family kind table start).written args :=
  List.mem_append_left _ h

/-- A network that is put in place changes the fields of the network in which it differs. -/
theorem Record.changesOnly_network {written : List Field} {r : Record} {n : VirtualNetwork}
    (h : ∀ f, .network f ∉ written → n.get f = r.network.get f) :
    ChangesOnly written r { r with network := n } := by
  intro f hf
  cases f with
  | network f => exact h f hf
  | _ => rfl

/-- The words that are no short forms are for a network by its name. -/
theorem VirtualNetwork.positional_of_readCommand? {verb : String} {command : NetworkCommand}
    (h : readCommand? verb = some command) :
    FamilyKind.virtualNetwork.positional (some verb) = [.network .command, .network .name] := by
  have haddif : verb ≠ "addif" := by rintro rfl; cases h
  have hdelif : verb ≠ "delif" := by rintro rfl; cases h
  simp [FamilyKind.positional, haddif, hdelif]

/-- A short form sets what its words are for. -/
theorem VirtualNetwork.get_of_shortForm? {verb : String} {rest : List String} {n : VirtualNetwork}
    (h : shortForm? verb rest = some n) (f : VirtualNetwork.Field)
    (hf : .network f ∉ FamilyKind.virtualNetwork.positional (some verb)) :
    n.get f = VirtualNetwork.empty.get f := by
  have hset (n : VirtualNetwork) {k : NetworkSetting} (v : k.Value) (hk : f ≠ .setting k) :
      (n.set k v).get f = n.get f := by
    cases f with
    | setting k' => exact n.settings.get?_insert_of_ne v fun h => hk (h ▸ rfl)
    | _ => rfl
  unfold shortForm? at h
  split at h <;> cases h <;> simp [FamilyKind.positional] at hf
  · obtain ⟨hcommand, hname, hif, hkind⟩ := hf
    rw [hset _ _ hkind, hset _ _ hif]
    cases f <;> first | rfl | contradiction
  · obtain ⟨hcommand, hif, hkind⟩ := hf
    rw [hset _ _ hkind, hset _ _ hif]
    cases f <;> first | rfl | contradiction
  · obtain ⟨hcommand, hname⟩ := hf
    cases f <;> first | rfl | contradiction

theorem ends_readVirtualNetworkLine
    (h : (Command.family .virtualNetwork table start).IsServed) :
    (readVirtualNetworkLine table start args).Ends
      (ChangesOnly ((Command.family .virtualNetwork table start).written args)
        (.ofAction .serverVirtualNetwork))
      (·.Blames (FamilyKind.virtualNetwork.stream table start args).events) := by
  have hpositional (f : Field) (hf : f ∈ FamilyKind.virtualNetwork.positional args[start]?) :
      f ∈ (Command.family .virtualNetwork table start).written args := mem_written_of_words hf
  have hoptions (hopen : (args[start]?.bind VirtualNetwork.readCommand?).isNone = false) (f : Field)
      (hf : f ∈ table.written FamilyKind.virtualNetwork.fields?) :
      f ∈ (Command.family .virtualNetwork table start).written args := mem_written_of_open hopen hf
  unfold readVirtualNetworkLine FamilyKind.stream
  dsimp only
  rw [← List.head?_drop] at hpositional hoptions
  generalize args.drop start = words at hpositional hoptions ⊢
  cases words with
  | nil => exact Reading.ends_throw (CommandError.blames_of_isStray rfl _)
  | cons verb rest =>
    dsimp only [List.head?_cons, Option.bind_some] at hpositional hoptions ⊢
    cases hcommand : VirtualNetwork.readCommand? verb with
    | some command =>
      rw [hcommand] at hoptions
      rw [VirtualNetwork.positional_of_readCommand? hcommand] at hpositional
      refine Reading.Ends.enforce (VirtualNetwork.handles_grammar.read_record h
        (Record.changesOnly_network fun f hf => ?_) (hoptions rfl) fun f hf => ?_)
        fun r => r.network.rules
      · have hne : f ≠ .command := fun hf' =>
          hf (hpositional _ (hf' ▸ List.mem_cons_self ..))
        cases f <;> first | rfl | contradiction
      · exact hpositional f (List.mem_cons_of_mem _ hf)
    | none =>
      cases hshort : VirtualNetwork.shortForm? verb rest with
      | some network =>
        refine Reading.ends_pure (Record.changesOnly_network fun f hf => ?_)
        exact VirtualNetwork.get_of_shortForm? hshort f fun hmem => hf (hpositional _ hmem)
      | none => exact Reading.ends_throw (CommandError.blames_of_isStray rfl _)

theorem ends_readPrivateNetworkLine
    (h : (Command.family .privateNetwork table start).IsServed) :
    (readPrivateNetworkLine table start args).Ends
      (ChangesOnly ((Command.family .privateNetwork table start).written args)
        (.ofAction .serverPrivateNetwork))
      (·.Blames (FamilyKind.privateNetwork.stream table start args).events) := by
  have hpositional (f : Field) (hf : f ∈ FamilyKind.privateNetwork.positional args[start]?) :
      f ∈ (Command.family .privateNetwork table start).written args := mem_written_of_words hf
  have hcommand : .privateNetwork .command ∈
      (Command.family .privateNetwork table start).written args :=
    hpositional _ (List.mem_cons_self ..)
  unfold readPrivateNetworkLine
  split
  · exact Reading.ends_throw (CommandError.blames_of_isStray rfl _)
  · refine Reading.Ends.enforce (PrivateNetwork.handles_grammar.read_record h
      (ChangesOnly.mono (Record.changesOnly_privateNetwork (f := .command) fun f hf => ?_)
        fun f hf => List.mem_singleton.1 hf ▸ hcommand)
      (fun f hf => mem_written_of_open rfl hf)
      fun f hf => hpositional f (List.mem_cons_of_mem _ hf)) fun r => r.privateNetwork.rules
    cases f <;> first | rfl | contradiction

theorem ends_readUsbLine (h : (Command.family .usb table start).IsServed) :
    (readUsbLine table start args).Ends
      (ChangesOnly ((Command.family .usb table start).written args) (.ofAction .serverUsb))
      (·.Blames (FamilyKind.usb.stream table start args).events) := by
  have hpositional (f : Field) (hf : f ∈ FamilyKind.usb.positional args[start]?) :
      f ∈ (Command.family .usb table start).written args := mem_written_of_words hf
  have hoptions (f : Field) (hf : f ∈ table.written FamilyKind.usb.fields?) :
      f ∈ (Command.family .usb table start).written args := mem_written_of_open rfl hf
  unfold readUsbLine FamilyKind.stream
  dsimp only
  rw [← List.head?_drop] at hpositional
  generalize args.drop start = words at hpositional ⊢
  cases husb : UsbAssignment.ofWords? words with
  | none => exact Reading.ends_throw (CommandError.blames_of_isStray rfl _)
  | some usb =>
    refine UsbAssignment.handles_grammar.read_record h (fun f hf => ?_) hoptions nofun
    have hnot := fun hmem => hf (hpositional f hmem)
    unfold UsbAssignment.ofWords? at husb
    split at husb <;> cases husb <;> simp [FamilyKind.positional] at hnot
    all_goals
      cases f with
      | usb f => cases f <;> first | rfl | simp at hnot
      | _ => rfl

theorem ends_readShapingLine (h : (Command.family .shaping table start).IsServed) :
    (readShapingLine table start args).Ends
      (ChangesOnly ((Command.family .shaping table start).written args)
        (.ofAction .serverShapingRestart))
      (·.Blames (FamilyKind.shaping.stream table start args).events) := by
  have hoptions (f : Field) (hf : f ∈ table.written FamilyKind.shaping.fields?) :
      f ∈ (Command.family .shaping table start).written args := mem_written_of_open rfl hf
  unfold readShapingLine
  split
  · exact ends_readServerLine h hoptions
  · exact Reading.ends_throw (CommandError.blames_of_isStray rfl _)

theorem ends_readTemplateCopyLine {written : List Field} (h : table.IsServed TemplateCopy.fields?)
    (hpositional : ∀ f ∈ FamilyKind.template.positional (some "copy"), f ∈ written)
    (hoptions : ∀ f ∈ table.written TemplateCopy.fields?, f ∈ written) :
    (readTemplateCopyLine table (start + 1) args).Ends
      (ChangesOnly written (.ofAction .serverTemplateCopy))
      (·.Blames (match args.drop (start + 1) with
        | _ :: _ :: rest => table.read args (start + 1 + 2 + (TemplateCopy.systemTemplate rest).2)
        | _ => ∅ : Stream OptionId).events) := by
  unfold readTemplateCopyLine
  rcases args.drop (start + 1) with _ | ⟨host, _ | ⟨name, rest⟩⟩
  · exact Reading.ends_throw (CommandError.blames_of_isStray rfl _)
  · exact Reading.ends_throw (CommandError.blames_of_isStray rfl _)
  · refine (ends_readPositionalLogin _ "dst" _ _).bind fun login _ => ?_
    refine TemplateCopy.handles_grammar.read_record h (fun f hf => ?_) hoptions nofun
    have hnot := fun hmem => hf (hpositional f hmem)
    simp only [FamilyKind.positional] at hnot
    cases f with
    | template f => cases f <;> first | rfl | simp at hnot
    | templateCopy f => cases f <;> first | rfl | simp at hnot
    | _ => rfl

theorem ends_readTemplateLine (h : (Command.family .template table start).IsServed) :
    (readTemplateLine table start args).Ends
      (ChangesOnly ((Command.family .template table start).written args)
        (.ofAction (FamilyKind.template.action start args)))
      (·.Blames (FamilyKind.template.stream table start args).events) := by
  have hpositional (f : Field) (hf : f ∈ FamilyKind.template.positional args[start]?) :
      f ∈ (Command.family .template table start).written args := mem_written_of_words hf
  have hoptions (hopen : (args[start]? != some "copy") = false) (f : Field)
      (hf : f ∈ table.written FamilyKind.template.fields?) :
      f ∈ (Command.family .template table start).written args := mem_written_of_open hopen hf
  unfold readTemplateLine FamilyKind.stream FamilyKind.action
  dsimp only
  rw [← List.head?_drop] at hpositional hoptions
  generalize (Command.family .template table start).written args = written at hpositional hoptions ⊢
  by_cases hcopy : (args.drop start).head? = some "copy"
  · obtain ⟨rest, hrest⟩ := List.head?_eq_some_iff.1 hcopy
    rw [if_pos hcopy, if_pos hcopy]
    rw [hcopy] at hpositional hoptions
    rw [hrest]
    exact ends_readTemplateCopyLine h hpositional (hoptions rfl)
  · rw [if_neg hcopy, if_neg hcopy]
    generalize args.drop start = words at hpositional hcopy ⊢
    split
    case h_4 => exact absurd rfl hcopy
    case h_1 rest =>
      refine Reading.ends_pure ?_
      split
      · exact ((Record.ofAction .serverTemplate).changesOnly_mark .json).mono hpositional
      · exact ChangesOnly.refl _ _
    case h_2 name rest =>
      refine Reading.ends_pure (ChangesOnly.mono (fun f hf => ?_) hpositional)
      simp only [FamilyKind.positional, List.head?_cons] at hf
      cases f with
      | template f => cases f <;> first | rfl | simp at hf
      | _ => rfl
    all_goals exact Reading.ends_throw (CommandError.blames_of_isStray rfl _)

/-- **A line of a family writes the fields of its arguments and options**, or fails for one of them.
-/
theorem FamilyKind.ends_read {kind : FamilyKind} (h : (Command.family kind table start).IsServed) :
    (kind.read table start args).Ends
      (ChangesOnly ((Command.family kind table start).written args)
        (.ofAction (kind.action start args)))
      (·.Blames (kind.stream table start args).events) := by
  cases kind with
  | nodeBackup =>
    exact Backup.handles_makingGrammar.read_record h (ChangesOnly.refl _ _)
      (fun f hf => mem_written_of_open rfl hf) nofun
  | virtualNetwork => exact ends_readVirtualNetworkLine h
  | privateNetwork => exact ends_readPrivateNetworkLine h
  | usb => exact ends_readUsbLine h
  | shaping => exact ends_readShapingLine h
  | template => exact ends_readTemplateLine h

end Families

/-- **A line writes its fields**, and what it says that nobody takes is one of its arguments. -/
theorem Command.ends_read {c : Command} (h : c.IsServed) (args : List String) :
    (c.read args).Ends (ChangesOnly (c.written args) (.ofAction (c.action args)))
      (·.Blames (c.stream args).events) := by
  cases c with
  | line kind action table start => exact kind.ends_read h
  | family kind table start => exact kind.ends_read h
  | monitor =>
    simp only [read, readMonitorLine]
    split
    · exact Reading.ends_pure (ChangesOnly.refl _ _)
    · exact Reading.ends_throw (CommandError.blames_of_isStray rfl _)

end VmControl
