import VmControl.Proofs.Line.Layout

/-!
# What was read before

What a reading comes to, and what it does, is the same wherever it starts.  The preferences that it
leaves are those that it found, changed by the options that it came to.  Only what is logged depends
on them: they may ask for errors alone.

## Main definitions

* `Preferences.take`: what an option makes of the preferences.
* `Effects.extend`: the effects of a reading after those that it found.
* `Reading.Steady`, `Reading.Uniform`: what a reading does is the same wherever it starts, and
  nothing is logged, or what is logged depends on the preferences.

## Main statements

* `Grammar.steady_steps`: taking options and arguments is steady.
* `Program.uniform_read`: what a program reads is uniform.
-/

namespace VmControl

open Numeral Options

/-! ## Preferences and notes -/

/-- What an option makes of the preferences. -/
def Preferences.take (p : Preferences) (m : Match OptionId) : Preferences :=
  match m.id with
  | .verbose => { p with verbosity := leading m.text.toList }
  | .compat => { p with compat := true }
  | .timeout => { p with timeout := some (leading m.text.toList).toNat }
  | _ => p

/-- What the options of a line make of the preferences. -/
def Preferences.takeAll (p : Preferences) (ms : List (Match OptionId)) : Preferences :=
  ms.foldl take p

/-- Whether a note is a warning for the log. -/
def Note.isWarning : Note → Bool
  | .warning .. => true
  | _ => false

/-- Whether a note is written under these preferences. -/
def Note.isWritten (p : Preferences) (n : Note) : Bool := !n.isWarning || decide (0 ≤ p.verbosity)

theorem Note.isWritten_of_isWarning_eq_false {n : Note} (h : n.isWarning = false)
    (p : Preferences) : n.isWritten p = true := by
  simp [isWritten, h]

/-! ## Deeds -/

/-- What a reading does, wherever it starts. -/
structure Deed where
  /-- The options that it comes to. -/
  options : List (Match OptionId)
  /-- The logins that it comes to. -/
  logins : List PlacedLogin
  /-- What it wipes. -/
  wiped : List Slot
  /-- What it writes, and what it logs unless errors alone are asked for. -/
  notes : List Note

namespace Deed

/-- To do nothing. -/
def none : Deed := ⟨[], [], [], []⟩

/-- To do one thing after another. -/
def append (d d' : Deed) : Deed :=
  ⟨d.options ++ d'.options, d.logins ++ d'.logins, d.wiped ++ d'.wiped, d.notes ++ d'.notes⟩

/-- Whether nothing is logged. -/
def IsSilent (d : Deed) : Prop := ∀ n ∈ d.notes, n.isWarning = false

theorem isSilent_none : none.IsSilent := nofun

theorem IsSilent.append {d d' : Deed} (h : d.IsSilent) (h' : d'.IsSilent) :
    (d.append d').IsSilent :=
  fun n hn => (List.mem_append.1 hn).elim (h n) (h' n)

theorem IsSilent.filter {d : Deed} (h : d.IsSilent) (p : Preferences) :
    d.notes.filter (·.isWritten p) = d.notes :=
  List.filter_eq_self.2 fun n hn => Note.isWritten_of_isWarning_eq_false (h n hn) p

end Deed

namespace Effects

/-- The effects after a deed. -/
def extend (e : Effects) (d : Deed) : Effects where
  preferences := e.preferences.takeAll d.options
  options := e.options ++ d.options
  logins := e.logins ++ d.logins
  wiped := e.wiped ++ d.wiped
  notes := e.notes ++ d.notes.filter (·.isWritten (e.preferences.takeAll d.options))

theorem extend_none (e : Effects) : e.extend .none = e := by
  simp [extend, Deed.none, Preferences.takeAll]

/-- A deed after which something is logged can be told from what was logged only if it changes the
preferences itself. -/
theorem extend_extend (e : Effects) {d : Deed} (h : d.IsSilent) (d' : Deed) :
    (e.extend d).extend d' = e.extend (d.append d') := by
  have htake : (e.preferences.takeAll d.options).takeAll d'.options =
      e.preferences.takeAll (d.options ++ d'.options) :=
    (List.foldl_append ..).symm
  simp only [extend, Deed.append, htake, List.append_assoc, List.filter_append, h.filter]

end Effects

/-! ## Steady readings -/

namespace Reading

variable {α β : Type}

/-- Whether a reading comes to a result and does a deed, wherever it starts. -/
def Does (x : Reading α) (host : Host) (out : Except CommandError α) (d : Deed) : Prop :=
  ∀ e, x.after host e = (out, e.extend d)

/-- Whether it is the same result and the same deed wherever the reading starts. -/
def Uniform (x : Reading α) : Prop := ∀ host, ∃ out d, x.Does host out d

/-- Whether nothing is logged besides. -/
def Steady (x : Reading α) : Prop := ∀ host, ∃ out d, d.IsSilent ∧ x.Does host out d

theorem Steady.uniform {x : Reading α} (h : x.Steady) : x.Uniform := fun host =>
  let ⟨out, d, _, hd⟩ := h host
  ⟨out, d, hd⟩

section Bind

variable {x : Reading α} {f : α → Reading β} {host : Host} {d d' : Deed}

/-- One deed follows the other. -/
theorem Does.bind {a : α} {out : Except CommandError β} (hx : x.Does host (.ok a) d)
    (hd : d.IsSilent) (hf : (f a).Does host out d') : (x >>= f).Does host out (d.append d') := by
  intro e
  rw [after_bind, hx]
  dsimp only
  rw [hf, e.extend_extend hd]

/-- Nothing follows a failure. -/
theorem Does.bind_error {u : CommandError} (hx : x.Does host (.error u) d) :
    (x >>= f).Does host (.error u) d := by
  intro e
  rw [after_bind, hx]

/-- **What follows a steady reading is found to start anywhere.** -/
theorem Steady.bind_uniform (hx : x.Steady) (hf : ∀ a, (f a).Uniform) : (x >>= f).Uniform := by
  intro host
  obtain ⟨out, d, hsilent, hd⟩ := hx host
  cases out with
  | error u => exact ⟨_, _, hd.bind_error⟩
  | ok a =>
    obtain ⟨out', d', hd'⟩ := hf a host
    exact ⟨_, _, hd.bind hsilent hd'⟩

/-- So steady readings follow each other steadily. -/
@[simp] theorem Steady.bind (hx : x.Steady) (hf : ∀ a, (f a).Steady) : (x >>= f).Steady := by
  intro host
  obtain ⟨out, d, hsilent, hd⟩ := hx host
  cases out with
  | error u => exact ⟨_, _, hsilent, hd.bind_error⟩
  | ok a =>
    obtain ⟨out', d', hsilent', hd'⟩ := hf a host
    exact ⟨_, _, hsilent.append hsilent', hd.bind hsilent hd'⟩

end Bind

@[simp] theorem steady_pure (a : α) : (pure a : Reading α).Steady :=
  fun _ => ⟨_, .none, Deed.isSilent_none, fun e => by rw [after_pure, e.extend_none]⟩

@[simp] theorem steady_throw (u : CommandError) : (throw u : Reading α).Steady :=
  fun _ => ⟨_, .none, Deed.isSilent_none, fun e => by rw [after_throw, e.extend_none]⟩

@[simp] theorem steady_ofExcept (x : Except CommandError α) : (ofExcept x).Steady :=
  fun _ => ⟨_, .none, Deed.isSilent_none, fun e => by rw [after_ofExcept, e.extend_none]⟩

@[simp] theorem steady_read : (read : Reading Host).Steady :=
  fun _ => ⟨_, .none, Deed.isSilent_none, fun e => by rw [after_read, e.extend_none]⟩

@[simp] theorem steady_readFile (path : String) : (readFile path).Steady :=
  fun _ => ⟨_, .none, Deed.isSilent_none, fun e => by rw [after_readFile, e.extend_none]⟩

@[simp] theorem steady_wipe (s : Option Slot) : (wipe s).Steady :=
  fun _ => ⟨.ok (), ⟨[], [], s.toList, []⟩, nofun, fun e => by
    simp [Effects.extend, Preferences.takeAll]⟩

@[simp] theorem steady_enterLogin (l : PlacedLogin) : (enterLogin l).Steady :=
  fun _ => ⟨.ok (), ⟨[], [l], [], []⟩, nofun, fun e => by
    simp [Effects.extend, Preferences.takeAll]⟩

theorem steady_write {n : Note} (h : n.isWarning = false) : (write n).Steady :=
  fun _ => ⟨.ok (), ⟨[], [], [], [n]⟩, fun n' hn' => by rwa [List.mem_singleton.1 hn'], fun e => by
    simp [Effects.extend, Preferences.takeAll, Effects.addNote, Note.isWritten, h]⟩

@[simp] theorem steady_output (text : String) : (write (.output text)).Steady := steady_write rfl

@[simp] theorem steady_complaint (line : String) : (write (.complaint line)).Steady :=
  steady_write rfl

@[simp] theorem steady_map {x : Reading α} {f : α → β} (hx : x.Steady) : (f <$> x).Steady := by
  rw [map_eq_pure_bind]
  exact hx.bind fun a => steady_pure (f a)

/-- An option that leaves the preferences alone is come to wherever a reading starts. -/
theorem steady_enter {m : Match OptionId} (h : ∀ p : Preferences, p.take m = p) :
    (enter m).Steady :=
  fun _ => ⟨.ok (), ⟨[m], [], [], []⟩, nofun, fun e => by
    simp [Effects.extend, Preferences.takeAll, h]⟩

/-- An option that changes the preferences is come to and changes them. -/
theorem steady_enter_prefer (m : Match OptionId) :
    (do enter m; prefer fun p => p.take m : Reading Unit).Steady :=
  fun _ => ⟨.ok (), ⟨[m], [], [], []⟩, nofun, fun e => by
    simp [Effects.extend, Preferences.takeAll]⟩

end Reading

@[simp] theorem steady_readLogin (m : Match OptionId) : (readLogin m).Steady :=
  (Reading.steady_wipe _).bind fun _ => by cases LoginText.read m.text <;> simp

@[simp] theorem steady_readSecret (m : Match OptionId) : (readSecret m).Steady := by
  simp [readSecret]

@[simp] theorem steady_readSecurityLevel (m : Match OptionId) : (readSecurityLevel m).Steady := by
  unfold readSecurityLevel
  split <;> simp

@[simp] theorem steady_readPositionalLogin (index : Nat) (role text : String) :
    (readPositionalLogin index role text).Steady := by
  unfold readPositionalLogin
  split <;> simp

@[simp] theorem steady_readTarget (index : Nat) (role token : String) :
    (readTarget index role token).Steady := by
  unfold readTarget
  split <;> simp

/-! ## Grammars -/

/-- Whether a grammar takes options and arguments steadily. -/
structure Grammar.Steady {α : Type} (g : Grammar α) : Prop where
  /-- Arguments are taken the same way wherever a reading starts. -/
  argument : ∀ index token a, (g.argument index token a).Steady
  /-- So are options. -/
  option : ∀ m a, (g.option m a).Steady

section Grammar

variable {α : Type} {g : Grammar α}

/-- An option of every command is come to and taken. -/
theorem steady_enter_readCommonOption (m : Match OptionId) :
    (do Reading.enter m; readCommonOption m : Reading (Option (Login → Login))).Steady := by
  have hprefer (h : readCommonOption m =
      do Reading.prefer (fun p => p.take m); return some id) :
      (do Reading.enter m; readCommonOption m : Reading (Option (Login → Login))).Steady := by
    rw [h]
    exact (Reading.steady_enter_prefer m).bind fun _ => Reading.steady_pure (some id)
  have hother (htake : ∀ p : Preferences, p.take m = p) (h : (readCommonOption m).Steady) :
      (do Reading.enter m; readCommonOption m : Reading (Option (Login → Login))).Steady :=
    (Reading.steady_enter htake).bind fun _ => h
  cases hid : m.id with
  | verbose | compat | timeout =>
    exact hprefer (by simp only [readCommonOption, hid, Preferences.take])
  | _ =>
    refine hother (fun p => ?_) ?_
    · simp only [Preferences.take, hid]
    · simp [readCommonOption, readPasswordFile, hid]

theorem Grammar.Steady.step (hg : g.Steady) (a : α) (e : Event OptionId) : (g.step a e).Steady := by
  cases e with
  | unknown index token => exact hg.argument index token a
  | option m =>
    unfold Grammar.step
    dsimp only
    rw [← bind_assoc]
    refine (steady_enter_readCommonOption m).bind fun f => ?_
    cases f with
    | some f => exact Reading.steady_pure _
    | none => exact hg.option m a

/-- **Taking options and arguments is steady.** -/
theorem Grammar.Steady.steps (hg : g.Steady) (a : α) (events : List (Event OptionId)) :
    (g.steps a events).Steady :=
  Grammar.steps_induction Reading.steady_pure (fun _ _ hx hf => hx.bind hf)
    (fun event _ a => hg.step a event) a

/-- So is taking a line to its end. -/
theorem Grammar.Steady.read (hg : g.Steady) (a : α) (s : Stream OptionId) : (g.read a s).Steady :=
  (hg.steps a s.events).bind fun a => by cases s.missing <;> simp

end Grammar

@[simp] theorem steady_refuseArgument {α : Type} (index : Nat) (token : String) (a : α) :
    (refuseArgument index token a).Steady := by
  simp [refuseArgument]

@[simp] theorem steady_refuseOption {α : Type} (m : Match OptionId) :
    (refuseOption m : Reading α).Steady := by
  simp [refuseOption]

namespace Backup

@[simp] theorem steady_takeStorage (m : Match OptionId) (r : Record) :
    (takeStorage m r).Steady := by
  simp [takeStorage]

@[simp] theorem steady_takeSecurityLevel (m : Match OptionId) (r : Record) :
    (takeSecurityLevel m r).Steady := by
  simp [takeSecurityLevel]

@[simp] theorem steady_takeId (m : Match OptionId) (r : Record) : (takeId m r).Steady := by
  simp [takeId]

@[simp] theorem steady_takeOnlyTarget (index : Nat) (token : String) (r : Record) :
    (takeOnlyTarget index token r).Steady := by
  unfold takeOnlyTarget
  split
  · simp
  · split <;> simp

theorem steady_makingGrammar : makingGrammar.Steady where
  argument := steady_refuseArgument
  option m r := by
    simp only [makingGrammar, recordGrammar, takeMakingOption]
    split <;> simp

theorem steady_restoringGrammar : restoringGrammar.Steady where
  argument := steady_takeOnlyTarget
  option m r := by
    simp only [restoringGrammar, recordGrammar, takeRestoringOption]
    split <;> simp

theorem steady_deletingGrammar : deletingGrammar.Steady where
  argument := steady_takeOnlyTarget
  option m r := by
    simp only [deletingGrammar, recordGrammar, takeDeletingOption]
    split <;> simp

theorem steady_listingGrammar : listingGrammar.Steady where
  argument _ _ _ := by simp [listingGrammar, recordGrammar, takeLastTarget]
  option m r := by
    simp only [listingGrammar, recordGrammar, takeListingOption]
    split <;> simp

end Backup

theorem Server.steady_grammar : grammar.Steady where
  argument := steady_refuseArgument
  option m r := by
    have hstorage (s : Server) : (takeStorage m s).Steady := by simp [takeStorage]
    have hkey (path : String) : (readKey path).Steady := by
      unfold readKey
      split <;> simp
    simp only [grammar, recordGrammar, takeOption]
    split
    all_goals try simp [hstorage, hkey]
    split <;> simp

theorem Migration.steady_grammar : grammar.Steady where
  argument := steady_refuseArgument
  option m r := by
    simp only [grammar, recordGrammar, takeOption]
    split <;> simp

theorem VirtualNetwork.steady_grammar : grammar.Steady where
  argument _ _ r := by
    simp only [grammar, recordGrammar, takeName]
    split <;> simp
  option m r := by
    simp only [grammar, recordGrammar, takeOption]
    split <;> try simp
    all_goals split <;> simp

theorem PrivateNetwork.steady_grammar : grammar.Steady where
  argument _ _ r := by
    simp only [grammar, recordGrammar, takeName]
    split <;> simp
  option m r := by
    simp only [grammar, recordGrammar, takeOption]
    split <;> try simp
    split <;> simp

theorem UsbAssignment.steady_grammar : grammar.Steady where
  argument := steady_refuseArgument
  option m r := by
    simp only [grammar, recordGrammar, takeOption]
    split <;> simp

theorem Statistics.steady_grammar : grammar.Steady where
  argument _ _ _ := by simp [grammar, recordGrammar, takeTarget]
  option m r := by
    simp only [grammar, recordGrammar, takeOption]
    split <;> simp

theorem TemplateCopy.steady_grammar : grammar.Steady where
  argument := steady_refuseArgument
  option m r := by
    simp only [grammar, recordGrammar, takeOption]
    split <;> simp

theorem ProblemReport.steady_grammar : grammar.Steady where
  argument := steady_refuseArgument
  option m r := by
    simp only [grammar, recordGrammar, takeOption]
    split <;> simp

namespace Draft

@[simp] theorem steady_showGuests (option value : String) (guests : List Guest)
    (listed : CommandError) : (showGuests option value guests listed).Steady := by
  simp only [showGuests]
  split <;> simp

theorem steady_apply (m : Match OptionId) (d : Draft) : (apply m d).Steady := by
  unfold apply
  cases d.conflict? m.id with
  | some u => simp
  | none =>
    dsimp only
    split
    case h_2 | h_3 | h_4 => split <;> simp
    case h_5 s hid => cases s.isCredential <;> simp
    all_goals simp

theorem steady_grammar : grammar.Steady where
  argument _ _ d := by
    simp only [grammar, takeArgument]
    split <;> simp
  option := steady_apply

end Draft

/-! ## Whole lines -/

/-- The end of a line about a guest may log something, in one way wherever the line starts. -/
theorem Record.uniform_settle (r : Record) : r.settle.Uniform := by
  have hend : (do Reading.ofExcept (r.consistent (← read)) : Reading Record).Steady := by simp
  unfold settle
  split
  · refine fun host => ⟨r.consistent host, ⟨[], [], [],
      [.warning "prlctl::validate" "--distribution given for a container",
       .complaint "The options --distribution and --ostype are ignored when creating Containers."]⟩,
      fun e => ?_⟩
    by_cases h : 0 ≤ e.preferences.verbosity <;>
      simp [h, Effects.extend, Effects.addNote, Preferences.takeAll, Note.isWritten, Note.isWarning]
  · exact hend.uniform

section Lines

variable {action : Action} {table : CommandTable} {start : Nat} {args : List String}

theorem uniform_readGuestLine : (readGuestLine action table start args).Uniform := by
  unfold readGuestLine
  dsimp only
  generalize (if action.takesGuestCommand = true then _ else none) = command
  cases command with
  | some index =>
    exact ((Draft.steady_grammar.steps _ _).bind fun d => Reading.steady_pure _).uniform
  | none =>
    exact (Draft.steady_grammar.read _ _).bind_uniform fun d =>
      (Reading.steady_ofExcept d.finish).bind_uniform Record.uniform_settle

theorem steady_readMigrationLine : (readMigrationLine action table start args).Steady := by
  unfold readMigrationLine
  split
  · exact (steady_readTarget _ _ _).bind fun _ => (steady_readPositionalLogin _ _ _).bind fun _ =>
      (Migration.steady_grammar.read _ _).bind fun _ => by simp
  · simp

theorem steady_readBackupLine : (readBackupLine action table start args).Steady := by
  unfold readBackupLine
  split
  · simp
  · exact (Backup.steady_makingGrammar.read _ _).bind fun _ => by simp

theorem steady_readBackupChoice {grammar : Grammar Record} (hg : grammar.Steady) :
    (readBackupChoice grammar action table start args).Steady := by
  unfold readBackupChoice
  split
  · simp
  · exact hg.read _ _

theorem steady_readServerLine : (readServerLine action table start args).Steady :=
  (Server.steady_grammar.read _ _).bind fun _ => by simp

theorem steady_readProblemReportLine : (readProblemReportLine action table start args).Steady := by
  unfold readProblemReportLine
  dsimp only
  split <;> exact (ProblemReport.steady_grammar.read _ _).bind fun _ => by simp

/-- A line of a kind is read the same way wherever it starts. -/
theorem LineKind.uniform_read {kind : LineKind} : (kind.read action table start args).Uniform := by
  cases kind with
  | guest => exact uniform_readGuestLine
  | migration => exact steady_readMigrationLine.uniform
  | backup => exact steady_readBackupLine.uniform
  | restore => exact (steady_readBackupChoice Backup.steady_restoringGrammar).uniform
  | backupDelete => exact (steady_readBackupChoice Backup.steady_deletingGrammar).uniform
  | backupList => exact (Backup.steady_listingGrammar.read _ _).uniform
  | server => exact steady_readServerLine.uniform
  | statistics => exact (Statistics.steady_grammar.read _ _).uniform
  | problemReport => exact steady_readProblemReportLine.uniform

theorem steady_readVirtualNetworkLine : (readVirtualNetworkLine table start args).Steady := by
  unfold readVirtualNetworkLine
  dsimp only
  split
  · simp
  · split
    · exact (VirtualNetwork.steady_grammar.read _ _).bind fun _ => by simp
    · split <;> simp

theorem steady_readPrivateNetworkLine : (readPrivateNetworkLine table start args).Steady := by
  unfold readPrivateNetworkLine
  split
  · simp
  · exact (PrivateNetwork.steady_grammar.read _ _).bind fun _ => by simp

theorem steady_readUsbLine : (readUsbLine table start args).Steady := by
  unfold readUsbLine
  split
  · simp
  · exact UsbAssignment.steady_grammar.read _ _

theorem steady_readShapingLine : (readShapingLine table start args).Steady := by
  unfold readShapingLine
  split
  · exact steady_readServerLine
  · simp

theorem steady_readTemplateLine : (readTemplateLine table start args).Steady := by
  have hcopy : (readTemplateCopyLine table (start + 1) args).Steady := by
    unfold readTemplateCopyLine
    split
    · exact (steady_readPositionalLogin _ _ _).bind fun _ => TemplateCopy.steady_grammar.read _ _
    · simp
  unfold readTemplateLine
  dsimp only
  split
  case h_4 => exact hcopy
  all_goals simp

/-- So is a line of a family, and nothing is logged. -/
theorem FamilyKind.steady_read {kind : FamilyKind} : (kind.read table start args).Steady := by
  cases kind with
  | nodeBackup => exact Backup.steady_makingGrammar.read _ _
  | virtualNetwork => exact steady_readVirtualNetworkLine
  | privateNetwork => exact steady_readPrivateNetworkLine
  | usb => exact steady_readUsbLine
  | shaping => exact steady_readShapingLine
  | template => exact steady_readTemplateLine

end Lines

theorem Command.uniform_read (c : Command) (args : List String) : (c.read args).Uniform := by
  cases c with
  | line kind action table start => exact kind.uniform_read
  | family kind table start => exact kind.steady_read.uniform
  | monitor =>
    simp only [read, readMonitorLine]
    split
    · exact (Reading.steady_pure _).uniform
    · exact (Reading.steady_throw _).uniform

/-- **A program reads a line the same way wherever it starts**: it comes to the same, and does the
same, but for what is logged. -/
theorem Program.uniform_read (p : Program) (args : List String) : (p.read args).Uniform := by
  unfold read
  split
  · exact ((Reading.steady_output _).bind fun _ => Reading.steady_throw _).uniform
  · exact (Reading.steady_ofExcept _).bind_uniform fun c => c.uniform_read args

end VmControl
