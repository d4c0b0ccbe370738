import VmControl.Proofs.Line.Accusation

/-!
# Lines that fail for what is wrong

A line that yields no record was turned down, or was done with early.  Most commands only turn lines
down: whatever ends the reading of one says that something is wrong with it.

## Main statements

* `Grammar.Faults.failsOnly_read`: a grammar that turns options and arguments down for what is wrong
  does so with lines.
* `LineKind.failsOnly_read`, `FamilyKind.failsOnly_read`: the lines of all kinds but one do not end
  well without a record.
-/

namespace VmControl

open Options

/-! ## Grammars -/

section Grammar

variable {α : Type} {g : Grammar α}

/-- Taking options and arguments fails as taking one of them does. -/
theorem Grammar.failsOnly_steps {E : CommandError → Prop}
    (h : ∀ a event, (g.step a event).FailsOnly E) (a : α) (events : List (Event OptionId)) :
    (g.steps a events).FailsOnly E :=
  Grammar.steps_induction Reading.failsOnly_pure (fun _ _ => Reading.failsOnly_bind)
    (fun event _ a => h a event) a

theorem Grammar.Faults.failsOnly_step (hg : g.Faults) (a : α) (event : Event OptionId) :
    (g.step a event).FailsOnly CommandError.IsFault := by
  cases event with
  | unknown index token => exact (hg.argument index token a).mono fun _ hu => hu.2
  | option m =>
    have hcommon := (failsOnly_readCommonOption m).mono fun _ hu => hu.2
    refine Reading.failsOnly_bind (Reading.failsOnly_enter m) fun _ =>
      Reading.failsOnly_bind hcommon fun f => ?_
    cases f with
    | some f => exact Reading.failsOnly_pure _
    | none => exact (hg.option m a).mono fun _ hu => hu.2

/-- Such a grammar takes a line to its end, or fails for what is wrong. -/
theorem Grammar.Faults.failsOnly_read (hg : g.Faults) (a : α) (s : Stream OptionId) :
    (g.read a s).FailsOnly CommandError.IsFault := by
  refine Reading.failsOnly_bind (Grammar.failsOnly_steps hg.failsOnly_step a s.events) fun a => ?_
  cases s.missing <;> simp

end Grammar

/-! ## Lines -/

@[simp] theorem failsOnly_readPositionalLogin (index : Nat) (role text : String) :
    (readPositionalLogin index role text).FailsOnly CommandError.IsFault := by
  unfold readPositionalLogin
  cases LoginText.read text <;> simp

@[simp] theorem failsOnly_readTarget (index : Nat) (role token : String) :
    (readTarget index role token).FailsOnly CommandError.IsFault := by
  unfold readTarget
  cases cutSlash token <;> simp

section Lines

variable {action : Action} {table : CommandTable} {start : Nat} {args : List String}

/-- So do rules that are enforced in the end. -/
theorem Reading.FailsOnly.enforce {x : Reading Record} (hx : x.FailsOnly CommandError.IsFault)
    (rules : Record → List Rule) :
    (do let r ← x
        Reading.ofExcept (Rule.enforce (rules r))
        return r : Reading Record).FailsOnly CommandError.IsFault :=
  Reading.failsOnly_bind hx fun r => by simp [(refusesValue_enforce (rules r)).isFault]

theorem failsOnly_readMigrationLine :
    (readMigrationLine action table start args).FailsOnly CommandError.IsFault := by
  cases hsource : args[start]? with
  | none => simp [readMigrationLine, hsource]
  | some source =>
    cases hdestination : args[start + 1]? with
    | none => simp [readMigrationLine, hsource, hdestination]
    | some destination =>
      rw [readMigrationLine_eq hsource hdestination]
      refine Reading.failsOnly_bind (failsOnly_readTarget _ _ _) fun _ =>
        Reading.failsOnly_bind (failsOnly_readPositionalLogin _ _ _) fun _ => ?_
      exact (Migration.faults_grammar.failsOnly_read _ _).enforce (·.migration.rules)

theorem failsOnly_readBackupLine :
    (readBackupLine action table start args).FailsOnly CommandError.IsFault := by
  unfold readBackupLine
  cases args[start]? with
  | none => simp
  | some name =>
    refine Reading.failsOnly_bind (Backup.faults_makingGrammar.failsOnly_read _ _) fun _ => ?_
    exact Reading.failsOnly_bind (failsOnly_readTarget _ _ _) fun _ => by simp

theorem failsOnly_readBackupChoice {grammar : Grammar Record} (hg : grammar.Faults) :
    (readBackupChoice grammar action table start args).FailsOnly CommandError.IsFault := by
  unfold readBackupChoice
  split
  · simp
  · exact hg.failsOnly_read _ _

theorem failsOnly_readServerLine :
    (readServerLine action table start args).FailsOnly CommandError.IsFault :=
  (Server.faults_grammar.failsOnly_read _ _).enforce (·.server.rules)

/-- Lines of most kinds fail for what is wrong only. -/
theorem LineKind.failsOnly_read {kind : LineKind} (h : kind ≠ .guest) :
    (kind.read action table start args).FailsOnly CommandError.IsFault := by
  cases kind with
  | guest => exact absurd rfl h
  | migration => exact failsOnly_readMigrationLine
  | backup => exact failsOnly_readBackupLine
  | restore => exact failsOnly_readBackupChoice Backup.faults_restoringGrammar
  | backupDelete => exact failsOnly_readBackupChoice Backup.faults_deletingGrammar
  | backupList => exact Backup.faults_listingGrammar.failsOnly_read _ _
  | server => exact failsOnly_readServerLine
  | statistics => exact Statistics.faults_grammar.failsOnly_read _ _
  | problemReport =>
    exact (ProblemReport.faults_grammar.failsOnly_read _ _).enforce (·.report.rules)

theorem failsOnly_readVirtualNetworkLine :
    (readVirtualNetworkLine table start args).FailsOnly CommandError.IsFault := by
  unfold readVirtualNetworkLine
  cases args.drop start with
  | nil => simp
  | cons verb rest =>
    dsimp only
    cases VirtualNetwork.readCommand? verb with
    | some command =>
      exact (VirtualNetwork.faults_grammar.failsOnly_read _ _).enforce (·.network.rules)
    | none => cases VirtualNetwork.shortForm? verb rest <;> simp

theorem failsOnly_readPrivateNetworkLine :
    (readPrivateNetworkLine table start args).FailsOnly CommandError.IsFault := by
  unfold readPrivateNetworkLine
  cases args[start]?.bind PrivateNetwork.readCommand? with
  | none => simp
  | some command =>
    exact (PrivateNetwork.faults_grammar.failsOnly_read _ _).enforce (·.privateNetwork.rules)

theorem failsOnly_readTemplateLine :
    (readTemplateLine table start args).FailsOnly CommandError.IsFault := by
  unfold readTemplateLine
  dsimp only
  split
  case h_4 =>
    unfold readTemplateCopyLine
    split
    · exact Reading.failsOnly_bind (failsOnly_readPositionalLogin _ _ _) fun _ =>
        TemplateCopy.faults_grammar.failsOnly_read _ _
    · simp
  all_goals simp

/-- So do lines of a family. -/
theorem FamilyKind.failsOnly_read {kind : FamilyKind} :
    (kind.read table start args).FailsOnly CommandError.IsFault := by
  cases kind with
  | nodeBackup => exact Backup.faults_makingGrammar.failsOnly_read _ _
  | virtualNetwork => exact failsOnly_readVirtualNetworkLine
  | privateNetwork => exact failsOnly_readPrivateNetworkLine
  | usb =>
    simp only [FamilyKind.read, readUsbLine]
    cases UsbAssignment.ofWords? (args.drop start) with
    | none => simp
    | some words => exact UsbAssignment.faults_grammar.failsOnly_read _ _
  | shaping =>
    simp only [FamilyKind.read, readShapingLine]
    split
    · exact failsOnly_readServerLine
    · simp
  | template => exact failsOnly_readTemplateLine

end Lines

end VmControl
