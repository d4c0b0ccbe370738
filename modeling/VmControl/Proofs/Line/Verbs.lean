import VmControl.Console
import VmControl.Proofs.Line.Rules
import VmControl.Proofs.Line.Written

/-!
# What the verbs stand for

The first words of a line say what an accepted line is for.  Each verb has one action, but for two:
restoring backups may ask for a list instead, and templates may be copied to another host.  So an
accepted line is never mistaken for one that was turned down, and of a line that was turned down
nothing is left in the record.

## Main definitions

* `Program.verbs`: the verbs of a program with the actions that they stand for.
* `Command.actions`: the actions that accepted lines of a command are for.

## Main statements

* `Program.exists_verb`: the command of a line is that of a verb.
* `Program.route_is_exact`: the record of an accepted line is for an action of its verb, and that of
  any other line is the invalid one.
-/

namespace VmControl

open Options
open Record (ChangesOnly Field)

/-! ## Verbs -/

/-- The words that say what is to be done, and the actions that they stand for. -/
structure Verb where
  /-- The words after the name of the program. -/
  words : List String
  /-- What accepted lines are for. -/
  actions : List Action
  deriving DecidableEq, Repr

namespace Program

/-- The verbs of a program. -/
def verbs : Program → List Verb
  | .guests =>
    [⟨["list"], [.list]⟩, ⟨["backup-list"], [.backupList]⟩, ⟨["change-sid"], [.changeSid]⟩,
     ⟨["internal"], [.internal]⟩, ⟨["reset-uptime"], [.resetUptime]⟩, ⟨["suspend"], [.suspend]⟩,
     ⟨["resume"], [.resume]⟩, ⟨["pause"], [.pause]⟩, ⟨["unregister"], [.unregister]⟩,
     ⟨["reset"], [.reset]⟩, ⟨["restart"], [.restart]⟩, ⟨["installtools"], [.installTools]⟩,
     ⟨["enter"], [.enter]⟩, ⟨["console"], [.console]⟩, ⟨["status"], [.status]⟩,
     ⟨["start"], [.start]⟩, ⟨["stop"], [.stop]⟩, ⟨["umount"], [.umount]⟩, ⟨["mount"], [.mount]⟩,
     ⟨["set"], [.set]⟩, ⟨["create"], [.create]⟩, ⟨["convert"], [.convert]⟩,
     ⟨["delete"], [.destroy]⟩, ⟨["destroy"], [.destroy]⟩, ⟨["register"], [.register]⟩,
     ⟨["clone"], [.clone]⟩, ⟨["capture"], [.capture]⟩, ⟨["snapshot"], [.snapshotCreate]⟩,
     ⟨["snapshot-switch"], [.snapshotSwitch]⟩, ⟨["snapshot-delete"], [.snapshotDelete]⟩,
     ⟨["snapshot-list"], [.snapshotList]⟩, ⟨["migrate"], [.migrate]⟩, ⟨["move"], [.move]⟩,
     ⟨["statistics"], [.perfStats]⟩, ⟨["problem-report"], [.problemReport]⟩, ⟨["exec"], [.exec]⟩,
     ⟨["backup"], [.backup]⟩, ⟨["restore"], [.restore, .backupList]⟩,
     ⟨["backup-delete"], [.backupDelete]⟩, ⟨["auth"], [.auth]⟩,
     ⟨["server", "shutdown"], [.serverShutdown]⟩, ⟨["server", "info"], [.serverInfo]⟩,
     ⟨["server", "install-license"], [.serverInstallLicense]⟩,
     ⟨["server", "problem-report"], [.serverProblemReport]⟩]
  | .server =>
    [⟨["shutdown"], [.serverShutdown]⟩, ⟨["stop"], [.serverShutdown]⟩, ⟨["info"], [.serverInfo]⟩,
     ⟨["user", "list"], [.serverUserList]⟩, ⟨["user", "set"], [.serverUserSet]⟩,
     ⟨["set"], [.serverSet]⟩, ⟨["install-license"], [.serverInstallLicense]⟩,
     ⟨["update-license"], [.serverUpdateLicense]⟩, ⟨["statistics"], [.serverPerfStats]⟩,
     ⟨["problem-report"], [.serverProblemReport]⟩, ⟨["net"], [.serverVirtualNetwork]⟩,
     ⟨["tc"], [.serverShapingRestart]⟩, ⟨["privnet"], [.serverPrivateNetwork]⟩,
     ⟨["usb"], [.serverUsb]⟩, ⟨["appliance-install"], [.serverInstallAppliance]⟩,
     ⟨["update-host-reg-info"], [.serverUpdateHostRegInfo]⟩,
     ⟨["prepare-for-uninstall"], [.serverPrepareForUninstall]⟩,
     ⟨["list-network-config"], [.serverListNetworkConfig]⟩,
     ⟨["up-listen-interface"], [.serverUpListenInterface]⟩,
     ⟨["start-nat-detect"], [.serverStartNatDetect]⟩,
     ⟨["cttemplate"], [.serverTemplate, .serverTemplateCopy]⟩, ⟨["monitor"], [.serverMonitor]⟩,
     ⟨["backup"], [.serverBackupNode]⟩]

/-- A line has one verb at most. -/
theorem verb_unique {p : Program} {v w : Verb} {line : List String} (hv : v ∈ p.verbs)
    (hw : w ∈ p.verbs) (hvline : v.words <+: line) (hwline : w.words <+: line) : v = w := by
  have hverbs : ∀ v ∈ p.verbs, ∀ w ∈ p.verbs, v.words <+: w.words → v = w := by
    cases p <;> decide +kernel
  rcases List.prefix_or_prefix_of_prefix hvline hwline with h | h
  · exact hverbs v hv w hw h
  · exact (hverbs w hw v hv h).symm

/-- No verb is for nothing. -/
theorem invalid_notMem_actions {p : Program} {v : Verb} (hv : v ∈ p.verbs) :
    .invalid ∉ v.actions := by
  have hverbs : ∀ v ∈ p.verbs, .invalid ∉ v.actions := by cases p <;> decide +kernel
  exact hverbs v hv

/-- A verb has one action, but for two verbs. -/
theorem actions_of_verb {p : Program} {v : Verb} (hv : v ∈ p.verbs) :
    (∃ action, v.actions = [action]) ∨ v = ⟨["restore"], [.restore, .backupList]⟩ ∨
      v = ⟨["cttemplate"], [.serverTemplate, .serverTemplateCopy]⟩ := by
  have hverbs : ∀ v ∈ p.verbs, v.actions.length = 1 ∨ v = ⟨["restore"], [.restore, .backupList]⟩ ∨
      v = ⟨["cttemplate"], [.serverTemplate, .serverTemplateCopy]⟩ := by
    cases p <;> decide +kernel
  exact (hverbs v hv).imp_left List.length_eq_one_iff.1

end Program

/-! ## Commands -/

/-- Whether lines of a command have an option that asks for a list instead. -/
def Command.MayList : Command → Prop
  | .line kind _ table _ => .action ∈ table.written kind.fields?
  | .family kind table _ => .action ∈ table.written kind.fields?
  | .monitor => False

instance (c : Command) : Decidable c.MayList :=
  match c with
  | .line kind _ table _ => inferInstanceAs (Decidable (.action ∈ table.written kind.fields?))
  | .family kind table _ => inferInstanceAs (Decidable (.action ∈ table.written kind.fields?))
  | .monitor => .isFalse id

/-- What the words of a line of a family can be for. -/
def FamilyKind.actions : FamilyKind → List Action
  | .nodeBackup => [.serverBackupNode]
  | .virtualNetwork => [.serverVirtualNetwork]
  | .privateNetwork => [.serverPrivateNetwork]
  | .usb => [.serverUsb]
  | .shaping => [.serverShapingRestart]
  | .template => [.serverTemplate, .serverTemplateCopy]

/-- The actions that accepted lines of a command are for. -/
def Command.actions (c : Command) : List Action :=
  (match c with
    | .line _ action _ _ => [action]
    | .family kind _ _ => kind.actions
    | .monitor => [.serverMonitor]) ++ if c.MayList then [.backupList] else []

theorem FamilyKind.action_mem_actions (kind : FamilyKind) (start : Nat) (args : List String) :
    kind.action start args ∈ kind.actions := by
  cases kind with
  | template =>
    unfold FamilyKind.action
    dsimp only
    split <;> decide
  | _ => exact List.mem_cons_self ..

theorem Command.action_mem_actions (c : Command) (args : List String) :
    c.action args ∈ c.actions := by
  refine List.mem_append_left _ ?_
  cases c with
  | line kind action table start => exact List.mem_cons_self ..
  | family kind table start => exact kind.action_mem_actions start args
  | monitor => exact List.mem_cons_self ..

/-- Only options change what a line is for. -/
theorem Command.mayList_of_action_mem_written {c : Command} {args : List String}
    (h : .action ∈ c.written args) : c.MayList := by
  cases c with
  | line kind action table start =>
    have hpositional : .action ∉ kind.positional action := by
      cases kind with
      | guest => cases action <;> decide
      | problemReport =>
        unfold LineKind.positional
        dsimp only
        split <;> decide
      | _ => simp [LineKind.positional]
    have hmoved : .action ∉ if action = .set then Draft.movedFields else [] := by
      split <;> decide
    rcases List.mem_append.1 h with h | h
    · exact (List.mem_append.1 h).resolve_left hpositional
    · exact absurd h hmoved
  | family kind table start =>
    have hpositional : .action ∉ kind.positional args[start]? := by
      unfold FamilyKind.positional
      cases kind <;> dsimp only <;> try split
      all_goals first | decide | (split <;> decide)
    have hoptions := (List.mem_append.1 h).resolve_left hpositional
    split at hoptions
    · cases hoptions
    · exact hoptions
  | monitor => cases h

/-- **An accepted line is for an action of its command.** -/
theorem Command.yields_actions {c : Command} (h : c.IsServed) (args : List String) :
    (c.read args).Yields fun r => r.action ∈ c.actions := by
  intro host e r hr
  rcases c.yields_action args host e r hr with haction | haction
  · rw [haction]
    exact c.action_mem_actions args
  · by_cases hwritten : .action ∈ c.written args
    · rw [haction]
      refine List.mem_append_right _ ?_
      rw [if_pos (mayList_of_action_mem_written hwritten)]
      exact List.mem_cons_self ..
    · have hkept : r.action = c.action args :=
        (c.ends_read h args).yields host e r hr .action hwritten
      rw [hkept]
      exact c.action_mem_actions args

namespace Program

theorem mem_verbs_of_guestCommand? {verb : String} {c : Command} (h : guestCommand? verb = some c) :
    ⟨[verb], c.actions⟩ ∈ guests.verbs := by
  have hplain : ∀ e ∈ plainVerbs,
      ⟨[e.1], (Command.line .guest e.2 CommandTable.plain 2).actions⟩ ∈ guests.verbs := by
    decide +kernel
  have hguest : ∀ e ∈ guestVerbs,
      ⟨[e.1], (Command.line .guest e.2.1 e.2.2 2).actions⟩ ∈ guests.verbs := by
    decide +kernel
  have htask : ∀ e ∈ taskVerbs,
      ⟨[e.1], (Command.line e.2.1 e.2.2.1 e.2.2.2.1 e.2.2.2.2).actions⟩ ∈ guests.verbs := by
    decide +kernel
  unfold guestCommand? at h
  split at h
  · next hverb =>
    cases h
    exact hplain _ (mem_of_lookup hverb)
  · split at h
    · next hverb =>
      cases h
      exact hguest _ (mem_of_lookup hverb)
    · obtain ⟨e, he, rfl⟩ := Option.map_eq_some_iff.1 h
      exact htask _ (mem_of_lookup he)

theorem mem_guestVerbs_of_sharedCommand? {verb : String} {c : Command}
    (h : sharedCommand? verb 3 = some c) : ⟨["server", verb], c.actions⟩ ∈ guests.verbs := by
  have hshared : ∀ e ∈ sharedVerbs,
      ⟨["server", e.1], (Command.line e.2.1 e.2.2.1 e.2.2.2 3).actions⟩ ∈ guests.verbs := by
    decide +kernel
  obtain ⟨e, he, rfl⟩ := Option.map_eq_some_iff.1 h
  exact hshared _ (mem_of_lookup he)

theorem mem_serverVerbs_of_sharedCommand? {verb : String} {c : Command}
    (h : sharedCommand? verb 2 = some c) : ⟨[verb], c.actions⟩ ∈ server.verbs := by
  have hshared : ∀ e ∈ sharedVerbs,
      ⟨[e.1], (Command.line e.2.1 e.2.2.1 e.2.2.2 2).actions⟩ ∈ server.verbs := by
    decide +kernel
  obtain ⟨e, he, rfl⟩ := Option.map_eq_some_iff.1 h
  exact hshared _ (mem_of_lookup he)

theorem mem_verbs_of_serverCommand? {verb : String} {c : Command}
    (h : serverCommand? verb = some c) : ⟨[verb], c.actions⟩ ∈ server.verbs := by
  have hserver : ∀ e ∈ serverVerbs,
      ⟨[e.1], (Command.line e.2.1 e.2.2.1 e.2.2.2 2).actions⟩ ∈ server.verbs := by
    decide +kernel
  have hfamily : ∀ e ∈ familyVerbs,
      ⟨[e.1], (Command.family e.2.1 e.2.2 2).actions⟩ ∈ server.verbs := by
    decide +kernel
  unfold serverCommand? at h
  split at h
  · next hshared =>
    cases h
    exact mem_serverVerbs_of_sharedCommand? hshared
  · split at h
    · next hverb =>
      cases h
      exact hserver _ (mem_of_lookup hverb)
    · obtain ⟨e, he, rfl⟩ := Option.map_eq_some_iff.1 h
      exact hfamily _ (mem_of_lookup he)

theorem mem_verbs_of_userCommand {word : String} {c : Command} (h : userCommand word = .ok c) :
    ⟨["user", word], c.actions⟩ ∈ server.verbs := by
  have huser : ∀ e ∈ userVerbs,
      ⟨["user", e.1], (Command.line .guest e.2.1 e.2.2 2).actions⟩ ∈ server.verbs := by
    decide +kernel
  unfold userCommand at h
  split at h
  · next hverb =>
    cases h
    exact huser _ (mem_of_lookup hverb)
  · cases h

/-- **The command of a line is that of a verb.** -/
theorem exists_verb {p : Program} {args : List String} {c : Command} (h : p.command args = .ok c) :
    ∃ words, words <+: args.drop 1 ∧ ⟨words, c.actions⟩ ∈ p.verbs := by
  cases p with
  | guests =>
    simp only [command, guestCommand] at h
    generalize args.drop 1 = line at h ⊢
    split at h
    · cases h
    · cases h
      exact ⟨["list"], List.prefix_append .., by decide +kernel⟩
    · cases h
      exact ⟨["backup-list"], List.prefix_append .., by decide +kernel⟩
    · cases h
    · next verb rest =>
      split at h
      · next hverb =>
        cases h
        exact ⟨["server", verb], List.prefix_append .., mem_guestVerbs_of_sharedCommand? hverb⟩
      · cases h
    · next verb rest _ _ _ _ =>
      split at h
      · next hverb =>
        cases h
        exact ⟨[verb], List.prefix_append .., mem_verbs_of_guestCommand? hverb⟩
      · cases h
  | server =>
    simp only [command, serverCommand] at h
    generalize args.drop 1 = line at h ⊢
    split at h
    · cases h
    · next rest =>
      rcases rest with _ | ⟨word, rest⟩
      · cases h
      · exact ⟨["user", word], List.prefix_append .., mem_verbs_of_userCommand h⟩
    · cases h
      exact ⟨["monitor"], List.prefix_append .., by decide +kernel⟩
    · next verb rest _ _ =>
      split at h
      · next hverb =>
        cases h
        exact ⟨[verb], List.prefix_append .., mem_verbs_of_serverCommand? hverb⟩
      · cases h

end Program

/-! ## Answers -/

/-- **The answer to a line is exact.**  An accepted line is answered by its record, which is for an
action of the one verb that the line starts with, and two verbs only have more than one action.  A
line that is turned down is answered by the record of which nothing is said, unless it ends the
program. -/
theorem Program.route_is_exact (p : Program) (args : List String) (host : Host)
    (start : Preferences) :
    match (p.read args).perform host start with
    | (.ok r, e) => p.route args host start = (.ok r, e) ∧ r.action ≠ .invalid ∧
      ∃ v ∈ p.verbs, (v.words <+: args.drop 1 ∧ r.action ∈ v.actions) ∧
        (∀ w ∈ p.verbs, w.words <+: args.drop 1 → w = v) ∧
        ((∃ action, v.actions = [action]) ∨ v = ⟨["restore"], [.restore, .backupList]⟩ ∨
          v = ⟨["cttemplate"], [.serverTemplate, .serverTemplateCopy]⟩)
    | (.error (.exit status), e) => p.route args host start = (.error status, e)
    | (.error _, _) => (p.route args host start).1 = .ok .invalid := by
  split
  · next r e hread =>
    have hroute : p.route args host start = (.ok r, e) := by
      unfold route
      rw [hread]
    have hr : ((p.read args).perform host start).1 = .ok r := by rw [hread]
    obtain ⟨c, hc⟩ := exists_command hr
    have hcommand : p.command args = .ok c := (command?_eq_some.1 hc).2
    obtain ⟨words, hwords, hmem⟩ := exists_verb hcommand
    rw [read_of_command? hc] at hr
    have haction : r.action ∈ c.actions :=
      c.yields_actions (isServed_of_command hcommand) args host _ r hr
    refine ⟨hroute, ?_, _, hmem, ⟨hwords, haction⟩, fun w hw hline => ?_, actions_of_verb hmem⟩
    · intro hinvalid
      exact invalid_notMem_actions hmem (hinvalid ▸ haction)
    · exact verb_unique hw hmem hline hwords
  · next status e hread =>
    unfold route
    rw [hread]
  · next u e hexit hread =>
    unfold route
    rw [hread]
    cases u with
    | exit status => exact absurd rfl (hexit status)
    | _ => rfl

end VmControl
