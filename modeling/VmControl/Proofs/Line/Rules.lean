import VmControl.Proofs.Line.Login
import VmControl.Proofs.Line.Roster

/-!
# The rules that accepted lines keep

Every kind of line ends in a check of the rules that concern it.  What a record is for tells which
kind of line it comes from, so the rules that it keeps can be told from the record alone.  Only the
short forms of lines about virtual networks are not checked.

## Main definitions

* `Action.lineKind?`: the kind of line that an action has.
* `Record.KeepsRules`: the rules of an accepted line, by what the line is for.

## Main statements

* `Command.yields_action`: an accepted line is for the action of its command, or asks for a list.
* `Program.accepted_keeps_rules`: an accepted line keeps the rules.
-/

namespace VmControl

open Options

/-! ## What an accepted line is for -/

/-- Taking options and arguments does not change what a line is for, unless a list is asked for. -/
theorem Grammar.Continues.action_steps {α : Type} {g : Grammar α} {record : α → Record}
    (hg : g.Continues record) (a : α) (events : List (Event OptionId)) :
    (g.steps a events).Yields fun b =>
      (record b).action = (record a).action ∨ (record b).action = .backupList := by
  have hkept {b c : α}
      (hb : (record b).action = (record a).action ∨ (record b).action = .backupList)
      (hc : (record b).Continues (record c)) :
      (record c).action = (record a).action ∨ (record c).action = .backupList := by
    rcases hc.2 with hc | hc
    · rw [hc]
      exact hb
    · exact .inr hc
  exact Grammar.yields_steps
    (P := fun b => (record b).action = (record a).action ∨ (record b).action = .backupList)
    (fun f b hb => by rwa [hg.mapLogin])
    (fun index token b hb => (hg.argument index token b).mono fun _ => hkept hb)
    (fun m b hb => (hg.option m b).mono fun _ => hkept hb) events (.inl rfl)

/-- **An accepted line is for the action of its command**, or asks for a list of backups instead. -/
theorem Command.yields_action (c : Command) (args : List String) : (c.read args).Yields fun r =>
    r.action = c.action args ∨ r.action = .backupList := by
  refine (c.takes_read args
    (fun r r' => r'.action = r.action ∨ r'.action = .backupList)
    fun α g record hg a => Grammar.yields_read (hg.action_steps a _)).mono ?_
  rintro r ⟨r₀, r₁, haction, -, hkept, hr, -⟩
  rw [hr, ← haction]
  exact hkept

/-! ## Which lines are for an action -/

/-- The kind of line that an action has, if it does not belong to a family. -/
def Action.lineKind? : Action → Option LineKind
  | .invalid => none
  | .migrate => some .migration
  | .backup => some .backup
  | .restore => some .restore
  | .backupDelete => some .backupDelete
  | .backupList => some .backupList
  | .perfStats => some .statistics
  | .serverPerfStats => some .statistics
  | .problemReport => some .problemReport
  | .serverProblemReport => some .problemReport
  | .serverVirtualNetwork => none
  | .serverPrivateNetwork => none
  | .serverUsb => none
  | .serverShapingRestart => none
  | .serverTemplate => none
  | .serverTemplateCopy => none
  | .serverBackupNode => none
  | .serverMonitor => none
  | .serverShutdown => some .server
  | .serverInfo => some .server
  | .serverInstallLicense => some .server
  | .serverUpdateLicense => some .server
  | .serverSet => some .server
  | .serverInstallAppliance => some .server
  | .serverUpdateHostRegInfo => some .server
  | .serverPrepareForUninstall => some .server
  | .serverListNetworkConfig => some .server
  | .serverUpListenInterface => some .server
  | .serverStartNatDetect => some .server
  | _ => some .guest

/-- Whether a line has the kind that its action has, and a family starts after its word. -/
def Command.IsRegular : Command → Prop
  | .line kind action _ _ => action.lineKind? = some kind
  | .family _ _ start => start = 2
  | .monitor => True

instance (c : Command) : Decidable c.IsRegular :=
  match c with
  | .line kind action _ _ => inferInstanceAs (Decidable (action.lineKind? = some kind))
  | .family _ _ start => inferInstanceAs (Decidable (start = 2))
  | .monitor => .isTrue trivial

theorem Program.isRegular_of_command {p : Program} {args : List String} {c : Command}
    (h : p.command args = .ok c) : c.IsRegular := by
  have hroster : ∀ l ∈ p.roster, l.command.IsRegular := by cases p <;> decide
  obtain ⟨l, hl, rfl, -⟩ := exists_listing h
  exact hroster l hl

/-- The family that an action belongs to. -/
def Action.familyKind? : Action → Option FamilyKind
  | .serverBackupNode => some .nodeBackup
  | .serverVirtualNetwork => some .virtualNetwork
  | .serverPrivateNetwork => some .privateNetwork
  | .serverUsb => some .usb
  | .serverShapingRestart => some .shaping
  | .serverTemplate => some .template
  | .serverTemplateCopy => some .template
  | _ => none

theorem FamilyKind.familyKind?_action (kind : FamilyKind) (start : Nat) (args : List String) :
    (kind.action start args).familyKind? = some kind := by
  cases kind with
  | template =>
    unfold FamilyKind.action
    dsimp only
    split <;> rfl
  | _ => rfl

theorem Action.familyKind?_eq_none {a : Action} {kind : LineKind} (h : a.lineKind? = some kind) :
    a.familyKind? = none := by
  cases a <;> first | rfl | cases h

/-- An action that has a kind of line comes from lines of that kind. -/
theorem Command.exists_line {c : Command} {args : List String} {kind : LineKind}
    (hc : c.IsRegular) (h : (c.action args).lineKind? = some kind) :
    ∃ table start, c = .line kind (c.action args) table start := by
  cases c with
  | line kind' action table start =>
    obtain rfl : kind' = kind := Option.some.inj (hc.symm.trans h)
    exact ⟨table, start, rfl⟩
  | family kind' table start =>
    have hnone := Action.familyKind?_eq_none h
    exact absurd ((kind'.familyKind?_action start args).symm.trans hnone) nofun
  | monitor => cases h

/-- An action that belongs to a family comes from lines of that family. -/
theorem Command.exists_family {c : Command} {args : List String} {kind : FamilyKind}
    (hc : c.IsRegular) (h : (c.action args).familyKind? = some kind) :
    ∃ table, c = .family kind table 2 := by
  cases c with
  | line kind' action table start =>
    exact absurd ((Action.familyKind?_eq_none hc).symm.trans h) nofun
  | family kind' table start =>
    obtain rfl : start = 2 := hc
    obtain rfl : kind' = kind := Option.some.inj ((kind'.familyKind?_action 2 args).symm.trans h)
    exact ⟨table, rfl⟩
  | monitor => cases h

/-! ## Rules -/

section Lines

variable {action : Action} {table : CommandTable} {start : Nat} {args : List String}

/-- A line about a guest that runs no command inside it keeps all rules. -/
theorem rules_of_readGuestLine (haction : action.takesGuestCommand = false) :
    (readGuestLine action table start args).Yields fun r =>
      (∀ rule ∈ r.earlyRules, rule.broken = false) ∧ ∀ rule ∈ r.lateRules, rule.broken = false := by
  unfold readGuestLine
  dsimp only
  rw [haction, if_neg Bool.false_ne_true]
  refine Reading.yields_bind fun d => Reading.yields_bind fun r => ?_
  exact (Record.yields_settle r).mono fun r' ⟨host, hr'⟩ => Record.rules_of_consistent hr'

/-- What is enforced at the end of a line is kept. -/
theorem yields_enforce {α : Type} {x : Reading α} {rules : α → List Rule} :
    (do let a ← x
        Reading.ofExcept (Rule.enforce (rules a))
        return a : Reading α).Yields fun a => ∀ rule ∈ rules a, rule.broken = false :=
  Reading.yields_bind fun a =>
    (Reading.yields_ofExcept (P := fun _ => ∀ rule ∈ rules a, rule.broken = false) fun _ h =>
      Rule.enforce_eq_ok.1 h).bind fun _ hrules => Reading.yields_pure hrules

theorem fits_of_readMigrationLine :
    (readMigrationLine action table start args).Yields fun r => r.migration.Fits := by
  unfold readMigrationLine
  split
  · refine Reading.yields_bind fun target => Reading.yields_bind fun host => ?_
    exact yields_enforce.mono fun _ => Migration.fits_of_rules
  · exact Reading.yields_throw

theorem fits_of_readServerLine :
    (readServerLine action table start args).Yields fun r => r.server.Fits :=
  yields_enforce.mono fun _ => Server.fits_of_rules

theorem fits_of_readShapingLine :
    (readShapingLine table start args).Yields fun r => r.server.Fits := by
  unfold readShapingLine
  split
  · exact fits_of_readServerLine
  · exact Reading.yields_throw

theorem action_of_readProblemReportLine :
    (readProblemReportLine action table start args).Yields fun r => r.report.action ≠ none := by
  refine yields_enforce.mono fun r hr hnone => ?_
  simp [ProblemReport.rules, hnone] at hr

theorem fits_of_readVirtualNetworkLine
    (hverb : ((args.drop start).head?.bind VirtualNetwork.readCommand?).isSome = true) :
    (readVirtualNetworkLine table start args).Yields fun r => r.network.Fits := by
  unfold readVirtualNetworkLine
  generalize args.drop start = words at hverb
  cases words with
  | nil => exact Reading.yields_throw
  | cons verb rest =>
    dsimp only [List.head?_cons, Option.bind_some] at hverb ⊢
    obtain ⟨command, hcommand⟩ := Option.isSome_iff_exists.1 hverb
    rw [hcommand]
    exact yields_enforce.mono fun _ => VirtualNetwork.fits_of_rules

theorem fits_of_readPrivateNetworkLine :
    (readPrivateNetworkLine table start args).Yields fun r => r.privateNetwork.Fits := by
  unfold readPrivateNetworkLine
  split
  · exact Reading.yields_throw
  · exact yields_enforce.mono fun _ => PrivateNetwork.fits_of_rules

end Lines

/-- The rules that the record of an accepted line keeps, by what the line is for. -/
structure Record.KeepsRules (r : Record) (args : List String) : Prop where
  /-- What changes a guest says what fits together about its device. -/
  set : r.action = .set → r.FitsDevice
  /-- A new machine has one source of its guest system. -/
  create : r.action = .create → r.kind = .machine → r.FitsSource
  /-- A guest that is registered keeps its identity or gets another one. -/
  register : r.action = .register → ¬ (r.has .preserveUuid = true ∧ r.hasText .uuid = true)
  /-- A guest is copied or moved. -/
  migrate : r.action = .migrate → r.migration.Fits
  /-- A virtual network is described in full, unless a short form is used. -/
  network : r.action = .serverVirtualNetwork →
    (args[2]?.bind VirtualNetwork.readCommand?).isSome = true → r.network.Fits
  /-- A private network is described in full. -/
  privateNetwork : r.action = .serverPrivateNetwork → r.privateNetwork.Fits
  /-- What is told about the server is told in full. -/
  server : r.action.lineKind? = some .server ∨ r.action = .serverShapingRestart → r.server.Fits
  /-- A report goes somewhere. -/
  report : r.action = .problemReport ∨ r.action = .serverProblemReport → r.report.action ≠ none

/-- **The record of an accepted line keeps the rules** between its parts. -/
theorem Program.accepted_keeps_rules {p : Program} {args : List String} {host : Host}
    {q : Preferences} {r : Record} (h : ((p.read args).perform host q).1 = .ok r) :
    r.KeepsRules args := by
  obtain ⟨c, hc⟩ := exists_command h
  rw [read_of_command? hc] at h
  have hregular := isRegular_of_command (command?_eq_some.1 hc).2
  have hyields {P : Record → Prop} (hP : (c.read args).Yields P) : P r := hP host _ r h
  -- What the record is for is what the command is for, except for lists of backups.
  have haction (hne : r.action ≠ .backupList) : c.action args = r.action :=
    ((hyields (c.yields_action args)).resolve_right hne).symm
  have hline (kind : LineKind) (hkind : r.action.lineKind? = some kind) (hne : kind ≠ .backupList) :
      ∃ table start, c = .line kind r.action table start := by
    have hsame := haction fun hlist => by
      rw [hlist] at hkind
      exact hne (Option.some.inj hkind).symm
    have hexists : ∃ table start, c = .line kind (c.action args) table start :=
      Command.exists_line hregular (by rwa [hsame])
    rwa [hsame] at hexists
  have hfamily (kind : FamilyKind) (hkind : r.action.familyKind? = some kind) :
      ∃ table, c = .family kind table 2 := by
    have hsame := haction fun hlist => by
      rw [hlist] at hkind
      cases hkind
    exact Command.exists_family hregular (by rwa [hsame])
  have hguest (hkind : r.action.lineKind? = some .guest)
      (hcommand : r.action.takesGuestCommand = false) :
      (∀ rule ∈ r.earlyRules, rule.broken = false) ∧ ∀ rule ∈ r.lateRules, rule.broken = false := by
    obtain ⟨table, start, rfl⟩ := hline .guest hkind (by decide)
    exact hyields (rules_of_readGuestLine hcommand)
  constructor
  case set =>
    intro hset
    obtain ⟨hearly, hlate⟩ := hguest (by rw [hset]; rfl) (by rw [hset]; rfl)
    refine Record.fitsDevice_of_rules (fun rule hrule => hearly rule ?_) hlate
    simp only [Record.earlyRules, Record.actionRules, hset]
    exact List.mem_append_right _ hrule
  case create =>
    intro hcreate hkind
    obtain ⟨hearly, -⟩ := hguest (by rw [hcreate]; rfl) (by rw [hcreate]; rfl)
    exact Record.fitsSource_of_rules hkind fun rule hrule =>
      hearly rule (List.mem_append_left _ hrule)
  case register =>
    rintro hregister ⟨hpreserve, huuid⟩
    obtain ⟨hearly, -⟩ := hguest (by rw [hregister]; rfl) (by rw [hregister]; rfl)
    have hrule := hearly ⟨.uuidKeptAndGiven, r.has .preserveUuid && r.hasText .uuid⟩
      (by simp [Record.earlyRules, Record.actionRules, hregister])
    simp [hpreserve, huuid] at hrule
  case migrate =>
    intro hmigrate
    obtain ⟨table, start, rfl⟩ := hline .migration (by rw [hmigrate]; rfl) (by decide)
    exact hyields fits_of_readMigrationLine
  case network =>
    intro hnetwork hverb
    obtain ⟨table, rfl⟩ := hfamily .virtualNetwork (by rw [hnetwork]; rfl)
    exact hyields (fits_of_readVirtualNetworkLine (by rwa [List.head?_drop]))
  case privateNetwork =>
    intro hnetwork
    obtain ⟨table, rfl⟩ := hfamily .privateNetwork (by rw [hnetwork]; rfl)
    exact hyields fits_of_readPrivateNetworkLine
  case server =>
    rintro (hserver | hshaping)
    · obtain ⟨table, start, rfl⟩ := hline .server hserver (by decide)
      exact hyields fits_of_readServerLine
    · obtain ⟨table, rfl⟩ := hfamily .shaping (by rw [hshaping]; rfl)
      exact hyields fits_of_readShapingLine
  case report =>
    intro hreport
    obtain ⟨table, start, rfl⟩ := hline .problemReport
      (by rcases hreport with hreport | hreport <;> rw [hreport] <;> rfl) (by decide)
    exact hyields action_of_readProblemReportLine

/-- The line `prlctl set vm1 --device-add net --type routed` is accepted, and keeps the rules: its
mode is one of adapters, and there is no virtual network. -/
theorem routed_adapter_keeps_rules : ∃ r,
    ((Program.guests.read
      ["prlctl", "set", "vm1", "--device-add", "net", "--type", "routed"]).perform
      ⟨fun _ => .error "", fun _ => .error ""⟩ .initial).1 = .ok r ∧
    r.device.settings.get? .mode = some .netRouted ∧
    r.KeepsRules ["prlctl", "set", "vm1", "--device-add", "net", "--type", "routed"] := by
  have hstream : CommandTable.set.read
      ["prlctl", "set", "vm1", "--device-add", "net", "--type", "routed"] 3 =
      ⟨[.option ⟨.selector .add, "--device-add", some ⟨"net", ⟨4, 0, 3⟩⟩⟩,
        .option ⟨.device .mode, "--type", some ⟨"routed", ⟨6, 0, 6⟩⟩⟩], none⟩ :=
    Table.read_eq_of_streamWithin (n := 3) (by rfl)
  have hread : ∃ r, ((Program.guests.read
      ["prlctl", "set", "vm1", "--device-add", "net", "--type", "routed"]).perform
      ⟨fun _ => .error "", fun _ => .error ""⟩ .initial).1 = .ok r ∧
      r.device.settings.get? .mode = some .netRouted := by
    show ∃ r, ((readGuestLine .set CommandTable.set 2 _).perform _ _).1 = .ok r ∧ _
    unfold readGuestLine
    rw [hstream]
    exact ⟨_, rfl, rfl⟩
  obtain ⟨r, hr, hmode⟩ := hread
  exact ⟨r, hr, hmode, Program.accepted_keeps_rules hr⟩

end VmControl
