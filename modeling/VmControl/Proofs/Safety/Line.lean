import VmControl.Command
import VmControl.Proofs.Line.Visit
import VmControl.Proofs.Options.Slots
import VmControl.Proofs.Safety.Option

/-!
# Reading lines by position

Every line, with its arguments looked up by number: those that a line needs after it was found long
enough, the guest command from the argument on at which the options end.

## Main statements

* `Options.Table.index_lt_of_mem_read`: what is read of a line stands on it.
* `Guarded.readLine_eq`: reading the line of a command does not trap.
-/

namespace VmControl

open Options

/-! ## Positions of arguments -/

namespace Options

variable {ι : Type} {t : Table ι} {args : List String}

namespace Cursor

theorem lt_of_drop_eq_cons {next : Nat} {arg : String} {unread : List String}
    (h : arg :: unread = args.drop next) : next < args.length := by
  have hlength := congrArg List.length h
  rw [List.length_drop, List.length_cons] at hlength
  omega

/-- What a demand comes to stands on the line, if that from which it is made does. -/
theorem index_lt_of_meet {next index i : Nat} {unread : List String} {c' : Cursor} {d : Demand ι}
    {event : Event ι} (hunread : unread = args.drop next) (hindex : index < args.length)
    (hd : d.Within index) (h : (⟨next, unread, none⟩ : Cursor).meet d = (.ok (some event), c'))
    (hi : event.index? = some i) : i < args.length := by
  cases d with
  | deliver event run =>
    cases h
    rw [(hd.1 i hi).1]
    exact hindex
  | await id name =>
    cases unread with
    | nil => cases h
    | cons arg unread =>
      cases h
      obtain rfl : next = i := Option.some.inj hi
      exact lt_of_drop_eq_cons hunread

/-- What a step delivers stands on the line. -/
theorem index_lt_of_step {c c' : Cursor} {event : Event ι} {i : Nat} (hc : c.On args)
    (h : c.step t = (.ok (some event), c')) (hi : event.index? = some i) : i < args.length := by
  obtain ⟨next, unread, _ | r⟩ := c
  · cases unread with
    | nil => cases h
    | cons token unread =>
      have hunread : token :: unread = args.drop next := hc.unread
      have hrest : unread = args.drop (next + 1) := by
        rw [← List.tail_drop, ← hunread, List.tail_cons]
      rw [step_cons] at h
      exact index_lt_of_meet hrest (lt_of_drop_eq_cons hunread) (Demand.ofToken_within t next token)
        h hi
  · rw [step_run] at h
    have hr := hc.run r rfl
    exact index_lt_of_meet hc.unread (List.getElem?_eq_some_iff.1 hr.token).1
      (Demand.ofRun_within t r) h hi

end Cursor

/-- **What is read of a line stands on it.** -/
theorem Table.index_lt_of_mem_read {start i : Nat} {event : Event ι}
    (h : event ∈ (t.read args start).events) (hi : event.index? = some i) : i < args.length := by
  have hon := Cursor.on_ofArgs args start
  unfold Table.read at h
  generalize Cursor.ofArgs args start = c at h hon
  fun_induction Cursor.stream t c with
  | case1 | case2 => cases h
  | case3 c event' hstep rest ih =>
    have hnext : c.step t = (.ok (some event'), (c.step t).2) := Prod.ext hstep rfl
    rcases List.mem_cons.1 h with rfl | h
    · exact Cursor.index_lt_of_step hon hnext hi
    · exact ih h (hon.step t)

end Options

namespace Guarded

/-! ## Logins in front of names -/

/-- Reads a login that is the start of the argument at `index`, and wipes its password. -/
def readPositionalLogin (index : Nat) (role text : String) : Guarded LoginText := do
  match ← check (Checked.readLogin text) with
  | none => throw (.badSecret role)
  | some login =>
    lift (Reading.enterLogin ⟨index, role, text⟩)
    lift (Reading.wipe (login.password.map fun p => ⟨index, p.start, p.stop⟩))
    return login

theorem readPositionalLogin_eq (index : Nat) (role text : String) :
    readPositionalLogin index role text = lift (VmControl.readPositionalLogin index role text) := by
  simp only [readPositionalLogin, VmControl.readPositionalLogin, Checked.readLogin_eq, check_ok,
    pure_bind]
  cases LoginText.read text with
  | none => rfl
  | some login => simp only [lift_bind, lift_pure]

/-- Reads `[LOGIN/]NAME` in the argument at `index`. -/
def readTarget (index : Nat) (role : String) (args : List String) :
    Guarded (Option LoginText × String) := do
  let token ← check (Checked.item args index)
  match cutSlash token with
  | some (login, name) => return (some (← readPositionalLogin index role login), name)
  | none => return (none, token)

theorem readTarget_eq {index : Nat} {args : List String} {token : String}
    (h : args[index]? = some token) (role : String) :
    readTarget index role args = lift (VmControl.readTarget index role token) := by
  simp only [readTarget, VmControl.readTarget, Checked.item_eq_ok h, check_ok, pure_bind]
  cases cutSlash token with
  | none => rfl
  | some parts => simp only [readPositionalLogin_eq, lift_bind, lift_pure]

/-! ## Lines of commands -/

section Lines

variable (action : Action) (table : CommandTable) (offset : Nat) (args : List String)

/-- Reads a line about a guest.  The command that it may end in starts where the walk stops. -/
def readGuestLine : Guarded Record := do
  let record := Record.ofAction action
  let target := if action.takesTarget then args[offset]? else none
  let draft : Draft := ⟨{ record with target := target }, ∅, []⟩
  let (draft, command) ← guest.walkFrom table args action.takesGuestCommand (offset + 1) draft
  match command with
  | some index =>
    let argv ← check (Checked.itemsFrom args index)
    return { draft.record with argv := argv }
  | none =>
    let record ← ofExcept draft.finish
    lift record.settle

theorem readGuestLine_eq :
    readGuestLine action table offset args =
      lift (VmControl.readGuestLine action table offset args) := by
  unfold readGuestLine VmControl.readGuestLine
  simp only [Grammar.walkFrom_eq, VmControl.Grammar.readTo]
  cases hcommand : if action.takesGuestCommand then
      (splitGuestCommand (table.read args (offset + 1)).events).2 else none with
  | some index =>
    have hindex : index ≤ args.length := by
      split at hcommand
      · obtain ⟨token, htoken⟩ := unknown_mem_of_splitGuestCommand hcommand
        exact Nat.le_of_lt (Table.index_lt_of_mem_read htoken rfl)
      · cases hcommand
    simp only [lift_bind, lift_pure, bind_assoc, pure_bind, Checked.itemsFrom_eq_ok hindex,
      check_ok]
    rfl
  | none =>
    simp only [lift_bind, lift_pure, bind_assoc, pure_bind]
    rfl

/-- Reads a migration line, which has at least two arguments. -/
def readMigrationLine : Guarded Record := do
  if args.length < offset + 2 then throw (.refused .migrateUsage)
  let (login, target) ← readTarget offset "src" args
  let destination ← check (Checked.item args (offset + 1))
  let (server, name) := match cutSlash destination with
    | some (server, name) => (server, some name)
    | none => (destination, none)
  let host ← readPositionalLogin (offset + 1) "dst" server
  let start := Record.ofAction action
  let record := { start with
    target := some target
    login := start.login.assignTarget login
    migration := { start.migration with
      newName := name
      destination := start.migration.destination.assign host } }
  let record ← migration.read table args (offset + 2) record
  ofExcept (Rule.enforce record.migration.rules)
  return record

theorem readMigrationLine_eq :
    readMigrationLine action table offset args =
      lift (VmControl.readMigrationLine action table offset args) := by
  unfold readMigrationLine VmControl.readMigrationLine
  by_cases hlength : args.length < offset + 2
  · have hnone : args[offset + 1]? = none := List.getElem?_eq_none (by omega)
    simp only [hlength, if_true, hnone]
    cases args[offset]? <;> rfl
  · have hsource := List.getElem?_eq_getElem (show offset < args.length by omega)
    have hdestination := List.getElem?_eq_getElem (show offset + 1 < args.length by omega)
    simp only [hlength, if_false, hsource, hdestination, readTarget_eq hsource,
      Checked.item_eq_ok hdestination, readPositionalLogin_eq, Grammar.read_eq, check_ok, pure_bind,
      lift_bind, lift_pure]
    rfl

/-- Reads the line for a backup of the guest in the argument at `offset`. -/
def readBackupLine : Guarded Record := do
  if args.length ≤ offset then throw (.refused .backupUsage)
  let record ← making.read table args (offset + 1) (Record.ofAction action)
  let (login, target) ← readTarget offset "node" args
  let backup := { record.backup with node := record.backup.node.assignTarget login }
  return { record with target := some target, backup := backup }

theorem readBackupLine_eq :
    readBackupLine action table offset args =
      lift (VmControl.readBackupLine action table offset args) := by
  unfold readBackupLine VmControl.readBackupLine
  by_cases hlength : args.length ≤ offset
  · simp only [hlength, if_true, List.getElem?_eq_none hlength]
    rfl
  · have hguest := List.getElem?_eq_getElem (show offset < args.length by omega)
    simp only [hlength, if_false, hguest, readTarget_eq hguest, Grammar.read_eq, lift_bind,
      lift_pure]
    rfl

/-- Reads a line that has something from `offset` on, which may be an option. -/
def readBackupChoice (g : Grammar Record) : Guarded Record :=
  if args.length ≤ offset then throw (.refused .backupUsage)
  else g.read table args offset (Record.ofAction action)

theorem readBackupChoice_eq (g : Grammar Record) :
    readBackupChoice action table offset args g =
      lift (VmControl.readBackupChoice g.grammar action table offset args) := by
  unfold readBackupChoice VmControl.readBackupChoice
  split
  · rfl
  · exact Grammar.read_eq ..

/-- Reads the line for listing backups. -/
def readBackupListLine : Guarded Record :=
  let record := Record.ofAction action
  listing.read table args (offset + 1) { record with kind := .all }

theorem readBackupListLine_eq :
    readBackupListLine action table offset args =
      lift (VmControl.readBackupListLine action table offset args) :=
  Grammar.read_eq ..

/-- Reads a line about the server. -/
def readServerLine : Guarded Record := do
  let record ← server.read table args offset (Record.ofAction action)
  ofExcept (Rule.enforce record.server.rules)
  return record

theorem readServerLine_eq :
    readServerLine action table offset args =
      lift (VmControl.readServerLine action table offset args) := by
  simp only [readServerLine, VmControl.readServerLine, Grammar.read_eq, lift_bind, lift_pure]
  rfl

/-- Reads the line for statistics. -/
def readStatisticsLine : Guarded Record :=
  (Grammar.verbatim Statistics.grammar).read table args offset (Record.ofAction action)

theorem readStatisticsLine_eq :
    readStatisticsLine action table offset args =
      lift (VmControl.readStatisticsLine action table offset args) :=
  Grammar.read_eq ..

/-- Reads the line for a problem report. -/
def readProblemReportLine : Guarded Record := do
  let record := Record.ofAction action
  let (record, start) :=
    if action = .problemReport then ({ record with target := args[offset]? }, offset + 1)
    else (record, offset)
  let record ← (Grammar.verbatim ProblemReport.grammar).read table args start record
  ofExcept (Rule.enforce record.report.rules)
  return record

theorem readProblemReportLine_eq :
    readProblemReportLine action table offset args =
      lift (VmControl.readProblemReportLine action table offset args) := by
  simp only [readProblemReportLine, VmControl.readProblemReportLine, Grammar.read_eq, lift_bind,
    lift_pure]
  rfl

end Lines

/-! ## Lines of families -/

section Families

variable (table : CommandTable) (position : Nat) (args : List String)

/-- Reads the line for backups of all guests. -/
def readNodeBackupLine : Guarded Record :=
  making.read table args position (Record.ofAction .serverBackupNode)

theorem readNodeBackupLine_eq :
    readNodeBackupLine table position args =
      lift (VmControl.readNodeBackupLine table position args) :=
  Grammar.read_eq ..

/-- Reads a line about a virtual network.  The short forms have no options. -/
def readVirtualNetworkLine : Guarded Record := do
  match args[position]?.bind VirtualNetwork.readCommand? with
  | none => lift (VmControl.readVirtualNetworkLine table position args)
  | some command =>
    let record := Record.ofAction .serverVirtualNetwork
    let record := { record with network := { record.network with command := command } }
    let record ← virtualNetwork.read table args (position + 1) record
    ofExcept (Rule.enforce record.network.rules)
    return record

theorem readVirtualNetworkLine_eq :
    readVirtualNetworkLine table position args =
      lift (VmControl.readVirtualNetworkLine table position args) := by
  unfold readVirtualNetworkLine
  rw [← List.head?_drop]
  split
  · rfl
  · next command hcommand =>
    obtain ⟨verb, hverb, hcommand⟩ := Option.bind_eq_some_iff.1 hcommand
    obtain ⟨rest, hdrop⟩ := List.head?_eq_some_iff.1 hverb
    simp only [VmControl.readVirtualNetworkLine, hdrop, hcommand, Grammar.read_eq, lift_bind,
      lift_pure]
    rfl

/-- Reads a line about a private network. -/
def readPrivateNetworkLine : Guarded Record := do
  match args[position]?.bind PrivateNetwork.readCommand? with
  | none => throw .invalidUsage
  | some command =>
    let record := Record.ofAction .serverPrivateNetwork
    let network := { record.privateNetwork with command := command }
    let record ← privateNetwork.read table args (position + 1)
      { record with privateNetwork := network }
    ofExcept (Rule.enforce record.privateNetwork.rules)
    return record

theorem readPrivateNetworkLine_eq :
    readPrivateNetworkLine table position args =
      lift (VmControl.readPrivateNetworkLine table position args) := by
  unfold readPrivateNetworkLine VmControl.readPrivateNetworkLine
  cases args[position]?.bind PrivateNetwork.readCommand? with
  | none => rfl
  | some command =>
    simp only [Grammar.read_eq, lift_bind, lift_pure]
    rfl

/-- Reads what is to be done to host devices, and tells how many words say so. -/
def usbOfWords : List String → Guarded (Option (UsbAssignment × Nat))
  | "set" :: name :: owner :: _ => do
    let owner ← uuidOrVerbatim owner
    return some (⟨.set, some name, some owner⟩, 3)
  | words => return UsbAssignment.ofWords? words

@[simp] theorem usbOfWords_eq (words : List String) :
    usbOfWords words = pure (UsbAssignment.ofWords? words) := by
  unfold usbOfWords
  split
  · rw [uuidOrVerbatim_eq]
    rfl
  · rfl

/-- Reads a line about the owners of host devices. -/
def readUsbLine : Guarded Record := do
  match ← usbOfWords (args.drop position) with
  | none => throw .invalidUsage
  | some (usb, words) =>
    let record := Record.ofAction .serverUsb
    (Grammar.verbatim UsbAssignment.grammar).read table args (position + words)
      { record with usb := usb }

theorem readUsbLine_eq :
    readUsbLine table position args = lift (VmControl.readUsbLine table position args) := by
  unfold readUsbLine VmControl.readUsbLine
  rw [usbOfWords_eq, pure_bind]
  cases UsbAssignment.ofWords? (args.drop position) with
  | none => rfl
  | some parts => exact Grammar.read_eq ..

/-- Reads a line about traffic shaping. -/
def readShapingLine : Guarded Record :=
  if args[position]? = some "restart" then
    readServerLine .serverShapingRestart table (position + 1) args
  else throw .invalidUsage

theorem readShapingLine_eq :
    readShapingLine table position args = lift (VmControl.readShapingLine table position args) := by
  unfold readShapingLine VmControl.readShapingLine
  split
  · exact readServerLine_eq ..
  · rfl

/-- Reads the line for a copy of a template, which has at least two arguments. -/
def readTemplateCopyLine : Guarded Record := do
  if args.length ≤ position + 1 then throw .invalidUsage
  let host ← check (Checked.item args position)
  let login ← readPositionalLogin position "dst" host
  let name ← check (Checked.item args (position + 1))
  let (osName, words) := TemplateCopy.systemTemplate (args.drop (position + 2))
  let start := Record.ofAction .serverTemplateCopy
  let record := { start with
    template := { start.template with name := some name, osName := osName }
    templateCopy := { start.templateCopy with
      destination := start.templateCopy.destination.assign login } }
  (Grammar.verbatim TemplateCopy.grammar).read table args (position + 2 + words) record

theorem readTemplateCopyLine_eq :
    readTemplateCopyLine table position args =
      lift (VmControl.readTemplateCopyLine table position args) := by
  unfold readTemplateCopyLine VmControl.readTemplateCopyLine
  by_cases hlength : args.length ≤ position + 1
  · have hshort : (args.drop position).length ≤ 1 := by
      rw [List.length_drop]
      omega
    simp only [hlength, if_true]
    generalize args.drop position = words at hshort ⊢
    rcases words with _ | ⟨host, _ | ⟨name, rest⟩⟩
    · rfl
    · rfl
    · exact absurd hshort (by simp)
  · have hhost := List.getElem?_eq_getElem (show position < args.length by omega)
    have hname := List.getElem?_eq_getElem (show position + 1 < args.length by omega)
    simp only [hlength, if_false, drop_of_getElem? hhost, drop_of_getElem? hname,
      Checked.item_eq_ok hhost, Checked.item_eq_ok hname, readPositionalLogin_eq, Grammar.read_eq,
      check_ok, pure_bind, lift_bind]
    rfl

/-- Reads a line about templates.  Only a copy has options. -/
def readTemplateLine : Guarded Record :=
  if args[position]? = some "copy" then readTemplateCopyLine table (position + 1) args
  else lift (VmControl.readTemplateLine table position args)

theorem readTemplateLine_eq :
    readTemplateLine table position args =
      lift (VmControl.readTemplateLine table position args) := by
  unfold readTemplateLine
  split
  · next hcopy =>
    simp only [readTemplateCopyLine_eq, VmControl.readTemplateLine, drop_of_getElem? hcopy]
  · rfl

end Families

/-! ## Commands -/

/-- How a line of a kind is read. -/
def readKind : LineKind → Action → CommandTable → Nat → List String → Guarded Record
  | .guest => readGuestLine
  | .migration => readMigrationLine
  | .backup => readBackupLine
  | .restore => fun action table start args => readBackupChoice action table start args restoring
  | .backupDelete => fun action table start args =>
    readBackupChoice action table start args deleting
  | .backupList => readBackupListLine
  | .server => readServerLine
  | .statistics => readStatisticsLine
  | .problemReport => readProblemReportLine

theorem readKind_eq (kind : LineKind) (action : Action) (table : CommandTable) (start : Nat)
    (args : List String) :
    readKind kind action table start args = lift (kind.read action table start args) :=
  match kind with
  | .guest => readGuestLine_eq ..
  | .migration => readMigrationLine_eq ..
  | .backup => readBackupLine_eq ..
  | .restore => readBackupChoice_eq ..
  | .backupDelete => readBackupChoice_eq ..
  | .backupList => readBackupListLine_eq ..
  | .server => readServerLine_eq ..
  | .statistics => readStatisticsLine_eq ..
  | .problemReport => readProblemReportLine_eq ..

/-- How a line of a family is read. -/
def readFamily : FamilyKind → CommandTable → Nat → List String → Guarded Record
  | .nodeBackup => readNodeBackupLine
  | .virtualNetwork => readVirtualNetworkLine
  | .privateNetwork => readPrivateNetworkLine
  | .usb => readUsbLine
  | .shaping => readShapingLine
  | .template => readTemplateLine

theorem readFamily_eq (kind : FamilyKind) (table : CommandTable) (start : Nat)
    (args : List String) : readFamily kind table start args = lift (kind.read table start args) :=
  match kind with
  | .nodeBackup => readNodeBackupLine_eq ..
  | .virtualNetwork => readVirtualNetworkLine_eq ..
  | .privateNetwork => readPrivateNetworkLine_eq ..
  | .usb => readUsbLine_eq ..
  | .shaping => readShapingLine_eq ..
  | .template => readTemplateLine_eq ..

/-- Reads a line. -/
def readLine (c : Command) (args : List String) : Guarded Record :=
  match c with
  | .line kind action table start => readKind kind action table start args
  | .family kind table start => readFamily kind table start args
  | .monitor => lift (readMonitorLine args)

/-- **Reading the line of a command does not trap.** -/
theorem readLine_eq (c : Command) (args : List String) : readLine c args = lift (c.read args) :=
  match c with
  | .line .. => readKind_eq ..
  | .family .. => readFamily_eq ..
  | .monitor => rfl

end Guarded

end VmControl
