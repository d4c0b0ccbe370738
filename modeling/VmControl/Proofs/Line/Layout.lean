import VmControl.Program
import VmControl.Proofs.Options.Slots

/-!
# Where things stand on a line

Which options a command reads, in which order, which arguments start with a login, and what the
line is for.  All that can be told from the line alone, before anything is made of it.

## Main definitions

* `Command.stream`: what a cursor delivers to the command.
* `Command.logins`: the logins in front of names.
* `Command.action`: what the line is for.
-/

namespace VmControl

open Options

/-! ## Options -/

/-- What a line of a kind delivers. -/
def LineKind.stream (kind : LineKind) (action : Action) (table : CommandTable) (start : Nat)
    (args : List String) : Stream OptionId :=
  match kind with
  | .guest =>
    let stream := table.read args (start + 1)
    match if action.takesGuestCommand then (splitGuestCommand stream.events).2 else none with
    | some _ => ⟨(splitGuestCommand stream.events).1, none⟩
    | none => stream
  | .migration => table.read args (start + 2)
  | .backup => table.read args (start + 1)
  | .backupList => table.read args (start + 1)
  | .problemReport => table.read args (if action = .problemReport then start + 1 else start)
  | _ => table.read args start

/-- What a line of a family delivers. -/
def FamilyKind.stream (kind : FamilyKind) (table : CommandTable) (start : Nat)
    (args : List String) : Stream OptionId :=
  match kind with
  | .nodeBackup => table.read args start
  | .virtualNetwork =>
    match (args.drop start).head?.bind VirtualNetwork.readCommand? with
    | some _ => table.read args (start + 1)
    | none => ∅
  | .usb =>
    match UsbAssignment.ofWords? (args.drop start) with
    | some (_, words) => table.read args (start + words)
    | none => ∅
  | .template =>
    if (args.drop start).head? = some "copy" then
      match args.drop (start + 1) with
      | _ :: _ :: rest => table.read args (start + 1 + 2 + (TemplateCopy.systemTemplate rest).2)
      | _ => ∅
    else ∅
  | _ => table.read args (start + 1)

/-- What a cursor delivers to a command. -/
def Command.stream (c : Command) (args : List String) : Stream OptionId :=
  match c with
  | .line kind action table start => kind.stream action table start args
  | .family kind table start => kind.stream table start args
  | .monitor => ∅

/-- Whether all values of options stand in the argument at `start` or after it. -/
def StandFrom (start : Nat) (ms : List (Match OptionId)) : Prop :=
  ∀ m ∈ ms, ∀ v, m.value = some v → start ≤ v.slot.index

theorem standFrom_read (table : CommandTable) (args : List String) (start : Nat) :
    StandFrom start (table.read args start).options := by
  intro m hm v hv
  have hsorted := (Cursor.stream_sorted (t := table) (c := Cursor.ofArgs args start)
    (Cursor.sound_of_run_eq_none rfl)).2
  exact hsorted _ (Stream.mem_options.1 hm) v.slot.index (by simp [Event.index?, Match.slot?, hv])

/-! ## Logins -/

theorem cutSlash_eq_some {s login name : String} (h : cutSlash s = some (login, name)) :
    s = login ++ ("/" ++ name) ∧ '/' ∉ login.toList := by
  obtain ⟨⟨before, after⟩, hcut, h⟩ := Option.map_eq_some_iff.1 h
  obtain ⟨hs, hbefore⟩ := Text.cutFirst_eq_some.1 hcut
  cases h
  refine ⟨String.toList_inj.1 ?_, by simpa using hbefore⟩
  simpa using hs

theorem cutSlash_eq_none {s : String} : cutSlash s = none ↔ '/' ∉ s.toList := by
  unfold cutSlash
  rw [Option.map_eq_none_iff, Text.cutFirst_eq_none]

/-- The login in front of a name, if there is one. -/
def targetLogins (index : Nat) (role token : String) : List PlacedLogin :=
  match cutSlash token with
  | some (login, _) => [⟨index, role, login⟩]
  | none => []

/-- The login that a name may follow. -/
def hostLogin (index : Nat) (role token : String) : PlacedLogin :=
  match cutSlash token with
  | some (login, _) => ⟨index, role, login⟩
  | none => ⟨index, role, token⟩

theorem role_of_mem_targetLogins {index : Nat} {role token : String} {l : PlacedLogin}
    (h : l ∈ targetLogins index role token) : l.role = role := by
  unfold targetLogins at h
  split at h
  · rw [List.mem_singleton.1 h]
  · cases h

@[simp] theorem role_hostLogin (index : Nat) (role token : String) :
    (hostLogin index role token).role = role := by
  unfold hostLogin
  split <;> rfl

theorem index_of_mem_targetLogins {index : Nat} {role token : String} {l : PlacedLogin}
    (h : l ∈ targetLogins index role token) : l.index = index := by
  unfold targetLogins at h
  split at h
  · rw [List.mem_singleton.1 h]
  · cases h

@[simp] theorem index_hostLogin (index : Nat) (role token : String) :
    (hostLogin index role token).index = index := by
  unfold hostLogin
  split <;> rfl

/-- A login of a migration is in front of the guest or of the host. -/
theorem migrationLogins_cases {start : Nat} {source destination : String} {l : PlacedLogin}
    (h : l ∈ targetLogins start "src" source ++ [hostLogin (start + 1) "dst" destination]) :
    (l.index = start ∧ l ∈ targetLogins start "src" source) ∨
      (l.index = start + 1 ∧ l ∈ [hostLogin (start + 1) "dst" destination]) := by
  rcases List.mem_append.1 h with h | h
  · exact .inl ⟨index_of_mem_targetLogins h, h⟩
  · refine .inr ⟨?_, h⟩
    rw [List.mem_singleton.1 h, index_hostLogin]

/-- The record of a migration whose options are still to be read. -/
def migrationStart (action : Action) (target : Option LoginText × String) (name : Option String)
    (host : LoginText) : Record :=
  let start := Record.ofAction action
  { start with
    target := some target.2
    login := start.login.assignTarget target.1
    migration := { start.migration with
      newName := name
      destination := start.migration.destination.assign host } }

theorem readMigrationLine_eq {action : Action} {table : CommandTable} {start : Nat}
    {args : List String} {source destination : String} (hs : args[start]? = some source)
    (hd : args[start + 1]? = some destination) :
    readMigrationLine action table start args = (do
      let target ← readTarget start "src" source
      let host ← readPositionalLogin (start + 1) "dst"
        (hostLogin (start + 1) "dst" destination).text
      let name := (cutSlash destination).map Prod.snd
      let record ← Migration.grammar.read (migrationStart action target name host)
        (table.read args (start + 2))
      Reading.ofExcept (Rule.enforce record.migration.rules)
      return record) := by
  unfold readMigrationLine hostLogin
  rw [hs, hd]
  dsimp only
  cases cutSlash destination <;> rfl

/-- The logins of a line of a kind. -/
def LineKind.logins (kind : LineKind) (start : Nat) (args : List String) : List PlacedLogin :=
  match kind with
  | .migration =>
    match args[start]?, args[start + 1]? with
    | some source, some destination =>
      targetLogins start "src" source ++ [hostLogin (start + 1) "dst" destination]
    | _, _ => []
  | .backup =>
    match args[start]? with
    | some name => targetLogins start "node" name
    | none => []
  | _ => []

/-- The logins of a line of a family. -/
def FamilyKind.logins (kind : FamilyKind) (start : Nat) (args : List String) : List PlacedLogin :=
  match kind with
  | .template =>
    if (args.drop start).head? = some "copy" then
      match args.drop (start + 1) with
      | host :: _ :: _ => [⟨start + 1, "dst", host⟩]
      | _ => []
    else []
  | _ => []

/-- The logins in front of names that a command reads, in order. -/
def Command.logins (c : Command) (args : List String) : List PlacedLogin :=
  match c with
  | .line kind _ _ start => kind.logins start args
  | .family kind _ start => kind.logins start args
  | .monitor => []

/-! ## Actions -/

/-- What a line of a family is for. -/
def FamilyKind.action (kind : FamilyKind) (start : Nat) (args : List String) : Action :=
  match kind with
  | .nodeBackup => .serverBackupNode
  | .virtualNetwork => .serverVirtualNetwork
  | .privateNetwork => .serverPrivateNetwork
  | .usb => .serverUsb
  | .shaping => .serverShapingRestart
  | .template =>
    if (args.drop start).head? = some "copy" then .serverTemplateCopy else .serverTemplate

/-- What a line is for. -/
def Command.action (c : Command) (args : List String) : Action :=
  match c with
  | .line _ action _ _ => action
  | .family kind _ start => kind.action start args
  | .monitor => .serverMonitor

/-! ## Whole lines -/

namespace Program

/-- The command that the line is read as: none if it asks for help, or has no command. -/
def command? (p : Program) (args : List String) : Option Command :=
  match p.help? args with
  | some _ => none
  | none => (p.command args).toOption

theorem command?_eq_some {p : Program} {args : List String} {c : Command} :
    p.command? args = some c ↔ p.help? args = none ∧ p.command args = .ok c := by
  unfold command?
  cases p.help? args with
  | some help => simp
  | none => cases p.command args <;> simp [Except.toOption]

theorem read_of_command? {p : Program} {args : List String} {c : Command}
    (h : p.command? args = some c) : p.read args = c.read args := by
  obtain ⟨hhelp, hcommand⟩ := command?_eq_some.1 h
  unfold read
  rw [hhelp, hcommand]
  rfl

/-- An accepted line has a command. -/
theorem exists_command {p : Program} {args : List String} {host : Host} {e : Effects} {r : Record}
    (h : ((p.read args).after host e).1 = .ok r) : ∃ c, p.command? args = some c := by
  unfold read at h
  cases hhelp : p.help? args with
  | some help =>
    rw [hhelp] at h
    cases h
  | none =>
    rw [hhelp] at h
    cases hcommand : p.command args with
    | error u =>
      rw [hcommand] at h
      cases h
    | ok c => exact ⟨c, command?_eq_some.2 ⟨hhelp, hcommand⟩⟩

/-- The options of a line, in order. -/
def options (p : Program) (args : List String) : List (Match OptionId) :=
  match p.command? args with
  | some c => (c.stream args).options
  | none => []

/-- The logins in front of names on a line, in order. -/
def logins (p : Program) (args : List String) : List PlacedLogin :=
  match p.command? args with
  | some c => c.logins args
  | none => []

end Program

end VmControl
