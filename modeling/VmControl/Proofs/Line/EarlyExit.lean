import VmControl.Proofs.Line.Fault

/-!
# Lines that end well before they are read

Some lines are done with as soon as something has been told: the usage, the version, or the guest
systems that there are.  The options of the two commands that list guests and users have one that
asks for help, and a line that ends there has told nothing.

## Main definitions

* `Match.Farewell`: what an option that ends a line well has told.
* `Reading.TakesLeave`: a reading tells nothing, unless it ends the line well.
* `Program.farewells`: what there is to tell.

## Main statements

* `Draft.takesLeave_step`, `Draft.takesLeave_steps`: taking options tells nothing, unless the last
  one ends the line well.
* `Program.exit_is_told_iff`: which lines that end well have told something.
-/

namespace VmControl

open Options

/-! ## What is told before a line ends -/

/-- The guest systems that there are, as they are told. -/
def Guest.catalogue : String := "The following values are allowed: " ++ Guest.listing Guest.versions

theorem Guest.catalogue_ne_empty : Guest.catalogue ≠ "" :=
  fun h => absurd (String.append_eq_empty_iff.1 h).1 (by decide)

/-- What an option that ends a line well has told. -/
inductive Options.Match.Farewell (m : Match OptionId) : String → Prop
  /-- Help is not given. -/
  | help (hid : m.id = .help) : m.Farewell ""
  /-- The guest systems are told if they are asked for. -/
  | catalogue (hid : m.id = .distribution) (htext : m.text = "list") : m.Farewell Guest.catalogue

/-- What a reading that comes to this has told, if it ends the line well at one of these options. -/
structure Leave {α : Type} (asked : Match OptionId → Prop) (e e' : Effects)
    (x : Except CommandError α) : Prop where
  /-- A line that goes on has told nothing. -/
  ok : ∀ a, x = .ok a → e'.outputText = e.outputText
  /-- A line that ends well has told what its option is for. -/
  exit : ∀ status, x = .error (.exit status) → status = 0 ∧
    ∃ m text, asked m ∧ m.Farewell text ∧ e'.outputText = e.outputText ++ text

@[simp] theorem Effects.outputText_start (p : Preferences) : (start p).outputText = "" :=
  rfl

@[simp] theorem Effects.outputText_addNote (e : Effects) (n : Note) :
    (e.addNote n).outputText = e.outputText ++ n.outputText := by
  simp [outputText, addNote]

namespace Reading

variable {α β : Type} {asked : Effects → Match OptionId → Prop}

/-- Whether a reading tells nothing, unless it ends the line well at one of these options. -/
def TakesLeave (asked : Effects → Match OptionId → Prop) (x : Reading α) : Prop :=
  ∀ host e, Leave (asked (x.after host e).2) e (x.after host e).2 (x.after host e).1

/-- Whether a reading tells nothing. -/
def Quiet (x : Reading α) : Prop :=
  ∀ host e, (x.after host e).2.outputText = e.outputText

theorem Quiet.takesLeave {x : Reading α} (hx : x.Quiet)
    (hfault : x.FailsOnly CommandError.IsFault) : x.TakesLeave asked := fun host e =>
  ⟨fun _ _ => hx host e, fun status h => absurd rfl (hfault host e _ h status)⟩

@[simp] theorem quiet_pure (a : α) : (pure a : Reading α).Quiet := by simp [Quiet]

@[simp] theorem quiet_throw (u : CommandError) : (throw u : Reading α).Quiet := by simp [Quiet]

@[simp] theorem quiet_ofExcept (x : Except CommandError α) : (ofExcept x).Quiet := by simp [Quiet]

@[simp] theorem quiet_host : (read : Reading Host).Quiet := by simp [Quiet]

@[simp] theorem quiet_readFile (path : String) : (readFile path).Quiet := by simp [Quiet]

@[simp] theorem quiet_wipe (s : Option Slot) : (wipe s).Quiet := by
  simp [Quiet, Effects.outputText]

@[simp] theorem quiet_prefer (f : Preferences → Preferences) : (prefer f).Quiet := by
  simp [Quiet, Effects.outputText]

@[simp] theorem quiet_complain (line : String) : (write (.complaint line)).Quiet := by
  simp [Quiet, Note.outputText]

@[simp] theorem quiet_warn (origin text : String) : (warn origin text).Quiet := by
  intro host e
  rw [after_warn]
  split <;> simp [Note.outputText]

@[simp] theorem quiet_bind {x : Reading α} {f : α → Reading β} (hx : x.Quiet)
    (hf : ∀ a, (f a).Quiet) : (x >>= f).Quiet := by
  intro host e
  have hxe := hx host e
  rw [after_bind]
  generalize x.after host e = out at hxe ⊢
  obtain ⟨u | a, e'⟩ := out
  · exact hxe
  · exact (hf a host e').trans hxe

@[simp] theorem quiet_map {x : Reading α} {f : α → β} (hx : x.Quiet) : (f <$> x).Quiet := by
  rw [map_eq_pure_bind]
  exact quiet_bind hx fun a => quiet_pure (f a)

/-- **What follows a reading takes leave as it does.** -/
theorem TakesLeave.bind {x : Reading α} {f : α → Reading β} (hx : x.TakesLeave asked)
    (hf : ∀ a, (f a).TakesLeave asked) : (x >>= f).TakesLeave asked := by
  intro host e
  have hxe := hx host e
  rw [after_bind]
  generalize x.after host e = out at hxe ⊢
  obtain ⟨u | a, e'⟩ := out
  · exact ⟨nofun, fun status h => hxe.exit status (by rw [Except.error.inj h])⟩
  · have hfe := hf a host e'
    have hquiet := hxe.ok a rfl
    refine ⟨fun b hb => (hfe.ok b hb).trans hquiet, fun status h => ?_⟩
    rw [← hquiet]
    exact hfe.exit status h

/-- An option that was entered is the last one. -/
theorem takesLeave_enter {m : Match OptionId} {x : Reading α} {slots : List Slot}
    (hwipes : x.Wipes slots) (hx : x.TakesLeave fun _ => (· = m)) :
    (enter m >>= fun _ => x).TakesLeave fun e m => e.options.getLast? = some m := by
  intro host e
  rw [after_bind, after_enter]
  dsimp only
  have hoptions := (hwipes.log host { e with options := e.options ++ [m] }).1
  have hleave := hx host { e with options := e.options ++ [m] }
  refine ⟨hleave.ok, fun status hstatus => ?_⟩
  obtain ⟨hzero, _, text, rfl, htext, htold⟩ := hleave.exit status hstatus
  exact ⟨hzero, _, text, by rw [hoptions, List.getLast?_concat], htext, htold⟩

theorem takesLeave_pure (a : α) : (pure a : Reading α).TakesLeave asked :=
  (quiet_pure a).takesLeave (failsOnly_pure a)

theorem takesLeave_throw {u : CommandError} (hu : u.IsFault) :
    (throw u : Reading α).TakesLeave asked :=
  (quiet_throw u).takesLeave (failsOnly_throw.2 hu)

/-- A line may end well without telling anything. -/
theorem takesLeave_exit {asked : Match OptionId → Prop} (h : ∃ m, asked m ∧ m.Farewell "") :
    (throw (.exit 0) : Reading α).TakesLeave fun _ => asked := by
  intro host e
  rw [after_throw]
  obtain ⟨m, hm, hhelp⟩ := h
  refine ⟨nofun, fun status hstatus => ⟨?_, m, "", hm, hhelp, by simp⟩⟩
  exact (CommandError.exit.inj (Except.error.inj hstatus)).symm

theorem takesLeave_ofExcept {x : Except CommandError α}
    (hx : VmControl.FailsOnly CommandError.IsFault x) : (ofExcept x).TakesLeave asked :=
  (quiet_ofExcept x).takesLeave (failsOnly_ofExcept.2 hx)

end Reading

/-! ## Lines about guests and users -/

theorem quiet_readCommonOption (m : Match OptionId) : (readCommonOption m).Quiet := by
  unfold readCommonOption readLogin readPasswordFile
  split
  case h_1 =>
    refine Reading.quiet_bind (Reading.quiet_bind (Reading.quiet_wipe _) fun _ => ?_) fun _ =>
      Reading.quiet_pure _
    cases LoginText.read m.text <;> simp
  all_goals simp

namespace Draft

/-- Telling which guest systems there are ends a line well if they are asked for. -/
theorem takesLeave_showGuests {asked : Match OptionId → Prop} {option value : String}
    {guests : List Guest} {listed : CommandError}
    (h : value = "list" → ∀ status, listed = .exit status → status = 0 ∧ ∃ m, asked m ∧
      m.Farewell ("The following values are allowed: " ++ Guest.listing guests)) :
    (showGuests option value guests listed).TakesLeave fun _ => asked := by
  intro host e
  by_cases hlist : value = "list"
  · refine ⟨by simp [showGuests, hlist], fun status hexit => ?_⟩
    have hlisted : listed = .exit status := by simpa [showGuests, hlist] using hexit
    obtain ⟨hstatus, m, hm, htext⟩ := h hlist status hlisted
    exact ⟨hstatus, m, _, hm, htext, by simp [showGuests, hlist, Note.outputText]⟩
  · exact ⟨by simp [showGuests, hlist], by simp [showGuests, hlist]⟩

/-- **An option ends a line well only if it asks for help or for the guest systems that there are.**
-/
theorem takesLeave_apply (m : Match OptionId) (d : Draft) :
    (apply m d).TakesLeave fun _ => (· = m) := by
  have hpure : (Reading.ofExcept (d.applyPure m)).TakesLeave fun _ => (· = m) :=
    Reading.takesLeave_ofExcept ((d.faults_applyPure m).mono fun _ hu => hu.2)
  unfold apply
  cases hconflict : d.conflict? m.id with
  | some u =>
    exact Reading.takesLeave_throw (CommandError.isFault_of_isRefusal
      (isRefusal_of_conflict? hconflict))
  | none =>
    dsimp only
    -- Of the options that are not merely entered, two may end the line well.
    split
    case h_1 hid =>
      exact Reading.takesLeave_exit ⟨m, rfl, .help hid⟩
    case h_2 =>
      split
      · exact Reading.takesLeave_pure _
      · exact takesLeave_showGuests nofun
    case h_3 hid =>
      split
      · exact Reading.takesLeave_pure _
      · refine takesLeave_showGuests fun hlist status h => ?_
        cases h
        exact ⟨rfl, m, rfl, .catalogue hid hlist⟩
    case h_4 =>
      split
      · exact Reading.takesLeave_pure _
      · exact (Reading.quiet_bind (Reading.quiet_complain _) fun _ => by simp).takesLeave (by simp)
    case h_5 =>
      split
      · exact Reading.TakesLeave.bind
          ((Reading.quiet_wipe _).takesLeave (Reading.failsOnly_wipe _)) fun _ => hpure
      · exact hpure
    case h_6 => exact hpure

theorem takesLeave_takeArgument {asked : Effects → Match OptionId → Prop} (index : Nat)
    (token : String) (d : Draft) : (takeArgument index token d).TakesLeave asked := by
  unfold takeArgument
  split
  · exact Reading.takesLeave_pure _
  · exact Reading.takesLeave_pure _
  · exact Reading.takesLeave_throw nofun

/-- **A line that ends well does so at its last option, and has told what that is for.** -/
theorem takesLeave_step {event : Event OptionId}
    (h : ∀ m, .option m = event → m.id.isCredential → m.id = .login ∨ m.id ∈ guestCredentials)
    (d : Draft) : (grammar.step d event).TakesLeave fun e m => e.options.getLast? = some m := by
  cases event with
  | unknown index token => exact takesLeave_takeArgument index token d
  | option m =>
    refine Reading.takesLeave_enter (wipes_grammar.option_wipes (h m rfl) d) ?_
    refine Reading.TakesLeave.bind ((quiet_readCommonOption m).takesLeave
      ((failsOnly_readCommonOption m).mono fun _ hu => hu.2)) fun f => ?_
    cases f with
    | some f => exact Reading.takesLeave_pure _
    | none => exact takesLeave_apply m d

/-- So do its options and arguments, taken in order. -/
theorem takesLeave_steps {events : List (Event OptionId)}
    (h : ∀ m, .option m ∈ events → m.id.isCredential → m.id = .login ∨ m.id ∈ guestCredentials)
    (d : Draft) : (grammar.steps d events).TakesLeave fun e m => e.options.getLast? = some m :=
  Grammar.steps_induction Reading.takesLeave_pure (fun _ _ hx hf => hx.bind hf)
    (fun _ hevent d => takesLeave_step (fun m hm => h m (hm ▸ hevent)) d) d

end Draft

theorem Record.quiet_settle (r : Record) : r.settle.Quiet := by
  unfold settle
  split
  · exact Reading.quiet_bind (Reading.quiet_warn _ _) fun _ =>
      Reading.quiet_bind (Reading.quiet_complain _) fun _ => by simp
  · simp

/-- So does a line about guests or users. -/
theorem takesLeave_readGuestLine {action : Action} {table : CommandTable} {start : Nat}
    {args : List String} (h : table.HasOnly LineKind.guest.credentials) :
    (readGuestLine action table start args).TakesLeave fun e m => e.options.getLast? = some m := by
  have hread (m : Match OptionId) (hm : .option m ∈ (table.read args (start + 1)).events) :=
    h.of_mem_read m hm
  unfold readGuestLine
  dsimp only
  generalize (if action.takesGuestCommand = true then _ else none) = command
  cases command with
  | some index =>
    have hbefore := fun m hm => hread m (mem_of_mem_splitGuestCommand hm)
    exact (Draft.takesLeave_steps hbefore _).bind fun _ =>
      Reading.takesLeave_pure _
  | none =>
    refine Reading.TakesLeave.bind ?_ fun d => ?_
    · refine (Draft.takesLeave_steps hread _).bind fun d => ?_
      cases (table.read args (start + 1)).missing with
      | none => exact Reading.takesLeave_pure d
      | some missing => exact Reading.takesLeave_throw nofun
    · refine (Reading.takesLeave_ofExcept d.refusesValue_finish.isFault).bind fun r => ?_
      exact r.quiet_settle.takesLeave
        (r.failsOnly_settle fun _ => CommandError.isFault_of_isRefusal)

/-! ## Programs -/

/-- **A command that ends the line well is about guests or users, and its last option has told what
it is for.** -/
theorem Command.leave_of_exit {c : Command} (h : c.WellEquipped) {args : List String} {host : Host}
    {e : Effects} {status : Int} (hexit : ((c.read args).after host e).1 = .error (.exit status)) :
    (∃ action table start, c = .line .guest action table start) ∧
      Leave (((c.read args).after host e).2.options.getLast? = some ·) e
        ((c.read args).after host e).2 ((c.read args).after host e).1 := by
  cases c with
  | line kind action table start =>
    by_cases hkind : kind = .guest
    · subst hkind
      exact ⟨⟨action, table, start, rfl⟩, takesLeave_readGuestLine h host e⟩
    · exact absurd rfl (LineKind.failsOnly_read hkind host e _ hexit status)
  | family kind table start => exact absurd rfl (FamilyKind.failsOnly_read host e _ hexit status)
  | monitor =>
    have hmonitor : (Command.monitor.read args).FailsOnly CommandError.IsFault := by
      simp only [Command.read, readMonitorLine]
      split <;> simp
    exact absurd rfl (hmonitor host e _ hexit status)

/-- Whether the options of a command that stands for the action have one that asks for help. -/
def Action.knowsHelp : Action → Bool
  | .list => true
  | .serverUserList => true
  | _ => false

/-- Whether an option that ends the line well asks for help just if the action has one that does. -/
def Command.HelpsByAction : Command → Prop
  | .line .guest action table _ =>
    ∀ e ∈ table.entries, e.id = .help ∨ e.id = .distribution → (e.id = .help ↔ action.knowsHelp)
  | _ => True

instance (c : Command) : Decidable c.HelpsByAction :=
  match c with
  | .line .guest action table _ => inferInstanceAs (Decidable (∀ e ∈ table.entries,
      e.id = .help ∨ e.id = .distribution → (e.id = .help ↔ action.knowsHelp = true)))
  | .line .migration .. | .line .backup .. | .line .restore .. | .line .backupDelete ..
  | .line .backupList .. | .line .server .. | .line .statistics .. | .line .problemReport ..
  | .family .. | .monitor => .isTrue trivial

namespace Program

/-- It does for the commands of both programs. -/
theorem helpsByAction_of_command {p : Program} {args : List String} {c : Command}
    (h : p.command args = .ok c) : c.HelpsByAction := by
  have hroster : ∀ l ∈ p.roster, l.command.HelpsByAction := by cases p <;> decide +kernel
  obtain ⟨l, hl, rfl, -⟩ := exists_listing h
  exact hroster l hl

/-- What a program tells before it ends a line well: the usage, the version, or which guest systems
there are. -/
def farewells (p : Program) (args : List String) : List String :=
  [p.usage args, Usage.version (Usage.programName args) ++ "\n", Guest.catalogue]

/-- There is something to it. -/
theorem ne_empty_of_mem_farewells {p : Program} {args : List String} {text : String}
    (h : text ∈ p.farewells args) : text ≠ "" := by
  have husage (program synopsis : String) (commands : List String) :
      Usage.text program synopsis commands ≠ "" := by
    simp [Usage.text, Usage.version]
  simp only [farewells, List.mem_cons, List.not_mem_nil, or_false] at h
  rcases h with h | h | h
  · rw [h]
    cases p with
    | guests => exact husage _ _ _
    | server => exact husage _ _ _
  · simp [h]
  · exact h ▸ Guest.catalogue_ne_empty

section Exit

variable {p : Program} {args : List String} {host : Host} {start : Preferences} {e : Effects}
  {status : Int}

/-- A line that asks for help and ends well has told the usage or the version. -/
theorem exit_of_help? {text : String} {u : CommandError} (hhelp : p.help? args = some (text, u))
    (h : (p.read args).perform host start = (.error (.exit status), e)) :
    status = 0 ∧ text ∈ p.farewells args ∧ e.outputText = text ∧ e.options = [] := by
  have hread : (p.read args).perform host start =
      (.error u, (Effects.start start).addNote (.output text)) := by
    unfold read
    rw [hhelp]
    rfl
  obtain ⟨hu, rfl⟩ := Prod.mk.inj (hread.symm.trans h)
  obtain rfl := Except.error.inj hu
  have hmem : text ∈ p.farewells args := by
    rcases cases_of_help? hhelp with ⟨htext, -⟩ | ⟨htext, -⟩ <;> simp [htext, farewells]
  refine ⟨?_, hmem, by simp [Note.outputText], rfl⟩
  rcases ending_of_help? hhelp with hu | hu
  · cases hu
  · exact CommandError.exit.inj hu

/-- A line of a command that ends well does so at its last option, which asks for help just if the
command has such an option. -/
theorem exit_of_command? {c : Command} (hc : p.command? args = some c)
    (h : (p.read args).perform host start = (.error (.exit status), e)) :
    status = 0 ∧ ∃ m text, e.options.getLast? = some m ∧ m.Farewell text ∧ e.outputText = text ∧
      (m.id = .help ↔ (c.action args).knowsHelp) := by
  obtain ⟨-, hcommand⟩ := command?_eq_some.1 hc
  have hequipped := wellEquipped_of_command hcommand
  rw [read_of_command? hc] at h
  have hread : (c.read args).after host (.start start) = (.error (.exit status), e) := h
  obtain ⟨⟨action, table, first, rfl⟩, hleave⟩ :=
    Command.leave_of_exit hequipped (congrArg Prod.fst hread)
  obtain ⟨ms, _, hfirst, -, hvisit, -⟩ := Command.visits_read hequipped args host (.start start)
  rw [hread] at hleave hvisit
  obtain ⟨hzero, m, text, hlast, hfarewell, htold⟩ := hleave.exit status rfl
  rw [Effects.outputText_start, String.empty_append] at htold
  refine ⟨hzero, m, text, hlast, hfarewell, htold, ?_⟩
  -- The option is one of the line, and so one of its table.
  have hm : m ∈ ms := by
    rw [← List.nil_append ms]
    exact List.mem_of_getLast? (hvisit.options ▸ hlast)
  obtain ⟨entry, hentry, hid⟩ := Table.has_of_mem_read
    (Stream.mem_options.1 (mem_read_of_mem_guestStream (hfirst.subset hm)))
  have hends : entry.id = .help ∨ entry.id = .distribution := by
    rw [hid]
    cases hfarewell with
    | help h => exact .inl h
    | catalogue h => exact .inr h
  rw [← hid]
  exact helpsByAction_of_command hcommand entry hentry hends

/-- **The lines that end well have told the usage, the version or which guest systems there are,
except for those that end at an option that asks for help.**  Only listing guests and users has one.
-/
theorem exit_is_told_iff (h : (p.read args).perform host start = (.error (.exit status), e)) :
    status = 0 ∧
      (e.outputText ≠ "" ↔ ¬ ∃ c, p.command? args = some c ∧ (c.action args).knowsHelp) ∧
      (e.outputText ≠ "" → e.outputText ∈ p.farewells args) ∧
      (e.outputText = "" ↔ ∃ m, e.options.getLast? = some m ∧ m.id = .help) := by
  cases hhelp : p.help? args with
  | some help =>
    obtain ⟨text, u⟩ := help
    obtain ⟨hzero, hmem, htold, hoptions⟩ := exit_of_help? hhelp h
    have hcommand : p.command? args = none := by simp [command?, hhelp]
    have hne := ne_empty_of_mem_farewells hmem
    rw [htold, hoptions, hcommand]
    exact ⟨hzero, by simp [hne], fun _ => hmem, by simp [hne]⟩
  | none =>
    cases hcommand : p.command args with
    | error u =>
      have hu : u.IsFault := failsOnly_command (by simp) (by simp) p args u hcommand
      have hread : (p.read args).perform host start = (.error u, .start start) := by
        unfold read
        rw [hhelp, hcommand]
        rfl
      exact absurd (Except.error.inj (Prod.mk.inj (hread.symm.trans h)).1) (hu status)
    | ok c =>
      have hc := command?_eq_some.2 ⟨hhelp, hcommand⟩
      obtain ⟨hzero, m, text, hlast, hfarewell, htold, hasks⟩ := exit_of_command? hc h
      rw [htold, hlast, hc]
      cases hfarewell with
      | help hid =>
        exact ⟨hzero, by simp [hasks.1 hid], by simp, by simp [hid]⟩
      | catalogue hid htext =>
        have hne := Guest.catalogue_ne_empty
        have hknows : ¬ (c.action args).knowsHelp := by simp [← hasks, hid]
        exact ⟨hzero, by simp [hne, hknows], fun _ => by simp [farewells], by simp [hne, hid]⟩

/-- A line that creates a guest and asks which distributions there are is told. -/
theorem asking_for_distributions_is_told : ∃ e,
    (guests.read ["prlctl", "create", "vm1", "--distribution", "list"]).perform
      ⟨fun _ => .error "", .ok⟩ .initial = (.error (.exit 0), e) ∧ e.outputText ≠ "" := by
  have hread : CommandTable.create.read ["prlctl", "create", "vm1", "--distribution", "list"] 3 =
      ⟨[.option ⟨.distribution, "--distribution", some ⟨"list", ⟨4, 0, 4⟩⟩⟩], none⟩ :=
    Table.read_eq_of_streamWithin (n := 3) (by rfl)
  have hline : guests.read ["prlctl", "create", "vm1", "--distribution", "list"] =
      readGuestLine .create CommandTable.create 2
        ["prlctl", "create", "vm1", "--distribution", "list"] := rfl
  have hcommand : guests.command? ["prlctl", "create", "vm1", "--distribution", "list"] =
      some (.line .guest .create CommandTable.create 2) := rfl
  obtain ⟨e, hrun⟩ : ∃ e,
      (guests.read ["prlctl", "create", "vm1", "--distribution", "list"]).perform
        ⟨fun _ => .error "", .ok⟩ .initial = (.error (.exit 0), e) := by
    rw [hline]
    unfold readGuestLine
    rw [hread]
    exact ⟨_, rfl⟩
  refine ⟨e, hrun, (exit_is_told_iff hrun).2.1.2 ?_⟩
  simp [hcommand, Command.action, Action.knowsHelp]

/-- **Listing users with an option that asks for help tells nothing**, and the line ends well. -/
theorem help_on_listing_users_is_silent :
    ((server.read ["prlsrvctl", "user", "list", "--help"]).perform
      ⟨fun _ => .error "", .ok⟩ .initial).1 = .error (.exit 0) ∧
    ((server.read ["prlsrvctl", "user", "list", "--help"]).perform
      ⟨fun _ => .error "", .ok⟩ .initial).2.outputText = "" := by
  have hread : CommandTable.userList.read ["prlsrvctl", "user", "list", "--help"] 3 =
      ⟨[.option ⟨.help, "--help", none⟩], none⟩ :=
    Table.read_eq_of_streamWithin (n := 3) (by rfl)
  have hline : server.read ["prlsrvctl", "user", "list", "--help"] =
      readGuestLine .serverUserList CommandTable.userList 2
        ["prlsrvctl", "user", "list", "--help"] := rfl
  rw [hline]
  unfold readGuestLine
  rw [hread]
  exact ⟨rfl, rfl⟩

end Exit

end Program

end VmControl
