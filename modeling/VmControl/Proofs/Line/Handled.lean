import VmControl.Proofs.Line.Written
import VmControl.Proofs.Options.Name

/-!
# Tables and commands agree

The options of a command are declared in one place and taken in another.  Both agree: an option that
is read off a line is never turned down for being unknown to its command.  If a line is turned down
because nobody takes something, that is an argument which was handed back as unknown, and no option
on the line has its text for a name.

## Main statements

* `Program.unknown_of_refused`: what nobody takes was handed back as unknown.
-/

namespace VmControl

open Options

/-! ## Names on a line -/

/-- What a command is delivered comes from its table. -/
theorem Command.exists_read_of_mem_stream {c : Command} {args : List String}
    {event : Event OptionId} (h : event ∈ (c.stream args).events) :
    ∃ n, event ∈ (c.table.read args n).events := by
  cases c with
  | line kind action table start =>
    cases kind with
    | guest =>
      refine ⟨start + 1, ?_⟩
      simp only [stream, LineKind.stream] at h
      split at h
      · cases event with
        | option m => exact mem_of_mem_splitGuestCommand h
        | unknown index token => exact absurd h unknown_notMem_splitGuestCommand
      · exact h
    | _ => exact ⟨_, h⟩
  | family kind table start =>
    cases kind with
    | virtualNetwork =>
      simp only [stream, FamilyKind.stream] at h
      split at h
      · exact ⟨_, h⟩
      · cases h
    | usb =>
      simp only [stream, FamilyKind.stream] at h
      split at h
      · exact ⟨_, h⟩
      · cases h
    | template =>
      simp only [stream, FamilyKind.stream] at h
      split at h
      · split at h
        · exact ⟨_, h⟩
        · cases h
      · cases h
    | _ => exact ⟨_, h⟩
  | monitor => cases h

/-- The dashes alone name no option of either program. -/
theorem Program.hasNames_of_command {p : Program} {args : List String} {c : Command}
    (h : p.command args = .ok c) : c.table.HasNames := by
  have hroster : ∀ l ∈ p.roster, l.command.table.HasNames := by cases p <;> decide +kernel
  obtain ⟨l, hl, rfl, -⟩ := exists_listing h
  exact hroster l hl

/-- No option on a line has the text of an unknown argument for a name. -/
theorem Program.name_ne_of_unknown {p : Program} {args : List String} {c : Command}
    (hc : p.command? args = some c) {index : Nat} {token : String}
    (h : .unknown index token ∈ (c.stream args).events) : ∀ m ∈ p.options args, m.name ≠ token := by
  have ht : c.table.HasNames := hasNames_of_command (command?_eq_some.1 hc).2
  obtain ⟨n, htoken⟩ := Command.exists_read_of_mem_stream h
  intro m hm hname
  unfold options at hm
  rw [hc] at hm
  obtain ⟨n', hoption⟩ := Command.exists_read_of_mem_stream (Stream.mem_options.1 hm)
  have hspells : c.table.Spells m.name := Table.spells_of_option ht hoption
  rw [hname] at hspells
  exact Table.not_spells_of_unknown ht htoken hspells

/-! ## Lines that are turned down -/

/-- Without a command nothing is taken, so nothing is left over. -/
theorem Program.exists_command_of_isStray {p : Program} {args : List String} {host : Host}
    {e : Effects} {u : CommandError} (h : ((p.read args).after host e).1 = .error u)
    (hstray : u.isStray = true) : ∃ c, p.command? args = some c := by
  unfold read at h
  cases hhelp : p.help? args with
  | some help =>
    rw [hhelp] at h
    cases h
    rcases ending_of_help? hhelp with hu | hu <;> rw [hu] at hstray <;> cases hstray
  | none =>
    rw [hhelp] at h
    cases hcommand : p.command args with
    | error u' =>
      rw [hcommand] at h
      cases h
      have hblames : BlamesValue (p.command args) :=
        failsOnly_command (by rfl) (by intro verb; rfl) p args
      rw [hblames _ hcommand] at hstray
      cases hstray
    | ok c => exact ⟨c, command?_eq_some.2 ⟨hhelp, hcommand⟩⟩

/-- **What nobody takes was handed back as unknown.**  However a line is turned down, it is never
because its command does not handle an option.  If it is because an option is not recognized or an
argument is not expected, the text is an argument that was handed back as unknown, and no option on
the line has it for a name. -/
theorem Program.unknown_of_refused {p : Program} {args : List String} {host : Host}
    {start : Preferences} {u : CommandError} (h : ((p.read args).perform host start).1 = .error u) :
    (∀ name, u ≠ .refused (.unhandled name)) ∧
    ∀ text, u = .unrecognized text ∨ u = .unexpectedArgument text →
      ∃ c index, p.command? args = some c ∧ .unknown index text ∈ (c.stream args).events ∧
        ∀ m ∈ p.options args, m.name ≠ text := by
  have hblames : u.isStray = true → ∃ c index token, p.command? args = some c ∧
      .unknown index token ∈ (c.stream args).events ∧
      (u = .unrecognized token ∨ u = .unexpectedArgument token) := by
    intro hstray
    obtain ⟨c, hc⟩ := exists_command_of_isStray h hstray
    rw [read_of_command? hc] at h
    have hserved : c.IsServed := isServed_of_command (command?_eq_some.1 hc).2
    obtain ⟨index, token, hmem, hu⟩ := (c.ends_read hserved args host _).2 u h hstray
    exact ⟨c, index, token, hc, hmem, hu⟩
  refine ⟨?_, ?_⟩
  · rintro name rfl
    obtain ⟨c, index, token, -, -, hu⟩ := hblames rfl
    rcases hu with hu | hu <;> cases hu
  · intro text htext
    obtain ⟨c, index, token, hc, hmem, hu⟩ := hblames (by rcases htext with rfl | rfl <;> rfl)
    obtain rfl : text = token := by
      rcases htext with rfl | rfl <;> rcases hu with hu | hu <;> cases hu <;> rfl
    exact ⟨c, index, hc, hmem, name_ne_of_unknown hc hmem⟩

/-- The line `prlctl start vm1 --bogus` is turned down for its last word. -/
theorem bogus_option_is_unknown : ∃ u,
    ((Program.guests.read ["prlctl", "start", "vm1", "--bogus"]).perform
      ⟨fun _ => .error "", fun _ => .error ""⟩ .initial).1 = .error u ∧
    u = .unrecognized "--bogus" ∧
    ∃ c index, Program.guests.command? ["prlctl", "start", "vm1", "--bogus"] = some c ∧
      .unknown index "--bogus" ∈ (c.stream ["prlctl", "start", "vm1", "--bogus"]).events ∧
      ∀ m ∈ Program.guests.options ["prlctl", "start", "vm1", "--bogus"], m.name ≠ "--bogus" := by
  have hstream : CommandTable.start.read ["prlctl", "start", "vm1", "--bogus"] 3 =
      ⟨[.unknown 3 "--bogus"], none⟩ :=
    Table.read_eq_of_streamWithin (n := 2) (by rfl)
  have hread : ((Program.guests.read ["prlctl", "start", "vm1", "--bogus"]).perform
      ⟨fun _ => .error "", fun _ => .error ""⟩ .initial).1 = .error (.unrecognized "--bogus") := by
    show ((readGuestLine .start CommandTable.start 2 _).perform _ _).1 = _
    unfold readGuestLine
    rw [hstream]
    rfl
  exact ⟨_, hread, rfl, (Program.unknown_of_refused hread).2 "--bogus" (.inl rfl)⟩

end VmControl
