import VmControl.Proofs.Line.Roster
import VmControl.Proofs.Options.Displacement
import VmControl.Proofs.Redaction

/-!
# The same line in both programs

A few commands are about the server, and the program for guests has them too, after one more word.
A line for one of them is read by the same grammar there, but the options stand one argument further
on.  Grammars look at what was read from an argument and never at where it stands, so the line comes
to the same, and what is wiped of it stands one argument further on.

## Main definitions

* `Effects.shift`: what was done on a line, so many arguments further on.
* `Reading.Displaced`: a reading does further on what another one does.
* `Grammar.Displaceable`: a grammar takes what stands further on in the same way.

## Main statements

* `Reading.Displaced.bind`: what follows readings that are displaced is displaced.
* `Grammar.Displaceable.read`: a line that is taken further on comes to the same.
* `Program.shared_line_agrees`: both programs read a line about the server alike.
-/

namespace VmControl

open Options

/-! ## Effects further on -/

/-- The same login, `n` arguments further on. -/
def PlacedLogin.shift (n : Nat) (l : PlacedLogin) : PlacedLogin := { l with index := l.index + n }

/-- The same effects, `n` arguments further on. -/
def Effects.shift (n : Nat) (e : Effects) : Effects where
  preferences := e.preferences
  options := e.options.map (·.shift n)
  logins := e.logins.map (·.shift n)
  wiped := e.wiped.map (·.shift n)
  notes := e.notes

/-! ## Readings further on -/

namespace Reading

variable {α β : Type} {n : Nat}

/-- Whether `y` comes to the same as `x`, and does `n` arguments further on what `x` does. -/
def Displaced (n : Nat) (x y : Reading α) : Prop :=
  ∀ host e, y.after host (e.shift n) = ((x.after host e).1, (x.after host e).2.shift n)

/-- **What follows readings that are displaced is displaced.** -/
theorem Displaced.bind {x y : Reading α} {f g : α → Reading β} (hx : x.Displaced n y)
    (hf : ∀ a, (f a).Displaced n (g a)) : (x >>= f).Displaced n (y >>= g) := by
  intro host e
  rw [after_bind, after_bind, hx host e]
  rcases x.after host e with ⟨u | a, e'⟩
  · rfl
  · exact hf a host e'

@[simp] theorem displaced_pure (a : α) : (pure a : Reading α).Displaced n (pure a) :=
  fun _ _ => rfl

@[simp] theorem displaced_throw (u : CommandError) :
    (throw u : Reading α).Displaced n (throw u) :=
  fun _ _ => rfl

@[simp] theorem displaced_map {x y : Reading α} {f : α → β} (hx : x.Displaced n y) :
    (f <$> x).Displaced n (f <$> y) := by
  rw [map_eq_pure_bind, map_eq_pure_bind]
  exact hx.bind fun a => displaced_pure (f a)

@[simp] theorem displaced_ofExcept (x : Except CommandError α) :
    (ofExcept x).Displaced n (ofExcept x) := by
  cases x <;> simp [ofExcept]

@[simp] theorem displaced_readFile (path : String) :
    (readFile path).Displaced n (readFile path) :=
  fun host e => by rw [after_readFile, after_readFile]

@[simp] theorem displaced_prefer (f : Preferences → Preferences) :
    (prefer f).Displaced n (prefer f) :=
  fun _ _ => rfl

@[simp] theorem displaced_enter (m : Match OptionId) :
    (enter m).Displaced n (enter (m.shift n)) :=
  fun _ e => by simp [Effects.shift]

@[simp] theorem displaced_wipe (s : Option Slot) :
    (wipe s).Displaced n (wipe (s.map (·.shift n))) :=
  fun _ e => by cases s <;> simp [Effects.shift]

end Reading

section

variable {n : Nat}

@[simp] theorem displaced_readLogin (m : Match OptionId) :
    (readLogin m).Displaced n (readLogin (m.shift n)) := by
  unfold readLogin
  rw [Match.shift_slot?, Match.shift_text, Match.shift_name]
  exact (Reading.displaced_wipe _).bind fun _ => by cases LoginText.read m.text <;> simp

@[simp] theorem displaced_readSecret (m : Match OptionId) :
    (readSecret m).Displaced n (readSecret (m.shift n)) := by
  simp [readSecret]

theorem displaced_readCommonOption (m : Match OptionId) :
    (readCommonOption m).Displaced n (readCommonOption (m.shift n)) := by
  unfold readCommonOption
  rw [Match.shift_id, Match.shift_text]
  cases m.id <;> simp [readPasswordFile]

@[simp] theorem displaced_refuseOption {α : Type} (m : Match OptionId) :
    (refuseOption m : Reading α).Displaced n (refuseOption (m.shift n)) := by
  simp [refuseOption]

end

/-! ## Grammars -/

namespace Grammar

variable {α : Type} {g : Grammar α} {n : Nat}

/-- Whether a grammar takes what stands further on in the same way. -/
structure Displaceable (g : Grammar α) : Prop where
  /-- Arguments are. -/
  argument : ∀ n index token a,
    (g.argument index token a).Displaced n (g.argument (index + n) token a)
  /-- So are options. -/
  option : ∀ n m a, (g.option m a).Displaced n (g.option (m.shift n) a)

theorem Displaceable.step (hg : g.Displaceable) (a : α) (event : Event OptionId) :
    (g.step a event).Displaced n (g.step a (event.shift n)) := by
  cases event with
  | unknown index token => exact hg.argument n index token a
  | option m =>
    refine (Reading.displaced_enter m).bind fun _ => (displaced_readCommonOption m).bind fun f => ?_
    cases f with
    | some f => exact Reading.displaced_pure (g.mapLogin f a)
    | none => exact hg.option n m a

theorem Displaceable.steps (hg : g.Displaceable) (a : α) (events : List (Event OptionId)) :
    (g.steps a events).Displaced n (g.steps a (events.map (·.shift n))) := by
  unfold Grammar.steps
  induction events generalizing a with
  | nil => exact Reading.displaced_pure a
  | cons event events ih =>
    rw [List.map_cons, List.foldlM_cons, List.foldlM_cons]
    exact (hg.step a event).bind ih

/-- **A line that is taken further on comes to the same.** -/
theorem Displaceable.read (hg : g.Displaceable) (a : α) (s : Stream OptionId) :
    (g.read a s).Displaced n (g.read a (s.shift n)) := by
  obtain ⟨events, missing⟩ := s
  refine (hg.steps a events).bind fun a => ?_
  cases missing with
  | none => exact Reading.displaced_pure a
  | some missing => exact Reading.displaced_throw _

end Grammar

theorem Server.displaceable_grammar : grammar.Displaceable where
  argument n index token r := by simp [grammar, recordGrammar, refuseArgument]
  option n m r := by
    have hstorage : (takeStorage m r.server).Displaced n (takeStorage (m.shift n) r.server) := by
      simp [takeStorage]
    have hkey (path : String) : (readKey path).Displaced n (readKey path) := by
      unfold readKey
      split <;> simp
    have hentry : takeEntry? (m.shift n) r.server = takeEntry? m r.server := by
      unfold takeEntry?
      rw [Match.shift_id, Match.shift_text]
    show (takeOption m r).Displaced n (takeOption (m.shift n) r)
    unfold takeOption
    rw [Match.shift_id, Match.shift_name, Match.shift_text, hentry]
    split <;> try simp [hstorage, hkey]
    split <;> simp

theorem ProblemReport.displaceable_grammar : grammar.Displaceable where
  argument n index token r := by simp [grammar, recordGrammar, refuseArgument]
  option n m r := by
    show (takeOption m r).Displaced n (takeOption (m.shift n) r)
    unfold takeOption
    rw [Match.shift_id, Match.shift_text]
    cases m.id <;> simp

/-! ## Lines -/

section Lines

variable {action : Action} {table : CommandTable} {start n : Nat} {args args' : List String}

theorem displaced_readServerLine (h : args'.drop (start + n) = args.drop start) :
    (readServerLine action table start args).Displaced n
      (readServerLine action table (start + n) args') := by
  unfold readServerLine
  rw [table.read_behind h]
  exact (Server.displaceable_grammar.read _ _).bind fun record => by simp

/-- So is the line for a problem report, unless it is about a guest. -/
theorem displaced_readProblemReportLine (haction : action ≠ .problemReport)
    (h : args'.drop (start + n) = args.drop start) :
    (readProblemReportLine action table start args).Displaced n
      (readProblemReportLine action table (start + n) args') := by
  unfold readProblemReportLine
  simp only [haction, if_false]
  rw [table.read_behind h]
  exact (ProblemReport.displaceable_grammar.read _ _).bind fun record => by simp

end Lines

/-- The command that a verb of both programs stands for reads the same line further on. -/
theorem displaced_of_sharedCommand? {verb : String} {command : Command} {start n : Nat}
    {args args' : List String} (hcommand : sharedCommand? verb start = some command)
    (h : args'.drop (start + n) = args.drop start) :
    ∃ command', sharedCommand? verb (start + n) = some command' ∧
      (command.read args).Displaced n (command'.read args') := by
  have hkinds : ∀ e ∈ sharedVerbs,
      e.2.1 = .server ∨ (e.2.1 = .problemReport ∧ e.2.2.1 ≠ .problemReport) := by
    decide
  obtain ⟨⟨kind, action, table⟩, hverb, rfl⟩ := Option.map_eq_some_iff.1 hcommand
  refine ⟨.line kind action table (start + n), by simp [sharedCommand?, hverb], ?_⟩
  rcases hkinds _ (mem_of_lookup hverb) with hkind | ⟨hkind, haction⟩
  · obtain rfl : kind = .server := hkind
    exact displaced_readServerLine h
  · obtain rfl : kind = .problemReport := hkind
    exact displaced_readProblemReportLine haction h

/-! ## Both programs -/

namespace ArgumentBytes

/-- Wiping the same slots further on wipes the same bytes, further on. -/
theorem byte?_wipeAll_shift {args args' : List String} {slots : List Slot} {i n : Nat} (j : Nat)
    (h : args'[i + n]? = args[i]?) :
    ((ofArgs args').wipeAll (slots.map (·.shift n))).byte? (i + n) j =
      ((ofArgs args).wipeAll slots).byte? i j := by
  have hbyte : (ofArgs args').byte? (i + n) j = (ofArgs args).byte? i j := by
    simp only [byte?, ofArgs, List.getElem?_map, h]
  have hcovers : (∃ s ∈ slots.map (·.shift n), s.Covers (i + n) j) ↔ ∃ s ∈ slots, s.Covers i j := by
    constructor
    · rintro ⟨_, hmem, hcovers⟩
      obtain ⟨s, hs, rfl⟩ := List.mem_map.1 hmem
      exact ⟨s, hs, Nat.add_right_cancel hcovers.1, hcovers.2⟩
    · rintro ⟨s, hs, rfl, hcovers⟩
      exact ⟨s.shift n, List.mem_map_of_mem hs, rfl, hcovers⟩
  rw [byte?_wipeAll, byte?_wipeAll, hbyte]
  simp only [hcovers]

end ArgumentBytes

/-- **Both programs read a line about the server alike**, but for the one more word of the program
for guests: they come to the same record or the same error, leave the same preferences, and write
the same.  What they wipe of what follows the verb is the same, one argument further on.  Only the
program for guests looks for `--help` after the verb. -/
theorem Program.shared_line_agrees {name verb : String} {tail : List String}
    (hverb : verb ∈ ["shutdown", "info", "install-license", "problem-report"])
    (hname : name ≠ "--help") (htail : "--help" ∉ tail) (host : Host) (start : Preferences) :
    let ours := name :: "server" :: verb :: tail
    let theirs := name :: verb :: tail
    let x := (Program.guests.read ours).perform host start
    let y := (Program.server.read theirs).perform host start
    x.1 = y.1 ∧ x.2.preferences = y.2.preferences ∧ x.2.notes = y.2.notes ∧ x.2 = y.2.shift 1 ∧
      ∀ i j, ((ArgumentBytes.ofArgs ours).wipeAll x.2.wiped).byte? (i + 3) j =
        ((ArgumentBytes.ofArgs theirs).wipeAll y.2.wiped).byte? (i + 2) j := by
  intro ours theirs x y
  have hhelp : verb ≠ "help" ∧ verb ≠ "--help" ∧ verb ≠ "user" ∧ verb ≠ "monitor" := by
    revert verb
    decide
  obtain ⟨command, hcommand⟩ : ∃ command, sharedCommand? verb 2 = some command := by
    refine Option.isSome_iff_exists.1 ?_
    revert verb
    decide
  have hdrop : ours.drop (2 + 1) = theirs.drop 2 := rfl
  obtain ⟨command', hcommand', hdisplaced⟩ := displaced_of_sharedCommand? hcommand hdrop
  have htheirs : Program.server.read theirs = command.read theirs := by
    have hread : serverCommand (verb :: tail) = .ok command := by
      simp [serverCommand, serverCommand?, hcommand, hhelp]
    simp [Program.read, Program.help?, Program.command, theirs, hread, hhelp, Reading.ofExcept]
  have hours : Program.guests.read ours = command'.read ours := by
    have hread : guestCommand ("server" :: verb :: tail) = .ok command' := by
      simp [guestCommand, hcommand']
    simp [Program.read, Program.help?, Program.command, ours, hread, hhelp.2.1.symm, hname.symm,
      htail, Reading.ofExcept]
  have hx : x = Prod.mk y.1 (y.2.shift 1) := by
    have hafter := hdisplaced host (.start start)
    rw [← htheirs, ← hours] at hafter
    exact hafter
  have hresult : x.1 = y.1 := by rw [hx]
  have heffects : x.2 = y.2.shift 1 := by rw [hx]
  refine ⟨hresult, by rw [heffects]; rfl, by rw [heffects]; rfl, heffects, fun i j => ?_⟩
  rw [heffects]
  exact ArgumentBytes.byte?_wipeAll_shift j rfl

/-- The line `prlctl server problem-report -s --proxy=u:p` comes to what the program for the server
reads from `prlctl problem-report -s --proxy=u:p`, and wipes the same credential one argument
further on. -/
theorem problem_report_lines_agree : ∃ r e,
    (Program.guests.read ["prlctl", "server", "problem-report", "-s", "--proxy=u:p"]).perform
      ⟨fun _ => .error "", fun _ => .error ""⟩ .initial = (.ok r, e) ∧
    r.report.proxy = some ⟨"u:p"⟩ ∧ e.wiped = [⟨4, 8, 11⟩] := by
  have hstream : CommandTable.problemReport.read
      ["prlctl", "problem-report", "-s", "--proxy=u:p"] 2 =
      ⟨[.option ⟨.report .send, "-s", none⟩,
        .option ⟨.proxy, "--proxy", some ⟨"u:p", ⟨3, 8, 11⟩⟩⟩], none⟩ :=
    Table.read_eq_of_streamWithin (n := 3) (by rfl)
  have hserver : ∃ r e,
      (Program.server.read ["prlctl", "problem-report", "-s", "--proxy=u:p"]).perform
        ⟨fun _ => .error "", fun _ => .error ""⟩ .initial = (.ok r, e) ∧
      r.report.proxy = some ⟨"u:p"⟩ ∧ e.wiped = [⟨3, 8, 11⟩] := by
    show ∃ r e, (readProblemReportLine .serverProblemReport CommandTable.problemReport 2 _).perform
      _ _ = (.ok r, e) ∧ _
    unfold readProblemReportLine
    simp only [reduceCtorEq, if_false]
    rw [hstream]
    exact ⟨_, _, rfl, rfl, rfl⟩
  obtain ⟨r, e, hread, hproxy, hwiped⟩ := hserver
  obtain ⟨hresult, -, -, heffects, -⟩ :=
    @Program.shared_line_agrees "prlctl" "problem-report" ["-s", "--proxy=u:p"] (by decide)
      (by decide) (by decide) ⟨fun _ => .error "", fun _ => .error ""⟩ .initial
  rw [hread] at hresult heffects
  have hshifted : (e.shift 1).wiped = [⟨4, 8, 11⟩] := by simp [Effects.shift, hwiped, Slot.shift]
  exact ⟨r, e.shift 1, Prod.ext hresult heffects, hproxy, hshifted⟩

end VmControl
