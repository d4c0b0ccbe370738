import VmControl.Proofs.Session

/-!
# Preferences after a line that is turned down

The preferences change while a line is read, as soon as an option for them is come to, and nothing
puts them back.  A line that is turned down thus leaves them alone exactly if the options that it
came to say what is so already, and wherever it starts exactly if none of these options is for the
preferences.

## Main definitions

* `OptionId.isPreference`: the options for the preferences.

## Main statements

* `Preferences.after_eq_self_iff`: which options leave given preferences alone.
* `Preferences.forall_after_eq_self_iff`: which options leave all preferences alone.
* `Program.refused_line_keeps_preferences_iff`: which lines that are turned down do.
-/

namespace VmControl

open Numeral Options

/-- Whether an option is for the preferences. -/
def OptionId.isPreference : OptionId → Bool
  | .verbose => true
  | .compat => true
  | .timeout => true
  | _ => false

theorem OptionId.isPreference_iff {id : OptionId} :
    id.isPreference = true ↔ id = .verbose ∨ id = .compat ∨ id = .timeout := by
  cases id <;> simp [isPreference]

namespace Preferences

/-! ## Options that change nothing -/

variable {ms : List (Match OptionId)}

theorem last?_eq_none_iff {id : OptionId} : last? ms id = none ↔ ∀ m ∈ ms, m.id ≠ id := by
  simp [last?]

/-- Options leave the preferences alone exactly if the last ones say what is so already. -/
theorem after_eq_self_iff (p : Preferences) : p.after ms = p ↔
    (∀ m, last? ms .verbose = some m → leading m.text.toList = p.verbosity) ∧
    ((∃ m ∈ ms, m.id = .compat) → p.compat = true) ∧
    ∀ m, last? ms .timeout = some m → some (leading m.text.toList).toNat = p.timeout := by
  obtain ⟨verbosity, compat, timeout⟩ := p
  have hcompat : (compat || ms.any (·.id = .compat)) = compat ↔
      ((∃ m ∈ ms, m.id = .compat) → compat = true) := by
    cases compat <;> simp
  simp only [after, mk.injEq, hcompat]
  cases last? ms .verbose <;> cases last? ms .timeout <;> simp

/-- Options leave all preferences alone exactly if none of them is for the preferences. -/
theorem forall_after_eq_self_iff :
    (∀ p : Preferences, p.after ms = p) ↔ ∀ m ∈ ms, m.id.isPreference = false := by
  constructor
  · intro h m hm
    rw [Bool.eq_false_iff, Ne, OptionId.isPreference_iff]
    have hmentioned {id : OptionId} (hid : m.id = id) : ∃ m', last? ms id = some m' :=
      Option.ne_none_iff_exists'.1 fun hnone => last?_eq_none_iff.1 hnone m hm hid
    have hsaid (p : Preferences) := (after_eq_self_iff p).1 (h p)
    -- Preferences that differ from what the last option says are not left alone.
    rintro (hid | hid | hid)
    · obtain ⟨m', hlast⟩ := hmentioned hid
      have hverbosity := (hsaid ⟨leading m'.text.toList + 1, false, none⟩).1 m' hlast
      exact Int.ne_of_lt (Int.lt_succ _) hverbosity
    · cases (hsaid .initial).2.1 ⟨m, hm, hid⟩
    · obtain ⟨m', hlast⟩ := hmentioned hid
      cases (hsaid .initial).2.2 m' hlast
  · intro h p
    have hother {id : OptionId} (hid : id.isPreference = true) : ∀ m ∈ ms, m.id ≠ id :=
      fun m hm heq => Bool.false_ne_true ((h m hm).symm.trans (heq ▸ hid))
    refine (after_eq_self_iff p).2 ⟨?_, fun ⟨m, hm, hid⟩ => absurd hid (hother rfl m hm), ?_⟩
    · rw [last?_eq_none_iff.2 (hother rfl)]
      intro m hlast
      cases hlast
    · rw [last?_eq_none_iff.2 (hother rfl)]
      intro m hlast
      cases hlast

end Preferences

/-! ## Whole lines -/

namespace Program

/-- **A line leaves what the options that it came to say**, whatever becomes of it.  These are the
first ones of the line, and the same ones wherever it starts. -/
theorem exists_options_perform (p : Program) (args : List String) (host : Host) :
    ∃ out ms, ms <+: p.options args ∧ ∀ start,
      ((p.read args).perform host start).1 = out ∧
      ((p.read args).perform host start).2.options = ms ∧
      ((p.read args).perform host start).2.preferences = start.after ms := by
  obtain ⟨out, d, hd⟩ := p.uniform_read args host
  have hperform (start : Preferences) :
      (p.read args).perform host start = (out, (Effects.start start).extend d) := hd _
  obtain ⟨ms, ls, hinit, -, hvisit, -⟩ := p.visits_read args host (.start .initial)
  have hoptions : d.options = ms := by
    have hentered := hvisit.options
    rw [hd] at hentered
    exact hentered
  refine ⟨out, ms, hinit, fun start => ?_⟩
  rw [hperform, ← hoptions, ← Preferences.takeAll_eq_after]
  exact ⟨rfl, rfl, rfl⟩

/-- **Which lines that are turned down leave the preferences alone.**  A line that is turned down
leaves what the options say that it came to before: the last verbosity and the last time limit, and
the old form of output if it was asked for.  So it leaves the preferences alone that it starts from
exactly if they are so already.  Wherever it starts it is turned down for the same reason, and it
leaves the preferences alone from everywhere exactly if none of these options is for them. -/
theorem refused_line_keeps_preferences_iff {p : Program} {args : List String} {host : Host}
    {start : Preferences} {u : CommandError}
    (h : ((p.read args).perform host start).1 = .error u) :
    let out := (p.read args).perform host start
    out.2.options <+: p.options args ∧
    out.2.preferences = start.after out.2.options ∧
    (out.2.preferences = start ↔
      (∀ m, Preferences.last? out.2.options .verbose = some m →
        leading m.text.toList = start.verbosity) ∧
      ((∃ m ∈ out.2.options, m.id = .compat) → start.compat = true) ∧
      ∀ m, Preferences.last? out.2.options .timeout = some m →
        some (leading m.text.toList).toNat = start.timeout) ∧
    (∀ q, ((p.read args).perform host q).1 = .error u) ∧
    ((∀ q, ((p.read args).perform host q).2.preferences = q) ↔
      ∀ m ∈ out.2.options, m.id.isPreference = false) := by
  obtain ⟨result, ms, hinit, hperform⟩ := p.exists_options_perform args host
  intro out
  obtain ⟨hresult, hoptions, hpreferences⟩ := hperform start
  have hrefused (q : Preferences) : ((p.read args).perform host q).1 = .error u := by
    rw [(hperform q).1, ← hresult, h]
  have heverywhere : (∀ q, ((p.read args).perform host q).2.preferences = q) ↔
      ∀ q : Preferences, q.after ms = q :=
    forall_congr' fun q => by rw [(hperform q).2.2]
  change out.2.options = ms at hoptions
  change out.2.preferences = start.after ms at hpreferences
  rw [hoptions, hpreferences]
  exact ⟨hinit, rfl, Preferences.after_eq_self_iff start, hrefused,
    heverywhere.trans Preferences.forall_after_eq_self_iff⟩

end Program

/-- A line that is turned down before it comes to an option for the preferences leaves them
alone. -/
theorem early_refusal_keeps_preferences : ∃ u,
    ((Program.guests.read ["prlctl", "start", "vm1", "--bogus", "--compat"]).perform
      ⟨fun _ => .error "", fun _ => .error ""⟩ .initial).1 = .error u ∧
    ∀ q, ((Program.guests.read ["prlctl", "start", "vm1", "--bogus", "--compat"]).perform
      ⟨fun _ => .error "", fun _ => .error ""⟩ q).2.preferences = q := by
  have hstream : CommandTable.start.read ["prlctl", "start", "vm1", "--bogus", "--compat"] 3 =
      ⟨[.unknown 3 "--bogus", .option ⟨.compat, "--compat", none⟩], none⟩ :=
    Table.read_eq_of_streamWithin (n := 3) (by rfl)
  have hread : ∃ u,
      ((Program.guests.read ["prlctl", "start", "vm1", "--bogus", "--compat"]).perform
        ⟨fun _ => .error "", fun _ => .error ""⟩ .initial).1 = .error u ∧
      ((Program.guests.read ["prlctl", "start", "vm1", "--bogus", "--compat"]).perform
        ⟨fun _ => .error "", fun _ => .error ""⟩ .initial).2.options = [] := by
    show ∃ u, ((readGuestLine .start CommandTable.start 2 _).perform _ _).1 = .error u ∧
      ((readGuestLine .start CommandTable.start 2 _).perform _ _).2.options = []
    unfold readGuestLine
    rw [hstream]
    exact ⟨_, rfl, rfl⟩
  obtain ⟨u, hu, hoptions⟩ := hread
  refine ⟨u, hu, (Program.refused_line_keeps_preferences_iff hu).2.2.2.2.2 ?_⟩
  rw [hoptions]
  exact fun m hm => absurd hm List.not_mem_nil

/-- The line `prlctl start vm1 --compat --bogus` is turned down, and output is written in the old
form after it. -/
theorem refused_line_leaves_compat : ∃ u,
    ((Program.guests.read ["prlctl", "start", "vm1", "--compat", "--bogus"]).perform
      ⟨fun _ => .error "", fun _ => .error ""⟩ .initial).1 = .error u ∧
    Preferences.initial.compat = false ∧
    ((Program.guests.read ["prlctl", "start", "vm1", "--compat", "--bogus"]).perform
      ⟨fun _ => .error "", fun _ => .error ""⟩ .initial).2.preferences.compat = true := by
  have hstream : CommandTable.start.read ["prlctl", "start", "vm1", "--compat", "--bogus"] 3 =
      ⟨[.option ⟨.compat, "--compat", none⟩, .unknown 4 "--bogus"], none⟩ :=
    Table.read_eq_of_streamWithin (n := 3) (by rfl)
  show ∃ u, ((readGuestLine .start CommandTable.start 2 _).perform _ _).1 = .error u ∧ _ ∧
    ((readGuestLine .start CommandTable.start 2 _).perform _ _).2.preferences.compat = true
  unfold readGuestLine
  rw [hstream]
  exact ⟨_, rfl, rfl, rfl⟩

end VmControl
