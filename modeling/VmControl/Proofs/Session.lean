import Mathlib.Data.List.Induction
import VmControl.Proofs.Line.Steady
import VmControl.Proofs.Line.Visit

/-!
# Sessions

Lines that are read one after the other share their preferences: each starts from those that the one
before left.  That is all they share.  What a line comes to, and what it tells the user, is what it
would be if it were the first one; and what it leaves is told by its own options.

## Main definitions

* `session`: what reading lines one after the other comes to.

## Main statements

* `Call.perform_independent`: what a line comes to does not depend on where it starts.
* `Call.preferences_of_accepted`: an accepted line leaves what its own options say.
* `session_is_independent`: lines do not influence each other.
-/

namespace VmControl

open Numeral Options

/-- A line for a program. -/
structure Call where
  /-- The program. -/
  program : Program
  /-- The line. -/
  args : List String

/-- A line of a session and what reading it came to. -/
structure Exchange where
  /-- The line. -/
  call : Call
  /-- The preferences that it started from. -/
  before : Preferences
  /-- What it came to. -/
  result : Except CommandError Record
  /-- What was done. -/
  effects : Effects

/-- Reads a line. -/
def Call.perform (c : Call) (host : Host) (start : Preferences) :
    Except CommandError Record × Effects :=
  (c.program.read c.args).perform host start

/-- Reads lines one after the other. -/
def session (host : Host) (start : Preferences) : List Call → List Exchange
  | [] => []
  | c :: cs =>
    let (result, effects) := c.perform host start
    ⟨c, start, result, effects⟩ :: session host effects.preferences cs

theorem session_cons (host : Host) (start : Preferences) (c : Call) (cs : List Call) :
    session host start (c :: cs) =
      ⟨c, start, (c.perform host start).1, (c.perform host start).2⟩ ::
        session host (c.perform host start).2.preferences cs :=
  rfl

/-! ## What options make of the preferences -/

namespace Preferences

/-- The last option of a kind on a line. -/
def last? (ms : List (Match OptionId)) (id : OptionId) : Option (Match OptionId) :=
  (ms.filter (·.id = id)).getLast?

theorem last?_concat (ms : List (Match OptionId)) (m : Match OptionId) (id : OptionId) :
    last? (ms ++ [m]) id = if m.id = id then some m else last? ms id := by
  unfold last?
  rw [List.filter_append]
  by_cases h : m.id = id <;> simp [h]

/-- The preferences after a line: the last options count, and a mark that is set once stays. -/
def after (p : Preferences) (ms : List (Match OptionId)) : Preferences where
  verbosity := match last? ms .verbose with
    | some m => leading m.text.toList
    | none => p.verbosity
  compat := p.compat || ms.any (·.id = .compat)
  timeout := match last? ms .timeout with
    | some m => some (leading m.text.toList).toNat
    | none => p.timeout

/-- Options that are taken one after the other leave what the last ones say. -/
theorem takeAll_eq_after (p : Preferences) (ms : List (Match OptionId)) :
    p.takeAll ms = p.after ms := by
  induction ms using List.reverseRecOn with
  | nil => simp [takeAll, after, last?]
  | append_singleton ms m ih =>
    have hstep : p.takeAll (ms ++ [m]) = (p.takeAll ms).take m := by simp [takeAll]
    rw [hstep, ih]
    unfold after
    rw [last?_concat, last?_concat, List.any_append]
    cases hid : m.id <;> simp [take, hid]

end Preferences

/-! ## One line -/

/-- Notes that add nothing to a text may be left out. -/
theorem join_map_filter {f : Note → Bool} {g : Note → String} (ns : List Note)
    (h : ∀ n, f n = false → g n = "") :
    String.join ((ns.filter f).map g) = String.join (ns.map g) := by
  induction ns with
  | nil => rfl
  | cons n ns ih =>
    cases hf : f n with
    | true =>
      rw [List.filter_cons_of_pos hf, List.map_cons, List.map_cons, String.join_cons,
        String.join_cons, ih]
    | false =>
      rw [List.filter_cons_of_neg (by simp [hf]), List.map_cons, String.join_cons, h n hf, ih,
        String.empty_append]

namespace Call

variable {c : Call} {host : Host} {p q : Preferences}

/-- **A line does not depend on where it starts**: it comes to the same and tells the user the same.
It logs the same if it ends with the same opinion on whether errors alone are asked for. -/
theorem perform_independent (c : Call) (host : Host) (p q : Preferences) :
    (c.perform host p).1 = (c.perform host q).1 ∧
    (c.perform host p).2.outputText = (c.perform host q).2.outputText ∧
    (c.perform host p).2.complaintText = (c.perform host q).2.complaintText ∧
    ((0 ≤ (c.perform host p).2.preferences.verbosity ↔
      0 ≤ (c.perform host q).2.preferences.verbosity) →
      (c.perform host p).2.errorText = (c.perform host q).2.errorText) := by
  obtain ⟨out, d, hd⟩ := c.program.uniform_read c.args host
  have hperform (p : Preferences) : c.perform host p = (out, (Effects.start p).extend d) := hd _
  have hwarning (p : Preferences) {n : Note} (h : n.isWritten p = false) : n.isWarning = true := by
    cases n <;> first | rfl | simp [Note.isWritten, Note.isWarning] at h
  rw [hperform p, hperform q]
  refine ⟨rfl, ?_, ?_, fun hsign => ?_⟩
  · have htext (p : Preferences) : ((Effects.start p).extend d).outputText =
        String.join (d.notes.map Note.outputText) :=
      join_map_filter d.notes fun n hn => by
        cases n <;> first | rfl | cases hwarning _ hn
    rw [htext p, htext q]
  · have htext (p : Preferences) : ((Effects.start p).extend d).complaintText =
        String.join (d.notes.map Note.complaintText) :=
      join_map_filter d.notes fun n hn => by
        cases n <;> first | rfl | cases hwarning _ hn
    rw [htext p, htext q]
  · have hnotes : ((Effects.start p).extend d).notes = ((Effects.start q).extend d).notes := by
      simp only [Effects.extend, Note.isWritten] at hsign ⊢
      simp only [hsign]
      rfl
    unfold Effects.errorText
    rw [hnotes]

/-- **An accepted line leaves what its own options say** of the preferences. -/
theorem preferences_of_accepted {r : Record} (h : (c.perform host p).1 = .ok r) :
    (c.perform host p).2.preferences = p.after (c.program.options c.args) := by
  obtain ⟨out, d, hd⟩ := c.program.uniform_read c.args host
  obtain ⟨ms, ls, -, -, hvisit, hall⟩ :=
    c.program.visits_read c.args host (.start p)
  have hperform : c.perform host p = (out, (Effects.start p).extend d) := hd _
  obtain ⟨rfl, -⟩ := hall r h
  have hoptions : d.options = c.program.options c.args := by
    have := hvisit.options
    rw [hd] at this
    exact this
  rw [hperform, ← Preferences.takeAll_eq_after, ← hoptions]
  rfl

end Call

/-! ## Sessions -/

/-- What was said of one line holds of each line of a session. -/
theorem forall_mem_session {P : Exchange → Prop} {host : Host}
    (h : ∀ (c : Call) (p : Preferences),
      P ⟨c, p, (c.perform host p).1, (c.perform host p).2⟩) (start : Preferences)
    (calls : List Call) : ∀ x ∈ session host start calls, P x := by
  induction calls generalizing start with
  | nil => exact fun x hx => absurd hx List.not_mem_nil
  | cons c cs ih =>
    rw [session_cons, List.forall_mem_cons]
    exact ⟨h c start, ih _⟩

/-- Each line of a session is read. -/
theorem map_call_session (host : Host) (start : Preferences) (calls : List Call) :
    (session host start calls).map Exchange.call = calls := by
  induction calls generalizing start with
  | nil => rfl
  | cons c cs ih => rw [session_cons, List.map_cons, ih]

/-- **Lines do not influence each other.**  Whatever lines are read one after the other, each comes
to the record or the error that it comes to alone, and tells the user the same.  What is logged is
the same, too, unless they differ on whether errors alone are asked for.  An accepted line leaves
the verbosity and the time limit that the last of its options say, or else those that it found, and
the old form of output if it was asked for before or on the line. -/
theorem session_is_independent (host : Host) (start : Preferences) (calls : List Call) :
    (session host start calls).map Exchange.call = calls ∧
    ∀ x ∈ session host start calls,
      (x.result = (x.call.perform host .initial).1 ∧
        x.effects.outputText = (x.call.perform host .initial).2.outputText ∧
        x.effects.complaintText = (x.call.perform host .initial).2.complaintText ∧
        ((0 ≤ x.effects.preferences.verbosity ↔
          0 ≤ (x.call.perform host .initial).2.preferences.verbosity) →
          x.effects.errorText = (x.call.perform host .initial).2.errorText)) ∧
      ∀ r, x.result = .ok r →
        x.effects.preferences = x.before.after (x.call.program.options x.call.args) :=
  ⟨map_call_session host start calls,
    forall_mem_session (fun c p =>
      ⟨c.perform_independent host p .initial, fun _ hr => c.preferences_of_accepted hr⟩)
      start calls⟩

/-- Of two lines, the first one asks for a verbosity and the old form of output, and the second one
for a time limit: the second one leaves all three. -/
theorem session_of_two_lines :
    (session ⟨fun _ => .error "", fun _ => .error ""⟩ .initial
      [⟨.guests, ["prlctl", "suspend", "vm1", "--verbose", "3", "--compat"]⟩,
        ⟨.guests, ["prlctl", "suspend", "vm2", "--timeout", "5"]⟩]).map
      (·.effects.preferences) = [⟨3, true, none⟩, ⟨3, true, some 5⟩] := by
  have hfirst : CommandTable.plain.read
      ["prlctl", "suspend", "vm1", "--verbose", "3", "--compat"] 3 =
      ⟨[.option ⟨.verbose, "--verbose", some ⟨"3", ⟨4, 0, 1⟩⟩⟩,
        .option ⟨.compat, "--compat", none⟩], none⟩ :=
    Table.read_eq_of_streamWithin (n := 3) (by rfl)
  have hsecond : CommandTable.plain.read ["prlctl", "suspend", "vm2", "--timeout", "5"] 3 =
      ⟨[.option ⟨.timeout, "--timeout", some ⟨"5", ⟨4, 0, 1⟩⟩⟩], none⟩ :=
    Table.read_eq_of_streamWithin (n := 2) (by rfl)
  -- Both lines are accepted when they are read alone.
  have hread₁ : ∃ r, ((⟨.guests, ["prlctl", "suspend", "vm1", "--verbose", "3", "--compat"]⟩ :
      Call).perform ⟨fun _ => .error "", fun _ => .error ""⟩ .initial).1 = .ok r := by
    show ∃ r, ((readGuestLine .suspend CommandTable.plain 2 _).perform _ _).1 = .ok r
    unfold readGuestLine
    rw [hfirst]
    exact ⟨_, rfl⟩
  have hread₂ : ∃ r, ((⟨.guests, ["prlctl", "suspend", "vm2", "--timeout", "5"]⟩ :
      Call).perform ⟨fun _ => .error "", fun _ => .error ""⟩ .initial).1 = .ok r := by
    show ∃ r, ((readGuestLine .suspend CommandTable.plain 2 _).perform _ _).1 = .ok r
    unfold readGuestLine
    rw [hsecond]
    exact ⟨_, rfl⟩
  obtain ⟨r₁, hr₁⟩ := hread₁
  obtain ⟨r₂, hr₂⟩ := hread₂
  have hoptions₁ : Program.options .guests
      ["prlctl", "suspend", "vm1", "--verbose", "3", "--compat"] =
      [⟨.verbose, "--verbose", some ⟨"3", ⟨4, 0, 1⟩⟩⟩, ⟨.compat, "--compat", none⟩] := by
    show (CommandTable.plain.read _ 3).options = _
    rw [hfirst]
    rfl
  have hoptions₂ : Program.options .guests ["prlctl", "suspend", "vm2", "--timeout", "5"] =
      [⟨.timeout, "--timeout", some ⟨"5", ⟨4, 0, 1⟩⟩⟩] := by
    show (CommandTable.plain.read _ 3).options = _
    rw [hsecond]
    rfl
  obtain ⟨-, hall⟩ := session_is_independent ⟨fun _ => .error "", fun _ => .error ""⟩ .initial
      [⟨.guests, ["prlctl", "suspend", "vm1", "--verbose", "3", "--compat"]⟩,
        ⟨.guests, ["prlctl", "suspend", "vm2", "--timeout", "5"]⟩]
  rw [session_cons, session_cons, List.forall_mem_cons, List.forall_mem_cons] at hall
  obtain ⟨⟨-, hleft₁⟩, ⟨⟨hsame₂, -⟩, hleft₂⟩, -⟩ := hall
  have hprefs₁ := hleft₁ r₁ hr₁
  have hprefs₂ := hleft₂ r₂ (hsame₂.trans hr₂)
  simp only [hoptions₁, hoptions₂] at hprefs₁ hprefs₂
  rw [session_cons, session_cons, List.map_cons, List.map_cons]
  simp only [hprefs₁] at hprefs₂ ⊢
  rw [hprefs₂]
  rfl

end VmControl
