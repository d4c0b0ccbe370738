import VmControl.Proofs.Line.Written

/-!
# What an accepted line leaves alone

An accepted record is the record of which nothing is said, but for what the line is for and the
fields that lines of its command write.  The commands without options of their own write two fields:
the guest and the login.

## Main statements

* `Program.accepted_changes_written`: an accepted line changes the fields of its command only.
-/

namespace VmControl

open Options
open Record (ChangesOnly Field)

/-- The verbs about one guest that say nothing but which guest it is. -/
def bareVerbs : List String :=
  ["change-sid", "reset-uptime", "suspend", "resume", "pause", "unregister", "reset", "restart",
   "installtools", "enter", "console", "status"]

/-- Whether lines of a command write nothing but the guest and the login. -/
def Command.IsBare (c : Command) : Prop :=
  match c with
  | .line .. => ∀ f ∈ c.written [], f ∈ [Field.target, Field.login]
  | _ => False

instance (c : Command) : Decidable c.IsBare :=
  match c with
  | .line kind action table start => inferInstanceAs
    (Decidable (∀ f ∈ (Command.line kind action table start).written [], f ∈ _))
  | .family .. => .isFalse id
  | .monitor => .isFalse id

theorem Command.IsBare.mem_written {c : Command} (h : c.IsBare) {args : List String} {f : Field}
    (hf : f ∈ c.written args) : f ∈ [Field.target, Field.login] := by
  cases c with
  | line kind action table start => exact h f hf
  | family => exact h.elim
  | monitor => exact h.elim

/-- The commands of these verbs are bare. -/
theorem Program.isBare_of_mem_bareVerbs {args : List String} {c : Command} {verb : String}
    (h : Program.guests.command args = .ok c) (hverb : args[1]? = some verb)
    (hmem : verb ∈ bareVerbs) : c.IsBare := by
  have hroster : ∀ l ∈ Program.guests.roster, l.verb ∈ bareVerbs → l.command.IsBare := by
    decide +kernel
  obtain ⟨l, hl, rfl, hword, -⟩ := exists_listing h
  obtain rfl : l.verb = verb := Option.some.inj (hword.symm.trans hverb)
  exact hroster l hl hmem

namespace Record

/-- What a line is for is part of the record, too. -/
theorem ChangesOnly.of_ofAction {fields : List Field} {action : Action} {r : Record}
    (h : ChangesOnly fields (ofAction action) r) : ChangesOnly (.action :: fields) invalid r := by
  have haction : ChangesOnly [.action] invalid (ofAction action) := by
    intro f hf
    cases f <;> first | rfl | exact absurd (List.mem_singleton.2 rfl) hf
  refine (haction.mono fun f hf => ?_).trans (h.mono fun f hf => List.mem_cons_of_mem _ hf)
  exact List.mem_singleton.1 hf ▸ List.mem_cons_self ..

theorem ChangesOnly.eq_of_bare {r : Record} (h : ChangesOnly [.action, .target, .login] invalid r) :
    r = { invalid with action := r.action, target := r.target, login := r.login } := by
  refine ext_get fun f => ?_
  cases f with
  | action => rfl
  | target => rfl
  | login => rfl
  | _ => exact h _ (by simp)

end Record

/-- **The frame of a line.**  An accepted record differs from the one of which nothing is said in
what it is for and in the fields that lines of its command write, and in nothing else. -/
theorem Program.accepted_changes_written {p : Program} {args : List String} {host : Host}
    {start : Preferences} {r : Record} (h : ((p.read args).perform host start).1 = .ok r) :
    (∃ c, p.command? args = some c ∧
      ∀ f, f ≠ .action → f ∉ c.written args → r.get f = Record.invalid.get f) ∧
    (p = .guests → (∃ verb ∈ bareVerbs, args[1]? = some verb) →
      r = { Record.invalid with action := r.action, target := r.target, login := r.login }) := by
  obtain ⟨c, hc⟩ := exists_command h
  have hcommand : p.command args = .ok c := (command?_eq_some.1 hc).2
  rw [read_of_command? hc] at h
  have hframe : ChangesOnly (.action :: c.written args) .invalid r :=
    ((c.ends_read (isServed_of_command hcommand) args).yields host _ r h).of_ofAction
  refine ⟨⟨c, hc, fun f haction hf => hframe f ?_⟩, ?_⟩
  · exact fun hmem => (List.mem_cons.1 hmem).elim haction hf
  · rintro rfl ⟨verb, hmem, hverb⟩
    have hbare : c.IsBare := isBare_of_mem_bareVerbs hcommand hverb hmem
    refine (hframe.mono fun f hf => ?_).eq_of_bare
    rcases List.mem_cons.1 hf with rfl | hf
    · exact List.mem_cons_self ..
    · exact List.mem_cons_of_mem _ (hbare.mem_written hf)

/-- The line `prlctl suspend vm1 --login u@host1` says which guest it is and where, and no more. -/
theorem suspended_guest_is_bare : ∃ r,
    ((Program.guests.read ["prlctl", "suspend", "vm1", "--login", "u@host1"]).perform
      ⟨fun _ => .error "", fun _ => .error ""⟩ .initial).1 = .ok r ∧
    r = { Record.invalid with action := r.action, target := r.target, login := r.login } := by
  have hstream : CommandTable.plain.read ["prlctl", "suspend", "vm1", "--login", "u@host1"] 3 =
      ⟨[.option ⟨.login, "--login", some ⟨"u@host1", ⟨4, 0, 7⟩⟩⟩], none⟩ :=
    Table.read_eq_of_streamWithin (n := 2) (by rfl)
  have hread : ∃ r, ((Program.guests.read
      ["prlctl", "suspend", "vm1", "--login", "u@host1"]).perform
      ⟨fun _ => .error "", fun _ => .error ""⟩ .initial).1 = .ok r := by
    show ∃ r, ((readGuestLine .suspend CommandTable.plain 2 _).perform _ _).1 = .ok r
    unfold readGuestLine
    rw [hstream]
    exact ⟨_, rfl⟩
  obtain ⟨r, hr⟩ := hread
  exact ⟨r, hr, (Program.accepted_changes_written hr).2 rfl ⟨"suspend", by decide, rfl⟩⟩

end VmControl
