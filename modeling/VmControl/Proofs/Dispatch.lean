import VmControl.Console
import VmControl.Proofs.Password

/-!
# Passwords that are left over

Carrying out a command uses up one password, the oldest one that waits.  A line brings a password
with each login text that has one and with each file that a password is read from, so one is left
over as soon as it brings two.

## Main definitions

* `Program.passwordCount`: how many passwords a line brings.

## Main statements

* `Grammar.Continues.size_pending_steps`: each option adds the password that it brings.
* `Program.size_pending_of_accepted`: on an accepted line all passwords wait that it brings.
* `Program.dispatch_uses_all_iff`: no password is left over if the line brings one at most.
-/

namespace VmControl

open Options

/-! ## Bringing passwords -/

/-- Whether an option brings a password for the host that the command runs on. -/
def Options.Match.bringsPassword (m : Match OptionId) : Bool :=
  match m.id with
  | .login => ((LoginText.read m.text).bind LoginText.secret?).isSome
  | .readPassword => true
  | _ => false

/-- Whether a login in front of a name does. -/
def PlacedLogin.bringsPassword (l : PlacedLogin) : Bool :=
  l.role = "src" && ((LoginText.read l.text).bind LoginText.secret?).isSome

/-- How many passwords a line brings for the host that its command runs on. -/
def Program.passwordCount (p : Program) (args : List String) : Nat :=
  (p.logins args).countP (·.bringsPassword) + (p.options args).countP (·.bringsPassword)

theorem PendingSecrets.size_push (p : PendingSecrets) (s : Secret) :
    (p.push s).size = p.size + 1 := by
  simp [size]

namespace Login

theorem size_pending_assign (l : Login) (t : LoginText) :
    (l.assign t).pending.size = l.pending.size + t.secret?.isSome.toNat := by
  unfold PendingSecrets.size
  rw [toList_pending_assign, List.length_append]
  cases t.secret? <;> rfl

/-- Logins in front of names bring the passwords that wait first. -/
theorem size_pending_ofTexts (ls : List PlacedLogin) :
    (ofTexts (assignedTexts [] ls)).pending.size = ls.countP (·.bringsPassword) := by
  unfold PendingSecrets.size
  rw [toList_pending_ofTexts, assignedTexts, List.filterMap_nil, List.append_nil,
    List.filterMap_filterMap, List.length_filterMap_eq_countP, List.countP_filter]
  refine List.countP_congr fun l _ => ?_
  simp [PlacedLogin.bringsPassword, and_comm]

end Login

/-! ## Lines -/

section Grammar

variable {α : Type} {g : Grammar α} {record : α → Record}

/-- An option adds the password that it brings. -/
theorem Grammar.Continues.size_pending_step (hg : g.Continues record) (m : Match OptionId) (a : α) :
    (g.step a (.option m)).Yields fun b => (record b).login.pending.size =
      (record a).login.pending.size + m.bringsPassword.toNat := by
  by_cases hm : m.id = .readPassword
  · unfold Grammar.step readCommonOption readPasswordFile
    simp [hm, hg.mapLogin, Match.bringsPassword, Login.push, PendingSecrets.size_push]
  · refine (hg.step hm a).mono fun b hb => ?_
    rw [hb]
    have hbrings : m.bringsPassword = ((loginText? m).bind LoginText.secret?).isSome := by
      unfold Match.bringsPassword loginText?
      cases hid : m.id <;> first | exact absurd hid hm | simp
    rw [hbrings]
    cases loginText? m with
    | none => rfl
    | some t => exact Login.size_pending_assign _ t

/-- **Each option adds the password that it brings**, and nothing else does. -/
theorem Grammar.Continues.size_pending_steps (hg : g.Continues record)
    (events : List (Event OptionId)) (a : α) :
    (g.steps a events).Yields fun b => (record b).login.pending.size =
      (record a).login.pending.size +
        (Stream.options ⟨events, none⟩).countP (·.bringsPassword) := by
  have htake (n : Nat) (ms : List (Match OptionId)) :
      ms.foldl (fun n m => n + m.bringsPassword.toNat) n = n + ms.countP (·.bringsPassword) := by
    induction ms generalizing n with
    | nil => rfl
    | cons m ms ih =>
      rw [List.foldl_cons, ih, List.countP_cons]
      cases m.bringsPassword with
      | false => simp
      | true =>
        simp only [Bool.toNat_true, if_true]
        omega
  rw [← htake]
  exact Grammar.yields_foldl (f := fun a => (record a).login.pending.size)
    (fun index token a => (hg.argument index token a).mono fun _ hb => by rw [hb.1])
    (fun m _ a => hg.size_pending_step m a) a

end Grammar

theorem Command.yields_size_pending (c : Command) (args : List String) :
    (c.read args).Yields fun r => r.login.pending.size =
      (c.logins args).countP (·.bringsPassword) +
        (c.stream args).options.countP (·.bringsPassword) := by
  refine (c.takes_read args (fun r r' => r'.login.pending.size = r.login.pending.size +
    (c.stream args).options.countP (·.bringsPassword)) fun α g record hg a =>
      Grammar.yields_read (hg.size_pending_steps _ a)).mono ?_
  rintro r ⟨r₀, r₁, -, hlogin, hr₁, -, hr⟩
  rw [hr, hr₁, hlogin, Login.size_pending_ofTexts]

namespace Program

/-- **All passwords wait that an accepted line brings.** -/
theorem size_pending_of_accepted {p : Program} {args : List String} {host : Host}
    {start : Preferences} {r : Record} (h : ((p.read args).perform host start).1 = .ok r) :
    r.login.pending.size = p.passwordCount args := by
  obtain ⟨c, hc⟩ := exists_command h
  unfold passwordCount logins options
  rw [read_of_command? hc] at h
  rw [hc]
  exact c.yields_size_pending args host _ r h

end Program

/-! ## Carrying out a command -/

/-- Carrying out a command uses up one password. -/
theorem Record.size_pending_dispatch (r : Record) :
    r.dispatch.2.login.pending.size = r.login.pending.size - 1 := by
  show r.login.pending.take.2.size = r.login.pending.size - 1
  unfold PendingSecrets.take PendingSecrets.size
  cases hpending : r.login.pending.toList <;> simp [hpending]

/-- **When no password is left over.**  Carrying out the command of an accepted line leaves all
passwords but one that the line brings, hence none exactly if it brings one at most: with the login
text of its guest, the login texts of its options, or from files. -/
theorem Program.dispatch_uses_all_iff {p : Program} {args : List String} {host : Host}
    {start : Preferences} {r : Record} (h : ((p.read args).perform host start).1 = .ok r) :
    r.dispatch.2.login.pending.size = p.passwordCount args - 1 ∧
    (r.dispatch.2.login.pending.isEmpty = true ↔ p.passwordCount args ≤ 1) := by
  have hsize : r.dispatch.2.login.pending.size = p.passwordCount args - 1 := by
    rw [r.size_pending_dispatch, size_pending_of_accepted h]
  refine ⟨hsize, ?_⟩
  have hempty : r.dispatch.2.login.pending.isEmpty = true ↔
      r.dispatch.2.login.pending.size = 0 := by
    simp [PendingSecrets.isEmpty, PendingSecrets.size]
  rw [hempty, hsize, Nat.sub_eq_zero_iff_le]

/-- The password of the line `prlctl start vm1 --login u:p1@host1` is used up. -/
theorem single_password_is_used_up : ∃ r,
    ((Program.guests.read ["prlctl", "start", "vm1", "--login", "u:p1@host1"]).perform
      ⟨fun _ => .error "", fun _ => .error ""⟩ .initial).1 = .ok r ∧
    r.login.pending.size = 1 ∧ r.dispatch.2.login.pending.isEmpty = true := by
  have hstream : CommandTable.start.read ["prlctl", "start", "vm1", "--login", "u:p1@host1"] 3 =
      ⟨[.option ⟨.login, "--login", some ⟨"u:p1@host1", ⟨4, 0, 10⟩⟩⟩], none⟩ :=
    Table.read_eq_of_streamWithin (n := 2) (by rfl)
  have hread : ∃ r,
      ((Program.guests.read ["prlctl", "start", "vm1", "--login", "u:p1@host1"]).perform
        ⟨fun _ => .error "", fun _ => .error ""⟩ .initial).1 = .ok r ∧
      r.login.pending.size = 1 := by
    show ∃ r, ((readGuestLine .start CommandTable.start 2 _).perform _ _).1 = .ok r ∧ _
    unfold readGuestLine
    rw [hstream]
    exact ⟨_, rfl, rfl⟩
  have hcount :
      Program.guests.passwordCount ["prlctl", "start", "vm1", "--login", "u:p1@host1"] = 1 := by
    show 0 + (CommandTable.start.read _ 3).options.countP (·.bringsPassword) = 1
    rw [hstream]
    rfl
  obtain ⟨r, hr, hsize⟩ := hread
  exact ⟨r, hr, hsize, (Program.dispatch_uses_all_iff hr).2.2 (Nat.le_of_eq hcount)⟩

/-- Of the line `prlctl start vm1 --login u:p1@host1 --login u:p2@host1` the second password is left
over. -/
theorem second_password_is_left_over : ∃ r,
    ((Program.guests.read
      ["prlctl", "start", "vm1", "--login", "u:p1@host1", "--login", "u:p2@host1"]).perform
      ⟨fun _ => .error "", fun _ => .error ""⟩ .initial).1 = .ok r ∧
    r.dispatch.2.login.pending.toList = [⟨"p2"⟩] := by
  have hstream : CommandTable.start.read
      ["prlctl", "start", "vm1", "--login", "u:p1@host1", "--login", "u:p2@host1"] 3 =
      ⟨[.option ⟨.login, "--login", some ⟨"u:p1@host1", ⟨4, 0, 10⟩⟩⟩,
        .option ⟨.login, "--login", some ⟨"u:p2@host1", ⟨6, 0, 10⟩⟩⟩], none⟩ :=
    Table.read_eq_of_streamWithin (n := 3) (by rfl)
  show ∃ r, ((readGuestLine .start CommandTable.start 2 _).perform _ _).1 = .ok r ∧ _
  unfold readGuestLine
  rw [hstream]
  exact ⟨_, rfl, rfl⟩

end VmControl
