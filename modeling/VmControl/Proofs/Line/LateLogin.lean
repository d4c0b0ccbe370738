import VmControl.Proofs.Line.Continuation
import VmControl.Proofs.Password
import VmControl.Proofs.Redaction

/-!
# Logins at the end of a line

Every command knows the option for a login, and the last login counts.  So one that is added to an
accepted line says where the line is carried out, and is wiped, unless the line is complete as it
stands: then nobody looks at it, and the line is carried out on this host with the password in
plain sight.

## Main definitions

* `Login.IsAt`: a login is at the host of a login text.

## Main statements

* `Grammar.Continues.yields_last_login`: the last login counts.
* `Program.late_login_counts_iff`: a login is lost on lines that are complete, and on no others.
-/

namespace VmControl

open Options

/-! ## The option for a login -/

instance (c : Command) : Decidable (c = .monitor) :=
  match c with
  | .line .. => .isFalse nofun
  | .family .. => .isFalse nofun
  | .monitor => .isTrue rfl

/-- Every command but the one that watches the server knows logins. -/
theorem Program.exists_login {p : Program} {args : List String} {c : Command}
    (h : p.command args = .ok c) (hmonitor : c ≠ .monitor) :
    ∃ e, c.table.findLong? "login" = some e ∧ e.id = .login ∧ e.takesValue = true := by
  have hroster : ∀ l ∈ p.roster, l.command = .monitor ∨
      (l.command.table.findLong? "login").any (fun e => e.id = .login ∧ e.takesValue = true) := by
    cases p <;> decide +kernel
  obtain ⟨l, hl, rfl, -, -⟩ := exists_listing h
  simpa using (Option.any_eq_true _ _).1 ((hroster l hl).resolve_left hmonitor)

/-- The option for a login with its text, as the two arguments from an index on. -/
def loginMatch (index : Nat) (text : String) : Match OptionId :=
  ⟨.login, "--login", some (.whole (index + 1) text)⟩

theorem pieces_login {t : CommandTable} {e : Entry OptionId} (he : t.findLong? "login" = some e)
    (hid : e.id = .login) (hvalue : e.takesValue = true) (index : Nat) (text : String) :
    Pieces t index [.option (loginMatch index text)] ["--login", text] := by
  have hmatch : Match.long e "login" (some (.whole (index + 1) text)) = loginMatch index text := by
    rw [Match.long, hid]
    rfl
  rw [← hmatch]
  exact (Piece.longSeparate text he hvalue (by decide) (by decide)).pieces

/-! ## The last login -/

/-- Whether a login is at the host of a login text. -/
def Login.IsAt (l : Login) (t : LoginText) : Prop :=
  l.user = t.user ∧ l.server = t.server ∧ l.port = t.port

theorem Login.isAt_assign (l : Login) (t : LoginText) : (l.assign t).IsAt t := by
  unfold Login.assign
  cases t.password <;> exact ⟨rfl, rfl, rfl⟩

section Grammar

variable {α : Type} {g : Grammar α} {record : α → Record}

/-- **The last login counts**, whatever comes before it. -/
theorem Grammar.Continues.yields_last_login (hg : g.Continues record) {m : Match OptionId}
    {t : LoginText} (hid : m.id = .login) (ht : LoginText.read m.text = some t)
    (events : List (Event OptionId)) (a : α) :
    (g.read a ⟨events ++ [.option m], none⟩).Yields fun b => (record b).login.IsAt t := by
  rw [Grammar.read_mk, Grammar.steps_append]
  refine Reading.yields_bind fun b => ?_
  show (g.step b (.option m) >>= pure).Yields _
  rw [bind_pure]
  refine (hg.step (by rw [hid]; decide) b).mono fun b' hb' => ?_
  have hlogin : (record b').login = (record b).login.assign t := by
    rw [hb', loginText?, if_pos hid, ht]
    rfl
  rw [hlogin]
  exact Login.isAt_assign ..

end Grammar

/-! ## Whole lines -/

namespace Program

variable {p : Program} {args : List String} {c : Command} {host : Host} {start : Preferences}
  {r r' : Record} {text : String} {t : LoginText}

/-- A line that ends in a login is at its host and wipes its text, unless it is complete without. -/
theorem late_login_counts (hc : p.command? args = some c)
    (haccepted : ((p.read args).perform host start).1 = .ok r) (hexec : args[1]? ≠ some "exec")
    (hinternal : args[1]? ≠ some "internal") (ht : LoginText.read text = some t)
    (hopen : c.isClosed args = false)
    (h : ((p.read (args ++ ["--login", text])).perform host start).1 = .ok r') :
    r'.login.IsAt t ∧ ⟨args.length + 1, 0, Text.byteLength text.toList⟩ ∈
      ((p.read (args ++ ["--login", text])).perform host start).2.wiped := by
  have hc' := command?_of_append hc h
  by_cases hmonitor : c = .monitor
  · subst hmonitor
    rw [read_of_command? hc] at haccepted
    rw [read_of_command? hc'] at h
    cases eq_nil_of_readMonitorLine haccepted h
  obtain ⟨e, he, hid, hvalue⟩ := exists_login (command?_eq_some.1 hc).2 hmonitor
  obtain ⟨-, hstream⟩ := stream_append hc haccepted hexec hinternal hopen hmonitor (by decide)
    (pieces_login he hid hvalue args.length text)
  constructor
  · have hlast := (c.takes_read (args ++ ["--login", text]) (fun _ r' => r'.login.IsAt t)
      fun α g record hg a => by
        rw [hstream]
        exact hg.yields_last_login (m := loginMatch args.length text) rfl ht _ a)
    rw [read_of_command? hc'] at h
    obtain ⟨-, r₁, -, -, hat, -, hlogin⟩ := hlast host (.start start) r' h
    rw [hlogin]
    exact hat
  · obtain ⟨ms, ls, -, -, hvisit, hall⟩ :=
      p.visits_read (args ++ ["--login", text]) host (.start start)
    obtain ⟨rfl, -⟩ := hall r' h
    refine (hvisit.wiped _).2 (.inr (List.mem_append_left _ (List.mem_filterMap.2
      ⟨loginMatch args.length text, ?_, rfl⟩)))
    unfold options
    rw [hc']
    dsimp only
    rw [hstream, Stream.mem_options]
    exact List.mem_append_right _ (List.mem_singleton_self _)

/-- **A late login is lost on lines that are complete as they stand, and on no others.**  If a
login is added to an accepted line that does not end in a command, the longer line is turned down,
or is for the host of that login and wipes all of its text, exactly if the line is not complete
without it. -/
theorem late_login_counts_iff (hc : p.command? args = some c)
    (haccepted : ((p.read args).perform host start).1 = .ok r) (hexec : args[1]? ≠ some "exec")
    (hinternal : args[1]? ≠ some "internal") (ht : LoginText.read text = some t)
    (hhelp : text ≠ "--help") :
    let line := args ++ ["--login", text]
    let out := (p.read line).perform host start
    (∀ r', out.1 = .ok r' → r'.login.IsAt t ∧
      ∀ j v, ((ArgumentBytes.ofArgs line).wipeAll out.2.wiped).byte? (args.length + 1) j = some v →
        v = 0) ↔ c.isClosed args = false := by
  intro line out
  constructor
  · intro hcounts
    refine Bool.eq_false_iff.2 fun hclosed => ?_
    have hc' : p.command? line = some c :=
      command?_append hc fun _ => by simpa using fun h : "--help" = text => hhelp h.symm
    rw [read_of_command? hc] at haccepted
    obtain ⟨r', hr', hlogin⟩ := Command.exists_of_isClosed hclosed haccepted ["--login", text]
    have hline : out.1 = .ok r' := by
      rw [← hr']
      exact congrArg (fun x => (Reading.after x host (.start start)).1) (read_of_command? hc')
    obtain ⟨⟨-, hserver, -⟩, -⟩ := hcounts r' hline
    rw [hlogin] at hserver
    exact LoginText.server_ne_empty ht hserver.symm
  · intro hopen r' hr'
    obtain ⟨hat, hwiped⟩ := late_login_counts hc haccepted hexec hinternal ht hopen hr'
    have htext : (args ++ ["--login", text])[args.length + 1]? = some text := by simp
    exact ⟨hat, fun j v hv => ArgumentBytes.eq_zero_of_byte?_wipeAll htext hwiped hv⟩

end Program

/-- A login that is added to `prlctl start vm1` is where the guest is started, and is wiped. -/
theorem login_after_start_counts : ∃ r r',
    ((Program.guests.read ["prlctl", "start", "vm1"]).perform
      ⟨fun _ => .error "", fun _ => .error ""⟩ .initial).1 = .ok r ∧
    let out := (Program.guests.read ["prlctl", "start", "vm1", "--login", "u:p1@host1"]).perform
      ⟨fun _ => .error "", fun _ => .error ""⟩ .initial
    out.1 = .ok r' ∧
      (r'.login.user = "u" ∧ r'.login.server = "host1" ∧ r'.login.port = none) ∧
      ∀ j v, ((ArgumentBytes.ofArgs ["prlctl", "start", "vm1", "--login", "u:p1@host1"]).wipeAll
        out.2.wiped).byte? 4 j = some v → v = 0 := by
  have hstream : CommandTable.start.read ["prlctl", "start", "vm1"] 3 = ∅ :=
    Table.read_eq_of_streamWithin (n := 1) (by rfl)
  have hread : ∃ r, ((Program.guests.read ["prlctl", "start", "vm1"]).perform
      ⟨fun _ => .error "", fun _ => .error ""⟩ .initial).1 = .ok r := by
    show ∃ r, ((readGuestLine .start CommandTable.start 2 _).perform _ _).1 = .ok r
    unfold readGuestLine
    rw [hstream]
    exact ⟨_, rfl⟩
  have hstream' : CommandTable.start.read ["prlctl", "start", "vm1", "--login", "u:p1@host1"] 3 =
      ⟨[.option ⟨.login, "--login", some ⟨"u:p1@host1", ⟨4, 0, 10⟩⟩⟩], none⟩ :=
    Table.read_eq_of_streamWithin (n := 2) (by rfl)
  have hread' : ∃ r,
      ((Program.guests.read ["prlctl", "start", "vm1", "--login", "u:p1@host1"]).perform
        ⟨fun _ => .error "", fun _ => .error ""⟩ .initial).1 = .ok r := by
    show ∃ r, ((readGuestLine .start CommandTable.start 2 _).perform _ _).1 = .ok r
    unfold readGuestLine
    rw [hstream']
    exact ⟨_, rfl⟩
  obtain ⟨r, hr⟩ := hread
  obtain ⟨r', hr'⟩ := hread'
  have ht : LoginText.read "u:p1@host1" = some ⟨"u", some ⟨"p1", 2, 4⟩, "host1", none⟩ := rfl
  refine ⟨r, r', hr, hr', ?_⟩
  exact (Program.late_login_counts_iff (c := .line .guest .start CommandTable.start 2)
    rfl hr (by decide) (by decide) ht (by decide)).2 rfl r' hr'

/-- A login that is added to `prlsrvctl cttemplate remove mysql` is taken for the system template:
the template of this host is removed, and the password stays on the line. -/
theorem login_after_removal_is_lost : ∃ r r' t,
    ((Program.server.read ["prlsrvctl", "cttemplate", "remove", "mysql"]).perform
      ⟨fun _ => .error "", fun _ => .error ""⟩ .initial).1 = .ok r ∧
    LoginText.read "root:pw@node1" = some t ∧
    let line := ["prlsrvctl", "cttemplate", "remove", "mysql", "--login", "root:pw@node1"]
    let out := (Program.server.read line).perform
      ⟨fun _ => .error "", fun _ => .error ""⟩ .initial
    out.1 = .ok r' ∧ r'.template.osName = some "--login" ∧
      r'.login.server = "" ∧ t.server = "node1" ∧
      ((ArgumentBytes.ofArgs line).wipeAll out.2.wiped).byte? 5 5 = some 112 := by
  refine ⟨_, _, _, rfl, rfl, rfl, rfl, rfl, rfl, ?_⟩
  show (ArgumentBytes.ofArgs _).byte? 5 5 = _
  decide +kernel

end VmControl
