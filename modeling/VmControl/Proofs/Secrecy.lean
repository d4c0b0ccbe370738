import VmControl.Proofs.Secrecy.Lines

/-!
# Credentials stay secret

Two lines that differ only in credentials which both runs come to are told from each other by
nothing that the user sees: not by the error, not by what is written, not by the preferences or the
summary, and not by the record apart from the texts of its secrets.

## Main statements

* `Program.credentials_stay_secret`: a program answers such lines alike.
-/

namespace VmControl

open Options

/-! ## Where the options and logins of a command stand -/

/-- Where the first option or login of a line of a kind can stand. -/
def LineKind.firstPlace (kind : LineKind) (start : Nat) : Nat :=
  match kind with
  | .guest => start + 1
  | .backupList => start + 1
  | _ => start

/-- Where the first option or login of a command can stand. -/
def Command.firstPlace : Command → Nat
  | .line kind _ _ start => kind.firstPlace start
  | .family _ _ start => start
  | .monitor => 2

theorem StandFrom.mono {start start' : Nat} {ms : List (Match OptionId)} (h : StandFrom start' ms)
    (hle : start ≤ start') : StandFrom start ms :=
  fun m hm v hv => Nat.le_trans hle (h m hm v hv)

theorem standFrom_nil (start : Nat) : StandFrom start [] :=
  fun _ hm => absurd hm List.not_mem_nil

theorem Command.standFrom_stream (c : Command) (args : List String) :
    StandFrom c.firstPlace (c.stream args).options := by
  have hread (table : CommandTable) (start n : Nat) :
      StandFrom start (table.read args (start + n)).options :=
    (standFrom_read table args (start + n)).mono (Nat.le_add_right start n)
  cases c with
  | line kind action table start =>
    cases kind with
    | guest => exact fun m hm => standFrom_read _ _ _ m (mem_read_of_mem_guestStream hm)
    | problemReport =>
      show StandFrom start (table.read args (if action = .problemReport then _ else _)).options
      split
      · exact hread table start 1
      · exact hread table start 0
    | migration => exact hread table start 2
    | backup => exact hread table start 1
    | backupList => exact hread table (start + 1) 0
    | _ => exact hread table start 0
  | family kind table start =>
    cases kind with
    | nodeBackup => exact hread table start 0
    | virtualNetwork =>
      simp only [stream, FamilyKind.stream]
      split
      · exact hread table start 1
      · exact standFrom_nil _
    | usb =>
      simp only [stream, FamilyKind.stream]
      split
      · exact hread table start _
      · exact standFrom_nil _
    | template =>
      simp only [stream, FamilyKind.stream]
      split
      · split
        · rw [Nat.add_assoc, Nat.add_assoc]
          exact hread table start _
        · exact standFrom_nil _
      · exact standFrom_nil _
    | _ => exact hread table start 1
  | monitor => exact standFrom_nil 2

theorem Command.firstPlace_le_index {c : Command} {args : List String} {l : PlacedLogin}
    (h : l ∈ c.logins args) : c.firstPlace ≤ l.index := by
  cases c with
  | line kind action table start =>
    cases kind with
    | migration =>
      simp only [logins, LineKind.logins] at h
      split at h
      · rcases List.mem_append.1 h with h | h
        · exact Nat.le_of_eq (index_of_mem_targetLogins h).symm
        · rw [List.mem_singleton.1 h, index_hostLogin]
          exact Nat.le_succ start
      · cases h
    | backup =>
      simp only [logins, LineKind.logins] at h
      split at h
      · exact Nat.le_of_eq (index_of_mem_targetLogins h).symm
      · cases h
    | _ => cases h
  | family kind table start =>
    cases kind with
    | template =>
      simp only [logins, FamilyKind.logins] at h
      split at h
      · split at h
        · rw [List.mem_singleton.1 h]
          exact Nat.le_succ start
        · cases h
      · cases h
    | _ => cases h
  | monitor => cases h

/-! ## The words of a command -/

/-- The verb of a group of commands, of which the next word says which one it is. -/
def Program.groupVerb : Program → String
  | .guests => "server"
  | .server => "user"

/-- The command is said by the first word, or the first two, and by whether there are others. -/
theorem Program.command_congr {p : Program} {args args' : List String}
    (hlength : args.length = args'.length) (hverb : args[1]? = args'[1]?)
    (hgroup : args[1]? = some p.groupVerb → args[2]? = args'[2]?) :
    p.command args = p.command args' := by
  rcases args with _ | ⟨name, _ | ⟨verb, words⟩⟩ <;>
    rcases args' with _ | ⟨name', _ | ⟨verb', words'⟩⟩ <;> simp at hlength hverb
  · rfl
  · rfl
  · subst hverb
    simp only [List.getElem?_cons_succ, List.getElem?_cons_zero, Option.some.injEq] at hgroup
    cases p with
    | guests =>
      show guestCommand (verb :: words) = guestCommand (verb :: words')
      by_cases hlist : verb = "list"
      · subst hlist
        rfl
      by_cases hbackup : verb = "backup-list"
      · subst hbackup
        rfl
      rcases words with _ | ⟨word, words⟩ <;> rcases words' with _ | ⟨word', words'⟩ <;>
        simp at hlength
      · rfl
      · by_cases hserver : verb = "server"
        · obtain rfl : word = word' := by simpa using hgroup hserver
          subst hserver
          rfl
        · simp [guestCommand, hserver]
    | server =>
      show serverCommand (verb :: words) = serverCommand (verb :: words')
      by_cases huser : verb = "user"
      · have hword : words.head? = words'.head? := by
          simpa [List.head?_eq_getElem?] using hgroup huser
        subst huser
        show userCommand (words.headD "") = userCommand (words'.headD "")
        rw [List.headD_eq_head?_getD, List.headD_eq_head?_getD, hword]
      · by_cases hmonitor : verb = "monitor"
        · subst hmonitor
          rfl
        · simp [serverCommand]

/-- Options and logins stand after the words that say the command. -/
theorem Program.firstPlace_of_command {p : Program} {args : List String} {c : Command}
    (h : p.command args = .ok c) :
    2 ≤ c.firstPlace ∧ (args[1]? = some p.groupVerb → 3 ≤ c.firstPlace) := by
  have hroster : ∀ l ∈ p.roster,
      2 ≤ l.command.firstPlace ∧ (l.verb = p.groupVerb → 3 ≤ l.command.firstPlace) := by
    cases p <;> decide
  obtain ⟨l, hl, rfl, hverb, -⟩ := exists_listing h
  rw [hverb]
  exact ⟨(hroster l hl).1, fun hgroup => (hroster l hl).2 (Option.some.inj hgroup)⟩

/-! ## Programs -/

namespace Program

variable {p : Program} {args args' : List String}

/-- Whether two lines differ only in credentials that both have: in values of options, or in logins in
front of names.  Logins differ in the password alone, and other values in anything but whether a
password for a guest names its user. -/
def SameButCredentials (p : Program) (args args' : List String) : Prop :=
  LinesAlike (p.options args) (p.options args') (p.logins args) (p.logins args') args args'

/-- A line that is not read as a command wipes nothing. -/
theorem wipes_read_of_command? (h : p.command? args = none) : (p.read args).Wipes [] := by
  unfold command? at h
  unfold read
  split at h
  · next hhelp =>
    rw [hhelp]
    exact (Reading.wipes_write _).bind fun _ => Reading.wipes_throw _
  · next hhelp =>
    rw [hhelp]
    cases hc : p.command args with
    | error u => exact Reading.wipes_throw u
    | ok c => rw [hc] at h; cases h

namespace SameButCredentials

/-- Lines that are not read as commands have no credentials. -/
theorem eq (h : p.SameButCredentials args args')
    (hc : p.command? args = none ∨ p.command? args' = none) : args = args' := by
  unfold SameButCredentials options logins at h
  rcases hc with hc | hc
  · rw [hc] at h
    exact LinesAlike.eq h
  · rw [hc] at h
    exact LinesAlike.eq_of_nil_right h

/-- Lines that are read as commands have the same name and are for the same command. -/
theorem command (h : p.SameButCredentials args args') {c c' : Command}
    (hc : p.command? args = some c) (hc' : p.command? args' = some c') :
    args[0]? = args'[0]? ∧ c = c' := by
  have hcommand := (command?_eq_some.1 hc).2
  have hcommand' := (command?_eq_some.1 hc').2
  obtain ⟨htwo, hthree⟩ := firstPlace_of_command hcommand
  unfold SameButCredentials options logins at h
  rw [hc, hc'] at h
  have hword {i : Nat} (hi : i < c.firstPlace) : args[i]? = args'[i]? := by
    refine h.getElem?_eq (c.standFrom_stream args) hi fun l hl => ?_
    have := Command.firstPlace_le_index hl
    omega
  have hsame : p.command args = p.command args' :=
    command_congr h.length (hword (by omega)) fun hgroup => hword (by have := hthree hgroup; omega)
  refine ⟨hword (by omega), ?_⟩
  rw [hcommand, hcommand'] at hsame
  exact Except.ok.inj hsame

/-- They have the same name in any case. -/
theorem head? (h : p.SameButCredentials args args') : args.head? = args'.head? := by
  rw [List.head?_eq_getElem?, List.head?_eq_getElem?]
  cases hc : p.command? args with
  | none => rw [h.eq (.inl hc)]
  | some c =>
    cases hc' : p.command? args' with
    | none => rw [h.eq (.inr hc')]
    | some c' => exact (h.command hc hc').1

/-- **A program reads lines that differ in credentials alike.** -/
theorem alike_read (h : p.SameButCredentials args args') :
    RecordsAlike (p.read args) (p.read args') := by
  have hsame {args : List String} (hc : p.command? args = none) :
      RecordsAlike (p.read args) (p.read args) :=
    (wipes_read_of_command? hc).alike_self.mono fun _ _ h => congrArg Record.blank h
  cases hc : p.command? args with
  | none =>
    obtain rfl := h.eq (.inl hc)
    exact hsame hc
  | some c =>
    cases hc' : p.command? args' with
    | none =>
      obtain rfl := h.eq (.inr hc')
      exact hsame hc'
    | some c' =>
      obtain rfl := (h.command hc hc').2
      rw [read_of_command? hc, read_of_command? hc']
      unfold SameButCredentials options logins at h
      rw [hc, hc'] at h
      exact Command.alike_read (wellEquipped_of_command (command?_eq_some.1 hc).2) h

theorem refusalNotes (h : p.SameButCredentials args args') (e : CommandError) :
    p.refusalNotes args e = p.refusalNotes args' e := by
  have husage : p.usage args = p.usage args' := by
    unfold Program.usage Usage.programName
    rw [h.head?]
  unfold Program.refusalNotes
  rw [husage]

end SameButCredentials

end Program

theorem Effects.notes_foldl_addNote (e : Effects) (notes : List Note) :
    (notes.foldl addNote e).notes = e.notes ++ notes := by
  induction notes generalizing e with
  | nil => exact (List.append_nil _).symm
  | cons n notes ih =>
    rw [List.foldl_cons, ih]
    exact List.append_assoc _ _ _

/-- A transcript tells nothing of the effects but what was written, and nothing of a record that
its secrets have a part in. -/
theorem Transcript.ofRoute_congr {r r' : Record} {e e' : Effects} (hr : r.blank = r'.blank)
    (he : e.notes = e'.notes) : ofRoute (.ok r) e = ofRoute (.ok r') e' := by
  have hvalid : r.isValid = r'.isValid := by
    rw [← Record.isValid_blank, hr, Record.isValid_blank]
  have hsummary : r.dispatch.1 = r'.dispatch.1 := by
    rw [← Record.dispatch_blank, hr, Record.dispatch_blank]
  unfold ofRoute Effects.outputText Effects.errorText
  dsimp only
  rw [hvalid, hsummary, he]

/-- **Credentials stay secret.**  Two lines that differ only in credentials are turned down with the
same error, or come to records that are the same but for the texts of secrets, with the same
preferences and the same texts written.  The summaries of the records are the same, and so are the
whole runs of the program. -/
theorem Program.credentials_stay_secret {p : Program} {args args' : List String}
    (h : p.SameButCredentials args args') (host : Host) (start : Preferences) :
    let out := (p.read args).perform host start
    let out' := (p.read args').perform host start
    out.1.map Record.blank = out'.1.map Record.blank ∧
    out.1.map (fun r => r.dispatch.1) = out'.1.map (fun r => r.dispatch.1) ∧
    out.2.preferences = out'.2.preferences ∧ out.2.notes = out'.2.notes ∧
    p.run args host = p.run args' host := by
  intro out out'
  obtain ⟨hresult, heffects⟩ := h.alike_read host (.start start) (.start start) ⟨rfl, rfl⟩
  have hrecord : out.1.map Record.blank = out'.1.map Record.blank := resultAlike_iff_map.1 hresult
  have hsummary (x : Except CommandError Record) : x.map (fun r => r.dispatch.1) =
      (x.map Record.blank).map fun r => r.dispatch.1 := by
    cases x with
    | error u => rfl
    | ok r => exact congrArg Except.ok r.dispatch_blank.symm
  refine ⟨hrecord, ?_, heffects.preferences, heffects.notes, ?_⟩
  · rw [hsummary, hrecord, ← hsummary]
  · obtain ⟨hresult, heffects⟩ := h.alike_read host (.start .initial) (.start .initial) ⟨rfl, rfl⟩
    unfold run route Reading.perform
    generalize (p.read args).after host (.start .initial) = out at hresult heffects ⊢
    generalize (p.read args').after host (.start .initial) = out' at hresult heffects ⊢
    obtain ⟨u | r, e⟩ := out <;> obtain ⟨u' | r', e'⟩ := out'
    · obtain rfl : u = u' := hresult
      have hnotes : ((p.refusalNotes args u).foldl Effects.addNote e).notes =
          ((p.refusalNotes args' u).foldl Effects.addNote e').notes := by
        rw [Effects.notes_foldl_addNote, Effects.notes_foldl_addNote, h.refusalNotes,
          heffects.notes]
      cases u with
      | exit status =>
        show Transcript.ofRoute (.error status) e = .ofRoute (.error status) e'
        unfold Transcript.ofRoute Effects.outputText Effects.errorText
        rw [heffects.notes]
      | _ => exact Transcript.ofRoute_congr rfl hnotes
    · exact hresult.elim
    · exact hresult.elim
    · exact Transcript.ofRoute_congr hresult heffects.notes

/-- Two lines with different passwords for one host. -/
theorem password_of_start_stays_secret :
    Program.guests.SameButCredentials ["prlctl", "start", "vm1", "--login", "u:p1@host1"]
      ["prlctl", "start", "vm1", "--login", "u:secret@host1"] ∧
    Program.guests.run ["prlctl", "start", "vm1", "--login", "u:p1@host1"]
      ⟨fun _ => .error "", fun _ => .error ""⟩ =
    Program.guests.run ["prlctl", "start", "vm1", "--login", "u:secret@host1"]
      ⟨fun _ => .error "", fun _ => .error ""⟩ := by
  have hoptions : Program.guests.options ["prlctl", "start", "vm1", "--login", "u:p1@host1"] =
      [⟨.login, "--login", some ⟨"u:p1@host1", ⟨4, 0, 10⟩⟩⟩] := by
    show (CommandTable.start.read _ 3).options = _
    rw [Table.read_eq_of_streamWithin (n := 2) (by rfl)]
    rfl
  have hoptions' : Program.guests.options ["prlctl", "start", "vm1", "--login", "u:secret@host1"] =
      [⟨.login, "--login", some ⟨"u:secret@host1", ⟨4, 0, 14⟩⟩⟩] := by
    show (CommandTable.start.read _ 3).options = _
    rw [Table.read_eq_of_streamWithin (n := 2) (by rfl)]
    rfl
  have hsame : Program.guests.SameButCredentials
      ["prlctl", "start", "vm1", "--login", "u:p1@host1"]
      ["prlctl", "start", "vm1", "--login", "u:secret@host1"] := by
    refine ⟨rfl, fun i a a' ha ha' => ?_⟩
    by_cases hi : i = 4
    · subst hi
      obtain rfl : "u:p1@host1" = a := Option.some.inj ha
      obtain rfl : "u:secret@host1" = a' := Option.some.inj ha'
      rw [hoptions, hoptions']
      exact .inr (.inl ⟨_, List.mem_singleton_self _, _, List.mem_singleton_self _, _, _, [], rfl,
        rfl, rfl, rfl, rfl, rfl, rfl, rfl⟩)
    · left
      have hset : ["prlctl", "start", "vm1", "--login", "u:secret@host1"] =
          ["prlctl", "start", "vm1", "--login", "u:p1@host1"].set 4 "u:secret@host1" := rfl
      rw [hset, List.getElem?_set_ne (Ne.symm hi), ha] at ha'
      exact Option.some.inj ha'
  exact ⟨hsame, (Program.credentials_stay_secret hsame _ .initial).2.2.2.2⟩

end VmControl
