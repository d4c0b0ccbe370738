import VmControl.Proofs.Options.Displacement
import VmControl.Proofs.Rejection

/-!
# Commands that are run inside a guest

Two commands take what follows their options as it stands, and run it inside the guest.  It starts
with the first argument that is no option of theirs, and is not looked at any more: options within
it are not taken, and nothing of it is wiped.

## Main definitions

* `Options.Table.HandsBack`: an argument is no option of a table.
* `Draft.start`: what a line on a guest starts with.
* `Draft.IsSlight`: what these lines say.

## Main statements

* `readGuestLine_command`: a line that goes on with a command is read as the line without it.
* `Program.index_lt_of_wiped`: a program wipes arguments of its line only.
* `guest_command_is_verbatim`: the command is kept, and changes nothing else.
-/

namespace VmControl

open Options

/-! ## Where a command starts -/

namespace Options

variable {ι : Type} {t : Table ι} {token : String}

/-- Whether an argument is no option of the table: by itself it is read as none. -/
def Table.HandsBack (t : Table ι) (token : String) : Prop :=
  t.read [token] 0 = ⟨[.unknown 0 token], none⟩

/-- Such an argument is read after the line before it, and before all that follows. -/
theorem Table.HandsBack.read (h : t.HandsBack token) {line : List String} {start : Nat}
    {events : List (Event ι)} (hstart : start ≤ line.length)
    (hread : t.read line start = ⟨events, none⟩) (tail : List String) :
    ∃ later, (t.read (line ++ token :: tail) start).events =
      events ++ .unknown line.length token :: later := by
  obtain ⟨⟨later, hlater⟩, -⟩ := t.read_line_append [token] tail (Nat.zero_le _)
  have hline := (t.read_line_append line (token :: tail) hstart).2 events hread
  rw [show t.read [token] 0 = _ from h] at hlater
  refine ⟨later.map (·.shift line.length), ?_⟩
  rw [hline]
  show events ++ (t.read ([token] ++ tail) 0).events.map (·.shift line.length) = _
  rw [← hlater, List.map_append]
  simp [Event.shift]

end Options

theorem splitGuestCommand_options (ms : List (Match OptionId)) :
    splitGuestCommand (ms.map .option) = (ms.map .option, none) := by
  induction ms with
  | nil => rfl
  | cons m ms ih => rw [List.map_cons, splitGuestCommand, ih]

theorem splitGuestCommand_unknown (ms : List (Match OptionId)) (index : Nat) (token : String)
    (later : List (Event OptionId)) :
    splitGuestCommand (ms.map .option ++ .unknown index token :: later) =
      (ms.map .option, some index) := by
  induction ms with
  | nil => rfl
  | cons m ms ih => rw [List.map_cons, List.cons_append, splitGuestCommand, ih]

/-! ## What is said before the command -/

/-- The options of the lines that end in a command. -/
def commandOptions : List OptionId :=
  [.verbose, .timeout, .login, .readPassword, .compat, .setting (.mark .withoutShell)]

namespace Draft

/-- What a line on a guest starts with. -/
def start (action : Action) (target : Option String) : Draft :=
  ⟨{ Record.ofAction action with target := target }, ∅, []⟩

/-- Whether a draft says the guest, the login and settings that are no texts, and nothing else.  The
end of a line makes nothing of these. -/
structure IsSlight (action : Action) (d : Draft) : Prop where
  /-- The record says no more. -/
  record : ∃ target login settings, d.record =
    { Record.ofAction action with target := target, login := login, settings := settings }
  /-- The adapter is not mentioned, -/
  adapter : d.adapter = ∅
  /-- nor are images. -/
  imageFates : d.imageFates = []
  /-- No setting is a text. -/
  texts : ∀ t, d.record.text? t = none

variable {action : Action} {d : Draft} {m : Match OptionId} {ms : List (Match OptionId)}

theorem isSlight_start (action : Action) (target : Option String) :
    (start action target).IsSlight action :=
  ⟨⟨target, ∅, ∅, rfl⟩, rfl, rfl, fun _ => rfl⟩

theorem IsSlight.mapLogin (h : d.IsSlight action) (f : Login → Login) :
    (grammar.mapLogin f d).IsSlight action := by
  obtain ⟨target, login, settings, hrecord⟩ := h.record
  refine ⟨⟨target, f login, settings, ?_⟩, h.adapter, h.imageFates, h.texts⟩
  show { d.record with login := f d.record.login } = _
  rw [hrecord]

theorem IsSlight.mark (h : d.IsSlight action) (k : Mark) :
    (d.mapRecord (·.mark k)).IsSlight action := by
  obtain ⟨target, login, settings, hrecord⟩ := h.record
  refine ⟨⟨target, login, settings.insert (.mark k) (), ?_⟩, h.adapter, h.imageFates, fun t => ?_⟩
  · show d.record.mark k = _
    rw [hrecord]
    rfl
  · have hne : Setting.mark k ≠ Setting.text t := nofun
    exact (Sheet.get?_insert_of_ne _ _ hne).trans (h.texts t)

theorem apply_withoutShell (h : m.id = .setting (.mark .withoutShell)) (d : Draft) :
    apply m d = pure (d.mapRecord (·.mark .withoutShell)) := by
  unfold apply applyPure
  rw [h]
  rfl

theorem IsSlight.apply (h : d.IsSlight action) (hm : m.id ∈ commandOptions) :
    (apply m d).Yields (IsSlight action) := by
  simp only [commandOptions, List.mem_cons, List.not_mem_nil, or_false] at hm
  rcases hm with hid | hid | hid | hid | hid | hid
  case inr.inr.inr.inr.inr =>
    rw [apply_withoutShell hid]
    exact Reading.yields_pure (h.mark .withoutShell)
  all_goals
    have happly : Draft.apply m d = throw (.refused (.unhandled m.name)) := by
      unfold Draft.apply applyPure
      rw [hid]
      rfl
    rw [happly]
    exact Reading.yields_throw

theorem IsSlight.steps (h : d.IsSlight action) (hms : ∀ m ∈ ms, m.id ∈ commandOptions) :
    (grammar.steps d (ms.map .option)).Yields (IsSlight action) := by
  induction ms generalizing d with
  | nil => exact Reading.yields_pure h
  | cons m ms ih =>
    have hstep : (grammar.step d (.option m)).Yields (IsSlight action) := by
      refine Reading.yields_bind fun _ => Reading.yields_bind fun f => ?_
      cases f with
      | some f => exact Reading.yields_pure (h.mapLogin f)
      | none => exact h.apply (hms m (List.mem_cons_self ..))
    rw [List.map_cons, Grammar.steps, List.foldlM_cons]
    exact hstep.bind fun d' hd' => ih hd' fun m' hm' => hms m' (List.mem_cons_of_mem _ hm')

/-- Such a record keeps all rules, and has no path. -/
theorem IsSlight.consistent (h : d.IsSlight action) (haction : action.takesGuestCommand = true)
    (host : Host) : d.record.consistent host = .ok d.record := by
  obtain ⟨target, login, settings, hrecord⟩ := h.record
  have hearly : Rule.enforce d.record.earlyRules = .ok () := by
    rw [hrecord]
    cases action <;> first | rfl | cases haction
  have hlocation : d.record.resolveLocation host = .ok d.record := by
    unfold Record.resolveLocation
    rw [h.texts .location]
  have himage : d.record.resolveImage host = .ok d.record := by
    rw [hrecord]
    rfl
  have hlate : Rule.enforce d.record.lateRules = .ok () := by
    have hdisk : d.record.hasText .backupDisk = false := by
      show (d.record.text? .backupDisk).isSome = false
      rw [h.texts .backupDisk]
      rfl
    unfold Record.lateRules Record.backupRules
    rw [hdisk, hrecord]
    rfl
  unfold Record.consistent
  rw [hearly, hlocation]
  show (do let r ← d.record.resolveImage host
           Rule.enforce r.lateRules
           return r : Except CommandError Record) = .ok d.record
  rw [himage]
  show (do Rule.enforce d.record.lateRules
           return d.record : Except CommandError Record) = .ok d.record
  rw [hlate]
  rfl

/-- The end of the line makes nothing of such a draft. -/
theorem IsSlight.settle (h : d.IsSlight action) (haction : action.takesGuestCommand = true) :
    (do let r ← Reading.ofExcept d.finish
        r.settle : Reading Record) = pure d.record := by
  have hfinish : d.finish = .ok d.record := by
    obtain ⟨record, adapter, fates⟩ := d
    obtain ⟨⟨target, login, settings, rfl⟩, rfl, rfl, -⟩ := h
    rfl
  have hignores : d.record.ignoresGuest = false := by
    obtain ⟨target, login, settings, hrecord⟩ := h.record
    rw [hrecord]
    rfl
  rw [hfinish]
  show d.record.settle = pure d.record
  unfold Record.settle
  rw [hignores]
  simp only [h.consistent haction]
  rfl

end Draft

/-! ## Lines -/

/-- What follows a reading has to be the same only on what it can come to. -/
theorem Reading.Yields.bind_congr {α β : Type} {x : Reading α} {P : α → Prop} {f g : α → Reading β}
    (hx : x.Yields P) (h : ∀ a, P a → f a = g a) : x >>= f = x >>= g := by
  funext host e
  show (x >>= f).after host e = (x >>= g).after host e
  have hxe := hx host e
  rw [after_bind, after_bind]
  generalize x.after host e = out at hxe ⊢
  obtain ⟨u | a, e'⟩ := out
  · rfl
  · dsimp only
    rw [h a (hxe a rfl)]

section Line

variable {action : Action} {table : CommandTable} {offset : Nat} {args : List String}
  {ms : List (Match OptionId)} {token : String}

theorem mem_commandOptions (htable : ∀ e ∈ table.entries, e.id ∈ commandOptions) {start : Nat}
    (hread : table.read args start = ⟨ms.map .option, none⟩) (m : Match OptionId) (hm : m ∈ ms) :
    m.id ∈ commandOptions := by
  have hmem : .option m ∈ (table.read args start).events := by
    rw [hread]
    exact List.mem_map_of_mem hm
  obtain ⟨e, he, hid⟩ := Table.has_of_mem_read hmem
  exact hid ▸ htable e he

/-- What a line of these options is read as: its options are taken, and nothing else is done. -/
theorem readGuestLine_options (haction : action.takesGuestCommand = true)
    (htable : ∀ e ∈ table.entries, e.id ∈ commandOptions)
    (hread : table.read args (offset + 1) = ⟨ms.map .option, none⟩) :
    readGuestLine action table offset args = Draft.record <$>
      Draft.grammar.steps (.start action (if action.takesTarget then args[offset]? else none))
        (ms.map .option) := by
  unfold readGuestLine
  dsimp only
  rw [hread, splitGuestCommand_options, if_pos haction, Grammar.read_mk, map_eq_pure_bind]
  have hslight := Draft.isSlight_start action (if action.takesTarget then args[offset]? else none)
  exact (hslight.steps (mem_commandOptions htable hread)).bind_congr fun d hd =>
    hd.settle haction

/-- **A line that goes on with a command is read as the line without it**, and keeps the command. -/
theorem readGuestLine_command (haction : action.takesGuestCommand = true)
    (htable : ∀ e ∈ table.entries, e.id ∈ commandOptions) (hoffset : offset < args.length)
    (hread : table.read args (offset + 1) = ⟨ms.map .option, none⟩) (htoken : table.HandsBack token)
    (tail : List String) :
    readGuestLine action table offset (args ++ token :: tail) =
      (fun r => { r with argv := token :: tail }) <$> readGuestLine action table offset args := by
  obtain ⟨later, hlater⟩ := htoken.read (Nat.succ_le_of_lt hoffset) hread tail
  rw [readGuestLine_options haction htable hread]
  unfold readGuestLine
  dsimp only
  rw [hlater, splitGuestCommand_unknown, if_pos haction, List.getElem?_append_left hoffset]
  dsimp only
  rw [List.drop_left]
  simp only [map_eq_pure_bind, bind_assoc, pure_bind]
  rfl

end Line

/-! ## Options with acceptable values -/

/-- Whether the value of such an option is acceptable: a login is well formed, and a file with a
password can be read. -/
def Options.Match.IsAcceptable (host : Host) (m : Match OptionId) : Prop :=
  match m.id with
  | .login => (LoginText.read m.text).isSome = true
  | .readPassword => ∃ text, host.readFile m.text = .ok text
  | _ => True

theorem Draft.accepts_step {m : Match OptionId} (hm : m.id ∈ commandOptions) {host : Host}
    (h : m.IsAcceptable host) (d : Draft) (e : Effects) :
    ∃ d' e', (grammar.step d (.option m)).after host e = (.ok d', e') := by
  simp only [commandOptions, List.mem_cons, List.not_mem_nil, or_false] at hm
  unfold Match.IsAcceptable at h
  unfold Grammar.step readCommonOption
  dsimp only
  rcases hm with hid | hid | hid | hid | hid | hid <;> rw [hid] at h ⊢ <;> dsimp only at h ⊢
  case inr.inr.inl =>
    obtain ⟨login, hlogin⟩ := Option.isSome_iff_exists.1 h
    simp [readLogin, hlogin, Except.map]
  case inr.inr.inr.inl =>
    obtain ⟨text, htext⟩ := h
    simp [readPasswordFile, htext, Except.mapError, Except.map]
  case inr.inr.inr.inr.inr =>
    show ∃ d' e', (Reading.enter m >>= fun _ => apply m d).after host e = _
    rw [apply_withoutShell hid]
    exact ⟨_, _, rfl⟩
  all_goals exact ⟨_, _, rfl⟩

theorem Draft.accepts_steps {ms : List (Match OptionId)} (hms : ∀ m ∈ ms, m.id ∈ commandOptions)
    {host : Host} (h : ∀ m ∈ ms, m.IsAcceptable host) (d : Draft) (e : Effects) :
    ∃ d' e', (grammar.steps d (ms.map .option)).after host e = (.ok d', e') := by
  induction ms generalizing d e with
  | nil => exact ⟨d, e, rfl⟩
  | cons m ms ih =>
    obtain ⟨d₁, e₁, hstep⟩ :=
      accepts_step (hms m (List.mem_cons_self ..)) (h m (List.mem_cons_self ..)) d e
    rw [List.map_cons, Grammar.steps, List.foldlM_cons, Reading.after_bind, hstep]
    exact ih (fun m' hm' => hms m' (List.mem_cons_of_mem _ hm'))
      (fun m' hm' => h m' (List.mem_cons_of_mem _ hm')) d₁ e₁

/-! ## Whole lines -/

/-- The verbs of the lines that end in a command. -/
def commandVerbs : List (String × Action × CommandTable) :=
  [("exec", .exec, CommandTable.exec), ("internal", .internal, CommandTable.plain)]

/-- **A program wipes arguments of its line only.** -/
theorem Program.index_lt_of_wiped {p : Program} {args : List String} {host : Host}
    {start : Preferences} {s : Slot} (h : s ∈ ((p.read args).perform host start).2.wiped) :
    s.index < args.length := by
  obtain ⟨ms, ls, hms, hls, hvisit, -⟩ := p.visits_read args host (.start start)
  have hmem : s ∈ credentialSlots ms ls :=
    ((hvisit.wiped s).1 h).resolve_left List.not_mem_nil
  rcases List.mem_append.1 hmem with hmem | hmem
  · obtain ⟨m, hm, hslot⟩ := List.mem_filterMap.1 hmem
    have hcredential : m.id.isCredential = true := by
      by_contra hnot
      rw [credentialSlot?, if_neg hnot] at hslot
      cases hslot
    obtain ⟨v, hv, rfl⟩ := exists_value_of_credentialSlot? hslot
    obtain ⟨v', place, front, tail, hv', hexact⟩ :=
      exists_exact_value (hms.subset hm) hcredential
    obtain rfl : v' = v := Option.some.inj (hv'.symm.trans hv)
    obtain ⟨before, hbefore, -⟩ := hexact.suffix
    exact length_of_getElem? hbefore
  · obtain ⟨l, hl, hslot⟩ := List.mem_filterMap.1 hmem
    obtain ⟨⟨rest, hrest⟩, -⟩ := login_stands_apart (hls.subset hl)
    rw [PlacedLogin.index_of_slot? hslot]
    exact length_of_getElem? hrest

/-- A line with such a verb and a guest is read by the options of the verb. -/
theorem read_of_commandVerb {verb : String} {action : Action} {table : CommandTable}
    (hverb : (verb, action, table) ∈ commandVerbs) {name target : String} {words : List String}
    (hhelp : "--help" ∉ name :: verb :: target :: words) :
    Program.guests.read (name :: verb :: target :: words) =
      readGuestLine action table 2 (name :: verb :: target :: words) := by
  have hcommand : guestCommand (verb :: target :: words) = .ok (.line .guest action table 2) ∧
      verb ≠ "--version" := by
    simp only [commandVerbs, List.mem_cons, List.not_mem_nil, or_false, Prod.mk.injEq] at hverb
    rcases hverb with ⟨rfl, rfl, rfl⟩ | ⟨rfl, rfl, rfl⟩
    · exact ⟨rfl, by decide⟩
    · exact ⟨rfl, by decide⟩
  have hnone : Program.guests.help? (name :: verb :: target :: words) = none := by
    show (if verb = "--version" then _ else _) = _
    rw [if_neg hcommand.2, if_neg hhelp]
  exact Program.read_of_command? (Program.command?_eq_some.2 ⟨hnone, hcommand.1⟩)

theorem accepts_of_commandVerb {verb : String} {action : Action} {table : CommandTable}
    (hverb : (verb, action, table) ∈ commandVerbs) :
    action.takesGuestCommand = true ∧ ∀ e ∈ table.entries, e.id ∈ commandOptions := by
  simp only [commandVerbs, List.mem_cons, List.not_mem_nil, or_false, Prod.mk.injEq] at hverb
  rcases hverb with ⟨rfl, rfl, rfl⟩ | ⟨rfl, rfl, rfl⟩
  · exact ⟨rfl, by decide⟩
  · exact ⟨rfl, by decide⟩

/-- **A command that is run inside a guest is kept as it stands.**  Let a line of one of the verbs
for this name a guest and have options, and let it go on with a first argument that is no option of
the verb, and any others.  Nowhere on it is help asked for.

* If the values of the options are acceptable, then the line is accepted without the command.
* With the command it is accepted just as well, or turned down for the same reason.  The record is
  the same, but for the arguments of the command, which are all that follows.
* Reading it comes to the same options and logins, and does nothing else than without the command.
* No byte of the command is wiped. -/
theorem guest_command_is_verbatim {verb : String} {action : Action} {table : CommandTable}
    (hverb : (verb, action, table) ∈ commandVerbs) {name target token : String}
    {options tail : List String} {ms : List (Match OptionId)}
    (hhelp : "--help" ∉ name :: verb :: target :: options ++ token :: tail)
    (hread : table.read (name :: verb :: target :: options) 3 = ⟨ms.map .option, none⟩)
    (htoken : table.HandsBack token) (host : Host) (start : Preferences) :
    let line := name :: verb :: target :: options
    let alone := (Program.guests.read line).perform host start
    let out := (Program.guests.read (line ++ token :: tail)).perform host start
    let before := ArgumentBytes.ofArgs (line ++ token :: tail)
    ((∀ m ∈ ms, m.IsAcceptable host) → ∃ r, alone.1 = .ok r) ∧
    out.1 = alone.1.map (fun r => { r with argv := token :: tail }) ∧ out.2 = alone.2 ∧
    ∀ i j, line.length ≤ i → (before.wipeAll out.2.wiped).byte? i j = before.byte? i j := by
  intro line alone out before
  obtain ⟨haction, htable⟩ := accepts_of_commandVerb hverb
  have halone : Program.guests.read line = readGuestLine action table 2 line :=
    read_of_commandVerb hverb fun hmem => hhelp (List.mem_append_left _ hmem)
  have hwhole : Program.guests.read (line ++ token :: tail) =
      (fun r => { r with argv := token :: tail }) <$> Program.guests.read line := by
    rw [halone, ← readGuestLine_command haction htable (by simp) hread htoken tail]
    exact read_of_commandVerb hverb hhelp
  have hout : out = (alone.1.map (fun r => { r with argv := token :: tail }), alone.2) := by
    show Reading.after _ host _ = _
    rw [hwhole, Reading.after_map]
    rfl
  refine ⟨fun hacceptable => ?_, by rw [hout], by rw [hout], fun i j hi => ?_⟩
  · show ∃ r, ((Program.guests.read line).after host (.start start)).1 = .ok r
    obtain ⟨d, e, hsteps⟩ := Draft.accepts_steps (mem_commandOptions htable hread) hacceptable
      (.start action _) (.start start)
    rw [halone, readGuestLine_options haction htable hread, Reading.after_map, hsteps]
    exact ⟨d.record, rfl⟩
  · refine ArgumentBytes.byte?_wipeAll_of_index_ne (fun s hs => ?_) j
    rw [hout] at hs
    have hlt : s.index < line.length := Program.index_lt_of_wiped hs
    omega

/-- In `prlctl exec vm1 --without-shell ls -l --login u:pw@node1` the command is
`ls -l --login u:pw@node1`, which is kept with its password. -/
theorem login_of_command_is_kept :
    let line := ["prlctl", "exec", "vm1", "--without-shell"]
    let command := ["ls", "-l", "--login", "u:pw@node1"]
    let host : Host := ⟨fun _ => .error "", fun _ => .error ""⟩
    let out := (Program.guests.read (line ++ command)).perform host .initial
    let before := ArgumentBytes.ofArgs (line ++ command)
    (∃ r, ((Program.guests.read line).perform host .initial).1 = .ok r ∧
      out.1 = .ok { r with argv := command }) ∧
    ∀ i j, 4 ≤ i → (before.wipeAll out.2.wiped).byte? i j = before.byte? i j := by
  intro line command host out before
  have hread : CommandTable.exec.read line 3 =
      ⟨[⟨.setting (.mark .withoutShell), "--without-shell", none⟩].map .option, none⟩ :=
    Table.read_eq_of_streamWithin (n := 2) (by rfl)
  have htoken : CommandTable.exec.HandsBack "ls" :=
    Table.read_eq_of_streamWithin (n := 2) (by rfl)
  have hhelp : "--help" ∉ ["prlctl", "exec", "vm1", "--without-shell"] ++
      "ls" :: ["-l", "--login", "u:pw@node1"] := by
    decide
  obtain ⟨haccepted, hout, -, hkept⟩ :=
    guest_command_is_verbatim (List.mem_cons_self ..) hhelp hread htoken host .initial
  obtain ⟨r, hr⟩ := haccepted (by
    intro m hm
    obtain rfl := List.mem_singleton.1 hm
    trivial)
  rw [hr] at hout
  exact ⟨⟨r, hr, hout⟩, hkept⟩

end VmControl
