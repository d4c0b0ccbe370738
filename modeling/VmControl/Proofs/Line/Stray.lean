import VmControl.Proofs.Line.Continuation
import VmControl.Proofs.Line.Rules

/-!
# Arguments that look like options

An argument that looks like an option and is none is turned down by most lines, but not by all.
Lists, statistics and lines about networks take it for the name of what they are about, a guest is
registered at the path that it stands for, and lines that are complete as they stand do not look at
it.

## Main definitions

* `Reading.Fails`: a reading turns its line down on every host.
* `Command.TakesStray`: the accepted lines that take such an argument.

## Main statements

* `Program.stray_is_refused_iff`: when such an argument is turned down at the end of an accepted
  line.
-/

namespace VmControl

open Options

/-! ## Readings that fail -/

namespace Reading

variable {α β : Type} {x : Reading α} {f : α → Reading β} {host : Host} {e : Effects}

/-- Whether a reading turns its line down on every host. -/
def Fails (x : Reading α) : Prop := x.Yields fun _ => False

theorem fails_throw {u : CommandError} : (throw u : Reading α).Fails := yields_throw

/-- Nothing follows a reading that fails. -/
theorem Fails.bind (hx : x.Fails) : (x >>= f).Fails := Yields.bind hx nofun

theorem fails_bind (hf : ∀ a, (f a).Fails) : (x >>= f).Fails := yields_bind hf

/-- What is accepted in the end is accepted to begin with. -/
theorem exists_of_after_bind {b : β} (h : ((x >>= f).after host e).1 = .ok b) :
    ∃ a e', x.after host e = (.ok a, e') ∧ ((f a).after host e').1 = .ok b := by
  rw [after_bind] at h
  generalize x.after host e = out at h ⊢
  obtain ⟨u | a, e'⟩ := out
  · cases h
  · exact ⟨a, e', rfl, h⟩

end Reading

/-- Whether a stream without a missing value is followed by one argument in another stream. -/
structure Options.Stream.GoesOn (s : Stream OptionId) (index : Nat) (token : String)
    (s' : Stream OptionId) : Prop where
  /-- No value is missing. -/
  missing : s.missing = none
  /-- The argument comes last. -/
  eq : s' = ⟨s.events ++ [.unknown index token], none⟩

section Grammar

variable {α : Type} {g : Grammar α} {token : String}

theorem Grammar.read_unknown (g : Grammar α) (a : α) (events : List (Event OptionId)) (index : Nat)
    (token : String) : g.read a ⟨events ++ [.unknown index token], none⟩ =
      g.read a ⟨events, none⟩ >>= g.argument index token := by
  rw [Grammar.read_mk, Grammar.read_mk, Grammar.steps_append]
  exact bind_congr fun b => bind_pure _

/-- Whether a grammar turns an argument down wherever it stands. -/
def Grammar.Refuses (g : Grammar α) (token : String) : Prop :=
  ∀ index a, (g.argument index token a).Fails

/-- A line with such an argument is turned down. -/
theorem Grammar.Refuses.fails_read (hg : g.Refuses token) {s : Stream OptionId}
    {events : List (Event OptionId)} {index : Nat}
    (hs : s = ⟨events ++ [.unknown index token], none⟩) (a : α) : (g.read a s).Fails := by
  rw [hs, Grammar.read_unknown]
  exact Reading.fails_bind fun b => hg index b

theorem refuses_recordGrammar {option : Match OptionId → Record → Reading Record} :
    (recordGrammar refuseArgument option).Refuses token :=
  fun _ _ => Reading.fails_throw

end Grammar

/-! ## Lines that take no argument that looks like an option -/

section Fails

variable {action : Action} {table : CommandTable} {start index : Nat} {args : List String}
  {token : String} {events : List (Event OptionId)}

theorem fails_readMigrationLine
    (hs : table.read args (start + 2) = ⟨events ++ [.unknown index token], none⟩) :
    (readMigrationLine action table start args).Fails := by
  unfold readMigrationLine
  split
  · exact Reading.fails_bind fun target => Reading.fails_bind fun host =>
      (refuses_recordGrammar.fails_read hs _).bind
  · exact Reading.fails_throw

theorem fails_readBackupLine
    (hs : table.read args (start + 1) = ⟨events ++ [.unknown index token], none⟩) :
    (readBackupLine action table start args).Fails := by
  unfold readBackupLine
  split
  · exact Reading.fails_throw
  · exact (refuses_recordGrammar.fails_read hs _).bind

/-- The one guest that a line may name does not look like an option. -/
theorem fails_readBackupChoice {option : Match OptionId → Record → Reading Record}
    (hdash : token.toList.head? = some '-')
    (hs : table.read args start = ⟨events ++ [.unknown index token], none⟩) :
    (readBackupChoice (recordGrammar Backup.takeOnlyTarget option) action table start
      args).Fails := by
  unfold readBackupChoice
  split
  · exact Reading.fails_throw
  · refine Grammar.Refuses.fails_read (fun index r => ?_) hs _
    show (Backup.takeOnlyTarget index token r).Fails
    unfold Backup.takeOnlyTarget
    rw [if_pos hdash]
    exact Reading.fails_throw

theorem fails_readServerLine
    (hs : table.read args start = ⟨events ++ [.unknown index token], none⟩) :
    (readServerLine action table start args).Fails :=
  (refuses_recordGrammar.fails_read hs _).bind

theorem fails_readProblemReportLine
    (hs : LineKind.problemReport.stream action table start args =
      ⟨events ++ [.unknown index token], none⟩) :
    (readProblemReportLine action table start args).Fails := by
  unfold readProblemReportLine
  unfold LineKind.stream at hs
  dsimp only at hs ⊢
  split at hs <;> next haction =>
    simp only [haction, if_true, if_false]
    exact (refuses_recordGrammar.fails_read hs _).bind

theorem fails_readUsbLine
    (hs : FamilyKind.usb.stream table start args = ⟨events ++ [.unknown index token], none⟩) :
    (readUsbLine table start args).Fails := by
  unfold readUsbLine
  unfold FamilyKind.stream at hs
  dsimp only at hs
  split
  · exact Reading.fails_throw
  · next husb =>
    rw [husb] at hs
    exact refuses_recordGrammar.fails_read hs _

theorem fails_readShapingLine
    (hs : table.read args (start + 1) = ⟨events ++ [.unknown index token], none⟩) :
    (readShapingLine table start args).Fails := by
  unfold readShapingLine
  split
  · exact fails_readServerLine hs
  · exact Reading.fails_throw

theorem fails_readTemplateLine (hcopy : args[start]? = some "copy")
    (hs : FamilyKind.template.stream table start args = ⟨events ++ [.unknown index token], none⟩) :
    (readTemplateLine table start args).Fails := by
  have hhead : (args.drop start).head? = some "copy" := (List.head?_drop ..).trans hcopy
  obtain ⟨rest, hrest⟩ := List.head?_eq_some_iff.1 hhead
  unfold FamilyKind.stream at hs
  dsimp only at hs
  rw [if_pos hhead] at hs
  unfold readTemplateLine
  dsimp only
  rw [hrest]
  show (readTemplateCopyLine table (start + 1) args).Fails
  unfold readTemplateCopyLine
  split
  · next hwords =>
    rw [hwords] at hs
    exact Reading.fails_bind fun _ => refuses_recordGrammar.fails_read hs _
  · exact Reading.fails_throw

/-- A guest is named, or the path that it is registered at, but nothing else. -/
theorem fails_readGuestLine (hguest : action.takesGuestCommand = false) (hlist : action ≠ .list)
    (hregister : action ≠ .register)
    (hs : table.read args (start + 1) = ⟨events ++ [.unknown index token], none⟩) :
    (readGuestLine action table start args).Fails := by
  unfold readGuestLine
  dsimp only
  rw [hguest, if_neg Bool.false_ne_true, hs]
  dsimp only
  rw [Grammar.read_unknown]
  refine Reading.Fails.bind ?_
  refine (Grammar.yields_read (Draft.yields_action_steps _ _)).bind fun d hd => ?_
  show (Draft.takeArgument index token d).Fails
  unfold Draft.takeArgument
  rw [hd]
  split
  · next h => exact absurd h hlist
  · next h => exact absurd h hregister
  · exact Reading.fails_throw

end Fails

/-! ## Lines that take it for something -/

theorem Draft.after_end (d : Draft) (host : Host) (e : Effects) :
    ((do (← Reading.ofExcept d.finish).settle : Reading Record).after host e).1 =
      d.finish >>= (·.consistent host) := by
  rw [Reading.after_bind, Reading.after_ofExcept]
  cases d.finish with
  | error u => rfl
  | ok r => exact r.after_settle host e

section Takes

variable {action : Action} {table : CommandTable} {start index : Nat} {args args' : List String}
  {token : String} {host : Host} {e : Effects} {r : Record}

/-- A line that goes on with an argument, and is taken to its end by a grammar. -/
theorem Grammar.after_read_unknown {α : Type} {g : Grammar α} {a b : α} {s s' : Stream OptionId}
    {e' : Effects} {f : α → Reading Record} (hs : s.GoesOn index token s')
    (h : (g.read a s).after host e = (.ok b, e')) :
    (g.read a s' >>= f).after host e = (g.argument index token b >>= f).after host e' := by
  obtain ⟨events, missing⟩ := s
  obtain rfl : missing = none := hs.missing
  rw [hs.eq, Grammar.read_unknown, bind_assoc, Reading.after_bind, h]

/-- A line that names no guest goes on with the draft that it had come to. -/
theorem exists_draft_of_readGuestLine (hguest : action.takesGuestCommand = false)
    (htarget : action.takesTarget = false)
    (hs : (table.read args (start + 1)).GoesOn index token (table.read args' (start + 1)))
    (h : ((readGuestLine action table start args).after host e).1 = .ok r) :
    ∃ d r₀, d.record.action = action ∧ d.finish = .ok r₀ ∧ r₀.consistent host = .ok r ∧
      ∀ d', Draft.takeArgument index token d = pure d' →
        ((readGuestLine action table start args').after host e).1 =
          d'.finish >>= (·.consistent host) := by
  unfold readGuestLine at h ⊢
  dsimp only at h ⊢
  rw [hguest, htarget, if_neg Bool.false_ne_true, if_neg Bool.false_ne_true] at h
  rw [hguest, htarget, if_neg Bool.false_ne_true, if_neg Bool.false_ne_true]
  obtain ⟨d, e', hd, hend⟩ := Reading.exists_of_after_bind h
  have haction : d.record.action = action :=
    Grammar.yields_read (Draft.yields_action_steps _ _) host e d (by rw [hd])
  rw [Draft.after_end] at hend
  obtain ⟨r₀, hfinish, hconsistent⟩ := bind_eq_ok.1 hend
  refine ⟨d, r₀, haction, hfinish, hconsistent, fun d' hd' => ?_⟩
  rw [Grammar.after_read_unknown hs hd]
  show ((Draft.takeArgument index token d >>= _).after host e').1 = _
  rw [hd', pure_bind, Draft.after_end]

/-- A list is one of what is named. -/
theorem accepts_list_line
    (hs : (table.read args (start + 1)).GoesOn index token (table.read args' (start + 1)))
    (h : ((readGuestLine .list table start args).after host e).1 = .ok r) :
    ∃ r', ((readGuestLine .list table start args').after host e).1 = .ok r' := by
  obtain ⟨d, r₀, haction, hfinish, hconsistent, hline⟩ :=
    exists_draft_of_readGuestLine rfl rfl hs h
  have htake : Draft.takeArgument index token d =
      pure (d.mapRecord fun r => { r with target := some token }) := by
    unfold Draft.takeArgument
    rw [haction]
  rw [hline _ htake, Draft.finish_target, hfinish]
  exact ⟨_, Record.consistent_target hconsistent (some token)⟩

/-- A guest is registered at a path on this host. -/
theorem accepts_register_line_iff (hdash : token.toList.head? = some '-')
    (hs : (table.read args (start + 1)).GoesOn index token (table.read args' (start + 1)))
    (h : ((readGuestLine .register table start args).after host e).1 = .ok r) :
    (∃ r', ((readGuestLine .register table start args').after host e).1 = .ok r') ↔
      r.login.isRemote = false ∧ ∃ full, host.fullPath token = .ok full := by
  obtain ⟨d, r₀, haction, hfinish, hconsistent, hline⟩ :=
    exists_draft_of_readGuestLine rfl rfl hs h
  have hlogin : r₀.login = r.login := by
    obtain ⟨settings, device, rfl⟩ := Record.exists_of_consistent hconsistent
    rfl
  have htake : Draft.takeArgument index token d =
      pure (d.mapRecord (·.set (.text .location) token)) := by
    unfold Draft.takeArgument
    rw [haction]
  rw [hline _ htake, Draft.finish_set_location, hfinish]
  show (∃ r', (r₀.set (.text .location) token).consistent host = .ok r') ↔ _
  rw [Record.consistent_set_location hconsistent, hlogin]
  simp only [Record.resolvePath_of_dash hdash, exists_and_left]

/-- A line whose grammar takes any argument takes this one. -/
theorem Grammar.accepts_unknown {g : Grammar Record} {r₀ : Record} {s s' : Stream OptionId}
    (hargument : ∀ r, ∃ r', g.argument index token r = pure r') (hs : s.GoesOn index token s')
    (h : ((g.read r₀ s).after host e).1 = .ok r) :
    ∃ r', ((g.read r₀ s').after host e).1 = .ok r' := by
  obtain ⟨r', hr'⟩ := hargument r
  have hread : (g.read r₀ s).after host e = (.ok r, ((g.read r₀ s).after host e).2) := by rw [← h]
  refine ⟨r', ?_⟩
  rw [← bind_pure (g.read r₀ s'), Grammar.after_read_unknown hs hread, bind_pure, hr']
  rfl

/-- A line that ends in a check of rules takes an argument if the rules are kept with it. -/
theorem Grammar.accepts_unknown_enforce {g : Grammar Record} {r₀ : Record}
    {rules : Record → List Rule} {s s' : Stream OptionId} (hs : s.GoesOn index token s')
    (h : ((do let r ← g.read r₀ s
              Reading.ofExcept (Rule.enforce (rules r))
              return r : Reading Record).after host e).1 = .ok r) :
    (∀ rule ∈ rules r, rule.broken = false) ∧ ∃ e', ∀ r',
      ((do let r ← g.read r₀ s'
           Reading.ofExcept (Rule.enforce (rules r))
           return r : Reading Record).after host e).1 = .ok r' ↔
        ((g.argument index token r).after host e').1 = .ok r' ∧
          ∀ rule ∈ rules r', rule.broken = false := by
  have hend (r₁ : Record) (e' : Effects) (r₂ : Record) :
      ((do Reading.ofExcept (Rule.enforce (rules r₁))
           return r₁ : Reading Record).after host e').1 = .ok r₂ ↔
        r₁ = r₂ ∧ ∀ rule ∈ rules r₁, rule.broken = false := by
    rw [← Rule.enforce_eq_ok, Reading.after_bind, Reading.after_ofExcept]
    cases Rule.enforce (rules r₁) <;> simp
  obtain ⟨r₁, e', hread, h⟩ := Reading.exists_of_after_bind h
  obtain ⟨rfl, hrules⟩ := (hend r₁ e' r).1 h
  refine ⟨hrules, e', fun r' => ?_⟩
  rw [Grammar.after_read_unknown hs hread, Reading.after_bind]
  generalize (g.argument index token r₁).after host e' = out
  obtain ⟨u | r₂, e''⟩ := out
  · simp
  · rw [hend]
    constructor
    · rintro ⟨rfl, hrules'⟩
      exact ⟨rfl, hrules'⟩
    · rintro ⟨h, hrules'⟩
      cases h
      exact ⟨rfl, hrules'⟩

/-- A list of networks without a name may be of the network by this name. -/
theorem accepts_virtualNetwork_line_iff {verb : String} {command : NetworkCommand}
    (hverb : args[start]? = some verb) (hverb' : args'[start]? = some verb)
    (hcommand : VirtualNetwork.readCommand? verb = some command)
    (hs : (table.read args (start + 1)).GoesOn index token (table.read args' (start + 1)))
    (h : ((readVirtualNetworkLine table start args).after host e).1 = .ok r) :
    (∃ r', ((readVirtualNetworkLine table start args').after host e).1 = .ok r') ↔
      r.network.name = none := by
  have hdrop {args : List String} (h : args[start]? = some verb) :
      ∃ words, args.drop start = verb :: words :=
    List.head?_eq_some_iff.1 ((List.head?_drop ..).trans h)
  obtain ⟨words, hwords⟩ := hdrop hverb
  obtain ⟨words', hwords'⟩ := hdrop hverb'
  simp only [readVirtualNetworkLine, hwords, hcommand] at h
  simp only [readVirtualNetworkLine, hwords', hcommand]
  obtain ⟨hrules, e', hline⟩ := Grammar.accepts_unknown_enforce hs h
  simp only [hline]
  show (∃ r', ((VirtualNetwork.takeName index token r).after host e').1 = .ok r' ∧ _) ↔ _
  unfold VirtualNetwork.takeName
  cases hname : r.network.name with
  | some name => simp
  | none =>
    refine iff_of_true ⟨_, rfl, ?_⟩ rfl
    exact VirtualNetwork.rules_of_unnamed hname hrules token

theorem accepts_privateNetwork_line_iff
    (hverb : ∀ verb, args[start]? = some verb → args'[start]? = some verb)
    (hs : (table.read args (start + 1)).GoesOn index token (table.read args' (start + 1)))
    (h : ((readPrivateNetworkLine table start args).after host e).1 = .ok r) :
    (∃ r', ((readPrivateNetworkLine table start args').after host e).1 = .ok r') ↔
      r.privateNetwork.name = none := by
  unfold readPrivateNetworkLine at h ⊢
  cases hcommand : args[start]?.bind PrivateNetwork.readCommand? with
  | none =>
    rw [hcommand] at h
    cases h
  | some command =>
    obtain ⟨verb, hword, hread⟩ := Option.bind_eq_some_iff.1 hcommand
    have hcommand' : args'[start]?.bind PrivateNetwork.readCommand? = some command := by
      rw [hverb verb hword]
      exact hread
    rw [hcommand] at h
    rw [hcommand']
    obtain ⟨hrules, e', hline⟩ := Grammar.accepts_unknown_enforce hs h
    simp only [hline]
    show (∃ r', ((PrivateNetwork.takeName index token r).after host e').1 = .ok r' ∧ _) ↔ _
    unfold PrivateNetwork.takeName
    cases hname : r.privateNetwork.name with
    | some name => simp
    | none =>
      refine iff_of_true ⟨_, rfl, ?_⟩ rfl
      exact PrivateNetwork.rules_of_unnamed hname hrules token

end Takes

/-! ## Whole lines -/

/-- Whether an accepted line takes an argument that looks like an option and is none: it is complete
as it stands, or takes any name and has none yet, or the argument stands for a path on this host. -/
def Command.TakesStray (c : Command) (args : List String) (host : Host) (r : Record)
    (token : String) : Prop :=
  c.isClosed args = true ∨
    match c with
    | .line .guest action _ _ => action = .list ∨
        action = .register ∧ r.login.isRemote = false ∧ ∃ full, host.fullPath token = .ok full
    | .line .statistics _ _ _ => True
    | .line .backupList _ _ _ => True
    | .family .virtualNetwork _ _ => r.network.name = none
    | .family .privateNetwork _ _ => r.privateNetwork.name = none
    | _ => False

section Lines

variable {action : Action} {table : CommandTable} {start : Nat} {args : List String}
  {token : String} {host : Host} {e : Effects} {r : Record}

theorem Reading.Fails.accepts_iff {x : Reading Record} (hx : x.Fails) :
    (∃ r', (x.after host e).1 = .ok r') ↔ False :=
  ⟨fun ⟨r', hr'⟩ => hx host e r' hr', False.elim⟩

theorem LineKind.accepts_stray_iff {kind : LineKind}
    (hguest : (Command.line kind action table start).runsGuestCommand = false)
    (hdash : token.toList.head? = some '-')
    (hs : (kind.stream action table start args).GoesOn args.length token
      (kind.stream action table start (args ++ [token])))
    (h : ((kind.read action table start args).after host e).1 = .ok r) :
    (∃ r', ((kind.read action table start (args ++ [token])).after host e).1 = .ok r') ↔
      (Command.line kind action table start).TakesStray args host r token := by
  unfold Command.TakesStray
  rw [or_iff_right (by exact Bool.false_ne_true)]
  cases kind with
  | guest =>
    rw [LineKind.stream_guest hguest, LineKind.stream_guest hguest] at hs
    by_cases hlist : action = .list
    · subst hlist
      exact iff_of_true (accepts_list_line hs h) (.inl rfl)
    by_cases hregister : action = .register
    · subst hregister
      refine (accepts_register_line_iff hdash hs h).trans ?_
      simp
    · refine (fails_readGuestLine hguest hlist hregister hs.eq).accepts_iff.trans ?_
      simp [hlist, hregister]
  | statistics =>
    exact iff_of_true (Grammar.accepts_unknown (fun _ => ⟨_, rfl⟩) hs h) trivial
  | backupList =>
    exact iff_of_true (Grammar.accepts_unknown (fun _ => ⟨_, rfl⟩) hs h) trivial
  | migration => exact (fails_readMigrationLine hs.eq).accepts_iff
  | backup => exact (fails_readBackupLine hs.eq).accepts_iff
  | restore => exact (fails_readBackupChoice hdash hs.eq).accepts_iff
  | backupDelete => exact (fails_readBackupChoice hdash hs.eq).accepts_iff
  | server => exact (fails_readServerLine hs.eq).accepts_iff
  | problemReport => exact (fails_readProblemReportLine hs.eq).accepts_iff

theorem FamilyKind.accepts_stray_iff {kind : FamilyKind}
    (hopen : (Command.family kind table start).isClosed args = false)
    (hs : (kind.stream table start args).GoesOn args.length token
      (kind.stream table start (args ++ [token])))
    (h : ((kind.read table start args).after host e).1 = .ok r) :
    (∃ r', ((kind.read table start (args ++ [token])).after host e).1 = .ok r') ↔
      (Command.family kind table start).TakesStray args host r token := by
  unfold Command.TakesStray
  rw [hopen, or_iff_right Bool.false_ne_true]
  cases kind with
  | nodeBackup => exact Reading.Fails.accepts_iff (refuses_recordGrammar.fails_read hs.eq _)
  | virtualNetwork =>
    obtain ⟨command, hcommand⟩ := Option.isSome_iff_exists.1 (Option.isNone_eq_false_iff.1 hopen)
    obtain ⟨verb, hverb, hread⟩ := Option.bind_eq_some_iff.1 hcommand
    have hverb' : (args ++ [token])[start]? = some verb := getElem?_append_of_eq_some hverb _
    simp only [stream, List.head?_drop, hverb, hverb', Option.bind_some, hread] at hs
    exact accepts_virtualNetwork_line_iff hverb hverb' hread hs h
  | privateNetwork =>
    exact accepts_privateNetwork_line_iff (fun _ hverb => getElem?_append_of_eq_some hverb _) hs h
  | usb => exact (fails_readUsbLine hs.eq).accepts_iff
  | shaping => exact (fails_readShapingLine hs.eq).accepts_iff
  | template =>
    have hcopy : args[start]? = some "copy" := by simpa [Command.isClosed] using hopen
    exact (fails_readTemplateLine (getElem?_append_of_eq_some hcopy _) hs.eq).accepts_iff

end Lines

namespace Program

variable {p : Program} {args : List String} {c : Command} {host : Host} {start : Preferences}
  {r : Record} {token : String}

/-- An accepted line that does not end in a command goes on with an argument that looks like an
option and is none exactly if it takes such an argument. -/
theorem accepts_stray_iff (hc : p.command? args = some c)
    (hc' : p.command? (args ++ [token]) = some c)
    (haccepted : ((p.read args).perform host start).1 = .ok r) (hexec : args[1]? ≠ some "exec")
    (hinternal : args[1]? ≠ some "internal") (hlacks : c.table.Lacks token) :
    (∃ r', ((p.read (args ++ [token])).perform host start).1 = .ok r') ↔
      c.TakesStray args host r token := by
  have hguest := runsGuestCommand_of_command? hc hexec hinternal
  have hstream (hopen : c.isClosed args = false) (hmonitor : c ≠ .monitor) :
      (c.stream args).GoesOn args.length token (c.stream (args ++ [token])) := by
    obtain ⟨hmissing, hs⟩ := stream_append hc haccepted hexec hinternal hopen hmonitor hlacks.head?
      (hlacks.piece args.length).pieces
    exact ⟨hmissing, hs⟩
  rw [read_of_command? hc] at haccepted
  rw [read_of_command? hc']
  cases hclosed : c.isClosed args with
  | true =>
    obtain ⟨r', hr', -⟩ := Command.exists_of_isClosed hclosed haccepted [token]
    exact iff_of_true ⟨r', hr'⟩ (.inl hclosed)
  | false =>
    cases c with
    | line kind action table start =>
      exact LineKind.accepts_stray_iff hguest hlacks.head? (hstream hclosed nofun) haccepted
    | family kind table start =>
      exact FamilyKind.accepts_stray_iff hclosed (hstream hclosed nofun) haccepted
    | monitor =>
      refine iff_of_false (fun ⟨r', hr'⟩ => ?_) (by simp [Command.TakesStray, Command.isClosed])
      cases eq_nil_of_readMonitorLine haccepted hr'

/-- **An argument that looks like an option and is none is turned down at the end of an accepted
line that does not end in a command**, unless the line takes such arguments.  The one that asks for
help is always turned down by the program for guests. -/
theorem stray_is_refused_iff (hc : p.command? args = some c)
    (haccepted : ((p.read args).perform host start).1 = .ok r) (hexec : args[1]? ≠ some "exec")
    (hinternal : args[1]? ≠ some "internal") (hlacks : c.table.Lacks token) :
    (∃ u, ((p.read (args ++ [token])).perform host start).1 = .error u) ↔
      (p = .guests ∧ token = "--help") ∨ ¬ c.TakesStray args host r token := by
  have hrefused : (∃ u, ((p.read (args ++ [token])).perform host start).1 = .error u) ↔
      ¬ ∃ r', ((p.read (args ++ [token])).perform host start).1 = .ok r' := by
    cases ((p.read (args ++ [token])).perform host start).1 <;> simp
  rw [hrefused]
  by_cases hhelp : p = .guests ∧ token = "--help"
  · obtain ⟨rfl, rfl⟩ := hhelp
    refine iff_of_true (fun ⟨r', hr'⟩ => ?_) (.inl ⟨rfl, rfl⟩)
    exact help_notMem hr' (List.mem_append_right _ (List.mem_singleton_self _))
  · have hc' : p.command? (args ++ [token]) = some c :=
      command?_append hc fun hp hmem => hhelp ⟨hp, (List.mem_singleton.1 hmem).symm⟩
    rw [or_iff_right hhelp, accepts_stray_iff hc hc' haccepted hexec hinternal hlacks]

end Program

/-- An option that does not exist is turned down at the end of `prlctl start vm1`. -/
theorem stray_after_start_is_refused : ∃ r,
    ((Program.guests.read ["prlctl", "start", "vm1"]).perform
      ⟨fun _ => .error "", fun _ => .error ""⟩ .initial).1 = .ok r ∧
    ∃ u, ((Program.guests.read ["prlctl", "start", "vm1", "--bogus"]).perform
      ⟨fun _ => .error "", fun _ => .error ""⟩ .initial).1 = .error u := by
  have hstream : CommandTable.start.read ["prlctl", "start", "vm1"] 3 = ∅ :=
    Table.read_eq_of_streamWithin (n := 1) (by rfl)
  have hread : ∃ r, ((Program.guests.read ["prlctl", "start", "vm1"]).perform
      ⟨fun _ => .error "", fun _ => .error ""⟩ .initial).1 = .ok r := by
    show ∃ r, ((readGuestLine .start CommandTable.start 2 _).perform _ _).1 = .ok r
    unfold readGuestLine
    rw [hstream]
    exact ⟨_, rfl⟩
  obtain ⟨r, hr⟩ := hread
  have hlacks : CommandTable.start.Lacks "--bogus" := by
    show CommandTable.start.findLong? "bogus" = none
    decide
  refine ⟨r, hr, (Program.stray_is_refused_iff (c := .line .guest .start CommandTable.start 2)
    rfl hr (by decide) (by decide) hlacks).2 (.inr ?_)⟩
  simp [Command.TakesStray, Command.isClosed]

/-- An option that does not exist is taken for a guest at the end of `prlctl statistics vm1`: the
statistics asked for are those of a guest by its name. -/
theorem stray_is_taken_for_guest : ∃ r r',
    ((Program.guests.read ["prlctl", "statistics", "vm1"]).perform
      ⟨fun _ => .error "", fun _ => .error ""⟩ .initial).1 = .ok r ∧ r.target = some "vm1" ∧
    CommandTable.statistics.Lacks "--bogus" ∧
    ((Program.guests.read ["prlctl", "statistics", "vm1", "--bogus"]).perform
      ⟨fun _ => .error "", fun _ => .error ""⟩ .initial).1 = .ok r' ∧
    r'.target = some "--bogus" := by
  have hstream : CommandTable.statistics.read ["prlctl", "statistics", "vm1"] 2 =
      ⟨[.unknown 2 "vm1"], none⟩ :=
    Table.read_eq_of_streamWithin (n := 2) (by rfl)
  have hstream' : CommandTable.statistics.read ["prlctl", "statistics", "vm1", "--bogus"] 2 =
      ⟨[.unknown 2 "vm1", .unknown 3 "--bogus"], none⟩ :=
    Table.read_eq_of_streamWithin (n := 3) (by rfl)
  have hread : ∃ r, ((Program.guests.read ["prlctl", "statistics", "vm1"]).perform
      ⟨fun _ => .error "", fun _ => .error ""⟩ .initial).1 = .ok r ∧ r.target = some "vm1" := by
    show ∃ r, ((readStatisticsLine .perfStats _ 2 _).perform _ _).1 = .ok r ∧ _
    unfold readStatisticsLine
    rw [hstream]
    exact ⟨_, rfl, rfl⟩
  have hread' : ∃ r, ((Program.guests.read ["prlctl", "statistics", "vm1", "--bogus"]).perform
      ⟨fun _ => .error "", fun _ => .error ""⟩ .initial).1 = .ok r ∧
      r.target = some "--bogus" := by
    show ∃ r, ((readStatisticsLine .perfStats _ 2 _).perform _ _).1 = .ok r ∧ _
    unfold readStatisticsLine
    rw [hstream']
    exact ⟨_, rfl, rfl⟩
  obtain ⟨r, hr, htarget⟩ := hread
  obtain ⟨r', hr', htarget'⟩ := hread'
  refine ⟨r, r', hr, htarget, ?_, hr', htarget'⟩
  show CommandTable.statistics.findLong? "bogus" = none
  decide

end VmControl
