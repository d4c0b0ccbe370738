import VmControl.Proofs.Line.Login
import VmControl.Proofs.Line.Roster
import VmControl.Proofs.Options.Continuation

/-!
# Lines that go on

An accepted line is read to its end, so options that are added to it are read after its own.  This
holds of all commands but those that are complete as they stand: they do not look at what follows.

## Main definitions

* `Command.isClosed`: the lines that are complete as they stand.
* `Command.firstOption?`: where the options of a line start.

## Main statements

* `Program.command?_append`: a line that goes on is for the same command.
* `Program.stream_append`: what is added is read after what the line has already.
-/

namespace VmControl

open Options

/-- Events that come later are taken later. -/
theorem Grammar.steps_append {α : Type} (g : Grammar α) (a : α)
    (events events' : List (Event OptionId)) :
    g.steps a (events ++ events') = g.steps a events >>= fun b => g.steps b events' :=
  List.foldlM_append ..

/-! ## Where options start -/

/-- Where the options of a line of a kind start. -/
def LineKind.firstOption (kind : LineKind) (action : Action) (start : Nat) : Nat :=
  match kind with
  | .guest => start + 1
  | .migration => start + 2
  | .backup => start + 1
  | .backupList => start + 1
  | .problemReport => if action = .problemReport then start + 1 else start
  | _ => start

/-- Where the options of a line of a family start, if it has the words that come before them. -/
def FamilyKind.firstOption? (kind : FamilyKind) (start : Nat) (args : List String) : Option Nat :=
  match kind with
  | .nodeBackup => some start
  | .virtualNetwork => (args[start]?.bind VirtualNetwork.readCommand?).map fun _ => start + 1
  | .privateNetwork => some (start + 1)
  | .usb => (UsbAssignment.ofWords? (args.drop start)).map fun (_, words) => start + words
  | .shaping => some (start + 1)
  | .template =>
    if args[start]? = some "copy" then
      match args.drop (start + 1) with
      | _ :: _ :: rest => some (start + 1 + 2 + (TemplateCopy.systemTemplate rest).2)
      | _ => none
    else none

/-- Where the options of a line start. -/
def Command.firstOption? (c : Command) (args : List String) : Option Nat :=
  match c with
  | .line kind action _ start => some (kind.firstOption action start)
  | .family kind _ start => kind.firstOption? start args
  | .monitor => none

/-- Whether a line is complete as it stands, whatever follows: the short forms about virtual
networks, and lists and removals of templates. -/
def Command.isClosed (c : Command) (args : List String) : Bool :=
  match c with
  | .family .virtualNetwork _ start => (args[start]?.bind VirtualNetwork.readCommand?).isNone
  | .family .template _ start => args[start]? != some "copy"
  | _ => false

/-- The options of a command. -/
def Command.table : Command → CommandTable
  | .line _ _ table _ => table
  | .family _ table _ => table
  | .monitor => ⟨[]⟩

/-- Whether a line ends in a command that is run inside the guest. -/
def Command.runsGuestCommand : Command → Bool
  | .line .guest action _ _ => action.takesGuestCommand
  | _ => false

theorem LineKind.stream_guest {action : Action} {table : CommandTable} {start : Nat}
    {args : List String} (hguest : action.takesGuestCommand = false) :
    LineKind.guest.stream action table start args = table.read args (start + 1) := by
  simp only [stream, hguest, Bool.false_eq_true, if_false]

/-- A line is read from its first option on. -/
theorem Command.stream_eq_read {c : Command} {args : List String} {n : Nat}
    (hguest : c.runsGuestCommand = false) (h : c.firstOption? args = some n) :
    c.stream args = c.table.read args n := by
  cases c with
  | line kind action table start =>
    cases h
    cases kind with
    | guest => exact LineKind.stream_guest hguest
    | _ => rfl
  | family kind table start =>
    cases kind with
    | virtualNetwork =>
      obtain ⟨command, hcommand, rfl⟩ := Option.map_eq_some_iff.1 h
      simp only [stream, FamilyKind.stream, List.head?_drop, hcommand]
      rfl
    | usb =>
      obtain ⟨usb, husb, rfl⟩ := Option.map_eq_some_iff.1 h
      simp only [stream, FamilyKind.stream, husb]
      rfl
    | template =>
      simp only [firstOption?, FamilyKind.firstOption?] at h
      by_cases hcopy : args[start]? = some "copy"
      · have hhead : (args.drop start).head? = some "copy" := (List.head?_drop ..).trans hcopy
        rw [if_pos hcopy] at h
        simp only [stream, FamilyKind.stream]
        rw [if_pos hhead]
        generalize args.drop (start + 1) = words at h ⊢
        rcases words with _ | ⟨host, _ | ⟨name, rest⟩⟩
        · cases h
        · cases h
        · cases h
          rfl
      · rw [if_neg hcopy] at h
        cases h
    | _ =>
      cases h
      rfl
  | monitor => cases h

/-! ## Lines that are accepted -/

/-- An accepted line misses no value. -/
theorem Command.yields_missing (c : Command) (args : List String) :
    (c.read args).Yields fun _ => (c.stream args).missing = none := by
  refine (c.takes_read args (fun _ _ => (c.stream args).missing = none)
    fun α g record hg a => ?_).mono ?_
  · unfold Grammar.read
    refine Reading.yields_bind fun b => ?_
    cases hmissing : (c.stream args).missing with
    | none => exact Reading.yields_pure rfl
    | some u => exact Reading.yields_throw
  · rintro r ⟨r₀, r₁, -, -, hmissing, -, -⟩
    exact hmissing

theorem UsbAssignment.ofWords?_le {words : List String} {usb : UsbAssignment} {n : Nat}
    (h : ofWords? words = some (usb, n)) : n ≤ words.length := by
  unfold ofWords? at h
  split at h <;> cases h <;> simp

theorem TemplateCopy.systemTemplate_le (words : List String) :
    (systemTemplate words).2 ≤ words.length := by
  unfold systemTemplate
  split
  · split <;> simp
  · exact Nat.le_refl 0

/-- Whether the words of a command leave room for what comes before its options.  Lines for
migrations need two words besides, and those of families at least say what is to be done. -/
def Command.HasRoom (words : Nat) : Command → Prop
  | .line kind action _ start => kind = .migration ∨ kind.firstOption action start ≤ words
  | .family _ _ start => start ≤ words
  | .monitor => True

instance (words : Nat) (c : Command) : Decidable (c.HasRoom words) :=
  match c with
  | .line kind action _ start =>
    inferInstanceAs (Decidable (kind = .migration ∨ kind.firstOption action start ≤ words))
  | .family _ _ start => inferInstanceAs (Decidable (start ≤ words))
  | .monitor => .isTrue trivial

theorem Program.hasRoom_of_command {p : Program} {args : List String} {c : Command}
    (h : p.command args = .ok c) : c.HasRoom args.length := by
  have hroster : ∀ l ∈ p.roster, l.command.HasRoom l.words := by cases p <;> decide
  obtain ⟨l, hl, rfl, -, hwords⟩ := exists_listing h
  have hroom := hroster l hl
  revert hroom
  cases l.command with
  | line kind action table start => exact fun h => h.imp_right fun h => Nat.le_trans h hwords
  | family kind table start => exact fun h => Nat.le_trans h hwords
  | monitor => exact fun h => h

theorem length_of_getElem? {args : List String} {i : Nat} {arg : String}
    (h : args[i]? = some arg) : i + 1 ≤ args.length :=
  (List.getElem?_eq_some_iff.1 h).1

/-- An accepted line of a family has the words that come before its options, unless it is complete
as it stands. -/
theorem FamilyKind.yields_firstOption {kind : FamilyKind} {table : CommandTable} {start : Nat}
    {args : List String} (hroom : start ≤ args.length)
    (hopen : (Command.family kind table start).isClosed args = false) :
    (kind.read table start args).Yields fun _ =>
      ∃ n, kind.firstOption? start args = some n ∧ n ≤ args.length := by
  cases kind with
  | nodeBackup => exact Reading.yields_of_forall fun _ => ⟨start, rfl, hroom⟩
  | virtualNetwork =>
    refine Reading.yields_of_forall fun _ => ?_
    obtain ⟨command, hcommand⟩ := Option.isSome_iff_exists.1 (Option.isNone_eq_false_iff.1 hopen)
    obtain ⟨verb, hverb, -⟩ := Option.bind_eq_some_iff.1 hcommand
    exact ⟨start + 1, by simp only [firstOption?, hcommand]; rfl, length_of_getElem? hverb⟩
  | privateNetwork =>
    unfold read readPrivateNetworkLine
    dsimp only
    split
    · exact Reading.yields_throw
    · next hcommand =>
      obtain ⟨verb, hverb, -⟩ := Option.bind_eq_some_iff.1 hcommand
      exact Reading.yields_of_forall fun _ => ⟨start + 1, rfl, length_of_getElem? hverb⟩
  | usb =>
    unfold read readUsbLine
    dsimp only
    split
    · exact Reading.yields_throw
    · next usb words husb =>
      refine Reading.yields_of_forall fun _ => ⟨start + words, by simp [firstOption?, husb], ?_⟩
      have hle := UsbAssignment.ofWords?_le husb
      rw [List.length_drop] at hle
      omega
  | shaping =>
    unfold read readShapingLine
    dsimp only
    split
    · next hverb =>
      exact Reading.yields_of_forall fun _ => ⟨start + 1, rfl, length_of_getElem? hverb⟩
    · exact Reading.yields_throw
  | template =>
    have hcopy : args[start]? = some "copy" := by simpa [Command.isClosed] using hopen
    obtain ⟨words, hwords⟩ := List.head?_eq_some_iff.1 ((List.head?_drop ..).trans hcopy)
    unfold read readTemplateLine
    dsimp only
    rw [hwords]
    show (readTemplateCopyLine table (start + 1) args).Yields _
    unfold readTemplateCopyLine
    split
    · next host name rest hrest =>
      refine Reading.yields_of_forall fun _ =>
        ⟨start + 1 + 2 + (TemplateCopy.systemTemplate rest).2, ?_, ?_⟩
      · simp [firstOption?, hcopy, hrest]
      · have hlength := congrArg List.length hrest
        have hle := TemplateCopy.systemTemplate_le rest
        rw [List.length_drop, List.length_cons, List.length_cons] at hlength
        omega
    · exact Reading.yields_throw

theorem LineKind.yields_firstOption {kind : LineKind} {action : Action} {table : CommandTable}
    {start : Nat} {args : List String}
    (hroom : kind = .migration ∨ kind.firstOption action start ≤ args.length) :
    (kind.read action table start args).Yields fun _ =>
      kind.firstOption action start ≤ args.length := by
  rcases hroom with rfl | hroom
  · unfold read readMigrationLine
    dsimp only
    split
    · next hdestination => exact Reading.yields_of_forall fun _ => length_of_getElem? hdestination
    · exact Reading.yields_throw
  · exact Reading.yields_of_forall fun _ => hroom

/-- **The options of an accepted line start within the line**, unless it is complete as it
stands. -/
theorem Command.yields_firstOption {c : Command} {args : List String}
    (hroom : c.HasRoom args.length) (hopen : c.isClosed args = false) (hmonitor : c ≠ .monitor) :
    (c.read args).Yields fun _ => ∃ n, c.firstOption? args = some n ∧ n ≤ args.length := by
  cases c with
  | line kind action table start =>
    exact (LineKind.yields_firstOption hroom).mono fun _ h => ⟨_, rfl, h⟩
  | family kind table start => exact FamilyKind.yields_firstOption hroom hopen
  | monitor => exact absurd rfl hmonitor

/-- The line that watches the server has two words. -/
theorem length_of_readMonitorLine {args : List String} {host : Host} {e : Effects} {r : Record}
    (h : ((readMonitorLine args).after host e).1 = .ok r) : args.length = 2 := by
  unfold readMonitorLine at h
  split at h
  · assumption
  · cases h

/-- So it does not go on. -/
theorem eq_nil_of_readMonitorLine {args extra : List String} {host : Host} {e : Effects}
    {r r' : Record} (h : ((readMonitorLine args).after host e).1 = .ok r)
    (h' : ((readMonitorLine (args ++ extra)).after host e).1 = .ok r') : extra = [] := by
  have hlength := length_of_readMonitorLine h
  have hlength' := length_of_readMonitorLine h'
  rw [List.length_append] at hlength'
  exact List.length_eq_zero_iff.1 (by omega)

/-! ## What is added to a line -/

section Append

variable {args extra : List String} {token : String}

theorem getElem?_append_of_eq_some {i : Nat} {arg : String} (h : args[i]? = some arg)
    (extra : List String) : (args ++ extra)[i]? = some arg := by
  rw [List.getElem?_append_left (length_of_getElem? h), h]

theorem UsbAssignment.ofWords?_append {usb : UsbAssignment × Nat} (h : ofWords? args = some usb)
    (extra : List String) : ofWords? (args ++ extra) = some usb := by
  unfold ofWords? at h
  split at h <;> cases h <;> rfl

/-- What looks like an option is no system template. -/
theorem TemplateCopy.systemTemplate_append (hdash : token.toList.head? = some '-')
    (words : List String) :
    systemTemplate (words ++ token :: extra) = systemTemplate words := by
  cases words with
  | nil => exact if_pos hdash
  | cons word words => rfl

/-- The options of a line that goes on start where they started before. -/
theorem FamilyKind.firstOption?_append {kind : FamilyKind} {start n : Nat}
    (hdash : token.toList.head? = some '-') (h : kind.firstOption? start args = some n) :
    kind.firstOption? start (args ++ token :: extra) = some n := by
  cases kind with
  | virtualNetwork =>
    obtain ⟨command, hcommand, rfl⟩ := Option.map_eq_some_iff.1 h
    obtain ⟨verb, hverb, hread⟩ := Option.bind_eq_some_iff.1 hcommand
    simp only [firstOption?, getElem?_append_of_eq_some hverb, Option.bind_some, hread,
      Option.map_some]
  | usb =>
    obtain ⟨usb, husb, rfl⟩ := Option.map_eq_some_iff.1 h
    have hstart : start ≤ args.length := by
      refine Decidable.byContradiction fun hlt => ?_
      rw [List.drop_eq_nil_of_le (Nat.le_of_not_le hlt)] at husb
      cases husb
    simp only [firstOption?, List.drop_append_of_le_length hstart,
      UsbAssignment.ofWords?_append husb, Option.map_some]
  | template =>
    simp only [firstOption?] at h ⊢
    split at h
    · next hcopy =>
      rw [if_pos (getElem?_append_of_eq_some hcopy _),
        List.drop_append_of_le_length (length_of_getElem? hcopy)]
      split at h
      · next hwords =>
        cases h
        rw [hwords]
        simp only [List.cons_append, TemplateCopy.systemTemplate_append hdash]
      · cases h
    · cases h
  | _ => exact h

theorem Command.firstOption?_append {c : Command} {n : Nat} (hdash : token.toList.head? = some '-')
    (h : c.firstOption? args = some n) : c.firstOption? (args ++ token :: extra) = some n := by
  cases c with
  | line kind action table start => exact h
  | family kind table start => exact FamilyKind.firstOption?_append hdash h
  | monitor => cases h

/-- What is added to a line is read after what is on the line already. -/
theorem Command.stream_append {c : Command} {n : Nat} {events : List (Event OptionId)}
    (hguest : c.runsGuestCommand = false) (hfirst : c.firstOption? args = some n)
    (hle : n ≤ args.length) (hmissing : (c.stream args).missing = none)
    (hdash : token.toList.head? = some '-')
    (hextra : Pieces c.table args.length events (token :: extra)) :
    c.stream (args ++ token :: extra) = ⟨(c.stream args).events ++ events, none⟩ := by
  have hstream := stream_eq_read hguest hfirst
  rw [stream_eq_read hguest (firstOption?_append hdash hfirst)]
  refine Table.read_append hle ?_ hextra
  rw [← hstream, ← hmissing]

end Append

/-! ## What is added to a line that is complete -/

theorem VirtualNetwork.shortForm?_append {verb : String} {words : List String}
    {network : VirtualNetwork} (h : shortForm? verb words = some network) (extra : List String) :
    shortForm? verb (words ++ extra) = some network := by
  unfold shortForm? at h
  dsimp only at h
  split at h <;> cases h <;> rfl

/-- **A line that is complete as it stands is accepted whatever is added to it**, and is about this
host. -/
theorem Command.exists_of_isClosed {c : Command} {args : List String} {host : Host} {e : Effects}
    {r : Record} (hclosed : c.isClosed args = true) (h : ((c.read args).after host e).1 = .ok r)
    (extra : List String) :
    ∃ r', ((c.read (args ++ extra)).after host e).1 = .ok r' ∧ r'.login = ∅ := by
  have hdrop {start : Nat} {verb : String} {words : List String}
      (hwords : args.drop start = verb :: words) :
      args[start]? = some verb ∧ (args ++ extra).drop start = verb :: (words ++ extra) := by
    have hverb : args[start]? = some verb := by rw [← List.head?_drop, hwords]; rfl
    refine ⟨hverb, ?_⟩
    rw [List.drop_append_of_le_length (Nat.le_of_lt (length_of_getElem? hverb)), hwords]
    rfl
  cases c with
  | line kind action table start => cases hclosed
  | monitor => cases hclosed
  | family kind table start =>
    cases kind with
    | virtualNetwork =>
      simp only [read, FamilyKind.read, readVirtualNetworkLine] at h ⊢
      cases hwords : args.drop start with
      | nil =>
        rw [hwords] at h
        cases h
      | cons verb words =>
        obtain ⟨hverb, happend⟩ := hdrop hwords
        have hcommand : VirtualNetwork.readCommand? verb = none := by
          simpa [isClosed, hverb] using hclosed
        rw [hwords] at h
        simp only [hcommand] at h
        rw [happend]
        simp only [hcommand]
        cases hform : VirtualNetwork.shortForm? verb words with
        | none =>
          rw [hform] at h
          cases h
        | some network =>
          rw [VirtualNetwork.shortForm?_append hform]
          exact ⟨_, rfl, rfl⟩
    | template =>
      simp only [read, FamilyKind.read, readTemplateLine] at h ⊢
      cases hwords : args.drop start with
      | nil =>
        rw [hwords] at h
        cases h
      | cons verb words =>
        obtain ⟨hverb, happend⟩ := hdrop hwords
        have hcopy : verb ≠ "copy" := by simpa [isClosed, hverb] using hclosed
        rw [hwords] at h
        rw [happend]
        split at h
        · next heq =>
          cases heq
          exact ⟨_, rfl, by split <;> rfl⟩
        · next heq =>
          cases heq
          exact ⟨_, rfl, rfl⟩
        · cases h
        · next heq =>
          cases heq
          exact absurd rfl hcopy
        · cases h
        · cases h
    | _ => cases hclosed

namespace Program

variable {p : Program} {args extra : List String} {c : Command}

theorem guestCommand_append {words : List String} (h : guestCommand words = .ok c)
    (extra : List String) : guestCommand (words ++ extra) = .ok c := by
  unfold guestCommand at h
  split at h
  · cases h
  · exact h
  · exact h
  · cases h
  · exact h
  · next verb rest hlist hbackup hone hserver =>
    obtain ⟨word, rest, rfl⟩ := List.exists_cons_of_ne_nil (hone ·)
    have hverb : verb ≠ "server" := fun hverb => hserver word rest hverb rfl
    rw [List.cons_append, List.cons_append, guestCommand]
    · exact h
    · exact hlist
    · exact hbackup
    · exact List.cons_ne_nil _ _
    · exact fun _ _ hserver _ => hverb hserver

theorem serverCommand_append {words : List String} (h : serverCommand words = .ok c)
    (extra : List String) : serverCommand (words ++ extra) = .ok c := by
  unfold serverCommand at h
  split at h
  · cases h
  · next rest =>
    rcases rest with _ | ⟨word, rest⟩
    · exact absurd rfl (listing_of_userCommand h).1
    · exact h
  · exact h
  · next verb rest huser hmonitor =>
    rw [List.cons_append, serverCommand]
    · exact h
    · exact huser
    · exact hmonitor

/-- **A line that goes on is for the same command**, unless help is asked for. -/
theorem command?_append (h : p.command? args = some c) (hhelp : p = .guests → "--help" ∉ extra) :
    p.command? (args ++ extra) = some c := by
  obtain ⟨hnone, hcommand⟩ := command?_eq_some.1 h
  rcases args with _ | ⟨name, words⟩
  · cases p <;> cases hcommand
  rcases words with _ | ⟨verb, words⟩
  · cases p <;> cases hcommand
  refine command?_eq_some.2 ⟨?_, ?_⟩
  · cases p with
    | guests =>
      have hversion : verb ≠ "--version" := by
        rintro rfl
        cases hnone
      have hasked : "--help" ∉ name :: verb :: words := by
        intro hmem
        simp [help?, hversion, hmem] at hnone
      have hnever : "--help" ∉ name :: verb :: words ++ extra := fun hmem =>
        (List.mem_append.1 hmem).elim hasked (hhelp rfl)
      show (if verb = "--version" then _ else if "--help" ∈ name :: verb :: words ++ extra then _
        else none) = none
      rw [if_neg hversion, if_neg hnever]
    | server => exact hnone
  · cases p with
    | guests => exact guestCommand_append hcommand extra
    | server => exact serverCommand_append hcommand extra

/-- A line about guests that asks for help is not accepted. -/
theorem help_notMem {host : Host} {e : Effects} {r : Record}
    (h : ((guests.read args).after host e).1 = .ok r) : "--help" ∉ args := by
  intro hmem
  obtain ⟨c', hc'⟩ := exists_command h
  obtain ⟨hhelp, -⟩ := command?_eq_some.1 hc'
  rcases args with _ | ⟨name, _ | ⟨verb, words⟩⟩
  · cases hmem
  · cases hhelp
  · simp [help?, hmem] at hhelp
    split at hhelp <;> cases hhelp

/-- An accepted line that goes on is for the same command. -/
theorem command?_of_append {host : Host} {e : Effects} {r : Record} (hc : p.command? args = some c)
    (h : ((p.read (args ++ extra)).after host e).1 = .ok r) :
    p.command? (args ++ extra) = some c := by
  refine command?_append hc ?_
  rintro rfl hmem
  exact help_notMem h (List.mem_append_right _ hmem)

/-- Only two verbs are for lines that end in a command. -/
theorem runsGuestCommand_of_command? (hc : p.command? args = some c)
    (hexec : args[1]? ≠ some "exec") (hinternal : args[1]? ≠ some "internal") :
    c.runsGuestCommand = false := by
  have hroster : ∀ l ∈ p.roster,
      l.command.runsGuestCommand = false ∨ l.verb = "exec" ∨ l.verb = "internal" := by
    cases p <;> decide
  obtain ⟨l, hl, rfl, hverb, -⟩ := exists_listing (command?_eq_some.1 hc).2
  rcases hroster l hl with h | h | h
  · exact h
  · exact absurd (h ▸ hverb) hexec
  · exact absurd (h ▸ hverb) hinternal

/-- **What is added to an accepted line is read after what the line has already.** -/
theorem stream_append {host : Host} {e : Effects} {r : Record} {token : String}
    {events : List (Event OptionId)} (hc : p.command? args = some c)
    (haccepted : ((p.read args).after host e).1 = .ok r) (hexec : args[1]? ≠ some "exec")
    (hinternal : args[1]? ≠ some "internal") (hopen : c.isClosed args = false)
    (hmonitor : c ≠ .monitor) (hdash : token.toList.head? = some '-')
    (hextra : Pieces c.table args.length events (token :: extra)) :
    (c.stream args).missing = none ∧
      c.stream (args ++ token :: extra) = ⟨(c.stream args).events ++ events, none⟩ := by
  rw [read_of_command? hc] at haccepted
  have hroom := hasRoom_of_command (command?_eq_some.1 hc).2
  have hmissing := c.yields_missing args host e r haccepted
  obtain ⟨n, hfirst, hle⟩ := Command.yields_firstOption hroom hopen hmonitor host e r haccepted
  exact ⟨hmissing, Command.stream_append (runsGuestCommand_of_command? hc hexec hinternal) hfirst
    hle hmissing hdash hextra⟩

end Program

end VmControl
