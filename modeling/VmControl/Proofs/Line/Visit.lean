import VmControl.Proofs.Line.Roster
import VmControl.Proofs.Line.Wiping

/-!
# What a reading comes to

A reading comes to options and logins one after the other, until it ends or fails.  Those that it
came to are the first ones of the line, and all of them if it does not fail; their credentials are
wiped, and nothing else.

## Main statements

* `Grammar.Wipes.visits_steps`: taking options and arguments comes to the options.
* `Command.visits_read`: reading a line comes to its options and its logins.
* `Program.visits_read`: so does a program.
-/

namespace VmControl

open Options

/-! ## Visits -/

/-- What a reading came to between two moments. -/
structure Visit (e e' : Effects) (ms : List (Match OptionId)) (ls : List PlacedLogin) : Prop where
  /-- The options. -/
  options : e'.options = e.options ++ ms
  /-- The logins. -/
  logins : e'.logins = e.logins ++ ls
  /-- Their credentials were wiped. -/
  wiped : ∀ s, s ∈ e'.wiped ↔ s ∈ e.wiped ∨ s ∈ credentialSlots ms ls
  /-- The logins are well formed. -/
  wellFormed : ∀ l ∈ ls, (LoginText.read l.text).isSome

theorem mem_credentialSlots_append {ms ms' : List (Match OptionId)} {ls ls' : List PlacedLogin}
    {s : Slot} : s ∈ credentialSlots (ms ++ ms') (ls ++ ls') ↔
      s ∈ credentialSlots ms ls ∨ s ∈ credentialSlots ms' ls' := by
  simp only [credentialSlots, List.filterMap_append, List.mem_append]
  exact or_or_or_comm

theorem Visit.refl (e : Effects) : Visit e e [] [] :=
  ⟨by simp, by simp, by simp [credentialSlots], by simp⟩

theorem Visit.trans {e e' e'' : Effects} {ms ms' : List (Match OptionId)}
    {ls ls' : List PlacedLogin}
    (h : Visit e e' ms ls) (h' : Visit e' e'' ms' ls') : Visit e e'' (ms ++ ms') (ls ++ ls') where
  options := by rw [h'.options, h.options, List.append_assoc]
  logins := by rw [h'.logins, h.logins, List.append_assoc]
  wiped s := by rw [h'.wiped, h.wiped, mem_credentialSlots_append, or_assoc]
  wellFormed l hl := (List.mem_append.1 hl).elim (h.wellFormed l) (h'.wellFormed l)

namespace Reading

variable {α β : Type}

/-- Whether a reading comes to these options and logins, or to the first ones of them if it fails,
and wipes their credentials and nothing else. -/
def Visits (x : Reading α) (ms : List (Match OptionId)) (ls : List PlacedLogin) : Prop :=
  ∀ host e, ∃ ms' ls', ms' <+: ms ∧ ls' <+: ls ∧ Visit e (x.after host e).2 ms' ls' ∧
    ∀ a, (x.after host e).1 = .ok a → ms' = ms ∧ ls' = ls

theorem Wipes.visits {x : Reading α} (hx : x.Wipes []) : x.Visits [] [] := by
  intro host e
  obtain ⟨ho, hl, hw⟩ := hx.log host e
  exact ⟨[], [], List.prefix_rfl, List.prefix_rfl,
    ⟨by simp [ho], by simp [hl], by simp [hw, credentialSlots], by simp⟩, fun _ _ => ⟨rfl, rfl⟩⟩

theorem visits_throw (u : CommandError) (ms : List (Match OptionId)) (ls : List PlacedLogin) :
    (throw u : Reading α).Visits ms ls := fun _ e =>
  ⟨[], [], List.nil_prefix, List.nil_prefix, Visit.refl e, fun _ h => nomatch h⟩

/-- **What follows a reading comes to what follows.** -/
theorem Visits.bind {x : Reading α} {f : α → Reading β} {ms ms' : List (Match OptionId)}
    {ls ls' : List PlacedLogin} (hx : x.Visits ms ls) (hf : ∀ a, (f a).Visits ms' ls') :
    (x >>= f).Visits (ms ++ ms') (ls ++ ls') := by
  intro host e
  obtain ⟨ms₁, ls₁, hms, hls, hvisit, hall⟩ := hx host e
  rw [after_bind]
  generalize x.after host e = out at hvisit hall ⊢
  obtain ⟨u | a, e'⟩ := out
  · exact ⟨ms₁, ls₁, hms.trans (List.prefix_append ..), hls.trans (List.prefix_append ..), hvisit,
      fun _ h => nomatch h⟩
  · obtain ⟨rfl, rfl⟩ := hall a rfl
    obtain ⟨ms₂, ls₂, hms', hls', hvisit', hall'⟩ := hf a host e'
    refine ⟨ms₁ ++ ms₂, ls₁ ++ ls₂, (List.prefix_append_right_inj _).2 hms',
      (List.prefix_append_right_inj _).2 hls', hvisit.trans hvisit', fun b hb => ?_⟩
    obtain ⟨rfl, rfl⟩ := hall' b hb
    exact ⟨rfl, rfl⟩

/-- What follows a reading quietly adds nothing. -/
theorem Visits.bind_wipes {x : Reading α} {f : α → Reading β} {ms : List (Match OptionId)}
    {ls : List PlacedLogin} (hx : x.Visits ms ls) (hf : ∀ a, (f a).Wipes []) :
    (x >>= f).Visits ms ls := by
  simpa using hx.bind fun a => (hf a).visits

/-- An option is come to once it is entered, whatever becomes of it. -/
theorem visits_enter {m : Match OptionId} {x : Reading α}
    (hx : x.Wipes (credentialSlot? m).toList) :
    (enter m >>= fun _ => x).Visits [m] [] := by
  intro host e
  refine ⟨[m], [], List.prefix_rfl, List.prefix_rfl, ?_, fun _ _ => ⟨rfl, rfl⟩⟩
  rw [after_bind, after_enter]
  obtain ⟨ho, hl, hw⟩ := hx.log host { e with options := e.options ++ [m] }
  refine ⟨ho, by rw [List.append_nil]; exact hl, fun s => ?_, by simp⟩
  rw [hw, List.mem_append, Option.mem_toList]
  simp [credentialSlots, eq_comm]

/-- So is a login. -/
theorem visits_enterLogin {l : PlacedLogin} {x : Reading α} (hl : (LoginText.read l.text).isSome)
    (hx : x.Wipes l.slot?.toList) : (enterLogin l >>= fun _ => x).Visits [] [l] := by
  intro host e
  refine ⟨[], [l], List.prefix_rfl, List.prefix_rfl, ?_, fun _ _ => ⟨rfl, rfl⟩⟩
  rw [after_bind, after_enterLogin]
  obtain ⟨ho, hls, hw⟩ := hx.log host { e with logins := e.logins ++ [l] }
  refine ⟨by rw [List.append_nil]; exact ho, hls, fun s => ?_, by simpa using hl⟩
  rw [hw, List.mem_append, Option.mem_toList]
  simp [credentialSlots, eq_comm]

end Reading

/-! ## Options -/

section Grammar

variable {α : Type} {g : Grammar α} {ids : List OptionId}

theorem Grammar.Wipes.option_wipes (hg : g.Wipes ids) {m : Match OptionId}
    (hm : m.id.isCredential → m.id = .login ∨ m.id ∈ ids) (a : α) :
    (do match ← readCommonOption m with
        | some f => return g.mapLogin f a
        | none => g.option m a : Reading α).Wipes (credentialSlot? m).toList := by
  unfold readCommonOption
  split
  case h_1 hid =>
    have hslot : credentialSlot? m = m.slot? := by
      simp [credentialSlot?, hid, OptionId.isCredential]
    rw [hslot]
    simp only [bind_assoc, pure_bind]
    exact (wipes_readLogin m).bind fun _ => Reading.wipes_pure _
  case h_2 hid => simp [credentialSlot?, hid, OptionId.isCredential, readPasswordFile]
  case h_3 hid => simp [credentialSlot?, hid, OptionId.isCredential]
  case h_4 hid => simp [credentialSlot?, hid, OptionId.isCredential]
  case h_5 hid => simp [credentialSlot?, hid, OptionId.isCredential]
  case h_6 hlogin _ _ _ _ =>
    simp only [pure_bind]
    unfold credentialSlot?
    split
    · next hc => exact hg.credential m a ((hm hc).resolve_left hlogin)
    · next hc => exact hg.other m a (by simpa using hc)

theorem Grammar.Wipes.visits_step (hg : g.Wipes ids) {m : Match OptionId}
    (hm : m.id.isCredential → m.id = .login ∨ m.id ∈ ids) (a : α) :
    (g.step a (.option m)).Visits [m] [] :=
  Reading.visits_enter (hg.option_wipes hm a)

/-- **Taking options and arguments comes to the options.** -/
theorem Grammar.Wipes.visits_steps (hg : g.Wipes ids) {events : List (Event OptionId)}
    (h : ∀ m, .option m ∈ events → m.id.isCredential → m.id = .login ∨ m.id ∈ ids) (a : α) :
    (g.steps a events).Visits (Stream.options ⟨events, none⟩) [] := by
  induction events generalizing a with
  | nil => exact (Reading.wipes_pure a).visits
  | cons event events ih =>
    have ih := ih fun m hm => h m (List.mem_cons_of_mem _ hm)
    unfold Grammar.steps at ih ⊢
    rw [List.foldlM_cons]
    cases event with
    | unknown index token => exact (hg.argument index token a).visits.bind ih
    | option m => exact (hg.visits_step (h m (List.mem_cons_self ..)) a).bind ih

/-- So does taking a line to its end. -/
theorem Grammar.Wipes.visits_read (hg : g.Wipes ids) {s : Stream OptionId}
    (h : ∀ m, .option m ∈ s.events → m.id.isCredential → m.id = .login ∨ m.id ∈ ids) (a : α) :
    (g.read a s).Visits s.options [] :=
  (hg.visits_steps h a).bind_wipes fun a => by cases s.missing <;> simp

end Grammar

/-! ## Logins -/

theorem visits_readPositionalLogin (index : Nat) (role text : String) :
    (readPositionalLogin index role text).Visits [] [⟨index, role, text⟩] := by
  unfold readPositionalLogin
  cases h : LoginText.read text with
  | none => exact Reading.visits_throw _ _ _
  | some login =>
    have hslot : (⟨index, role, text⟩ : PlacedLogin).slot? =
        login.password.map fun p => ⟨index, p.start, p.stop⟩ := by
      simp [PlacedLogin.slot?, h]
    refine Reading.visits_enterLogin (by simp [h]) ?_
    rw [hslot]
    exact (Reading.wipes_wipe _).bind fun _ => by simp

theorem visits_readTarget (index : Nat) (role token : String) :
    (readTarget index role token).Visits [] (targetLogins index role token) := by
  unfold readTarget targetLogins
  cases cutSlash token with
  | none => exact (Reading.wipes_pure _).visits
  | some cut =>
    exact (visits_readPositionalLogin index role cut.1).bind_wipes fun _ => by simp

/-! ## Whole lines -/

/-- The credentials that lines of a kind wipe, besides the login. -/
def LineKind.credentials : LineKind → List OptionId
  | .guest => guestCredentials
  | .migration => []
  | .backup => [.storage]
  | .restore => [.storage]
  | .backupDelete => [.storage]
  | .backupList => [.storage]
  | .server => [.storage]
  | .statistics => []
  | .problemReport => [.proxy]

/-- The credentials that lines of a family wipe, besides the login. -/
def FamilyKind.credentials : FamilyKind → List OptionId
  | .nodeBackup => [.storage]
  | _ => []

/-- Whether the credentials that a table has options for are among these and the login. -/
def CommandTable.HasOnly (t : CommandTable) (ids : List OptionId) : Prop :=
  ∀ e ∈ t.entries, e.id.isCredential → e.id = .login ∨ e.id ∈ ids

instance (t : CommandTable) (ids : List OptionId) : Decidable (t.HasOnly ids) :=
  inferInstanceAs (Decidable (∀ e ∈ t.entries, _))

theorem CommandTable.HasOnly.of_mem_read {t : CommandTable} {ids : List OptionId}
    (h : t.HasOnly ids) {args : List String} {start : Nat} (m : Match OptionId)
    (hm : .option m ∈ (t.read args start).events) :
    m.id.isCredential → m.id = .login ∨ m.id ∈ ids := by
  obtain ⟨e, he, hid⟩ := Table.has_of_mem_read hm
  exact hid ▸ h e he

theorem mem_of_mem_splitGuestCommand {m : Match OptionId} {events : List (Event OptionId)}
    (h : .option m ∈ (splitGuestCommand events).1) : .option m ∈ events := by
  induction events with
  | nil => cases h
  | cons event events ih =>
    cases event with
    | unknown index token => cases h
    | option m' =>
      rcases List.mem_cons.1 h with h | h
      · exact h ▸ List.mem_cons_self ..
      · exact List.mem_cons_of_mem _ (ih h)

/-- The options of a line about a guest are read from its arguments. -/
theorem mem_read_of_mem_guestStream {action : Action} {table : CommandTable} {start : Nat}
    {args : List String} {m : Match OptionId}
    (h : m ∈ (LineKind.guest.stream action table start args).options) :
    m ∈ (table.read args (start + 1)).options := by
  unfold LineKind.stream at h
  dsimp only at h
  split at h
  · exact Stream.mem_options.2 (mem_of_mem_splitGuestCommand (Stream.mem_options.1 h))
  · exact h

/-- What stands before a guest command are options. -/
theorem unknown_notMem_splitGuestCommand {events : List (Event OptionId)} {index : Nat}
    {token : String} : .unknown index token ∉ (splitGuestCommand events).1 := by
  induction events with
  | nil => exact List.not_mem_nil
  | cons event events ih =>
    cases event with
    | unknown index token => exact List.not_mem_nil
    | option m => exact fun h => (List.mem_cons.1 h).elim nofun ih

/-- A guest command starts at an argument that is no option. -/
theorem unknown_mem_of_splitGuestCommand {events : List (Event OptionId)} {index : Nat}
    (h : (splitGuestCommand events).2 = some index) : ∃ token, .unknown index token ∈ events := by
  induction events with
  | nil => cases h
  | cons event events ih =>
    cases event with
    | unknown i token =>
      cases h
      exact ⟨token, List.mem_cons_self ..⟩
    | option m =>
      obtain ⟨token, htoken⟩ := ih h
      exact ⟨token, List.mem_cons_of_mem _ htoken⟩

theorem wipes_settle (r : Record) : r.settle.Wipes [] := by
  unfold Record.settle
  split
  · exact (Reading.wipes_warn _ _).bind fun _ => (Reading.wipes_write _).bind fun _ =>
      Reading.wipes_read.bind fun _ => Reading.wipes_ofExcept _
  · simp

section Lines

variable {action : Action} {table : CommandTable} {start : Nat} {args : List String}

theorem visits_readGuestLine (h : table.HasOnly LineKind.guest.credentials) :
    (readGuestLine action table start args).Visits
      (LineKind.guest.stream action table start args).options [] := by
  have hread (m : Match OptionId) (hm : .option m ∈ (table.read args (start + 1)).events) :=
    h.of_mem_read m hm
  unfold readGuestLine LineKind.stream
  dsimp only
  generalize (if action.takesGuestCommand = true then _ else none) = command
  cases command with
  | some index =>
    refine (Draft.wipes_grammar.visits_steps ?_ _).bind_wipes fun _ => Reading.wipes_pure _
    exact fun m hm => hread m (mem_of_mem_splitGuestCommand hm)
  | none =>
    refine (Draft.wipes_grammar.visits_read hread _).bind_wipes fun d => ?_
    exact Reading.wipes_bind (Reading.wipes_ofExcept _) fun r => wipes_settle r

theorem visits_readMigrationLine (h : table.HasOnly LineKind.migration.credentials) :
    (readMigrationLine action table start args).Visits
      (LineKind.migration.stream action table start args).options
      (LineKind.migration.logins start args) := by
  unfold readMigrationLine LineKind.logins LineKind.stream
  dsimp only
  cases args[start]? with
  | none => exact Reading.visits_throw _ _ _
  | some source =>
    cases args[start + 1]? with
    | none => exact Reading.visits_throw _ _ _
    | some destination =>
      refine (visits_readTarget start "src" source).bind fun target => ?_
      unfold hostLogin
      cases cutSlash destination <;>
        exact (visits_readPositionalLogin _ _ _).bind fun _ =>
          (Migration.wipes_grammar.visits_read h.of_mem_read _).bind_wipes fun _ => by simp

theorem visits_readBackupLine (h : table.HasOnly LineKind.backup.credentials) :
    (readBackupLine action table start args).Visits
      (LineKind.backup.stream action table start args).options
      (LineKind.backup.logins start args) := by
  unfold readBackupLine LineKind.logins LineKind.stream
  dsimp only
  cases args[start]? with
  | none => exact Reading.visits_throw _ _ _
  | some name =>
    rw [← List.append_nil (Stream.options _)]
    exact (Backup.wipes_makingGrammar.visits_read h.of_mem_read _).bind fun _ =>
      (visits_readTarget start "node" name).bind_wipes fun _ => by simp

theorem visits_readBackupChoice {grammar : Grammar Record} {ids : List OptionId}
    (hg : grammar.Wipes ids) (h : table.HasOnly ids) :
    (readBackupChoice grammar action table start args).Visits
      (table.read args start).options [] := by
  unfold readBackupChoice
  split
  · exact Reading.visits_throw _ _ _
  · exact hg.visits_read h.of_mem_read _

theorem visits_readServerLine (h : table.HasOnly [.storage]) :
    (readServerLine action table start args).Visits (table.read args start).options [] :=
  (Server.wipes_grammar.visits_read h.of_mem_read _).bind_wipes fun _ => by simp

theorem visits_readProblemReportLine (h : table.HasOnly LineKind.problemReport.credentials) :
    (readProblemReportLine action table start args).Visits
      (LineKind.problemReport.stream action table start args).options [] := by
  unfold readProblemReportLine LineKind.stream
  dsimp only
  split <;>
    exact (ProblemReport.wipes_grammar.visits_read h.of_mem_read _).bind_wipes fun _ => by simp

/-- Reading a line of a kind comes to its options and its logins. -/
theorem LineKind.visits_read {kind : LineKind} (h : table.HasOnly kind.credentials) :
    (kind.read action table start args).Visits (kind.stream action table start args).options
      (kind.logins start args) := by
  cases kind with
  | guest => exact visits_readGuestLine h
  | migration => exact visits_readMigrationLine h
  | backup => exact visits_readBackupLine h
  | restore => exact visits_readBackupChoice Backup.wipes_restoringGrammar h
  | backupDelete => exact visits_readBackupChoice Backup.wipes_deletingGrammar h
  | backupList => exact Backup.wipes_listingGrammar.visits_read h.of_mem_read _
  | server => exact visits_readServerLine h
  | statistics => exact Statistics.wipes_grammar.visits_read h.of_mem_read _
  | problemReport => exact visits_readProblemReportLine h

theorem visits_readVirtualNetworkLine (h : table.HasOnly FamilyKind.virtualNetwork.credentials) :
    (readVirtualNetworkLine table start args).Visits
      (FamilyKind.virtualNetwork.stream table start args).options [] := by
  unfold readVirtualNetworkLine FamilyKind.stream
  dsimp only
  cases args.drop start with
  | nil => exact Reading.visits_throw _ _ _
  | cons verb rest =>
    dsimp only [List.head?_cons, Option.bind_some]
    cases VirtualNetwork.readCommand? verb with
    | some command =>
      exact (VirtualNetwork.wipes_grammar.visits_read h.of_mem_read _).bind_wipes fun _ => by simp
    | none =>
      cases VirtualNetwork.shortForm? verb rest with
      | some network => exact (Reading.wipes_pure _).visits
      | none => exact Reading.visits_throw _ _ _

theorem visits_readPrivateNetworkLine (h : table.HasOnly FamilyKind.privateNetwork.credentials) :
    (readPrivateNetworkLine table start args).Visits
      (FamilyKind.privateNetwork.stream table start args).options [] := by
  unfold readPrivateNetworkLine FamilyKind.stream
  dsimp only
  cases args[start]?.bind PrivateNetwork.readCommand? with
  | none => exact Reading.visits_throw _ _ _
  | some command =>
    exact (PrivateNetwork.wipes_grammar.visits_read h.of_mem_read _).bind_wipes fun _ => by simp

theorem visits_readUsbLine (h : table.HasOnly FamilyKind.usb.credentials) :
    (readUsbLine table start args).Visits (FamilyKind.usb.stream table start args).options [] := by
  unfold readUsbLine FamilyKind.stream
  dsimp only
  cases UsbAssignment.ofWords? (args.drop start) with
  | none => exact Reading.visits_throw _ _ _
  | some words => exact UsbAssignment.wipes_grammar.visits_read h.of_mem_read _

theorem visits_readShapingLine (h : table.HasOnly FamilyKind.shaping.credentials) :
    (readShapingLine table start args).Visits
      (FamilyKind.shaping.stream table start args).options [] := by
  unfold readShapingLine
  split
  · refine visits_readServerLine fun e he hc => ?_
    exact .inl ((h e he hc).resolve_right (by simp [FamilyKind.credentials]))
  · exact Reading.visits_throw _ _ _

/-- Lines about templates have options for copies only. -/
theorem wipes_readTemplateLine (hcopy : (args.drop start).head? ≠ some "copy") :
    (readTemplateLine table start args).Wipes [] := by
  unfold readTemplateLine
  dsimp only
  split
  case h_4 hwords => exact absurd (by rw [hwords]; rfl) hcopy
  all_goals simp

theorem visits_readTemplateLine (h : table.HasOnly FamilyKind.template.credentials) :
    (readTemplateLine table start args).Visits (FamilyKind.template.stream table start args).options
      (FamilyKind.template.logins start args) := by
  unfold FamilyKind.stream FamilyKind.logins
  dsimp only
  by_cases hcopy : (args.drop start).head? = some "copy"
  · obtain ⟨rest, hrest⟩ := List.head?_eq_some_iff.1 hcopy
    rw [if_pos hcopy, if_pos hcopy, readTemplateLine, hrest]
    show (readTemplateCopyLine table (start + 1) args).Visits _ _
    unfold readTemplateCopyLine
    rcases args.drop (start + 1) with _ | ⟨host, _ | ⟨name, rest⟩⟩
    · exact Reading.visits_throw _ _ _
    · exact Reading.visits_throw _ _ _
    · exact (visits_readPositionalLogin _ _ _).bind fun _ =>
        TemplateCopy.wipes_grammar.visits_read h.of_mem_read _
  · rw [if_neg hcopy, if_neg hcopy]
    exact (wipes_readTemplateLine hcopy).visits

/-- Reading a line of a family comes to its options and its logins. -/
theorem FamilyKind.visits_read {kind : FamilyKind} (h : table.HasOnly kind.credentials) :
    (kind.read table start args).Visits (kind.stream table start args).options
      (kind.logins start args) := by
  cases kind with
  | nodeBackup => exact Backup.wipes_makingGrammar.visits_read h.of_mem_read _
  | virtualNetwork => exact visits_readVirtualNetworkLine h
  | privateNetwork => exact visits_readPrivateNetworkLine h
  | usb => exact visits_readUsbLine h
  | shaping => exact visits_readShapingLine h
  | template => exact visits_readTemplateLine h

end Lines

/-! ## Programs -/

/-- Whether the options of a command are options that it has a use for. -/
def Command.WellEquipped : Command → Prop
  | .line kind _ table _ => table.HasOnly kind.credentials
  | .family kind table _ => table.HasOnly kind.credentials
  | .monitor => True

/-- **Reading a line comes to its options and its logins**, and wipes their credentials. -/
theorem Command.visits_read {c : Command} (h : c.WellEquipped) (args : List String) :
    (c.read args).Visits (c.stream args).options (c.logins args) := by
  cases c with
  | line kind action table start => exact kind.visits_read h
  | family kind table start => exact kind.visits_read h
  | monitor =>
    refine Reading.Wipes.visits ?_
    simp only [Command.read, readMonitorLine]
    split <;> simp

instance (c : Command) : Decidable c.WellEquipped :=
  match c with
  | .line kind _ table _ => inferInstanceAs (Decidable (table.HasOnly kind.credentials))
  | .family kind table _ => inferInstanceAs (Decidable (table.HasOnly kind.credentials))
  | .monitor => .isTrue trivial

/-- The commands of both programs are well equipped. -/
theorem Program.wellEquipped_of_command {p : Program} {args : List String} {c : Command}
    (h : p.command args = .ok c) : c.WellEquipped := by
  have hroster : ∀ l ∈ p.roster, l.command.WellEquipped := by cases p <;> decide +kernel
  obtain ⟨l, hl, rfl, -⟩ := exists_listing h
  exact hroster l hl

/-- **What a program reads are the options and logins of its line**, and it wipes their credentials
and nothing else. -/
theorem Program.visits_read (p : Program) (args : List String) :
    (p.read args).Visits (p.options args) (p.logins args) := by
  unfold read options logins command?
  cases p.help? args with
  | some help => exact ((Reading.wipes_write _).bind fun _ => Reading.wipes_throw _).visits
  | none =>
    dsimp only
    cases hc : p.command args with
    | error u => exact Reading.visits_throw _ _ _
    | ok c => exact Command.visits_read (wellEquipped_of_command hc) args

end VmControl
