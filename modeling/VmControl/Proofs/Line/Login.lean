import VmControl.Proofs.Consistency
import VmControl.Proofs.Draft.Footprint
import VmControl.Proofs.Line.Layout

/-!
# Which logins a line assigns

The login of a record changes only where a login text is assigned to it or a password is read from a
file.  If no password is read, it is what the login texts of the line come to, one assigned after
the other.

## Main statements

* `Grammar.Continues.steps`: taking options assigns their login texts.
* `Program.yields_read`: the login of an accepted line is that of its login texts.
-/

namespace VmControl

open Options

/-! ## Results of readings -/

namespace Reading

variable {α β : Type}

/-- Whether all that a reading can come to has a property. -/
def Yields (x : Reading α) (P : α → Prop) : Prop :=
  ∀ host e a, (x.after host e).1 = .ok a → P a

@[simp] theorem yields_pure {a : α} {P : α → Prop} (h : P a) : (pure a : Reading α).Yields P := by
  simp [Yields, h]

@[simp] theorem yields_throw {u : CommandError} {P : α → Prop} :
    (throw u : Reading α).Yields P := by
  simp [Yields]

theorem yields_ofExcept {x : Except CommandError α} {P : α → Prop} (h : ∀ a, x = .ok a → P a) :
    (ofExcept x).Yields P := by
  simpa [Yields] using fun _ _ => h

theorem yields_of_forall {x : Reading α} {P : α → Prop} (h : ∀ a, P a) : x.Yields P :=
  fun _ _ a _ => h a

theorem Yields.bind {x : Reading α} {f : α → Reading β} {P : α → Prop} {Q : β → Prop}
    (hx : x.Yields P) (hf : ∀ a, P a → (f a).Yields Q) : (x >>= f).Yields Q := by
  intro host e b hb
  have hxe := hx host e
  rw [after_bind] at hb
  generalize x.after host e = out at hxe hb
  obtain ⟨u | a, e'⟩ := out
  · cases hb
  · exact hf a (hxe a rfl) host e' b hb

theorem Yields.mono {x : Reading α} {P Q : α → Prop} (hx : x.Yields P) (h : ∀ a, P a → Q a) :
    x.Yields Q :=
  fun host e a ha => h a (hx host e a ha)

/-- What a reading comes to may be of no account. -/
@[simp] theorem yields_bind {x : Reading α} {f : α → Reading β} {Q : β → Prop}
    (hf : ∀ a, (f a).Yields Q) : (x >>= f).Yields Q :=
  (yields_of_forall fun _ => trivial : x.Yields fun _ => True).bind fun a _ => hf a

@[simp] theorem yields_map {x : Reading α} {f : α → β} {Q : β → Prop} (hf : ∀ a, Q (f a)) :
    (f <$> x).Yields Q := by
  rw [map_eq_pure_bind]
  exact yields_bind fun a => yields_pure (hf a)

end Reading

/-! ## Grammars -/

/-- Whether a record goes on where another one stopped: for the same host and the same action,
unless a list is asked for instead. -/
def Record.Continues (r r' : Record) : Prop :=
  r'.login = r.login ∧ (r'.action = r.action ∨ r'.action = .backupList)

/-- Whether a grammar leaves the host and the action of a record alone, apart from the options of
every command. -/
structure Grammar.Continues {α : Type} (g : Grammar α) (record : α → Record) : Prop where
  /-- Changing the login changes the login. -/
  mapLogin : ∀ f a, record (g.mapLogin f a) = { record a with login := f (record a).login }
  /-- Arguments leave the login alone. -/
  argument : ∀ index token a,
    (g.argument index token a).Yields fun b => (record a).Continues (record b)
  /-- So do options. -/
  option : ∀ m a, (g.option m a).Yields fun b => (record a).Continues (record b)

@[simp] theorem yields_refuseArgument {α : Type} {index : Nat} {token : String} {a : α}
    {P : α → Prop} : (refuseArgument index token a).Yields P := by
  simp [refuseArgument]

@[simp] theorem yields_refuseOption {α : Type} {m : Match OptionId} {P : α → Prop} :
    (refuseOption m : Reading α).Yields P := by
  simp [refuseOption]

/-- The login of a record is changed by assigning to it only. -/
theorem continues_recordGrammar {argument : Nat → String → Record → Reading Record}
    {option : Match OptionId → Record → Reading Record}
    (hargument : ∀ index token r, (argument index token r).Yields fun r' =>
      r'.login = r.login ∧ (r'.action = r.action ∨ r'.action = .backupList))
    (hoption : ∀ m r, (option m r).Yields fun r' =>
      r'.login = r.login ∧ (r'.action = r.action ∨ r'.action = .backupList)) :
    (recordGrammar argument option).Continues fun r => r :=
  ⟨fun _ _ => rfl, hargument, hoption⟩

section Records

theorem Backup.continues_makingGrammar : makingGrammar.Continues fun r => r :=
  continues_recordGrammar (by simp) fun m r => by
    unfold takeMakingOption takeStorage takeSecurityLevel
    split <;> simp

theorem Backup.continues_takeOnlyTarget (index : Nat) (token : String) (r : Record) :
    (takeOnlyTarget index token r).Yields fun r' =>
      r'.login = r.login ∧ (r'.action = r.action ∨ r'.action = .backupList) := by
  unfold takeOnlyTarget
  split
  · simp
  · split <;> simp

theorem Backup.continues_restoringGrammar : restoringGrammar.Continues fun r => r :=
  continues_recordGrammar (fun _ _ _ => continues_takeOnlyTarget _ _ _) fun m r => by
    unfold takeRestoringOption takeStorage takeSecurityLevel takeId
    split <;> simp

theorem Backup.continues_deletingGrammar : deletingGrammar.Continues fun r => r :=
  continues_recordGrammar (fun _ _ _ => continues_takeOnlyTarget _ _ _) fun m r => by
    unfold takeDeletingOption takeStorage takeSecurityLevel takeId
    split <;> simp

theorem Backup.continues_listingGrammar : listingGrammar.Continues fun r => r :=
  continues_recordGrammar (by simp [takeLastTarget]) fun m r => by
    unfold takeListingOption takeStorage takeSecurityLevel takeId
    split <;> simp [Record.mark, Record.set]

theorem Server.continues_grammar : grammar.Continues fun r => r :=
  continues_recordGrammar (by simp) fun m r => by
    unfold takeOption
    dsimp only
    split <;> try simp [Record.mark, Record.set]
    split <;> simp

theorem Migration.continues_grammar : grammar.Continues fun r => r :=
  continues_recordGrammar (by simp) fun m r => by
    unfold takeOption
    dsimp only
    split <;> simp

theorem VirtualNetwork.continues_grammar : grammar.Continues fun r => r :=
  continues_recordGrammar
    (fun _ _ r => by
      unfold takeName
      split <;> simp)
    fun m r => by
      unfold takeOption
      dsimp only
      split <;> try simp [Record.mark, Record.set]
      all_goals split <;> simp

theorem PrivateNetwork.continues_grammar : grammar.Continues fun r => r :=
  continues_recordGrammar
    (fun _ _ r => by
      unfold takeName
      split <;> simp)
    fun m r => by
      unfold takeOption
      dsimp only
      split <;> try simp [Record.mark, Record.set]
      split <;> simp

theorem UsbAssignment.continues_grammar : grammar.Continues fun r => r :=
  continues_recordGrammar (by simp) fun m r => by
    unfold takeOption
    split <;> simp [Record.mark, Record.set]

theorem Statistics.continues_grammar : grammar.Continues fun r => r :=
  continues_recordGrammar (by simp [takeTarget]) fun m r => by
    unfold takeOption
    split <;> simp [Record.mark, Record.set]

theorem TemplateCopy.continues_grammar : grammar.Continues fun r => r :=
  continues_recordGrammar (by simp) fun m r => by
    unfold takeOption
    split <;> simp

theorem ProblemReport.continues_grammar : grammar.Continues fun r => r :=
  continues_recordGrammar (by simp) fun m r => by
    unfold takeOption
    dsimp only
    split <;> simp

end Records

theorem Draft.login_of_applyPure {m : Match OptionId} {d d' : Draft} (h : d.applyPure m = .ok d') :
    d'.record.login = d.record.login := by
  by_cases hp : part? m.id = some .login
  · have hnone : d.applyPure m = .error (.refused (.unhandled m.name)) := by
      cases hid : m.id <;> rw [hid] at hp <;> cases hp <;> simp only [applyPure, hid]
    rw [hnone] at h
    cases h
  · exact view_applyPure_of_ne h .initial hp

theorem Draft.action_of_applyPure {m : Match OptionId} {d d' : Draft} (h : d.applyPure m = .ok d') :
    d'.record.action = d.record.action := by
  by_cases hp : part? m.id = some .rest
  · simp only [applyPure, eq_onlineClone_of_part? hp] at h
    cases h
    rfl
  · exact action_of_unsaid (view_applyPure_of_ne h .initial hp)

theorem Draft.yields_showGuests {option value : String} {guests : List Guest}
    {listed : CommandError} {P : Draft → Prop} :
    (showGuests option value guests listed).Yields P := by
  intro host e d hd
  obtain ⟨u, f, hu⟩ := after_showGuests option value guests listed host e
  rw [hu] at hd
  cases hd

/-- An argument leaves the login and the action alone. -/
theorem Draft.keeps_takeArgument (index : Nat) (token : String) (d : Draft) :
    (takeArgument index token d).Yields fun d' =>
      d'.record.login = d.record.login ∧ d'.record.action = d.record.action := by
  unfold takeArgument
  split <;> simp [mapRecord, Record.set]

/-- So does an option that is not one of every command. -/
theorem Draft.keeps_apply (m : Match OptionId) (d : Draft) :
    (apply m d).Yields fun d' =>
      d'.record.login = d.record.login ∧ d'.record.action = d.record.action := by
  have hpure : (Reading.ofExcept (d.applyPure m)).Yields fun d' =>
      d'.record.login = d.record.login ∧ d'.record.action = d.record.action :=
    Reading.yields_ofExcept fun d' hd => ⟨login_of_applyPure hd, action_of_applyPure hd⟩
  unfold apply
  cases d.conflict? m.id with
  | some u => simp
  | none =>
    dsimp only
    split
    case h_1 => simp
    case h_2 | h_3 =>
      split
      · exact Reading.yields_pure ⟨rfl, rfl⟩
      · exact yields_showGuests
    case h_4 =>
      split
      · exact Reading.yields_pure ⟨rfl, rfl⟩
      · exact Reading.yields_bind fun _ => Reading.yields_pure ⟨rfl, rfl⟩
    case h_5 =>
      split
      · exact Reading.yields_bind fun _ => hpure
      · exact hpure
    case h_6 => exact hpure

theorem Draft.continues_grammar : grammar.Continues Draft.record where
  mapLogin _ _ := rfl
  argument index token d :=
    (keeps_takeArgument index token d).mono fun _ hd => ⟨hd.1, .inl hd.2⟩
  option m d := (keeps_apply m d).mono fun _ hd => ⟨hd.1, .inl hd.2⟩

/-! ## Taking options -/

/-- The login text that an option assigns, if it does. -/
def loginText? (m : Match OptionId) : Option LoginText :=
  if m.id = .login then LoginText.read m.text else none

section Grammar

variable {α : Type} {g : Grammar α} {record : α → Record}

/-- **What single options and arguments keep, a line keeps.** -/
theorem Grammar.yields_steps {P : α → Prop} (hlogin : ∀ f a, P a → P (g.mapLogin f a))
    (hargument : ∀ index token a, P a → (g.argument index token a).Yields P)
    (hoption : ∀ m a, P a → (g.option m a).Yields P) (events : List (Event OptionId)) {a : α}
    (ha : P a) : (g.steps a events).Yields P := by
  induction events generalizing a with
  | nil => exact Reading.yields_pure ha
  | cons event events ih =>
    unfold Grammar.steps at ih ⊢
    rw [List.foldlM_cons]
    refine Reading.Yields.bind (P := P) ?_ fun b hb => ih hb
    cases event with
    | unknown index token => exact hargument index token a ha
    | option m =>
      unfold Grammar.step
      refine Reading.yields_bind fun _ => Reading.yields_bind fun f => ?_
      cases f with
      | some f => exact Reading.yields_pure (hlogin f a ha)
      | none => exact hoption m a ha

/-- A line about a guest is for its action to the end. -/
theorem Draft.yields_action_steps (d : Draft) (events : List (Event OptionId)) :
    (grammar.steps d events).Yields fun d' => d'.record.action = d.record.action :=
  Grammar.yields_steps (P := fun d' => d'.record.action = d.record.action) (fun _ _ hd => hd)
    (fun index token d' hd => (keeps_takeArgument index token d').mono fun _ h => h.2.trans hd)
    (fun m d' hd => (keeps_apply m d').mono fun _ h => h.2.trans hd) events rfl

theorem Grammar.Continues.step (hg : g.Continues record) {m : Match OptionId}
    (hm : m.id ≠ .readPassword) (a : α) : (g.step a (.option m)).Yields fun b =>
      (record b).login = (loginText? m).toList.foldl Login.assign (record a).login := by
  unfold Grammar.step readCommonOption
  refine Reading.yields_bind fun _ => ?_
  split
  case h_1 hid =>
    unfold readLogin
    cases ht : LoginText.read m.text with
    | none => simp
    | some t => simp [hg.mapLogin, loginText?, hid, ht]
  case h_2 hid => exact absurd hid hm
  case h_3 hid => simp [hg.mapLogin, loginText?, hid]
  case h_4 hid => simp [hg.mapLogin, loginText?, hid]
  case h_5 hid => simp [hg.mapLogin, loginText?, hid]
  case h_6 hlogin _ _ _ _ =>
    rw [loginText?, if_neg hlogin]
    exact (hg.option m a).mono fun b hb => hb.1

/-- **What single options make of a part, a line makes of it**, one option after the other, if
arguments leave that part alone. -/
theorem Grammar.yields_foldl {β : Type} {f : α → β} {take : β → Match OptionId → β}
    (hargument : ∀ index token a, (g.argument index token a).Yields fun b => f b = f a)
    {events : List (Event OptionId)}
    (hoption : ∀ m, .option m ∈ events → ∀ a,
      (g.step a (.option m)).Yields fun b => f b = take (f a) m) (a : α) :
    (g.steps a events).Yields fun b =>
      f b = (Stream.options ⟨events, none⟩).foldl take (f a) := by
  induction events generalizing a with
  | nil => exact Reading.yields_pure rfl
  | cons event events ih =>
    have ih := ih fun m hm => hoption m (List.mem_cons_of_mem _ hm)
    unfold Grammar.steps at ih ⊢
    rw [List.foldlM_cons]
    cases event with
    | unknown index token =>
      refine (hargument index token a).bind fun b hb => ?_
      rw [← hb]
      exact ih b
    | option m =>
      refine (hoption m (List.mem_cons_self ..) a).bind fun b hb => ?_
      have ih := ih b
      rw [hb] at ih
      exact ih

/-- **Taking options assigns their login texts**, one after the other. -/
theorem Grammar.Continues.steps (hg : g.Continues record) {events : List (Event OptionId)}
    (h : ∀ m, .option m ∈ events → m.id ≠ .readPassword) (a : α) :
    (g.steps a events).Yields fun b => (record b).login =
      ((Stream.options ⟨events, none⟩).filterMap loginText?).foldl Login.assign
        (record a).login := by
  have htake (l : Login) (ms : List (Match OptionId)) :
      ms.foldl (fun l m => (loginText? m).toList.foldl Login.assign l) l =
        (ms.filterMap loginText?).foldl Login.assign l := by
    rw [List.foldl_filterMap]
    congr 1
    funext l m
    cases loginText? m <;> rfl
  rw [← htake]
  exact Grammar.yields_foldl
    (fun index token a => (hg.argument index token a).mono fun _ hb => hb.1)
    (fun m hm a => hg.step (h m hm) a) a

/-- A line that misses no value is taken to its end by its steps. -/
theorem Grammar.read_mk (g : Grammar α) (a : α) (events : List (Event OptionId)) :
    g.read a ⟨events, none⟩ = g.steps a events :=
  bind_pure _

theorem Grammar.yields_read {P : α → Prop} {s : Stream OptionId} {a : α}
    (h : (g.steps a s.events).Yields P) : (g.read a s).Yields P := by
  refine h.bind fun b hb => ?_
  cases s.missing with
  | none => exact Reading.yields_pure hb
  | some u => exact Reading.yields_throw

end Grammar

/-! ## The end of the line -/

namespace Record

/-- What a record settles as is consistent on some host. -/
theorem yields_settle (r : Record) :
    r.settle.Yields fun r' => ∃ host, r.consistent host = .ok r' := by
  have hend : (do Reading.ofExcept (r.consistent (← read)) : Reading Record).Yields fun r' =>
      ∃ host, r.consistent host = .ok r' :=
    Reading.yields_bind fun host => Reading.yields_ofExcept fun _ h => ⟨host, h⟩
  unfold settle
  split
  · exact Reading.yields_bind fun _ => Reading.yields_bind fun _ => hend
  · exact hend

end Record

/-! ## Logins in front of names -/

theorem yields_readPositionalLogin (index : Nat) (role text : String) :
    (readPositionalLogin index role text).Yields fun t => LoginText.read text = some t := by
  unfold readPositionalLogin
  cases LoginText.read text <;> simp

theorem yields_readTarget (index : Nat) (role token : String) :
    (readTarget index role token).Yields fun target =>
      target.1.toList = (targetLogins index role token).filterMap (LoginText.read ·.text) := by
  unfold readTarget targetLogins
  cases cutSlash token with
  | none => exact Reading.yields_pure rfl
  | some cut =>
    refine (yields_readPositionalLogin index role cut.1).bind fun t ht => Reading.yields_pure ?_
    simp [ht]

/-! ## Whole lines -/

/-- The login texts that are assigned to the login of a record: that of a guest on another host, and
those of the options. -/
def assignedTexts (ms : List (Match OptionId)) (ls : List PlacedLogin) : List LoginText :=
  (ls.filter (·.role = "src")).filterMap (LoginText.read ·.text) ++ ms.filterMap loginText?

/-- Logins that play another part are not assigned. -/
theorem assignedTexts_of_role_ne {ms : List (Match OptionId)} {ls : List PlacedLogin}
    (h : ∀ l ∈ ls, l.role ≠ "src") : assignedTexts ms ls = assignedTexts ms [] := by
  have hnone : ls.filter (·.role = "src") = [] := List.filter_eq_nil_iff.2 (by simpa using h)
  rw [assignedTexts, hnone]
  rfl

theorem Login.assignTarget_eq_foldl (l : Login) (t : Option LoginText) :
    l.assignTarget t = t.toList.foldl Login.assign l := by
  cases t <;> rfl

/-- The login that login texts come to, one assigned after the other. -/
def Login.ofTexts (ts : List LoginText) : Login := ts.foldl Login.assign ∅

/-- Whether a reading takes a stream from a record for this action and this login on: what grammars
that leave both alone make of the stream, the reading makes of it. -/
def Reading.Takes (x : Reading Record) (s : Stream OptionId) (action : Action) (login : Login) :
    Prop :=
  ∀ Q : Record → Record → Prop,
    (∀ (α : Type) (g : Grammar α) (record : α → Record), g.Continues record → ∀ a,
      (g.read a s).Yields fun b => Q (record a) (record b)) →
    x.Yields fun r => ∃ r₀ r₁, r₀.action = action ∧ r₀.login = login ∧ Q r₀ r₁ ∧
      r.action = r₁.action ∧ r.login = r₁.login

section Takes

variable {α : Type} {s : Stream OptionId} {action : Action} {login : Login}

theorem takes_throw {u : CommandError} : (throw u : Reading Record).Takes s action login :=
  fun _ _ => Reading.yields_throw

/-- What is read before the stream is of no account but for the start. -/
theorem Reading.Yields.takes {x : Reading α} {f : α → Reading Record} {P : α → Prop}
    (hx : x.Yields P) (hf : ∀ a, P a → (f a).Takes s action login) :
    (x >>= f).Takes s action login :=
  fun _ hQ => hx.bind fun a ha => hf a ha _ hQ

/-- Nor is what is done after it, if that leaves the action and the login alone. -/
theorem Grammar.Continues.takes {g : Grammar α} {record : α → Record} (hg : g.Continues record)
    {a : α} (haction : (record a).action = action) (hlogin : (record a).login = login)
    {f : α → Reading Record} (hf : ∀ b, (f b).Yields fun r =>
      r.action = (record b).action ∧ r.login = (record b).login) :
    (g.read a s >>= f).Takes s action login :=
  fun _ hQ => (hQ α g record hg a).bind fun b hb => (hf b).mono fun _ hr =>
    ⟨record a, record b, haction, hlogin, hb, hr.1, hr.2⟩

theorem Grammar.Continues.takes_read {g : Grammar Record} (hg : g.Continues fun r => r) {r : Record}
    (haction : r.action = action) (hlogin : r.login = login) :
    (g.read r s).Takes s action login := by
  rw [← bind_pure (g.read r s)]
  exact hg.takes haction hlogin fun _ => Reading.yields_pure ⟨rfl, rfl⟩

/-- A record that is complete as it stands takes nothing. -/
theorem takes_pure {r : Record} (haction : r.action = action) (hlogin : r.login = login) :
    (pure r : Reading Record).Takes ∅ action login := by
  have hg : (recordGrammar refuseArgument fun m _ => refuseOption m).Continues fun r => r :=
    continues_recordGrammar (by simp) (by simp)
  exact hg.takes_read haction hlogin

end Takes

section Lines

variable {action : Action} {table : CommandTable} {start : Nat} {args : List String}

theorem takes_readGuestLine : (readGuestLine action table start args).Takes
    (LineKind.guest.stream action table start args) action ∅ := by
  unfold readGuestLine LineKind.stream
  dsimp only
  generalize (if action.takesGuestCommand = true then _ else none) = command
  cases command with
  | some index =>
    dsimp only
    rw [← Grammar.read_mk]
    exact Draft.continues_grammar.takes rfl rfl fun d => Reading.yields_pure ⟨rfl, rfl⟩
  | none =>
    refine Draft.continues_grammar.takes rfl rfl fun d => ?_
    refine (Reading.yields_ofExcept fun r hr => Draft.exists_of_finish hr).bind ?_
    rintro r ⟨settings, device, fate, domains, servers, rfl⟩
    refine (Record.yields_settle _).mono fun r' ⟨host, hr'⟩ => ?_
    obtain ⟨settings, device, rfl⟩ := Record.exists_of_consistent hr'
    exact ⟨rfl, rfl⟩

theorem takes_readMigrationLine : (readMigrationLine action table start args).Takes
    (LineKind.migration.stream action table start args) action
    (.ofTexts (assignedTexts [] (LineKind.migration.logins start args))) := by
  unfold readMigrationLine LineKind.logins
  dsimp only
  cases args[start]? with
  | none => exact takes_throw
  | some source =>
    cases args[start + 1]? with
    | none => exact takes_throw
    | some destination =>
      refine (yields_readTarget start "src" source).takes fun target htarget => ?_
      refine (yields_readPositionalLogin _ _ _).takes fun host _ => ?_
      refine Migration.continues_grammar.takes rfl ?_ fun r =>
        Reading.yields_bind fun _ => Reading.yields_pure ⟨rfl, rfl⟩
      have hsource : (targetLogins start "src" source).filter (·.role = "src") =
          targetLogins start "src" source :=
        List.filter_eq_self.2 fun l hl => by simpa using role_of_mem_targetLogins hl
      rw [Login.ofTexts, assignedTexts, List.filter_append, hsource,
        List.filter_cons_of_neg (by simp), List.filter_nil, List.append_nil, ← htarget,
        List.filterMap_nil, List.append_nil, ← Login.assignTarget_eq_foldl]
      rfl

theorem takes_readBackupLine : (readBackupLine action table start args).Takes
    (LineKind.backup.stream action table start args) action ∅ := by
  unfold readBackupLine
  cases args[start]? with
  | none => exact takes_throw
  | some name =>
    exact Backup.continues_makingGrammar.takes rfl rfl fun r =>
      Reading.yields_bind fun _ => Reading.yields_pure ⟨rfl, rfl⟩

theorem takes_readBackupChoice {grammar : Grammar Record} (hg : grammar.Continues fun r => r) :
    (readBackupChoice grammar action table start args).Takes (table.read args start) action ∅ := by
  unfold readBackupChoice
  split
  · exact takes_throw
  · exact hg.takes_read rfl rfl

theorem takes_readServerLine :
    (readServerLine action table start args).Takes (table.read args start) action ∅ :=
  Server.continues_grammar.takes rfl rfl fun _ =>
    Reading.yields_bind fun _ => Reading.yields_pure ⟨rfl, rfl⟩

theorem takes_readProblemReportLine : (readProblemReportLine action table start args).Takes
    (LineKind.problemReport.stream action table start args) action ∅ := by
  unfold readProblemReportLine LineKind.stream
  dsimp only
  split <;>
    exact ProblemReport.continues_grammar.takes rfl rfl fun _ =>
      Reading.yields_bind fun _ => Reading.yields_pure ⟨rfl, rfl⟩

/-- Logins that play another part are not assigned. -/
theorem ofTexts_of_role_ne {ls : List PlacedLogin} (h : ∀ l ∈ ls, l.role ≠ "src") :
    Login.ofTexts (assignedTexts [] ls) = ∅ := by
  rw [assignedTexts_of_role_ne h]
  rfl

/-- A line of a kind is for its action, and on the host of the guest if that is told. -/
theorem LineKind.takes_read {kind : LineKind} : (kind.read action table start args).Takes
    (kind.stream action table start args) action
    (.ofTexts (assignedTexts [] (kind.logins start args))) := by
  cases kind with
  | guest => exact takes_readGuestLine
  | migration => exact takes_readMigrationLine
  | backup =>
    rw [ofTexts_of_role_ne]
    · exact takes_readBackupLine
    · intro l hl
      unfold LineKind.logins at hl
      dsimp only at hl
      split at hl
      · rw [role_of_mem_targetLogins hl]
        decide
      · cases hl
  | restore => exact takes_readBackupChoice Backup.continues_restoringGrammar
  | backupDelete => exact takes_readBackupChoice Backup.continues_deletingGrammar
  | backupList => exact Backup.continues_listingGrammar.takes_read rfl rfl
  | server => exact takes_readServerLine
  | statistics => exact Statistics.continues_grammar.takes_read rfl rfl
  | problemReport => exact takes_readProblemReportLine

theorem takes_readVirtualNetworkLine : (readVirtualNetworkLine table start args).Takes
    (FamilyKind.virtualNetwork.stream table start args) .serverVirtualNetwork ∅ := by
  unfold readVirtualNetworkLine FamilyKind.stream
  dsimp only
  generalize args.drop start = words
  cases words with
  | nil => exact takes_throw
  | cons verb rest =>
    dsimp only [List.head?_cons, Option.bind_some]
    generalize VirtualNetwork.readCommand? verb = command
    cases command with
    | some command =>
      exact VirtualNetwork.continues_grammar.takes rfl rfl fun _ =>
        Reading.yields_bind fun _ => Reading.yields_pure ⟨rfl, rfl⟩
    | none =>
      cases VirtualNetwork.shortForm? verb rest with
      | some network => exact takes_pure rfl rfl
      | none => exact takes_throw

theorem takes_readPrivateNetworkLine : (readPrivateNetworkLine table start args).Takes
    (FamilyKind.privateNetwork.stream table start args) .serverPrivateNetwork ∅ := by
  unfold readPrivateNetworkLine
  split
  · exact takes_throw
  · exact PrivateNetwork.continues_grammar.takes rfl rfl fun _ =>
      Reading.yields_bind fun _ => Reading.yields_pure ⟨rfl, rfl⟩

theorem takes_readUsbLine : (readUsbLine table start args).Takes
    (FamilyKind.usb.stream table start args) .serverUsb ∅ := by
  unfold readUsbLine FamilyKind.stream
  dsimp only
  generalize UsbAssignment.ofWords? (args.drop start) = usb
  cases usb with
  | none => exact takes_throw
  | some usb => exact UsbAssignment.continues_grammar.takes_read rfl rfl

theorem takes_readTemplateLine : (readTemplateLine table start args).Takes
    (FamilyKind.template.stream table start args) (FamilyKind.template.action start args) ∅ := by
  unfold readTemplateLine FamilyKind.stream FamilyKind.action
  dsimp only
  by_cases hcopy : (args.drop start).head? = some "copy"
  · obtain ⟨rest, hrest⟩ := List.head?_eq_some_iff.1 hcopy
    rw [if_pos hcopy, if_pos hcopy, hrest]
    show (readTemplateCopyLine table (start + 1) args).Takes _ _ _
    unfold readTemplateCopyLine
    generalize args.drop (start + 1) = words
    rcases words with _ | ⟨host, _ | ⟨name, rest⟩⟩
    · exact takes_throw
    · exact takes_throw
    · exact (yields_readPositionalLogin _ _ _).takes fun _ _ =>
        TemplateCopy.continues_grammar.takes_read rfl rfl
  · rw [if_neg hcopy, if_neg hcopy]
    split
    case h_4 hwords => exact absurd (by rw [hwords]; rfl) hcopy
    case h_1 => exact takes_pure (by split <;> rfl) (by split <;> rfl)
    case h_2 => exact takes_pure rfl rfl
    all_goals exact takes_throw

/-- A line of a family is for its action, and on this host to begin with. -/
theorem FamilyKind.takes_read {kind : FamilyKind} : (kind.read table start args).Takes
    (kind.stream table start args) (kind.action start args)
    (.ofTexts (assignedTexts [] (kind.logins start args))) := by
  cases kind with
  | nodeBackup => exact Backup.continues_makingGrammar.takes_read rfl rfl
  | virtualNetwork => exact takes_readVirtualNetworkLine
  | privateNetwork => exact takes_readPrivateNetworkLine
  | usb => exact takes_readUsbLine
  | shaping =>
    unfold FamilyKind.read readShapingLine
    dsimp only
    split
    · exact takes_readServerLine
    · exact takes_throw
  | template =>
    rw [ofTexts_of_role_ne]
    · exact takes_readTemplateLine
    · intro l hl
      unfold FamilyKind.logins at hl
      dsimp only at hl
      split at hl
      · split at hl
        · rw [List.mem_singleton.1 hl]
          simp
        · cases hl
      · cases hl

end Lines

/-! ## Programs -/

/-- **A line takes its stream for its action**, from the login of its guest on if that is told. -/
theorem Command.takes_read (c : Command) (args : List String) : (c.read args).Takes (c.stream args)
    (c.action args) (.ofTexts (assignedTexts [] (c.logins args))) := by
  cases c with
  | line kind action table start => exact kind.takes_read
  | family kind table start => exact kind.takes_read
  | monitor =>
    simp only [read, readMonitorLine]
    split
    · exact takes_pure rfl rfl
    · exact takes_throw

/-- The login of an accepted line is that of its login texts, if no password is read from a file. -/
theorem Command.yields_read {c : Command} {args : List String}
    (h : ∀ m ∈ (c.stream args).options, m.id ≠ .readPassword) :
    (c.read args).Yields fun r =>
      r.login = .ofTexts (assignedTexts (c.stream args).options (c.logins args)) := by
  refine (c.takes_read args (fun r r' => r'.login =
    ((c.stream args).options.filterMap loginText?).foldl Login.assign r.login)
    fun α g record hg a => Grammar.yields_read
      (hg.steps (fun m hm => h m (Stream.mem_options.2 hm)) a)).mono ?_
  rintro r ⟨r₀, r₁, -, hlogin, hr₁, -, hr⟩
  rw [hr, hr₁, hlogin, Login.ofTexts, Login.ofTexts, assignedTexts, assignedTexts,
    List.filterMap_nil, List.append_nil, List.foldl_append]

/-- The login texts of a line, in the order in which they are assigned. -/
def Program.loginTexts (p : Program) (args : List String) : List LoginText :=
  assignedTexts (p.options args) (p.logins args)

/-- **The login of an accepted line is that of its login texts**, if no password is read from a
file. -/
theorem Program.yields_read {p : Program} {args : List String}
    (h : ∀ m ∈ p.options args, m.id ≠ .readPassword) :
    (p.read args).Yields fun r => r.login = .ofTexts (p.loginTexts args) := by
  unfold options command? at h
  unfold read loginTexts options logins command?
  generalize p.help? args = help at h ⊢
  cases help with
  | some help => exact Reading.yields_bind fun _ => Reading.yields_throw
  | none =>
    dsimp only at h ⊢
    generalize p.command args = command at h ⊢
    cases command with
    | error u => exact Reading.yields_throw
    | ok c => exact Command.yields_read h

end VmControl
