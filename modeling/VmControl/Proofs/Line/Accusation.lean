import VmControl.Proofs.Line.Refusal
import VmControl.Proofs.Line.Visit

/-!
# Which credential is turned down

A line that is turned down for a credential names the option, or the part that a login plays, and
leaves the text out.  The option is the last one that was come to, and its value is not well formed;
else it is the next login in front of a name that is not.

## Main definitions

* `Match.IsMalformed`: the value of an option is a credential that is not well formed.
* `Match.Explains`: an error that is about a credential is about that of an option.
* `CommandError.IsFault`: an error says that something is wrong, and does not end the line well.
* `Reading.Accuses`: a reading that is turned down for a credential names what it came to last.

## Main statements

* `Grammar.Accuses.steps`: options and arguments that are turned down for a credential name the
  last option.
* `Program.accuses_read`: what a program names.
-/

namespace VmControl

open Options

/-! ## Errors about credentials -/

/-- Whether an error is about no credential. -/
def CommandError.IsNeutral (u : CommandError) : Prop := ∀ name, u ≠ .badSecret name

@[simp] theorem CommandError.isNeutral_iff {u : CommandError} :
    u.IsNeutral ↔ ∀ name, u ≠ .badSecret name :=
  Iff.rfl

theorem CommandError.isNeutral_of_isRefusal {u : CommandError} (h : u.isRefusal = true) :
    u.IsNeutral := by
  rintro name rfl
  cases h

/-- Whether the value of an option is a credential that is not well formed. -/
def Options.Match.IsMalformed (m : Match OptionId) : Prop :=
  match m.id with
  | .login | .storage => LoginText.read m.text = none
  | .setting (.secret .guestPassword) => ':' ∉ m.text.toList
  | _ => False

/-- Options with credentials that are not well formed are options with credentials. -/
theorem Options.Match.IsMalformed.isCredential {m : Match OptionId} (h : m.IsMalformed) :
    m.id.isCredential = true := by
  unfold IsMalformed at h
  split at h
  case h_1 hid | h_2 hid | h_3 hid => rw [hid]; rfl
  case h_4 => exact h.elim

/-- Whether an error that is about a credential is about that of an option. -/
def Options.Match.Explains (m : Match OptionId) (u : CommandError) : Prop :=
  ∀ name, u = .badSecret name → m.IsMalformed ∧ m.name = name

@[simp] theorem Options.Match.explains_iff {m : Match OptionId} {u : CommandError} :
    m.Explains u ↔ ∀ name, u = .badSecret name → m.IsMalformed ∧ m.name = name :=
  Iff.rfl

theorem CommandError.IsNeutral.explains {u : CommandError} (h : u.IsNeutral) (m : Match OptionId) :
    m.Explains u :=
  fun name hname => absurd hname (h name)

/-- Whether an error says that something is wrong, and not that the line is done with. -/
def CommandError.IsFault (u : CommandError) : Prop := ∀ status, u ≠ .exit status

@[simp] theorem CommandError.isFault_iff {u : CommandError} :
    u.IsFault ↔ ∀ status, u ≠ .exit status :=
  Iff.rfl

theorem CommandError.isFault_of_isRefusal {u : CommandError} (h : u.isRefusal = true) :
    u.IsFault := by
  rintro status rfl
  cases h

/-- Whether an error says that something is wrong that is no credential. -/
def CommandError.IsPlainFault (u : CommandError) : Prop := u.IsNeutral ∧ u.IsFault

@[simp] theorem CommandError.isPlainFault_iff {u : CommandError} :
    u.IsPlainFault ↔ u.IsNeutral ∧ u.IsFault :=
  Iff.rfl

/-- Whether an error says that something is wrong, and with the option if with a credential. -/
def Options.Match.Faults (m : Match OptionId) (u : CommandError) : Prop := m.Explains u ∧ u.IsFault

@[simp] theorem Options.Match.faults_iff {m : Match OptionId} {u : CommandError} :
    m.Faults u ↔ m.Explains u ∧ u.IsFault :=
  Iff.rfl

theorem RefusesValue.isNeutral {α : Type} {x : Except CommandError α} (h : RefusesValue x) :
    FailsOnly CommandError.IsNeutral x :=
  h.mono fun _ => CommandError.isNeutral_of_isRefusal

theorem RefusesValue.isFault {α : Type} {x : Except CommandError α} (h : RefusesValue x) :
    FailsOnly CommandError.IsFault x :=
  h.mono fun _ => CommandError.isFault_of_isRefusal

theorem RefusesValue.faults {α : Type} {x : Except CommandError α} (h : RefusesValue x)
    (m : Match OptionId) : FailsOnly m.Faults x := fun u hu =>
  ⟨(h.isNeutral u hu).explains m, h.isFault u hu⟩

/-! ## Readings that fail -/

namespace Reading

variable {α β : Type} {E : CommandError → Prop}

/-- Whether a reading fails with such an error only. -/
def FailsOnly (E : CommandError → Prop) (x : Reading α) : Prop :=
  ∀ host e, VmControl.FailsOnly E (x.after host e).1

theorem FailsOnly.mono {E' : CommandError → Prop} {x : Reading α} (h : x.FailsOnly E)
    (hE : ∀ u, E u → E' u) : x.FailsOnly E' :=
  fun host e => (h host e).mono hE

@[simp] theorem failsOnly_pure (a : α) : (pure a : Reading α).FailsOnly E := by
  simp [FailsOnly]

@[simp] theorem failsOnly_ofExcept {x : Except CommandError α} :
    (ofExcept x).FailsOnly E ↔ VmControl.FailsOnly E x := by
  refine ⟨fun h => ?_, fun h host e => by rwa [after_ofExcept]⟩
  simpa using h ⟨fun _ => .error "", fun _ => .error ""⟩ (.start .initial)

@[simp] theorem failsOnly_throw {u : CommandError} : (throw u : Reading α).FailsOnly E ↔ E u := by
  refine ⟨fun h => ?_, fun h host e => by simpa using h⟩
  simpa using h ⟨fun _ => .error "", fun _ => .error ""⟩ (.start .initial)

@[simp] theorem failsOnly_enter (m : Match OptionId) : (enter m).FailsOnly E := by
  simp [FailsOnly]

@[simp] theorem failsOnly_enterLogin (l : PlacedLogin) : (enterLogin l).FailsOnly E := by
  simp [FailsOnly]

@[simp] theorem failsOnly_wipe (s : Option Slot) : (wipe s).FailsOnly E := by
  simp [FailsOnly]

@[simp] theorem failsOnly_write (n : Note) : (write n).FailsOnly E := by
  simp [FailsOnly]

@[simp] theorem failsOnly_warn (origin text : String) : (warn origin text).FailsOnly E := by
  simp [FailsOnly]

@[simp] theorem failsOnly_prefer (f : Preferences → Preferences) : (prefer f).FailsOnly E := by
  simp [FailsOnly]

@[simp] theorem failsOnly_host : (read : Reading Host).FailsOnly E := by
  simp [FailsOnly]

@[simp] theorem failsOnly_readFile (path : String)
    (h : ∀ reason, E (.unreadable path reason)) : (readFile path).FailsOnly E := by
  intro host e
  rw [after_readFile]
  cases host.readFile path with
  | ok text => exact VmControl.failsOnly_ok text
  | error reason => exact VmControl.failsOnly_error.2 (h reason)

@[simp] theorem failsOnly_bind {x : Reading α} {f : α → Reading β} (hx : x.FailsOnly E)
    (hf : ∀ a, (f a).FailsOnly E) : (x >>= f).FailsOnly E := by
  intro host e
  have hxe := hx host e
  rw [after_bind]
  generalize x.after host e = out at hxe ⊢
  obtain ⟨u | a, e'⟩ := out
  · exact VmControl.failsOnly_error.2 (hxe u rfl)
  · exact hf a host e'

@[simp] theorem failsOnly_map {x : Reading α} {f : α → β} (hx : x.FailsOnly E) :
    (f <$> x).FailsOnly E := by
  rw [map_eq_pure_bind]
  exact failsOnly_bind hx fun a => failsOnly_pure (f a)

end Reading

/-! ## One option -/

/-- A login that is turned down is not well formed. -/
theorem failsOnly_readLogin {m : Match OptionId} (hid : m.id = .login ∨ m.id = .storage) :
    (readLogin m).FailsOnly m.Faults := by
  refine Reading.failsOnly_bind (Reading.failsOnly_wipe _) fun _ => ?_
  cases htext : LoginText.read m.text with
  | some login => exact Reading.failsOnly_pure login
  | none =>
    refine Reading.failsOnly_throw.2 ⟨fun name hname => ⟨?_, CommandError.badSecret.inj hname⟩,
      nofun⟩
    unfold Match.IsMalformed
    rcases hid with hid | hid <;> rw [hid] <;> exact htext

@[simp] theorem failsOnly_readSecret {E : CommandError → Prop} (m : Match OptionId) :
    (readSecret m).FailsOnly E := by
  simp [readSecret]

@[simp] theorem failsOnly_readSecurityLevel (m m' : Match OptionId) :
    (readSecurityLevel m).FailsOnly m'.Faults := by
  unfold readSecurityLevel
  split <;> simp

theorem failsOnly_readCommonOption (m : Match OptionId) :
    (readCommonOption m).FailsOnly m.Faults := by
  unfold readCommonOption
  split
  case h_1 hid => exact Reading.failsOnly_bind (failsOnly_readLogin (.inl hid)) fun _ => by simp
  all_goals simp [readPasswordFile]

/-! ## Grammars -/

/-- Whether a grammar turns an option down for its credential only if that is not well formed, and
arguments never. -/
structure Grammar.Accuses {α : Type} (g : Grammar α) : Prop where
  /-- Arguments hold no credentials. -/
  argument : ∀ index token a, (g.argument index token a).FailsOnly CommandError.IsNeutral
  /-- An option is named for its own credential. -/
  option : ∀ m a, (g.option m a).FailsOnly m.Explains

/-- Whether a grammar turns options and arguments down for what is wrong with them, and an option
for its credential only if that is not well formed. -/
structure Grammar.Faults {α : Type} (g : Grammar α) : Prop where
  /-- Arguments hold no credentials. -/
  argument : ∀ index token a, (g.argument index token a).FailsOnly CommandError.IsPlainFault
  /-- An option is named for its own credential. -/
  option : ∀ m a, (g.option m a).FailsOnly m.Faults

theorem Grammar.Faults.accuses {α : Type} {g : Grammar α} (hg : g.Faults) : g.Accuses where
  argument index token a := (hg.argument index token a).mono fun _ hu => hu.1
  option m a := (hg.option m a).mono fun _ hu => hu.1

@[simp] theorem failsOnly_refuseArgument {α : Type} (index : Nat) (token : String) (a : α) :
    (refuseArgument index token a).FailsOnly CommandError.IsPlainFault := by
  simp [refuseArgument]

@[simp] theorem failsOnly_refuseOption {α : Type} (m m' : Match OptionId) :
    (refuseOption m : Reading α).FailsOnly m'.Faults := by
  simp [refuseOption]

namespace Backup

theorem failsOnly_takeStorage {m : Match OptionId} (hid : m.id = .storage) (r : Record) :
    (takeStorage m r).FailsOnly m.Faults :=
  Reading.failsOnly_bind (failsOnly_readLogin (.inr hid)) fun _ => by simp

@[simp] theorem failsOnly_takeSecurityLevel (m m' : Match OptionId) (r : Record) :
    (takeSecurityLevel m r).FailsOnly m'.Faults := by
  simp [takeSecurityLevel]

@[simp] theorem failsOnly_takeId (m m' : Match OptionId) (r : Record) :
    (takeId m r).FailsOnly m'.Faults := by
  simp [takeId]

@[simp] theorem failsOnly_takeOnlyTarget (index : Nat) (token : String) (r : Record) :
    (takeOnlyTarget index token r).FailsOnly CommandError.IsPlainFault := by
  unfold takeOnlyTarget
  split
  · simp
  · split <;> simp

theorem faults_makingGrammar : makingGrammar.Faults where
  argument := failsOnly_refuseArgument
  option m r := by
    simp only [makingGrammar, recordGrammar, takeMakingOption]
    split
    case h_2 hid => exact failsOnly_takeStorage hid r
    all_goals simp

theorem faults_restoringGrammar : restoringGrammar.Faults where
  argument := failsOnly_takeOnlyTarget
  option m r := by
    simp only [restoringGrammar, recordGrammar, takeRestoringOption]
    split
    case h_6 hid => exact failsOnly_takeStorage hid r
    case h_8 => simp [(refusesValue_readLocation _ _).faults]
    all_goals simp

theorem faults_deletingGrammar : deletingGrammar.Faults where
  argument := failsOnly_takeOnlyTarget
  option m r := by
    simp only [deletingGrammar, recordGrammar, takeDeletingOption]
    split
    case h_2 hid => exact failsOnly_takeStorage hid r
    all_goals simp

theorem faults_listingGrammar : listingGrammar.Faults where
  argument _ _ _ := by simp [listingGrammar, recordGrammar, takeLastTarget]
  option m r := by
    simp only [listingGrammar, recordGrammar, takeListingOption]
    split
    case h_5 hid => exact failsOnly_takeStorage hid r
    case h_7 => simp [(Setting.refusesValue_choose _ _ _).faults]
    all_goals simp

end Backup

theorem Server.failsOnly_takeStorage {m : Match OptionId} (hid : m.id = .storage) (s : Server) :
    (takeStorage m s).FailsOnly m.Faults :=
  Reading.failsOnly_bind (failsOnly_readLogin (.inr hid)) fun _ => by simp

@[simp] theorem Server.failsOnly_readKey (path : String) (m : Match OptionId) :
    (readKey path).FailsOnly m.Faults := by
  unfold readKey
  split <;> simp

theorem Server.faults_grammar : grammar.Faults where
  argument := failsOnly_refuseArgument
  option m r := by
    simp only [grammar, recordGrammar, takeOption]
    split
    case h_1 => simp [(ServerSetting.refusesValue_read _ _ _).faults]
    case h_2 hid => exact Reading.failsOnly_bind (failsOnly_takeStorage hid _) fun _ => by simp
    case h_7 => simp [(Switch.refusesValue_read _ _ _).faults]
    case h_12 => simp [(PasswordRules.refusesValue_read _ _ _).faults]
    case h_16 =>
      split
      · next hentry => simp [(refusesValue_of_entry hentry).faults]
      · simp
    all_goals simp

theorem Migration.faults_grammar : grammar.Faults where
  argument := failsOnly_refuseArgument
  option m r := by
    simp only [grammar, recordGrammar, takeOption]
    split
    case h_3 => simp [(refusesValue_readLocation _ _).faults]
    all_goals simp

theorem VirtualNetwork.faults_grammar : grammar.Faults where
  argument _ _ r := by
    simp only [grammar, recordGrammar, takeName]
    split <;> simp
  option m r := by
    simp only [grammar, recordGrammar, takeOption]
    split
    case h_2 => simp [(NetworkSetting.refusesValue_read _ _ _).faults]
    case h_3 | h_4 => split <;> simp
    all_goals simp

theorem PrivateNetwork.faults_grammar : grammar.Faults where
  argument _ _ r := by
    simp only [grammar, recordGrammar, takeName]
    split <;> simp
  option m r := by
    simp only [grammar, recordGrammar, takeOption]
    split
    case h_3 => split <;> simp
    all_goals simp

theorem UsbAssignment.faults_grammar : grammar.Faults where
  argument := failsOnly_refuseArgument
  option m r := by
    simp only [grammar, recordGrammar, takeOption]
    split <;> simp

theorem Statistics.faults_grammar : grammar.Faults where
  argument _ _ _ := by simp [grammar, recordGrammar, takeTarget]
  option m r := by
    simp only [grammar, recordGrammar, takeOption]
    split <;> simp

theorem TemplateCopy.faults_grammar : grammar.Faults where
  argument := failsOnly_refuseArgument
  option m r := by
    simp only [grammar, recordGrammar, takeOption]
    split <;> simp

theorem ProblemReport.faults_grammar : grammar.Faults where
  argument := failsOnly_refuseArgument
  option m r := by
    simp only [grammar, recordGrammar, takeOption]
    split <;> simp

/-! ### Guests -/

namespace Draft

theorem refusesValue_select (d : Draft) (s : Selector) (value : String) :
    RefusesValue (d.select s value) := by
  unfold select
  cases s <;> dsimp only <;> try exact failsOnly_ok _
  all_goals split <;> simp [CommandError.isRefusal]

/-- A setting that is turned down for a credential is a password without a user. -/
theorem faults_readSetting {m : Match OptionId} {s : Setting} (hid : m.id = .setting s) :
    FailsOnly m.Faults (s.read m.name m.text) := by
  by_cases hs : ∃ t, s = .secret t
  · obtain ⟨t, rfl⟩ := hs
    intro u hu
    obtain ⟨rfl, hcolon, rfl⟩ := SecretSetting.error_of_read hu
    refine ⟨fun name hname => ⟨?_, CommandError.badSecret.inj hname⟩, nofun⟩
    unfold Match.IsMalformed
    rw [hid]
    exact hcolon
  · exact (Setting.refusesValue_read (fun t ht => hs ⟨t, ht⟩) _ _).faults m

theorem faults_applyPure (d : Draft) (m : Match OptionId) : FailsOnly m.Faults (d.applyPure m) := by
  have henter {β : Type} {x : Except CommandError β} {f : β → Draft} (hx : RefusesValue x) :
      FailsOnly m.Faults (x >>= fun b => pure (f b)) :=
    failsOnly_bind (hx.faults m) fun _ => failsOnly_pure _
  unfold applyPure
  dsimp only
  split
  case h_1 hid => exact failsOnly_bind (faults_readSetting hid) fun _ => failsOnly_pure _
  case h_2 => exact (refusesValue_select _ _ _).faults m
  case h_3 => exact henter (DeviceSetting.refusesValue_read _ _ _)
  case h_4 => exact henter (AdapterSetting.refusesValue_read _ _ _)
  case h_8 | h_17 => exact henter (Setting.refusesValue_choose _ _ _)
  case h_11 | h_12 | h_13 => exact henter (ResourceLimit.refusesValue_choose _ _ _ _)
  case h_14 => exact failsOnly_map ((CapabilityMask.refusesValue_applyItems _ _ _).faults m)
  case h_15 => exact failsOnly_map ((Features.refusesValue_applyItems _ _).faults m)
  case h_18 => exact henter (Expiration.refusesValue_apply _ _)
  case h_19 => exact henter (PasswordRules.refusesValue_read _ _ _)
  case h_25 => split <;> simp
  case h_26 => exact henter (FirewallRule.refusesValue_read _)
  all_goals simp

theorem failsOnly_showGuests (option value : String) (guests : List Guest) {listed : CommandError}
    (h : listed.IsNeutral) (m : Match OptionId) :
    (showGuests option value guests listed).FailsOnly m.Explains := by
  have hend (asked : Bool) :
      (throw (if asked then listed else .reported) : Reading Draft).FailsOnly m.Explains := by
    cases asked with
    | false => simp
    | true => exact Reading.failsOnly_throw.2 (h.explains m)
  simp only [showGuests]
  split
  · exact Reading.failsOnly_bind (Reading.failsOnly_write _) fun _ =>
      Reading.failsOnly_bind (Reading.failsOnly_write _) fun _ => hend _
  · exact Reading.failsOnly_bind (Reading.failsOnly_write _) fun _ => hend _

theorem accuses_grammar : grammar.Accuses where
  argument _ _ d := by
    simp only [grammar, takeArgument]
    split <;> simp
  option m d := by
    have hpure : (Reading.ofExcept (d.applyPure m)).FailsOnly m.Explains :=
      Reading.failsOnly_ofExcept.2 ((d.faults_applyPure m).mono fun _ hu => hu.1)
    simp only [grammar, apply]
    cases hconflict : d.conflict? m.id with
    | some u =>
      have hu : u.IsNeutral :=
        CommandError.isNeutral_of_isRefusal (isRefusal_of_conflict? hconflict)
      dsimp only
      rw [Reading.throw_bind]
      exact Reading.failsOnly_throw.2 (hu.explains m)
    | none =>
      dsimp only
      split
      case h_2 => split <;> simp [failsOnly_showGuests]
      case h_3 => split <;> simp [failsOnly_showGuests]
      case h_4 => split <;> simp
      case h_5 => split <;> simp [hpure]
      all_goals simp [hpure]

end Draft

/-! ## Whole lines -/

namespace Reading

variable {α β : Type}

/-- Whether a reading that is turned down for a credential names the last option that it came to,
whose value is not well formed, or the next one of these logins, which is not. -/
def Accuses (x : Reading α) (ls : List PlacedLogin) : Prop :=
  ∀ host e name, (x.after host e).1 = .error (.badSecret name) →
    (∃ m, (x.after host e).2.options.getLast? = some m ∧ m.IsMalformed ∧ m.name = name) ∨
    ∃ ls' l, (x.after host e).2.logins = e.logins ++ ls' ∧ ls' ++ [l] <+: ls ∧ l.role = name ∧
      LoginText.read l.text = none

theorem FailsOnly.accuses {x : Reading α} (hx : x.FailsOnly CommandError.IsNeutral)
    (ls : List PlacedLogin) : x.Accuses ls :=
  fun host e name h => absurd rfl (hx host e _ h name)

theorem Accuses.append {x : Reading α} {ls : List PlacedLogin} (hx : x.Accuses ls)
    (ls' : List PlacedLogin) : x.Accuses (ls ++ ls') := fun host e name h =>
  (hx host e name h).imp_right fun ⟨ls₁, l, hlogins, hprefix, hl⟩ =>
    ⟨ls₁, l, hlogins, hprefix.trans (List.prefix_append ..), hl⟩

/-- **What follows a reading names what it came to itself.** -/
theorem Accuses.bind {x : Reading α} {f : α → Reading β} {ms : List (Match OptionId)}
    {ls ls' : List PlacedLogin} (hx : x.Accuses ls) (hvisits : x.Visits ms ls)
    (hf : ∀ a, (f a).Accuses ls') : (x >>= f).Accuses (ls ++ ls') := by
  intro host e name h
  have haccuses := hx.append ls' host e name
  obtain ⟨ms₁, ls₁, -, -, hvisit, hall⟩ := hvisits host e
  rw [after_bind] at h ⊢
  generalize x.after host e = out at h haccuses hvisit hall ⊢
  obtain ⟨u | a, e'⟩ := out
  · cases h
    exact haccuses rfl
  · obtain ⟨-, rfl⟩ := hall a rfl
    refine (hf a host e' name h).imp_right fun ⟨ls₂, l, hlogins, hprefix, hl⟩ => ?_
    refine ⟨ls₁ ++ ls₂, l, ?_, ?_, hl⟩
    · rw [hlogins, hvisit.logins, List.append_assoc]
    · rw [List.append_assoc]
      exact (List.prefix_append_right_inj ls₁).2 hprefix

/-- What follows a reading without credentials adds nothing. -/
theorem Accuses.bind_neutral {x : Reading α} {f : α → Reading β} {ms : List (Match OptionId)}
    {ls : List PlacedLogin} (hx : x.Accuses ls) (hvisits : x.Visits ms ls)
    (hf : ∀ a, (f a).FailsOnly CommandError.IsNeutral) : (x >>= f).Accuses ls := by
  simpa using hx.bind hvisits fun a => (hf a).accuses []

/-- An option that was entered is the last one. -/
theorem accuses_enter {m : Match OptionId} {x : Reading α} {slots : List Slot}
    (hwipes : x.Wipes slots) (hx : x.FailsOnly m.Explains) (ls : List PlacedLogin) :
    (enter m >>= fun _ => x).Accuses ls := by
  intro host e name h
  rw [after_bind, after_enter] at h ⊢
  have hoptions := (hwipes.log host { e with options := e.options ++ [m] }).1
  refine .inl ⟨m, ?_, hx _ _ _ h name rfl⟩
  dsimp only
  rw [hoptions, List.getLast?_concat]

end Reading

section Grammar

variable {α : Type} {g : Grammar α} {ids : List OptionId}

theorem Grammar.Accuses.step (hg : g.Accuses) (hwipes : g.Wipes ids) {m : Match OptionId}
    (hm : m.id.isCredential → m.id = .login ∨ m.id ∈ ids) (a : α) :
    (g.step a (.option m)).Accuses [] := by
  refine Reading.accuses_enter (hwipes.option_wipes hm a) ?_ []
  refine Reading.failsOnly_bind ((failsOnly_readCommonOption m).mono fun _ hu => hu.1) fun f => ?_
  cases f with
  | some f => exact Reading.failsOnly_pure _
  | none => exact hg.option m a

/-- **Options that are turned down for a credential name the last one.** -/
theorem Grammar.Accuses.steps (hg : g.Accuses) (hwipes : g.Wipes ids)
    {events : List (Event OptionId)}
    (h : ∀ m, .option m ∈ events → m.id.isCredential → m.id = .login ∨ m.id ∈ ids) (a : α) :
    (g.steps a events).Accuses [] := by
  induction events generalizing a with
  | nil => exact (Reading.failsOnly_pure a).accuses []
  | cons event events ih =>
    have ih := ih fun m hm => h m (List.mem_cons_of_mem _ hm)
    unfold Grammar.steps at ih ⊢
    rw [List.foldlM_cons]
    cases event with
    | unknown index token =>
      have hargument := hg.argument index token a
      exact (hargument.accuses []).bind (hwipes.argument index token a).visits ih
    | option m =>
      have hm := h m (List.mem_cons_self ..)
      exact (hg.step hwipes hm a).bind (hwipes.visits_step hm a) ih

/-- So does a line that is taken to its end. -/
theorem Grammar.Accuses.read (hg : g.Accuses) (hwipes : g.Wipes ids) {s : Stream OptionId}
    (h : ∀ m, .option m ∈ s.events → m.id.isCredential → m.id = .login ∨ m.id ∈ ids) (a : α) :
    (g.read a s).Accuses [] :=
  (hg.steps hwipes h a).bind_neutral (hwipes.visits_steps h a) fun a => by
    cases s.missing <;> simp

end Grammar

/-- A login that is turned down is the next one. -/
theorem accuses_readPositionalLogin (index : Nat) (role text : String) :
    (readPositionalLogin index role text).Accuses [⟨index, role, text⟩] := by
  intro host e name h
  unfold readPositionalLogin at h ⊢
  cases htext : LoginText.read text with
  | none =>
    rw [htext] at h
    cases h
    exact .inr ⟨[], _, by simp, List.prefix_rfl, rfl, htext⟩
  | some login =>
    rw [htext] at h
    simp [Except.map] at h

theorem accuses_readTarget (index : Nat) (role token : String) :
    (readTarget index role token).Accuses (targetLogins index role token) := by
  unfold readTarget targetLogins
  cases cutSlash token with
  | none => exact (Reading.failsOnly_pure _).accuses []
  | some cut =>
    exact (accuses_readPositionalLogin index role cut.1).bind_neutral
      (visits_readPositionalLogin index role cut.1) fun _ => by simp

section Lines

variable {action : Action} {table : CommandTable} {start : Nat} {args : List String}

/-- Rules that are enforced in the end are not about credentials. -/
theorem Reading.Accuses.enforce {x : Reading Record} {ms : List (Match OptionId)}
    {ls : List PlacedLogin} (hx : x.Accuses ls) (hvisits : x.Visits ms ls)
    (rules : Record → List Rule) :
    (do let r ← x
        Reading.ofExcept (Rule.enforce (rules r))
        return r : Reading Record).Accuses ls :=
  hx.bind_neutral hvisits fun r => by simp [(refusesValue_enforce (rules r)).isNeutral]

theorem Record.failsOnly_settle {E : CommandError → Prop} (h : ∀ u, u.isRefusal = true → E u)
    (r : Record) : r.settle.FailsOnly E := by
  have hend : (do Reading.ofExcept (r.consistent (← read)) : Reading Record).FailsOnly E :=
    Reading.failsOnly_bind Reading.failsOnly_host fun host =>
      Reading.failsOnly_ofExcept.2 ((refusesValue_consistent host r).mono h)
  unfold settle
  split
  · exact Reading.failsOnly_bind (Reading.failsOnly_warn _ _) fun _ =>
      Reading.failsOnly_bind (Reading.failsOnly_write _) fun _ => hend
  · exact hend

theorem accuses_readGuestLine (h : table.HasOnly LineKind.guest.credentials) :
    (readGuestLine action table start args).Accuses [] := by
  have hread (m : Match OptionId) (hm : .option m ∈ (table.read args (start + 1)).events) :=
    h.of_mem_read m hm
  unfold readGuestLine
  dsimp only
  generalize (if action.takesGuestCommand = true then _ else none) = command
  cases command with
  | some index =>
    have hbefore := fun m hm => hread m (mem_of_mem_splitGuestCommand hm)
    exact (Draft.accuses_grammar.steps Draft.wipes_grammar hbefore _).bind_neutral
      (Draft.wipes_grammar.visits_steps hbefore _) fun _ => by simp
  | none =>
    refine (Draft.accuses_grammar.read Draft.wipes_grammar hread _).bind_neutral
      (Draft.wipes_grammar.visits_read hread _) fun d => ?_
    exact Reading.failsOnly_bind
      (Reading.failsOnly_ofExcept.2 d.refusesValue_finish.isNeutral)
      (Record.failsOnly_settle fun _ => CommandError.isNeutral_of_isRefusal)

theorem accuses_readMigrationLine (h : table.HasOnly LineKind.migration.credentials) :
    (readMigrationLine action table start args).Accuses (LineKind.migration.logins start args) := by
  unfold LineKind.logins
  dsimp only
  cases hsource : args[start]? with
  | none =>
    unfold readMigrationLine
    rw [hsource]
    exact Reading.FailsOnly.accuses (by simp) _
  | some source =>
    cases hdestination : args[start + 1]? with
    | none =>
      unfold readMigrationLine
      rw [hsource, hdestination]
      exact Reading.FailsOnly.accuses (by simp) _
    | some destination =>
      rw [readMigrationLine_eq hsource hdestination]
      refine (accuses_readTarget start "src" source).bind (visits_readTarget _ _ _) fun target => ?_
      have hhost : [hostLogin (start + 1) "dst" destination] =
          [⟨start + 1, "dst", (hostLogin (start + 1) "dst" destination).text⟩] ++ [] := by
        unfold hostLogin
        cases cutSlash destination <;> rfl
      rw [hhost]
      refine (accuses_readPositionalLogin _ _ _).bind (visits_readPositionalLogin _ _ _) fun _ => ?_
      exact (Migration.faults_grammar.accuses.read Migration.wipes_grammar h.of_mem_read _).enforce
        (Migration.wipes_grammar.visits_read h.of_mem_read _) (·.migration.rules)

theorem accuses_readBackupLine (h : table.HasOnly LineKind.backup.credentials) :
    (readBackupLine action table start args).Accuses (LineKind.backup.logins start args) := by
  unfold readBackupLine LineKind.logins
  dsimp only
  cases args[start]? with
  | none => exact Reading.FailsOnly.accuses (by simp) _
  | some name =>
    dsimp only
    rw [← List.nil_append (targetLogins start "node" name)]
    have hgrammar := Backup.faults_makingGrammar.accuses
    refine (hgrammar.read Backup.wipes_makingGrammar h.of_mem_read _).bind
      (Backup.wipes_makingGrammar.visits_read h.of_mem_read _) fun _ => ?_
    exact (accuses_readTarget start "node" name).bind_neutral (visits_readTarget _ _ _)
      fun _ => by simp

theorem accuses_readBackupChoice {grammar : Grammar Record} {ids : List OptionId}
    (hg : grammar.Faults) (hwipes : grammar.Wipes ids) (h : table.HasOnly ids) :
    (readBackupChoice grammar action table start args).Accuses [] := by
  unfold readBackupChoice
  split
  · exact Reading.FailsOnly.accuses (by simp) _
  · exact hg.accuses.read hwipes h.of_mem_read _

theorem accuses_readServerLine (h : table.HasOnly [.storage]) :
    (readServerLine action table start args).Accuses [] :=
  (Server.faults_grammar.accuses.read Server.wipes_grammar h.of_mem_read _).enforce
    (Server.wipes_grammar.visits_read h.of_mem_read _) (·.server.rules)

theorem accuses_readProblemReportLine (h : table.HasOnly LineKind.problemReport.credentials) :
    (readProblemReportLine action table start args).Accuses [] := by
  have hgrammar := ProblemReport.faults_grammar.accuses
  unfold readProblemReportLine
  dsimp only
  split <;>
    exact (hgrammar.read ProblemReport.wipes_grammar h.of_mem_read _).enforce
      (ProblemReport.wipes_grammar.visits_read h.of_mem_read _) (·.report.rules)

/-- A line of a kind that is turned down for a credential names what it came to last. -/
theorem LineKind.accuses_read {kind : LineKind} (h : table.HasOnly kind.credentials) :
    (kind.read action table start args).Accuses (kind.logins start args) := by
  cases kind with
  | guest => exact accuses_readGuestLine h
  | migration => exact accuses_readMigrationLine h
  | backup => exact accuses_readBackupLine h
  | restore =>
    exact accuses_readBackupChoice Backup.faults_restoringGrammar Backup.wipes_restoringGrammar h
  | backupDelete =>
    exact accuses_readBackupChoice Backup.faults_deletingGrammar Backup.wipes_deletingGrammar h
  | backupList =>
    exact Backup.faults_listingGrammar.accuses.read Backup.wipes_listingGrammar h.of_mem_read _
  | server => exact accuses_readServerLine h
  | statistics =>
    exact Statistics.faults_grammar.accuses.read Statistics.wipes_grammar h.of_mem_read _
  | problemReport => exact accuses_readProblemReportLine h

theorem accuses_readVirtualNetworkLine
    (h : table.HasOnly FamilyKind.virtualNetwork.credentials) :
    (readVirtualNetworkLine table start args).Accuses [] := by
  unfold readVirtualNetworkLine
  cases args.drop start with
  | nil => exact Reading.FailsOnly.accuses (by simp) _
  | cons verb rest =>
    dsimp only
    cases VirtualNetwork.readCommand? verb with
    | some command =>
      refine Reading.Accuses.enforce ?_
        (VirtualNetwork.wipes_grammar.visits_read h.of_mem_read _) (·.network.rules)
      exact VirtualNetwork.faults_grammar.accuses.read VirtualNetwork.wipes_grammar h.of_mem_read _
    | none =>
      cases VirtualNetwork.shortForm? verb rest <;> exact Reading.FailsOnly.accuses (by simp) _

theorem accuses_readPrivateNetworkLine
    (h : table.HasOnly FamilyKind.privateNetwork.credentials) :
    (readPrivateNetworkLine table start args).Accuses [] := by
  unfold readPrivateNetworkLine
  cases args[start]?.bind PrivateNetwork.readCommand? with
  | none => exact Reading.FailsOnly.accuses (by simp) _
  | some command =>
    refine Reading.Accuses.enforce ?_
      (PrivateNetwork.wipes_grammar.visits_read h.of_mem_read _) (·.privateNetwork.rules)
    exact PrivateNetwork.faults_grammar.accuses.read PrivateNetwork.wipes_grammar h.of_mem_read _

theorem accuses_readUsbLine (h : table.HasOnly FamilyKind.usb.credentials) :
    (readUsbLine table start args).Accuses [] := by
  unfold readUsbLine
  cases UsbAssignment.ofWords? (args.drop start) with
  | none => exact Reading.FailsOnly.accuses (by simp) _
  | some words =>
    exact UsbAssignment.faults_grammar.accuses.read UsbAssignment.wipes_grammar h.of_mem_read _

theorem accuses_readShapingLine (h : table.HasOnly FamilyKind.shaping.credentials) :
    (readShapingLine table start args).Accuses [] := by
  unfold readShapingLine
  split
  · refine accuses_readServerLine fun e he hc => ?_
    exact .inl ((h e he hc).resolve_right (by simp [FamilyKind.credentials]))
  · exact Reading.FailsOnly.accuses (by simp) _

theorem accuses_readTemplateLine (h : table.HasOnly FamilyKind.template.credentials) :
    (readTemplateLine table start args).Accuses (FamilyKind.template.logins start args) := by
  unfold FamilyKind.logins
  dsimp only
  by_cases hcopy : (args.drop start).head? = some "copy"
  · obtain ⟨rest, hrest⟩ := List.head?_eq_some_iff.1 hcopy
    rw [if_pos hcopy, readTemplateLine, hrest]
    show (readTemplateCopyLine table (start + 1) args).Accuses _
    unfold readTemplateCopyLine
    rcases args.drop (start + 1) with _ | ⟨host, _ | ⟨name, rest⟩⟩
    · exact Reading.FailsOnly.accuses (by simp) _
    · exact Reading.FailsOnly.accuses (by simp) _
    · exact (accuses_readPositionalLogin _ _ _).bind (visits_readPositionalLogin _ _ _) fun _ =>
        TemplateCopy.faults_grammar.accuses.read TemplateCopy.wipes_grammar h.of_mem_read _
  · rw [if_neg hcopy]
    refine Reading.FailsOnly.accuses ?_ _
    unfold readTemplateLine
    dsimp only
    split
    case h_4 hwords => exact absurd (by rw [hwords]; rfl) hcopy
    all_goals simp

/-- So does a line of a family. -/
theorem FamilyKind.accuses_read {kind : FamilyKind} (h : table.HasOnly kind.credentials) :
    (kind.read table start args).Accuses (kind.logins start args) := by
  cases kind with
  | nodeBackup =>
    exact Backup.faults_makingGrammar.accuses.read Backup.wipes_makingGrammar h.of_mem_read _
  | virtualNetwork => exact accuses_readVirtualNetworkLine h
  | privateNetwork => exact accuses_readPrivateNetworkLine h
  | usb => exact accuses_readUsbLine h
  | shaping => exact accuses_readShapingLine h
  | template => exact accuses_readTemplateLine h

end Lines

/-! ## Programs -/

theorem Command.accuses_read {c : Command} (h : c.WellEquipped) (args : List String) :
    (c.read args).Accuses (c.logins args) := by
  cases c with
  | line kind action table start => exact kind.accuses_read h
  | family kind table start => exact kind.accuses_read h
  | monitor =>
    refine Reading.FailsOnly.accuses ?_ _
    simp only [Command.read, readMonitorLine]
    split <;> simp

/-- **A program that turns a line down for a credential names the option that it came to last, or
the next login in front of a name.** -/
theorem Program.accuses_read (p : Program) (args : List String) :
    (p.read args).Accuses (p.logins args) := by
  unfold read logins command?
  cases hhelp : p.help? args with
  | some help =>
    obtain ⟨text, u⟩ := help
    have hu : u.IsNeutral := by
      rcases ending_of_help? hhelp with rfl | rfl <;> simp
    exact Reading.FailsOnly.accuses (Reading.failsOnly_bind (Reading.failsOnly_write _) fun _ =>
      Reading.failsOnly_throw.2 hu) _
  | none =>
    dsimp only
    cases hc : p.command args with
    | error u =>
      have hu : u.IsNeutral := failsOnly_command (by simp) (by simp) p args u hc
      exact Reading.FailsOnly.accuses (Reading.failsOnly_throw.2 hu) _
    | ok c => exact Command.accuses_read (wellEquipped_of_command hc) args

end VmControl
