import VmControl.Proofs.Line.Layout
import VmControl.Proofs.Options.Stream

/-!
# What reading a line wipes

What is done with one option wipes its value if that is a credential, and nothing else, and this
even if the option is turned down.

## Main definitions

* `Reading.Wipes`: a reading wipes these slots and no others.
* `Grammar.Wipes`: a grammar wipes the credentials of these options and no others.
-/

namespace VmControl

open Options

/-! ## Credentials -/

/-- Whether the value of an option is a credential. -/
def OptionId.isCredential : OptionId → Bool
  | .login => true
  | .storage => true
  | .proxy => true
  | .setting s => s.isCredential
  | _ => false

/-- Where the credential of an option stands. -/
def credentialSlot? (m : Match OptionId) : Option Slot :=
  if m.id.isCredential then m.slot? else none

/-- Where the password of a login stands. -/
def PlacedLogin.slot? (l : PlacedLogin) : Option Slot :=
  (LoginText.read l.text).bind fun t =>
    t.password.map fun p => ⟨l.index, p.start, p.stop⟩

/-- Where the credentials of options and logins stand. -/
def credentialSlots (ms : List (Match OptionId)) (ls : List PlacedLogin) : List Slot :=
  ms.filterMap credentialSlot? ++ ls.filterMap PlacedLogin.slot?

/-! ## One option -/

namespace Effects

/-- The effects without what was come to and wiped. -/
def unlogged (e : Effects) : Effects := { e with options := [], logins := [], wiped := [] }

/-- The effects with what was come to and wiped before, and these slots wiped besides. -/
def withLog (f e : Effects) (slots : List Slot) : Effects :=
  { f with options := e.options, logins := e.logins, wiped := e.wiped ++ slots }

end Effects

namespace Reading

variable {α β : Type}

/-- Whether a reading wipes these slots and comes to no further option or login, whether or not it
succeeds, and does not look at what was logged before. -/
def Wipes (x : Reading α) (slots : List Slot) : Prop :=
  ∀ host e, x.after host e =
    ((x.after host e.unlogged).1, (x.after host e.unlogged).2.withLog e slots)

theorem Wipes.log {x : Reading α} {slots : List Slot} (h : x.Wipes slots) (host : Host)
    (e : Effects) : (x.after host e).2.options = e.options ∧ (x.after host e).2.logins = e.logins ∧
      (x.after host e).2.wiped = e.wiped ++ slots := by
  rw [h host e]
  exact ⟨rfl, rfl, rfl⟩

@[simp] theorem wipes_pure (a : α) : (pure a : Reading α).Wipes [] := by
  simp [Wipes, Effects.unlogged, Effects.withLog]

@[simp] theorem wipes_throw (u : CommandError) : (throw u : Reading α).Wipes [] := by
  simp [Wipes, Effects.unlogged, Effects.withLog]

@[simp] theorem wipes_ofExcept (x : Except CommandError α) : (ofExcept x).Wipes [] := by
  simp [Wipes, Effects.unlogged, Effects.withLog]

@[simp] theorem wipes_readFile (path : String) : (readFile path).Wipes [] := by
  simp [Wipes, Effects.unlogged, Effects.withLog]

@[simp] theorem wipes_write (n : Note) : (write n).Wipes [] := by
  simp [Wipes, Effects.unlogged, Effects.withLog, Effects.addNote]

@[simp] theorem wipes_prefer (f : Preferences → Preferences) : (prefer f).Wipes [] := by
  simp [Wipes, Effects.unlogged, Effects.withLog]

theorem wipes_wipe (s : Option Slot) : (wipe s).Wipes s.toList := by
  simp [Wipes, Effects.unlogged, Effects.withLog]

@[simp] theorem wipes_read : (read : Reading Host).Wipes [] := by
  simp [Wipes, Effects.unlogged, Effects.withLog]

@[simp] theorem wipes_warn (origin text : String) : (warn origin text).Wipes [] := by
  intro host e
  simp only [after_warn, Effects.unlogged]
  split <;> simp [Effects.addNote, Effects.withLog]

/-- What follows a reading wipes nothing more. -/
theorem Wipes.bind {x : Reading α} {f : α → Reading β} {slots : List Slot} (hx : x.Wipes slots)
    (hf : ∀ a, (f a).Wipes []) : (x >>= f).Wipes slots := by
  intro host e
  obtain ⟨ho, hl, hw⟩ := hx.log host e.unlogged
  rw [after_bind, after_bind, hx host e]
  generalize x.after host e.unlogged = out at ho hl hw ⊢
  obtain ⟨u | a, f₀⟩ := out
  · rfl
  · dsimp only at ho hl hw ⊢
    rw [hf a host (f₀.withLog e slots), hf a host f₀]
    simp [Effects.withLog, Effects.unlogged]

@[simp] theorem wipes_map {x : Reading α} {f : α → β} {slots : List Slot} (hx : x.Wipes slots) :
    (f <$> x).Wipes slots := by
  rw [map_eq_pure_bind]
  exact hx.bind fun a => wipes_pure (f a)

@[simp] theorem wipes_bind {x : Reading α} {f : α → Reading β} (hx : x.Wipes [])
    (hf : ∀ a, (f a).Wipes []) : (x >>= f).Wipes [] :=
  hx.bind hf

end Reading

theorem wipes_readLogin (m : Match OptionId) : (readLogin m).Wipes m.slot?.toList :=
  (Reading.wipes_wipe _).bind fun _ => by cases LoginText.read m.text <;> simp

theorem wipes_readSecret (m : Match OptionId) : (readSecret m).Wipes m.slot?.toList :=
  (Reading.wipes_wipe _).bind fun _ => by simp

@[simp] theorem wipes_readSecurityLevel (m : Match OptionId) : (readSecurityLevel m).Wipes [] := by
  unfold readSecurityLevel
  split <;> simp

/-! ## Grammars -/

/-- Whether a grammar wipes the credentials of some options and nothing else. -/
structure Grammar.Wipes {α : Type} (g : Grammar α) (ids : List OptionId) : Prop where
  /-- Arguments hold no credentials. -/
  argument : ∀ index token a, (g.argument index token a).Wipes []
  /-- Credentials are wiped. -/
  credential : ∀ m a, m.id ∈ ids → (g.option m a).Wipes m.slot?.toList
  /-- Nothing else is wiped. -/
  other : ∀ m a, m.id.isCredential = false → (g.option m a).Wipes []

@[simp] theorem wipes_refuseArgument {α : Type} (index : Nat) (token : String) (a : α) :
    (refuseArgument index token a).Wipes [] := by
  simp [refuseArgument]

@[simp] theorem wipes_refuseOption {α : Type} (m : Match OptionId) :
    (refuseOption m : Reading α).Wipes [] := by
  simp [refuseOption]

theorem Backup.wipes_takeStorage (m : Match OptionId) (r : Record) :
    (takeStorage m r).Wipes m.slot?.toList :=
  (wipes_readLogin m).bind fun _ => by simp

@[simp] theorem Backup.wipes_takeSecurityLevel (m : Match OptionId) (r : Record) :
    (takeSecurityLevel m r).Wipes [] := by
  simp [takeSecurityLevel]

@[simp] theorem Backup.wipes_takeId (m : Match OptionId) (r : Record) :
    (takeId m r).Wipes [] := by
  simp [takeId]

@[simp] theorem Backup.wipes_takeOnlyTarget (index : Nat) (token : String) (r : Record) :
    (takeOnlyTarget index token r).Wipes [] := by
  unfold takeOnlyTarget
  split
  · simp
  · split <;> simp

theorem Backup.wipes_makingGrammar : makingGrammar.Wipes [.storage] where
  argument := wipes_refuseArgument
  credential m r h := by
    obtain hid : m.id = .storage := by simpa using h
    simpa [makingGrammar, recordGrammar, takeMakingOption, hid] using wipes_takeStorage m r
  other m r h := by
    simp only [makingGrammar, recordGrammar, takeMakingOption]
    split
    case h_2 hid => rw [hid] at h; cases h
    all_goals simp

theorem Backup.wipes_restoringGrammar : restoringGrammar.Wipes [.storage] where
  argument := wipes_takeOnlyTarget
  credential m r h := by
    obtain hid : m.id = .storage := by simpa using h
    simpa [restoringGrammar, recordGrammar, takeRestoringOption, hid] using wipes_takeStorage m r
  other m r h := by
    simp only [restoringGrammar, recordGrammar, takeRestoringOption]
    split
    case h_6 hid => rw [hid] at h; cases h
    all_goals simp

theorem Backup.wipes_deletingGrammar : deletingGrammar.Wipes [.storage] where
  argument := wipes_takeOnlyTarget
  credential m r h := by
    obtain hid : m.id = .storage := by simpa using h
    simpa [deletingGrammar, recordGrammar, takeDeletingOption, hid] using wipes_takeStorage m r
  other m r h := by
    simp only [deletingGrammar, recordGrammar, takeDeletingOption]
    split
    case h_2 hid => rw [hid] at h; cases h
    all_goals simp

theorem Backup.wipes_listingGrammar : listingGrammar.Wipes [.storage] where
  argument _ _ _ := by simp [listingGrammar, recordGrammar, takeLastTarget]
  credential m r h := by
    obtain hid : m.id = .storage := by simpa using h
    simpa [listingGrammar, recordGrammar, takeListingOption, hid] using wipes_takeStorage m r
  other m r h := by
    simp only [listingGrammar, recordGrammar, takeListingOption]
    split
    case h_5 hid => rw [hid] at h; cases h
    all_goals simp

theorem Server.wipes_takeStorage (m : Match OptionId) (s : Server) :
    (takeStorage m s).Wipes m.slot?.toList :=
  (wipes_readLogin m).bind fun _ => by simp

@[simp] theorem Server.wipes_readKey (path : String) : (readKey path).Wipes [] := by
  unfold readKey
  split <;> simp

theorem Server.wipes_grammar : grammar.Wipes [.storage] where
  argument := wipes_refuseArgument
  credential m r h := by
    obtain hid : m.id = .storage := by simpa using h
    simp only [grammar, recordGrammar, takeOption, hid]
    exact (wipes_takeStorage m r.server).bind fun _ => Reading.wipes_pure _
  other m r h := by
    simp only [grammar, recordGrammar, takeOption]
    split
    case h_2 hid => rw [hid] at h; cases h
    all_goals try simp
    split <;> simp

theorem Migration.wipes_grammar : grammar.Wipes [] where
  argument := wipes_refuseArgument
  credential m r h := by cases h
  other m r h := by
    simp only [grammar, recordGrammar, takeOption]
    split <;> simp

theorem VirtualNetwork.wipes_grammar : grammar.Wipes [] where
  argument _ _ r := by
    simp only [grammar, recordGrammar, takeName]
    split <;> simp
  credential m r h := by cases h
  other m r h := by
    simp only [grammar, recordGrammar, takeOption]
    split <;> try simp
    all_goals split <;> simp

theorem PrivateNetwork.wipes_grammar : grammar.Wipes [] where
  argument _ _ r := by
    simp only [grammar, recordGrammar, takeName]
    split <;> simp
  credential m r h := by cases h
  other m r h := by
    simp only [grammar, recordGrammar, takeOption]
    split <;> try simp
    split <;> simp

theorem UsbAssignment.wipes_grammar : grammar.Wipes [] where
  argument := wipes_refuseArgument
  credential m r h := by cases h
  other m r h := by
    simp only [grammar, recordGrammar, takeOption]
    split <;> simp

theorem Statistics.wipes_grammar : grammar.Wipes [] where
  argument _ _ _ := by simp [grammar, recordGrammar, takeTarget]
  credential m r h := by cases h
  other m r h := by
    simp only [grammar, recordGrammar, takeOption]
    split <;> simp

theorem TemplateCopy.wipes_grammar : grammar.Wipes [] where
  argument := wipes_refuseArgument
  credential m r h := by cases h
  other m r h := by
    simp only [grammar, recordGrammar, takeOption]
    split <;> simp

theorem ProblemReport.wipes_grammar : grammar.Wipes [.proxy] where
  argument := wipes_refuseArgument
  credential m r h := by
    obtain hid : m.id = .proxy := by simpa using h
    simp only [grammar, recordGrammar, takeOption, hid]
    exact (wipes_readSecret m).bind fun _ => Reading.wipes_pure _
  other m r h := by
    simp only [grammar, recordGrammar, takeOption]
    split
    case h_6 hid => rw [hid] at h; cases h
    all_goals simp

@[simp] theorem Draft.wipes_showGuests (option value : String) (guests : List Guest)
    (listed : CommandError) : (showGuests option value guests listed).Wipes [] := by
  simp only [showGuests]
  split <;> simp

/-- The credentials among the settings of a guest. -/
def guestCredentials : List OptionId :=
  [.setting (.secret .userPassword), .setting (.secret .vncPassword),
   .setting (.secret .guestPassword), .setting (.secret .hostAdmin)]

theorem Draft.wipes_grammar : grammar.Wipes guestCredentials where
  argument _ _ d := by
    simp only [grammar, takeArgument]
    split <;> simp
  credential m d h := by
    obtain ⟨s, hid⟩ : ∃ s, m.id = .setting (.secret s) := by
      simp only [guestCredentials, List.mem_cons, List.not_mem_nil, or_false] at h
      rcases h with h | h | h | h <;> exact ⟨_, h⟩
    simpa [grammar, apply, hid, conflict?, Setting.isCredential] using
      (Reading.wipes_wipe m.slot?).bind fun _ => Reading.wipes_ofExcept (d.applyPure m)
  other m d h := by
    simp only [grammar, apply]
    cases d.conflict? m.id with
    | some u => simp
    | none =>
      dsimp only
      split
      case h_5 s hid =>
        have hs : s.isCredential = false := by simpa [hid, OptionId.isCredential] using h
        simp [hs]
      case h_2 => split <;> simp
      case h_3 => split <;> simp
      case h_4 => split <;> simp
      all_goals simp

end VmControl
