import VmControl.Proofs.Line.Login
import VmControl.Proofs.Line.Refusal
import VmControl.Proofs.Record.Field

/-!
# What options and arguments are for

Each command says for every one of its options which fields of the record it writes.  Handling an
option changes those fields and no others, and an option that has a use is never turned down for
having none: that is said of arguments only.

## Main definitions

* `Reading.Ends`: what a reading can come to, and how it can fail.
* `Grammar.Handles`: a grammar changes the fields that its options are for.

## Main statements

* `Grammar.Handles.steps`: so does a whole line.
-/

namespace VmControl

open Options

/-! ## Results and failures of readings -/

/-- Whether an error that says that nobody takes something says so of an argument among these
events. -/
def CommandError.Blames (u : CommandError) (events : List (Event OptionId)) : Prop :=
  u.isStray = true → ∃ index token, .unknown index token ∈ events ∧
    (u = .unrecognized token ∨ u = .unexpectedArgument token)

theorem CommandError.blames_of_isStray {u : CommandError} (h : u.isStray = false)
    (events : List (Event OptionId)) : u.Blames events :=
  fun hstray => absurd (h.symm.trans hstray) Bool.false_ne_true

theorem CommandError.Blames.mono {u : CommandError} {events events' : List (Event OptionId)}
    (h : u.Blames events) (hsub : ∀ e ∈ events, e ∈ events') : u.Blames events' :=
  fun hstray =>
    let ⟨index, token, hmem, hu⟩ := h hstray
    ⟨index, token, hsub _ hmem, hu⟩

theorem CommandError.blames_unrecognized (index : Nat) (token : String) :
    (CommandError.unrecognized token).Blames [.unknown index token] :=
  fun _ => ⟨index, token, List.mem_singleton.2 rfl, .inl rfl⟩

theorem CommandError.blames_unexpectedArgument (index : Nat) (token : String) :
    (CommandError.unexpectedArgument token).Blames [.unknown index token] :=
  fun _ => ⟨index, token, List.mem_singleton.2 rfl, .inr rfl⟩

namespace Reading

variable {α β : Type} {x : Reading α} {P : α → Prop} {E : CommandError → Prop}

/-- Whether all that a reading can come to has a property, and all its failures have another one. -/
def Ends (x : Reading α) (P : α → Prop) (E : CommandError → Prop) : Prop :=
  ∀ host e,
    (∀ a, (x.after host e).1 = .ok a → P a) ∧ ∀ u, (x.after host e).1 = .error u → E u

theorem Ends.yields (h : x.Ends P E) : x.Yields P := fun host e => (h host e).1

@[simp] theorem ends_pure {a : α} (h : P a) : (pure a : Reading α).Ends P E := by
  simp [Ends, h]

@[simp] theorem ends_throw {u : CommandError} (h : E u) : (throw u : Reading α).Ends P E := by
  simp [Ends, h]

theorem Ends.bind {f : α → Reading β} {Q : β → Prop} (hx : x.Ends P E)
    (hf : ∀ a, P a → (f a).Ends Q E) : (x >>= f).Ends Q E := by
  intro host e
  have hxe := hx host e
  rw [after_bind]
  generalize x.after host e = out at hxe ⊢
  obtain ⟨u | a, e'⟩ := out
  · refine ⟨fun b hb => (by cases hb), fun v hv => ?_⟩
    cases hv
    exact hxe.2 u rfl
  · exact hf a (hxe.1 a rfl) host e'

theorem Ends.mono {Q : α → Prop} {E' : CommandError → Prop} (hx : x.Ends P E)
    (hP : ∀ a, P a → Q a) (hE : ∀ u, E u → E' u) : x.Ends Q E' :=
  fun host e => ⟨fun a ha => hP a ((hx host e).1 a ha), fun u hu => hE u ((hx host e).2 u hu)⟩

theorem ends_ofExcept {y : Except CommandError α} {events : List (Event OptionId)}
    (hy : BlamesValue y) (h : ∀ a, y = .ok a → P a) :
    (ofExcept y).Ends P (·.Blames events) := by
  intro host e
  rw [after_ofExcept]
  exact ⟨h, fun u hu => CommandError.blames_of_isStray (hy u hu) events⟩

/-- What is done on the way does not fail. -/
theorem ends_enter {m : Match OptionId} : (enter m).Ends (fun _ => True) E := by
  simp [Ends]

theorem ends_wipe {s : Option Slot} : (wipe s).Ends (fun _ => True) E := by
  simp [Ends]

theorem ends_write {n : Note} : (write n).Ends (fun _ => True) E := by
  simp [Ends]

theorem ends_prefer {f : Preferences → Preferences} : (prefer f).Ends (fun _ => True) E := by
  simp [Ends]

theorem ends_readFile {path : String} {events : List (Event OptionId)} :
    (readFile path).Ends (fun _ => True) (·.Blames events) := by
  intro host e
  refine ⟨fun _ _ => trivial, fun u hu => CommandError.blames_of_isStray ?_ events⟩
  rw [after_readFile] at hu
  cases hfile : host.readFile path <;> rw [hfile] at hu <;> cases hu
  rfl

end Reading

theorem ends_readLogin (m : Match OptionId) (events : List (Event OptionId)) :
    (readLogin m).Ends (fun _ => True) (·.Blames events) := by
  refine Reading.ends_wipe.bind fun _ _ => ?_
  cases LoginText.read m.text with
  | some login => exact Reading.ends_pure trivial
  | none => exact Reading.ends_throw (CommandError.blames_of_isStray rfl _)

theorem ends_readSecurityLevel (m : Match OptionId) (events : List (Event OptionId)) :
    (readSecurityLevel m).Ends (fun _ => True) (·.Blames events) := by
  unfold readSecurityLevel
  split
  · exact Reading.ends_pure trivial
  · exact Reading.ends_throw (CommandError.blames_of_isStray rfl _)

theorem ends_readPositionalLogin (index : Nat) (role text : String)
    (events : List (Event OptionId)) :
    (readPositionalLogin index role text).Ends (fun _ => True) (·.Blames events) := by
  unfold readPositionalLogin
  split
  · exact Reading.ends_throw (CommandError.blames_of_isStray rfl _)
  · have hlogin : (Reading.enterLogin ⟨index, role, text⟩).Ends (fun _ => True)
        (CommandError.Blames · events) := by simp [Reading.Ends]
    exact hlogin.bind fun _ _ => Reading.ends_wipe.bind fun _ _ => Reading.ends_pure trivial

/-! ## Grammars -/

open Record (ChangesOnly Field)

/-- The fields that an option of every command writes. -/
def commonFields? : OptionId → Option (List Field)
  | .login => some [.login]
  | .readPassword => some [.login]
  | .verbose => some []
  | .compat => some []
  | .timeout => some []
  | _ => none

/-- An option of every command changes the login if that is what it is for, and there are no others.
-/
theorem ends_readCommonOption (m : Match OptionId) (events : List (Event OptionId)) :
    (readCommonOption m).Ends
      (fun
        | some f => commonFields? m.id = some [.login] ∨ commonFields? m.id = some [] ∧ f = id
        | none => commonFields? m.id = none)
      (·.Blames events) := by
  unfold readCommonOption
  split
  case h_1 hid =>
    rw [hid]
    exact (ends_readLogin m events).bind fun _ _ => Reading.ends_pure (.inl rfl)
  case h_2 hid =>
    rw [hid]
    have hpassword : (readPasswordFile m.text).Ends (fun _ => True) (·.Blames events) :=
      Reading.ends_readFile.bind fun _ _ => Reading.ends_pure trivial
    exact hpassword.bind fun _ _ => Reading.ends_pure (.inl rfl)
  case h_3 hid | h_4 hid | h_5 hid =>
    rw [hid]
    exact Reading.ends_prefer.bind fun _ _ => Reading.ends_pure (.inr ⟨rfl, rfl⟩)
  case h_6 hlogin hpassword hverbose hcompat htimeout =>
    refine Reading.ends_pure (show commonFields? m.id = none from ?_)
    generalize m.id = id at hlogin hpassword hverbose hcompat htimeout ⊢
    cases id <;> first | rfl | contradiction

/-- Whether a grammar changes the fields that its options and arguments are for, and turns an option
down for its value only. -/
structure Grammar.Handles {α : Type} (g : Grammar α) (record : α → Record)
    (fields? : OptionId → Option (List Field)) (argument : Action → List Field) : Prop where
  /-- Changing the login changes the login. -/
  mapLogin : ∀ f a, record (g.mapLogin f a) = { record a with login := f (record a).login }
  /-- An argument is taken for its fields, or turned down. -/
  argument : ∀ index token a, (g.argument index token a).Ends
    (fun b => ChangesOnly (argument (record a).action) (record a) (record b))
    (·.Blames [.unknown index token])
  /-- An option that has fields is taken for them, or its value is turned down. -/
  option : ∀ m a fields, fields? m.id = some fields → (g.option m a).Ends
    (fun b => ChangesOnly fields (record a) (record b)) (·.Blames [])

section Grammar

variable {α : Type} {g : Grammar α} {record : α → Record}
  {fields? : OptionId → Option (List Field)} {argument : Action → List Field}

/-- The fields that an option of a line writes: those of every command come first. -/
def servedFields? (fields? : OptionId → Option (List Field)) (id : OptionId) :
    Option (List Field) :=
  (commonFields? id).orElse fun _ => fields? id

/-- **An option that has a use writes its fields**, or its value is turned down. -/
theorem Grammar.Handles.step (hg : g.Handles record fields? argument) {m : Match OptionId}
    {fields : List Field} (hm : servedFields? fields? m.id = some fields) (a : α) :
    (g.step a (.option m)).Ends (fun b => ChangesOnly fields (record a) (record b))
      (·.Blames []) := by
  unfold Grammar.step
  refine Reading.ends_enter.bind fun _ _ => (ends_readCommonOption m []).bind fun f hf => ?_
  unfold servedFields? at hm
  cases f with
  | some f =>
    refine Reading.ends_pure ?_
    rw [hg.mapLogin]
    rcases hf with hlogin | ⟨hnone, rfl⟩
    · rw [hlogin] at hm
      cases hm
      exact Record.changesOnly_login _ _
    · exact ChangesOnly.refl _ _
  | none =>
    rw [show commonFields? m.id = none from hf] at hm
    exact hg.option m a fields hm

/-- **A line writes the fields that its options and arguments are for**, and what it says that
nobody takes is an argument. -/
theorem Grammar.Handles.steps (hg : g.Handles record fields? argument) {a : α}
    {written : List Field} {events : List (Event OptionId)}
    (hoption : ∀ m, .option m ∈ events → ∃ fields, servedFields? fields? m.id = some fields ∧
      ∀ f ∈ fields, f ∈ written)
    (hargument : ∀ b, ChangesOnly written (record a) (record b) →
      ∀ f ∈ argument (record b).action, f ∈ written) :
    (g.steps a events).Ends (fun b => ChangesOnly written (record a) (record b))
      (·.Blames events) := by
  -- The induction is on what is left to be taken, from a draft that keeps all other fields.
  suffices hfrom : ∀ left, (∀ e ∈ left, e ∈ events) → ∀ b,
      ChangesOnly written (record a) (record b) →
      (g.steps b left).Ends (fun b => ChangesOnly written (record a) (record b))
        (·.Blames events) from
    hfrom events (fun _ h => h) a (ChangesOnly.refl _ _)
  intro left
  induction left with
  | nil => exact fun _ b hb => Reading.ends_pure hb
  | cons event left ih =>
    intro hleft b hb
    unfold Grammar.steps at ih ⊢
    rw [List.foldlM_cons]
    have hevent : (g.step b event).Ends (fun c => ChangesOnly written (record a) (record c))
        (·.Blames events) := by
      cases event with
      | unknown index token =>
        refine (hg.argument index token b).mono (fun c hc => ?_) fun u hu => hu.mono fun e he => ?_
        · exact hb.trans (hc.mono (hargument b hb))
        · rw [List.mem_singleton.1 he]
          exact hleft _ (List.mem_cons_self ..)
      | option m =>
        obtain ⟨fields, hfields, hsub⟩ := hoption m (hleft _ (List.mem_cons_self ..))
        exact (hg.step hfields b).mono (fun c hc => hb.trans (hc.mono hsub))
          fun u hu => hu.mono fun e he => absurd he List.not_mem_nil
    exact hevent.bind fun c hc => ih (fun e he => hleft e (List.mem_cons_of_mem _ he)) c hc

/-- So does a line that is taken to its end. -/
theorem Grammar.ends_read {P : α → Prop} {a : α} {s : Stream OptionId}
    (h : (g.steps a s.events).Ends P (·.Blames s.events)) :
    (g.read a s).Ends P (·.Blames s.events) := by
  refine h.bind fun b hb => ?_
  cases s.missing with
  | none => exact Reading.ends_pure hb
  | some u => exact Reading.ends_throw (CommandError.blames_of_isStray rfl _)

end Grammar

end VmControl
