import VmControl.Proofs.Line.Visit
import VmControl.Proofs.Options.Lockstep
import VmControl.Proofs.Secrecy.Blank

/-!
# Readings that look alike

Two readings look alike if the user cannot tell them from each other: they fail with the same error
or come to results that are alike, and they write the same and leave the same preferences.  What
they wiped may differ.

## Main definitions

* `Reading.Alike`: two readings that look alike.
* `Grammar.Blind`: a grammar that does not look at secrets.

## Main statements

* `Grammar.Blind.steps`: options that differ in credentials are taken alike.
-/

namespace VmControl

open Options

/-! ## Readings -/

/-- Whether two results are the same error, or alike. -/
def ResultAlike {α β : Type} (R : α → β → Prop) :
    Except CommandError α → Except CommandError β → Prop
  | .ok a, .ok b => R a b
  | .error u, .error u' => u = u'
  | _, _ => False

/-- Results are alike as far as a map tells exactly if the map makes them the same. -/
theorem resultAlike_iff_map {α γ : Type} {f : α → γ} {x y : Except CommandError α} :
    ResultAlike (fun a b => f a = f b) x y ↔ x.map f = y.map f := by
  cases x <;> cases y <;> simp [ResultAlike, Except.map]

/-- Whether the user cannot tell two effects from each other. -/
structure Effects.Alike (e e' : Effects) : Prop where
  /-- The preferences are the same. -/
  preferences : e.preferences = e'.preferences
  /-- The same was written. -/
  notes : e.notes = e'.notes

theorem Effects.Alike.unlogged {e e' : Effects} (h : e.Alike e') : e.unlogged = e'.unlogged := by
  unfold Effects.unlogged
  rw [h.preferences, h.notes]

theorem Effects.alike_withLog (f e e' : Effects) (slots slots' : List Slot) :
    (f.withLog e slots).Alike (f.withLog e' slots') :=
  ⟨rfl, rfl⟩

namespace Reading

variable {α β γ δ ε : Type}

/-- Whether two readings look alike, with results that are related if there are any. -/
def Alike (R : α → β → Prop) (x : Reading α) (y : Reading β) : Prop :=
  ∀ host e e', e.Alike e' → ResultAlike R (x.after host e).1 (y.after host e').1 ∧
    (x.after host e).2.Alike (y.after host e').2

theorem alike_pure {R : α → β → Prop} {a : α} {b : β} (h : R a b) :
    Alike R (pure a) (pure b) := fun _ _ _ he => ⟨h, he⟩

theorem alike_throw {R : α → β → Prop} (u : CommandError) :
    Alike R (throw u) (throw u) := fun _ _ _ he => ⟨rfl, he⟩

/-- **What follows readings that look alike looks alike**, if it does for results that are alike. -/
theorem Alike.bind {R : α → β → Prop} {Q : γ → δ → Prop} {x : Reading α} {y : Reading β}
    {f : α → Reading γ} {g : β → Reading δ} (h : Alike R x y)
    (hf : ∀ a b, R a b → Alike Q (f a) (g b)) :
    Alike Q (x >>= f) (y >>= g) := by
  intro host e e' he
  have hxy := h host e e' he
  rw [after_bind, after_bind]
  generalize x.after host e = out at hxy
  generalize y.after host e' = out' at hxy
  obtain ⟨u | a, e₁⟩ := out <;> obtain ⟨u' | b, e₁'⟩ := out'
  · exact hxy
  · exact hxy.1.elim
  · exact hxy.1.elim
  · exact hf a b hxy.1 host e₁ e₁' hxy.2

theorem Alike.mono {R Q : α → β → Prop} {x : Reading α} {y : Reading β} (h : Alike R x y)
    (hRQ : ∀ a b, R a b → Q a b) : Alike Q x y := by
  intro host e e' he
  obtain ⟨hresult, heffects⟩ := h host e e' he
  refine ⟨?_, heffects⟩
  generalize (x.after host e).1 = out at hresult ⊢
  generalize (y.after host e').1 = out' at hresult ⊢
  cases out <;> cases out' <;> first | exact hresult | exact hRQ _ _ hresult

theorem alike_ofExcept {R : α → β → Prop} {x : Except CommandError α} {y : Except CommandError β}
    (h : ResultAlike R x y) : Alike R (ofExcept x) (ofExcept y) := by
  intro host e e' he
  rw [after_ofExcept, after_ofExcept]
  exact ⟨h, he⟩

/-- It makes no difference what is wiped. -/
theorem alike_wipe (s s' : Option Slot) : Alike (fun _ _ => True) (wipe s) (wipe s') := by
  intro host e e' he
  rw [after_wipe, after_wipe]
  exact ⟨trivial, he.preferences, he.notes⟩

theorem alike_enter (m m' : Match OptionId) : Alike (fun _ _ => True) (enter m) (enter m') :=
  fun _ _ _ he => ⟨trivial, he.preferences, he.notes⟩

theorem alike_enterLogin (l l' : PlacedLogin) :
    Alike (fun _ _ => True) (enterLogin l) (enterLogin l') :=
  fun _ _ _ he => ⟨trivial, he.preferences, he.notes⟩

/-- Readings that do not look at what was logged, and come to the same as far as a map tells, look
alike. -/
theorem Wipes.alike {x y : Reading α} {slots slots' : List Slot} (hx : x.Wipes slots)
    (hy : y.Wipes slots') {f : α → γ} (h : f <$> x = f <$> y) :
    Alike (fun a b => f a = f b) x y := by
  intro host e e' he
  have hout : (f <$> x).after host e.unlogged = (f <$> y).after host e.unlogged := by rw [h]
  rw [after_map, after_map] at hout
  rw [hx host e, hy host e', ← he.unlogged]
  obtain ⟨hresult, heffects⟩ := Prod.mk.inj hout
  refine ⟨resultAlike_iff_map.2 hresult, ?_⟩
  dsimp only
  rw [heffects]
  exact Effects.alike_withLog _ _ _ _ _

/-- A reading that does not look at what was logged looks like itself. -/
theorem Wipes.alike_self {x : Reading α} {slots : List Slot} (hx : x.Wipes slots) :
    Alike Eq x x :=
  hx.alike hx (rfl : id <$> x = id <$> x)

/-- What does not look at what a map takes away looks alike on values that differ in that alone. -/
theorem alike_of_map {F : α → Reading β} {f : α → α} {g : β → β} (hmap : ∀ a, F (f a) = g <$> F a)
    (hwipes : ∀ a, (F a).Wipes []) {a b : α} (h : f a = f b) :
    Alike (fun a b => g a = g b) (F a) (F b) :=
  (hwipes a).alike (hwipes b) (by rw [← hmap, ← hmap, h])

end Reading

/-! ## Credentials -/

/-- Whether nothing but a secret tells two values of an option from each other: two login texts may
differ in the password, and other credentials in anything but the colon that one of them needs. -/
def OptionId.TextsAlike (id : OptionId) (s s' : String) : Prop :=
  match id with
  | .login => (LoginText.read s).map LoginText.blank = (LoginText.read s').map LoginText.blank
  | .storage => (LoginText.read s).map LoginText.blank = (LoginText.read s').map LoginText.blank
  | .setting (.secret .guestPassword) => ':' ∈ s.toList ↔ ':' ∈ s'.toList
  | _ => True

theorem OptionId.textsAlike_refl (id : OptionId) (s : String) : id.TextsAlike s s := by
  unfold TextsAlike
  split <;> simp

/-- Whether nothing but a secret tells two credentials from each other. -/
def OptionId.CredentialsAlike (id : OptionId) (s s' : String) : Prop :=
  id.isCredential = true ∧ id.TextsAlike s s'

/-- Whether nothing but a secret tells two options from each other. -/
structure MatchAlike (m m' : Match OptionId) : Prop where
  /-- They mean the same. -/
  id : m.id = m'.id
  /-- They are spelled the same. -/
  name : m.name = m'.name
  /-- Their values are alike. -/
  text : m.id.TextsAlike m.text m'.text
  /-- Only credentials differ. -/
  eq : m.id.isCredential = false → m = m'

theorem matchAlike_of_eventAlike {m : Match OptionId} {event : Event OptionId}
    (h : Event.Alike OptionId.CredentialsAlike (.option m) event) :
    ∃ m', event = .option m' ∧ MatchAlike m m' := by
  cases h with
  | same => exact ⟨m, rfl, rfl, rfl, m.id.textsAlike_refl _, fun _ => rfl⟩
  | value id name v v' h =>
    refine ⟨_, rfl, rfl, rfl, h.2, fun hc => ?_⟩
    rw [h.1] at hc
    cases hc

theorem alike_readLogin {m m' : Match OptionId} (hname : m.name = m'.name)
    (h : (LoginText.read m.text).map LoginText.blank =
      (LoginText.read m'.text).map LoginText.blank) :
    Reading.Alike (fun t t' => t.blank = t'.blank) (readLogin m) (readLogin m') := by
  refine (Reading.alike_wipe _ _).bind fun _ _ _ => ?_
  cases ht : LoginText.read m.text with
  | none =>
    cases ht' : LoginText.read m'.text with
    | none => rw [hname]; exact Reading.alike_throw _
    | some t' => rw [ht, ht'] at h; cases h
  | some t =>
    cases ht' : LoginText.read m'.text with
    | none => rw [ht, ht'] at h; cases h
    | some t' =>
      rw [ht, ht'] at h
      exact Reading.alike_pure (Option.some.inj h)

theorem alike_readSecret (m m' : Match OptionId) :
    Reading.Alike (fun _ _ => True) (readSecret m) (readSecret m') :=
  (Reading.alike_wipe _ _).bind fun _ _ _ => Reading.alike_pure trivial

/-! ## Options of every command -/

/-- Whether two changes of the login do the same but for secrets. -/
def LoginChangesAlike (f f' : Login → Login) : Prop :=
  ∀ l l' : Login, l.blank = l'.blank → (f l).blank = (f' l').blank

/-- Whether two answers to an option of every command are alike. -/
def CommonAlike (id : OptionId) : Option (Login → Login) → Option (Login → Login) → Prop
  | some f, some f' => LoginChangesAlike f f'
  | none, none => id ≠ .login
  | _, _ => False

theorem readCommonOption_of_isCredential {m : Match OptionId} (hc : m.id.isCredential = true)
    (hlogin : m.id ≠ .login) : readCommonOption m = pure none := by
  unfold readCommonOption
  split
  case h_1 hid => exact absurd hid hlogin
  case h_6 => rfl
  all_goals next hid => rw [hid] at hc; cases hc

theorem alike_readCommonOption {m m' : Match OptionId} (h : MatchAlike m m') :
    Reading.Alike (CommonAlike m.id) (readCommonOption m) (readCommonOption m') := by
  by_cases hlogin : m.id = .login
  · have htext := h.text
    rw [hlogin] at htext
    have hlogin' : m'.id = .login := h.id ▸ hlogin
    unfold readCommonOption
    rw [hlogin, hlogin']
    refine (alike_readLogin h.name htext).bind fun t t' ht => Reading.alike_pure fun l l' hl => ?_
    rw [Login.blank_assign, Login.blank_assign, hl, ht]
  · cases hc : m.id.isCredential with
    | true =>
      rw [readCommonOption_of_isCredential hc hlogin,
        readCommonOption_of_isCredential (h.id ▸ hc) (h.id ▸ hlogin)]
      exact Reading.alike_pure hlogin
    | false =>
      obtain rfl := h.eq hc
      have hprefer (f : Preferences → Preferences) : Reading.Alike (CommonAlike m.id)
          (do Reading.prefer f; return some id) (do Reading.prefer f; return some id) :=
        (Reading.wipes_prefer f).alike_self.bind fun _ _ _ => Reading.alike_pure fun _ _ hl => hl
      unfold readCommonOption
      split
      case h_1 hid => exact absurd hid hlogin
      case h_2 =>
        have hwipes : (readPasswordFile m.text).Wipes [] := by simp [readPasswordFile]
        refine hwipes.alike_self.bind fun p p' hp => Reading.alike_pure fun l l' hl => ?_
        rw [Login.blank_push, Login.blank_push, hl, hp]
      case h_3 => exact hprefer _
      case h_4 => exact hprefer _
      case h_5 => exact hprefer _
      case h_6 => exact Reading.alike_pure hlogin

/-! ## Grammars -/

/-- Whether a grammar does not look at secrets, of which `blank` takes away the texts. -/
structure Grammar.Blind {α : Type} (g : Grammar α) (blank : α → α) (ids : List OptionId) :
    Prop where
  /-- It wipes credentials and nothing else. -/
  wipes : g.Wipes ids
  /-- It does not look at passwords. -/
  mapLogin : ∀ f f' a b, LoginChangesAlike f f' → blank a = blank b →
    blank (g.mapLogin f a) = blank (g.mapLogin f' b)
  /-- Arguments are taken without a look at secrets. -/
  argument : ∀ index token a, g.argument index token (blank a) = blank <$> g.argument index token a
  /-- Credentials that are alike are taken alike. -/
  credential : ∀ m m' a b, m.id ∈ ids → MatchAlike m m' → blank a = blank b →
    Reading.Alike (fun a b => blank a = blank b) (g.option m a) (g.option m' b)
  /-- Other options are taken without a look at secrets. -/
  other : ∀ m a, m.id.isCredential = false → g.option m (blank a) = blank <$> g.option m a

namespace Grammar.Blind

variable {α : Type} {g : Grammar α} {blank : α → α} {ids : List OptionId}

theorem option (hg : g.Blind blank ids) {m m' : Match OptionId} (h : MatchAlike m m')
    (hm : m.id.isCredential → m.id = .login ∨ m.id ∈ ids) (hlogin : m.id ≠ .login) {a b : α}
    (hab : blank a = blank b) :
    Reading.Alike (fun a b => blank a = blank b) (g.option m a) (g.option m' b) := by
  cases hc : m.id.isCredential with
  | true => exact hg.credential m m' a b ((hm hc).resolve_left hlogin) h hab
  | false =>
    obtain rfl := h.eq hc
    exact Reading.alike_of_map (fun a => hg.other m a hc) (fun a => hg.wipes.other m a hc) hab

/-- Options and arguments that differ in credentials are taken alike. -/
theorem step (hg : g.Blind blank ids) {event event' : Event OptionId}
    (h : Event.Alike OptionId.CredentialsAlike event event')
    (hm : ∀ m, event = .option m → m.id.isCredential → m.id = .login ∨ m.id ∈ ids) {a b : α}
    (hab : blank a = blank b) :
    Reading.Alike (fun a b => blank a = blank b) (g.step a event) (g.step b event') := by
  cases event with
  | unknown index token =>
    cases h
    exact Reading.alike_of_map (hg.argument index token) (hg.wipes.argument index token) hab
  | option m =>
    obtain ⟨m', rfl, hmatch⟩ := matchAlike_of_eventAlike h
    refine (Reading.alike_enter m m').bind fun _ _ _ => ?_
    refine (alike_readCommonOption hmatch).bind fun f f' hf => ?_
    cases f with
    | some f =>
      cases f' with
      | some f' => exact Reading.alike_pure (hg.mapLogin f f' a b hf hab)
      | none => exact hf.elim
    | none =>
      cases f' with
      | some f' => exact hf.elim
      | none => exact hg.option hmatch (hm m rfl) hf hab

/-- **Options that differ in credentials are taken alike.** -/
theorem steps (hg : g.Blind blank ids) {events events' : List (Event OptionId)}
    (h : List.Forall₂ (Event.Alike OptionId.CredentialsAlike) events events')
    (hm : ∀ m, .option m ∈ events → m.id.isCredential → m.id = .login ∨ m.id ∈ ids) {a b : α}
    (hab : blank a = blank b) :
    Reading.Alike (fun a b => blank a = blank b) (g.steps a events) (g.steps b events') := by
  induction h generalizing a b with
  | nil => exact Reading.alike_pure hab
  | @cons event event' events events' hevent _ ih =>
    unfold Grammar.steps at ih ⊢
    rw [List.foldlM_cons, List.foldlM_cons]
    have hfirst (m : Match OptionId) (h : event = .option m) := hm m (h ▸ List.mem_cons_self ..)
    refine (hg.step hevent hfirst hab).bind fun a b hab => ih (fun m hmem => ?_) hab
    exact hm m (List.mem_cons_of_mem _ hmem)

/-- So are whole streams. -/
theorem read (hg : g.Blind blank ids) {s s' : Stream OptionId}
    (h : List.Forall₂ (Event.Alike OptionId.CredentialsAlike) s.events s'.events)
    (hmissing : s.missing = s'.missing)
    (hm : ∀ m, .option m ∈ s.events → m.id.isCredential → m.id = .login ∨ m.id ∈ ids) {a b : α}
    (hab : blank a = blank b) :
    Reading.Alike (fun a b => blank a = blank b) (g.read a s) (g.read b s') := by
  refine (hg.steps h hm hab).bind fun a b hab => ?_
  rw [← hmissing]
  cases s.missing with
  | none => exact Reading.alike_pure hab
  | some missing => exact Reading.alike_throw _

end Grammar.Blind

end VmControl
