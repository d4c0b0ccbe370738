import VmControl.Program

/-!
# Why values are refused

Some errors say that nobody takes an option or an argument at all, and some that a credential is not
well formed.  Neither come from reading the value of an option that is no credential: there the
value is to blame, or another option.

## Main definitions

* `CommandError.isStray`: the errors that say that nobody takes an option or an argument.
* `CommandError.isRefusal`: the errors that say that a value is not taken.
* `FailsOnly`: a computation that fails with such errors only.
* `BlamesValue`: a computation that fails for a value.
* `RefusesValue`: a computation that fails for a value that is no credential.
-/

namespace VmControl

open Options

/-- Whether the error is that nobody takes an option or an argument. -/
def CommandError.isStray : CommandError → Bool
  | .unrecognized _ => true
  | .unexpectedArgument _ => true
  | .refused (.unhandled _) => true
  | _ => false

/-- Whether the error is that a value that is no credential is not taken, be it for another option.
-/
def CommandError.isRefusal : CommandError → Bool
  | .badValue .. => true
  | .conflict .. => true
  | .refused (.unhandled _) => false
  | .refused _ => true
  | _ => false

theorem CommandError.isStray_of_isRefusal {u : CommandError} (h : u.isRefusal = true) :
    u.isStray = false := by
  cases u with
  | refused r => cases r <;> first | rfl | cases h
  | _ => first | rfl | cases h

section Computations

variable {α β : Type} {E : CommandError → Prop}

/-- Whether a computation fails with such an error only. -/
def FailsOnly (E : CommandError → Prop) (x : Except CommandError α) : Prop :=
  ∀ u, x = .error u → E u

/-- Whether a computation that fails has another reason than that nobody takes something. -/
abbrev BlamesValue (x : Except CommandError α) : Prop := FailsOnly (·.isStray = false) x

/-- Whether a computation that fails does so for a value that is no credential. -/
abbrev RefusesValue (x : Except CommandError α) : Prop := FailsOnly (·.isRefusal = true) x

theorem FailsOnly.mono {E' : CommandError → Prop} {x : Except CommandError α}
    (h : FailsOnly E x) (hE : ∀ u, E u → E' u) : FailsOnly E' x :=
  fun u hu => hE u (h u hu)

theorem RefusesValue.blames {x : Except CommandError α} (h : RefusesValue x) : BlamesValue x :=
  h.mono fun _ => CommandError.isStray_of_isRefusal

@[simp] theorem failsOnly_ok (a : α) : FailsOnly E (.ok a) := nofun

@[simp] theorem failsOnly_pure (a : α) : FailsOnly E (pure a) := nofun

@[simp] theorem failsOnly_error {u : CommandError} :
    FailsOnly E (.error u : Except CommandError α) ↔ E u := by
  simp [FailsOnly]

@[simp] theorem failsOnly_map {x : Except CommandError α} {f : α → β} (h : FailsOnly E x) :
    FailsOnly E (x.map f) := by
  cases x with
  | ok a => exact failsOnly_ok _
  | error u => exact failsOnly_error.2 (h u rfl)

@[simp] theorem failsOnly_bind {x : Except CommandError α} {f : α → Except CommandError β}
    (h : FailsOnly E x) (hf : ∀ a, FailsOnly E (f a)) : FailsOnly E (x >>= f) := by
  cases x with
  | ok a => exact hf a
  | error u => exact failsOnly_error.2 (h u rfl)

end Computations

/-! ## Settings -/

@[simp] theorem isRefusal_refuseValue (option value : String) :
    (refuseValue option value).isRefusal = true :=
  rfl

@[simp] theorem Setting.refusesValue_choose {α : Type} (option value : String) (x : Option α) :
    RefusesValue (choose option value x) := by
  cases x <;> simp [choose]

@[simp] theorem refusesValue_readLocation (option value : String) :
    RefusesValue (readLocation option value) := by
  unfold readLocation
  split <;> simp [CommandError.isRefusal]

theorem TextSetting.refusesValue_read (t : TextSetting) (option value : String) :
    RefusesValue (t.read option value) := by
  unfold TextSetting.read
  split <;> try simp
  split <;> simp [CommandError.isRefusal]

theorem Switch.isRefusal_refuse (s : Switch) (option value : String) :
    (s.refuse option value).isRefusal = true := by
  cases s <;> rfl

@[simp] theorem Switch.refusesValue_read (s : Switch) (option value : String) :
    RefusesValue (s.read option value) := by
  unfold Switch.read
  generalize (if s.isStrict = true then _ else _ : Option Bool) = b
  cases b <;> simp [isRefusal_refuse]

theorem CountSetting.refusesValue_read (c : CountSetting) (option value : String) :
    RefusesValue (c.read option value) := by
  unfold CountSetting.read
  split
  · simp
  · split <;> simp [CommandError.isRefusal, refuseValue]

theorem SizeSetting.refusesValue_read (s : SizeSetting) (option value : String) :
    RefusesValue (s.read option value) := by
  unfold SizeSetting.read
  dsimp only
  split <;> simp

/-- A secret that is not taken has to name a user, and does not. -/
theorem SecretSetting.error_of_read {s : SecretSetting} {option value : String} {u : CommandError}
    (h : s.read option value = .error u) :
    s = .guestPassword ∧ ':' ∉ value.toList ∧ u = .badSecret option := by
  unfold SecretSetting.read at h
  split at h
  · next hs =>
    cases h
    exact ⟨hs.1, hs.2, rfl⟩
  · cases h

/-- The value of a setting that is no secret is to blame if it cannot be read. -/
theorem Setting.refusesValue_read {s : Setting} (hs : ∀ t, s ≠ .secret t) (option value : String) :
    RefusesValue (s.read option value) := by
  cases s with
  | mark m => exact failsOnly_ok ()
  | text t => exact t.refusesValue_read option value
  | switch s => exact s.refusesValue_read option value
  | count c => exact c.refusesValue_read option value
  | size s => exact s.refusesValue_read option value
  | secret s => exact absurd rfl (hs s)
  | netfilter =>
    unfold Setting.read
    dsimp only
    split <;> simp [CommandError.isRefusal]
  | mountMode =>
    unfold Setting.read
    dsimp only
    split <;> simp [CommandError.isRefusal]
  | _ => exact Setting.refusesValue_choose _ _ _

/-- The value of a setting is to blame if it cannot be read, be it a secret or not. -/
theorem Setting.blamesValue_read (s : Setting) (option value : String) :
    BlamesValue (s.read option value) := by
  by_cases hs : ∃ t, s = .secret t
  · obtain ⟨t, rfl⟩ := hs
    intro u hu
    obtain ⟨-, -, rfl⟩ := SecretSetting.error_of_read hu
    rfl
  · exact (refusesValue_read (fun t ht => hs ⟨t, ht⟩) option value).blames

@[simp] theorem DeviceSetting.refusesValue_read (s : DeviceSetting) (option value : String) :
    RefusesValue (s.read option value) := by
  cases s with
  | mark m => exact failsOnly_ok ()
  | text t =>
    unfold DeviceSetting.read readText
    cases t <;> dsimp only <;> try simp
    split <;> simp [CommandError.isRefusal]
  | _ => exact Setting.refusesValue_choose _ _ _

@[simp] theorem AdapterSetting.refusesValue_read (s : AdapterSetting) (option value : String) :
    RefusesValue (s.read option value) := by
  cases s with
  | gateway => exact failsOnly_ok value
  | gateway6 => exact failsOnly_ok value
  | switch s =>
    unfold AdapterSetting.read
    dsimp only
    split
    · simp
    · exact failsOnly_error.2 (by cases s <;> rfl)
  | _ => exact Setting.refusesValue_choose _ _ _

@[simp] theorem ServerSetting.refusesValue_read (s : ServerSetting) (option value : String) :
    RefusesValue (s.read option value) := by
  cases s with
  | mark m => exact failsOnly_ok ()
  | text t => exact failsOnly_ok value
  | switch s =>
    unfold ServerSetting.read
    dsimp only
    split
    · simp
    · exact failsOnly_error.2 (by cases s <;> rfl)
  | _ => exact Setting.refusesValue_choose _ _ _

@[simp] theorem NetworkSetting.refusesValue_read (s : NetworkSetting) (option value : String) :
    RefusesValue (s.read option value) := by
  cases s with
  | text t => exact failsOnly_ok _
  | switch s => exact Setting.refusesValue_choose _ _ _
  | kind =>
    unfold NetworkSetting.read
    dsimp only
    split <;> simp [CommandError.isRefusal]

/-! ## Other values -/

theorem ResourceLimit.refusesValue_choose (kind : ResourceKind) (option value : String)
    (pair : Option LimitPair) : RefusesValue (choose kind option value pair) := by
  cases pair <;> simp [choose, CommandError.isRefusal]

theorem CapabilityMask.refusesValue_applyItem (whole : String) (m : CapabilityMask)
    (item : List Char) : RefusesValue (m.applyItem whole item) := by
  unfold applyItem
  split
  · simp [CommandError.isRefusal]
  · split
    · simp [CommandError.isRefusal]
    · split <;> simp [CommandError.isRefusal]

theorem CapabilityMask.refusesValue_applyItems (whole : String) (items : List (List Char))
    (m : CapabilityMask) : RefusesValue (applyItems whole items m).1 := by
  induction items generalizing m with
  | nil => exact failsOnly_ok ()
  | cons item items ih =>
    have hitem := refusesValue_applyItem whole m item
    unfold applyItems
    split
    · exact ih _
    · next hu => exact failsOnly_error.2 (hitem _ hu)

theorem Features.refusesValue_setMode (fs : Features) (f : Feature) (mode : String) :
    RefusesValue (fs.setMode f mode).1 := by
  unfold setMode
  dsimp only
  split <;> split <;> simp [CommandError.isRefusal]

theorem Features.refusesValue_applyItem (fs : Features) (item : List Char) :
    RefusesValue (fs.applyItem item).1 := by
  unfold applyItem
  split
  · simp [CommandError.isRefusal]
  · dsimp only
    split
    · simp [CommandError.isRefusal]
    · split
      · simp [CommandError.isRefusal]
      · exact refusesValue_setMode _ _ _

theorem Features.refusesValue_applyItems (items : List (List Char)) (fs : Features) :
    RefusesValue (applyItems items fs).1 := by
  induction items generalizing fs with
  | nil => exact failsOnly_ok ()
  | cons item items ih =>
    have hitem := refusesValue_applyItem fs item
    unfold applyItems
    split
    · exact ih _
    · next hu => exact failsOnly_error.2 (hitem _ (by rw [hu]))

theorem Expiration.refusesValue_apply (e : Expiration) (value : String) :
    RefusesValue (e.apply value) := by
  unfold apply
  split
  · simp
  · dsimp only
    split <;> simp [CommandError.isRefusal]

@[simp] theorem PasswordRules.refusesValue_read (allowed : List String) (option value : String) :
    RefusesValue (read allowed option value) :=
  Setting.refusesValue_choose _ _ _

theorem FirewallRule.refusesValue_read (value : String) : RefusesValue (read value) := by
  unfold read
  split
  · simp [CommandError.isRefusal]
  · split <;> simp [CommandError.isRefusal]

/-- An entry of the server is to blame if it cannot be read. -/
theorem Server.refusesValue_of_entry {m : Match OptionId} {s : Server}
    {x : Except CommandError Server} (h : takeEntry? m s = some x) : RefusesValue x := by
  have hservice : RefusesValue (OfflineService.read m.text) := by
    unfold OfflineService.read
    split <;> simp [CommandError.isRefusal]
  have hclass (delete : Bool) : RefusesValue (NetworkClass.read m.text delete) := by
    unfold NetworkClass.read
    dsimp only
    split <;> simp [CommandError.isRefusal]
  have hshaping (delete : Bool) : RefusesValue (ShapingEntry.read m.text delete) := by
    unfold ShapingEntry.read
    split <;> simp [CommandError.isRefusal]
  have hbandwidth (delete : Bool) : RefusesValue (BandwidthEntry.read m.text delete) := by
    unfold BandwidthEntry.read
    dsimp only
    split <;> simp [CommandError.isRefusal]
  unfold takeEntry? at h
  dsimp only at h
  split at h <;> cases h
  case h_2 => simp
  all_goals exact failsOnly_map (by first | exact hservice | exact hclass _ | exact hshaping _ |
    exact hbandwidth _)

/-! ## Options of guests -/

namespace Draft

/-- An option that excludes another one is turned down for that. -/
theorem isRefusal_of_conflict? {d : Draft} {id : OptionId} {u : CommandError}
    (h : d.conflict? id = some u) : u.isRefusal = true := by
  unfold conflict? at h
  dsimp only at h
  split at h <;> try cases h
  all_goals
    split at h <;> cases h
    rfl

end Draft

/-! ## The end of a line -/

theorem refusesValue_enforce (rules : List Rule) : RefusesValue (Rule.enforce rules) := by
  induction rules with
  | nil => exact failsOnly_ok ()
  | cons rule rules ih =>
    unfold Rule.enforce
    split
    · exact failsOnly_error.2 rfl
    · exact ih

namespace Record

theorem refusesValue_resolvePath (host : Host) (remote : Bool) (path : String) :
    RefusesValue (resolvePath host remote path) := by
  unfold resolvePath
  split
  · exact failsOnly_ok path
  · split
    · exact failsOnly_error.2 rfl
    · split
      · exact failsOnly_ok _
      · exact failsOnly_error.2 rfl

theorem refusesValue_consistent (host : Host) (r : Record) : RefusesValue (r.consistent host) := by
  have hlocation : RefusesValue (resolveLocation host r) := by
    unfold resolveLocation
    split
    · exact failsOnly_ok r
    · exact failsOnly_map (refusesValue_resolvePath _ _ _)
  have himage (r : Record) : RefusesValue (resolveImage host r) := by
    unfold resolveImage
    split
    · exact failsOnly_ok r
    · exact failsOnly_map (refusesValue_resolvePath _ _ _)
  exact failsOnly_bind (refusesValue_enforce _) fun _ => failsOnly_bind hlocation fun r =>
    failsOnly_bind (himage r) fun _ => failsOnly_bind (refusesValue_enforce _) fun _ =>
      failsOnly_pure _

end Record

theorem Draft.refusesValue_finish (d : Draft) : RefusesValue d.finish := by
  have hfate : RefusesValue d.settleImageFate := by
    unfold settleImageFate
    split
    · exact failsOnly_ok d
    · split
      · exact failsOnly_error.2 rfl
      · exact failsOnly_ok _
  exact failsOnly_bind hfate fun _ => failsOnly_pure _

/-! ## Lines without a command -/

namespace Program

/-- What is told without reading a line is the usage or the version. -/
theorem cases_of_help? {p : Program} {args : List String} {text : String} {u : CommandError}
    (h : p.help? args = some (text, u)) :
    (text = p.usage args ∧ (u = .reported ∨ u = .exit 0)) ∨
      (text = Usage.version (Usage.programName args) ++ "\n" ∧ u = .exit 0) := by
  have htold {text' : String} {u' : CommandError} (h : some (text', u') = some (text, u)) :
      text = text' ∧ u = u' :=
    (Prod.mk.inj (Option.some.inj h)).imp Eq.symm Eq.symm
  unfold help? at h
  split at h
  · exact .inl ((htold h).imp id .inl)
  · split at h
    · exact .inr (htold h)
    · split at h
      · exact .inl ((htold h).imp id .inr)
      · cases h
  · split at h
    · exact .inl ((htold h).imp id .inr)
    · cases h

/-- Help that was asked for ends the line well, and help without words does not. -/
theorem ending_of_help? {p : Program} {args : List String} {text : String} {u : CommandError}
    (h : p.help? args = some (text, u)) : u = .reported ∨ u = .exit 0 :=
  (cases_of_help? h).elim And.right fun hversion => .inr hversion.2

/-- A line that has no command lacks a verb. -/
theorem failsOnly_command {E : CommandError → Prop} (husage : E .invalidUsage)
    (hverb : ∀ verb, E (.unknownAction verb)) (p : Program) (args : List String) :
    FailsOnly E (p.command args) := by
  cases p with
  | guests =>
    simp only [command, guestCommand]
    split
    · exact failsOnly_error.2 husage
    · exact failsOnly_ok _
    · exact failsOnly_ok _
    · exact failsOnly_error.2 husage
    · split
      · exact failsOnly_ok _
      · exact failsOnly_error.2 (hverb _)
    · split
      · exact failsOnly_ok _
      · exact failsOnly_error.2 (hverb _)
  | server =>
    simp only [command, serverCommand, userCommand]
    split
    · exact failsOnly_error.2 husage
    · split
      · exact failsOnly_ok _
      · exact failsOnly_error.2 (hverb _)
    · exact failsOnly_ok _
    · split
      · exact failsOnly_ok _
      · exact failsOnly_error.2 (hverb _)

end Program

end VmControl
