import VmControl.Console

/-!
# Records without their secrets

A record with every secret replaced by the empty text.  How many secrets there are, and where, is
still told.  The end of a line and the summary of a record do not look at the secrets, so they come
to the same without them.

## Main definitions

* `Record.blank`: a record without the texts of its secrets.

## Main statements

* `Draft.finish_blank`, `Record.consistent_blank`: the end of a line leaves secrets alone.
* `Record.dispatch_blank`: the summary of a record does not tell them.
-/

namespace VmControl

/-! ## Steps that do not look at what a map takes away -/

section Except

variable {α β γ δ : Type} {x : Except CommandError α}

theorem map_bind_eq_map {g : α → γ} {g' : β → δ} {f : α → Except CommandError β}
    {f' : γ → Except CommandError δ} (hf : ∀ a, f' (g a) = (f a).map g') :
    (x.map g >>= f') = (x >>= f).map g' := by
  cases x with
  | error u => rfl
  | ok a => exact hf a

theorem bind_eq_map {g : β → γ} {f : α → Except CommandError β} {f' : α → Except CommandError γ}
    (hf : ∀ a, f' a = (f a).map g) : (x >>= f') = (x >>= f).map g := by
  cases x with
  | error u => rfl
  | ok a => exact hf a

theorem map_eq_map {f : α → β} {g : β → γ} {f' : α → γ} (hf : ∀ a, f' a = g (f a)) :
    x.map f' = (x.map f).map g := by
  cases x with
  | error u => rfl
  | ok a => exact congrArg Except.ok (hf a)

end Except

/-! ## Parts of a record -/

/-- The secret without its text. -/
def Secret.blank (_ : Secret) : Secret := ⟨""⟩

/-- The secrets without their texts. -/
def PendingSecrets.blank (p : PendingSecrets) : PendingSecrets := ⟨p.toList.map Secret.blank⟩

/-- The login text without its password, of which is told only that it is there. -/
def LoginText.blank (t : LoginText) : LoginText :=
  { t with password := t.password.map fun _ => ⟨"", 0, 0⟩ }

namespace Login

/-- The login without its passwords. -/
def blank (l : Login) : Login := { l with pending := l.pending.blank }

theorem blank_push (l : Login) (s : Secret) : (l.push s).blank = l.blank.push s.blank := by
  simp [blank, push, PendingSecrets.blank, PendingSecrets.push]

theorem blank_assign (l : Login) (t : LoginText) : (l.assign t).blank = l.blank.assign t.blank := by
  obtain ⟨user, _ | p, server, port⟩ := t
  · rfl
  · exact blank_push { l with user := user, server := server, port := port } ⟨p.text⟩

theorem blank_assignTarget (l : Login) (t : Option LoginText) :
    (l.assignTarget t).blank = l.blank.assignTarget (t.map LoginText.blank) := by
  cases t with
  | none => rfl
  | some t => exact l.blank_assign t

theorem isSome_takePassword_blank (l : Login) :
    l.blank.takePassword.1.isSome = l.takePassword.1.isSome := by
  obtain ⟨user, server, port, ⟨_ | _⟩⟩ := l <;> rfl

end Login

namespace Settings

/-- The settings without their secrets. -/
def blank (s : Settings) : Settings where
  get?
    | .secret k => (s.get? (.secret k)).map Secret.blank
    | k => s.get? k

theorem blank_alter (s : Settings) {k : Setting} (hk : k.isCredential = false)
    (v : Option k.Value) : blank (Sheet.alter s k v) = Sheet.alter s.blank k v := by
  apply Sheet.ext
  funext j
  by_cases hj : k = j
  · subst hj
    cases k <;> cases hk <;> simp [blank, Sheet.alter]
  · cases j <;> simp [blank, Sheet.alter, hj]

theorem blank_insert_secret (s : Settings) (k : SecretSetting) (v : Secret) :
    blank (Sheet.insert s (.secret k) v) = Sheet.insert s.blank (.secret k) v.blank := by
  apply Sheet.ext
  funext j
  by_cases hj : Setting.secret k = j
  · subst hj
    simp [blank, Sheet.insert, Sheet.alter]
  · cases j <;> simp_all [blank, Sheet.insert, Sheet.alter]

end Settings

/-- The migration without secrets. -/
def Migration.blank (m : Migration) : Migration := { m with destination := m.destination.blank }

/-- The backup without secrets. -/
def Backup.blank (b : Backup) : Backup :=
  { b with node := b.node.blank, storage := b.storage.blank }

/-- The problem report without secrets. -/
def ProblemReport.blank (p : ProblemReport) : ProblemReport :=
  { p with proxy := p.proxy.map Secret.blank }

/-- The settings of the server without secrets. -/
def Server.blank (s : Server) : Server :=
  { s with backupStorage := s.backupStorage.map Login.blank }

/-- The copy of a template without secrets. -/
def TemplateCopy.blank (c : TemplateCopy) : TemplateCopy :=
  { c with destination := c.destination.blank }

/-! ## Records -/

namespace Record

/-- The record without secrets. -/
def blank (r : Record) : Record :=
  { r with
    login := r.login.blank
    settings := r.settings.blank
    migration := r.migration.blank
    backup := r.backup.blank
    report := r.report.blank
    server := r.server.blank
    templateCopy := r.templateCopy.blank }

theorem set_blank (r : Record) (s : Setting) (hs : s.isCredential = false) (v : s.Value) :
    r.blank.set s v = (r.set s v).blank := by
  unfold set blank
  rw [Sheet.insert, Sheet.insert, Settings.blank_alter _ hs]

theorem set_secret_blank (r : Record) (s : SecretSetting) (v : Secret) :
    (r.set (.secret s) v).blank = r.blank.set (.secret s) v.blank := by
  unfold set blank
  rw [Settings.blank_insert_secret]

theorem resolveLocation_blank (host : Host) (r : Record) :
    resolveLocation host r.blank = (resolveLocation host r).map blank := by
  have hpath : r.blank.text? .location = r.text? .location := rfl
  have hremote : r.blank.login.isRemote = r.login.isRemote := rfl
  unfold resolveLocation
  rw [hpath, hremote]
  cases r.text? .location with
  | none => rfl
  | some path =>
    dsimp only
    cases resolvePath host r.login.isRemote path with
    | error u => rfl
    | ok full => exact congrArg Except.ok (r.set_blank (.text .location) rfl full)

theorem resolveImage_blank (host : Host) (r : Record) :
    resolveImage host r.blank = (resolveImage host r).map blank := by
  have hdevice : r.blank.device = r.device := rfl
  have hremote : r.blank.login.isRemote = r.login.isRemote := rfl
  unfold resolveImage
  rw [hdevice, hremote]
  cases r.device.text? .image with
  | none => rfl
  | some path =>
    dsimp only
    cases resolvePath host r.login.isRemote path <;> rfl

/-- **Making a record consistent leaves its secrets alone.** -/
theorem consistent_blank (host : Host) (r : Record) :
    r.blank.consistent host = (r.consistent host).map blank := by
  have hlate (r : Record) : r.blank.lateRules = r.lateRules := rfl
  have hearly : r.blank.earlyRules = r.earlyRules := rfl
  unfold consistent
  rw [hearly]
  cases Rule.enforce r.earlyRules with
  | error u => rfl
  | ok =>
    let rest (r : Record) : Except CommandError Record := do
      let r ← resolveImage host r
      Rule.enforce r.lateRules
      return r
    show (resolveLocation host r.blank >>= rest) = (resolveLocation host r >>= rest).map blank
    refine (congrArg (· >>= _) (resolveLocation_blank host r)).trans (map_bind_eq_map fun r => ?_)
    refine (congrArg (· >>= _) (resolveImage_blank host r)).trans (map_bind_eq_map fun r => ?_)
    rw [hlate]
    cases Rule.enforce r.lateRules <;> rfl

/-- **The summary of a record does not tell its secrets.** -/
theorem dispatch_blank (r : Record) : r.blank.dispatch.1 = r.dispatch.1 := by
  show _ ++ _ ++ hostSummary r.login.blank.takePassword.2 r.login.blank.takePassword.1.isSome = _
  rw [Login.isSome_takePassword_blank]
  rfl

theorem isValid_blank (r : Record) : r.blank.isValid = r.isValid :=
  rfl

end Record

/-! ## The end of a line -/

namespace Draft

/-- What was read without secrets. -/
def blank (d : Draft) : Draft := d.mapRecord Record.blank

theorem settleImageFate_blank (d : Draft) :
    d.blank.settleImageFate = d.settleImageFate.map blank := by
  obtain ⟨record, adapter, _ | ⟨fate, fates⟩⟩ := d
  · rfl
  · unfold settleImageFate blank mapRecord
    dsimp only
    split <;> rfl

theorem settleDisk_blank (r : Record) : settleDisk r.blank = (settleDisk r).blank := by
  unfold settleDisk
  by_cases hkind : r.device.kind = some .hdd
  · have hkind' : r.blank.device.kind = some .hdd := hkind
    rw [if_pos hkind, if_pos hkind']
    unfold Record.blank
    dsimp only
    rw [Sheet.erase, Sheet.erase, Settings.blank_alter _ rfl]
    rfl
  · have hkind' : ¬ r.blank.device.kind = some .hdd := hkind
    rw [if_neg hkind, if_neg hkind']

theorem settleSize_blank (r : Record) : settleSize r.blank = (settleSize r).blank := by
  unfold settleSize
  show (if r.device.settings.has .size && r.device.kind.isNone then _ else _) = _
  split <;> rfl

theorem settleAdapter_blank (d : Draft) : d.blank.settleAdapter = d.settleAdapter.blank := by
  have hdevice : d.blank.record.device = d.record.device := rfl
  have hadapter : d.blank.adapter = d.adapter := rfl
  unfold settleAdapter
  simp only [hdevice, hadapter]
  cases d.record.device.kind == some .net <;>
    simp only [if_true, Bool.false_eq_true, if_false, hdevice] <;> split <;> rfl

/-- **The end of a line leaves secrets alone.** -/
theorem finish_blank (d : Draft) : d.blank.finish = d.finish.map Record.blank := by
  unfold finish
  refine (congrArg (· >>= _) (settleImageFate_blank d)).trans (map_bind_eq_map fun d => ?_)
  show Except.ok ((d.blank.mapRecord (settleSize ∘ settleDisk)).settleAdapter) =
    Except.ok ((d.mapRecord (settleSize ∘ settleDisk)).settleAdapter.blank)
  rw [← settleAdapter_blank]
  unfold blank mapRecord
  simp only [Function.comp, settleDisk_blank, settleSize_blank]

end Draft

end VmControl
