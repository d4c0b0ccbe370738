import VmControl.Proofs.Safety.Guarded

/-!
# Reading settings by position

The values of the settings of guests and devices, with each value that is cut or counted read by
position.  A value that is taken as it stands, or selects one word of a few, needs none of this and
is left to the setting.

## Main statements

* `Guarded.readSetting_eq`, `Guarded.readDeviceSetting_eq`: reading the value of a setting does not
  trap.
-/

namespace VmControl.Guarded

open Numeral Options Text

/-! ## Settings of a guest -/

/-- A UUID in braces; a text that is none stays as it is. -/
def uuidOrVerbatim (value : String) : Guarded String := do
  let uuid ← check (Checked.normalizeUuid value)
  return uuid.getD value

@[simp] theorem uuidOrVerbatim_eq (value : String) :
    uuidOrVerbatim value = pure (VmControl.uuidOrVerbatim value) := by
  rw [uuidOrVerbatim, Checked.normalizeUuid_eq]
  rfl

/-- A text. -/
def readText (t : TextSetting) (option value : String) : Guarded String :=
  match t with
  | .uuid => do
    match ← check (Checked.normalizeUuid value) with
    | some u => return u
    | none => throw (.refused (.invalidValue "--uuid" value))
  | .snapshotId => uuidOrVerbatim value
  | t => ofExcept (t.read option value)

theorem readText_eq (t : TextSetting) (option value : String) :
    readText t option value = ofExcept (t.read option value) := by
  unfold readText
  split
  · simp only [Checked.normalizeUuid_eq, check_ok, pure_bind, TextSetting.read]
    cases normalizeUuid value <;> rfl
  · rw [uuidOrVerbatim_eq]
    rfl
  · rfl

/-- A number of digits alone. -/
def readCount (c : CountSetting) (option value : String) : Guarded Nat := do
  let n ← check (Checked.digits word32 value.toList)
  match n.filter c.admits with
  | some n => return n
  | none =>
    throw (if c = .haPriority then .refused (.highAvailability "--ha-prio" value)
      else refuseValue option value)

theorem readCount_eq (c : CountSetting) (option value : String) :
    readCount c option value = ofExcept (c.read option value) := by
  simp only [readCount, Checked.digits_eq, check_ok, pure_bind, CountSetting.read]
  cases (digits word32 value.toList).filter c.admits <;> rfl

/-- A size.  Only that of input and output may be none. -/
def readSizeSetting (s : SizeSetting) (option value : String) : Guarded Nat := do
  let size ← check (Checked.readSize (if s = .io then .bytes else .mebibytes) value)
  match if s = .io then size else size.filter (0 < ·) with
  | some n => return n
  | none => throw (refuseValue option value)

theorem readSizeSetting_eq (s : SizeSetting) (option value : String) :
    readSizeSetting s option value = ofExcept (s.read option value) := by
  simp only [readSizeSetting, Checked.readSize_eq, check_ok, pure_bind, SizeSetting.read]
  cases s with
  | io =>
    simp only [if_true]
    cases readSize .bytes value <;> rfl
  | memory | video =>
    simp only [reduceCtorEq, if_false]
    cases (readSize .mebibytes value).filter (0 < ·) <;> rfl

/-- The value of a setting. -/
def readSetting (s : Setting) (option value : String) : Guarded s.Value :=
  match s with
  | .text t => readText t option value
  | .count c => readCount c option value
  | .size s => readSizeSetting s option value
  | .cpuLimit => do
    let limit ← check (Checked.readCpuLimit value)
    ofExcept (Setting.choose option value limit)
  | .memoryGuarantee => do
    if value = "auto" then return MemoryGuarantee.auto
    let share ← check (Checked.digits word32 value.toList)
    ofExcept (Setting.choose option value (share.map .percent))
  | s => ofExcept (s.read option value)

theorem readSetting_eq (s : Setting) (option value : String) :
    readSetting s option value = ofExcept (s.read option value) := by
  unfold readSetting
  split
  · exact readText_eq ..
  · exact readCount_eq ..
  · exact readSizeSetting_eq ..
  · rw [Checked.readCpuLimit_eq]
    rfl
  · simp only [Checked.digits_eq, check_ok, pure_bind, Setting.read, MemoryGuarantee.read?]
    split <;> rfl
  · rfl

/-- The value of a property of a device. -/
def readDeviceSetting (s : DeviceSetting) (option value : String) : Guarded s.Value :=
  match s with
  | .text .mac => do
    let mac ← check (Checked.readMac value)
    ofExcept (Setting.choose option value mac)
  | .size => do
    let size ← check (Checked.readSize .mebibytes value)
    ofExcept (Setting.choose option value size)
  | s => ofExcept (s.read option value)

theorem readDeviceSetting_eq (s : DeviceSetting) (option value : String) :
    readDeviceSetting s option value = ofExcept (s.read option value) := by
  unfold readDeviceSetting
  split
  · rw [Checked.readMac_eq]
    rfl
  · rw [Checked.readSize_eq]
    rfl
  · rfl

/-- The limit of a resource that is counted in pages, `plainDiv` being what a numeral alone is
divided by. -/
def readSwap (plainDiv : Nat) (option value : String) : Guarded ResourceLimit := do
  let limits ← check (Checked.readLimitPair pageSize plainDiv value)
  ofExcept (ResourceLimit.choose .swapPages option value limits)

theorem readSwap_one (option value : String) :
    readSwap 1 option value = ofExcept (ResourceLimit.readSwapPages option value) := by
  rw [readSwap, Checked.readLimitPair_eq (by decide) (by decide)]
  rfl

theorem readSwap_pageSize (option value : String) :
    readSwap pageSize option value = ofExcept (ResourceLimit.readSwap option value) := by
  rw [readSwap, Checked.readLimitPair_eq (by decide) (by decide)]
  rfl

/-- The limit of users and groups with a quota. -/
def readQuota (option value : String) : Guarded ResourceLimit := do
  let n ← check (Checked.digits word32 value.toList)
  ofExcept (ResourceLimit.choose .quotaUgidLimit option value (n.map fun n => ⟨n, n⟩))

theorem readQuota_eq (option value : String) :
    readQuota option value = ofExcept (ResourceLimit.readQuota option value) := by
  rw [readQuota, Checked.digits_eq]
  rfl

/-- The rate of a traffic class. -/
def readRate (s : String) : Checked (Option ClassRate) :=
  match cutFirst ':' s.toList with
  | none => .ok none
  | some (classId, rate) => do
    match ← Checked.digits word32 classId with
    | none => return none
    | some classId => return (← Checked.digits word32 rate).map fun rate => ⟨classId, rate⟩

theorem readRate_eq (s : String) : readRate s = .ok (ClassRate.read? s) := by
  unfold readRate ClassRate.read?
  cases cutFirst ':' s.toList with
  | none => rfl
  | some parts =>
    obtain ⟨classId, rate⟩ := parts
    simp only [Checked.digits_eq, Checked.ok_bind, Option.bind_eq_bind, Option.bind_some]
    cases digits word32 classId with
    | none => rfl
    | some classId => cases digits word32 rate <;> rfl

/-- The rule for one of the allowed commands. -/
def readPasswordRule (allowed : List String) (option value : String) :
    Guarded (String × Bool) := do
  let words ← check (Checked.split (· == ':') false value.toList)
  let rule := match words.map String.ofList with
    | [name, mode] =>
      if name ∈ allowed then (Toggle.read mode).map fun b => (name, b) else none
    | _ => none
  ofExcept (Setting.choose option value rule)

theorem readPasswordRule_eq (allowed : List String) (option value : String) :
    readPasswordRule allowed option value =
      ofExcept (PasswordRules.read allowed option value) := by
  rw [readPasswordRule, Checked.split_eq_words]
  rfl

/-- Names between commas or spaces. -/
def splitNames (value : String) : Guarded (List String) := do
  let names ← check (Checked.split (fun c => c == ' ' || c == ',') false value.toList)
  return names.map String.ofList

@[simp] theorem splitNames_eq (value : String) :
    splitNames value = pure (Draft.splitNames value) := by
  rw [splitNames, Checked.split_eq_words]
  rfl

end VmControl.Guarded
