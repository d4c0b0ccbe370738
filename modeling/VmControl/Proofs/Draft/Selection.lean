import VmControl.Proofs.Consistency
import VmControl.Proofs.Draft.Line
import VmControl.Proofs.Line.Layout

/-!
# The device of a line

A line that changes a guest may select a device.  Some selectors say of which class it is, others
only name it.  At the end of the line a size without a device is for the first disk, and network
settings without a device are for the first adapter.  But whether there is a device is told by its
class alone, so a device that was only named is taken for none, and makes way for the other one.

## Main definitions

* `Selector.command`, `Selector.kind?`, `Selector.deviceName?`: what a selector says.
* `Part.isFilled`: whether options have entered anything in a part.
* `OptionId.changesAdapter`: the options that are for the first adapter if there is no device.

## Main statements

* `Draft.view_takeAll_selection`: what is selected depends on the selectors alone.
* `Draft.isFilled_takeAll`: a part is filled exactly if an option entered something in it.
* `Draft.selection_of_finish`: what becomes of the selection at the end of the line.
* `Program.selection_stands_iff`: which selections are still there then.
-/

namespace VmControl

open Options

/-! ## What selectors say -/

namespace Selector

/-- What is to be done to the device. -/
def command : Selector → DeviceCommand
  | .add => .add
  | .addAdapter => .add
  | .set => .set
  | .setAdapter => .set
  | .delete => .delete
  | .deleteAdapter => .delete
  | .connect => .connect
  | .disconnect => .disconnect
  | .bootOrder => .bootOrder

/-- The class of the device, if the selector says it. -/
def kind? (s : Selector) (value : String) : Option DeviceKind :=
  match s with
  | .add => DeviceKind.read? value
  | .set => Draft.kindOfName? (Draft.deviceName value)
  | .addAdapter => some .net
  | .setAdapter => some .net
  | .deleteAdapter => some .net
  | _ => none

/-- The name of the device, which a new one has not. -/
def deviceName? (s : Selector) (value : String) : Option String :=
  match s with
  | .add => none
  | .addAdapter => none
  | .set => some (Draft.deviceName value)
  | .delete => some (Draft.deviceName value)
  | _ => some value

/-- The name of the interface of an adapter. -/
def ifName? (s : Selector) (value : String) : Option String :=
  match s with
  | .addAdapter => some value
  | .setAdapter => some value
  | _ => none

/-- Whether the selector says of which class the device is. -/
def fixesKind : Selector → Bool
  | .delete => false
  | .connect => false
  | .disconnect => false
  | .bootOrder => false
  | _ => true

theorem command_ne_set {s : Selector} (h : s.fixesKind = false) : s.command ≠ .set := by
  cases s <;> first | decide | cases h

end Selector

/-- The selector that an option is. -/
def OptionId.selector? : OptionId → Option Selector
  | .selector s => some s
  | _ => none

/-- The selector that an option is, and its value. -/
def Options.Match.selection? (m : Match OptionId) : Option (Selector × String) :=
  m.id.selector?.map (·, m.text)

/-- Whether an option is for the first adapter if there is no device. -/
def OptionId.changesAdapter : OptionId → Bool
  | .adapter s => s.isChange
  | .ipSet => true
  | .ipAdd => true
  | .ipDelete => true
  | _ => false

namespace Draft

variable {host : Host} {s s' : Stage}

/-! ## Taking selectors -/

/-- What a selector makes of the selection. -/
def enterSelection (c : Part.selection.Content) (x : Selector × String) : Part.selection.Content :=
  let (_, kind, name, ifName) := c
  let (k, value) := x
  (some k.command, (k.kind? value).or kind, (k.deviceName? value).or name,
    (k.ifName? value).or ifName)

theorem select_eq_ok {d d' : Draft} {k : Selector} {value : String} (h : d.select k value = .ok d')
    (q : Preferences) : (k.kind? value).isSome = k.fixesKind ∧
      view (d', q) .selection = enterSelection (view (d, q) .selection) (k, value) := by
  unfold select at h
  cases k <;> dsimp only at h
  case add =>
    cases hkind : DeviceKind.read? value with
    | none => rw [hkind] at h; cases h
    | some kind =>
      rw [hkind] at h
      cases h
      simp [Selector.kind?, hkind, Selector.fixesKind, enterSelection, view, Selector.command,
        Selector.deviceName?, Selector.ifName?]
  case set =>
    cases hkind : kindOfName? (deviceName value) with
    | none => rw [hkind] at h; cases h
    | some kind =>
      rw [hkind] at h
      cases h
      simp [Selector.kind?, hkind, Selector.fixesKind, enterSelection, view, Selector.command,
        Selector.deviceName?, Selector.ifName?]
  all_goals
    cases h
    exact ⟨rfl, rfl⟩

theorem take_selector {m : Match OptionId} {k : Selector} (hid : m.id = .selector k)
    (h : take host s m = some s') : (k.kind? m.text).isSome = k.fixesKind ∧
      view s' .selection = enterSelection (view s .selection) (k, m.text) := by
  obtain ⟨d, hd, rfl⟩ := exists_applyPure_of_take h (by simp [hid])
  simp only [applyPure, hid] at hd
  exact select_eq_ok hd s.2

theorem selector?_eq_none {id : OptionId} (h : part? id ≠ some .selection) :
    id.selector? = none := by
  cases id <;> first | rfl | exact absurd rfl h

theorem exists_selector {id : OptionId} (h : part? id = some .selection) :
    ∃ k, id = .selector k := by
  cases id <;> first | exact ⟨_, rfl⟩ | cases h

/-- **What is selected depends on the selectors alone.** -/
theorem view_takeAll_selection {os : List (Occurrence OptionId)}
    (h : takeAll host s os = some s') :
    view s' .selection =
      (os.filterMap (·.toMatch.selection?)).foldl enterSelection (view s .selection) ∧
    ∀ x ∈ os.filterMap (·.toMatch.selection?), (x.1.kind? x.2).isSome = x.1.fixesKind := by
  induction os generalizing s with
  | nil => cases h; exact ⟨rfl, fun x hx => nomatch hx⟩
  | cons o os ih =>
    obtain ⟨s₁, htake, hrest⟩ := Option.bind_eq_some_iff.1 h
    obtain ⟨hview, hkinds⟩ := ih hrest
    by_cases hpart : part? o.id = some .selection
    · obtain ⟨k, hk⟩ := exists_selector hpart
      have hsel : o.toMatch.selection? = some (k, o.toMatch.text) := by
        simp [Match.selection?, show o.toMatch.id = _ from hk, OptionId.selector?]
      obtain ⟨hkind, henter⟩ := take_selector hk htake
      simp only [List.filterMap_cons, hsel]
      rw [List.foldl_cons, ← henter]
      refine ⟨hview, fun x hx => ?_⟩
      rcases List.mem_cons.1 hx with rfl | hx
      · exact hkind
      · exact hkinds x hx
    · have hsel : o.toMatch.selection? = none := by
        simp [Match.selection?, show o.toMatch.id.selector? = none from selector?_eq_none hpart]
      simp only [List.filterMap_cons, hsel]
      rw [← view_take_of_ne htake hpart]
      exact ⟨hview, hkinds⟩

end Draft

/-! ## What options enter -/

/-- Whether options have entered anything in a part.  Parts that are never empty count as filled. -/
def Draft.Part.isFilled : (p : Part) → p.Content → Bool
  | .device _, v => v.isSome
  | .adapter _, v => v.isSome
  | .addresses, (_, as) => !as.isEmpty
  | .removals, (all, as) => all || !as.isEmpty
  | _, _ => true

namespace Draft

theorem isFilled_applyPure {m : Match OptionId} {d d' : Draft} {p : Part}
    (h : d.applyPure m = .ok d') (q : Preferences) (hp : part? m.id = some p) :
    p.isFilled (view (d', q) p) = true := by
  cases hid : m.id <;> rw [hid] at hp <;> cases hp <;> try rfl
  case device k =>
    simp only [applyPure, hid, bind_eq_ok] at h
    obtain ⟨v, -, ⟨⟩⟩ := h
    simp [Part.isFilled, view, mapRecord, Device.set]
  case adapter k =>
    simp only [applyPure, hid, bind_eq_ok] at h
    obtain ⟨v, -, ⟨⟩⟩ := h
    simp [Part.isFilled, view, mapAdapter, Adapter.set]
  case ipSet | ipAdd =>
    simp only [applyPure, hid] at h
    cases h
    simp [Part.isFilled, view, mapAdapter]
  case ipDelete =>
    simp only [applyPure, hid] at h
    split at h <;> cases h <;> simp [Part.isFilled, view, mapAdapter]

theorem isFilled_take {m : Match OptionId} {p : Part} (h : take host s m = some s')
    (hp : part? m.id = some p) : p.isFilled (view s' p) = true := by
  obtain ⟨d, q⟩ := s
  unfold take at h
  dsimp only at h
  split at h
  case h_6 => cases h
  case h_10 =>
    split at h
    · cases h
    · obtain ⟨d', hd, rfl⟩ := Option.map_eq_some_iff.1 h
      exact isFilled_applyPure (toOption_eq_some.1 hd) q hp
  all_goals
    next hid =>
      rw [hid] at hp
      cases hp
      rfl

/-- **A part is filled exactly if an option entered something in it**, or if it was before. -/
theorem isFilled_takeAll {os : List (Occurrence OptionId)} (h : takeAll host s os = some s')
    (p : Part) : p.isFilled (view s' p) = true ↔
      p.isFilled (view s p) = true ∨ ∃ o ∈ os, part? o.id = some p := by
  induction os generalizing s with
  | nil => cases h; simp
  | cons o os ih =>
    obtain ⟨s₁, htake, hrest⟩ := Option.bind_eq_some_iff.1 h
    simp only [ih hrest, List.mem_cons, exists_eq_or_imp]
    by_cases hpart : part? o.id = some p
    · have hfilled : p.isFilled (view s₁ p) = true := isFilled_take htake hpart
      simp [hpart, hfilled]
    · rw [view_take_of_ne htake hpart]
      simp [hpart]

/-- So a part that was empty is filled by options alone. -/
theorem isFilled_of_empty {os : List (Occurrence OptionId)} {p : Part}
    (h : takeAll host s os = some s') (hempty : p.isFilled (view s p) = false) :
    p.isFilled (view s' p) = true ↔ ∃ o ∈ os, part? o.id = some p := by
  rw [isFilled_takeAll h, hempty]
  simp

/-! ## The end of the line -/

/-- Whether a part is for the first adapter if there is no device. -/
def Part.changesAdapter : Part → Bool
  | .adapter s => s.isChange
  | .addresses => true
  | .removals => true
  | _ => false

theorem changesAdapter_iff {id : OptionId} :
    id.changesAdapter = true ↔ ∃ p, part? id = some p ∧ p.changesAdapter = true := by
  cases id <;> simp [OptionId.changesAdapter, part?, Part.changesAdapter]

theorem mem_all (k : AdapterSetting) : k ∈ AdapterSetting.all := by
  cases k with
  | switch k => cases k <;> decide
  | _ => decide

/-- An adapter without names is changed exactly if a part that is for it is filled. -/
theorem isUpdated_iff (hname : s.1.adapter.ifName = none) :
    ({ s.1.adapter with searchDomains := [], nameServers := [] } : Adapter).isUpdated = true ↔
      ∃ p : Part, p.changesAdapter = true ∧ p.isFilled (view s p) = true := by
  simp only [Adapter.isUpdated, hname, Option.isSome_none, List.isEmpty_nil, Bool.not_true,
    Bool.false_or, Bool.or_eq_true, List.any_eq_true, Bool.and_eq_true]
  constructor
  · rintro (((h | h) | h) | ⟨k, -, hchange, hk⟩)
    · exact ⟨.addresses, rfl, h⟩
    · exact ⟨.removals, rfl, by simp [Part.isFilled, view, h]⟩
    · exact ⟨.removals, rfl, by simp [Part.isFilled, view, h]⟩
    · exact ⟨.adapter k, hchange, hk⟩
  · rintro ⟨p, hchange, hp⟩
    cases p with
    | adapter k => exact .inr ⟨k, mem_all k, hchange, hp⟩
    | addresses => exact .inl (.inl (.inl hp))
    | removals =>
      rcases Bool.or_eq_true_iff.1 hp with h | h
      · exact .inl (.inr h)
      · exact .inl (.inl (.inr h))
    | _ => cases hchange

theorem device_settleImageFate {d d' : Draft} (h : d.settleImageFate = .ok d') :
    d'.record.device = d.record.device ∧ d'.adapter = d.adapter := by
  obtain ⟨fate, rfl⟩ := exists_of_settleImageFate h
  exact ⟨rfl, rfl⟩

theorem device_settleDisk (r : Record) : (settleDisk r).device.command = r.device.command ∧
    (settleDisk r).device.kind = r.device.kind ∧ (settleDisk r).device.name = r.device.name ∧
    (settleDisk r).device.settings = r.device.settings := by
  unfold settleDisk
  split <;> exact ⟨rfl, rfl, rfl, rfl⟩

theorem settleAdapter_of_kind {d : Draft} {kind : DeviceKind}
    (h : d.record.device.kind = some kind) :
    (d.settleAdapter.device.command, d.settleAdapter.device.kind, d.settleAdapter.device.name) =
      (d.record.device.command, some kind, d.record.device.name) := by
  unfold settleAdapter
  by_cases hnet : kind = .net
  · subst hnet
    simp [h]
  · simp [h, hnet]

theorem settleAdapter_of_kind_eq_none {d : Draft} (h : d.record.device.kind = none) :
    (d.settleAdapter.device.command, d.settleAdapter.device.kind, d.settleAdapter.device.name) =
      if ({ d.adapter with searchDomains := [], nameServers := [] } : Adapter).isUpdated then
        (some .set, some .net, d.record.device.name)
      else (d.record.device.command, none, d.record.device.name) := by
  have hnet : (d.record.device.kind == some .net) = false := by rw [h]; rfl
  unfold settleAdapter
  dsimp only
  rw [hnet]
  simp only [Bool.false_eq_true, if_false, h, Option.isNone_none, Bool.and_true]
  split
  · rfl
  · rw [← h]

/-- **What becomes of the selection at the end of the line.**  If the class of the device is not
known, then a size is for the first disk, and else a change of an adapter for the first one. -/
theorem selection_of_finish {d : Draft} {r : Record} (h : d.finish = .ok r) :
    (r.device.command, r.device.kind, r.device.name) =
      let device := d.record.device
      if device.kind.isSome then (device.command, device.kind, device.name)
      else if device.settings.has .size then (some .set, some .hdd, some "hdd0")
      else if ({ d.adapter with searchDomains := [], nameServers := [] } : Adapter).isUpdated then
        (some .set, some .net, device.name)
      else (device.command, none, device.name) := by
  obtain ⟨d', hfate, hr⟩ := bind_eq_ok.1 h
  cases hr
  obtain ⟨hdevice, hadapter⟩ := device_settleImageFate hfate
  obtain ⟨hcommand, hkind, hname, hsettings⟩ := device_settleDisk d'.record
  -- All that the selection depends on is as it was before the first two steps.
  dsimp only
  rw [← hdevice, ← hadapter, ← hcommand, ← hkind, ← hname, ← hsettings]
  show ((settleAdapter { d' with record := settleSize (settleDisk d'.record) }).device.command,
    (settleAdapter { d' with record := settleSize (settleDisk d'.record) }).device.kind,
    (settleAdapter { d' with record := settleSize (settleDisk d'.record) }).device.name) = _
  generalize settleDisk d'.record = r
  cases hkind : r.device.kind with
  | some kind =>
    have hsize : settleSize r = r := by simp [settleSize, hkind]
    rw [hsize, settleAdapter_of_kind hkind]
    rfl
  | none =>
    cases hsized : r.device.settings.has .size with
    | true =>
      have hsize : settleSize r = { r with device := { r.device with
          name := some "hdd0", kind := some .hdd, command := some .set } } := by
        simp [settleSize, hkind, hsized]
      rw [hsize, settleAdapter_of_kind rfl]
      rfl
    | false =>
      have hsize : settleSize r = r := by simp [settleSize, hsized]
      rw [hsize, settleAdapter_of_kind_eq_none hkind]
      rfl

end Draft

theorem selection_of_resolveImage {host : Host} {r r' : Record}
    (h : r.resolveImage host = .ok r') :
    (r'.device.command, r'.device.kind, r'.device.name) =
      (r.device.command, r.device.kind, r.device.name) := by
  rcases Record.resolveImage_cases h with rfl | ⟨full, rfl⟩ <;> rfl

theorem device_of_resolveLocation {host : Host} {r r' : Record}
    (h : r.resolveLocation host = .ok r') : r'.device = r.device := by
  rcases Record.resolveLocation_cases h with rfl | ⟨full, rfl⟩ <;> rfl

/-- A record that is made consistent keeps its selection. -/
theorem selection_of_consistent {host : Host} {r r' : Record} (h : r.consistent host = .ok r') :
    (r'.device.command, r'.device.kind, r'.device.name) =
      (r.device.command, r.device.kind, r.device.name) := by
  simp only [Record.consistent, bind_eq_ok] at h
  obtain ⟨-, -, r₁, h₁, r₂, h₂, -, -, h⟩ := h
  cases h
  rw [selection_of_resolveImage h₂, device_of_resolveLocation h₁]

namespace Draft

/-- An option changes an adapter if the part that it enters something in does. -/
theorem exists_filled_iff {os : List (Occurrence OptionId)} {host : Host} {s s' : Stage}
    (h : takeAll host s os = some s')
    (hempty : ∀ p : Part, p.changesAdapter = true → p.isFilled (view s p) = false) :
    (∃ p : Part, p.changesAdapter = true ∧ p.isFilled (view s' p) = true) ↔
      ∃ o ∈ os, o.id.changesAdapter = true := by
  constructor
  · rintro ⟨p, hchange, hp⟩
    obtain ⟨o, ho, hpart⟩ := (isFilled_of_empty h (hempty p hchange)).1 hp
    exact ⟨o, ho, changesAdapter_iff.2 ⟨p, hpart, hchange⟩⟩
  · rintro ⟨o, ho, hchange⟩
    obtain ⟨p, hpart, hp⟩ := changesAdapter_iff.1 hchange
    exact ⟨p, hp, (isFilled_of_empty h (hempty p hp)).2 ⟨o, ho, hpart⟩⟩

theorem ifName_enterSelection {c : Part.selection.Content} (hc : c.2.1 = none → c.2.2.2 = none)
    (x : Selector × String) :
    (enterSelection c x).2.1 = none → (enterSelection c x).2.2.2 = none := by
  obtain ⟨k, value⟩ := x
  intro hkind
  obtain ⟨hk, hkind⟩ := Option.or_eq_none_iff.1 hkind
  refine Option.or_eq_none_iff.2 ⟨?_, hc hkind⟩
  cases k <;> first | rfl | cases hk

/-- A selector that gives the name of an interface says that the device is an adapter. -/
theorem ifName_foldl_enterSelection {c : Part.selection.Content}
    (hc : c.2.1 = none → c.2.2.2 = none) (xs : List (Selector × String)) :
    (xs.foldl enterSelection c).2.1 = none → (xs.foldl enterSelection c).2.2.2 = none := by
  induction xs generalizing c with
  | nil => exact hc
  | cons x xs ih => exact ih (ifName_enterSelection hc x)

section Line

variable {host : Host} {target : Option String} {q : Preferences} {os : List (Occurrence OptionId)}
  {s' : Stage}
  (h : takeAll host (⟨{ Record.ofAction .set with target := target }, ∅, []⟩, q) os = some s')
include h

/-- A line has a size if an option gives one. -/
theorem has_size_of_takeAll :
    s'.1.record.device.settings.has .size = os.any (·.id == .device .size) := by
  have hfilled : s'.1.record.device.settings.has .size = true ↔
      ∃ o ∈ os, part? o.id = some (.device .size) :=
    isFilled_of_empty (p := .device .size) h rfl
  rw [Bool.eq_iff_iff, hfilled]
  simp [part?_eq_device]

/-- A line without a class changes an adapter if an option does.  A selector that tells the class
may itself change the adapter, by its interface. -/
theorem isUpdated_of_takeAll (hkind : s'.1.record.device.kind = none) :
    ({ s'.1.adapter with searchDomains := [], nameServers := [] } : Adapter).isUpdated =
      os.any (·.id.changesAdapter) := by
  obtain ⟨hview, -⟩ := view_takeAll_selection h
  change (_, _, _, _) = List.foldl enterSelection (none, none, none, none) _ at hview
  have hifName := ifName_foldl_enterSelection (c := (none, none, none, none)) (fun _ => rfl)
    (os.filterMap (·.toMatch.selection?))
  rw [← hview] at hifName
  rw [Bool.eq_iff_iff, isUpdated_iff (hifName hkind), List.any_eq_true]
  refine exists_filled_iff h fun p hchange => ?_
  cases p <;> first | rfl | cases hchange

end Line

/-- **What becomes of the device.**  It is the selected one unless its class is not known.  Then a
size is for the first disk, and else a change of an adapter for an adapter. -/
theorem device_of_line {host : Host} {target : Option String} {q q' : Preferences}
    {os : List (Occurrence OptionId)} {r : Record}
    (h : (takeAll host (⟨{ Record.ofAction .set with target := target }, ∅, []⟩, q) os).bind
      (conclude host) = some (r, q')) :
    (r.device.command, r.device.kind, r.device.name) =
      let (command, kind, name, _) :=
        (os.filterMap (·.toMatch.selection?)).foldl enterSelection (none, none, none, none)
      if kind.isSome then (command, kind, name)
      else if os.any (·.id == .device .size) then (some .set, some .hdd, some "hdd0")
      else if os.any (·.id.changesAdapter) then (some .set, some .net, name)
      else (command, none, name) := by
  obtain ⟨s', htake, hconclude⟩ := Option.bind_eq_some_iff.1 h
  obtain ⟨r₀, hfinish, hconsistent⟩ := exists_of_conclude hconclude
  obtain ⟨hview, -⟩ := view_takeAll_selection htake
  change (_, _, _, _) = List.foldl enterSelection (none, none, none, none) _ at hview
  rw [← hview, selection_of_consistent hconsistent, selection_of_finish hfinish]
  dsimp only
  rw [has_size_of_takeAll htake]
  cases hkind : s'.1.record.device.kind with
  | some kind => rfl
  | none => rw [isUpdated_of_takeAll htake hkind]

/-- **What becomes of a selection.**  The device is that of the selector unless its class is not
known.  Then a size is for the first disk, and else a change of an adapter for the named device. -/
theorem selection_of_line {host : Host} {target : Option String} {q q' : Preferences}
    {os : List (Occurrence OptionId)} {r : Record} {k : Selector} {value : String}
    (h : (takeAll host (⟨{ Record.ofAction .set with target := target }, ∅, []⟩, q) os).bind
      (conclude host) = some (r, q'))
    (hone : os.filterMap (·.toMatch.selection?) = [(k, value)]) :
    (r.device.command, r.device.name) =
      if k.fixesKind then (some k.command, k.deviceName? value)
      else if os.any (·.id == .device .size) then (some .set, some "hdd0")
      else if os.any (·.id.changesAdapter) then (some .set, k.deviceName? value)
      else (some k.command, k.deviceName? value) := by
  obtain ⟨s', htake, -⟩ := Option.bind_eq_some_iff.1 h
  obtain ⟨-, hkinds⟩ := view_takeAll_selection htake
  have hfixes : (k.kind? value).isSome = k.fixesKind := by
    rw [hone] at hkinds
    exact hkinds (k, value) (List.mem_singleton_self _)
  have hdevice := device_of_line h
  rw [hone] at hdevice
  simp only [List.foldl_cons, List.foldl_nil, enterSelection, Option.or_none, hfixes] at hdevice
  refine (congrArg (fun d : _ × _ × _ => (d.1, d.2.2)) hdevice).trans ?_
  split_ifs <;> rfl

end Draft

/-! ## Accepted lines -/

theorem Reading.exists_of_outcome_bind {α β : Type} {x : Reading α} {f : α → Reading β}
    {host : Host} {e : Effects} {b : β × Preferences} (h : (x >>= f).outcome host e = some b) :
    ∃ a e', x.outcome host e = some (a, e'.preferences) ∧ (f a).outcome host e' = some b := by
  unfold outcome at h ⊢
  rw [after_bind] at h
  generalize x.after host e = out at h ⊢
  obtain ⟨u | a, e'⟩ := out
  · cases h
  · exact ⟨a, e', rfl, h⟩

theorem Reading.outcome_of_after {α : Type} {x : Reading α} {host : Host} {e : Effects} {a : α}
    (h : (x.after host e).1 = .ok a) :
    x.outcome host e = some (a, (x.after host e).2.preferences) := by
  unfold outcome
  generalize x.after host e = out at h ⊢
  obtain ⟨result, e'⟩ := out
  cases h
  rfl

theorem Reading.outcome_of_perform {α : Type} {x : Reading α} {host : Host} {p : Preferences}
    {a : α} (h : (x.perform host p).1 = .ok a) :
    x.outcome host (.start p) = some (a, (x.perform host p).2.preferences) :=
  outcome_of_after h

namespace Draft

variable {host : Host} {s s' : Stage}

/-- What no option says stays as it is. -/
theorem unsaid_of_take {m : Match OptionId} (h : take host s m = some s') :
    unsaid s'.1.record = unsaid s.1.record := by
  by_cases hp : part? m.id = some .rest
  · simp only [take, eq_onlineClone_of_part? hp, conflict?, applyPure] at h
    cases h
    rfl
  · exact view_take_of_ne h hp

theorem action_of_take {m : Match OptionId} (h : take host s m = some s') :
    s'.1.record.action = s.1.record.action :=
  action_of_unsaid (unsaid_of_take h)

/-- A line that changes a guest is turned down if an argument is no option. -/
theorem exists_options_of_steps {d : Draft} {events : List (Event OptionId)} {e : Effects}
    (haction : d.record.action = .set) (h : (grammar.steps d events).outcome host e = some s') :
    ∃ ms : List (Match OptionId), events = ms.map .option := by
  induction events generalizing d e with
  | nil => exact ⟨[], rfl⟩
  | cons event events ih =>
    unfold Grammar.steps at ih h
    rw [List.foldlM_cons] at h
    obtain ⟨d', e', hstep, hrest⟩ := Reading.exists_of_outcome_bind h
    cases event with
    | unknown index token =>
      simp only [Grammar.step, grammar, takeArgument, haction] at hstep
      cases hstep
    | option m =>
      rw [outcome_step] at hstep
      obtain ⟨ms, rfl⟩ := ih ((action_of_take hstep).trans haction) hrest
      exact ⟨m :: ms, rfl⟩

theorem exists_options_of_read {d : Draft} {stream : Stream OptionId} {e : Effects}
    (haction : d.record.action = .set) (h : (grammar.read d stream).outcome host e = some s') :
    ∃ ms : List (Match OptionId), stream = ⟨ms.map .option, none⟩ := by
  obtain ⟨d', e', hsteps, hmissing⟩ := Reading.exists_of_outcome_bind h
  obtain ⟨ms, hms⟩ := exists_options_of_steps haction hsteps
  obtain ⟨events, missing⟩ := stream
  cases missing with
  | some missing => cases hmissing
  | none =>
    obtain rfl : events = ms.map .option := hms
    exact ⟨ms, rfl⟩

end Draft

/-- An accepted line that changes a guest consists of options. -/
theorem says_of_readGuestLine {table : CommandTable} {offset : Nat} {args : List String}
    {host : Host} {e : Effects} {b : Record × Preferences}
    (h : (readGuestLine .set table offset args).outcome host e = some b) :
    (table.read args (offset + 1)).Says
      ((table.read args (offset + 1)).options.map Match.occurrence) := by
  unfold readGuestLine at h
  obtain ⟨d, e', hread, -⟩ := Reading.exists_of_outcome_bind h
  obtain ⟨ms, hms⟩ := Draft.exists_options_of_read rfl hread
  rw [hms]
  exact ⟨ms, rfl, by simp [Stream.options, List.filterMap_map]⟩

/-- What options select does not depend on where they stand. -/
theorem filterMap_selection?_occurrence (ms : List (Match OptionId)) :
    (ms.map Match.occurrence).filterMap (·.toMatch.selection?) =
      ms.filterMap Match.selection? := by
  rw [List.filterMap_map]
  refine List.filterMap_congr fun m _ => ?_
  show m.id.selector?.map (·, m.occurrence.toMatch.text) = _
  rw [m.toMatch_occurrence_text]
  rfl

namespace Program

theorem set_line_of_accepted {args : List String} {host : Host} {p : Preferences} {r : Record}
    (hset : args[1]? = some "set") (h : ((Program.guests.read args).perform host p).1 = .ok r) :
    Program.guests.read args = readGuestLine .set CommandTable.set 2 args ∧
      Program.guests.options args = (CommandTable.set.read args 3).options := by
  have hhelp : Program.guests.help? args = none := by
    cases hhelp : Program.guests.help? args with
    | none => rfl
    | some help =>
      unfold read at h
      rw [hhelp] at h
      cases h
  have hcommand : Program.guests.command args = .ok (.line .guest .set CommandTable.set 2) := by
    rcases args with _ | ⟨name, _ | ⟨verb, _ | ⟨target, rest⟩⟩⟩
    · cases hset
    · cases hset
    · unfold read at h
      rw [hhelp] at h
      obtain rfl : verb = "set" := Option.some.inj hset
      cases h
    · obtain rfl : verb = "set" := Option.some.inj hset
      rfl
  constructor
  · unfold read
    rw [hhelp, hcommand]
    rfl
  · unfold options command?
    rw [hhelp, hcommand]
    rfl

/-- The options of a line that changes a guest are those of its stream, and it is read from there. -/
theorem set_line_of_stream {args : List String} {stream : Stream OptionId}
    (hcommand : Program.guests.command? args = some (.line .guest .set CommandTable.set 2))
    (hstream : CommandTable.set.read args 3 = stream) :
    Program.guests.options args = stream.options ∧
      Program.guests.read args = (do
        let d ← Draft.grammar.read ⟨{ Record.ofAction .set with target := args[2]? }, ∅, []⟩ stream
        let r ← Reading.ofExcept d.finish
        r.settle) := by
  subst hstream
  refine ⟨?_, read_of_command? hcommand⟩
  rw [options, hcommand]
  rfl

/-- **What an accepted line that changes a guest comes to is told by its options.** -/
theorem exists_takeAll_of_accepted {args : List String} {host : Host} {p : Preferences} {r : Record}
    (hset : args[1]? = some "set") (h : ((Program.guests.read args).perform host p).1 = .ok r) :
    ∃ q, (Draft.takeAll host (⟨{ Record.ofAction .set with target := args[2]? }, ∅, []⟩, p)
      ((Program.guests.options args).map Match.occurrence)).bind (Draft.conclude host) =
        some (r, q) := by
  obtain ⟨hread, hoptions⟩ := set_line_of_accepted hset h
  rw [hread] at h
  have houtcome := Reading.outcome_of_perform h
  rw [outcome_set_line (says_of_readGuestLine houtcome), ← hoptions] at houtcome
  exact ⟨_, houtcome⟩

/-- An accepted line that changes a guest comes to the device that its one selector leaves. -/
theorem selection_of_accepted {args : List String} {host : Host} {p : Preferences} {r : Record}
    {s : Selector} {value : String} (hset : args[1]? = some "set")
    (h : ((Program.guests.read args).perform host p).1 = .ok r)
    (hone : (Program.guests.options args).filterMap Match.selection? = [(s, value)]) :
    (r.device.command, r.device.name) =
      if s.fixesKind then (some s.command, s.deviceName? value)
      else if (Program.guests.options args).any (·.id == .device .size) then
        (some .set, some "hdd0")
      else if (Program.guests.options args).any (·.id.changesAdapter) then
        (some .set, s.deviceName? value)
      else (some s.command, s.deviceName? value) := by
  obtain ⟨q, htake⟩ := exists_takeAll_of_accepted hset h
  rw [← filterMap_selection?_occurrence] at hone
  have hselection := Draft.selection_of_line htake hone
  rwa [List.any_map, List.any_map] at hselection

/-- **Which selections are still there at the end of the line.**  Let an accepted line that changes
a guest have one selector.  The device is still the selected one exactly if the selector says of
which class it is, or the line has neither a size nor a change of an adapter.  Otherwise a device is
changed: the first disk if the line has a size, and else the named one. -/
theorem selection_stands_iff {args : List String} {host : Host} {p : Preferences} {r : Record}
    {s : Selector} {value : String} (hset : args[1]? = some "set")
    (h : ((Program.guests.read args).perform host p).1 = .ok r)
    (hone : (Program.guests.options args).filterMap Match.selection? = [(s, value)]) :
    let sized := (Program.guests.options args).any (·.id == .device .size)
    let adapted := (Program.guests.options args).any (·.id.changesAdapter)
    (r.device.command = some s.command ∧ r.device.name = s.deviceName? value ↔
      s.fixesKind = true ∨ (sized = false ∧ adapted = false)) ∧
    (s.fixesKind = false → (sized || adapted) = true → r.device.command = some .set ∧
      r.device.name = if sized then some "hdd0" else s.deviceName? value) := by
  have hselection := selection_of_accepted hset h hone
  intro sized adapted
  change _ = if s.fixesKind then _ else if sized then _ else if adapted then _ else _ at hselection
  clear_value sized adapted
  cases hfixes : s.fixesKind with
  | true =>
    rw [hfixes] at hselection
    obtain ⟨hcommand, hname⟩ := Prod.mk.inj hselection
    simp [hcommand, hname]
  | false =>
    rw [hfixes] at hselection
    -- what makes way is told from the selection by its command
    have hne := Selector.command_ne_set hfixes
    cases sized with
    | true =>
      obtain ⟨hcommand, hname⟩ := Prod.mk.inj hselection
      simp [hcommand, hname, hne.symm]
    | false =>
      cases adapted with
      | true =>
        obtain ⟨hcommand, hname⟩ := Prod.mk.inj hselection
        simp [hcommand, hname, hne.symm]
      | false =>
        obtain ⟨hcommand, hname⟩ := Prod.mk.inj hselection
        simp [hcommand, hname]

end Program

/-- The line `prlctl set vm1 --device-del venet0` removes the adapter that every container has. -/
theorem named_device_is_removed : ∃ r,
    ((Program.guests.read ["prlctl", "set", "vm1", "--device-del", "venet0"]).perform
      ⟨fun _ => .error "", fun _ => .error ""⟩ .initial).1 = .ok r ∧
    r.device.command = some .delete ∧ r.device.name = some "net4294967295" := by
  have hstream : CommandTable.set.read ["prlctl", "set", "vm1", "--device-del", "venet0"] 3 =
      ⟨[.option ⟨.selector .delete, "--device-del", some ⟨"venet0", ⟨4, 0, 6⟩⟩⟩], none⟩ :=
    Table.read_eq_of_streamWithin (n := 2) (by rfl)
  obtain ⟨hoptions, hread⟩ := Program.set_line_of_stream (by rfl) hstream
  have haccepted : ∃ r, ((Program.guests.read
      ["prlctl", "set", "vm1", "--device-del", "venet0"]).perform
      ⟨fun _ => .error "", fun _ => .error ""⟩ .initial).1 = .ok r := by
    rw [hread]
    exact ⟨_, rfl⟩
  have hone : (Program.guests.options
      ["prlctl", "set", "vm1", "--device-del", "venet0"]).filterMap Match.selection? =
      [(.delete, "venet0")] := by
    rw [hoptions]
    rfl
  obtain ⟨r, hr⟩ := haccepted
  refine ⟨r, hr, (Program.selection_stands_iff rfl hr hone).1.2 ?_⟩
  rw [hoptions]
  decide

/-- The line `prlctl set vm1 --device-del hdd1 --size 10G` does not remove the device that it names,
but changes the size of the first disk. -/
theorem named_device_makes_way : ∃ r,
    ((Program.guests.read
      ["prlctl", "set", "vm1", "--device-del", "hdd1", "--size", "10G"]).perform
      ⟨fun _ => .error "", fun _ => .error ""⟩ .initial).1 = .ok r ∧
    (Program.guests.options
      ["prlctl", "set", "vm1", "--device-del", "hdd1", "--size", "10G"]).filterMap
      Match.selection? = [(.delete, "hdd1")] ∧
    r.device.command = some .set ∧ r.device.name = some "hdd0" := by
  have hstream : CommandTable.set.read
      ["prlctl", "set", "vm1", "--device-del", "hdd1", "--size", "10G"] 3 =
      ⟨[.option ⟨.selector .delete, "--device-del", some ⟨"hdd1", ⟨4, 0, 4⟩⟩⟩,
        .option ⟨.device .size, "--size", some ⟨"10G", ⟨6, 0, 3⟩⟩⟩], none⟩ :=
    Table.read_eq_of_streamWithin (n := 3) (by rfl)
  obtain ⟨hoptions, hread⟩ := Program.set_line_of_stream (by rfl) hstream
  have haccepted : ∃ r, ((Program.guests.read
      ["prlctl", "set", "vm1", "--device-del", "hdd1", "--size", "10G"]).perform
      ⟨fun _ => .error "", fun _ => .error ""⟩ .initial).1 = .ok r ∧
      r.device.command = some .set ∧ r.device.name = some "hdd0" := by
    rw [hread]
    exact ⟨_, rfl, rfl, rfl⟩
  obtain ⟨r, hr, hdevice⟩ := haccepted
  refine ⟨r, hr, ?_, hdevice⟩
  rw [hoptions]
  rfl

end VmControl
