import VmControl.Proofs.Draft.Outline

/-!
# Options that trade places

Options that exclude each other are mostly checked the same way round: whichever comes second is
turned down.  Selectors are not.  Most of them take the place of the one before, but one for a new
device, or for a device to be changed, is turned down after any other.  And the last selector
decides whether the device is new, which a rule asks at the end of the line.

## Main definitions

* `Related`: whether two options are checked against each other.
* `IsBarred`: whether a selector is turned down if it comes second.

## Main statements

* `set_line_mirror`: which neighbours on a line that changes a guest can trade places.
-/

namespace VmControl

open Options

/-- Whether two options are checked against each other.  A host device and an image are if neither
is empty. -/
inductive Related (o o' : Occurrence OptionId) : Prop where
  /-- Both select the device. -/
  | selectors {k k' : Selector} (h : o.id = .selector k) (h' : o'.id = .selector k')
  /-- Both attach or detach a backup. -/
  | backups (h : o.id.isBackup = true) (h' : o'.id.isBackup = true)
  /-- They are one mark of the device, or a mark and its opposite. -/
  | marks {k k' : DeviceMark} (h : o.id = .device (.mark k)) (h' : o'.id = .device (.mark k'))
    (hkk' : k = k' ∨ Draft.opposite? k = some k')
  /-- One is what the device is connected to on the host, the other one an image. -/
  | media {k k' : DeviceText} (h : o.id = .device (.text k)) (h' : o'.id = .device (.text k'))
    (hkk' : Draft.rival? k = some k') (hne : o.toMatch.text ≠ "") (hne' : o'.toMatch.text ≠ "")

/-- Whether a line gives a position, but no interface. -/
def GivesPositionOnly (os : List (Occurrence OptionId)) : Prop :=
  (∃ o ∈ os, o.id = .device .position) ∧
    ∀ m, Preferences.last? (os.map Occurrence.toMatch) (.device (.text .interface)) = some m →
      m.text = ""

/-- Whether a selector is turned down if it comes second: it is for a new device or one to be
changed, or it adds an adapter, no selector follows, and the line gives a position but no interface.
-/
def IsBarred (before after : List (Occurrence OptionId)) (o : Occurrence OptionId) : Prop :=
  o.id.isAddOrSet = true ∨
    (o.id = .selector .addAdapter ∧ (∀ a ∈ after, ∀ k, a.id ≠ .selector k) ∧
      GivesPositionOnly (before ++ after))

theorem Related.symm {o o' : Occurrence OptionId} (h : Related o o') : Related o' o := by
  cases h with
  | selectors h h' => exact .selectors h' h
  | backups h h' => exact .backups h' h
  | marks h h' hkk' => exact .marks h' h (hkk'.imp Eq.symm Draft.opposite?_symm)
  | media h h' hkk' hne hne' => exact .media h' h (Draft.rival?_symm hkk') hne' hne

/-- Selectors are checked against selectors. -/
theorem Related.exists_selector {o o' : Occurrence OptionId} (h : Related o o') {k : Selector}
    (hk : o.id = .selector k) : ∃ k', o'.id = .selector k' := by
  cases h with
  | selectors _ h' => exact ⟨_, h'⟩
  | backups h _ => rw [hk] at h; cases h
  | marks h _ _ => rw [hk] at h; cases h
  | media h _ _ _ _ => rw [hk] at h; cases h

theorem IsBarred.exists_selector {before after : List (Occurrence OptionId)}
    {o : Occurrence OptionId} (h : IsBarred before after o) : ∃ k, o.id = .selector k := by
  rcases h with h | ⟨h, -⟩
  · exact Draft.exists_selector (Draft.part?_of_isAddOrSet h).1
  · exact ⟨_, h⟩

namespace Draft

variable {host : Host} {s s' : Stage}

/-! ## Positions -/

/-- The interface of a device is that of the last option for it. -/
theorem interface_takeAll {ms : List (Match OptionId)}
    (h : takeAll host s (ms.map Match.occurrence) = some s')
    (hs : s.1.record.device.settings = ∅) : s'.1.record.device.text? .interface =
      (Preferences.last? ms (.device (.text .interface))).map Match.text := by
  have hown {m : Match OptionId} {s s' : Stage} (h : take host s m = some s')
      (hid : m.id = .device (.text .interface)) :
      ∃ a, some m.text = some a ∧ s'.1.record.device.text? .interface = some a := by
    obtain ⟨v, hv, hget⟩ := deviceSetting_of_take h hid
    cases hv
    exact ⟨_, rfl, hget⟩
  have hother {m : Match OptionId} {s s' : Stage} (h : take host s m = some s')
      (hid : m.id ≠ .device (.text .interface)) :
      s'.1.record.device.text? .interface = s.1.record.device.text? .interface :=
    view_take_of_ne (p := .device (.text .interface)) h fun hp => hid (part?_eq_device.1 hp)
  have hlast := last_takeAll (f := fun s => s.1.record.device.text? .interface)
    (v := fun m => some m.text) hown hother h
  obtain ⟨hnone, hkept⟩ | ⟨m, text, hm, htext, hentered⟩ := hlast
  · rw [hnone, hkept, Device.text?, hs]
    rfl
  · rw [hm, hentered, ← htext]
    rfl

/-- Whether the device has a position and no interface is told by the line. -/
theorem isPlaced_takeAll {os : List (Occurrence OptionId)} (h : takeAll host s os = some s')
    (hs : s.1.record.device.settings = ∅) :
    s'.1.record.device.isPlaced = true ↔ GivesPositionOnly os := by
  have hos : (os.map Occurrence.toMatch).map Match.occurrence = os := by
    rw [List.map_map]
    refine List.map_id'' (fun o => ?_) os
    obtain ⟨id, name, _ | text⟩ := o <;> rfl
  have hposition : s'.1.record.device.settings.has .position = true ↔
      ∃ o ∈ os, o.id = .device .position := by
    have hfilled : s'.1.record.device.settings.has .position = true ↔
        ∃ o ∈ os, part? o.id = some (.device .position) :=
      isFilled_of_empty (p := .device .position) h (by simp [Part.isFilled, view, hs])
    simpa only [part?_eq_device] using hfilled
  have hinterface : s'.1.record.device.hasText .interface = false ↔
      ∀ m, Preferences.last? (os.map Occurrence.toMatch) (.device (.text .interface)) = some m →
        m.text = "" := by
    rw [← hos] at h
    rw [Device.hasText, interface_takeAll h hs]
    cases Preferences.last? (os.map Occurrence.toMatch) (.device (.text .interface)) <;> simp
  rw [Device.isPlaced, Bool.and_eq_true, Bool.not_eq_true', hposition, hinterface]
  rfl

theorem givesPositionOnly_cons_cons {before after : List (Occurrence OptionId)}
    {o o' : Occurrence OptionId} {k k' : Selector} (h : o.id = .selector k)
    (h' : o'.id = .selector k') :
    GivesPositionOnly (before ++ o :: o' :: after) ↔ GivesPositionOnly (before ++ after) := by
  have hlast :
      Preferences.last? ((before ++ o :: o' :: after).map Occurrence.toMatch)
        (.device (.text .interface)) =
      Preferences.last? ((before ++ after).map Occurrence.toMatch)
        (.device (.text .interface)) := by
    simp [Preferences.last?, Occurrence.toMatch, h, h']
  have hposition : (∃ a ∈ before ++ o :: o' :: after, a.id = .device .position) ↔
      ∃ a ∈ before ++ after, a.id = .device .position := by
    simp [h, h', or_and_right, exists_or]
  unfold GivesPositionOnly
  rw [hlast, hposition]

/-! ## Selectors that are turned down -/

/-- An option that is excluded by the one before comes to nothing. -/
theorem takeAll_eq_none_of_excludes {before after : List (Occurrence OptionId)}
    {o o' : Occurrence OptionId} (h : Excludes o.id o'.id) (s : Stage) :
    takeAll host s (before ++ o :: o' :: after) = none := by
  rw [Option.eq_none_iff_forall_ne_some]
  intro s' htake
  have hpairwise := (List.pairwise_append.1 (pairwise_of_takeAll htake)).2.1
  exact (List.pairwise_cons.1 hpairwise).1 o' (List.mem_cons_self ..) h

/-- A new device with a position has an interface. -/
theorem conclude_eq_none_of_placed (hcommand : s.1.record.device.command = some .add)
    (hkind : s.1.record.device.kind.isSome) (hplaced : s.1.record.device.isPlaced = true) :
    conclude host s = none := by
  rw [Option.eq_none_iff_forall_ne_some]
  rintro ⟨r', q⟩ h
  obtain ⟨r, hfinish, hconsistent⟩ := exists_of_conclude h
  have hadd : r'.device.command = some .add := by
    have hsettled := selection_of_finish hfinish
    rw [← selection_of_consistent hconsistent] at hsettled
    simp only [hkind, if_true] at hsettled
    rw [← hcommand]
    exact congrArg Prod.fst hsettled
  have hplaced' : r'.device.isPlaced = true := by
    rw [Record.isPlaced_of_changesOnly (Record.changesOnly_consistent hconsistent) (by decide)
      (by decide), isPlaced_of_finish hfinish, hplaced]
  have hkept := (Record.rules_of_consistent hconsistent).2
    ⟨.positionWithoutInterface,
      (r'.device.command == some .add || r'.backupCommand == some .add) && r'.device.isPlaced⟩
    (by simp [Record.lateRules, Record.backupRules, Device.isPlaced])
  simp [hadd, hplaced'] at hkept

/-- A barred selector comes to nothing after another one. -/
theorem eq_none_of_isBarred {before after : List (Occurrence OptionId)}
    {o o' : Occurrence OptionId} {k k' : Selector} (h : o.id = .selector k)
    (h' : o'.id = .selector k') (hbarred : IsBarred before after o')
    (hs : s.1.record.device.settings = ∅) :
    (takeAll host s (before ++ o :: o' :: after)).bind (conclude host) = none := by
  rw [Option.eq_none_iff_forall_ne_some]
  intro b hb
  obtain ⟨s', htake, hconclude⟩ := Option.bind_eq_some_iff.1 hb
  rcases hbarred with haddOrSet | ⟨hadd, hlast, hposition⟩
  · have hexcludes : Excludes o.id o'.id :=
      ⟨.selection, (part?_of_isAddOrSet haddOrSet).2, by rw [h]; rfl⟩
    rw [takeAll_eq_none_of_excludes hexcludes] at htake
    cases htake
  · have hselection {o : Occurrence OptionId} {k : Selector} (h : o.id = .selector k) :
        o.toMatch.selection? = some (k, o.toMatch.text) := by
      simp [Match.selection?, show o.toMatch.id = _ from h, OptionId.selector?]
    have hafter : after.filterMap (·.toMatch.selection?) = [] := by
      refine List.filterMap_eq_nil_iff.2 fun a ha => ?_
      have hnone : a.toMatch.id.selector? = none := selector?_eq_none fun hpart =>
        (exists_selector hpart).elim (hlast a ha)
      simp [Match.selection?, hnone]
    have hselected := (view_takeAll_selection htake).1
    simp only [List.filterMap_append, List.filterMap_cons, hselection h, hselection hadd, hafter,
      List.foldl_append] at hselected
    -- so the adapter is what the line comes to
    have hcommand : s'.1.record.device.command = some .add := congrArg Prod.fst hselected
    have hkind : s'.1.record.device.kind = some .net := congrArg (fun c => c.2.1) hselected
    have hplaced := (isPlaced_takeAll htake hs).2
      ((givesPositionOnly_cons_cons h h').2 hposition)
    rw [conclude_eq_none_of_placed hcommand (by simp [hkind]) hplaced] at hconclude
    cases hconclude

/-! ## Selectors that are not -/

/-- Selectors that are not barred come to the same up to their outline. -/
theorem takeAll_swap_selectors {before after : List (Occurrence OptionId)}
    {o o' : Occurrence OptionId} {k k' : Selector} (h : o.id = .selector k)
    (h' : o'.id = .selector k') (hfree : ¬ IsBarred before after o)
    (hfree' : ¬ IsBarred before after o') (s : Stage) :
    ∃ fine, (fine = true ∨ ¬ GivesPositionOnly (before ++ after)) ∧
      Option.Rel (Kindred fine) (takeAll host s (before ++ o :: o' :: after))
        (takeAll host s (before ++ o' :: o :: after)) := by
  have htaken : o.id.isAddOrSet = false := by
    by_contra hadd
    exact hfree (.inl (by simpa using hadd))
  have htaken' : o'.id.isAddOrSet = false := by
    by_contra hadd
    exact hfree' (.inl (by simpa using hadd))
  have swap {first fine : Bool} (hfirst : first = false ∨ (k = .addAdapter ↔ k' = .addAdapter))
      (hfine : fine = first ∨ ∃ a ∈ after, ∃ k, a.id = .selector k) :
      Option.Rel (Kindred fine) (takeAll host s (before ++ o :: o' :: after))
        (takeAll host s (before ++ o' :: o :: after)) := by
    rw [takeAll_append, takeAll_append]
    cases takeAll host s before with
    | none => exact .none
    | some s₁ =>
      simp only [Option.bind_some, takeAll, ← Option.bind_assoc]
      exact rel_option_bind (take_swap_selectors (m := o.toMatch) (n := o'.toMatch) h h' htaken
        htaken' hfirst s₁) fun _ _ hkin => takeAll_kindred hkin after hfine
  by_cases hsame : k = .addAdapter ↔ k' = .addAdapter
  · exact ⟨true, .inl rfl, swap (.inr hsame) (.inl rfl)⟩
  by_cases hlater : ∃ a ∈ after, ∃ k, a.id = .selector k
  · exact ⟨true, .inl rfl, swap (.inl rfl) (.inr hlater)⟩
  -- just one of them adds an adapter, and the last of them decides whether the device is new
  refine ⟨false, .inr fun hposition => ?_, swap (.inl rfl) (.inl rfl)⟩
  have hlast (a : Occurrence OptionId) (ha : a ∈ after) (k : Selector) : a.id ≠ .selector k :=
    fun hid => hlater ⟨a, ha, k, hid⟩
  by_cases hk : k = .addAdapter
  · exact hfree (.inr ⟨hk ▸ h, hlast, hposition⟩)
  · have hk' : k' = .addAdapter := by
      by_contra hk'
      exact hsame ⟨fun h => absurd h hk, fun h => absurd h hk'⟩
    exact hfree' (.inr ⟨hk' ▸ h', hlast, hposition⟩)

/-! ## Other options -/

theorem excludes_of_opposite {j k : DeviceMark} (hjk : opposite? j = some k) :
    Excludes (.device (.mark j)) (.device (.mark k)) :=
  ⟨.device (.mark j), by simp [guard?, opposite?_symm hjk], rfl⟩

/-- A mark is taken alike under each of its names. -/
theorem take_mark_congr {m n : Match OptionId} {k : DeviceMark} (hm : m.id = .device (.mark k))
    (hn : n.id = .device (.mark k)) (s : Stage) : take host s m = take host s n := by
  simp only [take, applyPure, hm, hn]
  rfl

/-- Options that are checked against each other, and are no selectors, come to the same in either
order: to nothing, unless they are one mark. -/
theorem takeAll_mirror {before after : List (Occurrence OptionId)} {o o' : Occurrence OptionId}
    (h : Related o o') (hselector : ∀ k, o.id ≠ .selector k) (s : Stage) :
    takeAll host s (before ++ o :: o' :: after) = takeAll host s (before ++ o' :: o :: after) := by
  cases h with
  | selectors h h' => exact absurd h (hselector _)
  | backups h h' =>
    rw [takeAll_eq_none_of_excludes (excludes_of_isBackup h h'),
      takeAll_eq_none_of_excludes (excludes_of_isBackup h' h)]
  | @marks k k' h h' hkk' =>
    rcases hkk' with rfl | hopposite
    · have hsame (s : Stage) : take host s o.toMatch = take host s o'.toMatch :=
        take_mark_congr h h' s
      simp only [takeAll_append, takeAll, hsame]
    · have hexcludes := excludes_of_opposite hopposite
      have hexcludes' := excludes_of_opposite (opposite?_symm hopposite)
      rw [← h, ← h'] at hexcludes hexcludes'
      rw [takeAll_eq_none_of_excludes hexcludes, takeAll_eq_none_of_excludes hexcludes']
  | media h h' hkk' hne hne' =>
    have hnone : takeAll host s (before ++ o :: ([] ++ o' :: after)) = none :=
      takeAll_eq_none_of_rival hkk' h h' hne (by simp) s
    have hnone' : takeAll host s (before ++ o' :: ([] ++ o :: after)) = none :=
      takeAll_eq_none_of_rival (rival?_symm hkk') h' h hne' (by simp) s
    exact hnone.trans hnone'.symm

/-- Selectors that are not barred come to something in either order, or in none. -/
theorem isSome_mirror {before after : List (Occurrence OptionId)} {o o' : Occurrence OptionId}
    {k k' : Selector} (h : o.id = .selector k) (h' : o'.id = .selector k')
    (hfree : ¬ IsBarred before after o) (hfree' : ¬ IsBarred before after o')
    (hs : s.1.record.device.settings = ∅) :
    ((takeAll host s (before ++ o :: o' :: after)).bind (conclude host)).isSome =
      ((takeAll host s (before ++ o' :: o :: after)).bind (conclude host)).isSome := by
  obtain ⟨fine, hfine, hrel⟩ := @takeAll_swap_selectors host _ _ _ _ _ _ h h' hfree hfree' s
  generalize htake : takeAll host s (before ++ o :: o' :: after) = x at hrel
  generalize takeAll host s (before ++ o' :: o :: after) = y at hrel
  cases hrel with
  | none => rfl
  | some hkin =>
    refine isSome_conclude_of_kindred hkin (hfine.imp_right fun hposition => ?_)
    rw [← Bool.not_eq_true, isPlaced_takeAll htake hs, givesPositionOnly_cons_cons h h']
    exact hposition

end Draft

/-! ## Whole lines -/

theorem Reading.isSome_outcome {α : Type} {x : Reading α} {host : Host} {e : Effects} :
    (x.outcome host e).isSome = true ↔ ∃ a, (x.after host e).1 = .ok a := by
  unfold outcome
  generalize x.after host e = out
  obtain ⟨u | a, e'⟩ := out <;> simp

/-- Whether a line that changes a guest is accepted. -/
def AcceptsChange (host : Host) (e : Effects) (offset : Nat) (args : List String) : Prop :=
  ∃ r, ((readGuestLine .set CommandTable.set offset args).after host e).1 = .ok r

theorem acceptsChange_iff {offset : Nat} {args : List String} {os : List (Occurrence OptionId)}
    (h : (CommandTable.set.read args (offset + 1)).Says os) (host : Host) (e : Effects) :
    AcceptsChange host e offset args ↔
      ((Draft.takeAll host (⟨{ Record.ofAction .set with target := args[offset]? }, ∅, []⟩,
        e.preferences) os).bind (Draft.conclude host)).isSome = true := by
  rw [AcceptsChange, ← Reading.isSome_outcome, outcome_set_line h]

/-- **Which neighbours on a line can trade places.**  Let two options that are checked against each
other follow each other on a line that changes a guest.  If both are barred, or neither is, then the
line is accepted exactly if it is with the two in the other order.  A barred one cannot come second.
-/
theorem set_line_mirror {offset : Nat} {args args' : List String}
    {before after : List (Occurrence OptionId)} {o o' : Occurrence OptionId}
    (htarget : args[offset]? = args'[offset]?)
    (hread : (CommandTable.set.read args (offset + 1)).Says (before ++ o :: o' :: after))
    (hread' : (CommandTable.set.read args' (offset + 1)).Says (before ++ o' :: o :: after))
    (h : Related o o') (host : Host) (e : Effects) :
    ((IsBarred before after o ↔ IsBarred before after o') →
      (AcceptsChange host e offset args ↔ AcceptsChange host e offset args')) ∧
    (IsBarred before after o' → ¬ AcceptsChange host e offset args) := by
  rw [acceptsChange_iff hread, acceptsChange_iff hread', htarget]
  by_cases hselector : ∃ k, o.id = .selector k
  · obtain ⟨k, hk⟩ := hselector
    obtain ⟨k', hk'⟩ : ∃ k', o'.id = .selector k' := h.exists_selector hk
    refine ⟨fun hsame => ?_, fun hbarred => ?_⟩
    · by_cases hbarred : IsBarred before after o
      · rw [Draft.eq_none_of_isBarred hk hk' (hsame.1 hbarred) rfl,
          Draft.eq_none_of_isBarred hk' hk hbarred rfl]
      · rw [Draft.isSome_mirror hk hk' hbarred (mt hsame.2 hbarred) rfl]
    · rw [Draft.eq_none_of_isBarred hk hk' hbarred rfl]
      exact Bool.false_ne_true
  · refine ⟨fun _ => ?_, fun hbarred => ?_⟩
    · rw [Draft.takeAll_mirror h (fun k hk => hselector ⟨k, hk⟩)]
    · obtain ⟨k', hk'⟩ := hbarred.exists_selector
      exact absurd (h.symm.exists_selector hk') hselector

/-- The lines `prlctl set vm1 --device-connect cdrom0 --device-del hdd1` and `prlctl set vm1
--device-del hdd1 --device-connect cdrom0` are both accepted. -/
theorem connect_and_delete_trade_places :
    AcceptsChange ⟨fun _ => .error "", fun _ => .error ""⟩ (.start .initial) 2
      ["prlctl", "set", "vm1", "--device-connect", "cdrom0", "--device-del", "hdd1"] ∧
    AcceptsChange ⟨fun _ => .error "", fun _ => .error ""⟩ (.start .initial) 2
      ["prlctl", "set", "vm1", "--device-del", "hdd1", "--device-connect", "cdrom0"] := by
  have hline : (CommandTable.set.read
      ["prlctl", "set", "vm1", "--device-connect", "cdrom0", "--device-del", "hdd1"] 3).Says
      [⟨.selector .connect, "--device-connect", some "cdrom0"⟩,
        ⟨.selector .delete, "--device-del", some "hdd1"⟩] :=
    ⟨[⟨.selector .connect, "--device-connect", some ⟨"cdrom0", ⟨4, 0, 6⟩⟩⟩,
      ⟨.selector .delete, "--device-del", some ⟨"hdd1", ⟨6, 0, 4⟩⟩⟩],
      Table.read_eq_of_streamWithin (n := 3) (by rfl), rfl⟩
  have hline' : (CommandTable.set.read
      ["prlctl", "set", "vm1", "--device-del", "hdd1", "--device-connect", "cdrom0"] 3).Says
      [⟨.selector .delete, "--device-del", some "hdd1"⟩,
        ⟨.selector .connect, "--device-connect", some "cdrom0"⟩] :=
    ⟨[⟨.selector .delete, "--device-del", some ⟨"hdd1", ⟨4, 0, 4⟩⟩⟩,
      ⟨.selector .connect, "--device-connect", some ⟨"cdrom0", ⟨6, 0, 6⟩⟩⟩],
      Table.read_eq_of_streamWithin (n := 3) (by rfl), rfl⟩
  have hfree {o : Occurrence OptionId} (ho : o.id.isAddOrSet = false)
      (ho' : o.id ≠ .selector .addAdapter) : ¬ IsBarred [] [] o := by
    rintro (hbarred | ⟨hbarred, -⟩)
    · rw [ho] at hbarred
      cases hbarred
    · exact ho' hbarred
  have haccepted := (acceptsChange_iff hline ⟨fun _ => .error "", fun _ => .error ""⟩
    (.start .initial)).2 (by rfl)
  have hmirror := (@set_line_mirror 2 _ _ [] [] _ _ (by rfl) hline hline' (.selectors rfl rfl)
    ⟨fun _ => .error "", fun _ => .error ""⟩ (.start .initial)).1
  exact ⟨haccepted, (hmirror (iff_of_false (hfree (by decide) (by decide))
    (hfree (by decide) (by decide)))).1 haccepted⟩

/-- The line `prlctl set vm1 --device-set hdd0 --device-del hdd1` is accepted, and the line `prlctl
set vm1 --device-del hdd1 --device-set hdd0`, which has its options in the other order, is not. -/
theorem set_and_delete_keep_their_places :
    (CommandTable.set.read
      ["prlctl", "set", "vm1", "--device-set", "hdd0", "--device-del", "hdd1"] 3).Says
      [⟨.selector .set, "--device-set", some "hdd0"⟩,
        ⟨.selector .delete, "--device-del", some "hdd1"⟩] ∧
    (CommandTable.set.read
      ["prlctl", "set", "vm1", "--device-del", "hdd1", "--device-set", "hdd0"] 3).Says
      [⟨.selector .delete, "--device-del", some "hdd1"⟩,
        ⟨.selector .set, "--device-set", some "hdd0"⟩] ∧
    AcceptsChange ⟨fun _ => .error "", fun _ => .error ""⟩ (.start .initial) 2
      ["prlctl", "set", "vm1", "--device-set", "hdd0", "--device-del", "hdd1"] ∧
    ¬ AcceptsChange ⟨fun _ => .error "", fun _ => .error ""⟩ (.start .initial) 2
      ["prlctl", "set", "vm1", "--device-del", "hdd1", "--device-set", "hdd0"] := by
  have hline : (CommandTable.set.read
      ["prlctl", "set", "vm1", "--device-set", "hdd0", "--device-del", "hdd1"] 3).Says
      [⟨.selector .set, "--device-set", some "hdd0"⟩,
        ⟨.selector .delete, "--device-del", some "hdd1"⟩] :=
    ⟨[⟨.selector .set, "--device-set", some ⟨"hdd0", ⟨4, 0, 4⟩⟩⟩,
      ⟨.selector .delete, "--device-del", some ⟨"hdd1", ⟨6, 0, 4⟩⟩⟩],
      Table.read_eq_of_streamWithin (n := 3) (by rfl), rfl⟩
  have hline' : (CommandTable.set.read
      ["prlctl", "set", "vm1", "--device-del", "hdd1", "--device-set", "hdd0"] 3).Says
      [⟨.selector .delete, "--device-del", some "hdd1"⟩,
        ⟨.selector .set, "--device-set", some "hdd0"⟩] :=
    ⟨[⟨.selector .delete, "--device-del", some ⟨"hdd1", ⟨4, 0, 4⟩⟩⟩,
      ⟨.selector .set, "--device-set", some ⟨"hdd0", ⟨6, 0, 4⟩⟩⟩],
      Table.read_eq_of_streamWithin (n := 3) (by rfl), rfl⟩
  refine ⟨hline, hline', (acceptsChange_iff hline _ _).2 (by rfl), fun haccepted => ?_⟩
  cases (acceptsChange_iff hline' _ _).1 haccepted

end VmControl
