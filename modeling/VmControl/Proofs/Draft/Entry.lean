import VmControl.Proofs.Dispatch
import VmControl.Proofs.Draft.Selection

/-!
# What options leave behind

An option of a line that changes a guest leaves something in the part of the draft that it is for: a
value where there was none, or one more item of a list.  A few say the same as nothing, such as a
list without items, and images of removed disks that are kept.

## Main definitions

* `Options.Match.tells`: whether an option tells anything.
* `Draft.Part.blank`: what a part holds before the first option.

## Main statements

* `Draft.view_take_ne_blank`: an option that tells something leaves something in its part.
-/

namespace VmControl

open Numeral Options Text

/-! ## Values that are not blank -/

namespace CapabilityMask

theorem ne_empty_of_applyItem {whole : String} {m m' : CapabilityMask} {item : List Char}
    (h : m.applyItem whole item = .ok m') : m' ≠ .empty := by
  unfold applyItem at h
  split at h
  · cases h
  · split at h
    · cases h
    · split at h <;> cases h <;> simp [empty]

/-- Items that are taken leave something in the mask. -/
theorem ne_empty_of_applyItems {whole : String} {m m' : CapabilityMask} {items : List (List Char)}
    (h : applyItems whole items m = (.ok (), m')) (hm : items ≠ [] ∨ m ≠ .empty) :
    m' ≠ .empty := by
  induction items generalizing m with
  | nil =>
    cases h
    simpa using hm
  | cons item items ih =>
    unfold applyItems at h
    split at h
    · next m₁ hitem => exact ih h (.inr (ne_empty_of_applyItem hitem))
    · cases h

end CapabilityMask

namespace Features

theorem isSet_setMode {fs fs' : Features} {f : Feature} {mode : String}
    (h : fs.setMode f mode = (.ok (), fs')) : fs'.isSet = true := by
  unfold setMode at h
  dsimp only at h
  split at h <;> split at h <;> cases h <;> simp [isSet, Feature.bit]

theorem isSet_applyItem {fs fs' : Features} {item : List Char}
    (h : fs.applyItem item = (.ok (), fs')) : fs'.isSet = true := by
  unfold applyItem at h
  split at h
  · cases h
  · dsimp only at h
    split at h
    · cases h
    · split at h
      · cases h
      · exact isSet_setMode h

/-- Items that are taken mention a feature. -/
theorem isSet_applyItems {fs fs' : Features} {items : List (List Char)}
    (h : applyItems items fs = (.ok (), fs')) (hm : items ≠ [] ∨ fs.isSet = true) :
    fs'.isSet = true := by
  induction items generalizing fs with
  | nil =>
    cases h
    simpa using hm
  | cons item items ih =>
    unfold applyItems at h
    split at h
    · next fs₁ hitem => exact ih h (.inr (isSet_applyItem hitem))
    · cases h

end Features

theorem Expiration.ne_empty_of_apply {e e' : Expiration} {s : String} (h : e.apply s = .ok e') :
    e' ≠ .empty := by
  have hpart {key value : List Char} (h : e.setPart key value = some e') : e' ≠ .empty := by
    unfold setPart at h
    split at h
    case h_2 | h_3 =>
      obtain ⟨n, -, rfl⟩ := Option.map_eq_some_iff.1 h
      simp [empty]
    case h_6 => cases h
    all_goals
      cases h
      simp [empty]
  unfold apply at h
  split at h
  · cases h
    simp [empty]
  · dsimp only at h
    split at h
    · next hnext =>
      cases h
      split at hnext
      · exact hpart hnext
      · cases hnext
    · cases h

theorem PasswordRules.insert_ne_empty (p : PasswordRules) (name : String) (rule : Bool) :
    p.insert name rule ≠ ∅ := by
  have hlist : insertSorted name rule p.toList ≠ [] := by
    unfold insertSorted
    split
    · simp
    · split_ifs <;> simp
  exact fun h => hlist (congrArg toList h)

/-! ## Options that tell something -/

/-- Whether an option tells anything that the record has room for.  Preferences are no part of it, a
block size may be passed over, images are kept if nothing is told of them, and a list may have no
items. -/
def Options.Match.tells (m : Match OptionId) : Bool :=
  match m.id with
  | .verbose => false
  | .timeout => false
  | .compat => false
  | .blockSize => false
  | .imageFate fate => fate != .detach
  | .searchDomain => !(Draft.splitNames m.text).isEmpty
  | .nameServer => !(Draft.splitNames m.text).isEmpty
  | .capability => !(words (· == ',') m.text.toList).isEmpty
  | .features => !(words (fun c => c == ',' || c == ' ') m.text.toList).isEmpty
  | _ => true

theorem set_ne_guestKind {id : OptionId} (h : CommandTable.set.Has id) : id ≠ .guestKind := by
  obtain ⟨e, he, rfl⟩ := h
  revert e
  decide +kernel

theorem set_ne_location {id : OptionId} (h : CommandTable.set.Has id) :
    id ≠ .setting (.text .location) := by
  obtain ⟨e, he, rfl⟩ := h
  revert e
  decide +kernel

namespace Draft

variable {host : Host} {s s' : Stage} {m : Match OptionId}

/-! ## The login -/

theorem server_ne_empty_of_take (h : take host s m = some s') (hid : m.id = .login) :
    s'.1.record.login.server ≠ "" := by
  simp only [take, hid] at h
  obtain ⟨t, ht, rfl⟩ := Option.map_eq_some_iff.1 h
  have hserver : (s.1.record.login.assign t).server = t.server := by
    unfold Login.assign
    dsimp only
    split <;> rfl
  exact fun heq => LoginText.server_ne_empty ht (hserver.symm.trans heq)

/-- A password that is read from a file is for the host that was named before. -/
theorem server_of_take (h : take host s m = some s') (hid : m.id ≠ .login) :
    s'.1.record.login.server = s.1.record.login.server := by
  by_cases hpart : part? m.id = some .login
  · have hread : m.id = .readPassword := by simpa [Part.writers, hid] using mem_writers hpart
    simp only [take, hread] at h
    obtain ⟨text, -, rfl⟩ := Option.map_eq_some_iff.1 h
    rfl
  · exact congrArg Login.server (view_take_of_ne (p := .login) h hpart)

/-- An option adds the password that it brings. -/
theorem size_pending_of_take (h : take host s m = some s') :
    s'.1.record.login.pending.size =
      s.1.record.login.pending.size + m.bringsPassword.toNat := by
  have hstep : (grammar.step s.1 (.option m)).outcome host (.start s.2) = some s' :=
    (outcome_step s.1 m host (.start s.2)).trans h
  have hyields := continues_grammar.size_pending_step m s.1 host (.start s.2) s'.1
  unfold Reading.outcome at hstep
  split at hstep
  · next a e hafter =>
    cases hstep
    exact hyields (by rw [hafter])
  · cases hstep

/-! ## Taking an option -/

/-- A line that changes a guest, before its first option. -/
abbrev fresh (target : Option String) (q : Preferences) : Stage :=
  (⟨{ Record.ofAction .set with target := target }, ∅, []⟩, q)

/-- What a part holds before the first option. -/
def Part.blank (p : Part) : p.Content := view (fresh none .initial) p

/-- An option that is taken like most others leaves something in its part. -/
theorem view_applyPure_ne_blank {d d' : Draft} (h : d.applyPure m = .ok d') (q : Preferences)
    (hset : CommandTable.set.Has m.id) (htells : m.tells = true) {p : Part}
    (hp : part? m.id = some p) : view (d', q) p ≠ p.blank := by
  have hfilled (hblank : p.isFilled p.blank = false) : view (d', q) p ≠ p.blank := fun heq => by
    rw [← heq, isFilled_applyPure h q hp] at hblank
    cases hblank
  cases hid : m.id <;> rw [hid] at hp <;> cases hp <;>
    simp only [applyPure, hid, bind_eq_ok, map_eq_ok, pure, Except.pure, Except.ok.injEq,
      reduceCtorEq] at h
  case guestKind => exact absurd hid (set_ne_guestKind hset)
  case onlineClone => exact absurd hid (set_ne_onlineClone hset)
  case device k | adapter k | ipSet | ipAdd | ipDelete => exact hfilled rfl
  case setting k =>
    obtain ⟨v, -, rfl⟩ := h
    simp [view, Part.blank, mapRecord, Record.set, Record.ofAction]
  case selector k =>
    have hcommand := congrArg Prod.fst (select_eq_ok h q).2
    exact fun heq => Option.some_ne_none _ (hcommand.symm.trans (congrArg Prod.fst heq))
  case imageFate fate =>
    subst h
    exact fun heq => List.append_ne_nil_of_right_ne_nil d.imageFates (List.cons_ne_nil fate [])
      (Multiset.coe_eq_zero _ |>.1 heq)
  case backupAdd | backupDelete =>
    subst h
    exact fun heq => Option.some_ne_none _ (congrArg Prod.fst heq)
  case swapPages | swap | quotaUgidLimit | rate | firewallRule =>
    obtain ⟨v, -, rfl⟩ := h
    exact List.append_ne_nil_of_right_ne_nil _ (List.cons_ne_nil _ _)
  case appTemplate | offlineService =>
    subst h
    exact List.append_ne_nil_of_right_ne_nil _ (List.cons_ne_nil _ _)
  case capability =>
    obtain ⟨⟨⟩, happly, rfl⟩ := h
    have hitems : words (· == ',') m.text.toList ≠ [] := by simpa [Match.tells, hid] using htells
    exact CapabilityMask.ne_empty_of_applyItems (Prod.ext happly rfl) (.inl hitems)
  case features =>
    obtain ⟨⟨⟩, happly, rfl⟩ := h
    have hitems : words (fun c => c == ',' || c == ' ') m.text.toList ≠ [] := by
      simpa [Match.tells, hid] using htells
    have hmentioned := Features.isSet_applyItems (Prod.ext happly rfl) (.inl hitems)
    exact fun heq => absurd ((congrArg Features.isSet heq).symm.trans hmentioned) (by decide)
  case expiration =>
    obtain ⟨e, he, rfl⟩ := h
    exact Expiration.ne_empty_of_apply he
  case requirePassword =>
    obtain ⟨⟨name, rule⟩, -, rfl⟩ := h
    exact PasswordRules.insert_ne_empty _ _ _
  case searchDomain | nameServer =>
    subst h
    have hnames : splitNames m.text ≠ [] := by simpa [Match.tells, hid] using htells
    exact hnames

/-- **An option that tells something leaves something in its part.** -/
theorem view_take_ne_blank (h : take host s m = some s') (hset : CommandTable.set.Has m.id)
    (htells : m.tells = true) {p : Part} (hp : part? m.id = some p) : view s' p ≠ p.blank := by
  have hserver := server_ne_empty_of_take h
  have hsize := size_pending_of_take h
  obtain ⟨d, q⟩ := s
  unfold take at h
  dsimp only at h
  split at h
  case h_1 hid | h_2 hid | h_3 hid | h_9 hid => simp [Match.tells, hid] at htells
  case h_4 hid =>
    rw [hid] at hp
    cases hp
    exact fun heq => hserver hid (congrArg Login.server heq)
  case h_5 hid =>
    rw [hid] at hp
    cases hp
    have hone : s'.1.record.login.pending.size = d.record.login.pending.size + 1 := by
      rw [hsize, Match.bringsPassword, hid]
      rfl
    intro heq
    have hnone : s'.1.record.login.pending.size = 0 :=
      congrArg (fun l : Login => l.pending.size) heq
    omega
  case h_6 => cases h
  case h_7 hid | h_8 hid =>
    rw [hid] at hp
    cases hp
    obtain ⟨g, -, rfl⟩ := Option.map_eq_some_iff.1 h
    exact Option.some_ne_none g
  case h_10 =>
    split at h
    · cases h
    · obtain ⟨d', hd, rfl⟩ := Option.map_eq_some_iff.1 h
      exact view_applyPure_ne_blank (toOption_eq_some.1 hd) q hset htells hp

end Draft

end VmControl
