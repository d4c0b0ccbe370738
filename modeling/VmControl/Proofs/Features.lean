import VmControl.Feature
import VmControl.Proofs.Text.Cut

/-!
# What lists of features come to

Features are told in lists, one after the other, and what a list says before it is turned down is
kept.  However that ends, the features stay coherent: they are of one class, those that are on or
have a number were mentioned, and every bit stands for a feature of the class.  As long as no list
is turned down, they are what the last mentions say.

Machines and containers share the bits, so a bit stands for a feature only beside its class.

## Main definitions

* `Features.mentions`: the features that a list mentions, with their modes.
* `Features.Takes`: what one item can do.
* `Features.Coherent`: what always holds.
* `Features.Tells`: what holds if every list was taken.

## Main statements

* `Features.takes_applyItem`: an item does one of five things.
* `Features.Coherent.takes`, `Features.Tells.takes`: what an item keeps.
* `Features.lists_add_up`: what any number of lists comes to.
-/

namespace VmControl

open Numeral Text

/-! ## Features and their bits -/

namespace Feature

theorem testBit_bit (f : Feature) (i : Nat) : f.bit.testBit i = decide (f.position = i) := by
  rw [bit, Nat.one_shiftLeft, Nat.testBit_two_pow]

/-- A feature is told by its class and its bit. -/
theorem eq_of_position : ∀ f ∈ all, ∀ g ∈ all, f.owner = g.owner → f.position = g.position →
    f = g := by
  decide

/-- Two features that have a number do not share it. -/
theorem eq_of_kind : ∀ f ∈ all, ∀ g ∈ all, f.kind ≠ .toggle → f.kind = g.kind → f = g := by
  decide

end Feature

namespace Features

variable {fs fs' : Features} {f g : Feature}

/-! ## Mentions -/

/-- A feature with the mode that it is told to have. -/
structure Mention where
  /-- The feature. -/
  feature : Feature
  /-- The mode. -/
  mode : String
  deriving DecidableEq

/-- What an item mentions: it has the form `NAME:MODE`, and there is a feature of that name. -/
def mention? (item : List Char) : Option Mention :=
  (cutFirst ':' item).bind fun (name, mode) =>
    (Feature.find? (String.ofList name)).map fun f => ⟨f, String.ofList mode⟩

/-- The items of a list. -/
def items (s : String) : List (List Char) := words (fun c => c == ',' || c == ' ') s.toList

/-- The features that a list mentions, in order. -/
def mentions (s : String) : List Mention := (items s).filterMap mention?

/-- The mode that the last mention of a feature tells. -/
def lastMode? (ms : List Mention) (f : Feature) : Option String :=
  ((ms.filter (·.feature = f)).getLast?).map (·.mode)

theorem mem_all_of_mention? {item : List Char} {m : Mention} (h : mention? item = some m) :
    m.feature ∈ Feature.all := by
  obtain ⟨cut, -, hfind⟩ := Option.bind_eq_some_iff.1 h
  obtain ⟨f, hf, rfl⟩ := Option.map_eq_some_iff.1 hfind
  exact List.mem_of_find?_eq_some hf

theorem lastMode?_concat (ms : List Mention) (m : Mention) (f : Feature) :
    lastMode? (ms ++ [m]) f = if m.feature = f then some m.mode else lastMode? ms f := by
  unfold lastMode?
  by_cases h : m.feature = f <;> simp [List.filter_append, h]

/-! ## What one item can do -/

/-- Whether a feature was mentioned, as far as class and bits tell. -/
def Knows (fs : Features) (f : Feature) : Prop :=
  fs.owner = some f.owner ∧ fs.known.testBit f.position = true

/-- Whether a feature is on. -/
def IsOn (fs : Features) (f : Feature) : Prop :=
  fs.owner = some f.owner ∧ fs.mask.testBit f.position = true

/-- Whether a feature can be mentioned beside those that were. -/
def Admits (fs : Features) (f : Feature) : Prop := ∀ c, fs.owner = some c → c = f.owner

/-- The features with one more mention, whatever its mode. -/
def note (fs : Features) (f : Feature) : Features :=
  { fs with owner := some f.owner, known := fs.known ||| f.bit }

/-- The features with one of them turned on or off. -/
def switch (fs : Features) (f : Feature) (b : Bool) : Features :=
  { fs with mask := if b then fs.mask ||| f.bit else fs.mask &&& (fs.mask ^^^ f.bit) }

/-- The features with a number. -/
def enter (fs : Features) (n : FeatureNumber) (v : Nat) : Features :=
  { fs with numbers := fs.numbers.insert n v }

/-- What one item can do. -/
inductive Takes (fs : Features) (item : List Char) : Except CommandError Unit → Features → Prop
  /-- An item that mentions no feature is turned down, and changes nothing. -/
  | unread {u} (h : mention? item = none) : Takes fs item (.error u) fs
  /-- So is a feature of the other class. -/
  | mixed {u m} (h : mention? item = some m) (hclass : ¬ fs.Admits m.feature) :
    Takes fs item (.error u) fs
  /-- A mode that the feature does not have is turned down after the mention was noted. -/
  | refused {u m} (h : mention? item = some m) (hclass : fs.Admits m.feature) :
    Takes fs item (.error u) (fs.note m.feature)
  /-- A feature that is no number is turned on or off. -/
  | switched {m b} (h : mention? item = some m) (hclass : fs.Admits m.feature)
    (hkind : m.feature.kind = .toggle) (hmode : Toggle.read m.mode = some b) :
    Takes fs item (.ok ()) ((fs.note m.feature).switch m.feature b)
  /-- A number is entered. -/
  | entered {m n v} (h : mention? item = some m) (hclass : fs.Admits m.feature)
    (hkind : m.feature.kind = .number n) (hmode : digits word32 m.mode.toList = some v) :
    Takes fs item (.ok ()) ((fs.note m.feature).enter n v)

theorem admits_iff : fs.Admits f ↔ fs.owner.any (· != f.owner) = false := by
  unfold Admits
  cases fs.owner <;> simp

theorem takes_setMode {item : List Char} {mode : String} (h : mention? item = some ⟨f, mode⟩)
    (hclass : fs.Admits f) : Takes fs item (fs.setMode f mode).1 (fs.setMode f mode).2 := by
  unfold setMode
  dsimp only
  cases hkind : f.kind with
  | toggle =>
    dsimp only
    cases hmode : Toggle.read mode with
    | none => exact .refused h hclass
    | some b => cases b <;> exact .switched h hclass hkind hmode
  | number n =>
    dsimp only
    cases hmode : digits word32 mode.toList with
    | none => exact .refused h hclass
    | some v => exact .entered h hclass hkind hmode

/-- **An item does one of five things.** -/
theorem takes_applyItem (fs : Features) (item : List Char) :
    Takes fs item (fs.applyItem item).1 (fs.applyItem item).2 := by
  unfold applyItem
  cases hcut : cutFirst ':' item with
  | none => exact .unread (by simp [mention?, hcut])
  | some cut =>
    obtain ⟨name, mode⟩ := cut
    dsimp only
    cases hfind : Feature.find? (String.ofList name) with
    | none => exact .unread (by simp [mention?, hcut, hfind])
    | some f =>
      have hmention : mention? item = some ⟨f, String.ofList mode⟩ := by
        simp [mention?, hcut, hfind]
      dsimp only
      split
      · next hany => exact .mixed hmention fun h => by simp [admits_iff.1 h] at hany
      · next hany => exact takes_setMode hmention (admits_iff.2 (Bool.eq_false_iff.2 hany))

/-! ## What always holds -/

/-- Whether features are of one class, and what is told of them was mentioned. -/
structure Coherent (fs : Features) : Prop where
  /-- What is on was mentioned. -/
  on_known : ∀ i, fs.mask.testBit i = true → fs.known.testBit i = true
  /-- There is a class exactly if something was mentioned. -/
  known_ne_zero : fs.known ≠ 0 ↔ ∃ c, fs.owner = some c
  /-- Every bit that was mentioned is that of a feature of the class. -/
  owned : ∀ c, fs.owner = some c → ∀ i, fs.known.testBit i = true →
    ∃ f ∈ Feature.all, f.owner = c ∧ f.position = i
  /-- What has a number was mentioned. -/
  number_known : ∀ f ∈ Feature.all, ∀ n v, f.kind = .number n → fs.numbers.get? n = some v →
    fs.Knows f

theorem coherent_empty : empty.Coherent where
  on_known i h := by simp [empty] at h
  known_ne_zero := by simp [empty]
  owned c h := by cases h
  number_known f _ n v _ h := by cases h

theorem testBit_note (fs : Features) (f : Feature) (i : Nat) :
    (fs.note f).known.testBit i = true ↔ fs.known.testBit i = true ∨ f.position = i := by
  simp [note, Feature.testBit_bit]

theorem testBit_switch (fs : Features) (f : Feature) (b : Bool) (i : Nat) :
    (fs.switch f b).mask.testBit i = true ↔
      if f.position = i then b = true else fs.mask.testBit i = true := by
  by_cases hi : f.position = i <;> cases b <;> cases hm : fs.mask.testBit i <;>
    simp [switch, Feature.testBit_bit, hi, hm]

namespace Coherent

/-- Where something was mentioned, there is a class. -/
theorem exists_owner (h : fs.Coherent) {i : Nat} (hi : fs.known.testBit i = true) :
    ∃ c, fs.owner = some c := by
  refine h.known_ne_zero.1 fun hzero => ?_
  rw [hzero, Nat.zero_testBit] at hi
  cases hi

/-- A bit that was mentioned is that of the class to which the next feature belongs. -/
theorem owner_eq (h : fs.Coherent) (hclass : fs.Admits f) {i : Nat}
    (hi : fs.known.testBit i = true) : fs.owner = some f.owner := by
  obtain ⟨c, hc⟩ := h.exists_owner hi
  rw [hc, hclass c hc]

/-- One more mention is one more feature that was mentioned. -/
theorem knows_note (h : fs.Coherent) (hclass : fs.Admits f) (hf : f ∈ Feature.all)
    (hg : g ∈ Feature.all) : (fs.note f).Knows g ↔ fs.Knows g ∨ f = g := by
  constructor
  · rintro ⟨howner, hbit⟩
    have hsame : f.owner = g.owner := Option.some.inj howner
    rcases (testBit_note fs f _).1 hbit with hbit | hposition
    · exact .inl ⟨hsame ▸ h.owner_eq hclass hbit, hbit⟩
    · exact .inr (Feature.eq_of_position f hf g hg hsame hposition)
  · rintro (⟨howner, hbit⟩ | rfl)
    · exact ⟨congrArg some (hclass _ howner).symm, (testBit_note fs f _).2 (.inl hbit)⟩
    · exact ⟨rfl, (testBit_note fs f _).2 (.inr rfl)⟩

theorem note (h : fs.Coherent) (hclass : fs.Admits f) (hf : f ∈ Feature.all) :
    (fs.note f).Coherent where
  on_known i hi := (testBit_note fs f i).2 (.inl (h.on_known i hi))
  known_ne_zero := by
    refine ⟨fun _ => ⟨f.owner, rfl⟩, fun _ hzero => ?_⟩
    have hbit : (fs.note f).known.testBit f.position = true := (testBit_note fs f _).2 (.inr rfl)
    rw [hzero, Nat.zero_testBit] at hbit
    cases hbit
  owned c hc i hi := by
    cases hc
    rcases (testBit_note fs f i).1 hi with hi | hi
    · exact h.owned _ (h.owner_eq hclass hi) i hi
    · exact ⟨f, hf, rfl, hi⟩
  number_known g hg n v hkind hv :=
    (h.knows_note hclass hf hg).2 (.inl (h.number_known g hg n v hkind hv))

theorem switch (h : fs.Coherent) (hf : fs.Knows f) (b : Bool) : (fs.switch f b).Coherent where
  on_known i hi := by
    rw [testBit_switch] at hi
    split at hi
    · next hposition => exact hposition ▸ hf.2
    · exact h.on_known i hi
  known_ne_zero := h.known_ne_zero
  owned := h.owned
  number_known := h.number_known

theorem enter (h : fs.Coherent) (hmem : f ∈ Feature.all) (hf : fs.Knows f) {n : FeatureNumber}
    (hkind : f.kind = .number n) (v : Nat) : (fs.enter n v).Coherent where
  on_known := h.on_known
  known_ne_zero := h.known_ne_zero
  owned := h.owned
  number_known g hg k w hgkind hw := by
    by_cases hk : n = k
    · subst hk
      obtain rfl : f = g :=
        Feature.eq_of_kind f hmem g hg (by rw [hkind]; nofun) (hkind.trans hgkind.symm)
      exact hf
    · exact h.number_known g hg k w hgkind ((Sheet.get?_insert_of_ne _ _ hk).symm.trans hw)

/-- **An item keeps features coherent**, be it taken or not. -/
theorem takes (h : fs.Coherent) {item : List Char} {out : Except CommandError Unit}
    (ht : Takes fs item out fs') : fs'.Coherent := by
  have hknows {m : Mention} (hm : mention? item = some m) (hclass : fs.Admits m.feature) :
      (fs.note m.feature).Knows m.feature :=
    have hmem := mem_all_of_mention? hm
    (h.knows_note hclass hmem hmem).2 (.inr rfl)
  cases ht with
  | unread => exact h
  | mixed => exact h
  | refused hm hclass => exact h.note hclass (mem_all_of_mention? hm)
  | switched hm hclass _ _ =>
    exact (h.note hclass (mem_all_of_mention? hm)).switch (hknows hm hclass) _
  | entered hm hclass hkind _ =>
    have hmem := mem_all_of_mention? hm
    exact (h.note hclass hmem).enter hmem (hknows hm hclass) hkind _

end Coherent

/-! ## What holds if everything was taken -/

/-- Whether features are what their last mentions say. -/
structure Tells (fs : Features) (ms : List Mention) : Prop where
  /-- What was mentioned are the features of the mentions. -/
  known : ∀ f ∈ Feature.all, fs.Knows f ↔ ∃ m ∈ ms, m.feature = f
  /-- A feature is on if its last mention says so. -/
  on : ∀ f ∈ Feature.all, f.kind = .toggle →
    (fs.IsOn f ↔ lastMode? ms f = some "on" ∨ lastMode? ms f = some "yes")
  /-- A number that was not mentioned is not there. -/
  unnumbered : ∀ f ∈ Feature.all, ∀ n, f.kind = .number n → lastMode? ms f = none →
    fs.numbers.get? n = none
  /-- A number is what its last mention says. -/
  number : ∀ f ∈ Feature.all, ∀ n, f.kind = .number n → ∀ mode, lastMode? ms f = some mode →
    ∃ v, digits word32 mode.toList = some v ∧ fs.numbers.get? n = some v

theorem tells_empty : empty.Tells [] where
  known f _ := by simp [Knows, empty]
  on f _ _ := by simp [IsOn, empty, lastMode?]
  unnumbered _ _ _ _ _ := rfl
  number _ _ _ _ mode h := by cases h

/-- One more mention leaves on what was on. -/
theorem Coherent.isOn_note (h : fs.Coherent) (hclass : fs.Admits f) :
    (fs.note f).IsOn g ↔ fs.IsOn g := by
  constructor
  · rintro ⟨howner, hbit⟩
    have hsame : f.owner = g.owner := Option.some.inj howner
    exact ⟨hsame ▸ h.owner_eq hclass (h.on_known _ hbit), hbit⟩
  · rintro ⟨howner, hbit⟩
    exact ⟨congrArg some (hclass _ howner).symm, hbit⟩

/-- To turn one feature on or off leaves the others alone. -/
theorem isOn_switch (howner : fs.owner = some f.owner) (hf : f ∈ Feature.all)
    (hg : g ∈ Feature.all) (b : Bool) :
    (fs.switch f b).IsOn g ↔ if f = g then b = true else fs.IsOn g := by
  have hswitch : (fs.switch f b).IsOn g ↔ f.owner = g.owner ∧
      if f.position = g.position then b = true else fs.mask.testBit g.position = true := by
    rw [← testBit_switch fs f b g.position, ← Option.some.injEq, ← howner]
    rfl
  have hison : fs.IsOn g ↔ f.owner = g.owner ∧ fs.mask.testBit g.position = true := by
    rw [← Option.some.injEq, ← howner]
    rfl
  rw [hswitch]
  by_cases hfg : f = g
  · subst hfg
    simp
  · rw [if_neg hfg, hison]
    refine and_congr_right fun hsame => ?_
    rw [if_neg fun hposition => hfg (Feature.eq_of_position f hf g hg hsame hposition)]

theorem read_eq_true_iff {mode : String} :
    Toggle.read mode = some true ↔ mode = "on" ∨ mode = "yes" := by
  unfold Toggle.read
  split <;> simp_all

namespace Tells

variable {ms : List Mention} {m : Mention}

theorem knows_note (h : fs.Tells ms) (hfs : fs.Coherent) (hclass : fs.Admits m.feature)
    (hm : m.feature ∈ Feature.all) (hg : g ∈ Feature.all) :
    (fs.note m.feature).Knows g ↔ ∃ m' ∈ ms ++ [m], m'.feature = g := by
  rw [hfs.knows_note hclass hm hg, h.known g hg]
  simp [or_and_right, exists_or]

/-- **An item that is taken is one more mention.** -/
theorem takes (h : fs.Tells ms) (hfs : fs.Coherent) {item : List Char}
    (ht : Takes fs item (.ok ()) fs') : ∃ m, mention? item = some m ∧ fs'.Tells (ms ++ [m]) := by
  cases ht with
  | @switched m b hmention hclass hkind hmode =>
    have hm : m.feature ∈ Feature.all := mem_all_of_mention? hmention
    refine ⟨m, hmention, fun g hg => h.knows_note hfs hclass hm hg, fun g hg hgkind => ?_,
      fun g hg n hgkind hlast => ?_, fun g hg n hgkind mode hlast => ?_⟩
    · rw [isOn_switch rfl hm hg, hfs.isOn_note hclass, lastMode?_concat, h.on g hg hgkind]
      split
      · rw [Option.some.injEq, Option.some.injEq, ← read_eq_true_iff, hmode, Option.some.injEq]
      · exact Iff.rfl
    all_goals
      have hne : m.feature ≠ g := by
        rintro rfl
        rw [hkind] at hgkind
        cases hgkind
      rw [lastMode?_concat, if_neg hne] at hlast
    · exact h.unnumbered g hg n hgkind hlast
    · exact h.number g hg n hgkind mode hlast
  | @entered m n v hmention hclass hkind hmode =>
    have hm : m.feature ∈ Feature.all := mem_all_of_mention? hmention
    -- Another number is kept under another key.
    have hother {g : Feature} {k : FeatureNumber} (hg : g ∈ Feature.all)
        (hgkind : g.kind = .number k) (hne : m.feature ≠ g) :
        (fs.numbers.insert n v).get? k = fs.numbers.get? k := by
      refine Sheet.get?_insert_of_ne _ _ fun hk => hne ?_
      exact Feature.eq_of_kind _ hm g hg (by rw [hkind]; nofun) (by rw [hkind, hgkind, hk])
    refine ⟨m, hmention, fun g hg => h.knows_note hfs hclass hm hg, fun g hg hgkind => ?_,
      fun g hg k hgkind hlast => ?_, fun g hg k hgkind mode hlast => ?_⟩
    · have hne : m.feature ≠ g := by
        rintro rfl
        rw [hkind] at hgkind
        cases hgkind
      rw [lastMode?_concat, if_neg hne, ← h.on g hg hgkind]
      exact hfs.isOn_note hclass
    · rw [lastMode?_concat] at hlast
      split at hlast
      · cases hlast
      · next hne => exact (hother hg hgkind hne).trans (h.unnumbered g hg k hgkind hlast)
    · rw [lastMode?_concat] at hlast
      split at hlast
      · next heq =>
        subst heq
        cases hlast
        rw [hkind] at hgkind
        cases hgkind
        exact ⟨v, hmode, Sheet.get?_insert_self ..⟩
      · next hne =>
        obtain ⟨w, hw, hget⟩ := h.number g hg k hgkind mode hlast
        exact ⟨w, hw, (hother hg hgkind hne).trans hget⟩

end Tells

/-! ## Lists -/

/-- Takes lists one after the other, and tells how each of them ends.  One that is turned down
leaves what it said before. -/
def applyEach (fs : Features) : List String → List (Except CommandError Unit) × Features
  | [] => ([], fs)
  | s :: lists =>
    let (outcome, fs) := fs.apply s
    let (outcomes, fs) := fs.applyEach lists
    (outcome :: outcomes, fs)

theorem coherent_applyItems (h : fs.Coherent) (items : List (List Char)) :
    (applyItems items fs).2.Coherent := by
  induction items generalizing fs with
  | nil => exact h
  | cons item items ih =>
    have hitem : (fs.applyItem item).2.Coherent := h.takes (takes_applyItem fs item)
    unfold applyItems
    split
    · next heq =>
      rw [heq] at hitem
      exact ih hitem
    · next heq =>
      rw [heq] at hitem
      exact hitem

theorem tells_applyItems {ms : List Mention} (h : fs.Tells ms) (hfs : fs.Coherent)
    {items : List (List Char)} (hok : (applyItems items fs).1 = .ok ()) :
    (applyItems items fs).2.Tells (ms ++ items.filterMap mention?) := by
  induction items generalizing fs ms with
  | nil =>
    rw [List.filterMap_nil, List.append_nil]
    exact h
  | cons item items ih =>
    have hitem := takes_applyItem fs item
    unfold applyItems at hok ⊢
    split at hok
    · next heq =>
      rw [heq] at hitem
      obtain ⟨m, hm, htells⟩ := h.takes hfs hitem
      have hrest := ih htells (hfs.takes hitem) hok
      rwa [List.append_assoc, List.singleton_append, ← List.filterMap_cons_some hm] at hrest
    · cases hok

/-- Items that follow others are taken if those were. -/
theorem applyItems_append (items rest : List (List Char)) (fs : Features) :
    applyItems (items ++ rest) fs =
      match applyItems items fs with
      | (.ok (), fs) => applyItems rest fs
      | (.error u, fs) => (.error u, fs) := by
  induction items generalizing fs with
  | nil => rfl
  | cons item items ih =>
    simp only [List.cons_append, applyItems]
    rcases fs.applyItem item with ⟨_ | _, fs'⟩
    · rfl
    · exact ih fs'

theorem items_comma (s t : String) : items (s ++ "," ++ t) = items s ++ items t := by
  unfold items
  rw [String.toList_append, String.toList_append, List.append_assoc]
  exact words_append_cons rfl _ _

theorem coherent_applyEach (h : fs.Coherent) (lists : List String) :
    (fs.applyEach lists).2.Coherent := by
  induction lists generalizing fs with
  | nil => exact h
  | cons s lists ih => exact ih (coherent_applyItems h (items s))

theorem tells_applyEach {ms : List Mention} (h : fs.Tells ms) (hfs : fs.Coherent)
    {lists : List String} (hok : ∀ out ∈ (fs.applyEach lists).1, out = .ok ()) :
    (fs.applyEach lists).2.Tells (ms ++ lists.flatMap mentions) := by
  induction lists generalizing fs ms with
  | nil =>
    rw [List.flatMap_nil, List.append_nil]
    exact h
  | cons s lists ih =>
    obtain ⟨hfirst, hrest⟩ := List.forall_mem_cons.1 hok
    have hlist : (fs.apply s).2.Tells (ms ++ mentions s) := tells_applyItems h hfs hfirst
    rw [List.flatMap_cons, ← List.append_assoc]
    exact ih hlist (coherent_applyItems hfs (items s)) hrest

/-- **Lists of features add up.**  Whatever lists are told one after the other, and however they
end, the features stay coherent: what is on was mentioned, there is a class exactly if something was
mentioned, every bit is that of a feature of the class, and what has a number was mentioned.  If all
lists were taken, the features are those that were mentioned, each as its last mention says.  And
two lists come to the same as one list with a comma between them: the second one goes on from what
the first one says, unless that is turned down. -/
theorem lists_add_up (lists : List String) :
    (empty.applyEach lists).2.Coherent ∧
    ((∀ out ∈ (empty.applyEach lists).1, out = .ok ()) →
      (empty.applyEach lists).2.Tells (lists.flatMap mentions)) ∧
    ∀ (fs : Features) (s t : String),
      (∀ fs', fs.apply s = (.ok (), fs') → fs.apply (s ++ "," ++ t) = fs'.apply t) ∧
      ∀ u fs', fs.apply s = (.error u, fs') → fs.apply (s ++ "," ++ t) = (.error u, fs') := by
  refine ⟨coherent_applyEach coherent_empty lists,
    tells_applyEach tells_empty coherent_empty, fun fs s t => ?_⟩
  have happend : fs.apply (s ++ "," ++ t) = applyItems (items s ++ items t) fs := by
    rw [← items_comma]
    rfl
  rw [happend, applyItems_append]
  refine ⟨fun fs' h => ?_, fun u fs' h => ?_⟩
  · rw [show applyItems (items s) fs = _ from h]
    rfl
  · rw [show applyItems (items s) fs = _ from h]

/-- `smart_mount:on,time_sync_interval:60` followed by `smart_mount:no` leaves smart mounts off and
the interval at 60. -/
theorem last_list_turns_off :
    let fs := (empty.applyEach ["smart_mount:on,time_sync_interval:60", "smart_mount:no"]).2
    (∀ out ∈ (empty.applyEach ["smart_mount:on,time_sync_interval:60", "smart_mount:no"]).1,
      out = .ok ()) ∧
    fs.Tells (["smart_mount:on,time_sync_interval:60", "smart_mount:no"].flatMap mentions) ∧
    fs.owner = some .machine ∧ fs.mask = 0 ∧ fs.numbers.get? .timeSyncInterval = some 60 := by
  have hfirst : items "smart_mount:on,time_sync_interval:60" =
      ["smart_mount:on".toList, "time_sync_interval:60".toList] := by
    simp [items, words]
  have hsecond : items "smart_mount:no" = ["smart_mount:no".toList] := by
    simp [items, words]
  have happly (s : String) (fs : Features) : fs.apply s = applyItems (items s) fs := rfl
  have hok : ∀ out ∈ (empty.applyEach
      ["smart_mount:on,time_sync_interval:60", "smart_mount:no"]).1, out = .ok () := by
    simp only [applyEach, happly, hfirst, hsecond]
    exact List.forall_mem_cons.2 ⟨rfl, List.forall_mem_singleton.2 rfl⟩
  refine ⟨hok, (lists_add_up _).2.1 hok, ?_⟩
  simp only [applyEach, happly, hfirst, hsecond]
  decide

end Features

end VmControl
