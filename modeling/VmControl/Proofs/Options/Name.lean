import VmControl.Proofs.Options.Slots

/-!
# The names that a cursor delivers

An option is delivered under a name of its table, and an argument that is handed back as unknown is
no name of the table.  So whoever is told the text of the one is never told that of the other, even
if the unknown argument is a run of which some options were read before.

## Main definitions

* `Table.Spells`: the texts that are names of the table.

## Main statements

* `Table.spells_of_option`: what is delivered as an option has a name of the table.
* `Table.not_spells_of_unknown`: what is delivered as unknown has none.
-/

namespace VmControl.Options

open VmControl.Text

variable {ι : Type} {t : Table ι}

/-- Whether a text is the name of an option of the table, as it is spelled. -/
inductive Table.Spells (t : Table ι) : String → Prop where
  /-- A long name ends before a `=`. -/
  | long {name : String} (h : (t.findLong? name).isSome) (hname : '=' ∉ name.toList) :
      Spells t ("--" ++ name)
  /-- A short name is one character. -/
  | short {c : Char} (h : (t.findShort? c).isSome) : Spells t ("-" ++ String.singleton c)

/-- Whether the dashes alone name no option. -/
def Table.HasNames (t : Table ι) : Prop := t.findLong? "" = none ∧ t.findShort? '-' = none

instance (t : Table ι) [DecidableEq ι] : Decidable t.HasNames :=
  inferInstanceAs (Decidable (_ ∧ _))

/-! ## Texts that are no names -/

theorem Table.not_spells_of_nodash {token : String}
    (h : ∀ c body, token.toList ≠ '-' :: c :: body) : ¬ t.Spells token := by
  intro hspells
  cases hspells with
  | @long name _ _ => exact h '-' name.toList (by simp)
  | @short c _ => exact h c [] (by simp)

/-- A long option that the table does not know is no name of it, with a value or without. -/
theorem Table.not_spells_of_long {token : String} {body : List Char} (ht : t.HasNames)
    (htoken : token.toList = '-' :: '-' :: body)
    (hnone : '=' ∉ body → t.findLong? (String.ofList body) = none) : ¬ t.Spells token := by
  intro hspells
  cases hspells with
  | @long name h hname =>
    obtain rfl : name.toList = body := by simpa using htoken
    rw [String.ofList_toList] at hnone
    rw [hnone hname] at h
    cases h
  | @short c h =>
    obtain ⟨rfl, -⟩ : c = '-' ∧ [] = body := by simpa using htoken
    rw [ht.2] at h
    cases h

/-- A run is a name if it is one character that the table knows. -/
theorem Table.not_spells_of_run {token : String} {head : Char} {tail : List Char}
    (htoken : token.toList = '-' :: head :: tail) (hhead : head ≠ '-')
    (h : tail ≠ [] ∨ t.findShort? head = none) : ¬ t.Spells token := by
  intro hspells
  cases hspells with
  | @long name _ _ =>
    refine hhead ?_
    have hdash : '-' = head ∧ name.toList = tail := by simpa using htoken
    exact hdash.1.symm
  | @short c hc =>
    obtain ⟨rfl, rfl⟩ : c = head ∧ [] = tail := by simpa using htoken
    rcases h with h | h
    · exact h rfl
    · rw [h] at hc
      cases hc

/-! ## Steps -/

/-- Whether an event tells a name of the table if it is an option, and no such name if it is not. -/
def Event.Names (t : Table ι) : Event ι → Prop
  | .option m => t.Spells m.name
  | .unknown _ token => ¬ t.Spells token

/-- Whether what a demand delivers does so, and the run that it leaves is no name. -/
def Demand.Names (t : Table ι) : Demand ι → Prop
  | .deliver event run => event.Names t ∧ ∀ r, run = some r → ¬ t.Spells r.token
  | .await _ name => t.Spells name

theorem Demand.names_deliver {event : Event ι} (h : event.Names t) :
    (Demand.deliver event none).Names t :=
  ⟨h, nofun⟩

theorem Demand.names_ofLong {index : Nat} {token : String} {body : List Char} (ht : t.HasNames)
    (htoken : token.toList = '-' :: '-' :: body) : (ofLong t index token body).Names t := by
  have hspells {name : List Char} {e : Entry ι} (he : t.findLong? (String.ofList name) = some e)
      (hname : '=' ∉ name) : t.Spells ("--" ++ String.ofList name) :=
    .long (he ▸ rfl) (by rwa [String.toList_ofList])
  unfold ofLong
  cases hcut : cutFirst '=' body with
  | none =>
    have hname : '=' ∉ body := cutFirst_eq_none.1 hcut
    dsimp only
    split
    · next he => exact names_deliver (Table.not_spells_of_long ht htoken fun _ => he)
    · next e he =>
      split
      · exact hspells he hname
      · exact names_deliver (hspells he hname)
  | some cut =>
    obtain ⟨name, value⟩ := cut
    obtain ⟨rfl, hname⟩ := cutFirst_eq_some.1 hcut
    dsimp only
    split
    · exact names_deliver (Table.not_spells_of_long ht htoken fun h => absurd (by simp) h)
    · next e he =>
      split <;> exact names_deliver (hspells he hname)

/-- A run that goes on is no name, and one that does not is one if the table knows its character. -/
theorem Demand.names_ofRun {r : Run} (h : r.tail ≠ [] ∨ t.findShort? r.head = none →
    ¬ t.Spells r.token) : (ofRun t r).Names t := by
  unfold ofRun
  cases he : t.findShort? r.head with
  | none => exact names_deliver (h (.inr he))
  | some e =>
    have hspells : t.Spells ("-" ++ String.singleton r.head) := .short (he ▸ rfl)
    dsimp only
    split
    · exact hspells
    · exact names_deliver hspells
    · exact names_deliver hspells
    · next head tail _ htail =>
      refine ⟨hspells, fun r' hr' => ?_⟩
      obtain rfl := Option.some.inj hr'
      exact h (.inl (htail ▸ List.cons_ne_nil head tail))

theorem Demand.names_ofToken (ht : t.HasNames) (index : Nat) (token : String) :
    (ofToken t index token).Names t := by
  unfold ofToken
  split
  · next htoken =>
    exact names_deliver (Table.not_spells_of_long ht htoken fun _ => ht.1)
  · next body _ htoken => exact names_ofLong ht htoken
  · next head tail _ hhead htoken => exact names_ofRun (Table.not_spells_of_run htoken hhead)
  · next hlong _ hrun =>
    refine names_deliver (Table.not_spells_of_nodash fun c body htoken => ?_)
    exact hrun c body htoken

namespace Cursor

theorem names_meet {c c' : Cursor} {d : Demand ι} {event : Event ι} (hc : c.run = none)
    (hd : d.Names t) (h : c.meet d = (.ok (some event), c')) :
    event.Names t ∧ ∀ r, c'.run = some r → ¬ t.Spells r.token := by
  cases d with
  | deliver event' run =>
    cases h
    exact hd
  | await id name =>
    simp only [meet, takeNext] at h
    split at h <;> cases h
    exact ⟨hd, fun r hr => by rw [hc] at hr; cases hr⟩

/-- A step tells a name if it delivers an option, and none if it does not. -/
theorem names_step (ht : t.HasNames) {c c' : Cursor} {event : Event ι}
    (hc : ∀ r, c.run = some r → ¬ t.Spells r.token) (h : c.step t = (.ok (some event), c')) :
    event.Names t ∧ ∀ r, c'.run = some r → ¬ t.Spells r.token := by
  obtain ⟨next, unread, _ | r⟩ := c
  · cases unread with
    | nil => cases h
    | cons token unread =>
      rw [step_cons] at h
      exact names_meet rfl (Demand.names_ofToken ht next token) h
  · rw [step_run] at h
    exact names_meet rfl (Demand.names_ofRun fun _ => hc r rfl) h

/-- So does a stream. -/
theorem names_stream (ht : t.HasNames) {c : Cursor}
    (hc : ∀ r, c.run = some r → ¬ t.Spells r.token) :
    ∀ event ∈ (c.stream t).events, event.Names t := by
  fun_induction Cursor.stream t c with
  | case1 | case2 => exact fun _ hmem => absurd hmem List.not_mem_nil
  | case3 c event hstep rest ih =>
    obtain ⟨hevent, hrun⟩ := names_step ht hc (Prod.ext hstep rfl)
    intro e he
    rcases List.mem_cons.1 he with rfl | he
    · exact hevent
    · exact ih hrun e he

end Cursor

namespace Table

variable {args : List String} {start : Nat}

/-- **What is delivered as an option has a name of the table.** -/
theorem spells_of_option (ht : t.HasNames) {m : Match ι}
    (h : .option m ∈ (t.read args start).events) : t.Spells m.name :=
  Cursor.names_stream ht (fun _ h => by cases h) _ h

/-- **What is delivered as unknown is no name of the table.** -/
theorem not_spells_of_unknown (ht : t.HasNames) {index : Nat} {token : String}
    (h : .unknown index token ∈ (t.read args start).events) : ¬ t.Spells token :=
  Cursor.names_stream ht (fun _ h => by cases h) _ h

end Table

end VmControl.Options
