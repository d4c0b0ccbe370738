import Mathlib.Data.List.Forall2
import VmControl.Proofs.Options.Slots

/-!
# Lines that differ in values

Two lines that differ only inside values which are delivered from both are read in lockstep: the
options are the same ones in the same order, and only those values differ.

## Main definitions

* `Cursor.Lockstep`: two cursors on lines that differ in this way.

## Main statements

* `Cursor.Lockstep.step`: cursors in lockstep stay in lockstep.
* `Cursor.Lockstep.stream`: they deliver the same but for the values that differ.
-/

namespace VmControl.Options

variable {ι : Type}

/-- Whether two events are the same, or options whose values differ in an allowed way. -/
inductive Event.Alike (P : ι → String → String → Prop) : Event ι → Event ι → Prop where
  /-- The same event. -/
  | same (event : Event ι) : Alike P event event
  /-- The same option with another value. -/
  | value (id : ι) (name : String) (v v' : Value) (h : P id v.text v'.text) :
      Alike P (.option ⟨id, name, some v⟩) (.option ⟨id, name, some v'⟩)

/-- Whether two texts differ only in values that they end in, and that are delivered from the
argument at `index`. -/
def Differ (P : ι → String → String → Prop) (ms ms' : List (Match ι)) (index : Nat)
    (a a' : List Char) : Prop :=
  ∃ m ∈ ms, ∃ m' ∈ ms', ∃ v v' front, m.value = some v ∧ m'.value = some v' ∧
    v.slot.index = index ∧ v'.slot.index = index ∧
    a = front ++ v.text.toList ∧ a' = front ++ v'.text.toList ∧ P m.id v.text v'.text

/-- Whether two lists of arguments, the first one at a position, differ only in such values. -/
inductive Aligned (P : ι → String → String → Prop) (ms ms' : List (Match ι)) :
    Nat → List String → List String → Prop where
  | nil (next : Nat) : Aligned P ms ms' next [] []
  | cons {next : Nat} {a a' : String} {l l' : List String}
      (h : a = a' ∨ Differ P ms ms' next a.toList a'.toList)
      (hl : Aligned P ms ms' (next + 1) l l') :
      Aligned P ms ms' next (a :: l) (a' :: l')

/-- Whether two unfinished runs differ only in a value that is still to be read. -/
inductive RunsAlike (P : ι → String → String → Prop) (ms ms' : List (Match ι)) :
    Option Run → Option Run → Prop where
  | same (r : Option Run) : RunsAlike P ms ms' r r
  | differ {r r' : Run} (hindex : r.index = r'.index) (hhead : r.head = r'.head)
      (h : Differ P ms ms' r.index r.tail r'.tail) : RunsAlike P ms ms' (some r) (some r')

namespace Cursor

/-- Two cursors on lines that differ only in values that are still to be read. -/
structure Lockstep (P : ι → String → String → Prop) (t : Table ι) (c c' : Cursor) : Prop where
  /-- The first cursor is sound. -/
  sound : c.Sound
  /-- So is the second one. -/
  sound' : c'.Sound
  /-- They are at the same argument. -/
  next : c.next = c'.next
  /-- The arguments to be read differ only in values. -/
  unread : Aligned P (c.stream t).options (c'.stream t).options c.next c.unread c'.unread
  /-- So do the runs. -/
  run : RunsAlike P (c.stream t).options (c'.stream t).options c.run c'.run

/-- Whether two steps do the same, but for values that differ, and stay in lockstep. -/
inductive StepsAlike (P : ι → String → String → Prop) (t : Table ι) :
    Except MissingValue (Option (Event ι)) × Cursor →
    Except MissingValue (Option (Event ι)) × Cursor → Prop where
  | missing (u : MissingValue) (c c' : Cursor) : StepsAlike P t (.error u, c) (.error u, c')
  | done (c c' : Cursor) : StepsAlike P t (.ok none, c) (.ok none, c')
  | event {event event' : Event ι} {c c' : Cursor} (h : event.Alike P event')
      (hc : Lockstep P t c c') : StepsAlike P t (.ok (some event), c) (.ok (some event'), c')

end Cursor

section

variable {P : ι → String → String → Prop} {t : Table ι} {ms ms' ns ns' : List (Match ι)}
  {c c' d d' : Cursor} {event event' : Event ι} {index : Nat} {a a' : List Char}

open Cursor

/-- A value that is not read by a step is still to be read. -/
theorem Differ.later (h : Differ P (c.stream t).options (c'.stream t).options index a a')
    (hc : c.Sound) (hc' : c'.Sound) (hstep : c.step t = (.ok (some event), d))
    (hstep' : c'.step t = (.ok (some event'), d')) (hd : d.place ≤ index) (hd' : d'.place ≤ index) :
    Differ P (d.stream t).options (d'.stream t).options index a a' := by
  have later {c d : Cursor} {event : Event ι} {m : Match ι} {v : Value} (hc : c.Sound)
      (hstep : c.step t = (.ok (some event), d)) (hm : m ∈ (c.stream t).options)
      (hv : m.value = some v) (hd : d.place ≤ v.slot.index) : m ∈ (d.stream t).options := by
    rw [Stream.mem_options] at hm ⊢
    rcases mem_stream_of_step hc hstep hv hm with rfl | ⟨hm, -⟩
    · have hlt := ((step_place hc hstep).2.2 v.slot.index
        (by simp [Event.index?, Match.slot?, hv])).2
      omega
    · exact hm
  obtain ⟨m, hm, m', hm', v, v', front, hv, hv', rfl, hi', h⟩ := h
  exact ⟨m, later hc hstep hm hv hd, m', later hc' hstep' hm' hv' (hi' ▸ hd'), v, v', front, hv,
    hv', rfl, hi', h⟩

/-- A value that is read by a step is what the step delivers. -/
theorem Differ.now (h : Differ P (c.stream t).options (c'.stream t).options index a a')
    (hc : c.Sound) (hc' : c'.Sound) (hstep : c.step t = (.ok (some event), d))
    (hstep' : c'.step t = (.ok (some event'), d')) (hd : index < d.place) (hd' : index < d'.place) :
    ∃ m m' v v' front, event = .option m ∧ event' = .option m' ∧ m.value = some v ∧
      m'.value = some v' ∧ a = front ++ v.text.toList ∧ a' = front ++ v'.text.toList ∧
      P m.id v.text v'.text := by
  have now {c d : Cursor} {event : Event ι} {m : Match ι} {v : Value} (hc : c.Sound)
      (hstep : c.step t = (.ok (some event), d)) (hm : m ∈ (c.stream t).options)
      (hv : m.value = some v) (hd : v.slot.index < d.place) : event = .option m := by
    rcases mem_stream_of_step hc hstep hv (Stream.mem_options.1 hm) with h | ⟨-, hplace⟩
    · exact h
    · omega
  obtain ⟨m, hm, m', hm', v, v', front, hv, hv', rfl, hi', h⟩ := h
  exact ⟨m, m', v, v', front, now hc hstep hm hv hd, now hc' hstep' hm' hv' (hi' ▸ hd'), hv, hv', h⟩

theorem Aligned.mono {next : Nat} {l l' : List String} (h : Aligned P ms ms' next l l')
    (hmono : ∀ index a a', next ≤ index → Differ P ms ms' index a a' → Differ P ns ns' index a a') :
    Aligned P ns ns' next l l' := by
  induction h with
  | nil next => exact .nil next
  | @cons next a a' l l' h hl ih =>
    refine .cons (h.imp_right (hmono next _ _ (Nat.le_refl next))) (ih fun index b b' hle => ?_)
    exact hmono index b b' (Nat.le_of_succ_le hle)

namespace Cursor

variable {next : Nat} {unread unread' : List String}

/-- After a step that delivers something, the values after it are still to be read. -/
theorem lockstep_of_step (hc : c.Sound) (hc' : c'.Sound) (hstep : c.step t = (.ok (some event), d))
    (hstep' : c'.step t = (.ok (some event'), d')) (hnext : d.next = d'.next)
    (hunread : Aligned P (c.stream t).options (c'.stream t).options d.next d.unread d'.unread)
    (hrun : RunsAlike P (d.stream t).options (d'.stream t).options d.run d'.run) :
    Lockstep P t d d' := by
  have hd := (step_place hc hstep).1
  have hd' := (step_place hc' hstep').1
  refine ⟨hd, hd', hnext, hunread.mono fun index a a' hle h => ?_, hrun⟩
  refine h.later hc hc' hstep hstep' (Nat.le_trans (place_le_next hd) hle) ?_
  exact Nat.le_trans (place_le_next hd') (hnext ▸ hle)

/-- The same demand is met in the same way. -/
theorem stepsAlike_meet {demand : Demand ι} (hc : c.Sound) (hc' : c'.Sound)
    (hstep : c.step t = (⟨next, unread, none⟩ : Cursor).meet demand)
    (hstep' : c'.step t = (⟨next, unread', none⟩ : Cursor).meet demand)
    (h : Aligned P (c.stream t).options (c'.stream t).options next unread unread') :
    StepsAlike P t (c.step t) (c'.step t) := by
  cases demand with
  | deliver event run =>
    rw [hstep, hstep']
    exact .event (.same event) (lockstep_of_step hc hc' hstep hstep' rfl h (.same run))
  | await id name =>
    cases h with
    | nil =>
      rw [hstep, hstep']
      exact .missing ..
    | cons h hl =>
      have hlockstep := lockstep_of_step hc hc' hstep hstep' rfl hl (.same none)
      rw [hstep, hstep']
      refine .event ?_ hlockstep
      rcases h with rfl | h
      · exact .same _
      · obtain ⟨m, m', v, v', front, hm, hm', hv, hv', -, -, hP⟩ :=
          h.now hc hc' hstep hstep' (Nat.lt_succ_self next) (Nat.lt_succ_self next)
        cases hm
        cases hm'
        cases hv
        cases hv'
        exact .value id name _ _ hP

/-- Runs that differ in a value are read in lockstep. -/
theorem stepsAlike_ofRun {r r' : Run} (hc : c.Sound) (hc' : c'.Sound) (hr : r.index < next)
    (hstep : c.step t = (⟨next, unread, none⟩ : Cursor).meet (.ofRun t r))
    (hstep' : c'.step t = (⟨next, unread', none⟩ : Cursor).meet (.ofRun t r'))
    (hindex : r.index = r'.index) (hhead : r.head = r'.head)
    (h : Differ P (c.stream t).options (c'.stream t).options r.index r.tail r'.tail)
    (hunread : Aligned P (c.stream t).options (c'.stream t).options next unread unread') :
    StepsAlike P t (c.step t) (c'.step t) := by
  obtain ⟨m, hm, m', hm', v, v', start, hv, hv', hi, hi', htail, htail', hP⟩ := h
  -- The value is delivered on both sides, and the options at the heads are the same.
  obtain ⟨e, he, hrun⟩ := run_of_mem_stream hc hr hstep (Stream.mem_options.1 hm) hv hi
  obtain ⟨e', he', hrun'⟩ := run_of_mem_stream hc' (hindex ▸ hr) hstep' (Stream.mem_options.1 hm')
    hv' (hi'.trans hindex)
  obtain rfl : e = e' := by
    rw [hhead, he'] at he
    exact (Option.some.inj he).symm
  rcases hrun with ⟨hvalue, hne, hall, hid⟩ | ⟨hvalue, head, front, hcons⟩
  · -- The rest of the run is the value.
    obtain ⟨-, hne', hall', -⟩ := hrun'.resolve_right fun h => by simp [hvalue] at h
    rw [Demand.ofRun_value he hvalue hne] at hstep
    rw [Demand.ofRun_value he' hvalue hne'] at hstep'
    have hlockstep := lockstep_of_step hc hc' hstep hstep' rfl hunread (.same none)
    rw [hstep, hstep', hhead]
    refine .event (.value e.id _ _ _ ?_) hlockstep
    rw [hall, hall', ← hid]
    simpa using hP
  · -- The value comes after an option without one.
    obtain ⟨-, head', front', hcons'⟩ := hrun'.resolve_left fun h => by simp [hvalue] at h
    rw [Demand.ofRun_flag he hvalue hcons] at hstep
    rw [Demand.ofRun_flag he' hvalue hcons'] at hstep'
    have hstart : start = head :: front := by
      rw [htail, ← List.cons_append] at hcons
      exact List.append_cancel_right hcons
    rw [htail', hstart, List.cons_append] at hcons'
    obtain ⟨rfl, hfront⟩ := List.cons.inj hcons'
    have hdiffer : Differ P (c.stream t).options (c'.stream t).options r.index
        (front ++ v.text.toList) (front' ++ v'.text.toList) :=
      ⟨m, hm, m', hm', v, v', front, hv, hv', hi, hi', rfl, hfront.symm, hP⟩
    have hlater := hdiffer.later hc hc' hstep hstep' (Nat.le_refl r.index)
      (Nat.le_of_eq hindex.symm)
    have hlockstep := lockstep_of_step hc hc' hstep hstep' rfl hunread (.differ hindex rfl hlater)
    rw [hstep, hstep']
    refine .event ?_ hlockstep
    rw [hhead]
    exact .same _

/-- Arguments that differ in a value are read in lockstep. -/
theorem stepsAlike_ofToken {token token' : String}
    (hc : (⟨next, token :: unread, none⟩ : Cursor) = c)
    (hc' : (⟨next, token' :: unread', none⟩ : Cursor) = c')
    (h : Differ P (c.stream t).options (c'.stream t).options next token.toList token'.toList)
    (hunread : Aligned P (c.stream t).options (c'.stream t).options (next + 1) unread unread') :
    StepsAlike P t (c.step t) (c'.step t) := by
  have hsound : c.Sound := hc ▸ sound_of_run_eq_none rfl
  have hsound' : c'.Sound := hc' ▸ sound_of_run_eq_none rfl
  have hstep : c.step t = (⟨next + 1, unread, none⟩ : Cursor).meet (.ofToken t next token) :=
    hc ▸ step_cons ..
  have hstep' : c'.step t = (⟨next + 1, unread', none⟩ : Cursor).meet (.ofToken t next token') :=
    hc' ▸ step_cons ..
  obtain ⟨m, hm, m', hm', v, v', start, hv, hv', hi, hi', htoken, htoken', hP⟩ := h
  rcases token_of_mem_stream (Stream.mem_options.1 (hc ▸ hm)) hv hi with
    ⟨name, e, hlong, hname, he, hvalue, hid⟩ | ⟨head, front, hshort, hhead⟩
  · -- A long option: the two arguments are the same up to the first `=`.
    have hstart : start = '-' :: '-' :: (name ++ ['=']) := by
      rw [htoken] at hlong
      exact List.append_cancel_right (hlong.trans (by simp))
    have hlong' : token'.toList = '-' :: '-' :: (name ++ '=' :: v'.text.toList) := by
      rw [htoken', hstart]
      simp
    rw [Demand.ofToken_long hlong hname he hvalue] at hstep
    rw [Demand.ofToken_long hlong' hname he hvalue] at hstep'
    have hlockstep := lockstep_of_step hsound hsound' hstep hstep' rfl hunread (.same none)
    rw [hstep, hstep']
    refine .event (.value e.id _ _ _ ?_) hlockstep
    rw [← hid]
    simpa using hP
  · -- A run: the two arguments are the same up to the value in it.
    have hstart : start = '-' :: head :: front := by
      rw [htoken] at hshort
      exact List.append_cancel_right (hshort.trans (by simp))
    have hshort' : token'.toList = '-' :: head :: (front ++ v'.text.toList) := by
      rw [htoken', hstart]
      simp
    rw [Demand.ofToken_short hshort hhead] at hstep
    rw [Demand.ofToken_short hshort' hhead] at hstep'
    exact stepsAlike_ofRun hsound hsound' (Nat.lt_succ_self next) hstep hstep' rfl rfl
      ⟨m, hm, m', hm', v, v', front, hv, hv', hi, hi', rfl, rfl, hP⟩ hunread

/-- **Cursors in lockstep stay in lockstep.** -/
theorem Lockstep.step (h : Lockstep P t c c') : StepsAlike P t (c.step t) (c'.step t) := by
  obtain ⟨hc, hc', hnext, hunread, hrun⟩ := h
  obtain ⟨next, unread, run⟩ := c
  obtain ⟨next', unread', run'⟩ := c'
  obtain rfl : next = next' := hnext
  cases hrun with
  | same =>
    cases run with
    | some r => exact stepsAlike_meet hc hc' (step_run ..) (step_run ..) hunread
    | none =>
      cases hunread with
      | nil => exact .done ..
      | cons h hl =>
        rcases h with rfl | h
        · exact stepsAlike_meet hc hc' (step_cons ..) (step_cons ..) hl
        · exact stepsAlike_ofToken rfl rfl h hl
  | @differ r r' hindex hhead h =>
    exact stepsAlike_ofRun hc hc' (hc r rfl) (step_run ..) (step_run ..) hindex hhead h hunread

/-- **Cursors in lockstep deliver the same**, but for the values that differ. -/
theorem Lockstep.stream (h : Lockstep P t c c') :
    List.Forall₂ (Event.Alike P) (c.stream t).events (c'.stream t).events ∧
      (c.stream t).missing = (c'.stream t).missing := by
  fun_induction Cursor.stream t c generalizing c' with
  | case1 c u hstep =>
    have hsteps := h.step
    generalize hx : c.step t = x at hsteps hstep
    generalize hy : c'.step t = y at hsteps
    cases hsteps with
    | missing =>
      cases hstep
      rw [stream_of_missing hy]
      exact ⟨.nil, rfl⟩
    | done => cases hstep
    | event => cases hstep
  | case2 c hstep =>
    have hsteps := h.step
    generalize hx : c.step t = x at hsteps hstep
    generalize hy : c'.step t = y at hsteps
    cases hsteps with
    | missing => cases hstep
    | done =>
      rw [stream_of_done hy]
      exact ⟨.nil, rfl⟩
    | event => cases hstep
  | case3 c event hstep rest =>
    rename_i ih
    have hsteps := h.step
    generalize hx : c.step t = x at hsteps hstep ih
    generalize hy : c'.step t = y at hsteps
    cases hsteps with
    | missing => cases hstep
    | done => cases hstep
    | event hevent hd =>
      cases hstep
      obtain ⟨hevents, hmissing⟩ := ih hd
      show List.Forall₂ _ (_ :: ((c.step t).2.stream t).events) _ ∧
        ((c.step t).2.stream t).missing = _
      rw [hx, stream_of_step hy]
      exact ⟨.cons hevent hevents, hmissing⟩

end Cursor

end

/-- Two lines that differ only in values that are delivered from both are read alike. -/
theorem Table.read_alike {P : ι → String → String → Prop} {t : Table ι} {args args' : List String}
    {start : Nat} (hlength : args.length = args'.length)
    (h : ∀ i a a', start ≤ i → args[i]? = some a → args'[i]? = some a' → a = a' ∨
      Differ P (t.read args start).options (t.read args' start).options i a.toList a'.toList) :
    List.Forall₂ (Event.Alike P) (t.read args start).events (t.read args' start).events ∧
      (t.read args start).missing = (t.read args' start).missing := by
  refine Cursor.Lockstep.stream ⟨Cursor.sound_of_run_eq_none rfl, Cursor.sound_of_run_eq_none rfl,
    rfl, ?_, .same none⟩
  have aligned (n : Nat) (l l' : List String) (hlength : l.length = l'.length)
      (h : ∀ k a a', l[k]? = some a → l'[k]? = some a' → a = a' ∨ Differ P
        (t.read args start).options (t.read args' start).options (n + k) a.toList a'.toList) :
      Aligned P (t.read args start).options (t.read args' start).options n l l' := by
    induction l generalizing n l' with
    | nil => cases l' with
      | nil => exact .nil n
      | cons a' l' => simp at hlength
    | cons a l ih => cases l' with
      | nil => simp at hlength
      | cons a' l' =>
        have hlength : l.length = l'.length := by simpa using hlength
        refine .cons (h 0 a a' rfl rfl) (ih (n + 1) l' hlength fun k b b' hb hb' => ?_)
        have := h (k + 1) b b' (by simpa using hb) (by simpa using hb')
        rwa [Nat.add_right_comm n 1 k]
  refine aligned start _ _ (by simp [Cursor.ofArgs, hlength]) fun k a a' ha ha' => ?_
  refine h (start + k) a a' (Nat.le_add_right start k) ?_ ?_
  · simpa [Cursor.ofArgs] using ha
  · simpa [Cursor.ofArgs] using ha'

end VmControl.Options
