import VmControl.Proofs.Line.Spelling
import VmControl.Proofs.Line.Stray

/-!
# The guest of a line for restoring a backup

Such a line can name its guest by an argument or by an option.  The argument is turned down if there
is a guest already, but the option is not: it replaces what it finds.  So of a line that has both it
matters which comes first.  With the option first the line is turned down, and with the argument
first it is accepted, and means what it would without the argument.

## Main definitions

* `Record.aim`: the record for another guest.
* `Options.Stream.Lists`: what a stream says, up to places.

## Main statements

* `Backup.steps_argument`: an argument may as well come first, unless a guest was named before it.
* `restore_target_by_place`: what the place of the argument does.
-/

namespace VmControl

open Options

/-! ## Guests -/

/-- The record for a guest, or for none. -/
def Record.aim (target : Option String) (r : Record) : Record := { r with target := target }

/-- What can be done before or after each step can be done before or after all of them. -/
theorem Grammar.steps_map {α : Type} {g : Grammar α} {f : α → α} {events : List (Event OptionId)}
    (h : ∀ e ∈ events, ∀ a, g.step (f a) e = f <$> g.step a e) (a : α) :
    g.steps (f a) events = f <$> g.steps a events := by
  induction events generalizing a with
  | nil => exact (map_pure f a).symm
  | cons e events ih =>
    unfold Grammar.steps at ih ⊢
    rw [List.foldlM_cons, List.foldlM_cons, h e (List.mem_cons_self ..), bind_map_left, map_bind]
    exact bind_congr fun b => ih (fun e he => h e (List.mem_cons_of_mem _ he)) b

namespace Backup

theorem takeRestoringOption_aim {m : Match OptionId} (h : m.id ≠ .backupTarget)
    (target : Option String) (r : Record) :
    takeRestoringOption m (r.aim target) = Record.aim target <$> takeRestoringOption m r := by
  unfold takeRestoringOption
  split
  case h_2 hid => exact absurd hid h
  case h_6 => simp [takeStorage, Record.aim]
  case h_7 => simp [takeSecurityLevel, Record.aim]
  case h_8 => simp [Record.aim]
  all_goals rfl

/-- An option that does not name a guest goes with any. -/
theorem step_aim {m : Match OptionId} (h : m.id ≠ .backupTarget) (target : Option String)
    (r : Record) : restoringGrammar.step (r.aim target) (.option m) =
      Record.aim target <$> restoringGrammar.step r (.option m) := by
  unfold Grammar.step
  simp only [map_bind]
  refine bind_congr fun _ => bind_congr fun f => ?_
  cases f with
  | some f => rfl
  | none => exact takeRestoringOption_aim h target r

/-- An option that names a guest replaces the one before. -/
theorem step_backupTarget {m : Match OptionId} (h : m.id = .backupTarget) (r : Record) :
    restoringGrammar.step r (.option m) =
      (do Reading.enter m; return r.aim (some m.text) : Reading Record) := by
  unfold Grammar.step readCommonOption
  simp [h, restoringGrammar, recordGrammar, takeRestoringOption, Record.aim]

variable {ms ms' : List (Match OptionId)} {r : Record}

theorem steps_aim (h : ∀ m ∈ ms, m.id ≠ .backupTarget) (target : Option String) (r : Record) :
    restoringGrammar.steps (r.aim target) (ms.map .option) =
      Record.aim target <$> restoringGrammar.steps r (ms.map .option) := by
  refine Grammar.steps_map (fun e he r => ?_) r
  obtain ⟨m, hm, rfl⟩ := List.mem_map.1 he
  exact step_aim (h m hm) target r

/-- It does not matter which guest was named before if one is named later. -/
theorem steps_aim_of_mem (h : ∃ m ∈ ms, m.id = .backupTarget) (target : Option String)
    (r : Record) : restoringGrammar.steps (r.aim target) (ms.map .option) =
      restoringGrammar.steps r (ms.map .option) := by
  induction ms generalizing r with
  | nil => simp at h
  | cons m ms ih =>
    rw [List.map_cons, Grammar.steps, Grammar.steps, List.foldlM_cons, List.foldlM_cons]
    by_cases hid : m.id = .backupTarget
    · rw [step_backupTarget hid, step_backupTarget hid]
      rfl
    · have hlater : ∃ m ∈ ms, m.id = .backupTarget := by simpa [hid] using h
      rw [step_aim hid, bind_map_left]
      exact bind_congr fun b => ih hlater b

/-- **An argument may as well come first**, unless it looks like an option or a guest was named
before it. -/
theorem steps_argument {index : Nat} {token : String} {events : List (Event OptionId)}
    (hdash : token.toList.head? ≠ some '-') (h : ∀ m ∈ ms, m.id ≠ .backupTarget)
    (hr : r.target = none) :
    restoringGrammar.steps r (ms.map .option ++ .unknown index token :: events) =
      restoringGrammar.steps (r.aim (some token)) (ms.map .option ++ events) := by
  have hsteps : restoringGrammar.steps r (ms.map .option) =
      Record.aim none <$> restoringGrammar.steps r (ms.map .option) := by
    have hnone : r.aim none = r := by
      unfold Record.aim
      rw [← hr]
    rw [← steps_aim h, hnone]
  have htake (b : Record) : restoringGrammar.steps (b.aim none) (.unknown index token :: events) =
      restoringGrammar.steps (b.aim (some token)) events := by
    have hargument : restoringGrammar.step (b.aim none) (.unknown index token) =
        pure (b.aim (some token)) := by
      show takeOnlyTarget index token (b.aim none) = _
      unfold takeOnlyTarget
      rw [if_neg hdash]
      rfl
    rw [Grammar.steps, List.foldlM_cons, hargument, pure_bind]
    rfl
  calc restoringGrammar.steps r (ms.map .option ++ .unknown index token :: events)
      = (restoringGrammar.steps r (ms.map .option) >>= fun b =>
          restoringGrammar.steps (b.aim none) (.unknown index token :: events)) := by
        rw [Grammar.steps_append, hsteps, bind_map_left, bind_map_left]
        rfl
    _ = (restoringGrammar.steps r (ms.map .option) >>= fun b =>
          restoringGrammar.steps (b.aim (some token)) events) := by
        exact bind_congr htake
    _ = restoringGrammar.steps (r.aim (some token)) (ms.map .option ++ events) := by
        rw [Grammar.steps_append, steps_aim h, bind_map_left]

/-- Once a guest is named there is one until the end. -/
theorem yields_steps_isSome (h : r.target.isSome = true ∨ ∃ m ∈ ms, m.id = .backupTarget) :
    (restoringGrammar.steps r (ms.map .option)).Yields fun b => b.target.isSome = true := by
  induction ms generalizing r with
  | nil => exact Reading.yields_pure (by simpa using h)
  | cons m ms ih =>
    rw [List.map_cons, Grammar.steps, List.foldlM_cons]
    by_cases hid : m.id = .backupTarget
    · rw [step_backupTarget hid, bind_assoc]
      refine Reading.yields_bind fun _ => ?_
      rw [pure_bind]
      exact ih (.inl rfl)
    · have hstep := step_aim hid r.target r
      rw [show r.aim r.target = r from rfl] at hstep
      rw [hstep, bind_map_left]
      refine Reading.yields_bind fun b => ih ?_
      simpa [hid, Record.aim] using h

/-- **An argument is turned down** if it looks like an option, or a guest was named before it. -/
theorem fails_steps_argument {index : Nat} {token : String} {events : List (Event OptionId)}
    (h : token.toList.head? = some '-' ∨ ∃ m ∈ ms, m.id = .backupTarget) :
    (restoringGrammar.steps r (ms.map .option ++ .unknown index token :: events)).Fails := by
  have hfails (b : Record) (hb : token.toList.head? = some '-' ∨ b.target.isSome = true) :
      (restoringGrammar.steps b (.unknown index token :: events)).Fails := by
    rw [Grammar.steps, List.foldlM_cons]
    refine Reading.Fails.bind ?_
    show (takeOnlyTarget index token b).Fails
    unfold takeOnlyTarget
    by_cases hdash : token.toList.head? = some '-'
    · rw [if_pos hdash]
      exact Reading.fails_throw
    · rw [if_neg hdash, if_pos (hb.resolve_left hdash)]
      exact Reading.fails_throw
  rw [Grammar.steps_append]
  rcases h with hdash | hmem
  · exact Reading.fails_bind fun b => hfails b (.inl hdash)
  · exact (yields_steps_isSome (.inr hmem)).bind fun b hb => hfails b (.inr hb)

/-! ## Places -/

theorem placeless_restoringGrammar : restoringGrammar.Placeless where
  argument i _ token r := (wipes_takeOnlyTarget i token r).alike_self
  option m m' r h := by
    have hid := id_eq_of_occurrence_eq h
    show Reading.Alike Eq (takeRestoringOption m r) (takeRestoringOption m' r)
    by_cases hstorage : m.id = .storage
    · have hstorage' : m'.id = .storage := hid ▸ hstorage
      unfold takeRestoringOption
      rw [hstorage, hstorage']
      exact (alike_readLogin_of_occurrence h).bind fun t t' ht => ht ▸ Reading.alike_pure rfl
    · have hsame : takeRestoringOption m r = takeRestoringOption m' r := by
        have hstorage' : m'.id ≠ .storage := hid ▸ hstorage
        simp only [takeRestoringOption, takeId, takeSecurityLevel, readSecurityLevel, refuseOption,
          hid, text_eq_of_occurrence_eq h, name_eq_of_occurrence_eq h]
        split <;> first | rfl | contradiction
      have hwipes : (takeRestoringOption m r).Wipes [] := by
        unfold takeRestoringOption
        split
        case h_6 hid => exact absurd hid hstorage
        all_goals simp
      rw [← hsame]
      exact hwipes.alike_self

end Backup

/-! ## What lines say -/

namespace Options

theorem Event.same_of_said {e e' : Event OptionId} (h : e.said = e'.said) :
    e.Same (fun _ _ => True) e' := by
  cases e with
  | option m =>
    cases e' with
    | option m' => exact .option (Saying.option.inj h)
    | unknown => cases h
  | unknown i token =>
    cases e' with
    | option m' => cases h
    | unknown i' token' =>
      obtain rfl := Saying.unknown.inj h
      exact .unknown trivial

/-- Events that say options are options. -/
theorem exists_of_map_said {os : List (Occurrence OptionId)} {events : List (Event OptionId)}
    (h : events.map Event.said = os.map .option) :
    ∃ ms : List (Match OptionId), events = ms.map .option ∧ ms.map Match.occurrence = os := by
  induction os generalizing events with
  | nil => exact ⟨[], List.map_eq_nil_iff.1 h, rfl⟩
  | cons o os ih =>
    obtain ⟨e, events, rfl, he, hrest⟩ := List.map_eq_cons_iff.1 h
    obtain ⟨ms, rfl, rfl⟩ := ih hrest
    cases e with
    | option m =>
      obtain rfl := Saying.option.inj he
      exact ⟨m :: ms, rfl, rfl⟩
    | unknown => cases he

/-- Whether a stream says this and misses this value, if any. -/
structure Stream.Lists (s : Stream OptionId) (said : List (Saying OptionId))
    (missing : Option MissingValue) : Prop where
  /-- What is said, in order. -/
  said : s.events.map Event.said = said
  /-- The value that is missing. -/
  missing : s.missing = missing

/-- Streams that say the same are the same up to places. -/
theorem Stream.Lists.same {s s' : Stream OptionId} {said : List (Saying OptionId)}
    {missing : Option MissingValue} (h : s.Lists said missing) (h' : s'.Lists said missing) :
    s.Same (fun _ _ => True) s' := by
  refine ⟨?_, h.missing.trans h'.missing.symm⟩
  have heq := h.said.trans h'.said.symm
  rw [← List.forall₂_eq_eq_eq, List.forall₂_map_left_iff, List.forall₂_map_right_iff] at heq
  exact heq.imp fun e e' h => Event.same_of_said h

theorem Stream.lists_map_option (ms : List (Match OptionId)) (missing : Option MissingValue) :
    (⟨ms.map .option, missing⟩ : Stream OptionId).Lists
      ((ms.map Match.occurrence).map .option) missing :=
  ⟨by simp [Function.comp_def, Event.said], rfl⟩

/-- A stream that says an argument among options is of these options and the argument. -/
theorem Stream.Lists.exists_eq {s : Stream OptionId} {before after : List (Occurrence OptionId)}
    {token : String} {missing : Option MissingValue}
    (h : s.Lists (before.map .option ++ .unknown token :: after.map .option) missing) :
    ∃ (ms ms' : List (Match OptionId)) (index : Nat),
      s = ⟨ms.map .option ++ .unknown index token :: ms'.map .option, missing⟩ ∧
      ms.map Match.occurrence = before ∧ ms'.map Match.occurrence = after := by
  obtain ⟨events, missing'⟩ := s
  obtain ⟨hsaid, rfl⟩ := h
  obtain ⟨front, rest, rfl, hfront, hrest⟩ := List.map_eq_append_iff.1 hsaid
  obtain ⟨e, back, rfl, he, hback⟩ := List.map_eq_cons_iff.1 hrest
  obtain ⟨ms, rfl, rfl⟩ := exists_of_map_said hfront
  obtain ⟨ms', rfl, rfl⟩ := exists_of_map_said hback
  cases e with
  | option m => cases he
  | unknown index token' =>
    obtain rfl := Saying.unknown.inj he
    exact ⟨ms, ms', index, rfl, rfl, rfl⟩

/-- A line of which something is read has an argument to read it from. -/
theorem Table.lt_length_of_read {t : CommandTable} {args : List String} {start : Nat}
    (h : (t.read args start).events ≠ []) : start < args.length := by
  by_contra hle
  refine h ?_
  unfold Table.read Cursor.ofArgs
  rw [List.drop_eq_nil_of_le (Nat.not_lt.1 hle), Cursor.stream_of_done rfl]

end Options

/-! ## Lines -/

/-- Whether one of these options names a guest. -/
def NamesGuest (os : List (Occurrence OptionId)) : Prop := ∃ o ∈ os, o.id = .backupTarget

theorem namesGuest_map {ms : List (Match OptionId)} :
    NamesGuest (ms.map Match.occurrence) ↔ ∃ m ∈ ms, m.id = .backupTarget := by
  simp [NamesGuest, Match.occurrence]

theorem not_namesGuest_of_append {os os' : List (Occurrence OptionId)}
    (h : ¬ NamesGuest (os ++ os')) : ¬ NamesGuest os :=
  fun ⟨o, ho, hid⟩ => h ⟨o, List.mem_append_left _ ho, hid⟩

section Restore

variable {action : Action} {table : CommandTable} {start : Nat} {args args' : List String}
  {token : String} {before after before' after' : List (Occurrence OptionId)}
  {missing : Option MissingValue}

/-- A line that says something is taken by the grammar. -/
theorem readRestoreLine_eq {said : List (Saying OptionId)}
    (h : (table.read args start).Lists said missing) (hsaid : said ≠ []) :
    readRestoreLine action table start args =
      Backup.restoringGrammar.read (Record.ofAction action) (table.read args start) := by
  have hevents : (table.read args start).events ≠ [] := by
    intro hnil
    rw [← h.said, hnil] at hsaid
    exact hsaid rfl
  exact if_neg (Nat.not_le.2 (Table.lt_length_of_read hevents))

/-- A line with an argument is turned down, or is taken as if the argument came first. -/
theorem readRestoreLine_argument
    (h : (table.read args start).Lists
      (before.map .option ++ .unknown token :: after.map .option) missing) :
    (token.toList.head? = some '-' ∨ NamesGuest before →
      (readRestoreLine action table start args).Fails) ∧
    (token.toList.head? ≠ some '-' → ¬ NamesGuest before →
      ∃ ms : List (Match OptionId), ms.map Match.occurrence = before ++ after ∧
        readRestoreLine action table start args =
          Backup.restoringGrammar.read ((Record.ofAction action).aim (some token))
            ⟨ms.map .option, missing⟩) := by
  rw [readRestoreLine_eq h (by simp)]
  obtain ⟨ms, ms', index, hread, rfl, rfl⟩ := h.exists_eq
  rw [hread, namesGuest_map, Grammar.read]
  constructor
  · intro hrefused
    exact (Backup.fails_steps_argument hrefused).bind
  · intro hdash hbefore
    refine ⟨ms ++ ms', by rw [List.map_append], ?_⟩
    rw [Grammar.read, Backup.steps_argument hdash (fun m hm hid => hbefore ⟨m, hm, hid⟩) rfl,
      List.map_append]

/-- **The place of the argument that names the guest.**  Let a line for restoring a backup have one
argument that is no option, and options before and after it.

* It is turned down if the argument looks like an option, or an option before it names a guest.
* It is taken like any line with the same options and without the argument if an option after it,
  but none before it, names a guest.
* It is taken like any line with the argument at another place among the same options if none of
  these names a guest, and is then for the guest that the argument names. -/
theorem restore_target_by_place
    (h : (table.read args start).Lists
      (before.map .option ++ .unknown token :: after.map .option) missing) :
    (token.toList.head? = some '-' ∨ NamesGuest before →
      (readRestoreLine action table start args).Fails) ∧
    (token.toList.head? ≠ some '-' → ¬ NamesGuest before → NamesGuest after →
      ∀ args', (table.read args' start).Lists ((before ++ after).map .option) missing →
        Reading.Alike Eq (readRestoreLine action table start args)
          (readRestoreLine action table start args')) ∧
    (token.toList.head? ≠ some '-' → ¬ NamesGuest (before ++ after) →
      ((readRestoreLine action table start args).Yields fun r => r.target = some token) ∧
      ∀ args' before' after', before' ++ after' = before ++ after →
        (table.read args' start).Lists
          (before'.map .option ++ .unknown token :: after'.map .option) missing →
        Reading.Alike Eq (readRestoreLine action table start args)
          (readRestoreLine action table start args')) := by
  refine ⟨(readRestoreLine_argument h).1, fun hdash hbefore hafter args' h' => ?_,
    fun hdash hnone => ⟨?_, fun args' before' after' hsame h' => ?_⟩⟩
  · obtain ⟨ms, hms, hline⟩ := (readRestoreLine_argument h).2 hdash hbefore
    have hlater : ∃ m ∈ ms, m.id = .backupTarget := by
      rw [← namesGuest_map, hms]
      obtain ⟨o, ho, hid⟩ := hafter
      exact ⟨o, List.mem_append_right _ ho, hid⟩
    have hline' : readRestoreLine action table start args =
        Backup.restoringGrammar.read (Record.ofAction action) ⟨ms.map .option, missing⟩ := by
      rw [hline, Grammar.read, Backup.steps_aim_of_mem hlater]
      rfl
    have hsaid : ((before ++ after).map Saying.option : List (Saying OptionId)) ≠ [] := by
      obtain ⟨o, ho, -⟩ := hafter
      simpa using fun _ => List.ne_nil_of_mem ho
    rw [hline', readRestoreLine_eq h' hsaid]
    exact Backup.placeless_restoringGrammar.read
      ((hms ▸ Stream.lists_map_option ms missing).same h') _
  · obtain ⟨ms, hms, hline⟩ :=
      (readRestoreLine_argument h).2 hdash (not_namesGuest_of_append hnone)
    have hms' : ∀ m ∈ ms, m.id ≠ .backupTarget := by
      intro m hm hid
      exact hnone (hms ▸ namesGuest_map.2 ⟨m, hm, hid⟩)
    rw [hline, Grammar.read, Backup.steps_aim hms', bind_map_left]
    refine Reading.yields_bind fun r => ?_
    cases missing with
    | none => exact Reading.yields_pure rfl
    | some missing => exact Reading.yields_throw
  · obtain ⟨ms, hms, hline⟩ :=
      (readRestoreLine_argument h).2 hdash (not_namesGuest_of_append hnone)
    obtain ⟨ms', hms', hline'⟩ :=
      (readRestoreLine_argument h').2 hdash (not_namesGuest_of_append (hsame ▸ hnone))
    rw [hline, hline']
    have hlists := Stream.lists_map_option ms missing
    have hlists' := Stream.lists_map_option ms' missing
    rw [hms, ← hsame, ← hms'] at hlists
    exact Backup.placeless_restoringGrammar.read (hlists.same hlists') _

end Restore

theorem read_option_first :
    CommandTable.restore.read ["prlctl", "restore", "--vm", "vm2", "vm1"] 2 =
      ⟨[.option ⟨.backupTarget, "--vm", some ⟨"vm2", ⟨3, 0, 3⟩⟩⟩, .unknown 4 "vm1"], none⟩ :=
  Table.read_eq_of_streamWithin (n := 3) (by rfl)

theorem read_argument_first :
    CommandTable.restore.read ["prlctl", "restore", "vm1", "--vm", "vm2"] 2 =
      ⟨[.unknown 2 "vm1", .option ⟨.backupTarget, "--vm", some ⟨"vm2", ⟨4, 0, 3⟩⟩⟩], none⟩ :=
  Table.read_eq_of_streamWithin (n := 3) (by rfl)

/-- The argument `vm1` of a line is turned down after `--vm vm2`, and has no effect before it. -/
theorem restore_with_two_guests :
    (readRestoreLine .restore CommandTable.restore 2
      ["prlctl", "restore", "--vm", "vm2", "vm1"]).Fails ∧
    Reading.Alike Eq
      (readRestoreLine .restore CommandTable.restore 2
        ["prlctl", "restore", "vm1", "--vm", "vm2"])
      (readRestoreLine .restore CommandTable.restore 2 ["prlctl", "restore", "--vm", "vm2"]) := by
  have halone : CommandTable.restore.read ["prlctl", "restore", "--vm", "vm2"] 2 =
      ⟨[.option ⟨.backupTarget, "--vm", some ⟨"vm2", ⟨3, 0, 3⟩⟩⟩], none⟩ :=
    Table.read_eq_of_streamWithin (n := 3) (by rfl)
  let guest : Occurrence OptionId := ⟨.backupTarget, "--vm", some "vm2"⟩
  have hguest : NamesGuest [guest] := ⟨guest, List.mem_singleton.2 rfl, rfl⟩
  have hnone : ¬ NamesGuest [] := fun ⟨_, h, _⟩ => nomatch h
  have hlate : (CommandTable.restore.read ["prlctl", "restore", "--vm", "vm2", "vm1"] 2).Lists
      ([guest].map .option ++ .unknown "vm1" :: [].map .option) none :=
    ⟨by rw [read_option_first]; rfl, by rw [read_option_first]⟩
  have hearly : (CommandTable.restore.read ["prlctl", "restore", "vm1", "--vm", "vm2"] 2).Lists
      ([].map .option ++ .unknown "vm1" :: [guest].map .option) none :=
    ⟨by rw [read_argument_first]; rfl, by rw [read_argument_first]⟩
  constructor
  · exact (restore_target_by_place hlate).1 (.inr hguest)
  · refine (restore_target_by_place hearly).2.1 (by decide) hnone hguest _ ?_
    exact ⟨by rw [halone]; rfl, by rw [halone]⟩

/-- The line `prlctl restore vm1 --vm vm2` is accepted and is for `vm2`, while
`prlctl restore --vm vm2 vm1` is turned down. -/
theorem second_guest_is_taken : ∃ r,
    ((Program.guests.read ["prlctl", "restore", "vm1", "--vm", "vm2"]).perform
      ⟨fun _ => .error "", fun _ => .error ""⟩ .initial).1 = .ok r ∧ r.target = some "vm2" ∧
    ((Program.guests.read ["prlctl", "restore", "--vm", "vm2", "vm1"]).perform
      ⟨fun _ => .error "", fun _ => .error ""⟩ .initial).1 = .error (.refused .secondTarget) := by
  have hread (args : List String) (h : 2 < args.length) :
      readRestoreLine .restore CommandTable.restore 2 args =
        Backup.restoringGrammar.read (Record.ofAction .restore) (CommandTable.restore.read args 2) :=
    if_neg (Nat.not_le.2 h)
  have hfirst : Program.guests.read ["prlctl", "restore", "vm1", "--vm", "vm2"] =
      readRestoreLine .restore CommandTable.restore 2
        ["prlctl", "restore", "vm1", "--vm", "vm2"] :=
    rfl
  have hbehind : Program.guests.read ["prlctl", "restore", "--vm", "vm2", "vm1"] =
      readRestoreLine .restore CommandTable.restore 2
        ["prlctl", "restore", "--vm", "vm2", "vm1"] :=
    rfl
  rw [hfirst, hread _ (by decide), read_argument_first, hbehind, hread _ (by decide),
    read_option_first]
  exact ⟨_, rfl, rfl, rfl⟩

end VmControl
