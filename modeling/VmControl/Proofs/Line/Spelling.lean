import VmControl.Proofs.Options.Spelling
import VmControl.Proofs.Secrecy.Alike

/-!
# The spelling of options on a line about a guest

A line about a guest comes to the same however its options are spelled.  What is made of an option
depends on what it says, and its place matters to nothing but what is wiped.  The one thing that
goes by its place is a command that is run inside the guest: it starts with the first argument that
is no option, and has to be left as it is.

## Main definitions

* `Grammar.Placeless`: a grammar that does not look at places.

## Main statements

* `Grammar.Placeless.read`: streams that are the same but for places are taken alike.
* `readGuestLine_respelled`: so are lines of which one is the other respelled.
-/

namespace VmControl

open Options

/-! ## Grammars -/

theorem eq_of_resultAlike {α : Type} {x y : Except CommandError α} (h : ResultAlike Eq x y) :
    x = y := by
  cases x <;> cases y <;> first | exact h.elim | exact congrArg _ h

theorem text_eq_of_occurrence_eq {m m' : Match OptionId} (h : m.occurrence = m'.occurrence) :
    m.text = m'.text := by
  rw [← m.toMatch_occurrence_text, h, m'.toMatch_occurrence_text]

theorem name_eq_of_occurrence_eq {m m' : Match OptionId} (h : m.occurrence = m'.occurrence) :
    m.name = m'.name :=
  congrArg Occurrence.name h

theorem id_eq_of_occurrence_eq {m m' : Match OptionId} (h : m.occurrence = m'.occurrence) :
    m.id = m'.id :=
  congrArg Occurrence.id h

/-- Whether a grammar does not look at places. -/
structure Grammar.Placeless {α : Type} (g : Grammar α) : Prop where
  /-- The place of an argument does not matter. -/
  argument : ∀ i i' token a, Reading.Alike Eq (g.argument i token a) (g.argument i' token a)
  /-- The place of an option does not matter. -/
  option : ∀ m m' a, m.occurrence = m'.occurrence →
    Reading.Alike Eq (g.option m a) (g.option m' a)

/-- The place of a login does not matter. -/
theorem alike_readLogin_of_occurrence {m m' : Match OptionId} (h : m.occurrence = m'.occurrence) :
    Reading.Alike Eq (readLogin m) (readLogin m') := by
  unfold readLogin
  rw [← text_eq_of_occurrence_eq h, ← name_eq_of_occurrence_eq h]
  refine (Reading.alike_wipe _ _).bind fun _ _ _ => ?_
  cases LoginText.read m.text with
  | some login => exact Reading.alike_pure rfl
  | none => exact Reading.alike_throw _

/-- The place of an option of every command does not matter. -/
theorem alike_readCommonOption_of_occurrence {m m' : Match OptionId}
    (h : m.occurrence = m'.occurrence) :
    Reading.Alike Eq (readCommonOption m) (readCommonOption m') := by
  have hprefer (f : Preferences → Preferences) : Reading.Alike Eq
      (do Reading.prefer f; return some id : Reading (Option (Login → Login)))
      (do Reading.prefer f; return some id) :=
    (Reading.wipes_prefer f).alike_self.bind fun _ _ _ => Reading.alike_pure rfl
  unfold readCommonOption
  rw [← id_eq_of_occurrence_eq h, ← text_eq_of_occurrence_eq h]
  split
  case h_1 =>
    exact (alike_readLogin_of_occurrence h).bind fun t t' ht => ht ▸ Reading.alike_pure rfl
  case h_2 =>
    have hwipes : (readPasswordFile m.text).Wipes [] := by simp [readPasswordFile]
    exact hwipes.alike_self.bind fun p p' hp => hp ▸ Reading.alike_pure rfl
  case h_6 => exact Reading.alike_pure rfl
  all_goals exact hprefer _

namespace Grammar.Placeless

variable {α : Type} {g : Grammar α} {R : Nat → Nat → Prop}

theorem step (hg : g.Placeless) {event event' : Event OptionId} (h : event.Same R event') (a : α) :
    Reading.Alike Eq (g.step a event) (g.step a event') := by
  cases h with
  | @unknown i i' token => exact hg.argument i i' token a
  | option h =>
    refine (Reading.alike_enter _ _).bind fun _ _ _ => ?_
    refine (alike_readCommonOption_of_occurrence h).bind fun f f' hf => ?_
    subst hf
    cases f with
    | some f => exact Reading.alike_pure rfl
    | none => exact hg.option _ _ a h

theorem steps (hg : g.Placeless) {events events' : List (Event OptionId)}
    (h : List.Forall₂ (Event.Same R) events events') (a : α) :
    Reading.Alike Eq (g.steps a events) (g.steps a events') := by
  induction h generalizing a with
  | nil => exact Reading.alike_pure rfl
  | cons h _ ih =>
    unfold Grammar.steps at ih ⊢
    rw [List.foldlM_cons, List.foldlM_cons]
    exact (hg.step h a).bind fun a b hab => hab ▸ ih a

/-- **Streams that are the same but for places are taken alike.** -/
theorem read (hg : g.Placeless) {s s' : Stream OptionId} (h : s.Same R s') (a : α) :
    Reading.Alike Eq (g.read a s) (g.read a s') := by
  refine (hg.steps h.events a).bind fun a b hab => ?_
  rw [← hab, ← h.missing]
  cases s.missing with
  | none => exact Reading.alike_pure rfl
  | some missing => exact Reading.alike_throw _

end Grammar.Placeless

namespace Draft

theorem applyPure_of_occurrence {m m' : Match OptionId} (h : m.occurrence = m'.occurrence)
    (d : Draft) : d.applyPure m = d.applyPure m' := by
  simp only [applyPure, id_eq_of_occurrence_eq h, name_eq_of_occurrence_eq h,
    text_eq_of_occurrence_eq h]

theorem alike_apply_of_occurrence {m m' : Match OptionId} (h : m.occurrence = m'.occurrence)
    (d : Draft) : Reading.Alike Eq (d.apply m) (d.apply m') := by
  unfold apply
  rw [← id_eq_of_occurrence_eq h, ← text_eq_of_occurrence_eq h, ← applyPure_of_occurrence h]
  cases d.conflict? m.id with
  | some u => exact Reading.alike_throw u
  | none =>
    dsimp only
    split
    case h_1 => exact Reading.alike_throw _
    case h_2 =>
      split
      · exact Reading.alike_pure rfl
      · exact Reading.Wipes.alike_self (wipes_showGuests _ _ _ _)
    case h_3 =>
      split
      · exact Reading.alike_pure rfl
      · exact Reading.Wipes.alike_self (wipes_showGuests _ _ _ _)
    case h_4 =>
      split
      · exact Reading.alike_pure rfl
      · exact (Reading.wipes_write _).alike_self.bind fun _ _ _ => Reading.alike_pure rfl
    case h_5 s _ =>
      -- A credential is wiped where it stands, which shows in neither the result nor the notes.
      have happly := (Reading.wipes_ofExcept (d.applyPure m)).alike_self
      cases s.isCredential with
      | true => exact (Reading.alike_wipe _ _).bind fun _ _ _ => happly
      | false => exact happly
    case h_6 => exact (Reading.wipes_ofExcept _).alike_self

theorem placeless_grammar : grammar.Placeless where
  argument i _ token d := (wipes_grammar.argument i token d).alike_self
  option _ _ d h := alike_apply_of_occurrence h d

end Draft

/-! ## Lines -/

/-- Events that are the same but for places have the same options before the first argument that is
none, and the places of that argument are related. -/
theorem splitGuestCommand_same {R : Nat → Nat → Prop} {events events' : List (Event OptionId)}
    (h : List.Forall₂ (Event.Same R) events events') :
    List.Forall₂ (Event.Same R) (splitGuestCommand events).1 (splitGuestCommand events').1 ∧
      Option.Rel R (splitGuestCommand events).2 (splitGuestCommand events').2 := by
  induction h with
  | nil => exact ⟨.nil, .none⟩
  | cons h _ ih =>
    cases h with
    | unknown h => exact ⟨.nil, .some h⟩
    | option h => exact ⟨.cons (.option h) ih.1, ih.2⟩

/-- Whether options may be spelled in another way after these events on a line of this action.  If
the line ends in a command that is run inside the guest they have to stand before it. -/
def Action.MayRespellAfter (action : Action) (events : List (Event OptionId)) : Prop :=
  action.takesGuestCommand = true → ∀ i token, .unknown i token ∉ events

theorem alike_readGuestLine_of_respelling {action : Action} {table : CommandTable} {offset : Nat}
    {args args' : List String}
    (h : Respelling table (offset + 1) action.MayRespellAfter args args') :
    Reading.Alike Eq (readGuestLine action table offset args)
      (readGuestLine action table offset args') := by
  have htarget : args[offset]? = args'[offset]? := by
    obtain @⟨front, before, after, span, span', events, hfront, -, -, -⟩ := h
    rw [List.getElem?_append_left (by omega), List.getElem?_append_left (by omega)]
  -- Places are taken for the same if the lines are from there on, which is what the command that is
  -- run inside the guest is made of.
  have hsame := h.stream
    (R := fun i i' => action.takesGuestCommand = true → args.drop i = args'.drop i')
    (fun events hevents event hmem => ?_) fun i i' hdrop _ => hdrop
  · obtain ⟨hbefore, hcut⟩ := splitGuestCommand_same hsame.events
    have hread (d : Draft) : Reading.Alike Eq
        (do let d ← Draft.grammar.read d (table.read args (offset + 1))
            let r ← Reading.ofExcept d.finish
            r.settle)
        (do let d ← Draft.grammar.read d (table.read args' (offset + 1))
            let r ← Reading.ofExcept d.finish
            r.settle) := by
      refine (Draft.placeless_grammar.read hsame d).bind fun d d' hd => ?_
      subst hd
      refine (Reading.wipes_ofExcept d.finish).alike_self.bind fun r r' hr => ?_
      subst hr
      exact (wipes_settle r).alike_self
    unfold readGuestLine
    dsimp only
    rw [htarget]
    cases htakes : action.takesGuestCommand with
    | false => exact hread _
    | true =>
      rw [if_pos rfl, if_pos rfl]
      generalize (splitGuestCommand (table.read args (offset + 1)).events).2 = index at hcut ⊢
      generalize (splitGuestCommand (table.read args' (offset + 1)).events).2 = index' at hcut ⊢
      cases hcut with
      | none => exact hread _
      | some hindex =>
        dsimp only
        rw [hindex htakes]
        exact (Draft.placeless_grammar.steps hbefore _).bind fun d d' hd =>
          hd ▸ Reading.alike_pure rfl
  · cases event with
    | option m => exact .option rfl
    | unknown i token => exact .unknown fun htakes => absurd hmem (hevents htakes i token)

/-- **A line is read as the same however its options are spelled**, and a line about a guest comes
to the same record or the same error, with the same written to the user and the same preferences. -/
theorem readGuestLine_respelled :
    (∀ (ι : Type) (t : Table ι) (start : Nat) (args args' : List String),
      Respelled t start (fun _ => True) args args' →
      (t.read args start).events.map Event.said = (t.read args' start).events.map Event.said ∧
        (t.read args start).missing = (t.read args' start).missing) ∧
    ∀ (action : Action) (table : CommandTable) (offset : Nat) (args args' : List String),
      Respelled table (offset + 1) action.MayRespellAfter args args' →
      ∀ (host : Host) (p : Preferences),
        let x := (readGuestLine action table offset args).perform host p
        let y := (readGuestLine action table offset args').perform host p
        x.1 = y.1 ∧ x.2.notes = y.2.notes ∧ x.2.preferences = y.2.preferences := by
  refine ⟨fun ι t start args args' h => Table.said_of_respelled h,
    fun action table offset args args' h host p => ?_⟩
  induction h with
  | rel args args' h =>
    obtain ⟨hresult, heffects⟩ := alike_readGuestLine_of_respelling h host (.start p) (.start p)
      ⟨rfl, rfl⟩
    exact ⟨eq_of_resultAlike hresult, heffects.notes, heffects.preferences⟩
  | refl args => exact ⟨rfl, rfl, rfl⟩
  | symm args args' _ ih => exact ⟨ih.1.symm, ih.2.1.symm, ih.2.2.symm⟩
  | trans args args' args'' _ _ ih ih' =>
    exact ⟨ih.1.trans ih'.1, ih.2.1.trans ih'.2.1, ih.2.2.trans ih'.2.2⟩

/-- It makes no difference whether the line is `prlctl list -aoid --sort=name` or
`prlctl list -a -o id --sort name`. -/
theorem list_line_respelled :
    let args := ["prlctl", "list", "-aoid", "--sort=name"]
    let args' := ["prlctl", "list", "-a", "-o", "id", "--sort", "name"]
    ((CommandTable.list.read args 2).events.map Event.said =
        (CommandTable.list.read args' 2).events.map Event.said ∧
      (CommandTable.list.read args 2).missing = (CommandTable.list.read args' 2).missing) ∧
    ∀ (host : Host) (p : Preferences),
      let x := (readGuestLine .list CommandTable.list 1 args).perform host p
      let y := (readGuestLine .list CommandTable.list 1 args').perform host p
      x.1 = y.1 ∧ x.2.notes = y.2.notes ∧ x.2.preferences = y.2.preferences := by
  intro args args'
  have hall : CommandTable.list.findShort? 'a' =
      some ((Entry.flag "all" (.setting (.mark .listAll))).withShort 'a') := by rfl
  have houtput : CommandTable.list.findShort? 'o' =
      some ((Entry.value "output" (.setting (.text .listFields))).withShort 'o') := by rfl
  have hsort : CommandTable.list.findLong? "sort" =
      some ((Entry.value "sort" (.setting (.text .listSort))).withShort 's') := by rfl
  have hcluster : Spelling CommandTable.list ["-aoid"] ["-a", "-oid"] :=
    .cluster (.flag hall rfl (by decide) (.value houtput rfl (by decide)))
  have hshort : Spelling CommandTable.list ["-oid"] ["-o", "id"] :=
    .short "id" houtput rfl (by decide) (by decide)
  have hlong : Spelling CommandTable.list ["--sort=name"] ["--sort", "name"] :=
    .long "name" hsort rfl (by decide) (by decide)
  have hfirst := Table.read_eq_iff_pieces.1
    (Table.read_eq_of_streamWithin (t := CommandTable.list) (n := 2) (by rfl) :
      CommandTable.list.read ["prlctl", "list", "-a"] 2 = _)
  have hboth := Table.read_eq_iff_pieces.1
    (Table.read_eq_of_streamWithin (t := CommandTable.list) (n := 3) (by rfl) :
      CommandTable.list.read ["prlctl", "list", "-a", "-o", "id"] 2 = _)
  have hrespelled (P : List (Event OptionId) → Prop) (hP : ∀ events, P events) :
      Respelled CommandTable.list 2 P args args' := by
    refine .trans _ ["prlctl", "list", "-a", "-oid", "--sort=name"] _ (.rel _ _ ?_)
      (.trans _ ["prlctl", "list", "-a", "-o", "id", "--sort=name"] _ (.rel _ _ ?_) (.rel _ _ ?_))
    · exact .mk ["prlctl", "list"] [] ["--sort=name"] rfl (.nil 2) (hP _) hcluster
    · exact .mk ["prlctl", "list"] ["-a"] ["--sort=name"] rfl hfirst (hP _) hshort
    · exact .mk ["prlctl", "list"] ["-a", "-o", "id"] [] rfl hboth (hP _) hlong
  exact ⟨readGuestLine_respelled.1 _ _ _ _ _ (hrespelled _ fun _ => trivial),
    readGuestLine_respelled.2 .list _ 1 _ _ (hrespelled _ fun _ h => nomatch h)⟩

end VmControl
