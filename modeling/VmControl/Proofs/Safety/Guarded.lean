import VmControl.Line.Guest
import VmControl.Proofs.Safety.Address
import VmControl.Proofs.Safety.Value

/-!
# Reading lines with computations that may trap

A guarded reading asks the host and has effects as a reading does, and may trap.  Where a line is
walked over by position, the walk is a loop: each round takes one step, and what the step delivers
is taken at once.  It comes to the same as reading the whole line first and taking what was
delivered afterwards.

## Main definitions

* `Guarded`: readings that may trap, with `Guarded.lift` and `Guarded.check` for those that do not
  and for computations that need no host.
* `Guarded.Grammar`: a grammar with the values of its options read by position.
* `Guarded.Grammar.walk`: the loop over a line.

## Main statements

* `Guarded.Grammar.walk_eq`: the loop ends after as many rounds as there are bytes and arguments,
  and does not trap.
-/

namespace VmControl

open Numeral Options Text

/-- A computation that reads a command line or a part of it, and may trap. -/
abbrev Guarded (α : Type) := ReaderT Host (ExceptT CommandError (StateT Effects Checked)) α

namespace Guarded

variable {α β : Type}

/-- What a guarded reading comes to on a host unless it traps, with what has been done then. -/
def after (x : Guarded α) (host : Host) (e : Effects) : Checked (Except CommandError α × Effects) :=
  ((x.run host).run).run e

/-- A reading that does not trap. -/
def lift (x : Reading α) : Guarded α := fun host e => .ok (x.after host e)

/-- A computation that needs no host. -/
def check (x : Checked α) : Guarded α := fun _ e => x.map fun a => (.ok a, e)

/-- A result that needs no effect. -/
def ofExcept (x : Except CommandError α) : Guarded α := lift (Reading.ofExcept x)

/-! ### Nothing is lost by lifting -/

@[simp] theorem after_lift (x : Reading α) (host : Host) (e : Effects) :
    (lift x).after host e = .ok (x.after host e) :=
  rfl

@[simp] theorem lift_pure (a : α) : lift (pure a) = pure a := rfl

@[simp] theorem lift_throw (u : CommandError) : lift (throw u : Reading α) = throw u := rfl

@[simp] theorem lift_bind (x : Reading α) (f : α → Reading β) :
    lift (x >>= f) = lift x >>= fun a => lift (f a) := by
  funext host e
  show Except.ok ((x >>= f).after host e) = _
  rw [Reading.after_bind]
  rcases hx : x.after host e with ⟨_ | a, e'⟩ <;>
    simp only [lift, hx, bind, ReaderT.bind, ExceptT.bind, ExceptT.mk, StateT.bind, Except.bind,
      ExceptT.bindCont]
  rfl

@[simp] theorem check_ok (a : α) : check (.ok a) = pure a := rfl

@[simp] theorem ofExcept_ok (a : α) : ofExcept (.ok a) = pure a := rfl

@[simp] theorem ofExcept_pure (a : α) : ofExcept (pure a) = pure a := rfl

@[simp] theorem ofExcept_error (u : CommandError) : ofExcept (.error u : Except _ α) = throw u := rfl

@[simp] theorem ofExcept_bind (x : Except CommandError α) (f : α → Except CommandError β) :
    ofExcept (x >>= f) = ofExcept x >>= fun a => ofExcept (f a) := by
  cases x with
  | error u => rfl
  | ok a => rw [ofExcept_ok, pure_bind]; rfl

/-! ## Options of every command -/

/-- A login, which is wiped even if it is not well formed. -/
def readLogin (m : Match OptionId) : Guarded LoginText := do
  lift (Reading.wipe m.slot?)
  match ← check (Checked.readLogin m.text) with
  | some login => return login
  | none => throw (.badSecret m.name)

theorem readLogin_eq (m : Match OptionId) : readLogin m = lift (VmControl.readLogin m) := by
  simp only [readLogin, VmControl.readLogin, Checked.readLogin_eq, check_ok, lift_bind, pure_bind]
  cases LoginText.read m.text <;> rfl

/-- The first line of a file. -/
def readPasswordFile (path : String) : Guarded Secret := do
  let text ← lift (Reading.readFile path)
  let line ← check (Checked.firstLine text.toList)
  return ⟨String.ofList line⟩

theorem readPasswordFile_eq (path : String) :
    readPasswordFile path = lift (VmControl.readPasswordFile path) := by
  simp only [readPasswordFile, VmControl.readPasswordFile, Checked.firstLine_eq, check_ok,
    lift_bind, lift_pure, pure_bind]

/-- What an option of every command does to the login. -/
def readCommonOption (m : Match OptionId) : Guarded (Option (Login → Login)) := do
  match m.id with
  | .login =>
    let login ← readLogin m
    return some (·.assign login)
  | .readPassword =>
    let password ← readPasswordFile m.text
    return some (·.push password)
  | .verbose =>
    let n ← check (Checked.leading m.text.toList)
    lift (Reading.prefer fun p => { p with verbosity := n })
    return some id
  | .timeout =>
    let n ← check (Checked.leading m.text.toList)
    lift (Reading.prefer fun p => { p with timeout := some n.toNat })
    return some id
  | _ => lift (VmControl.readCommonOption m)

theorem readCommonOption_eq (m : Match OptionId) :
    readCommonOption m = lift (VmControl.readCommonOption m) := by
  unfold readCommonOption
  split
  · next h => simp only [readLogin_eq, VmControl.readCommonOption, h, lift_bind, lift_pure]
  · next h => simp only [readPasswordFile_eq, VmControl.readCommonOption, h, lift_bind, lift_pure]
  · next h =>
    simp only [Checked.leading_eq, VmControl.readCommonOption, h, check_ok, pure_bind, lift_bind,
      lift_pure]
  · next h =>
    simp only [Checked.leading_eq, VmControl.readCommonOption, h, check_ok, pure_bind, lift_bind,
      lift_pure]
  · rfl

/-! ## The walk over a line -/

/-- A grammar with the values of its options read by position. -/
structure Grammar (α : Type) where
  /-- The grammar itself. -/
  grammar : VmControl.Grammar α
  /-- Takes an option that is not one of every command. -/
  option : Match OptionId → α → Guarded α
  /-- Nothing traps. -/
  option_eq : ∀ m a, option m a = lift (grammar.option m a)

namespace Grammar

/-- A grammar whose options have values that are taken as they stand. -/
def verbatim (g : VmControl.Grammar α) : Grammar α := ⟨g, fun m a => lift (g.option m a), fun _ _ => rfl⟩

/-- Takes one option or argument. -/
def step (g : Grammar α) (a : α) (e : Event OptionId) : Guarded α :=
  match e with
  | .unknown index token => lift (g.grammar.argument index token a)
  | .option m => do
    lift (Reading.enter m)
    match ← readCommonOption m with
    | some f => return g.grammar.mapLogin f a
    | none => g.option m a

theorem step_eq (g : Grammar α) (a : α) (e : Event OptionId) :
    g.step a e = lift (g.grammar.step a e) := by
  cases e with
  | unknown index token => rfl
  | option m =>
    simp only [step, VmControl.Grammar.step, readCommonOption_eq, lift_bind]
    refine bind_congr fun _ => bind_congr fun f => ?_
    cases f with
    | some f => rfl
    | none => exact g.option_eq m a

/-- The loop over a line.  If it `stops`, it does so at the first argument that is no option, and
tells where that is. -/
def walk (g : Grammar α) (t : CommandTable) (args : List String) (stops : Bool) :
    Nat → Position → α → Guarded (α × Option Nat)
  | 0, _, _ => check (.error .endless)
  | rounds + 1, p, a => do
    let (outcome, p) ← check ((p.step args t).mapError .position)
    match outcome with
    | .error missing => throw (.missingValue missing.name)
    | .ok none => return (a, none)
    | .ok (some (.unknown index token)) =>
      if stops then return (a, some index)
      let a ← g.step a (.unknown index token)
      g.walk t args stops rounds p a
    | .ok (some (.option m)) =>
      let a ← g.step a (.option m)
      g.walk t args stops rounds p a

end Grammar

end Guarded

/-- Takes a stream to its end or, if it `stops`, up to the first argument that is no option. -/
def Grammar.readTo {α : Type} (g : Grammar α) (stops : Bool) (a : α) (s : Stream OptionId) :
    Reading (α × Option Nat) := do
  match if stops then (splitGuestCommand s.events).2 else none with
  | some index =>
    let a ← g.steps a (splitGuestCommand s.events).1
    return (a, some index)
  | none =>
    let a ← g.read a s
    return (a, none)

namespace Grammar

variable {α : Type} (g : Grammar α) (stops : Bool) (a : α)

theorem readTo_nil (missing : Option MissingValue) :
    g.readTo stops a ⟨[], missing⟩ =
      match missing with
      | none => return (a, none)
      | some m => throw (.missingValue m.name) := by
  cases stops <;> cases missing <;> rfl

theorem read_cons (e : Event OptionId) (s : Stream OptionId) :
    g.read a { s with events := e :: s.events } = g.step a e >>= fun a => g.read a s := by
  simp only [read, steps, List.foldlM_cons, bind_assoc]

theorem readTo_option (m : Match OptionId) (s : Stream OptionId) :
    g.readTo stops a { s with events := .option m :: s.events } =
      g.step a (.option m) >>= fun a => g.readTo stops a s := by
  cases stops with
  | false => simp only [readTo, Bool.false_eq_true, if_false, read_cons, bind_assoc]
  | true =>
    simp only [readTo, if_true, splitGuestCommand]
    cases (splitGuestCommand s.events).2 with
    | none => simp only [read_cons, bind_assoc]
    | some index => simp only [steps, List.foldlM_cons, bind_assoc]

theorem readTo_unknown (index : Nat) (token : String) (s : Stream OptionId) :
    g.readTo stops a { s with events := .unknown index token :: s.events } =
      if stops then return (a, some index)
      else g.step a (.unknown index token) >>= fun a => g.readTo stops a s := by
  cases stops with
  | false => simp only [readTo, Bool.false_eq_true, if_false, read_cons, bind_assoc]
  | true => rfl

end Grammar

namespace Guarded

variable {α : Type}

/-- One round takes what one step delivers. -/
theorem Grammar.walk_succ (g : Grammar α) (t : CommandTable) {args : List String} {c : Cursor}
    (stops : Bool) (rounds : Nat) (a : α) (hon : c.On args) :
    g.walk t args stops (rounds + 1) c.position a =
      match (c.step t).1 with
      | .error missing => throw (.missingValue missing.name)
      | .ok none => pure (a, none)
      | .ok (some (.unknown index token)) =>
        if stops then pure (a, some index)
        else lift (g.grammar.step a (.unknown index token)) >>=
          g.walk t args stops rounds (c.step t).2.position
      | .ok (some (.option m)) =>
        lift (g.grammar.step a (.option m)) >>= g.walk t args stops rounds (c.step t).2.position := by
  have hstep : (c.position.step args t).mapError Trap.position =
      .ok ((c.step t).1, (c.step t).2.position) := by
    rw [hon.step_position]
    rfl
  rw [walk, hstep, check_ok, pure_bind]
  rcases (c.step t).1 with missing | _ | m | ⟨index, token⟩
  · rfl
  · rfl
  · simp only [step_eq]
  · cases stops <;> simp only [step_eq, if_true, if_false, Bool.false_eq_true]

/-- **The loop over a line ends**, after as many rounds as there are bytes and arguments, and comes
to what reading the line first comes to. -/
theorem Grammar.walk_eq (g : Grammar α) (t : CommandTable) {args : List String} {c : Cursor}
    (stops : Bool) {rounds : Nat} (a : α) (hon : c.On args) (hrounds : c.unreadSize < rounds) :
    g.walk t args stops rounds c.position a =
      lift (g.grammar.readTo stops a (c.stream t)) := by
  induction rounds generalizing c a with
  | zero => omega
  | succ rounds ih =>
    rw [g.walk_succ t stops rounds a hon]
    rcases hstep : c.step t with ⟨missing | _ | event, next⟩
    · rw [Cursor.stream_of_missing hstep, VmControl.Grammar.readTo_nil]
      rfl
    · rw [Cursor.stream_of_done hstep, VmControl.Grammar.readTo_nil]
      rfl
    · have hnext : next = (c.step t).2 := by rw [hstep]
      have hless := c.unread_step_lt t (by simp [hstep, Except.toOption])
      have hrest (a : α) : g.walk t args stops rounds next.position a =
          lift (g.grammar.readTo stops a (next.stream t)) := by
        subst hnext
        exact ih a (hon.step t) (by omega)
      rw [Cursor.stream_of_step hstep]
      cases event with
      | option m => simp only [VmControl.Grammar.readTo_option, lift_bind, funext hrest]
      | unknown index token =>
        simp only [VmControl.Grammar.readTo_unknown, funext hrest]
        cases stops <;> simp

/-- The loop from the argument at `start` on, for as many rounds as there are bytes and arguments,
and one to find the end. -/
def Grammar.walkFrom (g : Grammar α) (t : CommandTable) (args : List String) (stops : Bool)
    (start : Nat) (a : α) : Guarded (α × Option Nat) :=
  let p : Position := ⟨start, none⟩
  g.walk t args stops (p.unreadSize args + 1) p a

theorem Grammar.walkFrom_eq (g : Grammar α) (t : CommandTable) (args : List String) (stops : Bool)
    (start : Nat) (a : α) :
    g.walkFrom t args stops start a = lift (g.grammar.readTo stops a (t.read args start)) := by
  have hon := Cursor.on_ofArgs args start
  refine g.walk_eq t stops a hon ?_
  rw [← hon.unreadSize_position]
  exact Nat.lt_succ_self _

/-- Reads a line to its end from the argument at `start` on. -/
def Grammar.read (g : Grammar α) (t : CommandTable) (args : List String) (start : Nat) (a : α) :
    Guarded α := do
  let (a, _) ← g.walkFrom t args false start a
  return a

theorem Grammar.read_eq (g : Grammar α) (t : CommandTable) (args : List String) (start : Nat)
    (a : α) : g.read t args start a = lift (g.grammar.read a (t.read args start)) := by
  rw [read, walkFrom_eq, VmControl.Grammar.readTo]
  simp only [Bool.false_eq_true, if_false, lift_bind, lift_pure, bind_assoc, pure_bind, bind_pure]

end Guarded

end VmControl
