/-!
# Option tables

A table lists the options of one command, each with its names, whether it takes a value, and the
id under which the command knows it.  Aliases are entries with one id.  A look-up answers the
first entry that carries the name.
-/

namespace VmControl.Options

/-- One option of a command. -/
structure Entry (ι : Type) where
  /-- The name after `--`. -/
  long : Option String
  /-- The character after `-`. -/
  short : Option Char
  /-- Whether a value follows. -/
  takesValue : Bool
  /-- What the option means to the command. -/
  id : ι
  deriving DecidableEq, Repr

namespace Entry

variable {ι : Type}

/-- A long option without a value. -/
def flag (name : String) (id : ι) : Entry ι := ⟨some name, none, false, id⟩

/-- A long option with a value. -/
def value (name : String) (id : ι) : Entry ι := ⟨some name, none, true, id⟩

/-- An option without a value that has no long name. -/
def shortFlag (c : Char) (id : ι) : Entry ι := ⟨none, some c, false, id⟩

/-- The same option with a short name besides. -/
def withShort (e : Entry ι) (c : Char) : Entry ι := { e with short := some c }

/-- The names of the entry that some entry of `earlier` has too, as they are spelled. -/
def sharedNames (earlier : List (Entry ι)) (e : Entry ι) : List String :=
  let long := match e.long with
    | some name => if earlier.any (·.long == some name) then ["--" ++ name] else []
    | none => []
  let short := match e.short with
    | some c => if earlier.any (·.short == some c) then ["-" ++ String.singleton c] else []
    | none => []
  long ++ short

end Entry

/-- The options of one command, in the order in which a look-up tries them. -/
structure Table (ι : Type) where
  /-- The entries in order. -/
  entries : List (Entry ι)
  deriving DecidableEq, Repr

namespace Table

variable {ι : Type}

instance : Append (Table ι) where
  append s t := ⟨s.entries ++ t.entries⟩

/-- The first entry with the long name. -/
def findLong? (t : Table ι) (name : String) : Option (Entry ι) :=
  t.entries.find? (·.long == some name)

/-- The first entry with the short name. -/
def findShort? (t : Table ι) (c : Char) : Option (Entry ι) :=
  t.entries.find? (·.short == some c)

/-- The number of entries. -/
def size (t : Table ι) : Nat := t.entries.length

/-- Whether the table has no entry. -/
def isEmpty (t : Table ι) : Bool := t.entries.isEmpty

/-- The names of each entry that an earlier entry has already, in table order. -/
def duplicateNames (t : Table ι) : List String :=
  go [] t.entries
where
  /-- The duplicates among the entries that follow `earlier`. -/
  go (earlier : List (Entry ι)) : List (Entry ι) → List String
    | [] => []
    | e :: es => e.sharedNames earlier ++ go (earlier ++ [e]) es

@[simp] theorem entries_append (s t : Table ι) : (s ++ t).entries = s.entries ++ t.entries := rfl

end Table

end VmControl.Options
