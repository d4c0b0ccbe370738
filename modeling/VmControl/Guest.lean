/-!
# Guest systems

The guest systems that a machine can be created for: the generic types and the particular
versions, each with its family, and the listing of their names.
-/

namespace VmControl

/-- A family of operating systems. -/
inductive GuestFamily where
  | windows
  | linux
  | macOs
  | freeBsd
  | os2
  | msDos
  | netware
  | solaris
  | chromeOs
  | other
  deriving DecidableEq, Repr

/-- A guest system by its name. -/
structure Guest where
  /-- The name that selects it. -/
  name : String
  /-- The family that it belongs to. -/
  family : GuestFamily
  deriving DecidableEq, Repr

namespace Guest

/-- The generic types. -/
def types : List Guest :=
  [⟨"windows", .windows⟩, ⟨"win", .windows⟩, ⟨"linux", .linux⟩, ⟨"lin", .linux⟩, ⟨"macos", .macOs⟩,
   ⟨"freebsd", .freeBsd⟩, ⟨"os2", .os2⟩, ⟨"msdos", .msDos⟩, ⟨"netware", .netware⟩,
   ⟨"solaris", .solaris⟩, ⟨"other", .other⟩]

/-- The particular versions. -/
def versions : List Guest :=
  [⟨"win-2000", .windows⟩, ⟨"win-xp", .windows⟩, ⟨"win-2003", .windows⟩, ⟨"win-vista", .windows⟩,
   ⟨"win-2008", .windows⟩, ⟨"win-7", .windows⟩, ⟨"win-8", .windows⟩, ⟨"win-2012", .windows⟩,
   ⟨"win-8.1", .windows⟩, ⟨"win", .windows⟩, ⟨"rhel", .linux⟩, ⟨"rhel7", .linux⟩, ⟨"suse", .linux⟩,
   ⟨"debian", .linux⟩, ⟨"fedora-core", .linux⟩, ⟨"fc", .linux⟩, ⟨"xandros", .linux⟩,
   ⟨"ubuntu", .linux⟩, ⟨"mandriva", .linux⟩, ⟨"mandrake", .linux⟩, ⟨"centos", .linux⟩,
   ⟨"centos7", .linux⟩, ⟨"psbm", .linux⟩, ⟨"redhat", .linux⟩, ⟨"opensuse", .linux⟩,
   ⟨"linux-2.4", .linux⟩, ⟨"linux-2.6", .linux⟩, ⟨"linux", .linux⟩, ⟨"mageia", .linux⟩,
   ⟨"mint", .linux⟩, ⟨"macosx", .macOs⟩, ⟨"tiger", .macOs⟩, ⟨"macos-10.4", .macOs⟩,
   ⟨"leopard", .macOs⟩, ⟨"macos-10.5", .macOs⟩, ⟨"snowleopard", .macOs⟩, ⟨"macos-10.6", .macOs⟩,
   ⟨"freebsd-4", .freeBsd⟩, ⟨"freebsd-5", .freeBsd⟩, ⟨"freebsd-6", .freeBsd⟩,
   ⟨"freebsd-7", .freeBsd⟩, ⟨"freebsd-8", .freeBsd⟩, ⟨"freebsd", .freeBsd⟩,
   ⟨"chrome-1", .chromeOs⟩, ⟨"chrome", .chromeOs⟩]

/-- The generic type with this name. -/
def findType? (name : String) : Option Guest := types.find? (·.name == name)

/-- The version with this name. -/
def findVersion? (name : String) : Option Guest := versions.find? (·.name == name)

/-- The text with blanks behind it up to 16 characters. -/
def padded (s : String) : String :=
  s ++ String.ofList (List.replicate (16 - s.length) ' ')

/-- The names in padded columns, four to a row. -/
def listing (guests : List Guest) : String :=
  let cell := fun (guest, i) => padded guest.name ++ (if (i + 1) % 4 = 0 then "\n" else "\t")
  "\n" ++ String.join (guests.zipIdx.map cell) ++ "\n"

end Guest

end VmControl
