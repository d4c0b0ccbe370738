/-!
# Secrets

A secret is a text that is never shown: its display says only that it is there.  Passwords that
wait to be used stand in a queue, from which each is taken once and in the order in which they
came.
-/

namespace VmControl

/-- A text that is not to be shown. -/
structure Secret where
  /-- The text itself. -/
  text : String
  deriving DecidableEq

/-- Whether the secret is the empty text. -/
def Secret.isEmpty (s : Secret) : Bool := s.text == ""

/-- What is shown of a secret. -/
def Secret.redacted (_ : Secret) : String := "Secret(***)"

/-- Secrets that wait to be used. -/
structure PendingSecrets where
  /-- The secrets, the oldest first. -/
  toList : List Secret
  deriving DecidableEq

namespace PendingSecrets

/-- No secret waits. -/
def empty : PendingSecrets := ⟨[]⟩

instance : EmptyCollection PendingSecrets := ⟨empty⟩

/-- Adds the newest secret. -/
def push (p : PendingSecrets) (s : Secret) : PendingSecrets := ⟨p.toList ++ [s]⟩

/-- The oldest secret, and those that are left. -/
def take (p : PendingSecrets) : Option Secret × PendingSecrets :=
  match p.toList with
  | [] => (none, p)
  | s :: rest => (some s, ⟨rest⟩)

/-- How many secrets wait. -/
def size (p : PendingSecrets) : Nat := p.toList.length

/-- Whether no secret waits. -/
def isEmpty (p : PendingSecrets) : Bool := p.toList.isEmpty

/-- What is shown of the secrets: how many there are. -/
def redacted (p : PendingSecrets) : String := s!"SecretStack({p.size} pending)"

@[simp] theorem toList_empty : (∅ : PendingSecrets).toList = [] := rfl

@[simp] theorem toList_push (p : PendingSecrets) (s : Secret) :
    (p.push s).toList = p.toList ++ [s] := rfl

/-- What is taken and what is left make up what there was. -/
theorem toList_take (p : PendingSecrets) :
    p.take.1.toList ++ p.take.2.toList = p.toList := by
  unfold take
  split <;> simp_all

end PendingSecrets

end VmControl
