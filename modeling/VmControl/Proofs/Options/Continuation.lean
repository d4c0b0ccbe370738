import VmControl.Proofs.Options.Pieces

/-!
# Lines that go on

What is added at the end of a line that is read to its end is read after it, and changes nothing
of what is read before.  Two additions matter: an argument that looks like an option but is none of
the table, and a long option with its value.

## Main definitions

* `Table.Lacks`: whether an argument looks like an option that the table does not have.

## Main statements

* `Pieces.append`: the pieces of a line that goes on are those of the line and of what is added.
* `Table.read_append`: so what is added is read after the rest.
-/

namespace VmControl.Options

open VmControl.Text

variable {ι : Type} {t : Table ι}

/-- **The pieces of a line that goes on are those of the line and of what is added.** -/
theorem Pieces.append {index : Nat} {events events' : List (Event ι)} {args extra : List String}
    (h : Pieces t index events args) (h' : Pieces t (index + args.length) events' extra) :
    Pieces t index (events ++ events') (args ++ extra) := by
  induction h with
  | nil index => exact h'
  | cons hpiece _ ih =>
    rw [List.append_assoc, List.append_assoc]
    refine .cons hpiece (ih ?_)
    rwa [List.length_append, ← Nat.add_assoc] at h'

theorem Piece.pieces {index : Nat} {events : List (Event ι)} {args : List String}
    (h : Piece t index events args) : Pieces t index events args := by
  have hpieces := Pieces.cons h (.nil (index + args.length))
  rwa [List.append_nil, List.append_nil] at hpieces

/-- **What is added to a line that is read to its end is read after the rest.** -/
theorem Table.read_append {args extra : List String} {start : Nat} {events events' : List (Event ι)}
    (hstart : start ≤ args.length) (h : t.read args start = ⟨events, none⟩)
    (hextra : Pieces t args.length events' extra) :
    t.read (args ++ extra) start = ⟨events ++ events', none⟩ := by
  rw [Table.read_eq_iff_pieces] at h ⊢
  rw [List.drop_append_of_le_length hstart]
  refine h.append ?_
  rwa [List.length_drop, Nat.add_sub_cancel' hstart]

/-- Whether an argument looks like an option, and the table has none by this name: the text up to a
`=` after two dashes, or the character after a single one. -/
def Table.Lacks (t : Table ι) (token : String) : Prop :=
  match token.toList with
  | '-' :: '-' :: body => t.findLong? (String.ofList (body.takeWhile (· ≠ '='))) = none
  | '-' :: c :: _ => t.findShort? c = none
  | _ => False

/-- Such an argument starts with a dash. -/
theorem Table.Lacks.head? {token : String} (h : t.Lacks token) :
    token.toList.head? = some '-' := by
  unfold Table.Lacks at h
  split at h
  · next htoken => rw [htoken]; rfl
  · next htoken => rw [htoken]; rfl
  · cases h

/-- Such an argument is handed back as it stands. -/
theorem Table.Lacks.piece {token : String} (h : t.Lacks token) (index : Nat) :
    Piece t index [.unknown index token] [token] := by
  unfold Table.Lacks at h
  split at h
  · next body htoken =>
    refine .ignored fun c rest hrest => ?_
    obtain ⟨rfl, rfl⟩ : '-' = c ∧ body = rest := by simpa [htoken] using hrest
    exact ⟨rfl, fun _ => h⟩
  · next c body hc htoken =>
    obtain rfl : token = String.ofList ('-' :: c :: body) := by
      rw [← htoken, String.ofList_toList]
    exact .run hc (.unknown h)
  · cases h

end VmControl.Options
