import VmControl.Program

/-!
# The commands of each program

The first words of a line lead to its command through several tables.  Here they are put together in
one roster for each program, so that what holds of all commands can be checked entry by entry.

## Main definitions

* `Program.roster`: the commands of a program with the words that stand for them.

## Main statements

* `Program.exists_listing`: the command of a line is on the roster.
-/

namespace VmControl

/-- A command with the word that stands for it. -/
structure Listing where
  /-- The word after the name of the program. -/
  verb : String
  /-- The number of words that a line has at least, with the name of the program. -/
  words : Nat
  /-- How the line is read. -/
  command : Command

namespace Program

/-- The commands of a program. -/
def roster : Program → List Listing
  | .guests =>
    ⟨"list", 2, .line .guest .list CommandTable.list 1⟩ ::
    ⟨"backup-list", 2, .line .backupList .backupList CommandTable.backupList 1⟩ ::
    (plainVerbs.map (fun (verb, action) => ⟨verb, 3, .line .guest action CommandTable.plain 2⟩) ++
     guestVerbs.map (fun (verb, action, table) => ⟨verb, 3, .line .guest action table 2⟩) ++
     taskVerbs.map (fun (verb, kind, action, table, start) =>
      ⟨verb, 3, .line kind action table start⟩) ++
     sharedVerbs.map (fun (_, kind, action, table) => ⟨"server", 3, .line kind action table 3⟩))
  | .server =>
    ⟨"monitor", 2, .monitor⟩ ::
    (userVerbs.map (fun (_, action, table) => ⟨"user", 3, .line .guest action table 2⟩) ++
     sharedVerbs.map (fun (verb, kind, action, table) => ⟨verb, 2, .line kind action table 2⟩) ++
     serverVerbs.map (fun (verb, kind, action, table) => ⟨verb, 2, .line kind action table 2⟩) ++
     familyVerbs.map (fun (verb, kind, table) => ⟨verb, 2, .family kind table 2⟩))

end Program

theorem mem_of_lookup {α : Type} {l : List (String × α)} {k : String} {v : α}
    (h : l.lookup k = some v) : (k, v) ∈ l := by
  obtain ⟨l₁, l₂, rfl, -⟩ := List.lookup_eq_some_iff.1 h
  simp

namespace Program

theorem listing_of_guestCommand? {verb : String} {c : Command} (h : guestCommand? verb = some c) :
    ⟨verb, 3, c⟩ ∈ guests.roster := by
  refine List.mem_cons_of_mem _ (List.mem_cons_of_mem _ ?_)
  simp only [List.mem_append]
  unfold guestCommand? at h
  split at h
  · next hv =>
    cases h
    exact .inl (.inl (.inl (List.mem_map_of_mem (mem_of_lookup hv))))
  · split at h
    · next hv =>
      cases h
      exact .inl (.inl (.inr (List.mem_map_of_mem (mem_of_lookup hv))))
    · obtain ⟨v, hv, rfl⟩ := Option.map_eq_some_iff.1 h
      exact .inl (.inr (List.mem_map_of_mem (mem_of_lookup hv)))

theorem listing_of_sharedCommand? {verb : String} {c : Command}
    (h : sharedCommand? verb 3 = some c) : ⟨"server", 3, c⟩ ∈ guests.roster := by
  obtain ⟨v, hv, rfl⟩ := Option.map_eq_some_iff.1 h
  refine List.mem_cons_of_mem _ (List.mem_cons_of_mem _ (List.mem_append_right _ ?_))
  exact List.mem_map.2 ⟨_, mem_of_lookup hv, rfl⟩

theorem listing_of_serverCommand? {verb : String} {c : Command}
    (h : serverCommand? verb = some c) : ⟨verb, 2, c⟩ ∈ server.roster := by
  refine List.mem_cons_of_mem _ ?_
  simp only [List.mem_append]
  unfold serverCommand? at h
  split at h
  · next hshared =>
    cases h
    obtain ⟨v, hv, rfl⟩ := Option.map_eq_some_iff.1 hshared
    exact .inl (.inl (.inr (List.mem_map_of_mem (mem_of_lookup hv))))
  · split at h
    · next hv =>
      cases h
      exact .inl (.inr (List.mem_map_of_mem (mem_of_lookup hv)))
    · obtain ⟨v, hv, rfl⟩ := Option.map_eq_some_iff.1 h
      exact .inr (List.mem_map_of_mem (mem_of_lookup hv))

theorem listing_of_userCommand {word : String} {c : Command} (h : userCommand word = .ok c) :
    word ≠ "" ∧ ⟨"user", 3, c⟩ ∈ server.roster := by
  unfold userCommand at h
  split at h
  · next hv =>
    cases h
    have hmem := mem_of_lookup hv
    refine ⟨?_, List.mem_cons_of_mem _ ?_⟩
    · rintro rfl
      cases hv
    · simp only [List.mem_append]
      exact .inl (.inl (.inl (List.mem_map.2 ⟨_, hmem, rfl⟩)))
  · cases h

/-- **The command of a line is on the roster**, and the line has the words for it. -/
theorem exists_listing {p : Program} {args : List String} {c : Command}
    (h : p.command args = .ok c) :
    ∃ l ∈ p.roster, l.command = c ∧ args[1]? = some l.verb ∧ l.words ≤ args.length := by
  rcases args with _ | ⟨name, words⟩
  · cases p <;> cases h
  cases p with
  | guests =>
    simp only [command, List.drop_one, List.tail_cons, guestCommand] at h
    split at h
    · cases h
    · cases h
      exact ⟨_, List.mem_cons_self .., rfl, rfl, by simp⟩
    · cases h
      exact ⟨_, List.mem_cons_of_mem _ (List.mem_cons_self ..), rfl, rfl, by simp⟩
    · cases h
    · split at h
      · next hc =>
        cases h
        exact ⟨_, listing_of_sharedCommand? hc, rfl, rfl, by simp⟩
      · cases h
    · next verb rest _ _ hone _ =>
      split at h
      · next hc =>
        cases h
        obtain ⟨second, rest, rfl⟩ := List.exists_cons_of_ne_nil (hone ·)
        exact ⟨_, listing_of_guestCommand? hc, rfl, rfl, by simp⟩
      · cases h
  | server =>
    simp only [command, List.drop_one, List.tail_cons, serverCommand] at h
    split at h
    · cases h
    · next rest =>
      obtain ⟨hne, hmem⟩ := listing_of_userCommand h
      rcases rest with _ | ⟨word, rest⟩
      · exact absurd rfl hne
      · exact ⟨_, hmem, rfl, rfl, by simp⟩
    · cases h
      exact ⟨_, List.mem_cons_self .., rfl, rfl, by simp⟩
    · split at h
      · next hc =>
        cases h
        exact ⟨_, listing_of_serverCommand? hc, rfl, rfl, by simp⟩
      · cases h

end Program

end VmControl
