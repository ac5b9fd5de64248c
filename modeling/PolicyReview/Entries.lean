/-!
# Sorted entries

A table from strings is the list of its entries in strictly increasing order of their keys, where
strings compare by code points.  Two tables with the same look-ups are therefore the same list.
-/

namespace PolicyReview

/-- Entries of a table from strings. -/
abbrev Entries (α : Type) := List (String × α)

namespace Entries

variable {α β : Type}

/-- The keys increase strictly. -/
def Ordered (entries : Entries α) : Prop :=
  entries.Pairwise fun before after => before.1 < after.1

/-- Put a value under a key; a value already there is replaced. -/
def insert (entries : Entries α) (key : String) (value : α) : Entries α :=
  match entries with
  | [] => [(key, value)]
  | entry :: rest =>
    if key < entry.1 then (key, value) :: entry :: rest
    else if key = entry.1 then (key, value) :: rest
    else entry :: insert rest key value

/-- The value under a key. -/
def find? (entries : Entries α) (key : String) : Option α :=
  match entries with
  | [] => none
  | entry :: rest => if key = entry.1 then some entry.2 else find? rest key

/-- The keys in order. -/
def keys (entries : Entries α) : List String :=
  entries.map (·.1)

/-- The table that arises when the members are put in one after the other: of members with equal
keys the last one stays. -/
def ofMembers (members : List (String × α)) : Entries α :=
  members.foldl (fun entries member => entries.insert member.1 member.2) []

theorem find?_insert (entries : Entries α) (key other : String) (value : α) :
    (entries.insert key value).find? other =
      if other = key then some value else entries.find? other := by
  induction entries with
  | nil => simp [insert, find?]
  | cons entry rest ih =>
    unfold insert
    split
    · simp [find?]
    · split
      · rename_i same
        subst same
        by_cases at_key : other = entry.1 <;> simp [find?, at_key]
      · rename_i differs
        by_cases at_entry : other = entry.1
        · have other_ne : other ≠ key := fun at_key => differs (at_key ▸ at_entry)
          simp [find?, at_entry, Ne.symm differs]
        · simp [find?, at_entry, ih]

end Entries
end PolicyReview
