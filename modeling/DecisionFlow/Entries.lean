/-!
# Named entries in order of first assignment

A list of name-value pairs in which assigning a name again changes its value in place and assigning a
new name appends it. Objects read from text and the variables of a run are kept this way.

* `Entries.insert` — assigns one name;
* `Entries.ofList` — assigns the pairs of a list one after the other;
* `keys_insert`, `nodup_keys_insert`, `lookup_insert` — what an assignment does to the order of the
  names, to their distinctness and to look-ups.
-/

namespace DecisionFlow

/-- Name-value pairs in order. -/
abbrev Entries (α : Type) : Type := List (String × α)

namespace Entries

variable {α : Type}

/-- The names in order. -/
def keys (entries : Entries α) : List String := entries.map Prod.fst

/-- Assigns a name: in place if it is there, at the end if it is new. -/
def insert (key : String) (value : α) : Entries α → Entries α
  | [] => [(key, value)]
  | (k, v) :: rest => if k = key then (k, value) :: rest else (k, v) :: insert key value rest

/-- Assigns the pairs of a list in turn, so a repeated name keeps its first place and its last
value. -/
def ofList (pairs : List (String × α)) : Entries α :=
  pairs.foldl (fun entries p => insert p.1 p.2 entries) []

@[simp] theorem keys_nil : keys ([] : Entries α) = [] := rfl

@[simp] theorem keys_cons (p : String × α) (rest : Entries α) :
    keys (p :: rest) = p.1 :: keys rest := rfl

/-- A name that is there moves nothing, and a new name goes to the end. -/
theorem keys_insert (key : String) (value : α) (entries : Entries α) :
    keys (insert key value entries) =
      if key ∈ keys entries then keys entries else keys entries ++ [key] := by
  induction entries with
  | nil => rfl
  | cons p rest ih =>
    obtain ⟨k, v⟩ := p
    by_cases h : k = key
    · subst h
      simp [insert]
    · have h' : ¬ key = k := fun e => h e.symm
      simp only [insert, if_neg h, keys_cons, ih, List.mem_cons, h', false_or]
      split <;> rfl

/-- Assigning keeps the names distinct. -/
theorem nodup_keys_insert {key : String} {value : α} {entries : Entries α}
    (h : (keys entries).Nodup) : (keys (insert key value entries)).Nodup := by
  rw [keys_insert]
  split
  · exact h
  · rename_i hnew
    rw [List.nodup_append]
    refine ⟨h, by simp, ?_⟩
    intro a ha b hb
    simp only [List.mem_singleton] at hb
    subst hb
    exact fun e => hnew (e ▸ ha)

/-- An assigned name has the assigned value, and no other name changes. -/
theorem lookup_insert (key : String) (value : α) (entries : Entries α) (name : String) :
    (insert key value entries).lookup name =
      if name = key then some value else entries.lookup name := by
  induction entries with
  | nil =>
    by_cases h : name = key
    · simp [insert, h]
    · have hb : (name == key) = false := by simpa using h
      simp [insert, List.lookup_cons, h, hb]
  | cons p rest ih =>
    obtain ⟨k, v⟩ := p
    by_cases hn : name = k
    · subst hn
      by_cases hk : name = key
      · subst hk
        simp [insert]
      · simp [insert, hk]
    · have hb : (name == k) = false := by simpa using hn
      by_cases hk : k = key
      · subst hk
        simp [insert, List.lookup_cons, hn, hb]
      · simp [insert, hk, List.lookup_cons, hb, ih]

/-- Nothing is found under a name exactly if the name is not there. -/
theorem lookup_eq_none_iff {key : String} {entries : Entries α} :
    entries.lookup key = none ↔ key ∉ keys entries := by
  rw [List.lookup_eq_none_iff]
  constructor
  · intro h hmem
    obtain ⟨p, hp, rfl⟩ := List.mem_map.mp hmem
    exact bne_iff_ne.mp (h p hp) rfl
  · intro h p hp
    exact bne_iff_ne.mpr fun hkey => h (hkey ▸ List.mem_map_of_mem hp)

theorem nodup_keys_foldl_insert (pairs : List (String × α)) {entries : Entries α}
    (h : (keys entries).Nodup) :
    (keys (pairs.foldl (fun entries p => insert p.1 p.2 entries) entries)).Nodup := by
  induction pairs generalizing entries with
  | nil => exact h
  | cons p rest ih => exact ih (nodup_keys_insert h)

/-- The names of entries built from a list are distinct, repeated names included. -/
theorem nodup_keys_ofList (pairs : List (String × α)) : (keys (ofList pairs)).Nodup :=
  nodup_keys_foldl_insert pairs (by simp)

end Entries

end DecisionFlow
