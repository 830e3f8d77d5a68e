/-!
# Depth

Everything that nests draws on one supply of depth, so that no request can exhaust the stack. What
would go deeper than the supply stops and says so; everything shallower is unaffected by it.

* `Depth.standard` — the supply with which a request begins;
* `Depth.parenthesis` to `Depth.replied` — what nested things cost; all that is not named here
  costs one a level;
* `Depth.take?` — the supply after a price has been paid;
* `Bounded` — what stops a bounded computation: its depth, or a cause of its own.
-/

namespace DecisionFlow

namespace Depth

/-- The supply with which a request begins. -/
def standard : Nat := 970

/-- The price of a parenthesis in a condition: inside it stand the five levels of the grammar, from
disjunctions down to operands. -/
def parenthesis : Nat := 5

/-- The price of decoding the object behind a link other than `next`: the link and its node. -/
def decodedLink : Nat := 2

/-- What compiling a chain of nodes takes: the chain, a node of it, and the node's own part. -/
def compiledChain : Nat := 3

/-- The price of compiling the chain behind a link other than `next`: the link, and the chain around
it, which waits. -/
def compiledLink : Nat := 4

/-- The price of handing over an action: the executor, and the action that it starts. -/
def delegation : Nat := 2

/-- The price of comparing the parts of two actions: the actions, their parts as one, and the part
at hand. -/
def comparison : Nat := 3

/-- The price of reporting an event: the line, its text, and the details that are written in it. -/
def report : Nat := 6

/-- The price of a level of a value in a reply: the value, and the list of what stands in it. -/
def replied : Nat := 2

/-- What is left of a supply when a price has been paid, if it suffices. -/
def take? (price depth : Nat) : Option Nat := if price ≤ depth then some (depth - price) else none

theorem take?_eq_some {price depth rest : Nat} :
    take? price depth = some rest ↔ depth = rest + price := by
  unfold take?
  split
  · simp only [Option.some.injEq]
    omega
  · simp only [reduceCtorEq, false_iff]
    omega

theorem take?_eq_none {price depth : Nat} : take? price depth = none ↔ depth < price := by
  unfold take?
  split
  · simp only [reduceCtorEq, false_iff]
    omega
  · simp only [true_iff]
    omega

end Depth

/-- What stops a computation that may only go to a certain depth. -/
inductive Bounded (ε : Type) where
  /-- The data is nested too deeply. -/
  | tooDeep
  /-- A cause that has nothing to do with depth. -/
  | because (cause : ε)
deriving DecidableEq, Repr

/-- The same with another name for the cause. -/
def Bounded.map {ε δ : Type} (f : ε → δ) : Bounded ε → Bounded δ
  | tooDeep => tooDeep
  | because cause => because (f cause)

/-- The message for data that is nested too deeply. -/
def tooDeepMessage : String := "maximum recursion depth exceeded"

/-- The message of what stopped a bounded computation. -/
def Bounded.message {ε : Type} (message : ε → String) : Bounded ε → String
  | tooDeep => tooDeepMessage
  | because cause => message cause

end DecisionFlow
