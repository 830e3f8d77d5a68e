import DecisionFlow.Expr.Basic
import DecisionFlow.Depth
import DecisionFlow.Text.Quoted

/-!
# Parsing conditions

A condition is parsed token by token. The state holds what has been read of each level of
parentheses: the disjuncts, the conjuncts, the left side of a comparison and the negations that wait
for the operand to come. Negation binds tightest, then comparisons, which do not chain, then `&&`,
then `||`; both connectives associate to the left.

* `SyntaxError` — the ways in which a text is no condition, each with its place;
* `Level`, `ParseState` — what has been read;
* `ParseState.step`, `ParseState.finish` — one token, and the end of the text;
* `Expr.ofTokens`, `Expr.ofTokensWithin` — a whole list of tokens, without and with a bound on the
  negations and parentheses that are open at one place.
-/

namespace DecisionFlow

/-- Why a text is no condition. -/
inductive SyntaxError where
  /-- A character begins no token. -/
  | unexpectedCharacter (e : UnexpectedCharacter)
  /-- There is no token at all. -/
  | empty
  /-- An operand is missing at the end. -/
  | unexpectedEnd
  /-- A token that cannot stand where it stands. -/
  | unexpectedToken (token : Token)
  /-- A comparison of a comparison. -/
  | chainedComparison (token : Token)
  /-- The parenthesis opened at a position is not closed where it must be. -/
  | missingClosing (pos : Nat)
  /-- The integer at a position has too many digits. -/
  | numeralTooLong (pos digits : Nat)
deriving DecidableEq, Repr

/-- The message of a syntax error. -/
def SyntaxError.message : SyntaxError → String
  | unexpectedCharacter e =>
    "Unexpected character " ++ Text.quoted (String.singleton e.char) ++ " at position " ++ e.pos.repr
  | empty => "Empty expression"
  | unexpectedEnd => "Unexpected end of expression"
  | unexpectedToken token =>
    "Unexpected token " ++ Text.quoted token.lexeme.text ++ " at position " ++ token.pos.repr
  | chainedComparison token =>
    "Chained comparison " ++ Text.quoted token.lexeme.text ++ " at position " ++ token.pos.repr ++
      "; use && instead"
  | missingClosing pos => "Missing ')' for '(' at position " ++ pos.repr
  | numeralTooLong pos digits =>
    "Invalid number at position " ++ pos.repr ++ ": Exceeds the limit (" ++
      Numeral.maxDigits.repr ++ " digits) for integer string conversion: value has " ++
      digits.repr ++ " digits; use sys.set_int_max_str_digits() to increase the limit"

/-! ### Literals -/

namespace Literal

/-- The characters of a string token without its quotes and backslashes: a backslash goes and the
character after it stays, whatever it is. -/
def unescape : List Char → List Char
  | '\\' :: c :: rest => c :: unescape rest
  | c :: rest => c :: unescape rest
  | [] => []

/-- The text that a string token stands for. -/
def stringValue (text : String) : String := String.ofList (unescape (text.toList.drop 1).dropLast)

/-- The sign of a number token, and what follows it. -/
def splitSign : List Char → Bool × List Char
  | '-' :: rest => (true, rest)
  | cs => (false, cs)

/-- The number that a number token stands for: a double if it has a point and an integer otherwise.
An integer with too many digits, leading zeros included, fails with their number. -/
def numberValue (text : String) : Except Nat Number :=
  let (negative, cs) := splitSign text.toList
  let whole := cs.takeWhile (· ≠ '.')
  let fraction := (cs.dropWhile (· ≠ '.')).drop 1
  if cs.contains '.' then
    .ok (.double (Double.ofDecimal negative
      ⟨Text.digitsValue (whole ++ fraction), -(fraction.length : Int)⟩))
  else if Numeral.maxDigits < whole.length then .error whole.length
  else .ok (.integer (Double.signed negative (Text.digitsValue whole)))

/-- The expression that a name stands for: two names are truth values, all others variables. -/
def nameExpr (name : String) : Expr :=
  if name = "true" then .literal (.boolean true)
  else if name = "false" then .literal (.boolean false)
  else .reference name

end Literal

/-! ### States -/

/-- What has been read of one level of parentheses, to the left of the operand that comes next. -/
structure Level where
  /-- The disjunction so far. -/
  disjuncts : Option Expr
  /-- The conjunction so far, inside the last disjunct. -/
  conjuncts : Option Expr
  /-- The left side of a comparison and its operator, inside the last conjunct. -/
  compared : Option (Expr × Comparison)
  /-- The negations in front of the operand. -/
  negations : Nat
deriving DecidableEq, Repr

namespace Level

/-- The beginning of a level. -/
def start : Level := ⟨none, none, none, 0⟩

/-- Joins an operand to what stands to its left, if anything does. -/
def join (op : Connective) : Option Expr → Expr → Expr
  | none, e => e
  | some left, e => .logical op left e

/-- The last conjunct, given its last operand. -/
def conjunct (level : Level) (operand : Expr) : Expr :=
  match level.compared with
  | none => operand
  | some (left, op) => .compare op left operand

/-- The last disjunct, given its last operand. -/
def disjunct (level : Level) (operand : Expr) : Expr :=
  join .and level.conjuncts (level.conjunct operand)

/-- The whole level, given its last operand. -/
def close (level : Level) (operand : Expr) : Expr :=
  join .or level.disjuncts (level.disjunct operand)

end Level

/-- The state of the parser between two tokens. -/
structure ParseState where
  /-- The innermost level. -/
  level : Level
  /-- The levels around it, from the inside out, each with the position of the parenthesis that
  was opened there. -/
  outer : List (Nat × Level)
  /-- The operand just read with its negations; without one, an operand has to follow. -/
  operand : Option Expr
deriving DecidableEq, Repr

namespace ParseState

/-- The state before the first token. -/
def start : ParseState := ⟨.start, [], none⟩

/-- The price of the negations and parentheses that are open. -/
def nesting (state : ParseState) : Nat :=
  state.outer.foldr (fun p price => p.2.negations + Depth.parenthesis + price) state.level.negations

/-- An operand has been read: its negations apply to it. -/
def withOperand (level : Level) (outer : List (Nat × Level)) (operand : Expr) : ParseState :=
  ⟨{ level with negations := 0 }, outer, some (operand.negate level.negations)⟩

/-- One token where an operand has to follow. -/
def stepOperand (level : Level) (outer : List (Nat × Level)) (token : Token) :
    Except SyntaxError ParseState :=
  match token.lexeme with
  | .number text =>
    match Literal.numberValue text with
    | .ok n => .ok (withOperand level outer (.literal (.number n)))
    | .error digits => .error (.numeralTooLong token.pos digits)
  | .string text => .ok (withOperand level outer (.literal (.string (Literal.stringValue text))))
  | .name text => .ok (withOperand level outer (Literal.nameExpr text))
  | .symbol .not => .ok ⟨{ level with negations := level.negations + 1 }, outer, none⟩
  | .symbol .opening => .ok ⟨.start, (token.pos, level) :: outer, none⟩
  | .symbol _ => .error (.unexpectedToken token)

/-- The error for a token, or for the end, where an operand is complete and nothing can take it
further: the innermost open parenthesis is to blame, or else the token. -/
def unclosed (outer : List (Nat × Level)) (token : Token) : SyntaxError :=
  match outer with
  | (pos, _) :: _ => .missingClosing pos
  | [] => .unexpectedToken token

/-- One token after an operand. -/
def stepOperator (level : Level) (outer : List (Nat × Level)) (operand : Expr) (token : Token) :
    Except SyntaxError ParseState :=
  match token.lexeme with
  | .symbol (.comparison op) =>
    match level.compared with
    | none => .ok ⟨{ level with compared := some (operand, op) }, outer, none⟩
    | some _ => .error (.chainedComparison token)
  | .symbol (.connective .and) =>
    .ok ⟨{ level with conjuncts := some (level.disjunct operand), compared := none }, outer, none⟩
  | .symbol (.connective .or) =>
    .ok ⟨⟨some (level.close operand), none, none, 0⟩, outer, none⟩
  | .symbol .closing =>
    match outer with
    | (_, around) :: outer => .ok (withOperand around outer (level.close operand))
    | [] => .error (.unexpectedToken token)
  | _ => .error (unclosed outer token)

/-- The state after one more token. -/
def step (state : ParseState) (token : Token) : Except SyntaxError ParseState :=
  match state.operand with
  | none => stepOperand state.level state.outer token
  | some operand => stepOperator state.level state.outer operand token

/-- The expression read, at the end of the tokens. -/
def finish (state : ParseState) : Except SyntaxError Expr :=
  match state.operand, state.outer with
  | none, _ => .error .unexpectedEnd
  | some _, (pos, _) :: _ => .error (.missingClosing pos)
  | some operand, [] => .ok (state.level.close operand)

/-- The state after all the given tokens. -/
def steps (state : ParseState) : List Token → Except SyntaxError ParseState
  | [] => .ok state
  | token :: rest =>
    match state.step token with
    | .ok next => next.steps rest
    | .error e => .error e

/-- The state after all the given tokens, unless the negations and parentheses that are open at some
place cost more than the given depth. -/
def stepsWithin (depth : Nat) (state : ParseState) :
    List Token → Except (Bounded SyntaxError) ParseState
  | [] => .ok state
  | token :: rest =>
    match state.step token with
    | .ok next => if next.nesting ≤ depth then next.stepsWithin depth rest else .error .tooDeep
    | .error e => .error (.because e)

end ParseState

/-! ### Whole texts -/

namespace Expr

/-- The expression that a list of tokens stands for, at any depth. -/
def ofTokens (tokens : List Token) : Except SyntaxError Expr :=
  if tokens = [] then .error .empty
  else
    match ParseState.start.steps tokens with
    | .ok state => state.finish
    | .error e => .error e

/-- The expression that a list of tokens stands for, to a limited depth. -/
def ofTokensWithin (depth : Nat) (tokens : List Token) : Except (Bounded SyntaxError) Expr :=
  if tokens = [] then .error (.because .empty)
  else
    match ParseState.start.stepsWithin depth tokens with
    | .ok state => state.finish.mapError .because
    | .error e => .error e

/-- The expression that a text stands for, at any depth. -/
def parse (text : String) : Except SyntaxError Expr :=
  match tokenize text with
  | .ok tokens => ofTokens tokens
  | .error e => .error (.unexpectedCharacter e)

/-- The expression that a text stands for, to a limited depth. A character that begins no token is
reported whatever the depth, for the whole text is cut into tokens first. -/
def parseWithin (depth : Nat) (text : String) : Except (Bounded SyntaxError) Expr :=
  match tokenize text with
  | .ok tokens => ofTokensWithin depth tokens
  | .error e => .error (.because (.unexpectedCharacter e))

end Expr

end DecisionFlow
