import DecisionFlow.Proofs.Grammar
import DecisionFlow.Proofs.Numbers
import DecisionFlow.Proofs.Spacing

/-!
# Printing conditions

A tree is written with the fewest parentheses: an operand is enclosed only where its own category is
looser than the one that the grammar asks for at its place.  What is written is parsed as the tree.

* `Expr.write`, `Expr.print` — the lexemes of a tree, and its text;
* `Expr.Printable` — the trees that can be written: how doubles are written is a parameter, which has to
  be right for the doubles of the tree;
* `Scalar.readsBack_lexeme`, `Scalar.derives_lexeme` — the lexeme of a literal is read back and stands for
  the literal;
* `Expr.spells_write` — the lexemes of a tree derive the tree;
* `Expr.parentheses_needed` — a tree where a tighter category is wanted has to be enclosed;
* `parse_print` — the round trip.
-/

namespace DecisionFlow

/-! ### The printer -/

/-- How tightly a category binds. -/
def Category.rank : Category → Nat
  | disjunction => 0
  | conjunction => 1
  | comparison => 2
  | unary => 3
  | primary => 4

/-- The lexemes of an operand of its own category where another is wanted: in parentheses, if its own
is looser. -/
def Category.enclose (wanted own : Category) (ls : List Lexeme) : List Lexeme :=
  if wanted.rank ≤ own.rank then ls else .symbol .opening :: (ls ++ [.symbol .closing])

/-- The characters of a string between double quotes: quotes and backslashes take a backslash. -/
def Text.escapeQuotes (cs : List Char) : List Char :=
  cs.flatMap fun c => if c = '"' ∨ c = '\\' then ['\\', c] else [c]

/-- The lexeme of a literal.  How doubles are written is a parameter. -/
def Scalar.lexeme (decimal : Double → String) : Scalar → Lexeme
  | boolean b => .name (if b then "true" else "false")
  | number (.integer n) => .number (Numeral.render n)
  | number (.double x) => .number (decimal x)
  | string s => .string (String.ofList ('"' :: (Text.escapeQuotes s.toList ++ ['"'])))

namespace Expr

/-- The lexemes of a tree where a category is wanted.  Connectives associate to the left, so the same
connective needs parentheses on the right only. -/
def write (decimal : Double → String) : Expr → Category → List Lexeme
  | literal s, _ => [s.lexeme decimal]
  | reference name, _ => [.name name]
  | negation operand, wanted =>
    wanted.enclose .unary (.symbol .not :: operand.write decimal .unary)
  | compare op left right, wanted =>
    wanted.enclose .comparison
      (left.write decimal .unary ++ .symbol (.comparison op) :: right.write decimal .unary)
  | logical .and left right, wanted =>
    wanted.enclose .conjunction
      (left.write decimal .conjunction ++
        .symbol (.connective .and) :: right.write decimal .comparison)
  | logical .or left right, wanted =>
    wanted.enclose .disjunction
      (left.write decimal .disjunction ++
        .symbol (.connective .or) :: right.write decimal .conjunction)

/-- The text of a tree: its lexemes with single spaces between them. -/
def print (decimal : Double → String) (e : Expr) : String :=
  String.intercalate " " ((e.write decimal .disjunction).map Lexeme.text)

end Expr

/-- A literal that can be written: an integer has not too many digits, and the text of a double is a
numeral with its value. -/
def Scalar.Printable (decimal : Double → String) : Scalar → Prop
  | boolean _ => True
  | number (.integer n) => Numeral.isTooLong n = false
  | number (.double x) =>
    Lexeme.IsNumeral (decimal x) ∧ Literal.numberValue (decimal x) = .ok (.double x)
  | string _ => True

/-- A tree that can be written: its literals can, and its variables have names that are no truth
values. -/
def Expr.Printable (decimal : Double → String) : Expr → Prop
  | literal s => s.Printable decimal
  | reference name => Lexeme.IsName name ∧ name ≠ "true" ∧ name ≠ "false"
  | negation operand => operand.Printable decimal
  | compare _ left right => left.Printable decimal ∧ right.Printable decimal
  | logical _ left right => left.Printable decimal ∧ right.Printable decimal

/-! ### Literals -/

namespace Text

theorem escapes_escapeQuotes (cs : List Char) : Lexeme.Escapes '"' cs (escapeQuotes cs) := by
  induction cs with
  | nil => exact .nil
  | cons c more ih =>
    unfold escapeQuotes at ih ⊢
    rw [List.flatMap_cons]
    split
    · rename_i hescaped
      refine .escaped ?_ ih
      rintro rfl
      revert hescaped
      decide
    · rename_i hplain
      obtain ⟨hquote, hbackslash⟩ := not_or.mp hplain
      exact .plain hquote hbackslash ih

end Text

/-- What stands between quotes is unescaped to what it stands for. -/
theorem Literal.unescape_of_escapes {quote : Char} {cs body : List Char}
    (h : Lexeme.Escapes quote cs body) : unescape body = cs := by
  induction h with
  | nil => rfl
  | @plain c cs body _ hbackslash _ ih =>
    rw [unescape, ih]
    exact fun _ _ hc _ => hbackslash hc
  | escaped _ _ ih => rw [unescape, ih]

theorem Literal.stringValue_of_escapes {quote : Char} {cs body : List Char}
    (h : Lexeme.Escapes quote cs body) :
    stringValue (String.ofList (quote :: (body ++ [quote]))) = String.ofList cs := by
  rw [stringValue, String.toList_ofList, List.drop_succ_cons, List.drop_zero, List.dropLast_concat,
    unescape_of_escapes h]

/-- The text of an integer is a numeral without a fraction. -/
theorem Numeral.isNumeral_render (n : Int) : Lexeme.IsNumeral (render n) := by
  have hdigits : ∀ c ∈ Decimal.digitChars n.natAbs, Text.isDigit c = true :=
    fun c hc => Text.isDigit_of_isDigit (Decimal.isDigit_digitChars hc)
  have hnumeral : Lexeme.IsNumeral (String.ofList
      (NumberFormat.withSign (n < 0) (Decimal.digitChars n.natAbs ++ Lexeme.pointed []))) :=
    .intro (n < 0) (Decimal.digitChars_ne_nil n.natAbs) hdigits nofun
  rw [Lexeme.pointed, if_pos rfl, List.append_nil] at hnumeral
  exact hnumeral

theorem Double.signed_natAbs (n : Int) : signed (n < 0) n.natAbs = n := by
  unfold signed
  split <;> rename_i hsign <;> simp only [decide_eq_true_eq] at hsign <;> omega

theorem Literal.splitSign_withSign {negative : Bool} {cs : List Char} (h : ∀ rest, cs ≠ '-' :: rest) :
    splitSign (NumberFormat.withSign negative cs) = (negative, cs) := by
  cases negative with
  | true => rfl
  | false =>
    show splitSign cs = (false, cs)
    unfold splitSign
    split
    · exact absurd rfl (h _)
    · rfl

/-- The text of an integer is read as the integer, if it has not too many digits. -/
theorem Numeral.numberValue_render {n : Int} (h : isTooLong n = false) :
    Literal.numberValue (render n) = .ok (.integer n) := by
  have hdigit (c : Char) (hc : Text.isDigit c = false) : c ∉ Decimal.digitChars n.natAbs := by
    intro hmem
    rw [Text.isDigit_of_isDigit (Decimal.isDigit_digitChars hmem)] at hc
    cases hc
  have hsign : Literal.splitSign (render n).toList = (decide (n < 0), Decimal.digitChars n.natAbs) := by
    rw [render, String.toList_ofList]
    refine Literal.splitSign_withSign fun rest hminus => hdigit '-' (by decide) ?_
    rw [hminus]
    exact List.mem_cons_self
  have hpoint : (Decimal.digitChars n.natAbs).contains '.' = false := by
    rw [List.contains_eq_mem, decide_eq_false_iff_not]
    exact hdigit '.' (by decide)
  have hwhole : (Decimal.digitChars n.natAbs).takeWhile (· ≠ '.') = Decimal.digitChars n.natAbs := by
    have hall : ∀ c ∈ Decimal.digitChars n.natAbs, decide (c ≠ '.') = true := by
      intro c hc
      rw [decide_eq_true_eq]
      rintro rfl
      exact hdigit '.' (by decide) hc
    have htake : (Decimal.digitChars n.natAbs ++ []).takeWhile (· ≠ '.') =
        Decimal.digitChars n.natAbs ++ [].takeWhile (· ≠ '.') := List.takeWhile_append_of_pos hall
    rwa [List.append_nil, List.takeWhile_nil, List.append_nil] at htake
  have hlength : (Decimal.digitChars n.natAbs).length ≤ maxDigits :=
    Decimal.length_digitChars_le (by decide) (isTooLong_eq_false_iff.mp h)
  unfold Literal.numberValue
  rw [hsign]
  simp only [hpoint, hwhole, Nat.not_lt.mpr hlength, Bool.false_eq_true, if_false,
    Decimal.digitsValue_digitChars, Double.signed_natAbs]

namespace Scalar

variable {decimal : Double → String} {s : Scalar}

theorem isName_boolean (b : Bool) : Lexeme.IsName (if b then "true" else "false") := by
  cases b with
  | true =>
    have hname : Lexeme.IsName (String.ofList ['t', 'r', 'u', 'e']) :=
      .intro (by decide) (List.all_eq_true.mp (by decide))
    exact hname
  | false =>
    have hname : Lexeme.IsName (String.ofList ['f', 'a', 'l', 's', 'e']) :=
      .intro (by decide) (List.all_eq_true.mp (by decide))
    exact hname

/-- The lexeme of a literal is read back. -/
theorem readsBack_lexeme (h : s.Printable decimal) : (s.lexeme decimal).ReadsBack := by
  cases s with
  | boolean b => exact Lexeme.readsBack_name (isName_boolean b)
  | number n =>
    cases n with
    | integer n => exact Lexeme.readsBack_number (Numeral.isNumeral_render n)
    | double x => exact Lexeme.readsBack_number h.1
  | string s => exact Lexeme.readsBack_string (.inl rfl) (Text.escapes_escapeQuotes s.toList)

/-- The lexeme of a literal stands for the literal. -/
theorem derives_lexeme (h : s.Printable decimal) (pos : Nat) :
    Derives .primary [⟨s.lexeme decimal, pos⟩] (.literal s) := by
  cases s with
  | boolean b =>
    cases b with
    | true => exact .true pos
    | false => exact .false pos
  | number n =>
    cases n with
    | integer n => exact .number pos (Numeral.numberValue_render h)
    | double x => exact .number pos h.2
  | string s =>
    have hvalue : Literal.stringValue (String.ofList ('"' :: (Text.escapeQuotes s.toList ++ ['"']))) =
        s := by
      rw [Literal.stringValue_of_escapes (Text.escapes_escapeQuotes s.toList), String.ofList_toList]
    have hderives : Derives .primary
        [⟨.string (String.ofList ('"' :: (Text.escapeQuotes s.toList ++ ['"']))), pos⟩] _ := .string pos
    rw [hvalue] at hderives
    exact hderives

end Scalar

/-! ### Trees -/

namespace Category

/-- The next looser category; nothing is looser than a disjunction. -/
def looser : Category → Category
  | primary => unary
  | unary => comparison
  | comparison => conjunction
  | conjunction => disjunction
  | disjunction => disjunction

theorem rank_looser (c : Category) : c.looser.rank = c.rank - 1 := by cases c <;> rfl

theorem eq_of_rank {c c' : Category} (h : c.rank = c'.rank) : c = c' := by
  cases c <;> cases c' <;> first | rfl | cases h

end Category

theorem Derives.looser {c : Category} {ts : List Token} {e : Expr} (h : Derives c ts e) :
    Derives c.looser ts e := by
  cases c with
  | primary => exact .ofPrimary h
  | unary => exact .ofUnary h
  | comparison => exact .ofComparison h
  | conjunction => exact .ofConjunction h
  | disjunction => exact h

/-- What derives from a category derives from every looser one. -/
theorem Derives.loosen {own wanted : Category} {ts : List Token} {e : Expr} (h : Derives own ts e)
    (hrank : wanted.rank ≤ own.rank) : Derives wanted ts e := by
  obtain ⟨steps, hsteps⟩ := Nat.exists_eq_add_of_le hrank
  induction steps generalizing own with
  | zero => exact Category.eq_of_rank hsteps ▸ h
  | succ steps ih =>
    have hlooser : own.looser.rank = wanted.rank + steps := by
      rw [Category.rank_looser, hsteps]
      rfl
    exact ih h.looser (hlooser ▸ Nat.le_add_right _ _) hlooser

/-- `Spells c ls e`: wherever the lexemes stand, they derive the tree from the category. -/
def Category.Spells (c : Category) (ls : List Lexeme) (e : Expr) : Prop :=
  ∀ ts : List Token, ts.map Token.lexeme = ls → Derives c ts e

namespace Category.Spells

variable {own wanted left right : Category} {ls ms : List Lexeme} {e l r : Expr}

/-- Two operands with a lexeme between them. -/
theorem join {middle : Lexeme} {whole : Expr} (hl : left.Spells ls l) (hr : right.Spells ms r)
    (hjoin : ∀ us vs pos, Derives left us l → Derives right vs r →
      Derives own (us ++ ⟨middle, pos⟩ :: vs) whole) :
    own.Spells (ls ++ middle :: ms) whole := by
  intro ts hts
  obtain ⟨us, rest, rfl, hus, hrest⟩ := List.map_eq_append_iff.mp hts
  obtain ⟨⟨lexeme, pos⟩, vs, rfl, rfl, hvs⟩ := List.map_eq_cons_iff.mp hrest
  exact hjoin us vs pos (hl us hus) (hr vs hvs)

theorem negation (h : Category.unary.Spells ls e) :
    Category.unary.Spells (.symbol .not :: ls) (.negation e) := by
  intro ts hts
  obtain ⟨⟨_, pos⟩, us, rfl, rfl, hus⟩ := List.map_eq_cons_iff.mp hts
  exact .not pos (h us hus)

/-- A lexeme by itself. -/
theorem single {l : Lexeme} (h : ∀ pos, Derives own [⟨l, pos⟩] e) : own.Spells [l] e := by
  intro ts hts
  obtain ⟨⟨_, pos⟩, rest, rfl, rfl, hrest⟩ := List.map_eq_cons_iff.mp hts
  cases List.map_eq_nil_iff.mp hrest
  exact h pos

theorem loosen (h : own.Spells ls e) (hrank : wanted.rank ≤ own.rank) : wanted.Spells ls e :=
  fun ts hts => (h ts hts).loosen hrank

/-- An operand in parentheses. -/
theorem parenthesis (h : Category.disjunction.Spells ls e) :
    Category.primary.Spells (.symbol .opening :: (ls ++ [.symbol .closing])) e := by
  intro ts hts
  obtain ⟨⟨_, pos⟩, rest, rfl, rfl, hrest⟩ := List.map_eq_cons_iff.mp hts
  obtain ⟨us, closing, rfl, hus, hclosing⟩ := List.map_eq_append_iff.mp hrest
  obtain ⟨⟨_, pos'⟩, nothing, rfl, rfl, hnothing⟩ := List.map_eq_cons_iff.mp hclosing
  cases List.map_eq_nil_iff.mp hnothing
  exact .parenthesis pos pos' (h us hus)

/-- An operand in parentheses, where they are needed. -/
theorem enclose (h : own.Spells ls e) : wanted.Spells (wanted.enclose own ls) e := by
  unfold Category.enclose
  split
  · rename_i hrank
    exact h.loosen hrank
  · have hinside : Category.disjunction.Spells ls e := h.loosen (Nat.zero_le _)
    exact hinside.parenthesis.loosen (by cases wanted <;> decide)

end Category.Spells

namespace Expr

variable {decimal : Double → String} {e : Expr}

/-- **The lexemes of a tree derive the tree**, whatever category is wanted. -/
theorem spells_write (h : e.Printable decimal) (wanted : Category) :
    wanted.Spells (e.write decimal wanted) e := by
  induction e generalizing wanted with
  | literal s =>
    have hspells := Category.Spells.single (Scalar.derives_lexeme h)
    exact hspells.loosen (by cases wanted <;> decide)
  | reference name =>
    obtain ⟨-, htrue, hfalse⟩ := h
    have hspells := Category.Spells.single fun pos => Derives.name pos htrue hfalse
    exact hspells.loosen (by cases wanted <;> decide)
  | negation operand ih => exact (Category.Spells.negation (ih h .unary)).enclose
  | compare op left right ihl ihr =>
    exact ((ihl h.1 .unary).join (ihr h.2 .unary) fun _ _ pos => .compare op pos).enclose
  | logical op left right ihl ihr =>
    cases op with
    | and => exact ((ihl h.1 .conjunction).join (ihr h.2 .comparison) fun _ _ pos => .and pos).enclose
    | or => exact ((ihl h.1 .disjunction).join (ihr h.2 .conjunction) fun _ _ pos => .or pos).enclose

/-- The lexemes of a tree are read back. -/
theorem readsBack_write (h : e.Printable decimal) (wanted : Category) :
    ∀ l ∈ e.write decimal wanted, l.ReadsBack := by
  have hcons {ls : List Lexeme} (s : Symbol) (hls : ∀ l ∈ ls, l.ReadsBack) :
      ∀ l ∈ .symbol s :: ls, l.ReadsBack :=
    List.forall_mem_cons.mpr ⟨Lexeme.readsBack_symbol s, hls⟩
  have hjoin {ls ms : List Lexeme} (s : Symbol) (hls : ∀ l ∈ ls, l.ReadsBack)
      (hms : ∀ l ∈ ms, l.ReadsBack) : ∀ l ∈ ls ++ .symbol s :: ms, l.ReadsBack :=
    List.forall_mem_append.mpr ⟨hls, hcons s hms⟩
  have henclose {own wanted : Category} {ls : List Lexeme} (hls : ∀ l ∈ ls, l.ReadsBack) :
      ∀ l ∈ wanted.enclose own ls, l.ReadsBack := by
    unfold Category.enclose
    split
    · exact hls
    · exact hcons .opening (hjoin .closing hls nofun)
  induction e generalizing wanted with
  | literal s => exact List.forall_mem_singleton.mpr (Scalar.readsBack_lexeme h)
  | reference name => exact List.forall_mem_singleton.mpr (Lexeme.readsBack_name h.1)
  | negation operand ih => exact henclose (hcons .not (ih h .unary))
  | compare op left right ihl ihr =>
    exact henclose (hjoin (.comparison op) (ihl h.1 .unary) (ihr h.2 .unary))
  | logical op left right ihl ihr =>
    cases op with
    | and =>
      exact henclose (hjoin (.connective .and) (ihl h.1 .conjunction) (ihr h.2 .comparison))
    | or =>
      exact henclose (hjoin (.connective .or) (ihl h.1 .disjunction) (ihr h.2 .conjunction))

end Expr

/-! ### The parentheses are needed -/

/-- The category that a lexeme makes of what it stands in. -/
def Lexeme.category : Lexeme → Category
  | symbol (.connective .or) => .disjunction
  | symbol (.connective .and) => .conjunction
  | symbol (.comparison _) => .comparison
  | symbol .not => .unary
  | _ => .primary

/-- The lexemes outside all parentheses, where so many are open already. -/
def Lexeme.outside : Nat → List Lexeme → List Lexeme
  | _, [] => []
  | opened, symbol .opening :: ls => outside (opened + 1) ls
  | opened, symbol .closing :: ls => outside (opened - 1) ls
  | 0, l :: ls => l :: outside 0 ls
  | opened + 1, _ :: ls => outside (opened + 1) ls

/-- `c.Shows ls outer`: the lexemes close the parentheses that they open, the outer ones among them
stand outside all parentheses, and each of these is as tight as the category or tighter. -/
structure Category.Shows (c : Category) (ls outer : List Lexeme) : Prop where
  /-- In front of anything, the outer lexemes stand outside the parentheses. -/
  outside : ∀ opened rest, Lexeme.outside opened (ls ++ rest) =
    (if opened = 0 then outer else []) ++ Lexeme.outside opened rest
  /-- No outer lexeme is looser than the category. -/
  tight : ∀ l ∈ outer, c.rank ≤ l.category.rank

namespace Category.Shows

variable {c own left right : Category} {ls ms outer outer' : List Lexeme} {l : Lexeme}

theorem nil : c.Shows [] [] := ⟨fun opened _ => by cases opened <;> rfl, nofun⟩

theorem loosen (h : c.Shows ls outer) (hrank : own.rank ≤ c.rank) : own.Shows ls outer :=
  ⟨h.outside, fun l hl => Nat.le_trans hrank (h.tight l hl)⟩

/-- One lexeme that is no parenthesis, in front of others. -/
theorem cons (hopening : l ≠ .symbol .opening) (hclosing : l ≠ .symbol .closing)
    (hrank : c.rank ≤ l.category.rank) (h : c.Shows ls outer) : c.Shows (l :: ls) (l :: outer) := by
  constructor
  · intro opened rest
    cases opened with
    | zero =>
      have hrest := h.outside 0 rest
      rw [List.cons_append, Lexeme.outside, hrest]
      · rfl
      · exact hopening
      · exact hclosing
    | succ opened =>
      have hrest := h.outside (opened + 1) rest
      rw [List.cons_append, Lexeme.outside, hrest]
      · rfl
      · exact hopening
      · exact hclosing
  · exact List.forall_mem_cons.mpr ⟨hrank, h.tight⟩

theorem append (h : c.Shows ls outer) (h' : c.Shows ms outer') : c.Shows (ls ++ ms) (outer ++ outer') := by
  constructor
  · intro opened rest
    rw [List.append_assoc, h.outside, h'.outside, ← List.append_assoc]
    split <;> rfl
  · exact List.forall_mem_append.mpr ⟨h.tight, h'.tight⟩

/-- Inside parentheses nothing is outer. -/
theorem enclose (h : c.Shows ls outer) :
    own.Shows (.symbol .opening :: (ls ++ [.symbol .closing])) [] := by
  refine ⟨fun opened rest => ?_, nofun⟩
  rw [List.cons_append, Lexeme.outside, List.append_assoc, h.outside]
  show [] ++ Lexeme.outside (opened + 1) (.symbol .closing :: rest) = _
  rw [Lexeme.outside, Nat.add_sub_cancel, ite_self]

/-- A lexeme that is no parenthesis stands outside if those in front of it close theirs. -/
theorem rank_le (h : c.Shows (ls ++ l :: ms) outer) (hls : left.Shows ls outer')
    (hopening : l ≠ .symbol .opening) (hclosing : l ≠ .symbol .closing) :
    c.rank ≤ l.category.rank := by
  have hall : outer' ++ l :: Lexeme.outside 0 ms = outer ++ [] := by
    have hfirst := hls.outside 0 (l :: ms)
    rw [Lexeme.outside] at hfirst
    · rw [← List.append_nil (ls ++ l :: ms)] at hfirst
      exact hfirst.symm.trans (h.outside 0 [])
    · exact hopening
    · exact hclosing
  rw [List.append_nil] at hall
  exact h.tight l (hall ▸ List.mem_append_right _ List.mem_cons_self)

end Category.Shows

/-- What derives from a category has nothing looser outside its parentheses. -/
theorem Derives.shows {c : Category} {ts : List Token} {e : Expr} (h : Derives c ts e) :
    ∃ outer, c.Shows (ts.map Token.lexeme) outer := by
  have hjoin {own left right : Category} {us vs : List Token} {l : Lexeme} (pos : Nat)
      (hl : ∃ outer, left.Shows (us.map Token.lexeme) outer)
      (hr : ∃ outer, right.Shows (vs.map Token.lexeme) outer) (hleft : own.rank ≤ left.rank)
      (hright : own.rank ≤ right.rank) (hopening : l ≠ .symbol .opening)
      (hclosing : l ≠ .symbol .closing) (hrank : own.rank ≤ l.category.rank) :
      ∃ outer, own.Shows ((us ++ ⟨l, pos⟩ :: vs).map Token.lexeme) outer := by
    obtain ⟨outer, hl⟩ := hl
    obtain ⟨outer', hr⟩ := hr
    rw [List.map_append, List.map_cons]
    exact ⟨_, (hl.loosen hleft).append ((hr.loosen hright).cons hopening hclosing hrank)⟩
  have hsingle {l : Lexeme} (hopening : l ≠ .symbol .opening) (hclosing : l ≠ .symbol .closing)
      (hrank : Category.primary.rank ≤ l.category.rank) : ∃ outer, Category.primary.Shows [l] outer :=
    ⟨_, Category.Shows.nil.cons hopening hclosing hrank⟩
  induction h with
  | or pos _ _ ihl ihr =>
    exact hjoin pos ihl ihr (by decide) (by decide) nofun nofun (by decide)
  | and pos _ _ ihl ihr =>
    exact hjoin pos ihl ihr (by decide) (by decide) nofun nofun (by decide)
  | compare op pos _ _ ihl ihr =>
    exact hjoin pos ihl ihr (by decide) (by decide) nofun nofun (Nat.le_refl _)
  | not pos _ ih =>
    obtain ⟨outer, ih⟩ := ih
    exact ⟨_, ih.cons nofun nofun (Nat.le_refl _)⟩
  | ofConjunction _ ih | ofComparison _ ih | ofUnary _ ih | ofPrimary _ ih =>
    obtain ⟨outer, ih⟩ := ih
    exact ⟨outer, ih.loosen (by decide)⟩
  | number pos _ | string pos | true pos | false pos | name pos _ _ =>
    exact hsingle nofun nofun (Nat.le_refl _)
  | parenthesis pos pos' _ ih =>
    obtain ⟨outer, ih⟩ := ih
    rw [List.map_cons, List.map_append]
    exact ⟨_, ih.enclose⟩

theorem Category.Spells.shows {c : Category} {ls : List Lexeme} {e : Expr} (h : c.Spells ls e) :
    ∃ outer, c.Shows ls outer := by
  have hlexemes : (ls.map fun l => Token.mk l 0).map Token.lexeme = ls := by
    rw [List.map_map]
    exact List.map_id ls
  have hshows := (h _ hlexemes).shows
  rwa [hlexemes] at hshows

theorem Category.enclose_self (c : Category) (ls : List Lexeme) : c.enclose c ls = ls :=
  if_pos (Nat.le_refl _)

namespace Expr

/-- The category of a tree. -/
def category : Expr → Category
  | literal _ | reference _ => .primary
  | negation _ => .unary
  | compare _ _ _ => .comparison
  | logical .and _ _ => .conjunction
  | logical .or _ _ => .disjunction

/-- **Only what has to be enclosed is enclosed**: where a tighter category than the tree's own is
wanted, the lexemes of the tree without parentheses derive no tree at all. -/
theorem parentheses_needed {decimal : Double → String} {e : Expr} (h : e.Printable decimal)
    {wanted : Category} (htighter : e.category.rank < wanted.rank) {ts : List Token}
    (hts : ts.map Token.lexeme = e.write decimal e.category) (e' : Expr) : ¬Derives wanted ts e' := by
  intro hderives
  obtain ⟨outer, hshows⟩ := hderives.shows
  rw [hts] at hshows
  -- The operator of the tree stands outside all parentheses and is looser than what is wanted.
  have hloose {left : Category} {ls ms : List Lexeme} {operator : Lexeme}
      (hwrite : e.write decimal e.category = ls ++ operator :: ms)
      (hleft : ∃ outer, left.Shows ls outer) (hopening : operator ≠ .symbol .opening)
      (hclosing : operator ≠ .symbol .closing)
      (hcategory : operator.category = e.category) : False := by
    obtain ⟨_, hleft⟩ := hleft
    have hrank := (hwrite ▸ hshows).rank_le hleft hopening hclosing
    rw [hcategory] at hrank
    exact Nat.not_le.mpr htighter hrank
  cases e with
  | literal _ | reference _ =>
    have htightest : wanted.rank ≤ Category.primary.rank := by cases wanted <;> decide
    exact Nat.not_le.mpr htighter htightest
  | negation operand =>
    have hwrite : (negation operand).write decimal (negation operand).category =
        [] ++ .symbol .not :: operand.write decimal .unary := Category.enclose_self _ _
    exact hloose hwrite ⟨_, Category.Shows.nil (c := .unary)⟩ nofun nofun rfl
  | compare op left right =>
    exact hloose (Category.enclose_self _ _) (spells_write h.1 .unary).shows nofun nofun rfl
  | logical op left right =>
    cases op with
    | and =>
      exact hloose (Category.enclose_self _ _) (spells_write h.1 .conjunction).shows nofun nofun rfl
    | or =>
      exact hloose (Category.enclose_self _ _) (spells_write h.1 .disjunction).shows nofun nofun rfl

end Expr

/-- **Printing and parsing gives the same tree.** -/
theorem parse_print {decimal : Double → String} {e : Expr} (h : e.Printable decimal) :
    Expr.parse (e.print decimal) = .ok e ∧
      ∀ depth, Expr.parseWithin depth (e.print decimal) ≠ .error .tooDeep →
        Expr.parseWithin depth (e.print decimal) = .ok e := by
  obtain ⟨tokens, hscan, htokens⟩ := Token.scan_of_spaced
    (spaced_intercalate (e.write decimal .disjunction)) (Expr.readsBack_write h .disjunction) 0
  have htokenize : tokenize (e.print decimal) = .ok tokens := hscan
  have hparse : Expr.ofTokens tokens = .ok e :=
    ofTokens_complete (Expr.spells_write h .disjunction tokens htokens)
  unfold Expr.parse Expr.parseWithin
  rw [htokenize]
  refine ⟨hparse, fun depth hdeep => ?_⟩
  simp only [Expr.ofTokensWithin_eq, hparse] at hdeep ⊢
  rw [Ne, Bounded.within_eq_tooDeep_iff, Nat.not_lt] at hdeep
  rw [Bounded.within_of_le _ hdeep]
  rfl

/-- A disjunction of a conjunction, with a disjunction under a negation, and a comparison of numbers. -/
theorem parse_print_nested :
    let decimal : Double → String := fun _ => "1.5"
    let either : Expr := .logical .or (.reference "a") (.reference "b")
    let greets : Expr := .compare .eq (.literal (.string "say \"hi\"")) (.reference "c")
    let below : Expr := .compare .lt (.literal (.number (.integer (-5))))
      (.literal (.number (.double (.ofDecimal false ⟨15, -1⟩))))
    let e : Expr := .logical .or (.logical .and (.negation either) greets) below
    e.Printable decimal ∧
      e.print decimal = "! ( a || b ) && \"say \\\"hi\\\"\" == c || -5 < 1.5" ∧
      Expr.parse (e.print decimal) = .ok e := by
  intro decimal either greets below e
  have hname (c : Char) (hstart : Lexeme.isNameStart c = true) :
      Lexeme.IsName (String.ofList [c]) := .intro hstart nofun
  have hnumeral : Lexeme.IsNumeral (String.ofList ['1', '.', '5']) := by
    have hdigits : Lexeme.IsNumeral (String.ofList
        (NumberFormat.withSign false (['1'] ++ Lexeme.pointed ['5']))) :=
      .intro false nofun (List.all_eq_true.mp (by decide)) (List.all_eq_true.mp (by decide))
    exact hdigits
  have hvalue : Literal.numberValue "1.5" = .ok (.double (.ofDecimal false ⟨15, -1⟩)) := rfl
  have hinteger : Numeral.isTooLong (-5) = false := by decide +kernel
  have hprintable : e.Printable decimal :=
    ⟨⟨⟨⟨hname 'a' (by decide), by decide, by decide⟩, ⟨hname 'b' (by decide), by decide, by decide⟩⟩,
      trivial, hname 'c' (by decide), by decide, by decide⟩, hinteger, hnumeral, hvalue⟩
  exact ⟨hprintable, by decide +kernel, (parse_print hprintable).1⟩

end DecisionFlow
