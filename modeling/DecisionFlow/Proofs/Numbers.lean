import DecisionFlow.Json.Reader
import DecisionFlow.Json.Standard

/-!
# The numbers in values

JSON can write integers of at most 4300 digits and finite doubles, and nothing of a type that it does not
have.  What the reader returns has no longer integers, and what JSON can write is its own standard form.

* `Value.HasNumber`, `Value.HasForeign` — the numbers in a value, and the things of other types, at
  whatever place;
* `Value.Writable` — no integer in a value is too long to be written;
* `Value.Representable` — JSON can write all that stands in a value;
* `Json.standard_eq_of_isFinite` — what has finite doubles only is its own standard form;
* `Json.writable_of_readWithin` — what the reader returns can be written;
* `Decimal.digitsValue_digitChars` — the digits of a number are read as the number.
-/

namespace DecisionFlow

namespace Value

/-- `v.HasNumber n`: the number stands somewhere in the value. -/
inductive HasNumber : Value → Number → Prop where
  | here (n : Number) : HasNumber (.number n) n
  | item {items : List Value} {v : Value} {n : Number} :
      v ∈ items → HasNumber v n → HasNumber (.list items) n
  | field {fields : Entries Value} {name : String} {v : Value} {n : Number} :
      (name, v) ∈ fields → HasNumber v n → HasNumber (.object fields) n

/-- A thing of another type stands somewhere in the value. -/
inductive HasForeign : Value → Prop where
  | here (type : String) (place : Nat) : HasForeign (.foreign type place)
  | item {items : List Value} {v : Value} : v ∈ items → HasForeign v → HasForeign (.list items)
  | field {fields : Entries Value} {name : String} {v : Value} :
      (name, v) ∈ fields → HasForeign v → HasForeign (.object fields)

/-- No integer in a value is too long to be written. -/
def Writable (v : Value) : Prop := ∀ n, v.HasNumber n → n.isTooLong = false

/-- JSON can write all that stands in a value: its integers are not too long, its doubles are finite, and
it has nothing of other types. -/
structure Representable (v : Value) : Prop where
  writable : v.Writable
  finite : ∀ x, v.HasNumber (.double x) → x.isFinite = true
  familiar : ¬v.HasForeign

theorem writable_null : null.Writable := by rintro _ ⟨⟩

theorem writable_boolean (b : Bool) : (boolean b).Writable := by rintro _ ⟨⟩

theorem writable_string (s : String) : (string s).Writable := by rintro _ ⟨⟩

theorem writable_number {n : Number} (h : n.isTooLong = false) : (number n).Writable := by
  rintro _ ⟨⟩
  exact h

theorem writable_list {items : List Value} (h : ∀ v ∈ items, v.Writable) : (list items).Writable := by
  intro n hn
  cases hn with
  | item hv hn => exact h _ hv n hn

theorem writable_object {fields : Entries Value} (h : ∀ p ∈ fields, p.2.Writable) :
    (object fields).Writable := by
  intro n hn
  cases hn with
  | field hv hn => exact h _ hv n hn

/-- The value of a field can be written if the object can. -/
theorem Writable.of_lookup {fields : Entries Value} (h : (object fields).Writable) {name : String}
    {v : Value} (hlookup : fields.lookup name = some v) : v.Writable := by
  obtain ⟨before, after, rfl, -⟩ := List.lookup_eq_some_iff.mp hlookup
  exact fun n hn => h n (.field (List.mem_append_right before List.mem_cons_self) hn)

end Value

/-! ### Standard forms -/

namespace Json

mutual

/-- **What has finite doubles only** is its own standard form. -/
theorem standard_eq_of_isFinite : ∀ {v : Value},
    (∀ x, v.HasNumber (.double x) → x.isFinite = true) → standard v = v
  | .null, _ => rfl
  | .scalar (.boolean _), _ => rfl
  | .scalar (.string _), _ => rfl
  | .scalar (.number (.integer _)), _ => rfl
  | .scalar (.number (.double x)), h => by
    rw [standard, if_pos (h x (.here _))]
  | .list items, h => by
    rw [standard, standardItems_eq fun v hv x hx => h x (.item hv hx)]
  | .object fields, h => by
    rw [standard, standardFields_eq fun p hp x hx => h x (.field hp hx)]
  | .foreign _ _, _ => rfl

theorem standardItems_eq : ∀ {items : List Value},
    (∀ v ∈ items, ∀ x, v.HasNumber (.double x) → x.isFinite = true) → standardItems items = items
  | [], _ => rfl
  | item :: more, h => by
    have hmore : ∀ v ∈ more, ∀ x, v.HasNumber (.double x) → x.isFinite = true :=
      fun v hv => h v (List.mem_cons_of_mem item hv)
    rw [standardItems, standard_eq_of_isFinite (h item List.mem_cons_self), standardItems_eq hmore]

theorem standardFields_eq : ∀ {fields : List (String × Value)},
    (∀ p ∈ fields, ∀ x, p.2.HasNumber (.double x) → x.isFinite = true) →
      standardFields fields = fields
  | [], _ => rfl
  | (name, value) :: more, h => by
    have hmore : ∀ p ∈ more, ∀ x, p.2.HasNumber (.double x) → x.isFinite = true :=
      fun p hp => h p (List.mem_cons_of_mem _ hp)
    rw [standardFields, standard_eq_of_isFinite (h _ List.mem_cons_self), standardFields_eq hmore]

end

end Json

/-! ### Numerals -/

namespace Text

theorem numeralValue_lt {digits : List Nat} (h : ∀ d ∈ digits, d < 10) :
    numeralValue digits < 10 ^ digits.length := by
  induction digits with
  | nil => exact Nat.one_pos
  | cons d more ih =>
    have hmore := ih fun d' hd' => h d' (List.mem_cons_of_mem d hd')
    have hd := h d List.mem_cons_self
    have happend := numeralValue_append [d] more
    have hone : numeralValue [d] = d := by simp [numeralValue]
    rw [List.singleton_append, hone] at happend
    rw [happend, List.length_cons, Nat.pow_succ']
    have hprod : (d + 1) * 10 ^ more.length ≤ 10 * 10 ^ more.length := Nat.mul_le_mul_right _ hd
    rw [Nat.succ_mul] at hprod
    omega

/-- A numeral of at most so many digits is below that power of ten. -/
theorem digitsValue_lt {cs : List Char} {n : Nat} (h : cs.length ≤ n) : digitsValue cs < 10 ^ n := by
  have hdigits : ∀ d ∈ cs.map fun c => (digitValue? c).getD 0, d < 10 := by
    intro d hd
    obtain ⟨c, -, rfl⟩ := List.mem_map.mp hd
    cases hc : digitValue? c with
    | none => exact Nat.succ_pos 9
    | some value => exact digitValue?_lt hc
  have hlt := numeralValue_lt hdigits
  rw [List.length_map] at hlt
  rw [digitsValue_eq]
  exact Nat.lt_of_lt_of_le hlt (Nat.pow_le_pow_right (Nat.succ_pos 9) h)

/-- An ASCII digit has its usual value. -/
theorem digitValue?_of_isDigit {c : Char} (h : c.isDigit = true) :
    digitValue? c = some (c.toNat - '0'.toNat) := by
  simp only [Char.isDigit, Bool.and_eq_true, decide_eq_true_eq, ge_iff_le,
    UInt32.le_iff_toNat_le] at h
  have hrange : 48 ≤ c.toNat ∧ c.toNat < 48 + 10 := by
    have htoNat : c.toNat = c.val.toNat := rfl
    have hfirst : '0'.val.toNat = 48 := rfl
    have hlast : '9'.val.toNat = 57 := rfl
    omega
  have hfound : digitZeros.find? (fun z => z ≤ c.toNat && c.toNat < z + 10) = some 48 :=
    List.find?_cons_of_pos (by simp [hrange])
  rw [digitValue?, hfound]
  rfl

theorem isDigit_of_isDigit {c : Char} (h : c.isDigit = true) : isDigit c = true := by
  rw [isDigit, digitValue?_of_isDigit h]
  rfl

end Text

namespace Decimal

theorem isDigit_digitChars {n : Nat} {c : Char} (h : c ∈ digitChars n) : c.isDigit = true := by
  rw [digitChars, Nat.toList_repr] at h
  exact Nat.isDigit_of_mem_toDigits (by decide) (by decide) h

theorem digitChars_ne_nil (n : Nat) : digitChars n ≠ [] := by
  rw [digitChars, Nat.toList_repr]
  exact Nat.toDigits_ne_nil

/-- **The digits of a number are read as the number.** -/
theorem digitsValue_digitChars (n : Nat) : Text.digitsValue (digitChars n) = n := by
  have hdigits (cs : List Char) (start : Nat) (h : ∀ c ∈ cs, c.isDigit = true) :
      (cs.map fun c => (Text.digitValue? c).getD 0).foldl (fun n d => n * 10 + d) start =
        Nat.ofDigitChars 10 cs start := by
    induction cs generalizing start with
    | nil => rfl
    | cons c more ih =>
      obtain ⟨hc, hmore⟩ := List.forall_mem_cons.mp h
      have hvalue : (Text.digitValue? c).getD 0 = c.toNat - '0'.toNat := by
        rw [Text.digitValue?_of_isDigit hc]
        rfl
      show (more.map _).foldl _ (start * 10 + (Text.digitValue? c).getD 0) =
        Nat.ofDigitChars 10 more (10 * start + (c.toNat - '0'.toNat))
      rw [hvalue, Nat.mul_comm start 10]
      exact ih _ hmore
  rw [Text.digitsValue_eq, Text.numeralValue, hdigits _ 0 fun c => isDigit_digitChars, digitChars,
    Nat.toList_repr]
  exact Nat.ofDigitChars_toDigits (by decide) (by decide)

theorem length_digitChars_le {n k : Nat} (hk : 0 < k) (h : n < 10 ^ k) : (digitChars n).length ≤ k := by
  rw [digitChars, Nat.toList_repr]
  exact (Nat.length_toDigits_le_iff (by decide) hk).mpr h

end Decimal

theorem Double.natAbs_signed (negative : Bool) (n : Nat) : (signed negative n).natAbs = n := by
  unfold signed
  split <;> omega

theorem Numeral.isTooLong_eq_false_iff {n : Int} :
    isTooLong n = false ↔ n.natAbs < 10 ^ maxDigits := by
  rw [isTooLong, decide_eq_false_iff_not, Nat.not_le]

/-! ### What is read can be written -/

namespace Json

open Value

theorem isTooLong_of_readNumber {negative : Bool} {cs rest : List Char} {n : Number}
    (h : readNumber negative cs = some (n, rest)) : n.isTooLong = false := by
  unfold readNumber at h
  split at h
  · cases h
  · simp only at h
    -- an integer is read from as many digits as there may be
    have hshort (digits : List Char) (hlength : ¬Numeral.maxDigits < digits.length) :
        (Number.integer (Double.signed negative (Text.digitsValue digits))).isTooLong = false := by
      rw [Number.isTooLong, Numeral.isTooLong_eq_false_iff, Double.natAbs_signed]
      exact Text.digitsValue_lt (Nat.le_of_not_lt hlength)
    split at h
    · -- with a zero in front or without
      split at h <;>
      · simp only at h
        split at h
        · cases h
        · rename_i hlength
          cases h
          exact hshort _ hlength
    · cases h
      rfl
    · cases h
      rfl

theorem writable_of_readScalar {cs rest : List Char} {v : Value}
    (h : readScalar cs = some (v, rest)) : v.Writable := by
  have hword {word : String} {w : Value} (hw : w.Writable)
      (h : (afterWord? word cs).map (fun rest => (w, rest)) = some (v, rest)) : v.Writable := by
    obtain ⟨_, -, ⟨⟩⟩ := Option.map_eq_some_iff.mp h
    exact hw
  have hnumber {negative : Bool} {digits : List Char}
      (h : (readNumber negative digits).map (fun p => (Value.number p.1, p.2)) = some (v, rest)) :
      v.Writable := by
    obtain ⟨⟨n, _⟩, hread, ⟨⟩⟩ := Option.map_eq_some_iff.mp h
    exact writable_number (isTooLong_of_readNumber hread)
  unfold readScalar at h
  split at h
  · exact hword writable_null h
  · exact hword (writable_boolean true) h
  · exact hword (writable_boolean false) h
  · exact hword (writable_number rfl) h
  · exact hword (writable_number rfl) h
  · exact hword (writable_number rfl) h
  · exact hnumber h
  · exact hnumber h

/-- Assigning a writable value leaves writable values. -/
theorem writable_insert {name : String} {v : Value} {fields : Entries Value} (hv : v.Writable)
    (h : ∀ p ∈ fields, p.2.Writable) : ∀ p ∈ fields.insert name v, p.2.Writable := by
  induction fields with
  | nil => simpa [Entries.insert] using hv
  | cons q rest ih =>
    obtain ⟨k, w⟩ := q
    obtain ⟨hw, hrest⟩ := List.forall_mem_cons.mp h
    unfold Entries.insert
    split
    · exact List.forall_mem_cons.mpr ⟨hv, hrest⟩
    · exact List.forall_mem_cons.mpr ⟨hw, ih hrest⟩

theorem writable_ofList {pairs : List (String × Value)} (h : ∀ p ∈ pairs, p.2.Writable) :
    ∀ p ∈ Entries.ofList pairs, p.2.Writable := by
  have hfold (entries : Entries Value) (hentries : ∀ p ∈ entries, p.2.Writable) :
      ∀ p ∈ pairs.foldl (fun entries p => entries.insert p.1 p.2) entries, p.2.Writable := by
    induction pairs generalizing entries with
    | nil => exact hentries
    | cons q rest ih =>
      obtain ⟨hq, hrest⟩ := List.forall_mem_cons.mp h
      exact ih hrest _ (writable_insert hq hentries)
  exact hfold [] nofun

/-- **What the steps of the reader return can be written**: values, items and fields. -/
theorem writable_of_steps (steps depth : Nat) (cs : List Char) :
    (∀ v rest, readValue steps depth cs = some (v, rest) → v.Writable) ∧
    (∀ items rest, readItems steps depth cs = some (items, rest) → ∀ v ∈ items, v.Writable) ∧
    (∀ fields rest, readFields steps depth cs = some (fields, rest) →
      ∀ p ∈ fields, p.2.Writable) := by
  induction steps generalizing depth cs with
  | zero => exact ⟨nofun, nofun, nofun⟩
  | succ steps ih =>
    refine ⟨fun v rest h => ?_, fun items rest h => ?_, fun fields rest h => ?_⟩
    · unfold readValue at h
      split at h
      · cases h
      · obtain ⟨_, -, ⟨⟩⟩ := Option.map_eq_some_iff.mp h
        exact writable_string _
      · cases h
      · cases h
      · rename_i _ _ _ _ inside _ hsteps
        cases hsteps
        split at h
        · cases h
          exact writable_list nofun
        · obtain ⟨⟨items, _⟩, hread, ⟨⟩⟩ := Option.map_eq_some_iff.mp h
          exact writable_list ((ih inside _).2.1 items _ hread)
      · rename_i _ _ _ _ inside _ hsteps
        cases hsteps
        split at h
        · cases h
          exact writable_object nofun
        · obtain ⟨⟨fields, _⟩, hread, ⟨⟩⟩ := Option.map_eq_some_iff.mp h
          exact writable_object (writable_ofList ((ih inside _).2.2 fields _ hread))
      · exact writable_of_readScalar h
    · unfold readItems at h
      obtain ⟨⟨item, more⟩, hitem, h⟩ := Option.bind_eq_some_iff.mp h
      have hfirst := (ih depth cs).1 item more hitem
      simp only at h
      split at h
      · obtain ⟨⟨others, _⟩, hothers, ⟨⟩⟩ := Option.bind_eq_some_iff.mp h
        exact List.forall_mem_cons.mpr ⟨hfirst, (ih depth _).2.1 others _ hothers⟩
      · cases h
        exact List.forall_mem_singleton.mpr hfirst
      · cases h
    · unfold readFields at h
      simp only at h
      split at h
      · obtain ⟨⟨name, more⟩, -, h⟩ := Option.bind_eq_some_iff.mp h
        simp only at h
        split at h
        · obtain ⟨⟨v, more⟩, hv, h⟩ := Option.bind_eq_some_iff.mp h
          have hfirst := (ih depth _).1 v more hv
          simp only at h
          split at h
          · obtain ⟨⟨others, _⟩, hothers, ⟨⟩⟩ := Option.bind_eq_some_iff.mp h
            exact List.forall_mem_cons.mpr ⟨hfirst, (ih depth _).2.2 others _ hothers⟩
          · cases h
            exact List.forall_mem_singleton.mpr hfirst
          · cases h
        · cases h
      · cases h

/-- **No text is read as a value with an integer that is too long.** -/
theorem writable_of_readWithin {depth : Nat} {s : String} {v : Value}
    (h : readWithin depth s = some v) : v.Writable := by
  unfold readWithin at h
  simp only at h
  split at h
  · rename_i hread
    split at h
    · cases h
      exact (writable_of_steps _ depth _).1 _ _ hread
    · cases h
  · cases h

end Json

end DecisionFlow
