import PrehniteDB.CascadeLiterals
import PrehniteDB.Constraints

namespace PrehniteDB.Sql

open AccessPaths (Schema literalValue)
open Constraints (Literal selectsEqual)
open ReadPaths (ColumnType)

/-!
# The literals of a cascade, read back

The constraints of a row take the text of a value for what it reads back as.  Apart
from a `REAL`, which they leave open, that is what the text is parsed to: a literal
that lexes bounds an index and selects rows as its parsed constant does, and one that
does not lex fails the nested statement.
-/

variable
  {schema : Schema}
  {name qualifier : String}
  {type : ColumnType}
  {place : Nat}
  {held value parsed : Value}
  {constant : PrehniteDB.Expr Statement}
  {realLiteral : UInt64 → Except Error Literal}

/-- On a column of one type, the comparison with a literal is the equality of values. -/
theorem selectsEqual_equal
    (apart : ∀ bits, value ≠ .real bits)
    (valueFits : value.fits type = true)
    (valueSome : value.isNull = false)
    (heldFits : held.fits type = true) :
    selectsEqual value held = .ok (held.equal value) := by
  cases value with
  | null => cases valueSome
  | real bits => exact absurd rfl (apart bits)
  | int number =>
      cases type <;> cases valueFits
      cases held <;> first | rfl | cases heldFits
  | text string =>
      cases type <;> cases valueFits
      cases held <;> first | rfl | cases heldFits
  | bool truth =>
      cases type <;> cases valueFits
      cases held <;> first | rfl | cases heldFits

/-- A row passes the parsed equation exactly when its value equals that of the literal. -/
theorem passes_equal
    (placed : Placed schema name type place)
    (known : Constant value constant parsed)
    (apart : ∀ bits, value ≠ .real bits)
    (valueFits : value.fits type = true)
    (valueSome : value.isNull = false)
    {row : List Value}
    (heldFits : (column row place).fits type = true) :
    PrehniteDB.passesFilter (some (equationFilter name constant)) (schema.scope qualifier) row =
      .ok ((column row place).equal value) := by
  have number : isNaN value = false := by
    cases value with
    | real bits => exact absurd rfl (apart bits)
    | null | int | text | bool => rfl
  have heldNumber : isNaN (column row place) = false := by
    generalize column row place = held at heldFits
    cases held with
    | null | int | text | bool => rfl
    | real bits =>
        cases type <;> cases heldFits
        cases value with
        | null => cases valueSome
        | real bits => exact absurd rfl (apart bits)
        | int | text | bool => cases valueFits
  obtain ⟨verdicts, passes⟩ :=
    @passes_iff _ _ qualifier _ _ _ _ _ placed known valueFits valueSome number _ heldFits
  obtain ⟨verdict, answered⟩ := verdicts.mpr heldNumber
  rw [answered, Except.ok.injEq] at passes
  rw [answered, Bool.eq_iff_iff.mpr passes]

/-- What the text of a value is read back as, in the constraints and by the parser. -/
theorem sqlLiteral_reads
    (apart : ∀ bits, value ≠ .real bits)
    (valueFits : value.fits type = true)
    (valueSome : value.isNull = false)
    (small : ¬ TooLarge value) :
    ∃ literal constant parsed,
      Constraints.sqlLiteral realLiteral value = .ok literal ∧
        Constant value constant parsed ∧ literal.indexed = literalValue constant ∧
          ∀ name place row,
            Placed schema name type place →
              (column row place).fits type = true →
                literal.selects (column row place) =
                  PrehniteDB.passesFilter (some (equationFilter name constant))
                    (schema.scope qualifier) row := by
  have representable : Representable value := by
    by_contra lost
    exact small ((tooLarge_iff_of_number valueSome fun bits shape => absurd shape (apart bits)).mpr
      lost)
  have selects {constant : PrehniteDB.Expr Statement} {parsed : Value}
      (known : Constant value constant parsed) (name : String) (place : Nat) (row : List Value)
      (placed : Placed schema name type place) (heldFits : (column row place).fits type = true) :
      selectsEqual value (column row place) =
        PrehniteDB.passesFilter (some (equationFilter name constant)) (schema.scope qualifier)
          row :=
    (selectsEqual_equal apart valueFits valueSome heldFits).trans
      (passes_equal placed known apart valueFits valueSome heldFits).symm
  cases value with
  | null => cases valueSome
  | real bits => exact absurd rfl (apart bits)
  | int number =>
      obtain ⟨constant, known⟩ := constant_int representable
      refine ⟨_, constant, _, if_neg representable, known, ?_, selects known⟩
      rw [known.literal]
      by_cases negative : number < 0 <;> simp [isSigned, negative]
  | text string =>
      have known := constant_text string
      exact ⟨_, _, _, rfl, known, known.literal.symm, selects known⟩
  | bool truth =>
      have known := constant_bool truth
      exact ⟨_, _, _, rfl, known, known.literal.symm, selects known⟩

theorem sqlLiteral_refused
    (apart : ∀ bits, value ≠ .real bits)
    (large : TooLarge value) :
    ∃ error, Constraints.sqlLiteral realLiteral value = .error error := by
  cases value with
  | null | text | bool => exact large.elim
  | real bits => exact absurd rfl (apart bits)
  | int number =>
      have least : number = Int64.minValue := by
        by_contra above
        exact (tooLarge_iff_of_number rfl fun bits shape => absurd shape (apart bits)).mp large above
      exact ⟨_, if_pos least⟩

end PrehniteDB.Sql
