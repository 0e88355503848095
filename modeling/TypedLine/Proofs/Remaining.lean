import TypedLine.Proofs.Behind
import TypedLine.Proofs.FailedOperation

/-!
# Reading what remains

Operations are carried out on what remains of a text at an offset, once as a text of its own and
once where it stands. The two runs go the same way: at each operation the same value or the same
failure, and all places of the second run are those of the first moved on by the offset
(`isMovedOn_of_moveTo`). So a caller may cut off what it has read and go on with the rest.

The runs are compared operation by operation (`apply_behind`), and where an operation leaves the
cursor the next one starts (`perform_behind`). That a failure has a place to be moved on is known
from `ArisesAt`, in both runs at once.
-/

namespace TypedLine

open Text

/-- The reading `r'` is the reading `r` **moved on** by `n` bytes. -/
structure Reading.IsMovedOn {α : Type} (n : Nat) (r r' : Reading α) : Prop where
  /-- The value is the same, and so is the failure, but for where it arose. -/
  outcome_eq : r'.outcome = r.outcome.mapError (.moveOn n)
  /-- Every failure arose at a place, and that is moved on. -/
  position?_eq : ∀ e, r.outcome = .error e →
    ∃ p, e.position? = some p ∧ (e.moveOn n).position? = some (n + p)
  /-- The cursor is moved on. -/
  position_eq : r'.cursor.position = n + r.cursor.position
  /-- The same is still to be read. -/
  remaining_eq : r'.cursor.remaining = r.cursor.remaining

/-! ### The place of a moved failure -/

namespace Failure

@[simp] theorem liesInQuote_moveOn (n : Nat) (e : Failure) :
    (e.moveOn n).liesInQuote = e.liesInQuote := by
  cases e with
  | _ => rfl

theorem position?_moveOn_of_liesInQuote {e : Failure} {p : Nat} (n : Nat)
    (hquote : e.liesInQuote = true) (hp : e.position? = some p) :
    (e.moveOn n).position? = some (n + p) := by
  cases e with
  | invalidEscape position found =>
    obtain rfl := Option.some.inj hp
    rfl
  | unterminatedQuote position =>
    obtain rfl := Option.some.inj hp
    rfl
  | _ => cases hquote

end Failure

namespace Cursor

variable {c : Cursor}

theorem arisesAt_of_apply {op : Operation} (hop : ∀ n, op ≠ .moveTo n) {e : Failure}
    (h : (op.apply c).outcome = .error e) : ∃ place, ArisesAt c e place := by
  cases op with
  | readChar => exact ⟨c, (readChar_of_error h).1⟩
  | expect ch => exact ⟨c, (expect_of_error h).1⟩
  | moveTo n => exact absurd rfl (hop n)
  | readQuoted => exact ⟨_, readQuoted_of_error h⟩
  | read k => exact (readContent_of_error h).1
  | skip | skipSpace | readBare => cases h

/-- A failure that arises with and without a text in front has its place moved on by the length of
that text. -/
theorem ArisesAt.position?_moveOn {front : List Char} {e : Failure} {place place' : Cursor}
    (h : ArisesAt c e place)
    (h' : ArisesAt (c.behind front) (e.moveOn (byteLength front)) place') :
    ∃ p, e.position? = some p ∧
      (e.moveOn (byteLength front)).position? = some (byteLength front + p) := by
  cases h with
  | here _ hquote hp =>
    cases h' with
    | here _ _ hp' => exact ⟨c.position, hp, hp'.trans (congrArg some (position_behind front c))⟩
    | inside _ _ _ hquote' =>
      -- The failure is of the same sort in both runs.
      rw [Failure.liesInQuote_moveOn, hquote] at hquote'
      cases hquote'
  | inside _ _ _ hquote hp =>
    exact ⟨place.position, hp, Failure.position?_moveOn_of_liesInQuote _ hquote hp⟩

/-! ### Operations behind a text -/

/-- An operation goes behind another text as it goes without it, but for a move to an offset. -/
theorem apply_behind {op : Operation} (hop : ∀ n, op ≠ .moveTo n) (front : List Char) (c : Cursor) :
    op.apply (c.behind front) = (op.apply c).behind front := by
  cases op with
  | readChar => exact readChar_behind front c
  | skip => exact congrArg (Reading.mk (.ok ())) (skip_behind front c)
  | skipSpace => exact congrArg (Reading.mk (.ok ())) (skipSpace_behind front c)
  | expect ch => exact expect_behind front c ch
  | moveTo n => exact absurd rfl (hop n)
  | readBare => exact readBare_behind front c
  | readQuoted => exact readQuoted_behind front c
  | read k => exact readContent_behind front c k

theorem isMovedOn_apply_behind {op : Operation} (hop : ∀ n, op ≠ .moveTo n) (front : List Char)
    (c : Cursor) : (op.apply c).IsMovedOn (byteLength front) (op.apply (c.behind front)) where
  outcome_eq := by
    rw [apply_behind hop]
    rfl
  position?_eq := by
    intro e he
    obtain ⟨place, harises⟩ := arisesAt_of_apply hop he
    have he' : (op.apply (c.behind front)).outcome = .error (e.moveOn (byteLength front)) := by
      rw [apply_behind hop, Reading.behind, he]
      rfl
    obtain ⟨place', harises'⟩ := arisesAt_of_apply hop he'
    exact harises.position?_moveOn harises'
  position_eq := by
    rw [apply_behind hop]
    exact position_behind front _
  remaining_eq := by
    rw [apply_behind hop]
    rfl

/-- The cursor after the operations, carried out one after the other, whether they go through or
fail. -/
def perform (c : Cursor) (ops : List Operation) : Cursor :=
  ops.foldl (fun c op ↦ (op.apply c).cursor) c

theorem perform_behind {ops : List Operation} (hops : ∀ n, Operation.moveTo n ∉ ops)
    (front : List Char) (c : Cursor) :
    (c.behind front).perform ops = (c.perform ops).behind front := by
  induction ops generalizing c with
  | nil => rfl
  | cons op ops ih =>
    have hop : ∀ n, op ≠ .moveTo n := fun n hn ↦ hops n (hn ▸ .head _)
    show (op.apply (c.behind front)).cursor.perform ops = _
    rw [apply_behind hop]
    exact ih (fun n hn ↦ hops n (.tail _ hn)) (op.apply c).cursor

/-- A move to the length of a text leads to the start of what stands behind it. -/
theorem moveTo_ofString_append (front text : String) :
    (ofString (front ++ text)).moveTo front.utf8ByteSize =
      .ok ((ofString text).behind front.toList) := by
  refine moveTo_eq_ok_iff.2 ⟨?_, ?_⟩
  · show front.toList ++ [] ++ text.toList = [] ++ (front ++ text).toList
    rw [String.toList_append, List.append_nil, List.nil_append]
  · rw [position_behind, utf8ByteSize_eq_byteLength]
    rfl

/-- **Operations depend only on what remains.** From where a text starts behind another one, every
operation of a sequence goes as it goes on that text alone, moved on by the length of the other. A
move to an offset is excepted, since it names a place itself. -/
theorem isMovedOn_of_moveTo (front text : String) :
    ∃ c, (ofString (front ++ text)).moveTo front.utf8ByteSize = .ok c ∧
      ∀ (ops : List Operation) (op : Operation), (∀ n, .moveTo n ∉ ops) → (∀ n, op ≠ .moveTo n) →
        (op.apply ((ofString text).perform ops)).IsMovedOn front.utf8ByteSize
          (op.apply (c.perform ops)) := by
  refine ⟨_, moveTo_ofString_append front text, fun ops op hops hop ↦ ?_⟩
  rw [perform_behind hops, utf8ByteSize_eq_byteLength]
  exact isMovedOn_apply_behind hop front.toList _

/-- Behind `aé` the text ` 1.5` is read as it is read alone: past the blank stands no integer, and
the place of the failure is moved on by three bytes. -/
theorem isMovedOn_of_moveTo_accented :
    (ofString ("aé" ++ " 1.5")).moveTo 3 = .ok ⟨['a', 'é'], [' ', '1', '.', '5']⟩ ∧
      ((Operation.read .int32).apply ⟨[' '], ['1', '.', '5']⟩).outcome =
        .error (.wrongType 1 "Int32" "1.5") ∧
      ((Operation.read .int32).apply ⟨['a', 'é', ' '], ['1', '.', '5']⟩).outcome =
        .error (.wrongType 4 "Int32" "1.5") := by
  obtain ⟨c, hc, hmoved⟩ := isMovedOn_of_moveTo "aé" " 1.5"
  have hmove : (ofString ("aé" ++ " 1.5")).moveTo 3 =
      .ok ⟨['a', 'é'], [' ', '1', '.', '5']⟩ := by rfl
  have hfails : ((Operation.read .int32).apply ⟨[' '], ['1', '.', '5']⟩).outcome =
      .error (.wrongType 1 "Int32" "1.5") := by rfl
  obtain rfl : ⟨['a', 'é'], [' ', '1', '.', '5']⟩ = c := Except.ok.inj (hmove.symm.trans hc)
  have hread := (hmoved [.skipSpace] (.read .int32) (by simp) nofun).outcome_eq
  refine ⟨hmove, hfails, ?_⟩
  rwa [show (ofString " 1.5").perform [.skipSpace] = ⟨[' '], ['1', '.', '5']⟩ by decide +kernel,
    hfails] at hread

end Cursor

end TypedLine
