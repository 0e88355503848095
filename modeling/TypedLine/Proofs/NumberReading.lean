import TypedLine.Cursor.Read
import TypedLine.Proofs.Text.LongestRun

/-!
# Reads of numbers

All reads of numbers take the same **token**, the longest run of number characters, and differ only
in what they take it for. So each of them goes in one of three ways. `NumberReading` says which, by
the token and by what the tokens of the kind denote. Every read is of that form (`numberReading`),
and the form decides the read (`readNumber_iff`).
-/

namespace TypedLine

open Text

/-- **How a read of a number goes** from the cursor `c`, where the longest run of number characters
is `token` and `rest` is what follows it. `Denotes token x` says that the token is a numeral of
`x`. -/
inductive NumberReading {α : Type} (Denotes : List Char → α → Prop) (c : Cursor) (k : Kind)
    (token rest : List Char) : Reading α → Prop
  /-- Nothing stands there that could be a number. -/
  | missing : token = [] →
    NumberReading Denotes c k token rest ⟨.error (.missingValue c.position k.name), c⟩
  /-- The token is a numeral, and the cursor goes just past it. -/
  | taken {x : α} : Denotes token x →
    NumberReading Denotes c k token rest ⟨.ok x, ⟨c.before ++ token, rest⟩⟩
  /-- The token as a whole is no numeral, whatever it starts with. -/
  | refused : token ≠ [] → (∀ x, ¬ Denotes token x) →
    NumberReading Denotes c k token rest
      ⟨.error (.wrongType c.position k.name (String.ofList token)), c⟩

/-- A read that gives no number leaves the cursor where it is. -/
theorem NumberReading.cursor_of_error {α : Type} {Denotes : List Char → α → Prop} {c : Cursor}
    {k : Kind} {token rest : List Char} {r : Reading α} {e : Failure}
    (h : NumberReading Denotes c k token rest r) (he : r.outcome = .error e) : r.cursor = c := by
  cases h with
  | missing _ | refused _ _ => rfl
  | taken _ => cases he

namespace Cursor

variable {α β : Type} {c : Cursor} {k : Kind} {decode : List Char → Option α}
  {Denotes : List Char → α → Prop} {token rest : List Char} {r : Reading α}

/-- Behind the scan everything depends on the token. -/
theorem readNumber_of_longestRun (hrun : LongestRun isNumberChar c.after token rest) :
    c.readNumber k decode =
      if token = [] then ⟨.error (.missingValue c.position k.name), c⟩
      else match decode token with
        | some x => ⟨.ok x, ⟨c.before ++ token, rest⟩⟩
        | none => ⟨.error (.wrongType c.position k.name (String.ofList token)), c⟩ := by
  rw [readNumber, run, skipWhile, hrun.takeWhile_eq, hrun.dropWhile_eq]
  rcases token with - | ⟨ch, token⟩
  · rfl
  · rcases decode (ch :: token) with - | x
    · rfl
    · rfl

/-- To change what is read is to take the token for something else. -/
theorem map_readNumber (g : α → β) :
    (c.readNumber k decode).map g = c.readNumber k fun token ↦ (decode token).map g := by
  have hrun := longestRun_takeWhile isNumberChar c.after
  rw [readNumber_of_longestRun hrun, readNumber_of_longestRun hrun]
  split
  · rfl
  · rcases decode (c.after.takeWhile isNumberChar) with - | x
    · rfl
    · rfl

/-- **A read of a number goes as its token says.** -/
theorem numberReading (hdecode : ∀ token x, decode token = some x ↔ Denotes token x)
    (hrun : LongestRun isNumberChar c.after token rest) :
    NumberReading Denotes c k token rest (c.readNumber k decode) := by
  rw [readNumber_of_longestRun hrun]
  split
  · rename_i htoken
    exact .missing htoken
  · rename_i htoken
    rcases hread : decode token with - | x
    · refine .refused htoken fun x hx ↦ ?_
      rw [(hdecode token x).2 hx] at hread
      cases hread
    · exact .taken ((hdecode token x).1 hread)

/-- Where nothing is denoted by nothing, no two of the three ways are open at once. -/
theorem readNumber_iff (hdecode : ∀ token x, decode token = some x ↔ Denotes token x)
    (hnil : ∀ x, ¬ Denotes [] x) (hrun : LongestRun isNumberChar c.after token rest) :
    c.readNumber k decode = r ↔ NumberReading Denotes c k token rest r := by
  constructor
  · rintro rfl
    exact numberReading hdecode hrun
  · intro h
    rw [readNumber_of_longestRun hrun]
    cases h with
    | missing htoken => rw [if_pos htoken]
    | @taken x hx =>
      have htoken : token ≠ [] := by
        rintro rfl
        exact hnil x hx
      rw [if_neg htoken, (hdecode token x).2 hx]
    | refused htoken hnone =>
      have hread : decode token = none :=
        Option.eq_none_iff_forall_ne_some.2 fun x hx ↦ hnone x ((hdecode token x).1 hx)
      rw [if_neg htoken, hread]

end Cursor

end TypedLine
