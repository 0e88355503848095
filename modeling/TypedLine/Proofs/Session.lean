import Mathlib.Order.Defs.PartialOrder
import TypedLine.Proofs.FailedOperation

/-!
# Sessions

A session is a cursor in use. Operations are carried out at it one after the other, and those that
fail leave it somewhere as well; it is saved, and a cursor that was saved is taken up again.

However a session goes, its cursors stay in the text that it was started on
(`Session.text_of_mem_cursors_run`). A cursor is a place between two characters, and its position
counts bytes, so the bytes of the text can be cut at the position, into what is consumed and what
remains (`splits_position`). A move goes exactly to the offsets of such cuts.

The places of a text are ordered, and every other operation goes forward: `le_apply`.
-/

namespace TypedLine

open Text

namespace Cursor

variable {c d : Cursor}

/-! ### Going forward -/

/-- A cursor **comes before** another when there is text between them, perhaps empty. -/
instance : Preorder Cursor where
  le c d := ∃ between, d.before = c.before ++ between ∧ c.after = between ++ d.after
  le_refl c := ⟨[], (List.append_nil _).symm, rfl⟩
  le_trans := by
    rintro c d e ⟨between, hd, hc⟩ ⟨between', he, hd'⟩
    refine ⟨between ++ between', ?_, ?_⟩
    · rw [he, hd, List.append_assoc]
    · rw [hc, hd', List.append_assoc]

theorem chars_eq_of_le (h : c ≤ d) : d.chars = c.chars := by
  obtain ⟨between, hd, hc⟩ := h
  rw [chars, chars, hd, hc, List.append_assoc]

theorem position_le_of_le (h : c ≤ d) : c.position ≤ d.position := by
  obtain ⟨between, hd, -⟩ := h
  rw [position, position, hd, byteLength_append]
  exact Nat.le_add_right _ _

theorem le_skip (c : Cursor) : c ≤ c.skip := by
  rcases c with ⟨before, _ | ⟨ch, after⟩⟩
  · exact le_refl _
  · exact ⟨[ch], rfl, rfl⟩

theorem le_skipWhile (c : Cursor) (p : Char → Bool) : c ≤ c.skipWhile p :=
  ⟨c.after.takeWhile p, rfl, List.takeWhile_append_dropWhile.symm⟩

theorem le_readChar (c : Cursor) : c ≤ c.readChar.cursor := by
  rw [readChar]
  split
  · exact le_refl _
  · exact le_skip c

theorem le_expect (c : Cursor) (ch : Char) : c ≤ (c.expect ch).cursor := by
  rw [expect]
  split
  · exact le_skip c
  · exact le_refl _

theorem le_readNumber (c : Cursor) (k : Kind) {α : Type} (decode : List Char → Option α) :
    c ≤ (c.readNumber k decode).cursor := by
  rw [readNumber]
  split
  · exact le_refl _
  · split
    · exact le_skipWhile c isNumberChar
    · exact le_refl _

/-- A read of a string in quote marks goes past the first mark and what is used of the body, whether
the string is closed or at fault. -/
theorem le_readQuoted (c : Cursor) : c ≤ c.readQuoted.cursor := by
  obtain ⟨before, after⟩ := c
  rcases after with - | ⟨ch, after⟩
  · exact le_refl _
  by_cases hmark : ch = '"'
  · subst hmark
    have hbody : Cursor.mk before ('"' :: after) ≤
        ⟨before ++ '"' :: (readBody after).used, (readBody after).rest⟩ := by
      refine ⟨'"' :: (readBody after).used, rfl, ?_⟩
      rw [List.cons_append, readBody_used_append_rest]
    rcases houtcome : (readBody after).outcome with (found | -) | cs
    · simpa only [readQuoted, houtcome] using hbody
    · simpa only [readQuoted, houtcome] using hbody
    · simpa only [readQuoted, houtcome] using hbody
  · simp [readQuoted]

theorem le_readString (c : Cursor) : c ≤ c.readString.cursor := by
  rw [readString]
  split
  · exact le_readQuoted c
  · exact le_skipWhile c isBareChar

/-- A boolean is where its string is, or where it was. -/
theorem le_readBoolean (c : Cursor) : c ≤ c.readBoolean.cursor := by
  have hword := le_readString c
  rcases hs : c.readString with ⟨e | token, d⟩
  · simp only [readBoolean, hs]
    exact le_refl _
  · rw [hs] at hword
    simp only [readBoolean, hs]
    split
    · exact hword
    split
    · exact hword
    split
    · exact le_refl _
    · exact le_refl _

theorem le_readContent (c : Cursor) (k : Kind) : c ≤ (c.readContent k).cursor := by
  cases k with
  | string => exact le_readString c
  | boolean => exact le_readBoolean c
  | int32 | int64 | single | double => exact le_readNumber c _ _

/-- **Every operation but a move goes forward**, whether it goes through or fails. -/
theorem le_apply {op : Operation} (h : ∀ n, op ≠ .moveTo n) (c : Cursor) :
    c ≤ (op.apply c).cursor := by
  cases op with
  | readChar => exact le_readChar c
  | skip => exact le_skip c
  | skipSpace => exact le_skipWhile c isSpace
  | expect ch => exact le_expect c ch
  | moveTo n => exact absurd rfl (h n)
  | readBare => exact le_skipWhile c isBareChar
  | readQuoted => exact le_readQuoted c
  | read k => exact le_readContent c k

/-- **No operation changes the text.** -/
theorem chars_apply (op : Operation) (c : Cursor) : (op.apply c).cursor.chars = c.chars := by
  by_cases hmove : ∃ n, op = .moveTo n
  · obtain ⟨n, rfl⟩ := hmove
    rcases hn : c.moveTo n with e | c'
    · simp only [Operation.apply, hn]
    · simp only [Operation.apply, hn]
      exact (moveTo_eq_ok_iff.1 hn).1
  · exact chars_eq_of_le (le_apply (fun n hn ↦ hmove ⟨n, hn⟩) c)

/-! ### Places of a text -/

theorem text_eq_append (c : Cursor) : c.text = c.consumed ++ c.remaining :=
  String.ofList_append

theorem utf8ByteSize_consumed (c : Cursor) : c.consumed.utf8ByteSize = c.position := by
  rw [utf8ByteSize_eq_byteLength, consumed, String.toList_ofList]
  rfl

theorem rawEndPos_consumed (c : Cursor) : c.consumed.rawEndPos = ⟨c.position⟩ := by
  rw [String.Pos.Raw.ext_iff, String.byteIdx_rawEndPos, utf8ByteSize_consumed]

/-- The bytes of the text can be cut at the position. -/
theorem isValid_position (c : Cursor) : String.Pos.Raw.IsValid c.text ⟨c.position⟩ :=
  String.Pos.Raw.isValid_iff_exists_append.2
    ⟨c.consumed, c.remaining, text_eq_append c, (rawEndPos_consumed c).symm⟩

/-- The position cuts the text into what is consumed and what remains. -/
theorem splits_position (c : Cursor) :
    String.Pos.Splits ⟨⟨c.position⟩, isValid_position c⟩ c.consumed c.remaining :=
  ⟨text_eq_append c, (rawEndPos_consumed c).symm⟩

/-- A move goes exactly to the offsets where the bytes of the text can be cut. -/
theorem apply_moveTo_outcome_iff {n : Nat} :
    ((Operation.moveTo n).apply c).outcome = .ok () ↔ String.Pos.Raw.IsValid c.text ⟨n⟩ := by
  have hmove : ((Operation.moveTo n).apply c).outcome = .ok () ↔ ∃ d, c.moveTo n = .ok d := by
    rcases hn : c.moveTo n with e | d
    · simp [Operation.apply, hn]
    · simp [Operation.apply, hn]
  rw [hmove]
  refine ⟨fun h ↦ ?_, fun h ↦ ?_⟩
  · obtain ⟨d, hd⟩ := h
    obtain ⟨hchars, rfl⟩ := moveTo_eq_ok_iff.1 hd
    rw [text, ← hchars]
    exact isValid_position d
  · obtain ⟨front, back, htext, hn⟩ := String.Pos.Raw.isValid_iff_exists_append.1 h
    refine ⟨⟨front.toList, back.toList⟩, moveTo_eq_ok_iff.2 ⟨?_, ?_⟩⟩
    · rw [chars, ← String.toList_append, ← htext, text, String.toList_ofList]
    · rw [position, ← utf8ByteSize_eq_byteLength]
      exact (congrArg String.Pos.Raw.byteIdx hn).symm

end Cursor

/-! ### Sessions -/

/-- A **step** of a session. -/
inductive Step where
  /-- Carry an operation out. -/
  | operate (op : Operation)
  /-- Save the cursor. -/
  | save
  /-- Take up the cursor that was saved last, or `i` times before that. It stays saved. -/
  | restore (i : Nat)
  deriving DecidableEq, Repr

/-- The steps that may go back. -/
def Step.mayGoBack : Step → Bool
  | operate (.moveTo _) | restore _ => true
  | _ => false

/-- A cursor in use, and the cursors that were saved, the last first. -/
structure Session where
  /-- The cursor. -/
  cursor : Cursor
  /-- The saved cursors. -/
  saved : List Cursor

namespace Session

/-- Start at the start of a text. -/
def start (text : String) : Session :=
  ⟨Cursor.ofString text, []⟩

/-- Take a step. Where no cursor was saved nothing is taken up. -/
def step (s : Session) : Step → Session
  | .operate op => { s with cursor := (op.apply s.cursor).cursor }
  | .save => { s with saved := s.cursor :: s.saved }
  | .restore i => { s with cursor := s.saved[i]?.getD s.cursor }

/-- Take the steps one after the other. -/
def run (s : Session) (steps : List Step) : Session :=
  steps.foldl step s

/-- The cursors of the session, the one in use and those that were saved. -/
def cursors (s : Session) : List Cursor :=
  s.cursor :: s.saved

variable {s : Session} {text : String} {steps : List Step}

theorem run_append (s : Session) (steps more : List Step) :
    s.run (steps ++ more) = (s.run steps).run more :=
  List.foldl_append

/-- A step finds its cursor among those of the session, or makes it out of the one in use. -/
theorem mem_cursors_step {st : Step} {c : Cursor} (h : c ∈ (s.step st).cursors) :
    c ∈ s.cursors ∨ ∃ op : Operation, c = (op.apply s.cursor).cursor := by
  cases st with
  | operate op =>
    rcases List.mem_cons.1 h with rfl | h
    · exact .inr ⟨op, rfl⟩
    · exact .inl (.tail _ h)
  | save =>
    rcases List.mem_cons.1 h with rfl | h
    · exact .inl (.head _)
    · exact .inl h
  | restore i =>
    rcases List.mem_cons.1 h with rfl | h
    · rcases hi : s.saved[i]? with - | c
      · exact .inl (by simp [step, hi, cursors])
      · exact .inl (by simp [step, hi, cursors, List.mem_of_getElem? hi])
    · exact .inl (.tail _ h)

/-- The cursors stay in the text at every step, -/
theorem text_of_mem_cursors_step (h : ∀ c ∈ s.cursors, c.text = text) (st : Step) :
    ∀ c ∈ (s.step st).cursors, c.text = text := by
  intro c hc
  obtain hc | ⟨op, rfl⟩ := mem_cursors_step hc
  · exact h c hc
  · rw [← h s.cursor (.head _), Cursor.text, Cursor.chars_apply, Cursor.text]

/-- and so in every run. -/
theorem text_of_mem_cursors_run (h : ∀ c ∈ s.cursors, c.text = text) :
    ∀ c ∈ (s.run steps).cursors, c.text = text := by
  induction steps generalizing s with
  | nil => exact h
  | cons st steps ih => exact ih (text_of_mem_cursors_step h st)

/-- A step that may not go back goes forward, -/
theorem le_cursor_step {st : Step} (h : st.mayGoBack = false) : s.cursor ≤ (s.step st).cursor := by
  cases st with
  | operate op =>
    refine Cursor.le_apply (fun n hn ↦ ?_) s.cursor
    subst hn
    cases h
  | save => exact le_refl _
  | restore i => cases h

/-- and so does a run of such steps. -/
theorem le_cursor_run (h : ∀ st ∈ steps, st.mayGoBack = false) :
    s.cursor ≤ (s.run steps).cursor := by
  induction steps generalizing s with
  | nil => exact le_refl _
  | cons st steps ih =>
    obtain ⟨hst, hsteps⟩ := List.forall_mem_cons.1 h
    exact le_trans (le_cursor_step hst) (ih hsteps)

end Session

end TypedLine
