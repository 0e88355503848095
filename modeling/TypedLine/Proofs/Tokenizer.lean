import TypedLine.Proofs.LookAhead
import TypedLine.Proofs.Scan
import TypedLine.Tokenizer

/-!
# Tokenizers never panic

A tokenizer moves a byte offset by hand. A cursor is a place between two characters, and as a text
with an offset it is a tokenizer (`Cursor.toTokenizer`). Such a tokenizer does everything the cursor
does: each operation ends, ends as that of the cursor, and leaves the tokenizer of the cursor that
the other leaves (`carryOut_toTokenizer`). The widths that are added are those of the characters
passed, the offsets that are gone back to were noted at the same text, and the slices begin and end
at places of the text.

So whatever is done to the tokenizer at the start of a text, its offset stays between two characters
of the text, nothing panics, and only a move to an offset and a tokenizer that is taken up again may
go back: `Tokenizer.Session.isSound_of_run`.
-/

namespace TypedLine

open Text

/-- The cursor as a text with a byte offset. -/
def Cursor.toTokenizer (c : Cursor) : Tokenizer :=
  ⟨c.text, c.position⟩

/-- A read of a cursor as one of a tokenizer. -/
def Reading.toTokenizer {α : Type} (r : Reading α) : Tokenizer.Reading α :=
  ⟨r.outcome, r.cursor.toTokenizer⟩

namespace Cursor

variable {c d : Cursor} {before after : List Char} {ch : Char}

/-! ### Slices -/

/-- The place at the position of a cursor. -/
theorem pos?_position (c : Cursor) :
    c.text.pos? ⟨c.position⟩ = some ⟨⟨c.position⟩, isValid_position c⟩ :=
  Tokenizer.pos?_offset ⟨⟨c.position⟩, isValid_position c⟩

theorem consumed?_toTokenizer (c : Cursor) : c.toTokenizer.consumed? = some c.consumed := by
  simp only [Tokenizer.consumed?, toTokenizer, pos?_position]
  exact congrArg some (splits_position c).copy_sliceTo_eq

theorem remaining?_toTokenizer (c : Cursor) : c.toTokenizer.remaining? = some c.remaining := by
  simp only [Tokenizer.remaining?, toTokenizer, pos?_position]
  exact congrArg some (splits_position c).copy_sliceFrom_eq

/-- What is passed is sliced off between the two positions. -/
theorem Passes.slice?_eq {s : String} (h : c.Passes s d) :
    Tokenizer.slice? c.text c.position d.position = some s := by
  obtain ⟨p, q, hpq, hp, hq, hcopy⟩ := h.exists_slice_eq
  rw [Tokenizer.slice?, ← hp, ← hq, Tokenizer.pos?_offset, Tokenizer.pos?_offset]
  simp [String.slice?, hpq, hcopy]

/-! ### Looking ahead -/

theorem peekAt?_toTokenizer (c : Cursor) (n : Nat) :
    c.toTokenizer.peekAt? n = some (c.peekAt? n) := by
  rw [Tokenizer.peekAt?, remaining?_toTokenizer]
  show some (c.remaining.toList[n]?) = _
  rw [remaining, String.toList_ofList, peekAt?]

theorem peek?_toTokenizer (c : Cursor) : c.toTokenizer.peek? = some c.peek? :=
  c.peekAt?_toTokenizer 0

theorem remainingLength?_toTokenizer (c : Cursor) :
    c.toTokenizer.remainingLength? = some c.after.length := by
  rw [Tokenizer.remainingLength?, remaining?_toTokenizer]
  show some c.remaining.length = _
  rw [remaining, String.length_ofList]

theorem canRead?_toTokenizer (c : Cursor) (n : Nat) :
    c.toTokenizer.canRead? n = some (c.canRead n) := by
  rw [Tokenizer.canRead?, peekAt?_toTokenizer]
  split
  · rename_i hn
    rw [canRead_iff_peekAt?.2 (.inl hn)]
  · rename_i hn
    show some (c.peekAt? (n - 1)).isSome = _
    rw [Option.some_inj, Bool.eq_iff_iff, canRead_iff_peekAt?, or_iff_right hn]

theorem length_toTokenizer (c : Cursor) : c.toTokenizer.length = c.length := by
  rw [Tokenizer.length, toTokenizer, text, utf8ByteSize_eq_byteLength, String.toList_ofList, length]

theorem isReadable_toTokenizer (c : Cursor) : c.toTokenizer.isReadable = c.isReadable := by
  rw [Bool.eq_iff_iff, c.looksAhead.isReadable_iff_lt, Tokenizer.isReadable, length_toTokenizer]
  exact decide_eq_true_iff

/-! ### Moving -/

/-- Advancing past a character goes from the place before it to the place behind it. -/
theorem advance_toTokenizer (before after : List Char) (ch : Char) :
    (mk before (ch :: after)).toTokenizer.advance ch = (mk (before ++ [ch]) after).toTokenizer := by
  simp [toTokenizer, Tokenizer.advance, text, chars, position]

/-- Going back to a position that was noted at the same text goes back to the cursor. -/
theorem rewind_toTokenizer (h : d.chars = c.chars) :
    d.toTokenizer.rewind c.position = c.toTokenizer := by
  simp [toTokenizer, Tokenizer.rewind, text, h]

theorem eq_of_moveTo_eq_error {n : Nat} {e : Failure} (h : c.moveTo n = .error e) :
    e = .invalidPosition n c.length := by
  rw [moveTo] at h
  split at h
  · cases h
  · exact (Except.error.inj h).symm

theorem setPosition_toTokenizer (c : Cursor) (n : Nat) :
    c.toTokenizer.setPosition n = some ((Operation.moveTo n).apply c).toTokenizer := by
  rw [Tokenizer.setPosition_eq, length_toTokenizer]
  rcases hmove : c.moveTo n with e | d
  · have hinvalid : ¬ String.Pos.Raw.IsValid c.toTokenizer.text ⟨n⟩ := by
      rw [toTokenizer, ← apply_moveTo_outcome_iff, Operation.apply, hmove]
      simp
    obtain rfl := eq_of_moveTo_eq_error hmove
    rw [if_neg hinvalid, Operation.apply, hmove]
    rfl
  · have hvalid : String.Pos.Raw.IsValid c.toTokenizer.text ⟨n⟩ := by
      rw [toTokenizer, ← apply_moveTo_outcome_iff, Operation.apply, hmove]
    obtain ⟨hchars, rfl⟩ := moveTo_eq_ok_iff.1 hmove
    rw [if_pos hvalid, Operation.apply, hmove]
    simp [Reading.toTokenizer, toTokenizer, text, hchars]

theorem skip_toTokenizer (c : Cursor) :
    c.toTokenizer.skip = some (Reading.toTokenizer ⟨.ok (), c.skip⟩) := by
  rw [Tokenizer.skip, peek?_toTokenizer]
  rcases c with ⟨before, _ | ⟨ch, after⟩⟩
  · rfl
  · show some (Tokenizer.Reading.mk (.ok ()) (Tokenizer.advance _ ch)) = _
    rw [advance_toTokenizer]
    rfl

theorem readChar_toTokenizer (c : Cursor) :
    c.toTokenizer.readChar = some c.readChar.toTokenizer := by
  rw [Tokenizer.readChar, peek?_toTokenizer]
  rcases c with ⟨before, _ | ⟨ch, after⟩⟩
  · rfl
  · show some (Tokenizer.Reading.mk (.ok ch) (Tokenizer.advance _ ch)) = _
    rw [advance_toTokenizer]
    rfl

theorem expect_toTokenizer (c : Cursor) (ch : Char) :
    c.toTokenizer.expect ch = some (c.expect ch).toTokenizer := by
  rw [Tokenizer.expect, peek?_toTokenizer, expect]
  simp only [Option.bind_eq_bind, Option.bind_some, skip_toTokenizer]
  split
  · rfl
  · rfl

/-! ### Scans -/

theorem advanceWhile_toTokenizer (before after : List Char) (p : Char → Bool) :
    (mk before after).toTokenizer.advanceWhile p =
      some ((mk before after).skipWhile p).toTokenizer := by
  -- Each character that is passed moves from the back of the cursor to its front.
  induction after generalizing before with
  | nil =>
    rw [Tokenizer.advanceWhile_of_end p (peek?_toTokenizer _)]
    simp [skipWhile]
  | cons ch after ih =>
    rw [Tokenizer.advanceWhile_of_peek? p (peek?_toTokenizer _)]
    by_cases hch : p ch
    · rw [if_pos hch, advance_toTokenizer, ih]
      simp [skipWhile, hch]
    · rw [if_neg hch]
      simp [skipWhile, hch]

theorem scan_toTokenizer (c : Cursor) (p : Char → Bool) :
    c.toTokenizer.scan p = some (String.ofList (c.run p), (c.skipWhile p).toTokenizer) := by
  have hslice : Tokenizer.slice? c.text c.position (c.skipWhile p).position =
      some (String.ofList (c.run p)) := (passes_scan c p).slice?_eq
  rw [Tokenizer.scan, advanceWhile_toTokenizer]
  show (Tokenizer.slice? c.text c.position (c.skipWhile p).position).bind _ = _
  rw [hslice]
  rfl

theorem skipSpace_toTokenizer (c : Cursor) :
    c.toTokenizer.skipSpace = some (Reading.toTokenizer ⟨.ok (), c.skipSpace⟩) := by
  rw [Tokenizer.skipSpace, scan_toTokenizer]
  rfl

theorem readBare_toTokenizer (c : Cursor) :
    c.toTokenizer.readBare = some c.readBare.toTokenizer := by
  rw [Tokenizer.readBare, scan_toTokenizer]
  rfl

theorem skipWhile_of_run_isEmpty {p : Char → Bool} (h : (c.run p).isEmpty = true) :
    c.skipWhile p = c := by
  have hrun : c.after.takeWhile p = [] := List.isEmpty_iff.1 h
  have hafter : c.after.takeWhile p ++ c.after.dropWhile p = c.after :=
    List.takeWhile_append_dropWhile
  rw [hrun, List.nil_append] at hafter
  rw [skipWhile, hrun, hafter, List.append_nil]

theorem readNumber_toTokenizer (c : Cursor) (k : Kind) {α : Type} (decode : List Char → Option α) :
    c.toTokenizer.readNumber k decode = some (c.readNumber k decode).toTokenizer := by
  have hrewind : (c.skipWhile isNumberChar).toTokenizer.rewind c.toTokenizer.position =
      c.toTokenizer := rewind_toTokenizer (chars_skipWhile c isNumberChar)
  have htoken : (String.ofList (c.run isNumberChar)).isEmpty = (c.run isNumberChar).isEmpty := by
    rw [Bool.eq_iff_iff, String.isEmpty_iff, String.ofList_eq_empty_iff, List.isEmpty_iff]
  rw [Tokenizer.readNumber, scan_toTokenizer, readNumber]
  simp only [Option.bind_eq_bind, Option.bind_some, htoken, String.toList_ofList, hrewind]
  by_cases hempty : (c.run isNumberChar).isEmpty
  · rw [if_pos hempty, if_pos hempty, skipWhile_of_run_isEmpty hempty]
    rfl
  · rw [if_neg hempty, if_neg hempty]
    rcases decode (c.run isNumberChar) with - | number
    · rfl
    · rfl

/-! ### Strings in quote marks -/

/-- How a string goes of which `result` is read before the cursor stands at `before`, when its body
goes on as `body`. -/
def bodyReading (result : String) (before : List Char) (body : BodyReading) : Reading String :=
  let stop : Cursor := ⟨before ++ body.used, body.rest⟩
  match body.outcome with
  | .ok cs => ⟨.ok (result ++ String.ofList cs), stop⟩
  | .error (.badEscape found) => ⟨.error (.invalidEscape stop.position found), stop⟩
  | .error .unterminated => ⟨.error (.unterminatedQuote stop.position), stop⟩

/-- A string in quote marks is its opening mark and its body. -/
theorem readQuoted_eq_bodyReading (before after : List Char) :
    (mk before ('"' :: after)).readQuoted = bodyReading "" (before ++ ['"']) (readBody after) := by
  have happend (used : List Char) : before ++ ['"'] ++ used = before ++ '"' :: used := by
    rw [List.append_assoc, List.singleton_append]
  rcases hbody : readBody after with ⟨fault | cs, used, rest⟩
  · cases fault with
    | _ => simp only [readQuoted, bodyReading, hbody, happend]
  · simp only [readQuoted, bodyReading, hbody, happend, String.empty_append]

/-- A character that is read goes to the end of what is read. -/
theorem bodyReading_push (result : String) (before raw : List Char) (ch : Char)
    (body : BodyReading) :
    bodyReading result before (body.push raw ch) =
      bodyReading (result.push ch) (before ++ raw) body := by
  obtain ⟨(found | -) | cs, used, rest⟩ := body
  · simp [bodyReading, BodyReading.push, Except.map]
  · simp [bodyReading, BodyReading.push, Except.map]
  · have hpush : result ++ String.ofList (ch :: cs) = result.push ch ++ String.ofList cs := by
      rw [String.ofList_cons, ← String.append_assoc, String.append_singleton]
    simp only [bodyReading, BodyReading.push, Except.map, hpush, List.append_assoc]

/-- One character more of a string in quote marks. -/
theorem readBody_toTokenizer_cons (result : String) (escaped : Bool) (before after : List Char)
    (ch : Char) :
    (mk before (ch :: after)).toTokenizer.readBody result escaped =
      if escaped then
        if ch ≠ '"' ∧ ch ≠ '\\' then
          some (Reading.toTokenizer ⟨.error (.invalidEscape (mk before (ch :: after)).position ch),
            mk before (ch :: after)⟩)
        else (mk (before ++ [ch]) after).toTokenizer.readBody (result.push ch) false
      else if ch = '\\' then (mk (before ++ [ch]) after).toTokenizer.readBody result true
      else if ch = '"' then some (Reading.toTokenizer ⟨.ok result, mk (before ++ [ch]) after⟩)
      else (mk (before ++ [ch]) after).toTokenizer.readBody (result.push ch) false := by
  rw [Tokenizer.readBody_of_peek? _ _ (peek?_toTokenizer _), advance_toTokenizer]
  rfl

theorem readBody_toTokenizer (result : String) (before after : List Char) :
    (mk before after).toTokenizer.readBody result false =
      some (bodyReading result before (readBody after)).toTokenizer := by
  fun_induction readBody after generalizing result before with
  | case1 =>
    rw [Tokenizer.readBody_of_end _ _ (peek?_toTokenizer _)]
    simp [bodyReading, Reading.toTokenizer, toTokenizer]
  | case2 cs =>
    rw [readBody_toTokenizer_cons]
    simp [bodyReading]
  | case3 =>
    rw [readBody_toTokenizer_cons, if_neg Bool.false_ne_true, if_pos rfl,
      Tokenizer.readBody_of_end _ _ (peek?_toTokenizer _)]
    rfl
  | case4 ch cs hch ih =>
    have hspecial : ¬ (ch ≠ '"' ∧ ch ≠ '\\') := fun h ↦ hch.elim h.1 h.2
    rw [readBody_toTokenizer_cons, if_neg Bool.false_ne_true, if_pos rfl,
      readBody_toTokenizer_cons, if_pos rfl, if_neg hspecial, ih, bodyReading_push,
      List.append_assoc]
    rfl
  | case5 ch cs hch =>
    rw [readBody_toTokenizer_cons, if_neg Bool.false_ne_true, if_pos rfl,
      readBody_toTokenizer_cons, if_pos rfl, if_pos (not_or.1 hch)]
    rfl
  | case6 ch cs hquote hlast hescape ih =>
    have hbackslash : ch ≠ '\\' := by
      rintro rfl
      rcases cs with - | ⟨d, cs⟩
      · exact hlast rfl rfl
      · exact hescape d cs rfl rfl
    rw [readBody_toTokenizer_cons, if_neg Bool.false_ne_true, if_neg hbackslash, if_neg hquote, ih,
      bodyReading_push]

theorem readQuoted_toTokenizer (c : Cursor) :
    c.toTokenizer.readQuoted = some c.readQuoted.toTokenizer := by
  rw [Tokenizer.readQuoted, peek?_toTokenizer]
  rcases c with ⟨before, _ | ⟨ch, after⟩⟩
  · rfl
  · by_cases hmark : ch = '"'
    · subst hmark
      rw [readQuoted_eq_bodyReading, ← readBody_toTokenizer]
      show Option.bind (Tokenizer.skip _) _ = _
      rw [skip_toTokenizer]
      rfl
    · have hread : (mk before (ch :: after)).readQuoted =
          ⟨.error (.unexpectedChar (mk before (ch :: after)).position "quote" (some ch)),
            mk before (ch :: after)⟩ := by simp [readQuoted]
      rw [hread]
      simp only [Option.bind_eq_bind, Option.bind_some]
      split
      · rename_i hnone
        cases hnone
      · rename_i hquote
        exact absurd (Option.some.inj hquote) hmark
      · rename_i hfound
        obtain rfl := Option.some.inj hfound
        rfl

theorem readString_toTokenizer (c : Cursor) :
    c.toTokenizer.readString = some c.readString.toTokenizer := by
  rw [Tokenizer.readString, peek?_toTokenizer, readString, readQuoted_toTokenizer,
    readBare_toTokenizer]
  simp only [Option.bind_eq_bind, Option.bind_some]
  split
  · rfl
  · rfl

theorem readBoolean_toTokenizer (c : Cursor) :
    c.toTokenizer.readBoolean = some c.readBoolean.toTokenizer := by
  have hrewind : c.readString.cursor.toTokenizer.rewind c.toTokenizer.position = c.toTokenizer :=
    rewind_toTokenizer (chars_eq_of_le (le_readString c))
  rw [Tokenizer.readBoolean, readString_toTokenizer, readBoolean]
  simp only [Option.bind_eq_bind, Option.bind_some, Reading.toTokenizer, hrewind]
  rcases c.readString.outcome with e | token
  · rfl
  · by_cases htrue : token = Value.booleanText true
    · simp only [if_pos htrue]
      rfl
    by_cases hfalse : token = Value.booleanText false
    · simp only [if_neg htrue, if_pos hfalse]
      rfl
    by_cases hempty : token = ""
    · simp only [if_neg htrue, if_neg hfalse, if_pos hempty]
      rfl
    · simp only [if_neg htrue, if_neg hfalse, if_neg hempty]
      rfl

theorem readContent_toTokenizer (c : Cursor) (k : Kind) :
    c.toTokenizer.readContent k = some (c.readContent k).toTokenizer := by
  cases k with
  | string => exact readString_toTokenizer c
  | boolean => exact readBoolean_toTokenizer c
  | int32 =>
    exact readNumber_toTokenizer c .int32 fun token ↦ (Numeral.readInt? token).bind int32?
  | int64 =>
    exact readNumber_toTokenizer c .int64 fun token ↦ (Numeral.readInt? token).bind int64?
  | single => exact readNumber_toTokenizer c .single _
  | double => exact readNumber_toTokenizer c .double _

end Cursor

/-! ### Operations -/

namespace Tokenizer

/-- Carry an operation out. -/
def carryOut (t : Tokenizer) : (op : Operation) → Option (Reading op.Result)
  | .readChar => t.readChar
  | .skip => t.skip
  | .skipSpace => t.skipSpace
  | .expect ch => t.expect ch
  | .moveTo n => t.setPosition n
  | .readBare => t.readBare
  | .readQuoted => t.readQuoted
  | .read k => t.readContent k

/-- **A tokenizer does what the cursor does**, and does not panic. -/
theorem carryOut_toTokenizer (c : Cursor) (op : Operation) :
    c.toTokenizer.carryOut op = some (op.apply c).toTokenizer := by
  cases op with
  | readChar => exact c.readChar_toTokenizer
  | skip => exact c.skip_toTokenizer
  | skipSpace => exact c.skipSpace_toTokenizer
  | expect ch => exact c.expect_toTokenizer ch
  | moveTo n => exact c.setPosition_toTokenizer n
  | readBare => exact c.readBare_toTokenizer
  | readQuoted => exact c.readQuoted_toTokenizer
  | read k => exact c.readContent_toTokenizer k

/-- The tokenizer is **sound** for a text: it is at a place of the text and can be used there. -/
structure IsSound (t : Tokenizer) (text : String) : Prop where
  /-- The text is this one. -/
  text_eq : t.text = text
  /-- The offset is not past the end, -/
  position_le : t.position ≤ text.utf8ByteSize
  /-- and it lies between two characters. -/
  isValid : String.Pos.Raw.IsValid text ⟨t.position⟩
  /-- What is consumed and what remains can be sliced off, and they are the text. -/
  halves : ∃ front back, t.consumed? = some front ∧ t.remaining? = some back ∧ front ++ back = text
  /-- Looking ahead does not panic, -/
  looksAhead : (∀ n, (t.peekAt? n).isSome ∧ (t.canRead? n).isSome) ∧ t.remainingLength?.isSome
  /-- and no operation does. -/
  operates : ∀ op, (t.carryOut op).isSome

/-- Every place of a text makes a tokenizer that is sound. -/
theorem isSound_toTokenizer (c : Cursor) : c.toTokenizer.IsSound c.text where
  text_eq := rfl
  position_le := by
    have hlength : c.text.utf8ByteSize = c.length := c.length_toTokenizer
    rw [hlength]
    exact Cursor.position_le_length_of_chars_eq rfl
  isValid := c.isValid_position
  halves := ⟨c.consumed, c.remaining, c.consumed?_toTokenizer, c.remaining?_toTokenizer,
    c.text_eq_append.symm⟩
  looksAhead := by
    refine ⟨fun n ↦ ⟨?_, ?_⟩, ?_⟩
    · rw [c.peekAt?_toTokenizer n, Option.isSome_some]
    · rw [c.canRead?_toTokenizer n, Option.isSome_some]
    · rw [c.remainingLength?_toTokenizer, Option.isSome_some]
  operates op := by rw [carryOut_toTokenizer, Option.isSome_some]

/-! ### Sessions -/

/-- A tokenizer in use, and the tokenizers that were saved, the last first. -/
structure Session where
  /-- The tokenizer. -/
  tokenizer : Tokenizer
  /-- The saved tokenizers. -/
  saved : List Tokenizer

namespace Session

/-- Start at the start of a text. -/
def start (text : String) : Session :=
  ⟨ofString text, []⟩

/-- Take a step, unless it panics. Where no tokenizer was saved nothing is taken up. -/
def step? (s : Session) : Step → Option Session
  | .operate op => do return { s with tokenizer := (← s.tokenizer.carryOut op).tokenizer }
  | .save => some { s with saved := s.tokenizer :: s.saved }
  | .restore i => some { s with tokenizer := s.saved[i]?.getD s.tokenizer }

/-- Take the steps one after the other, unless one panics. -/
def run? (s : Session) (steps : List Step) : Option Session :=
  steps.foldlM step? s

/-- The tokenizers of the session, the one in use and those that were saved. -/
def tokenizers (s : Session) : List Tokenizer :=
  s.tokenizer :: s.saved

/-- A session of cursors as one of tokenizers. -/
def ofCursors (s : TypedLine.Session) : Session :=
  ⟨s.cursor.toTokenizer, s.saved.map Cursor.toTokenizer⟩

theorem start_eq_ofCursors (text : String) :
    start text = ofCursors (TypedLine.Session.start text) := by
  simp [start, ofCursors, TypedLine.Session.start, Cursor.toTokenizer, ofString, Cursor.ofString,
    Cursor.text, Cursor.chars, Cursor.position]

/-- A step of tokenizers is one of cursors, -/
theorem step?_ofCursors (s : TypedLine.Session) (st : Step) :
    (ofCursors s).step? st = some (ofCursors (s.step st)) := by
  cases st with
  | operate op =>
    rw [step?, ofCursors, carryOut_toTokenizer]
    rfl
  | save => rfl
  | restore i =>
    rw [step?, ofCursors, TypedLine.Session.step, ofCursors]
    rcases hi : s.saved[i]? with - | c
    · simp [hi]
    · simp [hi]

/-- and so is a run. -/
theorem run?_ofCursors (s : TypedLine.Session) (steps : List Step) :
    (ofCursors s).run? steps = some (ofCursors (s.run steps)) := by
  induction steps generalizing s with
  | nil => rfl
  | cons st steps ih =>
    rw [run?, List.foldlM_cons, step?_ofCursors]
    exact ih (s.step st)

/-- **However a tokenizer is used, it stays sound and nothing panics.** Whatever the steps are, and
whether the operations among them go through or fail, the session takes them all; its tokenizers,
the one in use and those that were saved, are sound for its text; and a move goes exactly to the
offsets between two characters. Without a move and without a tokenizer taken up again the offset
never goes back. -/
theorem isSound_of_run (text : String) (steps : List Step) :
    ∃ s, (start text).run? steps = some s ∧
      (∀ t ∈ s.tokenizers, t.IsSound text) ∧
      (∀ n, s.tokenizer.setPosition n =
        if String.Pos.Raw.IsValid text ⟨n⟩ then some ⟨.ok (), ⟨text, n⟩⟩
        else some ⟨.error (.invalidPosition n text.utf8ByteSize), s.tokenizer⟩) ∧
      ∀ more : List Step, (∀ st ∈ more, st.mayGoBack = false) →
        ∃ s', (start text).run? (steps ++ more) = some s' ∧
          s.tokenizer.position ≤ s'.tokenizer.position := by
  have hrun : ∀ steps, (start text).run? steps =
      some (ofCursors ((TypedLine.Session.start text).run steps)) := by
    intro steps
    rw [start_eq_ofCursors, run?_ofCursors]
  have hstart : ∀ c ∈ (TypedLine.Session.start text).cursors, c.text = text :=
    List.forall_mem_singleton.2 String.ofList_toList
  have htext := @TypedLine.Session.text_of_mem_cursors_run _ _ steps hstart
  have hsound : ∀ t ∈ (ofCursors ((TypedLine.Session.start text).run steps)).tokenizers,
      t.IsSound text := by
    intro t ht
    obtain ⟨c, hc, rfl⟩ : ∃ c ∈ ((TypedLine.Session.start text).run steps).cursors,
        c.toTokenizer = t := List.mem_map.1 ht
    have hplace := isSound_toTokenizer c
    rwa [htext c hc] at hplace
  refine ⟨_, hrun steps, hsound, fun n ↦ ?_, fun more hmore ↦ ⟨_, hrun (steps ++ more), ?_⟩⟩
  · rw [setPosition_eq, length, (hsound _ (.head _)).text_eq]
  · rw [TypedLine.Session.run_append]
    exact Cursor.position_le_of_le
      (TypedLine.Session.le_cursor_run (s := (TypedLine.Session.start text).run steps) hmore)

/-- In `aé"x` the tokenizer is saved before the `é`, a move into the `é` is refused, and the string
behind it is read to its fault at the end. Taken up again, the tokenizer reads on from where it was
saved. -/
theorem isSound_of_run_accented :
    ∃ s, (start "aé\"x").run? [.operate .readChar, .save, .operate (.moveTo 2), .operate .skip,
        .operate .readQuoted, .restore 0] = some s ∧
      s.tokenizer = ⟨"aé\"x", 1⟩ ∧ s.tokenizer.IsSound "aé\"x" ∧
      ∃ s', (start "aé\"x").run? ([.operate .readChar, .save, .operate (.moveTo 2), .operate .skip,
          .operate .readQuoted, .restore 0] ++ [.operate .skip, .operate .readQuoted]) = some s' ∧
        1 ≤ s'.tokenizer.position := by
  obtain ⟨s, hrun, hsound, -, hforward⟩ := isSound_of_run "aé\"x" [.operate .readChar, .save,
    .operate (.moveTo 2), .operate .skip, .operate .readQuoted, .restore 0]
  have hcursor : ((TypedLine.Session.start "aé\"x").run [.operate .readChar, .save,
      .operate (.moveTo 2), .operate .skip, .operate .readQuoted, .restore 0]).cursor =
        ⟨['a'], ['é', '"', 'x']⟩ := by decide +kernel
  have htokenizer : s.tokenizer = ⟨"aé\"x", 1⟩ := by
    have hcursors := hrun
    rw [start_eq_ofCursors, run?_ofCursors, Option.some_inj] at hcursors
    rw [← hcursors, ofCursors, hcursor]
    rfl
  obtain ⟨s', hrun', hle⟩ := hforward [.operate .skip, .operate .readQuoted] (by decide)
  rw [htokenizer] at hle
  exact ⟨s, hrun, htokenizer, hsound _ (.head _), s', hrun', hle⟩

end Session

end Tokenizer

end TypedLine
