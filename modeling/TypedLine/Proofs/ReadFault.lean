import TypedLine.Proofs.FailedOperation

/-!
# Why a value is not read

A read of a value fails in few ways, and its kind decides which of them are open. A number is
missing, or the run of number characters that stands there is no numeral of the kind. A string has a
fault between its quote marks. A boolean is a string that says one of two words, so it may be
missing, say another word, or have the fault of its string. `ReadFault` lists these ways, and every
failed read goes one of them (`readFault_of_error`): a value is never refused because the text has
ended or because a certain character was required.

A failure says of itself whether the read has gone back, so that another one may be tried
(`Failure.isRecoverable`). It says so by what it is, and a read goes back by what is read.
`Operation.Misreports` lists where the two disagree, and there are no other places
(`isRecoverable_iff_cursor_eq_iff`).
-/

namespace TypedLine

open Text

namespace Cursor

/-- The place is **inside the quote** that opens at the cursor `c`: in the same text, past the
opening mark. -/
structure InsideQuote (c place : Cursor) : Prop where
  /-- A mark stands at the cursor. -/
  opened : c.peek? = some '"'
  /-- The text is the same. -/
  chars_eq : place.chars = c.chars
  /-- The mark has been read. -/
  position_lt : c.position < place.position

/-- **Why no value of the kind is read** from the cursor `c`. -/
inductive ReadFault (c : Cursor) : Kind → Failure → Prop
  /-- Nothing stands there, or an empty string where a boolean was expected. -/
  | missing {k : Kind} : k ≠ .string → ReadFault c k (.missingValue c.position k.name)
  /-- The longest run of number characters is no numeral of the kind. -/
  | refused {k : Kind} {token rest : List Char} : k ≠ .string → k ≠ .boolean →
    LongestRun isNumberChar c.after token rest → token ≠ [] →
      ReadFault c k (.wrongType c.position k.name (String.ofList token))
  /-- The string that stands there is neither of the two words. -/
  | otherWord {word : String} {used rest : List Char} :
    StringLexeme c.after used word rest → word ≠ "" → (∀ truth, word ≠ Value.booleanText truth) →
      ReadFault c .boolean (.wrongType c.position Kind.boolean.name word)
  /-- A backslash inside the quote stands before a character that needs none. -/
  | escape {k : Kind} {place : Cursor} {found : Char} : k = .string ∨ k = .boolean →
    InsideQuote c place → ReadFault c k (.invalidEscape place.position found)
  /-- The quote is not closed. -/
  | unclosed {k : Kind} {place : Cursor} : k = .string ∨ k = .boolean →
    InsideQuote c place → ReadFault c k (.unterminatedQuote place.position)

variable {c place : Cursor} {k : Kind} {e : Failure}

/-! ### Reads of each form -/

theorem readNumber_fault {α : Type} {decode : List Char → Option α} (hs : k ≠ .string)
    (hb : k ≠ .boolean) (h : (c.readNumber k decode).outcome = .error e) : ReadFault c k e := by
  have hrun := longestRun_takeWhile isNumberChar c.after
  have hread := numberReading (k := k) (fun token x ↦ (Iff.rfl : decode token = some x ↔ _)) hrun
  generalize c.readNumber k decode = r at h hread
  rcases hread with - | - | ⟨htoken, -⟩
  · obtain rfl := Except.error.inj h
    exact .missing hs
  · exact nomatch h
  · obtain rfl := Except.error.inj h
    exact .refused hs hb hrun htoken

/-- A fault that lies in a quote is one of the two that a string may have. -/
theorem ArisesAt.readFault (h : ArisesAt c e place) (hquote : e.liesInQuote)
    (hk : k = .string ∨ k = .boolean) : ReadFault c k e := by
  rcases h with ⟨-, hnot, -⟩ | ⟨hopened, hchars, hlt, -, hpos⟩
  · rw [hquote] at hnot
    exact nomatch hnot
  · have hinside : InsideQuote c place := ⟨hopened, hchars, hlt⟩
    match e, hquote, hpos with
    | .invalidEscape _ _, _, rfl => exact .escape hk hinside
    | .unterminatedQuote _, _, rfl => exact .unclosed hk hinside

/-- Behind a mark a quoted string fails only inside the quote. -/
theorem liesInQuote_of_readQuoted (hopened : c.peek? = some '"')
    (h : c.readQuoted.outcome = .error e) : e.liesInQuote := by
  obtain ⟨before, _ | ⟨ch, after⟩⟩ := c
  · exact absurd hopened.symm (Option.some_ne_none _)
  obtain rfl : ch = '"' := Option.some.inj hopened
  rcases hbody : (readBody after).outcome with (found | -) | cs
  · simp only [readQuoted, hbody] at h
    obtain rfl := Except.error.inj h
    rfl
  · simp only [readQuoted, hbody] at h
    obtain rfl := Except.error.inj h
    rfl
  · rw [readQuoted_of_body hbody] at h
    contradiction

theorem readString_fault (hk : k = .string ∨ k = .boolean)
    (h : c.readString.outcome = .error e) : ReadFault c k e := by
  obtain ⟨hopened, harises⟩ := readString_of_error h
  rw [readString, if_pos hopened] at h
  exact harises.readFault (liesInQuote_of_readQuoted hopened h) hk

theorem readBoolean_fault (h : c.readBoolean.outcome = .error e) : ReadFault c .boolean e := by
  rcases hs : c.readString with ⟨e' | word, d⟩
  · simp only [readBoolean, hs] at h
    obtain rfl := Except.error.inj h
    exact readString_fault (.inr rfl) (congrArg Reading.outcome hs)
  · obtain ⟨used, rest, hlex, -⟩ := readString_eq_ok_iff.1 hs
    simp only [readBoolean, hs] at h
    split at h
    · cases h
    rename_i htrue
    split at h
    · cases h
    rename_i hfalse
    split at h
    · obtain rfl := Except.error.inj h
      exact .missing (by decide)
    · rename_i hempty
      obtain rfl := Except.error.inj h
      exact .otherWord hlex hempty (Bool.forall_bool.2 ⟨hfalse, htrue⟩)

/-- **Every failed read of a value goes one of these ways.** -/
theorem readFault_of_error (h : (c.readContent k).outcome = .error e) : ReadFault c k e := by
  match k with
  | .string => exact readString_fault (.inl rfl) h
  | .boolean => exact readBoolean_fault h
  | .int32 | .int64 | .single | .double => exact readNumber_fault nofun nofun h

/-! ### What the ways have in common -/

namespace ReadFault

/-- Only a fault inside a quote is not recoverable. -/
theorem isRecoverable_iff (h : ReadFault c k e) : e.isRecoverable ↔ ¬ e.liesInQuote := by
  rcases h with - | - | - | - | - <;> simp [Failure.isRecoverable, Failure.liesInQuote]

/-- Numbers have no quotes. -/
theorem kind_of_liesInQuote (h : ReadFault c k e) (hquote : e.liesInQuote) :
    k = .string ∨ k = .boolean := by
  rcases h with - | - | - | hk | hk
  · exact nomatch hquote
  · exact nomatch hquote
  · exact nomatch hquote
  · exact hk
  · exact hk

end ReadFault

/-- The cursor is left at a failure only if that lies in a quote. -/
theorem ArisesAt.eq_iff (h : ArisesAt c e place) : place = c ↔ ¬ e.liesInQuote := by
  rcases h with ⟨rfl, hquote, -⟩ | ⟨-, -, hlt, hquote, -⟩
  · simp [hquote]
  · refine iff_of_false ?_ fun hnot ↦ hnot hquote
    rintro rfl
    exact Nat.lt_irrefl _ hlt

/-- A string in quote marks is refused for the end of the text, for another character, or for a
fault inside the quote. -/
theorem isRecoverable_iff_of_readQuoted (h : c.readQuoted.outcome = .error e) :
    e.isRecoverable ↔ ¬ e.liesInQuote ∧ c.after ≠ [] := by
  by_cases hopened : c.peek? = some '"'
  · have hquote := liesInQuote_of_readQuoted hopened h
    have hfault : ReadFault c .string e := (readQuoted_of_error h).readFault hquote (.inl rfl)
    rw [hfault.isRecoverable_iff]
    exact iff_of_false (fun hnot ↦ hnot hquote) fun hnot ↦ hnot.1 hquote
  · obtain ⟨before, _ | ⟨ch, after⟩⟩ := c
    · obtain rfl := Except.error.inj h
      exact iff_of_false Bool.false_ne_true fun hnot ↦ hnot.2 rfl
    · have hch : ch ≠ '"' := fun hch ↦ hopened (congrArg some hch)
      simp only [readQuoted] at h
      obtain rfl := Except.error.inj h
      exact iff_of_true rfl ⟨Bool.false_ne_true, List.cons_ne_nil ch after⟩

end Cursor

/-! ### What a failure says of the cursor -/

namespace Operation

/-- The reads of a lexeme: of a string in quote marks, and of a value. -/
def readsLexeme : Operation → Bool
  | readQuoted | read _ => true
  | _ => false

/-- The failure **misreports** the cursor: the read has gone back, and the failure says that it has
not. -/
inductive Misreports (c : Cursor) (e : Failure) : Operation → Prop
  /-- A string in quote marks was expected where the text has ended. -/
  | ended : c.after = [] → Misreports c e readQuoted
  /-- A boolean has a fault between quote marks. -/
  | boolean : e.liesInQuote → Misreports c e (read .boolean)

variable {op : Operation} {c : Cursor} {e : Failure}

/-- A failed read has gone back unless it has left a fault in a quote where it is. -/
theorem cursor_eq_iff (hop : op.readsLexeme) (h : (op.apply c).outcome = .error e) :
    (op.apply c).cursor = c ↔ ¬ (op.haltsInQuote ∧ e.liesInQuote) := by
  match op, hop, h with
  | readQuoted, _, h =>
    refine (Cursor.readQuoted_of_error h).eq_iff.trans ?_
    simp [haltsInQuote]
  | read .string, _, h =>
    refine (Cursor.readString_of_error h).2.eq_iff.trans ?_
    simp [haltsInQuote]
  | read .boolean, _, h => exact iff_of_true (Cursor.readBoolean_of_error h).2 nofun
  | read .int32, _, h | read .int64, _, h | read .single, _, h | read .double, _, h =>
    exact iff_of_true (Cursor.readNumber_of_error h).2 nofun

/-- A failure is recoverable unless it is a fault in a quote, or there is no more text to quote. -/
theorem isRecoverable_iff (hop : op.readsLexeme) (h : (op.apply c).outcome = .error e) :
    e.isRecoverable ↔ ¬ e.liesInQuote ∧ ¬ (op = readQuoted ∧ c.after = []) := by
  match op, hop, h with
  | readQuoted, _, h =>
    refine (Cursor.isRecoverable_iff_of_readQuoted h).trans ?_
    simp
  | read k, _, h =>
    refine (Cursor.readFault_of_error h).isRecoverable_iff.trans ?_
    simp

/-- A fault in a quote is found by a read of a string, which halts there, or of a boolean, which
goes back. -/
theorem haltsInQuote_iff_of_liesInQuote (hop : op.readsLexeme) (h : (op.apply c).outcome = .error e)
    (hquote : e.liesInQuote) : op.haltsInQuote ↔ op ≠ read .boolean := by
  match op, hop, h with
  | readQuoted, _, _ => exact iff_of_true rfl nofun
  | read k, _, h =>
    obtain rfl | rfl := (Cursor.readFault_of_error h).kind_of_liesInQuote hquote
    · exact iff_of_true rfl nofun
    · exact iff_of_false nofun fun hne ↦ hne rfl

theorem misreports_iff :
    op.Misreports c e ↔ op = readQuoted ∧ c.after = [] ∨ op = read .boolean ∧ e.liesInQuote := by
  refine ⟨?_, ?_⟩
  · rintro (hend | hquote)
    · exact .inl ⟨rfl, hend⟩
    · exact .inr ⟨rfl, hquote⟩
  · rintro (⟨rfl, hend⟩ | ⟨rfl, hquote⟩)
    · exact .ended hend
    · exact .boolean hquote

/-- **A recoverable failure has rewound the cursor, and a failure that is not recoverable has moved
it**, unless the failure misreports the cursor: a recoverable one never does. -/
theorem isRecoverable_iff_cursor_eq_iff (hop : op.readsLexeme)
    (h : (op.apply c).outcome = .error e) :
    (e.isRecoverable → (op.apply c).cursor = c) ∧
      ((e.isRecoverable ↔ (op.apply c).cursor = c) ↔ ¬ op.Misreports c e) := by
  have hrecoverable := isRecoverable_iff hop h
  have hcursor := cursor_eq_iff hop h
  refine ⟨fun he ↦ hcursor.2 fun hhalts ↦ (hrecoverable.1 he).1 hhalts.2, ?_⟩
  rw [hrecoverable, hcursor, misreports_iff]
  by_cases hquote : e.liesInQuote
  · -- Such a failure is never recoverable, so all depends on whether the read halts.
    have hended : ¬ (op = readQuoted ∧ c.after = []) := by
      rintro ⟨rfl, hend⟩
      have hopened : c.peek? = some '"' := by
        rcases Cursor.readQuoted_of_error h with ⟨-, hnot, -⟩ | ⟨hopened, -⟩
        · exact absurd hquote (Bool.eq_false_iff.1 hnot)
        · exact hopened
      rw [Cursor.peek?_eq_head?, hend] at hopened
      exact nomatch hopened
    simp [hquote, hended, haltsInQuote_iff_of_liesInQuote hop h hquote]
  · -- Such a failure has rewound the cursor, so all depends on whether it is recoverable.
    simp [hquote]

/-- In `"é\n"` the character behind the backslash needs none. A read of a string stays there, and
its failure is not recoverable. -/
theorem isRecoverable_iff_cursor_eq_iff_escape :
    ((read .string).apply (.ofString "\"é\\n\"")).outcome = .error (.invalidEscape 4 'n') ∧
      ((Failure.invalidEscape 4 'n').isRecoverable ↔
        ((read .string).apply (.ofString "\"é\\n\"")).cursor = .ofString "\"é\\n\"") := by
  have hfails : ((read .string).apply (.ofString "\"é\\n\"")).outcome =
      .error (.invalidEscape 4 'n') := rfl
  exact ⟨hfails, (isRecoverable_iff_cursor_eq_iff rfl hfails).2.2 nofun⟩

/-- A boolean that is read from `"tru` goes back, and so does a string in quote marks that is read
behind it, where the text has ended; neither failure is recoverable. -/
theorem not_isRecoverable_iff_cursor_eq :
    ((read .boolean).apply (.ofString "\"tru")).outcome = .error (.unterminatedQuote 4) ∧
      ¬ ((Failure.unterminatedQuote 4).isRecoverable ↔
        ((read .boolean).apply (.ofString "\"tru")).cursor = .ofString "\"tru") ∧
      (readQuoted.apply ⟨['"', 't', 'r', 'u'], []⟩).outcome = .error (.endOfText 4) ∧
      ¬ ((Failure.endOfText 4).isRecoverable ↔
        (readQuoted.apply ⟨['"', 't', 'r', 'u'], []⟩).cursor = ⟨['"', 't', 'r', 'u'], []⟩) := by
  have hboolean : ((read .boolean).apply (.ofString "\"tru")).cursor = .ofString "\"tru" := rfl
  refine ⟨rfl, fun hiff ↦ ?_, rfl, fun hiff ↦ ?_⟩
  · exact absurd (hiff.2 hboolean) nofun
  · exact absurd (hiff.2 rfl) nofun

end Operation

end TypedLine
