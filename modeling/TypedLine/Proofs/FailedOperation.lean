import TypedLine.Proofs.Lexeme

/-!
# What a failed operation leaves behind

A caller that gets a failure from a cursor wants to try something else, so it has to know where
the cursor is then. The rule is that a failed operation rewinds. There is one exception: a string
in quote marks that is wrong between its marks leaves the cursor at the fault, so that the fault
can be shown. A boolean is read through a string and may fail for the same reason, but it rewinds
all the same.

`ArisesAt` says where a failure arises: at the cursor, before anything was read, or at a later
place behind an opening quote mark. Each operation has one lemma that finds the place, and from
the place everything else follows: `failure_frame`.
-/

namespace TypedLine

/-- Whether the failure is a fault between two quote marks. -/
def Failure.liesInQuote : Failure → Bool
  | invalidEscape .. | unterminatedQuote .. => true
  | _ => false

/-- An **operation** on a cursor: everything that moves it or may fail. -/
inductive Operation where
  /-- Read one character. -/
  | readChar
  /-- Go past one character, if there is one. -/
  | skip
  /-- Go past the whitespace after the cursor. -/
  | skipSpace
  /-- Read one character, which must be the given one. -/
  | expect (ch : Char)
  /-- Go to a byte offset of the text. -/
  | moveTo (position : Nat)
  /-- Read a bare string. -/
  | readBare
  /-- Read a string in quote marks. -/
  | readQuoted
  /-- Read what a value of the kind holds: a string of either form, a boolean, or a number. -/
  | read (k : Kind)
  deriving DecidableEq, Repr

namespace Operation

/-- What an operation gives when it goes through. -/
abbrev Result : Operation → Type
  | readChar => Char
  | skip | skipSpace | expect _ | moveTo _ => Unit
  | readBare | readQuoted => String
  | read k => k.Carrier

/-- Carry an operation out. A move that is refused is no move. -/
def apply (c : Cursor) : (op : Operation) → Reading op.Result
  | readChar => c.readChar
  | skip => ⟨.ok (), c.skip⟩
  | skipSpace => ⟨.ok (), c.skipSpace⟩
  | expect ch => c.expect ch
  | moveTo n =>
    match c.moveTo n with
    | .ok c' => ⟨.ok (), c'⟩
    | .error e => ⟨.error e, c⟩
  | readBare => c.readBare
  | readQuoted => c.readQuoted
  | read k => c.readContent k

/-- The operations that leave the cursor at a fault between quote marks. -/
def haltsInQuote : Operation → Bool
  | readQuoted | read .string => true
  | _ => false

end Operation

/-- **The frame of a failure**: what is known when `op`, from the cursor `c`, has failed with `e`
and has left the cursor `c'`. -/
structure FailureFrame (op : Operation) (c : Cursor) (e : Failure) (c' : Cursor) : Prop where
  /-- The text is what it was. -/
  text_eq : c'.text = c.text
  /-- The cursor is where it was, but for a fault between the quote marks of a string. -/
  rewinds : ¬ (op.haltsInQuote ∧ e.liesInQuote) → c' = c
  /-- For such a fault the cursor is where the failure says. -/
  halts : op.haltsInQuote ∧ e.liesInQuote → e.position? = some c'.position
  /-- A failure has a position that a cursor of the text may have. It is where the cursor was or,
  for a fault between quote marks, past that. A refused move is not asked for one. -/
  position : (∀ n, op ≠ .moveTo n) → ∃ p, e.position? = some p ∧ c.position ≤ p ∧ p ≤ c.length ∧
    (∃ place, c.moveTo p = .ok place) ∧ if e.liesInQuote then c.position < p else p = c.position
  /-- A run that may be empty is always there to be taken. -/
  total : op ≠ .readBare ∧ op ≠ .skip ∧ op ≠ .skipSpace
  /-- A string fails only where a quote mark stands. -/
  opened : op = .read .string → c.peek? = some '"'

namespace Cursor

variable {c c' : Cursor} {e : Failure}

/-! ### Places in a text -/

theorem position_le_length_of_chars_eq (h : c'.chars = c.chars) : c'.position ≤ c.length := by
  have hlength : c.length = c'.position + Text.byteLength c'.after := by
    rw [length, ← h, chars, Text.byteLength_append]
    rfl
  omega

/-- The failure `e`, from the cursor `c`, **arises at** the place: at the cursor, or past it behind
an opening quote mark. -/
inductive ArisesAt (c : Cursor) (e : Failure) (place : Cursor) : Prop
  /-- Nothing was read yet. -/
  | here : place = c → e.liesInQuote = false → e.position? = some c.position → ArisesAt c e place
  /-- The opening mark was read, and perhaps more. -/
  | inside : c.peek? = some '"' → place.chars = c.chars → c.position < place.position →
    e.liesInQuote = true → e.position? = some place.position → ArisesAt c e place

namespace ArisesAt

variable {place : Cursor}

theorem chars_eq (h : ArisesAt c e place) : place.chars = c.chars := by
  cases h with
  | here hplace => rw [hplace]
  | inside _ hchars => exact hchars

theorem position?_eq (h : ArisesAt c e place) : e.position? = some place.position := by
  cases h with
  | here hplace _ hpos => rw [hplace, hpos]
  | inside _ _ _ _ hpos => exact hpos

/-- What the frame of a failure says of its position. -/
theorem position (h : ArisesAt c e place) :
    ∃ p, e.position? = some p ∧ c.position ≤ p ∧ p ≤ c.length ∧
      (∃ place, c.moveTo p = .ok place) ∧
        if e.liesInQuote then c.position < p else p = c.position := by
  have hle : place.position ≤ c.length := position_le_length_of_chars_eq h.chars_eq
  have hmove : c.moveTo place.position = .ok place := moveTo_eq_ok_iff.2 ⟨h.chars_eq, rfl⟩
  refine ⟨place.position, h.position?_eq, ?_, hle, ⟨place, hmove⟩, ?_⟩
  · cases h with
    | here hplace => exact Nat.le_of_eq (congrArg Cursor.position hplace.symm)
    | inside _ _ hlt => exact Nat.le_of_lt hlt
  · cases h with
    | here hplace hquote =>
      rw [if_neg (by simp [hquote]), hplace]
    | inside _ _ hlt hquote =>
      rw [if_pos hquote]
      exact hlt

end ArisesAt

/-! ### The place of a failure, by operation -/

theorem readChar_of_error (h : c.readChar.outcome = .error e) :
    ArisesAt c e c ∧ c.readChar.cursor = c := by
  unfold readChar at h ⊢
  split at h
  · obtain rfl := Except.error.inj h
    exact ⟨.here rfl rfl rfl, rfl⟩
  · cases h

theorem expect_of_error {ch : Char} (h : (c.expect ch).outcome = .error e) :
    ArisesAt c e c ∧ (c.expect ch).cursor = c := by
  unfold expect at h ⊢
  split at h
  · cases h
  · rename_i hch
    obtain rfl := Except.error.inj h
    rw [if_neg hch]
    exact ⟨.here rfl rfl rfl, rfl⟩

/-- A number is missing, or what stands there is none: the failure is at the cursor either way. -/
theorem readNumber_of_error {k : Kind} {α : Type} {decode : List Char → Option α}
    (h : (c.readNumber k decode).outcome = .error e) :
    ArisesAt c e c ∧ (c.readNumber k decode).cursor = c := by
  have hread : NumberReading (decode · = some ·) c k _ _ (c.readNumber k decode) :=
    numberReading (fun _ _ ↦ Iff.rfl) (Text.longestRun_takeWhile isNumberChar c.after)
  generalize c.readNumber k decode = r at h hread ⊢
  cases hread with
  | missing _ | refused _ _ =>
    obtain rfl := Except.error.inj h
    exact ⟨.here rfl rfl rfl, rfl⟩
  | taken _ => cases h

/-- Behind the opening mark the body has lost nothing of the text, wherever it stopped. -/
theorem chars_of_body {before after : List Char} :
    (Cursor.mk (before ++ '"' :: (Text.readBody after).used) (Text.readBody after).rest).chars =
      (Cursor.mk before ('"' :: after)).chars := by
  show before ++ '"' :: (Text.readBody after).used ++ (Text.readBody after).rest =
    before ++ '"' :: after
  rw [List.append_assoc, List.cons_append, Text.readBody_used_append_rest]

/-- The mark itself has been read, so the place is past the start. -/
theorem position_lt_of_body {before used rest rest' : List Char} :
    (Cursor.mk before rest).position < (Cursor.mk (before ++ '"' :: used) rest').position := by
  show Text.byteLength before < Text.byteLength (before ++ '"' :: used)
  have hmark := Char.utf8Size_pos '"'
  rw [Text.byteLength_append, Text.byteLength_cons]
  omega

/-- A quoted string fails where its cursor is left. -/
theorem readQuoted_of_error (h : c.readQuoted.outcome = .error e) :
    ArisesAt c e c.readQuoted.cursor := by
  obtain ⟨before, after⟩ := c
  rcases after with - | ⟨ch, after⟩
  · obtain rfl : _ = e := Except.error.inj h
    exact .here rfl rfl rfl
  by_cases hmark : ch = '"'
  · subst hmark
    rcases hbody : (Text.readBody after).outcome with (found | -) | cs
    · simp only [readQuoted, hbody] at h ⊢
      obtain rfl := Except.error.inj h
      exact .inside rfl chars_of_body position_lt_of_body rfl rfl
    · simp only [readQuoted, hbody] at h ⊢
      obtain rfl := Except.error.inj h
      exact .inside rfl chars_of_body position_lt_of_body rfl rfl
    · rw [readQuoted_of_body hbody] at h
      cases h
  · have hread : (Cursor.mk before (ch :: after)).readQuoted =
        ⟨.error (.unexpectedChar (Cursor.mk before (ch :: after)).position "quote" (some ch)),
          ⟨before, ch :: after⟩⟩ := by
      simp [readQuoted]
    rw [hread] at h ⊢
    obtain rfl := Except.error.inj h
    exact .here rfl rfl rfl

/-- A bare string never fails, so a string that fails is quoted. -/
theorem readString_of_error (h : c.readString.outcome = .error e) :
    c.peek? = some '"' ∧ ArisesAt c e c.readString.cursor := by
  unfold readString at h ⊢
  split at h
  · rename_i hmark
    rw [if_pos hmark]
    exact ⟨hmark, readQuoted_of_error h⟩
  · cases h

/-- A boolean fails at the cursor or where its string does, and goes back in every case. -/
theorem readBoolean_of_error (h : c.readBoolean.outcome = .error e) :
    (∃ place, ArisesAt c e place) ∧ c.readBoolean.cursor = c := by
  rcases hs : c.readString with ⟨e' | token, d⟩
  · have hread : c.readBoolean = ⟨.error e', c⟩ := by
      simp only [readBoolean, hs]
    rw [hread] at h ⊢
    obtain rfl := Except.error.inj h
    exact ⟨⟨_, (readString_of_error (congrArg Reading.outcome hs)).2⟩, rfl⟩
  · have hread : (∃ truth, c.readBoolean.outcome = .ok truth) ∨
        ∃ e', c.readBoolean = ⟨.error e', c⟩ ∧ ArisesAt c e' c := by
      simp only [readBoolean, hs]
      split
      · exact .inl ⟨true, rfl⟩
      split
      · exact .inl ⟨false, rfl⟩
      split
      · exact .inr ⟨_, rfl, .here rfl rfl rfl⟩
      · exact .inr ⟨_, rfl, .here rfl rfl rfl⟩
    rcases hread with ⟨truth, hread⟩ | ⟨e', hread, harises⟩
    · rw [hread] at h
      cases h
    · rw [hread] at h ⊢
      obtain rfl := Except.error.inj h
      exact ⟨⟨c, harises⟩, rfl⟩

/-! ### The frame -/

/-- Every read of a kind fails at a place, and goes back to the cursor unless it is of a string. -/
theorem readContent_of_error {k : Kind} (h : (c.readContent k).outcome = .error e) :
    (∃ place, ArisesAt c e place) ∧
      if k = .string then ArisesAt c e (c.readContent k).cursor ∧ c.peek? = some '"'
      else (c.readContent k).cursor = c := by
  cases k with
  | string =>
    obtain ⟨hmark, harises⟩ := readString_of_error h
    exact ⟨⟨_, harises⟩, harises, hmark⟩
  | boolean => exact readBoolean_of_error h
  | int32 | int64 | single | double =>
    obtain ⟨harises, hcursor⟩ := readNumber_of_error h
    exact ⟨⟨c, harises⟩, hcursor⟩

end Cursor

namespace FailureFrame

variable {op : Operation} {c c' : Cursor} {e : Failure}

/-- An operation that goes back to the cursor wherever it fails. -/
theorem of_rewinds {place : Cursor} (h : c.ArisesAt e place) (hop : op.haltsInQuote = false)
    (htotal : op ≠ .readBare ∧ op ≠ .skip ∧ op ≠ .skipSpace) : FailureFrame op c e c where
  text_eq := rfl
  rewinds := fun _ ↦ rfl
  halts := fun hhalts ↦ absurd hhalts.1 (by simp [hop])
  position := fun _ ↦ h.position
  total := htotal
  opened := by
    rintro rfl
    cases hop

/-- An operation that leaves the cursor where it fails. -/
theorem of_halts (h : c.ArisesAt e c') (hop : op.haltsInQuote)
    (htotal : op ≠ .readBare ∧ op ≠ .skip ∧ op ≠ .skipSpace)
    (hopened : op = .read .string → c.peek? = some '"') : FailureFrame op c e c' where
  text_eq := congrArg String.ofList h.chars_eq
  rewinds := by
    intro hquote
    cases h with
    | here hplace => exact hplace
    | inside _ _ _ hlies => exact absurd ⟨hop, hlies⟩ hquote
  halts := fun _ ↦ h.position?_eq
  position := fun _ ↦ h.position
  total := htotal
  opened := hopened

/-- A refused move. -/
theorem of_moveTo {n : Nat} : FailureFrame (.moveTo n) c e c where
  text_eq := rfl
  rewinds := fun _ ↦ rfl
  halts := fun hhalts ↦ nomatch hhalts.1
  position := fun hop ↦ absurd rfl (hop n)
  total := ⟨nofun, nofun, nofun⟩
  opened := nofun

end FailureFrame

/-- The cursor stays where a move is refused. -/
theorem Cursor.apply_moveTo_of_error {n : Nat} {c : Cursor} {e : Failure}
    (h : ((Operation.moveTo n).apply c).outcome = .error e) :
    ((Operation.moveTo n).apply c).cursor = c := by
  rcases hmove : c.moveTo n with e' | c'
  · simp only [Operation.apply, hmove]
  · simp only [Operation.apply, hmove] at h
    cases h

/-- **A failed operation leaves the text as it was and rewinds the cursor**, except that a fault
between the quote marks of a string is where a string read leaves it. -/
theorem failure_frame {op : Operation} {c : Cursor} {e : Failure}
    (h : (op.apply c).outcome = .error e) : FailureFrame op c e (op.apply c).cursor := by
  cases op with
  | readChar =>
    obtain ⟨harises, hcursor⟩ := Cursor.readChar_of_error h
    show FailureFrame .readChar c e c.readChar.cursor
    rw [hcursor]
    exact .of_rewinds harises rfl ⟨nofun, nofun, nofun⟩
  | skip => cases h
  | skipSpace => cases h
  | expect ch =>
    obtain ⟨harises, hcursor⟩ := Cursor.expect_of_error h
    show FailureFrame (.expect ch) c e (c.expect ch).cursor
    rw [hcursor]
    exact .of_rewinds harises rfl ⟨nofun, nofun, nofun⟩
  | moveTo n =>
    rw [Cursor.apply_moveTo_of_error h]
    exact .of_moveTo
  | readBare => cases h
  | readQuoted => exact .of_halts (Cursor.readQuoted_of_error h) rfl ⟨nofun, nofun, nofun⟩ nofun
  | read k =>
    obtain ⟨⟨place, harises⟩, hcursor⟩ := Cursor.readContent_of_error h
    by_cases hk : k = .string
    · subst hk
      exact .of_halts hcursor.1 rfl ⟨nofun, nofun, nofun⟩ fun _ ↦ hcursor.2
    · have hop : (Operation.read k).haltsInQuote = false := by
        cases k with
        | string => exact absurd rfl hk
        | _ => rfl
      rw [if_neg hk] at hcursor
      show FailureFrame (.read k) c e (c.readContent k).cursor
      rw [hcursor]
      exact .of_rewinds harises hop ⟨nofun, nofun, nofun⟩

/-- In `ab "tru` a boolean that is read from the quote mark on fails at the end of the text, and
the cursor is back at the mark. -/
theorem failure_frame_unclosed_boolean :
    ((Operation.read .boolean).apply ⟨['a', 'b', ' '], ['"', 't', 'r', 'u']⟩).outcome =
        .error (.unterminatedQuote 7) ∧
      FailureFrame (.read .boolean) ⟨['a', 'b', ' '], ['"', 't', 'r', 'u']⟩ (.unterminatedQuote 7)
        ⟨['a', 'b', ' '], ['"', 't', 'r', 'u']⟩ := by
  have hfails : ((Operation.read .boolean).apply
      ⟨['a', 'b', ' '], ['"', 't', 'r', 'u']⟩).outcome = .error (.unterminatedQuote 7) := rfl
  exact ⟨hfails, failure_frame hfails⟩

end TypedLine
