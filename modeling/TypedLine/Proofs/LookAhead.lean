import TypedLine.Cursor.Read

/-!
# Looking ahead

Whoever looks ahead of a cursor wants to know how reads of one character would go from there,
without carrying them out. A run of such reads is known in full (`readChars_eq`): it gives the
characters that remain, in their order, and from the end of the text on nothing but the failure
that the text has ended, with the cursor at the end for good.

What the look-ahead says is what these runs give: `LooksAhead`. It counts characters, while
positions count bytes. The two meet in one fact only: the end of the text, and no other place, is
as many bytes from the start as the text has (`position_lt_length_iff`).
-/

namespace TypedLine.Cursor

open Text

variable {c : Cursor} {n : Nat}

/-- What `n` reads of one character give, one after the other, whether they go through or fail, and
where the cursor stands after them. -/
def readChars (c : Cursor) : Nat → List (Except Failure Char) × Cursor
  | 0 => ([], c)
  | n + 1 =>
    let later := c.readChar.cursor.readChars n
    (c.readChar.outcome :: later.1, later.2)

/-! ### Runs of reads -/

/-- **A run of reads** gives the characters that remain and then fails at the end. -/
theorem readChars_eq (c : Cursor) (n : Nat) :
    c.readChars n =
      ((c.after.take n).map .ok ++
          List.replicate (n - c.after.length) (.error (.endOfText c.length)),
        ⟨c.before ++ c.after.take n, c.after.drop n⟩) := by
  -- A read at the end leaves the cursor there, and any other one takes one character off what
  -- remains; the run goes on from where it is left.
  induction n generalizing c with
  | zero => simp [readChars]
  | succ n ih =>
    rcases c with ⟨before, _ | ⟨ch, after⟩⟩
    · have hread : (Cursor.mk before []).readChar =
          ⟨.error (.endOfText (Cursor.mk before []).length), ⟨before, []⟩⟩ := by
        simp [readChar, position, length, chars]
      simp [readChars, hread, ih, List.replicate_succ]
    · have hread : (Cursor.mk before (ch :: after)).readChar =
          ⟨.ok ch, ⟨before ++ [ch], after⟩⟩ := rfl
      simp [readChars, hread, ih, length, chars]

/-- All reads of a run go through when as many characters remain. -/
theorem forall_mem_readChars_iff :
    (∀ o ∈ (c.readChars n).1, ∃ ch, o = .ok ch) ↔ n ≤ c.after.length := by
  rw [readChars_eq]
  refine ⟨fun h ↦ ?_, fun h ↦ ?_⟩
  · refine Nat.le_of_not_lt fun hn ↦ ?_
    have hfails : .error (.endOfText c.length) ∈
        List.replicate (n - c.after.length) (.error (.endOfText c.length) : Except Failure Char) :=
      List.mem_replicate.2 ⟨by omega, rfl⟩
    obtain ⟨ch, hch⟩ := h _ (List.mem_append_right _ hfails)
    cases hch
  · rw [Nat.sub_eq_zero_of_le h, List.replicate_zero, List.append_nil]
    intro o ho
    obtain ⟨ch, -, rfl⟩ := List.mem_map.1 ho
    exact ⟨ch, rfl⟩

/-- The read behind `n` others gives the character that is `n` characters ahead. -/
theorem getElem?_readChars_eq_ok_iff {ch : Char} :
    (c.readChars (n + 1)).1[n]? = some (.ok ch) ↔ c.after[n]? = some ch := by
  have hlength : ((c.after.take (n + 1)).map (.ok : Char → Except Failure Char)).length =
      min (n + 1) c.after.length := by
    rw [List.length_map, List.length_take]
  rw [readChars_eq]
  rcases Nat.lt_or_ge n c.after.length with hn | hn
  · rw [List.getElem?_append_left (by omega)]
    simp [List.getElem?_take_of_lt (Nat.lt_succ_self n)]
  · have hnone : c.after[n]? = none := List.getElem?_eq_none hn
    rw [List.getElem?_append_right (by omega), hnone]
    simp [List.getElem?_replicate]

/-- From where the characters that remain have been read every further read fails, and the cursor
stays. -/
theorem readChars_length_add (c : Cursor) (k : Nat) :
    c.readChars (c.after.length + k) =
      (c.after.map .ok ++ List.replicate k (.error (.endOfText c.length)), ⟨c.chars, []⟩) := by
  rw [readChars_eq, List.take_of_length_le (Nat.le_add_right _ _),
    List.drop_of_length_le (Nat.le_add_right _ _), Nat.add_sub_cancel_left]
  rfl

/-! ### The look-ahead -/

/-- The end of the text is the one place that is all its bytes from the start. -/
theorem position_lt_length_iff : c.position < c.length ↔ c.after ≠ [] := by
  have hlength : c.length = c.position + byteLength c.after := byteLength_append _ _
  rcases hafter : c.after with - | ⟨ch, after⟩
  · rw [hlength, hafter, byteLength_nil]
    exact iff_of_false (by omega) fun h ↦ h rfl
  · have hch := Char.utf8Size_pos ch
    rw [hlength, hafter, byteLength_cons]
    exact iff_of_true (by omega) (List.cons_ne_nil ch after)

theorem canRead_iff : c.canRead n = true ↔ n ≤ c.after.length :=
  decide_eq_true_iff

/-- There are `n` characters when the last of them is there. -/
theorem canRead_iff_peekAt? : c.canRead n = true ↔ n = 0 ∨ (c.peekAt? (n - 1)).isSome = true := by
  rw [canRead_iff, peekAt?, Option.isSome_iff_ne_none, ne_eq, List.getElem?_eq_none_iff]
  omega

theorem isReadable_iff : c.isReadable = true ↔ c.after ≠ [] := by
  simp [isReadable]

/-- **Looking ahead of the cursor agrees with reading** from it. -/
structure LooksAhead (c : Cursor) : Prop where
  /-- It is possible to read as many characters as remain. -/
  canRead_iff_le : ∀ n, c.canRead n = true ↔ n ≤ c.remaining.length
  /-- It is possible to read `n` characters when that many reads in a row go through. -/
  canRead_iff_reads : ∀ n, c.canRead n = true ↔ ∀ o ∈ (c.readChars n).1, ∃ ch, o = .ok ch
  /-- It is possible to read `n` characters when the last of them is seen. -/
  canRead_iff_sees : ∀ n, c.canRead n = true ↔ n = 0 ∨ (c.peekAt? (n - 1)).isSome = true
  /-- The character `n` characters ahead is what the read behind `n` others gives. -/
  peekAt?_iff : ∀ n ch, c.peekAt? n = some ch ↔ (c.readChars (n + 1)).1[n]? = some (.ok ch)
  /-- The character under the cursor is the one no character ahead. -/
  peek?_eq : c.peek? = c.peekAt? 0 ∧ c.peekAt? 0 = c.remaining.toList.head?
  /-- Something is left to read when one character can be read, -/
  isReadable_iff_canRead : c.isReadable = c.canRead 1
  /-- which is when not all bytes of the text are passed. -/
  isReadable_iff_lt : c.isReadable = true ↔ c.position < c.length
  /-- Reads in a row give the characters that remain, in their order, and then the failure that the
  text has ended, however many there are. -/
  outcomes : ∀ k, (c.readChars (c.remaining.length + k)).1 =
    c.remaining.toList.map .ok ++ List.replicate k (.error (.endOfText c.length))
  /-- Once the characters that remain are read, the cursor is at the end of the text and stays
  there. -/
  atEnd : ∀ k, (c.readChars (c.remaining.length + k)).2.text = c.text ∧
    (c.readChars (c.remaining.length + k)).2.position = c.length

/-- **What is seen ahead is what would be read**, at every place of every text. -/
theorem looksAhead (c : Cursor) : c.LooksAhead where
  canRead_iff_le n := by rw [canRead_iff, remaining, String.length_ofList]
  canRead_iff_reads n := by rw [canRead_iff, forall_mem_readChars_iff]
  canRead_iff_sees n := canRead_iff_peekAt?
  peekAt?_iff n ch := getElem?_readChars_eq_ok_iff.symm
  peek?_eq := ⟨rfl, by rw [peekAt?, remaining, String.toList_ofList, List.head?_eq_getElem?]⟩
  isReadable_iff_canRead := by
    rw [Bool.eq_iff_iff, isReadable_iff, canRead_iff, Nat.one_le_iff_ne_zero, ne_eq, ne_eq,
      List.length_eq_zero_iff]
  isReadable_iff_lt := by rw [isReadable_iff, position_lt_length_iff]
  outcomes k := by
    rw [remaining, String.length_ofList, String.toList_ofList, readChars_length_add]
  atEnd k := by
    rw [remaining, String.length_ofList, readChars_length_add]
    exact ⟨by rw [text, chars, List.append_nil, text], rfl⟩

/-- One character is read, of two bytes, and then there is none. -/
example : (ofString "é").readChars 2 =
    ([.ok 'é', .error (.endOfText 2)], ⟨['é'], []⟩) := by
  rfl

end TypedLine.Cursor
