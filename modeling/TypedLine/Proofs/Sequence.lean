import TypedLine.Proofs.CanonicalLine

/-!
# Sequences of values

Values can be read off a text one after the other without a command that asks for them. A
**spaced text** holds the written forms of some values, with whitespace of any kind and any length
between one and the next. Reading the kinds of the values in order, and going past the whitespace
between two reads, gives the values back and uses the text up: `readSequence_spacedText`.

That whitespace separates is not a convention of the reader. A read stops at the end of its own
lexeme because no lexeme goes on into whitespace, and the next read starts at its own lexeme because
no written form starts with whitespace.
-/

namespace TypedLine

open Text

/-- Whitespace that separates two values: at least one character of it. -/
structure Gap where
  /-- The characters. -/
  chars : List Char
  /-- There is one. -/
  ne_nil : chars ≠ []
  /-- All of them are whitespace. -/
  isSpace : ∀ ch ∈ chars, isSpace ch = true

/-- The written forms of the values, with the gap `gaps n` behind the `n`-th of them where another
one follows. -/
def spacedText (gaps : Nat → Gap) : Arguments → List Char
  | [] => []
  | [v] => v.written
  | v :: w :: vs => v.written ++ ((gaps 0).chars ++ spacedText (fun n ↦ gaps (n + 1)) (w :: vs))

/-- Read a value of each kind, in order, and go past the whitespace between two reads. -/
def Cursor.readSequence : List Kind → Cursor → Reading Arguments
  | [], c => ⟨.ok [], c⟩
  | [k], c => (c.readValue k).map ([·])
  | k :: l :: ks, c =>
    let first := c.readValue k
    match first.outcome with
    | .error e => ⟨.error e, first.cursor⟩
    | .ok v => (readSequence (l :: ks) first.cursor.skipSpace).map (v :: ·)

/-! ### One step -/

variable {v w : Value} {vs : Arguments} {front rest : List Char}

/-- A written form reads as its value where whitespace or nothing follows. -/
theorem Value.Writable.readValue (h : v.Writable)
    (hrest : ∀ ch ∈ rest.head?, Text.isSpace ch = true) :
    (Cursor.mk front (v.written ++ rest)).readValue v.kind = ⟨.ok v, ⟨front ++ v.written, rest⟩⟩ :=
  Cursor.readValue_eq_ok_iff.2 ⟨v.written, rest, h.lexeme hrest, rfl⟩

/-- The first value reads, and the others are read behind the whitespace after it. -/
theorem Cursor.readSequence_cons_of_ok {c d : Cursor} {k l : Kind} {ks : List Kind}
    (h : c.readValue k = ⟨.ok v, d⟩) :
    readSequence (k :: l :: ks) c = (readSequence (l :: ks) d.skipSpace).map (v :: ·) := by
  simp only [readSequence, h]

/-- A gap starts with whitespace. -/
theorem Gap.isSpace_of_mem_head? (g : Gap) :
    ∀ ch ∈ (g.chars ++ rest).head?, Text.isSpace ch = true := by
  intro ch hch
  rcases hg : g.chars with - | ⟨d, ds⟩
  · exact absurd hg g.ne_nil
  · rw [hg, List.cons_append] at hch
    obtain rfl : d = ch := Option.some.inj hch
    exact g.isSpace d (by rw [hg]; exact .head _)

/-- A spaced text of some values starts with no whitespace. -/
theorem isSpace_head?_spacedText {gaps : Nat → Gap} (h : v.Writable) :
    ∀ ch ∈ (spacedText gaps (v :: vs)).head?, isSpace ch = false := by
  obtain ⟨ch, cs, hw, hch⟩ := h.exists_written_eq_cons
  have hhead : (spacedText gaps (v :: vs)).head? = some ch := by
    rcases vs with - | ⟨w, vs⟩
    · rw [spacedText, hw]
      rfl
    · rw [spacedText, hw]
      rfl
  rw [hhead]
  rintro _ ⟨⟩
  exact hch

/-- Behind a value the whole gap is skipped, and nothing else. -/
theorem Gap.skipSpace {gaps : Nat → Gap} (g : Gap) (h : w.Writable) :
    (Cursor.mk front (g.chars ++ spacedText gaps (w :: vs))).skipSpace =
      ⟨front ++ g.chars, spacedText gaps (w :: vs)⟩ := by
  have hrun : LongestRun Text.isSpace (g.chars ++ spacedText gaps (w :: vs)) g.chars
      (spacedText gaps (w :: vs)) := longestRun_append g.isSpace (isSpace_head?_spacedText h)
  rw [Cursor.skipSpace, Cursor.skipWhile, hrun.takeWhile_eq, hrun.dropWhile_eq]

/-! ### The whole sequence -/

/-- **A spaced text is read back from any place on**, and the cursor goes to its end. -/
theorem readSequence_of_writable (hvs : ∀ v ∈ vs, v.Writable) (gaps : Nat → Gap) :
    Cursor.readSequence (vs.map Value.kind) ⟨front, spacedText gaps vs⟩ =
      ⟨.ok vs, ⟨front ++ spacedText gaps vs, []⟩⟩ := by
  induction vs generalizing front gaps with
  | nil =>
    show Reading.mk (.ok []) (Cursor.mk front []) = ⟨.ok [], ⟨front ++ [], []⟩⟩
    rw [List.append_nil]
  | cons v vs ih =>
    obtain ⟨hv, hvs⟩ := List.forall_mem_cons.1 hvs
    rcases vs with - | ⟨w, vs⟩
    · have hread : (Cursor.mk front (v.written ++ [])).readValue v.kind =
          ⟨.ok v, ⟨front ++ v.written, []⟩⟩ := hv.readValue (by simp)
      rw [List.append_nil] at hread
      show ((Cursor.mk front v.written).readValue v.kind).map ([·]) = _
      rw [hread]
      rfl
    · obtain ⟨hw, -⟩ := List.forall_mem_cons.1 hvs
      -- The first value is read up to the gap, the gap is skipped, and the others are read there.
      obtain ⟨others, hothers⟩ : ∃ cs, cs = spacedText (fun n ↦ gaps (n + 1)) (w :: vs) := ⟨_, rfl⟩
      have htext : spacedText gaps (v :: w :: vs) = v.written ++ ((gaps 0).chars ++ others) := by
        rw [spacedText, hothers]
      have hread : (Cursor.mk front (v.written ++ ((gaps 0).chars ++ others))).readValue v.kind =
          ⟨.ok v, ⟨front ++ v.written, (gaps 0).chars ++ others⟩⟩ :=
        hv.readValue (gaps 0).isSpace_of_mem_head?
      have hskip : (Cursor.mk (front ++ v.written) ((gaps 0).chars ++ others)).skipSpace =
          ⟨front ++ v.written ++ (gaps 0).chars, others⟩ := by
        rw [hothers]
        exact (gaps 0).skipSpace hw
      have hrest : Cursor.readSequence ((w :: vs).map Value.kind)
          ⟨front ++ v.written ++ (gaps 0).chars, others⟩ =
            ⟨.ok (w :: vs), ⟨front ++ v.written ++ (gaps 0).chars ++ others, []⟩⟩ := by
        rw [hothers]
        exact ih hvs _
      have hplace : front ++ (v.written ++ ((gaps 0).chars ++ others)) =
          front ++ v.written ++ (gaps 0).chars ++ others := by
        rw [List.append_assoc, List.append_assoc]
      rw [htext, hplace]
      show Cursor.readSequence (v.kind :: w.kind :: vs.map Value.kind) _ = _
      rw [Cursor.readSequence_cons_of_ok hread, hskip]
      exact congrArg (Reading.map (v :: ·)) hrest

/-- **Values that are written one after the other are read back one after the other**, whatever
whitespace stands between them and whatever the strings among them hold. The text is used up. -/
theorem readSequence_spacedText (hvs : ∀ v ∈ vs, v.kind ≠ .single ∧ v.kind ≠ .double)
    (gaps : Nat → Gap) :
    Cursor.readSequence (vs.map Value.kind) (Cursor.ofString (String.ofList (spacedText gaps vs))) =
      ⟨.ok vs, ⟨spacedText gaps vs, []⟩⟩ := by
  have hwritable : ∀ v ∈ vs, v.Writable := by
    intro v hv
    obtain ⟨hsingle, hdouble⟩ := hvs v hv
    exact Value.writable fun hkind ↦ absurd hkind (not_or.2 ⟨hsingle, hdouble⟩)
  have hstart : Cursor.ofString (String.ofList (spacedText gaps vs)) =
      ⟨[], spacedText gaps vs⟩ := by
    rw [Cursor.ofString, String.toList_ofList]
  rw [hstart]
  exact readSequence_of_writable hwritable gaps

/-- The text `"a \"b"`, tab and ideographic space, `true`, and again for the least integer of 64
bits, is read back as these three values. -/
theorem readSequence_spacedText_mixed :
    (∀ v ∈ ([.string "a \"b", .boolean true, .int64 Int64.minValue] : Arguments),
        v.kind ≠ .single ∧ v.kind ≠ .double) ∧
      Cursor.readSequence [.string, .boolean, .int64]
          (Cursor.ofString "\"a \\\"b\"\t\u3000true\t\u3000-9223372036854775808") =
        ⟨.ok [.string "a \"b", .boolean true, .int64 Int64.minValue],
          ⟨"\"a \\\"b\"\t\u3000true\t\u3000-9223372036854775808".toList, []⟩⟩ := by
  have hkinds : ∀ v ∈ ([.string "a \"b", .boolean true, .int64 Int64.minValue] : Arguments),
      v.kind ≠ .single ∧ v.kind ≠ .double := by simp [Value.kind]
  have hgap : ∀ ch ∈ ['\t', '\u3000'], isSpace ch = true := List.all_eq_true.1 (by decide)
  have htext : String.ofList (spacedText (fun _ ↦ ⟨['\t', '\u3000'], by simp, hgap⟩)
      [.string "a \"b", .boolean true, .int64 Int64.minValue]) =
        "\"a \\\"b\"\t\u3000true\t\u3000-9223372036854775808" := rfl
  have hread := readSequence_spacedText hkinds fun _ ↦ ⟨['\t', '\u3000'], by simp, hgap⟩
  rw [htext, ← String.toList_ofList (l := spacedText _ _), htext] at hread
  exact ⟨hkinds, hread⟩

end TypedLine
