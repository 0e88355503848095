import TypedLine.Proofs.Session

/-!
# Scans

Whitespace, bare strings and numbers are all taken off a text by one kind of scan, which goes past
one character after the other as long as they belong to a class (`scan_eq`). What it takes is the
longest text of such characters at its place (`scan_eq_iff`). So where a scan has stopped another
scan for the same class takes nothing.

A scan loses nothing, and so a sequence of scans, each with a class of its own, takes between them
the text that lies between its ends: `scan_maximalMunch`.
-/

namespace TypedLine.Cursor

open Text

variable {c d e : Cursor} {s t : String} {p : Char → Bool}

/-! ### What lies between two cursors -/

/-- The text `s` is **passed** on the way from the cursor `c` to the cursor `d`. -/
structure Passes (c : Cursor) (s : String) (d : Cursor) : Prop where
  /-- It has become a part of what is consumed, -/
  consumed_eq : d.consumed = c.consumed ++ s
  /-- and was a part of what remained. -/
  remaining_eq : c.remaining = s ++ d.remaining

namespace Passes

theorem refl (c : Cursor) : c.Passes "" c :=
  ⟨String.append_empty.symm, String.empty_append.symm⟩

theorem trans (h : c.Passes s d) (h' : d.Passes t e) : c.Passes (s ++ t) e where
  consumed_eq := by rw [h'.consumed_eq, h.consumed_eq, String.append_assoc]
  remaining_eq := by rw [h.remaining_eq, h'.remaining_eq, String.append_assoc]

theorem text_eq (h : c.Passes s d) : d.text = c.text := by
  rw [text_eq_append d, text_eq_append c, h.consumed_eq, h.remaining_eq, String.append_assoc]

theorem position_eq (h : c.Passes s d) : d.position = c.position + s.utf8ByteSize := by
  rw [← utf8ByteSize_consumed d, h.consumed_eq, String.utf8ByteSize_append,
    utf8ByteSize_consumed c]

/-- What is passed determines where the way ends. -/
theorem unique (h : c.Passes s d) (h' : c.Passes s e) : d = e := by
  have hbefore : d.consumed = e.consumed := h.consumed_eq.trans h'.consumed_eq.symm
  have hafter : d.remaining = e.remaining :=
    String.append_right_inj s |>.1 (h.remaining_eq.symm.trans h'.remaining_eq)
  obtain ⟨before, after⟩ := d
  obtain ⟨before', after'⟩ := e
  obtain rfl : before = before' := String.ofList_inj.1 hbefore
  obtain rfl : after = after' := String.ofList_inj.1 hafter
  rfl

/-- What is passed is the slice of the text from the one position to the other. -/
theorem exists_slice_eq (h : c.Passes s d) :
    ∃ (p q : c.text.Pos) (hpq : p ≤ q), p.offset = ⟨c.position⟩ ∧ q.offset = ⟨d.position⟩ ∧
      (c.text.slice p q hpq).copy = s := by
  have hstart : String.Pos.Splits _ c.consumed (s ++ d.remaining) :=
    h.remaining_eq ▸ splits_position c
  -- The cursor `d` cuts its own text, which is that of `c`.
  have hd : String.Pos.Raw.IsValid c.text ⟨d.position⟩ := h.text_eq ▸ isValid_position d
  have hstop : String.Pos.Splits ⟨⟨d.position⟩, hd⟩ (c.consumed ++ s) d.remaining := by
    rw [← h.consumed_eq]
    exact ⟨h.text_eq ▸ text_eq_append d, (rawEndPos_consumed d).symm⟩
  obtain ⟨hpq, hcopy⟩ := String.copy_slice_eq_iff_splits.2 ⟨_, _, hstart, hstop⟩
  exact ⟨_, _, hpq, rfl, rfl, hcopy⟩

end Passes

/-! ### One scan -/

/-- Take the longest run of characters that satisfy `p`: the run, and the cursor behind it. -/
def scan (c : Cursor) (p : Char → Bool) : String × Cursor :=
  (String.ofList (c.run p), c.skipWhile p)

theorem passes_scan (c : Cursor) (p : Char → Bool) : c.Passes (c.scan p).1 (c.scan p).2 where
  consumed_eq := String.ofList_append
  remaining_eq := by
    rw [scan, remaining, remaining, run, skipWhile, ← String.ofList_append,
      List.takeWhile_append_dropWhile]

/-- Nothing is taken where the next character does not satisfy `p` or there is none. -/
theorem scan_of_stops (h : ∀ ch ∈ c.peek?, p ch = false) : c.scan p = ("", c) := by
  rw [peek?_eq_head?] at h
  have hrun : LongestRun p c.after [] c.after := ⟨rfl, nofun, h⟩
  rw [scan, run, skipWhile, hrun.takeWhile_eq, hrun.dropWhile_eq, List.append_nil,
    String.ofList_nil]

/-- A character that satisfies `p` is taken, and the scan goes on behind it. -/
theorem scan_of_peek? {ch : Char} (h : c.peek? = some ch) (hch : p ch = true) :
    c.scan p = (String.singleton ch ++ (c.skip.scan p).1, (c.skip.scan p).2) := by
  obtain ⟨before, after⟩ := c
  rw [peek?_eq_head?] at h
  obtain ⟨after, rfl⟩ := List.head?_eq_some_iff.1 h
  simp only [scan, run, skip, skipWhile, List.takeWhile_cons_of_pos hch,
    List.dropWhile_cons_of_pos hch, String.ofList_cons, List.append_assoc, List.singleton_append]

/-- **A scan goes past one character at a time**, and no further than the first that does not
satisfy `p`. -/
theorem scan_eq (c : Cursor) (p : Char → Bool) :
    c.scan p =
      match c.peek? with
      | some ch =>
        if p ch then (String.singleton ch ++ (c.skip.scan p).1, (c.skip.scan p).2) else ("", c)
      | none => ("", c) := by
  rcases hpeek : c.peek? with - | ch
  · exact scan_of_stops (by simp [hpeek])
  · by_cases hch : p ch
    · simp only [hch, if_true]
      exact scan_of_peek? hpeek hch
    · simp only [hch]
      exact scan_of_stops (by simpa [hpeek] using hch)

/-- The text `s` is the **maximal munch** of the cursor `c` for the class `p`, and `d` is the cursor
behind it. -/
structure IsMaximalMunch (c : Cursor) (p : Char → Bool) (s : String) (d : Cursor) : Prop where
  /-- It is passed. -/
  passes : c.Passes s d
  /-- It lies in the class. -/
  holds : ∀ ch ∈ s.toList, p ch = true
  /-- Whatever else of the class stands at the cursor is a part of it. -/
  longest : ∀ t : String, t.toList <+: c.remaining.toList → (∀ ch ∈ t.toList, p ch = true) →
    t.toList <+: s.toList
  /-- The next character behind it, if there is one, is not of the class. -/
  stops : ∀ ch ∈ d.peek?, p ch = false

theorem isMaximalMunch_scan (c : Cursor) (p : Char → Bool) :
    c.IsMaximalMunch p (c.scan p).1 (c.scan p).2 := by
  have hrun : LongestRun p c.after (c.run p) (c.skipWhile p).after :=
    longestRun_takeWhile p c.after
  refine ⟨passes_scan c p, ?_, fun t ht hp ↦ ?_, ?_⟩
  · rw [scan, String.toList_ofList]
    exact hrun.holds
  · rw [remaining, String.toList_ofList] at ht
    rw [scan, String.toList_ofList]
    exact hrun.isPrefix ht hp
  · rw [peek?_eq_head?]
    exact hrun.stops

/-- There is one maximal munch, and one place behind it. -/
theorem IsMaximalMunch.unique (h : c.IsMaximalMunch p s d) (h' : c.IsMaximalMunch p t e) :
    s = t ∧ d = e := by
  have hs : s.toList <+: c.remaining.toList := by
    rw [h.passes.remaining_eq, String.toList_append]
    exact List.prefix_append _ _
  have ht : t.toList <+: c.remaining.toList := by
    rw [h'.passes.remaining_eq, String.toList_append]
    exact List.prefix_append _ _
  have hst : s.toList <+: t.toList := h'.longest s hs h.holds
  have hts : t.toList <+: s.toList := h.longest t ht h'.holds
  -- Each is a part of the other.
  obtain rfl : s = t := String.toList_inj.1 (hst.eq_of_length_le hts.length_le)
  exact ⟨rfl, h.passes.unique h'.passes⟩

/-- **A scan takes the maximal munch.** -/
theorem scan_eq_iff : c.scan p = (s, d) ↔ c.IsMaximalMunch p s d := by
  refine ⟨fun h ↦ ?_, fun h ↦ ?_⟩
  · have hscan := isMaximalMunch_scan c p
    rwa [h] at hscan
  · obtain ⟨hs, hd⟩ := (isMaximalMunch_scan c p).unique h
    exact Prod.ext hs hd

/-- Where a scan has stopped there is nothing more for it. -/
theorem scan_scan (c : Cursor) (p : Char → Bool) : (c.scan p).2.scan p = ("", (c.scan p).2) :=
  scan_of_stops (isMaximalMunch_scan c p).stops

/-! ### Sequences of scans -/

/-- What scans take, one after the other, each with its own class, and the cursor behind them. -/
def scanAll (c : Cursor) : List (Char → Bool) → List String × Cursor
  | [] => ([], c)
  | p :: ps =>
    let later := (c.scan p).2.scanAll ps
    ((c.scan p).1 :: later.1, later.2)

/-- **Scans lose nothing**: together they pass what lies between the first cursor and the last. -/
theorem passes_scanAll (c : Cursor) (ps : List (Char → Bool)) :
    c.Passes (String.join (c.scanAll ps).1) (c.scanAll ps).2 := by
  -- The next scan starts where the one before has stopped, so the cursor is general.
  induction ps generalizing c with
  | nil => exact .refl c
  | cons p ps ih =>
    rw [scanAll, String.join_cons]
    exact (passes_scan c p).trans (ih _)

/-- **A scan takes the maximal munch**, one character after the other: the longest text of its class
at the cursor, which the cursor then stands behind by as many bytes as the text has. Once it has
stopped it takes nothing more, so whitespace is gone past at once and a bare string is read at once.
And what scans with any classes take in a row is, put together, the slice of the text between the
first cursor and the last. -/
theorem scan_maximalMunch (c : Cursor) :
    (∀ p, c.scan p =
      match c.peek? with
      | some ch =>
        if p ch then (String.singleton ch ++ (c.skip.scan p).1, (c.skip.scan p).2) else ("", c)
      | none => ("", c)) ∧
    (∀ p s d, c.scan p = (s, d) ↔ c.IsMaximalMunch p s d) ∧
    (∀ p, (c.scan p).2.text = c.text ∧
      (c.scan p).2.position = c.position + (c.scan p).1.utf8ByteSize) ∧
    (∀ p, (c.scan p).2.scan p = ("", (c.scan p).2)) ∧
    (c.skipSpace = (c.scan isSpace).2 ∧ c.skipSpace.skipSpace = c.skipSpace) ∧
    (c.readBare = ⟨.ok (c.scan isBareChar).1, (c.scan isBareChar).2⟩ ∧
      c.readBare.cursor.readBare = ⟨.ok "", c.readBare.cursor⟩) ∧
    ∀ ps, ∃ (p q : c.text.Pos) (hpq : p ≤ q), p.offset = ⟨c.position⟩ ∧
      q.offset = ⟨(c.scanAll ps).2.position⟩ ∧
      (c.text.slice p q hpq).copy = String.join (c.scanAll ps).1 := by
  refine ⟨scan_eq c, fun p s d ↦ scan_eq_iff, fun p ↦ ?_, scan_scan c, ⟨rfl, ?_⟩, ⟨rfl, ?_⟩,
    fun ps ↦ (passes_scanAll c ps).exists_slice_eq⟩
  · exact ⟨(passes_scan c p).text_eq, (passes_scan c p).position_eq⟩
  · exact congrArg Prod.snd (scan_scan c isSpace)
  · exact congrArg (fun r : String × Cursor ↦ (⟨.ok r.1, r.2⟩ : Reading String))
      (scan_scan c isBareChar)

end TypedLine.Cursor
