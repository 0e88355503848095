import TypedLine.Dispatch
import TypedLine.Proofs.Lexeme

/-!
# Reading the arguments of a line

The arguments of a line stand one after the other, each after the whitespace before it. `Decodes`
says so as a relation between texts and values. Reading the arguments goes through exactly on the
texts that decode (`readArguments_eq_ok_iff`); otherwise it stops at the first argument that no
lexeme of its kind stands for, with the failure of the read there
(`readArguments_outcome_eq_error_iff`).
-/

namespace TypedLine

open Text

/-- The text starts with one lexeme of each kind, in this order and each behind the whitespace
before it; they stand for the arguments, and `rest` follows the last of them. -/
inductive Decodes : List Kind → (text : List Char) → Arguments → (rest : List Char) → Prop
  | nil {text : List Char} : Decodes [] text [] text
  | cons {k : Kind} {ks : List Kind} {text gap here used next rest : List Char} {v : Value}
    {vs : Arguments} :
    LongestRun isSpace text gap here → Lexeme here k used v next → Decodes ks next vs rest →
      Decodes (k :: ks) text (v :: vs) rest

/-- The arguments are of the kinds that were asked for. -/
theorem Decodes.map_kind {ks : List Kind} {text rest : List Char} {vs : Arguments}
    (h : Decodes ks text vs rest) : vs.map Value.kind = ks := by
  induction h with
  | nil => rfl
  | cons _ hlex _ ih => rw [List.map_cons, hlex.kind_eq, ih]

/-- What is left over is an end of the text. -/
theorem Decodes.suffix {ks : List Kind} {text rest : List Char} {vs : Arguments}
    (h : Decodes ks text vs rest) : rest <:+ text := by
  induction h with
  | nil => exact List.suffix_refl _
  | @cons k ks text gap here used next rest v vs hgap hlex _ ih =>
    have hnext : next <:+ here := ⟨used, hlex.append_eq⟩
    have hhere : here <:+ text := ⟨gap, hgap.append_eq⟩
    exact ih.trans (hnext.trans hhere)

@[simp]
theorem decodes_nil_iff {text rest : List Char} {vs : Arguments} :
    Decodes [] text vs rest ↔ vs = [] ∧ rest = text := by
  refine ⟨fun h ↦ ?_, fun h ↦ ?_⟩
  · obtain ⟨⟩ := h
    exact ⟨rfl, rfl⟩
  · obtain ⟨rfl, rfl⟩ := h
    exact .nil

theorem decodes_cons_iff {k : Kind} {ks : List Kind} {text rest : List Char} {vs : Arguments} :
    Decodes (k :: ks) text vs rest ↔ ∃ used v next vs',
      Lexeme (text.dropWhile isSpace) k used v next ∧ Decodes ks next vs' rest ∧ vs = v :: vs' := by
  constructor
  · rintro (_ | ⟨hgap, hlex, hdec⟩)
    rw [hgap.dropWhile_eq]
    exact ⟨_, _, _, _, hlex, hdec, rfl⟩
  · rintro ⟨used, v, next, vs', hlex, hdec, rfl⟩
    exact .cons (longestRun_takeWhile isSpace text) hlex hdec

namespace Cursor

variable {c c' d : Cursor} {name : String} {k : Kind} {ks : List Kind} {v : Value} {vs : Arguments}

/-- Two places in one text are the same when the same text follows them. -/
theorem eq_of_chars_eq (hchars : c.chars = d.chars) (hafter : c.after = d.after) : c = d := by
  obtain ⟨before, after⟩ := c
  obtain ⟨before', after'⟩ := d
  obtain rfl : after = after' := hafter
  exact congrArg (Cursor.mk · after) (List.append_cancel_right hchars)

/-- What a read of a value does, as a change of place: the text stays. -/
theorem readValue_eq_ok_iff_chars :
    c.readValue k = ⟨.ok v, c'⟩ ↔ (∃ used, Lexeme c.after k used v c'.after) ∧ c'.chars = c.chars := by
  rw [readValue_eq_ok_iff]
  refine ⟨fun h ↦ ?_, fun h ↦ ?_⟩
  · obtain ⟨used, rest, hlex, rfl⟩ := h
    refine ⟨⟨used, hlex⟩, ?_⟩
    rw [chars, chars, List.append_assoc, hlex.append_eq]
  · obtain ⟨⟨used, hlex⟩, hchars⟩ := h
    refine ⟨used, c'.after, hlex, eq_of_chars_eq ?_ rfl⟩
    rw [hchars, chars, chars, List.append_assoc, hlex.append_eq]

/-! ### One step -/

/-- The first argument reads, and the others are read behind it. -/
theorem readArguments_cons_of_ok {index : Nat} (h : c.skipSpace.readValue k = ⟨.ok v, d⟩) :
    c.readArguments name (k :: ks) index = (d.readArguments name ks (index + 1)).map (v :: ·) := by
  simp only [readArguments, h]

/-- The first argument does not read, and the others are not tried. -/
theorem readArguments_cons_of_error {index : Nat} {e : Failure}
    (h : c.skipSpace.readValue k = ⟨.error e, d⟩) :
    c.readArguments name (k :: ks) index = ⟨.error (.argument name index e), d⟩ := by
  simp only [readArguments, h]

/-! ### The whole run -/

/-- **Reading the arguments goes through exactly on the texts that decode.** -/
theorem readArguments_eq_ok_iff {index : Nat} :
    c.readArguments name ks index = ⟨.ok vs, c'⟩ ↔
      Decodes ks c.after vs c'.after ∧ c'.chars = c.chars := by
  induction ks generalizing c vs index with
  | nil =>
    rw [decodes_nil_iff]
    refine ⟨fun h ↦ ?_, fun h ↦ ?_⟩
    · obtain rfl : [] = vs := Except.ok.inj (congrArg Reading.outcome h)
      obtain rfl : c = c' := congrArg Reading.cursor h
      exact ⟨⟨rfl, rfl⟩, rfl⟩
    · obtain ⟨⟨rfl, hafter⟩, hchars⟩ := h
      rw [eq_of_chars_eq hchars hafter]
      rfl
  | cons k ks ih =>
    have hskip : c.skipSpace.chars = c.chars := chars_skipWhile c isSpace
    rw [decodes_cons_iff]
    refine ⟨fun h ↦ ?_, fun h ↦ ?_⟩
    · rcases hv : c.skipSpace.readValue k with ⟨e | v, d⟩
      · rw [readArguments_cons_of_error hv] at h
        cases congrArg Reading.outcome h
      · rw [readArguments_cons_of_ok hv, Reading.map_eq_ok_iff] at h
        obtain ⟨vs', hvs, rfl⟩ := h
        obtain ⟨⟨used, hlex⟩, hd⟩ := readValue_eq_ok_iff_chars.1 hv
        obtain ⟨hdec, hc'⟩ := ih.1 hvs
        exact ⟨⟨used, v, d.after, vs', hlex, hdec, rfl⟩, by rw [hc', hd, hskip]⟩
    · obtain ⟨⟨used, v, next, vs', hlex, hdec, rfl⟩, hchars⟩ := h
      have hv : c.skipSpace.readValue k = ⟨.ok v, ⟨c.skipSpace.before ++ used, next⟩⟩ :=
        readValue_eq_ok_iff.2 ⟨used, next, hlex, rfl⟩
      have hd := (readValue_eq_ok_iff_chars.1 hv).2
      rw [readArguments_cons_of_ok hv, Reading.map_eq_ok_iff]
      exact ⟨vs', ih.2 ⟨hdec, by rw [hchars, hd, hskip]⟩, rfl⟩

/-- So the outcome is the arguments that the text decodes to. -/
theorem readArguments_outcome_eq_ok_iff {index : Nat} :
    (c.readArguments name ks index).outcome = .ok vs ↔ ∃ rest, Decodes ks c.after vs rest := by
  refine ⟨fun h ↦ ?_, fun h ↦ ?_⟩
  · have hread : c.readArguments name ks index = ⟨.ok vs, _⟩ := congrArg (Reading.mk · _) h
    exact ⟨_, (readArguments_eq_ok_iff.1 hread).1⟩
  · obtain ⟨rest, hdec⟩ := h
    obtain ⟨used, hused⟩ := hdec.suffix
    have hread : c.readArguments name ks index = ⟨.ok vs, ⟨c.before ++ used, rest⟩⟩ :=
      readArguments_eq_ok_iff.2 ⟨hdec, by rw [chars, chars, List.append_assoc, hused]⟩
    rw [hread]

/-! ### The first argument that does not read -/

/-- Behind the place `c`, the arguments of the kinds `ks` **stop at** the index `i` with the
failure `e`: those before it decode, and behind the whitespace after them no value of its kind
reads, but that read fails with `e`. -/
inductive StopsAt (ks : List Kind) (c : Cursor) (i : Nat) (e : Failure) : Prop
  | intro {k : Kind} {vs : Arguments} {place : Cursor} :
    ks[i]? = some k → Decodes (ks.take i) c.after vs place.after → place.chars = c.chars →
      (place.skipSpace.readValue k).outcome = .error e → StopsAt ks c i e

/-- There is nowhere to stop without arguments. -/
theorem not_stopsAt_nil {i : Nat} {e : Failure} : ¬ StopsAt [] c i e := by
  rintro ⟨hk, -, -, -⟩
  cases hk

/-- A first argument that does not read is where to stop. -/
theorem stopsAt_cons_of_error {i : Nat} {e e' : Failure}
    (hv : c.skipSpace.readValue k = ⟨.error e, d⟩) :
    StopsAt (k :: ks) c i e' ↔ i = 0 ∧ e' = e := by
  refine ⟨fun h ↦ ?_, fun h ↦ ?_⟩
  · obtain ⟨hk, hdec, hplace, he'⟩ := h
    cases i with
    | zero =>
      obtain rfl := Option.some.inj hk
      rw [eq_of_chars_eq hplace (decodes_nil_iff.1 hdec).2, hv] at he'
      exact ⟨rfl, (Except.error.inj he').symm⟩
    | succ i =>
      obtain ⟨used, v, next, -, hlex, -, -⟩ := decodes_cons_iff.1 hdec
      have hread : c.skipSpace.readValue k = ⟨.ok v, _⟩ :=
        readValue_eq_ok_iff.2 ⟨used, next, hlex, rfl⟩
      rw [hv] at hread
      cases congrArg Reading.outcome hread
  · obtain ⟨rfl, rfl⟩ := h
    exact ⟨rfl, .nil, rfl, congrArg Reading.outcome hv⟩

/-- Behind a first argument that reads, it depends on the others. -/
theorem stopsAt_cons_of_ok {i : Nat} {e : Failure} (hv : c.skipSpace.readValue k = ⟨.ok v, d⟩) :
    StopsAt (k :: ks) c i e ↔ ∃ j, i = j + 1 ∧ StopsAt ks d j e := by
  obtain ⟨⟨used, hlex⟩, hd⟩ := readValue_eq_ok_iff_chars.1 hv
  have hskip : c.skipSpace.chars = c.chars := chars_skipWhile c isSpace
  refine ⟨fun h ↦ ?_, fun h ↦ ?_⟩
  · obtain ⟨hk, hdec, hplace, he⟩ := h
    cases i with
    | zero =>
      obtain rfl := Option.some.inj hk
      rw [eq_of_chars_eq hplace (decodes_nil_iff.1 hdec).2, hv] at he
      cases he
    | succ j =>
      obtain ⟨used', v', next, vs', hlex', hdec', -⟩ := decodes_cons_iff.1 hdec
      have hread : c.skipSpace.readValue k = ⟨.ok v', _⟩ :=
        readValue_eq_ok_iff.2 ⟨used', next, hlex', rfl⟩
      rw [hv] at hread
      obtain rfl : d = _ := congrArg Reading.cursor hread
      exact ⟨j, rfl, hk, hdec', by rw [hplace, hd, hskip], he⟩
  · obtain ⟨j, rfl, hk, hdec, hplace, he⟩ := h
    exact ⟨hk, decodes_cons_iff.2 ⟨used, v, d.after, _, hlex, hdec, rfl⟩,
      by rw [hplace, hd, hskip], he⟩

/-- **Reading the arguments fails where they stop**, and the failure names that argument. -/
theorem readArguments_outcome_eq_error_iff {index : Nat} {e : Failure} :
    (c.readArguments name ks index).outcome = .error e ↔
      ∃ i e', StopsAt ks c i e' ∧ e = .argument name (index + i) e' := by
  induction ks generalizing c index with
  | nil => simp [readArguments, not_stopsAt_nil]
  | cons k ks ih =>
    rcases hv : c.skipSpace.readValue k with ⟨e₀ | v, d⟩
    · rw [readArguments_cons_of_error hv]
      simp only [stopsAt_cons_of_error hv]
      refine ⟨fun h ↦ ?_, fun h ↦ ?_⟩
      · exact ⟨0, e₀, ⟨rfl, rfl⟩, (Except.error.inj h).symm⟩
      · obtain ⟨i, e', ⟨rfl, rfl⟩, rfl⟩ := h
        rfl
    · rw [readArguments_cons_of_ok hv]
      simp only [stopsAt_cons_of_ok hv]
      rw [Reading.outcome_map_eq_error_iff, ih]
      refine ⟨fun h ↦ ?_, fun h ↦ ?_⟩
      · obtain ⟨j, e', hstop, rfl⟩ := h
        exact ⟨j + 1, e', ⟨j, rfl, hstop⟩, by rw [Nat.add_assoc, Nat.add_comm 1]⟩
      · obtain ⟨i, e', ⟨j, rfl, hstop⟩, rfl⟩ := h
        exact ⟨j, e', hstop, by rw [Nat.add_assoc, Nat.add_comm 1]⟩

end Cursor

end TypedLine
