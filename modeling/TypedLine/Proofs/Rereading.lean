import TypedLine.Proofs.BinaryFloat.RoundTrip
import TypedLine.Proofs.Sequence

/-!
# Values that are written back

A value of any kind but a string, once it is read, can be written as its text and read again from
that text alone: it is the same value, and the text is used up. What makes this a law about reading
is that it holds of whatever token was read, however long, with however many zeros around it, and of
tokens that are rounded to zero.

There is one exception. A numeral that is too great for its format is read as an infinite number,
and the text of that is made of letters, which are no number characters. An infinite number is read
but does not reread: `rereads_iff_of_readValue`.
-/

namespace TypedLine

open Numeral

/-- The value is the **infinite** number of one of the formats, with the given sign. -/
inductive Value.Infinite (negative : Bool) : Value → Prop
  | single : Infinite negative (.single (.ofRank negative FloatFormat.single.infinityRank))
  | double : Infinite negative (.double (.ofRank negative FloatFormat.double.infinityRank))

theorem Value.infinite_iff {negative : Bool} {v : Value} :
    v.Infinite negative ↔ v = .single (.ofRank negative FloatFormat.single.infinityRank) ∨
      v = .double (.ofRank negative FloatFormat.double.infinityRank) := by
  refine ⟨fun h ↦ ?_, fun h ↦ ?_⟩
  · cases h with
    | single => exact .inl rfl
    | double => exact .inr rfl
  · rcases h with rfl | rfl
    · exact .single
    · exact .double

instance (negative : Bool) (v : Value) : Decidable (v.Infinite negative) :=
  decidable_of_iff _ Value.infinite_iff.symm

/-- Why the text of an infinite number does not read: there is nothing to read, or nothing but the
sign. -/
def infinityRefusal (k : Kind) (negative : Bool) : Failure :=
  if negative then .wrongType 0 k.name "-" else .missingValue 0 k.name

/-! ### Numbers that are not infinite -/

/-- A numeral stands for an infinite number, or for one whose text is a numeral of it. It never
stands for no number. -/
theorem BinaryFloat.ofFraction_cases {f : FloatFormat} (q : Fraction) :
    (∃ q', IsFraction (ofFraction q : BinaryFloat f).text q' ∧
      (ofFraction q' : BinaryFloat f) = ofFraction q) ∨
      (ofFraction q : BinaryFloat f) = ofRank q.negative f.infinityRank := by
  have hrank : (ofFraction q : BinaryFloat f) =
      ofRank q.negative (f.nearestRank (q.numerator * f.unitsPerOne) q.denominator) := rfl
  generalize f.nearestRank (q.numerator * f.unitsPerOne) q.denominator = rank at hrank
  rcases Nat.lt_or_ge rank f.infinityRank with hlt | hge
  · have hnumber : (ofFraction q : BinaryFloat f) =
        number q.negative ⟨rank, Nat.lt_succ_of_lt hlt⟩ := by rw [hrank, ← ofRank_val]
    rw [hnumber]
    exact .inl (read?_eq_some_iff.1 (read?_text hlt))
  · refine .inr ?_
    rw [hrank, ofRank, ofRank]
    congr 2
    omega

/-- A fraction that stands for no infinite number stands for a writable value, where the numerals of
the kind are the fractions. -/
theorem BinaryFloat.writable_ofFraction {f : FloatFormat} (wrap : BinaryFloat f → Value)
    (hwritten : ∀ x, (wrap x).written = x.text)
    (hnumeral : ∀ {cs : List Char} {q : Fraction}, IsFraction cs q →
      NumeralOf (wrap (ofFraction q)).kind cs (wrap (ofFraction q)))
    {q : Fraction} (hfinite : (ofFraction q : BinaryFloat f) ≠ ofRank q.negative f.infinityRank) :
    (wrap (ofFraction q)).Writable := by
  obtain ⟨q', hq', hx⟩ := (ofFraction_cases q).resolve_right hfinite
  have htext := hnumeral hq'
  rw [hx, ← hwritten] at htext
  exact .number htext

/-- **A numeral that is not too great stands for a value that is writable.** -/
theorem NumeralOf.writable {k : Kind} {cs : List Char} {v : Value} (h : NumeralOf k cs v)
    (hfinite : ∀ negative, ¬ v.Infinite negative) : v.Writable := by
  cases h with
  | int32 _ => exact Value.writable (by simp [Value.kind])
  | int64 _ => exact Value.writable (by simp [Value.kind])
  | @single _ q _ =>
    exact BinaryFloat.writable_ofFraction Value.single (fun _ ↦ String.toList_ofList) .single
      fun hx ↦ hfinite q.negative (hx ▸ .single)
  | @double _ q _ =>
    exact BinaryFloat.writable_ofFraction Value.double (fun _ ↦ String.toList_ofList) .double
      fun hx ↦ hfinite q.negative (hx ▸ .double)

/-- What is writable rereads, unless it is a string: that is written in quote marks. -/
theorem Value.Writable.rereads {v : Value} (h : v.Writable) (hv : v.kind ≠ .string) :
    v.Rereads := by
  have hwritten : v.written = v.text.toList := by
    cases v with
    | string s => exact absurd rfl hv
    | _ => rfl
  have hread : (Cursor.mk [] (v.written ++ [])).readValue v.kind =
      ⟨.ok v, ⟨[] ++ v.written, []⟩⟩ := h.readValue (by simp)
  rwa [List.append_nil, List.nil_append, hwritten] at hread

/-! ### Infinite numbers -/

theorem BinaryFloat.text_infinity {f : FloatFormat} (hf : 0 < f.infinityRank) (negative : Bool) :
    (ofRank negative f.infinityRank : BinaryFloat f).text = sign negative ++ ['i', 'n', 'f'] := by
  have hmagnitude : magnitudeText f (min f.infinityRank f.infinityRank) = ['i', 'n', 'f'] := by
    rw [Nat.min_self, magnitudeText, if_neg (Nat.ne_of_gt hf), if_neg (Nat.lt_irrefl _)]
  rw [ofRank, text, hmagnitude]
  cases negative with
  | true => rfl
  | false => rfl

/-- The letters end the run of number characters at once, and a sign alone is no numeral. -/
theorem Cursor.readNumber_infinity {k : Kind} {α : Type} {decode : List Char → Option α}
    (hsign : decode ['-'] = none) (negative : Bool) :
    (Cursor.mk [] (sign negative ++ ['i', 'n', 'f'])).readNumber k decode =
      ⟨.error (infinityRefusal k negative), ⟨[], sign negative ++ ['i', 'n', 'f']⟩⟩ := by
  cases negative with
  | false => rfl
  | true =>
    have hrun : (Cursor.mk [] (sign true ++ ['i', 'n', 'f'])).run isNumberChar = ['-'] := by decide
    rw [readNumber, hrun]
    simp only [hsign]
    rfl

/-- **The text of an infinite number is refused.** -/
theorem Value.Infinite.readValue {negative : Bool} {v : Value} (h : v.Infinite negative) :
    (Cursor.ofString v.text).readValue v.kind =
      ⟨.error (infinityRefusal v.kind negative), Cursor.ofString v.text⟩ := by
  have hstart : Cursor.ofString v.text = ⟨[], sign negative ++ ['i', 'n', 'f']⟩ := by
    cases h with
    | single =>
      rw [text, BinaryFloat.text_infinity (by decide), Cursor.ofString, String.toList_ofList]
    | double =>
      rw [text, BinaryFloat.text_infinity (by decide), Cursor.ofString, String.toList_ofList]
  rw [hstart]
  cases h with
  | single =>
    exact congrArg (Reading.map (Value.of .single))
      (@Cursor.readNumber_infinity .single _ BinaryFloat.read? rfl negative)
  | double =>
    exact congrArg (Reading.map (Value.of .double))
      (@Cursor.readNumber_infinity .double _ BinaryFloat.read? rfl negative)

theorem Value.Infinite.not_rereads {negative : Bool} {v : Value} (h : v.Infinite negative) :
    ¬ v.Rereads := by
  intro hrereads
  have hrefused := h.readValue
  rw [Rereads] at hrereads
  rw [hrereads] at hrefused
  cases congrArg Reading.outcome hrefused

/-! ### Whatever is read -/

/-- **What is read, at any place of any text, rereads from its own text unless it is infinite**, and
then its text is refused. Strings are left out: their text is written without the quote marks. -/
theorem rereads_iff_of_readValue {c c' : Cursor} {k : Kind} {v : Value} (hk : k ≠ .string)
    (h : c.readValue k = ⟨.ok v, c'⟩) :
    v.kind = k ∧ (v.Rereads ↔ ∀ negative, ¬ v.Infinite negative) ∧
      ∀ negative, v.Infinite negative →
        (Cursor.ofString v.text).readValue k =
          ⟨.error (infinityRefusal k negative), Cursor.ofString v.text⟩ := by
  obtain ⟨used, rest, hlex, -⟩ := Cursor.readValue_eq_ok_iff.1 h
  have hkind : v.kind = k := hlex.kind_eq
  have hwritable : (∀ negative, ¬ v.Infinite negative) → v.Writable := by
    intro hfinite
    cases hlex with
    | string _ => exact absurd rfl hk
    | boolean _ => exact .boolean _
    | number _ hnumeral => exact hnumeral.writable hfinite
  subst hkind
  exact ⟨rfl, ⟨fun hrereads negative hinfinite ↦ hinfinite.not_rereads hrereads,
    fun hfinite ↦ (hwritable hfinite).rereads hk⟩, fun _ hinfinite ↦ hinfinite.readValue⟩

/-- A negative token that is rounded to zero, before a letter, is read as the negative zero of 32
bits, and that rereads from `-0`. -/
theorem rereads_iff_of_readValue_underflow :
    (Cursor.ofString "-0.0000000000000000000000000000000000000000000000001x").readValue .single =
        ⟨.ok (.single (.ofBits 0x80000000)),
          ⟨"-0.0000000000000000000000000000000000000000000000001".toList, ['x']⟩⟩ ∧
      (Cursor.ofString "-0").readValue .single =
        ⟨.ok (.single (.ofBits 0x80000000)), ⟨"-0".toList, []⟩⟩ := by
  have hread : (Cursor.ofString "-0.0000000000000000000000000000000000000000000000001x").readValue
      .single = ⟨.ok (.single (.ofBits 0x80000000)),
        ⟨"-0.0000000000000000000000000000000000000000000000001".toList, ['x']⟩⟩ := by
    have hrun : Text.LongestRun isNumberChar
        "-0.0000000000000000000000000000000000000000000000001x".toList
        "-0.0000000000000000000000000000000000000000000000001".toList ['x'] :=
      Text.longestRun_iff.2 (by decide +kernel)
    have hzero : BinaryFloat.read? "-0.0000000000000000000000000000000000000000000000001".toList =
        some (.ofBits 0x80000000 : Single) := by decide +kernel
    have hnumber : (Cursor.ofString
        "-0.0000000000000000000000000000000000000000000000001x").readNumber .single BinaryFloat.read? =
          ⟨.ok (.ofBits 0x80000000 : Single),
            ⟨"-0.0000000000000000000000000000000000000000000000001".toList, ['x']⟩⟩ :=
      (Cursor.readNumber_eq_ok_iff rfl).2 ⟨_, _, hrun, hzero, rfl⟩
    exact Reading.map_eq_ok_iff.2 ⟨_, hnumber, rfl⟩
  have hfinite : ∀ negative, ¬ (Value.single (.ofBits 0x80000000)).Infinite negative := by
    decide +kernel
  have htext : (Value.single (.ofBits 0x80000000)).text = "-0" := by decide +kernel
  obtain ⟨-, hrereads, -⟩ := rereads_iff_of_readValue (by decide) hread
  have hzero := hrereads.2 hfinite
  rw [Value.Rereads, htext] at hzero
  exact ⟨hread, hzero⟩

/-- The number of forty digits that starts with a one is read as an infinite number of 32 bits, and
its text does not read as that. -/
theorem not_rereads_infinity :
    (Cursor.ofString "1000000000000000000000000000000000000000").readValue .single =
        ⟨.ok (.single (.ofBits 0x7f800000)),
          ⟨"1000000000000000000000000000000000000000".toList, []⟩⟩ ∧
      ¬ (Value.single (.ofBits 0x7f800000)).Rereads := by
  have hinfinite : (Value.single (.ofBits 0x7f800000)).Infinite false := by decide +kernel
  exact ⟨rfl, hinfinite.not_rereads⟩

end TypedLine
