import TypedLine.Cursor.Read

/-!
# Quoted texts read back

Writing a text between quote marks and reading one are inverse to each other. Reading the body of
a quoted text goes through exactly when the text starts with a written body and its closing mark,
and then it uses exactly that (`readBody_outcome_eq_ok_iff`). As reading is a function, no written
form is the beginning of another.
-/

namespace TypedLine

namespace Text

theorem toList_quote (s : String) : (quote s).toList = '"' :: (quotedBody s.toList ++ ['"']) := by
  rw [quote, String.toList_ofList, List.cons_append]

theorem quotedBody_cons (c : Char) (cs : List Char) :
    quotedBody (c :: cs) = escape c ++ quotedBody cs :=
  List.flatMap_cons

/-- Reading takes off the written form of one character. -/
theorem readBody_escape_append (c : Char) (cs : List Char) :
    readBody (escape c ++ cs) = (readBody cs).push (escape c) c := by
  by_cases hc : c = '"' ∨ c = '\\'
  · rw [escape, if_pos hc]
    show readBody ('\\' :: c :: cs) = _
    rw [readBody, if_pos hc]
  · obtain ⟨hq, hb⟩ := not_or.1 hc
    rw [escape, if_neg hc]
    show readBody (c :: cs) = _
    rw [readBody] <;> simp [hq, hb]

/-- **A written body reads as what was written**, and then whatever follows it is read. -/
theorem readBody_quotedBody_append (cs rest : List Char) :
    readBody (quotedBody cs ++ rest) = ⟨(readBody rest).outcome.map (cs ++ ·),
      quotedBody cs ++ (readBody rest).used, (readBody rest).rest⟩ := by
  induction cs with
  | nil =>
    show readBody rest = _
    rcases readBody rest with ⟨e | ds, used, after⟩
    · rfl
    · rfl
  | cons c cs ih =>
    rw [quotedBody_cons, List.append_assoc, readBody_escape_append, ih, List.append_assoc]
    rcases readBody rest with ⟨e | ds, used, after⟩
    · rfl
    · rfl

/-- A written body ends at its closing mark. -/
theorem readBody_quotedBody_append_mark (cs rest : List Char) :
    readBody (quotedBody cs ++ '"' :: rest) = ⟨.ok cs, quotedBody cs ++ ['"'], rest⟩ := by
  rw [readBody_quotedBody_append, readBody]
  simp [Except.map]

/-- The outcome of a longer body comes from that of a shorter one. -/
theorem BodyReading.outcome_push_eq_ok {raw cs : List Char} {c : Char} {r : BodyReading}
    (h : (r.push raw c).outcome = .ok cs) : ∃ ds, r.outcome = .ok ds ∧ cs = c :: ds := by
  obtain ⟨o, used, rest⟩ := r
  cases o with
  | error e => cases h
  | ok ds => exact ⟨ds, rfl, (Except.ok.inj h).symm⟩

/-- A backslash either ends the text or has a character behind it. -/
theorem ne_backslash {c : Char} {cs : List Char} (hlast : c = '\\' → cs = [] → False)
    (hpair : ∀ d ds, c = '\\' → cs = d :: ds → False) : c ≠ '\\' := by
  rintro rfl
  cases cs with
  | nil => exact hlast rfl rfl
  | cons d ds => exact hpair d ds rfl rfl

/-- A body that reads was written so: each character used belongs to the written form of what is
read. -/
theorem used_of_readBody {t cs : List Char} (h : (readBody t).outcome = .ok cs) :
    (readBody t).used = quotedBody cs ++ ['"'] := by
  fun_induction readBody t generalizing cs with
  | case1 => cases h
  | case2 rest =>
    obtain rfl : [] = cs := Except.ok.inj h
    rfl
  | case3 => cases h
  | case4 c t hc ih =>
    obtain ⟨ds, hds, rfl⟩ := BodyReading.outcome_push_eq_ok h
    rw [quotedBody_cons, escape, if_pos hc, List.append_assoc, ← ih hds]
    rfl
  | case5 c t hc => cases h
  | case6 c t hq hb hb' ih =>
    obtain ⟨ds, hds, rfl⟩ := BodyReading.outcome_push_eq_ok h
    have hc : ¬ (c = '"' ∨ c = '\\') := not_or.2 ⟨hq, ne_backslash hb hb'⟩
    rw [quotedBody_cons, escape, if_neg hc, List.append_assoc, ← ih hds]
    rfl

/-- **Reading a body goes through exactly on a written body and its closing mark.** -/
theorem readBody_outcome_eq_ok_iff {t cs : List Char} :
    (readBody t).outcome = .ok cs ↔ quotedBody cs ++ ['"'] <+: t := by
  refine ⟨fun h ↦ ?_, fun h ↦ ?_⟩
  · rw [← used_of_readBody h]
    exact ⟨(readBody t).rest, readBody_used_append_rest t⟩
  · obtain ⟨rest, rfl⟩ := h
    rw [List.append_assoc, List.singleton_append, readBody_quotedBody_append_mark]

/-- No written form is the beginning of another. -/
theorem quote_inj_of_prefix {s t : String} {cs : List Char} (hs : (quote s).toList <+: cs)
    (ht : (quote t).toList <+: cs) : s = t := by
  rw [toList_quote] at hs ht
  obtain ⟨rest, rfl⟩ := hs
  have hs' : (readBody (quotedBody s.toList ++ ['"'] ++ rest)).outcome = .ok s.toList :=
    readBody_outcome_eq_ok_iff.2 (List.prefix_append _ _)
  have ht' : (readBody (quotedBody s.toList ++ ['"'] ++ rest)).outcome = .ok t.toList :=
    readBody_outcome_eq_ok_iff.2 ((List.cons_prefix_cons.1 ht).2)
  exact String.toList_inj.1 (Except.ok.inj (hs'.symm.trans ht'))

end Text

namespace Cursor

open Text

/-- Behind an opening mark everything depends on the body. -/
theorem readQuoted_of_body {front after cs : List Char} (h : (readBody after).outcome = .ok cs) :
    (Cursor.mk front ('"' :: after)).readQuoted =
      ⟨.ok (String.ofList cs), ⟨front ++ '"' :: (readBody after).used, (readBody after).rest⟩⟩ := by
  simp only [readQuoted, h]

/-- A read that goes through has an opening mark and a body that reads. -/
theorem body_of_readQuoted {c : Cursor} {s : String} (h : c.readQuoted.outcome = .ok s) :
    ∃ after, c.after = '"' :: after ∧ (readBody after).outcome = .ok s.toList := by
  unfold readQuoted at h
  split at h
  · cases h
  · rename_i after hafter
    refine ⟨after, hafter, ?_⟩
    rcases ho : (readBody after).outcome with (_ | _) | cs
    · simp [ho] at h
    · simp [ho] at h
    · simp only [ho, Except.ok.injEq] at h
      rw [← h, String.toList_ofList]
  · cases h

/-- **A written form reads back** at any place, and the cursor goes just past it. -/
theorem readQuoted_quote_append (s : String) (front back : List Char) :
    (Cursor.mk front ((quote s).toList ++ back)).readQuoted =
      ⟨.ok s, ⟨front ++ (quote s).toList, back⟩⟩ := by
  have hbody := readBody_quotedBody_append_mark s.toList back
  rw [toList_quote, List.cons_append, List.append_assoc, List.singleton_append,
    readQuoted_of_body (congrArg BodyReading.outcome hbody), hbody, String.ofList_toList]

/-- **What reads is a written form** of what is read, and the cursor goes just past it. -/
theorem readQuoted_eq_ok_iff {c c' : Cursor} {s : String} :
    c.readQuoted = ⟨.ok s, c'⟩ ↔
      c'.before = c.before ++ (quote s).toList ∧ c.after = (quote s).toList ++ c'.after := by
  refine ⟨fun h ↦ ?_, fun h ↦ ?_⟩
  · obtain ⟨after, hafter, hbody⟩ := body_of_readQuoted (congrArg Reading.outcome h)
    obtain ⟨rest, hrest⟩ := readBody_outcome_eq_ok_iff.1 hbody
    have hc : c = ⟨c.before, (quote s).toList ++ rest⟩ := by
      rw [toList_quote, List.cons_append, hrest, ← hafter]
    rw [hc, readQuoted_quote_append] at h
    obtain rfl : _ = c' := congrArg Reading.cursor h
    refine ⟨rfl, ?_⟩
    rw [hc]
  · obtain ⟨hbefore, hafter⟩ := h
    obtain ⟨before', after'⟩ := c'
    have hc : c = ⟨c.before, (quote s).toList ++ after'⟩ := by rw [← hafter]
    rw [hc, readQuoted_quote_append, ← hbefore]

theorem readQuoted_outcome_eq_ok_iff {c : Cursor} {s : String} :
    c.readQuoted.outcome = .ok s ↔ (quote s).toList <+: c.after := by
  refine ⟨fun h ↦ ?_, fun h ↦ ?_⟩
  · have hread : c.readQuoted = ⟨.ok s, c.readQuoted.cursor⟩ := by rw [← h]
    exact ⟨_, (readQuoted_eq_ok_iff.1 hread).2.symm⟩
  · obtain ⟨back, hback⟩ := h
    have hread : c.readQuoted = ⟨.ok s, ⟨c.before ++ (quote s).toList, back⟩⟩ :=
      readQuoted_eq_ok_iff.2 ⟨rfl, hback.symm⟩
    rw [hread]

/-- **Reading a quoted text accepts exactly what `quote` writes, and inverts it.** A read goes
through where the text goes on with a written form, of which there is at most one; it gives what
was written, and it uses up the written form and no more. So a text that is written into another
one, at any place, is read back from there and leaves what follows it. -/
theorem readQuoted_accepts_exactly_quote (c : Cursor) :
    ((∃ s, c.readQuoted.outcome = .ok s) ↔ ∃ s, (quote s).toList <+: c.after) ∧
      (∀ s t, (quote s).toList <+: c.after → (quote t).toList <+: c.after → s = t) ∧
      (∀ s, c.readQuoted.outcome = .ok s ↔ (quote s).toList <+: c.after) ∧
      (∀ s, c.readQuoted.outcome = .ok s →
        c.readQuoted.cursor.text = c.text ∧
          c.readQuoted.cursor.consumed = c.consumed ++ quote s ∧
          c.readQuoted.cursor.position = c.position + (quote s).utf8ByteSize) ∧
      ∀ s front back : String, ∃ place : Cursor,
        (Cursor.ofString (front ++ quote s ++ back)).moveTo front.utf8ByteSize = .ok place ∧
          place.readQuoted.outcome = .ok s ∧ place.readQuoted.cursor.remaining = back := by
  refine ⟨exists_congr fun s ↦ readQuoted_outcome_eq_ok_iff, fun s t ↦ quote_inj_of_prefix,
    fun s ↦ readQuoted_outcome_eq_ok_iff, fun s h ↦ ?_, fun s front back ↦ ?_⟩
  · have hread : c.readQuoted = ⟨.ok s, c.readQuoted.cursor⟩ := by rw [← h]
    obtain ⟨hbefore, hafter⟩ := readQuoted_eq_ok_iff.1 hread
    refine ⟨?_, ?_, ?_⟩
    · rw [text, chars, hbefore, List.append_assoc, ← hafter]
      rfl
    · rw [consumed, hbefore, String.ofList_append, String.ofList_toList]
      rfl
    · rw [position, hbefore, byteLength_append, utf8ByteSize_eq_byteLength]
      rfl
  · refine ⟨⟨front.toList, (quote s).toList ++ back.toList⟩, moveTo_eq_ok_iff.2 ⟨?_, ?_⟩, ?_⟩
    · simp [ofString, chars]
    · exact (utf8ByteSize_eq_byteLength front).symm
    · rw [readQuoted_quote_append]
      exact ⟨rfl, String.ofList_toList⟩

end Cursor

end TypedLine
