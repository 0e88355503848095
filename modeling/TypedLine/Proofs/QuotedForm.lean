import TypedLine.Proofs.Quoted

/-!
# The forms of a quoted text

What may stand where a string in quote marks is to be read: nothing, another character than a quote
mark, or an opening mark. Behind the mark stands a **body**, of characters that stand for themselves
and of pairs that begin with a backslash, as far as it can go on; and then its **ending**, which is
the closing mark or the first thing that is wrong.

Whether a backslash begins a pair or is the second of one depends on all the backslashes before it.
Nonetheless a body comes apart from its ending in one way only (`IsBody.ending_unique`). So a text
has exactly one form at a place, and the read does what that form says: `readQuoted_form`.
-/

namespace TypedLine

namespace Text

/-- The text is a **body**: it is made of characters other than a quote mark and a backslash, and of
pairs of a backslash and one of these two. -/
inductive IsBody : List Char → Prop
  | nil : IsBody []
  | plain {ch : Char} {body : List Char} :
    ch ≠ '"' → ch ≠ '\\' → IsBody body → IsBody (ch :: body)
  | pair {ch : Char} {body : List Char} :
    ch = '"' ∨ ch = '\\' → IsBody body → IsBody ('\\' :: ch :: body)

/-- What a body stands for: the backslash that begins a pair is left out. -/
def unescaped : List Char → List Char
  | '\\' :: ch :: cs => ch :: unescaped cs
  | ch :: cs => ch :: unescaped cs
  | [] => []

/-- Where a body cannot go on. -/
inductive BodyEnding where
  /-- The closing mark, and what follows it. -/
  | closed (rest : List Char)
  /-- A backslash before a character that needs none, and what follows that. -/
  | badEscape (found : Char) (rest : List Char) (needless : ¬ (found = '"' ∨ found = '\\'))
  /-- A backslash that ends the text. -/
  | loneBackslash
  /-- The end of the text. -/
  | nothing

namespace BodyEnding

variable {ending ending' : BodyEnding}

/-- The text from the ending on. -/
def text : BodyEnding → List Char
  | closed rest => '"' :: rest
  | badEscape found rest _ => '\\' :: found :: rest
  | loneBackslash => ['\\']
  | nothing => []

/-- How an ending reads, with no body before it. -/
def reading : BodyEnding → BodyReading
  | closed rest => ⟨.ok [], ['"'], rest⟩
  | badEscape found rest _ => ⟨.error (.badEscape found), ['\\'], found :: rest⟩
  | loneBackslash => ⟨.error .unterminated, ['\\'], []⟩
  | nothing => ⟨.error .unterminated, [], []⟩

theorem readBody_text (ending : BodyEnding) : readBody ending.text = ending.reading := by
  cases ending with
  | badEscape found rest needless =>
    rw [text, readBody, if_neg needless]
    rfl
  | closed _ | loneBackslash | nothing => rfl

/-- No text has two endings: the first two characters tell them apart. -/
theorem eq_of_text_eq (h : ending.text = ending'.text) : ending = ending' := by
  cases ending with
  | closed _ =>
    cases ending' with
    | closed _ =>
      cases h
      rfl
    | badEscape _ _ _ | loneBackslash | nothing => cases h
  | badEscape _ _ _ =>
    cases ending' with
    | badEscape _ _ _ =>
      cases h
      rfl
    | closed _ | loneBackslash | nothing => cases h
  | loneBackslash =>
    cases ending' with
    | loneBackslash => rfl
    | closed _ | badEscape _ _ _ | nothing => cases h
  | nothing =>
    cases ending' with
    | nothing => rfl
    | closed _ | badEscape _ _ _ | loneBackslash => cases h

end BodyEnding

namespace IsBody

variable {body body' cs : List Char} {ending ending' : BodyEnding}

/-! ### Bodies and their endings -/

/-- A body is the written form of what it stands for. -/
theorem quotedBody_unescaped (h : IsBody body) : quotedBody (unescaped body) = body := by
  induction h with
  | nil => rfl
  | plain hq hb _ ih =>
    rw [unescaped, quotedBody_cons, escape, if_neg (not_or.2 ⟨hq, hb⟩), ih]
    · rfl
    · exact fun _ _ hbackslash _ ↦ hb hbackslash
  | pair hch _ ih =>
    rw [unescaped, quotedBody_cons, escape, if_pos hch, ih]
    rfl

/-- No ending begins as a body does. -/
theorem eq_nil_of_append_eq (h : IsBody body) (heq : body ++ cs = ending.text) : body = [] := by
  cases h with
  | nil => rfl
  | plain hq hb _ =>
    cases ending with
    | closed _ => exact absurd (List.cons.inj heq).1 hq
    | badEscape _ _ _ | loneBackslash => exact absurd (List.cons.inj heq).1 hb
    | nothing => cases heq
  | pair hch _ =>
    cases ending with
    | badEscape _ _ needless =>
      cases heq
      exact absurd hch needless
    | closed _ | loneBackslash | nothing => cases heq

/-- **A body comes apart from its ending in one way.** -/
theorem ending_unique (h : IsBody body) (h' : IsBody body')
    (heq : body ++ ending.text = body' ++ ending'.text) : body = body' ∧ ending = ending' := by
  induction h generalizing body' with
  | nil =>
    obtain rfl := h'.eq_nil_of_append_eq heq.symm
    exact ⟨rfl, BodyEnding.eq_of_text_eq heq⟩
  | plain hq hb hbody ih =>
    cases h' with
    | nil => cases (plain hq hb hbody).eq_nil_of_append_eq heq
    | plain _ _ hbody' =>
      obtain ⟨rfl, htail⟩ := List.cons.inj heq
      obtain ⟨rfl, rfl⟩ := ih hbody' htail
      exact ⟨rfl, rfl⟩
    | pair _ _ => exact absurd (List.cons.inj heq).1 hb
  | pair hch hbody ih =>
    cases h' with
    | nil => cases (pair hch hbody).eq_nil_of_append_eq heq
    | plain _ hb' _ => exact absurd (List.cons.inj heq).1.symm hb'
    | pair _ hbody' =>
      obtain ⟨rfl, htail⟩ := List.cons.inj (List.cons.inj heq).2
      obtain ⟨rfl, rfl⟩ := ih hbody' htail
      exact ⟨rfl, rfl⟩

/-- **Every text is a body and an ending.** -/
theorem exists_ending (cs : List Char) :
    ∃ body, IsBody body ∧ ∃ ending : BodyEnding, body ++ ending.text = cs := by
  fun_induction readBody cs with
  | case1 => exact ⟨[], .nil, .nothing, rfl⟩
  | case2 rest => exact ⟨[], .nil, .closed rest, rfl⟩
  | case3 => exact ⟨[], .nil, .loneBackslash, rfl⟩
  | case4 ch cs hch ih =>
    obtain ⟨body, hbody, ending, rfl⟩ := ih
    exact ⟨_, .pair hch hbody, ending, rfl⟩
  | case5 ch cs hch => exact ⟨[], .nil, .badEscape ch cs hch, rfl⟩
  | case6 ch cs hq hb hb' ih =>
    obtain ⟨body, hbody, ending, rfl⟩ := ih
    exact ⟨_, .plain hq (ne_backslash hb hb') hbody, ending, rfl⟩

/-- A body is read for what it stands for, and its ending decides the rest. -/
theorem readBody_append (h : IsBody body) (ending : BodyEnding) :
    readBody (body ++ ending.text) = ⟨ending.reading.outcome.map (unescaped body ++ ·),
      body ++ ending.reading.used, ending.reading.rest⟩ := by
  have hread := readBody_quotedBody_append (unescaped body) ending.text
  rwa [h.quotedBody_unescaped, ending.readBody_text] at hread

end IsBody

end Text

open Text

/-- The **form** of a text, where a string in quote marks is to be read. -/
inductive QuotedForm where
  /-- Nothing is left of the text. -/
  | nothing
  /-- Another character than a quote mark, and what follows it. -/
  | unopened (found : Char) (rest : List Char) (other : found ≠ '"')
  /-- An opening mark, a body and its ending. -/
  | opened (body : List Char) (valid : IsBody body) (ending : BodyEnding)

namespace QuotedForm

/-- The text of the form. -/
def text : QuotedForm → List Char
  | nothing => []
  | unopened found rest _ => found :: rest
  | opened body _ ending => '"' :: (body ++ ending.text)

/-- What reading the form gives, `front` being the text before it, and where the cursor is left. -/
def reading (front : List Char) : QuotedForm → Reading String
  | nothing => ⟨.error (.endOfText (byteLength front)), ⟨front, []⟩⟩
  | unopened found rest _ =>
    ⟨.error (.unexpectedChar (byteLength front) "quote" (some found)), ⟨front, found :: rest⟩⟩
  | opened body _ (.closed rest) =>
    ⟨.ok (String.ofList (unescaped body)), ⟨front ++ '"' :: (body ++ ['"']), rest⟩⟩
  | opened body _ (.badEscape found rest _) =>
    let place : Cursor := ⟨front ++ '"' :: (body ++ ['\\']), found :: rest⟩
    ⟨.error (.invalidEscape place.position found), place⟩
  | opened body _ .loneBackslash =>
    let place : Cursor := ⟨front ++ '"' :: (body ++ ['\\']), []⟩
    ⟨.error (.unterminatedQuote place.position), place⟩
  | opened body _ .nothing =>
    let place : Cursor := ⟨front ++ '"' :: body, []⟩
    ⟨.error (.unterminatedQuote place.position), place⟩

variable {form form' : QuotedForm}

/-- **No text has two forms.** -/
theorem eq_of_text_eq (h : form.text = form'.text) : form = form' := by
  cases form with
  | nothing =>
    cases form' with
    | nothing => rfl
    | unopened _ _ _ | opened _ _ _ => cases h
  | unopened found rest other =>
    cases form' with
    | nothing => cases h
    | unopened _ _ _ =>
      cases h
      rfl
    | opened _ _ _ => exact absurd (List.cons.inj h).1 other
  | opened body valid ending =>
    cases form' with
    | nothing => cases h
    | unopened _ _ other => exact absurd (List.cons.inj h).1.symm other
    | opened _ valid' _ =>
      obtain ⟨rfl, rfl⟩ := valid.ending_unique valid' (List.cons.inj h).2
      rfl

/-- **Every text has a form.** -/
theorem exists_text_eq (cs : List Char) : ∃ form : QuotedForm, form.text = cs := by
  rcases cs with - | ⟨ch, cs⟩
  · exact ⟨.nothing, rfl⟩
  by_cases hmark : ch = '"'
  · obtain ⟨body, valid, ending, rfl⟩ := IsBody.exists_ending cs
    exact ⟨.opened body valid ending, by rw [hmark, text]⟩
  · exact ⟨.unopened ch cs hmark, rfl⟩

/-- A form reads as it says, whatever stands before it. -/
theorem readQuoted_text (form : QuotedForm) (front : List Char) :
    (Cursor.mk front form.text).readQuoted = form.reading front := by
  cases form with
  | nothing => rfl
  | unopened found rest other => simp [text, reading, Cursor.readQuoted, Cursor.position]
  | opened body valid ending =>
    have hbody := valid.readBody_append ending
    cases ending with
    | closed _ | badEscape _ _ _ | loneBackslash | nothing =>
      simp [text, reading, Cursor.readQuoted, hbody, BodyEnding.reading, Except.map]

end QuotedForm

/-- **What reading a quoted text gives, by the form of the text behind the cursor.** Exactly one
form is that of the text. Each form has its own reading: the value of a closed body, or the failure
and its place. -/
theorem Cursor.readQuoted_form (c : Cursor) :
    ∃ form : QuotedForm, form.text = c.after ∧ c.readQuoted = form.reading c.before ∧
      ∀ other : QuotedForm, other.text = c.after → other = form := by
  obtain ⟨form, hform⟩ := QuotedForm.exists_text_eq c.after
  refine ⟨form, hform, ?_, fun other hother ↦ QuotedForm.eq_of_text_eq (hother.trans hform.symm)⟩
  rw [← form.readQuoted_text, hform]

-- Two of the backslashes are a pair, so the last one is alone; and `é` takes two bytes.
example : (Cursor.mk [] ['"', 'é', '\\', '\\', '\\']).readQuoted.outcome =
    .error (.unterminatedQuote 6) := by
  rfl

end TypedLine
