/-!
# Quoted texts

A quoted text stands between two quote marks. Inside, a quote mark and a backslash are written
with a backslash before them, and every other character stands for itself. `quote` writes the
form; `readBody` reads what follows an opening mark.

`readBody` stops at the closing mark or at the first thing that is wrong, and says which
characters it used up to there; nothing is lost (`readBody_used_append_rest`).
-/

namespace TypedLine.Text

/-- The written form of one character inside quote marks. -/
def escape (c : Char) : List Char :=
  if c = '"' ∨ c = '\\' then ['\\', c] else [c]

/-- The written form of the characters between the quote marks. -/
def quotedBody (cs : List Char) : List Char :=
  cs.flatMap escape

/-- Write `s` between quote marks. -/
def quote (s : String) : String :=
  String.ofList ('"' :: quotedBody s.toList ++ ['"'])

/-- What can be wrong with the body of a quoted text. -/
inductive BodyFault where
  /-- A backslash before a character that needs none. -/
  | badEscape (found : Char)
  /-- The text ends before a closing mark. -/
  | unterminated
  deriving DecidableEq, Repr

/-- How the body of a quoted text reads. -/
structure BodyReading where
  /-- The characters that the body stands for, or what is wrong with it. -/
  outcome : Except BodyFault (List Char)
  /-- The characters up to the end of the body, its closing mark included, or up to the fault. -/
  used : List Char
  /-- The characters after `used`. -/
  rest : List Char

/-- Put `c`, written as `raw`, before a body that has been read. -/
def BodyReading.push (raw : List Char) (c : Char) (r : BodyReading) : BodyReading :=
  ⟨r.outcome.map (c :: ·), raw ++ r.used, r.rest⟩

/-- Read the body of a quoted text and its closing mark. -/
def readBody : List Char → BodyReading
  | [] => ⟨.error .unterminated, [], []⟩
  | '"' :: cs => ⟨.ok [], ['"'], cs⟩
  | ['\\'] => ⟨.error .unterminated, ['\\'], []⟩
  | '\\' :: c :: cs =>
    if c = '"' ∨ c = '\\' then (readBody cs).push ['\\', c] c
    else ⟨.error (.badEscape c), ['\\'], c :: cs⟩
  | c :: cs => (readBody cs).push [c] c

/-- Nothing is lost. -/
theorem readBody_used_append_rest (cs : List Char) :
    (readBody cs).used ++ (readBody cs).rest = cs := by
  fun_induction readBody cs <;> simp_all [BodyReading.push]

end TypedLine.Text
