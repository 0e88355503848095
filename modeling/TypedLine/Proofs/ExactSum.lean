import TypedLine.Proofs.Builtin
import TypedLine.Proofs.CanonicalLine
import TypedLine.Proofs.Widening

/-!
# Sums are exact

The command that adds takes two integer numerals of any length. What it answers is arithmetic of
integers: `sumAnswer` says it of the two integers that the numerals denote, and nothing in it wraps
around. Each of the two has to fit into 64 bits, and so has their sum; the first of the three that
does not is what the answer is about. Every sum that is answered reads back as the sum:
`run_sumLine`.
-/

namespace TypedLine

open Text Numeral

-- Powers are those of the core library, also where other powers are at hand.
attribute [local instance (high)] instPowNat

/-- The text of an integer is its usual decimal text. -/
theorem Numeral.ofList_showInt (n : Int) : String.ofList (showInt n) = toString n := by
  rcases n with n | n
  · rfl
  · show String.ofList (['-'] ++ Nat.toDigits 10 (n + 1)) = _
    rw [String.ofList_append]
    rfl

/-! ### Integers behind a space -/

section Token

variable {token rest next : List Char} {ks : List Kind} {vs : Arguments} {a : Int}

theorem Numeral.IsInteger.ne_nil (h : IsInteger token a) : token ≠ [] := by
  rintro rfl
  exact nomatch readInt?_eq_some_iff.2 h

/-- A numeral starts with no whitespace, so the gap before it is the one space. -/
theorem Numeral.IsInteger.longestRun_gap (h : IsInteger token a) :
    LongestRun isSpace (' ' :: (token ++ rest)) [' '] (token ++ rest) := by
  have hhead : ∀ ch ∈ (token ++ rest).head?, isSpace ch = false := by
    intro ch hch
    rw [List.head?_append_of_ne_nil _ h.ne_nil] at hch
    have hnumber := h.isNumberChar ch (List.mem_of_mem_head? hch)
    exact isSpace_eq_false_of_isBareChar (isBareChar_of_isNumberChar hnumber)
  exact longestRun_append (List.forall_mem_singleton.2 (by decide)) hhead

/-- A space ends a number. -/
theorem isNumberChar_head?_space (cs : List Char) :
    ∀ ch ∈ (' ' :: cs).head?, isNumberChar ch = false := by
  rintro _ ⟨⟩
  rfl

/-- Behind a space the numeral of an integer that fits is decoded. -/
theorem decodes_cons_of_isInteger {i : Int64} (h : IsInteger token i.toInt)
    (hrest : ∀ ch ∈ rest.head?, isNumberChar ch = false) (hdec : Decodes ks rest vs next) :
    Decodes (.int64 :: ks) (' ' :: (token ++ rest)) (.int64 i :: vs) next :=
  .cons h.longestRun_gap (.number (longestRun_append h.isNumberChar hrest) (.int64 h)) hdec

/-- The numeral of an integer that does not fit is refused as a whole, and where it starts. -/
theorem readValue_of_not_fits (h : IsInteger token a) (ha : ¬ (-2 ^ 63 ≤ a ∧ a < 2 ^ 63))
    (hrest : ∀ ch ∈ rest.head?, isNumberChar ch = false) (front : List Char) :
    ((Cursor.mk front (' ' :: (token ++ rest))).skipSpace.readValue .int64).outcome =
      .error (.wrongType (byteLength front + 1) "Int64" (String.ofList token)) := by
  have hskip : (Cursor.mk front (' ' :: (token ++ rest))).skipSpace =
      ⟨front ++ [' '], token ++ rest⟩ := by
    rw [Cursor.skipSpace, Cursor.skipWhile, h.longestRun_gap.takeWhile_eq,
      h.longestRun_gap.dropWhile_eq]
  have hdecode : (readInt? token).bind int64? = none := by
    rw [readInt?_eq_some_iff.2 h]
    exact if_neg ha
  have hposition : byteLength (front ++ [' ']) = byteLength front + 1 := byteLength_append ..
  rw [hskip, ← hposition]
  refine Reading.outcome_map_eq_error_iff.2 ?_
  show (Cursor.readInt64 _).outcome = _
  rw [Cursor.readInt64, Cursor.readNumber_of_longestRun (longestRun_append h.isNumberChar hrest),
    if_neg h.ne_nil, hdecode]
  rfl

/-- The text of an integer that fits reads back as the integer. -/
theorem Numeral.map_readInt64_toString (ha : -2 ^ 63 ≤ a ∧ a < 2 ^ 63) :
    (Cursor.ofString (toString a)).readInt64.map Int64.toInt = ⟨.ok a, ⟨(toString a).toList, []⟩⟩ := by
  have hnumeral : IsInteger (toString a).toList a := ofList_showInt a ▸ isInteger_showInt a
  have hrun : LongestRun isNumberChar (toString a).toList (toString a).toList [] :=
    ⟨List.append_nil _, hnumeral.isNumberChar, nofun⟩
  exact (Cursor.map_readInt64_iff hrun).2 (.taken ⟨hnumeral, ha⟩)

end Token

/-! ### The line that adds -/

/-- The line that calls a command by the name `n` on the numerals `A` and `B`. -/
def sumLine (n A B : String) : String :=
  n ++ " " ++ A ++ " " ++ B

namespace Builtin

/-- **What the command answers** to numerals `A` and `B` of the integers `a` and `b`, when the line
calls it by the name `n`. -/
def sumAnswer (n A B : String) (a b : Int) : Except Failure Reply :=
  if ¬ (-2 ^ 63 ≤ a ∧ a < 2 ^ 63) then .error (.argument n 0 (.wrongType 4 "Int64" A))
  else if ¬ (-2 ^ 63 ≤ b ∧ b < 2 ^ 63) then
    .error (.argument n 1 (.wrongType (5 + A.length) "Int64" B))
  else if -2 ^ 63 ≤ a + b ∧ a + b < 2 ^ 63 then .ok ⟨toString (a + b), .success⟩
  else .ok ⟨"Integer overflow", .fail⟩

/-- On two integers that fit, the command adds them as integers. -/
theorem handler_add (i j : Int64) :
    add.handler [.int64 i, .int64 j] =
      if -2 ^ 63 ≤ i.toInt + j.toInt ∧ i.toInt + j.toInt < 2 ^ 63 then
        ⟨toString (i.toInt + j.toInt), .success⟩
      else ⟨"Integer overflow", .fail⟩ := by
  obtain ⟨reply, hsum, hreplies⟩ := replies_sum i j
  have hhandler : add.handler [.int64 i, .int64 j] = reply := checked_of_ok hsum
  rw [hhandler]
  -- No other reply is one to two integers, whatever the key.
  generalize "add" = key at hreplies
  rcases hreplies with - | - | @⟨_, _, c, hc⟩ | hnone
  · rw [if_pos (exists_int64_iff.1 ⟨c, hc⟩), ← hc, ← ofList_showInt]
    rfl
  · rw [if_neg]
    intro hfits
    obtain ⟨c, hc⟩ := exists_int64_iff.2 hfits
    exact hnone c hc

section

variable {n A B : String} {a b : Int}

theorem toList_sumLine (n A B : String) :
    (sumLine n A B).toList = n.toList ++ ' ' :: (A.toList ++ ' ' :: B.toList) := by
  simp [sumLine]

/-- A line of a bare name and two numerals has two arguments, as they are counted. -/
theorem countedArguments_sumLine (hbare : ∀ ch ∈ n.toList, isBareChar ch = true)
    (hA : IsInteger A.toList a) (hB : IsInteger B.toList b) :
    countedArguments (sumLine n A B).toList n.toList = 2 := by
  have hspace {cs : List Char} (h : ∀ ch ∈ cs, isNumberChar ch = true) : cs.count ' ' = 0 :=
    List.count_eq_zero.2 fun hmem ↦ absurd (h ' ' hmem) (by decide)
  have hname : ' ' ∉ n.toList := space_notMem_of_bare hbare
  rw [toList_sumLine, countedArguments, if_pos (.head hname _)]
  simp [List.count_eq_zero.2 hname, hspace hA.isNumberChar, hspace hB.isNumberChar]

/-- What is known of the line, whatever the integers are. -/
theorem named_sumLine (hn : n.toList.map Char.toLower = "add".toList) :
    Named (sumLine n A B) n.toList (' ' :: (A.toList ++ ' ' :: B.toList)) ∧
      (∀ ch ∈ n.toList, isBareChar ch = true) ∧ byteLength n.toList = 3 ∧
      ⟨lowerCase (String.ofList n.toList), add⟩ ∈ registry.entries := by
  obtain ⟨hne, hbare, hlower⟩ :=
    lowerCase_eq_of_spelling (k := "add") ⟨by decide, List.all_eq_true.1 (by decide)⟩ hn
  obtain ⟨ch, hch⟩ := List.exists_mem_of_ne_nil _ hne
  refine ⟨⟨⟨ch, ?_, isSpace_eq_false_of_isBareChar (hbare ch hch)⟩, ?_⟩, hbare, ?_, ?_⟩
  · rw [toList_sumLine]
    exact List.mem_append_left _ hch
  · rw [toList_sumLine]
    exact longestRun_append hbare (by simp [isBareChar])
  · have hlength := congrArg List.length hn
    rw [List.length_map] at hlength
    rw [byteLength_of_ascii fun ch hch ↦ toNat_lt_of_isBareChar (hbare ch hch), hlength]
    rfl
  · rw [String.ofList_toList, hlower]
    exact .head _

/-- A first numeral that does not fit is refused, whatever the second one is. -/
theorem run_sumLine_of_not_fits_left (hn : n.toList.map Char.toLower = "add".toList)
    (hA : IsInteger A.toList a) (hB : IsInteger B.toList b) (ha : ¬ (-2 ^ 63 ≤ a ∧ a < 2 ^ 63)) :
    registry.run (sumLine n A B) = .error (.argument n 0 (.wrongType 4 "Int64" A)) := by
  obtain ⟨hname, hbare, hlength, hkey⟩ := named_sumLine (A := A) (B := B) hn
  have hread := readValue_of_not_fits hA ha (isNumberChar_head?_space B.toList) n.toList
  have hstop : Cursor.StopsAt add.signature ⟨n.toList, ' ' :: (A.toList ++ ' ' :: B.toList)⟩ 0 _ :=
    ⟨rfl, .nil, rfl, hread⟩
  have hrefused := (Dispatches.argument hname hkey (countedArguments_sumLine hbare hA hB) hstop).sound.2
  rwa [hlength, String.ofList_toList, String.ofList_toList] at hrefused

/-- A second numeral that does not fit is refused behind a first one that does. -/
theorem run_sumLine_of_not_fits_right (hn : n.toList.map Char.toLower = "add".toList) {i : Int64}
    (hA : IsInteger A.toList i.toInt) (hB : IsInteger B.toList b)
    (hb : ¬ (-2 ^ 63 ≤ b ∧ b < 2 ^ 63)) :
    registry.run (sumLine n A B) =
      .error (.argument n 1 (.wrongType (5 + A.length) "Int64" B)) := by
  obtain ⟨hname, hbare, hlength, hkey⟩ := named_sumLine (A := A) (B := B) hn
  have hend : ∀ ch ∈ ([] : List Char).head?, isNumberChar ch = false := nofun
  have hread := readValue_of_not_fits hB hb hend (n.toList ++ ' ' :: A.toList)
  rw [List.append_nil] at hread
  have hfirst : Decodes (add.signature.take 1) (' ' :: (A.toList ++ ' ' :: B.toList)) [.int64 i]
      (Cursor.mk (n.toList ++ ' ' :: A.toList) (' ' :: B.toList)).after :=
    decodes_cons_of_isInteger hA (isNumberChar_head?_space B.toList) .nil
  have hstop : Cursor.StopsAt add.signature ⟨n.toList, ' ' :: (A.toList ++ ' ' :: B.toList)⟩ 1 _ :=
    ⟨rfl, hfirst, by simp [Cursor.chars], hread⟩
  have hrefused := (Dispatches.argument hname hkey (countedArguments_sumLine hbare hA hB) hstop).sound.2
  -- The second numeral starts behind the name, the first numeral and a space after each of them.
  have hascii : ∀ ch ∈ A.toList, ch.toNat < 128 := fun ch hch ↦
    toNat_lt_of_isBareChar (isBareChar_of_isNumberChar (hA.isNumberChar ch hch))
  have hstart : byteLength (n.toList ++ ' ' :: A.toList) + 1 = 5 + A.length := by
    have hspace : Char.utf8Size ' ' = 1 := rfl
    rw [byteLength_append, byteLength_cons, byteLength_of_ascii hascii, hlength, hspace,
      String.length_toList]
    omega
  rwa [hstart, String.ofList_toList, String.ofList_toList] at hrefused

/-- Two numerals that fit are added. -/
theorem run_sumLine_of_fits (hn : n.toList.map Char.toLower = "add".toList) {i j : Int64}
    (hA : IsInteger A.toList i.toInt) (hB : IsInteger B.toList j.toInt) :
    registry.run (sumLine n A B) = .ok (add.handler [.int64 i, .int64 j]) := by
  obtain ⟨hname, hbare, -, hkey⟩ := named_sumLine (A := A) (B := B) hn
  have hsecond : Decodes [.int64] (' ' :: (B.toList ++ [])) [.int64 j] [] :=
    decodes_cons_of_isInteger hB nofun .nil
  rw [List.append_nil] at hsecond
  have hdec : Decodes add.signature (' ' :: (A.toList ++ ' ' :: B.toList)) [.int64 i, .int64 j] [] :=
    decodes_cons_of_isInteger hA (isNumberChar_head?_space B.toList) hsecond
  exact (Dispatches.called hname hkey (countedArguments_sumLine hbare hA hB) hdec).sound.2

/-- **Addition is exact**, from the line to the answer, in every spelling of the name. A sum that is
answered reads back as the sum. -/
theorem run_sumLine (hn : n.toList.map Char.toLower = "add".toList) (hA : IsInteger A.toList a)
    (hB : IsInteger B.toList b) :
    registry.run (sumLine n A B) = sumAnswer n A B a b ∧
      ∀ text, registry.run (sumLine n A B) = .ok ⟨text, .success⟩ →
        (Cursor.ofString text).readInt64.map Int64.toInt = ⟨.ok (a + b), ⟨text.toList, []⟩⟩ := by
  by_cases ha : -2 ^ 63 ≤ a ∧ a < 2 ^ 63
  · obtain ⟨i, rfl⟩ := exists_int64_iff.2 ha
    by_cases hb : -2 ^ 63 ≤ b ∧ b < 2 ^ 63
    · obtain ⟨j, rfl⟩ := exists_int64_iff.2 hb
      rw [run_sumLine_of_fits hn hA hB, handler_add, sumAnswer, if_neg (not_not_intro ha),
        if_neg (not_not_intro hb)]
      by_cases hsum : -2 ^ 63 ≤ i.toInt + j.toInt ∧ i.toInt + j.toInt < 2 ^ 63
      · rw [if_pos hsum, if_pos hsum]
        refine ⟨rfl, fun text htext ↦ ?_⟩
        obtain rfl := congrArg Reply.text (Except.ok.inj htext)
        exact map_readInt64_toString hsum
      · rw [if_neg hsum, if_neg hsum]
        exact ⟨rfl, fun text htext ↦ nomatch congrArg Reply.status (Except.ok.inj htext)⟩
    · rw [run_sumLine_of_not_fits_right hn hA hB hb, sumAnswer, if_neg (not_not_intro ha), if_pos hb]
      exact ⟨rfl, nofun⟩
  · rw [run_sumLine_of_not_fits_left hn hA hB ha, sumAnswer, if_pos ha]
    exact ⟨rfl, nofun⟩

/-- The line `aDD -0042 42` is answered with the sum, which reads back as zero. -/
theorem run_sumLine_leadingZeros :
    registry.run (sumLine "aDD" "-0042" "42") = .ok ⟨"0", .success⟩ ∧
      (Cursor.ofString "0").readInt64.map Int64.toInt = ⟨.ok 0, ⟨['0'], []⟩⟩ := by
  have hA : IsInteger "-0042".toList (-42) := readInt?_eq_some_iff.1 rfl
  have hB : IsInteger "42".toList 42 := readInt?_eq_some_iff.1 rfl
  obtain ⟨hrun, hreads⟩ := run_sumLine (n := "aDD") rfl hA hB
  exact ⟨hrun, hreads "0" hrun⟩

end

end Builtin

end TypedLine
