import TypedLine.Proofs.Alphabet
import TypedLine.Proofs.Behind
import TypedLine.Proofs.Builtin

/-!
# The letter case of a name

A command is found under the lower-case form of its name. So two lines that differ in the letter
case of the name at their starts should come to the same, but for the name that is echoed. They do
when their arguments are counted alike, and that is not always so (`sameOutcome_iff`).

The count leaves out one piece of the line that is the name as it stands there, wherever that piece
is. With a space behind it the name is such a piece itself. But in `add⇥1 2 add` the name is part of
a longer piece, and it is the last argument that is left out; in `ADD⇥1 2 add` nothing is.
-/

namespace TypedLine

open Text

/-- The failure, with another name in it for the command. -/
def Failure.echoing (name : String) : Failure → Failure
  | unknownCommand _ => unknownCommand name
  | arityMismatch _ count expected => arityMismatch name count expected
  | argument _ index source => argument name index source
  | e => e

/-- The call, with another name in it for the command. -/
def Invocation.echoing (name : String) (call : Invocation) : Invocation :=
  { call with name }

/-- Two lines are **respelled** when they differ in nothing but the letter case of the names that
they start with. The same text follows the names. -/
structure Respelled (line line' : String) (name name' after : List Char) : Prop where
  /-- The name of the one line. -/
  longest : LongestRun isBareChar line.toList name after
  /-- The name of the other. -/
  longest' : LongestRun isBareChar line'.toList name' after
  /-- Without regard to letter case it is one name. -/
  map_toLower : name.map Char.toLower = name'.map Char.toLower

/-- Two lines have the **same outcome** when the one makes the calls of the other and has the same
result, with `name'` echoed for the name of the command. -/
structure SameOutcome (r : Registry) (line line' name' : String) : Prop where
  /-- The same command is called on the same arguments, or nothing is called. -/
  calls : r.calls line' = (r.calls line).map (.echoing name')
  /-- The reply is the same, or the failure. -/
  run : r.run line' = (r.run line).mapError (.echoing name')

/-! ### The name is echoed -/

/-- The name of the command is in a failure to read its arguments, and nowhere else. -/
theorem Cursor.readArguments_echoing (name name' : String) (ks : List Kind) (index : Nat)
    (c : Cursor) :
    (c.readArguments name' ks index).outcome =
      (c.readArguments name ks index).outcome.mapError (.echoing name') := by
  induction ks generalizing c index with
  | nil => rfl
  | cons k ks ih =>
    rcases hv : c.skipSpace.readValue k with ⟨e | v, d⟩
    · rw [readArguments_cons_of_error hv, readArguments_cons_of_error hv]
      rfl
    · rw [readArguments_cons_of_ok hv, readArguments_cons_of_ok hv, Reading.map, ih, Reading.map]
      rcases (d.readArguments name ks (index + 1)).outcome with e | vs
      · rfl
      · rfl

/-- A line that starts with a name is not blank. -/
theorem named_of_longestRun {line : String} {name after : List Char}
    (h : LongestRun isBareChar line.toList name after) (hname : name ≠ []) :
    Named line name after := by
  obtain ⟨ch, hch⟩ := List.exists_mem_of_ne_nil name hname
  refine ⟨⟨ch, ?_, isSpace_eq_false_of_isBareChar (h.holds ch hch)⟩, h⟩
  rw [← h.append_eq]
  exact List.mem_append_left after hch

theorem sameOutcome_of_resolve {r : Registry} {line line' name' : String}
    (h : r.resolve line' = ((r.resolve line).mapError (.echoing name')).map (.echoing name')) :
    SameOutcome r line line' name' := by
  rcases hresolve : r.resolve line with e | call
  · rw [hresolve] at h
    obtain ⟨hcalls, hrun⟩ := Registry.calls_of_error hresolve
    obtain ⟨hcalls', hrun'⟩ := Registry.calls_of_error h
    exact ⟨by rw [hcalls, hcalls']; rfl, by rw [hrun, hrun']; rfl⟩
  · rw [hresolve] at h
    obtain ⟨hcalls, hrun⟩ := Registry.calls_of_ok hresolve
    obtain ⟨hcalls', hrun'⟩ := Registry.calls_of_ok h
    exact ⟨by rw [hcalls, hcalls']; rfl, by rw [hrun, hrun']; rfl⟩

/-! ### Lines that are refused for the number of their arguments -/

/-- The line is **refused for its count**: its arguments are counted as `count`, and there should be
another number of them. -/
def Registry.RefusesCount (r : Registry) (line : String) (count : Nat) : Prop :=
  ∃ name expected, r.run line = .error (.arityMismatch name count expected)

/-- It is the number that is counted. -/
theorem Registry.RefusesCount.eq_countedArguments {r : Registry} {line : String} {count : Nat}
    {name after : List Char} (h : r.RefusesCount line count) (hname : Named line name after) :
    count = countedArguments line.toList name := by
  obtain ⟨s, expected, hrun⟩ := h
  obtain ⟨calls, result, hdispatch⟩ := exists_dispatches r line
  rw [hdispatch.sound.2] at hrun
  subst hrun
  cases hdispatch with
  | arity hname' _ _ => rw [← hname.longest.takeWhile_eq, ← hname'.longest.takeWhile_eq]

theorem Named.refusesCount {r : Registry} {line : String} {name after : List Char}
    {command : Command} (h : Named line name after)
    (hkey : ⟨lowerCase (String.ofList name), command⟩ ∈ r.entries)
    (hcount : countedArguments line.toList name ≠ command.arity) :
    r.RefusesCount line (countedArguments line.toList name) :=
  ⟨_, _, (Registry.calls_of_error (h.resolve_of_arity_ne hkey hcount)).2⟩

/-- The number is no part of what is echoed. -/
theorem SameOutcome.refusesCount_iff {r : Registry} {line line' name' : String} {count : Nat}
    (h : SameOutcome r line line' name') : r.RefusesCount line count ↔ r.RefusesCount line' count := by
  refine ⟨fun ⟨name, expected, hrun⟩ ↦ ?_, fun ⟨name, expected, hrun'⟩ ↦ ?_⟩
  · refine ⟨name', expected, ?_⟩
    rw [h.run, hrun]
    rfl
  · rw [h.run] at hrun'
    rcases hrun : r.run line with e | reply
    · rw [hrun] at hrun'
      cases e with
      | arityMismatch =>
        cases hrun'
        exact ⟨_, _, hrun⟩
      | _ => cases hrun'
    · rw [hrun] at hrun'
      cases hrun'

namespace Respelled

variable {r : Registry} {line line' : String} {name name' after : List Char}

/-! ### What two such lines have in common -/

theorem symm (h : Respelled line line' name name' after) : Respelled line' line name' name after :=
  ⟨h.longest', h.longest, h.map_toLower.symm⟩

theorem length_eq (h : Respelled line line' name name' after) : name.length = name'.length := by
  rw [← List.length_map Char.toLower, h.map_toLower, List.length_map]

theorem byteLength_eq (h : Respelled line line' name name' after) :
    byteLength name = byteLength name' := by
  rw [byteLength_of_ascii fun ch hch ↦ toNat_lt_of_isBareChar (h.longest.holds ch hch),
    byteLength_of_ascii fun ch hch ↦ toNat_lt_of_isBareChar (h.longest'.holds ch hch), h.length_eq]

/-- Both names have the same key. -/
theorem lowerCase_eq (h : Respelled line line' name name' after) :
    lowerCase (String.ofList name) = lowerCase (String.ofList name') := by
  have hlower {name : List Char} (hbare : ∀ ch ∈ name, isBareChar ch = true) :
      (lowerCase (String.ofList name)).toList = name.map Char.toLower := by
    rw [toList_lowerCase, String.toList_ofList]
    rw [String.toList_ofList]
    exact fun ch hch ↦ toNat_lt_of_isBareChar (hbare ch hch)
  rw [← String.toList_inj, hlower h.longest.holds, hlower h.longest'.holds, h.map_toLower]

/-- A blank line has no letter in its name, so there the lines are the same. -/
theorem blank_or_named (h : Respelled line line' name name' after) :
    (isBlank line ∧ line = line' ∧ name = name') ∨
      (Named line name after ∧ Named line' name' after) := by
  by_cases hname : name = []
  · have hname' : name' = [] := List.eq_nil_of_length_eq_zero (by rw [← h.length_eq, hname]; rfl)
    have hline : line = line' := by
      rw [← String.toList_inj, ← h.longest.append_eq, ← h.longest'.append_eq, hname, hname']
    by_cases hblank : isBlank line
    · exact .inl ⟨hblank, hline, hname.trans hname'.symm⟩
    · have hchar := isBlank_eq_false_iff.1 (Bool.eq_false_iff.2 hblank)
      exact .inr ⟨⟨hchar, h.longest⟩, ⟨hline ▸ hchar, h.longest'⟩⟩
  · have hname' : name' ≠ [] := by
      rw [← List.length_pos_iff_ne_nil, ← h.length_eq]
      exact List.length_pos_iff_ne_nil.2 hname
    exact .inr ⟨named_of_longestRun h.longest hname, named_of_longestRun h.longest' hname'⟩

/-- Both lines have as many spaces. They are all behind the name. -/
theorem count_space_eq (h : Respelled line line' name name' after) :
    line.toList.count ' ' = line'.toList.count ' ' := by
  have hcount : name.count ' ' = 0 := List.count_eq_zero.2 (space_notMem_of_bare h.longest.holds)
  have hcount' : name'.count ' ' = 0 := List.count_eq_zero.2 (space_notMem_of_bare h.longest'.holds)
  rw [← h.longest.append_eq, ← h.longest'.append_eq, List.count_append, List.count_append, hcount,
    hcount']

/-- The arguments are counted alike when each of the names is a piece of its line or neither is. -/
theorem countedArguments_eq_iff (h : Respelled line line' name name' after) :
    countedArguments line.toList name = countedArguments line'.toList name' ↔
      (IsPiece ' ' line.toList name ↔ IsPiece ' ' line'.toList name') := by
  rw [countedArguments, countedArguments, h.count_space_eq]
  by_cases hpiece : IsPiece ' ' line.toList name <;>
    by_cases hpiece' : IsPiece ' ' line'.toList name' <;> simp [hpiece, hpiece']

/-- With a space behind it, or nothing, a name is a piece. -/
theorem isPiece (h : Respelled line line' name name' after) (hafter : ∀ ch ∈ after.head?, ch = ' ') :
    IsPiece ' ' line.toList name := by
  have hspace : ' ' ∉ name := space_notMem_of_bare h.longest.holds
  rw [← h.longest.append_eq]
  rcases after with - | ⟨ch, back⟩
  · rw [List.append_nil]
    exact .refl hspace
  · obtain rfl : ch = ' ' := hafter ch rfl
    exact .head hspace back

/-! ### What comes of them -/

/-- Where the arguments are counted alike, nothing else depends on the letter case. -/
theorem sameOutcome_of_count_eq (h : Respelled line line' name name' after)
    (hcount : lowerCase (String.ofList name) ∈ r.names →
      countedArguments line.toList name = countedArguments line'.toList name') :
    SameOutcome r line line' (String.ofList name') := by
  refine sameOutcome_of_resolve ?_
  obtain ⟨hblank, rfl, -⟩ | ⟨hname, hname'⟩ := h.blank_or_named
  · rw [Registry.resolve_of_isBlank hblank]
    rfl
  rw [hname.resolve_eq, hname'.resolve_eq, ← h.lowerCase_eq]
  rcases hfind : r.lookup? (lowerCase (String.ofList name)) with - | command
  · rfl
  have hmem : lowerCase (String.ofList name) ∈ r.names :=
    Registry.mem_names_iff.2 ⟨command, Registry.lookup?_eq_some_iff.1 hfind⟩
  simp only [← hcount hmem]
  by_cases harity : countedArguments line.toList name = command.arity
  · rw [if_pos harity, if_pos harity,
      Cursor.readArguments_outcome_congr after _ _ _ h.byteLength_eq.symm,
      Cursor.readArguments_echoing (String.ofList name)]
    rcases ((Cursor.mk name after).readArguments (String.ofList name) command.signature
      0).outcome with e | vs
    · rfl
    · rfl
  · rw [if_neg harity, if_neg harity]
    rfl

/-- Where the outcome is the same, the arguments are counted alike: if not, the one line or the
other is refused for its count, and so are both. -/
theorem count_eq_of_sameOutcome (h : Respelled line line' name name' after)
    (hsame : SameOutcome r line line' (String.ofList name'))
    (hmem : lowerCase (String.ofList name) ∈ r.names) :
    countedArguments line.toList name = countedArguments line'.toList name' := by
  obtain ⟨-, rfl, rfl⟩ | ⟨hname, hname'⟩ := h.blank_or_named
  · rfl
  obtain ⟨command, hkey⟩ := Registry.mem_names_iff.1 hmem
  by_cases hcount : countedArguments line.toList name = command.arity
  · by_contra hne
    have hrefused := hname'.refusesCount (h.lowerCase_eq ▸ hkey) fun heq ↦ hne (hcount.trans heq.symm)
    exact hne ((hsame.refusesCount_iff.2 hrefused).eq_countedArguments hname).symm
  · exact (hsame.refusesCount_iff.1 (hname.refusesCount hkey hcount)).eq_countedArguments hname'

/-- Where neither line is refused for its count, the arguments are counted alike: there are as many
as there should be. -/
theorem count_eq_of_not_refusesCount (h : Respelled line line' name name' after)
    (hline : ∀ count, ¬ r.RefusesCount line count) (hline' : ∀ count, ¬ r.RefusesCount line' count)
    (hmem : lowerCase (String.ofList name) ∈ r.names) :
    countedArguments line.toList name = countedArguments line'.toList name' := by
  obtain ⟨-, rfl, rfl⟩ | ⟨hname, hname'⟩ := h.blank_or_named
  · rfl
  obtain ⟨command, hkey⟩ := Registry.mem_names_iff.1 hmem
  have hcount : countedArguments line.toList name = command.arity :=
    of_not_not fun hne ↦ hline _ (hname.refusesCount hkey hne)
  have hcount' : countedArguments line'.toList name' = command.arity :=
    of_not_not fun hne ↦ hline' _ (hname'.refusesCount (h.lowerCase_eq ▸ hkey) hne)
  rw [hcount, hcount']

end Respelled

/-! ### The law -/

variable {line line' : String} {name name' after : List Char}

/-- **When the letter case of a name does not matter.** Two lines that are respelled have the same
outcome exactly when the name has no key or each of the names, as it stands, is a piece of its line
or neither is. It is so when there is a space behind the name, or nothing; and where it is not so,
the one line or the other is refused for its count. -/
theorem sameOutcome_iff (r : Registry) (h : Respelled line line' name name' after) :
    (SameOutcome r line line' (String.ofList name') ↔
      (lowerCase (String.ofList name) ∈ r.names →
        (IsPiece ' ' line.toList name ↔ IsPiece ' ' line'.toList name'))) ∧
    ((∀ ch ∈ after.head?, ch = ' ') → SameOutcome r line line' (String.ofList name')) ∧
    ((∃ count, r.RefusesCount line count ∨ r.RefusesCount line' count) ∨
      SameOutcome r line line' (String.ofList name')) := by
  refine ⟨⟨fun hsame hmem ↦ ?_, fun hpieces ↦ ?_⟩, fun hafter ↦ ?_, ?_⟩
  · exact h.countedArguments_eq_iff.1 (h.count_eq_of_sameOutcome hsame hmem)
  · exact h.sameOutcome_of_count_eq fun hmem ↦ h.countedArguments_eq_iff.2 (hpieces hmem)
  · refine h.sameOutcome_of_count_eq fun _ ↦ h.countedArguments_eq_iff.2 ?_
    exact iff_of_true (h.isPiece hafter) (h.symm.isPiece hafter)
  · by_cases hrefused : ∃ count, r.RefusesCount line count ∨ r.RefusesCount line' count
    · exact .inl hrefused
    · refine .inr (h.sameOutcome_of_count_eq (h.count_eq_of_not_refusesCount ?_ ?_))
      · exact fun count hline ↦ hrefused ⟨count, .inl hline⟩
      · exact fun count hline' ↦ hrefused ⟨count, .inr hline'⟩

/-- The lines `add⇥1 2 add` and `ADD⇥1 2 add` are respelled, but the one is answered with the sum
and the other is refused for its count. -/
theorem not_sameOutcome_add :
    (∃ attempts, Builtin.registry = Registry.empty.after attempts) ∧
      Respelled "add\t1 2 add" "ADD\t1 2 add" ['a', 'd', 'd'] ['A', 'D', 'D']
        ['\t', '1', ' ', '2', ' ', 'a', 'd', 'd'] ∧
      Builtin.registry.run "add\t1 2 add" = .ok ⟨"3", .success⟩ ∧
      Builtin.registry.run "ADD\t1 2 add" = .error (.arityMismatch "ADD" 3 2) ∧
      ¬ SameOutcome Builtin.registry "add\t1 2 add" "ADD\t1 2 add" "ADD" := by
  have hrun : Builtin.registry.run "add\t1 2 add" = .ok ⟨"3", .success⟩ := by
    decide +kernel
  have hrun' : Builtin.registry.run "ADD\t1 2 add" = .error (.arityMismatch "ADD" 3 2) := by
    decide +kernel
  refine ⟨⟨_, Builtin.registry_eq_after⟩, ⟨?_, ?_, rfl⟩, hrun, hrun', fun hsame ↦ ?_⟩
  · exact longestRun_iff.2 (by decide +kernel)
  · exact longestRun_iff.2 (by decide +kernel)
  · have hecho := hsame.run
    rw [hrun, hrun'] at hecho
    cases hecho

/-- The lines `div 1 div` and `DIV 1 div` have the same outcome: a space is behind the name. -/
theorem sameOutcome_iff_div :
    Respelled "div 1 div" "DIV 1 div" ['d', 'i', 'v'] ['D', 'I', 'V']
        [' ', '1', ' ', 'd', 'i', 'v'] ∧
      SameOutcome Builtin.registry "div 1 div" "DIV 1 div" (String.ofList ['D', 'I', 'V']) := by
  have hrespelled : Respelled "div 1 div" "DIV 1 div" ['d', 'i', 'v'] ['D', 'I', 'V']
      [' ', '1', ' ', 'd', 'i', 'v'] :=
    ⟨longestRun_iff.2 (by decide +kernel), longestRun_iff.2 (by decide +kernel), rfl⟩
  refine ⟨hrespelled, (sameOutcome_iff Builtin.registry hrespelled).2.1 ?_⟩
  intro ch hch
  exact (Option.mem_some.1 hch).symm

end TypedLine
