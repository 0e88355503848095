import Mathlib.Data.List.DropRight
import Mathlib.Logic.Function.Basic
import Mathlib.Logic.Relation
import TypedLine.Proofs.Comment
import TypedLine.Proofs.Script

/-!
# Scripts that differ in whitespace

A script is **respaced** by writing a carriage return before a line feed, by adding whitespace at
the start or at the end of a line, and by adding whitespace, line feeds among it, at the end of the
whole. Any number of such changes, and of their reversals, does not change what the script does,
under whatever configuration it is run: `execute_of_respaced`.

What stays the same is the list of the **trimmed lines**, up to the blank ones at its end. A script
has no more to say to the run: its lines are selected from that list alone, with the numbers that
they have there (`scriptLines_eq_of_selects`).
-/

namespace TypedLine

open Text

/-! ### Changes of whitespace -/

/-- One change that only adds whitespace. -/
inductive Respaces : List Char → List Char → Prop
  /-- A carriage return before a line feed. -/
  | carriageReturn (front back : List Char) :
    Respaces (front ++ '\n' :: back) (front ++ '\r' :: '\n' :: back)
  /-- Whitespace at the start of a line. -/
  | lineStart {front blank : List Char} (back : List Char) :
    (front = [] ∨ ∃ front', front = front' ++ ['\n']) → (∀ ch ∈ blank, isSpace ch = true) →
      '\n' ∉ blank → Respaces (front ++ back) (front ++ (blank ++ back))
  /-- Whitespace at the end of a line. -/
  | lineEnd (front : List Char) {blank back : List Char} :
    (back = [] ∨ ∃ back', back = '\n' :: back') → (∀ ch ∈ blank, isSpace ch = true) →
      '\n' ∉ blank → Respaces (front ++ back) (front ++ (blank ++ back))
  /-- Whitespace at the end of the script, and so any number of blank lines. -/
  | scriptEnd (cs : List Char) {blank : List Char} :
    (∀ ch ∈ blank, isSpace ch = true) → Respaces cs (cs ++ blank)

/-- Two scripts that come of each other by such changes and their reversals. -/
abbrev Respaced : List Char → List Char → Prop :=
  Relation.EqvGen Respaces

/-! ### Trimmed lines -/

/-- What stands between the line feeds of a text, trimmed. -/
def trimmedPieces (cs : List Char) : List String :=
  (pieces '\n' cs).map fun piece ↦ trim (String.ofList piece)

/-- The **trimmed lines** of a text, without the blank ones at its end. -/
def trimmedLines (cs : List Char) : List String :=
  (trimmedPieces cs).rdropWhile (· = "")

variable {cs ds front back blank : List Char}

theorem trimmedPieces_append_cons (front back : List Char) :
    trimmedPieces (front ++ '\n' :: back) = trimmedPieces front ++ trimmedPieces back := by
  rw [trimmedPieces, pieces_append_cons, List.map_append, trimmedPieces, trimmedPieces]

theorem trimmedPieces_of_notMem (h : '\n' ∉ cs) : trimmedPieces cs = [trim (String.ofList cs)] := by
  rw [trimmedPieces, pieces_of_notMem h, List.map_singleton]

/-- Whitespace in front belongs to the first line. -/
theorem trimmedPieces_blank_append (hblank : ∀ ch ∈ blank, isSpace ch = true)
    (hfeed : '\n' ∉ blank) (cs : List Char) : trimmedPieces (blank ++ cs) = trimmedPieces cs := by
  by_cases hcs : '\n' ∈ cs
  · obtain ⟨line, rest, rfl, hline⟩ := List.eq_append_cons_of_mem hcs
    rw [← List.append_assoc, trimmedPieces_append_cons, trimmedPieces_append_cons,
      trimmedPieces_of_notMem hline, trimmedPieces_of_notMem (by simp [hfeed, hline]),
      trim_blank_append hblank]
  · rw [trimmedPieces_of_notMem hcs, trimmedPieces_of_notMem (by simp [hfeed, hcs]),
      trim_blank_append hblank]

/-- Whitespace at the end belongs to the last line. -/
theorem trimmedPieces_append_blank (hblank : ∀ ch ∈ blank, isSpace ch = true)
    (hfeed : '\n' ∉ blank) (cs : List Char) : trimmedPieces (cs ++ blank) = trimmedPieces cs := by
  -- Induction on the length: the text behind the first line feed is the shorter one.
  induction hn : cs.length using Nat.strongRecOn generalizing cs with
  | ind n ih =>
    by_cases hcs : '\n' ∈ cs
    · obtain ⟨line, rest, rfl, hline⟩ := List.eq_append_cons_of_mem hcs
      rw [List.append_assoc, List.cons_append, trimmedPieces_append_cons,
        trimmedPieces_append_cons, ih rest.length (by simp at hn; omega) rest rfl]
    · rw [trimmedPieces_of_notMem hcs, trimmedPieces_of_notMem (by simp [hfeed, hcs]),
        trim_append_blank hblank]

/-- A blank text has nothing but blank lines. -/
theorem eq_empty_of_mem_trimmedPieces (hblank : ∀ ch ∈ blank, isSpace ch = true) :
    ∀ line ∈ trimmedPieces blank, line = "" := by
  intro line hline
  obtain ⟨piece, hpiece, rfl⟩ := List.mem_map.1 hline
  obtain ⟨-, front, back, rfl, -⟩ := mem_pieces_iff.1 hpiece
  rw [trim_eq_empty_iff, isBlank_iff, String.toList_ofList]
  exact fun ch hch ↦ hblank ch (by simp [hch])

/-- Behind the last line there may be blank ones. -/
theorem rdropWhile_append_empty {lines ends : List String} (hends : ∀ line ∈ ends, line = "") :
    (lines ++ ends).rdropWhile (· = "") = lines.rdropWhile (· = "") := by
  induction ends using List.reverseRecOn with
  | nil => rw [List.append_nil]
  | append_singleton ends line ih =>
    obtain ⟨hends, hline⟩ := List.forall_mem_append.1 hends
    rw [← List.append_assoc, List.rdropWhile_concat_pos _ _ _ (by simpa using hline), ih hends]

/-- **A change of whitespace leaves the trimmed lines as they are.** -/
theorem Respaces.trimmedLines_eq (h : Respaces cs ds) : trimmedLines cs = trimmedLines ds := by
  have hreturn : ∀ ch ∈ ['\r'], isSpace ch = true := List.all_eq_true.1 (by decide)
  cases h with
  | carriageReturn front back =>
    have hcut : front ++ '\r' :: '\n' :: back = (front ++ ['\r']) ++ '\n' :: back := by simp
    rw [trimmedLines, trimmedLines, hcut, trimmedPieces_append_cons, trimmedPieces_append_cons,
      trimmedPieces_append_blank hreturn (by decide)]
  | @lineStart front blank back hfront hblank hfeed =>
    rw [trimmedLines, trimmedLines]
    rcases hfront with rfl | ⟨front', rfl⟩
    · rw [List.nil_append, List.nil_append, trimmedPieces_blank_append hblank hfeed]
    · rw [List.append_assoc, List.append_assoc, List.singleton_append, List.singleton_append,
        trimmedPieces_append_cons, trimmedPieces_append_cons,
        trimmedPieces_blank_append hblank hfeed]
  | @lineEnd front blank back hback hblank hfeed =>
    rw [trimmedLines, trimmedLines, ← List.append_assoc]
    rcases hback with rfl | ⟨back', rfl⟩
    · rw [List.append_nil, List.append_nil, trimmedPieces_append_blank hblank hfeed]
    · rw [trimmedPieces_append_cons, trimmedPieces_append_cons,
        trimmedPieces_append_blank hblank hfeed]
  | @scriptEnd cs blank hblank =>
    rw [trimmedLines, trimmedLines]
    by_cases hfeed : '\n' ∈ blank
    · obtain ⟨line, rest, rfl, hline⟩ := List.eq_append_cons_of_mem hfeed
      obtain ⟨hline', hrest⟩ := List.forall_mem_append.1 hblank
      rw [← List.append_assoc, trimmedPieces_append_cons, trimmedPieces_append_blank hline' hline,
        rdropWhile_append_empty
          (eq_empty_of_mem_trimmedPieces (List.forall_mem_cons.1 hrest).2)]
    · rw [trimmedPieces_append_blank hblank hfeed]

/-- **So do any number of changes and reversals.** -/
theorem Respaced.trimmedLines_eq (h : Respaced cs ds) : trimmedLines cs = trimmedLines ds := by
  induction h with
  | rel cs ds hchange => exact hchange.trimmedLines_eq
  | refl cs => rfl
  | symm cs ds _ ih => exact ih.symm
  | trans cs ds es _ _ ih ih' => exact ih.trans ih'

/-! ### The lines that are selected -/

section

variable {c : Config} {number : Nat} {lines ends : List String} {ls ls' : List ScriptLine}

theorem Selects.unique (h : Selects c number lines ls) (h' : Selects c number lines ls') :
    ls = ls' :=
  h.eq_filterMap.symm.trans h'.eq_filterMap

theorem Config.ignores_trim (c : Config) (line : String) :
    c.ignores (trim line) = c.ignores line := by
  rw [ignores, trim_trim, ignores]

/-- Only what is left of a line when it is trimmed decides about it. -/
theorem Selects.map_trim (h : Selects c number lines ls) :
    Selects c number (lines.map trim) ls := by
  induction h with
  | nil => exact .nil
  | @ignored number line lines ls hline _ ih =>
    exact .ignored ((c.ignores_trim line).trans hline) ih
  | @kept number line lines ls hline _ ih =>
    have hkept :
        Selects c number (trim line :: lines.map trim) (⟨number, trim (trim line)⟩ :: ls) :=
      .kept ((c.ignores_trim line).trans hline) ih
    rwa [trim_trim] at hkept

/-- Blank lines are not selected. -/
theorem selects_empty (c : Config) (number : Nat) (hends : ∀ line ∈ ends, line = "") :
    Selects c number ends [] := by
  induction ends generalizing number with
  | nil => exact .nil
  | cons line ends ih =>
    obtain ⟨hline, hrest⟩ := List.forall_mem_cons.1 hends
    subst hline
    exact .ignored (Config.ignores_iff.2 (.inl (by decide))) (ih (number + 1) hrest)

/-- Blank lines may be added at the end. -/
theorem Selects.append_empty (h : Selects c number lines ls) (hends : ∀ line ∈ ends, line = "") :
    Selects c number (lines ++ ends) ls := by
  induction h with
  | nil => exact selects_empty c _ hends
  | ignored hline _ ih => exact .ignored hline ih
  | kept hline _ ih => exact .kept hline ih

end

theorem trim_dropReturn (cs : List Char) :
    trim (String.ofList (dropReturn cs)) = trim (String.ofList cs) := by
  rw [dropReturn]
  split
  · rename_i hlast
    obtain ⟨line, rfl⟩ := List.getLast?_eq_some_iff.1 hlast
    rw [List.dropLast_concat, trim_append_blank (List.all_eq_true.1 (by decide))]
  · rfl

/-- Trimmed, the lines of a text are what stands between its line feeds, but for a last line that is
empty. -/
theorem exists_trimmed_closeLines (ps : List (List Char)) :
    ∃ ends : List String, (∀ line ∈ ends, line = "") ∧
      ps.map (fun piece ↦ trim (String.ofList piece)) =
        ((closeLines ps).map String.ofList).map trim ++ ends := by
  fun_induction closeLines ps with
  | case1 => exact ⟨[], by simp, rfl⟩
  | case2 => exact ⟨[""], by simp, rfl⟩
  | case3 last => exact ⟨[], by simp, rfl⟩
  | case4 p ps hne ih =>
    obtain ⟨ends, hends, heq⟩ := ih
    refine ⟨ends, hends, ?_⟩
    rw [List.map_cons, List.map_cons, List.map_cons, heq, trim_dropReturn, List.cons_append]

/-- **The lines of a script are selected from its trimmed lines.** -/
theorem scriptLines_eq_of_selects {c : Config} {content : String} {ls : List ScriptLine}
    (h : Selects c 1 (trimmedLines content.toList) ls) : c.scriptLines content = ls := by
  obtain ⟨ls', hls'⟩ := exists_selects c 1 (physicalLines content)
  have hlines : c.scriptLines content = ls' := scriptLines_eq (hasLines_iff.2 rfl) hls'
  -- Both are selected from all the lines, trimmed, with the blank ones at the end.
  have hall : Selects c 1 (trimmedPieces content.toList) ls := by
    have hdropped : ∀ line ∈ (trimmedPieces content.toList).rtakeWhile (· = ""), line = "" :=
      fun line hline ↦ by simpa using List.mem_rtakeWhile_imp hline
    have hends := h.append_empty hdropped
    rwa [trimmedLines, List.rdropWhile_append_rtakeWhile] at hends
  have hall' : Selects c 1 (trimmedPieces content.toList) ls' := by
    obtain ⟨ends, hends, hpieces⟩ := exists_trimmed_closeLines (pieces '\n' content.toList)
    rw [trimmedPieces, hpieces]
    exact hls'.map_trim.append_empty hends
  rw [hlines, hall'.unique hall]

/-- Scripts with the same trimmed lines have the same script lines. -/
theorem scriptLines_congr {s t : String} (h : trimmedLines s.toList = trimmedLines t.toList)
    (c : Config) : c.scriptLines s = c.scriptLines t := by
  obtain ⟨ls, hls⟩ := exists_selects c 1 (trimmedLines s.toList)
  rw [scriptLines_eq_of_selects hls, scriptLines_eq_of_selects (h ▸ hls)]

/-! ### Runs -/

/-- A storage in which the path leads to a file with the given text. -/
abbrev Storage.withText (storage : Storage) (path content : String) : Storage :=
  Function.update storage path (.text content)

theorem executeScript_congr {c : Config} {s t : String} (h : c.scriptLines s = c.scriptLines t)
    (r : Registry) : r.executeScript c s = r.executeScript c t := by
  rw [Registry.executeScript_eq, Registry.executeScript_eq, h]

theorem validate_withText (c : Config) (storage : Storage) (path s t : String) :
    c.validate (storage.withText path s) = c.validate (storage.withText path t) := by
  have hfile : ∀ p, (storage.withText path s p).isFile = (storage.withText path t p).isFile := by
    intro p
    by_cases hp : p = path
    · rw [hp, Storage.withText, Function.update_self, Storage.withText, Function.update_self]
      rfl
    · rw [Storage.withText, Function.update_of_ne hp, Storage.withText, Function.update_of_ne hp]
  simp only [Config.validate, hfile]

theorem executeConfigured_withText {c : Config} {s t : String}
    (h : c.scriptLines s = c.scriptLines t) (r : Registry) (storage : Storage) (path : String) :
    r.executeConfigured c (storage.withText path s) =
      r.executeConfigured c (storage.withText path t) := by
  rw [Registry.executeConfigured, Registry.executeConfigured]
  split
  · rfl
  · rename_i p _
    by_cases hp : p = path
    · subst hp
      rw [Storage.withText, Function.update_self, Storage.withText, Function.update_self]
      simp only [Node.read, executeScript_congr h]
    · rw [Storage.withText, Function.update_of_ne hp, Storage.withText, Function.update_of_ne hp]

/-- **A script may be respaced.** Whatever is asked for, under whatever configuration, two scripts
in the same place that come of each other by changes of whitespace are checked alike, print the
same, log the same, and end in the same way. -/
theorem execute_of_respaced {s t : String} (h : Respaced s.toList t.toList) (request : Request)
    (r : Registry) (storage : Storage) (path : String) :
    (∀ c, request.execute r c (storage.withText path s) =
      request.execute r c (storage.withText path t)) ∧
    request.perform r (storage.withText path s) = request.perform r (storage.withText path t) := by
  have hexecute : ∀ c, request.execute r c (storage.withText path s) =
      request.execute r c (storage.withText path t) := by
    intro c
    cases request with
    | run words => rfl
    | script p keepGoing commentPrefix =>
      exact executeConfigured_withText (scriptLines_congr h.trimmedLines_eq c) r storage path
    | list => rfl
  refine ⟨hexecute, ?_⟩
  rw [Request.perform, Request.perform, Request.checkedConfig, Request.checkedConfig,
    validate_withText _ storage path s t]
  simp only [hexecute]

/-- A script that is indented, has returns before its line feeds and ends with blanks is run as the
one without all that. -/
theorem execute_of_respaced_indented :
    Respaced "echo a\nnot 1".toList "echo a\r\n\t not 1 \n\u3000".toList ∧
      (Request.script "s" true "#").perform Builtin.registry
          (Storage.withText (fun _ ↦ .missing) "s" "echo a\nnot 1") =
        (Request.script "s" true "#").perform Builtin.registry
          (Storage.withText (fun _ ↦ .missing) "s" "echo a\r\n\t not 1 \n\u3000") := by
  have hreturn : Respaces "echo a\nnot 1".toList "echo a\r\nnot 1".toList :=
    .carriageReturn "echo a".toList "not 1".toList
  have hindent : Respaces "echo a\r\nnot 1".toList "echo a\r\n\t not 1".toList :=
    @Respaces.lineStart "echo a\r\n".toList ['\t', ' '] "not 1".toList
      (.inr ⟨"echo a\r".toList, rfl⟩) (List.all_eq_true.1 (by decide)) (by decide)
  have hend : Respaces "echo a\r\n\t not 1".toList "echo a\r\n\t not 1 \n\u3000".toList :=
    @Respaces.scriptEnd _ [' ', '\n', '\u3000'] (List.all_eq_true.1 (by decide))
  have hrespaced : Respaced "echo a\nnot 1".toList "echo a\r\n\t not 1 \n\u3000".toList :=
    .trans _ _ _ (.rel _ _ hreturn) (.trans _ _ _ (.rel _ _ hindent) (.rel _ _ hend))
  exact ⟨hrespaced, (execute_of_respaced hrespaced _ _ _ _).2⟩

end TypedLine
