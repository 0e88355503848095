import Mathlib.Tactic.SplitIfs
import TypedLine.Json.Tree

/-!
# Reading values step by step

What `readTree?` and `readMembers?` make of a text is told from the tokens that come next and from
what is read behind them. The texts that the readers leave are here without the fact that they are
no longer.
-/

namespace TypedLine.Json

section

variable {cs rest value behind more : List Char} {t : Token} {tree : Json} {name : Option String}

theorem readNext_map (cs : List Char) :
    (readNext cs).map (fun r ↦ (r.1, r.2.1)) = readNext? cs := by
  rw [readNext, Option.map_map]
  exact Option.attach_map_subtype_val _

theorem readNext_eq_none_iff : readNext cs = none ↔ readNext? cs = none := by
  rw [← readNext_map, Option.map_eq_none_iff]

theorem exists_readNext (h : readNext? cs = some (t, rest)) :
    ∃ hlt, readNext cs = some (t, ⟨rest, hlt⟩) := by
  rw [← readNext_map, Option.map_eq_some_iff] at h
  obtain ⟨⟨_, rest'⟩, hread, heq⟩ := h
  obtain ⟨rfl, rfl⟩ := Prod.mk.inj heq
  exact ⟨rest'.2, hread⟩

/-- A value that is read starts with a token. -/
theorem exists_readTree (h : readTree? cs = some (tree, rest)) :
    ∃ t start hle, readNext? cs = some (t, start) ∧
      readTree t start = some (tree, ⟨rest, hle⟩) := by
  obtain ⟨⟨t, start⟩, hnext, hmap⟩ := Option.bind_eq_some_iff.1 h
  obtain ⟨⟨_, behind⟩, htree, heq⟩ := Option.map_eq_some_iff.1 hmap
  obtain ⟨rfl, rfl⟩ := Prod.mk.inj heq
  exact ⟨t, start, behind.2, hnext, htree⟩

/-! ### Values -/

/-- The value that a single token is. -/
def Token.tree? : Token → Option Json
  | mark _ => none
  | null => some .null
  | boolean truth => some (.boolean truth)
  | number q => some (.number q)
  | string text => some (.string text)

theorem readTree?_token (h : readNext? cs = some (t, rest)) (ht : t.tree? = some tree) :
    readTree? cs = some (tree, rest) := by
  cases t with
  | mark ch => cases ht
  | _ =>
    cases ht
    simp only [readTree?, h, Option.bind_some, readTree, Option.map_some]

/-- What an opening brace and a name come before is an object. -/
theorem readTree?_brace (hbrace : readNext? cs = some (.mark '\x7b', rest))
    (hname : readNext? rest = some (.string name, behind)) :
    readTree? cs = (readMembers? rest).map fun r ↦ (.object r.1, r.2) := by
  obtain ⟨_, hread⟩ := exists_readNext hname
  simp only [readTree?, hbrace, Option.bind_some, readMembers?, hname, readTree, hread]
  simp only [reduceCtorEq, Char.reduceEq, if_false, if_true, Option.map_map]
  rfl

/-- What does not start as the word `null` does is not that word. -/
theorem readToken?_ne_null (h : readToken? cs = some (t, rest)) (hhead : cs.head? ≠ some 'n') :
    t ≠ .null := by
  rintro rfl
  unfold readToken? at h
  split at h
  · exact hhead rfl
  · cases h
  · cases h
  · obtain ⟨_, -, ⟨⟩⟩ := Option.map_eq_some_iff.1 h
  · split at h
    · cases h
    · obtain ⟨_, -, ⟨⟩⟩ := Option.map_eq_some_iff.1 h
  · cases h

theorem readTree?_ne_null (h : readTree? cs = some (tree, rest))
    (hhead : (cs.dropWhile isSpace).head? ≠ some 'n') : tree ≠ .null := by
  obtain ⟨t, start, _, hnext, htree⟩ := exists_readTree h
  have ht := readToken?_ne_null hnext hhead
  rintro rfl
  cases t with
  | null => exact ht rfl
  | mark ch =>
    rw [readTree] at htree
    obtain ⟨⟨next, behind⟩, -, htree⟩ := Option.bind_eq_some_iff.1 htree
    dsimp only at htree
    split_ifs at htree
    · cases htree
    · obtain ⟨_, -, ⟨⟩⟩ := Option.map_eq_some_iff.1 htree
    · cases htree
    · obtain ⟨_, -, ⟨⟩⟩ := Option.map_eq_some_iff.1 htree
  | _ =>
    rw [readTree] at htree
    cases htree

/-! ### Members -/

theorem readMembers?_comma (hname : readNext? cs = some (.string name, rest))
    (hcolon : readNext? rest = some (.mark ':', value))
    (htree : readTree? value = some (tree, behind))
    (hcomma : readNext? behind = some (.mark ',', more)) :
    readMembers? cs = (readMembers? more).map fun r ↦ ((name, tree) :: r.1, r.2) := by
  obtain ⟨t, start, _, hstart, htree⟩ := exists_readTree htree
  obtain ⟨_, hcolon⟩ := exists_readNext hcolon
  obtain ⟨_, hstart⟩ := exists_readNext hstart
  obtain ⟨_, hcomma⟩ := exists_readNext hcomma
  simp only [readMembers?, hname, Option.bind_some, readMembers, hcolon, if_true, hstart,
    Shorter.behind, Shorter.noLonger, htree, hcomma]
  rcases hnext : readNext? more with - | ⟨t, start⟩
  · simp only [readNext_eq_none_iff.2 hnext, Option.bind_none, Option.map_none]
  · obtain ⟨_, hread⟩ := exists_readNext hnext
    simp only [hread, Option.bind_some, Option.map_map]
    rfl

theorem readMembers?_brace (hname : readNext? cs = some (.string name, rest))
    (hcolon : readNext? rest = some (.mark ':', value))
    (htree : readTree? value = some (tree, behind))
    (hbrace : readNext? behind = some (.mark '\x7d', more)) :
    readMembers? cs = some ([(name, tree)], more) := by
  obtain ⟨t, start, _, hstart, htree⟩ := exists_readTree htree
  obtain ⟨_, hcolon⟩ := exists_readNext hcolon
  obtain ⟨_, hstart⟩ := exists_readNext hstart
  obtain ⟨_, hbrace⟩ := exists_readNext hbrace
  simp only [readMembers?, hname, Option.bind_some, readMembers, hcolon, if_true, hstart,
    Shorter.behind, Shorter.noLonger, htree, hbrace]
  rfl

/-- Members that are read start with a name. -/
theorem exists_of_readMembers? {members : List (Option String × Json)}
    (h : readMembers? cs = some (members, behind)) :
    ∃ name rest tree others,
      readNext? cs = some (.string name, rest) ∧ members = (name, tree) :: others := by
  obtain ⟨⟨t, rest⟩, hnext, hmap⟩ := Option.bind_eq_some_iff.1 h
  obtain ⟨⟨members, behind⟩, hread, heq⟩ := Option.map_eq_some_iff.1 hmap
  obtain ⟨rfl, rfl⟩ := Prod.mk.inj heq
  cases t with
  | string name =>
    rw [readMembers] at hread
    obtain ⟨⟨colon, rest₁⟩, -, hread⟩ := Option.bind_eq_some_iff.1 hread
    dsimp only at hread
    split_ifs at hread
    obtain ⟨⟨start, rest₂⟩, -, hread⟩ := Option.bind_eq_some_iff.1 hread
    obtain ⟨⟨tree, rest₃⟩, -, hread⟩ := Option.bind_eq_some_iff.1 hread
    obtain ⟨⟨comma, rest₄⟩, -, hread⟩ := Option.bind_eq_some_iff.1 hread
    dsimp only at hread
    split_ifs at hread
    · obtain ⟨⟨next, rest₅⟩, -, hread⟩ := Option.bind_eq_some_iff.1 hread
      obtain ⟨⟨others, rest₆⟩, -, heq⟩ := Option.map_eq_some_iff.1 hread
      exact ⟨name, rest, tree, others, hnext, (Prod.mk.inj heq).1.symm⟩
    · exact ⟨name, rest, tree, [], hnext, (Prod.mk.inj (Option.some.inj hread)).1.symm⟩
  | _ =>
    rw [readMembers] at hread
    · cases hread
    · rintro name ⟨⟩

end

end TypedLine.Json
