import TypedLine.Json.Codec
import TypedLine.Proofs.Json.Token
import TypedLine.Proofs.Json.Tree

/-!
# A JSON codec that keeps the rules

`JsonCodec.standard` keeps the rules of a JSON codec: `JsonCodec.standard_lawful`.

The rules read parts from characters, and the codec reads a JSON value first. For each form of a
part there is one value, and what remains to be said is which tokens come next and that the part is
taken from the value.
-/

namespace TypedLine.JsonCodec

-- Powers are those of the core library, also where other powers are at hand.
attribute [local instance (high)] instPowNat

namespace Standard

open Json

variable {cs rest : List Char} {ch : Char} {name : String} {tree : Json}

/-- What is made of something that is read leaves the text behind it as it is. -/
theorem read_map_eq_some_iff {β γ : Type} {x : Option (β × List Char)} {f : β → Option γ} {c : γ} :
    (x.bind fun (b, rest) ↦ (f b).map fun c ↦ (c, rest)) = some (c, rest) ↔
      ∃ b, x = some (b, rest) ∧ f b = some c := by
  constructor
  · intro h
    obtain ⟨⟨b, rest'⟩, hread, hmap⟩ := Option.bind_eq_some_iff.1 h
    obtain ⟨c, hmake, heq⟩ := Option.map_eq_some_iff.1 hmap
    obtain ⟨rfl, rfl⟩ := Prod.mk.inj heq
    exact ⟨b, hread, hmake⟩
  · rintro ⟨b, rfl, hmake⟩
    simp only [Option.bind_some, hmake, Option.map_some]

/-! ### Strings -/

/-- A character is read before the text that follows it. -/
theorem readText?_of_readString? {cs' : List Char}
    (h : readString? cs' = (readString? cs).map fun r ↦ (.whole ch :: r.1, r.2)) :
    standard.readText? cs' = (standard.readText? cs).map fun r ↦ (ch :: r.1, r.2) := by
  show (readString? cs').bind _ = ((readString? cs).bind _).map _
  rw [h]
  rcases readString? cs with - | ⟨us, rest⟩
  · rfl
  · simp only [Option.map_some, Option.bind_some, joinHalves?, Option.map_map]
    rfl

/-- A name that is read as a text is a token. -/
theorem readNext?_of_readText? (h : standard.readText? cs = some (name.toList, rest)) :
    readNext? ('"' :: cs) = some (.string (some name), rest) := by
  obtain ⟨us, hread, hjoin⟩ := read_map_eq_some_iff.1 h
  rw [readNext?_string hread hjoin, String.ofList_toList]

/-! ### Parts -/

theorem readPart?_eq_some_iff {shape : Shape} {p : Part} :
    standard.readPart? shape cs = some (p, rest) ↔
      ∃ tree, readTree? cs = some (tree, rest) ∧ tree.part? shape = some p :=
  read_map_eq_some_iff

/-- A part that is a single token is taken from it. -/
theorem readPart?_token {shape : Shape} {p : Part} {t : Token} (h : readNext? cs = some (t, rest))
    (ht : t.tree? = some tree) (hpart : tree.part? shape = some p) :
    standard.readPart? shape cs = some (p, rest) :=
  readPart?_eq_some_iff.2 ⟨tree, readTree?_token h ht, hpart⟩

/-- A string is one token, whether it stands for a text or not. -/
theorem readPart?_string :
    standard.readPart? (.scalar .string) ('"' :: cs) =
      (standard.readText? cs).map fun r ↦ (.scalar (.string (String.ofList r.1)), r.2) := by
  show (readTree? ('"' :: cs)).bind _ = ((readString? cs).bind _).map _
  have hnext : readNext? ('"' :: cs) =
      (readString? cs).map fun r ↦ (.string ((joinHalves? r.1).map String.ofList), r.2) := rfl
  rcases hread : readString? cs with - | ⟨us, rest⟩
  · rw [readTree?, hnext, hread]
    rfl
  · rw [hread] at hnext
    simp only [readTree?_token hnext rfl, Option.bind_some]
    cases joinHalves? us with
    | none => rfl
    | some text => rfl

theorem readTree?_congr {cs' : List Char} (h : readNext? cs = readNext? cs') :
    readTree? cs = readTree? cs' := by
  rw [readTree?, h, ← readTree?]

theorem readMembers?_congr {cs' : List Char} (h : readNext? cs = readNext? cs') :
    readMembers? cs = readMembers? cs' := by
  rw [readMembers?, h, ← readMembers?]

/-- Two texts that go on with the same token are read alike. -/
theorem readPart?_congr {shape : Shape} {cs' : List Char} (h : readNext? cs = readNext? cs') :
    standard.readPart? shape cs = standard.readPart? shape cs' := by
  show (readTree? cs).bind _ = (readTree? cs').bind _
  rw [readTree?_congr h]

/-- What may be missing is read as if it could not be, unless it is. -/
theorem part?_optional {k : Kind} (h : tree ≠ .null) :
    tree.part? (.optional k) = tree.part? (.scalar k) := by
  cases tree with
  | null => exact absurd rfl h
  | _ => rfl

theorem readPart?_optional {k : Kind} (h : (cs.dropWhile isSpace).head? ≠ some 'n') :
    standard.readPart? (.optional k) cs = standard.readPart? (.scalar k) cs := by
  show (readTree? cs).bind _ = (readTree? cs).bind _
  rcases hread : readTree? cs with - | ⟨tree, rest⟩
  · rfl
  · simp only [Option.bind_some, part?_optional (readTree?_ne_null hread h)]

/-- An integer is read as a value of any kind that takes it. -/
theorem readPart?_integer {numeral : List Char} {n : Int} {k : Kind} {v : Value}
    (h : IsInteger numeral n) (hlow : -2 ^ (63 : Nat) ≤ n) (hhigh : n < 2 ^ (64 : Nat))
    (hrest : EndsNumber rest)
    (hscalar : ∀ tree : Json, tree.integer? = some n → tree.scalar? k = some v) :
    standard.readPart? (.scalar k) (numeral ++ rest) = some (.scalar v, rest) := by
  obtain ⟨q, hnext, hquantity⟩ := h.exists_readNext? hlow hhigh hrest
  refine readPart?_token hnext rfl ?_
  rw [part?, hscalar (.number q) (by rw [integer?, hquantity]), Option.map_some]

/-! ### Records -/

section Members

variable {fields : List (String × Shape)} {given : List (String × Part)} {shape : Shape} {p : Part}
  {gap₁ gap₂ gap₃ value : List Char}

/-- A member is read before those that follow it. -/
theorem readMembers?_cons (hgap₁ : IsGap gap₁) (hgap₂ : IsGap gap₂) (hgap₃ : IsGap gap₃)
    (hname : standard.readText? cs = some (name.toList, gap₁ ++ ':' :: value))
    (htree : readTree? value = some (tree, gap₂ ++ ',' :: (gap₃ ++ '"' :: rest))) :
    readMembers? ('"' :: cs) =
      (readMembers? ('"' :: rest)).map fun r ↦ ((some name, tree) :: r.1, r.2) := by
  rw [readMembers?_comma (readNext?_of_readText? hname) (readNext?_mark (by decide) hgap₁ value)
    htree (readNext?_mark (by decide) hgap₂ _),
    readMembers?_congr (readNext?_append hgap₃ ('"' :: rest))]

theorem readMembers?_singleton (hgap₁ : IsGap gap₁) (hgap₂ : IsGap gap₂)
    (hname : standard.readText? cs = some (name.toList, gap₁ ++ ':' :: value))
    (htree : readTree? value = some (tree, gap₂ ++ '\x7d' :: rest)) :
    readMembers? ('"' :: cs) = some ([(some name, tree)], rest) :=
  readMembers?_brace (readNext?_of_readText? hname) (readNext?_mark (by decide) hgap₁ value)
    htree (readNext?_mark (by decide) hgap₂ rest)

theorem fieldsFrom?_cons {members : List (Option String × Json)}
    (hfield : fields.lookup name = some shape) (hgiven : given.lookup name = none)
    (hpart : tree.part? shape = some p) :
    fieldsFrom? fields given ((some name, tree) :: members) =
      fieldsFrom? fields (given ++ [(name, p)]) members := by
  rw [fieldsFrom?, hfield]
  simp only [hgiven, hpart, Option.isSome_none, Bool.false_eq_true, if_false, Option.bind_some]

end Members

/-! ### The rules -/

variable {fields : List (String × Shape)} {given data : List (String × Part)}

theorem readFields?_eq_some_iff :
    standard.readFields? fields given cs = some (data, rest) ↔
      ∃ members, readMembers? cs = some (members, rest) ∧
        fieldsFrom? fields given members = some data :=
  read_map_eq_some_iff

/-- The members of an object are read from behind its opening brace. -/
theorem readTree?_object {gap₀ gap₁ : List Char} {members : List (Option String × Json)}
    (hgap₀ : IsGap gap₀) (hgap₁ : IsGap gap₁)
    (hmembers : readMembers? ('"' :: cs) = some (members, rest)) :
    readTree? (gap₀ ++ '\x7b' :: (gap₁ ++ '"' :: cs)) = some (.object members, rest) := by
  obtain ⟨name, behind, tree, others, hname, -⟩ := exists_of_readMembers? hmembers
  have hskip := readNext?_append hgap₁ ('"' :: cs)
  rw [readTree?_brace (readNext?_mark (by decide) hgap₀ _) (hskip.trans hname),
    readMembers?_congr hskip, hmembers, Option.map_some]

end Standard

open Standard Json

/-- **The standard codec keeps the rules.** -/
theorem standard_lawful : standard.Lawful where
  escape_self := Json.escape_self
  escape_of_needsEscape := Json.escape_of_needsEscape
  partText_string _ := rfl
  partText_boolean _ := rfl
  partText_int32 _ := rfl
  partText_int64 _ := rfl
  partText_null := rfl
  partText_name _ := rfl
  partText_tagged _ _ := rfl
  write_part h := by
    show String.ofList (contentText (Storable.content _)) = _
    rw [h]
    rfl
  write_record h := by
    show String.ofList (contentText (Storable.content _)) = _
    rw [h]
    rfl
  text_end := rfl
  text_self h := readText?_of_readString? (readString?_self h)
  text_short h := readText?_of_readString? (readString?_short h)
  text_unicode h hhalf := readText?_of_readString? (readString?_unicode h hhalf)
  space h := readPart?_congr (readNext?_append (List.forall_mem_singleton.2 h) _)
  string := readPart?_string
  boolean := readPart?_token (readNext?_boolean _ _) rfl rfl
  int32 {_ _ n} h hcs := by
    have hlow := n.le_toInt
    have hhigh := n.toInt_lt
    refine readPart?_integer h (by omega) (by omega) hcs fun tree htree ↦ ?_
    simp only [scalar?, htree, Option.bind_some, int32?_eq_some_iff.2 rfl, Option.map_some]
  int64 {_ _ n} h hcs := by
    have hlow := n.le_toInt
    have hhigh := n.toInt_lt
    refine readPart?_integer h (by omega) (by omega) hcs fun tree htree ↦ ?_
    simp only [scalar?, htree, Option.bind_some, int64?_eq_some_iff.2 rfl, Option.map_some]
  null := readPart?_token (t := .null) rfl rfl rfl
  present := readPart?_optional
  name hmem hname := by
    refine readPart?_token (readNext?_of_readText? hname) rfl ?_
    simp [part?, name?, hmem]
  tagged hcase hgap₀ hgap₁ hgap₂ hname hvalue := by
    obtain ⟨tree, htree, hpart⟩ := readPart?_eq_some_iff.1 hvalue
    obtain ⟨v, hv, ⟨⟩⟩ := Option.map_eq_some_iff.1 hpart
    have hmembers := readMembers?_singleton hgap₁ hgap₂ hname htree
    refine readPart?_eq_some_iff.2 ⟨_, readTree?_object isGap_nil hgap₀ hmembers, ?_⟩
    simp only [part?, hcase, Option.bind_some, hv, Option.map_some]
  field hfield hgiven hgap₁ hgap₂ hgap₃ hname hvalue := by
    obtain ⟨tree, htree, hpart⟩ := readPart?_eq_some_iff.1 hvalue
    show (readMembers? _).bind _ = (readMembers? _).bind _
    rw [readMembers?_cons hgap₁ hgap₂ hgap₃ hname htree, Option.bind_map]
    congr
    funext r
    exact congrArg (Option.map fun data ↦ (data, r.2)) (fieldsFrom?_cons hfield hgiven hpart)
  last hfield hgiven hgap₁ hgap₂ hname hvalue := by
    obtain ⟨tree, htree, hpart⟩ := readPart?_eq_some_iff.1 hvalue
    show (readMembers? _).bind _ = _
    simp only [readMembers?_singleton hgap₁ hgap₂ hname htree, Option.bind_some,
      fieldsFrom?_cons hfield hgiven hpart]
    rfl
  duplicate hfield hgiven hgap hname := by
    show (readMembers? _).bind _ = _
    rcases hmembers : readMembers? _ with - | ⟨members, rest⟩
    · rfl
    · obtain ⟨name, behind, tree, others, hnext, rfl⟩ := exists_of_readMembers? hmembers
      rw [readNext?_of_readText? hname] at hnext
      obtain ⟨⟨⟩, -⟩ := Prod.mk.inj (Option.some.inj hnext)
      simp only [Option.bind_some, fieldsFrom?, hfield, hgiven, Option.isSome_some, if_true,
        Option.map_none]
  read_part hschema hcontent hread hgap := by
    obtain ⟨tree, htree, hpart⟩ := readPart?_eq_some_iff.1 hread
    show (readTree? _).bind _ = _
    simp only [htree, Option.bind_some, List.all_eq_true.2 hgap, if_true, hschema, hpart]
    rw [← hcontent, Storable.ofContent?_content]
  read_record hschema hcontent hgap₀ hgap₁ hs hread hgap₂ := by
    obtain ⟨members, hmembers, hfields⟩ := readFields?_eq_some_iff.1 hread
    show (readTree? _).bind _ = _
    simp only [hs, readTree?_object hgap₀ hgap₁ hmembers, Option.bind_some,
      List.all_eq_true.2 hgap₂, if_true, hschema, record?, hfields]
    rw [← hcontent, Storable.ofContent?_content]

end TypedLine.JsonCodec
