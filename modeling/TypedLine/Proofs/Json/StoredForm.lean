import Mathlib.Data.List.Forall2
import Mathlib.Data.List.Nodup
import TypedLine.Proofs.Json.Spelling
import TypedLine.Proofs.Json.Standard

/-!
# Stored forms read back

A text is **a form of** something stored when it spells its parts, with any whitespace between the
tokens, any escapes in the strings and the members of a record in any order (`Storable.IsForm`).
What a codec writes is one of these forms, and from each of its forms what is stored is read,
provided that it fits the declaration of its type (`Content.Fits`). All kinds, statuses, replies and
configurations fit, and so does every value that is no floating-point number.

A record is read member by member. What comes out in the end depends on the members that were read
and not on their order (`JsonCodec.Lawful.readFields?_of_spellsMembers`,
`FitsFields.complete?_of_perm`).
-/

namespace TypedLine

open Json

/-! ### Looking names up -/

/-- What is given under a name is found, where names are given once. -/
theorem lookup_eq_some_of_mem {β : Type} {l : List (String × β)} (hnodup : (l.map Prod.fst).Nodup)
    {m : String × β} (hm : m ∈ l) : l.lookup m.1 = some m.2 := by
  induction l with
  | nil => exact absurd hm List.not_mem_nil
  | cons first l ih =>
    rw [List.map_cons, List.nodup_cons] at hnodup
    rcases List.mem_cons.1 hm with rfl | hm
    · rw [List.lookup_cons_self]
    · have hne : m.1 ≠ first.1 := fun h ↦ hnodup.1 (h ▸ List.mem_map_of_mem hm)
      rw [List.lookup_cons, beq_false_of_ne hne]
      exact ih hnodup.2 hm

theorem lookup_eq_none_iff_notMem {β : Type} {l : List (String × β)} {name : String} :
    l.lookup name = none ↔ name ∉ l.map Prod.fst := by
  simp only [List.lookup_eq_none_iff, bne_iff_ne, List.mem_map, not_exists, not_and, ne_eq]
  exact ⟨fun h m hm heq ↦ h m hm heq.symm, fun h m hm heq ↦ h m hm heq.symm⟩

theorem nodup_append_of_lookup {β : Type} {l : List (String × β)} {name : String} {b : β}
    (hnodup : (l.map Prod.fst).Nodup) (h : l.lookup name = none) :
    ((l ++ [(name, b)]).map Prod.fst).Nodup := by
  rw [List.map_append, List.map_singleton, ← List.concat_eq_append]
  exact hnodup.concat (lookup_eq_none_iff_notMem.1 h)

theorem not_nodup_append_of_lookup {β : Type} {l : List (String × β)} {name : String} {b b' : β}
    (h : l.lookup name = some b) (others : List (String × β)) :
    ¬ ((l ++ (name, b') :: others).map Prod.fst).Nodup := by
  have hmem : name ∈ l.map Prod.fst := by
    by_contra hnot
    rw [lookup_eq_none_iff_notMem.2 hnot] at h
    cases h
  rw [List.map_append, List.map_cons]
  intro hnodup
  exact (List.nodup_append.1 hnodup).2.2 name hmem name List.mem_cons_self rfl

/-! ### Records -/

/-- The fields of a record have the names and the shapes of the declaration. -/
abbrev FitsFields (fields : List (String × Shape)) (data : List (String × Part)) : Prop :=
  List.Forall₂ (fun f m ↦ m.1 = f.1 ∧ m.2.Fits f.2) fields data

section Fields

variable {fields : List (String × Shape)} {data members : List (String × Part)}

theorem FitsFields.map_fst (h : FitsFields fields data) :
    data.map Prod.fst = fields.map Prod.fst := by
  induction h with
  | nil => rfl
  | cons hm _ ih => rw [List.map_cons, List.map_cons, hm.1, ih]

/-- Every member belongs to a field. -/
theorem FitsFields.exists_mem (h : FitsFields fields data) {m : String × Part} (hm : m ∈ data) :
    ∃ f ∈ fields, m.1 = f.1 ∧ m.2.Fits f.2 := by
  induction h with
  | nil => exact absurd hm List.not_mem_nil
  | cons hfirst _ ih =>
    rcases List.mem_cons.1 hm with rfl | hm
    · exact ⟨_, List.mem_cons_self, hfirst⟩
    · obtain ⟨f, hf, hfits⟩ := ih hm
      exact ⟨f, List.mem_cons_of_mem _ hf, hfits⟩

/-- A record is complete when every field is given. -/
theorem FitsFields.complete? (h : FitsFields fields data)
    (hgiven : ∀ m ∈ data, members.lookup m.1 = some m.2) :
    Storable.complete? fields members = some data := by
  induction h with
  | nil => rfl
  | @cons f m fields data hm _ ih =>
    rw [List.forall_mem_cons, hm.1] at hgiven
    have hrest := ih hgiven.2
    rw [Storable.complete?] at hrest ⊢
    rw [List.mapM_cons, hgiven.1, hrest, ← hm.1]
    rfl

/-- **The order in which the fields are given does not matter.** -/
theorem FitsFields.complete?_of_perm (h : FitsFields fields data)
    (hnodup : (fields.map Prod.fst).Nodup) (hperm : data.Perm members) :
    Storable.complete? fields members = some data := by
  have hmembers : (members.map Prod.fst).Nodup :=
    (hperm.map Prod.fst).nodup_iff.1 (h.map_fst ▸ hnodup)
  exact h.complete? fun m hm ↦ lookup_eq_some_of_mem hmembers (hperm.mem_iff.1 hm)

end Fields

/-- What is stored fits the declaration of its type, and no floating-point number is in it. -/
inductive Content.Fits : Schema → Content → Prop
  | part {shape : Shape} {p : Part} : p.Fits shape → Fits (.part shape) (.part p)
  | record {fields : List (String × Shape)} {data : List (String × Part)} :
    data ≠ [] → (fields.map Prod.fst).Nodup → FitsFields fields data →
      Fits (.record fields) (.record data)

/-- The text spells what is stored: a part, or an object with the fields in any order. -/
inductive Json.Spells : Content → (cs rest : List Char) → Prop
  | part {p : Part} {cs rest : List Char} : SpellsPart p cs rest → Spells (.part p) cs rest
  | record {data members : List (String × Part)} {gap₀ gap₁ cs rest : List Char} :
    data.Perm members → IsGap gap₀ → IsGap gap₁ → SpellsMembers members cs rest →
      Spells (.record data) (gap₀ ++ '\x7b' :: (gap₁ ++ '"' :: cs)) rest

/-- The text `s` is a **form of** `a`: it spells what `a` consists of, with nothing but whitespace
behind it. -/
def Storable.IsForm {α : Type} [Storable α] (a : α) (s : String) : Prop :=
  ∃ gap, IsGap gap ∧ Spells (Storable.content a) s.toList gap

namespace JsonCodec.Lawful

variable {c : JsonCodec}

/-- **Members are read in any order**, each of them once. -/
theorem readFields?_of_spellsMembers (hc : c.Lawful) {fields : List (String × Shape)}
    {given members : List (String × Part)} {cs rest : List Char}
    (h : SpellsMembers members cs rest)
    (hfits : ∀ m ∈ members, ∃ shape, fields.lookup m.1 = some shape ∧ m.2.Fits shape)
    (hgiven : (given.map Prod.fst).Nodup) :
    c.readFields? fields given ('"' :: cs) =
      if ((given ++ members).map Prod.fst).Nodup then
        (Storable.complete? fields (given ++ members)).map fun data ↦ (data, rest)
      else none := by
  induction h generalizing given with
  | @last name p _ _ _ _ _ hgap₁ hgap₂ hname hpart =>
    obtain ⟨shape, hfield, hp⟩ := hfits _ List.mem_cons_self
    rcases hlookup : given.lookup name with - | other
    · rw [hc.last hfield hlookup hgap₁ hgap₂ (hc.readText?_of_spellsText hname)
        (hc.readPart?_of_spellsPart hpart hp), if_pos (nodup_append_of_lookup hgiven hlookup)]
    · rw [hc.duplicate hfield hlookup hgap₁ (hc.readText?_of_spellsText hname),
        if_neg (not_nodup_append_of_lookup hlookup [])]
  | @cons name p members _ _ _ _ _ _ _ hgap₁ hgap₂ hgap₃ hname hpart _ ih =>
    obtain ⟨⟨shape, hfield, hp⟩, hrest⟩ := List.forall_mem_cons.1 hfits
    rcases hlookup : given.lookup name with - | other
    · rw [hc.field hfield hlookup hgap₁ hgap₂ hgap₃ (hc.readText?_of_spellsText hname)
        (hc.readPart?_of_spellsPart hpart hp), ih hrest (nodup_append_of_lookup hgiven hlookup),
        List.append_assoc, List.singleton_append]
    · rw [hc.duplicate hfield hlookup hgap₁ (hc.readText?_of_spellsText hname),
        if_neg (not_nodup_append_of_lookup hlookup members)]

/-- A record that is written spells its members in the order of the fields. -/
theorem exists_spellsMembers (hc : c.Lawful) {fields : List (String × Shape)}
    {data : List (String × Part)} (hdata : FitsFields fields data) (hne : data ≠ [])
    (rest : List Char) :
    ∃ cs, [','].intercalate (data.map c.memberText) ++ '\x7d' :: rest = '"' :: cs ∧
      SpellsMembers data cs rest := by
  induction hdata with
  | nil => exact absurd rfl hne
  | @cons f m fields data hm hdata ih =>
    cases hdata with
    | nil =>
      refine ⟨_, ?_, .last isGap_nil isGap_nil (hc.spellsText_flatMap_escape _ _)
        (hc.spellsPart_partText hm.2 (endsNumber_brace rest))⟩
      rw [List.map_singleton, List.intercalate_singleton, hc.memberText_append]
      rfl
    | cons hnext hrest =>
      obtain ⟨cs, hcs, hmembers⟩ := ih (List.cons_ne_nil _ _)
      refine ⟨_, ?_, .cons isGap_nil isGap_nil isGap_nil (hc.spellsText_flatMap_escape _ _)
        (hc.spellsPart_partText hm.2 (endsNumber_comma _)) hmembers⟩
      rw [List.map_cons] at hcs
      rw [List.map_cons, List.map_cons, List.intercalate_cons_cons, List.append_assoc,
        List.append_assoc, hcs, hc.memberText_append]
      rfl

section Stored

variable {α : Type} [Storable α] {a : α} {s : String}

/-- What is written is a form. -/
theorem isForm_write (hc : c.Lawful) (ha : (Storable.content a).Fits (Storable.schema α)) :
    Storable.IsForm a (c.write a) := by
  generalize hschema : Storable.schema α = schema at ha
  generalize hcontent : Storable.content a = content at ha
  refine ⟨[], isGap_nil, ?_⟩
  rw [hcontent]
  cases ha with
  | part hp =>
    have h := hc.spellsPart_partText hp (show EndsNumber [] from nofun)
    rw [List.append_nil] at h
    rw [hc.write_part hcontent, String.toList_ofList]
    exact .part h
  | record hne _ hdata =>
    obtain ⟨cs, hcs, hmembers⟩ := hc.exists_spellsMembers hdata hne []
    rw [hc.write_record hcontent, String.toList_ofList, hcs]
    exact .record (.refl _) isGap_nil isGap_nil hmembers

/-- **What is stored is read from each of its forms.** -/
theorem read?_of_isForm (hc : c.Lawful) (ha : (Storable.content a).Fits (Storable.schema α))
    (hs : Storable.IsForm a s) : c.read? s = some a := by
  obtain ⟨gap, hgap, hspells⟩ := hs
  generalize hschema : Storable.schema α = schema at ha
  generalize hcontent : Storable.content a = content at ha hspells
  generalize hcs : s.toList = cs at hspells
  cases hspells with
  | part hpart =>
    cases ha with
    | part hp =>
      exact hc.read_part hschema hcontent (hcs ▸ hc.readPart?_of_spellsPart hpart hp) hgap
  | @record data members _ _ _ _ hperm hgap₀ hgap₁ hmembers =>
    cases ha with
    | @record fields _ hne hnodup hdata =>
      have hfits : ∀ m ∈ members, ∃ shape, fields.lookup m.1 = some shape ∧ m.2.Fits shape := by
        intro m hm
        obtain ⟨f, hf, hname, hfits⟩ := hdata.exists_mem (hperm.mem_iff.2 hm)
        exact ⟨f.2, hname ▸ lookup_eq_some_of_mem hnodup hf, hfits⟩
      have hnone : (([] : List (String × Part)).map Prod.fst).Nodup := List.nodup_nil
      have hread := hc.readFields?_of_spellsMembers hmembers hfits hnone
      have hnames : (members.map Prod.fst).Nodup :=
        (hperm.map Prod.fst).nodup_iff.1 (hdata.map_fst ▸ hnodup)
      rw [List.nil_append, if_pos hnames, hdata.complete?_of_perm hnodup hperm, Option.map_some]
        at hread
      exact hc.read_record hschema hcontent hgap₀ hgap₁ hcs hread hgap

theorem read?_write (hc : c.Lawful) (ha : (Storable.content a).Fits (Storable.schema α)) :
    c.read? (c.write a) = some a :=
  hc.read?_of_isForm ha (hc.isForm_write ha)

end Stored

end JsonCodec.Lawful

/-! ### What fits -/

theorem Kind.fits (k : Kind) : (Storable.content k).Fits (Storable.schema Kind) := by
  refine .part (.name (List.mem_map_of_mem ?_))
  cases k <;> decide

theorem Status.storedName_mem (s : Status) : s.storedName ∈ Status.all.map Status.storedName := by
  cases s <;> decide

theorem Status.fits (s : Status) : (Storable.content s).Fits (Storable.schema Status) :=
  .part (.name s.storedName_mem)

theorem Kind.lookup_name (k : Kind) :
    (Kind.all.map fun k ↦ (k.name, k)).lookup k.name = some k := by
  cases k <;> decide

theorem Value.fits {v : Value} (hsingle : v.kind ≠ .single) (hdouble : v.kind ≠ .double) :
    (Storable.content v).Fits (Storable.schema Value) := by
  refine .part ?_
  cases v with
  | string text => exact .tagged (Kind.lookup_name .string) (.string text)
  | boolean truth => exact .tagged (Kind.lookup_name .boolean) (.boolean truth)
  | int32 number => exact .tagged (Kind.lookup_name .int32) (.int32 number)
  | int64 number => exact .tagged (Kind.lookup_name .int64) (.int64 number)
  | single number => exact absurd rfl hsingle
  | double number => exact absurd rfl hdouble

theorem Reply.fits (r : Reply) : (Storable.content r).Fits (Storable.schema Reply) := by
  refine .record (List.cons_ne_nil _ _) (by decide) ?_
  exact .cons ⟨rfl, .string r.text⟩ (.cons ⟨rfl, .name r.status.storedName_mem⟩ .nil)

theorem Config.fits (c : Config) : (Storable.content c).Fits (Storable.schema Config) := by
  have hpath : (Config.pathPart c.scriptPath).Fits (.optional .string) := by
    cases c.scriptPath with
    | none => exact .null .string
    | some path => exact .present (.string path)
  refine .record (List.cons_ne_nil _ _) (by decide) ?_
  exact .cons ⟨rfl, .boolean c.keepGoing⟩
    (.cons ⟨rfl, hpath⟩ (.cons ⟨rfl, .string c.commentPrefix⟩ .nil))

/-- **What is written is read back**, by every codec that keeps the rules. This holds of every kind
and status, of every value that is no floating-point number, and of every reply and configuration; a
reply and a configuration are read from each of their forms, with the members in any order and any
whitespace between the tokens. -/
theorem JsonCodec.Lawful.read?_eq_some_of_isForm {c : JsonCodec} (hc : c.Lawful) :
    (∀ k : Kind, c.read? (c.write k) = some k) ∧
    (∀ s : Status, c.read? (c.write s) = some s) ∧
    (∀ v : Value, v.kind ≠ .single → v.kind ≠ .double → c.read? (c.write v) = some v) ∧
    (∀ r : Reply, c.read? (c.write r) = some r ∧
      ∀ text, Storable.IsForm r text → c.read? text = some r) ∧
    ∀ cfg : Config, c.read? (c.write cfg) = some cfg ∧
      ∀ text, Storable.IsForm cfg text → c.read? text = some cfg :=
  ⟨fun k ↦ hc.read?_write k.fits, fun s ↦ hc.read?_write s.fits,
    fun _ hsingle hdouble ↦ hc.read?_write (Value.fits hsingle hdouble),
    fun r ↦ ⟨hc.read?_write r.fits, fun _ ↦ hc.read?_of_isForm r.fits⟩,
    fun cfg ↦ ⟨hc.read?_write cfg.fits, fun _ ↦ hc.read?_of_isForm cfg.fits⟩⟩

/-- A text without escapes is spelled by itself. -/
theorem Json.SpellsText.plain {text : List Char} (h : text.any needsEscape = false)
    (rest : List Char) : SpellsText text (text ++ '"' :: rest) rest := by
  induction text with
  | nil => exact .nil
  | cons ch text ih =>
    rw [List.any_cons, Bool.or_eq_false_iff] at h
    exact .self h.1 (ih h.2)

/-- The least integer of 64 bits; a reply whose members come in the other order, with a line break
before every token; and a configuration with its members from last to first. -/
theorem JsonCodec.standard_read?_eq_some_reordered :
    JsonCodec.standard.Lawful ∧
    (Value.int64 (-9223372036854775808)).kind ≠ .single ∧
    (Value.int64 (-9223372036854775808)).kind ≠ .double ∧
    standard.read? (standard.write (Value.int64 (-9223372036854775808))) =
      some (Value.int64 (-9223372036854775808)) ∧
    Storable.IsForm (⟨"\x01\"é", .warning⟩ : Reply)
      "\n\x7b\n\"status\"\n:\n\"Warning\"\n,\n\"text\"\n:\n\"\\u0001\\\"é\"\n\x7d\n" ∧
    standard.read? "\n\x7b\n\"status\"\n:\n\"Warning\"\n,\n\"text\"\n:\n\"\\u0001\\\"é\"\n\x7d\n" =
      some (⟨"\x01\"é", .warning⟩ : Reply) ∧
    Storable.IsForm (⟨true, none, "//"⟩ : Config)
      "\x7b\"comment_prefix\":\"//\",\"script_path\":null,\"keep_going\":true\x7d" ∧
    standard.read? "\x7b\"comment_prefix\":\"//\",\"script_path\":null,\"keep_going\":true\x7d" =
      some (⟨true, none, "//"⟩ : Config) := by
  have hgap : IsGap ['\n'] := List.forall_mem_singleton.2 rfl
  have htext : SpellsText "\x01\"é".toList "\\u0001\\\"é\"\n\x7d\n".toList ['\n', '\x7d', '\n'] :=
    .unicode (n := 1) rfl rfl (.short rfl (.self rfl .nil))
  have hreply : Storable.IsForm (⟨"\x01\"é", .warning⟩ : Reply)
      "\n\x7b\n\"status\"\n:\n\"Warning\"\n,\n\"text\"\n:\n\"\\u0001\\\"é\"\n\x7d\n" :=
    ⟨['\n'], hgap, .record (.swap _ _ []) hgap hgap
      (.cons hgap hgap hgap (.plain (by decide) _) (.space rfl (.name (.plain (by decide) _)))
        (.last hgap hgap (.plain (by decide) _) (.space rfl (.string htext))))⟩
  have hconfig : Storable.IsForm (⟨true, none, "//"⟩ : Config)
      "\x7b\"comment_prefix\":\"//\",\"script_path\":null,\"keep_going\":true\x7d" :=
    ⟨[], isGap_nil, .record (List.reverse_perm _).symm isGap_nil isGap_nil
      (.cons isGap_nil isGap_nil isGap_nil (.plain (by decide) _) (.string (.plain (by decide) _))
        (.cons isGap_nil isGap_nil isGap_nil (.plain (by decide) _) .null
          (.last isGap_nil isGap_nil (.plain (by decide) _) (.boolean true))))⟩
  have hread := Lawful.read?_eq_some_of_isForm standard_lawful
  exact ⟨standard_lawful, by decide, by decide, hread.2.2.1 _ (by decide) (by decide), hreply,
    (hread.2.2.2.1 _).2 _ hreply, hconfig, (hread.2.2.2.2 _).2 _ hconfig⟩

end TypedLine
