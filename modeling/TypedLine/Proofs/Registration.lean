import TypedLine.Builtin
import TypedLine.Proofs.Registry
import TypedLine.Proofs.Text.ByteOrder
import TypedLine.Proofs.Text.LowerCase

/-!
# Histories of registration

A registry comes about by attempts to register commands, some of which are refused. Over any history
of attempts it is a map from keys to commands: the attempts that succeeded have keys of their own,
the registry lists exactly these keys, in the order of their bytes, and what it finds under a name
is the command of the one attempt that succeeded with the key of the name. An attempt is answered
from the attempts that succeeded before it and nothing else, so that a refused one leaves no trace,
and attempts under different keys may come in any order: `faithfulMap`.

One relation carries this through a history. The entries are, in some order, those that were there
before together with those of the attempts that succeed (`entries_after_perm`). As the entries of a
registry ascend, they are known as soon as they are known in some order.
-/

namespace TypedLine

open Text

namespace Attempt

/-- The command under its key. -/
def entry (a : Attempt) : Entry :=
  ⟨a.key, a.command⟩

/-- **The answer to an attempt** where `held` are the attempts that have succeeded before it. -/
inductive Answer (held : List Attempt) (a : Attempt) : Except Failure Unit → Prop
  /-- A name of nothing but whitespace is refused. -/
  | blank : (∀ ch ∈ a.name.toList, isSpace ch = true) →
      Answer held a (.error (.invalidName a.name))
  /-- Another name is refused when one with the same lower-case form is registered. -/
  | taken {b : Attempt} : (∃ ch ∈ a.name.toList, isSpace ch = false) → b ∈ held → b.key = a.key →
      Answer held a (.error (.duplicateCommand a.key))
  /-- Otherwise the command is registered. -/
  | registered : (∃ ch ∈ a.name.toList, isSpace ch = false) → (∀ b ∈ held, b.key ≠ a.key) →
      Answer held a (.ok ())

/-- The rules exclude each other. -/
theorem Answer.unique {held : List Attempt} {a : Attempt} {x y : Except Failure Unit}
    (hx : a.Answer held x) (hy : a.Answer held y) : x = y := by
  have hexcludes : (∃ ch ∈ a.name.toList, isSpace ch = false) →
      ¬ ∀ ch ∈ a.name.toList, isSpace ch = true := by
    rintro ⟨ch, hch, hspace⟩ hblank
    exact Bool.false_ne_true (hspace.symm.trans (hblank ch hch))
  cases hx with
  | blank hblank =>
    cases hy with
    | blank => rfl
    | taken hname => exact absurd hblank (hexcludes hname)
    | registered hname => exact absurd hblank (hexcludes hname)
  | taken hname hheld hkey =>
    cases hy with
    | blank hblank => exact absurd hblank (hexcludes hname)
    | taken => rfl
    | registered _ hfree => exact absurd hkey (hfree _ hheld)
  | registered hname hfree =>
    cases hy with
    | blank hblank => exact absurd hblank (hexcludes hname)
    | taken _ hheld hkey => exact absurd hkey (hfree _ hheld)
    | registered => rfl

end Attempt

namespace Registry

/-- The registry after the attempts have been made in order. -/
def after (r : Registry) : List Attempt → Registry
  | [] => r
  | a :: as => (r.attempt a).2.after as

/-- Those of the attempts that succeed when they are made in order. -/
def succeeding (r : Registry) : List Attempt → List Attempt
  | [] => []
  | a :: as =>
    match r.attempt a with
    | (.ok (), s) => a :: s.succeeding as
    | (.error _, s) => s.succeeding as

/-- What a registry shows when `held` are the attempts that have succeeded. -/
structure Shows (held : List Attempt) (r : Registry) : Prop where
  /-- No two of the attempts have the same key. -/
  distinct : held.Pairwise fun a b ↦ a.key ≠ b.key
  /-- The listed keys ascend in the order of their bytes. -/
  ascending : r.names.Pairwise fun k l ↦ utf8Bytes k < utf8Bytes l
  /-- They are the keys of the attempts. -/
  listed (key : String) : key ∈ r.names ↔ ∃ a ∈ held, a.key = key
  /-- There are as many commands as attempts. -/
  size : r.size = held.length
  /-- Under a name with the key of an attempt, in whatever letter case, its command is found. -/
  found {a : Attempt} {name : String} : a ∈ held → a.key = lowerCase name →
    r.contains name = true ∧ r.signature? name = some a.command.signature ∧
      r.find? name = some a.command
  /-- Under other names nothing is found. -/
  missing {name : String} : (∀ a ∈ held, a.key ≠ lowerCase name) →
    r.contains name = false ∧ r.signature? name = none ∧ r.find? name = none

/-- **A registry is a map over its history** of attempts on the empty registry. -/
structure FaithfulMap (attempts : List Attempt) : Prop where
  /-- The next attempt is answered from those that have succeeded. -/
  answered {a : Attempt} {answer : Except Failure Unit} :
    ((empty.after attempts).attempt a).1 = answer ↔ a.Answer (empty.succeeding attempts) answer
  /-- When it is refused, nothing that comes later is different from what it would be without. -/
  refused {a : Attempt} {e : Failure} : ((empty.after attempts).attempt a).1 = .error e →
    ∀ later, empty.after (attempts ++ a :: later) = empty.after (attempts ++ later) ∧
      empty.succeeding (attempts ++ a :: later) = empty.succeeding (attempts ++ later)
  /-- The attempts that have succeeded can be observed, and no more than that. -/
  shows : (empty.after attempts).Shows (empty.succeeding attempts)
  /-- Attempts with different keys may be made in any order: the same ones succeed, and whatever
  comes later finds the same registry. -/
  reordered {as bs : List Attempt} : as.Pairwise (fun a b ↦ a.key ≠ b.key) → as.Perm bs →
    ((empty.after attempts).succeeding as).Perm ((empty.after attempts).succeeding bs) ∧
      ∀ later, empty.after (attempts ++ as ++ later) = empty.after (attempts ++ bs ++ later)

variable {r s : Registry} {a : Attempt} {as bs : List Attempt} {e : Failure}

/-! ### One attempt -/

/-- Putting an entry in its place adds this one entry. -/
theorem place_perm (e : Entry) (es : List Entry) : (place e es).Perm (e :: es) := by
  induction es with
  | nil => exact .refl _
  | cons d ds ih =>
    rw [place]
    split
    · exact .refl _
    · exact (ih.cons d).trans (.swap e d ds)

/-- **What an attempt does**: how it is refused, or what is added to the registry. -/
theorem attempt_cases (r : Registry) (a : Attempt) :
    (isBlank a.name = true ∧ r.attempt a = (.error (.invalidName a.name), r)) ∨
      (isBlank a.name = false ∧ a.key ∈ r.names ∧
        r.attempt a = (.error (.duplicateCommand a.key), r)) ∨
      (isBlank a.name = false ∧ a.key ∉ r.names ∧
        ∃ s, r.attempt a = (.ok (), s) ∧ s.entries.Perm (a.entry :: r.entries)) := by
  have htaken : (∃ e ∈ r.entries, e.key = lowerCase a.name) ↔ a.key ∈ r.names := List.mem_map.symm
  rcases hblank : isBlank a.name with - | -
  · by_cases hkey : a.key ∈ r.names
    · have hregister : r.register a.name a.command = .error (.duplicateCommand a.key) := by
        simp only [register, hblank, Bool.false_eq_true, if_false, dif_pos (htaken.2 hkey)]
        rfl
      exact .inr (.inl ⟨rfl, hkey, by rw [attempt, hregister]⟩)
    · obtain ⟨s, hregister, hentries⟩ : ∃ s, r.register a.name a.command = .ok s ∧
          s.entries = place a.entry r.entries := by
        refine ⟨⟨place a.entry r.entries, pairwise_place r.ordered fun d hd hsame ↦
          hkey (htaken.1 ⟨d, hd, hsame⟩)⟩, ?_, rfl⟩
        simp only [register, hblank, Bool.false_eq_true, if_false, dif_neg (mt htaken.1 hkey)]
        rfl
      refine .inr (.inr ⟨rfl, hkey, s, by rw [attempt, hregister], ?_⟩)
      rw [hentries]
      exact place_perm _ _
  · have hregister : r.register a.name a.command = .error (.invalidName a.name) := by
      rw [register, if_pos hblank]
    exact .inl ⟨rfl, by rw [attempt, hregister]⟩

/-- A refused attempt leaves the registry as it is. -/
theorem attempt_snd_of_error (h : (r.attempt a).1 = .error e) : (r.attempt a).2 = r := by
  rcases attempt_cases r a with ⟨-, ha⟩ | ⟨-, -, ha⟩ | ⟨-, -, s, ha, -⟩
  · rw [ha]
  · rw [ha]
  · rw [ha] at h
    cases h

/-! ### A history of attempts -/

theorem after_append (r : Registry) (as bs : List Attempt) :
    r.after (as ++ bs) = (r.after as).after bs := by
  induction as generalizing r with
  | nil => rfl
  | cons a as ih => exact ih _

theorem succeeding_append (r : Registry) (as bs : List Attempt) :
    r.succeeding (as ++ bs) = r.succeeding as ++ (r.after as).succeeding bs := by
  induction as generalizing r with
  | nil => rfl
  | cons a as ih =>
    rcases ha : r.attempt a with ⟨answer, s⟩
    cases answer with
    | error e => simp only [List.cons_append, succeeding, after, ha, ih]
    | ok => simp only [List.cons_append, succeeding, after, ha, ih]

/-- **The entries after a history** are those before it and those of the attempts that succeed. -/
theorem entries_after_perm (r : Registry) (as : List Attempt) :
    (r.after as).entries.Perm ((r.succeeding as).map Attempt.entry ++ r.entries) := by
  induction as generalizing r with
  | nil => exact .refl _
  | cons a as ih =>
    rcases attempt_cases r a with ⟨-, ha⟩ | ⟨-, -, ha⟩ | ⟨-, -, s, ha, hs⟩
    · simpa only [after, succeeding, ha] using ih r
    · simpa only [after, succeeding, ha] using ih r
    · simp only [after, succeeding, ha, List.map_cons, List.cons_append]
      exact (ih s).trans ((hs.append_left _).trans List.perm_middle)

/-- Registries with the same entries are the same, as the entries ascend. -/
theorem eq_of_entries_perm (h : r.entries.Perm s.entries) : r = s := by
  have hentries : r.entries = s.entries := by
    refine h.eq_of_pairwise (fun a b _ _ hab hba ↦ ?_) r.ordered s.ordered
    exact absurd hab (Std.not_lt.2 (Std.le_of_lt hba))
  cases r
  cases s
  cases hentries
  rfl

/-! ### What is held after a history -/

/-- Nothing is registered but by attempts. -/
theorem entries_after_empty_perm (as : List Attempt) :
    (empty.after as).entries.Perm ((empty.succeeding as).map Attempt.entry) := by
  have hentries := entries_after_perm empty as
  rwa [show empty.entries = [] from rfl, List.append_nil] at hentries

theorem mem_entries_after_iff {e : Entry} :
    e ∈ (empty.after as).entries ↔ ∃ a ∈ empty.succeeding as, a.entry = e := by
  rw [(entries_after_empty_perm as).mem_iff, List.mem_map]

theorem mem_names_after_iff {key : String} :
    key ∈ (empty.after as).names ↔ ∃ a ∈ empty.succeeding as, a.key = key := by
  rw [names, List.mem_map]
  refine ⟨fun h ↦ ?_, fun h ↦ ?_⟩
  · obtain ⟨e, he, rfl⟩ := h
    obtain ⟨a, ha, rfl⟩ := mem_entries_after_iff.1 he
    exact ⟨a, ha, rfl⟩
  · obtain ⟨a, ha, rfl⟩ := h
    exact ⟨a.entry, mem_entries_after_iff.2 ⟨a, ha, rfl⟩, rfl⟩

/-- An attempt under a blank name does not succeed. -/
theorem isBlank_of_mem_succeeding (h : a ∈ r.succeeding as) : isBlank a.name = false := by
  induction as generalizing r with
  | nil => cases h
  | cons b as ih =>
    rcases attempt_cases r b with ⟨-, hb⟩ | ⟨-, -, hb⟩ | ⟨hname, -, s, hb, -⟩
    · simp only [succeeding, hb] at h
      exact ih h
    · simp only [succeeding, hb] at h
      exact ih h
    · simp only [succeeding, hb] at h
      rcases List.mem_cons.1 h with rfl | h
      · exact hname
      · exact ih h

/-- **A key is its own lower-case form, and not blank.** So it is a name of its command. -/
theorem key_of_mem_names_after {key : String} (h : key ∈ (empty.after as).names) :
    lowerCase key = key ∧ isBlank key = false := by
  obtain ⟨a, ha, rfl⟩ := mem_names_after_iff.1 h
  exact ⟨lowerCase_lowerCase a.name, isBlank_lowerCase (isBlank_of_mem_succeeding ha)⟩

/-- **The registry after a history shows which attempts have succeeded.** -/
theorem shows_after (as : List Attempt) : (empty.after as).Shows (empty.succeeding as) where
  distinct := by
    have hne : (empty.after as).entries.Pairwise fun d e ↦ d.key ≠ e.key :=
      (empty.after as).ordered.imp Std.ne_of_lt
    have hheld := ((entries_after_empty_perm as).pairwise_iff Ne.symm).1 hne
    rwa [List.pairwise_map] at hheld
  ascending := by
    rw [names, List.pairwise_map]
    exact (empty.after as).ordered.imp utf8Bytes_lt_iff.2
  listed _ := mem_names_after_iff
  size := by
    have hlength := (entries_after_empty_perm as).length_eq
    rwa [List.length_map] at hlength
  found := by
    intro a name ha hkey
    have hfind : (empty.after as).find? name = some a.command := by
      rw [find?, ← hkey]
      exact lookup?_eq_some_iff.2 (mem_entries_after_iff.2 ⟨a, ha, rfl⟩)
    rw [contains, signature?, hfind]
    exact ⟨rfl, rfl, rfl⟩
  missing := by
    intro name hnone
    have hfind : (empty.after as).find? name = none := by
      refine lookup?_eq_none_iff.2 fun hmem ↦ ?_
      obtain ⟨a, ha, hkey⟩ := mem_names_after_iff.1 hmem
      exact hnone a ha hkey
    rw [contains, signature?, hfind]
    exact ⟨rfl, rfl, rfl⟩

/-- The next attempt is answered by the rules. -/
theorem answer_attempt (as : List Attempt) (a : Attempt) :
    a.Answer (empty.succeeding as) ((empty.after as).attempt a).1 := by
  rcases attempt_cases (empty.after as) a with
    ⟨hblank, ha⟩ | ⟨hname, hkey, ha⟩ | ⟨hname, hkey, s, ha, -⟩
  · rw [ha]
    exact .blank (isBlank_iff.1 hblank)
  · obtain ⟨b, hb, hsame⟩ := mem_names_after_iff.1 hkey
    rw [ha]
    exact .taken (isBlank_eq_false_iff.1 hname) hb hsame
  · rw [ha]
    refine .registered (isBlank_eq_false_iff.1 hname) fun b hb hsame ↦ ?_
    exact hkey (mem_names_after_iff.2 ⟨b, hb, hsame⟩)

/-! ### Attempts in another order -/

/-- Whether an attempt succeeds does not depend on one with another key that is made before it. -/
theorem mem_names_attempt_iff {key : String} (h : a.key ≠ key) :
    key ∈ (r.attempt a).2.names ↔ key ∈ r.names := by
  rcases attempt_cases r a with ⟨-, ha⟩ | ⟨-, -, ha⟩ | ⟨-, -, s, ha, hs⟩
  · rw [ha]
  · rw [ha]
  · have hnames : s.names.Perm (a.key :: r.names) := hs.map Entry.key
    rw [ha, hnames.mem_iff, List.mem_cons]
    exact or_iff_right h.symm

/-- **Attempts with different keys do not stand in each other's way**: each succeeds as if it were
the only one. -/
theorem succeeding_eq_filter (has : as.Pairwise fun a b ↦ a.key ≠ b.key) :
    r.succeeding as = as.filter fun a ↦ !isBlank a.name && decide (a.key ∉ r.names) := by
  induction as generalizing r with
  | nil => rfl
  | cons a as ih =>
    obtain ⟨hne, has⟩ := List.pairwise_cons.1 has
    have hrest : (r.attempt a).2.succeeding as =
        as.filter fun a ↦ !isBlank a.name && decide (a.key ∉ r.names) := by
      rw [ih has]
      refine List.filter_congr fun b hb ↦ ?_
      rw [decide_eq_decide.2 (not_congr (mem_names_attempt_iff (hne b hb)))]
    rcases attempt_cases r a with ⟨hblank, ha⟩ | ⟨hname, hkey, ha⟩ | ⟨hname, hkey, s, ha, -⟩
    · rw [ha] at hrest
      rw [List.filter_cons_of_neg (by simp [hblank]), ← hrest]
      simp only [succeeding, ha]
    · rw [ha] at hrest
      rw [List.filter_cons_of_neg (by simp [hkey]), ← hrest]
      simp only [succeeding, ha]
    · rw [ha] at hrest
      rw [List.filter_cons_of_pos (by simp [hname, hkey]), ← hrest]
      simp only [succeeding, ha]

/-- In another order the same attempts succeed. -/
theorem succeeding_perm (has : as.Pairwise fun a b ↦ a.key ≠ b.key) (h : as.Perm bs) :
    (r.succeeding as).Perm (r.succeeding bs) := by
  rw [succeeding_eq_filter has, succeeding_eq_filter ((h.pairwise_iff Ne.symm).1 has)]
  exact h.filter _

/-- In another order the attempts lead to the same registry. -/
theorem after_eq_of_perm (has : as.Pairwise fun a b ↦ a.key ≠ b.key) (h : as.Perm bs) :
    r.after as = r.after bs := by
  have hadded : ((r.succeeding as).map Attempt.entry ++ r.entries).Perm
      ((r.succeeding bs).map Attempt.entry ++ r.entries) :=
    ((succeeding_perm has h).map Attempt.entry).append_right r.entries
  have hentries : (r.after as).entries.Perm (r.after bs).entries :=
    (entries_after_perm r as).trans (hadded.trans (entries_after_perm r bs).symm)
  exact eq_of_entries_perm hentries

/-! ### The whole history -/

/-- **The registry is a map over every history of attempts.** -/
theorem faithfulMap (attempts : List Attempt) : FaithfulMap attempts where
  answered := by
    intro a answer
    refine ⟨fun h ↦ h ▸ answer_attempt attempts a, fun h ↦ ?_⟩
    exact (answer_attempt attempts a).unique h
  refused := by
    intro a e h later
    have hsame : (empty.after attempts).attempt a = (.error e, empty.after attempts) :=
      Prod.ext h (attempt_snd_of_error h)
    rw [after_append, after_append, succeeding_append, succeeding_append]
    simp only [after, succeeding, hsame, and_self]
  shows := shows_after attempts
  reordered := by
    intro as bs has h
    refine ⟨succeeding_perm has h, fun later ↦ ?_⟩
    rw [after_append, after_append, after_append, after_append, after_eq_of_perm has h]

/-- Behind `Οδος` the name `ΟΔΟΣ` is refused, as its last letter becomes the final sigma too. With
or without that attempt, a name that starts with the sign for kelvin is registered next. -/
theorem faithfulMap_finalSigma :
    ((empty.after [⟨"Οδος", Builtin.echo⟩]).attempt ⟨"ΟΔΟΣ", Builtin.not⟩).1 =
        .error (.duplicateCommand "οδος") ∧
      empty.after [⟨"Οδος", Builtin.echo⟩, ⟨"ΟΔΟΣ", Builtin.not⟩, ⟨"\u212Aelvin", Builtin.add⟩] =
        empty.after [⟨"Οδος", Builtin.echo⟩, ⟨"\u212Aelvin", Builtin.add⟩] := by
  have hrefused : ((empty.after [⟨"Οδος", Builtin.echo⟩]).attempt ⟨"ΟΔΟΣ", Builtin.not⟩).1 =
      .error (.duplicateCommand "οδος") := by decide +kernel
  have hlater := (faithfulMap [⟨"Οδος", Builtin.echo⟩]).refused hrefused
    [⟨"\u212Aelvin", Builtin.add⟩]
  exact ⟨hrefused, hlater.1⟩

end Registry

end TypedLine
