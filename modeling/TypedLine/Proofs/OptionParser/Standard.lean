import TypedLine.OptionParser.Standard
import TypedLine.Proofs.OptionParser.Word

/-!
# An option parser that keeps the rules

`OptionParser.standard` keeps the rules of an option parser: `standard_lawful`.

The rules say that a word that is read is given. The parser checks a value only when the next word
is taken, so behind a value it stands otherwise than if the value were given. But everything that is
done next begins with the check or does not depend on it (`read_settle`).
-/

namespace TypedLine

/-- What goes through has gone through step by step. -/
theorem bind_eq_ok_iff {ε α β : Type} {x : Except ε α} {g : α → Except ε β} {b : β} :
    (x >>= g) = .ok b ↔ ∃ a, x = .ok a ∧ g a = .ok b := by
  rcases x with e | a
  · exact ⟨nofun, fun ⟨_, h, _⟩ ↦ nomatch h⟩
  · exact ⟨fun h ↦ ⟨a, rfl, h⟩, fun ⟨_, h, hg⟩ ↦ Except.ok.inj h ▸ hg⟩

theorem map_eq_ok_iff {ε α β : Type} {x : Except ε α} {g : α → β} {b : β} :
    x.map g = .ok b ↔ ∃ a, x = .ok a ∧ g a = b := by
  rcases x with e | a
  · exact ⟨nofun, fun ⟨_, h, _⟩ ↦ nomatch h⟩
  · exact ⟨fun h ↦ ⟨a, rfl, Except.ok.inj h⟩, fun ⟨_, h, hg⟩ ↦ congrArg _ (Except.ok.inj h ▸ hg)⟩

namespace Matches

variable {given : Matches} {name other value : String}

theorem add_self : given.add name value name = given name ++ [value] :=
  if_pos rfl

theorem add_of_ne (h : other ≠ name) : given.add name value other = given other :=
  if_neg h

/-- What is given remains given. -/
theorem add_ne_nil (h : given other ≠ []) : given.add name value other ≠ [] := by
  by_cases hname : other = name
  · subst hname
    rw [add_self]
    exact List.append_ne_nil_of_right_ne_nil _ (List.cons_ne_nil _ _)
  · rwa [add_of_ne hname]

end Matches

namespace OptionParser.Standard.Reader

variable {r r' : Reader} {s : Subcommand} {mode : Mode} {w name : String} {ws : List String}

/-! ### Checking the last word -/

/-- What is known once the word that was taken last is checked. -/
theorem settle_cases (h : r.settle = .ok r') :
    (r.pending = .none ∧ r' = r) ∨
    ∃ name mayBeEmpty text, r.pending = .value name mayBeEmpty text ∧
      r' = { given := r.given.add name text } := by
  rw [settle] at h
  split at h
  · rename_i hpending
    exact .inl ⟨hpending, (Except.ok.inj h).symm⟩
  · cases h
  · rename_i name mayBeEmpty text hpending
    split at h
    · cases h
    split at h
    · cases h
    · exact .inr ⟨name, mayBeEmpty, text, hpending, (Except.ok.inj h).symm⟩

/-- Nothing is left to be checked then. -/
theorem settle_settle (h : r.settle = .ok r') : r'.settle = .ok r' := by
  obtain ⟨hpending, rfl⟩ | ⟨name, mayBeEmpty, text, -, rfl⟩ := settle_cases h
  · exact h
  · rfl

theorem has_settle (h : r.settle = .ok r') : r'.has name = r.has name := by
  obtain ⟨-, rfl⟩ | ⟨other, mayBeEmpty, text, hpending, rfl⟩ := settle_cases h
  · rfl
  · by_cases hname : name = other
    · subst hname
      simp [has, hpending, Matches.add_self]
    · simp [has, hpending, Matches.add_of_ne hname, Ne.symm hname]

/-- An option whose value is still to come is not checked with success. -/
theorem pending_ne_option (h : r.settle = .ok r') (o : OptionSpec) : r.pending ≠ .option o := by
  intro hpending
  rw [settle, hpending] at h
  cases h

theorem takePositional_settle (h : r.settle = .ok r') :
    r'.takePositional s mode w = r.takePositional s mode w := by
  rw [takePositional, takePositional]
  simp only [h, settle_settle h, has_settle h]

theorem takeOption_settle (h : r.settle = .ok r') (o : OptionSpec) (value : Option String) :
    r'.takeOption o value = r.takeOption o value := by
  cases value with
  | none => rw [takeOption, takeOption, h, settle_settle h]
  | some value => rw [takeOption, takeOption, h, settle_settle h]

theorem askForHelp_settle (h : r.settle = .ok r') : r'.askForHelp = r.askForHelp := by
  rw [askForHelp, askForHelp, h, settle_settle h]

/-- A word without a minus sign is a value, of an option if one is waiting for it. -/
theorem take_of_plain (hpending : ∀ o, r.pending ≠ .option o) (hform : Word.ofString w = .plain) :
    r.take s w = r.takePositional s .options w := by
  rw [take, hform]
  dsimp only
  split
  · rename_i o ho
    exact absurd ho (hpending o)
  · rfl

/-- A word is taken alike before the check and after it. -/
theorem take_settle (h : r.settle = .ok r') (hw : Word.ofString w ≠ .dashes) :
    r'.take s w = r.take s w := by
  rcases hform : Word.ofString w with - | ⟨name, value⟩ | ⟨first, others⟩ | -
  · exact absurd hform hw
  · rw [take, take, hform]
    simp only [takeOption_settle h, takeUnknown, takePositional_settle h, askForHelp_settle h]
  · rw [take, take, hform]
    simp only [takePositional_settle h, askForHelp_settle h]
  · rw [take_of_plain (pending_ne_option (settle_settle h)) hform,
      take_of_plain (pending_ne_option h) hform, takePositional_settle h]

/-- **It makes no difference when the word that was taken last is checked.** -/
theorem read_settle (h : r.settle = .ok r') (mode : Mode) (ws : List String) :
    read s mode r' ws = read s mode r ws := by
  induction ws generalizing mode r r' with
  | nil => rw [read, read, h, settle_settle h]
  | cons w ws ih =>
    cases mode with
    | words => rw [read, read, takePositional_settle h]
    | options =>
      by_cases hw : Word.ofString w = .dashes
      · have htake : ∀ r₁ : Reader, r₁.take s w = .ok (.words, r₁) := by
          intro r₁
          rw [take, hw]
        rw [read, read, htake, htake]
        exact ih h .words
      · rw [read, read, take_settle h hw]

/-! ### What is given -/

/-- What a reader has been given, the word that was taken last included, if it is a value. -/
theorem given_settle (h : r.settle = .ok r') (hgiven : r.given name ≠ []) : r'.given name ≠ [] := by
  obtain ⟨-, rfl⟩ | ⟨other, mayBeEmpty, text, -, rfl⟩ := settle_cases h
  · exact hgiven
  · exact Matches.add_ne_nil hgiven

theorem given_takePositional {taken : Mode × Reader} (h : r.takePositional s mode w = .ok taken)
    (hgiven : r.given name ≠ []) : taken.2.given name ≠ [] := by
  rw [takePositional] at h
  split at h
  · cases h
  · rename_i a _
    split at h
    · obtain ⟨r', hsettle, rfl⟩ := map_eq_ok_iff.1 h
      exact Matches.add_ne_nil (given_settle hsettle hgiven)
    split at h
    · cases h
    · obtain ⟨r', hsettle, rfl⟩ := map_eq_ok_iff.1 h
      have hsettled := given_settle hsettle hgiven
      exact hsettled

theorem given_takeOption {o : OptionSpec} {value : Option String}
    (h : r.takeOption o value = .ok r') (hgiven : r.given name ≠ []) : r'.given name ≠ [] := by
  cases value with
  | none =>
    obtain ⟨r₁, hsettle, h⟩ := bind_eq_ok_iff.1 h
    have hsettled := given_settle hsettle hgiven
    split at h
    · cases h
      exact hsettled
    split at h
    · cases h
    · cases h
      exact Matches.add_ne_nil hsettled
  | some value =>
    rw [takeOption] at h
    split at h
    · obtain ⟨r₁, hsettle, h⟩ := bind_eq_ok_iff.1 h
      have hsettled := given_settle hsettle hgiven
      exact given_settle h hsettled
    · cases h

theorem askForHelp_ne_ok {taken : Mode × Reader} : r.askForHelp ≠ .ok taken := by
  intro h
  obtain ⟨r₁, -, h⟩ := bind_eq_ok_iff.1 h
  cases h

theorem given_take {taken : Mode × Reader} (h : r.take s w = .ok taken)
    (hgiven : r.given name ≠ []) : taken.2.given name ≠ [] := by
  rw [take] at h
  split at h
  · cases h
    exact hgiven
  · split at h
    · obtain ⟨r₁, hoption, rfl⟩ := map_eq_ok_iff.1 h
      exact given_takeOption hoption hgiven
    split at h
    · rw [takeUnknown] at h
      split at h
      · exact given_takePositional h hgiven
      · cases h
    split at h
    · cases h
    · exact absurd h askForHelp_ne_ok
  · split at h
    · exact absurd h askForHelp_ne_ok
    split at h
    · exact given_takePositional h hgiven
    split at h
    · exact absurd h askForHelp_ne_ok
    · cases h
  · split at h
    · cases h
      exact hgiven
    · exact given_takePositional h hgiven

/-- **What is given remains given** to the end. -/
theorem given_read {m : Matches} (h : read s mode r ws = .ok m) (hgiven : r.given name ≠ []) :
    m name ≠ [] := by
  induction ws generalizing mode r with
  | nil =>
    obtain ⟨r₁, hsettle, h⟩ := bind_eq_ok_iff.1 h
    have hsettled := given_settle hsettle hgiven
    rw [finish] at h
    split at h
    · cases h
    · cases h
      rwa [Subcommand.complete, if_neg hsettled]
  | cons w ws ih =>
    cases mode with
    | options =>
      obtain ⟨taken, htake, h⟩ := bind_eq_ok_iff.1 h
      exact ih h (given_take htake hgiven)
    | words =>
      obtain ⟨taken, htake, h⟩ := bind_eq_ok_iff.1 h
      exact ih h (given_takePositional htake hgiven)

end OptionParser.Standard.Reader

/-! ### The rules -/

open OptionParser.Standard

/-- A word that stands for itself has the form of no option. -/
theorem StandsForItself.ofString_eq {w : String} (h : StandsForItself w) :
    Word.ofString w = .plain := by
  rw [Word.ofString]
  split
  · rename_i hw
    exact absurd (by rw [hw]; rfl) h.2
  · rename_i hw
    exact absurd (by rw [hw]; rfl) h.2
  · rename_i hw
    exact absurd (by rw [hw]; rfl) h.2
  · rfl

namespace OptionParser.Standard.Reader

variable {s : Subcommand} {mode : Mode} {given : Matches} {w : String} {ws : List String}

/-- A word that is taken is read. -/
theorem read_of_take {r r' : Reader} (h : r.take s w = .ok (mode, r')) :
    read s .options r (w :: ws) = read s mode r' ws := by
  rw [read, h]
  rfl

theorem read_ne_ok_of_take {r : Reader} {m : Matches} (h : ∀ taken, r.take s w ≠ .ok taken) :
    read s .options r (w :: ws) ≠ .ok m := by
  intro hread
  obtain ⟨taken, htake, -⟩ := bind_eq_ok_iff.1 hread
  exact h taken htake

/-- A known option is taken, if it is in order. -/
theorem take_option {o : OptionSpec} {value : Option String} {r r' : Reader}
    (hoption : s.option? o.name = some o) (hw : Word.ofString w = .long o.name value)
    (h : r.takeOption o value = .ok r') : r.take s w = .ok (.options, r') := by
  rw [take, hw]
  simp only [hoption, h]
  rfl

/-- A value that was taken last is given, if it is in order. -/
theorem settle_value {name text : String} {mayBeEmpty : Bool}
    (htext : text ≠ "" ∨ mayBeEmpty = true) (hgiven : given name = []) :
    settle ⟨given, .value name mayBeEmpty text⟩ = .ok { given := given.add name text } := by
  rw [settle]
  simp only
  rw [if_neg (by rcases htext with htext | htext <;> simp [htext]), if_neg (by simp [hgiven])]

/-- A flag is given at once, if it is in order. -/
theorem takeOption_flag {o : OptionSpec} (hflag : o.takesValue = false)
    (hgiven : given o.name = []) :
    takeOption { given } o none = .ok { given := given.add o.name "true" } := by
  show (if o.takesValue then _ else if given o.name ≠ [] then throw _ else pure _) = _
  rw [if_neg (by simp [hflag]), if_neg (by simp [hgiven])]
  rfl

/-- A trailing argument takes a word, in whichever way words are taken. -/
theorem takePositional_trailing {a : Positional} (ha : s.positional = some a)
    (htrailing : a.isTrailing = true) :
    takePositional { given } s mode w = .ok (.words, { given := given.add a.name w }) := by
  rw [takePositional, ha]
  simp only [htrailing, if_true]
  rfl

/-- With a word that is no known option a trailing argument begins. -/
theorem take_trailing {a : Positional} (ha : s.positional = some a)
    (htrailing : a.isTrailing = true) (hhyphens : a.allowsHyphens = true) (hw : s.knows w = false) :
    take { given } s w = .ok (.words, { given := given.add a.name w }) := by
  have hallows : s.positional.any (·.allowsHyphens) = true := by simp [ha, hhyphens]
  rw [Subcommand.knows] at hw
  rcases hform : Word.ofString w with - | ⟨name, value⟩ | ⟨first, others⟩ | -
  · rw [hform] at hw
    cases hw
  · rw [hform] at hw
    obtain ⟨hoption, hhelp⟩ := Bool.or_eq_false_iff.1 hw
    have hnone : s.option? name = none := by simpa using hoption
    rw [take, hform]
    simp only [hnone, hhelp, takeUnknown, hallows]
    exact takePositional_trailing ha htrailing
  · rw [hform] at hw
    have hhelp : asksForHelp w = false := hw
    rw [take, hform]
    simp only [hhelp, hallows, Bool.false_eq_true, if_false, if_true]
    exact takePositional_trailing ha htrailing
  · rw [take_of_plain (fun o ↦ pending_ne_option rfl o) hform]
    exact takePositional_trailing ha htrailing

end OptionParser.Standard.Reader

/-- **The parser keeps the rules.** -/
theorem OptionParser.standard_lawful : OptionParser.standard.Lawful where
  flag hoption hflag hw hgiven :=
    Reader.read_of_take (Reader.take_option hoption hw (Reader.takeOption_flag hflag hgiven))
  flag_value {s o given m w value ws} hoption hflag hw := by
    refine Reader.read_ne_ok_of_take fun taken htake ↦ ?_
    rw [Reader.take, hw] at htake
    simp only [hoption, Reader.takeOption, hflag] at htake
    cases htake
  attached {s o given w value ws} hoption htakes hw hgiven := by
    refine Reader.read_of_take (Reader.take_option hoption hw ?_)
    simp only [Reader.takeOption, htakes, if_true]
    exact Reader.settle_value (.inr rfl) hgiven
  separate {s o given w value ws} hoption htakes hw hvalue hgiven := by
    have hwaits : Reader.takeOption { given } o none = .ok { given, pending := .option o } := by
      simp only [Reader.takeOption, Reader.settle, htakes]
      rfl
    have htake : Reader.take { given, pending := .option o } s value =
        .ok (.options, { given, pending := .value o.name true value }) := by
      rw [Reader.take, hvalue.ofString_eq]
    refine (Reader.read_of_take (Reader.take_option hoption hw hwaits)).trans ?_
    rw [Reader.read_of_take htake]
    exact (Reader.read_settle (Reader.settle_value (.inr rfl) hgiven) .options ws).symm
  help {s given m w ws} hoption hw := by
    refine Reader.read_ne_ok_of_take fun taken htake ↦ ?_
    rw [Reader.take] at htake
    rcases hform : Word.ofString w with - | ⟨name, value⟩ | ⟨first, others⟩ | -
    · simp [asksForHelp, hform] at hw
    · have hname : name = "help" := by simpa [asksForHelp, hform] using hw
      rw [hform] at htake
      simp only [hname, hoption, hw] at htake
      cases value with
      | none => exact Reader.askForHelp_ne_ok htake
      | some value => cases htake
    · rw [hform] at htake
      simp only [hw, if_true] at htake
      exact Reader.askForHelp_ne_ok htake
    · simp [asksForHelp, hform] at hw
  positional {s a given w ws} ha htrailing hw hgiven := by
    have htake : Reader.take { given } s w =
        .ok (.options, { given, pending := .value a.name a.mayBeEmpty w }) := by
      rw [Reader.take_of_plain (fun o ↦ Reader.pending_ne_option rfl o) hw.ofString_eq,
        Reader.takePositional, ha]
      simp [htrailing, Reader.has, hgiven, Reader.settle]
      rfl
    refine (Reader.read_of_take htake).trans ?_
    exact (Reader.read_settle (Reader.settle_value (.inl hw.1) hgiven) .options ws).symm
  trailing {s a given w ws} ha htrailing hhyphens hw := by
    have hwords : Reader.read s .words { given } (w :: ws) =
        Reader.read s .words { given := given.add a.name w } ws := by
      rw [Reader.read, Reader.takePositional_trailing ha htrailing]
      rfl
    exact (Reader.read_of_take (Reader.take_trailing ha htrailing hhyphens hw)).trans hwords.symm
  dashes := Reader.read_of_take rfl
  word {s a given w ws} ha htrailing := by
    show Reader.read s .words { given } (w :: ws) = Reader.read s .words { given := _ } ws
    rw [Reader.read, Reader.takePositional_trailing ha htrailing]
    rfl
  ended {s mode given} hrequired := by
    have hgiven : (s.positional.any fun a ↦ a.isRequired && given a.name == []) = false := by
      cases ha : s.positional with
      | none => rfl
      | some a =>
        rcases hrequired' : a.isRequired with - | -
        · simp [hrequired']
        · simp [hrequired a ha hrequired']
    show Reader.read s mode { given } [] = _
    rw [Reader.read]
    show Reader.finish { given } s = _
    rw [Reader.finish, hgiven]
    rfl
  missing {s a mode given m} ha hrequired hgiven h := by
    have hfinish : Reader.finish { given } s = .ok m := h
    rw [Reader.finish, ha] at hfinish
    simp [hrequired, hgiven] at hfinish
  keeps h hgiven := Reader.given_read h hgiven
  program_flag {d name given w ws} hname hw hgiven := by
    show Standard.readProgram d given (w :: ws) = Standard.readProgram d _ ws
    rw [Standard.readProgram, hw]
    simp only [hname, hgiven]
    rfl
  subcommand {d s given w ws} hw hs := by
    show Standard.readProgram d given (w :: ws) = _
    rw [Standard.readProgram, hw]
    simp only [hs]
    rfl

end TypedLine
