import TypedLine.Proofs.Calls
import TypedLine.Proofs.CanonicalLine
import TypedLine.Proofs.Registration

/-!
# Which commands can be called

A command may be registered under any name that is not blank, but a line names a command by a bare
string. So there are commands that no line calls: those with a character in their key that is not
the lower-case form of a bare character. All the others are called by some line, whatever their
signature is (`callable_iff`). The line that does it is a canonical one, with a sample of each kind.
-/

namespace TypedLine

open Text

namespace Value

/-- A value of the kind, written without spaces. -/
def sample : Kind → Value
  | .string => string ""
  | .boolean => boolean true
  | .int32 => int32 0
  | .int64 => int64 0
  | .single => single (.ofFraction ⟨false, ['0'], []⟩)
  | .double => double (.ofFraction ⟨false, ['0'], []⟩)

theorem kind_sample (k : Kind) : (sample k).kind = k := by
  cases k <;> rfl

theorem spaces_sample (k : Kind) : (sample k).spaces = 0 := by
  cases k <;> rfl

theorem writable_sample (k : Kind) : (sample k).Writable := by
  have hzero : Numeral.IsFraction ['0'] ⟨false, ['0'], []⟩ := @Numeral.IsFraction.whole false _ rfl
  cases k with
  | string => exact .string ""
  | boolean => exact .boolean true
  | int32 => exact writable (by simp [kind, sample])
  | int64 => exact writable (by simp [kind, sample])
  | single =>
    have hwritten : (sample .single).written = ['0'] := by decide +kernel
    exact .number (hwritten ▸ .single hzero)
  | double =>
    have hwritten : (sample .double).written = ['0'] := by decide +kernel
    exact .number (hwritten ▸ .double hzero)

end Value

/-- One sample of each kind. -/
def sampleArguments (ks : List Kind) : Arguments :=
  ks.map Value.sample

theorem map_kind_sampleArguments (ks : List Kind) : (sampleArguments ks).map Value.kind = ks := by
  have hkinds : Value.kind ∘ Value.sample = id := funext Value.kind_sample
  rw [sampleArguments, List.map_map, hkinds, List.map_id]

theorem writable_of_mem_sampleArguments (ks : List Kind) :
    ∀ v ∈ sampleArguments ks, v.Writable := by
  intro v hv
  obtain ⟨k, -, rfl⟩ := List.mem_map.1 hv
  exact Value.writable_sample k

/-- The samples stand in a line with one space before each, and there are no others. -/
theorem count_space_sampleArguments (ks : List Kind) :
    (writtenArguments (sampleArguments ks)).count ' ' = ks.length := by
  have hspaces : ((sampleArguments ks).map Value.spaces).sum = 0 := by
    refine List.sum_eq_zero fun n hn ↦ ?_
    obtain ⟨v, hv, rfl⟩ := List.mem_map.1 hn
    obtain ⟨k, -, rfl⟩ := List.mem_map.1 hv
    exact Value.spaces_sample k
  rw [count_space_writtenArguments (writable_of_mem_sampleArguments ks), hspaces, sampleArguments,
    List.length_map, Nat.add_zero]

namespace Registry

variable {r : Registry} {line : String} {call : Invocation} {command : Command} {key : String}

/-- **A key that a line can name is named by a line**: by the key itself, with a sample of each
kind behind it. -/
theorem calls_canonicalLine_sampleArguments (hmem : ⟨key, command⟩ ∈ r.entries) (hne : key ≠ "")
    (hkey : ∀ ch ∈ key.toList, isKeyChar ch = true) :
    r.calls (canonicalLine key (sampleArguments command.signature)) =
      [⟨key, command, sampleArguments command.signature⟩] := by
  have hnotUpper : key.toList.map Char.toLower = key.toList := by
    refine (List.map_congr_left fun ch hch ↦ ?_).trans (List.map_id _)
    have hupper := hkey ch hch
    simp only [isKeyChar, Bool.and_eq_true, Bool.not_eq_true'] at hupper
    exact Char.toLower_eq_of_not_isUpper (by simp [hupper.2])
  obtain ⟨hnil, hbare, hlower⟩ := lowerCase_eq_of_spelling ⟨hne, hkey⟩ hnotUpper
  have hname : Named (canonicalLine key (sampleArguments command.signature)) key.toList
      (writtenArguments (sampleArguments command.signature)) := named_canonicalLine hnil hbare
  have hspace : ' ' ∉ key.toList := space_notMem_of_bare hbare
  have hcount : countedArguments (canonicalLine key (sampleArguments command.signature)).toList
      key.toList = command.arity := by
    rw [canonicalLine, String.toList_ofList, countedArguments,
      if_pos (isPiece_append_writtenArguments hspace), List.count_append,
      List.count_eq_zero.2 hspace, count_space_sampleArguments]
    exact Nat.zero_add _
  have hdec : Decodes command.signature (writtenArguments (sampleArguments command.signature))
      (sampleArguments command.signature) [] := by
    have hdec := decodes_writtenArguments (writable_of_mem_sampleArguments command.signature)
    rwa [map_kind_sampleArguments] at hdec
  have hheld : ⟨lowerCase (String.ofList key.toList), command⟩ ∈ r.entries := by
    rwa [String.ofList_toList, hlower]
  have hcalled := (Dispatches.called hname hheld hcount hdec).sound.1
  rwa [String.ofList_toList] at hcalled

/-- The key of a command that is called is the lower-case form of a bare string. -/
theorem Makes.isKeyChar (h : r.Makes line call) :
    ∀ ch ∈ call.entry.key.toList, isKeyChar ch = true := by
  obtain ⟨after, rest, hname, -⟩ := h.decodes
  have hbare := hname.longest.holds
  show ∀ ch ∈ (lowerCase call.name).toList, TypedLine.isKeyChar ch = true
  rw [toList_lowerCase fun ch hch ↦ toNat_lt_of_isBareChar (hbare ch hch)]
  intro ch hch
  obtain ⟨d, hd, rfl⟩ := List.mem_map.1 hch
  exact isKeyChar_toLower (hbare d hd)

/-- A line that starts with no bare character has an empty name. -/
theorem run_of_head?_not_bare (hempty : "" ∉ r.names)
    (h : ∀ ch ∈ line.toList.head?, isBareChar ch = false) :
    r.calls line = [] ∧
      r.run line = .error (if isBlank line then .emptyLine else .unknownCommand "") := by
  by_cases hblank : isBlank line
  · rw [if_pos hblank]
    exact calls_of_error (resolve_of_isBlank hblank)
  · have hname : Named line [] line.toList :=
      ⟨isBlank_eq_false_iff.1 (Bool.eq_false_iff.2 hblank), rfl, nofun, h⟩
    rw [if_neg hblank]
    exact calls_of_error (hname.resolve_of_notMem hempty)

/-- **Which commands can ever be called.** Of the commands that were registered, those are called by
some line whose keys are made of the characters that a line can name, whatever their signatures
are. In particular a line that starts with no such character, in either letter case, calls nothing:
it is refused as blank or for its empty name. -/
theorem callable_iff (attempts : List Attempt) :
    (∀ e ∈ (empty.after attempts).entries,
      ((∃ line, ∃ call ∈ (empty.after attempts).calls line, call.entry = e) ↔
        ∀ ch ∈ e.key.toList, isKeyChar ch = true)) ∧
    ∀ line : String, (∀ ch ∈ line.toList.head?, isBareChar ch = false) →
      (empty.after attempts).calls line = [] ∧
        (empty.after attempts).run line =
          .error (if isBlank line then .emptyLine else .unknownCommand "") := by
  have hempty : "" ∉ (empty.after attempts).names := by
    intro hmem
    have hblank := (key_of_mem_names_after hmem).2
    cases hblank
  refine ⟨fun e he ↦ ⟨fun h ↦ ?_, fun hkey ↦ ?_⟩, fun line h ↦ run_of_head?_not_bare hempty h⟩
  · obtain ⟨line, call, hcall, rfl⟩ := h
    exact (makes_of_mem_calls hcall).isKeyChar
  · have hne : e.key ≠ "" := by
      intro hnil
      exact hempty (hnil ▸ List.mem_map_of_mem he)
    have hcalls := calls_canonicalLine_sampleArguments he hne hkey
    refine ⟨_, _, by rw [hcalls]; exact .head _, ?_⟩
    show Entry.mk (lowerCase e.key) e.command = e
    rw [(key_of_mem_names_after (List.mem_map_of_mem he)).1]

/-- No line calls the command `naïve`. Some line calls `go.2`, which was registered as `Go.2`, but
not the line `go.2 1 2` with a space before it. -/
theorem callable_iff_naive :
    (¬ ∃ line, ∃ call ∈ (empty.after [⟨"Naïve", Builtin.echo⟩, ⟨"Go.2", Builtin.add⟩]).calls line,
        call.entry = ⟨"naïve", Builtin.echo⟩) ∧
      (∃ line, ∃ call ∈ (empty.after [⟨"Naïve", Builtin.echo⟩, ⟨"Go.2", Builtin.add⟩]).calls line,
        call.entry = ⟨"go.2", Builtin.add⟩) ∧
      (empty.after [⟨"Naïve", Builtin.echo⟩, ⟨"Go.2", Builtin.add⟩]).run " go.2 1 2" =
        .error (.unknownCommand "") := by
  have hcallable := callable_iff [⟨"Naïve", Builtin.echo⟩, ⟨"Go.2", Builtin.add⟩]
  have hsucceeding : ∀ a ∈ [⟨"Naïve", Builtin.echo⟩, ⟨"Go.2", Builtin.add⟩],
      a ∈ empty.succeeding [⟨"Naïve", Builtin.echo⟩, ⟨"Go.2", Builtin.add⟩] := by
    rw [succeeding_eq_filter (by decide +kernel)]
    intro a ha
    refine List.mem_filter.2 ⟨ha, ?_⟩
    revert a
    decide +kernel
  have hnaive := mem_entries_after_iff.2 ⟨_, hsucceeding _ (.head _), rfl⟩
  have hgo := mem_entries_after_iff.2 ⟨_, hsucceeding _ (.tail _ (.head _)), rfl⟩
  have hkeys : lowerCase "Naïve" = "naïve" ∧ lowerCase "Go.2" = "go.2" := by decide +kernel
  rw [Attempt.entry, Attempt.key, hkeys.1] at hnaive
  rw [Attempt.entry, Attempt.key, hkeys.2] at hgo
  have hkey : ∀ ch ∈ "go.2".toList, isKeyChar ch = true := List.all_eq_true.1 (by decide +kernel)
  have hhead : ∀ ch ∈ " go.2 1 2".toList.head?, isBareChar ch = false := by
    intro ch hch
    rw [show " go.2 1 2".toList.head? = some ' ' by decide +kernel] at hch
    exact Option.mem_some.1 hch ▸ rfl
  refine ⟨fun hline ↦ ?_, (hcallable.1 _ hgo).2 hkey, (hcallable.2 _ hhead).2⟩
  have hkeyChar := (hcallable.1 _ hnaive).1 hline 'ï' (List.contains_iff_mem.1 (by decide +kernel))
  exact absurd hkeyChar (by decide)

end Registry

end TypedLine
