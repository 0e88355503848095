import TypedLine.Proofs.Alphabet
import TypedLine.Proofs.Builtin

/-!
# What a call leaves unread

Once the last argument is read nothing looks at the text behind it. Only the count of the arguments
stands against text that is left over, and it counts spaces. So in `add 1 2⇥x` the two arguments are
`1` and `2⇥x`, and of the second the `2` is read and the rest is left.

Every read takes what it can and may stop anywhere. It **ends its piece** when nothing but
whitespace follows up to the next space or the end of the line. A read behind such a place goes past
a space, and there are only as many spaces as arguments. So when all reads before the last end their
pieces, what is left unread lies in the piece of the last argument, and it is whitespace exactly
when that argument ends its piece as well: `unread_of_mem_calls`.
-/

namespace TypedLine

open Text

/-- What was read before the text **ends its piece**: nothing but whitespace follows up to the next
space. -/
def EndsPiece (text : List Char) : Prop :=
  ∀ ch ∈ text.takeWhile (· ≠ ' '), isSpace ch = true

instance (text : List Char) : Decidable (EndsPiece text) :=
  decidable_of_iff ((text.takeWhile (· ≠ ' ')).all isSpace) List.all_eq_true

/-- The first `i` arguments of the call, as they are read off the line behind its name. -/
def Invocation.reading (call : Invocation) (line : String) (i : Nat) : Reading Arguments :=
  ((Cursor.ofString line).skipWhile isBareChar).readArguments call.name
    (call.command.signature.take i) 0

/-! ### Spaces -/

/-- Where a piece has ended, the whitespace goes past a space or to the end of the line. -/
theorem EndsPiece.space_mem_gap {text gap here : List Char} (h : EndsPiece text)
    (hgap : LongestRun isSpace text gap here) : ' ' ∈ gap ∨ here = [] := by
  by_cases hspace : ' ' ∈ gap
  · exact .inl hspace
  rcases here with - | ⟨ch, here⟩
  · exact .inr rfl
  -- Otherwise the first character behind the whitespace stands in the piece as well.
  have hsolid : isSpace ch = false := hgap.stops ch rfl
  have hgapNe : ∀ d ∈ gap, decide (d ≠ ' ') = true :=
    fun d hd ↦ decide_eq_true fun heq ↦ hspace (heq ▸ hd)
  have hne : ch ≠ ' ' := by
    rintro rfl
    cases hsolid
  have hmem : ch ∈ text.takeWhile (· ≠ ' ') := by
    rw [← hgap.append_eq, List.takeWhile_append_of_pos hgapNe]
    exact List.mem_append_right _ (by simp [hne])
  rw [h ch hmem] at hsolid
  cases hsolid

/-- In a text without spaces the piece is all that is left. -/
theorem endsPiece_iff_of_notMem {text : List Char} (h : ' ' ∉ text) :
    EndsPiece text ↔ ∀ ch ∈ text, isSpace ch = true := by
  have hwhole : text.takeWhile (· ≠ ' ') = text := by
    exact List.takeWhile_eq_self_iff.2 fun ch hch ↦ decide_eq_true fun heq ↦ h (heq ▸ hch)
  rw [EndsPiece, hwhole]

/-- **Every argument takes a space** that is behind a place where a piece has ended, as long as
there is text. -/
theorem Decodes.length_add_count_le {ks : List Kind} {text rest : List Char} {vs : Arguments}
    (h : Decodes ks text vs rest)
    (hends : ∀ i < ks.length, ∀ vs' next, Decodes (ks.take i) text vs' next → EndsPiece next) :
    rest = [] ∨ ks.length + rest.count ' ' ≤ text.count ' ' := by
  induction h with
  | nil => exact .inr (by simp)
  | @cons k ks text gap here used next rest v vs hgap hlex hdec ih =>
    have hfirst : EndsPiece text := hends 0 (Nat.succ_pos _) [] text .nil
    have hothers : ∀ i < ks.length, ∀ vs' next', Decodes (ks.take i) next vs' next' →
        EndsPiece next' := fun i hi vs' next' hdec' ↦
      hends (i + 1) (Nat.succ_lt_succ hi) (v :: vs') next' (.cons hgap hlex hdec')
    rcases hfirst.space_mem_gap hgap with hspace | rfl
    · refine (ih hothers).imp_right fun hle ↦ ?_
      have hgapCount : 0 < gap.count ' ' := List.count_pos_iff.2 hspace
      have htext : text.count ' ' = gap.count ' ' + (used.count ' ' + next.count ' ') := by
        rw [← hgap.append_eq, ← hlex.append_eq, List.count_append, List.count_append]
      rw [List.length_cons, htext]
      omega
    · have hnext : next = [] := (List.append_eq_nil_iff.1 hlex.append_eq).2
      exact .inl (List.suffix_nil.1 (hnext ▸ hdec.suffix))

/-- Where the piece of the text before them has not ended, the arguments behind the first take a
space each. -/
theorem Decodes.length_add_count_le_of_cons {k : Kind} {ks : List Kind} {text rest : List Char}
    {vs : Arguments} (h : Decodes (k :: ks) text vs rest)
    (hends : ∀ i < ks.length, ∀ vs' next, Decodes ((k :: ks).take (i + 1)) text vs' next →
      EndsPiece next) :
    rest = [] ∨ ks.length + rest.count ' ' ≤ text.count ' ' := by
  cases h with
  | @cons _ _ _ gap here used next _ v vs hgap hlex hdec =>
    have hle := hdec.length_add_count_le fun i hi vs' next' hdec' ↦
      hends i hi (v :: vs') next' (.cons hgap hlex hdec')
    have hnext : next.count ' ' ≤ text.count ' ' := by
      rw [← hgap.append_eq, ← hlex.append_eq, List.count_append, List.count_append]
      omega
    exact hle.imp_right fun hle ↦ hle.trans hnext

/-! ### The places of a call -/

section

variable {r : Registry} {line : String} {call : Invocation} {after rest : List Char}
  {vs : Arguments} {i : Nat}

/-- The arguments are read behind the name. -/
theorem Invocation.reading_eq (h : LongestRun isBareChar line.toList call.name.toList after) :
    call.reading line i = (Cursor.mk call.name.toList after).readArguments call.name
      (call.command.signature.take i) 0 := by
  rw [reading, Cursor.skipWhile, Cursor.ofString, h.takeWhile_eq, h.dropWhile_eq]
  rfl

/-- Where the text decodes, the arguments are read, and what is left of the text is unread. -/
theorem Invocation.reading_of_decodes
    (h : LongestRun isBareChar line.toList call.name.toList after)
    (hdec : Decodes (call.command.signature.take i) after vs rest) :
    ∃ used, after = used ++ rest ∧
      call.reading line i = ⟨.ok vs, ⟨call.name.toList ++ used, rest⟩⟩ := by
  obtain ⟨used, rfl⟩ := hdec.suffix
  refine ⟨used, rfl, ?_⟩
  rw [reading_eq h, Cursor.readArguments_eq_ok_iff]
  exact ⟨hdec, List.append_assoc _ _ _⟩

/-- The spaces of a line stand behind the name. -/
theorem count_space_after (h : LongestRun isBareChar line.toList call.name.toList after) :
    line.toList.count ' ' = after.count ' ' := by
  rw [← h.append_eq, List.count_append, List.count_eq_zero.2 (space_notMem_of_bare h.holds),
    Nat.zero_add]

namespace Registry

/-- A line that makes a call has as many arguments as there should be. -/
theorem countedArguments_of_mem_calls (hcall : call ∈ r.calls line) :
    countedArguments line.toList call.name.toList = call.command.arity := by
  obtain ⟨calls, result, hdispatch⟩ := exists_dispatches r line
  rw [hdispatch.sound.1] at hcall
  cases hdispatch with
  | called hname hkey hcount hdec =>
    obtain rfl := List.mem_singleton.1 hcall
    rwa [String.toList_ofList]
  | _ => cases hcall

/-- When all reads before the last end their pieces, no space is left unread: there are no more
spaces than arguments. A name that is no piece of the line is counted as an argument, and need not
end its piece. -/
theorem space_notMem_unread
    (hcount : countedArguments line.toList call.name.toList = call.command.arity)
    (hname : LongestRun isBareChar line.toList call.name.toList after)
    (hdec : Decodes call.command.signature after vs rest)
    (hends : ∀ i < call.command.arity, (i = 0 → IsPiece ' ' line.toList call.name.toList) →
      EndsPiece (call.reading line i).cursor.after) : ' ' ∉ rest := by
  have hplace {i : Nat} {vs' : Arguments} {next : List Char} (hi : i < call.command.arity)
      (hpiece : i = 0 → IsPiece ' ' line.toList call.name.toList)
      (hdec' : Decodes (call.command.signature.take i) after vs' next) : EndsPiece next := by
    obtain ⟨used, -, hread⟩ := Invocation.reading_of_decodes hname hdec'
    have hend := hends i hi hpiece
    rwa [hread] at hend
  have hspent : rest = [] ∨ call.command.arity + rest.count ' ' ≤ call.command.arity := by
    rw [countedArguments, count_space_after hname] at hcount
    by_cases hpiece : IsPiece ' ' line.toList call.name.toList
    · rw [if_pos hpiece] at hcount
      have hle := hdec.length_add_count_le fun i hi vs' next ↦ hplace hi fun _ ↦ hpiece
      exact hle.imp_right fun hle ↦ hle.trans (Nat.le_of_eq hcount)
    · rw [if_neg hpiece] at hcount
      -- The name is one of the arguments that are counted, so only the others take a space each.
      rcases hsig : call.command.signature with - | ⟨k, ks⟩
      · rw [Command.arity, hsig] at hcount
        cases hcount
      · have harity : call.command.arity = ks.length + 1 := by rw [Command.arity, hsig]; rfl
        rw [hsig] at hdec
        have hle := hdec.length_add_count_le_of_cons fun i hi vs' next hdec' ↦
          hplace (by omega) (fun hzero ↦ absurd hzero (Nat.succ_ne_zero i)) (hsig ▸ hdec')
        exact hle.imp_right fun hle ↦ by omega
  rcases hspent with rfl | hle
  · exact List.not_mem_nil
  · exact List.count_eq_zero.1 (by omega)

/-- Without arguments the name is the whole line. -/
theorem unread_eq_nil (hcount : countedArguments line.toList call.name.toList = call.command.arity)
    (hname : LongestRun isBareChar line.toList call.name.toList after)
    (harity : call.command.arity = 0) : after = [] := by
  rw [harity, countedArguments] at hcount
  have hspace : ' ' ∉ line.toList := List.count_eq_zero.1 (by omega)
  have hpiece : IsPiece ' ' line.toList call.name.toList := by
    by_contra hpiece
    rw [if_neg hpiece] at hcount
    cases hcount
  rw [← mem_pieces_iff, pieces_of_notMem hspace, List.mem_singleton] at hpiece
  have hwhole := hname.append_eq
  rwa [← hpiece, List.append_right_eq_self] at hwhole

/-- **What a call leaves unread.** The spaces that are read past and those that are left unread are
as many as the arguments, or one less when the name is no piece of the line. Without arguments
nothing is left. When all reads before the last end their pieces, no space is left; then there is
nothing but whitespace left exactly when the last argument ends its piece as well. -/
theorem unread_of_mem_calls (hcall : call ∈ r.calls line) :
    ∃ place, call.reading line call.command.arity = ⟨.ok call.arguments, place⟩ ∧
      place.chars = line.toList ∧
      (place.before.count ' ' + place.after.count ' ' +
          (if IsPiece ' ' line.toList call.name.toList then 0 else 1) = call.command.arity) ∧
      (call.command.arity = 0 → place.after = []) ∧
      ((∀ i < call.command.arity, (i = 0 → IsPiece ' ' line.toList call.name.toList) →
          EndsPiece (call.reading line i).cursor.after) →
        ' ' ∉ place.after ∧
          ((∀ ch ∈ place.after, isSpace ch = true) ↔ EndsPiece place.after)) := by
  obtain ⟨after, rest, hname, hdec⟩ := (makes_of_mem_calls hcall).decodes
  have hcount := countedArguments_of_mem_calls hcall
  have htake : call.command.signature.take call.command.arity = call.command.signature :=
    List.take_length
  obtain ⟨used, rfl, hread⟩ := Invocation.reading_of_decodes hname.longest (htake.symm ▸ hdec)
  have hchars : call.name.toList ++ used ++ rest = line.toList := by
    rw [List.append_assoc, hname.longest.append_eq]
  refine ⟨_, hread, hchars, ?_, fun harity ↦ ?_, fun hends ↦ ?_⟩
  · rw [← List.count_append, hchars]
    exact hcount
  · have hafter := unread_eq_nil hcount hname.longest harity
    exact (List.append_eq_nil_iff.1 hafter).2
  · have hspace : ' ' ∉ rest := space_notMem_unread hcount hname.longest hdec hends
    exact ⟨hspace, (endsPiece_iff_of_notMem hspace).symm⟩

/-- In `add⇥1 2⇥` the name is no piece, and whitespace is left behind the last argument. -/
theorem unread_of_mem_calls_tabs :
    ∃ call ∈ Builtin.registry.calls "add\t1 2\t",
      (∀ i < call.command.arity, (i = 0 → IsPiece ' ' "add\t1 2\t".toList call.name.toList) →
        EndsPiece (call.reading "add\t1 2\t" i).cursor.after) ∧
      ∃ place, call.reading "add\t1 2\t" call.command.arity = ⟨.ok call.arguments, place⟩ ∧
        ' ' ∉ place.after ∧
        ((∀ ch ∈ place.after, isSpace ch = true) ↔ EndsPiece place.after) := by
  have hresolve : Builtin.registry.resolve "add\t1 2\t" =
      .ok ⟨"add", Builtin.add, [.int64 1, .int64 2]⟩ := rfl
  have hcall : ⟨"add", Builtin.add, [.int64 1, .int64 2]⟩ ∈
      Builtin.registry.calls "add\t1 2\t" := by
    rw [(calls_of_ok hresolve).1]
    exact .head _
  have hpiece : ¬ IsPiece ' ' "add\t1 2\t".toList "add".toList := by decide +kernel
  have hends : ∀ i < 2, (i = 0 → IsPiece ' ' "add\t1 2\t".toList "add".toList) →
      EndsPiece (Invocation.reading ⟨"add", Builtin.add, [.int64 1, .int64 2]⟩ "add\t1 2\t"
        i).cursor.after := by
    intro i hi hname
    obtain rfl | rfl : i = 0 ∨ i = 1 := by omega
    · exact absurd (hname rfl) hpiece
    · decide +kernel
  obtain ⟨place, hread, -, -, -, hblank⟩ := unread_of_mem_calls hcall
  exact ⟨_, hcall, hends, place, hread, hblank hends⟩

/-- The line `add 1 2⇥x` is answered with the sum of `1` and `2`, and the `x` is never looked at. -/
theorem not_blank_unread_add :
    (∃ attempts, Builtin.registry = empty.after attempts) ∧
      ∃ call ∈ Builtin.registry.calls "add 1 2\tx",
        Builtin.registry.run "add 1 2\tx" = .ok ⟨"3", .success⟩ ∧
        (call.reading "add 1 2\tx" call.command.arity).cursor.after = ['\t', 'x'] ∧
        ¬ ∀ ch ∈ (call.reading "add 1 2\tx" call.command.arity).cursor.after,
          isSpace ch = true := by
  refine ⟨⟨_, Builtin.registry_eq_after⟩, ?_⟩
  have hresolve : Builtin.registry.resolve "add 1 2\tx" =
      .ok ⟨"add", Builtin.add, [.int64 1, .int64 2]⟩ := rfl
  have hcall : ⟨"add", Builtin.add, [.int64 1, .int64 2]⟩ ∈
      Builtin.registry.calls "add 1 2\tx" := by
    rw [(calls_of_ok hresolve).1]
    exact .head _
  have hrest : (Invocation.reading ⟨"add", Builtin.add, [.int64 1, .int64 2]⟩ "add 1 2\tx"
      2).cursor.after = ['\t', 'x'] := by decide +kernel
  refine ⟨_, hcall, by decide +kernel, hrest, fun hblank ↦ ?_⟩
  have hx := hblank 'x' (hrest ▸ .tail _ (.head _))
  cases hx

end Registry

end

end TypedLine
