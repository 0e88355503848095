/-!
# Lengths in bytes

Offsets into a text count the bytes of its UTF-8 form. `byteLength` measures a list of
characters that way, and `splitAtByte?` cuts one at an offset. The cut exists exactly at the
offsets between two characters: `splitAtByte?_eq_some_iff`.
-/

namespace TypedLine.Text

-- The empty sum is the zero of the core library, also where another zero is at hand.
attribute [local instance (high)] Zero.ofOfNat0

/-- The number of bytes of the UTF-8 form of `cs`. -/
def byteLength (cs : List Char) : Nat :=
  (cs.map Char.utf8Size).sum

@[simp] theorem byteLength_nil : byteLength [] = 0 := rfl

@[simp] theorem byteLength_cons (c : Char) (cs : List Char) :
    byteLength (c :: cs) = c.utf8Size + byteLength cs := by
  simp [byteLength]

@[simp] theorem byteLength_append (cs ds : List Char) :
    byteLength (cs ++ ds) = byteLength cs + byteLength ds := by
  simp [byteLength]

/-- The number of bytes is that of the text. -/
theorem utf8ByteSize_eq_byteLength (s : String) : s.utf8ByteSize = byteLength s.toList := by
  obtain ⟨cs, rfl⟩ : ∃ cs, s = String.ofList cs := ⟨s.toList, String.ofList_toList.symm⟩
  rw [String.toList_ofList]
  induction cs with
  | nil => rfl
  | cons c cs ih =>
    rw [← List.singleton_append, String.ofList_append, String.utf8ByteSize_append, ih,
      List.singleton_append, byteLength_cons, ← String.singleton_eq_ofList,
      String.utf8ByteSize_singleton]

/-- Cut `cs` at byte offset `n`; nothing when `n` lies inside a character or past the end. -/
def splitAtByte? : Nat → List Char → Option (List Char × List Char)
  | 0, cs => some ([], cs)
  | _ + 1, [] => none
  | n + 1, c :: cs =>
    if c.utf8Size ≤ n + 1 then
      (splitAtByte? (n + 1 - c.utf8Size) cs).map fun p ↦ (c :: p.1, p.2)
    else none

/-- Cutting at `n` gives a front of `n` bytes and what follows it. -/
theorem splitAtByte?_eq_some_iff {n : Nat} {cs front back : List Char} :
    splitAtByte? n cs = some (front, back) ↔ cs = front ++ back ∧ byteLength front = n := by
  induction cs generalizing n front back with
  | nil =>
    cases n with
    | zero => cases front <;> simp [splitAtByte?, Char.utf8Size_pos, Nat.ne_of_gt]
    | succ n => cases front <;> simp [splitAtByte?]
  | cons c cs ih =>
    cases n with
    | zero =>
      cases front with
      | nil => simp [splitAtByte?]
      | cons d ds => simp [splitAtByte?, Nat.ne_of_gt (Char.utf8Size_pos d)]
    | succ n =>
      have hc := Char.utf8Size_pos c
      cases front with
      | nil => simp [splitAtByte?]
      | cons d ds =>
        by_cases h : c.utf8Size ≤ n + 1
        · simp only [splitAtByte?, h, if_true, Option.map_eq_some_iff, List.cons_append,
            List.cons.injEq, byteLength_cons]
          constructor
          · rintro ⟨⟨a, b⟩, hab, hp⟩
            obtain ⟨ha, hl⟩ := ih.1 hab
            simp only [Prod.mk.injEq, List.cons.injEq] at hp
            obtain ⟨⟨rfl, rfl⟩, rfl⟩ := hp
            exact ⟨⟨rfl, ha⟩, by omega⟩
          · rintro ⟨⟨rfl, hs⟩, hl⟩
            exact ⟨(ds, back), ih.2 ⟨hs, by omega⟩, rfl⟩
        · simp only [splitAtByte?, h, if_false, reduceCtorEq, List.cons_append, List.cons.injEq,
            byteLength_cons, false_iff, not_and]
          rintro ⟨rfl, -⟩
          omega

end TypedLine.Text
