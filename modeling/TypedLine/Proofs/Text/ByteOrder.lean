import Mathlib.Data.String.Basic
import Mathlib.Tactic.SplitIfs

/-!
# The order of texts by their bytes

Texts are compared by their characters, and a listing may be asked for in the order of the bytes of
the UTF-8 forms instead. The two orders are one: `utf8Bytes_lt_iff`.

The first byte of a character tells how many follow it, and grows with their number. Among the
characters with as many bytes, the bytes are the digits of the code point, the most significant
first. So the first two characters in which two texts differ decide between the bytes as well,
whatever comes after them: `utf8EncodeChar_append_lt`.
-/

namespace TypedLine.Text

/-- The bytes of the UTF-8 form of `s`. -/
def utf8Bytes (s : String) : List UInt8 :=
  s.toUTF8.data.toList

theorem utf8Bytes_eq_flatMap (s : String) :
    utf8Bytes s = s.toList.flatMap String.utf8EncodeChar := by
  rw [utf8Bytes, String.toUTF8, ← String.utf8Encode_toList, List.utf8Encode,
    List.toList_data_toByteArray]

/-! ### One character -/

/-- A byte decides where it is smaller, and leaves the decision to what follows where it is the
same. -/
theorem cons_ofNat_lt {a b : Nat} {xs ys : List UInt8} (hb : b < 256) (hle : a ≤ b)
    (hrest : a = b → xs < ys) : UInt8.ofNat a :: xs < UInt8.ofNat b :: ys := by
  rcases Nat.lt_or_eq_of_le hle with hlt | rfl
  · refine List.cons_lt_cons_iff.2 (.inl (UInt8.lt_iff_toNat_lt.2 ?_))
    rwa [UInt8.toNat_ofNat', UInt8.toNat_ofNat', Nat.mod_eq_of_lt (Nat.lt_trans hlt hb),
      Nat.mod_eq_of_lt hb]
  · exact List.cons_lt_cons_iff.2 (.inr ⟨rfl, hrest rfl⟩)

/-- **The bytes of a smaller character come first**, whatever follows either. -/
theorem utf8EncodeChar_append_lt {c d : Char} (h : c < d) (xs ys : List UInt8) :
    String.utf8EncodeChar c ++ xs < String.utf8EncodeChar d ++ ys := by
  have hlt : c.val.toNat < d.val.toNat := UInt32.lt_iff_toNat_lt.1 (Char.lt_def.1 h)
  have hmax : d.val.toNat < 1114112 := by
    rcases d.valid with hlow | ⟨-, hhigh⟩
    · exact Nat.lt_trans hlow (by decide)
    · exact hhigh
  simp only [String.utf8EncodeChar]
  generalize c.val.toNat = m at *
  generalize d.val.toNat = n at *
  split_ifs
  all_goals simp only [List.cons_append, List.nil_append]
  -- Where the numbers of bytes differ, and where there is one byte, the first byte decides.
  any_goals (refine cons_ofNat_lt (by omega) (by omega) fun _ ↦ ?_; omega)
  · refine cons_ofNat_lt (by omega) (by omega) fun _ ↦ ?_
    exact cons_ofNat_lt (by omega) (by omega) fun _ ↦ by omega
  · refine cons_ofNat_lt (by omega) (by omega) fun _ ↦ ?_
    refine cons_ofNat_lt (by omega) (by omega) fun _ ↦ ?_
    exact cons_ofNat_lt (by omega) (by omega) fun _ ↦ by omega
  · refine cons_ofNat_lt (by omega) (by omega) fun _ ↦ ?_
    refine cons_ofNat_lt (by omega) (by omega) fun _ ↦ ?_
    refine cons_ofNat_lt (by omega) (by omega) fun _ ↦ ?_
    exact cons_ofNat_lt (by omega) (by omega) fun _ ↦ by omega

/-! ### Texts -/

/-- The bytes of a smaller text come first. -/
theorem flatMap_utf8EncodeChar_lt {cs ds : List Char} (h : cs < ds) :
    cs.flatMap String.utf8EncodeChar < ds.flatMap String.utf8EncodeChar := by
  induction h with
  | @nil d ds =>
    obtain ⟨b, bs, hd⟩ := List.exists_cons_of_ne_nil (String.utf8EncodeChar_ne_nil (c := d))
    rw [List.flatMap_nil, List.flatMap_cons, hd]
    exact List.nil_lt_cons _ _
  | @cons c cs ds _ ih =>
    rw [List.flatMap_cons, List.flatMap_cons]
    exact List.append_left_lt ih
  | @rel c cs d ds hlt =>
    rw [List.flatMap_cons, List.flatMap_cons]
    exact utf8EncodeChar_append_lt hlt _ _

/-- **The order of the bytes is the order of the texts.** -/
theorem utf8Bytes_lt_iff {s t : String} : utf8Bytes s < utf8Bytes t ↔ s < t := by
  have hmono : ∀ {s t : String}, s < t → utf8Bytes s < utf8Bytes t := by
    intro s t h
    rw [utf8Bytes_eq_flatMap, utf8Bytes_eq_flatMap]
    exact flatMap_utf8EncodeChar_lt (String.lt_iff_toList_lt.1 h)
  refine ⟨fun h ↦ ?_, hmono⟩
  rcases lt_trichotomy s t with hlt | rfl | hgt
  · exact hlt
  · exact absurd h Std.lt_irrefl
  · exact absurd h (List.lt_asymm (hmono hgt))

end TypedLine.Text
