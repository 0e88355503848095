import TypedLine.Registry

/-!
# What a registry holds

A look-up asks for an entry under a key. As the keys ascend there is at most one, so the look-up
finds exactly the commands that are held (`lookup?_eq_some_iff`), and finds nothing exactly under
the keys that are not listed (`lookup?_eq_none_iff`).
-/

namespace TypedLine.Registry

variable {r : Registry} {key : String} {command : Command}

/-- No two entries have the same key. -/
theorem eq_of_key_eq {a b : Entry} (ha : a ∈ r.entries) (hb : b ∈ r.entries)
    (h : a.key = b.key) : a = b := by
  have hne : r.entries.Pairwise fun a b ↦ a.key = b.key → a = b :=
    r.ordered.imp fun hlt heq ↦ absurd heq (Std.ne_of_lt hlt)
  have hne' : r.entries.Pairwise (flip fun a b ↦ a.key = b.key → a = b) :=
    r.ordered.imp fun hlt heq ↦ absurd heq.symm (Std.ne_of_lt hlt)
  exact hne.forall_of_forall_of_flip (fun _ _ _ ↦ rfl) hne' ha hb h

/-- **The commands that are found under a key are those held under it.** -/
theorem lookup?_eq_some_iff : r.lookup? key = some command ↔ ⟨key, command⟩ ∈ r.entries := by
  rw [lookup?, Option.map_eq_some_iff]
  refine ⟨fun h ↦ ?_, fun hmem ↦ ?_⟩
  · obtain ⟨e, hfind, rfl⟩ := h
    obtain rfl : e.key = key := by simpa using List.find?_some hfind
    exact List.mem_of_find?_eq_some hfind
  · obtain ⟨e, hfind⟩ : ∃ e, r.entries.find? (·.key == key) = some e := by
      refine Option.isSome_iff_exists.1 (List.find?_isSome.2 ⟨_, hmem, ?_⟩)
      exact beq_self_eq_true key
    have hkey : e.key = key := by simpa using List.find?_some hfind
    have he : e = ⟨key, command⟩ := eq_of_key_eq (List.mem_of_find?_eq_some hfind) hmem hkey
    exact ⟨e, hfind, congrArg Entry.command he⟩

/-- The keys that are listed are those under which a command is held. -/
theorem mem_names_iff : key ∈ r.names ↔ ∃ command, ⟨key, command⟩ ∈ r.entries := by
  rw [names, List.mem_map]
  refine ⟨fun h ↦ ?_, fun h ↦ ?_⟩
  · obtain ⟨⟨key, command⟩, hmem, rfl⟩ := h
    exact ⟨command, hmem⟩
  · obtain ⟨command, hmem⟩ := h
    exact ⟨_, hmem, rfl⟩

/-- Nothing is found under a key exactly when it is not listed. -/
theorem lookup?_eq_none_iff : r.lookup? key = none ↔ key ∉ r.names := by
  rw [mem_names_iff, Option.eq_none_iff_forall_ne_some]
  simp only [← lookup?_eq_some_iff, not_exists, ne_eq]

end TypedLine.Registry
