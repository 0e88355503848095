import TypedLine.Execution
import TypedLine.Proofs.Registration

/-!
# A registry and its listing

What a registry lists are keys, and what it is asked for are names, which it lower-cases. A listed
key does as a name all the same, because lower-casing it again changes nothing: the key is found,
it has the signature that it was registered with, and it is taken. So a list of the commands, which
looks every listed key up again, never misses one. `listing_closed` says this of every history of
registrations, whatever the names are.
-/

namespace TypedLine.Registry

open Text

variable {r : Registry} {as : List Attempt} {key : String} {es : List Entry}

/-- A key that is its own lower-case form is found as a name, with the command that is held under
it. -/
theorem signature?_of_mem_entries {e : Entry} (he : e ∈ r.entries) (hkey : lowerCase e.key = e.key) :
    r.signature? e.key = some e.command.signature := by
  have hfind : r.find? e.key = some e.command := by
    rw [find?, hkey]
    exact lookup?_eq_some_iff.2 he
  rw [signature?, hfind]
  rfl

/-- A listed key that is its own lower-case form, and not blank, is taken. -/
theorem register_of_mem_names (hmem : key ∈ r.names) (hkey : lowerCase key = key)
    (hblank : isBlank key = false) (command : Command) :
    r.register key command = .error (.duplicateCommand key) := by
  have htaken : ∃ e ∈ r.entries, e.key = lowerCase key := by
    rw [hkey]
    exact List.mem_map.1 hmem
  have hregister : r.register key command = .error (.duplicateCommand (lowerCase key)) := by
    simp only [register, hblank, Bool.false_eq_true, if_false, dif_pos htaken]
  rw [hregister, hkey]

/-- **Commands that are found are all listed**, one line each. -/
theorem executeUsages_of_found (h : ∀ e ∈ es, r.signature? e.key = some e.command.signature) :
    r.executeUsages (es.map Entry.key) =
      { output := String.join (es.map fun e ↦ usageLine e.key e.command.signature ++ "\n") } := by
  induction es with
  | nil => rfl
  | cons e es ih =>
    obtain ⟨he, hes⟩ := List.forall_mem_cons.1 h
    have hline : r.executeUsage e.key = .printed (usageLine e.key e.command.signature) := by
      rw [executeUsage, he]
    rw [List.map_cons, List.map_cons, executeUsages, hline, ih hes, String.join_cons]
    rfl

/-- **A registry is closed under its own listing.** Every key that it lists is found, with the
signature that was registered under it, and cannot be registered again. So the commands are listed
one and all, and no key has vanished when it is looked up. -/
theorem listing_closed (attempts : List Attempt) :
    (∀ key ∈ (empty.after attempts).names,
      (empty.after attempts).contains key = true ∧
      (∃ a ∈ empty.succeeding attempts, a.key = key ∧
        (empty.after attempts).signature? key = some a.command.signature) ∧
      ∀ command, (empty.after attempts).register key command = .error (.duplicateCommand key)) ∧
    (empty.after attempts).executeListing =
      { output := String.join ((empty.after attempts).entries.map fun e ↦
          usageLine e.key e.command.signature ++ "\n") } := by
  constructor
  · intro key hmem
    obtain ⟨hkey, hblank⟩ := key_of_mem_names_after hmem
    obtain ⟨a, ha, hakey⟩ := mem_names_after_iff.1 hmem
    have hfound := (shows_after attempts).found ha (hakey.trans hkey.symm)
    exact ⟨hfound.1, ⟨a, ha, hakey, hfound.2.1⟩, register_of_mem_names hmem hkey hblank⟩
  · show executeUsages _ (List.map Entry.key _) = _
    refine executeUsages_of_found fun e he ↦ ?_
    have hmem : e.key ∈ (empty.after attempts).names := List.mem_map_of_mem he
    exact signature?_of_mem_entries he (key_of_mem_names_after hmem).1

/-- The names `ΟΔΟΣ`, `İ` and the sign for kelvin are listed as keys with a final sigma, with a dot
above that stands by itself, and as a letter of ASCII. The first key is taken. -/
theorem listing_closed_finalSigma :
    "οδος" ∈ (empty.after [⟨"ΟΔΟΣ", Builtin.echo⟩, ⟨"\u0130", Builtin.not⟩,
        ⟨"\u212A", Builtin.add⟩]).names ∧
      (empty.after [⟨"ΟΔΟΣ", Builtin.echo⟩, ⟨"\u0130", Builtin.not⟩,
        ⟨"\u212A", Builtin.add⟩]).register "οδος" Builtin.not = .error (.duplicateCommand "οδος") ∧
      (empty.after [⟨"ΟΔΟΣ", Builtin.echo⟩, ⟨"\u0130", Builtin.not⟩,
        ⟨"\u212A", Builtin.add⟩]).executeListing =
          { output := "i\u0307 <Boolean>\nk <Int64> <Int64>\nοδος <String>\n" } := by
  have hclosed := listing_closed
    [⟨"ΟΔΟΣ", Builtin.echo⟩, ⟨"\u0130", Builtin.not⟩, ⟨"\u212A", Builtin.add⟩]
  have hmem : "οδος" ∈ (empty.after [⟨"ΟΔΟΣ", Builtin.echo⟩, ⟨"\u0130", Builtin.not⟩,
      ⟨"\u212A", Builtin.add⟩]).names := by decide +kernel
  have houtput : String.join ((empty.after [⟨"ΟΔΟΣ", Builtin.echo⟩, ⟨"\u0130", Builtin.not⟩,
      ⟨"\u212A", Builtin.add⟩]).entries.map fun e ↦ usageLine e.key e.command.signature ++ "\n") =
        "i\u0307 <Boolean>\nk <Int64> <Int64>\nοδος <String>\n" := by decide +kernel
  refine ⟨hmem, (hclosed.1 "οδος" hmem).2.2 Builtin.not, ?_⟩
  rw [hclosed.2, houtput]

end TypedLine.Registry
