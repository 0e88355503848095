import TypedLine.Proofs.Dispatch

/-!
# Calls

A line makes one call or none. The call, if there is one, is of the command that is held under the
lower-case form of the name at the start of the line, and it has one argument of each kind of the
signature, in order (`makes_of_mem_calls`).

A handler is consulted nowhere but in the call. So the registry with other handlers under the same
keys and signatures refuses the same lines for the same reasons, and on the others the other handler
answers the same call (`resolve_withHandlers`).
-/

namespace TypedLine

open Text

/-- The entry of a registry that a call goes to. -/
def Invocation.entry (call : Invocation) : Entry :=
  ⟨lowerCase call.name, call.command⟩

namespace Registry

variable {r : Registry} {line : String} {call : Invocation}

/-- What is known when `line` **makes** a call. -/
structure Makes (r : Registry) (line : String) (call : Invocation) : Prop where
  /-- There is no other call. -/
  only : r.calls line = [call]
  /-- The reply is the result. -/
  result : r.run line = .ok (call.command.handler call.arguments)
  /-- The command is held under the lower-case form of its name. -/
  held : call.entry ∈ r.entries
  /-- The line starts with the name, and the text behind it decodes to the arguments. -/
  decodes : ∃ after rest, Named line call.name.toList after ∧
    Decodes call.command.signature after call.arguments rest

theorem makes_of_mem_calls (h : call ∈ r.calls line) : r.Makes line call := by
  obtain ⟨calls, result, hdispatch⟩ := exists_dispatches r line
  obtain ⟨hcalls, hresult⟩ := hdispatch.sound
  rw [hcalls] at h
  cases hdispatch with
  | blank => cases h
  | unknown => cases h
  | arity => cases h
  | argument => cases h
  | @called name after rest command vs hname hkey hcount hdec =>
    obtain rfl := List.mem_singleton.1 h
    refine ⟨hcalls, hresult, hkey, after, rest, ?_, hdec⟩
    show Named line (String.ofList name).toList after
    rwa [String.toList_ofList]

/-- The arguments of a call are of the kinds that its command declares. -/
theorem Makes.map_kind (h : r.Makes line call) :
    call.arguments.map Value.kind = call.command.signature := by
  obtain ⟨after, rest, -, hdec⟩ := h.decodes
  exact hdec.map_kind

theorem calls_of_run_eq_error {e : Failure} (h : r.run line = .error e) : r.calls line = [] := by
  rcases hresolve : r.resolve line with e' | call
  · exact (calls_of_error hresolve).1
  · rw [(calls_of_ok hresolve).2] at h
    cases h

/-- A line that has a reply has made a call. -/
theorem exists_makes_of_run_eq_ok {reply : Reply} (h : r.run line = .ok reply) :
    ∃ call, r.Makes line call ∧ reply = call.command.handler call.arguments := by
  rcases hresolve : r.resolve line with e | call
  · rw [(calls_of_error hresolve).2] at h
    cases h
  · obtain ⟨hcalls, hrun⟩ := calls_of_ok hresolve
    have hmakes : r.Makes line call := makes_of_mem_calls (by rw [hcalls]; exact .head _)
    rw [hrun] at h
    exact ⟨call, hmakes, (Except.ok.inj h).symm⟩

/-! ### Other handlers -/

/-- The registry with the same keys and signatures and with other handlers. -/
def withHandlers (r : Registry) (handlers : Entry → Handler) : Registry where
  entries := r.entries.map fun e ↦ ⟨e.key, ⟨e.command.signature, handlers e⟩⟩
  ordered := List.pairwise_map.2 r.ordered

theorem names_withHandlers (r : Registry) (handlers : Entry → Handler) :
    (r.withHandlers handlers).names = r.names :=
  List.map_map

theorem lookup?_withHandlers (r : Registry) (handlers : Entry → Handler) (key : String) :
    (r.withHandlers handlers).lookup? key =
      (r.lookup? key).map fun command ↦ ⟨command.signature, handlers ⟨key, command⟩⟩ := by
  rcases hfind : r.lookup? key with - | command
  · rw [lookup?_eq_none_iff, ← names_withHandlers r handlers] at hfind
    exact lookup?_eq_none_iff.2 hfind
  · rw [lookup?_eq_some_iff] at hfind
    exact lookup?_eq_some_iff.2 (List.mem_map_of_mem hfind)

/-- **Handlers are not asked before the call.** With other handlers a line is refused just as
before, or resolves to the same call of the other handler. -/
theorem resolve_withHandlers (r : Registry) (handlers : Entry → Handler) (line : String) :
    (r.withHandlers handlers).resolve line = (r.resolve line).map fun call ↦
      ⟨call.name, ⟨call.command.signature, handlers call.entry⟩, call.arguments⟩ := by
  by_cases hblank : isBlank line
  · rw [resolve_of_isBlank hblank, resolve_of_isBlank hblank]
    rfl
  · obtain ⟨name, after, hname⟩ := exists_named hblank
    rw [hname.resolve_eq, hname.resolve_eq, lookup?_withHandlers]
    rcases r.lookup? (lowerCase (String.ofList name)) with - | command
    · rfl
    · by_cases hcount : countedArguments line.toList name = command.arity
      · have hcount' : countedArguments line.toList name = Command.arity
            ⟨command.signature, handlers ⟨lowerCase (String.ofList name), command⟩⟩ := hcount
        simp only [Option.map_some, if_pos hcount, if_pos hcount']
        rcases ((Cursor.mk name after).readArguments (String.ofList name) command.signature
          0).outcome with e | vs
        · rfl
        · rfl
      · have hcount' : countedArguments line.toList name ≠ Command.arity
            ⟨command.signature, handlers ⟨lowerCase (String.ofList name), command⟩⟩ := hcount
        simp only [Option.map_some, if_neg hcount, if_neg hcount']
        rfl

/-- What the result depends on: the line is refused whatever the handlers are, or it is answered by
the handler that is called. -/
theorem run_withHandlers (r : Registry) (handlers : Entry → Handler) (line : String) :
    (r.withHandlers handlers).run line =
      (r.resolve line).map fun call ↦ handlers call.entry call.arguments := by
  rw [run, dispatch, resolve_withHandlers]
  rcases r.resolve line with e | call
  · rfl
  · rfl

/-! ### The discipline of calls -/

/-- **Calls are disciplined** on a line: a handler runs once, on what its command declares, or not
at all, and the result is what it replies. -/
structure Disciplined (r : Registry) (line : String) : Prop where
  /-- A line that is refused makes no call. It is refused whatever the handlers are. -/
  refused {e : Failure} : r.run line = .error e →
    r.calls line = [] ∧ ∀ handlers, (r.withHandlers handlers).run line = .error e
  /-- A line that is answered makes one call. It is of the command that is held under the lower-case
  form of the name that the line starts with, on one argument of each kind that is declared, and
  the answer is the reply of whatever handler is held there. -/
  answered {reply : Reply} : r.run line = .ok reply → ∃ (call : Invocation) (after : List Char),
    r.calls line = [call] ∧ LongestRun isBareChar line.toList call.name.toList after ∧
    call.entry ∈ r.entries ∧ call.arguments.length = call.command.arity ∧
    (∀ i : Nat, (call.arguments[i]?).map Value.kind = call.command.signature[i]?) ∧
    reply = call.command.handler call.arguments ∧
    ∀ handlers, (r.withHandlers handlers).run line = .ok (handlers call.entry call.arguments)

theorem disciplined (r : Registry) (line : String) : r.Disciplined line where
  refused := by
    intro e h
    refine ⟨calls_of_run_eq_error h, fun handlers ↦ ?_⟩
    rcases hresolve : r.resolve line with e' | call
    · rw [(calls_of_error hresolve).2] at h
      obtain rfl := Except.error.inj h
      rw [run_withHandlers, hresolve]
      rfl
    · rw [(calls_of_ok hresolve).2] at h
      cases h
  answered := by
    intro reply h
    obtain ⟨call, hmakes, rfl⟩ := exists_makes_of_run_eq_ok h
    obtain ⟨after, rest, hname, -⟩ := hmakes.decodes
    have hkinds := hmakes.map_kind
    refine ⟨call, after, hmakes.only, hname.longest, hmakes.held, ?_, ?_, rfl, ?_⟩
    · rw [Command.arity, ← hkinds, List.length_map]
    · intro i
      rw [← List.getElem?_map, hkinds]
    · intro handlers
      rcases hresolve : r.resolve line with e | call'
      · rw [(calls_of_error hresolve).2] at h
        cases h
      · obtain rfl : call' = call := by
          have hcalls := hmakes.only
          rw [(calls_of_ok hresolve).1] at hcalls
          exact List.singleton_inj.1 hcalls
        rw [run_withHandlers, hresolve]
        rfl

end Registry

end TypedLine
