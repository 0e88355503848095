import Mathlib
import TypedLine.Builtin
import TypedLine.Proofs.Calls
import TypedLine.Proofs.Registration

/-!
# What the built-in commands reply

The handler of a built-in command has a way out for arguments that are not there as declared. A line
never takes it: a call has one argument of each kind of the signature, and on such arguments every
routine replies (`exists_replies`). So what a reply says, and what status it has, is decided by the
arguments and the key alone (`Replies`).
-/

namespace TypedLine

open Text

namespace Builtin

/-- The built-in commands are registered one after the other, and none of them is refused. -/
theorem registry_eq_after :
    registry = Registry.empty.after [⟨"echo", echo⟩, ⟨"not", not⟩, ⟨"add", add⟩,
      ⟨"repeat", repetition⟩, ⟨"scale", scale⟩, ⟨"div", div⟩] :=
  Registry.eq_of_entries_perm (.of_eq rfl)

/-- The built-in commands, and the routine that the handler of each is made of. -/
def routines : List (Entry × Routine) :=
  [(⟨"add", add⟩, sum), (⟨"div", div⟩, quotient), (⟨"echo", echo⟩, say), (⟨"not", not⟩, negate),
    (⟨"repeat", repetition⟩, repeated), (⟨"scale", scale⟩, product)]

theorem map_fst_routines : routines.map Prod.fst = registry.entries :=
  rfl

/-- **What the built-in commands reply**, by the key and by the arguments. -/
inductive Replies : (key : String) → Arguments → Reply → Prop
  | echo (text : String) : Replies "echo" [.string text] ⟨text, .success⟩
  | not (truth : Bool) : Replies "not" [.boolean truth] ⟨Value.booleanText !truth, .success⟩
  | sum {a b c : Int64} : c.toInt = a.toInt + b.toInt →
      Replies "add" [.int64 a, .int64 b] ⟨(Value.int64 c).text, .success⟩
  /-- No integer of 64 bits is the sum. -/
  | overflow {a b : Int64} : (∀ c : Int64, c.toInt ≠ a.toInt + b.toInt) →
      Replies "add" [.int64 a, .int64 b] ⟨"Integer overflow", .fail⟩
  | negative {text : String} {n : Int32} : n.toInt < 0 →
      Replies "repeat" [.string text, .int32 n]
        ⟨"Count must not be negative, got " ++ (Value.int32 n).text, .unparseable⟩
  | copies {text : String} {n : Int32} {m : Nat} : n.toInt = m → m ≤ 64 →
      Replies "repeat" [.string text, .int32 n] ⟨copies m text, .success⟩
  /-- No more than 64 copies are made. -/
  | capped {text : String} {n : Int32} : 64 < n.toInt →
      Replies "repeat" [.string text, .int32 n] ⟨copies 64 text, .warning⟩
  | product (a b : Single) :
      Replies "scale" [.single a, .single b] ⟨(Value.single (a.mul b)).text, .success⟩
  | quotient {a b : Double} : b.isZero = false →
      Replies "div" [.double a, .double b] ⟨(Value.double (a.div b)).text, .success⟩
  | byZero {a b : Double} : b.isZero = true →
      Replies "div" [.double a, .double b] ⟨"Division by zero", .fail⟩

/-! ### Every routine replies -/

variable {args : Arguments} {k l : Kind}

theorem exists_eq_of_kind {v : Value} (h : v.kind = k) : ∃ x : k.Carrier, v = .of k x := by
  subst h
  cases v with
  | string text => exact ⟨text, rfl⟩
  | boolean truth => exact ⟨truth, rfl⟩
  | int32 number => exact ⟨number, rfl⟩
  | int64 number => exact ⟨number, rfl⟩
  | single number => exact ⟨number, rfl⟩
  | double number => exact ⟨number, rfl⟩

theorem exists_eq_singleton (h : args.map Value.kind = [k]) : ∃ x : k.Carrier, args = [.of k x] := by
  obtain ⟨v, rfl, hv⟩ := List.map_eq_singleton_iff.1 h
  obtain ⟨x, rfl⟩ := exists_eq_of_kind hv
  exact ⟨x, rfl⟩

theorem exists_eq_pair (h : args.map Value.kind = [k, l]) :
    ∃ (x : k.Carrier) (y : l.Carrier), args = [.of k x, .of l y] := by
  obtain ⟨v, vs, rfl, hv, hvs⟩ := List.map_eq_cons_iff.1 h
  obtain ⟨x, rfl⟩ := exists_eq_of_kind hv
  obtain ⟨y, rfl⟩ := exists_eq_singleton hvs
  exact ⟨x, y, rfl⟩

theorem replies_sum (a b : Int64) :
    ∃ reply, sum [.int64 a, .int64 b] = .ok reply ∧
      Replies "add" [.int64 a, .int64 b] reply := by
  refine ⟨_, rfl, ?_⟩
  rcases hsum : int64? (a.toInt + b.toInt) with - | c
  · refine .overflow fun c hc ↦ ?_
    rw [int64?_eq_some_iff.2 hc] at hsum
    cases hsum
  · exact .sum (int64?_eq_some_iff.1 hsum)

theorem replies_repeated (text : String) (n : Int32) :
    ∃ reply, repeated [.string text, .int32 n] = .ok reply ∧
      Replies "repeat" [.string text, .int32 n] reply := by
  refine ⟨_, rfl, ?_⟩
  rcases hn : n.toInt with m | m
  · by_cases hm : maxCopies < m
    · show Replies _ _ (if maxCopies < m then _ else _)
      rw [if_pos hm]
      exact .capped (by rw [hn]; exact Int.ofNat_lt.2 hm)
    · show Replies _ _ (if maxCopies < m then _ else _)
      rw [if_neg hm]
      exact .copies hn (Nat.le_of_not_lt hm)
  · exact .negative (by rw [hn]; exact Int.negSucc_lt_zero m)

theorem replies_quotient (a b : Double) :
    ∃ reply, quotient [.double a, .double b] = .ok reply ∧
      Replies "div" [.double a, .double b] reply := by
  have hreply : quotient [.double a, .double b] =
      .ok (if b.isZero then ⟨"Division by zero", .fail⟩
        else ⟨(Value.double (a.div b)).text, .success⟩) := by
    show (if b.isZero then _ else _) = _
    split
    · rfl
    · rfl
  refine ⟨_, hreply, ?_⟩
  split
  · rename_i hzero
    exact .byZero hzero
  · rename_i hzero
    exact .quotient (Bool.eq_false_iff.2 hzero)

/-- **On arguments of its signature every built-in command replies**: its routine finds all that it
asks for. -/
theorem exists_replies : ∀ p ∈ routines, p.1.command.handler = checked p.2 ∧
    ∀ args : Arguments, args.map Value.kind = p.1.command.signature →
      ∃ reply, p.2 args = .ok reply ∧ Replies p.1.key args reply := by
  simp only [routines, List.forall_mem_cons, List.not_mem_nil, false_implies, implies_true,
    and_true]
  refine ⟨⟨rfl, ?_⟩, ⟨rfl, ?_⟩, ⟨rfl, ?_⟩, ⟨rfl, ?_⟩, ⟨rfl, ?_⟩, ⟨rfl, ?_⟩⟩
  · intro args hkinds
    obtain ⟨a, b, rfl⟩ := exists_eq_pair hkinds
    exact replies_sum a b
  · intro args hkinds
    obtain ⟨a, b, rfl⟩ := exists_eq_pair hkinds
    exact replies_quotient a b
  · intro args hkinds
    obtain ⟨text, rfl⟩ := exists_eq_singleton hkinds
    exact ⟨_, rfl, .echo text⟩
  · intro args hkinds
    obtain ⟨truth, rfl⟩ := exists_eq_singleton hkinds
    exact ⟨_, rfl, .not truth⟩
  · intro args hkinds
    obtain ⟨text, n, rfl⟩ := exists_eq_pair hkinds
    exact replies_repeated text n
  · intro args hkinds
    obtain ⟨a, b, rfl⟩ := exists_eq_pair hkinds
    exact ⟨_, rfl, .product a b⟩

/-! ### The status of a reply -/

/-- **The status that a reply has**, by the key and by the arguments: a count that is negative makes
no sense, one above 64 leaves copies out, a sum may not fit, and a divisor may be zero. Everything
else is a success. -/
def grade : (key : String) → Arguments → Status
  | "repeat", [.string _, .int32 n] =>
    if n.toInt < 0 then .unparseable else if 64 < n.toInt then .warning else .success
  | "add", [.int64 a, .int64 b] =>
    if -2 ^ 63 ≤ a.toInt + b.toInt ∧ a.toInt + b.toInt < 2 ^ 63 then .success else .fail
  | "div", [.double _, .double b] => if b.isZero then .fail else .success
  | _, _ => .success

variable {key : String} {reply : Reply}

theorem Replies.status_eq (h : Replies key args reply) : reply.status = grade key args := by
  cases h with
  | echo => rfl
  | not => rfl
  | @sum a b c hc =>
    have hfits := exists_int64_iff.1 ⟨c, hc⟩
    exact (if_pos hfits).symm
  | @overflow a b hc =>
    have hfits := mt exists_int64_iff.2 (not_exists.2 hc)
    exact (if_neg hfits).symm
  | negative hn => exact (if_pos hn).symm
  | @copies text n m hn hm =>
    show Status.success = if n.toInt < 0 then _ else if 64 < n.toInt then _ else _
    rw [if_neg (by omega), if_neg (by omega)]
  | @capped text n hn =>
    show Status.warning = if n.toInt < 0 then _ else if 64 < n.toInt then _ else _
    rw [if_neg (by omega), if_pos hn]
  | product => rfl
  | @quotient a b hb =>
    show Status.success = if b.isZero then _ else _
    rw [hb]
    rfl
  | @byZero a b hb =>
    show Status.fail = if b.isZero then _ else _
    rw [hb]
    rfl

/-- A count that is not negative is how many copies there are, up to 64. -/
theorem Replies.text_of_count {text : String} {n : Int32} {m : Nat} (h : Replies key args reply)
    (hargs : args = [.string text, .int32 n]) (hn : n.toInt = m) :
    reply.text = " ".intercalate (List.replicate (min m 64) text) := by
  cases h with
  | negative hneg =>
    cases hargs
    omega
  | @copies _ _ m' hn' hm =>
    cases hargs
    obtain rfl : m' = m := by omega
    rw [Nat.min_eq_left hm]
    rfl
  | capped hlt =>
    cases hargs
    rw [Nat.min_eq_right (by omega)]
    rfl
  | _ => cases hargs

/-- A routine that replies has its reply handed on. -/
theorem checked_of_ok {routine : Routine} (h : routine args = .ok reply) :
    checked routine args = reply := by
  simp only [checked, h]

/-- What comes of a call to a built-in command. -/
theorem exists_routine {line : String} (h : registry.run line = .ok reply) :
    ∃ call routine, registry.Makes line call ∧ (call.entry, routine) ∈ routines ∧
      call.command.handler = checked routine ∧ routine call.arguments = .ok reply ∧
      Replies call.entry.key call.arguments reply := by
  obtain ⟨call, hmakes, rfl⟩ := Registry.exists_makes_of_run_eq_ok h
  obtain ⟨⟨e, routine⟩, hmem, rfl⟩ : ∃ p ∈ routines, p.1 = call.entry := by
    have hheld := hmakes.held
    rw [← map_fst_routines] at hheld
    exact List.mem_map.1 hheld
  obtain ⟨hhandler, hreplies⟩ := exists_replies _ hmem
  obtain ⟨reply, hroutine, hreply⟩ := hreplies call.arguments hmakes.map_kind
  have hchecked : call.command.handler call.arguments = reply := by
    rw [show call.command.handler = checked routine from hhandler]
    exact checked_of_ok hroutine
  rw [hchecked]
  exact ⟨call, routine, hmakes, hmem, hhandler, hroutine, hreply⟩

/-- **Handlers are called with discipline, and the built-in ones find their arguments.** On every
line of every registry calls are disciplined. A built-in command that is called replies through its
routine and never through the way out for missing arguments; the reply is graded by the key and the
arguments, and the one command that takes a text and a count makes as many copies as it is asked
for, up to 64. -/
theorem handler_discipline (r : Registry) (line : String) :
    r.Disciplined line ∧
      ∀ reply, registry.run line = .ok reply → ∃ call routine,
        registry.calls line = [call] ∧ (call.entry, routine) ∈ routines ∧
        call.command.handler = checked routine ∧ routine call.arguments = .ok reply ∧
        reply.status = grade call.entry.key call.arguments ∧
        ∀ (text : String) (n : Int32) (m : Nat), call.arguments = [.string text, .int32 n] →
          n.toInt = m → reply.text = " ".intercalate (List.replicate (min m 64) text) := by
  refine ⟨r.disciplined line, fun reply h ↦ ?_⟩
  obtain ⟨call, routine, hmakes, hmem, hhandler, hroutine, hreply⟩ := exists_routine h
  refine ⟨call, routine, hmakes.only, hmem, hhandler, hroutine, hreply.status_eq, ?_⟩
  intro text n m hargs hn
  exact hreply.text_of_count hargs hn

/-- The line `RePeat ab 65` is answered with a warning and makes one call, in which the routine of
`repeat` finds its arguments. -/
theorem handler_discipline_capped :
    registry.run "RePeat ab 65" = .ok ⟨copies 64 "ab", .warning⟩ ∧
      ∃ call routine, registry.calls "RePeat ab 65" = [call] ∧ (call.entry, routine) ∈ routines ∧
        routine call.arguments = .ok ⟨copies 64 "ab", .warning⟩ ∧
        Status.warning = grade call.entry.key call.arguments := by
  have hrun : registry.run "RePeat ab 65" = .ok ⟨copies 64 "ab", .warning⟩ := by decide +kernel
  obtain ⟨call, routine, hcalls, hmem, -, hroutine, hstatus, -⟩ :=
    (handler_discipline registry "RePeat ab 65").2 _ hrun
  exact ⟨hrun, call, routine, hcalls, hmem, hroutine, hstatus⟩

end Builtin

end TypedLine
