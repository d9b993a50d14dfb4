import VoltageCapture.Header.Basic
import VoltageCapture.Proofs.Error

/-!
# Requirements and the checks for them

An operation that is asked for something with conditions checks them one after the other
and fails at the first that is not met.  Here the conditions are data: a `Requirement` is a
proposition together with the field that the failure names, and `FirstUnmet` finds the
first of some requirements that is not met.

`Decides step requirements post` says that a step decides about some requirements: it
succeeds, with a result for which `post` holds, if all are met, and fails with a validation
error that names the field of the first unmet one otherwise.  Steps in sequence decide
about their requirements in sequence (`Decides.bind`), so that a chain of checks is read
off link by link.
-/

namespace VoltageCapture

/-- A condition, and the field to name if it is not met. -/
structure Requirement where
  field : String
  met : Prop

/-- The field of the first requirement that is not met. -/
inductive FirstUnmet : List Requirement → String → Prop
  | here {requirement : Requirement} {rest : List Requirement} :
      ¬requirement.met → FirstUnmet (requirement :: rest) requirement.field
  | later {requirement : Requirement} {rest : List Requirement} {field : String} :
      requirement.met → FirstUnmet rest field → FirstUnmet (requirement :: rest) field

namespace FirstUnmet

variable {before after requirements : List Requirement} {field : String}

theorem exists_unmet (hfirst : FirstUnmet requirements field) :
    ∃ requirement ∈ requirements, requirement.field = field ∧ ¬requirement.met := by
  induction hfirst with
  | here hunmet => exact ⟨_, List.mem_cons_self, rfl, hunmet⟩
  | later _ _ ih =>
      obtain ⟨unmet, hmem, hfield, hunmet⟩ := ih
      exact ⟨unmet, List.mem_cons_of_mem _ hmem, hfield, hunmet⟩

theorem append (hfirst : FirstUnmet before field) (after : List Requirement) :
    FirstUnmet (before ++ after) field := by
  induction hfirst with
  | here hunmet => exact .here hunmet
  | later hmet _ ih => exact .later hmet ih

theorem append_of_met (hbefore : ∀ requirement ∈ before, requirement.met)
    (hfirst : FirstUnmet after field) : FirstUnmet (before ++ after) field := by
  induction before with
  | nil => exact hfirst
  | cons requirement before ih =>
      apply FirstUnmet.later (hbefore requirement List.mem_cons_self)
      exact ih fun other hother => hbefore other (List.mem_cons_of_mem _ hother)

end FirstUnmet

/-- The step succeeds with a result for which `post` holds if the requirements are met, and
otherwise fails with a validation error that names the field of the first unmet one. -/
inductive Decides {α : Type} (step : Except Error α) (requirements : List Requirement)
    (post : α → Prop) : Prop
  | accepts {result : α} (hresult : step = .ok result)
      (hmet : ∀ requirement ∈ requirements, requirement.met) (hpost : post result)
  | rejects {field message : String} (herror : step = .error (.validation field message))
      (hunmet : FirstUnmet requirements field)

namespace Decides

variable {α β : Type} {step : Except Error α} {next : α → Except Error β}
  {before after requirements : List Requirement} {post : α → Prop} {posterior : β → Prop}

/-! ## What has been decided -/

theorem exists_ok_iff (hstep : Decides step requirements post) :
    (∃ result, step = .ok result) ↔ ∀ requirement ∈ requirements, requirement.met := by
  cases hstep with
  | accepts hresult hmet _ => exact ⟨fun _ => hmet, fun _ => ⟨_, hresult⟩⟩
  | rejects herror hunmet =>
      refine ⟨fun ⟨result, hresult⟩ => ?_, fun hmet => ?_⟩
      · rw [herror] at hresult
        simp at hresult
      · obtain ⟨requirement, hmem, _, hnot⟩ := hunmet.exists_unmet
        exact absurd (hmet requirement hmem) hnot

theorem of_ok {result : α} (hstep : Decides step requirements post) (hresult : step = .ok result) :
    (∀ requirement ∈ requirements, requirement.met) ∧ post result := by
  cases hstep with
  | accepts hfound hmet hpost =>
      rw [hfound, Except.ok.injEq] at hresult
      exact ⟨hmet, hresult ▸ hpost⟩
  | rejects herror _ =>
      rw [herror] at hresult
      simp at hresult

theorem of_error {error : Error} (hstep : Decides step requirements post)
    (herror : step = .error error) :
    ∃ field message, error = .validation field message ∧ FirstUnmet requirements field := by
  cases hstep with
  | accepts hresult _ _ =>
      rw [hresult] at herror
      simp at herror
  | rejects hfound hunmet =>
      rw [hfound, Except.error.injEq] at herror
      exact ⟨_, _, herror.symm, hunmet⟩

/-! ## Steps in sequence -/

/-- The second step may rely on what the first has left. -/
theorem bind (hstep : Decides step before post)
    (hnext : ∀ result, post result → Decides (next result) after posterior) :
    Decides (step >>= next) (before ++ after) posterior := by
  cases hstep with
  | accepts hresult hmet hpost =>
      subst hresult
      cases hnext _ hpost with
      | accepts hlast hafter hposterior =>
          refine .accepts hlast ?_ hposterior
          intro requirement hmem
          exact (List.mem_append.mp hmem).elim (hmet requirement) (hafter requirement)
      | rejects herror hunmet => exact .rejects herror (hunmet.append_of_met hmet)
  | rejects herror hunmet =>
      subst herror
      exact .rejects rfl (hunmet.append after)

/-- A check that is sure to pass asks for nothing. -/
theorem require_bind {condition : Prop} [Decidable condition] {error : Error}
    {rest : Unit → Except Error β} (hcondition : condition)
    (hrest : Decides (rest ()) requirements posterior) :
    Decides (require condition error >>= rest) requirements posterior := by
  rw [require, if_pos hcondition]
  exact hrest

theorem pure {result : α} (hpost : post result) :
    Decides (Pure.pure result : Except Error α) [] post :=
  .accepts rfl (fun _ hmem => absurd hmem List.not_mem_nil) hpost

theorem forM {check : String → Except Error Unit} {requirement : String → Requirement}
    (hcheck : ∀ field, Decides (check field) [requirement field] fun _ => True)
    (fields : List String) :
    Decides (fields.forM check) (fields.map requirement) fun _ => True := by
  induction fields with
  | nil => exact Decides.pure trivial
  | cons field fields ih =>
      show Decides (check field >>= fun _ => fields.forM check) _ _
      exact (hcheck field).bind fun _ _ => ih

/-! ## Single checks -/

/-- A step that decides about one condition. -/
theorem single {field : String} {condition : Prop}
    (hmet : condition → ∃ result, step = .ok result ∧ post result)
    (hunmet : ¬condition → ∃ message, step = .error (.validation field message)) :
    Decides step [⟨field, condition⟩] post := by
  by_cases hcondition : condition
  · obtain ⟨result, hresult, hpost⟩ := hmet hcondition
    refine .accepts hresult ?_ hpost
    intro requirement hmem
    rw [List.mem_singleton.mp hmem]
    exact hcondition
  · obtain ⟨message, herror⟩ := hunmet hcondition
    exact .rejects herror (.here hcondition)

theorem ofRequire {field message : String} {condition asked : Prop} [Decidable condition]
    (hasked : condition ↔ asked) :
    Decides (require condition (.validation field message)) [⟨field, asked⟩] fun _ => asked := by
  apply single
  · intro hmet
    exact ⟨(), require_eq_ok.mpr (hasked.mpr hmet), hmet⟩
  · intro hunmet
    exact ⟨message, require_eq_error.mpr ⟨fun hcondition => hunmet (hasked.mp hcondition), rfl⟩⟩

end Decides

/-! ## Fields of a header -/

/-- The number that a header gives in a field, if it has the field and its value is an
unsigned integer of 32 bits. -/
def Header.number? (header : Header) (key : String) : Option Nat :=
  (header.value? key).bind Text.unsigned32?

namespace Header

variable {header : Header} {key : String} {number : Nat}

theorem unsigned32_of_number? (hnumber : header.number? key = some number) :
    header.unsigned32 key = .ok number := by
  obtain ⟨value, hvalue, hparsed⟩ := Option.bind_eq_some_iff.mp hnumber
  simp only [unsigned32, parsed, Header.value, hvalue, bind_eq_ok]
  exact ⟨value, rfl, by rw [hparsed]⟩

theorem unsigned32_of_number?_eq_none (hnone : header.number? key = none) :
    ∃ message, header.unsigned32 key = .error (.validation key message) := by
  cases hvalue : header.value? key with
  | none =>
      simp only [unsigned32, parsed, Header.value, hvalue]
      exact ⟨_, rfl⟩
  | some value =>
      have hparsed : Text.unsigned32? value = none := by
        rwa [number?, hvalue] at hnone
      simp only [unsigned32, parsed, Header.value, hvalue, bind_eq_error]
      exact ⟨_, Or.inr ⟨value, rfl, by rw [hparsed]⟩⟩

/-- Reading a number on which there is a condition, which zero does not satisfy.  A missing
number counts as zero, so it is refused like one. -/
theorem decides_number {p : Nat → Prop} [DecidablePred p] (hzero : ¬p 0) (header : Header)
    (key : String) (message : Nat → String) :
    Decides (do
        let number ← header.unsigned32 key
        require (p number) (.validation key (message number))
        return number)
      [⟨key, p ((header.number? key).getD 0)⟩]
      fun number => number = (header.number? key).getD 0 ∧ p number := by
  apply Decides.single
  · intro hmet
    cases hnumber : header.number? key with
    | none =>
        rw [hnumber] at hmet
        exact absurd hmet hzero
    | some number =>
        rw [hnumber, Option.getD_some] at hmet
        refine ⟨number, ?_, rfl, hmet⟩
        simp only [bind_eq_ok, pure_eq_ok, require_eq_ok]
        exact ⟨number, unsigned32_of_number? hnumber, (), hmet, rfl⟩
  · intro hunmet
    simp only [bind_eq_error, require_eq_error]
    cases hnumber : header.number? key with
    | none =>
        obtain ⟨message, herror⟩ := unsigned32_of_number?_eq_none hnumber
        exact ⟨message, Or.inl herror⟩
    | some number =>
        rw [hnumber, Option.getD_some] at hunmet
        exact ⟨_, Or.inr ⟨number, unsigned32_of_number? hnumber, Or.inl ⟨hunmet, rfl⟩⟩⟩

theorem decides_checkValue (header : Header) (key : String) (expected : Nat) :
    Decides (header.checkValue key expected) [⟨key, header.number? key = some expected⟩]
      fun _ => True := by
  apply Decides.single
  · intro hexpected
    refine ⟨(), ?_, trivial⟩
    simp only [checkValue, bind_eq_ok, require_eq_ok]
    exact ⟨expected, unsigned32_of_number? hexpected, rfl⟩
  · intro hother
    cases hnumber : header.number? key with
    | none =>
        obtain ⟨message, herror⟩ := unsigned32_of_number?_eq_none hnumber
        exact ⟨message, by simp only [checkValue, bind_eq_error]; exact Or.inl herror⟩
    | some number =>
        refine ⟨s!"expected {expected}, found {number}", ?_⟩
        simp only [checkValue, bind_eq_error, require_eq_error]
        refine Or.inr ⟨number, unsigned32_of_number? hnumber, fun heq => hother ?_, rfl⟩
        rw [hnumber, heq]

end Header

end VoltageCapture
