import VoltageCapture.Error

/-!
# Operations made of steps

An operation made of steps succeeds exactly if each of its steps does, and fails with the
error of the first that does not.  These equivalences take such an operation apart, check
by check, where a proof needs to know what its outcome means, and put it together where a
proof shows that it succeeds.
-/

namespace VoltageCapture

variable {α β ε : Type} {condition : Prop} [Decidable condition]

/-- A step followed by others succeeds if it gives something that the others succeed
with. -/
theorem bind_eq_ok {first : Except ε α} {next : α → Except ε β} {result : β} :
    first >>= next = .ok result ↔ ∃ value, first = .ok value ∧ next value = .ok result := by
  cases first with
  | error error => simp [bind, Except.bind]
  | ok value => simp [bind, Except.bind]

theorem pure_eq_ok {value result : α} :
    (pure value : Except ε α) = .ok result ↔ value = result := by
  simp [pure, Except.pure]

theorem map_eq_ok {f : α → β} {first : Except ε α} {result : β} :
    f <$> first = .ok result ↔ ∃ value, first = .ok value ∧ f value = result := by
  cases first with
  | error error => simp [Functor.map, Except.map]
  | ok value => simp [Functor.map, Except.map]

theorem bind_eq_error {first : Except ε α} {next : α → Except ε β} {error : ε} :
    first >>= next = .error error ↔
      first = .error error ∨ ∃ value, first = .ok value ∧ next value = .error error := by
  cases first with
  | error error => simp [bind, Except.bind]
  | ok value => simp [bind, Except.bind]

theorem require_eq_ok {error : Error} {done : Unit} :
    require condition error = .ok done ↔ condition := by
  unfold require
  split <;> simp_all

/-- A check that does not pass fails with the error that it was given. -/
theorem require_eq_error {error found : Error} :
    require condition error = .error found ↔ ¬condition ∧ error = found := by
  unfold require
  split <;> simp_all

theorem requireAllocatable_eq_ok {length : Nat} {done : Unit} :
    requireAllocatable length = .ok done ↔ length ≤ Bytes.maxLength :=
  require_eq_ok

end VoltageCapture
